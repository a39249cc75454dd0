import FPayNode.BlockMemory
import FPayNode.EventLoop

/-!
The sending half of `core/conn/Connection.cpp`, with the socket, the output
buffer and the events that epoll is asked for. `::send` is the kernel's: it
takes some of the bytes it is offered, or fails. The connection is not
encrypted, so `filterWrite` returns its argument.
-/

namespace FPayNode.OutputStream

open CommandProgram DecimalText ByteStream BlockBuffers EventLoop

abbrev OutputBuffer := BlockBuffer (8 * 1024) (128 * 8)

instance outputBlockNeZero : NeZero (8 * 1024) := ⟨by decide⟩

/-! The socket. -/

def EVENT_NONE : UInt32 := 0

def EVENT_ALL : UInt32 := -1

def EVENT_READ : UInt32 := 1

def EVENT_WRITE : UInt32 := 2

def EVENT_RW : UInt32 := 3

structure SockFlags where
  selevent : UInt8
  selected : Bool
  connected : Bool
  shutdown_send : Bool
  shutdown_recv : Bool

/-- What `::send` does. -/
inductive Kernel where
  | takes (count : Nat)
  | fails (errno : Int32)

/-- No more is sent at once, so that the count is not negative as an `int`. -/
def MAX_RW_COUNT : Nat := 0x7ffff000

/-- `Socket::send`: how many bytes the kernel took. -/
def send (kernel : Kernel) (nBufLen : Nat) : Except Exn Nat :=
  match kernel with
  | .takes count => .ok (min count (min nBufLen MAX_RW_COUNT))
  | .fails errno =>
      if ignored : isIgnoreError errno then .ok 0
      else .error (.socketExn errno (Bool.not_eq_true _ ▸ ignored))

/-- `EventEpoll::addEventHandler`: the events that epoll is asked for, none when
the socket is not in `_sockets`. -/
def addEventHandler (remove add : UInt32) (flags : SockFlags) : Option UInt32 → UInt32
  | none => EPOLLIN ||| (if EVENT_WRITE &&& add ≠ 0 then EPOLLOUT else 0)
  | some _ =>
      let currstate := (flags.selevent.toUInt32 &&& ~~~remove) ||| add
      (if currstate &&& EVENT_READ ≠ 0 then EPOLLIN else 0) |||
        (if currstate &&& EVENT_WRITE ≠ 0 then EPOLLOUT else 0)

/-- `SocketHandler::addEvent`. -/
def addEvent (remove add : UInt32) (flags : SockFlags) (events : Option UInt32) :
    SockFlags × Option UInt32 :=
  let add := if flags.shutdown_send then add &&& ~~~EVENT_WRITE else add
  let add := if flags.shutdown_recv then add &&& ~~~EVENT_READ else add
  let remove := remove &&& ~~~add
  let remove := remove &&& flags.selevent.toUInt32
  let add := add &&& ~~~flags.selevent.toUInt32
  if remove + add ≠ EVENT_NONE then
    ({ flags with
        selevent := ((flags.selevent.toUInt32 &&& ~~~remove) ||| add).toUInt8
        selected := true },
      some (addEventHandler remove add flags events))
  else (flags, events)

/-! The connection. -/

inductive ConnType where
  | ACCEPT | CONNECT
  deriving DecidableEq

/-- Kept for the statements: `wire`, what the kernel took; `created`, whether
`createConnection` has returned; and `failed`, whether the event handler was
told of an error. -/
structure Connection where
  cType : ConnType
  m_sock_flags : SockFlags
  events : Option UInt32
  bEnable : Bool
  _output : OutputBuffer
  wire : Bytes
  created : Bool
  failed : Bool

namespace Connection

/-- A connection that was accepted, or whose connect was started. -/
def make (cType : ConnType) (immediate : Bool) : Connection :=
  ⟨cType, ⟨0, false, cType = .ACCEPT || immediate, false, false⟩, none, true, .fresh, [], false,
    false⟩

def isConnected (conn : Connection) : Bool := conn.m_sock_flags.connected

def addEvent (remove add : UInt32) (conn : Connection) : Connection :=
  let (flags, events) := OutputStream.addEvent remove add conn.m_sock_flags conn.events
  { conn with m_sock_flags := flags, events := events }

/-- `_eventHandler->onError`. -/
def onError (conn : Connection) : Connection := { conn with failed := true }

/-! `SockBuffer`. -/

def append (app : Bytes) (conn : Connection) : Except Exn Unit × Connection :=
  match conn._output.append app with
  | none => (.error .otherException, conn)
  | some _output => (.ok (), { conn with _output := _output })

/-- What is sent at once is not put into the buffer. -/
def write (kernel : Kernel) (msg : Bytes) (conn : Connection) : Except Exn Unit × Connection :=
  if msg.length = 0 then (.ok (), conn)
  else
    match if conn._output.content = [] then send kernel msg.length else .ok 0 with
    | .error exn => (.error exn, conn)
    | .ok nsent => append (msg.drop nsent) { conn with wire := conn.wire ++ msg.take nsent }

def writeOnly (msg : Bytes) (conn : Connection) : Except Exn Unit × Connection :=
  if msg.length = 0 then (.ok (), conn) else append msg conn

def flush (kernel : Kernel) (conn : Connection) : Except Exn Unit × Connection :=
  match send kernel conn._output.size with
  | .error exn => (.error exn, conn)
  | .ok ret =>
      (.ok (), { conn with
        wire := conn.wire ++ conn._output.content.take ret
        _output := conn._output.erase ret })

/-! `Connection`. -/

def sendBin (kernel : Kernel) (data : Bytes) (conn : Connection) : Except Exn Unit × Connection :=
  if !conn.bEnable then (.ok (), conn)
  else if conn.isConnected then
    match write kernel data conn with
    | (.error exn, after) => (.error exn, after)
    | (.ok (), after) =>
        (.ok (), if after._output.content = [] then after else after.addEvent 0 EVENT_WRITE)
  else writeOnly data conn

def onConnected (kernel : Kernel) (conn : Connection) : Except Exn Unit × Connection :=
  if !conn.isConnected then (.ok (), conn.onError)
  else if conn._output.content = [] then (.ok (), conn.addEvent EVENT_ALL EVENT_READ)
  else
    match flush kernel conn with
    | (.error exn, after) => (.error exn, after)
    | (.ok (), after) =>
        let add :=
          if after._output.content = [] then EVENT_READ else EVENT_READ ||| EVENT_WRITE
        (.ok (), after.addEvent EVENT_ALL add)

def onWrite (kernel : Kernel) (conn : Connection) : Except Exn Unit × Connection :=
  match flush kernel conn with
  | (.ok (), after) =>
      (.ok (), if after._output.content = [] then after.addEvent EVENT_WRITE 0 else after)
  | (.error (.socketExn errno _), after) =>
      if errno = EAGAIN ∨ errno = EINTR then (.ok (), after) else (.ok (), after.onError)
  | (.error _, after) => (.ok (), after.onError)

def setConnected (conn : Connection) : Connection :=
  { conn with m_sock_flags := { conn.m_sock_flags with connected := true } }

/-- `error` is what `SO_ERROR` has. -/
def complete_nonblocking_connect (error : Int32) (conn : Connection) : Connection :=
  if error ≠ 0 then conn else conn.setConnected

/-- `TcpSock::doEvent`. Reading and timeouts leave the output of a connection
alone. -/
def doEvent (event : SockEvent) (error : Int32) (kernel : Kernel) (conn : Connection) :
    Except Exn Unit × Connection :=
  if conn.isConnected then
    match event with
    | .write => conn.onWrite kernel
    | .read | .timeout => (.ok (), conn)
  else
    match event with
    | .timeout => conn.onConnected kernel
    | .read | .write => (conn.complete_nonblocking_connect error).onConnected kernel

/-- The first events: for a connect, `TcpSock::addEvent` with
`EVENT_CONNECTING`. -/
def addFirst (kernel : Kernel) (conn : Connection) : Except Exn Unit × Connection :=
  match conn.cType with
  | .ACCEPT => (.ok (), conn.addEvent 0 EVENT_READ)
  | .CONNECT =>
      if conn.isConnected then conn.onConnected kernel
      else (.ok (), conn.addEvent 0 EVENT_RW)

/-- The end of `createConnection`. -/
def register (kernel : Kernel) (conn : Connection) : Except Exn Unit × Connection :=
  addFirst kernel { conn with created := true }

end Connection

/-! What a send that throws nothing has done. -/

namespace Connection
variable (conn after : Connection)

theorem append_ok (app : Bytes) (done : conn.append app = (.ok (), after)) :
    after.wire ++ after._output.content = conn.wire ++ conn._output.content ++ app := by
  rw [append] at done
  split at done
  · cases done
  · next output appended =>
      cases done
      change conn.wire ++ output.content = _
      rw [BlockMemory.append_content conn._output output app appended, List.append_assoc]

theorem write_ok (kernel : Kernel) (msg : Bytes) (done : conn.write kernel msg = (.ok (), after)) :
    after.wire ++ after._output.content = conn.wire ++ conn._output.content ++ msg := by
  rw [write] at done
  split at done
  · next nothing =>
      cases done
      rw [List.length_eq_zero_iff.mp nothing, List.append_nil]
  · by_cases empty : conn._output.content = []
    · rw [if_pos empty] at done
      split at done
      · cases done
      · next nsent _ =>
          rw [append_ok _ after _ done]
          change _ ++ conn._output.content ++ _ = _
          rw [empty, List.append_nil, List.append_nil, List.append_assoc, List.take_append_drop]
    · rw [if_neg empty] at done
      simp only [List.take_zero, List.append_nil, List.drop_zero] at done
      exact append_ok conn after msg done

/-- All of the message, on the wire or in the buffer. -/
theorem sendBin_ok (kernel : Kernel) (data : Bytes) (enabled : conn.bEnable = true)
    (done : conn.sendBin kernel data = (.ok (), after)) :
    after.wire ++ after._output.content = conn.wire ++ conn._output.content ++ data := by
  rw [sendBin, enabled, Bool.not_true, if_neg Bool.false_ne_true] at done
  split at done
  · split at done
    · cases done
    · next written wrote =>
        have stream := write_ok conn written kernel data wrote
        cases done
        split
        · exact stream
        · exact stream
  · rw [writeOnly] at done
    split at done
    · next nothing =>
        cases done
        rw [List.length_eq_zero_iff.mp nothing, List.append_nil]
    · exact append_ok conn after data done

theorem sendBin_disabled (kernel : Kernel) (data : Bytes) (disabled : conn.bEnable = false) :
    conn.sendBin kernel data = (.ok (), conn) := by
  rw [sendBin, disabled]
  rfl

end Connection

/-! Whether a connection is enabled is not the connection's affair. -/

namespace Connection
variable (conn : Connection) (kernel : Kernel)

theorem append_bEnable (app : Bytes) : (conn.append app).2.bEnable = conn.bEnable := by
  rw [append]
  split <;> rfl

theorem flush_bEnable : (conn.flush kernel).2.bEnable = conn.bEnable := by
  rw [flush]
  split <;> rfl

theorem sendBin_bEnable (data : Bytes) : (conn.sendBin kernel data).2.bEnable = conn.bEnable := by
  have written : (conn.write kernel data).2.bEnable = conn.bEnable := by
    rw [write]
    split
    · rfl
    · split
      · rfl
      · exact append_bEnable _ _
  rw [sendBin]
  split
  · rfl
  · split
    · split
      · next threw =>
          rw [threw] at written
          exact written
      · next done =>
          rw [done] at written
          split
          · exact written
          · exact written
    · rw [writeOnly]
      split
      · rfl
      · exact conn.append_bEnable data

theorem onConnected_bEnable : (conn.onConnected kernel).2.bEnable = conn.bEnable := by
  have flushed := conn.flush_bEnable kernel
  rw [onConnected]
  split
  · rfl
  · split
    · rfl
    · split
      · next threw =>
          rw [threw] at flushed
          exact flushed
      · next done =>
          rw [done] at flushed
          exact flushed

theorem onWrite_bEnable : (conn.onWrite kernel).2.bEnable = conn.bEnable := by
  have flushed := conn.flush_bEnable kernel
  rw [onWrite]
  split
  · next done =>
      rw [done] at flushed
      split
      · exact flushed
      · exact flushed
  · next threw =>
      rw [threw] at flushed
      split
      · exact flushed
      · exact flushed
  · next threw =>
      rw [threw] at flushed
      exact flushed

theorem doEvent_bEnable (event : SockEvent) (error : Int32) :
    (conn.doEvent event error kernel).2.bEnable = conn.bEnable := by
  have completed : (conn.complete_nonblocking_connect error).bEnable = conn.bEnable := by
    rw [complete_nonblocking_connect]
    split <;> rfl
  simp only [doEvent]
  split
  · cases event with
    | write => exact conn.onWrite_bEnable kernel
    | read | timeout => rfl
  · cases event with
    | timeout => exact conn.onConnected_bEnable kernel
    | read | write => exact (onConnected_bEnable _ kernel).trans completed

end Connection

inductive ConnCall where
  | sendBin (data : Bytes) (kernel : Kernel)
  | register (kernel : Kernel)
  | doEvent (event : SockEvent) (error : Int32) (kernel : Kernel)

def connection : Machine ConnCall (Except Exn Unit) Connection
  | .sendBin data kernel => Connection.sendBin kernel data
  | .register kernel => Connection.register kernel
  | .doEvent event error kernel => Connection.doEvent event error kernel

/-! Selecting events. -/

/-- The selected events and what epoll is asked for, by whether the connection
has been created and is connected and whether output is pending. -/
def watch : (created connected pending : Bool) → UInt8 × Option UInt32
  | false, false, _ => (0, none)
  | false, true, false => (0, none)
  | false, true, true => (2, some (EPOLLIN ||| EPOLLOUT))
  | true, false, _ => (3, some (EPOLLIN ||| EPOLLOUT))
  | true, true, false => (1, some EPOLLIN)
  | true, true, true => (3, some (EPOLLIN ||| EPOLLOUT))

/-- What `addEvent` makes of selected events when nothing was shut down. -/
def selects (remove add : UInt32) (before : UInt8 × Option UInt32) : UInt8 × Option UInt32 :=
  let after := addEvent remove add ⟨before.1, false, false, false, false⟩ before.2
  (after.1.selevent, after.2)

theorem selects_write : ∀ created pending : Bool,
    selects 0 EVENT_WRITE (watch created true pending) = watch created true true := by decide

theorem selects_written : ∀ pending : Bool,
    selects EVENT_WRITE 0 (watch true true pending) = watch true true false := by decide

theorem selects_accepted : ∀ pending : Bool,
    selects 0 EVENT_READ (watch false true pending) = watch true true pending := by decide

theorem selects_connecting : ∀ pending : Bool,
    selects 0 EVENT_RW (watch false false pending) = watch true false pending := by decide

/-- A connect that was completed by an event, or at once. -/
theorem selects_connected : ∀ earlier pending after : Bool,
    selects EVENT_ALL (if after then EVENT_READ ||| EVENT_WRITE else EVENT_READ)
      (watch earlier (!earlier) pending) = watch true true after := by decide

namespace Connection
variable (conn : Connection)

def pending : Bool := conn._output.content ≠ []

def watched : UInt8 × Option UInt32 := (conn.m_sock_flags.selevent, conn.events)

/-- The connection without the events that are selected. -/
structure Carries (log : Bytes) : Prop where
  enabled : conn.bEnable = true
  unfailed : conn.failed = false
  sends : conn.m_sock_flags.shutdown_send = false
  receives : conn.m_sock_flags.shutdown_recv = false
  accepted : conn.cType = .ACCEPT → conn.isConnected = true
  stream : conn.wire ++ conn._output.content = log
  unsent : conn.isConnected = false → conn.wire = []

structure Sound (log : Bytes) : Prop where
  carries : conn.Carries log
  selected : conn.watched = watch conn.created conn.isConnected conn.pending

/-- Nothing but the selected events changes. -/
theorem addEvent_frame (remove add : UInt32) :
    ∃ flags events,
      conn.addEvent remove add = { conn with m_sock_flags := flags, events := events } ∧
      flags.connected = conn.isConnected ∧
      flags.shutdown_send = conn.m_sock_flags.shutdown_send ∧
      flags.shutdown_recv = conn.m_sock_flags.shutdown_recv := by
  refine ⟨(OutputStream.addEvent remove add conn.m_sock_flags conn.events).1,
    (OutputStream.addEvent remove add conn.m_sock_flags conn.events).2, rfl, ?_, ?_, ?_⟩
  · simp only [OutputStream.addEvent, apply_ite Prod.fst, apply_ite SockFlags.connected, ite_self]
    rfl
  · simp only [OutputStream.addEvent, apply_ite Prod.fst, apply_ite SockFlags.shutdown_send,
      ite_self]
  · simp only [OutputStream.addEvent, apply_ite Prod.fst, apply_ite SockFlags.shutdown_recv,
      ite_self]

theorem addEvent_isConnected (remove add : UInt32) :
    (conn.addEvent remove add).isConnected = conn.isConnected := by
  obtain ⟨flags, events, same, connected, -, -⟩ := conn.addEvent_frame remove add
  rw [same]
  exact connected

theorem addEvent_carries (remove add : UInt32) (log : Bytes) (carries : conn.Carries log) :
    (conn.addEvent remove add).Carries log := by
  obtain ⟨flags, events, same, connected, sends, receives⟩ := conn.addEvent_frame remove add
  rw [same]
  refine ⟨carries.enabled, carries.unfailed, sends.trans carries.sends,
    receives.trans carries.receives, fun type => connected.trans (carries.accepted type),
    carries.stream, fun unconnected => ?_⟩
  exact carries.unsent (connected.symm.trans unconnected)

theorem addEvent_watched (remove add : UInt32) (log : Bytes) (carries : conn.Carries log) :
    (conn.addEvent remove add).watched = selects remove add conn.watched := by
  have sends := carries.sends
  have receives := carries.receives
  simp only [watched, addEvent, selects, OutputStream.addEvent, sends, receives, Bool.false_eq_true,
    if_false]
  split <;> rfl

/-- The events are as they should be once they were selected so. -/
theorem addEvent_sound (remove add : UInt32) (log : Bytes) (carries : conn.Carries log)
    (selected : selects remove add conn.watched =
      watch conn.created conn.isConnected conn.pending) :
    (conn.addEvent remove add).Sound log := by
  refine ⟨conn.addEvent_carries remove add log carries, ?_⟩
  rw [conn.addEvent_watched remove add log carries, conn.addEvent_isConnected, selected]
  rfl

/-- Bytes that move on to the wire, or `more` of them behind the others. -/
structure Moves (conn after : Connection) (more : Bytes) : Prop where
  carries : ∀ log, conn.Carries log → after.Carries (log ++ more)
  watched : after.watched = conn.watched
  created : after.created = conn.created
  connected : after.isConnected = conn.isConnected

theorem moves (wire : Bytes) (output : OutputBuffer) (more : Bytes)
    (stream : wire ++ output.content = conn.wire ++ conn._output.content ++ more)
    (unsent : conn.isConnected = false → wire = conn.wire) :
    Moves conn { conn with wire := wire, _output := output } more := by
  refine ⟨fun log carries => ?_, rfl, rfl, rfl⟩
  exact ⟨carries.enabled, carries.unfailed, carries.sends, carries.receives, carries.accepted,
    stream.trans (congrArg (· ++ more) carries.stream),
    fun no => (unsent no).trans (carries.unsent no)⟩

end Connection

/-! No socket error, and no more pending than the buffer can hold. -/

def Kernel.Takes : Kernel → Prop
  | .takes _ => True
  | .fails errno => isIgnoreError errno = true

theorem send_takes (kernel : Kernel) (nBufLen : Nat) (takes : kernel.Takes) :
    ∃ count, send kernel nBufLen = .ok count := by
  cases kernel with
  | takes count => exact ⟨_, rfl⟩
  | fails errno => exact ⟨0, dif_pos takes⟩

def maxPending : Nat := 128 * 8 * (8 * 1024)

namespace Connection
variable (conn : Connection)

/-- What `sendBin` has to put into the buffer. -/
def left (kernel : Kernel) (data : Bytes) : Bytes :=
  if conn.isConnected ∧ conn._output.content = [] then
    match send kernel data.length with
    | .ok nsent => data.drop nsent
    | .error _ => data
  else data

theorem append_room (app : Bytes) (room : (conn._output.content ++ app).length ≤ maxPending) :
    ∃ output, conn.append app = (.ok (), { conn with _output := output }) ∧
      output.content = conn._output.content ++ app := by
  obtain ⟨output, appended, content⟩ := BlockBuffer.append_some conn._output app room
  refine ⟨output, ?_, content⟩
  rw [append, appended]

theorem writeOnly_room (msg : Bytes)
    (room : (conn._output.content ++ msg).length ≤ maxPending) :
    ∃ after, conn.writeOnly msg = (.ok (), after) ∧ conn.Moves after msg := by
  by_cases nothing : msg.length = 0
  · rw [writeOnly, if_pos nothing, List.length_eq_zero_iff.mp nothing]
    exact ⟨conn, rfl, conn.moves conn.wire conn._output [] (List.append_nil _).symm fun _ => rfl⟩
  · obtain ⟨output, appended, content⟩ := conn.append_room msg room
    rw [writeOnly, if_neg nothing, appended]
    refine ⟨_, rfl, conn.moves conn.wire output msg ?_ fun _ => rfl⟩
    rw [content, List.append_assoc]

/-- The bytes that are sent at once are those that stand behind nothing. -/
theorem write_room (kernel : Kernel) (msg : Bytes) (takes : kernel.Takes)
    (connected : conn.isConnected = true)
    (room : (conn._output.content ++ conn.left kernel msg).length ≤ maxPending) :
    ∃ after, conn.write kernel msg = (.ok (), after) ∧ conn.Moves after msg ∧
      (conn._output.content ≠ [] → after._output.content ≠ []) := by
  have unsent (wire : Bytes) (no : conn.isConnected = false) : wire = conn.wire := by
    rw [connected] at no
    cases no
  by_cases nothing : msg.length = 0
  · rw [write, if_pos nothing, List.length_eq_zero_iff.mp nothing]
    exact ⟨conn, rfl, conn.moves conn.wire conn._output [] (List.append_nil _).symm fun _ => rfl, id⟩
  · by_cases empty : conn._output.content = []
    · obtain ⟨nsent, sent⟩ := send_takes kernel msg.length takes
      rw [left, if_pos ⟨connected, empty⟩, sent] at room
      obtain ⟨output, appended, content⟩ :=
        append_room { conn with wire := conn.wire ++ msg.take nsent } (msg.drop nsent) room
      rw [write, if_neg nothing, if_pos empty, sent]
      refine ⟨_, appended, conn.moves _ output msg ?_ (unsent _),
        fun nonempty => absurd empty nonempty⟩
      rw [content]
      change _ ++ (conn._output.content ++ _) = _
      rw [empty, List.nil_append, List.append_nil, List.append_assoc, List.take_append_drop]
    · rw [left, if_neg fun both => empty both.2] at room
      obtain ⟨output, appended, content⟩ := conn.append_room msg room
      rw [write, if_neg nothing, if_neg empty]
      simp only [List.take_zero, List.append_nil, List.drop_zero]
      refine ⟨_, appended, conn.moves conn.wire output msg ?_ fun _ => rfl,
        fun nonempty emptied => ?_⟩
      · rw [content, List.append_assoc]
      · change output.content = [] at emptied
        rw [content] at emptied
        exact nonempty (List.append_eq_nil_iff.mp emptied).1

theorem flush_takes (kernel : Kernel) (takes : kernel.Takes) (connected : conn.isConnected = true) :
    ∃ after, conn.flush kernel = (.ok (), after) ∧ conn.Moves after [] ∧
      (after._output.content ≠ [] → conn._output.content ≠ []) := by
  obtain ⟨ret, sent⟩ := send_takes kernel conn._output.size takes
  rw [flush, sent]
  refine ⟨_, rfl, conn.moves _ _ [] ?_ fun no => ?_, fun nonempty emptied => nonempty ?_⟩
  · rw [BlockBuffer.erase_content, List.append_assoc, List.take_append_drop, List.append_nil]
  · rw [connected] at no
    cases no
  · rw [BlockBuffer.erase_content, emptied, List.drop_nil]

/-! The functions keep a connection sound. -/

theorem pending_of (conn : Connection) (nonempty : conn._output.content ≠ []) :
    conn.pending = true :=
  decide_eq_true nonempty

theorem not_pending (conn : Connection) (emptied : conn._output.content = []) :
    conn.pending = false :=
  decide_eq_false fun nonempty => nonempty emptied

theorem sendBin_sound (kernel : Kernel) (data log : Bytes) (sound : conn.Sound log)
    (takes : kernel.Takes)
    (room : (conn._output.content ++ conn.left kernel data).length ≤ maxPending) :
    ∃ after, conn.sendBin kernel data = (.ok (), after) ∧ after.Sound (log ++ data) := by
  obtain ⟨carries, selected⟩ := sound
  rw [sendBin, carries.enabled, Bool.not_true, if_neg Bool.false_ne_true]
  cases connected : conn.isConnected with
  | false =>
      rw [left, if_neg fun both => by rw [connected] at both; cases both.1] at room
      obtain ⟨after, wrote, moves⟩ := conn.writeOnly_room data room
      rw [if_neg Bool.false_ne_true]
      refine ⟨after, wrote, moves.carries log carries, ?_⟩
      rw [moves.watched, moves.created, moves.connected, selected, connected]
      -- Before the connect, what is selected does not depend on the buffer.
      cases conn.created <;> rfl
  | true =>
      obtain ⟨after, wrote, moves, more⟩ := conn.write_room kernel data takes connected room
      rw [if_pos rfl, wrote]
      refine ⟨_, rfl, ?_⟩
      by_cases emptied : after._output.content = []
      · rw [if_pos emptied]
        refine ⟨moves.carries log carries, ?_⟩
        -- All of it was sent, so nothing was in the buffer before.
        have before := conn.not_pending (not_imp_not.mp more emptied)
        rw [moves.watched, moves.created, moves.connected, selected, before,
          after.not_pending emptied]
      · rw [if_neg emptied]
        apply after.addEvent_sound _ _ _ (moves.carries log carries)
        rw [moves.watched, moves.created, moves.connected, selected, after.pending_of emptied,
          connected]
        exact selects_write conn.created conn.pending

/-- `earlier` says when the connect was completed: in an event, or before the
connection was registered. -/
theorem onConnected_sound (kernel : Kernel) (log : Bytes) (earlier : Bool)
    (carries : conn.Carries log) (connected : conn.isConnected = true)
    (created : conn.created = true)
    (selected : ∃ pending, conn.watched = watch earlier (!earlier) pending)
    (takes : kernel.Takes) :
    ∃ after, conn.onConnected kernel = (.ok (), after) ∧ after.Sound log := by
  obtain ⟨pending, selected⟩ := selected
  rw [onConnected, connected, Bool.not_true, if_neg Bool.false_ne_true]
  by_cases empty : conn._output.content = []
  · rw [if_pos empty]
    refine ⟨_, rfl, conn.addEvent_sound _ _ log carries ?_⟩
    rw [selected, connected, created, conn.not_pending empty]
    exact selects_connected earlier pending false
  · obtain ⟨after, flushed, moves, -⟩ := conn.flush_takes kernel takes connected
    have carries' := moves.carries log carries
    rw [List.append_nil] at carries'
    rw [if_neg empty, flushed]
    refine ⟨_, rfl, after.addEvent_sound _ _ log carries' ?_⟩
    rw [moves.watched, selected, moves.connected, connected, moves.created, created]
    by_cases emptied : after._output.content = []
    · rw [if_pos emptied, after.not_pending emptied]
      exact selects_connected earlier pending false
    · rw [if_neg emptied, after.pending_of emptied]
      exact selects_connected earlier pending true

theorem onWrite_sound (kernel : Kernel) (log : Bytes) (sound : conn.Sound log)
    (connected : conn.isConnected = true) (created : conn.created = true) (takes : kernel.Takes) :
    ∃ after, conn.onWrite kernel = (.ok (), after) ∧ after.Sound log := by
  obtain ⟨carries, selected⟩ := sound
  obtain ⟨after, flushed, moves, less⟩ := conn.flush_takes kernel takes connected
  have carries' := moves.carries log carries
  rw [List.append_nil] at carries'
  rw [onWrite, flushed]
  refine ⟨_, rfl, ?_⟩
  rw [connected, created] at selected
  by_cases emptied : after._output.content = []
  · rw [if_pos emptied]
    apply after.addEvent_sound _ _ log carries'
    rw [moves.watched, selected, moves.connected, connected, moves.created, created,
      after.not_pending emptied]
    exact selects_written conn.pending
  · rw [if_neg emptied]
    refine ⟨carries', ?_⟩
    rw [moves.watched, selected, moves.connected, connected, moves.created, created,
      after.pending_of emptied, conn.pending_of (less emptied)]

theorem doEvent_sound (event : SockEvent) (error : Int32) (kernel : Kernel) (log : Bytes)
    (sound : conn.Sound log) (created : conn.created = true) (takes : kernel.Takes)
    (succeeds : conn.isConnected = false → error = 0 ∧ event ≠ .timeout) :
    ∃ after, conn.doEvent event error kernel = (.ok (), after) ∧ after.Sound log := by
  cases connected : conn.isConnected with
  | true =>
      cases event with
      | write =>
          rw [show conn.doEvent .write error kernel = conn.onWrite kernel from if_pos connected]
          exact conn.onWrite_sound kernel log sound connected created takes
      | read => exact ⟨conn, if_pos connected, sound⟩
      | timeout => exact ⟨conn, if_pos connected, sound⟩
  | false =>
      -- Any event completes the connect, and what was buffered is flushed.
      obtain ⟨noError, inTime⟩ := succeeds connected
      obtain ⟨carries, selected⟩ := sound
      rw [connected, created] at selected
      have unconnected : ¬ conn.isConnected = true := by
        rw [connected]
        exact Bool.false_ne_true
      have carries' : conn.setConnected.Carries log :=
        ⟨carries.enabled, carries.unfailed, carries.sends, carries.receives, fun _ => rfl,
          carries.stream, fun no => nomatch no⟩
      have done := conn.setConnected.onConnected_sound kernel log true carries' rfl created
        ⟨conn.pending, selected⟩ takes
      have completes : conn.complete_nonblocking_connect error = conn.setConnected :=
        if_neg (not_not.mpr noError)
      rw [← completes] at done
      cases event with
      | timeout => exact absurd rfl inTime
      | read =>
          rw [show conn.doEvent .read error kernel = _ from if_neg unconnected]
          exact done
      | write =>
          rw [show conn.doEvent .write error kernel = _ from if_neg unconnected]
          exact done

theorem addFirst_sound (kernel : Kernel) (log : Bytes) (carries : conn.Carries log)
    (created : conn.created = true)
    (selected : conn.watched = watch false conn.isConnected conn.pending) (takes : kernel.Takes) :
    ∃ after, conn.addFirst kernel = (.ok (), after) ∧ after.Sound log := by
  cases type : conn.cType with
  | ACCEPT =>
      have connected := carries.accepted type
      rw [addFirst, type]
      refine ⟨_, rfl, conn.addEvent_sound _ _ log carries ?_⟩
      rw [selected, created, connected]
      exact selects_accepted conn.pending
  | CONNECT =>
      rw [addFirst, type]
      simp only
      cases connected : conn.isConnected with
      | true =>
          rw [if_pos rfl]
          rw [connected] at selected
          exact conn.onConnected_sound kernel log false carries connected created
            ⟨conn.pending, selected⟩ takes
      | false =>
          rw [if_neg Bool.false_ne_true]
          refine ⟨_, rfl, conn.addEvent_sound _ _ log carries ?_⟩
          rw [selected, created, connected]
          exact selects_connecting conn.pending

theorem register_sound (kernel : Kernel) (log : Bytes) (sound : conn.Sound log)
    (fresh : conn.created = false) (takes : kernel.Takes) :
    ∃ after, conn.register kernel = (.ok (), after) ∧ after.Sound log := by
  obtain ⟨carries, selected⟩ := sound
  rw [fresh] at selected
  refine addFirst_sound { conn with created := true } kernel log ?_ rfl selected takes
  exact ⟨carries.enabled, carries.unfailed, carries.sends, carries.receives, carries.accepted,
    carries.stream, carries.unsent⟩

end Connection

/-- Calls as they can come: a connection is registered once and gets events only
after that; there is no socket error, and what is pending fits the buffer. -/
def Smooth (conn : Connection) : ConnCall → Prop
  | .sendBin data kernel =>
      kernel.Takes ∧ (conn._output.content ++ conn.left kernel data).length ≤ maxPending
  | .register kernel => kernel.Takes ∧ conn.created = false
  | .doEvent event error kernel => kernel.Takes ∧ conn.created = true ∧
      (conn.isConnected = false → error = 0 ∧ event ≠ .timeout)

/-- The messages of all `sendBin` calls, in the order of the calls. -/
def messages : List ConnCall → Bytes
  | [] => []
  | .sendBin data _ :: calls => data ++ messages calls
  | .register _ :: calls | .doEvent _ _ _ :: calls => messages calls

theorem connection_sound (conn : Connection) (log : Bytes) (call : ConnCall)
    (sound : conn.Sound log) (smooth : Smooth conn call) :
    ∃ after, connection call conn = (.ok (), after) ∧ after.Sound (log ++ messages [call]) := by
  cases call with
  | sendBin data kernel =>
      obtain ⟨takes, room⟩ := smooth
      rw [messages, messages, List.append_nil]
      exact conn.sendBin_sound kernel data log sound takes room
  | register kernel =>
      obtain ⟨takes, fresh⟩ := smooth
      rw [messages, messages, List.append_nil]
      exact conn.register_sound kernel log sound fresh takes
  | doEvent event error kernel =>
      obtain ⟨takes, created, succeeds⟩ := smooth
      rw [messages, messages, List.append_nil]
      exact conn.doEvent_sound event error kernel log sound created takes succeeds

theorem messages_cons (call : ConnCall) (calls : List ConnCall) :
    messages (call :: calls) = messages [call] ++ messages calls := by
  cases call with
  | sendBin data kernel => simp only [messages, List.append_nil]
  | register kernel => rfl
  | doEvent event error kernel => rfl

/-- A run throws nothing and leaves the connection sound. -/
theorem calls_sound (calls : List ConnCall) (conn : Connection) (log : Bytes)
    (sound : conn.Sound log) (smooth : Throughout connection Program.perform Smooth conn calls) :
    (∀ result ∈ results connection Program.perform conn calls, result = .ok ()) ∧
      (runAll connection Program.perform conn calls).Sound (log ++ messages calls) := by
  induction calls generalizing conn log with
  | nil =>
      rw [messages, List.append_nil]
      exact ⟨fun _ member => absurd member List.not_mem_nil, sound⟩
  | cons call calls ih =>
      obtain ⟨first, rest⟩ := smooth
      obtain ⟨after, done, sound'⟩ := connection_sound conn log call sound first
      have same : CommandProgram.after connection Program.perform conn call = after :=
        congrArg Prod.snd done
      rw [same] at rest
      obtain ⟨quiet, last⟩ := ih after _ sound' rest
      rw [messages_cons, ← List.append_assoc, results_cons, runAll_cons, same]
      refine ⟨fun result member => ?_, last⟩
      rcases List.mem_cons.mp member with now | later
      · rw [now]
        exact congrArg Prod.fst done
      · exact quiet result later

theorem make_sound (cType : ConnType) (immediate : Bool) :
    (Connection.make cType immediate).Sound [] := by
  refine ⟨⟨rfl, rfl, rfl, rfl, fun accepted => ?_, rfl, fun _ => rfl⟩, ?_⟩
  · change cType = .ACCEPT at accepted
    rw [accepted]
    rfl
  · change (0, none) = watch false (cType = .ACCEPT || immediate) false
    cases (decide (cType = .ACCEPT) || immediate) <;> rfl

theorem watch_connected : ∀ pending : Bool,
    ((watch true true pending).1.toUInt32 &&& EVENT_WRITE ≠ 0 ↔ pending = true) ∧
      ∃ events, (watch true true pending).2 = some events ∧
        (events &&& EPOLLOUT ≠ 0 ↔ pending = true) := by
  intro pending
  cases pending with
  | false => exact ⟨by decide, _, rfl, by decide⟩
  | true => exact ⟨by decide, _, rfl, by decide⟩

/-- In every run of such calls: the bytes on the wire and those in the buffer
are the messages, in their order; nothing is on the wire before the connect has
completed; and when the connection is created and connected, writing is
selected, and epoll is asked for it, exactly when something is in the buffer. -/
theorem output_in_order (cType : ConnType) (immediate : Bool) (calls : List ConnCall)
    (smooth : Throughout connection Program.perform Smooth (.make cType immediate) calls) :
    ∃ conn, runAll connection Program.perform (.make cType immediate) calls = conn ∧
      conn.wire ++ conn._output.content = messages calls ∧
      (conn.isConnected = false → conn.wire = []) ∧
      (conn.created = true → conn.isConnected = true →
        (conn.m_sock_flags.selevent.toUInt32 &&& EVENT_WRITE ≠ 0 ↔ conn._output.content ≠ []) ∧
        ∃ events, conn.events = some events ∧
          (events &&& EPOLLOUT ≠ 0 ↔ conn._output.content ≠ [])) ∧
      conn.failed = false ∧
      ∀ result ∈ results connection Program.perform (.make cType immediate) calls,
        result = .ok () := by
  obtain ⟨quiet, carries, selected⟩ :=
    calls_sound calls _ [] (make_sound cType immediate) smooth
  generalize runAll connection Program.perform (.make cType immediate) calls = conn at *
  refine ⟨conn, rfl, carries.stream, carries.unsent, fun created connected => ?_, carries.unfailed,
    quiet⟩
  rw [created, connected] at selected
  have selevent : conn.m_sock_flags.selevent = _ := congrArg Prod.fst selected
  have events : conn.events = _ := congrArg Prod.snd selected
  obtain ⟨writes, asked, is, reports⟩ := watch_connected conn.pending
  rw [← selevent] at writes
  rw [← events] at is
  exact ⟨writes.trans decide_eq_true_iff, asked, is, reports.trans decide_eq_true_iff⟩

/-- Messages before and after a connect that takes its time, short writes, and a
last one. -/
def shortWrites : List ConnCall :=
  [.sendBin [1, 2, 3] (.takes 9), .register (.takes 9), .sendBin [4] (.takes 9),
    .doEvent .write 0 (.takes 2), .sendBin [5, 6] (.takes 9), .doEvent .write 0 (.fails EAGAIN),
    .doEvent .write 0 (.takes 3), .doEvent .write 0 (.takes 9)]

theorem output_in_order_shortWrites :
    ∃ conn, runAll connection Program.perform (.make .CONNECT false) shortWrites = conn ∧
      conn.wire ++ conn._output.content = [1, 2, 3, 4, 5, 6] ∧
      (conn.isConnected = false → conn.wire = []) ∧
      (conn.created = true → conn.isConnected = true →
        (conn.m_sock_flags.selevent.toUInt32 &&& EVENT_WRITE ≠ 0 ↔ conn._output.content ≠ []) ∧
        ∃ events, conn.events = some events ∧
          (events &&& EPOLLOUT ≠ 0 ↔ conn._output.content ≠ [])) ∧
      conn.failed = false ∧
      ∀ result ∈ results connection Program.perform (.make .CONNECT false) shortWrites,
        result = .ok () := by
  refine output_in_order .CONNECT false shortWrites ?_
  refine ⟨⟨trivial, ?_⟩, ⟨trivial, rfl⟩, ⟨trivial, ?_⟩, ⟨trivial, rfl, fun _ => ⟨rfl, by decide⟩⟩,
    ⟨trivial, ?_⟩, ⟨rfl, ?_⟩, ⟨trivial, ?_⟩, ⟨trivial, ?_⟩, trivial⟩
  all_goals decide +kernel

end FPayNode.OutputStream
