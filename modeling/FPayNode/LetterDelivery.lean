import FPayNode.NodeProcess
import FPayNode.RoutedFrames

/-!
What `DirectWriter` puts on its connections in a whole run, with sends that fail,
connections that are lost and others that are opened in their place. A message
goes to one connection at most, which was opened to the message's server, and
what goes over a connection are whole frames behind one another, up to the place
where it was lost.
-/

namespace FPayNode.LetterDelivery

open CommandProgram DecimalText ByteStream BlockBuffers JsonFrames SenderFrames OutputStream
open RedisCache Messages NodeService NodeRequests RequestJson RequestDispatch FrameDelivery
open NodeProcess
open RoutedConnections RoutedFrames
open EventLoop (SockEvent)

/-! One connection. -/

section Stream
variable (conn : Connection) (kernel : Kernel)

/-- What was sent and what waits to be. -/
def streamed (conn : Connection) : Bytes := conn.wire ++ conn._output.content

theorem flush_streamed : streamed (conn.flush kernel).2 = streamed conn := by
  rw [Connection.flush]
  split
  · rfl
  · next ret _ =>
      change conn.wire ++ _ ++ (conn._output.erase ret).content = _
      rw [BlockBuffer.erase_content, List.append_assoc, List.take_append_drop, streamed]

theorem onConnected_streamed : streamed (conn.onConnected kernel).2 = streamed conn := by
  have flushed := flush_streamed conn kernel
  rw [Connection.onConnected]
  split
  · rfl
  · split
    · rfl
    · split
      · next threw =>
          rw [threw] at flushed
          exact flushed
      · next done =>
          rw [done] at flushed
          exact flushed

theorem onWrite_streamed : streamed (conn.onWrite kernel).2 = streamed conn := by
  have flushed := flush_streamed conn kernel
  rw [Connection.onWrite]
  split
  · next done =>
      rw [done] at flushed
      split
      · exact flushed
      · exact flushed
  · next threw =>
      rw [threw] at flushed
      split
      · exact flushed
      · exact flushed
  · next threw =>
      rw [threw] at flushed
      exact flushed

/-- Events move bytes from the buffer to the wire. -/
theorem doEvent_streamed (event : SockEvent) (error : Int32) :
    streamed (conn.doEvent event error kernel).2 = streamed conn := by
  have completed : streamed (conn.complete_nonblocking_connect error) = streamed conn := by
    rw [Connection.complete_nonblocking_connect]
    split <;> rfl
  simp only [Connection.doEvent]
  split
  · cases event with
    | read => rfl
    | write => exact onWrite_streamed conn kernel
    | timeout => rfl
  · cases event with
    | read => exact (onConnected_streamed _ kernel).trans completed
    | write => exact (onConnected_streamed _ kernel).trans completed
    | timeout => exact onConnected_streamed conn kernel

theorem append_fails (app : Bytes) (after : Connection) (exn : Exn)
    (failed : conn.append app = (.error exn, after)) : after = conn := by
  rw [Connection.append] at failed
  split at failed
  · cases failed
    rfl
  · cases failed

/-- A send that throws may have sent the beginning of the message. -/
theorem write_fails (msg : Bytes) (after : Connection) (exn : Exn)
    (failed : conn.write kernel msg = (.error exn, after)) :
    ∃ part, part <+: msg ∧ streamed after = streamed conn ++ part := by
  rw [Connection.write] at failed
  split at failed
  · cases failed
  · split at failed
    · cases failed
      exact ⟨[], List.nil_prefix, (List.append_nil _).symm⟩
    · next nsent sent =>
        have same := append_fails _ _ _ _ failed
        subst same
        by_cases empty : conn._output.content = []
        · exact ⟨msg.take nsent, List.take_prefix nsent msg, by simp [streamed, empty]⟩
        · rw [if_neg empty] at sent
          cases sent
          exact ⟨[], List.nil_prefix, by simp [streamed]⟩

theorem sendBin_part (data : Bytes) (enabled : conn.bEnable = true) :
    ∃ part, part <+: data ∧
      streamed (conn.sendBin kernel data).2 = streamed conn ++ part ∧
      ((conn.sendBin kernel data).1 = .ok () → part = data) := by
  cases sent : conn.sendBin kernel data with
  | mk result after =>
      cases result with
      | ok _ =>
          exact ⟨data, List.prefix_rfl, Connection.sendBin_ok conn after kernel data enabled sent,
            fun _ => rfl⟩
      | error exn =>
          rw [Connection.sendBin, enabled, Bool.not_true, if_neg Bool.false_ne_true] at sent
          split at sent
          · split at sent
            · next threw =>
                cases sent
                obtain ⟨part, within, stream⟩ := write_fails conn kernel data _ _ threw
                exact ⟨part, within, stream, fun done => by cases done⟩
            · cases sent
          · refine ⟨[], List.nil_prefix, ?_, fun done => by cases done⟩
            rw [Connection.writeOnly] at sent
            split at sent
            · cases sent
            · rw [append_fails conn data after exn sent, List.append_nil]

/-- The first message of a connection is appended, or nothing is: behind an empty
buffer there is room for what the kernel does not take. -/
theorem sendBin_first (data : Bytes) (enabled : conn.bEnable = true)
    (empty : conn._output.content = []) (room : data.length ≤ maxPending) :
    streamed (conn.sendBin kernel data).2 = streamed conn ∨
      streamed (conn.sendBin kernel data).2 = streamed conn ++ data := by
  cases sent : conn.sendBin kernel data with
  | mk result after =>
      cases result with
      | ok _ =>
          exact .inr (Connection.sendBin_ok conn after kernel data enabled sent)
      | error exn =>
          rw [Connection.sendBin, enabled, Bool.not_true, if_neg Bool.false_ne_true] at sent
          have fits (waiting : Connection) (app : Bytes) (nothing : waiting._output.content = [])
              (short : app.length ≤ maxPending) : (waiting.append app).1 = .ok () := by
            obtain ⟨output, appended, -⟩ := waiting.append_room app (by
              rw [nothing, List.nil_append]
              exact short)
            rw [appended]
          split at sent
          · split at sent
            · next threw =>
                cases sent
                rw [Connection.write] at threw
                split at threw
                · cases threw
                · split at threw
                  · cases threw
                    exact .inl rfl
                  · next nsent _ =>
                      have done := fits { conn with wire := conn.wire ++ data.take nsent }
                        (data.drop nsent) empty ((List.drop_suffix nsent data).length_le.trans room)
                      rw [threw] at done
                      cases done
            · cases sent
          · rw [Connection.writeOnly] at sent
            split at sent
            · cases sent
            · have done := fits conn data empty room
              rw [sent] at done
              cases done

end Stream

/-! One call. -/

/-- A message with the connection it is for, and the server it was dispatched to
if it was not sent by the connection's id. -/
structure Letter where
  ptr : Nat
  server : Option UInt64
  outgoing : Outgoing

/-- The connection that a message to a server is for: the one that is there, or
the next one. -/
def connectionFor (writer : DirectWriter) (sid : UInt64) (connect : Connect) : Option Nat :=
  match writer._sid2cid.lookup sid with
  | some cid => writer.connMap.lookup cid
  | none =>
      match connect with
      | .refused => none
      | .begun _ => if sid = -1 then none else some writer.created

def letterOf (writer : DirectWriter) : WriterCall → Option Letter
  | .route sid outgoing connect _ =>
      (connectionFor writer sid connect).map fun ptr => ⟨ptr, some sid, outgoing⟩
  | .sendTo ipport outgoing connect _ =>
      match serverOf ipport with
      | .ok (some sid) =>
          (connectionFor writer sid connect).map fun ptr => ⟨ptr, some sid, outgoing⟩
      | _ => none
  | .dispatchById cid outgoing _ =>
      (writer.connMap.lookup cid).map fun ptr => ⟨ptr, none, outgoing⟩
  | _ => none

/-- The frame fits the output buffer of a connection. -/
def Fits (outgoing : Outgoing) : Prop := HEADER_SIZE + outgoing.body.length ≤ maxPending

instance (outgoing : Outgoing) : Decidable (Fits outgoing) :=
  inferInstanceAs (Decidable (_ ≤ _))

/-- Where an object comes from that is there after a call: it was there, and its
stream is what it was or goes on with a message for it; or it is new. A message
is passed over by a disabled connection only. -/
inductive Ships (writer : DirectWriter) (letter : Option Letter) (ptr : Nat) (after : Conn) :
    Prop where
  | same (conn : Conn) (found : writer.heap.lookup ptr = some conn)
      (address : (after.peerIp, after.peerPort) = (conn.peerIp, conn.peerPort))
      (stream : after.stream = conn.stream)
      (enabled : after.isEnable = true →
        conn.isEnable = true ∧ ∀ meant ∈ letter, meant.ptr ≠ ptr)
  | more (conn : Conn) (server : Option UInt64) (outgoing : Outgoing)
      (found : writer.heap.lookup ptr = some conn)
      (address : (after.peerIp, after.peerPort) = (conn.peerIp, conn.peerPort))
      (meant : letter = some ⟨ptr, server, outgoing⟩) (enabled : conn.isEnable = true)
      (part : after.stream <+: conn.stream ++ frame outgoing)
      (whole : after.isEnable = true → after.stream = conn.stream ++ frame outgoing)
  | new (sid : UInt64) (outgoing : Outgoing) (next : ptr = writer.created)
      (meant : letter = some ⟨ptr, some sid, outgoing⟩)
      (address : getAddressFromSId sid = (after.peerIp, after.peerPort))
      (stream : after.stream = [] ∨ after.stream = frame outgoing)

section Calls
variable (writer : DirectWriter)

theorem Ships.untouched (letter : Option Letter) (ptr : Nat) (conn : Conn)
    (found : writer.heap.lookup ptr = some conn)
    (others : conn.isEnable = true → ∀ meant ∈ letter, meant.ptr ≠ ptr) :
    Ships writer letter ptr conn :=
  .same conn found rfl rfl fun enabled => ⟨enabled, others enabled⟩

theorem Ships.silent (ptr : Nat) (conn : Conn) (found : writer.heap.lookup ptr = some conn) :
    Ships writer none ptr conn :=
  .untouched writer none ptr conn found fun _ _ meant => by cases meant

theorem lookup_eraseConnection (conn : Option Nat) (ptr : Nat) (object : Conn)
    (found : (writer.eraseConnection conn).heap.lookup ptr = some object) :
    writer.heap.lookup ptr = some object := by
  rcases eraseConnection_cases writer conn with same | ⟨other, erased, -, same⟩
  · rw [same] at found
    exact found
  · rw [same, DirectWriter.eraseFromMap] at found
    split at found
    · exact (lookup_heap_erased writer other ptr object found).2
    · exact found

theorem lookup_eraseDisabled (ids : List UInt32) (ptr : Nat) (object : Conn)
    (found : (DirectWriter.eraseDisabled ids writer).heap.lookup ptr = some object) :
    writer.heap.lookup ptr = some object := by
  induction ids generalizing writer with
  | nil => exact found
  | cons id rest ih =>
      rw [DirectWriter.eraseDisabled] at found
      split at found
      · exact ih writer found
      · split at found
        · exact lookup_eraseConnection writer _ ptr object (ih _ found)
        · exact ih writer found

/-- One object has changed. -/
theorem ships_stored (letter : Option Letter) (ptr other : Nat) (changed object : Conn)
    (found : (writer.heap.insert ptr changed).lookup other = some object)
    (meant : ∀ meant ∈ letter, meant.ptr = ptr)
    (ships : Ships writer letter ptr changed) : Ships writer letter other object := by
  rw [lookup_inserted] at found
  split at found
  · next same =>
      cases found
      exact same ▸ ships
  · next different =>
      exact .untouched writer letter other object found fun _ letter is here =>
        different (here.symm.trans (meant letter is))

theorem send_is (conn : Conn) (kernel : Kernel) (sender packed : JsonSender)
    (done : sender.endPack = some packed) :
    conn.send kernel sender = ((conn.io.sendBin kernel packed.sent).1,
      { conn with io := (conn.io.sendBin kernel packed.sent).2 }) := by
  rw [Conn.send, done]

theorem dispatchById_ships (kernel : Kernel) (cid : UInt32) (server : Option UInt64)
    (outgoing : Outgoing) (sender packed : JsonSender) (linked : Linked writer)
    (done : sender.endPack = some packed) (sent : packed.sent = frame outgoing)
    (ptr : Nat) (object : Conn)
    (found : (writer.dispatchById kernel cid sender).2.heap.lookup ptr = some object) :
    Ships writer ((writer.connMap.lookup cid).map fun ptr => ⟨ptr, server, outgoing⟩) ptr
      object := by
  rw [DirectWriter.dispatchById] at found
  cases inMap : writer.connMap.lookup cid with
  | none =>
      simp only [inMap] at found
      exact .silent writer ptr object found
  | some target =>
      obtain ⟨conn, is, -⟩ := linked.live cid target inMap
      have meant : ∀ meant ∈ (some target).map fun ptr => (⟨ptr, server, outgoing⟩ : Letter),
          meant.ptr = target := by
        intro meant member
        cases member
        rfl
      simp only [inMap, is] at found
      obtain ⟨-, address, enable⟩ := send_keeps kernel sender conn
      rw [send_is conn kernel sender packed done] at found address enable
      cases enabled : conn.isEnable with
      | false =>
          -- A disabled connection is left as it is, and stays disabled.
          rw [Connection.sendBin_disabled conn.io kernel packed.sent enabled] at found
          exact ships_stored writer _ target ptr _ object found meant
            (.untouched writer _ target conn is fun on => by rw [enabled] at on; cases on)
      | true =>
          obtain ⟨part, within, stream, whole⟩ :=
            sendBin_part conn.io kernel packed.sent enabled
          rw [sent] at within
          cases result : (conn.io.sendBin kernel packed.sent).1 with
          | ok _ =>
              rw [result] at found
              refine ships_stored writer _ target ptr _ object found meant
                (.more conn server outgoing is address rfl enabled ?_ fun _ => ?_)
              · rw [← (whole result).trans sent]
                exact ⟨[], (List.append_nil _).trans stream⟩
              · rw [← (whole result).trans sent]
                exact stream
          | error exn =>
              rw [result] at found
              refine ships_stored writer _ target ptr _ object found meant
                (.more conn server outgoing is address rfl enabled ?_ fun on => by cases on)
              obtain ⟨rest, all⟩ := within
              exact ⟨rest, by rw [← all, ← List.append_assoc]; exact congrArg (· ++ rest) stream⟩

/-- The first message on a connection that is made for it. -/
theorem opened_ships (sid : UInt64) (outgoing : Outgoing) (conn : Conn) (kernel : Kernel)
    (sender packed : JsonSender) (address : (conn.peerIp, conn.peerPort) = getAddressFromSId sid)
    (enabled : conn.isEnable = true) (nothing : conn.stream = [])
    (done : sender.endPack = some packed) (sent : packed.sent = frame outgoing)
    (room : (frame outgoing).length ≤ maxPending) (ptr : Nat) (object : Conn)
    (found : ((opened writer sid conn).store writer.created
      (conn.send kernel sender).2).heap.lookup ptr = some object) :
    Ships writer (some ⟨writer.created, some sid, outgoing⟩) ptr object := by
  change ((writer.heap.insert writer.created conn).insert writer.created _).lookup ptr =
    some object at found
  rw [AList.insert_insert] at found
  refine ships_stored writer _ writer.created ptr _ object found
    (fun meant is => (congrArg Letter.ptr (Option.some.inj is)).symm) ?_
  obtain ⟨-, keeps, -⟩ := send_keeps kernel sender conn
  refine .new sid outgoing rfl rfl (address.symm.trans keeps.symm) ?_
  have empty : conn.io._output.content = [] := (List.append_eq_nil_iff.mp nothing).2
  have first := sendBin_first conn.io kernel packed.sent enabled empty (by rw [sent]; exact room)
  rw [show streamed conn.io = [] from nothing, List.nil_append] at first
  rw [send_is conn kernel sender packed done, ← sent]
  exact first

theorem route_ships (sid : UInt64) (outgoing : Outgoing) (connect : Connect) (kernel : Kernel)
    (linked : Linked writer) (fits : Fits outgoing) (ptr : Nat) (object : Conn)
    (found : (writer.route sid outgoing connect kernel).2.heap.lookup ptr = some object) :
    Ships writer ((connectionFor writer sid connect).map fun ptr => ⟨ptr, some sid, outgoing⟩) ptr
      object := by
  have short : HEADER_SIZE + outgoing.body.length ≤ 65536 * (16 * 1024) :=
    fits.trans (by decide)
  obtain ⟨sender, packed, made, done, sent⟩ := make_packs outgoing short
  simp only [DirectWriter.route, DirectWriter.dispatch, made] at found
  cases isRouted : writer._sid2cid.lookup sid with
  | some cid =>
      simp only [isRouted] at found
      simp only [connectionFor, isRouted]
      exact dispatchById_ships writer kernel cid (some sid) outgoing sender packed linked done sent
        ptr object found
  | none =>
      simp only [isRouted] at found
      rcases connectServer_cases writer sid connect kernel (getAddressFromSId sid).1
        (getAddressFromSId sid).2 with refused | ⟨conn, -, address, enabled, nothing, begun⟩
      · simp only [refused] at found
        refine .untouched writer _ ptr object found fun _ meant is => ?_
        -- A connection that there is was not made for this message.
        have old := linked.older ptr object found
        simp only [connectionFor, isRouted] at is
        split at is
        · cases is
        · split at is
          · cases is
          · cases is
            exact Nat.ne_of_gt old
      · have there : (opened writer sid conn).heap.lookup writer.created = some conn :=
          AList.lookup_insert _
        have next : connectionFor writer sid connect = some writer.created := by
          simp only [connectionFor, isRouted]
          rw [DirectWriter.connectServer] at begun
          split at begun
          · cases begun
          · next server =>
              cases connect with
              | refused => cases begun
              | begun immediate => rw [if_neg server]
        rw [next]
        simp only [begun, there] at found
        refine opened_ships writer sid outgoing conn kernel sender packed address enabled nothing done
          sent ?_ ptr object ?_
        · rw [frame, List.length_append, headerBytes_length]
          exact fits
        · cases result : conn.send kernel sender with
          | mk answered after =>
              rw [result] at found
              cases answered with
              | ok _ => exact found
              | error exn => exact found

/-- The message of a call, if it has one. -/
def outgoingOf : WriterCall → Option Outgoing
  | .sendTo _ outgoing _ _ | .route _ outgoing _ _ | .dispatchById _ outgoing _ => some outgoing
  | _ => none

theorem call_ships (call : WriterCall) (linked : Linked writer)
    (fits : ∀ outgoing ∈ outgoingOf call, Fits outgoing) (ptr : Nat) (object : Conn)
    (found : (directWriter call writer).2.heap.lookup ptr = some object) :
    Ships writer (letterOf writer call) ptr object := by
  cases call with
  | sendTo ipport outgoing connect kernel =>
      simp only [directWriter, DirectWriter.sendTo] at found
      rw [letterOf]
      cases server : serverOf ipport with
      | error exn =>
          simp only [server] at found
          exact .silent writer ptr object found
      | ok server' =>
          cases server' with
          | none =>
              simp only [server] at found
              exact .silent writer ptr object found
          | some sid =>
              simp only [server] at found
              exact route_ships writer sid outgoing connect kernel linked (fits outgoing rfl) ptr
                object found
  | route sid outgoing connect kernel =>
      exact route_ships writer sid outgoing connect kernel linked (fits outgoing rfl) ptr object found
  | dispatchById cid outgoing kernel =>
      have short : HEADER_SIZE + outgoing.body.length ≤ 65536 * (16 * 1024) :=
        (fits outgoing rfl).trans (by decide)
      obtain ⟨sender, packed, made, done, sent⟩ := make_packs outgoing short
      simp only [directWriter, made] at found
      exact dispatchById_ships writer kernel cid none outgoing sender packed linked done sent ptr
        object found
  | closed conn =>
      exact .silent writer ptr object (lookup_eraseConnection writer conn ptr object found)
  | eraseConnectionById id =>
      obtain ⟨conn, same⟩ := eraseConnectionById_is writer id
      simp only [directWriter, same] at found
      exact .silent writer ptr object (lookup_eraseConnection writer conn ptr object found)
  | DelayDelConn conn =>
      simp only [directWriter, DirectWriter.DelayDelConn] at found
      split at found
      · exact .silent writer ptr object found
      · next target =>
          cases is : writer.heap.lookup target with
          | none =>
              simp only [is] at found
              exact .silent writer ptr object found
          | some conn =>
              simp only [is] at found
              exact ships_stored writer none target ptr _ object found
                (fun _ meant => by cases meant) (.same conn is rfl rfl fun on => by cases on)
  | doEvent =>
      exact .silent writer ptr object
        (lookup_eraseDisabled writer writer.lazyDelIds ptr object found)
  | connEvent target event error kernel =>
      simp only [directWriter, DirectWriter.connEvent] at found
      cases is : writer.heap.lookup target with
      | none =>
          simp only [is] at found
          exact .silent writer ptr object found
      | some conn =>
          simp only [is] at found
          have meant : ∀ meant ∈ letterOf writer (.connEvent target event error kernel),
              meant.ptr = target := fun _ meant => by cases meant
          have changed : Ships writer (letterOf writer (.connEvent target event error kernel)) target
              { conn with io := (conn.io.doEvent event error kernel).2 } :=
            .same conn is rfl (doEvent_streamed conn.io kernel event error) fun on =>
              ⟨(conn.io.doEvent_bEnable kernel event error).symm.trans on,
                fun _ meant => by cases meant⟩
          split at found
          · exact ships_stored writer _ target ptr _ object
              (lookup_eraseConnection _ (some target) ptr object found) meant changed
          · exact ships_stored writer _ target ptr _ object found meant changed

/-- The connection that a message is for is opened by then. -/
theorem connectServer_created (sid : UInt64) (immediate : Bool) (kernel : Kernel) (ip : UInt32)
    (port : UInt16) (server : sid ≠ -1) :
    (writer.connectServer sid ip port (.begun immediate) kernel).1 = some writer.created := by
  obtain ⟨io, registered, -, -⟩ := register_made immediate kernel
  simp only [DirectWriter.connectServer, if_neg server, DirectWriter.createConnection, registered,
    DirectWriter.store, DirectWriter.onConnCreate, AList.lookup_insert]

theorem route_created (sid : UInt64) (outgoing : Outgoing) (connect : Connect) (kernel : Kernel)
    (linked : Linked writer) (fits : Fits outgoing) (ptr : Nat)
    (meant : connectionFor writer sid connect = some ptr) :
    ptr < (writer.route sid outgoing connect kernel).2.created := by
  have grows := evolves_created writer _ (route_evolves writer sid outgoing connect kernel linked)
  cases isRouted : writer._sid2cid.lookup sid with
  | some cid =>
      simp only [connectionFor, isRouted] at meant
      obtain ⟨conn, found, -⟩ := linked.live cid ptr meant
      exact (linked.older ptr conn found).trans_le grows
  | none =>
      cases connect with
      | refused =>
          simp only [connectionFor, isRouted] at meant
          cases meant
      | begun immediate =>
          simp only [connectionFor, isRouted] at meant
          split at meant
          · cases meant
          · next server =>
              cases meant
              have short : HEADER_SIZE + outgoing.body.length ≤ 65536 * (16 * 1024) :=
                fits.trans (by decide)
              obtain ⟨sender, packed, made, done, sent⟩ := make_packs outgoing short
              have opens := connectServer_created writer sid immediate kernel
                (getAddressFromSId sid).1 (getAddressFromSId sid).2 server
              simp only [DirectWriter.route, DirectWriter.dispatch, made, isRouted]
              rcases connectServer_cases writer sid (.begun immediate) kernel
                (getAddressFromSId sid).1 (getAddressFromSId sid).2 with
                refused | ⟨conn, -, -, -, -, begun⟩
              · rw [refused] at opens
                cases opens
              · have there : (opened writer sid conn).heap.lookup writer.created = some conn :=
                  AList.lookup_insert _
                simp only [begun, there]
                cases conn.send kernel sender with
                | mk answered after =>
                    cases answered with
                    | ok _ => exact Nat.lt_succ_self _
                    | error exn => exact Nat.lt_succ_self _

theorem letter_older (call : WriterCall) (linked : Linked writer)
    (fits : ∀ outgoing ∈ outgoingOf call, Fits outgoing) (letter : Letter)
    (meant : letterOf writer call = some letter) :
    letter.ptr < (directWriter call writer).2.created := by
  cases call with
  | sendTo ipport outgoing connect kernel =>
      simp only [directWriter, DirectWriter.sendTo]
      rw [letterOf] at meant
      split at meant
      · next sid server =>
          obtain ⟨ptr, next, rfl⟩ := Option.map_eq_some_iff.mp meant
          simp only [server]
          exact route_created writer sid outgoing connect kernel linked (fits outgoing rfl) ptr next
      · cases meant
  | route sid outgoing connect kernel =>
      obtain ⟨ptr, next, rfl⟩ := Option.map_eq_some_iff.mp meant
      exact route_created writer sid outgoing connect kernel linked (fits outgoing rfl) ptr next
  | dispatchById cid outgoing kernel =>
      obtain ⟨ptr, inMap, rfl⟩ := Option.map_eq_some_iff.mp meant
      obtain ⟨conn, found, -⟩ := linked.live cid ptr inMap
      exact (linked.older ptr conn found).trans_le
        (call_created writer (.dispatchById cid outgoing kernel) linked)
  | closed conn => cases meant
  | eraseConnectionById id => cases meant
  | DelayDelConn conn => cases meant
  | doEvent => cases meant
  | connEvent ptr event error kernel => cases meant

/-- A connection that a message to a server goes to was opened to that server. -/
theorem connectionFor_placed (sid : UInt64) (connect : Connect) (sound : Sound writer) (ptr : Nat)
    (conn : Conn) (meant : connectionFor writer sid connect = some ptr)
    (found : writer.heap.lookup ptr = some conn) :
    getAddressFromSId sid = (conn.peerIp, conn.peerPort) := by
  simp only [connectionFor] at meant
  split at meant
  · next cid isRouted =>
      obtain ⟨other, object, inMap, is, address⟩ := sound.routed sid cid isRouted
      rw [meant] at inMap
      cases inMap
      rw [found] at is
      cases is
      exact address
  · split at meant
    · cases meant
    · split at meant
      · cases meant
      · cases meant
        exact absurd (sound.linked.older _ conn found) (Nat.lt_irrefl _)

theorem letter_placed (call : WriterCall) (sound : Sound writer) (ptr : Nat) (sid : UInt64)
    (outgoing : Outgoing) (conn : Conn)
    (meant : letterOf writer call = some ⟨ptr, some sid, outgoing⟩)
    (found : writer.heap.lookup ptr = some conn) :
    getAddressFromSId sid = (conn.peerIp, conn.peerPort) := by
  cases call with
  | sendTo ipport outgoing connect kernel =>
      rw [letterOf] at meant
      split at meant
      · next sid' server =>
          obtain ⟨ptr', next, same⟩ := Option.map_eq_some_iff.mp meant
          cases same
          exact connectionFor_placed writer sid connect sound ptr conn next found
      · cases meant
  | route sid' outgoing connect kernel =>
      obtain ⟨ptr', next, same⟩ := Option.map_eq_some_iff.mp meant
      cases same
      exact connectionFor_placed writer sid connect sound ptr conn next found
  | dispatchById cid outgoing kernel =>
      obtain ⟨ptr', -, same⟩ := Option.map_eq_some_iff.mp meant
      cases same
  | closed conn => cases meant
  | eraseConnectionById id => cases meant
  | DelayDelConn conn => cases meant
  | doEvent => cases meant
  | connEvent ptr event error kernel => cases meant

end Calls

/-! A run. -/

/-- The messages of a run that were for a connection, in the order in which they
were sent. -/
def letters : DirectWriter → List WriterCall → List Letter
  | _, [] => []
  | writer, call :: calls =>
      (letterOf writer call).toList ++ letters (directWriter call writer).2 calls

def lettersTo (ptr : Nat) (sent : List Letter) : List Outgoing :=
  (sent.filter fun letter => letter.ptr = ptr).map Letter.outgoing

theorem lettersTo_append (ptr : Nat) (sent more : List Letter) :
    lettersTo ptr (sent ++ more) = lettersTo ptr sent ++ lettersTo ptr more := by
  rw [lettersTo, List.filter_append, List.map_append]
  rfl

/-- What goes over a connection: the frames of its messages from the first one
on, or from the second one when the first send failed. All of them are there
while the connection is enabled. -/
def Carries (conn : Conn) (meant : List Outgoing) : Prop :=
  ∃ missed ≤ 1, missed ≤ meant.length ∧ ∃ messages, messages <+: meant.drop missed ∧
    conn.stream <+: (messages.map frame).flatten ∧
    (conn.isEnable = true →
      messages = meant.drop missed ∧ conn.stream = (messages.map frame).flatten)

structure Shipped (writer : DirectWriter) (sent : List Letter) : Prop where
  older : ∀ letter ∈ sent, letter.ptr < writer.created
  placed : ∀ letter ∈ sent, ∀ sid ∈ letter.server, ∀ conn,
    writer.heap.lookup letter.ptr = some conn →
      getAddressFromSId sid = (conn.peerIp, conn.peerPort)
  carried : ∀ ptr conn, writer.heap.lookup ptr = some conn → Carries conn (lettersTo ptr sent)

theorem shipped_fresh : Shipped DirectWriter.fresh [] where
  older _ member := absurd member List.not_mem_nil
  placed _ member := absurd member List.not_mem_nil
  carried _ _ found := by cases found

/-- Messages that a disabled connection passes over change nothing. -/
theorem Carries.same (conn after : Conn) (meant more : List Outgoing) (carries : Carries conn meant)
    (stream : after.stream = conn.stream)
    (enabled : after.isEnable = true → conn.isEnable = true ∧ more = []) :
    Carries after (meant ++ more) := by
  obtain ⟨missed, few, inside, messages, within, part, whole⟩ := carries
  have later : (meant ++ more).drop missed = meant.drop missed ++ more :=
    List.drop_append_of_le_length inside
  refine ⟨missed, few, ?_, messages, ?_, stream ▸ part, fun on => ?_⟩
  · rw [List.length_append]
    omega
  · rw [later]
    exact within.trans (List.prefix_append _ _)
  · obtain ⟨was, rfl⟩ := enabled on
    rw [List.append_nil, stream]
    exact whole was

theorem Carries.more (conn after : Conn) (meant : List Outgoing) (outgoing : Outgoing)
    (carries : Carries conn meant) (enabled : conn.isEnable = true)
    (part : after.stream <+: conn.stream ++ frame outgoing)
    (whole : after.isEnable = true → after.stream = conn.stream ++ frame outgoing) :
    Carries after (meant ++ [outgoing]) := by
  obtain ⟨missed, few, inside, messages, -, -, all⟩ := carries
  obtain ⟨rfl, stream⟩ := all enabled
  have later : (meant ++ [outgoing]).drop missed = meant.drop missed ++ [outgoing] :=
    List.drop_append_of_le_length inside
  have frames : ((meant.drop missed ++ [outgoing]).map frame).flatten =
      conn.stream ++ frame outgoing := by
    rw [List.map_append, List.flatten_append, stream]
    simp
  refine ⟨missed, few, ?_, meant.drop missed ++ [outgoing], ?_, ?_, fun on => ?_⟩
  · rw [List.length_append]
    omega
  · rw [later]
  · rw [frames]
    exact part
  · rw [later, frames]
    exact ⟨rfl, whole on⟩

theorem Carries.new (after : Conn) (outgoing : Outgoing)
    (stream : after.stream = [] ∨ after.stream = frame outgoing) : Carries after [outgoing] := by
  rcases stream with nothing | first
  · exact ⟨1, le_rfl, le_rfl, [], List.nil_prefix, by rw [nothing]; exact List.nil_prefix,
      fun _ => ⟨rfl, nothing⟩⟩
  · exact ⟨0, Nat.zero_le 1, Nat.zero_le _, [outgoing], List.prefix_rfl, by rw [first]; simp,
      fun _ => ⟨rfl, by rw [first]; simp⟩⟩

theorem shipped_step (writer : DirectWriter) (call : WriterCall) (sent : List Letter)
    (sound : Sound writer) (fits : ∀ outgoing ∈ outgoingOf call, Fits outgoing)
    (shipped : Shipped writer sent) :
    Shipped (directWriter call writer).2 (sent ++ (letterOf writer call).toList) := by
  have ships := call_ships writer call sound.linked fits
  have grows := call_created writer call sound.linked
  refine ⟨fun letter member => ?_, fun letter member sid server conn found => ?_,
    fun ptr conn found => ?_⟩
  · rcases List.mem_append.mp member with before | now
    · exact (shipped.older letter before).trans_le grows
    · exact letter_older writer call sound.linked fits letter (Option.mem_toList.mp now)
  · rcases List.mem_append.mp member with before | now
    · cases ships letter.ptr conn found with
      | same was is address stream enabled =>
          exact (shipped.placed letter before sid server was is).trans address.symm
      | more was server' outgoing is address meant enabled part whole =>
          exact (shipped.placed letter before sid server was is).trans address.symm
      | new sid' outgoing next meant address stream =>
          exact absurd (shipped.older letter before) (next ▸ Nat.lt_irrefl _)
    · obtain ⟨ptr, server', outgoing⟩ := letter
      cases server
      have meant := Option.mem_toList.mp now
      cases ships ptr conn found with
      | same was is address stream enabled =>
          exact (letter_placed writer call sound ptr sid outgoing was meant is).trans address.symm
      | more was server' outgoing' is address meant' enabled part whole =>
          exact (letter_placed writer call sound ptr sid outgoing was meant is).trans address.symm
      | new sid' outgoing' next meant' address stream =>
          cases Option.some.inj (Eq.trans (Eq.symm meant) meant')
          exact address
  · rw [lettersTo_append]
    cases ships ptr conn found with
    | same was is address stream enabled =>
        refine (shipped.carried ptr was is).same was conn _ _ stream fun on => ?_
        obtain ⟨before, others⟩ := enabled on
        refine ⟨before, ?_⟩
        rw [lettersTo, List.map_eq_nil_iff, List.filter_eq_nil_iff]
        exact fun letter member => by simpa using others letter (Option.mem_toList.mp member)
    | more was server outgoing is address meant enabled part whole =>
        have one : lettersTo ptr (letterOf writer call).toList = [outgoing] := by
          rw [meant]
          simp [lettersTo]
        rw [one]
        exact (shipped.carried ptr was is).more was conn _ outgoing enabled part whole
    | new sid outgoing next meant address stream =>
        have one : lettersTo ptr (letterOf writer call).toList = [outgoing] := by
          rw [meant]
          simp [lettersTo]
        have none : lettersTo ptr sent = [] := by
          rw [lettersTo, List.map_eq_nil_iff, List.filter_eq_nil_iff]
          intro letter member here
          have old := shipped.older letter member
          rw [decide_eq_true_eq] at here
          omega
        rw [none, one]
        exact Carries.new conn outgoing stream

theorem shipped_run (calls : List WriterCall) (writer : DirectWriter) (sent : List Letter)
    (few : (runAll directWriter Program.perform writer calls).created < 2 ^ 32)
    (fits : ∀ call ∈ calls, ∀ outgoing ∈ outgoingOf call, Fits outgoing)
    (sound : Sound writer) (shipped : Shipped writer sent) :
    Shipped (runAll directWriter Program.perform writer calls) (sent ++ letters writer calls) := by
  induction calls generalizing writer sent with
  | nil =>
      rw [letters, List.append_nil]
      exact shipped
  | cons call calls ih =>
      have linked := call_linked writer call sound.linked
      have fewer := (calls_created calls _ linked).trans_lt few
      rw [letters, ← List.append_assoc]
      exact ih _ _ few (fun other member => fits other (List.mem_cons_of_mem call member))
        (call_sound writer call fewer sound)
        (shipped_step writer call sent sound (fits call List.mem_cons_self) shipped)

/-! What arrives. -/

/-- The frame of a message that fits. -/
def frameOf (outgoing : Outgoing) : TaggedFrame :=
  clientFrame 0xFFFFFFFF outgoing.uri (if Fits outgoing then outgoing.body else []) (by
    split
    · next fits =>
        have bound : 9 + outgoing.body.length ≤ 128 * 8 * (8 * 1024) := fits
        omega
    · decide)

theorem frameOf_bytes (outgoing : Outgoing) (fits : Fits outgoing) :
    (frameOf outgoing).bytes = frame outgoing := by
  simp only [frameOf, clientFrame, if_pos fits, clientBytes, frame, headerBytes,
    List.append_assoc, List.cons_append, List.nil_append]

theorem letterOf_outgoing (writer : DirectWriter) (call : WriterCall) (letter : Letter)
    (meant : letterOf writer call = some letter) : letter.outgoing ∈ outgoingOf call := by
  cases call with
  | sendTo ipport outgoing connect kernel =>
      rw [letterOf] at meant
      split at meant
      · obtain ⟨ptr, -, rfl⟩ := Option.map_eq_some_iff.mp meant
        rfl
      · cases meant
  | route sid outgoing connect kernel =>
      obtain ⟨ptr, -, rfl⟩ := Option.map_eq_some_iff.mp meant
      rfl
  | dispatchById cid outgoing kernel =>
      obtain ⟨ptr, -, rfl⟩ := Option.map_eq_some_iff.mp meant
      rfl
  | closed conn => cases meant
  | eraseConnectionById id => cases meant
  | DelayDelConn conn => cases meant
  | doEvent => cases meant
  | connEvent ptr event error kernel => cases meant

theorem letters_outgoing (calls : List WriterCall) (writer : DirectWriter) (letter : Letter)
    (member : letter ∈ letters writer calls) :
    ∃ call ∈ calls, letter.outgoing ∈ outgoingOf call := by
  induction calls generalizing writer with
  | nil => exact absurd member List.not_mem_nil
  | cons call calls ih =>
      rcases List.mem_append.mp member with now | later
      · exact ⟨call, List.mem_cons_self,
          letterOf_outgoing writer call letter (Option.mem_toList.mp now)⟩
      · obtain ⟨other, inside, same⟩ := ih _ later
        exact ⟨other, List.mem_cons_of_mem call inside, same⟩

/-- The messages of a run of a sender that were for one of its connections. -/
def sentOver (calls : List WriterCall) (ptr : Nat) : List Outgoing :=
  lettersTo ptr (letters DirectWriter.fresh calls)

theorem sentOver_outgoing (calls : List WriterCall) (ptr : Nat) (outgoing : Outgoing)
    (member : outgoing ∈ sentOver calls ptr) : ∃ call ∈ calls, outgoing ∈ outgoingOf call := by
  obtain ⟨letter, inside, rfl⟩ := List.mem_map.mp member
  exact letters_outgoing calls _ letter (List.mem_filter.mp inside).1

theorem arrived_all (sent : List TaggedFrame) :
    sent.length ≤ arrived sent (sent.map TaggedFrame.bytes).flatten.length :=
  arrived_least sent sent.length _ le_rfl (by rw [List.take_length])

section Peer
variable {Line : Type} [DecidableEq Line]
variable (config : Config) (forms : Forms) (node : FPService) (throws : Bytes → Bool)
variable (around : Surroundings)

/-- A node process reads some connections of other nodes, each of them up to some
moment in the run of its sender. Whatever sends failed and whatever was opened
again, the requests that are handled on a connection are its messages from the
first or the second one on, in the order in which they were sent and without a
gap; they were all dispatched to the server that it was opened to. And they are
handled to the last one when the connection is still enabled with nothing left to
send, all of it has been received, and the receiver has not closed it. -/
theorem letters_handled_in_order (fills : FillsAll forms) (start : Servers)
    (schedule : List (ProcessEvent Line)) (calls : Line → List WriterCall) (ptr : Line → Nat)
    (conn : Line → Conn)
    (few : ∀ line,
      (runAll directWriter Program.perform DirectWriter.fresh (calls line)).created < 2 ^ 32)
    (there : ∀ line, (runAll directWriter Program.perform DirectWriter.fresh
      (calls line)).heap.lookup (ptr line) = some (conn line))
    (fits : ∀ line, ∀ call ∈ calls line, ∀ outgoing ∈ outgoingOf call, Fits outgoing)
    (received : ∀ line, receivedOn line schedule <+: (conn line).io.wire)
    (receives : Throughout (processing config forms node throws around) Program.perform Receives
      (Process.fresh start) schedule) :
    let process := processAfter config forms node throws around start schedule
    ∀ line, ∃ missed ≤ 1, ∃ count,
      requestsOn line process.world.log =
        (((sentOver (calls line) (ptr line)).drop missed).take count).filterMap
          (fun outgoing => requestIn forms (frameOf outgoing)) ∧
      ((conn line).isEnable = true → (conn line).io._output.content = [] →
        receivedOn line schedule = (conn line).io.wire → (process.links line).isOpen = true →
          ((sentOver (calls line) (ptr line)).drop missed).length ≤ count) ∧
      ∀ letter ∈ letters DirectWriter.fresh (calls line), letter.ptr = ptr line →
        ∀ sid ∈ letter.server,
          getAddressFromSId sid = ((conn line).peerIp, (conn line).peerPort) := by
  have shipped : ∀ line, Shipped (runAll directWriter Program.perform DirectWriter.fresh
      (calls line)) (letters DirectWriter.fresh (calls line)) := fun line =>
    shipped_run (calls line) DirectWriter.fresh [] (few line) (fits line) fresh_sound shipped_fresh
  have carried := fun line => (shipped line).carried (ptr line) (conn line) (there line)
  choose missed once inside messages within part whole using carried
  have short : ∀ line, ∀ outgoing ∈ messages line, Fits outgoing := by
    intro line outgoing member
    obtain ⟨call, sent, same⟩ := sentOver_outgoing (calls line) (ptr line) outgoing
      (List.mem_of_mem_drop ((within line).subset member))
    exact fits line call sent outgoing same
  have frames : ∀ line, ((messages line).map frameOf).map TaggedFrame.bytes =
      (messages line).map frame := by
    intro line
    rw [List.map_map]
    exact List.map_congr_left fun outgoing member =>
      frameOf_bytes outgoing (short line outgoing member)
  have arrives : ∀ line, receivedOn line schedule <+:
      (((messages line).map frameOf).map TaggedFrame.bytes).flatten := by
    intro line
    rw [frames line]
    exact ((received line).trans (List.prefix_append _ _)).trans (part line)
  obtain ⟨-, each⟩ := requests_answered_in_order config forms node throws around fills start
    (fun line => (messages line).map frameOf) schedule arrives receives
  intro process line
  obtain ⟨-, handled, -, -, requests, opened, -⟩ := each line
  have taken := List.prefix_iff_eq_take.mp ((List.take_prefix handled _).trans (within line))
  refine ⟨missed line, once line, ((messages line).take handled).length, ?_, ?_, ?_⟩
  · rw [requests, ← List.map_take, List.filterMap_map]
    exact congrArg (List.filterMap _) taken
  · intro on sent arrived still
    obtain ⟨every, stream⟩ := whole line on
    have wire : (conn line).io.wire = (conn line).stream := by
      rw [Conn.stream, sent, List.append_nil]
    have reached := arrived_all ((messages line).map frameOf)
    rw [List.length_map, frames line, ← stream, ← wire, ← arrived, ← (opened still).1] at reached
    rw [sentOver, ← every, List.take_of_length_le reached]
  · exact fun letter member here sid server =>
      (shipped line).placed letter member sid server (conn line) (here ▸ there line)

end Peer

def askBalance : Outgoing :=
  ⟨QueryBalance.uri, nodeForms.query.toString ⟨ascii "alice"⟩, 0⟩

/-- Two messages to a node. Sending the second one fails, and the kernel takes
the first one in two parts. -/
def secondLost : List WriterCall :=
  [.sendTo (ascii "127.0.0.1:8080") askBalance (.begun true) (.takes 20),
    .connEvent 0 .write 0 (.takes 100),
    .sendTo (ascii "127.0.0.1:8080") askBalance .refused (.fails 104)]

def secondLostConn : Conn :=
  ((runAll directWriter Program.perform DirectWriter.fresh secondLost).heap.lookup 0).get
    (by decide +kernel)

theorem secondLost_meant (call : WriterCall) (member : call ∈ secondLost) (outgoing : Outgoing)
    (meant : outgoing ∈ outgoingOf call) : outgoing = askBalance := by
  simp only [secondLost, List.mem_cons, List.not_mem_nil, or_false] at member
  rcases member with rfl | rfl | rfl
  · exact (Option.some.inj meant).symm
  · cases meant
  · exact (Option.some.inj meant).symm

/-- The receiver reads what came over the connection. -/
def readAll : List (ProcessEvent Unit) := [.recv () (frame askBalance)]

theorem readAll_receives :
    Throughout (processing rootServerConf nodeForms rootService (fun _ => false) zeros)
      Program.perform Receives (Process.fresh aliceOwns) readAll := by
  refine ⟨fun _ _ => ⟨by decide +kernel, ?_⟩, trivial⟩
  decide +kernel

theorem letters_handled_in_order_secondLost :
    let process := processAfter rootServerConf nodeForms rootService (fun _ => false) zeros
      aliceOwns readAll
    requestsOn () process.world.log = [.query ⟨ascii "alice"⟩] ∧
      ∃ missed ≤ 1, ∃ count, requestsOn () process.world.log =
        (((sentOver secondLost 0).drop missed).take count).filterMap
          fun outgoing => requestIn nodeForms (frameOf outgoing) := by
  obtain ⟨missed, once, count, handled, -⟩ := letters_handled_in_order rootServerConf nodeForms
    rootService (fun _ => false) zeros nodeForms_fills aliceOwns readAll (fun _ => secondLost)
    (fun _ => 0) (fun _ => secondLostConn) (fun _ => by decide +kernel)
    (fun _ => (Option.some_get _).symm)
    (fun _ call member outgoing meant => by
      rw [secondLost_meant call member outgoing meant]
      decide +kernel)
    (fun line => by
      cases line
      decide +kernel)
    readAll_receives ()
  exact ⟨by decide +kernel, missed, once, count, handled⟩

end FPayNode.LetterDelivery
