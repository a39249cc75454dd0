import FPayNode.Custody
import FPayNode.WorkerRouting

/-!
`core/dispatcher` and `core/base/WorkerTcpServer.cpp` as one system. The master
accepts a connection, peeks at it and sends its descriptor over the channel of a
worker's process, which takes it from there and reads. Processes come and go: a
worker whose channel fails, or whose process has exited, gets a new one. What
clients send, what the kernel answers and when anything happens is not
restricted.
-/

namespace FPayNode.HandOver

open DecimalText ByteStream Custody WorkerRouting

/-- A connection as the kernel has it, with what was read of it. -/
structure Socket where
  read : Bytes
  arrival : Arrival

def Socket.stream (socket : Socket) : Bytes := socket.read ++ socket.arrival.available

/-- Who may have a descriptor: the master, the channel to a process of a worker,
and the process. Processes are numbered in the order in which they are forked. -/
inductive Holder where
  | master
  | channel (process : Nat)
  | process (process : Nat)
  deriving DecidableEq

/-- `_channel` is the process at the other end of a worker's channel, and `id` the
place of the worker that a process was forked for. `heard` is what it has read. -/
structure Daemon (Conn : Type) where
  sockets : Conn → Socket
  accepted : List Conn
  descriptors : Holdings Holder Conn
  _workers : List Worker
  _channel : Nat → Nat
  forked : Nat
  running : Nat → Bool
  id : Nat → Nat
  heard : Nat → Conn → Bytes

inductive Event (Conn : Type) where
  | arrives (conn : Conn) (bytes : Bytes)
  | shuts (conn : Conn)
  | onAccept (conn : Conn)
  | masterRead (conn : Conn) (sendFd : Int32) (started : Started)
  | recvFd (process : Nat) (ret errno : Int32)
  | reads (process : Nat) (conn : Conn) (size : Nat)
  | closes (process : Nat) (conn : Conn)
  | exits (process : Nat)
  | onEmit (i : Nat) (started : Started)

def ENOMEM : Int32 := 12

inductive Received where
  | descriptor | unread | exit
  deriving DecidableEq

/-- `WorkerTcpAcceptor::onRecvFd`, by what `recvmsg` returns. A process that reads
the end of its channel exits. -/
def onRecvFd (ret errno : Int32) : Received :=
  if ret < 0 then
    if errno = EINTR ∨ errno = EAGAIN ∨ errno = ENOMEM then .unread else .exit
  else if ret = 0 then .exit
  else .descriptor

namespace Daemon
variable {Conn : Type}

def fresh : Daemon Conn where
  sockets _ := ⟨[], ⟨[], false⟩⟩
  accepted := []
  descriptors _ := []
  _workers := []
  _channel _ := 0
  forked := 0
  running _ := false
  id _ := 0
  heard _ _ := []

/-- `Worker::start` for the worker of a place: a process with a new channel, if
it was forked. -/
def started (i : Nat) (outcome : Started) (daemon : Daemon Conn) : Daemon Conn :=
  match outcome with
  | .forked =>
      { daemon with
        _channel := Function.update daemon._channel i daemon.forked
        forked := daemon.forked + 1
        running := Function.update daemon.running daemon.forked true
        id := Function.update daemon.id daemon.forked i }
  | _ => daemon

def statusAfter : Started → WorkerStatus
  | .forked => .kStatusOK
  | .channelFailed => .kStatusInit
  | .forkFailed => .kStatusUnknown

def startWorker (outcome : Nat → Started) : Nat → Daemon Conn
  | 0 => fresh
  | i + 1 =>
      let daemon := startWorker outcome i
      started i (outcome i)
        { daemon with _workers := daemon._workers ++ [⟨i, statusAfter (outcome i)⟩] }

/-- The process that has exited has no descriptors any more. -/
def exited (process : Nat) (daemon : Daemon Conn) : Daemon Conn :=
  { daemon with
    running := Function.update daemon.running process false
    descriptors := abandon (abandon daemon.descriptors (.channel process)) (.process process) }

variable [DecidableEq Conn]

/-- `MasterConn::onRead` behind `dispatch`. The descriptor was sent, or `sendFd`
failed and the worker has been started again; the master closes its own. -/
def dispatched (conn : Conn) (outcome : Started) (result : Dispatched) (daemon : Daemon Conn) :
    Daemon Conn :=
  match result.offered with
  | some i =>
      if result.returned then
        { daemon with
          _workers := result.workers
          descriptors := pass daemon.descriptors .master (.channel (daemon._channel i)) conn }
      else
        started i outcome
          { daemon with
            _workers := result.workers
            descriptors := release daemon.descriptors .master conn }
  | none =>
      { daemon with
        _workers := result.workers
        descriptors := release daemon.descriptors .master conn }

/-- The bytes go to the process that reads them. -/
def read (process : Nat) (conn : Conn) (size : Nat) (daemon : Daemon Conn) : Daemon Conn :=
  let socket := daemon.sockets conn
  let bytes := socket.arrival.available.take size
  { daemon with
    sockets := Function.update daemon.sockets conn
      ⟨socket.read ++ bytes, ⟨socket.arrival.available.drop size, socket.arrival.closed⟩⟩
    heard := Function.update daemon.heard process
      (Function.update (daemon.heard process) conn (daemon.heard process conn ++ bytes)) }

/-- None when `dispatch` takes a worker from a place that is not there. -/
def step (daemon : Daemon Conn) : Event Conn → Option (Daemon Conn)
  | .arrives conn bytes =>
      let socket := daemon.sockets conn
      if socket.arrival.closed then some daemon
      else some { daemon with
        sockets := Function.update daemon.sockets conn
          ⟨socket.read, ⟨socket.arrival.available ++ bytes, false⟩⟩ }
  | .shuts conn =>
      let socket := daemon.sockets conn
      some { daemon with
        sockets := Function.update daemon.sockets conn
          ⟨socket.read, ⟨socket.arrival.available, true⟩⟩ }
  | .onAccept conn =>
      -- Every connection is accepted once.
      if conn ∈ daemon.accepted then some daemon
      else some { daemon with
        accepted := conn :: daemon.accepted
        descriptors := give daemon.descriptors .master conn }
  | .masterRead conn sendFd outcome =>
      if conn ∈ daemon.descriptors .master then
        (dispatch daemon._workers ⟨(daemon.sockets conn).arrival, sendFd, outcome⟩).map
          fun result => dispatched conn outcome result daemon
      else some daemon
  | .recvFd process ret errno =>
      if daemon.running process then
        match onRecvFd ret errno with
        | .unread => some daemon
        | .exit => some (exited process daemon)
        | .descriptor =>
            match daemon.descriptors (.channel process) with
            | [] => some daemon
            | conn :: _ => some { daemon with
                descriptors :=
                  pass daemon.descriptors (.channel process) (.process process) conn }
      else some daemon
  | .reads process conn size =>
      if daemon.running process ∧ conn ∈ daemon.descriptors (.process process) then
        some (read process conn size daemon)
      else some daemon
  | .closes process conn =>
      some { daemon with descriptors := release daemon.descriptors (.process process) conn }
  | .exits process => some (exited process daemon)
  | .onEmit i outcome =>
      match daemon._workers[i]? with
      | some worker =>
          -- `findWorker` finds the worker by the process that has exited.
          if worker._status = .kStatusOK ∧ daemon.running (daemon._channel i) = false then
            some (started i outcome
              { daemon with
                _workers := daemon._workers.set i
                  (Worker.restart { worker with _status := .kStatusError } outcome) })
          else some daemon
      | none => some daemon

def run (daemon : Daemon Conn) (events : List (Event Conn)) : Option (Daemon Conn) :=
  events.foldlM step daemon

end Daemon

open Daemon

/-- What a client sends in a run, until it closes the connection. -/
def sentOn {Conn : Type} [DecidableEq Conn] (conn : Conn) : List (Event Conn) → Bytes
  | [] => []
  | .arrives other bytes :: events =>
      if other = conn then bytes ++ sentOn conn events else sentOn conn events
  | .shuts other :: events => if other = conn then [] else sentOn conn events
  | _ :: events => sentOn conn events

/-! What holds between any two events. -/

section Orderly
variable {Conn : Type}

/-- A worker that is up has the channel to a process of its own. -/
structure Staffed (numWorker : Nat) (daemon : Daemon Conn) : Prop where
  workers : daemon._workers.length = numWorker
  channels : ∀ i worker, daemon._workers[i]? = some worker → worker._status = .kStatusOK →
    daemon._channel i < daemon.forked ∧ daemon.id (daemon._channel i) = i

/-- What was read of the connection was read by this process. -/
def ReadBy (daemon : Daemon Conn) (process : Nat) (conn : Conn) : Prop :=
  ∀ other, daemon.heard other conn = if other = process then (daemon.sockets conn).read else []

/-- The process has, or had, something of the connection. -/
def Has (daemon : Daemon Conn) (process : Nat) (conn : Conn) : Prop :=
  conn ∈ daemon.descriptors (.channel process) ∨ conn ∈ daemon.descriptors (.process process) ∨
    daemon.heard process conn ≠ []

/-- The process is one of the worker that `dispatch` takes for a part of what the
client sent, the bytes that had arrived when the master looked. -/
def Selected (numWorker : Nat) (daemon : Daemon Conn) (process : Nat) (conn : Conn) : Prop :=
  ∃ arrival : Arrival, arrival.available <+: (daemon.sockets conn).stream ∧
    daemon.id process = (peekUint32 arrival).toNat % numWorker

/-- Every connection that is accepted is with one holder at most, and is read
only by the process that has it. -/
structure Accounted (numWorker : Nat) (daemon : Daemon Conn) : Prop where
  apart : Apart daemon.descriptors
  known : ∀ holder conn, conn ∈ daemon.descriptors holder → conn ∈ daemon.accepted
  unborn : ∀ process conn, daemon.forked ≤ process → ¬ Has daemon process conn
  untouched : ∀ conn, (∀ process, ¬ Has daemon process conn) → (daemon.sockets conn).read = []
  single : ∀ process other conn, Has daemon process conn → Has daemon other conn →
    process = other
  reader : ∀ process conn, Has daemon process conn → ReadBy daemon process conn
  passed : ∀ process conn, Has daemon process conn →
    conn ∈ daemon.accepted ∧ conn ∉ daemon.descriptors .master
  selected : ∀ process conn, Has daemon process conn → Selected numWorker daemon process conn

theorem fresh_accounted (numWorker : Nat) : Accounted numWorker (fresh : Daemon Conn) := by
  have nothing : ∀ process (conn : Conn), ¬ Has fresh process conn := by
    rintro process conn (member | member | read)
    · exact absurd member List.not_mem_nil
    · exact absurd member List.not_mem_nil
    · exact read rfl
  constructor
  · exact apart_nobody
  · exact fun _ _ member => absurd member List.not_mem_nil
  · exact fun process conn _ => nothing process conn
  · exact fun _ _ => rfl
  · exact fun process _ conn has => absurd has (nothing process conn)
  · exact fun process conn has => absurd has (nothing process conn)
  · exact fun process conn has => absurd has (nothing process conn)
  · exact fun process conn has => absurd has (nothing process conn)

section Keeps
variable {numWorker : Nat} {daemon : Daemon Conn}

/-- Nothing was heard of a connection that no process has. -/
theorem heard_nothing (process : Nat) (conn : Conn) (absent : ¬ Has daemon process conn) :
    daemon.heard process conn = [] := by
  by_contra something
  exact absent (.inr (.inr something))

/-- More arrives. -/
theorem Accounted.sockets (accounted : Accounted numWorker daemon) (sockets : Conn → Socket)
    (read : ∀ conn, (sockets conn).read = (daemon.sockets conn).read)
    (grows : ∀ conn, (daemon.sockets conn).stream <+: (sockets conn).stream) :
    Accounted numWorker { daemon with sockets := sockets } where
  apart := accounted.apart
  known := accounted.known
  unborn := accounted.unborn
  untouched conn absent := (read conn).trans (accounted.untouched conn absent)
  single := accounted.single
  reader process conn has other := by
    simp only [read conn]
    exact accounted.reader process conn has other
  passed := accounted.passed
  selected process conn has := by
    obtain ⟨arrival, part, place⟩ := accounted.selected process conn has
    exact ⟨arrival, part.trans (grows conn), place⟩

/-- A connection that was closed is with nobody any more. -/
theorem Accounted.shrinks (accounted : Accounted numWorker daemon)
    (descriptors : Holdings Holder Conn) (apart : Apart descriptors)
    (less : ∀ holder conn, conn ∈ descriptors holder → conn ∈ daemon.descriptors holder) :
    Accounted numWorker { daemon with descriptors := descriptors } := by
  have before : ∀ process conn,
      Has { daemon with descriptors := descriptors } process conn → Has daemon process conn :=
    fun process conn => Or.imp (less _ conn) (Or.imp_left (less _ conn))
  constructor
  · exact apart
  · exact fun holder conn member => accounted.known holder conn (less holder conn member)
  · exact fun process conn unborn has => accounted.unborn process conn unborn (before _ _ has)
  · intro conn absent
    by_cases had : ∃ process, Has daemon process conn
    · obtain ⟨process, has⟩ := had
      -- The process has heard nothing, and nobody else reads.
      have heard := accounted.reader process conn has process
      rw [if_pos rfl, heard_nothing process conn (absent process)] at heard
      exact heard.symm
    · exact accounted.untouched conn fun process has => had ⟨process, has⟩
  · exact fun process other conn one two =>
      accounted.single process other conn (before _ _ one) (before _ _ two)
  · exact fun process conn has => accounted.reader process conn (before _ _ has)
  · exact fun process conn has =>
      ⟨(accounted.passed process conn (before _ _ has)).1, fun member =>
        (accounted.passed process conn (before _ _ has)).2 (less _ conn member)⟩
  · exact fun process conn has => accounted.selected process conn (before _ _ has)

theorem Accounted.exited (accounted : Accounted numWorker daemon) (process : Nat) :
    Accounted numWorker (daemon.exited process) := by
  have kept := accounted.shrinks
    (abandon (abandon daemon.descriptors (.channel process)) (.process process))
    (apart_abandon _ _ (apart_abandon _ _ accounted.apart))
    fun holder conn member => ((mem_abandon _ _ _ _).mp ((mem_abandon _ _ _ _).mp member).1).1
  exact ⟨kept.apart, kept.known, kept.unborn, kept.untouched, kept.single, kept.reader,
    kept.passed, kept.selected⟩

theorem Accounted.workers (accounted : Accounted numWorker daemon) (workers : List Worker) :
    Accounted numWorker { daemon with _workers := workers } :=
  ⟨accounted.apart, accounted.known, accounted.unborn, accounted.untouched, accounted.single,
    accounted.reader, accounted.passed, accounted.selected⟩

/-- A new process has nothing yet. -/
theorem Accounted.started (accounted : Accounted numWorker daemon) (i : Nat) (outcome : Started) :
    Accounted numWorker (daemon.started i outcome) := by
  cases outcome with
  | channelFailed => exact accounted
  | forkFailed => exact accounted
  | forked =>
      constructor
      · exact accounted.apart
      · exact accounted.known
      · exact fun process conn unborn =>
          accounted.unborn process conn (Nat.le_of_succ_le unborn)
      · exact accounted.untouched
      · exact accounted.single
      · exact accounted.reader
      · exact accounted.passed
      · intro process conn has
        obtain ⟨arrival, part, place⟩ := accounted.selected process conn has
        refine ⟨arrival, part, ?_⟩
        have old : process ≠ daemon.forked := fun same =>
          accounted.unborn process conn (Nat.le_of_eq same.symm) has
        rw [← place]
        exact Function.update_of_ne old _ _

theorem Accounted.accepts (accounted : Accounted numWorker daemon) (conn : Conn)
    (new : conn ∉ daemon.accepted) :
    Accounted numWorker { daemon with
      accepted := conn :: daemon.accepted
      descriptors := give daemon.descriptors .master conn } := by
  have same : ∀ process other, Has { daemon with
      accepted := conn :: daemon.accepted
      descriptors := give daemon.descriptors .master conn } process other ↔
        Has daemon process other := by
    intro process other
    simp only [Has, mem_give]
    simp
  constructor
  · exact apart_give _ _ _ accounted.apart fun holder member =>
      new (accounted.known holder conn member)
  · intro holder other member
    rcases (mem_give _ _ _ _ _).mp member with held | ⟨-, rfl⟩
    · exact List.mem_cons_of_mem conn (accounted.known holder other held)
    · exact List.mem_cons_self
  · exact fun process other unborn has =>
      accounted.unborn process other unborn ((same process other).mp has)
  · exact fun other absent => accounted.untouched other fun process has =>
      absent process ((same process other).mpr has)
  · exact fun process other third one two => accounted.single process other third
      ((same process third).mp one) ((same other third).mp two)
  · exact fun process other has => accounted.reader process other ((same process other).mp has)
  · intro process other has
    obtain ⟨known, gone⟩ := accounted.passed process other ((same process other).mp has)
    refine ⟨List.mem_cons_of_mem conn known, fun member => ?_⟩
    rcases (mem_give daemon.descriptors .master .master conn other).mp member with
      held | ⟨-, rfl⟩
    · exact gone held
    · exact new known
  · exact fun process other has => accounted.selected process other ((same process other).mp has)

section Moves
variable [DecidableEq Conn]

theorem Accounted.closes (accounted : Accounted numWorker daemon) (holder : Holder) (conn : Conn) :
    Accounted numWorker { daemon with
      descriptors := release daemon.descriptors holder conn } :=
  accounted.shrinks _ (apart_release _ holder conn accounted.apart) fun other item member =>
    ((mem_release _ holder other conn item accounted.apart).mp member).1

/-- The master's descriptor goes to the channel of a process. -/
theorem Accounted.sends (accounted : Accounted numWorker daemon) (process : Nat) (conn : Conn)
    (held : conn ∈ daemon.descriptors .master) (born : process < daemon.forked)
    (selected : Selected numWorker daemon process conn) :
    Accounted numWorker { daemon with
      descriptors := pass daemon.descriptors .master (.channel process) conn } := by
  have member : ∀ holder other,
      other ∈ pass daemon.descriptors .master (.channel process) conn holder ↔
        other ≠ conn ∧ other ∈ daemon.descriptors holder ∨
          other = conn ∧ holder = .channel process := fun holder other =>
    mem_pass _ _ _ holder conn other accounted.apart held
  have free : ∀ process, ¬ Has daemon process conn := fun process has =>
    (accounted.passed process conn has).2 held
  have elsewhere : ∀ holder, holder ≠ .master → conn ∉ daemon.descriptors holder :=
    fun holder different also => different (accounted.apart.alone holder .master conn also held)
  have same : ∀ server other, Has { daemon with
      descriptors := pass daemon.descriptors .master (.channel process) conn } server other ↔
        Has daemon server other ∨ server = process ∧ other = conn := by
    intro server other
    simp only [Has, member, Holder.channel.injEq, reduceCtorEq, and_false, or_false]
    by_cases this : other = conn
    · subst other
      have nothing := free server
      simp only [Has, not_or] at nothing
      simp [nothing]
    · simp [this]
  constructor
  · exact apart_pass _ _ _ _ accounted.apart held
  · intro holder other there
    rcases (member holder other).mp there with ⟨-, kept⟩ | ⟨rfl, -⟩
    · exact accounted.known holder other kept
    · exact accounted.known .master other held
  · intro server other unborn has
    rcases (same server other).mp has with had | ⟨rfl, -⟩
    · exact accounted.unborn server other unborn had
    · exact Nat.not_le.mpr born unborn
  · exact fun other absent => accounted.untouched other fun server has =>
      absent server ((same server other).mpr (.inl has))
  · intro first second other one two
    rcases (same first other).mp one with had | ⟨rfl, rfl⟩
    · rcases (same second other).mp two with also | ⟨-, rfl⟩
      · exact accounted.single first second other had also
      · exact absurd had (free first)
    · rcases (same second other).mp two with also | ⟨rfl, -⟩
      · exact absurd also (free second)
      · rfl
  · intro server other has
    rcases (same server other).mp has with had | ⟨rfl, rfl⟩
    · exact accounted.reader server other had
    · intro third
      simp only [accounted.untouched other free, ite_self]
      exact heard_nothing third other (free third)
  · intro server other has
    rcases (same server other).mp has with had | ⟨rfl, rfl⟩
    · refine ⟨(accounted.passed server other had).1, fun there => ?_⟩
      rcases (member .master other).mp there with ⟨-, kept⟩ | ⟨-, impossible⟩
      · exact (accounted.passed server other had).2 kept
      · cases impossible
    · refine ⟨accounted.known .master other held, fun there => ?_⟩
      rcases (member .master other).mp there with ⟨different, -⟩ | ⟨-, impossible⟩
      · exact different rfl
      · cases impossible
  · intro server other has
    rcases (same server other).mp has with had | ⟨rfl, rfl⟩
    · exact accounted.selected server other had
    · exact selected

/-- A process takes a descriptor from its channel. -/
theorem Accounted.takes (accounted : Accounted numWorker daemon) (process : Nat) (conn : Conn)
    (held : conn ∈ daemon.descriptors (.channel process)) :
    Accounted numWorker { daemon with
      descriptors := pass daemon.descriptors (.channel process) (.process process) conn } := by
  have member : ∀ holder other,
      other ∈ pass daemon.descriptors (.channel process) (.process process) conn holder ↔
        other ≠ conn ∧ other ∈ daemon.descriptors holder ∨
          other = conn ∧ holder = .process process := fun holder other =>
    mem_pass _ _ _ holder conn other accounted.apart held
  have here : Has daemon process conn := .inl held
  have same : ∀ server other, Has { daemon with
      descriptors := pass daemon.descriptors (.channel process) (.process process) conn }
        server other ↔ Has daemon server other := by
    intro server other
    by_cases this : other = conn
    · subst other
      constructor
      · rintro (there | there | heard)
        · rcases (member (.channel server) _).mp there with ⟨different, -⟩ | ⟨-, impossible⟩
          · exact absurd rfl different
          · cases impossible
        · rcases (member (.process server) _).mp there with ⟨different, -⟩ | ⟨-, same⟩
          · exact absurd rfl different
          · cases same
            exact here
        · exact .inr (.inr heard)
      · intro has
        obtain rfl := accounted.single _ _ _ has here
        exact .inr (.inl ((member _ _).mpr (.inr ⟨rfl, rfl⟩)))
    · simp only [Has, member]
      simp [this]
  constructor
  · exact apart_pass _ _ _ _ accounted.apart held
  · intro holder other there
    rcases (member holder other).mp there with ⟨-, kept⟩ | ⟨rfl, -⟩
    · exact accounted.known holder other kept
    · exact accounted.known _ other held
  · exact fun server other unborn has =>
      accounted.unborn server other unborn ((same server other).mp has)
  · exact fun other absent => accounted.untouched other fun server has =>
      absent server ((same server other).mpr has)
  · exact fun first second other one two => accounted.single first second other
      ((same first other).mp one) ((same second other).mp two)
  · exact fun server other has => accounted.reader server other ((same server other).mp has)
  · intro server other has
    refine ⟨(accounted.passed server other ((same server other).mp has)).1, fun there => ?_⟩
    rcases (member .master other).mp there with ⟨-, kept⟩ | ⟨-, impossible⟩
    · exact (accounted.passed server other ((same server other).mp has)).2 kept
    · cases impossible
  · exact fun server other has =>
      accounted.selected server other ((same server other).mp has)

/-- A process reads from a connection that it has. -/
theorem Accounted.reads (accounted : Accounted numWorker daemon) (process : Nat) (conn : Conn)
    (size : Nat) (held : conn ∈ daemon.descriptors (.process process)) :
    Accounted numWorker (daemon.read process conn size) := by
  have here : Has daemon process conn := .inr (.inl held)
  have heard : ∀ server other, (daemon.read process conn size).heard server other =
      if server = process ∧ other = conn then
        daemon.heard server other ++ (daemon.sockets conn).arrival.available.take size
      else daemon.heard server other := by
    intro server other
    simp only [Daemon.read, Function.update_apply]
    by_cases one : server = process
    · by_cases two : other = conn
      · simp [one, two]
      · simp [one, two]
    · simp [one]
  have socket : ∀ other, ((daemon.read process conn size).sockets other).read =
      if other = conn then
        (daemon.sockets conn).read ++ (daemon.sockets conn).arrival.available.take size
      else (daemon.sockets other).read := by
    intro other
    simp only [Daemon.read, Function.update_apply]
    split
    · rfl
    · rfl
  have stream : ∀ other, ((daemon.read process conn size).sockets other).stream =
      (daemon.sockets other).stream := by
    intro other
    simp only [Daemon.read, Function.update_apply, Socket.stream]
    split
    · next this =>
        subst other
        simp
    · rfl
  have same : ∀ server other, Has (daemon.read process conn size) server other ↔
      Has daemon server other := by
    intro server other
    by_cases this : server = process ∧ other = conn
    · obtain ⟨rfl, rfl⟩ := this
      exact ⟨fun _ => here, fun _ => .inr (.inl held)⟩
    · rw [Has, Has, heard server other, if_neg this]
      rfl
  constructor
  · exact accounted.apart
  · exact accounted.known
  · exact fun server other unborn has =>
      accounted.unborn server other unborn ((same server other).mp has)
  · intro other absent
    have different : other ≠ conn := fun this =>
      absent process ((same process other).mpr (this ▸ here))
    rw [socket other, if_neg different]
    exact accounted.untouched other fun server has => absent server ((same server other).mpr has)
  · exact fun first second other one two => accounted.single first second other
      ((same first other).mp one) ((same second other).mp two)
  · intro server other has third
    have before := accounted.reader server other ((same server other).mp has) third
    rw [heard third other, socket other, before]
    by_cases this : other = conn
    · subst this
      obtain rfl := accounted.single _ _ _ ((same server other).mp has) here
      by_cases own : third = server
      · simp [own]
      · simp [own]
    · simp [this]
  · exact fun server other has => accounted.passed server other ((same server other).mp has)
  · intro server other has
    obtain ⟨arrival, part, place⟩ := accounted.selected server other ((same server other).mp has)
    exact ⟨arrival, (stream other).symm ▸ part, place⟩

end Moves

/-! The workers. -/

/-- A worker in its place is started again. It is up only if it was forked. -/
theorem Staffed.restarted (staffed : Staffed numWorker daemon) (i : Nat) (worker : Worker)
    (outcome : Started) (descriptors : Holdings Holder Conn)
    (up : worker._status = .kStatusOK → outcome = .forked) :
    Staffed numWorker (started i outcome
      { daemon with
        _workers := daemon._workers.set i worker
        descriptors := descriptors }) := by
  have others : ∀ j other, j ≠ i → (daemon._workers.set i worker)[j]? = some other →
      other._status = .kStatusOK →
        daemon._channel j < daemon.forked ∧ daemon.id (daemon._channel j) = j := by
    intro j other different found status
    rw [List.getElem?_set_ne (Ne.symm different)] at found
    exact staffed.channels j other found status
  have own : ∀ other, (daemon._workers.set i worker)[i]? = some other → other = worker := by
    intro other found
    have inside : i < (daemon._workers.set i worker).length :=
      (List.getElem?_eq_some_iff.mp found).1
    rw [List.length_set] at inside
    rw [List.getElem?_set_self inside] at found
    exact (Option.some.inj found).symm
  have down : outcome ≠ .forked → Staffed numWorker { daemon with
      _workers := daemon._workers.set i worker
      descriptors := descriptors } := by
    intro failed
    refine ⟨(List.length_set ..).trans staffed.workers, fun j other found status => ?_⟩
    by_cases same : j = i
    · subst same
      exact absurd (up (own other found ▸ status)) failed
    · exact others j other same found status
  cases outcome with
  | channelFailed => exact down (by simp)
  | forkFailed => exact down (by simp)
  | forked =>
      refine ⟨(List.length_set ..).trans staffed.workers, fun j other found status => ?_⟩
      by_cases same : j = i
      · subst same
        simp [started]
      · obtain ⟨born, place⟩ := others j other same found status
        simp only [started, Function.update_of_ne same, Function.update_of_ne (Nat.ne_of_lt born)]
        exact ⟨Nat.lt_succ_of_lt born, place⟩

theorem restart_up (worker : Worker) (outcome : Started)
    (process : worker._status = .kStatusOK ∨ worker._status = .kStatusError)
    (up : (worker.restart outcome)._status = .kStatusOK) : outcome = .forked := by
  rcases process with status | status
  all_goals
    cases outcome
    · rfl
    · simp [Worker.restart, status] at up
    · simp [Worker.restart, status] at up

/-- What `dispatch` does: the descriptor is sent to the worker of the session,
or sending it fails and that worker is started again, or the worker is not up. -/
inductive Sends (workers : List Worker) (event : ReadEvent) (i : Nat) (worker : Worker) :
    Dispatched → Prop where
  | sent (up : worker._status = .kStatusOK) : Sends workers event i worker ⟨true, some i, workers⟩
  | failed (up : worker._status = .kStatusOK) (refused : event.sendFd ≤ 0) :
      Sends workers event i worker
        ⟨false, some i, workers.set i (worker.restart event.started)⟩
  | down (other : worker._status ≠ .kStatusOK) : Sends workers event i worker ⟨false, none, workers⟩

theorem dispatch_sends (workers : List Worker) (event : ReadEvent) (nonempty : 0 < workers.length)
    (few : workers.length < 2 ^ 31) :
    ∃ worker result,
      workers[(peekUint32 event.arrival).toNat % workers.length]? = some worker ∧
      dispatch workers event = some result ∧
      Sends workers event ((peekUint32 event.arrival).toNat % workers.length) worker result := by
  have inside := Nat.mod_lt (peekUint32 event.arrival).toNat nonempty
  have small : (peekUint32 event.arrival).toNat % workers.length < 2 ^ 31 := inside.trans few
  have index := Int32.toInt_ofNat_of_lt small
  have natural : ¬ Int32.ofNat ((peekUint32 event.arrival).toNat % workers.length) < 0 := by
    rw [Int32.lt_iff_toInt_lt, index]
    exact Int.not_lt.mpr (Int.natCast_nonneg _)
  have unsigned : ¬ peekUint32 event.arrival < 0 := UInt32.not_lt.mpr (UInt32.zero_le)
  refine ⟨workers[(peekUint32 event.arrival).toNat % workers.length], ?_⟩
  simp only [dispatch, unsigned, natural, ↓reduceIte, index, Int.toNat_natCast,
    List.getElem?_eq_getElem inside]
  split
  · next up =>
      split
      · next refused => exact ⟨_, trivial, rfl, .failed up refused⟩
      · exact ⟨_, trivial, rfl, .sent up⟩
  · next other => exact ⟨_, trivial, rfl, .down other⟩

end Keeps

/-! The start. -/

theorem startWorker_staffed (outcome : Nat → Started) (count : Nat) :
    Staffed count (startWorker outcome count : Daemon Conn) := by
  induction count with
  | zero => exact ⟨rfl, fun _ _ found => by cases found⟩
  | succ i ih =>
      -- A new place behind the others is one that is started again.
      have room : Staffed (i + 1) { (startWorker outcome i : Daemon Conn) with
          _workers := (startWorker outcome i : Daemon Conn)._workers ++ [⟨i, .kStatusInit⟩] } := by
        refine ⟨by simp [ih.workers], fun j worker found status => ?_⟩
        simp only [List.getElem?_append, ih.workers] at found
        split at found
        · exact ih.channels j worker found status
        · obtain rfl := List.mem_singleton.mp (List.mem_of_getElem? found)
          cases status
      have again := room.restarted i ⟨i, statusAfter (outcome i)⟩ (outcome i)
        (startWorker outcome i : Daemon Conn).descriptors
        (by cases outcome i <;> simp [statusAfter])
      simpa [startWorker, List.set_append, ih.workers] using again

theorem startWorker_accounted (numWorker : Nat) (outcome : Nat → Started) (count : Nat) :
    Accounted numWorker (startWorker outcome count : Daemon Conn) := by
  induction count with
  | zero => exact fresh_accounted numWorker
  | succ i ih => exact (ih.workers _).started i (outcome i)

@[simp] theorem started_sockets (i : Nat) (outcome : Started) (daemon : Daemon Conn) :
    (daemon.started i outcome).sockets = daemon.sockets := by
  cases outcome <;> rfl

theorem startWorker_sockets (outcome : Nat → Started) (count : Nat) (conn : Conn) :
    (startWorker outcome count : Daemon Conn).sockets conn = ⟨[], ⟨[], false⟩⟩ := by
  induction count with
  | zero => rfl
  | succ i ih =>
      rw [startWorker, started_sockets]
      exact ih

/-- All workers are up, and the connection, once it was accepted, is with
somebody. -/
structure Kept (conn : Conn) (daemon : Daemon Conn) : Prop where
  up : ∀ worker ∈ daemon._workers, worker._status = .kStatusOK
  serving : ∀ i < daemon._workers.length, daemon.running (daemon._channel i) = true
  held : conn ∈ daemon.accepted → ∃ holder, conn ∈ daemon.descriptors holder

theorem startWorker_kept (conn : Conn) (count : Nat) :
    Kept conn (startWorker (fun _ => .forked) count : Daemon Conn) := by
  induction count with
  | zero =>
      exact ⟨fun _ member => absurd member List.not_mem_nil, fun _ inside => absurd inside (by simp
        [startWorker, fresh]), fun member => absurd member List.not_mem_nil⟩
  | succ i ih =>
      have staffed : Staffed i (startWorker (fun _ => .forked) i : Daemon Conn) :=
        startWorker_staffed _ i
      refine ⟨fun worker member => ?_, fun j inside => ?_, ih.held⟩
      · rcases List.mem_append.mp member with before | last
        · exact ih.up worker before
        · obtain rfl := List.mem_singleton.mp last
          rfl
      · simp only [startWorker, started, List.length_append, List.length_singleton,
          staffed.workers] at inside ⊢
        by_cases same : j = i
        · subst same
          simp
        · have earlier : j < (startWorker (fun _ => .forked) i : Daemon Conn)._workers.length := by
            rw [staffed.workers]
            omega
          have born := (staffed.channels j _ (List.getElem?_eq_getElem earlier)
            (ih.up _ (List.getElem_mem earlier))).1
          rw [Function.update_of_ne same, Function.update_of_ne (Nat.ne_of_lt born)]
          exact ih.serving j earlier

/-! A run. -/

section Run
variable [DecidableEq Conn] {numWorker : Nat}

/-- Nothing that happens is undefined, and every event keeps the two. -/
theorem step_orderly (some : 0 < numWorker) (few : numWorker < 2 ^ 31) (daemon : Daemon Conn)
    (event : Event Conn) (staffed : Staffed numWorker daemon)
    (accounted : Accounted numWorker daemon) :
    ∃ after, daemon.step event = .some after ∧ Staffed numWorker after ∧
      Accounted numWorker after := by
  cases event with
  | arrives conn bytes =>
      simp only [step]
      split
      · exact ⟨daemon, rfl, staffed, accounted⟩
      · refine ⟨_, rfl, ⟨staffed.workers, staffed.channels⟩, accounted.sockets _ ?_ ?_⟩
        · intro other
          simp only [Function.update_apply]
          split
          · next same => rw [same]
          · rfl
        · intro other
          simp only [Function.update_apply]
          split
          · next same =>
              subst same
              simp only [Socket.stream, ← List.append_assoc]
              exact List.prefix_append _ _
          · exact List.prefix_rfl
  | shuts conn =>
      refine ⟨_, rfl, ⟨staffed.workers, staffed.channels⟩, accounted.sockets _ ?_ ?_⟩
      · intro other
        simp only [Function.update_apply]
        split
        · next same => rw [same]
        · rfl
      · intro other
        simp only [Function.update_apply]
        split
        · next same =>
            subst same
            exact List.prefix_rfl
        · exact List.prefix_rfl
  | onAccept conn =>
      simp only [step]
      split
      · exact ⟨daemon, rfl, staffed, accounted⟩
      · next new =>
          exact ⟨_, rfl, ⟨staffed.workers, staffed.channels⟩, accounted.accepts conn new⟩
  | masterRead conn sendFd outcome =>
      simp only [step]
      split
      · next held =>
          obtain ⟨worker, result, found, done, sends⟩ := dispatch_sends daemon._workers
            ⟨(daemon.sockets conn).arrival, sendFd, outcome⟩ (staffed.workers ▸ some)
            (staffed.workers ▸ few)
          rw [done]
          cases sends with
          | sent up =>
              obtain ⟨born, place⟩ := staffed.channels _ worker found up
              refine ⟨_, rfl, ⟨staffed.workers, staffed.channels⟩, ?_⟩
              refine accounted.sends _ conn held born ⟨(daemon.sockets conn).arrival, ?_, ?_⟩
              · -- The master has read nothing of it.
                have read := accounted.untouched conn fun process has =>
                  (accounted.passed process conn has).2 held
                rw [Socket.stream, read]
                exact List.prefix_rfl
              · rw [place, staffed.workers]
          | failed up refused =>
              exact ⟨_, rfl, staffed.restarted _ _ outcome _ (restart_up worker outcome (.inl up)),
                ((accounted.closes .master conn).workers _).started _ outcome⟩
          | down other =>
              exact ⟨_, rfl, ⟨staffed.workers, staffed.channels⟩, accounted.closes .master conn⟩
      · exact ⟨daemon, rfl, staffed, accounted⟩
  | recvFd process ret errno =>
      simp only [step]
      split
      · cases onRecvFd ret errno with
        | unread => exact ⟨daemon, rfl, staffed, accounted⟩
        | exit =>
            exact ⟨_, rfl, ⟨staffed.workers, staffed.channels⟩, accounted.exited process⟩
        | descriptor =>
            cases waiting : daemon.descriptors (.channel process) with
            | nil => exact ⟨daemon, rfl, staffed, accounted⟩
            | cons conn rest =>
                refine ⟨_, rfl, ⟨staffed.workers, staffed.channels⟩, accounted.takes process conn ?_⟩
                rw [waiting]
                exact List.mem_cons_self
      · exact ⟨daemon, rfl, staffed, accounted⟩
  | reads process conn size =>
      simp only [step]
      split
      · next able =>
          exact ⟨_, rfl, ⟨staffed.workers, staffed.channels⟩,
            accounted.reads process conn size able.2⟩
      · exact ⟨daemon, rfl, staffed, accounted⟩
  | closes process conn =>
      exact ⟨_, rfl, ⟨staffed.workers, staffed.channels⟩, accounted.closes (.process process) conn⟩
  | exits process =>
      exact ⟨_, rfl, ⟨staffed.workers, staffed.channels⟩, accounted.exited process⟩
  | onEmit i outcome =>
      simp only [step]
      split
      · next worker found =>
          split
          · exact ⟨_, rfl, staffed.restarted i _ outcome daemon.descriptors
              (restart_up _ outcome (.inr rfl)), (accounted.workers _).started i outcome⟩
          · exact ⟨daemon, rfl, staffed, accounted⟩
      · exact ⟨daemon, rfl, staffed, accounted⟩

theorem run_orderly (some : 0 < numWorker) (few : numWorker < 2 ^ 31) (daemon : Daemon Conn)
    (events : List (Event Conn)) (staffed : Staffed numWorker daemon)
    (accounted : Accounted numWorker daemon) :
    ∃ after, daemon.run events = .some after ∧ Staffed numWorker after ∧
      Accounted numWorker after := by
  induction events generalizing daemon with
  | nil => exact ⟨daemon, rfl, staffed, accounted⟩
  | cons event events ih =>
      obtain ⟨next, stepped, staffed, accounted⟩ :=
        step_orderly some few daemon event staffed accounted
      obtain ⟨after, ran, orderly⟩ := ih next staffed accounted
      refine ⟨after, ?_, orderly⟩
      rw [Daemon.run, List.foldlM_cons, stepped]
      exact ran

/-! What was sent. -/

/-- What is still to come on a connection. -/
def sentTo (conn : Conn) (socket : Socket) (events : List (Event Conn)) : Bytes :=
  if socket.arrival.closed then [] else sentOn conn events

@[simp] theorem dispatched_sockets (conn : Conn) (outcome : Started) (result : Dispatched)
    (daemon : Daemon Conn) : (daemon.dispatched conn outcome result).sockets = daemon.sockets := by
  simp only [dispatched]
  split
  · split
    · rfl
    · rw [started_sockets]
  · rfl

/-- Reading moves bytes, and nothing but a client adds any. -/
theorem step_sent (daemon after : Daemon Conn) (event : Event Conn) (conn : Conn)
    (events : List (Event Conn)) (stepped : daemon.step event = .some after) :
    (after.sockets conn).stream ++ sentTo conn (after.sockets conn) events =
      (daemon.sockets conn).stream ++ sentTo conn (daemon.sockets conn) (event :: events) := by
  cases event with
  | arrives other bytes =>
      simp only [step] at stepped
      split at stepped
      · next shut =>
          cases stepped
          by_cases same : other = conn
          · subst same
            simp [sentTo, shut]
          · simp [sentTo, sentOn, same]
      · next opened =>
          cases stepped
          by_cases same : other = conn
          · subst same
            simp [sentTo, sentOn, opened, Socket.stream]
          · simp [sentTo, sentOn, same, Function.update_of_ne (Ne.symm same)]
  | shuts other =>
      cases stepped
      by_cases same : other = conn
      · subst same
        simp [sentTo, sentOn, Socket.stream]
      · simp [sentTo, sentOn, same, Function.update_of_ne (Ne.symm same)]
  | onAccept other =>
      simp only [step] at stepped
      split at stepped
      all_goals
        cases stepped
        rfl
  | masterRead other sendFd outcome =>
      simp only [step] at stepped
      split at stepped
      · obtain ⟨result, -, rfl⟩ := Option.map_eq_some_iff.mp stepped
        rw [dispatched_sockets]
        rfl
      · cases stepped
        rfl
  | recvFd process ret errno =>
      simp only [step] at stepped
      split at stepped
      · split at stepped
        · cases stepped
          rfl
        · cases stepped
          rfl
        · split at stepped
          all_goals
            cases stepped
            rfl
      · cases stepped
        rfl
  | reads process other size =>
      simp only [step] at stepped
      split at stepped
      · cases stepped
        by_cases same : other = conn
        · subst same
          simp [Daemon.read, Socket.stream, sentTo, sentOn]
        · simp [Daemon.read, sentTo, sentOn, Function.update_of_ne (Ne.symm same)]
      · cases stepped
        rfl
  | closes process other =>
      cases stepped
      rfl
  | exits process =>
      cases stepped
      rfl
  | onEmit i outcome =>
      simp only [step] at stepped
      split at stepped
      · split at stepped
        · cases stepped
          rw [started_sockets]
          rfl
        · cases stepped
          rfl
      · cases stepped
        rfl

theorem run_sent (daemon after : Daemon Conn) (events : List (Event Conn)) (conn : Conn)
    (ran : daemon.run events = .some after) :
    (after.sockets conn).stream =
      (daemon.sockets conn).stream ++ sentTo conn (daemon.sockets conn) events := by
  induction events generalizing daemon with
  | nil =>
      cases ran
      simp [sentTo, sentOn]
  | cons event events ih =>
      rw [Daemon.run, List.foldlM_cons] at ran
      obtain ⟨next, stepped, ran⟩ := Option.bind_eq_some_iff.mp ran
      rw [ih next ran, step_sent daemon next event conn events stepped]

/-! When nothing fails. -/

/-- No descriptor is refused and no process ends. -/
def Calm : Event Conn → Prop
  | .masterRead _ sendFd _ => 0 < sendFd
  | .recvFd _ ret errno => onRecvFd ret errno ≠ .exit
  | .exits _ => False
  | _ => True

theorem Kept.passes {item : Conn} {daemon : Daemon Conn} (kept : Kept item daemon)
    (accounted : Accounted numWorker daemon) (holder other : Holder) (conn : Conn)
    (there : conn ∈ daemon.descriptors holder) :
    Kept item { daemon with descriptors := pass daemon.descriptors holder other conn } := by
  refine ⟨kept.up, kept.serving, fun member => ?_⟩
  by_cases same : item = conn
  · exact ⟨other, (mem_pass _ _ _ _ _ _ accounted.apart there).mpr (.inr ⟨same, rfl⟩)⟩
  · obtain ⟨place, held⟩ := kept.held member
    exact ⟨place, (mem_pass _ _ _ _ _ _ accounted.apart there).mpr (.inl ⟨same, held⟩)⟩

theorem step_kept (some : 0 < numWorker) (few : numWorker < 2 ^ 31) (daemon after : Daemon Conn)
    (event : Event Conn) (item : Conn) (staffed : Staffed numWorker daemon)
    (accounted : Accounted numWorker daemon) (kept : Kept item daemon) (calm : Calm event)
    (stays : ∀ process, event ≠ .closes process item)
    (stepped : daemon.step event = .some after) : Kept item after := by
  cases event with
  | arrives conn bytes =>
      simp only [step] at stepped
      split at stepped
      all_goals
        cases stepped
        exact ⟨kept.up, kept.serving, kept.held⟩
  | shuts conn =>
      cases stepped
      exact ⟨kept.up, kept.serving, kept.held⟩
  | onAccept conn =>
      simp only [step] at stepped
      split at stepped
      · cases stepped
        exact kept
      · cases stepped
        refine ⟨kept.up, kept.serving, fun member => ?_⟩
        rcases List.mem_cons.mp member with rfl | before
        · exact ⟨.master,
            (mem_give daemon.descriptors .master .master item item).mpr (.inr ⟨rfl, rfl⟩)⟩
        · obtain ⟨holder, held⟩ := kept.held before
          exact ⟨holder, (mem_give daemon.descriptors .master holder conn item).mpr (.inl held)⟩
  | masterRead conn sendFd outcome =>
      simp only [step] at stepped
      split at stepped
      · next held =>
          obtain ⟨worker, result, found, done, sends⟩ := dispatch_sends daemon._workers
            ⟨(daemon.sockets conn).arrival, sendFd, outcome⟩ (staffed.workers ▸ some)
            (staffed.workers ▸ few)
          rw [done] at stepped
          cases stepped
          cases sends with
          | sent up => exact kept.passes accounted .master _ conn held
          | failed up refused => exact absurd calm (Int32.not_lt.mpr refused)
          | down other => exact absurd (kept.up worker (List.mem_of_getElem? found)) other
      · cases stepped
        exact kept
  | recvFd process ret errno =>
      simp only [step] at stepped
      split at stepped
      · cases received : onRecvFd ret errno with
        | unread =>
            rw [received] at stepped
            cases stepped
            exact kept
        | exit => exact absurd received calm
        | descriptor =>
            rw [received] at stepped
            cases waiting : daemon.descriptors (.channel process) with
            | nil =>
                simp only [waiting] at stepped
                cases stepped
                exact kept
            | cons conn rest =>
                simp only [waiting] at stepped
                cases stepped
                refine kept.passes accounted _ _ conn ?_
                rw [waiting]
                exact List.mem_cons_self
      · cases stepped
        exact kept
  | reads process conn size =>
      simp only [step] at stepped
      split at stepped
      all_goals
        cases stepped
        exact ⟨kept.up, kept.serving, kept.held⟩
  | closes process conn =>
      cases stepped
      refine ⟨kept.up, kept.serving, fun member => ?_⟩
      obtain ⟨holder, held⟩ := kept.held member
      refine ⟨holder, (mem_release _ _ _ _ _ accounted.apart).mpr ⟨held, ?_⟩⟩
      rintro ⟨-, rfl⟩
      exact stays process rfl
  | exits process => exact calm.elim
  | onEmit i outcome =>
      simp only [step] at stepped
      split at stepped
      · next worker found =>
          -- The process of the worker has not exited.
          have running := kept.serving i (List.getElem?_eq_some_iff.mp found).1
          rw [if_neg (by simp [running])] at stepped
          cases stepped
          exact kept
      · cases stepped
        exact kept

theorem run_kept (some : 0 < numWorker) (few : numWorker < 2 ^ 31) (daemon after : Daemon Conn)
    (events : List (Event Conn)) (item : Conn) (staffed : Staffed numWorker daemon)
    (accounted : Accounted numWorker daemon) (kept : Kept item daemon)
    (calm : ∀ event ∈ events, Calm event)
    (stays : ∀ process, Event.closes process item ∉ events)
    (ran : daemon.run events = .some after) : Kept item after := by
  induction events generalizing daemon with
  | nil =>
      cases ran
      exact kept
  | cons event events ih =>
      obtain ⟨next, stepped, orderly⟩ := step_orderly some few daemon event staffed accounted
      rw [Daemon.run, List.foldlM_cons, stepped] at ran
      exact ih next orderly.1 orderly.2
        (step_kept some few daemon next event item staffed accounted kept
          (calm event List.mem_cons_self)
          (fun process same => stays process (same ▸ List.mem_cons_self)) stepped)
        (fun other member => calm other (List.mem_cons_of_mem event member))
        (fun process member => stays process (List.mem_cons_of_mem event member)) ran

/-- A daemon with some workers, whatever clients send, whatever is refused and
whenever processes exit and are started again. No event is undefined. Every
connection is with one holder at most and is read by one process at most, which
reads what the client sent from the first byte on; and that is a process of the
worker which the bytes select that had arrived when the master looked. While no
descriptor is refused and no process ends, a connection that no process closes
is not lost. -/
theorem connections_handed_over_once (workers : UInt8) (some : 0 < workers)
    (outcome : Nat → Started) (events : List (Event Conn)) :
    ∃ daemon : Daemon Conn, (startWorker outcome workers.toNat).run events = .some daemon ∧
      Apart daemon.descriptors ∧
      (∀ conn, ∃ process, daemon.heard process conn <+: sentOn conn events ∧
        (∀ other, other ≠ process → daemon.heard other conn = []) ∧
        ∀ other, Has daemon other conn → other = process ∧
          ∃ arrival : Arrival, arrival.available <+: sentOn conn events ∧
            daemon.id other = (peekUint32 arrival).toNat % workers.toNat) ∧
      ((∀ i, outcome i = .forked) → (∀ event ∈ events, Calm event) →
        ∀ conn ∈ daemon.accepted, (∀ process, Event.closes process conn ∉ events) →
          ∃ holder, conn ∈ daemon.descriptors holder) := by
  have positive : 0 < workers.toNat := UInt8.lt_iff_toNat_lt.mp some
  have few : workers.toNat < 2 ^ 31 := workers.toNat_lt.trans (by decide)
  have staffed : Staffed workers.toNat (startWorker outcome workers.toNat : Daemon Conn) :=
    startWorker_staffed outcome _
  have accounted : Accounted workers.toNat (startWorker outcome workers.toNat : Daemon Conn) :=
    startWorker_accounted _ outcome _
  obtain ⟨daemon, ran, -, orderly⟩ := run_orderly positive few _ events staffed accounted
  have streams : ∀ conn, (daemon.sockets conn).stream = sentOn conn events := by
    intro conn
    rw [run_sent _ daemon events conn ran, startWorker_sockets]
    rfl
  refine ⟨daemon, ran, orderly.apart, fun conn => ?_, fun forked calm conn member stays => ?_⟩
  · by_cases had : ∃ process, Has daemon process conn
    · obtain ⟨process, has⟩ := had
      have reader := orderly.reader process conn has
      refine ⟨process, ?_, fun other different => ?_, fun other also => ?_⟩
      · rw [reader process, if_pos rfl, ← streams conn]
        exact List.prefix_append _ _
      · rw [reader other, if_neg different]
      · obtain ⟨arrival, part, place⟩ := orderly.selected other conn also
        exact ⟨orderly.single other process conn also has, arrival, streams conn ▸ part, place⟩
    · have silent : ∀ other, daemon.heard other conn = [] := fun other =>
        heard_nothing other conn fun has => had ⟨other, has⟩
      exact ⟨0, silent 0 ▸ List.nil_prefix, fun other _ => silent other,
        fun other has => absurd ⟨other, has⟩ had⟩
  · obtain rfl : outcome = fun _ => .forked := funext forked
    exact (run_kept positive few _ daemon events conn staffed accounted (startWorker_kept conn _)
      calm stays ran).held member

end Run

end Orderly

/-- Two clients, one of whom has sent half a session when the master looks. The
connection of the other one is closed in the end. -/
def twoClients : List (Event Bool) :=
  [.onAccept true, .onAccept false, .arrives true [0, 0, 0, 2, 7], .arrives false [0, 0],
    .masterRead false 4 .forked, .masterRead true 4 .forked, .arrives false [0, 2, 7],
    .recvFd 1 4 0, .recvFd 0 4 0, .reads 0 true 3, .reads 1 false 5, .reads 0 true 2,
    .shuts true, .closes 0 true]

theorem twoClients_calm : ∀ event ∈ twoClients, Calm event := by
  simp only [twoClients, List.forall_mem_cons]
  refine ⟨trivial, trivial, trivial, trivial, (by decide : (0 : Int32) < 4),
    (by decide : (0 : Int32) < 4), trivial, ?_, ?_, trivial, trivial, trivial, trivial, trivial, ?_⟩
  · exact (by decide : onRecvFd 4 0 ≠ .exit)
  · exact (by decide : onRecvFd 4 0 ≠ .exit)
  · exact fun _ member => absurd member List.not_mem_nil

theorem connections_handed_over_once_twoClients :
    ∃ daemon : Daemon Bool, (startWorker (fun _ => .forked) 2).run twoClients = some daemon ∧
      Apart daemon.descriptors ∧ ∃ holder, false ∈ daemon.descriptors holder := by
  obtain ⟨daemon, ran, apart, -, kept⟩ :=
    connections_handed_over_once 2 (by decide) (fun _ => .forked) twoClients
  have accepted : ((startWorker (fun _ => .forked) (2 : UInt8).toNat).run twoClients).map
      Daemon.accepted = some [false, true] := by decide +kernel
  rw [ran] at accepted
  have both : daemon.accepted = [false, true] := Option.some.inj accepted
  exact ⟨daemon, ran, apart, kept (fun _ => rfl) twoClients_calm false (by simp [both])
    fun process => by simp [twoClients]⟩

end FPayNode.HandOver
