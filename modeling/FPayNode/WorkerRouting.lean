import FPayNode.FrameDelivery

/-!
`core/dispatcher`: the master peeks at the first four bytes of a connection and
passes it on to the worker that they select. `recv` and `sendFd` are the
kernel's: what has arrived, and what sending the descriptor returns. The master
closes its own end after every read event.
-/

namespace FPayNode.WorkerRouting

open CommandProgram DecimalText ByteStream JsonFrames

inductive WorkerStatus where
  | kStatusInit | kStatusOK | kStatusError | kStatusUnknown
  deriving DecidableEq

structure Worker where
  _id : Nat
  _status : WorkerStatus
  deriving DecidableEq

/-- What has arrived on a connection and was not read. -/
structure Arrival where
  available : Bytes
  closed : Bool

/-- What a nonblocking `recv` with `MSG_PEEK` returns: a number of bytes, zero
behind the last byte of a closed stream, and -1 when there is nothing yet. -/
def Arrival.nRead (arrival : Arrival) (len : Nat) : Int32 :=
  if arrival.available = [] then if arrival.closed then 0 else -1
  else Int32.ofNat (min len arrival.available.length)

/-- A byte is shifted as an `int` and added to a `uint64_t`. -/
def addByte (sessionId : UInt64) (byte : UInt8 × Nat) : UInt64 :=
  sessionId + (Int32.ofNat byte.1.toNat <<< Int32.ofNat (24 - 8 * byte.2)).toInt64.toUInt64

/-- The -1 of the two failures becomes the largest `uint64_t`. -/
def peekData (arrival : Arrival) (len : Nat) : UInt64 :=
  if arrival.nRead len = 0 then -1
  else if arrival.nRead len ≠ Int32.ofNat len then -1
  else (arrival.available.take len).zipIdx.foldl addByte 0

def peekUint32 (arrival : Arrival) : UInt32 := (peekData arrival 4).toUInt32

inductive Started where
  | forked | channelFailed | forkFailed

/-- `Worker::restart`. -/
def Worker.restart (worker : Worker) (started : Started) : Worker :=
  match worker._status with
  | .kStatusInit | .kStatusUnknown => worker
  | _ =>
      match started with
      | .forked => { worker with _status := .kStatusOK }
      | .channelFailed => { worker with _status := .kStatusInit }
      | .forkFailed => { worker with _status := .kStatusUnknown }

structure ReadEvent where
  arrival : Arrival
  sendFd : Int32
  started : Started

/-- What `dispatch` returns, the worker on whose channel it called `sendFd`, and
the workers it leaves. -/
structure Dispatched where
  returned : Bool
  offered : Option Nat
  workers : List Worker

/-- None when the index is no place in the vector. -/
def dispatch (workers : List Worker) (event : ReadEvent) : Option Dispatched :=
  let sessionId := peekUint32 event.arrival
  if sessionId < 0 then some ⟨false, none, workers⟩
  else
    let i := Int32.ofNat (sessionId.toNat % workers.length)
    if i < 0 then none
    else
      match workers[i.toInt.toNat]? with
      | none => none
      | some worker =>
          if worker._status = .kStatusOK then
            if event.sendFd ≤ 0 then
              some ⟨false, some i.toInt.toNat,
                workers.set i.toInt.toNat (worker.restart event.started)⟩
            else some ⟨true, some i.toInt.toNat, workers⟩
          else some ⟨false, none, workers⟩

/-- The worker that has the connection: sending it succeeded. -/
def Dispatched.handed (dispatched : Dispatched) : Option Nat :=
  if dispatched.returned then dispatched.offered else none

/-- `MasterConn::onRead`: both results of `dispatch` close the connection. -/
structure Master where
  workers : List Worker
  isOpen : Bool

def onRead : Machine ReadEvent (Option Dispatched) Master := fun event master =>
  if master.isOpen = false then (none, master)
  else
    match dispatch master.workers event with
    | none => (none, { master with isOpen := false })
    | some dispatched => (some dispatched, ⟨dispatched.workers, false⟩)

/-- A request that starts with the four bytes has the session. -/
def Decodes (sessionId : UInt32) (arrival : Arrival) : Prop :=
  ∀ stale proto more request, proto = .json ∨ proto = .bin →
    popHeader (JsonRequest.make stale (arrival.available.take 4 ++ more) proto) = .ok request →
      request.sessionId = sessionId

/-- Whether the worker at the index of a session is up. -/
def UpFor (workers : List Worker) (sessionId : UInt32) : Prop :=
  (workers[sessionId.toNat % workers.length]?).map Worker._status = some .kStatusOK

instance (workers : List Worker) (sessionId : UInt32) : Decidable (UpFor workers sessionId) :=
  inferInstanceAs (Decidable (_ = _))

/-- With four bytes the connection is offered to the worker of the session, if
that worker is up, and to no other. With fewer nobody gets it, and it stays with
the master while the peer can send the rest and the worker is up. -/
def Routes (sessionId : UInt32) (master : Master) (event : ReadEvent) : Prop :=
  master.isOpen = true → ∃ dispatched, dispatch master.workers event = some dispatched ∧
    (4 ≤ event.arrival.available.length →
      dispatched.offered =
        if UpFor master.workers sessionId then
          some (sessionId.toNat % master.workers.length)
        else none) ∧
    (4 ≤ event.arrival.available.length → Decodes sessionId event.arrival) ∧
    (event.arrival.available.length < 4 → dispatched.handed = none ∧
      (event.arrival.closed = false → UpFor master.workers sessionId →
        (onRead event master).2.isOpen = true))

/-- The session that `peekUint32` makes of its -1. -/
def unread : UInt32 := 0xFFFFFFFF

/-- The session is there; or it will not come, or its worker is down, and the
worker that stands for none is down too or does not take the connection. The
index fits an `int`. -/
def Readable (sessionId : UInt32) (master : Master) (event : ReadEvent) : Prop :=
  master.isOpen = true →
    if 4 ≤ event.arrival.available.length then
      sessionId.toNat % master.workers.length < 2 ^ 31
    else unread.toNat % master.workers.length < 2 ^ 31 ∧
      (¬ UpFor master.workers unread ∨ event.sendFd ≤ 0) ∧
      (event.arrival.closed = true ∨ ¬ UpFor master.workers sessionId)

/-! The session. -/

theorem toUInt32_signExtended (int : Int32) : int.toInt64.toUInt64.toUInt32 = int.toUInt32 := by
  apply UInt32.toBitVec_inj.mp
  change (int.toBitVec.signExtend 64).setWidth 32 = int.toBitVec
  apply BitVec.eq_of_getLsbD_eq
  intro bit inside
  rw [BitVec.getLsbD_setWidth, BitVec.getLsbD_signExtend]
  have wide : bit < 64 := by omega
  simp [inside, wide]

/-- The sum of the shifted bytes is the big-endian word; what the sign of a byte
adds is above the 32 bits. -/
theorem peeked_word (b0 b1 b2 b3 : UInt8) :
    ([b0, b1, b2, b3].zipIdx.foldl addByte 0).toUInt32 = XHTONL (loadUint32 b0 b1 b2 b3) := by
  -- In 32 bits a byte shifted as an `int` is the byte shifted as an unsigned word.
  have shifted0 : (Int32.ofNat b0.toNat <<< Int32.ofNat (24 - 8 * 0)).toUInt32 =
      UInt32.ofNat b0.toNat <<< 24 := rfl
  have shifted1 : (Int32.ofNat b1.toNat <<< Int32.ofNat (24 - 8 * 1)).toUInt32 =
      UInt32.ofNat b1.toNat <<< 16 := rfl
  have shifted2 : (Int32.ofNat b2.toNat <<< Int32.ofNat (24 - 8 * 2)).toUInt32 =
      UInt32.ofNat b2.toNat <<< 8 := rfl
  have shifted3 : (Int32.ofNat b3.toNat <<< Int32.ofNat (24 - 8 * 3)).toUInt32 =
      UInt32.ofNat b3.toNat <<< 0 := rfl
  have sum : ([b0, b1, b2, b3].zipIdx.foldl addByte 0).toUInt32 =
      (0 : UInt32) + (UInt32.ofNat b0.toNat <<< 24) + (UInt32.ofNat b1.toNat <<< 16) +
        (UInt32.ofNat b2.toNat <<< 8) + (UInt32.ofNat b3.toNat <<< 0) := by
    rw [← shifted0, ← shifted1, ← shifted2, ← shifted3, ← toUInt32_signExtended,
      ← toUInt32_signExtended, ← toUInt32_signExtended, ← toUInt32_signExtended]
    simp only [List.zipIdx_cons, List.zipIdx_nil, List.foldl_cons, List.foldl_nil, addByte,
      UInt64.toUInt32_add, Nat.zero_add, Nat.reduceAdd]
    rfl
  have bound0 := b0.toNat_lt
  have bound1 := b1.toNat_lt
  have bound2 := b2.toNat_lt
  have bound3 := b3.toNat_lt
  apply UInt32.toNat_inj.mp
  rw [sum, read_word, bigEndian]
  simp only [UInt32.toNat_add, UInt32.toNat_shiftLeft, UInt32.toNat_ofNat', Nat.shiftLeft_eq,
    UInt32.reduceToNat, Nat.reduceMod, Nat.reducePow]
  omega

theorem arrived_four (sessionId : UInt32) (available rest : Bytes)
    (starts : available <+: storeUint32 (XHTONL sessionId) ++ rest)
    (enough : 4 ≤ available.length) :
    available.take 4 = storeUint32 (XHTONL sessionId) := by
  obtain ⟨more, whole⟩ := starts
  have front := congrArg (List.take 4) whole
  rw [List.take_append_of_le_length enough] at front
  exact front

theorem nRead_four (arrival : Arrival) (enough : 4 ≤ arrival.available.length) :
    arrival.nRead 4 = 4 := by
  have nonempty : arrival.available ≠ [] := by
    intro empty
    rw [empty] at enough
    exact absurd enough (by decide)
  rw [Arrival.nRead, if_neg nonempty, Nat.min_eq_left enough]
  rfl

theorem nRead_short (arrival : Arrival) (short : arrival.available.length < 4) :
    arrival.nRead 4 ≠ 4 := by
  rw [Arrival.nRead]
  split
  · split
    · decide
    · decide
  · rw [Nat.min_eq_right (Nat.le_of_lt short)]
    have cases : arrival.available.length = 0 ∨ arrival.available.length = 1 ∨
        arrival.available.length = 2 ∨ arrival.available.length = 3 := by omega
    rcases cases with length | length | length | length
    all_goals
      rw [length]
      decide

theorem peekUint32_arrived (sessionId : UInt32) (arrival : Arrival) (rest : Bytes)
    (starts : arrival.available <+: storeUint32 (XHTONL sessionId) ++ rest)
    (enough : 4 ≤ arrival.available.length) : peekUint32 arrival = sessionId := by
  obtain ⟨b0, b1, b2, b3, bytes, word⟩ := read_written sessionId
  have four := arrived_four sessionId arrival.available rest starts enough
  have read := nRead_four arrival enough
  rw [peekUint32, peekData, read, if_neg (by decide), if_neg (by decide), four, bytes, peeked_word,
    word]

theorem peekUint32_unread (arrival : Arrival) (short : arrival.available.length < 4) :
    peekUint32 arrival = unread := by
  have read := nRead_short arrival short
  rw [peekUint32, peekData]
  split
  · rfl
  · rw [if_pos (show arrival.nRead 4 ≠ Int32.ofNat 4 from read)]
    rfl

theorem popHeader_session (request popped : JsonRequest) (sessionId : UInt32) (more : Bytes)
    (tagged : request.protoType = .json ∨ request.protoType = .bin)
    (data : request.up = storeUint32 (XHTONL sessionId) ++ more)
    (done : popHeader request = .ok popped) : popped.sessionId = sessionId := by
  have first := readUint32_written sessionId more
  rw [← data] at first
  rcases tagged with proto | proto
  all_goals
    simp only [popHeader, proto] at done
    obtain ⟨⟨session, up⟩, read, done⟩ := bind_ok _ _ _ done
    obtain ⟨len, -, done⟩ := bind_ok _ _ _ done
    obtain ⟨uri, -, done⟩ := bind_ok _ _ _ done
    rw [first] at read
    cases read
    cases done
    rfl

theorem arrived_decodes (sessionId : UInt32) (arrival : Arrival) (rest : Bytes)
    (starts : arrival.available <+: storeUint32 (XHTONL sessionId) ++ rest)
    (enough : 4 ≤ arrival.available.length) : Decodes sessionId arrival := by
  intro stale proto more request tagged popped
  have four := arrived_four sessionId arrival.available rest starts enough
  exact popHeader_session _ request sessionId more tagged
    (congrArg (· ++ more) four) popped

/-! The dispatch. -/

theorem index_large (k : Nat) (large : ¬ k < 2 ^ 31) (word : k < 2 ^ 32) : Int32.ofNat k < 0 := by
  have size : Int32.size = 2 ^ 32 := rfl
  rw [Int32.lt_iff_toInt_lt, Int32.toInt_ofNat', size, Int.bmod_def]
  change _ < (0 : Int)
  split
  · omega
  · omega

theorem dispatch_cases (workers : List Worker) (event : ReadEvent) (nonempty : workers ≠ [])
    (small : (peekUint32 event.arrival).toNat % workers.length < 2 ^ 31) :
    ∃ worker dispatched,
      workers[(peekUint32 event.arrival).toNat % workers.length]? = some worker ∧
      dispatch workers event = some dispatched ∧
      dispatched.offered = (if worker._status = .kStatusOK then
        some ((peekUint32 event.arrival).toNat % workers.length) else none) ∧
      (dispatched.handed = none ↔ worker._status ≠ .kStatusOK ∨ event.sendFd ≤ 0) ∧
      dispatched.workers.length = workers.length := by
  have inside := Nat.mod_lt (peekUint32 event.arrival).toNat (List.length_pos_of_ne_nil nonempty)
  have index := Int32.toInt_ofNat_of_lt small
  have natural : ¬ Int32.ofNat ((peekUint32 event.arrival).toNat % workers.length) < 0 := by
    rw [Int32.lt_iff_toInt_lt, index]
    exact Int.not_lt.mpr (Int.natCast_nonneg _)
  have unsigned : ¬ peekUint32 event.arrival < 0 := UInt32.not_lt.mpr (UInt32.zero_le)
  refine ⟨workers[(peekUint32 event.arrival).toNat % workers.length], ?_⟩
  simp only [dispatch, unsigned, natural, ↓reduceIte, index, Int.toNat_natCast,
    List.getElem?_eq_getElem inside]
  split
  · next up =>
      split
      · next refused =>
          exact ⟨_, trivial, rfl, rfl, by simp [Dispatched.handed, refused], by simp⟩
      · next taken =>
          exact ⟨_, trivial, rfl, rfl, by simp [Dispatched.handed, taken, up], rfl⟩
  · next down => exact ⟨_, trivial, rfl, rfl, by simp [Dispatched.handed, down], rfl⟩

theorem dispatch_undefined (workers : List Worker) (event : ReadEvent)
    (large : ¬ (peekUint32 event.arrival).toNat % workers.length < 2 ^ 31) :
    dispatch workers event = none := by
  have word : (peekUint32 event.arrival).toNat % workers.length < 2 ^ 32 :=
    (Nat.mod_le _ _).trans_lt (peekUint32 event.arrival).toNat_lt
  have unsigned : ¬ peekUint32 event.arrival < 0 := UInt32.not_lt.mpr (UInt32.zero_le)
  simp only [dispatch, unsigned, index_large _ large word, ↓reduceIte]

theorem onRead_closes (master : Master) (event : ReadEvent) :
    (onRead event master).2.isOpen = false := by
  simp only [onRead]
  split
  · next done => exact done
  · split <;> rfl

section Stream
variable (sessionId : UInt32) (rest : Bytes)

/-- The event sees a part of the stream. -/
def Arrives (event : ReadEvent) : Prop :=
  event.arrival.available <+: storeUint32 (XHTONL sessionId) ++ rest

theorem routes_iff (master : Master) (event : ReadEvent) (nonempty : master.workers ≠ [])
    (arrives : Arrives sessionId rest event) :
    Routes sessionId master event ↔ Readable sessionId master event := by
  apply imp_congr_right
  intro _
  have leaves : ¬ (onRead event master).2.isOpen = true := by
    rw [onRead_closes]
    exact Bool.false_ne_true
  by_cases enough : 4 ≤ event.arrival.available.length
  · have read := peekUint32_arrived sessionId event.arrival rest arrives enough
    have decodes := arrived_decodes sessionId event.arrival rest arrives enough
    have notShort : ¬ event.arrival.available.length < 4 := Nat.not_lt.mpr enough
    rw [if_pos enough, ← read]
    constructor
    · rintro ⟨dispatched, done, -⟩
      -- Only an index that is negative as an `int` is no place in the vector.
      by_contra large
      rw [dispatch_undefined master.workers event large] at done
      cases done
    · intro small
      obtain ⟨worker, dispatched, found, done, offered, -, -⟩ :=
        dispatch_cases master.workers event nonempty small
      refine ⟨dispatched, done, fun _ => ?_, fun _ => read ▸ decodes,
        fun short => absurd short notShort⟩
      simp only [offered, UpFor, found, Option.map_some, Option.some.injEq]
  · -- Too few bytes: the worker is selected by the -1 of the failed read.
    have short := Nat.not_le.mp enough
    have read := peekUint32_unread event.arrival short
    rw [if_neg enough, ← read]
    constructor
    · rintro ⟨dispatched, done, -, -, unhanded⟩
      obtain ⟨nobody, waits⟩ := unhanded short
      by_cases small : (peekUint32 event.arrival).toNat % master.workers.length < 2 ^ 31
      · obtain ⟨worker, other, found, same, -, handed, -⟩ :=
          dispatch_cases master.workers event nonempty small
        rw [done] at same
        cases same
        refine ⟨small, ?_, ?_⟩
        · rw [UpFor, found, Option.map_some, Option.some.injEq]
          exact handed.mp nobody
        · cases closed : event.arrival.closed with
          | true => exact .inl rfl
          | false => exact .inr fun up => leaves (waits closed up)
      · rw [dispatch_undefined master.workers event small] at done
        cases done
    · rintro ⟨small, refused, given⟩
      obtain ⟨worker, dispatched, found, done, -, handed, -⟩ :=
        dispatch_cases master.workers event nonempty small
      rw [UpFor, found, Option.map_some, Option.some.injEq] at refused
      refine ⟨dispatched, done, fun four => absurd four enough, fun four => absurd four enough,
        fun _ => ⟨handed.mpr refused, fun waiting up => ?_⟩⟩
      rcases given with closed | down
      · rw [waiting] at closed
        cases closed
      · exact absurd up down

theorem onRead_workers (master : Master) (event : ReadEvent) (nonempty : master.workers ≠ []) :
    (onRead event master).2.workers ≠ [] := by
  simp only [onRead]
  split
  · exact nonempty
  · split
    · exact nonempty
    · next dispatched done =>
        by_cases small : (peekUint32 event.arrival).toNat % master.workers.length < 2 ^ 31
        · obtain ⟨-, other, -, same, -, -, length⟩ :=
            dispatch_cases master.workers event nonempty small
          rw [done] at same
          cases same
          exact List.ne_nil_of_length_pos (length ▸ List.length_pos_of_ne_nil nonempty)
        · rw [dispatch_undefined master.workers event small] at done
          cases done

/-- For every session and every non-empty list of workers, and whatever has
arrived when the read events come: the connection goes to the worker of its
session and to no worker before, exactly when the first event finds the session
there, or finds that it has nowhere to go or will not come and that the worker
which the missing session selects cannot take the connection. -/
theorem connection_routed_iff (master : Master) (events : List ReadEvent)
    (nonempty : master.workers ≠ []) (arrive : ∀ event ∈ events, Arrives sessionId rest event) :
    Throughout onRead Program.perform (Routes sessionId) master events ↔
      Throughout onRead Program.perform (Readable sessionId) master events := by
  apply throughout_congr onRead Program.perform (fun master => master.workers ≠ [])
    (Arrives sessionId rest)
  · exact fun master event some arrives => routes_iff sessionId rest master event some arrives
  · exact fun master event some _ => onRead_workers master event some
  · exact nonempty
  · exact arrive

end Stream

def twoWorkers : List Worker := [⟨0, .kStatusOK⟩, ⟨1, .kStatusOK⟩]

/-- A client whose first segment has the whole session. -/
def whole : ReadEvent := ⟨⟨[0, 0, 0, 2, 0, 0], false⟩, 4, .forked⟩

theorem connection_routed_iff_whole :
    Throughout onRead Program.perform (Routes 2) ⟨twoWorkers, true⟩ [whole] ∧
      (dispatch twoWorkers whole).map Dispatched.handed = some (some 0) := by
  constructor
  · apply (connection_routed_iff 2 [0, 0] ⟨twoWorkers, true⟩ [whole] (by decide) ?_).mpr
    · exact ⟨fun _ => by decide, trivial⟩
    · intro event member
      rw [List.mem_singleton.mp member]
      exact ⟨[], rfl⟩
  · decide

/-- The same client when two bytes have arrived. -/
def half : ReadEvent := ⟨⟨[0, 0], false⟩, 4, .forked⟩

theorem half_session_handed_on :
    ¬ Throughout onRead Program.perform (Routes 2) ⟨twoWorkers, true⟩ [half] ∧
      (dispatch twoWorkers half).map Dispatched.handed = some (some 1) := by
  constructor
  · rintro ⟨routes, -⟩
    obtain ⟨dispatched, done, -, -, short⟩ := routes rfl
    have handed : (dispatch twoWorkers half).map Dispatched.handed = some (some 1) := by decide
    rw [show dispatch twoWorkers half = some dispatched from done, Option.map_some,
      (short (by decide)).1] at handed
    cases handed
  · decide

end FPayNode.WorkerRouting
