import FPayNode.JsonFrames

/-!
What a connection makes of the bytes it receives. The frames of a stream are cut
after eight bytes and as many as the low 29 bits of the length word say; a
connection processes them in order, however the bytes arrive, until one of them
stops it or does not fit the input buffer.
-/

namespace FPayNode.FrameDelivery

open CommandProgram DecimalText ByteStream BlockBuffers UnitStream JsonFrames

/-- The size of the frame at the front, once its header is there. -/
def frameSize (data : Bytes) : Option Nat :=
  if data.length < 8 then none
  else some (8 + bigEndian (data.getD 4 0) (data.getD 5 0) (data.getD 6 0) (data.getD 7 0) % 2 ^ 29)

/-- The frame at the front, when it is all there and within a limit. -/
def wholeFrame (limit : Nat) (data : Bytes) : Option Nat :=
  (frameSize data).filter fun size => size ≤ data.length ∧ size ≤ limit

/-- The frame at the front is too long ever to be whole. -/
def Overlong (limit : Nat) (data : Bytes) : Prop :=
  ∃ size, frameSize data = some size ∧ limit < size

theorem getD_append (data more : Bytes) (index : Nat) (inside : index < data.length) :
    (data ++ more).getD index 0 = data.getD index 0 := by
  simp only [List.getD_eq_getElem?_getD, List.getElem?_append_left inside]

theorem getD_take (data : Bytes) (size index : Nat) (inside : index < size) :
    (data.take size).getD index 0 = data.getD index 0 := by
  simp only [List.getD_eq_getElem?_getD, List.getElem?_take_of_lt inside]

theorem frameSize_some (data : Bytes) (size : Nat) (found : frameSize data = some size) :
    8 ≤ data.length ∧ 8 ≤ size ∧ size < 2 ^ 29 + 8 := by
  simp only [frameSize] at found
  split at found
  · cases found
  · next long =>
      simp only [Option.some.injEq] at found
      omega

theorem frameSize_append (data more : Bytes) (size : Nat) (found : frameSize data = some size) :
    frameSize (data ++ more) = some size := by
  obtain ⟨long, -, -⟩ := frameSize_some data size found
  have longer : ¬ (data ++ more).length < 8 := by
    rw [List.length_append]
    omega
  simp only [frameSize, if_neg longer, getD_append data more 4 (by omega),
    getD_append data more 5 (by omega), getD_append data more 6 (by omega),
    getD_append data more 7 (by omega)]
  simpa only [frameSize, if_neg (Nat.not_lt.mpr long)] using found

theorem wholeFrame_some (limit : Nat) (data : Bytes) (size : Nat) :
    wholeFrame limit data = some size ↔
      frameSize data = some size ∧ size ≤ data.length ∧ size ≤ limit := by
  simp only [wholeFrame, Option.filter_eq_some_iff, decide_eq_true_eq]

theorem wholeFrame_overlong (limit : Nat) (data : Bytes) (overlong : Overlong limit data) :
    wholeFrame limit data = none := by
  obtain ⟨size, found, larger⟩ := overlong
  apply Option.eq_none_iff_forall_ne_some.mpr
  intro other whole
  obtain ⟨same, -, fits⟩ := (wholeFrame_some limit data other).mp whole
  rw [found] at same
  cases same
  omega

theorem overlong_append (limit : Nat) (data more : Bytes) (overlong : Overlong limit data) :
    Overlong limit (data ++ more) := by
  obtain ⟨size, found, larger⟩ := overlong
  exact ⟨size, frameSize_append data more size found, larger⟩

def frames (limit : Nat) : Cutter UInt8 where
  front := wholeFrame limit
  positive := by
    intro data size found
    obtain ⟨header, -, -⟩ := (wholeFrame_some limit data size).mp found
    have long := frameSize_some data size header
    omega
  within := by
    intro data size found
    exact ((wholeFrame_some limit data size).mp found).2.1
  stable := by
    intro data more size found
    obtain ⟨header, within, fits⟩ := (wholeFrame_some limit data size).mp found
    apply (wholeFrame_some limit (data ++ more) size).mpr
    rw [List.length_append]
    exact ⟨frameSize_append data more size header, by omega, fits⟩

/-! The length as `onData` computes it. -/

theorem getProtoType_len (len : UInt32) : (getProtoType len).2.toNat = len.toNat % 2 ^ 29 := by
  have mask : PROTO_MAGIC_MASK.toNat = 2 ^ 29 - 1 := by decide
  change (len &&& PROTO_MAGIC_MASK).toNat = _
  rw [UInt32.toNat_and, mask, Nat.and_two_pow_sub_one_eq_mod]

theorem frameSize_realLen (data : Bytes) (long : 8 ≤ data.length) :
    frameSize data = some ((getProtoType (lengthWord data)).2 + JSON_HEADER_SIZE).toNat := by
  have word : (lengthWord data).toNat = bigEndian (data.getD 4 0) (data.getD 5 0)
      (data.getD 6 0) (data.getD 7 0) := read_word _ _ _ _
  have header : JSON_HEADER_SIZE.toNat = 8 := rfl
  rw [frameSize, if_neg (Nat.not_lt.mpr long), UInt32.toNat_add, getProtoType_len, word, header]
  congr 1
  omega

theorem lengthWord_take (data : Bytes) (size : Nat) (header : 8 ≤ size) :
    lengthWord (data.take size) = lengthWord data := by
  simp only [lengthWord, getD_take data size 4 (by omega), getD_take data size 5 (by omega),
    getD_take data size 6 (by omega), getD_take data size 7 (by omega)]

section Consume
variable {World : Type} (consumer : Consumer World)

/-- A frame is processed under the protocol of its own length word. -/
def visitFrame (world : World) (frame : Bytes) : Visit Processed World :=
  let (processed, step, after) :=
    processFrame consumer world frame (getProtoType (lengthWord frame)).1
  ⟨processed, step = .goesOn, after⟩

theorem visitFrame_refused (world : World) (frame : Bytes) (exn : Exn)
    (popped : popHeader (JsonRequest.make (consumer.stale world) frame
      (getProtoType (lengthWord frame)).1) = .error exn) :
    visitFrame consumer world frame = ⟨⟨frame, none⟩, false, world⟩ := by
  simp only [visitFrame, processFrame, popped]
  rfl

theorem visitFrame_popped (world : World) (frame : Bytes) (request : JsonRequest)
    (popped : popHeader (JsonRequest.make (consumer.stale world) frame
      (getProtoType (lengthWord frame)).1) = .ok request) :
    visitFrame consumer world frame =
      match consumer.doRequest world request with
      | (.threw _, after) => ⟨⟨frame, some request⟩, false, after⟩
      | (.returned ret, after) => ⟨⟨frame, some request⟩, ret ≠ -1, after⟩ := by
  simp only [visitFrame, processFrame, popped]
  rcases consumer.doRequest world request with ⟨verdict, after⟩
  cases verdict with
  | threw exn => rfl
  | returned ret =>
      by_cases stops : ret = -1
      · simp [stops]
      · simp [stops]

/-- What `onData` reports, against what draining the same bytes gives. -/
structure Reports (data : Bytes) (drained : Drained UInt8 Processed World)
    (handled : Handled World) : Prop where
  processed : handled.processed = drained.outputs
  world : handled.world = drained.world
  stopped : drained.left = none →
    handled.ended = .ok (-1) ∨ ∃ exn, handled.ended = .error exn
  goesOn : ∀ rest, drained.left = some rest →
    handled.ended = .ok (Int32.ofNat handled.offset) ∧ handled.offset ≤ data.length ∧
      rest = data.drop handled.offset

theorem onDataLoop_succ (fuel : Nat) (world : World) (fb : ForwardBuf) :
    onDataLoop consumer (fuel + 1) world fb =
      if fb.empty || fb.size < JSON_HEADER_SIZE.toNat ||
          fb.size < ((getProtoType (lengthWord fb.data)).2 + JSON_HEADER_SIZE).toNat then
        ⟨.ok (Int32.ofNat fb.m_pos), fb.m_pos, world, []⟩
      else
        match processFrame consumer world
            (fb.data.take ((getProtoType (lengthWord fb.data)).2 + JSON_HEADER_SIZE).toNat)
            (getProtoType (lengthWord fb.data)).1 with
        | (processed, .threw exn, after) => ⟨.error exn, fb.m_pos, after, [processed]⟩
        | (processed, .minusOne, after) => ⟨.ok (-1), fb.m_pos, after, [processed]⟩
        | (processed, .goesOn, after) =>
            let rest := onDataLoop consumer fuel after
              (fb.erase ((getProtoType (lengthWord fb.data)).2 + JSON_HEADER_SIZE).toNat)
            { rest with processed := processed :: rest.processed } := rfl

/-- One round of the loop, when it does not break. -/
theorem onDataLoop_some (fuel limit : Nat) (world : World) (fb : ForwardBuf) (size : Nat)
    (whole : wholeFrame limit fb.data = some size) :
    onDataLoop consumer (fuel + 1) world fb =
      match processFrame consumer world (fb.data.take size)
          (getProtoType (lengthWord (fb.data.take size))).1 with
      | (processed, .threw exn, after) => ⟨.error exn, fb.m_pos, after, [processed]⟩
      | (processed, .minusOne, after) => ⟨.ok (-1), fb.m_pos, after, [processed]⟩
      | (processed, .goesOn, after) =>
          let rest := onDataLoop consumer fuel after (fb.erase size)
          { rest with processed := processed :: rest.processed } := by
  obtain ⟨header, within, -⟩ := (wholeFrame_some limit fb.data size).mp whole
  obtain ⟨long, tall, -⟩ := frameSize_some fb.data size header
  rw [frameSize_realLen fb.data long] at header
  cases header
  have length : fb.data.length = fb.size := List.length_drop
  have small : JSON_HEADER_SIZE.toNat = 8 := rfl
  have there : ¬ (fb.empty || fb.size < JSON_HEADER_SIZE.toNat ||
      fb.size < ((getProtoType (lengthWord fb.data)).2 + JSON_HEADER_SIZE).toNat) = true := by
    simp only [ForwardBuf.empty, Bool.or_eq_true, decide_eq_true_eq, small]
    simp only [ForwardBuf.size] at length ⊢
    omega
  rw [onDataLoop_succ, if_neg there, lengthWord_take _ _ tall]

/-- The loop breaks where no frame is whole. -/
theorem onDataLoop_none (fuel limit : Nat) (world : World) (fb : ForwardBuf)
    (small : fb.size ≤ limit) (absent : wholeFrame limit fb.data = none) :
    onDataLoop consumer (fuel + 1) world fb =
      ⟨.ok (Int32.ofNat fb.m_pos), fb.m_pos, world, []⟩ := by
  have length : fb.data.length = fb.size := List.length_drop
  have header : JSON_HEADER_SIZE.toNat = 8 := rfl
  have breaks : (fb.empty || fb.size < JSON_HEADER_SIZE.toNat ||
      fb.size < ((getProtoType (lengthWord fb.data)).2 + JSON_HEADER_SIZE).toNat) = true := by
    simp only [Bool.or_eq_true, decide_eq_true_eq, header]
    by_cases long : 8 ≤ fb.data.length
    · right
      by_contra fits
      have whole := (wholeFrame_some limit fb.data _).mpr
        ⟨frameSize_realLen fb.data long, by omega, by omega⟩
      rw [absent] at whole
      cases whole
    · left
      right
      omega
  rw [onDataLoop_succ, if_pos breaks]

/-- The loop of `onData` drains its buffer. -/
theorem onDataLoop_drain (limit fuel : Nat) (world : World) (fb : ForwardBuf)
    (small : fb.size ≤ limit) (inside : fb.m_pos ≤ fb.m_data.length) (enough : fb.size < fuel) :
    Reports fb.m_data (drain (frames limit) (visitFrame consumer) world fb.data)
      (onDataLoop consumer fuel world fb) := by
  induction fuel generalizing world fb with
  | zero => omega
  | succ fuel ih =>
      have length : fb.data.length = fb.size := List.length_drop
      cases found : (frames limit).front fb.data with
      | none =>
          rw [drain_none _ _ world fb.data found,
            onDataLoop_none consumer fuel limit world fb small found]
          constructor
          · rfl
          · rfl
          · intro stopped
            cases stopped
          · intro rest left
            cases left
            exact ⟨rfl, inside, rfl⟩
      | some size =>
          obtain ⟨header, within, -⟩ := (wholeFrame_some limit fb.data size).mp found
          obtain ⟨-, positive, -⟩ := frameSize_some fb.data size header
          have cut : (fb.erase size).data = fb.data.drop size := by
            simp only [ForwardBuf.data, ForwardBuf.erase, List.drop_drop]
          have fewer : (fb.erase size).size = fb.size - size := by
            simp only [ForwardBuf.size, ForwardBuf.erase]
            omega
          rcases seen : processFrame consumer world (fb.data.take size)
            (getProtoType (lengthWord (fb.data.take size))).1 with ⟨processed, step, after⟩
          have visited : visitFrame consumer world (fb.data.take size) =
              ⟨processed, step = .goesOn, after⟩ := by
            simp only [visitFrame, seen]
          rw [drain_some _ _ world fb.data size found, visited,
            onDataLoop_some consumer fuel limit world fb size found, seen]
          cases step with
          | goesOn =>
              have later := ih after (fb.erase size) (by omega)
                (by simp only [ForwardBuf.erase, ForwardBuf.size] at length ⊢; omega)
                (by omega)
              rw [cut] at later
              constructor
              · exact congrArg (processed :: ·) later.processed
              · exact later.world
              · exact later.stopped
              · exact later.goesOn
          | minusOne =>
              constructor
              · rfl
              · rfl
              · exact fun _ => .inl rfl
              · intro rest left
                cases left
          | threw exn =>
              constructor
              · rfl
              · rfl
              · exact fun _ => .inr ⟨exn, rfl⟩
              · intro rest left
                cases left

theorem onData_drain (limit : Nat) (world : World) (buf : Bytes) (small : buf.length ≤ limit) :
    Reports buf (drain (frames limit) (visitFrame consumer) world buf)
      (onData consumer world buf) :=
  onDataLoop_drain consumer limit (buf.length + 1) world ⟨buf, 0⟩ small (Nat.zero_le _)
    (Nat.lt_succ_self _)

end Consume

/-! Read events. -/

/-- The most that the input buffer holds. -/
def inputLimit : Nat := 8 * 1024 * 1024

theorem input_length (input : InputBuffer) : input.content.length ≤ inputLimit := by
  have room : input.m_block * 8192 ≤ 128 * 8 * 8192 := Nat.mul_le_mul_right 8192 input.bounded
  exact input.fits.trans room

theorem offset_returned (offset : Nat) (small : offset ≤ inputLimit) :
    Int32.ofNat offset ≠ -1 ∧ toSize (Int32.ofNat offset) = offset := by
  simp only [inputLimit] at small
  have value : (Int32.ofNat offset).toInt = offset := Int32.toInt_ofNat_of_lt (by omega)
  constructor
  · intro minusOne
    rw [minusOne] at value
    have negative : (-1 : Int32).toInt = -1 := rfl
    omega
  · rw [toSize, value]
    omega

section Receive
variable {World : Type} (consumer : Consumer World)

/-- One read event for each result of `recv`. -/
def receiving : Machine Bytes Unit (Connection World) := fun recv conn =>
  ((), onRead consumer conn recv)

/-- What `recv` may return, as long as it is called: some bytes, and no more
than it was asked for. -/
def Delivers (conn : Connection World) (recv : Bytes) : Prop :=
  conn.isOpen = true → conn._input.prepared.freespace ≠ 0 →
    recv ≠ [] ∧ recv.length ≤ conn._input.prepared.freespace

/-- A connection against the stream it has received. -/
structure Follows (world : World) (stream : Bytes) (conn : Connection World) : Prop where
  processed : conn.processed =
    (drain (frames inputLimit) (visitFrame consumer) world stream).outputs
  opened : conn.isOpen = true →
    conn.world = (drain (frames inputLimit) (visitFrame consumer) world stream).world ∧
      (drain (frames inputLimit) (visitFrame consumer) world stream).left =
        some conn._input.content
  closed : conn.isOpen = false →
    ∀ rest, (drain (frames inputLimit) (visitFrame consumer) world stream).left = some rest →
      Overlong inputLimit rest

theorem follows_fresh (world : World) : Follows consumer world [] (Connection.fresh world) := by
  have nothing : drain (frames inputLimit) (visitFrame consumer) world [] = ⟨[], world, some []⟩ :=
    drain_none _ _ world [] rfl
  constructor
  · rw [nothing]
    rfl
  · intro _
    rw [nothing]
    exact ⟨rfl, rfl⟩
  · intro closed
    cases closed

/-- A frame that can never be whole stays in front of what comes after it. -/
theorem drain_overlong (world : World) (stream more rest : Bytes)
    (left : (drain (frames inputLimit) (visitFrame consumer) world stream).left = some rest)
    (overlong : Overlong inputLimit rest) :
    (drain (frames inputLimit) (visitFrame consumer) world (stream ++ more)).outputs =
        (drain (frames inputLimit) (visitFrame consumer) world stream).outputs ∧
      (drain (frames inputLimit) (visitFrame consumer) world (stream ++ more)).left =
        some (rest ++ more) := by
  have stuck := wholeFrame_overlong inputLimit (rest ++ more)
    (overlong_append inputLimit rest more overlong)
  rw [drain_append, resume_some _ _ _ _ rest left, drain_none _ _ _ (rest ++ more) stuck]
  exact ⟨List.append_nil _, rfl⟩

/-- A full buffer that no frame is whole in begins with one that is too long. -/
theorem full_overlong (content : Bytes) (full : content.length = inputLimit)
    (stuck : wholeFrame inputLimit content = none) : Overlong inputLimit content := by
  have long : 8 ≤ content.length := by
    rw [full, inputLimit]
    omega
  refine ⟨_, frameSize_realLen content long, ?_⟩
  by_contra fits
  have whole := (wholeFrame_some inputLimit content _).mpr
    ⟨frameSize_realLen content long, by omega, by omega⟩
  rw [stuck] at whole
  cases whole

theorem onRead_closed (conn : Connection World) (recv : Bytes) (closed : conn.isOpen = false) :
    onRead consumer conn recv = conn := if_pos closed

theorem onRead_full (conn : Connection World) (recv : Bytes) (opened : conn.isOpen = true)
    (full : conn._input.prepared.freespace = 0) :
    onRead consumer conn recv = { conn with isOpen := false } := by
  have stays : ¬ conn.isOpen = false := by simp only [opened, Bool.true_eq_false, not_false_eq_true]
  have refused : conn._input.pump recv = none := if_pos full
  rw [onRead, if_neg stays, refused]

/-- A read that delivers something drains the buffer. -/
theorem onRead_drain (conn : Connection World) (recv : Bytes) (opened : conn.isOpen = true)
    (received : recv ≠ []) (within : recv.length ≤ conn._input.prepared.freespace) :
    (onRead consumer conn recv).processed = conn.processed ++
        (drain (frames inputLimit) (visitFrame consumer) conn.world
          (conn._input.content ++ recv)).outputs ∧
      match (drain (frames inputLimit) (visitFrame consumer) conn.world
          (conn._input.content ++ recv)).left with
      | none => (onRead consumer conn recv).isOpen = false
      | some rest => (onRead consumer conn recv).isOpen = true ∧
          (onRead consumer conn recv).world =
            (drain (frames inputLimit) (visitFrame consumer) conn.world
              (conn._input.content ++ recv)).world ∧
          (onRead consumer conn recv)._input.content = rest := by
  have stays : ¬ conn.isOpen = false := by simp only [opened, Bool.true_eq_false, not_false_eq_true]
  obtain ⟨input, pumped, content⟩ := BlockBuffer.pump_some conn._input recv received within
  have small : (conn._input.content ++ recv).length ≤ inputLimit := by
    rw [← content]
    exact input_length input
  have reports := onData_drain consumer inputLimit conn.world (conn._input.content ++ recv) small
  rw [onRead, if_neg stays, pumped]
  simp only [content]
  generalize onData consumer conn.world (conn._input.content ++ recv) = handled at reports ⊢
  generalize drain (frames inputLimit) (visitFrame consumer) conn.world
    (conn._input.content ++ recv) = drained at reports ⊢
  cases left : drained.left with
  | none =>
      rcases reports.stopped left with minusOne | ⟨exn, threw⟩
      · rw [minusOne]
        exact ⟨congrArg (conn.processed ++ ·) reports.processed, rfl⟩
      · rw [threw]
        cases exn with
        | socketExn errno raised =>
            -- `Socket::send` raises neither of the errors that are ignored here.
            have fatal : (decide (errno = EAGAIN) || decide (errno = EINTR)) = false := by
              simp only [isIgnoreError, Bool.or_eq_false_iff] at raised
              simp only [raised.1.1, raised.1.2, Bool.or_self]
            simp only [fatal, Bool.false_eq_true, ↓reduceIte]
            exact ⟨congrArg (conn.processed ++ ·) reports.processed, trivial⟩
        | readStreamExn => exact ⟨congrArg (conn.processed ++ ·) reports.processed, rfl⟩
        | cerealException => exact ⟨congrArg (conn.processed ++ ·) reports.processed, rfl⟩
        | otherException => exact ⟨congrArg (conn.processed ++ ·) reports.processed, rfl⟩
  | some rest =>
      obtain ⟨returned, inside, same⟩ := reports.goesOn rest left
      obtain ⟨proper, size⟩ := offset_returned handled.offset (inside.trans small)
      rw [returned]
      simp only [ne_eq, proper, not_false_eq_true, ↓reduceIte, true_and]
      refine ⟨congrArg (conn.processed ++ ·) reports.processed, reports.world, ?_⟩
      rw [BlockBuffer.erase_content, content, size, same]

/-- A connection that is closed stays behind the frame that closed it. -/
theorem follows_closed (world : World) (stream recv : Bytes) (conn : Connection World)
    (follows : Follows consumer world stream conn) (shut : conn.isOpen = false) :
    Follows consumer world (stream ++ recv) conn := by
  have never : conn.isOpen = true → False := by
    intro opened
    rw [shut] at opened
    cases opened
  cases left : (drain (frames inputLimit) (visitFrame consumer) world stream).left with
  | none =>
      have same : drain (frames inputLimit) (visitFrame consumer) world (stream ++ recv) =
          drain (frames inputLimit) (visitFrame consumer) world stream := by
        rw [drain_append, resume_stopped _ _ _ _ left]
      constructor
      · rw [same]
        exact follows.processed
      · exact fun opened => (never opened).elim
      · intro _ rest unread
        rw [same, left] at unread
        cases unread
  | some rest =>
      have overlong := follows.closed shut rest left
      obtain ⟨outputs, later⟩ := drain_overlong consumer world stream recv rest left overlong
      constructor
      · rw [outputs]
        exact follows.processed
      · exact fun opened => (never opened).elim
      · intro _ other unread
        rw [later] at unread
        cases unread
        exact overlong_append inputLimit rest recv overlong

theorem follows_onRead (world : World) (stream recv : Bytes) (conn : Connection World)
    (follows : Follows consumer world stream conn) (delivers : Delivers conn recv) :
    Follows consumer world (stream ++ recv) (onRead consumer conn recv) := by
  cases state : conn.isOpen with
  | false =>
      rw [onRead_closed consumer conn recv state]
      exact follows_closed consumer world stream recv conn follows state
  | true =>
      obtain ⟨sameWorld, left⟩ := follows.opened state
      by_cases full : conn._input.prepared.freespace = 0
      · rw [onRead_full consumer conn recv state full]
        have overlong : Overlong inputLimit conn._input.content :=
          full_overlong _ (BlockBuffer.prepared_full conn._input (by decide) full)
            (drain_left _ _ _ _ _ left)
        apply follows_closed consumer world stream recv _ _ rfl
        constructor
        · exact follows.processed
        · intro opened
          cases opened
        · intro _ rest unread
          rw [left] at unread
          cases unread
          exact overlong
      · obtain ⟨received, within⟩ := delivers state full
        obtain ⟨processed, outcome⟩ := onRead_drain consumer conn recv state received within
        rw [sameWorld] at processed outcome
        have whole := drain_append (frames inputLimit) (visitFrame consumer) world stream recv
        rw [resume_some _ _ _ _ _ left] at whole
        constructor
        · rw [processed, whole, follows.processed]
        · intro opened
          rw [whole]
          cases unread : (drain (frames inputLimit) (visitFrame consumer)
              (drain (frames inputLimit) (visitFrame consumer) world stream).world
              (conn._input.content ++ recv)).left with
          | none =>
              rw [unread] at outcome
              rw [outcome] at opened
              cases opened
          | some rest =>
              rw [unread] at outcome
              exact ⟨outcome.2.1, by rw [outcome.2.2]⟩
        · intro closed rest unread
          rw [whole] at unread
          rw [unread] at outcome
          rw [outcome.1] at closed
          cases closed

theorem follows_runAll (world : World) (stream : Bytes) (conn : Connection World)
    (pieces : List Bytes) (follows : Follows consumer world stream conn)
    (delivers : Throughout (receiving consumer) Program.perform Delivers conn pieces) :
    Follows consumer world (stream ++ pieces.flatten)
      (runAll (receiving consumer) Program.perform conn pieces) := by
  induction pieces generalizing stream conn with
  | nil => simpa using follows
  | cons recv pieces ih =>
      obtain ⟨first, later⟩ := delivers
      rw [List.flatten_cons, ← List.append_assoc, runAll_cons]
      exact ih _ _ (follows_onRead consumer world stream recv conn follows first) later

/-- However a stream is cut into pieces, the frames processed are those it is
drained of, and unless one of them stops the connection or does not fit, what is
left in the buffer is the rest of the stream. -/
theorem received_frames (world : World) (pieces : List Bytes)
    (delivers : Throughout (receiving consumer) Program.perform Delivers
      (Connection.fresh world) pieces) :
    (runAll (receiving consumer) Program.perform (Connection.fresh world) pieces).processed =
        (drain (frames inputLimit) (visitFrame consumer) world pieces.flatten).outputs ∧
      ∀ tail, (drain (frames inputLimit) (visitFrame consumer) world pieces.flatten).left =
          some tail → ¬ Overlong inputLimit tail →
        (runAll (receiving consumer) Program.perform
            (Connection.fresh world) pieces).isOpen = true ∧
          (runAll (receiving consumer) Program.perform
            (Connection.fresh world) pieces)._input.content = tail := by
  have follows := follows_runAll consumer world [] (Connection.fresh world) pieces
    (follows_fresh consumer world) delivers
  rw [List.nil_append] at follows
  generalize runAll (receiving consumer) Program.perform (Connection.fresh world) pieces = conn
    at follows ⊢
  refine ⟨follows.processed, ?_⟩
  intro tail left fits
  cases state : conn.isOpen with
  | false => exact absurd (follows.closed state tail left) fits
  | true =>
      have content := (follows.opened state).2
      rw [left] at content
      cases content
      exact ⟨rfl, rfl⟩

end Receive

/-- Counts the requests it gets. -/
def counting : Consumer Nat := ⟨fun _ => ⟨0, 0, 0⟩, fun world _ => (.returned 0, world + 1)⟩

/-- Two frames and the start of a third, cut inside a header and inside a body. -/
def cutStream : List Bytes :=
  [[0, 0, 0, 1, 0, 0], [0, 2, 7], [123, 0, 0, 0, 2, 0, 0, 0, 1, 9, 0], [0, 0]]

theorem received_frames_cutStream :
    Throughout (receiving counting) Program.perform Delivers (Connection.fresh 0) cutStream ∧
      (drain (frames inputLimit) (visitFrame counting) 0 cutStream.flatten).outputs.map
          Processed.frame =
        [[0, 0, 0, 1, 0, 0, 0, 2, 7, 123], [0, 0, 0, 2, 0, 0, 0, 1, 9]] := by
  have delivers : Throughout (receiving counting) Program.perform Delivers
      (Connection.fresh 0) cutStream := by
    refine ⟨fun _ _ => ⟨by decide, ?_⟩, fun _ _ => ⟨by decide, ?_⟩, fun _ _ => ⟨by decide, ?_⟩,
      fun _ _ => ⟨by decide, ?_⟩, trivial⟩
    all_goals decide +kernel
  refine ⟨delivers, ?_⟩
  rw [← (received_frames counting 0 cutStream delivers).1]
  decide +kernel

end FPayNode.FrameDelivery
