import FPayNode.MsgFrames
import Mathlib.Logic.Relation

/-!
Whether the loop of `MsgProtoConsumer::onData` gets anywhere. The length word of
the peer is the step, and nothing is added to it, so that a length of zero is a
step of nothing; only under the binary tag is such a frame too short for
`popHeader`. The consumer of the JSON protocol adds the size of its header.
-/

namespace FPayNode.FrameProgress

open DecimalText ByteStream BlockBuffers UnitStream FrameDelivery MsgFrames
open JsonFrames hiding onDataLoop popHeader
open Relation (ReflTransGen)

/-- The length that a frame gives itself, and its tag. -/
def realLen (data : Bytes) : Nat := (getProtoType (peekUint32 data)).2.toNat

def tag (data : Bytes) : PROTO_T := (getProtoType (peekUint32 data)).1

/-- One round: how the loop is left, or what it goes on with. -/
inductive Round (World : Type) where
  | leaves (ended : Except Exn Int32) (requests : List Request)
  | goesOn (request : Request) (world : World) (fb : ForwardBuf)

section Consume
variable {World : Type} (consumer : MsgConsumer World)

def round (world : World) (fb : ForwardBuf) : Round World :=
  if fb.empty || fb.size < HEADER_SIZE || fb.size < realLen fb.data then
    .leaves (.ok (Int32.ofNat fb.m_pos)) []
  else
    match popHeader (Request.make (consumer.memory world) (fb.data.take (realLen fb.data))
        (tag fb.data)) with
    | .error exn => .leaves (.error exn) []
    | .ok request =>
        match consumer.doRequest world request with
        | (.threw exn, _) => .leaves (.error exn) [request]
        | (.returned ret, after) =>
            if ret = -1 then .leaves (.ok (-1)) [request]
            else .goesOn request after (fb.erase (realLen fb.data))

def GoesOn (before after : World × ForwardBuf) : Prop :=
  ∃ request, round consumer before.1 before.2 = .goesOn request after.1 after.2

/-- Every round leaves the loop or consumes a byte, the loop ends, and it gives
back no offset behind the buffer. -/
structure Progresses (world : World) (fb : ForwardBuf) : Prop where
  advances : ∀ before after, ReflTransGen (GoesOn consumer) (world, fb) before →
    GoesOn consumer before after → before.2.m_pos < after.2.m_pos
  ends : ∃ fuel ended, (onDataLoop consumer fuel world fb).ended = some ended
  inside : ∀ fuel, (onDataLoop consumer fuel world fb).offset ≤ fb.m_data.length ∧
    ∀ ret, (onDataLoop consumer fuel world fb).ended = some (.ok ret) →
      ret.toInt ≤ fb.m_data.length

def visitMsg (world : World) (frame : Bytes) : Visit (Option Request) World :=
  match popHeader (Request.make (consumer.memory world) frame (tag frame)) with
  | .error _ => ⟨none, false, world⟩
  | .ok request =>
      match consumer.doRequest world request with
      | (.threw _, after) => ⟨some request, false, after⟩
      | (.returned ret, after) => ⟨some request, ret ≠ -1, after⟩

/-- A request for a frame of nothing is made and let pass. -/
def Passes (world : World) (proto : PROTO_T) : Prop :=
  ∃ ret, (consumer.doRequest world (Request.make (consumer.memory world) [] proto)).1 =
    .returned ret ∧ ret ≠ -1

end Consume

/-- A length of zero under a tag for which `popHeader` reads nothing. -/
def EmptyFrame (data : Bytes) : Prop :=
  HEADER_SIZE ≤ data.length ∧ realLen data = 0 ∧ tag data ≠ .bin

/-! Frames of some length. -/

theorem peekUint32_append (data more : Bytes) (long : 4 ≤ data.length) :
    peekUint32 (data ++ more) = peekUint32 data := by
  simp only [peekUint32, getD_append data more 0 (by omega), getD_append data more 1 (by omega),
    getD_append data more 2 (by omega), getD_append data more 3 (by omega)]

theorem tag_take (data : Bytes) (size : Nat) (positive : 0 < size) :
    tag (data.take size) = tag data := by
  have top (bytes : Bytes) : (peekUint32 bytes >>> PROTO_MAGIC_SHIFT).toNat =
      (bytes.getD 0 0).toNat / 32 := by
    have shift : PROTO_MAGIC_SHIFT.toNat % 32 = 29 := rfl
    have b1 := (bytes.getD 1 0).toNat_lt
    have b2 := (bytes.getD 2 0).toNat_lt
    have b3 := (bytes.getD 3 0).toNat_lt
    rw [UInt32.toNat_shiftRight, shift, Nat.shiftRight_eq_div_pow, peekUint32, read_word,
      bigEndian]
    omega
  have same : peekUint32 (data.take size) >>> PROTO_MAGIC_SHIFT =
      peekUint32 data >>> PROTO_MAGIC_SHIFT := by
    apply UInt32.toNat_inj.mp
    rw [top, top, getD_take data size 0 positive]
  simp only [tag, getProtoType, same]

def msgFrames : Cutter UInt8 where
  front data :=
    if HEADER_SIZE ≤ data.length ∧ realLen data ≤ data.length ∧ 0 < realLen data then
      some (realLen data)
    else none
  positive data size found := by
    obtain ⟨⟨-, -, positive⟩, same⟩ := Option.ite_none_right_eq_some.mp found
    cases same
    exact positive
  within data size found := by
    obtain ⟨⟨-, within, -⟩, same⟩ := Option.ite_none_right_eq_some.mp found
    cases same
    exact within
  stable data more size found := by
    obtain ⟨⟨header, within, positive⟩, same⟩ := Option.ite_none_right_eq_some.mp found
    have four : 4 ≤ data.length := Nat.le_trans (by decide) header
    have kept : realLen (data ++ more) = realLen data := by
      simp only [realLen, peekUint32_append data more four]
    rw [kept, List.length_append]
    refine Option.ite_none_right_eq_some.mpr ⟨⟨?_, ?_, positive⟩, same⟩
    · omega
    · omega

section Rounds
variable {World : Type} (consumer : MsgConsumer World)

theorem onDataLoop_succ (fuel : Nat) (world : World) (fb : ForwardBuf) :
    onDataLoop consumer (fuel + 1) world fb =
      if fb.empty || fb.size < HEADER_SIZE || fb.size < realLen fb.data then
        ⟨some (.ok (Int32.ofNat fb.m_pos)), fb.m_pos, []⟩
      else
        match popHeader (Request.make (consumer.memory world) (fb.data.take (realLen fb.data))
            (tag fb.data)) with
        | .error exn => ⟨some (.error exn), fb.m_pos, []⟩
        | .ok request =>
            match consumer.doRequest world request with
            | (.threw exn, _) => ⟨some (.error exn), fb.m_pos, [request]⟩
            | (.returned ret, after) =>
                if ret = -1 then ⟨some (.ok (-1)), fb.m_pos, [request]⟩
                else
                  let rest := onDataLoop consumer fuel after (fb.erase (realLen fb.data))
                  { rest with requests := request :: rest.requests } := rfl

theorem onDataLoop_round (fuel : Nat) (world : World) (fb : ForwardBuf) :
    onDataLoop consumer (fuel + 1) world fb =
      match round consumer world fb with
      | .leaves ended requests => ⟨some ended, fb.m_pos, requests⟩
      | .goesOn request after rest =>
          { onDataLoop consumer fuel after rest with
            requests := request :: (onDataLoop consumer fuel after rest).requests } := by
  rw [onDataLoop_succ, round]
  by_cases breaks : (fb.empty || fb.size < HEADER_SIZE || fb.size < realLen fb.data) = true
  · rw [if_pos breaks, if_pos breaks]
  · rw [if_neg breaks, if_neg breaks]
    cases popHeader (Request.make (consumer.memory world) (fb.data.take (realLen fb.data))
        (tag fb.data)) with
    | error exn => rfl
    | ok request =>
        dsimp only
        rcases consumer.doRequest world request with ⟨verdict, after⟩
        cases verdict with
        | threw exn => rfl
        | returned ret =>
            by_cases stops : ret = -1
            · simp only [stops, ↓reduceIte]
            · simp only [stops, ↓reduceIte]

theorem popHeader_other (memory : SenderObjects.HeaderMemory) (data : Bytes) (proto : PROTO_T)
    (other : proto ≠ .bin) :
    popHeader (Request.make memory data proto) = .ok (Request.make memory data proto) := by
  cases proto with
  | bin => exact absurd rfl other
  | _ => rfl

theorem round_breaks (world : World) (fb : ForwardBuf)
    (short : ¬ (HEADER_SIZE ≤ fb.data.length ∧ realLen fb.data ≤ fb.data.length)) :
    round consumer world fb = .leaves (.ok (Int32.ofNat fb.m_pos)) [] := by
  have length : fb.data.length = fb.size := List.length_drop
  have there : (fb.empty || fb.size < HEADER_SIZE || fb.size < realLen fb.data) = true := by
    simp only [Bool.or_eq_true, decide_eq_true_eq]
    rw [length] at short
    omega
  rw [round, if_pos there]

theorem round_frame (world : World) (fb : ForwardBuf) (header : HEADER_SIZE ≤ fb.data.length)
    (within : realLen fb.data ≤ fb.data.length) :
    round consumer world fb =
      match popHeader (Request.make (consumer.memory world) (fb.data.take (realLen fb.data))
          (tag fb.data)) with
      | .error exn => .leaves (.error exn) []
      | .ok request =>
          match consumer.doRequest world request with
          | (.threw exn, _) => .leaves (.error exn) [request]
          | (.returned ret, after) =>
              if ret = -1 then .leaves (.ok (-1)) [request]
              else .goesOn request after (fb.erase (realLen fb.data)) := by
  have length : fb.data.length = fb.size := List.length_drop
  have nine : HEADER_SIZE = 9 := rfl
  have there : ¬ (fb.empty || fb.size < HEADER_SIZE || fb.size < realLen fb.data) = true := by
    simp only [ForwardBuf.empty, Bool.or_eq_true, decide_eq_true_eq]
    rw [length] at header within
    simp only [ForwardBuf.size] at header within ⊢
    omega
  rw [round, if_neg there]

theorem round_visit (world : World) (fb : ForwardBuf) (size : Nat)
    (found : msgFrames.front fb.data = some size) :
    ((visitMsg consumer world (fb.data.take size)).goesOn = true ∧
      ∃ request, round consumer world fb = .goesOn request
        (visitMsg consumer world (fb.data.take size)).world (fb.erase size)) ∨
    ((visitMsg consumer world (fb.data.take size)).goesOn = false ∧
      ∃ ended requests, round consumer world fb = .leaves ended requests) := by
  obtain ⟨⟨header, within, positive⟩, same⟩ := Option.ite_none_right_eq_some.mp found
  cases same
  rw [round_frame consumer world fb header within]
  simp only [visitMsg, tag_take fb.data _ positive]
  cases popHeader (Request.make (consumer.memory world) (fb.data.take (realLen fb.data))
      (tag fb.data)) with
  | error exn => exact .inr ⟨rfl, _, _, rfl⟩
  | ok request =>
      dsimp only
      rcases consumer.doRequest world request with ⟨verdict, after⟩
      cases verdict with
      | threw exn => exact .inr ⟨rfl, _, _, rfl⟩
      | returned ret =>
          by_cases stops : ret = -1
          · simp only [stops, ↓reduceIte]
            exact .inr ⟨rfl, _, _, rfl⟩
          · simp only [stops, ↓reduceIte]
            exact .inl ⟨decide_eq_true stops, _, rfl⟩

/-- Where no frame of some length is whole, the loop goes on only over a frame
of nothing. -/
theorem round_rest (world : World) (fb : ForwardBuf) (absent : msgFrames.front fb.data = none) :
    (EmptyFrame fb.data ∧ Passes consumer world (tag fb.data) ∧
      ∃ request after, round consumer world fb = .goesOn request after (fb.erase 0)) ∨
    (¬ (EmptyFrame fb.data ∧ Passes consumer world (tag fb.data)) ∧
      ∃ ended requests, round consumer world fb = .leaves ended requests) := by
  have short : ¬ (HEADER_SIZE ≤ fb.data.length ∧ realLen fb.data ≤ fb.data.length ∧
      0 < realLen fb.data) := fun whole =>
    absurd absent (by simp only [msgFrames, if_pos whole]; exact Option.some_ne_none _)
  by_cases there : HEADER_SIZE ≤ fb.data.length ∧ realLen fb.data ≤ fb.data.length
  · obtain ⟨header, within⟩ := there
    have zero : realLen fb.data = 0 :=
      Nat.eq_zero_of_not_pos fun positive => short ⟨header, within, positive⟩
    rw [round_frame consumer world fb header within, zero, List.take_zero]
    by_cases bin : tag fb.data = .bin
    · refine .inr ⟨fun passes => passes.1.2.2 bin, ?_⟩
      rw [bin]
      exact ⟨_, _, rfl⟩
    · rw [popHeader_other _ _ _ bin]
      dsimp only
      cases answered : consumer.doRequest world
          (Request.make (consumer.memory world) [] (tag fb.data)) with
      | mk verdict after =>
          cases verdict with
          | threw exn =>
              refine .inr ⟨?_, _, _, rfl⟩
              rintro ⟨-, ret, returned, -⟩
              rw [answered] at returned
              cases returned
          | returned ret =>
              by_cases stops : ret = -1
              · simp only [stops, ↓reduceIte]
                refine .inr ⟨?_, _, _, rfl⟩
                rintro ⟨-, other, returned, passes⟩
                rw [answered] at returned
                cases returned
                exact passes stops
              · simp only [stops, ↓reduceIte]
                exact .inl ⟨⟨header, zero, bin⟩, ⟨ret, by rw [answered], stops⟩, _, _, rfl⟩
  · refine .inr ⟨fun passes => ?_, _, _, round_breaks consumer world fb there⟩
    obtain ⟨⟨header, zero, -⟩, -⟩ := passes
    exact there ⟨header, zero ▸ Nat.zero_le _⟩

/-! A whole run. -/

theorem offset_inside (offset : Nat) (size : Nat) (inside : offset ≤ size) :
    (Int32.ofNat offset).toInt ≤ size := by
  have wrapped : (offset : Int).bmod Int32.size ≤ (offset : Int) := by
    rw [Int.bmod_def, Int32.size]
    split
    · omega
    · omega
  rw [Int32.toInt_ofNat']
  omega

theorem round_offset (world : World) (fb : ForwardBuf) (inside : fb.m_pos ≤ fb.m_data.length)
    (ret : Int32) (requests : List Request)
    (left : round consumer world fb = .leaves (.ok ret) requests) :
    ret.toInt ≤ fb.m_data.length := by
  rw [round] at left
  split at left
  · cases left
    exact offset_inside fb.m_pos fb.m_data.length inside
  · split at left
    · cases left
    · split at left
      · cases left
      · split at left
        · cases left
          have minusOne : (-1 : Int32).toInt = -1 := rfl
          omega
        · cases left

theorem onDataLoop_zero_inside (world : World) (fb : ForwardBuf)
    (inside : fb.m_pos ≤ fb.m_data.length) :
    (onDataLoop consumer 0 world fb).offset ≤ fb.m_data.length ∧
      ∀ ret, (onDataLoop consumer 0 world fb).ended = some (.ok ret) →
        ret.toInt ≤ fb.m_data.length := by
  refine ⟨inside, fun ret running => ?_⟩
  cases running

theorem progresses_leaves (world : World) (fb : ForwardBuf) (inside : fb.m_pos ≤ fb.m_data.length)
    (ended : Except Exn Int32) (requests : List Request)
    (left : round consumer world fb = .leaves ended requests) :
    Progresses consumer world fb := by
  have stays (other : World × ForwardBuf) : ¬ GoesOn consumer (world, fb) other := by
    rintro ⟨request, goesOn⟩
    rw [left] at goesOn
    cases goesOn
  constructor
  · intro before after reached goesOn
    rcases reached.cases_head with same | ⟨first, goes, -⟩
    · exact absurd goesOn (same ▸ stays after)
    · exact absurd goes (stays first)
  · exact ⟨1, ended, by rw [onDataLoop_round, left]⟩
  · intro fuel
    cases fuel with
    | zero => exact onDataLoop_zero_inside consumer world fb inside
    | succ fuel =>
        rw [onDataLoop_round, left]
        refine ⟨inside, fun ret same => ?_⟩
        cases same
        exact round_offset consumer world fb inside ret requests left

/-- One round that consumes something, and the rest of the run. -/
theorem progresses_goesOn (world after : World) (fb rest : ForwardBuf) (request : Request)
    (goesOn : round consumer world fb = .goesOn request after rest)
    (same : rest.m_data = fb.m_data) (inside : fb.m_pos ≤ fb.m_data.length)
    (advances : fb.m_pos < rest.m_pos) :
    Progresses consumer world fb ↔ Progresses consumer after rest := by
  have step (fuel : Nat) := onDataLoop_round consumer fuel world fb
  simp only [goesOn] at step
  have first : GoesOn consumer (world, fb) (after, rest) := ⟨request, goesOn⟩
  constructor
  · intro progresses
    constructor
    · exact fun before later reached => progresses.advances before later (reached.head first)
    · obtain ⟨fuel, ended, ends⟩ := progresses.ends
      cases fuel with
      | zero => cases ends
      | succ fuel =>
          rw [step] at ends
          exact ⟨fuel, ended, ends⟩
    · intro fuel
      have there := progresses.inside (fuel + 1)
      rw [step, ← same] at there
      exact there
  · intro progresses
    constructor
    · intro before later reached goes
      rcases reached.cases_head with start | ⟨next, goes', reached⟩
      · cases start
        obtain ⟨other, goes⟩ := goes
        rw [goesOn] at goes
        cases goes
        exact advances
      · obtain ⟨other, goes'⟩ := goes'
        rw [goesOn] at goes'
        cases goes'
        exact progresses.advances before later reached goes
    · obtain ⟨fuel, ended, ends⟩ := progresses.ends
      exact ⟨fuel + 1, ended, by rw [step, ends]⟩
    · intro fuel
      cases fuel with
      | zero => exact onDataLoop_zero_inside consumer world fb inside
      | succ fuel =>
          rw [step, ← same]
          exact progresses.inside fuel

/-- What is left when the frames of some length are taken off the front, each as
it is handled, does not start with a frame of nothing that is let pass. -/
def NoEmptyFrame (world : World) (data : Bytes) : Prop :=
  ∀ rest, (drain msgFrames (visitMsg consumer) world data).left = some rest →
    EmptyFrame rest →
    ¬ Passes consumer (drain msgFrames (visitMsg consumer) world data).world (tag rest)

theorem progresses_iff (world : World) (fb : ForwardBuf)
    (inside : fb.m_pos ≤ fb.m_data.length) :
    Progresses consumer world fb ↔ NoEmptyFrame consumer world fb.data := by
  induction length : fb.data.length using Nat.strongRecOn generalizing world fb with
  | _ n ih =>
      cases found : msgFrames.front fb.data with
      | none =>
          have unread := drain_none msgFrames (visitMsg consumer) world fb.data found
          rcases round_rest consumer world fb found with
            ⟨empty, passes, request, after, goesOn⟩ | ⟨stopped, ended, requests, left⟩
          · refine iff_of_false ?_ ?_
            · intro progresses
              exact Nat.lt_irrefl _
                (progresses.advances (world, fb) (after, fb.erase 0) .refl ⟨request, goesOn⟩)
            · intro noEmpty
              refine noEmpty fb.data (by rw [unread]) empty ?_
              rw [unread]
              exact passes
          · refine iff_of_true (progresses_leaves consumer world fb inside ended requests left) ?_
            intro rest same empty passes
            rw [unread] at same passes
            cases same
            exact stopped ⟨empty, passes⟩
      | some size =>
          have positive := msgFrames.positive fb.data size found
          have within := msgFrames.within fb.data size found
          have drained := drain_some msgFrames (visitMsg consumer) world fb.data size found
          have pos : fb.data.length = fb.m_data.length - fb.m_pos := List.length_drop
          rcases round_visit consumer world fb size found with
            ⟨goes, request, goesOn⟩ | ⟨stops, ended, requests, left⟩
          · have data : (fb.erase size).data = fb.data.drop size := by
              simp only [ForwardBuf.data, ForwardBuf.erase, List.drop_drop]
            rw [progresses_goesOn consumer world _ fb (fb.erase size) request goesOn rfl inside
              (Nat.lt_add_of_pos_right positive)]
            have shorter : (fb.erase size).data.length < n := by
              rw [data, ← length]
              exact msgFrames.drop_shorter fb.data size found
            rw [ih _ shorter _ _ (show fb.m_pos + size ≤ fb.m_data.length by omega) rfl, data]
            simp only [NoEmptyFrame, drained, goes, ↓reduceIte]
          · refine iff_of_true (progresses_leaves consumer world fb inside ended requests left) ?_
            intro rest same
            rw [drained, stops] at same
            cases same

theorem onData_progresses_iff (world : World) (data : Bytes) :
    Progresses consumer world ⟨data, 0⟩ ↔ NoEmptyFrame consumer world data :=
  progresses_iff consumer world ⟨data, 0⟩ (Nat.zero_le _)

end Rounds

/-- Nine zero bytes, which `accepting` lets pass for ever. -/
theorem zero_frame_spins :
    ¬ Progresses accepting () ⟨List.replicate 9 0, 0⟩ ∧
      ∀ fuel, (onDataLoop accepting fuel () ⟨List.replicate 9 0, 0⟩).ended = none := by
  have same : round accepting () ⟨List.replicate 9 0, 0⟩ =
      .goesOn (Request.make ⟨0, 0, 0, 0⟩ [] .json) () ⟨List.replicate 9 0, 0⟩ := rfl
  constructor
  · intro progresses
    exact Nat.lt_irrefl _ (progresses.advances _ _ .refl ⟨_, same⟩)
  · intro fuel
    induction fuel with
    | zero => rfl
    | succ fuel ih =>
        rw [onDataLoop_round, same]
        exact ih

end FPayNode.FrameProgress
