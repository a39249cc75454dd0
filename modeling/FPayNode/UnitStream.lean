import Mathlib.Data.List.Basic
import Mathlib.Tactic.Common

/-!
Streams that are read unit by unit. A cutter gives the size of the unit at the
front of a buffer as soon as it is all there, and does not change its mind when
more arrives. A visitor handles the units in order and may stop the stream. What
is visited, and what is left over, does not depend on how the stream was split
into the pieces it arrived in.
-/

namespace FPayNode.UnitStream

variable {Symbol Output World : Type}

structure Cutter (Symbol : Type) where
  front : List Symbol → Option Nat
  positive : ∀ buffer size, front buffer = some size → 0 < size
  within : ∀ buffer size, front buffer = some size → size ≤ buffer.length
  stable : ∀ buffer more size, front buffer = some size → front (buffer ++ more) = some size

theorem Cutter.drop_shorter (cutter : Cutter Symbol) (buffer : List Symbol) (size : Nat)
    (found : cutter.front buffer = some size) : (buffer.drop size).length < buffer.length := by
  have positive := cutter.positive buffer size found
  have within := cutter.within buffer size found
  rw [List.length_drop]
  omega

/-- What handling one unit gives, and whether the stream goes on. -/
structure Visit (Output World : Type) where
  output : Output
  goesOn : Bool
  world : World

/-- `left` is the unread rest; none when a unit has stopped the stream. -/
structure Drained (Symbol Output World : Type) where
  outputs : List Output
  world : World
  left : Option (List Symbol)

variable (cutter : Cutter Symbol) (visit : World → List Symbol → Visit Output World)

def drain (world : World) (buffer : List Symbol) : Drained Symbol Output World :=
  match _found : cutter.front buffer with
  | none => ⟨[], world, some buffer⟩
  | some size =>
      let seen := visit world (buffer.take size)
      if seen.goesOn then
        let rest := drain seen.world (buffer.drop size)
        ⟨seen.output :: rest.outputs, rest.world, rest.left⟩
      else ⟨[seen.output], seen.world, none⟩
termination_by buffer.length
decreasing_by
  exact cutter.drop_shorter buffer size _found

theorem drain_none (world : World) (buffer : List Symbol) (absent : cutter.front buffer = none) :
    drain cutter visit world buffer = ⟨[], world, some buffer⟩ := by
  rw [drain]
  split
  · rfl
  · next size found =>
      rw [absent] at found
      cases found

theorem drain_some (world : World) (buffer : List Symbol) (size : Nat)
    (found : cutter.front buffer = some size) :
    drain cutter visit world buffer =
      if (visit world (buffer.take size)).goesOn then
        ⟨(visit world (buffer.take size)).output ::
            (drain cutter visit (visit world (buffer.take size)).world
              (buffer.drop size)).outputs,
          (drain cutter visit (visit world (buffer.take size)).world (buffer.drop size)).world,
          (drain cutter visit (visit world (buffer.take size)).world (buffer.drop size)).left⟩
      else ⟨[(visit world (buffer.take size)).output], (visit world (buffer.take size)).world,
        none⟩ := by
  rw [drain]
  split
  · next absent =>
      rw [found] at absent
      cases absent
  · next other same =>
      rw [found] at same
      cases same
      rfl

/-- Draining goes on where it was, when more arrives. -/
def resume (first : Drained Symbol Output World) (more : List Symbol) :
    Drained Symbol Output World :=
  match first.left with
  | none => first
  | some rest =>
      let later := drain cutter visit first.world (rest ++ more)
      ⟨first.outputs ++ later.outputs, later.world, later.left⟩

theorem resume_stopped (first : Drained Symbol Output World) (more : List Symbol)
    (stopped : first.left = none) : resume cutter visit first more = first := by
  simp only [resume, stopped]

theorem resume_some (first : Drained Symbol Output World) (more rest : List Symbol)
    (unread : first.left = some rest) :
    resume cutter visit first more =
      ⟨first.outputs ++ (drain cutter visit first.world (rest ++ more)).outputs,
        (drain cutter visit first.world (rest ++ more)).world,
        (drain cutter visit first.world (rest ++ more)).left⟩ := by
  simp only [resume, unread]

theorem drain_append (world : World) (buffer more : List Symbol) :
    drain cutter visit world (buffer ++ more) =
      resume cutter visit (drain cutter visit world buffer) more := by
  induction length : buffer.length using Nat.strongRecOn generalizing world buffer with
  | _ n ih =>
      cases found : cutter.front buffer with
      | none =>
          rw [drain_none cutter visit world buffer found, resume_some _ _ _ _ buffer rfl]
          rfl
      | some size =>
          have within := cutter.within buffer size found
          have shorter := length ▸ cutter.drop_shorter buffer size found
          rw [drain_some cutter visit world buffer size found,
            drain_some cutter visit world _ size (cutter.stable buffer more size found),
            List.take_append_of_le_length within, List.drop_append_of_le_length within]
          cases (visit world (buffer.take size)).goesOn with
          | false => rfl
          | true =>
              simp only [↓reduceIte]
              rw [ih _ shorter _ _ rfl]
              cases unread : (drain cutter visit (visit world (buffer.take size)).world
                  (buffer.drop size)).left with
              | none => simp only [resume, unread]
              | some rest => simp only [resume, unread, List.cons_append]

/-- What is left over holds no whole unit. -/
theorem drain_left (world : World) (buffer rest : List Symbol)
    (unread : (drain cutter visit world buffer).left = some rest) : cutter.front rest = none := by
  induction length : buffer.length using Nat.strongRecOn generalizing world buffer with
  | _ n ih =>
      cases found : cutter.front buffer with
      | none =>
          rw [drain_none cutter visit world buffer found] at unread
          cases unread
          exact found
      | some size =>
          have shorter := length ▸ cutter.drop_shorter buffer size found
          rw [drain_some cutter visit world buffer size found] at unread
          cases goesOn : (visit world (buffer.take size)).goesOn with
          | false =>
              rw [goesOn] at unread
              cases unread
          | true =>
              rw [goesOn] at unread
              exact ih _ shorter _ _ unread rfl

/-- Every output comes from visiting a unit. -/
theorem drain_outputs (world : World) (buffer : List Symbol) (output : Output)
    (member : output ∈ (drain cutter visit world buffer).outputs) :
    ∃ world rest size, cutter.front rest = some size ∧
      output = (visit world (rest.take size)).output := by
  induction length : buffer.length using Nat.strongRecOn generalizing world buffer with
  | _ n ih =>
      cases found : cutter.front buffer with
      | none =>
          rw [drain_none cutter visit world buffer found] at member
          cases member
      | some size =>
          have shorter := length ▸ cutter.drop_shorter buffer size found
          rw [drain_some cutter visit world buffer size found] at member
          split at member
          · rcases List.mem_cons.mp member with first | later
            · exact ⟨world, buffer, size, found, first⟩
            · exact ih _ shorter _ _ later rfl
          · exact ⟨world, buffer, size, found, List.mem_singleton.mp member⟩

/-- Units handed to the visitor one after another. -/
def visitAll : World → List (List Symbol) → Drained Symbol Output World
  | world, [] => ⟨[], world, some []⟩
  | world, first :: units =>
      let seen := visit world first
      if seen.goesOn then
        let rest := visitAll seen.world units
        ⟨seen.output :: rest.outputs, rest.world, rest.left⟩
      else ⟨[seen.output], seen.world, none⟩

theorem visitAll_left (world : World) (units : List (List Symbol)) (rest : List Symbol)
    (left : (visitAll visit world units).left = some rest) : rest = [] := by
  induction units generalizing world with
  | nil =>
      cases left
      rfl
  | cons first units ih =>
      simp only [visitAll] at left
      split at left
      · exact ih _ left
      · cases left

theorem front_nil : cutter.front [] = none := by
  cases found : cutter.front [] with
  | none => rfl
  | some size =>
      have positive := cutter.positive [] size found
      have within := cutter.within [] size found
      exact absurd within (Nat.not_le.mpr positive)

/-- A stream of whole units is drained of all of them. -/
theorem drain_units (world : World) (units : List (List Symbol))
    (cut : ∀ piece ∈ units, ∀ more, cutter.front (piece ++ more) = some piece.length) :
    drain cutter visit world units.flatten = visitAll visit world units := by
  induction units generalizing world with
  | nil => exact drain_none cutter visit world [] (front_nil cutter)
  | cons first units ih =>
      have later := fun world => ih world fun piece member =>
        cut piece (List.mem_cons_of_mem first member)
      rw [List.flatten_cons,
        drain_some cutter visit world _ _ (cut first List.mem_cons_self units.flatten),
        List.take_left, List.drop_left, later]
      rfl

/-- Where more would leave no unit at the front, there is none yet. -/
theorem Cutter.none_before (buffer more : List Symbol)
    (absent : cutter.front (buffer ++ more) = none) : cutter.front buffer = none := by
  cases found : cutter.front buffer with
  | none => rfl
  | some size =>
      rw [cutter.stable buffer more size found] at absent
      cases absent

/-- A stream of units, some of which are never cut off, that breaks off anywhere:
it is drained of the units that are all there, up to the first that is not cut
off; unless one of them stops it, what is left is what comes behind them. -/
theorem drain_prefix (world : World) (units : List (List Symbol)) (buffer more : List Symbol)
    (stream : buffer ++ more = units.flatten)
    (cut : ∀ piece ∈ units, (∀ more, cutter.front (piece ++ more) = some piece.length) ∨
      ∀ more, cutter.front (piece ++ more) = none) :
    ∃ k tail, buffer = (units.take k).flatten ++ tail ∧ cutter.front tail = none ∧
      (∀ piece ∈ units.take k, ∀ more, cutter.front (piece ++ more) = some piece.length) ∧
      drain cutter visit world buffer =
        { visitAll visit world (units.take k) with
          left := (visitAll visit world (units.take k)).left.map fun _ => tail } := by
  have nothing : ∀ (world : World) (buffer : List Symbol) (units : List (List Symbol)),
      cutter.front buffer = none →
      ∃ k tail, buffer = (units.take k).flatten ++ tail ∧ cutter.front tail = none ∧
        (∀ piece ∈ units.take k, ∀ more, cutter.front (piece ++ more) = some piece.length) ∧
        drain cutter visit world buffer =
          { visitAll visit world (units.take k) with
            left := (visitAll visit world (units.take k)).left.map fun _ => tail } :=
    fun world buffer units absent => ⟨0, buffer, rfl, absent,
      fun _ member => absurd member List.not_mem_nil, drain_none cutter visit world buffer absent⟩
  induction units generalizing world buffer with
  | nil =>
      obtain ⟨rfl, -⟩ := List.append_eq_nil_iff.mp stream
      exact nothing world [] [] (front_nil cutter)
  | cons first units ih =>
      rw [List.flatten_cons] at stream
      rcases cut first List.mem_cons_self with front | stuck
      · by_cases whole : first.length ≤ buffer.length
        · obtain ⟨rest, rfl⟩ : first <+: buffer :=
            List.prefix_of_prefix_length_le ⟨_, rfl⟩ ⟨_, stream⟩ whole
          rw [List.append_assoc, List.append_cancel_left_eq] at stream
          obtain ⟨k, tail, parts, none, proper, drained⟩ := ih (visit world first).world rest stream
            fun piece member => cut piece (List.mem_cons_of_mem first member)
          refine ⟨k + 1, tail, ?_, none, ?_, ?_⟩
          · rw [List.take_succ_cons, List.flatten_cons, parts, List.append_assoc]
          · rw [List.take_succ_cons]
            exact List.forall_mem_cons.mpr ⟨front, proper⟩
          · rw [drain_some cutter visit world _ _ (front rest), List.take_left, List.drop_left,
              drained, List.take_succ_cons, visitAll]
            split <;> rfl
        · apply nothing
          -- What is at the front stays at the front when the rest arrives.
          cases found : cutter.front buffer with
          | none => rfl
          | some size =>
              have within := cutter.within buffer size found
              have same := cutter.stable buffer more size found
              rw [stream, front] at same
              cases same
              exact absurd within whole
      · exact nothing world buffer _ (cutter.none_before buffer more (stream ▸ stuck _))

end FPayNode.UnitStream
