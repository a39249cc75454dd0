import FPayNode.WorkerPool

/-!
A section that one worker at a time is to be in, and a token that is taken while
one is. Moving one worker keeps both when it enters only past a free token and
frees the token only if nobody else is inside.
-/

namespace FPayNode.Exclusion

open WorkerPool

variable {Worker Phase : Type} (inside : Phase → Bool)

def Within (phase : Option Phase) : Prop := ∃ found, phase = some found ∧ inside found = true

/-- At most one worker is inside, and the token is taken while one is. -/
structure Exclusive (taken : Prop) (phases : Worker → Option Phase) : Prop where
  alone : ∀ first second, Within inside (phases first) → Within inside (phases second) →
    first = second
  held : ∀ worker, Within inside (phases worker) → taken

/-- The token is not taken without somebody inside. -/
def Attended (taken : Prop) (phases : Worker → Option Phase) : Prop :=
  taken → ∃ worker, Within inside (phases worker)

theorem not_within_none : ¬ Within inside none := by
  rintro ⟨phase, lookup, -⟩
  cases lookup

theorem within_some (phase : Phase) : Within inside (some phase) ↔ inside phase = true := by
  simp [Within]

theorem exclusive_idle (taken : Prop) : Exclusive inside taken fun _ : Worker => none :=
  ⟨fun _ _ within => absurd within (not_within_none inside),
    fun _ within => absurd within (not_within_none inside)⟩

section Move
variable [DecidableEq Worker] {inside}

/-- After one worker has moved, who is inside is that worker or was there before. -/
theorem within_update (phases : Worker → Option Phase) (worker other : Worker)
    (next : Option Phase) (within : Within inside (Function.update phases worker next other)) :
    other = worker ∧ Within inside next ∨ other ≠ worker ∧ Within inside (phases other) := by
  by_cases same : other = worker
  · subst other
    rw [Function.update_self] at within
    exact .inl ⟨rfl, within⟩
  · rw [Function.update_of_ne same] at within
    exact .inr ⟨same, within⟩

theorem exclusive_move {before after : Prop} {phases : Worker → Option Phase} (worker : Worker)
    (next : Option Phase) (exclusive : Exclusive inside before phases)
    (entering : Within inside next → Within inside (phases worker) ∨ ¬ before)
    (taking : Within inside next → after)
    (keeping : (∃ other, other ≠ worker ∧ Within inside (phases other)) → before → after) :
    Exclusive inside after (Function.update phases worker next) := by
  -- With another worker inside the token is taken, so this one does not enter.
  have solitary : ∀ other, other ≠ worker → Within inside (phases other) →
      ¬ Within inside next := by
    intro other different within enters
    rcases entering enters with mine | free
    · exact different (exclusive.alone other worker within mine)
    · exact free (exclusive.held other within)
  constructor
  · intro first second firstWithin secondWithin
    rcases within_update phases worker first next firstWithin with
      ⟨firstSame, enters⟩ | ⟨firstOther, firstBefore⟩
    · rcases within_update phases worker second next secondWithin with
        ⟨secondSame, -⟩ | ⟨secondOther, secondBefore⟩
      · rw [firstSame, secondSame]
      · exact absurd enters (solitary second secondOther secondBefore)
    · rcases within_update phases worker second next secondWithin with
        ⟨-, enters⟩ | ⟨-, secondBefore⟩
      · exact absurd enters (solitary first firstOther firstBefore)
      · exact exclusive.alone first second firstBefore secondBefore
  · intro other within
    rcases within_update phases worker other next within with ⟨-, enters⟩ | ⟨different, was⟩
    · exact taking enters
    · exact keeping ⟨other, different, was⟩ (exclusive.held other was)

theorem attended_move {before after : Prop} {phases : Worker → Option Phase} (worker : Worker)
    (next : Option Phase) (attended : Attended inside before phases)
    (moved : after → Within inside next ∨ before ∧ ¬ Within inside (phases worker)) :
    Attended inside after (Function.update phases worker next) := by
  intro taken
  rcases moved taken with enters | ⟨was, outside⟩
  · exact ⟨worker, by rwa [Function.update_self]⟩
  · obtain ⟨other, within⟩ := attended was
    have different : other ≠ worker := by
      intro same
      subst same
      exact outside within
    exact ⟨other, by rwa [Function.update_of_ne different]⟩

end Move
end FPayNode.Exclusion
