import Mathlib.Data.Finset.Card
import Mathlib.Data.List.Chain
import Mathlib.Logic.Relation
import Mathlib.Tactic.Common

/-!
Records that name their successor. A walk reads one record after another and
ends at the first key that is not read; on records that name each other in a
circle there is none.
-/

namespace FPayNode.LinkedRecords

variable {Key Record : Type}

inductive Walk (read : Key → Option Record) (next : Record → Key) : Key → List Record → Prop where
  | stop {key : Key} : read key = none → Walk read next key []
  | step {key : Key} {record : Record} {rest : List Record} : read key = some record →
      Walk read next (next record) rest → Walk read next key (record :: rest)

theorem Walk.unique (read : Key → Option Record) (next : Record → Key) (key : Key)
    (first second : List Record) (walked : Walk read next key first)
    (again : Walk read next key second) : first = second := by
  induction walked generalizing second with
  | stop absent =>
      cases again with
      | stop _ => rfl
      | step found _ =>
          rw [absent] at found
          cases found
  | step found _ ih =>
      cases again with
      | stop absent =>
          rw [absent] at found
          cases found
      | step again walk =>
          rw [found] at again
          cases again
          rw [ih _ walk]

/-! Keys that name each other. -/

section Links
variable (read : Key → Option Record) (next : Record → Key)

def Link (key other : Key) : Prop := ∃ record, read key = some record ∧ next record = other

/-- None of the keys met from the key is met again. -/
def Acyclic (key : Key) : Prop :=
  ∀ other, Relation.ReflTransGen (Link read next) key other →
    ¬ Relation.TransGen (Link read next) other other

variable {read next}

theorem Acyclic.follow {key : Key} {record : Record} (acyclic : Acyclic read next key)
    (found : read key = some record) : Acyclic read next (next record) :=
  fun other reached => acyclic other (.head ⟨record, found, rfl⟩ reached)

/-- Among finitely many records a walk without a circle comes to an end. -/
theorem Acyclic.exists_walk [DecidableEq Key] (stored : Finset Key) (key : Key)
    (acyclic : Acyclic read next key)
    (covers : ∀ other, Relation.ReflTransGen (Link read next) key other → read other ≠ none →
      other ∈ stored) : ∃ records, Walk read next key records := by
  -- Each step takes one key from those that are left.
  induction left : stored.card generalizing stored key with
  | zero =>
      refine ⟨[], .stop ?_⟩
      by_contra present
      have member := covers key .refl present
      rw [Finset.card_eq_zero.mp left] at member
      exact Finset.notMem_empty key member
  | succ count ih =>
      cases found : read key with
      | none => exact ⟨[], .stop found⟩
      | some record =>
          have member : key ∈ stored := covers key .refl (by simp [found])
          have link : Link read next key (next record) := ⟨record, found, rfl⟩
          obtain ⟨records, walk⟩ := ih (stored.erase key) (next record) (acyclic.follow found)
            (fun other reached present => Finset.mem_erase.mpr
              ⟨fun same => acyclic key .refl (Relation.TransGen.head' link (same ▸ reached)),
                covers other (.head link reached) present⟩)
            (by rw [Finset.card_erase_of_mem member, left, Nat.add_sub_cancel])
          exact ⟨record :: records, .step found walk⟩

/-- Behind a record the walk goes on as a walk of its own. -/
theorem Walk.behind {key : Key} (before : List Record) {record : Record} {rest : List Record}
    (walk : Walk read next key (before ++ record :: rest)) :
    (∃ other, read other = some record) ∧ Walk read next (next record) rest := by
  induction before generalizing key with
  | nil =>
      cases walk with
      | step found tail => exact ⟨⟨key, found⟩, tail⟩
  | cons first before ih =>
      cases walk with
      | step _ tail => exact ih tail

theorem Walk.nodup {key : Key} {records : List Record} (walk : Walk read next key records) :
    records.Nodup := by
  induction walk with
  | stop _ => exact List.nodup_nil
  | @step key record rest found tail ih =>
      refine List.nodup_cons.mpr ⟨fun again => ?_, ih⟩
      -- Met again, the record would have two walks behind it.
      obtain ⟨before, behind, rfl⟩ := List.append_of_mem again
      have same := Walk.unique read next _ _ _ tail tail.behind.2
      have length := congrArg List.length same
      simp only [List.length_append, List.length_cons] at length
      omega

theorem Walk.link {key other : Key} {records : List Record} (walk : Walk read next key records)
    (link : Link read next key other) :
    ∃ rest, Walk read next other rest ∧ rest.length < records.length := by
  obtain ⟨record, found, rfl⟩ := link
  cases walk with
  | stop absent =>
      rw [absent] at found
      cases found
  | @step _ same rest here tail =>
      rw [here] at found
      cases found
      exact ⟨rest, tail, Nat.lt_succ_self _⟩

theorem Walk.reaches {key other : Key} {records : List Record} (walk : Walk read next key records)
    (reached : Relation.ReflTransGen (Link read next) key other) :
    ∃ rest, Walk read next other rest ∧ rest.length ≤ records.length := by
  induction reached with
  | refl => exact ⟨records, walk, le_rfl⟩
  | tail _ link ih =>
      obtain ⟨middle, onward, shorter⟩ := ih
      obtain ⟨rest, walk, less⟩ := onward.link link
      exact ⟨rest, walk, by omega⟩

/-- A walk that ends met no circle. -/
theorem Walk.acyclic {key : Key} {records : List Record} (walk : Walk read next key records) :
    Acyclic read next key := by
  intro other reached circle
  obtain ⟨here, onward, -⟩ := walk.reaches reached
  obtain ⟨first, link, back⟩ := Relation.TransGen.head'_iff.mp circle
  obtain ⟨rest, after, less⟩ := onward.link link
  obtain ⟨again, returned, shorter⟩ := after.reaches back
  have same := Walk.unique read next _ _ _ onward returned
  rw [same] at less
  omega

end Links
end FPayNode.LinkedRecords
