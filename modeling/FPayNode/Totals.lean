import Mathlib.Data.Finmap
import Mathlib.Algebra.BigOperators.Group.Finset.Basic
import Mathlib.Algebra.BigOperators.Group.Finset.Piecewise
import Mathlib.Data.Int.Basic
import Mathlib.Data.Fintype.Basic
import Mathlib.Tactic.Common
import Mathlib.Tactic.Abel

/-!
Sums over what a finite map holds and over what a finite family of parties
holds, and how they move when one entry changes.
-/

namespace FPayNode.Totals

section Map
variable {Key Value : Type} [DecidableEq Key]

/-- The sum of a reading over all keys of a finite map. -/
def total (reading : Option Value → Int) (map : Finmap fun _ : Key => Value) : Int :=
  ∑ key ∈ map.keys, reading (map.lookup key)

variable (reading : Option Value → Int) (blank : reading none = 0)
include blank

theorem total_eq_sum (map : Finmap fun _ : Key => Value) (keys : Finset Key)
    (covered : map.keys ⊆ keys) :
    total reading map = ∑ key ∈ keys, reading (map.lookup key) := by
  simp only [total]
  apply Finset.sum_subset covered
  intro key _ absent
  have missing : map.lookup key = none := by
    rw [Finmap.lookup_eq_none]
    exact fun member => absent (Finmap.mem_keys.mpr member)
  rw [missing, blank]

/-- Two maps that read alike at every key but one differ in total by the
difference at that key. -/
theorem total_change (before after : Finmap fun _ : Key => Value) (key : Key)
    (others : ∀ other, other ≠ key →
      reading (after.lookup other) = reading (before.lookup other)) :
    total reading after =
      total reading before - reading (before.lookup key) + reading (after.lookup key) := by
  let keys := insert key (before.keys ∪ after.keys)
  have coversBefore : before.keys ⊆ keys :=
    fun _ member => Finset.mem_insert_of_mem (Finset.mem_union_left _ member)
  have coversAfter : after.keys ⊆ keys :=
    fun _ member => Finset.mem_insert_of_mem (Finset.mem_union_right _ member)
  have here : key ∈ keys := Finset.mem_insert_self _ _
  rw [total_eq_sum reading blank before keys coversBefore,
    total_eq_sum reading blank after keys coversAfter,
    ← Finset.add_sum_erase keys _ here, ← Finset.add_sum_erase keys _ here]
  have rest : ∑ other ∈ keys.erase key, reading (after.lookup other) =
      ∑ other ∈ keys.erase key, reading (before.lookup other) :=
    Finset.sum_congr rfl fun other member => others other (Finset.ne_of_mem_erase member)
  rw [rest]
  abel

theorem total_same (before after : Finmap fun _ : Key => Value)
    (alike : ∀ key, reading (after.lookup key) = reading (before.lookup key)) :
    total reading after = total reading before := by
  let keys := before.keys ∪ after.keys
  rw [total_eq_sum reading blank before keys Finset.subset_union_left,
    total_eq_sum reading blank after keys Finset.subset_union_right]
  exact Finset.sum_congr rfl fun key _ => alike key

end Map

section Parties
variable {Party Holding : Type} [Fintype Party] [DecidableEq Party]

theorem sum_update (amount : Holding → Int) (held : Party → Holding) (party : Party)
    (holding : Holding) :
    ∑ other, amount (Function.update held party holding other) =
      ∑ other, amount (held other) - amount (held party) + amount holding := by
  rw [← Finset.add_sum_erase Finset.univ _ (Finset.mem_univ party),
    ← Finset.add_sum_erase Finset.univ (fun other => amount (held other))
      (Finset.mem_univ party)]
  have rest : ∑ other ∈ Finset.univ.erase party,
        amount (Function.update held party holding other) =
      ∑ other ∈ Finset.univ.erase party, amount (held other) := by
    apply Finset.sum_congr rfl
    intro other member
    rw [Function.update_of_ne (Finset.ne_of_mem_erase member)]
  rw [rest, Function.update_self]
  abel

end Parties
end FPayNode.Totals
