import Mathlib.Data.List.Lex
import Mathlib.Order.Basic
import Mathlib.Order.Lattice

/-!
Lists in ascending order of a key, with one entry for each key: what an ordered
set or map iterates over. An entry whose key is there already is not inserted.
-/

namespace FPayNode.KeyedLists

section Entries
variable {Key Entry : Type} [LinearOrder Key] (key : Entry → Key)

def Ascending (entries : List Entry) : Prop :=
  entries.Pairwise fun earlier later => key earlier < key later

def insertEntry (entry : Entry) : List Entry → List Entry
  | [] => [entry]
  | first :: rest =>
      if key entry < key first then entry :: first :: rest
      else if key entry = key first then first :: rest
      else first :: insertEntry entry rest

theorem mem_insertEntry (entry other : Entry) (entries : List Entry)
    (member : other ∈ insertEntry key entry entries) : other = entry ∨ other ∈ entries := by
  induction entries with
  | nil => exact .inl (List.mem_singleton.mp member)
  | cons first rest ih =>
      simp only [insertEntry] at member
      split at member
      · exact List.mem_cons.mp member
      · split at member
        · exact .inr member
        · rcases List.mem_cons.mp member with same | later
          · exact .inr (List.mem_cons.mpr (.inl same))
          · exact (ih later).imp_right (List.mem_cons_of_mem first)

theorem insertEntry_length (entry : Entry) (entries : List Entry) :
    (insertEntry key entry entries).length ≤ entries.length + 1 := by
  induction entries with
  | nil => exact Nat.le_refl 1
  | cons first rest ih =>
      simp only [insertEntry]
      split
      · exact Nat.le_refl _
      · split
        · exact Nat.le_succ _
        · exact Nat.succ_le_succ ih

theorem insertEntry_ascending (entry : Entry) (entries : List Entry)
    (ascending : Ascending key entries) : Ascending key (insertEntry key entry entries) := by
  induction entries with
  | nil => exact List.pairwise_singleton _ _
  | cons first rest ih =>
      obtain ⟨front, back⟩ := List.pairwise_cons.mp ascending
      simp only [insertEntry]
      split
      · next less =>
          refine List.pairwise_cons.mpr ⟨fun later member => ?_, ascending⟩
          rcases List.mem_cons.mp member with same | behind
          · exact same ▸ less
          · exact less.trans (front later behind)
      · next notLess =>
          split
          · exact ascending
          · next different =>
              -- The entry goes behind `first`, whose key is smaller.
              refine List.pairwise_cons.mpr ⟨fun later member => ?_, ih back⟩
              rcases mem_insertEntry key entry later rest member with same | behind
              · exact same ▸ lt_of_le_of_ne (not_lt.mp notLess) (Ne.symm different)
              · exact front later behind

/-- An entry with the greatest key goes to the end. -/
theorem insertEntry_greatest (entry : Entry) (entries : List Entry)
    (greatest : ∀ other ∈ entries, key other < key entry) :
    insertEntry key entry entries = entries ++ [entry] := by
  induction entries with
  | nil => rfl
  | cons first rest ih =>
      have less := greatest first List.mem_cons_self
      rw [insertEntry, if_neg (not_lt.mpr less.le), if_neg (ne_of_gt less),
        ih fun other member => greatest other (List.mem_cons_of_mem first member)]
      rfl

end Entries

/-- A set or map, as the list of its entries. -/
def Keyed {Key Entry : Type} [LinearOrder Key] (key : Entry → Key) : Type :=
  { entries : List Entry // Ascending key entries }

namespace Keyed
variable {Key Entry : Type} [LinearOrder Key] {key : Entry → Key}

/-- The lexicographic order of the entries. -/
instance order [LinearOrder Entry] : LinearOrder (Keyed key) :=
  inferInstanceAs (LinearOrder { entries : List Entry // Ascending key entries })

def empty : Keyed key := ⟨[], List.Pairwise.nil⟩

def insert (keyed : Keyed key) (entry : Entry) : Keyed key :=
  ⟨insertEntry key entry keyed.1, insertEntry_ascending key entry keyed.1 keyed.2⟩

theorem mem_inserted (items : List Entry) (keyed : Keyed key) (entry : Entry)
    (member : entry ∈ (items.foldl insert keyed).1) : entry ∈ items ∨ entry ∈ keyed.1 := by
  induction items generalizing keyed with
  | nil => exact .inr member
  | cons item items ih =>
      rcases ih (keyed.insert item) member with later | inserted
      · exact .inl (List.mem_cons_of_mem item later)
      · rcases mem_insertEntry key item entry keyed.1 inserted with same | old
        · exact .inl (List.mem_cons.mpr (.inl same))
        · exact .inr old

theorem inserted_length (items : List Entry) (keyed : Keyed key) :
    (items.foldl insert keyed).1.length ≤ keyed.1.length + items.length := by
  induction items generalizing keyed with
  | nil => exact Nat.le_refl _
  | cons item items ih =>
      have rest := ih (keyed.insert item)
      have one := insertEntry_length key item keyed.1
      simp only [List.foldl_cons, List.length_cons]
      change _ ≤ (insertEntry key item keyed.1).length + items.length at rest
      omega

/-- Inserting entries in ascending order puts them one behind the other. -/
theorem inserted_ascending (items : List Entry) (keyed : Keyed key)
    (ascending : Ascending key (keyed.1 ++ items)) :
    (items.foldl insert keyed).1 = keyed.1 ++ items := by
  induction items generalizing keyed with
  | nil => exact (List.append_nil _).symm
  | cons item items ih =>
      have last : (keyed.insert item).1 = keyed.1 ++ [item] := by
        apply insertEntry_greatest
        intro other member
        exact (List.pairwise_append.mp ascending).2.2 other member item List.mem_cons_self
      have rest := ih (keyed.insert item)
      rw [last, List.append_assoc, List.singleton_append] at rest
      exact rest ascending

theorem inserted_self (keyed : Keyed key) : keyed.1.foldl insert empty = keyed :=
  Subtype.ext (inserted_ascending keyed.1 empty keyed.2)

end Keyed
end FPayNode.KeyedLists
