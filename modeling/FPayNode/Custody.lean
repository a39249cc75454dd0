import Mathlib.Data.List.Nodup
import Mathlib.Logic.Function.Basic

/-!
Items that are held in lists by several holders and are given from one to
another. When nobody receives what somebody has, every item has one holder at
most, who has it once.
-/

namespace FPayNode.Custody

variable {Holder Item : Type}

/-- What every holder has, in the order in which it came. -/
abbrev Holdings (Holder Item : Type) := Holder → List Item

structure Apart (custody : Holdings Holder Item) : Prop where
  once : ∀ holder, (custody holder).Nodup
  alone : ∀ holder other item, item ∈ custody holder → item ∈ custody other → holder = other

theorem apart_nobody : Apart fun _ : Holder => ([] : List Item) :=
  ⟨fun _ => List.nodup_nil, fun _ _ _ member => absurd member List.not_mem_nil⟩

section Moves
variable [DecidableEq Holder] (custody : Holdings Holder Item)

def give (holder : Holder) (item : Item) : Holdings Holder Item :=
  Function.update custody holder (custody holder ++ [item])

/-- All that the holder had is gone. -/
def abandon (holder : Holder) : Holdings Holder Item := Function.update custody holder []

theorem mem_give (holder other : Holder) (given item : Item) :
    item ∈ give custody holder given other ↔
      item ∈ custody other ∨ other = holder ∧ item = given := by
  by_cases same : other = holder
  · subst other
    rw [give, Function.update_self, List.mem_append, List.mem_singleton]
    simp
  · rw [give, Function.update_of_ne same]
    simp [same]

theorem mem_abandon (holder other : Holder) (item : Item) :
    item ∈ abandon custody holder other ↔ item ∈ custody other ∧ other ≠ holder := by
  by_cases same : other = holder
  · subst other
    rw [abandon, Function.update_self]
    simp
  · rw [abandon, Function.update_of_ne same]
    simp [same]

theorem apart_give (holder : Holder) (item : Item) (apart : Apart custody)
    (free : ∀ other, item ∉ custody other) : Apart (give custody holder item) where
  once other := by
    by_cases same : other = holder
    · subst other
      rw [give, Function.update_self]
      exact List.nodup_append.mpr ⟨apart.once _, List.nodup_singleton item,
        fun _ held _ given => fun equal => free _ (List.mem_singleton.mp given ▸ equal ▸ held)⟩
    · rw [give, Function.update_of_ne same]
      exact apart.once other
  alone first second other one two := by
    rcases (mem_give custody holder first item other).mp one with held | ⟨rfl, rfl⟩
    · rcases (mem_give custody holder second item other).mp two with also | ⟨-, rfl⟩
      · exact apart.alone first second other held also
      · exact absurd held (free first)
    · rcases (mem_give custody first second other other).mp two with also | ⟨rfl, -⟩
      · exact absurd also (free second)
      · rfl

theorem apart_abandon (holder : Holder) (apart : Apart custody) :
    Apart (abandon custody holder) where
  once other := by
    by_cases same : other = holder
    · subst other
      rw [abandon, Function.update_self]
      exact List.nodup_nil
    · rw [abandon, Function.update_of_ne same]
      exact apart.once other
  alone first second item one two :=
    apart.alone first second item ((mem_abandon custody holder first item).mp one).1
      ((mem_abandon custody holder second item).mp two).1

section Release
variable [DecidableEq Item]

def release (holder : Holder) (item : Item) : Holdings Holder Item :=
  Function.update custody holder ((custody holder).erase item)

/-- From one holder to another. -/
def pass (holder other : Holder) (item : Item) : Holdings Holder Item :=
  give (release custody holder item) other item

theorem mem_release (holder other : Holder) (released item : Item) (apart : Apart custody) :
    item ∈ release custody holder released other ↔
      item ∈ custody other ∧ ¬ (other = holder ∧ item = released) := by
  by_cases same : other = holder
  · subst other
    rw [release, Function.update_self, (apart.once _).mem_erase_iff]
    simp [and_comm]
  · rw [release, Function.update_of_ne same]
    simp [same]

theorem apart_release (holder : Holder) (item : Item) (apart : Apart custody) :
    Apart (release custody holder item) where
  once other := by
    by_cases same : other = holder
    · subst other
      rw [release, Function.update_self]
      exact (apart.once _).erase item
    · rw [release, Function.update_of_ne same]
      exact apart.once other
  alone first second other one two :=
    apart.alone first second other ((mem_release custody holder first item other apart).mp one).1
      ((mem_release custody holder second item other apart).mp two).1

/-- Who has released it has no longer, and nobody else had it. -/
theorem released_free (holder : Holder) (item : Item) (apart : Apart custody)
    (held : item ∈ custody holder) (other : Holder) :
    item ∉ release custody holder item other := by
  intro still
  obtain ⟨also, kept⟩ := (mem_release custody holder other item item apart).mp still
  exact kept ⟨apart.alone other holder item also held, rfl⟩

theorem mem_pass (holder other place : Holder) (passed item : Item) (apart : Apart custody)
    (held : passed ∈ custody holder) :
    item ∈ pass custody holder other passed place ↔
      item ≠ passed ∧ item ∈ custody place ∨ item = passed ∧ place = other := by
  rw [pass, mem_give, mem_release custody holder place passed item apart]
  by_cases same : item = passed
  · subst item
    have gone : ¬ (passed ∈ custody place ∧ ¬ (place = holder ∧ passed = passed)) := by
      rintro ⟨also, kept⟩
      exact kept ⟨apart.alone place holder passed also held, rfl⟩
    rw [or_iff_right gone]
    simp
  · simp [same]

theorem apart_pass (holder other : Holder) (item : Item) (apart : Apart custody)
    (held : item ∈ custody holder) : Apart (pass custody holder other item) :=
  apart_give _ other item (apart_release custody holder item apart)
    (released_free custody holder item apart held)

end Release

end Moves

end FPayNode.Custody
