import Mathlib.Data.List.Forall2
import Mathlib.Data.List.Infix
import Mathlib.Tactic.Common

/-!
# Reading from a list that only grows

What was read from a list by index stays true of every longer version of it.
-/

namespace Biscuit

variable {α : Type*}

/-- Every item of the first list has a partner in the second one. -/
theorem exists_of_forall₂ {β : Type*} {R : α → β → Prop} {items : List α} {partners : List β}
    (h : List.Forall₂ R items partners) {a : α} (ha : a ∈ items) : ∃ b ∈ partners, R a b := by
  induction h with
  | nil => cases ha
  | cons hab _ ih =>
    rcases List.mem_cons.mp ha with rfl | hm
    · exact ⟨_, List.mem_cons_self, hab⟩
    · obtain ⟨b, hb, hR⟩ := ih hm
      exact ⟨b, List.mem_cons_of_mem _ hb, hR⟩

/-- The items at some indices, if all of them are in range. -/
def pick (items : List α) : List ℕ → Option (List α)
  | [] => some []
  | i :: is => do
    let a ← items[i]?
    let rest ← pick items is
    some (a :: rest)

/-- The items at some indices, in their order. -/
theorem pick_eq_some_iff {items picked : List α} {is : List ℕ} :
    pick items is = some picked ↔ List.Forall₂ (fun i a => items[i]? = some a) is picked := by
  induction is generalizing picked with
  | nil => simp [pick, eq_comm]
  | cons i is ih =>
    simp only [pick, Option.bind_eq_bind, Option.bind_eq_some_iff, Option.some.injEq, ih,
      List.forall₂_cons_left_iff]
    constructor
    · rintro ⟨a, ha, rest, hrest, rfl⟩
      exact ⟨a, rest, ha, hrest, rfl⟩
    · rintro ⟨a, rest, ha, hrest, rfl⟩
      exact ⟨a, ha, rest, hrest, rfl⟩

/-- Reading succeeds exactly when every index is in range. -/
theorem pick_eq_none_iff {items : List α} {is : List ℕ} :
    pick items is = none ↔ ∃ i ∈ is, items.length ≤ i := by
  induction is with
  | nil => simp [pick]
  | cons i is ih =>
    simp only [List.mem_cons, exists_eq_or_imp, ← ih, pick]
    by_cases hi : i < items.length
    · rw [List.getElem?_eq_getElem hi]
      cases pick items is <;> simp [hi]
    · rw [List.getElem?_eq_none (by omega)]
      simp [Nat.le_of_not_lt hi]

/-- Reading in range has a result. -/
theorem exists_pick {items : List α} {is : List ℕ} (h : ∀ i ∈ is, i < items.length) :
    ∃ picked, pick items is = some picked := by
  refine Option.ne_none_iff_exists'.mp fun hnone => ?_
  obtain ⟨i, hi, hle⟩ := pick_eq_none_iff.mp hnone
  exact absurd (h i hi) (Nat.not_lt.mpr hle)

/-- An item of a list stands at its place in any longer version of it. -/
theorem getElem?_of_prefix {items longer : List α} {i : ℕ} {a : α} (hle : items <+: longer)
    (h : items[i]? = some a) : longer[i]? = some a := by
  obtain ⟨more, rfl⟩ := hle
  obtain ⟨hi, -⟩ := List.getElem?_eq_some_iff.mp h
  rw [List.getElem?_append_left hi]
  exact h

/-- What was read from a list is what is read from any longer version of it. -/
theorem pick_of_prefix {items longer picked : List α} {is : List ℕ} (hle : items <+: longer)
    (h : pick items is = some picked) : pick longer is = some picked := by
  rw [pick_eq_some_iff] at h ⊢
  exact h.imp fun _ _ ha => getElem?_of_prefix hle ha

end Biscuit
