import Mathlib.Algebra.BigOperators.Finprod
import Mathlib.Algebra.BigOperators.Group.List.Basic
import Mathlib.Algebra.Ring.Nat
import Mathlib.Data.Fintype.EquivFin
import Mathlib.Tactic.Abel

/-!
# Sums over the items of a system

Several invariants weigh every item of a list (an order in flight, a job of the pipeline)
and follow the total while one item is added, replaced or taken away.
-/

namespace Biscuit

variable {α : Type*}

/-- The total weight of a list. -/
def tally (f : α → ℕ) (items : List α) : ℕ := (items.map f).sum

variable {f : α → ℕ}

@[simp] theorem tally_nil : tally f [] = 0 := rfl

@[simp] theorem tally_cons (a : α) (items : List α) :
    tally f (a :: items) = f a + tally f items := List.sum_cons

@[simp] theorem tally_append (items more : List α) :
    tally f (items ++ more) = tally f items + tally f more := by
  simp only [tally, List.map_append, List.sum_append]

/-- Items that weigh one each are counted. -/
theorem tally_toNat (p : α → Bool) (items : List α) :
    tally (fun a => (p a).toNat) items = items.countP p := by
  induction items with
  | nil => rfl
  | cons a items ih =>
    rw [tally_cons, ih, List.countP_cons, Nat.add_comm]
    cases p a <;> rfl

/-- Taking one item away takes its weight away. -/
theorem tally_eraseIdx {items : List α} {i : ℕ} {a : α} (h : items[i]? = some a) :
    tally f (items.eraseIdx i) + f a = tally f items := by
  induction items generalizing i with
  | nil => simp at h
  | cons b items ih =>
    cases i with
    | zero =>
      obtain rfl : b = a := by simpa using h
      simp only [List.eraseIdx_cons_zero, tally_cons]
      omega
    | succ i =>
      have hi := ih (by simpa using h)
      simp only [List.eraseIdx_cons_succ, tally_cons]
      omega

/-- Replacing one item replaces its weight. -/
theorem tally_set {items : List α} {i : ℕ} {a : α} (h : items[i]? = some a) (b : α) :
    tally f (items.set i b) + f a = tally f items + f b := by
  induction items generalizing i with
  | nil => simp at h
  | cons c items ih =>
    cases i with
    | zero =>
      obtain rfl : c = a := by simpa using h
      simp only [List.set_cons_zero, tally_cons]
      omega
    | succ i =>
      have hi := ih (by simpa using h)
      simp only [List.set_cons_succ, tally_cons]
      omega

/-- Items weigh nothing together exactly when none of them has weight. -/
theorem tally_eq_zero_iff {items : List α} : tally f items = 0 ↔ ∀ a ∈ items, f a = 0 := by
  rw [tally, List.sum_eq_zero_iff, List.forall_mem_map]

/-- Items without weight weigh nothing together. -/
theorem tally_eq_zero {items : List α} (h : ∀ a ∈ items, f a = 0) : tally f items = 0 :=
  tally_eq_zero_iff.mpr h

/-- A single item weighs no more than the whole list. -/
theorem le_tally {items : List α} {i : ℕ} {a : α} (h : items[i]? = some a) :
    f a ≤ tally f items := by
  have ht := tally_eraseIdx (f := f) h
  omega

/-- The total of a table after something is added to one of its values. -/
theorem finsum_update_add {ι M : Type*} [AddCommMonoid M] [Finite ι] [DecidableEq ι]
    (g : ι → M) (a : ι) (d : M) :
    ∑ᶠ i, Function.update g a (g a + d) i = ∑ᶠ i, g i + d := by
  have := Fintype.ofFinite ι
  rw [finsum_eq_sum_of_fintype, finsum_eq_sum_of_fintype,
    Finset.sum_update_of_mem (Finset.mem_univ a),
    Finset.sum_eq_add_sum_sdiff_singleton_of_mem (Finset.mem_univ a) g]
  abel

end Biscuit
