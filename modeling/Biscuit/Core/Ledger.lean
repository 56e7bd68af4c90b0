import Mathlib.Algebra.BigOperators.Group.List.Basic
import Mathlib.Data.List.Perm.Basic
import Mathlib.Logic.Function.Basic

/-!
# Ledgers

A ledger adds up amounts by key, and knows the keys that anything was posted to. The order
of the postings does not matter.
-/

namespace Biscuit

/-- Amounts by key; a key without postings has none. -/
abbrev Ledger (κ α : Type*) := κ → Option α

namespace Ledger

variable {κ α : Type*} [DecidableEq κ] [AddCommMonoid α]

/-- No postings. -/
def empty : Ledger κ α := fun _ => none

/-- Add one amount to one key. -/
def post (l : Ledger κ α) (p : κ × α) : Ledger κ α :=
  Function.update l p.1 (some ((l p.1).getD 0 + p.2))

/-- Add amounts one after the other. -/
def postAll (l : Ledger κ α) (ps : List (κ × α)) : Ledger κ α := ps.foldl post l

/-- What was posted to a key. -/
def total (key : κ) (ps : List (κ × α)) : α := (ps.map fun p => if p.1 = key then p.2 else 0).sum

@[simp] theorem post_self (l : Ledger κ α) (p : κ × α) :
    l.post p p.1 = some ((l p.1).getD 0 + p.2) := Function.update_self ..

theorem post_of_ne (l : Ledger κ α) (p : κ × α) {key : κ} (h : key ≠ p.1) :
    l.post p key = l key := Function.update_of_ne h ..

@[simp] theorem postAll_nil (l : Ledger κ α) : l.postAll [] = l := rfl

@[simp] theorem postAll_cons (l : Ledger κ α) (p : κ × α) (ps : List (κ × α)) :
    l.postAll (p :: ps) = (l.post p).postAll ps := rfl

theorem postAll_append (l : Ledger κ α) (ps qs : List (κ × α)) :
    l.postAll (ps ++ qs) = (l.postAll ps).postAll qs := List.foldl_append

@[simp] theorem total_nil (key : κ) : total key ([] : List (κ × α)) = 0 := rfl

@[simp] theorem total_cons (key : κ) (p : κ × α) (ps : List (κ × α)) :
    total key (p :: ps) = (if p.1 = key then p.2 else 0) + total key ps := List.sum_cons

/-- Nothing was posted to a key that no posting names. -/
theorem total_of_notMem {key : κ} {ps : List (κ × α)} (h : key ∉ ps.map Prod.fst) :
    total key ps = 0 := by
  induction ps with
  | nil => rfl
  | cons p ps ih =>
    rw [List.map_cons, List.mem_cons, not_or] at h
    rw [total_cons, if_neg fun hk => h.1 hk.symm, ih h.2, zero_add]

/-- A key holds what it held before and everything that was posted to it. -/
theorem postAll_apply (l : Ledger κ α) (ps : List (κ × α)) (key : κ) :
    l.postAll ps key =
      if key ∈ ps.map Prod.fst then some ((l key).getD 0 + total key ps) else l key := by
  induction ps generalizing l with
  | nil => rfl
  | cons p ps ih =>
    rw [postAll_cons, ih, List.map_cons]
    by_cases hk : key = p.1
    · subst hk
      rw [post_self, Option.getD_some, total_cons, if_pos rfl, if_pos List.mem_cons_self, add_assoc]
      split
      · rfl
      · next hnot => rw [total_of_notMem hnot, add_zero]
    · rw [post_of_ne l p hk, total_cons, if_neg (c := p.1 = key) (Ne.symm hk), zero_add]
      simp only [List.mem_cons, hk, false_or]

/-- What was posted does not depend on the order. -/
theorem total_perm {ps qs : List (κ × α)} (h : ps.Perm qs) (key : κ) :
    total key ps = total key qs := (h.map _).sum_eq

/-- Postings can be made in any order. -/
theorem postAll_perm (l : Ledger κ α) {ps qs : List (κ × α)} (h : ps.Perm qs) :
    l.postAll ps = l.postAll qs := by
  ext key
  rw [postAll_apply, postAll_apply, total_perm h]
  simp only [(h.map Prod.fst).mem_iff]

/-- Two ledgers with the same keys agree on what a function reads of them exactly when it reads
the same of their totals. -/
theorem map_postAll_eq_iff {β : Type*} (f : α → β) {ps qs : List (κ × α)}
    (hkeys : ps.map Prod.fst = qs.map Prod.fst) :
    (∀ key, (postAll empty ps key).map f = (postAll empty qs key).map f) ↔
      ∀ key, f (total key ps) = f (total key qs) := by
  have hpost : ∀ (rs : List (κ × α)) (key : κ), postAll empty rs key =
      if key ∈ rs.map Prod.fst then some (total key rs) else none := by
    intro rs key
    rw [postAll_apply, empty, Option.getD_none, zero_add]
  constructor
  · intro h key
    have hk := h key
    rw [hpost, hpost, hkeys] at hk
    by_cases hmem : key ∈ qs.map Prod.fst
    · rw [if_pos hmem, if_pos hmem] at hk
      exact Option.some.inj hk
    · rw [total_of_notMem hmem, total_of_notMem (hkeys ▸ hmem)]
  · intro h key
    rw [hpost, hpost, hkeys]
    split
    · exact congrArg some (h key)
    · rfl

end Ledger

end Biscuit
