import Mathlib.Data.List.Basic

/-!
# The last occurrence of a pattern

A greedy match takes as much as it can before a pattern, so it ends at the last place
where the pattern occurs.
-/

namespace Biscuit

variable {α : Type*} [DecidableEq α]

/-- What stands before the last occurrence of a pattern, if it occurs. -/
def beforeLast (pattern : List α) : List α → Option (List α)
  | [] => if pattern = [] then some [] else none
  | a :: text =>
    match beforeLast pattern text with
    | some before => some (a :: before)
    | none => if pattern.isPrefixOf (a :: text) then some [] else none

/-- There is a last occurrence where there is one. -/
theorem beforeLast_eq_none_iff {pattern text : List α} :
    beforeLast pattern text = none ↔ ¬ pattern <:+: text := by
  induction text with
  | nil =>
    rw [beforeLast, List.infix_nil]
    by_cases hpattern : pattern = []
    · simp [hpattern]
    · simp [hpattern]
  | cons a text ih =>
    rw [List.infix_cons_iff, not_or, ← ih, ← List.isPrefixOf_iff_prefix]
    cases hlater : beforeLast pattern text with
    | some before => simp [beforeLast, hlater]
    | none => simp [beforeLast, hlater]

/-- An occurrence further on is still the last one. -/
theorem beforeLast_append {pattern text before : List α} (pre : List α)
    (h : beforeLast pattern text = some before) :
    beforeLast pattern (pre ++ text) = some (pre ++ before) := by
  induction pre with
  | nil => exact h
  | cons a pre ih => simp only [List.cons_append, beforeLast, ih]

theorem beforeLast_cons_of_not_prefix {pattern text : List α} {a : α}
    (hstart : pattern.isPrefixOf (a :: text) = false) (h : beforeLast pattern text = none) :
    beforeLast pattern (a :: text) = none := by
  simp only [beforeLast, h, hstart, Bool.false_eq_true, if_false]

/-- A pattern does not occur where its first item is missing. -/
theorem beforeLast_append_of_notMem {a : α} {pattern text pre : List α} (hpre : a ∉ pre)
    (h : beforeLast (a :: pattern) text = none) :
    beforeLast (a :: pattern) (pre ++ text) = none := by
  induction pre with
  | nil => exact h
  | cons b pre ih =>
    rw [List.mem_cons, not_or] at hpre
    have hstart : (a :: pattern).isPrefixOf (b :: (pre ++ text)) = false := by
      simp only [List.isPrefixOf, Bool.and_eq_false_iff, beq_eq_false_iff_ne]
      exact .inl hpre.1
    exact beforeLast_cons_of_not_prefix hstart (ih hpre.2)

theorem beforeLast_of_notMem {a : α} {pattern text : List α} (h : a ∉ text) :
    beforeLast (a :: pattern) text = none := by
  have hnil : beforeLast (a :: pattern) [] = none := if_neg (List.cons_ne_nil _ _)
  have hall := beforeLast_append_of_notMem h hnil
  rwa [List.append_nil] at hall

/-- The pattern itself is the last occurrence if nothing after its first item matches. -/
theorem beforeLast_self {a : α} {pattern rest : List α}
    (h : beforeLast (a :: pattern) (pattern ++ rest) = none) :
    beforeLast (a :: pattern) (a :: pattern ++ rest) = some [] := by
  have hstart : (a :: pattern).isPrefixOf (a :: (pattern ++ rest)) = true :=
    List.isPrefixOf_iff_prefix.mpr ⟨rest, rfl⟩
  simp only [List.cons_append, beforeLast, h, hstart, if_true]

end Biscuit
