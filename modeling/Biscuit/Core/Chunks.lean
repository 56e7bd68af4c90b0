import Mathlib.Data.List.Basic
import Mathlib.Tactic.Common

/-!
# Chunks of a list

A list is cut into parts of one length, the last of which may be shorter.
-/

namespace Biscuit

variable {α : Type*}

/-- The parts of `n` items of a list. -/
def chunks (n : ℕ) (items : List α) : List (List α) :=
  (List.range ((items.length + (n - 1)) / n)).map fun k => (items.drop (n * k)).take n

/-- The first parts make up the front of the list. -/
theorem flatten_take_chunks (n : ℕ) (items : List α) (m : ℕ) :
    ((List.range m).map fun k => (items.drop (n * k)).take n).flatten = items.take (n * m) := by
  induction m with
  | zero => simp
  | succ m ih =>
    rw [List.range_succ, List.map_append, List.flatten_append, ih, List.map_singleton,
      List.flatten_singleton, Nat.mul_succ, List.take_add]

/-- The parts make up the list. -/
theorem flatten_chunks {n : ℕ} (hn : 0 < n) (items : List α) :
    (chunks n items).flatten = items := by
  rw [chunks, flatten_take_chunks]
  refine List.take_of_length_le ?_
  have hdiv := Nat.div_add_mod (items.length + (n - 1)) n
  have hmod := Nat.mod_lt (items.length + (n - 1)) hn
  omega

/-- Every item is in one of the parts, and the parts have no other items. -/
theorem exists_mem_chunks_iff {n : ℕ} (hn : 0 < n) {items : List α} {a : α} :
    (∃ part ∈ chunks n items, a ∈ part) ↔ a ∈ items := by
  rw [← List.mem_flatten, flatten_chunks hn]

end Biscuit
