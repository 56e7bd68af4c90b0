import Mathlib.Algebra.Order.Group.Nat
import Mathlib.Tactic.Linarith

/-!
# Shares of what is left

A whole is divided among a number of parties who come one after the other. Each of them gets
the part that the number of parties makes of what is left, not of the whole, so those who come
late get less. Rounded down, this is a fair division of small wholes only.
-/

namespace Biscuit

/-- What is left after some of the `k` parties have taken their share. -/
def leftAfter (k : ℕ) : ℕ → ℕ → ℕ
  | 0, whole => whole
  | n + 1, whole => leftAfter k n (whole - whole / k)

/-- The shares that they have taken. -/
def sharesOf (k : ℕ) : ℕ → ℕ → List ℕ
  | 0, _ => []
  | n + 1, whole => whole / k :: sharesOf k n (whole - whole / k)

/-- More leaves more: one unit adds one unit to a share at most. -/
theorem sub_div_mono {k a b : ℕ} (h : a ≤ b) : a - a / k ≤ b - b / k := by
  induction b, h using Nat.le_induction with
  | base => exact le_rfl
  | succ b hab ih =>
    have hle : b / k ≤ b := Nat.div_le_self b k
    rw [Nat.succ_div]
    split_ifs <;> omega

theorem leftAfter_mono {k n a b : ℕ} (h : a ≤ b) : leftAfter k n a ≤ leftAfter k n b := by
  induction n generalizing a b with
  | zero => exact h
  | succ n ih => exact ih (sub_div_mono h)

/-- Less than two units for each party are divided unit by unit, until fewer units than
parties are left. -/
theorem div_eq_one {k whole : ℕ} (hk : k ≤ whole) (hlt : whole < 2 * k) : whole / k = 1 :=
  Nat.div_eq_of_lt_le (by omega) (by omega)

theorem sharesOf_le_one {k n whole : ℕ} (h : whole < 2 * k) : ∀ share ∈ sharesOf k n whole,
    share ≤ 1 := by
  induction n generalizing whole with
  | zero => exact nofun
  | succ n ih =>
    rw [sharesOf, List.forall_mem_cons]
    constructor
    · exact Nat.le_of_lt_succ (Nat.div_lt_of_lt_mul (by omega))
    · exact ih ((Nat.sub_le _ _).trans_lt h)

theorem leftAfter_lt {k n whole : ℕ} (h : whole < 2 * k) (hn : whole < k + n) :
    leftAfter k n whole < k := by
  induction n generalizing whole with
  | zero => exact hn
  | succ n ih =>
    rw [leftAfter]
    by_cases hk : k ≤ whole
    · rw [div_eq_one hk h]
      exact ih (by omega) (by omega)
    · rw [Nat.div_eq_of_lt (by omega)]
      exact ih (by omega) (by omega)

/-- As long as every party finds a unit for each, all of them take one. -/
theorem one_le_sharesOf {k n whole : ℕ} (h : whole < 2 * k) (hn : k + n ≤ whole + 1) :
    ∀ share ∈ sharesOf k n whole, 1 ≤ share := by
  induction n generalizing whole with
  | zero => exact nofun
  | succ n ih =>
    have hone : whole / k = 1 := div_eq_one (by omega) h
    rw [sharesOf, List.forall_mem_cons, hone]
    exact ⟨le_rfl, ih (by omega) (by omega)⟩

theorem leftAfter_eq {k n : ℕ} (h : n < k) : leftAfter k n (k + n) = k := by
  induction n with
  | zero => rfl
  | succ n ih =>
    have hone : (k + (n + 1)) / k = 1 := div_eq_one (by omega) (by omega)
    rw [leftAfter, hone]
    exact ih (by omega)

/-- Fewer units than parties are left in the end for a single party, and for two units each at
most. -/
theorem leftAfter_lt_iff {k : ℕ} (hk : 0 < k) (whole : ℕ) :
    leftAfter k k whole < k ↔ k = 1 ∨ whole ≤ 2 * k := by
  constructor
  · intro h
    by_contra hnot
    have htwo : (2 * k + 1) / k = 2 := Nat.div_eq_of_lt_le (by omega) (by omega)
    obtain ⟨n, rfl⟩ : ∃ n, k = n + 1 := ⟨k - 1, by omega⟩
    have hleft : leftAfter (n + 1) (n + 1) (2 * (n + 1) + 1) = n + 1 := by
      rw [leftAfter, htwo]
      have he : 2 * (n + 1) + 1 - 2 = n + 1 + n := by omega
      rw [he]
      exact leftAfter_eq (by omega)
    have hmono := leftAfter_mono (k := n + 1) (n := n + 1)
      (show 2 * (n + 1) + 1 ≤ whole by omega)
    omega
  · rintro (rfl | h)
    · simp [leftAfter]
    · rcases Nat.lt_or_eq_of_le h with hlt | rfl
      · exact leftAfter_lt hlt (by omega)
      · obtain ⟨n, rfl⟩ : ∃ n, k = n + 1 := ⟨k - 1, by omega⟩
        have htwo : 2 * (n + 1) / (n + 1) = 2 := Nat.mul_div_cancel _ (by omega)
        rw [leftAfter, htwo]
        by_cases hn : n = 0
        · subst hn
          decide
        · exact leftAfter_lt (by omega) (by omega)

/-- For these wholes the shares differ by one unit at most. -/
theorem sharesOf_close {k whole : ℕ} (hk : 0 < k) (h : k = 1 ∨ whole ≤ 2 * k) :
    ∀ a ∈ sharesOf k k whole, ∀ b ∈ sharesOf k k whole, a ≤ b + 1 := by
  rcases h with rfl | h
  · intro a ha b hb
    simp only [sharesOf, List.mem_singleton] at ha hb
    omega
  · rcases Nat.lt_or_eq_of_le h with hlt | rfl
    · intro a ha b _
      have := sharesOf_le_one hlt a ha
      omega
    · obtain ⟨n, rfl⟩ : ∃ n, k = n + 1 := ⟨k - 1, by omega⟩
      have htwo : 2 * (n + 1) / (n + 1) = 2 := Nat.mul_div_cancel _ (by omega)
      rw [sharesOf, htwo]
      have hrest : ∀ share ∈ sharesOf (n + 1) n (2 * (n + 1) - 2), 1 ≤ share :=
        one_le_sharesOf (by omega) (by omega)
      have hrest' : ∀ share ∈ sharesOf (n + 1) n (2 * (n + 1) - 2), share ≤ 1 :=
        sharesOf_le_one (by omega)
      have hlow : ∀ share ∈ 2 :: sharesOf (n + 1) n (2 * (n + 1) - 2), 1 ≤ share :=
        List.forall_mem_cons.mpr ⟨by omega, hrest⟩
      have hhigh : ∀ share ∈ 2 :: sharesOf (n + 1) n (2 * (n + 1) - 2), share ≤ 2 :=
        List.forall_mem_cons.mpr ⟨le_rfl, fun share hs => (hrest' share hs).trans (by omega)⟩
      intro a ha b hb
      have := hhigh a ha
      have := hlow b hb
      omega

end Biscuit
