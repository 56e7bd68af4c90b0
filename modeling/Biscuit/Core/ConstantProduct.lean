import Mathlib.Algebra.Order.Ring.Nat
import Mathlib.Tactic.Ring

/-!
# Pools of constant product

A pool holds two reserves `x` and `y`. Whoever pays in an amount of the first one takes out so
much of the second one that the product of the reserves does not fall. Amounts are natural
numbers, and every division is rounded in favour of the pool.
-/

namespace Biscuit.ConstantProduct

/-- What is left of `y` when `a` was paid in: the quotient, rounded down, and one more. -/
def kept (x y a : ℕ) : ℕ := x * y / (x + a) + 1

/-- What is taken out of `y` for `a`. -/
def bought (x y a : ℕ) : ℕ := y - kept x y a

/-- What is taken out of `x` for `s`. -/
def sold (x y s : ℕ) : ℕ := s * x / (y + s)

/-- What has to be paid in to take `s` out of `y`. -/
def cost (x y s : ℕ) : ℕ := s * x / (y - s) + 1

variable {x y a s : ℕ}

/-- Something can be left only of a pool that has something. -/
theorem kept_le (x : ℕ) (hy : 0 < y) (ha : 0 < a) : kept x y a ≤ y :=
  Nat.div_lt_of_lt_mul (Nat.mul_lt_mul_of_pos_right (Nat.lt_add_of_pos_right ha) hy)

/-- The product of the reserves grows, whatever is rounded. -/
theorem product_lt (x y : ℕ) (ha : 0 < a) : x * y < (x + a) * kept x y a :=
  Nat.lt_mul_div_succ (x * y) (Nat.add_pos_right x ha)

/-- Taking out no more than was bought, the product does not fall. -/
theorem product_le (hy : 0 < y) (ha : 0 < a) (hs : s ≤ bought x y a) :
    x * y ≤ (x + a) * (y - s) := by
  have hkept := kept_le x hy ha
  have hleft : kept x y a ≤ y - s := by
    rw [bought] at hs
    omega
  exact (product_lt x y ha).le.trans (Nat.mul_le_mul_left _ hleft)

/-- What was bought is not taken back for more than was paid. -/
theorem sold_le (hy : 0 < y) (ha : 0 < a) (hs : s ≤ bought x y a) :
    sold (x + a) (y - s) s ≤ a := by
  have hkept := kept_le x hy ha
  have hsy : s ≤ y := by
    rw [bought] at hs
    omega
  have hproduct := product_le hy ha hs
  rw [sold, Nat.sub_add_cancel hsy]
  apply Nat.div_le_of_le_mul
  have hsplit : (x + a) * (y - s) + s * (x + a) = x * y + y * a := by
    rw [Nat.mul_comm s, ← Nat.mul_add, Nat.sub_add_cancel hsy, Nat.add_mul, Nat.mul_comm a]
  omega

/-- An amount is bought exactly when its cost is paid. -/
theorem le_bought_iff (ha : 0 < a) (hs : s < y) : s ≤ bought x y a ↔ cost x y s ≤ a := by
  obtain ⟨left, rfl⟩ := Nat.exists_eq_add_of_le hs.le
  have hleft : 0 < left := by omega
  have hkept := kept_le x (Nat.zero_lt_of_lt hs) ha
  have hout : s ≤ bought x (s + left) a ↔ x * (s + left) / (x + a) < left := by
    rw [bought, kept] at *
    omega
  rw [hout, cost, Nat.add_sub_cancel_left, Nat.succ_le_iff,
    Nat.div_lt_iff_lt_mul (Nat.add_pos_right x ha), Nat.div_lt_iff_lt_mul hleft,
    Nat.mul_add x, Nat.mul_add left, Nat.mul_comm x s, Nat.mul_comm x left, Nat.mul_comm a left]
  omega

/-- More costs more. -/
theorem cost_mono (x : ℕ) {t : ℕ} (hst : s ≤ t) (ht : t < y) : cost x y s ≤ cost x y t := by
  apply Nat.succ_le_succ
  calc s * x / (y - s) ≤ t * x / (y - s) := Nat.div_le_div_right (Nat.mul_le_mul_right x hst)
    _ ≤ t * x / (y - t) := Nat.div_le_div_left (Nat.sub_le_sub_left hst y) (by omega)

end Biscuit.ConstantProduct
