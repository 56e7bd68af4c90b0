import Mathlib.Algebra.Order.Field.Rat
import Mathlib.Tactic.FieldSimp
import Mathlib.Tactic.Linarith
import Mathlib.Tactic.Positivity
import Mathlib.Tactic.Ring

/-!
# Charges that are rounded up

A price is given for one unit of work in a currency of which `unit` make one coin. So many units
of work are charged in coins, rounded up. A price is found for a fee by the inverse division,
rounded down and with one unit of work more: the charge does not exceed the fee, and does not fall
much below it.
-/

namespace Biscuit.Charges

/-- What is charged for some work. -/
def charged (unit price work : ℕ) : ℕ := (price * work + (unit - 1)) / unit

/-- The price for some work that spends a fee. -/
def priceFor (unit fee work : ℕ) : ℕ := (fee * unit - (unit - 1)) / (work + 1)

variable {unit : ℕ}

/-- Any price up to that of the fee is charged no more than the fee. -/
theorem charged_le (hunit : 0 < unit) {fee work price : ℕ} (h : price ≤ priceFor unit fee work) :
    charged unit price work ≤ fee := by
  have hprice : price * (work + 1) ≤ fee * unit - (unit - 1) :=
    (Nat.mul_le_mul_right _ h).trans (Nat.div_mul_le_self _ _)
  rw [Nat.mul_add, Nat.mul_one] at hprice
  apply Nat.le_of_lt_succ
  rw [charged, Nat.div_lt_iff_lt_mul hunit, Nat.succ_mul]
  omega

/-- What a charge leaves of the fee, without any division. -/
theorem fee_mul_lt (hunit : 0 < unit) (fee work : ℕ) :
    fee * unit * work < charged unit (priceFor unit fee work) work * unit * (work + 1) +
      unit * (work + 1) + work * (work + 1) := by
  have hceil : priceFor unit fee work * work ≤
      charged unit (priceFor unit fee work) work * unit := by
    have hlt := Nat.lt_mul_div_succ (priceFor unit fee work * work + (unit - 1)) hunit
    rw [charged]
    rw [Nat.mul_add, Nat.mul_one, Nat.mul_comm unit] at hlt
    omega
  have hfloor : fee * unit ≤ priceFor unit fee work * (work + 1) + work + (unit - 1) := by
    have hlt := Nat.lt_mul_div_succ (fee * unit - (unit - 1)) (by omega : 0 < work + 1)
    rw [priceFor]
    rw [Nat.mul_add, Nat.mul_one, Nat.mul_comm (work + 1)] at hlt
    omega
  obtain ⟨rest, rfl⟩ := Nat.exists_eq_add_of_lt hunit
  simp only [Nat.zero_add] at hceil hfloor ⊢
  rw [Nat.add_sub_cancel] at hfloor
  calc fee * (rest + 1) * work
      ≤ (priceFor (rest + 1) fee work * (work + 1) + work + rest) * work :=
        Nat.mul_le_mul_right _ hfloor
    _ = priceFor (rest + 1) fee work * work * (work + 1) + (work + rest) * work := by ring
    _ ≤ charged (rest + 1) (priceFor (rest + 1) fee work) work * (rest + 1) * (work + 1) +
        (work + rest) * work := by
        exact Nat.add_le_add_right (Nat.mul_le_mul_right _ hceil) _
    _ < _ := by nlinarith

/-- The fee is more than the charge by less than a coin, the share of the one unit of work, and
the coins that the work makes at one unit each. -/
theorem fee_lt (hunit : 0 < unit) (fee work : ℕ) :
    (fee : ℚ) < charged unit (priceFor unit fee work) work + 1 + fee / (work + 1) + work / unit := by
  have hlt : (fee * unit * work : ℚ) < charged unit (priceFor unit fee work) work * unit *
      (work + 1) + unit * (work + 1) + work * (work + 1) := by
    exact_mod_cast fee_mul_lt hunit fee work
  have hunit' : (0 : ℚ) < unit := by exact_mod_cast hunit
  have hwork : (0 : ℚ) < work + 1 := by positivity
  rw [← sub_pos]
  have hdiff : (charged unit (priceFor unit fee work) work + 1 + fee / (work + 1) + work / unit -
      fee : ℚ) = (charged unit (priceFor unit fee work) work * unit * (work + 1) +
        unit * (work + 1) + work * (work + 1) - fee * unit * work) / (unit * (work + 1)) := by
    field_simp
    ring
  rw [hdiff]
  exact div_pos (sub_pos.mpr hlt) (mul_pos hunit' hwork)

end Biscuit.Charges
