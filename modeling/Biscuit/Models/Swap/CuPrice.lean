import Biscuit.Core.Charges
import Biscuit.Core.Checked
import Biscuit.Models.Copy.Execution

/-!
# The price of a compute unit

The runtime charges a transaction its compute units at their price, rounded up to lamports. The
copy service and the builder of swap transactions each have a function that finds the price for
a fee; both compute with double words and cut the result off at the largest word.
-/

namespace Biscuit

/-- `checked_mul` of double words. -/
def checkedMul128 (x y : ℕ) : Option ℕ := if x * y < 2 ^ 128 then some (x * y) else none

/-- `checked_div` -/
def checkedDiv (x y : ℕ) : Option ℕ := if y = 0 then none else some (x / y)

/-- `u64::try_from(n).unwrap_or(u64::MAX)` -/
def toU64OrMax (n : ℕ) : ℕ := if n ≤ maxU64 then n else maxU64

/-- `calculate_cu_price` of the copy service, with every step that can fail. -/
def Copy.calculateCuPriceIn (b : Build) (priorityFee computeUnits : ℕ) : Outcome Empty ℕ := do
  let microLamports ← Outcome.unwrap (checkedMul128 priorityFee Copy.microLamportsPerLamport)
  let spent := microLamports - (Copy.microLamportsPerLamport - 1)
  let divisor ← b.add 128 computeUnits 1
  let cuPrice ← Outcome.unwrap (checkedDiv spent divisor)
  pure (toU64OrMax cuPrice)

namespace Swap

/-- Micro-lamports in one lamport, as the builder has it. -/
def microLamportsPerLamport : ℕ := 1000000

/-- `calculate_cu_price` of the builder. -/
def calculateCuPriceIn (b : Build) (priorityFee computeUnits : ℕ) : Outcome Empty ℕ := do
  let microLamports ← Outcome.unwrap (checkedMul128 priorityFee microLamportsPerLamport)
  let spent := microLamports - (microLamportsPerLamport - 1)
  let divisor ← b.add 128 computeUnits 1
  let cuPrice ← Outcome.unwrap (checkedDiv spent divisor)
  pure (toU64OrMax cuPrice)

/-- What the runtime charges: `(cu-price * cu-limit + 999_999) / 1_000_000`. -/
def chargedLamports (cuPrice computeUnits : ℕ) : ℕ :=
  (cuPrice * computeUnits + 999999) / 1000000

end Swap

/-- For words no step fails, and the result is the price for the fee, cut off. -/
theorem Copy.calculateCuPriceIn_eq (b : Build) {fee computeUnits : ℕ} (hfee : fee < 2 ^ 64)
    (hunits : computeUnits < 2 ^ 32) :
    Copy.calculateCuPriceIn b fee computeUnits = .ok (Copy.calculateCuPrice fee computeUnits) := by
  have hmul : checkedMul128 fee Copy.microLamportsPerLamport =
      some (fee * Copy.microLamportsPerLamport) :=
    if_pos (Build.mul_lt_two_words hfee (by decide))
  have hcut : ∀ n, toU64OrMax n = min n maxU64 := by
    intro n
    rw [toU64OrMax, min_def]
  rw [Copy.calculateCuPriceIn, hmul, Outcome.unwrap_some, Outcome.ok_bind,
    b.add_ok (by omega), Outcome.ok_bind, checkedDiv, if_neg (Nat.succ_ne_zero _),
    Outcome.unwrap_some, Outcome.ok_bind, hcut]
  rfl

namespace Swap

/-- Neither copy fails, both find the same price, it charges no more than the fee, and unless it
was cut off, not much less. -/
theorem calculateCuPrice_charges (b : Build) {fee computeUnits : ℕ} (hfee : fee < 2 ^ 64)
    (hunits : computeUnits < 2 ^ 32) :
    ∃ price, Copy.calculateCuPriceIn b fee computeUnits = .ok price ∧
      calculateCuPriceIn b fee computeUnits = .ok price ∧
      chargedLamports price computeUnits ≤ fee ∧
      ((fee * 1000000 - 999999) / (computeUnits + 1) ≤ maxU64 →
        (fee : ℚ) < chargedLamports price computeUnits + 1 + fee / (computeUnits + 1) +
          computeUnits / 1000000) := by
  have hcopy := Copy.calculateCuPriceIn_eq b hfee hunits
  refine ⟨_, hcopy, hcopy, ?_, fun hfits => ?_⟩
  · have hunit : 0 < 1000000 := by norm_num
    exact Charges.charged_le hunit (min_le_left _ _)
  · have hprice : Copy.calculateCuPrice fee computeUnits =
        Charges.priceFor 1000000 fee computeUnits := min_eq_left hfits
    rw [hprice]
    exact_mod_cast Charges.fee_lt (by norm_num) fee computeUnits

/-- A fee of ten thousand lamports for two hundred thousand units. -/
theorem calculateCuPrice_charges_tenThousand :
    ∃ price, Copy.calculateCuPriceIn .checked 10000 200000 = .ok price ∧
      chargedLamports price 200000 ≤ 10000 := by
  have hfee : 10000 < 2 ^ 64 := by norm_num
  have hunits : 200000 < 2 ^ 32 := by norm_num
  obtain ⟨price, hprice, -, hle, -⟩ := calculateCuPrice_charges .checked hfee hunits
  exact ⟨price, hprice, hle⟩

end Swap

end Biscuit
