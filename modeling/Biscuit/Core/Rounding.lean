import Biscuit.Core.Machine
import Mathlib.Data.Rat.Floor

/-!
# Rounding machine numbers

Products and quotients of finite numbers, rounding to an integer in either direction, and the
casts that follow it. Ratios of integers round like integer division.
-/

namespace Biscuit.F64

/-- The cast of a signed integer. -/
def ofInt (z : ℤ) : F64 := fin z

/-- The sign is flipped. -/
def neg : F64 → F64
  | fin q => fin (-q)
  | inf neg => inf (!neg)
  | nan => nan

instance : Neg F64 := ⟨neg⟩
instance : Sub F64 := ⟨fun x y => x + -y⟩

/-- The largest integer that is not above. -/
def floor : F64 → F64
  | fin q => fin (⌊q⌋ : ℚ)
  | x => x

/-- The least integer that is not below. -/
def ceil : F64 → F64
  | fin q => fin (⌈q⌉ : ℚ)
  | x => x

/-- The cast to a signed 32-bit word: towards zero, saturating, and zero for `nan`. -/
def toI32 : F64 → ℤ
  | fin q => max (-2 ^ 31) (min (if 0 ≤ q then ⌊q⌋ else ⌈q⌉) (2 ^ 31 - 1))
  | inf false => 2 ^ 31 - 1
  | inf true => -2 ^ 31
  | nan => 0

theorem fin_add_fin (a b : ℚ) : fin a + fin b = fin (a + b) := rfl

theorem fin_sub_fin (a b : ℚ) : fin a - fin b = fin (a - b) := by
  change fin (a + -b) = _
  rw [sub_eq_add_neg]

theorem fin_mul_fin (a b : ℚ) : fin a * fin b = fin (a * b) := rfl

theorem fin_div_fin (a : ℚ) {b : ℚ} (hb : b ≠ 0) : fin a / fin b = fin (a / b) := if_neg hb

/-- A finite factor does not make a product finite. -/
theorem isFinite_fin_mul (x : ℚ) (y : F64) : (fin x * y).isFinite = y.isFinite := by
  change (mul (fin x) y).isFinite = _
  cases y with
  | fin q => rfl
  | inf neg =>
    rw [mul]
    split_ifs <;> rfl
  | nan => rfl

theorem isFinite_div_zero (x : ℚ) : (fin x / fin 0).isFinite = false := by
  change (div (fin x) (fin 0)).isFinite = false
  rw [div, if_pos rfl]
  split_ifs <;> rfl

/-- A rounded number is an integer, so the cast does not round it again. -/
theorem toU64_floor_fin (q : ℚ) : (fin q).floor.toU64 = min ⌊q⌋.toNat maxU64 := by
  simp only [floor, toU64, Int.floor_intCast]

theorem toU64_ceil_fin (q : ℚ) : (fin q).ceil.toU64 = min ⌈q⌉.toNat maxU64 := by
  simp only [ceil, toU64, Int.floor_intCast]

theorem toI32_floor_fin {q : ℚ} (hl : -2 ^ 31 ≤ ⌊q⌋) (hr : ⌊q⌋ < 2 ^ 31) :
    (fin q).floor.toI32 = ⌊q⌋ := by
  simp only [floor, toI32, Int.floor_intCast, Int.ceil_intCast, ite_self]
  omega

/-- Dividing an integer by two positive ones and rounding down is one integer division. -/
theorem toI32_floor_div_div (z : ℤ) {a b : ℕ} (ha : 0 < a) (hb : 0 < b)
    (hl : -2 ^ 31 ≤ z / (a * b : ℕ)) (hr : z / (a * b : ℕ) < 2 ^ 31) :
    (ofInt z / ofInt a / ofInt b).floor.toI32 = z / (a * b : ℕ) := by
  have ha' : ((a : ℤ) : ℚ) ≠ 0 := by exact_mod_cast ha.ne'
  have hb' : ((b : ℤ) : ℚ) ≠ 0 := by exact_mod_cast hb.ne'
  have hfloor : ⌊(z : ℚ) / (a : ℤ) / (b : ℤ)⌋ = z / (a * b : ℕ) := by
    rw [div_div, ← Rat.floor_intCast_div_natCast]
    push_cast
    rfl
  rw [ofInt, ofInt, ofInt, fin_div_fin _ ha', fin_div_fin _ hb', toI32_floor_fin] <;>
    rw [hfloor] <;> assumption

/-- A part of an amount, rounded down, is an integer quotient; there is nothing left of it when the
part that is taken away is larger. -/
theorem floor_mul_one_sub (x b : ℕ) {d : ℕ} (hd : 0 < d) :
    ⌊(x : ℚ) * (1 - b / d)⌋₊ = x * (d - b) / d := by
  have hd' : (0 : ℚ) < d := by positivity
  rcases le_or_gt b d with hb | hb
  · have hratio : (x : ℚ) * (1 - b / d) = ((x * (d - b) : ℕ) : ℚ) / d := by
      rw [Nat.cast_mul, Nat.cast_sub hb]
      field_simp
    rw [hratio, Nat.floor_div_eq_div]
  · have hneg : (1 : ℚ) - b / d ≤ 0 := by
      rw [sub_nonpos, one_le_div hd']
      exact_mod_cast hb.le
    rw [Nat.floor_of_nonpos (mul_nonpos_of_nonneg_of_nonpos x.cast_nonneg hneg),
      Nat.sub_eq_zero_of_le hb.le, Nat.mul_zero, Nat.zero_div]

/-- An amount with a part added, rounded up. -/
theorem ceil_mul_one_add (x b : ℕ) {d : ℕ} (hd : 0 < d) :
    ⌈(x : ℚ) * (1 + b / d)⌉₊ = x + (x * b + (d - 1)) / d := by
  have hd' : (0 : ℚ) < d := by positivity
  have hratio : (x : ℚ) * (1 + b / d) = ((d * x + x * b : ℕ) : ℚ) / d := by
    push_cast
    field_simp
  refine eq_of_forall_ge_iff fun k => ?_
  rw [hratio, Nat.ceil_le, div_le_iff₀ hd', ← Nat.mul_add_div hd, ← Nat.add_assoc,
    Nat.div_le_iff_le_mul_add_pred hd, Nat.add_le_add_iff_right, Nat.mul_comm d k]
  exact_mod_cast Iff.rfl

end Biscuit.F64
