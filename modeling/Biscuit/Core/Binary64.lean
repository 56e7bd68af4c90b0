import Biscuit.Core.Machine
import Mathlib.Data.Int.Log

/-!
# Rounded arithmetic

Floating point arithmetic computes an exact result and keeps the number of the format that is
nearest to it. What follows from the size of the error alone holds for every such rounding: for
the exact arithmetic that keeps every result, and for the sixty-four bit format with its
fifty-three significant bits.
-/

namespace Biscuit

/-- How an arithmetic rounds its results: zero and one are kept, no result changes its sign, and the
error is at most half a unit of the fifty-third significant bit. -/
structure Rounding where
  round : ℚ → ℚ
  round_zero : round 0 = 0
  round_one : round 1 = 1
  round_nonneg : ∀ q, 0 ≤ q → 0 ≤ round q
  near : ∀ q, |round q - q| ≤ max |q| 1 / 2 ^ 53

/-- Below the next integer, a number is cast to a word that is not larger. -/
theorem F64.toU64_trunc_le {q : ℚ} {n : ℕ} (h : q < n + 1) : (F64.fin q).trunc.toU64 ≤ n := by
  rcases le_or_gt 0 q with hq | hq
  · rw [F64.toU64_trunc_fin hq]
    exact (min_le_left _ _).trans (Nat.lt_succ_iff.mp ((Nat.floor_lt hq).mpr (by exact_mod_cast h)))
  · simp only [F64.trunc, hq.not_ge, if_false, F64.toU64, Int.floor_intCast]
    have hceil : ⌈q⌉ ≤ 0 := Int.ceil_le.mpr (by exact_mod_cast hq.le)
    omega

/-! ## The nearest integer -/

/-- The nearest integer, the even one of two that are equally near. -/
def roundEven (q : ℚ) : ℤ :=
  if q - ⌊q⌋ < 1 / 2 then ⌊q⌋
  else if 1 / 2 < q - ⌊q⌋ then ⌊q⌋ + 1
  else if ⌊q⌋ % 2 = 0 then ⌊q⌋ else ⌊q⌋ + 1

theorem abs_roundEven_sub_le (q : ℚ) : |(roundEven q : ℚ) - q| ≤ 1 / 2 := by
  have hl := Int.floor_le q
  have hr := Int.lt_floor_add_one q
  rw [abs_sub_le_iff]
  unfold roundEven
  split_ifs with hlow hhigh heven
  · constructor <;> linarith
  · push_cast
    constructor <;> linarith
  · constructor <;> linarith
  · push_cast
    constructor <;> linarith

theorem roundEven_nonneg {q : ℚ} (hq : 0 ≤ q) : 0 ≤ roundEven q := by
  have hfloor : 0 ≤ ⌊q⌋ := Int.floor_nonneg.mpr hq
  unfold roundEven
  split_ifs <;> omega

namespace Rounding

/-- Every result is kept. -/
def exact : Rounding where
  round := id
  round_zero := rfl
  round_one := rfl
  round_nonneg _ hq := hq
  near q := by
    rw [id, sub_self, abs_zero]
    positivity

/-- The unit of the last of fifty-three significant bits, and none below the least number of the
format. -/
def ulp (q : ℚ) : ℚ := 2 ^ max (Int.log 2 |q| - 52) (-1074)

theorem ulp_pos (q : ℚ) : 0 < ulp q := zpow_pos (by norm_num) _

theorem ulp_le (q : ℚ) : ulp q ≤ max |q| 1 / 2 ^ 52 := by
  have hone : (1 : ℚ) < 2 := by norm_num
  -- Neither the size of a number nor the least exponent exceeds the exponent of the bound.
  have hexp : max (Int.log 2 |q| - 52) (-1074) ≤ Int.log 2 (max |q| 1) - 52 := by
    have hpos : (0 : ℤ) ≤ Int.log 2 (max |q| 1) := by
      rw [← Int.log_one_right (R := ℚ) 2]
      exact Int.log_mono_right one_pos (le_max_right _ _)
    have hle : Int.log 2 |q| ≤ Int.log 2 (max |q| 1) := by
      rcases (abs_nonneg q).eq_or_lt with hzero | habs
      · rw [← hzero, Int.log_zero_right]
        rwa [← hzero] at hpos
      · exact Int.log_mono_right habs (le_max_left _ _)
    omega
  have hlog : (2 : ℚ) ^ Int.log 2 (max |q| 1) ≤ max |q| 1 :=
    Int.zpow_log_le_self (by norm_num) (lt_max_of_lt_right one_pos)
  calc ulp q ≤ 2 ^ (Int.log 2 (max |q| 1) - 52) := zpow_le_zpow_right₀ hone.le hexp
    _ = 2 ^ Int.log 2 (max |q| 1) / 2 ^ 52 := by rw [zpow_sub₀ two_ne_zero]; rfl
    _ ≤ max |q| 1 / 2 ^ 52 := by gcongr

/-- Rounding to a multiple of a unit is off by half of it. -/
theorem abs_roundEven_mul_sub_le (q : ℚ) {u : ℚ} (hu : 0 < u) :
    |roundEven (q / u) * u - q| ≤ u / 2 := by
  have hscale : roundEven (q / u) * u - q = (roundEven (q / u) - q / u) * u := by
    rw [sub_mul, div_mul_cancel₀ q hu.ne']
  calc |roundEven (q / u) * u - q| = |roundEven (q / u) - q / u| * u := by
        rw [hscale, abs_mul, abs_of_pos hu]
    _ ≤ 1 / 2 * u := mul_le_mul_of_nonneg_right (abs_roundEven_sub_le _) hu.le
    _ = u / 2 := by ring

/-- The sixty-four bit format: the nearest of its numbers is kept, the even one of two that are
equally near. Results stay below the largest number of the format, so none is infinite. -/
def binary64 : Rounding where
  round q := roundEven (q / ulp q) * ulp q
  round_zero := by decide +kernel
  round_one := by decide +kernel
  round_nonneg q hq := mul_nonneg
    (by exact_mod_cast roundEven_nonneg (div_nonneg hq (ulp_pos q).le)) (ulp_pos q).le
  near q := by
    have hulp := ulp_le q
    have hhalf := abs_roundEven_mul_sub_le q (ulp_pos q)
    have hsplit : max |q| 1 / 2 ^ 53 = max |q| 1 / 2 ^ 52 / 2 := by ring
    rw [hsplit]
    linarith

variable (r : Rounding)

/-- The conversion of a word. -/
def ofNat (n : ℕ) : F64 := .fin (r.round n)

/-- The result that is kept of an exact one; only a finite one is rounded. -/
def apply : F64 → F64
  | .fin q => .fin (r.round q)
  | .inf neg => .inf neg
  | .nan => .nan

/-- The rounded product. -/
def mul (x y : F64) : F64 := r.apply (x * y)

/-- The rounded quotient. -/
def div (x y : F64) : F64 := r.apply (x / y)

@[simp] theorem exact_ofNat (n : ℕ) : exact.ofNat n = F64.ofNat n := rfl

@[simp] theorem exact_apply (x : F64) : exact.apply x = x := by cases x <;> rfl

@[simp] theorem exact_mul (x y : F64) : exact.mul x y = x * y := exact_apply _

@[simp] theorem exact_div (x y : F64) : exact.div x y = x / y := exact_apply _

/-! ## What the size of the error decides -/

/-- What a number gains is a share of its bound. -/
theorem round_le_add {q m : ℚ} (hq : 0 ≤ q) (hone : 1 ≤ m) (hm : q ≤ m) :
    r.round q ≤ q + m / 2 ^ 53 := by
  have hnear := (abs_sub_le_iff.mp (r.near q)).1
  rw [abs_of_nonneg hq] at hnear
  have hmax : max q 1 ≤ m := max_le hm hone
  linarith

/-- What a number loses is a share of its bound. -/
theorem sub_le_round {q m : ℚ} (hq : 0 ≤ q) (hone : 1 ≤ m) (hm : q ≤ m) :
    q - m / 2 ^ 53 ≤ r.round q := by
  have hnear := (abs_sub_le_iff.mp (r.near q)).2
  rw [abs_of_nonneg hq] at hnear
  have hmax : max q 1 ≤ m := max_le hm hone
  linarith

/-- From one on, a number loses less than its half. -/
theorem half_le_round {q : ℚ} (hq : 1 ≤ q) : q / 2 ≤ r.round q := by
  have hround := r.sub_le_round (zero_le_one.trans hq) hq le_rfl
  linarith

/-- A word other than zero does not become zero. -/
theorem round_natCast_pos {n : ℕ} (hn : 0 < n) : 0 < r.round n := by
  have hone : (1 : ℚ) ≤ n := by exact_mod_cast hn
  have hround := r.half_le_round hone
  linarith

/-- Below one by more than the error, a number stays below one. -/
theorem round_lt_one {q : ℚ} (hq : 0 ≤ q) (hlt : q < 1 - 1 / 2 ^ 53) : r.round q < 1 := by
  have hround := r.round_le_add hq le_rfl (by linarith)
  linarith

/-- The ratio of a word to itself is one, whatever its conversion rounded to. -/
theorem ratio_self {n : ℕ} (hn : 0 < n) : r.div (r.ofNat n) (r.ofNat n) = .fin 1 := by
  have hne := (r.round_natCast_pos hn).ne'
  change r.apply (F64.div (.fin (r.round n)) (.fin (r.round n))) = _
  rw [F64.div, if_neg hne, div_self hne, apply, r.round_one]

/-- The ratio of two words, whatever their conversions rounded to. -/
theorem ratio_eq (n : ℕ) {m : ℕ} (hm : 0 < m) :
    r.div (r.ofNat n) (r.ofNat m) = .fin (r.round (r.round n / r.round m)) := by
  have hne := (r.round_natCast_pos hm).ne'
  change r.apply (F64.div (.fin _) (.fin _)) = _
  rw [F64.div, if_neg hne]
  rfl

theorem round_ratio_nonneg (n m : ℕ) : 0 ≤ r.round (r.round n / r.round m) :=
  r.round_nonneg _ (div_nonneg (r.round_nonneg _ n.cast_nonneg) (r.round_nonneg _ m.cast_nonneg))

/-- Two conversions and a quotient add little to the ratio of a part to its whole. -/
theorem round_ratio_le {n m : ℕ} (hm : 0 < m) (h : n ≤ m) :
    r.round (r.round n / r.round m) ≤ n / m + 1 / 2 ^ 50 := by
  have hn : (0 : ℚ) ≤ n := n.cast_nonneg
  have hone : (1 : ℚ) ≤ m := by exact_mod_cast hm
  have hle : (n : ℚ) ≤ m := by exact_mod_cast h
  have hpart : r.round n ≤ n + m / 2 ^ 53 := r.round_le_add hn hone hle
  have hwhole : m - m / 2 ^ 53 ≤ r.round m := r.sub_le_round (hn.trans hle) hone le_rfl
  have hpos : 0 < r.round m := r.round_natCast_pos hm
  have hquotient : r.round n / r.round m ≤ n / m + 3 / 2 ^ 53 := by
    rw [div_add' _ _ _ (by linarith), div_le_div_iff₀ hpos (by linarith)]
    nlinarith
  have hnonneg : 0 ≤ r.round n / r.round m := div_nonneg (r.round_nonneg n hn) hpos.le
  have hshare : (n : ℚ) / m ≤ 1 := div_le_one_of_le₀ hle (by linarith)
  have hround := r.round_le_add hnonneg one_le_two (by linarith)
  linarith

/-- A share of a word that is not almost all of it stays within the word, however the word, the
share and their product are rounded. -/
theorem toU64_trunc_mul_le {x : ℚ} (hl : 0 ≤ x) (hr : x ≤ 99999 / 100000) (n : ℕ) :
    (r.mul (.fin x) (r.ofNat n)).trunc.toU64 ≤ n := by
  have hn : (0 : ℚ) ≤ n := n.cast_nonneg
  have hpos := r.round_nonneg n hn
  have hword : r.round n ≤ n + (n + 1) / 2 ^ 53 :=
    r.round_le_add hn (by linarith) (by linarith)
  have hshare : x * r.round n ≤ 99999 / 100000 * (n + (n + 1) / 2 ^ 53) :=
    mul_le_mul hr hword hpos (by norm_num)
  have hround : r.round (x * r.round n) ≤ x * r.round n + (n + 1) / 2 ^ 53 :=
    r.round_le_add (mul_nonneg hl hpos) (by linarith) (by linarith)
  apply F64.toU64_trunc_le
  linarith

/-- The same for a share that is a ratio of words. -/
theorem toU64_trunc_share_le {a b : ℕ} (hb : 0 < b) (h : 10000 * a ≤ 9999 * b) (n : ℕ) :
    (r.mul (r.div (r.ofNat a) (r.ofNat b)) (r.ofNat n)).trunc.toU64 ≤ n := by
  have hpos : (0 : ℚ) < b := by exact_mod_cast hb
  have hcross : (10000 : ℚ) * a ≤ 9999 * b := by exact_mod_cast h
  have hratio := r.round_ratio_le hb (show a ≤ b by omega)
  have hshare : (a : ℚ) / b ≤ 9999 / 10000 := by
    rw [div_le_div_iff₀ hpos (by norm_num)]
    linarith
  rw [r.ratio_eq a hb]
  apply r.toU64_trunc_mul_le
  · exact r.round_ratio_nonneg a b
  · norm_num at hratio ⊢
    linarith

end Rounding

end Biscuit
