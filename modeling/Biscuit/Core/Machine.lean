import Mathlib.Data.Rat.Floor
import Mathlib.Algebra.Order.Field.Rat
import Mathlib.Algebra.Order.Floor.Semifield
import Mathlib.Tactic.Linarith
import Mathlib.Tactic.Positivity
import Mathlib.Tactic.FieldSimp

/-!
# Machine numbers

Sixty-four bit words are natural numbers with explicit wrapping and saturating
operations: a release build wraps on `+` and `*`. Binary floating point is modelled
with exact rational arithmetic; the special values and the saturating cast back to a word are
kept. Where the error of a result decides something, what an arithmetic keeps of it is a parameter.
A zero carries no sign.
-/

namespace Biscuit

/-! ## Words -/

/-- The largest 64-bit word. -/
def maxU64 : ℕ := 2 ^ 64 - 1

/-- The value a 64-bit word keeps of an unbounded result. -/
def wrapU64 (n : ℕ) : ℕ := n % 2 ^ 64

/-- Subtraction of words, wrapping below zero. -/
def wrapSubU64 (a b : ℕ) : ℕ := wrapU64 (a + (2 ^ 64 - b % 2 ^ 64))

/-- Addition that stops at the largest word. -/
def satAddU64 (a b : ℕ) : ℕ := min (a + b) maxU64

theorem le_maxU64_iff {n : ℕ} : n ≤ maxU64 ↔ n < 2 ^ 64 := by
  rw [maxU64]
  omega

theorem wrapU64_le (n : ℕ) : wrapU64 n ≤ n := Nat.mod_le _ _

theorem wrapU64_lt (n : ℕ) : wrapU64 n < 2 ^ 64 := Nat.mod_lt _ (by positivity)

theorem wrapU64_eq {n : ℕ} (h : n < 2 ^ 64) : wrapU64 n = n := Nat.mod_eq_of_lt h

/-- A difference that stays above zero only wraps like any other result. -/
theorem wrapSubU64_of_le {a b : ℕ} (h : b ≤ a) : wrapSubU64 a b = wrapU64 (a - b) := by
  simp only [wrapSubU64, wrapU64]
  omega

/-! ## Floating point with exact arithmetic -/

/-- A binary64 value whose finite part is an exact rational. -/
inductive F64
  /-- A finite value. -/
  | fin (q : ℚ)
  /-- An infinity, negative when the flag is set. -/
  | inf (neg : Bool)
  /-- Not a number. -/
  | nan
  deriving DecidableEq, Repr

namespace F64

/-- The cast of an integer. -/
def ofNat (n : ℕ) : F64 := fin n

/-- The default of the type is zero. -/
instance : Inhabited F64 := ⟨fin 0⟩

/-- IEEE addition without rounding. -/
def add : F64 → F64 → F64
  | fin a, fin b => fin (a + b)
  | nan, _ => nan
  | _, nan => nan
  | inf a, inf b => if a = b then inf a else nan
  | inf a, fin _ => inf a
  | fin _, inf b => inf b

/-- IEEE multiplication without rounding. -/
def mul : F64 → F64 → F64
  | fin a, fin b => fin (a * b)
  | nan, _ => nan
  | _, nan => nan
  | inf a, inf b => inf (a != b)
  | inf a, fin b => if b = 0 then nan else inf (a != decide (b < 0))
  | fin a, inf b => if a = 0 then nan else inf (decide (a < 0) != b)

/-- IEEE division without rounding. -/
def div : F64 → F64 → F64
  | fin a, fin b =>
    if b = 0 then (if a = 0 then nan else inf (decide (a < 0))) else fin (a / b)
  | nan, _ => nan
  | _, nan => nan
  | inf _, inf _ => nan
  | inf a, fin b => inf (a != decide (b < 0))
  | fin _, inf _ => fin 0

instance : Add F64 := ⟨add⟩
instance : Mul F64 := ⟨mul⟩
instance : Div F64 := ⟨div⟩

/-- The strict order; a comparison with `nan` is false. -/
def lt : F64 → F64 → Bool
  | fin a, fin b => decide (a < b)
  | nan, _ => false
  | _, nan => false
  | inf a, inf b => a && !b
  | inf a, fin _ => a
  | fin _, inf b => !b

/-- Rounding towards zero. -/
def trunc : F64 → F64
  | fin q => fin (if 0 ≤ q then (⌊q⌋ : ℚ) else (⌈q⌉ : ℚ))
  | x => x

/-- The cast to a 64-bit word: towards zero, saturating, and zero for `nan`. -/
def toU64 : F64 → ℕ
  | fin q => min ⌊q⌋.toNat maxU64
  | inf false => maxU64
  | inf true => 0
  | nan => 0

/-- Neither infinite nor `nan`. -/
def isFinite : F64 → Bool
  | fin _ => true
  | _ => false

/-- The value, or `nan` if it is infinite. -/
def orNan : F64 → F64
  | fin q => fin q
  | _ => nan

theorem orNan_of_isFinite {x : F64} (h : x.isFinite = true) : x.orNan = x := by
  cases x with
  | fin q => rfl
  | inf neg => cases h
  | nan => cases h

instance : Zero F64 := ⟨fin 0⟩

/-- Without rounding, addition does not depend on the order of the summands. -/
instance : AddCommMonoid F64 where
  nsmul := nsmulRec
  add_assoc a b c := by
    change add (add a b) c = add a (add b c)
    cases a <;> cases b <;> cases c <;> simp only [add] <;> grind [add]
  zero_add a := by
    change add (fin 0) a = a
    cases a <;> simp [add]
  add_zero a := by
    change add a (fin 0) = a
    cases a <;> simp [add]
  add_comm a b := by
    change add a b = add b a
    cases a <;> cases b <;> simp only [add] <;> grind

/-- A cast never leaves the word. -/
theorem toU64_le (x : F64) : x.toU64 ≤ maxU64 := by
  match x with
  | fin q => exact min_le_right _ _
  | inf false => exact le_rfl
  | inf true => exact Nat.zero_le _
  | nan => exact Nat.zero_le _

theorem toU64_lt (x : F64) : x.toU64 < 2 ^ 64 := le_maxU64_iff.mp x.toU64_le

/-- The cast of a truncated number that is not negative is its floor. -/
theorem toU64_trunc_fin {q : ℚ} (hq : 0 ≤ q) : (fin q).trunc.toU64 = min ⌊q⌋₊ maxU64 := by
  simp only [trunc, hq, if_true, toU64, Int.floor_intCast, Int.floor_toNat]

/-- Division of integers is exact when the divisor is not zero. -/
theorem ofNat_div_ofNat (a : ℕ) {b : ℕ} (hb : 0 < b) :
    ofNat a / ofNat b = fin ((a : ℚ) / b) := by
  have hne : (b : ℚ) ≠ 0 := by positivity
  change div (fin a) (fin b) = _
  simp only [div, hne, if_false]

/-- Scaling an integer by a ratio of integers and truncating is integer division. -/
theorem toU64_trunc_ratio_mul (a : ℕ) {b : ℕ} (hb : 0 < b) (c : ℕ) :
    (ofNat a / ofNat b * ofNat c).trunc.toU64 = min (a * c / b) maxU64 := by
  have hq : (0 : ℚ) ≤ (a : ℚ) / b * c := by positivity
  have he : (a : ℚ) / b * c = ((a * c : ℕ) : ℚ) / (b : ℕ) := by push_cast; ring
  rw [ofNat_div_ofNat a hb]
  change (fin ((a : ℚ) / b * c)).trunc.toU64 = _
  rw [toU64_trunc_fin hq, he, Nat.floor_div_eq_div]

/-- A ratio of integers exceeds another exactly when the cross products do. -/
theorem ratio_lt_ratio (p q a : ℕ) {b : ℕ} (hq : 0 < q) (hb : 0 < b) :
    lt (fin ((p : ℚ) / q)) (ofNat a / ofNat b) = true ↔ p * b < q * a := by
  have hq' : (0 : ℚ) < q := by positivity
  have hb' : (0 : ℚ) < b := by positivity
  rw [ofNat_div_ofNat a hb]
  simp only [lt, decide_eq_true_eq]
  rw [div_lt_div_iff₀ hq' hb', mul_comm (a : ℚ) q]
  exact_mod_cast Iff.rfl

end F64

end Biscuit
