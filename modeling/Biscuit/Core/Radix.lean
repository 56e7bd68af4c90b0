import Mathlib.Data.List.TakeWhile
import Mathlib.Data.Nat.Digits.Lemmas

/-!
# Digit strings and their leading zeros

Texts such as Base58 write a byte string as a number in another base and keep its leading
zeros apart. Digit strings are read with the most significant digit first.
-/

namespace Biscuit

/-- The number that a digit string stands for. -/
def digitsValue (b : ℕ) (ds : List ℕ) : ℕ := Nat.ofDigits b ds.reverse

/-- The leading zeros of a digit string. -/
def leadingZeros (ds : List ℕ) : List ℕ := ds.takeWhile (· == 0)

/-- The digit string of a number, without leading zeros. -/
def digitsOf (b n : ℕ) : List ℕ := (Nat.digits b n).reverse

/-- The same leading zeros and the same number in another base. -/
def recode (b c : ℕ) (ds : List ℕ) : List ℕ := leadingZeros ds ++ digitsOf c (digitsValue b ds)

/-- The digit string of a number, filled up with zeros to a width. -/
def fixedDigits (b width n : ℕ) : List ℕ :=
  List.replicate (width - (Nat.digits b n).length) 0 ++ digitsOf b n

/-! ## Leading zeros -/

theorem leadingZeros_eq_replicate (ds : List ℕ) :
    leadingZeros ds = List.replicate (leadingZeros ds).length 0 := by
  rw [List.eq_replicate_iff]
  exact ⟨rfl, fun d hd => by simpa using List.mem_takeWhile_imp hd⟩

/-- Zeros in front do not change the number. -/
theorem digitsValue_replicate_append (b k : ℕ) (ds : List ℕ) :
    digitsValue b (List.replicate k 0 ++ ds) = digitsValue b ds := by
  rw [digitsValue, List.reverse_append, List.reverse_replicate,
    Nat.ofDigits_append_replicate_zero]
  rfl

theorem digitsValue_digitsOf (b n : ℕ) : digitsValue b (digitsOf b n) = n := by
  rw [digitsValue, digitsOf, List.reverse_reverse, Nat.ofDigits_digits]

theorem digitsValue_recode (b c : ℕ) (ds : List ℕ) :
    digitsValue c (recode b c ds) = digitsValue b ds := by
  rw [recode, leadingZeros_eq_replicate, digitsValue_replicate_append, digitsValue_digitsOf]

theorem digitsValue_dropWhile (b : ℕ) (ds : List ℕ) :
    digitsValue b (ds.dropWhile (· == 0)) = digitsValue b ds := by
  conv_rhs => rw [← List.takeWhile_append_dropWhile (p := (· == 0)) (l := ds)]
  rw [← leadingZeros, leadingZeros_eq_replicate, digitsValue_replicate_append]

/-- A digit string without leading zeros is the one of its number. -/
theorem digitsOf_digitsValue {b : ℕ} (hb : 1 < b) {ds : List ℕ} (hds : ∀ d ∈ ds, d < b) :
    digitsOf b (digitsValue b ds) = ds.dropWhile (· == 0) := by
  rw [← digitsValue_dropWhile, digitsOf, digitsValue, Nat.digits_ofDigits b hb, List.reverse_reverse]
  · intro d hd
    exact hds d (List.dropWhile_suffix _ |>.mem (List.mem_reverse.mp hd))
  · intro hne
    rw [List.getLast_reverse]
    have hhead := List.head_dropWhile_not (· == 0) (by simpa using hne)
    simpa using hhead

/-- The digits of a number do not start with a zero. -/
theorem leadingZeros_append_digitsOf (zeros : ℕ) (b n : ℕ) :
    leadingZeros (List.replicate zeros 0 ++ digitsOf b n) = List.replicate zeros 0 := by
  have hdigits : (digitsOf b n).takeWhile (· == 0) = [] := by
    cases h : digitsOf b n with
    | nil => rfl
    | cons d ds =>
      have hne : (Nat.digits b n) ≠ [] := by
        intro hnil
        rw [digitsOf, hnil] at h
        cases h
      have hn : n ≠ 0 := Nat.digits_ne_nil_iff_ne_zero.mp hne
      have hlast : (Nat.digits b n).getLast hne = d := by
        have hrev : Nat.digits b n = ds.reverse ++ [d] := by
          rw [← List.reverse_reverse (Nat.digits b n), ← digitsOf, h, List.reverse_cons]
        simp only [hrev, List.getLast_append_singleton]
      have hd : d ≠ 0 := hlast ▸ Nat.getLast_digit_ne_zero b hn
      exact List.takeWhile_cons_of_neg (by simpa using hd)
  rw [leadingZeros, List.takeWhile_append_of_pos (by simp), hdigits, List.append_nil]

theorem leadingZeros_recode (b c : ℕ) (ds : List ℕ) :
    leadingZeros (recode b c ds) = leadingZeros ds := by
  rw [recode, leadingZeros_eq_replicate ds, leadingZeros_append_digitsOf]

/-! ## Changing the base -/

/-- Changing the base twice gives the digit string back. -/
theorem recode_recode {b : ℕ} (c : ℕ) (hb : 1 < b) {ds : List ℕ} (hds : ∀ d ∈ ds, d < b) :
    recode c b (recode b c ds) = ds := by
  rw [recode, leadingZeros_recode, digitsValue_recode, digitsOf_digitsValue hb hds]
  exact List.takeWhile_append_dropWhile

theorem lt_of_mem_recode {b c : ℕ} (hc : 1 < c) {ds : List ℕ} {d : ℕ} (h : d ∈ recode b c ds) :
    d < c := by
  rcases List.mem_append.mp h with h | h
  · have hz : d = 0 := by simpa using List.mem_takeWhile_imp h
    omega
  · exact Nat.digits_lt_base hc (List.mem_reverse.mp h)

/-- A longer string in a smaller base is long enough without its leading zeros, too. -/
theorem length_recode_le {b c : ℕ} (hc : 1 < c) (hcb : c ≤ b) {ds : List ℕ}
    (hds : ∀ d ∈ ds, d < b) {bound : ℕ} (hle : ds.length ≤ bound)
    (hpow : b ^ ds.length ≤ c ^ bound) : (recode b c ds).length ≤ bound := by
  have hsplit : (leadingZeros ds).length + (ds.dropWhile (· == 0)).length = ds.length := by
    rw [← List.length_append, leadingZeros, List.takeWhile_append_dropWhile]
  generalize hz : (leadingZeros ds).length = zeros at hsplit
  generalize hk : (ds.dropWhile (· == 0)).length = k at hsplit
  have hvalue : digitsValue b ds < b ^ k := by
    rw [← digitsValue_dropWhile, ← hk, ← List.length_reverse]
    refine Nat.ofDigits_lt_base_pow_length (by omega) fun d hd => hds d ?_
    exact (List.dropWhile_suffix _).mem (List.mem_reverse.mp hd)
  have hroom : b ^ k ≤ c ^ (bound - zeros) := by
    have hbig : b ^ k * b ^ zeros ≤ c ^ (bound - zeros) * c ^ zeros := by
      rw [← pow_add, ← pow_add, Nat.sub_add_cancel (by omega), Nat.add_comm k, hsplit]
      exact hpow
    have hmono : c ^ (bound - zeros) * c ^ zeros ≤ c ^ (bound - zeros) * b ^ zeros :=
      Nat.mul_le_mul_left _ (Nat.pow_le_pow_left hcb zeros)
    exact Nat.le_of_mul_le_mul_right (hbig.trans hmono) (Nat.pow_pos (by omega))
  have hdigits : (Nat.digits c (digitsValue b ds)).length ≤ bound - zeros :=
    (Nat.digits_length_le_iff hc _).mpr (hvalue.trans_le hroom)
  rw [recode, List.length_append, digitsOf, List.length_reverse, hz]
  omega

/-! ## Fixed widths -/

theorem length_fixedDigits {b : ℕ} (hb : 1 < b) {width n : ℕ} (hn : n < b ^ width) :
    (fixedDigits b width n).length = width := by
  have hle := (Nat.digits_length_le_iff hb n).mpr hn
  rw [fixedDigits, List.length_append, List.length_replicate, digitsOf, List.length_reverse]
  omega

theorem digitsValue_fixedDigits (b width n : ℕ) : digitsValue b (fixedDigits b width n) = n := by
  rw [fixedDigits, digitsValue_replicate_append, digitsValue_digitsOf]

theorem lt_of_mem_fixedDigits {b : ℕ} (hb : 1 < b) {width n d : ℕ}
    (h : d ∈ fixedDigits b width n) : d < b := by
  rcases List.mem_append.mp h with h | h
  · have hz := List.eq_of_mem_replicate h
    omega
  · exact Nat.digits_lt_base hb (List.mem_reverse.mp h)

end Biscuit
