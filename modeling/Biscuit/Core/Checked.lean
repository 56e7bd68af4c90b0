import Biscuit.Core.Machine
import Biscuit.Core.Outcome

/-!
# Arithmetic of a build

A build either checks that every result fits its type and panics where one does not, or lets
results wrap. A result that fits is the same in every build; a division by zero panics in every
build.
-/

namespace Biscuit

/-- What becomes of a result that does not fit its type. -/
inductive Build
  /-- It is a panic, as in a debug build. -/
  | checked
  /-- It wraps, as in a release build. -/
  | wrapping
  deriving DecidableEq, Repr, Inhabited

namespace Build

variable {ε : Type}

/-- A natural number as a result in a type of so many bits. -/
def word (b : Build) (bits n : ℕ) : Outcome ε ℕ :=
  if n < 2 ^ bits then .ok n
  else
    match b with
    | checked => .panic
    | wrapping => .ok (n % 2 ^ bits)

/-- `+` -/
def add (b : Build) (bits x y : ℕ) : Outcome ε ℕ := b.word bits (x + y)

/-- `*` -/
def mul (b : Build) (bits x y : ℕ) : Outcome ε ℕ := b.word bits (x * y)

/-- `pow` -/
def pow (b : Build) (bits x n : ℕ) : Outcome ε ℕ := b.word bits (x ^ n)

/-- `-`, for operands of the type. -/
def sub (b : Build) (bits x y : ℕ) : Outcome ε ℕ :=
  if y ≤ x then .ok (x - y)
  else
    match b with
    | checked => .panic
    | wrapping => .ok (x + 2 ^ bits - y)

/-- `/` -/
def div (x y : ℕ) : Outcome ε ℕ := if y = 0 then .panic else .ok (x / y)

/-- An integer as a result in a signed type of so many bits. -/
def int (b : Build) (bits : ℕ) (z : ℤ) : Outcome ε ℤ :=
  if -2 ^ (bits - 1) ≤ z ∧ z < 2 ^ (bits - 1) then .ok z
  else
    match b with
    | checked => .panic
    | wrapping => .ok (z.bmod (2 ^ bits))

/-- `as`, from the signed type of so many bits to the unsigned one. -/
def unsigned (bits : ℕ) (z : ℤ) : ℕ := (z % 2 ^ bits).toNat

theorem word_ok (b : Build) {bits n : ℕ} (h : n < 2 ^ bits) :
    (b.word bits n : Outcome ε ℕ) = .ok n := if_pos h

theorem add_ok (b : Build) {bits x y : ℕ} (h : x + y < 2 ^ bits) :
    (b.add bits x y : Outcome ε ℕ) = .ok (x + y) := b.word_ok h

theorem mul_ok (b : Build) {bits x y : ℕ} (h : x * y < 2 ^ bits) :
    (b.mul bits x y : Outcome ε ℕ) = .ok (x * y) := b.word_ok h

theorem pow_ok (b : Build) {bits x n : ℕ} (h : x ^ n < 2 ^ bits) :
    (b.pow bits x n : Outcome ε ℕ) = .ok (x ^ n) := b.word_ok h

theorem sub_ok (b : Build) (bits : ℕ) {x y : ℕ} (h : y ≤ x) :
    (b.sub bits x y : Outcome ε ℕ) = .ok (x - y) := if_pos h

theorem div_ok (x : ℕ) {y : ℕ} (h : 0 < y) : (div x y : Outcome ε ℕ) = .ok (x / y) :=
  if_neg h.ne'

theorem int_ok (b : Build) {bits : ℕ} {z : ℤ} (hl : -2 ^ (bits - 1) ≤ z)
    (hr : z < 2 ^ (bits - 1)) : (b.int bits z : Outcome ε ℤ) = .ok z := if_pos ⟨hl, hr⟩

theorem unsigned_eq {bits : ℕ} {z : ℤ} (h0 : 0 ≤ z) (h : z < 2 ^ bits) :
    unsigned bits z = z.toNat := by
  rw [unsigned, Int.emod_eq_of_lt h0 h]

/-- Whatever the build, a result fits and is at most the number that it stands for. -/
theorem bounds_of_word_eq_ok {b : Build} {bits n m : ℕ}
    (h : (b.word bits n : Outcome ε ℕ) = .ok m) : m ≤ n ∧ m < 2 ^ bits := by
  by_cases hfits : n < 2 ^ bits
  · rw [word_ok b hfits] at h
    rw [← Outcome.ok.inj h]
    exact ⟨le_rfl, hfits⟩
  · cases b with
    | checked =>
      rw [word, if_neg hfits] at h
      cases h
    | wrapping =>
      rw [word, if_neg hfits] at h
      rw [← Outcome.ok.inj h]
      exact ⟨Nat.mod_le _ _, Nat.mod_lt _ (by positivity)⟩

/-- Only a build that checks tells that a result does not fit. -/
theorem word_checked_eq_panic {bits n : ℕ} (h : 2 ^ bits ≤ n) :
    (checked.word bits n : Outcome ε ℕ) = .panic := if_neg (Nat.not_lt.mpr h)

theorem sub_checked_eq_panic (bits : ℕ) {x y : ℕ} (h : x < y) :
    (checked.sub bits x y : Outcome ε ℕ) = .panic := if_neg (Nat.not_le.mpr h)

theorem int_checked_eq_panic {bits : ℕ} {z : ℤ}
    (h : ¬(-2 ^ (bits - 1) ≤ z ∧ z < 2 ^ (bits - 1))) :
    (checked.int bits z : Outcome ε ℤ) = .panic := if_neg h

/-- A result that does not fit wraps in the other build. -/
theorem word_wrapping (bits n : ℕ) : (wrapping.word bits n : Outcome ε ℕ) = .ok (n % 2 ^ bits) := by
  rw [word]
  split_ifs with h
  · rw [Nat.mod_eq_of_lt h]
  · rfl

/-- A result that fits where that is checked is the one that wraps. -/
theorem word_of_fits {b : Build} {bits n : ℕ} (h : b = checked → n < 2 ^ bits) :
    (b.word bits n : Outcome ε ℕ) = .ok (n % 2 ^ bits) := by
  cases b with
  | checked => rw [word_ok _ (h rfl), Nat.mod_eq_of_lt (h rfl)]
  | wrapping => exact word_wrapping bits n

theorem word_eq_panic_iff {b : Build} {bits n : ℕ} :
    (b.word bits n : Outcome ε ℕ) = .panic ↔ b = checked ∧ 2 ^ bits ≤ n := by
  constructor
  · intro h
    by_contra hfits
    rw [word_of_fits fun hb => Nat.lt_of_not_le fun hle => hfits ⟨hb, hle⟩] at h
    cases h
  · rintro ⟨rfl, hle⟩
    exact word_checked_eq_panic hle

/-- A result that a build which checks can hold is one in every build, and exact where it is
checked. -/
theorem exists_int_eq_ok (b : Build) {bits : ℕ} {z : ℤ}
    (h : b = checked → -2 ^ (bits - 1) ≤ z ∧ z < 2 ^ (bits - 1)) :
    ∃ z', (b.int bits z : Outcome ε ℤ) = .ok z' ∧ (b = checked → z' = z) := by
  by_cases hfits : -2 ^ (bits - 1) ≤ z ∧ z < 2 ^ (bits - 1)
  · exact ⟨z, int_ok b hfits.1 hfits.2, fun _ => rfl⟩
  · cases b with
    | checked => exact absurd (h rfl) hfits
    | wrapping => exact ⟨z.bmod (2 ^ bits), if_neg hfits, nofun⟩

/-- The product of two words fits a type of twice their size. -/
theorem mul_lt_two_words {x y : ℕ} (hx : x < 2 ^ 64) (hy : y < 2 ^ 64) : x * y < 2 ^ 128 :=
  calc x * y < 2 ^ 64 * 2 ^ 64 := Nat.mul_lt_mul'' hx hy
    _ = 2 ^ 128 := by norm_num

end Build

end Biscuit
