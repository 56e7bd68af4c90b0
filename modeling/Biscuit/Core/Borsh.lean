import Biscuit.Core.Codec
import Mathlib.Tactic.Ring

/-!
# Borsh

The Borsh format: numbers are little endian, a list follows its length in four bytes, and the
variant of an enumeration follows its index in one byte.
-/

namespace Biscuit.Borsh

variable {α β : Type}

/-- A byte and what stands above it make a number. -/
def lowByte : UInt8 × ℕ ≃ ℕ where
  toFun p := p.1.toNat + 256 * p.2
  invFun n := (UInt8.ofNat n, n / 256)
  left_inv p := by
    have hlt := p.1.toNat_lt
    refine Prod.ext ?_ ?_
    · change UInt8.ofNat (p.1.toNat + 256 * p.2) = p.1
      apply UInt8.toNat_inj.mp
      rw [UInt8.toNat_ofNat']
      omega
    · change (p.1.toNat + 256 * p.2) / 256 = p.2
      omega
  right_inv n := by
    simp only [UInt8.toNat_ofNat']
    omega

/-- A number of so many bytes. -/
def uint : ℕ → Codec UInt8 ℕ
  | 0 => .const 0
  | k + 1 => (Codec.letter.prod (uint k)).equiv lowByte

theorem uint_valid_iff {k n : ℕ} : (uint k).Valid n ↔ n < 256 ^ k := by
  induction k generalizing n with
  | zero =>
    rw [pow_zero, Nat.lt_one_iff]
    exact Iff.rfl
  | succ k ih =>
    have hdiv : (uint (k + 1)).Valid n ↔ (uint k).Valid (n / 256) :=
      ⟨And.right, fun h => ⟨trivial, h⟩⟩
    rw [hdiv, ih, pow_succ, Nat.div_lt_iff_lt_mul (by norm_num)]

/-- A machine word of so many bytes. -/
def word (k : ℕ) : Codec UInt8 (BitVec (8 * k)) :=
  (uint k).embed (BitVec.ofNat (8 * k)) (fun w => some w.toNat) fun n w hn => by
    have hlt : n < 2 ^ (8 * k) := by
      rw [pow_mul]
      exact uint_valid_iff.mp hn
    rw [Option.some.injEq]
    constructor
    · rintro rfl
      rw [BitVec.ofNat_toNat, BitVec.setWidth_eq]
    · rintro rfl
      rw [BitVec.toNat_ofNat, Nat.mod_eq_of_lt hlt]

theorem word_valid (k : ℕ) (w : BitVec (8 * k)) : (word k).Valid w := by
  refine ⟨w.toNat, rfl, uint_valid_iff.mpr ?_⟩
  have hlt := w.isLt
  rwa [pow_mul] at hlt

/-- `u8` -/
def u8 : Codec UInt8 UInt8 := .letter

/-- `u16` -/
def u16 : Codec UInt8 (BitVec 16) := word 2

/-- `u32` -/
def u32 : Codec UInt8 (BitVec 32) := word 4

/-- `u64` -/
def u64 : Codec UInt8 (BitVec 64) := word 8

/-- `u128` -/
def u128 : Codec UInt8 (BitVec 128) := word 16

@[simp] theorem u8_valid (a : UInt8) : u8.Valid a := trivial

@[simp] theorem u16_valid (a : BitVec 16) : u16.Valid a := word_valid 2 a

@[simp] theorem u32_valid (a : BitVec 32) : u32.Valid a := word_valid 4 a

@[simp] theorem u64_valid (a : BitVec 64) : u64.Valid a := word_valid 8 a

@[simp] theorem u128_valid (a : BitVec 128) : u128.Valid a := word_valid 16 a

/-- `Vec` -/
def vec (c : Codec UInt8 α) : Codec UInt8 (List α) := .list (uint 4) c

/-- A list can be written when its length fits into four bytes and its items can be written. -/
theorem vec_valid_iff {c : Codec UInt8 α} {items : List α} :
    (vec c).Valid items ↔ items.length < 2 ^ 32 ∧ ∀ a ∈ items, c.Valid a :=
  and_congr_left' uint_valid_iff

/-- An enumeration. -/
def enum (kind : α → ℕ) (kinds : List (Codec UInt8 α)) (h : Codec.Numbered kind 0 kinds) :
    Codec UInt8 α :=
  .union (uint 1) kind kinds h

/-- A value of an enumeration can be written when what its variant carries can be written. -/
theorem enum_valid_iff {kind : α → ℕ} {kinds : List (Codec UInt8 α)}
    {h : Codec.Numbered kind 0 kinds} {a : α} {c : Codec UInt8 α} (hc : kinds[kind a]? = some c)
    (hkinds : kinds.length ≤ 256) : (enum kind kinds h).Valid a ↔ c.Valid a := by
  have hkind : kind a < 256 := lt_of_lt_of_le (List.getElem?_eq_some_iff.mp hc).1 hkinds
  constructor
  · rintro ⟨-, c', hc', ha⟩
    obtain rfl := Option.some.inj (hc.symm.trans hc')
    exact ha
  · exact fun ha => ⟨uint_valid_iff.mpr hkind, c, hc, ha⟩

theorem enum_valid {kind : α → ℕ} {kinds : List (Codec UInt8 α)}
    {h : Codec.Numbered kind 0 kinds} {a : α} {c : Codec UInt8 α} (hc : kinds[kind a]? = some c)
    (hkinds : kinds.length ≤ 256) (ha : c.Valid a) : (enum kind kinds h).Valid a :=
  (enum_valid_iff hc hkinds).mpr ha

/-- `bool` -/
def bool : Codec UInt8 Bool :=
  enum Bool.toNat [.const false, .const true] (.const rfl (.const rfl (.nil _ _)))

@[simp] theorem bool_valid (b : Bool) : bool.Valid b := by
  cases b with
  | false => exact enum_valid rfl (by decide) rfl
  | true => exact enum_valid rfl (by decide) rfl

/-- `Option` -/
def option (c : Codec UInt8 α) : Codec UInt8 (Option α) :=
  enum (fun o => o.isSome.toNat) [.const none, c.variant some fun | some a => some a | none => none]
    (.const rfl (.variant (fun _ => rfl) (.nil _ _)))

theorem option_valid_iff {c : Codec UInt8 α} {o : Option α} :
    (option c).Valid o ↔ ∀ a ∈ o, c.Valid a := by
  have hkinds : 2 ≤ 256 := by decide
  cases o with
  | none =>
    have hnone : (option c).Valid none := enum_valid rfl hkinds rfl
    exact iff_of_true hnone fun a ha => by cases ha
  | some a =>
    have hsome : (option c).Valid (some a) ↔ _ := enum_valid_iff rfl hkinds
    refine Iff.trans hsome (Iff.trans (Codec.variant_valid_iff rfl) ?_)
    simp

end Biscuit.Borsh
