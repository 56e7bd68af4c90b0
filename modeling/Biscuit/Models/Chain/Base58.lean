import Biscuit.Core.Radix
import Biscuit.Models.Chain.Keys

/-!
# Addresses and signatures as texts

`Display` writes an address or a signature in Base58, and `FromStr` reads it back: at most
so many characters, which stand for exactly so many bytes. Texts are lists of characters.
-/

namespace Biscuit

/-- A text, character by character. -/
abbrev Text := List Char

/-- The digits of Base58. -/
def base58Alphabet : Text := "123456789ABCDEFGHJKLMNPQRSTUVWXYZabcdefghijkmnopqrstuvwxyz".toList

/-- The character of a digit. -/
def base58Char (d : ℕ) : Char := base58Alphabet.getD d '1'

/-- The digit of a character, if it is one. -/
def base58Digit (c : Char) : Option ℕ := base58Alphabet.findIdx? (· == c)

/-- `bs58::encode` -/
def base58Encode (bytes : List ℕ) : Text := (recode 256 58 bytes).map base58Char

/-- `bs58::decode` -/
def base58Decode (text : Text) : Option (List ℕ) := (text.mapM base58Digit).map (recode 58 256)

/-- The text of a number of so many bytes. -/
def toBase58 (width n : ℕ) : Text := base58Encode (fixedDigits 256 width n)

/-- The number that a text stands for, if it has so many characters at most and stands for
so many bytes. -/
def ofBase58 (width maxLength : ℕ) (text : Text) : Option ℕ :=
  if maxLength < text.length then none
  else
    match base58Decode text with
    | none => none
    | some bytes => if bytes.length = width then some (digitsValue 256 bytes) else none

/-- The characters of the digits are different. -/
theorem base58Digit_char : ∀ d < 58, base58Digit (base58Char d) = some d := by decide

theorem isAlphanum_base58Char : ∀ d < 58, (base58Char d).isAlphanum = true := by decide

theorem mapM_base58Digit {ds : List ℕ} (hds : ∀ d ∈ ds, d < 58) :
    (ds.map base58Char).mapM base58Digit = some ds := by
  induction ds with
  | nil => rfl
  | cons d ds ih =>
    rw [List.map_cons, List.mapM_cons, base58Digit_char d (hds d List.mem_cons_self),
      ih fun e he => hds e (List.mem_cons_of_mem d he)]
    rfl

/-- What is encoded decodes to the same bytes, leading zeros included. -/
theorem base58Decode_encode {bytes : List ℕ} (hbytes : ∀ d ∈ bytes, d < 256) :
    base58Decode (base58Encode bytes) = some bytes := by
  rw [base58Decode, base58Encode, mapM_base58Digit fun d hd => lt_of_mem_recode (by decide) hd,
    Option.map_some, recode_recode 58 (by decide) hbytes]

/-- The text of a number is read back as that number. -/
theorem ofBase58_toBase58 {width maxLength n : ℕ} (hn : n < 256 ^ width)
    (hle : width ≤ maxLength) (hpow : 256 ^ width ≤ 58 ^ maxLength) :
    ofBase58 width maxLength (toBase58 width n) = some n := by
  have hlength : (fixedDigits 256 width n).length = width := length_fixedDigits (by decide) hn
  have hbytes : ∀ d ∈ fixedDigits 256 width n, d < 256 := fun d hd =>
    lt_of_mem_fixedDigits (by decide) hd
  have hshort : (toBase58 width n).length ≤ maxLength := by
    rw [toBase58, base58Encode, List.length_map]
    exact length_recode_le (by decide) (by decide) hbytes (hlength.trans_le hle)
      (by rw [hlength]; exact hpow)
  rw [ofBase58, if_neg (Nat.not_lt.mpr hshort), toBase58, base58Decode_encode hbytes]
  simp only [hlength, if_true, digitsValue_fixedDigits]

/-! ## Addresses and signatures -/

/-- `Pubkey::to_string` -/
def Pubkey.toText (key : Pubkey) : Text := toBase58 32 key.toNat

/-- `Pubkey::from_str` -/
def Pubkey.ofText (text : Text) : Option Pubkey := (ofBase58 32 44 text).map (BitVec.ofNat 256)

/-- `Signature::to_string` -/
def Signature.toText (signature : Signature) : Text := toBase58 64 signature.toNat

/-- `Signature::from_str` -/
def Signature.ofText (text : Text) : Option Signature :=
  (ofBase58 64 88 text).map (BitVec.ofNat 512)

/-- An address is read back from its text. -/
theorem Pubkey.ofText_toText (key : Pubkey) : Pubkey.ofText (Pubkey.toText key) = some key := by
  rw [ofText, toText, ofBase58_toBase58 key.isLt (by decide) (by norm_num), Option.map_some,
    BitVec.ofNat_toNat, BitVec.setWidth_eq]

/-- A signature is read back from its text. -/
theorem Signature.ofText_toText (signature : Signature) :
    Signature.ofText (Signature.toText signature) = some signature := by
  have hwidth : (256 : ℕ) ^ 64 = 2 ^ 512 := by rw [show (256 : ℕ) = 2 ^ 8 from rfl, ← pow_mul]
  have hlt := signature.isLt.trans_eq hwidth.symm
  rw [ofText, toText, ofBase58_toBase58 hlt (by decide) (by norm_num), Option.map_some,
    BitVec.ofNat_toNat, BitVec.setWidth_eq]

/-- The text of an address has letters and digits only. -/
theorem Pubkey.isAlphanum_of_mem_toText {key : Pubkey} {c : Char} (hc : c ∈ Pubkey.toText key) :
    c.isAlphanum = true := by
  obtain ⟨d, hd, rfl⟩ := List.mem_map.mp hc
  exact isAlphanum_base58Char d (lt_of_mem_recode (by decide) hd)

/-- Different addresses have different texts. -/
theorem Pubkey.toText_injective : Function.Injective Pubkey.toText := by
  intro a b h
  have ha := Pubkey.ofText_toText a
  rw [h, Pubkey.ofText_toText] at ha
  exact (Option.some.inj ha).symm

example : Pubkey.toText SOL = "So11111111111111111111111111111111111111112".toList := by
  decide +kernel

end Biscuit
