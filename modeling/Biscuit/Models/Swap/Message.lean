import Biscuit.Models.Parser.Transaction
import Mathlib.Data.List.Basic

/-!
# The price in a message

A built message asks for a price per compute unit with an instruction of the compute budget
program, and that price is rewritten before the message is sent. The loop that looks for the
instruction is there twice, for each kind of message. The format of the instructions belongs to
the SDK: it enters as a pair of functions with their law, and borsh is an instance.
-/

namespace Biscuit

/-- When what a first replacement makes is replaced again like the original, the second one is the
only one that counts. -/
theorem replaceF_replaceF {α : Type*} {f g : α → Option α} (hnone : ∀ a, f a = none → g a = none)
    (hsome : ∀ a a', f a = some a' → ∃ b, g a' = some b ∧ g a = some b) (items : List α) :
    (items.replaceF f).replaceF g = items.replaceF g := by
  induction items with
  | nil => rfl
  | cons a items ih =>
    cases hf : f a with
    | none =>
      rw [List.replaceF_cons_of_none f hf, List.replaceF_cons_of_none g (hnone a hf),
        List.replaceF_cons_of_none g (hnone a hf), ih]
    | some a' =>
      obtain ⟨b, hb', hb⟩ := hsome a a' hf
      rw [List.replaceF_cons_of_some f hf, List.replaceF_cons_of_some g hb',
        List.replaceF_cons_of_some g hb]

namespace Swap

open Biscuit.Parser (Bytes CompiledInstruction natOfBytes readBytes)

/-! ## Instructions of the compute budget program -/

/-- `ComputeBudget111111111111111111111111111111` -/
def computeBudgetId : Pubkey :=
  0x0306466fe5211732ffecadba72c39be7bc8ce5bbc5f7126b2c439b3a40000000#256

/-- `ComputeBudgetInstruction` -/
inductive ComputeBudgetInstruction
  | unused
  | requestHeapFrame (bytes : UInt32)
  | setComputeUnitLimit (units : UInt32)
  | setComputeUnitPrice (microLamports : UInt64)
  | setLoadedAccountsDataSizeLimit (bytes : UInt32)
  deriving DecidableEq, Repr

/-- How these instructions are written: what was written is read back, whatever follows it. -/
structure BudgetCodec where
  /-- `try_from_slice_unchecked` -/
  decode : Bytes → Option ComputeBudgetInstruction
  /-- `to_vec` -/
  encode : ComputeBudgetInstruction → Bytes
  decode_encode : ∀ ix rest, decode (encode ix ++ rest) = some ix

/-! ## Messages -/

/-- `MessageHeader` -/
structure MessageHeader where
  numRequiredSignatures : UInt8
  numReadonlySignedAccounts : UInt8
  numReadonlyUnsignedAccounts : UInt8
  deriving DecidableEq, Repr

/-- `legacy::Message` -/
structure LegacyMessage where
  header : MessageHeader
  accountKeys : List Pubkey
  recentBlockhash : BitVec 256
  instructions : List CompiledInstruction
  deriving DecidableEq, Repr

/-- `MessageAddressTableLookup` -/
structure MessageAddressTableLookup where
  accountKey : Pubkey
  writableIndexes : Bytes
  readonlyIndexes : Bytes
  deriving DecidableEq, Repr

/-- `v0::Message` -/
structure V0Message where
  header : MessageHeader
  accountKeys : List Pubkey
  recentBlockhash : BitVec 256
  instructions : List CompiledInstruction
  addressTableLookups : List MessageAddressTableLookup
  deriving DecidableEq, Repr

/-- `VersionedMessage` -/
inductive VersionedMessage
  | legacy (message : LegacyMessage)
  | v0 (message : V0Message)
  deriving DecidableEq, Repr

namespace LegacyMessage

/-- The loop over the instructions, which ends at the first price. -/
def modifyInstructions (codec : BudgetCodec) (accountKeys : List Pubkey) (updatedCuPrice : UInt64) :
    List CompiledInstruction → Outcome Empty (List CompiledInstruction)
  | [] => .ok []
  | instruction :: instructions =>
    match accountKeys[instruction.programIdIndex.toNat]? with
    | none => .panic
    | some programId =>
      if programId = computeBudgetId then
        match codec.decode instruction.data with
        | some (.setComputeUnitPrice _) =>
          let updatedData := codec.encode (.setComputeUnitPrice updatedCuPrice)
          .ok ({ instruction with data := updatedData } :: instructions)
        | _ => do
          let rest ← modifyInstructions codec accountKeys updatedCuPrice instructions
          .ok (instruction :: rest)
      else do
        let rest ← modifyInstructions codec accountKeys updatedCuPrice instructions
        .ok (instruction :: rest)

/-- `modify_compute_unit_price` of a legacy message. -/
def modifyComputeUnitPrice (codec : BudgetCodec) (message : LegacyMessage)
    (updatedCuPrice : UInt64) : Outcome Empty LegacyMessage := do
  let instructions ←
    modifyInstructions codec message.accountKeys updatedCuPrice message.instructions
  .ok { message with instructions }

end LegacyMessage

namespace V0Message

/-- The loop once more, for the other kind of message. -/
def modifyInstructions (codec : BudgetCodec) (accountKeys : List Pubkey) (updatedCuPrice : UInt64) :
    List CompiledInstruction → Outcome Empty (List CompiledInstruction)
  | [] => .ok []
  | instruction :: instructions =>
    match accountKeys[instruction.programIdIndex.toNat]? with
    | none => .panic
    | some programId =>
      if programId = computeBudgetId then
        match codec.decode instruction.data with
        | some (.setComputeUnitPrice _) =>
          let updatedData := codec.encode (.setComputeUnitPrice updatedCuPrice)
          .ok ({ instruction with data := updatedData } :: instructions)
        | _ => do
          let rest ← modifyInstructions codec accountKeys updatedCuPrice instructions
          .ok (instruction :: rest)
      else do
        let rest ← modifyInstructions codec accountKeys updatedCuPrice instructions
        .ok (instruction :: rest)

/-- `modify_compute_unit_price` of a v0 message. -/
def modifyComputeUnitPrice (codec : BudgetCodec) (message : V0Message)
    (updatedCuPrice : UInt64) : Outcome Empty V0Message := do
  let instructions ←
    modifyInstructions codec message.accountKeys updatedCuPrice message.instructions
  .ok { message with instructions }

end V0Message

namespace VersionedMessage

def instructions : VersionedMessage → List CompiledInstruction
  | legacy message => message.instructions
  | v0 message => message.instructions

def staticAccountKeys : VersionedMessage → List Pubkey
  | legacy message => message.accountKeys
  | v0 message => message.accountKeys

/-- The same message with other instructions. -/
def withInstructions (instructions : List CompiledInstruction) :
    VersionedMessage → VersionedMessage
  | legacy message => legacy { message with instructions }
  | v0 message => v0 { message with instructions }

/-- `modify_compute_unit_price`, by the kind of the message. -/
def modifyComputeUnitPrice (codec : BudgetCodec) (message : VersionedMessage)
    (updatedCuPrice : UInt64) : Outcome Empty VersionedMessage :=
  match message with
  | legacy message => do
    let message ← message.modifyComputeUnitPrice codec updatedCuPrice
    .ok (legacy message)
  | v0 message => do
    let message ← message.modifyComputeUnitPrice codec updatedCuPrice
    .ok (v0 message)

end VersionedMessage

/-! ## One instruction is rewritten -/

/-- The instruction sets the price, as the compute budget program reads it. -/
def SetsPrice (codec : BudgetCodec) (accountKeys : List Pubkey) (ix : CompiledInstruction) :
    Prop :=
  accountKeys[ix.programIdIndex.toNat]? = some computeBudgetId ∧
    ∃ price, codec.decode ix.data = some (.setComputeUnitPrice price)

/-- What a new price changes in a list of instructions. -/
inductive EditsPrice (codec : BudgetCodec) (accountKeys : List Pubkey) (price : UInt64) :
    List CompiledInstruction → List CompiledInstruction → Prop
  /-- No instruction sets a price, and none is changed. -/
  | absent (ixs : List CompiledInstruction) (h : ∀ ix ∈ ixs, ¬ SetsPrice codec accountKeys ix) :
      EditsPrice codec accountKeys price ixs ixs
  /-- The first one that does gets data that sets the new price. -/
  | first (front : List CompiledInstruction) (ix : CompiledInstruction)
      (rest : List CompiledInstruction) (data : Bytes)
      (hfront : ∀ jx ∈ front, ¬ SetsPrice codec accountKeys jx)
      (hix : SetsPrice codec accountKeys ix)
      (hdata : codec.decode data = some (.setComputeUnitPrice price)) :
      EditsPrice codec accountKeys price (front ++ ix :: rest) (front ++ { ix with data } :: rest)

section Edit

variable (codec : BudgetCodec) (accountKeys : List Pubkey)

/-- The instruction with the new price, if it sets one. -/
def repriced (price : UInt64) (ix : CompiledInstruction) : Option CompiledInstruction :=
  if accountKeys[ix.programIdIndex.toNat]? = some computeBudgetId then
    match codec.decode ix.data with
    | some (.setComputeUnitPrice _) =>
      some { ix with data := codec.encode (.setComputeUnitPrice price) }
    | _ => none
  else none

variable {codec accountKeys}

theorem repriced_of_setsPrice {ix : CompiledInstruction} (h : SetsPrice codec accountKeys ix)
    (price : UInt64) :
    repriced codec accountKeys price ix =
      some { ix with data := codec.encode (.setComputeUnitPrice price) } := by
  obtain ⟨hkey, old, hold⟩ := h
  rw [repriced, if_pos hkey, hold]

theorem repriced_of_not {ix : CompiledInstruction} (h : ¬ SetsPrice codec accountKeys ix)
    (price : UInt64) : repriced codec accountKeys price ix = none := by
  unfold repriced
  split_ifs with hkey
  · split
    · rename_i old hold
      exact absurd ⟨hkey, old, hold⟩ h
    · rfl
  · rfl

theorem repriced_eq_none_iff {price : UInt64} {ix : CompiledInstruction} :
    repriced codec accountKeys price ix = none ↔ ¬ SetsPrice codec accountKeys ix := by
  refine ⟨fun hnone h => ?_, fun h => repriced_of_not h price⟩
  rw [repriced_of_setsPrice h] at hnone
  cases hnone

/-- What is written is read back. -/
theorem decode_encode_self (codec : BudgetCodec) (ix : ComputeBudgetInstruction) :
    codec.decode (codec.encode ix) = some ix := by
  have h := codec.decode_encode ix []
  rwa [List.append_nil] at h

/-- An instruction with a new price still sets one. -/
theorem SetsPrice.repriced {ix : CompiledInstruction} (h : SetsPrice codec accountKeys ix)
    (price : UInt64) :
    SetsPrice codec accountKeys
      { ix with data := codec.encode (.setComputeUnitPrice price) } :=
  ⟨h.1, price, decode_encode_self codec _⟩

/-- Replacing the first price is such a change. -/
theorem editsPrice_replaceF (price : UInt64) (ixs : List CompiledInstruction) :
    EditsPrice codec accountKeys price ixs (ixs.replaceF (repriced codec accountKeys price)) := by
  by_cases h : ∃ ix ∈ ixs, SetsPrice codec accountKeys ix
  · obtain ⟨ix, hmem, hix⟩ := h
    obtain ⟨jx, jx', front, rest, hfront, hjx, hsplit, hreplaced⟩ :=
      List.exists_of_replaceF hmem (repriced_of_setsPrice hix price)
    have hsets : SetsPrice codec accountKeys jx := by
      by_contra hnot
      rw [repriced_of_not hnot] at hjx
      cases hjx
    rw [repriced_of_setsPrice hsets, Option.some.injEq] at hjx
    rw [hreplaced, hsplit, ← hjx]
    exact .first front jx rest _ (fun kx hkx => repriced_eq_none_iff.mp (hfront kx hkx)) hsets
      (decode_encode_self codec _)
  · have hnone : ∀ ix ∈ ixs, ¬ SetsPrice codec accountKeys ix :=
      fun ix hix hsets => h ⟨ix, hix, hsets⟩
    rw [List.replaceF_of_forall_none fun ix hix => repriced_of_not (hnone ix hix) price]
    exact .absent ixs hnone

/-- The last of two prices counts. -/
theorem replaceF_repriced_twice (price price' : UInt64) (ixs : List CompiledInstruction) :
    (ixs.replaceF (repriced codec accountKeys price)).replaceF
        (repriced codec accountKeys price') =
      ixs.replaceF (repriced codec accountKeys price') := by
  apply replaceF_replaceF
  · intro ix hnone
    exact repriced_of_not (repriced_eq_none_iff.mp hnone) price'
  · intro ix ix' hsome
    have hsets : SetsPrice codec accountKeys ix := by
      by_contra hnot
      rw [repriced_of_not hnot] at hsome
      cases hsome
    rw [repriced_of_setsPrice hsets, Option.some.injEq] at hsome
    rw [← hsome, repriced_of_setsPrice (hsets.repriced price), repriced_of_setsPrice hsets]
    exact ⟨_, rfl, rfl⟩

/-- With all indices in range the loop replaces the first price. -/
theorem LegacyMessage.modifyInstructions_ok (price : UInt64) {ixs : List CompiledInstruction}
    (hkeys : ∀ ix ∈ ixs, ix.programIdIndex.toNat < accountKeys.length) :
    LegacyMessage.modifyInstructions codec accountKeys price ixs =
      .ok (ixs.replaceF (repriced codec accountKeys price)) := by
  induction ixs with
  | nil => rfl
  | cons ix ixs ih =>
    obtain ⟨hix, hrest⟩ := List.forall_mem_cons.mp hkeys
    have hkey : accountKeys[ix.programIdIndex.toNat]? =
        some accountKeys[ix.programIdIndex.toNat] := List.getElem?_eq_getElem hix
    by_cases hsets : SetsPrice codec accountKeys ix
    · obtain ⟨hid, old, hold⟩ := hsets
      rw [List.replaceF_cons_of_some _ (repriced_of_setsPrice ⟨hid, old, hold⟩ price)]
      simp only [modifyInstructions, hid, hold, if_true]
    · rw [List.replaceF_cons_of_none _ (repriced_of_not hsets price)]
      simp only [modifyInstructions, hkey, ih hrest, Outcome.ok_bind]
      split_ifs with hid
      · split
        · rename_i old hold
          exact absurd ⟨hkey.trans (congrArg some hid), old, hold⟩ hsets
        · rfl
      · rfl

/-- Both loops are one. -/
theorem V0Message.modifyInstructions_eq (price : UInt64) (ixs : List CompiledInstruction) :
    V0Message.modifyInstructions codec accountKeys price ixs =
      LegacyMessage.modifyInstructions codec accountKeys price ixs := by
  induction ixs with
  | nil => rfl
  | cons ix ixs ih => rw [modifyInstructions, LegacyMessage.modifyInstructions, ih]

end Edit

namespace VersionedMessage

/-- The indices of all instructions point into the static keys. -/
def KeysInRange (message : VersionedMessage) : Prop :=
  ∀ ix ∈ message.instructions, ix.programIdIndex.toNat < message.staticAccountKeys.length

instance (message : VersionedMessage) : Decidable message.KeysInRange :=
  inferInstanceAs (Decidable (∀ ix ∈ message.instructions, _))

/-- The kind of a message makes no difference to its instructions. -/
theorem modifyComputeUnitPrice_ok (codec : BudgetCodec) (price : UInt64)
    {message : VersionedMessage} (hkeys : message.KeysInRange) :
    message.modifyComputeUnitPrice codec price =
      .ok (message.withInstructions
        (message.instructions.replaceF (repriced codec message.staticAccountKeys price))) := by
  cases message with
  | legacy message =>
    have hloop : LegacyMessage.modifyInstructions codec message.accountKeys price
        message.instructions = _ := LegacyMessage.modifyInstructions_ok price hkeys
    simp only [modifyComputeUnitPrice, LegacyMessage.modifyComputeUnitPrice, hloop,
      Outcome.ok_bind]
    rfl
  | v0 message =>
    have hloop : LegacyMessage.modifyInstructions codec message.accountKeys price
        message.instructions = _ := LegacyMessage.modifyInstructions_ok price hkeys
    simp only [modifyComputeUnitPrice, V0Message.modifyComputeUnitPrice,
      V0Message.modifyInstructions_eq, hloop, Outcome.ok_bind]
    rfl

@[simp] theorem instructions_withInstructions (ixs : List CompiledInstruction)
    (message : VersionedMessage) : (message.withInstructions ixs).instructions = ixs := by
  cases message <;> rfl

@[simp] theorem staticAccountKeys_withInstructions (ixs : List CompiledInstruction)
    (message : VersionedMessage) :
    (message.withInstructions ixs).staticAccountKeys = message.staticAccountKeys := by
  cases message <;> rfl

@[simp] theorem withInstructions_withInstructions (ixs jxs : List CompiledInstruction)
    (message : VersionedMessage) :
    (message.withInstructions ixs).withInstructions jxs = message.withInstructions jxs := by
  cases message <;> rfl

/-- A new price leaves the indices in range. -/
theorem KeysInRange.reprice {codec : BudgetCodec} {message : VersionedMessage}
    (h : message.KeysInRange) (price : UInt64) :
    (message.withInstructions
      (message.instructions.replaceF
        (repriced codec message.staticAccountKeys price))).KeysInRange := by
  have hedit : EditsPrice codec message.staticAccountKeys price message.instructions
      (message.instructions.replaceF (repriced codec message.staticAccountKeys price)) :=
    editsPrice_replaceF price message.instructions
  unfold KeysInRange at h ⊢
  rw [instructions_withInstructions, staticAccountKeys_withInstructions]
  generalize message.instructions = before at h hedit ⊢
  generalize before.replaceF _ = after at hedit ⊢
  cases hedit with
  | absent _ hnone => exact h
  | first front ix rest data hfront hix hdata =>
    rw [List.forall_mem_append, List.forall_mem_cons] at h ⊢
    exact h

/-- Rewriting the price of a message changes the data of the first instruction that sets one and
nothing else; of two prices the last one counts, and two messages with the same keys and
instructions stay alike, whichever kind they are of. -/
theorem modifyComputeUnitPrice_edits (codec : BudgetCodec) {message : VersionedMessage}
    (hkeys : message.KeysInRange) (price price' : UInt64) :
    (∃ ixs, message.modifyComputeUnitPrice codec price = .ok (message.withInstructions ixs) ∧
      EditsPrice codec message.staticAccountKeys price message.instructions ixs ∧
      ∀ other : VersionedMessage, other.staticAccountKeys = message.staticAccountKeys →
        other.instructions = message.instructions →
        other.modifyComputeUnitPrice codec price = .ok (other.withInstructions ixs)) ∧
    (message.modifyComputeUnitPrice codec price >>= fun m =>
        m.modifyComputeUnitPrice codec price') =
      message.modifyComputeUnitPrice codec price' := by
  constructor
  · refine ⟨_, modifyComputeUnitPrice_ok codec price hkeys, editsPrice_replaceF price _, ?_⟩
    intro other hothers hixs
    have hother : other.KeysInRange := by
      unfold KeysInRange
      rw [hothers, hixs]
      exact hkeys
    rw [modifyComputeUnitPrice_ok codec price hother, hothers, hixs]
  · rw [modifyComputeUnitPrice_ok codec price hkeys, Outcome.ok_bind,
      modifyComputeUnitPrice_ok codec price' (hkeys.reprice price),
      modifyComputeUnitPrice_ok codec price' hkeys]
    simp only [instructions_withInstructions, staticAccountKeys_withInstructions,
      withInstructions_withInstructions, replaceF_repriced_twice]

end VersionedMessage

/-! ## Borsh -/

/-- So many bytes of a number, least significant first. -/
def bytesOfNat : ℕ → ℕ → Bytes
  | 0, _ => []
  | width + 1, n => UInt8.ofNat n :: bytesOfNat width (n / 256)

@[simp] theorem length_bytesOfNat (width n : ℕ) : (bytesOfNat width n).length = width := by
  induction width generalizing n with
  | zero => rfl
  | succ width ih => rw [bytesOfNat, List.length_cons, ih]

theorem natOfBytes_bytesOfNat (width n : ℕ) :
    natOfBytes (bytesOfNat width n) = n % 256 ^ width := by
  induction width generalizing n with
  | zero => rw [Nat.pow_zero, Nat.mod_one]; rfl
  | succ width ih =>
    have hcons : natOfBytes (bytesOfNat (width + 1) n) =
        n % 256 + 256 * natOfBytes (bytesOfNat width (n / 256)) := by
      rw [natOfBytes, bytesOfNat, List.map_cons, Nat.ofDigits_cons, UInt8.toNat_ofNat']
      rfl
    rw [hcons, ih, Nat.pow_succ, Nat.mul_comm (256 ^ width), Nat.mod_mul]

/-- A word of so many bytes, whatever follows it. -/
def readWord (width : ℕ) (bytes : Bytes) : Option ℕ :=
  (readBytes width bytes).map fun r => natOfBytes r.1

theorem readWord_bytesOfNat {width n : ℕ} (h : n < 256 ^ width) (rest : Bytes) :
    readWord width (bytesOfNat width n ++ rest) = some n := by
  have hlen : width ≤ (bytesOfNat width n ++ rest).length := by
    rw [List.length_append, length_bytesOfNat]
    exact Nat.le_add_right _ _
  rw [readWord, readBytes, if_pos hlen, Option.map_some,
    List.take_left' (length_bytesOfNat width n), natOfBytes_bytesOfNat, Nat.mod_eq_of_lt h]

def readUInt32 (bytes : Bytes) : Option UInt32 := (readWord 4 bytes).map UInt32.ofNat

def readUInt64 (bytes : Bytes) : Option UInt64 := (readWord 8 bytes).map UInt64.ofNat

theorem readUInt32_bytesOfNat (n : UInt32) (rest : Bytes) :
    readUInt32 (bytesOfNat 4 n.toNat ++ rest) = some n := by
  have hlt : n.toNat < 256 ^ 4 := n.toNat_lt
  rw [readUInt32, readWord_bytesOfNat hlt, Option.map_some, UInt32.ofNat_toNat]

theorem readUInt64_bytesOfNat (n : UInt64) (rest : Bytes) :
    readUInt64 (bytesOfNat 8 n.toNat ++ rest) = some n := by
  have hlt : n.toNat < 256 ^ 8 := n.toNat_lt
  rw [readUInt64, readWord_bytesOfNat hlt, Option.map_some, UInt64.ofNat_toNat]

/-- The number of the variant in a byte, and its field. -/
def borshCodec : BudgetCodec where
  decode
    | 0 :: _ => some .unused
    | 1 :: rest => (readUInt32 rest).map .requestHeapFrame
    | 2 :: rest => (readUInt32 rest).map .setComputeUnitLimit
    | 3 :: rest => (readUInt64 rest).map .setComputeUnitPrice
    | 4 :: rest => (readUInt32 rest).map .setLoadedAccountsDataSizeLimit
    | _ => none
  encode
    | .unused => [0]
    | .requestHeapFrame bytes => 1 :: bytesOfNat 4 bytes.toNat
    | .setComputeUnitLimit units => 2 :: bytesOfNat 4 units.toNat
    | .setComputeUnitPrice microLamports => 3 :: bytesOfNat 8 microLamports.toNat
    | .setLoadedAccountsDataSizeLimit bytes => 4 :: bytesOfNat 4 bytes.toNat
  decode_encode ix rest := by
    cases ix with
    | unused => rfl
    | requestHeapFrame bytes =>
      simp only [List.cons_append, readUInt32_bytesOfNat, Option.map_some]
    | setComputeUnitLimit units =>
      simp only [List.cons_append, readUInt32_bytesOfNat, Option.map_some]
    | setComputeUnitPrice microLamports =>
      simp only [List.cons_append, readUInt64_bytesOfNat, Option.map_some]
    | setLoadedAccountsDataSizeLimit bytes =>
      simp only [List.cons_append, readUInt32_bytesOfNat, Option.map_some]

/-- A message whose first instruction looks like a price, of another program; the second sets a
limit, and the third a price, with a byte too many. -/
def sampleMessage : VersionedMessage :=
  .legacy
    { header := ⟨1, 0, 1⟩
      accountKeys := [SOL, computeBudgetId]
      recentBlockhash := 0
      instructions :=
        [⟨0, [], borshCodec.encode (.setComputeUnitPrice 9)⟩,
          ⟨1, [], borshCodec.encode (.setComputeUnitLimit 200000)⟩,
          ⟨1, [], borshCodec.encode (.setComputeUnitPrice 1) ++ [0]⟩] }

theorem modifyComputeUnitPrice_edits_sample :
    ∃ ixs, sampleMessage.modifyComputeUnitPrice borshCodec 5 =
        .ok (sampleMessage.withInstructions ixs) ∧
      EditsPrice borshCodec [SOL, computeBudgetId] 5 sampleMessage.instructions ixs :=
  have hkeys : sampleMessage.KeysInRange := by decide
  have ⟨ixs, hok, hedits, _⟩ :=
    (VersionedMessage.modifyComputeUnitPrice_edits borshCodec hkeys 5 7).1
  ⟨ixs, hok, hedits⟩

end Swap

end Biscuit
