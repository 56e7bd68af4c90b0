import Biscuit.Models.Copy.Intake
import Biscuit.Models.Swap.Message

/-!
# Two sources of one transaction

A transaction comes from a node in the encoding of its requests, or from the stream in its own
one, and each source has a conversion. Data that is no text is written in Base58 on the way. Both
conversions find the transaction that was executed, and the parser is given its keys and its inner
instructions whichever source it came from.
-/

namespace Biscuit.Copy

open Biscuit.Parser (Bytes CompiledInstruction FetchedAccount ITransaction LoadedAddresses
  MessageAddressTableLookup TokenBalances UiLoadedAddresses)
open Biscuit.Swap (VersionedMessage)

/-! ## Executed transactions -/

/-- `VersionedTransaction` -/
structure VersionedTransaction where
  signatures : List Signature
  message : VersionedMessage
  deriving DecidableEq, Repr

/-- `recent_blockhash` -/
def recentBlockhash : VersionedMessage → BitVec 256
  | .legacy message => message.recentBlockhash
  | .v0 message => message.recentBlockhash

/-- `address_table_lookups`, none for a legacy message. -/
def addressTableLookups : VersionedMessage → List MessageAddressTableLookup
  | .legacy _ => []
  | .v0 message => message.addressTableLookups.map fun l =>
      ⟨l.accountKey, l.writableIndexes, l.readonlyIndexes⟩

/-- `InnerInstructions` -/
structure InnerInstructions where
  index : UInt8
  instructions : List CompiledInstruction
  deriving DecidableEq, Repr

/-- `TransactionStatusMeta`: what the runtime records of an execution. -/
structure TransactionStatusMeta where
  err : Option TransactionError
  logMessages : Option (List Text)
  preBalances : List ℕ
  postBalances : List ℕ
  tokenBalances : TokenBalances
  innerInstructions : Option (List InnerInstructions)
  loadedAddresses : LoadedAddresses
  computeUnitsConsumed : Option ℕ

/-! ## The encoding of a node -/

/-- `UiInstruction`; a parsed one is of no use here. -/
inductive UiInstruction
  | compiled (programIdIndex : UInt8) (accounts : Bytes) (data : Text)
  | parsed
  deriving DecidableEq, Repr

/-- `UiInnerInstructions` -/
structure UiInnerInstructions where
  index : UInt8
  instructions : List UiInstruction
  deriving DecidableEq, Repr

/-- `UiTransactionStatusMeta` with all that is converted. -/
structure EncodedMeta extends TransactionMeta where
  err : Option TransactionError
  innerInstructions : Option (List UiInnerInstructions)
  computeUnitsConsumed : Option ℕ

/-- The text of the data of an instruction. -/
def dataText (data : Bytes) : Text := base58Encode (data.map UInt8.toNat)

/-- The instruction as the SDK writes it. -/
def UiInstruction.of (ix : CompiledInstruction) : UiInstruction :=
  .compiled ix.programIdIndex ix.accounts (dataText ix.data)

/-- What the SDK makes of a record. -/
def EncodedMeta.of (m : TransactionStatusMeta) : EncodedMeta where
  logMessages := m.logMessages
  preBalances := m.preBalances
  postBalances := m.postBalances
  tokenBalances := m.tokenBalances
  loadedAddresses := some (UiLoadedAddresses.of m.loadedAddresses)
  err := m.err
  innerInstructions := m.innerInstructions.map (List.map fun inner =>
    ⟨inner.index, inner.instructions.map UiInstruction.of⟩)
  computeUnitsConsumed := m.computeUnitsConsumed

/-- A node has encoded the record that the stream carries. Each field is relied on: what one source
says of a balance of zero, say, need not be what the other one says. -/
structure EncodedMeta.Encodes (encoded : EncodedMeta) (m : TransactionStatusMeta) : Prop where
  logMessages : encoded.logMessages = m.logMessages
  preBalances : encoded.preBalances = m.preBalances
  postBalances : encoded.postBalances = m.postBalances
  tokenBalances : encoded.tokenBalances = m.tokenBalances
  loadedAddresses : encoded.loadedAddresses = some (UiLoadedAddresses.of m.loadedAddresses)
  err : encoded.err = m.err
  innerInstructions : encoded.innerInstructions = m.innerInstructions.map (List.map fun inner =>
    ⟨inner.index, inner.instructions.map UiInstruction.of⟩)
  computeUnitsConsumed : encoded.computeUnitsConsumed = m.computeUnitsConsumed

/-- What the SDK makes of a record encodes it, -/
theorem EncodedMeta.encodes_of (m : TransactionStatusMeta) : (of m).Encodes m :=
  ⟨rfl, rfl, rfl, rfl, rfl, rfl, rfl, rfl⟩

/-- and nothing else does. -/
theorem EncodedMeta.Encodes.eq_of {encoded : EncodedMeta} {m : TransactionStatusMeta}
    (h : encoded.Encodes m) : encoded = of m := by
  obtain ⟨⟨_, _, _, _, _⟩, _, _, _⟩ := encoded
  obtain ⟨rfl, rfl, rfl, rfl, rfl, rfl, rfl, rfl⟩ := h
  rfl

theorem EncodedMeta.eq_map_of {encoded : Option EncodedMeta}
    {recorded : Option TransactionStatusMeta} (h : Option.Rel Encodes encoded recorded) :
    encoded = recorded.map of := by
  cases h with
  | none => rfl
  | some h => exact congrArg some h.eq_of

/-! ## Inner instructions -/

variable {ε : Type}

/-- `bs58::decode(&ix.data).into_vec()` -/
def dataOfText (text : Text) : Option Bytes := (base58Decode text).map (List.map UInt8.ofNat)

/-- The instruction that is kept of an encoded one. -/
def UiInstruction.compile : UiInstruction → Outcome ε (Option CompiledInstruction)
  | .compiled programIdIndex accounts data => do
    let data ← .unwrap (dataOfText data)
    pure (some ⟨programIdIndex, accounts, data⟩)
  | .parsed => pure none

/-- `extract_compiled_inner_instructions` -/
def EncodedMeta.extractCompiledInnerInstructions (m : EncodedMeta) :
    Outcome ε (Option (Table UInt8 (List CompiledInstruction))) :=
  match m.innerInstructions with
  | none => pure none
  | some innerInstructions => do
    let entries ← innerInstructions.mapM fun inner => do
      let instructions ← inner.instructions.mapM UiInstruction.compile
      pure (inner.index, instructions.filterMap id)
    pure (some (Table.collect entries))

/-- The inner instructions of a record, if there is one. -/
def extractInner : Option EncodedMeta →
    Outcome ε (Option (Table UInt8 (List CompiledInstruction)))
  | some m => m.extractCompiledInnerInstructions
  | none => pure none

/-- The instructions that a record keeps under each index. -/
def TransactionStatusMeta.innerTable (m : TransactionStatusMeta) :
    Option (Table UInt8 (List CompiledInstruction)) :=
  m.innerInstructions.map fun inner => Table.collect (inner.map fun i => (i.index, i.instructions))

theorem dataOfText_dataText (data : Bytes) : dataOfText (dataText data) = some data := by
  have hbytes : ∀ d ∈ data.map UInt8.toNat, d < 256 := by
    intro d hd
    obtain ⟨byte, -, rfl⟩ := List.mem_map.mp hd
    exact byte.toNat_lt
  rw [dataOfText, dataText, base58Decode_encode hbytes, Option.map_some, List.map_map]
  congr 1
  apply List.map_id''
  intro byte
  exact UInt8.ofNat_toNat

theorem UiInstruction.compile_of (ix : CompiledInstruction) :
    (UiInstruction.of ix).compile = (.ok (some ix) : Outcome ε (Option CompiledInstruction)) := by
  simp only [UiInstruction.of, UiInstruction.compile, dataOfText_dataText, Outcome.unwrap_some,
    Outcome.ok_bind, Outcome.pure_eq]

/-- Items that are written one by one are read one by one. -/
theorem mapM_map_eq_ok {α β γ : Type} {f : β → Outcome ε γ} {g : α → β} {h : α → γ}
    (hread : ∀ a, f (g a) = .ok (h a)) (items : List α) :
    (items.map g).mapM f = .ok (items.map h) := by
  rw [Outcome.mapM_eq_ok, List.forall₂_map_left_iff, List.forall₂_map_right_iff, List.forall₂_same]
  exact fun a _ => hread a

/-- What the SDK writes of a record is read back, whatever bytes the instructions carry. -/
theorem extractCompiledInnerInstructions_of (m : TransactionStatusMeta) :
    (EncodedMeta.of m).extractCompiledInnerInstructions =
      (.ok m.innerTable : Outcome ε (Option (Table UInt8 (List CompiledInstruction)))) := by
  unfold EncodedMeta.extractCompiledInnerInstructions TransactionStatusMeta.innerTable
  simp only [EncodedMeta.of]
  cases m.innerInstructions with
  | none => rfl
  | some innerInstructions =>
    simp only [Option.map_some]
    rw [mapM_map_eq_ok (h := fun inner => (inner.index, inner.instructions))]
    · rfl
    · intro inner
      have hcompiled : (inner.instructions.map UiInstruction.of).mapM UiInstruction.compile =
          (.ok (inner.instructions.map some) : Outcome ε (List (Option CompiledInstruction))) :=
        mapM_map_eq_ok UiInstruction.compile_of _
      have hsome : (inner.instructions.map some).filterMap id = inner.instructions := by
        rw [List.filterMap_map]
        exact List.filterMap_some
      simp only [hcompiled, Outcome.ok_bind, Outcome.pure_eq, hsome]

theorem extractInner_of (recorded : Option TransactionStatusMeta) :
    extractInner (recorded.map EncodedMeta.of) =
      (.ok (recorded.bind (·.innerTable)) :
        Outcome ε (Option (Table UInt8 (List CompiledInstruction)))) := by
  cases recorded with
  | none => rfl
  | some m => exact extractCompiledInnerInstructions_of m

/-! ## The conversions -/

/-- `DEFAULT_INSTRUCTION_COMPUTE_UNIT_LIMIT` -/
def defaultInstructionComputeUnitLimit : ℕ := 200000

/-- `MAX_COMPUTE_UNIT_LIMIT` -/
def maxComputeUnitLimit : ℕ := 1400000

/-- `Vote111111111111111111111111111111111111111` -/
def voteProgramId : Pubkey :=
  0x0761481d357474bb7c4d7624ebd3bdb3d8355e73d11043fc0da3538000000000#256

/-- `PriorityDetails` -/
structure PriorityDetails where
  priorityFee : ℕ
  computeUnitLimit : ℕ
  computeUnitPrice : ℕ
  deriving DecidableEq, Repr

/-- What the conversions use of the SDK. The processor of the compute budget takes one instruction
after the other, and gives up at one that it does not accept. -/
structure TransactionLibrary where
  sanitize : VersionedTransaction → Bool
  isMaybeWritable : VersionedMessage → ℕ → Bool
  /-- The data is a simple vote. -/
  isSimpleVote : Bytes → Bool
  /-- The limit, where the data sets one. -/
  setComputeUnitLimit : Bytes → Option ℕ
  Budget : Type
  budget : Budget
  process : Budget → Pubkey → CompiledInstruction → Option Budget
  /-- The limit and the price. -/
  finish : Budget → Option (ℕ × ℕ)
  prioritizationFee : (computeUnitPrice computeUnitLimit : ℕ) → ℕ

variable (library : TransactionLibrary)

/-- The instructions go to the processor; the limit is followed beside it. -/
def processComputeBudgetInstructions (staticAccountKeys : List Pubkey) (computeUnitLimit : ℕ)
    (budget : library.Budget) : List CompiledInstruction → Outcome ε (ℕ × Option (ℕ × ℕ))
  | [] => pure (computeUnitLimit, library.finish budget)
  | ix :: instructions => do
    let computeUnitLimit := match library.setComputeUnitLimit ix.data with
      | some limit => min limit maxComputeUnitLimit
      | none => computeUnitLimit
    let programId ← Outcome.unwrap staticAccountKeys[ix.programIdIndex.toNat]?
    match library.process budget programId ix with
    | some budget =>
      processComputeBudgetInstructions staticAccountKeys computeUnitLimit budget instructions
    | none => pure (computeUnitLimit, none)

/-- `PriorityDetails::from_versioned_transaction` -/
def PriorityDetails.fromVersionedTransaction (transaction : VersionedTransaction) :
    Outcome ε PriorityDetails :=
  if library.sanitize transaction then do
    let (computeUnitLimit, computeLimits) ← processComputeBudgetInstructions library
      transaction.message.staticAccountKeys defaultInstructionComputeUnitLimit library.budget
      transaction.message.instructions
    match computeLimits with
    | some (limit, price) => pure ⟨library.prioritizationFee price limit, limit, price⟩
    | none => pure ⟨0, computeUnitLimit, 0⟩
  else pure ⟨0, defaultInstructionComputeUnitLimit, 0⟩

/-- An instruction of the transaction is a simple vote. -/
def hasSimpleVote (staticAccountKeys : List Pubkey) : List CompiledInstruction → Outcome ε Bool
  | [] => pure false
  | ix :: instructions => do
    let programId ← Outcome.unwrap staticAccountKeys[ix.programIdIndex.toNat]?
    if programId = voteProgramId ∧ library.isSimpleVote ix.data then pure true
    else hasSimpleVote staticAccountKeys instructions

/-- The static keys that the message may write to, or the others. -/
def accountsBy (message : VersionedMessage) (writable : Bool) : List Pubkey :=
  (message.staticAccountKeys.zipIdx.filter fun key =>
    library.isMaybeWritable message key.2 == writable).map Prod.fst

/-- `ITransaction` with all its fields. -/
structure ConvertedTransaction where
  signature : Signature
  message : VersionedMessage
  slot : ℕ
  loadedAddresses : Option LoadedAddresses
  statusMeta : Option EncodedMeta
  err : Option TransactionError
  priorityDetails : PriorityDetails
  computeUnitsConsumed : Option ℕ
  recentBlockhash : BitVec 256
  innerInstructions : Option (Table UInt8 (List CompiledInstruction))
  isVoteTransaction : Bool
  addressTableLookups : List MessageAddressTableLookup
  readableAccounts : List Pubkey
  writableAccounts : List Pubkey
  blockTime : Option ℤ

/-- `to_unified_transaction`, with the transaction that was decoded. -/
def toUnifiedTransaction (decoded : Option VersionedTransaction) (statusMeta : Option EncodedMeta)
    (slot : ℕ) (blockTime : Option ℤ) : Outcome Empty (Option ConvertedTransaction) :=
  match decoded with
  | none => pure none
  | some versionedTx => do
    let keys := versionedTx.message.staticAccountKeys
    let isVoteTransaction ← hasSimpleVote library keys versionedTx.message.instructions
    let priorityDetails ← PriorityDetails.fromVersionedTransaction library versionedTx
    let innerInstructions ← extractInner statusMeta
    let signature ← Outcome.unwrap versionedTx.signatures[0]?
    pure (some {
      signature := signature
      message := versionedTx.message
      slot := slot
      loadedAddresses := none
      statusMeta := statusMeta
      err := statusMeta.bind (·.err)
      priorityDetails := priorityDetails
      computeUnitsConsumed := statusMeta.bind (·.computeUnitsConsumed)
      recentBlockhash := recentBlockhash versionedTx.message
      innerInstructions := innerInstructions
      isVoteTransaction := isVoteTransaction
      addressTableLookups := addressTableLookups versionedTx.message
      readableAccounts := accountsBy library versionedTx.message false
      writableAccounts := accountsBy library versionedTx.message true
      blockTime := blockTime })

/-- Why an update of the stream is no transaction. -/
inductive UpdateError
  /-- `No transaction data in Geyser update` -/
  | noTransaction
  /-- What the library of the stream says about a transaction that it does not understand. -/
  | transaction (message : String)
  /-- `Failed converting signature from u8 array` -/
  | signature
  deriving DecidableEq, Repr

/-- `SubscribeUpdateTransaction`, with what the library of the stream makes of its parts. -/
structure SubscribeUpdateTransaction where
  slot : ℕ
  /-- The signature, the transaction by `create_tx_versioned` and the record by
  `create_tx_meta`. -/
  transaction : Option (Bytes × Option (Except String VersionedTransaction) ×
    Option (Except String TransactionStatusMeta))

/-- `Signature::try_from` for bytes. -/
def Signature.ofBytes (bytes : Bytes) : Option Signature :=
  if bytes.length = 64 then some (BitVec.ofNat 512 (digitsValue 256 (bytes.map UInt8.toNat)))
  else none

/-- The transaction, or the error for what the library of the stream says. -/
def created : Except String VersionedTransaction → Outcome UpdateError VersionedTransaction
  | .ok versionedTx => pure versionedTx
  | .error message => .err (.transaction message)

/-- `ITransaction::try_from` for an update of the stream. -/
def SubscribeUpdateTransaction.tryInto (value : SubscribeUpdateTransaction) :
    Outcome UpdateError ConvertedTransaction := do
  let (signature, transaction, recorded) ← .ofOption .noTransaction value.transaction
  let transaction ← .ofOption .noTransaction transaction
  let versionedTx ← created transaction
  let keys := versionedTx.message.staticAccountKeys
  let isVoteTransaction ← hasSimpleVote library keys versionedTx.message.instructions
  let priorityDetails ← PriorityDetails.fromVersionedTransaction library versionedTx
  let signature ← .ofOption .signature (Signature.ofBytes signature)
  let statusMeta := recorded.bind fun recorded => recorded.toOption.map EncodedMeta.of
  let innerInstructions ← extractInner statusMeta
  pure {
    signature := signature
    slot := value.slot
    message := versionedTx.message
    loadedAddresses := none
    statusMeta := statusMeta
    err := statusMeta.bind (·.err)
    priorityDetails := priorityDetails
    computeUnitsConsumed := statusMeta.bind (·.computeUnitsConsumed)
    recentBlockhash := recentBlockhash versionedTx.message
    innerInstructions := innerInstructions
    isVoteTransaction := isVoteTransaction
    addressTableLookups := addressTableLookups versionedTx.message
    readableAccounts := accountsBy library versionedTx.message false
    writableAccounts := accountsBy library versionedTx.message true
    blockTime := some 0 }

/-! ## What both conversions find -/

/-- The part that the copy service reads. -/
def ConvertedTransaction.streamed (t : ConvertedTransaction) : StreamedTransaction where
  signature := t.signature
  instructions := t.message.instructions
  staticAccountKeys := t.message.staticAccountKeys
  addressTableLookups := t.addressTableLookups
  innerInstructions := t.innerInstructions
  statusMeta := t.statusMeta.map (·.toTransactionMeta)
  err := t.err

/-- Every program of a message is one of its static keys. -/
def ProgramsInRange (message : VersionedMessage) : Prop :=
  ∀ ix ∈ message.instructions, ix.programIdIndex.toNat < message.staticAccountKeys.length

/-- The bytes of a signature. -/
def Signature.bytes (signature : Signature) : Bytes :=
  (fixedDigits 256 64 signature.toNat).map UInt8.ofNat

theorem Signature.ofBytes_bytes (signature : Signature) :
    Signature.ofBytes (Signature.bytes signature) = some signature := by
  have hwidth : (256 : ℕ) ^ 64 = 2 ^ 512 := (pow_mul 2 8 64).symm
  have hlength : (fixedDigits 256 64 signature.toNat).length = 64 :=
    length_fixedDigits (by decide) (signature.isLt.trans_eq hwidth.symm)
  have hdigits : (Signature.bytes signature).map UInt8.toNat =
      fixedDigits 256 64 signature.toNat := by
    rw [Signature.bytes, List.map_map]
    apply List.map_congr_left _ |>.trans (List.map_id _)
    intro d hd
    have hlt : d < 256 := lt_of_mem_fixedDigits (by decide) hd
    exact UInt8.toNat_ofNat_of_lt hlt
  rw [ofBytes, if_pos (by rw [Signature.bytes, List.length_map, hlength]), hdigits,
    digitsValue_fixedDigits, BitVec.ofNat_toNat, BitVec.setWidth_eq]

section InRange

variable {library}

/-- Votes are looked for in one way whatever the errors around it. -/
theorem exists_hasSimpleVote {keys : List Pubkey} {instructions : List CompiledInstruction}
    (h : ∀ ix ∈ instructions, ix.programIdIndex.toNat < keys.length) :
    ∃ vote, ∀ ε : Type, hasSimpleVote library keys instructions = (.ok vote : Outcome ε Bool) := by
  induction instructions with
  | nil => exact ⟨false, fun _ => rfl⟩
  | cons ix instructions ih =>
    obtain ⟨hix, hrest⟩ := List.forall_mem_cons.mp h
    obtain ⟨vote, hvote⟩ := ih hrest
    by_cases hsimple : keys[ix.programIdIndex.toNat] = voteProgramId ∧
        library.isSimpleVote ix.data
    · refine ⟨true, fun ε => ?_⟩
      simp only [hasSimpleVote, List.getElem?_eq_getElem hix, Outcome.unwrap_some,
        Outcome.ok_bind, if_pos hsimple, Outcome.pure_eq]
    · refine ⟨vote, fun ε => ?_⟩
      simp only [hasSimpleVote, List.getElem?_eq_getElem hix, Outcome.unwrap_some,
        Outcome.ok_bind, if_neg hsimple, hvote]

theorem exists_processComputeBudgetInstructions {keys : List Pubkey}
    {instructions : List CompiledInstruction}
    (h : ∀ ix ∈ instructions, ix.programIdIndex.toNat < keys.length) (limit : ℕ)
    (budget : library.Budget) :
    ∃ limits, ∀ ε : Type, processComputeBudgetInstructions library keys limit budget instructions =
      (.ok limits : Outcome ε (ℕ × Option (ℕ × ℕ))) := by
  induction instructions generalizing limit budget with
  | nil => exact ⟨_, fun _ => rfl⟩
  | cons ix instructions ih =>
    obtain ⟨hix, hrest⟩ := List.forall_mem_cons.mp h
    simp only [processComputeBudgetInstructions, List.getElem?_eq_getElem hix,
      Outcome.unwrap_some, Outcome.ok_bind]
    cases library.process budget keys[ix.programIdIndex.toNat] ix with
    | none => exact ⟨_, fun _ => rfl⟩
    | some budget => exact ih hrest _ budget

theorem exists_fromVersionedTransaction {transaction : VersionedTransaction}
    (h : ProgramsInRange transaction.message) :
    ∃ details, ∀ ε : Type, PriorityDetails.fromVersionedTransaction library transaction =
      (.ok details : Outcome ε PriorityDetails) := by
  unfold PriorityDetails.fromVersionedTransaction
  split
  · obtain ⟨⟨limit, limits⟩, hlimits⟩ := exists_processComputeBudgetInstructions h
      defaultInstructionComputeUnitLimit library.budget
    simp only [hlimits, Outcome.ok_bind]
    cases limits with
    | none => exact ⟨_, fun _ => rfl⟩
    | some limits => exact ⟨_, fun _ => rfl⟩
  · exact ⟨_, fun _ => rfl⟩

end InRange

/-- What was executed, in the form in which the copy service reads a transaction. -/
def executed (signature : Signature) (message : VersionedMessage)
    (recorded : Option TransactionStatusMeta) : StreamedTransaction where
  signature := signature
  instructions := message.instructions
  staticAccountKeys := message.staticAccountKeys
  addressTableLookups := addressTableLookups message
  innerInstructions := recorded.bind (·.innerTable)
  statusMeta := recorded.map fun m => (EncodedMeta.of m).toTransactionMeta
  err := recorded.bind (·.err)

/-- With a record the keys of a transaction are those that the runtime loaded, and the node is not
asked for them. -/
theorem loadKeys_executed (signature : Signature) (message : VersionedMessage)
    (m : TransactionStatusMeta) (answer : Option (List FetchedAccount)) :
    (executed signature message (some m)).loadKeys answer =
      .ok { (executed signature message (some m)).toITransaction with
        loadedAddresses := some m.loadedAddresses } := by
  simp only [StreamedTransaction.loadKeys, executed, Option.map_some, Option.bind_some,
    EncodedMeta.of, ITransaction.extractOrLoadAdditionalKeys, UiLoadedAddresses.extract_of,
    Outcome.ok_bind, Outcome.pure_eq]

/-- A transaction that was executed is converted from either source, to the same but for the time
of its block. -/
theorem exists_converted (library : TransactionLibrary) {signature : Signature}
    {others : List Signature} {message : VersionedMessage} (hprograms : ProgramsInRange message)
    {encoded : Option EncodedMeta} {recorded : Option TransactionStatusMeta}
    (hencoded : Option.Rel EncodedMeta.Encodes encoded recorded) (slot : ℕ)
    (blockTime : Option ℤ) :
    ∃ t, toUnifiedTransaction library (some ⟨signature :: others, message⟩) encoded slot
        blockTime = .ok (some t) ∧
      SubscribeUpdateTransaction.tryInto library
        ⟨slot, some (Signature.bytes signature, some (.ok ⟨signature :: others, message⟩),
          recorded.map .ok)⟩ = .ok { t with blockTime := some 0 } ∧
      t.streamed = executed signature message recorded := by
  obtain rfl := EncodedMeta.eq_map_of hencoded
  obtain ⟨vote, hvote⟩ : ∃ vote, ∀ ε : Type, hasSimpleVote library message.staticAccountKeys
      message.instructions = (.ok vote : Outcome ε Bool) := exists_hasSimpleVote hprograms
  obtain ⟨details, hdetails⟩ : ∃ details, ∀ ε : Type,
      PriorityDetails.fromVersionedTransaction library ⟨signature :: others, message⟩ =
        (.ok details : Outcome ε PriorityDetails) := exists_fromVersionedTransaction hprograms
  have hmeta : ((recorded.map .ok).bind fun r : Except String TransactionStatusMeta =>
      r.toOption.map EncodedMeta.of) = recorded.map EncodedMeta.of := by
    cases recorded <;> rfl
  let t : ConvertedTransaction := {
    signature := signature
    message := message
    slot := slot
    loadedAddresses := none
    statusMeta := recorded.map EncodedMeta.of
    err := (recorded.map EncodedMeta.of).bind (·.err)
    priorityDetails := details
    computeUnitsConsumed := (recorded.map EncodedMeta.of).bind (·.computeUnitsConsumed)
    recentBlockhash := recentBlockhash message
    innerInstructions := recorded.bind (·.innerTable)
    isVoteTransaction := vote
    addressTableLookups := addressTableLookups message
    readableAccounts := accountsBy library message false
    writableAccounts := accountsBy library message true
    blockTime := blockTime }
  have hstreamed : t.streamed = executed signature message recorded := by
    cases recorded <;> rfl
  refine ⟨t, ?_, ?_, hstreamed⟩
  · simp only [toUnifiedTransaction, hvote, hdetails, extractInner_of, Outcome.ok_bind]
    rfl
  · simp only [SubscribeUpdateTransaction.tryInto, created, hvote, hdetails,
      Signature.ofBytes_bytes, hmeta, extractInner_of, Outcome.ofOption_some, Outcome.ok_bind,
      Outcome.pure_eq]
    rfl

/-- A transaction that was executed, with one record that the stream carries and the node encodes,
is converted from either source, to the same but for the time of its block. The copy service reads
from it what was executed: the programs that called each other, with their data, and every key that
the runtime loaded. -/
theorem conversions_agree (library : TransactionLibrary) {signature : Signature}
    {others : List Signature} {message : VersionedMessage} (hprograms : ProgramsInRange message)
    {encoded : Option EncodedMeta} {recorded : Option TransactionStatusMeta}
    (hencoded : Option.Rel EncodedMeta.Encodes encoded recorded) (slot : ℕ)
    (blockTime : Option ℤ) :
    ∃ t, toUnifiedTransaction library (some ⟨signature :: others, message⟩) encoded slot
        blockTime = .ok (some t) ∧
      SubscribeUpdateTransaction.tryInto library
        ⟨slot, some (Signature.bytes signature, some (.ok ⟨signature :: others, message⟩),
          recorded.map .ok)⟩ = .ok { t with blockTime := some 0 } ∧
      t.streamed = executed signature message recorded ∧
      ∀ m, recorded = some m → ∀ answer, ∃ transaction,
        t.streamed.loadKeys answer = .ok transaction ∧
        transaction.instructions = message.instructions ∧
        transaction.accountKeys =
          message.staticAccountKeys ++ m.loadedAddresses.writable ++ m.loadedAddresses.readonly ∧
        transaction.innerInstructions = m.innerTable := by
  obtain ⟨t, hnode, hstream, hstreamed⟩ :=
    exists_converted library hprograms hencoded slot blockTime
  refine ⟨t, hnode, hstream, hstreamed, ?_⟩
  rintro m rfl answer
  rw [hstreamed, loadKeys_executed]
  refine ⟨_, rfl, rfl, ?_, rfl⟩
  simp only [ITransaction.accountKeys, StreamedTransaction.toITransaction, executed,
    List.append_assoc]

/-- A library that finds no votes and no limits. -/
def sampleLibrary : TransactionLibrary where
  sanitize _ := true
  isMaybeWritable _ index := index == 0
  isSimpleVote _ := false
  setComputeUnitLimit _ := none
  Budget := Unit
  budget := ()
  process _ _ _ := some ()
  finish _ := some (200000, 0)
  prioritizationFee _ _ := 0

/-- One call, with a table of two more keys. -/
def sampleMessage : VersionedMessage :=
  .v0 ⟨⟨1, 0, 1⟩, [5, 6], 0, [⟨1, [0], [9]⟩], [⟨7, [0], [1]⟩]⟩

/-- The call makes another one. -/
def sampleRecord : TransactionStatusMeta :=
  ⟨none, none, [], [], ⟨none, none⟩, some [⟨0, [⟨1, [2, 3], [0, 1, 255]⟩]⟩], ⟨[11], [12]⟩, none⟩

theorem conversions_agree_sample :
    ∃ t, toUnifiedTransaction sampleLibrary (some ⟨[77], sampleMessage⟩)
        (some (EncodedMeta.of sampleRecord)) 3 none = .ok (some t) ∧
      ∃ transaction, t.streamed.loadKeys none = .ok transaction ∧
        transaction.accountKeys = [5, 6, 11, 12] ∧
        transaction.innerInstructions =
          some (Table.collect [(0, [⟨1, [2, 3], [0, 1, 255]⟩])]) := by
  have hprograms : ProgramsInRange sampleMessage := by
    intro ix hix
    obtain rfl := List.mem_singleton.mp hix
    decide
  obtain ⟨t, hnode, -, -, hkeys⟩ :=
    @conversions_agree sampleLibrary 77 [] sampleMessage hprograms _ (some sampleRecord)
      (.some (EncodedMeta.encodes_of sampleRecord)) 3 none
  obtain ⟨transaction, hload, -, haccounts, hinner⟩ := hkeys sampleRecord rfl none
  exact ⟨t, hnode, transaction, hload, haccounts, hinner⟩

end Biscuit.Copy
