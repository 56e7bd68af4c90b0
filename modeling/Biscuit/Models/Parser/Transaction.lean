import Biscuit.Core.Machine
import Biscuit.Core.Outcome
import Biscuit.Core.Table
import Biscuit.Models.Chain.Base58

/-!
# Transactions as the parser reads them

A transaction as it was fetched: its instructions, the keys they index into, the inner
instructions of each of them, and what the runtime recorded about it. Nothing about its
indices or its data bytes can be relied on.
-/

namespace Biscuit.Parser

/-- A string of bytes. -/
abbrev Bytes := List UInt8

/-- `JUP6LkbZbjS1jKKwapdHNy74zcZ3tLUZoi5QNyVTaV4` -/
def jupiterAggregatorV6ProgramId : Pubkey :=
  0x0479d55bf231c06eee74c56ece681507fdb1b2dea3f48e5102b1cda256bc138f#256

/-- `675kPX9MHTjS2zt1qfr1NYHuzeLXfQM9H24wFSUt1Mp8` -/
def raydiumLiquidityPoolV4ProgramId : Pubkey :=
  0x4bd949c43602c33f207790ed16a3524ca1b9975cf121a2a90cffec7df8b68acd#256

/-- `6EF8rrecthR5Dkzon8Nwu78hRvfCKubJ14M5uBEwF6P` -/
def pumpfunProgramId : Pubkey :=
  0x0156e0f693665acf44db1568bf175baa5189cb97f5d2ff3b655d2bb6fd6d18b0#256

/-- `CompiledInstruction` -/
structure CompiledInstruction where
  programIdIndex : UInt8
  accounts : Bytes
  data : Bytes
  deriving DecidableEq, Repr

/-- `UiTokenAmount` -/
structure UiTokenAmount where
  uiAmount : Option F64
  decimals : UInt8
  deriving DecidableEq, Repr

/-- `UiTransactionTokenBalance` -/
structure UiTransactionTokenBalance where
  accountIndex : UInt8
  mint : Text
  uiTokenAmount : UiTokenAmount
  deriving DecidableEq, Repr

/-- `UiTransactionStatusMeta`; a field that the node left out or skipped is absent. -/
structure UiTransactionStatusMeta where
  logMessages : Option (List Text)
  preTokenBalances : Option (List UiTransactionTokenBalance)
  postTokenBalances : Option (List UiTransactionTokenBalance)
  deriving DecidableEq, Repr

/-- The keys that address lookup tables add to a message. -/
structure LoadedAddresses where
  writable : List Pubkey
  readonly : List Pubkey
  deriving DecidableEq, Repr

/-- `ITransaction`; the instructions and the static keys are those of its message. -/
structure ITransaction where
  instructions : List CompiledInstruction
  staticAccountKeys : List Pubkey
  loadedAddresses : Option LoadedAddresses
  statusMeta : Option UiTransactionStatusMeta
  innerInstructions : Option (Table UInt8 (List CompiledInstruction))

/-- The keys that the indices of a transaction point into. -/
def ITransaction.accountKeys (transaction : ITransaction) : List Pubkey :=
  transaction.staticAccountKeys ++
    match transaction.loadedAddresses with
    | some loaded => loaded.writable ++ loaded.readonly
    | none => []

/-- The program that an instruction calls, if its index is in range. -/
def ITransaction.programId (transaction : ITransaction) (instruction : CompiledInstruction) :
    Option Pubkey :=
  transaction.accountKeys[instruction.programIdIndex.toNat]?

/-- The log of a transaction, empty if the node did not record it. -/
def ITransaction.logMessages (transaction : ITransaction) : List Text :=
  (transaction.statusMeta.bind (·.logMessages)).getD []

/-- Why a transaction cannot be parsed. -/
inductive ParseError
  /-- `Failed getting program-id. Invalid index?` -/
  | invalidProgramId
  /-- What the Raydium library says about instruction data it does not understand. -/
  | unpack (message : String)
  /-- `KeysWindow tried to access out-of-bounds index` -/
  | keyOutOfBounds
  /-- `transaction meta is null` -/
  | metaMissing
  /-- `Failed to get info for any user account` -/
  | userAccountMissing
  /-- A mint that is not the text of an address. -/
  | invalidMint (mint : Text)
  /-- `failed getting pre info for amm coin vault` -/
  | coinPreMissing
  /-- `failed getting post info for amm coin vault` -/
  | coinPostMissing
  /-- `failed getting pre info for amm pc vault` -/
  | pcPreMissing
  /-- `failed getting post info for amm pc vault` -/
  | pcPostMissing
  /-- `amm output vault should decrease in balance` -/
  | outputVaultIncreased
  /-- `amm input vault should increase in balance` -/
  | inputVaultDecreased
  deriving DecidableEq, Repr

/-- The end of a parser. -/
abbrev Parsed (α : Type) := Outcome ParseError α

/-! ## Data layouts -/

/-- An address from its bytes. -/
def pubkeyOfBytes (bytes : Bytes) : Pubkey :=
  BitVec.ofNat 256 (digitsValue 256 (bytes.map UInt8.toNat))

/-- A number from its bytes, least significant first. -/
def natOfBytes (bytes : Bytes) : ℕ := Nat.ofDigits 256 (bytes.map UInt8.toNat)

/-- Reading from the front of a byte string; trailing bytes stay. -/
abbrev Reader (α : Type) := StateT Bytes Option α

/-- So many bytes. -/
def readBytes (n : ℕ) : Reader Bytes := fun bytes =>
  if n ≤ bytes.length then some (bytes.take n, bytes.drop n) else none

/-- A borsh `Pubkey`. -/
def readPubkey : Reader Pubkey := pubkeyOfBytes <$> readBytes 32

/-- A borsh `u64`. -/
def readU64 : Reader ℕ := natOfBytes <$> readBytes 8

/-- A borsh `i64`, in two's complement. -/
def readI64 : Reader ℤ := (fun bytes => (BitVec.ofNat 64 (natOfBytes bytes)).toInt) <$> readBytes 8

/-- A borsh `bool`, a byte that is zero or one. -/
def readBool : Reader Bool := do
  match ← readBytes 1 with
  | [0] => pure false
  | [1] => pure true
  | _ => failure

/-- The swap event of Jupiter. -/
structure SwapEvent where
  amm : Pubkey
  inputMint : Pubkey
  inputAmount : ℕ
  outputMint : Pubkey
  outputAmount : ℕ
  deriving DecidableEq, Repr

/-- `SwapEvent::deserialize` -/
def SwapEvent.deserialize (bytes : Bytes) : Option SwapEvent :=
  StateT.run' (do
    let amm ← readPubkey
    let inputMint ← readPubkey
    let inputAmount ← readU64
    let outputMint ← readPubkey
    let outputAmount ← readU64
    pure ⟨amm, inputMint, inputAmount, outputMint, outputAmount⟩ : Reader SwapEvent) bytes

/-- The trade event of Pump. -/
structure TradeEvent where
  mint : Pubkey
  solAmount : ℕ
  tokenAmount : ℕ
  isBuy : Bool
  user : Pubkey
  timestamp : ℤ
  virtualSolReserves : ℕ
  virtualTokenReserves : ℕ
  realSolReserves : ℕ
  realTokenReserves : ℕ
  deriving DecidableEq, Repr

/-- `TradeEvent::deserialize` -/
def TradeEvent.deserialize (bytes : Bytes) : Option TradeEvent :=
  StateT.run' (do
    let mint ← readPubkey
    let solAmount ← readU64
    let tokenAmount ← readU64
    let isBuy ← readBool
    let user ← readPubkey
    let timestamp ← readI64
    let virtualSolReserves ← readU64
    let virtualTokenReserves ← readU64
    let realSolReserves ← readU64
    let realTokenReserves ← readU64
    pure ⟨mint, solAmount, tokenAmount, isBuy, user, timestamp, virtualSolReserves,
      virtualTokenReserves, realSolReserves, realTokenReserves⟩ : Reader TradeEvent) bytes

end Biscuit.Parser
