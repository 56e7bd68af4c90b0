import Biscuit.Models.Parser.Totality

/-!
# Raydium CLMM instructions

An instruction starts with a discriminator, its arguments follow in Borsh, and its accounts are
read by position. The argument types and the accounts of `decrease_liquidity_v2` belong to the
library of the program and stay parameters.
-/

namespace Biscuit.Parser

/-! ## What the library declares -/

/-- A type with its Borsh encoding, which is read back from the front of the bytes. -/
structure BorshType where
  Carrier : Type
  serialize : Carrier → Bytes
  deserialize : Bytes → Option Carrier
  deserialize_serialize : ∀ args, deserialize (serialize args) = some args

/-- What the parser uses of `raydium_amm_v3`. -/
structure RaydiumAmmV3 where
  CreatePoolArgs : BorshType
  IncreaseLiquidityArgs : BorshType
  DecreaseLiquidityArgs : BorshType
  IncreaseLiquidityV2Args : BorshType
  DecreaseLiquidityV2Args : BorshType
  SwapSingleArgs : BorshType
  SwapSingleV2Args : BorshType
  DecreaseLiquidityV2Accounts : Type
  /-- The accounts of `decrease_liquidity_v2`, in order. -/
  decreaseLiquidityV2Keys : DecreaseLiquidityV2Accounts → List Pubkey

/-! ## Discriminators

The first eight bytes of the hash of `global:` and the name of the instruction. -/

/-- `RAYDIUM_CLMM_CREATE_POOL_DISC` -/
def raydiumClmmCreatePoolDisc : Bytes := [233, 146, 209, 142, 207, 104, 64, 188]

/-- `RAYDIUM_CLMM_INCREASE_LIQUIDITY_DISC` -/
def raydiumClmmIncreaseLiquidityDisc : Bytes := [46, 156, 243, 118, 13, 205, 251, 178]

/-- `RAYDIUM_CLMM_INCREASE_LIQUIDITY_V2_DISC` -/
def raydiumClmmIncreaseLiquidityV2Disc : Bytes := [133, 29, 89, 223, 69, 238, 176, 10]

/-- `RAYDIUM_CLMM_DECREASE_LIQUIDITY_DISC` -/
def raydiumClmmDecreaseLiquidityDisc : Bytes := [160, 38, 208, 111, 104, 91, 44, 1]

/-- `RAYDIUM_CLMM_DECREASE_LIQUIDITY_V2_DISC` -/
def raydiumClmmDecreaseLiquidityV2Disc : Bytes := [58, 127, 188, 62, 79, 82, 196, 96]

/-- `RAYDIUM_CLMM_SWAP_DISC` -/
def raydiumClmmSwapDisc : Bytes := [248, 198, 158, 145, 225, 117, 135, 200]

/-- `RAYDIUM_CLMM_SWAP_V2_DISC` -/
def raydiumClmmSwapV2Disc : Bytes := [43, 4, 237, 11, 26, 201, 30, 98]

/-! ## Accounts -/

/-- `CreatePoolAccounts` -/
structure CreatePoolAccounts where
  poolCreator : Pubkey
  ammConfig : Pubkey
  poolState : Pubkey
  tokenMint0 : Pubkey
  tokenMint1 : Pubkey
  tokenVault0 : Pubkey
  tokenVault1 : Pubkey
  observationState : Pubkey
  tickArrayBitmap : Pubkey
  tokenProgram0 : Pubkey
  tokenProgram1 : Pubkey
  systemProgram : Pubkey
  rent : Pubkey
  deriving DecidableEq, Repr

/-- The accounts in order. -/
def CreatePoolAccounts.keys (accounts : CreatePoolAccounts) : List Pubkey :=
  [accounts.poolCreator, accounts.ammConfig, accounts.poolState, accounts.tokenMint0,
    accounts.tokenMint1, accounts.tokenVault0, accounts.tokenVault1, accounts.observationState,
    accounts.tickArrayBitmap, accounts.tokenProgram0, accounts.tokenProgram1,
    accounts.systemProgram, accounts.rent]

def CreatePoolAccounts.read : Windowed CreatePoolAccounts := do
  let poolCreator ← nextAccountKey
  let ammConfig ← nextAccountKey
  let poolState ← nextAccountKey
  let tokenMint0 ← nextAccountKey
  let tokenMint1 ← nextAccountKey
  let tokenVault0 ← nextAccountKey
  let tokenVault1 ← nextAccountKey
  let observationState ← nextAccountKey
  let tickArrayBitmap ← nextAccountKey
  let tokenProgram0 ← nextAccountKey
  let tokenProgram1 ← nextAccountKey
  let systemProgram ← nextAccountKey
  let rent ← nextAccountKey
  pure ⟨poolCreator, ammConfig, poolState, tokenMint0, tokenMint1, tokenVault0, tokenVault1,
    observationState, tickArrayBitmap, tokenProgram0, tokenProgram1, systemProgram, rent⟩

/-- `DecreaseLiquidityAccounts` -/
structure DecreaseLiquidityAccounts where
  nftOwner : Pubkey
  nftAccount : Pubkey
  personalPosition : Pubkey
  poolState : Pubkey
  protocolPosition : Pubkey
  tokenVault0 : Pubkey
  tokenVault1 : Pubkey
  tickArrayLower : Pubkey
  tickArrayUpper : Pubkey
  recipientTokenAccount0 : Pubkey
  recipientTokenAccount1 : Pubkey
  tokenProgram : Pubkey
  deriving DecidableEq, Repr

/-- The accounts in order. -/
def DecreaseLiquidityAccounts.keys (accounts : DecreaseLiquidityAccounts) : List Pubkey :=
  [accounts.nftOwner, accounts.nftAccount, accounts.personalPosition, accounts.poolState,
    accounts.protocolPosition, accounts.tokenVault0, accounts.tokenVault1, accounts.tickArrayLower,
    accounts.tickArrayUpper, accounts.recipientTokenAccount0, accounts.recipientTokenAccount1,
    accounts.tokenProgram]

def DecreaseLiquidityAccounts.read : Windowed DecreaseLiquidityAccounts := do
  let nftOwner ← nextAccountKey
  let nftAccount ← nextAccountKey
  let personalPosition ← nextAccountKey
  let poolState ← nextAccountKey
  let protocolPosition ← nextAccountKey
  let tokenVault0 ← nextAccountKey
  let tokenVault1 ← nextAccountKey
  let tickArrayLower ← nextAccountKey
  let tickArrayUpper ← nextAccountKey
  let recipientTokenAccount0 ← nextAccountKey
  let recipientTokenAccount1 ← nextAccountKey
  let tokenProgram ← nextAccountKey
  pure ⟨nftOwner, nftAccount, personalPosition, poolState, protocolPosition, tokenVault0,
    tokenVault1, tickArrayLower, tickArrayUpper, recipientTokenAccount0, recipientTokenAccount1,
    tokenProgram⟩

/-- `IncreaseLiquidityAccounts` -/
structure IncreaseLiquidityAccounts where
  nftOwner : Pubkey
  nftAccount : Pubkey
  poolState : Pubkey
  protocolPosition : Pubkey
  personalPosition : Pubkey
  tickArrayLower : Pubkey
  tickArrayUpper : Pubkey
  tokenAccount0 : Pubkey
  tokenAccount1 : Pubkey
  tokenVault0 : Pubkey
  tokenVault1 : Pubkey
  tokenProgram : Pubkey
  deriving DecidableEq, Repr

/-- The accounts in order. -/
def IncreaseLiquidityAccounts.keys (accounts : IncreaseLiquidityAccounts) : List Pubkey :=
  [accounts.nftOwner, accounts.nftAccount, accounts.poolState, accounts.protocolPosition,
    accounts.personalPosition, accounts.tickArrayLower, accounts.tickArrayUpper,
    accounts.tokenAccount0, accounts.tokenAccount1, accounts.tokenVault0, accounts.tokenVault1,
    accounts.tokenProgram]

def IncreaseLiquidityAccounts.read : Windowed IncreaseLiquidityAccounts := do
  let nftOwner ← nextAccountKey
  let nftAccount ← nextAccountKey
  let poolState ← nextAccountKey
  let protocolPosition ← nextAccountKey
  let personalPosition ← nextAccountKey
  let tickArrayLower ← nextAccountKey
  let tickArrayUpper ← nextAccountKey
  let tokenAccount0 ← nextAccountKey
  let tokenAccount1 ← nextAccountKey
  let tokenVault0 ← nextAccountKey
  let tokenVault1 ← nextAccountKey
  let tokenProgram ← nextAccountKey
  pure ⟨nftOwner, nftAccount, poolState, protocolPosition, personalPosition, tickArrayLower,
    tickArrayUpper, tokenAccount0, tokenAccount1, tokenVault0, tokenVault1, tokenProgram⟩

/-- `IncreaseLiquidityV2Accounts` -/
structure IncreaseLiquidityV2Accounts where
  nftOwner : Pubkey
  nftAccount : Pubkey
  poolState : Pubkey
  protocolPosition : Pubkey
  personalPosition : Pubkey
  tickArrayLower : Pubkey
  tickArrayUpper : Pubkey
  tokenAccount0 : Pubkey
  tokenAccount1 : Pubkey
  tokenVault0 : Pubkey
  tokenVault1 : Pubkey
  tokenProgram : Pubkey
  tokenProgram2022 : Pubkey
  vault0Mint : Pubkey
  vault1Mint : Pubkey
  deriving DecidableEq, Repr

/-- The accounts in order. -/
def IncreaseLiquidityV2Accounts.keys (accounts : IncreaseLiquidityV2Accounts) : List Pubkey :=
  [accounts.nftOwner, accounts.nftAccount, accounts.poolState, accounts.protocolPosition,
    accounts.personalPosition, accounts.tickArrayLower, accounts.tickArrayUpper,
    accounts.tokenAccount0, accounts.tokenAccount1, accounts.tokenVault0, accounts.tokenVault1,
    accounts.tokenProgram, accounts.tokenProgram2022, accounts.vault0Mint, accounts.vault1Mint]

def IncreaseLiquidityV2Accounts.read : Windowed IncreaseLiquidityV2Accounts := do
  let nftOwner ← nextAccountKey
  let nftAccount ← nextAccountKey
  let poolState ← nextAccountKey
  let protocolPosition ← nextAccountKey
  let personalPosition ← nextAccountKey
  let tickArrayLower ← nextAccountKey
  let tickArrayUpper ← nextAccountKey
  let tokenAccount0 ← nextAccountKey
  let tokenAccount1 ← nextAccountKey
  let tokenVault0 ← nextAccountKey
  let tokenVault1 ← nextAccountKey
  let tokenProgram ← nextAccountKey
  let tokenProgram2022 ← nextAccountKey
  let vault0Mint ← nextAccountKey
  let vault1Mint ← nextAccountKey
  pure ⟨nftOwner, nftAccount, poolState, protocolPosition, personalPosition, tickArrayLower,
    tickArrayUpper, tokenAccount0, tokenAccount1, tokenVault0, tokenVault1, tokenProgram,
    tokenProgram2022, vault0Mint, vault1Mint⟩

/-- `SwapSingleAccounts` -/
structure SwapSingleAccounts where
  payer : Pubkey
  ammConfig : Pubkey
  poolState : Pubkey
  inputTokenAccount : Pubkey
  outputTokenAccount : Pubkey
  inputVault : Pubkey
  outputVault : Pubkey
  observationState : Pubkey
  tokenProgram : Pubkey
  tickArray : Pubkey
  deriving DecidableEq, Repr

/-- The accounts in order. -/
def SwapSingleAccounts.keys (accounts : SwapSingleAccounts) : List Pubkey :=
  [accounts.payer, accounts.ammConfig, accounts.poolState, accounts.inputTokenAccount,
    accounts.outputTokenAccount, accounts.inputVault, accounts.outputVault,
    accounts.observationState, accounts.tokenProgram, accounts.tickArray]

def SwapSingleAccounts.read : Windowed SwapSingleAccounts := do
  let payer ← nextAccountKey
  let ammConfig ← nextAccountKey
  let poolState ← nextAccountKey
  let inputTokenAccount ← nextAccountKey
  let outputTokenAccount ← nextAccountKey
  let inputVault ← nextAccountKey
  let outputVault ← nextAccountKey
  let observationState ← nextAccountKey
  let tokenProgram ← nextAccountKey
  let tickArray ← nextAccountKey
  pure ⟨payer, ammConfig, poolState, inputTokenAccount, outputTokenAccount, inputVault, outputVault,
    observationState, tokenProgram, tickArray⟩

/-- `SwapSingleV2Accounts` -/
structure SwapSingleV2Accounts where
  payer : Pubkey
  ammConfig : Pubkey
  poolState : Pubkey
  inputTokenAccount : Pubkey
  outputTokenAccount : Pubkey
  inputVault : Pubkey
  outputVault : Pubkey
  observationState : Pubkey
  tokenProgram : Pubkey
  tokenProgram2022 : Pubkey
  memoProgram : Pubkey
  inputVaultMint : Pubkey
  outputVaultMint : Pubkey
  deriving DecidableEq, Repr

/-- The accounts in order. -/
def SwapSingleV2Accounts.keys (accounts : SwapSingleV2Accounts) : List Pubkey :=
  [accounts.payer, accounts.ammConfig, accounts.poolState, accounts.inputTokenAccount,
    accounts.outputTokenAccount, accounts.inputVault, accounts.outputVault,
    accounts.observationState, accounts.tokenProgram, accounts.tokenProgram2022,
    accounts.memoProgram, accounts.inputVaultMint, accounts.outputVaultMint]

def SwapSingleV2Accounts.read : Windowed SwapSingleV2Accounts := do
  let payer ← nextAccountKey
  let ammConfig ← nextAccountKey
  let poolState ← nextAccountKey
  let inputTokenAccount ← nextAccountKey
  let outputTokenAccount ← nextAccountKey
  let inputVault ← nextAccountKey
  let outputVault ← nextAccountKey
  let observationState ← nextAccountKey
  let tokenProgram ← nextAccountKey
  let tokenProgram2022 ← nextAccountKey
  let memoProgram ← nextAccountKey
  let inputVaultMint ← nextAccountKey
  let outputVaultMint ← nextAccountKey
  pure ⟨payer, ammConfig, poolState, inputTokenAccount, outputTokenAccount, inputVault, outputVault,
    observationState, tokenProgram, tokenProgram2022, memoProgram, inputVaultMint, outputVaultMint⟩

/-! ## Instructions -/

/-- `ParsedRaydiumV6Instruction` -/
inductive ParsedRaydiumV6Instruction (library : RaydiumAmmV3)
  | createPool (args : library.CreatePoolArgs.Carrier) (accounts : CreatePoolAccounts)
  | increaseLiquidity (args : library.IncreaseLiquidityArgs.Carrier)
    (accounts : IncreaseLiquidityAccounts)
  | decreaseLiquidity (args : library.DecreaseLiquidityArgs.Carrier)
    (accounts : DecreaseLiquidityAccounts)
  | increaseLiquidityV2 (args : library.IncreaseLiquidityV2Args.Carrier)
    (accounts : IncreaseLiquidityV2Accounts)
  | decreaseLiquidityV2 (args : library.DecreaseLiquidityV2Args.Carrier)
    (accounts : library.DecreaseLiquidityV2Accounts)
  | swap (args : library.SwapSingleArgs.Carrier) (accounts : SwapSingleAccounts)
  | swapV2 (args : library.SwapSingleV2Args.Carrier) (accounts : SwapSingleV2Accounts)
  | unknown (discriminator : Bytes)

/-- `decode_instruction`; the error is the library's. -/
def decodeInstruction (type : BorshType) (slice : Bytes) : Windowed type.Carrier :=
  liftM (Outcome.ofOption (.unpack "InstructionDidNotDeserialize") (type.deserialize slice) :
    Parsed type.Carrier)

/-- The arguments and the accounts that follow a discriminator. -/
def readRaydiumV6 (library : RaydiumAmmV3) (discriminator rest : Bytes) :
    Windowed (ParsedRaydiumV6Instruction library) :=
  if discriminator = raydiumClmmCreatePoolDisc then do
    let args ← decodeInstruction library.CreatePoolArgs rest
    pure (.createPool args (← CreatePoolAccounts.read))
  else if discriminator = raydiumClmmDecreaseLiquidityDisc then do
    let args ← decodeInstruction library.DecreaseLiquidityArgs rest
    pure (.decreaseLiquidity args (← DecreaseLiquidityAccounts.read))
  else if discriminator = raydiumClmmDecreaseLiquidityV2Disc then do
    -- The arguments, the accounts and the variant are those of the instruction before it.
    let args ← decodeInstruction library.DecreaseLiquidityArgs rest
    pure (.decreaseLiquidity args (← DecreaseLiquidityAccounts.read))
  else if discriminator = raydiumClmmIncreaseLiquidityDisc then do
    let args ← decodeInstruction library.IncreaseLiquidityArgs rest
    pure (.increaseLiquidity args (← IncreaseLiquidityAccounts.read))
  else if discriminator = raydiumClmmIncreaseLiquidityV2Disc then do
    let args ← decodeInstruction library.IncreaseLiquidityV2Args rest
    pure (.increaseLiquidityV2 args (← IncreaseLiquidityV2Accounts.read))
  else if discriminator = raydiumClmmSwapDisc then do
    let args ← decodeInstruction library.SwapSingleArgs rest
    pure (.swap args (← SwapSingleAccounts.read))
  else if discriminator = raydiumClmmSwapV2Disc then do
    let args ← decodeInstruction library.SwapSingleV2Args rest
    pure (.swapV2 args (← SwapSingleV2Accounts.read))
  else pure (.unknown discriminator)

/-- `decode_raydium_v6_instruction` -/
def decodeRaydiumV6Instruction (library : RaydiumAmmV3) (instruction : CompiledInstruction)
    (keys : List Pubkey) : Parsed (ParsedRaydiumV6Instruction library) := do
  let (discriminator, rest) ← splitDiscriminator instruction.data
  let window ← KeysWindow.newFromInstruction keys instruction
  let (parsed, _) ← (readRaydiumV6 library discriminator rest).run window
  pure parsed

/-! ## Reading keys back -/

/-- The indices of some keys in a table. -/
abbrev PointTo (table : List Pubkey) : Bytes → List Pubkey → Prop :=
  List.Forall₂ fun index key => table[index.toNat]? = some key

/-- A reader that makes a value of some keys wherever their indices come next. -/
def Windowed.Yields {α : Type} (m : Windowed α) (keys : List Pubkey) (a : α) : Prop :=
  ∀ window indices rest, window.accounts.drop window.index = indices ++ rest →
    PointTo window.keys indices keys → ∃ window', m.run window = .ok (a, window')

theorem Windowed.Yields.pure {α : Type} (a : α) : Windowed.Yields (Pure.pure a) [] a :=
  fun window _ _ _ _ => ⟨window, rfl⟩

/-- The next key, and the rest of the reader. -/
theorem Windowed.Yields.next_bind {α : Type} {f : Pubkey → Windowed α} {key : Pubkey}
    {keys : List Pubkey} {a : α} (h : Windowed.Yields (f key) keys a) :
    Windowed.Yields (nextAccountKey >>= f) (key :: keys) a := by
  intro window indices rest hdrop hpoint
  cases hpoint with
  | cons hkey hkeys =>
    obtain ⟨hnext, hrest⟩ := nextAccountKey_run_cons hdrop
    obtain ⟨window', hrun⟩ := h { window with index := window.index + 1 } _ rest hrest hkeys
    refine ⟨window', ?_⟩
    rw [StateT.run_bind, hnext, hkey, Outcome.ofOption_some, Outcome.ok_bind, Outcome.pure_eq,
      Outcome.ok_bind]
    exact hrun

/-- A value that is only wrapped is read like before. -/
theorem Windowed.Yields.map {α β : Type} {m : Windowed α} {keys : List Pubkey} {a : α}
    (h : Windowed.Yields m keys a) (f : α → β) :
    Windowed.Yields (m >>= fun a => Pure.pure (f a)) keys (f a) := by
  intro window indices rest hdrop hpoint
  obtain ⟨window', hrun⟩ := h window indices rest hdrop hpoint
  refine ⟨window', ?_⟩
  rw [StateT.run_bind, hrun]
  rfl

/-- Arguments take no keys. -/
theorem Windowed.Yields.decodeInstruction_bind {α : Type} {type : BorshType} {slice : Bytes}
    {args : type.Carrier} (hargs : type.deserialize slice = some args)
    {f : type.Carrier → Windowed α} {keys : List Pubkey} {a : α}
    (h : Windowed.Yields (f args) keys a) :
    Windowed.Yields (decodeInstruction type slice >>= f) keys a := by
  intro window indices rest hdrop hpoint
  obtain ⟨window', hrun⟩ := h window indices rest hdrop hpoint
  refine ⟨window', ?_⟩
  rw [StateT.run_bind, decodeInstruction, hargs]
  exact hrun

theorem CreatePoolAccounts.read_yields (accounts : CreatePoolAccounts) :
    Windowed.Yields CreatePoolAccounts.read accounts.keys accounts := by
  iterate 13 refine Windowed.Yields.next_bind ?_
  exact Windowed.Yields.pure _

theorem DecreaseLiquidityAccounts.read_yields (accounts : DecreaseLiquidityAccounts) :
    Windowed.Yields DecreaseLiquidityAccounts.read accounts.keys accounts := by
  iterate 12 refine Windowed.Yields.next_bind ?_
  exact Windowed.Yields.pure _

theorem IncreaseLiquidityAccounts.read_yields (accounts : IncreaseLiquidityAccounts) :
    Windowed.Yields IncreaseLiquidityAccounts.read accounts.keys accounts := by
  iterate 12 refine Windowed.Yields.next_bind ?_
  exact Windowed.Yields.pure _

theorem IncreaseLiquidityV2Accounts.read_yields (accounts : IncreaseLiquidityV2Accounts) :
    Windowed.Yields IncreaseLiquidityV2Accounts.read accounts.keys accounts := by
  iterate 15 refine Windowed.Yields.next_bind ?_
  exact Windowed.Yields.pure _

theorem SwapSingleAccounts.read_yields (accounts : SwapSingleAccounts) :
    Windowed.Yields SwapSingleAccounts.read accounts.keys accounts := by
  iterate 10 refine Windowed.Yields.next_bind ?_
  exact Windowed.Yields.pure _

theorem SwapSingleV2Accounts.read_yields (accounts : SwapSingleV2Accounts) :
    Windowed.Yields SwapSingleV2Accounts.read accounts.keys accounts := by
  iterate 13 refine Windowed.Yields.next_bind ?_
  exact Windowed.Yields.pure _

/-! ## Encoding -/

namespace ParsedRaydiumV6Instruction

variable {library : RaydiumAmmV3}

/-- The discriminator of an instruction. -/
def discriminator : ParsedRaydiumV6Instruction library → Bytes
  | .createPool _ _ => raydiumClmmCreatePoolDisc
  | .increaseLiquidity _ _ => raydiumClmmIncreaseLiquidityDisc
  | .decreaseLiquidity _ _ => raydiumClmmDecreaseLiquidityDisc
  | .increaseLiquidityV2 _ _ => raydiumClmmIncreaseLiquidityV2Disc
  | .decreaseLiquidityV2 _ _ => raydiumClmmDecreaseLiquidityV2Disc
  | .swap _ _ => raydiumClmmSwapDisc
  | .swapV2 _ _ => raydiumClmmSwapV2Disc
  | .unknown discriminator => discriminator

/-- The arguments of an instruction in Borsh. -/
def serializeArgs : ParsedRaydiumV6Instruction library → Bytes
  | .createPool args _ => library.CreatePoolArgs.serialize args
  | .increaseLiquidity args _ => library.IncreaseLiquidityArgs.serialize args
  | .decreaseLiquidity args _ => library.DecreaseLiquidityArgs.serialize args
  | .increaseLiquidityV2 args _ => library.IncreaseLiquidityV2Args.serialize args
  | .decreaseLiquidityV2 args _ => library.DecreaseLiquidityV2Args.serialize args
  | .swap args _ => library.SwapSingleArgs.serialize args
  | .swapV2 args _ => library.SwapSingleV2Args.serialize args
  | .unknown _ => []

/-- The accounts of an instruction in order. -/
def accountKeys : ParsedRaydiumV6Instruction library → List Pubkey
  | .createPool _ accounts => accounts.keys
  | .increaseLiquidity _ accounts => accounts.keys
  | .decreaseLiquidity _ accounts => accounts.keys
  | .increaseLiquidityV2 _ accounts => accounts.keys
  | .decreaseLiquidityV2 _ accounts => library.decreaseLiquidityV2Keys accounts
  | .swap _ accounts => accounts.keys
  | .swapV2 _ accounts => accounts.keys
  | .unknown _ => []

/-- An instruction of the program that the parser tells apart. -/
def isSupported : ParsedRaydiumV6Instruction library → Bool
  | .unknown _ => false
  | _ => true

/-- The second version of the instruction that takes liquidity out. -/
def isDecreaseLiquidityV2 : ParsedRaydiumV6Instruction library → Bool
  | .decreaseLiquidityV2 _ _ => true
  | _ => false

/-- A compiled instruction that stands for an instruction of the program: the program and the
accounts are in the table of keys, further accounts can follow. -/
structure EncodedBy (value : ParsedRaydiumV6Instruction library)
    (instruction : CompiledInstruction) (keys : List Pubkey) : Prop where
  program : instruction.programIdIndex.toNat < keys.length
  data : instruction.data = value.discriminator ++ value.serializeArgs
  accounts : ∃ indices rest, instruction.accounts = indices ++ rest ∧
    PointTo keys indices value.accountKeys

theorem length_discriminator {value : ParsedRaydiumV6Instruction library}
    (h : value.isSupported = true) : value.discriminator.length = 8 := by
  cases value with
  | unknown discriminator => cases h
  | _ => rfl

end ParsedRaydiumV6Instruction

/-! ## Round trips -/

section

variable {library : RaydiumAmmV3}

/-- Apart from the second way to take liquidity out, an instruction is read back from its
discriminator, its arguments and its accounts. -/
theorem readRaydiumV6_yields {value : ParsedRaydiumV6Instruction library}
    (hsupported : value.isSupported = true) (hv2 : value.isDecreaseLiquidityV2 = false) :
    Windowed.Yields (readRaydiumV6 library value.discriminator value.serializeArgs)
      value.accountKeys value := by
  cases value with
  | createPool args accounts =>
    have hargs := BorshType.deserialize_serialize _ args
    exact .decodeInstruction_bind hargs (accounts.read_yields.map _)
  | decreaseLiquidity args accounts =>
    have hargs := BorshType.deserialize_serialize _ args
    exact .decodeInstruction_bind hargs (accounts.read_yields.map _)
  | increaseLiquidity args accounts =>
    have hargs := BorshType.deserialize_serialize _ args
    exact .decodeInstruction_bind hargs (accounts.read_yields.map _)
  | increaseLiquidityV2 args accounts =>
    have hargs := BorshType.deserialize_serialize _ args
    exact .decodeInstruction_bind hargs (accounts.read_yields.map _)
  | decreaseLiquidityV2 args accounts => cases hv2
  | swap args accounts =>
    have hargs := BorshType.deserialize_serialize _ args
    exact .decodeInstruction_bind hargs (accounts.read_yields.map _)
  | swapV2 args accounts =>
    have hargs := BorshType.deserialize_serialize _ args
    exact .decodeInstruction_bind hargs (accounts.read_yields.map _)
  | unknown discriminator => cases hsupported

/-- An encoded instruction is decoded by reading its accounts from the first one on. -/
theorem decodeRaydiumV6Instruction_of_encodedBy {value : ParsedRaydiumV6Instruction library}
    (hsupported : value.isSupported = true) {instruction : CompiledInstruction}
    {keys : List Pubkey} (h : value.EncodedBy instruction keys) :
    ∃ programId, decodeRaydiumV6Instruction library instruction keys =
      ((readRaydiumV6 library value.discriminator value.serializeArgs).run
        ⟨keys, instruction.accounts, 0, programId⟩ >>= fun read => pure read.1) := by
  have hlength := value.length_discriminator hsupported
  have hsplit : splitDiscriminator instruction.data =
      .ok (value.discriminator, value.serializeArgs) := by
    have hdata : 8 ≤ (value.discriminator ++ value.serializeArgs).length := by
      rw [List.length_append, hlength]
      exact Nat.le_add_right 8 _
    rw [splitDiscriminator, h.data, if_pos hdata, List.take_left' hlength,
      List.drop_left' hlength]
    rfl
  have hprogram := h.program
  refine ⟨keys[instruction.programIdIndex.toNat], ?_⟩
  rw [decodeRaydiumV6Instruction, hsplit, Outcome.ok_bind, KeysWindow.newFromInstruction,
    List.getElem?_eq_getElem hprogram, Outcome.unwrap_some]
  rfl

/-- What a branch of the decoder returns is made of its arguments and its accounts. -/
theorem exists_of_readRaydiumV6_branch {type : BorshType} {α β : Type} {slice : Bytes}
    {read : Windowed α} {f : type.Carrier → α → β} {window window' : KeysWindow} {parsed : β}
    (h : (decodeInstruction type slice >>= fun args =>
      read >>= fun accounts => pure (f args accounts)).run window = .ok (parsed, window')) :
    ∃ args accounts, parsed = f args accounts := by
  rw [StateT.run_bind, Outcome.bind_eq_ok] at h
  obtain ⟨⟨args, _⟩, -, h⟩ := h
  rw [StateT.run_bind, Outcome.bind_eq_ok] at h
  obtain ⟨⟨accounts, _⟩, -, h⟩ := h
  exact ⟨args, accounts, (Prod.mk.inj (Outcome.ok.inj h)).1.symm⟩

/-- No instruction at all is read as the second way to take liquidity out. -/
theorem isDecreaseLiquidityV2_of_readRaydiumV6 {discriminator rest : Bytes}
    {window window' : KeysWindow} {parsed : ParsedRaydiumV6Instruction library}
    (h : (readRaydiumV6 library discriminator rest).run window = .ok (parsed, window')) :
    parsed.isDecreaseLiquidityV2 = false := by
  unfold readRaydiumV6 at h
  split_ifs at h
  case neg =>
    obtain ⟨rfl, -⟩ := Prod.mk.inj (Outcome.ok.inj h)
    rfl
  all_goals
    obtain ⟨args, accounts, rfl⟩ := exists_of_readRaydiumV6_branch h
    rfl

/-- Decoding returns an encoded instruction exactly when it is not the second way to take liquidity
out, which has the arguments, the accounts and the name of the first one. -/
theorem decodeRaydiumV6Instruction_eq_iff (library : RaydiumAmmV3)
    (value : ParsedRaydiumV6Instruction library) (hsupported : value.isSupported = true)
    (instruction : CompiledInstruction) (keys : List Pubkey)
    (h : value.EncodedBy instruction keys) :
    decodeRaydiumV6Instruction library instruction keys = .ok value ↔
      value.isDecreaseLiquidityV2 = false := by
  obtain ⟨programId, hdecode⟩ := decodeRaydiumV6Instruction_of_encodedBy hsupported h
  rw [hdecode]
  constructor
  · intro hvalue
    obtain ⟨⟨parsed, window'⟩, hrun, hparsed⟩ := Outcome.bind_eq_ok.mp hvalue
    rw [← Outcome.ok.inj hparsed]
    exact isDecreaseLiquidityV2_of_readRaydiumV6 hrun
  · intro hv2
    obtain ⟨indices, rest, haccounts, hpoint⟩ := h.accounts
    obtain ⟨window', hrun⟩ := readRaydiumV6_yields hsupported hv2
      ⟨keys, instruction.accounts, 0, programId⟩ indices rest haccounts hpoint
    rw [hrun]
    rfl

/-- The second way to take liquidity out is read as the first one, and the accounts that only it
has are lost. -/
theorem decodeRaydiumV6Instruction_decreaseLiquidityV2
    {args : library.DecreaseLiquidityV2Args.Carrier}
    {accounts : library.DecreaseLiquidityV2Accounts} {instruction : CompiledInstruction}
    {keys : List Pubkey}
    (h : (ParsedRaydiumV6Instruction.decreaseLiquidityV2 args accounts).EncodedBy instruction keys)
    {read : library.DecreaseLiquidityArgs.Carrier}
    (hargs : library.DecreaseLiquidityArgs.deserialize
      (library.DecreaseLiquidityV2Args.serialize args) = some read)
    {first : DecreaseLiquidityAccounts} {more : List Pubkey}
    (hkeys : library.decreaseLiquidityV2Keys accounts = first.keys ++ more) :
    decodeRaydiumV6Instruction library instruction keys = .ok (.decreaseLiquidity read first) := by
  obtain ⟨programId, hdecode⟩ := decodeRaydiumV6Instruction_of_encodedBy rfl h
  obtain ⟨indices, rest, haccounts, hpoint⟩ := h.accounts
  rw [ParsedRaydiumV6Instruction.accountKeys, hkeys] at hpoint
  rw [← List.take_append_drop first.keys.length indices, List.append_assoc] at haccounts
  have hyields : Windowed.Yields
      (readRaydiumV6 library
        (ParsedRaydiumV6Instruction.decreaseLiquidityV2 args accounts).discriminator
        (ParsedRaydiumV6Instruction.decreaseLiquidityV2 args accounts).serializeArgs)
      first.keys (.decreaseLiquidity read first) :=
    .decodeInstruction_bind hargs (first.read_yields.map _)
  obtain ⟨window', hrun⟩ := hyields ⟨keys, instruction.accounts, 0, programId⟩ _ _ haccounts
    (List.forall₂_take_append indices first.keys more hpoint)
  rw [hdecode, hrun]
  rfl

end

/-- Arguments of so many bytes. -/
def fixedWidth (width : ℕ) : BorshType where
  Carrier := { bytes : Bytes // bytes.length = width }
  serialize args := args.1
  deserialize bytes :=
    if h : (bytes.take width).length = width then some ⟨bytes.take width, h⟩ else none
  deserialize_serialize args := by
    have htake : args.1.take width = args.1 := List.take_of_length_le args.2.le
    simp only [htake, args.2, dite_true]

/-- A library with the widths of the arguments. -/
def fixedWidthLibrary : RaydiumAmmV3 where
  CreatePoolArgs := fixedWidth 24
  IncreaseLiquidityArgs := fixedWidth 32
  DecreaseLiquidityArgs := fixedWidth 32
  IncreaseLiquidityV2Args := fixedWidth 33
  DecreaseLiquidityV2Args := fixedWidth 32
  SwapSingleArgs := fixedWidth 33
  SwapSingleV2Args := fixedWidth 33
  DecreaseLiquidityV2Accounts := { keys : List Pubkey // keys.length = 16 }
  decreaseLiquidityV2Keys accounts := accounts.1

/-- A table of numbered keys. -/
def numberedKeys : List Pubkey := (List.range 20).map fun n => BitVec.ofNat 256 n

/-- An instruction over the first keys of that table. -/
def numberedInstruction (count : ℕ) (data : Bytes) : CompiledInstruction :=
  ⟨19, (List.range count).map UInt8.ofNat, data⟩

theorem pointTo_numberedKeys {count : ℕ} (h : count ≤ 20) :
    PointTo numberedKeys ((List.range count).map UInt8.ofNat)
      ((List.range count).map fun n => BitVec.ofNat 256 n) := by
  rw [PointTo, List.forall₂_map_left_iff, List.forall₂_map_right_iff, List.forall₂_same]
  intro n hn
  have hlt : n < 20 := by
    rw [List.mem_range] at hn
    omega
  have hindex : (UInt8.ofNat n).toNat = n := by
    rw [UInt8.toNat_ofNat']
    omega
  rw [hindex, numberedKeys, List.getElem?_map, List.getElem?_range hlt, Option.map_some]

/-- A swap over numbered keys. -/
def numberedSwap : ParsedRaydiumV6Instruction fixedWidthLibrary :=
  .swap ⟨List.replicate 33 0, rfl⟩ ⟨0, 1, 2, 3, 4, 5, 6, 7, 8, 9⟩

theorem decodeRaydiumV6Instruction_numberedSwap :
    decodeRaydiumV6Instruction fixedWidthLibrary
      (numberedInstruction 10 (raydiumClmmSwapDisc ++ List.replicate 33 0)) numberedKeys =
        .ok numberedSwap :=
  (decodeRaydiumV6Instruction_eq_iff fixedWidthLibrary numberedSwap rfl _ _
    ⟨by decide, rfl, _, [], (List.append_nil _).symm, pointTo_numberedKeys (by decide)⟩).mpr rfl

/-- Taking liquidity out with the second instruction. -/
def numberedDecreaseLiquidityV2 : ParsedRaydiumV6Instruction fixedWidthLibrary :=
  .decreaseLiquidityV2 ⟨List.replicate 32 0, rfl⟩
    ⟨(List.range 16).map fun n => BitVec.ofNat 256 n, rfl⟩

theorem decodeRaydiumV6Instruction_numberedDecreaseLiquidityV2 :
    ¬ ∀ (value : ParsedRaydiumV6Instruction fixedWidthLibrary) (instruction : CompiledInstruction)
      (keys : List Pubkey), value.isSupported = true → value.EncodedBy instruction keys →
        decodeRaydiumV6Instruction fixedWidthLibrary instruction keys = .ok value := by
  intro hall
  have hencoded : numberedDecreaseLiquidityV2.EncodedBy
      (numberedInstruction 16 (raydiumClmmDecreaseLiquidityV2Disc ++ List.replicate 32 0))
      numberedKeys :=
    ⟨by decide, rfl, _, [], (List.append_nil _).symm, pointTo_numberedKeys (by decide)⟩
  have hvalue := hall _ _ _ rfl hencoded
  have hkeys : fixedWidthLibrary.decreaseLiquidityV2Keys
      ⟨(List.range 16).map fun n => BitVec.ofNat 256 n, rfl⟩ =
        DecreaseLiquidityAccounts.keys ⟨0, 1, 2, 3, 4, 5, 6, 7, 8, 9, 10, 11⟩ ++
          [12, 13, 14, 15] := rfl
  have hread : decodeRaydiumV6Instruction fixedWidthLibrary
      (numberedInstruction 16 (raydiumClmmDecreaseLiquidityV2Disc ++ List.replicate 32 0))
      numberedKeys =
        .ok (.decreaseLiquidity ⟨List.replicate 32 0, rfl⟩
          ⟨0, 1, 2, 3, 4, 5, 6, 7, 8, 9, 10, 11⟩) :=
    decodeRaydiumV6Instruction_decreaseLiquidityV2 hencoded rfl hkeys
  rw [hread] at hvalue
  cases hvalue

end Biscuit.Parser
