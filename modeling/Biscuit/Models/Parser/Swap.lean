import Biscuit.Models.Copy.Details
import Biscuit.Models.Parser.Logs

/-!
# Swaps out of transactions

A swap is read from the events that Jupiter and Pump leave in a transaction, or from the
accounts and balances of a Raydium V4 instruction. The instructions of the message are
tried first and in order, then the inner instructions as their map yields them; the first
swap found is the result, and the first failure ends the search.
-/

namespace Biscuit.Parser

/-- `Provider` -/
inductive Provider
  | jupiter
  | raydiumV4 (state : Option Pubkey)
  | raydiumV6 (state : Option Pubkey)
  | orcaWhirlpool (state : Option Pubkey)
  | pump
  deriving DecidableEq, Repr

/-- `ResolvedSwap`, with the fields that only its reader needs. -/
structure ResolvedSwap extends Biscuit.Copy.ResolvedSwap where
  owner : Option Pubkey
  provider : Provider
  deriving DecidableEq, Repr

/-- The Raydium V4 instructions as far as the parser tells them apart; the arguments that
it does not read are left out. -/
inductive AmmInstruction
  | initialize2
  | swapBaseIn (amountIn minimumAmountOut : ℕ)
  | swapBaseOut (maxAmountIn amountOut : ℕ)
  | deposit
  | withdraw
  | other
  deriving DecidableEq, Repr

/-- What the parser uses of libraries, and of the machine. -/
structure Decoders where
  /-- `STANDARD.decode` -/
  base64 : Text → Option Bytes
  /-- `AmmInstruction::unpack` -/
  unpack : Bytes → Except String AmmInstruction
  /-- How the product of a balance and the units of its mint is rounded; it is computed in `f64`,
  which is `Rounding.binary64`. -/
  rounding : Rounding

/-! ## Events -/

/-- `EVENT_IX_TAG_LE` -/
def eventIxTagLe : Bytes := [228, 69, 165, 46, 81, 203, 154, 29]

/-- `SWAP_EVENT_DISCRIMINATOR` -/
def swapEventDiscriminator : Bytes := [64, 198, 205, 232, 38, 8, 113, 226]

/-- `TRADE_EVENT_DISCRIMINATOR` -/
def tradeEventDiscriminator : Bytes := [189, 219, 127, 211, 78, 230, 97, 238]

/-- `split_discriminator`; the slice panics on fewer than eight bytes. -/
def splitDiscriminator (data : Bytes) : Parsed (Bytes × Bytes) :=
  if 8 ≤ data.length then pure (data.take 8, data.drop 8) else .panic

/-- One turn of the loop over logged bytes that keeps the events with one discriminator;
bytes with another one and bytes that do not deserialize are skipped. -/
def parseEvent {α : Type} (eventDiscriminator : Bytes) (deserialize : Bytes → Option α)
    (parsed : List α) (data : Bytes) : Parsed (List α) := do
  let (discriminator, rest) ← splitDiscriminator data
  if discriminator = eventDiscriminator then
    match deserialize rest with
    | some event => pure (parsed ++ [event])
    | none => pure parsed
  else pure parsed

/-- The loop over logged bytes. -/
def parseEvents {α : Type} (eventDiscriminator : Bytes) (deserialize : Bytes → Option α)
    (logs : List Bytes) : Parsed (List α) :=
  logs.foldlM (parseEvent eventDiscriminator deserialize) []

/-- `parse_jupiter_swap_events` -/
def parseJupiterSwapEvents (logs : List Bytes) : Parsed (List SwapEvent) :=
  parseEvents swapEventDiscriminator SwapEvent.deserialize logs

/-- `parse_pumpfun_swap_events` -/
def parsePumpfunSwapEvents (logs : List Bytes) : Parsed (List TradeEvent) :=
  parseEvents tradeEventDiscriminator TradeEvent.deserialize logs

/-- `merge_jupiter_events` -/
def mergeJupiterEvents (events : List SwapEvent) : Option SwapEvent :=
  match events.head?, events.getLast? with
  | some first, some last =>
    some { first with outputMint := last.outputMint, outputAmount := last.outputAmount }
  | _, _ => none

/-- `anchor_event_cpi_filter` -/
def anchorEventCpiFilter (ix : CompiledInstruction) : Option Bytes :=
  if ix.data.length < eventIxTagLe.length then none
  else
    if ix.data.take eventIxTagLe.length = eventIxTagLe then
      some (ix.data.drop eventIxTagLe.length)
    else none

/-- `get_cpi_logs_for_instruction`; the index is cut to a byte. -/
def getCpiLogsForInstruction (transaction : ITransaction) (instructionIdx : ℕ) :
    Option (List Bytes) := do
  let innerInstructions ← transaction.innerInstructions
  let instructions ← innerInstructions.lookup (UInt8.ofNat instructionIdx)
  pure (instructions.filterMap anchorEventCpiFilter)

/-- `V1Parser::decode_jupiter` -/
def decodeJupiter (transaction : ITransaction) (idx : ℕ) : Parsed (Option ResolvedSwap) := do
  let cpiLogs := (getCpiLogsForInstruction transaction idx).getD []
  let events ← parseJupiterSwapEvents cpiLogs
  match mergeJupiterEvents events with
  | none => pure none
  | some event => pure (some {
      provider := .jupiter
      owner := none
      inputAmount := event.inputAmount
      outputAmount := event.outputAmount
      inputTokenMint := event.inputMint
      outputTokenMint := event.outputMint
      tokenDecimals := none })

/-- `V1Parser::decode_pumpfun` -/
def decodePumpfun (decoders : Decoders) (transaction : ITransaction) :
    Parsed (Option ResolvedSwap) := do
  let logs ← getLogsForProgram decoders.base64 transaction pumpfunProgramId
  let events ← parsePumpfunSwapEvents logs
  match events.head? with
  | none => pure none
  | some event =>
    let (inputAmount, outputAmount, inputTokenMint, outputTokenMint) :=
      if event.isBuy then (event.solAmount, event.tokenAmount, SOL, event.mint)
      else (event.tokenAmount, event.solAmount, event.mint, SOL)
    pure (some {
      provider := .pump
      owner := none
      inputAmount := inputAmount
      outputAmount := outputAmount
      inputTokenMint := inputTokenMint
      outputTokenMint := outputTokenMint
      tokenDecimals := none })

/-! ## Raydium V4 instructions -/

/-- `KeysWindow` -/
structure KeysWindow where
  keys : List Pubkey
  accounts : Bytes
  index : ℕ
  programId : Pubkey

/-- Reading through a window. -/
abbrev Windowed (α : Type) := StateT KeysWindow (Outcome ParseError) α

/-- `KeysWindow::new_from_instruction` -/
def KeysWindow.newFromInstruction (keys : List Pubkey) (instruction : CompiledInstruction) :
    Parsed KeysWindow := do
  let programId ← Outcome.unwrap keys[instruction.programIdIndex.toNat]?
  pure ⟨keys, instruction.accounts, 0, programId⟩

/-- `KeysWindow::next_account_key`; the account list is indexed, the keys are asked. -/
def nextAccountKey : Windowed Pubkey := fun window => do
  let account ← Outcome.unwrap window.accounts[window.index]?
  let key ← Outcome.ofOption .keyOutOfBounds window.keys[account.toNat]?
  pure (key, { window with index := window.index + 1 })

/-- So many account keys in a row. -/
def nextAccountKeys : ℕ → Windowed (List Pubkey)
  | 0 => pure []
  | n + 1 => do
    let key ← nextAccountKey
    let keys ← nextAccountKeys n
    pure (key :: keys)

/-- `SwapBaseInAccounts` and `SwapBaseOutAccounts` -/
structure SwapAccounts where
  tokenProgram : Pubkey
  ammAccount : Pubkey
  ammAuthority : Pubkey
  ammOpenOrders : Pubkey
  ammTargetOrders : Option Pubkey
  ammCoinVault : Pubkey
  ammPcVault : Pubkey
  marketProgram : Pubkey
  marketAccount : Pubkey
  marketBids : Pubkey
  marketAsks : Pubkey
  marketEventQueue : Pubkey
  marketCoinVault : Pubkey
  marketPcVault : Pubkey
  marketVaultSigner : Pubkey
  userSourceTokenAccount : Pubkey
  userDestinationTokenAccount : Pubkey
  userWalletAccount : Pubkey
  deriving DecidableEq, Repr

/-- The accounts of a swap instruction, in order. -/
def SwapAccounts.read (includeTargetOrders : Bool) : Windowed SwapAccounts := do
  let tokenProgram ← nextAccountKey
  let ammAccount ← nextAccountKey
  let ammAuthority ← nextAccountKey
  let ammOpenOrders ← nextAccountKey
  let ammTargetOrders ← if includeTargetOrders then some <$> nextAccountKey else pure none
  let ammCoinVault ← nextAccountKey
  let ammPcVault ← nextAccountKey
  let marketProgram ← nextAccountKey
  let marketAccount ← nextAccountKey
  let marketBids ← nextAccountKey
  let marketAsks ← nextAccountKey
  let marketEventQueue ← nextAccountKey
  let marketCoinVault ← nextAccountKey
  let marketPcVault ← nextAccountKey
  let marketVaultSigner ← nextAccountKey
  let userSourceTokenAccount ← nextAccountKey
  let userDestinationTokenAccount ← nextAccountKey
  let userWalletAccount ← nextAccountKey
  pure ⟨tokenProgram, ammAccount, ammAuthority, ammOpenOrders, ammTargetOrders, ammCoinVault,
    ammPcVault, marketProgram, marketAccount, marketBids, marketAsks, marketEventQueue,
    marketCoinVault, marketPcVault, marketVaultSigner, userSourceTokenAccount,
    userDestinationTokenAccount, userWalletAccount⟩

/-- `ParsedRaydiumV4Instruction`; the accounts that nothing reads stay a list. -/
inductive ParsedRaydiumV4Instruction
  | initialize2 (accounts : List Pubkey)
  | swapBaseIn (amountIn minimumAmountOut : ℕ) (accounts : SwapAccounts)
  | swapBaseOut (maxAmountIn amountOut : ℕ) (accounts : SwapAccounts)
  | deposit (accounts : List Pubkey)
  | withdraw (accounts : List Pubkey)
  | unknown (args : AmmInstruction)
  deriving DecidableEq, Repr

/-- `SWAP_INSTRUCTIONS_ACCOUNT_LENGTH` -/
def swapInstructionsAccountLength : ℕ := 17

/-- The accounts of an instruction that was unpacked. -/
def readRaydiumV4Accounts (instruction : CompiledInstruction) :
    AmmInstruction → Windowed ParsedRaydiumV4Instruction
  | .initialize2 => do pure (.initialize2 (← nextAccountKeys 21))
  | .swapBaseIn amountIn minimumAmountOut => do
    let includeTargetOrders :=
      decide (instruction.accounts.length > swapInstructionsAccountLength)
    pure (.swapBaseIn amountIn minimumAmountOut (← SwapAccounts.read includeTargetOrders))
  | .swapBaseOut maxAmountIn amountOut => do
    let includeTargetOrders :=
      decide (instruction.accounts.length > swapInstructionsAccountLength)
    pure (.swapBaseOut maxAmountIn amountOut (← SwapAccounts.read includeTargetOrders))
  | .deposit => do pure (.deposit (← nextAccountKeys 14))
  | .withdraw => do pure (.withdraw (← nextAccountKeys 20))
  | .other => pure (.unknown .other)

/-- `decode_raydium_v4_instruction` -/
def decodeRaydiumV4Instruction (decoders : Decoders) (instruction : CompiledInstruction)
    (keys : List Pubkey) : Parsed ParsedRaydiumV4Instruction :=
  match decoders.unpack instruction.data with
  | .error message => .err (.unpack message)
  | .ok unpacked => do
    let window ← KeysWindow.newFromInstruction keys instruction
    let (parsed, _) ← (readRaydiumV4Accounts instruction unpacked).run window
    pure parsed

/-! ## Raydium V4 balances -/

/-- `RaydiumAccounts` -/
structure RaydiumAccounts where
  ammCoinPre : ℕ
  ammCoinPost : ℕ
  ammCoinMint : Pubkey
  ammPcPre : ℕ
  ammPcPost : ℕ
  ammPcMint : Pubkey
  coinToPc : Bool
  deriving DecidableEq, Repr

/-- `V1Parser::get_balances_for_token_account`: before and after. -/
def getBalancesForTokenAccount (statusMeta : UiTransactionStatusMeta) (accountKeys : List Pubkey)
    (account : Pubkey) : Option UiTransactionTokenBalance × Option UiTransactionTokenBalance :=
  let findBalance (balances : List UiTransactionTokenBalance) :=
    balances.find? fun bal => accountKeys[bal.accountIndex.toNat]? == some account
  (findBalance (statusMeta.preTokenBalances.getD []),
    findBalance (statusMeta.postTokenBalances.getD []))

/-- `V1Parser::calc_amount`; the power wraps in a release build. -/
def calcAmount (r : Rounding) (balance : UiTransactionTokenBalance) : ℕ :=
  let multiplier := r.ofNat (10 ^ balance.uiTokenAmount.decimals.toNat % 2 ^ 32)
  (r.mul (balance.uiTokenAmount.uiAmount.getD (.fin 0)) multiplier).trunc.toU64

/-- `Pubkey::from_str` of a mint. -/
def parseMint (mint : Text) : Parsed Pubkey :=
  Outcome.ofOption (.invalidMint mint) (Pubkey.ofText mint)

/-- `V1Parser::resolve_raydium_accounts` -/
def resolveRaydiumAccounts (r : Rounding) (statusMeta : UiTransactionStatusMeta)
    (accountKeys : List Pubkey) (userSource userDestination ammCoinVault ammPcVault : Pubkey) :
    Parsed RaydiumAccounts := do
  let (userInputPre, userInputPost) :=
    getBalancesForTokenAccount statusMeta accountKeys userSource
  let (userOutputPre, userOutputPost) :=
    getBalancesForTokenAccount statusMeta accountKeys userDestination
  let userAccounts := [(userInputPre, true), (userInputPost, true), (userOutputPre, false),
    (userOutputPost, false)]
  let (userAccount, isInput) ← Outcome.ofOption .userAccountMissing
    (userAccounts.findSome? fun (b, isInput) => b.map fun balance => (balance, isInput))
  let userAccountMint ← parseMint userAccount.mint
  let (ammCoinPre, ammCoinPost) :=
    getBalancesForTokenAccount statusMeta accountKeys ammCoinVault
  let (ammPcPre, ammPcPost) := getBalancesForTokenAccount statusMeta accountKeys ammPcVault
  let ammCoinPre ← Outcome.ofOption .coinPreMissing ammCoinPre
  let ammCoinPost ← Outcome.ofOption .coinPostMissing ammCoinPost
  let ammPcPre ← Outcome.ofOption .pcPreMissing ammPcPre
  let ammPcPost ← Outcome.ofOption .pcPostMissing ammPcPost
  let ammCoinMint ← parseMint ammCoinPost.mint
  let ammPcMint ← parseMint ammPcPost.mint
  pure {
    ammCoinPre := calcAmount r ammCoinPre
    ammCoinPost := calcAmount r ammCoinPost
    ammPcPre := calcAmount r ammPcPre
    ammPcPost := calcAmount r ammPcPost
    ammCoinMint := ammCoinMint
    ammPcMint := ammPcMint
    coinToPc := (ammCoinMint == userAccountMint) == isInput }

/-- `u64::checked_sub` -/
def checkedSub (a b : ℕ) : Option ℕ := if b ≤ a then some (a - b) else none

/-- `V1Parser::decode_raydium_v4` -/
def decodeRaydiumV4 (decoders : Decoders) (transaction : ITransaction)
    (instruction : CompiledInstruction) : Parsed (Option ResolvedSwap) := do
  let instruction ← decodeRaydiumV4Instruction decoders instruction transaction.accountKeys
  let statusMeta ← Outcome.ofOption .metaMissing transaction.statusMeta
  match instruction with
  | .swapBaseIn amountIn _ accounts => do
    let resolved ← resolveRaydiumAccounts decoders.rounding statusMeta transaction.accountKeys
      accounts.userSourceTokenAccount accounts.userDestinationTokenAccount
      accounts.ammCoinVault accounts.ammPcVault
    let (inputTokenMint, outputTokenMint, outputAmount) :=
      if resolved.coinToPc then
        (resolved.ammCoinMint, resolved.ammPcMint, checkedSub resolved.ammPcPre resolved.ammPcPost)
      else
        (resolved.ammPcMint, resolved.ammCoinMint,
          checkedSub resolved.ammCoinPre resolved.ammCoinPost)
    let outputAmount ← Outcome.ofOption .outputVaultIncreased outputAmount
    pure (some {
      provider := .raydiumV4 (some accounts.ammAccount)
      owner := some accounts.userWalletAccount
      inputAmount := amountIn
      outputAmount := outputAmount
      inputTokenMint := inputTokenMint
      outputTokenMint := outputTokenMint
      tokenDecimals := none })
  | .swapBaseOut _ amountOut accounts => do
    let resolved ← resolveRaydiumAccounts decoders.rounding statusMeta transaction.accountKeys
      accounts.userSourceTokenAccount accounts.userDestinationTokenAccount
      accounts.ammCoinVault accounts.ammPcVault
    let (inputTokenMint, outputTokenMint, inputAmount) :=
      if resolved.coinToPc then
        (resolved.ammCoinMint, resolved.ammPcMint,
          checkedSub resolved.ammCoinPost resolved.ammCoinPre)
      else
        (resolved.ammPcMint, resolved.ammCoinMint,
          checkedSub resolved.ammPcPost resolved.ammPcPre)
    let inputAmount ← Outcome.ofOption .inputVaultDecreased inputAmount
    pure (some {
      provider := .raydiumV4 (some accounts.ammAccount)
      owner := some accounts.userWalletAccount
      inputAmount := inputAmount
      outputAmount := amountOut
      inputTokenMint := inputTokenMint
      outputTokenMint := outputTokenMint
      tokenDecimals := none })
  | _ => pure none

/-! ## The search -/

/-- `V1Parser::parse_swap_instruction` -/
def parseSwapInstruction (decoders : Decoders) (transaction : ITransaction)
    (instruction : CompiledInstruction) (idx : Option ℕ) : Parsed (Option ResolvedSwap) := do
  let programId ← Outcome.ofOption .invalidProgramId (transaction.programId instruction)
  if programId = jupiterAggregatorV6ProgramId then
    match idx with
    | some idx => decodeJupiter transaction idx
    | none => pure none
  else if programId = pumpfunProgramId then decodePumpfun decoders transaction
  else if programId = raydiumLiquidityPoolV4ProgramId then
    decodeRaydiumV4 decoders transaction instruction
  else pure none

/-- The first swap of a list of instructions, each with its index in the message if it has
one; a failure ends the search. -/
def firstSwap (decoders : Decoders) (transaction : ITransaction) :
    List (CompiledInstruction × Option ℕ) → Parsed (Option ResolvedSwap)
  | [] => pure none
  | (instruction, idx) :: rest => do
    match ← parseSwapInstruction decoders transaction instruction idx with
    | some swap => pure (some swap)
    | none => firstSwap decoders transaction rest

/-- The instructions of a message with their indices. -/
def ITransaction.outerInstructions (transaction : ITransaction) :
    List (CompiledInstruction × Option ℕ) :=
  transaction.instructions.zipIdx.map fun ix => (ix.1, some ix.2)

/-- The inner instructions in the order in which `values()` yields their lists. -/
def ITransaction.innerFlattened (iter : Iteration (List CompiledInstruction))
    (transaction : ITransaction) : List (CompiledInstruction × Option ℕ) :=
  match transaction.innerInstructions with
  | some instructions => (iter.order (Table.values instructions)).flatten.map (·, none)
  | none => []

/-- `V1Parser::parse_swap_transaction` -/
def parseSwapTransaction (decoders : Decoders) (iter : Iteration (List CompiledInstruction))
    (transaction : ITransaction) : Parsed (Option ResolvedSwap) := do
  match ← firstSwap decoders transaction transaction.outerInstructions with
  | some swap => pure (some swap)
  | none => firstSwap decoders transaction (transaction.innerFlattened iter)

/-! ## What the event loops return -/

section Events

variable {α : Type} (eventDiscriminator : Bytes) (deserialize : Bytes → Option α)

/-- The event that logged bytes stand for, if they carry the discriminator. -/
def eventOf (data : Bytes) : Option α :=
  if data.take 8 = eventDiscriminator then deserialize (data.drop 8) else none

/-- One turn of the event loop. -/
theorem parseEvent_of_length (parsed : List α) {data : Bytes} (h : 8 ≤ data.length) :
    parseEvent eventDiscriminator deserialize parsed data =
      .ok (parsed ++ (eventOf eventDiscriminator deserialize data).toList) := by
  simp only [parseEvent, splitDiscriminator, if_pos h, Outcome.pure_eq, Outcome.ok_bind, eventOf]
  by_cases hdiscriminator : data.take 8 = eventDiscriminator
  · rw [if_pos hdiscriminator, if_pos hdiscriminator]
    cases deserialize (data.drop 8) with
    | none => simp only [Option.toList_none, List.append_nil]
    | some event => rfl
  · rw [if_neg hdiscriminator, if_neg hdiscriminator, Option.toList_none, List.append_nil]

/-- Bytes that are long enough yield their events in order. -/
theorem parseEvents_of_length {logs : List Bytes} (h : ∀ data ∈ logs, 8 ≤ data.length) :
    parseEvents eventDiscriminator deserialize logs =
      .ok (logs.filterMap (eventOf eventDiscriminator deserialize)) := by
  suffices hfold : ∀ parsed : List α,
      logs.foldlM (parseEvent eventDiscriminator deserialize) parsed =
        .ok (parsed ++ logs.filterMap (eventOf eventDiscriminator deserialize)) from hfold []
  induction logs with
  | nil =>
    intro parsed
    rw [List.filterMap_nil, List.append_nil]
    rfl
  | cons data logs ih =>
    intro parsed
    have hdata := h data List.mem_cons_self
    have hlogs := ih fun data' hdata' => h data' (List.mem_cons_of_mem data hdata')
    rw [List.foldlM_cons, parseEvent_of_length eventDiscriminator deserialize parsed hdata,
      Outcome.ok_bind, hlogs, List.append_assoc, List.filterMap_cons]
    cases eventOf eventDiscriminator deserialize data <;> rfl

/-- Bytes that are too short panic, whatever stands before them. -/
theorem parseEvents_eq_panic {logs : List Bytes} (h : ¬ ∀ data ∈ logs, 8 ≤ data.length) :
    parseEvents eventDiscriminator deserialize logs = .panic := by
  suffices hfold : ∀ parsed : List α,
      logs.foldlM (parseEvent eventDiscriminator deserialize) parsed = .panic from hfold []
  induction logs with
  | nil => exact (h fun _ hdata => by cases hdata).elim
  | cons data logs ih =>
    intro parsed
    by_cases hdata : 8 ≤ data.length
    · have hlogs : ¬ ∀ data ∈ logs, 8 ≤ data.length := fun hall =>
        h (List.forall_mem_cons.mpr ⟨hdata, hall⟩)
      rw [List.foldlM_cons, parseEvent_of_length eventDiscriminator deserialize parsed hdata,
        Outcome.ok_bind, ih hlogs]
    · rw [List.foldlM_cons]
      simp only [parseEvent, splitDiscriminator, if_neg hdata, Outcome.panic_bind]

end Events

/-- The inner instructions under an instruction of the message. -/
def ITransaction.innerOf (transaction : ITransaction) (key : UInt8) : List CompiledInstruction :=
  (transaction.innerInstructions.bind (·.lookup key)).getD []

/-- The event bytes under an instruction of the message. -/
theorem getCpiLogsForInstruction_getD (transaction : ITransaction) (idx : ℕ) :
    (getCpiLogsForInstruction transaction idx).getD [] =
      (transaction.innerOf (UInt8.ofNat idx)).filterMap anchorEventCpiFilter := by
  rw [ITransaction.innerOf, getCpiLogsForInstruction]
  cases transaction.innerInstructions with
  | none => rfl
  | some innerInstructions =>
    simp only [Option.bind_eq_bind, Option.bind_some, Option.pure_def]
    cases innerInstructions.lookup (UInt8.ofNat idx) <;> rfl

/-- The event bytes of an instruction stand after the tag. -/
theorem anchorEventCpiFilter_eq_some {ix : CompiledInstruction} {rest : Bytes} :
    anchorEventCpiFilter ix = some rest ↔ ix.data = eventIxTagLe ++ rest := by
  unfold anchorEventCpiFilter
  by_cases hlength : ix.data.length < eventIxTagLe.length
  · rw [if_pos hlength]
    constructor
    · intro h
      cases h
    · intro h
      rw [h, List.length_append] at hlength
      omega
  · rw [if_neg hlength]
    by_cases htag : ix.data.take eventIxTagLe.length = eventIxTagLe
    · rw [if_pos htag, Option.some.injEq]
      constructor
      · intro h
        rw [← h]
        conv_lhs => rw [← List.take_append_drop eventIxTagLe.length ix.data, htag]
      · intro h
        rw [h, List.drop_left]
    · rw [if_neg htag]
      constructor
      · intro h
        cases h
      · intro h
        rw [h, List.take_left] at htag
        exact (htag rfl).elim

end Biscuit.Parser
