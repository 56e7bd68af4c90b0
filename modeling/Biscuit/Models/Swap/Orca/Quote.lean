import Biscuit.Models.Copy.Details
import Biscuit.Models.Swap.Orca.TickArrays

/-!
# Quotes of a whirlpool

A quote simulates the swap on the state of the pool and its tick arrays, and puts a limit on the
other amount into the instruction. The pool comes from the node, or from a list that was fetched
earlier; what follows is the same. The simulation belongs to the program of the pool and is an
argument, like the answers of the node.
-/

namespace Biscuit.Swap

/-- `adjust_for_slippage`; the slippage is a fraction of the amount, one ten-thousandth for every
basis point. -/
def adjustForSlippage (amount : ℕ) (slippage : F64) (roundUp : Bool) : ℕ :=
  if roundUp then (F64.ofNat amount * (.fin 1 + slippage)).ceil.toU64
  else (F64.ofNat amount * (.fin 1 - slippage)).floor.toU64

namespace Orca

open Copy (SwapInput SwapExecutionMode)

/-- `whirLbMiicVdio4qvUfM5KAg6Ct8VwpYzGff3uctyCc` -/
def whirlpoolProgramId : Pubkey :=
  0x0e03685f8e909053e458121c66f5a76aedc7706aa11c82f8aa952a8f2b7879a9#256

/-- `TokenkegQfeZyiNwAJbNbGKPFXCWuBvf9Ss623VQ5DA` -/
def splTokenId : Pubkey :=
  0x06ddf6e1d765a193d9cbe146ceeb79ac1cb485ed5f5b37913a8cf5857eff00a9#256

/-- What a quote reads of a `Whirlpool`; the simulation knows the rest. -/
structure Whirlpool where
  tokenMintA : Pubkey
  tokenMintB : Pubkey
  tokenVaultA : Pubkey
  tokenVaultB : Pubkey
  tickSpacing : UInt16
  tickCurrentIndex : ℤ
  deriving DecidableEq, Repr

/-- What a simulated swap moves, by the tokens of the pool. -/
structure SwapResult where
  amountA : UInt64
  amountB : UInt64
  deriving DecidableEq, Repr

/-- The accounts of the instruction. -/
structure SwapAccounts where
  tokenProgram : Pubkey
  tokenAuthority : Pubkey
  whirlpool : Pubkey
  tokenOwnerAccountA : Pubkey
  tokenOwnerAccountB : Pubkey
  tokenVaultA : Pubkey
  tokenVaultB : Pubkey
  tickArray0 : Pubkey
  tickArray1 : Pubkey
  tickArray2 : Pubkey
  oracle : Pubkey
  deriving DecidableEq, Repr

/-- The data of the instruction. -/
structure SwapData where
  amount : ℕ
  otherAmountThreshold : ℕ
  sqrtPriceLimit : ℕ
  amountSpecifiedIsInput : Bool
  aToB : Bool
  deriving DecidableEq, Repr

/-- `OrcaInstructionBuilder` -/
structure OrcaInstructionBuilder where
  programId : Pubkey
  accounts : SwapAccounts
  data : SwapData
  deriving DecidableEq, Repr

/-- A token of a pool in the list. -/
structure Token where
  mint : Pubkey
  decimals : ℕ
  deriving DecidableEq, Repr

/-- What a quote reads of an `IWhirlPool`. -/
structure IWhirlPool where
  address : Pubkey
  tokenA : Token
  tokenB : Token
  deriving DecidableEq, Repr

/-- The answers a quote gets. A request that fails has no answer, and a key without an account
has none either; an account that cannot be deserialized is one without a value. -/
structure QuoteEnv (TickArray : Type) where
  pool : Pubkey → Option (Option Whirlpool)
  accounts : Option (Pubkey → Option (Option TickArray))
  findProgramAddress : List Seed → Pubkey → Pubkey
  /-- The time in seconds. -/
  now : Option ℕ
  /-- The simulation, with the pool, the tick arrays, the amount, the limit of the price, whether
  the amount is the input, the direction and the time. -/
  swap : Whirlpool → List TickArray → ℕ → ℕ → Bool → Bool → ℕ → Except ℕ SwapResult

variable {TickArray : Type}

/-- `get_default_sqrt_price_limit` -/
def getDefaultSqrtPriceLimit (aToB : Bool) : ℕ :=
  if aToB then 4295048016 else 79226673515401279992447579055

/-- `get_oracle_address` -/
def getOracleAddress (env : QuoteEnv TickArray) (programId whirlpool : Pubkey) : Pubkey :=
  env.findProgramAddress [.text "oracle", .key whirlpool] programId

/-- A tick array, out of the accounts that were fetched. -/
def fetchTickArray (accounts : Pubkey → Option (Option TickArray)) (key : Pubkey) :
    Outcome OrcaError TickArray := do
  let account ← Outcome.unwrap (accounts key)
  Outcome.ofOption .deserialize account

/-- `get_tick_arrays` -/
def getTickArrays (b : Build) (env : QuoteEnv TickArray) (tickCurrentIndex tickSpacing : ℤ)
    (aToB : Bool) (programId whirlpoolAddress : Pubkey) :
    Outcome OrcaError (List TickArray × List Pubkey) := do
  let keys ← getTickArrayKeys b env.findProgramAddress tickCurrentIndex tickSpacing aToB programId
    whirlpoolAddress
  let accounts ← Outcome.ofOption .request env.accounts
  let tickArrays ← keys.mapM (fetchTickArray accounts)
  .ok (tickArrays, keys)

/-- `calculate_swap_amounts_from_quote` -/
def calculateSwapAmountsFromQuote (estAmountIn estAmountOut : ℕ) (slippage : F64)
    (amountSpecifiedIsInput : Bool) : ℕ :=
  if amountSpecifiedIsInput then adjustForSlippage estAmountOut slippage false
  else adjustForSlippage estAmountIn slippage true

/-- The simulation, or why it fails. -/
def runSwap (env : QuoteEnv TickArray) (whirlpool : Whirlpool) (tickArrays : List TickArray)
    (amount sqrtPriceLimit : ℕ) (amountSpecifiedIsInput aToB : Bool) (timestamp : ℕ) :
    Outcome OrcaError SwapResult :=
  match env.swap whirlpool tickArrays amount sqrtPriceLimit amountSpecifiedIsInput aToB timestamp
    with
  | .ok swapResult => .ok swapResult
  | .error code => .err (.swap code)

/-- The first part of both quotes: the simulation on three tick arrays, and the keys of the tick
arrays. -/
def simulateSwap (b : Build) (env : QuoteEnv TickArray) (poolId : Pubkey) (whirlpool : Whirlpool)
    (swapInput : SwapInput) (aToB : Bool) : Outcome OrcaError (SwapResult × List Pubkey) := do
  let (tickArrays, tickArrayKeys) ← getTickArrays b env whirlpool.tickCurrentIndex
    whirlpool.tickSpacing.toNat aToB whirlpoolProgramId poolId
  let tickArray0 ← Outcome.unwrap tickArrays[0]?
  let tickArray1 ← Outcome.unwrap tickArrays[1]?
  let tickArray2 ← Outcome.unwrap tickArrays[2]?
  let timestamp ← Outcome.ofOption .clock env.now
  let swapResult ← runSwap env whirlpool [tickArray0, tickArray1, tickArray2] swapInput.amount
    (getDefaultSqrtPriceLimit aToB) (swapInput.mode == .exactIn) aToB timestamp
  .ok (swapResult, tickArrayKeys)

/-- What both quotes do once they have the pool and the direction. -/
def quoteDirected (b : Build) (env : QuoteEnv TickArray) (keypair poolId : Pubkey)
    (whirlpool : Whirlpool) (swapInput : SwapInput) (aToB : Bool) :
    Outcome OrcaError (ℕ × ℕ × OrcaInstructionBuilder) := do
  let amountSpecifiedIsInput := swapInput.mode == .exactIn
  let (swapResult, tickArrayKeys) ← simulateSwap b env poolId whirlpool swapInput aToB
  let quote := if aToB then swapResult.amountB.toNat else swapResult.amountA.toNat
  let (amountIn, amountOut) :=
    if aToB == amountSpecifiedIsInput then (swapResult.amountA.toNat, swapResult.amountB.toNat)
    else (swapResult.amountB.toNat, swapResult.amountA.toNat)
  let slippageAdjustedQuote := calculateSwapAmountsFromQuote amountIn amountOut
    (F64.ofNat swapInput.slippageBps / .fin 1000) amountSpecifiedIsInput
  let tickArray0 ← Outcome.unwrap tickArrayKeys[0]?
  let tickArray1 := (tickArrayKeys[1]?).getD tickArray0
  let tickArray2 := (tickArrayKeys[2]?).getD tickArray1
  .ok (quote, slippageAdjustedQuote,
    { programId := whirlpoolProgramId
      accounts :=
        { tokenProgram := splTokenId
          tokenAuthority := keypair
          whirlpool := poolId
          tokenOwnerAccountA := 0
          tokenOwnerAccountB := 0
          tokenVaultA := whirlpool.tokenVaultA
          tokenVaultB := whirlpool.tokenVaultB
          tickArray0
          tickArray1
          tickArray2
          oracle := getOracleAddress env whirlpoolProgramId poolId }
      data :=
        { amount := swapInput.amount
          otherAmountThreshold := slippageAdjustedQuote
          sqrtPriceLimit := getDefaultSqrtPriceLimit aToB
          amountSpecifiedIsInput
          aToB } })

/-- The direction of a swap between the two tokens of a pool. -/
def swapDirection (mismatch : OrcaError) (mintA mintB : Pubkey) (swapInput : SwapInput) :
    Outcome OrcaError Bool :=
  if mintA = swapInput.inputTokenMint ∧ mintB = swapInput.outputTokenMint then .ok true
  else if mintB = swapInput.inputTokenMint ∧ mintA = swapInput.outputTokenMint then .ok false
  else .err mismatch

/-- The account of a pool. -/
def fetchPool (env : QuoteEnv TickArray) (poolId : Pubkey) : Outcome OrcaError Whirlpool := do
  let account ← Outcome.ofOption .request (env.pool poolId)
  Outcome.ofOption .deserialize account

/-- The pool that is given, or else its account. -/
def resolvePool (env : QuoteEnv TickArray) (poolId : Pubkey) (poolInfo : Option Whirlpool) :
    Outcome OrcaError Whirlpool :=
  match poolInfo with
  | some p => .ok p
  | none => fetchPool env poolId

/-- `quote` -/
def quote (b : Build) (env : QuoteEnv TickArray) (keypair poolId : Pubkey)
    (poolInfo : Option Whirlpool) (swapInput : SwapInput) :
    Outcome OrcaError (ℕ × ℕ × OrcaInstructionBuilder) := do
  let whirlpool ← resolvePool env poolId poolInfo
  let aToB ← swapDirection .rpcMints whirlpool.tokenMintA whirlpool.tokenMintB swapInput
  quoteDirected b env keypair poolId whirlpool swapInput aToB

/-- `quote_with_api_info`; the amounts it logs are scaled with powers of ten that can overflow. -/
def quoteWithApiInfo (b : Build) (env : QuoteEnv TickArray) (keypair : Pubkey)
    (poolInfo : IWhirlPool) (swapInput : SwapInput) :
    Outcome OrcaError (ℕ × ℕ × OrcaInstructionBuilder) := do
  let aToB ← swapDirection .apiMints poolInfo.tokenA.mint poolInfo.tokenB.mint swapInput
  let whirlpool ← fetchPool env poolInfo.address
  let result ← quoteDirected b env keypair poolInfo.address whirlpool swapInput aToB
  let (inTokenDecimals, outTokenDecimals) :=
    if aToB then (poolInfo.tokenA.decimals, poolInfo.tokenB.decimals)
    else (poolInfo.tokenB.decimals, poolInfo.tokenA.decimals)
  let _ ← b.pow 64 10 (inTokenDecimals % 2 ^ 32)
  let _ ← b.pow 64 10 (outTokenDecimals % 2 ^ 32)
  .ok result

/-! ## The limit on the other amount -/

/-- What the pool takes in. -/
def SwapResult.amountIn (r : SwapResult) (aToB : Bool) : ℕ :=
  if aToB then r.amountA.toNat else r.amountB.toNat

/-- What the pool gives out. -/
def SwapResult.amountOut (r : SwapResult) (aToB : Bool) : ℕ :=
  if aToB then r.amountB.toNat else r.amountA.toNat

/-- The limit that the slippage allows: the least output of a given input, or the most input of a
given output. -/
def allowedThreshold (r : SwapResult) (aToB : Bool) (swapInput : SwapInput) : ℕ :=
  match swapInput.mode with
  | .exactIn => ⌊(r.amountOut aToB : ℚ) * (1 - swapInput.slippageBps / 10000)⌋₊
  | .exactOut => ⌈(r.amountIn aToB : ℚ) * (1 + swapInput.slippageBps / 10000)⌉₊

/-- A number rounded up to the next thousand. -/
def upToThousand (n : ℕ) : ℕ := (n + 999) / 1000 * 1000

/-- When an output with thousandths for the slippage reaches as far as an input with
ten-thousandths. Of equal amounts, the thousandths go unnoticed while they are at most one unit. A
larger input has to exceed the output by what the thousandths come to in excess, and a smaller one
never reaches as far, unless the limit is cut off at the largest word. -/
def OutputReaches (input output bps : ℕ) : Prop :=
  if maxU64 * 1000 < output * 1000 + output * bps then
    (maxU64 - 1) * 10000 < input * 10000 + input * bps ∧
      input * 10000 + input * bps ≤ maxU64 * 10000
  else if input ≤ output then input = output ∧ output * bps ≤ 1000
  else
    (input - output) * 10000 + input * bps ≤ 10 * upToThousand (output * bps) ∧
      10 * upToThousand (output * bps) < (input - output) * 10000 + input * bps + 10000

/-- When the limit is the allowed one. The code takes a thousandth of the amount for each basis
point, which goes unnoticed while that is at most one unit; and it takes the output for the input
when the output is given. -/
def ThresholdFits (r : SwapResult) (aToB : Bool) (swapInput : SwapInput) : Prop :=
  match swapInput.mode with
  | .exactIn =>
    if swapInput.slippageBps ≤ 1000 then r.amountOut aToB * swapInput.slippageBps ≤ 1000
    else r.amountOut aToB * (10000 - swapInput.slippageBps) < 10000
  | .exactOut => OutputReaches (r.amountIn aToB) (r.amountOut aToB) swapInput.slippageBps

theorem SwapResult.amountOut_lt (r : SwapResult) (aToB : Bool) : r.amountOut aToB < 2 ^ 64 := by
  unfold SwapResult.amountOut
  split_ifs
  · exact r.amountB.toNat_lt
  · exact r.amountA.toNat_lt

/-- The limit of the code: the output is what it adjusts in both modes. -/
def thousandthsThreshold (r : SwapResult) (aToB : Bool) (swapInput : SwapInput) : ℕ :=
  match swapInput.mode with
  | .exactIn => min (r.amountOut aToB * (1000 - swapInput.slippageBps) / 1000) maxU64
  | .exactOut =>
    min (r.amountOut aToB + (r.amountOut aToB * swapInput.slippageBps + 999) / 1000) maxU64

/-- Without rounding of the fraction, the limit is an integer quotient. -/
theorem calculateSwapAmountsFromQuote_eq (r : SwapResult) (aToB : Bool) (swapInput : SwapInput)
    {amountIn amountOut : ℕ} {amountSpecifiedIsInput : Bool}
    (hmode : amountSpecifiedIsInput = (swapInput.mode == .exactIn))
    (hamounts : (amountIn, amountOut) =
      if aToB == amountSpecifiedIsInput then (r.amountA.toNat, r.amountB.toNat)
      else (r.amountB.toNat, r.amountA.toNat)) :
    calculateSwapAmountsFromQuote amountIn amountOut
        (F64.ofNat swapInput.slippageBps / .fin 1000) amountSpecifiedIsInput =
      thousandthsThreshold r aToB swapInput := by
  have h1000 : 0 < 1000 := by norm_num
  have hslippage : F64.ofNat swapInput.slippageBps / .fin 1000 =
      .fin (swapInput.slippageBps / (1000 : ℕ)) :=
    F64.ofNat_div_ofNat _ h1000
  rw [hslippage]
  unfold calculateSwapAmountsFromQuote adjustForSlippage thousandthsThreshold
  cases hm : swapInput.mode with
  | exactIn =>
    rw [hm] at hmode
    subst hmode
    have hout : amountOut = r.amountOut aToB := by
      cases aToB <;> exact (Prod.mk.inj hamounts).2
    simp only [beq_self_eq_true, if_true, Bool.false_eq_true, if_false, hout]
    rw [F64.fin_sub_fin, F64.ofNat, F64.fin_mul_fin, F64.toU64_floor_fin, Int.floor_toNat,
      F64.floor_mul_one_sub _ _ h1000]
  | exactOut =>
    rw [hm] at hmode
    have hfalse : amountSpecifiedIsInput = false := hmode
    subst hfalse
    have hin : amountIn = r.amountOut aToB := by
      cases aToB <;> exact (Prod.mk.inj hamounts).1
    simp only [Bool.false_eq_true, if_false, if_true, hin]
    rw [F64.fin_add_fin, F64.ofNat, F64.fin_mul_fin, F64.toU64_ceil_fin, Int.ceil_toNat,
      F64.ceil_mul_one_add _ _ h1000]

/-- A thousandth and a ten-thousandth for each basis point round to the same amount while they
stay within one unit. -/
theorem floor_eq_floor_iff {x bps : ℕ} (hbps : bps ≤ 10000) :
    x * (1000 - bps) / 1000 = x * (10000 - bps) / 10000 ↔
      if bps ≤ 1000 then x * bps ≤ 1000 else x * (10000 - bps) < 10000 := by
  split_ifs with hsmall
  · rw [Nat.mul_sub, Nat.mul_sub]
    have hle := Nat.mul_le_mul_left x hsmall
    generalize x * bps = m at hle ⊢
    omega
  · rw [Nat.sub_eq_zero_of_le (by omega), Nat.mul_zero, Nat.zero_div, eq_comm,
      Nat.div_eq_zero_iff]
    omega

/-- The limit that adds thousandths to the output, cut off at the largest word, is the one that
adds ten-thousandths to the input exactly when the output reaches as far. -/
theorem ceil_eq_ceil_iff (input output bps : ℕ) :
    min (output + (output * bps + 999) / 1000) maxU64 = input + (input * bps + 9999) / 10000 ↔
      OutputReaches input output bps := by
  unfold OutputReaches upToThousand maxU64
  have hmono : input ≤ output → input * bps ≤ output * bps := Nat.mul_le_mul_right bps
  have hequal : input = output → input * bps = output * bps := congrArg (· * bps)
  generalize input * bps = charged at hmono hequal ⊢
  generalize output * bps = taken at hmono hequal ⊢
  split_ifs with hcut hle
  · omega
  · have := hmono hle
    constructor
    · intro h
      have hsame : input = output := by omega
      have := hequal hsame
      omega
    · rintro ⟨hsame, hone⟩
      have := hequal hsame
      omega
  · omega

/-- The limit of the code is the allowed one exactly when they round to the same amount. -/
theorem thousandthsThreshold_eq_iff (r : SwapResult) (aToB : Bool) {swapInput : SwapInput}
    (hbps : swapInput.slippageBps ≤ 10000) :
    thousandthsThreshold r aToB swapInput = allowedThreshold r aToB swapInput ↔
      ThresholdFits r aToB swapInput := by
  have h10000 : 0 < 10000 := by norm_num
  unfold thousandthsThreshold allowedThreshold ThresholdFits
  cases hm : swapInput.mode with
  | exactIn =>
    have hallowed := F64.floor_mul_one_sub (r.amountOut aToB) swapInput.slippageBps h10000
    rw [Nat.cast_ofNat] at hallowed
    have hle : r.amountOut aToB * (1000 - swapInput.slippageBps) / 1000 ≤ maxU64 := by
      refine le_trans (Nat.div_le_of_le_mul ?_) (le_maxU64_iff.mpr (r.amountOut_lt aToB))
      rw [Nat.mul_comm]
      exact Nat.mul_le_mul_right _ (Nat.sub_le _ _)
    simp only
    rw [hallowed, min_eq_left hle, floor_eq_floor_iff hbps]
  | exactOut =>
    have hallowed := F64.ceil_mul_one_add (r.amountIn aToB) swapInput.slippageBps h10000
    rw [Nat.cast_ofNat] at hallowed
    simp only
    rw [hallowed, ceil_eq_ceil_iff]

/-- The instruction of a quote is for a simulated swap. -/
theorem quoteDirected_data {b : Build} {env : QuoteEnv TickArray} {keypair poolId : Pubkey}
    {whirlpool : Whirlpool} {swapInput : SwapInput} {aToB : Bool} {quote adjusted : ℕ}
    {ix : OrcaInstructionBuilder}
    (h : quoteDirected b env keypair poolId whirlpool swapInput aToB = .ok (quote, adjusted, ix)) :
    ∃ r keys, simulateSwap b env poolId whirlpool swapInput aToB = .ok (r, keys) ∧
      ix.data.aToB = aToB ∧
      ix.data.otherAmountThreshold = thousandthsThreshold r aToB swapInput := by
  unfold quoteDirected at h
  obtain ⟨⟨r, keys⟩, hsimulate, h⟩ := Outcome.bind_eq_ok.mp h
  obtain ⟨tickArray0, -, h⟩ := Outcome.bind_eq_ok.mp h
  cases h
  exact ⟨r, keys, hsimulate, rfl, calculateSwapAmountsFromQuote_eq r aToB swapInput rfl rfl⟩

/-- The instruction that one of the two quotes gives for a pool. -/
inductive Quoted (b : Build) (env : QuoteEnv TickArray) (keypair : Pubkey) (swapInput : SwapInput) :
    Pubkey → Whirlpool → OrcaInstructionBuilder → Prop
  | rpc {poolId : Pubkey} {poolInfo : Option Whirlpool} {whirlpool : Whirlpool}
      {quoted adjusted : ℕ} {ix : OrcaInstructionBuilder}
      (hpool : resolvePool env poolId poolInfo = .ok whirlpool)
      (h : quote b env keypair poolId poolInfo swapInput = .ok (quoted, adjusted, ix)) :
      Quoted b env keypair swapInput poolId whirlpool ix
  | api {poolInfo : IWhirlPool} {whirlpool : Whirlpool} {quoted adjusted : ℕ}
      {ix : OrcaInstructionBuilder} (hpool : fetchPool env poolInfo.address = .ok whirlpool)
      (h : quoteWithApiInfo b env keypair poolInfo swapInput = .ok (quoted, adjusted, ix)) :
      Quoted b env keypair swapInput poolInfo.address whirlpool ix

/-- Both quotes end in the same way. -/
theorem Quoted.directed {b : Build} {env : QuoteEnv TickArray} {keypair : Pubkey}
    {swapInput : SwapInput} {poolId : Pubkey} {whirlpool : Whirlpool} {ix : OrcaInstructionBuilder}
    (h : Quoted b env keypair swapInput poolId whirlpool ix) :
    ∃ aToB quoted adjusted,
      quoteDirected b env keypair poolId whirlpool swapInput aToB = .ok (quoted, adjusted, ix) := by
  cases h with
  | rpc hpool h =>
    rw [quote, hpool, Outcome.ok_bind] at h
    obtain ⟨aToB, -, h⟩ := Outcome.bind_eq_ok.mp h
    exact ⟨aToB, _, _, h⟩
  | api hpool h =>
    unfold quoteWithApiInfo at h
    obtain ⟨aToB, -, h⟩ := Outcome.bind_eq_ok.mp h
    rw [hpool, Outcome.ok_bind] at h
    obtain ⟨result, hresult, h⟩ := Outcome.bind_eq_ok.mp h
    obtain ⟨_, -, h⟩ := Outcome.bind_eq_ok.mp h
    obtain ⟨_, -, h⟩ := Outcome.bind_eq_ok.mp h
    exact ⟨aToB, _, _, hresult.trans h⟩

/-- The limit in the instruction of a quote is the one that the slippage allows for the simulated
swap exactly when the thousandth for each basis point goes unnoticed. -/
theorem Quoted.threshold_iff {b : Build} {env : QuoteEnv TickArray} {keypair : Pubkey}
    {swapInput : SwapInput} {poolId : Pubkey} {whirlpool : Whirlpool} {ix : OrcaInstructionBuilder}
    (h : Quoted b env keypair swapInput poolId whirlpool ix)
    (hbps : swapInput.slippageBps ≤ 10000) :
    ∃ r keys, simulateSwap b env poolId whirlpool swapInput ix.data.aToB = .ok (r, keys) ∧
      (ix.data.otherAmountThreshold = allowedThreshold r ix.data.aToB swapInput ↔
        ThresholdFits r ix.data.aToB swapInput) := by
  obtain ⟨aToB, quoted, adjusted, hdirected⟩ := h.directed
  obtain ⟨r, keys, hsimulate, haToB, hlimit⟩ := quoteDirected_data hdirected
  subst haToB
  refine ⟨r, keys, hsimulate, ?_⟩
  rw [hlimit, thousandthsThreshold_eq_iff r ix.data.aToB hbps]

/-- A pool in the middle of the range. -/
def samplePool : Whirlpool where
  tokenMintA := 1
  tokenMintB := 2
  tokenVaultA := 3
  tokenVaultB := 4
  tickSpacing := 64
  tickCurrentIndex := 0

/-- Every tick array exists, and every swap moves the same amounts. -/
def sampleQuoteEnv (r : SwapResult) : QuoteEnv Unit where
  pool _ := some (some samplePool)
  accounts := some fun _ => some (some ())
  findProgramAddress _ _ := 7
  now := some 0
  swap _ _ _ _ _ _ _ := .ok r

/-- One of the first token for the second one. -/
def sampleSwapInput (slippageBps : ℕ) (mode : SwapExecutionMode) : SwapInput where
  inputTokenMint := 1
  outputTokenMint := 2
  slippageBps
  amount := 500
  mode
  market := none

/-- The instruction of the sample pool with so much as its limit. -/
def sampleInstruction (otherAmountThreshold : ℕ) (amountSpecifiedIsInput : Bool) :
    OrcaInstructionBuilder where
  programId := whirlpoolProgramId
  accounts :=
    { tokenProgram := splTokenId
      tokenAuthority := 5
      whirlpool := 6
      tokenOwnerAccountA := 0
      tokenOwnerAccountB := 0
      tokenVaultA := 3
      tokenVaultB := 4
      tickArray0 := 7
      tickArray1 := 7
      tickArray2 := 7
      oracle := 7 }
  data :=
    { amount := 500
      otherAmountThreshold
      sqrtPriceLimit := 4295048016
      amountSpecifiedIsInput
      aToB := true }

/-- An output of a thousand with a slippage of one basis point. -/
theorem threshold_iff_oneBasisPoint :
    ∃ r keys, simulateSwap .checked (sampleQuoteEnv ⟨500, 1000⟩) 6 samplePool
        (sampleSwapInput 1 .exactIn) (sampleInstruction 999 true).data.aToB = .ok (r, keys) ∧
      ((sampleInstruction 999 true).data.otherAmountThreshold =
          allowedThreshold r (sampleInstruction 999 true).data.aToB (sampleSwapInput 1 .exactIn) ↔
        ThresholdFits r (sampleInstruction 999 true).data.aToB (sampleSwapInput 1 .exactIn)) := by
  have hquote : quote .checked (sampleQuoteEnv ⟨500, 1000⟩) 5 6 none (sampleSwapInput 1 .exactIn) =
      .ok (1000, 999, sampleInstruction 999 true) := by
    decide +kernel
  exact Quoted.threshold_iff (.rpc rfl hquote) (by decide)

/-- A tenth of the output is given up for one percent of slippage, and without any slippage the
output of a thousand is the limit of an input of five hundred. -/
theorem not_threshold_allowed :
    (quote .checked (sampleQuoteEnv ⟨500, 1000000⟩) 5 6 none (sampleSwapInput 100 .exactIn) =
        .ok (1000000, 900000, sampleInstruction 900000 true) ∧
      allowedThreshold ⟨500, 1000000⟩ true (sampleSwapInput 100 .exactIn) = 990000) ∧
    (quote .checked (sampleQuoteEnv ⟨500, 1000⟩) 5 6 none (sampleSwapInput 0 .exactOut) =
        .ok (1000, 1000, sampleInstruction 1000 false) ∧
      allowedThreshold ⟨500, 1000⟩ true (sampleSwapInput 0 .exactOut) = 500) := by
  decide +kernel

/-! ## Fewer than three tick arrays -/

/-- The tick arrays that a swap in a pool may go through. -/
def poolArrayKeys (env : QuoteEnv TickArray) (poolId : Pubkey) (whirlpool : Whirlpool)
    (aToB : Bool) : List Pubkey :=
  swapArrayKeys env.findProgramAddress whirlpool.tickCurrentIndex whirlpool.tickSpacing.toNat aToB
    whirlpoolProgramId poolId

/-- Three arrays are within the range, and each of them has an account. -/
def ThreeArrays (env : QuoteEnv TickArray) (keys : List Pubkey) : Prop :=
  keys.length = maxSwapTickArrays ∧
    ∃ accounts, env.accounts = some accounts ∧ ∀ key ∈ keys, accounts key ≠ none

/-- The accounts cannot be had, or one that is no tick array comes before any missing one. -/
def Unreadable (env : QuoteEnv TickArray) (keys : List Pubkey) : Prop :=
  ∀ accounts, env.accounts = some accounts →
    ∃ done key rest, keys = done ++ key :: rest ∧
      (∀ k ∈ done, ∃ tickArray, accounts k = some (some tickArray)) ∧ accounts key = some none

theorem fetchTickArray_eq_ok {accounts : Pubkey → Option (Option TickArray)} {key : Pubkey}
    {tickArray : TickArray} :
    fetchTickArray accounts key = .ok tickArray ↔ accounts key = some (some tickArray) := by
  unfold fetchTickArray
  rcases accounts key with _ | _ | _ <;> simp

theorem fetchTickArray_eq_err {accounts : Pubkey → Option (Option TickArray)} {key : Pubkey}
    {e : OrcaError} :
    fetchTickArray accounts key = .err e ↔ accounts key = some none ∧ e = .deserialize := by
  unfold fetchTickArray
  rcases accounts key with _ | _ | _ <;> simp [eq_comm]

/-- The fetched accounts fail with an error exactly when one that is no tick array comes first. -/
theorem unreadable_iff {env : QuoteEnv TickArray} {keys : List Pubkey}
    {accounts : Pubkey → Option (Option TickArray)} (haccounts : env.accounts = some accounts) :
    Unreadable env keys ↔ ∃ e, keys.mapM (fetchTickArray accounts) = .err e := by
  unfold Unreadable
  simp only [haccounts, Option.some.injEq, forall_eq', Outcome.mapM_eq_err, fetchTickArray_eq_ok,
    fetchTickArray_eq_err]
  constructor
  · rintro ⟨done, key, rest, hkeys, hdone, hkey⟩
    exact ⟨.deserialize, done, key, rest, hkeys, hdone, hkey, rfl⟩
  · rintro ⟨e, done, key, rest, hkeys, hdone, hkey, -⟩
    exact ⟨done, key, rest, hkeys, hdone, hkey⟩

/-- With fewer than three arrays, the quote panics unless the accounts cannot be read. -/
theorem quoteDirected_ne_panic_iff {b : Build} {env : QuoteEnv TickArray} (keypair : Pubkey)
    {poolId : Pubkey} {whirlpool : Whirlpool} (swapInput : SwapInput) {aToB : Bool}
    {keys : List Pubkey}
    (hkeys : getTickArrayKeys b env.findProgramAddress whirlpool.tickCurrentIndex
      whirlpool.tickSpacing.toNat aToB whirlpoolProgramId poolId = .ok keys)
    (hlength : keys.length ≤ maxSwapTickArrays) (hfew : ¬ ThreeArrays env keys) :
    quoteDirected b env keypair poolId whirlpool swapInput aToB ≠ .panic ↔
      Unreadable env keys := by
  unfold quoteDirected simulateSwap getTickArrays
  rw [hkeys, Outcome.ok_bind]
  cases haccounts : env.accounts with
  | none =>
    refine iff_of_true (by simp) fun accounts h => ?_
    cases haccounts.symm.trans h
  | some accounts =>
    rw [unreadable_iff haccounts, Outcome.ofOption_some, Outcome.ok_bind]
    cases hfetch : keys.mapM (fetchTickArray accounts) with
    | panic => simp
    | err e => simp
    | ok tickArrays =>
      -- all accounts are there, so it is the range that ends early
      have hall := Outcome.mapM_eq_ok.mp hfetch
      have hshort : tickArrays.length < maxSwapTickArrays := by
        rw [← hall.length_eq]
        refine lt_of_le_of_ne hlength fun h => hfew ⟨h, accounts, haccounts, fun key hkey => ?_⟩
        obtain ⟨tickArray, htickArray⟩ :=
          Outcome.exists_mapM_eq_ok.mp ⟨tickArrays, hfetch⟩ key hkey
        rw [fetchTickArray_eq_ok.mp htickArray]
        exact Option.some_ne_none _
      have hpanic : (tickArrays[2]? : Option TickArray) = none :=
        List.getElem?_eq_none (Nat.le_of_lt_succ hshort)
      refine iff_of_false (not_not.mpr ?_) (by simp)
      simp only [Outcome.ok_bind, hpanic]
      cases tickArrays[0]? <;> cases tickArrays[1]? <;> rfl

/-- The tick arrays cover the price of a pool: the start of its array is found, the addresses are
those of arrays in a row from there on, and a quote does not depend on three of them. -/
structure TickArraysCover (b : Build) (env : QuoteEnv TickArray) (keypair poolId : Pubkey)
    (poolInfo : Option Whirlpool) (swapInput : SwapInput) (whirlpool : Whirlpool) (aToB : Bool) :
    Prop where
  start : StartCovers b whirlpool.tickCurrentIndex whirlpool.tickSpacing.toNat
  keys : ∀ programId whirlpoolAddress, KeysCover b env.findProgramAddress
    whirlpool.tickCurrentIndex whirlpool.tickSpacing.toNat aToB programId whirlpoolAddress
  quotes : ¬ ThreeArrays env (poolArrayKeys env poolId whirlpool aToB) →
    quote b env keypair poolId poolInfo swapInput ≠ .panic

/-- When they do: the price is not in the array with the least tick, the array that the swap starts
at is in range, and three arrays exist or the accounts cannot be read. -/
structure ArraysAllow (env : QuoteEnv TickArray) (poolId : Pubkey) (whirlpool : Whirlpool)
    (aToB : Bool) : Prop where
  least : whirlpool.tickCurrentIndex / ticksInArray whirlpool.tickSpacing.toNat ≠
    minTickIndex / ticksInArray whirlpool.tickSpacing.toNat
  start : ArrayInRange whirlpool.tickSpacing.toNat
    (startArray whirlpool.tickCurrentIndex whirlpool.tickSpacing.toNat aToB)
  accounts : ThreeArrays env (poolArrayKeys env poolId whirlpool aToB) ∨
    Unreadable env (poolArrayKeys env poolId whirlpool aToB)

/-- A quote of a pool with fewer than three arrays panics unless the accounts cannot be read. -/
theorem quote_ne_panic_iff (b : Build) {env : QuoteEnv TickArray} (keypair : Pubkey)
    {poolId : Pubkey} {poolInfo : Option Whirlpool} {whirlpool : Whirlpool}
    (hpool : resolvePool env poolId poolInfo = .ok whirlpool) {swapInput : SwapInput} {aToB : Bool}
    (hdirection : swapDirection .rpcMints whirlpool.tokenMintA whirlpool.tokenMintB swapInput =
      .ok aToB)
    (hlow : minTickIndex ≤ whirlpool.tickCurrentIndex)
    (hhigh : whirlpool.tickCurrentIndex ≤ maxTickIndex) (hpos : 0 < whirlpool.tickSpacing.toNat)
    (hfew : ¬ ThreeArrays env (poolArrayKeys env poolId whirlpool aToB)) :
    quote b env keypair poolId poolInfo swapInput ≠ .panic ↔
      Unreadable env (poolArrayKeys env poolId whirlpool aToB) := by
  have hkeys := getTickArrayKeys_eq b env.findProgramAddress hlow hhigh hpos
    whirlpool.tickSpacing.toNat_lt aToB whirlpoolProgramId poolId
  have hlength : (poolArrayKeys env poolId whirlpool aToB).length ≤ maxSwapTickArrays := by
    simp only [poolArrayKeys, swapArrayKeys, addressesFrom, List.length_map, List.length_range]
    exact arraysFrom_le _ _ _ _
  rw [quote, hpool, Outcome.ok_bind, hdirection, Outcome.ok_bind]
  exact quoteDirected_ne_panic_iff keypair swapInput hkeys hlength hfew

theorem tickArraysCover_iff (b : Build) {env : QuoteEnv TickArray} (keypair : Pubkey)
    {poolId : Pubkey} {poolInfo : Option Whirlpool} {whirlpool : Whirlpool}
    (hpool : resolvePool env poolId poolInfo = .ok whirlpool) {swapInput : SwapInput} {aToB : Bool}
    (hdirection : swapDirection .rpcMints whirlpool.tokenMintA whirlpool.tokenMintB swapInput =
      .ok aToB)
    (hlow : minTickIndex ≤ whirlpool.tickCurrentIndex)
    (hhigh : whirlpool.tickCurrentIndex ≤ maxTickIndex) (hpos : 0 < whirlpool.tickSpacing.toNat) :
    TickArraysCover b env keypair poolId poolInfo swapInput whirlpool aToB ↔
      ArraysAllow env poolId whirlpool aToB := by
  have hword := whirlpool.tickSpacing.toNat_lt
  have hstart := startCovers_iff b hlow hhigh hpos hword
  have hkeys := keysCover_iff b env.findProgramAddress hlow hhigh hpos hword aToB
  have hquote := quote_ne_panic_iff b keypair hpool hdirection hlow hhigh hpos
  constructor
  · rintro ⟨hstarts, hcover, hquotes⟩
    refine ⟨hstart.mp hstarts, (hkeys whirlpoolProgramId poolId).mp (hcover _ _), ?_⟩
    rw [Classical.or_iff_not_imp_left]
    exact fun hfew => (hquote hfew).mp (hquotes hfew)
  · rintro ⟨hleast, hin, haccounts⟩
    refine ⟨hstart.mpr hleast, fun _ _ => (hkeys _ _).mpr hin, fun hfew => ?_⟩
    exact (hquote hfew).mpr (haccounts.resolve_left hfew)

/-- In the middle of the range, all three arrays exist. -/
theorem tickArraysCover_samplePool :
    TickArraysCover .checked (sampleQuoteEnv ⟨500, 1000⟩) 5 6 none (sampleSwapInput 1 .exactIn)
      samplePool true := by
  refine (tickArraysCover_iff .checked 5 rfl rfl ?_ ?_ ?_).mpr ⟨?_, ?_, .inl ⟨?_, ?_⟩⟩
  · decide
  · decide
  · decide
  · decide +kernel
  · decide +kernel
  · decide +kernel
  · exact ⟨_, rfl, fun _ _ => Option.some_ne_none _⟩

/-- At the least tick no start is found, there are no arrays to go through, and the quote
panics. -/
theorem not_tickArraysCover_leastTick :
    getStartTickIndex .checked minTickIndex 64 0 = .err (.startTooSmall (-444928)) ∧
    getTickArrayKeys .checked (fun _ _ => 7) minTickIndex 64 true whirlpoolProgramId 6 = .ok [] ∧
    quote .checked (sampleQuoteEnv ⟨500, 1000⟩) 5 6
        (some { samplePool with tickCurrentIndex := minTickIndex }) (sampleSwapInput 1 .exactIn) =
      .panic ∧
    -- the third array of the sample pool does not exist
    quote .checked
        { sampleQuoteEnv ⟨500, 1000⟩ with
          findProgramAddress := fun seeds _ => if .text "-11264" ∈ seeds then 8 else 7
          accounts := some fun key => if key = 8 then none else some (some ()) }
        5 6 none (sampleSwapInput 1 .exactIn) =
      .panic := by
  decide +kernel

end Orca

end Biscuit.Swap
