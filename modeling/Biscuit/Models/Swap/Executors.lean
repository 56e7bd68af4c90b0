import Biscuit.Models.Parser.Transaction
import Biscuit.Models.Swap.Builder

/-!
# Swap executors

The executors for Pump and for Raydium fill a builder for a quote. Whatever is configured, the
transaction is laid out in one way: limit and price of its compute units, the accounts and the
wrapping, the tip, the swap, the unwrapping.
-/

namespace Biscuit.Swap

open Chain

variable {σ : Type}

/-- `SwapConfig`; the builder makes legacy transactions whatever it says. -/
structure SwapConfig where
  priorityFee : Option PriorityFeeConfig
  cuLimits : Option ComputeUnitLimits
  wrapAndUnwrapSol : Option Bool
  deriving DecidableEq, Repr

/-- `SwapConfigOverrides`, as far as the executors read it. -/
structure SwapConfigOverrides where
  priorityFee : Option PriorityFeeConfig
  cuLimits : Option ComputeUnitLimits
  wrapAndUnwrapSol : Option Bool
  deriving DecidableEq, Repr

/-- The settings of one swap: an override goes before the configuration. -/
def SwapConfig.overriddenBy (config : SwapConfig) (overrides : Option SwapConfigOverrides) :
    SwapConfig where
  priorityFee := (overrides.bind (·.priorityFee)).or config.priorityFee
  cuLimits := (overrides.bind (·.cuLimits)).or config.cuLimits
  wrapAndUnwrapSol := (overrides.bind (·.wrapAndUnwrapSol)).or config.wrapAndUnwrapSol

/-! ## Pump -/

/-- The accounts of a Pump instruction. -/
structure PumpAccounts where
  feeRecipient : Pubkey
  mint : Pubkey
  associatedBondingCurve : Pubkey
  associatedUser : Pubkey
  user : Pubkey
  global : Pubkey
  bondingCurve : Pubkey
  eventAuthority : Pubkey
  deriving DecidableEq, Repr

/-- What `BuyBuilder` and `SellBuilder` build. -/
inductive PumpInstruction
  | buy (amount maxSolCost : ℕ) (accounts : PumpAccounts)
  | sell (amount minSolOutput : ℕ) (accounts : PumpAccounts)
  deriving DecidableEq, Repr

/-- `PFQuote` -/
structure PFQuote where
  isBuy : Bool
  tokenAmount : ℕ
  solAmount : ℕ
  solAmountWithSlippage : ℕ
  mint : Pubkey
  feeRecipient : Pubkey
  protocolAddress : Pubkey
  inputTokenProgram : Pubkey
  outputTokenProgram : Pubkey
  deriving DecidableEq, Repr

namespace PFQuote

/-- `amount` -/
def amount (quote : PFQuote) : ℕ := quote.tokenAmount

/-- `other_amount` -/
def otherAmount (quote : PFQuote) : ℕ := quote.solAmount

/-- `amount_specified_is_input` -/
def amountSpecifiedIsInput (quote : PFQuote) : Bool := if quote.isBuy then false else true

/-- `input_token` -/
def inputToken (quote : PFQuote) : Pubkey := if quote.isBuy then SOL else quote.mint

/-- `output_token` -/
def outputToken (quote : PFQuote) : Pubkey := if quote.isBuy then quote.mint else SOL

end PFQuote

/-- The addresses that the Pump executor derives. -/
structure PumpAddresses where
  associated : (wallet mint program : Pubkey) → Pubkey
  bondingCurvePda : (mint : Pubkey) → Pubkey
  eventAuthority : Pubkey

/-- The instruction for a quote. -/
def PFQuote.instruction (addresses : PumpAddresses) (inputPubkey : Pubkey) (output : PFQuote) :
    PumpInstruction :=
  let bondingCurve := addresses.bondingCurvePda output.mint
  let bondingCurveAta := addresses.associated bondingCurve output.mint splTokenId
  let userAta := addresses.associated inputPubkey output.mint splTokenId
  let accounts : PumpAccounts :=
    ⟨output.feeRecipient, output.mint, bondingCurveAta, userAta, inputPubkey,
      output.protocolAddress, bondingCurve, addresses.eventAuthority⟩
  if output.isBuy then .buy output.tokenAmount output.solAmountWithSlippage accounts
  else .sell output.tokenAmount output.solAmountWithSlippage accounts

/-- `PFExecutor::make_swap` -/
def pumpMakeSwap (b : Build) (addresses : PumpAddresses) (env : BuilderEnv PumpInstruction)
    (config : SwapConfig) (inputPubkey : Pubkey) (output : PFQuote)
    (overrides : Option SwapConfigOverrides) :
    Outcome BuilderError (SwapInstructionsBuilder PumpInstruction) := do
  let settings := config.overriddenBy overrides
  let wrapAndUnwrapSol := settings.wrapAndUnwrapSol.getD true
  let builder := { SwapInstructionsBuilder.empty with
    swapInstruction := some (.other (output.instruction addresses inputPubkey)) }
  let builder := builder.handleTokenWrappingAndAccountsCreation addresses.associated inputPubkey
    wrapAndUnwrapSol
    (if output.amountSpecifiedIsInput then output.amount else output.otherAmount)
    output.inputToken output.outputToken output.inputTokenProgram output.outputTokenProgram none
  let (builder, computeUnits) ← builder.handleComputeUnitsParams env settings.cuLimits
  builder.handlePriorityFeeParams b env settings.priorityFee computeUnits inputPubkey

/-! ## Raydium -/

/-- `AmmKeys`, as far as a swap names them. -/
structure AmmKeys where
  ammPool : Pubkey
  ammAuthority : Pubkey
  ammOpenOrder : Pubkey
  ammCoinVault : Pubkey
  ammPcVault : Pubkey
  marketProgram : Pubkey
  market : Pubkey
  deriving DecidableEq, Repr

/-- `MarketKeys` -/
structure MarketKeys where
  eventQueue : Pubkey
  bids : Pubkey
  asks : Pubkey
  coinVault : Pubkey
  pcVault : Pubkey
  vaultSignerKey : Pubkey
  deriving DecidableEq, Repr

/-- The accounts of a Raydium swap. -/
structure RaydiumAccounts where
  ammProgram : Pubkey
  ammKeys : AmmKeys
  marketKeys : MarketKeys
  userSource : Pubkey
  userDestination : Pubkey
  userOwner : Pubkey
  deriving DecidableEq, Repr

/-- What `swap_base_in` and `swap_base_out` of the library are called with. -/
inductive RaydiumInstruction
  | swapBaseIn (accounts : RaydiumAccounts) (amountIn minimumAmountOut : ℕ)
  | swapBaseOut (accounts : RaydiumAccounts) (maxAmountIn amountOut : ℕ)
  deriving DecidableEq, Repr

/-- `swap_instruction` -/
def swapInstruction (ammProgram : Pubkey) (ammKeys : AmmKeys) (marketKeys : MarketKeys)
    (userOwner userSource userDestination : Pubkey) (amountSpecified otherAmountThreshold : ℕ)
    (swapBaseIn : Bool) : RaydiumInstruction :=
  let accounts : RaydiumAccounts :=
    ⟨ammProgram, ammKeys, marketKeys, userSource, userDestination, userOwner⟩
  if swapBaseIn then .swapBaseIn accounts amountSpecified otherAmountThreshold
  else .swapBaseOut accounts otherAmountThreshold amountSpecified

/-- `RaydiumAmmQuote` -/
structure RaydiumAmmQuote where
  inputMint : Pubkey
  outputMint : Pubkey
  amount : ℕ
  otherAmount : ℕ
  otherAmountThreshold : ℕ
  amountSpecifiedIsInput : Bool
  ammKeys : AmmKeys
  marketKeys : MarketKeys
  deriving DecidableEq, Repr

/-- The instruction for a quote, between the accounts of the user for the two mints. -/
def RaydiumAmmQuote.instruction (associated : (wallet mint program : Pubkey) → Pubkey)
    (inputPubkey : Pubkey) (output : RaydiumAmmQuote) : RaydiumInstruction :=
  swapInstruction Parser.raydiumLiquidityPoolV4ProgramId output.ammKeys output.marketKeys
    inputPubkey (associated inputPubkey output.inputMint splTokenId)
    (associated inputPubkey output.outputMint splTokenId) output.amount
    output.otherAmountThreshold output.amountSpecifiedIsInput

/-- `RaydiumAmmExecutor::make_swap`; the library packs the swap instruction, or refuses it. -/
def raydiumMakeSwap (b : Build) (associated : (wallet mint program : Pubkey) → Pubkey)
    (pack : RaydiumInstruction → Option σ) (env : BuilderEnv σ) (config : SwapConfig)
    (inputPubkey : Pubkey) (output : RaydiumAmmQuote) (overrides : Option SwapConfigOverrides) :
    Outcome BuilderError (SwapInstructionsBuilder σ) := do
  let settings := config.overriddenBy overrides
  let wrapAndUnwrapSol := settings.wrapAndUnwrapSol.getD true
  let builder := SwapInstructionsBuilder.empty.handleTokenWrappingAndAccountsCreation associated
    inputPubkey wrapAndUnwrapSol
    (if output.amountSpecifiedIsInput then output.amount else output.otherAmount)
    output.inputMint output.outputMint splTokenId splTokenId none
  let instruction ← .ofOption .libraryError (pack (output.instruction associated inputPubkey))
  let builder := { builder with swapInstruction := some (.other instruction) }
  let (builder, computeUnits) ← builder.handleComputeUnitsParams env settings.cuLimits
  builder.handlePriorityFeeParams b env settings.priorityFee computeUnits inputPubkey

/-! ## Layout -/

/-- What a quote of Pump asks for. -/
def PFQuote.request (settings : SwapConfig) (user : Pubkey) (quote : PFQuote) : SwapRequest where
  user := user
  wrapAndUnwrapSol := settings.wrapAndUnwrapSol.getD true
  inputAmount := if quote.amountSpecifiedIsInput then quote.amount else quote.otherAmount
  inputMint := quote.inputToken
  outputMint := quote.outputToken
  inputTokenProgram := quote.inputTokenProgram
  outputTokenProgram := quote.outputTokenProgram

/-- What a quote of Raydium asks for. -/
def RaydiumAmmQuote.request (settings : SwapConfig) (user : Pubkey) (quote : RaydiumAmmQuote) :
    SwapRequest where
  user := user
  wrapAndUnwrapSol := settings.wrapAndUnwrapSol.getD true
  inputAmount := if quote.amountSpecifiedIsInput then quote.amount else quote.otherAmount
  inputMint := quote.inputMint
  outputMint := quote.outputMint
  inputTokenProgram := splTokenId
  outputTokenProgram := splTokenId

theorem pumpMakeSwap_eq_plan (b : Build) (addresses : PumpAddresses)
    (env : BuilderEnv PumpInstruction) (config : SwapConfig) (inputPubkey : Pubkey)
    (quote : PFQuote) (overrides : Option SwapConfigOverrides) :
    (pumpMakeSwap b addresses env config inputPubkey quote overrides >>=
        (·.buildInstructions)) =
      (quote.request (config.overriddenBy overrides) inputPubkey).plan b addresses.associated env
        (config.overriddenBy overrides).cuLimits (config.overriddenBy overrides).priorityFee
        (quote.instruction addresses inputPubkey) := by
  rw [← SwapRequest.fill_eq_plan]
  have hwrapped := (quote.request (config.overriddenBy overrides)
    inputPubkey).handleTokenWrappingAndAccountsCreation_eq addresses.associated
      { SwapInstructionsBuilder.empty with
        swapInstruction := some (.other (quote.instruction addresses inputPubkey)) }
  simp only [SwapInstructionsBuilder.empty, List.nil_append, Option.or_none] at hwrapped
  rw [← hwrapped]
  simp only [pumpMakeSwap, bind_assoc]
  rfl

theorem raydiumMakeSwap_eq_plan (b : Build)
    (associated : (wallet mint program : Pubkey) → Pubkey) (pack : RaydiumInstruction → Option σ)
    (env : BuilderEnv σ) (config : SwapConfig) (inputPubkey : Pubkey) (quote : RaydiumAmmQuote)
    (overrides : Option SwapConfigOverrides) :
    (raydiumMakeSwap b associated pack env config inputPubkey quote overrides >>=
        (·.buildInstructions)) = (do
      let swap ← .ofOption .libraryError (pack (quote.instruction associated inputPubkey))
      (quote.request (config.overriddenBy overrides) inputPubkey).plan b associated env
        (config.overriddenBy overrides).cuLimits (config.overriddenBy overrides).priorityFee
        swap) := by
  simp only [raydiumMakeSwap, bind_assoc]
  congr 1
  ext swap
  rw [← SwapRequest.fill_eq_plan]
  have hwrapped := (quote.request (config.overriddenBy overrides)
    inputPubkey).handleTokenWrappingAndAccountsCreation_eq associated
      (.empty : SwapInstructionsBuilder σ)
  simp only [SwapInstructionsBuilder.empty, List.nil_append, Option.or_none] at hwrapped
  have hbuilder := congrArg (fun builder : SwapInstructionsBuilder σ =>
    { builder with swapInstruction := some (.other swap) }) hwrapped
  simp only at hbuilder
  rw [← hbuilder]
  rfl

/-- The builders that the executors fill make what is planned for their quotes, with the limits and
the fees of their settings: where the plan fails, they fail with the same error. -/
theorem makeSwap_eq_plan (b : Build) (addresses : PumpAddresses)
    (pumpEnv : BuilderEnv PumpInstruction) (pumpQuote : PFQuote)
    (pack : RaydiumInstruction → Option σ) (env : BuilderEnv σ) (quote : RaydiumAmmQuote)
    (config : SwapConfig) (inputPubkey : Pubkey) (overrides : Option SwapConfigOverrides) :
    let settings := config.overriddenBy overrides
    ((pumpMakeSwap b addresses pumpEnv config inputPubkey pumpQuote overrides >>=
        (·.buildInstructions)) =
      (pumpQuote.request settings inputPubkey).plan b addresses.associated pumpEnv
        settings.cuLimits settings.priorityFee (pumpQuote.instruction addresses inputPubkey)) ∧
    ((raydiumMakeSwap b addresses.associated pack env config inputPubkey quote overrides >>=
        (·.buildInstructions)) = (do
      let swap ←
        .ofOption .libraryError (pack (quote.instruction addresses.associated inputPubkey))
      (quote.request settings inputPubkey).plan b addresses.associated env settings.cuLimits
        settings.priorityFee swap)) :=
  ⟨pumpMakeSwap_eq_plan .., raydiumMakeSwap_eq_plan ..⟩

end Biscuit.Swap
