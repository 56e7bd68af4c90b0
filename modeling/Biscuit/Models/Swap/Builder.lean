import Biscuit.Models.Chain.Programs
import Biscuit.Models.Swap.CuPrice

/-!
# Building a swap transaction

The builder collects what goes before and after a swap: the accounts that the swap needs, the
wrapping of SOL, the limit and the price of its compute units or a tip. It is filled step by step,
and what it is filled with has a closed form.
-/

namespace Biscuit.Swap

open Chain

variable {σ : Type}

/-! ## Settings -/

/-- `DEFAULT_INSTRUCTION_COMPUTE_UNIT` -/
def defaultInstructionComputeUnit : ℕ := 200000

/-- `MIN_CU_PRICE` -/
def minCuPrice : ℕ := 20000

/-- `PriorityFeeConfig` -/
inductive PriorityFeeConfig
  | dynamic
  | dynamicMultiplier (multiplier : ℕ)
  | fixedCuPrice (cuPrice : ℕ)
  | jitoTip (lamports : ℕ)
  deriving DecidableEq, Repr

/-- `ComputeUnitLimits` -/
inductive ComputeUnitLimits
  | dynamic
  | fixed (cuLimits : ℕ)
  deriving DecidableEq, Repr

/-- Why a transaction cannot be built. -/
inductive BuilderError
  /-- `Overflow error while calculating priofee auto-multiplier` -/
  | multiplierOverflow
  /-- A limit that is no `u32`. -/
  | limitOutOfRange
  /-- `Swap instruction not set` -/
  | swapNotSet
  /-- The node does not simulate the transaction. -/
  | simulationFailed
  /-- The library of a program does not make its swap instruction. -/
  | libraryError
  deriving DecidableEq, Repr

/-- What the builder asks for: the simulation of some instructions, with the units they consumed,
the high priority fee of the fee task, if there is one, and an account for tips. -/
structure BuilderEnv (σ : Type) where
  simulate : List (ChainInstruction σ) → Option (Option ℕ)
  highPriorityFee : Option F64
  jitoRecipient : Pubkey

/-- `checked_mul` of words. -/
def checkedMul64 (x y : ℕ) : Option ℕ := if x * y < 2 ^ 64 then some (x * y) else none

/-- The price that follows the fee task. -/
def dynamicCuPrice : Option F64 → ℕ
  | some cuPrice => max minCuPrice cuPrice.toU64
  | none => minCuPrice

/-! ## The builder -/

/-- `SwapInstructionsBuilder` -/
structure SwapInstructionsBuilder (σ : Type) where
  computeBudgetInstructions : List (ChainInstruction σ)
  setupInstructions : List (ChainInstruction σ)
  swapInstruction : Option (ChainInstruction σ)
  cleanupInstruction : Option (ChainInstruction σ)

namespace SwapInstructionsBuilder

/-- `SwapInstructionsBuilder::default` -/
def empty : SwapInstructionsBuilder σ := ⟨[], [], none, none⟩

/-- `handle_token_wrapping_and_accounts_creation` -/
def handleTokenWrappingAndAccountsCreation (associated : (wallet mint program : Pubkey) → Pubkey)
    (builder : SwapInstructionsBuilder σ) (user : Pubkey) (wrapAndUnwrapSol : Bool)
    (inputAmount : ℕ) (inputMint outputMint inputTokenProgram outputTokenProgram : Pubkey)
    (destinationTokenAccount : Option Pubkey) : SwapInstructionsBuilder σ := Id.run do
  let mut builder := builder
  let userInputAta := associated user inputMint inputTokenProgram
  let userOutputAta := associated user outputMint outputTokenProgram
  if inputMint = SOL then
    -- Only create an input-ata if it's the native mint
    builder := { builder with
      setupInstructions := builder.setupInstructions ++
        [.createAssociatedTokenAccountIdempotent user user inputMint splTokenId] }
    if wrapAndUnwrapSol then
      builder := { builder with
        setupInstructions := builder.setupInstructions ++
          [.transfer user userInputAta inputAmount, .syncNative splTokenId userInputAta]
        cleanupInstruction := some (.closeAccount splTokenId userInputAta user user) }
  if destinationTokenAccount = none then
    builder := { builder with
      setupInstructions := builder.setupInstructions ++
        [.createAssociatedTokenAccountIdempotent user user outputMint outputTokenProgram] }
    if wrapAndUnwrapSol ∧ outputMint = SOL then
      builder := { builder with
        cleanupInstruction := some (.closeAccount splTokenId userOutputAta user user) }
  return builder

/-- `build_instructions` -/
def buildInstructions (builder : SwapInstructionsBuilder σ) :
    Outcome BuilderError (List (ChainInstruction σ)) := do
  let swapInstruction ← .ofOption .swapNotSet builder.swapInstruction
  pure (builder.computeBudgetInstructions ++ builder.setupInstructions ++ [swapInstruction] ++
    builder.cleanupInstruction.toList)

/-- The limit of compute units to set; a dynamic one leaves room above what the simulation
consumed. -/
def cuLimit (env : BuilderEnv σ) (builder : SwapInstructionsBuilder σ) :
    Option ComputeUnitLimits → Outcome BuilderError (Option ℕ)
  | none => pure none
  | some .dynamic => do
    let instructions ← builder.buildInstructions
    let unitsConsumed ← .ofOption .simulationFailed (env.simulate instructions)
    pure (unitsConsumed.bind fun units =>
      if units < 2 ^ 32 ∧ units + 50000 < 2 ^ 32 then some (units + 50000) else none)
  | some (.fixed cuLimits) =>
    if cuLimits < 2 ^ 32 then pure (some cuLimits) else .err .limitOutOfRange

/-- `handle_compute_units_params` -/
def handleComputeUnitsParams (env : BuilderEnv σ) (builder : SwapInstructionsBuilder σ)
    (computeLimits : Option ComputeUnitLimits) :
    Outcome BuilderError (SwapInstructionsBuilder σ × Option ℕ) := do
  let cuLimit ← builder.cuLimit env computeLimits
  match cuLimit with
  | some cuLimit =>
    pure ({ builder with
      computeBudgetInstructions :=
        builder.computeBudgetInstructions ++ [.setComputeUnitLimit cuLimit] }, some cuLimit)
  | none => pure (builder, none)

/-- A price for compute units goes to the compute budget. -/
def pushCuPrice (builder : SwapInstructionsBuilder σ) (cuPrice : ℕ) : SwapInstructionsBuilder σ :=
  { builder with
    computeBudgetInstructions :=
      builder.computeBudgetInstructions ++ [.setComputeUnitPrice cuPrice] }

/-- `handle_priority_fee_params` -/
def handlePriorityFeeParams (b : Build) (env : BuilderEnv σ) (builder : SwapInstructionsBuilder σ)
    (priorityFeeConfig : Option PriorityFeeConfig) (computeUnits : Option ℕ) (funder : Pubkey) :
    Outcome BuilderError (SwapInstructionsBuilder σ) :=
  let computeUnits := computeUnits.getD defaultInstructionComputeUnit
  match priorityFeeConfig with
  | some (.fixedCuPrice cuPrice) => pure (builder.pushCuPrice cuPrice)
  | some .dynamic => pure (builder.pushCuPrice (dynamicCuPrice env.highPriorityFee))
  | some (.dynamicMultiplier multiplier) => do
    let priofee ← .ofOption .multiplierOverflow (checkedMul64 multiplier 100000)
    let cuPrice ← (calculateCuPriceIn b priofee computeUnits).mapError Empty.elim
    pure (builder.pushCuPrice cuPrice)
  | some (.jitoTip jitoTip) =>
    pure { builder with
      setupInstructions :=
        builder.setupInstructions ++ [.transfer funder env.jitoRecipient jitoTip] }
  | none => pure builder

/-! ## Its closed form -/

end SwapInstructionsBuilder

/-- Who swaps what, and whether SOL is wrapped for it. -/
structure SwapRequest where
  user : Pubkey
  wrapAndUnwrapSol : Bool
  inputAmount : ℕ
  inputMint : Pubkey
  outputMint : Pubkey
  inputTokenProgram : Pubkey
  outputTokenProgram : Pubkey
  deriving DecidableEq, Repr

namespace SwapRequest

variable (associated : (wallet mint program : Pubkey) → Pubkey) (request : SwapRequest)

/-- `user_input_ata` -/
def inputAta : Pubkey := associated request.user request.inputMint request.inputTokenProgram

/-- `user_output_ata` -/
def outputAta : Pubkey := associated request.user request.outputMint request.outputTokenProgram

/-- What is done before a swap: the accounts are opened, and SOL is wrapped. -/
def wrapping : List (ChainInstruction σ) :=
  (if request.inputMint = SOL then
    .createAssociatedTokenAccountIdempotent request.user request.user request.inputMint
        splTokenId ::
      if request.wrapAndUnwrapSol then
        [.transfer request.user (request.inputAta associated) request.inputAmount,
          .syncNative splTokenId (request.inputAta associated)]
      else []
  else []) ++
    [.createAssociatedTokenAccountIdempotent request.user request.user request.outputMint
      request.outputTokenProgram]

/-- What is done after a swap: SOL is unwrapped. -/
def unwrapping : Option (ChainInstruction σ) :=
  if request.wrapAndUnwrapSol then
    if request.outputMint = SOL then
      some (.closeAccount splTokenId (request.outputAta associated) request.user request.user)
    else if request.inputMint = SOL then
      some (.closeAccount splTokenId (request.inputAta associated) request.user request.user)
    else none
  else none

/-- For a swap into the account that belongs to the user, the accounts are opened behind what was
set up, and what cleans up is replaced. -/
theorem handleTokenWrappingAndAccountsCreation_eq (builder : SwapInstructionsBuilder σ) :
    builder.handleTokenWrappingAndAccountsCreation associated request.user
        request.wrapAndUnwrapSol request.inputAmount request.inputMint request.outputMint
        request.inputTokenProgram request.outputTokenProgram none =
      { builder with
        setupInstructions := builder.setupInstructions ++ request.wrapping associated
        cleanupInstruction :=
          (request.unwrapping associated).or builder.cleanupInstruction } := by
  obtain ⟨user, wrapAndUnwrapSol, inputAmount, inputMint, outputMint, inputProgram,
    outputProgram⟩ := request
  simp only [SwapInstructionsBuilder.handleTokenWrappingAndAccountsCreation, wrapping, unwrapping,
    inputAta, outputAta]
  by_cases hinput : inputMint = SOL <;> by_cases houtput : outputMint = SOL <;>
    cases wrapAndUnwrapSol <;> simp [hinput, houtput, Id.run, pure]

end SwapRequest

/-- The layout of a swap transaction. -/
def SwapRequest.laidOut (associated : (wallet mint program : Pubkey) → Pubkey)
    (jitoRecipient : Pubkey) (request : SwapRequest) (limit cuPrice tip : Option ℕ) (swap : σ) :
    List (ChainInstruction σ) :=
  (limit.map .setComputeUnitLimit).toList ++ (cuPrice.map .setComputeUnitPrice).toList ++
    (request.wrapping associated ++ (tip.map (.transfer request.user jitoRecipient)).toList) ++
      [.other swap] ++ (request.unwrapping associated).toList

/-- The limit of compute units for some instructions. -/
def limitFor (env : BuilderEnv σ) (instructions : List (ChainInstruction σ)) :
    Option ComputeUnitLimits → Outcome BuilderError (Option ℕ)
  | none => pure none
  | some .dynamic => do
    let unitsConsumed ← .ofOption .simulationFailed (env.simulate instructions)
    pure (unitsConsumed.bind fun units =>
      if units < 2 ^ 32 ∧ units + 50000 < 2 ^ 32 then some (units + 50000) else none)
  | some (.fixed cuLimits) =>
    if cuLimits < 2 ^ 32 then pure (some cuLimits) else .err .limitOutOfRange

/-- The price of a compute unit and the tip, under a limit. -/
def priceFor (b : Build) (highPriorityFee : Option F64) (limit : Option ℕ) :
    Option PriorityFeeConfig → Outcome BuilderError (Option ℕ × Option ℕ)
  | none => pure (none, none)
  | some (.fixedCuPrice cuPrice) => pure (some cuPrice, none)
  | some .dynamic => pure (some (dynamicCuPrice highPriorityFee), none)
  | some (.dynamicMultiplier multiplier) => do
    let priofee ← .ofOption .multiplierOverflow (checkedMul64 multiplier 100000)
    let cuPrice ← (calculateCuPriceIn b priofee
      (limit.getD defaultInstructionComputeUnit)).mapError Empty.elim
    pure (some cuPrice, none)
  | some (.jitoTip lamports) => pure (none, some lamports)

/-- The plan of a swap transaction: the bare layout is simulated for its limit, and what is paid is
found for this limit. -/
def SwapRequest.plan (b : Build) (associated : (wallet mint program : Pubkey) → Pubkey)
    (env : BuilderEnv σ) (computeLimits : Option ComputeUnitLimits)
    (priorityFeeConfig : Option PriorityFeeConfig) (request : SwapRequest) (swap : σ) :
    Outcome BuilderError (List (ChainInstruction σ)) := do
  let limit ← limitFor env
    (request.laidOut associated env.jitoRecipient none none none swap) computeLimits
  let (cuPrice, tip) ← priceFor b env.highPriorityFee limit priorityFeeConfig
  pure (request.laidOut associated env.jitoRecipient limit cuPrice tip swap)

namespace SwapInstructionsBuilder

/-- A limit goes behind the other instructions for the compute budget. -/
theorem handleComputeUnitsParams_eq (env : BuilderEnv σ) (builder : SwapInstructionsBuilder σ)
    (computeLimits : Option ComputeUnitLimits) :
    builder.handleComputeUnitsParams env computeLimits = (do
      let limit ← builder.cuLimit env computeLimits
      pure ({ builder with
        computeBudgetInstructions := builder.computeBudgetInstructions ++
          (limit.map .setComputeUnitLimit).toList }, limit)) := by
  unfold handleComputeUnitsParams
  congr 1
  ext limit
  cases limit with
  | none => simp
  | some limit => rfl

/-- A price goes behind the limit, and a tip behind what is set up. -/
theorem handlePriorityFeeParams_eq (b : Build) (env : BuilderEnv σ)
    (builder : SwapInstructionsBuilder σ) (priorityFeeConfig : Option PriorityFeeConfig)
    (limit : Option ℕ) (funder : Pubkey) :
    builder.handlePriorityFeeParams b env priorityFeeConfig limit funder = (do
      let (cuPrice, tip) ← priceFor b env.highPriorityFee limit priorityFeeConfig
      pure { builder with
        computeBudgetInstructions := builder.computeBudgetInstructions ++
          (cuPrice.map .setComputeUnitPrice).toList
        setupInstructions := builder.setupInstructions ++
          (tip.map (.transfer funder env.jitoRecipient)).toList }) := by
  cases priorityFeeConfig with
  | none => simp [handlePriorityFeeParams, priceFor]
  | some config =>
    cases config with
    | dynamicMultiplier multiplier =>
      simp only [handlePriorityFeeParams, priceFor, bind_assoc, pure_bind]
      simp [pushCuPrice]
    | _ => simp [handlePriorityFeeParams, priceFor, pushCuPrice]

end SwapInstructionsBuilder

/-- A builder that holds a swap with its wrapping is filled as it is planned, and fails where the
plan does. -/
theorem SwapRequest.fill_eq_plan (b : Build)
    (associated : (wallet mint program : Pubkey) → Pubkey) (env : BuilderEnv σ)
    (computeLimits : Option ComputeUnitLimits) (priorityFeeConfig : Option PriorityFeeConfig)
    (request : SwapRequest) (swap : σ) :
    (do
      let (builder, computeUnits) ← SwapInstructionsBuilder.handleComputeUnitsParams env
        ⟨[], request.wrapping associated, some (.other swap), request.unwrapping associated⟩
        computeLimits
      let builder ← builder.handlePriorityFeeParams b env priorityFeeConfig computeUnits
        request.user
      builder.buildInstructions) =
      request.plan b associated env computeLimits priorityFeeConfig swap := by
  have hlimit : SwapInstructionsBuilder.cuLimit env
      ⟨[], request.wrapping associated, some (.other swap), request.unwrapping associated⟩
      computeLimits = limitFor env
        (request.laidOut associated env.jitoRecipient none none none swap) computeLimits := by
    cases computeLimits with
    | none => rfl
    | some limits =>
      cases limits with
      | fixed cuLimits => rfl
      | dynamic =>
        simp [SwapInstructionsBuilder.cuLimit, SwapInstructionsBuilder.buildInstructions, limitFor,
          laidOut]
  simp only [SwapInstructionsBuilder.handleComputeUnitsParams_eq, hlimit,
    SwapInstructionsBuilder.handlePriorityFeeParams_eq, plan, bind_assoc, pure_bind]
  rfl

end Biscuit.Swap
