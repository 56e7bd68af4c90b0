import Biscuit.Core.Borsh
import Biscuit.Models.Chain.Keys

/-!
# Arguments of Jupiter instructions

The types of the generated client with their Borsh codecs. Every value of these types can be
written, unless one of its lists has so many items that their number takes more than four bytes.
-/

namespace Biscuit.Parser.Jupiter

open Borsh

/-! ## Steps of a route -/

/-- `AccountsType` -/
inductive AccountsType
  | transferHookA
  | transferHookB
  deriving DecidableEq, Repr

def AccountsType.codec : Codec UInt8 AccountsType :=
  enum AccountsType.ctorIdx [.const .transferHookA, .const .transferHookB]
    (.const rfl (.const rfl (.nil _ _)))

@[simp] theorem AccountsType.codec_valid (type : AccountsType) : codec.Valid type := by
  cases type with
  | transferHookA => exact enum_valid rfl (by decide) rfl
  | transferHookB => exact enum_valid rfl (by decide) rfl

/-- `RemainingAccountsSlice` -/
structure RemainingAccountsSlice where
  accountsType : AccountsType
  length : UInt8
  deriving DecidableEq, Repr

def RemainingAccountsSlice.codec : Codec UInt8 RemainingAccountsSlice :=
  (AccountsType.codec.prod u8).equiv {
    toFun := fun (accountsType, length) => ⟨accountsType, length⟩
    invFun := fun slice => (slice.accountsType, slice.length)
    left_inv := fun _ => rfl
    right_inv := fun _ => rfl }

/-- `RemainingAccountsInfo` -/
structure RemainingAccountsInfo where
  slices : List RemainingAccountsSlice
  deriving DecidableEq, Repr

def RemainingAccountsInfo.codec : Codec UInt8 RemainingAccountsInfo :=
  (vec RemainingAccountsSlice.codec).equiv {
    toFun := fun slices => ⟨slices⟩
    invFun := fun info => info.slices
    left_inv := fun _ => rfl
    right_inv := fun _ => rfl }

theorem RemainingAccountsInfo.codec_valid_iff {info : RemainingAccountsInfo} :
    codec.Valid info ↔ info.slices.length < 2 ^ 32 := by
  refine vec_valid_iff.trans (and_iff_left ?_)
  exact fun slice _ => ⟨AccountsType.codec_valid _, u8_valid _⟩

/-- `Side` -/
inductive Side
  | bid
  | ask
  deriving DecidableEq, Repr

def Side.codec : Codec UInt8 Side :=
  enum Side.ctorIdx [.const .bid, .const .ask] (.const rfl (.const rfl (.nil _ _)))

@[simp] theorem Side.codec_valid (side : Side) : codec.Valid side := by
  cases side with
  | bid => exact enum_valid rfl (by decide) rfl
  | ask => exact enum_valid rfl (by decide) rfl

/-- `Swap` -/
inductive Swap
  | saber
  | saberAddDecimalsDeposit
  | saberAddDecimalsWithdraw
  | tokenSwap
  | sencha
  | step
  | cropper
  | raydium
  | crema (aToB : Bool)
  | lifinity
  | mercurial
  | cykura
  | serum (side : Side)
  | marinadeDeposit
  | marinadeUnstake
  | aldrin (side : Side)
  | aldrinV2 (side : Side)
  | whirlpool (aToB : Bool)
  | invariant (xToY : Bool)
  | meteora
  | gooseFX
  | deltaFi (stable : Bool)
  | balansol
  | marcoPolo (xToY : Bool)
  | dradex (side : Side)
  | lifinityV2
  | raydiumClmm
  | openbook (side : Side)
  | phoenix (side : Side)
  | symmetry (fromTokenId : BitVec 64) (toTokenId : BitVec 64)
  | tokenSwapV2
  | heliumTreasuryManagementRedeemV0
  | stakeDexStakeWrappedSol
  | stakeDexSwapViaStake (bridgeStakeSeed : BitVec 32)
  | gooseFXV2
  | perps
  | perpsAddLiquidity
  | perpsRemoveLiquidity
  | meteoraDlmm
  | openBookV2 (side : Side)
  | raydiumClmmV2
  | clone (poolIndex : UInt8) (quantityIsInput : Bool) (quantityIsCollateral : Bool)
  | whirlpoolSwapV2 (aToB : Bool) (remainingAccountsInfo : Option RemainingAccountsInfo)
  | oneIntro
  | pumpdotfunWrappedBuy
  | pumpdotfunWrappedSell
  | perpsV2
  | perpsV2AddLiquidity
  | perpsV2RemoveLiquidity
  | moonshotWrappedBuy
  | moonshotWrappedSell
  | stabbleStableSwap
  | stabbleWeightedSwap
  | obric (xToY : Bool)
  deriving DecidableEq, Repr

/-- The variants of `Swap` in order. -/
def Swap.kinds : List (Codec UInt8 Swap) :=
  [.const .saber, .const .saberAddDecimalsDeposit, .const .saberAddDecimalsWithdraw,
    .const .tokenSwap, .const .sencha, .const .step, .const .cropper, .const .raydium,
    bool.variant .crema fun | .crema aToB => some aToB | _ => none,
    .const .lifinity, .const .mercurial, .const .cykura,
    Side.codec.variant .serum fun | .serum side => some side | _ => none,
    .const .marinadeDeposit, .const .marinadeUnstake,
    Side.codec.variant .aldrin fun | .aldrin side => some side | _ => none,
    Side.codec.variant .aldrinV2 fun | .aldrinV2 side => some side | _ => none,
    bool.variant .whirlpool fun | .whirlpool aToB => some aToB | _ => none,
    bool.variant .invariant fun | .invariant xToY => some xToY | _ => none,
    .const .meteora, .const .gooseFX,
    bool.variant .deltaFi fun | .deltaFi stable => some stable | _ => none,
    .const .balansol,
    bool.variant .marcoPolo fun | .marcoPolo xToY => some xToY | _ => none,
    Side.codec.variant .dradex fun | .dradex side => some side | _ => none,
    .const .lifinityV2, .const .raydiumClmm,
    Side.codec.variant .openbook fun | .openbook side => some side | _ => none,
    Side.codec.variant .phoenix fun | .phoenix side => some side | _ => none,
    (u64.prod u64).variant (fun (fromTokenId, toTokenId) => .symmetry fromTokenId toTokenId)
      fun | .symmetry fromTokenId toTokenId => some (fromTokenId, toTokenId) | _ => none,
    .const .tokenSwapV2, .const .heliumTreasuryManagementRedeemV0, .const .stakeDexStakeWrappedSol,
    u32.variant .stakeDexSwapViaStake
      fun | .stakeDexSwapViaStake bridgeStakeSeed => some bridgeStakeSeed | _ => none,
    .const .gooseFXV2, .const .perps, .const .perpsAddLiquidity, .const .perpsRemoveLiquidity,
    .const .meteoraDlmm,
    Side.codec.variant .openBookV2 fun | .openBookV2 side => some side | _ => none,
    .const .raydiumClmmV2,
    (u8.prod (bool.prod bool)).variant
      (fun (poolIndex, quantityIsInput, quantityIsCollateral) =>
        .clone poolIndex quantityIsInput quantityIsCollateral)
      fun
        | .clone poolIndex quantityIsInput quantityIsCollateral =>
          some (poolIndex, quantityIsInput, quantityIsCollateral)
        | _ => none,
    (bool.prod (option RemainingAccountsInfo.codec)).variant
      (fun (aToB, remainingAccountsInfo) => .whirlpoolSwapV2 aToB remainingAccountsInfo)
      fun
        | .whirlpoolSwapV2 aToB remainingAccountsInfo =>
          some (aToB, remainingAccountsInfo)
        | _ => none,
    .const .oneIntro, .const .pumpdotfunWrappedBuy, .const .pumpdotfunWrappedSell, .const .perpsV2,
    .const .perpsV2AddLiquidity, .const .perpsV2RemoveLiquidity, .const .moonshotWrappedBuy,
    .const .moonshotWrappedSell, .const .stabbleStableSwap, .const .stabbleWeightedSwap,
    bool.variant .obric fun | .obric xToY => some xToY | _ => none]

theorem Swap.numbered_kinds : Codec.Numbered Swap.ctorIdx 0 kinds := by
  unfold kinds
  repeat first
    | exact .nil _ _
    | refine .const rfl ?_
    | refine .variant (fun _ => rfl) ?_

def Swap.codec : Codec UInt8 Swap := enum Swap.ctorIdx kinds numbered_kinds

/-- The number of slices that a step names fits into four bytes. -/
def Swap.Fits : Swap → Prop
  | .whirlpoolSwapV2 _ (some info) => info.slices.length < 2 ^ 32
  | _ => True

theorem Swap.codec_valid_iff {swap : Swap} : codec.Valid swap ↔ swap.Fits := by
  have hkinds : kinds.length ≤ 256 := by decide
  cases swap
  case whirlpoolSwapV2 aToB info =>
    have hcarried : codec.Valid (.whirlpoolSwapV2 aToB info) ↔ _ := enum_valid_iff rfl hkinds
    refine Iff.trans hcarried (Iff.trans (Codec.variant_valid_iff rfl) ?_)
    rw [Codec.prod_valid_iff, option_valid_iff, and_iff_right (bool_valid aToB)]
    cases info with
    | none => simp [Fits]
    | some info => simp [Fits, RemainingAccountsInfo.codec_valid_iff]
  -- no other step carries a list
  all_goals
    first
      | exact iff_of_true (enum_valid rfl hkinds rfl) trivial
      | refine iff_of_true (enum_valid rfl hkinds ?_) trivial
        refine Iff.mpr (Codec.variant_valid_iff rfl) ?_
        simp

/-- `RoutePlanStep` -/
structure RoutePlanStep where
  swap : Swap
  percent : UInt8
  inputIndex : UInt8
  outputIndex : UInt8
  deriving DecidableEq, Repr

def RoutePlanStep.codec : Codec UInt8 RoutePlanStep :=
  (Swap.codec.prod (u8.prod (u8.prod u8))).equiv {
    toFun := fun (swap, percent, inputIndex, outputIndex) =>
      ⟨swap, percent, inputIndex, outputIndex⟩
    invFun := fun step => (step.swap, step.percent, step.inputIndex, step.outputIndex)
    left_inv := fun _ => rfl
    right_inv := fun _ => rfl }

theorem RoutePlanStep.codec_valid_iff {step : RoutePlanStep} :
    codec.Valid step ↔ step.swap.Fits :=
  (and_iff_left ⟨u8_valid _, u8_valid _, u8_valid _⟩).trans Swap.codec_valid_iff

/-- The numbers of steps, and of slices in each of them, fit into four bytes. -/
def FitsPlan (routePlan : List RoutePlanStep) : Prop :=
  routePlan.length < 2 ^ 32 ∧ ∀ step ∈ routePlan, step.swap.Fits

theorem routePlan_valid_iff {routePlan : List RoutePlanStep} :
    (vec RoutePlanStep.codec).Valid routePlan ↔ FitsPlan routePlan :=
  vec_valid_iff.trans (and_congr_right' (forall₂_congr fun _ _ => RoutePlanStep.codec_valid_iff))

/-! ## Arguments -/

/-- `RouteInstructionArgs` -/
structure RouteInstructionArgs where
  routePlan : List RoutePlanStep
  inAmount : BitVec 64
  quotedOutAmount : BitVec 64
  slippageBps : BitVec 16
  platformFeeBps : UInt8
  deriving DecidableEq, Repr

def RouteInstructionArgs.codec : Codec UInt8 RouteInstructionArgs :=
  ((vec RoutePlanStep.codec).prod (u64.prod (u64.prod (u16.prod u8)))).equiv {
    toFun := fun (routePlan, inAmount, quotedOutAmount, slippageBps, platformFeeBps) =>
      ⟨routePlan, inAmount, quotedOutAmount, slippageBps, platformFeeBps⟩
    invFun := fun args =>
      (args.routePlan, args.inAmount, args.quotedOutAmount, args.slippageBps, args.platformFeeBps)
    left_inv := fun _ => rfl
    right_inv := fun _ => rfl }

theorem RouteInstructionArgs.codec_valid_iff {args : RouteInstructionArgs} :
    codec.Valid args ↔ FitsPlan args.routePlan := by
  simp [codec, routePlan_valid_iff]

/-- `ExactOutRouteInstructionArgs` -/
structure ExactOutRouteInstructionArgs where
  routePlan : List RoutePlanStep
  outAmount : BitVec 64
  quotedInAmount : BitVec 64
  slippageBps : BitVec 16
  platformFeeBps : UInt8
  deriving DecidableEq, Repr

def ExactOutRouteInstructionArgs.codec : Codec UInt8 ExactOutRouteInstructionArgs :=
  ((vec RoutePlanStep.codec).prod (u64.prod (u64.prod (u16.prod u8)))).equiv {
    toFun := fun (routePlan, outAmount, quotedInAmount, slippageBps, platformFeeBps) =>
      ⟨routePlan, outAmount, quotedInAmount, slippageBps, platformFeeBps⟩
    invFun := fun args =>
      (args.routePlan, args.outAmount, args.quotedInAmount, args.slippageBps, args.platformFeeBps)
    left_inv := fun _ => rfl
    right_inv := fun _ => rfl }

theorem ExactOutRouteInstructionArgs.codec_valid_iff {args : ExactOutRouteInstructionArgs} :
    codec.Valid args ↔ FitsPlan args.routePlan := by
  simp [codec, routePlan_valid_iff]

/-- `RouteWithTokenLedgerInstructionArgs` -/
structure RouteWithTokenLedgerInstructionArgs where
  routePlan : List RoutePlanStep
  quotedOutAmount : BitVec 64
  slippageBps : BitVec 16
  platformFeeBps : UInt8
  deriving DecidableEq, Repr

def RouteWithTokenLedgerInstructionArgs.codec : Codec UInt8 RouteWithTokenLedgerInstructionArgs :=
  ((vec RoutePlanStep.codec).prod (u64.prod (u16.prod u8))).equiv {
    toFun := fun (routePlan, quotedOutAmount, slippageBps, platformFeeBps) =>
      ⟨routePlan, quotedOutAmount, slippageBps, platformFeeBps⟩
    invFun := fun args =>
      (args.routePlan, args.quotedOutAmount, args.slippageBps, args.platformFeeBps)
    left_inv := fun _ => rfl
    right_inv := fun _ => rfl }

theorem RouteWithTokenLedgerInstructionArgs.codec_valid_iff
    {args : RouteWithTokenLedgerInstructionArgs} :
    codec.Valid args ↔ FitsPlan args.routePlan := by
  simp [codec, routePlan_valid_iff]

/-- `SharedAccountsExactOutRouteInstructionArgs` -/
structure SharedAccountsExactOutRouteInstructionArgs where
  id : UInt8
  routePlan : List RoutePlanStep
  outAmount : BitVec 64
  quotedInAmount : BitVec 64
  slippageBps : BitVec 16
  platformFeeBps : UInt8
  deriving DecidableEq, Repr

def SharedAccountsExactOutRouteInstructionArgs.codec :
    Codec UInt8 SharedAccountsExactOutRouteInstructionArgs :=
  (u8.prod ((vec RoutePlanStep.codec).prod (u64.prod (u64.prod (u16.prod u8))))).equiv {
    toFun := fun (id, routePlan, outAmount, quotedInAmount, slippageBps, platformFeeBps) =>
      ⟨id, routePlan, outAmount, quotedInAmount, slippageBps, platformFeeBps⟩
    invFun := fun args =>
      (args.id, args.routePlan, args.outAmount, args.quotedInAmount, args.slippageBps,
        args.platformFeeBps)
    left_inv := fun _ => rfl
    right_inv := fun _ => rfl }

theorem SharedAccountsExactOutRouteInstructionArgs.codec_valid_iff
    {args : SharedAccountsExactOutRouteInstructionArgs} :
    codec.Valid args ↔ FitsPlan args.routePlan := by
  simp [codec, routePlan_valid_iff]

/-- `SharedAccountsRouteInstructionArgs` -/
structure SharedAccountsRouteInstructionArgs where
  id : UInt8
  routePlan : List RoutePlanStep
  inAmount : BitVec 64
  quotedOutAmount : BitVec 64
  slippageBps : BitVec 16
  platformFeeBps : UInt8
  deriving DecidableEq, Repr

def SharedAccountsRouteInstructionArgs.codec : Codec UInt8 SharedAccountsRouteInstructionArgs :=
  (u8.prod ((vec RoutePlanStep.codec).prod (u64.prod (u64.prod (u16.prod u8))))).equiv {
    toFun := fun (id, routePlan, inAmount, quotedOutAmount, slippageBps, platformFeeBps) =>
      ⟨id, routePlan, inAmount, quotedOutAmount, slippageBps, platformFeeBps⟩
    invFun := fun args =>
      (args.id, args.routePlan, args.inAmount, args.quotedOutAmount, args.slippageBps,
        args.platformFeeBps)
    left_inv := fun _ => rfl
    right_inv := fun _ => rfl }

theorem SharedAccountsRouteInstructionArgs.codec_valid_iff
    {args : SharedAccountsRouteInstructionArgs} :
    codec.Valid args ↔ FitsPlan args.routePlan := by
  simp [codec, routePlan_valid_iff]

/-- `SharedAccountsRouteWithTokenLedgerInstructionArgs` -/
structure SharedAccountsRouteWithTokenLedgerInstructionArgs where
  id : UInt8
  routePlan : List RoutePlanStep
  quotedOutAmount : BitVec 64
  slippageBps : BitVec 16
  platformFeeBps : UInt8
  deriving DecidableEq, Repr

def SharedAccountsRouteWithTokenLedgerInstructionArgs.codec :
    Codec UInt8 SharedAccountsRouteWithTokenLedgerInstructionArgs :=
  (u8.prod ((vec RoutePlanStep.codec).prod (u64.prod (u16.prod u8)))).equiv {
    toFun := fun (id, routePlan, quotedOutAmount, slippageBps, platformFeeBps) =>
      ⟨id, routePlan, quotedOutAmount, slippageBps, platformFeeBps⟩
    invFun := fun args =>
      (args.id, args.routePlan, args.quotedOutAmount, args.slippageBps, args.platformFeeBps)
    left_inv := fun _ => rfl
    right_inv := fun _ => rfl }

theorem SharedAccountsRouteWithTokenLedgerInstructionArgs.codec_valid_iff
    {args : SharedAccountsRouteWithTokenLedgerInstructionArgs} :
    codec.Valid args ↔ FitsPlan args.routePlan := by
  simp [codec, routePlan_valid_iff]

end Biscuit.Parser.Jupiter
