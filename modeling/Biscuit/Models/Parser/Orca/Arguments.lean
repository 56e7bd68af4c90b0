import Biscuit.Core.Borsh
import Biscuit.Models.Chain.Keys

/-!
# Arguments of Whirlpool instructions

The types of the generated client with their Borsh codecs. Every value of these types can be
written, unless it has so many slices of remaining accounts that their number takes more than four
bytes.
-/

namespace Biscuit.Parser.Orca

open Borsh

/-! ## Remaining accounts -/

/-- `AccountsType` -/
inductive AccountsType
  | transferHookA
  | transferHookB
  | transferHookReward
  | transferHookInput
  | transferHookIntermediate
  | transferHookOutput
  deriving DecidableEq, Repr

def AccountsType.codec : Codec UInt8 AccountsType :=
  enum AccountsType.ctorIdx
    [.const .transferHookA, .const .transferHookB, .const .transferHookReward,
      .const .transferHookInput, .const .transferHookIntermediate, .const .transferHookOutput]
    (.const rfl (.const rfl (.const rfl (.const rfl (.const rfl (.const rfl (.nil _ _)))))))

@[simp] theorem AccountsType.codec_valid (type : AccountsType) : codec.Valid type := by
  cases type <;> exact enum_valid rfl (by decide) rfl

/-- `RemainingAccountsSlice` -/
structure RemainingAccountsSlice where
  accountsType : AccountsType
  length : UInt8
  deriving DecidableEq, Repr

def RemainingAccountsSlice.codec : Codec UInt8 RemainingAccountsSlice :=
  (AccountsType.codec.prod u8).equiv {
    toFun := fun (accountsType, length) => ⟨accountsType, length⟩
    invFun := fun slice => (slice.accountsType, slice.length)
    left_inv := fun _ => rfl
    right_inv := fun _ => rfl }

/-- `RemainingAccountsInfo` -/
structure RemainingAccountsInfo where
  slices : List RemainingAccountsSlice
  deriving DecidableEq, Repr

def RemainingAccountsInfo.codec : Codec UInt8 RemainingAccountsInfo :=
  (vec RemainingAccountsSlice.codec).equiv {
    toFun := fun slices => ⟨slices⟩
    invFun := fun info => info.slices
    left_inv := fun _ => rfl
    right_inv := fun _ => rfl }

theorem RemainingAccountsInfo.codec_valid_iff {info : RemainingAccountsInfo} :
    codec.Valid info ↔ info.slices.length < 2 ^ 32 := by
  refine vec_valid_iff.trans (and_iff_left ?_)
  exact fun slice _ => ⟨AccountsType.codec_valid _, u8_valid _⟩

/-- The number of slices fits into four bytes. -/
def FitsInfo (remainingAccountsInfo : Option RemainingAccountsInfo) : Prop :=
  ∀ info ∈ remainingAccountsInfo, info.slices.length < 2 ^ 32

theorem remainingAccountsInfo_valid_iff {remainingAccountsInfo : Option RemainingAccountsInfo} :
    (option RemainingAccountsInfo.codec).Valid remainingAccountsInfo ↔
      FitsInfo remainingAccountsInfo :=
  option_valid_iff.trans (forall₂_congr fun _ _ => RemainingAccountsInfo.codec_valid_iff)

/-! ## Arguments -/

/-- `InitializePoolInstructionArgs` -/
structure InitializePoolInstructionArgs where
  whirlpoolBump : UInt8
  tickSpacing : BitVec 16
  initialSqrtPrice : BitVec 128
  deriving DecidableEq, Repr

def InitializePoolInstructionArgs.codec : Codec UInt8 InitializePoolInstructionArgs :=
  (u8.prod (u16.prod u128)).equiv {
    toFun := fun (whirlpoolBump, tickSpacing, initialSqrtPrice) =>
      ⟨whirlpoolBump, tickSpacing, initialSqrtPrice⟩
    invFun := fun args => (args.whirlpoolBump, args.tickSpacing, args.initialSqrtPrice)
    left_inv := fun _ => rfl
    right_inv := fun _ => rfl }

theorem InitializePoolInstructionArgs.codec_valid (args : InitializePoolInstructionArgs) :
    codec.Valid args := by
  simp [codec]

/-- `InitializePoolV2InstructionArgs` -/
structure InitializePoolV2InstructionArgs where
  tickSpacing : BitVec 16
  initialSqrtPrice : BitVec 128
  deriving DecidableEq, Repr

def InitializePoolV2InstructionArgs.codec : Codec UInt8 InitializePoolV2InstructionArgs :=
  (u16.prod u128).equiv {
    toFun := fun (tickSpacing, initialSqrtPrice) => ⟨tickSpacing, initialSqrtPrice⟩
    invFun := fun args => (args.tickSpacing, args.initialSqrtPrice)
    left_inv := fun _ => rfl
    right_inv := fun _ => rfl }

theorem InitializePoolV2InstructionArgs.codec_valid (args : InitializePoolV2InstructionArgs) :
    codec.Valid args := by
  simp [codec]

/-- `IncreaseLiquidityInstructionArgs` -/
structure IncreaseLiquidityInstructionArgs where
  liquidityAmount : BitVec 128
  tokenMaxA : BitVec 64
  tokenMaxB : BitVec 64
  deriving DecidableEq, Repr

def IncreaseLiquidityInstructionArgs.codec : Codec UInt8 IncreaseLiquidityInstructionArgs :=
  (u128.prod (u64.prod u64)).equiv {
    toFun := fun (liquidityAmount, tokenMaxA, tokenMaxB) => ⟨liquidityAmount, tokenMaxA, tokenMaxB⟩
    invFun := fun args => (args.liquidityAmount, args.tokenMaxA, args.tokenMaxB)
    left_inv := fun _ => rfl
    right_inv := fun _ => rfl }

theorem IncreaseLiquidityInstructionArgs.codec_valid (args : IncreaseLiquidityInstructionArgs) :
    codec.Valid args := by
  simp [codec]

/-- `IncreaseLiquidityV2InstructionArgs` -/
structure IncreaseLiquidityV2InstructionArgs where
  liquidityAmount : BitVec 128
  tokenMaxA : BitVec 64
  tokenMaxB : BitVec 64
  remainingAccountsInfo : Option RemainingAccountsInfo
  deriving DecidableEq, Repr

def IncreaseLiquidityV2InstructionArgs.codec : Codec UInt8 IncreaseLiquidityV2InstructionArgs :=
  (u128.prod (u64.prod (u64.prod (option RemainingAccountsInfo.codec)))).equiv {
    toFun := fun (liquidityAmount, tokenMaxA, tokenMaxB, remainingAccountsInfo) =>
      ⟨liquidityAmount, tokenMaxA, tokenMaxB, remainingAccountsInfo⟩
    invFun := fun args =>
      (args.liquidityAmount, args.tokenMaxA, args.tokenMaxB, args.remainingAccountsInfo)
    left_inv := fun _ => rfl
    right_inv := fun _ => rfl }

theorem IncreaseLiquidityV2InstructionArgs.codec_valid_iff
    {args : IncreaseLiquidityV2InstructionArgs} :
    codec.Valid args ↔ FitsInfo args.remainingAccountsInfo := by
  simp [codec, remainingAccountsInfo_valid_iff]

/-- `DecreaseLiquidityInstructionArgs` -/
structure DecreaseLiquidityInstructionArgs where
  liquidityAmount : BitVec 128
  tokenMinA : BitVec 64
  tokenMinB : BitVec 64
  deriving DecidableEq, Repr

def DecreaseLiquidityInstructionArgs.codec : Codec UInt8 DecreaseLiquidityInstructionArgs :=
  (u128.prod (u64.prod u64)).equiv {
    toFun := fun (liquidityAmount, tokenMinA, tokenMinB) => ⟨liquidityAmount, tokenMinA, tokenMinB⟩
    invFun := fun args => (args.liquidityAmount, args.tokenMinA, args.tokenMinB)
    left_inv := fun _ => rfl
    right_inv := fun _ => rfl }

theorem DecreaseLiquidityInstructionArgs.codec_valid (args : DecreaseLiquidityInstructionArgs) :
    codec.Valid args := by
  simp [codec]

/-- `DecreaseLiquidityV2InstructionArgs` -/
structure DecreaseLiquidityV2InstructionArgs where
  liquidityAmount : BitVec 128
  tokenMinA : BitVec 64
  tokenMinB : BitVec 64
  remainingAccountsInfo : Option RemainingAccountsInfo
  deriving DecidableEq, Repr

def DecreaseLiquidityV2InstructionArgs.codec : Codec UInt8 DecreaseLiquidityV2InstructionArgs :=
  (u128.prod (u64.prod (u64.prod (option RemainingAccountsInfo.codec)))).equiv {
    toFun := fun (liquidityAmount, tokenMinA, tokenMinB, remainingAccountsInfo) =>
      ⟨liquidityAmount, tokenMinA, tokenMinB, remainingAccountsInfo⟩
    invFun := fun args =>
      (args.liquidityAmount, args.tokenMinA, args.tokenMinB, args.remainingAccountsInfo)
    left_inv := fun _ => rfl
    right_inv := fun _ => rfl }

theorem DecreaseLiquidityV2InstructionArgs.codec_valid_iff
    {args : DecreaseLiquidityV2InstructionArgs} :
    codec.Valid args ↔ FitsInfo args.remainingAccountsInfo := by
  simp [codec, remainingAccountsInfo_valid_iff]

/-- `SwapInstructionArgs` -/
structure SwapInstructionArgs where
  amount : BitVec 64
  otherAmountThreshold : BitVec 64
  sqrtPriceLimit : BitVec 128
  amountSpecifiedIsInput : Bool
  aToB : Bool
  deriving DecidableEq, Repr

def SwapInstructionArgs.codec : Codec UInt8 SwapInstructionArgs :=
  (u64.prod (u64.prod (u128.prod (bool.prod bool)))).equiv {
    toFun := fun (amount, otherAmountThreshold, sqrtPriceLimit, amountSpecifiedIsInput, aToB) =>
      ⟨amount, otherAmountThreshold, sqrtPriceLimit, amountSpecifiedIsInput, aToB⟩
    invFun := fun args =>
      (args.amount, args.otherAmountThreshold, args.sqrtPriceLimit, args.amountSpecifiedIsInput,
        args.aToB)
    left_inv := fun _ => rfl
    right_inv := fun _ => rfl }

theorem SwapInstructionArgs.codec_valid (args : SwapInstructionArgs) : codec.Valid args := by
  simp [codec]

/-- `SwapV2InstructionArgs` -/
structure SwapV2InstructionArgs where
  amount : BitVec 64
  otherAmountThreshold : BitVec 64
  sqrtPriceLimit : BitVec 128
  amountSpecifiedIsInput : Bool
  aToB : Bool
  remainingAccountsInfo : Option RemainingAccountsInfo
  deriving DecidableEq, Repr

def SwapV2InstructionArgs.codec : Codec UInt8 SwapV2InstructionArgs :=
  (u64.prod (u64.prod (u128.prod (bool.prod (bool.prod
    (option RemainingAccountsInfo.codec)))))).equiv {
    toFun := fun (amount, otherAmountThreshold, sqrtPriceLimit, amountSpecifiedIsInput, aToB,
      remainingAccountsInfo) =>
      ⟨amount, otherAmountThreshold, sqrtPriceLimit, amountSpecifiedIsInput, aToB,
        remainingAccountsInfo⟩
    invFun := fun args =>
      (args.amount, args.otherAmountThreshold, args.sqrtPriceLimit, args.amountSpecifiedIsInput,
        args.aToB, args.remainingAccountsInfo)
    left_inv := fun _ => rfl
    right_inv := fun _ => rfl }

theorem SwapV2InstructionArgs.codec_valid_iff {args : SwapV2InstructionArgs} :
    codec.Valid args ↔ FitsInfo args.remainingAccountsInfo := by
  simp [codec, remainingAccountsInfo_valid_iff]

end Biscuit.Parser.Orca
