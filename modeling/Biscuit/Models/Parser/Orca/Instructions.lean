import Biscuit.Models.Parser.Windows
import Biscuit.Models.Parser.Orca.Arguments

/-!
# Whirlpool instructions

The instructions of the whirlpools as the generated client builds them and as the parser reads them
back from a message. None of their accounts can be left out.
-/

namespace Biscuit.Parser.Orca

/-! ## Discriminators -/

/-- `ORCA_INITIALIZE_POOL_DISC` -/
def orcaInitializePoolDisc : Bytes := [95, 180, 10, 172, 84, 174, 232, 40]

/-- `ORCA_INITIALIZE_POOL_V2_DISC` -/
def orcaInitializePoolV2Disc : Bytes := [207, 45, 87, 242, 27, 63, 204, 67]

/-- `ORCA_INCREASE_LIQUIDITY_DISC` -/
def orcaIncreaseLiquidityDisc : Bytes := [46, 156, 243, 118, 13, 205, 251, 178]

/-- `ORCA_INCREASE_LIQUIDITY_V2_DISC` -/
def orcaIncreaseLiquidityV2Disc : Bytes := [133, 29, 89, 223, 69, 238, 176, 10]

/-- `ORCA_DECREASE_LIQUIDITY_DISC` -/
def orcaDecreaseLiquidityDisc : Bytes := [160, 38, 208, 111, 104, 91, 44, 1]

/-- `ORCA_DECREASE_LIQUIDITY_V2_DISC` -/
def orcaDecreaseLiquidityV2Disc : Bytes := [58, 127, 188, 62, 79, 82, 196, 96]

/-- `ORCA_SWAP_DISC` -/
def orcaSwapDisc : Bytes := [248, 198, 158, 145, 225, 117, 135, 200]

/-- `ORCA_SWAP_V2_DISC` -/
def orcaSwapV2Disc : Bytes := [43, 4, 237, 11, 26, 201, 30, 98]

/-- The discriminators that the parser knows. -/
def orcaDiscs : List Bytes :=
  [orcaInitializePoolDisc, orcaInitializePoolV2Disc, orcaIncreaseLiquidityDisc,
    orcaIncreaseLiquidityV2Disc, orcaDecreaseLiquidityDisc, orcaDecreaseLiquidityV2Disc,
    orcaSwapDisc, orcaSwapV2Disc]

/-! ## Accounts -/

/-- `InitializePool` -/
structure InitializePool where
  whirlpoolsConfig : Pubkey
  tokenMintA : Pubkey
  tokenMintB : Pubkey
  funder : Pubkey
  whirlpool : Pubkey
  tokenVaultA : Pubkey
  tokenVaultB : Pubkey
  feeTier : Pubkey
  tokenProgram : Pubkey
  systemProgram : Pubkey
  rent : Pubkey
  deriving DecidableEq, Repr

namespace InitializePool

/-- The accounts as the builder of the instruction lists them. -/
def accountMetas (accounts : InitializePool) : List AccountMeta :=
  [.newReadonly accounts.whirlpoolsConfig false, .newReadonly accounts.tokenMintA false,
    .newReadonly accounts.tokenMintB false, .new accounts.funder true,
    .new accounts.whirlpool false, .new accounts.tokenVaultA true, .new accounts.tokenVaultB true,
    .newReadonly accounts.feeTier false, .newReadonly accounts.tokenProgram false,
    .newReadonly accounts.systemProgram false, .newReadonly accounts.rent false]

def read : Windowed InitializePool := do
  let whirlpoolsConfig ← nextAccountKey
  let tokenMintA ← nextAccountKey
  let tokenMintB ← nextAccountKey
  let funder ← nextAccountKey
  let whirlpool ← nextAccountKey
  let tokenVaultA ← nextAccountKey
  let tokenVaultB ← nextAccountKey
  let feeTier ← nextAccountKey
  let tokenProgram ← nextAccountKey
  let systemProgram ← nextAccountKey
  let rent ← nextAccountKey
  pure ⟨whirlpoolsConfig, tokenMintA, tokenMintB, funder, whirlpool, tokenVaultA, tokenVaultB,
    feeTier, tokenProgram, systemProgram, rent⟩

theorem read_denotes : read.Denotes fun _ keys accounts =>
    keys = accounts.accountMetas.map (·.pubkey) := by
  refine .congr (.bind_next fun _ => .bind_next fun _ => .bind_next fun _ => .bind_next fun _ =>
    .bind_next fun _ => .bind_next fun _ => .bind_next fun _ => .bind_next fun _ =>
    .bind_next fun _ => .bind_next fun _ => .bind_next fun _ =>
    .pure _) fun program keys accounts => ?_
  constructor
  · rintro ⟨_, _, rfl, _, _, rfl, _, _, rfl, _, _, rfl, _, _, rfl, _, _, rfl, _, _, rfl, _, _, rfl,
      _, _, rfl, _, _, rfl, _, _, rfl, rfl, rfl⟩
    rfl
  · rintro rfl
    exact ⟨_, _, rfl, _, _, rfl, _, _, rfl, _, _, rfl, _, _, rfl, _, _, rfl, _, _, rfl, _, _, rfl,
      _, _, rfl, _, _, rfl, _, _, rfl, rfl, rfl⟩

end InitializePool

/-- `InitializePoolV2` -/
structure InitializePoolV2 where
  whirlpoolsConfig : Pubkey
  tokenMintA : Pubkey
  tokenMintB : Pubkey
  tokenBadgeA : Pubkey
  tokenBadgeB : Pubkey
  funder : Pubkey
  whirlpool : Pubkey
  tokenVaultA : Pubkey
  tokenVaultB : Pubkey
  feeTier : Pubkey
  tokenProgramA : Pubkey
  tokenProgramB : Pubkey
  systemProgram : Pubkey
  rent : Pubkey
  deriving DecidableEq, Repr

namespace InitializePoolV2

/-- The accounts as the builder of the instruction lists them. -/
def accountMetas (accounts : InitializePoolV2) : List AccountMeta :=
  [.newReadonly accounts.whirlpoolsConfig false, .newReadonly accounts.tokenMintA false,
    .newReadonly accounts.tokenMintB false, .newReadonly accounts.tokenBadgeA false,
    .newReadonly accounts.tokenBadgeB false, .new accounts.funder true,
    .new accounts.whirlpool false, .new accounts.tokenVaultA true, .new accounts.tokenVaultB true,
    .newReadonly accounts.feeTier false, .newReadonly accounts.tokenProgramA false,
    .newReadonly accounts.tokenProgramB false, .newReadonly accounts.systemProgram false,
    .newReadonly accounts.rent false]

def read : Windowed InitializePoolV2 := do
  let whirlpoolsConfig ← nextAccountKey
  let tokenMintA ← nextAccountKey
  let tokenMintB ← nextAccountKey
  let tokenBadgeA ← nextAccountKey
  let tokenBadgeB ← nextAccountKey
  let funder ← nextAccountKey
  let whirlpool ← nextAccountKey
  let tokenVaultA ← nextAccountKey
  let tokenVaultB ← nextAccountKey
  let feeTier ← nextAccountKey
  let tokenProgramA ← nextAccountKey
  let tokenProgramB ← nextAccountKey
  let systemProgram ← nextAccountKey
  let rent ← nextAccountKey
  pure ⟨whirlpoolsConfig, tokenMintA, tokenMintB, tokenBadgeA, tokenBadgeB, funder, whirlpool,
    tokenVaultA, tokenVaultB, feeTier, tokenProgramA, tokenProgramB, systemProgram, rent⟩

theorem read_denotes : read.Denotes fun _ keys accounts =>
    keys = accounts.accountMetas.map (·.pubkey) := by
  refine .congr (.bind_next fun _ => .bind_next fun _ => .bind_next fun _ => .bind_next fun _ =>
    .bind_next fun _ => .bind_next fun _ => .bind_next fun _ => .bind_next fun _ =>
    .bind_next fun _ => .bind_next fun _ => .bind_next fun _ => .bind_next fun _ =>
    .bind_next fun _ => .bind_next fun _ => .pure _) fun program keys accounts => ?_
  constructor
  · rintro ⟨_, _, rfl, _, _, rfl, _, _, rfl, _, _, rfl, _, _, rfl, _, _, rfl, _, _, rfl, _, _, rfl,
      _, _, rfl, _, _, rfl, _, _, rfl, _, _, rfl, _, _, rfl, _, _, rfl, rfl, rfl⟩
    rfl
  · rintro rfl
    exact ⟨_, _, rfl, _, _, rfl, _, _, rfl, _, _, rfl, _, _, rfl, _, _, rfl, _, _, rfl, _, _, rfl,
      _, _, rfl, _, _, rfl, _, _, rfl, _, _, rfl, _, _, rfl, _, _, rfl, rfl, rfl⟩

end InitializePoolV2

/-- `IncreaseLiquidity` -/
structure IncreaseLiquidity where
  whirlpool : Pubkey
  tokenProgram : Pubkey
  positionAuthority : Pubkey
  position : Pubkey
  positionTokenAccount : Pubkey
  tokenOwnerAccountA : Pubkey
  tokenOwnerAccountB : Pubkey
  tokenVaultA : Pubkey
  tokenVaultB : Pubkey
  tickArrayLower : Pubkey
  tickArrayUpper : Pubkey
  deriving DecidableEq, Repr

namespace IncreaseLiquidity

/-- The accounts as the builder of the instruction lists them. -/
def accountMetas (accounts : IncreaseLiquidity) : List AccountMeta :=
  [.new accounts.whirlpool false, .newReadonly accounts.tokenProgram false,
    .newReadonly accounts.positionAuthority true, .new accounts.position false,
    .newReadonly accounts.positionTokenAccount false, .new accounts.tokenOwnerAccountA false,
    .new accounts.tokenOwnerAccountB false, .new accounts.tokenVaultA false,
    .new accounts.tokenVaultB false, .new accounts.tickArrayLower false,
    .new accounts.tickArrayUpper false]

def read : Windowed IncreaseLiquidity := do
  let whirlpool ← nextAccountKey
  let tokenProgram ← nextAccountKey
  let positionAuthority ← nextAccountKey
  let position ← nextAccountKey
  let positionTokenAccount ← nextAccountKey
  let tokenOwnerAccountA ← nextAccountKey
  let tokenOwnerAccountB ← nextAccountKey
  let tokenVaultA ← nextAccountKey
  let tokenVaultB ← nextAccountKey
  let tickArrayLower ← nextAccountKey
  let tickArrayUpper ← nextAccountKey
  pure ⟨whirlpool, tokenProgram, positionAuthority, position, positionTokenAccount,
    tokenOwnerAccountA, tokenOwnerAccountB, tokenVaultA, tokenVaultB, tickArrayLower,
    tickArrayUpper⟩

theorem read_denotes : read.Denotes fun _ keys accounts =>
    keys = accounts.accountMetas.map (·.pubkey) := by
  refine .congr (.bind_next fun _ => .bind_next fun _ => .bind_next fun _ => .bind_next fun _ =>
    .bind_next fun _ => .bind_next fun _ => .bind_next fun _ => .bind_next fun _ =>
    .bind_next fun _ => .bind_next fun _ => .bind_next fun _ =>
    .pure _) fun program keys accounts => ?_
  constructor
  · rintro ⟨_, _, rfl, _, _, rfl, _, _, rfl, _, _, rfl, _, _, rfl, _, _, rfl, _, _, rfl, _, _, rfl,
      _, _, rfl, _, _, rfl, _, _, rfl, rfl, rfl⟩
    rfl
  · rintro rfl
    exact ⟨_, _, rfl, _, _, rfl, _, _, rfl, _, _, rfl, _, _, rfl, _, _, rfl, _, _, rfl, _, _, rfl,
      _, _, rfl, _, _, rfl, _, _, rfl, rfl, rfl⟩

end IncreaseLiquidity

/-- `IncreaseLiquidityV2` -/
structure IncreaseLiquidityV2 where
  whirlpool : Pubkey
  tokenProgramA : Pubkey
  tokenProgramB : Pubkey
  memoProgram : Pubkey
  positionAuthority : Pubkey
  position : Pubkey
  positionTokenAccount : Pubkey
  tokenMintA : Pubkey
  tokenMintB : Pubkey
  tokenOwnerAccountA : Pubkey
  tokenOwnerAccountB : Pubkey
  tokenVaultA : Pubkey
  tokenVaultB : Pubkey
  tickArrayLower : Pubkey
  tickArrayUpper : Pubkey
  deriving DecidableEq, Repr

namespace IncreaseLiquidityV2

/-- The accounts as the builder of the instruction lists them. -/
def accountMetas (accounts : IncreaseLiquidityV2) : List AccountMeta :=
  [.new accounts.whirlpool false, .newReadonly accounts.tokenProgramA false,
    .newReadonly accounts.tokenProgramB false, .newReadonly accounts.memoProgram false,
    .newReadonly accounts.positionAuthority true, .new accounts.position false,
    .newReadonly accounts.positionTokenAccount false, .newReadonly accounts.tokenMintA false,
    .newReadonly accounts.tokenMintB false, .new accounts.tokenOwnerAccountA false,
    .new accounts.tokenOwnerAccountB false, .new accounts.tokenVaultA false,
    .new accounts.tokenVaultB false, .new accounts.tickArrayLower false,
    .new accounts.tickArrayUpper false]

def read : Windowed IncreaseLiquidityV2 := do
  let whirlpool ← nextAccountKey
  let tokenProgramA ← nextAccountKey
  let tokenProgramB ← nextAccountKey
  let memoProgram ← nextAccountKey
  let positionAuthority ← nextAccountKey
  let position ← nextAccountKey
  let positionTokenAccount ← nextAccountKey
  let tokenMintA ← nextAccountKey
  let tokenMintB ← nextAccountKey
  let tokenOwnerAccountA ← nextAccountKey
  let tokenOwnerAccountB ← nextAccountKey
  let tokenVaultA ← nextAccountKey
  let tokenVaultB ← nextAccountKey
  let tickArrayLower ← nextAccountKey
  let tickArrayUpper ← nextAccountKey
  pure ⟨whirlpool, tokenProgramA, tokenProgramB, memoProgram, positionAuthority, position,
    positionTokenAccount, tokenMintA, tokenMintB, tokenOwnerAccountA, tokenOwnerAccountB,
    tokenVaultA, tokenVaultB, tickArrayLower, tickArrayUpper⟩

theorem read_denotes : read.Denotes fun _ keys accounts =>
    keys = accounts.accountMetas.map (·.pubkey) := by
  refine .congr (.bind_next fun _ => .bind_next fun _ => .bind_next fun _ => .bind_next fun _ =>
    .bind_next fun _ => .bind_next fun _ => .bind_next fun _ => .bind_next fun _ =>
    .bind_next fun _ => .bind_next fun _ => .bind_next fun _ => .bind_next fun _ =>
    .bind_next fun _ => .bind_next fun _ => .bind_next fun _ =>
    .pure _) fun program keys accounts => ?_
  constructor
  · rintro ⟨_, _, rfl, _, _, rfl, _, _, rfl, _, _, rfl, _, _, rfl, _, _, rfl, _, _, rfl, _, _, rfl,
      _, _, rfl, _, _, rfl, _, _, rfl, _, _, rfl, _, _, rfl, _, _, rfl, _, _, rfl, rfl, rfl⟩
    rfl
  · rintro rfl
    exact ⟨_, _, rfl, _, _, rfl, _, _, rfl, _, _, rfl, _, _, rfl, _, _, rfl, _, _, rfl, _, _, rfl,
      _, _, rfl, _, _, rfl, _, _, rfl, _, _, rfl, _, _, rfl, _, _, rfl, _, _, rfl, rfl, rfl⟩

end IncreaseLiquidityV2

/-- `DecreaseLiquidity` -/
structure DecreaseLiquidity where
  whirlpool : Pubkey
  tokenProgram : Pubkey
  positionAuthority : Pubkey
  position : Pubkey
  positionTokenAccount : Pubkey
  tokenOwnerAccountA : Pubkey
  tokenOwnerAccountB : Pubkey
  tokenVaultA : Pubkey
  tokenVaultB : Pubkey
  tickArrayLower : Pubkey
  tickArrayUpper : Pubkey
  deriving DecidableEq, Repr

namespace DecreaseLiquidity

/-- The accounts as the builder of the instruction lists them. -/
def accountMetas (accounts : DecreaseLiquidity) : List AccountMeta :=
  [.new accounts.whirlpool false, .newReadonly accounts.tokenProgram false,
    .newReadonly accounts.positionAuthority true, .new accounts.position false,
    .newReadonly accounts.positionTokenAccount false, .new accounts.tokenOwnerAccountA false,
    .new accounts.tokenOwnerAccountB false, .new accounts.tokenVaultA false,
    .new accounts.tokenVaultB false, .new accounts.tickArrayLower false,
    .new accounts.tickArrayUpper false]

def read : Windowed DecreaseLiquidity := do
  let whirlpool ← nextAccountKey
  let tokenProgram ← nextAccountKey
  let positionAuthority ← nextAccountKey
  let position ← nextAccountKey
  let positionTokenAccount ← nextAccountKey
  let tokenOwnerAccountA ← nextAccountKey
  let tokenOwnerAccountB ← nextAccountKey
  let tokenVaultA ← nextAccountKey
  let tokenVaultB ← nextAccountKey
  let tickArrayLower ← nextAccountKey
  let tickArrayUpper ← nextAccountKey
  pure ⟨whirlpool, tokenProgram, positionAuthority, position, positionTokenAccount,
    tokenOwnerAccountA, tokenOwnerAccountB, tokenVaultA, tokenVaultB, tickArrayLower,
    tickArrayUpper⟩

theorem read_denotes : read.Denotes fun _ keys accounts =>
    keys = accounts.accountMetas.map (·.pubkey) := by
  refine .congr (.bind_next fun _ => .bind_next fun _ => .bind_next fun _ => .bind_next fun _ =>
    .bind_next fun _ => .bind_next fun _ => .bind_next fun _ => .bind_next fun _ =>
    .bind_next fun _ => .bind_next fun _ => .bind_next fun _ =>
    .pure _) fun program keys accounts => ?_
  constructor
  · rintro ⟨_, _, rfl, _, _, rfl, _, _, rfl, _, _, rfl, _, _, rfl, _, _, rfl, _, _, rfl, _, _, rfl,
      _, _, rfl, _, _, rfl, _, _, rfl, rfl, rfl⟩
    rfl
  · rintro rfl
    exact ⟨_, _, rfl, _, _, rfl, _, _, rfl, _, _, rfl, _, _, rfl, _, _, rfl, _, _, rfl, _, _, rfl,
      _, _, rfl, _, _, rfl, _, _, rfl, rfl, rfl⟩

end DecreaseLiquidity

/-- `DecreaseLiquidityV2` -/
structure DecreaseLiquidityV2 where
  whirlpool : Pubkey
  tokenProgramA : Pubkey
  tokenProgramB : Pubkey
  memoProgram : Pubkey
  positionAuthority : Pubkey
  position : Pubkey
  positionTokenAccount : Pubkey
  tokenMintA : Pubkey
  tokenMintB : Pubkey
  tokenOwnerAccountA : Pubkey
  tokenOwnerAccountB : Pubkey
  tokenVaultA : Pubkey
  tokenVaultB : Pubkey
  tickArrayLower : Pubkey
  tickArrayUpper : Pubkey
  deriving DecidableEq, Repr

namespace DecreaseLiquidityV2

/-- The accounts as the builder of the instruction lists them. -/
def accountMetas (accounts : DecreaseLiquidityV2) : List AccountMeta :=
  [.new accounts.whirlpool false, .newReadonly accounts.tokenProgramA false,
    .newReadonly accounts.tokenProgramB false, .newReadonly accounts.memoProgram false,
    .newReadonly accounts.positionAuthority true, .new accounts.position false,
    .newReadonly accounts.positionTokenAccount false, .newReadonly accounts.tokenMintA false,
    .newReadonly accounts.tokenMintB false, .new accounts.tokenOwnerAccountA false,
    .new accounts.tokenOwnerAccountB false, .new accounts.tokenVaultA false,
    .new accounts.tokenVaultB false, .new accounts.tickArrayLower false,
    .new accounts.tickArrayUpper false]

def read : Windowed DecreaseLiquidityV2 := do
  let whirlpool ← nextAccountKey
  let tokenProgramA ← nextAccountKey
  let tokenProgramB ← nextAccountKey
  let memoProgram ← nextAccountKey
  let positionAuthority ← nextAccountKey
  let position ← nextAccountKey
  let positionTokenAccount ← nextAccountKey
  let tokenMintA ← nextAccountKey
  let tokenMintB ← nextAccountKey
  let tokenOwnerAccountA ← nextAccountKey
  let tokenOwnerAccountB ← nextAccountKey
  let tokenVaultA ← nextAccountKey
  let tokenVaultB ← nextAccountKey
  let tickArrayLower ← nextAccountKey
  let tickArrayUpper ← nextAccountKey
  pure ⟨whirlpool, tokenProgramA, tokenProgramB, memoProgram, positionAuthority, position,
    positionTokenAccount, tokenMintA, tokenMintB, tokenOwnerAccountA, tokenOwnerAccountB,
    tokenVaultA, tokenVaultB, tickArrayLower, tickArrayUpper⟩

theorem read_denotes : read.Denotes fun _ keys accounts =>
    keys = accounts.accountMetas.map (·.pubkey) := by
  refine .congr (.bind_next fun _ => .bind_next fun _ => .bind_next fun _ => .bind_next fun _ =>
    .bind_next fun _ => .bind_next fun _ => .bind_next fun _ => .bind_next fun _ =>
    .bind_next fun _ => .bind_next fun _ => .bind_next fun _ => .bind_next fun _ =>
    .bind_next fun _ => .bind_next fun _ => .bind_next fun _ =>
    .pure _) fun program keys accounts => ?_
  constructor
  · rintro ⟨_, _, rfl, _, _, rfl, _, _, rfl, _, _, rfl, _, _, rfl, _, _, rfl, _, _, rfl, _, _, rfl,
      _, _, rfl, _, _, rfl, _, _, rfl, _, _, rfl, _, _, rfl, _, _, rfl, _, _, rfl, rfl, rfl⟩
    rfl
  · rintro rfl
    exact ⟨_, _, rfl, _, _, rfl, _, _, rfl, _, _, rfl, _, _, rfl, _, _, rfl, _, _, rfl, _, _, rfl,
      _, _, rfl, _, _, rfl, _, _, rfl, _, _, rfl, _, _, rfl, _, _, rfl, _, _, rfl, rfl, rfl⟩

end DecreaseLiquidityV2

/-- `Swap` -/
structure Swap where
  tokenProgram : Pubkey
  tokenAuthority : Pubkey
  whirlpool : Pubkey
  tokenOwnerAccountA : Pubkey
  tokenVaultA : Pubkey
  tokenOwnerAccountB : Pubkey
  tokenVaultB : Pubkey
  tickArray0 : Pubkey
  tickArray1 : Pubkey
  tickArray2 : Pubkey
  oracle : Pubkey
  deriving DecidableEq, Repr

namespace Swap

/-- The accounts as the builder of the instruction lists them. -/
def accountMetas (accounts : Swap) : List AccountMeta :=
  [.newReadonly accounts.tokenProgram false, .newReadonly accounts.tokenAuthority true,
    .new accounts.whirlpool false, .new accounts.tokenOwnerAccountA false,
    .new accounts.tokenVaultA false, .new accounts.tokenOwnerAccountB false,
    .new accounts.tokenVaultB false, .new accounts.tickArray0 false,
    .new accounts.tickArray1 false, .new accounts.tickArray2 false,
    .newReadonly accounts.oracle false]

def read : Windowed Swap := do
  let tokenProgram ← nextAccountKey
  let tokenAuthority ← nextAccountKey
  let whirlpool ← nextAccountKey
  let tokenOwnerAccountA ← nextAccountKey
  let tokenVaultA ← nextAccountKey
  let tokenOwnerAccountB ← nextAccountKey
  let tokenVaultB ← nextAccountKey
  let tickArray0 ← nextAccountKey
  let tickArray1 ← nextAccountKey
  let tickArray2 ← nextAccountKey
  let oracle ← nextAccountKey
  pure ⟨tokenProgram, tokenAuthority, whirlpool, tokenOwnerAccountA, tokenVaultA,
    tokenOwnerAccountB, tokenVaultB, tickArray0, tickArray1, tickArray2, oracle⟩

theorem read_denotes : read.Denotes fun _ keys accounts =>
    keys = accounts.accountMetas.map (·.pubkey) := by
  refine .congr (.bind_next fun _ => .bind_next fun _ => .bind_next fun _ => .bind_next fun _ =>
    .bind_next fun _ => .bind_next fun _ => .bind_next fun _ => .bind_next fun _ =>
    .bind_next fun _ => .bind_next fun _ => .bind_next fun _ =>
    .pure _) fun program keys accounts => ?_
  constructor
  · rintro ⟨_, _, rfl, _, _, rfl, _, _, rfl, _, _, rfl, _, _, rfl, _, _, rfl, _, _, rfl, _, _, rfl,
      _, _, rfl, _, _, rfl, _, _, rfl, rfl, rfl⟩
    rfl
  · rintro rfl
    exact ⟨_, _, rfl, _, _, rfl, _, _, rfl, _, _, rfl, _, _, rfl, _, _, rfl, _, _, rfl, _, _, rfl,
      _, _, rfl, _, _, rfl, _, _, rfl, rfl, rfl⟩

end Swap

/-- `SwapV2` -/
structure SwapV2 where
  tokenProgramA : Pubkey
  tokenProgramB : Pubkey
  memoProgram : Pubkey
  tokenAuthority : Pubkey
  whirlpool : Pubkey
  tokenMintA : Pubkey
  tokenMintB : Pubkey
  tokenOwnerAccountA : Pubkey
  tokenVaultA : Pubkey
  tokenOwnerAccountB : Pubkey
  tokenVaultB : Pubkey
  tickArray0 : Pubkey
  tickArray1 : Pubkey
  tickArray2 : Pubkey
  oracle : Pubkey
  deriving DecidableEq, Repr

namespace SwapV2

/-- The accounts as the builder of the instruction lists them. -/
def accountMetas (accounts : SwapV2) : List AccountMeta :=
  [.newReadonly accounts.tokenProgramA false, .newReadonly accounts.tokenProgramB false,
    .newReadonly accounts.memoProgram false, .newReadonly accounts.tokenAuthority true,
    .new accounts.whirlpool false, .newReadonly accounts.tokenMintA false,
    .newReadonly accounts.tokenMintB false, .new accounts.tokenOwnerAccountA false,
    .new accounts.tokenVaultA false, .new accounts.tokenOwnerAccountB false,
    .new accounts.tokenVaultB false, .new accounts.tickArray0 false,
    .new accounts.tickArray1 false, .new accounts.tickArray2 false, .new accounts.oracle false]

def read : Windowed SwapV2 := do
  let tokenProgramA ← nextAccountKey
  let tokenProgramB ← nextAccountKey
  let memoProgram ← nextAccountKey
  let tokenAuthority ← nextAccountKey
  let whirlpool ← nextAccountKey
  let tokenMintA ← nextAccountKey
  let tokenMintB ← nextAccountKey
  let tokenOwnerAccountA ← nextAccountKey
  let tokenVaultA ← nextAccountKey
  let tokenOwnerAccountB ← nextAccountKey
  let tokenVaultB ← nextAccountKey
  let tickArray0 ← nextAccountKey
  let tickArray1 ← nextAccountKey
  let tickArray2 ← nextAccountKey
  let oracle ← nextAccountKey
  pure ⟨tokenProgramA, tokenProgramB, memoProgram, tokenAuthority, whirlpool, tokenMintA,
    tokenMintB, tokenOwnerAccountA, tokenVaultA, tokenOwnerAccountB, tokenVaultB, tickArray0,
    tickArray1, tickArray2, oracle⟩

theorem read_denotes : read.Denotes fun _ keys accounts =>
    keys = accounts.accountMetas.map (·.pubkey) := by
  refine .congr (.bind_next fun _ => .bind_next fun _ => .bind_next fun _ => .bind_next fun _ =>
    .bind_next fun _ => .bind_next fun _ => .bind_next fun _ => .bind_next fun _ =>
    .bind_next fun _ => .bind_next fun _ => .bind_next fun _ => .bind_next fun _ =>
    .bind_next fun _ => .bind_next fun _ => .bind_next fun _ =>
    .pure _) fun program keys accounts => ?_
  constructor
  · rintro ⟨_, _, rfl, _, _, rfl, _, _, rfl, _, _, rfl, _, _, rfl, _, _, rfl, _, _, rfl, _, _, rfl,
      _, _, rfl, _, _, rfl, _, _, rfl, _, _, rfl, _, _, rfl, _, _, rfl, _, _, rfl, rfl, rfl⟩
    rfl
  · rintro rfl
    exact ⟨_, _, rfl, _, _, rfl, _, _, rfl, _, _, rfl, _, _, rfl, _, _, rfl, _, _, rfl, _, _, rfl,
      _, _, rfl, _, _, rfl, _, _, rfl, _, _, rfl, _, _, rfl, _, _, rfl, _, _, rfl, rfl, rfl⟩

end SwapV2

/-! ## Instructions -/

/-- `ParsedOrcaInstruction` -/
inductive ParsedOrcaInstruction
  | initializePool (args : InitializePoolInstructionArgs) (accounts : InitializePool)
  | initializePoolV2 (args : InitializePoolV2InstructionArgs) (accounts : InitializePoolV2)
  | increaseLiquidity (args : IncreaseLiquidityInstructionArgs) (accounts : IncreaseLiquidity)
  | increaseLiquidityV2 (args : IncreaseLiquidityV2InstructionArgs) (accounts : IncreaseLiquidityV2)
  | decreaseLiquidity (args : DecreaseLiquidityInstructionArgs) (accounts : DecreaseLiquidity)
  | decreaseLiquidityV2 (args : DecreaseLiquidityV2InstructionArgs) (accounts : DecreaseLiquidityV2)
  | swap (args : SwapInstructionArgs) (accounts : Swap)
  | swapV2 (args : SwapV2InstructionArgs) (accounts : SwapV2)
  | unknown (discriminator : Bytes)
  deriving DecidableEq, Repr

/-- The arguments and the accounts that follow a discriminator. -/
def readOrca (discriminator rest : Bytes) : Windowed ParsedOrcaInstruction :=
  if discriminator = orcaSwapDisc then do
    let args ← decodeArgs SwapInstructionArgs.codec rest
    let accounts ← Swap.read
    pure (.swap args accounts)
  else if discriminator = orcaSwapV2Disc then do
    let args ← decodeArgs SwapV2InstructionArgs.codec rest
    let accounts ← SwapV2.read
    pure (.swapV2 args accounts)
  else if discriminator = orcaInitializePoolDisc then do
    let args ← decodeArgs InitializePoolInstructionArgs.codec rest
    let accounts ← InitializePool.read
    pure (.initializePool args accounts)
  else if discriminator = orcaInitializePoolV2Disc then do
    let args ← decodeArgs InitializePoolV2InstructionArgs.codec rest
    let accounts ← InitializePoolV2.read
    pure (.initializePoolV2 args accounts)
  else if discriminator = orcaIncreaseLiquidityDisc then do
    let args ← decodeArgs IncreaseLiquidityInstructionArgs.codec rest
    let accounts ← IncreaseLiquidity.read
    pure (.increaseLiquidity args accounts)
  else if discriminator = orcaIncreaseLiquidityV2Disc then do
    let args ← decodeArgs IncreaseLiquidityV2InstructionArgs.codec rest
    let accounts ← IncreaseLiquidityV2.read
    pure (.increaseLiquidityV2 args accounts)
  else if discriminator = orcaDecreaseLiquidityDisc then do
    let args ← decodeArgs DecreaseLiquidityInstructionArgs.codec rest
    let accounts ← DecreaseLiquidity.read
    pure (.decreaseLiquidity args accounts)
  else if discriminator = orcaDecreaseLiquidityV2Disc then do
    let args ← decodeArgs DecreaseLiquidityV2InstructionArgs.codec rest
    let accounts ← DecreaseLiquidityV2.read
    pure (.decreaseLiquidityV2 args accounts)
  else pure (.unknown discriminator)

/-- `decode_orca_instruction` -/
def decodeOrcaInstruction : CompiledInstruction → List Pubkey → Parsed ParsedOrcaInstruction :=
  decodeWith readOrca

namespace ParsedOrcaInstruction

/-- The discriminator of an instruction. -/
def discriminator : ParsedOrcaInstruction → Bytes
  | .initializePool _ _ => orcaInitializePoolDisc
  | .initializePoolV2 _ _ => orcaInitializePoolV2Disc
  | .increaseLiquidity _ _ => orcaIncreaseLiquidityDisc
  | .increaseLiquidityV2 _ _ => orcaIncreaseLiquidityV2Disc
  | .decreaseLiquidity _ _ => orcaDecreaseLiquidityDisc
  | .decreaseLiquidityV2 _ _ => orcaDecreaseLiquidityV2Disc
  | .swap _ _ => orcaSwapDisc
  | .swapV2 _ _ => orcaSwapV2Disc
  | .unknown discriminator => discriminator

/-- The arguments in Borsh. -/
def serializeArgs : ParsedOrcaInstruction → Bytes
  | .initializePool args _ => InitializePoolInstructionArgs.codec.encode args
  | .initializePoolV2 args _ => InitializePoolV2InstructionArgs.codec.encode args
  | .increaseLiquidity args _ => IncreaseLiquidityInstructionArgs.codec.encode args
  | .increaseLiquidityV2 args _ => IncreaseLiquidityV2InstructionArgs.codec.encode args
  | .decreaseLiquidity args _ => DecreaseLiquidityInstructionArgs.codec.encode args
  | .decreaseLiquidityV2 args _ => DecreaseLiquidityV2InstructionArgs.codec.encode args
  | .swap args _ => SwapInstructionArgs.codec.encode args
  | .swapV2 args _ => SwapV2InstructionArgs.codec.encode args
  | .unknown _ => []

/-- The accounts that an instruction starts with. -/
def accountMetas : ParsedOrcaInstruction → List AccountMeta
  | .initializePool _ accounts => accounts.accountMetas
  | .initializePoolV2 _ accounts => accounts.accountMetas
  | .increaseLiquidity _ accounts => accounts.accountMetas
  | .increaseLiquidityV2 _ accounts => accounts.accountMetas
  | .decreaseLiquidity _ accounts => accounts.accountMetas
  | .decreaseLiquidityV2 _ accounts => accounts.accountMetas
  | .swap _ accounts => accounts.accountMetas
  | .swapV2 _ accounts => accounts.accountMetas
  | .unknown _ => []

/-- The arguments can be written, and an unknown instruction is none of the known ones. -/
def WellFormed : ParsedOrcaInstruction → Prop
  | .initializePool _ _ => True
  | .initializePoolV2 _ _ => True
  | .increaseLiquidity _ _ => True
  | .increaseLiquidityV2 args _ => FitsInfo args.remainingAccountsInfo
  | .decreaseLiquidity _ _ => True
  | .decreaseLiquidityV2 args _ => FitsInfo args.remainingAccountsInfo
  | .swap _ _ => True
  | .swapV2 args _ => FitsInfo args.remainingAccountsInfo
  | .unknown discriminator => discriminator.length = 8 ∧ discriminator ∉ orcaDiscs

/-- `ParsedOrcaInstruction::get_pool_state` -/
def getPoolState : ParsedOrcaInstruction → Option Pubkey
  | .initializePool _ accounts => some accounts.whirlpool
  | .initializePoolV2 _ accounts => some accounts.whirlpool
  | .increaseLiquidity _ accounts => some accounts.whirlpool
  | .increaseLiquidityV2 _ accounts => some accounts.whirlpool
  | .decreaseLiquidity _ accounts => some accounts.whirlpool
  | .decreaseLiquidityV2 _ accounts => some accounts.whirlpool
  | .swap _ accounts => some accounts.whirlpool
  | .swapV2 _ accounts => some accounts.whirlpool
  | .unknown _ => none

/-- How the generated client builds the instructions. -/
def instructions : InstructionSet ParsedOrcaInstruction where
  discriminator := discriminator
  serializeArgs := serializeArgs
  accountMetas _ := accountMetas
  WellFormed _ := WellFormed
  length_discriminator {_ instruction} h := by
    cases instruction with
    | unknown discriminator => exact h.1
    | _ => rfl

/-! ## Reading -/

variable {instruction : ParsedOrcaInstruction}

theorem nodup_orcaDiscs : orcaDiscs.Nodup := by decide

/-- A known discriminator tells the kind of an instruction. -/
theorem ctorIdx_eq (h : instruction.WellFormed) (i : ℕ) {discriminator : Bytes}
    (hdiscriminator : instruction.discriminator = discriminator)
    (hi : orcaDiscs[i]? = some discriminator) : instruction.ctorIdx = i := by
  subst hdiscriminator
  have hlt := (List.getElem?_eq_some_iff.mp hi).1
  refine ((List.getElem?_inj hlt nodup_orcaDiscs).mp (hi.trans ?_)).symm
  cases instruction with
  | unknown discriminator => exact absurd (List.mem_of_getElem? hi) h.2
  | _ => rfl

/-- The parser reads what the client builds. -/
theorem instructions_readBy : instructions.ReadBy readOrca := by
  intro discriminator rest hlength
  unfold readOrca
  split_ifs with h₁ h₂ h₃ h₄ h₅ h₆ h₇ h₈
  · refine InstructionSet.denotes_required_branch rest Swap.read_denotes
      (fun _ _ => ⟨h₁.symm, rfl⟩) (fun _ _ _ => rfl)
      (fun _ _ _ => (iff_true_intro (SwapInstructionArgs.codec_valid _)).symm)
      fun _ instruction hwell hdiscriminator => ?_
    have hkind := ctorIdx_eq hwell 6 (hdiscriminator.trans h₁) rfl
    cases instruction with
    | swap args accounts => exact ⟨args, accounts, rfl⟩
    | _ => cases hkind
  · refine InstructionSet.denotes_required_branch rest SwapV2.read_denotes
      (fun _ _ => ⟨h₂.symm, rfl⟩) (fun _ _ _ => rfl)
      (fun _ _ _ => SwapV2InstructionArgs.codec_valid_iff.symm)
      fun _ instruction hwell hdiscriminator => ?_
    have hkind := ctorIdx_eq hwell 7 (hdiscriminator.trans h₂) rfl
    cases instruction with
    | swapV2 args accounts => exact ⟨args, accounts, rfl⟩
    | _ => cases hkind
  · refine InstructionSet.denotes_required_branch rest InitializePool.read_denotes
      (fun _ _ => ⟨h₃.symm, rfl⟩) (fun _ _ _ => rfl)
      (fun _ _ _ => (iff_true_intro (InitializePoolInstructionArgs.codec_valid _)).symm)
      fun _ instruction hwell hdiscriminator => ?_
    have hkind := ctorIdx_eq hwell 0 (hdiscriminator.trans h₃) rfl
    cases instruction with
    | initializePool args accounts => exact ⟨args, accounts, rfl⟩
    | _ => cases hkind
  · refine InstructionSet.denotes_required_branch rest InitializePoolV2.read_denotes
      (fun _ _ => ⟨h₄.symm, rfl⟩) (fun _ _ _ => rfl)
      (fun _ _ _ => (iff_true_intro (InitializePoolV2InstructionArgs.codec_valid _)).symm)
      fun _ instruction hwell hdiscriminator => ?_
    have hkind := ctorIdx_eq hwell 1 (hdiscriminator.trans h₄) rfl
    cases instruction with
    | initializePoolV2 args accounts => exact ⟨args, accounts, rfl⟩
    | _ => cases hkind
  · refine InstructionSet.denotes_required_branch rest IncreaseLiquidity.read_denotes
      (fun _ _ => ⟨h₅.symm, rfl⟩) (fun _ _ _ => rfl)
      (fun _ _ _ => (iff_true_intro (IncreaseLiquidityInstructionArgs.codec_valid _)).symm)
      fun _ instruction hwell hdiscriminator => ?_
    have hkind := ctorIdx_eq hwell 2 (hdiscriminator.trans h₅) rfl
    cases instruction with
    | increaseLiquidity args accounts => exact ⟨args, accounts, rfl⟩
    | _ => cases hkind
  · refine InstructionSet.denotes_required_branch rest IncreaseLiquidityV2.read_denotes
      (fun _ _ => ⟨h₆.symm, rfl⟩) (fun _ _ _ => rfl)
      (fun _ _ _ => IncreaseLiquidityV2InstructionArgs.codec_valid_iff.symm)
      fun _ instruction hwell hdiscriminator => ?_
    have hkind := ctorIdx_eq hwell 3 (hdiscriminator.trans h₆) rfl
    cases instruction with
    | increaseLiquidityV2 args accounts => exact ⟨args, accounts, rfl⟩
    | _ => cases hkind
  · refine InstructionSet.denotes_required_branch rest DecreaseLiquidity.read_denotes
      (fun _ _ => ⟨h₇.symm, rfl⟩) (fun _ _ _ => rfl)
      (fun _ _ _ => (iff_true_intro (DecreaseLiquidityInstructionArgs.codec_valid _)).symm)
      fun _ instruction hwell hdiscriminator => ?_
    have hkind := ctorIdx_eq hwell 4 (hdiscriminator.trans h₇) rfl
    cases instruction with
    | decreaseLiquidity args accounts => exact ⟨args, accounts, rfl⟩
    | _ => cases hkind
  · refine InstructionSet.denotes_required_branch rest DecreaseLiquidityV2.read_denotes
      (fun _ _ => ⟨h₈.symm, rfl⟩) (fun _ _ _ => rfl)
      (fun _ _ _ => DecreaseLiquidityV2InstructionArgs.codec_valid_iff.symm)
      fun _ instruction hwell hdiscriminator => ?_
    have hkind := ctorIdx_eq hwell 5 (hdiscriminator.trans h₈) rfl
    cases instruction with
    | decreaseLiquidityV2 args accounts => exact ⟨args, accounts, rfl⟩
    | _ => cases hkind
  · have hunknown : discriminator ∉ orcaDiscs := by simp [orcaDiscs, *]
    refine .congr (.pure _) fun program keys instruction => ?_
    constructor
    · rintro ⟨rfl, rfl⟩
      exact ⟨⟨hlength, hunknown⟩, rfl, List.nil_prefix, rfl⟩
    · rintro ⟨-, rfl, -, rfl⟩
      cases instruction with
      | unknown discriminator => exact ⟨rfl, rfl⟩
      | _ =>
        refine absurd ?_ hunknown
        simp [instructions, ParsedOrcaInstruction.discriminator, orcaDiscs]

/-- The parser finds exactly the instructions that the client would have built with these bytes and
these accounts first. -/
theorem decodeOrcaInstruction_eq_ok_iff {compiled : CompiledInstruction} {table : List Pubkey} :
    decodeOrcaInstruction compiled table = .ok instruction ↔
      ∃ program, instruction.WellFormed ∧
        (instructions.instruction program instruction []).Begins table compiled :=
  InstructionSet.decodeWith_eq_ok_iff_begins instructions_readBy

/-- The pool of an instruction is one of its accounts, and the pool is written. -/
theorem new_mem_accountMetas_of_getPoolState {pool : Pubkey}
    (h : instruction.getPoolState = some pool) :
    .new pool false ∈ instruction.accountMetas := by
  cases instruction with
  | unknown discriminator => cases h
  | _ =>
    cases h
    simp [accountMetas, InitializePool.accountMetas, InitializePoolV2.accountMetas,
      IncreaseLiquidity.accountMetas, IncreaseLiquidityV2.accountMetas,
      DecreaseLiquidity.accountMetas, DecreaseLiquidityV2.accountMetas, Swap.accountMetas,
      SwapV2.accountMetas]

end ParsedOrcaInstruction

end Biscuit.Parser.Orca
