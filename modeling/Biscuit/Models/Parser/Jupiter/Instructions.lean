import Biscuit.Models.Parser.Windows
import Biscuit.Models.Parser.Jupiter.Arguments

/-!
# Jupiter instructions

The instructions of the aggregator as the generated client builds them and as the parser reads
them back from a message.
-/

namespace Biscuit.Parser.Jupiter

/-! ## Discriminators -/

/-- `JUPITER_EXACT_OUT_ROUTE_DISC` -/
def jupiterExactOutRouteDisc : Bytes := [208, 51, 239, 151, 123, 43, 237, 92]

/-- `JUPITER_ROUTE_WITH_TOKEN_LEDGER_DISC` -/
def jupiterRouteWithTokenLedgerDisc : Bytes := [150, 86, 71, 116, 167, 93, 14, 104]

/-- `JUPITER_ROUTE_DISC` -/
def jupiterRouteDisc : Bytes := [229, 23, 203, 151, 122, 227, 173, 42]

/-- `JUPITER_SHARED_ACCOUNTS_EXACT_OUT_ROUTE_DISC` -/
def jupiterSharedAccountsExactOutRouteDisc : Bytes := [176, 209, 105, 168, 154, 125, 69, 62]

/-- `JUPITER_SHARED_ACCOUNTS_ROUTE_DISC` -/
def jupiterSharedAccountsRouteDisc : Bytes := [193, 32, 155, 51, 65, 214, 156, 129]

/-- `JUPITER_SHARED_ACCOUNTS_ROUTE_WITH_TOKEN_LEDGER_DISC` -/
def jupiterSharedAccountsRouteWithTokenLedgerDisc : Bytes := [230, 121, 143, 80, 119, 159, 106, 170]

/-- The discriminators that the parser knows. -/
def jupiterDiscs : List Bytes :=
  [jupiterRouteDisc, jupiterExactOutRouteDisc, jupiterRouteWithTokenLedgerDisc,
    jupiterSharedAccountsExactOutRouteDisc, jupiterSharedAccountsRouteDisc,
    jupiterSharedAccountsRouteWithTokenLedgerDisc]

/-! ## Accounts -/

/-- `Route` -/
structure Route where
  tokenProgram : Pubkey
  userTransferAuthority : Pubkey
  userSourceTokenAccount : Pubkey
  userDestinationTokenAccount : Pubkey
  destinationTokenAccount : Option Pubkey
  destinationMint : Pubkey
  platformFeeAccount : Option Pubkey
  eventAuthority : Pubkey
  program : Pubkey
  deriving DecidableEq, Repr

namespace Route

/-- The accounts as the builder of the instruction lists them. -/
def accountMetas (program : Pubkey) (accounts : Route) : List AccountMeta :=
  [.newReadonly accounts.tokenProgram false, .newReadonly accounts.userTransferAuthority true,
    .new accounts.userSourceTokenAccount false, .new accounts.userDestinationTokenAccount false,
    .orProgram program (.new · false) accounts.destinationTokenAccount,
    .newReadonly accounts.destinationMint false,
    .orProgram program (.new · false) accounts.platformFeeAccount,
    .newReadonly accounts.eventAuthority false, .newReadonly accounts.program false]

/-- The accounts that can be left out. -/
def optional (accounts : Route) : List (Option Pubkey) :=
  [accounts.destinationTokenAccount, accounts.platformFeeAccount]

def read : Windowed Route := do
  let tokenProgram ← nextAccountKey
  let userTransferAuthority ← nextAccountKey
  let userSourceTokenAccount ← nextAccountKey
  let userDestinationTokenAccount ← nextAccountKey
  let destinationTokenAccount ← nextAnchorOptAccountKey
  let destinationMint ← nextAccountKey
  let platformFeeAccount ← nextAnchorOptAccountKey
  let eventAuthority ← nextAccountKey
  let program ← nextAccountKey
  pure ⟨tokenProgram, userTransferAuthority, userSourceTokenAccount, userDestinationTokenAccount,
    destinationTokenAccount, destinationMint, platformFeeAccount, eventAuthority, program⟩

theorem read_denotes : read.Denotes fun program keys accounts =>
    keys = (accounts.accountMetas program).map (·.pubkey) ∧ some program ∉ accounts.optional := by
  refine .congr (.bind_next fun _ => .bind_next fun _ => .bind_next fun _ => .bind_next fun _ =>
    .bind_nextOpt fun _ => .bind_next fun _ => .bind_nextOpt fun _ => .bind_next fun _ =>
    .bind_next fun _ => .pure _) fun program keys accounts => ?_
  simp only [accountMetas, optional, List.map_cons, List.map_nil, AccountMeta.pubkey_new,
    AccountMeta.pubkey_newReadonly, AccountMeta.pubkey_orProgram_new, List.mem_cons,
    List.not_mem_nil, or_false, not_or]
  constructor
  · rintro ⟨_, _, rfl, _, _, rfl, _, _, rfl, _, _, rfl, _, _, h₁, rfl, _, _, rfl, _, _, h₂, rfl,
      _, _, rfl, _, _, rfl, rfl, rfl⟩
    exact ⟨rfl, Ne.symm h₁, Ne.symm h₂⟩
  · rintro ⟨rfl, h₁, h₂⟩
    exact ⟨_, _, rfl, _, _, rfl, _, _, rfl, _, _, rfl, _, _, Ne.symm h₁, rfl, _, _, rfl,
      _, _, Ne.symm h₂, rfl, _, _, rfl, _, _, rfl, rfl, rfl⟩

end Route

/-- `ExactOutRoute` -/
structure ExactOutRoute where
  tokenProgram : Pubkey
  userTransferAuthority : Pubkey
  userSourceTokenAccount : Pubkey
  userDestinationTokenAccount : Pubkey
  destinationTokenAccount : Option Pubkey
  sourceMint : Pubkey
  destinationMint : Pubkey
  platformFeeAccount : Option Pubkey
  token2022Program : Option Pubkey
  eventAuthority : Pubkey
  program : Pubkey
  deriving DecidableEq, Repr

namespace ExactOutRoute

/-- The accounts as the builder of the instruction lists them. -/
def accountMetas (program : Pubkey) (accounts : ExactOutRoute) : List AccountMeta :=
  [.newReadonly accounts.tokenProgram false, .newReadonly accounts.userTransferAuthority true,
    .new accounts.userSourceTokenAccount false, .new accounts.userDestinationTokenAccount false,
    .orProgram program (.new · false) accounts.destinationTokenAccount,
    .newReadonly accounts.sourceMint false, .newReadonly accounts.destinationMint false,
    .orProgram program (.new · false) accounts.platformFeeAccount,
    .orProgram program (.newReadonly · false) accounts.token2022Program,
    .newReadonly accounts.eventAuthority false, .newReadonly accounts.program false]

/-- The accounts that can be left out. -/
def optional (accounts : ExactOutRoute) : List (Option Pubkey) :=
  [accounts.destinationTokenAccount, accounts.platformFeeAccount, accounts.token2022Program]

def read : Windowed ExactOutRoute := do
  let tokenProgram ← nextAccountKey
  let userTransferAuthority ← nextAccountKey
  let userSourceTokenAccount ← nextAccountKey
  let userDestinationTokenAccount ← nextAccountKey
  let destinationTokenAccount ← nextAnchorOptAccountKey
  let sourceMint ← nextAccountKey
  let destinationMint ← nextAccountKey
  let platformFeeAccount ← nextAnchorOptAccountKey
  let token2022Program ← nextAnchorOptAccountKey
  let eventAuthority ← nextAccountKey
  let program ← nextAccountKey
  pure ⟨tokenProgram, userTransferAuthority, userSourceTokenAccount, userDestinationTokenAccount,
    destinationTokenAccount, sourceMint, destinationMint, platformFeeAccount, token2022Program,
    eventAuthority, program⟩

theorem read_denotes : read.Denotes fun program keys accounts =>
    keys = (accounts.accountMetas program).map (·.pubkey) ∧ some program ∉ accounts.optional := by
  refine .congr (.bind_next fun _ => .bind_next fun _ => .bind_next fun _ => .bind_next fun _ =>
    .bind_nextOpt fun _ => .bind_next fun _ => .bind_next fun _ => .bind_nextOpt fun _ =>
    .bind_nextOpt fun _ => .bind_next fun _ => .bind_next fun _ =>
    .pure _) fun program keys accounts => ?_
  simp only [accountMetas, optional, List.map_cons, List.map_nil, AccountMeta.pubkey_new,
    AccountMeta.pubkey_newReadonly, AccountMeta.pubkey_orProgram_new,
    AccountMeta.pubkey_orProgram_newReadonly, List.mem_cons, List.not_mem_nil, or_false, not_or]
  constructor
  · rintro ⟨_, _, rfl, _, _, rfl, _, _, rfl, _, _, rfl, _, _, h₁, rfl, _, _, rfl, _, _, rfl,
      _, _, h₂, rfl, _, _, h₃, rfl, _, _, rfl, _, _, rfl, rfl, rfl⟩
    exact ⟨rfl, Ne.symm h₁, Ne.symm h₂, Ne.symm h₃⟩
  · rintro ⟨rfl, h₁, h₂, h₃⟩
    exact ⟨_, _, rfl, _, _, rfl, _, _, rfl, _, _, rfl, _, _, Ne.symm h₁, rfl, _, _, rfl, _, _, rfl,
      _, _, Ne.symm h₂, rfl, _, _, Ne.symm h₃, rfl, _, _, rfl, _, _, rfl, rfl, rfl⟩

end ExactOutRoute

/-- `RouteWithTokenLedger` -/
structure RouteWithTokenLedger where
  tokenProgram : Pubkey
  userTransferAuthority : Pubkey
  userSourceTokenAccount : Pubkey
  userDestinationTokenAccount : Pubkey
  destinationTokenAccount : Option Pubkey
  destinationMint : Pubkey
  platformFeeAccount : Option Pubkey
  tokenLedger : Pubkey
  eventAuthority : Pubkey
  program : Pubkey
  deriving DecidableEq, Repr

namespace RouteWithTokenLedger

/-- The accounts as the builder of the instruction lists them. -/
def accountMetas (program : Pubkey) (accounts : RouteWithTokenLedger) : List AccountMeta :=
  [.newReadonly accounts.tokenProgram false, .newReadonly accounts.userTransferAuthority true,
    .new accounts.userSourceTokenAccount false, .new accounts.userDestinationTokenAccount false,
    .orProgram program (.new · false) accounts.destinationTokenAccount,
    .newReadonly accounts.destinationMint false,
    .orProgram program (.new · false) accounts.platformFeeAccount,
    .newReadonly accounts.tokenLedger false, .newReadonly accounts.eventAuthority false,
    .newReadonly accounts.program false]

/-- The accounts that can be left out. -/
def optional (accounts : RouteWithTokenLedger) : List (Option Pubkey) :=
  [accounts.destinationTokenAccount, accounts.platformFeeAccount]

def read : Windowed RouteWithTokenLedger := do
  let tokenProgram ← nextAccountKey
  let userTransferAuthority ← nextAccountKey
  let userSourceTokenAccount ← nextAccountKey
  let userDestinationTokenAccount ← nextAccountKey
  let destinationTokenAccount ← nextAnchorOptAccountKey
  let destinationMint ← nextAccountKey
  let platformFeeAccount ← nextAnchorOptAccountKey
  let tokenLedger ← nextAccountKey
  let eventAuthority ← nextAccountKey
  let program ← nextAccountKey
  pure ⟨tokenProgram, userTransferAuthority, userSourceTokenAccount, userDestinationTokenAccount,
    destinationTokenAccount, destinationMint, platformFeeAccount, tokenLedger, eventAuthority,
    program⟩

theorem read_denotes : read.Denotes fun program keys accounts =>
    keys = (accounts.accountMetas program).map (·.pubkey) ∧ some program ∉ accounts.optional := by
  refine .congr (.bind_next fun _ => .bind_next fun _ => .bind_next fun _ => .bind_next fun _ =>
    .bind_nextOpt fun _ => .bind_next fun _ => .bind_nextOpt fun _ => .bind_next fun _ =>
    .bind_next fun _ => .bind_next fun _ => .pure _) fun program keys accounts => ?_
  simp only [accountMetas, optional, List.map_cons, List.map_nil, AccountMeta.pubkey_new,
    AccountMeta.pubkey_newReadonly, AccountMeta.pubkey_orProgram_new, List.mem_cons,
    List.not_mem_nil, or_false, not_or]
  constructor
  · rintro ⟨_, _, rfl, _, _, rfl, _, _, rfl, _, _, rfl, _, _, h₁, rfl, _, _, rfl, _, _, h₂, rfl,
      _, _, rfl, _, _, rfl, _, _, rfl, rfl, rfl⟩
    exact ⟨rfl, Ne.symm h₁, Ne.symm h₂⟩
  · rintro ⟨rfl, h₁, h₂⟩
    exact ⟨_, _, rfl, _, _, rfl, _, _, rfl, _, _, rfl, _, _, Ne.symm h₁, rfl, _, _, rfl,
      _, _, Ne.symm h₂, rfl, _, _, rfl, _, _, rfl, _, _, rfl, rfl, rfl⟩

end RouteWithTokenLedger

/-- `SharedAccountsExactOutRoute` -/
structure SharedAccountsExactOutRoute where
  tokenProgram : Pubkey
  programAuthority : Pubkey
  userTransferAuthority : Pubkey
  sourceTokenAccount : Pubkey
  programSourceTokenAccount : Pubkey
  programDestinationTokenAccount : Pubkey
  destinationTokenAccount : Pubkey
  sourceMint : Pubkey
  destinationMint : Pubkey
  platformFeeAccount : Option Pubkey
  token2022Program : Option Pubkey
  eventAuthority : Pubkey
  program : Pubkey
  deriving DecidableEq, Repr

namespace SharedAccountsExactOutRoute

/-- The accounts as the builder of the instruction lists them. -/
def accountMetas (program : Pubkey) (accounts : SharedAccountsExactOutRoute) : List AccountMeta :=
  [.newReadonly accounts.tokenProgram false, .newReadonly accounts.programAuthority false,
    .newReadonly accounts.userTransferAuthority true, .new accounts.sourceTokenAccount false,
    .new accounts.programSourceTokenAccount false,
    .new accounts.programDestinationTokenAccount false,
    .new accounts.destinationTokenAccount false, .newReadonly accounts.sourceMint false,
    .newReadonly accounts.destinationMint false,
    .orProgram program (.new · false) accounts.platformFeeAccount,
    .orProgram program (.newReadonly · false) accounts.token2022Program,
    .newReadonly accounts.eventAuthority false, .newReadonly accounts.program false]

/-- The accounts that can be left out. -/
def optional (accounts : SharedAccountsExactOutRoute) : List (Option Pubkey) :=
  [accounts.platformFeeAccount, accounts.token2022Program]

def read : Windowed SharedAccountsExactOutRoute := do
  let tokenProgram ← nextAccountKey
  let programAuthority ← nextAccountKey
  let userTransferAuthority ← nextAccountKey
  let sourceTokenAccount ← nextAccountKey
  let programSourceTokenAccount ← nextAccountKey
  let programDestinationTokenAccount ← nextAccountKey
  let destinationTokenAccount ← nextAccountKey
  let sourceMint ← nextAccountKey
  let destinationMint ← nextAccountKey
  let platformFeeAccount ← nextAnchorOptAccountKey
  let token2022Program ← nextAnchorOptAccountKey
  let eventAuthority ← nextAccountKey
  let program ← nextAccountKey
  pure ⟨tokenProgram, programAuthority, userTransferAuthority, sourceTokenAccount,
    programSourceTokenAccount, programDestinationTokenAccount, destinationTokenAccount, sourceMint,
    destinationMint, platformFeeAccount, token2022Program, eventAuthority, program⟩

theorem read_denotes : read.Denotes fun program keys accounts =>
    keys = (accounts.accountMetas program).map (·.pubkey) ∧ some program ∉ accounts.optional := by
  refine .congr (.bind_next fun _ => .bind_next fun _ => .bind_next fun _ => .bind_next fun _ =>
    .bind_next fun _ => .bind_next fun _ => .bind_next fun _ => .bind_next fun _ =>
    .bind_next fun _ => .bind_nextOpt fun _ => .bind_nextOpt fun _ => .bind_next fun _ =>
    .bind_next fun _ => .pure _) fun program keys accounts => ?_
  simp only [accountMetas, optional, List.map_cons, List.map_nil, AccountMeta.pubkey_new,
    AccountMeta.pubkey_newReadonly, AccountMeta.pubkey_orProgram_new,
    AccountMeta.pubkey_orProgram_newReadonly, List.mem_cons, List.not_mem_nil, or_false, not_or]
  constructor
  · rintro ⟨_, _, rfl, _, _, rfl, _, _, rfl, _, _, rfl, _, _, rfl, _, _, rfl, _, _, rfl, _, _, rfl,
      _, _, rfl, _, _, h₁, rfl, _, _, h₂, rfl, _, _, rfl, _, _, rfl, rfl, rfl⟩
    exact ⟨rfl, Ne.symm h₁, Ne.symm h₂⟩
  · rintro ⟨rfl, h₁, h₂⟩
    exact ⟨_, _, rfl, _, _, rfl, _, _, rfl, _, _, rfl, _, _, rfl, _, _, rfl, _, _, rfl, _, _, rfl,
      _, _, rfl, _, _, Ne.symm h₁, rfl, _, _, Ne.symm h₂, rfl, _, _, rfl, _, _, rfl, rfl, rfl⟩

end SharedAccountsExactOutRoute

/-- `SharedAccountsRoute` -/
structure SharedAccountsRoute where
  tokenProgram : Pubkey
  programAuthority : Pubkey
  userTransferAuthority : Pubkey
  sourceTokenAccount : Pubkey
  programSourceTokenAccount : Pubkey
  programDestinationTokenAccount : Pubkey
  destinationTokenAccount : Pubkey
  sourceMint : Pubkey
  destinationMint : Pubkey
  platformFeeAccount : Option Pubkey
  token2022Program : Option Pubkey
  eventAuthority : Pubkey
  program : Pubkey
  deriving DecidableEq, Repr

namespace SharedAccountsRoute

/-- The accounts as the builder of the instruction lists them. -/
def accountMetas (program : Pubkey) (accounts : SharedAccountsRoute) : List AccountMeta :=
  [.newReadonly accounts.tokenProgram false, .newReadonly accounts.programAuthority false,
    .newReadonly accounts.userTransferAuthority true, .new accounts.sourceTokenAccount false,
    .new accounts.programSourceTokenAccount false,
    .new accounts.programDestinationTokenAccount false,
    .new accounts.destinationTokenAccount false, .newReadonly accounts.sourceMint false,
    .newReadonly accounts.destinationMint false,
    .orProgram program (.new · false) accounts.platformFeeAccount,
    .orProgram program (.newReadonly · false) accounts.token2022Program,
    .newReadonly accounts.eventAuthority false, .newReadonly accounts.program false]

/-- The accounts that can be left out. -/
def optional (accounts : SharedAccountsRoute) : List (Option Pubkey) :=
  [accounts.platformFeeAccount, accounts.token2022Program]

def read : Windowed SharedAccountsRoute := do
  let tokenProgram ← nextAccountKey
  let programAuthority ← nextAccountKey
  let userTransferAuthority ← nextAccountKey
  let sourceTokenAccount ← nextAccountKey
  let programSourceTokenAccount ← nextAccountKey
  let programDestinationTokenAccount ← nextAccountKey
  let destinationTokenAccount ← nextAccountKey
  let sourceMint ← nextAccountKey
  let destinationMint ← nextAccountKey
  let platformFeeAccount ← nextAnchorOptAccountKey
  let token2022Program ← nextAnchorOptAccountKey
  let eventAuthority ← nextAccountKey
  let program ← nextAccountKey
  pure ⟨tokenProgram, programAuthority, userTransferAuthority, sourceTokenAccount,
    programSourceTokenAccount, programDestinationTokenAccount, destinationTokenAccount, sourceMint,
    destinationMint, platformFeeAccount, token2022Program, eventAuthority, program⟩

theorem read_denotes : read.Denotes fun program keys accounts =>
    keys = (accounts.accountMetas program).map (·.pubkey) ∧ some program ∉ accounts.optional := by
  refine .congr (.bind_next fun _ => .bind_next fun _ => .bind_next fun _ => .bind_next fun _ =>
    .bind_next fun _ => .bind_next fun _ => .bind_next fun _ => .bind_next fun _ =>
    .bind_next fun _ => .bind_nextOpt fun _ => .bind_nextOpt fun _ => .bind_next fun _ =>
    .bind_next fun _ => .pure _) fun program keys accounts => ?_
  simp only [accountMetas, optional, List.map_cons, List.map_nil, AccountMeta.pubkey_new,
    AccountMeta.pubkey_newReadonly, AccountMeta.pubkey_orProgram_new,
    AccountMeta.pubkey_orProgram_newReadonly, List.mem_cons, List.not_mem_nil, or_false, not_or]
  constructor
  · rintro ⟨_, _, rfl, _, _, rfl, _, _, rfl, _, _, rfl, _, _, rfl, _, _, rfl, _, _, rfl, _, _, rfl,
      _, _, rfl, _, _, h₁, rfl, _, _, h₂, rfl, _, _, rfl, _, _, rfl, rfl, rfl⟩
    exact ⟨rfl, Ne.symm h₁, Ne.symm h₂⟩
  · rintro ⟨rfl, h₁, h₂⟩
    exact ⟨_, _, rfl, _, _, rfl, _, _, rfl, _, _, rfl, _, _, rfl, _, _, rfl, _, _, rfl, _, _, rfl,
      _, _, rfl, _, _, Ne.symm h₁, rfl, _, _, Ne.symm h₂, rfl, _, _, rfl, _, _, rfl, rfl, rfl⟩

end SharedAccountsRoute

/-- `SharedAccountsRouteWithTokenLedger` -/
structure SharedAccountsRouteWithTokenLedger where
  tokenProgram : Pubkey
  programAuthority : Pubkey
  userTransferAuthority : Pubkey
  sourceTokenAccount : Pubkey
  programSourceTokenAccount : Pubkey
  programDestinationTokenAccount : Pubkey
  destinationTokenAccount : Pubkey
  sourceMint : Pubkey
  destinationMint : Pubkey
  platformFeeAccount : Option Pubkey
  token2022Program : Option Pubkey
  tokenLedger : Pubkey
  eventAuthority : Pubkey
  program : Pubkey
  deriving DecidableEq, Repr

namespace SharedAccountsRouteWithTokenLedger

/-- The accounts as the builder of the instruction lists them. -/
def accountMetas (program : Pubkey) (accounts : SharedAccountsRouteWithTokenLedger) :
    List AccountMeta :=
  [.newReadonly accounts.tokenProgram false, .newReadonly accounts.programAuthority false,
    .newReadonly accounts.userTransferAuthority true, .new accounts.sourceTokenAccount false,
    .new accounts.programSourceTokenAccount false,
    .new accounts.programDestinationTokenAccount false,
    .new accounts.destinationTokenAccount false, .newReadonly accounts.sourceMint false,
    .newReadonly accounts.destinationMint false,
    .orProgram program (.new · false) accounts.platformFeeAccount,
    .orProgram program (.newReadonly · false) accounts.token2022Program,
    .newReadonly accounts.tokenLedger false, .newReadonly accounts.eventAuthority false,
    .newReadonly accounts.program false]

/-- The accounts that can be left out. -/
def optional (accounts : SharedAccountsRouteWithTokenLedger) : List (Option Pubkey) :=
  [accounts.platformFeeAccount, accounts.token2022Program]

def read : Windowed SharedAccountsRouteWithTokenLedger := do
  let tokenProgram ← nextAccountKey
  let programAuthority ← nextAccountKey
  let userTransferAuthority ← nextAccountKey
  let sourceTokenAccount ← nextAccountKey
  let programSourceTokenAccount ← nextAccountKey
  let programDestinationTokenAccount ← nextAccountKey
  let destinationTokenAccount ← nextAccountKey
  let sourceMint ← nextAccountKey
  let destinationMint ← nextAccountKey
  let platformFeeAccount ← nextAnchorOptAccountKey
  let token2022Program ← nextAnchorOptAccountKey
  let tokenLedger ← nextAccountKey
  let eventAuthority ← nextAccountKey
  let program ← nextAccountKey
  pure ⟨tokenProgram, programAuthority, userTransferAuthority, sourceTokenAccount,
    programSourceTokenAccount, programDestinationTokenAccount, destinationTokenAccount, sourceMint,
    destinationMint, platformFeeAccount, token2022Program, tokenLedger, eventAuthority, program⟩

theorem read_denotes : read.Denotes fun program keys accounts =>
    keys = (accounts.accountMetas program).map (·.pubkey) ∧ some program ∉ accounts.optional := by
  refine .congr (.bind_next fun _ => .bind_next fun _ => .bind_next fun _ => .bind_next fun _ =>
    .bind_next fun _ => .bind_next fun _ => .bind_next fun _ => .bind_next fun _ =>
    .bind_next fun _ => .bind_nextOpt fun _ => .bind_nextOpt fun _ => .bind_next fun _ =>
    .bind_next fun _ => .bind_next fun _ => .pure _) fun program keys accounts => ?_
  simp only [accountMetas, optional, List.map_cons, List.map_nil, AccountMeta.pubkey_new,
    AccountMeta.pubkey_newReadonly, AccountMeta.pubkey_orProgram_new,
    AccountMeta.pubkey_orProgram_newReadonly, List.mem_cons, List.not_mem_nil, or_false, not_or]
  constructor
  · rintro ⟨_, _, rfl, _, _, rfl, _, _, rfl, _, _, rfl, _, _, rfl, _, _, rfl, _, _, rfl, _, _, rfl,
      _, _, rfl, _, _, h₁, rfl, _, _, h₂, rfl, _, _, rfl, _, _, rfl, _, _, rfl, rfl, rfl⟩
    exact ⟨rfl, Ne.symm h₁, Ne.symm h₂⟩
  · rintro ⟨rfl, h₁, h₂⟩
    exact ⟨_, _, rfl, _, _, rfl, _, _, rfl, _, _, rfl, _, _, rfl, _, _, rfl, _, _, rfl, _, _, rfl,
      _, _, rfl, _, _, Ne.symm h₁, rfl, _, _, Ne.symm h₂, rfl, _, _, rfl, _, _, rfl, _, _, rfl,
      rfl, rfl⟩

end SharedAccountsRouteWithTokenLedger

/-! ## Instructions -/

/-- `ParsedJupiterInstruction` -/
inductive ParsedJupiterInstruction
  | route (args : RouteInstructionArgs) (accounts : Route)
  | exactOutRoute (args : ExactOutRouteInstructionArgs) (accounts : ExactOutRoute)
  | routeWithTokenLedger (args : RouteWithTokenLedgerInstructionArgs)
    (accounts : RouteWithTokenLedger)
  | sharedAccountsExactOutRoute (args : SharedAccountsExactOutRouteInstructionArgs)
    (accounts : SharedAccountsExactOutRoute)
  | sharedAccountsRoute (args : SharedAccountsRouteInstructionArgs) (accounts : SharedAccountsRoute)
  | sharedAccountsRouteWithTokenLedger (args : SharedAccountsRouteWithTokenLedgerInstructionArgs)
    (accounts : SharedAccountsRouteWithTokenLedger)
  | unknown (discriminator : Bytes)
  deriving DecidableEq, Repr

/-- The arguments and the accounts that follow a discriminator. -/
def readJupiterV6 (discriminator rest : Bytes) : Windowed ParsedJupiterInstruction :=
  if discriminator = jupiterRouteDisc then do
    let args ← decodeArgs RouteInstructionArgs.codec rest
    let accounts ← Route.read
    pure (.route args accounts)
  else if discriminator = jupiterExactOutRouteDisc then do
    let args ← decodeArgs ExactOutRouteInstructionArgs.codec rest
    let accounts ← ExactOutRoute.read
    pure (.exactOutRoute args accounts)
  else if discriminator = jupiterRouteWithTokenLedgerDisc then do
    let args ← decodeArgs RouteWithTokenLedgerInstructionArgs.codec rest
    let accounts ← RouteWithTokenLedger.read
    pure (.routeWithTokenLedger args accounts)
  else if discriminator = jupiterSharedAccountsExactOutRouteDisc then do
    let args ← decodeArgs SharedAccountsExactOutRouteInstructionArgs.codec rest
    let accounts ← SharedAccountsExactOutRoute.read
    pure (.sharedAccountsExactOutRoute args accounts)
  else if discriminator = jupiterSharedAccountsRouteDisc then do
    let args ← decodeArgs SharedAccountsRouteInstructionArgs.codec rest
    let accounts ← SharedAccountsRoute.read
    pure (.sharedAccountsRoute args accounts)
  else if discriminator = jupiterSharedAccountsRouteWithTokenLedgerDisc then do
    let args ← decodeArgs SharedAccountsRouteWithTokenLedgerInstructionArgs.codec rest
    let accounts ← SharedAccountsRouteWithTokenLedger.read
    pure (.sharedAccountsRouteWithTokenLedger args accounts)
  else pure (.unknown discriminator)

/-- `decode_jupiter_v6_instruction` -/
def decodeJupiterV6Instruction : CompiledInstruction → List Pubkey →
    Parsed ParsedJupiterInstruction :=
  decodeWith readJupiterV6

namespace ParsedJupiterInstruction

/-- The discriminator of an instruction. -/
def discriminator : ParsedJupiterInstruction → Bytes
  | .route _ _ => jupiterRouteDisc
  | .exactOutRoute _ _ => jupiterExactOutRouteDisc
  | .routeWithTokenLedger _ _ => jupiterRouteWithTokenLedgerDisc
  | .sharedAccountsExactOutRoute _ _ => jupiterSharedAccountsExactOutRouteDisc
  | .sharedAccountsRoute _ _ => jupiterSharedAccountsRouteDisc
  | .sharedAccountsRouteWithTokenLedger _ _ => jupiterSharedAccountsRouteWithTokenLedgerDisc
  | .unknown discriminator => discriminator

/-- The arguments in Borsh. -/
def serializeArgs : ParsedJupiterInstruction → Bytes
  | .route args _ => RouteInstructionArgs.codec.encode args
  | .exactOutRoute args _ => ExactOutRouteInstructionArgs.codec.encode args
  | .routeWithTokenLedger args _ => RouteWithTokenLedgerInstructionArgs.codec.encode args
  | .sharedAccountsExactOutRoute args _ =>
    SharedAccountsExactOutRouteInstructionArgs.codec.encode args
  | .sharedAccountsRoute args _ => SharedAccountsRouteInstructionArgs.codec.encode args
  | .sharedAccountsRouteWithTokenLedger args _ =>
    SharedAccountsRouteWithTokenLedgerInstructionArgs.codec.encode args
  | .unknown _ => []

/-- The accounts that an instruction starts with. -/
def accountMetas (program : Pubkey) : ParsedJupiterInstruction → List AccountMeta
  | .route _ accounts => accounts.accountMetas program
  | .exactOutRoute _ accounts => accounts.accountMetas program
  | .routeWithTokenLedger _ accounts => accounts.accountMetas program
  | .sharedAccountsExactOutRoute _ accounts => accounts.accountMetas program
  | .sharedAccountsRoute _ accounts => accounts.accountMetas program
  | .sharedAccountsRouteWithTokenLedger _ accounts => accounts.accountMetas program
  | .unknown _ => []

/-- The arguments can be written, the accounts that can be left out are not the program, and an
unknown instruction is none of the known ones. -/
def WellFormed (program : Pubkey) : ParsedJupiterInstruction → Prop
  | .route args accounts => FitsPlan args.routePlan ∧ some program ∉ accounts.optional
  | .exactOutRoute args accounts => FitsPlan args.routePlan ∧ some program ∉ accounts.optional
  | .routeWithTokenLedger args accounts =>
    FitsPlan args.routePlan ∧ some program ∉ accounts.optional
  | .sharedAccountsExactOutRoute args accounts =>
    FitsPlan args.routePlan ∧ some program ∉ accounts.optional
  | .sharedAccountsRoute args accounts => FitsPlan args.routePlan ∧ some program ∉ accounts.optional
  | .sharedAccountsRouteWithTokenLedger args accounts =>
    FitsPlan args.routePlan ∧ some program ∉ accounts.optional
  | .unknown discriminator => discriminator.length = 8 ∧ discriminator ∉ jupiterDiscs

/-- How the generated client builds the instructions. -/
def instructions : InstructionSet ParsedJupiterInstruction where
  discriminator := discriminator
  serializeArgs := serializeArgs
  accountMetas := accountMetas
  WellFormed := WellFormed
  length_discriminator {_ instruction} h := by
    cases instruction with
    | unknown discriminator => exact h.1
    | _ => rfl

/-! ## Reading -/

variable {program : Pubkey} {instruction : ParsedJupiterInstruction}

theorem nodup_jupiterDiscs : jupiterDiscs.Nodup := by decide

/-- A known discriminator tells the kind of an instruction. -/
theorem ctorIdx_eq (h : instruction.WellFormed program) (i : ℕ) {discriminator : Bytes}
    (hdiscriminator : instruction.discriminator = discriminator)
    (hi : jupiterDiscs[i]? = some discriminator) : instruction.ctorIdx = i := by
  subst hdiscriminator
  have hlt := (List.getElem?_eq_some_iff.mp hi).1
  refine ((List.getElem?_inj hlt nodup_jupiterDiscs).mp (hi.trans ?_)).symm
  cases instruction with
  | unknown discriminator => exact absurd (List.mem_of_getElem? hi) h.2
  | _ => rfl

/-- The parser reads what the client builds. -/
theorem instructions_readBy : instructions.ReadBy readJupiterV6 := by
  intro discriminator rest hlength
  unfold readJupiterV6
  split_ifs with h₁ h₂ h₃ h₄ h₅ h₆
  · refine InstructionSet.denotes_branch rest Route.read_denotes
      (fun _ _ => ⟨h₁.symm, rfl⟩) (fun _ _ _ => rfl)
      (fun _ _ _ => and_congr_left' RouteInstructionArgs.codec_valid_iff.symm)
      fun program instruction hwell hdiscriminator => ?_
    have hkind := ctorIdx_eq hwell 0 (hdiscriminator.trans h₁) rfl
    cases instruction with
    | route args accounts => exact ⟨args, accounts, rfl⟩
    | _ => cases hkind
  · refine InstructionSet.denotes_branch rest ExactOutRoute.read_denotes
      (fun _ _ => ⟨h₂.symm, rfl⟩) (fun _ _ _ => rfl)
      (fun _ _ _ => and_congr_left' ExactOutRouteInstructionArgs.codec_valid_iff.symm)
      fun program instruction hwell hdiscriminator => ?_
    have hkind := ctorIdx_eq hwell 1 (hdiscriminator.trans h₂) rfl
    cases instruction with
    | exactOutRoute args accounts => exact ⟨args, accounts, rfl⟩
    | _ => cases hkind
  · refine InstructionSet.denotes_branch rest RouteWithTokenLedger.read_denotes
      (fun _ _ => ⟨h₃.symm, rfl⟩) (fun _ _ _ => rfl)
      (fun _ _ _ => and_congr_left' RouteWithTokenLedgerInstructionArgs.codec_valid_iff.symm)
      fun program instruction hwell hdiscriminator => ?_
    have hkind := ctorIdx_eq hwell 2 (hdiscriminator.trans h₃) rfl
    cases instruction with
    | routeWithTokenLedger args accounts => exact ⟨args, accounts, rfl⟩
    | _ => cases hkind
  · refine InstructionSet.denotes_branch rest SharedAccountsExactOutRoute.read_denotes
      (fun _ _ => ⟨h₄.symm, rfl⟩) (fun _ _ _ => rfl)
      (fun _ _ _ => and_congr_left'
        SharedAccountsExactOutRouteInstructionArgs.codec_valid_iff.symm)
      fun program instruction hwell hdiscriminator => ?_
    have hkind := ctorIdx_eq hwell 3 (hdiscriminator.trans h₄) rfl
    cases instruction with
    | sharedAccountsExactOutRoute args accounts => exact ⟨args, accounts, rfl⟩
    | _ => cases hkind
  · refine InstructionSet.denotes_branch rest SharedAccountsRoute.read_denotes
      (fun _ _ => ⟨h₅.symm, rfl⟩) (fun _ _ _ => rfl)
      (fun _ _ _ => and_congr_left' SharedAccountsRouteInstructionArgs.codec_valid_iff.symm)
      fun program instruction hwell hdiscriminator => ?_
    have hkind := ctorIdx_eq hwell 4 (hdiscriminator.trans h₅) rfl
    cases instruction with
    | sharedAccountsRoute args accounts => exact ⟨args, accounts, rfl⟩
    | _ => cases hkind
  · refine InstructionSet.denotes_branch rest SharedAccountsRouteWithTokenLedger.read_denotes
      (fun _ _ => ⟨h₆.symm, rfl⟩) (fun _ _ _ => rfl)
      (fun _ _ _ => and_congr_left'
        SharedAccountsRouteWithTokenLedgerInstructionArgs.codec_valid_iff.symm)
      fun program instruction hwell hdiscriminator => ?_
    have hkind := ctorIdx_eq hwell 5 (hdiscriminator.trans h₆) rfl
    cases instruction with
    | sharedAccountsRouteWithTokenLedger args accounts => exact ⟨args, accounts, rfl⟩
    | _ => cases hkind
  · have hunknown : discriminator ∉ jupiterDiscs := by simp [jupiterDiscs, *]
    refine .congr (.pure _) fun program keys instruction => ?_
    constructor
    · rintro ⟨rfl, rfl⟩
      exact ⟨⟨hlength, hunknown⟩, rfl, List.nil_prefix, rfl⟩
    · rintro ⟨-, rfl, -, rfl⟩
      cases instruction with
      | unknown discriminator => exact ⟨rfl, rfl⟩
      | _ =>
        refine absurd ?_ hunknown
        simp [instructions, ParsedJupiterInstruction.discriminator, jupiterDiscs]

/-- The parser finds exactly the instructions that the client would have built with these bytes and
these accounts first, for the program that the message calls. -/
theorem decodeJupiterV6Instruction_eq_ok_iff {compiled : CompiledInstruction}
    {table : List Pubkey} :
    decodeJupiterV6Instruction compiled table = .ok instruction ↔
      ∃ program, instruction.WellFormed program ∧
        (instructions.instruction program instruction []).Begins table compiled :=
  InstructionSet.decodeWith_eq_ok_iff_begins instructions_readBy

/-! ## What a swap says -/

/-- `is_swap_instruction` -/
def isSwapInstruction : ParsedJupiterInstruction → Bool
  | .unknown _ => false
  | _ => true

/-- What every other instruction says about a swap. -/
def notASwap {α : Type} : Except String α := .error "Not a swap instruction"

/-- `base_input` -/
def baseInput : ParsedJupiterInstruction → Except String Bool
  | .route _ _ => pure true
  | .routeWithTokenLedger _ _ => pure true
  | .sharedAccountsRoute _ _ => pure true
  | .sharedAccountsRouteWithTokenLedger _ _ => pure true
  | .unknown _ => notASwap
  | _ => pure false

/-- `source_mint` -/
def sourceMint : ParsedJupiterInstruction → Except String (Option Pubkey)
  | .route _ _ => pure none
  | .routeWithTokenLedger _ _ => pure none
  | .sharedAccountsRoute _ accounts => pure (some accounts.sourceMint)
  | .sharedAccountsRouteWithTokenLedger _ accounts => pure (some accounts.sourceMint)
  | .exactOutRoute _ accounts => pure (some accounts.sourceMint)
  | .sharedAccountsExactOutRoute _ accounts => pure (some accounts.sourceMint)
  | .unknown _ => notASwap

/-- `user` -/
def user : ParsedJupiterInstruction → Except String Pubkey
  | .route _ accounts => pure accounts.userTransferAuthority
  | .routeWithTokenLedger _ accounts => pure accounts.userTransferAuthority
  | .sharedAccountsRoute _ accounts => pure accounts.userTransferAuthority
  | .sharedAccountsRouteWithTokenLedger _ accounts => pure accounts.userTransferAuthority
  | .exactOutRoute _ accounts => pure accounts.userTransferAuthority
  | .sharedAccountsExactOutRoute _ accounts => pure accounts.userTransferAuthority
  | .unknown _ => notASwap

/-- `destination_mint` -/
def destinationMint : ParsedJupiterInstruction → Except String Pubkey
  | .route _ accounts => pure accounts.destinationMint
  | .routeWithTokenLedger _ accounts => pure accounts.destinationMint
  | .sharedAccountsRoute _ accounts => pure accounts.destinationMint
  | .sharedAccountsRouteWithTokenLedger _ accounts => pure accounts.destinationMint
  | .exactOutRoute _ accounts => pure accounts.destinationMint
  | .sharedAccountsExactOutRoute _ accounts => pure accounts.destinationMint
  | .unknown _ => notASwap

/-- `other_amount_threshold` -/
def otherAmountThreshold : ParsedJupiterInstruction → Except String (BitVec 64)
  | .route args _ => pure args.quotedOutAmount
  | .routeWithTokenLedger args _ => pure args.quotedOutAmount
  | .sharedAccountsRoute args _ => pure args.quotedOutAmount
  | .sharedAccountsRouteWithTokenLedger args _ => pure args.quotedOutAmount
  | .exactOutRoute args _ => pure args.quotedInAmount
  | .sharedAccountsExactOutRoute args _ => pure args.quotedInAmount
  | .unknown _ => notASwap

/-- The questions about a swap are all answered for the same instructions. -/
theorem isSwapInstruction_eq_false_iff :
    instruction.isSwapInstruction = false ↔
      instruction.baseInput = notASwap ∧ instruction.sourceMint = notASwap ∧
        instruction.user = notASwap ∧ instruction.destinationMint = notASwap ∧
          instruction.otherAmountThreshold = notASwap := by
  cases instruction with
  | unknown discriminator => exact iff_of_true rfl ⟨rfl, rfl, rfl, rfl, rfl⟩
  | _ => simp [isSwapInstruction, user, notASwap, pure, Except.pure]

/-- The user of a swap is the only account that has to sign for it. -/
theorem user_eq_ok_iff {key : Pubkey} :
    instruction.user = .ok key ↔
      (instruction.accountMetas program).filter (·.isSigner) = [.newReadonly key true] := by
  have hsigner : ∀ {metas : List AccountMeta} {user : Pubkey},
      metas.filter (·.isSigner) = [.newReadonly user true] →
        ((Except.ok user : Except String Pubkey) = .ok key ↔
          metas.filter (·.isSigner) = [.newReadonly key true]) := by
    intro metas user h
    rw [h]
    simp [AccountMeta.newReadonly]
  cases instruction with
  | unknown discriminator => simp [user, notASwap, accountMetas]
  | _ =>
    apply hsigner
    simp [accountMetas, Route.accountMetas, ExactOutRoute.accountMetas,
      RouteWithTokenLedger.accountMetas, SharedAccountsExactOutRoute.accountMetas,
      SharedAccountsRoute.accountMetas, SharedAccountsRouteWithTokenLedger.accountMetas,
      List.filter_cons]

end ParsedJupiterInstruction

end Biscuit.Parser.Jupiter
