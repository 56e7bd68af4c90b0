import Biscuit.Core.Outcome
import Biscuit.Core.Run
import Biscuit.Core.Table
import Biscuit.Models.Chain.Base58
import Biscuit.Models.Chain.Wire
import Biscuit.Models.Copy.Details

/-!
# The registry of copied wallets

The service is started with a list of wallets and takes commands with further ones. Both
fill the map of wallet configurations and watch the accounts; which wallets have their buys
disabled is a result that only the start uses. The registry is compared with the
configurations that were applied successfully.
-/

namespace Biscuit.Copy

/-- A wallet as it is asked for. -/
structure CopyWallet where
  wallet : Pubkey
  displayName : Option String
  minInputAmount : Option ℕ
  maxInputAmount : Option ℕ
  buyDisabled : Option Bool
  mode : Option CopyMode
  commitmentLevel : Option CommitmentLevel
  pollTransactionsFrequencySeconds : Option ℕ
  ignoreErrorTransactions : Option Bool
  recentSignature : Option Signature
  deriving DecidableEq

/-- The part of the configuration that stands in for what a wallet does not set. -/
structure WalletDefaults where
  copyModeDefault : CopyMode
  minInputAmountDefault : ℕ
  maxInputAmountDefault : ℕ

/-- A wallet, its configuration, and whether its buys are disabled. -/
structure ConfiguredWallet where
  wallet : Pubkey
  config : WalletConfig
  buyDisabled : Bool

namespace CopyWallet

/-- The least amount spent on a trade of the wallet. -/
def minInput (defaults : WalletDefaults) (a : CopyWallet) : ℕ :=
  a.minInputAmount.getD defaults.minInputAmountDefault

/-- The largest amount spent on a trade of the wallet. -/
def maxInput (defaults : WalletDefaults) (a : CopyWallet) : ℕ :=
  a.maxInputAmount.getD defaults.maxInputAmountDefault

/-- Whether the buys of the wallet are to be disabled. -/
def disabled (a : CopyWallet) : Bool := a.buyDisabled.getD false

/-- The configuration of a wallet whose bounds are in order. -/
def config (defaults : WalletDefaults) (a : CopyWallet)
    (h : a.minInput defaults < a.maxInput defaults) : WalletConfig where
  display := a.displayName.getD (String.ofList (Pubkey.toText a.wallet))
  minInputAmount := a.minInput defaults
  maxInputAmount := a.maxInput defaults
  mode := a.mode.getD defaults.copyModeDefault
  min_lt_max := h

/-- One wallet of `copy_accounts_to_config`, which panics when its bounds are not in order. -/
def configured (defaults : WalletDefaults) (a : CopyWallet) : Option ConfiguredWallet :=
  if h : a.minInput defaults < a.maxInput defaults then
    some ⟨a.wallet, a.config defaults h, a.disabled⟩
  else none

/-- The request to watch a wallet. -/
def pollRequest (a : CopyWallet) : PollRequest where
  address := a.wallet
  commitment := a.commitmentLevel
  pollTransactionsFrequency := a.pollTransactionsFrequencySeconds
  ignoreErrorTransactions := a.ignoreErrorTransactions.getD false
  recentSignature := a.recentSignature
  orderByEarliest := some false

end CopyWallet

/-- `copy_accounts_to_config`; no answer means that it panics. -/
def copyAccountsToConfig (defaults : WalletDefaults) (accounts : List CopyWallet) :
    Option (List ConfiguredWallet) :=
  accounts.mapM (CopyWallet.configured defaults)

/-- What the RPC and the stream answer to one command. -/
structure RegistryEnv where
  /-- One entry for every account asked for; no answer is an error. -/
  balances : Option (List (Option ℕ))
  /-- Whether the stream accepts the requests. -/
  watchAccounts : List PollRequest → Bool

/-- Why wallets could not be added. -/
inductive AddAccountsError
  | rpc
  | watch
  deriving DecidableEq, Repr

/-- The map of the copied wallets. -/
abbrev WalletConfigs := Pubkey → Option WalletConfig

/-- The entries are written one after the other. -/
def WalletConfigs.insertAll (m : WalletConfigs) (configs : List ConfiguredWallet) :
    WalletConfigs :=
  configs.foldl (fun m c => Function.update m c.wallet (some c.config)) m

/-- The wallets that some entry disables. -/
def disabledWallets (configs : List ConfiguredWallet) : Finset Pubkey :=
  configs.foldl (fun s c => if c.buyDisabled then insert c.wallet s else s) ∅

/-- The accounts that are paired with a balance; a missing balance is only logged. -/
def RegistryEnv.existing (balances : List (Option ℕ)) (accounts : List CopyWallet) :
    List CopyWallet :=
  (accounts.zip balances).map Prod.fst

/-- `add_accounts_to_wallet_config_and_stream`: the map afterwards, and how the call ends. -/
def addAccountsToWalletConfigAndStream (defaults : WalletDefaults) (env : RegistryEnv)
    (initAccounts : List CopyWallet) (m : WalletConfigs) :
    WalletConfigs × Outcome AddAccountsError (Finset Pubkey) :=
  match env.balances with
  | none => (m, .err .rpc)
  | some balances =>
    let accounts := RegistryEnv.existing balances initAccounts
    match copyAccountsToConfig defaults accounts with
    | none => (m, .panic)
    | some configs =>
      let m := m.insertAll configs
      if env.watchAccounts (accounts.map CopyWallet.pollRequest) then
        (m, .ok (disabledWallets configs))
      else (m, .err .watch)

/-- What the tasks of the service share about the copied wallets. -/
structure WalletRegistry where
  walletConfig : WalletConfigs
  /-- The wallets whose buys the execution task refuses. -/
  buyDisabledWallets : Finset Pubkey
  /-- The main task has not ended. -/
  running : Bool

/-- The loading of the wallets in `start_copy_service_v2`. -/
def WalletRegistry.start (defaults : WalletDefaults) (env : RegistryEnv)
    (initAccounts : List CopyWallet) : Outcome AddAccountsError WalletRegistry :=
  let (m, result) := addAccountsToWalletConfigAndStream defaults env initAccounts fun _ => none
  result >>= fun disabled => .ok ⟨m, disabled, true⟩

/-- `handle_command`: the wallets with disabled buys are not kept, errors are logged, and a
panic ends the main task. -/
def WalletRegistry.handleCommand (defaults : WalletDefaults) (s : WalletRegistry)
    (env : RegistryEnv) (accounts : List CopyWallet) : WalletRegistry :=
  if !s.running then s
  else
    match addAccountsToWalletConfigAndStream defaults env accounts s.walletConfig with
    | (m, .ok _) => { s with walletConfig := m }
    | (m, .err _) => { s with walletConfig := m }
    | (m, .panic) => { s with walletConfig := m, running := false }

/-! ## What a call writes -/

theorem copyAccountsToConfig_eq_some {defaults : WalletDefaults} {accounts : List CopyWallet}
    {configs : List ConfiguredWallet} (h : copyAccountsToConfig defaults accounts = some configs) :
    List.Forall₂ (fun a c => a.configured defaults = some c) accounts configs := by
  induction accounts generalizing configs with
  | nil =>
    obtain rfl := Option.some.inj h
    exact .nil
  | cons a accounts ih =>
    rw [copyAccountsToConfig, List.mapM_cons] at h
    obtain ⟨c, hc, h⟩ := Option.bind_eq_some_iff.mp h
    obtain ⟨configs', hrest, h⟩ := Option.bind_eq_some_iff.mp h
    obtain rfl := Option.some.inj h
    exact .cons hc (ih hrest)

/-- The configuration panics exactly when the bounds of some wallet are not in order. -/
theorem copyAccountsToConfig_isSome_iff {defaults : WalletDefaults}
    {accounts : List CopyWallet} : (copyAccountsToConfig defaults accounts).isSome ↔
      ∀ a ∈ accounts, a.minInput defaults < a.maxInput defaults := by
  induction accounts with
  | nil => simp [copyAccountsToConfig]
  | cons a accounts ih =>
    rw [List.forall_mem_cons, ← ih, copyAccountsToConfig, List.mapM_cons,
      CopyWallet.configured, copyAccountsToConfig]
    by_cases h : a.minInput defaults < a.maxInput defaults
    · cases accounts.mapM (CopyWallet.configured defaults) <;> simp [h]
    · simp [h]

theorem configured_wallet {defaults : WalletDefaults} {a : CopyWallet} {c : ConfiguredWallet}
    (h : a.configured defaults = some c) : c.wallet = a.wallet ∧ c.buyDisabled = a.disabled := by
  unfold CopyWallet.configured at h
  split at h
  · obtain rfl := Option.some.inj h
    exact ⟨rfl, rfl⟩
  · cases h

section Configured

variable {defaults : WalletDefaults} {accounts : List CopyWallet} {configs : List ConfiguredWallet}

theorem find?_configured (p : Pubkey → Bool)
    (h : List.Forall₂ (fun a c => a.configured defaults = some c) accounts configs) :
    configs.find? (fun c => p c.wallet) =
      (accounts.find? fun a => p a.wallet).bind (CopyWallet.configured defaults) := by
  induction h with
  | nil => rfl
  | @cons a c _ _ hc _ ih =>
    rw [List.find?_cons, List.find?_cons, (configured_wallet hc).1]
    cases p a.wallet with
    | true => exact hc.symm
    | false => exact ih

/-- The last configuration of a wallet is that of its last entry. -/
theorem lastOf_configured
    (h : List.Forall₂ (fun a c => a.configured defaults = some c) accounts configs)
    (wallet : Pubkey) : Table.lastOf ConfiguredWallet.wallet configs wallet =
      (Table.lastOf CopyWallet.wallet accounts wallet).bind (CopyWallet.configured defaults) :=
  find?_configured (fun w => decide (w = wallet)) (List.forall₂_reverse_iff.mpr h)

theorem exists_configured
    (h : List.Forall₂ (fun a c => a.configured defaults = some c) accounts configs)
    {a : CopyWallet} (ha : a ∈ accounts) : ∃ c, a.configured defaults = some c := by
  induction h with
  | nil => cases ha
  | cons hc _ ih =>
    rcases List.mem_cons.mp ha with rfl | ha
    · exact ⟨_, hc⟩
    · exact ih ha

theorem in_order
    (h : List.Forall₂ (fun a c => a.configured defaults = some c) accounts configs) :
    ∀ a ∈ accounts, a.minInput defaults < a.maxInput defaults := by
  intro a ha
  obtain ⟨c, hc⟩ := exists_configured h ha
  by_contra hbad
  rw [CopyWallet.configured, dif_neg hbad] at hc
  cases hc

theorem mem_disabledWallets {wallet : Pubkey} : wallet ∈ disabledWallets configs ↔
    ∃ c ∈ configs, c.wallet = wallet ∧ c.buyDisabled = true := by
  have hfold : ∀ s : Finset Pubkey, wallet ∈ configs.foldl
      (fun s c => if c.buyDisabled then insert c.wallet s else s) s ↔
      wallet ∈ s ∨ ∃ c ∈ configs, c.wallet = wallet ∧ c.buyDisabled = true := by
    induction configs with
    | nil => simp
    | cons c configs ih =>
      intro s
      rw [List.foldl_cons, ih]
      cases hc : c.buyDisabled with
      | false => simp [hc]
      | true =>
        simp only [hc, if_true, Finset.mem_insert, List.exists_mem_cons_iff, and_true, or_assoc]
        rw [or_left_comm, eq_comm (a := wallet)]
  rw [disabledWallets, hfold]
  simp only [Finset.notMem_empty, false_or]

/-- A call disables the wallets that some of its entries disable. -/
theorem mem_disabledWallets_configured
    (h : List.Forall₂ (fun a c => a.configured defaults = some c) accounts configs)
    {wallet : Pubkey} : wallet ∈ disabledWallets configs ↔
      ∃ a ∈ accounts, a.wallet = wallet ∧ a.disabled = true := by
  rw [mem_disabledWallets]
  induction h with
  | nil => simp
  | cons hc _ ih =>
    obtain ⟨hwallet, hdisabled⟩ := configured_wallet hc
    rw [List.exists_mem_cons_iff, List.exists_mem_cons_iff, ih, hwallet, hdisabled]

end Configured

/-! ## The latest configurations -/

/-- The service, and for every wallet the entry that was last applied successfully. -/
structure RegistryRun where
  registry : WalletRegistry
  latest : Pubkey → Option CopyWallet

/-- `CopyAccounts`, with what the RPC and the stream answer to it. -/
structure RegistryCommand where
  env : RegistryEnv
  accounts : List CopyWallet

/-- The accounts of a command that reach the registry, if the RPC answers. -/
def RegistryCommand.reaching (c : RegistryCommand) : Option (List CopyWallet) :=
  c.env.balances.map fun balances => RegistryEnv.existing balances c.accounts

/-- Whether the stream accepts the requests for these accounts. -/
def RegistryCommand.watches (c : RegistryCommand) (accounts : List CopyWallet) : Bool :=
  c.env.watchAccounts (accounts.map CopyWallet.pollRequest)

/-- How the call of a command ends. -/
def RegistryCommand.outcome (defaults : WalletDefaults) (c : RegistryCommand)
    (m : WalletConfigs) : Outcome AddAccountsError (Finset Pubkey) :=
  (addAccountsToWalletConfigAndStream defaults c.env c.accounts m).2

/-- The latest entries after some were applied. -/
def applied (latest : Pubkey → Option CopyWallet) (accounts : List CopyWallet) :
    Pubkey → Option CopyWallet :=
  accounts.foldl (fun m a => Function.update m a.wallet (some a)) latest

namespace RegistryRun

/-- The service after its start with a list of wallets. -/
def start (defaults : WalletDefaults) (c : RegistryCommand) : Outcome AddAccountsError RegistryRun :=
  WalletRegistry.start defaults c.env c.accounts >>= fun registry =>
    .ok ⟨registry, applied (fun _ => none) (c.reaching.getD [])⟩

/-- One command; its entries are applied if it succeeds. -/
def step (defaults : WalletDefaults) (s : RegistryRun) (c : RegistryCommand) : RegistryRun where
  registry := s.registry.handleCommand defaults c.env c.accounts
  latest :=
    match c.outcome defaults s.registry.walletConfig with
    | .ok _ => applied s.latest (c.reaching.getD [])
    | _ => s.latest

/-- The buys of a wallet are disabled if and only if its latest entry disables them. -/
def Agrees (s : RegistryRun) : Prop :=
  ∀ wallet, wallet ∈ s.registry.buyDisabledWallets ↔
    (s.latest wallet).any CopyWallet.disabled = true

/-- After the command the registry agrees with the latest entries, the command has changed
nothing if it fails, and the service goes on. -/
structure Follows (defaults : WalletDefaults) (s : RegistryRun) (c : RegistryCommand) : Prop where
  agrees : (s.step defaults c).Agrees
  atomic : (∀ disabled, c.outcome defaults s.registry.walletConfig ≠ .ok disabled) →
    (s.step defaults c).registry.walletConfig = s.registry.walletConfig ∧
      (s.step defaults c).registry.buyDisabledWallets = s.registry.buyDisabledWallets
  running : (s.step defaults c).registry.running = true

/-- What a command has to meet for that: the bounds of its wallets are in order; if the stream
accepts the requests, the last entry of each wallet disables its buys if and only if they are
disabled; and if not, the configurations of the last entries are the ones in the map. -/
def Safe (defaults : WalletDefaults) (s : RegistryRun) (c : RegistryCommand) : Prop :=
  ∀ accounts, c.reaching = some accounts →
    (∀ a ∈ accounts, a.minInput defaults < a.maxInput defaults) ∧
    ∀ wallet a, Table.lastOf CopyWallet.wallet accounts wallet = some a →
      if c.watches accounts then
        (a.disabled = true ↔ wallet ∈ s.registry.buyDisabledWallets)
      else (a.configured defaults).map ConfiguredWallet.config = s.registry.walletConfig wallet

/-- No wallet is listed with its buys disabled and again, later, with its buys enabled. -/
def NoReenabled (accounts : List CopyWallet) : Prop :=
  ∀ a ∈ accounts, a.disabled = true →
    (Table.lastOf CopyWallet.wallet accounts a.wallet).any CopyWallet.disabled = true

theorem latest_applied (latest : Pubkey → Option CopyWallet) (accounts : List CopyWallet)
    (wallet : Pubkey) : applied latest accounts wallet =
      (Table.lastOf CopyWallet.wallet accounts wallet).or (latest wallet) := by
  have h := Table.foldl_update CopyWallet.wallet id accounts latest wallet
  rwa [Option.map_id] at h

/-- How the call of a command ends, by how far it gets. -/
inductive CallCase (defaults : WalletDefaults) (c : RegistryCommand) (m : WalletConfigs) :
    WalletConfigs × Outcome AddAccountsError (Finset Pubkey) → Prop
  /-- The RPC does not answer. -/
  | unanswered (hreach : c.reaching = none) : CallCase defaults c m (m, .err .rpc)
  /-- The bounds of a wallet are not in order. -/
  | panicked (accounts : List CopyWallet) (hreach : c.reaching = some accounts)
      (hbad : ¬ ∀ a ∈ accounts, a.minInput defaults < a.maxInput defaults) :
      CallCase defaults c m (m, .panic)
  /-- The stream accepts the requests. -/
  | added (accounts : List CopyWallet) (configs : List ConfiguredWallet)
      (hreach : c.reaching = some accounts)
      (hconfigs : List.Forall₂ (fun a c => a.configured defaults = some c) accounts configs)
      (hwatch : c.watches accounts = true) :
      CallCase defaults c m (m.insertAll configs, .ok (disabledWallets configs))
  /-- The stream does not accept them. -/
  | unwatched (accounts : List CopyWallet) (configs : List ConfiguredWallet)
      (hreach : c.reaching = some accounts)
      (hconfigs : List.Forall₂ (fun a c => a.configured defaults = some c) accounts configs)
      (hwatch : c.watches accounts = false) :
      CallCase defaults c m (m.insertAll configs, .err .watch)

theorem addAccounts_cases (defaults : WalletDefaults) (c : RegistryCommand) (m : WalletConfigs) :
    CallCase defaults c m (addAccountsToWalletConfigAndStream defaults c.env c.accounts m) := by
  cases hb : c.env.balances with
  | none =>
    simp only [addAccountsToWalletConfigAndStream, hb]
    exact .unanswered (by rw [RegistryCommand.reaching, hb, Option.map_none])
  | some balances =>
    have hreach : c.reaching = some (RegistryEnv.existing balances c.accounts) := by
      rw [RegistryCommand.reaching, hb, Option.map_some]
    cases hconfigs : copyAccountsToConfig defaults (RegistryEnv.existing balances c.accounts) with
    | none =>
      simp only [addAccountsToWalletConfigAndStream, hb, hconfigs]
      refine .panicked _ hreach fun hgood => ?_
      rw [← copyAccountsToConfig_isSome_iff, hconfigs] at hgood
      cases hgood
    | some configs =>
      have hpairs := copyAccountsToConfig_eq_some hconfigs
      simp only [addAccountsToWalletConfigAndStream, hb, hconfigs]
      split
      · next hwatch => exact .added _ _ hreach hpairs hwatch
      · next hwatch => exact .unwatched _ _ hreach hpairs (Bool.eq_false_iff.mpr hwatch)

/-- A command while the service runs. -/
theorem step_eq {defaults : WalletDefaults} {s : RegistryRun} {c : RegistryCommand}
    (hs : s.registry.running = true) {m : WalletConfigs}
    {outcome : Outcome AddAccountsError (Finset Pubkey)}
    (hcall : addAccountsToWalletConfigAndStream defaults c.env c.accounts
      s.registry.walletConfig = (m, outcome)) :
    c.outcome defaults s.registry.walletConfig = outcome ∧
      (s.step defaults c).registry.walletConfig = m ∧
      (s.step defaults c).registry.buyDisabledWallets = s.registry.buyDisabledWallets ∧
      ((s.step defaults c).registry.running = true ↔ outcome ≠ .panic) ∧
      (s.step defaults c).latest =
        if outcome.void = .ok () then applied s.latest (c.reaching.getD []) else s.latest := by
  have houtcome : c.outcome defaults s.registry.walletConfig = outcome := by
    rw [RegistryCommand.outcome, hcall]
  refine ⟨houtcome, ?_⟩
  simp only [step, WalletRegistry.handleCommand, houtcome, hcall, hs, Bool.not_true,
    Bool.false_eq_true, if_false]
  cases outcome <;> simp [Outcome.void]

/-- The map is as before exactly when the last entry of each wallet has the configuration that
is in the map. -/
theorem insertAll_eq_iff {defaults : WalletDefaults} {accounts : List CopyWallet}
    {configs : List ConfiguredWallet}
    (h : List.Forall₂ (fun a c => a.configured defaults = some c) accounts configs)
    (m : WalletConfigs) : m.insertAll configs = m ↔
      ∀ wallet a, Table.lastOf CopyWallet.wallet accounts wallet = some a →
        (a.configured defaults).map ConfiguredWallet.config = m wallet := by
  have hlookup : ∀ wallet, m.insertAll configs wallet =
      (((Table.lastOf CopyWallet.wallet accounts wallet).bind (CopyWallet.configured defaults)).map
        ConfiguredWallet.config).or (m wallet) := by
    intro wallet
    rw [WalletConfigs.insertAll, Table.foldl_update, lastOf_configured h]
  have hsome : ∀ wallet a, Table.lastOf CopyWallet.wallet accounts wallet = some a →
      (a.configured defaults).isSome := by
    intro wallet a ha
    exact Option.isSome_iff_exists.mpr (exists_configured h (Table.mem_of_lastOf ha).1)
  rw [funext_iff]
  constructor
  · intro heq wallet a ha
    have hself := heq wallet
    obtain ⟨c, hc⟩ := Option.isSome_iff_exists.mp (hsome wallet a ha)
    rw [hlookup, ha, Option.bind_some, hc] at hself
    rw [hc]
    exact hself
  · intro hall wallet
    rw [hlookup]
    cases ha : Table.lastOf CopyWallet.wallet accounts wallet with
    | none => rfl
    | some a =>
      rw [Option.bind_some, hall wallet a ha, Option.or_self]

/-- Where the registry agrees, it agrees with further entries exactly when the last entry of each
of their wallets says what the registry says. -/
theorem Agrees.applied_iff {s s' : RegistryRun} (hs : s.Agrees) {accounts : List CopyWallet}
    (hdisabled : s'.registry.buyDisabledWallets = s.registry.buyDisabledWallets)
    (hlatest : s'.latest = applied s.latest accounts) :
    s'.Agrees ↔ ∀ wallet a, Table.lastOf CopyWallet.wallet accounts wallet = some a →
      (a.disabled = true ↔ wallet ∈ s.registry.buyDisabledWallets) := by
  constructor
  · intro h wallet a ha
    have hself := h wallet
    rw [hlatest, latest_applied, ha, hdisabled] at hself
    exact hself.symm
  · intro h wallet
    rw [hlatest, latest_applied, hdisabled]
    cases ha : Table.lastOf CopyWallet.wallet accounts wallet with
    | none => exact hs wallet
    | some a => exact (h wallet a ha).symm

theorem Agrees.congr {s s' : RegistryRun} (hs : s.Agrees)
    (hdisabled : s'.registry.buyDisabledWallets = s.registry.buyDisabledWallets)
    (hlatest : s'.latest = s.latest) : s'.Agrees := by
  intro wallet
  rw [hdisabled, hlatest]
  exact hs wallet

/-- While the service runs and its registry agrees, a command is followed exactly when it meets
its condition. -/
theorem follows_iff_safe (defaults : WalletDefaults) (s : RegistryRun) (c : RegistryCommand)
    (hs : s.Agrees ∧ s.registry.running = true) : s.Follows defaults c ↔ s.Safe defaults c := by
  obtain ⟨hagrees, hrun⟩ := hs
  have hcase := addAccounts_cases defaults c s.registry.walletConfig
  generalize hcall : addAccountsToWalletConfigAndStream defaults c.env c.accounts
    s.registry.walletConfig = result at hcase
  cases hcase with
  | unanswered hreach =>
    obtain ⟨-, hconfig, hdisabled, hrunning, hlatest⟩ := step_eq hrun hcall
    refine iff_of_true ⟨hagrees.congr hdisabled hlatest, fun _ => ⟨hconfig, hdisabled⟩,
      hrunning.mpr nofun⟩ fun accounts h => ?_
    rw [hreach] at h
    cases h
  | panicked accounts hreach hbad =>
    obtain ⟨-, -, -, hrunning, -⟩ := step_eq hrun hcall
    exact iff_of_false (fun h => hrunning.mp h.running rfl) fun h => hbad (h accounts hreach).1
  | added accounts configs hreach hconfigs hwatch =>
    obtain ⟨houtcome, -, hdisabled, hrunning, hlatest⟩ := step_eq hrun hcall
    have hiff := hagrees.applied_iff hdisabled (hlatest.trans (if_pos rfl))
    rw [hreach, Option.getD_some] at hiff
    constructor
    · intro h accounts' hreach'
      obtain rfl := Option.some.inj (hreach.symm.trans hreach')
      refine ⟨in_order hconfigs, fun wallet a ha => ?_⟩
      rw [if_pos hwatch]
      exact hiff.mp h.agrees wallet a ha
    · intro h
      refine ⟨hiff.mpr fun wallet a ha => ?_, fun hfail => absurd houtcome (hfail _),
        hrunning.mpr nofun⟩
      have hself := (h accounts hreach).2 wallet a ha
      rwa [if_pos hwatch] at hself
  | unwatched accounts configs hreach hconfigs hwatch =>
    obtain ⟨houtcome, hconfig, hdisabled, hrunning, hlatest⟩ := step_eq hrun hcall
    have hnot : ¬ c.watches accounts = true := Bool.eq_false_iff.mp hwatch
    constructor
    · intro h accounts' hreach'
      obtain rfl := Option.some.inj (hreach.symm.trans hreach')
      refine ⟨in_order hconfigs, fun wallet a ha => ?_⟩
      have hsame := (h.atomic fun disabled => by rw [houtcome]; nofun).1
      rw [hconfig] at hsame
      rw [if_neg hnot]
      exact (insertAll_eq_iff hconfigs _).mp hsame wallet a ha
    · intro h
      refine ⟨hagrees.congr hdisabled hlatest, fun _ => ⟨?_, hdisabled⟩, hrunning.mpr nofun⟩
      refine hconfig.trans ((insertAll_eq_iff hconfigs _).mpr fun wallet a ha => ?_)
      have hself := (h accounts hreach).2 wallet a ha
      rwa [if_neg hnot] at hself

/-- What a start leaves behind. -/
theorem start_eq_ok {defaults : WalletDefaults} {c : RegistryCommand} {s : RegistryRun}
    (h : start defaults c = .ok s) : ∃ accounts configs, c.reaching = some accounts ∧
      List.Forall₂ (fun a c => a.configured defaults = some c) accounts configs ∧
      s.registry.buyDisabledWallets = disabledWallets configs ∧
      s.latest = applied (fun _ => none) accounts ∧ s.registry.running = true := by
  have hcase := addAccounts_cases defaults c fun _ => none
  rw [start, WalletRegistry.start] at h
  generalize addAccountsToWalletConfigAndStream defaults c.env c.accounts _ = result at h hcase
  cases hcase with
  | unanswered hreach => cases h
  | panicked accounts hreach hbad => cases h
  | added accounts configs hreach hconfigs hwatch =>
    obtain rfl := (Outcome.ok.inj h).symm
    exact ⟨accounts, configs, hreach, hconfigs, rfl, by rw [hreach, Option.getD_some], rfl⟩
  | unwatched accounts configs hreach hconfigs hwatch => cases h

/-- A service that has started agrees with its list of wallets exactly when none of them is
enabled again. -/
theorem start_agrees_iff {defaults : WalletDefaults} {c : RegistryCommand} {s : RegistryRun}
    (h : start defaults c = .ok s) :
    s.registry.running = true ∧ (s.Agrees ↔ NoReenabled (c.reaching.getD [])) := by
  obtain ⟨accounts, configs, hreach, hpairs, hdisabled, hlatest, hrun⟩ := start_eq_ok h
  refine ⟨hrun, ?_⟩
  have hagrees : s.Agrees ↔ ∀ wallet, (∃ a ∈ accounts, a.wallet = wallet ∧ a.disabled = true) ↔
      (Table.lastOf CopyWallet.wallet accounts wallet).any CopyWallet.disabled = true := by
    simp only [Agrees, hdisabled, hlatest, latest_applied, Option.or_none,
      mem_disabledWallets_configured hpairs]
  rw [hagrees, hreach, Option.getD_some]
  constructor
  · intro hall a ha hd
    exact (hall a.wallet).mp ⟨a, ha, rfl, hd⟩
  · intro hlast wallet
    constructor
    · rintro ⟨a, ha, rfl, hd⟩
      exact hlast a ha hd
    · intro hany
      obtain ⟨a, ha, hd⟩ := (Option.any_eq_true _ _).mp hany
      obtain ⟨hmem, hwallet⟩ := Table.mem_of_lastOf ha
      exact ⟨a, hmem, hwallet, hd⟩

/-- The registry agrees with the latest configurations in every state, commands that fail
change nothing and none ends the service, exactly when no wallet of the start is enabled
again and every command meets its condition. -/
theorem follows_iff {defaults : WalletDefaults} {c : RegistryCommand} {s : RegistryRun}
    (hstart : start defaults c = .ok s) (cs : List RegistryCommand) :
    s.Agrees ∧ Along (step defaults) (Follows defaults) s cs ↔
      NoReenabled (c.reaching.getD []) ∧ Along (step defaults) (Safe defaults) s cs := by
  obtain ⟨hrun, hagrees⟩ := start_agrees_iff hstart
  rw [← hagrees]
  refine and_congr_right fun hs => ?_
  exact along_iff_along (fun _ _ _ h => ⟨h.agrees, h.running⟩) (follows_iff_safe defaults)
    ⟨hs, hrun⟩

/-- What a wallet does not set. -/
def sampleDefaults : WalletDefaults := ⟨.direct, 10, 20⟩

/-- The sample wallet, asked for with its buys disabled or not. -/
def sampleCopyWallet (buyDisabled : Bool) : CopyWallet where
  wallet := sampleWallet
  displayName := some "sample"
  minInputAmount := none
  maxInputAmount := none
  buyDisabled := some buyDisabled
  mode := none
  commitmentLevel := none
  pollTransactionsFrequencySeconds := none
  ignoreErrorTransactions := none
  recentSignature := none

/-- A command for the sample wallet that the RPC and the stream accept. -/
def sampleCommand (buyDisabled : Bool) : RegistryCommand :=
  ⟨⟨some [some 1], fun _ => true⟩, [sampleCopyWallet buyDisabled]⟩

/-- The sample wallet is asked for twice with its buys enabled. -/
theorem follows_iff_sample :
    ∃ s, start sampleDefaults (sampleCommand false) = .ok s ∧ s.Agrees ∧
      Along (step sampleDefaults) (Follows sampleDefaults) s [sampleCommand false] := by
  have hsample : ∀ a ∈ [sampleCopyWallet false], a = sampleCopyWallet false :=
    fun a ha => List.mem_singleton.mp ha
  refine ⟨_, rfl, (follows_iff (c := sampleCommand false) rfl _).mpr
    ⟨fun a ha hd => ?_, fun accounts h => ?_, trivial⟩⟩
  · rw [hsample a ha] at hd
    cases hd
  · obtain rfl := Option.some.inj h
    refine ⟨fun a ha => ?_, fun wallet a ha => ?_⟩
    · rw [hsample a ha]
      decide
    · rw [if_pos (by rfl), hsample a (Table.mem_of_lastOf ha).1]
      exact iff_of_false (by decide) (Finset.notMem_empty wallet)

/-- The service is started with the sample wallet; a command that disables its buys succeeds,
but its buys are still copied. -/
theorem not_follows_disable :
    ¬ ∀ (defaults : WalletDefaults) (c : RegistryCommand) (s : RegistryRun)
      (cs : List RegistryCommand), start defaults c = .ok s →
      s.Agrees ∧ Along (step defaults) (Follows defaults) s cs := by
  intro h
  have hfollows := (h sampleDefaults (sampleCommand false) _ [sampleCommand true] rfl).2.1
  have hself := (hfollows.agrees sampleWallet).mpr (by decide)
  exact Finset.notMem_empty sampleWallet hself

end RegistryRun

end Biscuit.Copy
