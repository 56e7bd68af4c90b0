import Biscuit.Core.Projection
import Biscuit.Core.Provenance
import Biscuit.Core.Variant
import Biscuit.Models.Chain.LookupTables
import Biscuit.Models.Copy.Origins
import Biscuit.Models.Copy.Registry
import Biscuit.Models.Parser.Swap
import Biscuit.Models.Parser.TokenBalances

/-!
# From streamed transactions to copies

Each transaction of the stream gets a task of its own, which loads its keys, passes over what
is not a swap of a copied wallet and puts the rest into the execution queue. Wallets are added
while these tasks are on their way. The whole is a run of the copy service to which exactly the
screened transactions are delivered.
-/

namespace Biscuit.Copy

open Biscuit.Parser (CompiledInstruction Decoders FetchedAccount ITransaction LookupError
  MessageAddressTableLookup OwnedTokenBalance Parsed ParseError TokenBalances UiLoadedAddresses
  UiTransactionStatusMeta parseSwapTransaction)

/-! ## Transactions of the stream -/

/-- `UiTransactionStatusMeta`, with the fields that only the intake reads. -/
structure TransactionMeta where
  logMessages : Option (List Text)
  preBalances : List ℕ
  postBalances : List ℕ
  tokenBalances : TokenBalances
  loadedAddresses : Option UiLoadedAddresses

/-- The part that the parser reads. -/
def TransactionMeta.forParser (m : TransactionMeta) : UiTransactionStatusMeta where
  logMessages := m.logMessages
  preTokenBalances :=
    m.tokenBalances.preTokenBalances.map (List.map (·.toUiTransactionTokenBalance))
  postTokenBalances :=
    m.tokenBalances.postTokenBalances.map (List.map (·.toUiTransactionTokenBalance))

/-- `ITransaction` as the stream yields it: its additional keys are not loaded yet. -/
structure StreamedTransaction where
  signature : Signature
  instructions : List CompiledInstruction
  staticAccountKeys : List Pubkey
  addressTableLookups : List MessageAddressTableLookup
  innerInstructions : Option (Table UInt8 (List CompiledInstruction))
  statusMeta : Option TransactionMeta
  err : Option TransactionError

/-- The transaction for the parser. -/
def StreamedTransaction.toITransaction (tx : StreamedTransaction) : ITransaction where
  instructions := tx.instructions
  staticAccountKeys := tx.staticAccountKeys
  loadedAddresses := none
  statusMeta := tx.statusMeta.map TransactionMeta.forParser
  innerInstructions := tx.innerInstructions

/-- `extract_or_load_additional_keys`, with the answer of the node if it is asked. -/
def StreamedTransaction.loadKeys (tx : StreamedTransaction)
    (answer : Option (List FetchedAccount)) : Outcome LookupError ITransaction :=
  tx.toITransaction.extractOrLoadAdditionalKeys (tx.statusMeta.bind (·.loadedAddresses)) answer
    tx.addressTableLookups

/-! ## Balances of the signer -/

/-- `Balance::create_sol_balance` -/
def Balance.createSolBalance (tx : StreamedTransaction) (originWalletIdx : ℕ) :
    Option Balance := do
  let statusMeta ← tx.statusMeta
  let pre ← statusMeta.preBalances[originWalletIdx]?
  let post ← statusMeta.postBalances[originWalletIdx]?
  pure ⟨pre, post⟩

/-- The amount and the decimals of the first entry of a wallet and a token that has an amount. -/
def findTokenBalance (wallet token : Pubkey) (entries : List OwnedTokenBalance) :
    Option (F64 × UInt8) :=
  entries.findSome? fun balance =>
    if balance.owner = some wallet.toText ∧ balance.mint = token.toText then
      balance.uiTokenAmount.uiAmount.map fun uiAmount => (uiAmount, balance.uiTokenAmount.decimals)
    else none

/-- An amount in the smallest unit; the power wraps in a release build. -/
def rawAmount (amount : F64) (decimals : UInt8) : ℕ :=
  (amount * F64.ofNat (10 ^ decimals.toNat % 2 ^ 32)).trunc.toU64

/-- `Balance::create_token_balance` -/
def Balance.createTokenBalance (tx : StreamedTransaction) (wallet token : Pubkey) :
    Option Balance := do
  let statusMeta ← tx.statusMeta
  let pre ← statusMeta.tokenBalances.preTokenBalances
  let post ← statusMeta.tokenBalances.postTokenBalances
  let preBalance := findTokenBalance wallet token pre
  let postBalance := findTokenBalance wallet token post
  let decimals := match preBalance.map Prod.snd, postBalance.map Prod.snd with
    | some decimals, _ => decimals
    | none, some decimals => decimals
    | none, none => 0
  pure ⟨rawAmount (preBalance.map Prod.fst |>.getD (.fin 0)) decimals,
    rawAmount (postBalance.map Prod.fst |>.getD (.fin 0)) decimals⟩

/-! ## One transaction -/

/-- Why a transaction is not copied. -/
inductive Skipped
  /-- Its additional keys could not be loaded. -/
  | keys (e : LookupError)
  /-- It failed on chain. -/
  | failed
  /-- Its first signer is not a copied wallet. -/
  | untracked
  /-- It could not be parsed. -/
  | parse (e : ParseError)
  /-- It is not a swap. -/
  | noSwap

/-- What the parser uses of libraries, and the order in which it meets inner instructions. -/
structure ParserEnv where
  decoders : Decoders
  iter : Iteration (List CompiledInstruction)

/-- The task of `handle_wire_txn` up to the details that it puts into the execution queue. -/
def screenTxn (parser : ParserEnv) (walletConfig : WalletConfigs) (tx : StreamedTransaction)
    (answer : Option (List FetchedAccount)) : Outcome Skipped OriginTrade := do
  let transaction ← (tx.loadKeys answer).mapError .keys
  if tx.err.isSome then .err .failed
  else
    let originSigner ← Outcome.unwrap tx.staticAccountKeys[0]?
    let walletConfig ← Outcome.ofOption .untracked (walletConfig originSigner)
    let originSwap ←
      (parseSwapTransaction parser.decoders parser.iter transaction).mapError .parse
    let originSwap ← Outcome.ofOption .noSwap originSwap
    pure {
      signature := tx.signature
      signer := originSigner
      swap := originSwap.toResolvedSwap
      solBalance := Balance.createSolBalance tx 0
      inputMintBalance := Balance.createTokenBalance tx originSigner originSwap.inputTokenMint
      walletConfig := walletConfig }

/-- What is copied of a transaction: it succeeded, and it is a swap of its first signer. -/
structure StreamedTransaction.Yields (parser : ParserEnv) (tx : StreamedTransaction)
    (answer : Option (List FetchedAccount)) (t : OriginTrade) : Prop where
  succeeded : tx.err = none
  signature : t.signature = tx.signature
  signer : tx.staticAccountKeys[0]? = some t.signer
  swap : ∃ transaction swap, tx.loadKeys answer = .ok transaction ∧
    parseSwapTransaction parser.decoders parser.iter transaction = .ok (some swap) ∧
    t.swap = swap.toResolvedSwap
  solBalance : t.solBalance = Balance.createSolBalance tx 0
  inputMintBalance :
    t.inputMintBalance = Balance.createTokenBalance tx t.signer t.swap.inputTokenMint

/-- A transaction passes when it is a swap of a copied wallet that succeeded. -/
theorem screenTxn_eq_ok_iff {parser : ParserEnv} {walletConfig : WalletConfigs}
    {tx : StreamedTransaction} {answer : Option (List FetchedAccount)} {t : OriginTrade} :
    screenTxn parser walletConfig tx answer = .ok t ↔
      tx.Yields parser answer t ∧ walletConfig t.signer = some t.walletConfig := by
  simp only [screenTxn, Outcome.bind_eq_ok, Outcome.mapError_eq_ok]
  constructor
  · rintro ⟨transaction, hkeys, h⟩
    cases herr : tx.err with
    | some e =>
      simp only [herr, Option.isSome_some, if_true] at h
      cases h
    | none =>
      simp only [herr, Option.isSome_none, Bool.false_eq_true, if_false, Outcome.bind_eq_ok,
        Outcome.mapError_eq_ok, Outcome.unwrap_eq_ok, Outcome.ofOption_eq_ok] at h
      obtain ⟨signer, hsigner, config, hconfig, swap, hparse, resolved, rfl, hpure⟩ := h
      obtain rfl := Outcome.ok.inj hpure
      exact ⟨⟨herr, rfl, hsigner, ⟨transaction, resolved, hkeys, hparse, rfl⟩, rfl, rfl⟩, hconfig⟩
  · rintro ⟨h, hconfig⟩
    obtain ⟨transaction, resolved, hkeys, hparse, hswap⟩ := h.swap
    refine ⟨transaction, hkeys, ?_⟩
    simp only [h.succeeded, Option.isSome_none, Bool.false_eq_true, if_false,
      Outcome.bind_eq_ok, Outcome.mapError_eq_ok, Outcome.unwrap_eq_ok, Outcome.ofOption_eq_ok]
    refine ⟨t.signer, h.signer, t.walletConfig, hconfig, some resolved, hparse, resolved, rfl, ?_⟩
    rw [← hswap, ← h.signature, ← h.solBalance, ← h.inputMintBalance]
    rfl

/-! ## The stream and the service -/

/-- A task of the intake. -/
inductive IntakeTask
  /-- It waits for the additional keys of its transaction. -/
  | loading (tx : StreamedTransaction)
  /-- It is about to put the details of its transaction into the execution queue. -/
  | sending (t : OriginTrade)

/-- The copied wallets, the copy service, and the tasks between the stream and the service. -/
structure Intake where
  registry : WalletRegistry
  service : Service
  tasks : List IntakeTask

/-- One step of one task. -/
inductive IntakeEvent
  /-- The main task adds wallets. -/
  | command (accounts : List CopyWallet) (env : RegistryEnv)
  /-- The main task takes an item of the stream. -/
  | deliver (item : Option StreamedTransaction)
  /-- A task gets what it needs to load the keys, and screens its transaction. -/
  | screen (i : ℕ) (answer : Option (List FetchedAccount))
  /-- A task puts its details into the execution queue. -/
  | send (i : ℕ)
  /-- A task of the service works on a job, or the main task panics. -/
  | work (e : ServiceEvent)

namespace Intake

/-- `start_copy_service_v2`; a service whose wallets cannot be added does not start. -/
def start (defaults : WalletDefaults) (env : RegistryEnv) (initAccounts : List CopyWallet)
    (shared : Shared) : Intake where
  registry :=
    match WalletRegistry.start defaults env initAccounts with
    | .ok registry => registry
    | _ => ⟨fun _ => none, ∅, false⟩
  service := .init shared
  tasks := []

/-- The main task has not ended. -/
def running (s : Intake) : Bool := s.registry.running && !s.service.crashed

/-- The step function of the intake. -/
def step (cfg : CopyConfig) (parser : ParserEnv) (defaults : WalletDefaults) (s : Intake) :
    IntakeEvent → Intake
  | .command accounts env =>
    if s.running then { s with registry := s.registry.handleCommand defaults env accounts } else s
  | .deliver none => s
  | .deliver (some tx) =>
    if s.running then { s with tasks := s.tasks ++ [.loading tx] } else s
  | .screen i answer =>
    match s.tasks[i]? with
    | some (.loading tx) =>
      match screenTxn parser s.registry.walletConfig tx answer with
      | .ok t => { s with tasks := s.tasks.set i (.sending t) }
      | _ => { s with tasks := s.tasks.eraseIdx i }
    | _ => s
  | .send i =>
    match s.tasks[i]? with
    | some (.sending t) =>
      { s with service := s.service.wireTxn cfg t, tasks := s.tasks.eraseIdx i }
    | _ => s
  | .work e =>
    if !e.isDelivery && (s.running || !e.byMain) then
      { s with service := s.service.step cfg e }
    else s

/-- What a step hands to the service. -/
def handed (s : Intake) : IntakeEvent → List ServiceEvent
  | .send i =>
    match s.tasks[i]? with
    | some (.sending t) => [.wireTxn t]
    | _ => []
  | .work e => if !e.isDelivery && (s.running || !e.byMain) then [e] else []
  | _ => []

end Intake

/-! ## Which wallets are copied -/

/-- A configuration is written for a wallet that is among the accounts. -/
theorem mem_of_insertAll {defaults : WalletDefaults} {accounts : List CopyWallet}
    {configs : List ConfiguredWallet}
    (h : List.Forall₂ (fun a c => a.configured defaults = some c) accounts configs)
    {m : WalletConfigs} {w : Pubkey} {c : WalletConfig} (hc : m.insertAll configs w = some c) :
    m w = some c ∨ ∃ a ∈ accounts, a.configured defaults = some ⟨w, c, a.disabled⟩ := by
  induction h generalizing m with
  | nil => exact .inl hc
  | @cons a x accounts configs hax _ ih =>
    rcases ih (m := Function.update m x.wallet (some x.config)) hc with hm | ⟨b, hb, hconfig⟩
    · by_cases hw : w = x.wallet
      · rw [hw, Function.update_self, Option.some.injEq] at hm
        refine .inr ⟨a, List.mem_cons_self, ?_⟩
        rw [hax, hw, ← hm]
        have hdisabled : x.buyDisabled = a.disabled := by
          unfold CopyWallet.configured at hax
          split at hax
          · rw [← Option.some.inj hax]
          · cases hax
        rw [← hdisabled]
      · rw [Function.update_of_ne hw] at hm
        exact .inl hm
    · exact .inr ⟨b, List.mem_cons_of_mem a hb, hconfig⟩

/-- Adding accounts writes configurations of these accounts only. -/
theorem addAccounts_walletConfig {defaults : WalletDefaults} {env : RegistryEnv}
    {accounts : List CopyWallet} {m : WalletConfigs} {w : Pubkey} {c : WalletConfig}
    (h : (addAccountsToWalletConfigAndStream defaults env accounts m).1 w = some c) :
    m w = some c ∨ ∃ a ∈ accounts, a.configured defaults = some ⟨w, c, a.disabled⟩ := by
  unfold addAccountsToWalletConfigAndStream at h
  split at h
  · exact .inl h
  · rename_i balances _
    simp only at h
    split at h
    · exact .inl h
    · rename_i configs hconfigs
      have hmap : m.insertAll configs w = some c := by
        split at h <;> exact h
      rcases mem_of_insertAll (copyAccountsToConfig_eq_some hconfigs) hmap with
        hm | ⟨a, ha, hconfig⟩
      · exact .inl hm
      · obtain ⟨⟨b, balance⟩, hb, rfl⟩ := List.mem_map.mp ha
        exact .inr ⟨b, (List.of_mem_zip hb).1, hconfig⟩

/-- A command configures wallets that it names. -/
theorem WalletRegistry.handleCommand_walletConfig {defaults : WalletDefaults}
    {s : WalletRegistry} {env : RegistryEnv} {accounts : List CopyWallet} {w : Pubkey}
    {c : WalletConfig} (h : (s.handleCommand defaults env accounts).walletConfig w = some c) :
    s.walletConfig w = some c ∨
      ∃ a ∈ accounts, a.configured defaults = some ⟨w, c, a.disabled⟩ := by
  unfold handleCommand at h
  split at h
  · exact .inl h
  · have hadd (hc : (addAccountsToWalletConfigAndStream defaults env accounts
        s.walletConfig).1 w = some c) := addAccounts_walletConfig hc
    split at h <;> rename_i hcall <;> rw [hcall] at hadd <;> exact hadd h

/-- The service starts with wallets that it was given. -/
theorem Intake.start_walletConfig {defaults : WalletDefaults} {env : RegistryEnv}
    {initAccounts : List CopyWallet} {shared : Shared} {w : Pubkey} {c : WalletConfig}
    (h : (Intake.start defaults env initAccounts shared).registry.walletConfig w = some c) :
    ∃ a ∈ initAccounts, a.configured defaults = some ⟨w, c, a.disabled⟩ := by
  unfold start WalletRegistry.start at h
  simp only at h
  have hadd (hc : (addAccountsToWalletConfigAndStream defaults env initAccounts
      (fun _ => none)).1 w = some c) := addAccounts_walletConfig hc
  generalize addAccountsToWalletConfigAndStream defaults env initAccounts
    (fun _ => none) = call at h hadd
  obtain ⟨m, result⟩ := call
  cases result with
  | ok disabled => exact (hadd h).resolve_left nofun
  | err e => cases h
  | panic => cases h

/-- A wallet is copied. -/
def Intake.Follows (wallet : Pubkey) (s : Intake) : Prop :=
  (s.registry.walletConfig wallet).isSome = true

theorem isSome_insertAll {m : WalletConfigs} {w : Pubkey} (h : (m w).isSome = true)
    (configs : List ConfiguredWallet) : (m.insertAll configs w).isSome = true := by
  rw [WalletConfigs.insertAll, Table.foldl_update, Option.isSome_or, h, Bool.or_true]

/-- A command only adds wallets, however it ends. -/
theorem WalletRegistry.isSome_handleCommand {defaults : WalletDefaults} {s : WalletRegistry}
    {w : Pubkey} (h : (s.walletConfig w).isSome = true) (env : RegistryEnv)
    (accounts : List CopyWallet) :
    ((s.handleCommand defaults env accounts).walletConfig w).isSome = true := by
  have hcase := RegistryRun.addAccounts_cases defaults ⟨env, accounts⟩ s.walletConfig
  unfold handleCommand
  split
  · exact h
  · generalize addAccountsToWalletConfigAndStream defaults env accounts s.walletConfig = call
      at hcase
    cases hcase with
    | unanswered => exact h
    | panicked => exact h
    | added _ configs => exact isSome_insertAll h configs
    | unwatched _ configs => exact isSome_insertAll h configs

/-! ## What a step of the intake can do -/

section

variable {cfg : CopyConfig} {parser : ParserEnv} {defaults : WalletDefaults}

/-- Everything a step of the intake can do. -/
inductive IntakeCase (cfg : CopyConfig) (parser : ParserEnv) (defaults : WalletDefaults)
    (s : Intake) : IntakeEvent → Intake → Prop
  /-- The event is not enabled, or it is an error of the stream. -/
  | idle (e : IntakeEvent) (hidle : s.handed e = []) : IntakeCase cfg parser defaults s e s
  /-- Wallets are added. -/
  | commanded (accounts : List CopyWallet) (env : RegistryEnv) :
      IntakeCase cfg parser defaults s (.command accounts env)
        { s with registry := s.registry.handleCommand defaults env accounts }
  /-- A transaction gets its task. -/
  | delivered (tx : StreamedTransaction) :
      IntakeCase cfg parser defaults s (.deliver (some tx))
        { s with tasks := s.tasks ++ [.loading tx] }
  /-- A transaction is to be copied. -/
  | screened (i : ℕ) (answer : Option (List FetchedAccount)) (tx : StreamedTransaction)
      (t : OriginTrade) (hi : s.tasks[i]? = some (.loading tx))
      (hscreen : screenTxn parser s.registry.walletConfig tx answer = .ok t) :
      IntakeCase cfg parser defaults s (.screen i answer)
        { s with tasks := s.tasks.set i (.sending t) }
  /-- A transaction is not to be copied, or its task panics. -/
  | skipped (i : ℕ) (answer : Option (List FetchedAccount)) (tx : StreamedTransaction)
      (hi : s.tasks[i]? = some (.loading tx))
      (hscreen : ∀ t, screenTxn parser s.registry.walletConfig tx answer ≠ .ok t) :
      IntakeCase cfg parser defaults s (.screen i answer)
        { s with tasks := s.tasks.eraseIdx i }
  /-- The details of a transaction go to the execution queue. -/
  | sent (i : ℕ) (t : OriginTrade) (hi : s.tasks[i]? = some (.sending t))
      (hhanded : s.handed (.send i) = [.wireTxn t]) :
      IntakeCase cfg parser defaults s (.send i)
        { s with service := s.service.wireTxn cfg t, tasks := s.tasks.eraseIdx i }
  /-- The service works on a job, or its main task panics. -/
  | worked (e : ServiceEvent) (hown : e.isDelivery = false)
      (hhanded : s.handed (.work e) = [e]) :
      IntakeCase cfg parser defaults s (.work e) { s with service := s.service.step cfg e }

/-- Every step of the intake is one of these. -/
theorem Intake.step_cases (cfg : CopyConfig) (parser : ParserEnv) (defaults : WalletDefaults)
    (s : Intake) (e : IntakeEvent) :
    IntakeCase cfg parser defaults s e (s.step cfg parser defaults e) := by
  cases e with
  | command accounts env =>
    simp only [step]
    split
    · exact .commanded accounts env
    · exact .idle _ rfl
  | deliver item =>
    cases item with
    | none => exact .idle _ rfl
    | some tx =>
      simp only [step]
      split
      · exact .delivered tx
      · exact .idle _ rfl
  | screen i answer =>
    simp only [step]
    split
    · rename_i tx hi
      split
      · rename_i t hscreen
        exact .screened i answer tx t hi hscreen
      · rename_i hscreen
        exact .skipped i answer tx hi hscreen
    · exact .idle _ rfl
  | send i =>
    simp only [step]
    split
    · rename_i t hi
      exact .sent i t hi (by simp only [handed, hi])
    · rename_i hi
      refine .idle _ ?_
      simp only [handed]
  | work e =>
    simp only [step]
    split
    · rename_i henabled
      have hown : e.isDelivery = false := by
        simpa only [Bool.not_eq_true'] using (Bool.and_eq_true_iff.mp henabled).1
      exact .worked e hown (if_pos henabled)
    · rename_i henabled
      exact .idle _ (if_neg henabled)

/-- A wallet that is copied stays so. -/
theorem Intake.Follows.step {wallet : Pubkey} {s : Intake} (h : s.Follows wallet)
    (e : IntakeEvent) : (s.step cfg parser defaults e).Follows wallet := by
  have hcase := s.step_cases cfg parser defaults e
  generalize s.step cfg parser defaults e = s' at hcase
  cases hcase with
  | commanded accounts env => exact WalletRegistry.isSome_handleCommand h env accounts
  | _ => exact h

/-! ## The intake is a run of the service -/

/-- What a step does to the service is what the service does with what it is handed. -/
theorem Intake.step_service (s : Intake) (e : IntakeEvent) :
    (s.step cfg parser defaults e).service =
      exec (Service.step cfg) s.service (s.handed e) := by
  have hcase := s.step_cases cfg parser defaults e
  generalize s.step cfg parser defaults e = s' at hcase
  cases hcase with
  | idle e hidle => rw [hidle, exec_nil]
  | sent i t hi hhanded =>
    rw [hhanded, exec_cons, exec_nil]
    rfl
  | worked e hown hhanded => rw [hhanded, exec_cons, exec_nil]
  | _ => rfl

end

/-! ## Where copies come from -/

/-- What the trade was made from: a transaction that the stream delivered yields it, and the
configuration it carries is that of a wallet which the service was told to copy. -/
def Intake.Originates (parser : ParserEnv) (defaults : WalletDefaults)
    (initAccounts : List CopyWallet) (events : List IntakeEvent) (t : OriginTrade) : Prop :=
  ∃ before i answer after tx wallet,
    events = before ++ IntakeEvent.screen i answer :: after ∧
    .deliver (some tx) ∈ before ∧ tx.Yields parser answer t ∧
    (wallet ∈ initAccounts ∨ ∃ accounts env, .command accounts env ∈ before ∧ wallet ∈ accounts) ∧
    wallet.configured defaults = some ⟨t.signer, t.walletConfig, wallet.disabled⟩

/-- What was made in a run was made in the longer run. -/
theorem Intake.Originates.append {parser : ParserEnv} {defaults : WalletDefaults}
    {initAccounts : List CopyWallet} {events : List IntakeEvent} {t : OriginTrade}
    (h : Originates parser defaults initAccounts events t) (more : List IntakeEvent) :
    Originates parser defaults initAccounts (events ++ more) t := by
  obtain ⟨before, i, answer, after, tx, wallet, rfl, h⟩ := h
  exact ⟨before, i, answer, after ++ more, tx, wallet, by simp, h⟩

section

variable {cfg : CopyConfig} {parser : ParserEnv} {defaults : WalletDefaults}

/-- Every transaction that waits for its keys was delivered. -/
theorem Intake.loading_delivered (cfg : CopyConfig) (parser : ParserEnv)
    (defaults : WalletDefaults) {s : Intake} {O : StreamedTransaction → Prop}
    (h : ∀ tx, .loading tx ∈ s.tasks → O tx) (e : IntakeEvent) :
    ∀ tx, .loading tx ∈ (s.step cfg parser defaults e).tasks →
      O tx ∨ e = .deliver (some tx) := by
  have hcase := s.step_cases cfg parser defaults e
  generalize s.step cfg parser defaults e = s' at hcase
  intro tx htx
  cases hcase with
  | delivered tx' =>
    rcases List.mem_append.mp htx with hm | hm
    · exact .inl (h tx hm)
    · obtain rfl := IntakeTask.loading.inj (List.mem_singleton.mp hm)
      exact .inr rfl
  | screened i answer tx' t hi hscreen =>
    rcases List.mem_or_eq_of_mem_set htx with hm | hm
    · exact .inl (h tx hm)
    · cases hm
  | skipped i answer tx' hi hscreen => exact .inl (h tx (List.mem_of_mem_eraseIdx htx))
  | sent i t hi hhanded => exact .inl (h tx (List.mem_of_mem_eraseIdx htx))
  | _ => exact .inl (h tx htx)

/-- Every configuration is that of a wallet which was added. -/
theorem Intake.config_added (cfg : CopyConfig) (parser : ParserEnv)
    (defaults : WalletDefaults) {s : Intake} {O : Pubkey × WalletConfig → Prop}
    (h : ∀ wc, s.registry.walletConfig wc.1 = some wc.2 → O wc) (e : IntakeEvent) :
    ∀ wc, (s.step cfg parser defaults e).registry.walletConfig wc.1 = some wc.2 →
      O wc ∨ ∃ accounts env, e = .command accounts env ∧
        ∃ a ∈ accounts, a.configured defaults = some ⟨wc.1, wc.2, a.disabled⟩ := by
  have hcase := s.step_cases cfg parser defaults e
  generalize s.step cfg parser defaults e = s' at hcase
  intro wc hc
  cases hcase with
  | commanded accounts env =>
    rcases WalletRegistry.handleCommand_walletConfig hc with hold | hnew
    · exact .inl (h wc hold)
    · exact .inr ⟨accounts, env, rfl, hnew⟩
  | _ => exact .inl (h wc hc)

/-- What waits for the execution queue, and what the service has taken from it, is of some
kind. -/
structure Intake.Traced (O : OriginTrade → Prop) (s : Intake) : Prop where
  sending : ∀ t, .sending t ∈ s.tasks → O t
  service : s.service.Traced O

theorem Intake.Traced.mono {O O' : OriginTrade → Prop} {s : Intake}
    (hO : ∀ t, O t → O' t) (h : s.Traced O) : s.Traced O' where
  sending t ht := hO t (h.sending t ht)
  service := h.service.mono hO

/-- A trade is brought in when a task has screened its transaction. -/
def Intake.Screens (parser : ParserEnv) (s : Intake) (e : IntakeEvent) (t : OriginTrade) : Prop :=
  ∃ i answer tx, e = .screen i answer ∧ s.tasks[i]? = some (.loading tx) ∧
    screenTxn parser s.registry.walletConfig tx answer = .ok t

/-- A step keeps what everything stems from, besides what it screens. -/
theorem Intake.Traced.step (cfg : CopyConfig) (parser : ParserEnv) (defaults : WalletDefaults)
    {O : OriginTrade → Prop} {s : Intake} (h : s.Traced O) (e : IntakeEvent) :
    (s.step cfg parser defaults e).Traced fun t => O t ∨ s.Screens parser e t := by
  have hcase := s.step_cases cfg parser defaults e
  generalize s.step cfg parser defaults e = s' at hcase
  have hkept : s.Traced fun t => O t ∨ s.Screens parser e t := h.mono fun _ => .inl
  cases hcase with
  | delivered tx =>
    refine ⟨fun t ht => ?_, hkept.service⟩
    rcases List.mem_append.mp ht with hm | hm
    · exact hkept.sending t hm
    · cases List.mem_singleton.mp hm
  | screened i answer tx t hi hscreen =>
    refine ⟨fun t' ht => ?_, hkept.service⟩
    rcases List.mem_or_eq_of_mem_set ht with hm | hm
    · exact hkept.sending t' hm
    · obtain rfl := IntakeTask.sending.inj hm
      exact .inr ⟨i, answer, tx, rfl, hi, hscreen⟩
  | skipped i answer tx hi hscreen =>
    exact ⟨fun t ht => hkept.sending t (List.mem_of_mem_eraseIdx ht), hkept.service⟩
  | sent i t hi hhanded =>
    exact ⟨fun t' ht => hkept.sending t' (List.mem_of_mem_eraseIdx ht),
      hkept.service.enqueue cfg (hkept.sending t (List.mem_of_getElem? hi)) _⟩
  | worked e hown hhanded =>
    exact ⟨hkept.sending, hkept.service.step cfg hown⟩
  | _ => exact ⟨hkept.sending, hkept.service⟩

/-- What was screened in a run was made from a delivered transaction of an added wallet. -/
theorem Intake.originates_of_brought {env : RegistryEnv} {initAccounts : List CopyWallet}
    {shared : Shared} {events : List IntakeEvent} {t : OriginTrade}
    (h : Brought (Intake.step cfg parser defaults) (Screens parser)
      (start defaults env initAccounts shared) events t) :
    Originates parser defaults initAccounts events t := by
  obtain ⟨before, e, after, hevents, i, answer, tx, rfl, hi, hscreen⟩ := h
  obtain ⟨hyields, hconfig⟩ := screenTxn_eq_ok_iff.mp hscreen
  have hdelivered := exec_brought
    (fun O (s : Intake) => ∀ tx, .loading tx ∈ s.tasks → O tx) (fun _ => False)
    (fun _ _ _ hO h tx htx => hO tx (h tx htx))
    (fun _ _ e h => loading_delivered cfg parser defaults h e) before
    (s := start defaults env initAccounts shared) (fun _ htx => absurd htx List.not_mem_nil)
    tx (List.mem_of_getElem? hi)
  have hadded := exec_brought
    (fun O (s : Intake) => ∀ wc : Pubkey × WalletConfig,
      s.registry.walletConfig wc.1 = some wc.2 → O wc)
    (fun wc => ∃ a ∈ initAccounts, a.configured defaults = some ⟨wc.1, wc.2, a.disabled⟩)
    (fun _ _ _ hO h wc hc => hO wc (h wc hc))
    (fun _ _ e h => config_added cfg parser defaults h e) before
    (fun _ hc => start_walletConfig hc) (t.signer, t.walletConfig) hconfig
  have htx : .deliver (some tx) ∈ before := by
    rcases hdelivered with hnever | ⟨before', e, after', rfl, rfl⟩
    · exact hnever.elim
    · simp
  rcases hadded with ⟨wallet, hw, hc⟩ | ⟨before', e, after', hbefore, accounts, env', rfl,
    wallet, hw, hc⟩
  · exact ⟨before, i, answer, after, tx, wallet, hevents, htx, hyields, .inl hw, hc⟩
  · refine ⟨before, i, answer, after, tx, wallet, hevents, htx, hyields, ?_, hc⟩
    exact .inr ⟨accounts, env', by rw [hbefore]; simp, hw⟩

/-- The jobs and the trades of a run were made from transactions of its stream. -/
theorem Intake.traced_run (cfg : CopyConfig) (parser : ParserEnv) (defaults : WalletDefaults)
    (env : RegistryEnv) (initAccounts : List CopyWallet) (shared : Shared)
    (events : List IntakeEvent) :
    (exec (Intake.step cfg parser defaults) (start defaults env initAccounts shared)
      events).Traced (Originates parser defaults initAccounts events) := by
  have hrun := exec_brought Intake.Traced (fun _ => False) (fun _ _ _ hO h => h.mono hO)
    (fun _ _ e h => h.step cfg parser defaults e) events
    (⟨fun _ ht => absurd ht List.not_mem_nil, .init _ shared⟩ :
      (start defaults env initAccounts shared).Traced fun _ => False)
  exact hrun.mono fun t ht => ht.elim False.elim originates_of_brought

end

/-! ## How often a transaction is copied -/

/-- The item is a transaction with some signature. -/
def IntakeEvent.delivers (signature : Signature) : IntakeEvent → Bool
  | .deliver (some tx) => tx.signature == signature
  | _ => false

/-- The task is for the transaction with some signature. -/
def IntakeTask.isFor (signature : Signature) : IntakeTask → Bool
  | .loading tx => tx.signature == signature
  | .sending t => t.signature == signature

/-- The tasks for the transaction with some signature. -/
def Intake.tasksFor (signature : Signature) (s : Intake) : ℕ :=
  tally (fun task => (task.isFor signature).toNat) s.tasks

/-- The delivery is of the transaction with some signature. -/
def ServiceEvent.wires (signature : Signature) : ServiceEvent → Bool
  | .wireTxn t => t.signature == signature
  | _ => false

/-- Only a delivery makes one more job for its transaction. -/
theorem Service.jobsFor_step (cfg : CopyConfig) (signature : Signature) (s : Service)
    (e : ServiceEvent) :
    (s.step cfg e).jobs.countP (Job.isFor signature) ≤
      s.jobs.countP (Job.isFor signature) + (e.wires signature).toNat := by
  cases hown : e.isDelivery with
  | false =>
    have hsame := countP_eq_of_forall₂ (p := Job.isFor signature)
      (fun j j' (hj : j.Continues j') => by simp only [Job.isFor, hj.signature])
      (s.jobs_continue cfg hown)
    rw [hsame]
    exact Nat.le_add_right _ _
  | true =>
    cases e with
    | wireTxn t =>
      have hfor : Job.isFor signature (Job.enqueue (s.hasRoom cfg) (t.details cfg) []) =
          ServiceEvent.wires signature (.wireTxn t) := by
        cases s.hasRoom cfg <;> rfl
      simp only [step, wireTxn, List.countP_append, List.countP_singleton, hfor]
      cases ServiceEvent.wires signature (.wireTxn t) <;> exact Nat.le_refl _
    | _ => cases hown

/-- A run of the service has no more jobs for a transaction than it had deliveries of it. -/
theorem Service.jobsFor_run (cfg : CopyConfig) (signature : Signature) (shared : Shared)
    (events : List ServiceEvent) :
    (exec (Service.step cfg) (init shared) events).jobs.countP (Job.isFor signature) ≤
      events.countP (ServiceEvent.wires signature) := by
  have hrun := exec_le_tally (fun s => s.jobs.countP (Job.isFor signature))
    (fun e => (e.wires signature).toNat) (jobsFor_step cfg signature) (init shared) events
  rw [tally_toNat] at hrun
  exact hrun.trans (Nat.zero_add _).le

/-- A side of a copy is recorded for jobs of its transaction only. -/
theorem Service.Traced.recorded_le {O : OriginTrade → Prop} {s : Service} (h : s.Traced O)
    (signature : Signature) (side : TradeDirection) :
    s.trades.countP (CopyTrade.isSide signature side) ≤ s.jobs.countP (Job.isFor signature) :=
  (h.once signature side).trans (List.countP_mono_left fun _ _ hgone =>
    (Bool.and_eq_true_iff.mp hgone).1)

section

variable {cfg : CopyConfig} {parser : ParserEnv} {defaults : WalletDefaults}

/-- What is handed to the service for a transaction had a task, and its task a delivery. -/
theorem Intake.tasksFor_step (cfg : CopyConfig) (parser : ParserEnv) (defaults : WalletDefaults)
    (signature : Signature) (s : Intake) (e : IntakeEvent) :
    (s.handed e).countP (ServiceEvent.wires signature) +
        (s.step cfg parser defaults e).tasksFor signature ≤
      s.tasksFor signature + (e.delivers signature).toNat := by
  have hcase := s.step_cases cfg parser defaults e
  generalize s.step cfg parser defaults e = s' at hcase
  unfold tasksFor
  cases hcase with
  | idle e hidle =>
    rw [hidle, List.countP_nil]
    omega
  | commanded accounts env => exact (Nat.zero_add _).le
  | delivered tx =>
    simp only [handed, List.countP_nil, tally_append, tally_cons, tally_nil, IntakeTask.isFor,
      IntakeEvent.delivers]
    omega
  | screened i answer tx t hi hscreen =>
    have hset := tally_set (f := fun task : IntakeTask => (task.isFor signature).toNat) hi
      (.sending t)
    have hsame : IntakeTask.isFor signature (.sending t) =
        IntakeTask.isFor signature (.loading tx) := by
      simp only [IntakeTask.isFor, (screenTxn_eq_ok_iff.mp hscreen).1.signature]
    rw [hsame] at hset
    simp only [handed, List.countP_nil]
    omega
  | skipped i answer tx hi hscreen =>
    have herase := tally_eraseIdx (f := fun task : IntakeTask => (task.isFor signature).toNat) hi
    simp only [handed, List.countP_nil]
    omega
  | sent i t hi hhanded =>
    have herase := tally_eraseIdx (f := fun task : IntakeTask => (task.isFor signature).toNat) hi
    have hsame : ServiceEvent.wires signature (.wireTxn t) =
        IntakeTask.isFor signature (.sending t) := rfl
    rw [hhanded, List.countP_singleton, hsame]
    cases hfor : IntakeTask.isFor signature (.sending t) <;>
      simp only [hfor, Bool.toNat_false, Bool.toNat_true, Bool.false_eq_true, if_true,
        if_false] at herase ⊢ <;>
      omega
  | worked e hown hhanded =>
    have hnone : ServiceEvent.wires signature e = false := by
      cases e with
      | wireTxn t => cases hown
      | _ => rfl
    rw [hhanded, List.countP_singleton, hnone]
    simp only [Bool.false_eq_true, if_false]
    omega

/-- A transaction is handed to the service no more often than it was delivered. -/
theorem Intake.handed_le (signature : Signature) (env : RegistryEnv)
    (initAccounts : List CopyWallet) (shared : Shared) (events : List IntakeEvent) :
    (handedAlong (Intake.step cfg parser defaults) handed
        (start defaults env initAccounts shared) events).countP (ServiceEvent.wires signature) ≤
      events.countP (IntakeEvent.delivers signature) := by
  have hrun := countP_handedAlong_le (tasksFor signature)
    (fun e => (e.delivers signature).toNat) (tasksFor_step cfg parser defaults signature)
    (start defaults env initAccounts shared) events
  rw [tally_toNat] at hrun
  exact (Nat.le_add_right _ _).trans (hrun.trans (Nat.zero_add _).le)

/-- The service does in a run of the intake what it does with what it is handed. -/
theorem Intake.service_run (cfg : CopyConfig) (parser : ParserEnv) (defaults : WalletDefaults)
    (env : RegistryEnv) (initAccounts : List CopyWallet)
    (shared : Shared) (events : List IntakeEvent) :
    (exec (Intake.step cfg parser defaults) (start defaults env initAccounts shared)
        events).service =
      exec (Service.step cfg) (.init shared)
        (handedAlong (Intake.step cfg parser defaults) handed
          (start defaults env initAccounts shared) events) :=
  exec_component (I := fun _ => True) (fun _ _ => id) (fun s e _ => s.step_service e) events trivial

/-- What is handed to the service as a delivery was made from a transaction of the stream. -/
theorem Intake.handed_originates {env : RegistryEnv} {initAccounts : List CopyWallet}
    {shared : Shared} {events : List IntakeEvent} {t : OriginTrade}
    (h : .wireTxn t ∈ handedAlong (Intake.step cfg parser defaults) handed
      (start defaults env initAccounts shared) events) :
    Originates parser defaults initAccounts events t := by
  obtain ⟨before, e, after, rfl, hhanded⟩ := exists_of_mem_handedAlong h
  have hsending : .sending t ∈ (exec (Intake.step cfg parser defaults)
      (start defaults env initAccounts shared) before).tasks := by
    cases e with
    | send i =>
      simp only [handed] at hhanded
      split at hhanded
      · rename_i t' hi
        obtain rfl := ServiceEvent.wireTxn.inj (List.mem_singleton.mp hhanded)
        exact List.mem_of_getElem? hi
      · cases hhanded
    | work e =>
      simp only [handed] at hhanded
      split at hhanded
      · rename_i henabled
        obtain rfl := List.mem_singleton.mp hhanded
        exact absurd henabled Bool.false_ne_true
      · cases hhanded
    | _ => cases hhanded
  exact ((traced_run cfg parser defaults env initAccounts shared before).sending t
    hsending).append (e :: after)

end

/-- Every run of the intake is a run of the service, also where the main task panics: what the
tasks hand it are its own steps, every trade delivered to it was made from a transaction of the
stream, and one transaction is delivered to it no more often than the stream delivered it. -/
theorem intake_is_service_run (cfg : CopyConfig) (parser : ParserEnv)
    (defaults : WalletDefaults) (env : RegistryEnv) (initAccounts : List CopyWallet)
    (shared : Shared) (events : List IntakeEvent) :
    let start := Intake.start defaults env initAccounts shared
    let handed := handedAlong (Intake.step cfg parser defaults) Intake.handed start events
    let s := exec (Intake.step cfg parser defaults) start events
    s.service = exec (Service.step cfg) (Service.init shared) handed ∧
      (∀ t, .wireTxn t ∈ handed → Intake.Originates parser defaults initAccounts events t) ∧
      ∀ signature, handed.countP (ServiceEvent.wires signature) ≤
        events.countP (IntakeEvent.delivers signature) := by
  exact ⟨Intake.service_run cfg parser defaults env initAccounts shared events,
    fun t => Intake.handed_originates, fun signature =>
      Intake.handed_le signature env initAccounts shared events⟩

/-- In every run, whatever order the tasks take their steps in and whatever the node answers:
every job and every recorded trade stems from a swap that the first signer of a delivered and
successful transaction made, who is a wallet that the service was told to copy, under the
configuration of that wallet; and there are no more jobs for a transaction, and no more
recorded trades of either side, than the stream delivered it. -/
theorem copies_originate (cfg : CopyConfig) (parser : ParserEnv) (defaults : WalletDefaults)
    (env : RegistryEnv) (initAccounts : List CopyWallet) (shared : Shared)
    (events : List IntakeEvent) :
    let s := exec (Intake.step cfg parser defaults)
      (Intake.start defaults env initAccounts shared) events
    (∀ j ∈ s.service.jobs, ∃ t, Intake.Originates parser defaults initAccounts events t ∧
        j.details.StemsFrom t) ∧
      (∀ trade ∈ s.service.trades, ∃ t,
        Intake.Originates parser defaults initAccounts events t ∧ trade.StemsFrom t) ∧
      ∀ signature,
        s.service.jobs.countP (Job.isFor signature) ≤
            events.countP (IntakeEvent.delivers signature) ∧
          ∀ side, s.service.trades.countP (CopyTrade.isSide signature side) ≤
            events.countP (IntakeEvent.delivers signature) := by
  have htraced := Intake.traced_run cfg parser defaults env initAccounts shared events
  refine ⟨htraced.service.jobs, htraced.service.trades, fun signature => ?_⟩
  have hjobs := Service.jobsFor_run cfg signature shared
    (handedAlong (Intake.step cfg parser defaults) Intake.handed
      (Intake.start defaults env initAccounts shared) events)
  rw [← Intake.service_run] at hjobs
  have hdelivered := hjobs.trans (Intake.handed_le signature env initAccounts shared events)
  exact ⟨hdelivered, fun side => (htraced.service.recorded_le signature side).trans hdelivered⟩

end Biscuit.Copy
