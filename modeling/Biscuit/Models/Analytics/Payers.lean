import Biscuit.Models.Analytics.Dump

/-!
# Who pays for the swaps of a wallet

`get_swaps_for_wallet` fetches the transactions that mention a wallet, from a cache or from a node,
and is to keep those that the wallet has paid for. The pattern that should compare the payer with
the wallet binds a new name, so that every payer passes, and the swap is put down to whoever paid.
-/

namespace Biscuit.Analytics.Dump

open Copy Wire

/-- Why no swaps of a wallet are returned. -/
inductive WalletError
  /-- `underflow` -/
  | underflow
  /-- `Transactions exceeded limit of {}` -/
  | exceededLimit (limit : ℕ)
  /-- `Signatures are of length {}, exceeding {}` -/
  | tooManySignatures (length limit : ℕ)
  /-- What a cache or a node says about a transaction. -/
  | fetch (message : String)
  | dump (error : DumpError)
  deriving DecidableEq, Repr

/-- What a cache and a node answer about transactions, once they are converted. -/
structure TransactionSource (chain : Chain) where
  /-- `cache.get_transaction`, if there is a cache. -/
  cache : Option (Signature → Outcome WalletError (Option FetchedTransaction))
  /-- `client.get_transaction_with_config` -/
  request : Signature → Outcome WalletError FetchedTransaction
  /-- `cache.insert_transaction` -/
  insert : FetchedTransaction → Outcome WalletError Unit
  cache_eq : ∀ get ∈ cache, ∀ signature txn, get signature = .ok (some txn) →
    txn = chain.transaction signature
  request_eq : ∀ signature txn, request signature = .ok txn → txn = chain.transaction signature

/-- A transaction from the cache, or else from the node; the cache keeps it then. -/
def TransactionSource.fetch {chain : Chain} (source : TransactionSource chain)
    (signature : Signature) : Outcome WalletError FetchedTransaction :=
  match source.cache with
  | some get => do
    match ← get signature with
    | some transaction => pure transaction
    | none => do
      let tx ← source.request signature
      source.insert tx
      pure tx
  | none => source.request signature

/-- `get_transactions_for_signatures` -/
def getTransactionsForSignatures {chain : Chain} (source : TransactionSource chain)
    (signatures : List Signature) (filter : Option (FetchedTransaction → Bool)) :
    Outcome WalletError (List FetchedTransaction) := do
  let transactions ← signatures.mapM source.fetch
  match filter with
  | some filter => pure (transactions.filter filter)
  | none => pure transactions

/-- The filter of `get_swaps_for_wallet`. -/
def passesFilter (tx : FetchedTransaction) : Bool :=
  -- `matches!(tx.account_keys().get(0).copied(), Some(wallet))` does not read `wallet`.
  !tx.err && tx.accountKeys[0]?.isSome

/-- A search that ended because of the limit is refused. -/
def checkTermination (transactionLimit : Option ℕ) (termination : TerminationReason) :
    Outcome WalletError Unit :=
  match transactionLimit with
  | some limit => if termination = .n then .err (.exceededLimit limit) else pure ()
  | none => pure ()

/-- So are more signatures than the limit. -/
def checkLength (transactionLimit : Option ℕ) (length : ℕ) : Outcome WalletError Unit :=
  match transactionLimit with
  | some limit => if length > limit then .err (.tooManySignatures length limit) else pure ()
  | none => pure ()

/-- The part of `get_swaps_for_wallet` after the search for signatures. A signature comes with the
error of its transaction. -/
def dumpWallet {chain : Chain} (source : TransactionSource chain) (transactionLimit : Option ℕ)
    (signatures : List SignatureEntry) (termination : TerminationReason) :
    Outcome WalletError (List Swap) := do
  checkTermination transactionLimit termination
  let signatures := signatures.filter fun sig => !(chain.transaction sig.signature).err
  checkLength transactionLimit signatures.length
  let transactions ← getTransactionsForSignatures source
    (signatures.map SignatureEntry.signature) (some passesFilter)
  let found ← (chain.parseSwaps transactions).mapError .dump
  let decimals ← (chain.tokenDecimals
    (found.flatMap fun x => [x.2.inputTokenMint, x.2.outputTokenMint])).mapError .dump
  (found.mapM fun x => Chain.dumpSwap decimals x.1 x.2).mapError .dump

/-- The signatures that `get_swaps_for_wallet` searches for. -/
def searchWallet {history : SignatureHistory} (client : SignatureClient history) (fuel : ℕ)
    (since : ℤ) (untilSignature : Option Signature) (transactionLimit : Option ℕ) :
    Option (List SignatureEntry × TerminationReason) :=
  let limits := .blocktime since :: (transactionLimit.map TransactionHistoryLimit.n).toList
  getSignaturesForAddress client fuel none untilSignature limits (some .forward)

/-- `get_swaps_for_wallet`; no answer means that the search runs out of fuel. -/
def getSwapsForWallet {chain : Chain} (client : SignatureClient chain.history)
    (source : TransactionSource chain) (fuel currentTimestamp durationDays : ℕ)
    (untilSignature : Option Signature) (transactionLimit : Option ℕ) :
    Option (Outcome WalletError (List Swap)) :=
  let durationInSecs := wrapU64 (durationDays * 24 * 60 * 60)
  if currentTimestamp < durationInSecs then some (.err .underflow)
  else
    (searchWallet client fuel (currentTimestamp - durationInSecs) untilSignature
      transactionLimit).map fun (signatures, termination) =>
        dumpWallet source transactionLimit signatures termination

/-! ## What is fetched -/

section

variable {chain : Chain} {source : TransactionSource chain}

/-- A cache and a node answer the same transaction. -/
theorem fetch_eq {signature : Signature} {txn : FetchedTransaction}
    (h : source.fetch signature = .ok txn) : txn = chain.transaction signature := by
  rw [TransactionSource.fetch] at h
  cases hcache : source.cache with
  | none =>
    rw [hcache] at h
    exact source.request_eq signature txn h
  | some get =>
    rw [hcache] at h
    obtain ⟨found, hfound, h⟩ := Outcome.bind_eq_ok.mp h
    cases found with
    | some transaction =>
      rw [← Outcome.ok.inj h]
      exact source.cache_eq get hcache signature transaction hfound
    | none =>
      obtain ⟨tx, htx, h⟩ := Outcome.bind_eq_ok.mp h
      obtain ⟨_, -, h⟩ := Outcome.bind_eq_ok.mp h
      rw [← Outcome.ok.inj h]
      exact source.request_eq signature tx htx

/-- What is fetched are the transactions that pass the filter. -/
theorem getTransactionsForSignatures_eq_ok {signatures : List Signature}
    {filter : FetchedTransaction → Bool} {transactions : List FetchedTransaction}
    (h : getTransactionsForSignatures source signatures (some filter) = .ok transactions) :
    transactions = (signatures.map chain.transaction).filter filter := by
  obtain ⟨fetched, hfetched, h⟩ := Outcome.bind_eq_ok.mp h
  have heq : List.Forall₂ (fun signature txn => chain.transaction signature = txn) signatures
      fetched := (Outcome.mapM_eq_ok.mp hfetched).imp fun _ _ htxn => (fetch_eq htxn).symm
  rw [← List.forall₂_map_left_iff (R := Eq), List.forall₂_eq_eq_eq] at heq
  rw [← Outcome.ok.inj h, heq]

/-- A transaction of some signatures that has not failed, has a first key and is a swap. -/
def IsFound (chain : Chain) (signatures : List SignatureEntry)
    (x : FetchedTransaction × Parser.ResolvedSwap) : Prop :=
  ∃ e ∈ signatures, chain.transaction e.signature = x.1 ∧ x.1.err = false ∧
    x.1.accountKeys[0]?.isSome = true ∧ chain.parsed x.1 = .ok (some x.2)

theorem mem_parseSwaps_iff {signatures : List SignatureEntry}
    {found : List (FetchedTransaction × Parser.ResolvedSwap)}
    (h : chain.parseSwaps (((signatures.filter fun sig =>
      !(chain.transaction sig.signature).err).map SignatureEntry.signature).map
        chain.transaction |>.filter passesFilter) = .ok found)
    (x : FetchedTransaction × Parser.ResolvedSwap) :
    x ∈ found ↔ IsFound chain signatures x := by
  obtain ⟨-, rfl⟩ := Chain.parseSwaps_eq_ok.mp h
  simp only [List.mem_flatMap, List.mem_filter, List.mem_map, passesFilter, IsFound]
  constructor
  · rintro ⟨txn, ⟨⟨_, ⟨e, ⟨he, -⟩, rfl⟩, rfl⟩, hpass⟩, hx⟩
    rw [Bool.and_eq_true, Bool.not_eq_true'] at hpass
    cases hparsed : chain.parsed (chain.transaction e.signature) with
    | err error => rw [hparsed] at hx; cases hx
    | panic => rw [hparsed] at hx; cases hx
    | ok swap =>
      cases swap with
      | none => rw [hparsed] at hx; cases hx
      | some swap =>
        rw [hparsed] at hx
        obtain rfl := List.mem_singleton.mp hx
        exact ⟨e, he, rfl, hpass.1, hpass.2, hparsed⟩
  · rintro ⟨e, he, htxn, herr, hkey, hparsed⟩
    refine ⟨x.1, ⟨⟨e.signature, ⟨e, ⟨he, ?_⟩, rfl⟩, htxn⟩, ?_⟩, ?_⟩
    · rw [htxn, herr]
      rfl
    · rw [herr, hkey]
      rfl
    · rw [hparsed]
      exact List.mem_singleton.mpr rfl

/-- What a call that returns has found and dumped. -/
theorem dumpWallet_eq_ok {transactionLimit : Option ℕ} {signatures : List SignatureEntry}
    {termination : TerminationReason} {swaps : List Swap}
    (h : dumpWallet source transactionLimit signatures termination = .ok swaps) :
    ∃ (decimals : Pubkey → Option ℕ) (found : List (FetchedTransaction × Parser.ResolvedSwap)),
      (∀ x, x ∈ found ↔ IsFound chain signatures x) ∧
      (found.mapM fun x => Chain.dumpSwap decimals x.1 x.2) = .ok swaps := by
  simp only [dumpWallet, Outcome.bind_eq_ok, Outcome.mapError_eq_ok] at h
  obtain ⟨_, -, _, -, transactions, htransactions, found, hfound, decimals, -, hdumped⟩ := h
  rw [getTransactionsForSignatures_eq_ok htransactions] at hfound
  exact ⟨decimals, found, mem_parseSwaps_iff hfound, hdumped⟩

/-- A swap that is dumped is put down to the first key of its transaction. -/
theorem dumpSwap_signer {decimals : Pubkey → Option ℕ} {txn : FetchedTransaction}
    {swap : Parser.ResolvedSwap} {dumped : Swap}
    (h : Chain.dumpSwap decimals txn swap = .ok dumped) :
    txn.accountKeys[0]? = some dumped.originSigner ∧
      dumped.swap = { swap with tokenDecimals := dumped.swap.tokenDecimals } := by
  simp only [Chain.dumpSwap, Outcome.bind_eq_ok] at h
  obtain ⟨signer, hsigner, time, -, hdumped⟩ := h
  rw [← Outcome.ok.inj hdumped]
  refine ⟨?_, ?_⟩
  · cases hkey : txn.accountKeys[0]? with
    | none => rw [hkey] at hsigner; cases hsigner
    | some key => rw [hkey] at hsigner; rw [Outcome.ok.inj hsigner]
  · cases decimals swap.inputTokenMint <;> cases decimals swap.outputTokenMint <;> rfl

/-- Every swap that is found is among the results. -/
theorem exists_dumped_of_isFound {transactionLimit : Option ℕ} {signatures : List SignatureEntry}
    {termination : TerminationReason} {swaps : List Swap}
    (h : dumpWallet source transactionLimit signatures termination = .ok swaps)
    {x : FetchedTransaction × Parser.ResolvedSwap} (hx : IsFound chain signatures x) :
    ∃ s ∈ swaps, s.originSignature = x.1.signature ∧
      x.1.accountKeys[0]? = some s.originSigner ∧
      s.swap = { x.2 with tokenDecimals := s.swap.tokenDecimals } := by
  obtain ⟨decimals, found, hfound, hdumped⟩ := dumpWallet_eq_ok h
  obtain ⟨s, hs, hdump⟩ := Outcome.exists_mem_of_mapM hdumped ((hfound x).mpr hx)
  obtain ⟨hsigner, hswap⟩ := dumpSwap_signer hdump
  exact ⟨s, hs, (Chain.dumpSwap_eq_ok hdump).1, hsigner, hswap⟩

/-- Every result is the swap of a transaction that is found. -/
theorem exists_isFound_of_dumped {transactionLimit : Option ℕ} {signatures : List SignatureEntry}
    {termination : TerminationReason} {swaps : List Swap}
    (h : dumpWallet source transactionLimit signatures termination = .ok swaps) {s : Swap}
    (hs : s ∈ swaps) : ∃ x, IsFound chain signatures x ∧
      x.1.accountKeys[0]? = some s.originSigner := by
  obtain ⟨decimals, found, hfound, hdumped⟩ := dumpWallet_eq_ok h
  obtain ⟨x, hx, hdump⟩ := Outcome.exists_of_mem_mapM hdumped hs
  exact ⟨x, (hfound x).mp hx, (dumpSwap_signer hdump).1⟩

/-- A swap is of a transaction and has its amounts and its mints. -/
def Swap.IsOf (s : Swap) (txn : FetchedTransaction) (swap : Parser.ResolvedSwap) : Prop :=
  s.originSignature = txn.signature ∧ s.swap = { swap with tokenDecimals := s.swap.tokenDecimals }

/-- The results are the wallet's own: all of them have it as their signer, and of the transactions
that it has paid for no swap is missing. -/
structure BelongsTo (chain : Chain) (wallet : Pubkey) (signatures : List SignatureEntry)
    (swaps : List Swap) : Prop where
  signer : ∀ s ∈ swaps, s.originSigner = wallet
  complete : ∀ e ∈ signatures, ∀ swap, (chain.transaction e.signature).err = false →
    (chain.transaction e.signature).accountKeys[0]? = some wallet →
    chain.parsed (chain.transaction e.signature) = .ok (some swap) →
    ∃ s ∈ swaps, s.IsOf (chain.transaction e.signature) swap

/-- The results are the wallet's own exactly when nobody else has paid for a swap. -/
theorem dumpWallet_belongsTo_iff {transactionLimit : Option ℕ} {signatures : List SignatureEntry}
    {termination : TerminationReason} {swaps : List Swap}
    (h : dumpWallet source transactionLimit signatures termination = .ok swaps)
    (wallet : Pubkey) :
    BelongsTo chain wallet signatures swaps ↔
      ∀ e ∈ signatures, ∀ swap payer, (chain.transaction e.signature).err = false →
        chain.parsed (chain.transaction e.signature) = .ok (some swap) →
        (chain.transaction e.signature).accountKeys[0]? = some payer → payer = wallet := by
  constructor
  · intro hbelongs e he swap payer herr hparsed hpayer
    have hkey : (chain.transaction e.signature).accountKeys[0]?.isSome = true :=
      Option.isSome_iff_exists.mpr ⟨payer, hpayer⟩
    have hfound : IsFound chain signatures (chain.transaction e.signature, swap) :=
      ⟨e, he, rfl, herr, hkey, hparsed⟩
    obtain ⟨s, hs, -, hsigner, -⟩ := exists_dumped_of_isFound h hfound
    rw [← hbelongs.signer s hs]
    exact Option.some.inj (hpayer.symm.trans hsigner)
  · intro hpayers
    refine ⟨?_, ?_⟩
    · intro s hs
      obtain ⟨x, ⟨e, he, htxn, herr, -, hparsed⟩, hsigner⟩ := exists_isFound_of_dumped h hs
      rw [← htxn] at herr hparsed hsigner
      exact hpayers e he x.2 s.originSigner herr hparsed hsigner
    · intro e he swap herr hpayer hparsed
      have hkey : (chain.transaction e.signature).accountKeys[0]?.isSome = true :=
        Option.isSome_iff_exists.mpr ⟨wallet, hpayer⟩
      have hfound : IsFound chain signatures (chain.transaction e.signature, swap) :=
        ⟨e, he, rfl, herr, hkey, hparsed⟩
      obtain ⟨s, hs, hsignature, -, hswap⟩ := exists_dumped_of_isFound h hfound
      exact ⟨s, hs, hsignature, hswap⟩

/-- The swaps of a call that returns are the wallet's own exactly when nobody else has paid for a
transaction that mentions it and is a swap. -/
theorem getSwapsForWallet_belongsTo_iff {chain : Chain} (client : SignatureClient chain.history)
    (source : TransactionSource chain) (wallet : Pubkey)
    (fuel currentTimestamp durationDays : ℕ) (untilSignature : Option Signature)
    (transactionLimit : Option ℕ) (signatures : List SignatureEntry)
    (termination : TerminationReason)
    (hsearch : searchWallet client fuel (currentTimestamp - wrapU64 (durationDays * 24 * 60 * 60))
      untilSignature transactionLimit = some (signatures, termination))
    (swaps : List Swap)
    (h : getSwapsForWallet client source fuel currentTimestamp durationDays untilSignature
      transactionLimit = some (.ok swaps)) :
    BelongsTo chain wallet signatures swaps ↔
      ∀ e ∈ signatures, ∀ swap payer, (chain.transaction e.signature).err = false →
        chain.parsed (chain.transaction e.signature) = .ok (some swap) →
        (chain.transaction e.signature).accountKeys[0]? = some payer → payer = wallet := by
  have hdump : dumpWallet source transactionLimit signatures termination = .ok swaps := by
    simp only [getSwapsForWallet, hsearch, Option.map_some] at h
    by_cases hunderflow : currentTimestamp < wrapU64 (durationDays * 24 * 60 * 60)
    · rw [if_pos hunderflow] at h
      cases h
    · rw [if_neg hunderflow] at h
      exact Option.some.inj h
  exact dumpWallet_belongsTo_iff hdump wallet

end

/-- A source without a cache, all of whose requests succeed. -/
def Chain.answering (chain : Chain) : TransactionSource chain where
  cache := none
  request signature := .ok (chain.transaction signature)
  insert _ := .ok ()
  cache_eq _ h := by cases h
  request_eq _ _ h := (Outcome.ok.inj h).symm

/-- A single swap that some account has paid for and that mentions another one. -/
def paidChain (payer mentioned : Pubkey) : Chain where
  history :=
    { entries := [⟨0, some 10⟩]
      nodup := List.nodup_singleton _
      sorted := List.pairwise_singleton _ _ }
  transaction signature :=
    { instructions := [⟨2, [], []⟩]
      staticAccountKeys := [payer, mentioned, Parser.jupiterAggregatorV6ProgramId]
      loadedAddresses := none
      statusMeta := none
      innerInstructions := some (AList.insert 0 [Parser.swapEventCpi 1 3] ∅)
      signature := signature
      blockTime := some 10
      err := false
      iter := .stored _
      solBalance := none
      tokenBalance := fun _ _ => none }
  transaction_signature _ := rfl
  transaction_blockTime _ he := by rw [List.mem_singleton.mp he]
  accountData _ := none
  unpackMint _ := none
  decoders := ⟨fun _ => none, fun _ => .error "InvalidInstruction", .binary64⟩

/-- What is returned for it. -/
def paidSwap (payer : Pubkey) : Swap where
  swap :=
    { inputAmount := 1000000
      outputAmount := 2
      inputTokenMint := 0x0202020202020202020202020202020202020202020202020202020202020202#256
      outputTokenMint := 0x0303030303030303030303030303030303030303030303030303030303030303#256
      tokenDecimals := none
      owner := none
      provider := .jupiter }
  originSigner := payer
  originSignature := 0
  blockTime := 10
  originSolBalance := none
  originInputMintBalance := none
  originOutputMintBalance := none

theorem searchWallet_paidChain :
    searchWallet (paidChain 7 8).history.fullPages 3 (86405 - wrapU64 (1 * 24 * 60 * 60)) none
      none = some ([⟨0, some 10⟩], .untilSig) := by
  decide +kernel

theorem getSwapsForWallet_paidChain :
    getSwapsForWallet (paidChain 7 8).history.fullPages (paidChain 7 8).answering 3 86405 1 none
      none = some (.ok [paidSwap 7]) := by
  decide +kernel

/-- The only transaction is paid by the account that is asked for. -/
theorem getSwapsForWallet_ownPayer :
    BelongsTo (paidChain 7 8) 7 [⟨0, some 10⟩] [paidSwap 7] := by
  refine (getSwapsForWallet_belongsTo_iff _ _ 7 3 86405 1 none none _ _ searchWallet_paidChain _
    getSwapsForWallet_paidChain).mpr ?_
  intro e he swap payer _ _ hpayer
  rw [List.mem_singleton.mp he] at hpayer
  exact (Option.some.inj hpayer).symm

/-- Another account has paid for the only transaction that mentions the wallet; its swap is returned
for the wallet. -/
theorem getSwapsForWallet_otherPayer :
    ¬ ∀ (chain : Chain) (client : SignatureClient chain.history)
      (source : TransactionSource chain) (wallet : Pubkey) (fuel currentTimestamp durationDays : ℕ)
      (untilSignature : Option Signature) (transactionLimit : Option ℕ)
      (signatures : List SignatureEntry) (termination : TerminationReason) (swaps : List Swap),
      (∀ e ∈ chain.history.entries, wallet ∈ (chain.transaction e.signature).accountKeys) →
      searchWallet client fuel (currentTimestamp - wrapU64 (durationDays * 24 * 60 * 60))
        untilSignature transactionLimit = some (signatures, termination) →
      getSwapsForWallet client source fuel currentTimestamp durationDays untilSignature
        transactionLimit = some (.ok swaps) →
      BelongsTo chain wallet signatures swaps := by
  intro h
  have hmentioned : ∀ e ∈ (paidChain 7 8).history.entries,
      8 ∈ ((paidChain 7 8).transaction e.signature).accountKeys := by
    intro e _
    exact List.mem_cons_of_mem _ (List.mem_cons_self ..)
  have hbelongs := h _ _ _ 8 3 86405 1 none none _ _ _ hmentioned searchWallet_paidChain
    getSwapsForWallet_paidChain
  have hsigner := hbelongs.signer (paidSwap 7) (List.mem_singleton_self _)
  exact absurd hsigner (by decide +kernel)

end Biscuit.Analytics.Dump
