import Biscuit.Models.Parser.Forgery
import Biscuit.Models.Wire.SignaturePages
import Mathlib.Data.List.Destutter

/-!
# Dumps of swaps

`get_swaps_for_wallet2` collects the swaps of a wallet between two times. The swaps that an
earlier call has written to a file are to be taken from there, so that only the rest is searched.
What is parsed is the text of the file's path, though, and the answer is cut out up to and with the
position of the end of the window, whether or not there is a swap at that position.
-/

namespace Biscuit.Analytics.Dump

open Copy Wire

/-- `Swap` -/
structure Swap where
  swap : Parser.ResolvedSwap
  originSigner : Pubkey
  originSignature : Signature
  blockTime : ℤ
  originSolBalance : Option Balance
  originInputMintBalance : Option Balance
  originOutputMintBalance : Option Balance
  deriving DecidableEq, Repr

/-- `WalletSwaps` -/
structure WalletSwaps where
  swaps : List Swap
  deriving DecidableEq, Repr

/-- A transaction as it was fetched, with what `Balance` reads off it for the signer and for a
token of a wallet. -/
structure FetchedTransaction extends Parser.ITransaction where
  signature : Signature
  blockTime : Option ℤ
  /-- Whether it has failed. -/
  err : Bool
  /-- The order in which the map of its inner instructions yields them. -/
  iter : Iteration (List Parser.CompiledInstruction)
  solBalance : Option Balance
  tokenBalance : Pubkey → Pubkey → Option Balance

/-- What a node answers about a wallet, and what the libraries read in its answers. A
transaction has the block time that the history of the wallet gives for its signature. -/
structure Chain where
  history : SignatureHistory
  transaction : Signature → FetchedTransaction
  transaction_signature : ∀ signature, (transaction signature).signature = signature
  transaction_blockTime : ∀ e ∈ history.entries, (transaction e.signature).blockTime = e.blockTime
  /-- The data of an account, if there is one. -/
  accountData : Pubkey → Option Parser.Bytes
  /-- The decimals that `Mint::unpack` finds. -/
  unpackMint : Parser.Bytes → Option ℕ
  decoders : Parser.Decoders

/-- Why no swaps are returned. -/
inductive DumpError
  /-- `start timestamp must be greater than end timestamp` -/
  | window
  /-- What `serde_json` says about a text that is no document of swaps. -/
  | json (message : String)
  /-- `no keys present in txn` -/
  | noKeys
  /-- `blocktime not defined` -/
  | blockTime
  deriving DecidableEq, Repr

/-- `SearchWindow` -/
structure SearchWindow where
  before : Option Signature
  until' : Option Signature
  untilTs : ℤ
  deriving DecidableEq, Repr

namespace Chain

variable (chain : Chain)

/-- The swap in a transaction; one that cannot be parsed is logged and skipped. -/
def parsed (txn : FetchedTransaction) : Outcome DumpError (Option Parser.ResolvedSwap) :=
  match Parser.parseSwapTransaction chain.decoders txn.iter txn.toITransaction with
  | .ok swap => .ok swap
  | .err _ => .ok none
  | .panic => .panic

/-- The transactions that are swaps, each with its swap. -/
def parseSwaps :
    List FetchedTransaction → Outcome DumpError (List (FetchedTransaction × Parser.ResolvedSwap))
  | [] => pure []
  | txn :: txns => do
    let swap ← chain.parsed txn
    let rest ← parseSwaps txns
    pure ((swap.map fun swap => (txn, swap)).toList ++ rest)

/-- The decimals of some mints. The first 82 bytes of an account are unpacked; fewer of them are
a panic. -/
def tokenDecimals (mints : List Pubkey) : Outcome DumpError (Pubkey → Option ℕ) :=
  if mints.any fun mint => (chain.accountData mint).any fun data => data.length < 82 then .panic
  else .ok fun mint => (chain.accountData mint).bind fun data => chain.unpackMint (data.take 82)

/-- The swap with what the dump says about it. -/
def dumpSwap (decimals : Pubkey → Option ℕ) (txn : FetchedTransaction)
    (swap : Parser.ResolvedSwap) : Outcome DumpError Swap := do
  let swap := match decimals swap.inputTokenMint, decimals swap.outputTokenMint with
    | some input, some output => { swap with tokenDecimals := some ⟨input, output⟩ }
    | _, _ => swap
  let originSigner ← Outcome.ofOption .noKeys txn.accountKeys[0]?
  let blockTime ← Outcome.ofOption .blockTime txn.blockTime
  pure {
    swap := swap
    originSigner := originSigner
    originSignature := txn.signature
    blockTime := blockTime
    originSolBalance := txn.solBalance
    originInputMintBalance := txn.tokenBalance originSigner swap.inputTokenMint
    originOutputMintBalance := txn.tokenBalance originSigner swap.outputTokenMint }

/-- The swaps behind some signatures; a failed transaction is none. -/
def dumpSwaps (signatures : List SignatureEntry) : Outcome DumpError (List Swap) := do
  let transactions :=
    (signatures.map fun sig => chain.transaction sig.signature).filter fun txn => !txn.err
  let found ← chain.parseSwaps transactions
  let decimals ← chain.tokenDecimals
    (found.flatMap fun x => [x.2.inputTokenMint, x.2.outputTokenMint])
  found.mapM fun x => dumpSwap decimals x.1 x.2

/-- The signatures in a window, from oldest to newest, as an exact search answers them. -/
def signaturesIn (window : SearchWindow) : List SignatureEntry :=
  chain.history.search window.before window.until' [.blocktime window.untilTs] (some .forward)

end Chain

/-- The windows that are searched besides some swaps. -/
def searchWindows (additional : List Swap) (targetStart targetEnd : ℤ) : List SearchWindow :=
  (if additional.isEmpty then [⟨none, none, targetStart⟩] else []) ++
  (match additional.head? with
    | some swap =>
      if targetStart < swap.blockTime then [⟨some swap.originSignature, none, targetStart⟩] else []
    | none => []) ++
  match additional.getLast? with
    | some swap =>
      if targetEnd > swap.blockTime then [⟨none, some swap.originSignature, swap.blockTime⟩] else []
    | none => []

/-- Whether the window reaches the swaps, so that no swaps are left out between them. -/
def withinBounds (additional : List Swap) (targetStart targetEnd : ℤ) : Bool :=
  (additional.head?.all fun swap => !decide (targetEnd < swap.blockTime)) &&
    additional.getLast?.all fun swap => !decide (targetStart > swap.blockTime)

/-- The times of some signatures: `sig.block_time.unwrap_or(0)`. -/
def timesOf (signatures : List SignatureEntry) : List ℤ :=
  signatures.map fun sig => sig.blockTime.getD 0

/-- The swaps up to the end of the window, with the additional ones: sorted by time, and of
neighbours with one signature only the first. -/
def collectSwaps (search : KeySearch ℤ) (chain : Chain) (additional : List Swap)
    (targetStart targetEnd : ℤ) : Outcome DumpError (List Swap) := do
  let signatures := (searchWindows additional targetStart targetEnd).flatMap chain.signaturesIn
  let idx := search.index (timesOf signatures) targetEnd
  let swaps ← chain.dumpSwaps (signatures.take idx)
  if additional.isEmpty then pure swaps
  else
    let sorted := (swaps ++ additional).insertionSort fun a b => a.blockTime ≤ b.blockTime
    pure (sorted.destutter fun a b => a.originSignature ≠ b.originSignature)

/-- `xs[start..=end]`, which panics when there is no item at the end. -/
def sliceInclusive {α ε : Type} (xs : List α) (start last : ℕ) : Outcome ε (List α) :=
  if start ≤ last + 1 ∧ last < xs.length then .ok ((xs.take (last + 1)).drop start) else .panic

/-- The part of the swaps that is returned. -/
def answer (search : KeySearch ℤ) (swaps : List Swap) (targetStart targetEnd : ℤ) :
    Outcome DumpError (List Swap) :=
  let times := swaps.map Swap.blockTime
  sliceInclusive swaps (search.index times targetStart) (search.index times targetEnd)

/-- The swaps that are known before the search: the text of the path is parsed. -/
def additionalSwaps (fromStr : String → Except String WalletSwaps) :
    Option String → Except String (List Swap)
  | some path => (fromStr path).map WalletSwaps.swaps
  | none => .ok []

/-- What a call does. -/
structure DumpRun where
  /-- What it writes to the file. -/
  written : Option WalletSwaps
  /-- What it returns. -/
  result : Outcome DumpError (List Swap)
  deriving DecidableEq, Repr

/-- `get_swaps_for_wallet2`; the file is written before the answer is cut out. -/
def getSwapsForWallet2 (search : KeySearch ℤ) (fromStr : String → Except String WalletSwaps)
    (chain : Chain) (targetStart targetEnd : ℤ) (appendFilePath : Option String) : DumpRun :=
  if targetStart ≥ targetEnd then ⟨none, .err .window⟩
  else
    match additionalSwaps fromStr appendFilePath with
    | .error message => ⟨none, .err (.json message)⟩
    | .ok additional =>
      match collectSwaps search chain additional targetStart targetEnd with
      | .err error => ⟨none, .err error⟩
      | .panic => ⟨none, .panic⟩
      | .ok swaps =>
        let write := appendFilePath.isSome && withinBounds additional targetStart targetEnd
        ⟨if write then some ⟨swaps⟩ else none, answer search swaps targetStart targetEnd⟩

/-- What a file of swaps is to be: by time, and with every signature once. -/
structure WalletSwaps.WellFormed (content : WalletSwaps) : Prop where
  sorted : (content.swaps.map Swap.blockTime).Pairwise (· ≤ ·)
  once : (content.swaps.map Swap.originSignature).Nodup

/-- A call with a file and one without answer the same swaps, and what the first one writes is
as it is to be. -/
structure Agrees (search : KeySearch ℤ) (fromStr : String → Except String WalletSwaps)
    (chain : Chain) (targetStart targetEnd : ℤ) (path : String) : Prop where
  same : ∃ swaps,
    (getSwapsForWallet2 search fromStr chain targetStart targetEnd (some path)).result = .ok swaps ∧
    (getSwapsForWallet2 search fromStr chain targetStart targetEnd none).result = .ok swaps
  written : ∀ content,
    (getSwapsForWallet2 search fromStr chain targetStart targetEnd (some path)).written =
      some content → content.WellFormed

namespace Chain

variable (chain : Chain)

/-- The signatures of the wallet from a time on. -/
def since (targetStart : ℤ) : List SignatureEntry := chain.signaturesIn ⟨none, none, targetStart⟩

/-- The swap behind a signature. -/
def swapOf (signature : Signature) : Option Parser.ResolvedSwap :=
  if (chain.transaction signature).err then none
  else
    match chain.parsed (chain.transaction signature) with
    | .ok swap => swap
    | _ => none

/-- The transaction of a signature is parsed without a panic; if it is a swap then it has a first
key, and the account of either mint has the size of a mint. -/
structure Readable (signature : Signature) : Prop where
  parsed : (chain.transaction signature).err = false →
    chain.parsed (chain.transaction signature) ≠ .panic
  keys : (chain.swapOf signature).isSome → (chain.transaction signature).accountKeys ≠ []
  mints : ∀ swap, chain.swapOf signature = some swap →
    ∀ mint ∈ [swap.inputTokenMint, swap.outputTokenMint], ∀ data,
      chain.accountData mint = some data → 82 ≤ data.length

/-- The search for the end of the window finds a signature of just that time, and of the ones
before it, which can all be read, one of the same time is a swap. -/
structure EndsOnSwap (search : KeySearch ℤ) (targetStart targetEnd : ℤ) (idx : ℕ) : Prop where
  start_lt : targetStart < targetEnd
  found : search.search (timesOf (chain.since targetStart)) targetEnd = .ok idx
  readable : ∀ e ∈ (chain.since targetStart).take idx, chain.Readable e.signature
  isSwap : ∃ e ∈ (chain.since targetStart).take idx,
    e.blockTime = some targetEnd ∧ (chain.swapOf e.signature).isSome

/-! ## What is read of some signatures -/

variable {chain}

theorem parsed_ne_err (txn : FetchedTransaction) (error : DumpError) :
    chain.parsed txn ≠ .err error := by
  simp only [parsed]
  split <;> nofun

/-- The swaps are found exactly when no transaction makes the parser panic. -/
theorem parseSwaps_eq_ok {txns : List FetchedTransaction}
    {found : List (FetchedTransaction × Parser.ResolvedSwap)} :
    chain.parseSwaps txns = .ok found ↔ (∀ txn ∈ txns, chain.parsed txn ≠ .panic) ∧
      found = txns.flatMap fun txn =>
        match chain.parsed txn with
        | .ok (some swap) => [(txn, swap)]
        | _ => [] := by
  induction txns generalizing found with
  | nil => simp [parseSwaps, eq_comm]
  | cons txn txns ih =>
    rw [parseSwaps, List.forall_mem_cons, List.flatMap_cons]
    cases hp : chain.parsed txn with
    | err error => exact absurd hp (parsed_ne_err txn error)
    | panic => simp
    | ok swap =>
      simp only [Outcome.ok_bind, Outcome.bind_eq_ok, ih, Outcome.pure_eq, Outcome.ok.injEq]
      constructor
      · rintro ⟨rest, ⟨hrest, rfl⟩, rfl⟩
        refine ⟨⟨nofun, hrest⟩, ?_⟩
        cases swap <;> rfl
      · rintro ⟨⟨-, hrest⟩, rfl⟩
        refine ⟨_, ⟨hrest, rfl⟩, ?_⟩
        cases swap <;> rfl

variable (chain) in
/-- The swaps behind some signatures, each with its transaction. -/
def swapsBehind (signatures : List SignatureEntry) :
    List (FetchedTransaction × Parser.ResolvedSwap) :=
  signatures.filterMap fun e =>
    (chain.swapOf e.signature).map fun swap => (chain.transaction e.signature, swap)

theorem mem_swapsBehind {signatures : List SignatureEntry}
    {x : FetchedTransaction × Parser.ResolvedSwap} :
    x ∈ chain.swapsBehind signatures ↔ ∃ e ∈ signatures,
      chain.swapOf e.signature = some x.2 ∧ chain.transaction e.signature = x.1 := by
  rw [swapsBehind, List.mem_filterMap]
  refine exists_congr fun e => and_congr_right fun _ => ?_
  rw [Option.map_eq_some_iff]
  constructor
  · rintro ⟨swap, hswap, rfl⟩
    exact ⟨hswap, rfl⟩
  · rintro ⟨hswap, htx⟩
    exact ⟨x.2, hswap, Prod.ext htx rfl⟩

/-- The swaps behind some signatures are found exactly when none of them makes the parser
panic. -/
theorem parseSwaps_signatures {signatures : List SignatureEntry}
    {found : List (FetchedTransaction × Parser.ResolvedSwap)} :
    chain.parseSwaps ((signatures.map fun sig => chain.transaction sig.signature).filter
        fun txn => !txn.err) = .ok found ↔
      (∀ e ∈ signatures, (chain.transaction e.signature).err = false →
        chain.parsed (chain.transaction e.signature) ≠ .panic) ∧
      found = chain.swapsBehind signatures := by
  rw [parseSwaps_eq_ok]
  apply and_congr
  · simp only [List.mem_filter, List.mem_map, Bool.not_eq_true', and_imp, forall_exists_index]
    constructor
    · intro h e he hok
      exact h _ e he rfl hok
    · rintro h _ e he rfl hok
      exact h e he hok
  · refine Eq.congr rfl ?_
    induction signatures with
    | nil => rfl
    | cons e signatures ih =>
      rw [List.map_cons, List.filter_cons, swapsBehind, List.filterMap_cons, ← swapsBehind, ← ih,
        swapOf]
      cases (chain.transaction e.signature).err with
      | true => rfl
      | false =>
        rw [if_pos (by rfl), List.flatMap_cons, if_neg (by simp)]
        rcases chain.parsed (chain.transaction e.signature) with (_ | swap) | error | -
        · rfl
        · rfl
        · rfl
        · rfl

theorem tokenDecimals_eq_ok {mints : List Pubkey} {decimals : Pubkey → Option ℕ} :
    chain.tokenDecimals mints = .ok decimals ↔
      (∀ mint ∈ mints, ∀ data, chain.accountData mint = some data → 82 ≤ data.length) ∧
      decimals = fun mint =>
        (chain.accountData mint).bind fun data => chain.unpackMint (data.take 82) := by
  have hshort : (mints.any fun mint => (chain.accountData mint).any fun data =>
      data.length < 82) = true ↔
      ¬ ∀ mint ∈ mints, ∀ data, chain.accountData mint = some data → 82 ≤ data.length := by
    simp [Option.any_eq_true]
  rw [tokenDecimals]
  split_ifs with h
  · simp [hshort.mp h]
  · rw [Outcome.ok.injEq, and_iff_right (not_not.mp (mt hshort.mpr h)), eq_comm]

theorem dumpSwap_eq_ok {decimals : Pubkey → Option ℕ} {txn : FetchedTransaction}
    {swap : Parser.ResolvedSwap} {dumped : Swap}
    (h : dumpSwap decimals txn swap = .ok dumped) :
    dumped.originSignature = txn.signature ∧ txn.blockTime = some dumped.blockTime := by
  simp only [dumpSwap, Outcome.bind_eq_ok] at h
  obtain ⟨signer, -, time, htime, hdumped⟩ := h
  cases hb : txn.blockTime with
  | none =>
    rw [hb] at htime
    contradiction
  | some t =>
    rw [hb, Outcome.ofOption_some, Outcome.ok.injEq] at htime
    rw [← Outcome.ok.inj hdumped, htime]
    exact ⟨rfl, rfl⟩

theorem exists_dumpSwap {decimals : Pubkey → Option ℕ} {txn : FetchedTransaction}
    {swap : Parser.ResolvedSwap} (ht : txn.blockTime.isSome) :
    (∃ dumped, dumpSwap decimals txn swap = .ok dumped) ↔ txn.accountKeys ≠ [] := by
  obtain ⟨t, ht⟩ := Option.isSome_iff_exists.mp ht
  rw [dumpSwap, ht]
  cases txn.accountKeys with
  | nil => simp
  | cons key keys => simp

/-- Every swap that is dumped has the signature and the time of the one it was read from. -/
theorem dumped_eq {decimals : Pubkey → Option ℕ} {signatures : List SignatureEntry}
    (hmem : ∀ e ∈ signatures, e ∈ chain.history.entries) {swaps : List Swap}
    (h : (chain.swapsBehind signatures).mapM (fun x => dumpSwap decimals x.1 x.2) = .ok swaps) :
    swaps.map (fun x => (x.originSignature, some x.blockTime)) =
      (signatures.filter fun e => (chain.swapOf e.signature).isSome).map
        fun e => (e.signature, e.blockTime) := by
  have hpairs := (Outcome.mapM_eq_ok.mp h).imp fun x dumped hx => dumpSwap_eq_ok hx
  clear h
  induction signatures generalizing swaps with
  | nil =>
    rw [swapsBehind, List.filterMap_nil, List.forall₂_nil_left_iff] at hpairs
    rw [hpairs]
    rfl
  | cons e signatures ih =>
    obtain ⟨he, hmem⟩ := List.forall_mem_cons.mp hmem
    rw [swapsBehind, List.filterMap_cons] at hpairs
    rw [List.filter_cons]
    cases hswap : chain.swapOf e.signature with
    | none =>
      rw [hswap] at hpairs
      exact ih hmem hpairs
    | some swap =>
      rw [hswap, Option.map_some, List.forall₂_cons_left_iff] at hpairs
      obtain ⟨dumped, swaps, ⟨hsig, ht⟩, hpairs, rfl⟩ := hpairs
      rw [chain.transaction_signature] at hsig
      rw [chain.transaction_blockTime e he] at ht
      rw [if_pos (by rfl), List.map_cons, List.map_cons, ih hmem hpairs, hsig, ht]

/-- Signatures of the wallet whose time is known give swaps exactly when all of them can be
read. -/
theorem exists_dumpSwaps {signatures : List SignatureEntry}
    (hmem : ∀ e ∈ signatures, e ∈ chain.history.entries)
    (hknown : ∀ e ∈ signatures, e.blockTime.isSome) :
    (∃ swaps, chain.dumpSwaps signatures = .ok swaps) ↔
      ∀ e ∈ signatures, chain.Readable e.signature := by
  have htime : ∀ e ∈ signatures, (chain.transaction e.signature).blockTime.isSome := by
    intro e he
    rw [chain.transaction_blockTime e (hmem e he)]
    exact hknown e he
  simp only [dumpSwaps, Outcome.bind_eq_ok, parseSwaps_signatures, tokenDecimals_eq_ok]
  constructor
  · rintro ⟨swaps, _, ⟨hparsed, rfl⟩, _, ⟨hmints, rfl⟩, hswaps⟩ e he
    have hdumped := Outcome.exists_mapM_eq_ok.mp ⟨swaps, hswaps⟩
    have hbehind : ∀ swap, chain.swapOf e.signature = some swap →
        (chain.transaction e.signature, swap) ∈ chain.swapsBehind signatures :=
      fun swap hswap => mem_swapsBehind.mpr ⟨e, he, hswap, rfl⟩
    refine ⟨hparsed e he, fun hswap => ?_, fun swap hswap mint hmint data hdata => ?_⟩
    · obtain ⟨swap, hswap⟩ := Option.isSome_iff_exists.mp hswap
      exact (exists_dumpSwap (htime e he)).mp (hdumped _ (hbehind swap hswap))
    · exact hmints mint (List.mem_flatMap.mpr ⟨_, hbehind swap hswap, hmint⟩) data hdata
  · intro h
    have hmints : ∀ mint ∈ (chain.swapsBehind signatures).flatMap
        fun x => [x.2.inputTokenMint, x.2.outputTokenMint],
        ∀ data, chain.accountData mint = some data → 82 ≤ data.length := by
      intro mint hmint data hdata
      obtain ⟨x, hx, hmint⟩ := List.mem_flatMap.mp hmint
      obtain ⟨e, he, hswap, -⟩ := mem_swapsBehind.mp hx
      exact (h e he).mints x.2 hswap mint hmint data hdata
    have hdumped : ∀ x ∈ chain.swapsBehind signatures, ∃ dumped, dumpSwap (fun mint =>
        (chain.accountData mint).bind fun data => chain.unpackMint (data.take 82)) x.1 x.2 =
          .ok dumped := by
      intro x hx
      obtain ⟨e, he, hswap, htx⟩ := mem_swapsBehind.mp hx
      rw [← htx, exists_dumpSwap (htime e he)]
      exact (h e he).keys (Option.isSome_of_eq_some hswap)
    obtain ⟨swaps, hswaps⟩ := Outcome.exists_mapM_eq_ok.mpr hdumped
    exact ⟨swaps, _, ⟨fun e he => (h e he).parsed, rfl⟩, _, ⟨hmints, rfl⟩, hswaps⟩

theorem dumpSwaps_eq {signatures : List SignatureEntry}
    (hmem : ∀ e ∈ signatures, e ∈ chain.history.entries) {swaps : List Swap}
    (h : chain.dumpSwaps signatures = .ok swaps) :
    swaps.map (fun x => (x.originSignature, some x.blockTime)) =
      (signatures.filter fun e => (chain.swapOf e.signature).isSome).map
        fun e => (e.signature, e.blockTime) := by
  simp only [dumpSwaps, Outcome.bind_eq_ok, parseSwaps_signatures] at h
  obtain ⟨_, ⟨-, rfl⟩, decimals, -, hswaps⟩ := h
  exact dumped_eq hmem hswaps

/-! ## The signatures from a time on -/

theorem since_eq (targetStart : ℤ) : chain.since targetStart =
    (chain.history.entries.takeWhile (SignatureEntry.isSince targetStart)).reverse := by
  have hall : chain.history.between none none = chain.history.entries := by
    rw [SignatureHistory.between, SignatureHistory.start, SignatureHistory.stop]
    exact List.take_length
  rw [since, signaturesIn, SignatureHistory.search, hall]
  rfl

theorem mem_since {targetStart : ℤ} {e : SignatureEntry} (he : e ∈ chain.since targetStart) :
    e ∈ chain.history.entries ∧ ∃ t, e.blockTime = some t ∧ targetStart ≤ t := by
  rw [since_eq, List.mem_reverse] at he
  refine ⟨(List.takeWhile_prefix _).subset he, ?_⟩
  have hsince := List.mem_takeWhile_imp he
  rw [SignatureEntry.isSince, Option.any_eq_true] at hsince
  obtain ⟨t, ht, hle⟩ := hsince
  exact ⟨t, ht, of_decide_eq_true hle⟩

theorem nodup_since (targetStart : ℤ) :
    ((chain.since targetStart).map SignatureEntry.signature).Nodup := by
  rw [since_eq, List.map_reverse, List.nodup_reverse]
  exact ((List.takeWhile_sublist _).map _).nodup chain.history.nodup

theorem pairwise_timesOf_since (targetStart : ℤ) :
    (timesOf (chain.since targetStart)).Pairwise (· ≤ ·) := by
  have hsorted := (chain.history.sorted.sublist
    (List.takeWhile_sublist (SignatureEntry.isSince targetStart)))
  rw [← List.pairwise_reverse, ← since_eq] at hsorted
  rw [timesOf, List.pairwise_map]
  refine hsorted.imp_of_mem fun {older newer} holder hnewer hle => ?_
  obtain ⟨-, t, ht, -⟩ := mem_since holder
  obtain ⟨-, u, hu, -⟩ := mem_since hnewer
  rw [SignatureEntry.time, SignatureEntry.time, ht, hu] at hle
  rw [ht, hu]
  exact WithBot.coe_le_coe.mp hle

/-- The swaps before a position of the signatures from a time on, if these can be read: they are
as a file of them is to be, none is from before that time, and one is from the given time exactly
when one of the signatures is a swap from then. -/
theorem dumpSwaps_since {targetStart : ℤ} {idx : ℕ} {swaps : List Swap}
    (h : chain.dumpSwaps ((chain.since targetStart).take idx) = .ok swaps) :
    (WalletSwaps.mk swaps).WellFormed ∧
      (∀ t ∈ swaps.map Swap.blockTime, t ∈ (timesOf (chain.since targetStart)).take idx) ∧
      ∀ t, t ∈ swaps.map Swap.blockTime ↔ ∃ e ∈ (chain.since targetStart).take idx,
        e.blockTime = some t ∧ (chain.swapOf e.signature).isSome := by
  have hmem : ∀ e ∈ (chain.since targetStart).take idx, e ∈ chain.history.entries :=
    fun e he => (mem_since (List.mem_of_mem_take he)).1
  have hpairs := dumpSwaps_eq hmem h
  have hsigs : swaps.map Swap.originSignature =
      (((chain.since targetStart).take idx).filter fun e => (chain.swapOf e.signature).isSome).map
        SignatureEntry.signature := by
    have hfst := congrArg (List.map Prod.fst) hpairs
    rwa [List.map_map, List.map_map] at hfst
  have htimes : swaps.map Swap.blockTime =
      timesOf (((chain.since targetStart).take idx).filter
        fun e => (chain.swapOf e.signature).isSome) := by
    have hsnd := congrArg (List.map fun x => x.2.getD 0) hpairs
    rwa [List.map_map, List.map_map] at hsnd
  have hsub : (((chain.since targetStart).take idx).filter
      fun e => (chain.swapOf e.signature).isSome).Sublist (chain.since targetStart) :=
    List.filter_sublist.trans (List.take_sublist _ _)
  refine ⟨⟨?_, ?_⟩, ?_, ?_⟩
  · rw [htimes]
    exact (pairwise_timesOf_since targetStart).sublist (hsub.map _)
  · rw [hsigs]
    exact (hsub.map _).nodup (nodup_since targetStart)
  · rw [htimes, timesOf, timesOf, ← List.map_take]
    exact fun t ht => (List.filter_sublist.map _).subset ht
  · intro t
    rw [htimes, timesOf, List.mem_map]
    constructor
    · rintro ⟨e, he, rfl⟩
      obtain ⟨he, hswap⟩ := List.mem_filter.mp he
      obtain ⟨-, u, hu, -⟩ := mem_since (List.mem_of_mem_take he)
      exact ⟨e, he, by rw [hu, Option.getD_some], hswap⟩
    · rintro ⟨e, he, ht, hswap⟩
      exact ⟨e, List.mem_filter.mpr ⟨he, hswap⟩, by rw [ht, Option.getD_some]⟩

end Chain

/-! ## Both calls -/

variable {search : KeySearch ℤ} {fromStr : String → Except String WalletSwaps} {chain : Chain}
  {targetStart targetEnd : ℤ}

/-- Of sorted swaps that do not pass the end of the window something is returned exactly when one
of them is from just then. -/
theorem exists_answer {swaps : List Swap} (hsorted : (swaps.map Swap.blockTime).Pairwise (· ≤ ·))
    (hle : ∀ t ∈ swaps.map Swap.blockTime, t ≤ targetEnd) (hlt : targetStart < targetEnd) :
    (∃ out, answer search swaps targetStart targetEnd = .ok out) ↔
      targetEnd ∈ swaps.map Swap.blockTime := by
  have hslice : (∃ out, answer search swaps targetStart targetEnd = .ok out) ↔
      search.index (swaps.map Swap.blockTime) targetStart ≤
          search.index (swaps.map Swap.blockTime) targetEnd + 1 ∧
        search.index (swaps.map Swap.blockTime) targetEnd < swaps.length := by
    simp only [answer, sliceInclusive]
    split_ifs with h
    · simp [h]
    · simp [h]
  rw [hslice]
  constructor
  · rintro ⟨-, hlast⟩
    by_contra hmem
    cases hs : search.search (swaps.map Swap.blockTime) targetEnd with
    | ok i => exact hmem (List.mem_of_getElem? (search.found hsorted hs))
    | error i =>
      -- without a swap from the end of the window the position is the length
      have hall : (swaps.map Swap.blockTime).countP (· < targetEnd) = swaps.length := by
        rw [← List.length_map (f := Swap.blockTime), List.countP_eq_length]
        exact fun t ht => decide_eq_true (lt_of_le_of_ne (hle t ht) fun h => hmem (h ▸ ht))
      rw [KeySearch.index, hs, (search.missing hsorted hs).2, hall] at hlast
      exact lt_irrefl _ hlast
  · intro hmem
    obtain ⟨i, hs⟩ := search.exists_found hsorted hmem
    have hi := (List.getElem?_eq_some_iff.mp (search.found hsorted hs)).1
    rw [List.length_map] at hi
    have hstart := search.index_le_countP_le hsorted targetStart
    have hend := search.countP_lt_le_index hsorted targetEnd
    have hmono : (swaps.map Swap.blockTime).countP (· ≤ targetStart) ≤
        (swaps.map Swap.blockTime).countP (· < targetEnd) :=
      List.countP_mono_left fun t _ ht =>
        decide_eq_true ((of_decide_eq_true ht).trans_lt hlt)
    rw [search.index_of_found hs] at hend ⊢
    omega

/-- A call whose path can be parsed answers out of what is collected. -/
theorem result_eq {appendFilePath : Option String} {additional : List Swap}
    (h : additionalSwaps fromStr appendFilePath = .ok additional) :
    (getSwapsForWallet2 search fromStr chain targetStart targetEnd appendFilePath).result =
      if targetStart ≥ targetEnd then .err .window
      else collectSwaps search chain additional targetStart targetEnd >>= fun swaps =>
        answer search swaps targetStart targetEnd := by
  simp only [getSwapsForWallet2, h]
  by_cases hle : targetStart ≥ targetEnd
  · rw [if_pos hle, if_pos hle]
  · rw [if_neg hle, if_neg hle]
    cases collectSwaps search chain additional targetStart targetEnd with
    | err error => rfl
    | panic => rfl
    | ok swaps => rfl

/-- It writes nothing but what is collected. -/
theorem collected_of_written {appendFilePath : Option String} {additional : List Swap}
    (h : additionalSwaps fromStr appendFilePath = .ok additional) {content : WalletSwaps}
    (hwritten : (getSwapsForWallet2 search fromStr chain targetStart targetEnd
      appendFilePath).written = some content) :
    collectSwaps search chain additional targetStart targetEnd = .ok content.swaps := by
  simp only [getSwapsForWallet2, h] at hwritten
  by_cases hle : targetStart ≥ targetEnd
  · rw [if_pos hle] at hwritten
    contradiction
  · rw [if_neg hle] at hwritten
    cases hswaps : collectSwaps search chain additional targetStart targetEnd with
    | err error => simp [hswaps] at hwritten
    | panic => simp [hswaps] at hwritten
    | ok swaps =>
      simp only [hswaps, Option.ite_none_right_eq_some, Option.some.injEq] at hwritten
      rw [← hwritten.2]

/-- A path that cannot be parsed ends the call. -/
theorem result_ne_ok {appendFilePath : Option String} {message : String}
    (h : additionalSwaps fromStr appendFilePath = .error message) (swaps : List Swap) :
    (getSwapsForWallet2 search fromStr chain targetStart targetEnd appendFilePath).result ≠
      .ok swaps := by
  simp only [getSwapsForWallet2, h]
  split_ifs <;> nofun

theorem collectSwaps_nil : collectSwaps search chain [] targetStart targetEnd =
    chain.dumpSwaps ((chain.since targetStart).take
      (search.index (timesOf (chain.since targetStart)) targetEnd)) := by
  have hwindows : (searchWindows [] targetStart targetEnd).flatMap chain.signaturesIn =
      chain.since targetStart := List.append_nil _
  rw [collectSwaps, hwindows]
  exact bind_pure _

/-- Swaps that are collected without additional ones are as a file of them is to be, and do not
pass the end of the window. -/
theorem collectSwaps_nil_spec {swaps : List Swap}
    (h : collectSwaps search chain [] targetStart targetEnd = .ok swaps) :
    (WalletSwaps.mk swaps).WellFormed ∧ ∀ t ∈ swaps.map Swap.blockTime, t ≤ targetEnd := by
  rw [collectSwaps_nil] at h
  obtain ⟨hformed, hbefore, -⟩ := Chain.dumpSwaps_since h
  exact ⟨hformed, fun t ht =>
    search.le_of_mem_take (Chain.pairwise_timesOf_since targetStart) (hbefore t ht)⟩

/-- Without additional swaps a call returns exactly when the window ends on a swap before the
signature that the search for its end finds. -/
theorem exists_result_iff {appendFilePath : Option String}
    (h : additionalSwaps fromStr appendFilePath = .ok []) :
    (∃ out, (getSwapsForWallet2 search fromStr chain targetStart targetEnd appendFilePath).result =
      .ok out) ↔ ∃ idx, chain.EndsOnSwap search targetStart targetEnd idx := by
  rw [result_eq h]
  by_cases hlt : targetStart < targetEnd
  · rw [if_neg (not_le.mpr hlt)]
    have hexists : ∀ idx, (∃ swaps, chain.dumpSwaps ((chain.since targetStart).take idx) =
        .ok swaps) ↔ ∀ e ∈ (chain.since targetStart).take idx, chain.Readable e.signature := by
      intro idx
      refine Chain.exists_dumpSwaps (fun e he => (Chain.mem_since (List.mem_of_mem_take he)).1) ?_
      intro e he
      obtain ⟨-, t, ht, -⟩ := Chain.mem_since (List.mem_of_mem_take he)
      exact Option.isSome_of_eq_some ht
    constructor
    · rintro ⟨out, hout⟩
      obtain ⟨swaps, hswaps, hout⟩ := Outcome.bind_eq_ok.mp hout
      obtain ⟨hformed, hle⟩ := collectSwaps_nil_spec hswaps
      have hend := (exists_answer hformed.sorted hle hlt).mp ⟨out, hout⟩
      rw [collectSwaps_nil] at hswaps
      obtain ⟨-, hbefore, htimes⟩ := Chain.dumpSwaps_since hswaps
      obtain ⟨i, hs⟩ := search.exists_found (Chain.pairwise_timesOf_since targetStart)
        (List.mem_of_mem_take (hbefore targetEnd hend))
      rw [search.index_of_found hs] at hswaps htimes
      exact ⟨i, hlt, hs, (hexists i).mp ⟨swaps, hswaps⟩, (htimes targetEnd).mp hend⟩
    · rintro ⟨idx, -, hs, hreadable, hswap⟩
      obtain ⟨swaps, hswaps⟩ := (hexists idx).mpr hreadable
      have hcollect : collectSwaps search chain [] targetStart targetEnd = .ok swaps := by
        rw [collectSwaps_nil, search.index_of_found hs, hswaps]
      obtain ⟨hformed, hle⟩ := collectSwaps_nil_spec hcollect
      have hend := ((Chain.dumpSwaps_since hswaps).2.2 targetEnd).mpr hswap
      obtain ⟨out, hout⟩ := (exists_answer hformed.sorted hle hlt).mpr hend
      exact ⟨out, Outcome.bind_eq_ok.mpr ⟨swaps, hcollect, hout⟩⟩
  · rw [if_pos (not_lt.mp hlt)]
    constructor
    · rintro ⟨out, hout⟩
      contradiction
    · rintro ⟨idx, hends⟩
      exact absurd hends.start_lt hlt

/-- Both calls can agree only if the text of the path itself is a document of swaps, and the window
ends on a swap before the signature that the search for its end finds. If there are no swaps in
that document, then they agree exactly when the window does. -/
theorem agrees_path_iff (search : KeySearch ℤ) (fromStr : String → Except String WalletSwaps)
    (chain : Chain) (targetStart targetEnd : ℤ) (path : String) :
    (Agrees search fromStr chain targetStart targetEnd path →
      (∃ content, fromStr path = .ok content) ∧
        ∃ idx, chain.EndsOnSwap search targetStart targetEnd idx) ∧
    (fromStr path = .ok ⟨[]⟩ →
      (Agrees search fromStr chain targetStart targetEnd path ↔
        ∃ idx, chain.EndsOnSwap search targetStart targetEnd idx)) := by
  have hnone : additionalSwaps fromStr none = .ok [] := rfl
  have honly : Agrees search fromStr chain targetStart targetEnd path →
      (∃ content, fromStr path = .ok content) ∧
        ∃ idx, chain.EndsOnSwap search targetStart targetEnd idx := by
    rintro ⟨⟨swaps, hcached, huncached⟩, -⟩
    refine ⟨?_, (exists_result_iff hnone).mp ⟨swaps, huncached⟩⟩
    cases hpath : fromStr path with
    | ok content => exact ⟨content, rfl⟩
    | error message =>
      have herror : additionalSwaps fromStr (some path) = .error message := by
        rw [additionalSwaps, hpath]
        rfl
      exact absurd hcached (result_ne_ok herror swaps)
  refine ⟨honly, fun hpath => ⟨fun h => (honly h).2, fun hends => ?_⟩⟩
  have hsome : additionalSwaps fromStr (some path) = .ok [] := by
    rw [additionalSwaps, hpath]
    rfl
  obtain ⟨out, hout⟩ := (exists_result_iff hnone).mpr hends
  refine ⟨⟨out, ?_, hout⟩, fun content hwritten => ?_⟩
  · rw [result_eq hsome, ← hout, result_eq hnone]
  · exact (collectSwaps_nil_spec (collected_of_written hsome hwritten)).1

/-- Three swaps, the last two of them at one time. -/
def sampleChain : Chain where
  history :=
    { entries := [⟨2, some 20⟩, ⟨1, some 20⟩, ⟨0, some 10⟩]
      nodup := by decide +kernel
      sorted := by
        simp only [List.pairwise_cons]
        decide }
  transaction signature :=
    { Parser.routeTransaction [] with
      signature := signature
      blockTime := if signature = 0 then some 10 else some 20
      err := false
      iter := .stored _
      solBalance := none
      tokenBalance := fun _ _ => none }
  transaction_signature _ := rfl
  transaction_blockTime := by decide +kernel
  accountData _ := none
  unpackMint _ := none
  decoders := ⟨fun _ => none, fun _ => .error "InvalidInstruction", .binary64⟩

/-- `{"swaps":[]}` -/
def emptyDocument : String := "\x7b\"swaps\":[]\x7d"

/-- What is read of the text of a path. -/
def sampleFromStr (text : String) : Except String WalletSwaps :=
  if text = emptyDocument then .ok ⟨[]⟩ else .error "expected value at line 1 column 1"

/-- A swap of the sample can be read. -/
theorem readable_sampleChain {signature : Signature}
    (hswap : (sampleChain.swapOf signature).isSome)
    (hkeys : (sampleChain.transaction signature).accountKeys ≠ []) :
    sampleChain.Readable signature where
  parsed hok hpanic := by
    rw [Chain.swapOf, hok, hpanic] at hswap
    exact Bool.noConfusion hswap
  keys _ := hkeys
  mints _ _ mint _ data hdata := by
    have hnone : sampleChain.accountData mint = none := rfl
    rw [hnone] at hdata
    cases hdata

theorem endsOnSwap_sampleChain : sampleChain.EndsOnSwap .last 5 20 2 where
  start_lt := by decide
  found := by decide +kernel
  readable := by
    have hkept : (sampleChain.since 5).take 2 = [⟨0, some 10⟩, ⟨1, some 20⟩] := by decide +kernel
    simp only [hkept, List.forall_mem_cons, List.not_mem_nil, false_imp_iff, implies_true,
      and_true]
    exact ⟨readable_sampleChain (by decide +kernel) (by decide +kernel),
      readable_sampleChain (by decide +kernel) (by decide +kernel)⟩
  isSwap := by decide +kernel

/-- A file of swaps that is written under a name that can be parsed, and moved to another one,
makes a call fail that returns without it; and under the first name neither call returns for a
window that ends after all swaps. -/
theorem not_agrees :
    ((getSwapsForWallet2 .last sampleFromStr sampleChain 5 20 (some emptyDocument)).written.isSome ∧
      (∃ swaps, (getSwapsForWallet2 .last sampleFromStr sampleChain 5 20 none).result = .ok swaps) ∧
      ¬ Agrees .last sampleFromStr sampleChain 5 20 "wallet.json") ∧
    ¬ Agrees .last sampleFromStr sampleChain 5 25 emptyDocument := by
  have hpath : additionalSwaps sampleFromStr (some "wallet.json") =
      .error "expected value at line 1 column 1" := by decide +kernel
  have hpanic : (getSwapsForWallet2 .last sampleFromStr sampleChain 5 25
      (some emptyDocument)).result = .panic := by decide +kernel
  refine ⟨⟨by decide +kernel, ?_, ?_⟩, ?_⟩
  · exact (exists_result_iff rfl).mpr ⟨2, endsOnSwap_sampleChain⟩
  · rintro ⟨⟨swaps, hcached, -⟩, -⟩
    exact result_ne_ok hpath swaps hcached
  · rintro ⟨⟨swaps, hcached, -⟩, -⟩
    cases hpanic.symm.trans hcached

/-- Under the name that can be parsed both calls agree while the window ends on a swap. -/
theorem agrees_emptyDocument : Agrees .last sampleFromStr sampleChain 5 20 emptyDocument :=
  ((agrees_path_iff .last sampleFromStr sampleChain 5 20 emptyDocument).2 (by decide +kernel)).mpr
    ⟨2, endsOnSwap_sampleChain⟩

end Biscuit.Analytics.Dump
