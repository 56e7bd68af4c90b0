import Biscuit.Core.Buffered
import Biscuit.Models.Copy.Conversion

/-!
# Fetching many transactions

The transactions of a list of signatures are fetched by tasks that run side by side and share a
cache on disk. In whatever order they get their answers, the result is that of fetching one after
the other from the node, and the cache never holds anything but what the node has.
-/

namespace Biscuit.Wire

open Biscuit.Copy (ConvertedTransaction EncodedMeta TransactionLibrary VersionedTransaction
  toUnifiedTransaction)
open Biscuit.Parser (FetchedAccount lookupAddresses)

/-! ## The cache -/

/-- `EncodedConfirmedTransactionWithStatusMeta`, with the transaction as it decodes. -/
structure EncodedTransaction where
  decoded : Option VersionedTransaction
  statusMeta : Option EncodedMeta
  slot : ℕ
  blockTime : Option ℤ

/-- Why the transactions are not fetched. -/
inductive FetchError
  /-- A file of the cache that is no transaction. -/
  | unreadable
  /-- What the node says instead of a transaction. -/
  | request
  /-- `Failed to decode transaction` -/
  | undecodable
  /-- `Transaction has at least one signature` -/
  | unsigned
  /-- A file is not written. -/
  | write
  /-- `Failed decoding transaction` -/
  | conversion
  deriving DecidableEq, Repr

/-- A file of the cache. -/
inductive CacheFile
  | transaction (tx : EncodedTransaction)
  | unreadable

/-- `FileTxnCache`: a directory of files, each under the text of its signature. -/
structure FileTxnCache where
  files : Text → Option CacheFile

namespace FileTxnCache

/-- `get_transaction` -/
def getTransaction (cache : FileTxnCache) (signature : Signature) :
    Outcome FetchError (Option EncodedTransaction) :=
  match cache.files (Signature.toText signature) with
  | none => pure none
  | some (.transaction tx) => pure (some tx)
  | some .unreadable => .err .unreadable

/-- `insert`, if the file is written. -/
def insert (cache : FileTxnCache) (signature : Signature) (tx : EncodedTransaction) :
    FileTxnCache :=
  ⟨Function.update cache.files (Signature.toText signature) (some (.transaction tx))⟩

theorem files_insert_self (cache : FileTxnCache) (signature : Signature)
    (tx : EncodedTransaction) :
    (cache.insert signature tx).files (Signature.toText signature) = some (.transaction tx) :=
  Function.update_self ..

/-- Each signature has a file of its own. -/
theorem files_insert_of_ne (cache : FileTxnCache) {signature other : Signature}
    (tx : EncodedTransaction) (h : other ≠ signature) :
    (cache.insert signature tx).files (Signature.toText other) =
      cache.files (Signature.toText other) := by
  apply Function.update_of_ne
  intro htext
  have hread := congrArg Signature.ofText htext
  rw [Signature.ofText_toText, Signature.ofText_toText] at hread
  exact h (Option.some.inj hread)

/-- `insert_transaction`; the file may fail to be written. -/
def insertTransaction (cache : FileTxnCache) (tx : EncodedTransaction) (written : Bool) :
    Outcome FetchError FileTxnCache := do
  let decoded ← .ofOption .undecodable tx.decoded
  let signature ← .ofOption .unsigned decoded.signatures.head?
  if written then pure (cache.insert signature tx) else .err .write

end FileTxnCache

/-! ## One task -/

/-- `ITransaction::load_keys`; an error is only logged. -/
def loadKeys (transaction : ConvertedTransaction) (answer : Option (List FetchedAccount)) :
    Outcome FetchError ConvertedTransaction :=
  if transaction.addressTableLookups = [] then pure transaction
  else
    match lookupAddresses answer transaction.addressTableLookups with
    | .ok addresses => pure { transaction with loadedAddresses := some addresses }
    | .err _ => pure transaction
    | .panic => .panic

/-- How far the task of a signature has come. -/
inductive FetchTask
  /-- It is about to look into the cache. -/
  | lookup
  /-- It waits for the node. -/
  | request
  /-- It is about to write to the cache. -/
  | insert (tx : EncodedTransaction)
  /-- It waits for the additional keys. -/
  | keys (transaction : ConvertedTransaction)

/-- What a task may be answered: by the node, about a file it writes, and about lookup tables. -/
structure FetchAnswer where
  transaction : Option EncodedTransaction
  written : Bool
  accounts : Option (List FetchedAccount)

variable (library : TransactionLibrary)

/-- `ITransaction::try_from` for an encoded transaction. -/
def convert (tx : EncodedTransaction) : Outcome FetchError ConvertedTransaction := do
  let transaction ← (toUnifiedTransaction library tx.decoded tx.statusMeta tx.slot
    tx.blockTime).mapError Empty.elim
  .ofOption .conversion transaction

/-- A transaction that was found is converted, and its keys are loaded next. -/
def found (tx : EncodedTransaction) : FetchTask ⊕ Outcome FetchError ConvertedTransaction :=
  match convert library tx with
  | .ok transaction => .inl (.keys transaction)
  | .err e => .inr (.err e)
  | .panic => .inr .panic

/-- One step of the task of a signature. -/
def fetchWork (cache : Option FileTxnCache) (answer : FetchAnswer) (signature : Signature) :
    FetchTask → Option FileTxnCache × (FetchTask ⊕ Outcome FetchError ConvertedTransaction)
  | .lookup =>
    match cache with
    | none => (cache, .inl .request)
    | some files =>
      match files.getTransaction signature with
      | .ok (some tx) => (cache, found library tx)
      | .ok none => (cache, .inl .request)
      | .err e => (cache, .inr (.err e))
      | .panic => (cache, .inr .panic)
  | .request =>
    match answer.transaction with
    | none => (cache, .inr (.err .request))
    | some tx => (cache, if cache.isSome then .inl (.insert tx) else found library tx)
  | .insert tx =>
    match cache with
    | none => (cache, found library tx)
    | some files =>
      match files.insertTransaction tx answer.written with
      | .ok files => (some files, found library tx)
      | .err e => (cache, .inr (.err e))
      | .panic => (cache, .inr .panic)
  | .keys transaction => (cache, .inr (loadKeys transaction answer.accounts))

/-! ## The stream of tasks -/

/-- `CONCURRENT_GET_TRANSACTION_REQUESTS` -/
def concurrentGetTransactionRequests : ℕ := 20

/-- A result that is an error ends `get_transactions_for_signatures` when it comes out; a task that
panics is polled within `stream.next()` and ends it at once. -/
def fetchSystem : TaskSystem (Option FileTxnCache) FetchAnswer Signature FetchTask
    (Outcome FetchError ConvertedTransaction) where
  start _ := .lookup
  work := fetchWork library
  stops
    | .ok _ => false
    | _ => true
  unwinds
    | .panic => true
    | _ => false
  stops_of_unwinds r h := by
    cases r with
    | ok transaction => cases h
    | err e => rfl
    | panic => rfl

/-- A state of `get_transactions_for_signatures`. -/
abbrev Fetching :=
  Buffered (Option FileTxnCache) Signature FetchTask (Outcome FetchError ConvertedTransaction)

/-- `get_transactions_for_signatures`: what it has come to after some events. -/
def getTransactionsForSignatures (concurrency : Option ℕ) (cache : Option FileTxnCache)
    (signatures : List Signature) (events : List (BufferedEvent FetchAnswer)) : Fetching :=
  exec (Buffered.step (fetchSystem library) (concurrency.getD concurrentGetTransactionRequests))
    (Buffered.init cache signatures) events

/-- What it returns in the end. -/
def Fetching.transactions (s : Fetching) (filter : Option (ConvertedTransaction → Bool)) :
    Outcome FetchError (List ConvertedTransaction) := do
  let transactions ← s.yielded.mapM Prod.snd
  match filter with
  | some filter => pure (transactions.filter filter)
  | none => pure transactions

/-! ## What the tasks find -/

/-- What the node has: each transaction under its first signature. -/
structure HasSigned (node : Signature → EncodedTransaction) : Prop where
  signed : ∀ signature tx, (node signature).decoded = some tx →
    tx.signatures.head? = some signature

/-- A cache holds only what the node has. -/
def Truthful (node : Signature → EncodedTransaction) (cache : Option FileTxnCache) : Prop :=
  ∀ files ∈ cache, ∀ signature tx,
    files.files (Signature.toText signature) = some (.transaction tx) → tx = node signature

/-- The node answers a request with what it has, or not at all. -/
def Honest (node : Signature → EncodedTransaction) (signature : Signature) (_ : FetchTask)
    (answer : FetchAnswer) : Prop :=
  ∀ tx, answer.transaction = some tx → tx = node signature

/-- The transaction of a signature, converted, with additional keys if they could be loaded. -/
def Fetched (node : Signature → EncodedTransaction) (signature : Signature)
    (transaction : ConvertedTransaction) : Prop :=
  ∃ converted answer, convert library (node signature) = .ok converted ∧
    loadKeys converted answer = .ok transaction

/-- What a task that is under way has found so far. -/
def Finding (node : Signature → EncodedTransaction) (signature : Signature) : FetchTask → Prop
  | .lookup => True
  | .request => True
  | .insert tx => tx = node signature
  | .keys transaction => convert library (node signature) = .ok transaction

section Tasks

variable {library} {node : Signature → EncodedTransaction}

theorem Truthful.getTransaction {files : FileTxnCache} (h : Truthful node (some files))
    {signature : Signature} {tx : EncodedTransaction}
    (hget : files.getTransaction signature = .ok (some tx)) : tx = node signature := by
  unfold FileTxnCache.getTransaction at hget
  split at hget
  · cases hget
  · rename_i tx' hfile
    obtain rfl := Option.some.inj (Outcome.ok.inj hget)
    exact h files rfl signature tx' hfile
  · cases hget

/-- A transaction of the node is written under its own signature. -/
theorem Truthful.insertTransaction (hnode : HasSigned node) {files files' : FileTxnCache}
    (h : Truthful node (some files)) {signature : Signature} {written : Bool}
    (hinsert : files.insertTransaction (node signature) written = .ok files') :
    Truthful node (some files') := by
  obtain ⟨decoded, hdecoded, hinsert⟩ := Outcome.bind_eq_ok.mp hinsert
  obtain ⟨first, hfirst, hinsert⟩ := Outcome.bind_eq_ok.mp hinsert
  rw [Outcome.ofOption_eq_ok] at hdecoded hfirst
  rw [hnode.signed signature decoded hdecoded] at hfirst
  obtain rfl := Option.some.inj hfirst
  split at hinsert
  · obtain rfl := Outcome.ok.inj hinsert
    intro files' hfiles' other tx hfile
    obtain rfl := Option.some.inj hfiles'
    by_cases hsame : other = signature
    · rw [hsame, FileTxnCache.files_insert_self] at hfile
      rw [hsame]
      exact (CacheFile.transaction.inj (Option.some.inj hfile)).symm
    · rw [FileTxnCache.files_insert_of_ne _ _ hsame] at hfile
      exact h files rfl other tx hfile
  · cases hinsert

theorem finding_found (signature : Signature) :
    Sum.elim (Finding library node signature)
      (fun r => ∀ transaction, r = .ok transaction → Fetched library node signature transaction)
      (found library (node signature)) := by
  unfold found
  cases hconvert : convert library (node signature) with
  | ok transaction => exact hconvert
  | err e => exact fun _ h => by cases h
  | panic => exact fun _ h => by cases h

/-- A step of a task keeps the cache truthful, and finds what the node has. -/
theorem finding_fetchWork (hnode : HasSigned node) (cache : Option FileTxnCache)
    (answer : FetchAnswer) (signature : Signature) (task : FetchTask)
    (hcache : Truthful node cache) (htask : Finding library node signature task)
    (hanswer : Honest node signature task answer) :
    Truthful node (fetchWork library cache answer signature task).1 ∧
      Sum.elim (Finding library node signature)
        (fun r => ∀ transaction, r = .ok transaction → Fetched library node signature transaction)
        (fetchWork library cache answer signature task).2 := by
  cases task with
  | lookup =>
    cases cache with
    | none => exact ⟨hcache, trivial⟩
    | some files =>
      simp only [fetchWork]
      split
      · rename_i tx hget
        rw [hcache.getTransaction hget]
        exact ⟨hcache, finding_found signature⟩
      · exact ⟨hcache, trivial⟩
      · exact ⟨hcache, fun _ h => by cases h⟩
      · exact ⟨hcache, fun _ h => by cases h⟩
  | request =>
    simp only [fetchWork]
    split
    · exact ⟨hcache, fun _ h => by cases h⟩
    · rename_i tx htx
      have hfound := hanswer tx htx
      refine ⟨hcache, ?_⟩
      split
      · exact hfound
      · rw [hfound]
        exact finding_found signature
  | insert tx =>
    obtain rfl : tx = node signature := htask
    cases cache with
    | none => exact ⟨hcache, finding_found signature⟩
    | some files =>
      simp only [fetchWork]
      split
      · rename_i files' hinsert
        exact ⟨hcache.insertTransaction hnode hinsert, finding_found signature⟩
      · exact ⟨hcache, fun _ h => by cases h⟩
      · exact ⟨hcache, fun _ h => by cases h⟩
  | keys transaction =>
    exact ⟨hcache, fun t ht => ⟨transaction, answer.accounts, htask, ht⟩⟩

/-- How many steps a task may still take before its last one. -/
def FetchTask.rank : FetchTask → ℕ
  | .lookup => 3
  | .request => 2
  | .insert _ => 1
  | .keys _ => 0

theorem rank_found {tx : EncodedTransaction} {next : FetchTask}
    (h : found library tx = .inl next) : next.rank = 0 := by
  unfold found at h
  split at h
  · obtain rfl := Sum.inl.inj h
    rfl
  · cases h
  · cases h

theorem rank_fetchWork (cache : Option FileTxnCache) (answer : FetchAnswer)
    (signature : Signature) (task next : FetchTask)
    (h : (fetchWork library cache answer signature task).2 = .inl next) :
    next.rank < task.rank := by
  cases task with
  | lookup =>
    cases cache with
    | none =>
      obtain rfl := Sum.inl.inj h
      decide
    | some files =>
      simp only [fetchWork] at h
      split at h
      · rw [rank_found h]
        decide
      · obtain rfl := Sum.inl.inj h
        decide
      · cases h
      · cases h
  | request =>
    simp only [fetchWork] at h
    split at h
    · cases h
    · split at h
      · obtain rfl := Sum.inl.inj h
        exact Nat.lt_succ_self 1
      · rw [rank_found h]
        exact Nat.succ_pos 1
  | insert tx =>
    cases cache with
    | none =>
      rw [rank_found h]
      exact Nat.succ_pos 0
    | some files =>
      simp only [fetchWork] at h
      split at h
      · rw [rank_found h]
        exact Nat.succ_pos 0
      · cases h
      · cases h
  | keys transaction => cases h

end Tasks

/-! ## What is returned -/

section Returned

variable {library} {node : Signature → EncodedTransaction}

/-- Results that let the stream go on are transactions. -/
theorem exists_ok_of_not_stops {r : Outcome FetchError ConvertedTransaction}
    (h : (fetchSystem library).stops r = false) : ∃ transaction, r = .ok transaction := by
  cases r with
  | ok transaction => exact ⟨transaction, rfl⟩
  | err e => cases h
  | panic => cases h

/-- A stream of transactions only has a transaction of the node for every signature. -/
theorem exists_fetched {yielded : List (Signature × Outcome FetchError ConvertedTransaction)}
    (hgood : ∀ y ∈ yielded, (fetchSystem library).stops y.2 = false)
    (hfetched : ∀ y ∈ yielded, ∀ transaction, y.2 = .ok transaction →
      Fetched library node y.1 transaction) :
    ∃ transactions, yielded.mapM Prod.snd = .ok transactions ∧
      List.Forall₂ (Fetched library node) (yielded.map Prod.fst) transactions := by
  have hok : ∀ y ∈ yielded, ∃ transaction, Prod.snd y = .ok transaction := fun y hy =>
    exists_ok_of_not_stops (hgood y hy)
  obtain ⟨transactions, hmap⟩ := Outcome.exists_mapM_eq_ok.mpr hok
  refine ⟨transactions, hmap, ?_⟩
  rw [List.forall₂_map_left_iff]
  have hall := (List.forall₂_and_left _ _).mpr ⟨hfetched, Outcome.mapM_eq_ok.mp hmap⟩
  exact hall.imp fun y transaction ⟨h, heq⟩ => h transaction heq

end Returned

/-- However the tasks that fetch transactions interleave, and whatever the node leaves unanswered,
the cache holds only what the node has, no more tasks than allowed are under way, each signature
takes a few steps, and the end is always within reach. What is returned in the end is what the node
has for each signature in turn, filtered; or the failure of the first signature that fails; or the
panic of a task, which passes over the signatures before its own that are still under way. -/
theorem getTransactionsForSignatures_exact (library : TransactionLibrary)
    {node : Signature → EncodedTransaction} (hnode : HasSigned node)
    {cache : Option FileTxnCache} (hcache : Truthful node cache) (concurrency : Option ℕ)
    (signatures : List Signature) (filter : Option (ConvertedTransaction → Bool))
    {events : List (BufferedEvent FetchAnswer)}
    (hanswers : Along
      (Buffered.step (fetchSystem library) (concurrency.getD concurrentGetTransactionRequests))
      (Buffered.Answers (Honest node)) (Buffered.init cache signatures) events) :
    let limit := concurrency.getD concurrentGetTransactionRequests
    let s := getTransactionsForSignatures library concurrency cache signatures events
    Truthful node s.shared ∧ s.window.length ≤ limit ∧
      countAlong (Buffered.step (fetchSystem library) limit) (Buffered.works limit)
        (Buffered.init cache signatures) events ≤ 6 * signatures.length ∧
      (0 < limit → ∃ more : List (BufferedEvent FetchAnswer),
        (∀ e ∈ more, ∀ i a, e = .work i a → ∀ x t, Honest node x t a) ∧
          (getTransactionsForSignatures library concurrency cache signatures
            (events ++ more)).Done) ∧
      (s.Done →
        (∃ transactions, List.Forall₂ (Fetched library node) signatures transactions ∧
          s.transactions filter =
            .ok (filter.elim transactions fun keeps => transactions.filter keeps)) ∨
        ∃ before passed x rest r, signatures = before ++ passed ++ x :: rest ∧
          (∃ transactions, List.Forall₂ (Fetched library node) before transactions) ∧
          s.yielded.getLast? = some (x, r) ∧
          ((∃ e, r = .err e ∧ passed = [] ∧ s.transactions filter = .err e) ∨
            r = .panic ∧ s.transactions filter = .panic)) := by
  intro limit s
  have hkeeps : Buffered.Keeps (Truthful node) (Finding library node)
      (fun signature r => ∀ transaction, r = .ok transaction →
        Fetched library node signature transaction) s :=
    Buffered.keeps_exec (fun _ => trivial) (finding_fetchWork hnode)
      (Buffered.keeps_init hcache signatures) hanswers
  have hordered : Buffered.Ordered (fetchSystem library) limit signatures s :=
    Buffered.ordered_exec cache signatures events
  have hrank : ∀ (cache : Option FileTxnCache) answer signature (task next : FetchTask),
      ((fetchSystem library).work cache answer signature task).2 = .inl next →
        next.rank < task.rank := rank_fetchWork
  have hbound : ∀ signature, ((fetchSystem library).start signature).rank ≤ 3 :=
    fun _ => Nat.le_refl 3
  refine ⟨hkeeps.shared, hordered.room, ?_, fun hlimit => ?_, fun hdone => ?_⟩
  · exact Buffered.countAlong_works_le hbound hrank cache signatures events
  · obtain ⟨more, hmore, hend⟩ :=
      Buffered.exists_exec_done hbound hrank hlimit ⟨none, true, none⟩ s
    refine ⟨more, fun e he i a hwork x t tx htx => ?_, ?_⟩
    · rw [hmore e he i a hwork] at htx
      cases htx
    · rw [getTransactionsForSignatures, exec_append]
      exact hend
  · obtain ⟨hinputs, hgood⟩ | ⟨before, passed, x, r, rest, hyielded, hstops, hgood, hinputs,
      hpassed⟩ := hordered.of_done hdone
    · left
      obtain ⟨transactions, hmap, hall⟩ := exists_fetched hgood hkeeps.yielded
      rw [hinputs] at hall
      refine ⟨transactions, hall, ?_⟩
      rw [Fetching.transactions, hmap, Outcome.ok_bind]
      cases filter <;> rfl
    · right
      obtain ⟨transactions, hmap, hall⟩ := exists_fetched hgood fun y hy =>
        hkeeps.yielded y (hyielded ▸ List.mem_append_left _ hy)
      have hresult : s.yielded.mapM Prod.snd = r >>= fun t => pure (transactions ++ [t]) := by
        rw [hyielded, List.mapM_append, hmap, Outcome.ok_bind]
        simp
      refine ⟨before.map Prod.fst, passed, x, rest, r, hinputs, ⟨transactions, hall⟩, ?_, ?_⟩
      · rw [hyielded, List.getLast?_concat]
      · cases r with
        | ok transaction => cases hstops
        | err e =>
          left
          refine ⟨e, rfl, hpassed rfl, ?_⟩
          rw [Fetching.transactions, hresult]
          rfl
        | panic =>
          right
          refine ⟨rfl, ?_⟩
          rw [Fetching.transactions, hresult]
          rfl

/-- A node that has the same message under every signature. -/
def sampleNode (signature : Signature) : EncodedTransaction :=
  ⟨some ⟨[signature], Copy.sampleMessage⟩, none, 3, none⟩

/-- The transaction of the second signature is found first. -/
def sampleFetch : List (BufferedEvent FetchAnswer) :=
  let silent : FetchAnswer := ⟨none, true, none⟩
  [.start, .start, .work 0 silent, .work 1 silent, .work 1 ⟨some (sampleNode 78), true, none⟩,
    .work 1 silent, .work 1 silent, .yield, .work 0 ⟨some (sampleNode 77), true, none⟩,
    .work 0 silent, .work 0 silent, .yield, .yield]

theorem getTransactionsForSignatures_exact_sample :
    ∃ transactions, List.Forall₂ (Fetched Copy.sampleLibrary sampleNode) [77, 78] transactions ∧
      Fetching.transactions (getTransactionsForSignatures Copy.sampleLibrary none
        (some ⟨fun _ => none⟩) [77, 78] sampleFetch) none = .ok transactions := by
  have hnode : HasSigned sampleNode := by
    refine ⟨fun signature tx h => ?_⟩
    obtain rfl := Option.some.inj h
    rfl
  have hcache : Truthful sampleNode (some ⟨fun _ => none⟩) := by
    intro files hfiles signature tx h
    obtain rfl := Option.some.inj hfiles
    cases h
  have hsilent : ∀ signature t, Honest sampleNode signature t ⟨none, true, none⟩ :=
    fun _ _ _ h => by cases h
  have hanswers : Along (Buffered.step (fetchSystem Copy.sampleLibrary) 20)
      (Buffered.Answers (Honest sampleNode))
      (Buffered.init (some ⟨fun _ => none⟩) [77, 78]) sampleFetch := by
    refine ⟨trivial, trivial, fun x t _ => hsilent x t, fun x t _ => hsilent x t, ?_,
      fun x t _ => hsilent x t, fun x t _ => hsilent x t, trivial, ?_,
      fun x t _ => hsilent x t, fun x t _ => hsilent x t, trivial, trivial, trivial⟩
    · intro x t hx tx htx
      have htask : ((78 : Signature), Sum.inl FetchTask.request) = (x, .inl t) :=
        Option.some.inj hx
      rw [← (Prod.mk.inj htask).1]
      exact (Option.some.inj htx).symm
    · intro x t hx tx htx
      have htask : ((77 : Signature), Sum.inl FetchTask.request) = (x, .inl t) :=
        Option.some.inj hx
      rw [← (Prod.mk.inj htask).1]
      exact (Option.some.inj htx).symm
  obtain ⟨-, -, -, -, hreturned⟩ := getTransactionsForSignatures_exact Copy.sampleLibrary hnode
    hcache none [77, 78] none hanswers
  obtain h | ⟨_, _, _, _, r, -, -, hlast, hfailed⟩ := hreturned ⟨rfl, rfl⟩
  · exact h
  · obtain rfl := (Prod.mk.inj (Option.some.inj hlast)).2
    obtain ⟨e, he, -⟩ | ⟨hpanic, -⟩ := hfailed
    · cases he
    · cases hpanic

end Biscuit.Wire
