import Biscuit.Core.Run
import Biscuit.Core.Table
import Biscuit.Models.Chain.Keys

/-!
# The polling watch task

One task watches one address over RPC: it remembers the newest signature it has seen,
asks for the signatures newer than that one, fetches their transactions and keeps those
whose fetch failed for the polls to come. The chain grows between its steps.
-/

namespace Biscuit.Wire

/-- `MAX_RETRY_SIGNATURE_ATTEMPTS` -/
def maxRetrySignatureAttempts : ℕ := 3

/-- The most signatures that one `getSignaturesForAddress` call returns. -/
def maxSignaturesPerCall : ℕ := 1000

/-! ## The chain -/

/-- What the chain tells about one signature of an address. -/
structure SignatureInfo where
  signature : Signature
  slot : ℕ
  /-- Whether the transaction has an error. -/
  hasErr : Bool
  deriving DecidableEq, Repr

/-- The key of a signature in the retry map. -/
def SignatureInfo.key (i : SignatureInfo) : Signature × ℕ := (i.signature, i.slot)

/-- The signatures of an address, newest first. -/
structure AddressHistory where
  infos : List SignatureInfo
  nodup : (infos.map SignatureInfo.signature).Nodup

namespace AddressHistory

/-- The signatures of the address, newest first. -/
def signatures (h : AddressHistory) : List Signature := h.infos.map SignatureInfo.signature

/-- One more transaction lands; a signature lands once. -/
def land (h : AddressHistory) (i : SignatureInfo) : AddressHistory :=
  if hi : i.signature ∈ h.infos.map SignatureInfo.signature then h
  else ⟨i :: h.infos, List.nodup_cons.mpr ⟨hi, h.nodup⟩⟩

/-- What is strictly newer than a signature. -/
def newer (h : AddressHistory) (last : Signature) : List SignatureInfo :=
  h.infos.takeWhile fun i => decide (i.signature ≠ last)

/-- What is not: the signature itself and everything before it. -/
def older (h : AddressHistory) (last : Signature) : List SignatureInfo :=
  h.infos.dropWhile fun i => decide (i.signature ≠ last)

end AddressHistory

/-! ## The task -/

/-- The settings of the task. -/
structure WatchConfig where
  maxInitialSignatureRetries : ℕ
  ignoreErrorTransactions : Bool

/-- Whether a signature passes the error filter. -/
def WatchConfig.accepts (cfg : WatchConfig) (i : SignatureInfo) : Bool :=
  !cfg.ignoreErrorTransactions || !i.hasErr

/-- The state of the task, with what its run has seen and done. -/
structure WatchTask where
  history : AddressHistory
  /-- Attempts at the initial signature that are still to be made. -/
  attemptsLeft : ℕ
  lastSeen : Option Signature
  retrySignatures : Table (Signature × ℕ) ℕ
  exitSignal : Bool
  /-- The signature the initial fetch came back with. -/
  initial : Option Signature
  /-- The accepted signatures newer than the initial one that the RPC knew at the last
  successful signature fetch. -/
  known : List Signature
  /-- The signatures whose transactions went to the stream. -/
  sent : List Signature
  /-- The signatures of failed transaction fetches, once for each failure. -/
  failures : List Signature

/-- The answers one poll gets. -/
structure PollEnv where
  /-- Whether the signature fetch succeeds. -/
  answers : Bool
  /-- Whether the transaction is fetched, converted and has its keys loaded. -/
  fetched : Signature × ℕ → Bool
  /-- The order in which the retry map yields its keys. -/
  iter : Iteration (Signature × ℕ)

/-- What happens next. -/
inductive WatchEvent
  /-- A transaction of the address lands. -/
  | land (i : SignatureInfo)
  /-- One attempt at the initial signature. -/
  | fetchInitial (answers : Bool)
  /-- One iteration of the polling loop. -/
  | poll (env : PollEnv)
  /-- The exit signal is set. -/
  | exit

namespace WatchTask

/-- The task before its first attempt. -/
def start (cfg : WatchConfig) (h : AddressHistory) : WatchTask :=
  ⟨h, cfg.maxInitialSignatureRetries, none, ∅, false, none, [], [], []⟩

/-- One attempt at the initial signature. All attempts are made, and the last one that
finds a signature wins. -/
def fetchInitial (w : WatchTask) (answers : Bool) : WatchTask :=
  match w.attemptsLeft with
  | 0 => w
  | n + 1 =>
    let last := if answers then w.history.signatures.head? <|> w.lastSeen else w.lastSeen
    { w with attemptsLeft := n, lastSeen := last, initial := last }

/-- What one call returns, past the error filter, newest first. -/
def page (cfg : WatchConfig) (h : AddressHistory) (last : Signature) :
    List SignatureInfo :=
  ((h.newer last).take maxSignaturesPerCall).filter cfg.accepts

/-- The keys that an iteration fetches: the page, then the retry map. -/
def signatures (page : List SignatureInfo) (retry : Table (Signature × ℕ) ℕ)
    (iter : Iteration (Signature × ℕ)) : List (Signature × ℕ) :=
  page.map SignatureInfo.key ++ iter.order retry.keys

/-- The accepted signatures newer than the initial one. -/
def knownNow (cfg : WatchConfig) (w : WatchTask) : List Signature :=
  match w.initial with
  | none => []
  | some first => ((w.history.newer first).filter cfg.accepts).map SignatureInfo.signature

/-- The entries of the retry map that are tried once more. -/
def retained (w : WatchTask) : Table (Signature × ℕ) ℕ :=
  w.retrySignatures.retain fun _ attempts => decide (attempts ≤ maxRetrySignatureAttempts)

/-- One result of the transaction fetches. A success leaves the retry map as it is. -/
def record (fetched : Signature × ℕ → Bool) (w : WatchTask) (key : Signature × ℕ) :
    WatchTask :=
  if fetched key then { w with sent := w.sent ++ [key.1] }
  else
    { w with
      retrySignatures := w.retrySignatures.modifyOrInsert key (· + 1) 1
      failures := w.failures ++ [key.1] }

/-- The part of an iteration after the signature fetch has succeeded. -/
def pollFrom (cfg : WatchConfig) (w : WatchTask) (last : Signature) (env : PollEnv) :
    WatchTask :=
  match page cfg w.history last with
  | [] => { w with known := knownNow cfg w }
  | newest :: rest =>
    -- the RPC orders from newest to oldest, the stream is chronological
    (signatures (newest :: rest) w.retained env.iter).reverse.foldl (record env.fetched)
      { w with
        known := knownNow cfg w
        lastSeen := some newest.signature
        retrySignatures := w.retained }

/-- One iteration of the polling loop. The loop is only entered with a signature. -/
def poll (cfg : WatchConfig) (w : WatchTask) (env : PollEnv) : WatchTask :=
  match w.attemptsLeft, w.lastSeen with
  | 0, some last => if w.exitSignal || !env.answers then w else pollFrom cfg w last env
  | _, _ => w

/-- One step. -/
def step (cfg : WatchConfig) (w : WatchTask) : WatchEvent → WatchTask
  | .land i => { w with history := w.history.land i }
  | .fetchInitial answers => w.fetchInitial answers
  | .poll env => w.poll cfg env
  | .exit => { w with exitSignal := true }

/-- An iteration of the loop gets past its signature fetch. -/
def Polls (w : WatchTask) (last : Signature) (env : PollEnv) : Prop :=
  w.attemptsLeft = 0 ∧ w.lastSeen = some last ∧ w.exitSignal = false ∧ env.answers = true

/-- The entries at or behind the newest one the task has seen. -/
def seen (w : WatchTask) : List SignatureInfo :=
  match w.lastSeen with
  | none => []
  | some last => w.history.older last

/-! ## What the results of one poll do -/

/-- The signatures of the keys whose fetch succeeds. -/
def delivered (fetched : Signature × ℕ → Bool) (keys : List (Signature × ℕ)) :
    List Signature :=
  (keys.filter fetched).map Prod.fst

/-- The signatures of the keys whose fetch fails. -/
def missed (fetched : Signature × ℕ → Bool) (keys : List (Signature × ℕ)) :
    List Signature :=
  (keys.filter fun key => !fetched key).map Prod.fst

/-- Recording distinct keys sends those that were fetched, and counts one failure more for
each of the others; nothing else changes. -/
theorem foldl_record (fetched : Signature × ℕ → Bool) {keys : List (Signature × ℕ)}
    (hkeys : keys.Nodup) (w : WatchTask) :
    ∃ retry : Table (Signature × ℕ) ℕ,
      keys.foldl (record fetched) w =
        { w with
          sent := w.sent ++ delivered fetched keys
          failures := w.failures ++ missed fetched keys
          retrySignatures := retry } ∧
      (∀ key ∈ keys, fetched key = false →
        retry.lookup key = some ((w.retrySignatures.lookup key).elim 1 (· + 1))) ∧
      ∀ key, key ∉ keys ∨ fetched key = true →
        retry.lookup key = w.retrySignatures.lookup key := by
  induction keys generalizing w with
  | nil =>
    refine ⟨w.retrySignatures, ?_, fun key hmem => absurd hmem List.not_mem_nil,
      fun _ _ => rfl⟩
    simp [delivered, missed]
  | cons key keys ih =>
    obtain ⟨hnot, hnodup⟩ := List.nodup_cons.mp hkeys
    obtain ⟨retry, heq, hfail, hkeep⟩ := ih hnodup (record fetched w key)
    rw [List.foldl_cons]
    refine ⟨retry, heq.trans ?_, ?_, ?_⟩
    · cases hf : fetched key <;> simp [record, hf, delivered, missed]
    · intro key' hmem hf
      rcases List.mem_cons.mp hmem with rfl | htail
      · rw [hkeep key' (.inl hnot)]
        simp only [record, hf, Bool.false_eq_true, if_false, Table.lookup_modifyOrInsert]
      · have hne : key' ≠ key := by
          rintro rfl
          exact hnot htail
        rw [hfail key' htail hf]
        cases hk : fetched key <;> simp only [record, hk, if_true, Bool.false_eq_true,
          if_false, Table.lookup_modifyOrInsert_ne hne]
    · intro key' hor
      have hrest : key' ∉ keys ∨ fetched key' = true :=
        hor.imp_left fun h hmem => h (List.mem_cons_of_mem _ hmem)
      rw [hkeep key' hrest]
      cases hk : fetched key with
      | true => simp only [record, hk, if_true]
      | false =>
        have hne : key' ≠ key := by
          rintro rfl
          rcases hor with h | h
          · exact h List.mem_cons_self
          · rw [hk] at h
            cases h
        simp only [record, hk, Bool.false_eq_true, if_false,
          Table.lookup_modifyOrInsert_ne hne]

theorem mem_delivered {fetched : Signature × ℕ → Bool} {keys : List (Signature × ℕ)}
    {sig : Signature} :
    sig ∈ delivered fetched keys ↔ ∃ key ∈ keys, fetched key = true ∧ key.1 = sig := by
  simp only [delivered, List.mem_map, List.mem_filter, and_assoc]

theorem mem_missed {fetched : Signature × ℕ → Bool} {keys : List (Signature × ℕ)}
    {sig : Signature} :
    sig ∈ missed fetched keys ↔ ∃ key ∈ keys, fetched key = false ∧ key.1 = sig := by
  simp only [missed, List.mem_map, List.mem_filter, Bool.not_eq_true', and_assoc]

end WatchTask

/-! ## A page and what is newer than it -/

namespace AddressHistory

theorem newer_append_older (h : AddressHistory) (last : Signature) :
    h.newer last ++ h.older last = h.infos := List.takeWhile_append_dropWhile

/-- What is newer than a signature is not among what is not. -/
theorem newer_ne_older {h : AddressHistory} {last : Signature} {i j : SignatureInfo}
    (hi : i ∈ h.newer last) (hj : j ∈ h.older last) : i.signature ≠ j.signature := by
  have hn := h.nodup
  rw [← h.newer_append_older last, List.map_append] at hn
  exact (List.nodup_append.mp hn).2.2 _ (List.mem_map_of_mem hi) _ (List.mem_map_of_mem hj)

/-- Two entries of one signature are the same entry. -/
theorem eq_of_signature {h : AddressHistory} {i j : SignatureInfo} (hi : i ∈ h.infos)
    (hj : j ∈ h.infos) (hs : i.signature = j.signature) : i = j :=
  List.inj_on_of_nodup_map h.nodup hi hj hs

theorem mem_infos_of_mem_older {h : AddressHistory} {last : Signature} {i : SignatureInfo}
    (hi : i ∈ h.older last) : i ∈ h.infos :=
  (List.dropWhile_sublist _).subset hi

theorem mem_infos_of_mem_newer {h : AddressHistory} {last : Signature} {i : SignatureInfo}
    (hi : i ∈ h.newer last) : i ∈ h.infos :=
  (List.takeWhile_sublist _).subset hi

/-- A landing transaction leaves what is not newer than a known signature as it is. -/
theorem older_land {h : AddressHistory} {last : Signature} (hl : last ∈ h.signatures)
    (i : SignatureInfo) : (h.land i).older last = h.older last := by
  unfold land
  split
  · rfl
  · rename_i hi
    have hne : i.signature ≠ last := by
      rintro rfl
      exact hi hl
    simp only [older]
    rw [List.dropWhile_cons_of_pos (by simpa using hne)]

/-- From the newest entry back there is everything. -/
theorem older_head {h : AddressHistory} {i : SignatureInfo} (hi : h.infos.head? = some i) :
    h.older i.signature = h.infos := by
  obtain ⟨infos, hn⟩ := h
  cases infos with
  | nil => cases hi
  | cons j infos =>
    obtain rfl : j = i := by simpa using hi
    simp only [older]
    rw [List.dropWhile_cons_of_neg (by simp)]

/-- What survives a filter of a page lies at or behind its first survivor. -/
private theorem mem_dropWhile_of_mem_filter {infos : List SignatureInfo} {n : ℕ}
    {p : SignatureInfo → Bool} {i : SignatureInfo} {rest : List SignatureInfo}
    (h : (infos.take n).filter p = i :: rest) {j : SignatureInfo} (hj : j ∈ i :: rest) :
    j ∈ infos.dropWhile fun k => decide (k.signature ≠ i.signature) := by
  induction infos generalizing n with
  | nil => simp at h
  | cons k infos ih =>
    cases n with
    | zero => simp at h
    | succ n =>
      rw [List.take_succ_cons] at h
      by_cases hk : k.signature = i.signature
      · rw [List.dropWhile_cons_of_neg (by simpa using hk)]
        rw [← h] at hj
        have hmem := List.mem_of_mem_filter hj
        rcases List.mem_cons.mp hmem with rfl | htail
        · exact List.mem_cons_self
        · exact List.mem_cons_of_mem _ (List.mem_of_mem_take htail)
      · rw [List.dropWhile_cons_of_pos (by simpa using hk)]
        apply ih (n := n)
        cases hp : p k with
        | false => rwa [List.filter_cons_of_neg (by simp [hp])] at h
        | true =>
          rw [List.filter_cons_of_pos hp] at h
          obtain rfl : k = i := (List.cons.inj h).1
          exact absurd rfl hk

/-- Moving on to the first entry of a page keeps behind it the whole page and everything
that was behind before. -/
theorem older_of_page {h : AddressHistory} {last : Signature} {n : ℕ}
    {p : SignatureInfo → Bool} {i : SignatureInfo} {rest : List SignatureInfo}
    (hpage : ((h.newer last).take n).filter p = i :: rest) {j : SignatureInfo}
    (hj : j ∈ i :: rest ∨ j ∈ h.older last) : j ∈ h.older i.signature := by
  have hi := mem_dropWhile_of_mem_filter hpage List.mem_cons_self
  have hsplit : h.older i.signature =
      ((h.newer last).dropWhile fun k => decide (k.signature ≠ i.signature)) ++
        h.older last := by
    conv_lhs => rw [older, ← h.newer_append_older last]
    rw [List.dropWhile_append, if_neg]
    intro hnil
    rw [List.isEmpty_iff.mp hnil] at hi
    exact List.not_mem_nil hi
  rw [hsplit]
  rcases hj with hj | hj
  · exact List.mem_append_left _ (mem_dropWhile_of_mem_filter hpage hj)
  · exact List.mem_append_right _ hj

end AddressHistory

/-! ## The invariant and the steps -/

namespace WatchTask

/-- What every step preserves: whatever the task has fetched or still wants to fetch lies
at or behind the newest signature it has seen. -/
structure Sound (w : WatchTask) : Prop where
  lastSeen : ∀ last, w.lastSeen = some last → last ∈ w.history.signatures
  sent : ∀ sig ∈ w.sent, ∃ i ∈ w.seen, i.signature = sig
  failures : ∀ sig ∈ w.failures, ∃ i ∈ w.seen, i.signature = sig
  retry : ∀ key ∈ w.retrySignatures, ∃ i ∈ w.seen, i.key = key
  /-- Every recorded attempt is a failure. -/
  attempts : ∀ key n, w.retrySignatures.lookup key = some n → n ≤ w.failures.count key.1

theorem seen_eq {w : WatchTask} {last : Signature} (h : w.lastSeen = some last) :
    w.seen = w.history.older last := by
  simp only [seen, h]

theorem start_sound (cfg : WatchConfig) (h : AddressHistory) : (start cfg h).Sound where
  lastSeen := by rintro last ⟨⟩
  sent := fun sig hsig => absurd hsig List.not_mem_nil
  failures := fun sig hsig => absurd hsig List.not_mem_nil
  retry := fun key hkey => absurd hkey (AList.notMem_empty key)
  attempts := by
    intro key n h
    rw [start, AList.lookup_empty] at h
    cases h

theorem mem_retained {w : WatchTask} {key : Signature × ℕ} (h : key ∈ w.retained.keys) :
    key ∈ w.retrySignatures :=
  Table.mem_keys_retain h

theorem mem_retained_of_le {w : WatchTask} {key : Signature × ℕ} {n : ℕ}
    (h : w.retrySignatures.lookup key = some n) (hn : n ≤ maxRetrySignatureAttempts) :
    key ∈ w.retained.keys := by
  rw [← AList.mem_keys]
  exact Table.mem_iff_lookup.mpr ⟨n, Table.lookup_retain.mpr ⟨h, by simpa using hn⟩⟩

theorem mem_newer_of_mem_page {cfg : WatchConfig} {h : AddressHistory} {last : Signature}
    {i : SignatureInfo} (hi : i ∈ page cfg h last) : i ∈ h.newer last :=
  List.mem_of_mem_take (List.mem_of_mem_filter hi)

/-- The keys of an iteration are distinct: the page is new, the retry map is not. -/
theorem signatures_nodup {w : WatchTask} (hw : w.Sound) (cfg : WatchConfig)
    {last : Signature} (hl : w.lastSeen = some last) (iter : Iteration (Signature × ℕ)) :
    (signatures (page cfg w.history last) w.retained iter).Nodup := by
  have hinfos : (w.history.infos.map SignatureInfo.key).Nodup := by
    apply List.Nodup.of_map Prod.fst
    rw [List.map_map]
    exact w.history.nodup
  have hsub : (page cfg w.history last).Sublist w.history.infos :=
    (List.filter_sublist.trans (List.take_sublist _ _)).trans (List.takeWhile_sublist _)
  refine List.nodup_append.mpr ⟨(hsub.map _).nodup hinfos,
    iter.nodup_order.mpr w.retained.keys_nodup, ?_⟩
  rintro key hpage key' hretry rfl
  obtain ⟨i, hi, rfl⟩ := List.mem_map.mp hpage
  obtain ⟨j, hj, hkey⟩ := hw.retry _ (mem_retained (iter.mem_order.mp hretry))
  rw [seen_eq hl] at hj
  exact AddressHistory.newer_ne_older (mem_newer_of_mem_page hi) hj
    (congrArg Prod.fst hkey).symm

/-- What a poll that finds something does to the retry map. -/
structure Retries (w : WatchTask) (fetched : Signature × ℕ → Bool)
    (keys : List (Signature × ℕ)) (retry : Table (Signature × ℕ) ℕ) : Prop where
  failed : ∀ key ∈ keys, fetched key = false →
    retry.lookup key = some ((w.retained.lookup key).elim 1 (· + 1))
  kept : ∀ key, key ∉ keys ∨ fetched key = true →
    retry.lookup key = w.retained.lookup key

/-- What one step can do. -/
inductive WatchCase (cfg : WatchConfig) (w : WatchTask) : WatchEvent → WatchTask → Prop
  | land (i : SignatureInfo) : WatchCase cfg w (.land i) { w with history := w.history.land i }
  | initial (answers : Bool) (n : ℕ) (last : Option Signature)
      (hleft : w.attemptsLeft = n + 1)
      (hlast : last = w.lastSeen ∨
        ∃ i, w.history.infos.head? = some i ∧ last = some i.signature) :
      WatchCase cfg w (.fetchInitial answers)
        { w with attemptsLeft := n, lastSeen := last, initial := last }
  | exit : WatchCase cfg w .exit { w with exitSignal := true }
  | idle (e : WatchEvent) (h : ∀ env last, e = .poll env → ¬ w.Polls last env) :
      WatchCase cfg w e w
  | empty (env : PollEnv) (last : Signature) (hpoll : w.Polls last env)
      (hpage : page cfg w.history last = []) :
      WatchCase cfg w (.poll env) { w with known := knownNow cfg w }
  | fetched (env : PollEnv) (last : Signature) (newest : SignatureInfo)
      (rest : List SignatureInfo) (keys : List (Signature × ℕ))
      (retry : Table (Signature × ℕ) ℕ) (hpoll : w.Polls last env)
      (hpage : page cfg w.history last = newest :: rest)
      (hkeys : ∀ key, key ∈ keys ↔
        key ∈ (newest :: rest).map SignatureInfo.key ∨ key ∈ w.retained.keys)
      (hnodup : keys.Nodup) (hretry : w.Retries env.fetched keys retry) :
      WatchCase cfg w (.poll env)
        { w with
          known := knownNow cfg w
          lastSeen := some newest.signature
          sent := w.sent ++ delivered env.fetched keys
          failures := w.failures ++ missed env.fetched keys
          retrySignatures := retry }

theorem fetchInitial_case (cfg : WatchConfig) (w : WatchTask) (answers : Bool) :
    WatchCase cfg w (.fetchInitial answers) (w.fetchInitial answers) := by
  unfold fetchInitial
  split
  · exact .idle _ (by rintro env last ⟨⟩)
  · rename_i n hleft
    refine .initial answers n _ hleft ?_
    cases answers with
    | false => exact .inl rfl
    | true =>
      cases hhead : w.history.infos.head? with
      | none =>
        left
        simp only [AddressHistory.signatures, List.head?_map, hhead]
        rfl
      | some i =>
        right
        refine ⟨i, rfl, ?_⟩
        simp only [AddressHistory.signatures, List.head?_map, hhead]
        rfl

theorem pollFrom_case {cfg : WatchConfig} {w : WatchTask} (hw : w.Sound)
    {last : Signature} {env : PollEnv} (hpoll : w.Polls last env) :
    WatchCase cfg w (.poll env) (pollFrom cfg w last env) := by
  have hnodup := signatures_nodup hw cfg hpoll.2.1 env.iter
  unfold pollFrom
  split
  · rename_i hpage
    exact .empty env last hpoll hpage
  · rename_i newest rest hpage
    rw [hpage] at hnodup
    obtain ⟨retry, heq, hfail, hkeep⟩ :=
      foldl_record env.fetched (List.nodup_reverse.mpr hnodup)
        { w with
          known := knownNow cfg w
          lastSeen := some newest.signature
          retrySignatures := w.retained }
    rw [heq]
    refine .fetched env last newest rest _ retry hpoll hpage ?_
      (List.nodup_reverse.mpr hnodup) ⟨hfail, hkeep⟩
    intro key
    rw [List.mem_reverse, signatures, List.mem_append, env.iter.mem_order]

theorem step_cases (cfg : WatchConfig) {w : WatchTask} (hw : w.Sound) (e : WatchEvent) :
    WatchCase cfg w e (step cfg w e) := by
  cases e with
  | land i => exact .land i
  | fetchInitial answers => exact fetchInitial_case cfg w answers
  | exit => exact .exit
  | poll env =>
    by_cases hpoll : ∃ last, w.Polls last env
    · obtain ⟨last, hpoll⟩ := hpoll
      have heq : step cfg w (.poll env) = pollFrom cfg w last env := by
        simp only [step, poll, hpoll.1, hpoll.2.1, hpoll.2.2.1, hpoll.2.2.2, Bool.not_true,
          Bool.or_false, Bool.false_eq_true, if_false]
      rw [heq]
      exact pollFrom_case hw hpoll
    · have heq : step cfg w (.poll env) = w := by
        simp only [step, poll]
        split
        · rename_i last hleft hlast
          split
          · rfl
          · rename_i hgo
            rw [Bool.or_eq_true, not_or, Bool.not_eq_true, Bool.not_eq_true',
              Bool.not_eq_false] at hgo
            exact absurd ⟨last, hleft, hlast, hgo.1, hgo.2⟩ hpoll
        · rfl
      rw [heq]
      refine .idle _ ?_
      rintro env' last ⟨⟩ h
      exact hpoll ⟨last, h⟩

/-! ## The invariant is kept -/

/-- What is kept when nothing but the seen entries grow. -/
theorem Sound.of_seen {w w' : WatchTask} (hw : w.Sound)
    (hlast : ∀ last, w'.lastSeen = some last → last ∈ w'.history.signatures)
    (hseen : ∀ i ∈ w.seen, i ∈ w'.seen) (hsent : w'.sent = w.sent)
    (hfailures : w'.failures = w.failures) (hretry : w'.retrySignatures = w.retrySignatures) :
    w'.Sound where
  lastSeen := hlast
  sent := by
    rw [hsent]
    intro sig hsig
    obtain ⟨i, hi, he⟩ := hw.sent sig hsig
    exact ⟨i, hseen i hi, he⟩
  failures := by
    rw [hfailures]
    intro sig hsig
    obtain ⟨i, hi, he⟩ := hw.failures sig hsig
    exact ⟨i, hseen i hi, he⟩
  retry := by
    rw [hretry]
    intro key hkey
    obtain ⟨i, hi, he⟩ := hw.retry key hkey
    exact ⟨i, hseen i hi, he⟩
  attempts := by
    rw [hretry, hfailures]
    exact hw.attempts

theorem signatures_land (h : AddressHistory) (i : SignatureInfo) {sig : Signature}
    (hsig : sig ∈ h.signatures) : sig ∈ (h.land i).signatures := by
  unfold AddressHistory.land
  split
  · exact hsig
  · exact List.mem_cons_of_mem _ hsig

theorem seen_land {w : WatchTask} (hw : w.Sound) (i : SignatureInfo) :
    ({ w with history := w.history.land i } : WatchTask).seen = w.seen := by
  unfold seen
  cases hl : w.lastSeen with
  | none => rfl
  | some last => exact AddressHistory.older_land (hw.lastSeen last hl) i

theorem seen_initial {w : WatchTask} {last : Option Signature} {n : ℕ}
    (hlast : last = w.lastSeen ∨
      ∃ i, w.history.infos.head? = some i ∧ last = some i.signature) :
    ∀ j ∈ w.seen,
      j ∈ ({ w with attemptsLeft := n, lastSeen := last, initial := last } : WatchTask).seen := by
  intro j hj
  rcases hlast with rfl | ⟨i, hi, rfl⟩
  · exact hj
  · simp only [seen, AddressHistory.older_head hi]
    cases hl : w.lastSeen with
    | none =>
      rw [seen, hl] at hj
      exact absurd hj List.not_mem_nil
    | some last =>
      rw [seen_eq hl] at hj
      exact AddressHistory.mem_infos_of_mem_older hj

/-- Whatever an iteration fetches lies at or behind the newest signature it found. -/
theorem mem_older_of_mem_keys {cfg : WatchConfig} {w : WatchTask} (hw : w.Sound)
    {last : Signature} (hl : w.lastSeen = some last) {newest : SignatureInfo}
    {rest : List SignatureInfo} (hpage : page cfg w.history last = newest :: rest)
    {key : Signature × ℕ}
    (hkey : key ∈ (newest :: rest).map SignatureInfo.key ∨ key ∈ w.retrySignatures) :
    ∃ i ∈ w.history.older newest.signature, i.key = key := by
  rcases hkey with hmem | hmem
  · obtain ⟨i, hi, rfl⟩ := List.mem_map.mp hmem
    exact ⟨i, AddressHistory.older_of_page hpage (.inl hi), rfl⟩
  · obtain ⟨i, hi, he⟩ := hw.retry key hmem
    rw [seen_eq hl] at hi
    exact ⟨i, AddressHistory.older_of_page hpage (.inr hi), he⟩

/-- A retry map after a poll holds nothing but what was fetched or held before. -/
theorem Retries.mem {w : WatchTask} {fetched : Signature × ℕ → Bool}
    {keys : List (Signature × ℕ)} {retry : Table (Signature × ℕ) ℕ}
    (h : w.Retries fetched keys retry) {key : Signature × ℕ} (hkey : key ∈ retry) :
    key ∈ keys ∨ key ∈ w.retrySignatures := by
  by_cases hmem : key ∈ keys
  · exact .inl hmem
  · obtain ⟨n, hn⟩ := Table.mem_iff_lookup.mp hkey
    rw [h.kept key (.inl hmem)] at hn
    exact .inr (Table.mem_iff_lookup.mpr ⟨n, (Table.lookup_retain.mp hn).1⟩)

/-- Every attempt recorded after a poll is a failure. -/
theorem Retries.attempts {w : WatchTask} (hw : w.Sound) {fetched : Signature × ℕ → Bool}
    {keys : List (Signature × ℕ)} {retry : Table (Signature × ℕ) ℕ}
    (h : w.Retries fetched keys retry) {key : Signature × ℕ} {n : ℕ}
    (hn : retry.lookup key = some n) :
    n ≤ (w.failures ++ missed fetched keys).count key.1 := by
  have hold : ∀ m, w.retained.lookup key = some m → m ≤ w.failures.count key.1 :=
    fun m hm => hw.attempts key m (Table.lookup_retain.mp hm).1
  rw [List.count_append]
  by_cases hmem : key ∈ keys ∧ fetched key = false
  · have hpos : 0 < (missed fetched keys).count key.1 :=
      List.count_pos_iff.mpr (mem_missed.mpr ⟨key, hmem.1, hmem.2, rfl⟩)
    rw [h.failed key hmem.1 hmem.2, Option.some.injEq] at hn
    cases hm : w.retained.lookup key with
    | none =>
      rw [hm, Option.elim_none] at hn
      omega
    | some m =>
      have hle := hold m hm
      rw [hm, Option.elim_some] at hn
      omega
  · have hor : key ∉ keys ∨ fetched key = true := by
      rw [not_and_or, Bool.not_eq_false] at hmem
      exact hmem
    rw [h.kept key hor] at hn
    exact (hold n hn).trans (Nat.le_add_right _ _)

/-- Every step keeps the invariant. -/
theorem step_sound (cfg : WatchConfig) {w : WatchTask} (hw : w.Sound) (e : WatchEvent) :
    (step cfg w e).Sound := by
  have hcase := step_cases cfg hw e
  generalize step cfg w e = w' at hcase
  cases hcase with
  | land i =>
    refine hw.of_seen (fun last hl => signatures_land _ i (hw.lastSeen last hl)) ?_ rfl rfl rfl
    rw [seen_land hw]
    exact fun j hj => hj
  | initial answers n last hleft hlast =>
    refine hw.of_seen ?_ (seen_initial hlast) rfl rfl rfl
    intro last' hl
    rcases hlast with rfl | ⟨i, hi, rfl⟩
    · exact hw.lastSeen last' hl
    · obtain rfl : i.signature = last' := Option.some.inj hl
      exact List.mem_map_of_mem (List.mem_of_mem_head? hi)
  | exit => exact hw.of_seen hw.lastSeen (fun j hj => hj) rfl rfl rfl
  | idle => exact hw
  | empty => exact hw.of_seen hw.lastSeen (fun j hj => hj) rfl rfl rfl
  | fetched env last newest rest keys retry hpoll hpage hkeys hnodup hretry =>
    have hl := hpoll.2.1
    have hback : ∀ key, key ∈ keys ∨ key ∈ w.retrySignatures →
        ∃ i ∈ w.history.older newest.signature, i.key = key := by
      intro key hkey
      apply mem_older_of_mem_keys hw hl hpage
      rcases hkey with hkey | hkey
      · exact ((hkeys key).mp hkey).imp_right mem_retained
      · exact .inr hkey
    have hseen : ∀ i ∈ w.seen, i ∈ w.history.older newest.signature := by
      rw [seen_eq hl]
      exact fun i hi => AddressHistory.older_of_page hpage (.inr hi)
    refine ⟨?_, ?_, ?_, ?_, ?_⟩
    · rintro last' ⟨⟩
      have hmem : newest ∈ page cfg w.history last := by
        rw [hpage]
        exact List.mem_cons_self
      exact List.mem_map_of_mem
        (AddressHistory.mem_infos_of_mem_newer (mem_newer_of_mem_page hmem))
    · intro sig hsig
      rcases List.mem_append.mp hsig with hsig | hsig
      · obtain ⟨i, hi, he⟩ := hw.sent sig hsig
        exact ⟨i, hseen i hi, he⟩
      · obtain ⟨key, hkey, -, rfl⟩ := mem_delivered.mp hsig
        obtain ⟨i, hi, rfl⟩ := hback key (.inl hkey)
        exact ⟨i, hi, rfl⟩
    · intro sig hsig
      rcases List.mem_append.mp hsig with hsig | hsig
      · obtain ⟨i, hi, he⟩ := hw.failures sig hsig
        exact ⟨i, hseen i hi, he⟩
      · obtain ⟨key, hkey, -, rfl⟩ := mem_missed.mp hsig
        obtain ⟨i, hi, rfl⟩ := hback key (.inl hkey)
        exact ⟨i, hi, rfl⟩
    · exact fun key hkey => hback key (hretry.mem hkey)
    · exact fun key n hn => hretry.attempts hw hn

/-! ## Samples -/

/-- The usual settings: three attempts at the initial signature, and no error filter. -/
def sampleWatch : WatchConfig := ⟨3, false⟩

/-- A history with a single transaction. -/
def sampleHistory : AddressHistory := ⟨[⟨1, 10, false⟩], List.nodup_singleton _⟩

/-- A poll whose signature fetch succeeds. -/
def samplePoll (fetched : Signature × ℕ → Bool) : WatchEvent :=
  .poll ⟨true, fetched, Iteration.stored _⟩

end WatchTask

end Biscuit.Wire
