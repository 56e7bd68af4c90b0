import Biscuit.Core.Checked
import Biscuit.Models.Wire.Confirm

/-!
# The blocking executor

`push_transactions` numbers its transactions and sends them one by one; what was sent is queued
with its id. A thread asks for the statuses of what is queued, takes out of the queue whatever has
one or is too old, and reports the ids of it as cleared. Its loop walks the queue, which gets
shorter, and the statuses, which do not.
-/

namespace Biscuit.Wire

/-- An entry of the `PendingQueue`. -/
structure PendingSignature where
  signature : Signature
  timestamp : ℕ
  id : ℕ
  deriving DecidableEq, Repr

/-- What the thread counts for its log. -/
structure ClearCounts where
  success : ℤ
  errorCount : ℤ
  timedOut : ℤ
  /-- Those with a status, in the current round. -/
  numCleared : ℤ
  deriving DecidableEq, Repr

/-- Where the thread that clears the queue is. -/
inductive SigClearThread
  /-- Before its next round. -/
  | waiting
  /-- It has left the queue with these ids and is to report them. -/
  | reporting (newIds : List ℕ)
  | exited
  /-- It has panicked with the queue locked, and nobody can lock the queue anymore. -/
  | panicked
  deriving DecidableEq, Repr

structure TransactionExecutor where
  sigs : List PendingSignature
  cleared : List ℕ
  exit : Bool
  counter : ℕ
  thread : SigClearThread
  counts : ClearCounts
  /-- The ids that `push_transactions` has returned. -/
  returned : List ℕ
  /-- The ids that `drain_cleared` has returned. -/
  drained : List ℕ
  deriving DecidableEq, Repr

/-- A node that refuses a request for statuses or answers it with one status for each signature, in
their order. The requests of a round are numbered. -/
structure StatusClient where
  statuses : ℕ → List Signature → Option (List (Option TransactionStatus))
  length_eq : ∀ {request : ℕ} {signatures : List Signature}
    {answer : List (Option TransactionStatus)},
    statuses request signatures = some answer → answer.length = signatures.length

/-- What happens next. -/
inductive ExecutorEvent
  /-- `push_transactions`; each transaction is sent at some time, under its signature, or not. -/
  | push (sends : List (Option (Signature × ℕ)))
  /-- A round of the thread, until it has left the queue. -/
  | round (client : StatusClient) (now : ℕ)
  /-- The rest of the round. -/
  | report
  | drain
  | close

/-- `TransactionExecutor::new_with_rpc_client` -/
def newWithRpcClient : TransactionExecutor :=
  ⟨[], [], false, 0, .waiting, ⟨0, 0, 0, 0⟩, [], []⟩

namespace TransactionExecutor

/-! ## The callers -/

/-- The next id is handed out, then the transaction is sent. -/
def sendTransaction (x : TransactionExecutor) (send : Option (Signature × ℕ)) :
    TransactionExecutor :=
  { x with
    sigs := x.sigs ++ (send.map fun (sig, timestamp) => ⟨sig, timestamp, x.counter⟩).toList
    counter := (x.counter + 1) % 2 ^ 64
    returned := x.returned ++ [x.counter] }

/-- `push_transactions`, which holds the lock of the queue from its first transaction to its last;
`close` takes the executor away. -/
def pushTransactions (x : TransactionExecutor) (sends : List (Option (Signature × ℕ))) :
    TransactionExecutor :=
  if x.exit ∨ x.thread = .panicked then x else sends.foldl sendTransaction x

/-- `drain_cleared` -/
def drainCleared (x : TransactionExecutor) : TransactionExecutor :=
  if x.exit then x else { x with cleared := [], drained := x.drained ++ x.cleared }

/-- `close` -/
def close (x : TransactionExecutor) : TransactionExecutor := { x with exit := true }

/-! ## The thread -/

/-- What one pass of the loop does about an entry: what is counted, and whether the entry is
retained. -/
def judge (build : Build) (now : ℕ) (counts : ClearCounts) (entry : PendingSignature) :
    Option TransactionStatus → Outcome String (ClearCounts × Bool)
  | some e => do
    let counts ←
      -- `e.status.is_ok()`
      if e.err.isNone then do
        let success ← build.int 32 (counts.success + 1)
        pure { counts with success }
      else do
        let errorCount ← build.int 32 (counts.errorCount + 1)
        pure { counts with errorCount }
    let numCleared ← build.int 32 (counts.numCleared + 1)
    pure ({ counts with numCleared }, false)
  | none => do
    let age ← build.sub 64 now entry.timestamp
    if age > 30000 then do
      let timedOut ← build.int 32 (counts.timedOut + 1)
      pure ({ counts with timedOut }, false)
    else pure (counts, true)

/-- What the loop leaves behind. -/
structure Sweep where
  sigs : List PendingSignature
  newIds : List ℕ
  counts : ClearCounts
  panicked : Bool
  deriving DecidableEq, Repr

/-- The loop over the queue: `i` is the place in the queue, which gets shorter, and `j` the one
among the statuses. -/
def sweep (build : Build) (now : ℕ) (statuses : List (Option TransactionStatus)) (i j : ℕ)
    (sigs : List PendingSignature) (newIds : List ℕ) (counts : ClearCounts) : Sweep :=
  if h : i < sigs.length then
    match statuses[j]? with
    | none => ⟨sigs, newIds, counts, true⟩
    | some status =>
      match judge build now counts sigs[i] status with
      | .ok (counts, true) => sweep build now statuses (i + 1) (j + 1) sigs newIds counts
      | .ok (counts, false) =>
        sweep build now statuses i (j + 1) (sigs.eraseIdx i) (newIds ++ [sigs[i].id]) counts
      | _ => ⟨sigs, newIds, counts, true⟩
  else ⟨sigs, newIds, counts, false⟩
  termination_by sigs.length - i
  decreasing_by
    · omega
    · rw [List.length_eraseIdx_of_lt h]
      omega

/-- The number of `chunks` of the queue, of 200 entries each. -/
def numChunks (sigs : List PendingSignature) : ℕ := (sigs.length + 199) / 200

def chunk (sigs : List PendingSignature) (k : ℕ) : List PendingSignature :=
  (sigs.drop (200 * k)).take 200

/-- What the node answers about a chunk. -/
def askChunk (client : StatusClient) (sigs : List PendingSignature) (k : ℕ) :
    Option (List (Option TransactionStatus)) :=
  client.statuses k ((chunk sigs k).map PendingSignature.signature)

/-- The statuses of the whole queue. -/
def askStatuses (client : StatusClient) (sigs : List PendingSignature) :
    Outcome String (List (Option TransactionStatus)) := do
  let answers ← (List.range (numChunks sigs)).mapM fun k => Outcome.unwrap (askChunk client sigs k)
  pure answers.flatten

/-- A round of `start_sig_clear_thread`, until the queue is unlocked. -/
def round (build : Build) (x : TransactionExecutor) (client : StatusClient) (now : ℕ) :
    TransactionExecutor :=
  if x.thread ≠ .waiting then x
  else if x.exit then { x with thread := .exited }
  else if x.sigs.length > 0 then
    match askStatuses client x.sigs with
    | .ok statuses =>
      let swept := sweep build now statuses 0 0 x.sigs [] { x.counts with numCleared := 0 }
      if swept.panicked then { x with sigs := swept.sigs, thread := .panicked }
      else { x with sigs := swept.sigs, thread := .reporting swept.newIds, counts := swept.counts }
    | _ => { x with thread := .panicked }
  else x

/-- The ids that the thread has taken out of the queue are cleared. -/
def report (x : TransactionExecutor) : TransactionExecutor :=
  match x.thread with
  | .reporting newIds => { x with thread := .waiting, cleared := x.cleared ++ newIds }
  | _ => x

def step (build : Build) (x : TransactionExecutor) : ExecutorEvent → TransactionExecutor
  | .push sends => x.pushTransactions sends
  | .round client now => x.round build client now
  | .report => x.report
  | .drain => x.drainCleared
  | .close => x.close

/-! ## The entries of a round -/

/-- The entries of a chunk, each with the status of its own signature; a request that is refused
tells none. -/
def chunkStatuses (client : StatusClient) (sigs : List PendingSignature) (k : ℕ) :
    List (PendingSignature × Option TransactionStatus) :=
  match askChunk client sigs k with
  | some answer => (chunk sigs k).zip answer
  | none => (chunk sigs k).map (·, none)

/-- The entries of the queue, each with the status of its own signature. -/
def ownStatuses (client : StatusClient) (sigs : List PendingSignature) :
    List (PendingSignature × Option TransactionStatus) :=
  (List.range (numChunks sigs)).flatMap (chunkStatuses client sigs)

/-- Every request of the round is answered. -/
def Answered (client : StatusClient) (sigs : List PendingSignature) : Prop :=
  ∀ k < numChunks sigs, ∃ answer, askChunk client sigs k = some answer

/-- An entry that is to be cleared: its signature has a status, or it is older than 30 seconds. -/
def due (now : ℕ) (entry : PendingSignature × Option TransactionStatus) : Bool :=
  entry.2.isSome || decide (entry.1.timestamp + 30000 < now)

/-- The age of an entry, in a build where it wraps. -/
def wrappedAge (now timestamp : ℕ) : ℕ :=
  if timestamp ≤ now then now - timestamp else now + 2 ^ 64 - timestamp

/-- An entry that stays in the queue. -/
def retained (now : ℕ) (entry : PendingSignature × Option TransactionStatus) : Bool :=
  entry.2.isNone && decide (wrappedAge now entry.1.timestamp ≤ 30000)

def entryIds (entries : List (PendingSignature × Option TransactionStatus)) : List ℕ :=
  entries.map fun entry => entry.1.id

/-- What stays in the queue of some entries. -/
def keptSigs (now : ℕ) (entries : List (PendingSignature × Option TransactionStatus)) :
    List PendingSignature :=
  (entries.filter (retained now)).map Prod.fst

/-- The ids of the entries that do not stay. -/
def takenIds (now : ℕ) (entries : List (PendingSignature × Option TransactionStatus)) : List ℕ :=
  entryIds (entries.filter fun entry => !retained now entry)

/-- The age of the entry can be computed without a panic. -/
def AgeFits (build : Build) (now : ℕ) (entry : PendingSignature × Option TransactionStatus) :
    Prop :=
  entry.2 = none → build = .checked → entry.1.timestamp ≤ now

/-- An age that is asked for is the real one, or it wraps to no more than 30 seconds. -/
def AgeRight (now : ℕ) (entry : PendingSignature × Option TransactionStatus) : Prop :=
  entry.2 = none → entry.1.timestamp ≤ now ∨ 2 ^ 64 + now ≤ entry.1.timestamp + 30000

theorem keptSigs_cons (now : ℕ) (entry : PendingSignature × Option TransactionStatus)
    (rest : List (PendingSignature × Option TransactionStatus)) :
    keptSigs now (entry :: rest) = keptSigs now [entry] ++ keptSigs now rest := by
  rw [keptSigs, ← List.singleton_append, List.filter_append, List.map_append]
  rfl

theorem takenIds_cons (now : ℕ) (entry : PendingSignature × Option TransactionStatus)
    (rest : List (PendingSignature × Option TransactionStatus)) :
    takenIds now (entry :: rest) = takenIds now [entry] ++ takenIds now rest := by
  rw [takenIds, entryIds, ← List.singleton_append, List.filter_append, List.map_append]
  rfl

/-- A single entry stays as it is, or its id is taken. -/
theorem kept_and_taken_singleton (now : ℕ)
    (entry : PendingSignature × Option TransactionStatus) :
    keptSigs now [entry] = (if retained now entry then [entry.1] else []) ∧
      takenIds now [entry] = (if retained now entry then [] else [entry.1.id]) := by
  cases h : retained now entry <;> simp [keptSigs, takenIds, entryIds, h]

theorem due_eq_false_of_retained {now : ℕ}
    {entry : PendingSignature × Option TransactionStatus} (h : retained now entry = true) :
    due now entry = false := by
  obtain ⟨entry, status⟩ := entry
  cases status with
  | some status => cases h
  | none =>
    simp only [retained, Option.isNone_none, Bool.true_and, decide_eq_true_eq, wrappedAge] at h
    simp only [due, Option.isSome_none, Bool.false_or, decide_eq_false_iff_not]
    split_ifs at h with hle <;> omega

theorem retained_eq_not_due_iff {now : ℕ} {entry : PendingSignature × Option TransactionStatus} :
    retained now entry = !due now entry ↔ AgeRight now entry := by
  obtain ⟨entry, status⟩ := entry
  cases status with
  | some status => simp [retained, due, AgeRight]
  | none =>
    rw [retained, due, AgeRight, Option.isNone_none, Option.isSome_none, Bool.true_and,
      Bool.false_or, ← decide_not, decide_eq_decide, wrappedAge]
    simp only [true_imp_iff]
    split_ifs with hle <;> omega

theorem ageRight_of_ageFits {now : ℕ} {entry : PendingSignature × Option TransactionStatus}
    (h : AgeFits .checked now entry) : AgeRight now entry :=
  fun hnone => .inl (h hnone rfl)

theorem sub_eq_wrappedAge {build : Build} {now timestamp : ℕ}
    (h : build = .checked → timestamp ≤ now) :
    (build.sub 64 now timestamp : Outcome String ℕ) = .ok (wrappedAge now timestamp) := by
  by_cases hle : timestamp ≤ now
  · rw [Build.sub_ok build 64 hle, wrappedAge, if_pos hle]
  · cases build with
    | checked => exact absurd (h rfl) hle
    | wrapping => rw [Build.sub, if_neg hle, wrappedAge, if_neg hle]

/-- The chunks of a queue make up the queue. -/
theorem flatMap_chunk (sigs : List PendingSignature) :
    (List.range (numChunks sigs)).flatMap (chunk sigs) = sigs := by
  have hchunks : ∀ m, (List.range m).flatMap (chunk sigs) = sigs.take (200 * m) := by
    intro m
    induction m with
    | zero => rfl
    | succ m ih =>
      rw [List.range_succ, List.flatMap_append, ih, List.flatMap_singleton, chunk, Nat.mul_succ,
        List.take_add]
  rw [hchunks]
  apply List.take_of_length_le
  rw [numChunks]
  omega

theorem map_fst_chunkStatuses (client : StatusClient) (sigs : List PendingSignature) (k : ℕ) :
    (chunkStatuses client sigs k).map Prod.fst = chunk sigs k := by
  rw [chunkStatuses]
  cases hanswer : askChunk client sigs k with
  | none => simp only [List.map_map, Function.comp_def, List.map_id']
  | some answer =>
    have hlength := client.length_eq hanswer
    rw [List.length_map] at hlength
    exact List.map_fst_zip hlength.ge

theorem map_snd_chunkStatuses {client : StatusClient} {sigs : List PendingSignature} {k : ℕ}
    {answer : List (Option TransactionStatus)} (h : askChunk client sigs k = some answer) :
    (chunkStatuses client sigs k).map Prod.snd = answer := by
  have hlength := client.length_eq h
  rw [List.length_map] at hlength
  rw [chunkStatuses, h]
  exact List.map_snd_zip hlength.le

theorem map_fst_ownStatuses (client : StatusClient) (sigs : List PendingSignature) :
    (ownStatuses client sigs).map Prod.fst = sigs := by
  rw [ownStatuses, List.map_flatMap]
  simp only [map_fst_chunkStatuses]
  exact flatMap_chunk sigs

theorem length_ownStatuses (client : StatusClient) (sigs : List PendingSignature) :
    (ownStatuses client sigs).length = sigs.length := by
  rw [← congrArg List.length (map_fst_ownStatuses client sigs), List.length_map]

/-- The answers to some requests, one after the other. -/
theorem flatten_answers {client : StatusClient} {sigs : List PendingSignature} {ks : List ℕ}
    {answers : List (List (Option TransactionStatus))}
    (h : List.Forall₂ (fun k answer =>
      (Outcome.unwrap (askChunk client sigs k) : Outcome String _) = .ok answer) ks answers) :
    answers.flatten = (ks.flatMap (chunkStatuses client sigs)).map Prod.snd := by
  induction h with
  | nil => rfl
  | cons hanswer _ ih =>
    rw [List.flatten_cons, List.flatMap_cons, List.map_append, ih,
      map_snd_chunkStatuses (Outcome.unwrap_eq_ok.mp hanswer)]

/-- A round whose requests are answered has the statuses in the order of the queue. -/
theorem askStatuses_of_answered {client : StatusClient} {sigs : List PendingSignature}
    (h : Answered client sigs) :
    askStatuses client sigs = .ok ((ownStatuses client sigs).map Prod.snd) := by
  have hvalues : ∀ k ∈ List.range (numChunks sigs), ∃ answer,
      (Outcome.unwrap (askChunk client sigs k) : Outcome String _) = .ok answer := by
    intro k hk
    obtain ⟨answer, hanswer⟩ := h k (List.mem_range.mp hk)
    exact ⟨answer, Outcome.unwrap_eq_ok.mpr hanswer⟩
  obtain ⟨answers, hanswers⟩ := Outcome.exists_mapM_eq_ok.mpr hvalues
  rw [askStatuses, hanswers, Outcome.ok_bind, Outcome.pure_eq, ownStatuses,
    flatten_answers (Outcome.mapM_eq_ok.mp hanswers)]

/-- A round with a request that is refused has none. -/
theorem answered_of_askStatuses {client : StatusClient} {sigs : List PendingSignature}
    {statuses : List (Option TransactionStatus)} (h : askStatuses client sigs = .ok statuses) :
    Answered client sigs := by
  rw [askStatuses, Outcome.bind_eq_ok] at h
  obtain ⟨answers, hanswers, -⟩ := h
  intro k hk
  obtain ⟨answer, hanswer⟩ :=
    Outcome.exists_mapM_eq_ok.mp ⟨answers, hanswers⟩ k (List.mem_range.mpr hk)
  exact ⟨answer, Outcome.unwrap_eq_ok.mp hanswer⟩

/-! ## The loop -/

/-- The counts are not negative and fit their type. -/
def CountsFit (counts : ClearCounts) : Prop :=
  (0 ≤ counts.success ∧ counts.success < 2 ^ 31) ∧
    (0 ≤ counts.errorCount ∧ counts.errorCount < 2 ^ 31) ∧
    (0 ≤ counts.timedOut ∧ counts.timedOut < 2 ^ 31) ∧
    (0 ≤ counts.numCleared ∧ counts.numCleared < 2 ^ 31)

instance (counts : ClearCounts) : Decidable (CountsFit counts) := instDecidableAnd

/-- What is counted of an entry, whether or not it fits. -/
def countEntry (now : ℕ) (counts : ClearCounts)
    (entry : PendingSignature × Option TransactionStatus) : ClearCounts :=
  match entry.2 with
  | some e =>
    if e.err.isNone then
      { counts with success := counts.success + 1, numCleared := counts.numCleared + 1 }
    else { counts with errorCount := counts.errorCount + 1, numCleared := counts.numCleared + 1 }
  | none => if retained now entry then counts else { counts with timedOut := counts.timedOut + 1 }

/-- None of the counts is less in the second than in the first. -/
def NoFewer (counts counts' : ClearCounts) : Prop :=
  counts.success ≤ counts'.success ∧ counts.errorCount ≤ counts'.errorCount ∧
    counts.timedOut ≤ counts'.timedOut ∧ counts.numCleared ≤ counts'.numCleared

/-- An entry makes no panic: its age can be computed, and it can be counted. -/
def Fits (build : Build) (now : ℕ) (counts : ClearCounts)
    (entry : PendingSignature × Option TransactionStatus) : Prop :=
  AgeFits build now entry ∧ (build = .checked → CountsFit (countEntry now counts entry))

/-- The loop goes through the entries without a panic. -/
def Passes (build : Build) (now : ℕ) (counts : ClearCounts)
    (entries : List (PendingSignature × Option TransactionStatus)) : Prop :=
  (∀ entry ∈ entries, AgeFits build now entry) ∧
    (build = .checked → CountsFit (entries.foldl (countEntry now) counts))

section

variable {build : Build} {now : ℕ} {counts : ClearCounts}
  {entry : PendingSignature × Option TransactionStatus}
  {rest : List (PendingSignature × Option TransactionStatus)}

/-- A round begins with nothing cleared. -/
theorem CountsFit.reset (h : CountsFit counts) : CountsFit { counts with numCleared := 0 } :=
  ⟨h.1, h.2.1, h.2.2.1, le_rfl, Int.pow_pos (by decide)⟩

theorem noFewer_countEntry (now : ℕ) (counts : ClearCounts)
    (entry : PendingSignature × Option TransactionStatus) :
    NoFewer counts (countEntry now counts entry) := by
  obtain ⟨entry, status⟩ := entry
  rw [countEntry, NoFewer]
  cases status with
  | some e =>
    by_cases herr : e.err.isNone = true
    · simp only [herr, if_true]
      omega
    · simp only [herr, Bool.false_eq_true, if_false]
      omega
  | none =>
    by_cases hretained : retained now (entry, none) = true
    · simp only [hretained, if_true]
      omega
    · simp only [hretained, Bool.false_eq_true, if_false]
      omega

theorem noFewer_foldl (now : ℕ) (counts : ClearCounts)
    (entries : List (PendingSignature × Option TransactionStatus)) :
    NoFewer counts (entries.foldl (countEntry now) counts) := by
  induction entries generalizing counts with
  | nil => exact ⟨le_rfl, le_rfl, le_rfl, le_rfl⟩
  | cons entry rest ih =>
    have hone := noFewer_countEntry now counts entry
    have hmore := ih (countEntry now counts entry)
    rw [List.foldl_cons]
    rw [NoFewer] at hone hmore ⊢
    omega

/-- Counts that fit in the end have fitted before. -/
theorem countsFit_countEntry (hcounts : CountsFit counts)
    (h : CountsFit (rest.foldl (countEntry now) (countEntry now counts entry))) :
    CountsFit (countEntry now counts entry) := by
  have hone := noFewer_countEntry now counts entry
  have hmore := noFewer_foldl now (countEntry now counts entry) rest
  rw [NoFewer] at hone hmore
  rw [CountsFit] at hcounts h ⊢
  omega

/-- The loop goes through an entry and then through the others. -/
theorem passes_cons (hcounts : build = .checked → CountsFit counts) :
    Passes build now counts (entry :: rest) ↔
      Fits build now counts entry ∧ Passes build now (countEntry now counts entry) rest := by
  rw [Passes, Passes, Fits, List.forall_mem_cons, List.foldl_cons]
  constructor
  · rintro ⟨⟨hage, hages⟩, hfit⟩
    exact ⟨⟨hage, fun hb => countsFit_countEntry (hcounts hb) (hfit hb)⟩, hages, hfit⟩
  · rintro ⟨⟨hage, -⟩, hages, hfit⟩
    exact ⟨⟨hage, hages⟩, hfit⟩

theorem exists_countUp {count : ℤ}
    (h : build = .checked → 0 ≤ count ∧ count + 1 < 2 ^ 31) :
    ∃ next, (build.int 32 (count + 1) : Outcome String ℤ) = .ok next ∧
      (build = .checked → next = count + 1) := by
  apply Build.exists_int_eq_ok
  intro hb
  obtain ⟨hnonneg, hlt⟩ := h hb
  omega

theorem countUp_eq_panic {count : ℤ} (h : 2 ^ 31 ≤ count + 1) :
    (Build.checked.int 32 (count + 1) : Outcome String ℤ) = .panic :=
  Build.int_checked_eq_panic fun hfits => absurd hfits.2 (not_lt.mpr h)

/-- An entry that makes no panic is retained or not, and counted. -/
theorem exists_judge (hcounts : build = .checked → CountsFit counts)
    (h : Fits build now counts entry) :
    ∃ counts', judge build now counts entry.1 entry.2 = .ok (counts', retained now entry) ∧
      (build = .checked → counts' = countEntry now counts entry) := by
  obtain ⟨hage, hfit⟩ := h
  obtain ⟨entry, status⟩ := entry
  cases status with
  | some e =>
    have hnum : build = .checked → 0 ≤ counts.numCleared ∧ counts.numCleared + 1 < 2 ^ 31 := by
      intro hb
      have hfit := hfit hb
      refine ⟨(hcounts hb).2.2.2.1, ?_⟩
      rw [countEntry] at hfit
      dsimp only at hfit
      split_ifs at hfit <;> exact hfit.2.2.2.2
    obtain ⟨cleared, hcleared, hcleared'⟩ := exists_countUp hnum
    by_cases herr : e.err.isNone = true
    · simp only [countEntry, herr, if_true] at hfit ⊢
      obtain ⟨success, hsuccess, hsuccess'⟩ :=
        exists_countUp fun hb => ⟨(hcounts hb).1.1, (hfit hb).1.2⟩
      refine ⟨{ counts with success, numCleared := cleared }, ?_, fun hb => ?_⟩
      · simp only [judge, herr, if_true, hsuccess, hcleared, Outcome.ok_bind, Outcome.pure_eq]
        rfl
      · rw [hsuccess' hb, hcleared' hb]
    · simp only [countEntry, herr, Bool.false_eq_true, if_false] at hfit ⊢
      obtain ⟨errorCount, herror, herror'⟩ :=
        exists_countUp fun hb => ⟨(hcounts hb).2.1.1, (hfit hb).2.1.2⟩
      refine ⟨{ counts with errorCount, numCleared := cleared }, ?_, fun hb => ?_⟩
      · simp only [judge, herr, Bool.false_eq_true, if_false, herror, hcleared, Outcome.ok_bind,
          Outcome.pure_eq]
        rfl
      · rw [herror' hb, hcleared' hb]
  | none =>
    rw [judge, sub_eq_wrappedAge (hage rfl), Outcome.ok_bind]
    by_cases hold : wrappedAge now entry.timestamp ≤ 30000
    · have hretained : retained now (entry, none) = true := decide_eq_true hold
      simp only [countEntry, hretained, if_true, not_lt.mpr hold, if_false, Outcome.pure_eq]
      exact ⟨counts, rfl, fun _ => rfl⟩
    · have hretained : retained now (entry, none) = false := decide_eq_false hold
      simp only [countEntry, hretained, Bool.false_eq_true, if_false] at hfit ⊢
      obtain ⟨timedOut, htimed, htimed'⟩ :=
        exists_countUp fun hb => ⟨(hcounts hb).2.2.1.1, (hfit hb).2.2.1.2⟩
      rw [if_pos (not_le.mp hold), htimed]
      exact ⟨{ counts with timedOut }, rfl, fun hb => by rw [htimed' hb]⟩

/-- Any other entry makes a build that checks panic. -/
theorem judge_eq_panic (hcounts : CountsFit counts) (h : ¬Fits .checked now counts entry) :
    judge .checked now counts entry.1 entry.2 = .panic := by
  rw [Fits] at h
  obtain ⟨entry, status⟩ := entry
  cases status with
  | some e =>
    have hfit : ¬CountsFit (countEntry now counts (entry, some e)) :=
      fun hfit => h ⟨nofun, fun _ => hfit⟩
    by_cases herr : e.err.isNone = true
    · simp only [CountsFit, countEntry, herr, if_true] at hcounts hfit
      simp only [judge, herr, if_true]
      by_cases hsuccess : counts.success + 1 < 2 ^ 31
      · have hnum : 2 ^ 31 ≤ counts.numCleared + 1 := by omega
        rw [Build.int_ok .checked (by omega) hsuccess, Outcome.ok_bind, Outcome.pure_eq,
          Outcome.ok_bind, countUp_eq_panic hnum, Outcome.panic_bind]
      · rw [countUp_eq_panic (not_lt.mp hsuccess), Outcome.panic_bind]
    · simp only [CountsFit, countEntry, herr, Bool.false_eq_true, if_false] at hcounts hfit
      simp only [judge, herr, Bool.false_eq_true, if_false]
      by_cases herror : counts.errorCount + 1 < 2 ^ 31
      · have hnum : 2 ^ 31 ≤ counts.numCleared + 1 := by omega
        rw [Build.int_ok .checked (by omega) herror, Outcome.ok_bind, Outcome.pure_eq,
          Outcome.ok_bind, countUp_eq_panic hnum, Outcome.panic_bind]
      · rw [countUp_eq_panic (not_lt.mp herror), Outcome.panic_bind]
  | none =>
    by_cases hage : AgeFits .checked now (entry, none)
    · have hfit : ¬CountsFit (countEntry now counts (entry, none)) :=
        fun hfit => h ⟨hage, fun _ => hfit⟩
      have hretained : ¬retained now (entry, none) = true := by
        intro hretained
        rw [countEntry, if_pos hretained] at hfit
        exact hfit hcounts
      rw [countEntry, if_neg hretained] at hfit
      have hold : wrappedAge now entry.timestamp > 30000 :=
        not_le.mp fun hle => hretained (decide_eq_true hle)
      have htimed : 2 ^ 31 ≤ counts.timedOut + 1 := by
        rw [CountsFit] at hcounts hfit
        dsimp only at hfit
        omega
      rw [judge, sub_eq_wrappedAge (hage rfl), Outcome.ok_bind, if_pos hold,
        countUp_eq_panic htimed, Outcome.panic_bind]
    · simp only [AgeFits, true_imp_iff, not_le] at hage
      rw [judge, Build.sub_checked_eq_panic 64 hage, Outcome.panic_bind]

/-- One pass of the loop: the entry at the place `i` is retained or taken out. -/
theorem sweep_cons {statuses : List (Option TransactionStatus)} {j : ℕ}
    {status : Option TransactionStatus} (hj : statuses[j]? = some status)
    (kept : List PendingSignature) (entry : PendingSignature) (rest : List PendingSignature)
    (newIds : List ℕ) :
    sweep build now statuses kept.length j (kept ++ entry :: rest) newIds counts =
      match judge build now counts entry status with
      | .ok (counts, true) =>
        sweep build now statuses (kept ++ [entry]).length (j + 1) ((kept ++ [entry]) ++ rest)
          newIds counts
      | .ok (counts, false) =>
        sweep build now statuses kept.length (j + 1) (kept ++ rest) (newIds ++ [entry.id]) counts
      | _ => ⟨kept ++ entry :: rest, newIds, counts, true⟩ := by
  have hi : kept.length < (kept ++ entry :: rest).length := by
    rw [List.length_append, List.length_cons]
    omega
  have hentry : (kept ++ entry :: rest)[kept.length] = entry := by
    rw [List.getElem_append_right le_rfl]
    simp only [Nat.sub_self, List.getElem_cons_zero]
  have herase : (kept ++ entry :: rest).eraseIdx kept.length = kept ++ rest := by
    rw [List.eraseIdx_append_of_length_le le_rfl, Nat.sub_self, List.eraseIdx_cons_zero]
  rw [sweep, dif_pos hi, hj]
  dsimp only
  rw [hentry, herase, List.length_append, List.length_singleton, List.append_assoc,
    List.singleton_append]

/-- The place among the statuses and the rest of the queue go together. -/
theorem statuses_of_drop {statuses : List (Option TransactionStatus)}
    {entry : PendingSignature × Option TransactionStatus}
    {rest : List (PendingSignature × Option TransactionStatus)} {j : ℕ}
    (h : statuses.drop j = (entry :: rest).map Prod.snd) :
    statuses[j]? = some entry.2 ∧ statuses.drop (j + 1) = rest.map Prod.snd := by
  constructor
  · rw [← List.head?_drop, h, List.map_cons, List.head?_cons]
  · rw [← List.tail_drop, h, List.map_cons, List.tail_cons]

/-- One pass over an entry that makes no panic. -/
theorem exists_sweep_cons {statuses : List (Option TransactionStatus)} {j : ℕ}
    (hj : statuses[j]? = some entry.2) (hcounts : build = .checked → CountsFit counts)
    (h : Fits build now counts entry) (kept rest : List PendingSignature) (newIds : List ℕ) :
    ∃ counts', sweep build now statuses kept.length j (kept ++ entry.1 :: rest) newIds counts =
        sweep build now statuses (kept ++ keptSigs now [entry]).length (j + 1)
          (kept ++ keptSigs now [entry] ++ rest) (newIds ++ takenIds now [entry]) counts' ∧
      (build = .checked → counts' = countEntry now counts entry) := by
  obtain ⟨counts', hjudge, hcount⟩ := exists_judge hcounts h
  obtain ⟨hkept, htaken⟩ := kept_and_taken_singleton now entry
  refine ⟨counts', ?_, hcount⟩
  rw [sweep_cons hj, hjudge, hkept, htaken]
  cases retained now entry with
  | true => simp only [if_true, List.append_nil]
  | false => simp only [Bool.false_eq_true, if_false, List.append_nil]

/-- The loop goes through entries that make no panic, and retains and takes out what it should. -/
theorem exists_sweep {statuses : List (Option TransactionStatus)} {j : ℕ}
    (hj : statuses.drop j = rest.map Prod.snd) (hcounts : build = .checked → CountsFit counts)
    (h : Passes build now counts rest) (kept : List PendingSignature) (newIds : List ℕ) :
    ∃ counts', sweep build now statuses kept.length j (kept ++ rest.map Prod.fst) newIds counts =
        ⟨kept ++ keptSigs now rest, newIds ++ takenIds now rest, counts', false⟩ ∧
      (build = .checked → CountsFit counts') := by
  induction rest generalizing j counts kept newIds with
  | nil =>
    refine ⟨counts, ?_, hcounts⟩
    rw [sweep, dif_neg (by simp)]
    simp [keptSigs, takenIds, entryIds]
  | cons entry rest ih =>
    obtain ⟨hfits, hpasses⟩ := (passes_cons hcounts).mp h
    obtain ⟨hstatus, hnext⟩ := statuses_of_drop hj
    obtain ⟨counts', hstep, hcount⟩ :=
      exists_sweep_cons hstatus hcounts hfits kept (rest.map Prod.fst) newIds
    have hcounts' : build = .checked → CountsFit counts' := fun hb => by
      rw [hcount hb]
      exact hfits.2 hb
    have hpasses' : Passes build now counts' rest := ⟨hpasses.1, fun hb => by
      rw [hcount hb]
      exact hpasses.2 hb⟩
    obtain ⟨counts'', hsweep, hfit⟩ := ih hnext hcounts' hpasses' (kept ++ keptSigs now [entry])
      (newIds ++ takenIds now [entry])
    refine ⟨counts'', ?_, hfit⟩
    rw [List.map_cons, hstep, hsweep, keptSigs_cons now entry rest, takenIds_cons now entry rest,
      List.append_assoc, List.append_assoc]

/-- A loop that checks panics at any other entry; until then it takes out nothing if nothing is
due. -/
theorem sweep_of_not_passes {statuses : List (Option TransactionStatus)} {j : ℕ}
    (hj : statuses.drop j = rest.map Prod.snd) (hcounts : CountsFit counts)
    (h : ¬Passes .checked now counts rest) (kept : List PendingSignature) (newIds : List ℕ) :
    (sweep .checked now statuses kept.length j (kept ++ rest.map Prod.fst) newIds
        counts).panicked = true ∧
      ((∀ entry ∈ rest, due now entry = false) →
        (sweep .checked now statuses kept.length j (kept ++ rest.map Prod.fst) newIds
          counts).sigs = kept ++ rest.map Prod.fst) := by
  induction rest generalizing j counts kept newIds with
  | nil => exact absurd ⟨fun _ hmem => absurd hmem List.not_mem_nil, fun _ => hcounts⟩ h
  | cons entry rest ih =>
    obtain ⟨hstatus, hnext⟩ := statuses_of_drop hj
    by_cases hfits : Fits .checked now counts entry
    · have hrest : ¬Passes .checked now (countEntry now counts entry) rest :=
        fun hrest => h ((passes_cons fun _ => hcounts).mpr ⟨hfits, hrest⟩)
      obtain ⟨counts', hstep, hcount⟩ := exists_sweep_cons hstatus (fun _ => hcounts) hfits
        kept (rest.map Prod.fst) newIds
      obtain rfl := hcount rfl
      obtain ⟨hpanicked, hsigs⟩ := ih hnext (hfits.2 rfl) hrest (kept ++ keptSigs now [entry])
        (newIds ++ takenIds now [entry])
      rw [List.map_cons, hstep]
      refine ⟨hpanicked, fun hdue => ?_⟩
      obtain ⟨hnot, hdue⟩ := List.forall_mem_cons.mp hdue
      -- With a checked age an entry that is not due is retained.
      have hretained : retained now entry = true := by
        rw [retained_eq_not_due_iff.mpr (ageRight_of_ageFits hfits.1), hnot, Bool.not_false]
      rw [hsigs hdue, (kept_and_taken_singleton now entry).1, hretained, if_pos rfl,
        List.append_assoc, List.singleton_append]
    · rw [List.map_cons, sweep_cons hstatus, judge_eq_panic hcounts hfits]
      exact ⟨rfl, fun _ => rfl⟩

end

/-! ## Rounds -/

/-- The ids that the thread holds between the queue and the cleared ones. -/
def newIds (x : TransactionExecutor) : List ℕ :=
  match x.thread with
  | .reporting newIds => newIds
  | _ => []

def outstanding (x : TransactionExecutor) : List ℕ := x.sigs.map PendingSignature.id

/-- The ids that have left the queue. -/
def removed (x : TransactionExecutor) : List ℕ := x.newIds ++ x.cleared ++ x.drained

/-- The round reaches its end. -/
def GoesThrough (build : Build) (client : StatusClient) (now : ℕ) (x : TransactionExecutor) :
    Prop :=
  Answered client x.sigs ∧
    Passes build now { x.counts with numCleared := 0 } (ownStatuses client x.sigs)

/-- The thread has a round before it. -/
def Clears (x : TransactionExecutor) : Prop := x.thread = .waiting ∧ x.exit = false

section

variable {build : Build} {x : TransactionExecutor} {client : StatusClient} {now : ℕ}

theorem round_of_not_clears (h : ¬x.Clears) (build : Build) (client : StatusClient) (now : ℕ) :
    ∃ thread, x.round build client now = { x with thread } ∧
      ({ x with thread } : TransactionExecutor).newIds = x.newIds := by
  rw [round]
  by_cases hwaiting : x.thread = .waiting
  · have hexit : x.exit = true := by
      rw [← Bool.not_eq_false]
      exact fun hexit => h ⟨hwaiting, hexit⟩
    rw [if_neg (not_not.mpr hwaiting), if_pos hexit]
    refine ⟨.exited, rfl, ?_⟩
    rw [newIds, newIds, hwaiting]
  · rw [if_pos hwaiting]
    exact ⟨x.thread, rfl, rfl⟩

theorem newIds_of_clears (h : x.Clears) : x.newIds = [] := by
  rw [newIds, h.1]

/-- A round that reaches its end takes out the entries that are not retained. -/
theorem round_of_goesThrough (hclears : x.Clears)
    (hcounts : build = .checked → CountsFit x.counts) (h : GoesThrough build client now x) :
    ∃ thread counts, x.round build client now =
        { x with
          sigs := keptSigs now (ownStatuses client x.sigs)
          thread
          counts } ∧
      newIds { x with thread } = takenIds now (ownStatuses client x.sigs) ∧
      (build = .checked → CountsFit counts) := by
  have hsigs := map_fst_ownStatuses client x.sigs
  have hexit : ¬x.exit = true := Bool.eq_false_iff.mp hclears.2
  rw [round, if_neg (not_not.mpr hclears.1), if_neg hexit]
  by_cases hsome : x.sigs.length > 0
  · obtain ⟨counts, hsweep, hfit⟩ :=
      exists_sweep List.drop_zero (fun hb => (hcounts hb).reset) h.2 [] []
    rw [List.length_nil, List.nil_append, hsigs] at hsweep
    rw [if_pos hsome, askStatuses_of_answered h.1]
    dsimp only
    rw [hsweep]
    exact ⟨_, counts, rfl, rfl, hfit⟩
  · have hnil : x.sigs = [] := List.eq_nil_of_length_eq_zero (by omega)
    have hown : ownStatuses client x.sigs = [] := List.map_eq_nil_iff.mp (hsigs.trans hnil)
    rw [if_neg hsome, hown]
    refine ⟨x.thread, x.counts, ?_, newIds_of_clears hclears, hcounts⟩
    obtain ⟨sigs, _, _, _, _, _, _, _⟩ := x
    obtain rfl : sigs = [] := hnil
    rfl

/-- Any other round panics, and leaves the queue as it is if nothing is due. -/
theorem round_of_not_goesThrough (hclears : x.Clears)
    (hcounts : build = .checked → CountsFit x.counts) (h : ¬GoesThrough build client now x) :
    ∃ sigs, x.round build client now = { x with sigs, thread := .panicked } ∧
      ((∀ entry ∈ ownStatuses client x.sigs, due now entry = false) → sigs = x.sigs) := by
  have hexit : ¬x.exit = true := Bool.eq_false_iff.mp hclears.2
  have hsome : x.sigs.length > 0 := by
    rw [← length_ownStatuses client x.sigs]
    apply List.length_pos_of_ne_nil
    intro hown
    apply h
    have hnil : x.sigs = [] := by rw [← map_fst_ownStatuses client x.sigs, hown, List.map_nil]
    refine ⟨fun k hk => ?_, ?_⟩
    · rw [hnil] at hk
      cases hk
    · rw [hown]
      exact ⟨fun _ hmem => absurd hmem List.not_mem_nil, fun hb => (hcounts hb).reset⟩
  rw [round, if_neg (not_not.mpr hclears.1), if_neg hexit, if_pos hsome]
  cases hask : askStatuses client x.sigs with
  | ok statuses =>
    have hanswered := answered_of_askStatuses hask
    have hpasses : ¬Passes build now { x.counts with numCleared := 0 }
        (ownStatuses client x.sigs) := fun hpasses => h ⟨hanswered, hpasses⟩
    cases build with
    | wrapping => exact (hpasses ⟨fun _ _ _ => nofun, nofun⟩).elim
    | checked =>
      obtain ⟨hpanicked, hsigs⟩ :=
        sweep_of_not_passes List.drop_zero (hcounts rfl).reset hpasses [] []
      rw [List.length_nil, List.nil_append, map_fst_ownStatuses] at hpanicked hsigs
      obtain rfl := Outcome.ok.inj (hask.symm.trans (askStatuses_of_answered hanswered))
      dsimp only
      rw [if_pos hpanicked]
      exact ⟨_, rfl, hsigs⟩
  | err error => exact ⟨x.sigs, rfl, fun _ => rfl⟩
  | panic => exact ⟨x.sigs, rfl, fun _ => rfl⟩

end

end TransactionExecutor

end Biscuit.Wire
