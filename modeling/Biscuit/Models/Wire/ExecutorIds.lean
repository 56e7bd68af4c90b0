import Biscuit.Models.Wire.BlockingExecutor
import Biscuit.Core.Run
import Mathlib.Data.List.Nodup

/-!
# The ids of the blocking executor

While every transaction of a push is sent, an id is outstanding until a round takes it out of the
queue, then in the hands of the thread, cleared, and at last drained. Each step moves ids on and
none is lost, with one condition on the pushes and one on the rounds; these are exactly the steps
that account for what they do.
-/

namespace Biscuit.Wire.TransactionExecutor

/-! ## Where the ids are -/

/-- Every id that was returned is in exactly one place, once: it is outstanding, cleared, drained,
or in the hands of the thread, which holds none between its rounds. -/
def Accounted (x : TransactionExecutor) : Prop :=
  ∀ id ∈ x.returned,
    x.outstanding.count id + x.newIds.count id + x.cleared.count id + x.drained.count id = 1

/-- What the ids of an executor keep to while no send fails. -/
structure Conserved (build : Build) (x : TransactionExecutor) : Prop where
  returned_eq : x.returned = List.range x.returned.length
  length_le : x.returned.length ≤ 2 ^ 64
  counter_eq : x.counter = x.returned.length % 2 ^ 64
  perm : (x.outstanding ++ x.removed).Perm x.returned
  counts : build = .checked → CountsFit x.counts

section

variable {build : Build} {x : TransactionExecutor} {client : StatusClient} {now : ℕ}

theorem conserved_new (build : Build) : Conserved build newWithRpcClient where
  returned_eq := rfl
  length_le := Nat.zero_le _
  counter_eq := rfl
  perm := List.Perm.refl _
  counts := fun _ => by decide

theorem Conserved.length_eq (h : Conserved build x) :
    x.sigs.length + x.removed.length = x.returned.length := by
  rw [← h.perm.length_eq, List.length_append, outstanding, List.length_map]

theorem Conserved.accounted (h : Conserved build x) : x.Accounted := by
  intro id hid
  have hcount := h.perm.count_eq id
  have hnodup : x.returned.Nodup := by
    rw [h.returned_eq]
    exact List.nodup_range
  rw [List.count_eq_one_of_mem hnodup hid, List.count_append, removed, List.count_append,
    List.count_append] at hcount
  omega

/-! ## Pushing -/

/-- A transaction that is sent brings its id into the queue. -/
theorem Conserved.sendTransaction (h : Conserved build x)
    (hlimit : x.returned.length < 2 ^ 64) (sent : Signature × ℕ) :
    Conserved build (x.sendTransaction (some sent)) := by
  have hcounter : x.counter = x.returned.length := by
    rw [h.counter_eq]
    exact Nat.mod_eq_of_lt hlimit
  have hlength : (x.sendTransaction (some sent)).returned.length = x.returned.length + 1 :=
    List.length_append
  refine ⟨?_, ?_, ?_, ?_, h.counts⟩
  · rw [hlength, List.range_succ, ← h.returned_eq, ← hcounter]
    rfl
  · rw [hlength]
    exact hlimit
  · rw [hlength, ← hcounter]
    rfl
  · have houtstanding : (x.sendTransaction (some sent)).outstanding =
        x.outstanding ++ [x.counter] := List.map_append
    rw [houtstanding, List.append_assoc]
    change (x.outstanding ++ ([x.counter] ++ x.removed)).Perm (x.returned ++ [x.counter])
    refine (List.Perm.append_left _ List.perm_append_comm).trans ?_
    rw [← List.append_assoc]
    exact h.perm.append_right _

theorem Conserved.foldl_sendTransaction {sends : List (Option (Signature × ℕ))}
    (h : Conserved build x) (hlimit : x.returned.length + sends.length ≤ 2 ^ 64)
    (hsent : ∀ send ∈ sends, ∃ sent, send = some sent) :
    Conserved build (sends.foldl TransactionExecutor.sendTransaction x) := by
  induction sends generalizing x with
  | nil => exact h
  | cons send sends ih =>
    obtain ⟨⟨sent, rfl⟩, hrest⟩ := List.forall_mem_cons.mp hsent
    rw [List.length_cons] at hlimit
    refine ih (h.sendTransaction (by omega) sent) ?_ hrest
    change (x.returned ++ [x.counter]).length + sends.length ≤ 2 ^ 64
    rw [List.length_append, List.length_singleton]
    omega

theorem length_outstanding_sendTransaction (x : TransactionExecutor)
    (send : Option (Signature × ℕ)) :
    (x.sendTransaction send).outstanding.length = x.outstanding.length + send.toList.length := by
  rw [outstanding, outstanding, List.length_map, List.length_map, sendTransaction,
    List.length_append]
  cases send <;> rfl

/-- Transactions take the next ids whether or not they are sent; only those that are sent come into
the queue. -/
theorem returned_foldl_sendTransaction {sends : List (Option (Signature × ℕ))}
    (hreturned : x.returned = List.range x.returned.length)
    (hcounter : x.counter = x.returned.length % 2 ^ 64)
    (hlimit : x.returned.length + sends.length ≤ 2 ^ 64) :
    (sends.foldl sendTransaction x).returned = List.range (x.returned.length + sends.length) ∧
      (sends.foldl sendTransaction x).outstanding.length =
        x.outstanding.length + (sends.filter Option.isSome).length ∧
      (sends.foldl sendTransaction x).removed = x.removed := by
  induction sends generalizing x with
  | nil => exact ⟨hreturned, rfl, rfl⟩
  | cons send sends ih =>
    rw [List.length_cons] at hlimit
    have hlength : (x.sendTransaction send).returned.length = x.returned.length + 1 :=
      List.length_append
    have hnext : x.counter = x.returned.length := by
      rw [hcounter]
      exact Nat.mod_eq_of_lt (by omega)
    have hrange : (x.sendTransaction send).returned =
        List.range (x.sendTransaction send).returned.length := by
      rw [hlength, List.range_succ, ← hreturned, ← hnext]
      rfl
    have hcount : (x.sendTransaction send).counter =
        (x.sendTransaction send).returned.length % 2 ^ 64 := by
      rw [hlength, ← hnext]
      rfl
    obtain ⟨hall, hout, hremoved⟩ := ih hrange hcount (by omega)
    refine ⟨?_, ?_, hremoved⟩
    · rw [List.foldl_cons, hall, hlength, List.length_cons, Nat.add_assoc, Nat.add_comm 1]
    · rw [List.foldl_cons, hout, length_outstanding_sendTransaction]
      cases send with
      | none => rfl
      | some sent =>
        rw [List.filter_cons_of_pos rfl, List.length_cons, Option.toList_some,
          List.length_singleton]
        omega

/-- If every id that was handed out is somewhere, every transaction was sent. -/
theorem Conserved.sent_of_accounted {sends : List (Option (Signature × ℕ))}
    (h : Conserved build x) (hlimit : x.returned.length + sends.length ≤ 2 ^ 64)
    (haccounted : (sends.foldl TransactionExecutor.sendTransaction x).Accounted) :
    ∀ send ∈ sends, ∃ sent, send = some sent := by
  obtain ⟨hreturned, hout, hremoved⟩ :=
    returned_foldl_sendTransaction h.returned_eq h.counter_eq hlimit
  have hsubset : List.range (x.returned.length + sends.length) ⊆
      (sends.foldl TransactionExecutor.sendTransaction x).outstanding ++ x.removed := by
    intro id hid
    rw [← hreturned] at hid
    have hone := haccounted id hid
    rw [← hremoved, ← List.count_pos_iff, List.count_append, TransactionExecutor.removed,
      List.count_append, List.count_append]
    omega
  have hle := (List.subperm_of_subset List.nodup_range hsubset).length_le
  have hlength := h.length_eq
  rw [List.length_range, List.length_append, hout, outstanding, List.length_map] at hle
  have hall : (sends.filter Option.isSome).length = sends.length :=
    le_antisymm (List.length_filter_le _ _) (by omega)
  intro send hsend
  exact Option.isSome_iff_exists.mp (List.length_filter_eq_length_iff.mp hall send hsend)

/-! ## Clearing -/

/-- A round takes exactly the entries out of the queue that are due, each by its own signature. -/
def ClearsDue (client : StatusClient) (now : ℕ) (x y : TransactionExecutor) : Prop :=
  y.sigs = ((ownStatuses client x.sigs).filter fun entry => !due now entry).map Prod.fst ∧
    y.newIds = entryIds ((ownStatuses client x.sigs).filter (due now))

theorem entryIds_ownStatuses (client : StatusClient) (x : TransactionExecutor) :
    entryIds (ownStatuses client x.sigs) = x.outstanding := by
  rw [outstanding, ← map_fst_ownStatuses client x.sigs, List.map_map, map_fst_ownStatuses]
  rfl

/-- Entries that are parted keep their ids. -/
theorem entryIds_filter_perm (p : PendingSignature × Option TransactionStatus → Bool)
    (entries : List (PendingSignature × Option TransactionStatus)) :
    (entryIds (entries.filter p) ++ entryIds (entries.filter fun entry => !p entry)).Perm
      (entryIds entries) := by
  rw [entryIds, entryIds, ← List.map_append]
  exact (List.filter_append_perm p entries).map _

/-- Ids that have left the queue may change their place. -/
theorem Conserved.of_perm {thread : SigClearThread} {cleared drained : List ℕ}
    (h : Conserved build x) (hperm : (removed { x with thread, cleared, drained }).Perm x.removed) :
    Conserved build { x with thread, cleared, drained } := by
  exact ⟨h.returned_eq, h.length_le, h.counter_eq, (hperm.append_left _).trans h.perm, h.counts⟩

theorem Conserved.round_of_goesThrough (h : Conserved build x) (hclears : x.Clears)
    (hround : GoesThrough build client now x) :
    Conserved build (x.round build client now) := by
  obtain ⟨thread, counts, hstep, hnew, hfit⟩ :=
    TransactionExecutor.round_of_goesThrough hclears h.counts hround
  rw [hstep]
  have hremoved : ∀ sigs, removed { x with sigs, thread, counts } =
      takenIds now (ownStatuses client x.sigs) ++ x.removed := by
    intro sigs
    change newIds { x with thread } ++ x.cleared ++ x.drained = _
    rw [hnew, removed, newIds_of_clears hclears, List.nil_append, List.append_assoc]
  refine ⟨h.returned_eq, h.length_le, h.counter_eq, ?_, hfit⟩
  rw [hremoved, ← List.append_assoc, outstanding, keptSigs, List.map_map]
  refine List.Perm.trans (List.Perm.append_right _ ?_) h.perm
  rw [← entryIds_ownStatuses client x]
  exact entryIds_filter_perm (retained now) _

/-- What is due is always taken; if no more than that is, what stays is what is not due. -/
theorem ageRight_of_length_takenIds
    {entries : List (PendingSignature × Option TransactionStatus)}
    (h : (takenIds now entries).length = (entries.filter (due now)).length) :
    ∀ entry ∈ entries, AgeRight now entry := by
  rw [takenIds, entryIds, List.length_map] at h
  have hsublist : (entries.filter (due now)).Sublist
      (entries.filter fun entry => !retained now entry) := by
    apply List.monotone_filter_right
    intro entry hdue
    cases hretained : retained now entry with
    | false => rfl
    | true =>
      rw [due_eq_false_of_retained hretained] at hdue
      cases hdue
  have hsame := hsublist.eq_of_length h.symm
  intro entry hentry
  rw [← retained_eq_not_due_iff]
  cases hretained : retained now entry with
  | true => rw [due_eq_false_of_retained hretained, Bool.not_false]
  | false =>
    have hmem : entry ∈ entries.filter (due now) := by
      rw [hsame]
      exact List.mem_filter.mpr ⟨hentry, by rw [hretained, Bool.not_false]⟩
    rw [(List.mem_filter.mp hmem).2, Bool.not_true]

/-- With the right ages the loop parts the entries as it should. -/
theorem kept_and_taken_of_ageRight
    {entries : List (PendingSignature × Option TransactionStatus)}
    (h : ∀ entry ∈ entries, AgeRight now entry) :
    keptSigs now entries = (entries.filter fun entry => !due now entry).map Prod.fst ∧
      takenIds now entries = entryIds (entries.filter (due now)) := by
  have hretained : ∀ entry ∈ entries, retained now entry = !due now entry :=
    fun entry hentry => retained_eq_not_due_iff.mpr (h entry hentry)
  have hdue : ∀ entry ∈ entries, (!retained now entry) = due now entry := by
    intro entry hentry
    rw [hretained entry hentry, Bool.not_not]
  rw [keptSigs, takenIds, List.filter_congr hretained, List.filter_congr hdue]
  exact ⟨rfl, rfl⟩

/-- A round that reaches its end clears what is due exactly when it is right about the ages. -/
theorem clearsDue_iff_of_goesThrough (h : Conserved build x) (hclears : x.Clears)
    (hround : GoesThrough build client now x) :
    ClearsDue client now x (x.round build client now) ↔
      ∀ entry ∈ ownStatuses client x.sigs, AgeRight now entry := by
  obtain ⟨thread, counts, hstep, hnew, -⟩ :=
    TransactionExecutor.round_of_goesThrough hclears h.counts hround
  rw [hstep, ClearsDue]
  change _ ∧ newIds { x with thread } = _ ↔ _
  rw [hnew]
  constructor
  · rintro ⟨-, hids⟩
    apply ageRight_of_length_takenIds
    rw [hids, entryIds, List.length_map]
  · exact kept_and_taken_of_ageRight

/-- A round that panics clears what is due exactly when nothing is. -/
theorem clearsDue_iff_of_not_goesThrough (h : Conserved build x) (hclears : x.Clears)
    (hround : ¬GoesThrough build client now x) :
    ClearsDue client now x (x.round build client now) ↔
      ∀ entry ∈ ownStatuses client x.sigs, due now entry = false := by
  obtain ⟨sigs, hstep, hsigs⟩ := round_of_not_goesThrough hclears h.counts hround
  rw [hstep, ClearsDue]
  constructor
  · rintro ⟨-, hids⟩ entry hentry
    have hnone := List.filter_eq_nil_iff.mp (List.map_eq_nil_iff.mp hids.symm)
    exact Bool.eq_false_iff.mpr (hnone entry hentry)
  · intro hdue
    have hkept : ((ownStatuses client x.sigs).filter fun entry => !due now entry) =
        ownStatuses client x.sigs :=
      List.filter_eq_self.mpr fun entry hentry => by rw [hdue entry hentry, Bool.not_false]
    have hnone : (ownStatuses client x.sigs).filter (due now) = [] :=
      List.filter_eq_nil_iff.mpr fun entry hentry => Bool.eq_false_iff.mp (hdue entry hentry)
    rw [hkept, hnone, map_fst_ownStatuses]
    exact ⟨hsigs hdue, rfl⟩

theorem Conserved.round_of_not_due (h : Conserved build x) (hclears : x.Clears)
    (hround : ¬GoesThrough build client now x)
    (hdue : ∀ entry ∈ ownStatuses client x.sigs, due now entry = false) :
    Conserved build (x.round build client now) := by
  obtain ⟨sigs, hstep, hsigs⟩ := round_of_not_goesThrough hclears h.counts hround
  rw [hstep, hsigs hdue]
  apply h.of_perm
  rw [removed, removed, newIds_of_clears hclears]
  exact List.Perm.refl _

/-! ## Runs -/

/-- A push hands out no id twice. -/
def IdsLeft (x : TransactionExecutor) : ExecutorEvent → Prop
  | .push sends => x.returned.length + sends.length ≤ 2 ^ 64
  | _ => True

/-- The step leaves every id accounted for, and a round clears exactly what is due. -/
def Accounts (build : Build) (x : TransactionExecutor) (e : ExecutorEvent) : Prop :=
  (x.step build e).Accounted ∧
    match e with
    | .round client now => x.Clears → ClearsDue client now x (x.round build client now)
    | _ => True

/-- A push sends all of its transactions; a round that reaches its end is right about the ages of
the entries without a status; and one that panics has nothing to clear. -/
def Undisturbed (build : Build) (x : TransactionExecutor) : ExecutorEvent → Prop
  | .push sends => x.exit = false → x.thread ≠ .panicked → ∀ send ∈ sends, ∃ sent, send = some sent
  | .round client now => x.Clears →
    (GoesThrough build client now x →
      ∀ entry ∈ ownStatuses client x.sigs, AgeRight now entry) ∧
    (¬GoesThrough build client now x →
      ∀ entry ∈ ownStatuses client x.sigs, due now entry = false)
  | _ => True

theorem Conserved.report (h : Conserved build x) : Conserved build x.report := by
  rw [TransactionExecutor.report]
  cases hthread : x.thread with
  | reporting new =>
    apply h.of_perm
    rw [removed, removed, newIds, newIds, hthread]
    change (x.cleared ++ new ++ x.drained).Perm (new ++ x.cleared ++ x.drained)
    exact List.perm_append_comm.append_right _
  | waiting => exact h
  | exited => exact h
  | panicked => exact h

theorem Conserved.drainCleared (h : Conserved build x) : Conserved build x.drainCleared := by
  rw [TransactionExecutor.drainCleared]
  split_ifs with hexit
  · exact h
  · apply h.of_perm
    rw [removed, removed, List.append_nil, List.append_assoc]
    exact List.perm_append_comm.append_left _

theorem Conserved.pushTransactions {sends : List (Option (Signature × ℕ))} (h : Conserved build x)
    (hids : IdsLeft x (.push sends)) (hsent : Undisturbed build x (.push sends)) :
    Conserved build (x.pushTransactions sends) := by
  rw [TransactionExecutor.pushTransactions]
  split_ifs with hclosed
  · exact h
  · obtain ⟨hexit, hthread⟩ := not_or.mp hclosed
    exact h.foldl_sendTransaction hids (hsent (Bool.eq_false_iff.mpr hexit) hthread)

theorem Conserved.round (h : Conserved build x)
    (hround : Undisturbed build x (.round client now)) :
    Conserved build (x.round build client now) := by
  by_cases hclears : x.Clears
  · by_cases hthrough : GoesThrough build client now x
    · exact h.round_of_goesThrough hclears hthrough
    · exact h.round_of_not_due hclears hthrough ((hround hclears).2 hthrough)
  · obtain ⟨thread, hstep, hnew⟩ := round_of_not_clears hclears build client now
    rw [hstep]
    apply h.of_perm
    rw [removed, removed, ← hnew]

/-- A step that is undisturbed keeps every id in its place or moves it on. -/
theorem Conserved.step {e : ExecutorEvent} (h : Conserved build x) (hids : IdsLeft x e)
    (he : Undisturbed build x e) : Conserved build (x.step build e) := by
  cases e with
  | push sends => exact h.pushTransactions hids he
  | round client now => exact h.round he
  | report => exact h.report
  | drain => exact h.drainCleared
  | close => exact ⟨h.returned_eq, h.length_le, h.counter_eq, h.perm, h.counts⟩

/-- Where nothing was lost yet, exactly the undisturbed steps account for what they do. -/
theorem Conserved.undisturbed_iff_accounts (h : Conserved build x) {e : ExecutorEvent}
    (hids : IdsLeft x e) : Undisturbed build x e ↔ Accounts build x e := by
  constructor
  · intro he
    refine ⟨(h.step hids he).accounted, ?_⟩
    cases e with
    | round client now =>
      intro hclears
      by_cases hthrough : GoesThrough build client now x
      · exact (clearsDue_iff_of_goesThrough h hclears hthrough).mpr ((he hclears).1 hthrough)
      · exact (clearsDue_iff_of_not_goesThrough h hclears hthrough).mpr ((he hclears).2 hthrough)
    | push sends => trivial
    | report => trivial
    | drain => trivial
    | close => trivial
  · rintro ⟨haccounted, hround⟩
    cases e with
    | push sends =>
      intro hexit hthread
      have hopen : ¬(x.exit = true ∨ x.thread = .panicked) :=
        not_or.mpr ⟨Bool.eq_false_iff.mp hexit, hthread⟩
      rw [TransactionExecutor.step, TransactionExecutor.pushTransactions, if_neg hopen]
        at haccounted
      exact h.sent_of_accounted hids haccounted
    | round client now =>
      intro hclears
      have hdue := hround hclears
      exact ⟨fun hthrough => (clearsDue_iff_of_goesThrough h hclears hthrough).mp hdue,
        fun hthrough => (clearsDue_iff_of_not_goesThrough h hclears hthrough).mp hdue⟩
    | report => trivial
    | drain => trivial
    | close => trivial

/-- A run of the executor accounts for every id and clears what is due exactly as long as it is
undisturbed. -/
theorem along_accounts_iff (build : Build) (es : List ExecutorEvent) :
    Along (step build) (fun x e => IdsLeft x e ∧ Accounts build x e) newWithRpcClient es ↔
      Along (step build) (fun x e => IdsLeft x e ∧ Undisturbed build x e) newWithRpcClient
        es := by
  symm
  refine along_iff_along (I := Conserved build) ?_ ?_ (conserved_new build)
  · intro x e hx he
    exact hx.step he.1 he.2
  · intro x e hx
    exact and_congr_right fun hids => hx.undisturbed_iff_accounts hids

/-- A node on which one signature has landed. -/
def landedClient (landed : Signature) : StatusClient where
  statuses _ signatures := some (signatures.map fun s =>
    if s = landed then some ⟨0, none, true⟩ else none)
  length_eq h := by rw [← Option.some.inj h, List.length_map]

/-- Two transactions are sent; the first one lands and is cleared, the second one stays. -/
def sampleRound : List ExecutorEvent :=
  [.push [some (7, 1000), some (8, 1000)], .round (landedClient 7) 2000, .report, .drain]

/-- Both of their ids are accounted for. -/
theorem along_accounts_sampleRound :
    Along (step .wrapping) (fun x e => IdsLeft x e ∧ Accounts .wrapping x e) newWithRpcClient
      sampleRound ∧
    (exec (step .wrapping) newWithRpcClient sampleRound).outstanding = [1] ∧
    (exec (step .wrapping) newWithRpcClient sampleRound).drained = [0] := by
  have hpush : Undisturbed .wrapping newWithRpcClient (.push [some (7, 1000), some (8, 1000)]) := by
    intro _ _ send hsend
    rcases List.mem_cons.mp hsend with rfl | hsend
    · exact ⟨_, rfl⟩
    · exact ⟨_, List.mem_singleton.mp hsend⟩
  have hround : Undisturbed .wrapping
      (newWithRpcClient.pushTransactions [some (7, 1000), some (8, 1000)])
      (.round (landedClient 7) 2000) := by
    intro _
    refine ⟨fun _ entry hentry _ => .inl ?_, fun hnot => absurd ⟨?_, ?_⟩ hnot⟩
    · have hmem := List.mem_map_of_mem (f := Prod.fst) hentry
      rw [map_fst_ownStatuses] at hmem
      rcases List.mem_cons.mp hmem with h | h
      · rw [h]
        decide
      · rw [List.mem_singleton.mp h]
        decide
    · intro k _
      exact ⟨_, rfl⟩
    · exact ⟨fun entry hentry _ hb => (by cases hb), fun hb => (by cases hb)⟩
  refine ⟨(along_accounts_iff .wrapping sampleRound).mpr
    ⟨⟨?_, hpush⟩, ⟨trivial, hround⟩, ⟨trivial, trivial⟩, ⟨trivial, trivial⟩, trivial⟩, ?_, ?_⟩
  · change 0 + 2 ≤ 2 ^ 64
    decide
  · decide +kernel
  · decide +kernel

/-- The id of a transaction that could not be sent is in no list. -/
theorem along_accounts_refused :
    ¬∀ (build : Build) (es : List ExecutorEvent),
      Along (step build) (Accounts build) newWithRpcClient es := by
  intro h
  have hpushed := (h .checked [.push [none]]).1.1 0 (by decide)
  exact absurd hpushed (by decide)

end

end Biscuit.Wire.TransactionExecutor
