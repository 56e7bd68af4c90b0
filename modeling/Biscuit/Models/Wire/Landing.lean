import Biscuit.Models.Wire.Expiry

/-!
# What a confirmation tells

The node answers a status query with what has landed and with the error it has there. What is
reported as confirmed has then landed, with the error that is reported. Whatever the tasks of the
service do, it forgets nothing that it was handed and nothing that it has reported.
-/

namespace Biscuit.Wire

/-- The handle that a transaction is sent through. -/
def ConfirmEvent.handle? : ConfirmEvent → Option TransactionSourceId
  | .sendTransaction handle _ _ => some handle
  | .resendTransaction handle _ _ _ => some handle
  | _ => none

namespace SendTransactionService

/-- The node shows only what has landed, with the error that it has on chain. -/
def ShowsLanded (chain : Signature → Option TransactionError) (s : SendTransactionService) :
    ConfirmEvent → Prop
  | .statuses (some statuses) => ∀ r ∈ s.asked.zip statuses, ∀ status ∈ r.2,
      status.satisfiesCommitment = true → r.1 ∈ s.landed ∧ status.err = chain r.1
  | _ => True

instance (chain : Signature → Option TransactionError) (s : SendTransactionService) :
    DecidablePred (s.ShowsLanded chain)
  | .statuses (some statuses) => List.decidableBAll
      (fun r : Signature × Option TransactionStatus => ∀ status ∈ r.2,
        status.satisfiesCommitment = true → r.1 ∈ s.landed ∧ status.err = chain r.1)
      (s.asked.zip statuses)
  | .subscribe | .subscribeAll | .notifyBlockhash _ | .storeBlockHeight _ | .sendTransaction .. |
    .resendTransaction .. | .recv | .land _ | .load _ | .statuses none | .collect _ | .expire =>
    isTrue trivial

/-- Block heights do not decrease, and the node tells the truth. -/
structure Candid (chain : Signature → Option TransactionError) (s : SendTransactionService)
    (e : ConfirmEvent) : Prop where
  grow : s.HeightsGrow e
  truthful : s.Truthful e
  shows : s.ShowsLanded chain e

/-- The conditions of a run: the node is candid, and nothing that it could tell is missed. -/
structure Faithful (chain : Signature → Option TransactionError) (s : SendTransactionService)
    (e : ConfirmEvent) : Prop extends s.Candid chain e where
  missed : s.NothingMissed e

instance (chain : Signature → Option TransactionError) (s : SendTransactionService) :
    DecidablePred (s.Candid chain) := fun e =>
  decidable_of_iff (s.HeightsGrow e ∧ s.Truthful e ∧ s.ShowsLanded chain e)
    ⟨fun h => ⟨h.1, h.2.1, h.2.2⟩, fun h => ⟨h.grow, h.truthful, h.shows⟩⟩

instance (chain : Signature → Option TransactionError) (s : SendTransactionService) :
    DecidablePred (s.Faithful chain) := fun e =>
  decidable_of_iff (s.Candid chain e ∧ s.NothingMissed e)
    ⟨fun h => ⟨h.1, h.2⟩, fun h => ⟨h.toCandid, h.missed⟩⟩

/-- What is reported as confirmed has landed, with the error that is reported. -/
def ReportsLanded (chain : Signature → Option TransactionError) (s : SendTransactionService) :
    Prop :=
  ∀ d error slot, .report ⟨d, .confirmed error slot⟩ ∈ s.log →
    d.signature ∈ s.landed ∧ error = reportedError (chain d.signature)

/-! ## What a step leaves behind -/

/-- What the confirmation task leaves alone; it only adds to the log. -/
structure LeavesAlone (s s' : SendTransactionService) : Prop where
  nextTxnId : s'.nextTxnId = s.nextTxnId
  nextSourceId : s'.nextSourceId = s.nextSourceId
  handles : s'.handles = s.handles
  handed : s'.handed = s.handed
  landed : s'.landed = s.landed
  log : s.log ⊆ s'.log

theorem LeavesAlone.refl (s : SendTransactionService) : s.LeavesAlone s :=
  ⟨rfl, rfl, rfl, rfl, rfl, List.Subset.refl _⟩

theorem LeavesAlone.trans {s s' s'' : SendTransactionService} (h : s.LeavesAlone s')
    (h' : s'.LeavesAlone s'') : s.LeavesAlone s'' where
  nextTxnId := h'.nextTxnId.trans h.nextTxnId
  nextSourceId := h'.nextSourceId.trans h.nextSourceId
  handles := h'.handles.trans h.handles
  handed := h'.handed.trans h.handed
  landed := h'.landed.trans h.landed
  log := List.Subset.trans h.log h'.log

theorem leavesAlone_answer (s : SendTransactionService) (sig : Signature)
    (d : SendTransactionData) (response : ConfirmTransactionResponse) :
    s.LeavesAlone (s.answer sig d response) := by
  unfold answer
  dsimp only
  split
  · exact ⟨rfl, rfl, rfl, rfl, rfl, List.subset_cons_self _ _⟩
  · exact ⟨rfl, rfl, rfl, rfl, rfl, List.Subset.refl _⟩

theorem leavesAlone_confirmOne (s : SendTransactionService)
    (r : Signature × Option TransactionStatus) : s.LeavesAlone (s.confirmOne r) := by
  unfold confirmOne
  split
  · exact .refl s
  · split
    · exact s.leavesAlone_answer _ _ _
    · exact .refl s

theorem leavesAlone_foldl (rs : List (Signature × Option TransactionStatus))
    (s : SendTransactionService) : s.LeavesAlone (rs.foldl confirmOne s) := by
  induction rs generalizing s with
  | nil => exact .refl s
  | cons r rs ih => exact (s.leavesAlone_confirmOne r).trans (ih _)

theorem leavesAlone_load (s : SendTransactionService) (iter : Iteration Signature) :
    s.LeavesAlone (s.load iter) := by
  unfold load
  split
  · exact ⟨rfl, rfl, rfl, rfl, rfl, List.Subset.refl _⟩
  · split
    · exact .refl s
    · exact ⟨rfl, rfl, rfl, rfl, rfl, List.Subset.refl _⟩
  · exact .refl s

theorem leavesAlone_statuses (s : SendTransactionService)
    (result : Option (List (Option TransactionStatus))) : s.LeavesAlone (s.statuses result) := by
  unfold statuses
  split
  · dsimp only
    split
    · exact ⟨rfl, rfl, rfl, rfl, rfl, List.Subset.refl _⟩
    · refine LeavesAlone.trans ?_ (leavesAlone_foldl _ _)
      exact ⟨rfl, rfl, rfl, rfl, rfl, List.subset_cons_self _ _⟩
  · exact .refl s

theorem leavesAlone_collect (s : SendTransactionService) (iter : Iteration Signature) :
    s.LeavesAlone (s.collect iter) := by
  unfold collect
  split
  · exact ⟨rfl, rfl, rfl, rfl, rfl, List.Subset.refl _⟩
  · exact .refl s

theorem leavesAlone_expire (s : SendTransactionService) : s.LeavesAlone s.expire := by
  unfold expire
  split
  · split
    · refine LeavesAlone.trans ?_ (leavesAlone_answer _ _ _ _)
      exact ⟨rfl, rfl, rfl, rfl, rfl, List.Subset.refl _⟩
    · exact ⟨rfl, rfl, rfl, rfl, rfl, List.Subset.refl _⟩
  · exact ⟨rfl, rfl, rfl, rfl, rfl, List.Subset.refl _⟩
  · exact .refl s

/-- What a step does to what the service has given out, was handed and has seen. -/
structure Grows (s : SendTransactionService) (e : ConfirmEvent) (s' : SendTransactionService) :
    Prop where
  nextTxnId : s.nextTxnId ≤ s'.nextTxnId
  nextSourceId : s.nextSourceId ≤ s'.nextSourceId
  handles : s.handles ⊆ s'.handles
  /-- A new handle gets a number that none had. -/
  given : ∀ handle ∈ s'.handles, handle ∈ s.handles ∨
    handle = s.nextSourceId ∧ s.nextSourceId < s'.nextSourceId
  /-- A new transaction is handed over through its handle. -/
  handed : ∀ d ∈ s'.handed, d ∈ s.handed ∨ e.handle? = some d.sourceId ∧ d.sourceId ∈ s.handles
  landed : s.landed ⊆ s'.landed
  log : s.log ⊆ s'.log

theorem LeavesAlone.grows {s s' : SendTransactionService} (h : s.LeavesAlone s')
    (e : ConfirmEvent) : s.Grows e s' where
  nextTxnId := h.nextTxnId.ge
  nextSourceId := h.nextSourceId.ge
  handles := h.handles ▸ List.Subset.refl _
  given _ hh := .inl (h.handles ▸ hh)
  handed _ hd := .inl (h.handed ▸ hd)
  landed := h.landed ▸ List.Subset.refl _
  log := h.log

theorem step_grows (s : SendTransactionService) (e : ConfirmEvent) : s.Grows e (step s e) := by
  have hsame : s.Grows e s := (LeavesAlone.refl s).grows e
  have hgiven : ∀ handle ∈ s.nextSourceId :: s.handles, handle ∈ s.handles ∨
      handle = s.nextSourceId ∧ s.nextSourceId < s.nextSourceId + 1 := by
    intro handle hh
    rcases List.mem_cons.mp hh with rfl | hh
    · exact .inr ⟨rfl, Nat.lt_succ_self _⟩
    · exact .inl hh
  have hhanded : ∀ {e : ConfirmEvent} {handle : TransactionSourceId} (signature : Signature)
      (txnId : TransactionId) (sendToJito : Bool), e.handle? = some handle → handle ∈ s.handles →
      ∀ d ∈ (s.hand handle signature txnId sendToJito).handed,
        d ∈ s.handed ∨ e.handle? = some d.sourceId ∧ d.sourceId ∈ s.handles := by
    intro e handle signature txnId sendToJito he hh d hd
    rcases List.mem_cons.mp hd with rfl | hd
    · exact .inr ⟨he, hh⟩
    · exact .inl hd
  cases e with
  | subscribe =>
    exact ⟨le_rfl, Nat.le_succ _, List.subset_cons_self _ _, hgiven, hsame.handed, hsame.landed,
      hsame.log⟩
  | subscribeAll =>
    exact ⟨le_rfl, Nat.le_succ _, List.subset_cons_self _ _, hgiven, hsame.handed, hsame.landed,
      hsame.log⟩
  | notifyBlockhash | storeBlockHeight =>
    exact ⟨le_rfl, le_rfl, hsame.handles, hsame.given, hsame.handed, hsame.landed, hsame.log⟩
  | land signature =>
    exact ⟨le_rfl, le_rfl, hsame.handles, hsame.given, hsame.handed, List.subset_cons_self _ _,
      hsame.log⟩
  | sendTransaction handle signature sendToJito =>
    simp only [step, sendTransaction]
    split
    · rename_i hh
      exact ⟨Nat.le_succ _, le_rfl, hsame.handles, hsame.given,
        hhanded signature s.nextTxnId sendToJito rfl hh, hsame.landed, hsame.log⟩
    · exact hsame
  | resendTransaction handle signature txnId sendToJito =>
    simp only [step, resendTransaction]
    split
    · rename_i hh
      exact ⟨le_rfl, le_rfl, hsame.handles, hsame.given,
        hhanded signature txnId sendToJito rfl hh, hsame.landed, hsame.log⟩
    · exact hsame
  | recv =>
    simp only [step, recv]
    split
    · exact hsame
    · exact ⟨le_rfl, le_rfl, hsame.handles, hsame.given, hsame.handed, hsame.landed, hsame.log⟩
  | load iter => exact of_running hsame fun _ => (s.leavesAlone_load iter).grows _
  | statuses result => exact of_running hsame fun _ => (s.leavesAlone_statuses result).grows _
  | collect iter => exact of_running hsame fun _ => (s.leavesAlone_collect iter).grows _
  | expire => exact of_running hsame fun _ => s.leavesAlone_expire.grows _

/-! ## What is reported as confirmed -/

/-- A confirmation that is reported from an answer was shown by it. -/
theorem reports_foldl_confirmOne {rs : List (Signature × Option TransactionStatus)}
    {s : SendTransactionService} {d : SendTransactionData} {error : Option TransactionError}
    {slot : ℕ} (h : .report ⟨d, .confirmed error slot⟩ ∈ (rs.foldl confirmOne s).log) :
    .report ⟨d, .confirmed error slot⟩ ∈ s.log ∨
      ∃ sig status, (sig, some status) ∈ rs ∧ status.satisfiesCommitment = true ∧
        error = reportedError status.err ∧ s.unconfirmedTransactions.lookup sig = some d := by
  induction rs generalizing s with
  | nil => exact .inl h
  | cons r rs ih =>
    rw [List.foldl_cons] at h
    rcases ih h with hlog | ⟨sig, status, hmem, hsat, herror, hlookup⟩
    · unfold confirmOne at hlog
      split at hlog
      · exact .inl hlog
      · split at hlog
        · rename_i status data hstatus hlookup
          obtain ⟨hshown, hsat⟩ := Option.filter_eq_some_iff.mp hstatus
          unfold answer at hlog
          dsimp only at hlog
          split at hlog
          · rcases List.mem_cons.mp hlog with heq | hlog
            · cases heq
              refine .inr ⟨r.1, status, ?_, hsat, rfl, hlookup⟩
              rw [← hshown]
              exact List.mem_cons_self
            · exact .inl hlog
          · exact .inl hlog
        · exact .inl hlog
    · exact .inr ⟨sig, status, List.mem_cons_of_mem _ hmem, hsat, herror,
        (confirms_confirmOne s r).lookup sig d hlookup⟩

variable {chain : Signature → Option TransactionError}

theorem ReportsLanded.congr {s s' : SendTransactionService} (hs : s.ReportsLanded chain)
    (hlog : s'.log = s.log) (hlanded : s.landed ⊆ s'.landed) : s'.ReportsLanded chain := by
  intro d error slot h
  rw [hlog] at h
  exact (hs d error slot h).imp_left fun hd => hlanded hd

theorem ReportsLanded.statuses {s : SendTransactionService} (hs : s.ReportsLanded chain)
    (hworld : s.World) {result : Option (List (Option TransactionStatus))}
    (hshows : s.ShowsLanded chain (.statuses result)) :
    (s.statuses result).ReportsLanded chain := by
  unfold SendTransactionService.statuses
  split
  · rename_i current sig rest hphase
    dsimp only
    split
    · exact hs.congr rfl (List.Subset.refl _)
    · rename_i statuses
      intro d error slot h
      have hasked : s.asked = (sig :: rest).take maxGetSignatureStatusesQueryItems := by
        rw [asked, unasked, hphase]
      rw [(leavesAlone_foldl _ _).landed]
      rcases reports_foldl_confirmOne h with hlog | ⟨sig', status, hmem, hsat, rfl, hlookup⟩
      · rcases List.mem_cons.mp hlog with heq | hlog
        · cases heq
        · exact hs d error slot hlog
      · rw [← hasked] at hmem
        obtain ⟨hlanded, herr⟩ := hshows (sig', some status) hmem status rfl hsat
        rw [(hworld.pending sig' d hlookup).2, herr]
        exact ⟨hlanded, rfl⟩
  · exact hs

theorem ReportsLanded.expire {s : SendTransactionService} (hs : s.ReportsLanded chain) :
    s.expire.ReportsLanded chain := by
  unfold SendTransactionService.expire
  split
  · split
    · unfold answer
      dsimp only
      split
      · intro d error slot h
        rcases List.mem_cons.mp h with heq | h
        · cases heq
        · exact hs d error slot h
      · exact hs.congr rfl (List.Subset.refl _)
    · exact hs.congr rfl (List.Subset.refl _)
  · exact hs.congr rfl (List.Subset.refl _)
  · exact hs

theorem step_reportsLanded (s : SendTransactionService) (e : ConfirmEvent)
    (hs : s.ReportsLanded chain) (hworld : s.World) (hshows : s.ShowsLanded chain e) :
    (step s e).ReportsLanded chain := by
  have hsubset := List.Subset.refl s.landed
  cases e with
  | subscribe | subscribeAll | notifyBlockhash | storeBlockHeight => exact hs.congr rfl hsubset
  | land signature => exact hs.congr rfl (List.subset_cons_self _ _)
  | sendTransaction handle signature sendToJito =>
    simp only [step, sendTransaction]
    split
    · exact hs.congr rfl hsubset
    · exact hs
  | resendTransaction handle signature txnId sendToJito =>
    simp only [step, resendTransaction]
    split
    · exact hs.congr rfl hsubset
    · exact hs
  | recv =>
    simp only [step, recv]
    split
    · exact hs
    · exact hs.congr rfl hsubset
  | load iter =>
    refine of_running hs fun _ => ?_
    unfold load
    split
    · exact hs.congr rfl hsubset
    · split
      · exact hs
      · exact hs.congr rfl hsubset
    · exact hs
  | statuses result => exact of_running hs fun _ => hs.statuses hworld hshows
  | collect iter =>
    refine of_running hs fun _ => ?_
    unfold collect
    split
    · exact hs.congr rfl hsubset
    · exact hs
  | expire => exact of_running hs fun _ => hs.expire

/-! ## The invariant of a faithful run -/

/-- What is reported is true, and every transaction was handed over through a handle that was
given out. -/
structure Reporting (chain : Signature → Option TransactionError) (s : SendTransactionService) :
    Prop where
  tracked : s.Tracked
  world : s.World
  shown : s.ReportsLanded chain
  handles : ∀ handle ∈ s.handles, handle < s.nextSourceId
  sources : ∀ d ∈ s.handed, d.sourceId < s.nextSourceId

theorem init_reporting (chain : Signature → Option TransactionError)
    (blockHeight lastValidBlockHeight : ℕ) :
    (init blockHeight lastValidBlockHeight).Reporting chain where
  tracked := init_tracked _ _
  world := init_world _ _
  shown _ _ _ h := absurd h List.not_mem_nil
  handles _ h := absurd h List.not_mem_nil
  sources _ h := absurd h List.not_mem_nil

theorem step_reporting (s : SendTransactionService) (e : ConfirmEvent) (hs : s.Reporting chain)
    (he : s.Faithful chain e) : (step s e).Reporting chain := by
  have hgrows := s.step_grows e
  refine ⟨step_tracked s e hs.tracked ⟨he.grow, he.missed⟩,
    step_world s e hs.world hs.tracked he.grow he.truthful,
    step_reportsLanded s e hs.shown hs.world he.shows, ?_, ?_⟩
  · intro handle hh
    rcases hgrows.given handle hh with hold | ⟨rfl, hlt⟩
    · exact (hs.handles handle hold).trans_le hgrows.nextSourceId
    · exact hlt
  · intro d hd
    rcases hgrows.handed d hd with hold | ⟨-, hhandle⟩
    · exact (hs.sources d hold).trans_le hgrows.nextSourceId
    · exact (hs.handles _ hhandle).trans_le hgrows.nextSourceId

/-- A faithful run of the service has led to this state. -/
def Reached (chain : Signature → Option TransactionError) (s : SendTransactionService) : Prop :=
  ∃ blockHeight lastValidBlockHeight events,
    Along step (Faithful chain) (init blockHeight lastValidBlockHeight) events ∧
      exec step (init blockHeight lastValidBlockHeight) events = s

theorem Reached.reporting {s : SendTransactionService} (hs : s.Reached chain) :
    s.Reporting chain := by
  obtain ⟨blockHeight, lastValidBlockHeight, events, hfaithful, rfl⟩ := hs
  exact exec_invariant step_reporting (init_reporting chain _ _) hfaithful

theorem reached_init (blockHeight lastValidBlockHeight : ℕ) :
    (init blockHeight lastValidBlockHeight).Reached chain := ⟨_, _, [], trivial, rfl⟩

/-- What is reported as unconfirmed has not landed. -/
theorem Reporting.neverLanded {s : SendTransactionService} (hs : s.Reporting chain) :
    s.NeverLanded :=
  hs.world.neverLanded hs.tracked.justified

end SendTransactionService

end Biscuit.Wire
