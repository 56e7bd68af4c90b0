import Biscuit.Models.Copy.Dispatched

/-!
# A copy is executed once

The copy service sends the transactions of its jobs through a handle of the sending service, and
the confirmation task answers on the channel of that handle. Both run beside each other, and
beside whatever else sends transactions. As long as the confirmation task misses nothing, no two
transactions of a job are executed, however often the job is retried.
-/

namespace Biscuit.Copy

open Wire

/-- The copy service beside the sending service that it sends through. -/
structure CopySystem where
  copy : Service
  wire : SendTransactionService
  /-- The id of `send_txns_handle`. -/
  sendTxnsHandle : TransactionSourceId
  /-- What was sent, each with its job; the copy service numbers its transactions from zero. -/
  sent : List (ℕ × SendTransactionData)
  /-- How many confirmations were taken out of the channel. -/
  taken : ℕ

/-- One step of one task of either service. -/
inductive CopySystemEvent
  /-- A step of the copy service that does not concern the sending service. -/
  | work (e : ServiceEvent)
  /-- The main task gets the output of an execution, and sends its transaction unless the sending
  service is gone. -/
  | output (i : ℕ) (signature : Option Signature) (env : FailureEnv)
  /-- The main task takes the next confirmation out of the channel. -/
  | confirmation (success : SuccessEnv) (failure : FailureEnv)
  /-- A step of the sending service, or of another that sends through it. -/
  | wire (e : ConfirmEvent)

namespace CopySystem

/-- The copy service subscribes to the sending service and starts. -/
def start (shared : Shared) (wire : SendTransactionService) : CopySystem :=
  ⟨.init shared, wire.subscribe, wire.nextSourceId, [], 0⟩

/-- What the confirmation task has put into the channel of the handle, oldest first. -/
def confirmations (s : CopySystem) : List ConfirmTransactionData :=
  s.wire.log.reverse.filterMap fun
    | .report item => if item.data.sourceId = s.sendTxnsHandle then some item else none
    | .query .. => none

/-- The job waits for the transaction with some id of the sending service. -/
def awaits (s : CopySystem) (txnId : TransactionId) (j : Job) : Bool :=
  match j.stage with
  | .pending k _ => s.sent[k]?.any fun p => p.2.txnId == txnId
  | _ => false

/-- `pending_transactions.remove` -/
def pendingJob (s : CopySystem) (txnId : TransactionId) : Option ℕ :=
  s.copy.jobs.findIdx? (s.awaits txnId)

/-- The details of a job whose transaction is built, for a main task that is there to send it. -/
def toSend (s : CopySystem) (i : ℕ) : Option CopyDetails :=
  if s.copy.crashed then none
  else
    match s.copy.jobs[i]? with
    | some ⟨details, .built _, _⟩ => some details
    | _ => none

/-- What the handle makes of a signed transaction. -/
def sendTransactionData (s : CopySystem) (signature : Signature) (details : CopyDetails) :
    SendTransactionData :=
  ⟨signature, s.wire.lastValidBlockHeight, s.wire.nextTxnId, s.sendTxnsHandle,
    details.sendToJito⟩

/-- `handle_execution_output` -/
def output (cfg : CopyConfig) (s : CopySystem) (i : ℕ) (signature : Option Signature)
    (env : FailureEnv) : CopySystem :=
  match signature, s.toSend i with
  | some signature, some details =>
    { s with
      copy := s.copy.step cfg (.output i true env)
      wire := s.wire.step (.sendTransaction s.sendTxnsHandle signature details.sendToJito)
      sent := s.sent ++ [(i, s.sendTransactionData signature details)] }
  | _, _ => { s with copy := s.copy.step cfg (.output i false env) }

/-- `handle_confirmation`; nothing is sent again under its old id, as no job has that strategy. -/
def confirmation (cfg : CopyConfig) (s : CopySystem) (success : SuccessEnv)
    (failure : FailureEnv) : CopySystem :=
  if s.copy.crashed then s
  else
    match s.confirmations[s.taken]? with
    | none => s
    | some item =>
      match s.pendingJob item.data.txnId with
      | none => { s with taken := s.taken + 1 }
      | some i =>
        { s with
          copy := s.copy.step cfg
            (.confirm i item.response ⟨success, failure, item.data.signature, false⟩)
          taken := s.taken + 1 }

/-- The step function of both services. The handle is used by the copy service only. -/
def step (cfg : CopyConfig) (s : CopySystem) : CopySystemEvent → CopySystem
  | .work e => if e.isLocal then { s with copy := s.copy.step cfg e } else s
  | .output i signature env => s.output cfg i signature env
  | .confirmation success failure => s.confirmation cfg success failure
  | .wire e => if e.handle? = some s.sendTxnsHandle then s else { s with wire := s.wire.step e }

/-- The steps of the sending service meet a condition. -/
def WireMeets (C : SendTransactionService → ConfirmEvent → Prop) (s : CopySystem) :
    CopySystemEvent → Prop
  | .output i (some signature) _ => ∀ details ∈ s.toSend i,
      C s.wire (.sendTransaction s.sendTxnsHandle signature details.sendToJito)
  | .wire e => C s.wire e
  | _ => True

instance (C : SendTransactionService → ConfirmEvent → Prop) [∀ w, DecidablePred (C w)]
    (s : CopySystem) : DecidablePred (s.WireMeets C)
  | .output i (some signature) _ => inferInstanceAs (Decidable (∀ details ∈ s.toSend i,
      C s.wire (.sendTransaction s.sendTxnsHandle signature details.sendToJito)))
  | .wire e => inferInstanceAs (Decidable (C s.wire e))
  | .work _ | .output _ none _ | .confirmation .. => isTrue trivial

end CopySystem

variable {chain : Signature → Option TransactionError}

/-! ## The invariant -/

namespace CopySystem

/-- The trade was made by an executed transaction, which was sent for a job of its origin. -/
def Made (chain : Signature → Option TransactionError) (s : CopySystem) (trade : CopyTrade) :
    Prop :=
  ∃ i d j, (i, d) ∈ s.sent ∧ s.copy.jobs[i]? = some j ∧ Executed chain s.wire d ∧
    trade.execSignature = d.signature ∧ trade.originSignature = j.details.originSignature

/-- What holds of both services in a faithful run. -/
structure Sound (cfg : CopyConfig) (chain : Signature → Option TransactionError)
    (s : CopySystem) : Prop where
  reporting : s.wire.Reporting chain
  handle : s.sendTxnsHandle ∈ s.wire.handles
  /-- The handle hands over nothing but what the copy service sends. -/
  ours : ∀ d ∈ s.wire.handed, d.sourceId = s.sendTxnsHandle → ∃ i, (i, d) ∈ s.sent
  ids : (s.sent.map fun p => p.2.txnId).Nodup
  below : ∀ p ∈ s.sent, p.2.txnId < s.wire.nextTxnId
  numbered : s.copy.nextTxnId = s.sent.length
  budget : ∀ j ∈ s.copy.jobs, j.WithinBudget cfg
  dispatched : Dispatched (Void chain s.wire.log) (Executed chain s.wire) s.copy.jobs s.sent
  sends : SendsWithin s.copy.jobs s.sent
  trades : ∀ trade ∈ s.copy.trades, s.Made chain trade

variable {cfg : CopyConfig} {s s' : CopySystem}

theorem Made.mono {trade : CopyTrade} (h : s.Made chain trade) (hsent : s.sent ⊆ s'.sent)
    (hlanded : s.wire.landed ⊆ s'.wire.landed)
    (hjobs : ∀ (i : ℕ) (j : Job), s.copy.jobs[i]? = some j → ∃ j', s'.copy.jobs[i]? = some j' ∧
      j'.details.originSignature = j.details.originSignature) : s'.Made chain trade := by
  obtain ⟨i, d, j, hmem, hi, hexecuted, hexec, horigin⟩ := h
  obtain ⟨j', hi', hsame⟩ := hjobs i j hi
  exact ⟨i, d, j', hsent hmem, hi', hexecuted.mono hlanded, hexec, horigin.trans hsame.symm⟩

/-- The copy service starts with nothing sent. -/
theorem start_sound (cfg : CopyConfig) (shared : Shared) {wire : SendTransactionService}
    (hwire : wire.Reporting chain) : (start shared wire).Sound cfg chain where
  reporting := wire.step_reporting .subscribe hwire ⟨⟨trivial, trivial, trivial⟩, trivial⟩
  handle := List.mem_cons_self
  ours d hd hsource := absurd hsource (hwire.sources d hd).ne
  ids := List.nodup_nil
  below _ hp := absurd hp List.not_mem_nil
  numbered := rfl
  budget _ hj := absurd hj List.not_mem_nil
  dispatched := .nil
  sends _ _ hi := by cases hi
  trades _ ht := absurd ht List.not_mem_nil

/-- The sending service takes a step without the copy service. -/
theorem Sound.wire (hs : s.Sound cfg chain) {e : ConfirmEvent} (he : s.wire.Faithful chain e)
    (hother : e.handle? ≠ some s.sendTxnsHandle) :
    Sound cfg chain { s with wire := s.wire.step e } where
  reporting := s.wire.step_reporting e hs.reporting he
  handle := (s.wire.step_grows e).handles hs.handle
  ours d hd hsource := by
    rcases (s.wire.step_grows e).handed d hd with hold | ⟨hhandle, -⟩
    · exact hs.ours d hold hsource
    · rw [hsource] at hhandle
      exact absurd hhandle hother
  ids := hs.ids
  below p hp := (hs.below p hp).trans_le (s.wire.step_grows e).nextTxnId
  numbered := hs.numbered
  budget := hs.budget
  dispatched := hs.dispatched.mono (fun d hd => hd.mono (s.wire.step_grows e).log)
    fun d hd => hd.mono (s.wire.step_grows e).landed
  sends := hs.sends
  trades trade ht := (hs.trades trade ht).mono (List.Subset.refl _) (s.wire.step_grows e).landed
    fun i j hi => ⟨j, hi, rfl⟩

/-- The copy service changes beside a sending service that does not. -/
theorem Sound.copied (hs : s.Sound cfg chain) {copy : Service} (taken : ℕ)
    (hnext : copy.nextTxnId = s.copy.nextTxnId) (hbudget : ∀ j ∈ copy.jobs, j.WithinBudget cfg)
    (hdispatched : Dispatched (Void chain s.wire.log) (Executed chain s.wire) copy.jobs s.sent)
    (hsends : SendsWithin copy.jobs s.sent)
    (htrades : ∀ trade ∈ copy.trades, Made chain { s with copy, taken } trade) :
    Sound cfg chain { s with copy, taken } :=
  ⟨hs.reporting, hs.handle, hs.ours, hs.ids, hs.below, hnext.trans hs.numbered, hbudget,
    hdispatched, hsends, htrades⟩

/-- The copy service takes a step without the sending service. -/
theorem Sound.unsent (hs : s.Sound cfg chain) {e : ServiceEvent}
    (he : s.copy.Unsent (s.copy.step cfg e)) :
    Sound cfg chain { s with copy := s.copy.step cfg e } := by
  have hbudget := Service.forall_jobs_step (OriginTrade.withinBudget cfg)
    Job.withinBudget_step e hs.budget
  have hsends := Service.sendsWithin_step hs.sends hs.budget hs.dispatched.owned e
  refine hs.copied s.taken he.nextTxnId hbudget (he.dispatched hs.dispatched) hsends ?_
  intro trade ht
  rw [he.trades] at ht
  exact (hs.trades trade ht).mono (List.Subset.refl _) (List.Subset.refl _)
    fun i j hi => s.copy.origin_kept cfg e hi

theorem toSend_eq_some {i : ℕ} {details : CopyDetails} (h : s.toSend i = some details) :
    s.copy.crashed = false ∧ ∃ tx calls, s.copy.jobs[i]? = some ⟨details, .built tx, calls⟩ := by
  unfold toSend at h
  split at h
  · cases h
  · rename_i hrun
    split at h
    · rename_i d tx calls hi
      obtain rfl := Option.some.inj h
      exact ⟨Bool.not_eq_true _ ▸ hrun, tx, calls, hi⟩
    · cases h

/-- A built transaction is sent through the handle. -/
theorem Sound.send (hs : s.Sound cfg chain) {i : ℕ} {signature : Signature}
    {details : CopyDetails} (env : FailureEnv) (hsend : s.toSend i = some details)
    (he : s.wire.Faithful chain
      (.sendTransaction s.sendTxnsHandle signature details.sendToJito)) :
    (s.output cfg i (some signature) env).Sound cfg chain := by
  obtain ⟨hrun, tx, calls, hi⟩ := toSend_eq_some hsend
  have hcopy : s.copy.step cfg (.output i true env) =
      { s.copy.insertPending cfg i details s.copy.nextTxnId calls with
        nextTxnId := s.copy.nextTxnId + 1 } := by
    simp only [Service.step, Service.output, hrun, hi]
    rfl
  have hwire : s.wire.step (.sendTransaction s.sendTxnsHandle signature details.sendToJito) =
      { s.wire.hand s.sendTxnsHandle signature s.wire.nextTxnId details.sendToJito with
        nextTxnId := s.wire.nextTxnId + 1 } := by
    simp only [SendTransactionService.step, SendTransactionService.sendTransaction,
      if_pos hs.handle]
  have hgrows := s.wire.step_grows
    (.sendTransaction s.sendTxnsHandle signature details.sendToJito)
  simp only [output, hsend]
  constructor
  case reporting => exact s.wire.step_reporting _ hs.reporting he
  case handle => exact hgrows.handles hs.handle
  case ours =>
    intro d hd hsource
    rw [hwire] at hd
    rcases List.mem_cons.mp hd with rfl | hold
    · exact ⟨i, List.mem_append_right _ List.mem_cons_self⟩
    · obtain ⟨i', hmem⟩ := hs.ours d hold hsource
      exact ⟨i', List.mem_append_left _ hmem⟩
  case ids =>
    rw [List.map_append, List.map_singleton, List.nodup_append]
    refine ⟨hs.ids, List.nodup_singleton _, ?_⟩
    intro a ha b hb
    obtain ⟨p, hp, rfl⟩ := List.mem_map.mp ha
    obtain rfl := List.mem_singleton.mp hb
    exact (hs.below p hp).ne
  case below =>
    intro p hp
    rw [hwire]
    rcases List.mem_append.mp hp with hp | hp
    · exact (hs.below p hp).trans (Nat.lt_succ_self _)
    · obtain rfl := List.mem_singleton.mp hp
      exact Nat.lt_succ_self _
  case numbered =>
    rw [hcopy, List.length_append, ← hs.numbered]
    rfl
  case budget =>
    exact Service.forall_jobs_step (OriginTrade.withinBudget cfg) Job.withinBudget_step _
      hs.budget
  case dispatched =>
    rw [hcopy]
    have hshed := hs.dispatched.loosen (s.copy.shedJobs_loosen cfg)
    have hsent := hshed.send (Service.getElem?_shedJobs cfg hi) (fun _ => id)
      ⟨details, .pending s.copy.nextTxnId s.copy.clock, calls⟩
      (congrArg (Stage.pending · _) hs.numbered) (s.sendTransactionData signature details)
    exact hsent.mono (fun d hd => hd.mono hgrows.log) fun d hd => hd.mono hgrows.landed
  case sends =>
    rw [hcopy]
    have hshed := hs.sends.pay (s.copy.shedJobs_pay cfg)
    exact hshed.send (Service.getElem?_shedJobs cfg hi) rfl
      ⟨details, .pending s.copy.nextTxnId s.copy.clock, calls⟩ rfl rfl _
  case trades =>
    intro trade ht
    rw [hcopy] at ht
    exact (hs.trades trade ht).mono (List.subset_append_left _ _) hgrows.landed
      fun i j hi => s.copy.origin_kept cfg _ hi

/-! ## A confirmation -/

theorem mem_confirmations {item : ConfirmTransactionData} :
    item ∈ s.confirmations ↔
      .report item ∈ s.wire.log ∧ item.data.sourceId = s.sendTxnsHandle := by
  rw [confirmations, List.mem_filterMap]
  constructor
  · rintro ⟨r, hr, he⟩
    cases r with
    | query => cases he
    | report item' =>
      dsimp only at he
      split at he
      · rename_i hsource
        obtain rfl := Option.some.inj he
        exact ⟨List.mem_reverse.mp hr, hsource⟩
      · cases he
  · rintro ⟨hlog, hsource⟩
    exact ⟨.report item, List.mem_reverse.mpr hlog, if_pos hsource⟩

/-- The job that a confirmation is for waits for the very transaction that it is about. -/
theorem Sound.pendingJob (hs : s.Sound cfg chain) {item : ConfirmTransactionData} {i : ℕ}
    (hitem : item ∈ s.confirmations) (hi : s.pendingJob item.data.txnId = some i) :
    ∃ j k t, s.copy.jobs[i]? = some j ∧ j.stage = .pending k t ∧
      s.sent[k]? = some (i, item.data) := by
  obtain ⟨hlog, hsource⟩ := mem_confirmations.mp hitem
  obtain ⟨i', hmem⟩ := hs.ours _ (hs.reporting.world.reports _ _ hlog) hsource
  obtain ⟨hlt, hawaits, -⟩ := List.findIdx?_eq_some_iff_getElem.mp hi
  refine ⟨s.copy.jobs[i], ?_⟩
  have hjob := List.getElem?_eq_getElem hlt
  unfold awaits at hawaits
  split at hawaits
  · rename_i k t hstage
    obtain ⟨p, hk, hid⟩ := (Option.any_eq_true _ _).mp hawaits
    -- the ids of the sending service tell the transactions apart
    have hp : p = (i', item.data) :=
      List.inj_on_of_nodup_map hs.ids (List.mem_of_getElem? hk) hmem (beq_iff_eq.mp hid)
    obtain ⟨d, hd⟩ := hs.dispatched.pending i _ k t hjob hstage
    have hsame := Option.some.inj (hk.symm.trans hd)
    refine ⟨k, t, hjob, hstage, ?_⟩
    rw [hk, hp]
    rw [hp] at hsame
    rw [(Prod.mk.inj hsame).1]
  · cases hawaits

/-- The main task handles a confirmation. -/
theorem Sound.confirm (hs : s.Sound cfg chain) {item : ConfirmTransactionData} {i : ℕ}
    (hitem : item ∈ s.confirmations) (hi : s.pendingJob item.data.txnId = some i)
    (success : SuccessEnv) (failure : FailureEnv) (taken : ℕ) :
    Sound cfg chain { s with
      copy := s.copy.step cfg
        (.confirm i item.response ⟨success, failure, item.data.signature, false⟩)
      taken } := by
  obtain ⟨j, k, t, hj, hstage, hk⟩ := hs.pendingJob hitem hi
  obtain ⟨d, response⟩ := item
  have hlog := (mem_confirmations.mp hitem).1
  have hbudget := Service.forall_jobs_step (OriginTrade.withinBudget cfg) Job.withinBudget_step
    (.confirm i response ⟨success, failure, d.signature, false⟩) hs.budget
  have hsends := Service.sendsWithin_step hs.sends hs.budget hs.dispatched.owned
    (.confirm i response ⟨success, failure, d.signature, false⟩)
  have hkept : ∀ (i' : ℕ) (j' : Job), _ := fun i' j' =>
    s.copy.origin_kept cfg (.confirm i response ⟨success, failure, d.signature, false⟩)
      (i := i') (j := j')
  have hcase := s.copy.step_cases cfg (.confirm i response ⟨success, failure, d.signature, false⟩)
  dsimp only
  generalize s.copy.step cfg (.confirm i response ⟨success, failure, d.signature, false⟩) = copy
    at hcase hbudget hsends hkept ⊢
  have hold : ∀ trade ∈ s.copy.trades, Made chain { s with copy, taken } trade := fun trade ht =>
    (hs.trades trade ht).mono (List.Subset.refl _) (List.Subset.refl _) hkept
  -- an answer that does not lead to a record has voided the transaction
  have hsettle : (∀ slot, response ≠ .confirmed none slot) → ∀ j' : Job,
      j'.stage.holdsTransaction = false → Dispatched (Void chain s.wire.log)
        (Executed chain s.wire) (s.copy.jobs.set i j') s.sent := fun hresponse j' hj' =>
    hs.dispatched.settle hj hstage hk (void_of_reported hs.reporting hlog hresponse) hj'
  cases hcase with
  | idle => exact hs.copied _ rfl hbudget hs.dispatched hsends hold
  | requeued _ _ _ d₁ d₂ txnId insertedAt calls hi' hconfirm =>
    refine hs.copied _ rfl hbudget (hsettle ?_ _ (Job.holdsTransaction_enqueue _ d₂ calls)) hsends
      hold
    rintro slot rfl
    cases hconfirm
  | resent _ _ _ d₁ d₂ tx txnId insertedAt calls hi' hconfirm =>
    exact absurd hconfirm (not_resend (hs.budget _ (List.mem_of_getElem? hi')).details)
  | gaveUp _ _ _ d₁ d₂ txnId insertedAt calls hi' hconfirm =>
    refine hs.copied _ rfl hbudget (hsettle ?_ _ rfl) hsends hold
    rintro slot rfl
    cases hconfirm
  | crashed _ _ _ d₁ d₂ txnId insertedAt calls hi' hconfirm hrecord =>
    exact hs.copied _ rfl hbudget hs.dispatched hsends hold
  | confirmed _ _ _ d₁ d₂ txnId insertedAt calls shared trades hi' hconfirm hrecord =>
    obtain ⟨slot, rfl⟩ := handleConfirmation_eq_success hconfirm
    have hexecuted := executed_of_reported hs.reporting hlog
    refine hs.copied _ rfl hbudget (hs.dispatched.confirm hk hexecuted rfl) hsends ?_
    intro trade ht
    rcases List.mem_append.mp ht with ht | ht
    · exact hold trade ht
    · refine ⟨i, d, ⟨d₂, .done .confirmed, calls⟩, List.mem_of_getElem? hk, ?_, hexecuted,
        handleSuccessTxn_execSignature hrecord trade ht,
        handleSuccessTxn_originSignature hrecord trade ht⟩
      exact List.getElem?_set_self (List.getElem?_eq_some_iff.mp hi').1

theorem Sound.confirmation (hs : s.Sound cfg chain) (success : SuccessEnv)
    (failure : FailureEnv) : (s.confirmation cfg success failure).Sound cfg chain := by
  unfold CopySystem.confirmation
  split
  · exact hs
  · split
    · exact hs
    · rename_i item hnext
      split
      · exact hs.copied _ rfl hs.budget hs.dispatched hs.sends hs.trades
      · rename_i i hi
        exact hs.confirm (List.mem_of_getElem? hnext) hi success failure _

/-! ## Every run -/

theorem step_sound (cfg : CopyConfig) (s : CopySystem) (e : CopySystemEvent)
    (hs : s.Sound cfg chain) (he : s.WireMeets (SendTransactionService.Faithful chain) e) :
    (s.step cfg e).Sound cfg chain := by
  cases e with
  | work e =>
    simp only [step]
    split
    · rename_i hlocal
      exact hs.unsent (s.copy.unsent_of_isLocal cfg hlocal)
    · exact hs
  | output i signature env =>
    have hunsent := hs.unsent (s.copy.unsent_output cfg i env)
    cases signature with
    | none => exact hunsent
    | some signature =>
      cases hsend : s.toSend i with
      | none =>
        simp only [step, output, hsend]
        exact hunsent
      | some details => exact hs.send env hsend (he details hsend)
  | confirmation success failure => exact hs.confirmation success failure
  | wire e =>
    simp only [step]
    split
    · exact hs
    · rename_i hother
      exact hs.wire he hother

/-- The two transactions of a job that are not void are one. -/
theorem Sound.eq_of_executed (hs : s.Sound cfg chain) {i : ℕ} {d d' : SendTransactionData}
    (hd : (i, d) ∈ s.sent) (hd' : (i, d') ∈ s.sent) (hexec : Executed chain s.wire d)
    (hexec' : Executed chain s.wire d') : d = d' := by
  obtain ⟨k, hk⟩ := List.mem_iff_getElem?.mp hd
  obtain ⟨k', hk'⟩ := List.mem_iff_getElem?.mp hd'
  have hsame := hs.dispatched.single k k' i d d' hk hk'
    (fun hvoid => hvoid.not_executed hs.reporting hexec)
    fun hvoid => hvoid.not_executed hs.reporting hexec'
  subst hsame
  exact (Prod.mk.inj (Option.some.inj (hk.symm.trans hk'))).2

/-- A job sends no more transactions than its budget has executions. -/
theorem Sound.countP_sent_le (hs : s.Sound cfg chain) {i : ℕ} {j : Job}
    (hi : s.copy.jobs[i]? = some j) :
    s.sent.countP (fun p => decide (p.1 = i)) ≤
      (cfg.confirmedErrorRetries + 1) * (cfg.sendTxnRetries + 1) := by
  have hbudget := hs.budget j (List.mem_of_getElem? hi)
  calc s.sent.countP (fun p => decide (p.1 = i))
      ≤ j.calls.length := (Nat.le_add_right _ _).trans (hs.sends i j hi)
    _ ≤ j.details.rank cfg + 1 := hbudget.executions
    _ ≤ cfg.maxExecutions := hbudget.details.rank_lt

/-- The job of an executed transaction still waits for it, or has left with it. -/
theorem Sound.stage_of_executed (hs : s.Sound cfg chain) {i : ℕ} {d : SendTransactionData}
    (hd : (i, d) ∈ s.sent) (hexec : Executed chain s.wire d) :
    ∃ j, s.copy.jobs[i]? = some j ∧
      (s.awaits d.txnId j = true ∨ j.stage = .done .shed ∨ j.stage = .done .confirmed) := by
  obtain ⟨k, hk⟩ := List.mem_iff_getElem?.mp hd
  have hj := List.getElem?_eq_getElem (hs.dispatched.owned _ hd)
  refine ⟨_, hj, ?_⟩
  have hmay := Classical.not_not.mp fun hnot =>
    (hs.dispatched.void k i d _ hk hj hnot).not_executed hs.reporting hexec
  rcases Stage.eq_of_mayExecute hmay with ⟨t, hstage⟩ | hleft
  · left
    rw [awaits, hstage]
    simp only [hk, Option.any_some, beq_self_eq_true]
  · exact .inr hleft

/-- In every run of both services, beside whatever else sends transactions, as long as the
confirmation task misses nothing and the node tells the truth: of all transactions that are sent
for one delivered origin transaction, no more than its retries allow, at most one is executed. Its
job waits for the confirmation of it, has lost sight of it, or was confirmed with it, and no job is
confirmed otherwise. Every trade in the books was made by such a transaction. -/
theorem copy_executes_once (cfg : CopyConfig) (shared : Shared)
    (chain : Signature → Option TransactionError) {wire : SendTransactionService}
    (hwire : wire.Reached chain) {events : List CopySystemEvent}
    (hevents : Along (step cfg) (WireMeets (SendTransactionService.Faithful chain))
      (start shared wire) events) :
    let s := exec (step cfg) (start shared wire) events
    (∀ (i : ℕ) (j : Job), s.copy.jobs[i]? = some j →
      s.sent.countP (fun p => decide (p.1 = i)) ≤
        (cfg.confirmedErrorRetries + 1) * (cfg.sendTxnRetries + 1)) ∧
    (∀ i d d', (i, d) ∈ s.sent → (i, d') ∈ s.sent → Executed chain s.wire d →
      Executed chain s.wire d' → d = d') ∧
    (∀ i d, (i, d) ∈ s.sent → Executed chain s.wire d → ∃ j, s.copy.jobs[i]? = some j ∧
      (s.awaits d.txnId j = true ∨ j.stage = .done .shed ∨ j.stage = .done .confirmed)) ∧
    (∀ (i : ℕ) (j : Job), s.copy.jobs[i]? = some j → j.stage = .done .confirmed →
      ∃ d, (i, d) ∈ s.sent ∧ Executed chain s.wire d) ∧
    ∀ trade ∈ s.copy.trades, s.Made chain trade := by
  have hsound := exec_invariant (step_sound cfg) (start_sound cfg shared hwire.reporting) hevents
  exact ⟨fun i j => hsound.countP_sent_le, fun i d d' => hsound.eq_of_executed,
    fun i d => hsound.stage_of_executed,
    hsound.dispatched.confirmed, hsound.trades⟩

/-- The sample service, started beside a sending service that has done nothing yet. -/
def sampleStart : CopySystem := start ⟨.empty, none, false⟩ (.init 90 100)

/-- A transaction of the sample service expires, after what lands in time, and is asked for once
more. It is given up, and the transaction that is built anew for its job lands. -/
def sampleRetried (landing : List CopySystemEvent)
    (answer : Option (List (Option TransactionStatus))) : List CopySystemEvent :=
  let execution (signature : Signature) : List CopySystemEvent :=
    [.work (.recv 0), .work (.input 0 sampleEnv), .work (.attempt 0 sampleBuild),
      .output 0 (some signature) sampleFailure, .wire .recv]
  let giveUp : List CopySystemEvent :=
    [.wire (.collect (Iteration.stored _)), .wire .expire, .wire .expire]
  let iteration (answer : Option (List (Option TransactionStatus))) : List CopySystemEvent :=
    [.wire (.load (Iteration.stored _)), .wire (.statuses answer)] ++ giveUp
  let confirmation : CopySystemEvent := .confirmation (sampleSuccess 50) sampleFailure
  [.wire (.load (Iteration.stored _)), .work (.wireTxn (sampleBuyTrade 100))] ++ execution 7 ++
    landing ++ [.wire (.storeBlockHeight 101)] ++ iteration answer ++
    [.wire (.load (Iteration.stored _))] ++ giveUp ++
    [confirmation, .wire (.notifyBlockhash 200)] ++ execution 8 ++ [.wire (.land 8)] ++
    iteration (some [some ⟨3, none, true⟩]) ++ [confirmation]

/-- Both services after such a run. -/
def sampleEnd (landing : List CopySystemEvent)
    (answer : Option (List (Option TransactionStatus))) : CopySystem :=
  exec (step sampleConfig) sampleStart (sampleRetried landing answer)

theorem copy_executes_once_sample :
    (sampleEnd [] (some [none])).copy.trades.map CopyTrade.execSignature = [8] ∧
      (sampleEnd [] (some [none])).sent.map (fun p => (p.1, p.2.signature)) = [(0, 7), (0, 8)] ∧
      ∀ trade ∈ (sampleEnd [] (some [none])).copy.trades,
        (sampleEnd [] (some [none])).Made (fun _ => none) trade := by
  have hevents : Along (step sampleConfig)
      (WireMeets (SendTransactionService.Faithful fun _ => none)) sampleStart
      (sampleRetried [] (some [none])) := by
    decide +kernel
  have htrades : (sampleEnd [] (some [none])).copy.trades.map CopyTrade.execSignature = [8] := by
    decide +kernel
  have hsent : (sampleEnd [] (some [none])).sent.map (fun p => (p.1, p.2.signature)) =
      [(0, 7), (0, 8)] := by
    decide +kernel
  refine ⟨htrades, hsent, ?_⟩
  unfold sampleEnd sampleStart
  exact (copy_executes_once sampleConfig ⟨.empty, none, false⟩ (fun _ => none)
    (SendTransactionService.reached_init 90 100) hevents).2.2.2.2

/-- Both transactions of the job have landed and the node tells the truth, but the query that
would have shown the first one fails. It is given up all the same: the copy is executed twice,
and recorded once. -/
theorem executed_twice_failed_query :
    Along (step sampleConfig) (WireMeets (SendTransactionService.Candid fun _ => none)) sampleStart
        (sampleRetried [.wire (.land 7)] none) ∧
      (sampleEnd [.wire (.land 7)] none).sent.map (fun p => (p.1, p.2.signature)) =
        [(0, 7), (0, 8)] ∧
      (sampleEnd [.wire (.land 7)] none).wire.landed = [8, 7] ∧
      (sampleEnd [.wire (.land 7)] none).copy.trades.map CopyTrade.execSignature = [8] := by
  refine ⟨?_, ?_, ?_, ?_⟩ <;> decide +kernel

end CopySystem

end Biscuit.Copy
