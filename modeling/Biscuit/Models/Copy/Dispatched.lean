import Biscuit.Core.Pointwise
import Biscuit.Models.Copy.Budget
import Biscuit.Models.Copy.Origins
import Biscuit.Models.Wire.Landing

/-!
# The transactions of a job

However often a job is executed, it is only executed again when its last transaction can do
nothing on chain any more: all of its transactions are void except one at most, which the job
waits for, has lost sight of, or was confirmed with.
-/

namespace Biscuit.Copy

open Wire

/-- The event is a step of the copy service alone. -/
def ServiceEvent.isLocal : ServiceEvent → Bool
  | .wireTxn _ | .recv _ | .input .. | .attempt .. | .panics => true
  | .output .. | .confirm .. => false

/-- The transaction of a job may have been executed: it is not known yet, or it is not known any
more, or it is known that it was. -/
def Stage.mayExecute (k : TransactionId) : Stage → Prop
  | .pending txnId _ => txnId = k
  | .done .shed | .done .confirmed => True
  | _ => False

/-- The job waits for a transaction, or was confirmed with one. -/
def Stage.holdsTransaction : Stage → Bool
  | .pending .. | .done .confirmed => true
  | _ => false

/-! ## What is known of a transaction -/

section

variable (chain : Signature → Option TransactionError)

/-- The transaction has landed, and it has succeeded there. -/
def Executed (wire : SendTransactionService) (d : SendTransactionData) : Prop :=
  d.signature ∈ wire.landed ∧ reportedError (chain d.signature) = none

/-- The transaction can do nothing on chain: it fails there, or it was reported as unconfirmed. -/
def Void (log : List ConfirmRecord) (d : SendTransactionData) : Prop :=
  reportedError (chain d.signature) ≠ none ∨ ∃ reason, .report ⟨d, .unconfirmed reason⟩ ∈ log

end

variable {chain : Signature → Option TransactionError}

instance (wire : SendTransactionService) (d : SendTransactionData) :
    Decidable (Executed chain wire d) :=
  inferInstanceAs (Decidable (d.signature ∈ wire.landed ∧ reportedError (chain d.signature) = none))

theorem Executed.mono {wire wire' : SendTransactionService} {d : SendTransactionData}
    (h : Executed chain wire d) (hlanded : wire.landed ⊆ wire'.landed) :
    Executed chain wire' d :=
  ⟨hlanded h.1, h.2⟩

theorem Void.mono {log log' : List ConfirmRecord} {d : SendTransactionData}
    (h : Void chain log d) (hlog : log ⊆ log') : Void chain log' d := by
  rcases h with herror | ⟨reason, hreport⟩
  · exact .inl herror
  · exact .inr ⟨reason, hlog hreport⟩

/-- In a faithful run, a transaction that can do nothing has done nothing. -/
theorem Void.not_executed {wire : SendTransactionService} (hs : wire.Reporting chain)
    {d : SendTransactionData} (h : Void chain wire.log d) : ¬ Executed chain wire d := by
  rintro ⟨hlanded, hnone⟩
  rcases h with herror | ⟨reason, hreport⟩
  · exact herror hnone
  · exact hs.neverLanded d reason hreport hlanded

/-- A transaction whose answer does not lead to success is void. -/
theorem void_of_reported {wire : SendTransactionService} (hs : wire.Reporting chain)
    {d : SendTransactionData} {response : ConfirmTransactionResponse}
    (h : .report ⟨d, response⟩ ∈ wire.log) (hresponse : ∀ slot, response ≠ .confirmed none slot) :
    Void chain wire.log d := by
  cases response with
  | unconfirmed reason => exact .inr ⟨reason, h⟩
  | confirmed error slot =>
    left
    obtain ⟨-, rfl⟩ := hs.shown d error slot h
    intro hnone
    rw [hnone] at hresponse
    exact hresponse slot rfl

/-- What is confirmed without an error is executed. -/
theorem executed_of_reported {wire : SendTransactionService} (hs : wire.Reporting chain)
    {d : SendTransactionData} {slot : ℕ} (h : .report ⟨d, .confirmed none slot⟩ ∈ wire.log) :
    Executed chain wire d := by
  obtain ⟨hlanded, herror⟩ := hs.shown d none slot h
  exact ⟨hlanded, herror.symm⟩

/-- Only what is confirmed without an error is recorded. -/
theorem handleConfirmation_eq_success {cfg : CopyConfig} {d d' : CopyDetails}
    {response : ConfirmTransactionResponse}
    (h : handleConfirmation cfg d response = .success d') :
    ∃ slot, response = .confirmed none slot := by
  unfold handleConfirmation at h
  split at h
  · split at h <;> cases h
  · rename_i slot
    exact ⟨slot, rfl⟩
  · split at h
    · split at h <;> cases h
    · cases h

/-! ## The transactions of the jobs -/

theorem Stage.eq_of_mayExecute {k : TransactionId} {stage : Stage} (h : stage.mayExecute k) :
    (∃ t, stage = .pending k t) ∨ stage = .done .shed ∨ stage = .done .confirmed := by
  cases stage with
  | pending txnId insertedAt =>
    obtain rfl : txnId = k := h
    exact .inl ⟨insertedAt, rfl⟩
  | done exit =>
    cases exit with
    | shed => exact .inr (.inl rfl)
    | confirmed => exact .inr (.inr rfl)
    | queueFull | inputFailed | skipped | sendFailed | givenUp => exact False.elim h
  | queued | spawned | executing | built | failed => exact False.elim h

/-- What a job gains by a step that ends no transaction of it. -/
structure Job.Loosens (j j' : Job) : Prop where
  mayExecute : ∀ k, j.stage.mayExecute k → j'.stage.mayExecute k
  holds : j'.stage.holdsTransaction = true → j.stage = j'.stage

theorem Job.Loosens.refl (j : Job) : j.Loosens j := ⟨fun _ h => h, fun _ => rfl⟩

/-- Every transaction was sent for a job. Of the transactions of one job, all are void except the
one that it may have executed, and a job was confirmed with a transaction that was executed. -/
structure Dispatched (V X : SendTransactionData → Prop) (jobs : List Job)
    (sent : List (ℕ × SendTransactionData)) : Prop where
  owned : ∀ p ∈ sent, p.1 < jobs.length
  void : ∀ (k i : ℕ) (d : SendTransactionData) (j : Job), sent[k]? = some (i, d) →
    jobs[i]? = some j → ¬ j.stage.mayExecute k → V d
  pending : ∀ (i : ℕ) (j : Job) (k t : ℕ), jobs[i]? = some j → j.stage = .pending k t →
    ∃ d, sent[k]? = some (i, d)
  confirmed : ∀ (i : ℕ) (j : Job), jobs[i]? = some j → j.stage = .done .confirmed →
    ∃ d, (i, d) ∈ sent ∧ X d
  single : ∀ (k k' i : ℕ) (d d' : SendTransactionData), sent[k]? = some (i, d) →
    sent[k']? = some (i, d') → ¬ V d → ¬ V d' → k = k'

namespace Dispatched

variable {V V' X X' : SendTransactionData → Prop} {jobs jobs' : List Job}
  {sent : List (ℕ × SendTransactionData)}

theorem nil : Dispatched V X [] [] where
  owned _ hp := absurd hp List.not_mem_nil
  void _ _ _ _ hk := by cases hk
  pending _ _ _ _ hi := by cases hi
  confirmed _ _ hi := by cases hi
  single _ _ _ _ _ hk := by cases hk

theorem mono (h : Dispatched V X jobs sent) (hV : ∀ d, V d → V' d) (hX : ∀ d, X d → X' d) :
    Dispatched V' X' jobs sent where
  owned := h.owned
  void k i d j hk hi hnot := hV d (h.void k i d j hk hi hnot)
  pending := h.pending
  confirmed i j hi hstage := (h.confirmed i j hi hstage).imp fun d hd => ⟨hd.1, hX d hd.2⟩
  single k k' i d d' hk hk' hd hd' :=
    h.single k k' i d d' hk hk' (fun hv => hd (hV d hv)) fun hv => hd' (hV d' hv)

/-- Nothing was sent for a new job, and it holds no transaction. -/
theorem append (h : Dispatched V X jobs sent) {j : Job} (hj : j.stage.holdsTransaction = false) :
    Dispatched V X (jobs ++ [j]) sent where
  owned p hp := by
    rw [List.length_append]
    exact (h.owned p hp).trans_le (Nat.le_add_right _ _)
  void k i d j' hk hi hnot := by
    rcases getElem?_concat_cases hi with hi | ⟨rfl, -⟩
    · exact h.void k i d j' hk hi hnot
    · exact absurd (h.owned _ (List.mem_of_getElem? hk)) (Nat.lt_irrefl _)
  pending i j' k t hi hstage := by
    rcases getElem?_concat_cases hi with hi | ⟨-, rfl⟩
    · exact h.pending i j' k t hi hstage
    · rw [hstage] at hj
      cases hj
  confirmed i j' hi hstage := by
    rcases getElem?_concat_cases hi with hi | ⟨-, rfl⟩
    · exact h.confirmed i j' hi hstage
    · rw [hstage] at hj
      cases hj
  single := h.single

/-- Steps of jobs that end no transaction. -/
theorem loosen (h : Dispatched V X jobs sent) (hjobs : List.Forall₂ Job.Loosens jobs jobs') :
    Dispatched V X jobs' sent where
  owned p hp := hjobs.length_eq ▸ h.owned p hp
  void k i d j' hk hi hnot := by
    obtain ⟨j, hj, hloosens⟩ := getElem?_left_of_forall₂ hjobs hi
    exact h.void k i d j hk hj fun hmay => hnot (hloosens.mayExecute k hmay)
  pending i j' k t hi hstage := by
    obtain ⟨j, hj, hloosens⟩ := getElem?_left_of_forall₂ hjobs hi
    exact h.pending i j k t hj ((hloosens.holds (by rw [hstage]; rfl)).trans hstage)
  confirmed i j' hi hstage := by
    obtain ⟨j, hj, hloosens⟩ := getElem?_left_of_forall₂ hjobs hi
    exact h.confirmed i j hj ((hloosens.holds (by rw [hstage]; rfl)).trans hstage)
  single := h.single

/-- A job is put in its place that accounts for its transactions. -/
theorem set (h : Dispatched V X jobs sent) {i : ℕ} {j : Job}
    (hvoid : ∀ k d, sent[k]? = some (i, d) → ¬ j.stage.mayExecute k → V d)
    (hpending : ∀ k t, j.stage ≠ .pending k t)
    (hconfirmed : j.stage = .done .confirmed → ∃ d, (i, d) ∈ sent ∧ X d) :
    Dispatched V X (jobs.set i j) sent where
  owned p hp := by
    rw [List.length_set]
    exact h.owned p hp
  void k i' d j' hk hi' hnot := by
    rcases getElem?_set_cases hi' with ⟨rfl, rfl⟩ | ⟨-, hi'⟩
    · exact hvoid k d hk hnot
    · exact h.void k i' d j' hk hi' hnot
  pending i' j' k t hi' hstage := by
    rcases getElem?_set_cases hi' with ⟨rfl, rfl⟩ | ⟨-, hi'⟩
    · exact absurd hstage (hpending k t)
    · exact h.pending i' j' k t hi' hstage
  confirmed i' j' hi' hstage := by
    rcases getElem?_set_cases hi' with ⟨rfl, rfl⟩ | ⟨-, hi'⟩
    · exact hconfirmed hstage
    · exact h.confirmed i' j' hi' hstage
  single := h.single

/-- The transaction that a job waits for turns out to be void, as all others of the job are. -/
theorem settle (h : Dispatched V X jobs sent) {i k t : ℕ} {j : Job} {d : SendTransactionData}
    (hi : jobs[i]? = some j) (hstage : j.stage = .pending k t) (hk : sent[k]? = some (i, d))
    (hd : V d) {j' : Job} (hj' : j'.stage.holdsTransaction = false) :
    Dispatched V X (jobs.set i j') sent := by
  apply h.set
  case hvoid =>
    intro k' d' hk' _
    by_cases hlast : k = k'
    · subst hlast
      obtain ⟨-, rfl⟩ := Prod.mk.inj (Option.some.inj (hk.symm.trans hk'))
      exact hd
    · -- an earlier transaction of the job
      refine h.void k' i d' j hk' hi ?_
      rw [hstage]
      exact hlast
  case hpending =>
    intro k t hstage'
    rw [hstage'] at hj'
    cases hj'
  case hconfirmed =>
    intro hstage'
    rw [hstage'] at hj'
    cases hj'

/-- The transaction that a job waits for turns out to be executed. -/
theorem confirm (h : Dispatched V X jobs sent) {i k : ℕ} {d : SendTransactionData}
    (hk : sent[k]? = some (i, d)) (hd : X d) {j : Job} (hj : j.stage = .done .confirmed) :
    Dispatched V X (jobs.set i j) sent := by
  apply h.set
  case hvoid =>
    intro k' d' _ hnot
    rw [hj] at hnot
    exact absurd trivial hnot
  case hpending =>
    intro k t hstage
    rw [hj] at hstage
    cases hstage
  case hconfirmed => exact fun _ => ⟨d, List.mem_of_getElem? hk, hd⟩

/-- One more transaction is sent for a job whose transactions are all void. -/
theorem send (h : Dispatched V X jobs sent) {i t : ℕ} {j : Job} (hi : jobs[i]? = some j)
    (hnone : ∀ k, ¬ j.stage.mayExecute k) (j' : Job) (hstage : j'.stage = .pending sent.length t)
    (d : SendTransactionData) : Dispatched V X (jobs.set i j') (sent ++ [(i, d)]) := by
  have hvoid : ∀ k d', sent[k]? = some (i, d') → V d' := fun k d' hk =>
    h.void k i d' j hk hi (hnone k)
  constructor
  case owned =>
    intro p hp
    rw [List.length_set]
    rcases List.mem_append.mp hp with hp | hp
    · exact h.owned p hp
    · obtain rfl := List.mem_singleton.mp hp
      exact (List.getElem?_eq_some_iff.mp hi).1
  case void =>
    intro k i' d' j'' hk hi' hnot
    rcases getElem?_concat_cases hk with hold | ⟨rfl, he⟩
    · rcases getElem?_set_cases hi' with ⟨rfl, rfl⟩ | ⟨-, hi'⟩
      · exact hvoid k d' hold
      · exact h.void k i' d' j'' hold hi' hnot
    · obtain ⟨rfl, rfl⟩ := Prod.mk.inj he
      rcases getElem?_set_cases hi' with ⟨-, rfl⟩ | ⟨hne, -⟩
      · rw [hstage] at hnot
        exact absurd rfl hnot
      · exact absurd rfl hne
  case pending =>
    intro i' j'' k t' hi' hstage'
    rcases getElem?_set_cases hi' with ⟨rfl, rfl⟩ | ⟨-, hi'⟩
    · obtain ⟨rfl, -⟩ := Stage.pending.inj (hstage.symm.trans hstage')
      exact ⟨d, List.getElem?_concat_length⟩
    · obtain ⟨d', hk⟩ := h.pending i' j'' k t' hi' hstage'
      refine ⟨d', ?_⟩
      rw [List.getElem?_append_left (List.getElem?_eq_some_iff.mp hk).1]
      exact hk
  case confirmed =>
    intro i' j'' hi' hstage'
    rcases getElem?_set_cases hi' with ⟨rfl, rfl⟩ | ⟨-, hi'⟩
    · cases hstage.symm.trans hstage'
    · obtain ⟨d', hmem, hd'⟩ := h.confirmed i' j'' hi' hstage'
      exact ⟨d', List.mem_append_left _ hmem, hd'⟩
  case single =>
    intro k k' i' d₁ d₂ hk hk' hd₁ hd₂
    rcases getElem?_concat_cases hk with hold | ⟨rfl, he⟩ <;>
      rcases getElem?_concat_cases hk' with hold' | ⟨rfl, he'⟩
    · exact h.single k k' i' d₁ d₂ hold hold' hd₁ hd₂
    · obtain ⟨rfl, -⟩ := Prod.mk.inj he'
      exact absurd (hvoid k d₁ hold) hd₁
    · obtain ⟨rfl, -⟩ := Prod.mk.inj he
      exact absurd (hvoid k' d₂ hold') hd₂
    · rfl

end Dispatched

/-! ## The steps of the copy service -/

/-- A job that has executed nothing goes on, and sends nothing yet. -/
theorem Job.Loosens.of_idle {d d' : CopyDetails} {stage stage' : Stage} {calls calls' : List ℕ}
    (hstage : ∀ k, ¬ stage.mayExecute k) (hstage' : stage'.holdsTransaction = false) :
    Job.Loosens ⟨d, stage, calls⟩ ⟨d', stage', calls'⟩ where
  mayExecute k h := absurd h (hstage k)
  holds h := absurd (hstage'.symm.trans h) Bool.false_ne_true

theorem Stage.holdsTransaction_ofInput (result : Except ExecError (Option SwapInput)) :
    (Stage.ofInput result).holdsTransaction = false := by
  cases result with
  | error e => rfl
  | ok input => cases input <;> rfl

theorem Stage.holdsTransaction_ofAttempt (cfg : CopyConfig) (input : SwapInput) (attempts : ℕ)
    (tx : Option BuiltTransaction) :
    (Stage.ofAttempt cfg input attempts tx).holdsTransaction = false := by
  cases tx with
  | some tx => rfl
  | none =>
    simp only [Stage.ofAttempt]
    split <;> rfl

theorem Job.holdsTransaction_enqueue (hasRoom : Bool) (d : CopyDetails) (calls : List ℕ) :
    (Job.enqueue hasRoom d calls).stage.holdsTransaction = false := by
  cases hasRoom <;> rfl

namespace Service

theorem shedJobs_loosen (cfg : CopyConfig) (s : Service) :
    List.Forall₂ Job.Loosens s.jobs (s.shedJobs cfg) :=
  s.forall₂_shedJobs .refl fun _ => ⟨fun _ _ => trivial, by rintro ⟨⟩⟩

/-- Shedding leaves a job alone whose transaction is built. -/
theorem getElem?_shedJobs (cfg : CopyConfig) {s : Service} {i : ℕ} {d : CopyDetails}
    {tx : BuiltTransaction} {calls : List ℕ} (hi : s.jobs[i]? = some ⟨d, .built tx, calls⟩) :
    (s.shedJobs cfg)[i]? = some ⟨d, .built tx, calls⟩ := by
  unfold shedJobs
  split
  · rw [List.getElem?_map, hi]
    rfl
  · exact hi

/-- A step keeps the origin of every job. -/
theorem origin_kept (cfg : CopyConfig) (s : Service) (e : ServiceEvent) {i : ℕ} {j : Job}
    (hi : s.jobs[i]? = some j) : ∃ j', (s.step cfg e).jobs[i]? = some j' ∧
      j'.details.originSignature = j.details.originSignature := by
  cases hown : e.isDelivery with
  | false =>
    obtain ⟨j', hj', hcontinues⟩ := getElem?_right_of_forall₂ (s.jobs_continue cfg hown) hi
    exact ⟨j', hj', hcontinues.signature⟩
  | true =>
    cases e with
    | wireTxn t =>
      refine ⟨j, ?_, rfl⟩
      rw [step, wireTxn, List.getElem?_append_left (List.getElem?_eq_some_iff.mp hi).1]
      exact hi
    | _ => cases hown

/-- What a step does that neither sends a transaction nor takes a confirmation. -/
structure Unsent (s s' : Service) : Prop where
  nextTxnId : s'.nextTxnId = s.nextTxnId
  trades : s'.trades = s.trades
  dispatched : ∀ {V X sent}, Dispatched V X s.jobs sent → Dispatched V X s'.jobs sent

theorem Unsent.refl (s : Service) : s.Unsent s := ⟨rfl, rfl, id⟩

/-- One job goes on without sending anything. -/
theorem Unsent.set {s s' : Service} {i : ℕ} {j j' : Job} (hi : s.jobs[i]? = some j)
    (hloosens : j.Loosens j') (hjobs : s'.jobs = s.jobs.set i j')
    (hnext : s'.nextTxnId = s.nextTxnId) (htrades : s'.trades = s.trades) : s.Unsent s' where
  nextTxnId := hnext
  trades := htrades
  dispatched h := by
    rw [hjobs]
    exact h.loosen (forall₂_set (forall₂_refl .refl s.jobs) hi hloosens)

theorem unsent_of_isLocal (cfg : CopyConfig) (s : Service) {e : ServiceEvent}
    (he : e.isLocal = true) : s.Unsent (s.step cfg e) := by
  have hcase := s.step_cases cfg e
  generalize s.step cfg e = s' at hcase
  cases hcase with
  | idle => exact .refl s
  | delivered t => exact ⟨rfl, rfl, fun h => h.append (Job.holdsTransaction_enqueue _ _ _)⟩
  | received i d calls hi =>
    exact .set hi (.of_idle (fun _ => id) rfl) rfl rfl rfl
  | derived i env d d' calls shared result hi hget =>
    exact .set hi (.of_idle (fun _ => id) (Stage.holdsTransaction_ofInput result)) rfl rfl rfl
  | attempted i env d d' input attempts calls tx hi hbuild =>
    exact .set hi (.of_idle (fun _ => id) (Stage.holdsTransaction_ofAttempt cfg input _ tx)) rfl
      rfl rfl
  | panicked => exact ⟨rfl, rfl, id⟩
  | sent | unsent | failed | requeued | resent | gaveUp | crashed | confirmed => cases he

/-- An output that leads to no transaction. -/
theorem unsent_output (cfg : CopyConfig) (s : Service) (i : ℕ) (env : FailureEnv) :
    s.Unsent (s.step cfg (.output i false env)) := by
  have hcase := s.step_cases cfg (.output i false env)
  generalize s.step cfg (.output i false env) = s' at hcase
  cases hcase with
  | idle => exact .refl s
  | unsent i env d tx calls hi =>
    exact .set hi (.of_idle (fun _ => id) rfl) rfl rfl rfl
  | failed i sent env d calls hi =>
    exact .set hi (.of_idle (fun _ => id) rfl) rfl rfl rfl

end Service

/-! ## How often a job sends -/

/-- How many transactions a job may send before it is executed again. -/
def Stage.willSend : Stage → ℕ
  | .queued | .spawned | .executing .. | .built _ | .failed => 1
  | .pending .. | .done _ => 0

theorem Stage.willSend_le (stage : Stage) : stage.willSend ≤ 1 := by
  cases stage <;> first | exact Nat.le_refl 1 | exact Nat.zero_le 1

/-- A job gets no more transactions to send than executions. -/
def Job.Pays (j j' : Job) : Prop :=
  j'.stage.willSend + j.calls.length ≤ j.stage.willSend + j'.calls.length

theorem Job.Pays.refl (j : Job) : j.Pays j := Nat.le_refl _

theorem Job.Pays.trans {j j' j'' : Job} (h : j.Pays j') (h' : j'.Pays j'') : j.Pays j'' := by
  unfold Pays at h h' ⊢
  omega

/-- A job that leaves sends nothing any more. -/
theorem Job.Pays.leave (d : CopyDetails) (stage : Stage) (exit : Exit) (calls : List ℕ) :
    Job.Pays ⟨d, stage, calls⟩ ⟨d, .done exit, calls⟩ :=
  Nat.add_le_add_right (Nat.zero_le _) _

theorem length_bumpCalls (calls : List ℕ) : (bumpCalls calls).length = calls.length := by
  cases calls <;> rfl

theorem JobStep.pays {cfg : CopyConfig} {j j' : Job} (hj : j.WithinBudget cfg)
    (h : JobStep cfg j j') : j.Pays j' := by
  cases h with
  | received d calls => exact Nat.le_refl _
  | derived env s d calls => exact Nat.add_le_add_right (Stage.willSend_le _) _
  | attempted env d input attempts calls =>
    simp only [Job.Pays, length_bumpCalls]
    exact Nat.add_le_add_right (Stage.willSend_le _) _
  | sent d tx txnId insertedAt calls => exact Nat.add_le_add_right (Nat.zero_le _) _
  | requeued hasRoom response d d' txnId insertedAt calls hconfirm =>
    cases hasRoom with
    | true => exact (Nat.add_comm 1 _).le.trans (Nat.zero_add _).ge
    | false => exact Nat.le_refl _
  | resent response d d' tx txnId insertedAt stage calls hconfirm =>
    exact absurd hconfirm (not_resend hj.details)
  | left d stage exit calls => exact .leave d stage exit calls

theorem Service.shedJobs_pay (cfg : CopyConfig) (s : Service) :
    List.Forall₂ Job.Pays s.jobs (s.shedJobs cfg) :=
  s.forall₂_shedJobs .refl fun j => .leave j.details j.stage .shed j.calls

/-- Every job has sent, and may still send, no more than one transaction an execution. -/
def SendsWithin (jobs : List Job) (sent : List (ℕ × SendTransactionData)) : Prop :=
  ∀ (i : ℕ) (j : Job), jobs[i]? = some j →
    sent.countP (fun p => decide (p.1 = i)) + j.stage.willSend ≤ j.calls.length

namespace SendsWithin

variable {jobs jobs' : List Job} {sent : List (ℕ × SendTransactionData)}

theorem pay (h : SendsWithin jobs sent) (hjobs : List.Forall₂ Job.Pays jobs jobs') :
    SendsWithin jobs' sent := by
  intro i j' hi
  obtain ⟨j, hj, hpays⟩ := getElem?_left_of_forall₂ hjobs hi
  have hold := h i j hj
  unfold Job.Pays at hpays
  omega

/-- Nothing was sent for a new job. -/
theorem append (h : SendsWithin jobs sent) (howned : ∀ p ∈ sent, p.1 < jobs.length) {j : Job}
    (hj : j.stage.willSend ≤ j.calls.length) : SendsWithin (jobs ++ [j]) sent := by
  intro i j' hi
  rcases getElem?_concat_cases hi with hi | ⟨rfl, rfl⟩
  · exact h i j' hi
  · have hnone : sent.countP (fun p => decide (p.1 = jobs.length)) = 0 :=
      List.countP_eq_zero.mpr fun p hp he => (howned p hp).ne (of_decide_eq_true he)
    omega

/-- A job sends the transaction of its execution. -/
theorem send (h : SendsWithin jobs sent) {i : ℕ} {j : Job} (hi : jobs[i]? = some j)
    (hj : j.stage.willSend = 1) (j' : Job) (hj' : j'.stage.willSend = 0)
    (hcalls : j'.calls = j.calls) (d : SendTransactionData) :
    SendsWithin (jobs.set i j') (sent ++ [(i, d)]) := by
  intro i' j'' hi'
  rw [List.countP_append, List.countP_singleton]
  rcases getElem?_set_cases hi' with ⟨rfl, rfl⟩ | ⟨hne, hi'⟩
  · have hold := h i' j hi
    rw [if_pos (decide_eq_true rfl), hj', hcalls]
    omega
  · have hold := h i' j'' hi'
    rw [if_neg fun he => hne (of_decide_eq_true he).symm]
    exact hold

end SendsWithin

/-- A step that sends nothing. -/
theorem Service.sendsWithin_step {cfg : CopyConfig} {s : Service}
    {sent : List (ℕ × SendTransactionData)} (h : SendsWithin s.jobs sent)
    (hbudget : ∀ j ∈ s.jobs, j.WithinBudget cfg) (howned : ∀ p ∈ sent, p.1 < s.jobs.length)
    (e : ServiceEvent) : SendsWithin (s.step cfg e).jobs sent := by
  cases hown : e.isDelivery with
  | false =>
    exact h.pay (forall₂_jobs_step .refl (fun _ _ _ => .trans)
      (fun j => .leave j.details j.stage .shed j.calls) (fun _ _ => JobStep.pays) hbudget hown)
  | true =>
    cases e with
    | wireTxn t =>
      refine h.append howned ?_
      cases s.hasRoom cfg <;> exact Nat.le_refl _
    | _ => cases hown

/-! ## What is recorded -/

/-- What is recorded for a confirmed transaction bears its signature. -/
theorem Shared.recordIf_execSignature (s : Shared) (cfg : CopyConfig) (d : CopyDetails)
    (signature : Signature) (traded : Bool) (side : TradeSide) :
    ∀ trade ∈ (s.recordIf cfg d signature traded side).2, trade.execSignature = signature := by
  intro trade ht
  unfold recordIf at ht
  split at ht
  · unfold record at ht
    split at ht
    · split at ht
      · cases ht
      · obtain rfl := List.mem_singleton.mp ht
        rfl
    · split at ht
      · cases ht
      · split at ht <;> cases ht
  · cases ht

theorem handleSuccessTxn_execSignature {cfg : CopyConfig} {env : SuccessEnv} {s s' : Shared}
    {d : CopyDetails} {signature : Signature} {trades : List CopyTrade}
    (h : handleSuccessTxn cfg env s d signature = some (s', trades)) :
    ∀ trade ∈ trades, trade.execSignature = signature := by
  unfold handleSuccessTxn at h
  split at h
  · obtain ⟨-, rfl⟩ := Prod.mk.inj (Option.some.inj h)
    exact fun trade ht => absurd ht List.not_mem_nil
  · split at h
    · cases h
    · split at h
      · obtain ⟨-, rfl⟩ := Prod.mk.inj (Option.some.inj h)
        intro trade ht
        rcases List.mem_append.mp ht with hsell | hbuy
        · exact Shared.recordIf_execSignature _ cfg d signature _ _ trade hsell
        · exact Shared.recordIf_execSignature _ cfg d signature _ _ trade hbuy
      · cases h

/-- What is recorded for a confirmed transaction bears the origin of its details. -/
theorem handleSuccessTxn_originSignature {cfg : CopyConfig} {env : SuccessEnv} {s s' : Shared}
    {d : CopyDetails} {signature : Signature} {trades : List CopyTrade}
    (h : handleSuccessTxn cfg env s d signature = some (s', trades)) :
    ∀ trade ∈ trades, trade.originSignature = d.originSignature := by
  obtain ⟨sells, buys, rfl, hsells, hbuys⟩ := handleSuccessTxn_booked h
  intro trade ht
  rcases List.mem_append.mp ht with hsell | hbuy
  · exact (hsells.booked trade hsell).1
  · exact (hbuys.booked trade hbuy).1

end Biscuit.Copy
