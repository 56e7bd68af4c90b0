import Biscuit.Core.Variant
import Biscuit.Models.Copy.Accounting
import Biscuit.Models.Copy.Success

/-!
# The copy service comes to rest

A delivered transaction brings a bounded amount of work: every step of its job lowers the
rank of the counters that are left, the stage, or the attempts of the running execution.
Unless the main task has panicked, the service is at rest exactly when every job has left.
-/

namespace Biscuit.Copy

/-! ## The events that do work -/

/-- Whether an event works on a job at that stage. -/
def ServiceEvent.worksOn : ServiceEvent → Stage → Bool
  | .recv _, .queued => true
  | .input .., .spawned => true
  | .attempt .., .executing .. => true
  | .output .., .built _ => true
  | .output .., .failed => true
  | .confirm .., .pending .. => true
  | _, _ => false

/-- The job that an event is about. -/
def ServiceEvent.job? : ServiceEvent → Option ℕ
  | .wireTxn _ | .panics => none
  | .recv i | .input i _ | .attempt i _ | .output i .. | .confirm i .. => some i

/-- Whether the main task takes the event. -/
def ServiceEvent.byMain : ServiceEvent → Bool
  | .wireTxn _ | .recv _ | .input .. | .attempt .. => false
  | .output .. | .confirm .. | .panics => true

/-- The work that an event brings in. -/
def ServiceEvent.brings (cfg : CopyConfig) : ServiceEvent → ℕ
  | .wireTxn _ => cfg.maxExecutions * (cfg.maxCalls + 4)
  | _ => 0

/-- Whether a stage waits for the main task. -/
def Stage.awaitsMain : Stage → Bool
  | .built _ | .failed | .pending .. => true
  | _ => false

/-- Whether an event works on a job of the service: the job is at the right stage, and the
task is running. -/
def Service.isWork (s : Service) (e : ServiceEvent) : Bool :=
  !(s.crashed && e.byMain) &&
    ((e.job?.bind fun i => s.jobs[i]?).any fun j => e.worksOn j.stage)

/-! ## The work that is left -/

/-- The steps that are left in one execution. -/
def Stage.workLeft (cfg : CopyConfig) : Stage → ℕ
  | .queued => cfg.maxCalls + 4
  | .spawned => cfg.maxCalls + 3
  | .executing _ attempts => cfg.maxCalls - attempts + 2
  | .built _ | .failed => 2
  | .pending .. => 1
  | .done _ => 0

/-- The steps that are left for a job: those of this execution and of the ones that the
counters still permit. -/
def Job.workLeft (cfg : CopyConfig) (j : Job) : ℕ :=
  if j.stage.isLive then
    (cfg.maxExecutions - 1 - j.details.rank cfg) * (cfg.maxCalls + 4) + j.stage.workLeft cfg
  else 0

/-- The steps that are left for the service; its main task can panic once. -/
def Service.workLeft (cfg : CopyConfig) (s : Service) : ℕ :=
  tally (Job.workLeft cfg) s.jobs + (!s.crashed).toNat

/-- A live stage has work left. -/
theorem Stage.workLeft_pos (cfg : CopyConfig) {stage : Stage} (h : stage.isLive = true) :
    0 < stage.workLeft cfg := by
  cases stage with
  | done exit => cases h
  | _ =>
    simp only [Stage.workLeft]
    omega

/-- A live job has work left. -/
theorem Job.workLeft_pos (cfg : CopyConfig) {j : Job} (h : j.stage.isLive = true) :
    0 < j.workLeft cfg := by
  have hpos := j.stage.workLeft_pos cfg h
  rw [Job.workLeft, if_pos h]
  omega

@[simp] theorem Job.workLeft_done (cfg : CopyConfig) (d : CopyDetails) (exit : Exit)
    (calls : List ℕ) : Job.workLeft cfg ⟨d, .done exit, calls⟩ = 0 := rfl

/-- At one rank, less is left at a later stage. -/
theorem Job.workLeft_lt_of_stage {cfg : CopyConfig} {d d' : CopyDetails} {stage stage' : Stage}
    {calls calls' : List ℕ} (hrank : d'.rank cfg = d.rank cfg) (hlive : stage.isLive = true)
    (hlt : stage'.workLeft cfg < stage.workLeft cfg) :
    Job.workLeft cfg ⟨d', stage', calls'⟩ < Job.workLeft cfg ⟨d, stage, calls⟩ := by
  simp only [Job.workLeft, hlive, hrank, if_true]
  split <;> omega

/-- A higher rank leaves one execution less. -/
theorem Job.workLeft_enqueue_lt {cfg : CopyConfig} {hasRoom : Bool} {d d' : CopyDetails}
    {txnId : TransactionId} {insertedAt : ℕ} {calls calls' : List ℕ}
    (hd' : WithinConfig cfg d') (hrank : d.rank cfg < d'.rank cfg) :
    (Job.enqueue hasRoom d' calls').workLeft cfg <
      Job.workLeft cfg ⟨d, .pending txnId insertedAt, calls⟩ := by
  have hpos : 0 < Job.workLeft cfg ⟨d, .pending txnId insertedAt, calls⟩ :=
    Job.workLeft_pos cfg rfl
  cases hasRoom with
  | false => exact hpos
  | true =>
    have hlast := hd'.rank_lt
    have hsucc : cfg.maxExecutions - 1 - d'.rank cfg + 1 ≤
        cfg.maxExecutions - 1 - d.rank cfg := by omega
    have hmul := Nat.mul_le_mul_right (cfg.maxCalls + 4) hsucc
    rw [Nat.succ_mul] at hmul
    simp only [Job.enqueue, Job.workLeft, Stage.isLive, Stage.workLeft, if_true]
    omega

/-- What a delivery brings in. -/
theorem Job.workLeft_enqueue_le (cfg : CopyConfig) (hasRoom : Bool) (t : OriginTrade) :
    (Job.enqueue hasRoom (t.details cfg) []).workLeft cfg ≤
      cfg.maxExecutions * (cfg.maxCalls + 4) := by
  have hlast : 1 ≤ cfg.maxExecutions := Nat.mul_pos (Nat.succ_pos _) (Nat.succ_pos _)
  have hrank : (t.details cfg).rank cfg = 0 := by
    simp only [CopyDetails.rank, OriginTrade.details, Nat.zero_mul]
  cases hasRoom with
  | false => exact Nat.zero_le _
  | true =>
    simp only [Job.enqueue, Job.workLeft, Stage.isLive, Stage.workLeft, if_true, hrank,
      Nat.sub_zero, ← Nat.succ_mul]
    exact Nat.mul_le_mul_right _ (by omega)

/-- Every step of a live job leaves less work. -/
theorem Job.workLeft_lt {cfg : CopyConfig} {j j' : Job} (h : j.WithinBudget cfg)
    (hlive : j.stage.isLive = true) (hstep : JobStep cfg j j') :
    j'.workLeft cfg < j.workLeft cfg := by
  cases hstep with
  | received d calls => exact Job.workLeft_lt_of_stage rfl rfl (Nat.lt_succ_self _)
  | derived env s d calls =>
    obtain ⟨-, hrank⟩ := getExecutionInput_within env s h.details
    refine Job.workLeft_lt_of_stage hrank rfl ?_
    cases (getExecutionInput cfg env s d).2.2 with
    | error e => exact Nat.succ_pos _
    | ok found =>
      cases found with
      | none => exact Nat.succ_pos _
      | some input => exact Nat.lt_succ_self _
  | attempted env d input attempts calls =>
    obtain ⟨-, hrank⟩ := processExecutionInput_within env input h.details
    obtain ⟨rest, -, hattempts⟩ := h.newest
    have hlt : attempts < cfg.maxCalls := by
      unfold CopyConfig.maxCalls
      omega
    refine Job.workLeft_lt_of_stage hrank rfl ?_
    cases (processExecutionInput cfg env input d).2 with
    | some tx =>
      simp only [Stage.ofAttempt, Stage.workLeft]
      omega
    | none =>
      simp only [Stage.ofAttempt]
      split
      · simp only [Stage.workLeft]
        omega
      · simp only [Stage.workLeft]
        omega
  | sent d tx txnId insertedAt calls =>
    exact Job.workLeft_lt_of_stage rfl rfl (Nat.lt_succ_self _)
  | requeued hasRoom response d d' txnId insertedAt calls hconfirm =>
    obtain ⟨hd', hrank⟩ := handleConfirmation_within h.details hconfirm
    exact Job.workLeft_enqueue_lt hd' hrank
  | resent response d d' tx txnId insertedAt stage calls hconfirm =>
    exact absurd hconfirm (not_resend h.details)
  | left d stage exit calls => exact Job.workLeft_pos cfg hlive

/-! ## One step of the service -/

namespace Service

/-- What an event does that works on a job: the job takes a step, which may make pending
jobs leave, or the main task panics. -/
inductive Works (cfg : CopyConfig) (s : Service) : Service → Prop
  | stepped (s' : Service) (jobs : List Job) (i : ℕ) (j j' : Job)
      (hjobs : jobs = s.jobs ∨ jobs = s.shedJobs cfg) (hi : s.jobs[i]? = some j)
      (hkept : jobs[i]? = some j) (hlive : j.stage.isLive = true) (hstep : JobStep cfg j j')
      (hset : s'.jobs = jobs.set i j') (hcrashed : s'.crashed = s.crashed) : Works cfg s s'
  | crashed (hrunning : s.crashed = false) : Works cfg s { s with crashed := true }

/-- A job in its place takes a step. -/
theorem Works.of_set {cfg : CopyConfig} {s s' : Service} {i : ℕ} {j j' : Job}
    (hi : s.jobs[i]? = some j) (hlive : j.stage.isLive = true) (hstep : JobStep cfg j j')
    (hset : s'.jobs = s.jobs.set i j') (hcrashed : s'.crashed = s.crashed) : Works cfg s s' :=
  .stepped s' s.jobs i j j' (.inl rfl) hi hi hlive hstep hset hcrashed

/-- The job that an event works on. -/
theorem exists_job_of_isWork {s : Service} {e : ServiceEvent} (h : s.isWork e = true) :
    ∃ i j, e.job? = some i ∧ s.jobs[i]? = some j ∧ e.worksOn j.stage = true ∧
      (e.byMain = true → s.crashed = false) := by
  simp only [isWork, Bool.and_eq_true, Bool.not_eq_true', Bool.and_eq_false_iff,
    Option.any_eq_true, Option.bind_eq_some_iff] at h
  obtain ⟨hmain, j, ⟨i, hi, hj⟩, hworks⟩ := h
  refine ⟨i, j, hi, hj, hworks, fun hby => ?_⟩
  rcases hmain with hrunning | hnot
  · exact hrunning
  · exact absurd hby (Bool.eq_false_iff.mp hnot)

/-- An event that works on a job makes it take a step. -/
theorem step_works {cfg : CopyConfig} {s : Service} {e : ServiceEvent}
    (hbudget : ∀ j ∈ s.jobs, j.WithinBudget cfg) (h : s.isWork e = true) :
    Works cfg s (s.step cfg e) := by
  obtain ⟨i, ⟨d, stage, calls⟩, hi, hj, hworks, hrunning⟩ := exists_job_of_isWork h
  cases e with
  | wireTxn t => cases hi
  | panics => cases hi
  | recv i =>
    obtain rfl := Option.some.inj hi
    cases stage with
    | queued =>
      refine .of_set hj rfl (.received d calls) ?_ ?_ <;>
        simp only [step, recv, hj, update]
    | _ => cases hworks
  | input i env =>
    obtain rfl := Option.some.inj hi
    cases stage with
    | spawned =>
      refine .of_set hj rfl (.derived env s.shared d calls) ?_ ?_ <;>
        simp only [step, Service.input, hj]
    | _ => cases hworks
  | attempt i env =>
    obtain rfl := Option.some.inj hi
    cases stage with
    | executing input attempts =>
      refine .of_set hj rfl (.attempted env d input attempts calls) ?_ ?_ <;>
        simp only [step, Service.attempt, hj, update]
    | _ => cases hworks
  | output i sent env =>
    obtain rfl := Option.some.inj hi
    have hup := hrunning rfl
    cases stage with
    | built tx =>
      cases sent with
      | true =>
        refine .stepped _ (s.shedJobs cfg) i _ _ (.inr rfl) hj (shedJobs_built cfg hj) rfl
          (.sent d tx s.nextTxnId s.clock calls) ?_ ?_ <;>
          simp only [step, Service.output, hup, hj, insertPending, Bool.false_eq_true, if_false,
            if_true]
      | false =>
        refine .of_set hj rfl (.left d _ .sendFailed calls) ?_ ?_ <;>
          simp only [step, Service.output, hup, hj, update, Bool.false_eq_true, if_false]
    | failed =>
      refine .of_set hj rfl (.left d _ .givenUp calls) ?_ ?_ <;>
        simp only [step, Service.output, hup, hj, giveUp, Bool.false_eq_true, if_false]
    | _ => cases hworks
  | confirm i response env =>
    obtain rfl := Option.some.inj hi
    have hup := hrunning rfl
    cases stage with
    | pending txnId insertedAt =>
      have hwithin := (hbudget _ (List.mem_of_getElem? hj)).details
      cases hconfirm : handleConfirmation cfg d response with
      | execute d' =>
        refine .of_set hj rfl
          (.requeued (s.hasRoom cfg) response d d' txnId insertedAt calls hconfirm) ?_ ?_ <;>
          simp only [step, Service.confirm, hup, hj, hconfirm, update, Bool.false_eq_true,
            if_false]
      | resend d' tx => exact absurd hconfirm (not_resend hwithin)
      | failed d' =>
        obtain rfl := handleConfirmation_failed hconfirm
        refine .of_set hj rfl (.left d' _ .givenUp calls) ?_ ?_ <;>
          simp only [step, Service.confirm, hup, hj, hconfirm, giveUp, Bool.false_eq_true,
            if_false]
      | success d' =>
        obtain rfl := handleConfirmation_success hconfirm
        cases hrecord : handleSuccessTxn cfg env.success s.shared d' env.signature with
        | none =>
          have hcrash : s.step cfg (.confirm i response env) = { s with crashed := true } := by
            simp only [step, Service.confirm, hup, hj, hconfirm, hrecord, Bool.false_eq_true,
              if_false]
          rw [hcrash]
          exact .crashed hup
        | some recorded =>
          refine .of_set hj rfl (.left d' _ .confirmed calls) ?_ ?_ <;>
            simp only [step, Service.confirm, hup, hj, hconfirm, hrecord, Bool.false_eq_true,
              if_false]
    | _ => cases hworks

/-- The main task takes nothing after a panic. -/
theorem step_of_crashed {cfg : CopyConfig} {s : Service} {e : ServiceEvent}
    (hcrashed : s.crashed = true) (hmain : e.byMain = true) : s.step cfg e = s := by
  cases e with
  | output i sent env => exact if_pos hcrashed
  | confirm i response env => exact if_pos hcrashed
  | panics => rw [step, ← hcrashed]
  | _ => cases hmain

/-- An event that neither delivers nor works on a job changes nothing. -/
theorem step_of_not_isWork {cfg : CopyConfig} {s : Service} {e : ServiceEvent} {i : ℕ}
    (hjob : e.job? = some i) (h : s.isWork e = false) : s.step cfg e = s := by
  by_cases hmain : s.crashed = true ∧ e.byMain = true
  · exact step_of_crashed hmain.1 hmain.2
  · have hidle : ∀ j, s.jobs[i]? = some j → e.worksOn j.stage = false := by
      intro j hj
      simp only [isWork, hjob, Option.bind_some, hj, Option.any_some, Bool.and_eq_false_iff,
        Bool.not_eq_false', Bool.and_eq_true] at h
      exact h.resolve_left hmain
    cases e with
    | wireTxn t => cases hjob
    | panics => cases hjob
    | recv k =>
      obtain rfl := Option.some.inj hjob
      simp only [step, recv]
      split
      · rename_i hk
        exact Bool.noConfusion (show true = false from hidle _ hk)
      · rfl
    | input k env =>
      obtain rfl := Option.some.inj hjob
      simp only [step, Service.input]
      split
      · rename_i hk
        exact Bool.noConfusion (show true = false from hidle _ hk)
      · rfl
    | attempt k env =>
      obtain rfl := Option.some.inj hjob
      simp only [step, Service.attempt]
      split
      · rename_i hk
        exact Bool.noConfusion (show true = false from hidle _ hk)
      · rfl
    | output k sent env =>
      obtain rfl := Option.some.inj hjob
      simp only [step, Service.output]
      split
      · rfl
      · split
        · rename_i hk
          exact Bool.noConfusion (show true = false from hidle _ hk)
        · rename_i hk
          exact Bool.noConfusion (show true = false from hidle _ hk)
        · rfl
    | confirm k response env =>
      obtain rfl := Option.some.inj hjob
      simp only [step, Service.confirm]
      split
      · rfl
      · split
        · rename_i hk
          exact Bool.noConfusion (show true = false from hidle _ hk)
        · rfl

/-- Shedding leaves no more work. -/
theorem tally_shedJobs_le (cfg : CopyConfig) (s : Service) :
    tally (Job.workLeft cfg) (s.shedJobs cfg) ≤ tally (Job.workLeft cfg) s.jobs := by
  unfold shedJobs
  split
  · unfold tally
    rw [List.map_map]
    refine List.sum_le_sum fun j _ => ?_
    simp only [Function.comp_apply, shedJob]
    split
    · split
      · exact Nat.zero_le _
      · exact le_rfl
    · exact le_rfl
  · exact le_rfl

/-- An event that works on a job leaves less work. -/
theorem Works.workLeft_lt {cfg : CopyConfig} {s s' : Service}
    (hbudget : ∀ j ∈ s.jobs, j.WithinBudget cfg) (h : Works cfg s s') :
    s'.workLeft cfg < s.workLeft cfg := by
  cases h with
  | stepped s' jobs i j j' hjobs hi hkept hlive hstep hset hcrashed =>
    have hlt := Job.workLeft_lt (hbudget j (List.mem_of_getElem? hi)) hlive hstep
    have htally := tally_set (f := Job.workLeft cfg) hkept j'
    have hle : tally (Job.workLeft cfg) jobs ≤ tally (Job.workLeft cfg) s.jobs := by
      rcases hjobs with rfl | rfl
      · exact le_rfl
      · exact s.tally_shedJobs_le cfg
    simp only [workLeft, hset, hcrashed]
    omega
  | crashed hrunning =>
    simp only [workLeft, hrunning, Bool.not_false, Bool.not_true, Bool.toNat_true,
      Bool.toNat_false]
    omega

/-- A step leaves less work than there was and than it brought in. -/
theorem workLeft_step {cfg : CopyConfig} {s : Service} (e : ServiceEvent)
    (hbudget : ∀ j ∈ s.jobs, j.WithinBudget cfg) :
    (s.isWork e).toNat + (s.step cfg e).workLeft cfg ≤ s.workLeft cfg + e.brings cfg := by
  cases hwork : s.isWork e with
  | true =>
    have hlt := (step_works hbudget hwork).workLeft_lt hbudget
    simp only [Bool.toNat_true]
    omega
  | false =>
    simp only [Bool.toNat_false, Nat.zero_add]
    cases hjob : e.job? with
    | some i =>
      rw [step_of_not_isWork hjob hwork]
      exact Nat.le_add_right _ _
    | none =>
      cases e with
      | wireTxn t =>
        have hnew := Job.workLeft_enqueue_le cfg (s.hasRoom cfg) t
        simp only [step, wireTxn, ServiceEvent.brings, workLeft, tally_append, tally_cons,
          tally_nil]
        omega
      | panics => exact Nat.add_le_add_left (Nat.zero_le _) _
      | _ => cases hjob

/-! ## Runs -/

/-- No task of the service has anything to do before the next delivery. -/
def AtRest (s : Service) : Prop := ∀ e, s.isWork e = false

/-- The jobs of a run stay within their budget. -/
theorem withinBudget_run (cfg : CopyConfig) (shared : Shared) (events : List ServiceEvent) :
    ∀ j ∈ (exec (Service.step cfg) (init shared) events).jobs, j.WithinBudget cfg :=
  forall_jobs_run (OriginTrade.withinBudget cfg) Job.withinBudget_step shared events

/-- What a run has settled before success handling. -/
theorem typed_run (cfg : CopyConfig) (shared : Shared) (events : List ServiceEvent) :
    (exec (Service.step cfg) (init shared) events).Typed :=
  exec_preserves (fun _ e h => h.step cfg e) events (fun _ hj => by cases hj)

/-- The main task runs as long as it does not panic on what it reads. -/
theorem running_run (cfg : CopyConfig) (shared : Shared) {events : List ServiceEvent}
    (h : ∀ e ∈ events, e ≠ .panics) :
    (exec (Service.step cfg) (init shared) events).crashed = false := by
  induction events using List.reverseRecOn with
  | nil => rfl
  | append_singleton events e ih =>
    rw [exec_append, exec_cons, exec_nil]
    have hbefore := ih fun e he => h e (List.mem_append_left _ he)
    exact (typed_run cfg shared events).running hbefore
      (h e (List.mem_append_right _ (List.mem_singleton_self e)))

/-- An event works on a job that is at its stage, when its task is running. -/
theorem isWork_of_worksOn {s : Service} {e : ServiceEvent} {i : ℕ} {j : Job}
    (hjob : e.job? = some i) (hi : s.jobs[i]? = some j) (hworks : e.worksOn j.stage = true)
    (hup : e.byMain = true → s.crashed = false) : s.isWork e = true := by
  simp only [isWork, hjob, Option.bind_some, hi, Option.any_some, hworks, Bool.and_true,
    Bool.not_eq_true', Bool.and_eq_false_iff]
  cases hmain : e.byMain with
  | true => exact .inl (hup hmain)
  | false => exact .inr rfl

/-- There is an event for every live job that a running task could take on. -/
theorem exists_isWork {s : Service} {i : ℕ} {j : Job} (hi : s.jobs[i]? = some j)
    (hlive : j.stage.isLive = true) (hup : j.stage.awaitsMain = true → s.crashed = false) :
    ∃ e, e.job? = some i ∧ s.isWork e = true := by
  obtain ⟨d, stage, calls⟩ := j
  cases stage with
  | queued => exact ⟨.recv i, rfl, isWork_of_worksOn rfl hi rfl nofun⟩
  | spawned => exact ⟨.input i sampleEnv, rfl, isWork_of_worksOn rfl hi rfl nofun⟩
  | executing input attempts =>
    exact ⟨.attempt i sampleBuild, rfl, isWork_of_worksOn rfl hi rfl nofun⟩
  | built tx =>
    exact ⟨.output i true sampleFailure, rfl, isWork_of_worksOn rfl hi rfl fun _ => hup rfl⟩
  | failed =>
    exact ⟨.output i true sampleFailure, rfl, isWork_of_worksOn rfl hi rfl fun _ => hup rfl⟩
  | pending txnId insertedAt =>
    exact ⟨.confirm i (.confirmed none 0) ⟨sampleSuccess 0, sampleFailure, 0, true⟩, rfl,
      isWork_of_worksOn rfl hi rfl fun _ => hup rfl⟩
  | done exit => cases hlive

/-- The service is at rest exactly when every job has left, apart from those that wait for a
main task that has panicked. -/
theorem atRest_iff (s : Service) :
    s.AtRest ↔ ∀ j ∈ s.jobs, j.stage.isLive = true →
      s.crashed = true ∧ j.stage.awaitsMain = true := by
  constructor
  · intro hrest j hj hlive
    obtain ⟨i, hi⟩ := List.getElem?_of_mem hj
    by_contra hup
    have hfree : j.stage.awaitsMain = true → s.crashed = false := fun hwaits =>
      Bool.eq_false_iff.mpr fun hcrashed => hup ⟨hcrashed, hwaits⟩
    obtain ⟨e, -, he⟩ := exists_isWork hi hlive hfree
    exact absurd (he.symm.trans (hrest e)) nofun
  · intro hleft e
    refine Bool.eq_false_iff.mpr fun he => ?_
    obtain ⟨i, j, -, hi, hworks, hup⟩ := exists_job_of_isWork he
    -- The stage that the event works on is live, and awaits the task that takes the event.
    have hstage : j.stage.isLive = true ∧ j.stage.awaitsMain = e.byMain := by
      generalize j.stage = stage at hworks
      cases e <;> cases stage <;> first | exact ⟨rfl, rfl⟩ | cases hworks
    obtain ⟨hcrashed, hwaits⟩ := hleft j (List.mem_of_getElem? hi) hstage.1
    exact absurd (hcrashed.symm.trans (hup (hstage.2 ▸ hwaits))) nofun

/-- What the deliveries of a run bring in. -/
theorem tally_brings (cfg : CopyConfig) (events : List ServiceEvent) :
    tally (·.brings cfg) events =
      cfg.maxExecutions * (cfg.maxCalls + 4) * events.countP (·.isDelivery) := by
  induction events with
  | nil => rfl
  | cons e events ih =>
    rw [tally_cons, ih, List.countP_cons]
    cases e <;> simp only [ServiceEvent.brings, ServiceEvent.isDelivery, Bool.false_eq_true,
      if_true, if_false, Nat.mul_add_one, Nat.add_zero, Nat.zero_add]
    exact Nat.add_comm _ _

end Service

/-- In every run, in whatever order the tasks take their steps and whatever they are
answered, the steps that work on a job are bounded by the number of deliveries; nothing is
left to do exactly when every job has left the pipeline, apart from those that wait for a main task
that has panicked; such a state is always within reach without another delivery; and where the main
task has not panicked on what it reads, every job has left in it. -/
theorem service_comes_to_rest (cfg : CopyConfig) (shared : Shared)
    (events : List ServiceEvent) :
    let s := exec (Service.step cfg) (Service.init shared) events
    countAlong (Service.step cfg) Service.isWork (Service.init shared) events ≤
        (cfg.confirmedErrorRetries + 1) * (cfg.sendTxnRetries + 1) *
          (max 1 cfg.executionRetries + 4) * events.countP (·.isDelivery) + 1 ∧
      (s.AtRest ↔ ∀ j ∈ s.jobs, j.stage.isLive = true →
        s.crashed = true ∧ j.stage.awaitsMain = true) ∧
      (∃ more : List ServiceEvent, (∀ e ∈ more, e.job?.isSome = true) ∧
        (exec (Service.step cfg) s more).AtRest) ∧
      ((∀ e ∈ events, e ≠ .panics) → (s.AtRest ↔ ∀ j ∈ s.jobs, j.stage.isLive = false)) := by
  have hinv : ∀ (s : Service) (e : ServiceEvent), (∀ j ∈ s.jobs, j.WithinBudget cfg) →
      ∀ j ∈ (s.step cfg e).jobs, j.WithinBudget cfg := fun _ e hs =>
    Service.forall_jobs_step (OriginTrade.withinBudget cfg) Job.withinBudget_step e hs
  have hrun := Service.withinBudget_run cfg shared events
  refine ⟨?_, Service.atRest_iff _, ?_, fun hreads => ?_⟩
  · have hcount := countAlong_add_le (C := Service.isWork) (V := Service.workLeft cfg)
      (B := (·.brings cfg)) hinv (fun s e hs => Service.workLeft_step e hs) events
      (s := Service.init shared) (fun _ hj => absurd hj List.not_mem_nil)
    rw [Service.tally_brings] at hcount
    have hinit : (Service.init shared).workLeft cfg = 1 := rfl
    rw [hinit] at hcount
    unfold CopyConfig.maxExecutions CopyConfig.maxCalls at hcount
    omega
  · obtain ⟨more, hown, -, hrest⟩ := exists_exec_rest (R := Service.AtRest)
      (O := fun e : ServiceEvent => e.job?.isSome = true) (V := Service.workLeft cfg) hinv
      (fun s hs hbusy => by
        obtain ⟨e, he⟩ := not_forall.mp hbusy
        have hwork : s.isWork e = true := Bool.not_eq_false _ ▸ he
        obtain ⟨i, -, hjob, -⟩ := Service.exists_job_of_isWork hwork
        exact ⟨e, hjob ▸ rfl, (Service.step_works hs hwork).workLeft_lt hs⟩) hrun
    exact ⟨more, hown, hrest⟩
  · rw [Service.atRest_iff, Service.running_run cfg shared hreads]
    refine forall₂_congr fun j _ => ?_
    cases j.stage.isLive <;> simp

end Biscuit.Copy
