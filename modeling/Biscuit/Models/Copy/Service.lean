import Biscuit.Core.Run
import Biscuit.Core.Tally
import Biscuit.Models.Copy.Settlement

/-!
# The copy service

Every delivered origin transaction is a job that travels from the execution queue through
sizing, building and sending to its confirmation, and back into the queue for a retry.
The main task, the execution task and the spawned tasks take their steps in any order.
A job that has left the pipeline keeps its place and remembers its exit.
-/

namespace Biscuit.Copy

/-- How a job leaves the pipeline. -/
inductive Exit
  /-- The execution queue was full. -/
  | queueFull
  /-- `get_execution_input` failed. -/
  | inputFailed (e : ExecError)
  /-- There was nothing to execute. -/
  | skipped
  /-- The transaction could not be handed to the sending task. -/
  | sendFailed
  /-- The pending transactions were full. -/
  | shed
  /-- The execution was given up. -/
  | givenUp
  /-- The transaction was confirmed. -/
  | confirmed
  deriving DecidableEq

/-- Where a job is. -/
inductive Stage
  /-- In the execution queue. -/
  | queued
  /-- Taken out of the queue by the execution task. -/
  | spawned
  /-- Sized; so many attempts to build its transaction have failed. -/
  | executing (input : SwapInput) (attempts : ℕ)
  /-- Its transaction is on the way to the main task. -/
  | built (tx : BuiltTransaction)
  /-- Its failure is on the way to the main task. -/
  | failed
  /-- Sent, and waiting for its confirmation since that instant. -/
  | pending (txnId : TransactionId) (insertedAt : ℕ)
  /-- Gone. -/
  | done (exit : Exit)
  deriving DecidableEq

/-- Whether a job is still in the pipeline. -/
def Stage.isLive : Stage → Bool
  | .done _ => false
  | _ => true

/-- One delivered origin transaction. -/
structure Job where
  details : CopyDetails
  stage : Stage
  /-- For every execute command issued, newest first, the calls of
  `process_execution_input` that it made. -/
  calls : List ℕ

/-- The state of the service. -/
structure Service where
  shared : Shared
  jobs : List Job
  trades : List CopyTrade
  nextTxnId : TransactionId
  clock : ℕ
  /-- The main task has panicked. -/
  crashed : Bool

/-- The answers that handling a confirmation gets. -/
structure ConfirmEnv where
  success : SuccessEnv
  failure : FailureEnv
  signature : Signature
  /-- Whether the sending task takes a transaction that is sent again. -/
  resent : Bool

/-- One step of one task. -/
inductive ServiceEvent
  /-- A task of the stream has found a swap of a copied wallet. -/
  | wireTxn (t : OriginTrade)
  /-- The execution task takes a command out of the queue. -/
  | recv (i : ℕ)
  /-- A spawned task derives its order. -/
  | input (i : ℕ) (env : ExecEnv)
  /-- A spawned task tries to build its transaction. -/
  | attempt (i : ℕ) (env : BuildEnv)
  /-- The main task gets the output of an execution. -/
  | output (i : ℕ) (sent : Bool) (env : FailureEnv)
  /-- The main task gets a confirmation. -/
  | confirm (i : ℕ) (response : ConfirmTransactionResponse) (env : ConfirmEnv)
  /-- The main task panics on what it reads: the parser on a confirmed transaction, or
  `&data[0..Mint::LEN]` on an account that is too short for a mint. -/
  | panics

/-- Whether the event brings in a job. -/
def ServiceEvent.isDelivery : ServiceEvent → Bool
  | .wireTxn _ => true
  | _ => false

/-- One more call in the newest execution. -/
def bumpCalls : List ℕ → List ℕ
  | [] => []
  | n :: calls => (n + 1) :: calls

/-- Where deriving an order leads. -/
def Stage.ofInput : Except ExecError (Option SwapInput) → Stage
  | .error e => .done (.inputFailed e)
  | .ok none => .done .skipped
  | .ok (some input) => .executing input 0

/-- Where an attempt to build leads. -/
def Stage.ofAttempt (cfg : CopyConfig) (input : SwapInput) (attempts : ℕ) :
    Option BuiltTransaction → Stage
  | some tx => .built tx
  | none => if attempts < cfg.executionRetries then .executing input attempts else .failed

/-- A job is put into the execution queue, or dropped when the queue is full. -/
def Job.enqueue (hasRoom : Bool) (d : CopyDetails) (calls : List ℕ) : Job :=
  if hasRoom then ⟨d, .queued, 0 :: calls⟩ else ⟨d, .done .queueFull, calls⟩

/-- Whether a job waits for its confirmation. -/
def Job.isPending (j : Job) : Bool :=
  match j.stage with
  | .pending .. => true
  | _ => false

/-- Whether a job waits for its confirmation since a later instant. -/
def Job.isNewer (insertedAt : ℕ) (j : Job) : Bool :=
  match j.stage with
  | .pending _ t => decide (insertedAt < t)
  | _ => false

namespace Service

/-- The service at its start. -/
def init (shared : Shared) : Service := ⟨shared, [], [], 0, 0, false⟩

/-- Whether the execution queue takes one more command. -/
def hasRoom (cfg : CopyConfig) (s : Service) : Bool :=
  decide (s.jobs.countP (fun j => decide (j.stage = .queued)) < cfg.maxExecutionQueueLength)

/-- Whether `PendingTransactionsMap::insert` has to shed. -/
def pendingFull (cfg : CopyConfig) (s : Service) : Bool :=
  decide (cfg.maxPendingQueueLength ≤ s.jobs.countP Job.isPending)

/-- A pending job is shed when enough newer ones are pending; the fifth of the capacity
that is oldest goes. -/
def shedJob (cfg : CopyConfig) (jobs : List Job) (j : Job) : Job :=
  match j.stage with
  | .pending _ insertedAt =>
    if cfg.maxPendingQueueLength - cfg.maxPendingQueueLength / 5 ≤
        jobs.countP (Job.isNewer insertedAt)
    then { j with stage := .done .shed }
    else j
  | _ => j

/-- The jobs after `PendingTransactionsMap::insert` has made room. -/
def shedJobs (cfg : CopyConfig) (s : Service) : List Job :=
  if s.pendingFull cfg then s.jobs.map (shedJob cfg s.jobs) else s.jobs

/-- Put one job in its place. -/
def update (s : Service) (i : ℕ) (j : Job) : Service := { s with jobs := s.jobs.set i j }

/-- Make a job wait for its confirmation. -/
def insertPending (cfg : CopyConfig) (s : Service) (i : ℕ) (d : CopyDetails)
    (txnId : TransactionId) (calls : List ℕ) : Service :=
  { s with
    jobs := (s.shedJobs cfg).set i ⟨d, .pending txnId s.clock, calls⟩
    clock := s.clock + 1 }

/-- The end of `handle_wire_txn`, for a transaction that parses as a swap of a copied wallet: its
task puts a command into the execution queue, whether the main task still runs or not. -/
def wireTxn (cfg : CopyConfig) (s : Service) (t : OriginTrade) : Service :=
  { s with jobs := s.jobs ++ [Job.enqueue (s.hasRoom cfg) (t.details cfg) []] }

/-- The execution task hands a command to a task of its own. -/
def recv (s : Service) (i : ℕ) : Service :=
  match s.jobs[i]? with
  | some ⟨d, .queued, calls⟩ => s.update i ⟨d, .spawned, calls⟩
  | _ => s

/-- The first part of `handle_command`: an error and nothing to execute both end the
task, and the main task does not hear of it. -/
def input (cfg : CopyConfig) (s : Service) (i : ℕ) (env : ExecEnv) : Service :=
  match s.jobs[i]? with
  | some ⟨d, .spawned, calls⟩ =>
    let (shared, d, result) := getExecutionInput cfg env s.shared d
    { s with shared, jobs := s.jobs.set i ⟨d, .ofInput result, calls⟩ }
  | _ => s

/-- One turn of the loop of `handle_command`. -/
def attempt (cfg : CopyConfig) (s : Service) (i : ℕ) (env : BuildEnv) : Service :=
  match s.jobs[i]? with
  | some ⟨d, .executing input attempts, calls⟩ =>
    let (d, tx) := processExecutionInput cfg env input d
    s.update i ⟨d, .ofAttempt cfg input (attempts + 1) tx, bumpCalls calls⟩
  | _ => s

/-- Give the execution of a job up. -/
def giveUp (s : Service) (i : ℕ) (env : FailureEnv) (d : CopyDetails) (calls : List ℕ) :
    Service :=
  { s with
    shared := { s.shared with history := handleFailedExecution env s.shared.history d }
    jobs := s.jobs.set i ⟨d, .done .givenUp, calls⟩ }

/-- `handle_execution_output` -/
def output (cfg : CopyConfig) (s : Service) (i : ℕ) (sent : Bool) (env : FailureEnv) :
    Service :=
  if s.crashed then s
  else
    match s.jobs[i]? with
    | some ⟨d, .built _, calls⟩ =>
      if sent then
        { s.insertPending cfg i d s.nextTxnId calls with nextTxnId := s.nextTxnId + 1 }
      else s.update i ⟨d, .done .sendFailed, calls⟩
    | some ⟨d, .failed, calls⟩ => s.giveUp i env d calls
    | _ => s

/-- `handle_confirmation`; a confirmation of a transaction that is not pending is ignored. -/
def confirm (cfg : CopyConfig) (s : Service) (i : ℕ) (response : ConfirmTransactionResponse)
    (env : ConfirmEnv) : Service :=
  if s.crashed then s
  else
    match s.jobs[i]? with
    | some ⟨d, .pending txnId _, calls⟩ =>
      match handleConfirmation cfg d response with
      | .execute d => s.update i (Job.enqueue (s.hasRoom cfg) d calls)
      | .resend d _ =>
        let s := s.update i ⟨d, .done .sendFailed, calls⟩
        if env.resent then s.insertPending cfg i d txnId calls else s
      | .failed d => s.giveUp i env.failure d calls
      | .success d =>
        match handleSuccessTxn cfg env.success s.shared d env.signature with
        | none => { s with crashed := true }
        | some (shared, trades) =>
          { s with
            shared
            jobs := s.jobs.set i ⟨d, .done .confirmed, calls⟩
            trades := s.trades ++ trades }
    | _ => s

/-- The step function of the service. -/
def step (cfg : CopyConfig) (s : Service) : ServiceEvent → Service
  | .wireTxn t => s.wireTxn cfg t
  | .recv i => s.recv i
  | .input i env => s.input cfg i env
  | .attempt i env => s.attempt cfg i env
  | .output i sent env => s.output cfg i sent env
  | .confirm i response env => s.confirm cfg i response env
  | .panics => { s with crashed := true }

end Service

/-! ## What a step of the service can do -/

/-- Everything a step of the service can do. -/
inductive ServiceCase (cfg : CopyConfig) (s : Service) : ServiceEvent → Service → Prop
  /-- The event is not enabled. -/
  | idle (e : ServiceEvent) : ServiceCase cfg s e s
  /-- A job enters the pipeline, or finds the queue full. -/
  | delivered (t : OriginTrade) :
      ServiceCase cfg s (.wireTxn t)
        { s with jobs := s.jobs ++ [Job.enqueue (s.hasRoom cfg) (t.details cfg) []] }
  /-- A command leaves the queue. -/
  | received (i : ℕ) (d : CopyDetails) (calls : List ℕ)
      (hi : s.jobs[i]? = some ⟨d, .queued, calls⟩) :
      ServiceCase cfg s (.recv i) (s.update i ⟨d, .spawned, calls⟩)
  /-- An order is derived, or none is. -/
  | derived (i : ℕ) (env : ExecEnv) (d d' : CopyDetails) (calls : List ℕ) (shared : Shared)
      (result : Except ExecError (Option SwapInput))
      (hi : s.jobs[i]? = some ⟨d, .spawned, calls⟩)
      (hget : getExecutionInput cfg env s.shared d = (shared, d', result)) :
      ServiceCase cfg s (.input i env)
        { s with shared, jobs := s.jobs.set i ⟨d', .ofInput result, calls⟩ }
  /-- A transaction is built, or the attempt fails. -/
  | attempted (i : ℕ) (env : BuildEnv) (d d' : CopyDetails) (input : SwapInput)
      (attempts : ℕ) (calls : List ℕ) (tx : Option BuiltTransaction)
      (hi : s.jobs[i]? = some ⟨d, .executing input attempts, calls⟩)
      (hbuild : processExecutionInput cfg env input d = (d', tx)) :
      ServiceCase cfg s (.attempt i env)
        (s.update i ⟨d', .ofAttempt cfg input (attempts + 1) tx, bumpCalls calls⟩)
  /-- A built transaction is sent. -/
  | sent (i : ℕ) (env : FailureEnv) (d : CopyDetails) (tx : BuiltTransaction)
      (calls : List ℕ) (hi : s.jobs[i]? = some ⟨d, .built tx, calls⟩) :
      ServiceCase cfg s (.output i true env)
        { s.insertPending cfg i d s.nextTxnId calls with nextTxnId := s.nextTxnId + 1 }
  /-- A built transaction cannot be sent. -/
  | unsent (i : ℕ) (env : FailureEnv) (d : CopyDetails) (tx : BuiltTransaction)
      (calls : List ℕ) (hi : s.jobs[i]? = some ⟨d, .built tx, calls⟩) :
      ServiceCase cfg s (.output i false env) (s.update i ⟨d, .done .sendFailed, calls⟩)
  /-- A failed execution is given up. -/
  | failed (i : ℕ) (sent : Bool) (env : FailureEnv) (d : CopyDetails) (calls : List ℕ)
      (hi : s.jobs[i]? = some ⟨d, .failed, calls⟩) :
      ServiceCase cfg s (.output i sent env) (s.giveUp i env d calls)
  /-- A transaction is executed once more, or finds the queue full. -/
  | requeued (i : ℕ) (response : ConfirmTransactionResponse) (env : ConfirmEnv)
      (d d' : CopyDetails) (txnId : TransactionId) (insertedAt : ℕ) (calls : List ℕ)
      (hi : s.jobs[i]? = some ⟨d, .pending txnId insertedAt, calls⟩)
      (hconfirm : handleConfirmation cfg d response = .execute d') :
      ServiceCase cfg s (.confirm i response env)
        (s.update i (Job.enqueue (s.hasRoom cfg) d' calls))
  /-- The same bytes are sent again. -/
  | resent (i : ℕ) (response : ConfirmTransactionResponse) (env : ConfirmEnv)
      (d d' : CopyDetails) (tx : List UInt8) (txnId : TransactionId) (insertedAt : ℕ)
      (calls : List ℕ) (hi : s.jobs[i]? = some ⟨d, .pending txnId insertedAt, calls⟩)
      (hconfirm : handleConfirmation cfg d response = .resend d' tx) :
      ServiceCase cfg s (.confirm i response env)
        (if env.resent then
          (s.update i ⟨d', .done .sendFailed, calls⟩).insertPending cfg i d' txnId calls
        else s.update i ⟨d', .done .sendFailed, calls⟩)
  /-- A transaction is given up. -/
  | gaveUp (i : ℕ) (response : ConfirmTransactionResponse) (env : ConfirmEnv)
      (d d' : CopyDetails) (txnId : TransactionId) (insertedAt : ℕ) (calls : List ℕ)
      (hi : s.jobs[i]? = some ⟨d, .pending txnId insertedAt, calls⟩)
      (hconfirm : handleConfirmation cfg d response = .failed d') :
      ServiceCase cfg s (.confirm i response env) (s.giveUp i env.failure d' calls)
  /-- Recording a confirmed transaction panics. -/
  | crashed (i : ℕ) (response : ConfirmTransactionResponse) (env : ConfirmEnv)
      (d d' : CopyDetails) (txnId : TransactionId) (insertedAt : ℕ) (calls : List ℕ)
      (hi : s.jobs[i]? = some ⟨d, .pending txnId insertedAt, calls⟩)
      (hconfirm : handleConfirmation cfg d response = .success d')
      (hrecord : handleSuccessTxn cfg env.success s.shared d' env.signature = none) :
      ServiceCase cfg s (.confirm i response env) { s with crashed := true }
  /-- A confirmed transaction is recorded. -/
  | confirmed (i : ℕ) (response : ConfirmTransactionResponse) (env : ConfirmEnv)
      (d d' : CopyDetails) (txnId : TransactionId) (insertedAt : ℕ) (calls : List ℕ)
      (shared : Shared) (trades : List CopyTrade)
      (hi : s.jobs[i]? = some ⟨d, .pending txnId insertedAt, calls⟩)
      (hconfirm : handleConfirmation cfg d response = .success d')
      (hrecord : handleSuccessTxn cfg env.success s.shared d' env.signature =
        some (shared, trades)) :
      ServiceCase cfg s (.confirm i response env)
        { s with
          shared
          jobs := s.jobs.set i ⟨d', .done .confirmed, calls⟩
          trades := s.trades ++ trades }
  /-- The main task panics before it changes anything. -/
  | panicked : ServiceCase cfg s .panics { s with crashed := true }

/-- Every step of the service is one of these. -/
theorem Service.step_cases (cfg : CopyConfig) (s : Service) (e : ServiceEvent) :
    ServiceCase cfg s e (s.step cfg e) := by
  cases e with
  | wireTxn t => exact .delivered t
  | recv i =>
    simp only [step, recv]
    split
    · rename_i d calls hi
      exact .received i d calls hi
    · exact .idle _
  | input i env =>
    simp only [step, Service.input]
    split
    · rename_i d calls hi
      exact .derived i env d _ calls _ _ hi rfl
    · exact .idle _
  | attempt i env =>
    simp only [step, Service.attempt]
    split
    · rename_i d input attempts calls hi
      exact .attempted i env d _ input attempts calls _ hi rfl
    · exact .idle _
  | output i sent env =>
    simp only [step, Service.output]
    split
    · exact .idle _
    · split
      · rename_i d tx calls hi
        cases sent with
        | true => exact .sent i env d tx calls hi
        | false => exact .unsent i env d tx calls hi
      · rename_i d calls hi
        exact .failed i sent env d calls hi
      · exact .idle _
  | confirm i response env =>
    simp only [step, Service.confirm]
    split
    · exact .idle _
    · split
      · rename_i d txnId insertedAt calls hi
        split
        · rename_i d' hconfirm
          exact .requeued i response env d d' txnId insertedAt calls hi hconfirm
        · rename_i d' tx hconfirm
          exact .resent i response env d d' tx txnId insertedAt calls hi hconfirm
        · rename_i d' hconfirm
          exact .gaveUp i response env d d' txnId insertedAt calls hi hconfirm
        · rename_i d' hconfirm
          split
          · rename_i hrecord
            exact .crashed i response env d d' txnId insertedAt calls hi hconfirm hrecord
          · rename_i shared trades hrecord
            exact .confirmed i response env d d' txnId insertedAt calls shared trades hi
              hconfirm hrecord
      · exact .idle _
  | panics => exact .panicked

/-! ## A step of the service, seen at one job -/

/-- What happens to one job. -/
inductive JobStep (cfg : CopyConfig) : Job → Job → Prop
  | received (d : CopyDetails) (calls : List ℕ) :
      JobStep cfg ⟨d, .queued, calls⟩ ⟨d, .spawned, calls⟩
  | derived (env : ExecEnv) (s : Shared) (d : CopyDetails) (calls : List ℕ) :
      JobStep cfg ⟨d, .spawned, calls⟩
        ⟨(getExecutionInput cfg env s d).2.1, .ofInput (getExecutionInput cfg env s d).2.2,
          calls⟩
  | attempted (env : BuildEnv) (d : CopyDetails) (input : SwapInput) (attempts : ℕ)
      (calls : List ℕ) :
      JobStep cfg ⟨d, .executing input attempts, calls⟩
        ⟨(processExecutionInput cfg env input d).1,
          .ofAttempt cfg input (attempts + 1) (processExecutionInput cfg env input d).2,
          bumpCalls calls⟩
  | sent (d : CopyDetails) (tx : BuiltTransaction) (txnId : TransactionId) (insertedAt : ℕ)
      (calls : List ℕ) :
      JobStep cfg ⟨d, .built tx, calls⟩ ⟨d, .pending txnId insertedAt, calls⟩
  | requeued (hasRoom : Bool) (response : ConfirmTransactionResponse) (d d' : CopyDetails)
      (txnId : TransactionId) (insertedAt : ℕ) (calls : List ℕ)
      (hconfirm : handleConfirmation cfg d response = .execute d') :
      JobStep cfg ⟨d, .pending txnId insertedAt, calls⟩ (Job.enqueue hasRoom d' calls)
  | resent (response : ConfirmTransactionResponse) (d d' : CopyDetails) (tx : List UInt8)
      (txnId : TransactionId) (insertedAt : ℕ) (stage : Stage) (calls : List ℕ)
      (hconfirm : handleConfirmation cfg d response = .resend d' tx) :
      JobStep cfg ⟨d, .pending txnId insertedAt, calls⟩ ⟨d', stage, calls⟩
  | left (d : CopyDetails) (stage : Stage) (exit : Exit) (calls : List ℕ) :
      JobStep cfg ⟨d, stage, calls⟩ ⟨d, .done exit, calls⟩

/-- A job that is given up or recorded keeps its details. -/
theorem handleConfirmation_failed {cfg : CopyConfig} {d d' : CopyDetails}
    {response : ConfirmTransactionResponse}
    (h : handleConfirmation cfg d response = .failed d') : d' = d := by
  unfold handleConfirmation at h
  split at h
  · split at h
    · cases h
    · exact (Disposition.failed.inj h).symm
  · cases h
  · split at h
    · split at h <;> cases h
    · exact (Disposition.failed.inj h).symm

theorem handleConfirmation_success {cfg : CopyConfig} {d d' : CopyDetails}
    {response : ConfirmTransactionResponse}
    (h : handleConfirmation cfg d response = .success d') : d' = d := by
  unfold handleConfirmation at h
  split at h
  · split at h <;> cases h
  · exact (Disposition.success.inj h).symm
  · split at h
    · split at h <;> cases h
    · cases h

namespace Service

/-- What happens to the jobs when one of them is put in its place. -/
theorem forall_update {P : Job → Prop} {s : Service} {i : ℕ} {j : Job}
    (h : ∀ k ∈ s.jobs, P k) (hj : P j) : ∀ k ∈ s.jobs.set i j, P k := by
  intro k hk
  rcases List.mem_or_eq_of_mem_set hk with hm | rfl
  · exact h k hm
  · exact hj

/-- Shedding lets some of the jobs leave. -/
theorem forall_shedJobs {P : Job → Prop} {cfg : CopyConfig} {s : Service}
    (hleft : ∀ d stage exit calls, P ⟨d, stage, calls⟩ → P ⟨d, .done exit, calls⟩)
    (h : ∀ j ∈ s.jobs, P j) : ∀ j ∈ s.shedJobs cfg, P j := by
  unfold shedJobs
  split
  · intro j' hj'
    obtain ⟨j, hj, rfl⟩ := List.mem_map.mp hj'
    unfold shedJob
    split
    · split
      · exact hleft _ _ _ _ (h j hj)
      · exact h j hj
    · exact h j hj
  · exact h

/-- A property of jobs that new jobs have and that every step of a job preserves holds of
all jobs of the service, whatever its tasks do. -/
theorem forall_jobs_step {P : Job → Prop} {cfg : CopyConfig}
    (hnew : ∀ hasRoom t, P (Job.enqueue hasRoom (OriginTrade.details cfg t) []))
    (hstep : ∀ j j', P j → JobStep cfg j j' → P j') {s : Service} (e : ServiceEvent)
    (h : ∀ j ∈ s.jobs, P j) : ∀ j ∈ (s.step cfg e).jobs, P j := by
  have hget : ∀ {i : ℕ} {j : Job}, s.jobs[i]? = some j → P j :=
    fun hi => h _ (List.mem_of_getElem? hi)
  have hleft : ∀ d stage exit calls, P ⟨d, stage, calls⟩ → P ⟨d, .done exit, calls⟩ :=
    fun d stage exit calls hj => hstep _ _ hj (.left d stage exit calls)
  have hcase := s.step_cases cfg e
  generalize s.step cfg e = s' at hcase
  cases hcase with
  | idle => exact h
  | delivered t =>
    intro j hj
    rcases List.mem_append.mp hj with hm | hm
    · exact h j hm
    · obtain rfl := List.mem_singleton.mp hm
      exact hnew _ t
  | received i d calls hi => exact forall_update h (hstep _ _ (hget hi) (.received d calls))
  | derived i env d d' calls shared result hi hgetInput =>
    have hj := hstep _ _ (hget hi) (.derived env s.shared d calls)
    rw [hgetInput] at hj
    exact forall_update h hj
  | attempted i env d d' input attempts calls tx hi hbuild =>
    have hj := hstep _ _ (hget hi) (.attempted env d input attempts calls)
    rw [hbuild] at hj
    exact forall_update h hj
  | sent i env d tx calls hi =>
    intro j hj
    rcases List.mem_or_eq_of_mem_set hj with hm | rfl
    · exact forall_shedJobs hleft h j hm
    · exact hstep _ _ (hget hi) (.sent d tx _ _ calls)
  | unsent i env d tx calls hi => exact forall_update h (hstep _ _ (hget hi) (.left _ _ _ _))
  | failed i sent env d calls hi =>
    exact forall_update h (hstep _ _ (hget hi) (.left _ _ _ _))
  | requeued i response env d d' txnId insertedAt calls hi hconfirm =>
    exact forall_update h (hstep _ _ (hget hi) (.requeued _ response d d' _ _ calls hconfirm))
  | resent i response env d d' tx txnId insertedAt calls hi hconfirm =>
    have hj := fun stage =>
      hstep _ _ (hget hi) (.resent response d d' tx _ _ stage calls hconfirm)
    split
    · intro k hk
      rcases List.mem_or_eq_of_mem_set hk with hm | rfl
      · exact forall_shedJobs hleft (forall_update h (hj _)) k hm
      · exact hj _
    · exact forall_update h (hj _)
  | gaveUp i response env d d' txnId insertedAt calls hi hconfirm =>
    rw [handleConfirmation_failed hconfirm]
    exact forall_update h (hstep _ _ (hget hi) (.left _ _ _ _))
  | crashed i response env d d' txnId insertedAt calls hi hconfirm hrecord => exact h
  | panicked => exact h
  | confirmed i response env d d' txnId insertedAt calls shared trades hi hconfirm hrecord =>
    rw [handleConfirmation_success hconfirm]
    exact forall_update h (hstep _ _ (hget hi) (.left _ _ _ _))

/-- The same along a whole run. -/
theorem forall_jobs_run {P : Job → Prop} {cfg : CopyConfig}
    (hnew : ∀ hasRoom t, P (Job.enqueue hasRoom (OriginTrade.details cfg t) []))
    (hstep : ∀ j j', P j → JobStep cfg j j' → P j') (shared : Shared)
    (events : List ServiceEvent) :
    ∀ j ∈ (exec (Service.step cfg) (init shared) events).jobs, P j :=
  exec_preserves (I := fun s : Service => ∀ j ∈ s.jobs, P j)
    (fun _ e h => forall_jobs_step hnew hstep e h) events (fun _ hj => by cases hj)

end Service

/-- One trade goes through the pipeline of the sample service and is confirmed. -/
def sampleTrip (i : ℕ) (t : OriginTrade) (amountOut : ℕ) : List ServiceEvent :=
  [.wireTxn t, .recv i, .input i sampleEnv, .attempt i sampleBuild, .output i true sampleFailure,
    .confirm i (.confirmed none 0) ⟨sampleSuccess amountOut, sampleFailure, 1, true⟩]

/-- The transaction of a trade runs out of time, and is built once more. -/
def sampleRetry : List ServiceEvent :=
  [.wireTxn (sampleBuyTrade 100), .recv 0, .input 0 sampleEnv, .attempt 0 sampleBuild,
    .output 0 true sampleFailure,
    .confirm 0 (.unconfirmed .timedOut) ⟨sampleSuccess 0, sampleFailure, 1, true⟩, .recv 0,
    .input 0 sampleEnv, .attempt 0 sampleBuild]

/-- The sample service after the wallet and we have bought. -/
def sampleHolding (originAmount amount : ℕ) : Service :=
  exec (Service.step sampleConfig) (Service.init ⟨.empty, none, false⟩)
    (sampleTrip 0 (sampleBuyTrade originAmount) amount)

end Biscuit.Copy
