import Biscuit.Models.Copy.Service

/-!
# The budget of a copied transaction

How often a delivered transaction is executed, how often each execution asks for a quote,
and what its transactions pay. A confirmed error starts the count of unconfirmed attempts
anew, so the two counters are compared in lexicographic order.
-/

namespace Biscuit.Copy

/-- The largest number of executions of one delivery. -/
def CopyConfig.maxExecutions (cfg : CopyConfig) : ℕ :=
  (cfg.confirmedErrorRetries + 1) * (cfg.sendTxnRetries + 1)

/-- The largest number of calls of `process_execution_input` in one execution. -/
def CopyConfig.maxCalls (cfg : CopyConfig) : ℕ := max 1 cfg.executionRetries

/-- `max_fee_cost` of the simulator, computed in words. -/
def CopyConfig.maxFeeCost (cfg : CopyConfig) : ℕ :=
  wrapU64 (cfg.maxFeeLamports + wrapU64 (cfg.sendTxnRetries * cfg.feeIncreaseMultiplier))

/-- The position of the counters in their order. -/
def CopyDetails.rank (cfg : CopyConfig) (d : CopyDetails) : ℕ :=
  d.confirmedErrorRetries * (cfg.sendTxnRetries + 1) + d.sendTxnRetries

/-- The counters are within the configuration, and the fee is within its bound. -/
structure WithinConfig (cfg : CopyConfig) (d : CopyDetails) : Prop where
  strategy : d.retryStrategy = .buildTransaction
  send : d.sendTxnRetries ≤ cfg.sendTxnRetries
  error : d.confirmedErrorRetries ≤ cfg.confirmedErrorRetries
  fee : d.lastFeeLamports ≤
    cfg.maxFeeLamports + cfg.sendTxnRetries * cfg.feeIncreaseMultiplier

/-- The calls of the newest execution, by the stage of the job. -/
def Stage.Counts (cfg : CopyConfig) (calls : List ℕ) : Stage → Prop
  | .queued | .spawned => ∃ rest, calls = 0 :: rest
  | .executing _ attempts =>
    ∃ rest, calls = attempts :: rest ∧ (attempts = 0 ∨ attempts < cfg.executionRetries)
  | _ => True

/-- A job has spent no more than its budget. -/
structure Job.WithinBudget (cfg : CopyConfig) (j : Job) : Prop where
  details : WithinConfig cfg j.details
  executions : j.calls.length ≤ j.details.rank cfg + 1
  calls : ∀ n ∈ j.calls, n ≤ cfg.maxCalls
  newest : j.stage.Counts cfg j.calls

/-- The counters never rank above the last execution. -/
theorem WithinConfig.rank_lt {cfg : CopyConfig} {d : CopyDetails} (h : WithinConfig cfg d) :
    d.rank cfg + 1 ≤ cfg.maxExecutions := by
  have hmul := Nat.mul_le_mul_right (cfg.sendTxnRetries + 1) h.error
  have hsend := h.send
  unfold CopyDetails.rank CopyConfig.maxExecutions
  rw [Nat.succ_mul]
  omega

/-- The fee of an attempt is within its bound; wrapping only makes it smaller. -/
theorem attemptFee_le {cfg : CopyConfig} (tipP95 : ℕ) {retries : ℕ}
    (h : retries ≤ cfg.sendTxnRetries) :
    attemptFee cfg tipP95 retries ≤
      cfg.maxFeeLamports + cfg.sendTxnRetries * cfg.feeIncreaseMultiplier := by
  have hmul := Nat.mul_le_mul_right cfg.feeIncreaseMultiplier h
  have hbase : baseFee cfg tipP95 ≤ cfg.maxFeeLamports := min_le_left _ _
  have hwrap := wrapU64_le (retries * cfg.feeIncreaseMultiplier)
  refine (wrapU64_le _).trans ?_
  omega

/-- Building a transaction keeps the counters and bounds the fee. -/
theorem processExecutionInput_within {cfg : CopyConfig} (env : BuildEnv) (input : SwapInput)
    {d : CopyDetails} (h : WithinConfig cfg d) :
    WithinConfig cfg (processExecutionInput cfg env input d).1 ∧
      (processExecutionInput cfg env input d).1.rank cfg = d.rank cfg := by
  have hfee := attemptFee_le env.tipP95 h.send
  unfold processExecutionInput
  cases env.quote with
  | none => exact ⟨h, rfl⟩
  | some q =>
    cases env.transaction with
    | none => exact ⟨⟨h.strategy, h.send, h.error, hfee⟩, rfl⟩
    | some computeUnitLimit => exact ⟨⟨h.strategy, h.send, h.error, hfee⟩, rfl⟩

/-- Deriving an order keeps the counters and the fee. -/
theorem getExecutionInput_within {cfg : CopyConfig} (env : ExecEnv) (s : Shared)
    {d : CopyDetails} (h : WithinConfig cfg d) :
    WithinConfig cfg (getExecutionInput cfg env s d).2.1 ∧
      (getExecutionInput cfg env s d).2.1.rank cfg = d.rank cfg := by
  obtain ⟨decimals, copyType, hd⟩ := getExecutionInput_details cfg env s d
  rw [hd]
  exact ⟨⟨h.strategy, h.send, h.error, h.fee⟩, rfl⟩

/-- Every execution that a confirmation asks for moves the counters up in their order. -/
theorem handleConfirmation_within {cfg : CopyConfig} {d d' : CopyDetails}
    {response : ConfirmTransactionResponse} (h : WithinConfig cfg d)
    (hconfirm : handleConfirmation cfg d response = .execute d') :
    WithinConfig cfg d' ∧ d.rank cfg < d'.rank cfg := by
  have hsend := h.send
  unfold handleConfirmation at hconfirm
  split at hconfirm
  · split at hconfirm
    · rename_i hlt
      obtain rfl := Disposition.execute.inj hconfirm
      refine ⟨⟨h.strategy, Nat.zero_le _, hlt, h.fee⟩, ?_⟩
      simp only [CopyDetails.rank, CopyDetails.retryError, Nat.succ_mul]
      omega
    · cases hconfirm
  · cases hconfirm
  · split at hconfirm
    · rename_i hlt
      split at hconfirm
      · obtain rfl := Disposition.execute.inj hconfirm
        refine ⟨⟨h.strategy, hlt, h.error, h.fee⟩, ?_⟩
        simp only [CopyDetails.rank, CopyDetails.retryUnconfirmed]
        omega
      · cases hconfirm
    · cases hconfirm

/-- The same bytes are never sent again: no job has that strategy. -/
theorem not_resend {cfg : CopyConfig} {d d' : CopyDetails} {tx : List UInt8}
    {response : ConfirmTransactionResponse} (h : WithinConfig cfg d) :
    handleConfirmation cfg d response ≠ .resend d' tx := by
  intro hconfirm
  unfold handleConfirmation at hconfirm
  split at hconfirm
  · split at hconfirm <;> cases hconfirm
  · cases hconfirm
  · split at hconfirm
    · split at hconfirm
      · cases hconfirm
      · rename_i hraw
        exact absurd (h.strategy.symm.trans hraw) nofun
    · cases hconfirm

/-- A job that is put into the queue, or finds it full, stays within its budget. -/
theorem Job.enqueue_withinBudget {cfg : CopyConfig} {hasRoom : Bool} {d : CopyDetails}
    {calls : List ℕ} (hd : WithinConfig cfg d) (hlen : calls.length ≤ d.rank cfg)
    (hcalls : ∀ n ∈ calls, n ≤ cfg.maxCalls) :
    (Job.enqueue hasRoom d calls).WithinBudget cfg := by
  cases hasRoom with
  | false => exact ⟨hd, Nat.le_succ_of_le hlen, hcalls, trivial⟩
  | true =>
    refine ⟨hd, Nat.succ_le_succ hlen, fun n hn => ?_, ⟨calls, rfl⟩⟩
    rcases List.mem_cons.mp hn with rfl | hm
    · exact Nat.zero_le _
    · exact hcalls n hm

/-- Every step of a job stays within its budget. -/
theorem Job.withinBudget_step {cfg : CopyConfig} (j j' : Job) (h : j.WithinBudget cfg)
    (hstep : JobStep cfg j j') : j'.WithinBudget cfg := by
  obtain ⟨hd, hlen, hcalls, hnewest⟩ := h
  cases hstep with
  | received d calls => exact ⟨hd, hlen, hcalls, hnewest⟩
  | derived env s d calls =>
    obtain ⟨hd', hrank⟩ := getExecutionInput_within env s hd
    refine ⟨hd', hrank ▸ hlen, hcalls, ?_⟩
    obtain ⟨rest, hrest⟩ := hnewest
    cases (getExecutionInput cfg env s d).2.2 with
    | error e => trivial
    | ok found =>
      cases found with
      | none => trivial
      | some input => exact ⟨rest, hrest, .inl rfl⟩
  | attempted env d input attempts calls =>
    obtain ⟨hd', hrank⟩ := processExecutionInput_within env input hd
    obtain ⟨rest, rfl, hattempts⟩ := hnewest
    have hbump : attempts + 1 ≤ cfg.maxCalls := by
      unfold CopyConfig.maxCalls
      omega
    refine ⟨hd', ?_, fun n hn => ?_, ?_⟩
    · rw [hrank]
      exact hlen
    · rcases List.mem_cons.mp hn with rfl | hm
      · exact hbump
      · exact hcalls n (List.mem_cons_of_mem _ hm)
    · cases (processExecutionInput cfg env input d).2 with
      | some tx => trivial
      | none =>
        simp only [Stage.ofAttempt]
        split
        · rename_i hlt
          exact ⟨rest, rfl, .inr hlt⟩
        · trivial
  | sent d tx txnId insertedAt calls => exact ⟨hd, hlen, hcalls, trivial⟩
  | requeued hasRoom response d d' txnId insertedAt calls hconfirm =>
    obtain ⟨hd', hrank⟩ := handleConfirmation_within hd hconfirm
    exact Job.enqueue_withinBudget hd' (hlen.trans hrank) hcalls
  | resent response d d' tx txnId insertedAt stage calls hconfirm =>
    exact absurd hconfirm (not_resend hd)
  | left d stage exit calls => exact ⟨hd, hlen, hcalls, trivial⟩

/-- A new job is within its budget. -/
theorem OriginTrade.withinBudget (cfg : CopyConfig) (hasRoom : Bool) (t : OriginTrade) :
    (Job.enqueue hasRoom (t.details cfg) []).WithinBudget cfg :=
  Job.enqueue_withinBudget ⟨rfl, Nat.zero_le _, Nat.zero_le _, Nat.zero_le _⟩ (Nat.zero_le _)
    (fun _ hn => nomatch hn)

/-- In every run of the service, whatever is confirmed and whatever fails: a delivered
transaction is executed a bounded number of times, every execution makes a bounded number
of calls, and its fee is at most what the simulator charges when that cost fits in a word. -/
theorem job_within_budget (cfg : CopyConfig) (shared : Shared) (events : List ServiceEvent) :
    ∀ j ∈ (exec (Service.step cfg) (Service.init shared) events).jobs,
      j.calls.length ≤ (cfg.confirmedErrorRetries + 1) * (cfg.sendTxnRetries + 1) ∧
      (∀ n ∈ j.calls, n ≤ max 1 cfg.executionRetries) ∧
      j.details.lastFeeLamports ≤
        cfg.maxFeeLamports + cfg.sendTxnRetries * cfg.feeIncreaseMultiplier ∧
      (cfg.maxFeeLamports + cfg.sendTxnRetries * cfg.feeIncreaseMultiplier < 2 ^ 64 →
        cfg.maxFeeCost =
          cfg.maxFeeLamports + cfg.sendTxnRetries * cfg.feeIncreaseMultiplier) := by
  intro j hj
  have hbudget := Service.forall_jobs_run (OriginTrade.withinBudget cfg)
    Job.withinBudget_step shared events j hj
  refine ⟨hbudget.executions.trans hbudget.details.rank_lt, hbudget.calls,
    hbudget.details.fee, fun hfits => ?_⟩
  unfold CopyConfig.maxFeeCost
  rw [wrapU64_eq (n := cfg.sendTxnRetries * cfg.feeIncreaseMultiplier) (by omega),
    wrapU64_eq hfits]

/-- An order that was executed twice. -/
theorem job_within_budget_sample :
    ∃ j ∈ (exec (Service.step sampleConfig) (Service.init ⟨.empty, none, false⟩) sampleRetry).jobs,
      j.details.sendTxnRetries = 1 ∧ j.calls = [1, 1] ∧
        j.calls.length ≤ (1 + 1) * (2 + 1) ∧ j.details.lastFeeLamports ≤ 1000 + 2 * 50 := by
  have hjob : ∃ j ∈ (exec (Service.step sampleConfig) (Service.init ⟨.empty, none, false⟩)
      sampleRetry).jobs, j.details.sendTxnRetries = 1 ∧ j.calls = [1, 1] := by
    decide +kernel
  obtain ⟨j, hj, hretried, hcalls⟩ := hjob
  obtain ⟨hlength, -, hfee, -⟩ :=
    job_within_budget sampleConfig ⟨.empty, none, false⟩ sampleRetry j hj
  exact ⟨j, hj, hretried, hcalls, hlength, hfee⟩

end Biscuit.Copy
