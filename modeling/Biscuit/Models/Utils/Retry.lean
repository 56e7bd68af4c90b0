import Biscuit.Core.Checked

/-!
# Tasks that are tried again

The retry helpers call a task until it succeeds or has failed too often, and sleep in between. The
number of attempts is compared before it is counted up, so that two more calls are made than the
limit says; the backoff doubles its delay without an upper bound.
-/

namespace Biscuit.Utils

variable {ε α : Type}

/-- What a spawned task has done when it ends. -/
structure TaskRun (α : Type) where
  /-- How often `task_fn` was called. -/
  calls : ℕ
  /-- The milliseconds that were slept after the calls. -/
  delays : List ℕ
  result : Outcome String α
  deriving DecidableEq

/-- The loop of the helpers, for a task that answers each call in its own way; no run means that the
fuel runs out. -/
def retryLoop (build : Build) (delay : ℕ → Outcome String ℕ) (taskFn : ℕ → Except ε α)
    (display : ε → String) (maxAttempts : ℕ) : ℕ → ℕ → ℕ → List ℕ → Option (TaskRun α)
  | 0, _, _, _ => none
  | fuel + 1, calls, attempts, delays =>
    match taskFn calls with
    | .ok ret => some ⟨calls + 1, delays, .ok ret⟩
    | .error e =>
      if attempts > maxAttempts then some ⟨calls + 1, delays, .err (display e)⟩
      else
        match delay attempts, (build.add 64 attempts 1 : Outcome String ℕ) with
        | .ok ms, .ok attempts =>
          retryLoop build delay taskFn display maxAttempts fuel (calls + 1) attempts
            (delays ++ [ms])
        | .ok ms, _ => some ⟨calls + 1, delays ++ [ms], .panic⟩
        | _, _ => some ⟨calls + 1, delays, .panic⟩

/-- `spawn_retry_task` -/
def spawnRetryTask (build : Build) (taskFn : ℕ → Except ε α) (display : ε → String)
    (maxAttempts delayMs fuel : ℕ) : Option (TaskRun α) :=
  retryLoop build (fun _ => .ok delayMs) taskFn display maxAttempts fuel 0 0 []

/-- `2_u64.pow(attempts as u32) * delay_ms` -/
def backoffDelay (build : Build) (delayMs attempts : ℕ) : Outcome String ℕ := do
  let factor ← build.pow 64 2 (attempts % 2 ^ 32)
  build.mul 64 factor delayMs

/-- `spawn_retry_task_with_exponential_backoff` -/
def spawnRetryTaskWithExponentialBackoff (build : Build) (taskFn : ℕ → Except ε α)
    (display : ε → String) (maxAttempts delayMs fuel : ℕ) : Option (TaskRun α) :=
  retryLoop build (backoffDelay build delayMs) taskFn display maxAttempts fuel 0 0 []

/-! ## The limit -/

/-- The first calls have all failed. -/
def FailsBefore (taskFn : ℕ → Except ε α) (n : ℕ) : Prop := ∀ i < n, ∃ e, taskFn i = .error e

/-- What a task with so many calls is to return: the first success, or else the last error. -/
def IsResult (taskFn : ℕ → Except ε α) (display : ε → String) (calls : ℕ) :
    Outcome String α → Prop
  | .ok ret => ∃ n, calls = n + 1 ∧ FailsBefore taskFn n ∧ taskFn n = .ok ret
  | .err message => ∃ n e, calls = n + 1 ∧ FailsBefore taskFn n ∧ taskFn n = .error e ∧
      message = display e
  | .panic => False

/-- Delays with a bound on how far they can be computed. -/
structure Delays where
  /-- The delay after a failed attempt. -/
  ms : ℕ → ℕ
  /-- Nothing overflows in its computation. -/
  Fits : ℕ → Prop

/-- A run makes no more calls than it may, returns what it is to return, and computes the delays
between its calls without an overflow. -/
structure RespectsLimit (taskFn : ℕ → Except ε α) (display : ε → String) (maxAttempts : ℕ)
    (expected : Delays) (run : TaskRun α) : Prop where
  calls_le : run.calls ≤ maxAttempts
  result : IsResult taskFn display run.calls run.result
  delays : run.delays = (List.range (run.calls - 1)).map expected.ms
  fits : ∀ i < run.calls - 1, expected.Fits i

/-- The task succeeds before it has used up its attempts, and the delays until then can be
computed. -/
def SucceedsWithin (taskFn : ℕ → Except ε α) (maxAttempts : ℕ) (expected : Delays) : Prop :=
  ∃ n < maxAttempts, FailsBefore taskFn n ∧ (∃ ret, taskFn n = .ok ret) ∧
    ∀ i < n, expected.Fits i

section

variable {build : Build} {delay : ℕ → Outcome String ℕ} {taskFn : ℕ → Except ε α}
  {display : ε → String} {maxAttempts : ℕ} {expected : Delays}

/-- The loop goes on after as many failures as the limit and one more. -/
theorem retryLoop_failsBefore (hdelay : ∀ i, expected.Fits i → delay i = .ok (expected.ms i))
    {n : ℕ} (hn : n ≤ maxAttempts + 1) (hword : n < 2 ^ 64) (hfails : FailsBefore taskFn n)
    (hfits : ∀ i < n, expected.Fits i) (fuel : ℕ) :
    retryLoop build delay taskFn display maxAttempts (fuel + n) 0 0 [] =
      retryLoop build delay taskFn display maxAttempts fuel n n
        ((List.range n).map expected.ms) := by
  induction n generalizing fuel with
  | zero => rfl
  | succ n ih =>
    obtain ⟨e, he⟩ := hfails n (Nat.lt_succ_self n)
    have hprevious := ih (Nat.le_of_succ_le hn) (by omega)
      (fun i hi => hfails i (Nat.lt_succ_of_lt hi)) (fun i hi => hfits i (Nat.lt_succ_of_lt hi))
      (fuel + 1)
    rw [Nat.add_comm n 1, ← Nat.add_assoc, hprevious, retryLoop, he]
    dsimp only
    rw [if_neg (by omega), hdelay n (hfits n (Nat.lt_succ_self n)),
      Build.add_ok build hword, Nat.add_comm 1 n, List.range_succ, List.map_append]
    rfl

/-- A failure is returned only after more calls than the limit. -/
theorem lt_calls_of_err {fuel calls attempts : ℕ} {delays : List ℕ} {run : TaskRun α}
    {message : String} (hattempts : attempts ≤ calls)
    (h : retryLoop build delay taskFn display maxAttempts fuel calls attempts delays = some run)
    (herr : run.result = .err message) : maxAttempts < run.calls := by
  induction fuel generalizing calls attempts delays with
  | zero => cases h
  | succ fuel ih =>
    rw [retryLoop] at h
    cases htask : taskFn calls with
    | ok ret =>
      rw [htask] at h
      cases h
      cases herr
    | error e =>
      rw [htask] at h
      dsimp only at h
      split_ifs at h with hlimit
      · cases h
        exact Nat.lt_succ_of_lt (hlimit.trans_le hattempts)
      · cases hms : delay attempts with
        | err error =>
          rw [hms] at h
          cases h
          cases herr
        | panic =>
          rw [hms] at h
          cases h
          cases herr
        | ok ms =>
          cases hnext : (build.add 64 attempts 1 : Outcome String ℕ) with
          | err error =>
            rw [hms, hnext] at h
            cases h
            cases herr
          | panic =>
            rw [hms, hnext] at h
            cases h
            cases herr
          | ok next =>
            rw [hms, hnext] at h
            have hle : next ≤ attempts + 1 := (Build.bounds_of_word_eq_ok hnext).1
            exact ih (hle.trans (Nat.succ_le_succ hattempts)) h

/-- A run respects its limit exactly when the task succeeds within it. -/
theorem retryLoop_respectsLimit_iff
    (hdelay : ∀ i, expected.Fits i → delay i = .ok (expected.ms i))
    (hword : maxAttempts < 2 ^ 64) {fuel : ℕ} (hfuel : maxAttempts ≤ fuel) :
    (∃ run, retryLoop build delay taskFn display maxAttempts fuel 0 0 [] = some run ∧
        RespectsLimit taskFn display maxAttempts expected run) ↔
      SucceedsWithin taskFn maxAttempts expected := by
  constructor
  · rintro ⟨run, hrun, hcalls, hresult, -, hfits⟩
    cases houtcome : run.result with
    | ok ret =>
      rw [houtcome] at hresult
      obtain ⟨n, hn, hfails, hret⟩ := hresult
      rw [hn] at hcalls hfits
      exact ⟨n, hcalls, hfails, ⟨ret, hret⟩, hfits⟩
    | err message => exact absurd (lt_calls_of_err le_rfl hrun houtcome) (not_lt.mpr hcalls)
    | panic =>
      rw [houtcome] at hresult
      exact hresult.elim
  · rintro ⟨n, hn, hfails, ⟨ret, hret⟩, hfits⟩
    obtain ⟨rest, rfl⟩ : ∃ rest, fuel = rest + 1 + n := ⟨fuel - 1 - n, by omega⟩
    refine ⟨⟨n + 1, (List.range n).map expected.ms, .ok ret⟩, ?_, hn, ?_, rfl, hfits⟩
    · rw [retryLoop_failsBefore hdelay (by omega) (by omega) hfails hfits, retryLoop, hret]
    · exact ⟨n, rfl, hfails, hret⟩

/-- A task that never succeeds is called twice more than the limit says. -/
theorem retryLoop_of_failing (hdelay : ∀ i, expected.Fits i → delay i = .ok (expected.ms i))
    (hword : maxAttempts + 1 < 2 ^ 64) (hfails : FailsBefore taskFn (maxAttempts + 2))
    (hfits : ∀ i < maxAttempts + 1, expected.Fits i) (fuel : ℕ) :
    ∃ run e, retryLoop build delay taskFn display maxAttempts (fuel + (maxAttempts + 2)) 0 0 [] =
        some run ∧ run.calls = maxAttempts + 2 ∧ taskFn (maxAttempts + 1) = .error e ∧
      run.result = .err (display e) := by
  obtain ⟨e, he⟩ := hfails (maxAttempts + 1) (Nat.lt_succ_self _)
  have hbefore : FailsBefore taskFn (maxAttempts + 1) :=
    fun i hi => hfails i (Nat.lt_succ_of_lt hi)
  refine ⟨⟨maxAttempts + 2, (List.range (maxAttempts + 1)).map expected.ms, .err (display e)⟩, e,
    ?_, rfl, he, rfl⟩
  have hsplit : fuel + (maxAttempts + 2) = fuel + 1 + (maxAttempts + 1) := by omega
  rw [hsplit, retryLoop_failsBefore hdelay le_rfl hword hbefore hfits, retryLoop, he]
  dsimp only
  rw [if_pos (Nat.lt_succ_self _)]

end

/-! ## The two helpers -/

/-- The same delay after every attempt. -/
def steadyDelays (delayMs : ℕ) : Delays := ⟨fun _ => delayMs, fun _ => True⟩

/-- A delay that doubles with every attempt. -/
def doublingDelays (delayMs : ℕ) : Delays :=
  ⟨fun i => 2 ^ i * delayMs, fun i => 2 ^ i < 2 ^ 64 ∧ 2 ^ i * delayMs < 2 ^ 64⟩

theorem backoffDelay_eq_ok (build : Build) {delayMs i : ℕ} (h : (doublingDelays delayMs).Fits i) :
    backoffDelay build delayMs i = .ok ((doublingDelays delayMs).ms i) := by
  obtain ⟨hpow, hmul⟩ := h
  have hlt : i < 64 := (Nat.pow_lt_pow_iff_right (by decide)).mp hpow
  have hcast : i % 2 ^ 32 = i := Nat.mod_eq_of_lt (by omega)
  rw [backoffDelay, hcast, Build.pow_ok build hpow, Outcome.ok_bind, Build.mul_ok build hmul]
  rfl

/-- A helper respects its limit exactly when the task succeeds within it; the one with the backoff
also needs delays that can be computed until then. -/
theorem retryTasks_respectLimit_iff (build : Build) (taskFn : ℕ → Except ε α)
    (display : ε → String) (maxAttempts delayMs : ℕ) (hword : maxAttempts < 2 ^ 64) (fuel : ℕ)
    (hfuel : maxAttempts ≤ fuel) :
    ((∃ run, spawnRetryTask build taskFn display maxAttempts delayMs fuel = some run ∧
        RespectsLimit taskFn display maxAttempts (steadyDelays delayMs) run) ↔
      SucceedsWithin taskFn maxAttempts (steadyDelays delayMs)) ∧
    ((∃ run, spawnRetryTaskWithExponentialBackoff build taskFn display maxAttempts delayMs fuel =
          some run ∧
        RespectsLimit taskFn display maxAttempts (doublingDelays delayMs) run) ↔
      SucceedsWithin taskFn maxAttempts (doublingDelays delayMs)) := by
  have hsteady : ∀ i, (steadyDelays delayMs).Fits i →
      (Outcome.ok delayMs : Outcome String ℕ) = .ok ((steadyDelays delayMs).ms i) :=
    fun _ _ => rfl
  have hdoubling : ∀ i, (doublingDelays delayMs).Fits i →
      backoffDelay build delayMs i = .ok ((doublingDelays delayMs).ms i) :=
    fun _ hfits => backoffDelay_eq_ok build hfits
  exact ⟨retryLoop_respectsLimit_iff hsteady hword hfuel,
    retryLoop_respectsLimit_iff hdoubling hword hfuel⟩

/-- A task that succeeds at its second call. -/
def secondTry (call : ℕ) : Except String ℕ := if call = 1 then .ok 7 else .error "busy"

theorem retryTasks_respectLimit_secondTry :
    (∃ run, spawnRetryTask .checked secondTry id 3 1000 5 = some run ∧
        RespectsLimit secondTry id 3 (steadyDelays 1000) run) ∧
      ∃ run, spawnRetryTaskWithExponentialBackoff .checked secondTry id 3 1000 5 = some run ∧
        RespectsLimit secondTry id 3 (doublingDelays 1000) run := by
  have hfails : FailsBefore secondTry 1 := by
    intro i hi
    rw [Nat.lt_one_iff.mp hi]
    exact ⟨"busy", rfl⟩
  obtain ⟨hsteady, hdoubling⟩ := retryTasks_respectLimit_iff .checked secondTry id 3 1000
    (by decide) 5 (by decide)
  refine ⟨hsteady.mpr ⟨1, by decide, hfails, ⟨7, rfl⟩, fun _ _ => trivial⟩,
    hdoubling.mpr ⟨1, by decide, hfails, ⟨7, rfl⟩, ?_⟩⟩
  intro i hi
  rw [Nat.lt_one_iff.mp hi]
  exact ⟨by decide, by decide⟩

/-- With a limit of one attempt, a task that fails is called three times. -/
theorem spawnRetryTask_neverSucceeds :
    ¬ ∀ (build : Build) (taskFn : ℕ → Except String ℕ) (maxAttempts delayMs fuel : ℕ),
      1 ≤ maxAttempts → maxAttempts < 2 ^ 64 → maxAttempts ≤ fuel →
      ∃ run, spawnRetryTask build taskFn id maxAttempts delayMs fuel = some run ∧
        RespectsLimit taskFn id maxAttempts (steadyDelays delayMs) run := by
  intro h
  obtain ⟨run, hrun, hrespects⟩ := h .checked (fun _ => .error "busy") 1 1000 5 (by decide)
    (by decide) (by decide)
  have hthree : spawnRetryTask .checked (fun _ => .error "busy" : ℕ → Except String ℕ) id 1 1000 5 =
      some ⟨3, [1000, 1000], .err "busy"⟩ := by decide +kernel
  rw [hthree] at hrun
  obtain rfl := Option.some.inj hrun
  exact absurd hrespects.calls_le (by decide)

end Biscuit.Utils
