import Biscuit.Models.Copy.ChainTrades
import Biscuit.Models.Copy.SingleExecution

/-!
# From the stream to the chain

The intake between the stream and the copy service, and the copy service beside the sending
service, are one system: its runs are runs of the intake and runs of the copy service beside the
sending service. So a copy that is executed has come from a delivery, and each delivery leads to
one executed copy at most.
-/

namespace Biscuit.Copy

open Wire

/-! ## What a step does to the copy service -/

namespace CopySystem

/-- What a step of both services is to the copy service. -/
def copyEvent (s : CopySystem) : CopySystemEvent → Option ServiceEvent
  | .work e => if e.isLocal then some e else none
  | .output i signature env => some (.output i (signature.isSome && (s.toSend i).isSome) env)
  | .confirmation success failure =>
    if s.copy.crashed then none
    else
      match s.confirmations[s.taken]? with
      | none => none
      | some item => (s.pendingJob item.data.txnId).map fun i =>
          .confirm i item.response ⟨success, failure, item.data.signature, false⟩
  | .wire _ => none

theorem copy_step (cfg : CopyConfig) (s : CopySystem) (e : CopySystemEvent) :
    (s.step cfg e).copy = (s.copyEvent e).elim s.copy (s.copy.step cfg) := by
  cases e with
  | work e =>
    simp only [step, copyEvent]
    split <;> rfl
  | output i signature env =>
    cases signature with
    | none => rfl
    | some signature =>
      simp only [step, output, copyEvent]
      cases s.toSend i <;> rfl
  | confirmation success failure =>
    simp only [step, confirmation, copyEvent]
    cases s.copy.crashed with
    | true => rfl
    | false =>
      cases s.confirmations[s.taken]? with
      | none => rfl
      | some item =>
        dsimp only
        cases s.pendingJob item.data.txnId <;> rfl
  | wire e =>
    simp only [step, copyEvent]
    split <;> rfl

end CopySystem

/-! ## The whole system -/

/-- The intake, the copy service that it hands its trades to, and the sending service. -/
structure CopyBot where
  intake : Intake
  wire : SendTransactionService
  sendTxnsHandle : TransactionSourceId
  sent : List (ℕ × SendTransactionData)
  taken : ℕ

/-- One step of one task. -/
inductive CopyBotEvent
  /-- A step between the stream and the execution queue, or of a task that works on a job. -/
  | intake (e : IntakeEvent)
  /-- The main task sends or takes a confirmation, or the sending service takes a step. -/
  | system (e : CopySystemEvent)

/-- The event concerns neither what is sent nor what is confirmed. -/
def IntakeEvent.isLocal : IntakeEvent → Bool
  | .work e => e.isLocal
  | _ => true

/-- The item is a transaction with some signature. -/
def CopyBotEvent.delivers (signature : Signature) : CopyBotEvent → Bool
  | .intake e => e.delivers signature
  | .system _ => false

namespace CopyBot

/-- `start_copy_service_v2`, beside a sending service. -/
def start (defaults : WalletDefaults) (env : RegistryEnv) (initAccounts : List CopyWallet)
    (shared : Shared) (wire : SendTransactionService) : CopyBot :=
  ⟨.start defaults env initAccounts shared, wire.subscribe, wire.nextSourceId, [], 0⟩

/-- The copy service beside the sending service. -/
def system (s : CopyBot) : CopySystem :=
  ⟨s.intake.service, s.wire, s.sendTxnsHandle, s.sent, s.taken⟩

/-- Both services have changed. -/
def withSystem (s : CopyBot) (c : CopySystem) : CopyBot :=
  ⟨{ s.intake with service := c.copy }, c.wire, c.sendTxnsHandle, c.sent, c.taken⟩

/-- The main task has to run for what it does. -/
def enabled (s : CopyBot) : CopySystemEvent → Bool
  | .work _ => false
  | .output .. | .confirmation .. => s.intake.running
  | .wire _ => true

/-- The step function of the whole system. -/
def step (cfg : CopyConfig) (parser : ParserEnv) (defaults : WalletDefaults) (s : CopyBot) :
    CopyBotEvent → CopyBot
  | .intake e =>
    if e.isLocal then { s with intake := s.intake.step cfg parser defaults e } else s
  | .system e => if s.enabled e then s.withSystem (s.system.step cfg e) else s

/-- The steps of the sending service meet a condition. -/
def WireMeets (C : SendTransactionService → ConfirmEvent → Prop) (s : CopyBot) :
    CopyBotEvent → Prop
  | .intake _ => True
  | .system e => s.system.WireMeets C e

instance (C : SendTransactionService → ConfirmEvent → Prop) [∀ w, DecidablePred (C w)]
    (s : CopyBot) : DecidablePred (s.WireMeets C)
  | .intake _ => isTrue trivial
  | .system e => inferInstanceAs (Decidable (s.system.WireMeets C e))

/-- What a step is to the intake. -/
def toIntake (s : CopyBot) : CopyBotEvent → List IntakeEvent
  | .intake e => if e.isLocal then [e] else []
  | .system e => if s.enabled e then (s.system.copyEvent e).toList.map .work else []

/-- What a step is to the copy service beside the sending service. -/
def toSystem (s : CopyBot) : CopyBotEvent → List CopySystemEvent
  | .intake e => if e.isLocal then (s.intake.handed e).map .work else []
  | .system e => if s.enabled e then [e] else []

section

variable {cfg : CopyConfig} {parser : ParserEnv} {defaults : WalletDefaults}

/-- The main task of a system whose intake runs takes what concerns a job. -/
theorem step_work {s : Intake} {e : ServiceEvent} (hrun : s.running = true)
    (hown : e.isDelivery = false) :
    s.step cfg parser defaults (.work e) = { s with service := s.service.step cfg e } := by
  simp only [Intake.step, hrun, hown, Bool.not_false, Bool.true_or, Bool.and_true, if_true]

/-- A step of the whole system is a step of the intake, or none. -/
theorem step_intake (s : CopyBot) (e : CopyBotEvent) :
    (s.step cfg parser defaults e).intake =
      exec (Intake.step cfg parser defaults) s.intake (s.toIntake e) := by
  cases e with
  | intake e =>
    simp only [step, toIntake]
    split <;> rfl
  | system e =>
    simp only [step, toIntake]
    split
    · rename_i henabled
      have hcopy := s.system.copy_step cfg e
      simp only [withSystem, hcopy]
      cases hevent : s.system.copyEvent e with
      | none => rfl
      | some d =>
        have hrun : s.intake.running = true ∧ d.isDelivery = false := by
          cases e with
          | work => cases henabled
          | wire => cases hevent
          | output i signature env =>
            obtain rfl := Option.some.inj hevent
            exact ⟨henabled, rfl⟩
          | confirmation success failure =>
            refine ⟨henabled, ?_⟩
            simp only [CopySystem.copyEvent] at hevent
            split at hevent
            · cases hevent
            · split at hevent
              · cases hevent
              · obtain ⟨i, -, rfl⟩ := Option.map_eq_some_iff.mp hevent
                rfl
        have hwork : s.intake.step cfg parser defaults (.work d) =
            { s.intake with service := s.intake.service.step cfg d } := step_work hrun.1 hrun.2
        exact hwork.symm
    · rfl

/-- What the intake hands over in a local step is local to the copy service. -/
theorem isLocal_of_handed {s : Intake} {e : IntakeEvent} (he : e.isLocal = true)
    {d : ServiceEvent} (hd : d ∈ s.handed e) : d.isLocal = true := by
  cases e with
  | send i =>
    simp only [Intake.handed] at hd
    split at hd
    · obtain rfl := List.mem_singleton.mp hd
      rfl
    · cases hd
  | work e =>
    simp only [Intake.handed] at hd
    split at hd
    · obtain rfl := List.mem_singleton.mp hd
      exact he
    · cases hd
  | command | deliver | screen => cases hd

/-- Local steps of the copy service leave the sending service alone. -/
theorem exec_work {s : CopySystem} {ds : List ServiceEvent} (h : ∀ d ∈ ds, d.isLocal = true) :
    exec (CopySystem.step cfg) s (ds.map .work) =
      { s with copy := exec (Service.step cfg) s.copy ds } := by
  induction ds generalizing s with
  | nil => rfl
  | cons d ds ih =>
    have hstep : s.step cfg (.work d) = { s with copy := s.copy.step cfg d } :=
      if_pos (h d List.mem_cons_self)
    rw [List.map_cons, exec_cons, hstep, ih fun d hd => h d (List.mem_cons_of_mem _ hd)]
    rfl

/-- A step of the whole system is a step of the copy service beside the sending service, or
none. -/
theorem step_system (s : CopyBot) (e : CopyBotEvent) :
    (s.step cfg parser defaults e).system =
      exec (CopySystem.step cfg) s.system (s.toSystem e) := by
  cases e with
  | intake e =>
    simp only [step, toSystem]
    split
    · rename_i hlocal
      rw [exec_work fun d hd => isLocal_of_handed hlocal hd]
      simp only [system, s.intake.step_service e]
    · rfl
  | system e =>
    simp only [step, toSystem]
    split <;> rfl

/-! ## What holds in every run -/

variable {chain : Signature → Option TransactionError}

theorem along_work {C : SendTransactionService → ConfirmEvent → Prop} (s : CopySystem)
    (ds : List ServiceEvent) :
    Along (CopySystem.step cfg) (CopySystem.WireMeets C) s (ds.map .work) := by
  induction ds generalizing s with
  | nil => trivial
  | cons d ds ih => exact ⟨trivial, ih _⟩

/-- The steps of the copy service beside the sending service meet what the step does. -/
theorem along_toSystem {C : SendTransactionService → ConfirmEvent → Prop} {s : CopyBot}
    {e : CopyBotEvent} (he : s.WireMeets C e) :
    Along (CopySystem.step cfg) (CopySystem.WireMeets C) s.system (s.toSystem e) := by
  cases e with
  | intake e =>
    simp only [toSystem]
    split
    · exact along_work _ _
    · trivial
  | system e =>
    simp only [toSystem]
    split
    · exact ⟨he, trivial⟩
    · trivial

theorem step_sound (s : CopyBot) (e : CopyBotEvent) (hs : s.system.Sound cfg chain)
    (he : s.WireMeets (SendTransactionService.Faithful chain) e) :
    (s.step cfg parser defaults e).system.Sound cfg chain := by
  rw [step_system]
  exact exec_invariant (CopySystem.step_sound cfg) hs (along_toSystem he)

/-- A run of the whole system is a run of the intake. -/
theorem intake_run (s : CopyBot) (events : List CopyBotEvent) :
    (exec (step cfg parser defaults) s events).intake =
      exec (Intake.step cfg parser defaults) s.intake
        (handedAlong (step cfg parser defaults) toIntake s events) :=
  exec_component (I := fun _ => True) (fun _ _ => id) (fun s e _ => s.step_intake e) events trivial

/-- It is a run of the copy service beside the sending service, too. -/
theorem system_run (s : CopyBot) (events : List CopyBotEvent) :
    (exec (step cfg parser defaults) s events).system =
      exec (CopySystem.step cfg) s.system
        (handedAlong (step cfg parser defaults) toSystem s events) :=
  exec_component (I := fun _ => True) (fun _ _ => id) (fun s e _ => s.step_system e) events trivial

/-- The intake takes no more deliveries than the run has. -/
theorem countP_delivers_le (signature : Signature) (s : CopyBot) (events : List CopyBotEvent) :
    (handedAlong (step cfg parser defaults) toIntake s events).countP
        (IntakeEvent.delivers signature) ≤
      events.countP (CopyBotEvent.delivers signature) := by
  have hstep : ∀ (s : CopyBot) (e : CopyBotEvent),
      (s.toIntake e).countP (IntakeEvent.delivers signature) + 0 ≤
        0 + (e.delivers signature).toNat := by
    intro s e
    cases e with
    | intake e =>
      simp only [toIntake]
      split
      · rw [List.countP_singleton]
        simp only [CopyBotEvent.delivers]
        cases e.delivers signature <;> exact Nat.le_refl _
      · exact Nat.zero_le _
    | system e =>
      simp only [toIntake]
      split
      · cases s.system.copyEvent e <;> exact Nat.le_refl _
      · exact Nat.le_refl _
  have hrun : (handedAlong (step cfg parser defaults) toIntake s events).countP
      (IntakeEvent.delivers signature) + 0 ≤
        0 + tally (fun e => (CopyBotEvent.delivers signature e).toNat) events :=
    countP_handedAlong_le (fun _ => 0) _ hstep s events
  rw [tally_toNat] at hrun
  exact (Nat.le_add_right _ _).trans (hrun.trans (Nat.zero_add _).le)

end

end CopyBot

/-! ## How many copies are sent and executed -/

namespace CopySystem

variable {cfg : CopyConfig} {chain : Signature → Option TransactionError} {s : CopySystem}

/-- The transactions that were sent for copies of the one with some signature. -/
def sentFor (signature : Signature) (s : CopySystem) : List (ℕ × SendTransactionData) :=
  s.sent.filter fun p => s.copy.jobs[p.1]?.any (Job.isFor signature)

/-- Those of them that were executed. -/
def executedFor (chain : Signature → Option TransactionError) (signature : Signature)
    (s : CopySystem) : List (ℕ × SendTransactionData) :=
  (s.sentFor signature).filter fun p => decide (Executed chain s.wire p.2)

/-- Every job has sent no more than its budget allows. -/
theorem Sound.length_sentFor_le (hs : s.Sound cfg chain) (signature : Signature) :
    (s.sentFor signature).length ≤
      s.copy.jobs.countP (Job.isFor signature) * cfg.maxExecutions := by
  rw [sentFor, ← List.countP_eq_length_filter]
  refine countP_entries_le fun i hi => ?_
  obtain ⟨j, hj, -⟩ := (Option.any_eq_true _ _).mp hi
  exact hs.countP_sent_le hj

/-- Every job has executed one transaction at most. -/
theorem Sound.length_executedFor_le (hs : s.Sound cfg chain) (signature : Signature) :
    (s.executedFor chain signature).length ≤ s.copy.jobs.countP (Job.isFor signature) := by
  have hmem : ∀ p ∈ s.executedFor chain signature, p ∈ s.sent ∧ Executed chain s.wire p.2 ∧
      s.copy.jobs[p.1]?.any (Job.isFor signature) = true := by
    intro p hp
    obtain ⟨hfor, hexecuted⟩ := List.mem_filter.mp hp
    obtain ⟨hsent, hjob⟩ := List.mem_filter.mp hfor
    exact ⟨hsent, of_decide_eq_true hexecuted, hjob⟩
  have hnodup : ((s.executedFor chain signature).map Prod.fst).Nodup := by
    refine List.Nodup.map_on ?_ (((List.Nodup.of_map _ hs.ids).filter _).filter _)
    rintro ⟨i, d⟩ hd ⟨i', d'⟩ hd' hsame
    obtain rfl : i = i' := hsame
    rw [hs.eq_of_executed (hmem _ hd).1 (hmem _ hd').1 (hmem _ hd).2.1 (hmem _ hd').2.1]
  rw [← List.length_map (f := Prod.fst)]
  refine length_le_countP hnodup fun i hi => ?_
  obtain ⟨p, hp, rfl⟩ := List.mem_map.mp hi
  exact (hmem p hp).2.2

end CopySystem

namespace CopyBot

/-- In every run of the whole system, beside whatever else sends transactions, as long as the
confirmation task misses nothing and the node tells the truth: it is a run of the intake and a run
of the copy service beside the sending service; every transaction that is sent is for the copy of
a swap of a copied wallet that the stream delivered; for each delivery of it no more transactions
are sent than its retries allow, and one of them is executed at most; and every trade in the books
is a side of such a copy that was executed. -/
theorem copies_executed_once (cfg : CopyConfig) (parser : ParserEnv) (defaults : WalletDefaults)
    (env : RegistryEnv) (initAccounts : List CopyWallet) (shared : Shared)
    (chain : Signature → Option TransactionError) {wire : SendTransactionService}
    (hwire : wire.Reached chain) {events : List CopyBotEvent}
    (hevents : Along (step cfg parser defaults)
      (WireMeets (SendTransactionService.Faithful chain))
      (start defaults env initAccounts shared wire) events) :
    let s := exec (step cfg parser defaults) (start defaults env initAccounts shared wire) events
    let stream := handedAlong (step cfg parser defaults) toIntake
      (start defaults env initAccounts shared wire) events
    (s.intake = exec (Intake.step cfg parser defaults)
        (Intake.start defaults env initAccounts shared) stream ∧
      s.system = exec (CopySystem.step cfg) (CopySystem.start shared wire)
        (handedAlong (step cfg parser defaults) toSystem
          (start defaults env initAccounts shared wire) events)) ∧
      (∀ p ∈ s.sent, ∃ j t, s.intake.service.jobs[p.1]? = some j ∧ j.details.StemsFrom t ∧
        Intake.Originates parser defaults initAccounts stream t) ∧
      (∀ signature, (s.system.sentFor signature).length ≤
          events.countP (CopyBotEvent.delivers signature) *
            ((cfg.confirmedErrorRetries + 1) * (cfg.sendTxnRetries + 1)) ∧
        (s.system.executedFor chain signature).length ≤
          events.countP (CopyBotEvent.delivers signature)) ∧
      ∀ trade ∈ s.intake.service.trades, s.system.Made chain trade ∧
        ∃ t, trade.StemsFrom t ∧ Intake.Originates parser defaults initAccounts stream t := by
  intro s stream
  have hstart : (start defaults env initAccounts shared wire).system.Sound cfg chain :=
    CopySystem.start_sound cfg shared hwire.reporting
  have hsound : s.system.Sound cfg chain :=
    exec_invariant (I := fun s : CopyBot => s.system.Sound cfg chain) (fun s e => s.step_sound e)
      hstart hevents
  have hintake : s.intake = exec (Intake.step cfg parser defaults)
      (Intake.start defaults env initAccounts shared) stream := intake_run _ events
  have htraced := Intake.traced_run cfg parser defaults env initAccounts shared stream
  rw [← hintake] at htraced
  refine ⟨⟨hintake, system_run _ events⟩, fun p hp => ?_, fun signature => ?_,
    fun trade ht => ⟨hsound.trades trade ht, ?_⟩⟩
  · have hj := List.getElem?_eq_getElem (hsound.dispatched.owned p hp)
    obtain ⟨t, horiginates, hstems⟩ := htraced.service.jobs _ (List.mem_of_getElem? hj)
    exact ⟨_, t, hj, hstems, horiginates⟩
  · have hjobs := Service.jobsFor_run cfg signature shared
      (handedAlong (Intake.step cfg parser defaults) Intake.handed
        (Intake.start defaults env initAccounts shared) stream)
    rw [← Intake.service_run, ← hintake] at hjobs
    have hdelivered : s.intake.service.jobs.countP (Job.isFor signature) ≤
        events.countP (CopyBotEvent.delivers signature) :=
      calc s.intake.service.jobs.countP (Job.isFor signature)
          ≤ stream.countP (IntakeEvent.delivers signature) :=
            hjobs.trans (Intake.handed_le signature env initAccounts shared stream)
        _ ≤ events.countP (CopyBotEvent.delivers signature) :=
            countP_delivers_le signature _ events
    constructor
    · exact (hsound.length_sentFor_le signature).trans
        (Nat.mul_le_mul_right cfg.maxExecutions hdelivered)
    · exact (hsound.length_executedFor_le signature).trans hdelivered
  · obtain ⟨t, horiginates, hstems⟩ := htraced.service.trades trade ht
    exact ⟨t, hstems, horiginates⟩

/-- A copied wallet buys the sample token from a pool. -/
def sampleRaydiumBuy : StreamedTransaction :=
  executed 77 sampleRaydiumMessage (some { sampleRaydiumRecord with
    tokenBalances := {
      preTokenBalances := some [⟨Parser.recordedBalance .binary64 4 sampleToken 500, none⟩,
        ⟨Parser.recordedBalance .binary64 5 SOL 900, none⟩,
        ⟨Parser.recordedBalance .binary64 15 sampleToken 1, none⟩]
      postTokenBalances := some [⟨Parser.recordedBalance .binary64 4 sampleToken 460, none⟩,
        ⟨Parser.recordedBalance .binary64 5 SOL 942, none⟩] } })

/-- The sample wallets, and a sending service that has done nothing yet. -/
def sampleBot : CopyBot :=
  start ⟨.direct, 10, 20⟩ ⟨some [some 0], fun _ => true⟩
    [⟨0, some "sample", none, none, none, none, none, none, none, none⟩] ⟨.empty, none, false⟩
    (.init 90 100)

/-- The buy is delivered, and its copy is sent, lands and is confirmed. -/
def sampleCopy : List CopyBotEvent :=
  [.system (.wire (.load (Iteration.stored _))), .intake (.deliver (some sampleRaydiumBuy)),
    .intake (.screen 0 none), .intake (.send 0), .intake (.work (.recv 0)),
    .intake (.work (.input 0 sampleEnv)), .intake (.work (.attempt 0 sampleBuild)),
    .system (.output 0 (some 8) sampleFailure), .system (.wire .recv),
    .system (.wire (.load (Iteration.stored _))), .system (.wire (.land 8)),
    .system (.wire (.statuses (some [some ⟨3, none, true⟩]))),
    .system (.confirmation (sampleSuccess 50) sampleFailure)]

/-- The system after it. -/
def sampleEnd : CopyBot :=
  exec (step sampleConfig sampleParser ⟨.direct, 10, 20⟩) sampleBot sampleCopy

theorem copies_executed_once_sample :
    (sampleEnd.system.executedFor (fun _ => none) 77).map (fun p => p.2.signature) = [8] ∧
      sampleEnd.intake.service.trades.map CopyTrade.execSignature = [8] ∧
      (sampleEnd.system.executedFor (fun _ => none) 77).length ≤
        sampleCopy.countP (CopyBotEvent.delivers 77) := by
  have hevents : Along (step sampleConfig sampleParser ⟨.direct, 10, 20⟩)
      (WireMeets (SendTransactionService.Faithful fun _ => none)) sampleBot sampleCopy := by
    decide +kernel
  have hexecuted : (sampleEnd.system.executedFor (fun _ => none) 77).map
      (fun p => p.2.signature) = [8] := by
    decide +kernel
  have htrades : sampleEnd.intake.service.trades.map CopyTrade.execSignature = [8] := by
    decide +kernel
  refine ⟨hexecuted, htrades, ?_⟩
  unfold sampleEnd sampleBot
  exact (copies_executed_once sampleConfig sampleParser ⟨.direct, 10, 20⟩ _ _ _ (fun _ => none)
    (SendTransactionService.reached_init 90 100) hevents).2.2.1 77 |>.2

end CopyBot

end Biscuit.Copy
