import Biscuit.Models.Wire.Subscribers

/-!
# One answer for every transaction that is sent

An answer is owed for every id that a handle was given, but what waits for an answer is
kept by signature. As long as no signature enters the map that is still in it, every
transaction is either waiting or answered once.
-/

namespace Biscuit.Wire

/-- Whether a transaction has an id and was sent through a handle, as a weight. -/
def owes (handle : TransactionSourceId) (txnId : TransactionId) (d : SendTransactionData) : ℕ :=
  if d.sourceId = handle ∧ d.txnId = txnId then 1 else 0

/-- What a record weighs in answers. -/
def ConfirmRecord.answering (f : SendTransactionData → ℕ) : ConfirmRecord → ℕ
  | .query .. => 0
  | .report c => f c.data

namespace SendTransactionService

/-- The weight of what has not been answered yet. -/
def waiting (s : SendTransactionService) (f : SendTransactionData → ℕ) : ℕ :=
  tally f s.newTransactions + tally f (Table.values s.unconfirmedTransactions)

/-- The weight of the answers. Each goes to the channel of the handle in its data. -/
def answered (s : SendTransactionService) (f : SendTransactionData → ℕ) : ℕ :=
  tally (ConfirmRecord.answering f) s.log

/-- Transactions are sent once, through handles that `subscribe` gave out, and none enters
the map while one with the same signature is in it. -/
def SentFresh (s : SendTransactionService) : ConfirmEvent → Prop
  | .sendTransaction handle _ _ => handle ∈ s.subscribers
  | .resendTransaction .. => False
  | .recv => ∀ d ∈ s.newTransactions.head?, d.signature ∉ s.unconfirmedTransactions
  | _ => True

instance (s : SendTransactionService) : DecidablePred s.SentFresh
  | .sendTransaction handle _ _ => inferInstanceAs (Decidable (handle ∈ s.subscribers))
  | .resendTransaction .. => isFalse id
  | .recv => inferInstanceAs (Decidable (∀ d ∈ s.newTransactions.head?,
      d.signature ∉ s.unconfirmedTransactions))
  | .subscribe | .subscribeAll | .notifyBlockhash _ | .storeBlockHeight _ | .land _ | .load _ |
    .statuses _ | .collect _ | .expire => isTrue trivial

theorem SentFresh.subscribed {s : SendTransactionService} {e : ConfirmEvent}
    (h : s.SentFresh e) : s.SendsSubscribed e := by
  cases e with
  | sendTransaction => exact h
  | resendTransaction => exact absurd h id
  | _ => trivial

/-! ## What was handed over is waiting or answered -/

/-- What was handed over is waiting or answered. -/
def Balanced (s : SendTransactionService) (f : SendTransactionData → ℕ) : Prop :=
  s.answered f + s.waiting f = tally f s.handed

variable {f : SendTransactionData → ℕ}

theorem init_balanced (blockHeight lastValidBlockHeight : ℕ) :
    (init blockHeight lastValidBlockHeight).Balanced f := rfl

/-- Every other part of the service may change. -/
theorem Balanced.congr {s s' : SendTransactionService} (hs : s.Balanced f)
    (hchannel : s'.newTransactions = s.newTransactions)
    (hpending : s'.unconfirmedTransactions = s.unconfirmedTransactions)
    (hhanded : s'.handed = s.handed) (hlog : s'.answered f = s.answered f) :
    s'.Balanced f := by
  rw [Balanced, hlog, waiting, hchannel, hpending, hhanded]
  exact hs

theorem Balanced.hand {s : SendTransactionService} (hs : s.Balanced f)
    (handle : TransactionSourceId) (signature : Signature) (txnId : TransactionId)
    (sendToJito : Bool) : (s.hand handle signature txnId sendToJito).Balanced f := by
  simp only [Balanced, answered, waiting] at hs
  simp only [Balanced, answered, waiting, SendTransactionService.hand, tally_append, tally_cons,
    tally_nil]
  omega

/-- A transaction moves from the channel into the map, where it replaces nothing. -/
theorem Balanced.recv {s : SendTransactionService} (hs : s.Balanced f)
    (hfresh : s.SentFresh .recv) : s.recv.Balanced f := by
  unfold SendTransactionService.recv
  split
  · exact hs
  · rename_i data rest hchannel
    have hnot : data.signature ∉ s.unconfirmedTransactions := hfresh data (by rw [hchannel]; rfl)
    simp only [Balanced, answered, waiting, hchannel, tally_cons] at hs
    simp only [Balanced, answered, waiting, Table.tally_values_insert hnot]
    omega

/-- A transaction of a subscriber moves from the map into the answers. -/
theorem Balanced.answer {s : SendTransactionService} (hs : s.Balanced f) {sig : Signature}
    {d : SendTransactionData} (hlookup : s.unconfirmedTransactions.lookup sig = some d)
    (hsub : d.sourceId ∈ s.subscribers) (response : ConfirmTransactionResponse) :
    (s.answer sig d response).Balanced f := by
  have herase := Table.tally_values_erase (f := f) hlookup
  unfold SendTransactionService.answer
  rw [if_pos hsub]
  simp only [Balanced, answered, waiting] at hs
  simp only [Balanced, answered, waiting, tally_cons, ConfirmRecord.answering]
  omega

theorem Balanced.confirmOne {s : SendTransactionService} (hs : s.Balanced f)
    (hlisten : s.Listening) (r : Signature × Option TransactionStatus) :
    (s.confirmOne r).Balanced f := by
  unfold SendTransactionService.confirmOne
  split
  · exact hs
  · split
    · rename_i hlookup
      exact hs.answer hlookup (hlisten.pending _ _ hlookup) _
    · exact hs

theorem Balanced.foldl_confirmOne (rs : List (Signature × Option TransactionStatus))
    {s : SendTransactionService} (hs : s.Balanced f) (hlisten : s.Listening)
    (hphase : ∀ current rest, s.phase ≠ .expiring current rest) :
    (rs.foldl SendTransactionService.confirmOne s).Balanced f := by
  induction rs generalizing s with
  | nil => exact hs
  | cons r rs ih =>
    apply ih (hs.confirmOne hlisten r) (hlisten.confirmOne hphase r)
    rw [(confirms_confirmOne s r).phase]
    exact hphase

theorem Balanced.statuses {s : SendTransactionService} (hs : s.Balanced f)
    (hlisten : s.Listening) (result : Option (List (Option TransactionStatus))) :
    (s.statuses result).Balanced f := by
  unfold SendTransactionService.statuses
  split
  · dsimp only
    split
    · exact hs
    · apply Balanced.foldl_confirmOne
      · refine hs.congr rfl rfl rfl ?_
        rw [answered, tally_cons]
        exact Nat.zero_add _
      · exact ⟨hlisten.channel, hlisten.pending, by rintro current rest ⟨⟩, hlisten.running⟩
      · rintro current rest ⟨⟩
  · exact hs

theorem Balanced.load {s : SendTransactionService} (hs : s.Balanced f)
    (iter : Iteration Signature) : (s.load iter).Balanced f := by
  unfold SendTransactionService.load
  split
  · exact hs
  · split <;> exact hs
  · exact hs

theorem Balanced.collect {s : SendTransactionService} (hs : s.Balanced f)
    (iter : Iteration Signature) : (s.collect iter).Balanced f := by
  unfold SendTransactionService.collect
  split <;> exact hs

theorem Balanced.expire {s : SendTransactionService} (hs : s.Balanced f)
    (hlisten : s.Listening) : s.expire.Balanced f := by
  unfold SendTransactionService.expire
  split
  · rename_i current sig rest hphase
    split
    · rename_i hlookup
      have hpopped : Balanced { s with phase := .expiring current rest } f := hs
      exact hpopped.answer hlookup (hlisten.pending _ _ hlookup) _
    · exact hs
  · exact hs
  · exact hs

/-- Every step at which no signature is replaced keeps the balance. -/
theorem step_balanced (s : SendTransactionService) (e : ConfirmEvent) (hs : s.Balanced f)
    (hlisten : s.Listening) (he : s.SentFresh e) : (step s e).Balanced f := by
  cases e with
  | subscribe | subscribeAll | notifyBlockhash | storeBlockHeight | land => exact hs
  | sendTransaction handle signature sendToJito =>
    simp only [step, sendTransaction]
    split
    · exact (hs.hand handle signature s.nextTxnId sendToJito).congr rfl rfl rfl rfl
    · exact hs
  | resendTransaction => exact absurd he id
  | recv => exact hs.recv he
  | load iter => exact of_running (P := fun s => s.Balanced f) hs fun _ => hs.load iter
  | statuses result => exact of_running (P := fun s => s.Balanced f) hs fun _ => hs.statuses hlisten result
  | collect iter => exact of_running (P := fun s => s.Balanced f) hs fun _ => hs.collect iter
  | expire => exact of_running (P := fun s => s.Balanced f) hs fun _ => hs.expire hlisten

/-! ## Ids are given out once -/

/-- No id has been given out twice. -/
structure Numbered (s : SendTransactionService) : Prop where
  below : ∀ d ∈ s.handed, d.txnId < s.nextTxnId
  once : ∀ handle txnId, tally (owes handle txnId) s.handed ≤ 1

theorem owes_self (d : SendTransactionData) : owes d.sourceId d.txnId d = 1 := if_pos ⟨rfl, rfl⟩

theorem init_numbered (blockHeight lastValidBlockHeight : ℕ) :
    (init blockHeight lastValidBlockHeight).Numbered where
  below := fun _ hd => absurd hd List.not_mem_nil
  once := fun _ _ => Nat.zero_le 1

/-- What the handles do with their ids does not matter to the others. -/
theorem Numbered.congr {s s' : SendTransactionService} (hs : s.Numbered)
    (hhanded : s'.handed = s.handed) (hnext : s'.nextTxnId = s.nextTxnId) : s'.Numbered where
  below := by
    rw [hhanded, hnext]
    exact hs.below
  once := by
    rw [hhanded]
    exact hs.once

/-- A transaction that is sent gets an id that no other one has. -/
theorem Numbered.sendTransaction {s : SendTransactionService} (hs : s.Numbered)
    (handle : TransactionSourceId) (signature : Signature) (sendToJito : Bool) :
    (s.sendTransaction handle signature sendToJito).Numbered := by
  unfold SendTransactionService.sendTransaction
  split
  · constructor
    case below =>
      intro d hd
      rcases List.mem_cons.mp hd with rfl | hd
      · exact Nat.lt_succ_self _
      · exact Nat.lt_succ_of_lt (hs.below d hd)
    case once =>
      intro handle' txnId
      change tally (owes handle' txnId) (_ :: s.handed) ≤ 1
      rw [tally_cons]
      by_cases hid : txnId = s.nextTxnId
      · have hnone : tally (owes handle' txnId) s.handed = 0 := by
          apply tally_eq_zero
          intro d hd
          apply if_neg
          rintro ⟨-, he⟩
          exact absurd (he.trans hid) (Nat.ne_of_lt (hs.below d hd))
        have hone : ∀ d, owes handle' txnId d ≤ 1 := by
          intro _
          unfold owes
          split <;> omega
        rw [hnone]
        exact hone _
      · have hother : owes handle' txnId
            ⟨signature, s.lastValidBlockHeight, s.nextTxnId, handle, sendToJito⟩ = 0 :=
          if_neg fun h => hid h.2.symm
        rw [hother, Nat.zero_add]
        exact hs.once handle' txnId
  · exact hs

/-! ## What the confirmation task leaves alone -/

/-- A step that only takes transactions out of the map. -/
structure Frame (s s' : SendTransactionService) : Prop where
  nextTxnId : s'.nextTxnId = s.nextTxnId
  newTransactions : s'.newTransactions = s.newTransactions
  blockHeight : s'.blockHeight = s.blockHeight
  handed : s'.handed = s.handed
  lookup : ∀ sig d, s'.unconfirmedTransactions.lookup sig = some d →
    s.unconfirmedTransactions.lookup sig = some d

theorem Frame.refl (s : SendTransactionService) : s.Frame s :=
  ⟨rfl, rfl, rfl, rfl, fun _ _ h => h⟩

theorem Frame.trans {s s' s'' : SendTransactionService} (h : s.Frame s') (h' : s'.Frame s'') :
    s.Frame s'' where
  nextTxnId := h'.nextTxnId.trans h.nextTxnId
  newTransactions := h'.newTransactions.trans h.newTransactions
  blockHeight := h'.blockHeight.trans h.blockHeight
  handed := h'.handed.trans h.handed
  lookup := fun sig d hl => h.lookup sig d (h'.lookup sig d hl)

theorem frame_answer (s : SendTransactionService) (sig : Signature) (d : SendTransactionData)
    (response : ConfirmTransactionResponse) : s.Frame (s.answer sig d response) := by
  unfold answer
  dsimp only
  split <;> exact ⟨rfl, rfl, rfl, rfl, fun _ _ h => Table.lookup_of_lookup_erase h⟩

theorem frame_foldl_confirmOne (rs : List (Signature × Option TransactionStatus))
    (s : SendTransactionService) : s.Frame (rs.foldl confirmOne s) := by
  induction rs generalizing s with
  | nil => exact .refl s
  | cons r rs ih =>
    have hone : s.Frame (s.confirmOne r) := by
      unfold confirmOne
      split
      · exact .refl s
      · split
        · exact s.frame_answer _ _ _
        · exact .refl s
    exact hone.trans (ih _)

theorem frame_load (s : SendTransactionService) (iter : Iteration Signature) :
    s.Frame (s.load iter) := by
  unfold load
  split
  · exact ⟨rfl, rfl, rfl, rfl, fun _ _ h => h⟩
  · split
    · exact .refl s
    · exact ⟨rfl, rfl, rfl, rfl, fun _ _ h => h⟩
  · exact .refl s

theorem frame_statuses (s : SendTransactionService)
    (result : Option (List (Option TransactionStatus))) : s.Frame (s.statuses result) := by
  unfold statuses
  split
  · dsimp only
    split
    · exact ⟨rfl, rfl, rfl, rfl, fun _ _ h => h⟩
    · refine Frame.trans ?_ (frame_foldl_confirmOne _ _)
      exact ⟨rfl, rfl, rfl, rfl, fun _ _ h => h⟩
  · exact .refl s

theorem frame_collect (s : SendTransactionService) (iter : Iteration Signature) :
    s.Frame (s.collect iter) := by
  unfold collect
  split
  · exact ⟨rfl, rfl, rfl, rfl, fun _ _ h => h⟩
  · exact .refl s

theorem frame_expire (s : SendTransactionService) : s.Frame s.expire := by
  unfold expire
  split
  · rename_i current sig rest hphase
    split
    · refine Frame.trans ?_ (frame_answer _ _ _ _)
      exact ⟨rfl, rfl, rfl, rfl, fun _ _ h => h⟩
    · exact ⟨rfl, rfl, rfl, rfl, fun _ _ h => h⟩
  · exact ⟨rfl, rfl, rfl, rfl, fun _ _ h => h⟩
  · exact .refl s

/-- Every step at which nothing is sent again keeps the ids apart. -/
theorem step_numbered (s : SendTransactionService) (e : ConfirmEvent) (hs : s.Numbered)
    (he : s.SentFresh e) : (step s e).Numbered := by
  have htask : ∀ s', s.Frame s' → s'.Numbered := fun s' h => hs.congr h.handed h.nextTxnId
  cases e with
  | subscribe | subscribeAll | notifyBlockhash | storeBlockHeight | land => exact hs.congr rfl rfl
  | sendTransaction handle signature sendToJito =>
    exact hs.sendTransaction handle signature sendToJito
  | resendTransaction => exact absurd he id
  | recv =>
    simp only [step, recv]
    split
    · exact hs
    · exact hs.congr rfl rfl
  | load iter => exact of_running hs fun _ => htask _ (s.frame_load iter)
  | statuses result => exact of_running hs fun _ => htask _ (s.frame_statuses result)
  | collect iter => exact of_running hs fun _ => htask _ (s.frame_collect iter)
  | expire => exact of_running hs fun _ => htask _ s.frame_expire

/-! ## Expired transactions are answered -/

/-- What the confirmation task meets in one step of its own: the order of a traversal and
the answer of the RPC. -/
structure TaskTurn where
  iter : Iteration Signature
  answer : Option (List (Option TransactionStatus))

/-- What the confirmation task does next. -/
def taskEvent (s : SendTransactionService) (turn : TaskTurn) : ConfirmEvent :=
  match s.phase with
  | .starting | .idle => .load turn.iter
  | .verifying _ [] => .collect turn.iter
  | .verifying _ (_ :: _) => .statuses turn.answer
  | .expiring _ _ => .expire

/-- One step of the confirmation task on its own. -/
def taskStep (s : SendTransactionService) (turn : TaskTurn) : SendTransactionService :=
  s.step (s.taskEvent turn)

/-- The number of transactions in the map. -/
def pendingCount (s : SendTransactionService) : ℕ := s.unconfirmedTransactions.keys.length

/-- No more steps than an iteration takes. -/
def roundSteps (s : SendTransactionService) : ℕ := 2 * s.pendingCount + 4

/-- No more steps than what is left of the running iteration takes. -/
def phaseSteps (s : SendTransactionService) : ℕ :=
  match s.phase with
  | .starting => 1
  | .idle => 0
  | .verifying _ signatures => signatures.length + s.pendingCount + 2
  | .expiring _ signatures => signatures.length + 1

/-- Everything in the map had expired at a block height. -/
def ExpiredAt (s : SendTransactionService) (blockHeight : ℕ) : Prop :=
  ∀ sig d, s.unconfirmedTransactions.lookup sig = some d → d.lastValidBlockHeight < blockHeight

/-- At most how many more iterations have to start before everything expired is given up. -/
def RoundsLeft (s : SendTransactionService) (rounds : ℕ) : Prop :=
  match s.phase with
  | .starting => rounds = 1
  | .idle => s.ExpiredAt s.lastBlockHeight ∧ rounds = 1 ∨ rounds = 2
  | .verifying current _ =>
    s.ExpiredAt s.lastBlockHeight ∧ s.ExpiredAt current ∧ rounds = 0 ∨
      s.ExpiredAt current ∧ rounds = 1 ∨ rounds = 2
  | .expiring current signatures =>
    (∀ sig ∈ s.unconfirmedTransactions, sig ∈ signatures) ∧ rounds = 0 ∨
      s.ExpiredAt current ∧ rounds = 1 ∨ rounds = 2

/-- At most how many more steps of the task are left. -/
def StepsLeft (s : SendTransactionService) (steps : ℕ) : Prop :=
  ∃ rounds, s.RoundsLeft rounds ∧ rounds * s.roundSteps + s.phaseSteps ≤ steps

/-- No service has more than two iterations to go. -/
theorem stepsLeft_two (s : SendTransactionService) :
    s.StepsLeft (2 * s.roundSteps + s.phaseSteps) := by
  cases hphase : s.phase with
  | starting =>
    refine ⟨1, by rw [RoundsLeft, hphase], ?_⟩
    omega
  | idle => exact ⟨2, by rw [RoundsLeft, hphase]; exact .inr rfl, le_rfl⟩
  | verifying => exact ⟨2, by rw [RoundsLeft, hphase]; exact .inr (.inr rfl), le_rfl⟩
  | expiring => exact ⟨2, by rw [RoundsLeft, hphase]; exact .inr (.inr rfl), le_rfl⟩

theorem Frame.expiredAt {s s' : SendTransactionService} (h : s.Frame s') {blockHeight : ℕ}
    (hs : s.ExpiredAt blockHeight) : s'.ExpiredAt blockHeight :=
  fun sig d hl => hs sig d (h.lookup sig d hl)

theorem Frame.pendingCount_le {s s' : SendTransactionService} (h : s.Frame s') :
    s'.pendingCount ≤ s.pendingCount := Table.length_keys_le h.lookup

theorem length_signaturesWhere_le (s : SendTransactionService) (p : SendTransactionData → Bool)
    (iter : Iteration Signature) : (s.signaturesWhere p iter).length ≤ s.pendingCount :=
  (List.length_filter_le _ _).trans (iter.perm _).length_eq.le

/-- The first load of the block height. -/
theorem StepsLeft.start {s : SendTransactionService} {n : ℕ} (h : s.StepsLeft (n + 1))
    (hphase : s.phase = .starting) (hexpired : s.ExpiredAt s.blockHeight)
    (iter : Iteration Signature) : (s.load iter).StepsLeft n := by
  obtain ⟨rounds, hrounds, hle⟩ := h
  rw [RoundsLeft, hphase] at hrounds
  rw [phaseSteps, hphase] at hle
  rw [load, hphase]
  exact ⟨rounds, .inl ⟨hexpired, hrounds⟩, Nat.le_of_succ_le_succ hle⟩

/-- An iteration starts. When everything had expired at the previous one, it is the last. -/
theorem StepsLeft.load {s : SendTransactionService} {n : ℕ} (h : s.StepsLeft (n + 1))
    (hphase : s.phase = .idle) (hexpired : s.ExpiredAt s.blockHeight)
    (hpending : s.unconfirmedTransactions.keys ≠ []) (iter : Iteration Signature) :
    (s.load iter).StepsLeft n := by
  have hlen := s.length_signaturesWhere_le (toVerify s.lastBlockHeight s.blockHeight) iter
  have hload : s.load iter =
      { s with
        phase := .verifying s.blockHeight
          (s.signaturesWhere (toVerify s.lastBlockHeight s.blockHeight) iter) } := by
    rw [SendTransactionService.load, hphase]
    exact if_neg (by rwa [List.isEmpty_iff])
  obtain ⟨rounds, hrounds, hle⟩ := h
  rw [RoundsLeft, hphase] at hrounds
  rw [phaseSteps, hphase] at hle
  rw [hload]
  have hsteps : ∀ rounds', rounds = rounds' + 1 →
      rounds' * s.roundSteps + ((s.signaturesWhere (toVerify s.lastBlockHeight s.blockHeight)
        iter).length + s.pendingCount + 2) ≤ n := by
    rintro rounds' rfl
    simp only [Nat.add_mul, roundSteps] at hle ⊢
    omega
  rcases hrounds with ⟨hlast, rfl⟩ | rfl
  · exact ⟨0, .inl ⟨hlast, hexpired, rfl⟩, hsteps 0 rfl⟩
  · exact ⟨1, .inr (.inl ⟨hexpired, rfl⟩), hsteps 1 rfl⟩

theorem foldl_confirmOne_lastBlockHeight (rs : List (Signature × Option TransactionStatus))
    (s : SendTransactionService) :
    (rs.foldl confirmOne s).lastBlockHeight = s.lastBlockHeight := by
  induction rs generalizing s with
  | nil => rfl
  | cons r rs ih =>
    have hone : (s.confirmOne r).lastBlockHeight = s.lastBlockHeight := by
      unfold confirmOne answer
      dsimp only
      split
      · rfl
      · split
        · split <;> rfl
        · rfl
    exact (ih _).trans hone

/-- A query is answered, or it fails. -/
theorem StepsLeft.statuses {s : SendTransactionService} {n current : ℕ} {sig : Signature}
    {rest : List Signature} (h : s.StepsLeft (n + 1))
    (hphase : s.phase = .verifying current (sig :: rest))
    (result : Option (List (Option TransactionStatus))) : (s.statuses result).StepsLeft n := by
  have hframe := s.frame_statuses result
  have hnext : (s.statuses result).phase =
        .verifying current ((sig :: rest).drop maxGetSignatureStatusesQueryItems) ∧
      (s.statuses result).lastBlockHeight = s.lastBlockHeight := by
    rw [SendTransactionService.statuses, hphase]
    cases result with
    | none => exact ⟨rfl, rfl⟩
    | some statuses =>
      exact ⟨(confirms_foldl _ _).phase, foldl_confirmOne_lastBlockHeight _ _⟩
  generalize s.statuses result = s' at hframe hnext
  obtain ⟨hphase', hlast⟩ := hnext
  obtain ⟨rounds, hrounds, hle⟩ := h
  rw [RoundsLeft, hphase] at hrounds
  have hcount := hframe.pendingCount_le
  have hround : rounds * s'.roundSteps ≤ rounds * s.roundSteps :=
    Nat.mul_le_mul_left _ (by rw [roundSteps, roundSteps]; omega)
  refine ⟨rounds, ?_, ?_⟩
  · rw [RoundsLeft, hphase', hlast]
    rcases hrounds with ⟨hprev, hcur, hr⟩ | ⟨hcur, hr⟩ | hr
    · exact .inl ⟨hframe.expiredAt hprev, hframe.expiredAt hcur, hr⟩
    · exact .inr (.inl ⟨hframe.expiredAt hcur, hr⟩)
    · exact .inr (.inr hr)
  · rw [phaseSteps, hphase] at hle
    rw [phaseSteps, hphase']
    simp only [List.length_drop, List.length_cons, maxGetSignatureStatusesQueryItems] at hle ⊢
    omega

/-- What is to be given up is collected: everything, when all of it had expired already at
the previous iteration. -/
theorem StepsLeft.collect {s : SendTransactionService} {n current : ℕ}
    (h : s.StepsLeft (n + 1)) (hphase : s.phase = .verifying current [])
    (iter : Iteration Signature) : (s.collect iter).StepsLeft n := by
  have hlen := s.length_signaturesWhere_le (isGivenUp s.lastBlockHeight current) iter
  obtain ⟨rounds, hrounds, hle⟩ := h
  rw [RoundsLeft, hphase] at hrounds
  rw [phaseSteps, hphase] at hle
  rw [SendTransactionService.collect, hphase]
  refine ⟨rounds, ?_, ?_⟩
  · rcases hrounds with ⟨hprev, hcur, hr⟩ | hrounds
    · refine .inl ⟨fun sig hsig => ?_, hr⟩
      obtain ⟨d, hd⟩ := Table.mem_iff_lookup.mp hsig
      refine mem_signaturesWhere.mpr ⟨d, hd, ?_⟩
      have hlast := hprev sig d hd
      rw [isGivenUp, isRecentlyExpired, decide_eq_true (hcur sig d hd),
        decide_eq_false (Nat.not_le_of_lt hlast)]
      rfl
    · exact .inr hrounds
  · change rounds * s.roundSteps + ((s.signaturesWhere _ iter).length + 1) ≤ n
    simp only [List.length_nil] at hle
    omega

/-- A transaction is given up, or the iteration is over. -/
theorem StepsLeft.expire {s : SendTransactionService} {n current : ℕ}
    {signatures : List Signature} (h : s.StepsLeft (n + 1)) (hlisten : s.Listening)
    (hphase : s.phase = .expiring current signatures)
    (hpending : s.unconfirmedTransactions.keys ≠ []) : s.expire.StepsLeft n := by
  obtain ⟨rounds, hrounds, hle⟩ := h
  rw [RoundsLeft, hphase] at hrounds
  rw [phaseSteps, hphase] at hle
  cases signatures with
  | nil =>
    rw [SendTransactionService.expire, hphase]
    refine ⟨rounds, ?_, Nat.le_of_succ_le_succ hle⟩
    rcases hrounds with ⟨hall, -⟩ | hrounds
    · exact absurd (Table.keys_eq_nil_iff.mpr fun sig hsig => List.not_mem_nil (hall sig hsig))
        hpending
    · exact hrounds
  | cons sig rest =>
    obtain ⟨d, hd⟩ := Table.mem_iff_lookup.mp
      ((hlisten.expiring current _ hphase).2 sig List.mem_cons_self)
    have hnext : s.expire.phase = .expiring current rest ∧
        s.expire.unconfirmedTransactions = s.unconfirmedTransactions.erase sig := by
      rw [SendTransactionService.expire, hphase]
      simp only [hd, answer]
      split <;> exact ⟨rfl, rfl⟩
    have hframe := s.frame_expire
    generalize s.expire = s' at hnext hframe
    obtain ⟨hphase', herase⟩ := hnext
    have hcount := hframe.pendingCount_le
    have hround : rounds * s'.roundSteps ≤ rounds * s.roundSteps :=
      Nat.mul_le_mul_left _ (by rw [roundSteps, roundSteps]; omega)
    refine ⟨rounds, ?_, ?_⟩
    · rw [RoundsLeft, hphase']
      rcases hrounds with ⟨hall, hr⟩ | ⟨hcur, hr⟩ | hr
      · refine .inl ⟨fun sig' hsig' => ?_, hr⟩
        rw [herase, AList.mem_erase] at hsig'
        exact (List.mem_cons.mp (hall sig' hsig'.2)).resolve_left hsig'.1
      · exact .inr (.inl ⟨hframe.expiredAt hcur, hr⟩)
      · exact .inr (.inr hr)
    · rw [phaseSteps, hphase']
      simp only [List.length_cons] at hle ⊢
      omega

/-- Every step of the task leaves one step less. -/
theorem StepsLeft.taskStep {s : SendTransactionService} {n : ℕ} (h : s.StepsLeft (n + 1))
    (hlisten : s.Listening) (hexpired : s.ExpiredAt s.blockHeight)
    (hpending : s.unconfirmedTransactions.keys ≠ []) (turn : TaskTurn) :
    (s.taskStep turn).StepsLeft n := by
  have hgo : ∀ s', (if s.panicked then s else s') = s' :=
    fun s' => if_neg (by rw [hlisten.running]; exact Bool.false_ne_true)
  rw [SendTransactionService.taskStep]
  cases hphase : s.phase with
  | starting =>
    rw [taskEvent, hphase, step, hgo]
    exact h.start hphase hexpired turn.iter
  | idle =>
    rw [taskEvent, hphase, step, hgo]
    exact h.load hphase hexpired hpending turn.iter
  | verifying current signatures =>
    cases signatures with
    | nil =>
      rw [taskEvent, hphase, step, hgo]
      exact h.collect hphase turn.iter
    | cons sig rest =>
      rw [taskEvent, hphase, step, hgo]
      exact h.statuses hphase turn.answer
  | expiring current signatures =>
    rw [taskEvent, hphase, step, hgo]
    exact h.expire hlisten hphase hpending

/-- With something in the map, the task is never done. -/
theorem not_stepsLeft_zero (s : SendTransactionService) : ¬ s.StepsLeft 0 := by
  rintro ⟨rounds, hrounds, hle⟩
  rw [phaseSteps] at hle
  cases hphase : s.phase with
  | idle =>
    rw [RoundsLeft, hphase] at hrounds
    have hpos : 0 < s.roundSteps := Nat.succ_pos _
    rcases hrounds with ⟨-, rfl⟩ | rfl <;> omega
  | starting | verifying | expiring =>
    rw [hphase] at hle
    exact absurd hle (Nat.not_succ_le_zero _)

theorem frame_taskStep (s : SendTransactionService) (turn : TaskTurn) :
    s.Frame (s.taskStep turn) := by
  unfold taskStep taskEvent
  split
  · exact of_running (.refl s) fun _ => s.frame_load turn.iter
  · exact of_running (.refl s) fun _ => s.frame_load turn.iter
  · exact of_running (.refl s) fun _ => s.frame_collect turn.iter
  · exact of_running (.refl s) fun _ => s.frame_statuses turn.answer
  · exact of_running (.refl s) fun _ => s.frame_expire

/-- What the task does on its own is permitted. -/
theorem taskEvent_sentFresh (s : SendTransactionService) (turn : TaskTurn) :
    s.SentFresh (s.taskEvent turn) := by
  unfold taskEvent
  split <;> trivial

theorem frame_exec_taskStep (s : SendTransactionService) (turns : List TaskTurn) :
    s.Frame (exec taskStep s turns) := by
  induction turns generalizing s with
  | nil => exact .refl s
  | cons turn turns ih => exact (s.frame_taskStep turn).trans (ih _)

/-- A run of the task on its own takes everything expired out of the map. -/
theorem keys_exec_taskStep {s : SendTransactionService} {n : ℕ} {turns : List TaskTurn}
    (h : s.StepsLeft n) (hlisten : s.Listening) (hexpired : s.ExpiredAt s.blockHeight)
    (hlen : n ≤ turns.length) : (exec taskStep s turns).unconfirmedTransactions.keys = [] := by
  induction turns generalizing s n with
  | nil =>
    obtain rfl : n = 0 := Nat.le_zero.mp hlen
    exact absurd h s.not_stepsLeft_zero
  | cons turn turns ih =>
    have hframe := s.frame_taskStep turn
    have hlisten' : (s.taskStep turn).Listening :=
      step_listening s _ hlisten (s.taskEvent_sentFresh turn).subscribed
    have hexpired' : (s.taskStep turn).ExpiredAt (s.taskStep turn).blockHeight := by
      rw [hframe.blockHeight]
      exact hframe.expiredAt hexpired
    cases n with
    | zero => exact absurd h s.not_stepsLeft_zero
    | succ n =>
      by_cases hpending : s.unconfirmedTransactions.keys = []
      · have hcount := (s.frame_exec_taskStep (turn :: turns)).pendingCount_le
        rw [pendingCount, pendingCount, hpending] at hcount
        exact List.eq_nil_of_length_eq_zero (Nat.le_zero.mp hcount)
      · exact ih (h.taskStep hlisten hexpired hpending turn) hlisten' hexpired'
          (Nat.le_of_succ_le_succ hlen)

/-! ## The runs -/

/-- The invariant of the runs in which no signature is replaced. -/
structure Answering (s : SendTransactionService) : Prop where
  listening : s.Listening
  numbered : s.Numbered
  balanced : ∀ f, s.Balanced f

theorem init_answering (blockHeight lastValidBlockHeight : ℕ) :
    (init blockHeight lastValidBlockHeight).Answering :=
  ⟨init_listening _ _, init_numbered _ _, fun _ => init_balanced _ _⟩

theorem step_answering (s : SendTransactionService) (e : ConfirmEvent) (hs : s.Answering)
    (he : s.SentFresh e) : (step s e).Answering where
  listening := step_listening s e hs.listening he.subscribed
  numbered := step_numbered s e hs.numbered he
  balanced := fun f => step_balanced s e (hs.balanced f) hs.listening he

/-- Whatever was sent is either waiting or has been answered once. -/
theorem Answering.once {s : SendTransactionService} (hs : s.Answering)
    {d : SendTransactionData} (hd : d ∈ s.handed) :
    s.answered (owes d.sourceId d.txnId) + s.waiting (owes d.sourceId d.txnId) = 1 := by
  have hbalance : _ = _ := hs.balanced (owes d.sourceId d.txnId)
  obtain ⟨i, hi⟩ := List.getElem?_of_mem hd
  have hle := hs.numbered.once d.sourceId d.txnId
  have hge := le_tally (f := owes d.sourceId d.txnId) hi
  rw [owes_self] at hge
  omega

/-- With an empty channel and an empty map nothing is waiting. -/
theorem waiting_eq_zero {s : SendTransactionService} (hchannel : s.newTransactions = [])
    (hkeys : s.unconfirmedTransactions.keys = []) (f : SendTransactionData → ℕ) :
    s.waiting f = 0 := by
  have hentries : s.unconfirmedTransactions.entries = [] := List.map_eq_nil_iff.mp hkeys
  rw [waiting, hchannel, Table.values, hentries]
  rfl

/-- The run of the task on its own keeps the invariant. -/
theorem Answering.exec_taskStep {s : SendTransactionService} (hs : s.Answering)
    (turns : List TaskTurn) : (exec taskStep s turns).Answering := by
  induction turns generalizing s with
  | nil => exact hs
  | cons turn turns ih => exact ih (step_answering s _ hs (s.taskEvent_sentFresh turn))

/-- In every run in which no signature enters the map while it is in it, every transaction
that is sent through a handle of `subscribe` is waiting or has one answer, on the channel
of its handle. Once everything sent is in the map and has expired, the confirmation task
comes to answer all of it, whatever the RPC says. -/
theorem answered_once_of_sentFresh {blockHeight lastValidBlockHeight : ℕ}
    {es : List ConfirmEvent} (h : Along step SentFresh (init blockHeight lastValidBlockHeight) es)
    {s : SendTransactionService} (hs : exec step (init blockHeight lastValidBlockHeight) es = s) :
    (∀ d ∈ s.handed,
      s.answered (owes d.sourceId d.txnId) + s.waiting (owes d.sourceId d.txnId) = 1) ∧
    (s.newTransactions = [] → s.ExpiredAt s.blockHeight → ∀ turns : List TaskTurn,
      2 * s.roundSteps + s.phaseSteps ≤ turns.length → ∀ d ∈ s.handed,
        (exec taskStep s turns).answered (owes d.sourceId d.txnId) = 1) := by
  have hinv : s.Answering := hs ▸ exec_invariant step_answering (init_answering _ _) h
  refine ⟨fun d hd => hinv.once hd, fun hchannel hexpired turns hlen d hd => ?_⟩
  have hframe := s.frame_exec_taskStep turns
  have honce := (hinv.exec_taskStep turns).once (hframe.handed ▸ hd)
  have hkeys := keys_exec_taskStep s.stepsLeft_two hinv.listening hexpired hlen
  rwa [waiting_eq_zero (hframe.newTransactions.trans hchannel) hkeys, Nat.add_zero] at honce

/-! ## Two transactions with one signature -/

/-- A transaction is sent, and one with another signature or with the same; both are taken
out of the channel, and what is in the map is found on chain. -/
def sampleTwice (signature : Signature) : List ConfirmEvent :=
  [.load (Iteration.stored _), .subscribe, .sendTransaction 1 7 false,
    .sendTransaction 1 signature false, .recv, .recv, .load (Iteration.stored _),
    .statuses (some [some ⟨200, none, true⟩, some ⟨200, none, true⟩])]

theorem answered_once_of_sentFresh_sample :
    Along step SentFresh (init 90 100) (sampleTwice 8) ∧
      ∀ d ∈ (exec step (init 90 100) (sampleTwice 8)).handed,
        (exec step (init 90 100) (sampleTwice 8)).answered (owes d.sourceId d.txnId) +
          (exec step (init 90 100) (sampleTwice 8)).waiting (owes d.sourceId d.txnId) = 1 := by
  have h : Along step SentFresh (init 90 100) (sampleTwice 8) := by decide +kernel
  exact ⟨h, (answered_once_of_sentFresh h rfl).1⟩

/-- The second one takes the place of the first, which is never answered: nothing is
waiting any more. -/
theorem not_answered_once_same_signature :
    (exec step (init 90 100) (sampleTwice 7)).handed.length = 2 ∧
      (exec step (init 90 100) (sampleTwice 7)).newTransactions = [] ∧
      (exec step (init 90 100) (sampleTwice 7)).unconfirmedTransactions.keys = [] ∧
      (exec step (init 90 100) (sampleTwice 7)).answered (owes 1 1) = 0 := by
  decide +kernel

end SendTransactionService

end Biscuit.Wire
