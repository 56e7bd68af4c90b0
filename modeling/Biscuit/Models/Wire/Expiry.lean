import Biscuit.Models.Wire.Confirm

/-!
# What is reported as unconfirmed

The confirmation task asks for the status of a transaction until the first iteration that
finds it expired, and gives it up at the next one. When the query of that first iteration
fails nothing asks again, and the transaction is given up unseen.
-/

namespace Biscuit.Wire

/-- A status query made after a transaction had expired that found no status for it. -/
def ConfirmRecord.Clears (d : SendTransactionData) : ConfirmRecord → Prop
  | .query blockHeight signatures statuses =>
    d.lastValidBlockHeight < blockHeight ∧ d.signature ∈ signatures ∧
      ∀ status, (d.signature, some status) ∈ signatures.zip statuses →
        status.satisfiesCommitment = false
  | .report _ => False

/-- A query clears every transaction with the signature and the last valid block height of
one that it clears. -/
theorem ConfirmRecord.Clears.congr {q : ConfirmRecord} {d d' : SendTransactionData}
    (h : q.Clears d) (hsig : d'.signature = d.signature)
    (hheight : d'.lastValidBlockHeight = d.lastValidBlockHeight) : q.Clears d' := by
  cases q with
  | query blockHeight signatures statuses =>
    simp only [ConfirmRecord.Clears] at h ⊢
    rw [hsig, hheight]
    exact h
  | report => exact h

/-- Every report that a transaction is unconfirmed comes after such a query. -/
def Justified : List ConfirmRecord → Prop
  | [] => True
  | r :: log =>
    (∀ d reason, r = .report ⟨d, .unconfirmed reason⟩ → ∃ q ∈ log, q.Clears d) ∧ Justified log

/-- Reports of confirmations need no query. -/
theorem Justified.append {reports log : List ConfirmRecord} (hlog : Justified log)
    (hreports : ∀ r ∈ reports, ∀ d reason, r ≠ .report ⟨d, .unconfirmed reason⟩) :
    Justified (reports ++ log) := by
  induction reports with
  | nil => exact hlog
  | cons r reports ih =>
    refine ⟨fun d reason he => absurd he (hreports r List.mem_cons_self d reason), ih ?_⟩
    exact fun r' hr' => hreports r' (List.mem_cons_of_mem _ hr')

theorem Justified.clears {log : List ConfirmRecord} (hlog : Justified log)
    {d : SendTransactionData} {reason : NotConfirmedReason}
    (h : .report ⟨d, .unconfirmed reason⟩ ∈ log) : ∃ q ∈ log, q.Clears d := by
  induction log with
  | nil => exact absurd h List.not_mem_nil
  | cons r log ih =>
    have hfound : ∃ q ∈ log, q.Clears d := by
      rcases List.mem_cons.mp h with rfl | h
      · exact hlog.1 d reason rfl
      · exact ih hlog.2 h
    obtain ⟨q, hq, hclears⟩ := hfound
    exact ⟨q, List.mem_cons_of_mem _ hq, hclears⟩

namespace SendTransactionService

/-- The block height that the confirmation task loaded last. -/
def loadedBlockHeight (s : SendTransactionService) : ℕ :=
  match s.phase with
  | .starting => 0
  | .idle => s.lastBlockHeight
  | .verifying current _ => current
  | .expiring current _ => current

/-- The signatures that are still to be asked for in the running iteration. -/
def unasked (s : SendTransactionService) : List Signature :=
  match s.phase with
  | .verifying _ signatures => signatures
  | _ => []

/-- The signatures of the next query. -/
def asked (s : SendTransactionService) : List Signature :=
  s.unasked.take maxGetSignatureStatusesQueryItems

/-- The answer to the next query is logged, and the query is done. -/
def queried (s : SendTransactionService) (current : ℕ) (unasked : List Signature)
    (statuses : List (Option TransactionStatus)) : SendTransactionService :=
  { s with
    phase := .verifying current (unasked.drop maxGetSignatureStatusesQueryItems)
    log := .query current s.asked statuses :: s.log }

/-- The signatures that the running iteration has collected to give up. -/
def givenUp (s : SendTransactionService) : List Signature :=
  match s.phase with
  | .expiring _ signatures => signatures
  | _ => []

/-! ## Conditions on a run -/

/-- Block heights do not decrease. -/
def HeightsGrow (s : SendTransactionService) : ConfirmEvent → Prop
  | .storeBlockHeight blockHeight => s.blockHeight ≤ blockHeight
  | _ => True

/-- No query fails that asks for an expired transaction, and no transaction enters the map
that had expired when the confirmation task last looked at the block height, or while an
entry with its signature is being given up. -/
def NothingMissed (s : SendTransactionService) : ConfirmEvent → Prop
  | .statuses none => ∀ sig ∈ s.asked, ∀ d ∈ s.unconfirmedTransactions.lookup sig,
      s.loadedBlockHeight ≤ d.lastValidBlockHeight
  | .recv => ∀ d ∈ s.newTransactions.head?,
      s.loadedBlockHeight ≤ d.lastValidBlockHeight ∧ d.signature ∉ s.givenUp
  | .load _ => s.phase = .starting → ∀ entry ∈ s.unconfirmedTransactions.entries,
      s.blockHeight ≤ entry.2.lastValidBlockHeight
  | _ => True

/-- The RPC shows what has landed; a transaction cannot land once it has expired, and the
signature of a transaction determines its blockhash. -/
def Truthful (s : SendTransactionService) : ConfirmEvent → Prop
  | .statuses (some statuses) => ∀ sig ∈ s.asked, sig ∈ s.landed →
      (s.asked.zip statuses).any (fun r =>
        decide (r.1 = sig) && r.2.any TransactionStatus.satisfiesCommitment) = true
  | .land signature => ∀ d ∈ s.handed, d.signature = signature →
      s.blockHeight ≤ d.lastValidBlockHeight
  | .sendTransaction _ signature _ => ∀ d ∈ s.handed, d.signature = signature →
      d.lastValidBlockHeight = s.lastValidBlockHeight
  | .resendTransaction _ signature _ _ => ∀ d ∈ s.handed, d.signature = signature →
      d.lastValidBlockHeight = s.lastValidBlockHeight
  | _ => True

instance (s : SendTransactionService) : DecidablePred s.HeightsGrow
  | .storeBlockHeight blockHeight => inferInstanceAs (Decidable (s.blockHeight ≤ blockHeight))
  | .subscribe | .subscribeAll | .notifyBlockhash _ | .sendTransaction .. |
    .resendTransaction .. | .recv | .land _ | .load _ | .statuses _ | .collect _ | .expire =>
    isTrue trivial

instance (s : SendTransactionService) : DecidablePred s.NothingMissed
  -- a quantifier over a bit string would otherwise be decided by trying all of them
  | .statuses none => List.decidableBAll (fun sig => ∀ d ∈ s.unconfirmedTransactions.lookup sig,
      s.loadedBlockHeight ≤ d.lastValidBlockHeight) s.asked
  | .recv => inferInstanceAs (Decidable (∀ d ∈ s.newTransactions.head?,
      s.loadedBlockHeight ≤ d.lastValidBlockHeight ∧ d.signature ∉ s.givenUp))
  | .load _ => inferInstanceAs (Decidable (s.phase = .starting →
      ∀ entry ∈ s.unconfirmedTransactions.entries,
        s.blockHeight ≤ entry.2.lastValidBlockHeight))
  | .subscribe | .subscribeAll | .notifyBlockhash _ | .storeBlockHeight _ |
    .sendTransaction .. | .resendTransaction .. | .land _ | .statuses (some _) | .collect _ |
    .expire => isTrue trivial

instance (s : SendTransactionService) : DecidablePred s.Truthful
  | .statuses (some statuses) => List.decidableBAll (fun sig => sig ∈ s.landed →
      (s.asked.zip statuses).any (fun r =>
        decide (r.1 = sig) && r.2.any TransactionStatus.satisfiesCommitment) = true) s.asked
  | .land signature => inferInstanceAs (Decidable (∀ d ∈ s.handed, d.signature = signature →
      s.blockHeight ≤ d.lastValidBlockHeight))
  | .sendTransaction _ signature _ | .resendTransaction _ signature _ _ =>
    inferInstanceAs (Decidable (∀ d ∈ s.handed, d.signature = signature →
      d.lastValidBlockHeight = s.lastValidBlockHeight))
  | .subscribe | .subscribeAll | .notifyBlockhash _ | .storeBlockHeight _ | .recv | .load _ |
    .statuses none | .collect _ | .expire => isTrue trivial

/-! ## The invariant -/

/-- A transaction that had expired when the block height was last loaded is still to be
asked for, or a query has shown that it is not on chain. -/
structure Tracked (s : SendTransactionService) : Prop where
  loaded : s.loadedBlockHeight ≤ s.blockHeight
  signature : ∀ sig d, s.unconfirmedTransactions.lookup sig = some d → d.signature = sig
  checked : s.panicked = false → ∀ sig d, s.unconfirmedTransactions.lookup sig = some d →
    d.lastValidBlockHeight < s.loadedBlockHeight → sig ∈ s.unasked ∨ ∃ q ∈ s.log, q.Clears d
  givenUp : ∀ sig ∈ s.givenUp, ∀ d, s.unconfirmedTransactions.lookup sig = some d →
    d.lastValidBlockHeight < s.loadedBlockHeight
  justified : Justified s.log

/-- An expired transaction is in the next query, in a later one, or cleared. -/
theorem Tracked.asked_or {s : SendTransactionService} (hs : s.Tracked)
    (hrun : s.panicked = false) {sig : Signature} {d : SendTransactionData}
    (h : s.unconfirmedTransactions.lookup sig = some d)
    (hexpired : d.lastValidBlockHeight < s.loadedBlockHeight) :
    sig ∈ s.asked ∨ sig ∈ s.unasked.drop maxGetSignatureStatusesQueryItems ∨
      ∃ q ∈ s.log, q.Clears d := by
  rcases hs.checked hrun sig d h hexpired with hmem | hclears
  · rw [← List.take_append_drop maxGetSignatureStatusesQueryItems s.unasked] at hmem
    exact (List.mem_append.mp hmem).imp_right .inl
  · exact .inr (.inr hclears)

/-- Once everything has been asked for, every expired transaction is cleared. -/
theorem Tracked.clears {s : SendTransactionService} (hs : s.Tracked)
    (hrun : s.panicked = false) (hasked : s.unasked = []) {sig : Signature}
    {d : SendTransactionData} (h : s.unconfirmedTransactions.lookup sig = some d)
    (hexpired : d.lastValidBlockHeight < s.loadedBlockHeight) : ∃ q ∈ s.log, q.Clears d := by
  apply (hs.checked hrun sig d h hexpired).resolve_left
  rw [hasked]
  exact List.not_mem_nil

theorem init_tracked (blockHeight lastValidBlockHeight : ℕ) :
    (init blockHeight lastValidBlockHeight).Tracked where
  loaded := Nat.zero_le _
  signature := by
    intro sig d h
    rw [init, AList.lookup_empty] at h
    cases h
  checked := by
    intro _ sig d h
    rw [init, AList.lookup_empty] at h
    cases h
  givenUp := fun sig h => absurd h List.not_mem_nil
  justified := trivial

theorem Tracked.recv {s : SendTransactionService} (hs : s.Tracked)
    (hmiss : s.NothingMissed .recv) : s.recv.Tracked := by
  unfold SendTransactionService.recv
  split
  · exact hs
  rename_i data rest hchannel
  obtain ⟨hvalid, hgiven⟩ := hmiss data (by rw [hchannel]; rfl)
  refine ⟨hs.loaded, ?_, ?_, ?_, hs.justified⟩
  · intro sig d h
    rcases Table.lookup_of_lookup_insert h with ⟨rfl, rfl⟩ | h
    · rfl
    · exact hs.signature sig d h
  · intro hrun sig d h hexpired
    rcases Table.lookup_of_lookup_insert h with ⟨rfl, rfl⟩ | h
    · exact absurd hexpired (Nat.not_lt_of_le hvalid)
    · exact hs.checked hrun sig d h hexpired
  · intro sig hsig d h
    rcases Table.lookup_of_lookup_insert h with ⟨rfl, rfl⟩ | h
    · exact absurd hsig hgiven
    · exact hs.givenUp sig hsig d h

theorem Tracked.load {s : SendTransactionService} (hs : s.Tracked) (hrun : s.panicked = false)
    {iter : Iteration Signature} (hmiss : s.NothingMissed (.load iter)) :
    (s.load iter).Tracked := by
  unfold SendTransactionService.load
  split
  · rename_i hphase
    refine ⟨le_rfl, hs.signature, ?_, fun sig h => absurd h List.not_mem_nil, hs.justified⟩
    intro _ sig d h hexpired
    have hvalid := hmiss hphase ⟨sig, d⟩ (AList.mem_lookup_iff.mp h)
    exact absurd hexpired (Nat.not_lt_of_le hvalid)
  · rename_i hphase
    split
    · exact hs
    refine ⟨le_rfl, hs.signature, ?_, fun sig h => absurd h List.not_mem_nil, hs.justified⟩
    intro _ sig d h hexpired
    by_cases hlast : s.lastBlockHeight ≤ d.lastValidBlockHeight
    · -- it has expired since the previous iteration, and is asked for in this one
      left
      refine mem_signaturesWhere.mpr ⟨d, h, ?_⟩
      rw [toVerify, isRecentlyExpired, Bool.or_eq_true, Bool.and_eq_true, decide_eq_true_eq,
        decide_eq_true_eq, decide_eq_true_eq]
      exact .inr ⟨hlast, hexpired⟩
    · -- the previous iteration already found it expired
      right
      have hold : d.lastValidBlockHeight < s.loadedBlockHeight := by
        rw [loadedBlockHeight, hphase]
        exact Nat.lt_of_not_le hlast
      exact hs.clears hrun (by rw [unasked, hphase]) h hold
  · exact hs

/-- A query that fails leaves its signatures unchecked, which is no loss if none of them has
expired. -/
theorem Tracked.failedQuery {s : SendTransactionService} (hs : s.Tracked)
    (hrun : s.panicked = false) {current : ℕ} {sig : Signature} {rest : List Signature}
    (hphase : s.phase = .verifying current (sig :: rest))
    (hmiss : s.NothingMissed (.statuses none)) :
    ({ s with
      phase := .verifying current ((sig :: rest).drop maxGetSignatureStatusesQueryItems) } :
        SendTransactionService).Tracked := by
  have hloaded : s.loadedBlockHeight = current := by rw [loadedBlockHeight, hphase]
  have hunasked : s.unasked = sig :: rest := by rw [unasked, hphase]
  refine ⟨hloaded ▸ hs.loaded, hs.signature, ?_, fun sig h => absurd h List.not_mem_nil,
    hs.justified⟩
  intro _ sig' d h hexpired
  rcases hs.asked_or hrun h (hloaded ▸ hexpired) with hmem | hmem
  · have hvalid := hmiss sig' hmem d h
    rw [hloaded] at hvalid
    exact absurd hexpired (Nat.not_lt_of_le hvalid)
  · rw [hunasked] at hmem
    exact hmem

/-- An expired transaction of a query that is answered has left the map, or the query clears it. -/
theorem Tracked.answeredQuery {s : SendTransactionService} (hs : s.Tracked)
    (hrun : s.panicked = false) {current : ℕ} {sig : Signature} {rest : List Signature}
    (hphase : s.phase = .verifying current (sig :: rest))
    (statuses : List (Option TransactionStatus)) :
    ((s.asked.zip statuses).foldl confirmOne
      (s.queried current (sig :: rest) statuses)).Tracked := by
  have hloaded : s.loadedBlockHeight = current := by rw [loadedBlockHeight, hphase]
  have hunasked : s.unasked = sig :: rest := by rw [unasked, hphase]
  have hconf := confirms_foldl (s.asked.zip statuses) (s.queried current (sig :: rest) statuses)
  have hphase' := hconf.phase
  have hlookup := hconf.lookup
  obtain ⟨reports, hlog, hreports⟩ := hconf.log
  refine ⟨?_, ?_, ?_, ?_, ?_⟩
  · rw [loadedBlockHeight, hphase', hconf.blockHeight]
    exact hloaded ▸ hs.loaded
  · exact fun sig' d h => hs.signature sig' d (hlookup sig' d h)
  · intro hafter sig' d h hexpired
    rw [loadedBlockHeight, hphase'] at hexpired
    rw [unasked, hphase', hlog]
    have hsig := hs.signature sig' d (hlookup sig' d h)
    rcases hs.asked_or hrun (hlookup sig' d h) (hloaded ▸ hexpired) with
      hmem | hmem | ⟨q, hq, hclears⟩
    · right
      refine ⟨.query current s.asked statuses,
        List.mem_append_right _ List.mem_cons_self, hexpired, hsig ▸ hmem, ?_⟩
      intro status hstatus
      rw [hsig] at hstatus
      -- had it satisfied the commitment, the transaction would have left the map
      by_contra hsat
      rw [Bool.not_eq_false] at hsat
      rw [lookup_foldl_confirmOne hstatus hsat hafter] at h
      cases h
    · rw [hunasked] at hmem
      exact .inl hmem
    · exact .inr ⟨q, List.mem_append_right _ (List.mem_cons_of_mem _ hq), hclears⟩
  · rw [SendTransactionService.givenUp, hphase']
    exact fun sig h => absurd h List.not_mem_nil
  · rw [hlog]
    have hquery : Justified (.query current s.asked statuses :: s.log) :=
      ⟨by rintro d reason ⟨⟩, hs.justified⟩
    apply hquery.append
    rintro r hr d reason rfl
    obtain ⟨_, _, _, _, he, -⟩ := hreports _ hr
    cases he

/-- What an answer to a query leaves to be checked. -/
theorem Tracked.statuses {s : SendTransactionService} (hs : s.Tracked)
    (hrun : s.panicked = false) {result : Option (List (Option TransactionStatus))}
    (hmiss : s.NothingMissed (.statuses result)) : (s.statuses result).Tracked := by
  unfold SendTransactionService.statuses
  split
  · rename_i current sig rest hphase
    cases result with
    | none => exact hs.failedQuery hrun hphase hmiss
    | some statuses =>
      have hasked : s.asked = (sig :: rest).take maxGetSignatureStatusesQueryItems := by
        rw [asked, unasked, hphase]
      dsimp only
      rw [← hasked]
      exact hs.answeredQuery hrun hphase statuses
  · exact hs

theorem Tracked.collect {s : SendTransactionService} (hs : s.Tracked)
    (iter : Iteration Signature) : (s.collect iter).Tracked := by
  unfold SendTransactionService.collect
  split
  · rename_i current hphase
    have hloaded : s.loadedBlockHeight = current := by rw [loadedBlockHeight, hphase]
    refine ⟨hloaded ▸ hs.loaded, hs.signature, ?_, ?_, hs.justified⟩
    · intro hrun sig d h hexpired
      exact .inr (hs.clears hrun (by rw [unasked, hphase]) h (hloaded ▸ hexpired))
    · intro sig hsig d h
      obtain ⟨d', hd', hgiven⟩ := mem_signaturesWhere.mp hsig
      obtain rfl : d' = d := Option.some.inj (hd'.symm.trans h)
      rw [isGivenUp, Bool.and_eq_true, decide_eq_true_eq] at hgiven
      exact hgiven.1
  · exact hs

theorem Tracked.expire {s : SendTransactionService} (hs : s.Tracked)
    (hrun : s.panicked = false) : s.expire.Tracked := by
  unfold SendTransactionService.expire
  split
  · rename_i current sig rest hphase
    have hloaded : s.loadedBlockHeight = current := by rw [loadedBlockHeight, hphase]
    have hle : current ≤ s.blockHeight := hloaded ▸ hs.loaded
    have hclears : ∀ sig d, s.unconfirmedTransactions.lookup sig = some d →
        d.lastValidBlockHeight < current → ∃ q ∈ s.log, q.Clears d := by
      intro sig' d h hexpired
      exact hs.clears hrun (by rw [unasked, hphase]) h (hloaded ▸ hexpired)
    have hgiven : ∀ sig' ∈ sig :: rest, ∀ d, s.unconfirmedTransactions.lookup sig' = some d →
        d.lastValidBlockHeight < current := by
      intro sig' hsig' d h
      have hmem : sig' ∈ s.givenUp := by
        rw [SendTransactionService.givenUp, hphase]
        exact hsig'
      exact hloaded ▸ hs.givenUp sig' hmem d h
    split
    · rename_i d hlookup
      unfold answer
      dsimp only
      split
      · refine ⟨hle, fun sig' d' h => hs.signature sig' d' (Table.lookup_of_lookup_erase h), ?_, ?_,
          ?_, hs.justified⟩
        · intro _ sig' d' h hexpired
          obtain ⟨q, hq, hc⟩ := hclears sig' d' (Table.lookup_of_lookup_erase h) hexpired
          exact .inr ⟨q, List.mem_cons_of_mem _ hq, hc⟩
        · exact fun sig' hsig' d' h =>
            hgiven sig' (List.mem_cons_of_mem _ hsig') d' (Table.lookup_of_lookup_erase h)
        · rintro d' reason ⟨⟩
          exact hclears sig d hlookup (hgiven sig List.mem_cons_self d hlookup)
      · refine ⟨hle, fun sig' d' h => hs.signature sig' d' (Table.lookup_of_lookup_erase h), ?_, ?_,
          hs.justified⟩
        · rintro ⟨⟩
        · exact fun sig' hsig' d' h =>
            hgiven sig' (List.mem_cons_of_mem _ hsig') d' (Table.lookup_of_lookup_erase h)
    · exact ⟨hs.loaded, hs.signature, by rintro ⟨⟩, hs.givenUp, hs.justified⟩
  · rename_i current hphase
    have hloaded : s.loadedBlockHeight = current := by rw [loadedBlockHeight, hphase]
    refine ⟨hloaded ▸ hs.loaded, hs.signature, ?_, fun sig h => absurd h List.not_mem_nil,
      hs.justified⟩
    intro _ sig d h hexpired
    exact .inr (hs.clears hrun (by rw [unasked, hphase]) h (hloaded ▸ hexpired))
  · exact hs

/-- The conditions of a run: heights grow, and nothing is missed. -/
def Timely (s : SendTransactionService) (e : ConfirmEvent) : Prop :=
  s.HeightsGrow e ∧ s.NothingMissed e

instance (s : SendTransactionService) : DecidablePred s.Timely := fun _ => instDecidableAnd

theorem Tracked.hand {s : SendTransactionService} (hs : s.Tracked)
    (handle : TransactionSourceId) (signature : Signature) (txnId : TransactionId)
    (sendToJito : Bool) : (s.hand handle signature txnId sendToJito).Tracked :=
  ⟨hs.loaded, hs.signature, hs.checked, hs.givenUp, hs.justified⟩

/-- Every step at which nothing is missed keeps the invariant. -/
theorem step_tracked (s : SendTransactionService) (e : ConfirmEvent) (hs : s.Tracked)
    (he : s.Timely e) : (step s e).Tracked := by
  obtain ⟨hgrow, hmiss⟩ := he
  cases e with
  | subscribe | subscribeAll | notifyBlockhash | land =>
    exact ⟨hs.loaded, hs.signature, hs.checked, hs.givenUp, hs.justified⟩
  | storeBlockHeight blockHeight =>
    exact ⟨hs.loaded.trans hgrow, hs.signature, hs.checked, hs.givenUp, hs.justified⟩
  | sendTransaction handle signature sendToJito =>
    simp only [step, sendTransaction]
    split
    · have hhand := hs.hand handle signature s.nextTxnId sendToJito
      exact ⟨hhand.loaded, hhand.signature, hhand.checked, hhand.givenUp, hhand.justified⟩
    · exact hs
  | resendTransaction handle signature txnId sendToJito =>
    simp only [step, resendTransaction]
    split
    · exact hs.hand handle signature txnId sendToJito
    · exact hs
  | recv => exact hs.recv hmiss
  | load iter => exact of_running hs fun hrun => hs.load hrun hmiss
  | statuses result => exact of_running hs fun hrun => hs.statuses hrun hmiss
  | collect iter => exact of_running hs fun _ => hs.collect iter
  | expire => exact of_running hs fun hrun => hs.expire hrun

/-! ## What has landed -/

/-- Whatever the service works on was handed to it, and no query has cleared a transaction
that has landed. -/
structure World (s : SendTransactionService) : Prop where
  consistent : ∀ d ∈ s.handed, ∀ d' ∈ s.handed, d.signature = d'.signature →
    d.lastValidBlockHeight = d'.lastValidBlockHeight
  channel : ∀ d ∈ s.newTransactions, d ∈ s.handed
  pending : ∀ sig d, s.unconfirmedTransactions.lookup sig = some d →
    d ∈ s.handed ∧ d.signature = sig
  unasked : ∀ sig ∈ s.unasked, ∃ d ∈ s.handed, d.signature = sig
  reports : ∀ d response, .report ⟨d, response⟩ ∈ s.log → d ∈ s.handed
  queries : ∀ h sigs statuses, .query h sigs statuses ∈ s.log →
    h ≤ s.blockHeight ∧ ∀ sig ∈ sigs, ∃ d ∈ s.handed, d.signature = sig
  cleared : ∀ q ∈ s.log, ∀ d ∈ s.handed, q.Clears d → d.signature ∉ s.landed

/-- No transaction that is reported as unconfirmed has landed. -/
def NeverLanded (s : SendTransactionService) : Prop :=
  ∀ d reason, .report ⟨d, .unconfirmed reason⟩ ∈ s.log → d.signature ∉ s.landed

theorem World.neverLanded {s : SendTransactionService} (hs : s.World)
    (hlog : Justified s.log) : s.NeverLanded := by
  intro d reason hmem
  obtain ⟨q, hq, hclears⟩ := hlog.clears hmem
  exact hs.cleared q hq d (hs.reports d _ hmem) hclears

theorem init_world (blockHeight lastValidBlockHeight : ℕ) :
    (init blockHeight lastValidBlockHeight).World where
  consistent := fun d h => absurd h List.not_mem_nil
  channel := fun d h => absurd h List.not_mem_nil
  pending := by
    intro sig d h
    rw [init, AList.lookup_empty] at h
    cases h
  unasked := fun sig h => absurd h List.not_mem_nil
  reports := fun d response h => absurd h List.not_mem_nil
  queries := fun h sigs statuses hmem => absurd hmem List.not_mem_nil
  cleared := fun q h => absurd h List.not_mem_nil

/-- A transaction is handed over whose signature stands for one blockhash. -/
theorem World.hand {s : SendTransactionService} (hs : s.World)
    (handle : TransactionSourceId) {signature : Signature} (txnId : TransactionId)
    (sendToJito : Bool) (htrue : ∀ d ∈ s.handed, d.signature = signature →
      d.lastValidBlockHeight = s.lastValidBlockHeight) :
    (s.hand handle signature txnId sendToJito).World where
  consistent := by
    intro d hd d' hd' hsig
    rcases List.mem_cons.mp hd with rfl | hd <;> rcases List.mem_cons.mp hd' with rfl | hd'
    · rfl
    · exact (htrue d' hd' hsig.symm).symm
    · exact htrue d hd hsig
    · exact hs.consistent d hd d' hd' hsig
  channel := by
    intro d hd
    rcases List.mem_append.mp hd with hd | hd
    · exact List.mem_cons_of_mem _ (hs.channel d hd)
    · obtain rfl := List.mem_singleton.mp hd
      exact List.mem_cons_self
  pending := by
    intro sig d h
    obtain ⟨hd, hsig⟩ := hs.pending sig d h
    exact ⟨List.mem_cons_of_mem _ hd, hsig⟩
  unasked := by
    intro sig hsig
    obtain ⟨d, hd, he⟩ := hs.unasked sig hsig
    exact ⟨d, List.mem_cons_of_mem _ hd, he⟩
  reports := fun d response h => List.mem_cons_of_mem _ (hs.reports d response h)
  queries := by
    intro h sigs statuses hmem
    obtain ⟨hle, hsigs⟩ := hs.queries h sigs statuses hmem
    refine ⟨hle, fun sig hsig => ?_⟩
    obtain ⟨d, hd, he⟩ := hsigs sig hsig
    exact ⟨d, List.mem_cons_of_mem _ hd, he⟩
  cleared := by
    intro q hq d hd hclears
    rcases List.mem_cons.mp hd with rfl | hd
    · cases q with
      | query h sigs statuses =>
        -- the query asked for an earlier transaction with the same signature
        obtain ⟨d, hd, he⟩ := (hs.queries h sigs statuses hq).2 _ hclears.2.1
        have hold := hs.cleared _ hq d hd (hclears.congr he (htrue d hd he))
        rwa [he] at hold
      | report => exact absurd hclears id
    · exact hs.cleared q hq d hd hclears

theorem World.recv {s : SendTransactionService} (hs : s.World) : s.recv.World := by
  unfold SendTransactionService.recv
  split
  · exact hs
  · rename_i data rest hchannel
    have hmem : ∀ d ∈ data :: rest, d ∈ s.handed := by
      rw [← hchannel]
      exact hs.channel
    refine ⟨hs.consistent, fun d hd => hmem d (List.mem_cons_of_mem _ hd), ?_, hs.unasked,
      hs.reports, hs.queries, hs.cleared⟩
    intro sig d h
    rcases Table.lookup_of_lookup_insert h with ⟨rfl, rfl⟩ | h
    · exact ⟨hmem d List.mem_cons_self, rfl⟩
    · exact hs.pending sig d h

/-- A transaction lands before it expires. -/
theorem World.land {s : SendTransactionService} (hs : s.World) {signature : Signature}
    (htrue : s.Truthful (.land signature)) : (step s (.land signature)).World := by
  refine ⟨hs.consistent, hs.channel, hs.pending, hs.unasked, hs.reports, hs.queries, ?_⟩
  intro q hq d hd hclears hmem
  rcases List.mem_cons.mp hmem with hsig | hmem
  · cases q with
    | query h sigs statuses =>
      have hle := (hs.queries h sigs statuses hq).1
      have hheight := htrue d hd hsig
      have hexpired := hclears.1
      omega
    | report => exact hclears
  · exact hs.cleared q hq d hd hclears hmem

/-- Only the phase changes, and nothing new is asked for. -/
theorem World.of_phase {s s' : SendTransactionService} (hs : s.World)
    (hheight : s'.blockHeight = s.blockHeight) (hchannel : s'.newTransactions = s.newTransactions)
    (hpending : s'.unconfirmedTransactions = s.unconfirmedTransactions)
    (hhanded : s'.handed = s.handed) (hlanded : s'.landed = s.landed) (hlog : s'.log = s.log)
    (hunasked : ∀ sig ∈ s'.unasked, ∃ d ∈ s.handed, d.signature = sig) : s'.World := by
  refine ⟨?_, ?_, ?_, ?_, ?_, ?_, ?_⟩
  · rw [hhanded]
    exact hs.consistent
  · rw [hchannel, hhanded]
    exact hs.channel
  · rw [hpending, hhanded]
    exact hs.pending
  · rw [hhanded]
    exact hunasked
  · rw [hlog, hhanded]
    exact hs.reports
  · rw [hlog, hhanded, hheight]
    exact hs.queries
  · rw [hlog, hhanded, hlanded]
    exact hs.cleared

theorem World.load {s : SendTransactionService} (hs : s.World) (iter : Iteration Signature) :
    (s.load iter).World := by
  unfold SendTransactionService.load
  split
  · exact hs.of_phase rfl rfl rfl rfl rfl rfl fun sig h => absurd h List.not_mem_nil
  · split
    · exact hs
    · refine hs.of_phase rfl rfl rfl rfl rfl rfl fun sig hsig => ?_
      obtain ⟨d, hd, -⟩ := mem_signaturesWhere.mp hsig
      exact ⟨d, hs.pending sig d hd⟩
  · exact hs

theorem World.collect {s : SendTransactionService} (hs : s.World)
    (iter : Iteration Signature) : (s.collect iter).World := by
  unfold SendTransactionService.collect
  split
  · exact hs.of_phase rfl rfl rfl rfl rfl rfl fun sig h => absurd h List.not_mem_nil
  · exact hs

/-- Confirming transactions reports what was in the map and asks for nothing. -/
theorem World.confirms {s s' : SendTransactionService} (hs : s.World) (h : s.Confirms s') :
    s'.World := by
  obtain ⟨reports, hlog, hreports⟩ := h.log
  constructor
  case consistent =>
    rw [h.handed]
    exact hs.consistent
  case channel =>
    rw [h.newTransactions, h.handed]
    exact hs.channel
  case pending =>
    rw [h.handed]
    exact fun sig d hl => hs.pending sig d (h.lookup sig d hl)
  case unasked =>
    rw [SendTransactionService.unasked, h.phase, h.handed]
    exact hs.unasked
  case reports =>
    rw [hlog, h.handed]
    intro d response hmem
    rcases List.mem_append.mp hmem with hmem | hmem
    · obtain ⟨sig, d', error, slot, he, hl⟩ := hreports _ hmem
      cases he
      exact (hs.pending sig d hl).1
    · exact hs.reports d response hmem
  case queries =>
    rw [hlog, h.handed, h.blockHeight]
    intro height sigs statuses hmem
    rcases List.mem_append.mp hmem with hmem | hmem
    · obtain ⟨_, _, _, _, he, -⟩ := hreports _ hmem
      cases he
    · exact hs.queries height sigs statuses hmem
  case cleared =>
    rw [hlog, h.handed, h.landed]
    intro q hq d hd hclears
    rcases List.mem_append.mp hq with hq | hq
    · obtain ⟨_, _, _, _, rfl, -⟩ := hreports q hq
      exact absurd hclears id
    · exact hs.cleared q hq d hd hclears

/-- A truthful answer clears nothing that has landed. -/
theorem World.statuses {s : SendTransactionService} (hs : s.World) (hloaded : s.Tracked)
    {result : Option (List (Option TransactionStatus))}
    (htrue : s.Truthful (.statuses result)) : (s.statuses result).World := by
  unfold SendTransactionService.statuses
  split
  · rename_i current sig rest hphase
    have hle : current ≤ s.blockHeight := by
      have hload := hloaded.loaded
      rwa [loadedBlockHeight, hphase] at hload
    have hunasked : ∀ sig' ∈ sig :: rest, ∃ d ∈ s.handed, d.signature = sig' := by
      have hall := hs.unasked
      rwa [SendTransactionService.unasked, hphase] at hall
    have hasked : s.asked = (sig :: rest).take maxGetSignatureStatusesQueryItems := by
      rw [asked, SendTransactionService.unasked, hphase]
    dsimp only
    split
    · exact hs.of_phase rfl rfl rfl rfl rfl rfl
        fun sig' hsig' => hunasked sig' (List.mem_of_mem_drop hsig')
    · rename_i statuses
      rw [← hasked]
      have hquery : (s.queried current (sig :: rest) statuses).World := by
        refine ⟨hs.consistent, hs.channel, hs.pending,
          fun sig' hsig' => hunasked sig' (List.mem_of_mem_drop hsig'), ?_, ?_, ?_⟩
        · intro d response hmem
          rcases List.mem_cons.mp hmem with he | hmem
          · cases he
          · exact hs.reports d response hmem
        · intro h sigs statuses' hmem
          rcases List.mem_cons.mp hmem with he | hmem
          · cases he
            refine ⟨hle, fun sig' hsig' => ?_⟩
            rw [hasked] at hsig'
            exact hunasked sig' (List.mem_of_mem_take hsig')
          · exact hs.queries h sigs statuses' hmem
        · intro q hq d hd hclears
          rcases List.mem_cons.mp hq with rfl | hq
          · intro hlanded
            obtain ⟨⟨sig', status⟩, hmem, hany⟩ :=
              List.any_eq_true.mp (htrue d.signature hclears.2.1 hlanded)
            rw [Bool.and_eq_true, decide_eq_true_eq] at hany
            obtain ⟨rfl, hany⟩ := hany
            obtain ⟨status, rfl, hsat⟩ := (Option.any_eq_true _ _).mp hany
            rw [hclears.2.2 status hmem] at hsat
            cases hsat
          · exact hs.cleared q hq d hd hclears
      exact hquery.confirms (confirms_foldl (s.asked.zip statuses) _)
  · exact hs

/-- Giving up a transaction is no query. -/
theorem World.expire {s : SendTransactionService} (hs : s.World) : s.expire.World := by
  unfold SendTransactionService.expire
  split
  · rename_i current sig rest hphase
    split
    · rename_i d hlookup
      have hpending : ∀ sig' d', AList.lookup sig' (s.unconfirmedTransactions.erase sig) =
          some d' → d' ∈ s.handed ∧ d'.signature = sig' :=
        fun sig' d' h => hs.pending sig' d' (Table.lookup_of_lookup_erase h)
      unfold answer
      dsimp only
      split
      · refine ⟨hs.consistent, hs.channel, hpending, fun sig h => absurd h List.not_mem_nil,
          ?_, ?_, ?_⟩
        · intro d' response hmem
          rcases List.mem_cons.mp hmem with he | hmem
          · cases he
            exact (hs.pending sig d hlookup).1
          · exact hs.reports d' response hmem
        · intro h sigs statuses hmem
          rcases List.mem_cons.mp hmem with he | hmem
          · cases he
          · exact hs.queries h sigs statuses hmem
        · intro q hq d' hd' hclears
          rcases List.mem_cons.mp hq with rfl | hq
          · exact absurd hclears id
          · exact hs.cleared q hq d' hd' hclears
      · exact ⟨hs.consistent, hs.channel, hpending, fun sig h => absurd h List.not_mem_nil,
          hs.reports, hs.queries, hs.cleared⟩
    · exact hs.of_phase rfl rfl rfl rfl rfl rfl hs.unasked
  · exact hs.of_phase rfl rfl rfl rfl rfl rfl fun sig h => absurd h List.not_mem_nil
  · exact hs

theorem step_world (s : SendTransactionService) (e : ConfirmEvent) (hs : s.World)
    (hload : s.Tracked) (hgrow : s.HeightsGrow e) (htrue : s.Truthful e) :
    (step s e).World := by
  cases e with
  | subscribe | subscribeAll | notifyBlockhash =>
    exact hs.of_phase rfl rfl rfl rfl rfl rfl hs.unasked
  | storeBlockHeight blockHeight =>
    refine ⟨hs.consistent, hs.channel, hs.pending, hs.unasked, hs.reports, ?_, hs.cleared⟩
    intro h sigs statuses hmem
    obtain ⟨hle, hsigs⟩ := hs.queries h sigs statuses hmem
    exact ⟨hle.trans hgrow, hsigs⟩
  | land signature => exact hs.land htrue
  | sendTransaction handle signature sendToJito =>
    simp only [step, sendTransaction]
    split
    · have hhand := hs.hand handle s.nextTxnId sendToJito htrue
      exact hhand.of_phase rfl rfl rfl rfl rfl rfl hhand.unasked
    · exact hs
  | resendTransaction handle signature txnId sendToJito =>
    simp only [step, resendTransaction]
    split
    · exact hs.hand handle txnId sendToJito htrue
    · exact hs
  | recv => exact hs.recv
  | load iter => exact of_running hs fun _ => hs.load iter
  | statuses result => exact of_running hs fun _ => hs.statuses hload htrue
  | collect iter => exact of_running hs fun _ => hs.collect iter
  | expire => exact of_running hs fun _ => hs.expire

/-- For non-decreasing block heights, as long as nothing is missed: a transaction is only
reported as unconfirmed after a query that was made when it had expired and that found no
status satisfying the commitment for it. When the RPC tells the truth, no transaction that
has landed is reported as unconfirmed. -/
theorem unconfirmed_justified {blockHeight lastValidBlockHeight : ℕ} {es : List ConfirmEvent}
    (h : Along step Timely (init blockHeight lastValidBlockHeight) es) :
    Visits step (fun s => Justified s.log) (init blockHeight lastValidBlockHeight) es ∧
      (Along step Truthful (init blockHeight lastValidBlockHeight) es →
        Visits step NeverLanded (init blockHeight lastValidBlockHeight) es) := by
  constructor
  · exact h.strengthen step_tracked (fun s e hs he => (step_tracked s e hs he).justified)
      (init_tracked _ _)
  · intro htrue
    have hstep : ∀ s e, Tracked s ∧ World s → s.Timely e ∧ s.Truthful e →
        Tracked (step s e) ∧ World (step s e) := fun s e hs he =>
      ⟨step_tracked s e hs.1 he.1, step_world s e hs.2 hs.1 he.1.1 he.2⟩
    refine (h.and htrue).strengthen hstep ?_ ⟨init_tracked _ _, init_world _ _⟩
    intro s e hs he
    have hnext := hstep s e hs he
    exact hnext.2.neverLanded hnext.1.justified

/-! ## A query that fails -/

/-- A transaction is sent, asked for while it is valid, and asked for once more when it has
just expired; `landing` comes between the two queries, and the second one is answered as
given. -/
def sampleExpired (landing : List ConfirmEvent)
    (answer : Option (List (Option TransactionStatus))) : List ConfirmEvent :=
  [.load (Iteration.stored _), .subscribe, .sendTransaction 1 7 false, .recv,
    .load (Iteration.stored _), .statuses (some [none]), .collect (Iteration.stored _),
    .expire] ++ landing ++
  [.storeBlockHeight 101,
    .load (Iteration.stored _), .statuses answer, .collect (Iteration.stored _), .expire,
    .load (Iteration.stored _), .collect (Iteration.stored _), .expire]

theorem unconfirmed_justified_sample :
    Along step Timely (init 90 100) (sampleExpired [] (some [none])) ∧
      Visits step (fun s => Justified s.log) (init 90 100) (sampleExpired [] (some [none])) ∧
      Visits step NeverLanded (init 90 100) (sampleExpired [] (some [none])) := by
  have h : Along step Timely (init 90 100) (sampleExpired [] (some [none])) := by
    decide +kernel
  have htrue : Along step Truthful (init 90 100) (sampleExpired [] (some [none])) := by
    decide +kernel
  exact ⟨h, (unconfirmed_justified h).1, (unconfirmed_justified h).2 htrue⟩

/-- What is reported in the end is that the transaction is unconfirmed. -/
example : (exec step (init 90 100) (sampleExpired [] (some [none]))).log.head? =
    some (.report ⟨⟨7, 100, 1, 1, false⟩, .unconfirmed .expired⟩) := by
  decide +kernel

/-- The transaction has landed in time and the RPC tells the truth, but the query that would
have shown it fails: the transaction is reported as unconfirmed, and no query made after it
had expired has missed it. -/
theorem not_justified_failed_query :
    Along step HeightsGrow (init 90 100) (sampleExpired [.land 7] none) ∧
      Along step Truthful (init 90 100) (sampleExpired [.land 7] none) ∧
      ¬ Justified (exec step (init 90 100) (sampleExpired [.land 7] none)).log ∧
      ¬ NeverLanded (exec step (init 90 100) (sampleExpired [.land 7] none)) := by
  have hlog : (exec step (init 90 100) (sampleExpired [.land 7] none)).log =
      [.report ⟨⟨7, 100, 1, 1, false⟩, .unconfirmed .expired⟩, .query 90 [7] [none]] := by
    decide +kernel
  have hlanded : (exec step (init 90 100) (sampleExpired [.land 7] none)).landed = [7] := by
    decide +kernel
  refine ⟨by decide +kernel, by decide +kernel, ?_, ?_⟩
  · rw [hlog]
    intro hjust
    obtain ⟨q, hq, hclears⟩ := hjust.1 _ _ rfl
    rw [List.mem_singleton.mp hq] at hclears
    exact absurd hclears.1 (by decide)
  · intro hnever
    refine hnever ⟨7, 100, 1, 1, false⟩ .expired ?_ ?_
    · rw [hlog]
      exact List.mem_cons_self
    · rw [hlanded]
      exact List.mem_cons_self

end SendTransactionService

end Biscuit.Wire
