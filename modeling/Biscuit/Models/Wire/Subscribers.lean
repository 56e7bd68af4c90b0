import Biscuit.Models.Wire.Confirm

/-!
# Who is told about a transaction

The confirmation task looks the sender of a transaction up in the subscribers map, which
only `subscribe` fills. It never panics as long as every transaction is sent by such a
subscriber.
-/

namespace Biscuit.Wire.SendTransactionService

/-- Transactions are sent through handles that `subscribe` gave out. -/
def SendsSubscribed (s : SendTransactionService) : ConfirmEvent → Prop
  | .sendTransaction handle _ _ => handle ∈ s.subscribers
  | .resendTransaction handle _ _ _ => handle ∈ s.subscribers
  | _ => True

instance (s : SendTransactionService) : DecidablePred s.SendsSubscribed := fun e => by
  cases e <;> unfold SendsSubscribed <;> infer_instance

/-- Every sender is subscribed, and whatever is being given up is still in the map. -/
structure Listening (s : SendTransactionService) : Prop where
  channel : ∀ d ∈ s.newTransactions, d.sourceId ∈ s.subscribers
  pending : ∀ sig d, s.unconfirmedTransactions.lookup sig = some d → d.sourceId ∈ s.subscribers
  expiring : ∀ current rest, s.phase = .expiring current rest →
    rest.Nodup ∧ ∀ sig ∈ rest, sig ∈ s.unconfirmedTransactions
  running : s.panicked = false

theorem init_listening (blockHeight lastValidBlockHeight : ℕ) :
    (init blockHeight lastValidBlockHeight).Listening where
  channel := fun d h => absurd h List.not_mem_nil
  pending := by
    intro sig d h
    rw [init, AList.lookup_empty] at h
    cases h
  expiring := by rintro current rest ⟨⟩
  running := rfl

/-- More subscribers are as good. -/
theorem Listening.subscribers {s : SendTransactionService} (hs : s.Listening)
    {ids : List TransactionSourceId} (hids : ∀ id ∈ s.subscribers, id ∈ ids)
    (next : TransactionSourceId) (handles : List TransactionSourceId) :
    Listening { s with nextSourceId := next, handles := handles, subscribers := ids } where
  channel := fun d hd => hids _ (hs.channel d hd)
  pending := fun sig d h => hids _ (hs.pending sig d h)
  expiring := hs.expiring
  running := hs.running

theorem Listening.hand {s : SendTransactionService} (hs : s.Listening)
    {handle : TransactionSourceId} (hhandle : handle ∈ s.subscribers) (signature : Signature)
    (txnId : TransactionId) (sendToJito : Bool) :
    (s.hand handle signature txnId sendToJito).Listening where
  channel := by
    intro d hd
    rcases List.mem_append.mp hd with hd | hd
    · exact hs.channel d hd
    · obtain rfl := List.mem_singleton.mp hd
      exact hhandle
  pending := hs.pending
  expiring := hs.expiring
  running := hs.running

theorem Listening.recv {s : SendTransactionService} (hs : s.Listening) : s.recv.Listening := by
  unfold SendTransactionService.recv
  split
  · exact hs
  · rename_i data rest hchannel
    refine ⟨?_, ?_, ?_, hs.running⟩
    · intro d hd
      apply hs.channel d
      rw [hchannel]
      exact List.mem_cons_of_mem _ hd
    · intro sig d h
      rcases Table.lookup_of_lookup_insert h with ⟨rfl, rfl⟩ | h
      · apply hs.channel d
        rw [hchannel]
        exact List.mem_cons_self
      · exact hs.pending sig d h
    · intro current rest' hphase
      obtain ⟨hnodup, hmem⟩ := hs.expiring current rest' hphase
      exact ⟨hnodup, fun sig hsig => (AList.mem_insert _).mpr (.inr (hmem sig hsig))⟩

/-- Answering a subscriber about a transaction that is not being given up. -/
theorem Listening.answer {s : SendTransactionService} (hs : s.Listening) {sig : Signature}
    {d : SendTransactionData} (hlookup : s.unconfirmedTransactions.lookup sig = some d)
    (hphase : ∀ current rest, s.phase = .expiring current rest → sig ∉ rest)
    (response : ConfirmTransactionResponse) : (s.answer sig d response).Listening := by
  unfold SendTransactionService.answer
  rw [if_pos (hs.pending sig d hlookup)]
  refine ⟨hs.channel, fun sig' d' h => hs.pending sig' d' (Table.lookup_of_lookup_erase h), ?_,
    hs.running⟩
  intro current rest hrest
  obtain ⟨hnodup, hmem⟩ := hs.expiring current rest hrest
  refine ⟨hnodup, fun sig' hsig' => AList.mem_erase.mpr ⟨?_, hmem sig' hsig'⟩⟩
  rintro rfl
  exact hphase current rest hrest hsig'

theorem Listening.confirmOne {s : SendTransactionService} (hs : s.Listening)
    (hphase : ∀ current rest, s.phase ≠ .expiring current rest)
    (r : Signature × Option TransactionStatus) : (s.confirmOne r).Listening := by
  unfold SendTransactionService.confirmOne
  split
  · exact hs
  · split
    · rename_i hlookup
      exact hs.answer hlookup (fun current rest h => absurd h (hphase current rest)) _
    · exact hs

theorem Listening.foldl_confirmOne (rs : List (Signature × Option TransactionStatus))
    {s : SendTransactionService} (hs : s.Listening)
    (hphase : ∀ current rest, s.phase ≠ .expiring current rest) :
    (rs.foldl SendTransactionService.confirmOne s).Listening := by
  induction rs generalizing s with
  | nil => exact hs
  | cons r rs ih =>
    apply ih (hs.confirmOne hphase r)
    rw [(confirms_confirmOne s r).phase]
    exact hphase

theorem Listening.load {s : SendTransactionService} (hs : s.Listening)
    (iter : Iteration Signature) : (s.load iter).Listening := by
  unfold SendTransactionService.load
  split
  · exact ⟨hs.channel, hs.pending, by rintro current rest ⟨⟩, hs.running⟩
  · split
    · exact hs
    · exact ⟨hs.channel, hs.pending, by rintro current rest ⟨⟩, hs.running⟩
  · exact hs

theorem Listening.statuses {s : SendTransactionService} (hs : s.Listening)
    (result : Option (List (Option TransactionStatus))) : (s.statuses result).Listening := by
  unfold SendTransactionService.statuses
  split
  · dsimp only
    split
    · exact ⟨hs.channel, hs.pending, by rintro current rest ⟨⟩, hs.running⟩
    · refine Listening.foldl_confirmOne _
        ⟨hs.channel, hs.pending, by rintro current rest ⟨⟩, hs.running⟩ ?_
      rintro current rest ⟨⟩
  · exact hs

theorem Listening.collect {s : SendTransactionService} (hs : s.Listening)
    (iter : Iteration Signature) : (s.collect iter).Listening := by
  unfold SendTransactionService.collect
  split
  · refine ⟨hs.channel, hs.pending, ?_, hs.running⟩
    rintro current rest ⟨⟩
    refine ⟨s.signaturesWhere_nodup _ iter, fun sig hsig => ?_⟩
    obtain ⟨d, hd, -⟩ := mem_signaturesWhere.mp hsig
    exact Table.mem_iff_lookup.mpr ⟨d, hd⟩
  · exact hs

theorem Listening.expire {s : SendTransactionService} (hs : s.Listening) :
    s.expire.Listening := by
  unfold SendTransactionService.expire
  split
  · rename_i current sig rest hphase
    obtain ⟨hnodup, hmem⟩ := hs.expiring _ _ hphase
    obtain ⟨hnot, hrest⟩ := List.nodup_cons.mp hnodup
    split
    · rename_i d hlookup
      have hpopped : Listening { s with phase := .expiring current rest } := by
        refine ⟨hs.channel, hs.pending, ?_, hs.running⟩
        rintro current' rest' ⟨⟩
        exact ⟨hrest, fun sig' h => hmem sig' (List.mem_cons_of_mem _ h)⟩
      refine hpopped.answer hlookup ?_ _
      rintro current' rest' ⟨⟩
      exact hnot
    · rename_i hlookup
      exact absurd (hmem sig List.mem_cons_self) (AList.lookup_eq_none.mp hlookup)
  · exact ⟨hs.channel, hs.pending, by rintro current rest ⟨⟩, hs.running⟩
  · exact hs

/-- Every step at which only subscribers send keeps the invariant. -/
theorem step_listening (s : SendTransactionService) (e : ConfirmEvent) (hs : s.Listening)
    (he : s.SendsSubscribed e) : (step s e).Listening := by
  cases e with
  | subscribe => exact hs.subscribers (fun id h => List.mem_cons_of_mem _ h) _ _
  | subscribeAll => exact hs.subscribers (fun id h => h) _ _
  | notifyBlockhash | storeBlockHeight | land =>
    exact ⟨hs.channel, hs.pending, hs.expiring, hs.running⟩
  | sendTransaction handle signature sendToJito =>
    simp only [step, sendTransaction]
    split
    · have hhand := hs.hand he signature s.nextTxnId sendToJito
      exact ⟨hhand.channel, hhand.pending, hhand.expiring, hhand.running⟩
    · exact hs
  | resendTransaction handle signature txnId sendToJito =>
    simp only [step, resendTransaction]
    split
    · exact hs.hand he signature txnId sendToJito
    · exact hs
  | recv => exact hs.recv
  | load iter => exact of_running hs fun _ => hs.load iter
  | statuses result => exact of_running hs fun _ => hs.statuses result
  | collect iter => exact of_running hs fun _ => hs.collect iter
  | expire => exact of_running hs fun _ => hs.expire

/-- For all answers of the RPC and every evolution of the block height: as long as every
transaction is sent through a handle of `subscribe`, the confirmation task never panics. -/
theorem never_panics_of_subscribed {blockHeight lastValidBlockHeight : ℕ}
    {es : List ConfirmEvent}
    (h : Along step SendsSubscribed (init blockHeight lastValidBlockHeight) es) :
    Visits step (fun s => s.panicked = false) (init blockHeight lastValidBlockHeight) es :=
  h.strengthen step_listening (fun s e hs he => (step_listening s e hs he).running)
    (init_listening _ _)

/-- One transaction is sent, found on chain and confirmed. -/
def sampleConfirmed (subscription : ConfirmEvent) : List ConfirmEvent :=
  [.load (Iteration.stored _), subscription, .sendTransaction 1 7 false, .recv,
    .load (Iteration.stored _), .statuses (some [some ⟨200, none, true⟩])]

theorem never_panics_of_subscribed_sample :
    Along step SendsSubscribed (init 90 100) (sampleConfirmed .subscribe) ∧
      Visits step (fun s => s.panicked = false) (init 90 100) (sampleConfirmed .subscribe) :=
  have h : Along step SendsSubscribed (init 90 100) (sampleConfirmed .subscribe) := by
    decide +kernel
  ⟨h, never_panics_of_subscribed h⟩

/-- The confirmation of a transaction that was sent through a handle of `subscribe_all`
finds no subscriber. -/
theorem not_never_panics_subscribeAll :
    ¬ (exec step (init 90 100) (sampleConfirmed .subscribeAll)).panicked = false := by
  decide +kernel

end Biscuit.Wire.SendTransactionService
