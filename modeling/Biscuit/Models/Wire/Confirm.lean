import Biscuit.Core.Run
import Biscuit.Core.Table
import Biscuit.Models.Chain.Wire

/-!
# Sending and confirming

Handles put transactions into a channel, the sending task moves them into the map of
unconfirmed transactions, and the confirmation task looks them up on chain until they
satisfy the commitment or have expired. The tasks take their steps in any order, and the
confirmation task gives up control wherever another task can come in between.
-/

namespace Biscuit.Wire

/-- `MAX_GET_SIGNATURE_STATUSES_QUERY_ITEMS` -/
def maxGetSignatureStatusesQueryItems : ℕ := 256

/-- What the RPC tells about a signature. -/
structure TransactionStatus where
  slot : ℕ
  err : Option TransactionError
  /-- What `satisfies_commitment` tells for the commitment of the client. -/
  satisfiesCommitment : Bool
  deriving DecidableEq, Repr

/-- Where the confirmation task is. -/
inductive ConfirmPhase
  /-- Before its first load of the block height. -/
  | starting
  /-- Asleep between two iterations. -/
  | idle
  /-- Asking for statuses; these signatures are still to be asked for. -/
  | verifying (currentBlockHeight : ℕ) (signatures : List Signature)
  /-- Giving up expired transactions; these are still to be given up. -/
  | expiring (currentBlockHeight : ℕ) (signatures : List Signature)
  deriving DecidableEq, Repr

/-- What the run has seen. -/
inductive ConfirmRecord
  /-- A status query that succeeded, with the block height loaded before it was made. -/
  | query (blockHeight : ℕ) (signatures : List Signature)
      (statuses : List (Option TransactionStatus))
  /-- An answer to the sender of a transaction. -/
  | report (data : ConfirmTransactionData)
  deriving DecidableEq, Repr

/-- The sending service and its tasks. -/
structure SendTransactionService where
  nextTxnId : TransactionId
  nextSourceId : TransactionSourceId
  /-- The handles that were given out. -/
  handles : List TransactionSourceId
  /-- The keys of the subscribers map. -/
  subscribers : List TransactionSourceId
  /-- The last valid block height of the newest blockhash. -/
  lastValidBlockHeight : ℕ
  /-- `current_block_height` -/
  blockHeight : ℕ
  newTransactions : List SendTransactionData
  unconfirmedTransactions : Table Signature SendTransactionData
  lastBlockHeight : ℕ
  phase : ConfirmPhase
  /-- The confirmation task has panicked. -/
  panicked : Bool
  /-- What was handed to the service, newest first. -/
  handed : List SendTransactionData
  /-- The signatures that are on chain with the commitment of the client. -/
  landed : List Signature
  /-- Newest first. -/
  log : List ConfirmRecord

/-- What happens next. -/
inductive ConfirmEvent
  | subscribe
  | subscribeAll
  /-- The blockhash task has a new blockhash. -/
  | notifyBlockhash (lastValidBlockHeight : ℕ)
  /-- The blockhash task has a new block height. -/
  | storeBlockHeight (blockHeight : ℕ)
  | sendTransaction (handle : TransactionSourceId) (signature : Signature) (sendToJito : Bool)
  | resendTransaction (handle : TransactionSourceId) (signature : Signature)
      (txnId : TransactionId) (sendToJito : Bool)
  /-- The sending task takes a transaction out of its channel. -/
  | recv
  /-- A transaction lands. -/
  | land (signature : Signature)
  /-- The confirmation task loads the block height and collects what it has to verify. -/
  | load (iter : Iteration Signature)
  /-- The confirmation task gets the answer to a status query. -/
  | statuses (answer : Option (List (Option TransactionStatus)))
  /-- The confirmation task collects what has expired. -/
  | collect (iter : Iteration Signature)
  /-- The confirmation task gives up an expired transaction, or ends its iteration. -/
  | expire

/-- The transaction has expired, but not yet at the previous iteration. -/
def isRecentlyExpired (last current : ℕ) (d : SendTransactionData) : Bool :=
  decide (last ≤ d.lastValidBlockHeight) && decide (d.lastValidBlockHeight < current)

/-- Whether the status of a transaction is asked for. -/
def toVerify (last current : ℕ) (d : SendTransactionData) : Bool :=
  decide (current ≤ d.lastValidBlockHeight) || isRecentlyExpired last current d

/-- Whether a transaction is given up. -/
def isGivenUp (last current : ℕ) (d : SendTransactionData) : Bool :=
  decide (d.lastValidBlockHeight < current) && !isRecentlyExpired last current d

/-- The error that is reported; a transaction that was already processed has none. -/
def reportedError : Option TransactionError → Option TransactionError
  | some .alreadyProcessed => none
  | e => e

namespace SendTransactionService

/-- The service at its start. Both counters start at one. -/
def init (blockHeight lastValidBlockHeight : ℕ) : SendTransactionService :=
  ⟨1, 1, [], [], lastValidBlockHeight, blockHeight, [], ∅, 0, .starting, false, [], [], []⟩

/-! ## The handles -/

/-- A handle whose confirmations go to a channel of its own. -/
def subscribe (s : SendTransactionService) : SendTransactionService :=
  { s with
    nextSourceId := s.nextSourceId + 1
    handles := s.nextSourceId :: s.handles
    subscribers := s.nextSourceId :: s.subscribers }

/-- A handle whose holder listens to all confirmations. -/
def subscribeAll (s : SendTransactionService) : SendTransactionService :=
  { s with
    nextSourceId := s.nextSourceId + 1
    handles := s.nextSourceId :: s.handles }

/-- A signed transaction goes into the channel of the sending task. -/
def hand (s : SendTransactionService) (handle : TransactionSourceId) (signature : Signature)
    (txnId : TransactionId) (sendToJito : Bool) : SendTransactionService :=
  let data : SendTransactionData :=
    ⟨signature, s.lastValidBlockHeight, txnId, handle, sendToJito⟩
  { s with newTransactions := s.newTransactions ++ [data], handed := data :: s.handed }

/-- A transaction that is sent for the first time gets an id. -/
def sendTransaction (s : SendTransactionService) (handle : TransactionSourceId)
    (signature : Signature) (sendToJito : Bool) : SendTransactionService :=
  if handle ∈ s.handles then
    { s.hand handle signature s.nextTxnId sendToJito with nextTxnId := s.nextTxnId + 1 }
  else s

/-- A transaction that is sent again keeps its id. -/
def resendTransaction (s : SendTransactionService) (handle : TransactionSourceId)
    (signature : Signature) (txnId : TransactionId) (sendToJito : Bool) :
    SendTransactionService :=
  if handle ∈ s.handles then s.hand handle signature txnId sendToJito else s

/-! ## The sending task -/

/-- What enters the map replaces what has the same signature. -/
def recv (s : SendTransactionService) : SendTransactionService :=
  match s.newTransactions with
  | [] => s
  | data :: rest =>
    { s with
      newTransactions := rest
      unconfirmedTransactions := s.unconfirmedTransactions.insert data.signature data }

/-! ## The confirmation task -/

/-- The signatures in the map that meet a condition, in the order of one traversal. -/
def signaturesWhere (s : SendTransactionService) (p : SendTransactionData → Bool)
    (iter : Iteration Signature) : List Signature :=
  (iter.order s.unconfirmedTransactions.keys).filter fun signature =>
    (s.unconfirmedTransactions.lookup signature).any p

/-- The iteration starts, unless the map is empty. -/
def load (s : SendTransactionService) (iter : Iteration Signature) : SendTransactionService :=
  match s.phase with
  | .starting => { s with lastBlockHeight := s.blockHeight, phase := .idle }
  | .idle =>
    if s.unconfirmedTransactions.keys.isEmpty then s
    else
      { s with
        phase := .verifying s.blockHeight
          (s.signaturesWhere (toVerify s.lastBlockHeight s.blockHeight) iter) }
  | _ => s

/-- A transaction leaves the map with an answer. Its sender is looked up in the subscribers
map, and the task panics where it is not there. -/
def answer (s : SendTransactionService) (signature : Signature) (data : SendTransactionData)
    (response : ConfirmTransactionResponse) : SendTransactionService :=
  let s := { s with unconfirmedTransactions := s.unconfirmedTransactions.erase signature }
  if data.sourceId ∈ s.subscribers then { s with log := .report ⟨data, response⟩ :: s.log }
  else { s with panicked := true }

/-- One status of an answer. -/
def confirmOne (s : SendTransactionService) (r : Signature × Option TransactionStatus) :
    SendTransactionService :=
  if s.panicked then s
  else
    match r.2.filter TransactionStatus.satisfiesCommitment,
      s.unconfirmedTransactions.lookup r.1 with
    | some status, some data =>
      s.answer r.1 data (.confirmed (reportedError status.err) status.slot)
    | _, _ => s

/-- The answer to the next query; a failed query is logged and left at that. -/
def statuses (s : SendTransactionService) (result : Option (List (Option TransactionStatus))) :
    SendTransactionService :=
  match s.phase with
  | .verifying current (sig :: rest) =>
    let signatures := (sig :: rest).take maxGetSignatureStatusesQueryItems
    let s := { s with
      phase := .verifying current ((sig :: rest).drop maxGetSignatureStatusesQueryItems) }
    match result with
    | none => s
    | some statuses =>
      (signatures.zip statuses).foldl confirmOne
        { s with log := .query current signatures statuses :: s.log }
  | _ => s

/-- When all queries are made, the expired transactions are collected. -/
def collect (s : SendTransactionService) (iter : Iteration Signature) :
    SendTransactionService :=
  match s.phase with
  | .verifying current [] =>
    { s with
      phase := .expiring current (s.signaturesWhere (isGivenUp s.lastBlockHeight current) iter) }
  | _ => s

/-- An expired transaction is given up; after the last one the iteration is over. -/
def expire (s : SendTransactionService) : SendTransactionService :=
  match s.phase with
  | .expiring current (signature :: rest) =>
    match s.unconfirmedTransactions.lookup signature with
    | some data =>
      { s with phase := .expiring current rest }.answer signature data (.unconfirmed .expired)
    -- an attempted duplicate removal
    | none => { s with panicked := true }
  | .expiring current [] => { s with lastBlockHeight := current, phase := .idle }
  | _ => s

/-- One step; a task that has panicked takes none. -/
def step (s : SendTransactionService) : ConfirmEvent → SendTransactionService
  | .subscribe => s.subscribe
  | .subscribeAll => s.subscribeAll
  | .notifyBlockhash lastValidBlockHeight =>
    { s with lastValidBlockHeight := lastValidBlockHeight }
  | .storeBlockHeight blockHeight => { s with blockHeight := blockHeight }
  | .sendTransaction handle signature sendToJito =>
    s.sendTransaction handle signature sendToJito
  | .resendTransaction handle signature txnId sendToJito =>
    s.resendTransaction handle signature txnId sendToJito
  | .recv => s.recv
  | .land signature => { s with landed := signature :: s.landed }
  | .load iter => if s.panicked then s else s.load iter
  | .statuses result => if s.panicked then s else s.statuses result
  | .collect iter => if s.panicked then s else s.collect iter
  | .expire => if s.panicked then s else s.expire

/-- What a step of the confirmation task keeps, it keeps: a task that has panicked does
nothing any more. -/
theorem of_running {P : SendTransactionService → Prop} {s s' : SendTransactionService}
    (hs : P s) (h : s.panicked = false → P s') : P (if s.panicked then s else s') := by
  cases hrun : s.panicked with
  | true => exact hs
  | false => exact h hrun

/-! ## What the collecting and the answering do -/

theorem signaturesWhere_nodup (s : SendTransactionService) (p : SendTransactionData → Bool)
    (iter : Iteration Signature) : (s.signaturesWhere p iter).Nodup :=
  (iter.nodup_order.mpr s.unconfirmedTransactions.keys_nodup).filter _

theorem mem_signaturesWhere {s : SendTransactionService} {p : SendTransactionData → Bool}
    {iter : Iteration Signature} {sig : Signature} :
    sig ∈ s.signaturesWhere p iter ↔
      ∃ d, s.unconfirmedTransactions.lookup sig = some d ∧ p d = true := by
  rw [signaturesWhere, List.mem_filter, iter.mem_order, ← AList.mem_keys]
  constructor
  · rintro ⟨-, h⟩
    exact (Option.any_eq_true _ _).mp h
  · rintro ⟨d, hd, hp⟩
    exact ⟨Table.mem_iff_lookup.mpr ⟨d, hd⟩, (Option.any_eq_true _ _).mpr ⟨d, hd, hp⟩⟩

/-- What answering senders of confirmed transactions does: transactions leave the map, and
nothing but reports of confirmations is added to the log. -/
structure Confirms (s s' : SendTransactionService) : Prop where
  phase : s'.phase = s.phase
  blockHeight : s'.blockHeight = s.blockHeight
  newTransactions : s'.newTransactions = s.newTransactions
  handed : s'.handed = s.handed
  landed : s'.landed = s.landed
  panicked : s.panicked = true → s'.panicked = true
  lookup : ∀ sig d, s'.unconfirmedTransactions.lookup sig = some d →
    s.unconfirmedTransactions.lookup sig = some d
  log : ∃ reports, s'.log = reports ++ s.log ∧ ∀ r ∈ reports,
    ∃ sig d error slot, r = .report ⟨d, .confirmed error slot⟩ ∧
      s.unconfirmedTransactions.lookup sig = some d

theorem Confirms.refl (s : SendTransactionService) : s.Confirms s where
  phase := rfl
  blockHeight := rfl
  newTransactions := rfl
  handed := rfl
  landed := rfl
  panicked := id
  lookup := fun _ _ h => h
  log := ⟨[], rfl, fun _ h => absurd h List.not_mem_nil⟩

theorem Confirms.trans {s s' s'' : SendTransactionService} (h : s.Confirms s')
    (h' : s'.Confirms s'') : s.Confirms s'' where
  phase := h'.phase.trans h.phase
  blockHeight := h'.blockHeight.trans h.blockHeight
  newTransactions := h'.newTransactions.trans h.newTransactions
  handed := h'.handed.trans h.handed
  landed := h'.landed.trans h.landed
  panicked := fun hp => h'.panicked (h.panicked hp)
  lookup := fun sig d hl => h.lookup sig d (h'.lookup sig d hl)
  log := by
    obtain ⟨reports, hlog, hreports⟩ := h.log
    obtain ⟨reports', hlog', hreports'⟩ := h'.log
    refine ⟨reports' ++ reports, by rw [hlog', hlog, List.append_assoc], ?_⟩
    intro r hr
    rcases List.mem_append.mp hr with hr | hr
    · obtain ⟨sig, d, error, slot, he, hl⟩ := hreports' r hr
      exact ⟨sig, d, error, slot, he, h.lookup sig d hl⟩
    · exact hreports r hr

theorem confirms_confirmOne (s : SendTransactionService)
    (r : Signature × Option TransactionStatus) : s.Confirms (s.confirmOne r) := by
  unfold confirmOne
  split
  · exact .refl s
  split
  · rename_i status d _ hlookup
    unfold answer
    dsimp only
    split
    · refine ⟨rfl, rfl, rfl, rfl, rfl, id, fun _ _ h => Table.lookup_of_lookup_erase h, ?_⟩
      refine ⟨[.report ⟨d, .confirmed (reportedError status.err) status.slot⟩], rfl, ?_⟩
      intro r' hr'
      obtain rfl := List.mem_singleton.mp hr'
      exact ⟨_, d, _, _, rfl, hlookup⟩
    · exact ⟨rfl, rfl, rfl, rfl, rfl, fun _ => rfl, fun _ _ h => Table.lookup_of_lookup_erase h,
        [], rfl, fun _ h => absurd h List.not_mem_nil⟩
  · exact .refl s

theorem confirms_foldl (rs : List (Signature × Option TransactionStatus))
    (s : SendTransactionService) : s.Confirms (rs.foldl confirmOne s) := by
  induction rs generalizing s with
  | nil => exact .refl s
  | cons r rs ih => exact (confirms_confirmOne s r).trans (ih _)

/-- A status that satisfies the commitment takes its transaction out of the map. -/
theorem lookup_foldl_confirmOne {rs : List (Signature × Option TransactionStatus)}
    {s : SendTransactionService} {sig : Signature} {status : TransactionStatus}
    (hmem : (sig, some status) ∈ rs) (hsat : status.satisfiesCommitment = true)
    (hrun : (rs.foldl confirmOne s).panicked = false) :
    (rs.foldl confirmOne s).unconfirmedTransactions.lookup sig = none := by
  induction rs generalizing s with
  | nil => exact absurd hmem List.not_mem_nil
  | cons r rs ih =>
    rw [List.foldl_cons] at hrun ⊢
    rcases List.mem_cons.mp hmem with rfl | hmem
    · have hnone : (s.confirmOne (sig, some status)).unconfirmedTransactions.lookup sig = none := by
        have hgo : s.panicked ≠ true := by
          intro hp
          have hp' := ((confirms_confirmOne s (sig, some status)).trans
            (confirms_foldl rs _)).panicked hp
          rw [hrun] at hp'
          cases hp'
        rw [confirmOne, if_neg hgo]
        simp only [Option.filter_some_pos hsat]
        cases hl : s.unconfirmedTransactions.lookup sig with
        | none => exact hl
        | some d =>
          simp only [answer]
          split <;> exact AList.lookup_erase sig _
      by_contra hne
      obtain ⟨d, hd⟩ := Option.ne_none_iff_exists'.mp hne
      have hback := (confirms_foldl rs _).lookup sig d hd
      rw [hnone] at hback
      cases hback
    · exact ih hmem hrun

end SendTransactionService

end Biscuit.Wire
