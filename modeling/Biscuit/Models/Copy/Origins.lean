import Biscuit.Core.Pointwise
import Biscuit.Core.Provenance
import Biscuit.Models.Copy.Quiescence
import Biscuit.Models.Copy.Success

/-!
# What a job and a trade stem from

A job keeps the origin transaction that it was created for through every stage, and what is
recorded when its transaction is confirmed is booked under that origin. A job that has left the
pipeline stays out of it, so that each side of a copy is recorded once at most.
-/

namespace Biscuit.Copy

/-- The details belong to the copy of an origin transaction, at whatever stage it is. -/
structure CopyDetails.StemsFrom (d : CopyDetails) (t : OriginTrade) : Prop where
  signature : d.originSignature = t.signature
  signer : d.originSigner = t.signer
  swap : ∃ tokenDecimals, d.originSwap = { t.swap with tokenDecimals }
  solBalance : d.originSolBalance = t.solBalance
  inputMintBalance : d.originInputMintBalance = t.inputMintBalance
  wallet : d.walletConfig = t.walletConfig

/-- A recorded trade is the sell or the buy of an origin transaction. -/
structure CopyTrade.StemsFrom (trade : CopyTrade) (t : OriginTrade) : Prop where
  signature : trade.originSignature = t.signature
  wallet : trade.originWallet = t.signer
  side : trade.direction = .sell ∧ trade.token = t.swap.inputTokenMint ∨
    trade.direction = .buy ∧ trade.token = t.swap.outputTokenMint

/-- The trade is a side of the copy of the transaction with some signature. -/
def CopyTrade.isSide (signature : Signature) (direction : TradeDirection) (trade : CopyTrade) :
    Bool :=
  trade.originSignature == signature && decide (trade.direction = direction)

/-- The job copies the transaction with some signature. -/
def Job.isFor (signature : Signature) (j : Job) : Bool := j.details.originSignature == signature

/-- The job copies the transaction with some signature and has left the pipeline. -/
def Job.isGone (signature : Signature) (j : Job) : Bool := j.isFor signature && !j.stage.isLive

/-! ## A job keeps its origin -/

theorem OriginTrade.details_stemsFrom (cfg : CopyConfig) (t : OriginTrade) :
    (t.details cfg).StemsFrom t :=
  ⟨rfl, rfl, ⟨t.swap.tokenDecimals, rfl⟩, rfl, rfl, rfl⟩

theorem SameOrigin.stemsFrom {d d' : CopyDetails} (h : SameOrigin d d') {t : OriginTrade}
    (hd : d.StemsFrom t) : d'.StemsFrom t where
  signature := h.signature.trans hd.signature
  signer := h.signer.trans hd.signer
  swap := hd.swap.imp fun _ hswap => h.swap.trans hswap
  solBalance := h.solBalance.trans hd.solBalance
  inputMintBalance := h.inputMintBalance.trans hd.inputMintBalance
  wallet := h.wallet.trans hd.wallet

/-- Deriving an order keeps the origin. -/
theorem getExecutionInput_stemsFrom {cfg : CopyConfig} {env : ExecEnv} {s : Shared}
    {d : CopyDetails} {t : OriginTrade} (h : d.StemsFrom t) :
    (getExecutionInput cfg env s d).2.1.StemsFrom t := by
  obtain ⟨tokenDecimals, copyType, hd⟩ := getExecutionInput_details cfg env s d
  obtain ⟨decimals, hswap⟩ := h.swap
  rw [hd]
  exact ⟨h.signature, h.signer, ⟨tokenDecimals, by rw [hswap]⟩, h.solBalance,
    h.inputMintBalance, h.wallet⟩

/-- What a job is after a step: still the copy of its transaction, and still gone if it was. -/
structure Job.Continues (j j' : Job) : Prop where
  stems : ∀ t, j.details.StemsFrom t → j'.details.StemsFrom t
  signature : j'.details.originSignature = j.details.originSignature
  gone : j.stage.isLive = false → j'.stage.isLive = false

namespace Job.Continues

theorem refl (j : Job) : j.Continues j := ⟨fun _ h => h, rfl, id⟩

theorem trans {j j' j'' : Job} (h : j.Continues j') (h' : j'.Continues j'') : j.Continues j'' where
  stems t ht := h'.stems t (h.stems t ht)
  signature := h'.signature.trans h.signature
  gone hj := h'.gone (h.gone hj)

/-- A job whose details keep their origin continues, unless it comes back. -/
theorem of_sameOrigin {d d' : CopyDetails} (h : SameOrigin d d') {stage stage' : Stage}
    {calls calls' : List ℕ} (hlive : stage.isLive = true) :
    Job.Continues ⟨d, stage, calls⟩ ⟨d', stage', calls'⟩ where
  stems _ := h.stemsFrom
  signature := h.signature
  gone hgone := absurd (hlive.symm.trans hgone) Bool.noConfusion

theorem leave (d : CopyDetails) (stage : Stage) (exit : Exit) (calls : List ℕ) :
    Job.Continues ⟨d, stage, calls⟩ ⟨d, .done exit, calls⟩ := ⟨fun _ h => h, rfl, fun _ => rfl⟩

/-- A job that was gone is gone, for the same transaction. -/
theorem isGone {j j' : Job} (h : j.Continues j') {signature : Signature}
    (hgone : j.isGone signature = true) : j'.isGone signature = true := by
  simp only [Job.isGone, Job.isFor, Bool.and_eq_true, Bool.not_eq_true'] at hgone ⊢
  rw [h.signature]
  exact ⟨hgone.1, h.gone hgone.2⟩

end Job.Continues

/-- A step of a job continues it. -/
theorem JobStep.continues {cfg : CopyConfig} {j j' : Job} (h : JobStep cfg j j') :
    j.Continues j' := by
  cases h with
  | received d calls => exact .of_sameOrigin (.refl d) rfl
  | derived env s d calls =>
    refine ⟨fun t ht => getExecutionInput_stemsFrom ht, ?_, fun hgone => by cases hgone⟩
    obtain ⟨tokenDecimals, copyType, hd⟩ := getExecutionInput_details cfg env s d
    rw [hd]
  | attempted env d input attempts calls =>
    exact .of_sameOrigin (processExecutionInput_sameOrigin cfg env input d) rfl
  | sent d tx txnId insertedAt calls => exact .of_sameOrigin (.refl d) rfl
  | requeued hasRoom response d d' txnId insertedAt calls hconfirm =>
    have hsame := handleConfirmation_sameOrigin hconfirm
    cases hasRoom <;> exact .of_sameOrigin hsame rfl
  | resent response d d' tx txnId insertedAt stage calls hconfirm =>
    have hsame : SameOrigin d d' := by
      rw [handleConfirmation_resend hconfirm]
      exact ⟨rfl, rfl, rfl, rfl, rfl, rfl, rfl⟩
    exact .of_sameOrigin hsame rfl
  | left d stage exit calls => exact .leave d stage exit calls

namespace Service

section

variable {R : Job → Job → Prop} {P : Job → Prop} {cfg : CopyConfig}

/-- Shedding lets a job leave or leaves it alone. -/
theorem forall₂_shedJobs (hrefl : ∀ j, R j j)
    (hshed : ∀ j : Job, R j { j with stage := .done .shed }) (s : Service) :
    List.Forall₂ R s.jobs (s.shedJobs cfg) := by
  unfold shedJobs
  split
  · rw [List.forall₂_map_right_iff]
    refine List.forall₂_same.mpr fun j _ => ?_
    unfold shedJob
    split
    · split
      · exact hshed j
      · exact hrefl j
    · exact hrefl j
  · exact forall₂_refl hrefl s.jobs

/-- What every step of a job is related by relates every job to what becomes of it, in its place,
in a step that delivers nothing. -/
theorem forall₂_jobs_step (hrefl : ∀ j, R j j) (htrans : ∀ j j' j'', R j j' → R j' j'' → R j j'')
    (hshed : ∀ j : Job, R j { j with stage := .done .shed })
    (hstep : ∀ j j', P j → JobStep cfg j j' → R j j') {s : Service} (hP : ∀ j ∈ s.jobs, P j)
    {e : ServiceEvent} (he : e.isDelivery = false) :
    List.Forall₂ R s.jobs (s.step cfg e).jobs := by
  have hset : ∀ {i : ℕ} {j j' : Job}, s.jobs[i]? = some j → JobStep cfg j j' →
      List.Forall₂ R s.jobs (s.jobs.set i j') := fun hi h =>
    forall₂_set (forall₂_refl hrefl s.jobs) hi (hstep _ _ (hP _ (List.mem_of_getElem? hi)) h)
  have hcase := s.step_cases cfg e
  generalize s.step cfg e = s' at hcase
  cases hcase with
  | idle => exact forall₂_refl hrefl s.jobs
  | delivered t => cases he
  | received i d calls hi => exact hset hi (.received d calls)
  | derived i env d d' calls shared result hi hget =>
    have hjob : JobStep cfg _ _ := .derived env s.shared d calls
    rw [hget] at hjob
    exact hset hi hjob
  | attempted i env d d' input attempts calls tx hi hbuild =>
    have hjob : JobStep cfg _ _ := .attempted env d input attempts calls
    rw [hbuild] at hjob
    exact hset hi hjob
  | sent i env d tx calls hi =>
    exact forall₂_set (s.forall₂_shedJobs hrefl hshed) hi
      (hstep _ _ (hP _ (List.mem_of_getElem? hi)) (.sent d tx s.nextTxnId s.clock calls))
  | unsent i env d tx calls hi => exact hset hi (.left _ _ _ _)
  | failed i sent env d calls hi => exact hset hi (.left _ _ _ _)
  | requeued i response env d d' txnId insertedAt calls hi hconfirm =>
    exact hset hi (.requeued _ response d d' _ _ calls hconfirm)
  | resent i response env d d' tx txnId insertedAt calls hi hconfirm =>
    have hjob := fun stage => JobStep.resent response d d' tx txnId insertedAt stage calls hconfirm
    have hout := hset hi (hjob (.done .sendFailed))
    split
    · exact forall₂_set (forall₂_trans htrans hout
        ((s.update i ⟨d', .done .sendFailed, calls⟩).forall₂_shedJobs hrefl hshed)) hi
        (hstep _ _ (hP _ (List.mem_of_getElem? hi)) (hjob (.pending txnId s.clock)))
    · exact hout
  | gaveUp i response env d d' txnId insertedAt calls hi hconfirm =>
    rw [handleConfirmation_failed hconfirm]
    exact hset hi (.left _ _ _ _)
  | crashed i response env d d' txnId insertedAt calls hi hconfirm hrecord =>
    exact forall₂_refl hrefl s.jobs
  | panicked => exact forall₂_refl hrefl s.jobs
  | confirmed i response env d d' txnId insertedAt calls shared trades hi hconfirm hrecord =>
    rw [handleConfirmation_success hconfirm]
    exact hset hi (.left _ _ _ _)

end

/-- A step that delivers nothing continues every job, in its place. -/
theorem jobs_continue (cfg : CopyConfig) (s : Service) {e : ServiceEvent}
    (he : e.isDelivery = false) : List.Forall₂ Job.Continues s.jobs (s.step cfg e).jobs :=
  forall₂_jobs_step (P := fun _ => True) .refl (fun _ _ _ => .trans)
    (fun j => .leave j.details j.stage .shed j.calls) (fun _ _ _ h => h.continues)
    (fun _ _ => trivial) he

/-- A step records trades only for a job whose transaction is confirmed, which is gone then. -/
theorem step_trades (cfg : CopyConfig) (s : Service) (e : ServiceEvent) :
    (s.step cfg e).trades = s.trades ∨
      ∃ i d txnId insertedAt calls env signature shared trades,
        s.jobs[i]? = some ⟨d, .pending txnId insertedAt, calls⟩ ∧
        handleSuccessTxn cfg env s.shared d signature = some (shared, trades) ∧
        (s.step cfg e).jobs = s.jobs.set i ⟨d, .done .confirmed, calls⟩ ∧
        (s.step cfg e).trades = s.trades ++ trades := by
  have hcase := s.step_cases cfg e
  generalize s.step cfg e = s' at hcase
  cases hcase with
  | confirmed i response env d d' txnId insertedAt calls shared trades hi hconfirm hrecord =>
    obtain rfl := handleConfirmation_success hconfirm
    exact .inr ⟨i, d', txnId, insertedAt, calls, env.success, env.signature, shared, trades, hi,
      hrecord, rfl, rfl⟩
  | resent i response env d d' tx txnId insertedAt calls hi hconfirm =>
    left
    split <;> rfl
  | _ => exact .inl rfl

end Service

/-! ## What is recorded -/

/-- One trade at most, which is booked under the origin of some details. -/
structure BookedOnce (d : CopyDetails) (direction : TradeDirection) (token : Pubkey)
    (trades : List CopyTrade) : Prop where
  once : trades.length ≤ 1
  booked : ∀ trade ∈ trades, trade.originSignature = d.originSignature ∧
    trade.originWallet = d.originSigner ∧ trade.direction = direction ∧ trade.token = token

theorem BookedOnce.nil (d : CopyDetails) (direction : TradeDirection) (token : Pubkey) :
    BookedOnce d direction token [] :=
  ⟨Nat.zero_le 1, fun _ ht => by cases ht⟩

/-- A side is recorded as one trade, or left out. -/
theorem Shared.recordIf_booked (s : Shared) (cfg : CopyConfig) (d : CopyDetails)
    (signature : Signature) (traded : Bool) (side : TradeSide) :
    BookedOnce d side.direction side.token (s.recordIf cfg d signature traded side).2 := by
  unfold Shared.recordIf
  split
  · unfold Shared.record
    split
    · split
      · exact .nil _ _ _
      · refine ⟨Nat.le_refl 1, fun trade ht => ?_⟩
        obtain rfl := List.mem_singleton.mp ht
        exact ⟨rfl, rfl, rfl, rfl⟩
    · split
      · exact .nil _ _ _
      · split <;> exact .nil _ _ _
  · exact .nil _ _ _

/-- The trades of a confirmed transaction are its sell and its buy. -/
theorem handleSuccessTxn_booked {cfg : CopyConfig} {env : SuccessEnv} {s s' : Shared}
    {d : CopyDetails} {signature : Signature} {trades : List CopyTrade}
    (h : handleSuccessTxn cfg env s d signature = some (s', trades)) :
    ∃ sells buys, trades = sells ++ buys ∧
      BookedOnce d .sell d.originSwap.inputTokenMint sells ∧
      BookedOnce d .buy d.originSwap.outputTokenMint buys := by
  unfold handleSuccessTxn at h
  split at h
  · obtain ⟨-, rfl⟩ := Prod.mk.inj (Option.some.inj h)
    exact ⟨[], [], rfl, .nil _ _ _, .nil _ _ _⟩
  · split at h
    · cases h
    · split at h
      · obtain ⟨-, rfl⟩ := Prod.mk.inj (Option.some.inj h)
        exact ⟨_, _, rfl, Shared.recordIf_booked _ cfg d signature _ (sellSide env d _ _),
          Shared.recordIf_booked _ cfg d signature _ (buySide env d _ _)⟩
      · cases h

/-- The trades of one side are for the signature of the details, or of another side. -/
theorem BookedOnce.countP_le {d : CopyDetails} {direction : TradeDirection} {token : Pubkey}
    {trades : List CopyTrade} (h : BookedOnce d direction token trades) (signature : Signature)
    (side : TradeDirection) :
    trades.countP (CopyTrade.isSide signature side) ≤
      (d.originSignature == signature && decide (direction = side)).toNat := by
  cases hside : d.originSignature == signature && decide (direction = side) with
  | true => exact List.countP_le_length.trans h.once
  | false =>
    refine (List.countP_eq_zero.mpr fun trade ht => ?_).le
    obtain ⟨hsignature, -, hdirection, -⟩ := h.booked trade ht
    rw [CopyTrade.isSide, hsignature, hdirection, hside]
    exact Bool.false_ne_true

/-! ## Runs of the service -/

/-- The jobs and the trades stem from transactions of some kind, and there is no more than one
trade of each side for every job that is gone. -/
structure Service.Traced (O : OriginTrade → Prop) (s : Service) : Prop where
  jobs : ∀ j ∈ s.jobs, ∃ t, O t ∧ j.details.StemsFrom t
  trades : ∀ trade ∈ s.trades, ∃ t, O t ∧ trade.StemsFrom t
  once : ∀ signature side,
    s.trades.countP (CopyTrade.isSide signature side) ≤ s.jobs.countP (Job.isGone signature)

namespace Service.Traced

variable {O O' : OriginTrade → Prop} {s : Service}

theorem mono (hO : ∀ t, O t → O' t) (h : s.Traced O) : s.Traced O' where
  jobs j hj := (h.jobs j hj).imp fun t ht => ⟨hO t ht.1, ht.2⟩
  trades trade ht := (h.trades trade ht).imp fun t ht => ⟨hO t ht.1, ht.2⟩
  once := h.once

theorem init (O : OriginTrade → Prop) (shared : Shared) : (Service.init shared).Traced O :=
  ⟨fun _ hj => absurd hj List.not_mem_nil, fun _ ht => absurd ht List.not_mem_nil,
    fun _ _ => Nat.le_refl 0⟩

/-- A job that enters the pipeline stems from its transaction. -/
theorem enqueue (cfg : CopyConfig) (h : s.Traced O) {t : OriginTrade} (ht : O t)
    (hasRoom : Bool) :
    Service.Traced O { s with jobs := s.jobs ++ [Job.enqueue hasRoom (t.details cfg) []] } where
  jobs j hj := by
    rcases List.mem_append.mp hj with hm | hm
    · exact h.jobs j hm
    · obtain rfl := List.mem_singleton.mp hm
      refine ⟨t, ht, ?_⟩
      cases hasRoom <;> exact t.details_stemsFrom cfg
  trades := h.trades
  once signature side := by
    rw [List.countP_append]
    exact (h.once signature side).trans (Nat.le_add_right _ _)

/-- What is recorded for a confirmed job stems from its transaction. -/
theorem trades_confirmed (h : s.Traced O) {cfg : CopyConfig} {env : SuccessEnv} {i : ℕ}
    {d : CopyDetails} {stage : Stage} {calls : List ℕ} {signature : Signature}
    {shared : Shared} {trades : List CopyTrade} (hi : s.jobs[i]? = some ⟨d, stage, calls⟩)
    (hrecord : handleSuccessTxn cfg env s.shared d signature = some (shared, trades)) :
    ∀ trade ∈ trades, ∃ t, O t ∧ trade.StemsFrom t := by
  obtain ⟨t, ht, hstems⟩ := h.jobs _ (List.mem_of_getElem? hi)
  obtain ⟨decimals, hswap⟩ := hstems.swap
  obtain ⟨sells, buys, rfl, hsells, hbuys⟩ := handleSuccessTxn_booked hrecord
  rw [hswap] at hsells hbuys
  intro trade hm
  refine ⟨t, ht, ?_⟩
  rcases List.mem_append.mp hm with hsell | hbuy
  · obtain ⟨hsignature, hwallet, hside⟩ := hsells.booked trade hsell
    exact ⟨hsignature.trans hstems.signature, hwallet.trans hstems.signer, .inl hside⟩
  · obtain ⟨hsignature, hwallet, hside⟩ := hbuys.booked trade hbuy
    exact ⟨hsignature.trans hstems.signature, hwallet.trans hstems.signer, .inr hside⟩

/-- A confirmed job leaves, and its side is recorded once at most. -/
theorem once_confirmed (h : s.Traced O) {cfg : CopyConfig} {env : SuccessEnv} {i : ℕ}
    {d : CopyDetails} {stage : Stage} {calls : List ℕ} {execSignature : Signature}
    {shared : Shared} {trades : List CopyTrade} (hi : s.jobs[i]? = some ⟨d, stage, calls⟩)
    (hlive : stage.isLive = true)
    (hrecord : handleSuccessTxn cfg env s.shared d execSignature = some (shared, trades))
    (signature : Signature) (side : TradeDirection) :
    (s.trades ++ trades).countP (CopyTrade.isSide signature side) ≤
      (s.jobs.set i ⟨d, .done .confirmed, calls⟩).countP (Job.isGone signature) := by
  obtain ⟨sells, buys, rfl, hsells, hbuys⟩ := handleSuccessTxn_booked hrecord
  have hsell := hsells.countP_le signature side
  have hbuy := hbuys.countP_le signature side
  have hbefore := h.once signature side
  rw [List.countP_append, List.countP_append]
  cases hfor : d.originSignature == signature with
  | true =>
    have hgains := countP_set_of_gains (p := Job.isGone signature) hi
      (by simp [Job.isGone, hlive])
      (b := ⟨d, .done .confirmed, calls⟩) (by simp [Job.isGone, Job.isFor, hfor, Stage.isLive])
    rw [hgains]
    rw [hfor, Bool.true_and] at hsell hbuy
    have hone : (decide (TradeDirection.sell = side)).toNat +
        (decide (TradeDirection.buy = side)).toNat = 1 := by
      cases side <;> rfl
    omega
  | false =>
    rw [hfor, Bool.false_and, Bool.toNat_false] at hsell hbuy
    have hkept := countP_le_of_forall₂ (p := Job.isGone signature)
      (fun j j' (hj : j.Continues j') hgone => hj.isGone hgone)
      (forall₂_set (forall₂_refl .refl s.jobs) hi (.leave d stage .confirmed calls))
    omega

/-- A step that delivers nothing keeps what everything stems from. -/
theorem step (cfg : CopyConfig) (h : s.Traced O) {e : ServiceEvent}
    (he : e.isDelivery = false) : (s.step cfg e).Traced O := by
  have hjobs := s.jobs_continue cfg he
  refine ⟨fun j' hj' => ?_, ?_, ?_⟩
  · obtain ⟨j, hj, hcontinues⟩ := exists_left_of_forall₂ hjobs hj'
    exact (h.jobs j hj).imp fun t ht => ⟨ht.1, hcontinues.stems t ht.2⟩
  · rcases s.step_trades cfg e with hsame | ⟨i, d, txnId, insertedAt, calls, env, signature,
      shared, trades, hi, hrecord, -, htrades⟩
    · rw [hsame]
      exact h.trades
    · rw [htrades]
      intro trade hm
      rcases List.mem_append.mp hm with hold | hnew
      · exact h.trades trade hold
      · exact h.trades_confirmed hi hrecord trade hnew
  · intro signature side
    rcases s.step_trades cfg e with hsame | ⟨i, d, txnId, insertedAt, calls, env, execSignature,
      shared, trades, hi, hrecord, hset, htrades⟩
    · rw [hsame]
      exact (h.once signature side).trans (countP_le_of_forall₂
        (fun j j' (hj : j.Continues j') hgone => hj.isGone hgone) hjobs)
    · rw [htrades, hset]
      exact h.once_confirmed hi rfl hrecord signature side

end Service.Traced

end Biscuit.Copy
