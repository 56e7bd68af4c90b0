import Biscuit.Models.Copy.Book
import Biscuit.Models.Copy.Budget
import Biscuit.Models.Copy.Retry

/-!
# Accounting for origin sells

The origin wallet's sells of a token are delivered, travel through the pipeline and are
counted in the entry of the token when they settle. Between deliveries the counted and the
travelling amounts add up to the same sum, as long as no sell leaves the pipeline by an
exit that does not count it.
-/

namespace Biscuit.Copy

/-! ## What a step does to one entry -/

/-- What the origin wallet has sold, by its entry. -/
def originSold : Option CopyHistory → ℕ
  | none => 0
  | some c => c.origin.sellVolumeToken

/-- One recorded side, seen at one entry. -/
inductive EntryStep (d : CopyDetails) (key : Pubkey × Pubkey) (entry : Option CopyHistory) :
    Option CopyHistory → Prop
  | same : EntryStep d key entry entry
  | sold (v : TradeEntry) (hkey : d.sellKey = key) (htoken : isStaticToken key.2 = false) :
      EntryStep d key entry (some ((entry.getD {}).addTrade key.2 v .sell))
  | bought (v : TradeEntry) (hkey : d.buyKey = key) (htoken : isStaticToken key.2 = false) :
      EntryStep d key entry (some ((entry.getD {}).addTrade key.2 v .buy))

/-- The ping mode records nothing in the trade history. -/
theorem Shared.record_ping (s : Shared) (cfg : CopyConfig) {d : CopyDetails}
    (hmode : d.walletConfig.mode = .ping) (signature : Signature) (side : TradeSide) :
    (s.record cfg d signature side).1.history = s.history := by
  unfold Shared.record
  simp only [hmode]
  cases s.pingTracker with
  | none => rfl
  | some tracker =>
    simp only
    split <;> rfl

/-- Recording one side changes one entry at most. -/
theorem Shared.recordIf_entry (s : Shared) (cfg : CopyConfig) (d : CopyDetails)
    (signature : Signature) (traded : Bool) (side : TradeSide) (key : Pubkey × Pubkey)
    (hside : side.direction = .sell ∧ (d.originSigner, side.token) = d.sellKey ∨
      side.direction = .buy ∧ (d.originSigner, side.token) = d.buyKey) :
    EntryStep d key (s.history key) ((s.recordIf cfg d signature traded side).1.history key) := by
  cases traded with
  | false => exact .same
  | true =>
    change EntryStep d key _ ((s.record cfg d signature side).1.history key)
    cases hmode : d.walletConfig.mode with
    | ping =>
      rw [s.record_ping cfg hmode]
      exact .same
    | direct =>
      have hcase := s.record_cases cfg hmode signature side
      generalize (s.record cfg d signature side).1.history = h' at hcase ⊢
      generalize (s.record cfg d signature side).2 = trades at hcase
      cases hcase with
      | refused hsell => exact .same
      | recorded v sig htoken hexec horigin hdust hsell =>
        by_cases hk : (d.originSigner, side.token) = key
        · subst hk
          rw [HistoricalTrades.insert_self]
          rcases hside with ⟨hdir, hkey⟩ | ⟨hdir, hkey⟩
          · rw [hdir]
            exact .sold _ hkey.symm htoken
          · rw [hdir]
            exact .bought _ hkey.symm htoken
        · rw [HistoricalTrades.insert_of_ne _ fun he => hk he.symm]
          exact .same

/-- A confirmed transaction of any mode records two sides at most. -/
theorem handleSuccessTxn_entry {cfg : CopyConfig} {env : SuccessEnv} {s s' : Shared}
    {d : CopyDetails} {signature : Signature} {trades : List CopyTrade}
    (h : handleSuccessTxn cfg env s d signature = some (s', trades)) (key : Pubkey × Pubkey) :
    ∃ mid, EntryStep d key (s.history key) mid ∧ EntryStep d key mid (s'.history key) := by
  unfold handleSuccessTxn at h
  split at h
  · obtain ⟨rfl, -⟩ := Prod.mk.inj (Option.some.inj h)
    exact ⟨_, .same, .same⟩
  · split at h
    · cases h
    · rename_i q hq
      split at h
      · rename_i inDecimals outDecimals copyType hin hout htype
        obtain ⟨rfl, -⟩ := Prod.mk.inj (Option.some.inj h)
        refine ⟨_, ?_, Shared.recordIf_entry _ _ _ _ _ _ _ (.inr ⟨rfl, rfl⟩)⟩
        rw [← s.switchBuys_history cfg env.amountOut]
        exact Shared.recordIf_entry _ _ _ _ _ _ _ (.inl ⟨rfl, rfl⟩)
      · cases h

/-- A recorded side of another token does not change what was sold. -/
theorem EntryStep.originSold_eq {d : CopyDetails} {key : Pubkey × Pubkey}
    {entry entry' : Option CopyHistory} (h : EntryStep d key entry entry')
    (hne : d.sellKey ≠ key) : originSold entry' = originSold entry := by
  cases h with
  | same => rfl
  | sold v hkey htoken => exact absurd hkey hne
  | bought v hkey htoken => cases entry <;> rfl

/-- Entries are for tracked tokens, and their volumes are words. -/
def WellKept (h : HistoricalTrades) : Prop :=
  ∀ key c, h key = some c → isStaticToken key.2 = false ∧ c.origin.sellVolumeToken < 2 ^ 64

theorem EntryStep.wellKept {d : CopyDetails} {key : Pubkey × Pubkey}
    {entry entry' : Option CopyHistory} (hstep : EntryStep d key entry entry')
    (h : ∀ c, entry = some c →
      isStaticToken key.2 = false ∧ c.origin.sellVolumeToken < 2 ^ 64) :
    ∀ c, entry' = some c →
      isStaticToken key.2 = false ∧ c.origin.sellVolumeToken < 2 ^ 64 := by
  cases hstep with
  | same => exact h
  | sold v hkey htoken =>
    rintro c ⟨⟩
    exact ⟨htoken, wrapU64_lt _⟩
  | bought v hkey htoken =>
    rintro c ⟨⟩
    refine ⟨htoken, ?_⟩
    cases entry with
    | none =>
      change 0 < 2 ^ 64
      omega
    | some c => exact (h c rfl).2

/-- Giving an execution up keeps the history well. -/
theorem handleFailedExecution_wellKept {h : HistoricalTrades} (hw : WellKept h)
    (env : FailureEnv) (d : CopyDetails) : WellKept (handleFailedExecution env h d) := by
  have hcase := handleFailedExecution_cases env h d
  generalize handleFailedExecution env h d = h' at hcase
  cases hcase with
  | unrecorded hno => exact hw
  | recorded c usd sol hc hdec =>
    intro key c' hc'
    by_cases hk : key = d.sellKey
    · subst hk
      rw [HistoricalTrades.insert_self] at hc'
      obtain rfl := Option.some.inj hc'
      exact ⟨(hw _ c hc).1, wrapU64_lt _⟩
    · rw [HistoricalTrades.insert_of_ne _ hk] at hc'
      exact hw key c' hc'

/-- Every step of the service keeps the history well. -/
theorem Service.wellKept_step (cfg : CopyConfig) (s : Service) (e : ServiceEvent)
    (h : WellKept s.shared.history) : WellKept (s.step cfg e).shared.history := by
  have hcase := s.step_cases cfg e
  generalize s.step cfg e = s' at hcase
  cases hcase with
  | idle => exact h
  | delivered t => exact h
  | received i d calls hi => exact h
  | derived i env d d' calls shared result hi hget =>
    intro key c hc
    have hhistory := getExecutionInput_history cfg env s.shared d
    rw [hget] at hhistory
    rcases hhistory with hsame | hremoved
    · exact h key c (hsame ▸ hc)
    · have hc' : (s.shared.history.remove d.sellKey) key = some c := hremoved ▸ hc
      by_cases hk : key = d.sellKey
      · subst hk
        rw [HistoricalTrades.remove_self] at hc'
        cases hc'
      · rw [HistoricalTrades.remove_of_ne hk] at hc'
        exact h key c hc'
  | attempted i env d d' input attempts calls tx hi hbuild => exact h
  | sent i env d tx calls hi => exact h
  | unsent i env d tx calls hi => exact h
  | failed i sent env d calls hi => exact handleFailedExecution_wellKept h env d
  | requeued i response env d d' txnId insertedAt calls hi hconfirm => exact h
  | resent i response env d d' tx txnId insertedAt calls hi hconfirm =>
    split <;> exact h
  | gaveUp i response env d d' txnId insertedAt calls hi hconfirm =>
    exact handleFailedExecution_wellKept h env.failure d'
  | crashed i response env d d' txnId insertedAt calls hi hconfirm hrecord => exact h
  | panicked => exact h
  | confirmed i response env d d' txnId insertedAt calls shared trades hi hconfirm hrecord =>
    intro key
    obtain ⟨mid, hfirst, hsecond⟩ := handleSuccessTxn_entry hrecord key
    exact hsecond.wellKept (hfirst.wellKept (h key))

/-! ## The sells of one token -/

/-- The origin amount of a job that sells a wallet's token. -/
def Job.delivered (key : Pubkey × Pubkey) (j : Job) : ℕ :=
  if j.details.sellKey = key then j.details.originSwap.inputAmount else 0

/-- The same, while the job is in the pipeline. -/
def Job.travelling (key : Pubkey × Pubkey) (j : Job) : ℕ :=
  if j.stage.isLive then j.delivered key else 0

/-- Two jobs for one origin transaction deliver the same amount. -/
theorem Job.delivered_eq (j j' : Job) (h : SameOrigin j.details j'.details)
    (key : Pubkey × Pubkey) : j'.delivered key = j.delivered key := by
  unfold Job.delivered CopyDetails.sellKey
  rw [h.signer, h.swap]

theorem Job.travelling_of_live {j : Job} (h : j.stage.isLive = true) (key : Pubkey × Pubkey) :
    j.travelling key = j.delivered key := if_pos h

@[simp] theorem Job.travelling_done (d : CopyDetails) (exit : Exit) (calls : List ℕ)
    (key : Pubkey × Pubkey) : Job.travelling key ⟨d, .done exit, calls⟩ = 0 := rfl

namespace Service

/-- What the origin wallet is known to have sold of a token. -/
def sold (s : Service) (key : Pubkey × Pubkey) : ℕ := originSold (s.shared.history key)

/-- The origin amounts of all delivered sells of a token. -/
def delivered (s : Service) (key : Pubkey × Pubkey) : ℕ := tally (Job.delivered key) s.jobs

/-- The origin amounts of the sells of a token that are in the pipeline. -/
def travelling (s : Service) (key : Pubkey × Pubkey) : ℕ := tally (Job.travelling key) s.jobs

/-- No sell of a token is in the pipeline. -/
def Quiet (s : Service) (key : Pubkey × Pubkey) : Prop :=
  ∀ j ∈ s.jobs, j.details.sellKey = key → j.stage.isLive = false

instance (s : Service) (key : Pubkey × Pubkey) : Decidable (s.Quiet key) :=
  inferInstanceAs (Decidable (∀ j ∈ s.jobs, _))

/-- The entry of a token is there. -/
def Present (key : Pubkey × Pubkey) (s : Service) : Prop :=
  (s.shared.history key).isSome = true

instance (key : Pubkey × Pubkey) (s : Service) : Decidable (Present key s) :=
  inferInstanceAs (Decidable (_ = true))

end Service

/-- A sell of a held token gets an order: the mints can be read, the wallet is copied in
the direct mode, and the amount that the machine computes to be left to sell is not zero. -/
def Sizes (cfg : CopyConfig) (env : ExecEnv) (h : HistoricalTrades) (d : CopyDetails) : Prop :=
  d.walletConfig.mode = .direct ∧
  d.originSwap.inputTokenMint ≠ d.originSwap.outputTokenMint ∧
  (env.mintInfo.bind tokenDecimals).isSome = true ∧
  ∀ c ∈ h d.sellKey,
    c.originTokensLeft ≠ 0 ∧ c.sellInputAmount cfg.rounding d.originSwap.inputAmount ≠ 0

instance (cfg : CopyConfig) (env : ExecEnv) (h : HistoricalTrades) (d : CopyDetails) :
    Decidable (Sizes cfg env h d) :=
  inferInstanceAs (Decidable (_ ∧ _ ∧ _ ∧ _))

/-- A transaction that is not confirmed without an error finds room in the queue when it
may be executed again, and its decimals can be read when it is given up. -/
def Settles (cfg : CopyConfig) (hasRoom : Bool) (env : ConfirmEnv) (d : CopyDetails) :
    ConfirmTransactionResponse → Prop
  | .confirmed none _ => True
  | .confirmed (some _) _ =>
    if d.confirmedErrorRetries < cfg.confirmedErrorRetries then hasRoom = true
    else env.failure.decimals.isSome = true
  | .unconfirmed _ =>
    if d.sendTxnRetries < cfg.sendTxnRetries then hasRoom = true
    else env.failure.decimals.isSome = true

instance (cfg : CopyConfig) (hasRoom : Bool) (env : ConfirmEnv) (d : CopyDetails) :
    ∀ response, Decidable (Settles cfg hasRoom env d response)
  | .confirmed none _ => isTrue trivial
  | .confirmed (some _) _ => inferInstanceAs (Decidable
      (if d.confirmedErrorRetries < cfg.confirmedErrorRetries then hasRoom = true
        else env.failure.decimals.isSome = true))
  | .unconfirmed _ => inferInstanceAs (Decidable
      (if d.sendTxnRetries < cfg.sendTxnRetries then hasRoom = true
        else env.failure.decimals.isSome = true))

/-- Whether a transaction is on the way to the main task. -/
def Stage.isBuilt : Stage → Bool
  | .built _ => true
  | _ => false

/-- The condition under which a step loses no sell of a token: a delivered sell finds room
in the queue and its amount fits; a derived one gets an order; a built one is sent, and no
pending one is shed for any other; and one that is given up can be counted. -/
def Counts (cfg : CopyConfig) (key : Pubkey × Pubkey) (s : Service) : ServiceEvent → Prop
  | .wireTxn t => (t.signer, t.swap.inputTokenMint) = key →
      s.hasRoom cfg = true ∧ s.sold key + s.travelling key + t.swap.inputAmount < 2 ^ 64
  | .recv _ => True
  | .input i env => ∀ j ∈ s.jobs[i]?, j.stage = .spawned → j.details.sellKey = key →
      Sizes cfg env s.shared.history j.details
  | .attempt _ _ => True
  | .output i sent env => ∀ j ∈ s.jobs[i]?,
      (j.stage.isBuilt = true → j.details.sellKey = key → sent = true) ∧
      (j.stage.isBuilt = true → sent = true → s.pendingFull cfg = false ∨
        ∀ k ∈ s.jobs, k.details.sellKey = key → k.isPending = false) ∧
      (j.stage = .failed → j.details.sellKey = key → env.decimals.isSome = true)
  | .confirm i response env => ∀ j ∈ s.jobs[i]?, j.isPending = true → j.details.sellKey = key →
      Settles cfg (s.hasRoom cfg) env j.details response
  | .panics => True

instance (cfg : CopyConfig) (key : Pubkey × Pubkey) (s : Service) :
    ∀ e, Decidable (Counts cfg key s e)
  | .wireTxn t => inferInstanceAs (Decidable ((t.signer, t.swap.inputTokenMint) = key → _))
  | .recv _ => isTrue trivial
  | .input i _ => inferInstanceAs (Decidable (∀ j ∈ s.jobs[i]?, _))
  | .attempt _ _ => isTrue trivial
  | .output i _ _ => inferInstanceAs (Decidable (∀ j ∈ s.jobs[i]?, _))
  | .confirm i _ _ => inferInstanceAs (Decidable (∀ j ∈ s.jobs[i]?, _))
  | .panics => isTrue trivial

/-! ## What becomes of one sell -/

/-- A job that was derived while its token was held carries an order that sells it. -/
def Job.Ready (j : Job) : Prop :=
  match j.stage with
  | .executing input _ => IsDirectOrder j.details input ∧ j.details.sells = true
  | .built _ | .pending _ _ => ∃ (o : Order) (q : QuoteAnswer),
      j.details = o.quoted q ∧ o.details.sells = true
  | _ => True

/-- A job that has ended has no order left to be ready. -/
theorem Job.ready_of_ended {j : Job} (h : j.stage.isLive = false) : j.Ready := by
  cases hstage : j.stage with
  | done exit =>
    rw [Job.Ready, hstage]
    trivial
  | _ =>
    rw [hstage] at h
    cases h

/-- An order stays one while nothing it depends on changes. -/
theorem IsDirectOrder.of_sameOrigin {d d' : CopyDetails} {input : SwapInput}
    (h : IsDirectOrder d input) (hsame : SameOrigin d d') :
    IsDirectOrder d' input ∧ d'.sells = d.sells := by
  have hsells : d'.sells = d.sells := by simp only [CopyDetails.sells, hsame.copyType]
  have hbuys : d'.buys = d.buys := by simp only [CopyDetails.buys, hsame.copyType]
  refine ⟨⟨?_, ?_, ?_, ?_, ?_, ?_, ?_, ?_⟩, hsells⟩
  · rw [hsame.wallet]
    exact h.direct
  · rw [hsame.swap]
    exact h.resolved
  · rw [hsame.copyType]
    exact h.typed
  · rw [hsells, hsame.swap]
    exact h.sellMint
  · rw [hsells]
    exact h.fundMint
  · rw [hbuys, hsame.swap]
    exact h.buyMint
  · rw [hbuys]
    exact h.proceedsMint
  · rw [hbuys, hsame.swap]
    exact h.bought

/-- A swap out of a held token gets an order that sells it. -/
theorem getExecutionInput_sells (cfg : CopyConfig) {env : ExecEnv} {s : Shared}
    {d : CopyDetails} {c : CopyHistory} (hc : s.history d.sellKey = some c)
    (hsizes : Sizes cfg env s.history d) :
    ∃ input, (getExecutionInput cfg env s d).2.2 = .ok (some input) ∧
      IsDirectOrder (getExecutionInput cfg env s d).2.1 input ∧
      (getExecutionInput cfg env s d).2.1.sells = true := by
  obtain ⟨hmode, hne, hmints, hamount⟩ := hsizes
  obtain ⟨hleft, hpos⟩ := hamount c hc
  obtain ⟨decimals, hdecimals⟩ := Option.isSome_iff_exists.mp hmints
  obtain ⟨mints, hmintInfo, hresolved⟩ := Option.bind_eq_some_iff.mp hdecimals
  have hcase := processDirect_cases cfg (buysDisabled env s) s.history (d.resolved mints)
  generalize hp : processDirect cfg (buysDisabled env s) s.history (d.resolved mints) = result
    at hcase
  cases hcase with
  | unresolved hdec =>
    exact absurd (hresolved.symm.trans hdec) nofun
  | exhausted c' hdec hc' hleft' =>
    obtain rfl : c = c' := Option.some.inj (hc.symm.trans hc')
    exact absurd hleft' hleft
  | skipSell c' hdec hc' hleft' hzero =>
    obtain rfl : c = c' := Option.some.inj (hc.symm.trans hc')
    exact absurd hzero hpos
  | sell c' order copyType hdec hc' hleft' hpos' horder =>
    obtain ⟨-, hamount', hsells, -⟩ := directSellOrder_spec horder
    have hget := getExecutionInput_of_processDirect hmode hmintInfo hne
      (by rw [hamount']; exact hpos') hp
    have hmode' : (d.resolved mints).walletConfig.mode = .direct := hmode
    rw [hget]
    exact ⟨order, rfl, processDirect_isDirectOrder hmode' hp, hsells⟩
  | skipBuy hdec hc' hskip => exact absurd (hc'.symm.trans hc) nofun
  | buy order hdec hc' hbuy hout hin hmint => exact absurd (hc'.symm.trans hc) nofun

/-- An attempt to build keeps a sell ready. -/
theorem processExecutionInput_ready (cfg : CopyConfig) (env : BuildEnv) {input : SwapInput}
    {d : CopyDetails} (attempts : ℕ) (calls : List ℕ) (hd : IsDirectOrder d input)
    (hsells : d.sells = true) :
    Job.Ready ⟨(processExecutionInput cfg env input d).1,
      .ofAttempt cfg input attempts (processExecutionInput cfg env input d).2, calls⟩ := by
  have hsame := processExecutionInput_sameOrigin cfg env input d
  obtain ⟨hd', hsells'⟩ := hd.of_sameOrigin hsame
  cases htx : (processExecutionInput cfg env input d).2 with
  | none =>
    simp only [Stage.ofAttempt]
    split
    · exact ⟨hd', hsells'.trans hsells⟩
    · trivial
  | some tx =>
    unfold processExecutionInput at htx ⊢
    cases hq : env.quote with
    | none =>
      rw [hq] at htx
      cases htx
    | some q =>
      cases hl : env.transaction with
      | none =>
        rw [hq, hl] at htx
        cases htx
      | some computeUnitLimit =>
        have horder : IsDirectOrder
            { d with lastFeeLamports := attemptFee cfg env.tipP95 d.sendTxnRetries } input :=
          ⟨hd.direct, hd.resolved, hd.typed, hd.sellMint, hd.fundMint, hd.buyMint,
            hd.proceedsMint, hd.bought⟩
        exact ⟨⟨_, input, horder⟩, q, rfl, hsells⟩

/-- A sell that is given up is counted when its decimals can be read. -/
theorem handleFailedExecution_sold {env : FailureEnv} {h : HistoricalTrades}
    {d : CopyDetails} {key : Pubkey × Pubkey} (hpresent : (h key).isSome = true)
    (hdec : d.sellKey = key → env.decimals.isSome = true)
    (hfits : d.sellKey = key → originSold (h key) + d.originSwap.inputAmount < 2 ^ 64) :
    originSold (handleFailedExecution env h d key) =
      originSold (h key) + if d.sellKey = key then d.originSwap.inputAmount else 0 := by
  have hcase := handleFailedExecution_cases env h d
  generalize handleFailedExecution env h d = h' at hcase
  cases hcase with
  | unrecorded hno =>
    by_cases hk : d.sellKey = key
    · subst hk
      rcases hno with hnone | hnone
      · rw [hnone] at hpresent
        cases hpresent
      · rw [hnone] at hdec
        cases hdec rfl
    · rw [if_neg hk, Nat.add_zero]
  | recorded c usd sol hc hdecimals =>
    by_cases hk : d.sellKey = key
    · subst hk
      have hword := hfits rfl
      rw [hc] at hword
      rw [HistoricalTrades.insert_self, if_pos rfl, hc]
      exact wrapU64_eq hword
    · rw [HistoricalTrades.insert_of_ne _ fun he => hk he.symm, if_neg hk, Nat.add_zero]

/-- A confirmed sell is counted. -/
theorem handleSuccessTxn_sold {cfg : CopyConfig} {env : SuccessEnv} {s s' : Shared}
    {o : Order} {q : QuoteAnswer} {signature : Signature} {trades : List CopyTrade}
    (hsells : o.details.sells = true) (hkept : WellKept s.history)
    (hpresent : (s.history o.details.sellKey).isSome = true)
    (hfits : originSold (s.history o.details.sellKey) + o.originAmount < 2 ^ 64)
    (hrecord : handleSuccessTxn cfg env s (o.quoted q) signature = some (s', trades)) :
    originSold (s'.history o.details.sellKey) =
      originSold (s.history o.details.sellKey) + o.originAmount := by
  obtain ⟨s'', trades', hrecord', hat⟩ := handleSuccessTxn_order cfg env s o q signature
  obtain ⟨rfl, rfl⟩ := Prod.mk.inj (Option.some.inj (hrecord.symm.trans hrecord'))
  obtain ⟨mid, hsold, hbought⟩ := hat o.details.sellKey
  obtain ⟨c, hc⟩ := Option.isSome_iff_exists.mp hpresent
  have hmid : originSold mid =
      originSold (s.history o.details.sellKey) + o.originAmount := by
    cases hsold with
    | other hno => exact absurd rfl (hno hsells)
    | untracked hs hkey htoken =>
      exact absurd (htoken.symm.trans (hkept _ c hc).1) nofun
    | sold v hs hkey htoken hexec horigin hdust =>
      rw [hc] at hfits ⊢
      change wrapU64 (c.origin.sellVolumeToken + v.originVolumeToken) = _
      rw [horigin]
      exact wrapU64_eq hfits
  rw [← hmid]
  generalize s'.history o.details.sellKey = entry at hbought ⊢
  generalize tally (CopyTrade.boughtAmount o.details.sellKey) trades = net at hbought
  cases hbought with
  | other => rfl
  | bought v hbuys hkey htoken hexec horigin hdust => cases mid <;> rfl

/-! ## One step of the service -/

namespace Service

/-- What holds while the sells of a token are counted. -/
structure Accounts (cfg : CopyConfig) (key : Pubkey × Pubkey) (s : Service) : Prop where
  kept : WellKept s.shared.history
  present : Present key s
  budget : ∀ j ∈ s.jobs, j.WithinBudget cfg
  ready : ∀ j ∈ s.jobs, j.details.sellKey = key → j.Ready
  fits : s.sold key + s.travelling key < 2 ^ 64

/-- The counted and the travelling amounts grow by what was delivered. -/
def Balanced (key : Pubkey × Pubkey) (s s' : Service) : Prop :=
  s'.sold key + s'.travelling key + s.delivered key =
    s.sold key + s.travelling key + s'.delivered key

/-- Replacing one job balances when its amount stays or is counted. -/
theorem balanced_of_set (key : Pubkey × Pubkey) (s s' : Service) {i : ℕ} {j j' : Job}
    (hi : s.jobs[i]? = some j) (hjobs : s'.jobs = s.jobs.set i j')
    (hdelivered : j'.delivered key = j.delivered key)
    (hsold : s'.sold key + j'.travelling key = s.sold key + j.travelling key) :
    Balanced key s s' ∧ s'.delivered key = s.delivered key := by
  have htravelling := tally_set (f := Job.travelling key) hi j'
  have hsame := tally_set (f := Job.delivered key) hi j'
  unfold Balanced travelling delivered
  rw [hjobs]
  omega

/-- One job of the list travels no more than all of them. -/
theorem travelling_le (key : Pubkey × Pubkey) {s : Service} {i : ℕ} {j : Job}
    (hi : s.jobs[i]? = some j) : j.travelling key ≤ s.travelling key :=
  le_tally hi

/-- A job that stays in the pipeline keeps its amount. -/
theorem travelling_of_stage {key : Pubkey × Pubkey} {j j' : Job} (hlive : j.stage.isLive = true)
    (hlive' : j'.stage.isLive = true) (hdelivered : j'.delivered key = j.delivered key) :
    j'.travelling key = j.travelling key := by
  rw [Job.travelling_of_live hlive, Job.travelling_of_live hlive', hdelivered]

/-- Shedding other jobs changes nothing for a token. -/
theorem shedJobs_tally (cfg : CopyConfig) (key : Pubkey × Pubkey) {s : Service}
    (hkeeps : s.pendingFull cfg = false ∨
      ∀ k ∈ s.jobs, k.details.sellKey = key → k.isPending = false) :
    tally (Job.travelling key) (s.shedJobs cfg) = s.travelling key ∧
      tally (Job.delivered key) (s.shedJobs cfg) = s.delivered key := by
  unfold shedJobs
  split
  · rename_i hfull
    rcases hkeeps with hroom | hnone
    · exact absurd (hroom.symm.trans hfull) nofun
    · have hsame : ∀ k ∈ s.jobs, (shedJob cfg s.jobs k).travelling key = k.travelling key ∧
          (shedJob cfg s.jobs k).delivered key = k.delivered key := by
        intro k hk
        have hkeep : k.isPending = true → k.details.sellKey ≠ key :=
          fun hp hkey => absurd (hp.symm.trans (hnone k hk hkey)) nofun
        unfold shedJob
        split
        · rename_i txnId insertedAt hstage
          have hne := hkeep (by simp only [Job.isPending, hstage])
          split
          · simp only [Job.travelling, Job.delivered, hne, if_false, ite_self, and_self]
          · exact ⟨rfl, rfl⟩
        · exact ⟨rfl, rfl⟩
      constructor
      · unfold travelling tally
        rw [List.map_map]
        exact congrArg List.sum (List.map_congr_left fun k hk => (hsame k hk).1)
      · unfold delivered tally
        rw [List.map_map]
        exact congrArg List.sum (List.map_congr_left fun k hk => (hsame k hk).2)
  · exact ⟨rfl, rfl⟩

/-- A built job is not shed. -/
theorem shedJobs_built (cfg : CopyConfig) {s : Service} {i : ℕ} {d : CopyDetails}
    {tx : BuiltTransaction} {calls : List ℕ} (hi : s.jobs[i]? = some ⟨d, .built tx, calls⟩) :
    (s.shedJobs cfg)[i]? = some ⟨d, .built tx, calls⟩ := by
  unfold shedJobs
  split
  · rw [List.getElem?_map, hi]
    rfl
  · exact hi

/-- Shedding leaves no job ready that was not. -/
theorem shedJobs_ready {cfg : CopyConfig} {key : Pubkey × Pubkey} {s : Service}
    (h : ∀ j ∈ s.jobs, j.details.sellKey = key → j.Ready) :
    ∀ j ∈ s.shedJobs cfg, j.details.sellKey = key → j.Ready := by
  unfold shedJobs
  split
  · intro j hj
    obtain ⟨k, hk, rfl⟩ := List.mem_map.mp hj
    unfold shedJob
    split
    · split
      · exact fun _ => trivial
      · exact h k hk
    · exact h k hk
  · exact h

/-- A job of another token has no part in the account. -/
theorem other_job {key : Pubkey × Pubkey} {j : Job} (h : j.details.sellKey ≠ key) :
    j.delivered key = 0 ∧ j.travelling key = 0 := by
  have hzero : j.delivered key = 0 := if_neg h
  exact ⟨hzero, by simp only [Job.travelling, hzero, ite_self]⟩

/-- A transaction that is executed again finds room, and one that is given up can be
counted. -/
theorem settles_execute {cfg : CopyConfig} {hasRoom : Bool} {env : ConfirmEnv}
    {d d' : CopyDetails} {response : ConfirmTransactionResponse}
    (hsettles : Settles cfg hasRoom env d response)
    (h : handleConfirmation cfg d response = .execute d') : hasRoom = true := by
  unfold handleConfirmation at h
  split at h
  · split at h
    · rename_i hlt
      simpa only [Settles, if_pos hlt] using hsettles
    · cases h
  · cases h
  · split at h
    · rename_i hlt
      simpa only [Settles, if_pos hlt] using hsettles
    · cases h

theorem settles_failed {cfg : CopyConfig} {hasRoom : Bool} {env : ConfirmEnv}
    {d d' : CopyDetails} {response : ConfirmTransactionResponse}
    (hsettles : Settles cfg hasRoom env d response)
    (h : handleConfirmation cfg d response = .failed d') :
    env.failure.decimals.isSome = true := by
  unfold handleConfirmation at h
  split at h
  · split at h
    · cases h
    · rename_i hlt
      simpa only [Settles, if_neg hlt] using hsettles
  · cases h
  · split at h
    · split at h <;> cases h
    · rename_i hlt
      simpa only [Settles, if_neg hlt] using hsettles

/-- Giving a live job up balances when its sell can be counted. -/
theorem balanced_giveUp {cfg : CopyConfig} {key : Pubkey × Pubkey} {s : Service} {i : ℕ}
    {env : FailureEnv} {d : CopyDetails} {stage : Stage} {calls : List ℕ}
    (h : Accounts cfg key s) (hi : s.jobs[i]? = some ⟨d, stage, calls⟩)
    (hlive : stage.isLive = true)
    (hdec : d.sellKey = key → env.decimals.isSome = true) :
    Balanced key s (s.giveUp i env d calls) ∧
      (s.giveUp i env d calls).delivered key = s.delivered key := by
  have hle := travelling_le key hi
  have hfits := h.fits
  refine balanced_of_set key s _ hi rfl rfl ?_
  change originSold (handleFailedExecution env s.shared.history d key) + _ = s.sold key + _
  rw [handleFailedExecution_sold h.present hdec]
  · rw [Job.travelling_done, Job.travelling_of_live (j := ⟨d, stage, calls⟩) hlive]
    rfl
  · intro hk
    have hamount : Job.travelling key ⟨d, stage, calls⟩ = d.originSwap.inputAmount :=
      (Job.travelling_of_live (j := ⟨d, stage, calls⟩) hlive key).trans (if_pos hk)
    rw [hamount] at hle
    change s.sold key + _ < _
    omega

/-- A trade that finds room balances when its amount still fits a word. -/
theorem balanced_enqueue {cfg : CopyConfig} {key : Pubkey × Pubkey} {s : Service}
    {t : OriginTrade} (hcounts : (t.signer, t.swap.inputTokenMint) = key →
      s.hasRoom cfg = true ∧ s.sold key + s.travelling key + t.swap.inputAmount < 2 ^ 64) :
    Balanced key s { s with jobs := s.jobs ++ [Job.enqueue (s.hasRoom cfg) (t.details cfg) []] } ∧
      (tally (Job.delivered key) (s.jobs ++ [Job.enqueue (s.hasRoom cfg) (t.details cfg) []]) =
          s.delivered key ∨
        s.sold key + tally (Job.travelling key)
          (s.jobs ++ [Job.enqueue (s.hasRoom cfg) (t.details cfg) []]) < 2 ^ 64) := by
  have htravelling : tally (Job.travelling key) (s.jobs ++
      [Job.enqueue (s.hasRoom cfg) (t.details cfg) []]) = s.travelling key +
      (Job.enqueue (s.hasRoom cfg) (t.details cfg) []).travelling key := by
    rw [tally_append, tally_cons, tally_nil, Nat.add_zero]
    rfl
  have hdelivered : tally (Job.delivered key) (s.jobs ++
      [Job.enqueue (s.hasRoom cfg) (t.details cfg) []]) = s.delivered key +
      (Job.enqueue (s.hasRoom cfg) (t.details cfg) []).delivered key := by
    rw [tally_append, tally_cons, tally_nil, Nat.add_zero]
    rfl
  by_cases hk : (t.signer, t.swap.inputTokenMint) = key
  · obtain ⟨hroom, hword⟩ := hcounts hk
    rw [hroom] at htravelling hdelivered ⊢
    have hamount : (Job.enqueue true (t.details cfg) []).delivered key =
        t.swap.inputAmount := if_pos hk
    have hlive : (Job.enqueue true (t.details cfg) []).travelling key =
        t.swap.inputAmount := hamount
    refine ⟨?_, .inr ?_⟩
    · change s.sold key + tally _ _ + _ = _ + tally _ _
      rw [htravelling, hdelivered, hamount, hlive]
      omega
    · rw [htravelling, hlive]
      omega
  · have hkey : (Job.enqueue (s.hasRoom cfg) (t.details cfg) []).details.sellKey ≠ key := by
      rw [Job.enqueue]
      split <;> exact hk
    obtain ⟨hzero, hzero'⟩ := other_job hkey
    rw [hzero] at hdelivered
    rw [hzero'] at htravelling
    refine ⟨?_, .inl hdelivered⟩
    change s.sold key + tally _ _ + _ = _ + tally _ _
    rw [htravelling, hdelivered]
    rfl

/-- Deriving an order counts nothing while the entry of the token stays. -/
theorem derived_sold {cfg : CopyConfig} {key : Pubkey × Pubkey} {s : Service} {env : ExecEnv}
    {d d' : CopyDetails} {shared : Shared} {result : Except ExecError (Option SwapInput)}
    (hget : getExecutionInput cfg env s.shared d = (shared, d', result))
    (hpresent : (shared.history key).isSome = true) :
    originSold (shared.history key) = s.sold key := by
  have hhistory := getExecutionInput_history cfg env s.shared d
  rw [hget] at hhistory
  rcases hhistory with hsame | hremoved
  · exact congrArg (fun h => originSold (h key)) hsame
  · by_cases hk : d.sellKey = key
    · have hgone : shared.history key = none := by
        rw [hremoved, hk]
        exact HistoricalTrades.remove_self _ _
      have habsent : (none : Option CopyHistory).isSome = true := hgone ▸ hpresent
      cases habsent
    · have hkept : shared.history key = s.shared.history key := by
        rw [hremoved]
        exact HistoricalTrades.remove_of_ne fun he => hk he.symm
      exact congrArg originSold hkept

/-- A sell that gets an order stays in the pipeline. -/
theorem derived_job {cfg : CopyConfig} {key : Pubkey × Pubkey} {s : Service} {env : ExecEnv}
    {d d' : CopyDetails} {shared : Shared} {result : Except ExecError (Option SwapInput)}
    (h : Accounts cfg key s)
    (hget : getExecutionInput cfg env s.shared d = (shared, d', result))
    (hsizes : d.sellKey = key → Sizes cfg env s.shared.history d) (calls : List ℕ) :
    Job.delivered key ⟨d', .ofInput result, calls⟩ = Job.delivered key ⟨d, .spawned, calls⟩ ∧
      Job.travelling key ⟨d', .ofInput result, calls⟩ =
        Job.travelling key ⟨d, .spawned, calls⟩ := by
  obtain ⟨decimals, copyType, hd⟩ := getExecutionInput_details cfg env s.shared d
  rw [hget] at hd
  change d' = _ at hd
  have hdelivered : Job.delivered key ⟨d', .ofInput result, calls⟩ =
      Job.delivered key ⟨d, .spawned, calls⟩ := by
    rw [hd]
    rfl
  refine ⟨hdelivered, ?_⟩
  by_cases hk : d.sellKey = key
  · obtain ⟨c, hc⟩ := Option.isSome_iff_exists.mp h.present
    obtain ⟨input, hresult, -⟩ := getExecutionInput_sells cfg (hk.symm ▸ hc) (hsizes hk)
    rw [hget] at hresult
    subst hresult
    exact travelling_of_stage rfl rfl hdelivered
  · have hk' : d'.sellKey ≠ key := by
      rw [hd]
      exact hk
    rw [(other_job (j := ⟨d', .ofInput result, calls⟩) hk').2,
      (other_job (j := ⟨d, .spawned, calls⟩) hk).2]

/-- A job that is pending in place of a built one keeps its amount. -/
theorem balanced_sent {cfg : CopyConfig} {key : Pubkey × Pubkey} {s : Service} {i : ℕ}
    {d : CopyDetails} {tx : BuiltTransaction} {calls : List ℕ}
    (hi : s.jobs[i]? = some ⟨d, .built tx, calls⟩)
    (hkeeps : s.pendingFull cfg = false ∨
      ∀ k ∈ s.jobs, k.details.sellKey = key → k.isPending = false) :
    tally (Job.travelling key) ((s.shedJobs cfg).set i
        ⟨d, .pending s.nextTxnId s.clock, calls⟩) = s.travelling key ∧
      tally (Job.delivered key) ((s.shedJobs cfg).set i
        ⟨d, .pending s.nextTxnId s.clock, calls⟩) = s.delivered key := by
  obtain ⟨htravelling, hdelivered⟩ := shedJobs_tally cfg key hkeeps
  have hi' := shedJobs_built cfg hi
  have ht := tally_set (f := Job.travelling key) hi' ⟨d, .pending s.nextTxnId s.clock, calls⟩
  have hd := tally_set (f := Job.delivered key) hi' ⟨d, .pending s.nextTxnId s.clock, calls⟩
  have hsame : Job.travelling key ⟨d, .pending s.nextTxnId s.clock, calls⟩ =
      Job.travelling key ⟨d, .built tx, calls⟩ := rfl
  have hsame' : Job.delivered key ⟨d, .pending s.nextTxnId s.clock, calls⟩ =
      Job.delivered key ⟨d, .built tx, calls⟩ := rfl
  omega

/-- A job that goes back to the queue keeps its amount if there is room for it. -/
theorem requeued_job {cfg : CopyConfig} {key : Pubkey × Pubkey} {s : Service}
    {env : ConfirmEnv} {d d' : CopyDetails} {response : ConfirmTransactionResponse}
    (hconfirm : handleConfirmation cfg d response = .execute d')
    (hsettles : d.sellKey = key → Settles cfg (s.hasRoom cfg) env d response)
    (txnId : TransactionId) (insertedAt : ℕ) (calls : List ℕ) :
    (Job.enqueue (s.hasRoom cfg) d' calls).delivered key =
        Job.delivered key ⟨d, .pending txnId insertedAt, calls⟩ ∧
      (Job.enqueue (s.hasRoom cfg) d' calls).travelling key =
        Job.travelling key ⟨d, .pending txnId insertedAt, calls⟩ := by
  have hsame := handleConfirmation_sameOrigin hconfirm
  have hdetails : (Job.enqueue (s.hasRoom cfg) d' calls).details = d' := by
    rw [Job.enqueue]
    split <;> rfl
  have hdelivered : (Job.enqueue (s.hasRoom cfg) d' calls).delivered key =
      Job.delivered key ⟨d, .pending txnId insertedAt, calls⟩ := by
    refine Job.delivered_eq _ _ ?_ key
    rw [hdetails]
    exact hsame
  refine ⟨hdelivered, ?_⟩
  by_cases hk : d.sellKey = key
  · have hroom := settles_execute (hsettles hk) hconfirm
    refine travelling_of_stage rfl ?_ hdelivered
    rw [hroom]
    rfl
  · have hk' : (Job.enqueue (s.hasRoom cfg) d' calls).details.sellKey ≠ key := by
      rw [hdetails, CopyDetails.sellKey, hsame.signer, hsame.swap]
      exact hk
    rw [(other_job hk').2, (other_job (j := ⟨d, .pending txnId insertedAt, calls⟩) hk).2]

/-- Recording a confirmed transaction counts what travelled with its job. -/
theorem confirmed_sold {cfg : CopyConfig} {key : Pubkey × Pubkey} {s : Service} {i : ℕ}
    {env : ConfirmEnv} {d : CopyDetails} {txnId : TransactionId} {insertedAt : ℕ}
    {calls : List ℕ} {shared : Shared} {trades : List CopyTrade} (h : Accounts cfg key s)
    (hi : s.jobs[i]? = some ⟨d, .pending txnId insertedAt, calls⟩)
    (hrecord : handleSuccessTxn cfg env.success s.shared d env.signature =
      some (shared, trades)) :
    originSold (shared.history key) =
      s.sold key + Job.travelling key ⟨d, .pending txnId insertedAt, calls⟩ := by
  have hle := travelling_le key hi
  have hfits := h.fits
  by_cases hk : d.sellKey = key
  · obtain ⟨o, q, ho, hsells⟩ := h.ready _ (List.mem_of_getElem? hi) hk
    change d = o.quoted q at ho
    subst ho
    have hkey : o.details.sellKey = key := hk
    subst hkey
    have hamount : Job.travelling o.details.sellKey
        ⟨o.quoted q, .pending txnId insertedAt, calls⟩ = o.originAmount :=
      (Job.travelling_of_live rfl _).trans (if_pos rfl)
    rw [hamount] at hle ⊢
    refine handleSuccessTxn_sold hsells h.kept h.present ?_ hrecord
    change s.sold _ + _ < _
    omega
  · obtain ⟨mid, hfirst, hsecond⟩ := handleSuccessTxn_entry hrecord key
    rw [(other_job (j := ⟨d, .pending txnId insertedAt, calls⟩) hk).2,
      hsecond.originSold_eq hk, hfirst.originSold_eq hk]
    rfl

/-- Every step that loses no sell of a token balances its account. -/
theorem balanced_step {cfg : CopyConfig} {key : Pubkey × Pubkey} {s : Service}
    {e : ServiceEvent} (h : Accounts cfg key s) (hcounts : Counts cfg key s e)
    (hpresent : Present key (s.step cfg e)) :
    Balanced key s (s.step cfg e) ∧
      ((s.step cfg e).delivered key = s.delivered key ∨
        (s.step cfg e).sold key + (s.step cfg e).travelling key < 2 ^ 64) := by
  have hcase := s.step_cases cfg e
  generalize s.step cfg e = s' at hcase hpresent
  cases hcase with
  | idle => exact ⟨rfl, .inl rfl⟩
  | delivered t => exact balanced_enqueue hcounts
  | received i d calls hi =>
    have hb := balanced_of_set key s (s.update i ⟨d, .spawned, calls⟩) hi rfl rfl rfl
    exact ⟨hb.1, .inl hb.2⟩
  | derived i env d d' calls shared result hi hget =>
    have hsold := derived_sold hget hpresent
    obtain ⟨hdelivered, htravelling⟩ := derived_job h hget (hcounts _ hi rfl) calls
    have hb := balanced_of_set key s
      { s with shared, jobs := s.jobs.set i ⟨d', .ofInput result, calls⟩ } hi rfl
      hdelivered (by rw [htravelling]; exact congrArg (· + _) hsold)
    exact ⟨hb.1, .inl hb.2⟩
  | attempted i env d d' input attempts calls tx hi hbuild =>
    have hsame := processExecutionInput_sameOrigin cfg env input d
    rw [hbuild] at hsame
    have hdelivered : Job.delivered key
        ⟨d', .ofAttempt cfg input (attempts + 1) tx, bumpCalls calls⟩ =
        Job.delivered key ⟨d, .executing input attempts, calls⟩ :=
      Job.delivered_eq _ ⟨d', .ofAttempt cfg input (attempts + 1) tx, bumpCalls calls⟩ hsame key
    have hlive : (Stage.ofAttempt cfg input (attempts + 1) tx).isLive = true := by
      cases tx with
      | some tx => rfl
      | none =>
        simp only [Stage.ofAttempt]
        split <;> rfl
    have hb := balanced_of_set key s (s.update i
        ⟨d', .ofAttempt cfg input (attempts + 1) tx, bumpCalls calls⟩) hi rfl hdelivered
      (congrArg (s.sold key + ·) (travelling_of_stage rfl hlive hdelivered))
    exact ⟨hb.1, .inl hb.2⟩
  | sent i env d tx calls hi =>
    obtain ⟨htravelling, hdelivered⟩ := balanced_sent hi ((hcounts _ hi).2.1 rfl rfl)
    refine ⟨?_, .inl hdelivered⟩
    change s.sold key + tally (Job.travelling key) ((s.shedJobs cfg).set i _) + _ =
      s.sold key + _ + tally (Job.delivered key) ((s.shedJobs cfg).set i _)
    rw [htravelling, hdelivered]
  | unsent i env d tx calls hi =>
    have hk : d.sellKey ≠ key := by
      intro hk
      have hsent := (hcounts _ hi).1 rfl hk
      cases hsent
    have hb := balanced_of_set key s (s.update i ⟨d, .done .sendFailed, calls⟩)
      hi rfl rfl (congrArg (s.sold key + ·) (other_job (j := ⟨d, .built tx, calls⟩) hk).2.symm)
    exact ⟨hb.1, .inl hb.2⟩
  | failed i sent env d calls hi =>
    have hb := balanced_giveUp h hi rfl ((hcounts _ hi).2.2 rfl)
    exact ⟨hb.1, .inl hb.2⟩
  | requeued i response env d d' txnId insertedAt calls hi hconfirm =>
    obtain ⟨hdelivered, htravelling⟩ :=
      requeued_job hconfirm (hcounts _ hi rfl) txnId insertedAt calls
    have hb := balanced_of_set key s
      (s.update i (Job.enqueue (s.hasRoom cfg) d' calls)) hi rfl hdelivered
      (congrArg (s.sold key + ·) htravelling)
    exact ⟨hb.1, .inl hb.2⟩
  | resent i response env d d' tx txnId insertedAt calls hi hconfirm =>
    exact absurd hconfirm (not_resend (h.budget _ (List.mem_of_getElem? hi)).details)
  | gaveUp i response env d d' txnId insertedAt calls hi hconfirm =>
    obtain rfl := handleConfirmation_failed hconfirm
    have hb := balanced_giveUp h hi rfl fun hk => settles_failed (hcounts _ hi rfl hk) hconfirm
    exact ⟨hb.1, .inl hb.2⟩
  | crashed i response env d d' txnId insertedAt calls hi hconfirm hrecord =>
    exact ⟨rfl, .inl rfl⟩
  | panicked => exact ⟨rfl, .inl rfl⟩
  | confirmed i response env d d' txnId insertedAt calls shared trades hi hconfirm hrecord =>
    obtain rfl := handleConfirmation_success hconfirm
    have hb := balanced_of_set key s
      { s with
        shared
        jobs := s.jobs.set i ⟨d', .done .confirmed, calls⟩
        trades := s.trades ++ trades } hi rfl rfl (confirmed_sold h hi hrecord)
    exact ⟨hb.1, .inl hb.2⟩

/-- Every step that loses no sell of a held token keeps the sells of it ready. -/
theorem ready_step {cfg : CopyConfig} {key : Pubkey × Pubkey} {s : Service}
    {e : ServiceEvent} (h : Accounts cfg key s) (hcounts : Counts cfg key s e) :
    ∀ j ∈ (s.step cfg e).jobs, j.details.sellKey = key → j.Ready := by
  have hget : ∀ {i : ℕ} {j : Job}, s.jobs[i]? = some j → j.details.sellKey = key → j.Ready :=
    fun hi => h.ready _ (List.mem_of_getElem? hi)
  have hcase := s.step_cases cfg e
  generalize s.step cfg e = s' at hcase
  cases hcase with
  | idle => exact h.ready
  | delivered t =>
    intro j hj hk
    rcases List.mem_append.mp hj with hm | hm
    · exact h.ready j hm hk
    · obtain rfl := List.mem_singleton.mp hm
      unfold Job.enqueue
      split <;> trivial
  | received i d calls hi => exact forall_update h.ready fun _ => trivial
  | derived i env d d' calls shared result hi hgetInput =>
    refine forall_update h.ready fun hk => ?_
    obtain ⟨decimals, copyType, hd⟩ := getExecutionInput_details cfg env s.shared d
    rw [hgetInput] at hd
    change d' = _ at hd
    have hk' : d.sellKey = key := by
      rw [← hk]
      change d.sellKey = d'.sellKey
      rw [hd]
      rfl
    obtain ⟨c, hc⟩ := Option.isSome_iff_exists.mp h.present
    obtain ⟨input, hresult, horder, hsells⟩ := getExecutionInput_sells cfg (hk'.symm ▸ hc)
      (hcounts _ hi rfl hk')
    rw [hgetInput] at hresult horder hsells
    subst hresult
    exact ⟨horder, hsells⟩
  | attempted i env d d' input attempts calls tx hi hbuild =>
    refine forall_update h.ready fun hk => ?_
    have hsame := processExecutionInput_sameOrigin cfg env input d
    rw [hbuild] at hsame
    obtain ⟨horder, hsells⟩ := hget hi (hsame.sellKey.symm.trans hk)
    have hready := processExecutionInput_ready cfg env (attempts + 1)
      (bumpCalls calls) horder hsells
    rw [hbuild] at hready
    exact hready
  | sent i env d tx calls hi =>
    intro j hj hk
    rcases List.mem_or_eq_of_mem_set hj with hm | rfl
    · exact shedJobs_ready h.ready j hm hk
    · have hready : Job.Ready ⟨d, .built tx, calls⟩ := hget hi hk
      exact hready
  | unsent i env d tx calls hi => exact forall_update h.ready fun _ => trivial
  | failed i sent env d calls hi => exact forall_update h.ready fun _ => trivial
  | requeued i response env d d' txnId insertedAt calls hi hconfirm =>
    refine forall_update h.ready fun _ => ?_
    unfold Job.enqueue
    split <;> trivial
  | resent i response env d d' tx txnId insertedAt calls hi hconfirm =>
    exact absurd hconfirm (not_resend (h.budget _ (List.mem_of_getElem? hi)).details)
  | gaveUp i response env d d' txnId insertedAt calls hi hconfirm =>
    exact forall_update h.ready fun _ => trivial
  | crashed i response env d d' txnId insertedAt calls hi hconfirm hrecord => exact h.ready
  | panicked => exact h.ready
  | confirmed i response env d d' txnId insertedAt calls shared trades hi hconfirm hrecord =>
    exact forall_update h.ready fun _ => trivial

/-- What is delivered only grows. -/
theorem accounts_step {cfg : CopyConfig} {key : Pubkey × Pubkey} {s : Service}
    {e : ServiceEvent} (h : Accounts cfg key s) (hcounts : Counts cfg key s e)
    (hpresent : Present key (s.step cfg e)) : Accounts cfg key (s.step cfg e) := by
  obtain ⟨hbalanced, hfits⟩ := balanced_step h hcounts hpresent
  refine ⟨wellKept_step cfg s e h.kept, hpresent,
    forall_jobs_step (OriginTrade.withinBudget cfg) Job.withinBudget_step e h.budget,
    ready_step h hcounts, ?_⟩
  rcases hfits with hsame | hword
  · have hroom := h.fits
    unfold Balanced at hbalanced
    omega
  · exact hword

/-- A run that loses no sell of a token balances as a whole. -/
theorem balanced_run {cfg : CopyConfig} {key : Pubkey × Pubkey} {events : List ServiceEvent}
    {s : Service} (h : Accounts cfg key s)
    (hpresent : Visits (step cfg) (Present key) s events)
    (hcounts : Along (step cfg) (Counts cfg key) s events) :
    Balanced key s (exec (step cfg) s events) := by
  induction events generalizing s with
  | nil => rfl
  | cons e events ih =>
    have hfirst := (balanced_step h hcounts.1 hpresent.1).1
    have hrest := ih (accounts_step h hcounts.1 hpresent.1) hpresent.2 hcounts.2
    unfold Balanced at hfirst hrest ⊢
    rw [exec_cons]
    omega

/-- Where no sell of a token is in the pipeline, nothing of it travels. -/
theorem Quiet.travelling_eq {s : Service} {key : Pubkey × Pubkey} (h : s.Quiet key) :
    s.travelling key = 0 := by
  unfold travelling
  unfold Quiet at h
  generalize s.jobs = jobs at h
  induction jobs with
  | nil => rfl
  | cons j jobs ih =>
    have hj : j.travelling key = 0 := by
      by_cases hk : j.details.sellKey = key
      · exact if_neg (by rw [h j List.mem_cons_self hk]; exact Bool.false_ne_true)
      · exact (other_job hk).2
    rw [tally_cons, hj, ih fun k hk => h k (List.mem_cons_of_mem j hk)]

/-- In every run of the service between two states in which no sell of a wallet's token is
in the pipeline, the entry of the token being there all the time: when no step loses a
sell, what the origin wallet is known to have sold has grown by exactly what it sold. -/
theorem sold_eq_delivered (cfg : CopyConfig) (pingTracker : Option PingTracker)
    (buyDisabled : Bool) (before events : List ServiceEvent) (key : Pubkey × Pubkey)
    (s s' : Service)
    (hs : s = exec (step cfg) (init ⟨.empty, pingTracker, buyDisabled⟩) before)
    (hs' : s' = exec (step cfg) s events)
    (hquiet : s.Quiet key) (hstart : Present key s)
    (hpresent : Visits (step cfg) (Present key) s events)
    (hcounts : Along (step cfg) (Counts cfg key) s events)
    (hquiet' : s'.Quiet key) :
    s'.sold key + s.delivered key = s.sold key + s'.delivered key := by
  have hkept : WellKept s.shared.history := by
    rw [hs]
    exact exec_preserves (I := fun s : Service => WellKept s.shared.history)
      (wellKept_step cfg) before (fun _ _ hc => by cases hc)
  have hbudget : ∀ j ∈ s.jobs, j.WithinBudget cfg := by
    rw [hs]
    exact forall_jobs_run (OriginTrade.withinBudget cfg) Job.withinBudget_step _ before
  have haccounts : Accounts cfg key s := by
    refine ⟨hkept, hstart, hbudget, fun j hj hk => ?_, ?_⟩
    · exact Job.ready_of_ended (hquiet j hj hk)
    · obtain ⟨c, hc⟩ := Option.isSome_iff_exists.mp hstart
      rw [hquiet.travelling_eq, Nat.add_zero, sold, hc]
      exact (hkept key c hc).2
  have hbalanced := balanced_run haccounts hpresent hcounts
  unfold Balanced at hbalanced
  rw [← hs', hquiet.travelling_eq, hquiet'.travelling_eq] at hbalanced
  exact hbalanced

/-- One sell that is confirmed. -/
theorem sold_eq_delivered_sample :
    (exec (step sampleConfig) (sampleHolding 100 100) (sampleTrip 1 (sampleSellTrade 50) 0)).sold
        (sampleWallet, sampleToken) + (sampleHolding 100 100).delivered (sampleWallet, sampleToken) =
      (sampleHolding 100 100).sold (sampleWallet, sampleToken) +
        (exec (step sampleConfig) (sampleHolding 100 100)
          (sampleTrip 1 (sampleSellTrade 50) 0)).delivered (sampleWallet, sampleToken) :=
  sold_eq_delivered sampleConfig none false (sampleTrip 0 (sampleBuyTrade 100) 100)
    (sampleTrip 1 (sampleSellTrade 50) 0) (sampleWallet, sampleToken) _ _ rfl rfl
    (by decide +kernel) (by decide +kernel) (by decide +kernel) (by decide +kernel)
    (by decide +kernel)

/-- The origin wallet bought 1000 tokens, we bought 10, and it sells one: nothing is left
for us to sell, the copy is skipped, and the sell is never counted. -/
theorem not_sold_eq_delivered_skipped :
    (sampleHolding 1000 10).Quiet (sampleWallet, sampleToken) ∧
    Present (sampleWallet, sampleToken) (sampleHolding 1000 10) ∧
    Visits (step sampleConfig) (Present (sampleWallet, sampleToken)) (sampleHolding 1000 10)
      (sampleTrip 1 (sampleSellTrade 1) 0) ∧
    (exec (step sampleConfig) (sampleHolding 1000 10)
      (sampleTrip 1 (sampleSellTrade 1) 0)).Quiet (sampleWallet, sampleToken) ∧
    (exec (step sampleConfig) (sampleHolding 1000 10) (sampleTrip 1 (sampleSellTrade 1) 0)).sold
        (sampleWallet, sampleToken) + (sampleHolding 1000 10).delivered (sampleWallet, sampleToken) ≠
      (sampleHolding 1000 10).sold (sampleWallet, sampleToken) +
        (exec (step sampleConfig) (sampleHolding 1000 10)
          (sampleTrip 1 (sampleSellTrade 1) 0)).delivered (sampleWallet, sampleToken) := by
  decide +kernel

end Service

end Biscuit.Copy
