import Biscuit.Models.Copy.Book

/-!
# Retries of an order

A retry derives its order again from the origin swap and from the shared state that the
first derivation left. The direct mode leaves the state as it was, except on a full exit;
the ping mode has counted the wallet by then and never finds it new again.
-/

namespace Biscuit.Copy

/-- The details after a number of attempts to build a transaction for an order. -/
def attempts (cfg : CopyConfig) (input : SwapInput) (d : CopyDetails)
    (builds : List BuildEnv) : CopyDetails :=
  builds.foldl (fun d env => (processExecutionInput cfg env input d).1) d

/-! ## What an execution leaves alone -/

/-- Two details of one origin transaction, for the same copy type. -/
structure SameOrigin (d d' : CopyDetails) : Prop where
  signature : d'.originSignature = d.originSignature
  signer : d'.originSigner = d.originSigner
  swap : d'.originSwap = d.originSwap
  solBalance : d'.originSolBalance = d.originSolBalance
  inputMintBalance : d'.originInputMintBalance = d.originInputMintBalance
  wallet : d'.walletConfig = d.walletConfig
  copyType : d'.copyType = d.copyType

namespace SameOrigin

variable {d d' d'' : CopyDetails}

theorem refl (d : CopyDetails) : SameOrigin d d := ⟨rfl, rfl, rfl, rfl, rfl, rfl, rfl⟩

theorem trans (h : SameOrigin d d') (h' : SameOrigin d' d'') : SameOrigin d d'' where
  signature := h'.signature.trans h.signature
  signer := h'.signer.trans h.signer
  swap := h'.swap.trans h.swap
  solBalance := h'.solBalance.trans h.solBalance
  inputMintBalance := h'.inputMintBalance.trans h.inputMintBalance
  wallet := h'.wallet.trans h.wallet
  copyType := h'.copyType.trans h.copyType

theorem sellKey (h : SameOrigin d d') : d'.sellKey = d.sellKey := by
  unfold CopyDetails.sellKey
  rw [h.signer, h.swap]

end SameOrigin

/-- Building a transaction sets the fee and the quote, and nothing else. -/
theorem processExecutionInput_sameOrigin (cfg : CopyConfig) (env : BuildEnv)
    (input : SwapInput) (d : CopyDetails) :
    SameOrigin d (processExecutionInput cfg env input d).1 := by
  unfold processExecutionInput
  cases env.quote with
  | none => exact .refl d
  | some q => cases env.transaction <;> exact ⟨rfl, rfl, rfl, rfl, rfl, rfl, rfl⟩

theorem attempts_sameOrigin (cfg : CopyConfig) (input : SwapInput) (d : CopyDetails)
    (builds : List BuildEnv) : SameOrigin d (attempts cfg input d builds) := by
  unfold attempts
  induction builds generalizing d with
  | nil => exact .refl d
  | cons env builds ih =>
    exact (processExecutionInput_sameOrigin cfg env input d).trans (ih _)

/-- A confirmation that asks for one more execution only changes the counters. -/
theorem handleConfirmation_sameOrigin {cfg : CopyConfig} {d d' : CopyDetails}
    {response : ConfirmTransactionResponse}
    (h : handleConfirmation cfg d response = .execute d') : SameOrigin d d' := by
  unfold handleConfirmation at h
  split at h
  · split at h
    · obtain rfl := Disposition.execute.inj h
      exact ⟨rfl, rfl, rfl, rfl, rfl, rfl, rfl⟩
    · cases h
  · cases h
  · split at h
    · split at h
      · obtain rfl := Disposition.execute.inj h
        exact ⟨rfl, rfl, rfl, rfl, rfl, rfl, rfl⟩
      · cases h
    · cases h

/-! ## Deriving the order again -/

/-- What the direct mode derives depends on the origin transaction and the wallet alone. -/
theorem processDirect_congr (cfg : CopyConfig) (buyDisabled : Bool) (h : HistoricalTrades)
    (d d' : CopyDetails) (hswap : d'.originSwap = d.originSwap)
    (hsigner : d'.originSigner = d.originSigner)
    (hbalance : d'.originSolBalance = d.originSolBalance)
    (hwallet : d'.walletConfig = d.walletConfig) :
    (processDirect cfg buyDisabled h d').1 = (processDirect cfg buyDisabled h d).1 ∧
    (processDirect cfg buyDisabled h d').2.2 = (processDirect cfg buyDisabled h d).2.2 ∧
    ∀ input, (processDirect cfg buyDisabled h d).2.2 = .ok (some input) →
      (processDirect cfg buyDisabled h d').2.1.copyType =
        (processDirect cfg buyDisabled h d).2.1.copyType := by
  have hkey : d'.sellKey = d.sellKey := by simp only [CopyDetails.sellKey, hswap, hsigner]
  have horder : ∀ amount, directSellOrder cfg buyDisabled d' amount =
      directSellOrder cfg buyDisabled d amount := fun amount => by
    simp only [directSellOrder, hswap]
  unfold processDirect
  simp only [hkey, hswap, hsigner, hbalance, hwallet, horder]
  cases d.originSwap.tokenDecimals with
  | none => exact ⟨rfl, rfl, fun _ hr => nomatch hr⟩
  | some decimals =>
    cases h d.sellKey with
    | none =>
      simp only
      split_ifs
      · exact ⟨rfl, rfl, fun _ hr => nomatch hr⟩
      · exact ⟨rfl, rfl, fun _ hr => nomatch hr⟩
      · exact ⟨rfl, rfl, fun _ _ => rfl⟩
    | some c =>
      simp only
      by_cases hleft : c.originTokensLeft = 0
      · simp only [if_pos hleft]
        exact ⟨trivial, trivial, fun _ hr => nomatch hr⟩
      · have hb : c.origin.buyVolumeToken ≠ 0 := (CopyHistory.buyVolume_pos hleft).ne'
        simp only [if_neg hleft, if_neg hb]
        by_cases hzero : c.sellInputAmount cfg.rounding d.originSwap.inputAmount = 0
        · simp only [if_pos hzero]
          exact ⟨trivial, trivial, fun _ hr => nomatch hr⟩
        · simp only [if_neg hzero]
          exact ⟨trivial, trivial, fun _ _ => trivial⟩

/-- What an order of the direct mode does to the shared state and to the details. -/
theorem getExecutionInput_direct {cfg : CopyConfig} {env : ExecEnv} {s s' : Shared}
    {d d₁ : CopyDetails} {input : SwapInput} (hmode : d.walletConfig.mode = .direct)
    (h : getExecutionInput cfg env s d = (s', d₁, .ok (some input))) :
    ∃ mints, env.mintInfo = some mints ∧
      d.originSwap.inputTokenMint ≠ d.originSwap.outputTokenMint ∧ input.amount ≠ 0 ∧
      s' = { s with
        history := (processDirect cfg (buysDisabled env s) s.history (d.resolved mints)).1 } ∧
      processDirect cfg (buysDisabled env s) s.history (d.resolved mints) =
        (s'.history, d₁, .ok (some input)) := by
  obtain ⟨mints, hmints, hne, hpos, horder⟩ := getExecutionInput_eq_order h
  have hmode' : (d.resolved mints).walletConfig.mode = .direct := hmode
  simp only [processMode, hmode', Prod.mk.injEq] at horder
  obtain ⟨rfl, rfl, hresult⟩ := horder
  refine ⟨mints, hmints, hne, hpos, rfl, ?_⟩
  rw [← hresult]

/-- The order of the direct mode is the order of `process_direct`, unless it is of nothing. -/
theorem getExecutionInput_of_processDirect {cfg : CopyConfig} {env : ExecEnv} {s : Shared}
    {d d₁ : CopyDetails} {input : SwapInput} {mints : Option ℕ × Option ℕ}
    {h : HistoricalTrades} (hmode : d.walletConfig.mode = .direct)
    (hmints : env.mintInfo = some mints)
    (hne : d.originSwap.inputTokenMint ≠ d.originSwap.outputTokenMint)
    (hpos : input.amount ≠ 0)
    (hp : processDirect cfg (buysDisabled env s) s.history (d.resolved mints) =
      (h, d₁, .ok (some input))) :
    getExecutionInput cfg env s d = ({ s with history := h }, d₁, .ok (some input)) := by
  have hne' : (d.resolved mints).originSwap.inputTokenMint ≠
      (d.resolved mints).originSwap.outputTokenMint := hne
  have hmode' : (d.resolved mints).walletConfig.mode = .direct := hmode
  simp only [getExecutionInput, hmints, if_neg hne', processMode, hmode', hp, Except.map,
    nonzeroOrder, if_neg hpos]

/-- An order of the ping mode means that the swap made the wallet count for its token. -/
theorem getExecutionInput_ping {cfg : CopyConfig} {env : ExecEnv} {s s' : Shared}
    {d d₁ : CopyDetails} {input : SwapInput} (hmode : d.walletConfig.mode = .ping)
    (h : getExecutionInput cfg env s d = (s', d₁, .ok (some input))) :
    ∃ mints tracker tracker', env.mintInfo = some mints ∧ s.pingTracker = some tracker ∧
      s'.pingTracker = some tracker' ∧
      tracker.insertSwap cfg.rounding d.originSigner d.originSignature (d.resolved mints).originSwap
        env.priceFeed = (tracker', .ok true) ∧
      d₁.originSigner = d.originSigner ∧ d₁.walletConfig = d.walletConfig ∧
      d₁.originSwap = (d.resolved mints).originSwap := by
  obtain ⟨mints, hmints, -, -, horder⟩ := getExecutionInput_eq_order h
  have hmode' : (d.resolved mints).walletConfig.mode = .ping := hmode
  simp only [processMode, hmode', processPing] at horder
  cases htracker : s.pingTracker with
  | none =>
    simp only [htracker] at horder
    cases congrArg (fun r => r.2.2) horder
  | some tracker =>
    simp only [htracker] at horder
    generalize hinsert : tracker.insertSwap cfg.rounding (d.resolved mints).originSigner
      (d.resolved mints).originSignature (d.resolved mints).originSwap env.priceFeed =
      inserted at horder
    obtain ⟨tracker', pinged⟩ := inserted
    cases pinged with
    | error e => cases e <;> cases congrArg (fun r => r.2.2) horder
    | ok pinged =>
      cases hbalance : (d.resolved mints).originInputMintBalance with
      | none =>
        simp only [hbalance] at horder
        cases congrArg (fun r => r.2.2) horder
      | some balance =>
        simp only [hbalance] at horder
        cases pinged with
        | false =>
          simp only [Bool.false_and, Bool.false_eq_true, if_false] at horder
          split at horder
          · rename_i hnone
            cases hnone
          · cases congrArg (fun r => r.2.2) horder
          · rename_i hnone
            cases hnone
          · cases congrArg (fun r => r.2.2) horder
        | true =>
          refine ⟨mints, tracker, tracker', hmints, rfl, ?_⟩
          split at horder
          all_goals
            obtain ⟨rfl, rfl, -⟩ := Prod.mk.inj horder |>.imp id Prod.mk.inj
            exact ⟨rfl, hinsert, rfl, rfl, rfl⟩

/-! ## A retry of an order -/

/-- The position is not given up when it is sized: as the machine computes it, the ratio of the
origin wallet does not exceed 0.95. -/
def NoFullExit (cfg : CopyConfig) (s : Shared) (d : CopyDetails) : Prop :=
  ∀ c ∈ s.history d.sellKey, c.isFullExit cfg.rounding d.originSwap.inputAmount = false

/-- Short of a full exit, sizing in the direct mode leaves the history alone. -/
theorem processDirect_history {cfg : CopyConfig} {buyDisabled : Bool} {h h' : HistoricalTrades}
    {d d' : CopyDetails} {result : Except ExecError (Option SwapInput)}
    (hexit : ∀ c ∈ h d.sellKey, c.isFullExit cfg.rounding d.originSwap.inputAmount = false)
    (hp : processDirect cfg buyDisabled h d = (h', d', result)) : h' = h := by
  have hcase := processDirect_cases cfg buyDisabled h d
  rw [hp] at hcase
  cases hcase with
  | unresolved hdec => rfl
  | exhausted c hdec hc hleft => rfl
  | skipSell c hdec hc hleft hzero => simp only [hexit c hc, Bool.false_eq_true, if_false]
  | sell c order copyType hdec hc hleft hpos horder =>
    simp only [hexit c hc, Bool.false_eq_true, if_false]
  | skipBuy hdec hc hskip => rfl
  | buy order hdec hc hbuy hout hin hmint => rfl

/-- The details of an order of the direct mode keep the origin swap. -/
theorem processDirect_sameOrigin {cfg : CopyConfig} {buyDisabled : Bool} {h h' : HistoricalTrades}
    {d d' : CopyDetails} {result : Except ExecError (Option SwapInput)}
    (hp : processDirect cfg buyDisabled h d = (h', d', result)) :
    d'.originSwap = d.originSwap ∧ d'.originSigner = d.originSigner ∧
      d'.originSolBalance = d.originSolBalance ∧ d'.walletConfig = d.walletConfig := by
  have hcase := processDirect_cases cfg buyDisabled h d
  rw [hp] at hcase
  cases hcase <;> exact ⟨rfl, rfl, rfl, rfl⟩

/-- A retry of the direct mode finds the same order when the entry is still there. -/
theorem retry_direct {cfg : CopyConfig} {env : ExecEnv} {s s' : Shared}
    {d d₁ d₂ : CopyDetails} {input : SwapInput} (priceFeed : PriceFeed)
    (hmode : d.walletConfig.mode = .direct) (hexit : NoFullExit cfg s d)
    (hfirst : getExecutionInput cfg env s d = (s', d₁, .ok (some input)))
    (hsame : SameOrigin d₁ d₂) :
    ∃ d₃, getExecutionInput cfg { env with priceFeed } s' d₂ = (s', d₃, .ok (some input)) ∧
      d₃.copyType = d₁.copyType := by
  obtain ⟨mints, hmints, hne, hpos, hs', hp⟩ := getExecutionInput_direct hmode hfirst
  have hexit' : ∀ c ∈ s.history (d.resolved mints).sellKey,
      c.isFullExit cfg.rounding (d.resolved mints).originSwap.inputAmount = false := hexit
  have hhistory : s'.history = s.history := processDirect_history hexit' hp
  have hshared : s' = s := by rw [hs', hp, hhistory]
  subst hshared
  obtain ⟨hswap, hsigner, hbalance, hwallet⟩ := processDirect_sameOrigin hp
  have hswap₂ : (d₂.resolved mints).originSwap = (d.resolved mints).originSwap := by
    simp only [CopyDetails.resolved, hsame.swap, hswap]
  obtain ⟨hh, hr, hct⟩ := processDirect_congr cfg (buysDisabled env s') s'.history
    (d.resolved mints) (d₂.resolved mints) hswap₂
    (hsame.signer.trans hsigner) (hsame.solBalance.trans hbalance)
    (hsame.wallet.trans hwallet)
  rw [hp] at hh hr hct
  have hmode₂ : d₂.walletConfig.mode = .direct := by rw [hsame.wallet, hwallet]; exact hmode
  have hne₂ : d₂.originSwap.inputTokenMint ≠ d₂.originSwap.outputTokenMint := by
    rw [hsame.swap, hswap]
    exact hne
  have hagain : processDirect cfg (buysDisabled { env with priceFeed } s') s'.history
      (d₂.resolved mints) = (s'.history,
        (processDirect cfg (buysDisabled env s') s'.history (d₂.resolved mints)).2.1,
        .ok (some input)) := Prod.ext hh (Prod.ext rfl hr)
  exact ⟨_, getExecutionInput_of_processDirect hmode₂ hmints hne₂ hpos hagain, hct input rfl⟩

/-- After a full exit a retry finds no entry, and never sells again. -/
theorem retry_full_exit {cfg : CopyConfig} {env env' : ExecEnv} {s s' s'' : Shared}
    {d d₁ d₂ d₃ : CopyDetails} {input input' : SwapInput} {c : CopyHistory}
    (hmode : d.walletConfig.mode = .direct) (hc : s.history d.sellKey = some c)
    (hexit : c.isFullExit cfg.rounding d.originSwap.inputAmount = true)
    (hfirst : getExecutionInput cfg env s d = (s', d₁, .ok (some input)))
    (hsame : SameOrigin d₁ d₂)
    (hretry : getExecutionInput cfg env' s' d₂ = (s'', d₃, .ok (some input'))) :
    d₃.copyType ≠ d₁.copyType := by
  obtain ⟨mints, hmints, hne, hpos, hs', hp⟩ := getExecutionInput_direct hmode hfirst
  obtain ⟨hswap, hsigner, hbalance, hwallet⟩ := processDirect_sameOrigin hp
  have hmode₂ : d₂.walletConfig.mode = .direct := by rw [hsame.wallet, hwallet]; exact hmode
  have hkey₂ : d₂.sellKey = d.sellKey := by
    simp only [CopyDetails.sellKey, hsame.signer, hsame.swap, hsigner, hswap,
      CopyDetails.resolved]
  obtain ⟨mints', -, -, -, -, hp'⟩ := getExecutionInput_direct hmode₂ hretry
  have hsold : d₁.sells = true ∧ s'.history d.sellKey = none := by
    have hcase := processDirect_cases cfg (buysDisabled env s) s.history (d.resolved mints)
    rw [hp] at hcase
    generalize s'.history = history at hcase ⊢
    cases hcase with
    | sell c' order copyType hdec hc' hleft hpos horder =>
      obtain rfl : c' = c := Option.some.inj (hc'.symm.trans hc)
      have hexit' : c'.isFullExit cfg.rounding (d.resolved mints).originSwap.inputAmount = true :=
        hexit
      refine ⟨(directSellOrder_spec horder).2.2.1, ?_⟩
      simp only [hexit', if_true]
      exact HistoricalTrades.remove_self _ _
    | buy order hdec hc' hbuy hout hin hmint =>
      rw [show (d.resolved mints).sellKey = d.sellKey from rfl, hc] at hc'
      cases hc'
  have hbought : d₃.copyType = some .buy := by
    have hcase := processDirect_cases cfg (buysDisabled env' s') s'.history
      (d₂.resolved mints')
    rw [hp'] at hcase
    generalize s''.history = history at hcase
    cases hcase with
    | sell c' order copyType hdec hc' hleft hpos horder =>
      have hnone : s'.history (d₂.resolved mints').sellKey = none := by
        rw [show (d₂.resolved mints').sellKey = d₂.sellKey from rfl, hkey₂]
        exact hsold.2
      rw [hnone] at hc'
      cases hc'
    | buy order hdec hc' hbuy hout hin hmint => rfl
  intro heq
  have hsells := hsold.1
  rw [CopyDetails.sells, ← heq, hbought] at hsells
  cases hsells

/-- A retry of the ping mode derives no order: the wallet already counts. -/
theorem retry_ping {cfg : CopyConfig} {env env' : ExecEnv} {s s' s'' : Shared}
    {d d₁ d₂ d₃ : CopyDetails} {input input' : SwapInput}
    (hmode : d.walletConfig.mode = .ping)
    (hfirst : getExecutionInput cfg env s d = (s', d₁, .ok (some input)))
    (hsame : SameOrigin d₁ d₂)
    (hretry : getExecutionInput cfg env' s' d₂ = (s'', d₃, .ok (some input'))) : False := by
  obtain ⟨mints, tracker, tracker', -, -, htracker', hinsert, hsigner, hwallet, hswap⟩ :=
    getExecutionInput_ping hmode hfirst
  have hmode₂ : d₂.walletConfig.mode = .ping := by rw [hsame.wallet, hwallet]; exact hmode
  obtain ⟨mints', tracker₁, tracker'', -, htracker₁, -, hinsert', -⟩ :=
    getExecutionInput_ping hmode₂ hretry
  obtain rfl : tracker₁ = tracker' := Option.some.inj (htracker₁.symm.trans htracker')
  rw [hsame.signer, hsigner] at hinsert'
  have hmint : (d₂.resolved mints').originSwap.outputTokenMint =
      (d.resolved mints).originSwap.outputTokenMint := by
    simp only [CopyDetails.resolved, hsame.swap, hswap]
  exact absurd (PingTracker.insertSwap_again hmint hinsert hinsert') nofun

/-- An order that is derived again, from the state its first derivation left, is the same
order of the same type and leaves that state as it is, exactly when it is an order of the
direct mode that was not sized on a full exit. -/
theorem retry_same_order_iff (cfg : CopyConfig) (env : ExecEnv) (s s' : Shared)
    (d d₁ d₂ : CopyDetails) (input : SwapInput) (builds : List BuildEnv)
    (response : ConfirmTransactionResponse) (priceFeed : PriceFeed)
    (hfirst : getExecutionInput cfg env s d = (s', d₁, .ok (some input)))
    (hretry : handleConfirmation cfg (attempts cfg input d₁ builds) response = .execute d₂) :
    (∃ d₃, getExecutionInput cfg { env with priceFeed } s' d₂ = (s', d₃, .ok (some input)) ∧
      d₃.copyType = d₁.copyType) ↔
    d.walletConfig.mode = .direct ∧ NoFullExit cfg s d := by
  have hsame : SameOrigin d₁ d₂ :=
    (attempts_sameOrigin cfg input d₁ builds).trans (handleConfirmation_sameOrigin hretry)
  constructor
  · rintro ⟨d₃, hagain, htype⟩
    cases hmode : d.walletConfig.mode with
    | ping => exact (retry_ping hmode hfirst hsame hagain).elim
    | direct =>
      refine ⟨rfl, fun c hc => ?_⟩
      cases hexit : c.isFullExit cfg.rounding d.originSwap.inputAmount with
      | false => rfl
      | true => exact absurd htype (retry_full_exit hmode hc hexit hfirst hsame hagain)
  · rintro ⟨hmode, hexit⟩
    exact retry_direct priceFeed hmode hexit hfirst hsame

/-- A buy of the sample wallet, retried once. -/
theorem retry_same_order_iff_sample :
    ∃ d₁ d₂ d₃ input, getExecutionInput sampleConfig sampleEnv ⟨.empty, none, false⟩
        (sampleBuy 100) = (⟨.empty, none, false⟩, d₁, .ok (some input)) ∧
      handleConfirmation sampleConfig (attempts sampleConfig input d₁ [])
        (.unconfirmed .expired) = .execute d₂ ∧
      getExecutionInput sampleConfig sampleEnv ⟨.empty, none, false⟩ d₂ =
        (⟨.empty, none, false⟩, d₃, .ok (some input)) := by
  have hfirst : getExecutionInput sampleConfig sampleEnv ⟨.empty, none, false⟩
      (sampleBuy 100) = (⟨.empty, none, false⟩,
        { (sampleBuy 100).resolved (some 6, some 9) with copyType := some .buy },
        .ok (some (exactInOrder sampleConfig SOL sampleToken 10))) := rfl
  obtain ⟨d₃, hagain, -⟩ := (retry_same_order_iff sampleConfig sampleEnv _ _ _ _ _ _ []
    (.unconfirmed .expired) sampleEnv.priceFeed hfirst rfl).mpr ⟨rfl, fun c hc => nomatch hc⟩
  exact ⟨_, _, d₃, _, hfirst, rfl, hagain⟩

/-- The state after the sample wallet bought 100 tokens. -/
def sampleHeld : Shared :=
  (exec (Book.step sampleConfig) (Book.init none false) sampleBought).shared

/-- A sell of 96 tokens out of 100 is sized, expires, and derives nothing when it is
retried: its entry is gone. -/
theorem not_retry_same_order_full_exit :
    ∃ s' d₁ d₂ input, getExecutionInput sampleConfig sampleEnv sampleHeld (sampleSell 96) =
        (s', d₁, .ok (some input)) ∧
      handleConfirmation sampleConfig (attempts sampleConfig input d₁ [])
        (.unconfirmed .expired) = .execute d₂ ∧
      ¬ ∃ d₃, getExecutionInput sampleConfig sampleEnv s' d₂ = (s', d₃, .ok (some input)) ∧
        d₃.copyType = d₁.copyType := by
  let first := getExecutionInput sampleConfig sampleEnv sampleHeld (sampleSell 96)
  have hresult : first.2.2 = .ok (some (exactInOrder sampleConfig sampleToken SOL 96)) := by
    decide +kernel
  have hretries : first.2.1.sendTxnRetries = 0 := by decide +kernel
  have hstrategy : first.2.1.retryStrategy = .buildTransaction := by decide +kernel
  have hagain : (getExecutionInput sampleConfig sampleEnv first.1
      (first.2.1.retryUnconfirmed sampleConfig)).2.2 = .ok none := by
    decide +kernel
  refine ⟨first.1, first.2.1, first.2.1.retryUnconfirmed sampleConfig, _,
    Prod.ext rfl (Prod.ext rfl hresult), ?_, ?_⟩
  · change handleConfirmation sampleConfig first.2.1 _ = _
    simp only [handleConfirmation, hretries, hstrategy]
    rfl
  · rintro ⟨d₃, hsome, -⟩
    rw [hsome] at hagain
    cases hagain

end Biscuit.Copy
