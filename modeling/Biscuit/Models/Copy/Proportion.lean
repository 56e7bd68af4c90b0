import Biscuit.Models.Copy.Accounting

/-!
# Sells in proportion

Every sell of a tracked token is sized so that we will have sold the share of our tokens that
the origin wallet has sold of its own. The size is a difference of two volumes, of which one is
rounded; whether the roundings add up is decided by what the history holds after each sell.
-/

namespace Biscuit.Copy

/-- A step of the service that takes one trade or one order at a time. -/
inductive CopyStep
  /-- An origin trade is sized, and the order that comes of it, if any, is confirmed. -/
  | trade (env : ExecEnv) (d : CopyDetails) (quote : QuoteAnswer) (success : SuccessEnv)
    (signature : Signature)
  /-- An order that was sized before is confirmed. -/
  | confirm (o : Order) (quote : QuoteAnswer) (success : SuccessEnv) (signature : Signature)
  /-- An order that was sized before is given up. -/
  | giveUp (d : CopyDetails) (failure : FailureEnv)

namespace CopyStep

/-- The amount of the order that a step sizes. -/
def sized (cfg : CopyConfig) (s : Shared) : CopyStep → Option ℕ
  | .trade env d _ _ _ =>
    match getExecutionInput cfg env s d with
    | (_, _, .ok (some order)) => some order.amount
    | _ => none
  | _ => none

/-- What the service shares after a step. -/
def run (cfg : CopyConfig) (s : Shared) : CopyStep → Shared
  | .trade env d quote success signature =>
    match getExecutionInput cfg env s d with
    | (s, d, .ok (some order)) =>
      match handleSuccessTxn cfg success s { d with quoteOutput := some (quote.details order) }
          signature with
      | none => s
      | some (s, _) => s
    | (s, _, _) => s
  | .confirm o quote success signature =>
    match handleSuccessTxn cfg success s (o.quoted quote) signature with
    | none => s
    | some (s, _) => s
  | .giveUp d failure => { s with history := handleFailedExecution failure s.history d }

/-- The sells of the token are origin trades of the direct mode that leave the origin wallet a
twentieth of it at least; other orders do not sell the token. -/
def Partial (key : Pubkey × Pubkey) (s : Shared) : CopyStep → Prop
  | .trade _ d _ _ _ => d.sellKey = key → d.walletConfig.mode = .direct ∧
      ∀ c, s.history key = some c →
        20 * (c.origin.sellVolumeToken + d.originSwap.inputAmount) ≤ 19 * c.origin.buyVolumeToken
  | .confirm o _ _ _ => o.details.sells = true → o.details.sellKey ≠ key
  | .giveUp .. => True

/-- A sell of the token is sized within what is left of ours, and its confirmation leaves us with
the origin wallet's share sold, rounded down. -/
def Proportional (cfg : CopyConfig) (key : Pubkey × Pubkey) (s : Shared) (e : CopyStep) : Prop :=
  match e with
  | .trade _ d _ _ _ => d.sellKey = key → ∀ c, s.history key = some c → ∀ amount,
      e.sized cfg s = some amount →
        amount ≤ c.exec.buyVolumeToken - c.exec.sellVolumeToken ∧
        ∃ c', (e.run cfg s).history key = some c' ∧
          c'.origin.buyVolumeToken = c.origin.buyVolumeToken ∧
          c'.origin.sellVolumeToken = c.origin.sellVolumeToken + d.originSwap.inputAmount ∧
          c'.exec.buyVolumeToken = c.exec.buyVolumeToken ∧
          c'.exec.sellVolumeToken = min c'.origin.sellVolumeToken c'.origin.buyVolumeToken *
            c'.exec.buyVolumeToken / c'.origin.buyVolumeToken
  | _ => True

end CopyStep

/-- The entry is one of a tracked token, and the bought volumes are words. -/
def BuyWords (key : Pubkey × Pubkey) (s : Shared) : Prop :=
  ∀ c, s.history key = some c → isStaticToken key.2 = false ∧
    c.origin.buyVolumeToken < 2 ^ 64 ∧ c.exec.buyVolumeToken < 2 ^ 64

/-- One recorded side keeps the bought volumes words. -/
theorem EntryStep.buyWords {d : CopyDetails} {key : Pubkey × Pubkey}
    {entry entry' : Option CopyHistory} (hstep : EntryStep d key entry entry')
    (h : ∀ c, entry = some c → isStaticToken key.2 = false ∧
      c.origin.buyVolumeToken < 2 ^ 64 ∧ c.exec.buyVolumeToken < 2 ^ 64) :
    ∀ c, entry' = some c → isStaticToken key.2 = false ∧
      c.origin.buyVolumeToken < 2 ^ 64 ∧ c.exec.buyVolumeToken < 2 ^ 64 := by
  cases hstep with
  | same => exact h
  | sold v hkey htoken =>
    rintro c ⟨⟩
    cases entry with
    | none =>
      have hzero : 0 < 2 ^ 64 := by decide
      exact ⟨htoken, hzero, hzero⟩
    | some c => exact h c rfl
  | bought v hkey htoken =>
    rintro c ⟨⟩
    exact ⟨htoken, wrapU64_lt _, wrapU64_lt _⟩

theorem handleSuccessTxn_buyWords {cfg : CopyConfig} {success : SuccessEnv} {s s' : Shared}
    {d : CopyDetails} {signature : Signature} {trades : List CopyTrade}
    (h : handleSuccessTxn cfg success s d signature = some (s', trades)) {key : Pubkey × Pubkey}
    (hs : BuyWords key s) : BuyWords key s' := by
  obtain ⟨mid, hfirst, hsecond⟩ := handleSuccessTxn_entry h key
  exact hsecond.buyWords (hfirst.buyWords hs)

theorem getExecutionInput_buyWords (cfg : CopyConfig) (env : ExecEnv) {s : Shared}
    (d : CopyDetails) {key : Pubkey × Pubkey} (hs : BuyWords key s) :
    BuyWords key (getExecutionInput cfg env s d).1 := by
  intro c hc
  rcases getExecutionInput_history cfg env s d with h | h
  · exact hs c (h ▸ hc)
  · rw [h] at hc
    by_cases hk : key = d.sellKey
    · subst hk
      rw [HistoricalTrades.remove_self] at hc
      contradiction
    · rw [HistoricalTrades.remove_of_ne hk] at hc
      exact hs c hc

/-- Every step keeps the bought volumes words. -/
theorem CopyStep.buyWords_run (cfg : CopyConfig) (key : Pubkey × Pubkey) (s : Shared)
    (e : CopyStep) (hs : BuyWords key s) : BuyWords key (e.run cfg s) := by
  cases e with
  | trade env d quote success signature =>
    have hget := getExecutionInput_buyWords cfg env d hs
    simp only [run]
    split
    · next s' d' order he =>
      rw [he] at hget
      split
      · exact hget
      · next hok => exact handleSuccessTxn_buyWords hok hget
    · next s' d' result _ he =>
      rw [he] at hget
      exact hget
  | confirm o quote success signature =>
    simp only [run]
    split
    · exact hs
    · next hok => exact handleSuccessTxn_buyWords hok hs
  | giveUp d failure =>
    intro c hc
    change handleFailedExecution failure s.history d key = some c at hc
    have hcase := handleFailedExecution_cases failure s.history d
    generalize handleFailedExecution failure s.history d = h at hc hcase
    cases hcase with
    | unrecorded hno => exact hs c hc
    | recorded before usd sol hbefore hdec =>
      by_cases hk : key = d.sellKey
      · subst hk
        rw [HistoricalTrades.insert_self] at hc
        obtain rfl := Option.some.inj hc
        exact hs before hbefore
      · rw [HistoricalTrades.insert_of_ne _ hk] at hc
        exact hs c hc

/-! ## One sell -/

/-- Within nineteen twentieths the target is the origin wallet's share, without any clamp. -/
theorem CopyHistory.execTargetAmount_of_partial {c : CopyHistory} {a : ℕ}
    (hb : 0 < c.origin.buyVolumeToken) (horigin : c.origin.buyVolumeToken < 2 ^ 64)
    (hexec : c.exec.buyVolumeToken < 2 ^ 64)
    (hpart : 20 * (c.origin.sellVolumeToken + a) ≤ 19 * c.origin.buyVolumeToken) :
    c.execTargetAmount .exact a = min (c.origin.sellVolumeToken + a) c.origin.buyVolumeToken *
      c.exec.buyVolumeToken / c.origin.buyVolumeToken := by
  have htotal : c.originSellTotal a =
      min (c.origin.sellVolumeToken + a) c.origin.buyVolumeToken := by
    simp only [CopyHistory.originSellTotal, satAddU64, maxU64]
    omega
  have hle : min (c.origin.sellVolumeToken + a) c.origin.buyVolumeToken *
      c.exec.buyVolumeToken / c.origin.buyVolumeToken ≤ c.exec.buyVolumeToken :=
    Nat.div_le_of_le_mul (Nat.mul_le_mul_right _ (min_le_right _ _))
  rw [CopyHistory.execTargetAmount_eq hb, htotal]
  exact min_eq_left (le_maxU64_iff.mpr (by omega))

/-- A confirmed sell of what was sized brings our share to that of the origin wallet: the rounding
of earlier sells is made up for. -/
theorem CopyHistory.addTrade_proportional {c : CopyHistory} {a : ℕ} (token : Pubkey)
    {v : TradeEntry} (hb : 0 < c.origin.buyVolumeToken)
    (horigin : c.origin.buyVolumeToken < 2 ^ 64) (hexec : c.exec.buyVolumeToken < 2 ^ 64)
    (hpart : 20 * (c.origin.sellVolumeToken + a) ≤ 19 * c.origin.buyVolumeToken)
    (hpos : c.sellInputAmount .exact a ≠ 0)
    (hamount : v.execVolumeToken = c.sellInputAmount .exact a)
    (ha : v.originVolumeToken = a) (hdust : v.dustVolumeToken = 0) :
    (c.addTrade token v .sell).origin.sellVolumeToken = c.origin.sellVolumeToken + a ∧
      (c.addTrade token v .sell).exec.sellVolumeToken =
        min (c.origin.sellVolumeToken + a) c.origin.buyVolumeToken *
          c.exec.buyVolumeToken / c.origin.buyVolumeToken := by
  have htarget := CopyHistory.execTargetAmount_of_partial hb horigin hexec hpart
  have hle := c.execTargetAmount_le hb a
  have hsum : c.exec.sellVolumeToken + c.sellInputAmount .exact a =
      c.execTargetAmount .exact a := by
    rw [CopyHistory.sellInputAmount] at hpos ⊢
    omega
  have hnet : wrapSubU64 v.execVolumeToken v.dustVolumeToken =
      c.sellInputAmount .exact a := by
    rw [hdust, hamount, wrapSubU64_of_le (Nat.zero_le _), Nat.sub_zero,
      wrapU64_eq (c.sellInputAmount_lt .exact a)]
  constructor
  · change wrapU64 (c.origin.sellVolumeToken + v.originVolumeToken) = _
    rw [ha, wrapU64_eq (by omega)]
  · change wrapU64 (c.exec.sellVolumeToken + wrapSubU64 v.execVolumeToken v.dustVolumeToken) = _
    rw [hnet, hsum, wrapU64_eq (by omega), htarget]

/-- A sized sell of the token takes the amount of its entry, which stays. -/
theorem getExecutionInput_partial {cfg : CopyConfig} (hexact : cfg.rounding = .exact)
    {env : ExecEnv} {s s' : Shared} {d d' : CopyDetails} {order : SwapInput} {c : CopyHistory}
    (hget : getExecutionInput cfg env s d = (s', d', .ok (some order)))
    (hmode : d.walletConfig.mode = .direct) (hc : s.history d.sellKey = some c)
    (hpart : 20 * (c.origin.sellVolumeToken + d.originSwap.inputAmount) ≤
      19 * c.origin.buyVolumeToken) :
    0 < c.origin.buyVolumeToken ∧ c.sellInputAmount .exact d.originSwap.inputAmount ≠ 0 ∧
      order.amount = c.sellInputAmount .exact d.originSwap.inputAmount ∧
      s'.history = s.history ∧
      d'.sells = true ∧ d'.sellKey = d.sellKey ∧ d'.buyKey ≠ d.sellKey ∧
      d'.originSwap.inputAmount = d.originSwap.inputAmount ∧
      IsDirectOrder d' order := by
  obtain ⟨mints, hmints, hne, -, hprocess⟩ := getExecutionInput_eq_order hget
  have hmode' : (d.resolved mints).walletConfig.mode = .direct := hmode
  simp only [processMode, hmode'] at hprocess
  generalize hdirect : processDirect cfg (buysDisabled env s) s.history (d.resolved mints) = result
    at hprocess
  obtain ⟨history, d₁, given⟩ := result
  obtain ⟨rfl, rfl, rfl⟩ : { s with history } = s' ∧ d₁ = d' ∧ given = .ok (some order) := by
    simpa only [Prod.mk.injEq] using hprocess
  have hsized := processDirect_isDirectOrder hmode' hdirect
  have hcase := processDirect_cases cfg (buysDisabled env s) s.history (d.resolved mints)
  rw [hdirect] at hcase
  have hc' : s.history (d.resolved mints).sellKey = some c := hc
  have hbuy : d.buyKey ≠ d.sellKey := fun h => hne (Prod.mk.inj h).2.symm
  cases hcase with
  | sell c₁ order copyType hdec hc₁ hleft hpos horder =>
    obtain rfl := Option.some.inj (hc'.symm.trans hc₁)
    obtain ⟨-, hamount, hsells, -, -⟩ := directSellOrder_spec horder
    have hb := CopyHistory.buyVolume_pos hleft
    rw [hexact] at hpos hamount
    have hexit : c.isFullExit cfg.rounding (d.resolved mints).originSwap.inputAmount = false := by
      have hle : c.originSellTotal d.originSwap.inputAmount ≤
          c.origin.sellVolumeToken + d.originSwap.inputAmount := by
        simp only [CopyHistory.originSellTotal, satAddU64]
        omega
      rw [hexact]
      by_contra h
      have hfull := (CopyHistory.isFullExit_iff hb _).mp (by simpa using h)
      have hle' : c.originSellTotal (d.resolved mints).originSwap.inputAmount ≤
          c.origin.sellVolumeToken + d.originSwap.inputAmount := hle
      omega
    refine ⟨hb, hpos, hamount, ?_, hsells, rfl, hbuy, rfl, hsized⟩
    rw [hexit]
    rfl
  | buy order hdec hc₁ hbuys hout hin hmint =>
    rw [hc'] at hc₁
    contradiction

/-! ## Runs -/

/-- One sell of the token is in proportion. -/
theorem CopyStep.proportional_of_partial {cfg : CopyConfig} (hexact : cfg.rounding = .exact)
    {key : Pubkey × Pubkey} {s : Shared}
    (hs : BuyWords key s) {e : CopyStep} (he : e.Partial key s) : e.Proportional cfg key s := by
  cases e with
  | confirm o quote success signature => trivial
  | giveUp d failure => trivial
  | trade env d quote success signature =>
    intro hkey c hc amount hamount
    subst hkey
    obtain ⟨hmode, hentry⟩ := he rfl
    have hpart := hentry c hc
    obtain ⟨htracked, horigin, hexec⟩ := hs c hc
    simp only [sized] at hamount
    split at hamount
    · next s' d' order hget =>
      obtain rfl := Option.some.inj hamount
      obtain ⟨hb, hpos, horder, hhistory, hsells, hsellKey, hbuyKey, hinput, hsized⟩ :=
        getExecutionInput_partial hexact hget hmode hc hpart
      constructor
      · rw [horder, CopyHistory.sellInputAmount]
        exact Nat.sub_le_sub_right (c.execTargetAmount_le hb _) _
      · obtain ⟨s'', trades, hrecord, hsides⟩ := handleSuccessTxn_order cfg success s'
          ⟨d', order, hsized⟩ quote signature
        have hrecord' : handleSuccessTxn cfg success s'
            { d' with quoteOutput := some (quote.details order) } signature =
              some (s'', trades) := hrecord
        have hrun : CopyStep.run cfg s (.trade env d quote success signature) = s'' := by
          simp only [run, hget, hrecord']
        obtain ⟨mid, hsold, hbought⟩ := hsides d.sellKey
        rw [hrun]
        rw [hhistory, hc] at hsold
        generalize s''.history d.sellKey = entry at hbought ⊢
        generalize tally (CopyTrade.boughtAmount d.sellKey) trades = net at hbought
        cases hsold with
        | other hno => exact absurd hsellKey (hno hsells)
        | untracked _ _ htoken =>
          rw [htracked] at htoken
          contradiction
        | sold v _ _ _ hvolume hvorigin hdust =>
          cases hbought with
          | bought w _ hkey => exact absurd hkey hbuyKey
          | other =>
            obtain ⟨hsold, hshare⟩ := CopyHistory.addTrade_proportional d.sellKey.2 hb
              horigin hexec hpart hpos (hvolume.trans horder) (hvorigin.trans hinput) hdust
            refine ⟨_, rfl, rfl, hsold, rfl, ?_⟩
            rw [Option.getD_some, hsold]
            exact hshare
    · contradiction

/-- Over exact rationals, in every run whose sells of a token are partial, each of them confirmed
before the next one is sized, every sell of the token is in proportion, whatever is bought in
between. -/
theorem proportional_along (cfg : CopyConfig) (hexact : cfg.rounding = .exact)
    {key : Pubkey × Pubkey} {s : Shared}
    {es : List CopyStep} (hs : BuyWords key s)
    (hes : Along (CopyStep.run cfg) (CopyStep.Partial key) s es) :
    Along (CopyStep.run cfg) (CopyStep.Proportional cfg key) s es :=
  hes.strengthen (I := BuyWords key)
    (fun s e hs _ => CopyStep.buyWords_run cfg key s e hs)
    (fun _ _ hs he => CopyStep.proportional_of_partial hexact hs he) hs

/-- The origin wallet bought three hundred tokens and we a hundred. -/
def heldEntry : CopyHistory :=
  { origin := { buyVolumeToken := 300 }, exec := { buyVolumeToken := 100 }, token := sampleToken }

/-- Nothing else is held. -/
def heldState : Shared where
  history := HistoricalTrades.empty.insert (sampleWallet, sampleToken) heldEntry
  pingTracker := none
  buyDisabled := false

/-- The origin wallet sells fifty of its tokens. -/
def sellFifty : CopyStep := .trade sampleEnv (sampleSell 50) sampleQuote (sampleSuccess 10) 1

/-- A sixth is sold with sixteen tokens, and a third with seventeen more. -/
example : sellFifty.sized exactConfig heldState = some 16 ∧
    sellFifty.sized exactConfig (sellFifty.run exactConfig heldState) = some 17 := by
  decide +kernel

/-- Two sells of a sixth each are in proportion. -/
theorem proportional_two_sells :
    Along (CopyStep.run exactConfig)
      (CopyStep.Proportional exactConfig (sampleWallet, sampleToken)) heldState
      [sellFifty, sellFifty] := by
  have hpart : ∀ s : Shared,
      (s.history (sampleWallet, sampleToken)).all (fun c =>
        decide (20 * (c.origin.sellVolumeToken + 50) ≤ 19 * c.origin.buyVolumeToken)) = true →
      sellFifty.Partial (sampleWallet, sampleToken) s := by
    intro s hs _
    refine ⟨rfl, fun c hc => ?_⟩
    rw [hc] at hs
    exact of_decide_eq_true hs
  refine proportional_along exactConfig rfl (fun c hc => ?_)
    ⟨hpart _ (by decide +kernel), hpart _ (by decide +kernel), trivial⟩
  obtain rfl : heldEntry = c := Option.some.inj hc
  exact ⟨by decide, by decide, by decide⟩

end Biscuit.Copy
