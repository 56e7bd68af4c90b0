import Biscuit.Models.Copy.Book

/-!
# Sells against holdings

A sell is sized from the recorded volumes, and it is recorded only when it is confirmed.
A sell that is sized while another one of the same wallet and token is in flight is
therefore sized as if the other one did not exist. Without such overlaps no more is ever
sold than was bought.
-/

namespace Biscuit.Copy

namespace Book

/-- The amount of the sells in flight. -/
def sellsInFlight (s : Book) (key : Pubkey × Pubkey) : ℕ := tally (Order.selling key Order.amount) s.inFlight

/-- The amount of the confirmed sells. -/
def sellsConfirmed (s : Book) (key : Pubkey × Pubkey) : ℕ :=
  tally (Order.selling key Order.amount) s.confirmed

/-- The amount bought by confirmed orders. -/
def bought (s : Book) (key : Pubkey × Pubkey) : ℕ := tally (CopyTrade.boughtAmount key) s.trades

/-- No more is sold or asked to be sold than was bought. -/
def Covers (s : Book) (key : Pubkey × Pubkey) : Prop :=
  s.sellsConfirmed key + s.sellsInFlight key ≤ s.bought key

instance (s : Book) (key : Pubkey × Pubkey) : Decidable (s.Covers key) :=
  inferInstanceAs (Decidable (_ ≤ _))

/-- A swap out of a held token of the wallet arrives when no sell of it is in flight. -/
def SizedAlone (key : Pubkey × Pubkey) (s : Book) : BookEvent → Prop
  | .trade _ d => d.sellKey = key → s.shared.history key = none ∨
      ∀ o ∈ s.inFlight, o.details.sells = true → o.details.sellKey ≠ key
  | _ => True

instance (key : Pubkey × Pubkey) (s : Book) : ∀ e, Decidable (SizedAlone key s e)
  | .trade _ d => inferInstanceAs (Decidable (d.sellKey = key → _))
  | .confirm .. => isTrue trivial
  | .fail .. => isTrue trivial

end Book

/-! ## One entry and its totals -/

/-- The bought volume of an entry, zero when it is absent. -/
def boughtVolume : Option CopyHistory → ℕ
  | none => 0
  | some c => c.exec.buyVolumeToken

/-- The sold volume of an entry, zero when it is absent. -/
def soldVolume : Option CopyHistory → ℕ
  | none => 0
  | some c => c.exec.sellVolumeToken

theorem getD_boughtVolume (entry : Option CopyHistory) :
    (entry.getD {}).exec.buyVolumeToken = boughtVolume entry := by
  cases entry <;> rfl

theorem getD_soldVolume (entry : Option CopyHistory) :
    (entry.getD {}).exec.sellVolumeToken = soldVolume entry := by
  cases entry <;> rfl

/-- An entry agrees with the totals of its token: what is in flight is covered, what the
entry says is left was really bought, and the sold volume has room for what is in flight. -/
structure Covered (token : Pubkey) (entry : Option CopyHistory)
    (confirmed inFlight bought : ℕ) : Prop where
  covered : confirmed + inFlight ≤ bought
  left : boughtVolume entry + confirmed ≤ bought + soldVolume entry
  word : boughtVolume entry < 2 ^ 64
  room : soldVolume entry + inFlight < 2 ^ 64
  tracked : entry.isSome = true → isStaticToken token = false

namespace Covered

variable {token : Pubkey} {entry : Option CopyHistory} {c : CopyHistory}
  {confirmed inFlight bought : ℕ}

/-- Dropping the entry forgets what is left. -/
theorem drop (h : Covered token entry confirmed inFlight bought) :
    Covered token none confirmed inFlight bought where
  covered := h.covered
  left := by
    have hc := h.covered
    simp only [boughtVolume, soldVolume]
    omega
  word := by simp only [boughtVolume]; omega
  room := by
    have hr := h.room
    simp only [soldVolume]
    omega
  tracked := nofun

/-- A sell sized while none is in flight is covered, by the clamps of `process_direct`. -/
theorem size (h : Covered token (some c) confirmed 0 bought) (hleft : c.originTokensLeft ≠ 0)
    {amount : ℕ} (hpos : c.sellInputAmount .exact amount ≠ 0) :
    Covered token (some c) confirmed (c.sellInputAmount .exact amount) bought := by
  have hsell := CopyHistory.sellInputAmount_le (CopyHistory.buyVolume_pos hleft) amount
  have hl : c.exec.buyVolumeToken + confirmed ≤ bought + c.exec.sellVolumeToken := h.left
  have hw : c.exec.buyVolumeToken < 2 ^ 64 := h.word
  have hfit : c.exec.sellVolumeToken + c.sellInputAmount .exact amount ≤ c.exec.buyVolumeToken := by
    omega
  refine ⟨by omega, h.left, h.word, ?_, h.tracked⟩
  simp only [soldVolume]
  omega

/-- A recorded sell moves its amount from the orders in flight to the entry. -/
theorem sell {amount : ℕ} {v : TradeEntry} (hv : v.execVolumeToken = amount)
    (hdust : v.dustVolumeToken = 0) (htoken : isStaticToken token = false)
    (h : Covered token entry confirmed (inFlight + amount) bought) :
    Covered token (some ((entry.getD {}).addTrade token v .sell)) (confirmed + amount)
      inFlight bought := by
  have hcov := h.covered
  have hleft := h.left
  have hroom := h.room
  have hnet : wrapSubU64 v.execVolumeToken v.dustVolumeToken = amount := by
    rw [wrapSubU64_of_le (by omega), hdust, hv, Nat.sub_zero, wrapU64_eq (by omega)]
  have hsold : soldVolume (some ((entry.getD {}).addTrade token v .sell)) =
      soldVolume entry + amount := by
    change wrapU64 ((entry.getD {}).exec.sellVolumeToken +
      wrapSubU64 v.execVolumeToken v.dustVolumeToken) = _
    rw [hnet, getD_soldVolume, wrapU64_eq (by omega)]
  have hbought : boughtVolume (some ((entry.getD {}).addTrade token v .sell)) =
      boughtVolume entry := getD_boughtVolume entry
  refine ⟨by omega, ?_, ?_, ?_, fun _ => htoken⟩
  · rw [hsold, hbought]
    omega
  · rw [hbought]
    exact h.word
  · rw [hsold]
    omega

/-- A sell that is not recorded, because its token is never tracked. -/
theorem refuse {amount : ℕ} (htoken : isStaticToken token = true)
    (h : Covered token entry confirmed (inFlight + amount) bought) :
    Covered token entry (confirmed + amount) inFlight bought := by
  cases entry with
  | some c => exact absurd (h.tracked rfl) (by simp [htoken])
  | none =>
    have hcov := h.covered
    have hroom := h.room
    simp only [soldVolume] at hroom
    refine ⟨by omega, ?_, h.word, ?_, nofun⟩
    · simp only [boughtVolume, soldVolume]
      omega
    · simp only [soldVolume]
      omega

/-- A recorded buy adds its net volume to the entry and to what was bought. -/
theorem buy {v : TradeEntry} (hdust : v.dustVolumeToken ≤ v.execVolumeToken)
    (htoken : isStaticToken token = false)
    (h : Covered token entry confirmed inFlight bought) :
    Covered token (some ((entry.getD {}).addTrade token v .buy)) confirmed inFlight
      (bought + (v.execVolumeToken - v.dustVolumeToken)) := by
  have hcov := h.covered
  have hleft := h.left
  have hnet : wrapSubU64 v.execVolumeToken v.dustVolumeToken ≤
      v.execVolumeToken - v.dustVolumeToken := by
    rw [wrapSubU64_of_le hdust]
    exact wrapU64_le _
  have hbought : boughtVolume (some ((entry.getD {}).addTrade token v .buy)) =
      wrapU64 (boughtVolume entry + wrapSubU64 v.execVolumeToken v.dustVolumeToken) := by
    rw [← getD_boughtVolume entry]
    rfl
  have hsold : soldVolume (some ((entry.getD {}).addTrade token v .buy)) =
      soldVolume entry := getD_soldVolume entry
  have hwrap := wrapU64_le
    (boughtVolume entry + wrapSubU64 v.execVolumeToken v.dustVolumeToken)
  refine ⟨by omega, ?_, ?_, ?_, fun _ => htoken⟩
  · rw [hsold, hbought]
    omega
  · rw [hbought]
    exact wrapU64_lt _
  · rw [hsold]
    exact h.room

/-- A failed execution only adds to what the origin wallet sold. -/
theorem origin (h : Covered token (some c) confirmed inFlight bought) (t : TradeHistory) :
    Covered token (some { c with origin := t }) confirmed inFlight bought :=
  ⟨h.covered, h.left, h.word, h.room, h.tracked⟩

/-- An order that leaves the orders in flight gives its amount back. -/
theorem release {a : ℕ} (h : Covered token entry confirmed (inFlight + a) bought) :
    Covered token entry confirmed inFlight bought := by
  have hcov := h.covered
  have hroom := h.room
  exact ⟨by omega, h.left, h.word, by omega, h.tracked⟩

end Covered

/-! ## One step of the book -/

namespace Book

/-- The entry of a wallet's token agrees with the totals of the book. -/
def Covered (s : Book) (key : Pubkey × Pubkey) : Prop :=
  Copy.Covered key.2 (s.shared.history key) (s.sellsConfirmed key) (s.sellsInFlight key)
    (s.bought key)

theorem init_covered (pingTracker : Option PingTracker) (buyDisabled : Bool)
    (key : Pubkey × Pubkey) : (init pingTracker buyDisabled).Covered key where
  covered := le_rfl
  left := le_rfl
  word := by simp only [boughtVolume, init, HistoricalTrades.empty]; omega
  room := by
    change 0 + 0 < 2 ^ 64
    omega
  tracked := nofun

/-- The entry of one token may be dropped whatever is in flight. -/
theorem covered_drop {s : Book} {key : Pubkey × Pubkey} (h : s.Covered key)
    (dropped : Pubkey × Pubkey) (full : Bool) :
    Copy.Covered key.2
      ((if full then s.shared.history.remove dropped else s.shared.history) key)
      (s.sellsConfirmed key) (s.sellsInFlight key) (s.bought key) := by
  cases full with
  | false => exact h
  | true =>
    by_cases hk : key = dropped
    · subst hk
      simp only [if_true, HistoricalTrades.remove_self]
      exact h.drop
    · simp only [if_true, HistoricalTrades.remove_of_ne hk]
      exact h

/-- Sizing a trade keeps the book covered when no sell of its token is in flight. -/
theorem covered_trade {cfg : CopyConfig} (hexact : cfg.rounding = .exact) {s : Book}
    {walletBuysDisabled : Bool} {d : CopyDetails} {key : Pubkey × Pubkey}
    (halone : SizedAlone key s (.trade walletBuysDisabled d)) (h : s.Covered key) :
    (s.trade cfg walletBuysDisabled d).Covered key := by
  have hcase := s.trade_cases cfg walletBuysDisabled d
  generalize s.trade cfg walletBuysDisabled d = s' at hcase
  cases hcase with
  | idle => exact h
  | skipSell c hc hleft hzero => exact covered_drop h _ _
  | sell c o hc hleft hpos hsells hsigner hswap hamount =>
    rw [hexact] at hpos hamount
    have hkey : o.details.sellKey = d.sellKey := by
      simp only [CopyDetails.sellKey, hsigner, hswap]
    by_cases hk : key = d.sellKey
    · subst hk
      have hnone : s.sellsInFlight d.sellKey = 0 := by
        rcases halone rfl with hn | ho
        · exact absurd (hn.symm.trans hc) nofun
        · exact tally_selling_eq_zero ho Order.amount
      have hamount' : c.sellInputAmount .exact d.originSwap.inputAmount =
          o.selling d.sellKey Order.amount := by
        rw [Order.selling_of_sells hsells hkey, Order.amount, hamount]
      have hin : tally (Order.selling d.sellKey Order.amount) (s.inFlight ++ [o]) =
          o.selling d.sellKey Order.amount := by
        rw [tally_append, tally_cons, tally_nil]
        exact (congrArg (· + _) hnone).trans (Nat.zero_add _)
      have hcov : Copy.Covered d.sellKey.2 (some c) (s.sellsConfirmed d.sellKey)
          (o.selling d.sellKey Order.amount) (s.bought d.sellKey) := by
        rw [← hamount']
        refine Covered.size ?_ hleft hpos
        have hc' : s.Covered d.sellKey := h
        rw [Book.Covered, hc, hnone] at hc'
        exact hc'
      have hsized : ({ s with inFlight := s.inFlight ++ [o] } : Book).Covered d.sellKey := by
        rw [Book.Covered, sellsInFlight, hin]
        exact hc ▸ hcov
      exact covered_drop hsized d.sellKey (c.isFullExit cfg.rounding d.originSwap.inputAmount)
    · have hzero : o.selling key Order.amount = 0 :=
        Order.selling_of_other (fun _ he => hk (he.symm.trans hkey)) _
      have hin : tally (Order.selling key Order.amount) (s.inFlight ++ [o]) = s.sellsInFlight key := by
        rw [tally_append, tally_cons, tally_nil, hzero]
        rfl
      have hdropped := covered_drop h d.sellKey (c.isFullExit cfg.rounding d.originSwap.inputAmount)
      rw [← hin] at hdropped
      exact hdropped
  | buy o hc hsells hsigner hswap =>
    have hin : tally (Order.selling key Order.amount) (s.inFlight ++ [o]) = s.sellsInFlight key := by
      rw [tally_append, tally_cons, tally_nil,
        Order.selling_of_other fun hs => absurd (hsells.symm.trans hs) nofun]
      rfl
    rw [Book.Covered, sellsInFlight, hin]
    exact h

end Book

/-- The sold side moves the order's amount from the orders in flight to the confirmed ones. -/
theorem Covered.soldAt {o : Order} {key : Pubkey × Pubkey} {entry mid : Option CopyHistory}
    {confirmed inFlight bought : ℕ} (hat : SoldAt o key entry mid)
    (h : Covered key.2 entry confirmed (inFlight + o.selling key Order.amount) bought) :
    Covered key.2 mid (confirmed + o.selling key Order.amount) inFlight bought := by
  cases hat with
  | other hno =>
    rw [Order.selling_of_other hno] at h ⊢
    exact h
  | untracked hsells hkey htoken => exact h.refuse htoken
  | sold v hsells hkey htoken hexec horigin hdust =>
    rw [Order.selling_of_sells hsells hkey] at h ⊢
    exact h.sell hexec hdust htoken

/-- The bought side adds its net volume to what was bought. -/
theorem Covered.boughtAt {cfg : CopyConfig} (hexact : cfg.rounding = .exact) {o : Order}
    {amountOut net : ℕ} {key : Pubkey × Pubkey} {entry entry' : Option CopyHistory}
    {confirmed inFlight bought : ℕ} (hat : BoughtAt cfg o amountOut key entry entry' net)
    (h : Covered key.2 entry confirmed inFlight bought) :
    Covered key.2 entry' confirmed inFlight (bought + net) := by
  cases hat with
  | other => exact h
  | bought v hbuys hkey htoken hexec horigin hdust =>
    rw [hexact] at hdust
    exact h.buy (HistoricalTrades.dustVolume_le hdust) htoken

namespace Book

/-- Confirming an order keeps the book covered. -/
theorem covered_confirm {cfg : CopyConfig} (hexact : cfg.rounding = .exact) {s : Book} {i : ℕ}
    {quote : QuoteAnswer} {env : SuccessEnv} {signature : Signature} {key : Pubkey × Pubkey}
    (h : s.Covered key) :
    (s.confirm cfg i quote env signature).Covered key := by
  have hcase := s.confirm_cases cfg i quote env signature
  generalize s.confirm cfg i quote env signature = s' at hcase
  cases hcase with
  | missing hi => exact h
  | settled o shared trades hi hat =>
    obtain ⟨mid, hsold, hbought⟩ := hat key
    have hstart : Copy.Covered key.2 (s.shared.history key) (s.sellsConfirmed key)
        (tally (Order.selling key Order.amount) (s.inFlight.eraseIdx i) + o.selling key Order.amount)
        (s.bought key) := by
      rw [tally_eraseIdx hi]
      exact h
    have hend := (hstart.soldAt hsold).boughtAt hexact hbought
    unfold Book.Covered sellsConfirmed sellsInFlight bought
    rw [tally_append, tally_cons, tally_nil, Nat.add_zero, tally_append]
    exact hend

/-- Giving an order up keeps the book covered. -/
theorem covered_fail {s : Book} {i : ℕ} {env : FailureEnv} {key : Pubkey × Pubkey}
    (h : s.Covered key) : (s.fail i env).Covered key := by
  unfold fail
  cases hi : s.inFlight[i]? with
  | none => exact h
  | some o =>
    have hreleased : Copy.Covered key.2 (s.shared.history key) (s.sellsConfirmed key)
        (tally (Order.selling key Order.amount) (s.inFlight.eraseIdx i)) (s.bought key) := by
      apply Covered.release (a := o.selling key Order.amount)
      rw [tally_eraseIdx hi]
      exact h
    have hat := handleFailedExecution_at env s.shared.history o key
    change Copy.Covered key.2 (handleFailedExecution env s.shared.history o.details key) _ _ _
    generalize handleFailedExecution env s.shared.history o.details key = entry at hat ⊢
    cases hat with
    | other => exact hreleased
    | recorded c usd sol hc hkey =>
      rw [hc] at hreleased
      exact hreleased.origin _

/-- One step keeps the book covered when a swap out of a held token is sized alone. -/
theorem covered_step {cfg : CopyConfig} (hexact : cfg.rounding = .exact)
    (key : Pubkey × Pubkey) (s : Book) (e : BookEvent) (h : s.Covered key)
    (halone : SizedAlone key s e) : (s.step cfg e).Covered key := by
  cases e with
  | trade walletBuysDisabled d => exact covered_trade hexact halone h
  | confirm i quote env signature => exact covered_confirm hexact h
  | fail i env => exact covered_fail h

/-- Over exact rationals, in every run from an empty history in which the swaps out of a held
token arrive when no sell of it is in flight, what is sold and asked to be sold of the token was
bought. -/
theorem covers_of_sizedAlone (cfg : CopyConfig) (hexact : cfg.rounding = .exact)
    (pingTracker : Option PingTracker) (buyDisabled : Bool) (events : List BookEvent)
    (key : Pubkey × Pubkey)
    (halone : Along (step cfg) (SizedAlone key) (init pingTracker buyDisabled) events) :
    (exec (step cfg) (init pingTracker buyDisabled) events).Covers key :=
  (exec_invariant (covered_step hexact key) (init_covered pingTracker buyDisabled key)
    halone).covered

/-- One sell after one buy. -/
theorem covers_of_sizedAlone_sample :
    (exec (step exactConfig) (init none false)
      (sampleBought ++ [.trade false (sampleSell 50)])).Covers (sampleWallet, sampleToken) :=
  covers_of_sizedAlone exactConfig rfl none false _ _ (by decide +kernel)

/-- A failed sell of half the tokens, then two sells that are sized while neither is
recorded: 130 tokens are asked to be sold of the 100 that were bought. -/
theorem not_covers_overlapping_sells :
    ¬ (exec (step exactConfig) (init none false)
      (sampleBought ++ [.trade false (sampleSell 50), .fail 0 sampleFailure,
        .trade false (sampleSell 10), .trade false (sampleSell 20)])).Covers
      (sampleWallet, sampleToken) := by
  decide +kernel

end Book

end Biscuit.Copy
