import Biscuit.Models.Copy.History

/-!
# Sizing in the direct mode

`process_direct` sizes a sell from the history entry of the sold token and a buy from the
settings of the wallet. The entry of a token that the origin wallet has almost left is
removed here, before the order is executed.
-/

namespace Biscuit.Copy

/-- Why no order is derived from an origin swap. -/
inductive ExecError
  /-- The mint accounts could not be fetched. -/
  | mintInfo
  /-- Token decimals not resolved -/
  | tokenDecimals
  /-- Wallet {} has zero tokens left for token {}. buy-volume={},sell-volume={} -/
  | zeroTokensLeft (wallet token : Pubkey) (buyVolume sellVolume : ℕ)
  /-- Wallet {}'s buy-volume for token is zero -/
  | zeroBuyVolume (wallet : Pubkey)
  /-- Tried to process ping but ping-tracker is not set -/
  | pingTrackerNotSet
  /-- Failed to get SOL price from feed -/
  | solPrice
  /-- Got null for origin input balance. mint:{} -/
  | nullInputBalance (mint : Pubkey)
  deriving DecidableEq, Repr

namespace CopyHistory

/-- What the origin wallet holds of the token, as far as the entry knows. -/
def originTokensLeft (c : CopyHistory) : ℕ := c.origin.buyVolumeToken - c.origin.sellVolumeToken

/-- What the origin wallet has sold with this swap, never more than it bought. -/
def originSellTotal (c : CopyHistory) (originSwapAmount : ℕ) : ℕ :=
  min (satAddU64 c.origin.sellVolumeToken originSwapAmount) c.origin.buyVolumeToken

/-- The share of its tokens that the origin wallet has sold with this swap. -/
def originSellRatio (r : Rounding) (c : CopyHistory) (originSwapAmount : ℕ) : F64 :=
  r.div (r.ofNat (c.originSellTotal originSwapAmount)) (r.ofNat c.origin.buyVolumeToken)

/-- What has to be sold in total to reach the ratio of the origin wallet. -/
def execTargetAmount (r : Rounding) (c : CopyHistory) (originSwapAmount : ℕ) : ℕ :=
  (r.mul (c.originSellRatio r originSwapAmount) (r.ofNat c.exec.buyVolumeToken)).trunc.toU64

/-- What is left to sell of the target. -/
def sellInputAmount (r : Rounding) (c : CopyHistory) (originSwapAmount : ℕ) : ℕ :=
  c.execTargetAmount r originSwapAmount - c.exec.sellVolumeToken

/-- The origin wallet has sold most of its tokens: `origin_sell_ratio > 0.95`. -/
def isFullExit (r : Rounding) (c : CopyHistory) (originSwapAmount : ℕ) : Bool :=
  F64.lt (F64.fin (r.round ((19 : ℕ) / (20 : ℕ)))) (c.originSellRatio r originSwapAmount)

/-- The quotient of two volumes is rounded: this sell is a full exit, though the exact share of it
is below nineteen twentieths and a trillionth of a percent. -/
example : let c : CopyHistory := { origin := { buyVolumeToken := 20000000000000020 } }
    c.isFullExit .binary64 19000000000000019 = true ∧
      c.isFullExit .exact 19000000000000019 = false := by
  decide +kernel

/-- A forty-ninth of forty-nine tokens is less than one of them, and nothing is sold. -/
example :
    let c : CopyHistory := { origin := { buyVolumeToken := 49 }, exec := { buyVolumeToken := 49 } }
    c.sellInputAmount .binary64 1 = 0 ∧ c.sellInputAmount .exact 1 = 1 := by
  decide +kernel

end CopyHistory

/-- An order that fixes its input amount; every order of the service is one. -/
def exactInOrder (cfg : CopyConfig) (inputTokenMint outputTokenMint : Pubkey) (amount : ℕ) :
    SwapInput where
  inputTokenMint := inputTokenMint
  outputTokenMint := outputTokenMint
  slippageBps := cfg.slippageBps
  amount := amount
  mode := .exactIn
  market := none

/-- The order and its copy type for an origin swap whose input token is held. -/
def directSellOrder (cfg : CopyConfig) (buyDisabled : Bool) (d : CopyDetails) (amount : ℕ) :
    SwapInput × CopyType :=
  if isStaticToken d.originSwap.outputTokenMint then
    (exactInOrder cfg d.originSwap.inputTokenMint SOL amount, .sell)
  else if buyDisabled then
    (exactInOrder cfg d.originSwap.inputTokenMint SOL amount, .sell)
  else
    (exactInOrder cfg d.originSwap.inputTokenMint d.originSwap.outputTokenMint amount, .both)

/-- What is spent on a buy: the wallet's least amount, more with the conviction of the
origin wallet, and never more than the origin wallet spent. -/
def buyInputAmount (w : WalletConfig) (inputToken : Pubkey) (signerBalance : Balance)
    (originSwapAmount : ℕ) : ℕ :=
  let actual :=
    if inputToken == SOL && signerBalance.pre != 0 && decide (originSwapAmount < signerBalance.pre)
    then
      let conviction :=
        originSwapAmount * (w.maxInputAmount - w.minInputAmount) / signerBalance.pre
      wrapU64 (w.minInputAmount + if conviction ≤ maxU64 then conviction else 0)
    else w.minInputAmount
  if inputToken == SOL then min (min actual originSwapAmount) w.maxInputAmount else actual

/-- `process_direct`: the history afterwards, the details afterwards, and the order. -/
def processDirect (cfg : CopyConfig) (buyDisabled : Bool) (h : HistoricalTrades)
    (d : CopyDetails) : HistoricalTrades × CopyDetails × Except ExecError (Option SwapInput) :=
  match d.originSwap.tokenDecimals with
  | none => (h, d, .error .tokenDecimals)
  | some _ =>
    let amount := d.originSwap.inputAmount
    match h d.sellKey with
    | some c =>
      if c.originTokensLeft = 0 then
        (h, d, .error (.zeroTokensLeft d.originSigner d.originSwap.inputTokenMint
          c.origin.buyVolumeToken c.origin.sellVolumeToken))
      else if c.origin.buyVolumeToken = 0 then (h, d, .error (.zeroBuyVolume d.originSigner))
      else
        let inputAmount := c.sellInputAmount cfg.rounding amount
        let h' := if c.isFullExit cfg.rounding amount then h.remove d.sellKey else h
        if inputAmount = 0 then (h', d, .ok none)
        else
          let (order, copyType) := directSellOrder cfg buyDisabled d inputAmount
          (h', { d with copyType := some copyType }, .ok (some order))
    | none =>
      if buyDisabled then (h, d, .ok none)
      else if isStaticToken d.originSwap.outputTokenMint then (h, d, .ok none)
      else
        let inputAmount := buyInputAmount d.walletConfig d.originSwap.inputTokenMint
          (d.originSolBalance.getD ⟨0, 0⟩) amount
        (h, { d with copyType := some .buy },
          .ok (some (exactInOrder cfg SOL d.originSwap.outputTokenMint inputAmount)))

/-! ## What sizing guarantees -/

namespace CopyHistory

/-- Tokens left mean that the origin wallet has bought some. -/
theorem buyVolume_pos {c : CopyHistory} (h : c.originTokensLeft ≠ 0) :
    0 < c.origin.buyVolumeToken := by
  unfold originTokensLeft at h
  omega

/-- The amount of a sell is a word. -/
theorem sellInputAmount_lt (r : Rounding) (c : CopyHistory) (a : ℕ) :
    c.sellInputAmount r a < 2 ^ 64 := by
  have ht : c.execTargetAmount r a < 2 ^ 64 := F64.toU64_lt _
  rw [sellInputAmount]
  omega

/-! ### Exact ratios -/

/-- The target is the origin's share of what was bought, rounded down. -/
theorem execTargetAmount_eq {c : CopyHistory} (hb : 0 < c.origin.buyVolumeToken) (a : ℕ) :
    c.execTargetAmount .exact a =
      min (c.originSellTotal a * c.exec.buyVolumeToken / c.origin.buyVolumeToken) maxU64 := by
  simp only [execTargetAmount, originSellRatio, Rounding.exact_mul, Rounding.exact_div,
    Rounding.exact_ofNat]
  exact F64.toU64_trunc_ratio_mul _ hb _

/-- The target never exceeds what was bought: the ratio is at most one. -/
theorem execTargetAmount_le {c : CopyHistory} (hb : 0 < c.origin.buyVolumeToken) (a : ℕ) :
    c.execTargetAmount .exact a ≤ c.exec.buyVolumeToken := by
  rw [execTargetAmount_eq hb]
  refine (min_le_left _ _).trans (Nat.div_le_of_le_mul ?_)
  exact Nat.mul_le_mul_right _ (min_le_right _ _)

/-- A sell never takes more than the entry has left. -/
theorem sellInputAmount_le {c : CopyHistory} (hb : 0 < c.origin.buyVolumeToken) (a : ℕ) :
    c.exec.sellVolumeToken + c.sellInputAmount .exact a ≤
      max c.exec.sellVolumeToken c.exec.buyVolumeToken := by
  have ht := execTargetAmount_le hb a
  unfold sellInputAmount
  omega

theorem isFullExit_iff {c : CopyHistory} (hb : 0 < c.origin.buyVolumeToken) (a : ℕ) :
    c.isFullExit .exact a = true ↔ 19 * c.origin.buyVolumeToken < 20 * c.originSellTotal a := by
  simp only [isFullExit, originSellRatio, Rounding.exact_div, Rounding.exact_ofNat]
  exact F64.ratio_lt_ratio 19 20 _ (by decide) hb

/-! ### Rounded ratios -/

variable {r : Rounding} {c : CopyHistory} {a : ℕ}

/-- The ratio of a held entry, as the machine computes it. -/
theorem originSellRatio_eq (hb : 0 < c.origin.buyVolumeToken) :
    c.originSellRatio r a =
      .fin (r.round (r.round (c.originSellTotal a) / r.round c.origin.buyVolumeToken)) :=
  r.ratio_eq _ hb

/-- Short of a full exit, the clamps on the origin's total are idle: with this swap it keeps some
of what it bought. -/
theorem sold_lt_of_not_isFullExit (hb : 0 < c.origin.buyVolumeToken)
    (hw : c.origin.buyVolumeToken < 2 ^ 64) (h : c.isFullExit r a = false) :
    c.origin.sellVolumeToken + a < c.origin.buyVolumeToken := by
  by_contra hle
  have htotal : c.originSellTotal a = c.origin.buyVolumeToken := by
    unfold originSellTotal satAddU64 maxU64
    omega
  have hlt : r.round ((19 : ℕ) / (20 : ℕ)) < 1 := r.round_lt_one (by norm_num) (by norm_num)
  -- The ratio of a total exit is one, whatever the rounding.
  rw [isFullExit, originSellRatio, htotal, r.ratio_self hb, F64.lt, decide_eq_false_iff_not] at h
  exact h hlt

/-- Short of a full exit, the target stays within what was bought, roundings included. -/
theorem execTargetAmount_le_of_not_isFullExit (hb : 0 < c.origin.buyVolumeToken)
    (h : c.isFullExit r a = false) : c.execTargetAmount r a ≤ c.exec.buyVolumeToken := by
  have hnear := (abs_sub_le_iff.mp (r.near ((19 : ℕ) / (20 : ℕ)))).1
  rw [isFullExit, originSellRatio_eq hb, F64.lt, decide_eq_false_iff_not, not_lt] at h
  rw [execTargetAmount, originSellRatio_eq hb]
  apply r.toU64_trunc_mul_le
  · exact r.round_nonneg _ (div_nonneg (r.round_nonneg _ (Nat.cast_nonneg _))
      (r.round_nonneg _ (Nat.cast_nonneg _)))
  · norm_num [abs_of_pos] at hnear h ⊢
    linarith

/-- Short of a full exit, a sell takes no more than the entry has left. -/
theorem sellInputAmount_le_of_not_isFullExit (hb : 0 < c.origin.buyVolumeToken)
    (h : c.isFullExit r a = false) :
    c.exec.sellVolumeToken + c.sellInputAmount r a ≤
      max c.exec.sellVolumeToken c.exec.buyVolumeToken := by
  have ht := execTargetAmount_le_of_not_isFullExit hb h
  unfold sellInputAmount
  omega

end CopyHistory

/-- An order for a held token sells that token. -/
theorem directSellOrder_spec {cfg : CopyConfig} {buyDisabled : Bool} {d : CopyDetails}
    {amount : ℕ} {order : SwapInput} {copyType : CopyType}
    (h : directSellOrder cfg buyDisabled d amount = (order, copyType)) :
    order.inputTokenMint = d.originSwap.inputTokenMint ∧ order.amount = amount ∧
    copyType.sells = true ∧
    (copyType.buys = true →
      order.outputTokenMint = d.originSwap.outputTokenMint ∧
      isStaticToken d.originSwap.outputTokenMint = false) ∧
    (copyType.buys = false → order.outputTokenMint = SOL) := by
  unfold directSellOrder at h
  by_cases hs : isStaticToken d.originSwap.outputTokenMint = true
  · rw [if_pos hs] at h
    obtain ⟨rfl, rfl⟩ := Prod.mk.inj h
    exact ⟨rfl, rfl, rfl, nofun, fun _ => rfl⟩
  · rw [if_neg hs] at h
    have hout : isStaticToken d.originSwap.outputTokenMint = false := by simpa using hs
    by_cases hb : buyDisabled = true
    · rw [if_pos hb] at h
      obtain ⟨rfl, rfl⟩ := Prod.mk.inj h
      exact ⟨rfl, rfl, rfl, nofun, fun _ => rfl⟩
    · rw [if_neg hb] at h
      obtain ⟨rfl, rfl⟩ := Prod.mk.inj h
      exact ⟨rfl, rfl, rfl, fun _ => ⟨rfl, hout⟩, nofun⟩

/-- Everything `process_direct` can do, by the entry of the input token. -/
inductive DirectCase (cfg : CopyConfig) (buyDisabled : Bool) (h : HistoricalTrades)
    (d : CopyDetails) : HistoricalTrades × CopyDetails × Except ExecError (Option SwapInput) → Prop
  /-- Refused: the decimals are not known. -/
  | unresolved (hdec : d.originSwap.tokenDecimals = none) :
      DirectCase cfg buyDisabled h d (h, d, .error .tokenDecimals)
  /-- Refused: by its entry the origin wallet has nothing left to sell. -/
  | exhausted (c : CopyHistory) (hdec : d.originSwap.tokenDecimals.isSome)
      (hc : h d.sellKey = some c) (hleft : c.originTokensLeft = 0) :
      DirectCase cfg buyDisabled h d (h, d, .error (.zeroTokensLeft d.originSigner
        d.originSwap.inputTokenMint c.origin.buyVolumeToken c.origin.sellVolumeToken))
  /-- Skipped: nothing is left to sell of the target. -/
  | skipSell (c : CopyHistory) (hdec : d.originSwap.tokenDecimals.isSome)
      (hc : h d.sellKey = some c) (hleft : c.originTokensLeft ≠ 0)
      (hzero : c.sellInputAmount cfg.rounding d.originSwap.inputAmount = 0) :
      DirectCase cfg buyDisabled h d
        (if c.isFullExit cfg.rounding d.originSwap.inputAmount then h.remove d.sellKey else h, d,
          .ok none)
  /-- A sell, or a sell and a buy. -/
  | sell (c : CopyHistory) (order : SwapInput) (copyType : CopyType)
      (hdec : d.originSwap.tokenDecimals.isSome)
      (hc : h d.sellKey = some c) (hleft : c.originTokensLeft ≠ 0)
      (hpos : c.sellInputAmount cfg.rounding d.originSwap.inputAmount ≠ 0)
      (horder : directSellOrder cfg buyDisabled d
        (c.sellInputAmount cfg.rounding d.originSwap.inputAmount) = (order, copyType)) :
      DirectCase cfg buyDisabled h d
        (if c.isFullExit cfg.rounding d.originSwap.inputAmount then h.remove d.sellKey else h,
          { d with copyType := some copyType }, .ok (some order))
  /-- Skipped: the token is not held, and nothing is to be bought. -/
  | skipBuy (hdec : d.originSwap.tokenDecimals.isSome) (hc : h d.sellKey = none)
      (hskip : buyDisabled = true ∨ isStaticToken d.originSwap.outputTokenMint = true) :
      DirectCase cfg buyDisabled h d (h, d, .ok none)
  /-- A buy for SOL. -/
  | buy (order : SwapInput) (hdec : d.originSwap.tokenDecimals.isSome)
      (hc : h d.sellKey = none) (hbuy : buyDisabled = false)
      (hout : isStaticToken d.originSwap.outputTokenMint = false)
      (hin : order.inputTokenMint = SOL)
      (hmint : order.outputTokenMint = d.originSwap.outputTokenMint) :
      DirectCase cfg buyDisabled h d (h, { d with copyType := some .buy }, .ok (some order))

/-- `process_direct` always ends in one of its cases; the check of the buy volume comes
after the check of the tokens left and never fails. -/
theorem processDirect_cases (cfg : CopyConfig) (buyDisabled : Bool) (h : HistoricalTrades)
    (d : CopyDetails) :
    DirectCase cfg buyDisabled h d (processDirect cfg buyDisabled h d) := by
  unfold processDirect
  cases hdec : d.originSwap.tokenDecimals with
  | none => exact .unresolved hdec
  | some dec =>
    have hsome : d.originSwap.tokenDecimals.isSome := by simp [hdec]
    cases hc : h d.sellKey with
    | none =>
      simp only
      split_ifs with hb hs
      · exact .skipBuy hsome hc (.inl hb)
      · exact .skipBuy hsome hc (.inr hs)
      · exact .buy _ hsome hc (by simpa using hb) (by simpa using hs) rfl rfl
    | some c =>
      simp only
      by_cases hleft : c.originTokensLeft = 0
      · rw [if_pos hleft]
        exact .exhausted c hsome hc hleft
      · have hb : c.origin.buyVolumeToken ≠ 0 := (CopyHistory.buyVolume_pos hleft).ne'
        rw [if_neg hleft, if_neg hb]
        by_cases hzero : c.sellInputAmount cfg.rounding d.originSwap.inputAmount = 0
        · rw [if_pos hzero]
          exact .skipSell c hsome hc hleft hzero
        · rw [if_neg hzero]
          exact .sell c _ _ hsome hc hleft hzero rfl

/-- Sizing only sets the copy type of the details. -/
theorem processDirect_details (cfg : CopyConfig) (buyDisabled : Bool) (h : HistoricalTrades)
    (d : CopyDetails) :
    ∃ copyType, (processDirect cfg buyDisabled h d).2.1 = { d with copyType } := by
  have hcase := processDirect_cases cfg buyDisabled h d
  generalize processDirect cfg buyDisabled h d = result at hcase ⊢
  cases hcase <;> exact ⟨_, rfl⟩

end Biscuit.Copy
