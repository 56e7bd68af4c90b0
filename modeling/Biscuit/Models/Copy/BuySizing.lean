import Biscuit.Models.Copy.Direct

/-!
# The size of a direct buy

A buy for SOL grows from the wallet's least amount towards its largest one with the share of
the balance that the origin wallet spends. The arithmetic never leaves its words. The size
grows with the amount the origin wallet spends as long as that stays below its balance; an
amount that reaches the balance is copied with the least amount again.
-/

namespace Biscuit.Copy

/-- What the conviction of the origin wallet adds to the least amount. -/
def WalletConfig.conviction (w : WalletConfig) (pre originSwapAmount : ℕ) : ℕ :=
  originSwapAmount * (w.maxInputAmount - w.minInputAmount) / pre

namespace WalletConfig

/-- Everything that the sizing computes with a conviction fits its type. -/
structure ConvictionFits (w : WalletConfig) (pre originSwapAmount : ℕ) : Prop where
  spread : w.minInputAmount ≤ w.maxInputAmount
  product : originSwapAmount * (w.maxInputAmount - w.minInputAmount) < 2 ^ 128
  conviction : w.conviction pre originSwapAmount ≤ maxU64
  total : w.minInputAmount + w.conviction pre originSwapAmount ≤ maxU64

/-- A part of the balance adds no more than there is between the bounds. -/
theorem conviction_le (w : WalletConfig) {pre originSwapAmount : ℕ} (h : originSwapAmount < pre) :
    w.conviction pre originSwapAmount ≤ w.maxInputAmount - w.minInputAmount := by
  apply Nat.div_le_of_le_mul
  exact Nat.mul_le_mul_right _ h.le

theorem conviction_mono (w : WalletConfig) (pre : ℕ) {a b : ℕ} (h : a ≤ b) :
    w.conviction pre a ≤ w.conviction pre b :=
  Nat.div_le_div_right (Nat.mul_le_mul_right _ h)

theorem convictionFits {w : WalletConfig} (hmax : w.maxInputAmount ≤ maxU64)
    {pre originSwapAmount : ℕ} (hpre : pre ≤ maxU64) (h : originSwapAmount < pre) :
    w.ConvictionFits pre originSwapAmount := by
  have hle := w.conviction_le h
  have hlt := w.min_lt_max
  constructor
  · exact hlt.le
  · have hamount : originSwapAmount < 2 ^ 64 := h.trans (le_maxU64_iff.mp hpre)
    have hspread : w.maxInputAmount - w.minInputAmount < 2 ^ 64 :=
      (Nat.sub_le _ _).trans_lt (le_maxU64_iff.mp hmax)
    calc originSwapAmount * (w.maxInputAmount - w.minInputAmount)
        < 2 ^ 64 * 2 ^ 64 := Nat.mul_lt_mul'' hamount hspread
      _ = 2 ^ 128 := by norm_num
  · omega
  · omega

end WalletConfig

/-- Below the balance a buy for SOL adds the conviction. -/
theorem buyInputAmount_of_lt {w : WalletConfig} (hmax : w.maxInputAmount ≤ maxU64)
    {balance : Balance} {amount : ℕ} (h : amount < balance.pre) :
    buyInputAmount w SOL balance amount =
      min (w.minInputAmount + w.conviction balance.pre amount) amount := by
  have hle := w.conviction_le h
  have hlt := w.min_lt_max
  have hne : balance.pre ≠ 0 := by omega
  have hfits : amount * (w.maxInputAmount - w.minInputAmount) / balance.pre ≤ maxU64 :=
    hle.trans (by omega)
  have hwrap : wrapU64 (w.minInputAmount + w.conviction balance.pre amount) =
      w.minInputAmount + w.conviction balance.pre amount :=
    wrapU64_eq (le_maxU64_iff.mp (by omega))
  simp only [buyInputAmount, beq_self_eq_true, bne_iff_ne, ne_eq, hne, not_false_eq_true,
    Bool.true_and, Bool.and_eq_true, decide_eq_true_eq, h, and_self, if_true, hfits]
  rw [← WalletConfig.conviction, hwrap]
  omega

/-- From the balance on a buy for SOL takes the least amount. -/
theorem buyInputAmount_of_le {w : WalletConfig} {balance : Balance} {amount : ℕ}
    (h : balance.pre ≤ amount) :
    buyInputAmount w SOL balance amount = min w.minInputAmount amount := by
  have hlt := w.min_lt_max
  simp only [buyInputAmount, beq_self_eq_true, Bool.true_and, Bool.and_eq_true,
    decide_eq_true_eq, Nat.not_lt.mpr h, and_false, if_false, if_true]
  omega

/-- A buy for another token takes the least amount. -/
theorem buyInputAmount_of_ne (w : WalletConfig) {inputToken : Pubkey} (h : inputToken ≠ SOL)
    (balance : Balance) (amount : ℕ) :
    buyInputAmount w inputToken balance amount = w.minInputAmount := by
  have hfalse : (inputToken == SOL) = false := beq_eq_false_iff_ne.mpr h
  simp only [buyInputAmount, hfalse, Bool.false_and, Bool.false_eq_true, if_false]

/-- The balance of SOL that the sizing goes by. -/
def CopyDetails.signerBalance (d : CopyDetails) : Balance := d.originSolBalance.getD ⟨0, 0⟩

/-- An order for a token that is not held spends the buy amount. -/
theorem processDirect_buy {cfg : CopyConfig} {buyDisabled : Bool} {h : HistoricalTrades}
    {d : CopyDetails} {order : SwapInput} (hkey : h d.sellKey = none)
    (horder : (processDirect cfg buyDisabled h d).2.2 = .ok (some order)) :
    order.amount = buyInputAmount d.walletConfig d.originSwap.inputTokenMint d.signerBalance
      d.originSwap.inputAmount := by
  unfold processDirect at horder
  cases hdec : d.originSwap.tokenDecimals with
  | none =>
    rw [hdec] at horder
    contradiction
  | some decimals =>
    simp only [hdec, hkey] at horder
    split_ifs at horder
    · cases horder
    · cases horder
    · obtain rfl := Option.some.inj (Except.ok.inj horder)
      rfl

/-- No step of the sizing overflows, and a buy for SOL stays between the bounds of the wallet as
far as the origin wallet spends enough; a buy for another token takes the least amount. -/
theorem processDirect_buy_bounds {cfg : CopyConfig} {buyDisabled : Bool} {h : HistoricalTrades}
    {d : CopyDetails} {order : SwapInput} (hkey : h d.sellKey = none)
    (hmax : d.walletConfig.maxInputAmount ≤ maxU64) (hpre : d.signerBalance.pre ≤ maxU64)
    (horder : (processDirect cfg buyDisabled h d).2.2 = .ok (some order)) :
    (d.originSwap.inputAmount < d.signerBalance.pre →
      d.walletConfig.ConvictionFits d.signerBalance.pre d.originSwap.inputAmount) ∧
    (d.originSwap.inputTokenMint = SOL →
      min d.walletConfig.minInputAmount d.originSwap.inputAmount ≤ order.amount ∧
      order.amount ≤ min d.walletConfig.maxInputAmount d.originSwap.inputAmount) ∧
    (d.originSwap.inputTokenMint ≠ SOL → order.amount = d.walletConfig.minInputAmount) := by
  have hlt := d.walletConfig.min_lt_max
  rw [processDirect_buy hkey horder]
  refine ⟨WalletConfig.convictionFits hmax hpre, fun hsol => ?_, fun hne => ?_⟩
  · rw [hsol]
    rcases Nat.lt_or_ge d.originSwap.inputAmount d.signerBalance.pre with hbelow | habove
    · have hle := d.walletConfig.conviction_le hbelow
      rw [buyInputAmount_of_lt hmax hbelow]
      omega
    · rw [buyInputAmount_of_le habove]
      omega
  · exact buyInputAmount_of_ne _ hne _ _

/-- The sample wallet with ten lamports may buy for ten to twenty. -/
def spendingDetails (pre amount : ℕ) : CopyDetails :=
  { sampleBuy 1000 with
    originSwap := { (sampleBuy 1000).originSwap with inputAmount := amount }
    originSolBalance := some ⟨pre, 0⟩ }

/-- A wallet that spends half of its balance is copied with fifteen lamports. -/
theorem processDirect_buy_half :
    (50 < 100 → WalletConfig.ConvictionFits (spendingDetails 100 50).walletConfig 100 50) ∧
      (SOL = SOL → min 10 50 ≤ 15 ∧ 15 ≤ min 20 50) ∧ (SOL ≠ SOL → 15 = 10) :=
  @processDirect_buy_bounds sampleConfig false (fun _ => none) (spendingDetails 100 50)
    (exactInOrder sampleConfig SOL sampleToken 15) rfl (by decide) (by decide) (by decide)

/-! ## Larger spends -/

/-- The same details for another amount. -/
def CopyDetails.spending (d : CopyDetails) (amount : ℕ) : CopyDetails :=
  { d with originSwap := { d.originSwap with inputAmount := amount } }

/-- A buy for SOL does not get smaller when the origin wallet spends more, unless the larger
amount reaches the balance and the smaller one does not. -/
theorem buyInputAmount_mono {w : WalletConfig} (hmax : w.maxInputAmount ≤ maxU64)
    {balance : Balance} {a b : ℕ} (hab : a ≤ b) (h : balance.pre ≤ a ∨ b < balance.pre) :
    buyInputAmount w SOL balance a ≤ buyInputAmount w SOL balance b := by
  rcases h with habove | hbelow
  · rw [buyInputAmount_of_le habove, buyInputAmount_of_le (habove.trans hab)]
    exact min_le_min_left _ hab
  · rw [buyInputAmount_of_lt hmax hbelow, buyInputAmount_of_lt hmax (hab.trans_lt hbelow)]
    exact min_le_min (Nat.add_le_add_left (w.conviction_mono _ hab) _) hab

/-- Of two buys for SOL by the same wallet the one after the larger spend is the smaller one
exactly when that spend alone reaches the balance, which takes the size back to the least
amount, and the other buy is larger than that. -/
theorem processDirect_buy_mono_iff {cfg : CopyConfig} {buyDisabled : Bool} {h : HistoricalTrades}
    {d : CopyDetails} (hkey : h d.sellKey = none) (hsol : d.originSwap.inputTokenMint = SOL)
    (hmax : d.walletConfig.maxInputAmount ≤ maxU64) {a b : ℕ} (hab : a ≤ b)
    {small large : SwapInput}
    (hsmall : (processDirect cfg buyDisabled h (d.spending a)).2.2 = .ok (some small))
    (hlarge : (processDirect cfg buyDisabled h (d.spending b)).2.2 = .ok (some large)) :
    (d.signerBalance.pre ≤ a ∨ b < d.signerBalance.pre → small.amount ≤ large.amount) ∧
      (d.signerBalance.pre ≤ b → large.amount = min d.walletConfig.minInputAmount b) ∧
      (small.amount ≤ large.amount ↔ ¬ (a < d.signerBalance.pre ∧ d.signerBalance.pre ≤ b ∧
        min d.walletConfig.minInputAmount b < small.amount)) := by
  have hx : small.amount = buyInputAmount d.walletConfig SOL d.signerBalance a :=
    (processDirect_buy (d := d.spending a) hkey hsmall).trans (by rw [← hsol]; rfl)
  have hy : large.amount = buyInputAmount d.walletConfig SOL d.signerBalance b :=
    (processDirect_buy (d := d.spending b) hkey hlarge).trans (by rw [← hsol]; rfl)
  have hmono : d.signerBalance.pre ≤ a ∨ b < d.signerBalance.pre →
      small.amount ≤ large.amount := by
    rw [hx, hy]
    exact buyInputAmount_mono hmax hab
  have hback : d.signerBalance.pre ≤ b → large.amount = min d.walletConfig.minInputAmount b := by
    rw [hy]
    exact buyInputAmount_of_le
  refine ⟨hmono, hback, fun hle ⟨_, hreach, hlt⟩ => ?_, fun hnot => ?_⟩
  · rw [hback hreach] at hle
    omega
  · by_cases hside : d.signerBalance.pre ≤ a ∨ b < d.signerBalance.pre
    · exact hmono hside
    · have hreach : d.signerBalance.pre ≤ b := by omega
      rw [hback hreach]
      omega

/-- Ninety-nine of a hundred lamports are copied with nineteen, all hundred with ten. -/
theorem processDirect_buy_not_mono :
    ∃ small large : SwapInput,
      (processDirect sampleConfig false (fun _ => none) (spendingDetails 100 99)).2.2 =
        .ok (some small) ∧
      (processDirect sampleConfig false (fun _ => none) (spendingDetails 100 100)).2.2 =
        .ok (some large) ∧
      small.amount = 19 ∧ large.amount = 10 :=
  ⟨exactInOrder sampleConfig SOL sampleToken 19, exactInOrder sampleConfig SOL sampleToken 10,
    by decide, by decide, rfl, rfl⟩

/-- Half of the balance is copied with no less than a quarter of it. -/
theorem processDirect_buy_mono_half :
    (exactInOrder sampleConfig SOL sampleToken 12).amount ≤
      (exactInOrder sampleConfig SOL sampleToken 15).amount :=
  (@processDirect_buy_mono_iff sampleConfig false (fun _ => none) (spendingDetails 100 0) rfl rfl
    (by decide) 25 50 (by decide) (exactInOrder sampleConfig SOL sampleToken 12)
    (exactInOrder sampleConfig SOL sampleToken 15) (by decide) (by decide)).1 (.inr (by decide))

end Biscuit.Copy
