import Biscuit.Models.Analytics.Totals

/-!
# Consistent statistics

What is asked of a call of `process_swap`, and of every run of calls: totals that agree with
the tokens, one kept swap for each counted side at the prices of its own mints, and no trace of
a failed call but its signature.
-/

namespace Biscuit.Analytics

open Copy

/-- The arguments and the surroundings of one call. -/
abbrev AnalysisCall := AnalysisEnv × AnalyzedSwap

/-- Everything the statistics of a wallet have to agree on. -/
structure WalletStats.Consistent (s : WalletStats) : Prop where
  balanced : s.Balanced 0
  counted : s.Counted

/-- The statistics are the same but for the failed signatures. -/
def WalletStats.SameButFailed (s s' : WalletStats) : Prop :=
  { s' with failedSignatures := s.failedSignatures } = s

/-- A kept swap has both of its amounts at the prices of their own mints. -/
def Swap.OwnPrices (w : Swap) (decimals : TokenDecimals) (price : Price) : Prop :=
  match w.direction with
  | .buy => w.volumeTokenUsd = volumeUsd w.amount decimals.output price.outputPriceUsd ∧
      w.volumeOtherTokenUsd = volumeUsd w.otherAmount decimals.input price.inputPriceUsd
  | .sell => w.volumeTokenUsd = volumeUsd w.amount decimals.input price.inputPriceUsd ∧
      w.volumeOtherTokenUsd = volumeUsd w.otherAmount decimals.output price.outputPriceUsd

/-- The swaps of a token that were kept since. -/
def WalletStats.newSwaps (s s' : WalletStats) (token : Pubkey) : List Swap :=
  ((s'.tokenSwaps token).getD []).drop ((s.tokenSwaps token).getD []).length

namespace WalletAnalyzer

/-- One call. -/
def step (a : WalletAnalyzer) (c : AnalysisCall) : WalletAnalyzer := (a.processSwap c.1 c.2).1

/-- The prices of a call. -/
def price (a : WalletAnalyzer) (c : AnalysisCall) (decimals : TokenDecimals) : Option Price :=
  (analysisSolPrice c.1 a c.2.blockTime).bind
    (calculateTokenPrices c.2.swap.inputTokenMint c.2.swap.outputTokenMint
      c.2.swap.inputAmount c.2.swap.outputAmount decimals.input decimals.output)

/-- What is asked of a call. -/
structure Consistent (a : WalletAnalyzer) (c : AnalysisCall) : Prop where
  stats : ∀ wallet, ((a.step c).stats wallet).Consistent
  prices : ∀ decimals price, c.2.swap.tokenDecimals = some decimals →
    a.price c decimals = some price → ∀ wallet token,
      ∀ w ∈ (a.stats wallet).newSwaps ((a.step c).stats wallet) token, w.OwnPrices decimals price
  failed : ∀ e, (a.processSwap c.1 c.2).2 = .error e →
    (a.step c).wallets = a.wallets ∧ (a.step c).solPriceHistory = a.solPriceHistory ∧
      (a.step c).currentSolPrice = a.currentSolPrice ∧
      ∀ wallet, (a.stats wallet).SameButFailed ((a.step c).stats wallet)

/-- The block time has no date, and one is needed. -/
def Undated (env : AnalysisEnv) (s : WalletStats) (blockTime : ℤ) : Prop :=
  env.hasDate blockTime = false ∧
    (s.earliestTxn.all (fun ts => decide (blockTime < ts)) = true ∨
      s.latestTxn.all (fun ts => decide (ts < blockTime)) = true)

/-- The call ends before it counts anything, or it is for two static tokens and the price of
SOL is known. -/
def Harmless (a : WalletAnalyzer) (c : AnalysisCall) : Prop :=
  a.wallets c.2.signer = false ∨ c.2.swap.tokenDecimals = none ∨
    Undated c.1 (a.stats c.2.signer) c.2.blockTime ∨
    (isStaticToken c.2.swap.inputTokenMint = true ∧
      isStaticToken c.2.swap.outputTokenMint = true ∧
      (analysisSolPrice c.1 a c.2.blockTime).isSome = true)

end WalletAnalyzer

/-! ## One call -/

namespace WalletStats

/-- Counting the mints shows in the statistics of the input mint. -/
theorem countMints_ne (s : WalletStats) (swap : ResolvedSwap) (decimals : TokenDecimals) :
    (s.countMints swap decimals).tokenStats ≠ s.tokenStats := by
  intro h
  have hsells : (((s.countMints swap decimals).tokenStats swap.inputTokenMint).map
      TokenStats.totalSells).getD 0 =
        ((s.tokenStats swap.inputTokenMint).map TokenStats.totalSells).getD 0 + 1 := by
    unfold countMints upsert
    by_cases hm : swap.inputTokenMint = swap.outputTokenMint
    · cases hs : s.tokenStats swap.outputTokenMint <;> simp [hm, hs]
    · cases s.tokenStats swap.inputTokenMint <;> simp [Function.update_of_ne hm]
  rw [h] at hsells
  omega

theorem SameButFailed.tokenStats {s s' : WalletStats} (h : s.SameButFailed s') :
    s'.tokenStats = s.tokenStats := by
  unfold SameButFailed at h
  rw [← h]

theorem Consistent.fail {s : WalletStats} (h : s.Consistent) (signature : Signature) :
    (s.fail signature).Consistent :=
  ⟨⟨h.balanced.numSwaps, h.balanced.buyVolume, h.balanced.sellVolume⟩,
    h.counted.buys, h.counted.sells, h.counted.swaps⟩

/-- Other times leave the statistics consistent. -/
theorem Consistent.times {s : WalletStats} (h : s.Consistent) (earliestTxn latestTxn : Option ℤ) :
    ({ s with earliestTxn, latestTxn } : WalletStats).Consistent :=
  ⟨⟨h.balanced.numSwaps, h.balanced.buyVolume, h.balanced.sellVolume⟩,
    h.counted.buys, h.counted.sells, h.counted.swaps⟩

/-- Counting two static mints leaves the other tokens alone. -/
theorem Consistent.countStatic {s : WalletStats} (h : s.Consistent) {swap : ResolvedSwap}
    (hin : isStaticToken swap.inputTokenMint = true)
    (hout : isStaticToken swap.outputTokenMint = true) (decimals : TokenDecimals) :
    (s.countMints swap decimals).Consistent := by
  have hother : ∀ token, isStaticToken token = false →
      (s.countMints swap decimals).tokenStats token = s.tokenStats token := by
    intro token htoken
    have hne : ∀ mint, isStaticToken mint = true → token ≠ mint := by
      rintro mint hmint rfl
      rw [htoken] at hmint
      contradiction
    simp only [countMints, upsert_of_ne (hne _ hout), upsert_of_ne (hne _ hin)]
  refine ⟨⟨h.balanced.numSwaps, ?_, ?_⟩, ⟨?_, ?_, ?_⟩⟩
  · rw [tokenTotal_congr _ hother]
    exact h.balanced.buyVolume
  · rw [tokenTotal_congr _ hother]
    exact h.balanced.sellVolume
  · rw [tokenTotal_congr _ hother]
    exact h.counted.buys
  · rw [tokenTotal_congr _ hother]
    exact h.counted.sells
  · intro token htoken
    rw [hother token htoken]
    exact h.counted.swaps token htoken

/-- A swap of two static tokens is counted for neither side. -/
theorem countSwap_static (s : WalletStats) {c : AnalyzedSwap}
    (hin : isStaticToken c.swap.inputTokenMint = true)
    (hout : isStaticToken c.swap.outputTokenMint = true) (decimals : TokenDecimals)
    (price : Price) : s.countSwap c decimals price = s := by
  simp [countSwap, hin, hout, keepSwap]

/-- A swap with one other token is counted once for the wallet and twice for the token. -/
theorem not_counted_countSwap {s : WalletStats} (h : s.Counted) {c : AnalyzedSwap}
    (hone : isStaticToken c.swap.inputTokenMint ≠ isStaticToken c.swap.outputTokenMint)
    (decimals : TokenDecimals) (price : Price) :
    ¬ ((s.countMints c.swap decimals).countSwap c decimals price).Counted := by
  intro hc
  obtain ⟨hinput, houtput⟩ := countMints_isSome s c.swap decimals
  obtain ⟨hbuys, hsells⟩ := countMints_counts s c.swap decimals
  cases hout : isStaticToken c.swap.outputTokenMint with
  | true =>
    have hin : isStaticToken c.swap.inputTokenMint = false := by simpa [hout] using hone
    have htotal := hc.sells
    have hadd := addSell_total TokenStats.totalSells (d := 1)
      (volumeUsd c.swap.outputAmount decimals.output price.inputPriceUsd) hinput
      fun _ => rfl
    simp only [countSwap, hout, hin, Bool.not_true, Bool.not_false, keepSwap, addSell] at htotal
    simp only [addSell] at hadd
    rw [hadd, hsells, h.sells] at htotal
    simp [hin, countMints] at htotal
  | false =>
    have hin : isStaticToken c.swap.inputTokenMint = true := by simpa [hout] using hone
    have htotal := hc.buys
    have hadd := addBuy_total TokenStats.totalBuys (d := 1)
      (volumeUsd c.swap.inputAmount decimals.input price.inputPriceUsd) houtput
      fun _ => rfl
    simp only [countSwap, hout, hin, Bool.not_true, Bool.not_false, keepSwap, addBuy] at htotal
    simp only [addBuy] at hadd
    rw [hadd, hbuys, h.buys] at htotal
    simp [hout, countMints] at htotal

/-- A call that counts nothing keeps no swap. -/
theorem newSwaps_eq_nil {s s' : WalletStats} (h : s'.tokenSwaps = s.tokenSwaps)
    (token : Pubkey) : s.newSwaps s' token = [] := by
  unfold newSwaps
  rw [h, List.drop_length]

end WalletStats

namespace WalletAnalyzer

theorem step_unfollowed {a : WalletAnalyzer} {c : AnalysisCall}
    (h : a.wallets c.2.signer = false) : a.processSwap c.1 c.2 = (a, .ok ()) := by
  simp [processSwap, h]

section Followed

variable {a : WalletAnalyzer} {c : AnalysisCall} (h : a.wallets c.2.signer = true)

include h

theorem processSwap_followed : (a.processSwap c.1 c.2).2 =
    ((a.stats c.2.signer).process c.1 a c.2).2 := by
  simp [processSwap, h]

theorem stats_step_signer : (a.step c).stats c.2.signer =
    ((a.stats c.2.signer).process c.1 a c.2).1 := by
  simp [step, processSwap, h, stats]

theorem stats_step_of_ne {wallet : Pubkey} (hne : wallet ≠ c.2.signer) :
    (a.step c).stats wallet = a.stats wallet := by
  simp [step, processSwap, h, stats, Function.update_of_ne hne]

/-- What is asked of a call is asked of the statistics of the signer. -/
theorem consistent_of_signer (ha : ∀ wallet, (a.stats wallet).Consistent)
    {result : WalletStats × Except AnalysisError Unit}
    (hresult : (a.stats c.2.signer).process c.1 a c.2 = result)
    (hstats : result.1.Consistent) (hswaps : result.1.tokenSwaps =
      (a.stats c.2.signer).tokenSwaps)
    (hfailed : ∀ e, result.2 = .error e → (a.stats c.2.signer).SameButFailed result.1) :
    a.Consistent c := by
  have hsigner := stats_step_signer h
  rw [hresult] at hsigner
  refine ⟨fun wallet => ?_, fun decimals price _ _ wallet token w hw => ?_, fun e he => ?_⟩
  · by_cases hw : wallet = c.2.signer
    · rw [hw, hsigner]
      exact hstats
    · rw [stats_step_of_ne h hw]
      exact ha wallet
  · have hsame : ((a.step c).stats wallet).tokenSwaps = (a.stats wallet).tokenSwaps := by
      by_cases hw : wallet = c.2.signer
      · rw [hw, hsigner]
        exact hswaps
      · rw [stats_step_of_ne h hw]
    rw [WalletStats.newSwaps_eq_nil hsame] at hw
    exact absurd hw List.not_mem_nil
  · rw [processSwap_followed h, hresult] at he
    refine ⟨by simp [step, processSwap, h], by simp [step, processSwap, h],
      by simp [step, processSwap, h], fun wallet => ?_⟩
    by_cases hw : wallet = c.2.signer
    · rw [hw, hsigner]
      exact hfailed e he
    · rw [stats_step_of_ne h hw]
      rfl

end Followed

/-- Times that were noted had a date where they needed one. -/
theorem not_undated {env : AnalysisEnv} {s s' : WalletStats} {blockTime : ℤ}
    (h : s.noteTimes env blockTime = (s', .ok ())) : ¬ Undated env s blockTime := by
  rcases WalletStats.noteTimes_cases env s blockTime with ⟨-, herror⟩ | ⟨hdated, -⟩
  · rw [h] at herror
    exact absurd (Prod.mk.inj herror).2 nofun
  · exact hdated

/-- A call that gets as far as the prices is harmless only when both tokens are static. -/
theorem Harmless.static {a : WalletAnalyzer} {c : AnalysisCall} (h : a.Harmless c)
    (hw : a.wallets c.2.signer = true) {decimals : TokenDecimals}
    (hdec : c.2.swap.tokenDecimals = some decimals) {s' : WalletStats}
    (hdate : (a.stats c.2.signer).noteTimes c.1 c.2.blockTime = (s', .ok ())) :
    isStaticToken c.2.swap.inputTokenMint = true ∧
      isStaticToken c.2.swap.outputTokenMint = true ∧
      (analysisSolPrice c.1 a c.2.blockTime).isSome = true := by
  rcases h with hunfollowed | hnone | hundated | hstatic
  · rw [hw] at hunfollowed
    contradiction
  · rw [hdec] at hnone
    contradiction
  · exact absurd hundated (not_undated hdate)
  · exact hstatic

/-- A call does what is asked of it exactly when it is harmless. -/
theorem consistent_iff {a : WalletAnalyzer} (ha : ∀ wallet, (a.stats wallet).Consistent)
    (c : AnalysisCall) : a.Consistent c ↔ a.Harmless c := by
  cases hw : a.wallets c.2.signer with
  | false =>
    have hstep : a.step c = a := by rw [step, step_unfollowed hw]
    refine iff_of_true ⟨fun wallet => ?_, fun _ _ _ _ wallet token w hm => ?_, fun e he => ?_⟩
      (.inl hw)
    · rw [hstep]
      exact ha wallet
    · rw [hstep, WalletStats.newSwaps_eq_nil rfl] at hm
      exact absurd hm List.not_mem_nil
    · rw [step_unfollowed hw] at he
      contradiction
  | true =>
    have hs := ha c.2.signer
    have hcase := WalletStats.process_cases c.1 a (a.stats c.2.signer) c.2
    generalize hresult : (a.stats c.2.signer).process c.1 a c.2 = result at hcase
    cases hcase with
    | undecided hdec =>
      refine iff_of_true (consistent_of_signer hw ha hresult (hs.fail _) rfl fun _ _ => rfl)
        (.inr (.inl hdec))
    | undated hdec hdate hneeded =>
      exact iff_of_true (consistent_of_signer hw ha hresult hs rfl fun _ _ => rfl)
        (.inr (.inr (.inl ⟨hdate, hneeded⟩)))
    | unpriced decimals earliestTxn latestTxn e hdec hdate hprice =>
      refine iff_of_false (fun hc => ?_) fun hharmless => ?_
      · obtain ⟨-, -, -, hsame⟩ := hc.failed e (by rw [processSwap_followed hw, hresult])
        have hsigner := (hsame c.2.signer).tokenStats
        rw [stats_step_signer hw, hresult] at hsigner
        exact WalletStats.countMints_ne
          ({ a.stats c.2.signer with earliestTxn, latestTxn } : WalletStats) c.2.swap decimals
          hsigner
      · obtain ⟨hin, -, hsol⟩ := hharmless.static hw hdec hdate
        rcases hprice with hnone | ⟨hin', -⟩
        · simp [hnone] at hsol
        · rw [hin] at hin'
          contradiction
    | counted decimals earliestTxn latestTxn solPrice price hdec hdate hsol hprice =>
      have hknown := (WalletStats.calculateTokenPrices_isSome c.2.swap.inputTokenMint
        c.2.swap.outputTokenMint c.2.swap.inputAmount c.2.swap.outputAmount decimals.input
        decimals.output solPrice).mp (by rw [hprice]; rfl)
      have htimes := hs.times earliestTxn latestTxn
      by_cases hone : isStaticToken c.2.swap.inputTokenMint =
          isStaticToken c.2.swap.outputTokenMint
      · have hin : isStaticToken c.2.swap.inputTokenMint = true := by
          rw [← hone] at hknown
          simpa using hknown
        have hout : isStaticToken c.2.swap.outputTokenMint = true := by rw [← hone, hin]
        rw [WalletStats.countSwap_static _ hin hout] at hresult
        refine iff_of_true (consistent_of_signer hw ha hresult
          (htimes.countStatic hin hout decimals) rfl fun e he => ?_)
          (.inr (.inr (.inr ⟨hin, hout, by rw [hsol]; rfl⟩)))
        contradiction
      · refine iff_of_false (fun hc => ?_) fun hharmless => ?_
        · have hsigner := (hc.stats c.2.signer).counted
          rw [stats_step_signer hw, hresult] at hsigner
          exact WalletStats.not_counted_countSwap htimes.counted hone decimals price hsigner
        · obtain ⟨hin, hout, -⟩ := hharmless.static hw hdec hdate
          rw [hin, hout] at hone
          contradiction

/-- A new analyzer has nothing to agree on. -/
theorem new_consistent (wallets : Pubkey → Bool) (solPriceHistory : List HistoricalPrice)
    (currentSolPrice : F64) (wallet : Pubkey) :
    ((new wallets solPriceHistory currentSolPrice).stats wallet).Consistent := by
  refine ⟨⟨rfl, tokenTotal_none _, tokenTotal_none _⟩, ⟨tokenTotal_none _, tokenTotal_none _, ?_⟩⟩
  intro token _
  rfl

/-- Every call keeps the number of swaps and the volumes in agreement. -/
theorem step_balanced {a : WalletAnalyzer} (ha : ∀ wallet, (a.stats wallet).Balanced 0)
    (c : AnalysisCall) (wallet : Pubkey) : ((a.step c).stats wallet).Balanced 0 := by
  cases hw : a.wallets c.2.signer with
  | false =>
    rw [step, step_unfollowed hw]
    exact ha wallet
  | true =>
    by_cases hne : wallet = c.2.signer
    · rw [hne, stats_step_signer hw]
      have hs := ha c.2.signer
      have hcounted : ∀ decimals earliestTxn latestTxn,
          (({ a.stats c.2.signer with earliestTxn, latestTxn } : WalletStats).countMints c.2.swap
            decimals).Balanced 0 := by
        intro decimals earliestTxn latestTxn
        obtain ⟨hbuy, hsell⟩ := WalletStats.countMints_volume
          ({ a.stats c.2.signer with earliestTxn, latestTxn } : WalletStats) c.2.swap decimals
        exact ⟨hs.numSwaps, hbuy.trans hs.buyVolume, hsell.trans hs.sellVolume⟩
      have hcase := WalletStats.process_cases c.1 a (a.stats c.2.signer) c.2
      generalize (a.stats c.2.signer).process c.1 a c.2 = result at hcase
      cases hcase with
      | undecided => exact ⟨hs.numSwaps, hs.buyVolume, hs.sellVolume⟩
      | undated => exact hs
      | unpriced decimals earliestTxn latestTxn e =>
        have h := hcounted decimals earliestTxn latestTxn
        exact ⟨h.numSwaps, h.buyVolume, h.sellVolume⟩
      | counted decimals earliestTxn latestTxn =>
        obtain ⟨hin, hout⟩ := WalletStats.countMints_isSome
          ({ a.stats c.2.signer with earliestTxn, latestTxn } : WalletStats) c.2.swap decimals
        exact (hcounted decimals earliestTxn latestTxn).countSwap hin hout _ _
    · rw [stats_step_of_ne hw hne]
      exact ha wallet

/-- In every run, whatever its calls are, each wallet has as many swaps as buys and sells and, when
they are summed exactly, the volumes of its tokens. -/
theorem balanced_run (wallets : Pubkey → Bool) (solPriceHistory : List HistoricalPrice)
    (currentSolPrice : F64) (calls : List AnalysisCall) (wallet : Pubkey) :
    ((exec step (new wallets solPriceHistory currentSolPrice) calls).stats wallet).Balanced 0 :=
  exec_preserves (I := fun a : WalletAnalyzer => ∀ wallet, (a.stats wallet).Balanced 0)
    (fun _ c ha => step_balanced ha c) calls
    (fun w => (new_consistent wallets solPriceHistory currentSolPrice w).balanced) wallet

/-- The calls of a run all do what is asked of them exactly when they are all harmless. -/
theorem consistent_along_iff (wallets : Pubkey → Bool) (solPriceHistory : List HistoricalPrice)
    (currentSolPrice : F64) (calls : List AnalysisCall) :
    Along step Consistent (new wallets solPriceHistory currentSolPrice) calls ↔
      Along step Harmless (new wallets solPriceHistory currentSolPrice) calls :=
  along_iff_along (I := fun a => ∀ wallet, (a.stats wallet).Consistent)
    (fun _ _ _ hc => hc.stats) (fun _ c ha => consistent_iff ha c)
    (new_consistent wallets solPriceHistory currentSolPrice)

/-- An analyzer that follows the sample wallet. -/
def sample : WalletAnalyzer :=
  new (fun wallet => decide (wallet = sampleWallet)) [⟨0, .fin 150⟩, ⟨100, .fin 150⟩] (.fin 150)

/-- The sample wallet buys the sample token. -/
def sampleCall : AnalysisCall :=
  (⟨100, fun _ => true⟩, ⟨(sampleBuyTrade 500).swap, 0, sampleWallet, 50⟩)

/-- One buy is counted once for the wallet, twice for the token, and not kept. -/
theorem not_consistent_buy : ¬ Along step Consistent sample [sampleCall] := by
  intro h
  have hswaps := (h.1.stats sampleWallet).counted.swaps sampleToken (by decide)
  have hcounted : (((sample.step sampleCall).stats sampleWallet).tokenStats sampleToken).map
      (fun stats => stats.totalBuys + stats.totalSells) = some 2 := by decide +kernel
  have hkept : ((sample.step sampleCall).stats sampleWallet).tokenSwaps sampleToken = some [] := by
    decide +kernel
  rw [hcounted, hkept] at hswaps
  contradiction

end WalletAnalyzer

end Biscuit.Analytics
