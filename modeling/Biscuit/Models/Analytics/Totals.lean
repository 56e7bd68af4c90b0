import Biscuit.Models.Analytics.Wallet

/-!
# Totals of a wallet and of its tokens

The volumes and the number of swaps of a wallet always agree with those of its tokens. The
counters of a token do not: a counted swap is counted twice for its token, and the first swap
of a token is not kept. A call keeps everything in order exactly when it counts nothing for a
token other than SOL, USDC and USDT and does not fail after it has counted.
-/

namespace Biscuit.Analytics

open Copy

variable {M : Type*} [AddCommMonoid M]

/-- The total over the tokens other than SOL, USDC and USDT. -/
noncomputable def tokenTotal (f : TokenStats → M) (stats : Pubkey → Option TokenStats) : M :=
  ∑ᶠ token, if isStaticToken token then 0 else ((stats token).map f).getD 0

/-- Adding to the statistics of one token adds to the total, unless the token is static. -/
theorem tokenTotal_update (f : TokenStats → M) {stats : Pubkey → Option TokenStats}
    {token : Pubkey} {new : Option TokenStats} {d : M}
    (h : (new.map f).getD 0 = ((stats token).map f).getD 0 + d) :
    tokenTotal f (Function.update stats token new) =
      tokenTotal f stats + if isStaticToken token then 0 else d := by
  unfold tokenTotal
  rw [← finsum_update_add _ token]
  congr 1
  ext t
  by_cases ht : t = token
  · subst ht
    cases hs : isStaticToken t with
    | true => simp
    | false => simp [h]
  · simp [Function.update_of_ne ht]

/-- Statistics that agree on the other tokens have the same total. -/
theorem tokenTotal_congr (f : TokenStats → M) {stats stats' : Pubkey → Option TokenStats}
    (h : ∀ token, isStaticToken token = false → stats' token = stats token) :
    tokenTotal f stats' = tokenTotal f stats := by
  unfold tokenTotal
  congr 1
  ext t
  cases hs : isStaticToken t with
  | true => rfl
  | false => rw [h t hs]

@[simp] theorem tokenTotal_none (f : TokenStats → M) : tokenTotal f (fun _ => none) = 0 := by
  unfold tokenTotal
  simp

/-- What an update by `upsert` adds. -/
theorem tokenTotal_upsert (f : TokenStats → M) {stats : Pubkey → Option TokenStats}
    {token : Pubkey} {modify : TokenStats → TokenStats} {new : TokenStats} {d : M}
    (hmodify : ∀ s, f (modify s) = f s + d) (hnew : f new = d) :
    tokenTotal f (upsert stats token modify new) =
      tokenTotal f stats + if isStaticToken token then 0 else d := by
  apply tokenTotal_update
  cases stats token with
  | none => simp [hnew]
  | some s => simp [hmodify]

/-! ## Volumes -/

/-- The volumes are those of the tokens, and so is the number of swaps, once the sides that
are still to be counted are. -/
structure WalletStats.Balanced (pending : ℕ) (s : WalletStats) : Prop where
  numSwaps : s.numSwaps = s.totalBuys + s.totalSells + pending
  buyVolume : tokenTotal TokenStats.buyVolumeUsd s.tokenStats = s.totalBuyVolumeUsd
  sellVolume : tokenTotal TokenStats.sellVolumeUsd s.tokenStats = s.totalSellVolumeUsd

/-- The counters and the kept swaps are those of the tokens. -/
structure WalletStats.Counted (s : WalletStats) : Prop where
  buys : tokenTotal TokenStats.totalBuys s.tokenStats = s.totalBuys
  sells : tokenTotal TokenStats.totalSells s.tokenStats = s.totalSells
  swaps : ∀ token, isStaticToken token = false →
    ((s.tokenSwaps token).getD []).length =
      ((s.tokenStats token).map fun stats => stats.totalBuys + stats.totalSells).getD 0

namespace WalletStats

/-- Counting the mints adds no volume. -/
theorem countMints_volume (s : WalletStats) (swap : ResolvedSwap) (decimals : TokenDecimals) :
    tokenTotal TokenStats.buyVolumeUsd (s.countMints swap decimals).tokenStats =
        tokenTotal TokenStats.buyVolumeUsd s.tokenStats ∧
      tokenTotal TokenStats.sellVolumeUsd (s.countMints swap decimals).tokenStats =
        tokenTotal TokenStats.sellVolumeUsd s.tokenStats := by
  constructor <;> unfold countMints <;>
    rw [tokenTotal_upsert _ (d := 0) (fun _ => (add_zero _).symm) rfl,
      tokenTotal_upsert _ (d := 0) (fun _ => (add_zero _).symm) rfl] <;> simp

/-- Counting the mints counts a buy of the output and a sell of the input. -/
theorem countMints_counts (s : WalletStats) (swap : ResolvedSwap) (decimals : TokenDecimals) :
    tokenTotal TokenStats.totalBuys (s.countMints swap decimals).tokenStats =
        tokenTotal TokenStats.totalBuys s.tokenStats +
          (if isStaticToken swap.outputTokenMint then 0 else 1) ∧
      tokenTotal TokenStats.totalSells (s.countMints swap decimals).tokenStats =
        tokenTotal TokenStats.totalSells s.tokenStats +
          if isStaticToken swap.inputTokenMint then 0 else 1 := by
  constructor <;> unfold countMints
  · rw [tokenTotal_upsert _ (d := 1) (fun _ => rfl) rfl,
      tokenTotal_upsert _ (d := 0) (fun _ => rfl) rfl]
    simp
  · rw [tokenTotal_upsert _ (d := 0) (fun _ => rfl) rfl,
      tokenTotal_upsert _ (d := 1) (fun _ => rfl) rfl]
    simp

/-- Both mints have statistics once they are counted. -/
theorem countMints_isSome (s : WalletStats) (swap : ResolvedSwap) (decimals : TokenDecimals) :
    ((s.countMints swap decimals).tokenStats swap.inputTokenMint).isSome = true ∧
      ((s.countMints swap decimals).tokenStats swap.outputTokenMint).isSome = true := by
  unfold countMints upsert
  constructor
  · by_cases h : swap.inputTokenMint = swap.outputTokenMint
    · simp [h]
    · simp [Function.update_of_ne h]
  · simp

/-- A buy adds to the total of its token what it adds to the statistics. -/
theorem addBuy_total (f : TokenStats → M) {s : WalletStats} {swap : ResolvedSwap} (usd : F64)
    {d : M} (hsome : (s.tokenStats swap.outputTokenMint).isSome = true)
    (hf : ∀ stats : TokenStats, f (stats.addBuy swap.outputAmount usd) = f stats + d) :
    tokenTotal f (s.addBuy swap usd).tokenStats =
      tokenTotal f s.tokenStats + if isStaticToken swap.outputTokenMint then 0 else d := by
  obtain ⟨stats, hstats⟩ := Option.isSome_iff_exists.mp hsome
  apply tokenTotal_update
  simp [hstats, hf]

/-- A sell adds to the total of its token what it adds to the statistics. -/
theorem addSell_total (f : TokenStats → M) {s : WalletStats} {swap : ResolvedSwap} (usd : F64)
    {d : M} (hsome : (s.tokenStats swap.inputTokenMint).isSome = true)
    (hf : ∀ stats : TokenStats, f (stats.addSell swap.inputAmount usd) = f stats + d) :
    tokenTotal f (s.addSell swap usd).tokenStats =
      tokenTotal f s.tokenStats + if isStaticToken swap.inputTokenMint then 0 else d := by
  obtain ⟨stats, hstats⟩ := Option.isSome_iff_exists.mp hsome
  apply tokenTotal_update
  simp [hstats, hf]

/-- A buy leaves the input mint with statistics. -/
theorem addBuy_isSome {s : WalletStats} {swap : ResolvedSwap} (usd : F64)
    (h : (s.tokenStats swap.inputTokenMint).isSome = true) :
    ((s.addBuy swap usd).tokenStats swap.inputTokenMint).isSome = true := by
  unfold addBuy
  by_cases hm : swap.inputTokenMint = swap.outputTokenMint
  · rw [← hm]
    simpa using h
  · simpa [Function.update_of_ne hm] using h

/-- Keeping a swap changes no statistics. -/
theorem Balanced.keepSwap {s : WalletStats} (h : s.Balanced 0) (token : Pubkey)
    (swap : Option Swap) : (s.keepSwap token swap).Balanced 0 := by
  cases swap with
  | none => exact h
  | some swap => exact ⟨h.numSwaps, h.buyVolume, h.sellVolume⟩

/-- A buy counts one side. -/
theorem Balanced.addBuy {pending : ℕ} {s : WalletStats} (h : s.Balanced (pending + 1))
    {swap : ResolvedSwap} (usd : F64)
    (hsome : (s.tokenStats swap.outputTokenMint).isSome = true)
    (hout : isStaticToken swap.outputTokenMint = false) :
    (s.addBuy swap usd).Balanced pending := by
  refine ⟨?_, ?_, ?_⟩
  · have hnum := h.numSwaps
    simp only [WalletStats.addBuy]
    omega
  · rw [addBuy_total (d := usd) _ usd hsome fun _ => rfl, h.buyVolume, hout]
    rfl
  · rw [addBuy_total (d := 0) _ usd hsome fun _ => (add_zero _).symm, h.sellVolume]
    simp [WalletStats.addBuy]

/-- A sell counts one side. -/
theorem Balanced.addSell {pending : ℕ} {s : WalletStats} (h : s.Balanced (pending + 1))
    {swap : ResolvedSwap} (usd : F64)
    (hsome : (s.tokenStats swap.inputTokenMint).isSome = true)
    (hin : isStaticToken swap.inputTokenMint = false) :
    (s.addSell swap usd).Balanced pending := by
  refine ⟨?_, ?_, ?_⟩
  · have hnum := h.numSwaps
    simp only [WalletStats.addSell]
    omega
  · rw [addSell_total (d := 0) _ usd hsome fun _ => (add_zero _).symm, h.buyVolume]
    simp [WalletStats.addSell]
  · rw [addSell_total (d := usd) _ usd hsome fun _ => rfl, h.sellVolume, hin]
    rfl

/-- Announcing swaps leaves their sides to be counted. -/
theorem Balanced.announce {s : WalletStats} (h : s.Balanced 0) (n : ℕ) :
    ({ s with numSwaps := s.numSwaps + n } : WalletStats).Balanced n :=
  ⟨by have hnum := h.numSwaps; simp only; omega, h.buyVolume, h.sellVolume⟩

/-- Counting a swap keeps the number of swaps and the volumes in agreement. -/
theorem Balanced.countSwap {s : WalletStats} (h : s.Balanced 0) {c : AnalyzedSwap}
    (hin : (s.tokenStats c.swap.inputTokenMint).isSome = true)
    (hout : (s.tokenStats c.swap.outputTokenMint).isSome = true) (decimals : TokenDecimals)
    (price : Price) : (s.countSwap c decimals price).Balanced 0 := by
  unfold WalletStats.countSwap
  cases hbuy : isStaticToken c.swap.outputTokenMint with
  | true =>
    cases hsell : isStaticToken c.swap.inputTokenMint with
    | true => exact h
    | false => exact (((h.announce 1).addSell _ hin hsell).keepSwap _ _).keepSwap _ _
  | false =>
    cases hsell : isStaticToken c.swap.inputTokenMint with
    | true => exact (((h.announce 1).addBuy _ hout hbuy).keepSwap _ _).keepSwap _ _
    | false =>
      have hboth := ((h.announce 2).addBuy (volumeUsd c.swap.inputAmount decimals.input
        price.inputPriceUsd) hout hbuy).addSell (volumeUsd c.swap.outputAmount decimals.output
          price.inputPriceUsd) (addBuy_isSome _ hin) hsell
      exact (hboth.keepSwap _ _).keepSwap _ _

/-- Everything one call can do to the statistics of the signer. -/
inductive ProcessCase (env : AnalysisEnv) (a : WalletAnalyzer) (s : WalletStats)
    (c : AnalyzedSwap) : WalletStats × Except AnalysisError Unit → Prop
  /-- The decimals are not known. -/
  | undecided (hdec : c.swap.tokenDecimals = none) :
      ProcessCase env a s c (s.fail c.signature, .error (.tokenDecimals c.signature))
  /-- The block time has no date where one is needed. -/
  | undated (hdec : c.swap.tokenDecimals.isSome = true) (hdate : env.hasDate c.blockTime = false)
      (hneeded : s.earliestTxn.all (fun ts => decide (c.blockTime < ts)) = true ∨
        s.latestTxn.all (fun ts => decide (ts < c.blockTime)) = true) :
      ProcessCase env a s c (s, .error .blockTime)
  /-- The mints are counted, but the swap is not priced. -/
  | unpriced (decimals : TokenDecimals) (earliestTxn latestTxn : Option ℤ) (e : AnalysisError)
      (hdec : c.swap.tokenDecimals = some decimals)
      (hdate : s.noteTimes env c.blockTime = ({ s with earliestTxn, latestTxn }, .ok ()))
      (hprice : analysisSolPrice env a c.blockTime = none ∨
        (isStaticToken c.swap.inputTokenMint = false ∧
          isStaticToken c.swap.outputTokenMint = false)) :
      ProcessCase env a s c ((({ s with earliestTxn, latestTxn } : WalletStats).countMints c.swap
        decimals).fail c.signature, .error e)
  /-- The swap is counted. -/
  | counted (decimals : TokenDecimals) (earliestTxn latestTxn : Option ℤ) (solPrice : F64)
      (price : Price) (hdec : c.swap.tokenDecimals = some decimals)
      (hdate : s.noteTimes env c.blockTime = ({ s with earliestTxn, latestTxn }, .ok ()))
      (hsol : analysisSolPrice env a c.blockTime = some solPrice)
      (hprice : calculateTokenPrices c.swap.inputTokenMint c.swap.outputTokenMint
        c.swap.inputAmount c.swap.outputAmount decimals.input decimals.output solPrice =
          some price) :
      ProcessCase env a s c ((({ s with earliestTxn, latestTxn } : WalletStats).countMints c.swap
        decimals).countSwap c decimals price, .ok ())

/-- Noting the times needs a date only where a bound moves, and fails without a trace. -/
theorem noteTimes_cases (env : AnalysisEnv) (s : WalletStats) (blockTime : ℤ) :
    ((env.hasDate blockTime = false ∧
        (s.earliestTxn.all (fun ts => decide (blockTime < ts)) = true ∨
          s.latestTxn.all (fun ts => decide (ts < blockTime)) = true)) ∧
      s.noteTimes env blockTime = (s, .error .blockTime)) ∨
    (¬ (env.hasDate blockTime = false ∧
        (s.earliestTxn.all (fun ts => decide (blockTime < ts)) = true ∨
          s.latestTxn.all (fun ts => decide (ts < blockTime)) = true)) ∧
      ∃ earliestTxn latestTxn,
        s.noteTimes env blockTime = ({ s with earliestTxn, latestTxn }, .ok ())) := by
  cases hdate : env.hasDate blockTime with
  | true =>
    right
    have hok : ∀ passes bound, ∃ bound', noteTime env blockTime passes bound = .ok bound' := by
      intro passes bound
      unfold noteTime
      rw [hdate]
      by_cases h : Option.all passes bound = true
      · exact ⟨some blockTime, by simp [h]⟩
      · exact ⟨bound, by simp [h]⟩
    obtain ⟨earliestTxn, hearliest⟩ := hok (fun ts => decide (blockTime < ts)) s.earliestTxn
    obtain ⟨latestTxn, hlatest⟩ := hok (fun ts => decide (ts < blockTime)) s.latestTxn
    exact ⟨by simp, earliestTxn, latestTxn, by simp [noteTimes, hearliest, hlatest]⟩
  | false =>
    unfold noteTimes noteTime
    by_cases he : s.earliestTxn.all (fun ts => decide (blockTime < ts)) = true
    · exact .inl ⟨⟨rfl, .inl he⟩, by simp [he, hdate]⟩
    · by_cases hl : s.latestTxn.all (fun ts => decide (ts < blockTime)) = true
      · exact .inl ⟨⟨rfl, .inr hl⟩, by simp [he, hl, hdate]⟩
      · right
        refine ⟨by simp [he, hl], s.earliestTxn, s.latestTxn, ?_⟩
        simp [he, hl]

/-- Prices are known exactly when one of the mints is static. -/
theorem calculateTokenPrices_isSome (inputMint outputMint : Pubkey)
    (inputAmount outputAmount inputDecimals outputDecimals : ℕ) (solPrice : F64) :
    (calculateTokenPrices inputMint outputMint inputAmount outputAmount inputDecimals
      outputDecimals solPrice).isSome = true ↔
      isStaticToken inputMint = true ∨ isStaticToken outputMint = true := by
  have hknown : ∀ mint, (knownPrice solPrice mint).isSome = isStaticToken mint := by
    intro mint
    unfold knownPrice isStaticToken
    split_ifs with hstable hsol
    · rcases hstable with h | h <;> simp [h]
    · simp [hsol]
    · rw [not_or] at hstable
      simp [hstable, hsol]
  rw [← hknown, ← hknown]
  unfold calculateTokenPrices getTokenPrices askedPrices
  cases hin : knownPrice solPrice inputMint <;> cases hout : knownPrice solPrice outputMint <;>
    simp [hin, hout]

theorem process_cases (env : AnalysisEnv) (a : WalletAnalyzer) (s : WalletStats)
    (c : AnalyzedSwap) : ProcessCase env a s c (s.process env a c) := by
  unfold process
  cases hdec : c.swap.tokenDecimals with
  | none => exact .undecided hdec
  | some decimals =>
    obtain ⟨⟨hdate, hneeded⟩, hnote⟩ | ⟨-, earliestTxn, latestTxn, hnote⟩ :=
      noteTimes_cases env s c.blockTime
    · simp only [hnote]
      exact .undated (by rw [hdec]; rfl) hdate hneeded
    · simp only [hnote]
      cases hsol : analysisSolPrice env a c.blockTime with
      | none => exact .unpriced decimals earliestTxn latestTxn _ hdec hnote (.inl hsol)
      | some solPrice =>
        have hknown := calculateTokenPrices_isSome c.swap.inputTokenMint c.swap.outputTokenMint
          c.swap.inputAmount c.swap.outputAmount decimals.input decimals.output solPrice
        simp only
        cases hprice : calculateTokenPrices c.swap.inputTokenMint c.swap.outputTokenMint
            c.swap.inputAmount c.swap.outputAmount decimals.input decimals.output solPrice with
        | none =>
          refine .unpriced decimals earliestTxn latestTxn _ hdec hnote (.inr ?_)
          rw [hprice] at hknown
          simpa using hknown
        | some price =>
          exact .counted decimals earliestTxn latestTxn solPrice price hdec hnote hsol hprice

end WalletStats

end Biscuit.Analytics
