import Biscuit.Models.Copy.FileStorage

/-!
# Restarts of the direct mode

The live history is changed when a trade is sized, recorded or given up, but only recorded
trades are stored. A restart adds the stored trades up again: it finds the live entries and
volumes as long as no entry was given up on a full exit, no failed sell was counted, and the
values of all recorded trades can be stored.
-/

namespace Biscuit.Copy

/-! ## Recording, seen from the storage -/

/-- Whether a side of a direct swap is recorded. -/
def TradeSide.recorded (cfg : CopyConfig) (side : TradeSide) : Bool :=
  !isStaticToken side.token && (side.direction == .sell || decide (cfg.moonbagBps ≤ 10000))

/-- The values that a side of a direct swap is recorded with are finite. -/
def TradeSide.execFinite (side : TradeSide) : Bool :=
  (HistoricalTrades.priced side.execVolume side.execPriceUsd side.decimals).isFinite &&
    (HistoricalTrades.priced side.execVolume side.execPriceSol side.decimals).isFinite

/-- The sides that a confirmed order trades. -/
def Order.sides (o : Order) (quote : QuoteAnswer) (env : SuccessEnv) : List TradeSide :=
  let d := o.quoted quote
  let q := quote.details o.input
  match d.originSwap.tokenDecimals with
  | none => []
  | some origin =>
    (if o.details.sells then
      ((q.inputDecimals d.originSwap.inputTokenMint origin).map (sellSide env d q)).toList
    else []) ++
    if o.details.buys then
      ((q.outputDecimals d.originSwap.outputTokenMint origin).map (buySide env d q)).toList
    else []

/-- Recording sides adds the recorded trades to the history. -/
structure RecordsSides (cfg : CopyConfig) (h h' : HistoricalTrades) (sides : List TradeSide)
    (trades : List CopyTrade) : Prop where
  keeps : ∀ l : VolumeLedger, h.Keeps l → h'.Keeps (l.postAll (trades.map fun t => t.record.posting))
  tracked : ∀ t ∈ trades, t.tracked = true
  finite : (∀ t ∈ trades, t.volume.execFinite = true) ↔
    ∀ side ∈ sides, side.recorded cfg = true → side.execFinite = true

theorem RecordsSides.nil (cfg : CopyConfig) (h : HistoricalTrades) :
    RecordsSides cfg h h [] [] where
  keeps _ hl := hl
  tracked _ ht := by cases ht
  finite := by simp only [List.not_mem_nil, false_implies, implies_true]

theorem RecordsSides.append {cfg : CopyConfig} {h h₁ h₂ : HistoricalTrades}
    {sides₁ sides₂ : List TradeSide} {trades₁ trades₂ : List CopyTrade}
    (hs : RecordsSides cfg h h₁ sides₁ trades₁) (hs' : RecordsSides cfg h₁ h₂ sides₂ trades₂) :
    RecordsSides cfg h h₂ (sides₁ ++ sides₂) (trades₁ ++ trades₂) where
  keeps l hl := by
    rw [List.map_append, Ledger.postAll_append]
    exact hs'.keeps _ (hs.keeps l hl)
  tracked t ht := (List.mem_append.mp ht).elim (hs.tracked t) (hs'.tracked t)
  finite := by
    simp only [List.mem_append, or_imp, forall_and]
    exact and_congr hs.finite hs'.finite

/-- A side that is recorded becomes one trade with the values of the side. -/
theorem HistoricalTrades.insertTrade_recorded (h : HistoricalTrades) (cfg : CopyConfig)
    (wallet : Pubkey) (side : TradeSide) (hrecorded : side.recorded cfg = true) :
    ∃ h' v, h.insertTrade cfg.rounding wallet side.token side.decimals side.execVolume
      side.originVolume side.execPriceUsd side.execPriceSol side.originPriceUsd side.originPriceSol
      side.direction (some cfg.moonbagBps) = .ok (h', v) ∧ v.execFinite = side.execFinite := by
  rw [TradeSide.recorded, Bool.and_eq_true, Bool.not_eq_true'] at hrecorded
  obtain ⟨htoken, hdirection⟩ := hrecorded
  have hdust : ∃ dust, dustVolume cfg.rounding side.execVolume side.direction
      (some cfg.moonbagBps) = .ok dust := by
    cases hside : side.direction with
    | sell => exact ⟨0, rfl⟩
    | buy =>
      rw [hside] at hdirection
      have hbps : ¬ 10000 < cfg.moonbagBps := by simpa using hdirection
      simp only [dustVolume, Option.getD_some, if_neg hbps]
      exact ⟨_, rfl⟩
  obtain ⟨dust, hdust⟩ := hdust
  simp only [insertTrade, htoken, Bool.false_eq_true, if_false, hdust, insertTradeInner]
  exact ⟨_, _, rfl, rfl⟩

/-- A side that is not recorded changes nothing. -/
theorem HistoricalTrades.insertTrade_refused (h : HistoricalTrades) (cfg : CopyConfig)
    (wallet : Pubkey) (side : TradeSide) (hrefused : side.recorded cfg = false) :
    ∃ e, h.insertTrade cfg.rounding wallet side.token side.decimals side.execVolume
      side.originVolume side.execPriceUsd side.execPriceSol side.originPriceUsd side.originPriceSol
      side.direction (some cfg.moonbagBps) = .error e := by
  unfold insertTrade
  by_cases htoken : isStaticToken side.token = true
  · simp only [htoken, if_true]
    exact ⟨_, rfl⟩
  · have htoken' : isStaticToken side.token = false := by simpa using htoken
    rw [TradeSide.recorded, htoken', Bool.not_false, Bool.true_and, Bool.or_eq_false_iff] at hrefused
    obtain ⟨hsell, hbps⟩ := hrefused
    have hbuy : side.direction = .buy := by
      cases hside : side.direction with
      | buy => rfl
      | sell => rw [hside] at hsell; cases hsell
    have hlt : 10000 < cfg.moonbagBps := by simpa using hbps
    simp only [htoken', Bool.false_eq_true, if_false, hbuy, dustVolume, Option.getD_some, hlt, if_true]
    exact ⟨_, rfl⟩

theorem Shared.record_sides (s : Shared) (cfg : CopyConfig) {d : CopyDetails}
    (hmode : d.walletConfig.mode = .direct) (signature : Signature) (side : TradeSide) :
    RecordsSides cfg s.history (s.record cfg d signature side).1.history [side]
      (s.record cfg d signature side).2 := by
  unfold Shared.record
  simp only [hmode]
  cases hrecorded : side.recorded cfg with
  | false =>
    obtain ⟨e, he⟩ := s.history.insertTrade_refused cfg d.originSigner side hrecorded
    rw [he]
    have hnil := RecordsSides.nil cfg s.history
    refine ⟨hnil.keeps, hnil.tracked, ?_⟩
    simp only [List.not_mem_nil, false_implies, implies_true, List.mem_singleton, forall_eq,
      hrecorded, Bool.false_eq_true]
  | true =>
    obtain ⟨h', v, hok, hfinite⟩ :=
      s.history.insertTrade_recorded cfg d.originSigner side hrecorded
    rw [hok]
    obtain ⟨htoken, -, -, -, rfl⟩ := HistoricalTrades.insertTrade_ok hok
    refine ⟨fun l hl => ?_, fun t ht => ?_, ?_⟩
    · exact hl.addTrade (d.originSigner, side.token) side.token v.entry side.direction
    · rw [List.mem_singleton.mp ht, CopyTrade.tracked, htoken]
      rfl
    · simp only [List.mem_singleton, forall_eq, hrecorded, true_implies, hfinite]

theorem Shared.recordIf_sides (s : Shared) (cfg : CopyConfig) {d : CopyDetails}
    (hmode : d.walletConfig.mode = .direct) (signature : Signature) (traded : Bool)
    (side : TradeSide) :
    RecordsSides cfg s.history (s.recordIf cfg d signature traded side).1.history
      (if traded then [side] else []) (s.recordIf cfg d signature traded side).2 := by
  cases traded with
  | false => exact .nil cfg s.history
  | true => exact s.record_sides cfg hmode signature side

/-- Recording a confirmed order records its sides. -/
theorem handleSuccessTxn_sides (cfg : CopyConfig) (env : SuccessEnv) (s : Shared) (o : Order)
    (quote : QuoteAnswer) (signature : Signature) :
    ∃ s' trades, handleSuccessTxn cfg env s (o.quoted quote) signature = some (s', trades) ∧
      RecordsSides cfg s.history s'.history (o.sides quote env) trades := by
  obtain ⟨origin, inDecimals, outDecimals, sell, buy, horigin, hin, hout, hsell, hbuy, hrecord⟩ :=
    handleSuccessTxn_recordIf cfg env s o quote signature
  have hmode : (o.quoted quote).walletConfig.mode = .direct := o.sized.direct
  have hsold : RecordsSides cfg s.history sell.1.history
      (if o.details.sells then
        [sellSide env (o.quoted quote) (quote.details o.input) inDecimals] else []) sell.2 := by
    rw [← hsell, ← s.switchBuys_history cfg env.amountOut]
    exact Shared.recordIf_sides _ cfg hmode signature _ _
  have hbought : RecordsSides cfg sell.1.history buy.1.history
      (if o.details.buys then
        [buySide env (o.quoted quote) (quote.details o.input) outDecimals] else []) buy.2 := by
    rw [← hbuy]
    exact sell.1.recordIf_sides cfg hmode signature _ _
  have hsides : o.sides quote env =
      (if o.details.sells then
        [sellSide env (o.quoted quote) (quote.details o.input) inDecimals] else []) ++
      (if o.details.buys then
        [buySide env (o.quoted quote) (quote.details o.input) outDecimals] else []) := by
    have horigin' : (o.quoted quote).originSwap.tokenDecimals = some origin := horigin
    have hin' : (quote.details o.input).inputDecimals (o.quoted quote).originSwap.inputTokenMint
        origin = some inDecimals := hin
    have hout' : (quote.details o.input).outputDecimals
        (o.quoted quote).originSwap.outputTokenMint origin = some outDecimals := hout
    simp only [Order.sides, horigin', hin', hout', Option.map_some, Option.toList_some]
  refine ⟨buy.1, sell.2 ++ buy.2, hrecord, ?_⟩
  rw [hsides]
  exact hsold.append hbought

namespace Book

/-! ## What a restart finds -/

/-- What a stop in this state leaves behind: one file for every recorded trade. -/
def storage (clock : ℕ → ℕ) (execWallet : Pubkey) (s : Book) : FileStorage :=
  .ofTrades clock (s.trades.map fun t => ⟨t, execWallet⟩)

/-- A restart finds the live entries and their volumes, in whatever order the files are read and
whatever is read back of dollar and SOL values. -/
def Restores (clock : ℕ → ℕ) (execWallet : Pubkey) (s : Book) : Prop :=
  ∀ (reader : FloatReader) (dirs : Iteration TradeFile), ∃ h,
    (s.storage clock execWallet).bootstrapHistory reader dirs = some h ∧
      s.shared.history.SameVolumes h

/-- Sizing this trade gives the entry of the sold token up. -/
def givesUp (cfg : CopyConfig) (s : Book) (d : CopyDetails) : Bool :=
  d.walletConfig.mode == .direct && d.originSwap.tokenDecimals.isSome &&
    (s.shared.history d.sellKey).any fun c =>
      decide (c.originTokensLeft ≠ 0) && c.isFullExit cfg.rounding d.originSwap.inputAmount

/-- What a step has to meet for a restart to find the live history after it: no entry is given
up on a full exit, the values of recorded sides are finite, and no failed sell is counted. -/
def Survives (cfg : CopyConfig) (s : Book) : BookEvent → Prop
  | .trade _ d => s.givesUp cfg d = false
  | .confirm i quote env _ => ∀ o ∈ s.inFlight[i]?, ∀ side ∈ o.sides quote env,
      side.recorded cfg = true → side.execFinite = true
  | .fail i env => ∀ o ∈ s.inFlight[i]?, env.decimals.isSome = true →
      (s.shared.history o.details.sellKey).isSome = true →
      o.details.originSwap.inputAmount % 2 ^ 64 = 0

/-- The ledger of the recorded trades. -/
def ledger (s : Book) : VolumeLedger := Ledger.empty.postAll (s.trades.map fun t => t.record.posting)

/-- The live history is the sum of the recorded trades, and all of them can be stored. -/
structure Kept (s : Book) : Prop where
  keeps : s.shared.history.Keeps s.ledger
  finite : ∀ t ∈ s.trades, t.volume.execFinite = true

/-- Only trades of tracked tokens are recorded. -/
def Tracked (s : Book) : Prop := ∀ t ∈ s.trades, t.tracked = true

theorem restores_iff {clock : ℕ → ℕ} (hclock : Function.Injective clock) (execWallet : Pubkey)
    {s : Book} (hs : s.Tracked) : s.Restores clock execWallet ↔ s.Kept := by
  have hstored : ∀ t ∈ s.trades.map (fun t => (⟨t, execWallet⟩ : StoredTrade)),
      t.tracked = true ∧ t.toCopyTrade ∈ s.trades := by
    intro t ht
    obtain ⟨u, hu, rfl⟩ := List.mem_map.mp ht
    exact ⟨hs u hu, hu⟩
  have hledger : Ledger.empty.postAll ((s.trades.map fun t => (⟨t, execWallet⟩ : StoredTrade)).map
      fun t => t.record.posting) = s.ledger := by
    rw [List.map_map]
    rfl
  have hfound : (∀ t ∈ s.trades, t.volume.execFinite = true) → ∀ reader dirs, ∃ h,
      (s.storage clock execWallet).bootstrapHistory reader dirs = some h ∧ h.Keeps s.ledger := by
    intro hfinite reader dirs
    rw [← hledger]
    refine FileStorage.bootstrapHistory_ofTrades hclock (fun t ht => ?_) reader dirs
    obtain ⟨htracked, hmem⟩ := hstored t ht
    rw [CopyTrade.restorable, htracked, hfinite _ hmem]
    rfl
  constructor
  · intro h
    have hfinite : ∀ t ∈ s.trades, t.volume.execFinite = true := by
      intro t ht
      by_contra hbad
      obtain ⟨h', hread, -⟩ := h ⟨id⟩ (.stored _)
      have hmem : (⟨t, execWallet⟩ : StoredTrade) ∈
          s.trades.map fun t => (⟨t, execWallet⟩ : StoredTrade) := List.mem_map_of_mem ht
      obtain ⟨timestamp, hfile⟩ := FileStorage.exists_file_mem_ofTrades hclock hmem
      have hnot : (⟨t, execWallet⟩ : StoredTrade).restorable = false := by
        rw [CopyTrade.restorable, Bool.eq_false_iff.mpr hbad, Bool.and_false]
      rw [storage, FileStorage.bootstrapHistory_eq_none hnot hfile] at hread
      cases hread
    obtain ⟨h', hread, hsame⟩ := h ⟨id⟩ (.stored _)
    obtain ⟨h'', hread', hkeeps⟩ := hfound hfinite ⟨id⟩ (.stored _)
    rw [hread, Option.some.injEq] at hread'
    subst hread'
    exact ⟨fun key => (hsame key).symm.trans (hkeeps key), hfinite⟩
  · rintro ⟨hkeeps, hfinite⟩ reader dirs
    obtain ⟨h', hread, hkeeps'⟩ := hfound hfinite reader dirs
    exact ⟨h', hread, fun key => (hkeeps' key).trans (hkeeps key).symm⟩

/-! ## What one step keeps -/

/-- Sizing in the direct mode removes the entry of the sold token on a full exit, and changes
no other one. -/
theorem trade_history (cfg : CopyConfig) (s : Book) (walletBuysDisabled : Bool) (d : CopyDetails) :
    (s.trade cfg walletBuysDisabled d).shared.history =
      if s.givesUp cfg d then s.shared.history.remove d.sellKey else s.shared.history := by
  by_cases hmode : d.walletConfig.mode = .direct
  · have hcase := processDirect_cases cfg (s.shared.buyDisabled || walletBuysDisabled)
      s.shared.history d
    have hsized : (s.trade cfg walletBuysDisabled d).shared.history =
        (processDirect cfg (s.shared.buyDisabled || walletBuysDisabled) s.shared.history d).1 := by
      unfold trade
      rw [dif_pos hmode]
      split
      · next history d' input hp => exact (congrArg Prod.fst hp).symm
      · next history d' result hnone hp => exact (congrArg Prod.fst hp).symm
    rw [hsized]
    have hgives : s.givesUp cfg d = (d.originSwap.tokenDecimals.isSome &&
        (s.shared.history d.sellKey).any fun c =>
          decide (c.originTokensLeft ≠ 0) &&
            c.isFullExit cfg.rounding d.originSwap.inputAmount) := by
      rw [givesUp, hmode]
      rfl
    rw [hgives]
    generalize processDirect cfg (s.shared.buyDisabled || walletBuysDisabled) s.shared.history d =
      result at hcase
    cases hcase with
    | unresolved hdec => simp [hdec]
    | exhausted c hdec hc hleft => simp [hc, hleft]
    | skipSell c hdec hc hleft hzero => simp [hdec, hc, hleft]
    | sell c order copyType hdec hc hleft hpos horder => simp [hdec, hc, hleft]
    | skipBuy hdec hc hskip => simp [hc]
    | buy order hdec hc hbuy hout hin hmint => simp [hc]
  · have hsame : s.trade cfg walletBuysDisabled d = s := dif_neg hmode
    have hgives : s.givesUp cfg d = false := by
      rw [givesUp, beq_false_of_ne hmode, Bool.false_and, Bool.false_and]
    rw [hsame, hgives]
    rfl

theorem trade_trades (cfg : CopyConfig) (s : Book) (walletBuysDisabled : Bool) (d : CopyDetails) :
    (s.trade cfg walletBuysDisabled d).trades = s.trades := by
  have hcase := s.trade_cases cfg walletBuysDisabled d
  generalize s.trade cfg walletBuysDisabled d = s' at hcase
  cases hcase <;> rfl

/-- A removed entry is missed by a restart. -/
theorem trade_kept_iff {cfg : CopyConfig} {s : Book} (hs : s.Kept) (walletBuysDisabled : Bool)
    (d : CopyDetails) : (s.trade cfg walletBuysDisabled d).Kept ↔ s.givesUp cfg d = false := by
  have htrades := s.trade_trades cfg walletBuysDisabled d
  have hhistory := s.trade_history cfg walletBuysDisabled d
  have hledger : (s.trade cfg walletBuysDisabled d).ledger = s.ledger := by
    rw [ledger, htrades]
    rfl
  constructor
  · intro hkept
    by_contra hgives
    have hgives' : s.givesUp cfg d = true := by simpa using hgives
    have hpresent : (s.shared.history d.sellKey).isSome = true := by
      rw [givesUp, Bool.and_eq_true] at hgives'
      cases hc : s.shared.history d.sellKey with
      | none =>
        rw [hc] at hgives'
        exact absurd hgives'.2 Bool.false_ne_true
      | some c => rfl
    have hafter := hkept.keeps d.sellKey
    rw [hledger, ← hs.keeps d.sellKey, hhistory, if_pos hgives',
      HistoricalTrades.remove_self] at hafter
    have hsome := congrArg Option.isSome hafter
    rw [Option.map_none, Option.isSome_map, hpresent] at hsome
    cases hsome
  · intro hgives
    refine ⟨?_, ?_⟩
    · rw [hledger, hhistory, hgives]
      exact hs.keeps
    · rw [htrades]
      exact hs.finite

/-- A recorded order is found again exactly when its values are finite. -/
theorem confirm_kept_iff {cfg : CopyConfig} {s : Book} (hs : s.Kept) (i : ℕ)
    (quote : QuoteAnswer) (env : SuccessEnv) (signature : Signature) :
    (s.confirm cfg i quote env signature).Kept ↔
      s.Survives cfg (.confirm i quote env signature) := by
  unfold confirm Survives
  cases ho : s.inFlight[i]? with
  | none =>
    simp only [ho, Option.mem_def, reduceCtorEq, false_implies, implies_true, iff_true]
    exact hs
  | some o =>
    obtain ⟨s', trades, hsuccess, hrecords⟩ :=
      handleSuccessTxn_sides cfg env s.shared o quote signature
    simp only [ho, hsuccess, Option.mem_some_iff, forall_eq']
    rw [← hrecords.finite]
    constructor
    · exact fun hkept t ht => hkept.finite t (List.mem_append_right _ ht)
    · intro hfinite
      refine ⟨?_, fun t ht => (List.mem_append.mp ht).elim (hs.finite t) (hfinite t)⟩
      rw [ledger, List.map_append, Ledger.postAll_append]
      exact hrecords.keeps _ hs.keeps

/-- A sell of the origin wallet that is counted on its own is missed by a restart. -/
theorem fail_kept_iff {cfg : CopyConfig} {s : Book} (hs : s.Kept) (i : ℕ) (env : FailureEnv) :
    (s.fail i env).Kept ↔ s.Survives cfg (.fail i env) := by
  unfold fail Survives
  cases ho : s.inFlight[i]? with
  | none =>
    simp only [ho, Option.mem_def, reduceCtorEq, false_implies, implies_true, iff_true]
    exact hs
  | some o =>
    simp only [ho, Option.mem_some_iff, forall_eq']
    have hkept : ∀ history, Kept { s with
        shared := { s.shared with history }, inFlight := s.inFlight.eraseIdx i } ↔
        history.Keeps s.ledger := fun history =>
      ⟨fun h => h.keeps, fun h => ⟨h, hs.finite⟩⟩
    rw [hkept]
    unfold handleFailedExecution
    cases hc : s.shared.history o.details.sellKey with
    | none => exact iff_of_true hs.keeps fun _ h => by cases h
    | some c =>
      cases hdec : env.decimals with
      | none => exact iff_of_true hs.keeps fun h => by cases h
      | some decimals =>
        obtain ⟨a, ha, hca⟩ := Option.map_eq_some_iff.mp
          ((hs.keeps o.details.sellKey).symm.trans (congrArg (Option.map _) hc))
        simp only [Option.isSome_some, true_implies]
        rw [← CopyHistory.volumes_addSell_iff hca.symm o.details.originSwap.inputAmount
          (HistoricalTrades.priced o.details.originSwap.inputAmount env.originPrice.inputPriceUsd
            decimals.input)
          (HistoricalTrades.priced o.details.originSwap.inputAmount env.originPrice.inputPriceSol
            decimals.input)]
        constructor
        · intro hkeeps
          have hentry := hkeeps o.details.sellKey
          rw [HistoricalTrades.insert_self, ha, Option.map_some, Option.map_some, hca] at hentry
          exact Option.some.inj hentry
        · intro hsame key
          by_cases hk : key = o.details.sellKey
          · subst hk
            rw [HistoricalTrades.insert_self, ha, Option.map_some, Option.map_some, hca, hsame]
          · rw [HistoricalTrades.insert_of_ne _ hk]
            exact hs.keeps key

instance (cfg : CopyConfig) (s : Book) : ∀ e, Decidable (s.Survives cfg e)
  | .trade _ d => inferInstanceAs (Decidable (s.givesUp cfg d = false))
  | .confirm i quote env _ => inferInstanceAs (Decidable (∀ o ∈ s.inFlight[i]?,
      ∀ side ∈ o.sides quote env, side.recorded cfg = true → side.execFinite = true))
  | .fail i env => inferInstanceAs (Decidable (∀ o ∈ s.inFlight[i]?, env.decimals.isSome = true →
      (s.shared.history o.details.sellKey).isSome = true →
      o.details.originSwap.inputAmount % 2 ^ 64 = 0))

theorem step_tracked (cfg : CopyConfig) (s : Book) (e : BookEvent) (hs : s.Tracked) :
    (s.step cfg e).Tracked := by
  cases e with
  | trade walletBuysDisabled d =>
    unfold Tracked
    rw [step, trade_trades]
    exact hs
  | confirm i quote env signature =>
    cases ho : s.inFlight[i]? with
    | none =>
      simp only [step, confirm, ho]
      exact hs
    | some o =>
      obtain ⟨s', trades, hsuccess, hrecords⟩ :=
        handleSuccessTxn_sides cfg env s.shared o quote signature
      simp only [step, confirm, ho, hsuccess]
      exact fun t ht => (List.mem_append.mp ht).elim (hs t) (hrecords.tracked t)
  | fail i env =>
    cases ho : s.inFlight[i]? with
    | none =>
      simp only [step, fail, ho]
      exact hs
    | some o =>
      simp only [step, fail, ho]
      exact hs

theorem step_kept_iff {cfg : CopyConfig} {s : Book} (hs : s.Kept) (e : BookEvent) :
    (s.step cfg e).Kept ↔ s.Survives cfg e := by
  cases e with
  | trade walletBuysDisabled d => exact trade_kept_iff hs walletBuysDisabled d
  | confirm i quote env signature => exact confirm_kept_iff hs i quote env signature
  | fail i env => exact fail_kept_iff hs i env

/-- A restart after any step of a run finds the live history exactly when every step meets the
condition. -/
theorem restores_iff_survives (cfg : CopyConfig) {clock : ℕ → ℕ}
    (hclock : Function.Injective clock) (execWallet : Pubkey) (pingTracker : Option PingTracker)
    (buyDisabled : Bool) (es : List BookEvent) :
    Visits (step cfg) (Restores clock execWallet) (init pingTracker buyDisabled) es ↔
      Along (step cfg) (fun s e => s.Survives cfg e) (init pingTracker buyDisabled) es := by
  have htracked : (init pingTracker buyDisabled).Tracked := fun t ht => by cases ht
  have hkept : (init pingTracker buyDisabled).Kept :=
    ⟨HistoricalTrades.keeps_empty, fun t ht => by cases ht⟩
  refine visits_iff_along (step_tracked cfg) (fun s e hi hs => ?_) htracked
    ((restores_iff hclock execWallet htracked).mpr hkept)
  rw [restores_iff hclock execWallet (step_tracked cfg s e hi)]
  exact step_kept_iff ((restores_iff hclock execWallet hi).mp hs) e

/-- A restart after the sample wallet bought 100 tokens. -/
theorem restores_iff_survives_sample :
    Visits (step sampleConfig) (Restores id 3) (init none false) sampleBought :=
  (restores_iff_survives sampleConfig Function.injective_id 3 none false sampleBought).mpr
    (by decide +kernel)

/-- A restart brings back an entry that was given up on a full exit. -/
theorem not_restores_full_exit :
    ¬ ∀ (cfg : CopyConfig) (es : List BookEvent),
      Visits (step cfg) (Restores id 3) (init none false) es := by
  intro h
  have hrun := h sampleConfig (sampleBought ++ [.trade false (sampleSell 96)])
  have htracked : (exec (step sampleConfig) (init none false) sampleBought).Tracked :=
    exec_preserves (step_tracked sampleConfig) sampleBought fun t ht => by cases ht
  have hheld := (restores_iff Function.injective_id 3 htracked).mp hrun.2.1
  have hsold := (restores_iff Function.injective_id 3
    (step_tracked sampleConfig _ (.trade false (sampleSell 96)) htracked)).mp hrun.2.2.1
  exact absurd ((step_kept_iff hheld _).mp hsold) (by decide +kernel)

end Book

end Biscuit.Copy
