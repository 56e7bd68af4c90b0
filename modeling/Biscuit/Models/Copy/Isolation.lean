import Biscuit.Core.Noninterference
import Biscuit.Models.Copy.Book

/-!
# Wallets do not disturb each other in the direct mode

The entries, the orders and the trades of one wallet are those of a run that only has its
own events. One thing is shared on purpose, the switch that disables buys: it becomes part
of what the wallet's own events carry.
-/

namespace Biscuit.Copy

/-! ## Histories that agree at a wallet -/

/-- Two histories have the same entries for a wallet. -/
def HistoricalTrades.AgreeAt (w : Pubkey) (h h' : HistoricalTrades) : Prop :=
  ∀ token, h' (w, token) = h (w, token)

namespace HistoricalTrades.AgreeAt

variable {w : Pubkey} {h h' : HistoricalTrades}

theorem of_key (hagree : h.AgreeAt w h') {key : Pubkey × Pubkey} (hkey : key.1 = w) :
    h' key = h key := by
  subst hkey
  exact hagree key.2

/-- Both get the same entry. -/
theorem insert (hagree : h.AgreeAt w h') (key : Pubkey × Pubkey) (c : CopyHistory) :
    (h.insert key c).AgreeAt w (h'.insert key c) := by
  intro token
  by_cases hk : (w, token) = key
  · subst hk
    rw [HistoricalTrades.insert_self, HistoricalTrades.insert_self]
  · rw [HistoricalTrades.insert_of_ne c hk, HistoricalTrades.insert_of_ne c hk, hagree token]

/-- Both lose the same entry. -/
theorem remove (hagree : h.AgreeAt w h') (key : Pubkey × Pubkey) :
    (h.remove key).AgreeAt w (h'.remove key) := by
  intro token
  by_cases hk : (w, token) = key
  · subst hk
    rw [HistoricalTrades.remove_self, HistoricalTrades.remove_self]
  · rw [HistoricalTrades.remove_of_ne hk, HistoricalTrades.remove_of_ne hk, hagree token]

/-- Entries of other wallets do not matter. -/
theorem of_other (hagree : h.AgreeAt w h') {g : HistoricalTrades} {other : Pubkey}
    (hne : other ≠ w) (hother : ∀ key, key.1 ≠ other → g key = h key) : g.AgreeAt w h' :=
  fun token => (hagree token).trans (hother (w, token) hne.symm).symm

end HistoricalTrades.AgreeAt

/-! ## What an event does to the wallet that it is about -/

/-- Sizing looks at one entry of the history, and drops it or not. -/
theorem processDirect_agree {w : Pubkey} {h h' : HistoricalTrades} (cfg : CopyConfig)
    (buyDisabled : Bool) {d : CopyDetails} (hagree : h.AgreeAt w h')
    (hsigner : d.originSigner = w) :
    (processDirect cfg buyDisabled h' d).2 = (processDirect cfg buyDisabled h d).2 ∧
      (processDirect cfg buyDisabled h d).1.AgreeAt w (processDirect cfg buyDisabled h' d).1 := by
  have hkey : h' d.sellKey = h d.sellKey := hagree.of_key hsigner
  unfold processDirect
  cases d.originSwap.tokenDecimals with
  | none => exact ⟨rfl, hagree⟩
  | some decimals =>
    rw [hkey]
    cases h d.sellKey with
    | none =>
      simp only
      split_ifs <;> exact ⟨rfl, hagree⟩
    | some c =>
      simp only
      split_ifs
      · exact ⟨rfl, hagree⟩
      · exact ⟨rfl, hagree⟩
      · exact ⟨rfl, hagree.remove _⟩
      · exact ⟨rfl, hagree⟩
      · exact ⟨rfl, hagree.remove _⟩
      · exact ⟨rfl, hagree⟩

/-- Recording looks at one entry of the history, and replaces it or not. -/
theorem Shared.record_agree {w : Pubkey} {s t : Shared} (cfg : CopyConfig) {d : CopyDetails}
    (hmode : d.walletConfig.mode = .direct) (signature : Signature) (side : TradeSide)
    (hagree : s.history.AgreeAt w t.history) (hsigner : d.originSigner = w) :
    (t.record cfg d signature side).2 = (s.record cfg d signature side).2 ∧
      (s.record cfg d signature side).1.history.AgreeAt w
        (t.record cfg d signature side).1.history := by
  have hkey : t.history (d.originSigner, side.token) = s.history (d.originSigner, side.token) :=
    hagree.of_key hsigner
  simp only [Shared.record, hmode, HistoricalTrades.insertTrade,
    HistoricalTrades.insertTradeInner]
  split_ifs
  · exact ⟨rfl, hagree⟩
  · cases HistoricalTrades.dustVolume cfg.rounding side.execVolume side.direction
        (some cfg.moonbagBps) with
    | error e => exact ⟨rfl, hagree⟩
    | ok dust =>
      simp only [hkey]
      exact ⟨trivial, hagree.insert _ _⟩

/-- The same for a side that is recorded if the order trades it. -/
theorem Shared.recordIf_agree {w : Pubkey} {s t : Shared} (cfg : CopyConfig) {d : CopyDetails}
    (hmode : d.walletConfig.mode = .direct) (signature : Signature) (traded : Bool)
    (side : TradeSide) (hagree : s.history.AgreeAt w t.history)
    (hsigner : d.originSigner = w) :
    (t.recordIf cfg d signature traded side).2 = (s.recordIf cfg d signature traded side).2 ∧
      (s.recordIf cfg d signature traded side).1.history.AgreeAt w
        (t.recordIf cfg d signature traded side).1.history := by
  cases traded with
  | false => exact ⟨rfl, hagree⟩
  | true => exact Shared.record_agree cfg hmode signature side hagree hsigner

/-- Giving an order up looks at one entry of the history, and replaces it or not. -/
theorem handleFailedExecution_agree {w : Pubkey} {h h' : HistoricalTrades} (env : FailureEnv)
    {d : CopyDetails} (hagree : h.AgreeAt w h') (hsigner : d.originSigner = w) :
    (handleFailedExecution env h d).AgreeAt w (handleFailedExecution env h' d) := by
  have hkey : h' d.sellKey = h d.sellKey := hagree.of_key hsigner
  unfold handleFailedExecution
  rw [hkey]
  cases h d.sellKey with
  | none => exact hagree
  | some c =>
    cases env.decimals with
    | none => exact hagree
    | some decimals => exact hagree.insert _ _

/-! ## What an event does to the other wallets -/

/-- Sizing touches the entries of the signer alone. -/
theorem processDirect_other (cfg : CopyConfig) (buyDisabled : Bool) (h : HistoricalTrades)
    (d : CopyDetails) {key : Pubkey × Pubkey} (hne : key.1 ≠ d.originSigner) :
    (processDirect cfg buyDisabled h d).1 key = h key := by
  have hsell : key ≠ d.sellKey := fun hk => hne (congrArg Prod.fst hk)
  have hdrop : ∀ full : Bool, (if full then h.remove d.sellKey else h) key = h key := by
    intro full
    cases full with
    | false => rfl
    | true => exact HistoricalTrades.remove_of_ne hsell
  have hcase := processDirect_cases cfg buyDisabled h d
  generalize processDirect cfg buyDisabled h d = result at hcase
  cases hcase with
  | skipSell c hdec hc hleft hzero => exact hdrop _
  | sell c order copyType hdec hc hleft hpos horder => exact hdrop _
  | _ => rfl

/-- Recording touches the entries of the signer alone, and its trades are the signer's. -/
theorem Shared.recordIf_other (s : Shared) (cfg : CopyConfig) {d : CopyDetails}
    (hmode : d.walletConfig.mode = .direct) (signature : Signature) (traded : Bool)
    (side : TradeSide) :
    (∀ key : Pubkey × Pubkey, key.1 ≠ d.originSigner →
      (s.recordIf cfg d signature traded side).1.history key = s.history key) ∧
    ∀ trade ∈ (s.recordIf cfg d signature traded side).2, trade.originWallet = d.originSigner := by
  have hcase := s.recordIf_cases cfg hmode signature traded side
  generalize (s.recordIf cfg d signature traded side).1.history = h' at hcase
  generalize (s.recordIf cfg d signature traded side).2 = trades at hcase
  cases hcase with
  | idle hno => exact ⟨fun _ _ => rfl, fun _ ht => absurd ht List.not_mem_nil⟩
  | traded hyes hrec =>
    cases hrec with
    | refused hsell => exact ⟨fun _ _ => rfl, fun _ ht => absurd ht List.not_mem_nil⟩
    | recorded v signature' htoken hexec horigin hdust hsell =>
      refine ⟨fun key hne => ?_, fun trade ht => ?_⟩
      · exact HistoricalTrades.insert_of_ne _ fun hk => hne (congrArg Prod.fst hk)
      · rw [List.mem_singleton.mp ht]

/-- Giving an order up touches the entries of the signer alone. -/
theorem handleFailedExecution_other (env : FailureEnv) (h : HistoricalTrades) (d : CopyDetails)
    {key : Pubkey × Pubkey} (hne : key.1 ≠ d.originSigner) :
    handleFailedExecution env h d key = h key := by
  have hcase := handleFailedExecution_cases env h d
  generalize handleFailedExecution env h d = h' at hcase
  cases hcase with
  | unrecorded hno => rfl
  | recorded c usd sol hc hdec =>
    exact HistoricalTrades.insert_of_ne _ fun hk => hne (congrArg Prod.fst hk)

/-! ## The run of one wallet -/

/-- An order of the wallet. -/
def Order.isOf (w : Pubkey) (o : Order) : Bool := o.details.originSigner == w

/-- A trade of the wallet. -/
def CopyTrade.isOf (w : Pubkey) (trade : CopyTrade) : Bool := trade.originWallet == w

/-- The answers to a confirmation, but for the lamports that disable buys. -/
def SuccessEnv.enabling (cfg : CopyConfig) (env : SuccessEnv) : SuccessEnv :=
  { env with amountOut := env.amountOut.map fun out => (out.1, cfg.disableBuyLamports + 1) }

/-- What a wallet is shown of an event: its own trades, with the switch that disables buys,
and what becomes of its own orders. -/
def Book.shownTo (cfg : CopyConfig) (w : Pubkey) (s : Book) : BookEvent → Option BookEvent
  | .trade walletBuysDisabled d =>
    if d.originSigner == w then
      some (.trade (s.shared.buyDisabled || walletBuysDisabled) d)
    else none
  | .confirm i quote env signature =>
    match s.inFlight[i]? with
    | some o =>
      if o.isOf w then
        some (.confirm (placeAmong (·.isOf w) s.inFlight i) quote (env.enabling cfg) signature)
      else none
    | none => none
  | .fail i env =>
    match s.inFlight[i]? with
    | some o =>
      if o.isOf w then some (.fail (placeAmong (·.isOf w) s.inFlight i) env) else none
    | none => none

/-- A book that only knows the wallet, beside one that knows all of them. -/
structure Book.SeenBy (w : Pubkey) (s t : Book) : Prop where
  history : s.shared.history.AgreeAt w t.shared.history
  inFlight : t.inFlight = s.inFlight.filter (·.isOf w)
  confirmed : t.confirmed = s.confirmed.filter (·.isOf w)
  trades : t.trades = s.trades.filter (·.isOf w)
  enabled : t.shared.buyDisabled = false

namespace Book

/-- An order is put in flight, or none is. -/
theorem trade_eq (cfg : CopyConfig) (s : Book) (walletBuysDisabled : Bool) {d : CopyDetails}
    (hmode : d.walletConfig.mode = .direct) :
    let result := processDirect cfg (s.shared.buyDisabled || walletBuysDisabled)
      s.shared.history d
    (∃ o : Order, result.2 = (o.details, .ok (some o.input)) ∧
      s.trade cfg walletBuysDisabled d =
        { s with
          shared := { s.shared with history := result.1 }
          inFlight := s.inFlight ++ [o] }) ∨
    (∀ input, result.2.2 ≠ .ok (some input)) ∧
      s.trade cfg walletBuysDisabled d =
        { s with shared := { s.shared with history := result.1 } } := by
  intro result
  unfold Book.trade
  rw [dif_pos hmode]
  split
  · rename_i history d' input hp
    refine .inl ⟨⟨d', input, processDirect_isDirectOrder hmode hp⟩, ?_, ?_⟩
    · exact congrArg Prod.snd hp
    · simp only [result, hp]
  · rename_i history _ hnone hp
    refine .inr ⟨fun input hinput => hnone input ?_, ?_⟩
    · rw [← hinput]
      exact congrArg (fun r => r.2.2) hp.symm
    · simp only [result, hp]

/-- Sizing keeps the signer of the details. -/
theorem originSigner_of_processDirect {cfg : CopyConfig} {buyDisabled : Bool}
    {h : HistoricalTrades} {d : CopyDetails} {o : Order}
    (hp : (processDirect cfg buyDisabled h d).2 = (o.details, .ok (some o.input))) :
    o.details.originSigner = d.originSigner := by
  obtain ⟨copyType, hd⟩ := processDirect_details cfg buyDisabled h d
  have hdetails : o.details = { d with copyType } := (congrArg Prod.fst hp).symm.trans hd
  rw [hdetails]

/-- A confirmed order is recorded and leaves. -/
theorem confirm_eq {cfg : CopyConfig} {s : Book} {i : ℕ} {o : Order} {quote : QuoteAnswer}
    {env : SuccessEnv} {signature : Signature} {shared : Shared} {trades : List CopyTrade}
    (hi : s.inFlight[i]? = some o)
    (hrecord : handleSuccessTxn cfg env s.shared (o.quoted quote) signature =
      some (shared, trades)) :
    s.confirm cfg i quote env signature =
      ⟨shared, s.inFlight.eraseIdx i, s.confirmed ++ [o], s.trades ++ trades⟩ := by
  simp only [Book.confirm, hi, hrecord]

/-- An order that is given up leaves. -/
theorem fail_eq {s : Book} {i : ℕ} {o : Order} {env : FailureEnv}
    (hi : s.inFlight[i]? = some o) :
    s.fail i env =
      { s with
        shared := { s.shared with
          history := handleFailedExecution env s.shared.history o.details }
        inFlight := s.inFlight.eraseIdx i } := by
  simp only [Book.fail, hi]

end Book

/-- Recording a confirmed order touches the entries of its signer alone, and the trades are
the signer's. -/
theorem handleSuccessTxn_other (cfg : CopyConfig) (env : SuccessEnv) (s : Shared) (o : Order)
    (quote : QuoteAnswer) (signature : Signature) :
    ∃ shared trades,
      handleSuccessTxn cfg env s (o.quoted quote) signature = some (shared, trades) ∧
      (∀ key : Pubkey × Pubkey, key.1 ≠ o.details.originSigner →
        shared.history key = s.history key) ∧
      ∀ trade ∈ trades, trade.originWallet = o.details.originSigner := by
  obtain ⟨origin, inDecimals, outDecimals, sell, buy, -, -, -, hsell, hbuy, hrecord⟩ :=
    handleSuccessTxn_recordIf cfg env s o quote signature
  have hmode : (o.quoted quote).walletConfig.mode = .direct := o.sized.direct
  obtain ⟨hsellKeys, hsellTrades⟩ := Shared.recordIf_other (s.switchBuys cfg env.amountOut) cfg
    hmode signature o.details.sells (sellSide env (o.quoted quote) (quote.details o.input)
      inDecimals)
  obtain ⟨hbuyKeys, hbuyTrades⟩ := Shared.recordIf_other sell.1 cfg hmode signature
    o.details.buys (buySide env (o.quoted quote) (quote.details o.input) outDecimals)
  rw [hsell] at hsellKeys hsellTrades
  rw [hbuy] at hbuyKeys hbuyTrades
  refine ⟨buy.1, sell.2 ++ buy.2, hrecord, fun key hne => ?_, fun trade ht => ?_⟩
  · rw [hbuyKeys key hne, hsellKeys key hne, Shared.switchBuys_history]
  · rcases List.mem_append.mp ht with hm | hm
    · exact hsellTrades trade hm
    · exact hbuyTrades trade hm

/-- Recording keeps the switch that disables buys. -/
theorem Shared.recordIf_buyDisabled (s : Shared) (cfg : CopyConfig) {d : CopyDetails}
    (hmode : d.walletConfig.mode = .direct) (signature : Signature) (traded : Bool)
    (side : TradeSide) :
    (s.recordIf cfg d signature traded side).1.buyDisabled = s.buyDisabled := by
  unfold Shared.recordIf
  split
  · simp only [Shared.record, hmode]
    split <;> rfl
  · rfl

/-- Recording a confirmed order of a wallet gives the same trades and the same entries of the
wallet in both books; the one that only knows the wallet does not disable buys. -/
theorem handleSuccessTxn_agree {w : Pubkey} {s t : Shared} (cfg : CopyConfig) (env : SuccessEnv)
    (o : Order) (quote : QuoteAnswer) (signature : Signature)
    (hagree : s.history.AgreeAt w t.history) (henabled : t.buyDisabled = false)
    (hsigner : o.details.originSigner = w) :
    ∃ s' t' trades,
      handleSuccessTxn cfg env s (o.quoted quote) signature = some (s', trades) ∧
      handleSuccessTxn cfg (env.enabling cfg) t (o.quoted quote) signature =
        some (t', trades) ∧
      s'.history.AgreeAt w t'.history ∧ t'.buyDisabled = false := by
  obtain ⟨origin, inDecimals, outDecimals, sell, buy, horigin, hin, hout, hsell, hbuy, hrecord⟩ :=
    handleSuccessTxn_recordIf cfg env s o quote signature
  obtain ⟨origin', inDecimals', outDecimals', sell', buy', horigin', hin', hout', hsell', hbuy',
    hrecord'⟩ := handleSuccessTxn_recordIf cfg (env.enabling cfg) t o quote signature
  obtain rfl := Option.some.inj (horigin.symm.trans horigin')
  obtain rfl := Option.some.inj (hin.symm.trans hin')
  obtain rfl := Option.some.inj (hout.symm.trans hout')
  have hmode : (o.quoted quote).walletConfig.mode = .direct := o.sized.direct
  have hamount : (quote.details o.input).actualAmountOut (env.enabling cfg).amountOut =
      (quote.details o.input).actualAmountOut env.amountOut := by
    unfold SuccessEnv.enabling
    cases env.amountOut <;> rfl
  have hswitched : (s.switchBuys cfg env.amountOut).history.AgreeAt w
      (t.switchBuys cfg (env.enabling cfg).amountOut).history := by
    rw [Shared.switchBuys_history, Shared.switchBuys_history]
    exact hagree
  have hstays : (t.switchBuys cfg (env.enabling cfg).amountOut).buyDisabled = false := by
    unfold SuccessEnv.enabling
    cases env.amountOut with
    | none => exact henabled
    | some out => exact decide_eq_false (by omega)
  have hsellSide : sellSide (env.enabling cfg) (o.quoted quote) (quote.details o.input) inDecimals =
      sellSide env (o.quoted quote) (quote.details o.input) inDecimals := rfl
  have hbuySide : buySide (env.enabling cfg) (o.quoted quote) (quote.details o.input) outDecimals =
      buySide env (o.quoted quote) (quote.details o.input) outDecimals := by
    simp only [buySide, hamount]
    rfl
  obtain ⟨hsellTrades, hsellAgree⟩ := Shared.recordIf_agree cfg hmode signature o.details.sells
    (sellSide env (o.quoted quote) (quote.details o.input) inDecimals) hswitched hsigner
  rw [hsell, ← hsellSide, hsell'] at hsellTrades hsellAgree
  obtain ⟨hbuyTrades, hbuyAgree⟩ := Shared.recordIf_agree cfg hmode signature o.details.buys
    (buySide env (o.quoted quote) (quote.details o.input) outDecimals) hsellAgree hsigner
  rw [hbuy, ← hbuySide, hbuy'] at hbuyTrades hbuyAgree
  refine ⟨buy.1, buy'.1, sell.2 ++ buy.2, hrecord, ?_, hbuyAgree, ?_⟩
  · rw [hrecord', hsellTrades, hbuyTrades]
  · rw [← hbuy', Shared.recordIf_buyDisabled _ cfg hmode, ← hsell',
      Shared.recordIf_buyDisabled _ cfg hmode]
    exact hstays

namespace Book

variable {w : Pubkey} {s t : Book}

/-- What is hidden from a wallet changes nothing for it. -/
theorem SeenBy.hidden {cfg : CopyConfig} (e : BookEvent) (h : SeenBy w s t)
    (hhidden : s.shownTo cfg w e = none) : SeenBy w (s.step cfg e) t := by
  cases e with
  | trade walletBuysDisabled d =>
    have hne : d.originSigner ≠ w := by
      intro hsigner
      simp only [shownTo, hsigner, beq_self_eq_true, if_true, reduceCtorEq] at hhidden
    by_cases hmode : d.walletConfig.mode = .direct
    · have hagree := h.history.of_other hne fun key hkey =>
        processDirect_other cfg (s.shared.buyDisabled || walletBuysDisabled) s.shared.history d hkey
      rcases s.trade_eq cfg walletBuysDisabled hmode with ⟨o, hp, htrade⟩ | ⟨-, htrade⟩
      · have hother : o.isOf w = false := by
          rw [Order.isOf, originSigner_of_processDirect hp]
          exact beq_false_of_ne hne
        simp only [step, htrade]
        exact
          { h with
            history := hagree
            inFlight := by
              rw [h.inFlight, List.filter_append, List.filter_singleton, hother]
              simp }
      · simp only [step, htrade]
        exact { h with history := hagree }
    · have hidle : s.step cfg (.trade walletBuysDisabled d) = s := dif_neg hmode
      rw [hidle]
      exact h
  | confirm i quote env signature =>
    cases hi : s.inFlight[i]? with
    | none =>
      have hidle : s.step cfg (.confirm i quote env signature) = s := by
        simp only [step, Book.confirm, hi]
      rw [hidle]
      exact h
    | some o =>
      have hother : o.isOf w = false := by
        simpa only [shownTo, hi, ite_eq_right_iff, reduceCtorEq, imp_false,
          Bool.not_eq_true] using hhidden
      have hne : o.details.originSigner ≠ w := ne_of_beq_false hother
      obtain ⟨shared, trades, hrecord, hkeys, htrades⟩ :=
        handleSuccessTxn_other cfg env s.shared o quote signature
      simp only [step, confirm_eq hi hrecord]
      refine ⟨h.history.of_other hne hkeys, ?_, ?_, ?_, h.enabled⟩
      · rw [h.inFlight, filter_eraseIdx_of_not hi hother]
      · rw [h.confirmed, List.filter_append, List.filter_singleton, hother]
        simp
      · have hnone : trades.filter (·.isOf w) = [] := by
          refine List.filter_eq_nil_iff.mpr fun trade ht => ?_
          rw [CopyTrade.isOf, htrades trade ht, beq_false_of_ne hne]
          exact Bool.false_ne_true
        rw [h.trades, List.filter_append, hnone, List.append_nil]
  | fail i env =>
    cases hi : s.inFlight[i]? with
    | none =>
      have hidle : s.step cfg (.fail i env) = s := by
        simp only [step, Book.fail, hi]
      rw [hidle]
      exact h
    | some o =>
      have hother : o.isOf w = false := by
        simpa only [shownTo, hi, ite_eq_right_iff, reduceCtorEq, imp_false,
          Bool.not_eq_true] using hhidden
      have hne : o.details.originSigner ≠ w := ne_of_beq_false hother
      simp only [step, fail_eq hi]
      exact
        { h with
          history := h.history.of_other hne fun key hkey =>
            handleFailedExecution_other env s.shared.history o.details hkey
          inFlight := by rw [h.inFlight, filter_eraseIdx_of_not hi hother] }

/-- What a wallet is shown changes the same for it in both books. -/
theorem SeenBy.shown {cfg : CopyConfig} (e e' : BookEvent) (h : SeenBy w s t)
    (hshown : s.shownTo cfg w e = some e') : SeenBy w (s.step cfg e) (t.step cfg e') := by
  cases e with
  | trade walletBuysDisabled d =>
    simp only [shownTo, Option.ite_none_right_eq_some, beq_iff_eq, Option.some.injEq] at hshown
    obtain ⟨hsigner, rfl⟩ := hshown
    by_cases hmode : d.walletConfig.mode = .direct
    · have hswitch : (t.shared.buyDisabled || (s.shared.buyDisabled || walletBuysDisabled)) =
          (s.shared.buyDisabled || walletBuysDisabled) := by rw [h.enabled, Bool.false_or]
      obtain ⟨hsame, hagree⟩ := processDirect_agree cfg
        (s.shared.buyDisabled || walletBuysDisabled) h.history hsigner
      have ht := t.trade_eq cfg (s.shared.buyDisabled || walletBuysDisabled) hmode
      rw [hswitch] at ht
      rcases s.trade_eq cfg walletBuysDisabled hmode with ⟨o, hp, htrade⟩ | ⟨hnone, htrade⟩
      · have hown : o.isOf w = true := by
          rw [Order.isOf, originSigner_of_processDirect hp, hsigner]
          exact beq_self_eq_true w
        rcases ht with ⟨o', hp', htrade'⟩ | ⟨hnone', -⟩
        · have ho : o' = o := by
            have hboth := hp'.symm.trans (hsame.trans hp)
            obtain ⟨d', input', sized'⟩ := o'
            obtain ⟨d, input, sized⟩ := o
            simp only [Prod.mk.injEq, Except.ok.injEq, Option.some.injEq] at hboth
            obtain ⟨rfl, rfl⟩ := hboth
            rfl
          simp only [step, htrade, htrade', ho]
          exact
            { h with
              history := hagree
              inFlight := by
                rw [h.inFlight, List.filter_append, List.filter_singleton, hown]
                rfl }
        · exact absurd (congrArg Prod.snd (hsame.trans hp)) (hnone' o.input)
      · rcases ht with ⟨o', hp', -⟩ | ⟨-, htrade'⟩
        · exact absurd (congrArg Prod.snd (hsame.symm.trans hp')) (hnone o'.input)
        · simp only [step, htrade, htrade']
          exact { h with history := hagree }
    · have hidle : s.step cfg (.trade walletBuysDisabled d) = s := dif_neg hmode
      have hidle' : t.step cfg (.trade (s.shared.buyDisabled || walletBuysDisabled) d) = t :=
        dif_neg hmode
      rw [hidle, hidle']
      exact h
  | confirm i quote env signature =>
    cases hi : s.inFlight[i]? with
    | none => simp only [shownTo, hi, reduceCtorEq] at hshown
    | some o =>
      simp only [shownTo, hi, Option.ite_none_right_eq_some, Option.some.injEq] at hshown
      obtain ⟨hown, rfl⟩ := hshown
      have hi' : t.inFlight[placeAmong (·.isOf w) s.inFlight i]? = some o := by
        rw [h.inFlight]
        exact getElem?_filter_placeAmong hi hown
      obtain ⟨s', t', trades, hs, ht, hagree, henabled⟩ := handleSuccessTxn_agree cfg env o quote
        signature h.history h.enabled (beq_iff_eq.mp hown)
      have htrades : trades.filter (·.isOf w) = trades := by
        obtain ⟨shared, trades', hs', -, hown'⟩ :=
          handleSuccessTxn_other cfg env s.shared o quote signature
        obtain ⟨-, rfl⟩ := Prod.mk.inj (Option.some.inj (hs.symm.trans hs'))
        refine List.filter_eq_self.mpr fun trade hm => ?_
        rw [CopyTrade.isOf, hown' trade hm]
        exact hown
      simp only [step, confirm_eq hi hs, confirm_eq hi' ht]
      refine ⟨hagree, ?_, ?_, ?_, henabled⟩
      · rw [h.inFlight, filter_eraseIdx_of_mem hi hown]
      · rw [h.confirmed, List.filter_append, List.filter_singleton, hown]
        rfl
      · rw [h.trades, List.filter_append, htrades]
  | fail i env =>
    cases hi : s.inFlight[i]? with
    | none => simp only [shownTo, hi, reduceCtorEq] at hshown
    | some o =>
      simp only [shownTo, hi, Option.ite_none_right_eq_some, Option.some.injEq] at hshown
      obtain ⟨hown, rfl⟩ := hshown
      have hi' : t.inFlight[placeAmong (·.isOf w) s.inFlight i]? = some o := by
        rw [h.inFlight]
        exact getElem?_filter_placeAmong hi hown
      simp only [step, fail_eq hi, fail_eq hi']
      exact
        { h with
          history := handleFailedExecution_agree env h.history (beq_iff_eq.mp hown)
          inFlight := by rw [h.inFlight, filter_eraseIdx_of_mem hi hown] }

end Book

/-- Among wallets that are copied in the direct mode, whatever the other wallets do and in whatever
order their orders settle: the entries, the orders and the trades of a wallet are those of a run in
which no other wallet trades and in which the state of the switch that disables buys is given with
each of its trades. -/
theorem wallet_isolated (cfg : CopyConfig) (w : Pubkey) (pingTracker : Option PingTracker)
    (buyDisabled : Bool) (events : List BookEvent) :
    let s := exec (Book.step cfg) (Book.init pingTracker buyDisabled) events
    let own := purge (Book.step cfg) (Book.shownTo cfg w) (Book.init pingTracker buyDisabled)
      events
    let t := exec (Book.step cfg) (Book.init pingTracker false) own
    (∀ walletBuysDisabled d, .trade walletBuysDisabled d ∈ own → d.originSigner = w) ∧
      (∀ token, s.shared.history (w, token) = t.shared.history (w, token)) ∧
      s.inFlight.filter (fun o => o.details.originSigner == w) = t.inFlight ∧
      s.confirmed.filter (fun o => o.details.originSigner == w) = t.confirmed ∧
      s.trades.filter (fun trade => trade.originWallet == w) = t.trades := by
  intro s own t
  have hinit : Book.SeenBy w (Book.init pingTracker buyDisabled) (Book.init pingTracker false) :=
    ⟨fun _ => rfl, rfl, rfl, rfl, rfl⟩
  have hseen : Book.SeenBy w s t := exec_purge (fun _ _ e h hn => h.hidden e hn)
    (fun _ _ e e' h hs => h.shown e e' hs) events hinit
  refine ⟨fun walletBuysDisabled d hown => ?_, fun token => (hseen.history token).symm,
    hseen.inFlight.symm, hseen.confirmed.symm, hseen.trades.symm⟩
  obtain ⟨u, e, he⟩ := exists_of_mem_purge hown
  cases e with
  | trade flag d' =>
    simp only [Book.shownTo, Option.ite_none_right_eq_some, beq_iff_eq, Option.some.injEq,
      BookEvent.trade.injEq] at he
    obtain ⟨hsigner, -, rfl⟩ := he
    exact hsigner
  | confirm i quote env signature =>
    simp only [Book.shownTo] at he
    split at he
    · split at he <;> cases he
    · cases he
  | fail i env =>
    simp only [Book.shownTo] at he
    split at he
    · split at he <;> cases he
    · cases he

end Biscuit.Copy
