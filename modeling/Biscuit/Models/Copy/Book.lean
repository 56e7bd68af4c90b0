import Biscuit.Core.Run
import Biscuit.Core.Tally
import Biscuit.Models.Copy.Settlement

/-!
# The book of the direct mode

A system of two kinds of steps on one trade history: an origin trade is sized, and an
order that was sized earlier is settled. Any number of orders is in flight and they settle
in any order. Confirmed orders and recorded trades are kept, to speak about them.
-/

namespace Biscuit.Copy

/-- Whether the details carry an order that sells the origin's input token. -/
def CopyDetails.sells (d : CopyDetails) : Bool := d.copyType.any CopyType.sells

/-- Whether the details carry an order that buys the origin's output token. -/
def CopyDetails.buys (d : CopyDetails) : Bool := d.copyType.any CopyType.buys

/-- What holds of an order sized in the direct mode and of its details. -/
structure IsDirectOrder (d : CopyDetails) (input : SwapInput) : Prop where
  direct : d.walletConfig.mode = .direct
  resolved : d.originSwap.tokenDecimals.isSome
  typed : d.copyType.isSome
  sellMint : d.sells = true → input.inputTokenMint = d.originSwap.inputTokenMint
  fundMint : d.sells = false → input.inputTokenMint = SOL
  buyMint : d.buys = true → input.outputTokenMint = d.originSwap.outputTokenMint
  proceedsMint : d.buys = false → input.outputTokenMint = SOL
  bought : d.buys = true → isStaticToken d.originSwap.outputTokenMint = false

/-- An order sized in the direct mode. -/
structure Order where
  details : CopyDetails
  input : SwapInput
  sized : IsDirectOrder details input

/-- The details of an order once its transaction has been built from a quote. -/
def Order.quoted (o : Order) (q : QuoteAnswer) : CopyDetails :=
  { o.details with quoteOutput := some (q.details o.input) }

/-- What an order asks to sell or to spend. -/
def Order.amount (o : Order) : ℕ := o.input.amount

/-- What the origin wallet sold or spent. -/
def Order.originAmount (o : Order) : ℕ := o.details.originSwap.inputAmount

/-- A weight of the orders that sell a wallet's token. -/
def Order.selling (key : Pubkey × Pubkey) (f : Order → ℕ) (o : Order) : ℕ :=
  if o.details.sells = true ∧ o.details.sellKey = key then f o else 0

theorem Order.selling_of_sells {o : Order} {key : Pubkey × Pubkey}
    (hsells : o.details.sells = true) (hkey : o.details.sellKey = key) (f : Order → ℕ) :
    o.selling key f = f o := if_pos ⟨hsells, hkey⟩

theorem Order.selling_of_other {o : Order} {key : Pubkey × Pubkey}
    (h : o.details.sells = true → o.details.sellKey ≠ key) (f : Order → ℕ) :
    o.selling key f = 0 := if_neg fun hk => h hk.1 hk.2

/-- When no order sells a token, the sells of it weigh nothing. -/
theorem tally_selling_eq_zero {orders : List Order} {key : Pubkey × Pubkey}
    (h : ∀ o ∈ orders, o.details.sells = true → o.details.sellKey ≠ key) (f : Order → ℕ) :
    tally (Order.selling key f) orders = 0 := by
  induction orders with
  | nil => rfl
  | cons o orders ih =>
    rw [tally_cons, Order.selling_of_other (h o List.mem_cons_self),
      ih fun p hp => h p (List.mem_cons_of_mem o hp)]

/-- Sells that do not exist weigh nothing. -/
theorem tally_selling_of_count {orders : List Order} {key : Pubkey × Pubkey}
    (h : tally (Order.selling key fun _ => 1) orders = 0) (f : Order → ℕ) :
    tally (Order.selling key f) orders = 0 := by
  refine tally_selling_eq_zero (fun o ho hsells hkey => ?_) f
  obtain ⟨i, hi⟩ := List.getElem?_of_mem ho
  have hle := le_tally (f := Order.selling key fun _ => 1) hi
  rw [Order.selling_of_sells hsells hkey] at hle
  omega

/-- Sizing in the direct mode gives well-formed orders. -/
theorem processDirect_isDirectOrder {cfg : CopyConfig} {buyDisabled : Bool}
    {h h' : HistoricalTrades} {d d' : CopyDetails} {input : SwapInput}
    (hmode : d.walletConfig.mode = .direct)
    (hp : processDirect cfg buyDisabled h d = (h', d', .ok (some input))) :
    IsDirectOrder d' input := by
  have hcase := processDirect_cases cfg buyDisabled h d
  rw [hp] at hcase
  cases hcase with
  | sell c order copyType hdec hc hleft hpos horder =>
    obtain ⟨hin, -, hsells, hboth, hsol⟩ := directSellOrder_spec horder
    exact
      { direct := hmode
        resolved := hdec
        typed := rfl
        sellMint := fun _ => hin
        fundMint := fun hns => absurd hsells (by simpa [CopyDetails.sells] using hns)
        buyMint := fun hb => (hboth (by simpa [CopyDetails.buys] using hb)).1
        proceedsMint := fun hb => hsol (by simpa [CopyDetails.buys] using hb)
        bought := fun hb => (hboth (by simpa [CopyDetails.buys] using hb)).2 }
  | buy order hdec hc hbuy hout hin hmint =>
    exact
      { direct := hmode
        resolved := hdec
        typed := rfl
        sellMint := fun hs => nomatch hs
        fundMint := fun _ => hin
        buyMint := fun _ => hmint
        proceedsMint := fun hb => nomatch hb
        bought := fun _ => hout }

/-! ## The system -/

/-- The shared state, the orders in flight, and what has been confirmed so far. -/
structure Book where
  shared : Shared
  inFlight : List Order
  /-- The orders that were confirmed. -/
  confirmed : List Order
  /-- The trades that were recorded. -/
  trades : List CopyTrade

/-- One step of the book. -/
inductive BookEvent
  /-- `process_direct` runs for an origin trade. -/
  | trade (walletBuysDisabled : Bool) (d : CopyDetails)
  /-- The transaction of an order in flight is confirmed. -/
  | confirm (i : ℕ) (quote : QuoteAnswer) (env : SuccessEnv) (signature : Signature)
  /-- An order in flight is given up. -/
  | fail (i : ℕ) (env : FailureEnv)

namespace Book

/-- Nothing traded yet. -/
def init (pingTracker : Option PingTracker) (buyDisabled : Bool) : Book :=
  ⟨⟨.empty, pingTracker, buyDisabled⟩, [], [], []⟩

/-- Size one origin trade; the order, if there is one, is in flight from now on. A trade of a wallet
in ping mode is no trade of this book: the tracker that sizes it is shared among the wallets. -/
def trade (cfg : CopyConfig) (s : Book) (walletBuysDisabled : Bool) (d : CopyDetails) : Book :=
  if hmode : d.walletConfig.mode = .direct then
    match hp : processDirect cfg (s.shared.buyDisabled || walletBuysDisabled)
        s.shared.history d with
    | (history, d', .ok (some input)) =>
      { s with
        shared := { s.shared with history }
        inFlight := s.inFlight ++ [⟨d', input, processDirect_isDirectOrder hmode hp⟩] }
    | (history, _, _) => { s with shared := { s.shared with history } }
  else s

/-- Record a confirmed order. -/
def confirm (cfg : CopyConfig) (s : Book) (i : ℕ) (quote : QuoteAnswer) (env : SuccessEnv)
    (signature : Signature) : Book :=
  match s.inFlight[i]? with
  | none => s
  | some o =>
    match handleSuccessTxn cfg env s.shared (o.quoted quote) signature with
    | none => s
    | some (shared, trades) =>
      { shared
        inFlight := s.inFlight.eraseIdx i
        confirmed := s.confirmed ++ [o]
        trades := s.trades ++ trades }

/-- Give an order up. -/
def fail (s : Book) (i : ℕ) (env : FailureEnv) : Book :=
  match s.inFlight[i]? with
  | none => s
  | some o =>
    { s with
      shared := { s.shared with
        history := handleFailedExecution env s.shared.history o.details }
      inFlight := s.inFlight.eraseIdx i }

/-- The step function of the book. -/
def step (cfg : CopyConfig) (s : Book) : BookEvent → Book
  | .trade walletBuysDisabled d => s.trade cfg walletBuysDisabled d
  | .confirm i quote env signature => s.confirm cfg i quote env signature
  | .fail i env => s.fail i env

end Book

/-- The wallet buys 100 tokens, and so do we. -/
def sampleBought : List BookEvent :=
  [.trade false (sampleBuy 100), .confirm 0 sampleQuote (sampleSuccess 100) 1]

/-! ## What a sized trade puts in flight -/

/-- What sizing one origin trade does to the book. -/
inductive TradeCase (cfg : CopyConfig) (s : Book) (d : CopyDetails) : Book → Prop
  /-- The trade is refused or skipped, and nothing changes. -/
  | idle : TradeCase cfg s d s
  /-- A sell of nothing is skipped; a full exit still drops the entry. -/
  | skipSell (c : CopyHistory) (hc : s.shared.history d.sellKey = some c)
      (hleft : c.originTokensLeft ≠ 0)
      (hzero : c.sellInputAmount cfg.rounding d.originSwap.inputAmount = 0) :
      TradeCase cfg s d
        { s with shared := { s.shared with
            history := if c.isFullExit cfg.rounding d.originSwap.inputAmount then
              s.shared.history.remove d.sellKey else s.shared.history } }
  /-- A sell of what the entry says is put in flight; a full exit drops the entry. -/
  | sell (c : CopyHistory) (o : Order) (hc : s.shared.history d.sellKey = some c)
      (hleft : c.originTokensLeft ≠ 0)
      (hpos : c.sellInputAmount cfg.rounding d.originSwap.inputAmount ≠ 0)
      (hsells : o.details.sells = true)
      (hsigner : o.details.originSigner = d.originSigner)
      (hswap : o.details.originSwap = d.originSwap)
      (hamount : o.input.amount = c.sellInputAmount cfg.rounding d.originSwap.inputAmount) :
      TradeCase cfg s d
        { s with
          shared := { s.shared with
            history := if c.isFullExit cfg.rounding d.originSwap.inputAmount then
              s.shared.history.remove d.sellKey else s.shared.history }
          inFlight := s.inFlight ++ [o] }
  /-- A buy is put in flight. -/
  | buy (o : Order) (hc : s.shared.history d.sellKey = none)
      (hsells : o.details.sells = false)
      (hsigner : o.details.originSigner = d.originSigner)
      (hswap : o.details.originSwap = d.originSwap) :
      TradeCase cfg s d { s with inFlight := s.inFlight ++ [o] }

/-- Every origin trade is sized in one of these ways. -/
theorem Book.trade_cases (cfg : CopyConfig) (s : Book) (walletBuysDisabled : Bool)
    (d : CopyDetails) : TradeCase cfg s d (s.trade cfg walletBuysDisabled d) := by
  unfold Book.trade
  split
  · rename_i hmode
    have hcase := processDirect_cases cfg (s.shared.buyDisabled || walletBuysDisabled)
      s.shared.history d
    split
    · rename_i history d' input hp
      rw [hp] at hcase
      cases hcase with
      | sell c order copyType hdec hc hleft hpos horder =>
        obtain ⟨-, hamount, hsells, -⟩ := directSellOrder_spec horder
        exact .sell c _ hc hleft hpos hsells rfl rfl hamount
      | buy order hdec hc hbuy hout hin hmint =>
        exact .buy _ hc rfl rfl rfl
    · rename_i history _ hnone hp
      rw [hp] at hcase
      cases hcase with
      | unresolved hdec => exact .idle
      | exhausted c hdec hc hleft => exact .idle
      | skipSell c hdec hc hleft hzero => exact .skipSell c hc hleft hzero
      | sell c order copyType hdec hc hleft hpos horder => exact (hnone _ rfl).elim
      | skipBuy hdec hc hskip => exact .idle
      | buy order hdec hc hbuy hout hin hmint => exact (hnone _ rfl).elim
  · exact .idle

/-! ## What a settled order records -/

/-- What recording one side of a direct swap does to the history and to the trades. -/
inductive RecordCase (cfg : CopyConfig) (h : HistoricalTrades) (d : CopyDetails)
    (side : TradeSide) : HistoricalTrades → List CopyTrade → Prop
  /-- The side is refused: a sell only when its token is never tracked. -/
  | refused (hsell : side.direction = .sell → isStaticToken side.token = true) :
      RecordCase cfg h d side h []
  /-- The side is added to the entry of its token. -/
  | recorded (v : TradeVolume) (signature : Signature)
      (htoken : isStaticToken side.token = false)
      (hexec : v.execVolumeToken = side.execVolume)
      (horigin : v.originVolumeToken = side.originVolume)
      (hdust : HistoricalTrades.dustVolume cfg.rounding v.execVolumeToken side.direction
        (some cfg.moonbagBps) = .ok v.dustTokenAmount)
      (hsell : side.direction = .sell → v.dustTokenAmount = 0) :
      RecordCase cfg h d side
        (h.insert (d.originSigner, side.token)
          (((h (d.originSigner, side.token)).getD {}).addTrade side.token
            ⟨v.execVolumeToken, v.originVolumeToken, v.execVolumeUsd, v.originVolumeUsd,
              v.execVolumeSol, v.originVolumeSol, v.dustTokenAmount⟩ side.direction))
        [⟨side.token, d.originSigner, d.originSignature, signature, side.direction, v⟩]

/-- In the direct mode a side is recorded in the history or refused. -/
theorem Shared.record_cases (s : Shared) (cfg : CopyConfig) {d : CopyDetails}
    (hmode : d.walletConfig.mode = .direct) (signature : Signature) (side : TradeSide) :
    RecordCase cfg s.history d side (s.record cfg d signature side).1.history
      (s.record cfg d signature side).2 := by
  unfold Shared.record
  simp only [hmode]
  split
  · rename_i e he
    refine .refused fun hdir => ?_
    by_contra hstatic
    have hfalse : isStaticToken side.token = false := by simpa using hstatic
    obtain ⟨h', v, hok⟩ := s.history.exists_insertTrade_sell cfg.rounding d.originSigner
      side.token side.decimals side.execVolume side.originVolume side.execPriceUsd side.execPriceSol
      side.originPriceUsd side.originPriceSol (some cfg.moonbagBps) hfalse
    rw [hdir, hok] at he
    cases he
  · rename_i h' v hok
    obtain ⟨hstatic, hexec, horigin, hdust, rfl⟩ := HistoricalTrades.insertTrade_ok hok
    refine .recorded v signature hstatic hexec horigin ?_ fun hdir => ?_
    · rw [hexec]
      exact hdust
    · rw [hdir] at hdust
      exact (Except.ok.inj hdust).symm

@[simp] theorem Shared.switchBuys_history (s : Shared) (cfg : CopyConfig)
    (amountOut : Option (ℕ × ℕ)) : (s.switchBuys cfg amountOut).history = s.history := by
  cases amountOut <;> rfl

/-- One side of a settled order is left alone when the order does not trade it. -/
inductive SideCase (cfg : CopyConfig) (h : HistoricalTrades) (d : CopyDetails) (traded : Bool)
    (side : TradeSide) : HistoricalTrades → List CopyTrade → Prop
  | idle (hno : traded = false) : SideCase cfg h d traded side h []
  | traded (hyes : traded = true) {h' : HistoricalTrades} {trades : List CopyTrade}
      (hrec : RecordCase cfg h d side h' trades) : SideCase cfg h d traded side h' trades

theorem Shared.recordIf_cases (s : Shared) (cfg : CopyConfig) {d : CopyDetails}
    (hmode : d.walletConfig.mode = .direct) (signature : Signature) (traded : Bool)
    (side : TradeSide) :
    SideCase cfg s.history d traded side (s.recordIf cfg d signature traded side).1.history
      (s.recordIf cfg d signature traded side).2 := by
  cases traded with
  | false => exact .idle rfl
  | true => exact .traded rfl (s.record_cases cfg hmode signature side)

/-- What a recorded trade bought for a wallet and a token, the dust left out. -/
def CopyTrade.boughtAmount (key : Pubkey × Pubkey) (t : CopyTrade) : ℕ :=
  if t.direction = .buy ∧ (t.originWallet, t.token) = key then t.volume.netVolumeToken else 0

/-- What the sold side of a confirmed order does to one entry. -/
inductive SoldAt (o : Order) (key : Pubkey × Pubkey) (entry : Option CopyHistory) :
    Option CopyHistory → Prop
  /-- The order does not sell this token. -/
  | other (hno : o.details.sells = true → o.details.sellKey ≠ key) : SoldAt o key entry entry
  /-- The sell is refused, because its token is never tracked. -/
  | untracked (hsells : o.details.sells = true) (hkey : o.details.sellKey = key)
      (htoken : isStaticToken key.2 = true) : SoldAt o key entry entry
  /-- The sell is added to the entry. -/
  | sold (v : TradeEntry) (hsells : o.details.sells = true) (hkey : o.details.sellKey = key)
      (htoken : isStaticToken key.2 = false) (hexec : v.execVolumeToken = o.input.amount)
      (horigin : v.originVolumeToken = o.details.originSwap.inputAmount)
      (hdust : v.dustVolumeToken = 0) :
      SoldAt o key entry (some ((entry.getD {}).addTrade key.2 v .sell))

/-- What the bought side of a confirmed order does to one entry, and its net volume. -/
inductive BoughtAt (cfg : CopyConfig) (o : Order) (amountOut : ℕ) (key : Pubkey × Pubkey)
    (entry : Option CopyHistory) : Option CopyHistory → ℕ → Prop
  /-- The order does not buy this token, or the buy is refused. -/
  | other : BoughtAt cfg o amountOut key entry entry 0
  /-- The buy is added to the entry. -/
  | bought (v : TradeEntry) (hbuys : o.details.buys = true) (hkey : o.details.buyKey = key)
      (htoken : isStaticToken key.2 = false) (hexec : v.execVolumeToken = amountOut)
      (horigin : v.originVolumeToken = o.details.originSwap.outputAmount)
      (hdust : HistoricalTrades.dustVolume cfg.rounding v.execVolumeToken .buy
        (some cfg.moonbagBps) = .ok v.dustVolumeToken) :
      BoughtAt cfg o amountOut key entry (some ((entry.getD {}).addTrade key.2 v .buy))
        (v.execVolumeToken - v.dustVolumeToken)

/-- The sold side of a confirmed order, seen at one entry. -/
theorem SideCase.soldAt {cfg : CopyConfig} {o : Order} {quote : QuoteAnswer} {env : SuccessEnv}
    {decimals : ℕ} {h mid : HistoricalTrades} {trades : List CopyTrade}
    (hside : SideCase cfg h (o.quoted quote) o.details.sells
      (sellSide env (o.quoted quote) (quote.details o.input) decimals) mid trades)
    (key : Pubkey × Pubkey) :
    SoldAt o key (h key) (mid key) ∧ tally (CopyTrade.boughtAmount key) trades = 0 := by
  cases hside with
  | idle hno => exact ⟨.other fun hs => absurd (hno.symm.trans hs) nofun, rfl⟩
  | traded hyes hrec =>
    cases hrec with
    | refused hstatic =>
      refine ⟨?_, rfl⟩
      by_cases hk : o.details.sellKey = key
      · subst hk
        exact .untracked hyes rfl (hstatic rfl)
      · exact .other fun _ => hk
    | recorded v signature htoken hexec horigin hdust hsell =>
      have htally : tally (CopyTrade.boughtAmount key)
          [⟨o.details.originSwap.inputTokenMint, o.details.originSigner,
            o.details.originSignature, signature, .sell, v⟩] = 0 := by
        rw [tally_cons, tally_nil, CopyTrade.boughtAmount, if_neg fun hb => nomatch hb.1]
      refine ⟨?_, htally⟩
      change SoldAt o key (h key) (HistoricalTrades.insert h o.details.sellKey _ key)
      by_cases hk : o.details.sellKey = key
      · subst hk
        rw [HistoricalTrades.insert_self]
        exact .sold _ hyes rfl htoken hexec horigin (hsell rfl)
      · rw [HistoricalTrades.insert_of_ne _ fun he => hk he.symm]
        exact .other fun _ => hk

/-- The bought side of a confirmed order, seen at one entry. -/
theorem SideCase.boughtAt {cfg : CopyConfig} {o : Order} {quote : QuoteAnswer}
    {env : SuccessEnv} {decimals : ℕ} {h h' : HistoricalTrades} {trades : List CopyTrade}
    (hside : SideCase cfg h (o.quoted quote) o.details.buys
      (buySide env (o.quoted quote) (quote.details o.input) decimals) h' trades)
    (key : Pubkey × Pubkey) :
    BoughtAt cfg o ((quote.details o.input).actualAmountOut env.amountOut) key (h key) (h' key)
      (tally (CopyTrade.boughtAmount key) trades) := by
  cases hside with
  | idle hno => exact .other
  | traded hyes hrec =>
    cases hrec with
    | refused hstatic => exact .other
    | recorded v signature htoken hexec horigin hdust hsell =>
      change BoughtAt cfg o _ key (h key) (HistoricalTrades.insert h o.details.buyKey _ key) _
      rw [tally_cons, tally_nil, CopyTrade.boughtAmount]
      by_cases hk : o.details.buyKey = key
      · subst hk
        rw [HistoricalTrades.insert_self, if_pos ⟨rfl, rfl⟩]
        exact .bought _ hyes rfl htoken hexec horigin hdust
      · rw [HistoricalTrades.insert_of_ne _ fun he => hk he.symm, if_neg fun hb => hk hb.2]
        exact .other

/-- The decimals of both sides of a direct order are always known: nothing panics. -/
theorem Order.decimals_known (o : Order) (quote : QuoteAnswer) (origin : TokenDecimals) :
    (∃ n, (quote.details o.input).inputDecimals o.details.originSwap.inputTokenMint origin =
      some n) ∧
    (∃ n, (quote.details o.input).outputDecimals o.details.originSwap.outputTokenMint origin =
      some n) := by
  have hs := o.sized
  refine ⟨QuoteDetails.exists_inputDecimals origin ?_,
    QuoteDetails.exists_outputDecimals origin ?_⟩
  · cases hsells : o.details.sells with
    | true => exact .inl (hs.sellMint hsells)
    | false => exact .inr (hs.fundMint hsells)
  · cases hbuys : o.details.buys with
    | true => exact .inl (hs.buyMint hbuys)
    | false => exact .inr (hs.proceedsMint hbuys)

/-- Recording a confirmed order never panics: the decimals of its sides are known, and the sides
that it trades are recorded, the sell before the buy. -/
theorem handleSuccessTxn_recordIf (cfg : CopyConfig) (env : SuccessEnv) (s : Shared) (o : Order)
    (quote : QuoteAnswer) (signature : Signature) :
    ∃ origin inDecimals outDecimals sell buy,
      o.details.originSwap.tokenDecimals = some origin ∧
      (quote.details o.input).inputDecimals o.details.originSwap.inputTokenMint origin =
        some inDecimals ∧
      (quote.details o.input).outputDecimals o.details.originSwap.outputTokenMint origin =
        some outDecimals ∧
      (s.switchBuys cfg env.amountOut).recordIf cfg (o.quoted quote) signature o.details.sells
        (sellSide env (o.quoted quote) (quote.details o.input) inDecimals) = sell ∧
      sell.1.recordIf cfg (o.quoted quote) signature o.details.buys
        (buySide env (o.quoted quote) (quote.details o.input) outDecimals) = buy ∧
      handleSuccessTxn cfg env s (o.quoted quote) signature =
        some (buy.1, sell.2 ++ buy.2) := by
  obtain ⟨origin, horigin⟩ := Option.isSome_iff_exists.mp o.sized.resolved
  obtain ⟨copyType, htype⟩ := Option.isSome_iff_exists.mp o.sized.typed
  obtain ⟨⟨inDecimals, hin⟩, ⟨outDecimals, hout⟩⟩ := o.decimals_known quote origin
  have hsells : o.details.sells = copyType.sells := by simp [CopyDetails.sells, htype]
  have hbuys : o.details.buys = copyType.buys := by simp [CopyDetails.buys, htype]
  refine ⟨origin, inDecimals, outDecimals, _, _, horigin, hin, hout, rfl, rfl, ?_⟩
  rw [hsells, hbuys]
  simp only [handleSuccessTxn, Order.quoted, horigin, htype, hin, hout]

/-- Recording a confirmed order, seen at one entry: its sell, and then its buy. -/
theorem handleSuccessTxn_order (cfg : CopyConfig) (env : SuccessEnv) (s : Shared) (o : Order)
    (quote : QuoteAnswer) (signature : Signature) :
    ∃ s' trades, handleSuccessTxn cfg env s (o.quoted quote) signature = some (s', trades) ∧
      ∀ key, ∃ mid, SoldAt o key (s.history key) mid ∧
        BoughtAt cfg o ((quote.details o.input).actualAmountOut env.amountOut) key mid
          (s'.history key) (tally (CopyTrade.boughtAmount key) trades) := by
  obtain ⟨origin, inDecimals, outDecimals, sell, buy, -, -, -, hsell, hbuy, hrecord⟩ :=
    handleSuccessTxn_recordIf cfg env s o quote signature
  have hmode : (o.quoted quote).walletConfig.mode = .direct := o.sized.direct
  have hsold : SideCase cfg s.history (o.quoted quote) o.details.sells
      (sellSide env (o.quoted quote) (quote.details o.input) inDecimals)
      sell.1.history sell.2 := by
    rw [← hsell, ← s.switchBuys_history cfg env.amountOut]
    exact Shared.recordIf_cases _ cfg hmode signature _ _
  have hbought : SideCase cfg sell.1.history (o.quoted quote) o.details.buys
      (buySide env (o.quoted quote) (quote.details o.input) outDecimals)
      buy.1.history buy.2 := by
    rw [← hbuy]
    exact sell.1.recordIf_cases cfg hmode signature _ _
  refine ⟨buy.1, sell.2 ++ buy.2, hrecord, fun key => ⟨sell.1.history key, ?_, ?_⟩⟩
  · exact (hsold.soldAt key).1
  · rw [tally_append, (hsold.soldAt key).2, Nat.zero_add]
    exact hbought.boughtAt key

/-! ## A step, seen at one entry -/

/-- What giving an order up does to one entry. -/
inductive FailedAt (o : Order) (key : Pubkey × Pubkey) (entry : Option CopyHistory) :
    Option CopyHistory → Prop
  /-- The entry does not change. -/
  | other : FailedAt o key entry entry
  /-- The origin wallet's sell is added to the entry. -/
  | recorded (c : CopyHistory) (usd sol : F64) (hc : entry = some c)
      (hkey : o.details.sellKey = key) :
      FailedAt o key entry
        (some { c with origin := c.origin.addSell o.details.originSwap.inputAmount usd sol })

/-- Giving an order up, seen at one entry. -/
theorem handleFailedExecution_at (env : FailureEnv) (h : HistoricalTrades) (o : Order)
    (key : Pubkey × Pubkey) :
    FailedAt o key (h key) (handleFailedExecution env h o.details key) := by
  have hcase := handleFailedExecution_cases env h o.details
  generalize handleFailedExecution env h o.details = h' at hcase
  cases hcase with
  | unrecorded hno => exact .other
  | recorded c usd sol hc hdec =>
    by_cases hk : o.details.sellKey = key
    · subst hk
      rw [HistoricalTrades.insert_self]
      exact .recorded c usd sol hc rfl
    · rw [HistoricalTrades.insert_of_ne _ fun he => hk he.symm]
      exact .other

/-- A sell does not change what was bought. -/
theorem SoldAt.buyVolumes {o : Order} {key : Pubkey × Pubkey} {entry mid : Option CopyHistory}
    (h : SoldAt o key entry mid) :
    (mid.getD {}).origin.buyVolumeToken = (entry.getD {}).origin.buyVolumeToken ∧
      (mid.getD {}).exec.buyVolumeToken = (entry.getD {}).exec.buyVolumeToken := by
  cases h with
  | other hno => exact ⟨rfl, rfl⟩
  | untracked hsells hkey htoken => exact ⟨rfl, rfl⟩
  | sold v hsells hkey htoken hexec horigin hdust => exact ⟨rfl, rfl⟩

/-- What a confirmation does to the book: nothing, or one order is settled. -/
inductive ConfirmCase (cfg : CopyConfig) (s : Book) (i : ℕ) (quote : QuoteAnswer)
    (env : SuccessEnv) : Book → Prop
  /-- There is no such order. -/
  | missing (hi : s.inFlight[i]? = none) : ConfirmCase cfg s i quote env s
  /-- The order is settled. -/
  | settled (o : Order) (shared : Shared) (trades : List CopyTrade)
      (hi : s.inFlight[i]? = some o)
      (hat : ∀ key, ∃ mid, SoldAt o key (s.shared.history key) mid ∧
        BoughtAt cfg o ((quote.details o.input).actualAmountOut env.amountOut) key mid
          (shared.history key) (tally (CopyTrade.boughtAmount key) trades)) :
      ConfirmCase cfg s i quote env
        ⟨shared, s.inFlight.eraseIdx i, s.confirmed ++ [o], s.trades ++ trades⟩

theorem Book.confirm_cases (cfg : CopyConfig) (s : Book) (i : ℕ) (quote : QuoteAnswer)
    (env : SuccessEnv) (signature : Signature) :
    ConfirmCase cfg s i quote env (s.confirm cfg i quote env signature) := by
  unfold Book.confirm
  cases hi : s.inFlight[i]? with
  | none => exact .missing hi
  | some o =>
    obtain ⟨shared, trades, hok, hat⟩ :=
      handleSuccessTxn_order cfg env s.shared o quote signature
    simp only [hok]
    exact .settled o shared trades hi hat

namespace Book

/-- Static tokens have no entries. -/
def Untracked (s : Book) : Prop :=
  ∀ key, isStaticToken key.2 = true → s.shared.history key = none

/-- Removing an entry leaves absent entries absent. -/
theorem remove_eq_none {h : HistoricalTrades} {key dropped : Pubkey × Pubkey} (full : Bool)
    (hnone : h key = none) : (if full then h.remove dropped else h) key = none := by
  cases full with
  | false => exact hnone
  | true =>
    by_cases hk : key = dropped
    · subst hk
      exact HistoricalTrades.remove_self h key
    · exact (HistoricalTrades.remove_of_ne hk).trans hnone

/-- An absent entry is created only when an order that trades its token is confirmed. -/
theorem created_by_confirm {cfg : CopyConfig} {s : Book} {e : BookEvent}
    {key : Pubkey × Pubkey} {c : CopyHistory} (hnone : s.shared.history key = none)
    (hsome : (s.step cfg e).shared.history key = some c) :
    isStaticToken key.2 = false ∧ ∃ i quote env signature o,
      e = .confirm i quote env signature ∧ s.inFlight[i]? = some o ∧
      (o.details.sells = true ∧ o.details.sellKey = key ∨
        o.details.buys = true ∧ o.details.buyKey = key) := by
  cases e with
  | trade walletBuysDisabled d =>
    have hcase := s.trade_cases cfg walletBuysDisabled d
    simp only [step] at hsome
    generalize s.trade cfg walletBuysDisabled d = s' at hcase hsome
    cases hcase with
    | idle => exact absurd (hnone.symm.trans hsome) nofun
    | skipSell c' hc hleft hzero =>
      exact absurd ((remove_eq_none _ hnone).symm.trans hsome) nofun
    | sell c' o hc hleft hpos hsells hsigner hswap hamount =>
      exact absurd ((remove_eq_none _ hnone).symm.trans hsome) nofun
    | buy o hc hsells hsigner hswap => exact absurd (hnone.symm.trans hsome) nofun
  | confirm i quote env signature =>
    have hcase := s.confirm_cases cfg i quote env signature
    simp only [step] at hsome
    generalize s.confirm cfg i quote env signature = s' at hcase hsome
    cases hcase with
    | missing hi => exact absurd (hnone.symm.trans hsome) nofun
    | settled o shared trades hi hat =>
      obtain ⟨mid, hsold, hbought⟩ := hat key
      change shared.history key = some c at hsome
      rw [hsome] at hbought
      rw [hnone] at hsold
      cases hsold with
      | sold v hsells hkey htoken hexec horigin hdust =>
        exact ⟨htoken, i, quote, env, signature, o, rfl, hi, .inl ⟨hsells, hkey⟩⟩
      | other hno =>
        generalize tally (CopyTrade.boughtAmount key) trades = net at hbought
        cases hbought with
        | bought v hbuys hkey htoken hexec horigin hdust =>
          exact ⟨htoken, i, quote, env, signature, o, rfl, hi, .inr ⟨hbuys, hkey⟩⟩
      | untracked hsells hkey htoken =>
        generalize tally (CopyTrade.boughtAmount key) trades = net at hbought
        cases hbought with
        | bought v hbuys hkey' htoken' hexec horigin hdust =>
          exact absurd (htoken.symm.trans htoken') nofun
  | fail i env =>
    simp only [step, fail] at hsome
    split at hsome
    · exact absurd (hnone.symm.trans hsome) nofun
    · rename_i o hi
      have hat := handleFailedExecution_at env s.shared.history o key
      change handleFailedExecution env s.shared.history o.details key = some c at hsome
      rw [hsome, hnone] at hat
      cases hat with
      | recorded c' usd sol hc hkey => exact absurd hc nofun

/-- Static tokens never get entries. -/
theorem untracked_step (cfg : CopyConfig) (s : Book) (e : BookEvent) (h : s.Untracked) :
    (s.step cfg e).Untracked := by
  intro key htoken
  cases hc : (s.step cfg e).shared.history key with
  | none => rfl
  | some c =>
    have hcreated := created_by_confirm (h key htoken) hc
    exact absurd (htoken.symm.trans hcreated.1) nofun

end Book

end Biscuit.Copy
