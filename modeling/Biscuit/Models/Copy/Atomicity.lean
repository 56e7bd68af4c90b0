import Biscuit.Models.Copy.Derivation
import Biscuit.Models.Copy.Simulator

/-!
# Failing calls of the simulator

`process_swap` changes its books in several places and can fail after each of them: sizing
may remove an entry of the history or enter a wallet into the ping tracker, the fee and the
rent are debited before the balances are checked, and the balances change before the trades
are recorded. A failing call leaves the books as they were exactly when it fails before the
first of these changes.
-/

namespace Biscuit.Copy

/-! ## What a sized order looks like -/

/-- An order that is given asks for something, and one for both sides trades two tokens. -/
structure SizedOrder (copyType : Option CopyType) (order : SwapInput) : Prop where
  amount : order.amount ≠ 0
  mints : copyType = some .both → order.inputTokenMint ≠ order.outputTokenMint

theorem processDirect_mints {cfg : CopyConfig} {buyDisabled : Bool} {h h' : HistoricalTrades}
    {d d' : CopyDetails} {order : SwapInput}
    (hne : d.originSwap.inputTokenMint ≠ d.originSwap.outputTokenMint)
    (hok : processDirect cfg buyDisabled h d = (h', d', .ok (some order)))
    (hboth : d'.copyType = some .both) : order.inputTokenMint ≠ order.outputTokenMint := by
  have hcase := processDirect_cases cfg buyDisabled h d
  rw [hok] at hcase
  cases hcase with
  | buy => exact absurd (Option.some.inj hboth) nofun
  | sell c order copyType hdec hc hleft hpos horder =>
    obtain rfl : copyType = .both := Option.some.inj hboth
    obtain ⟨hin, -, -, hbuys, -⟩ := directSellOrder_spec horder
    rw [hin, (hbuys rfl).1]
    exact hne

theorem processPing_mints {cfg : CopyConfig} {env : ExecEnv} {s s' : Shared}
    {d d' : CopyDetails} {order : SwapInput}
    (hne : d.originSwap.inputTokenMint ≠ d.originSwap.outputTokenMint)
    (hok : processPing cfg env s d = (s', d', .ok (some order)))
    (hboth : d'.copyType = some .both) : order.inputTokenMint ≠ order.outputTokenMint := by
  obtain ⟨hout, ⟨-, hin⟩ | ⟨hbuy, -⟩⟩ := processPing_order hok
  · rw [hin, hout]
    exact hne
  · cases hbuy.symm.trans hboth

theorem getExecutionInput_sized {cfg : CopyConfig} {env : ExecEnv} {s s' : Shared}
    {d d' : CopyDetails} {order : SwapInput}
    (h : getExecutionInput cfg env s d = (s', d', .ok (some order))) :
    SizedOrder d'.copyType order := by
  obtain ⟨mints, -, hne, hzero, hmode⟩ := getExecutionInput_eq_order h
  have hne' : (d.resolved mints).originSwap.inputTokenMint ≠
      (d.resolved mints).originSwap.outputTokenMint := hne
  refine ⟨hzero, fun hboth => ?_⟩
  unfold processMode at hmode
  split at hmode
  · generalize hdirect : processDirect cfg (buysDisabled env s) s.history
      (d.resolved mints) = result at hmode
    obtain ⟨history, d₂, given⟩ := result
    simp only [Prod.mk.injEq] at hmode
    obtain ⟨-, rfl, rfl⟩ := hmode
    exact processDirect_mints hne' hdirect hboth
  · exact processPing_mints hne' hmode hboth

namespace Simulator

/-! ## What booking needs -/

/-- The rent that an order for a new token costs. -/
def rentDue (s : Simulator) (order : SwapInput) : ℕ :=
  if (s.tokenBalances order.outputTokenMint).isSome then 0 else tokenAccountCreationLamports

/-- The balances cover what is paid, after fee and rent. -/
def Funded (cfg : CopyConfig) (s : Simulator) (copyType : CopyType) (order : SwapInput) : Prop :=
  match copyType with
  | .buy => cfg.maxFeeCost + s.rentDue order + order.amount ≤ s.lamportsBal
  | .sell | .both =>
    ∃ balance, s.tokenBalances order.inputTokenMint = some balance ∧ order.amount ≤ balance

/-- The bought side can be recorded. -/
def BuyRecordable (cfg : CopyConfig) (s : Simulator) (mode : CopyMode) (order : SwapInput) :
    Prop :=
  match mode with
  | .direct => isStaticToken order.outputTokenMint = false
  | .ping => s.shared.pingTracker.isSome = true ∧ cfg.moonbagBps < 5000

/-- The sold side can be recorded: not without a ping tracker, in either mode. -/
def SellRecordable (s : Simulator) (mode : CopyMode) (order : SwapInput) : Prop :=
  s.shared.pingTracker.isSome = true ∧
    (mode = .direct → isStaticToken order.inputTokenMint = false)

/-- The sides that are traded can be recorded. -/
structure Recordable (cfg : CopyConfig) (s : Simulator) (mode : CopyMode) (copyType : CopyType)
    (order : SwapInput) : Prop where
  buys : copyType.buys = true → s.BuyRecordable cfg mode order
  sells : copyType.sells = true → s.SellRecordable mode order

/-- Recording leaves the balances and the presence of the ping tracker alone. -/
structure SameFunds (s s' : Simulator) : Prop where
  lamports : s'.lamportsBal = s.lamportsBal
  tokens : s'.tokenBalances = s.tokenBalances
  tracker : s'.shared.pingTracker.isSome = s.shared.pingTracker.isSome

theorem SameFunds.trans {s s' s'' : Simulator} (h : SameFunds s s') (h' : SameFunds s' s'') :
    SameFunds s s'' :=
  ⟨h'.lamports.trans h.lamports, h'.tokens.trans h.tokens, h'.tracker.trans h.tracker⟩

/-- A record is taken exactly under a condition, and keeps the funds. -/
def RecordsWhen (s : Simulator) (C : Prop) (result : Except SimulationError Simulator) : Prop :=
  (C ∧ ∃ s', result = .ok s' ∧ SameFunds s s') ∨ (¬ C ∧ ∃ e, result = .error e)

theorem recordDirect_when (s : Simulator) (originSigner token : Pubkey) (v : TradeEntry)
    (direction : TradeDirection) :
    s.RecordsWhen (isStaticToken token = false)
      (s.recordDirect originSigner token v direction) := by
  unfold recordDirect HistoricalTrades.insertTradeInner
  cases hs : isStaticToken token with
  | true => exact .inr ⟨nofun, _, rfl⟩
  | false => exact .inl ⟨rfl, _, rfl, rfl, rfl, rfl⟩

/-- The ping tracker only refuses a buy with half or more of it as dust. -/
theorem insertExecution_refuses_iff (tracker : PingTracker) (r : Rounding) (token : Pubkey)
    (decimals amount bps : ℕ) (priceUsd priceSol : F64) (direction : TradeDirection) :
    (∃ e, tracker.insertExecution r token decimals amount priceUsd priceSol direction
      (some bps) = .error e) ↔ ¬ (direction = .buy → bps < 5000) := by
  unfold PingTracker.insertExecution PingTracker.dustAmount
  cases direction with
  | sell => simp
  | buy =>
    by_cases hbps : 5000 ≤ bps
    · simp [hbps]
    · have hlt : bps < 5000 := by omega
      simp [hbps, hlt]

theorem recordPing_when (cfg : CopyConfig) (s : Simulator) (token : Pubkey)
    (decimals amount : ℕ) (priceUsd priceSol : F64) (direction : TradeDirection) :
    s.RecordsWhen
      (s.shared.pingTracker.isSome = true ∧ (direction = .buy → cfg.moonbagBps < 5000))
      (s.recordPing cfg token decimals amount priceUsd priceSol direction) := by
  unfold recordPing
  cases hs : s.shared.pingTracker with
  | none => exact .inr ⟨by simp, _, rfl⟩
  | some tracker =>
    have hrefuses := insertExecution_refuses_iff tracker cfg.rounding token decimals amount
      cfg.moonbagBps priceUsd priceSol direction
    simp only
    generalize tracker.insertExecution cfg.rounding token decimals amount priceUsd priceSol
      direction (some cfg.moonbagBps) = result at hrefuses
    cases result with
    | error e => exact .inr ⟨fun h => hrefuses.mp ⟨e, rfl⟩ h.2, _, rfl⟩
    | ok r =>
      have hok : direction = .buy → cfg.moonbagBps < 5000 := by simpa using hrefuses
      exact .inl ⟨⟨rfl, hok⟩, _, rfl, rfl, rfl, by simp [hs]⟩

theorem recordBuy_when (cfg : CopyConfig) (s : Simulator) (t : SimulatedSwap)
    (decimals : TokenDecimals) (mode : CopyMode) (x : SimulatedExecution) :
    s.RecordsWhen (s.BuyRecordable cfg mode x.order) (s.recordBuy cfg t decimals mode x) := by
  cases mode with
  | direct => exact recordDirect_when ..
  | ping =>
    have h := recordPing_when cfg s x.order.outputTokenMint x.outputDecimals x.outAmount
      x.outputPriceUsd (x.inSol x.outputPriceUsd) .buy
    simpa only [BuyRecordable, recordBuy, true_imp_iff] using h

theorem recordSell_when (cfg : CopyConfig) (s : Simulator) (t : SimulatedSwap)
    (decimals : TokenDecimals) (mode : CopyMode) (x : SimulatedExecution) :
    s.RecordsWhen (s.SellRecordable mode x.order) (s.recordSell cfg t decimals mode x) := by
  unfold recordSell SellRecordable
  cases hs : s.shared.pingTracker with
  | none => exact .inr ⟨by simp, _, rfl⟩
  | some tracker =>
    cases mode with
    | direct =>
      have h := recordDirect_when s t.originSigner x.order.inputTokenMint
        (x.sellEntry t.swap decimals) .sell
      simpa using h
    | ping =>
      have h := recordPing_when cfg s x.order.inputTokenMint x.inputDecimals x.order.amount
        x.inputPriceUsd (x.inSol x.inputPriceUsd) .sell
      simpa [hs] using h

/-- A part that may be left out is taken or refused by its condition, if it is due. -/
theorem recordIf_spec {s : Simulator} (traded : Bool) {C : Prop}
    (record : Simulator → Except SimulationError Simulator) (h : s.RecordsWhen C (record s)) :
    SameFunds s (recordIf traded record s).1 ∧
      ((recordIf traded record s).2 = .ok () ↔ (traded = true → C)) := by
  have hrefl : SameFunds s s := ⟨rfl, rfl, rfl⟩
  cases traded with
  | false => exact ⟨hrefl, by simp [recordIf]⟩
  | true =>
    rcases h with ⟨hC, s', hok, hsame⟩ | ⟨hC, e, herr⟩
    · simp [recordIf, hok, hsame, hC]
    · simp [recordIf, herr, hrefl, hC]

/-- Recording keeps the funds, and succeeds exactly when both sides can be recorded. -/
theorem recordTrades_spec (cfg : CopyConfig) (s : Simulator) (t : SimulatedSwap)
    (decimals : TokenDecimals) (mode : CopyMode) (x : SimulatedExecution) :
    SameFunds s (s.recordTrades cfg t decimals mode x).1 ∧
      ((s.recordTrades cfg t decimals mode x).2 = .ok () ↔
        s.Recordable cfg mode x.copyType x.order) := by
  have hbuy := recordIf_spec x.copyType.buys (fun s => s.recordBuy cfg t decimals mode x)
    (recordBuy_when cfg s t decimals mode x)
  unfold recordTrades
  generalize recordIf x.copyType.buys (fun s => s.recordBuy cfg t decimals mode x) s = result
    at hbuy
  obtain ⟨s', bought⟩ := result
  obtain ⟨hsame, hiff⟩ := hbuy
  cases bought with
  | error e =>
    refine ⟨hsame, ?_⟩
    simp only [reduceCtorEq, false_iff] at hiff ⊢
    exact fun h => hiff h.buys
  | ok u =>
    have hsell := recordIf_spec x.copyType.sells (fun s => s.recordSell cfg t decimals mode x)
      (recordSell_when cfg s' t decimals mode x)
    refine ⟨hsame.trans hsell.1, hsell.2.trans ?_⟩
    have hkeep : s'.SellRecordable mode x.order ↔ s.SellRecordable mode x.order := by
      unfold SellRecordable
      rw [hsame.tracker]
    rw [hkeep]
    exact ⟨fun h => ⟨hiff.mp rfl, h⟩, fun h => h.sells⟩

/-! ## Booking an order -/

/-- What the wallet holds of lamports and of tokens. -/
def funds (s : Simulator) : ℕ × (Pubkey → Option ℕ) := (s.lamportsBal, s.tokenBalances)

/-- Everything that booking an order can do. -/
inductive BookCase (cfg : CopyConfig) (s : Simulator) (mode : CopyMode)
    (x : SimulatedExecution) : Simulator × Except SimulationError Unit → Prop
  /-- The fee is not covered. -/
  | fee (hfee : s.lamportsBal < cfg.maxFeeCost) :
      BookCase cfg s mode x (s, .error .insufficientLamportBalance)
  /-- The fee is paid, the rent is not covered. -/
  | rent (hfee : cfg.maxFeeCost ≤ s.lamportsBal)
      (hrent : s.lamportsBal < cfg.maxFeeCost + s.rentDue x.order) :
      BookCase cfg s mode x ({ s with lamportsBal := s.lamportsBal - cfg.maxFeeCost },
        .error .insufficientLamportBalance)
  /-- Fee and rent are paid, the trade is not covered. -/
  | funds (e : SimulationError) (hrent : cfg.maxFeeCost + s.rentDue x.order ≤ s.lamportsBal)
      (hfunds : ¬ s.Funded cfg x.copyType x.order) :
      BookCase cfg s mode x ({ s with
        lamportsBal := s.lamportsBal - cfg.maxFeeCost - s.rentDue x.order }, .error e)
  /-- The balances are changed, a trade is not recorded. -/
  | record (s' : Simulator) (e : SimulationError)
      (hrent : cfg.maxFeeCost + s.rentDue x.order ≤ s.lamportsBal)
      (hfunds : s.Funded cfg x.copyType x.order)
      (hrecord : ¬ s.Recordable cfg mode x.copyType x.order) (hmoved : s'.funds ≠ s.funds) :
      BookCase cfg s mode x (s', .error e)
  /-- The order is booked. -/
  | booked (s' : Simulator) (hrent : cfg.maxFeeCost + s.rentDue x.order ≤ s.lamportsBal)
      (hfunds : s.Funded cfg x.copyType x.order)
      (hrecord : s.Recordable cfg mode x.copyType x.order) :
      BookCase cfg s mode x (s', .ok ())

/-- The simulator after fee and rent. -/
def charged (cfg : CopyConfig) (s : Simulator) (order : SwapInput) : Simulator :=
  { s with lamportsBal := s.lamportsBal - cfg.maxFeeCost - s.rentDue order }

theorem chargeFees_of_covered {cfg : CopyConfig} {s : Simulator} {order : SwapInput}
    (h : cfg.maxFeeCost + s.rentDue order ≤ s.lamportsBal) :
    s.chargeFees cfg order = (s.charged cfg order, .ok ()) := by
  have hfee : ¬ s.lamportsBal < cfg.maxFeeCost := by omega
  unfold chargeFees charged rentDue at *
  rw [if_neg hfee]
  by_cases hnew : (s.tokenBalances order.outputTokenMint).isSome = true
  · simp [hnew]
  · have hrent : ¬ s.lamportsBal - cfg.maxFeeCost < tokenAccountCreationLamports := by
      simp only [hnew, Bool.false_eq_true, if_false] at h
      omega
    simp [hnew, hrent]

theorem chargeFees_of_rent {cfg : CopyConfig} {s : Simulator} {order : SwapInput}
    (hfee : cfg.maxFeeCost ≤ s.lamportsBal)
    (h : s.lamportsBal < cfg.maxFeeCost + s.rentDue order) :
    s.chargeFees cfg order =
      ({ s with lamportsBal := s.lamportsBal - cfg.maxFeeCost },
        .error .insufficientLamportBalance) := by
  have hlt : ¬ s.lamportsBal < cfg.maxFeeCost := by omega
  unfold chargeFees rentDue at *
  rw [if_neg hlt]
  by_cases hnew : (s.tokenBalances order.outputTokenMint).isSome = true
  · simp only [hnew, if_true] at h
    omega
  · simp only [hnew, Bool.false_eq_true, if_false] at h
    have hrent : s.lamportsBal - cfg.maxFeeCost < tokenAccountCreationLamports := by omega
    simp [hnew, hrent]

/-- A debit goes through exactly when the balance covers it, and it changes the balance. -/
theorem debit_cases (s : Simulator) (token : Pubkey) {amount : ℕ} (hpos : amount ≠ 0) :
    ((∃ balance, s.tokenBalances token = some balance ∧ amount ≤ balance) ∧
      ∃ s', s.debit token amount = .ok s' ∧ s'.shared = s.shared ∧
        s'.tokenBalances token ≠ s.tokenBalances token) ∨
    (¬ (∃ balance, s.tokenBalances token = some balance ∧ amount ≤ balance) ∧
      ∃ e, s.debit token amount = .error e) := by
  unfold debit
  cases hb : s.tokenBalances token with
  | none => exact .inr ⟨by simp, _, rfl⟩
  | some balance =>
    simp only
    split_ifs with hlt
    · refine .inr ⟨?_, _, rfl⟩
      rintro ⟨balance', he, hle⟩
      obtain rfl := Option.some.inj he
      omega
    · refine .inl ⟨⟨balance, rfl, by omega⟩, _, rfl, rfl, ?_⟩
      simp only [Function.update_self, ne_eq, Option.some.injEq]
      omega

/-- The balances change exactly when they cover the trade, and then they are not what they
were before the fee. -/
theorem swapBalances_cases {cfg : CopyConfig} {s : Simulator} {x : SimulatedExecution}
    (hsized : SizedOrder (some x.copyType) x.order)
    (hrent : cfg.maxFeeCost + s.rentDue x.order ≤ s.lamportsBal) :
    (s.Funded cfg x.copyType x.order ∧ ∃ s', (s.charged cfg x.order).swapBalances x = .ok s' ∧
      s'.shared = s.shared ∧ s'.funds ≠ s.funds) ∨
    (¬ s.Funded cfg x.copyType x.order ∧
      ∃ e, (s.charged cfg x.order).swapBalances x = .error e) := by
  have hpos := hsized.amount
  have hdebit := debit_cases (s.charged cfg x.order) x.order.inputTokenMint hpos
  unfold swapBalances Funded
  cases hct : x.copyType with
  | buy =>
    have hl : (s.charged cfg x.order).lamportsBal =
        s.lamportsBal - cfg.maxFeeCost - s.rentDue x.order := rfl
    simp only [hl]
    split_ifs with hlt
    · exact .inr ⟨by omega, _, rfl⟩
    · refine .inl ⟨by omega, _, rfl, rfl, ?_⟩
      intro he
      have hlamports := congrArg Prod.fst he
      simp only [funds, credit] at hlamports
      omega
  | sell =>
    rcases hdebit with ⟨hfunded, s', hok, hshared, hmoved⟩ | ⟨hfunded, e, herr⟩
    · refine .inl ⟨hfunded, { s' with lamportsBal := wrapU64 (s'.lamportsBal + x.outAmount) },
        by rw [hok]; rfl, hshared, ?_⟩
      intro he
      exact hmoved (congrFun (congrArg Prod.snd he) _)
    · exact .inr ⟨hfunded, e, by rw [herr]; rfl⟩
  | both =>
    have hne := hsized.mints (by rw [hct])
    rcases hdebit with ⟨hfunded, s', hok, hshared, hmoved⟩ | ⟨hfunded, e, herr⟩
    · refine .inl ⟨hfunded, s'.credit x.order.outputTokenMint x.outAmount,
        by rw [hok]; rfl, hshared, ?_⟩
      intro he
      apply hmoved
      have htoken := congrFun (congrArg Prod.snd he) x.order.inputTokenMint
      simp only [funds, credit, Function.update_of_ne hne] at htoken
      exact htoken
    · exact .inr ⟨hfunded, e, by rw [herr]; rfl⟩

theorem bookExecution_cases (cfg : CopyConfig) (s : Simulator) (t : SimulatedSwap)
    (decimals : TokenDecimals) (mode : CopyMode) {x : SimulatedExecution}
    (hsized : SizedOrder (some x.copyType) x.order) :
    BookCase cfg s mode x (s.bookExecution cfg t decimals mode x) := by
  unfold bookExecution
  by_cases hfee : s.lamportsBal < cfg.maxFeeCost
  · have hcharge : s.chargeFees cfg x.order = (s, .error .insufficientLamportBalance) := by
      simp [chargeFees, hfee]
    rw [hcharge]
    exact .fee hfee
  · by_cases hrent : s.lamportsBal < cfg.maxFeeCost + s.rentDue x.order
    · rw [chargeFees_of_rent (by omega) hrent]
      exact .rent (by omega) hrent
    · have hcovered : cfg.maxFeeCost + s.rentDue x.order ≤ s.lamportsBal := by omega
      rw [chargeFees_of_covered hcovered]
      simp only
      obtain ⟨hfunded, s', hok, hshared, hmoved⟩ | ⟨hfunded, e, herr⟩ :=
        swapBalances_cases hsized hcovered
      · rw [hok]
        have hspec := recordTrades_spec cfg s' t decimals mode x
        have hrecord : s'.Recordable cfg mode x.copyType x.order ↔
            s.Recordable cfg mode x.copyType x.order := by
          constructor <;> rintro ⟨hb, hs⟩ <;>
            exact ⟨by simpa only [BuyRecordable, hshared] using hb,
              by simpa only [SellRecordable, hshared] using hs⟩
        simp only
        generalize s'.recordTrades cfg t decimals mode x = result at hspec
        obtain ⟨s'', recorded⟩ := result
        obtain ⟨hsame, hiff⟩ := hspec
        have hmoved' : s''.funds ≠ s.funds := by
          have hf : s''.funds = s'.funds := Prod.ext hsame.lamports hsame.tokens
          rw [hf]
          exact hmoved
        cases recorded with
        | error e =>
          refine .record s'' e hcovered hfunded ?_ hmoved'
          rw [← hrecord, ← hiff]
          exact nofun
        | ok u => exact .booked s'' hcovered hfunded (hrecord.mp (hiff.mp rfl))
      · rw [herr]
        exact .funds e hcovered hfunded

/-! ## Failing without a trace -/

/-- The books a failing call has to leave alone. -/
structure SameBooks (s s' : Simulator) : Prop where
  lamports : s'.lamportsBal = s.lamportsBal
  tokens : s'.tokenBalances = s.tokenBalances
  history : s'.shared.history = s.shared.history
  pings : s'.shared.pingTracker = s.shared.pingTracker

/-- A call that fails leaves the books as they were. -/
def Atomic (cfg : CopyConfig) (env : SimulationEnv) (s : Simulator) (t : SimulatedSwap) : Prop :=
  ∀ e, (s.processSwap cfg env t).2 = .error e → SameBooks s (s.processSwap cfg env t).1

/-- What sizing answers for the swap of a followed wallet. -/
def sized (cfg : CopyConfig) (env : SimulationEnv) (s : Simulator) (t : SimulatedSwap)
    (w : WalletConfig) : Shared × CopyDetails × Except ExecError (Option SwapInput) :=
  getExecutionInput cfg env.exec s.shared (t.details cfg w)

/-- The execution of an order that sizing gives, as far as its prices are known. -/
def priced (cfg : CopyConfig) (env : SimulationEnv) (s : Simulator) (t : SimulatedSwap)
    (w : WalletConfig) (decimals : TokenDecimals) (order : SwapInput) :
    Except SimulationError SimulatedExecution :=
  simulateExecution cfg env s.solPriceHistory t decimals (s.sized cfg env t w).2.1.copyType order

/-! ### The condition, on the state before the call -/

/-- The price of SOL for a block time is known: the history spans it, or it is less than a day
old and the feed has a price. -/
def SolPriceKnown (env : SimulationEnv) (prices : List HistoricalPrice) (blocktime : ℤ) : Prop :=
  (∃ first last, prices.head? = some first ∧ prices.getLast? = some last ∧
    first.unixTime ≤ blocktime ∧ blocktime ≤ last.unixTime) ∨
  (env.now - (prices.getLast?.map HistoricalPrice.unixTime).getD env.now < 24 * 60 * 60 ∧
    env.currentSolPrice.isSome = true)

/-- The prices of a swap can be told, and the share kept out of it is a share. -/
structure Priceable (cfg : CopyConfig) (env : SimulationEnv) (s : Simulator)
    (t : SimulatedSwap) : Prop where
  sol : SolPriceKnown env s.solPriceHistory t.blocktime
  side : isStaticToken t.swap.inputTokenMint = true ∨ isStaticToken t.swap.outputTokenMint = true
  dust : cfg.moonbagBps ≤ 10000

/-- The swap of a followed wallet is copied with an order. -/
def Copied (cfg : CopyConfig) (env : SimulationEnv) (s : Simulator) (t : SimulatedSwap)
    (w : WalletConfig) (copyType : CopyType) (order : SwapInput) : Prop :=
  Copies cfg env.exec s.shared (t.details cfg w) copyType order

/-- Nothing is to be copied, or every check that is ahead of the order passes. -/
inductive Completes (cfg : CopyConfig) (env : SimulationEnv) (s : Simulator) (t : SimulatedSwap)
    (w : WalletConfig) : Prop
  | skipped (haccepts : ¬ Refuses env.exec s.shared (t.details cfg w))
      (hnone : ∀ copyType order, ¬ s.Copied cfg env t w copyType order)
  | booked (copyType : CopyType) (order : SwapInput) (hcopied : s.Copied cfg env t w copyType order)
      (hprice : s.Priceable cfg env t) (hcharges : cfg.maxFeeCost + s.rentDue order ≤ s.lamportsBal)
      (hfunds : s.Funded cfg copyType order) (hrecord : s.Recordable cfg w.mode copyType order)

/-- The first check that fails comes before anything is debited: the swap is refused or cannot be
priced, the fee is not covered, or the fee, and for the funds the rent too, is nothing. -/
inductive FailsEarly (cfg : CopyConfig) (env : SimulationEnv) (s : Simulator)
    (t : SimulatedSwap) (w : WalletConfig) : Prop
  | sizing (h : Refuses env.exec s.shared (t.details cfg w))
  | pricing (copyType : CopyType) (order : SwapInput)
      (hcopied : s.Copied cfg env t w copyType order) (h : ¬ s.Priceable cfg env t)
  | fee (copyType : CopyType) (order : SwapInput) (hcopied : s.Copied cfg env t w copyType order)
      (h : s.lamportsBal < cfg.maxFeeCost)
  | rent (copyType : CopyType) (order : SwapInput) (hcopied : s.Copied cfg env t w copyType order)
      (hfee : cfg.maxFeeCost = 0) (h : s.lamportsBal < s.rentDue order)
  | funds (copyType : CopyType) (order : SwapInput) (hcopied : s.Copied cfg env t w copyType order)
      (hfee : cfg.maxFeeCost = 0) (hrent : s.rentDue order = 0)
      (h : ¬ s.Funded cfg copyType order)

/-! ### What pricing needs -/

theorem isSome_getPriceForTimestamp_iff (prices : List HistoricalPrice) (timestamp : ℤ) :
    (getPriceForTimestamp prices timestamp).isSome = true ↔
      ∃ first last, prices.head? = some first ∧ prices.getLast? = some last ∧
        first.unixTime ≤ timestamp ∧ timestamp ≤ last.unixTime := by
  constructor
  · intro h
    unfold getPriceForTimestamp at h
    split at h
    · next first last hfirst hlast =>
      split_ifs at h with hout
      · cases h
      · exact ⟨first, last, hfirst, hlast, by omega, by omega⟩
    · cases h
  · rintro ⟨first, last, hfirst, hlast, hl, hr⟩
    exact isSome_getPriceForTimestamp hfirst hlast hl hr

theorem simulatedSolPrice_iff (env : SimulationEnv) (prices : List HistoricalPrice)
    (blocktime : ℤ) :
    (∃ price, simulatedSolPrice env prices blocktime = .ok price) ↔
      SolPriceKnown env prices blocktime := by
  rw [SolPriceKnown, ← isSome_getPriceForTimestamp_iff]
  unfold simulatedSolPrice
  cases getPriceForTimestamp prices blocktime with
  | some price => simp
  | none =>
    simp only [Option.isSome_none, Bool.false_eq_true, false_or]
    split_ifs with hfresh
    · simp only [hfresh, true_and]
      cases env.currentSolPrice <;> simp
    · simp only [hfresh, exists_false, false_and]

/-- Without asking for a price one of the mints has to be static. -/
theorem calculateTokenPrices_isSome (inputMint outputMint : Pubkey)
    (inputAmount outputAmount inputDecimals outputDecimals : ℕ) (solPriceUsd : F64) :
    (calculateTokenPrices inputMint outputMint inputAmount outputAmount inputDecimals
      outputDecimals solPriceUsd).isSome = true ↔
      isStaticToken inputMint = true ∨ isStaticToken outputMint = true := by
  have hknown : ∀ mint, isStaticToken mint = (knownPrice solPriceUsd mint).isSome := by
    intro mint
    unfold isStaticToken knownPrice
    split_ifs with hstable hsol
    · rcases hstable with rfl | rfl <;> simp
    · simp [hsol]
    · simp only [not_or] at hstable
      simp [hstable, hsol]
  rw [hknown, hknown]
  unfold calculateTokenPrices getTokenPrices askedPrices
  simp only [Option.some_or]
  cases knownPrice solPriceUsd inputMint <;> cases knownPrice solPriceUsd outputMint <;> simp

/-- An order is priced exactly when its swap can be. -/
theorem simulateExecution_iff {cfg : CopyConfig} {env : SimulationEnv} {s : Simulator}
    {t : SimulatedSwap} {decimals : TokenDecimals} {copyType : CopyType} {order : SwapInput} :
    (∃ x, simulateExecution cfg env s.solPriceHistory t decimals (some copyType) order = .ok x) ↔
      s.Priceable cfg env t := by
  have hiff : s.Priceable cfg env t ↔
      (∃ price, simulatedSolPrice env s.solPriceHistory t.blocktime = .ok price) ∧
        (isStaticToken t.swap.inputTokenMint = true ∨
          isStaticToken t.swap.outputTokenMint = true) ∧ cfg.moonbagBps ≤ 10000 := by
    rw [simulatedSolPrice_iff]
    exact ⟨fun h => ⟨h.sol, h.side, h.dust⟩, fun h => ⟨h.1, h.2.1, h.2.2⟩⟩
  rw [hiff]
  unfold simulateExecution
  cases simulatedSolPrice env s.solPriceHistory t.blocktime with
  | error e => simp
  | ok price =>
    rw [← calculateTokenPrices_isSome t.swap.inputTokenMint t.swap.outputTokenMint
      t.swap.inputAmount t.swap.outputAmount decimals.input decimals.output price]
    simp only
    cases calculateTokenPrices t.swap.inputTokenMint t.swap.outputTokenMint t.swap.inputAmount
        t.swap.outputAmount decimals.input decimals.output price with
    | none => simp
    | some originPrice =>
      simp only
      by_cases hbps : 10000 < cfg.moonbagBps
      · simp [hbps]
      · simp [hbps, Nat.not_lt.mp hbps]

/-- A priced execution is one of the sized order; the dust is a share of what is received. -/
theorem simulateExecution_ok {cfg : CopyConfig} {env : SimulationEnv}
    {prices : List HistoricalPrice} {t : SimulatedSwap} {decimals : TokenDecimals}
    {copyType : Option CopyType} {order : SwapInput} {x : SimulatedExecution}
    (h : simulateExecution cfg env prices t decimals copyType order = .ok x) :
    x.order = order ∧ copyType = some x.copyType ∧ cfg.moonbagBps ≤ 10000 ∧
      x.dustAmount = cfg.simulatedDust (convertedAmount x.order.amount x.inputDecimals
        x.outputDecimals x.inputPriceUsd x.outputPriceUsd) ∧
      x.outAmount = convertedAmount x.order.amount x.inputDecimals x.outputDecimals
        x.inputPriceUsd x.outputPriceUsd - x.dustAmount := by
  rw [simulateExecution] at h
  split at h
  · contradiction
  · split at h
    · contradiction
    · split at h
      · contradiction
      · split_ifs at h with hbps
        obtain rfl := Except.ok.inj h
        exact ⟨rfl, rfl, Nat.not_lt.mp hbps, rfl, rfl⟩

theorem recordable_congr {cfg : CopyConfig} {s s' : Simulator} {mode : CopyMode}
    {x : SimulatedExecution}
    (h : s'.shared.pingTracker.isSome = s.shared.pingTracker.isSome) :
    s'.Recordable cfg mode x.copyType x.order ↔ s.Recordable cfg mode x.copyType x.order := by
  have hbuy : s'.BuyRecordable cfg mode x.order ↔ s.BuyRecordable cfg mode x.order := by
    cases mode <;> simp only [BuyRecordable, h]
  have hsell : s'.SellRecordable mode x.order ↔ s.SellRecordable mode x.order := by
    simp only [SellRecordable, h]
  constructor
  · exact fun hr => ⟨fun hb => hbuy.mp (hr.buys hb), fun hs => hsell.mp (hr.sells hs)⟩
  · exact fun hr => ⟨fun hb => hbuy.mpr (hr.buys hb), fun hs => hsell.mpr (hr.sells hs)⟩

section Followed

variable {cfg : CopyConfig} {env : SimulationEnv} {s : Simulator} {t : SimulatedSwap}
  {w : WalletConfig} {decimals : TokenDecimals}

/-- Taking over the books of sizing keeps them exactly when sizing does. -/
theorem sameBooks_sized {r : Simulator}
    (hshared : r.shared = (s.sized cfg env t w).1) :
    SameBooks s r ↔ r.funds = s.funds ∧
      ¬ SizingChanges cfg env.exec s.shared (t.details cfg w) := by
  rw [← getExecutionInput_books_iff cfg env.exec s.shared (t.details cfg w)]
  have hs : r.shared = (getExecutionInput cfg env.exec s.shared (t.details cfg w)).1 := hshared
  rw [← hs]
  constructor
  · exact fun h => ⟨Prod.ext h.lamports h.tokens, h.history, h.pings⟩
  · exact fun h => ⟨congrArg Prod.fst h.1, congrArg Prod.snd h.1, h.2.1, h.2.2⟩

/-- A swap is copied exactly with the order that sizing gives. -/
theorem copied_iff {copyType : CopyType} {order : SwapInput} :
    s.Copied cfg env t w copyType order ↔ (s.sized cfg env t w).2.2 = .ok (some order) ∧
      (s.sized cfg env t w).2.1.copyType = some copyType :=
  (getExecutionInput_copies_iff cfg env.exec s.shared (t.details cfg w) copyType order).symm

theorem Copied.unique {copyType copyType' : CopyType} {order order' : SwapInput}
    (h : s.Copied cfg env t w copyType order) (h' : s.Copied cfg env t w copyType' order') :
    copyType' = copyType ∧ order' = order := by
  obtain ⟨horder, hcopy⟩ := copied_iff.mp h
  obtain ⟨horder', hcopy'⟩ := copied_iff.mp h'
  rw [hcopy, Option.some.injEq] at hcopy'
  rw [horder, Except.ok.injEq, Option.some.injEq] at horder'
  exact ⟨hcopy'.symm, horder'.symm⟩

theorem refuses_iff :
    Refuses env.exec s.shared (t.details cfg w) ↔ ∃ e, (s.sized cfg env t w).2.2 = .error e :=
  (getExecutionInput_error_iff cfg env.exec s.shared (t.details cfg w)).symm

/-- A copied swap is not refused. -/
theorem Copied.not_refuses {copyType : CopyType} {order : SwapInput}
    (h : s.Copied cfg env t w copyType order) :
    ¬ Refuses env.exec s.shared (t.details cfg w) := by
  rw [refuses_iff]
  rintro ⟨e, he⟩
  cases (copied_iff.mp h).1.symm.trans he

/-- An order that can be priced completes when its charges, its funds and its records are in
order. -/
theorem completes_iff {copyType : CopyType} {order : SwapInput}
    (hcopied : s.Copied cfg env t w copyType order) (hprice : s.Priceable cfg env t) :
    s.Completes cfg env t w ↔
      cfg.maxFeeCost + s.rentDue order ≤ s.lamportsBal ∧ s.Funded cfg copyType order ∧
        s.Recordable cfg w.mode copyType order := by
  constructor
  · rintro (⟨-, hnone⟩ | ⟨copyType', order', hcopied', -, hcharges, hfunds, hrecord⟩)
    · exact absurd hcopied (hnone copyType order)
    · obtain ⟨rfl, rfl⟩ := hcopied.unique hcopied'
      exact ⟨hcharges, hfunds, hrecord⟩
  · exact fun h => .booked copyType order hcopied hprice h.1 h.2.1 h.2.2

theorem failsEarly_iff {copyType : CopyType} {order : SwapInput}
    (hcopied : s.Copied cfg env t w copyType order) (hprice : s.Priceable cfg env t) :
    s.FailsEarly cfg env t w ↔
      s.lamportsBal < cfg.maxFeeCost ∨
      (cfg.maxFeeCost = 0 ∧ s.lamportsBal < s.rentDue order) ∨
      (cfg.maxFeeCost = 0 ∧ s.rentDue order = 0 ∧ ¬ s.Funded cfg copyType order) := by
  constructor
  · intro h
    cases h with
    | sizing h => exact absurd h hcopied.not_refuses
    | pricing copyType' order' hcopied' h => exact absurd hprice h
    | fee copyType' order' hcopied' h => exact .inl h
    | rent copyType' order' hcopied' hfee h =>
      obtain ⟨rfl, rfl⟩ := hcopied.unique hcopied'
      exact .inr (.inl ⟨hfee, h⟩)
    | funds copyType' order' hcopied' hfee hrent h =>
      obtain ⟨rfl, rfl⟩ := hcopied.unique hcopied'
      exact .inr (.inr ⟨hfee, hrent, h⟩)
  · rintro (h | ⟨hfee, h⟩ | ⟨hfee, hrent, h⟩)
    · exact .fee copyType order hcopied h
    · exact .rent copyType order hcopied hfee h
    · exact .funds copyType order hcopied hfee hrent h

/-- What is left after a debit is what was there only if the debit was nothing. -/
theorem sameBooks_debit_iff {b : Simulator} (hbefore : b.funds = s.funds)
    (hshared : b.shared = (s.sized cfg env t w).1) {debit : ℕ} (hle : debit ≤ b.lamportsBal) :
    SameBooks s { b with lamportsBal := b.lamportsBal - debit } ↔
      debit = 0 ∧ ¬ SizingChanges cfg env.exec s.shared (t.details cfg w) := by
  have hl : b.lamportsBal = s.lamportsBal := congrArg Prod.fst hbefore
  have ht : b.tokenBalances = s.tokenBalances := congrArg Prod.snd hbefore
  have hiff : ({ b with lamportsBal := b.lamportsBal - debit } : Simulator).funds = s.funds ↔
      debit = 0 := by
    simp only [funds, ht, hl, Prod.mk.injEq, and_true]
    omega
  refine (sameBooks_sized (r := { b with lamportsBal := b.lamportsBal - debit }) hshared).trans ?_
  rw [hiff]

/-- Booking a priced order fails without a trace, or completes, exactly as described. -/
theorem bookCase_atomic_iff {x : SimulatedExecution} {b : Simulator}
    {result : Simulator × Except SimulationError Unit}
    (hbefore : b.funds = s.funds) (hshared : b.shared = (s.sized cfg env t w).1)
    (hcopied : s.Copied cfg env t w x.copyType x.order) (hprice : s.Priceable cfg env t)
    (hcase : BookCase cfg b w.mode x result) :
    (∀ e, result.2 = .error e → SameBooks s result.1) ↔
      s.Completes cfg env t w ∨
      (s.FailsEarly cfg env t w ∧
        ¬ SizingChanges cfg env.exec s.shared (t.details cfg w)) := by
  have hl : b.lamportsBal = s.lamportsBal := congrArg Prod.fst hbefore
  have ht : b.tokenBalances = s.tokenBalances := congrArg Prod.snd hbefore
  have hrentDue : b.rentDue x.order = s.rentDue x.order := by simp only [rentDue, ht]
  have hfunded : b.Funded cfg x.copyType x.order ↔ s.Funded cfg x.copyType x.order := by
    simp only [Funded, hl, ht, hrentDue]
  have hrecordable : b.Recordable cfg w.mode x.copyType x.order ↔
      s.Recordable cfg w.mode x.copyType x.order := by
    apply recordable_congr
    rw [hshared]
    exact getExecutionInput_isSome ..
  have hfailed : ∀ (e : SimulationError) (P : Prop),
      (∀ e', (.error e : Except SimulationError Unit) = .error e' → P) ↔ P :=
    fun e P => ⟨fun h => h e rfl, fun h _ _ => h⟩
  rw [completes_iff hcopied hprice, failsEarly_iff hcopied hprice, ← hfunded, ← hrecordable,
    ← hl, ← hrentDue]
  cases hcase with
  | fee hfee =>
    have hsame := sameBooks_debit_iff hbefore hshared (Nat.zero_le b.lamportsBal)
    have huncovered : ¬ cfg.maxFeeCost + b.rentDue x.order ≤ b.lamportsBal := by omega
    rw [hfailed, show b = { b with lamportsBal := b.lamportsBal - 0 } from rfl, hsame]
    simp [huncovered, hfee]
  | rent hfee hrent =>
    have hcovered : ¬ b.lamportsBal < cfg.maxFeeCost := by omega
    have huncovered : ¬ cfg.maxFeeCost + b.rentDue x.order ≤ b.lamportsBal := by omega
    have hearly : (b.lamportsBal < cfg.maxFeeCost ∨
        (cfg.maxFeeCost = 0 ∧ b.lamportsBal < b.rentDue x.order) ∨
        (cfg.maxFeeCost = 0 ∧ b.rentDue x.order = 0 ∧ ¬ b.Funded cfg x.copyType x.order)) ↔
        cfg.maxFeeCost = 0 := by
      constructor
      · rintro (h | h | h)
        · contradiction
        · exact h.1
        · exact h.1
      · exact fun h => .inr (.inl ⟨h, by omega⟩)
    rw [hfailed, sameBooks_debit_iff hbefore hshared hfee, hearly]
    simp only [huncovered, false_and, false_or]
  | funds e hrent hfunds =>
    have hcovered : ¬ b.lamportsBal < cfg.maxFeeCost := by omega
    have hrent' : ¬ b.lamportsBal < b.rentDue x.order := by omega
    have hzero : cfg.maxFeeCost + b.rentDue x.order = 0 ↔
        cfg.maxFeeCost = 0 ∧ b.rentDue x.order = 0 := by omega
    rw [hfailed, Nat.sub_sub, sameBooks_debit_iff hbefore hshared hrent, hzero]
    simp only [hfunds, hcovered, hrent', not_false_eq_true, and_true, and_false, false_and,
      false_or]
  | record s' e hrent hfunds hrecord hmoved =>
    have hcovered : ¬ b.lamportsBal < cfg.maxFeeCost := by omega
    have hrent' : ¬ b.lamportsBal < b.rentDue x.order := by omega
    have hchanged : ¬ SameBooks s s' := by
      intro h
      apply hmoved
      exact (Prod.ext h.lamports h.tokens : s'.funds = s.funds).trans hbefore.symm
    rw [hfailed]
    refine iff_of_false hchanged ?_
    simp only [hfunds, hrecord, hcovered, hrent', not_true_eq_false, and_false, false_and,
      or_self, not_false_eq_true]
  | booked s' hrent hfunds hrecord =>
    refine iff_of_true ?_ (.inl ⟨hrent, hfunds, hrecord⟩)
    exact fun e h => nomatch h

/-- The rest of `process_swap` for a followed wallet and known decimals. -/
def bookSized (cfg : CopyConfig) (env : SimulationEnv) (s : Simulator) (t : SimulatedSwap)
    (w : WalletConfig) (decimals : TokenDecimals) : Simulator × Except SimulationError Unit :=
  let b := { s.noteDecimals t.swap decimals with shared := (s.sized cfg env t w).1 }
  match (s.sized cfg env t w).2.2 with
  | .error e => (b, .error (.exec e))
  | .ok none => (b, .ok ())
  | .ok (some order) =>
    match s.priced cfg env t w decimals order with
    | .error e => (b, .error e)
    | .ok x => b.bookExecution cfg t decimals w.mode x

theorem processSwap_followed (hw : s.wallets t.originSigner = some w)
    (hdec : t.swap.tokenDecimals = some decimals) :
    s.processSwap cfg env t = s.bookSized cfg env t w decimals := by
  have hshared : (s.noteDecimals t.swap decimals).shared = s.shared := rfl
  have hprices : (s.noteDecimals t.swap decimals).solPriceHistory = s.solPriceHistory := rfl
  simp only [processSwap, hw, hdec, bookSized, priced, sized, hshared, hprices]
  generalize getExecutionInput cfg env.exec s.shared (t.details cfg w) = result
  obtain ⟨shared, d, given⟩ := result
  cases given with
  | error e => rfl
  | ok order => cases order <;> rfl

theorem bookSized_atomic_iff :
    (∀ e, (s.bookSized cfg env t w decimals).2 = .error e →
        SameBooks s (s.bookSized cfg env t w decimals).1) ↔
      s.Completes cfg env t w ∨
      (s.FailsEarly cfg env t w ∧
        ¬ SizingChanges cfg env.exec s.shared (t.details cfg w)) := by
  have hbooks : SameBooks s
      { s.noteDecimals t.swap decimals with shared := (s.sized cfg env t w).1 } ↔
        ¬ SizingChanges cfg env.exec s.shared (t.details cfg w) :=
    (sameBooks_sized rfl).trans (and_iff_right rfl)
  unfold bookSized
  cases hsized : (s.sized cfg env t w).2.2 with
  | error e =>
    have hrefused := refuses_iff.mpr ⟨e, hsized⟩
    have hincomplete : ¬ s.Completes cfg env t w := by
      rintro (⟨haccepts, -⟩ | ⟨copyType, order, hcopied, -⟩)
      · exact haccepts hrefused
      · exact hcopied.not_refuses hrefused
    simp [hbooks, hincomplete, FailsEarly.sizing hrefused]
  | ok given =>
    have haccepts : ¬ Refuses env.exec s.shared (t.details cfg w) := by
      rw [refuses_iff, hsized]
      rintro ⟨e, he⟩
      cases he
    cases given with
    | none =>
      have hnone : ∀ copyType order, ¬ s.Copied cfg env t w copyType order := by
        intro copyType order hcopied
        cases hsized.symm.trans (copied_iff.mp hcopied).1
      simp [Completes.skipped haccepts hnone]
    | some order =>
      obtain ⟨copyType, hcopy⟩ := getExecutionInput_exists_copyType hsized
      have hcopied : s.Copied cfg env t w copyType order := copied_iff.mpr ⟨hsized, hcopy⟩
      have hsome : s.priced cfg env t w decimals order = simulateExecution cfg env
          s.solPriceHistory t decimals (some copyType) order := by
        rw [priced, sized, hcopy]
      cases hpriced : s.priced cfg env t w decimals order with
      | error e =>
        have hunpriced : ¬ s.Priceable cfg env t := by
          rw [← @simulateExecution_iff cfg env s t decimals copyType order, ← hsome, hpriced]
          rintro ⟨x, hx⟩
          cases hx
        have hincomplete : ¬ s.Completes cfg env t w := by
          rintro (⟨-, hnone⟩ | ⟨copyType', order', -, hprice, -⟩)
          · exact hnone copyType order hcopied
          · exact hunpriced hprice
        have hearly : s.FailsEarly cfg env t w := .pricing copyType order hcopied hunpriced
        simp [hpriced, hbooks, hincomplete, hearly]
      | ok x =>
        have hprice : s.Priceable cfg env t :=
          simulateExecution_iff.mp ⟨x, hsome.symm.trans hpriced⟩
        obtain ⟨rfl, hx, -⟩ := simulateExecution_ok hpriced
        obtain rfl : copyType = x.copyType := Option.some.inj (hcopy.symm.trans hx)
        have horder : SizedOrder (some x.copyType) x.order := by
          rw [← hx]
          have hresult : s.sized cfg env t w =
              ((s.sized cfg env t w).1, (s.sized cfg env t w).2.1, .ok (some x.order)) :=
            Prod.ext rfl (Prod.ext rfl hsized)
          exact getExecutionInput_sized hresult
        simp only [hpriced]
        exact bookCase_atomic_iff
          (b := { s.noteDecimals t.swap decimals with shared := (s.sized cfg env t w).1 })
          rfl rfl hcopied hprice (bookExecution_cases cfg _ t decimals w.mode horder)

end Followed

/-- A failing call leaves the books alone exactly when, by the state before it, its first failing
check comes before every change. -/
theorem atomic_iff (cfg : CopyConfig) (env : SimulationEnv) (s : Simulator)
    (t : SimulatedSwap) :
    s.Atomic cfg env t ↔
      ∀ w decimals, s.wallets t.originSigner = some w → t.swap.tokenDecimals = some decimals →
        s.Completes cfg env t w ∨
        (s.FailsEarly cfg env t w ∧
          ¬ SizingChanges cfg env.exec s.shared (t.details cfg w)) := by
  unfold Atomic
  cases hw : s.wallets t.originSigner with
  | none => simp [processSwap, hw]
  | some w =>
    cases hdec : t.swap.tokenDecimals with
    | none => simpa [processSwap, hw, hdec] using ⟨rfl, rfl, rfl, rfl⟩
    | some decimals =>
      rw [processSwap_followed hw hdec, bookSized_atomic_iff]
      simp

/-- A simulator that follows the sample wallet and holds no tokens. -/
def sample (lamports : ℕ) : Simulator where
  lamportsBal := lamports
  tokenBalances := fun _ => none
  shared := ⟨HistoricalTrades.empty, none, false⟩
  wallets := fun wallet =>
    if wallet = sampleWallet then some (sampleBuyTrade 0).walletConfig else none
  solPriceHistory := [⟨0, .fin 150⟩, ⟨100, .fin 150⟩]
  decimals := fun _ => none

/-- The sample wallet buys the sample token. -/
def sampleSwap : SimulatedSwap where
  swap := (sampleBuyTrade 500).swap
  originSolBalance := none
  originInputMintBalance := none
  originSigner := sampleWallet
  originSignature := 0
  blocktime := 50

/-- Both mints can be read. -/
def sampleSimulationEnv : SimulationEnv := ⟨sampleEnv, none, 100⟩

/-- The lamports cover the fee of 1100 but not the rent of the new token account: the call
fails with the fee gone. -/
theorem not_atomic_uncovered_rent :
    ¬ (sample 1200).Atomic sampleConfig sampleSimulationEnv sampleSwap := by
  intro h
  have hfailed : ((sample 1200).processSwap sampleConfig sampleSimulationEnv sampleSwap).2 =
      .error .insufficientLamportBalance := by decide +kernel
  have hgone : ((sample 1200).processSwap sampleConfig sampleSimulationEnv
      sampleSwap).1.lamportsBal = 100 := by decide +kernel
  have hkept := (h _ hfailed).lamports
  rw [hgone] at hkept
  exact absurd hkept (by decide)

end Simulator

end Biscuit.Copy
