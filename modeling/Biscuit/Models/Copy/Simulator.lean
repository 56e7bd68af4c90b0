import Biscuit.Core.Search
import Biscuit.Models.Copy.Budget
import Biscuit.Models.Copy.Prices

/-!
# The simulator

`Simulator::process_swap` sizes a copy of a swap as the service does, computes what the
copy would receive from the prices of the origin swap, and books it: fees and rent, the
simulated balances, and the trade history or the ping tracker.
-/

namespace Biscuit.Copy

/-- A price at a time. -/
structure HistoricalPrice where
  unixTime : ℤ
  value : F64

/-- `get_price_for_timestamp`: the first price that is not older, within the history. -/
def getPriceForTimestamp (prices : List HistoricalPrice) (timestamp : ℤ) : Option F64 :=
  match prices.head?, prices.getLast? with
  | some first, some last =>
    if timestamp < first.unixTime ∨ last.unixTime < timestamp then none
    else
      (prices[partitionPoint (fun x => decide (x.unixTime < timestamp)) prices]?).map
        HistoricalPrice.value
  | _, _ => none

/-- The lookup in the history is never out of bounds: a timestamp within it has a price. -/
theorem isSome_getPriceForTimestamp {prices : List HistoricalPrice} {timestamp : ℤ}
    {first last : HistoricalPrice} (hfirst : prices.head? = some first)
    (hlast : prices.getLast? = some last) (hl : first.unixTime ≤ timestamp)
    (hr : timestamp ≤ last.unixTime) : (getPriceForTimestamp prices timestamp).isSome = true := by
  have hlt : partitionPoint (fun x => decide (x.unixTime < timestamp)) prices < prices.length :=
    partitionPoint_lt hlast (by simpa using hr)
  have hin : ¬ (timestamp < first.unixTime ∨ last.unixTime < timestamp) := by omega
  simp only [getPriceForTimestamp, hfirst, hlast, hin, if_false, Option.isSome_map,
    List.getElem?_eq_getElem hlt, Option.isSome_some]

/-- `calculate_token_prices`: as `get_token_prices`, without asking for a price. -/
def calculateTokenPrices (inputMint outputMint : Pubkey)
    (inputAmount outputAmount inputTokenDecimals outputTokenDecimals : ℕ) (solPriceUsd : F64) :
    Option Price :=
  getTokenPrices ⟨none, fun _ => none⟩ (some solPriceUsd) inputMint outputMint inputAmount
    outputAmount inputTokenDecimals outputTokenDecimals

/-- The simulator; the handler's trade history and ping tracker are shared with sizing. -/
structure Simulator where
  lamportsBal : ℕ
  tokenBalances : Pubkey → Option ℕ
  shared : Shared
  wallets : Pubkey → Option WalletConfig
  solPriceHistory : List HistoricalPrice
  decimals : Pubkey → Option ℕ

/-- The arguments of `process_swap`. -/
structure SimulatedSwap where
  swap : ResolvedSwap
  originSolBalance : Option Balance
  originInputMintBalance : Option Balance
  originSigner : Pubkey
  originSignature : Signature
  blocktime : ℤ

/-- The answers one run of `process_swap` gets. -/
structure SimulationEnv where
  /-- The answers that sizing gets. -/
  exec : ExecEnv
  /-- The price of SOL in the feed. -/
  currentSolPrice : Option F64
  /-- The time in seconds. -/
  now : ℤ

/-- Why a swap is not simulated to its end. -/
inductive SimulationError
  /-- Simulator ran out of lamports balance -/
  | insufficientLamportBalance
  /-- Simulator ran out of token balance. Token={0} -/
  | insufficientTokenBalance (token : Pubkey)
  /-- Token decimals not resolved for swap -/
  | tokenDecimals
  /-- Sizing failed. -/
  | exec (e : ExecError)
  /-- Failed to get current sol price while getting historical price -/
  | currentSolPrice
  /-- Failed to get historical sol price -/
  | historicalSolPrice
  /-- Cannot calculate token prices. Neither input nor output mint price is known -/
  | tokenPrices
  /-- No copy-type set for swap -/
  | copyType
  /-- Invalid dust bps: {} -/
  | dustBps (bps : ℕ)
  /-- Attempted to sell token not present in balances -/
  | tokenNotHeld
  /-- Ping tracker not set for simulator -/
  | pingTrackerNotSet
  /-- Recording the trade failed. -/
  | trade (e : TradeError)
  deriving DecidableEq, Repr

/-- `SOL_DECIMALS` -/
def solDecimals : ℕ := 9

/-- `TOKEN_ACCOUNT_CREATION_LAMPORTS` -/
def tokenAccountCreationLamports : ℕ := 2000000

/-- The details that a simulated copy is sized with; the retries start used up. -/
def SimulatedSwap.details (cfg : CopyConfig) (t : SimulatedSwap) (w : WalletConfig) :
    CopyDetails where
  originSignature := t.originSignature
  originSigner := t.originSigner
  originSwap := t.swap
  originSolBalance := t.originSolBalance
  originInputMintBalance := t.originInputMintBalance
  sendTxnRetries := cfg.sendTxnRetries
  confirmedErrorRetries := cfg.confirmedErrorRetries
  retryStrategy := .buildTransaction
  walletConfig := w
  nextPriorityLevel := .high
  lastFeeLamports := 0
  sendToJito := true
  quoteOutput := none
  copyType := none

/-- The price of SOL for a block time: from the history, or the current one while the
history is less than a day old. -/
def simulatedSolPrice (env : SimulationEnv) (prices : List HistoricalPrice) (blocktime : ℤ) :
    Except SimulationError F64 :=
  match getPriceForTimestamp prices blocktime with
  | some price => .ok price
  | none =>
    let mostRecentTime := (prices.getLast?.map HistoricalPrice.unixTime).getD env.now
    if env.now - mostRecentTime < 24 * 60 * 60 then
      match env.currentSolPrice with
      | some price => .ok price
      | none => .error .currentSolPrice
    else .error .historicalSolPrice

/-- What a simulated copy trades and at which prices. -/
structure SimulatedExecution where
  order : SwapInput
  copyType : CopyType
  originPrice : Price
  inputDecimals : ℕ
  outputDecimals : ℕ
  inputPriceUsd : F64
  outputPriceUsd : F64
  /-- What the wallet receives, the dust taken off. -/
  outAmount : ℕ
  dustAmount : ℕ

/-- What an amount is worth in the other token. -/
def convertedAmount (amount inputDecimals outputDecimals : ℕ) (inputPrice outputPrice : F64) :
    ℕ :=
  (F64.ofNat amount / pow10 inputDecimals * inputPrice / outputPrice *
    pow10 outputDecimals).trunc.toU64

/-- The dust of a simulated copy, computed in words. -/
def CopyConfig.simulatedDust (cfg : CopyConfig) (amount : ℕ) : ℕ :=
  wrapU64 (cfg.moonbagBps * amount) / 10000

/-- The prices and decimals of a sized copy: a buy pays SOL, and anything else is taken to
receive SOL. -/
def simulatedSides (copyType : CopyType) (decimals : TokenDecimals) (price : Price) :
    (ℕ × ℕ) × F64 × F64 :=
  match copyType with
  | .buy => ((solDecimals, decimals.output), price.solPriceUsd, price.outputPriceUsd)
  | .sell | .both => ((decimals.input, solDecimals), price.inputPriceUsd, price.solPriceUsd)

/-- The part of `process_swap` between sizing and the first debit. -/
def simulateExecution (cfg : CopyConfig) (env : SimulationEnv) (prices : List HistoricalPrice)
    (t : SimulatedSwap) (decimals : TokenDecimals) (copyType : Option CopyType)
    (order : SwapInput) : Except SimulationError SimulatedExecution :=
  match simulatedSolPrice env prices t.blocktime with
  | .error e => .error e
  | .ok solPrice =>
    match calculateTokenPrices t.swap.inputTokenMint t.swap.outputTokenMint t.swap.inputAmount
        t.swap.outputAmount decimals.input decimals.output solPrice with
    | none => .error .tokenPrices
    | some originPrice =>
      match copyType with
      | none => .error .copyType
      | some copyType =>
        let ((inputDecimals, outputDecimals), inputPriceUsd, outputPriceUsd) :=
          simulatedSides copyType decimals originPrice
        let received :=
          convertedAmount order.amount inputDecimals outputDecimals inputPriceUsd outputPriceUsd
        if 10000 < cfg.moonbagBps then .error (.dustBps cfg.moonbagBps)
        else
          .ok
            { order
              copyType
              originPrice
              inputDecimals
              outputDecimals
              inputPriceUsd
              outputPriceUsd
              outAmount := received - cfg.simulatedDust received
              dustAmount := cfg.simulatedDust received }

namespace SimulatedExecution

/-- `exec_input_usd` -/
def execInputUsd (x : SimulatedExecution) : F64 :=
  F64.ofNat x.order.amount / pow10 x.inputDecimals * x.inputPriceUsd

/-- `exec_output_usd` -/
def execOutputUsd (x : SimulatedExecution) : F64 :=
  F64.ofNat x.outAmount / pow10 x.outputDecimals * x.outputPriceUsd

/-- `origin_input_usd` -/
def originInputUsd (x : SimulatedExecution) (swap : ResolvedSwap) (decimals : TokenDecimals) :
    F64 :=
  F64.ofNat swap.inputAmount * x.originPrice.inputPriceUsd / pow10 decimals.input

/-- `origin_output_usd` -/
def originOutputUsd (x : SimulatedExecution) (swap : ResolvedSwap) (decimals : TokenDecimals) :
    F64 :=
  F64.ofNat swap.outputAmount / pow10 decimals.output * x.originPrice.outputPriceUsd

/-- A value in dollars in SOL. -/
def inSol (x : SimulatedExecution) (usd : F64) : F64 := usd / x.originPrice.solPriceUsd

/-- What a buy enters into the trade history. -/
def buyEntry (x : SimulatedExecution) (swap : ResolvedSwap) (decimals : TokenDecimals) :
    TradeEntry where
  execVolumeToken := x.outAmount
  originVolumeToken := swap.outputAmount
  execVolumeUsd := x.execInputUsd
  originVolumeUsd := x.originInputUsd swap decimals
  execVolumeSol := x.inSol x.execInputUsd
  originVolumeSol := x.inSol (x.originInputUsd swap decimals)
  dustVolumeToken := x.dustAmount

/-- What a sell enters into the trade history. -/
def sellEntry (x : SimulatedExecution) (swap : ResolvedSwap) (decimals : TokenDecimals) :
    TradeEntry where
  execVolumeToken := x.order.amount
  originVolumeToken := swap.inputAmount
  execVolumeUsd := x.execOutputUsd
  originVolumeUsd := x.originOutputUsd swap decimals
  execVolumeSol := x.inSol x.execOutputUsd
  originVolumeSol := x.inSol (x.originOutputUsd swap decimals)
  dustVolumeToken := 0

end SimulatedExecution

namespace Simulator

/-- The decimals of both mints are noted. -/
def noteDecimals (s : Simulator) (swap : ResolvedSwap) (decimals : TokenDecimals) : Simulator :=
  { s with
    decimals := Function.update (Function.update s.decimals swap.inputTokenMint
      (some decimals.input)) swap.outputTokenMint (some decimals.output) }

/-- The fee of a copy and the rent of a new token account, debited before anything else. -/
def chargeFees (cfg : CopyConfig) (s : Simulator) (order : SwapInput) :
    Simulator × Except SimulationError Unit :=
  if s.lamportsBal < cfg.maxFeeCost then (s, .error .insufficientLamportBalance)
  else
    let s := { s with lamportsBal := s.lamportsBal - cfg.maxFeeCost }
    if (s.tokenBalances order.outputTokenMint).isSome then (s, .ok ())
    else if s.lamportsBal < tokenAccountCreationLamports then
      (s, .error .insufficientLamportBalance)
    else ({ s with lamportsBal := s.lamportsBal - tokenAccountCreationLamports }, .ok ())

/-- A token balance is credited, or opened with the amount. -/
def credit (s : Simulator) (token : Pubkey) (amount : ℕ) : Simulator :=
  { s with
    tokenBalances := Function.update s.tokenBalances token
      (some (match s.tokenBalances token with
        | some balance => wrapU64 (balance + amount)
        | none => amount)) }

/-- A token balance is debited, if it covers the amount. -/
def debit (s : Simulator) (token : Pubkey) (amount : ℕ) : Except SimulationError Simulator :=
  match s.tokenBalances token with
  | none => .error .tokenNotHeld
  | some balance =>
    if balance < amount then .error (.insufficientTokenBalance token)
    else
      .ok { s with
        tokenBalances := Function.update s.tokenBalances token (some (balance - amount)) }

/-- The balances are changed as the copy type says. -/
def swapBalances (s : Simulator) (x : SimulatedExecution) : Except SimulationError Simulator :=
  match x.copyType with
  | .buy =>
    if s.lamportsBal < x.order.amount then .error .insufficientLamportBalance
    else
      .ok (credit { s with lamportsBal := s.lamportsBal - x.order.amount } x.order.outputTokenMint
        x.outAmount)
  | .sell =>
    (s.debit x.order.inputTokenMint x.order.amount).map fun s =>
      { s with lamportsBal := wrapU64 (s.lamportsBal + x.outAmount) }
  | .both =>
    (s.debit x.order.inputTokenMint x.order.amount).map fun s =>
      s.credit x.order.outputTokenMint x.outAmount

/-- One side is entered into the trade history. -/
def recordDirect (s : Simulator) (originSigner token : Pubkey) (v : TradeEntry)
    (direction : TradeDirection) : Except SimulationError Simulator :=
  match s.shared.history.insertTradeInner originSigner token v direction with
  | .error e => .error (.trade e)
  | .ok history => .ok { s with shared := { s.shared with history } }

/-- One side is entered into the ping tracker. -/
def recordPing (cfg : CopyConfig) (s : Simulator) (token : Pubkey) (decimals amount : ℕ)
    (priceUsd priceSol : F64) (direction : TradeDirection) : Except SimulationError Simulator :=
  match s.shared.pingTracker with
  | none => .error .pingTrackerNotSet
  | some tracker =>
    match tracker.insertExecution cfg.rounding token decimals amount priceUsd priceSol direction
        (some cfg.moonbagBps) with
    | .error e => .error (.trade e)
    | .ok (tracker, _) => .ok { s with shared := { s.shared with pingTracker := some tracker } }

/-- The bought side is recorded in the mode of the wallet. -/
def recordBuy (cfg : CopyConfig) (s : Simulator) (t : SimulatedSwap) (decimals : TokenDecimals)
    (mode : CopyMode) (x : SimulatedExecution) : Except SimulationError Simulator :=
  match mode with
  | .direct =>
    s.recordDirect t.originSigner x.order.outputTokenMint (x.buyEntry t.swap decimals) .buy
  | .ping =>
    s.recordPing cfg x.order.outputTokenMint x.outputDecimals x.outAmount x.outputPriceUsd
      (x.inSol x.outputPriceUsd) .buy

/-- The sold side is recorded in the mode of the wallet; the ping tracker has to be set in
the direct mode too. -/
def recordSell (cfg : CopyConfig) (s : Simulator) (t : SimulatedSwap) (decimals : TokenDecimals)
    (mode : CopyMode) (x : SimulatedExecution) : Except SimulationError Simulator :=
  if s.shared.pingTracker.isNone then .error .pingTrackerNotSet
  else
    match mode with
    | .direct =>
      s.recordDirect t.originSigner x.order.inputTokenMint (x.sellEntry t.swap decimals) .sell
    | .ping =>
      s.recordPing cfg x.order.inputTokenMint x.inputDecimals x.order.amount x.inputPriceUsd
        (x.inSol x.inputPriceUsd) .sell

/-- A part of `process_swap` that the copy type may leave out. -/
def recordIf (traded : Bool) (record : Simulator → Except SimulationError Simulator)
    (s : Simulator) : Simulator × Except SimulationError Unit :=
  if traded then
    match record s with
    | .error e => (s, .error e)
    | .ok s => (s, .ok ())
  else (s, .ok ())

/-- The trades are recorded: the buy before the sell. -/
def recordTrades (cfg : CopyConfig) (s : Simulator) (t : SimulatedSwap)
    (decimals : TokenDecimals) (mode : CopyMode) (x : SimulatedExecution) :
    Simulator × Except SimulationError Unit :=
  match recordIf x.copyType.buys (fun s => s.recordBuy cfg t decimals mode x) s with
  | (s, .error e) => (s, .error e)
  | (s, .ok _) => recordIf x.copyType.sells (fun s => s.recordSell cfg t decimals mode x) s

/-- What a sized order does to the simulator. -/
def bookExecution (cfg : CopyConfig) (s : Simulator) (t : SimulatedSwap)
    (decimals : TokenDecimals) (mode : CopyMode) (x : SimulatedExecution) :
    Simulator × Except SimulationError Unit :=
  match s.chargeFees cfg x.order with
  | (s, .error e) => (s, .error e)
  | (s, .ok _) =>
    match s.swapBalances x with
    | .error e => (s, .error e)
    | .ok s => s.recordTrades cfg t decimals mode x

/-- `process_swap`: the simulator afterwards, and the error if it fails. -/
def processSwap (cfg : CopyConfig) (env : SimulationEnv) (s : Simulator) (t : SimulatedSwap) :
    Simulator × Except SimulationError Unit :=
  match s.wallets t.originSigner with
  | none => (s, .ok ())
  | some w =>
    match t.swap.tokenDecimals with
    | none => (s, .error .tokenDecimals)
    | some decimals =>
      let s := s.noteDecimals t.swap decimals
      match getExecutionInput cfg env.exec s.shared (t.details cfg w) with
      | (shared, _, .error e) => ({ s with shared }, .error (.exec e))
      | (shared, _, .ok none) => ({ s with shared }, .ok ())
      | (shared, d, .ok (some order)) =>
        let s := { s with shared }
        match simulateExecution cfg env s.solPriceHistory t decimals d.copyType order with
        | .error e => (s, .error e)
        | .ok x => s.bookExecution cfg t decimals w.mode x

end Simulator

end Biscuit.Copy
