import Biscuit.Models.Copy.Execution

/-!
# Settling an execution

A confirmed transaction is recorded as the trades it made; a transaction that is given up
still counts as a sell of the origin wallet. Prices and the received amount come from the
network and are arguments.
-/

namespace Biscuit.Copy

/-- A trade handed to the storage task. -/
structure CopyTrade where
  token : Pubkey
  originWallet : Pubkey
  originSignature : Signature
  execSignature : Signature
  direction : TradeDirection
  volume : TradeVolume
  deriving DecidableEq, Repr

/-- The answers that recording a confirmed transaction gets. -/
structure SuccessEnv where
  /-- The prices of the executed swap. -/
  execPrice : Price
  /-- The prices of the origin swap. -/
  originPrice : Price
  /-- The amount received and the lamports left, when the transaction can be read. -/
  amountOut : Option (ℕ × ℕ)

/-- The answers that recording a failed execution gets. -/
structure FailureEnv where
  /-- The decimals of the origin swap, when its mint accounts can be read; an account that is too
  short for a mint is a panic of the main task. -/
  decimals : Option TokenDecimals
  originPrice : Price

/-- `handle_failed_execution`: a wallet that sold a token we hold has sold it, whether or
not we did. -/
def handleFailedExecution (env : FailureEnv) (h : HistoricalTrades) (d : CopyDetails) :
    HistoricalTrades :=
  match h d.sellKey with
  | none => h
  | some history =>
    match env.decimals with
    | none => h
    | some decimals =>
      let amount := d.originSwap.inputAmount
      h.insert d.sellKey
        { history with
          origin := history.origin.addSell amount
            (HistoricalTrades.priced amount env.originPrice.inputPriceUsd decimals.input)
            (HistoricalTrades.priced amount env.originPrice.inputPriceSol decimals.input) }

/-- What giving an execution up does to the history. -/
inductive FailureCase (env : FailureEnv) (h : HistoricalTrades) (d : CopyDetails) :
    HistoricalTrades → Prop
  /-- The origin wallet's sell is not counted. -/
  | unrecorded (hno : h d.sellKey = none ∨ env.decimals = none) : FailureCase env h d h
  /-- The origin wallet's sell is added to the entry of its token. -/
  | recorded (c : CopyHistory) (usd sol : F64) (hc : h d.sellKey = some c)
      (hdec : env.decimals.isSome = true) :
      FailureCase env h d
        (h.insert d.sellKey
          { c with origin := c.origin.addSell d.originSwap.inputAmount usd sol })

theorem handleFailedExecution_cases (env : FailureEnv) (h : HistoricalTrades)
    (d : CopyDetails) : FailureCase env h d (handleFailedExecution env h d) := by
  unfold handleFailedExecution
  cases hc : h d.sellKey with
  | none => exact .unrecorded (.inl hc)
  | some c =>
    cases hdec : env.decimals with
    | none => exact .unrecorded (.inr hdec)
    | some decimals => exact .recorded c _ _ hc (by rw [hdec]; rfl)

namespace QuoteDetails

/-- The decimals of the token that was sold; a quote that leaves them out is for a token
with known decimals or for the input token of the origin swap. -/
def inputDecimals (q : QuoteDetails) (originInputMint : Pubkey) (origin : TokenDecimals) :
    Option ℕ :=
  match q.inputTokenDecimals with
  | some decimals => some decimals
  | none =>
    if q.inputMint = SOL then some 9
    else if q.inputMint = USDC ∨ q.inputMint = USDT then some 6
    else if q.inputMint = originInputMint then some origin.input
    else none

/-- The decimals of the token that was bought. -/
def outputDecimals (q : QuoteDetails) (originOutputMint : Pubkey) (origin : TokenDecimals) :
    Option ℕ :=
  match q.outputTokenDecimals with
  | some decimals => some decimals
  | none =>
    if q.outputMint = originOutputMint then some origin.output
    else if q.outputMint = USDC ∨ q.outputMint = USDT then some 6
    else if q.outputMint = SOL then some 9
    else none

/-- The decimals are known of what is sold for the origin wallet or of SOL. -/
theorem exists_inputDecimals {q : QuoteDetails} {originInputMint : Pubkey} (origin : TokenDecimals)
    (h : q.inputMint = originInputMint ∨ q.inputMint = SOL) :
    ∃ decimals, q.inputDecimals originInputMint origin = some decimals := by
  unfold inputDecimals
  cases q.inputTokenDecimals with
  | some decimals => exact ⟨decimals, rfl⟩
  | none =>
    simp only
    split_ifs with hsol hstable horigin
    · exact ⟨_, rfl⟩
    · exact ⟨_, rfl⟩
    · exact ⟨_, rfl⟩
    · exact (h.elim horigin hsol).elim

/-- The decimals are known of what is bought for the origin wallet or of SOL. -/
theorem exists_outputDecimals {q : QuoteDetails} {originOutputMint : Pubkey}
    (origin : TokenDecimals) (h : q.outputMint = originOutputMint ∨ q.outputMint = SOL) :
    ∃ decimals, q.outputDecimals originOutputMint origin = some decimals := by
  unfold outputDecimals
  cases q.outputTokenDecimals with
  | some decimals => exact ⟨decimals, rfl⟩
  | none =>
    simp only
    split_ifs with horigin hstable hsol
    · exact ⟨_, rfl⟩
    · exact ⟨_, rfl⟩
    · exact ⟨_, rfl⟩
    · exact (h.elim horigin hsol).elim

/-- What the transaction is taken to have received, never less than the threshold. -/
def actualAmountOut (q : QuoteDetails) (amountOut : Option (ℕ × ℕ)) : ℕ :=
  match amountOut with
  | some (amount, _) => max amount q.otherAmountThreshold
  | none => q.otherAmountThreshold

end QuoteDetails

/-- Buys are switched by the lamports that the transaction left. -/
def Shared.switchBuys (s : Shared) (cfg : CopyConfig) (amountOut : Option (ℕ × ℕ)) : Shared :=
  match amountOut with
  | some (_, postBalance) => { s with buyDisabled := decide (postBalance ≤ cfg.disableBuyLamports) }
  | none => s

/-- What one side of a confirmed swap is recorded with. -/
structure TradeSide where
  token : Pubkey
  decimals : ℕ
  execVolume : ℕ
  originVolume : ℕ
  execPriceUsd : F64
  execPriceSol : F64
  originPriceUsd : F64
  originPriceSol : F64
  direction : TradeDirection

/-- Record one side of a confirmed swap in the book of the wallet's mode; a side that is
refused is left out. -/
def Shared.record (s : Shared) (cfg : CopyConfig) (d : CopyDetails) (signature : Signature)
    (side : TradeSide) : Shared × List CopyTrade :=
  match d.walletConfig.mode with
  | .direct =>
    match s.history.insertTrade cfg.rounding d.originSigner side.token side.decimals side.execVolume
        side.originVolume side.execPriceUsd side.execPriceSol side.originPriceUsd
        side.originPriceSol side.direction (some cfg.moonbagBps) with
    | .error _ => (s, [])
    | .ok (history, volume) =>
      ({ s with history },
        [{ token := side.token
           originWallet := d.originSigner
           originSignature := d.originSignature
           execSignature := signature
           direction := side.direction
           volume }])
  | .ping =>
    match s.pingTracker with
    | none => (s, [])
    | some tracker =>
      match tracker.insertExecution cfg.rounding side.token side.decimals side.execVolume
          side.execPriceUsd side.execPriceSol side.direction (some cfg.moonbagBps) with
      | .error _ => (s, [])
      | .ok (tracker, _) => ({ s with pingTracker := some tracker }, [])

/-- The sold side of a confirmed swap; the quote is known to fix its input. -/
def sellSide (env : SuccessEnv) (d : CopyDetails) (q : QuoteDetails) (decimals : ℕ) :
    TradeSide where
  token := d.originSwap.inputTokenMint
  decimals := decimals
  execVolume := q.amount
  originVolume := d.originSwap.inputAmount
  execPriceUsd := env.execPrice.inputPriceUsd
  execPriceSol := env.execPrice.inputPriceSol
  originPriceUsd := env.originPrice.inputPriceUsd
  originPriceSol := env.originPrice.inputPriceSol
  direction := .sell

/-- The bought side of a confirmed swap. -/
def buySide (env : SuccessEnv) (d : CopyDetails) (q : QuoteDetails) (decimals : ℕ) :
    TradeSide where
  token := d.originSwap.outputTokenMint
  decimals := decimals
  execVolume := q.actualAmountOut env.amountOut
  originVolume := d.originSwap.outputAmount
  execPriceUsd := env.execPrice.outputPriceUsd
  execPriceSol := env.execPrice.outputPriceSol
  originPriceUsd := env.originPrice.outputPriceUsd
  originPriceSol := env.originPrice.outputPriceSol
  direction := .buy

/-- Record one side of a confirmed swap if the order trades it. -/
def Shared.recordIf (s : Shared) (cfg : CopyConfig) (d : CopyDetails) (signature : Signature)
    (traded : Bool) (side : TradeSide) : Shared × List CopyTrade :=
  if traded then s.record cfg d signature side else (s, [])

/-- `handle_success_txn`: the sell is recorded before the buy. No answer means that an
`expect` or an `unwrap` of the source panics. -/
def handleSuccessTxn (cfg : CopyConfig) (env : SuccessEnv) (s : Shared) (d : CopyDetails)
    (signature : Signature) : Option (Shared × List CopyTrade) :=
  match d.originSwap.tokenDecimals with
  | none => some (s, [])
  | some origin =>
    match d.quoteOutput with
    | none => none
    | some q =>
      match q.inputDecimals d.originSwap.inputTokenMint origin,
          q.outputDecimals d.originSwap.outputTokenMint origin, d.copyType with
      | some inDecimals, some outDecimals, some copyType =>
        let s := s.switchBuys cfg env.amountOut
        let (s, sells) := s.recordIf cfg d signature copyType.sells (sellSide env d q inDecimals)
        let (s, buys) := s.recordIf cfg d signature copyType.buys (buySide env d q outDecimals)
        some (s, sells ++ buys)
      | _, _, _ => none

/-! ## Sample answers -/

/-- Both mints can be read, no prices are known, and the wallet may buy. -/
def sampleEnv : ExecEnv := ⟨some (some 6, some 9), fun _ => none, false⟩

/-- The quote and the prices do not matter to the volumes in tokens. -/
def sampleQuote : QuoteAnswer := ⟨some 9, some 6, 0, 0⟩

/-- A confirmed transaction that received an amount. -/
def sampleSuccess (amountOut : ℕ) : SuccessEnv := ⟨{}, {}, some (amountOut, 1000000)⟩

/-- A quote is given and a transaction is built. -/
def sampleBuild : BuildEnv := ⟨some sampleQuote, 100, some 200000⟩

/-- A failed execution whose decimals can be read. -/
def sampleFailure : FailureEnv := ⟨some ⟨6, 9⟩, {}⟩

end Biscuit.Copy
