import Biscuit.Models.Chain.Wire
import Biscuit.Models.Copy.Direct
import Biscuit.Models.Copy.Ping

/-!
# From an origin swap to a transaction

`get_execution_input` resolves the mints and derives an order in the mode of the wallet;
`process_execution_input` asks the executor for a quote and a transaction and sets the
fee. Answers of the network and of the executor are arguments.
-/

namespace Biscuit.Copy

/-- What the tasks of the copy service share. -/
structure Shared where
  history : HistoricalTrades
  pingTracker : Option PingTracker
  buyDisabled : Bool

/-- The answers one run of `get_execution_input` gets. -/
structure ExecEnv where
  /-- The decimals of the two mints, where their accounts decode; none when the fetch fails. -/
  mintInfo : Option (Option ℕ × Option ℕ)
  /-- The prices the feed knows. -/
  priceFeed : PriceFeed
  /-- Whether buys are disabled for the origin wallet alone. -/
  walletBuysDisabled : Bool

/-- Buys are disabled globally or for the wallet. -/
def buysDisabled (env : ExecEnv) (s : Shared) : Bool := s.buyDisabled || env.walletBuysDisabled

/-- `process_ping`: a seen swap is entered into the tracker first. The order takes the
amount of the buy side whichever side it copies, so a sell alone gives none. -/
def processPing (cfg : CopyConfig) (env : ExecEnv) (s : Shared) (d : CopyDetails) :
    Shared × CopyDetails × Except ExecError (Option SwapInput) :=
  match s.pingTracker with
  | none => (s, d, .error .pingTrackerNotSet)
  | some tracker =>
    let (tracker, inserted) :=
      tracker.insertSwap cfg.rounding d.originSigner d.originSignature d.originSwap env.priceFeed
    let s := { s with pingTracker := some tracker }
    match inserted with
    | .error .tokenDecimals => (s, d, .error .tokenDecimals)
    | .error .solPrice => (s, d, .error .solPrice)
    | .ok pinged =>
      match d.originInputMintBalance with
      | none => (s, d, .error (.nullInputBalance d.originSwap.inputTokenMint))
      | some balance =>
        let tokenInput := tracker.getTokenInput cfg.rounding d.originSwap.inputTokenMint
          d.originSigner d.originSwap.inputAmount balance.post
        let inputAmount :=
          if pinged && !buysDisabled env s then
            tracker.getLamportsInput d.originSwap.outputTokenMint
          else none
        match tokenInput, inputAmount with
        | some _, some lamports =>
          (s, { d with copyType := some .both },
            .ok (some (exactInOrder cfg d.originSwap.inputTokenMint d.originSwap.outputTokenMint
              lamports)))
        | some _, none => (s, { d with copyType := some .sell }, .ok none)
        | none, some lamports =>
          (s, { d with copyType := some .buy },
            .ok (some (exactInOrder cfg SOL d.originSwap.outputTokenMint lamports)))
        | none, none => (s, d, .ok none)

/-- The decimals of both mints, when both are known. -/
def tokenDecimals : Option ℕ × Option ℕ → Option TokenDecimals
  | (some input, some output) => some ⟨input, output⟩
  | _ => none

/-- The details with the decimals of the mints filled in. -/
def CopyDetails.resolved (d : CopyDetails) (mints : Option ℕ × Option ℕ) : CopyDetails :=
  { d with originSwap := { d.originSwap with tokenDecimals := tokenDecimals mints } }

/-- The order in the mode of the wallet. -/
def processMode (cfg : CopyConfig) (env : ExecEnv) (s : Shared) (d : CopyDetails) :
    Shared × CopyDetails × Except ExecError (Option SwapInput) :=
  match d.walletConfig.mode with
  | .direct =>
    let (history, d, result) := processDirect cfg (buysDisabled env s) s.history d
    ({ s with history }, d, result)
  | .ping => processPing cfg env s d

/-- An order of nothing is none. -/
def nonzeroOrder : Option SwapInput → Option SwapInput
  | some input => if input.amount = 0 then none else some input
  | none => none

/-- `get_execution_input`: nothing is derived from a swap of a token for itself, and an
order of nothing is dropped. -/
def getExecutionInput (cfg : CopyConfig) (env : ExecEnv) (s : Shared) (d : CopyDetails) :
    Shared × CopyDetails × Except ExecError (Option SwapInput) :=
  match env.mintInfo with
  | none => (s, d, .error .mintInfo)
  | some mints =>
    let d := d.resolved mints
    if d.originSwap.inputTokenMint = d.originSwap.outputTokenMint then (s, d, .ok none)
    else
      let (s, d, result) := processMode cfg env s d
      (s, d, result.map nonzeroOrder)

/-- The ping mode enters the swap into the tracker and sets the copy type of the details. -/
theorem processPing_eq (cfg : CopyConfig) (env : ExecEnv) (s : Shared) (d : CopyDetails) :
    ∃ copyType result, processPing cfg env s d =
      ({ s with
          pingTracker := s.pingTracker.map fun tracker =>
            (tracker.insertSwap cfg.rounding d.originSigner d.originSignature d.originSwap
              env.priceFeed).1 },
        { d with copyType }, result) := by
  unfold processPing
  cases hs : s.pingTracker with
  | none =>
    have hkeep : { s with pingTracker := none } = s := by rw [← hs]
    exact ⟨d.copyType, _, by rw [Option.map_none, hkeep]⟩
  | some tracker =>
    simp only [Option.map_some]
    generalize tracker.insertSwap cfg.rounding d.originSigner d.originSignature d.originSwap
      env.priceFeed = inserted
    obtain ⟨tracker', pinged⟩ := inserted
    cases pinged with
    | error e => cases e <;> exact ⟨_, _, rfl⟩
    | ok pinged =>
      simp only
      split
      · exact ⟨_, _, rfl⟩
      · split <;> exact ⟨_, _, rfl⟩

/-- The tracker after the ping mode is the one with the swap entered, whatever comes of it. -/
theorem processPing_pingTracker {cfg : CopyConfig} {env : ExecEnv} {s : Shared}
    {d : CopyDetails} {tracker : PingTracker} (hs : s.pingTracker = some tracker) :
    (processPing cfg env s d).1.pingTracker =
      some (tracker.insertSwap cfg.rounding d.originSigner d.originSignature d.originSwap
        env.priceFeed).1 := by
  obtain ⟨copyType, result, h⟩ := processPing_eq cfg env s d
  rw [h, hs]
  rfl

/-- The ping mode only sets the copy type of the details. -/
theorem processPing_details (cfg : CopyConfig) (env : ExecEnv) (s : Shared)
    (d : CopyDetails) :
    ∃ copyType, (processPing cfg env s d).2.1 = { d with copyType } := by
  obtain ⟨copyType, result, h⟩ := processPing_eq cfg env s d
  rw [h]
  exact ⟨copyType, rfl⟩

/-- An order of the ping mode buys what the origin wallet bought, for what it sold or for SOL. -/
theorem processPing_order {cfg : CopyConfig} {env : ExecEnv} {s s' : Shared}
    {d d' : CopyDetails} {order : SwapInput}
    (hok : processPing cfg env s d = (s', d', .ok (some order))) :
    order.outputTokenMint = d.originSwap.outputTokenMint ∧
      (d'.copyType = some .both ∧ order.inputTokenMint = d.originSwap.inputTokenMint ∨
        d'.copyType = some .buy ∧ order.inputTokenMint = SOL) := by
  unfold processPing at hok
  split at hok
  · simp at hok
  · split at hok
    simp only at hok
    split at hok
    · simp at hok
    · simp at hok
    · split at hok
      · simp at hok
      · split at hok
        · simp only [Prod.mk.injEq, Except.ok.injEq, Option.some.injEq] at hok
          obtain ⟨-, rfl, rfl⟩ := hok
          exact ⟨rfl, .inl ⟨rfl, rfl⟩⟩
        · simp at hok
        · simp only [Prod.mk.injEq, Except.ok.injEq, Option.some.injEq] at hok
          obtain ⟨-, rfl, rfl⟩ := hok
          exact ⟨rfl, .inr ⟨rfl, rfl⟩⟩
        · simp at hok

/-- The ping mode leaves the trade history alone. -/
theorem processPing_history (cfg : CopyConfig) (env : ExecEnv) (s : Shared)
    (d : CopyDetails) : (processPing cfg env s d).1.history = s.history := by
  obtain ⟨copyType, result, h⟩ := processPing_eq cfg env s d
  rw [h]

/-- Deriving an order fills in the decimals and sets the copy type. -/
theorem getExecutionInput_details (cfg : CopyConfig) (env : ExecEnv) (s : Shared)
    (d : CopyDetails) :
    ∃ tokenDecimals copyType, (getExecutionInput cfg env s d).2.1 =
      { d with originSwap := { d.originSwap with tokenDecimals }, copyType } := by
  unfold getExecutionInput
  cases env.mintInfo with
  | none => exact ⟨_, _, rfl⟩
  | some mints =>
    simp only
    split
    · exact ⟨_, _, rfl⟩
    · simp only [processMode]
      split
      · obtain ⟨copyType, h⟩ := processDirect_details cfg (buysDisabled env s) s.history
          (d.resolved mints)
        exact ⟨_, copyType, h⟩
      · obtain ⟨copyType, h⟩ := processPing_details cfg env s (d.resolved mints)
        exact ⟨_, copyType, h⟩

/-- Deriving an order drops one entry at most. -/
theorem getExecutionInput_history (cfg : CopyConfig) (env : ExecEnv) (s : Shared)
    (d : CopyDetails) :
    (getExecutionInput cfg env s d).1.history = s.history ∨
      (getExecutionInput cfg env s d).1.history = s.history.remove d.sellKey := by
  unfold getExecutionInput
  cases env.mintInfo with
  | none => exact .inl rfl
  | some mints =>
    simp only
    split
    · exact .inl rfl
    · simp only [processMode]
      split
      · have hcase := processDirect_cases cfg (buysDisabled env s) s.history (d.resolved mints)
        generalize processDirect cfg (buysDisabled env s) s.history (d.resolved mints) = result
          at hcase ⊢
        cases hcase with
        | unresolved hdec => exact .inl rfl
        | exhausted c hdec hc hleft => exact .inl rfl
        | skipSell c hdec hc hleft hzero =>
          cases c.isFullExit cfg.rounding (d.resolved mints).originSwap.inputAmount with
          | false => exact .inl rfl
          | true => exact .inr rfl
        | sell c order copyType hdec hc hleft hpos horder =>
          cases c.isFullExit cfg.rounding (d.resolved mints).originSwap.inputAmount with
          | false => exact .inl rfl
          | true => exact .inr rfl
        | skipBuy hdec hc hskip => exact .inl rfl
        | buy order hdec hc hbuy hout hin hmint => exact .inl rfl
      · exact .inl (processPing_history cfg env s (d.resolved mints))

/-- Sizing neither sets a ping tracker nor takes it away. -/
theorem getExecutionInput_isSome (cfg : CopyConfig) (env : ExecEnv) (s : Shared)
    (d : CopyDetails) :
    (getExecutionInput cfg env s d).1.pingTracker.isSome = s.pingTracker.isSome := by
  unfold getExecutionInput
  cases env.mintInfo with
  | none => rfl
  | some mints =>
    simp only
    split_ifs
    · rfl
    · simp only [processMode]
      split
      · rfl
      · obtain ⟨copyType, result, h⟩ := processPing_eq cfg env s (d.resolved mints)
        rw [h, Option.isSome_map]

/-- An order that is given is one of the wallet's mode for two different mints, and not an
order of nothing. -/
theorem getExecutionInput_eq_order {cfg : CopyConfig} {env : ExecEnv} {s s' : Shared}
    {d d' : CopyDetails} {input : SwapInput}
    (h : getExecutionInput cfg env s d = (s', d', .ok (some input))) :
    ∃ mints, env.mintInfo = some mints ∧
      d.originSwap.inputTokenMint ≠ d.originSwap.outputTokenMint ∧ input.amount ≠ 0 ∧
      processMode cfg env s (d.resolved mints) = (s', d', .ok (some input)) := by
  unfold getExecutionInput at h
  cases hmints : env.mintInfo with
  | none =>
    rw [hmints] at h
    cases h
  | some mints =>
    rw [hmints] at h
    simp only at h
    split at h
    · cases h
    · rename_i hne
      generalize hmode : processMode cfg env s (d.resolved mints) = result at h
      obtain ⟨s₁, d₁, given⟩ := result
      cases given with
      | error e => cases congrArg (fun r => r.2.2) h
      | ok found =>
        cases found with
        | none => cases congrArg (fun r => r.2.2) h
        | some order =>
          simp only [Except.map, nonzeroOrder, Prod.mk.injEq, Except.ok.injEq] at h
          obtain ⟨rfl, rfl, hresult⟩ := h
          split at hresult
          · cases hresult
          · rename_i hpos
            obtain rfl := Option.some.inj hresult
            exact ⟨mints, rfl, hne, hpos, hmode⟩

/-! ## Building a transaction -/

/-- What the executor answers for an order: it quotes the mints and the amount it was
asked for. -/
structure QuoteAnswer where
  inputTokenDecimals : Option ℕ
  outputTokenDecimals : Option ℕ
  otherAmount : ℕ
  otherAmountThreshold : ℕ

/-- `QuoteDetails::from_quote_response` for an order. -/
def QuoteAnswer.details (q : QuoteAnswer) (input : SwapInput) : QuoteDetails where
  inputTokenDecimals := q.inputTokenDecimals
  outputTokenDecimals := q.outputTokenDecimals
  inputMint := input.inputTokenMint
  outputMint := input.outputTokenMint
  amountSpecifiedIsInput := input.mode == .exactIn
  amount := input.amount
  otherAmount := q.otherAmount
  otherAmountThreshold := q.otherAmountThreshold

/-- The answers one attempt to build a transaction gets. -/
structure BuildEnv where
  /-- The quote, unless the request fails. -/
  quote : Option QuoteAnswer
  /-- The tip that 95% of the landed tips stay under. -/
  tipP95 : ℕ
  /-- The compute unit limit of the built transaction, unless building fails. -/
  transaction : Option ℕ

/-- How a transaction pays for its priority. -/
inductive PriorityFeeConfig
  | fixedCuPrice (price : ℕ)
  | jitoTip (lamports : ℕ)
  deriving DecidableEq, Repr

/-- The fee settings of a built transaction. -/
structure BuiltTransaction where
  priorityFee : PriorityFeeConfig
  /-- The compute unit price written into the transaction when it does not go to Jito. -/
  cuPrice : Option ℕ
  deriving DecidableEq, Repr

/-- Micro-lamports in one lamport. -/
def microLamportsPerLamport : ℕ := 1000000

/-- `calculate_cu_price`: the price per compute unit that spends a fee. -/
def calculateCuPrice (priorityFee computeUnits : ℕ) : ℕ :=
  min ((priorityFee * microLamportsPerLamport - (microLamportsPerLamport - 1)) /
    (computeUnits + 1)) maxU64

/-- The tip before retries add to it. -/
def baseFee (cfg : CopyConfig) (tipP95 : ℕ) : ℕ :=
  min cfg.maxFeeLamports (max cfg.minFeeLamports (wrapU64 (tipP95 + 1)))

/-- The fee of an attempt: every retry of an unconfirmed transaction adds to it. -/
def attemptFee (cfg : CopyConfig) (tipP95 sendTxnRetries : ℕ) : ℕ :=
  wrapU64 (baseFee cfg tipP95 + wrapU64 (sendTxnRetries * cfg.feeIncreaseMultiplier))

/-- `process_execution_input`: the details afterwards and the transaction. The fee is set
before the transaction is built, the quote after it. -/
def processExecutionInput (cfg : CopyConfig) (env : BuildEnv) (input : SwapInput)
    (d : CopyDetails) : CopyDetails × Option BuiltTransaction :=
  match env.quote with
  | none => (d, none)
  | some q =>
    let fee := attemptFee cfg env.tipP95 d.sendTxnRetries
    let d := { d with lastFeeLamports := fee }
    match env.transaction with
    | none => (d, none)
    | some computeUnitLimit =>
      let transaction : BuiltTransaction :=
        if d.sendToJito then ⟨.jitoTip fee, none⟩
        else ⟨.fixedCuPrice 150000, some (calculateCuPrice fee computeUnitLimit)⟩
      ({ d with quoteOutput := some (q.details input) }, some transaction)

/-! ## What a confirmation asks for -/

/-- What `handle_confirmation` does with the details of a pending transaction. -/
inductive Disposition
  /-- Execute it once more. -/
  | execute (d : CopyDetails)
  /-- Send the same bytes again. -/
  | resend (d : CopyDetails) (tx : List UInt8)
  /-- Give it up. -/
  | failed (d : CopyDetails)
  /-- Record it. -/
  | success (d : CopyDetails)

/-- The fee level after one more unconfirmed attempt. -/
def PriorityLevel.next : PriorityLevel → PriorityLevel
  | .medium => .high
  | .high => .veryHigh
  | .veryHigh => .veryHigh
  | _ => .high

/-- The details of a transaction that failed on chain, for its next execution. -/
def CopyDetails.retryError (d : CopyDetails) : CopyDetails :=
  { d with sendTxnRetries := 0, confirmedErrorRetries := d.confirmedErrorRetries + 1 }

/-- The details of an unconfirmed transaction, for its next execution; the last one always
goes to Jito. -/
def CopyDetails.retryUnconfirmed (cfg : CopyConfig) (d : CopyDetails) : CopyDetails :=
  { d with
    sendTxnRetries := d.sendTxnRetries + 1
    sendToJito := d.sendToJito || d.sendTxnRetries + 1 == cfg.sendTxnRetries
    nextPriorityLevel := d.nextPriorityLevel.next }

/-- `handle_confirmation`, for the details of the transaction it is about. -/
def handleConfirmation (cfg : CopyConfig) (d : CopyDetails) :
    ConfirmTransactionResponse → Disposition
  | .confirmed (some _) _ =>
    if d.confirmedErrorRetries < cfg.confirmedErrorRetries then .execute d.retryError
    else .failed d
  | .confirmed none _ => .success d
  | .unconfirmed _ =>
    if d.sendTxnRetries < cfg.sendTxnRetries then
      match d.retryStrategy with
      | .buildTransaction => .execute (d.retryUnconfirmed cfg)
      | .sendRaw tx => .resend (d.retryUnconfirmed cfg) tx
    else .failed d

end Biscuit.Copy
