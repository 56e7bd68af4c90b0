import Biscuit.Models.Copy.Book

/-!
# Prices of a swap

`get_token_prices` knows the price of SOL and of the stablecoins, asks for prices when it
knows neither side, and derives a missing price from the amounts of the swap. What the feed
and the request answer are arguments. Amounts and prices of zero make the derived prices
infinite or undefined.
-/

namespace Biscuit.Copy

/-- What the price sources answer. -/
structure PriceAnswers where
  /-- The price of SOL in the feed. -/
  sol : Option F64
  /-- The answer to a price request. -/
  requested : Pubkey → Option F64

/-- A price that needs no request. -/
def knownPrice (solPriceUsd : F64) (mint : Pubkey) : Option F64 :=
  if mint = USDC ∨ mint = USDT then some (.fin 1)
  else if mint = SOL then some solPriceUsd
  else none

/-- The prices of both sides that are known or requested: prices are only requested when
neither is known. -/
def askedPrices (answers : PriceAnswers) (solPriceUsd : F64) (inputMint outputMint : Pubkey) :
    Option F64 × Option F64 :=
  match knownPrice solPriceUsd inputMint, knownPrice solPriceUsd outputMint with
  | none, none => (answers.requested inputMint, answers.requested outputMint)
  | input, output => (input, output)

/-- `get_token_prices` -/
def getTokenPrices (answers : PriceAnswers) (solPriceUsd : Option F64)
    (inputMint outputMint : Pubkey)
    (inputAmount outputAmount inputTokenDecimals outputTokenDecimals : ℕ) : Option Price :=
  match solPriceUsd.or answers.sol with
  | none => none
  | some solPriceUsd =>
    let inputFactor := pow10 inputTokenDecimals
    let outputFactor := pow10 outputTokenDecimals
    let price (inputPriceUsd outputPriceUsd : F64) : Price :=
      { inputPriceUsd
        inputPriceSol := inputPriceUsd / solPriceUsd
        outputPriceUsd
        outputPriceSol := outputPriceUsd / solPriceUsd
        solPriceUsd }
    match askedPrices answers solPriceUsd inputMint outputMint with
    | (some inputPrice, some outputPrice) => some (price inputPrice outputPrice)
    | (some inputPrice, none) =>
      some (price inputPrice
        (F64.ofNat inputAmount * inputPrice / F64.ofNat outputAmount *
          (outputFactor / inputFactor)))
    | (none, some outputPrice) =>
      some (price
        (F64.ofNat outputAmount * outputPrice / F64.ofNat inputAmount *
          (inputFactor / outputFactor)) outputPrice)
    | (none, none) => none

/-- The prices of the executed swap, as recording asks for them. -/
def QuoteDetails.prices (q : QuoteDetails) (answers : PriceAnswers)
    (inputDecimals outputDecimals : ℕ) : Price :=
  let (inputAmount, outputAmount) :=
    if q.amountSpecifiedIsInput then (q.amount, q.otherAmount) else (q.otherAmount, q.amount)
  (getTokenPrices answers none q.inputMint q.outputMint inputAmount outputAmount inputDecimals
    outputDecimals).getD {}

/-- The prices of the origin swap, as recording asks for them. -/
def ResolvedSwap.prices (swap : ResolvedSwap) (answers : PriceAnswers)
    (decimals : TokenDecimals) : Price :=
  (getTokenPrices answers none swap.inputTokenMint swap.outputTokenMint swap.inputAmount
    swap.outputAmount decimals.input decimals.output).getD {}

/-- The answers that recording gets are the prices of the two swaps. -/
def SuccessEnv.Priced (env : SuccessEnv) (d : CopyDetails) : Prop :=
  ∀ origin q inputDecimals outputDecimals, d.originSwap.tokenDecimals = some origin →
    d.quoteOutput = some q →
    q.inputDecimals d.originSwap.inputTokenMint origin = some inputDecimals →
    q.outputDecimals d.originSwap.outputTokenMint origin = some outputDecimals →
    (∃ answers, env.execPrice = q.prices answers inputDecimals outputDecimals) ∧
    ∃ answers, env.originPrice = d.originSwap.prices answers origin

/-- The service records the trade: it settles an order that was sized and quoted, at the
prices of the two swaps. -/
def Produced (t : CopyTrade) : Prop :=
  ∃ (cfg : CopyConfig) (env : SuccessEnv) (s : Shared) (o : Order) (quote : QuoteAnswer)
    (signature : Signature) (s' : Shared) (trades : List CopyTrade),
    env.Priced (o.quoted quote) ∧
    handleSuccessTxn cfg env s (o.quoted quote) signature = some (s', trades) ∧ t ∈ trades

end Biscuit.Copy
