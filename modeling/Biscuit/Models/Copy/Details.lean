import Biscuit.Core.Binary64
import Biscuit.Models.Chain.Keys

/-!
# Copied swaps and their configuration

The records that travel through the copy service: the configuration, the swap of the
origin wallet, the order derived from it, the quote for that order and the details that
accompany one delivered origin transaction through every attempt to copy it.
-/

namespace Biscuit.Copy

/-- How a wallet is copied. -/
inductive CopyMode
  | direct
  | ping
  deriving DecidableEq, Repr

/-- The fee level asked of the fee estimator. -/
inductive PriorityLevel
  | min | low | medium | high | veryHigh | unsafeMax | default
  deriving DecidableEq, Repr

/-- The part of the configuration that sizing, execution and retries read. -/
structure CopyConfig where
  /-- Tolerable slippage in basis points. -/
  slippageBps : ℕ
  /-- The share of every buy that is left in the wallet. -/
  moonbagBps : ℕ
  /-- How often a quote and a transaction are asked for in one execution. -/
  executionRetries : ℕ
  /-- How often an unconfirmed transaction is executed again. -/
  sendTxnRetries : ℕ
  /-- How often a transaction that failed on chain is executed again. -/
  confirmedErrorRetries : ℕ
  /-- Size bound on the pending transactions. -/
  maxPendingQueueLength : ℕ
  /-- Size bound on the execution channel. -/
  maxExecutionQueueLength : ℕ
  /-- Whether transactions go to Jito from the first attempt on. -/
  sendJitoDefault : Bool
  /-- The least tip of a transaction. -/
  minFeeLamports : ℕ
  /-- The largest tip before retries add to it. -/
  maxFeeLamports : ℕ
  /-- What every retry adds to the tip. -/
  feeIncreaseMultiplier : ℕ
  /-- The fee level of the first attempt. -/
  priorityLevelDefault : PriorityLevel
  /-- Buys are disabled at or below this balance. -/
  disableBuyLamports : ℕ
  /-- How the arithmetic that sizes a sell rounds. No setting: the service computes in `f64`, which
  is `Rounding.binary64`, and `Rounding.exact` is its idealisation by rationals. -/
  rounding : Rounding

/-- The settings of one copied wallet; `copy_accounts_to_config` panics rather than
build one whose bounds are not in order. -/
structure WalletConfig where
  display : String
  minInputAmount : ℕ
  maxInputAmount : ℕ
  mode : CopyMode
  min_lt_max : minInputAmount < maxInputAmount

/-- The decimals of the two sides of a swap. -/
structure TokenDecimals where
  input : ℕ
  output : ℕ
  deriving DecidableEq, Repr

/-- A parsed swap of the origin wallet. -/
structure ResolvedSwap where
  inputAmount : ℕ
  outputAmount : ℕ
  inputTokenMint : Pubkey
  outputTokenMint : Pubkey
  tokenDecimals : Option TokenDecimals
  deriving DecidableEq, Repr

/-- A balance before and after the origin transaction. -/
structure Balance where
  pre : ℕ
  post : ℕ
  deriving DecidableEq, Repr

/-- Which side of a swap an amount fixes. -/
inductive SwapExecutionMode
  | exactIn
  | exactOut
  deriving DecidableEq, Repr

/-- An order for the swap executor. -/
structure SwapInput where
  inputTokenMint : Pubkey
  outputTokenMint : Pubkey
  slippageBps : ℕ
  amount : ℕ
  mode : SwapExecutionMode
  market : Option Pubkey
  deriving DecidableEq, Repr

/-- Which sides of the origin swap an order copies. -/
inductive CopyType
  /-- The origin wallet sold a token we copied it for, so we sell it too. -/
  | sell
  /-- The origin wallet bought a token, so we buy it too. -/
  | buy
  /-- The origin wallet sold a token for another token. -/
  | both
  deriving DecidableEq, Repr

/-- Whether the order sells the origin's input token. -/
def CopyType.sells : CopyType → Bool
  | .sell | .both => true
  | .buy => false

/-- Whether the order buys the origin's output token. -/
def CopyType.buys : CopyType → Bool
  | .buy | .both => true
  | .sell => false

/-- The quote a transaction was built from. -/
structure QuoteDetails where
  inputTokenDecimals : Option ℕ
  outputTokenDecimals : Option ℕ
  inputMint : Pubkey
  outputMint : Pubkey
  amountSpecifiedIsInput : Bool
  amount : ℕ
  otherAmount : ℕ
  otherAmountThreshold : ℕ
  deriving DecidableEq, Repr

/-- What a retry of an unconfirmed transaction does. -/
inductive RetryStrategy
  /-- Build a new transaction. -/
  | buildTransaction
  /-- Send the same bytes again under a new blockhash. -/
  | sendRaw (tx : List UInt8)
  deriving DecidableEq, Repr

/-- Everything the service knows about one delivered origin transaction. -/
structure CopyDetails where
  originSignature : Signature
  originSigner : Pubkey
  originSwap : ResolvedSwap
  originSolBalance : Option Balance
  originInputMintBalance : Option Balance
  sendTxnRetries : ℕ
  confirmedErrorRetries : ℕ
  retryStrategy : RetryStrategy
  walletConfig : WalletConfig
  nextPriorityLevel : PriorityLevel
  lastFeeLamports : ℕ
  sendToJito : Bool
  quoteOutput : Option QuoteDetails
  copyType : Option CopyType

namespace CopyDetails

/-- The wallet and the token that a sell of these details is booked under. -/
def sellKey (d : CopyDetails) : Pubkey × Pubkey := (d.originSigner, d.originSwap.inputTokenMint)

/-- The wallet and the token that a buy of these details is booked under. -/
def buyKey (d : CopyDetails) : Pubkey × Pubkey := (d.originSigner, d.originSwap.outputTokenMint)

end CopyDetails

/-- A parsed swap of a copied wallet. -/
structure OriginTrade where
  signature : Signature
  signer : Pubkey
  swap : ResolvedSwap
  solBalance : Option Balance
  inputMintBalance : Option Balance
  walletConfig : WalletConfig

/-- The details that `handle_wire_txn` starts a copy with. -/
def OriginTrade.details (cfg : CopyConfig) (t : OriginTrade) : CopyDetails where
  originSignature := t.signature
  originSigner := t.signer
  originSwap := t.swap
  originSolBalance := t.solBalance
  originInputMintBalance := t.inputMintBalance
  sendTxnRetries := 0
  confirmedErrorRetries := 0
  retryStrategy := .buildTransaction
  walletConfig := t.walletConfig
  nextPriorityLevel := cfg.priorityLevelDefault
  lastFeeLamports := 0
  sendToJito := cfg.sendJitoDefault
  quoteOutput := none
  copyType := none

/-- Prices of the two tokens of a swap, as `get_token_prices` gives them. -/
structure Price where
  inputPriceUsd : F64 := .fin 0
  outputPriceUsd : F64 := .fin 0
  inputPriceSol : F64 := .fin 0
  outputPriceSol : F64 := .fin 0
  solPriceUsd : F64 := .fin 0
  deriving DecidableEq, Repr

instance : Inhabited Price := ⟨{}⟩

/-! ## A sample wallet -/

/-- A configuration without a moonbag. -/
def sampleConfig : CopyConfig where
  slippageBps := 100
  moonbagBps := 0
  executionRetries := 2
  sendTxnRetries := 2
  confirmedErrorRetries := 1
  maxPendingQueueLength := 5
  maxExecutionQueueLength := 2
  sendJitoDefault := false
  minFeeLamports := 10
  maxFeeLamports := 1000
  feeIncreaseMultiplier := 50
  priorityLevelDefault := .medium
  disableBuyLamports := 1
  rounding := .binary64

/-- The same configuration over exact rationals. -/
def exactConfig : CopyConfig := { sampleConfig with rounding := .exact }

/-- A wallet that is copied in the direct mode. -/
def sampleWallet : Pubkey := 1

/-- A token that the wallet trades. -/
def sampleToken : Pubkey := 2

/-- A swap of the sample wallet. -/
def sampleTrade (mode : CopyMode) (inputMint outputMint : Pubkey)
    (inputAmount outputAmount : ℕ) : OriginTrade where
  signature := 0
  signer := sampleWallet
  swap := ⟨inputAmount, outputAmount, inputMint, outputMint, some ⟨9, 6⟩⟩
  solBalance := none
  inputMintBalance := some ⟨0, 0⟩
  walletConfig := ⟨"sample", 10, 20, mode, by decide⟩

/-- The wallet buys the sample token for SOL. -/
def sampleBuyTrade (amount : ℕ) : OriginTrade := sampleTrade .direct SOL sampleToken 1000 amount

/-- The wallet sells the sample token for SOL. -/
def sampleSellTrade (amount : ℕ) : OriginTrade := sampleTrade .direct sampleToken SOL amount 1000

/-- The details of a first copy of a buy. -/
def sampleBuy (amount : ℕ) : CopyDetails := (sampleBuyTrade amount).details sampleConfig

/-- The details of a first copy of a sell. -/
def sampleSell (amount : ℕ) : CopyDetails := (sampleSellTrade amount).details sampleConfig

end Biscuit.Copy
