import Biscuit.Core.Run
import Biscuit.Core.Tally
import Biscuit.Models.Copy.Simulator

/-!
# Statistics of a wallet

`WalletAnalyzer::process_swap` notes the time of a swap and counts it for both of its mints,
prices it, and then counts it once more as the buy or the sell that it is, with its volumes.
Counters of type `usize` are natural numbers.
-/

namespace Biscuit.Analytics

open Copy

/-- The side of a swap. -/
inductive Direction
  | buy
  | sell
  deriving DecidableEq, Repr

/-- A swap as it is kept for one of its tokens. -/
structure Swap where
  signature : Signature
  blockTime : ℤ
  token : Pubkey
  otherToken : Pubkey
  amount : ℕ
  otherAmount : ℕ
  volumeTokenUsd : F64
  volumeOtherTokenUsd : F64
  direction : Direction
  deriving DecidableEq

/-- What a wallet did with one token. -/
structure TokenStats where
  decimals : ℕ := 0
  totalBuys : ℕ := 0
  totalSells : ℕ := 0
  buyVolumeToken : ℕ := 0
  sellVolumeToken : ℕ := 0
  buyVolumeUsd : F64 := .fin 0
  sellVolumeUsd : F64 := .fin 0
  deriving DecidableEq

/-- What a wallet did. -/
structure WalletStats where
  address : Pubkey := 0
  earliestTxn : Option ℤ := none
  latestTxn : Option ℤ := none
  numSwaps : ℕ := 0
  totalBuys : ℕ := 0
  totalSells : ℕ := 0
  totalBuyVolumeUsd : F64 := .fin 0
  totalSellVolumeUsd : F64 := .fin 0
  tokenStats : Pubkey → Option TokenStats := fun _ => none
  tokenSwaps : Pubkey → Option (List Swap) := fun _ => none
  failedSignatures : List Signature := []

/-- The analyzer. -/
structure WalletAnalyzer where
  wallets : Pubkey → Bool
  solPriceHistory : List HistoricalPrice
  walletStats : Pubkey → Option WalletStats
  currentSolPrice : F64

/-- The arguments of `process_swap`. -/
structure AnalyzedSwap where
  swap : ResolvedSwap
  signature : Signature
  signer : Pubkey
  blockTime : ℤ

/-- What one run of `process_swap` asks its surroundings. -/
structure AnalysisEnv where
  /-- The time in seconds. -/
  now : ℤ
  /-- Whether `DateTime::from_timestamp` has a date for a number of seconds. -/
  hasDate : ℤ → Bool

/-- Why a swap is not counted. -/
inductive AnalysisError
  /-- Token decimals not resolved for swap, signature={} -/
  | tokenDecimals (signature : Signature)
  /-- failed converting blocktime to date -/
  | blockTime
  /-- Failed to get historical sol price -/
  | solPrice
  /-- Cannot calculate token prices. Neither input nor output mint price is known -/
  | tokenPrices
  deriving DecidableEq, Repr

/-- The entry of a map is modified, or created. -/
def upsert {α : Type*} (m : Pubkey → Option α) (key : Pubkey) (modify : α → α) (new : α) :
    Pubkey → Option α :=
  Function.update m key (some (match m key with
    | some a => modify a
    | none => new))

theorem upsert_of_ne {α : Type*} {m : Pubkey → Option α} {key key' : Pubkey} (h : key' ≠ key)
    (modify : α → α) (new : α) : upsert m key modify new key' = m key' :=
  Function.update_of_ne h ..

/-- A bound on the times of a wallet's swaps, moved to a block time that passes it. -/
def noteTime (env : AnalysisEnv) (blockTime : ℤ) (passes : ℤ → Bool) (bound : Option ℤ) :
    Except AnalysisError (Option ℤ) :=
  if bound.all passes then
    if env.hasDate blockTime then .ok (some blockTime) else .error .blockTime
  else .ok bound

/-- The price of SOL for a block time: from the history, or the current one while the
history is less than a day old. -/
def analysisSolPrice (env : AnalysisEnv) (a : WalletAnalyzer) (blockTime : ℤ) : Option F64 :=
  match getPriceForTimestamp a.solPriceHistory blockTime with
  | some price => some price
  | none =>
    let mostRecentTime := (a.solPriceHistory.getLast?.map HistoricalPrice.unixTime).getD env.now
    if env.now - mostRecentTime < 24 * 60 * 60 then some a.currentSolPrice else none

namespace TokenStats

/-- A buy of the token, by its volumes. -/
def addBuy (s : TokenStats) (volumeToken : ℕ) (volumeUsd : F64) : TokenStats :=
  { s with
    totalBuys := s.totalBuys + 1
    buyVolumeToken := wrapU64 (s.buyVolumeToken + volumeToken)
    buyVolumeUsd := s.buyVolumeUsd + volumeUsd }

/-- A sell of the token, by its volumes. -/
def addSell (s : TokenStats) (volumeToken : ℕ) (volumeUsd : F64) : TokenStats :=
  { s with
    totalSells := s.totalSells + 1
    sellVolumeToken := wrapU64 (s.sellVolumeToken + volumeToken)
    sellVolumeUsd := s.sellVolumeUsd + volumeUsd }

end TokenStats

namespace WalletStats

/-- The times are noted; the latest one is only looked at when the earliest one is. -/
def noteTimes (env : AnalysisEnv) (s : WalletStats) (blockTime : ℤ) :
    WalletStats × Except AnalysisError Unit :=
  match noteTime env blockTime (fun ts => decide (blockTime < ts)) s.earliestTxn with
  | .error e => (s, .error e)
  | .ok earliestTxn =>
    let s := { s with earliestTxn }
    match noteTime env blockTime (fun ts => decide (ts < blockTime)) s.latestTxn with
    | .error e => (s, .error e)
    | .ok latestTxn => ({ s with latestTxn }, .ok ())

/-- The swap is counted as a sell of its input and a buy of its output. -/
def countMints (s : WalletStats) (swap : ResolvedSwap) (decimals : TokenDecimals) : WalletStats :=
  let s := { s with
    tokenStats := upsert s.tokenStats swap.inputTokenMint
      (fun stats => { stats with totalSells := stats.totalSells + 1 })
      { decimals := decimals.input, totalSells := 1 } }
  { s with
    tokenStats := upsert s.tokenStats swap.outputTokenMint
      (fun stats => { stats with totalBuys := stats.totalBuys + 1 })
      { decimals := decimals.output, totalBuys := 1 } }

/-- A failed signature is kept. -/
def fail (s : WalletStats) (signature : Signature) : WalletStats :=
  { s with failedSignatures := s.failedSignatures ++ [signature] }

/-- A buy of the output mint; its statistics were created when its mints were counted. -/
def addBuy (s : WalletStats) (swap : ResolvedSwap) (volumeUsd : F64) : WalletStats :=
  { s with
    totalBuys := s.totalBuys + 1
    totalBuyVolumeUsd := s.totalBuyVolumeUsd + volumeUsd
    tokenStats := Function.update s.tokenStats swap.outputTokenMint
      ((s.tokenStats swap.outputTokenMint).map fun stats =>
        stats.addBuy swap.outputAmount volumeUsd) }

/-- A sell of the input mint. -/
def addSell (s : WalletStats) (swap : ResolvedSwap) (volumeUsd : F64) : WalletStats :=
  { s with
    totalSells := s.totalSells + 1
    totalSellVolumeUsd := s.totalSellVolumeUsd + volumeUsd
    tokenStats := Function.update s.tokenStats swap.inputTokenMint
      ((s.tokenStats swap.inputTokenMint).map fun stats =>
        stats.addSell swap.inputAmount volumeUsd) }

/-- A swap is kept for its token; the first one of a token only creates the empty list. -/
def keepSwap (s : WalletStats) (token : Pubkey) (swap : Option Swap) : WalletStats :=
  match swap with
  | none => s
  | some swap => { s with tokenSwaps := upsert s.tokenSwaps token (fun swaps => swaps ++ [swap]) [] }

end WalletStats

/-- The swap as it is kept for its output mint. -/
def buySwap (c : AnalyzedSwap) (inputVolumeUsd outputVolumeUsd : F64) : Swap where
  signature := c.signature
  blockTime := c.blockTime
  token := c.swap.outputTokenMint
  otherToken := c.swap.inputTokenMint
  amount := c.swap.outputAmount
  otherAmount := c.swap.inputAmount
  volumeTokenUsd := outputVolumeUsd
  volumeOtherTokenUsd := inputVolumeUsd
  direction := .buy

/-- The swap as it is kept for its input mint. -/
def sellSwap (c : AnalyzedSwap) (inputVolumeUsd outputVolumeUsd : F64) : Swap where
  signature := c.signature
  blockTime := c.blockTime
  token := c.swap.inputTokenMint
  otherToken := c.swap.outputTokenMint
  amount := c.swap.inputAmount
  otherAmount := c.swap.outputAmount
  volumeTokenUsd := inputVolumeUsd
  volumeOtherTokenUsd := outputVolumeUsd
  direction := .sell

/-- A volume in dollars. -/
def volumeUsd (amount decimals : ℕ) (priceUsd : F64) : F64 :=
  F64.ofNat amount / pow10 decimals * priceUsd

/-- The swap is counted as the buy, the sell or both that it is. Both volumes are taken at
the price of the input mint. -/
def WalletStats.countSwap (s : WalletStats) (c : AnalyzedSwap) (decimals : TokenDecimals)
    (price : Price) : WalletStats :=
  let inputVolumeUsd := volumeUsd c.swap.inputAmount decimals.input price.inputPriceUsd
  let outputVolumeUsd := volumeUsd c.swap.outputAmount decimals.output price.inputPriceUsd
  let buy := !isStaticToken c.swap.outputTokenMint
  let sell := !isStaticToken c.swap.inputTokenMint
  let (s, inputMintSwap, outputMintSwap) :=
    match buy, sell with
    | false, false => (s, none, none)
    | true, false =>
      ({ s with numSwaps := s.numSwaps + 1 }.addBuy c.swap inputVolumeUsd, none,
        some (buySwap c inputVolumeUsd outputVolumeUsd))
    | false, true =>
      ({ s with numSwaps := s.numSwaps + 1 }.addSell c.swap outputVolumeUsd,
        some (sellSwap c inputVolumeUsd outputVolumeUsd), none)
    | true, true =>
      (({ s with numSwaps := s.numSwaps + 2 }.addBuy c.swap inputVolumeUsd).addSell c.swap
          outputVolumeUsd,
        some (sellSwap c inputVolumeUsd outputVolumeUsd),
        some (buySwap c inputVolumeUsd outputVolumeUsd))
  (s.keepSwap c.swap.inputTokenMint inputMintSwap).keepSwap c.swap.outputTokenMint outputMintSwap

/-- `process_swap` for the statistics of the signer. -/
def WalletStats.process (env : AnalysisEnv) (a : WalletAnalyzer) (s : WalletStats)
    (c : AnalyzedSwap) : WalletStats × Except AnalysisError Unit :=
  match c.swap.tokenDecimals with
  | none => (s.fail c.signature, .error (.tokenDecimals c.signature))
  | some decimals =>
    match s.noteTimes env c.blockTime with
    | (s, .error e) => (s, .error e)
    | (s, .ok _) =>
      let s := s.countMints c.swap decimals
      match analysisSolPrice env a c.blockTime with
      | none => (s.fail c.signature, .error .solPrice)
      | some solPrice =>
        match calculateTokenPrices c.swap.inputTokenMint c.swap.outputTokenMint
            c.swap.inputAmount c.swap.outputAmount decimals.input decimals.output solPrice with
        | none => (s.fail c.signature, .error .tokenPrices)
        | some price => (s.countSwap c decimals price, .ok ())

namespace WalletAnalyzer

/-- The statistics of a wallet; a wallet without any starts from the default. -/
def stats (a : WalletAnalyzer) (wallet : Pubkey) : WalletStats :=
  (a.walletStats wallet).getD { address := wallet }

/-- `process_swap`: the analyzer afterwards, and the error if the swap is not counted. -/
def processSwap (env : AnalysisEnv) (a : WalletAnalyzer) (c : AnalyzedSwap) :
    WalletAnalyzer × Except AnalysisError Unit :=
  if a.wallets c.signer then
    let (s, result) := (a.stats c.signer).process env a c
    ({ a with walletStats := Function.update a.walletStats c.signer (some s) }, result)
  else (a, .ok ())

/-- `WalletAnalyzer::new` -/
def new (wallets : Pubkey → Bool) (solPriceHistory : List HistoricalPrice)
    (currentSolPrice : F64) : WalletAnalyzer where
  wallets := wallets
  solPriceHistory := solPriceHistory
  walletStats := fun _ => none
  currentSolPrice := currentSolPrice

end WalletAnalyzer

end Biscuit.Analytics
