import Biscuit.Models.Copy.History
import Mathlib.Data.Finset.Insert
import Mathlib.Data.Finset.Card
import Mathlib.Data.List.Sort

/-!
# The ping tracker

In the ping mode a token is bought when one more wallet is seen buying it; how much
depends on how many wallets there are. The tracker keeps the wallets of every token, the
signatures that made them count, and what was executed.
-/

namespace Biscuit.Copy

/-- The wallets that bought a token and how often the token was executed. -/
structure Ping where
  wallets : Finset Pubkey
  executionCount : ℕ
  totalLamportsCost : ℕ
  deriving DecidableEq

/-- The transactions of one wallet in one token. -/
structure WalletHistory where
  wallet : Pubkey
  token : Pubkey
  signatures : Finset Signature
  deriving DecidableEq

/-- The tracker; the tiers map a number of wallets to an amount in lamports. -/
structure PingTracker where
  pings : Pubkey → Option Ping
  walletHistory : Pubkey × Pubkey → Option WalletHistory
  execution : Pubkey → Option TradeHistory
  tiers : List (ℕ × ℕ)

/-- What the price feed knows: tokens that were never polled have no price. -/
abbrev PriceFeed := Pubkey → Option F64

/-- Lamports in one SOL. -/
def lamportsPerSol : ℕ := 1000000000

/-- `10_u32.pow(decimals)` as a floating point number; it wraps past nine decimals. -/
def pow10 (decimals : ℕ) : F64 := F64.ofNat (10 ^ decimals % 2 ^ 32)

/-- What `insert_execution` reports of a recorded execution. -/
structure PingExecutionVolume where
  volumeToken : ℕ
  volumeUsd : F64
  volumeSol : F64
  dustAmount : ℕ
  ping : Option Ping

namespace PingTracker

/-- The share of the executed tokens that a sell of one wallet stands for. -/
def getTokenInput (t : PingTracker) (r : Rounding) (inputToken origin : Pubkey)
    (tokenAmount originBalanceAfter : ℕ) : Option ℕ :=
  match t.pings inputToken with
  | none => none
  | some ping =>
    if origin ∉ ping.wallets then none
    else
      match t.execution inputToken with
      | none => none
      | some execution =>
        let amountUnderConsideration :=
          (execution.buyVolumeToken - execution.sellVolumeToken) / ping.wallets.card
        let share :=
          r.div (r.ofNat tokenAmount) (r.ofNat (wrapU64 (tokenAmount + originBalanceAfter)))
        some (r.mul share (r.ofNat amountUnderConsideration)).trunc.toU64

/-- The amount of the tier with this number of wallets. -/
def tierAmount (t : PingTracker) (pingCount : ℕ) : Option ℕ :=
  (t.tiers.find? fun tier => tier.1 == pingCount).map Prod.snd

/-- The tier that applies to a number of wallets: its own, or else the next larger one, or
the largest; none below the smallest. -/
def tierFor (t : PingTracker) (pingCount : ℕ) : Option ℕ :=
  match t.tierAmount pingCount with
  | some amount => some amount
  | none =>
    let pings := (t.tiers.map Prod.fst).insertionSort (· ≤ ·)
    match pings.head? with
    | none => none
    | some smallest =>
      if smallest < pingCount then
        let idx := min (pings.countP (· < pingCount)) (pings.length - 1)
        (pings[idx]?).bind t.tierAmount
      else none

/-- What to spend on a token that one more wallet has bought. -/
def getLamportsInput (t : PingTracker) (outputToken : Pubkey) : Option ℕ :=
  match t.pings outputToken with
  | none => none
  | some ping =>
    if t.tiers.length ≤ ping.executionCount then none
    else (t.tierFor ping.wallets.card).map (min · ping.totalLamportsCost)

/-- A token that a known wallet sells keeps the signature of the sell. -/
def touchSell (t : PingTracker) (origin inputToken : Pubkey) (signature : Signature) :
    PingTracker :=
  match t.walletHistory (origin, inputToken) with
  | none => t
  | some history =>
    { t with
      walletHistory := Function.update t.walletHistory (origin, inputToken)
        (some { history with signatures := insert signature history.signatures }) }

/-- What a swap cost in lamports, by the prices of the feed. -/
def swapLamports (r : Rounding) (priceFeed : PriceFeed) (solPriceUsd : F64) (swap : ResolvedSwap)
    (inputDecimals : ℕ) : ℕ :=
  let inputPriceUsd :=
    if swap.inputTokenMint = SOL then solPriceUsd
    else if swap.inputTokenMint = USDC ∨ swap.inputTokenMint = USDT then .fin 1
    else (priceFeed swap.outputTokenMint).getD (.fin 0)
  let inputPriceSol := r.div inputPriceUsd solPriceUsd
  let volume := r.div (r.mul (r.ofNat swap.inputAmount) inputPriceSol)
    (r.ofNat (10 ^ inputDecimals % 2 ^ 32))
  (r.mul volume (r.ofNat lamportsPerSol)).trunc.toU64

/-- Why a swap is not entered. -/
inductive InsertSwapError
  /-- Token decimals not resolved -/
  | tokenDecimals
  /-- Failed to get SOL price from feed -/
  | solPrice
  deriving DecidableEq, Repr

/-- Count a wallet that bought a token; the flag says whether it is new to the token. -/
def addPing (t : PingTracker) (origin token : Pubkey) (signature : Signature)
    (lamports : ℕ) : PingTracker × Bool :=
  let (ping, pinged) :=
    match t.pings token with
    | some ping =>
      ({ ping with
          wallets := insert origin ping.wallets
          totalLamportsCost := wrapU64 (ping.totalLamportsCost + lamports) },
        decide (origin ∉ ping.wallets))
    | none => (⟨{origin}, 0, lamports⟩, true)
  let history :=
    match t.walletHistory (origin, token) with
    | some history => { history with signatures := insert signature history.signatures }
    | none => ⟨origin, token, {signature}⟩
  ({ t with
      pings := Function.update t.pings token (some ping)
      walletHistory := Function.update t.walletHistory (origin, token) (some history) },
    pinged)

/-- `insert_swap`: the tracker afterwards, and whether the swap adds a wallet to a token. -/
def insertSwap (t : PingTracker) (r : Rounding) (origin : Pubkey) (signature : Signature)
    (swap : ResolvedSwap) (priceFeed : PriceFeed) :
    PingTracker × Except InsertSwapError Bool :=
  let t := t.touchSell origin swap.inputTokenMint signature
  if isStaticToken swap.outputTokenMint then (t, .ok false)
  else
    match swap.tokenDecimals with
    | none => (t, .error .tokenDecimals)
    | some decimals =>
      match priceFeed SOL with
      | none => (t, .error .solPrice)
      | some solPriceUsd =>
        let (t, pinged) := t.addPing origin swap.outputTokenMint signature
          (swapLamports r priceFeed solPriceUsd swap decimals.input)
        (t, .ok pinged)

/-- The part of a buy that the tracker leaves out; unlike the direct history it refuses a
half or more. -/
def dustAmount (r : Rounding) (volumeToken : ℕ) (direction : TradeDirection)
    (moonbagBps : Option ℕ) : Except TradeError ℕ :=
  match direction with
  | .buy =>
    let dustBps := moonbagBps.getD 0
    if 5000 ≤ dustBps then .error .dustBps
    else .ok (r.mul (r.div (r.ofNat dustBps) (r.ofNat 10000)) (r.ofNat volumeToken)).trunc.toU64
  | .sell => .ok 0

/-- `insert_execution`: every recorded execution counts, a sell as much as a buy. -/
def insertExecution (t : PingTracker) (r : Rounding) (token : Pubkey)
    (tokenDecimals volumeToken : ℕ) (tokenPriceUsd tokenPriceSol : F64)
    (direction : TradeDirection) (moonbagBps : Option ℕ) :
    Except TradeError (PingTracker × PingExecutionVolume) :=
  let volumeUsd := F64.ofNat volumeToken * tokenPriceUsd / pow10 tokenDecimals
  let volumeSol := F64.ofNat volumeToken * tokenPriceSol / pow10 tokenDecimals
  match dustAmount r volumeToken direction moonbagBps with
  | .error e => .error e
  | .ok dust =>
    let volumeToken := wrapSubU64 volumeToken dust
    let history := (t.execution token).getD {}
    let history :=
      match direction with
      | .buy => history.addBuy volumeToken volumeUsd volumeSol
      | .sell => history.addSell volumeToken volumeUsd volumeSol
    let pings :=
      match t.pings token with
      | none => t.pings
      | some ping => Function.update t.pings token
          (some { ping with executionCount := (ping.executionCount + 1) % 2 ^ 8 })
    let t := { t with pings, execution := Function.update t.execution token (some history) }
    .ok (t, ⟨volumeToken, volumeUsd, volumeSol, dust, t.pings token⟩)

/-! ## A swap adds a wallet to a token once -/

/-- Counting a wallet leaves it among the wallets of the token. -/
theorem addPing_wallets (t : PingTracker) (origin token : Pubkey) (signature : Signature)
    (lamports : ℕ) :
    ∃ ping, (t.addPing origin token signature lamports).1.pings token = some ping ∧
      origin ∈ ping.wallets := by
  unfold addPing
  cases t.pings token with
  | none => exact ⟨_, Function.update_self .., Finset.mem_singleton_self _⟩
  | some ping => exact ⟨_, Function.update_self .., Finset.mem_insert_self _ _⟩

/-- A wallet that already counts for a token is not new to it. -/
theorem addPing_known {t : PingTracker} {origin token : Pubkey} {ping : Ping}
    (hp : t.pings token = some ping) (hw : origin ∈ ping.wallets) (signature : Signature)
    (lamports : ℕ) : (t.addPing origin token signature lamports).2 = false := by
  simp only [addPing, hp, hw, not_true_eq_false, decide_false]

@[simp] theorem touchSell_pings (t : PingTracker) (origin inputToken : Pubkey)
    (signature : Signature) : (t.touchSell origin inputToken signature).pings = t.pings := by
  unfold touchSell
  cases t.walletHistory (origin, inputToken) <;> rfl

/-- After a swap has been entered, entering one of the same wallet with the same output
token never reports a new wallet. -/
theorem insertSwap_again {t t' t'' : PingTracker} {r : Rounding} {origin : Pubkey}
    {signature signature' : Signature} {swap swap' : ResolvedSwap}
    {priceFeed priceFeed' : PriceFeed} {pinged pinged' : Bool}
    (hmint : swap'.outputTokenMint = swap.outputTokenMint)
    (h : t.insertSwap r origin signature swap priceFeed = (t', .ok pinged))
    (h' : t'.insertSwap r origin signature' swap' priceFeed' = (t'', .ok pinged')) :
    pinged' = false := by
  by_cases hs : isStaticToken swap.outputTokenMint = true
  · simp only [insertSwap, hmint, hs, if_true, Prod.mk.injEq, Except.ok.injEq] at h'
    exact h'.2.symm
  · have hs' : isStaticToken swap.outputTokenMint = false := by simpa using hs
    have hknown : ∃ ping, t'.pings swap.outputTokenMint = some ping ∧ origin ∈ ping.wallets := by
      simp only [insertSwap, hs', Bool.false_eq_true, if_false] at h
      split at h
      · exact absurd (congrArg Prod.snd h) nofun
      · split at h
        · exact absurd (congrArg Prod.snd h) nofun
        · obtain ⟨rfl, -⟩ := Prod.mk.inj h
          exact addPing_wallets _ _ _ _ _
    obtain ⟨ping, hp, hw⟩ := hknown
    simp only [insertSwap, hmint, hs', Bool.false_eq_true, if_false] at h'
    split at h'
    · exact absurd (congrArg Prod.snd h') nofun
    · split at h'
      · exact absurd (congrArg Prod.snd h') nofun
      · have hpinged := Except.ok.inj (Prod.mk.inj h').2
        rw [← hpinged]
        exact addPing_known (by rw [touchSell_pings]; exact hp) hw _ _

end PingTracker

end Biscuit.Copy
