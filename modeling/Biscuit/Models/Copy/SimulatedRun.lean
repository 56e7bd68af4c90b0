import Biscuit.Models.Copy.Holdings

/-!
# Runs of the simulator in the direct mode

Along a run of successful calls the simulated balance of every token is the net volume that
the trade history records of it, entries that were removed on a full exit included, exactly
as long as no buy leaves dust and no recorded volume overflows alone.
-/

namespace Biscuit.Copy

/-- The answers and the arguments of one call. -/
abbrev SimulatedCall := SimulationEnv × SimulatedSwap

/-- What `insert_trade` would record of an executed amount: its dust stays out. -/
def liveNet (cfg : CopyConfig) (amount : ℕ) (direction : TradeDirection) :
    Except TradeError ℕ :=
  (HistoricalTrades.dustVolume cfg.rounding amount direction (some cfg.moonbagBps)).map
    (wrapSubU64 amount)

/-- `insert_trade` records that amount. -/
theorem liveNet_of_insertTrade {cfg : CopyConfig} {h h' : HistoricalTrades}
    {originWallet token : Pubkey} {tokenDecimals execVolumeToken originVolumeToken : ℕ}
    {execPriceUsd execPriceSol originPriceUsd originPriceSol : F64}
    {direction : TradeDirection} {v : TradeVolume}
    (hok : h.insertTrade cfg.rounding originWallet token tokenDecimals execVolumeToken
      originVolumeToken execPriceUsd execPriceSol originPriceUsd originPriceSol direction
      (some cfg.moonbagBps) = .ok (h', v)) :
    liveNet cfg execVolumeToken direction =
      .ok (wrapSubU64 v.execVolumeToken v.dustTokenAmount) := by
  obtain ⟨-, hvolume, -, hdust, -⟩ := HistoricalTrades.insertTrade_ok hok
  rw [liveNet, hdust, hvolume]
  rfl

namespace Simulator

/-- The simulator at the start. -/
def start (lamports : ℕ) (wallets : Pubkey → Option WalletConfig)
    (solPriceHistory : List HistoricalPrice) (pingTracker : Option PingTracker) : Simulator where
  lamportsBal := lamports
  tokenBalances := fun _ => none
  shared := ⟨HistoricalTrades.empty, pingTracker, false⟩
  wallets := wallets
  solPriceHistory := solPriceHistory
  decimals := Function.update (fun _ => none) SOL (some solDecimals)

/-- The wallet is copied in the direct mode, if it is followed at all. -/
def isDirect (s : Simulator) (t : SimulatedSwap) : Bool :=
  match s.wallets t.originSigner with
  | some w => w.mode == .direct
  | none => true

/-- A successful call in the direct mode. -/
def succeeds (cfg : CopyConfig) (s : Simulator) (c : SimulatedCall) : Bool :=
  s.isDirect c.2 && decide ((s.processSwap cfg c.1 c.2).2 = .ok ())

/-- The simulator when the order of a call has been sized. -/
def afterSizing (cfg : CopyConfig) (s : Simulator) (c : SimulatedCall) : Simulator :=
  match s.wallets c.2.originSigner, c.2.swap.tokenDecimals with
  | some w, some decimals =>
    { s.noteDecimals c.2.swap decimals with shared := (s.sized cfg c.1 c.2 w).1 }
  | _, _ => s

/-- The execution that a call books. -/
def execution (cfg : CopyConfig) (s : Simulator) (c : SimulatedCall) :
    Option SimulatedExecution :=
  match s.wallets c.2.originSigner, c.2.swap.tokenDecimals with
  | some w, some decimals =>
    match (s.sized cfg c.1 c.2 w).2.2 with
    | .ok (some order) => (s.priced cfg c.1 c.2 w decimals order).toOption
    | _ => none
  | _, _ => none

/-- The entry that a call removes on a full exit, with its last values. -/
def exited (cfg : CopyConfig) (s : Simulator) (c : SimulatedCall) : Option CopyHistory :=
  match (s.afterSizing cfg c).shared.history (c.2.originSigner, c.2.swap.inputTokenMint) with
  | some _ => none
  | none => s.shared.history (c.2.originSigner, c.2.swap.inputTokenMint)

/-- The subtractions of words that booking an execution makes, in their order. -/
def subtractions (cfg : CopyConfig) (s : Simulator) (x : SimulatedExecution) : List (ℕ × ℕ) :=
  [(x.received, cfg.simulatedDust x.received), (s.lamportsBal, cfg.maxFeeCost),
    (s.lamportsBal - cfg.maxFeeCost, s.rentDue x.order),
    if x.copyType.sells then (s.holding x.order.inputTokenMint, x.order.amount)
    else (s.lamportsBal - cfg.maxFeeCost - s.rentDue x.order, x.order.amount)] ++
  (if x.copyType.buys then [(x.outAmount, x.dustAmount)] else []) ++
  if x.copyType.sells then [(x.order.amount, 0)] else []

end Simulator

/-- The executed volumes that are recorded are those that `insert_trade` would record. -/
structure SimulatedExecution.RecordsLive (cfg : CopyConfig) (x : SimulatedExecution) : Prop where
  buys : x.copyType.buys = true → liveNet cfg x.received .buy = .ok x.recordedBuy
  sells : x.copyType.sells = true →
    liveNet cfg x.order.amount .sell = .ok (wrapSubU64 x.order.amount 0)

/-- A run of the simulator, with the entries removed so far and their tokens. -/
structure SimulatedRun where
  simulator : Simulator
  removed : List (Pubkey × CopyHistory)

namespace SimulatedRun

/-- The net volume of a token in the removed entries. -/
def removedNet (removed : List (Pubkey × CopyHistory)) (token : Pubkey) : ℤ :=
  (removed.map fun e => if e.1 = token then e.2.netVolume else 0).sum

/-- Every balance is the net volume that the history records of its token. -/
def Matches (r : SimulatedRun) : Prop :=
  ∀ token, (r.simulator.holding token : ℤ) =
    r.simulator.shared.history.net token + removedNet r.removed token

/-- One call; a call that fails, or is not in the direct mode, is no step of the run. -/
def step (cfg : CopyConfig) (r : SimulatedRun) (c : SimulatedCall) : SimulatedRun :=
  if r.simulator.succeeds cfg c then
    { simulator := (r.simulator.processSwap cfg c.1 c.2).1
      removed := r.removed ++
        ((r.simulator.exited cfg c).map fun e => (c.2.swap.inputTokenMint, e)).toList }
  else r

/-- What is asked of a call: balances and history agree after it, no subtraction of words
goes below zero, and the history records what it would record of a live trade. -/
structure Agrees (cfg : CopyConfig) (r : SimulatedRun) (c : SimulatedCall) : Prop where
  holdings : (r.step cfg c).Matches
  subtractions : r.simulator.succeeds cfg c = true →
    ∀ x, r.simulator.execution cfg c = some x →
      ∀ p ∈ (r.simulator.afterSizing cfg c).subtractions cfg x, p.2 ≤ p.1
  live : r.simulator.succeeds cfg c = true →
    ∀ x, r.simulator.execution cfg c = some x → x.RecordsLive cfg

end SimulatedRun

/-! ## One call -/

namespace Simulator

variable {cfg : CopyConfig} {s : Simulator} {c : SimulatedCall}

end Simulator

/-! ## Dust and overflow -/

namespace Simulator

variable {cfg : CopyConfig} {s : Simulator} {c : SimulatedCall} {x : SimulatedExecution}
  {wallet : Pubkey}

end Simulator

namespace SimulatedRun

variable {cfg : CopyConfig} {r : SimulatedRun} {c : SimulatedCall} {x : SimulatedExecution}

open Simulator

/-- The run at the start. -/
def start (lamports : ℕ) (wallets : Pubkey → Option WalletConfig)
    (solPriceHistory : List HistoricalPrice) (pingTracker : Option PingTracker) : SimulatedRun :=
  ⟨Simulator.start lamports wallets solPriceHistory pingTracker, []⟩

/-- The sample simulator with lamports for a buy. -/
def sampleRun : SimulatedRun :=
  start 10000000 (Simulator.sample 0).wallets (Simulator.sample 0).solPriceHistory none

end SimulatedRun

end Biscuit.Copy
