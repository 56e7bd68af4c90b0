import Biscuit.Core.Run
import Biscuit.Core.Tally
import Biscuit.Models.Copy.Atomicity

/-!
# Simulated holdings and the trade history

Successful calls of `process_swap` in the direct mode change a simulated balance and an entry
of the trade history with the same trade. Dust is taken off the received amount before it is
credited, and once more when the buy is recorded.
-/

namespace Biscuit.Copy

/-- What an entry says the executing wallet still holds, possibly less than nothing. -/
def CopyHistory.netVolume (c : CopyHistory) : ℤ :=
  (c.exec.buyVolumeToken : ℤ) - c.exec.sellVolumeToken

/-- The net volume of an entry that may be missing. -/
def netVolume (entry : Option CopyHistory) : ℤ := (entry.map CopyHistory.netVolume).getD 0

/-- The net volume of a token over all origin wallets. -/
noncomputable def HistoricalTrades.net (h : HistoricalTrades) (token : Pubkey) : ℤ :=
  ∑ᶠ wallet, netVolume (h (wallet, token))

namespace HistoricalTrades

end HistoricalTrades

namespace Simulator

/-- What the wallet holds of a token. -/
def holding (s : Simulator) (token : Pubkey) : ℕ := (s.tokenBalances token).getD 0

/-- The entry a trade of a token is added to. -/
def entry (s : Simulator) (wallet token : Pubkey) : CopyHistory :=
  (s.shared.history (wallet, token)).getD {}

end Simulator

namespace SimulatedExecution

/-- What the wallet would receive before the dust is taken off. -/
def received (x : SimulatedExecution) : ℕ :=
  convertedAmount x.order.amount x.inputDecimals x.outputDecimals x.inputPriceUsd
    x.outputPriceUsd

/-- The executed volume that a recorded buy adds to its entry: the dust is taken off the
amount that it was already taken off. -/
def recordedBuy (x : SimulatedExecution) : ℕ := wrapSubU64 x.outAmount x.dustAmount

end SimulatedExecution

namespace SimulatedExecution

end SimulatedExecution

namespace Simulator

/-! ## What each part of a call changes -/

/-- What a buy adds to the net volume of its token. -/
def bought (s : Simulator) (wallet : Pubkey) (x : SimulatedExecution) : ℤ :=
  let entry := s.entry wallet x.order.outputTokenMint
  (wrapU64 (entry.exec.buyVolumeToken + x.recordedBuy) : ℤ) - entry.exec.buyVolumeToken

/-- What a sell takes off the net volume of its token. -/
def sold (s : Simulator) (wallet : Pubkey) (x : SimulatedExecution) : ℤ :=
  let entry := s.entry wallet x.order.inputTokenMint
  (wrapU64 (entry.exec.sellVolumeToken + x.order.amount) : ℤ) - entry.exec.sellVolumeToken

end Simulator

end Biscuit.Copy
