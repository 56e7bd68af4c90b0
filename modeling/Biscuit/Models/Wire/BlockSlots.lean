import Biscuit.Core.Tally
import Biscuit.Models.Wire.Blocks

/-!
# Where the slots of block polling are

Every slot that is received is somewhere until its block is sent: in the slot queue, with a
worker, or on its way back through the retry queue. The way back ends in the schedule queue,
which nobody receives from, so slots are lost exactly when the replay task passes one on, and no
worker ever fetches a finalized block.
-/

namespace Biscuit.Wire

/-- A worker that fetches the block of a slot. -/
def BlockWorker.amount (slot : ℕ) (w : BlockWorker) : ℕ := if w = .fetching slot then 1 else 0

/-- A retry that stands for a slot: one of its confirmed block, or any where confirmed blocks
are not sent. -/
def SlotRetry.amount (scheme : CommitmentScheme) (slot : ℕ) (item : SlotRetry) : ℕ :=
  if item.slot = slot ∧
      (item.commitment ≠ .finalized ∨ scheme.shouldSendConfirmedBlocks = false) then 1
  else 0

namespace BlockPolling

variable (cfg : BlockPollingConfig) (x : BlockPolling)

/-- The retries in the retry queue, with the replay task, or ignored because of their age. -/
def retries : List SlotRetry := x.slotRetryQueue ++ x.replay.item.toList ++ x.tooOld

/-- How often a slot was sent or is somewhere it can be sent from, or is too old. -/
def whereabouts (slot : ℕ) : ℕ :=
  x.sent.count slot + x.slotQueue.count slot + tally (BlockWorker.amount slot) x.workers +
    tally (SlotRetry.amount cfg.scheme slot) x.retries

/-- A step finds a receiver for a slot, does not pass on a retry, and finds no block where
finalized blocks are sent. -/
def Keeps (e : BlockEvent) : Prop :=
  match e with
  | .slotUpdate _ => x.subscribed = true → x.hasWorkers = true
  | .fetched i true => ∀ slot, x.workers[i]? = some (.fetching slot) →
      cfg.scheme.shouldSendFinalizedBlocks = false
  | .replaySend => ∀ item, x.replay = .sleeping item → x.now < item.retryAt
  | _ => True

/-- Workers fetch confirmed blocks only. -/
def FetchesConfirmed : Prop := ∀ fetch ∈ x.fetches, fetch.2 = .confirmed

/-- Every slot is accounted for, no finalized block is to be fetched, and the replay task runs as
long as there are workers. -/
structure Accounted : Prop where
  slots : ∀ slot, x.received.count slot = x.whereabouts cfg slot
  scheduled : ∀ item ∈ x.rescheduled, item.commitment ≠ .finalized
  waiting : ∀ item ∈ x.slotRetryQueue, item.commitment ≠ .finalized
  sleeping : ∀ item, x.replay = .sleeping item → item.commitment ≠ .finalized
  fetched : x.FetchesConfirmed
  replay : x.replay = .exited → x.hasWorkers = false

variable {cfg x}

/-! ## Finalized blocks -/

end BlockPolling

end Biscuit.Wire
