import Biscuit.Core.Run
import Biscuit.Models.Chain.Wire

/-!
# Polling blocks

One task passes the slots that are optimistically confirmed to a queue, workers fetch their
blocks. A slot whose block is not there yet, or is wanted again once it is finalized, goes to
the retry queue; the replay task passes it on to the schedule queue when its time has come.
The slot poller keeps the most recent slot.
-/

namespace Biscuit.Wire

/-- Commitment scheme to employ when polling blocks. -/
inductive CommitmentScheme
  | confirmedOnly
  | finalizedOnly
  | both
  deriving DecidableEq, Repr

namespace CommitmentScheme

def shouldSendConfirmedBlocks : CommitmentScheme → Bool
  | confirmedOnly => true
  | finalizedOnly => false
  | both => true

def shouldSendFinalizedBlocks : CommitmentScheme → Bool
  | confirmedOnly => false
  | finalizedOnly => true
  | both => true

end CommitmentScheme

/-- What `start_block_polling_tasks` is asked for. -/
structure BlockPollingConfig where
  numParallelTasks : ℕ
  retryAfterMs : Option ℕ
  commitmentScheme : Option CommitmentScheme
  deriving DecidableEq, Repr

namespace BlockPollingConfig

/-- The scheme that is used. -/
def scheme (cfg : BlockPollingConfig) : CommitmentScheme :=
  cfg.commitmentScheme.getD .confirmedOnly

/-- `DEFAULT_RETRY_BLOCKS_DELAY_MS` -/
def retryDelay (cfg : BlockPollingConfig) : ℕ := cfg.retryAfterMs.getD 10

end BlockPollingConfig

/-- `DEFAULT_FINALIZED_DELAY_S`, in milliseconds. -/
def finalizedDelay : ℕ := 2 * 1000

/-- An item of the retry queue. -/
structure SlotRetry where
  slot : ℕ
  commitment : CommitmentLevel
  /-- It is not passed on before. -/
  retryAt : ℕ
  deriving DecidableEq, Repr

/-- Where a worker is. -/
inductive BlockWorker
  | receiving
  | fetching (slot : ℕ)
  | exited
  deriving DecidableEq, Repr

/-- Where the replay task is. -/
inductive ReplayTask
  | receiving
  | sleeping (item : SlotRetry)
  | exited
  deriving DecidableEq, Repr

/-- The item that the replay task waits to pass on. -/
def ReplayTask.item : ReplayTask → Option SlotRetry
  | receiving => none
  | sleeping item => some item
  | exited => none

/-- Where the slot poller is. -/
inductive SlotPoller
  /-- It asks for the current slot. -/
  | starting
  | running
  | exited
  deriving DecidableEq, Repr

/-- The queues and the tasks, and what the run has seen. -/
structure BlockPolling where
  now : ℕ
  recentSlot : ℕ
  /-- `start_block_polling_tasks` has returned, and dropped its ends of the queues. -/
  returned : Bool
  /-- The task that receives slot updates runs. -/
  subscribed : Bool
  slotQueue : List ℕ
  workers : List BlockWorker
  slotRetryQueue : List SlotRetry
  replay : ReplayTask
  blockScheduleQueue : List (ℕ × CommitmentLevel)
  slotPoller : SlotPoller
  /-- The optimistically confirmed slots received. -/
  received : List ℕ
  /-- The slots whose blocks were sent. -/
  sent : List ℕ
  /-- What was put on the retry queue. -/
  rescheduled : List SlotRetry
  /-- What the workers have fetched. -/
  fetches : List (ℕ × CommitmentLevel)
  /-- What the replay task has ignored because of its age. -/
  tooOld : List SlotRetry
  deriving DecidableEq, Repr

/-- What happens next. -/
inductive BlockEvent
  /-- A slot is optimistically confirmed. -/
  | slotUpdate (slot : ℕ)
  /-- There are no more slot updates. -/
  | updatesEnd
  /-- `start_block_polling_tasks` returns. -/
  | returns
  /-- A worker asks for a slot. -/
  | receive (i : ℕ)
  /-- A worker learns whether there is a block for its slot. -/
  | fetched (i : ℕ) (found : Bool)
  /-- The replay task asks for an item. -/
  | replayReceive
  /-- The replay task passes its item on. -/
  | replaySend
  | tick (ms : ℕ)
  /-- The slot poller learns the current slot, or that there is an error. -/
  | currentSlot (slot : Option ℕ)
  /-- The slot poller is notified of a processed slot, or of an error. -/
  | processed (slot : Option ℕ)
  deriving DecidableEq, Repr

namespace BlockPolling

/-- Everything is spawned. -/
def init (cfg : BlockPollingConfig) : BlockPolling where
  now := 0
  recentSlot := 0
  returned := false
  subscribed := true
  slotQueue := []
  workers := List.replicate cfg.numParallelTasks .receiving
  slotRetryQueue := []
  replay := .receiving
  blockScheduleQueue := []
  slotPoller := .starting
  received := []
  sent := []
  rescheduled := []
  fetches := []
  tooOld := []

variable (x : BlockPolling)

/-- A receiver of the slot queue and a sender to the retry queue exist: each worker has both,
and so has `start_block_polling_tasks`. -/
def hasWorkers : Bool := !x.returned || x.workers.any fun w => decide (w ≠ .exited)

/-- The workers resubscribe to the schedule queue and leave their receivers behind, so the one
of `start_block_polling_tasks` is the only one. -/
def hasScheduleReceiver : Bool := !x.returned

/-- `slot_sender.send` -/
def onSlotUpdate (slot : ℕ) : BlockPolling :=
  if x.subscribed then
    if x.hasWorkers then
      { x with slotQueue := x.slotQueue ++ [slot], received := x.received ++ [slot] }
    else { x with subscribed := false, received := x.received ++ [slot] }
  else x

/-- `slot_receiver.recv` -/
def onReceive (i : ℕ) : BlockPolling :=
  if x.workers[i]? = some .receiving then
    match x.slotQueue with
    | slot :: rest =>
      { x with slotQueue := rest, workers := x.workers.set i (.fetching slot) }
    | [] => if x.subscribed then x else { x with workers := x.workers.set i .exited }
  else x

/-- `slot_retry_queue_sx.send`: a worker goes on if the replay task still receives. -/
def reschedule (i : ℕ) (item : SlotRetry) : BlockPolling :=
  if x.replay = .exited then { x with workers := x.workers.set i .exited }
  else
    { x with
      slotRetryQueue := x.slotRetryQueue ++ [item]
      rescheduled := x.rescheduled ++ [item]
      workers := x.workers.set i .receiving }

/-- A worker has fetched a block, and sends it where confirmed blocks are sent. -/
def sendBlock (cfg : BlockPollingConfig) (slot : ℕ) : BlockPolling :=
  { x with
    fetches := x.fetches ++ [(slot, .confirmed)]
    sent := if cfg.scheme.shouldSendConfirmedBlocks then x.sent ++ [slot] else x.sent }

/-- A fetched block is to be fetched again once it is finalized, where finalized blocks are
sent. -/
def onBlock (cfg : BlockPollingConfig) (i slot : ℕ) : BlockPolling :=
  if cfg.scheme.shouldSendFinalizedBlocks then
    (x.sendBlock cfg slot).reschedule i ⟨slot, .finalized, x.now + finalizedDelay⟩
  else { x.sendBlock cfg slot with workers := x.workers.set i .receiving }

/-- `fetch_block` -/
def onFetched (cfg : BlockPollingConfig) (i : ℕ) (found : Bool) : BlockPolling :=
  match x.workers[i]? with
  | some (.fetching slot) =>
    if found then x.onBlock cfg i slot
    else x.reschedule i ⟨slot, .confirmed, x.now + cfg.retryDelay⟩
  | _ => x

/-- `slot_retry_queue_rx.recv` -/
def onReplayReceive : BlockPolling :=
  if x.replay = .receiving then
    match x.slotRetryQueue with
    | item :: rest =>
      if 128 < x.recentSlot - item.slot then
        { x with slotRetryQueue := rest, tooOld := x.tooOld ++ [item] }
      else { x with slotRetryQueue := rest, replay := .sleeping item }
    | [] => if x.hasWorkers then x else { x with replay := .exited }
  else x

/-- `block_schedule_queue_sx.send`: without a receiver the replay task ends. -/
def onReplaySend : BlockPolling :=
  match x.replay with
  | .sleeping item =>
    if item.retryAt ≤ x.now then
      if x.hasScheduleReceiver then
        { x with
          replay := .receiving
          blockScheduleQueue := x.blockScheduleQueue ++ [(item.slot, item.commitment)] }
      else { x with replay := .exited, slotRetryQueue := [] }
    else x
  | _ => x

/-- `get_slot` -/
def onCurrentSlot (slot : Option ℕ) : BlockPolling :=
  if x.slotPoller = .starting then
    match slot with
    | some slot => { x with slotPoller := .running, recentSlot := slot }
    | none => { x with slotPoller := .exited }
  else x

/-- `slot_notification.recv`: without a receiver of the schedule queue the slot poller ends. -/
def onProcessed (slot : Option ℕ) : BlockPolling :=
  if x.slotPoller = .running then
    match slot with
    | some slot =>
      if x.hasScheduleReceiver then
        { x with
          recentSlot := slot
          blockScheduleQueue := x.blockScheduleQueue ++ [(slot, .confirmed)] }
      else { x with recentSlot := slot, slotPoller := .exited }
    | none => { x with slotPoller := .exited }
  else x

/-- One step of the tasks. -/
def step (cfg : BlockPollingConfig) : BlockEvent → BlockPolling
  | .slotUpdate slot => x.onSlotUpdate slot
  | .updatesEnd => { x with subscribed := false }
  | .returns => { x with returned := true, blockScheduleQueue := [] }
  | .receive i => x.onReceive i
  | .fetched i found => x.onFetched cfg i found
  | .replayReceive => x.onReplayReceive
  | .replaySend => x.onReplaySend
  | .tick ms => { x with now := x.now + ms }
  | .currentSlot slot => x.onCurrentSlot slot
  | .processed slot => x.onProcessed slot

end BlockPolling

end Biscuit.Wire
