import Biscuit.Core.Checked
import Biscuit.Core.Run

/-!
# Slot notifications

`poll_slots` runs two tasks. The first one asks a node for its slot and passes on what is newer than
the last answer. The second one turns these slots into notifications, and when none arrives in time
it moves an estimate ahead of the last slot. The guards of the two changes refer to each other: the
estimate is never behind the slot, nor more than 32 slots ahead of it.
-/

namespace Biscuit.Wire

/-- `SlotNotification` -/
@[ext] structure SlotNotification where
  processedSlot : ℕ
  estimatedProcessedSlot : ℕ
  deriving DecidableEq, Repr

/-- Why a task of `poll_slots` fails. -/
inductive SlotError
  /-- `Error sending slot` -/
  | sendingSlot
  /-- `Exceeded error count to get slots from rpc {e:?}` -/
  | exceededErrorCount (e : String)
  /-- `Error getting slot` -/
  | gettingSlot
  /-- `Cannot send slot notification` -/
  | sendingNotification
  deriving DecidableEq, Repr

/-! ## The task that polls -/

/-- Where `poll_commitment_slots` is. -/
inductive CommitmentPoller
  /-- It waits for its next poll. -/
  | sleeping (lastSlot errors : ℕ)
  /-- It waits for the answer of the node. -/
  | asking (lastSlot errors : ℕ)
  | ended (result : Outcome SlotError Unit)
  deriving DecidableEq, Repr

/-- The task of `poll_commitment_slots` with the slots that it has passed on. -/
structure CommitmentPolling where
  poller : CommitmentPoller
  passed : List ℕ
  deriving DecidableEq, Repr

namespace CommitmentPolling

/-- The task before its first poll. -/
def start : CommitmentPolling := ⟨.sleeping 0 0, []⟩

/-- The poll interval is over. -/
def tick (x : CommitmentPolling) (exitSignal : Bool) : CommitmentPolling :=
  match x.poller with
  | .sleeping lastSlot errors =>
    if exitSignal then { x with poller := .ended (.ok ()) }
    else { x with poller := .asking lastSlot errors }
  | _ => x

/-- The node answers; a slot that is newer is sent, if there still is a receiver. -/
def answer (x : CommitmentPolling) (receiving : Bool) (slot : Except String ℕ) :
    CommitmentPolling :=
  match x.poller, slot with
  | .asking lastSlot _, .ok slot =>
    if slot > lastSlot then
      if receiving then ⟨.sleeping slot 0, x.passed ++ [slot]⟩
      else { x with poller := .ended (.err .sendingSlot) }
    else { x with poller := .sleeping lastSlot 0 }
  | .asking lastSlot errors, .error e =>
    if errors + 1 > 10 then { x with poller := .ended (.err (.exceededErrorCount e)) }
    else { x with poller := .sleeping lastSlot (errors + 1) }
  | _, _ => x

end CommitmentPolling

/-! ## The task that notifies -/

/-- What comes of a receive that waits for `AVERAGE_SLOT_CHANGE_TIME` at most. -/
inductive SlotUpdate
  | slot (slot : ℕ)
  /-- The other task has ended and nothing is left of what it has sent. -/
  | closed
  | timeout
  deriving DecidableEq, Repr

/-- Where the second task of `poll_slots` is. -/
inductive SlotNotifier
  /-- It waits for the slot to start at. -/
  | starting
  /-- It waits for the next slot update. -/
  | waiting (currentSlot estimatedSlot : ℕ)
  | ended (result : Outcome SlotError Unit)
  deriving DecidableEq, Repr

/-- The notification that an update or a timeout calls for. The slots it has are those the task goes
on with. -/
def nextNotification (build : Build) (currentSlot estimatedSlot : ℕ) :
    SlotUpdate → Outcome SlotError (Option SlotNotification)
  | .slot slot =>
    -- slot is latest
    if slot > currentSlot then
      .ok (some ⟨slot, if slot > estimatedSlot then slot else estimatedSlot⟩)
    else .ok none
  | .closed => .ok none
  | .timeout => do
    -- estimated slot should not go ahead more than 32 slots
    let limit ← build.add 64 currentSlot 32
    if estimatedSlot < limit then do
      let estimatedSlot ← build.add 64 estimatedSlot 1
      pure (some ⟨currentSlot, estimatedSlot⟩)
    else pure none

/-- The head of the loop. -/
def loopHead (exitSignal : Bool) (currentSlot estimatedSlot : ℕ) : SlotNotifier :=
  if exitSignal then .ended (.ok ()) else .waiting currentSlot estimatedSlot

/-- What the second task sees in one iteration of its loop. -/
structure SeenUpdate where
  update : SlotUpdate
  /-- Whether there is a receiver for a notification. -/
  receiving : Bool
  /-- Whether the exit signal is set at the end of the iteration. -/
  exitSignal : Bool
  deriving DecidableEq, Repr

/-- The second task with the notifications that it has sent. -/
structure SlotPolling where
  notifier : SlotNotifier
  sent : List SlotNotification
  deriving DecidableEq, Repr

namespace SlotPolling

/-- The answer of the node with the slot to start at. -/
def start (exitSignal : Bool) : Except String ℕ → SlotPolling
  | .ok slot => ⟨loopHead exitSignal slot slot, []⟩
  | .error _ => ⟨.ended (.err .gettingSlot), []⟩

/-- What the task does with the notification that is called for. -/
def notify (x : SlotPolling) (seen : SeenUpdate) (currentSlot estimatedSlot : ℕ) :
    Outcome SlotError (Option SlotNotification) → SlotPolling
  | .ok (some n) =>
    if seen.receiving then
      ⟨loopHead seen.exitSignal n.processedSlot n.estimatedProcessedSlot, x.sent ++ [n]⟩
    else { x with notifier := .ended (.err .sendingNotification) }
  | .ok none => { x with notifier := loopHead seen.exitSignal currentSlot estimatedSlot }
  | .err error => { x with notifier := .ended (.err error) }
  | .panic => { x with notifier := .ended .panic }

/-- One iteration of the loop. -/
def step (build : Build) (x : SlotPolling) (seen : SeenUpdate) : SlotPolling :=
  match x.notifier with
  | .waiting currentSlot estimatedSlot =>
    if seen.update = .closed then { x with notifier := .ended (.ok ()) }
    else
      x.notify seen currentSlot estimatedSlot
        (nextNotification build currentSlot estimatedSlot seen.update)
  | _ => x

end SlotPolling

/-! ## The two tasks together -/

/-- The tasks of `poll_slots` and the channel between them. -/
structure PollSlots where
  first : CommitmentPolling
  second : SlotPolling
  /-- How many of the slots that were passed on have been received; the rest is in the channel. -/
  received : ℕ
  exitSignal : Bool
  deriving DecidableEq, Repr

/-- What happens next. -/
inductive PollSlotsEvent
  /-- The poll interval is over. -/
  | tick
  /-- The node answers the first task. -/
  | answer (slot : Except String ℕ)
  /-- It answers the second task with the slot to start at. -/
  | start (slot : Except String ℕ)
  /-- The second task receives from the channel. -/
  | receive (receiving : Bool)
  /-- It has waited long enough. -/
  | timeout (receiving : Bool)
  /-- The exit signal is set. -/
  | exit
  deriving DecidableEq, Repr

namespace PollSlots

/-- Both tasks before they do anything. -/
def start (exitSignal : Bool) : PollSlots := ⟨.start, ⟨.starting, []⟩, 0, exitSignal⟩

/-- Whether the second task still holds its end of the channel. -/
def receiving (x : PollSlots) : Bool :=
  match x.second.notifier with
  | .ended _ => false
  | _ => true

/-- What is in the channel. -/
def channel (x : PollSlots) : List ℕ := x.first.passed.drop x.received

/-- Whether the first task has ended, so that nothing more comes. -/
def closed (x : PollSlots) : Bool :=
  match x.first.poller with
  | .ended _ => true
  | _ => false

/-- The second task sees an update. -/
def see (build : Build) (x : PollSlots) (update : SlotUpdate) (receiving : Bool) : PollSlots :=
  { x with second := x.second.step build ⟨update, receiving, x.exitSignal⟩ }

/-- One step of either task. An event that is not possible changes nothing. -/
def step (build : Build) (x : PollSlots) : PollSlotsEvent → PollSlots
  | .tick => { x with first := x.first.tick x.exitSignal }
  | .answer slot => { x with first := x.first.answer x.receiving slot }
  | .start slot =>
    if x.second.notifier = .starting then { x with second := .start x.exitSignal slot } else x
  | .receive receiving =>
    match x.channel with
    | slot :: _ =>
      if x.second.notifier = .starting then x
      else { x.see build (.slot slot) receiving with received := x.received + 1 }
    | [] => if x.closed then x.see build .closed receiving else x
  | .timeout receiving =>
    if x.channel = [] ∧ x.closed = false then x.see build .timeout receiving else x
  | .exit => { x with exitSignal := true }

end PollSlots

/-! ## The order of notifications -/

/-- Increasing values increase with one more that is greater than all of them. -/
theorem pairwise_lt_append {α : Type} [Preorder α] {l : List α} {b : α}
    (hl : l.Pairwise (· < ·)) (hb : ∀ a ∈ l, a < b) : (l ++ [b]).Pairwise (· < ·) :=
  List.pairwise_append.mpr ⟨hl, List.pairwise_singleton _ _, fun a ha =>
    List.forall_mem_singleton.mpr (hb a ha)⟩

/-- Notifications are ordered by both of their slots. -/
instance : PartialOrder SlotNotification :=
  PartialOrder.lift (fun n => (n.processedSlot, n.estimatedProcessedSlot)) fun _ _ h =>
    SlotNotification.ext (congrArg Prod.fst h) (congrArg Prod.snd h)

theorem SlotNotification.le_iff {a b : SlotNotification} :
    a ≤ b ↔ a.processedSlot ≤ b.processedSlot ∧
      a.estimatedProcessedSlot ≤ b.estimatedProcessedSlot := Iff.rfl

/-- The estimate is not behind the slot and at most 32 slots ahead of it. -/
def SlotNotification.InBand (n : SlotNotification) : Prop :=
  n.processedSlot ≤ n.estimatedProcessedSlot ∧
    n.estimatedProcessedSlot ≤ n.processedSlot + 32

/-- The estimates stay in their band, neither slot ever decreases, and every notification differs
from the one before it. -/
structure IsSane (sent : List SlotNotification) : Prop where
  band : ∀ n ∈ sent, n.InBand
  nondecreasing : sent.Pairwise fun a b => a.processedSlot ≤ b.processedSlot ∧
    a.estimatedProcessedSlot ≤ b.estimatedProcessedSlot
  changes : sent.IsChain (· ≠ ·)

/-- A list of notifications in the band is sane if it increases strictly. -/
theorem IsSane.of_pairwise_lt {sent : List SlotNotification} (hband : ∀ n ∈ sent, n.InBand)
    (hsent : sent.Pairwise (· < ·)) : IsSane sent where
  band := hband
  nondecreasing := hsent.imp fun hlt => SlotNotification.le_iff.mp hlt.le
  changes := (hsent.imp fun hlt => hlt.ne).isChain

/-- A notification moves ahead and keeps the estimate in its band. -/
theorem nextNotification_spec {build : Build} {currentSlot estimatedSlot : ℕ} {update : SlotUpdate}
    {n : SlotNotification} (hband : (⟨currentSlot, estimatedSlot⟩ : SlotNotification).InBand)
    (h : nextNotification build currentSlot estimatedSlot update = .ok (some n)) :
    ⟨currentSlot, estimatedSlot⟩ < n ∧ n.InBand := by
  obtain ⟨hbehind, hahead⟩ := hband
  dsimp only at hbehind hahead
  rw [lt_iff_le_not_ge, SlotNotification.le_iff, SlotNotification.le_iff, SlotNotification.InBand]
  cases update with
  | slot slot =>
    rw [nextNotification] at h
    split_ifs at h with hlatest hestimate <;> cases h <;> dsimp only <;> omega
  | closed => cases h
  | timeout =>
    -- A limit that wraps is below the estimate, so that nothing is sent.
    obtain ⟨limit, hlimit, h⟩ := Outcome.bind_eq_ok.mp h
    obtain ⟨hle, hfits⟩ := Build.bounds_of_word_eq_ok hlimit
    split_ifs at h with hlt
    · rw [Build.add_ok build (by omega)] at h
      cases h
      dsimp only
      omega
    · cases h

/-- What the second task has sent is sane, and whatever it sends next comes after it. -/
structure SlotPolling.Sane (x : SlotPolling) : Prop where
  band : ∀ n ∈ x.sent, n.InBand
  increasing : x.sent.Pairwise (· < ·)
  waiting : ∀ currentSlot estimatedSlot, x.notifier = .waiting currentSlot estimatedSlot →
    (⟨currentSlot, estimatedSlot⟩ : SlotNotification).InBand ∧
      ∀ n ∈ x.sent, n ≤ ⟨currentSlot, estimatedSlot⟩

namespace SlotPolling

theorem loopHead_eq_waiting {exitSignal : Bool} {currentSlot estimatedSlot c e : ℕ}
    (h : loopHead exitSignal currentSlot estimatedSlot = .waiting c e) :
    c = currentSlot ∧ e = estimatedSlot := by
  cases exitSignal with
  | true => cases h
  | false =>
    cases h
    exact ⟨rfl, rfl⟩

theorem start_sane (exitSignal : Bool) (slot : Except String ℕ) : (start exitSignal slot).Sane := by
  cases slot with
  | error e => exact ⟨nofun, .nil, nofun⟩
  | ok slot =>
    refine ⟨nofun, .nil, ?_⟩
    intro c e h
    obtain ⟨rfl, rfl⟩ := loopHead_eq_waiting h
    exact ⟨⟨le_rfl, Nat.le_add_right _ _⟩, nofun⟩

/-- A task that has ended is sane if what it has sent is. -/
theorem Sane.ended {x : SlotPolling} (h : x.Sane) (result : Outcome SlotError Unit) :
    Sane { x with notifier := .ended result } :=
  ⟨h.band, h.increasing, nofun⟩

/-- The task goes on with the slots that it has. -/
theorem Sane.loop {x : SlotPolling} (h : x.Sane) {currentSlot estimatedSlot : ℕ}
    (hx : x.notifier = .waiting currentSlot estimatedSlot) (exitSignal : Bool) :
    Sane { x with notifier := loopHead exitSignal currentSlot estimatedSlot } := by
  refine ⟨h.band, h.increasing, ?_⟩
  intro c e hloop
  obtain ⟨rfl, rfl⟩ := loopHead_eq_waiting hloop
  exact h.waiting _ _ hx

/-- The task sends a notification and goes on with its slots. -/
theorem Sane.send {x : SlotPolling} (h : x.Sane) {currentSlot estimatedSlot : ℕ}
    (hx : x.notifier = .waiting currentSlot estimatedSlot) {n : SlotNotification}
    (hn : ⟨currentSlot, estimatedSlot⟩ < n) (hband : n.InBand) (exitSignal : Bool) :
    Sane ⟨loopHead exitSignal n.processedSlot n.estimatedProcessedSlot, x.sent ++ [n]⟩ := by
  have hlt : ∀ m ∈ x.sent, m < n := fun m hm => ((h.waiting _ _ hx).2 m hm).trans_lt hn
  refine ⟨?_, pairwise_lt_append h.increasing hlt, ?_⟩
  · exact List.forall_mem_append.mpr ⟨h.band, List.forall_mem_singleton.mpr hband⟩
  · intro c e hloop
    obtain ⟨rfl, rfl⟩ := loopHead_eq_waiting hloop
    have hle : ∀ m ∈ x.sent, m ≤ n := fun m hm => (hlt m hm).le
    exact ⟨hband, List.forall_mem_append.mpr ⟨hle, List.forall_mem_singleton.mpr le_rfl⟩⟩

theorem Sane.step {x : SlotPolling} (h : x.Sane) (build : Build) (seen : SeenUpdate) :
    (x.step build seen).Sane := by
  rw [SlotPolling.step]
  cases hx : x.notifier with
  | starting => exact h
  | ended result => exact h
  | waiting currentSlot estimatedSlot =>
    dsimp only
    split_ifs with hclosed
    · exact h.ended _
    · cases hnext : nextNotification build currentSlot estimatedSlot seen.update with
      | err error => exact h.ended _
      | panic => exact h.ended _
      | ok found =>
        cases found with
        | none => exact h.loop hx _
        | some n =>
          obtain ⟨hlt, hband⟩ := nextNotification_spec (h.waiting _ _ hx).1 hnext
          rw [notify]
          split_ifs with hreceiving
          · exact h.send hx hlt hband _
          · exact h.ended _

end SlotPolling

/-- Whatever slot `poll_slots` starts at and whatever updates and timeouts it sees, the
notifications that it sends are sane. -/
theorem pollSlots_isSane (build : Build) (exitSignal : Bool) (slot : ℕ) (seen : List SeenUpdate) :
    IsSane (exec (SlotPolling.step build) (.start exitSignal (.ok slot)) seen).sent := by
  have hsane := exec_preserves (fun x e (h : x.Sane) => h.step build e) seen
    (SlotPolling.start_sane exitSignal (.ok slot))
  exact .of_pairwise_lt hsane.band hsane.increasing

/-! ## Runs of both tasks -/

namespace CommitmentPolling

/-- The slots that were passed on increase, and none is newer than the last one. -/
structure Ordered (x : CommitmentPolling) : Prop where
  increasing : x.passed.Pairwise (· < ·)
  sleeping : ∀ lastSlot errors, x.poller = .sleeping lastSlot errors →
    ∀ slot ∈ x.passed, slot ≤ lastSlot
  asking : ∀ lastSlot errors, x.poller = .asking lastSlot errors →
    ∀ slot ∈ x.passed, slot ≤ lastSlot

theorem start_ordered : Ordered start := ⟨.nil, nofun, nofun⟩

theorem Ordered.ended {x : CommitmentPolling} (h : x.Ordered) (result : Outcome SlotError Unit) :
    Ordered { x with poller := .ended result } :=
  ⟨h.increasing, nofun, nofun⟩

theorem Ordered.tick {x : CommitmentPolling} (h : x.Ordered) (exitSignal : Bool) :
    (x.tick exitSignal).Ordered := by
  rw [CommitmentPolling.tick]
  cases hx : x.poller with
  | asking lastSlot errors => exact h
  | ended result => exact h
  | sleeping lastSlot errors =>
    cases exitSignal with
    | true => exact h.ended _
    | false =>
      refine ⟨h.increasing, nofun, ?_⟩
      intro _ _ hasking
      cases hasking
      exact h.sleeping _ _ hx

/-- The task sleeps with a last slot that no slot it has passed on exceeds. -/
theorem Ordered.sleep {passed : List ℕ} (h : passed.Pairwise (· < ·)) {lastSlot : ℕ}
    (hlast : ∀ slot ∈ passed, slot ≤ lastSlot) (errors : ℕ) :
    Ordered ⟨.sleeping lastSlot errors, passed⟩ := by
  refine ⟨h, ?_, nofun⟩
  intro _ _ hsleeping
  cases hsleeping
  exact hlast

theorem Ordered.answer {x : CommitmentPolling} (h : x.Ordered) (receiving : Bool)
    (slot : Except String ℕ) : (x.answer receiving slot).Ordered := by
  rw [CommitmentPolling.answer.eq_def]
  cases hx : x.poller with
  | sleeping lastSlot errors => exact h
  | ended result => exact h
  | asking lastSlot errors =>
    have hlast := h.asking _ _ hx
    cases slot with
    | error e =>
      dsimp only
      split_ifs with hmany
      · exact h.ended _
      · exact .sleep h.increasing hlast _
    | ok slot =>
      dsimp only
      split_ifs with hnewer hreceiving
      · have hlt : ∀ m ∈ x.passed, m < slot := fun m hm => (hlast m hm).trans_lt hnewer
        have hle : ∀ m ∈ x.passed, m ≤ slot := fun m hm => (hlt m hm).le
        exact .sleep (pairwise_lt_append h.increasing hlt)
          (List.forall_mem_append.mpr ⟨hle, List.forall_mem_singleton.mpr le_rfl⟩) _
      · exact h.ended _
      · exact .sleep h.increasing hlast _

end CommitmentPolling

namespace PollSlots

/-- The slots that are passed on increase, and the notifications are sane. -/
structure Sane (x : PollSlots) : Prop where
  first : x.first.Ordered
  second : x.second.Sane

theorem Sane.see {x : PollSlots} (h : x.Sane) (build : Build) (update : SlotUpdate)
    (receiving : Bool) : (x.see build update receiving).Sane :=
  ⟨h.first, h.second.step build _⟩

theorem Sane.step {x : PollSlots} (h : x.Sane) (build : Build) (e : PollSlotsEvent) :
    (x.step build e).Sane := by
  cases e with
  | tick => exact ⟨h.first.tick _, h.second⟩
  | answer slot => exact ⟨h.first.answer _ _, h.second⟩
  | start slot =>
    rw [PollSlots.step]
    split_ifs with hstarting
    · exact ⟨h.first, SlotPolling.start_sane _ _⟩
    · exact h
  | receive receiving =>
    rw [PollSlots.step]
    cases x.channel with
    | nil =>
      dsimp only
      split_ifs with hclosed
      · exact h.see build _ _
      · exact h
    | cons slot rest =>
      dsimp only
      split_ifs with hstarting
      · exact h
      · obtain ⟨hfirst, hsecond⟩ := h.see build (.slot slot) receiving
        exact ⟨hfirst, hsecond⟩
  | timeout receiving =>
    rw [PollSlots.step]
    split_ifs with hwaiting
    · exact h.see build _ _
    · exact h
  | exit => exact ⟨h.first, h.second⟩

/-- In every run of both tasks, whatever the node answers and however they interleave, the slots
passed on increase and the notifications are sane. -/
theorem exec_isSane (build : Build) (exitSignal : Bool) (es : List PollSlotsEvent) :
    (exec (step build) (start exitSignal) es).first.passed.Pairwise (· < ·) ∧
      IsSane (exec (step build) (start exitSignal) es).second.sent := by
  have hstart : (start exitSignal).Sane :=
    ⟨CommitmentPolling.start_ordered, nofun, .nil, nofun⟩
  have hsane := exec_preserves (fun x e (h : x.Sane) => h.step build e) es hstart
  exact ⟨hsane.first.increasing, .of_pairwise_lt hsane.second.band hsane.second.increasing⟩

end PollSlots

end Biscuit.Wire
