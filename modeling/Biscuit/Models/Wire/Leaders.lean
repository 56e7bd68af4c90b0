import Biscuit.Models.Wire.Slots

/-!
# The slot of the leader tracker

`start_leader_tracker_tasks` runs a task that keeps the slot whose leaders come next: the processed
slot of the notifications, shifted by so many leaders. A receiver that lags is told so in place of a
notification. The task then takes the slot that it has shifted before and shifts it once more, so
that an offset ahead adds up, and an offset back may reach below zero.
-/

namespace Biscuit.Wire

/-- `NUM_SLOTS_PER_LEADER` -/
def numSlotsPerLeader : ℕ := 4

/-- Why the tracker is not started. -/
inductive LeaderError
  /-- What the node says about the slot. -/
  | slot (message : String)
  /-- `Error getting slot leaders: {}` or `Error getting cluster nodes: {}` -/
  | leaders (message : String)
  deriving DecidableEq, Repr

/-- `get_start_slot_from_offset` -/
def getStartSlotFromOffset (build : Build) (nextSlot : ℕ) (leaderOffset : ℤ) :
    Outcome LeaderError ℕ := do
  let slotBuffer ← build.int 64 (leaderOffset * numSlotsPerLeader)
  if slotBuffer > 0 then build.add 64 nextSlot (Build.unsigned 64 slotBuffer)
  else do
    let buffer ← build.int 64 |slotBuffer|
    build.sub 64 nextSlot (Build.unsigned 64 buffer)

/-- What a receive from the channel of notifications comes to. -/
inductive SlotMessage
  | notification (slot : SlotNotification)
  /-- `RecvError::Lagged` -/
  | lagged (skipped : ℕ)
  /-- `RecvError::Closed` -/
  | closed
  deriving DecidableEq, Repr

/-- The slot of the tracker and the task that keeps it. -/
structure LeaderTracker where
  slotUpdate : ℕ
  /-- How the task has ended. -/
  ended : Option (Outcome LeaderError Unit)
  /-- The notifications that were received. -/
  received : List SlotNotification
  deriving DecidableEq, Repr

/-- The slot that a message stands for, if the task goes on. -/
def SlotMessage.nextSlot (slotUpdate : ℕ) : SlotMessage → Option ℕ
  | .notification slot => some slot.processedSlot
  | .lagged _ => some slotUpdate
  | .closed => none

/-- The notification that a message brings. -/
def SlotMessage.received : SlotMessage → List SlotNotification
  | .notification slot => [slot]
  | _ => []

/-- The tracker of `start_leader_tracker_tasks`. -/
def startLeaderTrackerTasks (bootstrapSlotUpdate : Option ℕ) : LeaderTracker :=
  ⟨bootstrapSlotUpdate.getD 0, none, []⟩

/-- `bootstrap_leader_tracker_tasks`, for a node that answers with its slot and whose leaders from
some slot on are found or not. -/
def bootstrapLeaderTrackerTasks (build : Build) (slot : Except String ℕ)
    (leadersFrom : ℕ → Except String Unit) (leaderOffset : ℤ) :
    Outcome LeaderError LeaderTracker :=
  match slot with
  | .error e => .err (.slot e)
  | .ok slot => do
    let startSlot ← getStartSlotFromOffset build slot leaderOffset
    match leadersFrom startSlot with
    | .error e => .err (.leaders e)
    | .ok () => pure (startLeaderTrackerTasks (some startSlot))

namespace LeaderTracker

/-- A slot is stored if it is ahead of the one that is kept. -/
def store (x : LeaderTracker) : Outcome LeaderError ℕ → LeaderTracker
  | .ok startSlot => if startSlot > x.slotUpdate then { x with slotUpdate := startSlot } else x
  | .err error => { x with ended := some (.err error) }
  | .panic => { x with ended := some .panic }

/-- One iteration of the task. -/
def step (build : Build) (leaderOffset : ℤ) (x : LeaderTracker) (message : SlotMessage) :
    LeaderTracker :=
  match x.ended with
  | some _ => x
  | none =>
    match message.nextSlot x.slotUpdate with
    | none => { x with ended := some (.ok ()) }
    | some nextSlot =>
      { x.store (getStartSlotFromOffset build nextSlot leaderOffset) with
        received := x.received ++ message.received }

end LeaderTracker

/-! ## The shift -/

/-- A slot shifted by so many leaders, cut at zero. -/
def shiftedSlot (slot : ℕ) (leaderOffset : ℤ) : ℕ := (slot + 4 * leaderOffset).toNat

/-- The shift and every step of its computation stay within their types. -/
def ShiftFits (slot : ℕ) (leaderOffset : ℤ) : Prop :=
  -2 ^ 63 < 4 * leaderOffset ∧ 4 * leaderOffset < 2 ^ 63 ∧ 0 ≤ slot + 4 * leaderOffset ∧
    (0 < leaderOffset → slot + 4 * leaderOffset < 2 ^ 64)

/-- A shift that fits is exact in every build. -/
theorem getStartSlotFromOffset_ok (build : Build) {slot : ℕ} {leaderOffset : ℤ}
    (h : ShiftFits slot leaderOffset) :
    getStartSlotFromOffset build slot leaderOffset = .ok (shiftedSlot slot leaderOffset) := by
  obtain ⟨hlow, hhigh, hnonneg, hfits⟩ := h
  have hbuffer : leaderOffset * (numSlotsPerLeader : ℤ) = 4 * leaderOffset := mul_comm _ _
  rw [getStartSlotFromOffset, hbuffer, Build.int_ok build hlow.le hhigh, Outcome.ok_bind,
    shiftedSlot]
  split_ifs with hpos
  · rw [Build.unsigned_eq hpos.le (by omega), Build.add_ok build (by omega)]
    congr 1
    omega
  · have habs : |4 * leaderOffset| = -(4 * leaderOffset) := abs_of_nonpos (not_lt.mp hpos)
    rw [habs, Build.int_ok build (by omega) (by omega), Outcome.ok_bind,
      Build.unsigned_eq (by omega) (by omega), Build.sub_ok build 64 (by omega)]
    congr 1
    omega

/-- A build that checks refuses every other shift. -/
theorem getStartSlotFromOffset_checked_eq_panic {slot : ℕ} {leaderOffset : ℤ}
    (h : ¬ShiftFits slot leaderOffset) :
    getStartSlotFromOffset .checked slot leaderOffset = .panic := by
  have hbuffer : leaderOffset * (numSlotsPerLeader : ℤ) = 4 * leaderOffset := mul_comm _ _
  rw [getStartSlotFromOffset, hbuffer]
  by_cases hint : -2 ^ 63 ≤ 4 * leaderOffset ∧ 4 * leaderOffset < 2 ^ 63
  · rw [Build.int_ok _ hint.1 hint.2, Outcome.ok_bind]
    rw [ShiftFits] at h
    split_ifs with hpos
    · rw [Build.unsigned_eq hpos.le (by omega)]
      exact Build.word_checked_eq_panic (by omega)
    · have habs : |4 * leaderOffset| = -(4 * leaderOffset) := abs_of_nonpos (not_lt.mp hpos)
      rw [habs]
      by_cases hmin : -(4 * leaderOffset) < 2 ^ 63
      · rw [Build.int_ok _ (by omega) hmin, Outcome.ok_bind,
          Build.unsigned_eq (by omega) (by omega)]
        exact Build.sub_checked_eq_panic 64 (by omega)
      · -- The offset is the least one, whose absolute value does not fit.
        rw [Build.int_checked_eq_panic fun hfits => hmin hfits.2, Outcome.panic_bind]
  · rw [Build.int_checked_eq_panic hint, Outcome.panic_bind]

theorem getStartSlotFromOffset_checked_ne_panic_iff {slot : ℕ} {leaderOffset : ℤ} :
    getStartSlotFromOffset .checked slot leaderOffset ≠ .panic ↔ ShiftFits slot leaderOffset := by
  constructor
  · intro h
    by_contra hfits
    exact h (getStartSlotFromOffset_checked_eq_panic hfits)
  · intro h hpanic
    rw [getStartSlotFromOffset_ok _ h] at hpanic
    cases hpanic

/-- A tracker that is bootstrapped starts at the node's slot, shifted. -/
theorem bootstrapLeaderTrackerTasks_ok (build : Build) {slot : ℕ} {leaderOffset : ℤ}
    (h : ShiftFits slot leaderOffset) {leadersFrom : ℕ → Except String Unit}
    (hleaders : leadersFrom (shiftedSlot slot leaderOffset) = .ok ()) :
    bootstrapLeaderTrackerTasks build (.ok slot) leadersFrom leaderOffset =
      .ok (startLeaderTrackerTasks (some (shiftedSlot slot leaderOffset))) := by
  rw [bootstrapLeaderTrackerTasks, getStartSlotFromOffset_ok build h, Outcome.ok_bind, hleaders]
  rfl

/-! ## Runs of the tracker -/

/-- The maximum of the initial slot and of the slots of some notifications, shifted. -/
def trackedSlot (leaderOffset : ℤ) (initial : ℕ) (received : List SlotNotification) : ℕ :=
  received.foldl (fun slot n => max slot (shiftedSlot n.processedSlot leaderOffset)) initial

namespace LeaderTracker

variable (build : Build) (leaderOffset : ℤ) (initial : ℕ)

/-- After a step the tracker is at the maximum, a receiver that lags has not moved it, and no
computation of the step has left its type. -/
structure KeepsOffset (x : LeaderTracker) (message : SlotMessage) : Prop where
  slotUpdate : (x.step build leaderOffset message).slotUpdate =
    trackedSlot leaderOffset initial (x.step build leaderOffset message).received
  lagged : ∀ skipped, message = .lagged skipped →
    (x.step build leaderOffset message).slotUpdate = x.slotUpdate
  exact : x.ended = none → ∀ nextSlot, message.nextSlot x.slotUpdate = some nextSlot →
    getStartSlotFromOffset .checked nextSlot leaderOffset ≠ .panic

/-- What a step needs: a shift that fits, and none ahead where the receiver lags. -/
def Permits (x : LeaderTracker) (message : SlotMessage) : Prop :=
  x.ended = none →
    match message with
    | .notification slot => ShiftFits slot.processedSlot leaderOffset
    | .lagged _ => leaderOffset ≤ 0 ∧ ShiftFits x.slotUpdate leaderOffset
    | .closed => True

variable {build leaderOffset initial}

/-- A slot that fits is stored exactly. -/
theorem store_slotUpdate (x : LeaderTracker) {slot : ℕ} (h : ShiftFits slot leaderOffset) :
    x.store (getStartSlotFromOffset build slot leaderOffset) =
      { x with slotUpdate := max x.slotUpdate (shiftedSlot slot leaderOffset) } := by
  rw [getStartSlotFromOffset_ok build h, store]
  split_ifs with hahead
  · rw [max_eq_right hahead.le]
  · rw [max_eq_left (not_lt.mp hahead)]

theorem step_of_ended (x : LeaderTracker) {result : Outcome LeaderError Unit}
    (h : x.ended = some result) (message : SlotMessage) :
    x.step build leaderOffset message = x := by
  rw [step, h]

/-- A step that shifts a slot that fits. -/
theorem step_of_shiftFits (x : LeaderTracker) (h : x.ended = none) {message : SlotMessage}
    {slot : ℕ} (hslot : message.nextSlot x.slotUpdate = some slot)
    (hfits : ShiftFits slot leaderOffset) :
    x.step build leaderOffset message =
      { x with
        slotUpdate := max x.slotUpdate (shiftedSlot slot leaderOffset)
        received := x.received ++ message.received } := by
  rw [step, h]
  dsimp only
  rw [hslot]
  dsimp only
  rw [store_slotUpdate x hfits, h]

theorem trackedSlot_append (received : List SlotNotification) (slot : SlotNotification) :
    trackedSlot leaderOffset initial (received ++ [slot]) =
      max (trackedSlot leaderOffset initial received)
        (shiftedSlot slot.processedSlot leaderOffset) :=
  List.foldl_append

/-- A slot is moved ahead exactly by an offset ahead. -/
theorem shiftedSlot_le_iff {slot : ℕ} :
    shiftedSlot slot leaderOffset ≤ slot ↔ leaderOffset ≤ 0 := by
  rw [shiftedSlot]
  omega

/-- A task that has ended stays at the maximum. -/
theorem keepsOffset_of_ended (x : LeaderTracker) {result : Outcome LeaderError Unit}
    (hended : x.ended = some result) (message : SlotMessage)
    (h : x.slotUpdate = trackedSlot leaderOffset initial x.received) :
    x.KeepsOffset build leaderOffset initial message := by
  have hstep : x.step build leaderOffset message = x := x.step_of_ended hended message
  refine ⟨?_, ?_, ?_⟩
  · rw [hstep, h]
  · intro _ _
    rw [hstep]
  · intro hnone
    rw [hended] at hnone
    cases hnone

theorem keepsOffset_notification_iff (x : LeaderTracker) (hended : x.ended = none)
    (slot : SlotNotification) (h : x.slotUpdate = trackedSlot leaderOffset initial x.received) :
    x.KeepsOffset build leaderOffset initial (.notification slot) ↔
      ShiftFits slot.processedSlot leaderOffset := by
  constructor
  · intro hkeeps
    exact getStartSlotFromOffset_checked_ne_panic_iff.mp (hkeeps.exact hended _ rfl)
  · intro hfits
    refine ⟨?_, nofun, ?_⟩
    · rw [x.step_of_shiftFits hended rfl hfits]
      dsimp only [SlotMessage.received]
      rw [trackedSlot_append, h]
    · intro _ nextSlot hnext
      rw [← Option.some.inj hnext]
      exact getStartSlotFromOffset_checked_ne_panic_iff.mpr hfits

/-- A receiver that lags shifts the slot that is kept; only an offset that is not ahead leaves it
alone. -/
theorem keepsOffset_lagged_iff (x : LeaderTracker) (hended : x.ended = none) (skipped : ℕ)
    (h : x.slotUpdate = trackedSlot leaderOffset initial x.received) :
    x.KeepsOffset build leaderOffset initial (.lagged skipped) ↔
      leaderOffset ≤ 0 ∧ ShiftFits x.slotUpdate leaderOffset := by
  constructor
  · intro hkeeps
    have hfits : ShiftFits x.slotUpdate leaderOffset :=
      getStartSlotFromOffset_checked_ne_panic_iff.mp (hkeeps.exact hended _ rfl)
    have hstays := hkeeps.lagged skipped rfl
    rw [x.step_of_shiftFits hended rfl hfits] at hstays
    exact ⟨shiftedSlot_le_iff.mp (max_eq_left_iff.mp hstays), hfits⟩
  · rintro ⟨hback, hfits⟩
    have hmax : max x.slotUpdate (shiftedSlot x.slotUpdate leaderOffset) = x.slotUpdate :=
      max_eq_left (shiftedSlot_le_iff.mpr hback)
    refine ⟨?_, ?_, ?_⟩
    · rw [x.step_of_shiftFits hended rfl hfits]
      dsimp only [SlotMessage.received]
      rw [hmax, List.append_nil, h]
    · intro _ _
      rw [x.step_of_shiftFits hended rfl hfits]
      exact hmax
    · intro _ nextSlot hnext
      rw [← Option.some.inj hnext]
      exact getStartSlotFromOffset_checked_ne_panic_iff.mpr hfits

/-- From a tracker that is at the maximum a step keeps it there exactly when it is permitted. -/
theorem keepsOffset_iff_permits (x : LeaderTracker) (message : SlotMessage)
    (h : x.slotUpdate = trackedSlot leaderOffset initial x.received) :
    x.KeepsOffset build leaderOffset initial message ↔ x.Permits leaderOffset message := by
  cases hended : x.ended with
  | some result =>
    refine iff_of_true (x.keepsOffset_of_ended hended message h) ?_
    intro hnone
    rw [hended] at hnone
    cases hnone
  | none =>
    have hpermits {P : Prop} : P ↔ (x.ended = none → P) := ⟨fun hP _ => hP, fun hP => hP hended⟩
    cases message with
    | notification slot =>
      exact (x.keepsOffset_notification_iff hended slot h).trans hpermits
    | lagged skipped =>
      exact (x.keepsOffset_lagged_iff hended skipped h).trans hpermits
    | closed =>
      refine iff_of_true ⟨?_, nofun, nofun⟩ fun _ => trivial
      rw [step, hended]
      exact h

end LeaderTracker

/-- In every run of the tracker, every step keeps it at the maximum of its initial slot and of the
shifted slots that it has received, exactly when every step is permitted. -/
theorem leaderTracker_keepsOffset_iff (build : Build) (leaderOffset : ℤ)
    (bootstrapSlotUpdate : Option ℕ) (messages : List SlotMessage) :
    Along (LeaderTracker.step build leaderOffset)
        (LeaderTracker.KeepsOffset build leaderOffset (bootstrapSlotUpdate.getD 0))
        (startLeaderTrackerTasks bootstrapSlotUpdate) messages ↔
      Along (LeaderTracker.step build leaderOffset) (LeaderTracker.Permits leaderOffset)
        (startLeaderTrackerTasks bootstrapSlotUpdate) messages :=
  along_iff_along
    (I := fun x => x.slotUpdate =
      trackedSlot leaderOffset (bootstrapSlotUpdate.getD 0) x.received)
    (fun _ _ _ hkeeps => hkeeps.slotUpdate)
    (fun x message h => x.keepsOffset_iff_permits message h) rfl

/-- A receiver that lags while the offset is ahead moves the tracker. -/
theorem leaderTracker_lagged :
    ¬ ∀ (build : Build) (leaderOffset : ℤ) (bootstrapSlotUpdate : Option ℕ)
      (messages : List SlotMessage),
      -2 ^ 63 ≤ leaderOffset → leaderOffset < 2 ^ 63 →
      Along (LeaderTracker.step build leaderOffset)
        (LeaderTracker.KeepsOffset build leaderOffset (bootstrapSlotUpdate.getD 0))
        (startLeaderTrackerTasks bootstrapSlotUpdate) messages := by
  intro h
  have hkeeps := (h .checked 1 (some 100) [.lagged 1] (by decide) (by decide)).1
  exact absurd (hkeeps.lagged 1 rfl) (by decide)

/-! ## A tracker behind `poll_slots` -/

/-- A greater slot is not shifted to a smaller one. -/
theorem shiftedSlot_mono (leaderOffset : ℤ) {a b : ℕ} (h : a ≤ b) :
    shiftedSlot a leaderOffset ≤ shiftedSlot b leaderOffset := by
  rw [shiftedSlot, shiftedSlot]
  omega

/-- Of notifications that come in order, only the latest counts. -/
theorem trackedSlot_eq_latest (leaderOffset : ℤ) (initial : ℕ) (received : List SlotNotification)
    (latest : SlotNotification)
    (h : ∀ n ∈ received, n.processedSlot ≤ latest.processedSlot) :
    trackedSlot leaderOffset initial (received ++ [latest]) =
      max initial (shiftedSlot latest.processedSlot leaderOffset) := by
  induction received using List.reverseRecOn with
  | nil => rfl
  | append_singleton received n ih =>
    have hn : shiftedSlot n.processedSlot leaderOffset ≤
        shiftedSlot latest.processedSlot leaderOffset :=
      shiftedSlot_mono leaderOffset (h n (by simp))
    rw [LeaderTracker.trackedSlot_append] at ih ⊢
    rw [LeaderTracker.trackedSlot_append, max_assoc, max_eq_right hn]
    exact ih fun m hm => h m (List.mem_append_left _ hm)

/-- The tracker follows the notifications of `poll_slots`: in a run whose steps are permitted it is
at the latest one that it has received, shifted, or still at its initial slot if that is ahead. -/
theorem leaderTracker_follows (build : Build) (leaderOffset : ℤ) (bootstrapSlotUpdate : Option ℕ)
    (messages : List SlotMessage)
    (hpermits : Along (LeaderTracker.step build leaderOffset) (LeaderTracker.Permits leaderOffset)
      (startLeaderTrackerTasks bootstrapSlotUpdate) messages)
    {sent : List SlotNotification} (hsane : IsSane sent) {received : List SlotNotification}
    {latest : SlotNotification}
    (hreceived : (exec (LeaderTracker.step build leaderOffset)
      (startLeaderTrackerTasks bootstrapSlotUpdate) messages).received = received ++ [latest])
    (hsent : (received ++ [latest]).Sublist sent) :
    (exec (LeaderTracker.step build leaderOffset)
        (startLeaderTrackerTasks bootstrapSlotUpdate) messages).slotUpdate =
      max (bootstrapSlotUpdate.getD 0) (shiftedSlot latest.processedSlot leaderOffset) := by
  have hstep : ∀ (x : LeaderTracker) (message : SlotMessage),
      x.slotUpdate = trackedSlot leaderOffset (bootstrapSlotUpdate.getD 0) x.received →
      x.Permits leaderOffset message →
      (x.step build leaderOffset message).slotUpdate = trackedSlot leaderOffset
        (bootstrapSlotUpdate.getD 0) (x.step build leaderOffset message).received :=
    fun x message h hpermit => ((x.keepsOffset_iff_permits message h).mpr hpermit).slotUpdate
  have htracked := exec_invariant hstep rfl hpermits
  rw [htracked, hreceived]
  refine trackedSlot_eq_latest leaderOffset _ received latest fun n hn => ?_
  exact ((List.pairwise_append.mp (hsane.nondecreasing.sublist hsent)).2.2 n hn latest
    (List.mem_singleton_self latest)).1

end Biscuit.Wire
