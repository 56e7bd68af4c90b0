import Biscuit.Core.Checked
import Biscuit.Core.IndexMap
import Biscuit.Core.Table
import Biscuit.Models.Chain.Base58
import Biscuit.Models.Wire.Leaders

/-!
# The next leaders

`get_leaders` walks through the slots from the one that is tracked and collects their leaders, each
once, until there are enough of them. The end of the walk is computed in 64 bits: close to the last
slot it lies beyond them.
-/

namespace Biscuit.Wire

/-- `RpcContactInfo` as far as it is read. -/
structure RpcContactInfo where
  pubkey : Text
  tpuQuic : Option Text
  deriving DecidableEq, Repr

/-- `LeaderScheduleHandle`, without its tasks. -/
structure LeaderScheduleHandle where
  currentLeaders : Table ℕ RpcContactInfo
  slotUpdate : ℕ
  numLeaders : ℕ

namespace LeaderScheduleHandle

variable (handle : LeaderScheduleHandle)

/-- The leader of a slot is inserted under its key; a slot without a leader is passed over. -/
def insertLeader (leaders : IndexMap Text RpcContactInfo) (slot : ℕ) :
    IndexMap Text RpcContactInfo :=
  match handle.currentLeaders.lookup slot with
  | some leader => leaders.insert leader.pubkey leader
  | none => leaders

/-- The loop of `get_leaders`. -/
def collectLeaders (leaders : IndexMap Text RpcContactInfo) :
    List ℕ → IndexMap Text RpcContactInfo
  | [] => leaders
  | slot :: slots =>
    let leaders := handle.insertLeader leaders slot
    if handle.numLeaders ≤ leaders.len then leaders else collectLeaders leaders slots

/-- `start_slot..end_slot` -/
def slotRange (startSlot endSlot : ℕ) : List ℕ := List.range' startSlot (endSlot - startSlot)

/-- `get_leaders` -/
def getLeaders (build : Build) : Outcome LeaderError (List RpcContactInfo) := do
  let slots ← build.mul 64 handle.numLeaders numSlotsPerLeader
  let endSlot ← build.add 64 handle.slotUpdate slots
  pure (handle.collectLeaders .empty (slotRange handle.slotUpdate endSlot)).values

/-! ## What the loop collects -/

/-- The keys of the leaders of some slots, one for each slot that has a leader. -/
def pubkeys (slots : List ℕ) : List Text :=
  slots.filterMap fun slot => (handle.currentLeaders.lookup slot).map RpcContactInfo.pubkey

theorem pubkeys_append (slots more : List ℕ) :
    handle.pubkeys (slots ++ more) = handle.pubkeys slots ++ handle.pubkeys more :=
  List.filterMap_append

/-- Each slot adds its leader to the keys. -/
theorem eraseDups_keys_insertLeader (leaders : IndexMap Text RpcContactInfo) (slot : ℕ)
    (slots : List ℕ) :
    ((handle.insertLeader leaders slot).keys ++ handle.pubkeys slots).eraseDups =
      (leaders.keys ++ handle.pubkeys (slot :: slots)).eraseDups := by
  rw [insertLeader, pubkeys, pubkeys, List.filterMap_cons]
  cases handle.currentLeaders.lookup slot with
  | none => rfl
  | some leader => exact leaders.eraseDups_keys_insert leader.pubkey leader _

theorem len_insertLeader_le (leaders : IndexMap Text RpcContactInfo) (slot : ℕ) :
    (handle.insertLeader leaders slot).len ≤ leaders.len + 1 := by
  rw [insertLeader]
  cases handle.currentLeaders.lookup slot with
  | none => exact Nat.le_succ _
  | some leader => exact leaders.len_insert_le leader.pubkey leader

/-- The loop collects the first different leaders, as many as are asked for. -/
theorem keys_collectLeaders (slots : List ℕ) (leaders : IndexMap Text RpcContactInfo)
    (h : leaders.len < handle.numLeaders) :
    (handle.collectLeaders leaders slots).keys =
      (leaders.keys ++ handle.pubkeys slots).eraseDups.take handle.numLeaders := by
  induction slots generalizing leaders with
  | nil =>
    have hle : leaders.keys.length ≤ handle.numLeaders := leaders.length_keys ▸ h.le
    have hnodup : leaders.keys.Nodup := leaders.nodup
    rw [collectLeaders, pubkeys, List.filterMap_nil, List.append_nil, eraseDups_of_nodup hnodup]
    exact (List.take_of_length_le hle).symm
  | cons slot slots ih =>
    rw [collectLeaders, ← eraseDups_keys_insertLeader]
    split_ifs with henough
    · have hlength : (handle.insertLeader leaders slot).keys.length = handle.numLeaders := by
        have hle := handle.len_insertLeader_le leaders slot
        rw [IndexMap.length_keys]
        omega
      exact (take_eraseDups_append (handle.insertLeader leaders slot).nodup hlength _).symm
    · exact ih _ (not_le.mp henough)

/-- Each leader is under its own key, and is the leader of a slot. -/
def AreLeadersOf (leaders : IndexMap Text RpcContactInfo) (slots : List ℕ) : Prop :=
  ∀ item ∈ leaders.items, item.1 = item.2.pubkey ∧
    ∃ slot ∈ slots, handle.currentLeaders.lookup slot = some item.2

theorem areLeadersOf_insertLeader {leaders : IndexMap Text RpcContactInfo} {slots : List ℕ}
    (h : handle.AreLeadersOf leaders slots) {slot : ℕ} (hslot : slot ∈ slots) :
    handle.AreLeadersOf (handle.insertLeader leaders slot) slots := by
  rw [insertLeader]
  cases hlookup : handle.currentLeaders.lookup slot with
  | none => exact h
  | some leader =>
    intro item hitem
    rcases IndexMap.mem_items_insert hitem with rfl | hitem
    · exact ⟨rfl, slot, hslot, hlookup⟩
    · exact h item hitem

theorem areLeadersOf_collectLeaders {all : List ℕ} (slots : List ℕ)
    (leaders : IndexMap Text RpcContactInfo) (hslots : slots ⊆ all)
    (h : handle.AreLeadersOf leaders all) :
    handle.AreLeadersOf (handle.collectLeaders leaders slots) all := by
  induction slots generalizing leaders with
  | nil => exact h
  | cons slot slots ih =>
    have hinsert := handle.areLeadersOf_insertLeader h (hslots List.mem_cons_self)
    rw [collectLeaders]
    split_ifs with henough
    · exact hinsert
    · exact ih _ (fun _ hmem => hslots (List.mem_cons_of_mem _ hmem)) hinsert

/-- The keys of the values that are collected are the keys of the map. -/
theorem map_pubkey_values {leaders : IndexMap Text RpcContactInfo} {slots : List ℕ}
    (h : handle.AreLeadersOf leaders slots) :
    leaders.values.map RpcContactInfo.pubkey = leaders.keys := by
  rw [IndexMap.values, IndexMap.keys, List.map_map]
  exact List.map_congr_left fun item hitem => (h item hitem).1.symm

/-! ## The window of slots -/

/-- The slots whose leaders are asked for. -/
def window : List ℕ := List.range' handle.slotUpdate (4 * handle.numLeaders)

/-- The leaders are the first different ones of the window, in its order and without repetitions. -/
structure Selects (leaders : List RpcContactInfo) : Prop where
  pubkeys : leaders.map RpcContactInfo.pubkey =
    (handle.pubkeys handle.window).eraseDups.take handle.numLeaders
  nodup : (leaders.map RpcContactInfo.pubkey).Nodup
  contact : ∀ leader ∈ leaders, ∃ slot ∈ handle.window,
    handle.currentLeaders.lookup slot = some leader

/-- How many slots of the window are walked through when its end wraps. -/
def reach : ℕ := (handle.slotUpdate + 4 * handle.numLeaders) % 2 ^ 64 - handle.slotUpdate

/-- The slots of the window that are walked through when its end wraps, and those that are not. -/
def reached : List ℕ := List.range' handle.slotUpdate handle.reach

def unreached : List ℕ :=
  List.range' (handle.slotUpdate + handle.reach) (4 * handle.numLeaders - handle.reach)

theorem reached_append_unreached : handle.reached ++ handle.unreached = handle.window := by
  have hle : handle.reach ≤ 4 * handle.numLeaders := by
    have hmod := Nat.mod_le (handle.slotUpdate + 4 * handle.numLeaders) (2 ^ 64)
    rw [reach]
    omega
  rw [reached, unreached, window, List.range'_append_1, Nat.add_sub_of_le hle]

/-- Nothing is missed: the end of the window is a slot, or the build wraps and there are enough
leaders in front of the wrapped end or no others behind it. -/
def MissesNothing (build : Build) : Prop :=
  handle.slotUpdate + 4 * handle.numLeaders < 2 ^ 64 ∨
    build = .wrapping ∧
      (handle.numLeaders ≤ (handle.pubkeys handle.reached).eraseDups.length ∨
        handle.pubkeys handle.unreached ⊆ handle.pubkeys handle.reached)

/-- What is collected from the first slots of the window. -/
theorem keys_collectLeaders_empty {slots : List ℕ} (h : handle.numLeaders = 0 → slots = []) :
    (handle.collectLeaders .empty slots).keys =
      (handle.pubkeys slots).eraseDups.take handle.numLeaders := by
  rcases Nat.eq_zero_or_pos handle.numLeaders with hzero | hpos
  · rw [h hzero, hzero, List.take_zero]
    rfl
  · exact handle.keys_collectLeaders slots .empty hpos

/-- The walk through some first slots of the window selects the leaders exactly when their keys are
those of the window. -/
theorem selects_collectLeaders_iff {slots : List ℕ} (h : handle.numLeaders = 0 → slots = [])
    (hslots : slots ⊆ handle.window) :
    handle.Selects (handle.collectLeaders .empty slots).values ↔
      (handle.pubkeys slots).eraseDups.take handle.numLeaders =
        (handle.pubkeys handle.window).eraseDups.take handle.numLeaders := by
  have hleaders : handle.AreLeadersOf (handle.collectLeaders .empty slots) handle.window :=
    handle.areLeadersOf_collectLeaders slots .empty hslots nofun
  have hkeys := handle.map_pubkey_values hleaders
  constructor
  · intro hselects
    rw [← handle.keys_collectLeaders_empty h, ← hkeys]
    exact hselects.pubkeys
  · intro heq
    refine ⟨?_, ?_, ?_⟩
    · rw [hkeys, handle.keys_collectLeaders_empty h, heq]
    · rw [hkeys]
      exact (handle.collectLeaders .empty slots).nodup
    · intro leader hleader
      obtain ⟨item, hitem, rfl⟩ := List.mem_map.mp hleader
      exact (hleaders item hitem).2

/-- In a build that wraps, the walk goes through the slots in front of the wrapped end. -/
theorem getLeaders_wrapping : handle.getLeaders .wrapping =
    .ok (handle.collectLeaders .empty handle.reached).values := by
  rw [getLeaders, Build.mul, Build.word_wrapping, Outcome.ok_bind, Build.add, Build.word_wrapping,
    Outcome.ok_bind, Nat.add_mod_mod, Nat.mul_comm handle.numLeaders numSlotsPerLeader]
  rfl

theorem getLeaders_of_fits (build : Build)
    (h : handle.slotUpdate + 4 * handle.numLeaders < 2 ^ 64) :
    handle.getLeaders build = .ok (handle.collectLeaders .empty handle.window).values := by
  have hmul : handle.numLeaders * numSlotsPerLeader = 4 * handle.numLeaders := Nat.mul_comm _ _
  rw [getLeaders, Build.mul_ok build (by omega), Outcome.ok_bind, hmul, Build.add_ok build h,
    Outcome.ok_bind, slotRange, Nat.add_sub_cancel_left]
  rfl

/-- A build that checks panics on an end beyond the last slot. -/
theorem getLeaders_checked_eq_panic (h : 2 ^ 64 ≤ handle.slotUpdate + 4 * handle.numLeaders) :
    handle.getLeaders .checked = .panic := by
  have hmul : handle.numLeaders * numSlotsPerLeader = 4 * handle.numLeaders := Nat.mul_comm _ _
  rw [getLeaders, Build.mul, hmul]
  by_cases hslots : 4 * handle.numLeaders < 2 ^ 64
  · rw [Build.word_ok _ hslots, Outcome.ok_bind, Build.add, Build.word_checked_eq_panic h,
      Outcome.panic_bind]
  · rw [Build.word_checked_eq_panic (not_lt.mp hslots), Outcome.panic_bind]

/-- The leaders of the window are selected exactly when its end misses nothing. -/
theorem getLeaders_selects_iff (build : Build) :
    (∃ leaders, handle.getLeaders build = .ok leaders ∧ handle.Selects leaders) ↔
      handle.MissesNothing build := by
  by_cases hfits : handle.slotUpdate + 4 * handle.numLeaders < 2 ^ 64
  · refine iff_of_true ⟨_, handle.getLeaders_of_fits build hfits, ?_⟩ (.inl hfits)
    refine (handle.selects_collectLeaders_iff ?_ (List.Subset.refl _)).mpr rfl
    intro hzero
    rw [window, hzero]
    rfl
  · rw [MissesNothing, or_iff_right hfits]
    cases build with
    | checked =>
      refine iff_of_false ?_ (fun h => nomatch h.1)
      rintro ⟨leaders, hleaders, -⟩
      rw [handle.getLeaders_checked_eq_panic (not_lt.mp hfits)] at hleaders
      cases hleaders
    | wrapping =>
      have hsub : handle.reached ⊆ handle.window :=
        handle.reached_append_unreached ▸ List.subset_append_left _ _
      have hzero : handle.numLeaders = 0 → handle.reached = [] := by
        intro hzero
        have hmod := Nat.mod_le handle.slotUpdate (2 ^ 64)
        rw [reached, reach, hzero, Nat.mul_zero, Nat.add_zero, Nat.sub_eq_zero_of_le hmod]
        rfl
      rw [handle.getLeaders_wrapping]
      simp only [Outcome.ok.injEq, exists_eq_left', true_and]
      rw [handle.selects_collectLeaders_iff hzero hsub, eq_comm,
        ← handle.reached_append_unreached, pubkeys_append]
      exact take_eraseDups_append_eq_iff

end LeaderScheduleHandle

/-- A single leader, whose slots are the last ones. -/
def lastSlots : LeaderScheduleHandle where
  currentLeaders := AList.insert 18446744073709551615 ⟨['L'], none⟩ ∅
  slotUpdate := 18446744073709551612
  numLeaders := 1

/-- The end behind the last slot wraps to zero, so that no slot is walked through. -/
theorem getLeaders_lastSlots :
    ¬ ∀ (build : Build) (handle : LeaderScheduleHandle),
      handle.slotUpdate < 2 ^ 64 → handle.numLeaders < 2 ^ 64 →
      (∀ slot ∈ handle.currentLeaders.keys, slot < 2 ^ 64) →
      ∃ leaders, handle.getLeaders build = .ok leaders ∧ handle.Selects leaders := by
  intro h
  obtain ⟨leaders, hleaders, hselects⟩ :=
    h .wrapping lastSlots (by decide) (by decide) (by decide +kernel)
  have hnone : lastSlots.getLeaders .wrapping = .ok [] := by decide +kernel
  rw [hnone] at hleaders
  obtain rfl := Outcome.ok.inj hleaders
  exact absurd hselects.pubkeys (by decide +kernel)

end Biscuit.Wire
