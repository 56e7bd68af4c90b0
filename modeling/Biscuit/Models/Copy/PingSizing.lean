import Biscuit.Core.Search
import Biscuit.Models.Copy.Tiers

/-!
# The size of a ping buy

A buy takes the amount of a tier, capped by what the copied wallets have spent on the token.
The tier is looked up by the number of wallets, and what they have spent is added up swap by
swap in lamports.
-/

namespace Biscuit.Copy

namespace PingTracker

/-! ## The tier of a number of wallets -/

/-- The thresholds in the order in which they are searched. -/
def thresholds (t : PingTracker) : List ℕ := (t.tiers.map Prod.fst).insertionSort (· ≤ ·)

/-- The threshold of the tier that is read for a number of wallets. -/
def tierThreshold (t : PingTracker) (pingCount : ℕ) : Option ℕ :=
  if pingCount ∈ t.thresholds then some pingCount
  else
    match t.thresholds.head? with
    | none => none
    | some smallest =>
      if smallest < pingCount then
        t.thresholds[min (t.thresholds.countP (· < pingCount)) (t.thresholds.length - 1)]?
      else none

theorem mem_thresholds {t : PingTracker} {threshold : ℕ} :
    threshold ∈ t.thresholds ↔ ∃ tier ∈ t.tiers, tier.1 = threshold := by
  rw [thresholds, List.mem_insertionSort, List.mem_map]

/-- The tier of its own threshold is found, as thresholds are distinct. -/
theorem tierAmount_of_mem {t : PingTracker} (hnodup : (t.tiers.map Prod.fst).Nodup)
    {tier : ℕ × ℕ} (h : tier ∈ t.tiers) : t.tierAmount tier.1 = some tier.2 := by
  rw [tierAmount, Option.map_eq_some_iff]
  refine ⟨tier, ?_, rfl⟩
  cases hfind : t.tiers.find? fun other => other.1 == tier.1 with
  | none => exact absurd (beq_self_eq_true tier.1) (by simpa using List.find?_eq_none.mp hfind _ h)
  | some other =>
    have hkey : other.1 = tier.1 := by simpa using List.find?_some hfind
    rw [List.inj_on_of_nodup_map hnodup (List.mem_of_find?_eq_some hfind) h hkey]

theorem tierAmount_eq_none {t : PingTracker} {pingCount : ℕ} (h : pingCount ∉ t.thresholds) :
    t.tierAmount pingCount = none := by
  rw [tierAmount, Option.map_eq_none_iff, List.find?_eq_none]
  intro tier htier hkey
  exact h (mem_thresholds.mpr ⟨tier, htier, by simpa using hkey⟩)

/-- What is read is the threshold of some tier. -/
theorem mem_of_tierThreshold {t : PingTracker} {pingCount threshold : ℕ}
    (h : t.tierThreshold pingCount = some threshold) : threshold ∈ t.thresholds := by
  unfold tierThreshold at h
  split at h
  · next hmem =>
    obtain rfl := Option.some.inj h
    exact hmem
  · split at h
    · contradiction
    · split at h
      · exact List.mem_of_getElem? h
      · contradiction

/-- The tier that applies is the one of the threshold that is read. -/
theorem tierFor_eq {t : PingTracker} (hnodup : (t.tiers.map Prod.fst).Nodup) (pingCount : ℕ) :
    t.tierFor pingCount = (t.tierThreshold pingCount).bind t.tierAmount := by
  simp only [tierFor, tierThreshold]
  by_cases hmem : pingCount ∈ t.thresholds
  · obtain ⟨tier, htier, rfl⟩ := mem_thresholds.mp hmem
    simp only [tierAmount_of_mem hnodup htier, hmem, if_true, Option.bind_some]
  · have hsorted : (t.tiers.map Prod.fst).insertionSort (· ≤ ·) = t.thresholds := rfl
    simp only [tierAmount_eq_none hmem, hmem, if_false, hsorted]
    cases t.thresholds.head? with
    | none => rfl
    | some smallest =>
      simp only
      split_ifs <;> rfl

/-- The thresholds that are searched are sorted. -/
theorem pairwise_thresholds (t : PingTracker) : t.thresholds.Pairwise (· ≤ ·) :=
  List.pairwise_insertionSort (· ≤ ·) _

/-- No threshold lies below the number of wallets and another one above it, unless it is a
threshold itself. -/
def ThresholdClear (t : PingTracker) (pingCount : ℕ) : Prop :=
  pingCount ∈ t.thresholds ∨ (∀ tier ∈ t.tiers, pingCount < tier.1) ∨
    ∀ tier ∈ t.tiers, tier.1 < pingCount

/-- Between two thresholds the one above is read, which is not reached. -/
theorem exists_unreached {t : PingTracker} {pingCount : ℕ} (h : ¬ t.ThresholdClear pingCount) :
    ∃ threshold, t.tierThreshold pingCount = some threshold ∧ pingCount < threshold := by
  simp only [ThresholdClear, not_or, not_forall, not_lt] at h
  obtain ⟨hmem, ⟨low, hlow, hle⟩, high, hhigh, hge⟩ := h
  have hne : ∀ tier ∈ t.tiers, tier.1 ≠ pingCount := fun tier htier he =>
    hmem (mem_thresholds.mpr ⟨tier, htier, he⟩)
  obtain ⟨i, hi, hilow⟩ := List.mem_iff_getElem.mp (mem_thresholds.mpr ⟨low, hlow, rfl⟩)
  obtain ⟨j, hj, hjhigh⟩ := List.mem_iff_getElem.mp (mem_thresholds.mpr ⟨high, hhigh, rfl⟩)
  have hi' := (lt_iff_lt_countP t.pairwise_thresholds pingCount (List.getElem?_eq_getElem hi)).mp
    (by rw [hilow]; have := hne low hlow; omega)
  have hj' := mt (lt_iff_lt_countP t.pairwise_thresholds pingCount
    (List.getElem?_eq_getElem hj)).mpr (by rw [hjhigh]; have := hne high hhigh; omega)
  -- the search ends at the first threshold that is not below the number of wallets
  have hk : t.thresholds.countP (· < pingCount) < t.thresholds.length := by omega
  have hzero : 0 < t.thresholds.length := by omega
  have hfirst := (lt_iff_lt_countP t.pairwise_thresholds pingCount
    (List.getElem?_eq_getElem hzero)).mpr (by omega)
  have hhead : t.thresholds.head? = some t.thresholds[0] := by
    rw [List.head?_eq_getElem?, List.getElem?_eq_getElem hzero]
  have hkth : t.thresholds[t.thresholds.countP (· < pingCount)]? =
      some t.thresholds[t.thresholds.countP (· < pingCount)] := List.getElem?_eq_getElem hk
  refine ⟨t.thresholds[t.thresholds.countP (· < pingCount)], ?_, ?_⟩
  · have hmin : min (t.thresholds.countP (· < pingCount)) (t.thresholds.length - 1) =
        t.thresholds.countP (· < pingCount) := by omega
    simp only [tierThreshold, hmem, if_false, hhead, hfirst, if_true, hmin, hkth]
  · have hnot := mt (lt_iff_lt_countP t.pairwise_thresholds pingCount hkth).mp (lt_irrefl _)
    obtain ⟨tier, htier, he⟩ := mem_thresholds.mp (List.getElem_mem hk)
    have hne' := hne tier htier
    omega

/-- Above all thresholds the largest one is read. -/
theorem tierThreshold_above {t : PingTracker} {pingCount : ℕ}
    (h : ∀ tier ∈ t.tiers, tier.1 < pingCount) {tier : ℕ × ℕ} (htier : tier ∈ t.tiers)
    (hgreatest : ∀ other ∈ t.tiers, other.1 ≤ pingCount → other.1 ≤ tier.1) :
    t.tierThreshold pingCount = some tier.1 := by
  have hlt : ∀ threshold ∈ t.thresholds, threshold < pingCount := by
    intro threshold hmem
    obtain ⟨other, hother, rfl⟩ := mem_thresholds.mp hmem
    exact h other hother
  have hmem : pingCount ∉ t.thresholds := fun hm => lt_irrefl _ (hlt _ hm)
  obtain ⟨i, hi, hitier⟩ := List.mem_iff_getElem.mp (mem_thresholds.mpr ⟨tier, htier, rfl⟩)
  have hzero : 0 < t.thresholds.length := by omega
  have hhead : t.thresholds.head? = some t.thresholds[0] := by
    rw [List.head?_eq_getElem?, List.getElem?_eq_getElem hzero]
  have hcount : t.thresholds.countP (· < pingCount) = t.thresholds.length :=
    List.countP_eq_length.mpr fun threshold hm => decide_eq_true (hlt threshold hm)
  have hlast : t.thresholds.length - 1 < t.thresholds.length := by omega
  have hvalue : t.thresholds[t.thresholds.length - 1] = tier.1 := by
    apply le_antisymm
    · obtain ⟨other, hother, he⟩ := mem_thresholds.mp (List.getElem_mem hlast)
      rw [← he]
      exact hgreatest other hother (h other hother).le
    · rw [← hitier]
      exact t.pairwise_thresholds.rel_get_of_le (a := ⟨i, hi⟩) (b := ⟨_, hlast⟩)
        (Nat.le_sub_one_of_lt hi)
  have hmin : min (t.thresholds.countP (· < pingCount)) (t.thresholds.length - 1) =
      t.thresholds.length - 1 := by omega
  simp only [tierThreshold, hmem, if_false, hhead, hlt _ (List.getElem_mem hzero), if_true, hmin,
    List.getElem?_eq_getElem hlast, hvalue]

/-- Below all thresholds none is read. -/
theorem tierThreshold_below {t : PingTracker} {pingCount : ℕ}
    (h : ∀ tier ∈ t.tiers, pingCount < tier.1) : t.tierThreshold pingCount = none := by
  have hgt : ∀ threshold ∈ t.thresholds, pingCount < threshold := by
    intro threshold hmem
    obtain ⟨other, hother, rfl⟩ := mem_thresholds.mp hmem
    exact h other hother
  have hmem : pingCount ∉ t.thresholds := fun hm => lt_irrefl _ (hgt _ hm)
  simp only [tierThreshold, hmem, if_false]
  cases hhead : t.thresholds.head? with
  | none => rfl
  | some smallest =>
    have hnot := (hgt smallest (List.mem_of_head? hhead)).not_gt
    simp only [hnot, if_false]

/-- A buy is sized by the greatest tier that the wallets of the token reach. -/
structure SelectsReached (t : PingTracker) (token : Pubkey) (ping : Ping) : Prop where
  /-- The amount of that tier is capped by what the wallets have spent. -/
  reached : ∀ tier ∈ t.tiers, tier.1 ≤ ping.wallets.card →
    (∀ other ∈ t.tiers, other.1 ≤ ping.wallets.card → other.1 ≤ tier.1) →
    t.getLamportsInput token = some (min tier.2 ping.totalLamportsCost)
  /-- Below every threshold nothing is bought. -/
  below : (∀ tier ∈ t.tiers, ping.wallets.card < tier.1) → t.getLamportsInput token = none
  /-- A tier that is not reached is not read. -/
  read : ∀ threshold, t.tierThreshold ping.wallets.card = some threshold →
    threshold ≤ ping.wallets.card

/-- While tiers are left, the tier is the greatest one that is reached exactly when the number
of wallets does not lie between two thresholds. -/
theorem selectsReached_iff {t : PingTracker} {token : Pubkey} {ping : Ping}
    (hp : t.pings token = some ping) (hnodup : (t.tiers.map Prod.fst).Nodup)
    (hcount : ping.executionCount < t.tiers.length) :
    t.SelectsReached token ping ↔ t.ThresholdClear ping.wallets.card := by
  have hinput : t.getLamportsInput token =
      ((t.tierThreshold ping.wallets.card).bind t.tierAmount).map
        (min · ping.totalLamportsCost) := by
    simp only [getLamportsInput, hp, Nat.not_le.mpr hcount, if_false, tierFor_eq hnodup]
  constructor
  · intro h
    by_contra hclear
    obtain ⟨threshold, hread, hlt⟩ := exists_unreached hclear
    exact absurd (h.read threshold hread) (Nat.not_le.mpr hlt)
  · intro hclear
    have hgreatest : ∀ tier ∈ t.tiers, tier.1 ≤ ping.wallets.card →
        (∀ other ∈ t.tiers, other.1 ≤ ping.wallets.card → other.1 ≤ tier.1) →
        t.tierThreshold ping.wallets.card = some tier.1 := by
      intro tier htier hle hgreatest
      rcases hclear with hmem | hbelow | habove
      · obtain ⟨other, hother, he⟩ := mem_thresholds.mp hmem
        have heq : ping.wallets.card = tier.1 :=
          le_antisymm (he ▸ hgreatest other hother he.le) hle
        rw [tierThreshold, if_pos hmem, heq]
      · exact absurd (hbelow tier htier) (Nat.not_lt.mpr hle)
      · exact tierThreshold_above habove htier hgreatest
    constructor
    · intro tier htier hle hg
      rw [hinput, hgreatest tier htier hle hg, Option.bind_some, tierAmount_of_mem hnodup htier,
        Option.map_some]
    · intro hbelow
      rw [hinput, tierThreshold_below hbelow, Option.bind_none, Option.map_none]
    · intro threshold hread
      rcases hclear with hmem | hbelow | habove
      · rw [tierThreshold, if_pos hmem] at hread
        exact (Option.some.inj hread).ge
      · rw [tierThreshold_below hbelow] at hread
        contradiction
      · obtain ⟨tier, htier, rfl⟩ := mem_thresholds.mp (mem_of_tierThreshold hread)
        exact (habove tier htier).le

/-- A token that three wallets bought, with tiers for one, two and five wallets. -/
def threeWallets : Ping := ⟨{1, 2, 3}, 0, 1000⟩

/-- Its tracker. -/
def threeWalletsTracker : PingTracker :=
  { empty [(5, 50), (1, 10), (2, 20)] with
    pings := Function.update (fun _ => none) sampleToken (some threeWallets) }

/-- Three wallets reach the tier of two wallets and get the amount of the tier of five. -/
theorem getLamportsInput_unreached :
    threeWalletsTracker.getLamportsInput sampleToken = some 50 ∧
      ¬ threeWalletsTracker.SelectsReached sampleToken threeWallets := by
  have hfifty : threeWalletsTracker.getLamportsInput sampleToken = some 50 := by decide
  refine ⟨hfifty, fun h => ?_⟩
  have htwenty := h.reached (2, 20) (by decide) (by decide) (by decide)
  rw [hfifty] at htwenty
  exact absurd htwenty (by decide)

/-- With tiers for one and three wallets the three wallets are on a threshold. -/
theorem selectsReached_three :
    let t : PingTracker := { threeWalletsTracker with tiers := [(3, 30), (1, 10)] }
    t.SelectsReached sampleToken threeWallets ↔ t.ThresholdClear threeWallets.wallets.card :=
  selectsReached_iff rfl (by decide) (by decide)

end PingTracker

end Biscuit.Copy
