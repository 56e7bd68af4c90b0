import Mathlib.Data.List.Forall2
import Mathlib.Data.List.Perm.Subperm

/-!
# Lists that change item by item

A list whose items are replaced in their places is related to what it was, item by item. What
the relation says of one item carries over to how many items have a property.
-/

namespace Biscuit

variable {α : Type*} {R : α → α → Prop} {items others : List α}

/-- Every item is related to itself. -/
theorem forall₂_refl (hrefl : ∀ a, R a a) (items : List α) : List.Forall₂ R items items :=
  List.forall₂_same.mpr fun a _ => hrefl a

theorem forall₂_trans (htrans : ∀ a b c, R a b → R b c → R a c) {more : List α}
    (h : List.Forall₂ R items others) (h' : List.Forall₂ R others more) :
    List.Forall₂ R items more := by
  induction h generalizing more with
  | nil => exact h'
  | cons hab _ ih =>
    cases h' with
    | cons hbc hrest => exact .cons (htrans _ _ _ hab hbc) (ih hrest)

/-- An item of the second list is replaced by one that its partner is related to. -/
theorem forall₂_set (h : List.Forall₂ R items others) {i : ℕ} {a b : α}
    (hi : items[i]? = some a) (hab : R a b) : List.Forall₂ R items (others.set i b) := by
  induction h generalizing i with
  | nil => simp at hi
  | cons hcd _ ih =>
    cases i with
    | zero =>
      obtain rfl := Option.some.inj hi
      exact .cons hab ‹_›
    | succ i => exact .cons hcd (ih hi)

/-- Every item of the second list is related to one of the first list. -/
theorem exists_left_of_forall₂ (h : List.Forall₂ R items others) {b : α} (hb : b ∈ others) :
    ∃ a ∈ items, R a b := by
  induction h with
  | nil => cases hb
  | cons hab _ ih =>
    rcases List.mem_cons.mp hb with rfl | hm
    · exact ⟨_, List.mem_cons_self, hab⟩
    · obtain ⟨a, ha, hR⟩ := ih hm
      exact ⟨a, List.mem_cons_of_mem _ ha, hR⟩

/-- Every item of the first list is related to one of the second list. -/
theorem exists_right_of_forall₂ (h : List.Forall₂ R items others) {a : α} (ha : a ∈ items) :
    ∃ b ∈ others, R a b :=
  exists_left_of_forall₂ (R := flip R) (List.Forall₂.flip h) ha

/-- Every item of the second list is related to the one of the first list in its place. -/
theorem getElem?_left_of_forall₂ (h : List.Forall₂ R items others) {i : ℕ} {b : α}
    (hi : others[i]? = some b) : ∃ a, items[i]? = some a ∧ R a b := by
  induction h generalizing i with
  | nil => simp at hi
  | cons hab _ ih =>
    cases i with
    | zero =>
      obtain rfl := Option.some.inj hi
      exact ⟨_, rfl, hab⟩
    | succ i => exact ih hi

/-- Every item of the first list is related to the one of the second list in its place. -/
theorem getElem?_right_of_forall₂ (h : List.Forall₂ R items others) {i : ℕ} {a : α}
    (hi : items[i]? = some a) : ∃ b, others[i]? = some b ∧ R a b :=
  getElem?_left_of_forall₂ (R := flip R) (List.Forall₂.flip h) hi

/-- After an item is replaced, there is the new item in its place and what was there elsewhere. -/
theorem getElem?_set_cases {i k : ℕ} {b c : α} (h : (items.set i b)[k]? = some c) :
    k = i ∧ c = b ∨ k ≠ i ∧ items[k]? = some c := by
  rw [List.getElem?_set] at h
  split at h
  · rename_i hsame
    split at h
    · exact .inl ⟨hsame.symm, (Option.some.inj h).symm⟩
    · cases h
  · rename_i hne
    exact .inr ⟨Ne.symm hne, h⟩

/-- After an item is added, it is in the last place and what was there is in its place. -/
theorem getElem?_concat_cases {k : ℕ} {b c : α} (h : (items ++ [b])[k]? = some c) :
    items[k]? = some c ∨ k = items.length ∧ c = b := by
  rw [List.getElem?_append] at h
  split at h
  · exact .inl h
  · have hmem := List.mem_singleton.mp (List.mem_of_getElem? h)
    obtain ⟨hlt, -⟩ := List.getElem?_eq_some_iff.mp h
    rw [List.length_singleton] at hlt
    exact .inr ⟨by omega, hmem⟩

/-- An item stays in a list when another one is taken out. -/
theorem mem_eraseIdx_of_ne {i : ℕ} {a b : α} (hi : items[i]? = some b) (ha : a ∈ items)
    (hne : a ≠ b) : a ∈ items.eraseIdx i := by
  obtain ⟨k, hk⟩ := List.mem_iff_getElem?.mp ha
  refine List.mem_eraseIdx_iff_getElem?.mpr ⟨k, ?_, hk⟩
  rintro rfl
  exact hne (Option.some.inj (hk.symm.trans hi))

/-- An item stays in a list when another one is replaced. -/
theorem mem_set_of_ne {i : ℕ} {a b : α} (hi : items[i]? = some b) (ha : a ∈ items)
    (hne : a ≠ b) (c : α) : a ∈ items.set i c := by
  obtain ⟨k, hk⟩ := List.mem_iff_getElem?.mp ha
  refine List.mem_of_getElem? (i := k) ?_
  rw [List.getElem?_set_ne, hk]
  rintro rfl
  exact hne (Option.some.inj (hk.symm.trans hi))

/-- A property that the relation keeps is had by no fewer items. -/
theorem countP_le_of_forall₂ {p : α → Bool} (hp : ∀ a b, R a b → p a = true → p b = true)
    (h : List.Forall₂ R items others) : items.countP p ≤ others.countP p := by
  induction h with
  | nil => exact Nat.le_refl _
  | @cons a b _ _ hab _ ih =>
    rw [List.countP_cons, List.countP_cons]
    cases ha : p a with
    | false =>
      simp only [Bool.false_eq_true, if_false]
      omega
    | true =>
      simp only [hp a b hab ha, if_true]
      omega

/-- A property that the relation keeps both ways is had by as many items. -/
theorem countP_eq_of_forall₂ {p : α → Bool} (hp : ∀ a b, R a b → p b = p a)
    (h : List.Forall₂ R items others) : others.countP p = items.countP p := by
  induction h with
  | nil => rfl
  | cons hab _ ih => rw [List.countP_cons, List.countP_cons, ih, hp _ _ hab]

/-- Replacing an item without a property by one that has it makes one more. -/
theorem countP_set_of_gains {p : α → Bool} {i : ℕ} {a b : α} (hi : items[i]? = some a)
    (ha : p a = false) (hb : p b = true) :
    (items.set i b).countP p = items.countP p + 1 := by
  induction items generalizing i with
  | nil => simp at hi
  | cons c items ih =>
    cases i with
    | zero =>
      obtain rfl : c = a := by simpa using hi
      rw [List.set_cons_zero, List.countP_cons_of_pos hb,
        List.countP_cons_of_neg (Bool.not_eq_true _ ▸ ha)]
    | succ i =>
      rw [List.set_cons_succ, List.countP_cons, List.countP_cons, ih (by simpa using hi)]
      omega

/-- The places of the items with a property are as many as these items. -/
theorem countP_range_getElem? (p : α → Bool) (items : List α) :
    (List.range items.length).countP (fun i => items[i]?.any p) = items.countP p := by
  induction items with
  | nil => rfl
  | cons a items ih =>
    rw [List.length_cons, List.range_succ_eq_map, List.countP_cons, List.countP_map,
      List.countP_cons]
    exact congrArg (· + _) ih

/-- A place of an item with a property. -/
theorem mem_filter_range_iff {p : α → Bool} {items : List α} {i : ℕ} :
    i ∈ (List.range items.length).filter (fun i => items[i]?.any p) ↔ items[i]?.any p = true := by
  rw [List.mem_filter, List.mem_range, and_iff_right_iff_imp]
  intro h
  obtain ⟨a, ha, -⟩ := (Option.any_eq_true _ _).mp h
  exact (List.getElem?_eq_some_iff.mp ha).1

/-- Different places of items with a property are no more than these items. -/
theorem length_le_countP {p : α → Bool} {places : List ℕ} (hnodup : places.Nodup)
    (h : ∀ i ∈ places, items[i]?.any p = true) : places.length ≤ items.countP p := by
  rw [← countP_range_getElem?, List.countP_eq_length_filter]
  exact (List.subperm_of_subset hnodup fun i hi => mem_filter_range_iff.mpr (h i hi)).length_le

/-- What has a property has one of two others. -/
theorem countP_le_add {p q r : α → Bool} (h : ∀ a, p a = true → q a = true ∨ r a = true)
    (items : List α) : items.countP p ≤ items.countP q + items.countP r := by
  induction items with
  | nil => exact Nat.le_refl _
  | cons a items ih =>
    have ha := h a
    rw [List.countP_cons, List.countP_cons, List.countP_cons]
    cases hp : p a <;> cases hq : q a <;> cases hr : r a <;>
      simp only [hp, hq, hr, Bool.false_eq_true, or_self, imp_false, not_true_eq_false, if_true,
        if_false] at ha ⊢ <;> omega

/-- If each of some places has so many entries at most, they have so many times their number. -/
theorem countP_places_le {β : Type*} {place : β → ℕ} {bound : ℕ} {entries : List β}
    {places : List ℕ}
    (h : ∀ i ∈ places, entries.countP (fun b => decide (place b = i)) ≤ bound) :
    entries.countP (fun b => decide (place b ∈ places)) ≤ places.length * bound := by
  induction places with
  | nil =>
    have hnone : entries.countP (fun b => decide (place b ∈ [])) = 0 :=
      List.countP_eq_zero.mpr fun b _ hb => List.not_mem_nil (of_decide_eq_true hb)
    rw [hnone]
    exact Nat.zero_le _
  | cons i places ih =>
    have hhead := h i List.mem_cons_self
    have htail := ih fun i hi => h i (List.mem_cons_of_mem _ hi)
    have hsplit := countP_le_add (fun (b : β) (hb : decide (place b ∈ i :: places) = true) =>
      (List.mem_cons.mp (of_decide_eq_true hb)).imp decide_eq_true decide_eq_true) entries
    rw [List.length_cons, Nat.succ_mul]
    omega

/-- If each item with a property has so many entries at most, these items have so many times their
number. -/
theorem countP_entries_le {β : Type*} {place : β → ℕ} {bound : ℕ} {entries : List β}
    {p : α → Bool}
    (h : ∀ i, items[i]?.any p = true → entries.countP (fun b => decide (place b = i)) ≤ bound) :
    entries.countP (fun b => items[place b]?.any p) ≤ items.countP p * bound := by
  have hplaces := countP_places_le fun i hi => h i (mem_filter_range_iff.mp hi)
  rw [← List.countP_eq_length_filter, countP_range_getElem?] at hplaces
  refine Nat.le_trans (List.countP_mono_left fun b _ hb => ?_) hplaces
  exact decide_eq_true (mem_filter_range_iff.mpr hb)

end Biscuit
