import Mathlib.Data.List.Nodup

/-!
# Maps in the order of insertion

An index map holds one value for each key and keeps the keys in the order in which they were first
inserted. Inserting a key again replaces its value and leaves its place alone, so the keys are
those inserted, without their repetitions.
-/

namespace Biscuit

/-! ## First occurrences -/

section

variable {α : Type*} [BEq α] [LawfulBEq α]

/-- Nothing is a repetition in a list without repetitions. -/
theorem eraseDups_of_nodup {l : List α} (h : l.Nodup) : l.eraseDups = l := by
  induction l with
  | nil => rfl
  | cons a l ih =>
    obtain ⟨ha, hl⟩ := List.nodup_cons.mp h
    have hfilter : (l.filter fun b => !b == a) = l := by
      rw [List.filter_eq_self]
      intro b hb
      have hne : b ≠ a := fun he => ha (he ▸ hb)
      rw [beq_eq_false_iff_ne.mpr hne, Bool.not_false]
    rw [List.eraseDups_cons, hfilter, ih hl]

/-- What comes after enough different elements does not count among the first ones. -/
theorem take_eraseDups_append {n : ℕ} {l : List α} (hl : l.Nodup) (hlength : l.length = n)
    (more : List α) : (l ++ more).eraseDups.take n = l := by
  rw [List.eraseDups_append, eraseDups_of_nodup hl, ← hlength, List.take_left]

/-- An element counts only once. -/
theorem eraseDups_append_singleton_append {l : List α} {a : α} (ha : a ∈ l) (more : List α) :
    (l ++ a :: more).eraseDups = (l ++ more).eraseDups := by
  have hfilter : (a :: more).removeAll l = more.removeAll l := by
    rw [List.removeAll, List.removeAll, List.filter_cons_of_neg]
    simpa using ha
  rw [List.eraseDups_append, List.eraseDups_append, hfilter]

/-- More elements change nothing about the first different ones exactly when there are enough of
them already, or no new one comes. -/
theorem take_eraseDups_append_eq_iff {n : ℕ} {l more : List α} :
    (l ++ more).eraseDups.take n = l.eraseDups.take n ↔
      n ≤ l.eraseDups.length ∨ more ⊆ l := by
  have hnew : (more.removeAll l).eraseDups = [] ↔ more ⊆ l := by
    simp only [List.eq_nil_iff_forall_not_mem, List.mem_eraseDups, List.removeAll, List.mem_filter,
      List.elem_eq_mem, Bool.not_eq_true', decide_eq_false_iff_not, not_and, not_not]
    exact Iff.rfl
  rw [List.eraseDups_append, List.take_append, List.append_right_eq_self, List.take_eq_nil_iff, hnew,
    Nat.sub_eq_zero_iff_le]

end

/-! ## The map -/

/-- A map whose keys are in the order in which they were first inserted. -/
structure IndexMap (κ ν : Type*) where
  items : List (κ × ν)
  nodup : (items.map Prod.fst).Nodup

namespace IndexMap

variable {κ ν : Type*}

/-- The map without any item. -/
def empty : IndexMap κ ν := ⟨[], List.nodup_nil⟩

/-- The keys, in their order. -/
def keys (m : IndexMap κ ν) : List κ := m.items.map Prod.fst

/-- The values, in the order of their keys. -/
def values (m : IndexMap κ ν) : List ν := m.items.map Prod.snd

/-- How many items there are. -/
def len (m : IndexMap κ ν) : ℕ := m.items.length

@[simp] theorem keys_empty : (empty : IndexMap κ ν).keys = [] := rfl

theorem length_keys (m : IndexMap κ ν) : m.keys.length = m.len := List.length_map _

variable [BEq κ]

/-- The value of a key is replaced in its place; a new key comes last. -/
def insertItem (key : κ) (value : ν) : List (κ × ν) → List (κ × ν)
  | [] => [(key, value)]
  | item :: items =>
    if item.1 == key then (key, value) :: items else item :: insertItem key value items

theorem mem_insertItem {key : κ} {value : ν} {items : List (κ × ν)} {item : κ × ν}
    (h : item ∈ insertItem key value items) : item = (key, value) ∨ item ∈ items := by
  induction items with
  | nil => exact .inl (List.mem_singleton.mp h)
  | cons first items ih =>
    rw [insertItem] at h
    split_ifs at h with hfirst
    · exact (List.mem_cons.mp h).imp_right (List.mem_cons_of_mem _)
    · rcases List.mem_cons.mp h with rfl | h
      · exact .inr List.mem_cons_self
      · exact (ih h).imp_right (List.mem_cons_of_mem _)

variable [LawfulBEq κ]

theorem map_fst_insertItem (key : κ) (value : ν) (items : List (κ × ν)) :
    (insertItem key value items).map Prod.fst =
      if key ∈ items.map Prod.fst then items.map Prod.fst else items.map Prod.fst ++ [key] := by
  induction items with
  | nil => rfl
  | cons item items ih =>
    rw [insertItem]
    split_ifs with hitem hmem hmem
    · rw [List.map_cons, List.map_cons, beq_iff_eq.mp hitem]
    · exact absurd (List.mem_cons.mpr (.inl (beq_iff_eq.mp hitem).symm)) hmem
    · have htail : key ∈ items.map Prod.fst :=
        (List.mem_cons.mp hmem).resolve_left fun he => hitem (beq_iff_eq.mpr he.symm)
      rw [List.map_cons, ih, if_pos htail, List.map_cons]
    · have htail : key ∉ items.map Prod.fst := fun h => hmem (List.mem_cons_of_mem _ h)
      rw [List.map_cons, ih, if_neg htail, List.map_cons, List.cons_append]

/-- `insert` -/
def insert (m : IndexMap κ ν) (key : κ) (value : ν) : IndexMap κ ν where
  items := insertItem key value m.items
  nodup := by
    rw [map_fst_insertItem]
    split_ifs with hmem
    · exact m.nodup
    · rw [List.nodup_append]
      refine ⟨m.nodup, List.nodup_singleton _, ?_⟩
      rintro a ha b hb rfl
      exact hmem (List.mem_singleton.mp hb ▸ ha)

theorem keys_insert (m : IndexMap κ ν) (key : κ) (value : ν) :
    (m.insert key value).keys = if key ∈ m.keys then m.keys else m.keys ++ [key] :=
  map_fst_insertItem key value m.items

/-- A key that is inserted counts once, where it first came. -/
theorem eraseDups_keys_insert (m : IndexMap κ ν) (key : κ) (value : ν) (more : List κ) :
    ((m.insert key value).keys ++ more).eraseDups = (m.keys ++ key :: more).eraseDups := by
  rw [keys_insert]
  split_ifs with hmem
  · exact (eraseDups_append_singleton_append hmem more).symm
  · rw [List.append_assoc, List.singleton_append]

theorem len_insert_le (m : IndexMap κ ν) (key : κ) (value : ν) :
    (m.insert key value).len ≤ m.len + 1 := by
  rw [← length_keys, ← length_keys, keys_insert]
  split_ifs with hmem
  · exact Nat.le_succ _
  · rw [List.length_append]
    exact Nat.le_refl _

/-- An item is the one that was inserted, or was there before. -/
theorem mem_items_insert {m : IndexMap κ ν} {key : κ} {value : ν} {item : κ × ν}
    (h : item ∈ (m.insert key value).items) : item = (key, value) ∨ item ∈ m.items :=
  mem_insertItem h

end IndexMap

end Biscuit
