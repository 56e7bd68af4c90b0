import Biscuit.Core.Tally
import Mathlib.Data.List.AList
import Mathlib.Data.List.Induction
import Mathlib.Data.Fintype.EquivFin

/-!
# Maps that are iterated

A hash map holds one value for each key and yields its items in an order that nothing
fixes. The map is an association list without duplicate keys, and every traversal is
given its own order.
-/

namespace Biscuit

/-- A map with one value for each key. -/
abbrev Table (κ ν : Type*) := AList fun _ : κ => ν

/-- The order in which one traversal yields the items of a map. -/
structure Iteration (α : Type*) where
  order : List α → List α
  perm (items : List α) : (order items).Perm items

/-- The traversal that yields the items as they are stored. -/
def Iteration.stored (α : Type*) : Iteration α := ⟨id, fun _ => List.Perm.refl _⟩

theorem Iteration.mem_order {α : Type*} (iter : Iteration α) {items : List α} {a : α} :
    a ∈ iter.order items ↔ a ∈ items := (iter.perm items).mem_iff

theorem Iteration.nodup_order {α : Type*} (iter : Iteration α) {items : List α} :
    (iter.order items).Nodup ↔ items.Nodup := (iter.perm items).nodup_iff

namespace Table

variable {κ ν : Type*} [DecidableEq κ]

/-- Keeping the items that meet a condition. -/
def retain (p : κ → ν → Bool) (m : Table κ ν) : Table κ ν :=
  ⟨m.entries.filter fun e => p e.1 e.2,
    List.Nodup.sublist (List.filter_sublist.map _) m.nodupKeys⟩

/-- Changing the value of a key that is present, or giving it a first one. -/
def modifyOrInsert (key : κ) (f : ν → ν) (v : ν) (m : Table κ ν) : Table κ ν :=
  m.insert key ((m.lookup key).elim v f)

theorem lookup_retain {p : κ → ν → Bool} {m : Table κ ν} {key : κ} {v : ν} :
    (m.retain p).lookup key = some v ↔ m.lookup key = some v ∧ p key v = true := by
  change v ∈ (m.retain p).lookup key ↔ v ∈ m.lookup key ∧ _
  rw [AList.mem_lookup_iff, AList.mem_lookup_iff]
  simp only [retain, List.mem_filter]

theorem mem_iff_lookup {m : Table κ ν} {key : κ} : key ∈ m ↔ ∃ v, m.lookup key = some v := by
  rw [← AList.lookup_isSome, Option.isSome_iff_exists]

/-- An item of a map with one more entry is that entry or was there before. -/
theorem lookup_of_lookup_insert {m : Table κ ν} {key key' : κ} {v v' : ν}
    (h : AList.lookup key' (m.insert key v) = some v') :
    (key' = key ∧ v' = v) ∨ m.lookup key' = some v' := by
  by_cases hkey : key' = key
  · subst hkey
    rw [AList.lookup_insert, Option.some.injEq] at h
    exact .inl ⟨rfl, h.symm⟩
  · rw [AList.lookup_insert_ne hkey] at h
    exact .inr h

/-- An item that is still in a map after one was erased was there before. -/
theorem lookup_of_lookup_erase {m : Table κ ν} {key key' : κ} {v : ν}
    (h : AList.lookup key' (m.erase key) = some v) : m.lookup key' = some v := by
  by_cases hkey : key' = key
  · subst hkey
    rw [AList.lookup_erase] at h
    cases h
  · rwa [AList.lookup_erase_ne hkey] at h

theorem mem_keys_retain {p : κ → ν → Bool} {m : Table κ ν} {key : κ} :
    key ∈ (m.retain p).keys → key ∈ m := by
  rw [← AList.mem_keys, mem_iff_lookup]
  rintro ⟨v, hv⟩
  exact mem_iff_lookup.mpr ⟨v, (lookup_retain.mp hv).1⟩

theorem lookup_modifyOrInsert (key : κ) (f : ν → ν) (v : ν) (m : Table κ ν) :
    (m.modifyOrInsert key f v).lookup key = some ((m.lookup key).elim v f) :=
  AList.lookup_insert m

theorem lookup_modifyOrInsert_ne {key key' : κ} (h : key' ≠ key) (f : ν → ν) (v : ν)
    (m : Table κ ν) : (m.modifyOrInsert key f v).lookup key' = m.lookup key' :=
  AList.lookup_insert_ne h

/-- Erasing the items of a list that meet a condition. -/
theorem lookup_foldl_erase {p : κ × ν → Bool} (l : List (κ × ν)) (m : Table κ ν) (key : κ) :
    AList.lookup key (l.foldl (fun m e => if p e then m.erase e.1 else m) m) =
      if ∃ e ∈ l, e.1 = key ∧ p e = true then none else m.lookup key := by
  induction l generalizing m with
  | nil => simp
  | cons e l ih =>
    rw [List.foldl_cons, ih]
    simp only [List.mem_cons, exists_eq_or_imp]
    by_cases hrest : ∃ e ∈ l, e.1 = key ∧ p e = true
    · rw [if_pos hrest, if_pos (.inr hrest)]
    · by_cases he : p e = true
      · by_cases hkey : e.1 = key
        · subst hkey
          rw [if_neg hrest, if_pos he, if_pos (.inl ⟨rfl, he⟩), AList.lookup_erase]
        · rw [if_neg hrest, if_pos he, if_neg (by simp [hkey, hrest]),
            AList.lookup_erase_ne (Ne.symm hkey)]
      · rw [if_neg hrest, if_neg he, if_neg (by simp [he, hrest])]

/-! ## Traversals -/

/-- The items of a map, in the order in which they are stored. -/
def items (m : Table κ ν) : List (κ × ν) := m.entries.map fun e => (e.1, e.2)

/-- A map from its items; of several items with one key the last one stays. -/
def collect (items : List (κ × ν)) : Table κ ν := items.foldl (fun m e => m.insert e.1 e.2) ∅

theorem mem_items {m : Table κ ν} {key : κ} {v : ν} :
    (key, v) ∈ items m ↔ m.lookup key = some v := by
  change _ ↔ v ∈ m.lookup key
  rw [AList.mem_lookup_iff, items, List.mem_map]
  constructor
  · rintro ⟨⟨key', v'⟩, he, h⟩
    obtain ⟨rfl, rfl⟩ := Prod.mk.inj h
    exact he
  · intro h
    exact ⟨⟨key, v⟩, h, rfl⟩

omit [DecidableEq κ] in
theorem nodup_items (m : Table κ ν) : ((items m).map Prod.fst).Nodup := by
  rw [items, List.map_map]
  exact m.keys_nodup

/-- Items with different keys are all kept. -/
theorem lookup_collect {l : List (κ × ν)} (hl : (l.map Prod.fst).Nodup) {key : κ} {v : ν} :
    (collect l).lookup key = some v ↔ (key, v) ∈ l := by
  induction l using List.reverseRecOn with
  | nil => simp [collect]
  | append_singleton l e ih =>
    rw [List.map_append, List.map_singleton, List.nodup_append] at hl
    obtain ⟨hnodup, -, hnew⟩ := hl
    have hcollect : collect (l ++ [e]) = (collect l).insert e.1 e.2 := by
      rw [collect, List.foldl_append]
      rfl
    rw [hcollect, List.mem_append, List.mem_singleton]
    by_cases hkey : key = e.1
    · subst hkey
      have hold : (e.1, v) ∉ l := fun hmem =>
        hnew e.1 (List.mem_map.mpr ⟨_, hmem, rfl⟩) e.1 (List.mem_singleton_self _) rfl
      rw [AList.lookup_insert, Option.some.injEq]
      simp only [hold, false_or, Prod.ext_iff, true_and, eq_comm]
    · rw [AList.lookup_insert_ne hkey, ih hnodup]
      simp only [Prod.ext_iff, hkey, false_and, or_false]

omit [DecidableEq κ] in
theorem nodup_order (iter : Iteration (κ × ν)) (m : Table κ ν) :
    ((iter.order (items m)).map Prod.fst).Nodup :=
  ((iter.perm _).map _).nodup_iff.mpr (nodup_items m)

/-- A map is made of the items of a traversal of it, whatever is put for its values. -/
theorem lookup_collect_order {μ : Type*} (f : ν → μ) {m : Table κ ν} (iter : Iteration (κ × ν))
    (key : κ) : (collect ((iter.order (items m)).map fun e => (e.1, f e.2))).lookup key =
      (m.lookup key).map f := by
  have hnodup : (((iter.order (items m)).map fun e => (e.1, f e.2)).map Prod.fst).Nodup := by
    rw [List.map_map]
    exact nodup_order iter m
  apply Option.ext
  intro w
  rw [lookup_collect hnodup, List.mem_map, Option.map_eq_some_iff]
  constructor
  · rintro ⟨⟨key', v⟩, he, h⟩
    obtain ⟨rfl, rfl⟩ := Prod.mk.inj h
    exact ⟨v, mem_items.mp (iter.mem_order.mp he), rfl⟩
  · rintro ⟨v, hv, rfl⟩
    exact ⟨(key, v), iter.mem_order.mpr (mem_items.mpr hv), rfl⟩

/-- The last item with a key. -/
def lastOf {ι : Type*} (key : ι → κ) (l : List ι) (k : κ) : Option ι :=
  l.reverse.find? fun i => key i = k

theorem lastOf_append_singleton {ι : Type*} (key : ι → κ) (l : List ι) (i : ι) (k : κ) :
    lastOf key (l ++ [i]) k = if key i = k then some i else lastOf key l k := by
  rw [lastOf, List.reverse_append, List.reverse_singleton, List.singleton_append, List.find?_cons]
  by_cases h : key i = k
  · simp [h]
  · simp [h, lastOf]

theorem mem_of_lastOf {ι : Type*} {key : ι → κ} {l : List ι} {k : κ} {i : ι}
    (h : lastOf key l k = some i) : i ∈ l ∧ key i = k :=
  ⟨List.mem_reverse.mp (List.mem_of_find?_eq_some h), by simpa using List.find?_some h⟩

/-- Where the items with one key come in order, the last of them is the greatest. -/
theorem le_of_lastOf {ι β : Type*} [Preorder β] {key : ι → κ} {f : ι → β} {l : List ι}
    (hl : l.Pairwise fun i j => key i = key j → f i ≤ f j) {i j : ι}
    (hlast : lastOf key l (key i) = some j) (hi : i ∈ l) : f i ≤ f j := by
  induction l using List.reverseRecOn with
  | nil => cases hi
  | append_singleton l last ih =>
    obtain ⟨hfront, -, hcross⟩ := List.pairwise_append.mp hl
    rw [lastOf_append_singleton] at hlast
    split_ifs at hlast with hkey
    · obtain rfl := Option.some.inj hlast
      rcases List.mem_append.mp hi with hmem | hmem
      · exact hcross i hmem last (List.mem_singleton_self _) hkey.symm
      · rw [List.mem_singleton.mp hmem]
    · rcases List.mem_append.mp hi with hmem | hmem
      · exact ih hfront hlast hmem
      · exact absurd (congrArg key (List.mem_singleton.mp hmem).symm) hkey

/-- After many items were written to a partial function, a key has the value of the last item
with it, or else the value it had. -/
theorem foldl_update {ι : Type*} (key : ι → κ) (value : ι → ν) (l : List ι) (m : κ → Option ν)
    (k : κ) : l.foldl (fun m i => Function.update m (key i) (some (value i))) m k =
      ((lastOf key l k).map value).or (m k) := by
  induction l using List.reverseRecOn with
  | nil => rfl
  | append_singleton l i ih =>
    rw [List.foldl_append, List.foldl_cons, List.foldl_nil, lastOf_append_singleton]
    by_cases h : key i = k
    · subst h
      rw [Function.update_self, if_pos rfl]
      rfl
    · rw [Function.update_of_ne (Ne.symm h), if_neg h, ih]

theorem exists_lastOf {ι : Type*} (key : ι → κ) {l : List ι} {i : ι} (h : i ∈ l) :
    ∃ j, lastOf key l (key i) = some j :=
  Option.isSome_iff_exists.mp
    (List.find?_isSome.mpr ⟨i, List.mem_reverse.mpr h, decide_eq_true rfl⟩)

/-- After many values were inserted, a key has the last one with it, or else the value it had. -/
theorem lookup_foldl_insert (key : ν → κ) (l : List ν) (m : Table κ ν) (k : κ) :
    AList.lookup k (l.foldl (fun m v => m.insert (key v) v) m) =
      (lastOf key l k).or (m.lookup k) := by
  induction l using List.reverseRecOn with
  | nil => rfl
  | append_singleton l v ih =>
    rw [List.foldl_append, List.foldl_cons, List.foldl_nil, lastOf_append_singleton]
    by_cases h : key v = k
    · subst h
      rw [AList.lookup_insert, if_pos rfl]
      rfl
    · rw [AList.lookup_insert_ne (Ne.symm h), if_neg h, ih]

theorem lookup_collect_map (key : ν → κ) (l : List ν) (k : κ) :
    (collect (l.map fun v => (key v, v))).lookup k = lastOf key l k := by
  rw [collect, List.foldl_map, lookup_foldl_insert, AList.lookup_empty, Option.or_none]

/-- A loop that inserts what it reads of some items ends if it can read all of them. -/
theorem foldlM_insert_eq_some_iff {ι : Type*} {f : ι → Option ν} {key : ν → κ} {l : List ι}
    {m m' : Table κ ν} :
    l.foldlM (fun m i => (f i).map fun v => m.insert (key v) v) m = some m' ↔
      (∀ i ∈ l, ∃ v, f i = some v) ∧
        m' = (l.filterMap f).foldl (fun m v => m.insert (key v) v) m := by
  induction l generalizing m with
  | nil => simp [eq_comm]
  | cons i l ih =>
    rw [List.foldlM_cons, List.forall_mem_cons]
    cases hi : f i with
    | none => simp
    | some v =>
      rw [List.filterMap_cons, hi, List.foldl_cons]
      simp only [Option.map_some, Option.bind_eq_bind, Option.bind_some, ih]
      exact and_congr_left fun _ => (and_iff_right ⟨v, rfl⟩).symm

/-! ## The values of a map -/

/-- The values of a map, in the order in which they are stored. -/
def values (m : Table κ ν) : List ν := m.entries.map Sigma.snd

/-- A new item adds the weight of its value. -/
theorem tally_values_insert {f : ν → ℕ} {m : Table κ ν} {key : κ} (h : key ∉ m) (v : ν) :
    tally f (values (m.insert key v)) = f v + tally f (values m) := by
  rw [values, AList.entries_insert_of_notMem h, List.map_cons, tally_cons, values]

/-- An item that is erased takes the weight of its value away. -/
theorem tally_values_erase {f : ν → ℕ} {m : Table κ ν} {key : κ} {v : ν}
    (h : m.lookup key = some v) : tally f (values (m.erase key)) + f v = tally f (values m) := by
  obtain ⟨v', before, after, -, hentries, herase⟩ :=
    List.exists_of_kerase (mem_iff_lookup.mpr ⟨v, h⟩)
  have hmem : ⟨key, v'⟩ ∈ m.entries := by
    rw [hentries]
    exact List.mem_append_right _ List.mem_cons_self
  obtain rfl : v' = v := Option.some.inj ((AList.mem_lookup_iff.mpr hmem).symm.trans h)
  have hbefore : values m = before.map Sigma.snd ++ v' :: after.map Sigma.snd := by
    rw [values, hentries, List.map_append, List.map_cons]
  have hafter : values (m.erase key) = before.map Sigma.snd ++ after.map Sigma.snd := by
    change (List.kerase key m.entries).map Sigma.snd = _
    rw [herase, List.map_append]
  rw [hbefore, hafter, tally_append, tally_append, tally_cons]
  omega

/-- A map whose items are all in another one is no larger. -/
theorem length_keys_le {m m' : Table κ ν}
    (h : ∀ key v, m'.lookup key = some v → m.lookup key = some v) :
    m'.keys.length ≤ m.keys.length := by
  apply (List.subperm_of_subset m'.keys_nodup ?_).length_le
  intro key hkey
  obtain ⟨v, hv⟩ := mem_iff_lookup.mp (AList.mem_keys.mpr hkey)
  exact AList.mem_keys.mp (mem_iff_lookup.mpr ⟨v, h key v hv⟩)

omit [DecidableEq κ] in
theorem keys_eq_nil_iff {m : Table κ ν} : m.keys = [] ↔ ∀ key, key ∉ m := by
  rw [List.eq_nil_iff_forall_not_mem]
  rfl

/-! ## Erasing several keys -/

/-- The map without some keys. -/
def eraseAll (m : Table κ ν) (keys : List κ) : Table κ ν := keys.foldl (fun m key => m.erase key) m

theorem lookup_eraseAll (m : Table κ ν) (keys : List κ) (key : κ) :
    (m.eraseAll keys).lookup key = if key ∈ keys then none else m.lookup key := by
  induction keys generalizing m with
  | nil => rfl
  | cons first keys ih =>
    change (eraseAll (m.erase first) keys).lookup key = _
    rw [ih]
    by_cases hrest : key ∈ keys
    · rw [if_pos hrest, if_pos (List.mem_cons_of_mem _ hrest)]
    · by_cases hfirst : key = first
      · subst hfirst
        rw [if_neg hrest, if_pos List.mem_cons_self, AList.lookup_erase]
      · rw [if_neg hrest, if_neg (by simp [hfirst, hrest]), AList.lookup_erase_ne hfirst]

/-- Erasing keys of a map makes it that much smaller. -/
theorem length_eraseAll {m : Table κ ν} {keys : List κ} (hnodup : keys.Nodup)
    (hmem : ∀ key ∈ keys, key ∈ m) :
    (m.eraseAll keys).keys.length + keys.length = m.keys.length := by
  induction keys generalizing m with
  | nil => rfl
  | cons first keys ih =>
    obtain ⟨hfirst, hkeys⟩ := List.nodup_cons.mp hnodup
    have hrest := ih (m := m.erase first) hkeys fun key hkey =>
      AList.mem_erase.mpr ⟨fun he => hfirst (he ▸ hkey), hmem key (List.mem_cons_of_mem _ hkey)⟩
    have hin : first ∈ m.keys := AList.mem_keys.mp (hmem first List.mem_cons_self)
    have hpos := List.length_pos_of_mem hin
    rw [AList.keys_erase, List.length_erase_of_mem hin] at hrest
    change (eraseAll (m.erase first) keys).keys.length + (keys.length + 1) = _
    omega

/-- A new key makes a map larger by one, a key that is there does not. -/
theorem length_insert (m : Table κ ν) (key : κ) (v : ν) :
    (m.insert key v).keys.length = m.keys.length + if key ∈ m then 0 else 1 := by
  rw [AList.keys_insert, List.length_cons]
  split_ifs with h
  · have hpos := List.length_pos_of_mem (AList.mem_keys.mp h)
    rw [List.length_erase_of_mem (AList.mem_keys.mp h)]
    omega
  · rw [List.erase_of_not_mem (mt AList.mem_keys.mpr h)]

end Table

end Biscuit
