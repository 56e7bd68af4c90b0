import Mathlib.Data.List.Pairwise
import Mathlib.Tactic.Linarith

/-!
# Binary search

`partition_point` looks for the first item of a list that fails a test, on the promise that
the items that pass come first. The bounds of the search close in on that item; without the
promise the answer is whatever the probed items lead to.
-/

namespace Biscuit

/-- The bounds of a search close in: a passing probe moves the left one behind it, a failing
probe becomes the right one. The fuel bounds the number of probes. -/
def bisect (p : ℕ → Bool) : ℕ → ℕ → ℕ → ℕ
  | 0, left, _ => left
  | fuel + 1, left, right =>
    if left < right then
      if p (left + (right - left) / 2) then
        bisect p fuel (left + (right - left) / 2 + 1) right
      else bisect p fuel left (left + (right - left) / 2)
    else left

/-- `partition_point`: every probe at least halves the list, so its length is fuel enough. -/
def partitionPoint {α : Type*} (p : α → Bool) (items : List α) : ℕ :=
  bisect (fun i => items[i]?.any p) items.length 0 items.length

/-- The left bound never passes an item that fails. -/
theorem bisect_le {p : ℕ → Bool} {last : ℕ} (hlast : p last = false) {fuel left right : ℕ}
    (hl : left ≤ last) (hr : right ≤ last + 1) : bisect p fuel left right ≤ last := by
  induction fuel generalizing left right with
  | zero => exact hl
  | succ fuel ih =>
    simp only [bisect]
    split_ifs with hlt hp
    · apply ih _ hr
      have hne : left + (right - left) / 2 ≠ last := by
        intro he
        rw [he, hlast] at hp
        contradiction
      omega
    · exact ih hl (by omega)
    · exact hl

/-- A search in a list whose last item fails answers a position in the list. -/
theorem partitionPoint_lt {α : Type*} {p : α → Bool} {items : List α} {last : α}
    (hlast : items.getLast? = some last) (hp : p last = false) :
    partitionPoint p items < items.length := by
  obtain ⟨init, rfl⟩ := List.getLast?_eq_some_iff.mp hlast
  have hle : partitionPoint p (init ++ [last]) ≤ init.length := by
    apply bisect_le
    · simp [hp]
    · omega
    · simp
  simp only [List.length_append, List.length_singleton]
  omega

/-- With enough fuel a search in which every probe passes ends at its right bound. -/
theorem bisect_eq_right {p : ℕ → Bool} {fuel left right : ℕ}
    (hp : ∀ i, left ≤ i → i < right → p i = true) (hle : left ≤ right)
    (hfuel : right - left ≤ fuel) : bisect p fuel left right = right := by
  induction fuel generalizing left with
  | zero =>
    simp only [bisect]
    omega
  | succ fuel ih =>
    simp only [bisect]
    split_ifs with hlt hmid
    · apply ih _ (by omega) (by omega)
      exact fun i hl hr => hp i (by omega) hr
    · exact absurd (hp _ (by omega) (by omega)) hmid
    · omega

/-- A search in a list whose items all pass answers its end. -/
theorem partitionPoint_of_all {α : Type*} {p : α → Bool} {items : List α}
    (hp : ∀ a ∈ items, p a = true) : partitionPoint p items = items.length := by
  apply bisect_eq_right _ (Nat.zero_le _) (by omega)
  intro i _ hi
  rw [List.getElem?_eq_getElem hi]
  exact hp _ (List.getElem_mem hi)

/-- In a list that passes a test first and fails it then, the items that pass are those before
the end of the passing part. -/
theorem passes_iff_lt {α : Type*} {p : α → Bool} {items : List α}
    (h : items.Pairwise fun a b => p b = true → p a = true) {i : ℕ} {a : α}
    (ha : items[i]? = some a) : p a = true ↔ i < (items.takeWhile p).length := by
  induction items generalizing i with
  | nil => simp at ha
  | cons b items ih =>
    obtain ⟨hb, hitems⟩ := List.pairwise_cons.mp h
    cases hp : p b with
    | false =>
      have hfails : p a = false := by
        cases i with
        | zero =>
          obtain rfl : b = a := by simpa using ha
          exact hp
        | succ i =>
          have hmem := List.mem_of_getElem? (by simpa using ha : items[i]? = some a)
          by_contra hpa
          rw [hb a hmem (by simpa using hpa)] at hp
          contradiction
      simp [hp, hfails]
    | true =>
      cases i with
      | zero =>
        obtain rfl : b = a := by simpa using ha
        simp [hp]
      | succ i =>
        have hrest := ih hitems (by simpa using ha : items[i]? = some a)
        rw [hrest, List.takeWhile_cons_of_pos hp, List.length_cons]
        omega

/-- The length of the passing part counts the items that pass. -/
theorem length_takeWhile_eq_countP {α : Type*} {p : α → Bool} {items : List α}
    (h : items.Pairwise fun a b => p b = true → p a = true) :
    (items.takeWhile p).length = items.countP p := by
  induction items with
  | nil => rfl
  | cons a items ih =>
    obtain ⟨ha, hitems⟩ := List.pairwise_cons.mp h
    cases hp : p a with
    | true => rw [List.takeWhile_cons_of_pos hp, List.length_cons, ih hitems,
        List.countP_cons_of_pos hp]
    | false =>
      have hfail : ∀ b ∈ a :: items, ¬ p b = true := by
        intro b hb hpb
        rcases List.mem_cons.mp hb with rfl | hb
        · rw [hp] at hpb
          contradiction
        · rw [ha b hb hpb] at hp
          contradiction
      rw [List.countP_eq_zero.mpr hfail]
      simp [hp]

/-- The items that pass are those before their number. -/
theorem passes_iff_lt_countP {α : Type*} {p : α → Bool} {items : List α}
    (h : items.Pairwise fun a b => p b = true → p a = true) {i : ℕ} {a : α}
    (ha : items[i]? = some a) : p a = true ↔ i < items.countP p := by
  rw [passes_iff_lt h ha, length_takeWhile_eq_countP h]

/-- The items of a list that pass are a part of it if their positions are. -/
theorem filter_eq_drop_take {α : Type*} {p : α → Bool} {items : List α} {start stop : ℕ}
    (h : ∀ i a, items[i]? = some a → (p a = true ↔ start ≤ i ∧ i < stop)) :
    items.filter p = (items.take stop).drop start := by
  induction items generalizing start stop with
  | nil => simp
  | cons a items ih =>
    have hhead := h 0 a rfl
    have htail : ∀ i b, items[i]? = some b → (p b = true ↔ start - 1 ≤ i ∧ i < stop - 1) := by
      intro i b hb
      rw [h (i + 1) b (by simpa using hb)]
      omega
    rw [List.filter_cons, ih htail]
    cases stop with
    | zero =>
      rw [if_neg fun hp => Nat.not_lt_zero 0 (hhead.mp hp).2]
      simp
    | succ stop =>
      cases start with
      | zero =>
        rw [if_pos (hhead.mpr ⟨le_rfl, Nat.succ_pos stop⟩)]
        rfl
      | succ start =>
        rw [if_neg fun hp => Nat.not_succ_le_zero start (hhead.mp hp).1]
        rfl

/-! ## Searching for a key -/

section Keys

variable {κ : Type*} [LinearOrder κ]

/-- In a sorted list the keys below a bound are those before their number. -/
theorem lt_iff_lt_countP {keys : List κ} (h : keys.Pairwise (· ≤ ·)) {key : κ} (bound : κ)
    {i : ℕ} (hi : keys[i]? = some key) : key < bound ↔ i < keys.countP (· < bound) := by
  have hmono : keys.Pairwise fun a b => decide (b < bound) = true → decide (a < bound) = true := by
    refine h.imp fun {a b} hab hb => ?_
    rw [decide_eq_true_eq] at hb ⊢
    exact hab.trans_lt hb
  rw [← passes_iff_lt_countP hmono hi, decide_eq_true_eq]

/-- In a sorted list the keys up to a bound are those before their number. -/
theorem le_iff_lt_countP {keys : List κ} (h : keys.Pairwise (· ≤ ·)) {key : κ} (bound : κ)
    {i : ℕ} (hi : keys[i]? = some key) : key ≤ bound ↔ i < keys.countP (· ≤ bound) := by
  have hmono : keys.Pairwise fun a b => decide (b ≤ bound) = true → decide (a ≤ bound) = true := by
    refine h.imp fun {a b} hab hb => ?_
    rw [decide_eq_true_eq] at hb ⊢
    exact hab.trans hb
  rw [← passes_iff_lt_countP hmono hi, decide_eq_true_eq]

/-- The keys up to a bound are those below it and those equal to it. -/
theorem countP_le_eq (keys : List κ) (bound : κ) :
    keys.countP (· ≤ bound) = keys.countP (· < bound) + keys.count bound := by
  induction keys with
  | nil => rfl
  | cons key keys ih =>
    rw [List.countP_cons, List.countP_cons, List.count_cons, ih]
    rcases lt_trichotomy key bound with h | rfl | h
    · simp only [h.le, h, h.ne, decide_true, beq_iff_eq, if_true, if_false]
      omega
    · simp only [le_refl, lt_irrefl, decide_true, decide_false, beq_self_eq_true, if_true,
        Bool.false_eq_true, if_false]
      omega
    · simp only [h.not_ge, h.not_gt, h.ne', decide_false, beq_iff_eq, Bool.false_eq_true, if_false]
      omega

/-- In a sorted list the items between two bounds stand together. -/
theorem filter_window_eq {α : Type*} {key : α → κ} {items : List α}
    (h : (items.map key).Pairwise (· ≤ ·)) (lo hi : κ) :
    items.filter (fun a => lo ≤ key a ∧ key a ≤ hi) =
      (items.take ((items.map key).countP (· ≤ hi))).drop ((items.map key).countP (· < lo)) := by
  apply filter_eq_drop_take
  intro i a ha
  have hkey : (items.map key)[i]? = some (key a) := by rw [List.getElem?_map, ha, Option.map_some]
  rw [decide_eq_true_eq, le_iff_lt_countP h hi hkey, ← not_lt, lt_iff_lt_countP h lo hkey, not_lt]

/-- `binary_search` as far as it is documented: in a sorted list it answers some position of the
key, or else the one at which the key could be inserted. -/
structure KeySearch (κ : Type*) [LinearOrder κ] where
  search : List κ → κ → Except ℕ ℕ
  found : ∀ {keys key i}, keys.Pairwise (· ≤ ·) → search keys key = .ok i → keys[i]? = some key
  missing : ∀ {keys key i}, keys.Pairwise (· ≤ ·) → search keys key = .error i →
    key ∉ keys ∧ i = keys.countP (· < key)

namespace KeySearch

/-- The search that answers the last position of the key. -/
def last : KeySearch κ where
  search keys key :=
    if key ∈ keys then .ok (keys.countP (· ≤ key) - 1) else .error (keys.countP (· < key))
  found := by
    intro keys key i h hi
    split_ifs at hi with hmem
    obtain rfl := Except.ok.inj hi
    obtain ⟨j, hj⟩ := List.mem_iff_getElem?.mp hmem
    have hlt := (le_iff_lt_countP h key hj).mp le_rfl
    have hlength : keys.countP (· ≤ key) - 1 < keys.length := by
      have hle := List.countP_le_length (p := fun x => decide (x ≤ key)) (l := keys)
      omega
    have hget := List.getElem?_eq_getElem hlength
    have hle : keys[keys.countP (· ≤ key) - 1] ≤ key := (le_iff_lt_countP h key hget).mpr (by omega)
    have hge : key ≤ keys[keys.countP (· ≤ key) - 1] := by
      obtain ⟨hjl, rfl⟩ := List.getElem?_eq_some_iff.mp hj
      exact h.rel_get_of_le (a := ⟨j, hjl⟩) (b := ⟨_, hlength⟩) (Nat.le_sub_one_of_lt hlt)
    rw [hget, le_antisymm hle hge]
  missing := by
    intro keys key i _ hi
    split_ifs at hi with hmem
    exact ⟨hmem, (Except.error.inj hi).symm⟩

/-- The search that answers the first position of the key. -/
def first : KeySearch κ where
  search keys key :=
    if key ∈ keys then .ok (keys.countP (· < key)) else .error (keys.countP (· < key))
  found := by
    intro keys key i h hi
    split_ifs at hi with hmem
    obtain rfl := Except.ok.inj hi
    have hlt : keys.countP (· < key) < keys.countP (· ≤ key) := by
      have hcount := List.count_pos_iff.mpr hmem
      rw [countP_le_eq]
      omega
    have hlength : keys.countP (· < key) < keys.length := hlt.trans_le List.countP_le_length
    have hget := List.getElem?_eq_getElem hlength
    have hle : keys[keys.countP (· < key)] ≤ key := (le_iff_lt_countP h key hget).mpr hlt
    have hge : ¬ keys[keys.countP (· < key)] < key := fun hlt' =>
      lt_irrefl _ ((lt_iff_lt_countP h key hget).mp hlt')
    rw [hget, le_antisymm hle (not_lt.mp hge)]
  missing := by
    intro keys key i _ hi
    split_ifs at hi with hmem
    exact ⟨hmem, (Except.error.inj hi).symm⟩

variable (s : KeySearch κ) {keys : List κ}

/-- The position, whether or not the key is there. -/
def index (keys : List κ) (key : κ) : ℕ :=
  match s.search keys key with
  | .ok i => i
  | .error i => i

/-- A key that is there is found. -/
theorem exists_found (h : keys.Pairwise (· ≤ ·)) {key : κ} (hmem : key ∈ keys) :
    ∃ i, s.search keys key = .ok i := by
  cases hs : s.search keys key with
  | ok i => exact ⟨i, rfl⟩
  | error i => exact absurd hmem (s.missing h hs).1

theorem index_of_found {key : κ} {i : ℕ} (hs : s.search keys key = .ok i) :
    s.index keys key = i := by
  rw [index, hs]

/-- The position does not lie before a smaller key. -/
theorem countP_lt_le_index (h : keys.Pairwise (· ≤ ·)) (key : κ) :
    keys.countP (· < key) ≤ s.index keys key := by
  cases hs : s.search keys key with
  | ok i =>
    rw [index, hs]
    by_contra hlt
    exact lt_irrefl key ((lt_iff_lt_countP h key (s.found h hs)).mpr (not_le.mp hlt))
  | error i => rw [index, hs, (s.missing h hs).2]

/-- The position does not lie behind a greater key. -/
theorem index_le_countP_le (h : keys.Pairwise (· ≤ ·)) (key : κ) :
    s.index keys key ≤ keys.countP (· ≤ key) := by
  cases hs : s.search keys key with
  | ok i =>
    rw [index, hs]
    exact ((le_iff_lt_countP h key (s.found h hs)).mp le_rfl).le
  | error i =>
    rw [index, hs, (s.missing h hs).2]
    refine List.countP_mono_left fun a _ ha => ?_
    rw [decide_eq_true_eq] at ha ⊢
    exact ha.le

/-- A key that is there at most once is found at its only position. -/
theorem index_eq_of_count_le_one (h : keys.Pairwise (· ≤ ·)) {key : κ}
    (hcount : keys.count key ≤ 1) : s.index keys key = keys.countP (· < key) := by
  cases hs : s.search keys key with
  | ok i =>
    have hge := s.countP_lt_le_index h key
    have hlt := (le_iff_lt_countP h key (s.found h hs)).mp le_rfl
    rw [index_of_found s hs] at hge ⊢
    rw [countP_le_eq] at hlt
    omega
  | error i => rw [index, hs, (s.missing h hs).2]

theorem index_first (keys : List κ) (key : κ) : first.index keys key = keys.countP (· < key) := by
  by_cases h : key ∈ keys <;> simp [index, first, h]

theorem index_last_of_mem {keys : List κ} {key : κ} (h : key ∈ keys) :
    last.index keys key = keys.countP (· ≤ key) - 1 := by
  simp [index, last, h]

/-- The keys before the position do not exceed the key. -/
theorem le_of_mem_take (h : keys.Pairwise (· ≤ ·)) {key a : κ}
    (ha : a ∈ keys.take (s.index keys key)) : a ≤ key := by
  obtain ⟨i, hi⟩ := List.mem_iff_getElem?.mp ha
  rw [List.getElem?_take] at hi
  split_ifs at hi with hlt
  exact (le_iff_lt_countP h key hi).mpr (hlt.trans_le (s.index_le_countP_le h key))

end KeySearch

end Keys

end Biscuit
