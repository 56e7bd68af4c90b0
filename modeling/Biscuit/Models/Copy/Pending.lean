import Biscuit.Core.Run
import Biscuit.Core.Table
import Biscuit.Models.Chain.Wire
import Biscuit.Models.Copy.Details
import Mathlib.Data.List.Sort

/-!
# The map of pending transactions

A transaction that was sent is kept with the moment of its insertion until it is confirmed. A
full map sheds some of its oldest entries before it takes another one. How many of them is
counted from the capacity, whether or not the new one takes a place.
-/

namespace Biscuit.Copy

/-- `Behaviour::DropNWhenFull`; `validate` panics when more is dropped than there is room for. -/
structure Behaviour where
  capacity : ℕ
  n : ℕ
  valid : n ≤ capacity

/-- The behaviour that the service starts with: a fifth of the capacity is dropped. -/
def Behaviour.ofCapacity (capacity : ℕ) : Behaviour := ⟨capacity, capacity / 5, Nat.div_le_self _ _⟩

/-- The pending transactions, each with the moment of its insertion. -/
abbrev PendingTransactions := Table TransactionId (CopyDetails × ℕ)

/-- The order in which one traversal yields the pending transactions. -/
abbrev PendingIteration := Iteration (TransactionId × CopyDetails × ℕ)

namespace PendingTransactions

/-- The transactions by the time they have been there, the newest first. -/
def byElapsed (m : PendingTransactions) (iter : PendingIteration) (now : ℕ) :
    List (TransactionId × ℕ) :=
  ((iter.order (Table.items m)).map fun x => (x.1, x.2.2)).insertionSort
    fun a b => now - a.2 ≤ now - b.2

/-- What an insertion sheds. -/
def shed (b : Behaviour) (m : PendingTransactions) (iter : PendingIteration) (now : ℕ) :
    List TransactionId :=
  if b.capacity ≤ m.keys.length then
    ((m.byElapsed iter now).drop (b.capacity - b.n)).map Prod.fst
  else []

/-- `PendingTransactionsMap::insert`: the map afterwards, and the details that were replaced. -/
def insert (b : Behaviour) (m : PendingTransactions) (iter : PendingIteration) (now : ℕ)
    (txnId : TransactionId) (details : CopyDetails) : PendingTransactions × Option CopyDetails :=
  let m := Table.eraseAll m (shed b m iter now)
  (AList.insert txnId (details, now) m, (m.lookup txnId).map Prod.fst)

/-- `PendingTransactionsMap::remove` -/
def remove (m : PendingTransactions) (txnId : TransactionId) :
    PendingTransactions × Option (TransactionId × CopyDetails) :=
  (m.erase txnId, (m.lookup txnId).map fun v => (txnId, v.1))

/-! ## What is shed -/

/-- The traversal names every transaction once. -/
theorem byElapsed_keys (m : PendingTransactions) (iter : PendingIteration) (now : ℕ) :
    ((m.byElapsed iter now).map Prod.fst).Perm m.keys := by
  have hsorted : ((m.byElapsed iter now).map Prod.fst).Perm
      (((iter.order (Table.items m)).map fun x => (x.1, x.2.2)).map Prod.fst) :=
    (List.perm_insertionSort _ _).map Prod.fst
  have hitems : ((iter.order (Table.items m)).map Prod.fst).Perm m.keys := by
    refine ((iter.perm _).map Prod.fst).trans ?_
    rw [Table.items, List.map_map]
    exact List.Perm.refl _
  rw [List.map_map] at hsorted
  exact hsorted.trans hitems

theorem mem_byElapsed {m : PendingTransactions} {iter : PendingIteration} {now : ℕ}
    {txnId : TransactionId} {instant : ℕ} :
    (txnId, instant) ∈ m.byElapsed iter now ↔ ∃ d, m.lookup txnId = some (d, instant) := by
  rw [byElapsed, List.mem_insertionSort, List.mem_map]
  constructor
  · rintro ⟨⟨key, d, t⟩, hmem, he⟩
    obtain ⟨rfl, rfl⟩ := Prod.mk.inj he
    exact ⟨d, Table.mem_items.mp (iter.mem_order.mp hmem)⟩
  · rintro ⟨d, hd⟩
    exact ⟨(txnId, d, instant), iter.mem_order.mpr (Table.mem_items.mpr hd), rfl⟩

theorem length_byElapsed (m : PendingTransactions) (iter : PendingIteration) (now : ℕ) :
    (m.byElapsed iter now).length = m.keys.length := by
  have h := (m.byElapsed_keys iter now).length_eq
  rwa [List.length_map] at h

theorem pairwise_byElapsed (m : PendingTransactions) (iter : PendingIteration) (now : ℕ) :
    (m.byElapsed iter now).Pairwise fun a b => now - a.2 ≤ now - b.2 := by
  have : Std.Total (fun a b : TransactionId × ℕ => now - a.2 ≤ now - b.2) :=
    ⟨fun a b => Nat.le_total _ _⟩
  have : IsTrans (TransactionId × ℕ) (fun a b => now - a.2 ≤ now - b.2) :=
    ⟨fun a b c => Nat.le_trans⟩
  exact List.pairwise_insertionSort _ _

/-- The transactions that are shed are different ones of the map. -/
theorem shed_spec (b : Behaviour) (m : PendingTransactions) (iter : PendingIteration) (now : ℕ) :
    (m.shed b iter now).Nodup ∧ ∀ txnId ∈ m.shed b iter now, txnId ∈ m := by
  have hkeys := m.byElapsed_keys iter now
  rw [shed]
  split_ifs
  · rw [List.map_drop]
    refine ⟨(List.drop_sublist _ _).nodup (hkeys.nodup_iff.mpr m.keys_nodup), fun txnId h => ?_⟩
    exact AList.mem_keys.mpr (hkeys.mem_iff.mp (List.mem_of_mem_drop h))
  · exact ⟨List.nodup_nil, nofun⟩

theorem length_shed {b : Behaviour} {m : PendingTransactions} (h : m.keys.length ≤ b.capacity)
    (iter : PendingIteration) (now : ℕ) :
    (m.shed b iter now).length = if m.keys.length < b.capacity then 0 else b.n := by
  have hvalid := b.valid
  rw [shed]
  by_cases hfull : b.capacity ≤ m.keys.length
  · rw [if_pos hfull, if_neg (Nat.not_lt.mpr hfull), List.length_map, List.length_drop,
      length_byElapsed]
    omega
  · rw [if_neg hfull, if_pos (Nat.lt_of_not_le hfull), List.length_nil]

/-- What is shed has been there at least as long as what is kept. -/
theorem shed_oldest {b : Behaviour} {m : PendingTransactions} {iter : PendingIteration} {now : ℕ}
    {old kept : TransactionId} {dOld dKept : CopyDetails} {tOld tKept : ℕ}
    (hold : old ∈ m.shed b iter now) (hkept : kept ∉ m.shed b iter now)
    (hOld : m.lookup old = some (dOld, tOld)) (hKept : m.lookup kept = some (dKept, tKept)) :
    now - tKept ≤ now - tOld := by
  unfold shed at hold hkept
  split_ifs at hold hkept with hfull
  · have hsplit : (m.byElapsed iter now).take (b.capacity - b.n) ++
        (m.byElapsed iter now).drop (b.capacity - b.n) = m.byElapsed iter now :=
      List.take_append_drop _ _
    have hpairs := m.pairwise_byElapsed iter now
    rw [← hsplit, List.pairwise_append] at hpairs
    have hmemOld : (old, tOld) ∈ (m.byElapsed iter now).drop (b.capacity - b.n) := by
      obtain ⟨⟨key, t⟩, hmem, rfl⟩ := List.mem_map.mp hold
      obtain ⟨d, hd⟩ := mem_byElapsed.mp (List.mem_of_mem_drop hmem)
      obtain ⟨-, rfl⟩ := Prod.mk.inj (Option.some.inj (hd.symm.trans hOld))
      exact hmem
    have hmemKept : (kept, tKept) ∈ (m.byElapsed iter now).take (b.capacity - b.n) := by
      have hall : (kept, tKept) ∈ m.byElapsed iter now := mem_byElapsed.mpr ⟨dKept, hKept⟩
      rw [← hsplit, List.mem_append] at hall
      rcases hall with htake | hdrop
      · exact htake
      · exact absurd (List.mem_map.mpr ⟨_, hdrop, rfl⟩) hkept
    exact hpairs.2.2 _ hmemKept _ hmemOld
  · contradiction

/-! ## Insertions -/

theorem lookup_insert_self (b : Behaviour) (m : PendingTransactions) (iter : PendingIteration)
    (now : ℕ) (txnId : TransactionId) (details : CopyDetails) :
    (m.insert b iter now txnId details).1.lookup txnId = some (details, now) :=
  AList.lookup_insert _

theorem lookup_insert_of_ne (b : Behaviour) (m : PendingTransactions) (iter : PendingIteration)
    (now : ℕ) {txnId other : TransactionId} (details : CopyDetails) (h : other ≠ txnId) :
    (m.insert b iter now txnId details).1.lookup other =
      if other ∈ m.shed b iter now then none else m.lookup other :=
  (AList.lookup_insert_ne h).trans (Table.lookup_eraseAll _ _ _)

/-- The new transaction takes a place unless it had one that was not shed. -/
theorem length_insert (b : Behaviour) (m : PendingTransactions) (iter : PendingIteration)
    (now : ℕ) (txnId : TransactionId) (details : CopyDetails) :
    (m.insert b iter now txnId details).1.keys.length + (m.shed b iter now).length =
      m.keys.length + if txnId ∈ m ∧ txnId ∉ m.shed b iter now then 0 else 1 := by
  obtain ⟨hnodup, hmem⟩ := m.shed_spec b iter now
  have herased := Table.length_eraseAll hnodup hmem
  have hkept : txnId ∈ Table.eraseAll m (m.shed b iter now) ↔
      txnId ∈ m ∧ txnId ∉ m.shed b iter now := by
    rw [Table.mem_iff_lookup, Table.lookup_eraseAll, Table.mem_iff_lookup]
    split_ifs with h <;> simp [h]
  have hinsert := Table.length_insert (Table.eraseAll m (m.shed b iter now)) txnId (details, now)
  simp only [hkept] at hinsert
  change (AList.insert txnId (details, now) (Table.eraseAll m (m.shed b iter now))).keys.length +
    _ = _
  omega

/-- What an insertion is to keep and to give up. -/
structure InsertContract (b : Behaviour) (m : PendingTransactions) (iter : PendingIteration)
    (now : ℕ) (txnId : TransactionId) (details : CopyDetails) : Prop where
  /-- The capacity is kept. -/
  bounded : (m.insert b iter now txnId details).1.keys.length ≤ b.capacity
  /-- Nothing is shed below the capacity, or for a transaction that is there. -/
  keeps : m.keys.length < b.capacity ∨ txnId ∈ m → m.shed b iter now = []
  /-- Otherwise so many entries are shed, -/
  count : m.shed b iter now ≠ [] → (m.shed b iter now).length = b.n
  /-- none of which is newer than one that is kept, -/
  oldest : ∀ old ∈ m.shed b iter now, ∀ kept ∉ m.shed b iter now, ∀ vOld vKept,
    m.lookup old = some vOld → m.lookup kept = some vKept → now - vKept.2 ≤ now - vOld.2
  /-- and all others stay as they are. -/
  rest : ∀ other ≠ txnId, (m.insert b iter now txnId details).1.lookup other =
    if other ∈ m.shed b iter now then none else m.lookup other
  /-- The new entry is there. -/
  present : (m.insert b iter now txnId details).1.lookup txnId = some (details, now)

/-- There is room below the capacity. In a full map a new transaction needs the place of others,
and one that is there must not take it. -/
def HasRoom (b : Behaviour) (m : PendingTransactions) (txnId : TransactionId) : Prop :=
  m.keys.length < b.capacity ∨ (b.n = 0 ↔ txnId ∈ m)

instance (b : Behaviour) (m : PendingTransactions) (txnId : TransactionId) :
    Decidable (m.HasRoom b txnId) :=
  inferInstanceAs (Decidable (_ ∨ _))

/-- Within the capacity an insertion keeps its contract exactly when it has room. -/
theorem insertContract_iff {b : Behaviour} {m : PendingTransactions}
    (hm : m.keys.length ≤ b.capacity) (iter : PendingIteration) (now : ℕ) (txnId : TransactionId)
    (details : CopyDetails) :
    m.InsertContract b iter now txnId details ↔ m.HasRoom b txnId := by
  have hlength := m.length_insert b iter now txnId details
  have hshed := length_shed hm iter now
  constructor
  · intro h
    by_contra hroom
    rw [HasRoom, not_or, Nat.not_lt] at hroom
    obtain ⟨hfull, hneither⟩ := hroom
    rw [if_neg (Nat.not_lt.mpr hfull)] at hshed
    by_cases hin : txnId ∈ m
    · have hempty := h.keeps (.inr hin)
      rw [hempty, List.length_nil] at hshed
      exact hneither ⟨fun _ => hin, fun _ => hshed.symm⟩
    · have hzero : b.n = 0 := by
        by_contra hpos
        exact hneither ⟨fun hz => absurd hz hpos, fun h => absurd h hin⟩
      have hbounded := h.bounded
      rw [if_neg fun hk => hin hk.1] at hlength
      omega
  · intro hroom
    have hnothing : m.keys.length < b.capacity ∨ txnId ∈ m → m.shed b iter now = [] := by
      intro h
      apply List.eq_nil_of_length_eq_zero
      rcases hroom with hlt | hiff
      · rw [hshed, if_pos hlt]
      · rcases h with hlt | hin
        · rw [hshed, if_pos hlt]
        · rw [hshed, hiff.mpr hin, ite_self]
    refine ⟨?_, hnothing, fun hne => ?_, ?_,
      fun other h => lookup_insert_of_ne b m iter now details h,
      lookup_insert_self b m iter now txnId details⟩
    · rcases hroom with hlt | hiff
      · rw [hnothing (.inl hlt), List.length_nil] at hlength
        split_ifs at hlength <;> omega
      · by_cases hin : txnId ∈ m
        · have hempty := hnothing (.inr hin)
          rw [hempty, List.length_nil, if_pos ⟨hin, by simp⟩] at hlength
          omega
        · have hpos : b.n ≠ 0 := fun hz => hin (hiff.mp hz)
          rw [if_neg fun hk => hin hk.1] at hlength
          split_ifs at hshed <;> omega
    · have hfull : ¬ m.keys.length < b.capacity := fun h => hne (hnothing (.inl h))
      rw [hshed, if_neg hfull]
    · intro old hold kept hkept vOld vKept hOld hKept
      exact shed_oldest hold hkept hOld hKept

/-! ## Runs -/

/-- A call of the map. -/
inductive Call
  | insert (iter : PendingIteration) (now : ℕ) (txnId : TransactionId) (details : CopyDetails)
  | remove (txnId : TransactionId)

/-- The map after one call. -/
def step (b : Behaviour) (m : PendingTransactions) : Call → PendingTransactions
  | .insert iter now txnId details => (m.insert b iter now txnId details).1
  | .remove txnId => (m.remove txnId).1

/-- An insertion keeps its contract. -/
def Keeps (b : Behaviour) (m : PendingTransactions) : Call → Prop
  | .insert iter now txnId details => m.InsertContract b iter now txnId details
  | .remove _ => True

/-- An insertion has room. -/
def Fits (b : Behaviour) (m : PendingTransactions) : Call → Prop
  | .insert _ _ txnId _ => m.HasRoom b txnId
  | .remove _ => True

instance (b : Behaviour) (m : PendingTransactions) : ∀ call, Decidable (m.Fits b call)
  | .insert _ _ txnId _ => inferInstanceAs (Decidable (m.HasRoom b txnId))
  | .remove _ => instDecidableTrue

/-- From a map within its capacity, every insertion of a run keeps its contract exactly when each
of them has room. -/
theorem keeps_along_iff {b : Behaviour} {m : PendingTransactions}
    (hm : m.keys.length ≤ b.capacity) (calls : List Call) :
    Along (step b) (Keeps b) m calls ↔ Along (step b) (Fits b) m calls := by
  apply along_iff_along (I := fun m => m.keys.length ≤ b.capacity)
  · intro m call hm hkeeps
    cases call with
    | insert iter now txnId details => exact hkeeps.bounded
    | remove txnId =>
      change (AList.erase txnId m).keys.length ≤ _
      rw [AList.keys_erase]
      exact (List.length_erase_le).trans hm
  · intro m call hm
    cases call with
    | insert iter now txnId details => exact insertContract_iff hm iter now txnId details
    | remove txnId => exact Iff.rfl
  · exact hm

/-- Insertions of some transactions, one after the other. -/
def insertions (txnIds : List TransactionId) : List Call :=
  txnIds.zipIdx.map fun x => .insert (.stored _) x.2 x.1 (sampleBuy 100)

/-- A fifth of four is nothing, so that a fifth transaction makes five; and of five transactions
the oldest is shed when the newest is inserted again. -/
theorem not_keeps_along :
    ¬ Along (step (.ofCapacity 4)) (Keeps (.ofCapacity 4)) ∅ (insertions [0, 1, 2, 3, 4]) ∧
      ¬ Along (step (.ofCapacity 5)) (Keeps (.ofCapacity 5)) ∅
        (insertions [0, 1, 2, 3, 4, 4]) := by
  constructor
  · intro h
    have hbounded := h.2.2.2.2.1.bounded
    revert hbounded
    decide
  · intro h
    have hkeeps := h.2.2.2.2.2.1.keeps (.inr (by decide))
    revert hkeeps
    decide

/-- With a capacity of five a new transaction takes the place of the oldest one. -/
theorem keeps_along_new :
    Along (step (.ofCapacity 5)) (Keeps (.ofCapacity 5)) ∅ (insertions [0, 1, 2, 3, 4, 5, 6]) :=
  (keeps_along_iff (b := .ofCapacity 5) (m := ∅) (by decide) _).mpr (by decide)

end PendingTransactions

end Biscuit.Copy
