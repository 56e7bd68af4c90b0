import Biscuit.Models.Parser.Swap

/-!
# Whose events a Jupiter swap is read from

A Jupiter swap is read from every inner instruction that carries the event tag, whichever
program it calls. Inner instructions of other programs change nothing exactly as long as
none of them carries the tag with a swap event, or with fewer bytes than a discriminator.
-/

namespace Biscuit.Parser

/-- Instruction data that the parser takes for a swap event, or that it cannot split. -/
def LooksLikeSwapEvent (ix : CompiledInstruction) : Prop :=
  eventIxTagLe <+: ix.data ∧ (ix.data.length < 16 ∨
    (eventOf swapEventDiscriminator SwapEvent.deserialize
      (ix.data.drop eventIxTagLe.length)).isSome = true)

instance : DecidablePred LooksLikeSwapEvent := fun _ => inferInstanceAs (Decidable (_ ∧ _))

/-- An instruction of one program. -/
def ITransaction.Calls (transaction : ITransaction) (programId : Pubkey)
    (ix : CompiledInstruction) : Prop := transaction.programId ix = some programId

instance (transaction : ITransaction) (programId : Pubkey) :
    DecidablePred (transaction.Calls programId) := fun _ => inferInstanceAs (Decidable (_ = _))

/-- Two transactions that differ at most in the inner instructions of other programs than
Jupiter under one instruction of the message. -/
structure SameExceptForeign (idx : ℕ) (transaction transaction' : ITransaction) : Prop where
  instructions : transaction'.instructions = transaction.instructions
  staticAccountKeys : transaction'.staticAccountKeys = transaction.staticAccountKeys
  loadedAddresses : transaction'.loadedAddresses = transaction.loadedAddresses
  statusMeta : transaction'.statusMeta = transaction.statusMeta
  other : ∀ key, key ≠ UInt8.ofNat idx → transaction'.innerOf key = transaction.innerOf key
  own : (transaction'.innerOf (UInt8.ofNat idx)).filter
      (transaction'.Calls jupiterAggregatorV6ProgramId) =
    (transaction.innerOf (UInt8.ofNat idx)).filter
      (transaction.Calls jupiterAggregatorV6ProgramId)

/-- The inner instructions of other programs under one instruction of the message are of a
kind. -/
def ITransaction.ForeignIn (allowed : CompiledInstruction → Prop) (idx : ℕ)
    (transaction : ITransaction) : Prop :=
  ∀ ix ∈ transaction.innerOf (UInt8.ofNat idx),
    ¬ transaction.Calls jupiterAggregatorV6ProgramId ix → allowed ix

/-! ## What the result depends on -/

/-- The events of some inner instructions, in order. -/
def jupiterEvents (ixs : List CompiledInstruction) : Parsed (List SwapEvent) :=
  parseJupiterSwapEvents (ixs.filterMap anchorEventCpiFilter)

theorem decodeJupiter_congr {transaction transaction' : ITransaction} {idx : ℕ}
    (h : jupiterEvents (transaction'.innerOf (UInt8.ofNat idx)) =
      jupiterEvents (transaction.innerOf (UInt8.ofNat idx))) :
    decodeJupiter transaction' idx = decodeJupiter transaction idx := by
  rw [jupiterEvents, jupiterEvents] at h
  simp only [decodeJupiter, getCpiLogsForInstruction_getD, h]

/-- An instruction that does not look like a swap event has no effect on the events. -/
theorem not_looksLikeSwapEvent {ix : CompiledInstruction} (h : ¬ LooksLikeSwapEvent ix) :
    ∀ rest, anchorEventCpiFilter ix = some rest → 8 ≤ rest.length ∧
      eventOf swapEventDiscriminator SwapEvent.deserialize rest = none := by
  intro rest hfilter
  rw [anchorEventCpiFilter_eq_some] at hfilter
  have htag : eventIxTagLe.length = 8 := rfl
  rw [LooksLikeSwapEvent, hfilter, List.drop_left, List.length_append, htag] at h
  simp only [List.prefix_append, true_and, not_or, Bool.not_eq_true, Option.isSome_eq_false_iff,
    Option.isNone_iff_eq_none] at h
  exact ⟨by omega, h.2⟩

/-- Only instructions that look like swap events decide the events. -/
theorem jupiterEvents_filter (ixs : List CompiledInstruction) :
    jupiterEvents (ixs.filter LooksLikeSwapEvent) = jupiterEvents ixs := by
  have hlong : (∀ data ∈ (ixs.filter LooksLikeSwapEvent).filterMap anchorEventCpiFilter,
      8 ≤ data.length) ↔ ∀ data ∈ ixs.filterMap anchorEventCpiFilter, 8 ≤ data.length := by
    constructor
    · intro h data hdata
      obtain ⟨ix, hix, hfilter⟩ := List.mem_filterMap.mp hdata
      by_cases hlooks : LooksLikeSwapEvent ix
      · exact h data (List.mem_filterMap.mpr
          ⟨ix, List.mem_filter.mpr ⟨hix, by simpa using hlooks⟩, hfilter⟩)
      · exact (not_looksLikeSwapEvent hlooks data hfilter).1
    · intro h data hdata
      obtain ⟨ix, hix, hfilter⟩ := List.mem_filterMap.mp hdata
      exact h data (List.mem_filterMap.mpr ⟨ix, (List.mem_filter.mp hix).1, hfilter⟩)
  have hevents : ((ixs.filter LooksLikeSwapEvent).filterMap anchorEventCpiFilter).filterMap
      (eventOf swapEventDiscriminator SwapEvent.deserialize) =
      (ixs.filterMap anchorEventCpiFilter).filterMap
        (eventOf swapEventDiscriminator SwapEvent.deserialize) := by
    rw [List.filterMap_filterMap, List.filterMap_filterMap, List.filterMap_filter]
    apply List.filterMap_congr
    intro ix hix
    by_cases hlooks : LooksLikeSwapEvent ix
    · simp only [hlooks, decide_true, if_true]
    · simp only [hlooks, decide_false, Bool.false_eq_true, if_false]
      cases hfilter : anchorEventCpiFilter ix with
      | none => rfl
      | some rest => exact (not_looksLikeSwapEvent hlooks rest hfilter).2.symm
  unfold jupiterEvents parseJupiterSwapEvents
  by_cases h : ∀ data ∈ ixs.filterMap anchorEventCpiFilter, 8 ≤ data.length
  · rw [parseEvents_of_length _ _ h, parseEvents_of_length _ _ (hlong.mpr h), hevents]
  · rw [parseEvents_eq_panic _ _ h, parseEvents_eq_panic _ _ fun hshort => h (hlong.mp hshort)]

/-- There are no events exactly where nothing looks like one. -/
theorem jupiterEvents_eq_nil_iff (ixs : List CompiledInstruction) :
    jupiterEvents ixs = .ok [] ↔ ∀ ix ∈ ixs, ¬ LooksLikeSwapEvent ix := by
  constructor
  · intro h ix hix hlooks
    obtain ⟨⟨rest, hrest⟩, hlooks⟩ := hlooks
    have htag : eventIxTagLe.length = 8 := rfl
    rw [← hrest, List.length_append, List.drop_left, htag] at hlooks
    have hmem : rest ∈ ixs.filterMap anchorEventCpiFilter :=
      List.mem_filterMap.mpr ⟨ix, hix, anchorEventCpiFilter_eq_some.mpr hrest.symm⟩
    by_cases hall : ∀ data ∈ ixs.filterMap anchorEventCpiFilter, 8 ≤ data.length
    · obtain ⟨event, hevent⟩ := Option.isSome_iff_exists.mp
        (hlooks.resolve_left fun hlt => Nat.not_lt.mpr (hall rest hmem) (by omega))
      rw [jupiterEvents, parseJupiterSwapEvents, parseEvents_of_length _ _ hall,
        Outcome.ok.injEq, List.filterMap_eq_nil_iff] at h
      rw [h rest hmem] at hevent
      cases hevent
    · rw [jupiterEvents, parseJupiterSwapEvents, parseEvents_eq_panic _ _ hall] at h
      cases h
  · intro h
    have hfilter : ixs.filter LooksLikeSwapEvent = [] := by
      rw [List.filter_eq_nil_iff]
      intro ix hix
      simpa using h ix hix
    rw [← jupiterEvents_filter, hfilter]
    rfl

/-- Transactions that differ in harmless instructions of other programs have the same
instructions that look like swap events. -/
theorem SameExceptForeign.filter_looksLikeSwapEvent {idx : ℕ}
    {transaction transaction' : ITransaction} (h : SameExceptForeign idx transaction transaction')
    (hforeign : transaction.ForeignIn (fun ix => ¬ LooksLikeSwapEvent ix) idx)
    (hforeign' : transaction'.ForeignIn (fun ix => ¬ LooksLikeSwapEvent ix) idx) :
    (transaction'.innerOf (UInt8.ofNat idx)).filter LooksLikeSwapEvent =
      (transaction.innerOf (UInt8.ofNat idx)).filter LooksLikeSwapEvent := by
  have hown : ∀ t : ITransaction, t.ForeignIn (fun ix => ¬ LooksLikeSwapEvent ix) idx →
      (t.innerOf (UInt8.ofNat idx)).filter LooksLikeSwapEvent =
        ((t.innerOf (UInt8.ofNat idx)).filter
          (t.Calls jupiterAggregatorV6ProgramId)).filter LooksLikeSwapEvent := by
    intro t ht
    rw [List.filter_filter]
    apply List.filter_congr
    intro ix hix
    by_cases hcalls : t.Calls jupiterAggregatorV6ProgramId ix
    · simp only [hcalls, decide_true, Bool.and_true]
    · simp only [ht ix hix hcalls, decide_false, Bool.false_and]
  rw [hown transaction' hforeign', hown transaction hforeign, h.own]

/-! ## The exact condition -/

/-- A Jupiter instruction, and under it some instructions, in a transaction where the index
of the instruction given calls the system's token. -/
def jupiterTransaction (foreign : CompiledInstruction) (inner : List CompiledInstruction) :
    ITransaction where
  instructions := [⟨if foreign.programIdIndex = 0 then 1 else 0, [], []⟩]
  staticAccountKeys :=
    if foreign.programIdIndex = 0 then [SOL, jupiterAggregatorV6ProgramId]
    else jupiterAggregatorV6ProgramId :: List.replicate 255 SOL
  loadedAddresses := none
  statusMeta := none
  innerInstructions := some (AList.insert 0 inner ∅)

theorem jupiterTransaction_innerOf (foreign : CompiledInstruction)
    (inner : List CompiledInstruction) :
    (jupiterTransaction foreign inner).innerOf 0 = inner := by
  simp only [ITransaction.innerOf, jupiterTransaction, Option.bind_some, AList.lookup_insert,
    Option.getD_some]

theorem jupiterTransaction_innerOf_ne (foreign : CompiledInstruction)
    (inner : List CompiledInstruction) {key : UInt8} (h : key ≠ 0) :
    (jupiterTransaction foreign inner).innerOf key = [] := by
  simp only [ITransaction.innerOf, jupiterTransaction, Option.bind_some, AList.lookup_insert_ne h]
  rfl

theorem jupiterTransaction_foreign (foreign : CompiledInstruction)
    (inner : List CompiledInstruction) :
    ¬ (jupiterTransaction foreign inner).Calls jupiterAggregatorV6ProgramId foreign := by
  have hne : SOL ≠ jupiterAggregatorV6ProgramId := by decide
  unfold ITransaction.Calls ITransaction.programId
  by_cases hindex : foreign.programIdIndex = 0
  · simpa [ITransaction.accountKeys, jupiterTransaction, hindex] using hne
  · obtain ⟨n, hn⟩ : ∃ n, foreign.programIdIndex.toNat = n + 1 := by
      refine Nat.exists_eq_succ_of_ne_zero fun hzero => hindex ?_
      exact UInt8.toNat_inj.mp hzero
    rw [ITransaction.accountKeys]
    simp only [jupiterTransaction, if_neg hindex, List.append_nil, hn, List.getElem?_cons_succ]
    intro h
    exact hne (List.eq_of_mem_replicate (List.mem_of_getElem? h)).symm

theorem jupiterTransaction_jupiter (foreign : CompiledInstruction)
    (inner : List CompiledInstruction) :
    ∃ ix, (jupiterTransaction foreign inner).instructions[0]? = some ix ∧
      (jupiterTransaction foreign inner).Calls jupiterAggregatorV6ProgramId ix := by
  refine ⟨_, rfl, ?_⟩
  unfold ITransaction.Calls ITransaction.programId
  by_cases hindex : foreign.programIdIndex = 0
  · simp [ITransaction.accountKeys, jupiterTransaction, hindex]
  · simp only [ITransaction.accountKeys, jupiterTransaction, if_neg hindex]
    rfl

/-- A Jupiter instruction decodes to nothing exactly if nothing under it looks like a swap
event. -/
theorem decodeJupiter_eq_none_iff (transaction : ITransaction) (idx : ℕ) :
    decodeJupiter transaction idx = .ok none ↔
      ∀ ix ∈ transaction.innerOf (UInt8.ofNat idx), ¬ LooksLikeSwapEvent ix := by
  rw [← jupiterEvents_eq_nil_iff, jupiterEvents, ← getCpiLogsForInstruction_getD, decodeJupiter]
  cases parseJupiterSwapEvents ((getCpiLogsForInstruction transaction idx).getD []) with
  | panic => simp
  | err e => simp
  | ok events =>
    cases events with
    | nil => exact iff_of_true rfl rfl
    | cons event events =>
      obtain ⟨last, hlast⟩ : ∃ last, (event :: events).getLast? = some last :=
        Option.isSome_iff_exists.mp (by simp)
      simp [mergeJupiterEvents, hlast]

/-- A foreign instruction that looks like a swap event is told from no instruction. -/
theorem decodeJupiter_of_looksLikeSwapEvent {ix : CompiledInstruction}
    (h : LooksLikeSwapEvent ix) :
    decodeJupiter (jupiterTransaction ix [ix]) 0 ≠ decodeJupiter (jupiterTransaction ix []) 0 := by
  have hkey : UInt8.ofNat 0 = 0 := rfl
  have hnone : decodeJupiter (jupiterTransaction ix []) 0 = .ok none := by
    rw [decodeJupiter_eq_none_iff, hkey, jupiterTransaction_innerOf]
    intro ix' hix'
    cases hix'
  rw [hnone, Ne, decodeJupiter_eq_none_iff, hkey, jupiterTransaction_innerOf]
  intro hall
  exact hall ix List.mem_cons_self h

/-- Inner instructions of other programs do not change a Jupiter swap exactly as long as
none of them looks like a swap event. -/
theorem decodeJupiter_noninterference_iff (allowed : CompiledInstruction → Prop) :
    (∀ (idx : ℕ) (transaction transaction' : ITransaction),
      (∃ ix, transaction.instructions[idx]? = some ix ∧
        transaction.Calls jupiterAggregatorV6ProgramId ix) →
      SameExceptForeign idx transaction transaction' →
      transaction.ForeignIn allowed idx → transaction'.ForeignIn allowed idx →
      decodeJupiter transaction' idx = decodeJupiter transaction idx) ↔
      ∀ ix, allowed ix → ¬ LooksLikeSwapEvent ix := by
  constructor
  · intro h ix hallowed hlooks
    have hkey : UInt8.ofNat 0 = 0 := rfl
    have hsame : SameExceptForeign 0 (jupiterTransaction ix []) (jupiterTransaction ix [ix]) := by
      refine ⟨rfl, rfl, rfl, rfl, ?_, ?_⟩
      · intro key hne
        rw [jupiterTransaction_innerOf_ne ix [ix] hne, jupiterTransaction_innerOf_ne ix [] hne]
      · rw [hkey, jupiterTransaction_innerOf, jupiterTransaction_innerOf]
        simp [jupiterTransaction_foreign]
    have hforeign : ∀ inner, (∀ ix' ∈ inner, ix' = ix) →
        (jupiterTransaction ix inner).ForeignIn allowed 0 := by
      intro inner hinner ix' hix' _
      rw [hkey, jupiterTransaction_innerOf] at hix'
      rwa [hinner ix' hix']
    exact decodeJupiter_of_looksLikeSwapEvent hlooks
      (h 0 _ _ (jupiterTransaction_jupiter ix []) hsame (hforeign [] (by simp))
        (hforeign [ix] (by simp)))
  · intro h idx transaction transaction' _ hsame hforeign hforeign'
    apply decodeJupiter_congr
    have hfilter := hsame.filter_looksLikeSwapEvent
      (fun ix hix hcalls => h ix (hforeign ix hix hcalls))
      (fun ix hix hcalls => h ix (hforeign' ix hix hcalls))
    rw [← jupiterEvents_filter, hfilter, jupiterEvents_filter]

/-- A swap event in the layout of Jupiter: one million of one token for two of another, by
any program. -/
def swapEventCpi (programIdIndex : UInt8) (outputMint : UInt8) : CompiledInstruction where
  programIdIndex := programIdIndex
  accounts := []
  data := eventIxTagLe ++ swapEventDiscriminator ++ List.replicate 32 1 ++
    List.replicate 32 2 ++ [64, 66, 15, 0, 0, 0, 0, 0] ++ List.replicate 32 outputMint ++
    [2, 0, 0, 0, 0, 0, 0, 0]

/-- A route through one pool, with what the pool's program calls after Jupiter's event. -/
def routeTransaction (foreign : List CompiledInstruction) : ITransaction where
  instructions := [⟨0, [], []⟩]
  staticAccountKeys := [jupiterAggregatorV6ProgramId, raydiumLiquidityPoolV4ProgramId]
  loadedAddresses := none
  statusMeta := none
  innerInstructions := some (AList.insert 0 (swapEventCpi 0 3 :: foreign) ∅)

/-- A pool's program that logs a swap event of its own changes the token that is bought. -/
theorem decodeJupiter_forged :
    (∃ ix, (routeTransaction []).instructions[0]? = some ix ∧
      (routeTransaction []).Calls jupiterAggregatorV6ProgramId ix) ∧
    SameExceptForeign 0 (routeTransaction []) (routeTransaction [swapEventCpi 1 4]) ∧
    decodeJupiter (routeTransaction [swapEventCpi 1 4]) 0 ≠
      decodeJupiter (routeTransaction []) 0 := by
  refine ⟨⟨⟨0, [], []⟩, rfl, rfl⟩, ⟨rfl, rfl, rfl, rfl, ?_, ?_⟩, ?_⟩
  · intro key hkey
    have hne : key ≠ 0 := hkey
    simp only [ITransaction.innerOf, routeTransaction, Option.bind_some,
      AList.lookup_insert_ne hne]
  · decide +kernel
  · decide +kernel

end Biscuit.Parser
