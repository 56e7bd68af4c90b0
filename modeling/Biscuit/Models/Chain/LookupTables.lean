import Biscuit.Core.AppendOnly
import Biscuit.Core.Run
import Biscuit.Models.Parser.Transaction

/-!
# Address lookup tables

A message names some of its accounts by their places in tables of the chain. The runtime
resolved them when the transaction ran; the program resolves them again, from what the node
recorded or from the tables as a later or earlier request finds them. A table only grows
until it is closed, and its address is never used again.
-/

namespace Biscuit.Parser

/-- `MessageAddressTableLookup` -/
structure MessageAddressTableLookup where
  accountKey : Pubkey
  writableIndexes : Bytes
  readonlyIndexes : Bytes
  deriving DecidableEq, Repr

/-! ## The tables of the chain -/

/-- The tables: all the addresses that were ever added under each key, and which tables exist. -/
structure TableChain where
  added : Pubkey → List Pubkey
  live : Pubkey → Bool

/-- What happens to the tables. -/
inductive TableEvent
  | create (key : Pubkey)
  | extend (key : Pubkey) (addresses : List Pubkey)
  | close (key : Pubkey)

/-- The program of the chain that keeps the tables: what it makes of them on an event. -/
structure TableProgram where
  step : TableChain → TableEvent → TableChain

namespace TableProgram

/-- The rules of the program that are relied on. -/
structure Lawful (program : TableProgram) : Prop where
  /-- A table only gets more addresses, and a key that was given to a table is not used again. -/
  appendOnly : ∀ chain e key, chain.added key <+: (program.step chain e).added key
  /-- A table is there until it is closed. -/
  keepsLive : ∀ {chain e key}, chain.live key = true → e ≠ .close key →
    (program.step chain e).live key = true

variable {program : TableProgram}

/-- A run takes nothing away from what was added. -/
theorem Lawful.added_exec (hlawful : program.Lawful) (chain : TableChain)
    (events : List TableEvent) (key : Pubkey) :
    chain.added key <+: (exec program.step chain events).added key := by
  induction events generalizing chain with
  | nil => exact List.prefix_refl _
  | cons e events ih =>
    exact (hlawful.appendOnly chain e key).trans (ih (program.step chain e))

/-- What was added at some point of a run is the start of what was added by its end. -/
theorem Lawful.added_take (hlawful : program.Lawful) (chain : TableChain)
    (events : List TableEvent) (n : ℕ) (key : Pubkey) :
    (exec program.step chain (events.take n)).added key <+:
      (exec program.step chain events).added key := by
  conv_rhs => rw [← List.take_append_drop n events, exec_append]
  exact hlawful.added_exec _ _ key

end TableProgram

namespace TableChain

/-- No table exists. -/
def genesis : TableChain := ⟨fun _ => [], fun _ => false⟩

/-- The addresses of a table that exists. -/
def table (chain : TableChain) (key : Pubkey) : Option (List Pubkey) :=
  if chain.live key then some (chain.added key) else none

/-! ## What the runtime loads -/

/-- An address stands at a place of a table. -/
def Holds (chain : TableChain) (place : Pubkey × ℕ) (address : Pubkey) : Prop :=
  ∃ addresses, chain.table place.1 = some addresses ∧ addresses[place.2]? = some address

end TableChain

/-- The places of the writable accounts of a message, lookup after lookup. -/
def writablePlaces (lookups : List MessageAddressTableLookup) : List (Pubkey × ℕ) :=
  lookups.flatMap fun l => l.writableIndexes.map fun index => (l.accountKey, index.toNat)

/-- The places of its readonly accounts. -/
def readonlyPlaces (lookups : List MessageAddressTableLookup) : List (Pubkey × ℕ) :=
  lookups.flatMap fun l => l.readonlyIndexes.map fun index => (l.accountKey, index.toNat)

/-- The addresses that the runtime loads for a message: every table exists, and every place
holds its address. -/
structure TableChain.Loads (chain : TableChain) (lookups : List MessageAddressTableLookup)
    (loaded : LoadedAddresses) : Prop where
  tables : ∀ l ∈ lookups, chain.live l.accountKey = true
  writable : List.Forall₂ chain.Holds (writablePlaces lookups) loaded.writable
  readonly : List.Forall₂ chain.Holds (readonlyPlaces lookups) loaded.readonly

/-! ## What the program loads -/

/-- An account as a request returns it, by what `AddressLookupTable::deserialize` makes of its
data. -/
inductive FetchedAccount
  | missing
  | undecodable
  | table (addresses : List Pubkey)
  deriving DecidableEq, Repr

/-- Why the addresses of a message are not loaded. -/
inductive LookupError
  /-- The request failed. -/
  | request
  /-- `Failed to get account for address table lookup` -/
  | missing
  /-- `failed to deserialize account lookup table` -/
  | undecodable
  /-- `account lookup went out of bounds of address lookup table` -/
  | outOfBounds
  deriving DecidableEq, Repr

/-- The addresses of a table at some indices. -/
def tableAddresses (addresses : List Pubkey) (indexes : Bytes) :
    Outcome LookupError (List Pubkey) :=
  indexes.mapM fun index => Outcome.ofOption .outOfBounds addresses[index.toNat]?

/-- The loop of `lookup_addresses`. -/
def loadEach : List FetchedAccount → List MessageAddressTableLookup →
    Outcome LookupError (List LoadedAddresses)
  | [], _ => pure []
  | .missing :: _, _ => .err .missing
  | .undecodable :: _, _ => .err .undecodable
  | .table _ :: _, [] => .panic
  | .table addresses :: accounts, l :: lookups => do
    let writable ← tableAddresses addresses l.writableIndexes
    let readonly ← tableAddresses addresses l.readonlyIndexes
    let rest ← loadEach accounts lookups
    pure (⟨writable, readonly⟩ :: rest)

/-- `LoadedAddresses::from_iter` -/
def LoadedAddresses.fromIter (loaded : List LoadedAddresses) : LoadedAddresses :=
  ⟨loaded.flatMap (·.writable), loaded.flatMap (·.readonly)⟩

/-- `lookup_addresses`, by the answer to its request. -/
def lookupAddresses (answer : Option (List FetchedAccount))
    (lookups : List MessageAddressTableLookup) : Outcome LookupError LoadedAddresses := do
  let accounts ← Outcome.ofOption .request answer
  let loaded ← loadEach accounts lookups
  pure (LoadedAddresses.fromIter loaded)

/-- `ITransaction::load_keys`: a legacy message has no lookups. -/
def ITransaction.loadKeys (answer : Option (List FetchedAccount))
    (lookups : List MessageAddressTableLookup) (transaction : ITransaction) :
    Outcome LookupError ITransaction :=
  if lookups = [] then pure transaction
  else do
    let addresses ← lookupAddresses answer lookups
    pure { transaction with loadedAddresses := some addresses }

/-- `UiLoadedAddresses` -/
structure UiLoadedAddresses where
  writable : List Text
  readonly : List Text
  deriving DecidableEq, Repr

/-- `extract_loaded_addresses`, for the addresses that the node recorded. -/
def UiLoadedAddresses.extract (recorded : UiLoadedAddresses) :
    Outcome LookupError LoadedAddresses := do
  let readonly ← recorded.readonly.mapM fun text => Outcome.unwrap (Pubkey.ofText text)
  let writable ← recorded.writable.mapM fun text => Outcome.unwrap (Pubkey.ofText text)
  pure ⟨writable, readonly⟩

/-- `ITransaction::extract_or_load_additional_keys` -/
def ITransaction.extractOrLoadAdditionalKeys (recorded : Option UiLoadedAddresses)
    (answer : Option (List FetchedAccount)) (lookups : List MessageAddressTableLookup)
    (transaction : ITransaction) : Outcome LookupError ITransaction :=
  match recorded with
  | some recorded => do
    let loaded ← recorded.extract
    pure { transaction with loadedAddresses := some loaded }
  | none => transaction.loadKeys answer lookups

/-! ## What is loaded from the tables -/

/-- What a request finds at a key; `other` are the accounts that are not tables. -/
def TableChain.fetched (chain : TableChain) (other : Pubkey → Bool) (key : Pubkey) :
    FetchedAccount :=
  match chain.table key with
  | some addresses => .table addresses
  | none => if other key then .undecodable else .missing

/-- The part of a lookup that is loaded from its table. -/
def TableChain.LoadsPart (chain : TableChain) (l : MessageAddressTableLookup)
    (part : LoadedAddresses) : Prop :=
  ∃ addresses, chain.table l.accountKey = some addresses ∧
    tableAddresses addresses l.writableIndexes = .ok part.writable ∧
    tableAddresses addresses l.readonlyIndexes = .ok part.readonly

/-- The addresses at some indices, read at the places of the table. -/
theorem tableAddresses_eq_ok_iff {chain : TableChain} {key : Pubkey} {addresses : List Pubkey}
    (htable : chain.table key = some addresses) {indexes : Bytes} {keys : List Pubkey} :
    tableAddresses addresses indexes = .ok keys ↔
      List.Forall₂ chain.Holds (indexes.map fun index => (key, index.toNat)) keys := by
  rw [tableAddresses, Outcome.mapM_eq_ok, List.forall₂_map_left_iff]
  have hplace : ∀ (index : UInt8) (address : Pubkey),
      Outcome.ofOption LookupError.outOfBounds addresses[index.toNat]? = .ok address ↔
        chain.Holds (key, index.toNat) address := by
    intro index address
    simp only [TableChain.Holds, htable, Option.some.injEq, exists_eq_left']
    cases addresses[index.toNat]? <;> simp
  simp only [hplace]

/-- A place holds one address. -/
theorem TableChain.holds_rightUnique (chain : TableChain) : Relator.RightUnique chain.Holds := by
  rintro place a b ⟨addresses, htable, ha⟩ ⟨addresses', htable', hb⟩
  obtain rfl := Option.some.inj (htable.symm.trans htable')
  exact Option.some.inj (ha.symm.trans hb)

/-- The addresses of a message are determined by the tables. -/
theorem TableChain.Loads.unique {chain : TableChain} {lookups : List MessageAddressTableLookup}
    {loaded loaded' : LoadedAddresses} (h : chain.Loads lookups loaded)
    (h' : chain.Loads lookups loaded') : loaded' = loaded := by
  have hwritable := chain.holds_rightUnique.forall₂ h'.writable h.writable
  have hreadonly := chain.holds_rightUnique.forall₂ h'.readonly h.readonly
  cases loaded
  cases loaded'
  exact congrArg₂ LoadedAddresses.mk hwritable hreadonly

/-- The loop goes through the accounts of the lookups. -/
theorem loadEach_fetched_eq_ok_iff (chain : TableChain) (other : Pubkey → Bool)
    {lookups : List MessageAddressTableLookup} {parts : List LoadedAddresses} :
    loadEach (lookups.map fun l => chain.fetched other l.accountKey) lookups = .ok parts ↔
      List.Forall₂ chain.LoadsPart lookups parts := by
  induction lookups generalizing parts with
  | nil => simp [loadEach, eq_comm]
  | cons l lookups ih =>
    rw [List.forall₂_cons_left_iff, List.map_cons, TableChain.fetched]
    cases htable : chain.table l.accountKey with
    | none =>
      simp only [TableChain.LoadsPart, htable, reduceCtorEq, false_and, exists_false, iff_false]
      split_ifs <;> simp [loadEach]
    | some addresses =>
      simp only [loadEach, Outcome.bind_eq_ok, Outcome.pure_eq, Outcome.ok.injEq, ih,
        TableChain.LoadsPart, htable, Option.some.injEq, exists_eq_left']
      constructor
      · rintro ⟨writable, hw, readonly, hr, rest, hrest, rfl⟩
        exact ⟨⟨writable, readonly⟩, rest, ⟨hw, hr⟩, hrest, rfl⟩
      · rintro ⟨part, rest, ⟨hw, hr⟩, hrest, rfl⟩
        exact ⟨part.writable, hw, part.readonly, hr, rest, hrest, rfl⟩

/-- The parts of the lookups make up what the runtime loads. -/
theorem TableChain.loads_of_parts {chain : TableChain}
    {lookups : List MessageAddressTableLookup} {parts : List LoadedAddresses}
    (h : List.Forall₂ chain.LoadsPart lookups parts) :
    chain.Loads lookups (LoadedAddresses.fromIter parts) where
  tables l hl := by
    obtain ⟨part, -, addresses, htable, -⟩ := exists_of_forall₂ h hl
    by_contra hlive
    rw [TableChain.table, if_neg hlive] at htable
    cases htable
  writable := List.rel_flatMap h fun _ _ ⟨_, htable, hw, _⟩ =>
    (tableAddresses_eq_ok_iff htable).mp hw
  readonly := List.rel_flatMap h fun _ _ ⟨_, htable, _, hr⟩ =>
    (tableAddresses_eq_ok_iff htable).mp hr

/-- What the runtime loads is made up of the parts of the lookups. -/
theorem TableChain.Loads.exists_parts {chain : TableChain}
    {lookups : List MessageAddressTableLookup} {loaded : LoadedAddresses}
    (h : chain.Loads lookups loaded) : ∃ parts, List.Forall₂ chain.LoadsPart lookups parts := by
  have hpart : ∀ l ∈ lookups, ∃ part, chain.LoadsPart l part := by
    intro l hl
    have htable : chain.table l.accountKey = some (chain.added l.accountKey) :=
      if_pos (h.tables l hl)
    have hplaces : ∀ indexes : Bytes,
        (∀ index ∈ indexes, ∃ address, chain.Holds (l.accountKey, index.toNat) address) →
          ∃ keys, tableAddresses (chain.added l.accountKey) indexes = .ok keys := by
      intro indexes hall
      refine Outcome.exists_mapM_eq_ok.mpr fun index hindex => ?_
      obtain ⟨address, addresses, haddresses, haddress⟩ := hall index hindex
      obtain rfl := Option.some.inj (haddresses.symm.trans htable)
      exact ⟨address, congrArg (Outcome.ofOption _) haddress⟩
    obtain ⟨writable, hw⟩ := hplaces l.writableIndexes fun index hindex => by
      obtain ⟨address, -, haddress⟩ := exists_of_forall₂ h.writable
        (List.mem_flatMap.mpr ⟨l, hl, List.mem_map_of_mem hindex⟩)
      exact ⟨address, haddress⟩
    obtain ⟨readonly, hr⟩ := hplaces l.readonlyIndexes fun index hindex => by
      obtain ⟨address, -, haddress⟩ := exists_of_forall₂ h.readonly
        (List.mem_flatMap.mpr ⟨l, hl, List.mem_map_of_mem hindex⟩)
      exact ⟨address, haddress⟩
    exact ⟨⟨writable, readonly⟩, _, htable, hw, hr⟩
  clear h
  induction lookups with
  | nil => exact ⟨[], .nil⟩
  | cons l lookups ih =>
    obtain ⟨part, hl⟩ := hpart l List.mem_cons_self
    obtain ⟨parts, hrest⟩ := ih fun k hk => hpart k (List.mem_cons_of_mem l hk)
    exact ⟨part :: parts, .cons hl hrest⟩

/-- The program loads from the tables what the runtime would load from them. -/
theorem lookupAddresses_fetched_eq_ok_iff (chain : TableChain) (other : Pubkey → Bool)
    {lookups : List MessageAddressTableLookup} {loaded : LoadedAddresses} :
    lookupAddresses (some (lookups.map fun l => chain.fetched other l.accountKey)) lookups =
      .ok loaded ↔ chain.Loads lookups loaded := by
  simp only [lookupAddresses, Outcome.ofOption_some, Outcome.ok_bind, Outcome.bind_eq_ok,
    Outcome.pure_eq, Outcome.ok.injEq, loadEach_fetched_eq_ok_iff]
  constructor
  · rintro ⟨parts, hparts, rfl⟩
    exact TableChain.loads_of_parts hparts
  · intro h
    obtain ⟨parts, hparts⟩ := h.exists_parts
    exact ⟨parts, hparts, h.unique (TableChain.loads_of_parts hparts)⟩

/-- Loading never panics: there is a lookup for every account. -/
theorem loadEach_fetched_ne_panic (chain : TableChain) (other : Pubkey → Bool)
    (lookups : List MessageAddressTableLookup) :
    loadEach (lookups.map fun l => chain.fetched other l.accountKey) lookups ≠ .panic := by
  have haddresses : ∀ addresses indexes, tableAddresses addresses indexes ≠ .panic :=
    fun addresses indexes => Outcome.mapM_ne_panic fun index _ => Outcome.ofOption_ne_panic _ _
  induction lookups with
  | nil => exact nofun
  | cons l lookups ih =>
    rw [List.map_cons, TableChain.fetched]
    cases chain.table l.accountKey with
    | none =>
      simp only
      split_ifs <;> exact nofun
    | some addresses =>
      refine Outcome.bind_ne_panic (haddresses _ _) fun writable _ => ?_
      refine Outcome.bind_ne_panic (haddresses _ _) fun readonly _ => ?_
      exact Outcome.bind_ne_panic ih fun rest _ => nofun

/-! ## The keys of a transaction -/

/-- What the node records of the addresses that the runtime loaded. -/
def UiLoadedAddresses.of (loaded : LoadedAddresses) : UiLoadedAddresses :=
  ⟨loaded.writable.map Pubkey.toText, loaded.readonly.map Pubkey.toText⟩

/-- Texts of addresses are read back. -/
theorem mapM_unwrap_ofText (keys : List Pubkey) :
    (keys.map Pubkey.toText).mapM
      (fun text => (Outcome.unwrap (Pubkey.ofText text) : Outcome LookupError Pubkey)) =
        .ok keys := by
  rw [Outcome.mapM_eq_ok, List.forall₂_map_left_iff, List.forall₂_same]
  intro key _
  rw [Pubkey.ofText_toText, Outcome.unwrap_some]

theorem UiLoadedAddresses.extract_of (loaded : LoadedAddresses) :
    (UiLoadedAddresses.of loaded).extract = .ok loaded := by
  simp only [UiLoadedAddresses.extract, UiLoadedAddresses.of, mapM_unwrap_ofText,
    Outcome.ok_bind, Outcome.pure_eq]

/-- The addresses of a message can be loaded exactly when its tables exist and are long
enough. -/
theorem TableChain.exists_loads_iff (chain : TableChain)
    (lookups : List MessageAddressTableLookup) :
    (∃ loaded, chain.Loads lookups loaded) ↔ ∀ l ∈ lookups, chain.live l.accountKey = true ∧
      ∀ index ∈ l.writableIndexes ++ l.readonlyIndexes,
        index.toNat < (chain.added l.accountKey).length := by
  have htable : ∀ {key}, chain.live key = true → chain.table key = some (chain.added key) :=
    fun hlive => if_pos hlive
  constructor
  · rintro ⟨loaded, h⟩ l hl
    have hlive := h.tables l hl
    refine ⟨hlive, fun index hindex => ?_⟩
    have hheld : ∃ address, chain.Holds (l.accountKey, index.toNat) address := by
      rcases List.mem_append.mp hindex with hm | hm
      · obtain ⟨address, -, haddress⟩ := exists_of_forall₂ h.writable
          (List.mem_flatMap.mpr ⟨l, hl, List.mem_map_of_mem hm⟩)
        exact ⟨address, haddress⟩
      · obtain ⟨address, -, haddress⟩ := exists_of_forall₂ h.readonly
          (List.mem_flatMap.mpr ⟨l, hl, List.mem_map_of_mem hm⟩)
        exact ⟨address, haddress⟩
    obtain ⟨address, addresses, haddresses, haddress⟩ := hheld
    obtain rfl := Option.some.inj ((htable hlive).symm.trans haddresses)
    exact (List.getElem?_eq_some_iff.mp haddress).1
  · intro h
    have hplaces : ∀ places : List (Pubkey × ℕ),
        (∀ place ∈ places, chain.live place.1 = true ∧
          place.2 < (chain.added place.1).length) →
        ∃ keys, List.Forall₂ chain.Holds places keys := by
      intro places hall
      induction places with
      | nil => exact ⟨[], .nil⟩
      | cons place places ih =>
        obtain ⟨⟨hlive, hlt⟩, hrest⟩ := List.forall_mem_cons.mp hall
        obtain ⟨keys, hkeys⟩ := ih hrest
        exact ⟨_ :: keys, .cons ⟨_, htable hlive, List.getElem?_eq_getElem hlt⟩ hkeys⟩
    obtain ⟨writable, hw⟩ := hplaces (writablePlaces lookups) fun place hplace => by
      obtain ⟨l, hl, hm⟩ := List.mem_flatMap.mp hplace
      obtain ⟨index, hindex, rfl⟩ := List.mem_map.mp hm
      exact ⟨(h l hl).1, (h l hl).2 index (List.mem_append_left _ hindex)⟩
    obtain ⟨readonly, hr⟩ := hplaces (readonlyPlaces lookups) fun place hplace => by
      obtain ⟨l, hl, hm⟩ := List.mem_flatMap.mp hplace
      obtain ⟨index, hindex, rfl⟩ := List.mem_map.mp hm
      exact ⟨(h l hl).1, (h l hl).2 index (List.mem_append_right _ hindex)⟩
    exact ⟨⟨writable, readonly⟩, fun l hl => (h l hl).1, hw, hr⟩

/-- Two states of one run never hold different addresses for a message. -/
theorem TableProgram.Lawful.loads_same {program : TableProgram} (hlawful : program.Lawful)
    {start : TableChain} {events : List TableEvent} {m n : ℕ}
    {lookups : List MessageAddressTableLookup} {loaded loaded' : LoadedAddresses}
    (h : (exec program.step start (events.take m)).Loads lookups loaded)
    (h' : (exec program.step start (events.take n)).Loads lookups loaded') :
    loaded' = loaded := by
  -- Both are read from what is added by the end of the run.
  let whole (place : Pubkey × ℕ) (address : Pubkey) : Prop :=
    ((exec program.step start events).added place.1)[place.2]? = some address
  have hunique : Relator.RightUnique whole := fun place a b ha hb =>
    Option.some.inj (ha.symm.trans hb)
  have hwhole : ∀ (k : ℕ) (place : Pubkey × ℕ) (address : Pubkey),
      (exec program.step start (events.take k)).Holds place address → whole place address := by
    rintro k place address ⟨addresses, htable, haddress⟩
    rw [TableChain.table, Option.ite_none_right_eq_some, Option.some.injEq] at htable
    obtain ⟨-, rfl⟩ := htable
    exact getElem?_of_prefix (hlawful.added_take start events k place.1) haddress
  have hwritable := hunique.forall₂ (h'.writable.imp (hwhole n)) (h.writable.imp (hwhole m))
  have hreadonly := hunique.forall₂ (h'.readonly.imp (hwhole n)) (h.readonly.imp (hwhole m))
  cases loaded
  cases loaded'
  exact congrArg₂ LoadedAddresses.mk hwritable hreadonly

/-- A transaction ran against the tables of one state of the chain and is read against those of
another, earlier or later; the program that keeps them obeys its rules. Whatever happens to the
tables in between, its keys are the ones that the runtime used, or they are not loaded at all: that
is the case exactly when the node did not record them and a table that the message names is not
reached, is gone or is still too short. -/
theorem extractOrLoadAdditionalKeys_accountKeys {program : TableProgram}
    (hlawful : program.Lawful) (start : TableChain) (events : List TableEvent)
    (executed answered : ℕ) (other : Pubkey → Bool) (lookups : List MessageAddressTableLookup)
    (loaded : LoadedAddresses)
    (hloads : (exec program.step start (events.take executed)).Loads lookups loaded)
    (transaction : ITransaction) (hfresh : transaction.loadedAddresses = none)
    (recorded reached : Bool) :
    let found := exec program.step start (events.take answered)
    let result := transaction.extractOrLoadAdditionalKeys
      (if recorded then some (.of loaded) else none)
      (if reached then some (lookups.map fun l => found.fetched other l.accountKey) else none)
      lookups
    result ≠ .panic ∧
      (∀ transaction', result = .ok transaction' →
        transaction'.accountKeys =
          transaction.staticAccountKeys ++ (loaded.writable ++ loaded.readonly)) ∧
      ((∃ transaction', result = .ok transaction') ↔ recorded = true ∨ lookups = [] ∨
        reached = true ∧ ∀ l ∈ lookups, found.live l.accountKey = true ∧
          ∀ index ∈ l.writableIndexes ++ l.readonlyIndexes,
            index.toNat < (found.added l.accountKey).length) := by
  intro found result
  have hload : ∀ loaded' : LoadedAddresses,
      ITransaction.accountKeys { transaction with loadedAddresses := some loaded' } =
        transaction.staticAccountKeys ++ (loaded'.writable ++ loaded'.readonly) := fun _ => rfl
  cases recorded with
  | true =>
    have hresult : result = .ok { transaction with loadedAddresses := some loaded } := by
      simp only [result, ITransaction.extractOrLoadAdditionalKeys, if_true,
        UiLoadedAddresses.extract_of, Outcome.ok_bind, Outcome.pure_eq]
    rw [hresult]
    refine ⟨nofun, fun t ht => ?_, iff_of_true ⟨_, rfl⟩ (.inl rfl)⟩
    rw [← Outcome.ok.inj ht, hload]
  | false =>
    have hresult : result = transaction.loadKeys (if reached then some (lookups.map fun l =>
      found.fetched other l.accountKey) else none) lookups := rfl
    by_cases hnone : lookups = []
    · subst hnone
      have hempty : loaded = ⟨[], []⟩ := by
        have hw : loaded.writable = [] := List.forall₂_nil_left_iff.mp hloads.writable
        have hr : loaded.readonly = [] := List.forall₂_nil_left_iff.mp hloads.readonly
        cases loaded
        exact congrArg₂ LoadedAddresses.mk hw hr
      rw [hresult, ITransaction.loadKeys, if_pos rfl]
      refine ⟨nofun, fun t ht => ?_, iff_of_true ⟨_, rfl⟩ (.inr (.inl rfl))⟩
      rw [← Outcome.ok.inj ht, ITransaction.accountKeys, hfresh, hempty]
      rfl
    · rw [ITransaction.loadKeys, if_neg hnone] at hresult
      cases reached with
      | false =>
        have hfails : result = .err .request := hresult
        rw [hfails]
        refine ⟨nofun, nofun, iff_of_false ?_ ?_⟩
        · exact fun ⟨_, ht⟩ => nomatch ht
        · exact fun h => h.elim nofun fun h => h.elim hnone nofun
      | true =>
        have hok : ∀ t, result = .ok t ↔ ∃ loaded', found.Loads lookups loaded' ∧
            { transaction with loadedAddresses := some loaded' } = t := by
          intro t
          simp only [hresult, if_true, Outcome.bind_eq_ok, Outcome.pure_eq, Outcome.ok.injEq,
            lookupAddresses_fetched_eq_ok_iff]
        refine ⟨?_, fun t ht => ?_, ?_⟩
        · rw [hresult]
          refine Outcome.bind_ne_panic ?_ (fun _ _ => nofun)
          refine Outcome.bind_ne_panic (Outcome.ofOption_ne_panic _ _) fun accounts h => ?_
          obtain rfl := Outcome.ok.inj h
          exact Outcome.bind_ne_panic (loadEach_fetched_ne_panic found other lookups)
            (fun _ _ => nofun)
        · obtain ⟨loaded', hfound, rfl⟩ := (hok t).mp ht
          rw [hload, hlawful.loads_same hloads hfound]
        · rw [← found.exists_loads_iff]
          simp only [hok, Bool.false_eq_true, hnone, false_or, true_and]
          constructor
          · rintro ⟨-, loaded', hfound, -⟩
            exact ⟨loaded', hfound⟩
          · rintro ⟨loaded', hfound⟩
            exact ⟨_, loaded', hfound, rfl⟩

/-! ## The program as it is documented -/

/-- `LOOKUP_TABLE_MAX_ADDRESSES` -/
def lookupTableMaxAddresses : ℕ := 256

/-- A key is given to one table only, and a table takes so many addresses. -/
def documentedTables : TableProgram where
  step chain
    | .create key =>
      if chain.added key = [] then { chain with live := Function.update chain.live key true }
      else chain
    | .extend key addresses =>
      if chain.live key = true ∧
          (chain.added key ++ addresses).length ≤ lookupTableMaxAddresses then
        { chain with added := Function.update chain.added key (chain.added key ++ addresses) }
      else chain
    | .close key => { chain with live := Function.update chain.live key false }

/-- What is documented is what is relied on. -/
theorem documentedTables_lawful : documentedTables.Lawful where
  appendOnly chain e key := by
    cases e with
    | create k =>
      simp only [documentedTables]
      split
      · exact List.prefix_refl _
      · exact List.prefix_refl _
    | close k => exact List.prefix_refl _
    | extend k addresses =>
      simp only [documentedTables]
      split
      · by_cases hk : key = k
        · subst hk
          simp only [Function.update_self]
          exact List.prefix_append _ _
        · simp only [Function.update_of_ne hk]
          exact List.prefix_refl _
      · exact List.prefix_refl _
  keepsLive := by
    intro chain e key hlive hclose
    cases e with
    | create k =>
      simp only [documentedTables]
      split
      · by_cases hk : key = k
        · simp only [hk, Function.update_self]
        · simp only [Function.update_of_ne hk, hlive]
      · exact hlive
    | extend k addresses =>
      simp only [documentedTables]
      split
      · exact hlive
      · exact hlive
    | close k =>
      have hne : key ≠ k := fun hk => hclose (hk ▸ rfl)
      simp only [documentedTables, Function.update_of_ne hne, hlive]

/-- A table that gets two addresses, and then a third one. -/
def sampleTableEvents : List TableEvent :=
  [.create 1, .extend 1 [10, 11], .extend 1 [12]]

/-- A lookup of the first two addresses. -/
def sampleLookup : MessageAddressTableLookup := ⟨1, [0], [1]⟩

/-- A transaction with one static key whose addresses are not loaded yet. -/
def sampleFetched : ITransaction := ⟨[], [5], none, none, none⟩

/-- A transaction that ran before the third address was added is read after it. -/
theorem extractOrLoadAdditionalKeys_accountKeys_sample :
    ∃ t, sampleFetched.extractOrLoadAdditionalKeys none
      (some [(exec documentedTables.step TableChain.genesis sampleTableEvents).fetched
        (fun _ => false) 1]) [sampleLookup] = .ok t ∧ t.accountKeys = [5, 10, 11] := by
  have hloads : (exec documentedTables.step TableChain.genesis (sampleTableEvents.take 2)).Loads
      [sampleLookup] ⟨[10], [11]⟩ :=
    ⟨by decide, .cons ⟨[10, 11], by decide, rfl⟩ .nil, .cons ⟨[10, 11], by decide, rfl⟩ .nil⟩
  obtain ⟨-, hkeys, hok⟩ := extractOrLoadAdditionalKeys_accountKeys documentedTables_lawful
    TableChain.genesis sampleTableEvents 2 3 (fun _ => false) [sampleLookup] ⟨[10], [11]⟩ hloads
    sampleFetched rfl false true
  have hserved : ∀ l ∈ [sampleLookup],
      (exec documentedTables.step TableChain.genesis sampleTableEvents).live l.accountKey = true ∧
        ∀ index ∈ l.writableIndexes ++ l.readonlyIndexes, index.toNat <
          ((exec documentedTables.step TableChain.genesis sampleTableEvents).added
            l.accountKey).length := by
    intro l hl
    obtain rfl := List.mem_singleton.mp hl
    refine ⟨rfl, fun index hindex => ?_⟩
    rcases hindex with _ | ⟨_, _ | ⟨_, hindex⟩⟩
    · decide
    · decide
    · cases hindex
  obtain ⟨t, ht⟩ := hok.mpr (.inr (.inr ⟨rfl, hserved⟩))
  exact ⟨t, ht, hkeys t ht⟩

end Biscuit.Parser
