import Biscuit.Core.Chunks
import Biscuit.Models.Chain.LookupTables

/-!
# The store of address lookup tables

The store keeps what it last saw of each table and asks for the tables that a lookup needs and
that it does not know well enough. Requests are answered and saved by tasks of their own, in any
order, while the tables of the chain go on growing.
-/

namespace Biscuit.Wire

open Biscuit.Parser

/-- A task of `load_alts_list` or of `reload_alt_account`. -/
inductive LoadTask
  /-- Its request is on the way. -/
  | asked (batch : List Pubkey)
  /-- Its answer is saved account after account. -/
  | saving (rest : List (Pubkey × FetchedAccount))

/-- The store, the tables of the chain, and the file of `serialize_binary`. -/
structure AddressLookupTableStore where
  chain : TableChain
  map : Table Pubkey (List Pubkey)
  tasks : List LoadTask
  file : List (Pubkey × List Pubkey)

/-- One event. -/
inductive StoreEvent
  /-- Something happens to the tables. -/
  | chain (e : TableEvent)
  /-- `reload_if_necessary` -/
  | reload (alts : List MessageAddressTableLookup)
  /-- `reload_alt_account` -/
  | reloadAlt (address : Pubkey)
  /-- The node answers a request; `other` are the accounts that are not tables. -/
  | answer (i : ℕ) (other : Pubkey → Bool)
  /-- A request fails. -/
  | lose (i : ℕ)
  /-- A task saves its next account. -/
  | save (i : ℕ)
  /-- `serialize_binary`; the map yields its items in some order. -/
  | serializeBinary (iter : Iteration (Pubkey × List Pubkey))
  /-- `load_binary` -/
  | loadBinary

/-- Whether `reload_if_necessary` asks for the table of a lookup. The length of the table is cast
to a byte, so that a full table counts as empty. -/
def needsReload (map : Table Pubkey (List Pubkey)) (alt : MessageAddressTableLookup) : Bool :=
  match map.lookup alt.accountKey with
  | some data =>
    let size := data.length % 256
    alt.readonlyIndexes.any (fun x => decide (size ≤ x.toNat)) ||
      alt.writableIndexes.any fun x => decide (size ≤ x.toNat)
  | none => true

/-- The requests of `load_alts_list`. -/
def loadAltsList (altsList : List Pubkey) : List LoadTask :=
  ((chunks 1000 altsList).flatMap (chunks 100)).map .asked

/-- `get_accounts_in_address_lookup_table` -/
def getAccountsInAddressLookupTable (map : Table Pubkey (List Pubkey)) (alt : Pubkey)
    (accounts : Bytes) : Option (List Pubkey) :=
  match map.lookup alt with
  | some data =>
    if accounts.any fun index => decide (data.length ≤ index.toNat) then none
    else some (accounts.map fun index => data.getD index.toNat 0)
  | none => none

/-- `get_accounts` -/
def getAccounts (map : Table Pubkey (List Pubkey)) (alt : Pubkey) (accounts : Bytes) :
    List Pubkey :=
  (getAccountsInAddressLookupTable map alt accounts).getD []

/-- `resolve_addresses_from_lookup_table`: the writable addresses, and the readonly ones. -/
def resolveAddressesFromLookupTable (map : Table Pubkey (List Pubkey))
    (lookup : MessageAddressTableLookup) : List Pubkey × List Pubkey :=
  (getAccounts map lookup.accountKey lookup.writableIndexes,
    getAccounts map lookup.accountKey lookup.readonlyIndexes)

namespace AddressLookupTableStore

/-- The store at its start. -/
def init (chain : TableChain) : AddressLookupTableStore := ⟨chain, ∅, [], []⟩

/-- The next account of a task is saved; one that is no table makes the task panic. -/
def saveAccount (s : AddressLookupTableStore) (i : ℕ) :
    List (Pubkey × FetchedAccount) → AddressLookupTableStore
  | [] => { s with tasks := s.tasks.eraseIdx i }
  | (_, .missing) :: rest => { s with tasks := s.tasks.set i (.saving rest) }
  | (_, .undecodable) :: _ => { s with tasks := s.tasks.eraseIdx i }
  | (address, .table addresses) :: rest =>
    { s with
      map := s.map.insert address addresses
      tasks := s.tasks.set i (.saving rest) }

/-- The items of the map as pairs. -/
def items (map : Table Pubkey (List Pubkey)) : List (Pubkey × List Pubkey) :=
  map.entries.map fun e => (e.1, e.2)

/-- The step function. -/
def step (program : TableProgram) (s : AddressLookupTableStore) :
    StoreEvent → AddressLookupTableStore
  | .chain e => { s with chain := program.step s.chain e }
  | .reload alts =>
    { s with
      tasks := s.tasks ++ loadAltsList ((alts.filter (needsReload s.map)).map (·.accountKey)) }
  | .reloadAlt address => { s with tasks := s.tasks ++ [.asked [address]] }
  | .answer i other =>
    match s.tasks[i]? with
    | some (.asked batch) =>
      { s with
        tasks := s.tasks.set i (.saving (batch.map fun key => (key, s.chain.fetched other key))) }
    | _ => s
  | .lose i =>
    match s.tasks[i]? with
    | some (.asked _) => { s with tasks := s.tasks.eraseIdx i }
    | _ => s
  | .save i =>
    match s.tasks[i]? with
    | some (.saving rest) => s.saveAccount i rest
    | _ => s
  | .serializeBinary iter => { s with file := iter.order (items s.map) }
  | .loadBinary =>
    { s with map := s.file.foldl (fun map item => map.insert item.1 item.2) s.map }

end AddressLookupTableStore

/-! ## What the store knows is a part of what there is -/

/-- A task only carries what a table held. -/
def LoadTask.Sound (chain : TableChain) : LoadTask → Prop
  | .asked _ => True
  | .saving rest => ∀ key addresses, (key, .table addresses) ∈ rest →
    addresses <+: chain.added key

/-- Every entry, every answer on the way and every line of the file is the start of its table. -/
structure AddressLookupTableStore.Sound (s : AddressLookupTableStore) : Prop where
  map : ∀ key addresses, s.map.lookup key = some addresses → addresses <+: s.chain.added key
  tasks : ∀ task ∈ s.tasks, task.Sound s.chain
  file : ∀ item ∈ s.file, item.2 <+: s.chain.added item.1

/-- A longer table keeps a task sound. -/
theorem LoadTask.Sound.mono {chain chain' : TableChain} {task : LoadTask}
    (h : task.Sound chain) (hle : ∀ key, chain.added key <+: chain'.added key) :
    task.Sound chain' := by
  cases task with
  | asked batch => trivial
  | saving rest => exact fun key addresses hm => (h key addresses hm).trans (hle key)

/-- What a request finds at a table is all of it. -/
theorem added_of_fetched {chain : TableChain} {other : Pubkey → Bool} {key : Pubkey}
    {addresses : List Pubkey} (h : chain.fetched other key = .table addresses) :
    chain.live key = true ∧ addresses = chain.added key := by
  unfold TableChain.fetched TableChain.table at h
  by_cases hlive : chain.live key = true
  · rw [if_pos hlive] at h
    exact ⟨hlive, (FetchedAccount.table.inj h).symm⟩
  · rw [if_neg hlive] at h
    simp only at h
    split_ifs at h

/-- An entry of a map after several were put in is one of these or was there before. -/
theorem lookup_foldl_insert {entries : List (Pubkey × List Pubkey)}
    {map : Table Pubkey (List Pubkey)} {key : Pubkey} {addresses : List Pubkey}
    (h : (entries.foldl (fun map item => map.insert item.1 item.2) map).lookup key =
      some addresses) : (key, addresses) ∈ entries ∨ map.lookup key = some addresses := by
  induction entries generalizing map with
  | nil => exact .inr h
  | cons item entries ih =>
    rcases ih h with hm | hinsert
    · exact .inl (List.mem_cons_of_mem _ hm)
    · rcases Table.lookup_of_lookup_insert hinsert with ⟨rfl, rfl⟩ | hmap
      · exact .inl List.mem_cons_self
      · exact .inr hmap

namespace AddressLookupTableStore

/-- What holds of the tasks still holds when one of them is replaced. -/
theorem forall_set {P : LoadTask → Prop} {tasks : List LoadTask} {i : ℕ} {task : LoadTask}
    (h : ∀ t ∈ tasks, P t) (htask : P task) : ∀ t ∈ tasks.set i task, P t := by
  intro t ht
  rcases List.mem_or_eq_of_mem_set ht with hm | rfl
  · exact h t hm
  · exact htask

/-- What holds of the tasks still holds when one of them ends. -/
theorem forall_eraseIdx {P : LoadTask → Prop} {tasks : List LoadTask} {i : ℕ}
    (h : ∀ t ∈ tasks, P t) : ∀ t ∈ tasks.eraseIdx i, P t :=
  fun t ht => h t (List.mem_of_mem_eraseIdx ht)

/-- Requests carry nothing yet. -/
theorem asked_of_mem_loadAltsList {altsList : List Pubkey} {task : LoadTask}
    (h : task ∈ loadAltsList altsList) : ∃ batch, task = .asked batch := by
  obtain ⟨batch, -, rfl⟩ := List.mem_map.mp h
  exact ⟨batch, rfl⟩

/-- Saving an account keeps the store sound. -/
theorem Sound.saveAccount {s : AddressLookupTableStore} (h : s.Sound) {i : ℕ}
    {rest : List (Pubkey × FetchedAccount)} (hi : s.tasks[i]? = some (.saving rest)) :
    (s.saveAccount i rest).Sound := by
  have htask : LoadTask.Sound s.chain (.saving rest) := h.tasks _ (List.mem_of_getElem? hi)
  match rest with
  | [] => exact ⟨h.map, forall_eraseIdx h.tasks, h.file⟩
  | (_, .undecodable) :: _ => exact ⟨h.map, forall_eraseIdx h.tasks, h.file⟩
  | (_, .missing) :: rest =>
    exact ⟨h.map, forall_set h.tasks fun key addresses hm =>
      htask key addresses (List.mem_cons_of_mem _ hm), h.file⟩
  | (address, .table addresses) :: rest =>
    refine ⟨fun key found hfound => ?_, forall_set h.tasks fun key addresses hm =>
      htask key addresses (List.mem_cons_of_mem _ hm), h.file⟩
    rcases Table.lookup_of_lookup_insert hfound with ⟨rfl, rfl⟩ | hmap
    · exact htask _ _ List.mem_cons_self
    · exact h.map key found hmap

/-- Every step keeps the store sound. -/
theorem Sound.step {program : TableProgram} (hlawful : program.Lawful)
    {s : AddressLookupTableStore} (e : StoreEvent) (h : s.Sound) : (s.step program e).Sound := by
  cases e with
  | chain e =>
    have hle := hlawful.appendOnly s.chain e
    exact ⟨fun key addresses hm => (h.map key addresses hm).trans (hle key),
      fun task ht => (h.tasks task ht).mono hle,
      fun item hm => (h.file item hm).trans (hle item.1)⟩
  | reload alts =>
    refine ⟨h.map, fun task ht => ?_, h.file⟩
    rcases List.mem_append.mp ht with hm | hm
    · exact h.tasks task hm
    · obtain ⟨batch, rfl⟩ := asked_of_mem_loadAltsList hm
      trivial
  | reloadAlt address =>
    refine ⟨h.map, fun task ht => ?_, h.file⟩
    rcases List.mem_append.mp ht with hm | hm
    · exact h.tasks task hm
    · obtain rfl := List.mem_singleton.mp hm
      trivial
  | answer i other =>
    simp only [AddressLookupTableStore.step]
    split
    · refine ⟨h.map, forall_set h.tasks fun key addresses hm => ?_, h.file⟩
      obtain ⟨key', -, hkey⟩ := List.mem_map.mp hm
      obtain ⟨rfl, hfetched⟩ := Prod.mk.inj hkey
      rw [(added_of_fetched hfetched).2]
    · exact h
  | lose i =>
    simp only [AddressLookupTableStore.step]
    split
    · exact ⟨h.map, forall_eraseIdx h.tasks, h.file⟩
    · exact h
  | save i =>
    simp only [AddressLookupTableStore.step]
    split
    · rename_i rest hi
      exact h.saveAccount hi
    · exact h
  | serializeBinary iter =>
    refine ⟨h.map, h.tasks, fun item hm => ?_⟩
    obtain ⟨entry, hentry, rfl⟩ := List.mem_map.mp (iter.mem_order.mp hm)
    exact h.map entry.1 entry.2 (AList.mem_lookup_iff.mpr hentry)
  | loadBinary =>
    refine ⟨fun key addresses hm => ?_, h.tasks, h.file⟩
    rcases lookup_foldl_insert hm with hfile | hmap
    · exact h.file _ hfile
    · exact h.map key addresses hmap

/-- A store is sound at its start. -/
theorem sound_init (chain : TableChain) : (init chain).Sound :=
  ⟨nofun, nofun, nofun⟩

end AddressLookupTableStore

/-! ## Resolving a lookup -/

/-- A lookup is resolved exactly when the entry of its table is long enough, to the addresses
at its indices. -/
theorem getAccountsInAddressLookupTable_eq (map : Table Pubkey (List Pubkey)) (alt : Pubkey)
    (accounts : Bytes) :
    getAccountsInAddressLookupTable map alt accounts =
      (map.lookup alt).bind fun data => pick data (accounts.map UInt8.toNat) := by
  unfold getAccountsInAddressLookupTable
  cases map.lookup alt with
  | none => rfl
  | some data =>
    simp only [Option.bind_some]
    split
    · rename_i hany
      obtain ⟨index, hindex, hlt⟩ := List.any_eq_true.mp hany
      exact (pick_eq_none_iff.mpr ⟨_, List.mem_map_of_mem hindex, of_decide_eq_true hlt⟩).symm
    · rename_i hany
      refine (pick_eq_some_iff.mpr ?_).symm
      rw [List.forall₂_map_left_iff, List.forall₂_map_right_iff, List.forall₂_same]
      intro index hindex
      have hlt : index.toNat < data.length := by
        by_contra hge
        exact hany (List.any_eq_true.mpr ⟨index, hindex, decide_eq_true (Nat.le_of_not_lt hge)⟩)
      rw [List.getD_eq_getElem?_getD, List.getElem?_eq_getElem hlt, Option.getD_some]

/-- Every entry is long enough for the lookups of its table. -/
def Fits (alts : List MessageAddressTableLookup) (key : Pubkey) (length : ℕ) : Prop :=
  ∀ alt ∈ alts, alt.accountKey = key →
    ∀ index ∈ alt.writableIndexes ++ alt.readonlyIndexes, index.toNat < length

/-- A longer table fits as well. -/
theorem Fits.mono {alts : List MessageAddressTableLookup} {key : Pubkey} {n m : ℕ}
    (h : Fits alts key n) (hle : n ≤ m) : Fits alts key m :=
  fun alt halt hkey index hindex => (h alt halt hkey index hindex).trans_le hle

/-- A table that is not asked for again is long enough. -/
theorem exists_of_needsReload_false {map : Table Pubkey (List Pubkey)}
    {alt : MessageAddressTableLookup} (h : needsReload map alt = false) :
    ∃ data, map.lookup alt.accountKey = some data ∧
      ∀ index ∈ alt.writableIndexes ++ alt.readonlyIndexes, index.toNat < data.length := by
  unfold needsReload at h
  cases hdata : map.lookup alt.accountKey with
  | none => simp only [hdata, Bool.true_eq_false] at h
  | some data =>
    simp only [hdata, Bool.or_eq_false_iff, List.any_eq_false, decide_eq_true_eq,
      Nat.not_le] at h
    refine ⟨data, rfl, fun index hindex => ?_⟩
    have hmod := Nat.mod_le data.length 256
    rcases List.mem_append.mp hindex with hm | hm
    · exact (h.2 index hm).trans_le hmod
    · exact (h.1 index hm).trans_le hmod

/-- A task is going to save the table of a key. -/
def LoadTask.Brings (key : Pubkey) : LoadTask → Prop
  | .asked batch => key ∈ batch
  | .saving rest => ∃ account, (key, account) ∈ rest

/-- An answer on the way has no account that is not a table, and its tables are long enough. -/
def LoadTask.Serves (alts : List MessageAddressTableLookup) : LoadTask → Prop
  | .asked _ => True
  | .saving rest => ∀ key account, (key, account) ∈ rest → account ≠ .undecodable ∧
    (key ∈ alts.map (·.accountKey) → ∃ addresses, account = .table addresses ∧
      Fits alts key addresses.length)

/-- Every lookup is resolved or about to be. -/
structure AddressLookupTableStore.Serves (alts : List MessageAddressTableLookup)
    (s : AddressLookupTableStore) : Prop where
  chain : ∀ alt ∈ alts, s.chain.live alt.accountKey = true ∧
    Fits alts alt.accountKey (s.chain.added alt.accountKey).length
  tasks : ∀ task ∈ s.tasks, task.Serves alts
  served : ∀ alt ∈ alts,
    (∃ data, s.map.lookup alt.accountKey = some data ∧ Fits alts alt.accountKey data.length) ∨
      ∃ task ∈ s.tasks, task.Brings alt.accountKey

/-- What may happen while a reload is on its way: the node answers every request, no account of
a request is something else than a table, the tables of the lookups are not closed, and no old
file is loaded. -/
def StoreEvent.Permitted (alts : List MessageAddressTableLookup) : StoreEvent → Prop
  | .chain (.close key) => key ∉ alts.map (·.accountKey)
  | .answer _ other => ∀ key, other key = false
  | .lose _ => False
  | .loadBinary => False
  | _ => True

namespace AddressLookupTableStore

/-- A task that is replaced by one that brings the same leaves what the tasks bring. -/
theorem exists_mem_set {P : LoadTask → Prop} {tasks : List LoadTask} {i : ℕ}
    {old task : LoadTask} (hi : tasks[i]? = some old) (h : ∃ t ∈ tasks, P t)
    (htask : P old → P task) : ∃ t ∈ tasks.set i task, P t := by
  obtain ⟨hlt, -⟩ := List.getElem?_eq_some_iff.mp hi
  obtain ⟨t, ht, hP⟩ := h
  obtain ⟨j, hj⟩ := List.getElem?_of_mem ht
  by_cases hij : i = j
  · subst hij
    obtain rfl := Option.some.inj (hi.symm.trans hj)
    exact ⟨task, List.mem_of_getElem? (List.getElem?_set_self hlt), htask hP⟩
  · refine ⟨t, List.mem_of_getElem? (i := j) ?_, hP⟩
    rw [List.getElem?_set_ne hij, hj]

/-- A task that brings nothing can end. -/
theorem exists_mem_eraseIdx {P : LoadTask → Prop} {tasks : List LoadTask} {i : ℕ}
    {old : LoadTask} (hi : tasks[i]? = some old) (h : ∃ t ∈ tasks, P t) (hold : ¬ P old) :
    ∃ t ∈ tasks.eraseIdx i, P t := by
  obtain ⟨t, ht, hP⟩ := h
  obtain ⟨j, hj⟩ := List.getElem?_of_mem ht
  refine ⟨t, List.mem_eraseIdx_iff_getElem?.mpr ⟨j, ?_, hj⟩, hP⟩
  rintro rfl
  obtain rfl := Option.some.inj (hi.symm.trans hj)
  exact hold hP

variable {program : TableProgram} {alts : List MessageAddressTableLookup}
  {s : AddressLookupTableStore}

/-- The tables stay as good while they are not closed. -/
theorem Serves.chain_step (hlawful : program.Lawful) (h : s.Serves alts) {e : TableEvent}
    (hclose : ∀ key, e = .close key → key ∉ alts.map (·.accountKey)) :
    ∀ alt ∈ alts, (program.step s.chain e).live alt.accountKey = true ∧
      Fits alts alt.accountKey ((program.step s.chain e).added alt.accountKey).length := by
  intro alt halt
  obtain ⟨hlive, hfits⟩ := h.chain alt halt
  refine ⟨hlawful.keepsLive hlive fun heq => ?_,
    hfits.mono (hlawful.appendOnly s.chain e alt.accountKey).length_le⟩
  exact hclose alt.accountKey heq (List.mem_map_of_mem halt)

/-- Saving an account leaves every lookup resolved or about to be. -/
theorem Serves.saveAccount (h : s.Serves alts) {i : ℕ} {rest : List (Pubkey × FetchedAccount)}
    (hi : s.tasks[i]? = some (.saving rest)) : (s.saveAccount i rest).Serves alts := by
  have htask : LoadTask.Serves alts (.saving rest) := h.tasks _ (List.mem_of_getElem? hi)
  match rest with
  | [] =>
    refine ⟨h.chain, forall_eraseIdx h.tasks, fun alt halt => (h.served alt halt).imp_right ?_⟩
    exact fun hex => exists_mem_eraseIdx hi hex fun ⟨_, hm⟩ => absurd hm List.not_mem_nil
  | (key, .undecodable) :: rest => exact absurd rfl (htask key _ List.mem_cons_self).1
  | (key, .missing) :: rest =>
    refine ⟨h.chain, forall_set h.tasks fun k account hm =>
      htask k account (List.mem_cons_of_mem _ hm), fun alt halt =>
        (h.served alt halt).imp_right fun hex => exists_mem_set hi hex ?_⟩
    rintro ⟨account, hm⟩
    rcases List.mem_cons.mp hm with heq | hm
    · obtain ⟨hkey, -⟩ := Prod.mk.inj heq
      obtain ⟨addresses, htable, -⟩ := (htask key _ List.mem_cons_self).2
        (hkey ▸ List.mem_map_of_mem halt)
      cases htable
    · exact ⟨account, hm⟩
  | (key, .table addresses) :: rest =>
    refine ⟨h.chain, forall_set h.tasks fun k account hm =>
      htask k account (List.mem_cons_of_mem _ hm), fun alt halt => ?_⟩
    by_cases hkey : alt.accountKey = key
    · obtain ⟨addresses', htable, hfits⟩ := (htask key _ List.mem_cons_self).2
        (hkey ▸ List.mem_map_of_mem halt)
      obtain rfl := FetchedAccount.table.inj htable
      refine .inl ⟨addresses, ?_, hkey ▸ hfits⟩
      rw [hkey]
      exact AList.lookup_insert s.map
    · refine (h.served alt halt).imp ?_ fun hex => exists_mem_set hi hex ?_
      · rintro ⟨data, hdata, hfits⟩
        exact ⟨data, (AList.lookup_insert_ne hkey).trans hdata, hfits⟩
      · rintro ⟨account, hm⟩
        rcases List.mem_cons.mp hm with heq | hm
        · exact absurd (Prod.mk.inj heq).1 hkey
        · exact ⟨account, hm⟩

/-- Every permitted step leaves every lookup resolved or about to be. -/
theorem Serves.step (hlawful : program.Lawful) (e : StoreEvent) (h : s.Serves alts)
    (he : e.Permitted alts) : (s.step program e).Serves alts := by
  have happend : ∀ more : List LoadTask, (∀ t ∈ more, t.Serves alts) →
      ({ s with tasks := s.tasks ++ more } : AddressLookupTableStore).Serves alts := by
    intro more hmore
    refine ⟨h.chain, fun t ht => ?_, fun alt halt => (h.served alt halt).imp_right ?_⟩
    · exact (List.mem_append.mp ht).elim (h.tasks t) (hmore t)
    · rintro ⟨t, ht, hbrings⟩
      exact ⟨t, List.mem_append_left _ ht, hbrings⟩
  cases e with
  | chain e =>
    refine ⟨h.chain_step hlawful fun key hclose => ?_, h.tasks, h.served⟩
    subst hclose
    exact he
  | reload alts' =>
    refine happend _ fun t ht => ?_
    obtain ⟨batch, rfl⟩ := asked_of_mem_loadAltsList ht
    trivial
  | reloadAlt address =>
    refine happend _ fun t ht => ?_
    obtain rfl := List.mem_singleton.mp ht
    trivial
  | answer i other =>
    simp only [AddressLookupTableStore.step]
    split
    · rename_i batch hi
      refine ⟨h.chain, forall_set h.tasks fun key account hm => ?_, fun alt halt =>
        (h.served alt halt).imp_right fun hex => exists_mem_set hi hex ?_⟩
      · obtain ⟨key', -, hkey⟩ := List.mem_map.mp hm
        obtain ⟨rfl, rfl⟩ := Prod.mk.inj hkey
        constructor
        · unfold TableChain.fetched
          rw [he key']
          split <;> exact nofun
        · intro hmem
          obtain ⟨alt, halt, rfl⟩ := List.mem_map.mp hmem
          obtain ⟨hlive, hfits⟩ := h.chain alt halt
          refine ⟨_, ?_, hfits⟩
          simp only [TableChain.fetched, TableChain.table, hlive, if_true]
      · exact fun hbatch => ⟨_, List.mem_map_of_mem hbatch⟩
    · exact h
  | lose i => exact he.elim
  | save i =>
    simp only [AddressLookupTableStore.step]
    split
    · rename_i rest hi
      exact h.saveAccount hi
    · exact h
  | serializeBinary iter => exact ⟨h.chain, h.tasks, h.served⟩
  | loadBinary => exact he.elim

/-- A reload asks for every table that is not known well enough. -/
theorem serves_reload (hquiet : s.tasks = [])
    (hchain : ∀ alt ∈ alts, s.chain.live alt.accountKey = true ∧
      Fits alts alt.accountKey (s.chain.added alt.accountKey).length) :
    (s.step program (.reload alts)).Serves alts := by
  simp only [AddressLookupTableStore.step, hquiet, List.nil_append]
  refine ⟨hchain, fun t ht => ?_, fun alt halt => ?_⟩
  · obtain ⟨batch, rfl⟩ := asked_of_mem_loadAltsList ht
    trivial
  · by_cases hasked : ∃ alt' ∈ alts, alt'.accountKey = alt.accountKey ∧
      needsReload s.map alt' = true
    · obtain ⟨alt', halt', hkey, hneeds⟩ := hasked
      have hmem : alt.accountKey ∈ (alts.filter (needsReload s.map)).map (·.accountKey) :=
        List.mem_map.mpr ⟨alt', List.mem_filter.mpr ⟨halt', hneeds⟩, hkey⟩
      obtain ⟨part, hpart, hm⟩ := (exists_mem_chunks_iff (by decide : 0 < 1000)).mpr hmem
      obtain ⟨batch, hbatch, hm⟩ := (exists_mem_chunks_iff (by decide : 0 < 100)).mpr hm
      exact .inr ⟨.asked batch, List.mem_map_of_mem (List.mem_flatMap.mpr ⟨part, hpart, hbatch⟩),
        hm⟩
    · have hknown : ∀ alt' ∈ alts, alt'.accountKey = alt.accountKey →
          needsReload s.map alt' = false := fun alt' halt' hkey =>
        Bool.eq_false_iff.mpr fun hneeds => hasked ⟨alt', halt', hkey, hneeds⟩
      obtain ⟨data, hdata, -⟩ := exists_of_needsReload_false (hknown alt halt rfl)
      refine .inl ⟨data, hdata, fun alt' halt' hkey => ?_⟩
      obtain ⟨data', hdata', hlt⟩ := exists_of_needsReload_false (hknown alt' halt' hkey)
      rw [hkey] at hdata'
      obtain rfl := Option.some.inj (hdata.symm.trans hdata')
      exact hlt

end AddressLookupTableStore

/-- The addresses of an entry that is the start of its table are those of the table. -/
theorem AddressLookupTableStore.Sound.pick_added {s : AddressLookupTableStore} (h : s.Sound)
    {key : Pubkey} {accounts : Bytes} {addresses : List Pubkey}
    (hget : getAccountsInAddressLookupTable s.map key accounts = some addresses) :
    pick (s.chain.added key) (accounts.map UInt8.toNat) = some addresses := by
  rw [getAccountsInAddressLookupTable_eq] at hget
  obtain ⟨data, hdata, hpick⟩ := Option.bind_eq_some_iff.mp hget
  exact pick_of_prefix (h.map key data hdata) hpick

/-- Whatever the tables do by their rules, whichever answers are late, lost or overtaken, and
whatever file is loaded: a lookup gets the addresses that its table holds at these indices, or none
at all. -/
theorem getAccounts_eq_of_run {program : TableProgram} (hlawful : program.Lawful)
    (chain : TableChain) (events : List StoreEvent) (key : Pubkey) (accounts : Bytes) :
    let s := exec (AddressLookupTableStore.step program) (AddressLookupTableStore.init chain) events
    getAccounts s.map key accounts = [] ∨
      pick (s.chain.added key) (accounts.map UInt8.toNat) =
        some (getAccounts s.map key accounts) := by
  intro s
  have hsound : s.Sound := exec_preserves (fun _ e h => h.step hlawful e) events
    (AddressLookupTableStore.sound_init chain)
  cases hget : getAccountsInAddressLookupTable s.map key accounts with
  | none => exact .inl (by rw [getAccounts, hget, Option.getD_none])
  | some addresses =>
    right
    rw [getAccounts, hget, Option.getD_some]
    exact hsound.pick_added hget

/-- A table that has grown since it was loaded: the addresses that it held then are found. -/
theorem getAccounts_eq_of_run_sample :
    let s := exec (AddressLookupTableStore.step documentedTables)
      (AddressLookupTableStore.init .genesis)
      [.chain (.create 1), .chain (.extend 1 [10, 11]), .reloadAlt 1, .answer 0 (fun _ => false),
        .save 0, .chain (.extend 1 [12])]
    getAccounts s.map 1 [0, 1] = [10, 11] ∧
      pick (s.chain.added 1) [0, 1] = some (getAccounts s.map 1 [0, 1]) := by
  intro s
  have hget : getAccounts s.map 1 [0, 1] = [10, 11] := by decide +kernel
  refine ⟨hget, (getAccounts_eq_of_run documentedTables_lawful .genesis _ 1 [0, 1]).resolve_left ?_⟩
  rw [hget]
  exact List.cons_ne_nil _ _

/-- A lookup of a table that is known well enough is resolved to what the runtime loads. -/
theorem resolves_of_serves {alts : List MessageAddressTableLookup} {s : AddressLookupTableStore}
    (hsound : s.Sound) (hserves : s.Serves alts) (hquiet : s.tasks = [])
    {alt : MessageAddressTableLookup} (halt : alt ∈ alts) :
    s.chain.Loads [alt] ⟨(resolveAddressesFromLookupTable s.map alt).1,
      (resolveAddressesFromLookupTable s.map alt).2⟩ := by
  obtain ⟨data, hdata, hfits⟩ := (hserves.served alt halt).resolve_right
    fun ⟨_, ht, _⟩ => absurd (hquiet ▸ ht) List.not_mem_nil
  have hlive := (hserves.chain alt halt).1
  have hplaces : ∀ indexes : Bytes,
      (∀ index ∈ indexes, index ∈ alt.writableIndexes ++ alt.readonlyIndexes) →
        List.Forall₂ s.chain.Holds (indexes.map fun index => (alt.accountKey, index.toNat))
          (getAccounts s.map alt.accountKey indexes) := by
    intro indexes hmem
    obtain ⟨picked, hpicked⟩ : ∃ picked, pick data (indexes.map UInt8.toNat) = some picked :=
      exists_pick fun i hi => by
        obtain ⟨index, hindex, rfl⟩ := List.mem_map.mp hi
        exact hfits alt halt rfl index (hmem index hindex)
    have hget : getAccountsInAddressLookupTable s.map alt.accountKey indexes = some picked := by
      rw [getAccountsInAddressLookupTable_eq, hdata]
      exact hpicked
    have hheld := pick_eq_some_iff.mp (hsound.pick_added hget)
    rw [List.forall₂_map_left_iff] at hheld
    rw [getAccounts, hget, Option.getD_some, List.forall₂_map_left_iff]
    exact hheld.imp fun index address h => ⟨_, if_pos hlive, h⟩
  refine ⟨fun l hl => ?_, ?_, ?_⟩
  · rw [List.mem_singleton.mp hl]
    exact hlive
  · rw [writablePlaces, List.flatMap_singleton]
    exact hplaces _ fun index hm => List.mem_append_left _ hm
  · rw [readonlyPlaces, List.flatMap_singleton]
    exact hplaces _ fun index hm => List.mem_append_right _ hm

/-- From every reachable state without requests on the way: once the requests of a reload are
answered and saved, in whatever order and with whatever growth of the tables in between, every
lookup that the tables could serve when it was asked for is resolved to the addresses that the
runtime loads for it. -/
theorem reload_resolves {program : TableProgram} (hlawful : program.Lawful) (chain : TableChain)
    (before after : List StoreEvent) (alts : List MessageAddressTableLookup)
    (hquiet : (exec (AddressLookupTableStore.step program) (AddressLookupTableStore.init chain)
      before).tasks = [])
    (hvalid : ∀ alt ∈ alts, ∃ loaded, (exec (AddressLookupTableStore.step program)
      (AddressLookupTableStore.init chain) before).chain.Loads [alt] loaded)
    (hpermitted : ∀ e ∈ after, e.Permitted alts)
    (hdone : (exec (AddressLookupTableStore.step program) (AddressLookupTableStore.init chain)
      (before ++ .reload alts :: after)).tasks = []) :
    ∀ alt ∈ alts,
      let s := exec (AddressLookupTableStore.step program) (AddressLookupTableStore.init chain)
        (before ++ .reload alts :: after)
      s.chain.Loads [alt] ⟨(resolveAddressesFromLookupTable s.map alt).1,
        (resolveAddressesFromLookupTable s.map alt).2⟩ := by
  intro alt halt s
  have hsound : s.Sound := exec_preserves (fun _ e h => h.step hlawful e)
    (before ++ .reload alts :: after) (AddressLookupTableStore.sound_init chain)
  have hchain : ∀ alt ∈ alts,
      (exec (AddressLookupTableStore.step program) (AddressLookupTableStore.init chain)
        before).chain.live alt.accountKey = true ∧
      Fits alts alt.accountKey ((exec (AddressLookupTableStore.step program)
        (AddressLookupTableStore.init chain) before).chain.added alt.accountKey).length := by
    intro alt halt
    have hinRange := fun alt halt =>
      (TableChain.exists_loads_iff _ [alt]).mp (hvalid alt halt) alt List.mem_cons_self
    refine ⟨(hinRange alt halt).1, fun alt' halt' hkey index hindex => ?_⟩
    have hlt := (hinRange alt' halt').2 index hindex
    rwa [hkey] at hlt
  have hserves : s.Serves alts := by
    have hstart := @AddressLookupTableStore.serves_reload program _ _ hquiet hchain
    have hrun : s = exec (AddressLookupTableStore.step program)
        ((exec (AddressLookupTableStore.step program) (AddressLookupTableStore.init chain)
          before).step program (.reload alts)) after := by
      rw [← exec_cons, ← exec_append]
    rw [hrun]
    clear hrun hsound hdone
    generalize (exec (AddressLookupTableStore.step program) (AddressLookupTableStore.init chain)
      before).step program (.reload alts) = start at hstart
    induction after generalizing start with
    | nil => exact hstart
    | cons e after ih =>
      exact ih (fun e' he' => hpermitted e' (List.mem_cons_of_mem e he')) _
        (hstart.step hlawful e (hpermitted e List.mem_cons_self))
  exact resolves_of_serves hsound hserves hdone halt

/-- A table with two addresses is looked up for the first time. -/
theorem reload_resolves_sample :
    let s := exec (AddressLookupTableStore.step documentedTables)
      (AddressLookupTableStore.init .genesis)
      [.chain (.create 1), .chain (.extend 1 [10, 11]), .reload [sampleLookup],
        .answer 0 (fun _ => false), .save 0, .save 0]
    s.chain.Loads [sampleLookup] ⟨(resolveAddressesFromLookupTable s.map sampleLookup).1,
      (resolveAddressesFromLookupTable s.map sampleLookup).2⟩ :=
  reload_resolves documentedTables_lawful .genesis
    [.chain (.create 1), .chain (.extend 1 [10, 11])]
    [.answer 0 (fun _ => false), .save 0, .save 0] [sampleLookup] rfl
    (fun alt halt => by
      obtain rfl := List.mem_singleton.mp halt
      exact ⟨⟨[10], [11]⟩, by decide, .cons ⟨[10, 11], by decide, rfl⟩ .nil,
        .cons ⟨[10, 11], by decide, rfl⟩ .nil⟩)
    (fun e he => by
      rcases he with _ | ⟨_, _ | ⟨_, _ | ⟨_, he⟩⟩⟩
      · exact fun _ => rfl
      · trivial
      · trivial
      · cases he)
    rfl sampleLookup List.mem_cons_self

end Biscuit.Wire
