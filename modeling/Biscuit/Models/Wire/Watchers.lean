import Biscuit.Core.Run
import Biscuit.Core.Table
import Biscuit.Models.Chain.Wire

/-!
# Watching accounts over RPC

A watch task is spawned for each request, and a map keeps the task of each address. A command
that replaces or removes the task of an address sets the exit signal of the old one; the
requests that are there from the start only replace it.
-/

namespace Biscuit.Wire

/-- A task that watches an account, with the settings it was spawned with. -/
structure BackgroundTask where
  address : Pubkey
  commitment : Option CommitmentLevel
  /-- In seconds. -/
  pollTransactionsFrequency : ℕ
  maxInitialSignatureRetries : ℕ
  ignoreErrorTransactions : Bool
  exitSignal : Bool
  deriving DecidableEq, Repr

/-- What all watch tasks have in common. -/
structure TransactionPollingConfig where
  commitment : Option CommitmentLevel
  pollTransactionsFrequency : Option ℕ
  maxInitialSignatureRetries : Option ℕ
  deriving DecidableEq, Repr

/-- The task that a request asks for. -/
def TransactionPollingConfig.task (cfg : TransactionPollingConfig) (request : PollRequest) :
    BackgroundTask where
  address := request.address
  commitment := request.commitment.or cfg.commitment
  pollTransactionsFrequency :=
    (request.pollTransactionsFrequency.or cfg.pollTransactionsFrequency).getD 5
  maxInitialSignatureRetries := cfg.maxInitialSignatureRetries.getD 3
  ignoreErrorTransactions := request.ignoreErrorTransactions
  exitSignal := false

/-- A command; the items of its set are in the order in which they are handled. -/
inductive RpcTransactionsCommand
  | add (requests : List PollRequest)
  | remove (keys : List Pubkey)
  | quit
  deriving DecidableEq, Repr

/-- The spawned tasks, numbered, and the task of each address. -/
structure TransactionPolling where
  tasks : List BackgroundTask
  accountsMap : Table Pubkey ℕ
  /-- Commands are no longer processed. -/
  quit : Bool

namespace TransactionPolling

/-- The exit signal of a task is set. -/
def signal (i : ℕ) (x : TransactionPolling) : TransactionPolling :=
  { x with tasks := x.tasks.modify i fun t => { t with exitSignal := true } }

/-- A task is spawned and entered into the map. -/
def spawn (cfg : TransactionPollingConfig) (x : TransactionPolling) (request : PollRequest) :
    TransactionPolling :=
  { x with
    tasks := x.tasks ++ [cfg.task request]
    accountsMap := x.accountsMap.insert request.address x.tasks.length }

/-- The requests that are there from the start. -/
def start (cfg : TransactionPollingConfig) (addresses : List PollRequest) :
    TransactionPolling :=
  addresses.foldl (spawn cfg) ⟨[], ∅, false⟩

/-- A request of a command: the task it replaces is told to exit. -/
def add (cfg : TransactionPollingConfig) (x : TransactionPolling) (request : PollRequest) :
    TransactionPolling :=
  match x.accountsMap.lookup request.address with
  | some prevTask => (x.spawn cfg request).signal prevTask
  | none => x.spawn cfg request

/-- The task of an address is taken from the map and told to exit. -/
def remove (x : TransactionPolling) (key : Pubkey) : TransactionPolling :=
  match x.accountsMap.lookup key with
  | some prevTask => { x.signal prevTask with accountsMap := x.accountsMap.erase key }
  | none => x

/-- One command is processed. -/
def step (cfg : TransactionPollingConfig) (x : TransactionPolling) :
    RpcTransactionsCommand → TransactionPolling
  | .add requests => if x.quit then x else requests.foldl (add cfg) x
  | .remove keys => if x.quit then x else keys.foldl remove x
  | .quit => if x.quit then x else { x.accountsMap.keys.foldl remove x with quit := true }

/-- A task that is not told to exit watches the address. -/
def Watches (x : TransactionPolling) (address : Pubkey) (i : ℕ) : Prop :=
  ∃ t, x.tasks[i]? = some t ∧ t.address = address ∧ t.exitSignal = false

/-- At most one task watches an address, and it is the one in the map. -/
def WatchesOnce (x : TransactionPolling) : Prop :=
  ∀ address i, x.Watches address i →
    (∀ j, x.Watches address j → j = i) ∧ x.accountsMap.lookup address = some i

/-- A command that drops an address. -/
def Drops (address : Pubkey) : RpcTransactionsCommand → Prop
  | .add _ => False
  | .remove keys => address ∈ keys
  | .quit => True

/-- The watchers after a command: one at most for each address, and none for those that it
drops. -/
def KeepsWatch (cfg : TransactionPollingConfig) (x : TransactionPolling)
    (c : RpcTransactionsCommand) : Prop :=
  (x.step cfg c).WatchesOnce ∧
    ∀ address, Drops address c → ∀ i, ¬ (x.step cfg c).Watches address i

/-! ## One task -/

variable {cfg : TransactionPollingConfig} {x : TransactionPolling} {address : Pubkey} {i j : ℕ}

/-- The task in the map is the only one that can watch an address. -/
def Mapped (x : TransactionPolling) : Prop :=
  ∀ address i, x.Watches address i → x.accountsMap.lookup address = some i

theorem watchesOnce_iff : x.WatchesOnce ↔ x.Mapped := by
  constructor
  · intro h address i hi
    exact (h address i hi).2
  · intro h address i hi
    refine ⟨fun j hj => ?_, h address i hi⟩
    have hlookup := h address j hj
    rw [h address i hi, Option.some.injEq] at hlookup
    exact hlookup.symm

theorem watches_signal :
    (x.signal j).Watches address i ↔ i ≠ j ∧ x.Watches address i := by
  unfold Watches signal
  by_cases hij : j = i
  · subst hij
    simp
  · simp [List.getElem?_modify_ne _ _ hij, Ne.symm hij]

theorem watches_spawn {request : PollRequest} :
    (x.spawn cfg request).Watches address i ↔
      x.Watches address i ∨ i = x.tasks.length ∧ request.address = address := by
  unfold Watches spawn
  by_cases hi : i < x.tasks.length
  · simp only [List.getElem?_append_left hi]
    have hne : i ≠ x.tasks.length := hi.ne
    simp [hne]
  · rw [List.getElem?_append_right (by omega),
      List.getElem?_eq_none (by omega : x.tasks.length ≤ i)]
    by_cases hlast : i = x.tasks.length
    · simp [hlast, TransactionPollingConfig.task]
    · have hnone : [cfg.task request][i - x.tasks.length]? = none := by
        apply List.getElem?_eq_none
        simp only [List.length_singleton]
        omega
      simp [hnone, hlast]

theorem add_mapped (h : x.Mapped) (request : PollRequest) : (x.add cfg request).Mapped := by
  intro address i hi
  unfold add at hi ⊢
  cases hprev : x.accountsMap.lookup request.address with
  | none =>
    simp only [hprev, watches_spawn] at hi
    simp only [spawn]
    rcases hi with hold | ⟨rfl, rfl⟩
    · have hlookup := h address i hold
      rw [AList.lookup_insert_ne, hlookup]
      rintro rfl
      rw [hprev] at hlookup
      contradiction
    · exact AList.lookup_insert _
  | some prevTask =>
    simp only [hprev, watches_signal, watches_spawn] at hi
    simp only [spawn, signal]
    obtain ⟨hne, hold | ⟨rfl, rfl⟩⟩ := hi
    · have hlookup := h address i hold
      rw [AList.lookup_insert_ne, hlookup]
      rintro rfl
      rw [hprev, Option.some.injEq] at hlookup
      exact hne hlookup.symm
    · exact AList.lookup_insert _

/-- What is watched after an address was dropped was watched before. -/
theorem watches_of_remove {key : Pubkey} (hi : (x.remove key).Watches address i) :
    x.Watches address i := by
  unfold remove at hi
  cases hprev : x.accountsMap.lookup key with
  | none => simpa only [hprev] using hi
  | some prevTask =>
    simp only [hprev] at hi
    exact (watches_signal.mp hi).2

theorem not_watches_remove (h : x.Mapped) (key : Pubkey) :
    ¬ (x.remove key).Watches key i := by
  intro hi
  have hlookup := h key i (watches_of_remove hi)
  unfold remove at hi
  simp only [hlookup] at hi
  exact (watches_signal.mp hi).1 rfl

theorem remove_mapped (h : x.Mapped) (key : Pubkey) : (x.remove key).Mapped := by
  intro address i hi
  have hlookup := h address i (watches_of_remove hi)
  have hne : address ≠ key := by
    rintro rfl
    exact not_watches_remove h address hi
  unfold remove
  cases hprev : x.accountsMap.lookup key with
  | none => exact hlookup
  | some prevTask =>
    dsimp only
    rwa [AList.lookup_erase_ne hne]

/-! ## Commands -/

/-- Commands are processed, and the tasks that watch are in the map. -/
structure Processing (x : TransactionPolling) : Prop where
  mapped : x.Mapped
  quit : x.quit = false

theorem adds_processing (cfg : TransactionPollingConfig) (h : x.Processing)
    (requests : List PollRequest) :
    (requests.foldl (add cfg) x).Processing := by
  change (exec (add cfg) x requests).Processing
  apply exec_preserves _ requests h
  intro x request hx
  refine ⟨add_mapped hx.mapped request, ?_⟩
  unfold add
  cases x.accountsMap.lookup request.address with
  | none => exact hx.quit
  | some prevTask => exact hx.quit

theorem removes_processing (h : x.Processing) (keys : List Pubkey) :
    (keys.foldl remove x).Processing := by
  change (exec remove x keys).Processing
  apply exec_preserves _ keys h
  intro x key hx
  refine ⟨remove_mapped hx.mapped key, ?_⟩
  unfold remove
  cases x.accountsMap.lookup key with
  | none => exact hx.quit
  | some prevTask => exact hx.quit

theorem watches_of_removes {keys : List Pubkey} (hi : (keys.foldl remove x).Watches address i) :
    x.Watches address i := by
  induction keys generalizing x with
  | nil => exact hi
  | cons key keys ih => exact watches_of_remove (ih hi)

theorem not_watches_removes (h : x.Mapped) {keys : List Pubkey} (hkey : address ∈ keys) :
    ¬ (keys.foldl remove x).Watches address i := by
  induction keys generalizing x with
  | nil => contradiction
  | cons key keys ih =>
    rw [List.foldl_cons]
    rcases List.mem_cons.mp hkey with rfl | hkey
    · intro hi
      exact not_watches_remove h address (watches_of_removes hi)
    · exact ih (remove_mapped h key) hkey

/-- Tasks that watch are in the map, and none does once commands are no longer processed. -/
structure Watched (x : TransactionPolling) : Prop where
  mapped : x.Mapped
  quit : x.quit = true → ∀ address i, ¬ x.Watches address i

/-- Every command keeps the map and drops what it is to drop. -/
theorem step_watched (cfg : TransactionPollingConfig) (h : x.Watched) (c : RpcTransactionsCommand) :
    (x.step cfg c).Watched ∧
      ∀ address, Drops address c → ∀ i, ¬ (x.step cfg c).Watches address i := by
  cases hquit : x.quit with
  | true =>
    have hstep : x.step cfg c = x := by cases c <;> simp [step, hquit]
    rw [hstep]
    exact ⟨h, fun address _ => h.quit hquit address⟩
  | false =>
    cases c with
    | add requests =>
      have hadds := adds_processing cfg ⟨h.mapped, hquit⟩ requests
      simp only [step, hquit, Bool.false_eq_true, if_false]
      exact ⟨⟨hadds.mapped, fun hend => by simp [hadds.quit] at hend⟩,
        fun _ hdrops => hdrops.elim⟩
    | remove keys =>
      have hremoves := removes_processing ⟨h.mapped, hquit⟩ keys
      simp only [step, hquit, Bool.false_eq_true, if_false]
      refine ⟨⟨hremoves.mapped, fun hend => by simp [hremoves.quit] at hend⟩,
        fun address hdrops i => ?_⟩
      exact not_watches_removes h.mapped hdrops
    | quit =>
      have hnone : ∀ address i,
          ¬ (x.accountsMap.keys.foldl remove x).Watches address i := by
        intro address i hi
        have hlookup := h.mapped address i (watches_of_removes hi)
        apply not_watches_removes h.mapped _ hi
        exact AList.mem_keys.mpr (Table.mem_iff_lookup.mpr ⟨i, hlookup⟩)
      simp only [step, hquit, Bool.false_eq_true, if_false]
      exact ⟨⟨fun address i hi => absurd hi (hnone address i), fun _ => hnone⟩,
        fun address _ => hnone address⟩

/-! ## The start -/

theorem start_tasks (cfg : TransactionPollingConfig) (addresses : List PollRequest) :
    (start cfg addresses).tasks = addresses.map cfg.task := by
  have htasks : ∀ (requests : List PollRequest) (x : TransactionPolling),
      (requests.foldl (spawn cfg) x).tasks = x.tasks ++ requests.map cfg.task := by
    intro requests
    induction requests with
    | nil => simp
    | cons request requests ih =>
      intro x
      rw [List.foldl_cons, ih]
      simp [spawn]
  exact htasks addresses _

/-- Each request that is there from the start has a task that watches. -/
theorem watches_start (cfg : TransactionPollingConfig) {addresses : List PollRequest} :
    (start cfg addresses).Watches address i ↔
      (addresses.map PollRequest.address)[i]? = some address := by
  unfold Watches
  rw [start_tasks, List.getElem?_map, List.getElem?_map]
  cases addresses[i]? with
  | none => simp
  | some request => simp [TransactionPollingConfig.task]

/-- Requests for different addresses are handled as those of a command are. -/
theorem spawns_processing {requests : List PollRequest} (h : x.Processing)
    (hnew : ∀ r ∈ requests, x.accountsMap.lookup r.address = none)
    (hnodup : (requests.map PollRequest.address).Nodup) :
    (requests.foldl (spawn cfg) x).Processing := by
  induction requests generalizing x with
  | nil => exact h
  | cons request requests ih =>
    rw [List.map_cons, List.nodup_cons] at hnodup
    have hadd : x.add cfg request = x.spawn cfg request := by
      unfold add
      rw [hnew request List.mem_cons_self]
    rw [List.foldl_cons]
    apply ih _ _ hnodup.2
    · rw [← hadd]
      exact adds_processing cfg h [request]
    · intro r hr
      have hne : r.address ≠ request.address := by
        intro heq
        exact hnodup.1 (heq ▸ List.mem_map_of_mem hr)
      simp only [spawn, AList.lookup_insert_ne hne]
      exact hnew r (List.mem_cons_of_mem _ hr)

theorem start_watched (cfg : TransactionPollingConfig) {addresses : List PollRequest}
    (hnodup : (addresses.map PollRequest.address).Nodup) : (start cfg addresses).Watched := by
  have hempty : (⟨[], ∅, false⟩ : TransactionPolling).Processing := by
    refine ⟨?_, rfl⟩
    rintro address i ⟨t, ht, -⟩
    simp at ht
  have hstart : (start cfg addresses).Processing :=
    spawns_processing hempty (fun r _ => AList.lookup_empty _) hnodup
  exact ⟨hstart.mapped, fun hquit => by simp [hstart.quit] at hquit⟩

/-- In every run each address has one task at most that watches it, the one in the map, and none
after it is dropped, exactly when the requests from the start are for different addresses. -/
theorem watchesOnce_along_iff (cfg : TransactionPollingConfig) (addresses : List PollRequest)
    (commands : List RpcTransactionsCommand) :
    (start cfg addresses).WatchesOnce ∧
        Along (step cfg) (KeepsWatch cfg) (start cfg addresses) commands ↔
      (addresses.map PollRequest.address).Nodup := by
  constructor
  · rintro ⟨honce, -⟩
    rw [List.nodup_iff_getElem?_ne_getElem?]
    intro i j hij hj heq
    have hj' := (watches_start cfg).mpr (List.getElem?_eq_getElem hj)
    have hi' := (watches_start cfg).mpr (heq.trans (List.getElem?_eq_getElem hj))
    have := (honce _ j hj').1 i hi'
    omega
  · intro hnodup
    have hstart := start_watched cfg hnodup
    refine ⟨watchesOnce_iff.mpr hstart.mapped, ?_⟩
    generalize start cfg addresses = x at hstart
    induction commands generalizing x with
    | nil => trivial
    | cons c commands ih =>
      have hstep := step_watched cfg hstart c
      exact ⟨⟨watchesOnce_iff.mpr hstep.1.mapped, hstep.2⟩, ih _ hstep.1⟩

/-- Two requests for one address, one of which ignores the transactions that failed. -/
def twoRequests : List PollRequest :=
  [⟨7, none, none, true, none, none⟩, ⟨7, none, none, false, none, none⟩]

/-- Two requests for one address leave two watchers, and removing it only one of them. -/
theorem not_watchesOnce_start :
    ¬ (start ⟨none, none, none⟩ twoRequests).WatchesOnce ∧
      ∃ i, ((start ⟨none, none, none⟩ twoRequests).step ⟨none, none, none⟩ (.remove [7])).Watches
        7 i := by
  constructor
  · intro honce
    have hone := (honce 7 1 ⟨_, rfl, rfl, rfl⟩).1 0 ⟨_, rfl, rfl, rfl⟩
    contradiction
  · exact ⟨0, _, rfl, rfl, rfl⟩

end TransactionPolling

end Biscuit.Wire
