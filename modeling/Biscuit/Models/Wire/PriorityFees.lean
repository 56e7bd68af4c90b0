import Biscuit.Core.Run
import Biscuit.Core.Table
import Biscuit.Models.Copy.Details

/-!
# Priority fees of a list of accounts

A handle has its entry in a map: the accounts it asks for, and the latest response. A call that sets
the accounts asks for an estimate at once, and a task asks for those of all entries again and again,
at most thirty at a time. Each response is stored when it comes, and neither the entry nor the
response tells which accounts it was asked for.
-/

namespace Biscuit.Wire

open Copy (PriorityLevel)

structure MicroLamportPriorityFeeLevels where
  min : F64
  low : F64
  medium : F64
  high : F64
  veryHigh : F64
  unsafeMax : F64
  deriving DecidableEq, Repr

/-- The fee of a level. -/
def MicroLamportPriorityFeeLevels.level (result : MicroLamportPriorityFeeLevels) :
    PriorityLevel → F64
  | .default => result.medium
  | .high => result.high
  | .low => result.low
  | .medium => result.medium
  | .min => result.min
  | .unsafeMax => result.unsafeMax
  | .veryHigh => result.veryHigh

/-- The entry of a handle, with the numbers of its account lists. -/
structure PriorityData where
  accounts : List String
  latestResponse : Option MicroLamportPriorityFeeLevels
  /-- The number of the current list, from one on. -/
  list : ℕ
  /-- The number of the list that the latest response was asked for. -/
  latestList : ℕ
  deriving DecidableEq, Repr

/-- A request for an estimate, with the number of its account list. -/
structure EstimateRequest where
  id : ℕ
  accounts : List String
  list : ℕ
  deriving DecidableEq, Repr

/-- Where the task that polls is. -/
inductive PollPhase
  /-- Before its next round. -/
  | resting
  /-- Reading the map; these ids were there when it began and are still to be read. -/
  | collecting (unread : List ℕ) (prioAccounts : List EstimateRequest)
  /-- Asking for what it has read; some requests are in flight and others wait. -/
  | asking (inFlight waiting : List EstimateRequest)
  deriving DecidableEq, Repr

/-- What a request comes to; a response may come without the levels. -/
abbrev EstimateResult := Except String (Option MicroLamportPriorityFeeLevels)

/-- The handles, their map and the tasks that ask. -/
structure HeliusPrioFees where
  nextId : ℕ
  /-- The ids of the handles that were given out. -/
  handles : List ℕ
  map : Table ℕ PriorityData
  /-- The requests of the calls that have set accounts. -/
  spawned : List EstimateRequest
  poll : PollPhase
  /-- The responses in the order in which they came. -/
  arrived : List (EstimateRequest × Option MicroLamportPriorityFeeLevels)

/-- What happens next. -/
inductive PrioFeeEvent
  | subscribe
  | updateAccounts (id : ℕ) (updatedKeys : List String)
  /-- The answer to one of the requests of the calls. -/
  | answer (i : ℕ) (result : EstimateResult)
  | startRound
  /-- The task reads the entry of an id. -/
  | collect (id : ℕ)
  /-- The task has read all entries. -/
  | ask
  /-- The answer to one of the requests of the task that are in flight. -/
  | pollAnswer (i : ℕ) (result : EstimateResult)
  | endRound

/-- `start_helius_priority_fee_task` -/
def startHeliusPriorityFeeTask : HeliusPrioFees := ⟨2, [1], ∅, [], .resting, []⟩

namespace HeliusPrioFees

/-- A response is stored in the entry of its id, if there is one. -/
def storeResponse (x : HeliusPrioFees) (r : EstimateRequest) : EstimateResult → HeliusPrioFees
  | .ok levels =>
    { x with
      map :=
        match x.map.lookup r.id with
        | some value =>
          x.map.insert r.id { value with latestResponse := levels, latestList := r.list }
        | none => x.map
      arrived := x.arrived ++ [(r, levels)] }
  | .error _ => x

/-- `subscribe` -/
def subscribe (x : HeliusPrioFees) : HeliusPrioFees :=
  { x with nextId := (x.nextId + 1) % 2 ^ 64, handles := x.handles ++ [x.nextId] }

/-- `update_accounts` -/
def updateAccounts (x : HeliusPrioFees) (id : ℕ) (updatedKeys : List String) : HeliusPrioFees :=
  if id ∈ x.handles then
    { x with
      map := x.map.modifyOrInsert id
        (fun value => { value with accounts := updatedKeys, list := value.list + 1 })
        ⟨updatedKeys, none, 1, 0⟩
      spawned := x.spawned ++
        [⟨id, updatedKeys, (x.map.lookup id).elim 1 fun value => value.list + 1⟩] }
  else x

def answer (x : HeliusPrioFees) (i : ℕ) (result : EstimateResult) : HeliusPrioFees :=
  match x.spawned[i]? with
  | some r => { x with spawned := x.spawned.eraseIdx i }.storeResponse r result
  | none => x

def startRound (x : HeliusPrioFees) : HeliusPrioFees :=
  match x.poll with
  | .resting => { x with poll := .collecting x.map.keys [] }
  | _ => x

/-- The traversal of the map yields an entry that is there, and none twice. -/
def collect (x : HeliusPrioFees) (id : ℕ) : HeliusPrioFees :=
  match x.poll, x.map.lookup id with
  | .collecting unread prioAccounts, some value =>
    if id ∈ prioAccounts.map EstimateRequest.id then x
    else
      { x with
        poll := .collecting (unread.erase id) (prioAccounts ++ [⟨id, value.accounts, value.list⟩]) }
  | _, _ => x

/-- `buffer_unordered(30)` -/
def ask (x : HeliusPrioFees) : HeliusPrioFees :=
  match x.poll with
  | .collecting [] prioAccounts =>
    { x with poll := .asking (prioAccounts.take 30) (prioAccounts.drop 30) }
  | _ => x

def pollAnswer (x : HeliusPrioFees) (i : ℕ) (result : EstimateResult) : HeliusPrioFees :=
  match x.poll with
  | .asking inFlight waiting =>
    match inFlight[i]? with
    | some r =>
      let poll := .asking (inFlight.eraseIdx i ++ waiting.take 1) (waiting.drop 1)
      { x with poll }.storeResponse r result
    | none => x
  | _ => x

def endRound (x : HeliusPrioFees) : HeliusPrioFees :=
  match x.poll with
  | .asking [] [] => { x with poll := .resting }
  | _ => x

def step (x : HeliusPrioFees) : PrioFeeEvent → HeliusPrioFees
  | .subscribe => x.subscribe
  | .updateAccounts id updatedKeys => x.updateAccounts id updatedKeys
  | .answer i result => x.answer i result
  | .startRound => x.startRound
  | .collect id => x.collect id
  | .ask => x.ask
  | .pollAnswer i result => x.pollAnswer i result
  | .endRound => x.endRound

/-- `get_priority_fee` -/
def getPriorityFee (x : HeliusPrioFees) (id : ℕ) (level : PriorityLevel) : Option F64 := do
  let value ← x.map.lookup id
  let result ← value.latestResponse
  pure (result.level level)

/-! ## What a step can do -/

/-- The requests of a round that have not been answered. -/
def roundRequests : PollPhase → List EstimateRequest
  | .resting => []
  | .collecting _ prioAccounts => prioAccounts
  | .asking inFlight waiting => inFlight ++ waiting

/-- All requests that have not been answered. -/
def outstanding (x : HeliusPrioFees) : List EstimateRequest := x.spawned ++ roundRequests x.poll

/-- The response in the entry of an id, with the number of the list it was asked for. -/
def stored (x : HeliusPrioFees) (id : ℕ) : ℕ × Option MicroLamportPriorityFeeLevels :=
  (x.map.lookup id).elim (0, none) fun value => (value.latestList, value.latestResponse)

/-- A step either leaves all responses as they are, and a new request is for an id in the map, or
stores the answer to a request. -/
inductive Moves (x : HeliusPrioFees) : HeliusPrioFees → Prop
  | quiet {y : HeliusPrioFees} (harrived : y.arrived = x.arrived)
      (hstored : ∀ id, y.stored id = x.stored id) (hkeys : ∀ id ∈ x.map, id ∈ y.map)
      (hrequests : ∀ r ∈ y.outstanding, r ∈ x.outstanding ∨ r.id ∈ y.map) : Moves x y
  | store {y : HeliusPrioFees} {r : EstimateRequest} (hr : r ∈ x.outstanding)
      (harrived : y.arrived = x.arrived) (hmap : y.map = x.map)
      (hrequests : ∀ r ∈ y.outstanding, r ∈ x.outstanding) (result : EstimateResult) :
      Moves x (y.storeResponse r result)

theorem Moves.refl (x : HeliusPrioFees) : Moves x x :=
  .quiet rfl (fun _ => rfl) (fun _ h => h) fun _ h => .inl h

theorem moves_updateAccounts (x : HeliusPrioFees) (id : ℕ) (updatedKeys : List String) :
    Moves x (x.updateAccounts id updatedKeys) := by
  rw [updateAccounts]
  split_ifs with hid
  · refine .quiet rfl (fun id' => ?_) (fun id' hid' => ?_) fun r hr => ?_
    · rw [stored, stored]
      by_cases hsame : id' = id
      · subst hsame
        rw [Table.lookup_modifyOrInsert]
        cases x.map.lookup id' <;> rfl
      · rw [Table.lookup_modifyOrInsert_ne hsame]
    · exact AList.mem_insert _ |>.mpr (.inr hid')
    · rw [outstanding, List.append_assoc, List.mem_append] at hr
      rcases hr with hr | hr
      · exact .inl (List.mem_append_left _ hr)
      · rcases List.mem_append.mp hr with hr | hr
        · rw [List.mem_singleton.mp hr]
          exact .inr (AList.mem_insert _ |>.mpr (.inl rfl))
        · exact .inl (List.mem_append_right _ hr)
  · exact .refl x

theorem moves_answer (x : HeliusPrioFees) (i : ℕ) (result : EstimateResult) :
    Moves x (x.answer i result) := by
  rw [answer]
  cases hr : x.spawned[i]? with
  | none => exact .refl x
  | some r =>
    refine .store (y := { x with spawned := x.spawned.eraseIdx i })
      (List.mem_append_left _ (List.mem_of_getElem? hr)) rfl rfl ?_ result
    intro r' hr'
    rcases List.mem_append.mp hr' with hr' | hr'
    · exact List.mem_append_left _ (List.mem_of_mem_eraseIdx hr')
    · exact List.mem_append_right _ hr'

theorem moves_collect (x : HeliusPrioFees) (id : ℕ) : Moves x (x.collect id) := by
  rw [collect]
  cases hpoll : x.poll with
  | collecting unread prioAccounts =>
    cases hvalue : x.map.lookup id with
    | none => exact .refl x
    | some value =>
      dsimp only
      split_ifs with hread
      · exact .refl x
      · refine .quiet rfl (fun _ => rfl) (fun _ h => h) fun r hr => ?_
        rw [outstanding, hpoll]
        rcases List.mem_append.mp hr with hr | hr
        · exact .inl (List.mem_append_left _ hr)
        · rcases List.mem_append.mp hr with hr | hr
          · exact .inl (List.mem_append_right _ hr)
          · rw [List.mem_singleton.mp hr]
            exact .inr (Table.mem_iff_lookup.mpr ⟨value, hvalue⟩)
  | resting => exact .refl x
  | asking inFlight waiting => exact .refl x

theorem moves_pollAnswer (x : HeliusPrioFees) (i : ℕ) (result : EstimateResult) :
    Moves x (x.pollAnswer i result) := by
  rw [pollAnswer]
  cases hpoll : x.poll with
  | asking inFlight waiting =>
    dsimp only
    cases hr : inFlight[i]? with
    | none => exact .refl x
    | some r =>
      have hmem : r ∈ x.outstanding := by
        rw [outstanding, hpoll]
        exact List.mem_append_right _ (List.mem_append_left _ (List.mem_of_getElem? hr))
      refine .store (y := { x with
        poll := .asking (inFlight.eraseIdx i ++ waiting.take 1) (waiting.drop 1) }) hmem rfl rfl ?_
        result
      intro r' hr'
      rw [outstanding, hpoll]
      rcases List.mem_append.mp hr' with hr' | hr'
      · exact List.mem_append_left _ hr'
      · apply List.mem_append_right
        change r' ∈ inFlight.eraseIdx i ++ waiting.take 1 ++ waiting.drop 1 at hr'
        rw [List.append_assoc, List.take_append_drop] at hr'
        rcases List.mem_append.mp hr' with hr' | hr'
        · exact List.mem_append_left _ (List.mem_of_mem_eraseIdx hr')
        · exact List.mem_append_right _ hr'
  | resting => exact .refl x
  | collecting unread prioAccounts => exact .refl x

/-- The task goes on to another part of its round with the same requests. -/
theorem moves_poll {x : HeliusPrioFees} {poll : PollPhase}
    (h : roundRequests poll = roundRequests x.poll) : Moves x { x with poll } := by
  refine .quiet rfl (fun _ => rfl) (fun _ h => h) fun r hr => .inl ?_
  rw [outstanding, ← h]
  exact hr

theorem moves_startRound (x : HeliusPrioFees) : Moves x x.startRound := by
  rw [startRound]
  cases hpoll : x.poll with
  | resting =>
    apply moves_poll
    rw [hpoll]
    rfl
  | collecting unread prioAccounts => exact .refl x
  | asking inFlight waiting => exact .refl x

theorem moves_ask (x : HeliusPrioFees) : Moves x x.ask := by
  rw [ask]
  split
  · next prioAccounts hpoll =>
    apply moves_poll
    rw [hpoll]
    exact List.take_append_drop 30 prioAccounts
  · exact .refl x

theorem moves_endRound (x : HeliusPrioFees) : Moves x x.endRound := by
  rw [endRound]
  split
  · next hpoll =>
    apply moves_poll
    rw [hpoll]
    rfl
  · exact .refl x

theorem moves_step (x : HeliusPrioFees) (e : PrioFeeEvent) : Moves x (x.step e) := by
  cases e with
  | subscribe => exact .quiet rfl (fun _ => rfl) (fun _ h => h) fun _ hr => .inl hr
  | updateAccounts id updatedKeys => exact moves_updateAccounts x id updatedKeys
  | answer i result => exact moves_answer x i result
  | startRound => exact moves_startRound x
  | collect id => exact moves_collect x id
  | ask => exact moves_ask x
  | pollAnswer i result => exact moves_pollAnswer x i result
  | endRound => exact moves_endRound x

/-! ## The last response -/

/-- The response of an id that came last, with the number of the list it was asked for. -/
def lastArrived (x : HeliusPrioFees) (id : ℕ) : ℕ × Option MicroLamportPriorityFeeLevels :=
  (Table.lastOf (fun a => a.1.id) x.arrived id).elim (0, none) fun a => (a.1.list, a.2)

/-- Every request is for an id in the map, and every entry has the response that came last. -/
structure Tracked (x : HeliusPrioFees) : Prop where
  present : ∀ r ∈ x.outstanding, r.id ∈ x.map
  stored_eq : ∀ id, x.stored id = x.lastArrived id

theorem tracked_start : Tracked startHeliusPriorityFeeTask :=
  ⟨fun _ hr => (List.not_mem_nil hr).elim, fun _ => rfl⟩

/-- A response replaces the one in the entry of its id. -/
theorem stored_storeResponse {x : HeliusPrioFees} {r : EstimateRequest} (h : r.id ∈ x.map)
    (levels : Option MicroLamportPriorityFeeLevels) :
    (x.storeResponse r (.ok levels)).stored =
      Function.update x.stored r.id (r.list, levels) := by
  obtain ⟨value, hvalue⟩ := Table.mem_iff_lookup.mp h
  funext id
  rw [storeResponse, stored, hvalue]
  by_cases hid : id = r.id
  · subst hid
    rw [AList.lookup_insert, Function.update_self]
    rfl
  · rw [AList.lookup_insert_ne hid, Function.update_of_ne hid]
    rfl

theorem mem_storeResponse {x : HeliusPrioFees} {id : ℕ} (h : id ∈ x.map) (r : EstimateRequest)
    (result : EstimateResult) : id ∈ (x.storeResponse r result).map := by
  cases result with
  | error e => exact h
  | ok levels =>
    rw [storeResponse]
    cases hvalue : x.map.lookup r.id with
    | none => exact h
    | some value => exact (AList.mem_insert _).mpr (.inr h)

theorem Tracked.moves {x y : HeliusPrioFees} (h : Tracked x) (hmoves : Moves x y) : Tracked y := by
  cases hmoves with
  | quiet harrived hstored hkeys hrequests =>
    refine ⟨fun r hr => ?_, fun id => ?_⟩
    · exact (hrequests r hr).elim (fun hr => hkeys _ (h.present r hr)) id
    · rw [hstored, h.stored_eq, lastArrived, lastArrived, harrived]
  | @store y r hr harrived hmap hrequests result =>
    have hpresent : ∀ r' ∈ (y.storeResponse r result).outstanding,
        r'.id ∈ (y.storeResponse r result).map := by
      intro r' hr'
      apply mem_storeResponse
      rw [hmap]
      apply h.present r' (hrequests r' _)
      cases result <;> exact hr'
    refine ⟨hpresent, fun id => ?_⟩
    have hold : y.stored id = x.lastArrived id := by
      rw [← h.stored_eq, stored, stored, hmap]
    cases result with
    | error e => rw [storeResponse, hold, lastArrived, lastArrived, harrived]
    | ok levels =>
      have hid : r.id ∈ y.map := hmap ▸ h.present r hr
      rw [stored_storeResponse hid, lastArrived, storeResponse, Table.lastOf_append_singleton]
      by_cases hsame : id = r.id
      · subst hsame
        rw [Function.update_self, if_pos rfl]
        rfl
      · rw [Function.update_of_ne hsame, if_neg (Ne.symm hsame), hold, lastArrived, harrived]

/-! ## The order of the responses -/

/-- No entry goes back to a response for an earlier list. -/
def StaysCurrent (x y : HeliusPrioFees) : Prop := ∀ id, (x.stored id).1 ≤ (y.stored id).1

/-- The responses of each id have come in the order of the lists they were asked for. -/
def InOrder (x : HeliusPrioFees) : Prop :=
  x.arrived.Pairwise fun a b => a.1.id = b.1.id → a.1.list ≤ b.1.list

/-- While the responses come in order, the one in an entry bounds all that came for its id. -/
theorem Tracked.stored_le_iff {x : HeliusPrioFees} (h : Tracked x) (horder : x.InOrder) (id n : ℕ) :
    (x.stored id).1 ≤ n ↔ ∀ a ∈ x.arrived, a.1.id = id → a.1.list ≤ n := by
  rw [h.stored_eq, lastArrived]
  cases hlast : Table.lastOf (fun a => a.1.id) x.arrived id with
  | none =>
    refine iff_of_true (Nat.zero_le n) fun a ha hid => ?_
    obtain ⟨b, hb⟩ := Table.exists_lastOf (fun a => a.1.id) ha
    rw [hid, hlast] at hb
    cases hb
  | some b =>
    obtain ⟨hb, hid⟩ := Table.mem_of_lastOf hlast
    constructor
    · rintro hle a ha rfl
      exact (Table.le_of_lastOf horder hlast ha).trans hle
    · intro hle
      exact hle b hb hid

/-- A step keeps the order of the responses exactly when no entry goes back. -/
theorem Tracked.inOrder_iff_staysCurrent {x y : HeliusPrioFees} (h : Tracked x)
    (horder : x.InOrder) (hmoves : Moves x y) : y.InOrder ↔ StaysCurrent x y := by
  cases hmoves with
  | quiet harrived hstored _ _ =>
    refine iff_of_true ?_ fun id => (congrArg Prod.fst (hstored id)).ge
    rw [InOrder, harrived]
    exact horder
  | @store y r hr harrived hmap _ result =>
    have hold : y.stored = x.stored := by
      funext id
      rw [stored, stored, hmap]
    cases result with
    | error e =>
      refine iff_of_true ?_ fun id => (congrArg Prod.fst (congrFun hold id)).ge
      rw [storeResponse, InOrder, harrived]
      exact horder
    | ok levels =>
      have hid : r.id ∈ y.map := hmap ▸ h.present r hr
      have hstays : StaysCurrent x (y.storeResponse r (.ok levels)) ↔
          (x.stored r.id).1 ≤ r.list := by
        rw [StaysCurrent, stored_storeResponse hid, hold]
        constructor
        · intro hle
          have hself := hle r.id
          rwa [Function.update_self] at hself
        · intro hle id
          by_cases hsame : id = r.id
          · subst hsame
            rwa [Function.update_self]
          · rw [Function.update_of_ne hsame]
      rw [hstays, h.stored_le_iff horder, InOrder, storeResponse, harrived, List.pairwise_append]
      constructor
      · intro hall a ha
        exact hall.2.2 a ha _ (List.mem_singleton_self _)
      · intro hle
        refine ⟨horder, List.pairwise_singleton _ _, fun a ha b hb => ?_⟩
        rw [List.mem_singleton.mp hb]
        exact hle a ha

theorem inOrder_start : startHeliusPriorityFeeTask.InOrder := List.Pairwise.nil

/-- Responses that came out of order stay out of order. -/
theorem Moves.inOrder {x y : HeliusPrioFees} (hmoves : Moves x y) (horder : y.InOrder) :
    x.InOrder := by
  cases hmoves with
  | quiet harrived _ _ _ =>
    rw [InOrder, ← harrived]
    exact horder
  | @store y r _ harrived _ _ result =>
    rw [InOrder, ← harrived]
    cases result with
    | error e => exact horder
    | ok levels => exact (List.pairwise_append.mp horder).1

/-- Throughout a run no entry goes back to a response for an earlier list exactly when the responses
come in the order of the lists. -/
theorem along_staysCurrent_iff (es : List PrioFeeEvent) :
    Along step (fun x e => StaysCurrent x (x.step e)) startHeliusPriorityFeeTask es ↔
      (exec step startHeliusPriorityFeeTask es).InOrder := by
  have hback : ∀ x e, (step x e).InOrder → x.InOrder := fun x e => (moves_step x e).inOrder
  rw [← visits_iff_exec hback inOrder_start]
  symm
  refine visits_iff_along (I := Tracked) ?_ ?_ tracked_start inOrder_start
  · intro x e hx
    exact hx.moves (moves_step x e)
  · intro x e hx horder
    exact hx.inOrder_iff_staysCurrent horder (moves_step x e)

/-- The response for a second list is overwritten by the one for the first. -/
theorem along_staysCurrent_late :
    ¬∀ es : List PrioFeeEvent,
      Along step (fun x e => StaysCurrent x (x.step e)) startHeliusPriorityFeeTask es := by
  intro h
  have hlate := (h [.updateAccounts 1 ["A"], .updateAccounts 1 ["B"], .answer 1 (.ok none),
    .answer 0 (.ok none)]).2.2.2.1 1
  exact absurd hlate (by decide +kernel)

/-- In every run a handle is told the fees of the response that came last, whatever list it was
asked for. -/
theorem getPriorityFee_exec (es : List PrioFeeEvent) (id : ℕ) (level : PriorityLevel) :
    (exec step startHeliusPriorityFeeTask es).getPriorityFee id level =
      ((exec step startHeliusPriorityFeeTask es).lastArrived id).2.map fun result =>
        result.level level := by
  have htracked : Tracked (exec step startHeliusPriorityFeeTask es) :=
    exec_preserves (fun x e hx => hx.moves (moves_step x e)) es tracked_start
  rw [← htracked.stored_eq, getPriorityFee, stored]
  cases (exec step startHeliusPriorityFeeTask es).map.lookup id with
  | none => rfl
  | some value =>
    change value.latestResponse.bind (fun result => some (result.level level)) =
      value.latestResponse.map fun result => result.level level
    cases value.latestResponse <;> rfl

end HeliusPrioFees

end Biscuit.Wire
