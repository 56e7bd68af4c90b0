import Biscuit.Core.Run
import Biscuit.Models.Chain.Keys
import Mathlib.Data.List.Nodup

/-!
# Dust

What is kept out of a buy is sent to another wallet from time to time. The list of these
amounts is sent in transactions of seven transfers, each of which is simulated first, and it is
cleared when the last of them was sent. A call that fails in between leaves the whole list.
-/

namespace Biscuit.Copy

/-- A list in pieces of a given length, the last of which may be shorter: `slice::chunks`. Every
piece takes an item at least, so the length of the list is fuel enough. -/
def chunksOf {α : Type*} (size : ℕ) : ℕ → List α → List (List α)
  | 0, _ => []
  | _ + 1, [] => []
  | fuel + 1, a :: items =>
    (a :: items.take (size - 1)) :: chunksOf size fuel (items.drop (size - 1))

/-- The pieces of a list make up the list. -/
theorem flatten_chunksOf {α : Type*} (size : ℕ) {fuel : ℕ} {items : List α}
    (h : items.length ≤ fuel) : (chunksOf size fuel items).flatten = items := by
  induction fuel generalizing items with
  | zero =>
    rw [List.eq_nil_of_length_eq_zero (by omega : items.length = 0)]
    rfl
  | succ fuel ih =>
    cases items with
    | nil => rfl
    | cons a items =>
      have hrest : (items.drop (size - 1)).length ≤ fuel := by
        rw [List.length_drop]
        rw [List.length_cons] at h
        omega
      rw [chunksOf, List.flatten_cons, ih hrest, List.cons_append, List.take_append_drop]

/-- An amount that waits to be sent. -/
structure DustAmount where
  /-- The number of the push that queued it. -/
  push : ℕ
  token : Pubkey
  amount : ℕ
  deriving DecidableEq, Repr

/-- The instructions of a dust transaction; the transfer names the amount it is for. -/
inductive DustInstruction
  | setComputeUnitLimit (units : ℕ)
  | createIdempotent (token : Pubkey)
  | transfer (dust : DustAmount)
  deriving DecidableEq, Repr

/-- The pushes whose transfers are among some instructions. -/
def transfers (instructions : List DustInstruction) : List ℕ :=
  instructions.filterMap fun
    | .transfer dust => some dust.push
    | _ => none

/-- What becomes of the transaction of one piece of the list. -/
inductive ChunkOutcome
  /-- The simulation fails. -/
  | simulationFailed
  /-- The transaction is handed to `send_transaction`, which may fail. -/
  | handed (unitsConsumed : Option ℕ) (sent : Bool)
  deriving DecidableEq, Repr

/-- The transaction for one piece; a consumption that fits 32 bits becomes its limit. The tip
that is built along with it is not in it. -/
def dustTransaction (chunk : List DustAmount) (unitsConsumed : Option ℕ) : List DustInstruction :=
  let instructions := chunk.flatMap fun dust => [.createIdempotent dust.token, .transfer dust]
  match unitsConsumed with
  | some units =>
    if units < 2 ^ 32 then .setComputeUnitLimit ((units + 100000) % 2 ^ 32) :: instructions
    else instructions
  | none => instructions

/-- The pieces one after the other: the transactions that are handed over, and whether none of
the pieces fails. -/
def processChunks : List (List DustAmount) → (ℕ → ChunkOutcome) →
    List (List DustInstruction) × Bool
  | [], _ => ([], true)
  | chunk :: chunks, outcome =>
    match outcome 0 with
    | .simulationFailed => ([], false)
    | .handed unitsConsumed false => ([dustTransaction chunk unitsConsumed], false)
    | .handed unitsConsumed true =>
      let (handed, done) := processChunks chunks fun i => outcome (i + 1)
      (dustTransaction chunk unitsConsumed :: handed, done)

/-- The list of amounts, and what was handed over so far. -/
structure DustTracker where
  dustAmounts : List DustAmount
  /-- How often an amount was queued. -/
  pushes : ℕ
  /-- The transactions that were handed to `send_transaction`. -/
  handed : List (List DustInstruction)
  /-- A call has stopped after its first transaction, and the list was not cleared since. -/
  interrupted : Bool

/-- What happens to the list. -/
inductive DustEvent
  /-- `add_transfer_amount`, and the same in the database task. -/
  | add (token : Pubkey) (amount : ℕ)
  /-- `process_dust`; the outcomes are those of the pieces in order. -/
  | process (outcome : ℕ → ChunkOutcome)

namespace DustTracker

/-- Nothing queued yet. -/
def init : DustTracker := ⟨[], 0, [], false⟩

/-- The pieces in which the list is sent. -/
def chunks (s : DustTracker) : List (List DustAmount) :=
  chunksOf 7 s.dustAmounts.length s.dustAmounts

/-- `process_dust` -/
def process (s : DustTracker) (outcome : ℕ → ChunkOutcome) : DustTracker :=
  if s.dustAmounts.isEmpty then s
  else
    let (handed, done) := processChunks s.chunks outcome
    { s with
      dustAmounts := if done then [] else s.dustAmounts
      handed := s.handed ++ handed
      interrupted := !done && (s.interrupted || !handed.isEmpty) }

/-- The tracker after one event; nothing is queued for an amount of zero. -/
def step (s : DustTracker) : DustEvent → DustTracker
  | .add token amount =>
    if amount ≠ 0 then
      { s with dustAmounts := s.dustAmounts ++ [⟨s.pushes, token, amount⟩], pushes := s.pushes + 1 }
    else s
  | .process outcome => s.process outcome

/-- The pushes whose transfers were handed over. -/
def transferred (s : DustTracker) : List ℕ := s.handed.flatMap transfers

/-- No transfer was handed over twice. -/
def Once (s : DustTracker) : Prop := s.transferred.Nodup

instance (s : DustTracker) : Decidable s.Once := inferInstanceAs (Decidable (List.Nodup _))

/-- An amount leaves the list only when its transfer was handed over. -/
def RemovesHanded (s : DustTracker) (e : DustEvent) : Prop :=
  ∀ dust ∈ s.dustAmounts, dust ∉ (s.step e).dustAmounts → dust.push ∈ (s.step e).transferred

/-- A call hands over its first transaction only when no call before it was interrupted since the
list was cleared. -/
def Uninterrupted (s : DustTracker) : DustEvent → Prop
  | .add .. => True
  | .process outcome =>
    s.dustAmounts ≠ [] → outcome 0 ≠ .simulationFailed → s.interrupted = false

end DustTracker

/-! ## One call -/

/-- The transfers of a transaction are those of its piece. -/
theorem transfers_dustTransaction (chunk : List DustAmount) (unitsConsumed : Option ℕ) :
    transfers (dustTransaction chunk unitsConsumed) = chunk.map DustAmount.push := by
  have hplain : transfers (chunk.flatMap fun dust =>
      [.createIdempotent dust.token, .transfer dust]) = chunk.map DustAmount.push := by
    induction chunk with
    | nil => rfl
    | cons dust chunk ih =>
      rw [List.flatMap_cons, transfers, List.filterMap_append, ← transfers, ← transfers, ih]
      rfl
  simp only [dustTransaction]
  cases unitsConsumed with
  | none => exact hplain
  | some units =>
    simp only
    split_ifs
    · exact hplain
    · exact hplain

/-- A call hands over the transfers of the first pieces, all of them when none fails, and none
exactly when the first simulation fails or there is no piece. -/
theorem processChunks_spec (chunks : List (List DustAmount)) (outcome : ℕ → ChunkOutcome) :
    ∃ k, (processChunks chunks outcome).1.flatMap transfers =
        (chunks.take k).flatten.map DustAmount.push ∧
      ((processChunks chunks outcome).2 = true → k = chunks.length) ∧
      ((processChunks chunks outcome).1 = [] ↔ k = 0) ∧
      (chunks ≠ [] → (k = 0 ↔ outcome 0 = .simulationFailed)) ∧ k ≤ chunks.length := by
  induction chunks generalizing outcome with
  | nil => exact ⟨0, rfl, fun _ => rfl, ⟨fun _ => rfl, fun _ => rfl⟩, fun h => absurd rfl h, le_rfl⟩
  | cons chunk chunks ih =>
    simp only [processChunks]
    cases hout : outcome 0 with
    | simulationFailed =>
      exact ⟨0, rfl, nofun, ⟨fun _ => rfl, fun _ => rfl⟩, fun _ => ⟨fun _ => rfl, fun _ => rfl⟩,
        Nat.zero_le _⟩
    | handed unitsConsumed sent =>
      cases sent with
      | false =>
        refine ⟨1, ?_, nofun, ⟨nofun, nofun⟩, fun _ => ⟨nofun, nofun⟩, by simp⟩
        simp [transfers_dustTransaction]
      | true =>
        obtain ⟨k, hflat, hdone, -, -, hle⟩ := ih fun i => outcome (i + 1)
        refine ⟨k + 1, ?_, fun h => ?_, ⟨nofun, nofun⟩, fun _ => ⟨nofun, nofun⟩, by simpa using hle⟩
        · simp only [List.flatMap_cons, hflat, transfers_dustTransaction, List.take_succ_cons,
            List.flatten_cons, List.map_append]
        · rw [List.length_cons, hdone h]

/-- The first piece starts with the first item. -/
theorem mem_flatten_take_chunksOf {α : Type*} (size : ℕ) (a : α) (items : List α) {fuel k : ℕ}
    (hfuel : fuel ≠ 0) (hk : k ≠ 0) :
    a ∈ ((chunksOf size fuel (a :: items)).take k).flatten := by
  obtain ⟨fuel, rfl⟩ := Nat.exists_eq_succ_of_ne_zero hfuel
  obtain ⟨k, rfl⟩ := Nat.exists_eq_succ_of_ne_zero hk
  rw [Nat.succ_eq_add_one, Nat.succ_eq_add_one, chunksOf, List.take_succ_cons, List.flatten_cons]
  exact List.mem_append_left _ List.mem_cons_self

namespace DustTracker

/-- A call hands over the amounts at the front of the list, none of them exactly when the first
simulation fails. It clears the list only when it hands over all of it. -/
theorem process_spec {s : DustTracker} {a : DustAmount} {rest : List DustAmount}
    (hs : s.dustAmounts = a :: rest) (outcome : ℕ → ChunkOutcome) :
    ∃ sent, sent <+: s.dustAmounts ∧
      (s.process outcome).transferred = s.transferred ++ sent.map DustAmount.push ∧
      (s.process outcome).pushes = s.pushes ∧
      ((sent = [] ∧ outcome 0 = .simulationFailed) ∨ (a ∈ sent ∧ outcome 0 ≠ .simulationFailed)) ∧
      ((sent = s.dustAmounts ∧ (s.process outcome).dustAmounts = [] ∧
          (s.process outcome).interrupted = false) ∨
        ((s.process outcome).dustAmounts = s.dustAmounts ∧
          ((s.process outcome).interrupted = true ↔ s.interrupted = true ∨ a ∈ sent))) := by
  obtain ⟨k, hflat, hdone, hempty, hfirst, -⟩ := processChunks_spec s.chunks outcome
  have hchunks : s.chunks.flatten = s.dustAmounts := flatten_chunksOf 7 le_rfl
  have hne : s.chunks ≠ [] := by
    intro h
    rw [h, List.flatten_nil, hs] at hchunks
    contradiction
  have hhead : k ≠ 0 → a ∈ (s.chunks.take k).flatten := by
    intro hk
    rw [chunks, hs]
    exact mem_flatten_take_chunksOf 7 a rest (Nat.succ_ne_zero _) hk
  have hprocess : s.process outcome =
      { s with
        dustAmounts := if (processChunks s.chunks outcome).2 then [] else s.dustAmounts
        handed := s.handed ++ (processChunks s.chunks outcome).1
        interrupted := !(processChunks s.chunks outcome).2 &&
          (s.interrupted || !(processChunks s.chunks outcome).1.isEmpty) } := by
    rw [process, hs]
    rfl
  refine ⟨(s.chunks.take k).flatten, ?_, ?_, ?_, ?_, ?_⟩
  · have hsplit := congrArg List.flatten (List.take_append_drop k s.chunks)
    rw [List.flatten_append, hchunks] at hsplit
    exact ⟨_, hsplit⟩
  · rw [hprocess, transferred, List.flatMap_append, hflat]
    rfl
  · rw [hprocess]
  · by_cases hk : k = 0
    · exact .inl ⟨by rw [hk]; rfl, (hfirst hne).mp hk⟩
    · exact .inr ⟨hhead hk, fun h => hk ((hfirst hne).mpr h)⟩
  · have hsent : (processChunks s.chunks outcome).1 ≠ [] ↔ a ∈ (s.chunks.take k).flatten := by
      refine ⟨fun h => hhead fun hk => h (hempty.mpr hk), fun hmem h => ?_⟩
      rw [hempty.mp h] at hmem
      exact absurd hmem (List.not_mem_nil)
    rw [hprocess]
    cases hall : (processChunks s.chunks outcome).2 with
    | true => exact .inl ⟨by rw [hdone hall, List.take_length, hchunks], rfl, rfl⟩
    | false =>
      refine .inr ⟨rfl, ?_⟩
      rw [← hsent]
      simp

/-! ## Runs -/

/-- The numbers of the pushes are different, and an amount in the list was handed over only by an
interrupted call, which handed over the first one. -/
structure Accounted (s : DustTracker) : Prop where
  numbered : (s.dustAmounts.map DustAmount.push).Nodup
  queued : ∀ dust ∈ s.dustAmounts, dust.push < s.pushes
  counted : ∀ push ∈ s.transferred, push < s.pushes
  fresh : s.interrupted = false → ∀ dust ∈ s.dustAmounts, dust.push ∉ s.transferred
  repeated : s.interrupted = true → ∃ a rest, s.dustAmounts = a :: rest ∧ a.push ∈ s.transferred

theorem accounted_init : init.Accounted :=
  ⟨List.nodup_nil, nofun, nofun, fun _ => nofun, nofun⟩

theorem Accounted.process {s : DustTracker} (h : s.Accounted) (outcome : ℕ → ChunkOutcome) :
    (s.process outcome).Accounted := by
  rcases hs : s.dustAmounts with _ | ⟨a, rest⟩
  · have hsame : s.process outcome = s := by rw [DustTracker.process, hs]; rfl
    rwa [hsame]
  · obtain ⟨sent, hfront, htrans, hpushes, -, hlist⟩ := process_spec hs outcome
    have hcounted : ∀ push ∈ (s.process outcome).transferred,
        push < (s.process outcome).pushes := by
      intro push hmem
      rw [htrans, List.mem_append] at hmem
      rw [hpushes]
      rcases hmem with hold | hnew
      · exact h.counted push hold
      · obtain ⟨dust, hdust, rfl⟩ := List.mem_map.mp hnew
        exact h.queued dust (hfront.subset hdust)
    rcases hlist with ⟨-, hnil, hint⟩ | ⟨hsame, hint⟩
    · refine ⟨?_, ?_, hcounted, ?_, ?_⟩
      · rw [hnil]
        exact List.nodup_nil
      · rw [hnil]
        nofun
      · rw [hnil]
        exact fun _ => nofun
      · rw [hint]
        nofun
    · refine ⟨?_, ?_, hcounted, fun hfalse => ?_, fun htrue => ?_⟩
      · rw [hsame]
        exact h.numbered
      · rw [hsame, hpushes]
        exact h.queued
      · have hnone : s.interrupted = false ∧ a ∉ sent := by
          rw [← Bool.not_eq_true, hint, not_or, Bool.not_eq_true] at hfalse
          exact hfalse
        have hsent : sent = [] := by
          rcases sent with _ | ⟨b, sent⟩
          · rfl
          · rw [hs, List.cons_prefix_cons] at hfront
            exact absurd (hfront.1 ▸ List.mem_cons_self) hnone.2
        rw [hsame, htrans, hsent, List.map_nil, List.append_nil]
        exact h.fresh hnone.1
      · refine ⟨a, rest, hsame.trans hs, ?_⟩
        rw [htrans, List.mem_append]
        rcases hint.mp htrue with hold | hmem
        · obtain ⟨b, rest', hb, hpush⟩ := h.repeated hold
          rw [hs] at hb
          obtain ⟨rfl, -⟩ := List.cons.inj hb
          exact .inl hpush
        · exact .inr (List.mem_map_of_mem hmem)

theorem Accounted.step {s : DustTracker} (h : s.Accounted) (e : DustEvent) :
    (s.step e).Accounted := by
  cases e with
  | process outcome => exact h.process outcome
  | add token amount =>
    simp only [DustTracker.step]
    split_ifs with hzero
    · refine ⟨?_, ?_, ?_, ?_, ?_⟩
      · rw [List.map_append, List.nodup_append]
        refine ⟨h.numbered, List.nodup_singleton _, fun push hold other hnew => ?_⟩
        obtain ⟨dust, hdust, rfl⟩ := List.mem_map.mp hold
        rw [List.map_singleton, List.mem_singleton] at hnew
        rw [hnew]
        exact Nat.ne_of_lt (h.queued dust hdust)
      · intro dust hmem
        rcases List.mem_append.mp hmem with hold | hnew
        · exact Nat.lt_succ_of_lt (h.queued dust hold)
        · rw [List.mem_singleton.mp hnew]
          exact Nat.lt_succ_self _
      · exact fun push hmem => Nat.lt_succ_of_lt (h.counted push hmem)
      · intro hfalse dust hmem
        rcases List.mem_append.mp hmem with hold | hnew
        · exact h.fresh hfalse dust hold
        · rw [List.mem_singleton.mp hnew]
          exact fun hmem => absurd (h.counted _ hmem) (Nat.lt_irrefl _)
      · intro htrue
        obtain ⟨a, rest, hs, hpush⟩ := h.repeated htrue
        exact ⟨a, _, by rw [hs, List.cons_append], hpush⟩
    · exact h

/-- A step keeps the transfers apart exactly when it does not hand over the front of the list
again. -/
theorem once_step_iff {s : DustTracker} (h : s.Accounted) (hs : s.Once) (e : DustEvent) :
    (s.step e).Once ↔ s.Uninterrupted e := by
  cases e with
  | add token amount =>
    have hsame : (s.step (.add token amount)).transferred = s.transferred := by
      simp only [DustTracker.step]
      split_ifs
      · rfl
      · rfl
    rw [Once, hsame]
    exact ⟨fun _ => trivial, fun _ => hs⟩
  | process outcome =>
    rcases hlist : s.dustAmounts with _ | ⟨a, rest⟩
    · have hsame : s.step (.process outcome) = s := by
        rw [DustTracker.step, DustTracker.process, hlist]
        rfl
      rw [hsame]
      exact ⟨fun _ hne => absurd hlist hne, fun _ => hs⟩
    · obtain ⟨sent, hfront, htrans, -, hfirst, -⟩ := process_spec hlist outcome
      have hparts : (s.step (.process outcome)).Once ↔
          ∀ push ∈ s.transferred, ∀ dust ∈ sent, push ≠ dust.push := by
        have hnodup : (sent.map DustAmount.push).Nodup :=
          (hfront.sublist.map _).nodup h.numbered
        rw [Once] at hs ⊢
        rw [DustTracker.step, htrans, List.nodup_append, and_iff_right hs, and_iff_right hnodup]
        exact forall₂_congr fun push _ => List.forall_mem_map
      have hcond : s.Uninterrupted (.process outcome) ↔
          (outcome 0 ≠ .simulationFailed → s.interrupted = false) := by
        rw [Uninterrupted, hlist]
        exact imp_iff_right (List.cons_ne_nil _ _)
      rw [hparts, hcond]
      rcases hfirst with ⟨rfl, hfail⟩ | ⟨hmem, hok⟩
      · exact ⟨fun _ hok => absurd hfail hok, fun _ _ _ => nofun⟩
      · rw [imp_iff_right hok]
        constructor
        · intro hapart
          by_contra hint
          obtain ⟨b, rest', hb, hpush⟩ := h.repeated (Bool.eq_true_of_not_eq_false hint)
          rw [hlist] at hb
          obtain ⟨rfl, -⟩ := List.cons.inj hb
          exact hapart _ hpush _ hmem rfl
        · intro hint push hpush dust hdust heq
          exact h.fresh hint dust (hfront.subset hdust) (heq ▸ hpush)

/-- No amount is given up unsent. -/
theorem removesHanded (s : DustTracker) (e : DustEvent) : s.RemovesHanded e := by
  intro dust hmem hgone
  cases e with
  | add token amount =>
    simp only [DustTracker.step] at hgone
    split_ifs at hgone
    · exact absurd (List.mem_append_left _ hmem) hgone
    · exact absurd hmem hgone
  | process outcome =>
    obtain ⟨a, rest, hs⟩ := List.exists_cons_of_ne_nil (List.ne_nil_of_mem hmem)
    obtain ⟨sent, -, htrans, -, -, hlist⟩ := process_spec hs outcome
    rcases hlist with ⟨hall, -, -⟩ | ⟨hsame, -⟩
    · rw [DustTracker.step, htrans, hall]
      exact List.mem_append_right _ (List.mem_map_of_mem hmem)
    · exact absurd (hsame.symm ▸ hmem) hgone

/-- Throughout a run every amount is handed over at most once exactly when no call goes over the
list again that an interrupted call has left; and no amount is ever given up unsent. -/
theorem once_iff_uninterrupted (es : List DustEvent) :
    (Visits step Once init es ↔ Along step Uninterrupted init es) ∧
      Along step RemovesHanded init es := by
  constructor
  · exact visits_iff_along (fun s e h => h.step e) (fun s e h hs => once_step_iff h hs e)
      accounted_init List.nodup_nil
  · exact Along.of_forall removesHanded init es

/-- The first piece is sent and the second one fails; the next call sends the first again. -/
def repeatedRun : List DustEvent :=
  List.replicate 8 (.add 1 100) ++
    [.process fun i => if i = 0 then .handed (some 50000) true else .simulationFailed,
      .process fun _ => .handed none true]

/-- Of eight amounts the first seven are sent twice. -/
theorem not_once : ¬ Visits step Once init repeatedRun := by
  intro h
  have hlast : (exec step init repeatedRun).Once := h.2.2.2.2.2.2.2.2.2.1
  revert hlast
  decide

end DustTracker

end Biscuit.Copy
