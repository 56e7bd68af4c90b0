import Mathlib.Data.List.Nodup
import Biscuit.Models.Wire.Grpc

/-!
# How often the gRPC stream broadcasts

The replacement of an inner task overlaps with the task it replaces until one of them is
aborted, and both broadcast what they receive. Each of them broadcasts a transaction once.
-/

namespace Biscuit.Wire

/-- Whether a message is the one transaction. -/
def StreamMessage.carries (sig : Signature) : StreamMessage → Bool
  | .transaction signature _ => decide (signature = sig)
  | _ => false

namespace InnerTask

/-- How often a transaction waits to be handled. -/
def pending (sig : Signature) (t : InnerTask) : ℕ := t.inbox.countP (StreamMessage.carries sig)

theorem pending_disconnect (sig : Signature) (t : InnerTask) : t.disconnect.pending sig = 0 := rfl

theorem pending_push (sig : Signature) (m : StreamMessage) (t : InnerTask) :
    (t.push m).pending sig = t.pending sig + if m.carries sig then 1 else 0 := by
  simp only [pending, push, List.countP_append, List.countP_singleton]

theorem pending_connect_le (sig : Signature) (t : InnerTask) :
    t.connect.pending sig ≤ t.pending sig := by
  unfold connect
  split
  · exact Nat.zero_le _
  · exact le_rfl

/-- Handling a message takes it away. -/
theorem pending_pop (sig : Signature) {m : StreamMessage} {t : InnerTask}
    (h : t.inbox.head? = some m) (notified : Bool) :
    (t.pop notified).pending sig + (if m.carries sig then 1 else 0) = t.pending sig := by
  obtain ⟨rest, hrest⟩ := List.head?_eq_some_iff.mp h
  simp only [pending, pop, hrest, List.tail_cons, List.countP_cons]

end InnerTask

namespace GrpcStream

/-- How often a transaction waits to be handled by one inner task. -/
def pending (s : GrpcStream) (i : ℕ) (sig : Signature) : ℕ :=
  (s.tasks[i]?).elim 0 (InnerTask.pending sig)

/-- How often one inner task has received a transaction. -/
def received (s : GrpcStream) (i : ℕ) (sig : Signature) : ℕ :=
  s.arrivals.countP fun a => decide (a.signature = sig ∧ i ∈ a.recipients)

/-- How often a transaction was broadcast. -/
def deliveries (s : GrpcStream) (sig : Signature) : ℕ :=
  s.broadcasts.countP fun b => decide (b.2 = sig)

/-- What every step preserves. -/
structure Sound (s : GrpcStream) : Prop where
  /-- The supervising task knows every task that is not aborted. -/
  alive : ∀ (i : ℕ) t, s.tasks[i]? = some t → t.live = true → i ∈ s.supervisor.alive
  streaming : ∀ (i : ℕ) t, s.tasks[i]? = some t → t.streaming = true → t.live = true
  once : (s.arrivals.map Arrival.signature).Nodup
  pairs : ∀ a ∈ s.arrivals, a.recipients.length ≤ 2
  /-- What a task has broadcast or still has to handle it has received. -/
  counted : ∀ i sig, s.broadcasts.count (i, sig) + s.pending i sig ≤ s.received i sig

theorem init_sound : init.Sound where
  alive := by
    intro i t h
    rw [init, List.getElem?_nil] at h
    cases h
  streaming := by
    intro i t h
    rw [init, List.getElem?_nil] at h
    cases h
  once := List.nodup_nil
  pairs := fun _ h => absurd h List.not_mem_nil
  counted := fun _ _ => le_rfl

/-- What is kept by a step at which nothing arrives. -/
theorem Sound.of_tasks {s s' : GrpcStream} (hs : s.Sound)
    (halive : ∀ (i : ℕ) t, s'.tasks[i]? = some t → t.live = true → i ∈ s'.supervisor.alive)
    (hstream : ∀ (i : ℕ) t, s'.tasks[i]? = some t → t.streaming = true → t.live = true)
    (harrivals : s'.arrivals = s.arrivals)
    (hcount : ∀ i sig, s'.broadcasts.count (i, sig) + s'.pending i sig ≤
      s.broadcasts.count (i, sig) + s.pending i sig) : s'.Sound where
  alive := halive
  streaming := hstream
  once := by
    rw [harrivals]
    exact hs.once
  pairs := by
    rw [harrivals]
    exact hs.pairs
  counted := by
    intro i sig
    have hold := hs.counted i sig
    have hnew := hcount i sig
    rw [received, harrivals]
    exact hnew.trans hold

/-- Nothing but the handle and the supervising task changes, and the same tasks are alive. -/
theorem Sound.of_frame {s s' : GrpcStream} (hs : s.Sound) (htasks : s'.tasks = s.tasks)
    (halive : s'.supervisor.alive = s.supervisor.alive) (harrivals : s'.arrivals = s.arrivals)
    (hbroadcasts : s'.broadcasts = s.broadcasts) : s'.Sound := by
  refine hs.of_tasks ?_ ?_ harrivals ?_
  · rw [htasks, halive]
    exact hs.alive
  · rw [htasks]
    exact hs.streaming
  · intro i sig
    rw [pending, htasks, hbroadcasts]
    exact le_rfl

/-! ## One inner task changes -/

theorem getElem?_modifyTask (s : GrpcStream) (i j : ℕ) (f : InnerTask → InnerTask) :
    (s.modifyTask i f).tasks[j]? = (s.tasks[j]?).map fun t => if i = j then f t else t := by
  simp only [modifyTask, List.getElem?_modify, Option.map_eq_map]

theorem mem_modifyTask {s : GrpcStream} {i j : ℕ} {f : InnerTask → InnerTask} {t' : InnerTask}
    (h : (s.modifyTask i f).tasks[j]? = some t') :
    ∃ t, s.tasks[j]? = some t ∧ t' = if i = j then f t else t := by
  rw [getElem?_modifyTask] at h
  obtain ⟨t, ht, rfl⟩ := Option.map_eq_some_iff.mp h
  exact ⟨t, ht, rfl⟩

theorem pending_modifyTask_le {s : GrpcStream} {i : ℕ} {f : InnerTask → InnerTask}
    (hf : ∀ t sig, s.tasks[i]? = some t → (f t).pending sig ≤ t.pending sig) (j : ℕ)
    (sig : Signature) : (s.modifyTask i f).pending j sig ≤ s.pending j sig := by
  simp only [pending, getElem?_modifyTask]
  cases ht : s.tasks[j]? with
  | none => exact le_rfl
  | some t =>
    simp only [Option.map_some, Option.elim_some]
    split
    · rename_i hij
      subst hij
      exact hf t sig ht
    · exact le_rfl

/-- A change of one task that neither revives it nor adds to its transactions. -/
theorem Sound.modifyTask {s : GrpcStream} (hs : s.Sound) {i : ℕ} {f : InnerTask → InnerTask}
    (hlive : ∀ t, (f t).live = true → t.live = true)
    (hstream : ∀ t, (t.streaming = true → t.live = true) →
      (f t).streaming = true → (f t).live = true)
    (hpending : ∀ t sig, s.tasks[i]? = some t → (f t).pending sig ≤ t.pending sig) :
    (s.modifyTask i f).Sound := by
  refine hs.of_tasks ?_ ?_ rfl ?_
  · intro j t' ht' hl
    obtain ⟨t, ht, rfl⟩ := mem_modifyTask ht'
    apply hs.alive j t ht
    split at hl
    · exact hlive t hl
    · exact hl
  · intro j t' ht' hst
    obtain ⟨t, ht, rfl⟩ := mem_modifyTask ht'
    split
    · rename_i hij
      rw [if_pos hij] at hst
      exact hstream t (hs.streaming j t ht) hst
    · rename_i hij
      rw [if_neg hij] at hst
      exact hs.streaming j t ht hst
  · intro j sig
    exact Nat.add_le_add_left (pending_modifyTask_le hpending j sig) _

/-- Aborting one of the two tasks leaves the other. -/
theorem Sound.abort {s : GrpcStream} (hs : s.Sound) {i : ℕ} {p : Supervisor}
    (hp : ∀ j ∈ s.supervisor.alive, j ≠ i → j ∈ p.alive) :
    Sound { s.modifyTask i InnerTask.abort with supervisor := p } := by
  refine hs.of_tasks ?_ ?_ rfl ?_
  · intro j t' ht' hl
    obtain ⟨t, ht, rfl⟩ := mem_modifyTask ht'
    split at hl
    · cases hl
    · rename_i hij
      exact hp j (hs.alive j t ht hl) (Ne.symm hij)
  · intro j t' ht' hst
    obtain ⟨t, ht, rfl⟩ := mem_modifyTask ht'
    split
    · rename_i hij
      rw [if_pos hij] at hst
      cases hst
    · rename_i hij
      rw [if_neg hij] at hst
      exact hs.streaming j t ht hst
  · intro j sig
    exact Nat.add_le_add_left
      (pending_modifyTask_le (fun t sig _ => Nat.zero_le _) j sig) _

/-- A new task is alive and has received nothing. -/
theorem Sound.spawn {s : GrpcStream} (hs : s.Sound) {p : Supervisor}
    (hp : p.alive = s.supervisor.alive ++ [s.tasks.length]) : (s.spawn p).Sound := by
  have hmem : ∀ (i : ℕ) t, (s.spawn p).tasks[i]? = some t →
      s.tasks[i]? = some t ∨
        i = s.tasks.length ∧ t = ⟨s.accounts, true, false, [], false⟩ := by
    intro i t ht
    rw [GrpcStream.spawn, List.getElem?_append] at ht
    split at ht
    · exact .inl ht
    · obtain ⟨hi, he⟩ := List.getElem?_eq_some_iff.mp ht
      rw [List.length_singleton] at hi
      exact .inr ⟨by omega, by simpa using he.symm⟩
  refine hs.of_tasks ?_ ?_ rfl ?_
  · intro i t ht hl
    change i ∈ p.alive
    rw [hp]
    rcases hmem i t ht with hold | ⟨rfl, -⟩
    · exact List.mem_append_left _ (hs.alive i t hold hl)
    · exact List.mem_append_right _ List.mem_cons_self
  · intro i t ht hst
    rcases hmem i t ht with hold | ⟨-, rfl⟩
    · exact hs.streaming i t hold hst
    · cases hst
  · intro i sig
    refine Nat.add_le_add_left ?_ _
    rw [pending, pending]
    cases ht : (s.spawn p).tasks[i]? with
    | none => exact Nat.zero_le _
    | some t =>
      rcases hmem i t ht with hold | ⟨-, rfl⟩
      · rw [hold]
      · exact Nat.zero_le _

/-! ## Messages -/

theorem head_of_bind {s : GrpcStream} {i : ℕ} {m : StreamMessage}
    (h : ((s.tasks[i]?).bind fun t => t.inbox.head?) = some m) {t : InnerTask}
    (ht : s.tasks[i]? = some t) : t.inbox.head? = some m := by
  rwa [ht, Option.bind_some] at h

theorem Sound.pop {s : GrpcStream} (hs : s.Sound) {i : ℕ} {m : StreamMessage}
    (h : ((s.tasks[i]?).bind fun t => t.inbox.head?) = some m) (notified : Bool) :
    (s.modifyTask i (InnerTask.pop notified)).Sound := by
  refine hs.modifyTask (fun t hl => hl) (fun t ht hst => ht hst) ?_
  intro t sig ht
  have hpop := InnerTask.pending_pop sig (head_of_bind h ht) notified
  omega

/-- The transaction that a task handles is broadcast instead of waiting. -/
theorem count_handle {s : GrpcStream} {i : ℕ} {signature : Signature} {converts : Bool}
    (h : ((s.tasks[i]?).bind fun t => t.inbox.head?) =
      some (.transaction signature converts)) (j : ℕ) (sig : Signature) :
    (if converts then s.broadcasts ++ [(i, signature)] else s.broadcasts).count (j, sig) +
        (s.modifyTask i (InnerTask.pop true)).pending j sig ≤
      s.broadcasts.count (j, sig) + s.pending j sig := by
  have hpend : (s.modifyTask i (InnerTask.pop true)).pending j sig +
      (if (i, signature) = (j, sig) then 1 else 0) ≤ s.pending j sig := by
    simp only [pending, getElem?_modifyTask, Prod.mk.injEq]
    by_cases hij : i = j
    · subst hij
      obtain ⟨t, ht, hhead⟩ := Option.bind_eq_some_iff.mp h
      have hpop := InnerTask.pending_pop sig hhead true
      simp only [StreamMessage.carries, decide_eq_true_eq] at hpop
      rw [ht]
      simp only [Option.map_some, Option.elim_some, if_true, true_and]
      exact hpop.le
    · simp only [hij, false_and, if_false, Option.map_id', Nat.add_zero]
      exact le_rfl
  have hcount : (if converts then s.broadcasts ++ [(i, signature)] else s.broadcasts).count
      (j, sig) ≤ s.broadcasts.count (j, sig) + if (i, signature) = (j, sig) then 1 else 0 := by
    cases converts with
    | false => exact Nat.le_add_right _ _
    | true =>
      simp only [if_true, List.count_append, List.count_singleton, beq_iff_eq]
      exact le_rfl
  omega

theorem Sound.handle {s : GrpcStream} (hs : s.Sound) (i : ℕ) : (s.handle i).Sound := by
  unfold GrpcStream.handle
  split
  · exact hs
  · rename_i h
    exact hs.pop h false
  · rename_i h
    exact hs.pop h true
  · rename_i signature converts h
    have hpop := hs.pop h true
    exact hs.of_tasks hpop.alive hpop.streaming rfl (count_handle h)

theorem Sound.message {s : GrpcStream} (hs : s.Sound) (i : ℕ) (m : StreamMessage) :
    (s.message i m).Sound := by
  unfold GrpcStream.message
  split
  · exact hs
  · rename_i hm
    apply hs.modifyTask
    · intro t hl
      unfold InnerTask.receive at hl
      split at hl <;> exact hl
    · intro t ht hst
      unfold InnerTask.receive at hst ⊢
      split at hst
      · rename_i hopen
        rw [if_pos hopen]
        exact ht hopen
      · rename_i hopen
        exact absurd hst hopen
    · intro t sig _
      unfold InnerTask.receive
      split
      · rw [InnerTask.pending_push]
        cases m with
        | transaction signature converts => exact absurd rfl (hm signature converts)
        | update | empty => exact le_rfl
      · exact le_rfl

/-! ## A transaction arrives -/

theorem mem_recipients {s : GrpcStream} {mentions : List Pubkey} {i : ℕ} :
    i ∈ s.recipients mentions ↔
      ∃ t, s.tasks[i]? = some t ∧ t.receives mentions = true := by
  rw [recipients, List.mem_filter, List.mem_range]
  constructor
  · rintro ⟨-, h⟩
    split at h
    · cases h
    · rename_i t ht
      exact ⟨t, ht, h⟩
  · rintro ⟨t, ht, h⟩
    refine ⟨(List.getElem?_eq_some_iff.mp ht).1, ?_⟩
    rw [ht]
    exact h

theorem recipients_nodup (s : GrpcStream) (mentions : List Pubkey) :
    (s.recipients mentions).Nodup := List.nodup_range.filter _

/-- Only tasks that are alive receive anything. -/
theorem Sound.recipients_length {s : GrpcStream} (hs : s.Sound) (mentions : List Pubkey) :
    (s.recipients mentions).length ≤ s.supervisor.alive.length := by
  refine (List.subperm_of_subset (s.recipients_nodup mentions) ?_).length_le
  intro i hi
  obtain ⟨t, ht, hreceives⟩ := mem_recipients.mp hi
  rw [InnerTask.receives, Bool.and_eq_true] at hreceives
  exact hs.alive i t ht (hs.streaming i t ht hreceives.1)

theorem Sound.transaction {s : GrpcStream} (hs : s.Sound) (signature : Signature)
    (mentions : List Pubkey) (converts : Bool) :
    (s.transaction signature mentions converts).Sound := by
  unfold GrpcStream.transaction
  split
  · exact hs
  rename_i hfresh
  have hlive : ∀ t : InnerTask, (if t.receives mentions then
      t.push (.transaction signature converts) else t).live = t.live := by
    intro t
    split <;> rfl
  have hopen : ∀ t : InnerTask, (if t.receives mentions then
      t.push (.transaction signature converts) else t).streaming = t.streaming := by
    intro t
    split <;> rfl
  refine ⟨?_, ?_, List.nodup_cons.mpr ⟨hfresh, hs.once⟩, ?_, ?_⟩
  · intro i t' ht' hl
    rw [List.getElem?_map] at ht'
    obtain ⟨t, ht, rfl⟩ := Option.map_eq_some_iff.mp ht'
    rw [hlive] at hl
    exact hs.alive i t ht hl
  · intro i t' ht' hst
    rw [List.getElem?_map] at ht'
    obtain ⟨t, ht, rfl⟩ := Option.map_eq_some_iff.mp ht'
    rw [hopen] at hst
    rw [hlive]
    exact hs.streaming i t ht hst
  · intro a ha
    rcases List.mem_cons.mp ha with rfl | ha
    · exact (hs.recipients_length mentions).trans s.supervisor.alive_length_le
    · exact hs.pairs a ha
  · intro i sig
    have hold := hs.counted i sig
    simp only [received, List.countP_cons, pending, List.getElem?_map] at hold ⊢
    cases ht : s.tasks[i]? with
    | none =>
      rw [ht, Option.elim_none] at hold
      rw [Option.map_none, Option.elim_none]
      omega
    | some t =>
      rw [ht, Option.elim_some] at hold
      rw [Option.map_some, Option.elim_some]
      by_cases hreceives : t.receives mentions = true
      · have hmem : i ∈ s.recipients mentions := mem_recipients.mpr ⟨t, ht, hreceives⟩
        simp only [hreceives, if_true, InnerTask.pending_push, StreamMessage.carries,
          decide_eq_true_eq, hmem, and_true]
        omega
      · rw [if_neg hreceives]
        omega

/-! ## Every step -/

theorem Sound.setKeys {s : GrpcStream} (hs : s.Sound) (r : Finset Pubkey × Bool) :
    (s.setKeys r).Sound := by
  unfold GrpcStream.setKeys
  split <;> exact hs.of_frame rfl rfl rfl rfl

theorem Sound.supervise {s : GrpcStream} (hs : s.Sound) : s.supervise.Sound := by
  unfold GrpcStream.supervise
  split
  · rename_i hp
    split
    · apply hs.spawn
      rw [hp]
      rfl
    · exact hs
  · rename_i current hp
    split
    · refine hs.of_frame rfl ?_ rfl rfl
      rw [hp]
      rfl
    · exact hs
  · rename_i current hp
    apply hs.spawn
    rw [hp]
    rfl
  · rename_i current replacement hp
    split
    · apply hs.abort
      rw [hp]
      intro j hj hne
      rcases List.mem_cons.mp hj with rfl | hj
      · exact absurd rfl hne
      · exact hj
    · exact hs

theorem Sound.timeout {s : GrpcStream} (hs : s.Sound) : s.timeout.Sound := by
  unfold GrpcStream.timeout
  split
  · rename_i current replacement hp
    split
    · exact hs
    · apply hs.abort
      rw [hp]
      intro j hj hne
      rcases List.mem_cons.mp hj with rfl | hj
      · exact List.mem_cons_self
      · exact absurd (List.mem_singleton.mp hj) hne
  · exact hs

theorem Sound.connect {s : GrpcStream} (hs : s.Sound) (i : ℕ) :
    (s.modifyTask i InnerTask.connect).Sound := by
  refine hs.modifyTask ?_ ?_ fun t sig _ => t.pending_connect_le sig
  · intro t hl
    unfold InnerTask.connect at hl
    split at hl <;> exact hl
  · intro t ht hst
    unfold InnerTask.connect at hst ⊢
    split
    · rename_i hgo
      rw [Bool.and_eq_true, Bool.and_eq_true] at hgo
      exact hgo.1.1
    · rename_i hgo
      rw [if_neg hgo] at hst
      exact ht hst

/-- Every step keeps the invariant. -/
theorem step_sound {s : GrpcStream} (hs : s.Sound) (e : StreamEvent) : (step s e).Sound := by
  cases e with
  | watchAccounts requests => exact hs.setKeys _
  | dropAccounts requests => exact hs.setKeys _
  | supervise => exact hs.supervise
  | timeout => exact hs.timeout
  | connect i => exact hs.connect i
  | disconnect i =>
    exact hs.modifyTask (fun t hl => hl) (fun t _ hst => by cases hst)
      fun t sig _ => (t.pending_disconnect sig).trans_le (Nat.zero_le _)
  | transaction signature mentions converts => exact hs.transaction signature mentions converts
  | message i m => exact hs.message i m
  | handle i => exact hs.handle i

/-! ## How often a transaction is broadcast -/

theorem Sound.received_le_one {s : GrpcStream} (hs : s.Sound) (i : ℕ) (sig : Signature) :
    s.received i sig ≤ 1 := by
  have hcount := List.nodup_iff_count_le_one.mp hs.once sig
  rw [List.count, List.countP_map] at hcount
  refine le_trans (List.countP_mono_left ?_) hcount
  intro a _ ha
  rw [decide_eq_true_eq] at ha
  exact beq_iff_eq.mpr ha.1

/-- No inner task broadcasts a transaction twice. -/
theorem Sound.broadcasts_nodup {s : GrpcStream} (hs : s.Sound) : s.broadcasts.Nodup := by
  rw [List.nodup_iff_count_le_one]
  rintro ⟨i, sig⟩
  have hcounted := hs.counted i sig
  have hone := hs.received_le_one i sig
  omega

/-- Whatever is broadcast was received by the task that broadcasts it. -/
theorem Sound.received_of_mem {s : GrpcStream} (hs : s.Sound) {i : ℕ} {sig : Signature}
    (h : (i, sig) ∈ s.broadcasts) : ∃ a ∈ s.arrivals, a.signature = sig ∧ i ∈ a.recipients := by
  have hpos : 0 < s.received i sig := by
    have hcount := List.count_pos_iff.mpr h
    have hcounted := hs.counted i sig
    omega
  obtain ⟨a, ha, hp⟩ := List.countP_pos_iff.mp hpos
  exact ⟨a, ha, by simpa using hp⟩

/-- A transaction is broadcast at most once for every task that received it. -/
theorem Sound.deliveries_le {s : GrpcStream} (hs : s.Sound) {a : Arrival}
    (ha : a ∈ s.arrivals) : s.deliveries a.signature ≤ a.recipients.length := by
  have hids : ((s.broadcasts.filter fun b => decide (b.2 = a.signature)).map Prod.fst).Nodup := by
    refine List.Nodup.map_on ?_ (hs.broadcasts_nodup.filter _)
    rintro ⟨i, sig⟩ hb ⟨j, sig'⟩ hb' rfl
    have he : sig = a.signature := by simpa using List.of_mem_filter hb
    have he' : sig' = a.signature := by simpa using List.of_mem_filter hb'
    rw [he, he']
  have hsub : (s.broadcasts.filter fun b => decide (b.2 = a.signature)).map Prod.fst ⊆
      a.recipients := by
    intro i hi
    obtain ⟨⟨j, sig⟩, hb, rfl⟩ := List.mem_map.mp hi
    obtain rfl : sig = a.signature := by simpa using List.of_mem_filter hb
    obtain ⟨a', ha', he, hj⟩ := hs.received_of_mem (List.mem_of_mem_filter hb)
    rwa [List.inj_on_of_nodup_map hs.once ha' ha he] at hj
  have hlength := (List.subperm_of_subset hids hsub).length_le
  rwa [List.length_map, ← List.countP_eq_length_filter] at hlength

/-- What never arrived is never broadcast. -/
theorem Sound.deliveries_eq_zero {s : GrpcStream} (hs : s.Sound) {sig : Signature}
    (h : sig ∉ s.arrivals.map Arrival.signature) : s.deliveries sig = 0 := by
  rw [deliveries, List.countP_eq_zero]
  rintro ⟨i, sig'⟩ hb he
  obtain rfl : sig' = sig := by simpa using he
  obtain ⟨a, ha, rfl, -⟩ := hs.received_of_mem hb
  exact h (List.mem_map_of_mem ha)

/-- What has arrived stays recorded. -/
theorem mem_arrivals_step (s : GrpcStream) (e : StreamEvent) {a : Arrival}
    (ha : a ∈ s.arrivals) : a ∈ (step s e).arrivals := by
  cases e with
  | watchAccounts | dropAccounts =>
    simp only [step, watchAccounts, dropAccounts, setKeys]
    split <;> exact ha
  | supervise =>
    simp only [step, supervise]
    split <;> (try split) <;> exact ha
  | timeout =>
    simp only [step, timeout]
    split <;> (try split) <;> exact ha
  | connect | disconnect => exact ha
  | transaction =>
    simp only [step, transaction]
    split
    · exact ha
    · exact List.mem_cons_of_mem _ ha
  | message =>
    simp only [step, message]
    split <;> exact ha
  | handle =>
    simp only [step, handle]
    split <;> exact ha

theorem run_sound (es : List StreamEvent) : (exec step init es).Sound :=
  exec_preserves (I := Sound) (fun _ e hs => step_sound hs e) es init_sound

/-- For every sequence of requests, every timing of the tasks and all transactions on
chain: an inner task broadcasts a transaction at most once, a transaction is broadcast at
most twice, and at most once unless it arrives between the spawning of a replacement and
the abort of one of the two tasks. -/
theorem broadcast_at_most_twice (es : List StreamEvent) (sig : Signature) :
    (exec step init es).broadcasts.Nodup ∧
      (exec step init es).deliveries sig ≤ 2 ∧
      ∀ before mentions converts after,
        es = before ++ .transaction sig mentions converts :: after →
        sig ∉ (exec step init before).arrivals.map Arrival.signature →
        ¬ (exec step init before).supervisor.IsStarting →
        (exec step init es).deliveries sig ≤ 1 := by
  have hs := run_sound es
  refine ⟨hs.broadcasts_nodup, ?_, ?_⟩
  · by_cases h : sig ∈ (exec step init es).arrivals.map Arrival.signature
    · obtain ⟨a, ha, rfl⟩ := List.mem_map.mp h
      exact (hs.deliveries_le ha).trans (hs.pairs a ha)
    · rw [hs.deliveries_eq_zero h]
      exact Nat.zero_le _
  · rintro before mentions converts after rfl hfresh hphase
    have hbefore := run_sound before
    have harrival : (⟨sig, (exec step init before).recipients mentions⟩ : Arrival) ∈
        (exec step init (before ++ .transaction sig mentions converts :: after)).arrivals := by
      rw [exec_append, exec_cons]
      refine exec_preserves (fun s e ha => mem_arrivals_step s e ha) after ?_
      simp only [step, transaction, if_neg hfresh]
      exact List.mem_cons_self
    calc (exec step init (before ++ .transaction sig mentions converts :: after)).deliveries sig
        ≤ ((exec step init before).recipients mentions).length := hs.deliveries_le harrival
      _ ≤ (exec step init before).supervisor.alive.length := hbefore.recipients_length mentions
      _ ≤ 1 := Supervisor.alive_length_le_one hphase

/-- An account is added while another is streamed, and a transaction of the first account
arrives before the task for both has had its first message. -/
def sampleOverlap : List StreamEvent :=
  [.watchAccounts [1], .supervise, .connect 0,
    .watchAccounts [2], .supervise, .supervise, .connect 1,
    .transaction 7 [1] true, .handle 0, .handle 1, .supervise]

/-- It is broadcast twice. -/
theorem not_broadcast_once_overlap : ¬ (exec step init sampleOverlap).deliveries 7 ≤ 1 := by
  decide +kernel

end GrpcStream

end Biscuit.Wire
