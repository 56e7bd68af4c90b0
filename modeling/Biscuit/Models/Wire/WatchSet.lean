import Biscuit.Models.Wire.Broadcast

/-!
# The accounts that the gRPC stream watches

Once the supervising task has seen the last change, the inner tasks that run stream the accounts
of the handle, unless a replacement did not start in time: its task is aborted, nothing tries
again, and the old task goes on with the old accounts. A replacement without accounts never
starts.
-/

namespace Biscuit.Wire.GrpcStream

/-- An account that an inner task streams that has not been aborted. -/
def Streams (s : GrpcStream) (a : Pubkey) : Prop :=
  ∃ (i : ℕ) (t : InnerTask), s.tasks[i]? = some t ∧ t.live = true ∧ a ∈ t.accounts

/-- The supervising task has processed the last notification. -/
def Settled (s : GrpcStream) : Prop :=
  s.changed = false ∧ (s.supervisor = .waiting ∨ ∃ current, s.supervisor = .idle current)

/-- Once the last notification is processed, the accounts that are streamed are those of the
handle. -/
def Converged (s : GrpcStream) : Prop := s.Settled → ∀ a, s.Streams a ↔ a ∈ s.keys

/-- If the wait for a replacement ends without it and there is no later change, the task that
goes on has the accounts of the handle. -/
def KeepsAccounts (s : GrpcStream) (e : StreamEvent) : Prop :=
  e = .timeout → ∀ current replacement, s.supervisor = .starting current replacement →
    s.hasStarted replacement = false → s.changed = false →
    ∀ t, s.tasks[current]? = some t → t.accounts = s.keys

/-! ## What a step leaves alone -/

/-- The accounts of each task and whether it is alive. -/
def profile (s : GrpcStream) : List (Finset Pubkey × Bool) :=
  s.tasks.map fun t => (t.accounts, t.live)

/-- A step that changes neither the handle nor the supervising task, nor the accounts of a task
or whether it is alive. -/
structure Quiet (s s' : GrpcStream) : Prop where
  keys : s'.keys = s.keys
  accounts : s'.accounts = s.accounts
  changed : s'.changed = s.changed
  supervisor : s'.supervisor = s.supervisor
  profile : s'.profile = s.profile

theorem Quiet.refl (s : GrpcStream) : Quiet s s := ⟨rfl, rfl, rfl, rfl, rfl⟩

/-- A change of one task that keeps its accounts and leaves it alive. -/
theorem Quiet.modifyTask (s : GrpcStream) (i : ℕ) {f : InnerTask → InnerTask}
    (hf : ∀ t, (f t).accounts = t.accounts ∧ (f t).live = t.live) :
    Quiet s (s.modifyTask i f) := by
  refine ⟨rfl, rfl, rfl, rfl, ?_⟩
  unfold GrpcStream.profile
  apply List.ext_getElem?
  intro j
  rw [List.getElem?_map, List.getElem?_map, getElem?_modifyTask, Option.map_map]
  apply congrFun
  congr 1
  funext t
  by_cases hij : i = j
  · simp [hij, hf t]
  · simp [hij]

theorem receive_frame (m : StreamMessage) (t : InnerTask) :
    (t.receive m).accounts = t.accounts ∧ (t.receive m).live = t.live := by
  unfold InnerTask.receive
  split <;> exact ⟨rfl, rfl⟩

theorem connect_frame (t : InnerTask) :
    t.connect.accounts = t.accounts ∧ t.connect.live = t.live := by
  unfold InnerTask.connect
  split <;> exact ⟨rfl, rfl⟩

theorem quiet_message (s : GrpcStream) (i : ℕ) (m : StreamMessage) : Quiet s (s.message i m) := by
  unfold message
  cases m with
  | transaction signature converts => exact Quiet.refl s
  | update => exact Quiet.modifyTask s i (receive_frame _)
  | empty => exact Quiet.modifyTask s i (receive_frame _)

theorem quiet_handle (s : GrpcStream) (i : ℕ) : Quiet s (s.handle i) := by
  have hpop : ∀ notified, Quiet s (s.modifyTask i (InnerTask.pop notified)) := by
    intro notified
    exact Quiet.modifyTask s i fun t => ⟨rfl, rfl⟩
  unfold handle
  cases (s.tasks[i]?).bind fun t => t.inbox.head? with
  | none => exact Quiet.refl s
  | some m =>
    cases m with
    | transaction signature converts =>
      have h := hpop true
      exact ⟨h.keys, h.accounts, h.changed, h.supervisor, h.profile⟩
    | update => exact hpop true
    | empty => exact hpop false

theorem quiet_transaction (s : GrpcStream) (signature : Signature) (mentions : List Pubkey)
    (converts : Bool) : Quiet s (s.transaction signature mentions converts) := by
  unfold transaction
  by_cases hseen : signature ∈ s.arrivals.map Arrival.signature
  · rw [if_pos hseen]
    exact Quiet.refl s
  · rw [if_neg hseen]
    refine ⟨rfl, rfl, rfl, rfl, ?_⟩
    unfold profile
    rw [List.map_map]
    apply List.map_congr_left
    intro t _
    simp only [Function.comp_apply]
    split <;> rfl

/-! ## What every step keeps -/

/-- The supervising task knows the tasks that are alive, and a replacement has the accounts of
the handle unless they have changed since. -/
structure Steady (s : GrpcStream) : Prop where
  keys : s.accounts = s.keys
  alive : ∀ (i : ℕ) p, s.profile[i]? = some p → (p.2 = true ↔ i ∈ s.supervisor.alive)
  spawned : ∀ i ∈ s.supervisor.alive, i < s.profile.length
  waiting : s.supervisor = .waiting → s.changed = false → s.keys = ∅
  starting : ∀ current replacement, s.supervisor = .starting current replacement →
    current ≠ replacement ∧
      (s.changed = false → ∀ p, s.profile[replacement]? = some p → p.1 = s.keys)

theorem init_steady : init.Steady where
  keys := rfl
  alive := by simp [init, profile]
  spawned := by simp [init, Supervisor.alive]
  waiting := fun _ _ => rfl
  starting := by simp [init]

theorem Steady.quiet {s s' : GrpcStream} (h : s.Steady) (hq : Quiet s s') : s'.Steady := by
  constructor
  · rw [hq.accounts, hq.keys]
    exact h.keys
  · rw [hq.profile, hq.supervisor]
    exact h.alive
  · rw [hq.profile, hq.supervisor]
    exact h.spawned
  · rw [hq.supervisor, hq.changed, hq.keys]
    exact h.waiting
  · rw [hq.supervisor, hq.changed, hq.profile, hq.keys]
    exact h.starting

theorem streams_iff {s : GrpcStream} {a : Pubkey} :
    s.Streams a ↔ ∃ (i : ℕ) (p : Finset Pubkey × Bool), s.profile[i]? = some p ∧ p.2 = true ∧
      a ∈ p.1 := by
  unfold Streams profile
  constructor
  · rintro ⟨i, t, ht, hlive, ha⟩
    exact ⟨i, (t.accounts, t.live), by rw [List.getElem?_map, ht]; rfl, hlive, ha⟩
  · rintro ⟨i, p, hp, hlive, ha⟩
    rw [List.getElem?_map] at hp
    obtain ⟨t, ht, rfl⟩ := Option.map_eq_some_iff.mp hp
    exact ⟨i, t, ht, hlive, ha⟩

theorem Converged.quiet {s s' : GrpcStream} (h : s.Converged) (hq : Quiet s s') :
    s'.Converged := by
  intro hsettled a
  rw [streams_iff, hq.profile, hq.keys, ← streams_iff]
  apply h
  rwa [Settled, ← hq.changed, ← hq.supervisor]

/-- One task is alive. -/
theorem Steady.streams_idle {s : GrpcStream} (h : s.Steady) {current : ℕ}
    (hidle : s.supervisor = .idle current) {p : Finset Pubkey × Bool}
    (hp : s.profile[current]? = some p) {a : Pubkey} : s.Streams a ↔ a ∈ p.1 := by
  rw [streams_iff]
  constructor
  · rintro ⟨i, q, hq, hlive, ha⟩
    have hmem := (h.alive i q hq).mp hlive
    rw [hidle, Supervisor.alive, List.mem_singleton] at hmem
    subst hmem
    rw [hp, Option.some.injEq] at hq
    rwa [hq]
  · intro ha
    refine ⟨current, p, hp, (h.alive current p hp).mpr ?_, ha⟩
    rw [hidle]
    exact List.mem_singleton_self current

/-- The accounts of the task that is alive are to be those of the handle. -/
theorem Steady.converged_idle_iff {s : GrpcStream} (h : s.Steady) {current : ℕ}
    (hidle : s.supervisor = .idle current) {p : Finset Pubkey × Bool}
    (hp : s.profile[current]? = some p) :
    s.Converged ↔ (s.changed = false → p.1 = s.keys) := by
  constructor
  · intro hconverged hchanged
    ext a
    rw [← h.streams_idle hidle hp]
    exact hconverged ⟨hchanged, .inr ⟨current, hidle⟩⟩ a
  · intro haccounts hsettled a
    rw [h.streams_idle hidle hp, haccounts hsettled.1]

/-- Nothing is streamed before the first change. -/
theorem Steady.converged_waiting {s : GrpcStream} (h : s.Steady)
    (hwaiting : s.supervisor = .waiting) : s.Converged := by
  intro hsettled a
  rw [streams_iff, h.waiting hwaiting hsettled.1]
  constructor
  · rintro ⟨i, p, hp, hlive, -⟩
    have hmem := (h.alive i p hp).mp hlive
    rw [hwaiting] at hmem
    contradiction
  · intro ha
    contradiction

/-! ## The handle -/

/-- A traversal that reports no change has made none. -/
theorem foldl_unchanged (f : Finset Pubkey → Pubkey → Finset Pubkey)
    (g : Finset Pubkey → Pubkey → Bool) (hfg : ∀ keys a, g keys a = false → f keys a = keys)
    (requests : List Pubkey) (r : Finset Pubkey × Bool)
    (h : (requests.foldl (fun r a => (f r.1 a, r.2 || g r.1 a)) r).2 = false) :
    (requests.foldl (fun r a => (f r.1 a, r.2 || g r.1 a)) r).1 = r.1 ∧ r.2 = false := by
  induction requests generalizing r with
  | nil => exact ⟨rfl, h⟩
  | cons a requests ih =>
    rw [List.foldl_cons] at h ⊢
    obtain ⟨hkeys, hflag⟩ := ih _ h
    rw [Bool.or_eq_false_iff] at hflag
    exact ⟨hkeys.trans (hfg r.1 a hflag.2), hflag.1⟩

/-- The accounts of the handle are sent on whenever they change. -/
theorem setKeys_cases {s : GrpcStream} {r : Finset Pubkey × Bool}
    (hr : r.2 = false → r.1 = s.keys) :
    s.setKeys r = s ∨ s.setKeys r = { s with keys := r.1, accounts := r.1, changed := true } := by
  unfold setKeys
  cases hflag : r.2 with
  | false =>
    left
    rw [if_neg Bool.false_ne_true, hr hflag]
  | true =>
    right
    rw [if_pos rfl]

theorem watchAccounts_cases (s : GrpcStream) (requests : List Pubkey) :
    s.watchAccounts requests = s ∨ ∃ keys, s.watchAccounts requests =
      { s with keys := keys, accounts := keys, changed := true } := by
  have hcases := setKeys_cases (s := s) (r := requests.foldl
    (fun r req => (insert req r.1, r.2 || decide (req ∉ r.1))) (s.keys, false)) ?_
  · exact hcases.imp_right fun h => ⟨_, h⟩
  · intro hflag
    refine (foldl_unchanged (fun keys a => insert a keys) (fun keys a => decide (a ∉ keys)) ?_
      requests _ hflag).1
    intro keys a ha
    exact Finset.insert_eq_of_mem (by simpa using ha)

theorem dropAccounts_cases (s : GrpcStream) (requests : List Pubkey) :
    s.dropAccounts requests = s ∨ ∃ keys, s.dropAccounts requests =
      { s with keys := keys, accounts := keys, changed := true } := by
  have hcases := setKeys_cases (s := s) (r := requests.foldl
    (fun r req => (r.1.erase req, r.2 || decide (req ∈ r.1))) (s.keys, false)) ?_
  · exact hcases.imp_right fun h => ⟨_, h⟩
  · intro hflag
    refine (foldl_unchanged (fun keys a => keys.erase a) (fun keys a => decide (a ∈ keys)) ?_
      requests _ hflag).1
    intro keys a ha
    exact Finset.erase_eq_of_notMem (by simpa using ha)

/-- A change of the accounts is not settled. -/
theorem Steady.change {s : GrpcStream} (h : s.Steady) (keys : Finset Pubkey) :
    Steady { s with keys := keys, accounts := keys, changed := true } ∧
      Converged { s with keys := keys, accounts := keys, changed := true } := by
  refine ⟨⟨rfl, h.alive, h.spawned, ?_, ?_⟩, ?_⟩
  · intro _ hchanged
    contradiction
  · intro current replacement hstarting
    refine ⟨(h.starting current replacement hstarting).1, ?_⟩
    intro hchanged
    contradiction
  · intro hsettled
    have := hsettled.1
    contradiction

/-! ## The supervising task -/

theorem profile_spawn (s : GrpcStream) (p : Supervisor) :
    (s.spawn p).profile = s.profile ++ [(s.accounts, true)] := by
  simp [spawn, profile]

theorem profile_length (s : GrpcStream) : s.profile.length = s.tasks.length := by
  simp [profile]

theorem profile_abort (s : GrpcStream) (i : ℕ) :
    (s.modifyTask i InnerTask.abort).profile = s.profile.modify i fun p => (p.1, false) := by
  unfold profile
  apply List.ext_getElem?
  intro j
  rw [List.getElem?_map, getElem?_modifyTask, List.getElem?_modify, List.getElem?_map,
    Option.map_map, Option.map_eq_map, Option.map_map]
  apply congrFun
  congr 1
  funext t
  by_cases hij : i = j
  · simp [hij, InnerTask.abort]
  · simp [hij]

/-- A new task is the last one, and alive. -/
theorem Steady.spawn {s : GrpcStream} (h : s.Steady) {p : Supervisor}
    (hp : p.alive = s.supervisor.alive ++ [s.tasks.length]) (hwaiting : p ≠ .waiting)
    (hstarting : ∀ current replacement, p = .starting current replacement →
      current < s.tasks.length ∧ replacement = s.tasks.length) : (s.spawn p).Steady := by
  have hmem : ∀ (i : ℕ) q, (s.profile ++ [(s.accounts, true)])[i]? = some q →
      s.profile[i]? = some q ∧ i < s.tasks.length ∨
        i = s.tasks.length ∧ q = (s.accounts, true) := by
    intro i q hq
    rw [← s.profile_length]
    rw [List.getElem?_append] at hq
    split_ifs at hq with hlt
    · exact .inl ⟨hq, hlt⟩
    · obtain ⟨hi, he⟩ := List.getElem?_eq_some_iff.mp hq
      have hlast : i - s.profile.length < 1 := hi
      exact .inr ⟨by omega, by simpa using he.symm⟩
  refine ⟨h.keys, ?_, ?_, ?_, ?_⟩
  · intro i q hq
    rw [profile_spawn] at hq
    change q.2 = true ↔ i ∈ p.alive
    rw [hp, List.mem_append, List.mem_singleton]
    rcases hmem i q hq with ⟨hold, hlt⟩ | ⟨rfl, rfl⟩
    · rw [h.alive i q hold]
      simp [hlt.ne]
    · simp
  · intro i hi
    rw [profile_spawn, List.length_append, List.length_singleton, profile_length]
    change i ∈ p.alive at hi
    rw [hp, List.mem_append, List.mem_singleton] at hi
    rcases hi with hold | rfl
    · have := h.spawned i hold
      rw [profile_length] at this
      omega
    · omega
  · intro hw
    exact absurd hw hwaiting
  · intro current replacement hs
    obtain ⟨hlt, rfl⟩ := hstarting current replacement hs
    refine ⟨hlt.ne, ?_⟩
    intro _ q hq
    rw [profile_spawn] at hq
    rcases hmem _ q hq with ⟨-, hlt'⟩ | ⟨-, rfl⟩
    · omega
    · exact h.keys

/-- One of two tasks is aborted, and the other goes on. -/
theorem Steady.abort {s : GrpcStream} (h : s.Steady) {kept aborted : ℕ}
    (hmem : ∀ i, i ∈ s.supervisor.alive ↔ i = kept ∨ i = aborted) (hne : kept ≠ aborted) :
    Steady { s.modifyTask aborted InnerTask.abort with supervisor := .idle kept } := by
  refine ⟨h.keys, ?_, ?_, ?_, ?_⟩
  · intro i p hp
    change (s.modifyTask aborted InnerTask.abort).profile[i]? = some p at hp
    change p.2 = true ↔ i ∈ [kept]
    rw [profile_abort, List.getElem?_modify] at hp
    obtain ⟨q, hq, rfl⟩ := Option.map_eq_some_iff.mp hp
    rw [List.mem_singleton]
    by_cases hi : aborted = i
    · subst hi
      simp [Ne.symm hne]
    · rw [if_neg hi, h.alive i q hq, hmem i]
      simp [Ne.symm hi]
  · intro i hi
    change i ∈ [kept] at hi
    change i < (s.modifyTask aborted InnerTask.abort).profile.length
    rw [profile_abort, List.length_modify]
    rw [List.mem_singleton] at hi
    exact h.spawned i ((hmem i).mpr (.inl hi))
  · intro hw
    contradiction
  · intro current replacement hs
    contradiction

/-- The task that goes on is to have the accounts of the handle. -/
theorem Steady.abort_converged_iff {s : GrpcStream} (h : s.Steady) {kept aborted : ℕ}
    (hmem : ∀ i, i ∈ s.supervisor.alive ↔ i = kept ∨ i = aborted) (hne : kept ≠ aborted) :
    Converged { s.modifyTask aborted InnerTask.abort with supervisor := .idle kept } ↔
      (s.changed = false → ∀ p, s.profile[kept]? = some p → p.1 = s.keys) := by
  have hlt := h.spawned kept ((hmem kept).mpr (.inl rfl))
  have hget : s.profile[kept]? = some s.profile[kept] := List.getElem?_eq_getElem hlt
  have hkept : (s.modifyTask aborted InnerTask.abort).profile[kept]? = some s.profile[kept] := by
    rw [profile_abort, List.getElem?_modify_ne _ _ (Ne.symm hne), hget]
  rw [(h.abort hmem hne).converged_idle_iff rfl hkept]
  constructor
  · intro haccounts hchanged p hp
    rw [hget, Option.some.injEq] at hp
    rw [← hp]
    exact haccounts hchanged
  · intro haccounts hchanged
    exact haccounts hchanged _ hget

theorem Steady.tasks_lt {s : GrpcStream} (h : s.Steady) {i : ℕ}
    (hi : i ∈ s.supervisor.alive) : i < s.tasks.length := by
  rw [← s.profile_length]
  exact h.spawned i hi

/-- Where the supervising task goes on it keeps the stream converged: what it ends up with is a
task with the accounts last sent. -/
theorem Steady.supervise {s : GrpcStream} (h : s.Steady) (hconverged : s.Converged) :
    s.supervise.Steady ∧ s.supervise.Converged := by
  unfold GrpcStream.supervise
  cases hp : s.supervisor with
  | waiting =>
    dsimp only
    by_cases hchanged : s.changed = true
    · rw [if_pos hchanged]
      have hsteady : (s.spawn (.idle s.tasks.length)).Steady := by
        apply h.spawn
        · rw [hp]
          rfl
        · simp
        · simp
      refine ⟨hsteady, (hsteady.converged_idle_iff rfl (p := (s.accounts, true)) ?_).mpr ?_⟩
      · rw [profile_spawn, ← s.profile_length]
        exact List.getElem?_concat_length
      · exact fun _ => h.keys
    · rw [if_neg hchanged]
      exact ⟨h, hconverged⟩
  | idle current =>
    dsimp only
    by_cases hchanged : s.changed = true
    · rw [if_pos hchanged]
      refine ⟨⟨h.keys, ?_, ?_, ?_, ?_⟩, ?_⟩
      · have halive := h.alive
        rw [hp] at halive
        exact halive
      · have hspawned := h.spawned
        rw [hp] at hspawned
        exact hspawned
      · intro hw
        contradiction
      · intro c r hs
        contradiction
      · rintro ⟨-, hw | ⟨c, hc⟩⟩
        · contradiction
        · contradiction
    · rw [if_neg hchanged]
      exact ⟨h, hconverged⟩
  | resetting current =>
    dsimp only
    refine ⟨h.spawn ?_ ?_ ?_, ?_⟩
    · rw [hp]
      rfl
    · simp
    · intro c r hs
      obtain ⟨rfl, rfl⟩ := Supervisor.starting.inj hs
      refine ⟨h.tasks_lt ?_, rfl⟩
      rw [hp]
      exact List.mem_singleton_self current
    · rintro ⟨-, hw | ⟨c, hc⟩⟩
      · contradiction
      · contradiction
  | starting current replacement =>
    dsimp only
    by_cases hstarted : s.hasStarted replacement = true
    · rw [if_pos hstarted]
      obtain ⟨hne, haccounts⟩ := h.starting current replacement hp
      have hmem : ∀ i, i ∈ s.supervisor.alive ↔ i = replacement ∨ i = current := by
        intro i
        rw [hp]
        simp [Supervisor.alive, or_comm]
      exact ⟨h.abort hmem hne.symm, (h.abort_converged_iff hmem hne.symm).mpr haccounts⟩
    · rw [if_neg hstarted]
      exact ⟨h, hconverged⟩

/-- Without a replacement to wait for nothing is given up. -/
theorem keepsAccounts_of_not_starting {s : GrpcStream}
    (h : ∀ current replacement, s.supervisor ≠ .starting current replacement) (e : StreamEvent) :
    s.KeepsAccounts e := by
  intro _ current replacement hstarting
  exact absurd hstarting (h current replacement)

/-- A timeout keeps the stream converged exactly when the task that goes on has the accounts of
the handle. -/
theorem Steady.timeout {s : GrpcStream} (h : s.Steady) (hconverged : s.Converged) :
    s.timeout.Steady ∧ (s.timeout.Converged ↔ s.KeepsAccounts .timeout) := by
  unfold GrpcStream.timeout
  cases hp : s.supervisor with
  | waiting =>
    exact ⟨h, iff_of_true hconverged (keepsAccounts_of_not_starting (by simp [hp]) _)⟩
  | idle current =>
    exact ⟨h, iff_of_true hconverged (keepsAccounts_of_not_starting (by simp [hp]) _)⟩
  | resetting current =>
    exact ⟨h, iff_of_true hconverged (keepsAccounts_of_not_starting (by simp [hp]) _)⟩
  | starting current replacement =>
    dsimp only
    by_cases hstarted : s.hasStarted replacement = true
    · rw [if_pos hstarted]
      refine ⟨h, iff_of_true hconverged ?_⟩
      intro _ c r hs hnot
      obtain ⟨rfl, rfl⟩ := Supervisor.starting.inj (hp.symm.trans hs)
      rw [hstarted] at hnot
      contradiction
    · rw [if_neg hstarted]
      have hne := (h.starting current replacement hp).1
      have hmem : ∀ i, i ∈ s.supervisor.alive ↔ i = current ∨ i = replacement := by
        intro i
        rw [hp]
        simp [Supervisor.alive]
      refine ⟨h.abort hmem hne, (h.abort_converged_iff hmem hne).trans ?_⟩
      constructor
      · intro haccounts _ c r hs _ hchanged t ht
        obtain ⟨rfl, rfl⟩ := Supervisor.starting.inj (hp.symm.trans hs)
        apply haccounts hchanged (t.accounts, t.live)
        rw [profile, List.getElem?_map, ht]
        rfl
      · intro hkeeps hchanged p hget
        rw [profile, List.getElem?_map] at hget
        obtain ⟨t, ht, rfl⟩ := Option.map_eq_some_iff.mp hget
        exact hkeeps rfl current replacement hp (by simpa using hstarted) hchanged t ht

/-- A step keeps the stream converged exactly when it does not give up a replacement whose
accounts are still those of the handle. -/
theorem Steady.step {s : GrpcStream} (h : s.Steady) (hconverged : s.Converged) (e : StreamEvent) :
    (s.step e).Steady ∧ ((s.step e).Converged ↔ s.KeepsAccounts e) := by
  have hquiet : ∀ s', Quiet s s' → e ≠ .timeout → s'.Steady ∧ (s'.Converged ↔ s.KeepsAccounts e) :=
    fun s' hq he => ⟨h.quiet hq, iff_of_true (hconverged.quiet hq) fun h => absurd h he⟩
  have hhandle : ∀ s', (s' = s ∨ ∃ keys, s' =
      { s with keys := keys, accounts := keys, changed := true }) → e ≠ .timeout →
      s'.Steady ∧ (s'.Converged ↔ s.KeepsAccounts e) := by
    rintro s' (rfl | ⟨keys, rfl⟩) he
    · exact hquiet s' (Quiet.refl s') he
    · exact ⟨(h.change keys).1, iff_of_true (h.change keys).2 fun h => absurd h he⟩
  cases e with
  | watchAccounts requests => exact hhandle _ (s.watchAccounts_cases requests) (by simp)
  | dropAccounts requests => exact hhandle _ (s.dropAccounts_cases requests) (by simp)
  | supervise =>
    have hsupervise := h.supervise hconverged
    exact ⟨hsupervise.1, iff_of_true hsupervise.2 fun h => by simp at h⟩
  | timeout => exact h.timeout hconverged
  | connect i => exact hquiet _ (Quiet.modifyTask s i connect_frame) (by simp)
  | disconnect i => exact hquiet _ (Quiet.modifyTask s i fun t => ⟨rfl, rfl⟩) (by simp)
  | transaction signature mentions converts =>
    exact hquiet _ (s.quiet_transaction signature mentions converts) (by simp)
  | message i m => exact hquiet _ (s.quiet_message i m) (by simp)
  | handle i => exact hquiet _ (s.quiet_handle i) (by simp)

/-- In every run the accounts that are streamed are those of the handle once the last change is
processed exactly when no wait for a replacement ends without it, unless there is a later change
or the task that goes on has the accounts of the handle. -/
theorem converged_along_iff (es : List StreamEvent) :
    Visits step Converged init es ↔ Along step KeepsAccounts init es := by
  have hiff : ∀ (s : GrpcStream) (e : StreamEvent), s.Steady ∧ s.Converged →
      ((s.step e).Converged ↔ s.KeepsAccounts e) := fun s e h => (h.1.step h.2 e).2
  apply along_iff_along _ hiff
  · exact ⟨init_steady, init_steady.converged_waiting rfl⟩
  · intro s e h hconverged
    exact ⟨(h.1.step h.2 e).1, hconverged⟩

/-- After the only account is dropped, its task goes on streaming it. -/
theorem not_converged_drop_last :
    ¬ (exec step init [.watchAccounts [7], .supervise, .connect 0, .dropAccounts [7], .supervise,
      .supervise, .timeout]).Converged := by
  intro hconverged
  have hstreams := (hconverged ⟨rfl, .inr ⟨0, rfl⟩⟩ 7).mp ⟨0, _, rfl, rfl, by decide⟩
  contradiction

/-! ## A replacement without accounts -/

/-- A task without accounts has neither a subscription nor messages, and is never notified. -/
def Inert (t : InnerTask) : Prop :=
  t.accounts = ∅ → t.streaming = false ∧ t.inbox = [] ∧ t.hasStarted = false

theorem inert_modifyTask {s : GrpcStream} (h : ∀ t ∈ s.tasks, Inert t) {i : ℕ}
    {f : InnerTask → InnerTask} (hf : ∀ t, s.tasks[i]? = some t → Inert t → Inert (f t)) :
    ∀ t ∈ (s.modifyTask i f).tasks, Inert t := by
  intro t' ht'
  obtain ⟨j, hj⟩ := List.mem_iff_getElem?.mp ht'
  obtain ⟨t, ht, rfl⟩ := mem_modifyTask hj
  have hinert := h t (List.mem_of_getElem? ht)
  split
  · rename_i hij
    subst hij
    exact hf t ht hinert
  · exact hinert

theorem inert_abort {t : InnerTask} (h : Inert t) : Inert t.abort :=
  fun he => ⟨rfl, rfl, (h he).2.2⟩

theorem inert_spawn {s : GrpcStream} (h : ∀ t ∈ s.tasks, Inert t) (p : Supervisor) :
    ∀ t ∈ (s.spawn p).tasks, Inert t := by
  intro t ht
  rcases List.mem_append.mp ht with hold | hnew
  · exact h t hold
  · rw [List.mem_singleton.mp hnew]
    exact fun _ => ⟨rfl, rfl, rfl⟩

theorem inert_supervise {s : GrpcStream} (h : ∀ t ∈ s.tasks, Inert t) :
    ∀ t ∈ s.supervise.tasks, Inert t := by
  unfold supervise
  cases s.supervisor with
  | waiting =>
    dsimp only
    split
    · exact inert_spawn h _
    · exact h
  | idle current =>
    dsimp only
    split
    · exact h
    · exact h
  | resetting current => exact inert_spawn h _
  | starting current replacement =>
    dsimp only
    split
    · exact inert_modifyTask h fun t _ => inert_abort
    · exact h

theorem inert_handle {s : GrpcStream} (h : ∀ t ∈ s.tasks, Inert t) (i : ℕ) :
    ∀ t ∈ (s.handle i).tasks, Inert t := by
  unfold handle
  cases hhead : (s.tasks[i]?).bind fun t => t.inbox.head? with
  | none => exact h
  | some m =>
    have hpop : ∀ notified, ∀ t ∈ (s.modifyTask i (InnerTask.pop notified)).tasks, Inert t := by
      intro notified
      apply inert_modifyTask h
      intro t ht hinert he
      have hempty := head_of_bind hhead ht
      rw [(hinert he).2.1] at hempty
      contradiction
    cases m with
    | transaction signature converts => exact hpop true
    | update => exact hpop true
    | empty => exact hpop false

theorem inert_step {s : GrpcStream} (h : ∀ t ∈ s.tasks, Inert t) (e : StreamEvent) :
    ∀ t ∈ (s.step e).tasks, Inert t := by
  have hreceive : ∀ m t, Inert t → Inert (t.receive m) := by
    intro m t hinert he
    have hquiet := hinert ((receive_frame m t).1 ▸ he)
    have hsame : t.receive m = t := by simp [InnerTask.receive, hquiet.1]
    rwa [hsame]
  cases e with
  | watchAccounts requests =>
    rcases s.watchAccounts_cases requests with hs | ⟨keys, hs⟩
    · simpa only [step, hs] using h
    · simpa only [step, hs] using h
  | dropAccounts requests =>
    rcases s.dropAccounts_cases requests with hs | ⟨keys, hs⟩
    · simpa only [step, hs] using h
    · simpa only [step, hs] using h
  | supervise => exact inert_supervise h
  | timeout =>
    simp only [step, timeout]
    cases s.supervisor with
    | starting current replacement =>
      dsimp only
      split
      · exact h
      · exact inert_modifyTask h fun t _ => inert_abort
    | waiting => exact h
    | idle current => exact h
    | resetting current => exact h
  | connect i =>
    apply inert_modifyTask h
    intro t _ hinert he
    have haccounts : t.accounts = ∅ := (connect_frame t).1 ▸ he
    have hsame : t.connect = t := by simp [InnerTask.connect, haccounts]
    rw [hsame]
    exact hinert haccounts
  | disconnect i =>
    apply inert_modifyTask h
    intro t _ hinert he
    exact ⟨rfl, rfl, (hinert he).2.2⟩
  | transaction signature mentions converts =>
    simp only [step, transaction]
    split
    · exact h
    · intro t' ht'
      obtain ⟨t, ht, rfl⟩ := List.mem_map.mp ht'
      split
      · rename_i hreceives
        intro he
        rw [InnerTask.receives, Bool.and_eq_true, ((h t ht) he).1] at hreceives
        exact absurd hreceives.1 Bool.false_ne_true
      · exact h t ht
  | message i m =>
    simp only [step, message]
    cases m with
    | transaction signature converts => exact h
    | update => exact inert_modifyTask h fun t _ => hreceive _ t
    | empty => exact inert_modifyTask h fun t _ => hreceive _ t
  | handle i => exact inert_handle h i

/-- A replacement without accounts is never notified, so the wait for it always ends in a
timeout. -/
theorem not_hasStarted_of_empty (es : List StreamEvent) {i : ℕ} {t : InnerTask}
    (ht : (exec step init es).tasks[i]? = some t) (he : t.accounts = ∅) :
    (exec step init es).hasStarted i = false := by
  have hinit : ∀ t ∈ init.tasks, Inert t := fun t ht => absurd ht List.not_mem_nil
  have hrun : ∀ t ∈ (exec step init es).tasks, Inert t :=
    exec_preserves (I := fun s : GrpcStream => ∀ t ∈ s.tasks, Inert t)
      (fun s e h => inert_step h e) es hinit
  simp only [hasStarted, ht]
  exact (hrun t (List.mem_of_getElem? ht) he).2.2

end Biscuit.Wire.GrpcStream
