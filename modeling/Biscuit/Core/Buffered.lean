import Biscuit.Core.Tally
import Biscuit.Core.Variant

/-!
# Ordered results of concurrent tasks

A task is started for each input of a stream, with at most so many under way at once. The tasks
share a state and take their steps in any order; their results come out in the order of the
inputs, and the first result that stops the stream drops what is left of it. A task that panics
does not wait for its turn: it unwinds the stream.
-/

namespace Biscuit

variable {σ α ι τ ρ : Type*}

/-- An item that is replaced by one of the same image leaves the images as they are. -/
theorem map_set_eq {α β : Type*} {f : α → β} {items : List α} {i : ℕ} {a b : α}
    (h : items[i]? = some a) (hf : f b = f a) : (items.set i b).map f = items.map f := by
  induction items generalizing i with
  | nil => rfl
  | cons c items ih =>
    cases i with
    | zero =>
      obtain rfl : c = a := by simpa using h
      simp [hf]
    | succ i =>
      have hrest := ih (by simpa using h)
      simp only [List.set_cons_succ, List.map_cons, hrest]

theorem tally_const {α : Type*} (n : ℕ) (items : List α) :
    tally (fun _ => n) items = n * items.length := by
  induction items with
  | nil => rfl
  | cons a items ih => rw [tally_cons, ih, List.length_cons, Nat.mul_succ, Nat.add_comm]

/-- How a task starts and what one step of it does, with an answer from outside; which results
stop the stream where they come out, and which of these unwind it as soon as a task has them. -/
structure TaskSystem (σ α ι τ ρ : Type*) where
  start : ι → τ
  work : σ → α → ι → τ → σ × (τ ⊕ ρ)
  stops : ρ → Bool
  unwinds : ρ → Bool
  stops_of_unwinds : ∀ r, unwinds r = true → stops r = true

/-- The shared state, the inputs that wait, the tasks under way in the order of their inputs, each
with its result once it has one, and the results that came out. -/
structure Buffered (σ ι τ ρ : Type*) where
  shared : σ
  waiting : List ι
  window : List (ι × (τ ⊕ ρ))
  yielded : List (ι × ρ)

/-- One step of a stream. -/
inductive BufferedEvent (α : Type*)
  /-- A task is started for the next input. -/
  | start
  /-- A task under way gets an answer. -/
  | work (i : ℕ) (answer : α)
  /-- The oldest result comes out. -/
  | yield

namespace Buffered

variable (sys : TaskSystem σ α ι τ ρ) (limit : ℕ)

/-- A stream before its first step. -/
def init (shared : σ) (inputs : List ι) : Buffered σ ι τ ρ := ⟨shared, inputs, [], []⟩

/-- The step function of a stream. -/
def step (s : Buffered σ ι τ ρ) : BufferedEvent α → Buffered σ ι τ ρ
  | .start =>
    match s.waiting with
    | x :: waiting =>
      if s.window.length < limit then
        { s with waiting, window := s.window ++ [(x, .inl (sys.start x))] }
      else s
    | [] => s
  | .work i answer =>
    match s.window[i]? with
    | some (x, .inl t) =>
      match sys.work s.shared answer x t with
      | (shared, .inl t) => { s with shared, window := s.window.set i (x, .inl t) }
      | (shared, .inr r) =>
        if sys.unwinds r then ⟨shared, [], [], s.yielded ++ [(x, r)]⟩
        else { s with shared, window := s.window.set i (x, .inr r) }
    | _ => s
  | .yield =>
    match s.window with
    | (x, .inr r) :: window =>
      if sys.stops r then
        { s with waiting := [], window := [], yielded := s.yielded ++ [(x, r)] }
      else { s with window, yielded := s.yielded ++ [(x, r)] }
    | _ => s

/-- Nothing is left to do. -/
def Done (s : Buffered σ ι τ ρ) : Prop := s.waiting = [] ∧ s.window = []

/-- What one step does, if it does anything. -/
inductive Steps : Buffered σ ι τ ρ → BufferedEvent α → Buffered σ ι τ ρ → Prop
  | start {s : Buffered σ ι τ ρ} {x : ι} {waiting : List ι} (hwaiting : s.waiting = x :: waiting)
      (hroom : s.window.length < limit) :
      Steps s .start { s with waiting, window := s.window ++ [(x, .inl (sys.start x))] }
  | work {s : Buffered σ ι τ ρ} {i : ℕ} {answer : α} {x : ι} {t : τ}
      {shared : σ} {next : τ ⊕ ρ} (htask : s.window[i]? = some (x, .inl t))
      (hwork : sys.work s.shared answer x t = (shared, next)) :
      Steps s (.work i answer) { s with shared, window := s.window.set i (x, next) }
  | unwind {s : Buffered σ ι τ ρ} {i : ℕ} {answer : α} {x : ι} {t : τ} {shared : σ} {r : ρ}
      (htask : s.window[i]? = some (x, .inl t))
      (hwork : sys.work s.shared answer x t = (shared, .inr r)) (hunwinds : sys.unwinds r = true) :
      Steps s (.work i answer) ⟨shared, [], [], s.yielded ++ [(x, r)]⟩
  | stop {s : Buffered σ ι τ ρ} {x : ι} {r : ρ} {window : List (ι × (τ ⊕ ρ))}
      (hwindow : s.window = (x, .inr r) :: window) (hstops : sys.stops r = true) :
      Steps s .yield { s with waiting := [], window := [], yielded := s.yielded ++ [(x, r)] }
  | yield {s : Buffered σ ι τ ρ} {x : ι} {r : ρ} {window : List (ι × (τ ⊕ ρ))}
      (hwindow : s.window = (x, .inr r) :: window) (hstops : sys.stops r = false) :
      Steps s .yield { s with window, yielded := s.yielded ++ [(x, r)] }

/-- A step that does something. -/
def works (s : Buffered σ ι τ ρ) : BufferedEvent α → Bool
  | .start => !s.waiting.isEmpty && decide (s.window.length < limit)
  | .work i _ =>
    match s.window[i]? with
    | some (_, .inl _) => true
    | _ => false
  | .yield =>
    match s.window with
    | (_, .inr _) :: _ => true
    | _ => false

variable {sys limit}

theorem steps_of_works {s : Buffered σ ι τ ρ} {e : BufferedEvent α} (h : s.works limit e = true) :
    Steps sys limit s e (s.step sys limit e) := by
  cases e with
  | start =>
    cases hwaiting : s.waiting with
    | nil => simp [works, hwaiting] at h
    | cons x waiting =>
      have hroom : s.window.length < limit := by simpa [works, hwaiting] using h
      simp only [step, hwaiting, if_pos hroom]
      exact .start hwaiting hroom
  | work i answer =>
    cases htask : s.window[i]? with
    | none => simp [works, htask] at h
    | some task =>
      obtain ⟨x, t | r⟩ := task
      · simp only [step, htask]
        rcases hwork : sys.work s.shared answer x t with ⟨shared, t' | r⟩
        · exact .work htask hwork
        · cases hunwinds : sys.unwinds r with
          | true =>
            simp only [hunwinds, if_true]
            exact .unwind htask hwork hunwinds
          | false =>
            simp only [hunwinds, Bool.false_eq_true, if_false]
            exact .work htask hwork
      · simp [works, htask] at h
  | yield =>
    cases hwindow : s.window with
    | nil => simp [works, hwindow] at h
    | cons task window =>
      obtain ⟨x, t | r⟩ := task
      · simp [works, hwindow] at h
      · simp only [step, hwindow]
        cases hstops : sys.stops r with
        | true => exact .stop hwindow hstops
        | false => exact .yield hwindow hstops

theorem step_of_not_works {s : Buffered σ ι τ ρ} {e : BufferedEvent α}
    (h : s.works limit e = false) : s.step sys limit e = s := by
  cases e with
  | start =>
    cases hwaiting : s.waiting with
    | nil => simp only [step, hwaiting]
    | cons x waiting =>
      have hroom : ¬ s.window.length < limit := by simpa [works, hwaiting] using h
      simp only [step, hwaiting, if_neg hroom]
  | work i answer =>
    cases htask : s.window[i]? with
    | none => simp only [step, htask]
    | some task =>
      obtain ⟨x, t | r⟩ := task
      · simp [works, htask] at h
      · simp only [step, htask]
  | yield =>
    cases hwindow : s.window with
    | nil => simp only [step, hwindow]
    | cons task window =>
      obtain ⟨x, t | r⟩ := task
      · simp only [step, hwindow]
      · simp [works, hwindow] at h

theorem step_cases (s : Buffered σ ι τ ρ) (e : BufferedEvent α) :
    s.step sys limit e = s ∨ Steps sys limit s e (s.step sys limit e) := by
  cases h : s.works limit e with
  | false => exact .inl (step_of_not_works h)
  | true => exact .inr (steps_of_works h)

/-! ## Order -/

/-- Inputs neither get lost nor change places, and all results let the stream go on. -/
structure Running (sys : TaskSystem σ α ι τ ρ) (inputs : List ι) (s : Buffered σ ι τ ρ) :
    Prop where
  inputs : s.yielded.map Prod.fst ++ s.window.map Prod.fst ++ s.waiting = inputs
  goesOn : ∀ y ∈ s.yielded, sys.stops y.2 = false

/-- A stream that a result stopped: only one that unwinds it passes over inputs before its own. -/
def StoppedAt (sys : TaskSystem σ α ι τ ρ) (inputs : List ι) (yielded : List (ι × ρ)) : Prop :=
  ∃ before passed x r rest, yielded = before ++ [(x, r)] ∧ sys.stops r = true ∧
    (∀ y ∈ before, sys.stops y.2 = false) ∧
    inputs = before.map Prod.fst ++ passed ++ x :: rest ∧ (sys.unwinds r = false → passed = [])

/-- The last result stopped the stream, and nothing is left of it. -/
structure Stopped (sys : TaskSystem σ α ι τ ρ) (inputs : List ι) (s : Buffered σ ι τ ρ) :
    Prop where
  done : s.Done
  last : StoppedAt sys inputs s.yielded

/-- The tasks under way are within the limit, and the stream is in order. -/
structure Ordered (sys : TaskSystem σ α ι τ ρ) (limit : ℕ) (inputs : List ι)
    (s : Buffered σ ι τ ρ) : Prop where
  room : s.window.length ≤ limit
  order : Running sys inputs s ∨ Stopped sys inputs s

theorem ordered_init (shared : σ) (inputs : List ι) :
    Ordered sys limit inputs (init shared inputs : Buffered σ ι τ ρ) :=
  ⟨Nat.zero_le _, .inl ⟨rfl, fun _ hy => absurd hy List.not_mem_nil⟩⟩

theorem ordered_step {inputs : List ι} {s : Buffered σ ι τ ρ} (e : BufferedEvent α)
    (h : Ordered sys limit inputs s) : Ordered sys limit inputs (s.step sys limit e) := by
  have hcases : s.step sys limit e = s ∨ Steps sys limit s e (s.step sys limit e) :=
    step_cases s e
  obtain heq | hsteps := hcases
  · rwa [heq]
  · generalize s.step sys limit e = s' at hsteps
    -- a stream that has stopped takes no steps
    have hrunning : Running sys inputs s := by
      refine h.order.resolve_right fun hstopped => ?_
      obtain ⟨hwaiting', hwindow'⟩ := hstopped.done
      cases hsteps with
      | start hwaiting _ => simp [hwaiting'] at hwaiting
      | work htask _ => simp [hwindow'] at htask
      | unwind htask _ _ => simp [hwindow'] at htask
      | stop hwindow _ => simp [hwindow'] at hwindow
      | yield hwindow _ => simp [hwindow'] at hwindow
    have hroom := h.room
    have hinputs := hrunning.inputs
    cases hsteps with
    | @start x waiting hwaiting hlt =>
      refine ⟨?_, .inl ⟨?_, hrunning.goesOn⟩⟩
      · rw [List.length_append, List.length_singleton]
        exact hlt
      · rw [hwaiting] at hinputs
        simpa using hinputs
    | @work i answer x t shared next htask _ =>
      refine ⟨?_, .inl ⟨?_, hrunning.goesOn⟩⟩
      · rwa [List.length_set]
      · have hsame : (s.window.set i (x, next)).map Prod.fst = s.window.map Prod.fst :=
          map_set_eq htask rfl
        simp only [hsame]
        exact hinputs
    | @unwind i answer x t shared r htask _ hunwinds =>
      -- the tasks before the one that unwinds are passed over
      obtain ⟨passed, later, hwindow⟩ := List.append_of_mem (List.mem_of_getElem? htask)
      refine ⟨Nat.zero_le _, .inr ⟨⟨rfl, rfl⟩, s.yielded, passed.map Prod.fst, x, r,
        later.map Prod.fst ++ s.waiting, rfl, sys.stops_of_unwinds r hunwinds, hrunning.goesOn,
        ?_, fun hfalse => ?_⟩⟩
      · rw [hwindow] at hinputs
        simpa using hinputs.symm
      · rw [hunwinds] at hfalse
        cases hfalse
    | @stop x r window hwindow hstops =>
      refine ⟨Nat.zero_le _, .inr ⟨⟨rfl, rfl⟩, s.yielded, [], x, r,
        window.map Prod.fst ++ s.waiting, rfl, hstops, hrunning.goesOn, ?_, fun _ => rfl⟩⟩
      rw [hwindow] at hinputs
      simpa using hinputs.symm
    | @yield x r window hwindow hstops =>
      rw [hwindow] at hroom hinputs
      refine ⟨Nat.le_of_succ_le hroom, .inl ⟨?_, ?_⟩⟩
      · simpa using hinputs
      · intro y hy
        rcases List.mem_append.mp hy with hy | hy
        · exact hrunning.goesOn y hy
        · obtain rfl := List.mem_singleton.mp hy
          exact hstops

/-- Whatever order the tasks take, a stream stays in order. -/
theorem ordered_exec (shared : σ) (inputs : List ι) (events : List (BufferedEvent α)) :
    Ordered sys limit inputs (exec (step sys limit) (init shared inputs) events) :=
  exec_preserves (I := Ordered sys limit inputs) (fun _ e h => ordered_step e h) events
    (ordered_init shared inputs)

/-! ## What the results are -/

/-- What holds of the shared state, of the tasks and of their results. -/
structure Keeps (I : σ → Prop) (T : ι → τ → Prop) (R : ι → ρ → Prop) (s : Buffered σ ι τ ρ) :
    Prop where
  shared : I s.shared
  window : ∀ x task, (x, task) ∈ s.window → Sum.elim (T x) (R x) task
  yielded : ∀ y ∈ s.yielded, R y.1 y.2

/-- An answer that meets a condition on the input and the task it is for. -/
def Answers (A : ι → τ → α → Prop) (s : Buffered σ ι τ ρ) : BufferedEvent α → Prop
  | .work i answer => ∀ x t, s.window[i]? = some (x, .inl t) → A x t answer
  | _ => True

/-- What every step of every task keeps, every run of the stream keeps, in whatever order the tasks
take their steps. -/
theorem keeps_exec {I : σ → Prop} {T : ι → τ → Prop} {R : ι → ρ → Prop} {A : ι → τ → α → Prop}
    (hstart : ∀ x, T x (sys.start x))
    (hwork : ∀ shared answer x t, I shared → T x t → A x t answer →
      I (sys.work shared answer x t).1 ∧
        Sum.elim (T x) (R x) (sys.work shared answer x t).2)
    {s : Buffered σ ι τ ρ} {events : List (BufferedEvent α)} (hs : Keeps I T R s)
    (hanswers : Along (step sys limit) (Answers A) s events) :
    Keeps I T R (exec (step sys limit) s events) := by
  refine exec_invariant (fun s e hs he => ?_) hs hanswers
  have hcases : s.step sys limit e = s ∨ Steps sys limit s e (s.step sys limit e) :=
    step_cases s e
  obtain heq | hsteps := hcases
  · rwa [heq]
  · generalize s.step sys limit e = s' at hsteps
    cases hsteps with
    | @start x waiting hwaiting hlt =>
      refine ⟨hs.shared, fun y task hmem => ?_, hs.yielded⟩
      rcases List.mem_append.mp hmem with hmem | hmem
      · exact hs.window y task hmem
      · obtain ⟨rfl, rfl⟩ := Prod.mk.inj (List.mem_singleton.mp hmem)
        exact hstart y
    | @work i answer x t shared next htask hnext =>
      have hkept := hwork s.shared answer x t hs.shared
        (hs.window x _ (List.mem_of_getElem? htask)) (he x t htask)
      rw [hnext] at hkept
      refine ⟨hkept.1, fun y task hmem => ?_, hs.yielded⟩
      rcases List.mem_or_eq_of_mem_set hmem with hmem | heq
      · exact hs.window y task hmem
      · obtain ⟨rfl, rfl⟩ := Prod.mk.inj heq
        exact hkept.2
    | @unwind i answer x t shared r htask hnext _ =>
      have hkept := hwork s.shared answer x t hs.shared
        (hs.window x _ (List.mem_of_getElem? htask)) (he x t htask)
      rw [hnext] at hkept
      refine ⟨hkept.1, fun _ _ hmem => absurd hmem List.not_mem_nil, fun y hy => ?_⟩
      rcases List.mem_append.mp hy with hy | hy
      · exact hs.yielded y hy
      · obtain rfl := List.mem_singleton.mp hy
        exact hkept.2
    | @stop x r window hwindow hstops =>
      have hr := hs.window x (.inr r) (hwindow ▸ List.mem_cons_self)
      refine ⟨hs.shared, fun _ _ hmem => absurd hmem List.not_mem_nil, fun y hy => ?_⟩
      rcases List.mem_append.mp hy with hy | hy
      · exact hs.yielded y hy
      · obtain rfl := List.mem_singleton.mp hy
        exact hr
    | @yield x r window hwindow hstops =>
      have hr := hs.window x (.inr r) (hwindow ▸ List.mem_cons_self)
      refine ⟨hs.shared, fun y task hmem => ?_, fun y hy => ?_⟩
      · exact hs.window y task (hwindow ▸ List.mem_cons_of_mem _ hmem)
      · rcases List.mem_append.mp hy with hy | hy
        · exact hs.yielded y hy
        · obtain rfl := List.mem_singleton.mp hy
          exact hr

theorem keeps_init {I : σ → Prop} {T : ι → τ → Prop} {R : ι → ρ → Prop} {shared : σ}
    (hshared : I shared) (inputs : List ι) :
    Keeps I T R (init shared inputs : Buffered σ ι τ ρ) :=
  ⟨hshared, fun _ _ hmem => absurd hmem List.not_mem_nil,
    fun _ hy => absurd hy List.not_mem_nil⟩

/-! ## The end of a stream -/

/-- What a task may still take, when a step takes something of its rank. -/
def taskLeft (rank : τ → ℕ) : τ ⊕ ρ → ℕ
  | .inl t => rank t + 2
  | .inr _ => 1

/-- What a stream may still take, when no task starts above a bound. -/
def left (rank : τ → ℕ) (bound : ℕ) (s : Buffered σ ι τ ρ) : ℕ :=
  tally (fun _ => bound + 3) s.waiting + tally (fun task => taskLeft rank task.2) s.window

section Rank

variable {rank : τ → ℕ} {bound : ℕ} (hbound : ∀ x, rank (sys.start x) ≤ bound)
  (hrank : ∀ shared answer x t t', (sys.work shared answer x t).2 = .inl t' → rank t' < rank t)

include hbound hrank in
theorem left_lt_of_works {s : Buffered σ ι τ ρ} {e : BufferedEvent α}
    (h : s.works limit e = true) : (s.step sys limit e).left rank bound < s.left rank bound := by
  have hsteps : Steps sys limit s e (s.step sys limit e) := steps_of_works h
  generalize s.step sys limit e = s' at hsteps
  cases hsteps with
  | @start x waiting hwaiting _ =>
    have := hbound x
    simp only [left, hwaiting, tally_cons, tally_append, tally_nil, taskLeft]
    omega
  | @work i answer x t shared next htask hwork =>
    have hset := tally_set (f := fun task : ι × (τ ⊕ ρ) => taskLeft rank task.2) htask (x, next)
    have hlt : taskLeft rank next < rank t + 2 := by
      cases next with
      | inl t' =>
        have hless := hrank s.shared answer x t t' (by rw [hwork])
        exact Nat.add_lt_add_right hless 2
      | inr r => exact Nat.succ_lt_succ (Nat.succ_pos _)
    simp only [left]
    simp only [taskLeft] at hset hlt ⊢
    omega
  | @unwind i answer x t shared r htask _ _ =>
    have hle := le_tally (f := fun task : ι × (τ ⊕ ρ) => taskLeft rank task.2) htask
    simp only [left, tally_nil, taskLeft] at hle ⊢
    omega
  | @stop x r window hwindow _ =>
    simp only [left, hwindow, tally_nil, tally_cons, taskLeft]
    omega
  | @yield x r window hwindow _ =>
    simp only [left, hwindow, tally_cons, taskLeft]
    omega

include hbound hrank in
/-- The steps of a run that do something are bounded by the number of its inputs. -/
theorem countAlong_works_le (shared : σ) (inputs : List ι) (events : List (BufferedEvent α)) :
    countAlong (step sys limit) (works limit) (init shared inputs) events ≤
      (bound + 3) * inputs.length := by
  have hwork : ∀ (s : Buffered σ ι τ ρ) (e : BufferedEvent α), True →
      (s.works limit e).toNat + (s.step sys limit e).left rank bound ≤ s.left rank bound + 0 := by
    intro s e _
    cases h : s.works limit e with
    | true =>
      have hlt : (s.step sys limit e).left rank bound < s.left rank bound :=
        left_lt_of_works hbound hrank h
      simp only [Bool.toNat_true]
      omega
    | false =>
      rw [step_of_not_works h]
      simp
  have hcount := countAlong_add_le (I := fun _ => True) (fun _ _ _ => trivial) hwork events
    (s := init shared inputs) trivial
  simp only [left, init, tally_const, tally_nil, Nat.zero_mul, Nat.add_zero] at hcount
  exact (Nat.le_add_right _ _).trans hcount

/-- A stream with room for a task is never stuck. -/
theorem exists_works (hlimit : 0 < limit) (answer : α) {s : Buffered σ ι τ ρ} (h : ¬ s.Done) :
    ∃ e : BufferedEvent α, s.works limit e = true ∧ ∀ i a, e = .work i a → a = answer := by
  cases hwindow : s.window with
  | nil =>
    refine ⟨.start, ?_, fun _ _ he => by cases he⟩
    have hwaiting : s.waiting ≠ [] := fun hnil => h ⟨hnil, hwindow⟩
    simp [works, hwindow, hwaiting, hlimit]
  | cons task window =>
    obtain ⟨x, t | r⟩ := task
    · refine ⟨.work 0 answer, by simp [works, hwindow], fun i a he => ?_⟩
      cases he
      rfl
    · exact ⟨.yield, by simp [works, hwindow], fun _ _ he => by cases he⟩

include hbound hrank in
/-- A stream comes to its end, when the tasks get answers. -/
theorem exists_exec_done (hlimit : 0 < limit) (answer : α) (s : Buffered σ ι τ ρ) :
    ∃ events : List (BufferedEvent α), (∀ e ∈ events, ∀ i a, e = .work i a → a = answer) ∧
      (exec (step sys limit) s events).Done := by
  have hgo : ∀ s : Buffered σ ι τ ρ, True → ¬ s.Done → ∃ e : BufferedEvent α,
      (∀ i a, e = .work i a → a = answer) ∧
        (s.step sys limit e).left rank bound < s.left rank bound := by
    intro s _ hs
    obtain ⟨e, hworks, hanswer⟩ := exists_works hlimit answer hs
    exact ⟨e, hanswer, left_lt_of_works hbound hrank hworks⟩
  obtain ⟨events, hanswers, -, hdone⟩ :=
    exists_exec_rest (I := fun _ => True) (fun _ _ _ => trivial) hgo (s := s) trivial
  exact ⟨events, hanswers, hdone⟩

end Rank

/-- At its end a stream has yielded a result for each input in turn, up to the first one that
stops it or unwinds it, if there is one. -/
theorem Ordered.of_done {inputs : List ι} {s : Buffered σ ι τ ρ} (h : Ordered sys limit inputs s)
    (hdone : s.Done) :
    (s.yielded.map Prod.fst = inputs ∧ ∀ y ∈ s.yielded, sys.stops y.2 = false) ∨
      StoppedAt sys inputs s.yielded := by
  obtain hrunning | hstopped := h.order
  · left
    have hinputs := hrunning.inputs
    rw [hdone.1, hdone.2, List.map_nil, List.append_nil, List.append_nil] at hinputs
    exact ⟨hinputs, hrunning.goesOn⟩
  · exact .inr hstopped.last

end Buffered

end Biscuit
