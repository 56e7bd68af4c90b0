import Mathlib.Data.List.Basic

/-!
# Runs of an event system

A system is a total step function on states and events; an event that is not enabled
leaves the state as it is. Invariants are proved for one step and carried along whole
runs here, once.
-/

namespace Biscuit

variable {σ ε : Type*}

/-- The state after a finite list of events. -/
def exec (step : σ → ε → σ) (s : σ) (es : List ε) : σ := es.foldl step s

/-- Every event of the run meets `C` in the state in which it is taken. -/
def Along (step : σ → ε → σ) (C : σ → ε → Prop) : σ → List ε → Prop
  | _, [] => True
  | s, e :: es => C s e ∧ Along step C (step s e) es

/-- Every state of the run after the first one meets `P`. -/
def Visits (step : σ → ε → σ) (P : σ → Prop) : σ → List ε → Prop :=
  Along step fun s e => P (step s e)

variable {step : σ → ε → σ}

instance Along.decidable {C : σ → ε → Prop} [∀ s e, Decidable (C s e)] :
    ∀ (s : σ) (es : List ε), Decidable (Along step C s es)
  | _, [] => isTrue trivial
  | s, e :: es =>
    have := Along.decidable (C := C) (step s e) es
    inferInstanceAs (Decidable (C s e ∧ Along step C (step s e) es))

instance Visits.decidable {P : σ → Prop} [DecidablePred P] (s : σ) (es : List ε) :
    Decidable (Visits step P s es) :=
  inferInstanceAs (Decidable (Along step (fun s e => P (step s e)) s es))

@[simp] theorem exec_nil (s : σ) : exec step s [] = s := rfl

@[simp] theorem exec_cons (s : σ) (e : ε) (es : List ε) :
    exec step s (e :: es) = exec step (step s e) es := rfl

theorem exec_append (s : σ) (es fs : List ε) :
    exec step s (es ++ fs) = exec step (exec step s es) fs :=
  List.foldl_append

theorem Along.mono {C D : σ → ε → Prop} (h : ∀ s e, C s e → D s e) {s : σ} {es : List ε}
    (hs : Along step C s es) : Along step D s es := by
  induction es generalizing s with
  | nil => trivial
  | cons e es ih => exact ⟨h _ _ hs.1, ih hs.2⟩

/-- What every event meets in every state is met along every run. -/
theorem Along.of_forall {C : σ → ε → Prop} (h : ∀ s e, C s e) (s : σ) (es : List ε) :
    Along step C s es := by
  induction es generalizing s with
  | nil => trivial
  | cons e es ih => exact ⟨h s e, ih _⟩

theorem Along.and {C D : σ → ε → Prop} {s : σ} {es : List ε} (hC : Along step C s es)
    (hD : Along step D s es) : Along step (fun s e => C s e ∧ D s e) s es := by
  induction es generalizing s with
  | nil => trivial
  | cons e es ih => exact ⟨⟨hC.1, hD.1⟩, ih hC.2 hD.2⟩

/-- The invariant rule: what every permitted step preserves holds at the end of a run. -/
theorem exec_invariant {C : σ → ε → Prop} {I : σ → Prop}
    (hstep : ∀ s e, I s → C s e → I (step s e)) {s : σ} {es : List ε}
    (hs : I s) (hc : Along step C s es) : I (exec step s es) := by
  induction es generalizing s with
  | nil => exact hs
  | cons e es ih => exact ih (hstep s e hs hc.1) hc.2

/-- The invariant rule for a property that every step preserves. -/
theorem exec_preserves {I : σ → Prop} (hstep : ∀ s e, I s → I (step s e)) {s : σ}
    (es : List ε) (hs : I s) : I (exec step s es) := by
  induction es generalizing s with
  | nil => exact hs
  | cons e es ih => exact ih (hstep s e hs)

/-- A property of states that each step keeps exactly when it meets a condition holds
throughout a run exactly when every step meets it. -/
theorem visits_iff_along {C : σ → ε → Prop} {I P : σ → Prop}
    (hI : ∀ s e, I s → I (step s e))
    (hP : ∀ s e, I s → P s → (P (step s e) ↔ C s e)) {s : σ} {es : List ε}
    (hi : I s) (hs : P s) : Visits step P s es ↔ Along step C s es := by
  induction es generalizing s with
  | nil => exact Iff.rfl
  | cons e es ih =>
    constructor
    · intro h
      exact ⟨(hP s e hi hs).mp h.1, (ih (hI s e hi) h.1).mp h.2⟩
    · intro h
      have hnext := (hP s e hi hs).mpr h.1
      exact ⟨hnext, (ih (hI s e hi) hnext).mpr h.2⟩

/-- What no step restores held from the start if it holds at the end of a run. -/
theorem of_exec {P : σ → Prop} (hback : ∀ s e, P (step s e) → P s) {s : σ} {es : List ε}
    (h : P (exec step s es)) : P s := by
  induction es generalizing s with
  | nil => exact h
  | cons e es ih => exact hback s e (ih h)

/-- What no step restores holds throughout a run exactly when it holds at its end. -/
theorem visits_iff_exec {P : σ → Prop} (hback : ∀ s e, P (step s e) → P s) {s : σ} {es : List ε}
    (hs : P s) : Visits step P s es ↔ P (exec step s es) := by
  induction es generalizing s with
  | nil => exact iff_of_true trivial hs
  | cons e es ih =>
    constructor
    · intro h
      exact (ih h.1).mp h.2
    · intro h
      have hnext : P (step s e) := of_exec hback h
      exact ⟨hnext, (ih hnext).mpr h⟩

/-- Two conditions on steps that agree where an invariant holds, which each step that meets
them keeps, hold along the same runs. -/
theorem along_iff_along {C D : σ → ε → Prop} {I : σ → Prop}
    (hI : ∀ s e, I s → C s e → I (step s e)) (hCD : ∀ s e, I s → (C s e ↔ D s e)) {s : σ}
    {es : List ε} (hs : I s) : Along step C s es ↔ Along step D s es := by
  induction es generalizing s with
  | nil => exact Iff.rfl
  | cons e es ih =>
    constructor
    · intro h
      exact ⟨(hCD s e hs).mp h.1, (ih (hI s e hs h.1)).mp h.2⟩
    · intro h
      have hc := (hCD s e hs).mpr h.1
      exact ⟨hc, (ih (hI s e hs hc)).mpr h.2⟩

/-- A condition on steps that an invariant makes available at each of them. -/
theorem Along.strengthen {C D : σ → ε → Prop} {I : σ → Prop}
    (hstep : ∀ s e, I s → C s e → I (step s e)) (hD : ∀ s e, I s → C s e → D s e)
    {s : σ} {es : List ε} (hs : I s) (hc : Along step C s es) : Along step D s es := by
  induction es generalizing s with
  | nil => trivial
  | cons e es ih => exact ⟨hD s e hs hc.1, ih (hstep s e hs hc.1) hc.2⟩

end Biscuit
