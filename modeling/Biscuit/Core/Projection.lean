import Biscuit.Core.Run
import Biscuit.Core.Tally

/-!
# A component that runs on its own

A component of a system takes steps of its own while the system takes its steps. If every step
of the system is some steps of the component, then every run of the system is a run of the
component, over the events that the steps of the system hand to it.
-/

namespace Biscuit

variable {σ ε τ δ : Type*}

/-- The events that a run hands to a component, in order. -/
def handedAlong (step : σ → ε → σ) (out : σ → ε → List δ) : σ → List ε → List δ
  | _, [] => []
  | s, e :: es => out s e ++ handedAlong step out (step s e) es

variable {step : σ → ε → σ} {out : σ → ε → List δ}

/-- An event is handed over at some step of the run. -/
theorem exists_of_mem_handedAlong {s : σ} {es : List ε} {d : δ}
    (h : d ∈ handedAlong step out s es) :
    ∃ before e after, es = before ++ e :: after ∧ d ∈ out (exec step s before) e := by
  induction es generalizing s with
  | nil => cases h
  | cons e es ih =>
    rcases List.mem_append.mp h with hm | hm
    · exact ⟨[], e, es, rfl, hm⟩
    · obtain ⟨before, e', after, rfl, hout⟩ := ih hm
      exact ⟨e :: before, e', after, rfl, hout⟩

/-- What a run hands over of some kind, and what is left of a potential, is at most what was
there and what its events brought in. -/
theorem countP_handedAlong_le {p : δ → Bool} (V : σ → ℕ) (B : ε → ℕ)
    (hV : ∀ s e, (out s e).countP p + V (step s e) ≤ V s + B e) (s : σ) (es : List ε) :
    (handedAlong step out s es).countP p + V (exec step s es) ≤ V s + tally B es := by
  induction es generalizing s with
  | nil => exact (Nat.zero_add (V s)).le
  | cons e es ih =>
    have hhead := hV s e
    have htail := ih (step s e)
    rw [handedAlong, List.countP_append, exec_cons, tally_cons]
    omega

/-- A run of the system is a run of the component. -/
theorem exec_component {step' : τ → δ → τ} {proj : σ → τ} {I : τ → Prop}
    (hI : ∀ t d, I t → I (step' t d))
    (hstep : ∀ s e, I (proj s) → proj (step s e) = exec step' (proj s) (out s e))
    {s : σ} (es : List ε) (hs : I (proj s)) :
    proj (exec step s es) = exec step' (proj s) (handedAlong step out s es) := by
  induction es generalizing s with
  | nil => rfl
  | cons e es ih =>
    have hnext : I (proj (step s e)) := by
      rw [hstep s e hs]
      exact exec_preserves hI _ hs
    rw [exec_cons, ih hnext, handedAlong, exec_append, hstep s e hs]

end Biscuit
