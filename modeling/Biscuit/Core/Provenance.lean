import Biscuit.Core.Run
import Mathlib.Data.List.Induction

/-!
# Where the contents of a state come from

What a system holds was brought in by its events. An invariant that speaks of the origins so
far is carried along a run once, and tells of the last state which events brought its contents
in and in which states they were taken.
-/

namespace Biscuit

variable {σ ε ω : Type*}

/-- An event of a run brought an origin in, in the state in which it was taken. -/
def Brought (step : σ → ε → σ) (B : σ → ε → ω → Prop) (s : σ) (es : List ε) (o : ω) : Prop :=
  ∃ before e after, es = before ++ e :: after ∧ B (exec step s before) e o

variable {step : σ → ε → σ} {B : σ → ε → ω → Prop}

/-- What was brought in so far was brought in by the longer run. -/
theorem Brought.concat {s : σ} {es : List ε} {o : ω} (h : Brought step B s es o) (e : ε) :
    Brought step B s (es ++ [e]) o := by
  obtain ⟨before, e', after, rfl, hB⟩ := h
  exact ⟨before, e', after ++ [e], by simp, hB⟩

/-- The last event of a run brings in what it brings. -/
theorem brought_last {s : σ} {es : List ε} {e : ε} {o : ω} (h : B (exec step s es) e o) :
    Brought step B s (es ++ [e]) o :=
  ⟨es, e, [], rfl, h⟩

/-- An invariant over the origins holds at the end of a run of the origins that its events
brought in, besides those that were there at its start. -/
theorem exec_brought (I : (ω → Prop) → σ → Prop) (O : ω → Prop)
    (hmono : ∀ (O O' : ω → Prop) s, (∀ o, O o → O' o) → I O s → I O' s)
    (hstep : ∀ O s e, I O s → I (fun o => O o ∨ B s e o) (step s e))
    {s : σ} (es : List ε) (hs : I O s) :
    I (fun o => O o ∨ Brought step B s es o) (exec step s es) := by
  induction es using List.reverseRecOn with
  | nil => exact hmono _ _ _ (fun _ h => .inl h) hs
  | append_singleton es e ih =>
    rw [exec_append]
    refine hmono _ _ _ (fun o h => ?_) (hstep _ _ e ih)
    rcases h with (hstart | hbefore) | hlast
    · exact .inl hstart
    · exact .inr (hbefore.concat e)
    · exact .inr (brought_last hlast)

end Biscuit
