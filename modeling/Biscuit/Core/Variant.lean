import Biscuit.Core.Run
import Biscuit.Core.Tally
import Mathlib.Tactic.Common

/-!
# Bounded work of an event system

Some events bring work into a system and the others do it. A potential that every effective
event lowers bounds the work of a whole run by what the events brought in, and a system that
can always go on until it rests is brought to rest by finitely many events.
-/

namespace Biscuit

variable {σ ε : Type*}

/-- The number of events of a run that meet `C` in the state in which they are taken. -/
def countAlong (step : σ → ε → σ) (C : σ → ε → Bool) : σ → List ε → ℕ
  | _, [] => 0
  | s, e :: es => (C s e).toNat + countAlong step C (step s e) es

variable {step : σ → ε → σ} {C : σ → ε → Bool}

@[simp] theorem countAlong_nil (s : σ) : countAlong step C s [] = 0 := rfl

@[simp] theorem countAlong_cons (s : σ) (e : ε) (es : List ε) :
    countAlong step C s (e :: es) = (C s e).toNat + countAlong step C (step s e) es := rfl

/-- The work of a run and what is left of the potential is at most what was there and what
its events brought in. -/
theorem countAlong_add_le {I : σ → Prop} {V : σ → ℕ} {B : ε → ℕ}
    (hI : ∀ s e, I s → I (step s e))
    (hV : ∀ s e, I s → (C s e).toNat + V (step s e) ≤ V s + B e)
    {s : σ} (es : List ε) (hs : I s) :
    countAlong step C s es + V (exec step s es) ≤ V s + tally B es := by
  induction es generalizing s with
  | nil => exact Nat.le_of_eq (Nat.zero_add (V s))
  | cons e es ih =>
    have hhead := hV s e hs
    have htail := ih (hI s e hs)
    simp only [countAlong_cons, exec_cons, tally_cons]
    omega

/-- A measure is at most what it was and what the events of a run brought in. -/
theorem exec_le_tally (V : σ → ℕ) (B : ε → ℕ) (hV : ∀ s e, V (step s e) ≤ V s + B e) (s : σ)
    (es : List ε) : V (exec step s es) ≤ V s + tally B es := by
  have hrun := countAlong_add_le (C := fun _ _ => false) (I := fun _ => True)
    (fun _ _ _ => trivial) (fun s e _ => by simpa using hV s e) es (s := s) trivial
  exact (Nat.le_add_left _ _).trans hrun

/-- A system whose events lower a potential until it rests is brought to rest by events of
which there are no more than the potential. -/
theorem exists_exec_rest {I R : σ → Prop} {O : ε → Prop} {V : σ → ℕ}
    (hI : ∀ s e, I s → I (step s e))
    (hgo : ∀ s, I s → ¬ R s → ∃ e, O e ∧ V (step s e) < V s) {s : σ} (hs : I s) :
    ∃ es : List ε, (∀ e ∈ es, O e) ∧ es.length ≤ V s ∧ R (exec step s es) := by
  induction hn : V s using Nat.strongRecOn generalizing s with
  | _ n ih =>
    by_cases hrest : R s
    · exact ⟨[], fun _ he => absurd he (List.not_mem_nil), Nat.zero_le _, hrest⟩
    · obtain ⟨e, hown, hlt⟩ := hgo s hs hrest
      obtain ⟨es, hes, hlen, hend⟩ := ih _ (hn ▸ hlt) (hI s e hs) rfl
      refine ⟨e :: es, ?_, ?_, hend⟩
      · intro e' he'
        rcases List.mem_cons.mp he' with rfl | hm
        · exact hown
        · exact hes e' hm
      · rw [List.length_cons]
        omega

end Biscuit
