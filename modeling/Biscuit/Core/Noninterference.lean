import Biscuit.Core.Run
import Mathlib.Data.List.Count
import Mathlib.Tactic.Common

/-!
# What an observer sees of a run

An observer is shown some of the events of a run, each translated into an event of its own.
If the events that stay hidden change nothing for it, and the ones that it is shown change
the same for it, then what it sees of the run is a run of its own events.
-/

namespace Biscuit

variable {σ ε : Type*}

/-- The events of a run that an observer is shown, each translated in the state in which it
is taken. -/
def purge (step : σ → ε → σ) (shown : σ → ε → Option ε) : σ → List ε → List ε
  | _, [] => []
  | s, e :: es => (shown s e).toList ++ purge step shown (step s e) es

variable {step : σ → ε → σ} {shown : σ → ε → Option ε}

/-- Only translated events are shown. -/
theorem exists_of_mem_purge {s : σ} {es : List ε} {e' : ε} (h : e' ∈ purge step shown s es) :
    ∃ t e, shown t e = some e' := by
  induction es generalizing s with
  | nil => exact absurd h List.not_mem_nil
  | cons e es ih =>
    rcases List.mem_append.mp h with hm | hm
    · exact ⟨s, e, Option.mem_toList.mp hm⟩
    · exact ih hm

/-- The unwinding rule: hidden events keep the observer's view, shown events take both
systems to states with the same view. -/
theorem exec_purge {View : σ → σ → Prop}
    (hhidden : ∀ s t e, View s t → shown s e = none → View (step s e) t)
    (hshown : ∀ s t e e', View s t → shown s e = some e' → View (step s e) (step t e'))
    {s t : σ} (es : List ε) (h : View s t) :
    View (exec step s es) (exec step t (purge step shown s es)) := by
  induction es generalizing s t with
  | nil => exact h
  | cons e es ih =>
    cases he : shown s e with
    | none =>
      simp only [purge, he, Option.toList_none, List.nil_append, exec_cons]
      exact ih (hhidden s t e h he)
    | some e' =>
      simp only [purge, he, Option.toList_some, List.singleton_append, exec_cons]
      exact ih (hshown s t e e' h he)

/-! ## The observer's part of a list -/

variable {α : Type*}

/-- The place of an item of a list among the observer's items. -/
def placeAmong (p : α → Bool) (items : List α) (i : ℕ) : ℕ := (items.take i).countP p

/-- An item of the observer stands in its place among them. -/
theorem getElem?_filter_placeAmong {p : α → Bool} {items : List α} {i : ℕ} {a : α}
    (h : items[i]? = some a) (ha : p a = true) :
    (items.filter p)[placeAmong p items i]? = some a := by
  induction items generalizing i with
  | nil => simp at h
  | cons b items ih =>
    cases i with
    | zero =>
      obtain rfl : b = a := by simpa using h
      simp [placeAmong, ha]
    | succ i =>
      have hi := ih (i := i) (by simpa using h)
      cases hb : p b with
      | true => simpa [placeAmong, hb] using hi
      | false => simpa [placeAmong, hb] using hi

/-- Taking an item of the observer away takes it away from its items. -/
theorem filter_eraseIdx_of_mem {p : α → Bool} {items : List α} {i : ℕ} {a : α}
    (h : items[i]? = some a) (ha : p a = true) :
    (items.eraseIdx i).filter p = (items.filter p).eraseIdx (placeAmong p items i) := by
  induction items generalizing i with
  | nil => simp at h
  | cons b items ih =>
    cases i with
    | zero =>
      obtain rfl : b = a := by simpa using h
      simp [placeAmong, ha]
    | succ i =>
      have hi := ih (i := i) (by simpa using h)
      cases hb : p b with
      | true => simpa [placeAmong, hb] using hi
      | false => simpa [placeAmong, hb] using hi

/-- Taking another item away leaves the observer's items. -/
theorem filter_eraseIdx_of_not {p : α → Bool} {items : List α} {i : ℕ} {a : α}
    (h : items[i]? = some a) (ha : p a = false) :
    (items.eraseIdx i).filter p = items.filter p := by
  induction items generalizing i with
  | nil => simp at h
  | cons b items ih =>
    cases i with
    | zero =>
      obtain rfl : b = a := by simpa using h
      simp [ha]
    | succ i =>
      have hi := ih (i := i) (by simpa using h)
      cases hb : p b with
      | true => simpa [hb] using hi
      | false => simpa [hb] using hi

end Biscuit
