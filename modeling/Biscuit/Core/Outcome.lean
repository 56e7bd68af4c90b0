import Mathlib.Control.Basic
import Mathlib.Data.List.Forall2

/-!
# Computations that fail or panic

A computation ends with a value, with an error that its caller can handle, or with a
panic that takes the running task down. Errors and panics both end what comes after them.
-/

namespace Biscuit

/-- How a computation ends. -/
inductive Outcome (ε α : Type*)
  | ok (value : α)
  | err (error : ε)
  | panic
  deriving DecidableEq, Repr

namespace Outcome

variable {ε α β : Type}

/-- Going on with the value. -/
def bind (x : Outcome ε α) (f : α → Outcome ε β) : Outcome ε β :=
  match x with
  | ok a => f a
  | err e => err e
  | panic => panic

instance : Monad (Outcome ε) where
  pure := ok
  bind := bind

instance : LawfulMonad (Outcome ε) := LawfulMonad.mk' (Outcome ε)
  (fun x => by cases x <;> rfl) (fun _ _ => rfl) (fun x _ _ => by cases x <;> rfl)

/-- The value of an option, or an error. -/
def ofOption (e : ε) : Option α → Outcome ε α
  | some a => ok a
  | none => err e

/-- The value of an option, or a panic. -/
def unwrap : Option α → Outcome ε α
  | some a => ok a
  | none => panic

/-- What a call that may fail answers. -/
def ofExcept : Except ε α → Outcome ε α
  | .ok a => ok a
  | .error e => err e

/-- Going on without the value where there is an error; a panic is still one. -/
def attempt {ε' : Type} : Outcome ε α → Outcome ε' (Option α)
  | ok a => ok (some a)
  | err _ => ok none
  | panic => panic

/-- Whether there is a value. -/
def isOk : Outcome ε α → Bool
  | ok _ => true
  | _ => false

theorem isOk_iff {x : Outcome ε α} : x.isOk = true ↔ ∃ a, x = ok a := by
  cases x <;> simp [isOk]

@[simp] theorem pure_eq (a : α) : (pure a : Outcome ε α) = ok a := rfl

@[simp] theorem ok_bind (a : α) (f : α → Outcome ε β) : (ok a >>= f) = f a := rfl

@[simp] theorem err_bind (e : ε) (f : α → Outcome ε β) : (err e >>= f) = err e := rfl

@[simp] theorem panic_bind (f : α → Outcome ε β) : (panic >>= f) = panic := rfl

@[simp] theorem ofOption_some (e : ε) (a : α) : ofOption e (some a) = ok a := rfl

@[simp] theorem ofOption_none (e : ε) : ofOption e (none : Option α) = err e := rfl

@[simp] theorem unwrap_some (a : α) : (unwrap (some a) : Outcome ε α) = ok a := rfl

@[simp] theorem unwrap_none : (unwrap none : Outcome ε α) = panic := rfl

@[simp] theorem ofExcept_ok (a : α) : ofExcept (.ok a : Except ε α) = ok a := rfl

@[simp] theorem ofExcept_error (e : ε) : ofExcept (.error e : Except ε α) = err e := rfl

theorem attempt_eq_panic {ε' : Type} {x : Outcome ε α} :
    (x.attempt : Outcome ε' (Option α)) = panic ↔ x = panic := by
  cases x <;> simp [attempt]

theorem attempt_ofOption {ε' : Type} (e : ε) (o : Option α) :
    (attempt (ofOption e o) : Outcome ε' (Option α)) = ok o := by
  cases o <;> rfl

/-- What is gone on with, unless there was a panic. -/
theorem exists_attempt_eq_ok {ε' : Type} {x : Outcome ε α} (h : x ≠ panic) :
    ∃ o, (x.attempt : Outcome ε' (Option α)) = ok o := by
  cases x with
  | ok a => exact ⟨some a, rfl⟩
  | err e => exact ⟨none, rfl⟩
  | panic => exact absurd rfl h

theorem unwrap_eq_ok {o : Option α} {a : α} : (unwrap o : Outcome ε α) = ok a ↔ o = some a := by
  cases o <;> simp

theorem ofOption_eq_ok {e : ε} {o : Option α} {a : α} : ofOption e o = ok a ↔ o = some a := by
  cases o <;> simp

/-- A missing value is an error, not a panic. -/
theorem ofOption_ne_panic (e : ε) (o : Option α) : ofOption e o ≠ panic := by
  cases o <;> simp

/-- A sequence panics where its first part does, or its second one after a value. -/
theorem bind_eq_panic {x : Outcome ε α} {f : α → Outcome ε β} :
    (x >>= f) = panic ↔ x = panic ∨ ∃ a, x = ok a ∧ f a = panic := by
  cases x <;> simp

/-- A sequence has a value where both of its parts have one. -/
theorem bind_eq_ok {x : Outcome ε α} {f : α → Outcome ε β} {b : β} :
    (x >>= f) = ok b ↔ ∃ a, x = ok a ∧ f a = ok b := by
  cases x <;> simp

/-- A sequence whose parts do not panic does not. -/
theorem bind_ne_panic {x : Outcome ε α} {f : α → Outcome ε β} (hx : x ≠ panic)
    (hf : ∀ a, x = ok a → f a ≠ panic) : (x >>= f) ≠ panic := by
  rw [Ne, bind_eq_panic]
  rintro (h | ⟨a, ha, h⟩)
  · exact hx h
  · exact hf a ha h

/-- A computation on every item of a list has values where it has one for each of them. -/
theorem mapM_eq_ok {f : α → Outcome ε β} {items : List α} {values : List β} :
    items.mapM f = ok values ↔ List.Forall₂ (fun a b => f a = ok b) items values := by
  induction items generalizing values with
  | nil => simp [eq_comm]
  | cons a items ih =>
    rw [List.mapM_cons, bind_eq_ok, List.forall₂_cons_left_iff]
    simp only [bind_eq_ok, ih, pure_eq, ok.injEq]
    constructor
    · rintro ⟨b, hb, rest, hrest, rfl⟩
      exact ⟨b, rest, hb, hrest, rfl⟩
    · rintro ⟨b, rest, hb, hrest, rfl⟩
      exact ⟨b, hb, rest, hrest, rfl⟩

/-- Every item has its value among the results. -/
theorem exists_mem_of_mapM {f : α → Outcome ε β} {items : List α} {values : List β}
    (h : items.mapM f = ok values) {a : α} (ha : a ∈ items) : ∃ b ∈ values, f a = ok b := by
  induction mapM_eq_ok.mp h with
  | nil => cases ha
  | cons hb _ ih =>
    rcases List.mem_cons.mp ha with rfl | ha
    · exact ⟨_, List.mem_cons_self, hb⟩
    · obtain ⟨b, hmem, hfa⟩ := ih (mapM_eq_ok.mpr ‹_›) ha
      exact ⟨b, List.mem_cons_of_mem _ hmem, hfa⟩

/-- Every result is the value of an item. -/
theorem exists_of_mem_mapM {f : α → Outcome ε β} {items : List α} {values : List β}
    (h : items.mapM f = ok values) {b : β} (hb : b ∈ values) : ∃ a ∈ items, f a = ok b := by
  induction mapM_eq_ok.mp h with
  | nil => cases hb
  | cons ha _ ih =>
    rcases List.mem_cons.mp hb with rfl | hb
    · exact ⟨_, List.mem_cons_self, ha⟩
    · obtain ⟨a, hmem, hfa⟩ := ih (mapM_eq_ok.mpr ‹_›) hb
      exact ⟨a, List.mem_cons_of_mem _ hmem, hfa⟩

theorem exists_mapM_eq_ok {f : α → Outcome ε β} {items : List α} :
    (∃ values, items.mapM f = ok values) ↔ ∀ a ∈ items, ∃ b, f a = ok b := by
  induction items with
  | nil => simp
  | cons a items ih =>
    rw [List.forall_mem_cons, ← ih, List.mapM_cons]
    simp only [bind_eq_ok, pure_eq, ok.injEq]
    constructor
    · rintro ⟨_, b, hb, rest, hrest, -⟩
      exact ⟨⟨b, hb⟩, rest, hrest⟩
    · rintro ⟨⟨b, hb⟩, rest, hrest⟩
      exact ⟨b :: rest, b, hb, rest, hrest, rfl⟩

/-- A computation on every item of a list stops at the first error, unless it panics before. -/
theorem mapM_eq_err {f : α → Outcome ε β} {items : List α} {e : ε} :
    items.mapM f = err e ↔ ∃ done a rest, items = done ++ a :: rest ∧
      (∀ x ∈ done, ∃ b, f x = ok b) ∧ f a = err e := by
  induction items with
  | nil => simp
  | cons a items ih =>
    rw [List.mapM_cons]
    constructor
    · intro h
      cases hfa : f a with
      | panic => simp [hfa] at h
      | err e' =>
        rw [hfa, err_bind] at h
        exact ⟨[], a, items, rfl, by simp, hfa.trans (err.inj h ▸ rfl)⟩
      | ok b =>
        rw [hfa, ok_bind] at h
        cases hrest : items.mapM f with
        | ok values => simp [hrest] at h
        | panic => simp [hrest] at h
        | err e' =>
          rw [hrest, err_bind] at h
          obtain ⟨done, a', rest, rfl, hdone, ha'⟩ := ih.mp (hrest.trans (err.inj h ▸ rfl))
          refine ⟨a :: done, a', rest, rfl, ?_, ha'⟩
          exact List.forall_mem_cons.mpr ⟨⟨b, hfa⟩, hdone⟩
    · rintro ⟨done, a', rest, hitems, hdone, ha'⟩
      cases done with
      | nil =>
        obtain ⟨rfl, rfl⟩ := List.cons.inj hitems
        rw [ha', err_bind]
      | cons x done =>
        obtain ⟨rfl, rfl⟩ := List.cons.inj hitems
        obtain ⟨⟨b, hb⟩, hdone⟩ := List.forall_mem_cons.mp hdone
        rw [hb, ok_bind, ih.mpr ⟨done, a', rest, rfl, hdone, ha'⟩, err_bind]

/-- A computation that panics on no item does not panic on a list of them. -/
theorem mapM_ne_panic {f : α → Outcome ε β} {items : List α} (h : ∀ a ∈ items, f a ≠ panic) :
    items.mapM f ≠ panic := by
  induction items with
  | nil => exact nofun
  | cons a items ih =>
    rw [List.mapM_cons]
    refine bind_ne_panic (h a List.mem_cons_self) fun b _ => ?_
    exact bind_ne_panic (ih fun x hx => h x (List.mem_cons_of_mem a hx)) fun rest _ => nofun

/-- An error is told in other words. -/
def mapError {δ : Type} (f : ε → δ) : Outcome ε α → Outcome δ α
  | ok a => ok a
  | err e => err (f e)
  | panic => panic

theorem mapError_eq_ok {δ : Type} {f : ε → δ} {x : Outcome ε α} {a : α} :
    x.mapError f = ok a ↔ x = ok a := by
  cases x <;> simp [mapError]

/-- How a computation ends, whatever its value is. -/
def void (x : Outcome ε α) : Outcome ε Unit := x >>= fun _ => ok ()

theorem void_bind (x : Outcome ε α) (f : α → Outcome ε β) :
    (x >>= f).void = x >>= fun a => (f a).void := bind_assoc x f _

theorem void_eq_panic {x : Outcome ε α} : x.void = panic ↔ x = panic := by
  cases x <;> simp [void]

end Outcome

end Biscuit
