import Mathlib.Data.List.Basic
import Mathlib.Logic.Equiv.Defs
import Mathlib.Tactic.Common

/-!
# Prefix codecs

A codec writes the values of a type as words over an alphabet and reads them back from the
front of a word. What it reads is exactly what it writes: a value is found at the front of a
word if and only if it can be written and the word starts with its code, so that codes are
unique and none is a prefix of another. Codecs compose to codecs of records, lists and tagged
unions.
-/

namespace Biscuit

/-- A codec of the values that can be written as words over an alphabet. -/
structure Codec (τ α : Type) where
  Valid : α → Prop
  encode : α → List τ
  decode : List τ → Option (α × List τ)
  decode_eq_some_iff : ∀ {word : List τ} {a : α} {rest : List τ},
    decode word = some (a, rest) ↔ Valid a ∧ word = encode a ++ rest

namespace Codec

variable {τ α β : Type}

/-- What is written is read back, whatever follows it. -/
theorem decode_encode (c : Codec τ α) {a : α} (h : c.Valid a) (rest : List τ) :
    c.decode (c.encode a ++ rest) = some (a, rest) :=
  c.decode_eq_some_iff.mpr ⟨h, rfl⟩

/-- No code is a prefix of another one. -/
theorem encode_append_inj (c : Codec τ α) {a b : α} (ha : c.Valid a) (hb : c.Valid b)
    {rest more : List τ} (h : c.encode a ++ rest = c.encode b ++ more) : a = b ∧ rest = more := by
  have hread := c.decode_encode ha rest
  rw [h, c.decode_encode hb more] at hread
  obtain ⟨hab, hrest⟩ := Prod.mk.inj (Option.some.inj hread)
  exact ⟨hab.symm, hrest.symm⟩

/-! ## Records -/

/-- One letter. -/
def letter : Codec τ τ where
  Valid _ := True
  encode a := [a]
  decode
    | [] => none
    | a :: rest => some (a, rest)
  decode_eq_some_iff {word a rest} := by
    cases word with
    | nil => simp
    | cons b word => simp

/-- A value that takes no space. -/
def const (a : α) : Codec τ α where
  Valid b := b = a
  encode _ := []
  decode word := some (a, word)
  decode_eq_some_iff {word b rest} := by
    simp only [Option.some.injEq, Prod.mk.injEq, List.nil_append]
    exact and_congr_left' eq_comm

/-- One value after another. -/
def prod (c : Codec τ α) (d : Codec τ β) : Codec τ (α × β) where
  Valid p := c.Valid p.1 ∧ d.Valid p.2
  encode p := c.encode p.1 ++ d.encode p.2
  decode word := do
    let (a, word) ← c.decode word
    let (b, word) ← d.decode word
    pure ((a, b), word)
  decode_eq_some_iff {word p rest} := by
    obtain ⟨a, b⟩ := p
    simp only [Option.bind_eq_bind, Option.bind_eq_some_iff, Option.pure_def, Option.some.injEq,
      Prod.mk.injEq, Prod.exists, c.decode_eq_some_iff, d.decode_eq_some_iff]
    constructor
    · rintro ⟨a', more, ⟨ha, rfl⟩, b', rest', ⟨hb, rfl⟩, ⟨rfl, rfl⟩, rfl⟩
      exact ⟨⟨ha, hb⟩, by rw [List.append_assoc]⟩
    · rintro ⟨⟨ha, hb⟩, rfl⟩
      exact ⟨a, d.encode b ++ rest, ⟨ha, by rw [List.append_assoc]⟩, b, rest, ⟨hb, rfl⟩,
        ⟨rfl, rfl⟩, rfl⟩

/-- The values of another type that the values of this type stand for. -/
def embed (c : Codec τ α) (wrap : α → β) (unwrap : β → Option α)
    (h : ∀ a b, c.Valid a → (unwrap b = some a ↔ b = wrap a)) : Codec τ β where
  Valid b := ∃ a, unwrap b = some a ∧ c.Valid a
  encode b := ((unwrap b).map c.encode).getD []
  decode word := (c.decode word).map fun p => (wrap p.1, p.2)
  decode_eq_some_iff {word b rest} := by
    simp only [Option.map_eq_some_iff, Prod.exists, Prod.mk.injEq, c.decode_eq_some_iff]
    constructor
    · rintro ⟨a, more, ⟨ha, rfl⟩, rfl, rfl⟩
      have hunwrap := (h a (wrap a) ha).mpr rfl
      exact ⟨⟨a, hunwrap, ha⟩, by rw [hunwrap, Option.map_some, Option.getD_some]⟩
    · rintro ⟨⟨a, hunwrap, ha⟩, rfl⟩
      refine ⟨a, rest, ⟨ha, ?_⟩, ((h a b ha).mp hunwrap).symm, rfl⟩
      rw [hunwrap, Option.map_some, Option.getD_some]

/-- The values of a type that the values of this type are. -/
def equiv (c : Codec τ α) (e : α ≃ β) : Codec τ β where
  Valid b := c.Valid (e.symm b)
  encode b := c.encode (e.symm b)
  decode word := (c.decode word).map fun p => (e p.1, p.2)
  decode_eq_some_iff {word b rest} := by
    simp only [Option.map_eq_some_iff, Prod.exists, Prod.mk.injEq, c.decode_eq_some_iff]
    constructor
    · rintro ⟨a, more, h, rfl, rfl⟩
      rwa [e.symm_apply_apply]
    · intro h
      exact ⟨e.symm b, rest, h, e.apply_symm_apply b, rfl⟩

@[simp] theorem prod_valid_iff {c : Codec τ α} {d : Codec τ β} {p : α × β} :
    (c.prod d).Valid p ↔ c.Valid p.1 ∧ d.Valid p.2 := Iff.rfl

@[simp] theorem equiv_valid_iff {c : Codec τ α} {e : α ≃ β} {b : β} :
    (c.equiv e).Valid b ↔ c.Valid (e.symm b) := Iff.rfl

/-- The values of one constructor of a type, which carry values of this type. -/
def variant (c : Codec τ α) (wrap : α → β) (unwrap : β → Option α)
    (hwrap : ∀ a, unwrap (wrap a) = some a := by intros; rfl)
    (hunwrap : ∀ a b, unwrap b = some a → b = wrap a := by
      intro a b h; split at h <;> cases h; rfl) : Codec τ β :=
  c.embed wrap unwrap fun a b _ => ⟨hunwrap a b, fun h => h ▸ hwrap a⟩

theorem variant_valid_iff {c : Codec τ α} {wrap : α → β} {unwrap : β → Option α}
    {hwrap : ∀ a, unwrap (wrap a) = some a} {hunwrap : ∀ a b, unwrap b = some a → b = wrap a}
    {a : α} {b : β} (h : unwrap b = some a) :
    (c.variant wrap unwrap hwrap hunwrap).Valid b ↔ c.Valid a := by
  constructor
  · rintro ⟨a', ha', hvalid⟩
    obtain rfl := Option.some.inj (h.symm.trans ha')
    exact hvalid
  · exact fun ha => ⟨a, h, ha⟩

/-! ## Lists -/

/-- So many values in a row. -/
def decodeTimes (c : Codec τ α) : ℕ → List τ → Option (List α × List τ)
  | 0, word => some ([], word)
  | n + 1, word => do
    let (a, word) ← c.decode word
    let (items, word) ← decodeTimes c n word
    pure (a :: items, word)

theorem decodeTimes_eq_some_iff (c : Codec τ α) {n : ℕ} {word : List τ} {items : List α}
    {rest : List τ} :
    c.decodeTimes n word = some (items, rest) ↔
      items.length = n ∧ (∀ a ∈ items, c.Valid a) ∧ word = items.flatMap c.encode ++ rest := by
  induction n generalizing word items rest with
  | zero =>
    simp only [decodeTimes, Option.some.injEq, Prod.mk.injEq, List.length_eq_zero_iff]
    constructor
    · rintro ⟨rfl, rfl⟩
      simp
    · rintro ⟨rfl, -, rfl⟩
      simp
  | succ n ih =>
    simp only [decodeTimes, Option.bind_eq_bind, Option.bind_eq_some_iff, Option.pure_def,
      Option.some.injEq, Prod.mk.injEq, Prod.exists, c.decode_eq_some_iff, ih]
    constructor
    · rintro ⟨a, more, ⟨ha, rfl⟩, items', rest', ⟨hlength, hvalid, rfl⟩, rfl, rfl⟩
      refine ⟨by rw [List.length_cons, hlength], List.forall_mem_cons.mpr ⟨ha, hvalid⟩, ?_⟩
      rw [List.flatMap_cons, List.append_assoc]
    · rintro ⟨hlength, hvalid, rfl⟩
      obtain ⟨a, items', rfl⟩ := List.exists_cons_of_length_eq_add_one hlength
      obtain ⟨ha, hvalid⟩ := List.forall_mem_cons.mp hvalid
      refine ⟨a, items'.flatMap c.encode ++ rest, ⟨ha, ?_⟩, items', rest,
        ⟨Nat.succ.inj hlength, hvalid, rfl⟩, rfl, rfl⟩
      rw [List.flatMap_cons, List.append_assoc]

/-- A list after its length. -/
def list (length : Codec τ ℕ) (c : Codec τ α) : Codec τ (List α) where
  Valid items := length.Valid items.length ∧ ∀ a ∈ items, c.Valid a
  encode items := length.encode items.length ++ items.flatMap c.encode
  decode word := do
    let (n, word) ← length.decode word
    c.decodeTimes n word
  decode_eq_some_iff {word items rest} := by
    simp only [Option.bind_eq_bind, Option.bind_eq_some_iff, Prod.exists,
      length.decode_eq_some_iff, c.decodeTimes_eq_some_iff]
    constructor
    · rintro ⟨n, more, ⟨hn, rfl⟩, rfl, hvalid, rfl⟩
      exact ⟨⟨hn, hvalid⟩, by rw [List.append_assoc]⟩
    · rintro ⟨⟨hn, hvalid⟩, rfl⟩
      exact ⟨items.length, items.flatMap c.encode ++ rest, ⟨hn, by rw [List.append_assoc]⟩, rfl,
        hvalid, rfl⟩

/-! ## Tagged unions -/

/-- From some number on, the kinds of values have the numbers of their codecs. -/
def Numbered (kind : α → ℕ) : ℕ → List (Codec τ α) → Prop
  | _, [] => True
  | n, c :: kinds => (∀ a, c.Valid a → kind a = n) ∧ Numbered kind (n + 1) kinds

theorem Numbered.nil (kind : α → ℕ) (n : ℕ) : Numbered kind n ([] : List (Codec τ α)) := trivial

theorem Numbered.const {kind : α → ℕ} {n : ℕ} {kinds : List (Codec τ α)} {a : α}
    (ha : kind a = n) (h : Numbered kind (n + 1) kinds) : Numbered kind n (.const a :: kinds) :=
  ⟨fun _ hb => (congrArg kind hb).trans ha, h⟩

theorem Numbered.variant {kind : β → ℕ} {n : ℕ} {kinds : List (Codec τ β)} {c : Codec τ α}
    {wrap : α → β} {unwrap : β → Option α} {hwrap : ∀ a, unwrap (wrap a) = some a}
    {hunwrap : ∀ a b, unwrap b = some a → b = wrap a} (ha : ∀ a, kind (wrap a) = n)
    (h : Numbered kind (n + 1) kinds) :
    Numbered kind n (c.variant wrap unwrap hwrap hunwrap :: kinds) := by
  refine ⟨fun b hb => ?_, h⟩
  obtain ⟨a, hunwrapped, -⟩ := hb
  rw [hunwrap a b hunwrapped, ha]

theorem Numbered.kind_eq {kind : α → ℕ} {n : ℕ} {kinds : List (Codec τ α)}
    (h : Numbered kind n kinds) {i : ℕ} {c : Codec τ α} (hi : kinds[i]? = some c) {a : α}
    (ha : c.Valid a) : kind a = n + i := by
  induction kinds generalizing n i with
  | nil => cases hi
  | cons d kinds ih =>
    cases i with
    | zero =>
      obtain rfl := Option.some.inj hi
      exact h.1 a ha
    | succ i =>
      rw [ih h.2 hi]
      omega

/-- One of several kinds of values, after a tag that numbers its kind. -/
def union (tag : Codec τ ℕ) (kind : α → ℕ) (kinds : List (Codec τ α))
    (h : Numbered kind 0 kinds) : Codec τ α where
  Valid a := tag.Valid (kind a) ∧ ∃ c, kinds[kind a]? = some c ∧ c.Valid a
  encode a := tag.encode (kind a) ++ (kinds[kind a]?.map (·.encode a)).getD []
  decode word := do
    let (i, word) ← tag.decode word
    let c ← kinds[i]?
    c.decode word
  decode_eq_some_iff {word a rest} := by
    simp only [Option.bind_eq_bind, Option.bind_eq_some_iff, Prod.exists,
      tag.decode_eq_some_iff]
    constructor
    · rintro ⟨i, more, ⟨hi, rfl⟩, c, hc, hread⟩
      obtain ⟨ha, rfl⟩ := c.decode_eq_some_iff.mp hread
      obtain rfl : kind a = i := (h.kind_eq hc ha).trans (Nat.zero_add i)
      refine ⟨⟨hi, c, hc, ha⟩, ?_⟩
      rw [hc, Option.map_some, Option.getD_some, List.append_assoc]
    · rintro ⟨⟨htag, c, hc, ha⟩, rfl⟩
      refine ⟨kind a, c.encode a ++ rest, ⟨htag, ?_⟩, c, hc,
        c.decode_eq_some_iff.mpr ⟨ha, rfl⟩⟩
      rw [hc, Option.map_some, Option.getD_some, List.append_assoc]

end Codec

end Biscuit
