import Biscuit.Core.Codec
import Biscuit.Models.Parser.Clmm

/-!
# Instructions and the windows they are read through

The generated clients build an instruction from its arguments and its accounts, where an account
that is left out is filled with the program. A message refers to the accounts by their places in
its table of keys. A reader that goes through these places denotes a relation between the keys
they point to and the value it makes of them.
-/

namespace Biscuit.Parser

/-! ## Instructions -/

/-- `AccountMeta` -/
structure AccountMeta where
  pubkey : Pubkey
  isSigner : Bool
  isWritable : Bool
  deriving DecidableEq, Repr

/-- `AccountMeta::new` -/
def AccountMeta.new (pubkey : Pubkey) (isSigner : Bool) : AccountMeta := ⟨pubkey, isSigner, true⟩

/-- `AccountMeta::new_readonly` -/
def AccountMeta.newReadonly (pubkey : Pubkey) (isSigner : Bool) : AccountMeta :=
  ⟨pubkey, isSigner, false⟩

/-- An account that can be left out, which puts the program in its place. -/
def AccountMeta.orProgram (program : Pubkey) (given : Pubkey → AccountMeta) :
    Option Pubkey → AccountMeta
  | some pubkey => given pubkey
  | none => .newReadonly program false

@[simp] theorem AccountMeta.pubkey_new (pubkey : Pubkey) (isSigner : Bool) :
    (AccountMeta.new pubkey isSigner).pubkey = pubkey := rfl

@[simp] theorem AccountMeta.pubkey_newReadonly (pubkey : Pubkey) (isSigner : Bool) :
    (AccountMeta.newReadonly pubkey isSigner).pubkey = pubkey := rfl

@[simp] theorem AccountMeta.pubkey_orProgram_new (program : Pubkey) (isSigner : Bool)
    (account : Option Pubkey) :
    (orProgram program (.new · isSigner) account).pubkey = account.getD program := by
  cases account <;> rfl

@[simp] theorem AccountMeta.pubkey_orProgram_newReadonly (program : Pubkey) (isSigner : Bool)
    (account : Option Pubkey) :
    (orProgram program (.newReadonly · isSigner) account).pubkey = account.getD program := by
  cases account <;> rfl

@[simp] theorem AccountMeta.isSigner_new (pubkey : Pubkey) (isSigner : Bool) :
    (AccountMeta.new pubkey isSigner).isSigner = isSigner := rfl

@[simp] theorem AccountMeta.isSigner_newReadonly (pubkey : Pubkey) (isSigner : Bool) :
    (AccountMeta.newReadonly pubkey isSigner).isSigner = isSigner := rfl

@[simp] theorem AccountMeta.isSigner_orProgram_new (program : Pubkey) (account : Option Pubkey) :
    (orProgram program (.new · false) account).isSigner = false := by
  cases account <;> rfl

@[simp] theorem AccountMeta.isSigner_orProgram_newReadonly (program : Pubkey)
    (account : Option Pubkey) :
    (orProgram program (.newReadonly · false) account).isSigner = false := by
  cases account <;> rfl

/-- `Instruction` -/
structure Instruction where
  programId : Pubkey
  accounts : List AccountMeta
  data : Bytes

/-- A message refers to the program and the accounts of an instruction by their places. -/
structure Instruction.CompiledTo (instruction : Instruction) (table : List Pubkey)
    (compiled : CompiledInstruction) : Prop where
  program : table[compiled.programIdIndex.toNat]? = some instruction.programId
  accounts : PointTo table compiled.accounts (instruction.accounts.map (·.pubkey))
  data : compiled.data = instruction.data

/-- The table of an instruction: its accounts and its program. -/
def Instruction.table (instruction : Instruction) : List Pubkey :=
  instruction.accounts.map (·.pubkey) ++ [instruction.programId]

/-- An instruction compiled into a message of its own. -/
def Instruction.compile (instruction : Instruction) : CompiledInstruction where
  programIdIndex := .ofNat instruction.accounts.length
  accounts := (List.range instruction.accounts.length).map .ofNat
  data := instruction.data

/-- A message can refer to any instruction whose accounts can be numbered by bytes. -/
theorem Instruction.compiledTo_compile {instruction : Instruction}
    (h : instruction.accounts.length < 256) :
    instruction.CompiledTo instruction.table instruction.compile where
  program := by
    rw [compile, UInt8.toNat_ofNat_of_lt' h, table, List.getElem?_append_right (by simp)]
    simp
  accounts := by
    rw [compile, PointTo, List.forall₂_map_left_iff]
    apply List.forall₂_iff_get.mpr
    refine ⟨by simp, fun i hi hi' => ?_⟩
    have hlt : i < instruction.accounts.length := by simpa using hi
    simp only [List.get_eq_getElem, List.getElem_range]
    rw [UInt8.toNat_ofNat_of_lt' (hlt.trans h), table,
      List.getElem?_append_left (by simpa using hlt), List.getElem?_eq_getElem]
  data := rfl

/-- A message refers to an instruction that starts with the accounts and the data of this one. -/
structure Instruction.Begins (instruction : Instruction) (table : List Pubkey)
    (compiled : CompiledInstruction) : Prop where
  program : table[compiled.programIdIndex.toNat]? = some instruction.programId
  accounts : ∃ places, places <+: compiled.accounts ∧
    PointTo table places (instruction.accounts.map (·.pubkey))
  data : instruction.data <+: compiled.data

/-- How the instructions of a program are built: a discriminator and the arguments are their data,
and the accounts that they know come first. -/
structure InstructionSet (α : Type) where
  discriminator : α → Bytes
  serializeArgs : α → Bytes
  accountMetas : Pubkey → α → List AccountMeta
  WellFormed : Pubkey → α → Prop
  length_discriminator : ∀ {program : Pubkey} {a : α}, WellFormed program a →
    (discriminator a).length = 8

/-- `instruction_with_remaining_accounts` -/
def InstructionSet.instruction {α : Type} (set : InstructionSet α) (program : Pubkey) (a : α)
    (remainingAccounts : List AccountMeta) : Instruction where
  programId := program
  accounts := set.accountMetas program a ++ remainingAccounts
  data := set.discriminator a ++ set.serializeArgs a

/-- Whatever accounts follow, the message refers to an instruction that starts as it was built. -/
theorem InstructionSet.begins_of_compiledTo {α : Type} {set : InstructionSet α} {program : Pubkey}
    {a : α} {remainingAccounts : List AccountMeta} {table : List Pubkey}
    {compiled : CompiledInstruction}
    (h : (set.instruction program a remainingAccounts).CompiledTo table compiled) :
    (set.instruction program a []).Begins table compiled := by
  obtain ⟨hprogram, haccounts, hdata⟩ := h
  refine ⟨hprogram, ?_, ?_⟩
  · rw [InstructionSet.instruction, List.map_append] at haccounts
    have hfirst := List.forall₂_take_append _ _ _ haccounts
    rw [InstructionSet.instruction, List.append_nil]
    exact ⟨_, List.take_prefix _ _, hfirst⟩
  · rw [hdata]
    exact List.prefix_rfl

/-! ## Readers -/

/-- An account that is there only if it is not the program. -/
def unlessProgram (program key : Pubkey) : Option Pubkey :=
  if key = program then none else some key

/-- A key stands for an account that can be left out and is not the program. -/
theorem eq_unlessProgram_iff {program key : Pubkey} {account : Option Pubkey} :
    account = unlessProgram program key ↔
      account ≠ some program ∧ key = account.getD program := by
  unfold unlessProgram
  by_cases hkey : key = program
  · rw [if_pos hkey, hkey]
    cases account with
    | none => simp
    | some other =>
      simp only [reduceCtorEq, ne_eq, Option.some.injEq, Option.getD_some, false_iff, not_and]
      exact fun hne heq => hne heq.symm
  · rw [if_neg hkey]
    cases account with
    | none => simp [hkey]
    | some other =>
      simp only [ne_eq, Option.some.injEq, Option.getD_some]
      constructor
      · rintro rfl
        exact ⟨hkey, rfl⟩
      · exact fun h => h.2.symm

/-- `KeysWindow::next_anchor_opt_account_key` -/
def nextAnchorOptAccountKey : Windowed (Option Pubkey) := do
  let ret ← nextAccountKey
  let window ← get
  pure (unlessProgram window.programId ret)

/-- `decode_instruction`, for arguments that this repository declares. -/
def decodeArgs {α : Type} (args : Codec UInt8 α) (slice : Bytes) : Windowed α :=
  liftM (Outcome.ofOption (.unpack "InstructionDidNotDeserialize")
    ((args.decode slice).map Prod.fst) : Parsed α)

/-- What a reader makes of the keys that the places in its window point to, for a program. -/
abbrev Denotation (α : Type) := Pubkey → List Pubkey → α → Prop

/-- A reader returns a value exactly when the places that come next point to keys for which it
stands, and it leaves the window behind them. -/
def Windowed.Denotes {α : Type} (m : Windowed α) (R : Denotation α) : Prop :=
  ∀ (window : KeysWindow) (a : α) (window' : KeysWindow),
    m.run window = .ok (a, window') ↔ ∃ places keys rest,
      window.accounts.drop window.index = places ++ rest ∧ PointTo window.keys places keys ∧
        R window.programId keys a ∧
        window' = { window with index := window.index + places.length }

/-- No more keys. -/
def Denotation.pure {α : Type} (a : α) : Denotation α := fun _ keys b => keys = [] ∧ b = a

/-- One key, and what the rest makes of it. -/
def Denotation.next {α : Type} (R : Pubkey → Denotation α) : Denotation α :=
  fun program keys a => ∃ key more, keys = key :: more ∧ R key program more a

/-- One account that can be left out, and is not the program itself. -/
def Denotation.nextOpt {α : Type} (R : Option Pubkey → Denotation α) : Denotation α :=
  fun program keys a => ∃ account more, account ≠ some program ∧
    keys = account.getD program :: more ∧ R account program more a

namespace Windowed.Denotes

variable {α β : Type}

theorem congr {m : Windowed α} {R R' : Denotation α} (h : m.Denotes R)
    (hR : ∀ program keys a, R program keys a ↔ R' program keys a) : m.Denotes R' := by
  have : R = R' := by
    ext program keys a
    exact hR program keys a
  exact this ▸ h

theorem pure (a : α) : Windowed.Denotes (Pure.pure a) (.pure a) := by
  intro window b window'
  constructor
  · intro h
    obtain ⟨rfl, rfl⟩ := Prod.mk.inj (Outcome.ok.inj h)
    exact ⟨[], [], _, rfl, .nil, ⟨rfl, rfl⟩, rfl⟩
  · rintro ⟨places, keys, rest, -, hpoint, ⟨rfl, rfl⟩, rfl⟩
    cases hpoint
    rfl

/-- A reader goes on after a key with what it makes of it. -/
theorem bind_next {m : Pubkey → Windowed α} {R : Pubkey → Denotation α}
    (h : ∀ key, (m key).Denotes (R key)) :
    Windowed.Denotes (nextAccountKey >>= m) (.next R) := by
  intro window a window'
  constructor
  · intro hrun
    cases hdrop : window.accounts.drop window.index with
    | nil =>
      rw [StateT.run_bind, nextAccountKey_run_nil hdrop] at hrun
      cases hrun
    | cons place rest =>
      obtain ⟨hnext, hrest⟩ := nextAccountKey_run_cons hdrop
      rw [StateT.run_bind, hnext, Outcome.bind_eq_ok] at hrun
      obtain ⟨⟨_, _⟩, hread, hrun⟩ := hrun
      obtain ⟨key, hkey, hmiddle⟩ := Outcome.bind_eq_ok.mp hread
      obtain ⟨rfl, rfl⟩ := Prod.mk.inj (Outcome.ok.inj hmiddle)
      obtain ⟨places, keys, rest', hplaces, hpoint, hR, rfl⟩ := (h _ _ _ _).mp hrun
      refine ⟨place :: places, key :: keys, rest', ?_,
        .cons (Outcome.ofOption_eq_ok.mp hkey) hpoint, ⟨key, keys, rfl, hR⟩, ?_⟩
      · rw [List.cons_append, ← hplaces, ← hrest]
      · rw [List.length_cons, Nat.add_right_comm]
        rfl
  · rintro ⟨places, keys, rest, hplaces, hpoint, ⟨key, more, rfl, hR⟩, rfl⟩
    cases hpoint with
    | @cons place _ places _ hkey hmore =>
      obtain ⟨hnext, hrest⟩ := nextAccountKey_run_cons hplaces
      rw [StateT.run_bind, hnext, hkey, Outcome.ofOption_some, Outcome.ok_bind, Outcome.pure_eq,
        Outcome.ok_bind]
      refine (h _ _ _ _).mpr ⟨places, more, rest, hrest, hmore, hR, ?_⟩
      rw [List.length_cons, Nat.add_right_comm]
      rfl

/-- A reader goes on after a key that can be left out. -/
theorem bind_nextOpt {m : Option Pubkey → Windowed α} {R : Option Pubkey → Denotation α}
    (h : ∀ key, (m key).Denotes (R key)) :
    Windowed.Denotes (nextAnchorOptAccountKey >>= m) (.nextOpt R) := by
  intro window a window'
  have hnext := (bind_next fun key => h (unlessProgram window.programId key)) window a window'
  have hsame : ∀ keys,
      Denotation.next (fun key => R (unlessProgram window.programId key)) window.programId keys a ↔
        Denotation.nextOpt R window.programId keys a := by
    intro keys
    constructor
    · rintro ⟨key, more, rfl, hR⟩
      obtain ⟨hne, hkey⟩ := eq_unlessProgram_iff.mp (Eq.refl (unlessProgram window.programId key))
      exact ⟨_, more, hne, by rw [← hkey], hR⟩
    · rintro ⟨account, more, hne, rfl, hR⟩
      have haccount := eq_unlessProgram_iff.mpr ⟨hne, rfl⟩
      refine ⟨_, more, rfl, ?_⟩
      simp only
      rwa [← haccount]
  simp only [hsame] at hnext
  rw [show (nextAnchorOptAccountKey >>= m).run window =
    (nextAccountKey >>= fun key => m (unlessProgram window.programId key)).run window from ?_]
  · exact hnext
  · rw [nextAnchorOptAccountKey, bind_assoc, StateT.run_bind, StateT.run_bind]
    cases hdrop : window.accounts.drop window.index with
    | nil => rw [nextAccountKey_run_nil hdrop, Outcome.panic_bind, Outcome.panic_bind]
    | cons place rest =>
      rw [(nextAccountKey_run_cons hdrop).1]
      cases window.keys[place.toNat]? <;> rfl

/-- Arguments take no keys. -/
theorem bind_args {c : Codec UInt8 β} {slice : Bytes} {m : β → Windowed α}
    {R : β → Denotation α} (h : ∀ args, (m args).Denotes (R args)) :
    Windowed.Denotes (decodeArgs c slice >>= m) fun program keys a =>
      ∃ args more, c.Valid args ∧ slice = c.encode args ++ more ∧ R args program keys a := by
  intro window a window'
  rw [StateT.run_bind, decodeArgs]
  cases hdecode : c.decode slice with
  | none =>
    refine iff_of_false ?_ ?_
    · intro hrun
      cases hrun
    · rintro ⟨-, -, -, -, -, ⟨args, more, hvalid, rfl, -⟩, -⟩
      rw [c.decode_encode hvalid] at hdecode
      cases hdecode
  | some decoded =>
    obtain ⟨args, more⟩ := decoded
    obtain ⟨hvalid, hslice⟩ := c.decode_eq_some_iff.mp hdecode
    refine (h args window a window').trans ?_
    constructor
    · rintro ⟨places, keys, rest, hplaces, hpoint, hR, hwindow⟩
      exact ⟨places, keys, rest, hplaces, hpoint, ⟨args, more, hvalid, hslice, hR⟩, hwindow⟩
    · rintro ⟨places, keys, rest, hplaces, hpoint, ⟨args', more', hvalid', hslice', hR⟩, hwindow⟩
      obtain ⟨rfl, -⟩ := c.encode_append_inj hvalid hvalid' (hslice.symm.trans hslice')
      exact ⟨places, keys, rest, hplaces, hpoint, hR, hwindow⟩

/-- A value that is only wrapped. -/
theorem map {m : Windowed β} {R : Denotation β} (h : m.Denotes R) (f : β → α) :
    Windowed.Denotes (m >>= fun b => Pure.pure (f b)) fun program keys a =>
      ∃ b, R program keys b ∧ a = f b := by
  intro window a window'
  rw [StateT.run_bind, Outcome.bind_eq_ok]
  constructor
  · rintro ⟨⟨b, middle⟩, hrun, hpure⟩
    obtain ⟨rfl, rfl⟩ := Prod.mk.inj (Outcome.ok.inj hpure)
    obtain ⟨places, keys, rest, hplaces, hpoint, hR, rfl⟩ := (h _ _ _).mp hrun
    exact ⟨places, keys, rest, hplaces, hpoint, ⟨b, hR, rfl⟩, rfl⟩
  · rintro ⟨places, keys, rest, hplaces, hpoint, ⟨b, hR, rfl⟩, rfl⟩
    exact ⟨⟨b, _⟩, (h _ _ _).mpr ⟨places, keys, rest, hplaces, hpoint, hR, rfl⟩, rfl⟩

end Windowed.Denotes

/-! ## Decoding -/

/-- An instruction is split into its discriminator and the rest, which decides how its accounts
are read. -/
def decodeWith {α : Type} (read : Bytes → Bytes → Windowed α) (instruction : CompiledInstruction)
    (keys : List Pubkey) : Parsed α := do
  let (discriminator, rest) ← splitDiscriminator instruction.data
  let window ← KeysWindow.newFromInstruction keys instruction
  let (parsed, _) ← (read discriminator rest).run window
  pure parsed

theorem splitDiscriminator_eq_ok_iff {data discriminator rest : Bytes} :
    splitDiscriminator data = .ok (discriminator, rest) ↔
      discriminator.length = 8 ∧ data = discriminator ++ rest := by
  unfold splitDiscriminator
  constructor
  · intro h
    split at h
    · rename_i hlength
      obtain ⟨rfl, rfl⟩ := Prod.mk.inj (Outcome.ok.inj h)
      exact ⟨List.length_take_of_le hlength, (List.take_append_drop 8 data).symm⟩
    · cases h
  · rintro ⟨hlength, rfl⟩
    have hle : 8 ≤ (discriminator ++ rest).length := by
      rw [List.length_append, hlength]
      exact Nat.le_add_right 8 _
    rw [if_pos hle, List.take_left' hlength, List.drop_left' hlength]
    rfl

/-- What an instruction is decoded to when the readers denote relations. -/
theorem decodeWith_eq_ok_iff {α : Type} {read : Bytes → Bytes → Windowed α}
    {R : Bytes → Bytes → Denotation α}
    (h : ∀ discriminator rest, discriminator.length = 8 →
      (read discriminator rest).Denotes (R discriminator rest))
    {instruction : CompiledInstruction} {table : List Pubkey} {a : α} :
    decodeWith read instruction table = .ok a ↔
      ∃ discriminator rest program places keys more, discriminator.length = 8 ∧
        instruction.data = discriminator ++ rest ∧
        table[instruction.programIdIndex.toNat]? = some program ∧
        instruction.accounts = places ++ more ∧ PointTo table places keys ∧
        R discriminator rest program keys a := by
  simp only [decodeWith, KeysWindow.newFromInstruction, Outcome.bind_eq_ok, Outcome.unwrap_eq_ok,
    Prod.exists, splitDiscriminator_eq_ok_iff]
  constructor
  · rintro ⟨discriminator, rest, ⟨hlength, hdata⟩, window, ⟨program, hprogram, hwindow⟩, b,
      window', hrun, hpure⟩
    obtain rfl := Outcome.ok.inj hwindow
    obtain rfl := Outcome.ok.inj hpure
    obtain ⟨places, keys, more, hplaces, hpoint, hR, -⟩ := (h _ _ hlength _ _ _).mp hrun
    exact ⟨discriminator, rest, program, places, keys, more, hlength, hdata, hprogram, hplaces,
      hpoint, hR⟩
  · rintro ⟨discriminator, rest, program, places, keys, more, hlength, hdata, hprogram, hplaces,
      hpoint, hR⟩
    exact ⟨discriminator, rest, ⟨hlength, hdata⟩, _, ⟨program, hprogram, rfl⟩, a, _,
      (h _ _ hlength _ _ _).mpr ⟨places, keys, more, hplaces, hpoint, hR, rfl⟩, rfl⟩

namespace InstructionSet

variable {α β γ : Type} {set : InstructionSet α}

/-- What is left of an instruction after its discriminator stands for a value. -/
def Denotation (set : InstructionSet α) (discriminator rest : Bytes) : Parser.Denotation α :=
  fun program keys a => set.WellFormed program a ∧ set.discriminator a = discriminator ∧
    set.serializeArgs a <+: rest ∧ keys = (set.accountMetas program a).map (·.pubkey)

/-- A reader of an instruction set takes in what the instructions are built from. -/
def ReadBy (set : InstructionSet α) (read : Bytes → Bytes → Windowed α) : Prop :=
  ∀ discriminator rest, discriminator.length = 8 →
    (read discriminator rest).Denotes (set.Denotation discriminator rest)

/-- A branch of a reader, which reads the arguments and then the accounts of one kind of
instruction. -/
theorem denotes_branch {discriminator : Bytes} (rest : Bytes) {args : Codec UInt8 β}
    {accounts : Windowed γ} {metas : Pubkey → γ → List AccountMeta} {Given : Pubkey → γ → Prop}
    {make : β → γ → α}
    (haccounts : accounts.Denotes fun program keys c =>
      keys = (metas program c).map (·.pubkey) ∧ Given program c)
    (hdata : ∀ b c, set.discriminator (make b c) = discriminator ∧
      set.serializeArgs (make b c) = args.encode b)
    (hmetas : ∀ program b c, set.accountMetas program (make b c) = metas program c)
    (hvalid : ∀ program b c, set.WellFormed program (make b c) ↔ args.Valid b ∧ Given program c)
    (honly : ∀ program a, set.WellFormed program a → set.discriminator a = discriminator →
      ∃ b c, a = make b c) :
    Windowed.Denotes
      (decodeArgs args rest >>= fun b => accounts >>= fun c => Pure.pure (make b c))
      (set.Denotation discriminator rest) := by
  refine .congr (.bind_args fun b => .map haccounts (make b)) fun program keys a => ?_
  constructor
  · rintro ⟨b, more, hb, rfl, c, ⟨rfl, hc⟩, rfl⟩
    refine ⟨(hvalid program b c).mpr ⟨hb, hc⟩, (hdata b c).1, ?_, by rw [hmetas]⟩
    rw [(hdata b c).2]
    exact List.prefix_append _ _
  · rintro ⟨hwell, hdiscriminator, ⟨more, hmore⟩, rfl⟩
    obtain ⟨b, c, rfl⟩ := honly program a hwell hdiscriminator
    obtain ⟨hb, hc⟩ := (hvalid program b c).mp hwell
    rw [(hdata b c).2] at hmore
    exact ⟨b, more, hb, hmore.symm, c, ⟨by rw [hmetas], hc⟩, rfl⟩

/-- A branch for a kind of instruction whose accounts cannot be left out. -/
theorem denotes_required_branch {discriminator : Bytes} (rest : Bytes) {args : Codec UInt8 β}
    {accounts : Windowed γ} {metas : γ → List AccountMeta} {make : β → γ → α}
    (haccounts : accounts.Denotes fun _ keys c => keys = (metas c).map (·.pubkey))
    (hdata : ∀ b c, set.discriminator (make b c) = discriminator ∧
      set.serializeArgs (make b c) = args.encode b)
    (hmetas : ∀ program b c, set.accountMetas program (make b c) = metas c)
    (hvalid : ∀ program b c, set.WellFormed program (make b c) ↔ args.Valid b)
    (honly : ∀ program a, set.WellFormed program a → set.discriminator a = discriminator →
      ∃ b c, a = make b c) :
    Windowed.Denotes
      (decodeArgs args rest >>= fun b => accounts >>= fun c => Pure.pure (make b c))
      (set.Denotation discriminator rest) := by
  have haccounts' : accounts.Denotes fun _ keys c =>
      keys = (metas c).map (·.pubkey) ∧ True :=
    haccounts.congr fun _ _ _ => iff_of_eq (and_true _).symm
  refine denotes_branch rest haccounts' hdata hmetas (fun program b c => ?_) honly
  exact (hvalid program b c).trans (iff_of_eq (and_true _).symm)

/-- Decoding yields the values from which an instruction is built that the message starts with. -/
theorem decodeWith_eq_ok_iff_begins {read : Bytes → Bytes → Windowed α} (h : set.ReadBy read)
    {table : List Pubkey} {compiled : CompiledInstruction} {a : α} :
    decodeWith read compiled table = .ok a ↔ ∃ program, set.WellFormed program a ∧
      (set.instruction program a []).Begins table compiled := by
  rw [decodeWith_eq_ok_iff h]
  constructor
  · rintro ⟨discriminator, rest, program, places, keys, more, hlength, hdata, hprogram, haccounts,
      hpoint, hwell, rfl, ⟨tail, rfl⟩, rfl⟩
    refine ⟨program, hwell, hprogram, ⟨places, ⟨more, haccounts.symm⟩, ?_⟩, ⟨tail, ?_⟩⟩
    · rwa [instruction, List.append_nil]
    · rw [hdata, instruction, List.append_assoc]
  · rintro ⟨program, hwell, hprogram, ⟨places, ⟨more, hmore⟩, hpoint⟩, tail, htail⟩
    rw [instruction, List.append_nil] at hpoint
    rw [instruction, List.append_assoc] at htail
    exact ⟨set.discriminator a, set.serializeArgs a ++ tail, program, places, _, more,
      set.length_discriminator hwell, htail.symm, hprogram, hmore.symm, hpoint, hwell, rfl,
      List.prefix_append _ _, rfl⟩

end InstructionSet

end Biscuit.Parser
