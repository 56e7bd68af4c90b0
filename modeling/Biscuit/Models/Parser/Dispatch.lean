import Biscuit.Models.Parser.Jupiter.Instructions
import Biscuit.Models.Parser.Orca.Instructions

/-!
# Instructions of a message

The parser decides by the program that an instruction calls which decoder reads it.
-/

namespace Biscuit.Parser

/-- `CAMMCzo5YL8w4VFF8KVHrK22GGUsp5VTaW7grrKgrWqK` -/
def raydiumConcentratedLiquidityProgramId : Pubkey :=
  0xa5d5ca9e04cf5db590b714ba2fe32cb159133fc1c192b72257fd07d39cb0401e#256

/-- `whirLbMiicVdio4qvUfM5KAg6Ct8VwpYzGff3uctyCc` -/
def orcaWhirlpoolsProgramId : Pubkey :=
  0x0e03685f8e909053e458121c66f5a76aedc7706aa11c82f8aa952a8f2b7879a9#256

open Jupiter Orca

/-- `ParsedInstruction` -/
inductive ParsedInstruction (library : RaydiumAmmV3)
  | jupiter (instruction : ParsedJupiterInstruction)
  | raydiumV6 (instruction : ParsedRaydiumV6Instruction library)
  | raydiumV4 (instruction : ParsedRaydiumV4Instruction)
  | orca (instruction : ParsedOrcaInstruction)

/-- `V1Parser::parse_instruction` -/
def parseInstruction (library : RaydiumAmmV3) (decoders : Decoders)
    (instruction : CompiledInstruction) (loadedKeys : List Pubkey) :
    Parsed (Option (ParsedInstruction library)) := do
  let programId ← .ofOption .invalidProgramId loadedKeys[instruction.programIdIndex.toNat]?
  if programId = jupiterAggregatorV6ProgramId then do
    let decoded ← decodeJupiterV6Instruction instruction loadedKeys
    pure (some (.jupiter decoded))
  else if programId = raydiumConcentratedLiquidityProgramId then do
    let decoded ← decodeRaydiumV6Instruction library instruction loadedKeys
    pure (some (.raydiumV6 decoded))
  else if programId = raydiumLiquidityPoolV4ProgramId then do
    let decoded ← decodeRaydiumV4Instruction decoders instruction loadedKeys
    pure (some (.raydiumV4 decoded))
  else if programId = orcaWhirlpoolsProgramId then do
    let decoded ← decodeOrcaInstruction instruction loadedKeys
    pure (some (.orca decoded))
  else if programId = pumpfunProgramId then
    -- Pumpfun instruction parsing is not supported
    pure none
  else pure none

/-! ## Generated clients -/

/-- An instruction of one of the two programs whose clients are generated. -/
inductive ClientInstruction
  | jupiter (instruction : ParsedJupiterInstruction)
  | orca (instruction : ParsedOrcaInstruction)
  deriving DecidableEq, Repr

namespace ClientInstruction

/-- The instruction that the client builds. -/
def instruction (remainingAccounts : List AccountMeta) : ClientInstruction → Instruction
  | .jupiter value =>
    ParsedJupiterInstruction.instructions.instruction jupiterAggregatorV6ProgramId value
      remainingAccounts
  | .orca value =>
    ParsedOrcaInstruction.instructions.instruction orcaWhirlpoolsProgramId value remainingAccounts

/-- The client can build it, and nothing in it stands for something else. -/
def WellFormed : ClientInstruction → Prop
  | .jupiter value => value.WellFormed jupiterAggregatorV6ProgramId
  | .orca value => value.WellFormed

/-- What the parser makes of it. -/
def parsed (library : RaydiumAmmV3) : ClientInstruction → ParsedInstruction library
  | .jupiter value => .jupiter value
  | .orca value => .orca value

end ClientInstruction

variable {library : RaydiumAmmV3} {decoders : Decoders} {compiled : CompiledInstruction}
  {table : List Pubkey}

/-- What the decoder of a program makes is only wrapped. -/
theorem decoded_eq_ok_iff {α β : Type} {decoded : Parsed α} {wrap : α → β} {value : β} :
    (do let a ← decoded; pure (some (wrap a)) : Parsed (Option β)) = .ok (some value) ↔
      ∃ a, decoded = .ok a ∧ wrap a = value := by
  rw [Outcome.bind_eq_ok]
  exact exists_congr fun a => and_congr_right' (by simp)

/-- Only the decoder of the program makes an instruction of Jupiter. -/
theorem parseInstruction_eq_jupiter_iff {value : ParsedJupiterInstruction} :
    parseInstruction library decoders compiled table = .ok (some (.jupiter value)) ↔
      table[compiled.programIdIndex.toNat]? = some jupiterAggregatorV6ProgramId ∧
        decodeJupiterV6Instruction compiled table = .ok value := by
  simp only [parseInstruction, Outcome.bind_eq_ok, Outcome.ofOption_eq_ok]
  constructor
  · rintro ⟨programId, hprogram, hparse⟩
    by_cases hjupiter : programId = jupiterAggregatorV6ProgramId
    · subst hjupiter
      rw [if_pos rfl] at hparse
      obtain ⟨decoded, hdecoded, hwrap⟩ := decoded_eq_ok_iff.mp hparse
      cases hwrap
      exact ⟨hprogram, hdecoded⟩
    -- every other branch makes another kind of value, or none
    split_ifs at hparse
    all_goals
      first
        | cases hparse
        | obtain ⟨decoded, -, hwrap⟩ := decoded_eq_ok_iff.mp hparse
          cases hwrap
  · rintro ⟨hprogram, hdecoded⟩
    refine ⟨_, hprogram, ?_⟩
    rw [if_pos rfl]
    exact decoded_eq_ok_iff.mpr ⟨value, hdecoded, rfl⟩

/-- Only the decoder of the program makes an instruction of the whirlpools. -/
theorem parseInstruction_eq_orca_iff {value : ParsedOrcaInstruction} :
    parseInstruction library decoders compiled table = .ok (some (.orca value)) ↔
      table[compiled.programIdIndex.toNat]? = some orcaWhirlpoolsProgramId ∧
        decodeOrcaInstruction compiled table = .ok value := by
  simp only [parseInstruction, Outcome.bind_eq_ok, Outcome.ofOption_eq_ok]
  constructor
  · rintro ⟨programId, hprogram, hparse⟩
    by_cases horca : programId = orcaWhirlpoolsProgramId
    · subst horca
      rw [if_neg (by decide), if_neg (by decide), if_neg (by decide), if_pos rfl] at hparse
      obtain ⟨decoded, hdecoded, hwrap⟩ := decoded_eq_ok_iff.mp hparse
      cases hwrap
      exact ⟨hprogram, hdecoded⟩
    -- every other branch makes another kind of value, or none
    split_ifs at hparse
    all_goals
      first
        | cases hparse
        | obtain ⟨decoded, -, hwrap⟩ := decoded_eq_ok_iff.mp hparse
          cases hwrap
  · rintro ⟨hprogram, hdecoded⟩
    refine ⟨_, hprogram, ?_⟩
    rw [if_neg (by decide), if_neg (by decide), if_neg (by decide), if_pos rfl]
    exact decoded_eq_ok_iff.mpr ⟨value, hdecoded, rfl⟩

/-- The parser makes of an instruction in a message what a generated client would have built with
its bytes and its first accounts, and nothing else. -/
theorem parseInstruction_eq_parsed_iff {value : ClientInstruction} :
    parseInstruction library decoders compiled table = .ok (some (value.parsed library)) ↔
      value.WellFormed ∧ (value.instruction []).Begins table compiled := by
  cases value with
  | jupiter value =>
    refine parseInstruction_eq_jupiter_iff.trans ?_
    rw [ParsedJupiterInstruction.decodeJupiterV6Instruction_eq_ok_iff]
    constructor
    · rintro ⟨hprogram, program, hwell, hbegins⟩
      obtain rfl := Option.some.inj (hbegins.program.symm.trans hprogram)
      exact ⟨hwell, hbegins⟩
    · rintro ⟨hwell, hbegins⟩
      exact ⟨hbegins.program, _, hwell, hbegins⟩
  | orca value =>
    refine parseInstruction_eq_orca_iff.trans ?_
    rw [ParsedOrcaInstruction.decodeOrcaInstruction_eq_ok_iff]
    constructor
    · rintro ⟨hprogram, program, hwell, hbegins⟩
      obtain rfl := Option.some.inj (hbegins.program.symm.trans hprogram)
      exact ⟨hwell, hbegins⟩
    · rintro ⟨hwell, hbegins⟩
      exact ⟨hbegins.program, _, hwell, hbegins⟩

/-- An instruction that a generated client built and that was compiled into any message is parsed
to what it was built from exactly when this is well formed, whatever accounts follow its own. -/
theorem parseInstruction_compiled_iff {value : ClientInstruction}
    {remainingAccounts : List AccountMeta}
    (h : (value.instruction remainingAccounts).CompiledTo table compiled) :
    parseInstruction library decoders compiled table = .ok (some (value.parsed library)) ↔
      value.WellFormed := by
  rw [parseInstruction_eq_parsed_iff]
  refine and_iff_left ?_
  cases value with
  | jupiter value => exact InstructionSet.begins_of_compiledTo h
  | orca value => exact InstructionSet.begins_of_compiledTo h

/-- A route of one step over numbered keys, without the accounts that can be left out. -/
def numberedRoute : ClientInstruction :=
  .jupiter (.route ⟨[⟨.raydium, 100, 0, 1⟩], 5, 4, 50, 0⟩ ⟨1, 2, 3, 4, none, 5, none, 6, 7⟩)

theorem parseInstruction_numberedRoute :
    parseInstruction fixedWidthLibrary rejectingDecoders (numberedRoute.instruction []).compile
      (numberedRoute.instruction []).table = .ok (some (numberedRoute.parsed fixedWidthLibrary)) :=
  (parseInstruction_compiled_iff (Instruction.compiledTo_compile (by decide))).mpr
    ⟨⟨by decide, by simp [Swap.Fits]⟩, by simp [Route.optional]⟩

end Biscuit.Parser
