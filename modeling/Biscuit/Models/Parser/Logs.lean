import Biscuit.Core.Occurrence
import Biscuit.Models.Parser.Transaction

/-!
# Log lines and the call stack they are read with

The log of a transaction tells which program wrote a line only through the invocations
around it. The parser rebuilds the call stack from the text of the lines and takes the
payloads of the lines that it sees below its target. The Base64 decoder is a library's.
-/

namespace Biscuit.Parser

/-- `PROGRAM_LOG` -/
def programLog : Text := "Program log: ".toList

/-- `PROGRAM_DATA` -/
def programData : Text := "Program data: ".toList

/-- The word that the lines of the runtime start with. -/
def programWord : Text := "Program ".toList

/-- What the runtime writes after the program of an invocation. -/
def invokeWord : Text := " invoke".toList

/-- `^Program (.*)`: what follows the first word of a line without a line break. -/
def afterProgram (log : Text) : Option Text :=
  match log.dropPrefix? programWord with
  | some rest => if '\n' ∈ rest then none else some rest
  | none => none

/-- `CPI_PUSH_RE`, `^Program (.*) invoke.*$`: the group, which is as long as it can be. -/
def cpiPushCapture (log : Text) : Option Text :=
  (afterProgram log).bind (beforeLast invokeWord)

/-- `CPI_POP_RE`, `^Program (.*) success*$`: the last `s` can be repeated or missing. -/
def cpiPopIsMatch (log : Text) : Bool :=
  match afterProgram log with
  | some rest => (List.range (rest.length + 1)).any fun n =>
      (" succes".toList ++ List.replicate n 's').isSuffixOf rest
  | none => false

/-- What a line does to the call stack. -/
inductive CpiStackManipulation
  | push (program : Text)
  | pop
  | none
  deriving DecidableEq, Repr

/-- `handle_system_log` -/
def handleSystemLog (log : Text) : CpiStackManipulation :=
  match cpiPushCapture log with
  | some program => .push program
  | none => if cpiPopIsMatch log then .pop else .none

/-- A line does nothing to the stack if an invocation occurs nowhere in it and it does not end
like a return. -/
theorem handleSystemLog_eq_none_iff {log rest : Text} (h : afterProgram log = some rest) :
    handleSystemLog log = .none ↔
      ¬ invokeWord <:+: rest ∧ ∀ n, ¬ " succes".toList ++ List.replicate n 's' <:+ rest := by
  have hpop : cpiPopIsMatch log = true ↔
      ∃ n, " succes".toList ++ List.replicate n 's' <:+ rest := by
    simp only [cpiPopIsMatch, h, List.any_eq_true, List.mem_range, List.isSuffixOf_iff_suffix]
    constructor
    · rintro ⟨n, -, hn⟩
      exact ⟨n, hn⟩
    · rintro ⟨n, hn⟩
      have hlength := hn.length_le
      rw [List.length_append, List.length_replicate] at hlength
      exact ⟨n, by omega, hn⟩
  rw [← beforeLast_eq_none_iff, ← not_exists, ← hpop, handleSystemLog, cpiPushCapture, h,
    Option.bind_some]
  cases beforeLast invokeWord rest with
  | some program => simp
  | none => by_cases hmatch : cpiPopIsMatch log = true <;> simp [hmatch]

/-- The text after the prefix of a line that a program has logged. -/
def loggedText (l : Text) : Option Text :=
  (l.dropPrefix? programLog).or (l.dropPrefix? programData)

/-- `handle_program_log` -/
def handleProgramLog (decode : Text → Option Bytes) (l : Text) :
    Option Bytes × CpiStackManipulation :=
  match loggedText l with
  | some log => (decode log, .none)
  | none => (none, handleSystemLog l)

/-- `ProgramCpiStack`, innermost program first. -/
abbrev ProgramCpiStack := List Text

namespace ProgramCpiStack

/-- `ProgramCpiStack::program` -/
def program (execution : ProgramCpiStack) : Parsed Text :=
  match execution with
  | top :: _ => .ok top
  | [] => .panic

/-- `ProgramCpiStack::push` -/
def push (newProgram : Text) (execution : ProgramCpiStack) : ProgramCpiStack :=
  newProgram :: execution

/-- `ProgramCpiStack::pop` -/
def pop (execution : ProgramCpiStack) : Parsed ProgramCpiStack :=
  match execution with
  | _ :: below => .ok below
  | [] => .panic

end ProgramCpiStack

/-- The state of the loop over the lines. -/
structure LogScan where
  execution : ProgramCpiStack
  events : Table Pubkey (List Bytes)

/-- The body of the loop in `parse_transaction_logs`. -/
def parseLogLine (decode : Text → Option Bytes) (targetProgramId : Option Pubkey)
    (scan : LogScan) (l : Text) : Parsed LogScan := do
  let executionProgram ← scan.execution.program
  let logFilter := match targetProgramId with
    | some program => program.toText == executionProgram
    | none => true
  let (event, pushOrPop) :=
    if !scan.execution.isEmpty && logFilter then handleProgramLog decode l
    else (none, handleSystemLog l)
  let events ← match event with
    | some event => do
      let program ← Outcome.unwrap (Pubkey.ofText executionProgram)
      pure (scan.events.modifyOrInsert program (· ++ [event]) [event])
    | none => pure scan.events
  let execution ← match pushOrPop with
    | .push newProgram => pure (scan.execution.push newProgram)
    | .pop => scan.execution.pop
    | .none => pure scan.execution
  pure ⟨execution, events⟩

/-- `parse_transaction_logs`; the stack starts with the program of the first line, which
the loop reads again. -/
def parseTransactionLogs (decode : Text → Option Bytes) (logs : List Text)
    (targetProgramId : Option Pubkey) : Parsed (Table Pubkey (List Bytes)) :=
  match logs with
  | [] => pure ∅
  | first :: _ =>
    match cpiPushCapture first with
    | none => pure ∅
    | some program => do
      let scan ← logs.foldlM (parseLogLine decode targetProgramId) ⟨[program], ∅⟩
      pure scan.events

/-- `get_logs_for_program`; with a target the map has one value at most. -/
def getLogsForProgram (decode : Text → Option Bytes) (transaction : ITransaction)
    (targetProgram : Pubkey) : Parsed (List Bytes) := do
  let logs ← parseTransactionLogs decode transaction.logMessages (some targetProgram)
  pure ((Table.values logs).headD [])

/-! ## The scan for one program -/

/-- What a line does to a stack that is not empty. -/
def CpiStackManipulation.apply (pushOrPop : CpiStackManipulation)
    (execution : ProgramCpiStack) : ProgramCpiStack :=
  match pushOrPop with
  | push newProgram => execution.push newProgram
  | pop => execution.tail
  | none => execution

/-- What the parser takes from a line, and what it thinks the line does to the stack. -/
def readLine (decode : Text → Option Bytes) (target : Pubkey) (top : Text) (l : Text) :
    Option Bytes × CpiStackManipulation :=
  if target.toText = top then handleProgramLog decode l else (none, handleSystemLog l)

/-- No line is read while the rebuilt stack is empty. -/
def neverEmpty (decode : Text → Option Bytes) (target : Pubkey) :
    ProgramCpiStack → List Text → Prop
  | _, [] => True
  | [], _ :: _ => False
  | top :: below, l :: logs =>
    neverEmpty decode target ((readLine decode target top l).2.apply (top :: below)) logs

/-- The payloads of the lines that the parser reads below its target. -/
def scannedPayloads (decode : Text → Option Bytes) (target : Pubkey) :
    ProgramCpiStack → List Text → List Bytes
  | top :: below, l :: logs =>
    (readLine decode target top l).1.toList ++
      scannedPayloads decode target ((readLine decode target top l).2.apply (top :: below)) logs
  | _, _ => []

@[simp] theorem neverEmpty_nil (decode : Text → Option Bytes) (target : Pubkey)
    (execution : ProgramCpiStack) : neverEmpty decode target execution [] := by
  cases execution <;> trivial

@[simp] theorem scannedPayloads_nil (decode : Text → Option Bytes) (target : Pubkey)
    (execution : ProgramCpiStack) : scannedPayloads decode target execution [] = [] := by
  cases execution <;> rfl

/-- The map of the payloads of one program. -/
def payloadTable (target : Pubkey) (payloads : List Bytes) : Table Pubkey (List Bytes) :=
  if payloads = [] then ∅ else AList.insert target payloads ∅

theorem modifyOrInsert_payloadTable (target : Pubkey) (payloads : List Bytes) (event : Bytes) :
    (payloadTable target payloads).modifyOrInsert target (· ++ [event]) [event] =
      payloadTable target (payloads ++ [event]) := by
  have hne : payloads ++ [event] ≠ [] := by simp
  by_cases h : payloads = []
  · subst h
    rfl
  · simp only [payloadTable, if_neg h, if_neg hne, Table.modifyOrInsert, AList.lookup_insert,
      Option.elim_some, AList.insert_insert]

theorem headD_values_payloadTable (target : Pubkey) (payloads : List Bytes) :
    (Table.values (payloadTable target payloads)).headD [] = payloads := by
  by_cases h : payloads = []
  · rw [payloadTable, if_pos h, h]
    rfl
  · rw [payloadTable, if_neg h]
    rfl

/-- One line keeps the payload of its program and moves the stack. -/
theorem parseLogLine_cons (decode : Text → Option Bytes) (target : Pubkey) (top : Text)
    (below : ProgramCpiStack) (payloads : List Bytes) (l : Text) :
    parseLogLine decode (some target) ⟨top :: below, payloadTable target payloads⟩ l =
      .ok ⟨(readLine decode target top l).2.apply (top :: below),
        payloadTable target (payloads ++ (readLine decode target top l).1.toList)⟩ := by
  by_cases htop : target.toText = top
  · subst htop
    cases h : handleProgramLog decode l with
    | mk event pushOrPop =>
      cases event with
      | none =>
        simp only [parseLogLine, ProgramCpiStack.program, readLine, h, Outcome.ok_bind,
          List.isEmpty_cons, Bool.not_false, beq_self_eq_true, Bool.and_self, if_true,
          Outcome.pure_eq, Option.toList_none, List.append_nil]
        cases pushOrPop <;> rfl
      | some event =>
        simp only [parseLogLine, ProgramCpiStack.program, readLine, h, Outcome.ok_bind,
          List.isEmpty_cons, Bool.not_false, beq_self_eq_true, Bool.and_self, if_true,
          Pubkey.ofText_toText, Outcome.unwrap_some, Outcome.pure_eq,
          modifyOrInsert_payloadTable, Option.toList_some]
        cases pushOrPop <;> rfl
  · have hfilter : (target.toText == top) = false := beq_eq_false_iff_ne.mpr htop
    simp only [parseLogLine, ProgramCpiStack.program, readLine, Outcome.ok_bind, hfilter,
      Bool.and_false, Bool.false_eq_true, if_false, if_neg htop, Outcome.pure_eq,
      Option.toList_none, List.append_nil]
    cases handleSystemLog l <;> rfl

/-- The loop keeps the scanned payloads if the stack never runs empty. -/
theorem foldlM_parseLogLine (decode : Text → Option Bytes) (target : Pubkey)
    (execution : ProgramCpiStack) (payloads : List Bytes) (logs : List Text)
    (h : neverEmpty decode target execution logs) :
    ∃ execution', logs.foldlM (parseLogLine decode (some target))
        ⟨execution, payloadTable target payloads⟩ =
      .ok ⟨execution', payloadTable target
        (payloads ++ scannedPayloads decode target execution logs)⟩ := by
  induction logs generalizing execution payloads with
  | nil => exact ⟨execution, by rw [scannedPayloads_nil, List.append_nil]; rfl⟩
  | cons l logs ih =>
    cases execution with
    | nil => exact h.elim
    | cons top below =>
      obtain ⟨execution', hrest⟩ :=
        ih _ (payloads ++ (readLine decode target top l).1.toList) h
      refine ⟨execution', ?_⟩
      rw [List.foldlM_cons, parseLogLine_cons, Outcome.ok_bind, hrest, List.append_assoc]
      rfl

/-- The loop panics if the stack runs empty before a line. -/
theorem foldlM_parseLogLine_panic (decode : Text → Option Bytes) (target : Pubkey)
    (execution : ProgramCpiStack) (payloads : List Bytes) (logs : List Text)
    (h : ¬ neverEmpty decode target execution logs) :
    logs.foldlM (parseLogLine decode (some target))
      ⟨execution, payloadTable target payloads⟩ = .panic := by
  induction logs generalizing execution payloads with
  | nil => exact (h (neverEmpty_nil decode target execution)).elim
  | cons l logs ih =>
    cases execution with
    | nil => rfl
    | cons top below =>
      rw [List.foldlM_cons, parseLogLine_cons, Outcome.ok_bind]
      exact ih _ _ h

/-- The stack that `ProgramCpiStack::new` makes of the first line, and the lines it is used
for: none if the first line is not an invocation. -/
def scanStart (logs : List Text) : ProgramCpiStack × List Text :=
  match (logs.head?).bind cpiPushCapture with
  | some program => ([program], logs)
  | none => ([], [])

/-- `parse_transaction_logs` for one program. -/
theorem parseTransactionLogs_of_neverEmpty {decode : Text → Option Bytes} {target : Pubkey}
    {logs : List Text}
    (h : neverEmpty decode target (scanStart logs).1 (scanStart logs).2) :
    parseTransactionLogs decode logs (some target) = .ok (payloadTable target
      (scannedPayloads decode target (scanStart logs).1 (scanStart logs).2)) := by
  cases logs with
  | nil => rfl
  | cons first rest =>
    cases hfirst : cpiPushCapture first with
    | none =>
      simp only [parseTransactionLogs, scanStart, List.head?_cons, Option.bind_some, hfirst]
      rfl
    | some program =>
      simp only [scanStart, List.head?_cons, Option.bind_some, hfirst] at h ⊢
      obtain ⟨execution', hscan⟩ :=
        foldlM_parseLogLine decode target [program] [] (first :: rest) h
      simp only [parseTransactionLogs, hfirst]
      rw [show (∅ : Table Pubkey (List Bytes)) = payloadTable target [] from rfl, hscan]
      rfl

theorem parseTransactionLogs_of_not_neverEmpty {decode : Text → Option Bytes}
    {target : Pubkey} {logs : List Text}
    (h : ¬ neverEmpty decode target (scanStart logs).1 (scanStart logs).2) :
    parseTransactionLogs decode logs (some target) = .panic := by
  cases logs with
  | nil => exact (h trivial).elim
  | cons first rest =>
    cases hfirst : cpiPushCapture first with
    | none =>
      simp only [scanStart, List.head?_cons, Option.bind_some, hfirst] at h
      exact (h trivial).elim
    | some program =>
      simp only [scanStart, List.head?_cons, Option.bind_some, hfirst] at h
      have hscan := foldlM_parseLogLine_panic decode target [program] [] (first :: rest) h
      simp only [parseTransactionLogs, hfirst]
      rw [show (∅ : Table Pubkey (List Bytes)) = payloadTable target [] from rfl, hscan]
      rfl

/-- `get_logs_for_program` returns the payloads that the scan reads below the program. -/
theorem getLogsForProgram_of_neverEmpty {decode : Text → Option Bytes} {target : Pubkey}
    {transaction : ITransaction}
    (h : neverEmpty decode target (scanStart transaction.logMessages).1
      (scanStart transaction.logMessages).2) :
    getLogsForProgram decode transaction target = .ok (scannedPayloads decode target
      (scanStart transaction.logMessages).1 (scanStart transaction.logMessages).2) := by
  rw [getLogsForProgram, parseTransactionLogs_of_neverEmpty h, Outcome.ok_bind,
    headD_values_payloadTable]
  rfl

end Biscuit.Parser
