import Biscuit.Models.Parser.Logs

/-!
# Whose payloads the log parser returns

The runtime renders a well-nested execution into lines. Read back, the rebuilt stack is the
stack of running programs, with the first program once more at its bottom, as long as no
line that another program logs looks like an invocation or a return. The lines that the
target itself logs are told apart by their prefixes, whatever they say.
-/

namespace Biscuit.Parser

/-! ## Executions and their logs -/

/-- The two ways in which a program logs. -/
inductive LogKind
  | log
  | data
  deriving DecidableEq, Repr

/-- What the runtime writes before a logged text. -/
def LogKind.linePrefix : LogKind → Text
  | log => programLog
  | data => programData

/-- What a running program does, in order: it logs texts and runs other programs. -/
inductive Trace
  | done
  | emit (kind : LogKind) (payload : Text) (rest : Trace)
  | call (program : Pubkey) (inner rest : Trace)
  deriving DecidableEq, Repr

/-- The line of an invocation. -/
def invokeLine (program : Pubkey) (depth : ℕ) : Text :=
  programWord ++ (program.toText ++ (invokeWord ++
    (" [".toList ++ (Nat.toDigits 10 depth ++ "]".toList))))

/-- The line of a return. -/
def successLine (program : Pubkey) : Text :=
  programWord ++ (program.toText ++ " success".toList)

/-- The line of a text that a program logs. -/
def logLine (kind : LogKind) (payload : Text) : Text := kind.linePrefix ++ payload

/-- The lines of what a program does at a depth of the call stack. -/
def Trace.render (depth : ℕ) : Trace → List Text
  | done => []
  | emit kind payload rest => logLine kind payload :: rest.render depth
  | call program inner rest =>
    invokeLine program (depth + 1) :: (inner.render (depth + 1) ++
      successLine program :: rest.render depth)

/-- The execution of the instructions of a transaction, each by its program. -/
def Trace.ofInstructions (instructions : List (Pubkey × Trace)) : Trace :=
  instructions.foldr (fun run rest => .call run.1 run.2 rest) .done

/-- The log of a transaction. -/
def renderLogs (instructions : List (Pubkey × Trace)) : List Text :=
  (Trace.ofInstructions instructions).render 0

/-- The payloads that decode among those logged while the target is the innermost running
program, in order. -/
def Trace.payloads (decode : Text → Option Bytes) (target : Pubkey) :
    Option Pubkey → Trace → List Bytes
  | _, done => []
  | running, emit _ payload rest =>
    (if running = some target then (decode payload).toList else []) ++
      rest.payloads decode target running
  | running, call program inner rest =>
    inner.payloads decode target (some program) ++ rest.payloads decode target running

/-- What a parser of logs should return for one program. -/
def payloadsOf (decode : Text → Option Bytes) (target : Pubkey)
    (instructions : List (Pubkey × Trace)) : List Bytes :=
  (Trace.ofInstructions instructions).payloads decode target none

/-- Every text that a program other than the target logs is of a kind. -/
def Trace.ForeignIn (allowed : LogKind → Text → Prop) (target : Pubkey) :
    Option Pubkey → Trace → Prop
  | _, done => True
  | running, emit kind payload rest =>
    (running ≠ some target → allowed kind payload) ∧ rest.ForeignIn allowed target running
  | running, call program inner rest =>
    inner.ForeignIn allowed target (some program) ∧ rest.ForeignIn allowed target running

/-- Two executions that differ at most in the texts that programs other than the target
log. -/
def Trace.SameFor (target : Pubkey) : Option Pubkey → Trace → Trace → Prop
  | _, done, done => True
  | running, emit kind payload rest, emit kind' payload' rest' =>
    kind = kind' ∧ (running = some target → payload = payload') ∧
      rest.SameFor target running rest'
  | running, call program inner rest, call program' inner' rest' =>
    program = program' ∧ inner.SameFor target (some program) inner' ∧
      rest.SameFor target running rest'
  | _, _, _ => False

theorem Trace.ForeignIn.mono {allowed allowed' : LogKind → Text → Prop} {target : Pubkey}
    {running : Option Pubkey} {trace : Trace} (h : trace.ForeignIn allowed target running)
    (himp : ∀ kind payload, allowed kind payload → allowed' kind payload) :
    trace.ForeignIn allowed' target running := by
  induction trace generalizing running with
  | done => trivial
  | emit kind payload rest ih => exact ⟨fun hrun => himp kind payload (h.1 hrun), ih h.2⟩
  | call program inner rest ihInner ihRest => exact ⟨ihInner h.1, ihRest h.2⟩

/-- Executions that agree for the target have the same payloads of it. -/
theorem Trace.SameFor.payloads_eq {decode : Text → Option Bytes} {target : Pubkey}
    {running : Option Pubkey} {trace trace' : Trace} (h : trace.SameFor target running trace') :
    trace.payloads decode target running = trace'.payloads decode target running := by
  induction trace generalizing running trace' with
  | done =>
    cases trace' with
    | done => rfl
    | emit kind payload rest => exact h.elim
    | call program inner rest => exact h.elim
  | emit kind payload rest ih =>
    cases trace' with
    | done => exact h.elim
    | call program inner rest' => exact h.elim
    | emit kind' payload' rest' =>
      obtain ⟨-, hpayload, hrest⟩ := h
      simp only [payloads, ih hrest]
      by_cases hrunning : running = some target
      · rw [hpayload hrunning]
      · rw [if_neg hrunning, if_neg hrunning]
  | call program inner rest ihInner ihRest =>
    cases trace' with
    | done => exact h.elim
    | emit kind payload rest' => exact h.elim
    | call program' inner' rest' =>
      obtain ⟨rfl, hinner, hrest⟩ := h
      simp only [payloads, ihInner hinner, ihRest hrest]

/-! ## How the lines of the runtime are read -/

theorem notMem_toText {c : Char} (hc : c.isAlphanum = false) (key : Pubkey) :
    c ∉ Pubkey.toText key := by
  intro h
  rw [Pubkey.isAlphanum_of_mem_toText h] at hc
  cases hc

theorem notMem_toDigits {c : Char} (hc : c.isDigit = false) (n : ℕ) : c ∉ Nat.toDigits 10 n := by
  intro h
  rw [Nat.isDigit_of_mem_toDigits (by decide) (by decide) h] at hc
  cases hc

theorem afterProgram_append {rest : Text} (h : '\n' ∉ rest) :
    afterProgram (programWord ++ rest) = some rest := by
  rw [afterProgram, List.dropPrefix?_append_of_beq rest (beq_self_eq_true _)]
  simp only [if_neg h]

/-- The program of an invocation is read from its line. -/
theorem cpiPushCapture_invokeLine (program : Pubkey) (depth : ℕ) :
    cpiPushCapture (invokeLine program depth) = some program.toText := by
  have hline : '\n' ∉ program.toText ++ (invokeWord ++
      (" [".toList ++ (Nat.toDigits 10 depth ++ "]".toList))) := by
    simp only [List.mem_append, not_or]
    exact ⟨notMem_toText (by decide) program, by decide, by decide,
      notMem_toDigits (by decide) depth, by decide⟩
  have hdigits : ' ' ∉ '[' :: (Nat.toDigits 10 depth ++ "]".toList) := by
    simp only [List.mem_cons, List.mem_append, not_or]
    exact ⟨by decide, notMem_toDigits (by decide) depth, by decide⟩
  have hlast : beforeLast invokeWord (invokeWord ++
      (" [".toList ++ (Nat.toDigits 10 depth ++ "]".toList))) = some [] := by
    have hword : invokeWord = ' ' :: "invoke".toList := by decide
    have hopen : " [".toList = [' ', '['] := by decide
    rw [hword, hopen]
    apply beforeLast_self
    apply beforeLast_append_of_notMem (by decide)
    apply beforeLast_cons_of_not_prefix (by simp [List.isPrefixOf])
    exact beforeLast_of_notMem hdigits
  rw [cpiPushCapture, invokeLine, afterProgram_append hline, Option.bind_some,
    beforeLast_append program.toText hlast, List.append_nil]

/-- An invocation is read as one. -/
theorem handleSystemLog_invokeLine (program : Pubkey) (depth : ℕ) :
    handleSystemLog (invokeLine program depth) = .push program.toText := by
  rw [handleSystemLog, cpiPushCapture_invokeLine]

/-- A return is read as one. -/
theorem handleSystemLog_successLine (program : Pubkey) :
    handleSystemLog (successLine program) = .pop := by
  have hline : '\n' ∉ program.toText ++ " success".toList := by
    rw [List.mem_append, not_or]
    exact ⟨notMem_toText (by decide) program, by decide⟩
  have hnone : beforeLast invokeWord (program.toText ++ " success".toList) = none :=
    beforeLast_append_of_notMem (notMem_toText (by decide) program) (by decide)
  have hafter : afterProgram (successLine program) =
      some (program.toText ++ " success".toList) := afterProgram_append hline
  have hpop : cpiPopIsMatch (successLine program) = true := by
    simp only [cpiPopIsMatch, hafter, List.any_eq_true, List.mem_range]
    refine ⟨1, by simp, List.isSuffixOf_iff_suffix.mpr ⟨program.toText, ?_⟩⟩
    rfl
  simp only [handleSystemLog, cpiPushCapture, hafter, Option.bind_some, hnone, hpop, if_true]

/-- A line about a program does not look like one that a program has logged. -/
theorem loggedText_program (program : Pubkey) (rest : Text) :
    loggedText (programWord ++ (program.toText ++ ' ' :: rest)) = none := by
  have hdrop : ∀ word : Text, ':' ∈ word → ' ' ∉ word →
      (programWord ++ (program.toText ++ ' ' :: rest)).dropPrefix?
        (programWord ++ (word ++ [' '])) = none := by
    intro word hcolon hspace
    cases hd : (programWord ++ (program.toText ++ ' ' :: rest)).dropPrefix?
        (programWord ++ (word ++ [' '])) with
    | none => rfl
    | some payload =>
      obtain ⟨pre, happend, hpre⟩ := List.dropPrefix?_eq_some_iff.mp hd
      rw [eq_of_beq hpre, List.append_assoc, List.append_assoc] at happend
      have hsame := List.append_cancel_left happend
      have hsplit := congrArg (List.takeWhile (· != ' ')) hsame
      rw [List.takeWhile_append_of_pos fun c hc => by
          simpa using ne_of_mem_of_not_mem hc (notMem_toText (by decide) program),
        List.takeWhile_append_of_pos fun c hc => by
          simpa using ne_of_mem_of_not_mem hc hspace] at hsplit
      have hword : program.toText = word := by simpa using hsplit
      exact (notMem_toText (by decide) program (hword ▸ hcolon)).elim
  have hlog := hdrop "log:".toList (by decide) (by decide)
  have hdata := hdrop "data:".toList (by decide) (by decide)
  rw [loggedText, show programLog = programWord ++ ("log:".toList ++ [' ']) by decide,
    show programData = programWord ++ ("data:".toList ++ [' ']) by decide, hlog, hdata]
  rfl

theorem loggedText_invokeLine (program : Pubkey) (depth : ℕ) :
    loggedText (invokeLine program depth) = none := by
  have hword : invokeWord = ' ' :: "invoke".toList := by decide
  rw [invokeLine, hword, List.cons_append, loggedText_program]

theorem loggedText_successLine (program : Pubkey) : loggedText (successLine program) = none := by
  have hword : " success".toList = ' ' :: "success".toList := by decide
  rw [successLine, hword, loggedText_program]

/-- The text of a line that a program has logged is read back. -/
theorem loggedText_logLine (kind : LogKind) (payload : Text) :
    loggedText (logLine kind payload) = some payload := by
  cases kind with
  | log =>
    rw [loggedText, logLine, LogKind.linePrefix,
      List.dropPrefix?_append_of_beq payload (beq_self_eq_true _)]
    rfl
  | data =>
    have hlog : (logLine .data payload).dropPrefix? programLog = none := by
      cases hd : (logLine .data payload).dropPrefix? programLog with
      | none => rfl
      | some text =>
        obtain ⟨pre, happend, hpre⟩ := List.dropPrefix?_eq_some_iff.mp hd
        rw [eq_of_beq hpre] at happend
        have hword : programData = programWord ++ 'd' :: "ata: ".toList := by decide
        have hword' : programLog = programWord ++ 'l' :: "og: ".toList := by decide
        rw [logLine, LogKind.linePrefix, hword, hword', List.append_assoc,
          List.append_assoc] at happend
        cases List.append_cancel_left happend
    rw [loggedText, hlog, logLine, LogKind.linePrefix,
      List.dropPrefix?_append_of_beq payload (beq_self_eq_true _)]
    rfl

/-! ## The rebuilt stack -/

/-- Lines that leave the rebuilt stack as it was, never empty, and yield some payloads. -/
def ScannedAs (decode : Text → Option Bytes) (target : Pubkey) (execution : ProgramCpiStack)
    (lines : List Text) (payloads : List Bytes) : Prop :=
  ∀ more : List Text,
    (neverEmpty decode target execution (lines ++ more) ↔
      neverEmpty decode target execution more) ∧
    scannedPayloads decode target execution (lines ++ more) =
      payloads ++ scannedPayloads decode target execution more

section Scan

variable {decode : Text → Option Bytes} {target : Pubkey}

theorem ScannedAs.nil (execution : ProgramCpiStack) :
    ScannedAs decode target execution [] [] := fun _ => ⟨Iff.rfl, rfl⟩

theorem ScannedAs.append {execution : ProgramCpiStack} {lines lines' : List Text}
    {payloads payloads' : List Bytes} (h : ScannedAs decode target execution lines payloads)
    (h' : ScannedAs decode target execution lines' payloads') :
    ScannedAs decode target execution (lines ++ lines') (payloads ++ payloads') := by
  intro more
  rw [List.append_assoc, List.append_assoc, ← (h' more).2, ← (h' more).1]
  exact h (lines' ++ more)

/-- A line that does nothing to the stack. -/
theorem ScannedAs.line {top : Text} (below : ProgramCpiStack) {l : Text}
    {payload : Option Bytes} (h : readLine decode target top l = (payload, .none)) :
    ScannedAs decode target (top :: below) [l] payload.toList := by
  intro more
  simp only [List.cons_append, List.nil_append, neverEmpty, scannedPayloads, h,
    CpiStackManipulation.apply, true_and]

/-- A line about a program is read the same way whichever program is on top. -/
theorem readLine_of_loggedText_none {l : Text} (h : loggedText l = none) (top : Text) :
    readLine decode target top l = (none, handleSystemLog l) := by
  by_cases htop : target.toText = top
  · simp only [readLine, if_pos htop, handleProgramLog, h]
  · rw [readLine, if_neg htop]

theorem readLine_invokeLine (top : Text) (program : Pubkey) (depth : ℕ) :
    readLine decode target top (invokeLine program depth) = (none, .push program.toText) := by
  rw [readLine_of_loggedText_none (loggedText_invokeLine program depth),
    handleSystemLog_invokeLine]

theorem readLine_successLine (top : Text) (program : Pubkey) :
    readLine decode target top (successLine program) = (none, .pop) := by
  rw [readLine_of_loggedText_none (loggedText_successLine program), handleSystemLog_successLine]

/-- The run of a program pushes it and pops it. -/
theorem ScannedAs.call {top : Text} {below : ProgramCpiStack} {program : Pubkey}
    {lines : List Text} {payloads : List Bytes}
    (h : ScannedAs decode target (program.toText :: top :: below) lines payloads) (depth : ℕ) :
    ScannedAs decode target (top :: below)
      (invokeLine program depth :: (lines ++ [successLine program])) payloads := by
  intro more
  obtain ⟨hempty, hpayloads⟩ := h (successLine program :: more)
  have hlines : invokeLine program depth :: (lines ++ [successLine program]) ++ more =
      invokeLine program depth :: (lines ++ successLine program :: more) := by
    rw [List.cons_append, List.append_assoc]
    rfl
  rw [hlines]
  simp only [neverEmpty, scannedPayloads, readLine_invokeLine, readLine_successLine,
    CpiStackManipulation.apply, ProgramCpiStack.push, List.tail_cons, Option.toList_none,
    List.nil_append] at hempty hpayloads ⊢
  exact ⟨hempty, hpayloads⟩

/-- A text does not change the rebuilt stack when programs other than the target log it. -/
def Harmless (kind : LogKind) (payload : Text) : Prop :=
  handleSystemLog (logLine kind payload) = .none

instance (kind : LogKind) (payload : Text) : Decidable (Harmless kind payload) :=
  inferInstanceAs (Decidable (_ = _))

/-- What a running program does is read as what it is. -/
theorem Trace.scannedAs {trace : Trace} {program : Pubkey}
    (h : trace.ForeignIn Harmless target (some program)) (below : ProgramCpiStack)
    (depth : ℕ) :
    ScannedAs decode target (program.toText :: below) (trace.render depth)
      (trace.payloads decode target (some program)) := by
  induction trace generalizing program below depth with
  | done => exact ScannedAs.nil _
  | emit kind payload rest ih =>
    obtain ⟨hpayload, hrest⟩ := h
    have hline : ScannedAs decode target (program.toText :: below) [logLine kind payload]
        (if some program = some target then (decode payload).toList else []) := by
      by_cases htarget : program = target
      · subst htarget
        rw [if_pos rfl]
        apply ScannedAs.line
        simp only [readLine, if_true, handleProgramLog, loggedText_logLine]
      · have htext : ¬ target.toText = program.toText := fun he =>
          htarget (Pubkey.toText_injective he).symm
        have hne : some program ≠ some target := fun he => htarget (Option.some.inj he)
        have hread : readLine decode target program.toText (logLine kind payload) =
            (none, .none) := by rw [readLine, if_neg htext, hpayload hne]
        rw [if_neg hne]
        exact ScannedAs.line below hread
    exact hline.append (ih hrest below depth)
  | call callee inner rest ihInner ihRest =>
    obtain ⟨hinner, hrest⟩ := h
    have hcall := (ihInner hinner (program.toText :: below) (depth + 1)).call (depth + 1)
    have hall := hcall.append (ihRest hrest below depth)
    rwa [List.cons_append, List.append_assoc] at hall

/-- The instructions of a transaction are read as what they are, on any stack. -/
theorem scannedAs_renderLogs {instructions : List (Pubkey × Trace)}
    (h : (Trace.ofInstructions instructions).ForeignIn Harmless target none) (top : Text)
    (below : ProgramCpiStack) :
    ScannedAs decode target (top :: below) (renderLogs instructions)
      (payloadsOf decode target instructions) := by
  induction instructions with
  | nil => exact ScannedAs.nil _
  | cons run instructions ih =>
    obtain ⟨hinner, hrest⟩ := h
    have hrun : ScannedAs decode target _ _ _ := Trace.scannedAs hinner (top :: below) 1
    have hall := (hrun.call 1).append (ih hrest)
    rwa [List.cons_append, List.append_assoc] at hall

end Scan

/-! ## The exact condition -/

/-- The log of a transaction is read as what it is if the texts that programs other than the
target log do nothing to the stack. -/
theorem parseTransactionLogs_renderLogs {decode : Text → Option Bytes} {target : Pubkey}
    {instructions : List (Pubkey × Trace)}
    (h : (Trace.ofInstructions instructions).ForeignIn Harmless target none) :
    parseTransactionLogs decode (renderLogs instructions) (some target) =
      .ok (payloadTable target (payloadsOf decode target instructions)) := by
  cases instructions with
  | nil => rfl
  | cons run instructions =>
    have hhead : (renderLogs (run :: instructions)).head? = some (invokeLine run.1 1) := rfl
    have hstart : scanStart (renderLogs (run :: instructions)) =
        ([run.1.toText], renderLogs (run :: instructions)) := by
      simp only [scanStart, hhead, Option.bind_some, cpiPushCapture_invokeLine]
    have hscan : ScannedAs decode target _ _ _ := scannedAs_renderLogs h run.1.toText []
    obtain ⟨hempty, hpayloads⟩ := hscan []
    rw [List.append_nil] at hempty hpayloads
    rw [parseTransactionLogs_of_neverEmpty, hstart, hpayloads]
    · rw [scannedPayloads_nil, List.append_nil]
    · rw [hstart]
      exact hempty.mpr (neverEmpty_nil _ _ _)

/-- Two instructions of one program, the first of which logs a text. -/
def loggingTwice (program : Pubkey) (kind : LogKind) (payload : Text) : List (Pubkey × Trace) :=
  [(program, .emit kind payload .done), (program, .done)]

/-- A text that looks like a return empties the rebuilt stack too early. -/
theorem parseTransactionLogs_loggingTwice (decode : Text → Option Bytes) {target : Pubkey}
    {program : Pubkey} (hne : program ≠ target) {kind : LogKind} {payload : Text}
    (hpop : handleSystemLog (logLine kind payload) = .pop) :
    parseTransactionLogs decode (renderLogs (loggingTwice program kind payload))
      (some target) = .panic := by
  have htext : ¬ target.toText = program.toText := fun he =>
    hne (Pubkey.toText_injective he).symm
  have hread : readLine decode target program.toText (logLine kind payload) = (none, .pop) := by
    rw [readLine, if_neg htext, hpop]
  apply parseTransactionLogs_of_not_neverEmpty
  simp only [scanStart, loggingTwice, renderLogs, Trace.ofInstructions, List.foldr_cons,
    List.foldr_nil, Trace.render, List.nil_append, List.cons_append, List.head?_cons,
    Option.bind_some, cpiPushCapture_invokeLine, neverEmpty, readLine_invokeLine,
    readLine_successLine, hread, CpiStackManipulation.apply, ProgramCpiStack.push,
    List.tail_cons, not_false_iff]

/-- A program that calls another one, which logs a text, before it logs the empty text. -/
def loggingAfter (target program : Pubkey) (kind : LogKind) (payload : Text) :
    List (Pubkey × Trace) :=
  [(target, .call program (.emit kind payload .done) (.emit .data [] .done))]

/-- A text that looks like an invocation hides what its caller logs afterwards. -/
theorem parseTransactionLogs_loggingAfter (decode : Text → Option Bytes) {target : Pubkey}
    {program : Pubkey} (hne : program ≠ target) {kind : LogKind} {payload captured : Text}
    (hpush : handleSystemLog (logLine kind payload) = .push captured) :
    parseTransactionLogs decode (renderLogs (loggingAfter target program kind payload))
      (some target) = .ok (payloadTable target []) := by
  have htext : ¬ target.toText = program.toText := fun he =>
    hne (Pubkey.toText_injective he).symm
  have hread : readLine decode target program.toText (logLine kind payload) =
      (none, .push captured) := by rw [readLine, if_neg htext, hpush]
  have hplain : handleSystemLog (logLine .data []) = .none := by decide
  have hlast : readLine decode target program.toText (logLine .data []) = (none, .none) := by
    rw [readLine, if_neg htext, hplain]
  rw [parseTransactionLogs_of_neverEmpty]
  · simp only [scanStart, loggingAfter, renderLogs, Trace.ofInstructions, List.foldr_cons,
      List.foldr_nil, Trace.render, List.nil_append, List.cons_append, List.head?_cons,
      Option.bind_some, cpiPushCapture_invokeLine, scannedPayloads, readLine_invokeLine,
      readLine_successLine, hread, hlast, CpiStackManipulation.apply, ProgramCpiStack.push,
      List.tail_cons, Option.toList_none]
  · simp only [scanStart, loggingAfter, renderLogs, Trace.ofInstructions, List.foldr_cons,
      List.foldr_nil, Trace.render, List.nil_append, List.cons_append, List.head?_cons,
      Option.bind_some, cpiPushCapture_invokeLine, neverEmpty, readLine_invokeLine,
      readLine_successLine, hread, hlast, CpiStackManipulation.apply, ProgramCpiStack.push,
      List.tail_cons]

theorem payloadTable_injective (target : Pubkey) :
    Function.Injective (payloadTable target) := by
  intro payloads payloads' h
  rw [← headD_values_payloadTable target payloads, h, headD_values_payloadTable]

/-- Logs are attributed to the program that wrote them, and what other programs write does
not matter, exactly as long as no text that they log looks like an invocation or a return. -/
theorem parseTransactionLogs_eq_payloadsOf_iff (decode : Text → Option Bytes)
    (hempty : decode [] = some []) (allowed : LogKind → Text → Prop) :
    (∀ (target : Pubkey) (instructions : List (Pubkey × Trace)),
      (Trace.ofInstructions instructions).ForeignIn allowed target none →
      parseTransactionLogs decode (renderLogs instructions) (some target) =
          .ok (payloadTable target (payloadsOf decode target instructions)) ∧
        ∀ instructions' : List (Pubkey × Trace),
          (Trace.ofInstructions instructions').ForeignIn allowed target none →
          (Trace.ofInstructions instructions).SameFor target none
            (Trace.ofInstructions instructions') →
          parseTransactionLogs decode (renderLogs instructions') (some target) =
            parseTransactionLogs decode (renderLogs instructions) (some target)) ↔
      ∀ kind payload, allowed kind payload →
        handleSystemLog (logLine kind payload) = .none := by
  constructor
  · intro h kind payload hallowed
    cases hline : handleSystemLog (logLine kind payload) with
    | none => rfl
    | pop =>
      have hne : USDC ≠ SOL := by decide
      have hparse := (h SOL (loggingTwice USDC kind payload)
        ⟨⟨fun _ => hallowed, trivial⟩, trivial, trivial⟩).1
      rw [parseTransactionLogs_loggingTwice decode hne hline] at hparse
      cases hparse
    | push captured =>
      have hne : USDC ≠ SOL := by decide
      have hparse := (h SOL (loggingAfter SOL USDC kind payload)
        ⟨⟨⟨fun _ => hallowed, trivial⟩, fun hrun => (hrun rfl).elim, trivial⟩, trivial⟩).1
      rw [parseTransactionLogs_loggingAfter decode hne hline, Outcome.ok.injEq] at hparse
      have hlost := payloadTable_injective SOL hparse
      simp only [payloadsOf, loggingAfter, Trace.ofInstructions, List.foldr_cons, List.foldr_nil,
        Trace.payloads, hempty, if_true, Option.toList_some, List.append_nil] at hlost
      simp at hlost
  · intro h target instructions hforeign
    have hparse : ∀ instructions' : List (Pubkey × Trace),
        (Trace.ofInstructions instructions').ForeignIn allowed target none →
        parseTransactionLogs decode (renderLogs instructions') (some target) =
          .ok (payloadTable target (payloadsOf decode target instructions')) :=
      fun instructions' hforeign' => parseTransactionLogs_renderLogs (hforeign'.mono h)
    refine ⟨hparse instructions hforeign, ?_⟩
    intro instructions' hforeign' hsame
    rw [hparse instructions hforeign, hparse instructions' hforeign', payloadsOf, payloadsOf,
      hsame.payloads_eq]

/-- The Base64 decoder on the empty text and on texts with a blank. -/
def blankDecoder (text : Text) : Option Bytes := if text = [] then some [] else none

theorem parseTransactionLogs_eq_payloadsOf_instruction :
    parseTransactionLogs blankDecoder
        (renderLogs [(raydiumLiquidityPoolV4ProgramId,
          .emit .log "Instruction: Swap".toList .done)]) (some pumpfunProgramId) =
      .ok (payloadTable pumpfunProgramId (payloadsOf blankDecoder pumpfunProgramId
        [(raydiumLiquidityPoolV4ProgramId, .emit .log "Instruction: Swap".toList .done)])) :=
  ((parseTransactionLogs_eq_payloadsOf_iff blankDecoder rfl
    (fun kind payload => kind = .log ∧ payload = "Instruction: Swap".toList)).mpr
    (by rintro kind payload ⟨rfl, rfl⟩; decide) pumpfunProgramId
    [(raydiumLiquidityPoolV4ProgramId, .emit .log "Instruction: Swap".toList .done)]
    ⟨⟨fun _ => ⟨rfl, rfl⟩, trivial⟩, trivial⟩).1

/-- The text `x success`, logged by one program, keeps a log from being read. -/
theorem parseTransactionLogs_x_success :
    parseTransactionLogs blankDecoder
        (renderLogs [(raydiumLiquidityPoolV4ProgramId, .emit .log "x success".toList .done),
          (raydiumLiquidityPoolV4ProgramId, .done)]) (some pumpfunProgramId) ≠
      .ok (payloadTable pumpfunProgramId (payloadsOf blankDecoder pumpfunProgramId
        [(raydiumLiquidityPoolV4ProgramId, .emit .log "x success".toList .done),
          (raydiumLiquidityPoolV4ProgramId, .done)])) := by
  have hne : raydiumLiquidityPoolV4ProgramId ≠ pumpfunProgramId := by decide
  have hpop : handleSystemLog (logLine .log "x success".toList) = .pop := by decide
  have hpanic := parseTransactionLogs_loggingTwice blankDecoder hne hpop
  rw [loggingTwice] at hpanic
  rw [hpanic]
  intro h
  cases h

end Biscuit.Parser
