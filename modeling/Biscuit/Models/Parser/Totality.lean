import Biscuit.Models.Parser.Forgery

/-!
# When the swap parser panics

Three kinds of input take the parser down: an event with fewer than eight bytes, a log that
pops more programs than it pushes, and a Raydium instruction with fewer accounts than its
layout. An instruction is safe if it is none of these. The search goes on after one that it
passes over, and the parser returns exactly if every instruction that it reaches is safe.
-/

namespace Biscuit.Parser

/-! ## Events of Jupiter -/

/-- No inner instruction carries the event tag and fewer than eight bytes after it. -/
def ITransaction.SafeEvents (transaction : ITransaction) (idx : ℕ) : Prop :=
  ∀ ix ∈ transaction.innerOf (UInt8.ofNat idx), eventIxTagLe <+: ix.data → 16 ≤ ix.data.length

/-- The bytes after the tags are long enough in safe events. -/
theorem safeEvents_iff (transaction : ITransaction) (idx : ℕ) :
    transaction.SafeEvents idx ↔
      ∀ data ∈ (getCpiLogsForInstruction transaction idx).getD [], 8 ≤ data.length := by
  rw [getCpiLogsForInstruction_getD]
  have htag : eventIxTagLe.length = 8 := rfl
  constructor
  · intro h data hdata
    obtain ⟨ix, hix, hfilter⟩ := List.mem_filterMap.mp hdata
    rw [anchorEventCpiFilter_eq_some] at hfilter
    have hlength := h ix hix ⟨data, hfilter.symm⟩
    rw [hfilter, List.length_append, htag] at hlength
    omega
  · rintro h ix hix ⟨rest, hrest⟩
    have hlength := h rest
      (List.mem_filterMap.mpr ⟨ix, hix, anchorEventCpiFilter_eq_some.mpr hrest.symm⟩)
    rw [← hrest, List.length_append, htag]
    omega

theorem decodeJupiter_ne_panic_iff (transaction : ITransaction) (idx : ℕ) :
    decodeJupiter transaction idx ≠ .panic ↔ transaction.SafeEvents idx := by
  rw [safeEvents_iff]
  by_cases h : ∀ data ∈ (getCpiLogsForInstruction transaction idx).getD [], 8 ≤ data.length
  · refine iff_of_true ?_ h
    simp only [decodeJupiter, parseJupiterSwapEvents, parseEvents_of_length _ _ h,
      Outcome.ok_bind]
    cases mergeJupiterEvents _ <;> simp
  · refine iff_of_false (not_not_intro ?_) h
    simp only [decodeJupiter, parseJupiterSwapEvents, parseEvents_eq_panic _ _ h,
      Outcome.panic_bind]

/-! ## Events of Pump -/

/-- The log never empties the rebuilt stack before its last line, and the payloads that are
read below Pump have eight bytes at least. -/
def ITransaction.SafeLogs (decoders : Decoders) (transaction : ITransaction) : Prop :=
  neverEmpty decoders.base64 pumpfunProgramId (scanStart transaction.logMessages).1
      (scanStart transaction.logMessages).2 ∧
    ∀ payload ∈ scannedPayloads decoders.base64 pumpfunProgramId
      (scanStart transaction.logMessages).1 (scanStart transaction.logMessages).2,
      8 ≤ payload.length

theorem decodePumpfun_ne_panic_iff (decoders : Decoders) (transaction : ITransaction) :
    decodePumpfun decoders transaction ≠ .panic ↔ transaction.SafeLogs decoders := by
  unfold ITransaction.SafeLogs
  by_cases hstack : neverEmpty decoders.base64 pumpfunProgramId
    (scanStart transaction.logMessages).1 (scanStart transaction.logMessages).2
  · simp only [decodePumpfun, getLogsForProgram_of_neverEmpty hstack, Outcome.ok_bind, hstack,
      true_and]
    by_cases h : ∀ payload ∈ scannedPayloads decoders.base64 pumpfunProgramId
      (scanStart transaction.logMessages).1 (scanStart transaction.logMessages).2,
      8 ≤ payload.length
    · refine iff_of_true ?_ h
      simp only [parsePumpfunSwapEvents, parseEvents_of_length _ _ h, Outcome.ok_bind]
      cases List.head? _ <;> simp
    · refine iff_of_false (not_not_intro ?_) h
      simp only [parsePumpfunSwapEvents, parseEvents_eq_panic _ _ h, Outcome.panic_bind]
  · refine iff_of_false (not_not_intro ?_) fun h => hstack h.1
    simp only [decodePumpfun, getLogsForProgram, parseTransactionLogs_of_not_neverEmpty hstack,
      Outcome.panic_bind]

/-- No payload that is read below Pump is a trade event. -/
def ITransaction.NoTrades (decoders : Decoders) (transaction : ITransaction) : Prop :=
  ∀ payload ∈ scannedPayloads decoders.base64 pumpfunProgramId
    (scanStart transaction.logMessages).1 (scanStart transaction.logMessages).2,
    eventOf tradeEventDiscriminator TradeEvent.deserialize payload = none

theorem decodePumpfun_eq_none_iff (decoders : Decoders) (transaction : ITransaction) :
    decodePumpfun decoders transaction = .ok none ↔
      transaction.SafeLogs decoders ∧ transaction.NoTrades decoders := by
  by_cases hsafe : transaction.SafeLogs decoders
  · rw [and_iff_right hsafe, ITransaction.NoTrades]
    simp only [decodePumpfun, getLogsForProgram_of_neverEmpty hsafe.1, Outcome.ok_bind,
      parsePumpfunSwapEvents, parseEvents_of_length _ _ hsafe.2]
    rw [← List.filterMap_eq_nil_iff]
    cases List.filterMap (eventOf tradeEventDiscriminator TradeEvent.deserialize) _ <;> simp
  · refine iff_of_false ?_ fun h => hsafe h.1
    rw [← decodePumpfun_ne_panic_iff, not_not] at hsafe
    rw [hsafe]
    intro h
    cases h

/-! ## Accounts of Raydium V4 -/

/-- A reader that takes so many account keys in a row, whatever it makes of them. -/
def Windowed.Reads {α : Type} (n : ℕ) (m : Windowed α) : Prop :=
  ∀ window : KeysWindow, (m.run window).void = ((nextAccountKeys n).run window).void

theorem Windowed.Reads.pure {α : Type} (a : α) : Windowed.Reads 0 (Pure.pure a : Windowed α) :=
  fun _ => rfl

/-- One more key, and the rest of the reader. -/
theorem Windowed.Reads.next_bind {α : Type} {n : ℕ} {f : Pubkey → Windowed α}
    (h : ∀ key, Windowed.Reads n (f key)) : Windowed.Reads (n + 1) (nextAccountKey >>= f) := by
  intro window
  rw [nextAccountKeys, StateT.run_bind, StateT.run_bind, Outcome.void_bind, Outcome.void_bind]
  congr 1
  funext read
  rw [h read.1 read.2, StateT.run_bind, Outcome.void_bind]
  rfl

/-- A result that is only wrapped does not change what is read. -/
theorem Windowed.Reads.map {α β : Type} {n : ℕ} {m : Windowed α} (h : Windowed.Reads n m)
    (f : α → β) : Windowed.Reads n (m >>= fun a => Pure.pure (f a)) := by
  intro window
  rw [← h window, StateT.run_bind, Outcome.void_bind]
  rfl

theorem Windowed.Reads.nextAccountKeys (n : ℕ) : Windowed.Reads n (nextAccountKeys n) :=
  fun _ => rfl

/-- A swap instruction has seventeen accounts, and one more with the target orders. -/
theorem SwapAccounts.reads (includeTargetOrders : Bool) :
    Windowed.Reads (if includeTargetOrders then 18 else 17)
      (SwapAccounts.read includeTargetOrders) := by
  cases includeTargetOrders with
  | false =>
    simp only [SwapAccounts.read, Bool.false_eq_true, if_false, pure_bind]
    iterate 17 refine Windowed.Reads.next_bind fun _ => ?_
    exact Windowed.Reads.pure _
  | true =>
    simp only [SwapAccounts.read, if_true, bind_map_left]
    iterate 18 refine Windowed.Reads.next_bind fun _ => ?_
    exact Windowed.Reads.pure _

/-- How many accounts the layout of an instruction has. -/
def neededAccounts (instruction : CompiledInstruction) : AmmInstruction → ℕ
  | .initialize2 => 21
  | .swapBaseIn _ _ | .swapBaseOut _ _ =>
    if instruction.accounts.length > swapInstructionsAccountLength then 18 else 17
  | .deposit => 14
  | .withdraw => 20
  | .other => 0

theorem readRaydiumV4Accounts_reads (instruction : CompiledInstruction)
    (unpacked : AmmInstruction) :
    Windowed.Reads (neededAccounts instruction unpacked)
      (readRaydiumV4Accounts instruction unpacked) := by
  cases unpacked with
  | initialize2 => exact (Windowed.Reads.nextAccountKeys 21).map _
  | swapBaseIn amountIn minimumAmountOut =>
    have h := SwapAccounts.reads
      (decide (instruction.accounts.length > swapInstructionsAccountLength))
    simp only [decide_eq_true_eq] at h
    exact h.map _
  | swapBaseOut maxAmountIn amountOut =>
    have h := SwapAccounts.reads
      (decide (instruction.accounts.length > swapInstructionsAccountLength))
    simp only [decide_eq_true_eq] at h
    exact h.map _
  | deposit => exact (Windowed.Reads.nextAccountKeys 14).map _
  | withdraw => exact (Windowed.Reads.nextAccountKeys 20).map _
  | other => exact Windowed.Reads.pure _

/-- The next key is the one that the first account left points to. -/
theorem nextAccountKey_run_cons {window : KeysWindow} {account : UInt8} {rest : Bytes}
    (h : window.accounts.drop window.index = account :: rest) :
    nextAccountKey.run window = (do
      let key ← Outcome.ofOption .keyOutOfBounds window.keys[account.toNat]?
      pure (key, { window with index := window.index + 1 })) ∧
    window.accounts.drop (window.index + 1) = rest := by
  have hget : window.accounts[window.index]? = some account := by
    have hhead := congrArg (·[0]?) h
    simpa [List.getElem?_drop] using hhead
  refine ⟨?_, ?_⟩
  · change (Outcome.unwrap window.accounts[window.index]? >>= fun account => _) = _
    rw [hget]
    rfl
  · rw [← List.tail_drop, h, List.tail_cons]

theorem nextAccountKey_run_nil {window : KeysWindow}
    (h : window.accounts.drop window.index = []) : nextAccountKey.run window = .panic := by
  have hget : window.accounts[window.index]? = none :=
    List.getElem?_eq_none (List.drop_eq_nil_iff.mp h)
  change (Outcome.unwrap window.accounts[window.index]? >>= fun account => _) = _
  rw [hget]
  rfl

/-- Account keys run out where the list is too short, unless an index before its end has no
key. -/
theorem nextAccountKeys_eq_panic_iff (n : ℕ) (window : KeysWindow) :
    (nextAccountKeys n).run window = .panic ↔
      (window.accounts.drop window.index).length < n ∧
        ∀ account ∈ window.accounts.drop window.index, account.toNat < window.keys.length := by
  induction n generalizing window with
  | zero =>
    refine iff_of_false ?_ fun h => Nat.not_lt_zero _ h.1
    intro h
    cases h
  | succ n ih =>
    rw [nextAccountKeys, StateT.run_bind]
    cases haccounts : window.accounts.drop window.index with
    | nil =>
      rw [nextAccountKey_run_nil haccounts]
      exact iff_of_true rfl ⟨Nat.succ_pos n, fun _ h => by cases h⟩
    | cons account rest =>
      obtain ⟨hnext, hrest⟩ := nextAccountKey_run_cons haccounts
      rw [hnext, List.length_cons, List.forall_mem_cons, Nat.succ_lt_succ_iff]
      by_cases hkey : account.toNat < window.keys.length
      · have hread := ih { window with index := window.index + 1 }
        rw [hrest] at hread
        rw [List.getElem?_eq_getElem hkey, Outcome.ofOption_some, Outcome.ok_bind,
          Outcome.pure_eq, Outcome.ok_bind, StateT.run_bind, and_iff_right hkey, ← hread]
        cases (nextAccountKeys n).run { window with index := window.index + 1 } <;> simp
      · rw [List.getElem?_eq_none (by omega)]
        refine iff_of_false ?_ fun h => hkey h.2.1
        intro h
        cases h

/-- Account keys are all read where the list is long enough and each index has a key. -/
theorem nextAccountKeys_void_eq_ok_iff (n : ℕ) (window : KeysWindow) :
    ((nextAccountKeys n).run window).void = .ok () ↔
      n ≤ (window.accounts.drop window.index).length ∧
        ∀ account ∈ (window.accounts.drop window.index).take n,
          account.toNat < window.keys.length := by
  induction n generalizing window with
  | zero => exact iff_of_true rfl ⟨Nat.zero_le _, fun _ h => by cases h⟩
  | succ n ih =>
    rw [nextAccountKeys, StateT.run_bind, Outcome.void_bind]
    cases haccounts : window.accounts.drop window.index with
    | nil =>
      rw [nextAccountKey_run_nil haccounts]
      refine iff_of_false ?_ fun h => Nat.not_succ_le_zero n h.1
      intro h
      cases h
    | cons account rest =>
      obtain ⟨hnext, hrest⟩ := nextAccountKey_run_cons haccounts
      rw [hnext, List.length_cons, List.take_succ_cons, List.forall_mem_cons,
        Nat.succ_le_succ_iff]
      by_cases hkey : account.toNat < window.keys.length
      · have hread := ih { window with index := window.index + 1 }
        rw [hrest] at hread
        rw [List.getElem?_eq_getElem hkey, Outcome.ofOption_some, Outcome.ok_bind,
          Outcome.pure_eq, Outcome.ok_bind, StateT.run_bind, Outcome.void_bind,
          and_iff_right hkey, ← hread]
        exact Iff.rfl
      · rw [List.getElem?_eq_none (by omega)]
        refine iff_of_false ?_ fun h => hkey h.2.1
        intro h
        cases h

/-- An instruction that Raydium's library unpacks has the accounts of its layout, or an index
that no key has, which is an error before the list ends. -/
def ITransaction.SafeAccounts (decoders : Decoders) (transaction : ITransaction)
    (instruction : CompiledInstruction) : Prop :=
  ∀ unpacked, decoders.unpack instruction.data = .ok unpacked →
    neededAccounts instruction unpacked ≤ instruction.accounts.length ∨
      ∃ account ∈ instruction.accounts, transaction.accountKeys.length ≤ account.toNat

theorem parseMint_ne_panic (mint : Text) : parseMint mint ≠ .panic :=
  Outcome.ofOption_ne_panic _ _

/-- Balances that are missing or wrong are errors. -/
theorem resolveRaydiumAccounts_ne_panic (r : Rounding) (statusMeta : UiTransactionStatusMeta)
    (accountKeys : List Pubkey) (userSource userDestination ammCoinVault ammPcVault : Pubkey) :
    resolveRaydiumAccounts r statusMeta accountKeys userSource userDestination ammCoinVault
      ammPcVault ≠ .panic := by
  unfold resolveRaydiumAccounts
  refine Outcome.bind_ne_panic (Outcome.ofOption_ne_panic _ _) fun user _ => ?_
  refine Outcome.bind_ne_panic (parseMint_ne_panic _) fun userMint _ => ?_
  refine Outcome.bind_ne_panic (Outcome.ofOption_ne_panic _ _) fun coinPre _ => ?_
  refine Outcome.bind_ne_panic (Outcome.ofOption_ne_panic _ _) fun coinPost _ => ?_
  refine Outcome.bind_ne_panic (Outcome.ofOption_ne_panic _ _) fun pcPre _ => ?_
  refine Outcome.bind_ne_panic (Outcome.ofOption_ne_panic _ _) fun pcPost _ => ?_
  refine Outcome.bind_ne_panic (parseMint_ne_panic _) fun coinMint _ => ?_
  refine Outcome.bind_ne_panic (parseMint_ne_panic _) fun pcMint _ => ?_
  intro h
  cases h

theorem newFromInstruction_eq_ok {transaction : ITransaction}
    {instruction : CompiledInstruction} {programId : Pubkey}
    (hprogram : transaction.programId instruction = some programId) :
    KeysWindow.newFromInstruction transaction.accountKeys instruction =
      .ok ⟨transaction.accountKeys, instruction.accounts, 0, programId⟩ := by
  rw [ITransaction.programId] at hprogram
  rw [KeysWindow.newFromInstruction, hprogram]
  rfl

theorem decodeRaydiumV4Instruction_ne_panic_iff (decoders : Decoders)
    {transaction : ITransaction} {instruction : CompiledInstruction} {programId : Pubkey}
    (hprogram : transaction.programId instruction = some programId) :
    decodeRaydiumV4Instruction decoders instruction transaction.accountKeys ≠ .panic ↔
      transaction.SafeAccounts decoders instruction := by
  unfold decodeRaydiumV4Instruction ITransaction.SafeAccounts
  cases hunpack : decoders.unpack instruction.data with
  | error message => simp
  | ok unpacked =>
    have hwindow := newFromInstruction_eq_ok hprogram
    have hreads := readRaydiumV4Accounts_reads instruction unpacked
      ⟨transaction.accountKeys, instruction.accounts, 0, programId⟩
    simp only [hwindow, Outcome.ok_bind, Except.ok.injEq, forall_eq']
    rw [Ne, Outcome.bind_eq_panic, ← Outcome.void_eq_panic, hreads, Outcome.void_eq_panic,
      nextAccountKeys_eq_panic_iff, List.drop_zero]
    simp only [Outcome.pure_eq, reduceCtorEq, and_false, exists_false, or_false, not_and_or,
      not_lt, not_forall, exists_prop]

/-- A Raydium instruction panics only while its accounts are read. -/
theorem decodeRaydiumV4_ne_panic_iff (decoders : Decoders) {transaction : ITransaction}
    {instruction : CompiledInstruction} {programId : Pubkey}
    (hprogram : transaction.programId instruction = some programId) :
    decodeRaydiumV4 decoders transaction instruction ≠ .panic ↔
      transaction.SafeAccounts decoders instruction := by
  rw [← decodeRaydiumV4Instruction_ne_panic_iff decoders hprogram]
  constructor
  · intro h hpanic
    rw [decodeRaydiumV4, hpanic] at h
    exact h rfl
  · intro h
    refine Outcome.bind_ne_panic h fun parsed _ => ?_
    refine Outcome.bind_ne_panic (Outcome.ofOption_ne_panic _ _) fun statusMeta _ => ?_
    cases parsed with
    | swapBaseIn amountIn minimumAmountOut accounts =>
      refine Outcome.bind_ne_panic (resolveRaydiumAccounts_ne_panic _ _ _ _ _ _ _)
        fun resolved _ => ?_
      refine Outcome.bind_ne_panic (Outcome.ofOption_ne_panic _ _) fun amount _ => ?_
      intro hend
      cases hend
    | swapBaseOut maxAmountIn amountOut accounts =>
      refine Outcome.bind_ne_panic (resolveRaydiumAccounts_ne_panic _ _ _ _ _ _ _)
        fun resolved _ => ?_
      refine Outcome.bind_ne_panic (Outcome.ofOption_ne_panic _ _) fun amount _ => ?_
      intro hend
      cases hend
    | initialize2 accounts => simp
    | deposit accounts => simp
    | withdraw accounts => simp
    | unknown args => simp

/-- The instructions that move tokens. -/
def AmmInstruction.isSwap : AmmInstruction → Bool
  | .swapBaseIn _ _ | .swapBaseOut _ _ => true
  | _ => false

/-- An instruction that Raydium's library unpacks as one that moves no tokens, in a
transaction with a meta, and with a key for each account of its layout. -/
def ITransaction.SkippedAccounts (decoders : Decoders) (transaction : ITransaction)
    (instruction : CompiledInstruction) : Prop :=
  ∃ unpacked, decoders.unpack instruction.data = .ok unpacked ∧ unpacked.isSwap = false ∧
    neededAccounts instruction unpacked ≤ instruction.accounts.length ∧
    (∀ account ∈ instruction.accounts.take (neededAccounts instruction unpacked),
      account.toNat < transaction.accountKeys.length) ∧
    transaction.statusMeta.isSome = true

/-- An instruction that moves no tokens is nothing to the parser but its accounts. -/
theorem decodeRaydiumV4_of_not_isSwap {decoders : Decoders} {transaction : ITransaction}
    {instruction : CompiledInstruction} {unpacked : AmmInstruction} {window : KeysWindow}
    (hunpack : decoders.unpack instruction.data = .ok unpacked)
    (hwindow : KeysWindow.newFromInstruction transaction.accountKeys instruction = .ok window)
    (hswap : unpacked.isSwap = false) :
    decodeRaydiumV4 decoders transaction instruction = (do
      ((nextAccountKeys (neededAccounts instruction unpacked)).run window).void
      let _ ← Outcome.ofOption .metaMissing transaction.statusMeta
      pure none) := by
  unfold decodeRaydiumV4 decodeRaydiumV4Instruction
  simp only [hunpack, hwindow, Outcome.ok_bind]
  cases unpacked with
  | swapBaseIn amountIn minimumAmountOut => cases hswap
  | swapBaseOut maxAmountIn amountOut => cases hswap
  | initialize2 =>
    simp only [readRaydiumV4Accounts, neededAccounts, StateT.run_bind, Outcome.void]
    cases (nextAccountKeys 21).run window <;> rfl
  | deposit =>
    simp only [readRaydiumV4Accounts, neededAccounts, StateT.run_bind, Outcome.void]
    cases (nextAccountKeys 14).run window <;> rfl
  | withdraw =>
    simp only [readRaydiumV4Accounts, neededAccounts, StateT.run_bind, Outcome.void]
    cases (nextAccountKeys 20).run window <;> rfl
  | other => rfl

/-- An instruction that moves tokens is a swap or an error. -/
theorem decodeRaydiumV4_ne_none_of_isSwap {decoders : Decoders} {transaction : ITransaction}
    {instruction : CompiledInstruction} {unpacked : AmmInstruction}
    (hunpack : decoders.unpack instruction.data = .ok unpacked)
    (hswap : unpacked.isSwap = true) :
    decodeRaydiumV4 decoders transaction instruction ≠ .ok none := by
  unfold decodeRaydiumV4 decodeRaydiumV4Instruction
  simp only [hunpack]
  intro h
  obtain ⟨parsed, hparsed, h⟩ := Outcome.bind_eq_ok.mp h
  obtain ⟨window, -, hparsed⟩ := Outcome.bind_eq_ok.mp hparsed
  obtain ⟨read, hread, hparsed⟩ := Outcome.bind_eq_ok.mp hparsed
  cases hparsed
  obtain ⟨statusMeta, -, h⟩ := Outcome.bind_eq_ok.mp h
  cases unpacked with
  | swapBaseIn amountIn minimumAmountOut =>
    rw [readRaydiumV4Accounts, StateT.run_bind] at hread
    obtain ⟨accounts, -, hread⟩ := Outcome.bind_eq_ok.mp hread
    cases hread
    obtain ⟨resolved, -, h⟩ := Outcome.bind_eq_ok.mp h
    obtain ⟨amount, -, h⟩ := Outcome.bind_eq_ok.mp h
    cases h
  | swapBaseOut maxAmountIn amountOut =>
    rw [readRaydiumV4Accounts, StateT.run_bind] at hread
    obtain ⟨accounts, -, hread⟩ := Outcome.bind_eq_ok.mp hread
    cases hread
    obtain ⟨resolved, -, h⟩ := Outcome.bind_eq_ok.mp h
    obtain ⟨amount, -, h⟩ := Outcome.bind_eq_ok.mp h
    cases h
  | initialize2 => cases hswap
  | deposit => cases hswap
  | withdraw => cases hswap
  | other => cases hswap

theorem decodeRaydiumV4_eq_none_iff (decoders : Decoders) {transaction : ITransaction}
    {instruction : CompiledInstruction} {programId : Pubkey}
    (hprogram : transaction.programId instruction = some programId) :
    decodeRaydiumV4 decoders transaction instruction = .ok none ↔
      transaction.SkippedAccounts decoders instruction := by
  unfold ITransaction.SkippedAccounts
  cases hunpack : decoders.unpack instruction.data with
  | error message =>
    refine iff_of_false ?_ fun ⟨_, h, _⟩ => by cases h
    intro h
    simp only [decodeRaydiumV4, decodeRaydiumV4Instruction, hunpack, Outcome.err_bind,
      reduceCtorEq] at h
  | ok unpacked =>
    simp only [Except.ok.injEq, exists_eq_left']
    by_cases hswap : unpacked.isSwap = true
    · refine iff_of_false (decodeRaydiumV4_ne_none_of_isSwap hunpack hswap) fun h => ?_
      rw [hswap] at h
      cases h.1
    · have hplain : unpacked.isSwap = false := by simpa using hswap
      have hread := nextAccountKeys_void_eq_ok_iff (neededAccounts instruction unpacked)
        ⟨transaction.accountKeys, instruction.accounts, 0, programId⟩
      rw [List.drop_zero] at hread
      rw [decodeRaydiumV4_of_not_isSwap hunpack (newFromInstruction_eq_ok hprogram) hplain,
        and_iff_right hplain, ← and_assoc, ← hread, Outcome.bind_eq_ok]
      cases transaction.statusMeta <;> simp [Unique.exists_iff]

/-! ## The search -/

/-- An instruction that none of the three ways to panic applies to. -/
def ITransaction.Safe (decoders : Decoders) (transaction : ITransaction)
    (step : CompiledInstruction × Option ℕ) : Prop :=
  match transaction.programId step.1 with
  | none => True
  | some programId =>
    (programId = jupiterAggregatorV6ProgramId →
      ∀ idx, step.2 = some idx → transaction.SafeEvents idx) ∧
    (programId = pumpfunProgramId → transaction.SafeLogs decoders) ∧
    (programId = raydiumLiquidityPoolV4ProgramId → transaction.SafeAccounts decoders step.1)

/-- An instruction that decodes to nothing, so that the search goes on: without swap events
under Jupiter, without trade events of Pump in the log, a Raydium instruction that moves no
tokens, or one of another program. -/
def ITransaction.PassedOver (decoders : Decoders) (transaction : ITransaction)
    (step : CompiledInstruction × Option ℕ) : Prop :=
  match transaction.programId step.1 with
  | none => False
  | some programId =>
    (programId = jupiterAggregatorV6ProgramId →
      ∀ idx, step.2 = some idx →
        ∀ ix ∈ transaction.innerOf (UInt8.ofNat idx), ¬ LooksLikeSwapEvent ix) ∧
    (programId = pumpfunProgramId → transaction.SafeLogs decoders ∧
      transaction.NoTrades decoders) ∧
    (programId = raydiumLiquidityPoolV4ProgramId → transaction.SkippedAccounts decoders step.1)

/-- What an instruction decodes to is what the decoder of its program says, or nothing. -/
theorem parseSwapInstruction_dispatch (Q : Parsed (Option ResolvedSwap) → Prop)
    (hnone : Q (.ok none)) (decoders : Decoders) {transaction : ITransaction}
    {step : CompiledInstruction × Option ℕ} {programId : Pubkey}
    (hprogram : transaction.programId step.1 = some programId) :
    Q (parseSwapInstruction decoders transaction step.1 step.2) ↔
      (programId = jupiterAggregatorV6ProgramId →
        ∀ idx, step.2 = some idx → Q (decodeJupiter transaction idx)) ∧
      (programId = pumpfunProgramId → Q (decodePumpfun decoders transaction)) ∧
      (programId = raydiumLiquidityPoolV4ProgramId →
        Q (decodeRaydiumV4 decoders transaction step.1)) := by
  have hpump : jupiterAggregatorV6ProgramId ≠ pumpfunProgramId := by decide
  have hraydium : jupiterAggregatorV6ProgramId ≠ raydiumLiquidityPoolV4ProgramId := by decide
  have hraydium' : pumpfunProgramId ≠ raydiumLiquidityPoolV4ProgramId := by decide
  simp only [parseSwapInstruction, hprogram, Outcome.ofOption_some, Outcome.ok_bind]
  by_cases h : programId = jupiterAggregatorV6ProgramId
  · subst h
    cases step.2 <;> simp [hpump, hraydium, hnone]
  · rw [if_neg h]
    by_cases h' : programId = pumpfunProgramId
    · subst h'
      simp [h, hraydium']
    · rw [if_neg h']
      by_cases h'' : programId = raydiumLiquidityPoolV4ProgramId
      · subst h''
        simp [h, h']
      · simp [h, h', h'', hnone]

theorem parseSwapInstruction_ne_panic_iff (decoders : Decoders) (transaction : ITransaction)
    (step : CompiledInstruction × Option ℕ) :
    parseSwapInstruction decoders transaction step.1 step.2 ≠ .panic ↔
      transaction.Safe decoders step := by
  unfold ITransaction.Safe
  cases hprogram : transaction.programId step.1 with
  | none => simp [parseSwapInstruction, hprogram]
  | some programId =>
    have hnone : (.ok none : Parsed (Option ResolvedSwap)) ≠ .panic := by simp
    refine (parseSwapInstruction_dispatch (· ≠ .panic) hnone decoders hprogram).trans ?_
    simp only [decodeJupiter_ne_panic_iff, decodePumpfun_ne_panic_iff,
      decodeRaydiumV4_ne_panic_iff decoders hprogram]

theorem parseSwapInstruction_eq_none_iff (decoders : Decoders) (transaction : ITransaction)
    (step : CompiledInstruction × Option ℕ) :
    parseSwapInstruction decoders transaction step.1 step.2 = .ok none ↔
      transaction.PassedOver decoders step := by
  unfold ITransaction.PassedOver
  cases hprogram : transaction.programId step.1 with
  | none => simp [parseSwapInstruction, hprogram]
  | some programId =>
    refine (parseSwapInstruction_dispatch (· = .ok none) rfl decoders hprogram).trans ?_
    simp only [decodeJupiter_eq_none_iff, decodePumpfun_eq_none_iff,
      decodeRaydiumV4_eq_none_iff decoders hprogram]

/-- A search panics exactly at an instruction that is not safe and that it reaches. -/
theorem firstSwap_ne_panic_iff (decoders : Decoders) (transaction : ITransaction)
    (steps : List (CompiledInstruction × Option ℕ)) :
    firstSwap decoders transaction steps ≠ .panic ↔
      ∀ before step after, steps = before ++ step :: after →
        (∀ earlier ∈ before, transaction.PassedOver decoders earlier) →
        transaction.Safe decoders step := by
  induction steps with
  | nil =>
    refine iff_of_true (fun h => by cases h) ?_
    intro before step after h
    cases before <;> cases h
  | cons first rest ih =>
    have hfirst := parseSwapInstruction_ne_panic_iff decoders transaction first
    constructor
    · intro h before step after hsteps hbefore
      cases before with
      | nil =>
        cases hsteps
        rw [← hfirst]
        intro hpanic
        rw [firstSwap, hpanic] at h
        exact h rfl
      | cons earlier before =>
        cases hsteps
        have hnone := hbefore first List.mem_cons_self
        rw [← parseSwapInstruction_eq_none_iff] at hnone
        rw [firstSwap, hnone, Outcome.ok_bind] at h
        exact ih.mp h before step after rfl fun e he => hbefore e (List.mem_cons_of_mem _ he)
    · intro h
      rw [firstSwap]
      refine Outcome.bind_ne_panic ?_ fun swap hswap => ?_
      · exact hfirst.mpr (h [] first rest rfl fun _ he => by cases he)
      · cases swap with
        | some swap => simp
        | none =>
          apply ih.mpr
          intro before step after hsteps hbefore
          refine h (first :: before) step after (by rw [hsteps]; rfl) ?_
          exact List.forall_mem_cons.mpr
            ⟨(parseSwapInstruction_eq_none_iff decoders transaction first).mp hswap, hbefore⟩

/-- The two searches are one over all instructions. -/
theorem parseSwapTransaction_eq_firstSwap (decoders : Decoders)
    (iter : Iteration (List CompiledInstruction)) (transaction : ITransaction) :
    parseSwapTransaction decoders iter transaction =
      firstSwap decoders transaction
        (transaction.outerInstructions ++ transaction.innerFlattened iter) := by
  rw [parseSwapTransaction]
  induction transaction.outerInstructions with
  | nil => rfl
  | cons first rest ih =>
    rw [List.cons_append, firstSwap, firstSwap, ← ih]
    cases parseSwapInstruction decoders transaction first.1 first.2 with
    | panic => rfl
    | err e => rfl
    | ok swap => cases swap <;> rfl

/-- The parser returns exactly if every instruction that its search reaches is safe. -/
theorem parseSwapTransaction_ne_panic_iff (decoders : Decoders)
    (iter : Iteration (List CompiledInstruction)) (transaction : ITransaction) :
    parseSwapTransaction decoders iter transaction ≠ .panic ↔
      ∀ before step after,
        transaction.outerInstructions ++ transaction.innerFlattened iter =
          before ++ step :: after →
        (∀ earlier ∈ before, transaction.PassedOver decoders earlier) →
        transaction.Safe decoders step := by
  rw [parseSwapTransaction_eq_firstSwap]
  exact firstSwap_ne_panic_iff decoders transaction _

/-- What the libraries answer on data that is too short or too strange for them. -/
def rejectingDecoders : Decoders where
  base64 := fun _ => none
  unpack := fun _ => .error "InvalidInstructionData"
  rounding := .binary64

/-- A Jupiter instruction under which some program has logged an event without any bytes. -/
def emptyEventTransaction : ITransaction where
  instructions := [⟨0, [], []⟩]
  staticAccountKeys := [jupiterAggregatorV6ProgramId, pumpfunProgramId]
  loadedAddresses := none
  statusMeta := none
  innerInstructions := some (AList.insert 0 [⟨1, [], eventIxTagLe⟩] ∅)

theorem parseSwapTransaction_emptyEvent :
    parseSwapTransaction rejectingDecoders (Iteration.stored _) emptyEventTransaction =
      .panic := by
  decide

end Biscuit.Parser
