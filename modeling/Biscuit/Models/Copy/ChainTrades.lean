import Biscuit.Models.Copy.Conversion
import Biscuit.Models.Parser.Direction

/-!
# From a trade on chain to a copy

The runtime executes a message and records the balances around it. When the message trades on a
Raydium pool for a copied wallet, the copy service does not lose that trade: whichever source the
transaction came from and in whatever order the tasks act, its job names the mints that the vaults
of the pool were recorded to exchange, and the amounts that the parser reads of these records.
-/

namespace Biscuit.Copy

open Biscuit.Parser (CompiledInstruction Decoders FetchedAccount ITransaction
  ParsedRaydiumV4Instruction SwapAccounts UiTransactionStatusMeta UiTransactionTokenBalance Vault
  decodeRaydiumV4 decodeRaydiumV4Instruction firstSwap parseSwapInstruction parseSwapTransaction
  raydiumSwap)
open Biscuit.Swap (VersionedMessage)

/-! ## What the runtime recorded -/

/-- The keys that the indices of a message point into when it is executed. -/
def executedKeys (message : VersionedMessage) (m : TransactionStatusMeta) : List Pubkey :=
  message.staticAccountKeys ++ (m.loadedAddresses.writable ++ m.loadedAddresses.readonly)

/-- What the parser reads of a record. -/
def executedMeta (m : TransactionStatusMeta) : UiTransactionStatusMeta :=
  (EncodedMeta.of m).toTransactionMeta.forParser

/-- The programs whose instructions the parser looks into. -/
def swapPrograms : List Pubkey :=
  [Parser.jupiterAggregatorV6ProgramId, Parser.pumpfunProgramId,
    Parser.raydiumLiquidityPoolV4ProgramId]

/-- The amounts of a swap instruction: it fixes one of them, and the vault on the other side is
read to lose or to gain the other one. -/
inductive Moves (input output : Vault) :
    ParsedRaydiumV4Instruction → SwapAccounts → (inputAmount outputAmount : ℕ) → Prop
  | baseIn {amountIn minimumAmountOut : ℕ} {accounts : SwapAccounts}
      (h : output.post ≤ output.pre) :
      Moves input output (.swapBaseIn amountIn minimumAmountOut accounts) accounts amountIn
        (output.pre - output.post)
  | baseOut {maxAmountIn amountOut : ℕ} {accounts : SwapAccounts} (h : input.pre ≤ input.post) :
      Moves input output (.swapBaseOut maxAmountIn amountOut accounts) accounts
        (input.post - input.pre) amountOut

/-- A message with one record that trades on a Raydium pool, and does nothing before that the
parser takes for a swap. -/
structure RaydiumTrade (decoders : Decoders) (message : VersionedMessage)
    (m : TransactionStatusMeta) where
  front : List CompiledInstruction
  instruction : CompiledInstruction
  rest : List CompiledInstruction
  parsed : ParsedRaydiumV4Instruction
  accounts : SwapAccounts
  coinToPc : Bool
  input : Vault
  output : Vault
  inputAmount : ℕ
  outputAmount : ℕ
  instructions : message.instructions = front ++ instruction :: rest
  passed : ∀ ix ∈ front, ∀ programId,
    message.staticAccountKeys[ix.programIdIndex.toNat]? = some programId →
      programId ∉ swapPrograms
  program : message.staticAccountKeys[instruction.programIdIndex.toNat]? =
    some Parser.raydiumLiquidityPoolV4ProgramId
  decoded : decodeRaydiumV4Instruction decoders instruction (executedKeys message m) = .ok parsed
  recorded : (executedMeta m).RecordsTrade (UiTransactionTokenBalance.ReadAs decoders.rounding)
    (executedKeys message m) accounts coinToPc input output
  moves : Moves input output parsed accounts inputAmount outputAmount

/-- The trade as the service is to copy it. -/
def RaydiumTrade.swap {decoders : Decoders} {message : VersionedMessage}
    {m : TransactionStatusMeta} (trade : RaydiumTrade decoders message m) : ResolvedSwap where
  inputAmount := trade.inputAmount
  outputAmount := trade.outputAmount
  inputTokenMint := trade.input.mint
  outputTokenMint := trade.output.mint
  tokenDecimals := none

/-! ## The parser finds it -/

section Parser

variable {decoders : Decoders} {transaction : ITransaction}

/-- An instruction of another program is passed over. -/
theorem parseSwapInstruction_of_other {ix : CompiledInstruction} {programId : Pubkey}
    (hprogram : transaction.programId ix = some programId) (hother : programId ∉ swapPrograms)
    (idx : Option ℕ) : parseSwapInstruction decoders transaction ix idx = .ok none := by
  simp only [swapPrograms, List.mem_cons, List.not_mem_nil, or_false, not_or] at hother
  obtain ⟨hjupiter, hpump, hraydium⟩ := hother
  simp only [parseSwapInstruction, hprogram, Outcome.ofOption_some, Outcome.ok_bind,
    if_neg hjupiter, if_neg hpump, if_neg hraydium, Outcome.pure_eq]

/-- The search goes on behind instructions that are passed over. -/
theorem firstSwap_append {front : List (CompiledInstruction × Option ℕ)}
    (hfront : ∀ step ∈ front, parseSwapInstruction decoders transaction step.1 step.2 = .ok none)
    (rest : List (CompiledInstruction × Option ℕ)) :
    firstSwap decoders transaction (front ++ rest) = firstSwap decoders transaction rest := by
  induction front with
  | nil => rfl
  | cons step front ih =>
    obtain ⟨hstep, hrest⟩ := List.forall_mem_cons.mp hfront
    rw [List.cons_append, firstSwap, hstep, Outcome.ok_bind]
    exact ih hrest

/-- A swap instruction is read with the amounts that moved. -/
theorem decodeRaydiumV4_of_moves {statusMeta : UiTransactionStatusMeta}
    {instruction : CompiledInstruction} {parsed : ParsedRaydiumV4Instruction}
    {accounts : SwapAccounts} {coinToPc : Bool} {input output : Vault}
    {inputAmount outputAmount : ℕ} (hmeta : transaction.statusMeta = some statusMeta)
    (hdecoded : decodeRaydiumV4Instruction decoders instruction transaction.accountKeys =
      .ok parsed)
    (hrecorded : statusMeta.RecordsTrade (UiTransactionTokenBalance.ReadAs decoders.rounding)
      transaction.accountKeys accounts coinToPc input output)
    (hmoves : Moves input output parsed accounts inputAmount outputAmount) :
    decodeRaydiumV4 decoders transaction instruction =
      .ok (some (raydiumSwap accounts input output inputAmount outputAmount)) := by
  have hresolved := Parser.resolveRaydiumAccounts_of_recordsTrade hrecorded
  cases hmoves with
  | baseIn h =>
    simp only [decodeRaydiumV4, hdecoded, hmeta, hresolved, Outcome.ofOption_some,
      Outcome.ok_bind, Parser.checkedSub]
    cases coinToPc with
    | true =>
      simp only [cond_true, if_true, if_pos h]
      rfl
    | false =>
      simp only [cond_false, Bool.false_eq_true, if_false, if_pos h]
      rfl
  | baseOut h =>
    simp only [decodeRaydiumV4, hdecoded, hmeta, hresolved, Outcome.ofOption_some,
      Outcome.ok_bind, Parser.checkedSub]
    cases coinToPc with
    | true =>
      simp only [cond_true, if_true, if_pos h]
      rfl
    | false =>
      simp only [cond_false, Bool.false_eq_true, if_false, if_pos h]
      rfl

/-- In a transaction that was executed so, the trade is the first swap. -/
theorem RaydiumTrade.parseSwapTransaction_eq {message : VersionedMessage}
    {m : TransactionStatusMeta} (trade : RaydiumTrade decoders message m)
    (hprograms : ProgramsInRange message) (iter : Iteration (List CompiledInstruction))
    (hinstructions : transaction.instructions = message.instructions)
    (hkeys : transaction.accountKeys = executedKeys message m)
    (hmeta : transaction.statusMeta = some (executedMeta m)) :
    parseSwapTransaction decoders iter transaction =
      .ok (some (raydiumSwap trade.accounts trade.input trade.output trade.inputAmount
        trade.outputAmount)) := by
  have hstatic : ∀ {ix : CompiledInstruction} {programId : Pubkey},
      message.staticAccountKeys[ix.programIdIndex.toNat]? = some programId →
        transaction.programId ix = some programId := by
    intro ix programId hkey
    rw [ITransaction.programId, hkeys, executedKeys]
    exact getElem?_of_prefix (List.prefix_append _ _) hkey
  have hfirst : firstSwap decoders transaction transaction.outerInstructions =
      .ok (some (raydiumSwap trade.accounts trade.input trade.output trade.inputAmount
        trade.outputAmount)) := by
    rw [ITransaction.outerInstructions, hinstructions, trade.instructions, List.zipIdx_append,
      List.map_append, firstSwap_append]
    · have hread := decodeRaydiumV4_of_moves hmeta (hkeys ▸ trade.decoded)
        (hkeys ▸ trade.recorded) trade.moves
      rw [List.zipIdx_cons, List.map_cons, firstSwap, parseSwapInstruction, hstatic trade.program]
      simp only [Outcome.ofOption_some, Outcome.ok_bind]
      rw [if_neg (by decide), if_neg (by decide), if_pos trivial, hread]
      rfl
    · intro step hstep
      obtain ⟨⟨ix, i⟩, hmem, rfl⟩ := List.mem_map.mp hstep
      have hix : ix ∈ trade.front := List.fst_mem_of_mem_zipIdx hmem
      have hrange : ix.programIdIndex.toNat < message.staticAccountKeys.length := by
        apply hprograms
        rw [trade.instructions]
        exact List.mem_append_left _ hix
      have hkey := List.getElem?_eq_getElem hrange
      exact parseSwapInstruction_of_other (hstatic hkey) (trade.passed ix hix _ hkey) (some i)
  rw [parseSwapTransaction, hfirst]
  rfl

end Parser

/-! ## The service is handed it -/

/-- Where a delivered transaction is in a run, when it makes a trade under every configuration of
its wallet. -/
inductive Intake.Carries (tx : StreamedTransaction) (copied : WalletConfig → OriginTrade)
    (s : Intake) : Prop
  /-- Its task loads its keys. -/
  | loading (h : .loading tx ∈ s.tasks)
  /-- Its task is about to put its trade into the execution queue. -/
  | sending (config : WalletConfig) (h : .sending (copied config) ∈ s.tasks)
  /-- The trade has become a job. -/
  | queued (config : WalletConfig) (j : Job) (h : j ∈ s.service.jobs)
      (hstems : j.details.StemsFrom (copied config))

/-- A transaction passes the screening whatever the node answers, while its wallet is copied. -/
def StreamedTransaction.Copied (parser : ParserEnv) (wallet : Pubkey) (tx : StreamedTransaction)
    (copied : WalletConfig → OriginTrade) : Prop :=
  ∀ (walletConfig : WalletConfigs) (config : WalletConfig), walletConfig wallet = some config →
    ∀ answer, screenTxn parser walletConfig tx answer = .ok (copied config)

section Carried

variable {cfg : CopyConfig} {parser : ParserEnv} {defaults : WalletDefaults}
  {tx : StreamedTransaction} {copied : WalletConfig → OriginTrade} {wallet : Pubkey} {s : Intake}

/-- What is put into the execution queue is a job, also when the queue is full. -/
theorem Service.exists_wireTxn (cfg : CopyConfig) (service : Service) (t : OriginTrade) :
    ∃ j ∈ (service.wireTxn cfg t).jobs, j.details.StemsFrom t := by
  refine ⟨_, List.mem_append_right _ (List.mem_singleton.mpr rfl), ?_⟩
  cases service.hasRoom cfg <;> exact t.details_stemsFrom cfg

/-- No step loses a transaction that is to be copied. -/
theorem Intake.Carries.step (h : s.Carries tx copied) (hcopied : tx.Copied parser wallet copied)
    (hfollows : s.Follows wallet) (e : IntakeEvent) :
    (s.step cfg parser defaults e).Carries tx copied := by
  obtain ⟨config, hconfig⟩ := Option.isSome_iff_exists.mp hfollows
  have hscreens := hcopied _ config hconfig
  have hcase := s.step_cases cfg parser defaults e
  generalize s.step cfg parser defaults e = s' at hcase
  cases hcase with
  | idle e hidle => exact h
  | commanded accounts env =>
    cases h with
    | loading h => exact .loading h
    | sending config h => exact .sending config h
    | queued config j h hstems => exact .queued config j h hstems
  | delivered tx' =>
    cases h with
    | loading h => exact .loading (List.mem_append_left _ h)
    | sending config h => exact .sending config (List.mem_append_left _ h)
    | queued config j h hstems => exact .queued config j h hstems
  | screened i answer tx' t hi hscreen =>
    cases h with
    | loading h =>
      by_cases htx : tx = tx'
      · -- its own task: the trade is the one of the configuration that is in the map
        obtain rfl : copied config = t := by
          rw [← htx, hscreens] at hscreen
          exact Outcome.ok.inj hscreen
        obtain ⟨hlt, -⟩ := List.getElem?_eq_some_iff.mp hi
        exact .sending config (List.mem_set hlt _)
      · exact .loading (mem_set_of_ne hi h (fun heq => htx (IntakeTask.loading.inj heq)) _)
    | sending config h => exact .sending config (mem_set_of_ne hi h (by rintro ⟨⟩) _)
    | queued config j h hstems => exact .queued config j h hstems
  | skipped i answer tx' hi hscreen =>
    cases h with
    | loading h =>
      refine .loading (mem_eraseIdx_of_ne hi h ?_)
      intro heq
      rw [← IntakeTask.loading.inj heq] at hscreen
      exact hscreen _ (hscreens answer)
    | sending config h => exact .sending config (mem_eraseIdx_of_ne hi h (by rintro ⟨⟩))
    | queued config j h hstems => exact .queued config j h hstems
  | sent i t hi hhanded =>
    cases h with
    | loading h => exact .loading (mem_eraseIdx_of_ne hi h (by rintro ⟨⟩))
    | sending config h =>
      by_cases ht : copied config = t
      · obtain ⟨j, hj, hstems⟩ := s.service.exists_wireTxn cfg t
        exact .queued config j hj (ht ▸ hstems)
      · exact .sending config
          (mem_eraseIdx_of_ne hi h fun heq => ht (IntakeTask.sending.inj heq))
    | queued config j h hstems => exact .queued config j (List.mem_append_left _ h) hstems
  | worked e hown hhanded =>
    cases h with
    | loading h => exact .loading h
    | sending config h => exact .sending config h
    | queued config j h hstems =>
      obtain ⟨j', hj', hcontinues⟩ := exists_right_of_forall₂ (s.service.jobs_continue cfg hown) h
      exact .queued config j' hj' (hcontinues.stems _ hstems)

/-- No run loses it. -/
theorem Intake.Carries.exec (h : s.Carries tx copied) (hcopied : tx.Copied parser wallet copied)
    (hfollows : s.Follows wallet) (events : List IntakeEvent) :
    (exec (Intake.step cfg parser defaults) s events).Carries tx copied ∧
      (exec (Intake.step cfg parser defaults) s events).Follows wallet := by
  induction events generalizing s with
  | nil => exact ⟨h, hfollows⟩
  | cons e events ih => exact ih (h.step hcopied hfollows e) (hfollows.step e)

/-- What is carried is at most two steps of its task from being a job. -/
theorem Intake.Carries.completes (h : s.Carries tx copied)
    (hcopied : tx.Copied parser wallet copied) (hfollows : s.Follows wallet) :
    ∃ more : List IntakeEvent, more.length ≤ 2 ∧
      ∃ config, ∃ j ∈ (Biscuit.exec (Intake.step cfg parser defaults) s more).service.jobs,
        j.details.StemsFrom (copied config) := by
  have hsend : ∀ (s : Intake) (i : ℕ) (config : WalletConfig),
      s.tasks[i]? = some (.sending (copied config)) →
      ∃ j ∈ (s.step cfg parser defaults (.send i)).service.jobs,
        j.details.StemsFrom (copied config) := by
    intro s i config hi
    simp only [Intake.step, hi]
    exact s.service.exists_wireTxn cfg (copied config)
  cases h with
  | loading h =>
    obtain ⟨config, hconfig⟩ := Option.isSome_iff_exists.mp hfollows
    obtain ⟨i, hi⟩ := List.mem_iff_getElem?.mp h
    obtain ⟨hlt, -⟩ := List.getElem?_eq_some_iff.mp hi
    refine ⟨[.screen i none, .send i], le_rfl, config, ?_⟩
    rw [exec_cons, exec_cons, exec_nil]
    apply hsend
    simp only [Intake.step, hi, hcopied _ config hconfig]
    exact List.getElem?_set_self hlt
  | sending config h =>
    obtain ⟨i, hi⟩ := List.mem_iff_getElem?.mp h
    exact ⟨[.send i], Nat.le_succ 1, config, hsend s i config hi⟩
  | queued config j h hstems => exact ⟨[], Nat.zero_le 2, config, j, h, hstems⟩

end Carried

/-- The copy of a trade, with the balances of its wallet. -/
def RaydiumTrade.copied {decoders : Decoders} {message : VersionedMessage}
    {m : TransactionStatusMeta} (trade : RaydiumTrade decoders message m) (signature : Signature)
    (wallet : Pubkey) (walletConfig : WalletConfig) : OriginTrade where
  signature := signature
  signer := wallet
  swap := trade.swap
  solBalance := Balance.createSolBalance (executed signature message (some m)) 0
  inputMintBalance := Balance.createTokenBalance (executed signature message (some m)) wallet
    trade.input.mint
  walletConfig := walletConfig

/-- What was executed passes the screening of its wallet. -/
theorem RaydiumTrade.copied_executed {parser : ParserEnv} {message : VersionedMessage}
    {m : TransactionStatusMeta} (trade : RaydiumTrade parser.decoders message m)
    (hprograms : ProgramsInRange message) (hsucceeded : m.err = none) {wallet : Pubkey}
    (hwallet : message.staticAccountKeys[0]? = some wallet) (signature : Signature) :
    (executed signature message (some m)).Copied parser wallet
      (trade.copied signature wallet) := by
  intro walletConfig config hconfig answer
  rw [screenTxn_eq_ok_iff]
  refine ⟨⟨hsucceeded, rfl, hwallet, ?_, rfl, rfl⟩, hconfig⟩
  exact ⟨_, _, loadKeys_executed signature message m answer,
    trade.parseSwapTransaction_eq hprograms parser.iter rfl rfl rfl, rfl⟩

/-- A trade on a Raydium pool that the runtime executed for a copied wallet is copied with what the
records of the vaults are read as. The transaction is converted from either source, to the same but
for the time of its block. In every run in which it is delivered while its wallet is copied and the
main task runs, whatever comes before and after and whatever the node answers, the trade of the
chain is on its way to the execution queue or has become a job, which is never more than two steps
of its task away. -/
theorem raydium_trade_is_copied (library : TransactionLibrary) {signature : Signature}
    {others : List Signature} {message : VersionedMessage} (hprograms : ProgramsInRange message)
    {encoded : EncodedMeta} {m : TransactionStatusMeta} (hencoded : encoded.Encodes m)
    (hsucceeded : m.err = none) {parser : ParserEnv}
    (trade : RaydiumTrade parser.decoders message m) {wallet : Pubkey}
    (hwallet : message.staticAccountKeys[0]? = some wallet) (slot : ℕ) (blockTime : Option ℤ) :
    ∃ t, toUnifiedTransaction library (some ⟨signature :: others, message⟩) (some encoded) slot
        blockTime = .ok (some t) ∧
      SubscribeUpdateTransaction.tryInto library
        ⟨slot, some (Signature.bytes signature, some (.ok ⟨signature :: others, message⟩),
          some (.ok m))⟩ = .ok { t with blockTime := some 0 } ∧
      ∀ (cfg : CopyConfig) (defaults : WalletDefaults) (s : Intake) (after : List IntakeEvent),
        s.running = true → s.Follows wallet →
        let s' := exec (Intake.step cfg parser defaults) s (.deliver (some t.streamed) :: after)
        s'.Carries t.streamed (trade.copied signature wallet) ∧
          ∃ more : List IntakeEvent, more.length ≤ 2 ∧
            ∃ config, ∃ j ∈ (exec (Intake.step cfg parser defaults) s' more).service.jobs,
              j.details.StemsFrom (trade.copied signature wallet config) := by
  obtain ⟨t, hnode, hstream, hstreamed⟩ :=
    exists_converted library hprograms (.some hencoded) slot blockTime
  refine ⟨t, hnode, hstream, ?_⟩
  intro cfg defaults s after hrunning hfollows
  have hcopied := trade.copied_executed hprograms hsucceeded hwallet signature
  rw [← hstreamed] at hcopied
  have hdelivered : (s.step cfg parser defaults (.deliver (some t.streamed))).Carries t.streamed
      (trade.copied signature wallet) := by
    refine .loading ?_
    simp only [Intake.step, hrunning, if_true]
    exact List.mem_append_right _ (List.mem_singleton.mpr rfl)
  obtain ⟨hcarries, hfollows'⟩ := hdelivered.exec hcopied (hfollows.step _) after
  exact ⟨hcarries, hcarries.completes hcopied hfollows'⟩

/-- The vaults of a pool are its accounts 4 and 5, and the user is paid into account 15. -/
def sampleRaydiumRecord : TransactionStatusMeta where
  err := none
  logMessages := none
  preBalances := []
  postBalances := []
  tokenBalances := {
    preTokenBalances := some [⟨Parser.recordedBalance .binary64 4 USDC 507, none⟩,
      ⟨Parser.recordedBalance .binary64 5 USDT 900, none⟩,
      ⟨Parser.recordedBalance .binary64 15 USDC 1, none⟩]
    postTokenBalances := some [⟨Parser.recordedBalance .binary64 4 USDC 460, none⟩,
      ⟨Parser.recordedBalance .binary64 5 USDT 942, none⟩] }
  innerInstructions := none
  loadedAddresses := ⟨[], []⟩
  computeUnitsConsumed := none

/-- The swap comes after an instruction of another program. -/
def sampleRaydiumMessage : VersionedMessage :=
  .legacy ⟨⟨1, 0, 1⟩, (List.range 17).map (BitVec.ofNat 256) ++
    [Parser.raydiumLiquidityPoolV4ProgramId], 0, [⟨16, [], []⟩, Parser.recordedInstruction]⟩

def sampleParser : ParserEnv :=
  ⟨⟨fun _ => none, fun _ => .ok (.swapBaseIn 42 30), .binary64⟩, .stored _⟩

/-- What the output vault held before is read back as one unit less. -/
def sampleRaydiumTrade :
    RaydiumTrade sampleParser.decoders sampleRaydiumMessage sampleRaydiumRecord where
  front := [⟨16, [], []⟩]
  instruction := Parser.recordedInstruction
  rest := []
  parsed := .swapBaseIn 42 30 Parser.recordedAccounts
  accounts := Parser.recordedAccounts
  coinToPc := false
  input := ⟨USDT, 900, 942⟩
  output := ⟨USDC, 506, 460⟩
  inputAmount := 42
  outputAmount := 46
  instructions := rfl
  passed := by
    intro ix hix programId hprogram
    obtain rfl := List.mem_singleton.mp hix
    obtain rfl := Option.some.inj hprogram
    decide
  program := rfl
  decoded := rfl
  recorded := by
    refine ⟨?_, ?_, by decide, ?_, ?_, ?_⟩
    · exact ⟨_, _, rfl, Pubkey.ofText_toText USDC, Pubkey.ofText_toText USDC,
        Parser.readAs_recordedBalance 4 USDC (by decide +kernel),
        Parser.readAs_recordedBalance 4 USDC (by decide +kernel)⟩
    · exact ⟨_, _, rfl, Pubkey.ofText_toText USDT, Pubkey.ofText_toText USDT,
        Parser.readAs_recordedBalance 5 USDT (by decide +kernel),
        Parser.readAs_recordedBalance 5 USDT (by decide +kernel)⟩
    · rintro balance (h | h)
      · cases h
      · cases h
    · rintro balance (h | h)
      · obtain rfl := Option.some.inj h
        exact Pubkey.ofText_toText USDC
      · cases h
    · exact .inr (.inl rfl)
  moves := .baseIn (by decide)

/-- A service that copies the first signer of the message. -/
def sampleIntake : Intake :=
  .start ⟨.direct, 10, 20⟩ ⟨some [some 0], fun _ => true⟩
    [⟨0, some "sample", none, none, none, none, none, none, none, none⟩] ⟨.empty, none, false⟩

theorem raydium_trade_is_copied_sample :
    ∃ t, toUnifiedTransaction sampleLibrary (some ⟨[77], sampleRaydiumMessage⟩)
        (some (EncodedMeta.of sampleRaydiumRecord)) 3 none = .ok (some t) ∧
      ∃ more config, ∃ j ∈ (exec (Intake.step sampleConfig sampleParser ⟨.direct, 10, 20⟩)
          sampleIntake (.deliver (some t.streamed) :: .deliver none :: more)).service.jobs,
        j.details.StemsFrom (sampleRaydiumTrade.copied 77 0 config) := by
  have hprograms : ProgramsInRange sampleRaydiumMessage := by
    intro ix hix
    rcases List.mem_cons.mp hix with rfl | hix
    · decide
    · obtain rfl := List.mem_singleton.mp hix
      decide
  obtain ⟨t, hnode, -, hruns⟩ := @raydium_trade_is_copied sampleLibrary 77 [] sampleRaydiumMessage
    hprograms _ sampleRaydiumRecord (EncodedMeta.encodes_of _) rfl sampleParser sampleRaydiumTrade 0
    rfl 3 none
  obtain ⟨-, more, -, config, hqueued⟩ := hruns sampleConfig ⟨.direct, 10, 20⟩ sampleIntake
    [.deliver none] rfl rfl
  exact ⟨t, hnode, more, config, hqueued⟩

end Biscuit.Copy
