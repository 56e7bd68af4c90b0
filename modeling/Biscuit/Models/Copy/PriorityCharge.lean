import Biscuit.Models.Copy.Budget
import Biscuit.Models.Copy.Conversion
import Biscuit.Models.Swap.CuPrice

/-!
# What a copy is charged for priority

The copy service settles a fee for an attempt, has a transaction built with a price that only holds
the place, reads its limit, and writes the price that spends the fee into it. What the transaction
is charged for priority in the end does not exceed the fee that was settled.
-/

namespace Biscuit.Copy

open Biscuit.Parser (Bytes CompiledInstruction)
open Biscuit.Swap (BudgetCodec ComputeBudgetInstruction EditsPrice SetsPrice VersionedMessage
  chargedLamports computeBudgetId)

/-! ## The processor of the compute budget -/

/-- An instruction with the key of its program. -/
abbrev Call := Pubkey × CompiledInstruction

/-- The instructions with the keys of their programs. -/
def calls (keys : List Pubkey) (ixs : List CompiledInstruction) : List Call :=
  ixs.filterMap fun ix => keys[ix.programIdIndex.toNat]?.map (·, ix)

/-- The call sets a price of compute units. -/
def SetsPriceTo (codec : BudgetCodec) (call : Call) (price : UInt64) : Prop :=
  call.1 = computeBudgetId ∧ codec.decode call.2.data = some (.setComputeUnitPrice price)

namespace TransactionLibrary

/-- The processor on some calls, from the state it is in. -/
def limitsFrom (library : TransactionLibrary) (budget : library.Budget) (calls : List Call) :
    Option (ℕ × ℕ) :=
  calls.foldlM (fun budget call => library.process budget call.1 call.2) budget >>= library.finish

/-- `process_compute_budget_instructions`: the limit and the price, if the calls are accepted. -/
def limits (library : TransactionLibrary) (calls : List Call) : Option (ℕ × ℕ) :=
  library.limitsFrom library.budget calls

/-- What the SDK promises about limits, prices and sound transactions. -/
structure Lawful (library : TransactionLibrary) (codec : BudgetCodec) : Prop where
  /-- A sound transaction names its programs by static keys. -/
  programsInRange : ∀ {transaction}, library.sanitize transaction →
    ProgramsInRange transaction.message
  /-- The data of an instruction does not make a transaction unsound. -/
  sanitize_data : ∀ {signatures message front ix rest} data,
    message.instructions = front ++ ix :: rest → library.sanitize ⟨signatures, message⟩ →
      library.sanitize ⟨signatures, message.withInstructions (front ++ { ix with data } :: rest)⟩
  limit_le : ∀ {calls limit price}, library.limits calls = some (limit, price) →
    limit ≤ maxComputeUnitLimit
  unpriced : ∀ {calls limit price}, library.limits calls = some (limit, price) →
    (∀ call ∈ calls, ∀ n, ¬ SetsPriceTo codec call n) → price = 0
  priced : ∀ {front call rest limit price n},
    library.limits (front ++ call :: rest) = some (limit, price) → SetsPriceTo codec call n →
      price = n.toNat
  /-- Which price is set has no influence on the limit. -/
  repriced : ∀ {front call call' rest n n'}, SetsPriceTo codec call n → SetsPriceTo codec call' n' →
    (library.limits (front ++ call' :: rest)).map Prod.fst =
      (library.limits (front ++ call :: rest)).map Prod.fst
  /-- The price of all units, in lamports, rounded up. -/
  prioritizationFee : ∀ price limit,
    library.prioritizationFee price limit = min (chargedLamports price limit) maxU64

end TransactionLibrary

/-- What the details say about limits that were found, or about the limit that was followed. -/
def PriorityDetails.ofLimits (library : TransactionLibrary) (followed : ℕ) :
    Option (ℕ × ℕ) → PriorityDetails
  | some (limit, price) => ⟨library.prioritizationFee price limit, limit, price⟩
  | none => ⟨0, followed, 0⟩

section Details

variable {library : TransactionLibrary} {codec : BudgetCodec} {keys : List Pubkey}

theorem calls_append (ixs jxs : List CompiledInstruction) :
    calls keys (ixs ++ jxs) = calls keys ixs ++ calls keys jxs :=
  List.filterMap_append

theorem calls_cons {ix : CompiledInstruction} {programId : Pubkey}
    (h : keys[ix.programIdIndex.toNat]? = some programId) (ixs : List CompiledInstruction) :
    calls keys (ix :: ixs) = (programId, ix) :: calls keys ixs := by
  apply List.filterMap_cons_some
  rw [h, Option.map_some]

/-- A call that sets a price is one of an instruction that does. -/
theorem setsPrice_of_mem_calls {ixs : List CompiledInstruction} {call : Call} {n : UInt64}
    (hmem : call ∈ calls keys ixs) (h : SetsPriceTo codec call n) :
    ∃ ix ∈ ixs, SetsPrice codec keys ix := by
  obtain ⟨ix, hix, hcall⟩ := List.mem_filterMap.mp hmem
  obtain ⟨programId, hkey, rfl⟩ := Option.map_eq_some_iff.mp hcall
  exact ⟨ix, hix, hkey.trans (congrArg some h.1), n, h.2⟩

/-- One call: the processor takes it from the state it is in, and what is followed beside it stays a
limit. -/
theorem exists_followed_cons {ix : CompiledInstruction} {programId : Pubkey}
    (hkey : keys[ix.programIdIndex.toNat]? = some programId) {limit : ℕ}
    (hlimit : limit ≤ maxComputeUnitLimit) (budget : library.Budget)
    (ixs : List CompiledInstruction) :
    ∃ next ≤ maxComputeUnitLimit,
      processComputeBudgetInstructions library keys limit budget (ix :: ixs) =
        ((library.process budget programId ix).elim (.ok (next, none)) fun budget =>
          processComputeBudgetInstructions library keys next budget ixs :
          Outcome Empty (ℕ × Option (ℕ × ℕ))) := by
  cases hset : library.setComputeUnitLimit ix.data with
  | none =>
    refine ⟨limit, hlimit, ?_⟩
    simp only [processComputeBudgetInstructions, hset, hkey, Outcome.unwrap_some, Outcome.ok_bind]
    cases library.process budget programId ix <;> rfl
  | some set =>
    refine ⟨min set maxComputeUnitLimit, min_le_right _ _, ?_⟩
    simp only [processComputeBudgetInstructions, hset, hkey, Outcome.unwrap_some, Outcome.ok_bind]
    cases library.process budget programId ix <;> rfl

/-- With all programs in range the loop hands every call to the processor, and what it follows
beside it stays a limit. -/
theorem exists_followed {ixs : List CompiledInstruction}
    (hkeys : ∀ ix ∈ ixs, ix.programIdIndex.toNat < keys.length) {limit : ℕ}
    (hlimit : limit ≤ maxComputeUnitLimit) (budget : library.Budget) :
    ∃ followed ≤ maxComputeUnitLimit,
      processComputeBudgetInstructions library keys limit budget ixs =
        (.ok (followed, library.limitsFrom budget (calls keys ixs)) :
          Outcome Empty (ℕ × Option (ℕ × ℕ))) := by
  induction ixs generalizing limit budget with
  | nil => exact ⟨limit, hlimit, rfl⟩
  | cons ix ixs ih =>
    obtain ⟨hix, hrest⟩ := List.forall_mem_cons.mp hkeys
    have hkey : keys[ix.programIdIndex.toNat]? = some keys[ix.programIdIndex.toNat] :=
      List.getElem?_eq_getElem hix
    obtain ⟨next, hnext, hstep⟩ := exists_followed_cons hkey hlimit budget ixs
    rw [hstep, calls_cons hkey]
    cases hprocess : library.process budget keys[ix.programIdIndex.toNat] ix with
    | none =>
      refine ⟨next, hnext, ?_⟩
      simp only [TransactionLibrary.limitsFrom, List.foldlM_cons, hprocess]
      rfl
    | some budget' =>
      obtain ⟨followed, hle, heq⟩ := ih hrest hnext budget'
      refine ⟨followed, hle, heq.trans ?_⟩
      simp only [TransactionLibrary.limitsFrom, List.foldlM_cons, hprocess]
      rfl

/-- The details of a sound transaction are those of its calls. -/
theorem exists_details (hlawful : library.Lawful codec) {transaction : VersionedTransaction}
    (h : library.sanitize transaction) :
    ∃ followed ≤ maxComputeUnitLimit,
      PriorityDetails.fromVersionedTransaction library transaction =
        (.ok (.ofLimits library followed (library.limits
          (calls transaction.message.staticAccountKeys transaction.message.instructions))) :
          Outcome Empty PriorityDetails) := by
  have hdefault : defaultInstructionComputeUnitLimit ≤ maxComputeUnitLimit := by
    rw [defaultInstructionComputeUnitLimit, maxComputeUnitLimit]
    norm_num
  obtain ⟨followed, hle, heq⟩ :=
    exists_followed (hlawful.programsInRange h) hdefault library.budget
  refine ⟨followed, hle, ?_⟩
  rw [PriorityDetails.fromVersionedTransaction, if_pos h, heq, Outcome.ok_bind]
  change (match library.limits (calls transaction.message.staticAccountKeys
      transaction.message.instructions) with
    | some (limit, price) => .ok (⟨library.prioritizationFee price limit, limit, price⟩)
    | none => .ok ⟨0, followed, 0⟩ : Outcome Empty PriorityDetails) = _
  cases library.limits (calls transaction.message.staticAccountKeys
      transaction.message.instructions) with
  | none => rfl
  | some limits => rfl

/-- No details name a limit above the largest one. -/
theorem PriorityDetails.ofLimits_limit_le (hlawful : library.Lawful codec) {followed : ℕ}
    (hle : followed ≤ maxComputeUnitLimit) (calls : List Call) :
    (PriorityDetails.ofLimits library followed (library.limits calls)).computeUnitLimit ≤
      maxComputeUnitLimit := by
  cases hlimits : library.limits calls with
  | none => exact hle
  | some limits => exact hlawful.limit_le hlimits

end Details

/-! ## One attempt -/

/-- The price that spends the fee is written into a transaction that does not go to Jito. -/
def reprice (codec : BudgetCodec) (library : TransactionLibrary) (sendToJito : Bool) (fee : ℕ)
    (transaction : VersionedTransaction) : Outcome Empty VersionedTransaction :=
  if sendToJito then pure transaction
  else do
    let priority ← PriorityDetails.fromVersionedTransaction library transaction
    let cuPrice ← calculateCuPriceIn .wrapping fee priority.computeUnitLimit
    let message ← transaction.message.modifyComputeUnitPrice codec (UInt64.ofNat cuPrice)
    pure { transaction with message }

/-- The answers one attempt gets: the quote, the tip that 95% of the landed tips stay under, and
what the executor builds for the fee that it is told. -/
structure AttemptEnv where
  quote : Option QuoteAnswer
  tipP95 : ℕ
  swapTransaction : PriorityFeeConfig → Option VersionedTransaction

/-- `process_execution_input`, with the transaction itself. -/
def processExecutionInputWith (codec : BudgetCodec) (library : TransactionLibrary)
    (cfg : CopyConfig) (env : AttemptEnv) (input : SwapInput) (d : CopyDetails) :
    Outcome Empty (CopyDetails × Option VersionedTransaction) :=
  match env.quote with
  | none => pure (d, none)
  | some q =>
    let fee := attemptFee cfg env.tipP95 d.sendTxnRetries
    let d := { d with lastFeeLamports := fee }
    let swapOverrides := if d.sendToJito then .jitoTip fee else .fixedCuPrice 150000
    match env.swapTransaction swapOverrides with
    | none => pure (d, none)
    | some transaction => do
      let transaction ← reprice codec library d.sendToJito fee transaction
      pure ({ d with quoteOutput := some (q.details input) }, some transaction)

/-- A transaction carries the fee settings that were decided for it: what was built for a tip, or
what was built for a price with another price in it. -/
inductive Carries (codec : BudgetCodec) (env : AttemptEnv) :
    BuiltTransaction → VersionedTransaction → Prop
  | tip {lamports : ℕ} {transaction : VersionedTransaction}
      (h : env.swapTransaction (.jitoTip lamports) = some transaction) :
      Carries codec env ⟨.jitoTip lamports, none⟩ transaction
  | price {placeholder cuPrice : ℕ} {transaction : VersionedTransaction}
      {ixs : List CompiledInstruction}
      (h : env.swapTransaction (.fixedCuPrice placeholder) = some transaction)
      (hedits : EditsPrice codec transaction.message.staticAccountKeys (UInt64.ofNat cuPrice)
        transaction.message.instructions ixs) :
      Carries codec env ⟨.fixedCuPrice placeholder, some cuPrice⟩
        { transaction with message := transaction.message.withInstructions ixs }

/-- The transaction that was built with a price that holds the place, for the limit that is read
back from it: the price that spends the fee for this limit stands in the place of the first one that
it sets, and what it is charged for priority in the end is at most the fee. -/
inductive SpendsFee (codec : BudgetCodec) (library : TransactionLibrary) (env : AttemptEnv)
    (fee limit : ℕ) : VersionedTransaction → Prop
  | repriced {built : VersionedTransaction} {ixs : List CompiledInstruction}
      {before after : PriorityDetails}
      (h : env.swapTransaction (.fixedCuPrice 150000) = some built)
      (hbefore : PriorityDetails.fromVersionedTransaction library built =
        (.ok before : Outcome Empty PriorityDetails))
      (hlimit : before.computeUnitLimit = limit)
      (hedits : EditsPrice codec built.message.staticAccountKeys
        (UInt64.ofNat (calculateCuPrice fee limit)) built.message.instructions ixs)
      (hafter : PriorityDetails.fromVersionedTransaction library
        { built with message := built.message.withInstructions ixs } =
          (.ok after : Outcome Empty PriorityDetails))
      (hcharged : after.priorityFee ≤ fee) :
      SpendsFee codec library env fee limit
        { built with message := built.message.withInstructions ixs }

section Charge

variable {library : TransactionLibrary} {codec : BudgetCodec}

/-- The price for a fee charges no more than the fee. -/
theorem prioritizationFee_le (hlawful : library.Lawful codec) (fee limit : ℕ) :
    library.prioritizationFee (calculateCuPrice fee limit) limit ≤ fee := by
  have hunit : 0 < 1000000 := by norm_num
  rw [hlawful.prioritizationFee]
  apply (min_le_left _ _).trans
  exact Charges.charged_le hunit (min_le_left _ _)

theorem toNat_cuPrice (fee limit : ℕ) :
    (UInt64.ofNat (calculateCuPrice fee limit)).toNat = calculateCuPrice fee limit := by
  apply UInt64.toNat_ofNat_of_lt'
  exact le_maxU64_iff.mp (min_le_right _ _)

/-- After the edit the calls are charged at most the fee, and their limit is the same. -/
theorem charged_of_editsPrice (hlawful : library.Lawful codec) {keys : List Pubkey}
    {fee followed followed' : ℕ} {ixs ixs' : List CompiledInstruction}
    (hedits : EditsPrice codec keys (UInt64.ofNat (calculateCuPrice fee
      (PriorityDetails.ofLimits library followed
        (library.limits (calls keys ixs))).computeUnitLimit)) ixs ixs') :
    (PriorityDetails.ofLimits library followed'
      (library.limits (calls keys ixs'))).priorityFee ≤ fee := by
  cases hlimits : library.limits (calls keys ixs') with
  | none => exact Nat.zero_le _
  | some found =>
    obtain ⟨limit, price⟩ := found
    change library.prioritizationFee price limit ≤ fee
    generalize hprice : UInt64.ofNat _ = updated at hedits
    cases hedits with
    | absent _ hnone =>
      have hzero : price = 0 := by
        apply hlawful.unpriced hlimits
        intro call hmem n hsets
        obtain ⟨ix, hix, hset⟩ := setsPrice_of_mem_calls hmem hsets
        exact hnone ix hix hset
      rw [hlawful.prioritizationFee, hzero, chargedLamports, Nat.zero_mul]
      exact (min_le_left _ _).trans (Nat.zero_le _)
    | first front ix rest data hfront hix hdata =>
      obtain ⟨hkey, old, hold⟩ := hix
      have hkey' : keys[({ ix with data := data } : CompiledInstruction).programIdIndex.toNat]? =
          some computeBudgetId := hkey
      have hsets : SetsPriceTo codec (computeBudgetId, ix) old := ⟨rfl, hold⟩
      have hsets' : SetsPriceTo codec (computeBudgetId, { ix with data := data }) updated :=
        ⟨rfl, hdata⟩
      rw [calls_append, calls_cons hkey'] at hlimits
      have hsame : (library.limits (calls keys front ++
            (computeBudgetId, { ix with data := data }) :: calls keys rest)).map Prod.fst =
          (library.limits (calls keys front ++ (computeBudgetId, ix) :: calls keys rest)).map
            Prod.fst := hlawful.repriced hsets hsets'
      rw [hlimits, Option.map_some] at hsame
      obtain ⟨found, hfound, hlimit⟩ := Option.map_eq_some_iff.mp hsame.symm
      have hbefore : library.limits (calls keys (front ++ ix :: rest)) = some found := by
        rw [calls_append, calls_cons hkey, hfound]
      rw [hbefore] at hprice
      change UInt64.ofNat (calculateCuPrice fee found.1) = updated at hprice
      change found.1 = limit at hlimit
      rw [hlawful.priced hlimits hsets', ← hprice, toNat_cuPrice, hlimit]
      exact prioritizationFee_le hlawful fee limit

theorem withInstructions_instructions (message : VersionedMessage) :
    message.withInstructions message.instructions = message := by
  cases message <;> rfl

/-- A new price leaves a transaction sound. -/
theorem sanitize_of_editsPrice (hlawful : library.Lawful codec) {signatures : List Signature}
    {message : VersionedMessage} {price : UInt64} {ixs : List CompiledInstruction}
    (hedits : EditsPrice codec message.staticAccountKeys price message.instructions ixs)
    (h : library.sanitize ⟨signatures, message⟩) :
    library.sanitize ⟨signatures, message.withInstructions ixs⟩ := by
  generalize hbefore : message.instructions = before at hedits
  cases hedits with
  | absent _ hnone =>
    rw [← hbefore, withInstructions_instructions]
    exact h
  | first front ix rest data hfront hix hdata => exact hlawful.sanitize_data data hbefore h

/-- Writing the price into a sound transaction does not fail, and what it makes is charged at most
the fee. -/
theorem reprice_spendsFee (hlawful : library.Lawful codec) {env : AttemptEnv} {fee : ℕ}
    (hfee : fee < 2 ^ 64) {transaction : VersionedTransaction}
    (hbuilt : env.swapTransaction (.fixedCuPrice 150000) = some transaction)
    (h : library.sanitize transaction) :
    ∃ limit t, reprice codec library false fee transaction = .ok t ∧
      Carries codec env ⟨.fixedCuPrice 150000, some (calculateCuPrice fee limit)⟩ t ∧
      SpendsFee codec library env fee limit t := by
  obtain ⟨signatures, message⟩ := transaction
  obtain ⟨followed, hfollowed, hdetails⟩ := exists_details hlawful h
  have hle := PriorityDetails.ofLimits_limit_le hlawful hfollowed
    (calls message.staticAccountKeys message.instructions)
  generalize hlimit : (PriorityDetails.ofLimits library followed
    (library.limits (calls message.staticAccountKeys message.instructions))).computeUnitLimit =
      limit at hle
  have hunits : limit < 2 ^ 32 := by
    rw [maxComputeUnitLimit] at hle
    omega
  have hedits : EditsPrice codec message.staticAccountKeys
      (UInt64.ofNat (calculateCuPrice fee limit)) message.instructions
      (message.instructions.replaceF (Swap.repriced codec message.staticAccountKeys
        (UInt64.ofNat (calculateCuPrice fee limit)))) := Swap.editsPrice_replaceF _ _
  refine ⟨limit, _, ?_, .price hbuilt hedits, ?_⟩
  · rw [reprice, if_neg Bool.false_ne_true, hdetails, Outcome.ok_bind]
    simp only [hlimit, calculateCuPriceIn_eq .wrapping hfee hunits, Outcome.ok_bind,
      message.modifyComputeUnitPrice_ok codec _ (hlawful.programsInRange h)]
    rfl
  · obtain ⟨followed', -, hdetails'⟩ :=
      exists_details hlawful (sanitize_of_editsPrice hlawful hedits h)
    refine .repriced hbuilt hdetails hlimit hedits hdetails' ?_
    simp only [VersionedMessage.staticAccountKeys_withInstructions,
      VersionedMessage.instructions_withInstructions]
    rw [← hlimit] at hedits ⊢
    exact charged_of_editsPrice hlawful hedits

/-- An attempt does not fail on the transactions that the executor builds. It settles what is
decided but for the limit that it reads back, the transaction carries what was decided, and one that
does not go to Jito spends the fee that is remembered of the attempt. -/
theorem attempt_spendsFee (hlawful : library.Lawful codec) (cfg : CopyConfig)
    {env : AttemptEnv} (hsound : ∀ config transaction,
      env.swapTransaction config = some transaction → library.sanitize transaction)
    (input : SwapInput) (d : CopyDetails) :
    ∃ answer d' built transaction,
      processExecutionInputWith codec library cfg env input d = .ok (d', transaction) ∧
      processExecutionInput cfg ⟨env.quote, env.tipP95, answer⟩ input d = (d', built) ∧
      Option.Rel (Carries codec env) built transaction ∧
      (d.sendToJito = false → ∀ t, transaction = some t → ∃ limit, answer = some limit ∧
        SpendsFee codec library env d'.lastFeeLamports limit t) := by
  have hfee : attemptFee cfg env.tipP95 d.sendTxnRetries < 2 ^ 64 := wrapU64_lt _
  rw [processExecutionInputWith]
  cases hquote : env.quote with
  | none =>
    refine ⟨none, d, none, none, rfl, rfl, .none, ?_⟩
    rintro - t ⟨⟩
  | some q =>
    simp only
    cases hjito : d.sendToJito with
    | true =>
      cases hbuilt : env.swapTransaction
          (.jitoTip (attemptFee cfg env.tipP95 d.sendTxnRetries)) with
      | none =>
        simp only [if_true, hbuilt]
        refine ⟨none, _, none, none, rfl, ?_, .none, ?_⟩
        · simp [processExecutionInput, hjito]
        · rintro ⟨⟩
      | some transaction =>
        simp only [if_true, hbuilt, reprice, Outcome.pure_eq, Outcome.ok_bind]
        refine ⟨some 0, _, _, some transaction, rfl, ?_, .some (.tip hbuilt), ?_⟩
        · simp [processExecutionInput, hjito]
        · rintro ⟨⟩
    | false =>
      cases hbuilt : env.swapTransaction (.fixedCuPrice 150000) with
      | none =>
        simp only [Bool.false_eq_true, if_false, hbuilt]
        refine ⟨none, _, none, none, rfl, ?_, .none, ?_⟩
        · simp [processExecutionInput, hjito]
        · rintro - t ⟨⟩
      | some transaction =>
        obtain ⟨limit, t, hreprice, hcarries, hspends⟩ :=
          reprice_spendsFee hlawful hfee hbuilt (hsound _ _ hbuilt)
        simp only [Bool.false_eq_true, if_false, hbuilt, hreprice, Outcome.pure_eq,
          Outcome.ok_bind]
        refine ⟨some limit, _, _, some _, rfl, ?_, .some hcarries, ?_⟩
        · simp [processExecutionInput, hjito]
        · rintro - t ⟨⟩
          exact ⟨limit, rfl, hspends⟩

end Charge

/-- In every run of the service, whatever was confirmed and whatever failed before: the next attempt
of a job does not fail on the transactions that the executor builds, and the run goes on with the
details that it leaves. The transaction carries the settings that were decided; one that does not go
to Jito spends the fee that is remembered of the attempt, for the limit that is read back from what
was built, and that fee is at most the configured one with what the retries add to it. -/
theorem attempts_charged_within_budget {library : TransactionLibrary} {codec : BudgetCodec}
    (hlawful : library.Lawful codec) (cfg : CopyConfig) {env : AttemptEnv}
    (hsound : ∀ config transaction,
      env.swapTransaction config = some transaction → library.sanitize transaction)
    (shared : Shared) (events : List ServiceEvent) (input : SwapInput) :
    ∀ j ∈ (exec (Service.step cfg) (Service.init shared) events).jobs,
      ∃ answer d built transaction,
        processExecutionInputWith codec library cfg env input j.details = .ok (d, transaction) ∧
        processExecutionInput cfg ⟨env.quote, env.tipP95, answer⟩ input j.details = (d, built) ∧
        Option.Rel (Carries codec env) built transaction ∧
        (j.details.sendToJito = false → ∀ t, transaction = some t → ∃ limit,
          answer = some limit ∧ SpendsFee codec library env d.lastFeeLamports limit t) ∧
        d.lastFeeLamports ≤
          cfg.maxFeeLamports + cfg.sendTxnRetries * cfg.feeIncreaseMultiplier := by
  intro j hj
  have hbudget := Service.forall_jobs_run (OriginTrade.withinBudget cfg)
    Job.withinBudget_step shared events j hj
  obtain ⟨answer, d, built, transaction, hattempt, habstract, hcarries, hcharged⟩ :=
    attempt_spendsFee hlawful cfg hsound input j.details
  have hwithin := (processExecutionInput_within ⟨env.quote, env.tipP95, answer⟩ input
    hbudget.details).1
  rw [habstract] at hwithin
  exact ⟨answer, d, built, transaction, hattempt, habstract, hcarries, hcharged, hwithin.fee⟩

/-! ## The processor as it is documented -/

/-- What the compute budget processor has read so far. -/
structure ComputeBudget where
  unitLimit : Option ℕ
  unitPrice : Option UInt64
  heapFrame : Option ℕ
  loadedAccountsDataSize : Option ℕ
  otherInstructions : ℕ
  deriving DecidableEq, Repr

namespace ComputeBudget

/-- Nothing is read yet. -/
def start : ComputeBudget := ⟨none, none, none, none, 0⟩

/-- A request of the program, which is made once. -/
def request (budget : ComputeBudget) : ComputeBudgetInstruction → Option ComputeBudget
  | .unused => none
  | .requestHeapFrame bytes =>
    if budget.heapFrame = none ∧ 32768 ≤ bytes.toNat ∧ bytes.toNat ≤ 262144 ∧
        bytes.toNat % 1024 = 0 then
      some { budget with heapFrame := some bytes.toNat }
    else none
  | .setComputeUnitLimit units =>
    if budget.unitLimit = none then some { budget with unitLimit := some units.toNat } else none
  | .setComputeUnitPrice microLamports =>
    if budget.unitPrice = none then some { budget with unitPrice := some microLamports } else none
  | .setLoadedAccountsDataSizeLimit bytes =>
    if budget.loadedAccountsDataSize = none ∧ bytes.toNat ≠ 0 then
      some { budget with loadedAccountsDataSize := some bytes.toNat }
    else none

/-- The instructions of other programs are counted. -/
def process (codec : BudgetCodec) (budget : ComputeBudget) (programId : Pubkey)
    (ix : CompiledInstruction) : Option ComputeBudget :=
  if programId = computeBudgetId then (codec.decode ix.data).bind budget.request
  else some { budget with otherInstructions := budget.otherInstructions + 1 }

/-- The limit is the one that was set, or so many units for each other instruction. -/
def finish (budget : ComputeBudget) : ℕ × ℕ :=
  (min (budget.unitLimit.getD (budget.otherInstructions * defaultInstructionComputeUnitLimit))
    maxComputeUnitLimit, (budget.unitPrice.getD 0).toNat)

/-- The same with another price. -/
def withPrice (unitPrice : Option UInt64) (budget : ComputeBudget) : ComputeBudget :=
  { budget with unitPrice }

section Laws

variable {codec : BudgetCodec} {budget : ComputeBudget} {call : Call} {n : UInt64}

theorem process_setsPrice (h : SetsPriceTo codec call n) :
    budget.process codec call.1 call.2 =
      if budget.unitPrice = none then some (budget.withPrice (some n)) else none := by
  rw [process, if_pos h.1, h.2]
  rfl

/-- No second price is accepted. -/
theorem process_twice (h : SetsPriceTo codec call n) (n' : UInt64) :
    (budget.withPrice (some n')).process codec call.1 call.2 = none := by
  rw [process_setsPrice h]
  exact if_neg (Option.some_ne_none n')

/-- A request that sets no price neither reads nor changes it. -/
theorem request_withPrice {r : ComputeBudgetInstruction} (h : ∀ n, r ≠ .setComputeUnitPrice n)
    (unitPrice : Option UInt64) :
    (budget.withPrice unitPrice).request r = (budget.request r).map (withPrice unitPrice) := by
  cases r with
  | unused => rfl
  | setComputeUnitPrice n => exact absurd rfl (h n)
  | _ =>
    rw [request, request, apply_ite (Option.map (withPrice unitPrice))]
    rfl

theorem process_withPrice (h : ∀ n, ¬ SetsPriceTo codec call n) (unitPrice : Option UInt64) :
    (budget.withPrice unitPrice).process codec call.1 call.2 =
      (budget.process codec call.1 call.2).map (withPrice unitPrice) := by
  by_cases hprogram : call.1 = computeBudgetId
  · rw [process, process, if_pos hprogram, if_pos hprogram]
    cases hdecode : codec.decode call.2.data with
    | none => rfl
    | some request =>
      apply request_withPrice
      rintro n rfl
      exact h n ⟨hprogram, hdecode⟩
  · rw [process, process, if_neg hprogram, if_neg hprogram]
    rfl

/-- The budget after some calls. -/
def processAll (codec : BudgetCodec) (budget : ComputeBudget) (calls : List Call) :
    Option ComputeBudget :=
  calls.foldlM (fun budget call => budget.process codec call.1 call.2) budget

theorem processAll_cons (call : Call) (calls : List Call) :
    budget.processAll codec (call :: calls) =
      (budget.process codec call.1 call.2).bind (·.processAll codec calls) := rfl

theorem processAll_append (calls more : List Call) :
    budget.processAll codec (calls ++ more) =
      (budget.processAll codec calls).bind (·.processAll codec more) :=
  List.foldlM_append

/-- Without a call that sets it, the price is as it was. -/
theorem processAll_withPrice {calls : List Call}
    (h : ∀ call ∈ calls, ∀ n, ¬ SetsPriceTo codec call n) (unitPrice : Option UInt64) :
    (budget.withPrice unitPrice).processAll codec calls =
      (budget.processAll codec calls).map (withPrice unitPrice) := by
  induction calls generalizing budget with
  | nil => rfl
  | cons call calls ih =>
    obtain ⟨hcall, hrest⟩ := List.forall_mem_cons.mp h
    rw [processAll_cons, processAll_cons, process_withPrice hcall]
    cases budget.process codec call.1 call.2 with
    | none => rfl
    | some next => exact ih hrest

/-- Once a price is set, only the price itself depends on it. -/
theorem processAll_priced (calls : List Call) (n n' : UInt64) :
    (budget.withPrice (some n)).processAll codec calls =
      ((budget.withPrice (some n')).processAll codec calls).map (withPrice (some n)) := by
  induction calls generalizing budget with
  | nil => rfl
  | cons call calls ih =>
    rw [processAll_cons, processAll_cons]
    by_cases hsets : ∃ n, SetsPriceTo codec call n
    · obtain ⟨m, hsets⟩ := hsets
      rw [process_twice hsets, process_twice hsets]
      rfl
    · rw [process_withPrice (not_exists.mp hsets), process_withPrice (not_exists.mp hsets)]
      cases budget.process codec call.1 call.2 with
      | none => rfl
      | some next => exact ih

/-- Another price in its place changes nothing else. -/
theorem processAll_reprice {call' : Call} {n' : UInt64} (h : SetsPriceTo codec call n)
    (h' : SetsPriceTo codec call' n') (front rest : List Call) :
    budget.processAll codec (front ++ call' :: rest) =
      (budget.processAll codec (front ++ call :: rest)).map (withPrice (some n')) := by
  rw [processAll_append, processAll_append]
  cases budget.processAll codec front with
  | none => rfl
  | some middle =>
    rw [Option.bind_some, Option.bind_some, processAll_cons, processAll_cons,
      process_setsPrice h, process_setsPrice h']
    split_ifs
    · exact processAll_priced rest n' n
    · rfl

end Laws

end ComputeBudget

/-- The SDK as it is documented, with one encoding of the requests. -/
def documentedLibrary (codec : BudgetCodec) : TransactionLibrary where
  sanitize transaction := transaction.message.instructions.all fun ix =>
    0 < ix.programIdIndex ∧
      ix.programIdIndex.toNat < transaction.message.staticAccountKeys.length
  isMaybeWritable _ index := index == 0
  isSimpleVote _ := false
  setComputeUnitLimit data := match codec.decode data with
    | some (.setComputeUnitLimit units) => some units.toNat
    | _ => none
  Budget := ComputeBudget
  budget := .start
  process := ComputeBudget.process codec
  finish budget := some budget.finish
  prioritizationFee price limit := min (chargedLamports price limit) maxU64

theorem documentedLibrary_limits (codec : BudgetCodec) (calls : List Call) :
    (documentedLibrary codec).limits calls =
      (ComputeBudget.start.processAll codec calls).map ComputeBudget.finish := by
  rw [Option.map_eq_bind]
  rfl

/-- What the SDK documents is what is relied on. -/
theorem documentedLibrary_lawful (codec : BudgetCodec) :
    (documentedLibrary codec).Lawful codec where
  programsInRange := by
    intro transaction h ix hix
    have hsound := of_decide_eq_true (List.all_eq_true.mp h ix hix)
    exact hsound.2
  sanitize_data := by
    intro signatures message front ix rest data hinstructions h
    simp only [documentedLibrary, hinstructions, List.all_append, List.all_cons,
      VersionedMessage.instructions_withInstructions,
      VersionedMessage.staticAccountKeys_withInstructions] at h ⊢
    exact h
  limit_le := by
    intro calls limit price h
    rw [documentedLibrary_limits] at h
    obtain ⟨budget, -, hfinish⟩ := Option.map_eq_some_iff.mp h
    obtain ⟨rfl, -⟩ := Prod.mk.inj hfinish
    exact min_le_right _ _
  unpriced := by
    intro calls limit price h hnone
    rw [documentedLibrary_limits] at h
    obtain ⟨budget, hbudget, hfinish⟩ := Option.map_eq_some_iff.mp h
    obtain ⟨-, rfl⟩ := Prod.mk.inj hfinish
    have hprice : some budget = (some budget).map (ComputeBudget.withPrice none) := by
      rw [← hbudget]
      calc ComputeBudget.start.processAll codec calls
          = (ComputeBudget.start.withPrice none).processAll codec calls := rfl
        _ = _ := ComputeBudget.processAll_withPrice hnone none
    rw [Option.some.inj hprice]
    rfl
  priced := by
    intro front call rest limit price n h hsets
    rw [documentedLibrary_limits] at h
    obtain ⟨budget, hbudget, hfinish⟩ := Option.map_eq_some_iff.mp h
    obtain ⟨-, rfl⟩ := Prod.mk.inj hfinish
    have hprice : some budget = (some budget).map (ComputeBudget.withPrice (some n)) := by
      rw [← hbudget]
      exact ComputeBudget.processAll_reprice hsets hsets front rest
    rw [Option.some.inj hprice]
    rfl
  repriced := by
    intro front call call' rest n n' hsets hsets'
    rw [documentedLibrary_limits, documentedLibrary_limits,
      ComputeBudget.processAll_reprice hsets hsets', Option.map_map, Option.map_map,
      Option.map_map]
    rfl
  prioritizationFee _ _ := rfl

/-- A limit, a price that holds the place, and a call of another program. -/
def sampleSwap : VersionedTransaction :=
  ⟨[77], .legacy ⟨⟨1, 0, 2⟩, [5, computeBudgetId, 9], 0,
    [⟨1, [], Swap.borshCodec.encode (.setComputeUnitLimit 200000)⟩,
      ⟨1, [], Swap.borshCodec.encode (.setComputeUnitPrice 150000)⟩, ⟨2, [0], [7]⟩]⟩⟩

/-- The executor quotes the order, and builds this swap whatever it is told to pay. -/
def sampleAttempt : AttemptEnv := ⟨some ⟨some 9, some 6, 1000, 990⟩, 700, fun _ => some sampleSwap⟩

/-- The swap is built and priced once more for an order that was not confirmed. -/
theorem attempts_charged_within_budget_sample :
    ∃ j ∈ (exec (Service.step sampleConfig) (Service.init ⟨.empty, none, false⟩) sampleRetry).jobs,
      j.details.sendTxnRetries = 1 ∧ ∃ d transaction limit,
        processExecutionInputWith Swap.borshCodec (documentedLibrary Swap.borshCodec) sampleConfig
          sampleAttempt ⟨SOL, sampleToken, 100, 15, .exactIn, none⟩ j.details =
            .ok (d, some transaction) ∧
        SpendsFee Swap.borshCodec (documentedLibrary Swap.borshCodec) sampleAttempt
          d.lastFeeLamports limit transaction ∧
        d.lastFeeLamports ≤ 1100 := by
  have hsound : ∀ config transaction, sampleAttempt.swapTransaction config = some transaction →
      (documentedLibrary Swap.borshCodec).sanitize transaction := by
    rintro config transaction ⟨⟩
    decide
  have hjob : ∃ j ∈ (exec (Service.step sampleConfig) (Service.init ⟨.empty, none, false⟩)
      sampleRetry).jobs, j.details.sendTxnRetries = 1 ∧ j.details.sendToJito = false := by
    decide +kernel
  obtain ⟨j, hj, hretried, hjito⟩ := hjob
  obtain ⟨answer, d, built, transaction, hattempt, -, -, hspends, hfee⟩ :=
    attempts_charged_within_budget (documentedLibrary_lawful Swap.borshCodec) sampleConfig hsound
      ⟨.empty, none, false⟩ sampleRetry ⟨SOL, sampleToken, 100, 15, .exactIn, none⟩ j hj
  cases transaction with
  | none =>
    obtain ⟨t, -, hnone⟩ := Outcome.bind_eq_ok.mp hattempt
    cases hnone
  | some transaction =>
    obtain ⟨limit, -, hspent⟩ := hspends hjito transaction rfl
    exact ⟨j, hj, hretried, d, transaction, limit, hattempt, hspent, hfee⟩

end Biscuit.Copy
