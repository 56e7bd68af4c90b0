import Biscuit.Models.Parser.Attribution
import Biscuit.Models.Parser.Swap

/-!
# The order in which a transaction is searched

The lists of inner instructions come out of a hash map in an order of their own. Each list
stops the search with one outcome, or does not stop it, so the result does not depend on
the order exactly if all lists that stop the search stop it with the same outcome, and it
is the first swap in execution order exactly if that outcome is this swap.
-/

namespace Biscuit.Parser

variable (decoders : Decoders) (transaction : ITransaction)

/-- What an instruction stops a search with: a swap, an error or a panic. -/
def stopOf (step : CompiledInstruction × Option ℕ) : Option (Parsed (Option ResolvedSwap)) :=
  match parseSwapInstruction decoders transaction step.1 step.2 with
  | .ok none => none
  | stop => some stop

/-- What a search is stopped with. -/
def firstStop (steps : List (CompiledInstruction × Option ℕ)) :
    Option (Parsed (Option ResolvedSwap)) :=
  steps.findSome? (stopOf decoders transaction)

/-- What one list of inner instructions stops a search with. -/
def innerStop (instructions : List CompiledInstruction) : Option (Parsed (Option ResolvedSwap)) :=
  firstStop decoders transaction (instructions.map (·, none))

/-- The lists of inner instructions. -/
def ITransaction.innerLists : List (List CompiledInstruction) :=
  match transaction.innerInstructions with
  | some instructions => Table.values instructions
  | none => []

/-- The inner instructions as they were executed: by the index of the instruction that
they are under, then by their positions. -/
def ITransaction.executionOrder : List CompiledInstruction :=
  (List.range 256).flatMap fun key => transaction.innerOf (UInt8.ofNat key)

/-- The swap of the first inner instruction in execution order that decodes to one. -/
def firstInnerSwap : Option ResolvedSwap :=
  transaction.executionOrder.findSome? fun instruction =>
    match parseSwapInstruction decoders transaction instruction none with
    | .ok swap => swap
    | _ => none

/-- No instruction of the message decodes to a swap. -/
def NoOuterSwap : Prop :=
  ∀ step ∈ transaction.outerInstructions, ∀ swap,
    parseSwapInstruction decoders transaction step.1 step.2 ≠ .ok (some swap)

variable {decoders transaction}

/-! ## What stops a search -/

theorem firstSwap_eq_getD (steps : List (CompiledInstruction × Option ℕ)) :
    firstSwap decoders transaction steps =
      (firstStop decoders transaction steps).getD (.ok none) := by
  induction steps with
  | nil => rfl
  | cons step steps ih =>
    have hcons : firstStop decoders transaction (step :: steps) =
        (stopOf decoders transaction step).or (firstStop decoders transaction steps) := by
      rw [firstStop, List.findSome?_cons]
      cases stopOf decoders transaction step <;> rfl
    rw [firstSwap, ih, hcons, stopOf]
    cases parseSwapInstruction decoders transaction step.1 step.2 with
    | panic => rfl
    | err e => rfl
    | ok swap => cases swap <;> rfl

theorem stopOf_eq_some {step : CompiledInstruction × Option ℕ}
    {stop : Parsed (Option ResolvedSwap)} :
    stopOf decoders transaction step = some stop ↔
      parseSwapInstruction decoders transaction step.1 step.2 = stop ∧ stop ≠ .ok none := by
  by_cases hnone : parseSwapInstruction decoders transaction step.1 step.2 = .ok none
  · rw [stopOf, hnone]
    constructor
    · intro h
      cases h
    · rintro ⟨rfl, hne⟩
      exact (hne rfl).elim
  · have hstop : stopOf decoders transaction step =
        some (parseSwapInstruction decoders transaction step.1 step.2) := by
      rw [stopOf]
      split
      next h => exact (hnone h).elim
      next => rfl
    rw [hstop, Option.some.injEq]
    constructor
    · rintro rfl
      exact ⟨rfl, hnone⟩
    · exact And.left

theorem firstStop_ne_ok_none {steps : List (CompiledInstruction × Option ℕ)}
    {stop : Parsed (Option ResolvedSwap)} (h : firstStop decoders transaction steps = some stop) :
    stop ≠ .ok none := by
  obtain ⟨step, -, hstep⟩ := List.exists_of_findSome?_eq_some h
  exact (stopOf_eq_some.mp hstep).2

theorem firstStop_append (steps steps' : List (CompiledInstruction × Option ℕ)) :
    firstStop decoders transaction (steps ++ steps') =
      (firstStop decoders transaction steps).or (firstStop decoders transaction steps') :=
  List.findSome?_append

/-- The first list that stops a search decides it. -/
theorem firstStop_flatten (lists : List (List CompiledInstruction)) :
    firstStop decoders transaction (lists.flatten.map (·, none)) =
      lists.findSome? (innerStop decoders transaction) := by
  induction lists with
  | nil => rfl
  | cons instructions lists ih =>
    rw [List.flatten_cons, List.map_append, firstStop_append, ih, List.findSome?_cons, innerStop]
    cases firstStop decoders transaction (instructions.map (·, none)) <;> rfl

theorem innerFlattened_eq (iter : Iteration (List CompiledInstruction)) :
    firstStop decoders transaction (transaction.innerFlattened iter) =
      (iter.order transaction.innerLists).findSome? (innerStop decoders transaction) := by
  rw [ITransaction.innerFlattened, ITransaction.innerLists]
  cases transaction.innerInstructions with
  | none =>
    have hnil : iter.order [] = [] := List.Perm.eq_nil (iter.perm [])
    simp only [hnil]
    rfl
  | some instructions => exact firstStop_flatten _

/-- The result of the parser: the message stops it, or else the first list that does. -/
theorem parseSwapTransaction_eq_getD (iter : Iteration (List CompiledInstruction)) :
    parseSwapTransaction decoders iter transaction =
      ((firstStop decoders transaction transaction.outerInstructions).or
        ((iter.order transaction.innerLists).findSome?
          (innerStop decoders transaction))).getD (.ok none) := by
  rw [parseSwapTransaction, firstSwap_eq_getD, firstSwap_eq_getD, innerFlattened_eq]
  cases hstop : firstStop decoders transaction transaction.outerInstructions with
  | none => rfl
  | some stop =>
    have hne := firstStop_ne_ok_none hstop
    cases stop with
    | panic => rfl
    | err e => rfl
    | ok swap =>
      cases swap with
      | none => exact (hne rfl).elim
      | some swap => rfl

/-! ## The order of the lists -/

/-- The traversal that yields one item first. -/
def Iteration.startingWith {α : Type*} [DecidableEq α] (a : α) : Iteration α where
  order := fun items => if a ∈ items then a :: items.erase a else items
  perm := by
    intro items
    by_cases h : a ∈ items
    · rw [if_pos h]
      exact (List.perm_cons_erase h).symm
    · rw [if_neg h]

/-- Without a stop in the message, any list that stops the search can decide it. -/
theorem parseSwapTransaction_startingWith
    (houter : firstStop decoders transaction transaction.outerInstructions = none)
    {instructions : List CompiledInstruction} (hmem : instructions ∈ transaction.innerLists)
    {stop : Parsed (Option ResolvedSwap)}
    (hstop : innerStop decoders transaction instructions = some stop) :
    parseSwapTransaction decoders (Iteration.startingWith instructions) transaction = stop := by
  rw [parseSwapTransaction_eq_getD, houter, Option.none_or]
  simp only [Iteration.startingWith, if_pos hmem, List.findSome?_cons, hstop, Option.getD_some]

/-- Without a stop in the message, some list decides the search or none stops it. -/
theorem parseSwapTransaction_cases
    (houter : firstStop decoders transaction transaction.outerInstructions = none)
    (iter : Iteration (List CompiledInstruction)) :
    (parseSwapTransaction decoders iter transaction = .ok none ∧
      ∀ instructions ∈ transaction.innerLists,
        innerStop decoders transaction instructions = none) ∨
    ∃ instructions ∈ transaction.innerLists, innerStop decoders transaction instructions =
      some (parseSwapTransaction decoders iter transaction) := by
  rw [parseSwapTransaction_eq_getD, houter, Option.none_or]
  cases hfind : (iter.order transaction.innerLists).findSome? (innerStop decoders transaction) with
  | none =>
    refine .inl ⟨rfl, fun instructions hmem => ?_⟩
    exact List.findSome?_eq_none_iff.mp hfind instructions (iter.mem_order.mpr hmem)
  | some stop =>
    obtain ⟨instructions, hmem, hstop⟩ := List.exists_of_findSome?_eq_some hfind
    exact .inr ⟨instructions, iter.mem_order.mp hmem, hstop⟩

/-- The result is the same in every order exactly if the message stops the search or all
lists that stop it do so with the same outcome. -/
theorem parseSwapTransaction_order_iff :
    (∀ iter iter' : Iteration (List CompiledInstruction),
      parseSwapTransaction decoders iter transaction =
        parseSwapTransaction decoders iter' transaction) ↔
      (firstStop decoders transaction transaction.outerInstructions = none →
        ∀ instructions ∈ transaction.innerLists, ∀ instructions' ∈ transaction.innerLists,
        ∀ stop stop', innerStop decoders transaction instructions = some stop →
          innerStop decoders transaction instructions' = some stop' → stop = stop') := by
  constructor
  · intro h houter instructions hmem instructions' hmem' stop stop' hstop hstop'
    rw [← parseSwapTransaction_startingWith houter hmem hstop,
      ← parseSwapTransaction_startingWith houter hmem' hstop']
    exact h _ _
  · intro h iter iter'
    cases houter : firstStop decoders transaction transaction.outerInstructions with
    | some stop =>
      rw [parseSwapTransaction_eq_getD, parseSwapTransaction_eq_getD, houter, Option.some_or,
        Option.some_or]
    | none =>
      rcases parseSwapTransaction_cases houter iter with ⟨hnone, hall⟩ | ⟨ixs, hmem, hstop⟩
      · rcases parseSwapTransaction_cases houter iter' with ⟨hnone', -⟩ | ⟨ixs', hmem', hstop'⟩
        · rw [hnone, hnone']
        · rw [hall ixs' hmem'] at hstop'
          cases hstop'
      · rcases parseSwapTransaction_cases houter iter' with ⟨-, hall'⟩ | ⟨ixs', hmem', hstop'⟩
        · rw [hall' ixs hmem] at hstop
          cases hstop
        · exact h houter ixs hmem ixs' hmem' _ _ hstop hstop'

/-! ## Execution order -/

/-- An inner instruction that decodes to a swap is in a list that stops the search. -/
theorem exists_innerStop_of_firstInnerSwap {swap : ResolvedSwap}
    (h : firstInnerSwap decoders transaction = some swap) :
    ∃ instructions ∈ transaction.innerLists, ∃ stop,
      innerStop decoders transaction instructions = some stop := by
  obtain ⟨ix, hix, hswap⟩ := List.exists_of_findSome?_eq_some h
  obtain ⟨key, -, hkey⟩ := List.mem_flatMap.mp hix
  have hstop : ∃ stop, stopOf decoders transaction (ix, none) = some stop := by
    cases hparse : parseSwapInstruction decoders transaction ix none with
    | panic => exact ⟨.panic, stopOf_eq_some.mpr ⟨hparse, by simp⟩⟩
    | err e => exact ⟨.err e, stopOf_eq_some.mpr ⟨hparse, by simp⟩⟩
    | ok found =>
      simp only [hparse] at hswap
      subst hswap
      exact ⟨.ok (some swap), stopOf_eq_some.mpr ⟨hparse, by simp⟩⟩
  obtain ⟨stop, hstop⟩ := hstop
  rw [ITransaction.innerOf] at hkey
  rw [ITransaction.innerLists]
  cases hinner : transaction.innerInstructions with
  | none =>
    rw [hinner] at hkey
    cases hkey
  | some inner =>
    cases hlookup : inner.lookup (UInt8.ofNat key) with
    | none =>
      rw [hinner, Option.bind_some, hlookup] at hkey
      cases hkey
    | some instructions =>
      rw [hinner, Option.bind_some, hlookup, Option.getD_some] at hkey
      have hmem : instructions ∈ Table.values inner :=
        List.mem_map.mpr ⟨⟨_, instructions⟩, AList.mem_lookup_iff.mp hlookup, rfl⟩
      refine ⟨instructions, hmem, Option.isSome_iff_exists.mp ?_⟩
      rw [innerStop, firstStop, List.findSome?_isSome_iff]
      exact ⟨(ix, none), List.mem_map.mpr ⟨ix, hkey, rfl⟩, by rw [hstop]; rfl⟩

/-- Without a swap in the message, a swap is the result in every order exactly if nothing in
the message stops the search and every list that stops it does so with this swap. -/
theorem parseSwapTransaction_eq_swap_iff (houter : NoOuterSwap decoders transaction)
    {swap : ResolvedSwap} (hfirst : firstInnerSwap decoders transaction = some swap) :
    (∀ iter : Iteration (List CompiledInstruction),
      parseSwapTransaction decoders iter transaction = .ok (some swap)) ↔
      firstStop decoders transaction transaction.outerInstructions = none ∧
        ∀ instructions ∈ transaction.innerLists, ∀ stop,
          innerStop decoders transaction instructions = some stop → stop = .ok (some swap) := by
  constructor
  · intro h
    have hnone : firstStop decoders transaction transaction.outerInstructions = none := by
      cases hstop : firstStop decoders transaction transaction.outerInstructions with
      | none => rfl
      | some stop =>
        have hresult := h (Iteration.stored _)
        rw [parseSwapTransaction_eq_getD, hstop, Option.some_or, Option.getD_some] at hresult
        obtain ⟨step, hmem, hstep⟩ := List.exists_of_findSome?_eq_some hstop
        exact (houter step hmem swap ((stopOf_eq_some.mp hstep).1.trans hresult)).elim
    refine ⟨hnone, fun instructions hmem stop hstop => ?_⟩
    rw [← parseSwapTransaction_startingWith hnone hmem hstop]
    exact h _
  · rintro ⟨hnone, hall⟩ iter
    rcases parseSwapTransaction_cases hnone iter with ⟨-, hempty⟩ | ⟨instructions, hmem, hstop⟩
    · obtain ⟨instructions, hmem, stop, hstop⟩ := exists_innerStop_of_firstInnerSwap hfirst
      rw [hempty instructions hmem] at hstop
      cases hstop
    · exact hall instructions hmem _ hstop

/-- The parser follows execution order exactly if the lists of inner instructions agree on
what they stop the search with, and it is the first swap where the message has none. -/
theorem parseSwapTransaction_execution_order_iff (decoders : Decoders)
    (transaction : ITransaction) :
    ((∀ iter iter' : Iteration (List CompiledInstruction),
        parseSwapTransaction decoders iter transaction =
          parseSwapTransaction decoders iter' transaction) ∧
      (NoOuterSwap decoders transaction →
        ∀ swap, firstInnerSwap decoders transaction = some swap →
        ∀ iter : Iteration (List CompiledInstruction),
          parseSwapTransaction decoders iter transaction = .ok (some swap))) ↔
      (firstStop decoders transaction transaction.outerInstructions = none →
        ∀ instructions ∈ transaction.innerLists, ∀ instructions' ∈ transaction.innerLists,
        ∀ stop stop', innerStop decoders transaction instructions = some stop →
          innerStop decoders transaction instructions' = some stop' → stop = stop') ∧
      (NoOuterSwap decoders transaction →
        ∀ swap, firstInnerSwap decoders transaction = some swap →
        firstStop decoders transaction transaction.outerInstructions = none ∧
          ∀ instructions ∈ transaction.innerLists, ∀ stop,
            innerStop decoders transaction instructions = some stop →
              stop = .ok (some swap)) := by
  rw [parseSwapTransaction_order_iff]
  refine and_congr_right fun _ => ?_
  refine forall_congr' fun houter => forall_congr' fun swap => forall_congr' fun hfirst => ?_
  exact parseSwapTransaction_eq_swap_iff houter hfirst

/-- The text of a trade event that is zero in every field. -/
def tradeText : Text := "vdt/007mYe4A".toList ++ List.replicate 160 'A'

/-- What the libraries answer on the text of the trade event, and on the data of a swap with
one unit as its input. -/
def tradeDecoders : Decoders where
  base64 := fun text =>
    if text = tradeText then some (tradeEventDiscriminator ++ List.replicate 121 0) else none
  unpack := fun data =>
    if data = 9 :: 1 :: List.replicate 15 0 then .ok (.swapBaseIn 1 0)
    else .error "InvalidInstructionData"
  rounding := .binary64

/-- A program that the parser knows nothing about. -/
def routerProgramId : Pubkey := 7#256

/-- Two instructions of a program that routes trades: the first one swaps at Raydium, the
second one at Pump. The node has recorded the log and left the token balances out. -/
def routedTransaction : ITransaction where
  instructions := [⟨0, [], []⟩, ⟨0, [], []⟩]
  staticAccountKeys := [routerProgramId, raydiumLiquidityPoolV4ProgramId, pumpfunProgramId]
  loadedAddresses := none
  statusMeta := some {
    logMessages := some (renderLogs
      [(routerProgramId, .call raydiumLiquidityPoolV4ProgramId .done .done),
        (routerProgramId, .call pumpfunProgramId (.emit .data tradeText .done) .done)])
    preTokenBalances := none
    postTokenBalances := none }
  innerInstructions := some (AList.insert 0
    [⟨1, List.replicate 17 0, 9 :: 1 :: List.replicate 15 0⟩]
    (AList.insert 1 [⟨2, [], []⟩] ∅))

/-- In one order the swap at Raydium, whose balances are missing, ends the search with an
error, in the other one the swap at Pump is found. -/
theorem parseSwapTransaction_routed :
    parseSwapTransaction tradeDecoders (Iteration.stored _) routedTransaction ≠
      parseSwapTransaction tradeDecoders ⟨List.reverse, List.reverse_perm⟩
        routedTransaction := by
  decide +kernel

end Biscuit.Parser
