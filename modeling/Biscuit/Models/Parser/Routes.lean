import Biscuit.Core.Tally
import Biscuit.Models.Parser.Swap

/-!
# Merged Jupiter routes

Jupiter leaves one event for each leg of a route. The parser takes what the first leg consumed
and what the last one produced for the whole trade, which leaves the other legs of a split
route out.
-/

namespace Biscuit.Parser

/-- What the legs of a route take of a mint. -/
def consumed (events : List SwapEvent) (mint : Pubkey) : ℕ :=
  tally (fun event => if event.inputMint = mint then event.inputAmount else 0) events

/-- What the legs of a route yield of a mint. -/
def produced (events : List SwapEvent) (mint : Pubkey) : ℕ :=
  tally (fun event => if event.outputMint = mint then event.outputAmount else 0) events

/-- A trade has the mints and the amounts of a whole route. -/
structure IsNetTrade (events : List SwapEvent) (source destination : Pubkey)
    (trade : SwapEvent) : Prop where
  inputMint : trade.inputMint = source
  outputMint : trade.outputMint = destination
  inputAmount : trade.inputAmount = consumed events source
  outputAmount : trade.outputAmount = produced events destination

/-- A route that passes through every mint once: each leg takes what the one before it yields. -/
structure IsLinear (events : List SwapEvent) : Prop where
  linked : events.tail.map (·.inputMint) = events.dropLast.map (·.outputMint)
  nodup : (events.map (·.inputMint)).Nodup
  fresh : ∀ last ∈ events.getLast?, last.outputMint ∉ events.map (·.inputMint)

section

variable {events : List SwapEvent}

theorem mergeJupiterEvents_of_ne_nil (h : events ≠ []) :
    mergeJupiterEvents events =
      some { events.head h with
        outputMint := (events.getLast h).outputMint
        outputAmount := (events.getLast h).outputAmount } := by
  rw [mergeJupiterEvents, List.head?_eq_some_head h, List.getLast?_eq_some_getLast h]

/-- The first leg consumes its own mint. -/
theorem consumed_head (h : events ≠ []) :
    consumed events (events.head h).inputMint =
      (events.head h).inputAmount + consumed events.tail (events.head h).inputMint := by
  obtain ⟨first, rest, rfl⟩ := List.exists_cons_of_ne_nil h
  simp only [consumed, tally_cons, List.head_cons, List.tail_cons, if_true]

/-- The last leg produces its own mint. -/
theorem produced_getLast (h : events ≠ []) :
    produced events (events.getLast h).outputMint =
      produced events.dropLast (events.getLast h).outputMint + (events.getLast h).outputAmount := by
  obtain hnil | ⟨init, last, rfl⟩ := List.eq_nil_or_concat' events
  · exact (h hnil).elim
  · simp only [produced, tally_append, tally_cons, tally_nil, List.getLast_append_singleton,
      List.dropLast_concat, if_true, Nat.add_zero]

theorem consumed_eq_zero_iff {mint : Pubkey} :
    consumed events mint = 0 ↔
      ∀ event ∈ events, event.inputMint = mint → event.inputAmount = 0 := by
  simp only [consumed, tally_eq_zero_iff, ite_eq_right_iff]

theorem produced_eq_zero_iff {mint : Pubkey} :
    produced events mint = 0 ↔
      ∀ event ∈ events, event.outputMint = mint → event.outputAmount = 0 := by
  simp only [produced, tally_eq_zero_iff, ite_eq_right_iff]

/-- The merged event falls short of the net trade by what the other legs take and yield. -/
theorem isNetTrade_merged_iff (h : events ≠ []) {trade : SwapEvent}
    (htrade : mergeJupiterEvents events = some trade) :
    IsNetTrade events (events.head h).inputMint (events.getLast h).outputMint trade ↔
      consumed events.tail (events.head h).inputMint = 0 ∧
        produced events.dropLast (events.getLast h).outputMint = 0 := by
  rw [mergeJupiterEvents_of_ne_nil h, Option.some.injEq] at htrade
  subst htrade
  have hconsumed := consumed_head h
  have hproduced := produced_getLast h
  constructor
  · intro hnet
    have hinput : (events.head h).inputAmount = _ := hnet.inputAmount
    have houtput : (events.getLast h).outputAmount = _ := hnet.outputAmount
    omega
  · rintro ⟨hinput, houtput⟩
    refine ⟨rfl, rfl, ?_, ?_⟩
    · rw [hconsumed, hinput, Nat.add_zero]
    · rw [hproduced, houtput, Nat.zero_add]

/-- The merged event of a route is its net trade exactly when no leg after the first takes any of
what the first takes, and no leg before the last yields any of what the last yields. -/
theorem mergeJupiterEvents_isNetTrade_iff (events : List SwapEvent) (h : events ≠ []) :
    (∃ trade, mergeJupiterEvents events = some trade ∧
        IsNetTrade events (events.head h).inputMint (events.getLast h).outputMint trade) ↔
      (∀ event ∈ events.tail, event.inputMint = (events.head h).inputMint →
        event.inputAmount = 0) ∧
      ∀ event ∈ events.dropLast, event.outputMint = (events.getLast h).outputMint →
        event.outputAmount = 0 := by
  rw [← consumed_eq_zero_iff, ← produced_eq_zero_iff]
  constructor
  · rintro ⟨trade, htrade, hnet⟩
    exact (isNetTrade_merged_iff h htrade).mp hnet
  · intro hrest
    have hmerged := mergeJupiterEvents_of_ne_nil h
    exact ⟨_, hmerged, (isNetTrade_merged_iff h hmerged).mpr hrest⟩

end

/-- A leg of a route through some pool. -/
def leg (inputMint : Pubkey) (inputAmount : ℕ) (outputMint : Pubkey) (outputAmount : ℕ) :
    SwapEvent :=
  ⟨raydiumLiquidityPoolV4ProgramId, inputMint, inputAmount, outputMint, outputAmount⟩

theorem mergeJupiterEvents_twoLegs :
    ∃ trade, mergeJupiterEvents [leg SOL 100 USDT 20, leg USDT 20 USDC 19] = some trade ∧
      IsNetTrade [leg SOL 100 USDT 20, leg USDT 20 USDC 19] SOL USDC trade :=
  (mergeJupiterEvents_isNetTrade_iff [leg SOL 100 USDT 20, leg USDT 20 USDC 19]
    (List.cons_ne_nil _ _)).mpr (by decide)

/-- A route that is split over two pools is merged into the first amount paid and the last one
received. -/
theorem mergeJupiterEvents_split :
    ¬ ∀ (events : List SwapEvent) (h : events ≠ []),
      (events.head h).inputMint ≠ (events.getLast h).outputMint →
      ∃ trade, mergeJupiterEvents events = some trade ∧
        IsNetTrade events (events.head h).inputMint (events.getLast h).outputMint trade := by
  intro hall
  obtain ⟨trade, htrade, hnet⟩ :=
    hall [leg SOL 60 USDC 12, leg SOL 40 USDC 8] (List.cons_ne_nil _ _) (by decide)
  have hamount := hnet.inputAmount
  rw [← Option.some.inj htrade] at hamount
  exact absurd hamount (by decide)

/-! ## Linear routes -/

section

variable {events : List SwapEvent}

/-- The other legs of a linear route leave the mints at its ends alone. -/
theorem IsLinear.isNetTrade (h : IsLinear events) (hne : events ≠ []) {trade : SwapEvent}
    (htrade : mergeJupiterEvents events = some trade) :
    IsNetTrade events (events.head hne).inputMint (events.getLast hne).outputMint trade := by
  refine (isNetTrade_merged_iff hne htrade).mpr ⟨?_, ?_⟩
  · rw [consumed_eq_zero_iff]
    intro event hevent hmint
    have hnodup := h.nodup
    rw [← List.cons_head_tail hne, List.map_cons, List.nodup_cons] at hnodup
    exact (hnodup.1 (hmint ▸ List.mem_map_of_mem hevent)).elim
  · rw [produced_eq_zero_iff]
    intro event hevent hmint
    have hlinked : event.outputMint ∈ events.tail.map (·.inputMint) :=
      h.linked ▸ List.mem_map_of_mem hevent
    have hinput : event.outputMint ∈ events.map (·.inputMint) :=
      List.map_subset _ (List.tail_subset events) hlinked
    exact (h.fresh _ (List.getLast?_eq_some_getLast hne) (hmint ▸ hinput)).elim

/-- What is read from the events of an instruction. -/
theorem decodeJupiter_of_events {transaction : ITransaction} {idx : ℕ}
    (h : parseJupiterSwapEvents ((getCpiLogsForInstruction transaction idx).getD []) = .ok events) :
    decodeJupiter transaction idx = .ok ((mergeJupiterEvents events).map fun event => {
      provider := .jupiter
      owner := none
      inputAmount := event.inputAmount
      outputAmount := event.outputAmount
      inputTokenMint := event.inputMint
      outputTokenMint := event.outputMint
      tokenDecimals := none }) := by
  rw [decodeJupiter, h, Outcome.ok_bind]
  cases mergeJupiterEvents events <;> rfl

/-- The swap that is read from a linear route has the amounts of the whole route. -/
theorem decodeJupiter_of_isLinear {transaction : ITransaction} {idx : ℕ}
    (h : parseJupiterSwapEvents ((getCpiLogsForInstruction transaction idx).getD []) = .ok events)
    (hne : events ≠ []) (hlinear : IsLinear events) :
    ∃ swap, decodeJupiter transaction idx = .ok (some swap) ∧
      swap.inputTokenMint = (events.head hne).inputMint ∧
      swap.outputTokenMint = (events.getLast hne).outputMint ∧
      swap.inputAmount = consumed events swap.inputTokenMint ∧
      swap.outputAmount = produced events swap.outputTokenMint := by
  have hmerged := mergeJupiterEvents_of_ne_nil hne
  have hnet := hlinear.isNetTrade hne hmerged
  have hswap := decodeJupiter_of_events h
  rw [hmerged, Option.map_some] at hswap
  exact ⟨_, hswap, hnet.inputMint, hnet.outputMint, hnet.inputAmount, hnet.outputAmount⟩

end

end Biscuit.Parser
