import Biscuit.Models.Swap.Executors

/-!
# Wrapping SOL

What a swap transaction does around its swap: the accounts that the swap needs are open when it
runs, SOL that goes in is wrapped, and what is wrapped in the end is unwrapped again. Nothing but
the tip and the rent of a new account leaves the user.
-/

namespace Biscuit.Swap

open Chain

variable {σ : Type} {runtime : Runtime σ} {bank bank' : Bank} {user : Pubkey}

/-! ## Parts of a transaction -/

/-- Limits and prices change no accounts. -/
theorem run_computeBudget (hlawful : runtime.Lawful) {limit cuPrice : Option ℕ}
    (h : runtime.run bank ((limit.map .setComputeUnitLimit).toList ++
      (cuPrice.map .setComputeUnitPrice).toList) = some bank') : bank' = bank := by
  obtain ⟨middle, hlimit, hprice⟩ := Runtime.run_append_eq_some.mp h
  have hmiddle : middle = bank := by
    cases limit with
    | none => exact (Option.some.inj hlimit).symm
    | some limit =>
      simp only [Option.map_some, Option.toList_some, Runtime.run_singleton] at hlimit
      exact hlawful.setComputeUnitLimit hlimit
  subst hmiddle
  cases cuPrice with
  | none => exact (Option.some.inj hprice).symm
  | some cuPrice =>
    simp only [Option.map_some, Option.toList_some, Runtime.run_singleton] at hprice
    exact hlawful.setComputeUnitPrice hprice

/-- Opening the account for wrapped SOL moves its rent only, between the user and the account. -/
theorem create_native (hlawful : runtime.Lawful) (hnative : runtime.nativeAccount user ≠ user)
    (hrent : runtime.RentPaid bank (runtime.nativeAccount user) SOL)
    (h : runtime.execute bank (.createAssociatedTokenAccountIdempotent user user SOL splTokenId) =
      some bank') :
    Effect user (runtime.nativeAccount user) 0 [user, runtime.nativeAccount user] bank bank' ∧
      bank'.HasAccount (runtime.nativeAccount user) user SOL splTokenId ∧
      runtime.rent SOL ≤ bank'.lamports (runtime.nativeAccount user) := by
  obtain ⟨haccount, hcreated⟩ := hlawful.create h
  change bank'.HasAccount (runtime.nativeAccount user) user SOL splTokenId at haccount
  change (bank.tokens (runtime.nativeAccount user)).isSome ∧ bank' = bank ∨
    bank.tokens (runtime.nativeAccount user) = none ∧ ∃ paid account,
      bank.Paid paid user (runtime.nativeAccount user)
        (runtime.rent SOL - bank.lamports (runtime.nativeAccount user)) ∧
      bank' = paid.setToken (runtime.nativeAccount user) (some account) at hcreated
  generalize runtime.nativeAccount user = native at *
  obtain ⟨hsome, rfl⟩ | ⟨-, paid, account, hpaid, rfl⟩ := hcreated
  · exact ⟨(Effect.refl _ _ _).mono (List.nil_subset _), haccount, hrent hsome⟩
  · refine ⟨?_, haccount, ?_⟩
    · have hmoved := Effect.of_paid_within hnative (Or.inl ⟨rfl, rfl⟩) hpaid
      exact (hmoved.trans (Effect.of_setToken _ _ _ _ _)).mono (by simp)
    · have hkey := hpaid.lamports native
      rw [if_neg hnative, if_pos rfl] at hkey
      rw [Bank.lamports_setToken]
      omega

/-- Wrapped SOL counts at least what was sent to the account. -/
theorem run_wrap (hlawful : runtime.Lawful) {native : Pubkey} (hnative : native ≠ user) {n : ℕ}
    (haccount : bank.HasAccount native user SOL splTokenId)
    (hrent : runtime.rent SOL ≤ bank.lamports native)
    (h : runtime.run bank [.transfer user native n, .syncNative splTokenId native] = some bank') :
    Effect user native 0 [user, native] bank bank' ∧
      ∃ amount, bank'.tokens native = some ⟨splTokenId, SOL, user, amount⟩ ∧ n ≤ amount := by
  obtain ⟨paid, htransfer, hsync⟩ := Runtime.run_cons_eq_some.mp h
  rw [Runtime.run_singleton] at hsync
  have hpaid := hlawful.transfer htransfer
  obtain ⟨account, hbefore, rfl⟩ := hlawful.syncNative hsync
  obtain ⟨amount, htokens⟩ := haccount
  rw [hpaid.tokens, htokens] at hbefore
  obtain rfl := Option.some.inj hbefore
  constructor
  · have hmoved := Effect.of_paid_within hnative (Or.inl ⟨rfl, rfl⟩) hpaid
    exact (hmoved.trans (Effect.of_setToken _ _ _ _ _)).mono (by simp)
  · refine ⟨_, Bank.tokens_setToken_self .., ?_⟩
    have hkey := hpaid.lamports native
    rw [if_neg hnative, if_pos rfl] at hkey
    omega

/-- What the user pays for an account that is not there yet. -/
def openingCost (runtime : Runtime σ) (bank : Bank) (address mint : Pubkey) : ℕ :=
  if mint = SOL ∨ (bank.tokens address).isSome then 0
  else runtime.rent mint - bank.lamports address

/-- Opening an account of another mint costs its rent, and leaves wrapped SOL alone. -/
theorem create_output (hlawful : runtime.Lawful) {native mint program : Pubkey}
    (hnative : native ≠ user) (hmint : mint ≠ SOL)
    (houtput : runtime.associated user mint program ∉ [user, native])
    (h : runtime.execute bank (.createAssociatedTokenAccountIdempotent user user mint program) =
      some bank') :
    Effect user native (openingCost runtime bank (runtime.associated user mint program) mint)
        [user, runtime.associated user mint program] bank bank' ∧
      bank'.HasAccount (runtime.associated user mint program) user mint program ∧
      bank'.tokens native = bank.tokens native := by
  obtain ⟨haccount, hcreated⟩ := hlawful.create h
  generalize runtime.associated user mint program = output at *
  obtain ⟨hsome, rfl⟩ | ⟨hnone, paid, account, hpaid, rfl⟩ := hcreated
  · rw [openingCost, if_pos (Or.inr hsome)]
    exact ⟨(Effect.refl _ _ _).mono (List.nil_subset _), haccount, rfl⟩
  · rw [openingCost, if_neg (by simp [hmint, hnone])]
    refine ⟨?_, haccount, ?_⟩
    · have hmoved := Effect.of_paid_out hnative houtput hpaid
      exact (hmoved.trans (Effect.of_setToken _ _ _ _ _)).mono (by simp)
    · have hne : native ≠ output := by
        rintro rfl
        exact houtput (by simp)
      rw [Bank.tokens_setToken_of_ne _ _ hne, hpaid.tokens]

/-- A tip costs what it says, and opens or closes no account. -/
theorem run_tip (hlawful : runtime.Lawful) {native recipient : Pubkey} (hnative : native ≠ user)
    (hrecipient : recipient ∉ [user, native]) {tip : Option ℕ}
    (h : runtime.run bank (tip.map (.transfer user recipient)).toList = some bank') :
    Effect user native (tip.getD 0) [user, recipient] bank bank' ∧
      bank'.tokens = bank.tokens := by
  cases tip with
  | none =>
    obtain rfl := Option.some.inj h
    exact ⟨(Effect.refl _ _ _).mono (List.nil_subset _), rfl⟩
  | some tip =>
    simp only [Option.map_some, Option.toList_some, Runtime.run_singleton] at h
    have hpaid := hlawful.transfer h
    exact ⟨Effect.of_paid_out hnative hrecipient hpaid, hpaid.tokens⟩

/-- Closing the account for wrapped SOL gives all its lamports back. -/
theorem close_native (hlawful : runtime.Lawful) {native : Pubkey} (hnative : native ≠ user)
    (h : runtime.execute bank (.closeAccount splTokenId native user user) = some bank') :
    Effect user native 0 [user, native] bank bank' ∧ bank'.tokens native = none ∧
      bank'.lamports native = 0 := by
  obtain ⟨paid, hpaid, rfl⟩ := hlawful.closeAccount h
  refine ⟨?_, Bank.tokens_setToken_self .., ?_⟩
  · have hmoved := Effect.of_paid_within hnative (Or.inr ⟨rfl, rfl⟩) hpaid
    exact (hmoved.trans (Effect.of_setToken _ _ _ _ _)).mono (by simp)
  · have hkey := hpaid.lamports native
    rw [if_pos rfl, if_neg hnative] at hkey
    rw [Bank.lamports_setToken]
    omega

/-! ## Before and after the swap -/

namespace SwapRequest

variable {request : SwapRequest}

/-- SOL belongs to the first token program. -/
structure SolPrograms (request : SwapRequest) : Prop where
  input : request.inputMint = SOL → request.inputTokenProgram = splTokenId
  output : request.outputMint = SOL → request.outputTokenProgram = splTokenId

/-- The SOL that goes in is ready, where SOL goes in. -/
structure InputReady (runtime : Runtime σ) (request : SwapRequest) (bank : Bank) : Prop where
  input : request.inputMint = SOL →
    bank.HasAccount (runtime.nativeAccount request.user) request.user SOL splTokenId
  wrapped : request.inputMint = SOL → request.wrapAndUnwrapSol →
    ∃ amount, bank.tokens (runtime.nativeAccount request.user) =
      some ⟨splTokenId, SOL, request.user, amount⟩ ∧ request.inputAmount ≤ amount

/-- A swap finds what goes in, and an account for what comes out. -/
structure Prepared (runtime : Runtime σ) (request : SwapRequest) (bank : Bank) : Prop
    extends InputReady runtime request bank where
  output : bank.HasAccount (request.outputAta runtime.associated) request.user
    request.outputMint request.outputTokenProgram

theorem InputReady.of_tokens (h : request.InputReady runtime bank)
    (htokens : bank'.tokens (runtime.nativeAccount request.user) =
      bank.tokens (runtime.nativeAccount request.user)) : request.InputReady runtime bank' where
  input hinput := by
    obtain ⟨amount, haccount⟩ := h.input hinput
    exact ⟨amount, htokens.trans haccount⟩
  wrapped hinput hwrap := by
    obtain ⟨amount, haccount, hamount⟩ := h.wrapped hinput hwrap
    exact ⟨amount, htokens.trans haccount, hamount⟩

theorem Prepared.of_tokens (h : request.Prepared runtime bank)
    (htokens : bank'.tokens = bank.tokens) : request.Prepared runtime bank' where
  toInputReady := h.toInputReady.of_tokens (congrFun htokens _)
  output := by
    obtain ⟨amount, haccount⟩ := h.output
    exact ⟨amount, (congrFun htokens _).trans haccount⟩

/-- For SOL that goes in, the account is opened and filled. -/
theorem run_input (hlawful : runtime.Lawful)
    (hnative : runtime.nativeAccount request.user ≠ request.user)
    (hrent : runtime.RentPaid bank (runtime.nativeAccount request.user) SOL)
    (h : runtime.run bank
      (.createAssociatedTokenAccountIdempotent request.user request.user SOL splTokenId ::
        if request.wrapAndUnwrapSol then
          [.transfer request.user (runtime.nativeAccount request.user) request.inputAmount,
            .syncNative splTokenId (runtime.nativeAccount request.user)]
        else []) = some bank') :
    Effect request.user (runtime.nativeAccount request.user) 0
        [request.user, runtime.nativeAccount request.user] bank bank' ∧
      request.InputReady runtime bank' := by
  obtain ⟨opened, hcreate, hfill⟩ := Runtime.run_cons_eq_some.mp h
  obtain ⟨heffect, haccount, hheld⟩ := create_native hlawful hnative hrent hcreate
  cases hwrap : request.wrapAndUnwrapSol with
  | false =>
    rw [hwrap, if_neg Bool.false_ne_true] at hfill
    obtain rfl := Option.some.inj hfill
    refine ⟨heffect, fun _ => haccount, fun _ htrue => ?_⟩
    rw [hwrap] at htrue
    cases htrue
  | true =>
    rw [hwrap, if_pos rfl] at hfill
    obtain ⟨hfilled, amount, htokens, hamount⟩ := run_wrap hlawful hnative haccount hheld hfill
    refine ⟨(heffect.trans hfilled).mono (by simp), fun _ => ⟨amount, htokens⟩, fun _ _ => ?_⟩
    exact ⟨amount, htokens, hamount⟩

/-- Where what goes in is ready, opening the account for what comes out prepares the swap. -/
theorem run_output (hlawful : runtime.Lawful) (hprograms : request.SolPrograms)
    (hnative : runtime.nativeAccount request.user ≠ request.user)
    (hrent : request.inputMint ≠ SOL →
      runtime.RentPaid bank (runtime.nativeAccount request.user) SOL)
    (houtput : request.outputMint ≠ SOL → request.outputAta runtime.associated ∉
      [request.user, runtime.nativeAccount request.user])
    (hready : request.InputReady runtime bank)
    (h : runtime.execute bank (.createAssociatedTokenAccountIdempotent request.user request.user
      request.outputMint request.outputTokenProgram) = some bank') :
    Effect request.user (runtime.nativeAccount request.user)
        (openingCost runtime bank (request.outputAta runtime.associated) request.outputMint)
        [request.user, runtime.nativeAccount request.user,
          request.outputAta runtime.associated] bank bank' ∧
      request.Prepared runtime bank' := by
  by_cases hsol : request.outputMint = SOL
  · have hata : request.outputAta runtime.associated = runtime.nativeAccount request.user := by
      rw [outputAta, hsol, hprograms.output hsol]
      rfl
    rw [hsol, hprograms.output hsol] at h
    rw [openingCost, if_pos (Or.inl hsol), hata]
    by_cases hinput : request.inputMint = SOL
    · -- the account is open already, and is only checked
      obtain ⟨amount, haccount⟩ := hready.input hinput
      obtain ⟨-, ⟨-, rfl⟩ | ⟨hnone, -⟩⟩ := hlawful.create h
      · refine ⟨(Effect.refl _ _ _).mono (List.nil_subset _), hready, ?_⟩
        rw [hata, hsol, hprograms.output hsol]
        exact ⟨amount, haccount⟩
      · exact absurd (haccount.symm.trans hnone) (Option.some_ne_none _)
    · obtain ⟨heffect, haccount, -⟩ := create_native hlawful hnative (hrent hinput) h
      refine ⟨heffect.mono (by simp), ⟨?_, ?_⟩, ?_⟩
      · exact fun hinput' => absurd hinput' hinput
      · exact fun hinput' => absurd hinput' hinput
      · rwa [hata, hsol, hprograms.output hsol]
  · obtain ⟨heffect, haccount, htokens⟩ :=
      create_output hlawful hnative hsol (houtput hsol) h
    exact ⟨heffect.mono (by simp [outputAta]), hready.of_tokens htokens, haccount⟩

/-- What goes before a swap prepares it, and costs what a new account needs. -/
theorem run_wrapping (hlawful : runtime.Lawful) (hprograms : request.SolPrograms)
    (hnative : runtime.nativeAccount request.user ≠ request.user)
    (hrent : runtime.RentPaid bank (runtime.nativeAccount request.user) SOL)
    (houtput : request.outputMint ≠ SOL → request.outputAta runtime.associated ∉
      [request.user, runtime.nativeAccount request.user])
    (h : runtime.run bank (request.wrapping runtime.associated) = some bank') :
    Effect request.user (runtime.nativeAccount request.user)
        (openingCost runtime bank (request.outputAta runtime.associated) request.outputMint)
        [request.user, runtime.nativeAccount request.user,
          request.outputAta runtime.associated] bank bank' ∧
      request.Prepared runtime bank' := by
  obtain ⟨middle, hfirst, hcreate⟩ := Runtime.run_append_eq_some.mp h
  rw [Runtime.run_singleton] at hcreate
  by_cases hinput : request.inputMint = SOL
  · have hata : request.inputAta runtime.associated = runtime.nativeAccount request.user := by
      rw [inputAta, hinput, hprograms.input hinput]
      rfl
    rw [if_pos hinput, hinput, hata] at hfirst
    obtain ⟨hwrapped, hready⟩ := run_input hlawful hnative hrent hfirst
    obtain ⟨hopened, hprepared⟩ := run_output hlawful hprograms hnative
      (fun hne => absurd hinput hne) houtput hready hcreate
    have hcost : openingCost runtime middle (request.outputAta runtime.associated)
        request.outputMint =
          openingCost runtime bank (request.outputAta runtime.associated) request.outputMint := by
      by_cases hsol : request.outputMint = SOL
      · simp [openingCost, hsol]
      · obtain ⟨hlamports, htokens⟩ := hwrapped.agrees _ (houtput hsol)
        rw [openingCost, openingCost, hlamports, htokens]
    have heffect := hwrapped.trans hopened
    rw [Nat.zero_add, hcost] at heffect
    exact ⟨heffect.mono (by simp), hprepared⟩
  · rw [if_neg hinput] at hfirst
    obtain rfl := Option.some.inj hfirst
    apply run_output hlawful hprograms hnative (fun _ => hrent) houtput ?_ hcreate
    exact ⟨fun h => absurd h hinput, fun h => absurd h hinput⟩

/-- What goes after a swap closes the account for wrapped SOL, where SOL was wrapped for it. -/
theorem run_unwrapping (hlawful : runtime.Lawful) (hprograms : request.SolPrograms)
    (hnative : runtime.nativeAccount request.user ≠ request.user)
    (h : runtime.run bank (request.unwrapping runtime.associated).toList = some bank') :
    Effect request.user (runtime.nativeAccount request.user) 0
        [request.user, runtime.nativeAccount request.user] bank bank' ∧
      (request.wrapAndUnwrapSol → request.inputMint = SOL ∨ request.outputMint = SOL →
        bank'.tokens (runtime.nativeAccount request.user) = none ∧
          bank'.lamports (runtime.nativeAccount request.user) = 0) := by
  unfold unwrapping at h
  split at h
  · rename_i hwrap
    split at h
    · rename_i hsol
      rw [Option.toList_some, Runtime.run_singleton, outputAta, hsol, hprograms.output hsol] at h
      obtain ⟨heffect, hclosed⟩ := close_native hlawful hnative h
      exact ⟨heffect, fun _ _ => hclosed⟩
    · rename_i hother
      split at h
      · rename_i hsol
        rw [Option.toList_some, Runtime.run_singleton, inputAta, hsol, hprograms.input hsol] at h
        obtain ⟨heffect, hclosed⟩ := close_native hlawful hnative h
        exact ⟨heffect, fun _ _ => hclosed⟩
      · rename_i hinput
        obtain rfl := Option.some.inj h
        refine ⟨(Effect.refl _ _ _).mono (List.nil_subset _), fun _ hside => ?_⟩
        exact absurd hside (not_or.mpr ⟨hinput, hother⟩)
  · rename_i hwrap
    obtain rfl := Option.some.inj h
    exact ⟨(Effect.refl _ _ _).mono (List.nil_subset _), fun htrue => absurd htrue hwrap⟩

/-- A transaction that is laid out for a swap is the swap, with its preparation before it and the
unwrapping after it. -/
theorem run_laidOut (hlawful : runtime.Lawful) (hprograms : request.SolPrograms)
    (hnative : runtime.nativeAccount request.user ≠ request.user)
    (hrent : runtime.RentPaid bank (runtime.nativeAccount request.user) SOL)
    (houtput : request.outputMint ≠ SOL → request.outputAta runtime.associated ∉
      [request.user, runtime.nativeAccount request.user])
    {recipient : Pubkey}
    (hrecipient : recipient ∉ [request.user, runtime.nativeAccount request.user])
    {limit cuPrice tip : Option ℕ} {swap : σ}
    (h : runtime.run bank
      (request.laidOut runtime.associated recipient limit cuPrice tip swap) = some bank') :
    ∃ before after, runtime.execute before (.other swap) = some after ∧
      request.Prepared runtime before ∧
      Effect request.user (runtime.nativeAccount request.user)
        (openingCost runtime bank (request.outputAta runtime.associated) request.outputMint +
          tip.getD 0)
        [request.user, runtime.nativeAccount request.user, request.outputAta runtime.associated,
          recipient] bank before ∧
      Effect request.user (runtime.nativeAccount request.user) 0
        [request.user, runtime.nativeAccount request.user] after bank' ∧
      (request.wrapAndUnwrapSol → request.inputMint = SOL ∨ request.outputMint = SOL →
        bank'.tokens (runtime.nativeAccount request.user) = none ∧
          bank'.lamports (runtime.nativeAccount request.user) = 0) := by
  unfold laidOut at h
  obtain ⟨after, h, hclose⟩ := Runtime.run_append_eq_some.mp h
  obtain ⟨before, h, hswap⟩ := Runtime.run_append_eq_some.mp h
  obtain ⟨start, hbudget, hsetup⟩ := Runtime.run_append_eq_some.mp h
  obtain ⟨wrapped, hwrap, htip⟩ := Runtime.run_append_eq_some.mp hsetup
  obtain rfl := run_computeBudget hlawful hbudget
  obtain ⟨hopened, hprepared⟩ := run_wrapping hlawful hprograms hnative hrent houtput hwrap
  obtain ⟨htipped, htokens⟩ := run_tip hlawful hnative hrecipient htip
  obtain ⟨hunwrapped, hclosed⟩ := run_unwrapping hlawful hprograms hnative hclose
  rw [Runtime.run_singleton] at hswap
  refine ⟨before, after, hswap, hprepared.of_tokens htokens, ?_, hunwrapped, hclosed⟩
  exact (hopened.trans htipped).mono (by simp)

end SwapRequest

/-! ## The transactions of the executor -/

/-- The tip of a configuration. -/
def PriorityFeeConfig.tip : Option PriorityFeeConfig → Option ℕ
  | some (.jitoTip lamports) => some lamports
  | _ => none

/-- Only a configured tip is paid. -/
theorem tip_of_priceFor {b : Build} {highPriorityFee : Option F64} {limit : Option ℕ}
    {priorityFeeConfig : Option PriorityFeeConfig} {cuPrice tip : Option ℕ}
    (h : priceFor b highPriorityFee limit priorityFeeConfig = .ok (cuPrice, tip)) :
    tip = PriorityFeeConfig.tip priorityFeeConfig := by
  cases priorityFeeConfig with
  | none => exact (Prod.mk.inj (Outcome.ok.inj h)).2.symm
  | some config =>
    cases config with
    | dynamicMultiplier multiplier =>
      obtain ⟨priofee, -, h⟩ := Outcome.bind_eq_ok.mp h
      obtain ⟨price, -, h⟩ := Outcome.bind_eq_ok.mp h
      exact (Prod.mk.inj (Outcome.ok.inj h)).2.symm
    | _ => exact (Prod.mk.inj (Outcome.ok.inj h)).2.symm

/-- A plan that succeeds is a layout with the configured tip. -/
theorem SwapRequest.exists_laidOut_of_plan {b : Build}
    {associated : (wallet mint program : Pubkey) → Pubkey} {env : BuilderEnv σ}
    {computeLimits : Option ComputeUnitLimits} {priorityFeeConfig : Option PriorityFeeConfig}
    {request : SwapRequest} {swap : σ} {instructions : List (ChainInstruction σ)}
    (h : request.plan b associated env computeLimits priorityFeeConfig swap = .ok instructions) :
    ∃ limit cuPrice, instructions = request.laidOut associated env.jitoRecipient limit cuPrice
      (PriorityFeeConfig.tip priorityFeeConfig) swap := by
  obtain ⟨limit, -, h⟩ := Outcome.bind_eq_ok.mp h
  obtain ⟨⟨cuPrice, tip⟩, hprice, h⟩ := Outcome.bind_eq_ok.mp h
  refine ⟨limit, cuPrice, ?_⟩
  rw [← tip_of_priceFor hprice]
  exact (Outcome.ok.inj h).symm

/-- A transaction of the Raydium executor that goes through runs the swap of its quote where the
accounts of the user are open and the SOL that goes in is wrapped. Before the swap the user loses
the tip and the rent of a new account only, and after it nothing; other accounts change with the
swap alone, and SOL that was wrapped for it is unwrapped in the end. The network fee is no part of
this: it is charged before the first instruction. -/
theorem raydiumTransaction_surrounds_swap (b : Build) (hlawful : runtime.Lawful)
    (pack : RaydiumInstruction → Option σ) (env : BuilderEnv σ) (config : SwapConfig)
    (user : Pubkey) (quote : RaydiumAmmQuote) (overrides : Option SwapConfigOverrides)
    {instructions : List (ChainInstruction σ)}
    (hbuilt : (raydiumMakeSwap b runtime.associated pack env config user quote overrides >>=
      (·.buildInstructions)) = .ok instructions)
    (hrun : runtime.run bank instructions = some bank')
    (hnative : runtime.nativeAccount user ≠ user)
    (hrent : runtime.RentPaid bank (runtime.nativeAccount user) SOL)
    (houtput : quote.outputMint ≠ SOL →
      runtime.associated user quote.outputMint splTokenId ∉ [user, runtime.nativeAccount user])
    (hrecipient : env.jitoRecipient ∉ [user, runtime.nativeAccount user]) :
    let native := runtime.nativeAccount user
    let output := runtime.associated user quote.outputMint splTokenId
    let settings := config.overriddenBy overrides
    let tip := (PriorityFeeConfig.tip settings.priorityFee).getD 0
    ∃ swap before after,
      pack (quote.instruction runtime.associated user) = some swap ∧
      runtime.execute before (.other swap) = some after ∧
      (quote.request settings user).Prepared runtime before ∧
      Effect user native (openingCost runtime bank output quote.outputMint + tip)
        [user, native, output, env.jitoRecipient] bank before ∧
      Effect user native 0 [user, native] after bank' ∧
      (settings.wrapAndUnwrapSol.getD true → quote.inputMint = SOL ∨ quote.outputMint = SOL →
        bank'.tokens native = none ∧ bank'.lamports native = 0) := by
  intro native output settings tip
  rw [raydiumMakeSwap_eq_plan] at hbuilt
  obtain ⟨swap, hswap, hplan⟩ := Outcome.bind_eq_ok.mp hbuilt
  obtain ⟨limit, cuPrice, rfl⟩ := SwapRequest.exists_laidOut_of_plan hplan
  obtain ⟨before, after, hexecute, hparts⟩ := SwapRequest.run_laidOut hlawful
    ⟨fun _ => rfl, fun _ => rfl⟩ hnative hrent houtput hrecipient hrun
  exact ⟨swap, before, after, Outcome.ofOption_eq_ok.mp hswap, hexecute, hparts⟩

/-- A chain of one user and one pool, which sells tokens for five thousand lamports. -/
def sampleRuntime : Runtime Unit :=
  .documented (fun _ mint _ => if mint = SOL then 10 else 20) (fun _ => 2000) fun _ bank => do
    let paid ← bank.pay 10 99 5000
    let sold := paid.setToken 10 (some ⟨splTokenId, SOL, 1, 0⟩)
    pure (sold.setToken 20 (some ⟨splTokenId, 7, 1, 42⟩))

/-- The user has SOL, and no token account. -/
def sampleBank : Bank := ⟨fun key => if key = 1 then 100000 else 0, fun _ => none⟩

def sampleKeys : AmmKeys := ⟨90, 91, 92, 93, 94, 95, 96⟩

def sampleMarket : MarketKeys := ⟨80, 81, 82, 83, 84, 85⟩

theorem raydiumTransaction_surrounds_swap_sample :
    ∃ instructions bank',
      sampleRuntime.run sampleBank instructions = some bank' ∧
      instructions.length = 8 ∧
      bank'.tokens 10 = none ∧ bank'.lamports 10 = 0 ∧
      ∃ before, Effect 1 10 2030 [1, 10, 20, 50] sampleBank before ∧
        ∃ amount, before.tokens 10 = some ⟨splTokenId, SOL, 1, amount⟩ ∧ 5000 ≤ amount := by
  let env : BuilderEnv Unit := ⟨fun _ => none, none, 50⟩
  let config : SwapConfig := ⟨some (.jitoTip 30), some (.fixed 300000), none⟩
  let quote : RaydiumAmmQuote := ⟨SOL, 7, 5000, 42, 40, true, sampleKeys, sampleMarket⟩
  let request := quote.request config 1
  let instructions := request.laidOut sampleRuntime.associated 50 (some 300000) none (some 30) ()
  have hsome : (sampleRuntime.run sampleBank instructions).isSome := by decide
  obtain ⟨bank', hrun⟩ := Option.isSome_iff_exists.mp hsome
  have hbuilt : (raydiumMakeSwap .wrapping sampleRuntime.associated (fun _ => some ()) env
      config 1 quote none >>= (·.buildInstructions)) = .ok instructions := rfl
  obtain ⟨swap, before, after, -, -, hprepared, heffect, -, hclosed⟩ :=
    raydiumTransaction_surrounds_swap .wrapping (Runtime.documented_lawful _ _ _) _ env config 1
      quote none hbuilt hrun (by decide) (by simp [Runtime.RentPaid, sampleBank])
      (fun _ => by decide) (by decide)
  obtain ⟨htokens, hlamports⟩ := hclosed rfl (Or.inl rfl)
  exact ⟨instructions, bank', hrun, rfl, htokens, hlamports, before, heffect,
    hprepared.wrapped rfl rfl⟩

end Biscuit.Swap
