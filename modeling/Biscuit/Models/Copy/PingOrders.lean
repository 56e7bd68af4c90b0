import Biscuit.Models.Copy.Tiers

/-!
# The order of a ping

A swap of a copied wallet has two sides in the ping mode: the tokens that are sold with the
wallet and the lamports that are spent on the token it bought. `process_ping` computes both
amounts and pairs them with the mints; the order it returns is compared with that pairing.
-/

namespace Biscuit.Copy

namespace PingTracker

/-- A wallet has a share in the executed tokens once it counts for the token. -/
def hasShare (t : PingTracker) (wallet token : Pubkey) : Bool :=
  t.counts wallet token && (t.execution token).isSome

/-- The sell side applies exactly to the wallets that have a share. -/
theorem getTokenInput_isSome (t : PingTracker) (r : Rounding) (token origin : Pubkey)
    (tokenAmount originBalanceAfter : ℕ) :
    (t.getTokenInput r token origin tokenAmount originBalanceAfter).isSome =
      t.hasShare origin token := by
  simp only [getTokenInput, hasShare, counts]
  cases t.pings token with
  | none => rfl
  | some ping =>
    by_cases hw : origin ∈ ping.wallets
    · simp only [hw, not_true_eq_false, if_false, Option.any_some, decide_true, Bool.true_and]
      cases t.execution token <;> rfl
    · simp only [hw, not_false_eq_true, if_true, Option.any_some, decide_false, Bool.false_and,
        Option.isSome_none]

end PingTracker

/-- The tokens to sell, as the tracker gives them once the swap is entered. -/
def pingTokenInput (r : Rounding) (t : PingTracker) (d : CopyDetails) (balance : Balance) :
    Option ℕ :=
  t.getTokenInput r d.originSwap.inputTokenMint d.originSigner d.originSwap.inputAmount balance.post

/-- The lamports to spend, which only a wallet that is new to the token asks for. -/
def pingLamportsInput (t : PingTracker) (pinged buyDisabled : Bool) (d : CopyDetails) : Option ℕ :=
  if pinged && !buyDisabled then t.getLamportsInput d.originSwap.outputTokenMint else none

/-- The order that belongs to two amounts, and what it copies. -/
def pairedOrder (cfg : CopyConfig) (d : CopyDetails) :
    Option ℕ → Option ℕ → Option (SwapInput × CopyType)
  | some amount, some _ =>
    some (exactInOrder cfg d.originSwap.inputTokenMint d.originSwap.outputTokenMint amount, .both)
  | some amount, none => some (exactInOrder cfg d.originSwap.inputTokenMint SOL amount, .sell)
  | none, some lamports =>
    some (exactInOrder cfg SOL d.originSwap.outputTokenMint lamports, .buy)
  | none, none => none

/-- `process_ping` returns the paired order, and the details name what it copies; it returns no
order only when none is paired. -/
structure ReturnsPairedOrder (cfg : CopyConfig) (env : ExecEnv) (s : Shared) (d : CopyDetails)
    (paired : Option (SwapInput × CopyType)) : Prop where
  returned : ∀ p ∈ paired, (processPing cfg env s d).2.2 = .ok (some p.1) ∧
    (processPing cfg env s d).2.1.copyType = some p.2
  dropped : (processPing cfg env s d).2.2 = .ok none → paired = none

instance (cfg : CopyConfig) (env : ExecEnv) (s : Shared) (d : CopyDetails)
    (paired : Option (SwapInput × CopyType)) :
    Decidable (ReturnsPairedOrder cfg env s d paired) :=
  decidable_of_iff
    ((∀ p ∈ paired, (processPing cfg env s d).2.2 = .ok (some p.1) ∧
        (processPing cfg env s d).2.1.copyType = some p.2) ∧
      ((processPing cfg env s d).2.2 = .ok none → paired = none))
    ⟨fun h => ⟨h.1, h.2⟩, fun h => ⟨h.returned, h.dropped⟩⟩

/-- The balances that agree with what is known of the origin wallet's; any does when it is
missing. -/
def CopyDetails.Agrees (d : CopyDetails) (balance : Balance) : Prop :=
  ∀ known ∈ d.originInputMintBalance, balance = known

/-- Once the swap is entered and the balance known, the order depends on the two amounts only;
every order takes the lamports. -/
theorem processPing_entered (cfg : CopyConfig) {env : ExecEnv} {s : Shared} {d : CopyDetails}
    {t t' : PingTracker} {pinged : Bool} {balance : Balance} (ht : s.pingTracker = some t)
    (hinsert : t.insertSwap cfg.rounding d.originSigner d.originSignature d.originSwap
      env.priceFeed = (t', .ok pinged))
    (hbalance : d.originInputMintBalance = some balance) :
    let tokenInput := pingTokenInput cfg.rounding t' d balance
    let lamportsInput := pingLamportsInput t' pinged (buysDisabled env s) d
    let paired := pairedOrder cfg d tokenInput lamportsInput
    (processPing cfg env s d).2.2 =
        .ok (lamportsInput.bind fun lamports =>
          paired.map fun p => { p.1 with amount := lamports }) ∧
      ∀ order copyType, paired = some (order, copyType) →
        (processPing cfg env s d).2.1.copyType = some copyType := by
  have hdisabled : buysDisabled env { s with pingTracker := some t' } = buysDisabled env s := rfl
  simp only [processPing, ht, hinsert, hbalance, hdisabled, pingTokenInput, pingLamportsInput]
  generalize t'.getTokenInput cfg.rounding d.originSwap.inputTokenMint d.originSigner
    d.originSwap.inputAmount balance.post = tokenInput
  generalize (if (pinged && !buysDisabled env s) = true then
    t'.getLamportsInput d.originSwap.outputTokenMint else none) = lamportsInput
  cases tokenInput with
  | none =>
    cases lamportsInput with
    | none => exact ⟨rfl, fun _ _ h => by cases h⟩
    | some lamports => exact ⟨rfl, fun _ _ h => by cases h; rfl⟩
  | some amount =>
    cases lamportsInput with
    | none => exact ⟨rfl, fun _ _ h => by cases h; rfl⟩
    | some lamports => exact ⟨rfl, fun _ _ h => by cases h; rfl⟩

/-- Without the balance of the origin wallet nothing is returned, whatever the swap could copy. -/
theorem processPing_unbalanced (cfg : CopyConfig) {env : ExecEnv} {s : Shared} {d : CopyDetails}
    {t t' : PingTracker} {pinged : Bool} (ht : s.pingTracker = some t)
    (hinsert : t.insertSwap cfg.rounding d.originSigner d.originSignature d.originSwap
      env.priceFeed = (t', .ok pinged))
    (hbalance : d.originInputMintBalance = none) :
    (processPing cfg env s d).2.2 = .error (.nullInputBalance d.originSwap.inputTokenMint) := by
  simp only [processPing, ht, hinsert, hbalance]

/-- Two amounts are paired with an order unless neither of them is there. -/
theorem pairedOrder_eq_none_iff (cfg : CopyConfig) (d : CopyDetails)
    (tokenInput lamportsInput : Option ℕ) :
    pairedOrder cfg d tokenInput lamportsInput = none ↔
      tokenInput = none ∧ lamportsInput = none := by
  cases tokenInput <;> cases lamportsInput <;> simp [pairedOrder]

/-- With the balance known, the order is returned as it is paired exactly when there are no tokens
to sell, or as many of them as there are lamports to spend. -/
theorem processPing_returns_balanced {cfg : CopyConfig} {env : ExecEnv} {s : Shared}
    {d : CopyDetails} {t t' : PingTracker} {pinged : Bool} {balance : Balance}
    (ht : s.pingTracker = some t)
    (hinsert : t.insertSwap cfg.rounding d.originSigner d.originSignature d.originSwap
      env.priceFeed = (t', .ok pinged))
    (hbalance : d.originInputMintBalance = some balance) :
    ReturnsPairedOrder cfg env s d (pairedOrder cfg d (pingTokenInput cfg.rounding t' d balance)
        (pingLamportsInput t' pinged (buysDisabled env s) d)) ↔
      pingTokenInput cfg.rounding t' d balance = none ∨
        pingLamportsInput t' pinged (buysDisabled env s) d =
          pingTokenInput cfg.rounding t' d balance := by
  obtain ⟨hresult, hcopy⟩ := processPing_entered cfg ht hinsert hbalance
  generalize pingTokenInput cfg.rounding t' d balance = tokenInput at hresult hcopy ⊢
  generalize pingLamportsInput t' pinged (buysDisabled env s) d = lamportsInput at hresult hcopy ⊢
  have hreturned : ∀ p ∈ pairedOrder cfg d tokenInput lamportsInput,
      (processPing cfg env s d).2.1.copyType = some p.2 := fun p hp => hcopy p.1 p.2 hp
  cases tokenInput with
  | none =>
    refine iff_of_true ⟨fun p hp => ⟨?_, hreturned p hp⟩, fun hnone => ?_⟩ (.inl rfl)
    · rw [hresult, hp]
      cases lamportsInput with
      | none => cases hp
      | some lamports =>
        cases hp
        rfl
    · rw [hresult] at hnone
      cases lamportsInput with
      | none => rfl
      | some lamports => cases hnone
  | some amount =>
    cases lamportsInput with
    | none =>
      refine iff_of_false (fun h => ?_) (by rintro (h | h) <;> cases h)
      cases h.dropped hresult
    | some lamports =>
      constructor
      · intro h
        have horder := (h.returned _ rfl).1
        rw [hresult] at horder
        have hamount := congrArg SwapInput.amount (Option.some.inj (Except.ok.inj horder))
        exact .inr (congrArg some hamount)
      · rintro (h | h)
        · cases h
        · cases h
          exact ⟨fun p hp => ⟨by rw [hresult, hp]; cases hp; rfl, hreturned p hp⟩,
            fun hnone => by rw [hresult] at hnone; cases hnone⟩

/-- The paired order is returned, whatever balance could be meant, exactly when the wallet has no
share to sell and either its balance is known or nothing is to be bought, or when a buy applies as
well and spends as many lamports as the known balance gives tokens to sell. -/
theorem processPing_returns_iff {cfg : CopyConfig} {env : ExecEnv} {s : Shared} {d : CopyDetails}
    {t t' : PingTracker} {pinged : Bool} (ht : s.pingTracker = some t)
    (hinsert : t.insertSwap cfg.rounding d.originSigner d.originSignature d.originSwap
      env.priceFeed = (t', .ok pinged)) :
    (∀ balance, d.Agrees balance →
        ReturnsPairedOrder cfg env s d (pairedOrder cfg d (pingTokenInput cfg.rounding t' d balance)
          (pingLamportsInput t' pinged (buysDisabled env s) d))) ↔
      (t'.hasShare d.originSigner d.originSwap.inputTokenMint = false ∧
        (d.originInputMintBalance = none →
          pingLamportsInput t' pinged (buysDisabled env s) d = none)) ∨
      ∃ balance, d.originInputMintBalance = some balance ∧
        pingLamportsInput t' pinged (buysDisabled env s) d =
          pingTokenInput cfg.rounding t' d balance := by
  have hshare : ∀ balance, pingTokenInput cfg.rounding t' d balance = none ↔
      t'.hasShare d.originSigner d.originSwap.inputTokenMint = false := by
    intro balance
    rw [← t'.getTokenInput_isSome cfg.rounding _ _ d.originSwap.inputAmount balance.post,
      pingTokenInput, Option.isSome_eq_false_iff, Option.isNone_iff_eq_none]
  cases hbalance : d.originInputMintBalance with
  | some known =>
    simp only [CopyDetails.Agrees, hbalance, Option.mem_some_iff, forall_eq', forall_eq,
      processPing_returns_balanced ht hinsert hbalance, hshare, reduceCtorEq, false_imp_iff,
      and_true, Option.some.injEq, exists_eq_left']
  | none =>
    have herror := processPing_unbalanced cfg ht hinsert hbalance
    have hiff : ∀ paired, ReturnsPairedOrder cfg env s d paired ↔ paired = none := by
      intro paired
      constructor
      · intro h
        by_contra hsome
        obtain ⟨p, hp⟩ := Option.ne_none_iff_exists'.mp hsome
        have horder := (h.returned p hp).1
        rw [herror] at horder
        cases horder
      · rintro rfl
        exact ⟨nofun, fun _ => rfl⟩
    simp only [CopyDetails.Agrees, hbalance, Option.not_mem_none, false_imp_iff, implies_true,
      true_imp_iff, hiff, pairedOrder_eq_none_iff, hshare, reduceCtorEq, false_and, exists_false,
      or_false]
    exact ⟨fun h => h ⟨0, 0⟩, fun h _ => h⟩

/-! ## Sells that are dropped or confused -/

/-- The sample wallet counts for the sample token, of which a hundred were bought with it. -/
def sharedTracker : PingTracker where
  pings := Function.update (fun _ => none) sampleToken (some ⟨{sampleWallet}, 1, 50⟩)
  walletHistory := fun _ => none
  execution := Function.update (fun _ => none) sampleToken (some { buyVolumeToken := 100 })
  tiers := [(1, 7), (2, 9)]

/-- The service in the ping mode. -/
def pingState (t : PingTracker) : Shared := ⟨fun _ => none, some t, false⟩

/-- A feed that gives every token the same price. -/
def pingEnv : ExecEnv where
  mintInfo := none
  priceFeed := fun _ => some (.fin 1)
  walletBuysDisabled := false

/-- A swap of the sample wallet, which has nothing left of its input token. -/
def pingDetails (inputMint outputMint : Pubkey) : CopyDetails :=
  (sampleTrade .ping inputMint outputMint 1000 1000).details sampleConfig

/-- The tracker and the answer once a swap is entered. -/
def pingEntered (d : CopyDetails) : PingTracker × Except PingTracker.InsertSwapError Bool :=
  sharedTracker.insertSwap sampleConfig.rounding sampleWallet 0 d.originSwap pingEnv.priceFeed

/-- A sell of a hundred tokens for SOL gives no order, and in one for another token, whose buy
may cost seven lamports, seven is the number of tokens to sell. -/
theorem processPing_confuses_sell :
    let sell := pingDetails sampleToken SOL
    let both := pingDetails sampleToken 3
    ((pingEntered sell).2 = .ok false ∧
      pingTokenInput sampleConfig.rounding (pingEntered sell).1 sell ⟨0, 0⟩ = some 100 ∧
      (processPing sampleConfig pingEnv (pingState sharedTracker) sell).2.2 = .ok none ∧
      ¬ ReturnsPairedOrder sampleConfig pingEnv (pingState sharedTracker) sell
        (pairedOrder sampleConfig sell
          (pingTokenInput sampleConfig.rounding (pingEntered sell).1 sell ⟨0, 0⟩)
          (pingLamportsInput (pingEntered sell).1 false false sell))) ∧
    (pingEntered both).2 = .ok true ∧
      pingTokenInput sampleConfig.rounding (pingEntered both).1 both ⟨0, 0⟩ = some 100 ∧
      (processPing sampleConfig pingEnv (pingState sharedTracker) both).2.2 =
        .ok (some (exactInOrder sampleConfig sampleToken 3 7)) ∧
      ¬ ReturnsPairedOrder sampleConfig pingEnv (pingState sharedTracker) both
        (pairedOrder sampleConfig both
          (pingTokenInput sampleConfig.rounding (pingEntered both).1 both ⟨0, 0⟩)
          (pingLamportsInput (pingEntered both).1 true false both)) := by
  decide +kernel

/-- The sample wallet buys for SOL and has no share of SOL to sell. -/
theorem processPing_returns_buy :
    let d := pingDetails SOL sampleToken
    let t := PingTracker.empty [(1, 7)]
    let t' := (t.insertSwap sampleConfig.rounding sampleWallet 0 d.originSwap pingEnv.priceFeed).1
    ReturnsPairedOrder sampleConfig pingEnv (pingState t) d
      (pairedOrder sampleConfig d (pingTokenInput sampleConfig.rounding t' d ⟨0, 0⟩)
        (pingLamportsInput t' true false d)) :=
  (processPing_returns_iff rfl rfl).mpr (.inl ⟨rfl, fun h => by cases h⟩) ⟨0, 0⟩
    fun _ h => Option.some.inj h

end Biscuit.Copy
