import Biscuit.Models.Copy.PingOrders

/-!
# Failing pings

`process_ping` enters a swap into the tracker before it knows that it can go on. A sell has its
signature added before the decimals and the SOL price of the buy are looked up, and the buy has
used up the one ping of the wallet when the balance of the origin wallet turns out to be missing.
A failing call leaves the tracker as it was exactly when the entry had nothing to add.
-/

namespace Biscuit.Copy

namespace PingTracker

/-- A sell of the token has no signature to add. -/
def SellKnown (t : PingTracker) (origin token : Pubkey) (signature : Signature) : Prop :=
  ∀ history, t.walletHistory (origin, token) = some history → signature ∈ history.signatures

/-- A buy of the token has nothing to add: the wallet counts already, by this very signature, and
the cost does not change the total. -/
structure BuyKnown (t : PingTracker) (origin token : Pubkey) (signature : Signature)
    (lamports : ℕ) : Prop where
  pings : ∃ ping, t.pings token = some ping ∧ origin ∈ ping.wallets ∧
    wrapU64 (ping.totalLamportsCost + lamports) = ping.totalLamportsCost
  signed : ∃ history, t.walletHistory (origin, token) = some history ∧
    signature ∈ history.signatures

/-- After a sell its signature is known. -/
theorem touchSell_signed {t : PingTracker} {origin token : Pubkey} {signature : Signature}
    {history : WalletHistory}
    (h : (t.touchSell origin token signature).walletHistory (origin, token) = some history) :
    signature ∈ history.signatures := by
  unfold touchSell at h
  cases hh : t.walletHistory (origin, token) with
  | none => simp only [hh, reduceCtorEq] at h
  | some before =>
    simp only [hh, Function.update_self, Option.some.injEq] at h
    rw [← h]
    exact Finset.mem_insert_self _ _

theorem touchSell_eq_iff (t : PingTracker) (origin token : Pubkey) (signature : Signature) :
    t.touchSell origin token signature = t ↔ t.SellKnown origin token signature := by
  constructor
  · intro he history hh
    rw [← he] at hh
    exact touchSell_signed hh
  · intro hknown
    unfold touchSell
    cases hh : t.walletHistory (origin, token) with
    | none => rfl
    | some history =>
      simp only [Finset.insert_eq_of_mem (hknown history hh), ← hh, Function.update_eq_self]

/-- After a buy its signature is known. -/
theorem addPing_signed (t : PingTracker) (origin token : Pubkey) (signature : Signature)
    (lamports : ℕ) :
    ∃ history, (t.addPing origin token signature lamports).1.walletHistory (origin, token) =
      some history ∧ signature ∈ history.signatures := by
  unfold addPing
  cases t.walletHistory (origin, token) with
  | none => exact ⟨_, Function.update_self .., Finset.mem_singleton_self _⟩
  | some history => exact ⟨_, Function.update_self .., Finset.mem_insert_self _ _⟩

/-- A buy changes the history of its own token only. -/
theorem addPing_walletHistory_of_ne {t : PingTracker} {origin token : Pubkey}
    {key : Pubkey × Pubkey} (hkey : key ≠ (origin, token)) (signature : Signature)
    (lamports : ℕ) :
    (t.addPing origin token signature lamports).1.walletHistory key = t.walletHistory key := by
  unfold addPing
  exact Function.update_of_ne hkey ..

theorem addPing_eq_iff (t : PingTracker) (origin token : Pubkey) (signature : Signature)
    (lamports : ℕ) :
    (t.addPing origin token signature lamports).1 = t ↔
      t.BuyKnown origin token signature lamports := by
  constructor
  · intro he
    refine ⟨?_, ?_⟩
    · have hpings := congrFun (congrArg PingTracker.pings he) token
      unfold addPing at hpings
      cases hp : t.pings token with
      | none => simp only [hp, Function.update_self, reduceCtorEq] at hpings
      | some ping =>
        simp only [hp, Function.update_self, Option.some.injEq] at hpings
        have hwallets : insert origin ping.wallets = ping.wallets := congrArg Ping.wallets hpings
        have hcost := congrArg Ping.totalLamportsCost hpings
        exact ⟨ping, rfl, Finset.insert_eq_self.mp hwallets, hcost⟩
    · rw [← he]
      simpa only [he] using t.addPing_signed origin token signature lamports
  · rintro ⟨⟨ping, hp, hw, hcost⟩, history, hh, hs⟩
    unfold addPing
    simp only [hp, hh, Finset.insert_eq_of_mem hw, Finset.insert_eq_of_mem hs, hcost]
    simp only [← hp, ← hh, Function.update_eq_self]

/-- A swap with both sides adds nothing when neither side does. -/
theorem addPing_touchSell_eq_iff (t : PingTracker) (origin sold bought : Pubkey)
    (signature : Signature) (lamports : ℕ) :
    ((t.touchSell origin sold signature).addPing origin bought signature lamports).1 = t ↔
      t.SellKnown origin sold signature ∧ t.BuyKnown origin bought signature lamports := by
  constructor
  · intro he
    have hsell : t.SellKnown origin sold signature := by
      intro history hh
      rw [← he] at hh
      by_cases hkey : (origin, sold) = (origin, bought)
      · obtain ⟨history', hh', hs⟩ :=
          (t.touchSell origin sold signature).addPing_signed origin bought signature lamports
        rw [hkey, hh', Option.some.injEq] at hh
        exact hh ▸ hs
      · rw [addPing_walletHistory_of_ne hkey] at hh
        exact touchSell_signed hh
    rw [(t.touchSell_eq_iff origin sold signature).mpr hsell] at he
    exact ⟨hsell, (t.addPing_eq_iff origin bought signature lamports).mp he⟩
  · rintro ⟨hsell, hbuy⟩
    rw [(t.touchSell_eq_iff origin sold signature).mpr hsell]
    exact (t.addPing_eq_iff origin bought signature lamports).mpr hbuy

end PingTracker

/-! ## Which failing calls change nothing -/

/-- Entering a swap of the wallet with the signature is answered alike by both trackers, so one
that would count as new for the first does so for the second. -/
def AnswersAlike (d : CopyDetails) (t t' : PingTracker) : Prop :=
  ∀ r swap priceFeed, (t'.insertSwap r d.originSigner d.originSignature swap priceFeed).2 =
    (t.insertSwap r d.originSigner d.originSignature swap priceFeed).2

/-- A failing call leaves the tracker as it was, and the swap can be processed again. -/
def PingErrorAtomic (cfg : CopyConfig) (env : ExecEnv) (s : Shared) (d : CopyDetails) : Prop :=
  ∀ e, (processPing cfg env s d).2.2 = .error e →
    (processPing cfg env s d).1.pingTracker = s.pingTracker ∧
      ∀ t t', s.pingTracker = some t → (processPing cfg env s d).1.pingTracker = some t' →
        AnswersAlike d t t'

/-- What the tracker must know of the swap already. A token that is not tracked is only sold; of
one that is, the buy is entered when its decimals and the price of SOL are known, and then only
a missing balance can fail. -/
def KnownBeforeError (r : Rounding) (env : ExecEnv) (t : PingTracker) (d : CopyDetails) : Prop :=
  let swap := d.originSwap
  let sellKnown := t.SellKnown d.originSigner swap.inputTokenMint d.originSignature
  if isStaticToken swap.outputTokenMint then d.originInputMintBalance = none → sellKnown
  else
    match swap.tokenDecimals, env.priceFeed SOL with
    | some decimals, some solPriceUsd =>
      d.originInputMintBalance = none → sellKnown ∧
        t.BuyKnown d.originSigner swap.outputTokenMint d.originSignature
          (PingTracker.swapLamports r env.priceFeed solPriceUsd swap decimals.input)
    | _, _ => sellKnown

/-- A call fails when the entry does, or when the balance is missing. -/
theorem processPing_fails_iff (cfg : CopyConfig) {env : ExecEnv} {s : Shared} {d : CopyDetails}
    {t : PingTracker} (ht : s.pingTracker = some t) :
    (∃ e, (processPing cfg env s d).2.2 = .error e) ↔
      (∃ e, (t.insertSwap cfg.rounding d.originSigner d.originSignature d.originSwap
        env.priceFeed).2 = .error e) ∨ d.originInputMintBalance = none := by
  cases hinsert : t.insertSwap cfg.rounding d.originSigner d.originSignature d.originSwap
      env.priceFeed with
  | mk t' inserted =>
    cases inserted with
    | error e =>
      refine iff_of_true ?_ (.inl ⟨e, rfl⟩)
      cases e <;> simp only [processPing, ht, hinsert, Except.error.injEq, exists_eq']
    | ok pinged =>
      cases hbalance : d.originInputMintBalance with
      | none =>
        refine iff_of_true ?_ (.inr rfl)
        simp only [processPing, ht, hinsert, hbalance, Except.error.injEq, exists_eq']
      | some balance =>
        obtain ⟨hresult, -⟩ := processPing_entered cfg ht hinsert hbalance
        simp only [hresult, reduceCtorEq, exists_false, or_self]

/-- The entry changes nothing when a call fails, in each of the ways it can fail. -/
theorem insertSwap_keeps_iff (r : Rounding) (env : ExecEnv) (t : PingTracker) (d : CopyDetails) :
    ((∃ e, (t.insertSwap r d.originSigner d.originSignature d.originSwap env.priceFeed).2 =
        .error e) ∨ d.originInputMintBalance = none →
      (t.insertSwap r d.originSigner d.originSignature d.originSwap env.priceFeed).1 = t) ↔
      KnownBeforeError r env t d := by
  have hsell := t.touchSell_eq_iff d.originSigner d.originSwap.inputTokenMint d.originSignature
  unfold PingTracker.insertSwap KnownBeforeError
  by_cases hs : isStaticToken d.originSwap.outputTokenMint = true
  · simp only [hs, if_true, hsell, reduceCtorEq, exists_false, false_or]
  · simp only [hs, Bool.false_eq_true, if_false]
    cases d.originSwap.tokenDecimals with
    | none => simp only [hsell, Except.error.injEq, exists_eq', true_or, true_imp_iff]
    | some decimals =>
      cases env.priceFeed SOL with
      | none => simp only [hsell, Except.error.injEq, exists_eq', true_or, true_imp_iff]
      | some solPriceUsd =>
        simp only [PingTracker.addPing_touchSell_eq_iff, reduceCtorEq, exists_false, false_or]

theorem pingErrorAtomic_iff (cfg : CopyConfig) (env : ExecEnv) (s : Shared) (d : CopyDetails) :
    PingErrorAtomic cfg env s d ↔
      ∀ t, s.pingTracker = some t → KnownBeforeError cfg.rounding env t d := by
  cases ht : s.pingTracker with
  | none =>
    refine iff_of_true (fun e _ => ⟨?_, fun t t' h => by cases ht.symm.trans h⟩)
      (fun _ h => by cases h)
    rw [processPing, ht, ht]
  | some t =>
    simp only [Option.some.injEq, forall_eq', ← insertSwap_keeps_iff,
      ← processPing_fails_iff cfg ht]
    constructor
    · rintro hatomic ⟨e, he⟩
      have hkeep := (hatomic e he).1
      rw [processPing_pingTracker ht, ht, Option.some.injEq] at hkeep
      exact hkeep
    · intro hkeep e he
      have hafter : (processPing cfg env s d).1.pingTracker = some t := by
        rw [processPing_pingTracker ht, hkeep ⟨e, he⟩]
      refine ⟨hafter.trans ht.symm, fun t₁ t₂ h₁ h₂ r swap priceFeed => ?_⟩
      obtain rfl := Option.some.inj (ht.symm.trans h₁)
      obtain rfl := Option.some.inj (hafter.symm.trans h₂)
      rfl

/-- A buy of the sample wallet whose input balance is not known. -/
def unbalancedDetails : CopyDetails :=
  { pingDetails SOL sampleToken with originInputMintBalance := none }

/-- A new wallet buys a token, the missing balance fails the call, and when the swap is processed
again the wallet is not new any more. -/
theorem not_pingErrorAtomic_unbalanced :
    let t := PingTracker.empty [(1, 7)]
    let entered := t.insertSwap sampleConfig.rounding sampleWallet 0
      unbalancedDetails.originSwap pingEnv.priceFeed
    (processPing sampleConfig pingEnv (pingState t) unbalancedDetails).2.2 =
        .error (.nullInputBalance SOL) ∧
      entered.2 = .ok true ∧
      (entered.1.insertSwap sampleConfig.rounding sampleWallet 0 unbalancedDetails.originSwap
        pingEnv.priceFeed).2 = .ok false ∧
      ¬ PingErrorAtomic sampleConfig pingEnv (pingState t) unbalancedDetails := by
  refine ⟨by decide +kernel, by decide +kernel, by decide +kernel, fun h => ?_⟩
  have hkeep := (h (.nullInputBalance SOL) (by decide +kernel)).1
  have hping := congrArg (fun tracker => tracker.bind fun t => t.pings sampleToken) hkeep
  revert hping
  decide +kernel

end Biscuit.Copy
