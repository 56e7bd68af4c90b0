import Biscuit.Core.Run
import Biscuit.Models.Copy.Ping

/-!
# The maps of the ping tracker

The tracker keeps the wallets of every token in one map and the signatures of every wallet
in another one. Swaps change both maps, one of them or none, and may fail after the change;
executions change the first one. The two maps name the same wallets after every run.
-/

namespace Biscuit.Copy

/-- A call of the tracker. -/
inductive PingEvent
  /-- `insert_swap` -/
  | swap (origin : Pubkey) (signature : Signature) (swap : ResolvedSwap) (priceFeed : PriceFeed)
  /-- `insert_execution` -/
  | execution (token : Pubkey) (tokenDecimals volumeToken : ℕ) (tokenPriceUsd tokenPriceSol : F64)
      (direction : TradeDirection) (moonbagBps : Option ℕ)

namespace PingTracker

/-- The tracker before the first call. -/
def empty (tiers : List (ℕ × ℕ)) : PingTracker := ⟨fun _ => none, fun _ => none, fun _ => none, tiers⟩

/-- One call; a failed swap leaves behind what it changed, a failed execution nothing. -/
def step (r : Rounding) (t : PingTracker) : PingEvent → PingTracker
  | .swap origin signature swap priceFeed => (t.insertSwap r origin signature swap priceFeed).1
  | .execution token tokenDecimals volumeToken tokenPriceUsd tokenPriceSol direction moonbagBps =>
    match t.insertExecution r token tokenDecimals volumeToken tokenPriceUsd tokenPriceSol direction
        moonbagBps with
    | .error _ => t
    | .ok (t', _) => t'

/-- The two maps agree on who bought what. -/
structure Consistent (t : PingTracker) : Prop where
  /-- A wallet counts for a token exactly when it has a history in it. -/
  counted : ∀ wallet token, (∃ ping, t.pings token = some ping ∧ wallet ∈ ping.wallets) ↔
    (t.walletHistory (wallet, token)).isSome
  /-- A history is stored under its own wallet and token. -/
  named : ∀ wallet token history, t.walletHistory (wallet, token) = some history →
    history.wallet = wallet ∧ history.token = token
  /-- A token is entered with its first wallet. -/
  nonempty : ∀ token ping, t.pings token = some ping → ping.wallets.Nonempty
  /-- The static tokens are never entered. -/
  tracked : ∀ token ping, t.pings token = some ping → isStaticToken token = false

theorem consistent_empty (tiers : List (ℕ × ℕ)) : (empty tiers).Consistent where
  counted _ _ := by
    constructor
    · rintro ⟨ping, hp, -⟩
      cases hp
    · intro h
      cases h
  named _ _ _ h := by cases h
  nonempty _ _ h := by cases h
  tracked _ _ h := by cases h

/-! ## What a call changes -/

/-- A known sell only adds a signature to the history it finds. -/
theorem touchSell_walletHistory (t : PingTracker) (origin inputToken : Pubkey)
    (signature : Signature) (key : Pubkey × Pubkey) :
    ∃ f : WalletHistory → WalletHistory,
      (t.touchSell origin inputToken signature).walletHistory key =
        (t.walletHistory key).map f ∧
      ∀ history, (f history).wallet = history.wallet ∧ (f history).token = history.token := by
  have hsame : ∃ f : WalletHistory → WalletHistory,
      t.walletHistory key = (t.walletHistory key).map f ∧
      ∀ history, (f history).wallet = history.wallet ∧ (f history).token = history.token :=
    ⟨id, by rw [Option.map_id, id], fun _ => ⟨rfl, rfl⟩⟩
  unfold touchSell
  cases hh : t.walletHistory (origin, inputToken) with
  | none => exact hsame
  | some history =>
    by_cases hk : key = (origin, inputToken)
    · subst hk
      refine ⟨fun h => { h with signatures := insert signature h.signatures }, ?_,
        fun _ => ⟨rfl, rfl⟩⟩
      simp only [Function.update_self, hh, Option.map_some]
    · simpa only [Function.update_of_ne hk] using hsame

theorem touchSell_execution (t : PingTracker) (origin inputToken : Pubkey)
    (signature : Signature) :
    (t.touchSell origin inputToken signature).execution = t.execution := by
  rw [touchSell]
  cases t.walletHistory (origin, inputToken) with
  | none => rfl
  | some history => rfl

/-- A swap enters its buy after its sell, unless it stops before the two maps. -/
theorem insertSwap_fst (t : PingTracker) (r : Rounding) (origin : Pubkey)
    (signature : Signature) (swap : ResolvedSwap) (priceFeed : PriceFeed) :
    (t.insertSwap r origin signature swap priceFeed).1 =
        t.touchSell origin swap.inputTokenMint signature ∨
      isStaticToken swap.outputTokenMint = false ∧ ∃ lamports,
        (t.insertSwap r origin signature swap priceFeed).1 =
          ((t.touchSell origin swap.inputTokenMint signature).addPing origin
            swap.outputTokenMint signature lamports).1 := by
  unfold insertSwap
  by_cases hs : isStaticToken swap.outputTokenMint = true
  · left
    simp only [hs, if_true]
  · have hs' : isStaticToken swap.outputTokenMint = false := by simpa using hs
    simp only [hs', Bool.false_eq_true, if_false]
    cases swap.tokenDecimals with
    | none => exact .inl rfl
    | some decimals =>
      cases priceFeed SOL with
      | none => exact .inl rfl
      | some price => exact .inr ⟨trivial, _, rfl⟩

/-- A swap executes nothing. -/
theorem insertSwap_execution (t : PingTracker) (r : Rounding) (origin : Pubkey)
    (signature : Signature) (swap : ResolvedSwap) (priceFeed : PriceFeed) :
    (t.insertSwap r origin signature swap priceFeed).1.execution = t.execution := by
  rcases t.insertSwap_fst r origin signature swap priceFeed with h | ⟨-, lamports, h⟩
  · rw [h, touchSell_execution]
  · rw [h]
    exact touchSell_execution t origin swap.inputTokenMint signature

/-- The wallets of a token after one more of them was counted. -/
theorem addPing_pings (t : PingTracker) (origin token : Pubkey) (signature : Signature)
    (lamports : ℕ) :
    ∃ ping, (t.addPing origin token signature lamports).1.pings =
        Function.update t.pings token (some ping) ∧
      ∀ wallet, wallet ∈ ping.wallets ↔
        wallet = origin ∨ ∃ before, t.pings token = some before ∧ wallet ∈ before.wallets := by
  unfold addPing
  cases hp : t.pings token with
  | none =>
    refine ⟨_, rfl, fun wallet => ?_⟩
    simp only [Finset.mem_singleton, reduceCtorEq, false_and, exists_false, or_false]
  | some before =>
    refine ⟨_, rfl, fun wallet => ?_⟩
    simp only [Finset.mem_insert, Option.some.injEq, exists_eq_left']

/-- The histories after one more wallet was counted. -/
theorem addPing_walletHistory (t : PingTracker) (origin token : Pubkey) (signature : Signature)
    (lamports : ℕ) :
    ∃ history, (t.addPing origin token signature lamports).1.walletHistory =
        Function.update t.walletHistory (origin, token) (some history) ∧
      ((∀ before, t.walletHistory (origin, token) = some before →
          before.wallet = origin ∧ before.token = token) →
        history.wallet = origin ∧ history.token = token) := by
  unfold addPing
  cases t.walletHistory (origin, token) with
  | none => exact ⟨_, rfl, fun _ => ⟨rfl, rfl⟩⟩
  | some before => exact ⟨_, rfl, fun h => h before rfl⟩

/-- An execution counts for its token and leaves the wallets as they are. -/
theorem insertExecution_pings {t t' : PingTracker} {r : Rounding} {token : Pubkey}
    {tokenDecimals volumeToken : ℕ} {usd sol : F64} {direction : TradeDirection}
    {moonbagBps : Option ℕ} {volume : PingExecutionVolume}
    (h : t.insertExecution r token tokenDecimals volumeToken usd sol direction moonbagBps =
      .ok (t', volume)) :
    t'.walletHistory = t.walletHistory ∧ t'.tiers = t.tiers ∧
      t'.pings = Function.update t.pings token ((t.pings token).map fun ping =>
        { ping with executionCount := (ping.executionCount + 1) % 2 ^ 8 }) := by
  unfold insertExecution at h
  cases hd : dustAmount r volumeToken direction moonbagBps with
  | error e =>
    rw [hd] at h
    cases h
  | ok dust =>
    simp only [hd, Except.ok.injEq, Prod.mk.injEq] at h
    obtain ⟨rfl, -⟩ := h
    refine ⟨rfl, rfl, ?_⟩
    cases hp : t.pings token with
    | none => exact (Function.update_eq_self_iff.mpr hp.symm).symm
    | some ping => rfl

/-! ## Every call keeps the maps consistent -/

theorem Consistent.touchSell {t : PingTracker} (ht : t.Consistent) (origin inputToken : Pubkey)
    (signature : Signature) : (t.touchSell origin inputToken signature).Consistent where
  counted wallet token := by
    obtain ⟨f, hf, -⟩ := t.touchSell_walletHistory origin inputToken signature (wallet, token)
    rw [touchSell_pings, hf, Option.isSome_map]
    exact ht.counted wallet token
  named wallet token history h := by
    obtain ⟨f, hf, hkeep⟩ := t.touchSell_walletHistory origin inputToken signature (wallet, token)
    rw [hf, Option.map_eq_some_iff] at h
    obtain ⟨before, hb, rfl⟩ := h
    obtain ⟨hw, ht'⟩ := ht.named wallet token before hb
    exact ⟨(hkeep before).1.trans hw, (hkeep before).2.trans ht'⟩
  nonempty token ping h := by
    rw [touchSell_pings] at h
    exact ht.nonempty token ping h
  tracked token ping h := by
    rw [touchSell_pings] at h
    exact ht.tracked token ping h

theorem Consistent.addPing {t : PingTracker} (ht : t.Consistent) (origin : Pubkey)
    {token : Pubkey} (hs : isStaticToken token = false) (signature : Signature) (lamports : ℕ) :
    (t.addPing origin token signature lamports).1.Consistent := by
  obtain ⟨ping, hpings, hmem⟩ := t.addPing_pings origin token signature lamports
  obtain ⟨history, hhistory, hnamed⟩ := t.addPing_walletHistory origin token signature lamports
  constructor
  · intro wallet token'
    rw [hpings, hhistory]
    by_cases htoken : token' = token
    · subst htoken
      simp only [Function.update_self, Option.some.injEq, exists_eq_left', hmem]
      by_cases hw : wallet = origin
      · subst hw
        simp only [true_or, Function.update_self, Option.isSome_some]
      · rw [Function.update_of_ne fun h => hw (Prod.mk.inj h).1]
        simp only [hw, false_or]
        exact ht.counted wallet token'
    · rw [Function.update_of_ne htoken, Function.update_of_ne fun h => htoken (Prod.mk.inj h).2]
      exact ht.counted wallet token'
  · intro wallet token' history' h
    rw [hhistory] at h
    by_cases hk : (wallet, token') = (origin, token)
    · obtain ⟨rfl, rfl⟩ := Prod.mk.inj hk
      rw [Function.update_self, Option.some.injEq] at h
      subst h
      exact hnamed (ht.named wallet token')
    · rw [Function.update_of_ne hk] at h
      exact ht.named wallet token' history' h
  · intro token' ping' h
    rw [hpings] at h
    by_cases htoken : token' = token
    · subst htoken
      rw [Function.update_self, Option.some.injEq] at h
      subst h
      exact ⟨origin, (hmem origin).mpr (.inl rfl)⟩
    · rw [Function.update_of_ne htoken] at h
      exact ht.nonempty token' ping' h
  · intro token' ping' h
    rw [hpings] at h
    by_cases htoken : token' = token
    · rw [htoken]
      exact hs
    · rw [Function.update_of_ne htoken] at h
      exact ht.tracked token' ping' h

theorem Consistent.insertSwap {t : PingTracker} (ht : t.Consistent) (r : Rounding) (origin : Pubkey)
    (signature : Signature) (swap : ResolvedSwap) (priceFeed : PriceFeed) :
    (t.insertSwap r origin signature swap priceFeed).1.Consistent := by
  have htouch := ht.touchSell origin swap.inputTokenMint signature
  rcases t.insertSwap_fst r origin signature swap priceFeed with h | ⟨hs, lamports, h⟩
  · rw [h]
    exact htouch
  · rw [h]
    exact htouch.addPing origin hs signature lamports

/-- The wallets of a token are what they were before an execution. -/
theorem Consistent.insertExecution {t t' : PingTracker} (ht : t.Consistent) {r : Rounding}
    {token : Pubkey} {tokenDecimals volumeToken : ℕ} {usd sol : F64} {direction : TradeDirection}
    {moonbagBps : Option ℕ} {volume : PingExecutionVolume}
    (h : t.insertExecution r token tokenDecimals volumeToken usd sol direction moonbagBps =
      .ok (t', volume)) : t'.Consistent := by
  obtain ⟨hhistory, -, hpings⟩ := insertExecution_pings h
  have hback : ∀ token' ping', t'.pings token' = some ping' →
      ∃ ping, t.pings token' = some ping ∧ ping'.wallets = ping.wallets := by
    intro token' ping' hp
    rw [hpings] at hp
    by_cases htoken : token' = token
    · subst htoken
      rw [Function.update_self, Option.map_eq_some_iff] at hp
      obtain ⟨ping, hp, rfl⟩ := hp
      exact ⟨ping, hp, rfl⟩
    · rw [Function.update_of_ne htoken] at hp
      exact ⟨ping', hp, rfl⟩
  have hforth : ∀ token' ping, t.pings token' = some ping →
      ∃ ping', t'.pings token' = some ping' ∧ ping'.wallets = ping.wallets := by
    intro token' ping hp
    rw [hpings]
    by_cases htoken : token' = token
    · subst htoken
      rw [Function.update_self, hp]
      exact ⟨_, rfl, rfl⟩
    · rw [Function.update_of_ne htoken]
      exact ⟨ping, hp, rfl⟩
  constructor
  · intro wallet token'
    rw [hhistory, ← ht.counted wallet token']
    constructor
    · rintro ⟨ping', hp, hw⟩
      obtain ⟨ping, hp, he⟩ := hback token' ping' hp
      exact ⟨ping, hp, he ▸ hw⟩
    · rintro ⟨ping, hp, hw⟩
      obtain ⟨ping', hp, he⟩ := hforth token' ping hp
      exact ⟨ping', hp, he ▸ hw⟩
  · intro wallet token' history h
    rw [hhistory] at h
    exact ht.named wallet token' history h
  · intro token' ping' hp
    obtain ⟨ping, hp, he⟩ := hback token' ping' hp
    rw [he]
    exact ht.nonempty token' ping hp
  · intro token' ping' hp
    obtain ⟨ping, hp, -⟩ := hback token' ping' hp
    exact ht.tracked token' ping hp

theorem step_consistent (r : Rounding) (t : PingTracker) (e : PingEvent) (ht : t.Consistent) :
    (t.step r e).Consistent := by
  cases e with
  | swap origin signature swap priceFeed => exact ht.insertSwap r origin signature swap priceFeed
  | execution token tokenDecimals volumeToken usd sol direction moonbagBps =>
    simp only [step]
    split
    · exact ht
    · next h => exact ht.insertExecution h

/-- After every run from the empty tracker the two maps agree, and the share of a wallet is
never taken of no wallets. -/
theorem consistent_run (r : Rounding) (tiers : List (ℕ × ℕ)) (es : List PingEvent) :
    (exec (step r) (empty tiers) es).Consistent ∧
      ∀ token ping, (exec (step r) (empty tiers) es).pings token = some ping →
        0 < ping.wallets.card := by
  have h := exec_preserves (step_consistent r) es (consistent_empty tiers)
  exact ⟨h, fun token ping hp => Finset.card_pos.mpr (h.nonempty token ping hp)⟩

end PingTracker

end Biscuit.Copy
