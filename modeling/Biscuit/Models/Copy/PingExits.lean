import Biscuit.Core.Shares
import Biscuit.Models.Copy.Pings

/-!
# The exits of the wallets of a token

Each wallet that counts for a token is given an equal part of what was bought of it when it
sells. The part is taken of what is left, after other wallets may have been given theirs, and
the number of wallets does not change with them.
-/

namespace Biscuit.Copy

/-- A wallet sells all it has of a token; the sell that follows it is confirmed. -/
structure PingExit where
  wallet : Pubkey
  signature : Signature
  swap : ResolvedSwap
  priceFeed : PriceFeed
  tokenDecimals : ℕ
  tokenPriceUsd : F64
  tokenPriceSol : F64
  moonbagBps : Option ℕ

namespace PingTracker

/-- One exit: the swap is entered, and what it stands for is sold and confirmed; a sell of
nothing is not sent. -/
def exit (t : PingTracker) (e : PingExit) : PingTracker × ℕ :=
  let t := (t.insertSwap .exact e.wallet e.signature e.swap e.priceFeed).1
  match t.getTokenInput .exact e.swap.inputTokenMint e.wallet e.swap.inputAmount 0 with
  | none => (t, 0)
  | some amount =>
    if amount = 0 then (t, 0)
    else
      match t.insertExecution .exact e.swap.inputTokenMint e.tokenDecimals amount e.tokenPriceUsd
          e.tokenPriceSol .sell e.moonbagBps with
      | .error _ => (t, 0)
      | .ok (t, _) => (t, amount)

/-- Exits one after the other, and what each of them sells. -/
def exits (t : PingTracker) : List PingExit → PingTracker × List ℕ
  | [] => (t, [])
  | e :: es => (((t.exit e).1.exits es).1, (t.exit e).2 :: ((t.exit e).1.exits es).2)

/-- What is left of the executed tokens. -/
def holding (t : PingTracker) (token : Pubkey) : ℕ :=
  match t.execution token with
  | none => 0
  | some execution => execution.buyVolumeToken - execution.sellVolumeToken

/-- A sell of all tokens of a kind for others. -/
structure IsFullExit (token : Pubkey) (e : PingExit) : Prop where
  input : e.swap.inputTokenMint = token
  output : e.swap.outputTokenMint ≠ token
  positive : 0 < e.swap.inputAmount
  word : e.swap.inputAmount ≤ maxU64

/-- Every wallet of a set exits once. -/
structure IsExitOrder (token : Pubkey) (wallets : Finset Pubkey) (es : List PingExit) : Prop where
  full : ∀ e ∈ es, IsFullExit token e
  once : (es.map PingExit.wallet).Nodup
  every : ∀ wallet, wallet ∈ es.map PingExit.wallet ↔ wallet ∈ wallets

/-- A token with its wallets, what was bought of it, and what is left. -/
structure Holds (t : PingTracker) (token : Pubkey) (wallets : Finset Pubkey) (left : ℕ) : Prop where
  counted : ∃ ping, t.pings token = some ping ∧ ping.wallets = wallets
  executed : ∃ execution, t.execution token = some execution ∧
    execution.buyVolumeToken ≤ maxU64 ∧
    execution.buyVolumeToken - execution.sellVolumeToken = left

/-- Entering a swap into another token leaves the wallets of this one. -/
theorem insertSwap_pings_of_ne (t : PingTracker) (r : Rounding) (origin : Pubkey)
    (signature : Signature)
    {swap : ResolvedSwap} (priceFeed : PriceFeed) {token : Pubkey}
    (h : swap.outputTokenMint ≠ token) :
    (t.insertSwap r origin signature swap priceFeed).1.pings token = t.pings token := by
  rcases t.insertSwap_fst r origin signature swap priceFeed with hfst | ⟨-, lamports, hfst⟩
  · rw [hfst, touchSell_pings]
  · obtain ⟨ping, hpings, -⟩ := (t.touchSell origin swap.inputTokenMint signature).addPing_pings
      origin swap.outputTokenMint signature lamports
    rw [hfst, hpings, Function.update_of_ne h.symm, touchSell_pings]

/-- The share of a wallet that sells everything is its part of what is left. -/
theorem getTokenInput_full {t : PingTracker} {token wallet : Pubkey} {ping : Ping}
    {execution : TradeHistory} (hp : t.pings token = some ping) (hw : wallet ∈ ping.wallets)
    (hexec : t.execution token = some execution) (hword : execution.buyVolumeToken ≤ maxU64)
    {amount : ℕ} (hpos : 0 < amount) (hamount : amount ≤ maxU64) :
    t.getTokenInput .exact token wallet amount 0 =
      some ((execution.buyVolumeToken - execution.sellVolumeToken) / ping.wallets.card) := by
  have hwrap : wrapU64 (amount + 0) = amount := wrapU64_eq (le_maxU64_iff.mp hamount)
  simp only [getTokenInput, hp, hw, not_true_eq_false, if_false, hexec, hwrap,
    Rounding.exact_mul, Rounding.exact_div, Rounding.exact_ofNat,
    F64.toU64_trunc_ratio_mul _ hpos, Option.some.injEq]
  rw [Nat.mul_div_cancel_left _ hpos]
  refine min_eq_left ((Nat.div_le_self _ _).trans ?_)
  omega

/-- Selling a share that is left books it. -/
theorem insertExecution_sell {t : PingTracker} {r : Rounding} {token : Pubkey}
    {execution : TradeHistory} (hexec : t.execution token = some execution)
    (hword : execution.buyVolumeToken ≤ maxU64) {amount : ℕ} (hpos : amount ≠ 0)
    (hle : amount ≤ execution.buyVolumeToken - execution.sellVolumeToken) (tokenDecimals : ℕ)
    (usd sol : F64) (moonbagBps : Option ℕ) :
    ∃ t' volume execution',
      t.insertExecution r token tokenDecimals amount usd sol .sell moonbagBps = .ok (t', volume) ∧
      t'.execution token = some execution' ∧
      execution'.buyVolumeToken = execution.buyVolumeToken ∧
      execution'.sellVolumeToken = execution.sellVolumeToken + amount := by
  have hbuy := le_maxU64_iff.mp hword
  refine ⟨_, _, _, rfl, Function.update_self .., ?_, ?_⟩
  · simp only [hexec, Option.getD_some, TradeHistory.addSell]
  · have hkept : wrapSubU64 amount 0 = amount := by
      rw [wrapSubU64_of_le (Nat.zero_le _), Nat.sub_zero, wrapU64_eq (by omega)]
    simp only [hexec, Option.getD_some, TradeHistory.addSell, hkept]
    exact wrapU64_eq (by omega)

/-- An exit sells the wallet's part of what is left, and that much less is left. -/
theorem exit_spec {t : PingTracker} {token : Pubkey} {wallets : Finset Pubkey} {left : ℕ}
    (ht : t.Holds token wallets left) {e : PingExit} (he : IsFullExit token e)
    (hwallet : e.wallet ∈ wallets) :
    (t.exit e).2 = left / wallets.card ∧
      (t.exit e).1.Holds token wallets (left - left / wallets.card) := by
  obtain ⟨⟨ping, hp, rfl⟩, execution, hexec, hword, rfl⟩ := ht
  obtain ⟨hinput, houtput, hpos, hamount⟩ := he
  have hp' := (t.insertSwap_pings_of_ne .exact e.wallet e.signature e.priceFeed houtput).trans hp
  have hexec' : (t.insertSwap .exact e.wallet e.signature e.swap e.priceFeed).1.execution token =
      some execution := by rw [insertSwap_execution, hexec]
  have hshare := getTokenInput_full hp' hwallet hexec' hword hpos hamount
  simp only [exit, hinput, hshare]
  generalize (t.insertSwap .exact e.wallet e.signature e.swap e.priceFeed).1 = t₁ at hp' hexec'
  have hle := Nat.div_le_self (execution.buyVolumeToken - execution.sellVolumeToken)
    ping.wallets.card
  generalize (execution.buyVolumeToken - execution.sellVolumeToken) / ping.wallets.card = amount
    at hle
  by_cases hzero : amount = 0
  · rw [if_pos hzero, hzero]
    exact ⟨rfl, ⟨ping, hp', rfl⟩, execution, hexec', hword, rfl⟩
  · obtain ⟨t', volume, execution', hok, hsold, hbuy, hsell⟩ := insertExecution_sell hexec' hword
      hzero hle e.tokenDecimals e.tokenPriceUsd e.tokenPriceSol e.moonbagBps
    obtain ⟨-, -, hpings⟩ := insertExecution_pings hok
    rw [if_neg hzero, hok]
    refine ⟨rfl, ?_, execution', hsold, hbuy ▸ hword, ?_⟩
    · refine ⟨{ ping with executionCount := (ping.executionCount + 1) % 2 ^ 8 }, ?_, rfl⟩
      rw [hpings, Function.update_self, hp']
      rfl
    · omega

/-- The exits of some of the wallets sell the shares of what is left. -/
theorem exits_spec {t : PingTracker} {token : Pubkey} {wallets : Finset Pubkey} {left : ℕ}
    (ht : t.Holds token wallets left) {es : List PingExit}
    (hes : ∀ e ∈ es, IsFullExit token e ∧ e.wallet ∈ wallets) :
    (t.exits es).2 = sharesOf wallets.card es.length left ∧
      (t.exits es).1.Holds token wallets (leftAfter wallets.card es.length left) := by
  induction es generalizing t left with
  | nil => exact ⟨rfl, ht⟩
  | cons e es ih =>
    obtain ⟨he, hes⟩ := List.forall_mem_cons.mp hes
    obtain ⟨hamount, hnext⟩ := exit_spec ht he.1 he.2
    obtain ⟨hrest, hleft⟩ := ih hnext hes
    refine ⟨?_, hleft⟩
    rw [exits, hamount, hrest]
    rfl

/-- In every order the wallets are treated alike: any two exits, of one order or of two, sell the
same amount up to one unit, and less than one unit for each wallet is left. -/
structure TreatsEqually (t : PingTracker) (token : Pubkey) (wallets : Finset Pubkey) : Prop where
  amounts : ∀ es fs, IsExitOrder token wallets es → IsExitOrder token wallets fs →
    ∀ a ∈ (t.exits es).2, ∀ b ∈ (t.exits fs).2, a ≤ b + 1
  left : ∀ es, IsExitOrder token wallets es → (t.exits es).1.holding token < wallets.card

theorem Holds.holding_eq {t : PingTracker} {token : Pubkey} {wallets : Finset Pubkey} {left : ℕ}
    (ht : t.Holds token wallets left) : t.holding token = left := by
  obtain ⟨-, execution, hexec, -, rfl⟩ := ht
  rw [holding, hexec]

theorem IsExitOrder.length_eq {token : Pubkey} {wallets : Finset Pubkey} {es : List PingExit}
    (h : IsExitOrder token wallets es) : es.length = wallets.card := by
  have hset : (es.map PingExit.wallet).toFinset = wallets := by
    ext wallet
    rw [List.mem_toFinset]
    exact h.every wallet
  rw [← hset, List.toFinset_card_of_nodup h.once, List.length_map]

/-- The wallets can leave in some order. -/
theorem exists_exitOrder (token : Pubkey) (wallets : Finset Pubkey) :
    ∃ es, IsExitOrder token wallets es := by
  obtain ⟨other, hother⟩ : ∃ other : Pubkey, other ≠ token := by
    by_cases h : token = SOL
    · exact ⟨USDC, h ▸ by decide⟩
    · exact ⟨SOL, Ne.symm h⟩
  refine ⟨wallets.toList.map fun wallet => ⟨wallet, 0, ⟨1, 0, token, other, none⟩, fun _ => none,
    0, .fin 0, .fin 0, none⟩, ?_, ?_, ?_⟩
  · intro e he
    obtain ⟨wallet, -, rfl⟩ := List.mem_map.mp he
    have hword : 1 ≤ maxU64 := by decide
    exact ⟨rfl, hother, Nat.one_pos, hword⟩
  · simpa only [List.map_map, Function.comp_def, List.map_id'] using wallets.nodup_toList
  · intro wallet
    simp only [List.map_map, Function.comp_def, List.map_id', Finset.mem_toList]

/-- The wallets are treated alike exactly when there is one of them, or two units for each of
them at most. -/
theorem treatsEqually_iff {t : PingTracker} {token : Pubkey} {wallets : Finset Pubkey} {left : ℕ}
    (ht : t.Holds token wallets left) (hne : wallets.Nonempty) :
    t.TreatsEqually token wallets ↔ wallets.card = 1 ∨ left ≤ 2 * wallets.card := by
  have hpos : 0 < wallets.card := Finset.card_pos.mpr hne
  have hspec : ∀ es, IsExitOrder token wallets es →
      (t.exits es).2 = sharesOf wallets.card wallets.card left ∧
        (t.exits es).1.holding token = leftAfter wallets.card wallets.card left := by
    intro es hes
    have hfull : ∀ e ∈ es, IsFullExit token e ∧ e.wallet ∈ wallets := fun e he =>
      ⟨hes.full e he, (hes.every e.wallet).mp (List.mem_map_of_mem he)⟩
    obtain ⟨hamounts, hleft⟩ := exits_spec ht hfull
    rw [hes.length_eq] at hamounts hleft
    exact ⟨hamounts, hleft.holding_eq⟩
  constructor
  · intro h
    obtain ⟨es, hes⟩ := exists_exitOrder token wallets
    have hleft := h.left es hes
    rw [(hspec es hes).2] at hleft
    exact (leftAfter_lt_iff hpos left).mp hleft
  · intro h
    constructor
    · intro es fs hes hfs
      rw [(hspec es hes).1, (hspec fs hfs).1]
      exact sharesOf_close hpos h
    · intro es hes
      rw [(hspec es hes).2]
      exact (leftAfter_lt_iff hpos left).mpr h

/-- A tracker with two wallets in the sample token, of which some were bought. -/
def twoWallets (bought : ℕ) : PingTracker :=
  { empty [(1, 7)] with
    pings := Function.update (fun _ => none) sampleToken (some ⟨{1, 4}, 1, 50⟩)
    execution := Function.update (fun _ => none) sampleToken (some { buyVolumeToken := bought }) }

/-- A wallet sells a thousand sample tokens, all it has, for SOL. -/
def sampleExit (wallet : Pubkey) : PingExit where
  wallet := wallet
  signature := 0
  swap := ⟨1000, 1, sampleToken, SOL, some ⟨6, 9⟩⟩
  priceFeed := fun _ => none
  tokenDecimals := 6
  tokenPriceUsd := .fin 0
  tokenPriceSol := .fin 0
  moonbagBps := none

theorem isExitOrder_sample :
    IsExitOrder sampleToken {1, 4} [sampleExit 1, sampleExit 4] where
  full e he := by
    simp only [List.mem_cons, List.not_mem_nil, or_false] at he
    rcases he with rfl | rfl <;> exact ⟨rfl, by decide, by decide, by decide⟩
  once := by decide
  every wallet := by
    simp only [List.map_cons, List.map_nil, sampleExit, List.mem_cons, List.not_mem_nil, or_false,
      Finset.mem_insert, Finset.mem_singleton]

/-- Of a hundred tokens the first wallet to leave gets fifty and the second one half of the rest;
a quarter is left. -/
theorem exits_two_wallets :
    ((twoWallets 100).exits [sampleExit 1, sampleExit 4]).2 = [50, 25] ∧
      ((twoWallets 100).exits [sampleExit 1, sampleExit 4]).1.holding sampleToken = 25 ∧
      ¬ (twoWallets 100).TreatsEqually sampleToken {1, 4} := by
  have hsold : ((twoWallets 100).exits [sampleExit 1, sampleExit 4]).2 = [50, 25] := by
    decide +kernel
  have hleft :
      ((twoWallets 100).exits [sampleExit 1, sampleExit 4]).1.holding sampleToken = 25 := by
    decide +kernel
  refine ⟨hsold, hleft, fun h => ?_⟩
  have hfew := h.left _ isExitOrder_sample
  rw [hleft] at hfew
  exact absurd hfew (by decide)

/-- Four tokens are divided among two wallets. -/
theorem treatsEqually_four :
    (twoWallets 4).TreatsEqually sampleToken {1, 4} ↔
      ({1, 4} : Finset Pubkey).card = 1 ∨ 4 ≤ 2 * ({1, 4} : Finset Pubkey).card :=
  treatsEqually_iff
    ⟨⟨⟨{1, 4}, 1, 50⟩, rfl, rfl⟩, { buyVolumeToken := 4 }, rfl, by decide, rfl⟩ ⟨1, by decide⟩

end PingTracker

end Biscuit.Copy
