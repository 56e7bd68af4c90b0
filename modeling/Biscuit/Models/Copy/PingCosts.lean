import Mathlib.Algebra.BigOperators.Group.List.Basic
import Biscuit.Models.Copy.Pings

/-!
# What the copied wallets have spent

The tracker adds up what the swaps into a token cost in lamports, and this total caps the
buys of the token. A swap should cost what its input amount is worth at the price of its input
mint; the code takes the price of the bought token for it, and a power of ten that wraps.
-/

namespace Biscuit.Copy

/-- The price of a mint, where it is a number. -/
def PriceFeed.rational (feed : PriceFeed) (mint : Pubkey) : Option ℚ :=
  match feed mint with
  | some (.fin q) => some q
  | _ => none

/-- A feed of exact prices, in which SOL is not worthless. -/
structure PriceFeed.Exact (feed : PriceFeed) : Prop where
  nonneg : ∀ mint price, feed mint = some price → ∃ q : ℚ, 0 ≤ q ∧ price = .fin q
  sol : feed SOL ≠ some (.fin 0)

/-- What an amount is worth in lamports before it is rounded down; `unit` of it make one token. -/
def exactWorth (solPriceUsd priceUsd : ℚ) (unit amount : ℕ) : ℚ :=
  (amount : ℚ) / unit * priceUsd / solPriceUsd * lamportsPerSol

/-- What an amount is worth in whole lamports. -/
def worth (solPriceUsd priceUsd : ℚ) (unit amount : ℕ) : ℕ :=
  ⌊exactWorth solPriceUsd priceUsd unit amount⌋₊

/-- The price of the input mint; a stable coin is worth one dollar. -/
def inputPrice (feed : PriceFeed) (solPriceUsd : ℚ) (mint : Pubkey) : ℚ :=
  if mint = SOL then solPriceUsd
  else if mint = USDC ∨ mint = USDT then 1
  else (feed.rational mint).getD 0

/-- The price that the code takes for it. -/
def takenPrice (feed : PriceFeed) (solPriceUsd : ℚ) (swap : ResolvedSwap) : ℚ :=
  if swap.inputTokenMint = SOL then solPriceUsd
  else if swap.inputTokenMint = USDC ∨ swap.inputTokenMint = USDT then 1
  else (feed.rational swap.outputTokenMint).getD 0

/-- What a word keeps of the worth, with the power of ten that a 32-bit word keeps; nothing is
left of the power from 32 decimals on. -/
def wordWorth (solPriceUsd priceUsd : ℚ) (decimals amount : ℕ) : ℕ :=
  if 10 ^ decimals % 2 ^ 32 = 0 then
    if (amount : ℚ) * (priceUsd / solPriceUsd) = 0 then 0 else maxU64
  else min (worth solPriceUsd priceUsd (10 ^ decimals % 2 ^ 32) amount) maxU64

/-! ## The lamports of one swap -/

namespace PingTracker

theorem getD_rational {feed : PriceFeed} (hfeed : feed.Exact) (mint : Pubkey) :
    (feed mint).getD (.fin 0) = .fin ((feed.rational mint).getD 0) := by
  cases h : feed mint with
  | none => simp only [PriceFeed.rational, h, Option.getD_none]
  | some price =>
    obtain ⟨q, -, rfl⟩ := hfeed.nonneg mint price h
    simp only [PriceFeed.rational, h, Option.getD_some]

theorem rational_nonneg {feed : PriceFeed} (hfeed : feed.Exact) (mint : Pubkey) :
    0 ≤ (feed.rational mint).getD 0 := by
  cases h : feed mint with
  | none => simp only [PriceFeed.rational, h, Option.getD_none, le_refl]
  | some price =>
    obtain ⟨q, hq, rfl⟩ := hfeed.nonneg mint price h
    simpa only [PriceFeed.rational, h, Option.getD_some] using hq

theorem sol_pos {feed : PriceFeed} (hfeed : feed.Exact) {sol : ℚ} (h : feed SOL = some (.fin sol)) :
    0 < sol := by
  obtain ⟨q, hq, he⟩ := hfeed.nonneg SOL _ h
  obtain rfl := F64.fin.inj he
  refine lt_of_le_of_ne hq fun hzero => hfeed.sol ?_
  rw [h, hzero]

/-- The code counts the worth at the price it takes, with the wrapped power. -/
theorem swapLamports_eq {feed : PriceFeed} (hfeed : feed.Exact) {sol : ℚ}
    (hsol : feed SOL = some (.fin sol)) (swap : ResolvedSwap) (decimals : ℕ) :
    swapLamports .exact feed (.fin sol) swap decimals =
      wordWorth sol (takenPrice feed sol swap) decimals swap.inputAmount := by
  have hpos := sol_pos hfeed hsol
  have htaken : (if swap.inputTokenMint = SOL then F64.fin sol
      else if swap.inputTokenMint = USDC ∨ swap.inputTokenMint = USDT then .fin 1
      else (feed swap.outputTokenMint).getD (.fin 0)) = .fin (takenPrice feed sol swap) := by
    simp only [takenPrice, getD_rational hfeed]
    split_ifs <;> rfl
  have hnonneg : 0 ≤ takenPrice feed sol swap := by
    simp only [takenPrice]
    split_ifs
    · exact hpos.le
    · exact zero_le_one
    · exact rational_nonneg hfeed _
  simp only [swapLamports, htaken, wordWorth, Rounding.exact_mul, Rounding.exact_div,
    Rounding.exact_ofNat]
  generalize takenPrice feed sol swap = price at hnonneg
  have hratio : F64.fin price / F64.fin sol = .fin (price / sol) := by
    change F64.div _ _ = _
    simp only [F64.div, hpos.ne', if_false]
  have hproduct : F64.ofNat swap.inputAmount * F64.fin (price / sol) =
      .fin (swap.inputAmount * (price / sol)) := rfl
  have hamount : 0 ≤ (swap.inputAmount : ℚ) * (price / sol) := by positivity
  rw [hratio, hproduct]
  split_ifs with hpow hzero
  · -- nothing divided by nothing
    simp only [hzero, hpow]
    rfl
  · have hlt : ¬ (swap.inputAmount : ℚ) * (price / sol) < 0 := hamount.not_gt
    have hinf : F64.fin (swap.inputAmount * (price / sol)) /
        F64.ofNat (10 ^ decimals % 2 ^ 32) = .inf false := by
      change F64.div _ _ = _
      simp only [hpow, F64.ofNat, F64.div, Nat.cast_zero, if_true, hzero, if_false, hlt,
        decide_false]
    rw [hinf]
    rfl
  · have hne : ((10 ^ decimals % 2 ^ 32 : ℕ) : ℚ) ≠ 0 := by exact_mod_cast hpow
    have hdiv : F64.fin (swap.inputAmount * (price / sol)) /
        F64.ofNat (10 ^ decimals % 2 ^ 32) =
        .fin (swap.inputAmount * (price / sol) / (10 ^ decimals % 2 ^ 32 : ℕ)) := by
      change F64.div _ _ = _
      simp only [F64.ofNat, F64.div, hne, if_false]
    have hmul : F64.fin (swap.inputAmount * (price / sol) / (10 ^ decimals % 2 ^ 32 : ℕ)) *
        F64.ofNat lamportsPerSol = .fin (swap.inputAmount * (price / sol) /
          (10 ^ decimals % 2 ^ 32 : ℕ) * lamportsPerSol) := rfl
    rw [hdiv, hmul, F64.toU64_trunc_fin (by positivity), worth, exactWorth]
    congr 3
    field_simp

/-- What the copied wallets have spent on a token, as far as the tracker knows. -/
def cost (t : PingTracker) (token : Pubkey) : ℕ :=
  ((t.pings token).map Ping.totalLamportsCost).getD 0

theorem cost_touchSell (t : PingTracker) (origin inputToken token : Pubkey)
    (signature : Signature) :
    (t.touchSell origin inputToken signature).cost token = t.cost token := by
  rw [cost, touchSell_pings, cost]

/-- Counting a wallet adds what it spent to its token. -/
theorem cost_addPing (t : PingTracker) (origin token : Pubkey) (signature : Signature)
    {lamports : ℕ} (hword : lamports ≤ maxU64) (token' : Pubkey) :
    (t.addPing origin token signature lamports).1.cost token' =
      if token' = token then wrapU64 (t.cost token + lamports) else t.cost token' := by
  have hwrap : wrapU64 (0 + lamports) = lamports := by
    simp only [wrapU64, maxU64] at hword ⊢
    omega
  simp only [addPing, cost]
  by_cases h : token' = token
  · subst h
    cases hp : t.pings token' with
    | none => simpa using hwrap.symm
    | some ping => simp
  · cases hp : t.pings token <;> simp [h]

/-- An execution costs nothing. -/
theorem cost_insertExecution {t t' : PingTracker} {r : Rounding} {token : Pubkey}
    {tokenDecimals volumeToken : ℕ} {usd sol : F64} {direction : TradeDirection}
    {moonbagBps : Option ℕ} {volume : PingExecutionVolume}
    (h : t.insertExecution r token tokenDecimals volumeToken usd sol direction moonbagBps =
      .ok (t', volume)) (token' : Pubkey) : t'.cost token' = t.cost token' := by
  obtain ⟨-, -, hpings⟩ := insertExecution_pings h
  rw [cost, hpings, cost]
  by_cases htoken : token' = token
  · subst htoken
    rw [Function.update_self, Option.map_map]
    rfl
  · rw [Function.update_of_ne htoken]

end PingTracker

/-! ## Runs -/

namespace PingEvent

/-- The prices a call reads are exact. -/
def Exact : PingEvent → Prop
  | .swap _ _ _ priceFeed => priceFeed.Exact
  | .execution .. => True

/-- What a call should add to the cost of a token: a swap that is entered what it is worth. -/
def spent (token : Pubkey) : PingEvent → ℕ
  | .swap _ _ entered priceFeed =>
    if entered.outputTokenMint = token ∧ isStaticToken token = false then
      match entered.tokenDecimals, priceFeed.rational SOL with
      | some decimals, some sol =>
        worth sol (inputPrice priceFeed sol entered.inputTokenMint) (10 ^ decimals.input)
          entered.inputAmount
      | _, _ => 0
    else 0
  | .execution .. => 0

end PingEvent

/-- Nothing is spent, or only what has no price on either side; or the input mint has nine decimals
at most and the price that is taken for it, as those of SOL and the stable coins are. -/
def PricedRight (priceFeed : PriceFeed) (sol : ℚ) (swap : ResolvedSwap) (decimals : ℕ) : Prop :=
  swap.inputAmount = 0 ∨
    takenPrice priceFeed sol swap = 0 ∧ inputPrice priceFeed sol swap.inputTokenMint = 0 ∨
    decimals ≤ 9 ∧ takenPrice priceFeed sol swap = inputPrice priceFeed sol swap.inputTokenMint

/-- The price and the power of ten that are taken put the worth off by a lamport at least. -/
def OffByLamport (priceFeed : PriceFeed) (sol : ℚ) (swap : ResolvedSwap) (decimals : ℕ) : Prop :=
  10 ^ decimals % 2 ^ 32 ≠ 0 ∧
    1 ≤ |exactWorth sol (takenPrice priceFeed sol swap) (10 ^ decimals % 2 ^ 32) swap.inputAmount -
      exactWorth sol (inputPrice priceFeed sol swap.inputTokenMint) (10 ^ decimals)
        swap.inputAmount|

/-- SOL and the stable coins are taken at their price. -/
theorem takenPrice_of_isStaticToken {priceFeed : PriceFeed} {sol : ℚ} {swap : ResolvedSwap}
    (hstatic : isStaticToken swap.inputTokenMint = true) :
    takenPrice priceFeed sol swap = inputPrice priceFeed sol swap.inputTokenMint := by
  simp only [isStaticToken, Bool.or_eq_true, beq_iff_eq] at hstatic
  simp only [takenPrice, inputPrice]
  split_ifs with hsol hstable
  · rfl
  · rfl
  · simp only [hsol, false_or] at hstatic
    exact absurd (Or.symm hstatic) hstable

/-- A swap that is entered is priced right, and its token has room for what it is worth. -/
def PingEvent.Counts (t : PingTracker) : PingEvent → Prop
  | .swap _ _ entered priceFeed =>
    isStaticToken entered.outputTokenMint = false → ∀ decimals sol,
      entered.tokenDecimals = some decimals → priceFeed.rational SOL = some sol →
        PricedRight priceFeed sol entered decimals.input ∧
          t.cost entered.outputTokenMint +
            worth sol (inputPrice priceFeed sol entered.inputTokenMint) (10 ^ decimals.input)
              entered.inputAmount ≤ maxU64
  | .execution .. => True

/-- A swap that is entered is off by a lamport at least, and what it is worth is less than the
largest word. -/
def PingEvent.Miscounts : PingEvent → Prop
  | .swap _ _ entered priceFeed =>
    isStaticToken entered.outputTokenMint = false ∧ ∃ decimals sol,
      entered.tokenDecimals = some decimals ∧ priceFeed.rational SOL = some sol ∧
        OffByLamport priceFeed sol entered decimals.input ∧
          worth sol (inputPrice priceFeed sol entered.inputTokenMint) (10 ^ decimals.input)
            entered.inputAmount < maxU64
  | .execution .. => False

namespace PingTracker

/-- A call adds what it should to every token. -/
def AddsSpent (t : PingTracker) (e : PingEvent) : Prop :=
  ∀ token, (t.step .exact e).cost token = t.cost token + e.spent token

theorem worth_eq_zero {sol price : ℚ} {unit amount : ℕ} (h : (amount : ℚ) * price = 0) :
    worth sol price unit amount = 0 := by
  have hzero : exactWorth sol price unit amount =
      (amount * price) / unit / sol * lamportsPerSol := by
    rw [exactWorth]
    ring
  rw [worth, hzero, h]
  simp

/-- What has no worth is counted as nothing, also when the power of ten is gone. -/
theorem wordWorth_eq_zero {sol price : ℚ} {amount : ℕ} (h : (amount : ℚ) * price = 0)
    (decimals : ℕ) : wordWorth sol price decimals amount = 0 := by
  rw [wordWorth, worth_eq_zero h, ← mul_div_assoc, h, zero_div, if_pos rfl, Nat.zero_min,
    ite_self]

/-- Within a word, what is priced right is counted at its worth. -/
theorem wordWorth_eq {priceFeed : PriceFeed} {sol : ℚ} {swap : ResolvedSwap} {decimals : ℕ}
    (hright : PricedRight priceFeed sol swap decimals)
    (hroom : worth sol (inputPrice priceFeed sol swap.inputTokenMint) (10 ^ decimals)
      swap.inputAmount ≤ maxU64) :
    wordWorth sol (takenPrice priceFeed sol swap) decimals swap.inputAmount =
      worth sol (inputPrice priceFeed sol swap.inputTokenMint) (10 ^ decimals)
        swap.inputAmount := by
  rcases hright with hamount | ⟨htaken, hinput⟩ | ⟨hdecimals, hprice⟩
  · rw [wordWorth_eq_zero (by simp [hamount]), worth_eq_zero (by simp [hamount])]
  · rw [wordWorth_eq_zero (by simp [htaken]), worth_eq_zero (by simp [hinput])]
  · have hlt : 10 ^ decimals < 2 ^ 32 :=
      (Nat.pow_le_pow_right (by decide) hdecimals).trans_lt (by decide)
    have hpos : 10 ^ decimals % 2 ^ 32 ≠ 0 := by
      rw [Nat.mod_eq_of_lt hlt]
      positivity
    rw [wordWorth, if_neg hpos, Nat.mod_eq_of_lt hlt, hprice, min_eq_left hroom]

/-- Two amounts of lamports that differ by one at least are different whole numbers. -/
theorem floor_ne_floor {a b : ℚ} (ha : 0 ≤ a) (hb : 0 ≤ b) (h : 1 ≤ |a - b|) : ⌊a⌋₊ ≠ ⌊b⌋₊ := by
  intro he
  have hla := Nat.floor_le ha
  have hlb := Nat.floor_le hb
  have hra := Nat.lt_floor_add_one a
  have hrb := Nat.lt_floor_add_one b
  rw [he] at hla hra
  rcases le_abs.mp h with hge | hge <;> linarith

theorem inputPrice_nonneg {priceFeed : PriceFeed} (hfeed : priceFeed.Exact) {sol : ℚ}
    (hsol : 0 ≤ sol) (mint : Pubkey) : 0 ≤ inputPrice priceFeed sol mint := by
  rw [inputPrice]
  split_ifs
  · exact hsol
  · exact zero_le_one
  · exact rational_nonneg hfeed mint

theorem takenPrice_nonneg {priceFeed : PriceFeed} (hfeed : priceFeed.Exact) {sol : ℚ}
    (hsol : 0 ≤ sol) (swap : ResolvedSwap) : 0 ≤ takenPrice priceFeed sol swap := by
  rw [takenPrice]
  split_ifs
  · exact hsol
  · exact zero_le_one
  · exact rational_nonneg hfeed _

/-- What is off by a lamport is not counted at its worth. -/
theorem wordWorth_ne {priceFeed : PriceFeed} (hfeed : priceFeed.Exact) {sol : ℚ} (hsol : 0 < sol)
    {swap : ResolvedSwap} {decimals : ℕ} (hoff : OffByLamport priceFeed sol swap decimals)
    (hroom : worth sol (inputPrice priceFeed sol swap.inputTokenMint) (10 ^ decimals)
      swap.inputAmount < maxU64) :
    wordWorth sol (takenPrice priceFeed sol swap) decimals swap.inputAmount ≠
      worth sol (inputPrice priceFeed sol swap.inputTokenMint) (10 ^ decimals)
        swap.inputAmount := by
  obtain ⟨hpow, hdiff⟩ := hoff
  have hinput := inputPrice_nonneg hfeed hsol.le swap.inputTokenMint
  have htaken := takenPrice_nonneg hfeed hsol.le swap
  have hne := floor_ne_floor (by unfold exactWorth; positivity)
    (by unfold exactWorth; positivity) hdiff
  rw [wordWorth, if_neg hpow]
  unfold worth at hroom ⊢
  omega

/-- What a swap into a tracked token adds, once its decimals and the price of SOL are known. -/
theorem cost_insertSwap (t : PingTracker) (origin : Pubkey) (signature : Signature)
    {swap : ResolvedSwap} {priceFeed : PriceFeed} (hfeed : priceFeed.Exact)
    (htracked : isStaticToken swap.outputTokenMint = false) {decimals : TokenDecimals} {sol : ℚ}
    (hdecimals : swap.tokenDecimals = some decimals) (hsol : priceFeed SOL = some (.fin sol))
    (token : Pubkey) :
    (t.insertSwap .exact origin signature swap priceFeed).1.cost token =
      if token = swap.outputTokenMint then
        wrapU64 (t.cost swap.outputTokenMint +
          wordWorth sol (takenPrice priceFeed sol swap) decimals.input swap.inputAmount)
      else t.cost token := by
  have hword : swapLamports .exact priceFeed (.fin sol) swap decimals.input ≤ maxU64 :=
    F64.toU64_le _
  simp only [insertSwap, htracked, Bool.false_eq_true, if_false, hdecimals, hsol]
  rw [cost_addPing _ _ _ _ hword, cost_touchSell, cost_touchSell, swapLamports_eq hfeed hsol]

/-- A swap that is not entered into a token changes no cost. -/
theorem cost_insertSwap_of_not {t : PingTracker} {r : Rounding} {origin : Pubkey}
    {signature : Signature} {swap : ResolvedSwap} {priceFeed : PriceFeed}
    (h : isStaticToken swap.outputTokenMint = true ∨ swap.tokenDecimals = none ∨
      priceFeed SOL = none) (token : Pubkey) :
    (t.insertSwap r origin signature swap priceFeed).1.cost token = t.cost token := by
  have hkeep : (t.insertSwap r origin signature swap priceFeed).1 =
      t.touchSell origin swap.inputTokenMint signature := by
    simp only [insertSwap]
    split_ifs with hs
    · rfl
    · rcases h with h | h | h
      · exact absurd h hs
      · rw [h]
      · cases swap.tokenDecimals with
        | none => rfl
        | some decimals => rw [h]
  rw [hkeep, cost_touchSell]

/-- The sum of two words is right exactly when it has room and the summand is right. -/
theorem wrapU64_add_eq_iff (total due : ℕ) {counted : ℕ} (hcounted : counted ≤ maxU64) :
    wrapU64 (total + counted) = total + due ↔ counted = due ∧ total + due ≤ maxU64 := by
  simp only [wrapU64, maxU64] at hcounted ⊢
  omega

theorem wordWorth_le (sol price : ℚ) (decimals amount : ℕ) :
    wordWorth sol price decimals amount ≤ maxU64 := by
  rw [wordWorth]
  split_ifs
  · exact Nat.zero_le _
  · exact le_rfl
  · exact min_le_right _ _

/-- A swap that is entered adds what it is worth exactly when this is what is counted and there is
room for it. -/
theorem addsSpent_swap_iff (t : PingTracker) (origin : Pubkey) (signature : Signature)
    {swap : ResolvedSwap} {priceFeed : PriceFeed} (hfeed : priceFeed.Exact)
    (htracked : isStaticToken swap.outputTokenMint = false) {decimals : TokenDecimals} {sol : ℚ}
    (hdecimals : swap.tokenDecimals = some decimals) (hsol : priceFeed SOL = some (.fin sol)) :
    t.AddsSpent (.swap origin signature swap priceFeed) ↔
      wordWorth sol (takenPrice priceFeed sol swap) decimals.input swap.inputAmount =
          worth sol (inputPrice priceFeed sol swap.inputTokenMint) (10 ^ decimals.input)
            swap.inputAmount ∧
        t.cost swap.outputTokenMint +
          worth sol (inputPrice priceFeed sol swap.inputTokenMint) (10 ^ decimals.input)
            swap.inputAmount ≤ maxU64 := by
  have hrational : priceFeed.rational SOL = some sol := by
    simp only [PriceFeed.rational, hsol]
  have hcost := t.cost_insertSwap origin signature hfeed htracked hdecimals hsol
  have hspent : ∀ token, PingEvent.spent token (.swap origin signature swap priceFeed) =
      if token = swap.outputTokenMint then
        worth sol (inputPrice priceFeed sol swap.inputTokenMint) (10 ^ decimals.input)
          swap.inputAmount
      else 0 := by
    intro token
    by_cases h : token = swap.outputTokenMint
    · subst h
      simp only [PingEvent.spent, htracked, and_self, if_true, hdecimals, hrational]
    · simp only [PingEvent.spent, Ne.symm h, false_and, if_false, h]
  have hiff := wrapU64_add_eq_iff (t.cost swap.outputTokenMint)
    (worth sol (inputPrice priceFeed sol swap.inputTokenMint) (10 ^ decimals.input)
      swap.inputAmount)
    (wordWorth_le sol (takenPrice priceFeed sol swap) decimals.input swap.inputAmount)
  constructor
  · intro h
    have hout := h swap.outputTokenMint
    rw [step, hcost, hspent, if_pos rfl, if_pos rfl] at hout
    exact hiff.mp hout
  · intro hcounted token
    rw [step, hcost, hspent]
    split_ifs with htoken
    · rw [htoken, hiff.mpr hcounted]
    · rfl

/-- A call that counts adds what it should. -/
theorem addsSpent_of_counts (t : PingTracker) {e : PingEvent} (he : e.Exact)
    (hcounts : e.Counts t) : t.AddsSpent e := by
  cases e with
  | execution token tokenDecimals volumeToken usd sol direction moonbagBps =>
    intro token'
    simp only [step, PingEvent.spent, Nat.add_zero]
    split
    · rfl
    · next h => exact cost_insertExecution h token'
  | swap origin signature swap priceFeed =>
    have hidle : (isStaticToken swap.outputTokenMint = true ∨ swap.tokenDecimals = none ∨
        priceFeed SOL = none) → t.AddsSpent (.swap origin signature swap priceFeed) := by
      intro h token
      rw [step, cost_insertSwap_of_not h, PingEvent.spent]
      split_ifs with hs
      · rcases h with h | h | h
        · rw [hs.1, hs.2] at h
          contradiction
        · rw [h]
          rfl
        · rw [PriceFeed.rational, h]
          cases swap.tokenDecimals <;> rfl
      · rfl
    cases htracked : isStaticToken swap.outputTokenMint with
    | true => exact hidle (.inl htracked)
    | false =>
      cases hdecimals : swap.tokenDecimals with
      | none => exact hidle (.inr (.inl hdecimals))
      | some decimals =>
        cases hprice : priceFeed SOL with
        | none => exact hidle (.inr (.inr hprice))
        | some price =>
          obtain ⟨sol, -, rfl⟩ := PriceFeed.Exact.nonneg he SOL price hprice
          have hrational : priceFeed.rational SOL = some sol := by
            simp only [PriceFeed.rational, hprice]
          obtain ⟨hright, hroom⟩ := hcounts htracked decimals sol hdecimals hrational
          refine (addsSpent_swap_iff t origin signature he htracked hdecimals hprice).mpr
            ⟨wordWorth_eq hright (by omega), hroom⟩

/-- A call that miscounts does not add what it should. -/
theorem not_addsSpent_of_miscounts (t : PingTracker) {e : PingEvent} (he : e.Exact)
    (hmiscounts : e.Miscounts) : ¬ t.AddsSpent e := by
  cases e with
  | execution token tokenDecimals volumeToken usd sol direction moonbagBps =>
    exact hmiscounts.elim
  | swap origin signature swap priceFeed =>
    obtain ⟨htracked, decimals, sol, hdecimals, hrational, hoff, hroom⟩ := hmiscounts
    have hprice : priceFeed SOL = some (.fin sol) := by
      cases hsol : priceFeed SOL with
      | none => simp only [PriceFeed.rational, hsol, reduceCtorEq] at hrational
      | some price =>
        obtain ⟨q, -, rfl⟩ := PriceFeed.Exact.nonneg he SOL price hsol
        simp only [PriceFeed.rational, hsol, Option.some.injEq] at hrational
        rw [hrational]
    intro hadds
    exact wordWorth_ne he (sol_pos he hprice) hoff hroom
      ((addsSpent_swap_iff t origin signature he htracked hdecimals hprice).mp hadds).1

/-- In every run whose swaps are priced right and have room, every call adds what it should and
the cost of a token is the sum over all of its swaps. A swap that is off by a lamport at least
adds something else, whenever it comes. -/
theorem cost_run (t : PingTracker) {es : List PingEvent} (hes : ∀ e ∈ es, e.Exact) :
    (Along (step .exact) (fun t e => e.Counts t) t es →
      Along (step .exact) AddsSpent t es ∧ ∀ token,
        (exec (step .exact) t es).cost token =
          t.cost token + (es.map (PingEvent.spent token)).sum) ∧
      ∀ e ∈ es, e.Miscounts → ∀ t : PingTracker, ¬ t.AddsSpent e := by
  refine ⟨?_, fun e he hmiscounts t => not_addsSpent_of_miscounts t (hes e he) hmiscounts⟩
  induction es generalizing t with
  | nil => exact fun _ => ⟨trivial, fun _ => rfl⟩
  | cons e es ih =>
    rintro ⟨hcounts, hrest⟩
    have he := addsSpent_of_counts t (hes e List.mem_cons_self) hcounts
    obtain ⟨hadds, hsum⟩ :=
      ih (t.step .exact e) (fun e' h => hes e' (List.mem_cons_of_mem e h)) hrest
    refine ⟨⟨he, hadds⟩, fun token => ?_⟩
    rw [exec_cons, hsum token, he token, List.map_cons, List.sum_cons, Nat.add_assoc]

/-- A feed in which the third token costs three times as much as the second one. -/
def threefoldFeed : PriceFeed := fun mint =>
  if mint = SOL then some (.fin 100)
  else if mint = sampleToken then some (.fin 2)
  else if mint = 3 then some (.fin 6)
  else none

theorem threefoldFeed_exact : threefoldFeed.Exact where
  nonneg mint price h := by
    unfold threefoldFeed at h
    split_ifs at h with hsol hsample hthird
    · exact ⟨100, by norm_num, (Option.some.inj h).symm⟩
    · exact ⟨2, by norm_num, (Option.some.inj h).symm⟩
    · exact ⟨6, by norm_num, (Option.some.inj h).symm⟩
  sol := by
    simp only [threefoldFeed, if_true, ne_eq, Option.some.injEq, F64.fin.injEq]
    norm_num

/-- One second token buys the third one. -/
def threefoldSwap (inputMint : Pubkey) : PingEvent :=
  .swap sampleWallet 0 ⟨10 ^ 9, 1, inputMint, 3, some ⟨9, 6⟩⟩ threefoldFeed

/-- A token worth 0.02 SOL is counted at 0.06 SOL, the worth of the token it buys. -/
theorem not_addsSpent_threefold :
    ((empty []).step .exact (threefoldSwap sampleToken)).cost 3 = 60000000 ∧
      (threefoldSwap sampleToken).spent 3 = 20000000 ∧
      ¬ (empty []).AddsSpent (threefoldSwap sampleToken) := by
  have hcost : ((empty []).step .exact (threefoldSwap sampleToken)).cost 3 = 60000000 := by
    decide +kernel
  have hspent : (threefoldSwap sampleToken).spent 3 = 20000000 := by
    decide +kernel
  refine ⟨hcost, hspent, fun h => ?_⟩
  have htotal := h 3
  rw [hcost, hspent] at htotal
  exact absurd htotal (by decide)

/-- One SOL counts while there is room for it. -/
theorem counts_oneSol {t : PingTracker} (h : t.cost 3 ≤ 10 ^ 9) :
    (threefoldSwap SOL).Counts t := by
  intro _ decimals sol hdecimals hsol
  obtain rfl := Option.some.inj hdecimals
  have hprice : threefoldFeed.rational SOL = some 100 := by decide +kernel
  obtain rfl := Option.some.inj (hprice.symm.trans hsol)
  have hworth : worth 100 (inputPrice threefoldFeed 100 SOL) (10 ^ 9) (10 ^ 9) = 10 ^ 9 := by
    decide +kernel
  refine ⟨.inr (.inr ⟨by decide, takenPrice_of_isStaticToken (by decide)⟩), ?_⟩
  simp only [hworth, maxU64]
  omega

/-- Two swaps for one SOL each cost two SOL. -/
theorem cost_two_buys :
    (exec (step .exact) (empty []) [threefoldSwap SOL, threefoldSwap SOL]).cost 3 =
      (empty []).cost 3 + ([threefoldSwap SOL, threefoldSwap SOL].map (PingEvent.spent 3)).sum := by
  have hexact : ∀ e ∈ [threefoldSwap SOL, threefoldSwap SOL], e.Exact := by
    intro e he
    simp only [List.mem_cons, List.not_mem_nil, or_false, or_self] at he
    subst he
    exact threefoldFeed_exact
  have hnext : ((empty []).step .exact (threefoldSwap SOL)).cost 3 ≤ 10 ^ 9 := by decide +kernel
  exact ((cost_run (empty []) hexact).1
    ⟨counts_oneSol (by decide), counts_oneSol hnext, trivial⟩).2 3

end PingTracker

end Biscuit.Copy
