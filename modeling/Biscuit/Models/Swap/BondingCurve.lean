import Biscuit.Core.Checked
import Biscuit.Core.ConstantProduct

/-!
# The bonding curve

A token of pump.fun is traded against SOL along a curve of constant product, until its real
reserves are sold. The prices are computed here with words of several sizes: that nothing leaves
its word is part of what is to be shown. The initial price takes the square of the SOL reserves
for the product, and the price of buying out clamps the tokens with the reserves of SOL.
-/

namespace Biscuit.Swap

open ConstantProduct

/-- `BondingCurve`; the reserves are words. -/
structure BondingCurve where
  virtualTokenReserves : ℕ
  virtualSolReserves : ℕ
  realTokenReserves : ℕ
  realSolReserves : ℕ
  tokenTotalSupply : ℕ
  complete : Bool
  virtualTokenReserves_lt : virtualTokenReserves < 2 ^ 64
  virtualSolReserves_lt : virtualSolReserves < 2 ^ 64
  realTokenReserves_lt : realTokenReserves < 2 ^ 64
  realSolReserves_lt : realSolReserves < 2 ^ 64
  tokenTotalSupply_lt : tokenTotalSupply < 2 ^ 64

/-- `BondingCurveComplete` -/
inductive BondingCurveComplete
  /-- `Bonding curve complete` -/
  | complete
  deriving DecidableEq, Repr

namespace BondingCurve

variable (b : Build) (c : BondingCurve)

/-- `get_buy_price`: the tokens that an amount of lamports buys. -/
def getBuyPrice (amount : ℕ) : Outcome BondingCurveComplete ℕ :=
  if c.complete then .err .complete
  else if amount = 0 then .ok 0
  else do
    let n ← b.mul 128 c.virtualSolReserves c.virtualTokenReserves
    let i ← b.add 64 c.virtualSolReserves amount
    let q ← Build.div n i
    let r ← b.add 64 (wrapU64 q) 1
    let s ← b.sub 64 c.virtualTokenReserves r
    pure (min c.realTokenReserves s)

/-- `get_sell_price`: the lamports that an amount of tokens sells for, less the fee. -/
def getSellPrice (amount feeBps : ℕ) : Outcome BondingCurveComplete ℕ :=
  if c.complete then .err .complete
  else if amount = 0 then .ok 0
  else do
    let product ← b.mul 128 amount c.virtualSolReserves
    let tokens ← b.add 128 c.virtualTokenReserves amount
    let q ← Build.div product tokens
    let n := wrapU64 q
    let fee ← b.mul 64 n feeBps
    let a ← Build.div fee 10000
    b.sub 64 n a

/-- `get_buy_out_price`: the lamports that an amount of tokens costs, and the fee. -/
def getBuyOutPrice {ε : Type} (amount feeBps : ℕ) : Outcome ε ℕ := do
  let solTokens := min amount c.realSolReserves
  let product ← b.mul 128 solTokens c.virtualSolReserves
  let left ← b.sub 128 c.virtualTokenReserves solTokens
  let q ← Build.div product left
  let price ← b.add 128 q 1
  let totalSellValue := wrapU64 price
  let product ← b.mul 64 totalSellValue feeBps
  let fee ← Build.div product 10000
  b.add 64 totalSellValue fee

/-- `final_market_cap_sol`: what the supply is worth once the real reserves are bought out. -/
def finalMarketCapSol {ε : Type} (feeBps : ℕ) : Outcome ε ℕ := do
  let totalSellValue ← c.getBuyOutPrice b c.realTokenReserves feeBps
  let totalVirtualValue ← b.add 64 c.virtualSolReserves totalSellValue
  let totalVirtualTokens ← b.sub 64 c.virtualTokenReserves c.realTokenReserves
  if totalVirtualTokens = 0 then pure 0
  else do
    let product ← b.mul 128 c.tokenTotalSupply totalVirtualValue
    let cap ← Build.div product totalVirtualTokens
    pure (wrapU64 cap)

end BondingCurve

/-- `Global`: what a new curve starts with. -/
structure Global where
  initialVirtualTokenReserves : ℕ
  initialVirtualSolReserves : ℕ
  initialRealTokenReserves : ℕ
  initialVirtualTokenReserves_lt : initialVirtualTokenReserves < 2 ^ 64
  initialVirtualSolReserves_lt : initialVirtualSolReserves < 2 ^ 64
  initialRealTokenReserves_lt : initialRealTokenReserves < 2 ^ 64

/-- `get_initial_buy_price`: the tokens that an amount buys of a new curve. -/
def Global.getInitialBuyPrice {ε : Type} (b : Build) (g : Global) (amount : ℕ) : Outcome ε ℕ :=
  if amount = 0 then .ok 0
  else do
    let n ← b.mul 128 g.initialVirtualSolReserves g.initialVirtualSolReserves
    let i ← b.add 64 g.initialVirtualSolReserves amount
    let q ← Build.div n i
    let r ← b.add 64 (wrapU64 q) 1
    let s ← b.sub 64 g.initialVirtualTokenReserves r
    pure (min s g.initialRealTokenReserves)

/-! ## Buying and selling -/

namespace BondingCurve

/-- What is bought is what the pool lets out, as far as the real reserves go. -/
theorem getBuyPrice_eq (b : Build) {c : BondingCurve} (hc : c.complete = false)
    (hy : 0 < c.virtualTokenReserves) {a : ℕ} (ha : 0 < a)
    (hfit : c.virtualSolReserves + a < 2 ^ 64) :
    c.getBuyPrice b a = .ok (min c.realTokenReserves
      (bought c.virtualSolReserves c.virtualTokenReserves a)) := by
  have hkept := kept_le c.virtualSolReserves hy ha
  have htoken := c.virtualTokenReserves_lt
  have hproduct := Build.mul_lt_two_words c.virtualSolReserves_lt htoken
  rw [bought]
  rw [kept] at hkept ⊢
  have hword : c.virtualSolReserves * c.virtualTokenReserves / (c.virtualSolReserves + a) <
      2 ^ 64 := by omega
  rw [getBuyPrice, hc, if_neg Bool.false_ne_true, if_neg ha.ne', b.mul_ok hproduct,
    Outcome.ok_bind, b.add_ok hfit, Outcome.ok_bind, Build.div_ok _ (by omega), Outcome.ok_bind,
    wrapU64_eq hword, b.add_ok (by omega), Outcome.ok_bind, b.sub_ok 64 hkept]
  rfl

/-- A sell is paid what the pool lets out, less the fee. -/
theorem getSellPrice_eq (b : Build) {c : BondingCurve} (hc : c.complete = false) {s feeBps : ℕ}
    (hs : 0 < s) (hword : s < 2 ^ 64) (hfee : feeBps ≤ 10000)
    (hsold : sold c.virtualSolReserves c.virtualTokenReserves s < 2 ^ 64)
    (hfit : sold c.virtualSolReserves c.virtualTokenReserves s * feeBps < 2 ^ 64) :
    c.getSellPrice b s feeBps = .ok (sold c.virtualSolReserves c.virtualTokenReserves s -
      sold c.virtualSolReserves c.virtualTokenReserves s * feeBps / 10000) := by
  have htoken := c.virtualTokenReserves_lt
  have hproduct := Build.mul_lt_two_words hword c.virtualSolReserves_lt
  have hsum : c.virtualTokenReserves + s < 2 ^ 128 := by omega
  rw [sold] at hsold hfit ⊢
  have hle : s * c.virtualSolReserves / (c.virtualTokenReserves + s) * feeBps / 10000 ≤
      s * c.virtualSolReserves / (c.virtualTokenReserves + s) := by
    apply Nat.div_le_of_le_mul
    rw [Nat.mul_comm 10000]
    exact Nat.mul_le_mul_left _ hfee
  rw [getSellPrice, hc, if_neg Bool.false_ne_true, if_neg hs.ne', b.mul_ok hproduct,
    Outcome.ok_bind, b.add_ok hsum, Outcome.ok_bind, Build.div_ok _ (by omega), Outcome.ok_bind,
    wrapU64_eq hsold]
  simp only
  rw [b.mul_ok hfit, Outcome.ok_bind, Build.div_ok _ (by norm_num), Outcome.ok_bind,
    b.sub_ok 64 hle]

/-- A buy computes without overflow, does not lower the product of the reserves, and cannot be
sold for more than was paid. -/
theorem getBuyPrice_gives_nothing_away (b : Build) {c : BondingCurve} (hc : c.complete = false)
    (hy : 0 < c.virtualTokenReserves) {a : ℕ} (ha : 0 < a)
    (hfit : c.virtualSolReserves + a < 2 ^ 64) :
    ∃ s, c.getBuyPrice b a = .ok s ∧ s ≤ c.realTokenReserves ∧ s ≤ c.virtualTokenReserves ∧
      c.virtualSolReserves * c.virtualTokenReserves ≤
        (c.virtualSolReserves + a) * (c.virtualTokenReserves - s) ∧
      ∀ after : BondingCurve, after.complete = false →
        after.virtualSolReserves = c.virtualSolReserves + a →
        after.virtualTokenReserves = c.virtualTokenReserves - s →
        ∀ feeBps ≤ 10000, a * feeBps < 2 ^ 64 →
          ∃ back, after.getSellPrice b s feeBps = .ok back ∧ back ≤ a := by
  have hbought : min c.realTokenReserves (bought c.virtualSolReserves c.virtualTokenReserves a) ≤
      bought c.virtualSolReserves c.virtualTokenReserves a := min_le_right _ _
  refine ⟨_, getBuyPrice_eq b hc hy ha hfit, min_le_left _ _, hbought.trans (Nat.sub_le _ _),
    product_le hy ha hbought, ?_⟩
  have hreal : min c.realTokenReserves (bought c.virtualSolReserves c.virtualTokenReserves a) <
      2 ^ 64 := (min_le_left _ _).trans_lt c.realTokenReserves_lt
  have hback := sold_le hy ha hbought
  generalize min c.realTokenReserves (bought c.virtualSolReserves c.virtualTokenReserves a) = s
    at hreal hback
  intro after hafter hsol htoken feeBps hfee hroom
  rcases Nat.eq_zero_or_pos s with hzero | hpos
  · refine ⟨0, ?_, Nat.zero_le _⟩
    rw [getSellPrice, hafter, if_neg Bool.false_ne_true, if_pos hzero]
  · rw [← hsol, ← htoken] at hback
    have hword : a < 2 ^ 64 := by omega
    exact ⟨_, getSellPrice_eq b hafter hpos hreal hfee (hback.trans_lt hword)
      ((Nat.mul_le_mul_right _ hback).trans_lt hroom), (Nat.sub_le _ _).trans hback⟩

/-- A curve of pump.fun as it starts: thirty SOL and a billion tokens. -/
def initialCurve : BondingCurve where
  virtualTokenReserves := 1073000000000000
  virtualSolReserves := 30000000000
  realTokenReserves := 793100000000000
  realSolReserves := 0
  tokenTotalSupply := 1000000000000000
  complete := false
  virtualTokenReserves_lt := by norm_num
  virtualSolReserves_lt := by norm_num
  realTokenReserves_lt := by norm_num
  realSolReserves_lt := by norm_num
  tokenTotalSupply_lt := by norm_num

/-- One SOL buys thirty-four million tokens of it. -/
theorem getBuyPrice_initialCurve : ∃ s, initialCurve.getBuyPrice .checked 1000000000 = .ok s ∧
    s ≤ initialCurve.realTokenReserves :=
  have ⟨s, hs, hreal, _⟩ := getBuyPrice_gives_nothing_away .checked (c := initialCurve)
    (a := 1000000000) rfl (by decide) (by decide) (by decide)
  ⟨s, hs, hreal⟩

/-! ## Buying out -/

/-- The tokens that a price is asked for, clamped as the source does, cost what the pool takes. -/
theorem getBuyOutPrice_eq {ε : Type} (b : Build) {c : BondingCurve} {a : ℕ}
    (ha : min a c.realSolReserves < c.virtualTokenReserves)
    (hfit : cost c.virtualSolReserves c.virtualTokenReserves (min a c.realSolReserves) < 2 ^ 64) :
    (c.getBuyOutPrice b a 0 : Outcome ε ℕ) =
      .ok (cost c.virtualSolReserves c.virtualTokenReserves (min a c.realSolReserves)) := by
  have hsol := (min_le_right a c.realSolReserves).trans_lt c.realSolReserves_lt
  rw [cost] at hfit ⊢
  simp only [getBuyOutPrice]
  generalize min a c.realSolReserves = t at *
  have hproduct := Build.mul_lt_two_words hsol c.virtualSolReserves_lt
  rw [b.mul_ok hproduct, Outcome.ok_bind, b.sub_ok 128 ha.le, Outcome.ok_bind,
    Build.div_ok _ (Nat.sub_pos_of_lt ha), Outcome.ok_bind,
    b.add_ok (hfit.trans (by norm_num)), Outcome.ok_bind, wrapU64_eq hfit,
    b.mul_ok (y := 0) (by norm_num), Outcome.ok_bind, Build.div_ok _ (by norm_num),
    Outcome.ok_bind, Nat.mul_zero, Nat.zero_div]
  exact b.add_ok (y := 0) hfit

/-- The market cap counts the SOL reserves after the remaining tokens are paid for. -/
theorem finalMarketCapSol_eq {ε : Type} (b : Build) {c : BondingCurve} {feeBps price : ℕ}
    (hreal : c.realTokenReserves < c.virtualTokenReserves)
    (hprice : (c.getBuyOutPrice b c.realTokenReserves feeBps : Outcome ε ℕ) = .ok price)
    (hfit : c.virtualSolReserves + price < 2 ^ 64) :
    (c.finalMarketCapSol b feeBps : Outcome ε ℕ) =
      .ok (wrapU64 (c.tokenTotalSupply * (c.virtualSolReserves + price) /
        (c.virtualTokenReserves - c.realTokenReserves))) := by
  have hleft : 0 < c.virtualTokenReserves - c.realTokenReserves := Nat.sub_pos_of_lt hreal
  rw [finalMarketCapSol, hprice, Outcome.ok_bind, b.add_ok hfit, Outcome.ok_bind,
    b.sub_ok 64 hreal.le, Outcome.ok_bind, if_neg hleft.ne',
    b.mul_ok (Build.mul_lt_two_words c.tokenTotalSupply_lt hfit), Outcome.ok_bind,
    Build.div_ok _ hleft]
  rfl

/-- Paying the price of buying out buys the tokens, and the final market cap is computed with what
the remaining ones cost. -/
structure BuysOut (c : BondingCurve) (a : ℕ) : Prop where
  sufficient : ∀ b : Build, ∃ price, c.getBuyOutPrice b a 0 = (.ok price : Outcome Empty ℕ) ∧
    ∃ s, c.getBuyPrice b price = .ok s ∧ a ≤ s
  marketCap : a = c.realTokenReserves → ∀ b : Build, c.finalMarketCapSol b 0 =
    (.ok (wrapU64 (c.tokenTotalSupply *
        (c.virtualSolReserves + cost c.virtualSolReserves c.virtualTokenReserves a) /
      (c.virtualTokenReserves - a))) : Outcome Empty ℕ)

/-- The price is sufficient exactly when the clamp takes no tokens away, or none that cost
anything. -/
theorem buysOut_iff {c : BondingCurve} (hc : c.complete = false)
    (hreal : c.realTokenReserves < c.virtualTokenReserves) {a : ℕ} (ha : a ≤ c.realTokenReserves)
    (hfit : c.virtualSolReserves +
      cost c.virtualSolReserves c.virtualTokenReserves (min a c.realSolReserves) < 2 ^ 64) :
    c.BuysOut a ↔ a ≤ c.realSolReserves ∨
      c.realSolReserves * c.virtualSolReserves / (c.virtualTokenReserves - c.realSolReserves) =
        a * c.virtualSolReserves / (c.virtualTokenReserves - a) := by
  have hlt : a < c.virtualTokenReserves := ha.trans_lt hreal
  have hclamped : min a c.realSolReserves < c.virtualTokenReserves :=
    (min_le_left _ _).trans_lt hlt
  have hprice : ∀ b : Build, (c.getBuyOutPrice b a 0 : Outcome Empty ℕ) =
      .ok (cost c.virtualSolReserves c.virtualTokenReserves (min a c.realSolReserves)) :=
    fun b => getBuyOutPrice_eq b hclamped ((Nat.le_add_left _ _).trans_lt hfit)
  have hpaid : 0 < cost c.virtualSolReserves c.virtualTokenReserves (min a c.realSolReserves) :=
    Nat.succ_pos _
  have hbuy := fun b : Build => getBuyPrice_eq b hc (Nat.zero_lt_of_lt hlt) hpaid hfit
  have hmono := cost_mono c.virtualSolReserves (min_le_left a c.realSolReserves) hlt
  -- what is paid suffices when it is the whole cost
  have hcost : a ≤ min c.realTokenReserves (bought c.virtualSolReserves c.virtualTokenReserves
      (cost c.virtualSolReserves c.virtualTokenReserves (min a c.realSolReserves))) ↔
      cost c.virtualSolReserves c.virtualTokenReserves (min a c.realSolReserves) =
        cost c.virtualSolReserves c.virtualTokenReserves a := by
    rw [le_min_iff, and_iff_right ha, le_bought_iff hpaid hlt]
    exact ⟨fun h => le_antisymm hmono h, fun h => h.ge⟩
  have hcond : cost c.virtualSolReserves c.virtualTokenReserves (min a c.realSolReserves) =
      cost c.virtualSolReserves c.virtualTokenReserves a ↔ a ≤ c.realSolReserves ∨
      c.realSolReserves * c.virtualSolReserves / (c.virtualTokenReserves - c.realSolReserves) =
        a * c.virtualSolReserves / (c.virtualTokenReserves - a) := by
    rcases Nat.le_total a c.realSolReserves with hle | hle
    · rw [min_eq_left hle]
      exact iff_of_true rfl (.inl hle)
    · rw [min_eq_right hle, cost, cost, Nat.add_right_cancel_iff]
      refine ⟨.inr, fun h => h.elim (fun hle' => ?_) id⟩
      rw [le_antisymm hle hle']
  rw [← hcond]
  constructor
  · rintro ⟨hsufficient, -⟩
    obtain ⟨price, hp, s, hs, hle⟩ := hsufficient .checked
    rw [hprice .checked, Outcome.ok.injEq] at hp
    rw [← hp, hbuy .checked, Outcome.ok.injEq] at hs
    rw [← hcost, hs]
    exact hle
  · intro heq
    refine ⟨fun b => ⟨_, hprice b, _, hbuy b, hcost.mpr heq⟩, fun hall b => ?_⟩
    rw [heq] at hfit hprice
    subst hall
    exact finalMarketCapSol_eq b hreal (hprice b) hfit

/-- The curve once a hundred of its tokens, of which there are two hundred, cost a lamport each;
almost none of them has been paid yet. -/
def cheapCurve (realSolReserves : UInt64) : BondingCurve where
  virtualTokenReserves := 200
  virtualSolReserves := 100
  realTokenReserves := 100
  realSolReserves := realSolReserves.toNat
  tokenTotalSupply := 300
  complete := false
  virtualTokenReserves_lt := by norm_num
  virtualSolReserves_lt := by norm_num
  realTokenReserves_lt := by norm_num
  realSolReserves_lt := realSolReserves.toNat_lt
  tokenTotalSupply_lt := by norm_num

/-- With ten lamports in the real reserves a hundred tokens are offered for six. -/
theorem not_buysOut_cheapCurve :
    (cheapCurve 10).getBuyOutPrice .checked 100 0 = (.ok 6 : Outcome Empty ℕ) ∧
      (cheapCurve 10).getBuyPrice .checked 6 = .ok 11 ∧
      ¬ (cheapCurve 10).BuysOut 100 := by
  have hprice : (cheapCurve 10).getBuyOutPrice .checked 100 0 =
      (.ok 6 : Outcome Empty ℕ) := by decide
  have hbuy : (cheapCurve 10).getBuyPrice .checked 6 = .ok 11 := by decide
  refine ⟨hprice, hbuy, fun h => ?_⟩
  obtain ⟨price, hp, s, hs, hle⟩ := h.sufficient .checked
  rw [hprice, Outcome.ok.injEq] at hp
  rw [← hp, hbuy, Outcome.ok.injEq] at hs
  omega

/-- With a hundred lamports there it is sufficient. -/
theorem buysOut_cheapCurve : (cheapCurve 100).BuysOut 100 :=
  (buysOut_iff rfl (by decide) (by decide) (by decide)).mpr (.inl (by decide))

end BondingCurve

/-! ## The initial price -/

namespace Global

/-- A curve as it is created. -/
structure IsInitial (g : Global) (c : BondingCurve) : Prop where
  virtualTokenReserves : c.virtualTokenReserves = g.initialVirtualTokenReserves
  virtualSolReserves : c.virtualSolReserves = g.initialVirtualSolReserves
  realTokenReserves : c.realTokenReserves = g.initialRealTokenReserves
  complete : c.complete = false

/-- What the initial price divides: the square of the SOL reserves. -/
def initialQuotient (g : Global) (a : ℕ) : ℕ :=
  g.initialVirtualSolReserves * g.initialVirtualSolReserves / (g.initialVirtualSolReserves + a)

/-- What the price of a curve divides: the product of the reserves. -/
def curveQuotient (g : Global) (a : ℕ) : ℕ :=
  g.initialVirtualSolReserves * g.initialVirtualTokenReserves / (g.initialVirtualSolReserves + a)

/-- Up to the subtraction nothing leaves its word. -/
theorem getInitialBuyPrice_eq {ε : Type} (b : Build) {g : Global} {a : ℕ} (ha : 0 < a)
    (hfit : g.initialVirtualSolReserves + a < 2 ^ 64) :
    (g.getInitialBuyPrice b a : Outcome ε ℕ) =
      b.sub 64 g.initialVirtualTokenReserves (g.initialQuotient a + 1) >>= fun s =>
        .ok (min s g.initialRealTokenReserves) := by
  have hsol := g.initialVirtualSolReserves_lt
  have hproduct := Build.mul_lt_two_words hsol hsol
  have hq : g.initialQuotient a ≤ g.initialVirtualSolReserves := by
    apply Nat.div_le_of_le_mul
    exact Nat.mul_le_mul_right _ (Nat.le_add_right _ _)
  rw [initialQuotient] at hq ⊢
  rw [getInitialBuyPrice, if_neg ha.ne', b.mul_ok hproduct, Outcome.ok_bind, b.add_ok hfit,
    Outcome.ok_bind, Build.div_ok _ (by omega), Outcome.ok_bind, wrapU64_eq (by omega),
    b.add_ok (by omega), Outcome.ok_bind]
  rfl

/-- The initial price is that of the curve. -/
def PricesAgree (g : Global) (c : BondingCurve) (a : ℕ) : Prop :=
  ∀ b : Build, ∃ price, g.getInitialBuyPrice b a = (.ok price : Outcome Empty ℕ) ∧
    c.getBuyPrice b a = .ok price

/-- Both prices are the same exactly when nothing is paid, or when the square leaves tokens and
either gives the quotient of the product, or the real reserves end before both. -/
theorem pricesAgree_iff {g : Global} {c : BondingCurve} (hc : g.IsInitial c)
    (hy : 0 < g.initialVirtualTokenReserves) {a : ℕ}
    (hfit : g.initialVirtualSolReserves + a < 2 ^ 64) :
    g.PricesAgree c a ↔ a = 0 ∨ g.initialQuotient a < g.initialVirtualTokenReserves ∧
      (g.initialQuotient a = g.curveQuotient a ∨
        g.initialRealTokenReserves + g.initialQuotient a < g.initialVirtualTokenReserves ∧
        g.initialRealTokenReserves + g.curveQuotient a < g.initialVirtualTokenReserves) := by
  rcases Nat.eq_zero_or_pos a with rfl | ha
  · refine iff_of_true (fun b => ⟨0, rfl, ?_⟩) (.inl rfl)
    rw [BondingCurve.getBuyPrice, hc.complete]
    rfl
  · have hkept := kept_le g.initialVirtualSolReserves hy ha
    have hbuy : ∀ b : Build, c.getBuyPrice b a = .ok (min g.initialRealTokenReserves
        (g.initialVirtualTokenReserves - (g.curveQuotient a + 1))) := by
      intro b
      rw [BondingCurve.getBuyPrice_eq b hc.complete (hc.virtualTokenReserves ▸ hy) ha
        (hc.virtualSolReserves ▸ hfit), hc.virtualTokenReserves, hc.virtualSolReserves,
        hc.realTokenReserves]
      rfl
    rw [kept, ← curveQuotient] at hkept
    rw [PricesAgree, or_iff_right ha.ne']
    simp only [getInitialBuyPrice_eq _ ha hfit, hbuy, Outcome.ok.injEq, exists_eq_right']
    by_cases hq : g.initialQuotient a < g.initialVirtualTokenReserves
    · simp only [Build.sub_ok _ 64 hq, Outcome.ok_bind, Outcome.ok.injEq, forall_const, hq,
        true_and]
      omega
    · refine iff_of_false (fun h => ?_) fun h => hq h.1
      have hpanic := h .checked
      rw [Build.sub_checked_eq_panic 64 (by omega)] at hpanic
      cases hpanic

/-- The configuration of the initial curve. -/
def initialGlobal : Global where
  initialVirtualTokenReserves := 1073000000000000
  initialVirtualSolReserves := 30000000000
  initialRealTokenReserves := 793100000000000
  initialVirtualTokenReserves_lt := by norm_num
  initialVirtualSolReserves_lt := by norm_num
  initialRealTokenReserves_lt := by norm_num

theorem isInitial_initialCurve : initialGlobal.IsInitial BondingCurve.initialCurve :=
  ⟨rfl, rfl, rfl, rfl⟩

/-- For one SOL the initial price gives all real tokens, and the curve thirty-four million. -/
theorem not_pricesAgree_oneSol :
    initialGlobal.getInitialBuyPrice .checked 1000000000 =
        (.ok 793100000000000 : Outcome Empty ℕ) ∧
      BondingCurve.initialCurve.getBuyPrice .checked 1000000000 = .ok 34612903225806 ∧
      ¬ initialGlobal.PricesAgree BondingCurve.initialCurve 1000000000 := by
  have hinitial : initialGlobal.getInitialBuyPrice .checked 1000000000 =
      (.ok 793100000000000 : Outcome Empty ℕ) := by decide
  have hcurve : BondingCurve.initialCurve.getBuyPrice .checked 1000000000 =
      .ok 34612903225806 := by decide
  refine ⟨hinitial, hcurve, fun h => ?_⟩
  obtain ⟨price, hp, hq⟩ := h .checked
  rw [hinitial, Outcome.ok.injEq] at hp
  rw [hcurve, Outcome.ok.injEq, ← hp] at hq
  omega

/-- For a hundred SOL both give all real tokens. -/
theorem pricesAgree_hundredSol :
    initialGlobal.PricesAgree BondingCurve.initialCurve 100000000000 :=
  (pricesAgree_iff isInitial_initialCurve (by decide) (by decide)).mpr (by decide)

end Global

end Biscuit.Swap
