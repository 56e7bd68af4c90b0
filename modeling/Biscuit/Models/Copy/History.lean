import Biscuit.Models.Copy.Details
import Mathlib.Logic.Function.Basic

/-!
# The trade history of the direct mode

One entry per wallet and token holds what the origin wallet and the executing wallet
bought and sold since the entry was created. Volumes in tokens are 64-bit words, volumes
in dollars and in SOL are floating point.
-/

namespace Biscuit.Copy

/-- The side of a trade. -/
inductive TradeDirection
  | buy
  | sell
  deriving DecidableEq, Repr

/-- The accumulated volumes of one wallet in one token. -/
structure TradeHistory where
  buyVolumeToken : ℕ := 0
  sellVolumeToken : ℕ := 0
  buyVolumeUsd : F64 := .fin 0
  sellVolumeUsd : F64 := .fin 0
  buyVolumeSol : F64 := .fin 0
  sellVolumeSol : F64 := .fin 0
  deriving DecidableEq, Repr

/-- The history of an origin wallet and of the executing wallet in one token. -/
structure CopyHistory where
  origin : TradeHistory := {}
  exec : TradeHistory := {}
  token : Pubkey := 0
  deriving DecidableEq, Repr

/-- The entries by origin wallet and token. -/
abbrev HistoricalTrades := Pubkey × Pubkey → Option CopyHistory

/-- What one recorded trade contributed to the volumes. -/
structure TradeVolume where
  execVolumeToken : ℕ
  execVolumeUsd : F64
  execVolumeSol : F64
  originVolumeToken : ℕ
  originVolumeUsd : F64
  originVolumeSol : F64
  dustTokenAmount : ℕ
  deriving DecidableEq, Repr

/-- The part of a recorded trade that the history counts: the dust stays out. -/
def TradeVolume.netVolumeToken (v : TradeVolume) : ℕ := v.execVolumeToken - v.dustTokenAmount

/-- Why a trade is not recorded. -/
inductive TradeError
  /-- Can't track trades for SOL | USDC | USDT -/
  | staticToken
  /-- Dust bps is greater than 100% -/
  | dustBps
  deriving DecidableEq, Repr

namespace HistoricalTrades

/-- No trades. -/
def empty : HistoricalTrades := fun _ => none

/-- Replace or create one entry. -/
def insert (h : HistoricalTrades) (key : Pubkey × Pubkey) (entry : CopyHistory) :
    HistoricalTrades := Function.update h key (some entry)

/-- `remove_history` -/
def remove (h : HistoricalTrades) (key : Pubkey × Pubkey) : HistoricalTrades :=
  Function.update h key none

@[simp] theorem insert_self (h : HistoricalTrades) (key : Pubkey × Pubkey)
    (entry : CopyHistory) : h.insert key entry key = some entry :=
  Function.update_self ..

theorem insert_of_ne {h : HistoricalTrades} {key key' : Pubkey × Pubkey}
    (entry : CopyHistory) (hne : key' ≠ key) : h.insert key entry key' = h key' :=
  Function.update_of_ne hne ..

@[simp] theorem remove_self (h : HistoricalTrades) (key : Pubkey × Pubkey) :
    h.remove key key = none :=
  Function.update_self ..

theorem remove_of_ne {h : HistoricalTrades} {key key' : Pubkey × Pubkey}
    (hne : key' ≠ key) : h.remove key key' = h key' :=
  Function.update_of_ne hne ..

end HistoricalTrades

/-- The volumes one wallet adds to its history with a buy. -/
def TradeHistory.addBuy (t : TradeHistory) (token : ℕ) (usd sol : F64) : TradeHistory :=
  { t with
    buyVolumeToken := wrapU64 (t.buyVolumeToken + token)
    buyVolumeUsd := t.buyVolumeUsd + usd
    buyVolumeSol := t.buyVolumeSol + sol }

/-- The volumes one wallet adds to its history with a sell. -/
def TradeHistory.addSell (t : TradeHistory) (token : ℕ) (usd sol : F64) : TradeHistory :=
  { t with
    sellVolumeToken := wrapU64 (t.sellVolumeToken + token)
    sellVolumeUsd := t.sellVolumeUsd + usd
    sellVolumeSol := t.sellVolumeSol + sol }

/-- The volumes of one trade, in the order in which `insert_trade_inner` takes them. -/
structure TradeEntry where
  execVolumeToken : ℕ
  originVolumeToken : ℕ
  execVolumeUsd : F64
  originVolumeUsd : F64
  execVolumeSol : F64
  originVolumeSol : F64
  dustVolumeToken : ℕ

/-- An entry after one more trade, the dust left out of the executed volume. -/
def CopyHistory.addTrade (c : CopyHistory) (token : Pubkey) (v : TradeEntry) :
    TradeDirection → CopyHistory
  | .buy =>
    { origin := c.origin.addBuy v.originVolumeToken v.originVolumeUsd v.originVolumeSol
      exec := c.exec.addBuy (wrapSubU64 v.execVolumeToken v.dustVolumeToken) v.execVolumeUsd
        v.execVolumeSol
      token }
  | .sell =>
    { origin := c.origin.addSell v.originVolumeToken v.originVolumeUsd v.originVolumeSol
      exec := c.exec.addSell (wrapSubU64 v.execVolumeToken v.dustVolumeToken) v.execVolumeUsd
        v.execVolumeSol
      token }

namespace HistoricalTrades

/-- `insert_trade_inner`: an absent entry starts from the default. -/
def insertTradeInner (h : HistoricalTrades) (originWallet token : Pubkey) (v : TradeEntry)
    (direction : TradeDirection) : Except TradeError HistoricalTrades :=
  if isStaticToken token then .error .staticToken
  else
    let history := (h (originWallet, token)).getD {}
    .ok (h.insert (originWallet, token) (history.addTrade token v direction))

/-- The part of a buy that is kept out of the history. -/
def dustVolume (r : Rounding) (execVolumeToken : ℕ) (direction : TradeDirection)
    (moonbagBps : Option ℕ) : Except TradeError ℕ :=
  match direction with
  | .buy =>
    let dustBps := moonbagBps.getD 0
    if 10000 < dustBps then .error .dustBps
    else .ok (r.mul (r.div (r.ofNat dustBps) (r.ofNat 10000)) (r.ofNat execVolumeToken)).trunc.toU64
  | .sell => .ok 0

/-- A token amount in units of the token, priced: `10_u32.pow` wraps past nine decimals. -/
def priced (volumeToken : ℕ) (price : F64) (tokenDecimals : ℕ) : F64 :=
  F64.ofNat volumeToken * price / F64.ofNat (10 ^ tokenDecimals % 2 ^ 32)

/-- `insert_trade`: price the volumes, take the dust of a buy, and record the trade. -/
def insertTrade (h : HistoricalTrades) (r : Rounding) (originWallet token : Pubkey)
    (tokenDecimals execVolumeToken originVolumeToken : ℕ)
    (execPriceUsd execPriceSol originPriceUsd originPriceSol : F64)
    (direction : TradeDirection) (moonbagBps : Option ℕ) :
    Except TradeError (HistoricalTrades × TradeVolume) :=
  if isStaticToken token then .error .staticToken
  else
    match dustVolume r execVolumeToken direction moonbagBps with
    | .error e => .error e
    | .ok dust =>
      let v : TradeEntry :=
        { execVolumeToken
          originVolumeToken
          execVolumeUsd := priced execVolumeToken execPriceUsd tokenDecimals
          originVolumeUsd := priced originVolumeToken originPriceUsd tokenDecimals
          execVolumeSol := priced execVolumeToken execPriceSol tokenDecimals
          originVolumeSol := priced originVolumeToken originPriceSol tokenDecimals
          dustVolumeToken := dust }
      match h.insertTradeInner originWallet token v direction with
      | .error e => .error e
      | .ok h' =>
        .ok (h',
          { execVolumeToken
            execVolumeUsd := v.execVolumeUsd
            execVolumeSol := v.execVolumeSol
            originVolumeToken
            originVolumeUsd := v.originVolumeUsd
            originVolumeSol := v.originVolumeSol
            dustTokenAmount := dust })

/-- The dust of a buy is part of it. -/
def DustWithin (r : Rounding) (execVolumeToken : ℕ) (moonbagBps : Option ℕ) : Prop :=
  ∀ dust ∈ (dustVolume r execVolumeToken .buy moonbagBps).toOption, dust ≤ execVolumeToken

instance (r : Rounding) (execVolumeToken : ℕ) (moonbagBps : Option ℕ) :
    Decidable (DustWithin r execVolumeToken moonbagBps) :=
  inferInstanceAs (Decidable (∀ dust ∈ (dustVolume _ _ _ _).toOption, _))

theorem dustVolume_le_of_within {r : Rounding} {execVolumeToken dust : ℕ}
    {moonbagBps : Option ℕ} (h : DustWithin r execVolumeToken moonbagBps)
    (hdust : dustVolume r execVolumeToken .buy moonbagBps = .ok dust) : dust ≤ execVolumeToken := by
  apply h
  rw [hdust]
  rfl

/-- Only where all of a buy is dust can rounding make its dust more than it. -/
theorem dustWithin_of_lt (r : Rounding) (execVolumeToken : ℕ) {moonbagBps : ℕ}
    (h : moonbagBps < 10000) : DustWithin r execVolumeToken (some moonbagBps) := by
  intro dust hdust
  rw [dustVolume, Option.getD_some, if_neg (not_lt.mpr h.le)] at hdust
  obtain rfl := Option.some.inj hdust
  exact r.toU64_trunc_share_le (by decide) (by omega) execVolumeToken

theorem dustVolume_lt {r : Rounding} {execVolumeToken : ℕ} {direction : TradeDirection}
    {moonbagBps : Option ℕ} {dust : ℕ}
    (h : dustVolume r execVolumeToken direction moonbagBps = .ok dust) : dust < 2 ^ 64 := by
  cases direction with
  | sell =>
    obtain rfl := Except.ok.inj h
    exact Nat.two_pow_pos 64
  | buy =>
    simp only [dustVolume] at h
    split at h
    · cases h
    · obtain rfl := Except.ok.inj h
      exact F64.toU64_lt _

/-- Computed exactly, the dust of a trade is part of it. -/
theorem dustVolume_le {execVolumeToken : ℕ} {direction : TradeDirection}
    {moonbagBps : Option ℕ} {dust : ℕ}
    (h : dustVolume .exact execVolumeToken direction moonbagBps = .ok dust) :
    dust ≤ execVolumeToken := by
  cases direction with
  | sell =>
    simp only [dustVolume, Except.ok.injEq] at h
    omega
  | buy =>
    simp only [dustVolume] at h
    split at h
    · contradiction
    · rename_i hbps
      simp only [Except.ok.injEq] at h
      rw [← h, Rounding.exact_mul, Rounding.exact_div, Rounding.exact_ofNat, Rounding.exact_ofNat,
        Rounding.exact_ofNat, F64.toU64_trunc_ratio_mul _ (by decide)]
      refine (min_le_left _ _).trans (Nat.div_le_of_le_mul ?_)
      exact Nat.mul_le_mul_right _ (by omega)

/-- A trade is recorded exactly when its token is tracked and its dust is a share of it;
the recorded entry is the old one with the trade added, and no other entry changes. -/
theorem insertTrade_ok {h h' : HistoricalTrades} {r : Rounding} {originWallet token : Pubkey}
    {tokenDecimals execVolumeToken originVolumeToken : ℕ}
    {execPriceUsd execPriceSol originPriceUsd originPriceSol : F64}
    {direction : TradeDirection} {moonbagBps : Option ℕ} {v : TradeVolume}
    (hok : h.insertTrade r originWallet token tokenDecimals execVolumeToken originVolumeToken
      execPriceUsd execPriceSol originPriceUsd originPriceSol direction moonbagBps =
        .ok (h', v)) :
    isStaticToken token = false ∧ v.execVolumeToken = execVolumeToken ∧
    v.originVolumeToken = originVolumeToken ∧
    dustVolume r execVolumeToken direction moonbagBps = .ok v.dustTokenAmount ∧
    h' = h.insert (originWallet, token)
      (((h (originWallet, token)).getD {}).addTrade token
        ⟨v.execVolumeToken, v.originVolumeToken, v.execVolumeUsd, v.originVolumeUsd,
          v.execVolumeSol, v.originVolumeSol, v.dustTokenAmount⟩ direction) := by
  unfold insertTrade at hok
  split at hok
  · contradiction
  · rename_i hs
    have hstatic : isStaticToken token = false := by simpa using hs
    split at hok
    · contradiction
    · rename_i dust hdust
      simp only [insertTradeInner, hstatic, Bool.false_eq_true, if_false, Except.ok.injEq,
        Prod.mk.injEq] at hok
      obtain ⟨rfl, rfl⟩ := hok
      exact ⟨hstatic, rfl, rfl, hdust, rfl⟩

/-- A sell of a tracked token is always recorded. -/
theorem exists_insertTrade_sell (h : HistoricalTrades) (r : Rounding) (originWallet token : Pubkey)
    (tokenDecimals execVolumeToken originVolumeToken : ℕ)
    (execPriceUsd execPriceSol originPriceUsd originPriceSol : F64) (moonbagBps : Option ℕ)
    (htoken : isStaticToken token = false) :
    ∃ h' v, h.insertTrade r originWallet token tokenDecimals execVolumeToken originVolumeToken
      execPriceUsd execPriceSol originPriceUsd originPriceSol .sell moonbagBps =
        .ok (h', v) := by
  simp only [insertTrade, htoken, Bool.false_eq_true, if_false, dustVolume, insertTradeInner,
    Except.ok.injEq, Prod.mk.injEq, exists_and_left, exists_eq', and_true]

end HistoricalTrades

end Biscuit.Copy
