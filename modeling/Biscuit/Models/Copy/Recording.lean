import Biscuit.Core.Checked
import Biscuit.Models.Copy.DerivedPrices

/-!
# Success handling with all that can panic

`handle_success_txn` unwraps what it takes for granted, asserts the mints of what it records,
runs the parser on the transaction it is about, and computes with powers and sums of fixed size.
A failing `expect`, `unwrap` or `debug_assert` of its own is told apart from a panic of what it
calls or computes.
-/

namespace Biscuit.Copy

/-! ## Volumes in a build -/

/-- The volumes one wallet adds to its history with a buy. -/
def TradeHistory.addBuyIn {ε : Type} (b : Build) (t : TradeHistory) (token : ℕ) (usd sol : F64) :
    Outcome ε TradeHistory := do
  let total ← b.add 64 t.buyVolumeToken token
  pure
    { t with
      buyVolumeToken := total
      buyVolumeUsd := t.buyVolumeUsd + usd
      buyVolumeSol := t.buyVolumeSol + sol }

/-- The volumes one wallet adds to its history with a sell. -/
def TradeHistory.addSellIn {ε : Type} (b : Build) (t : TradeHistory) (token : ℕ)
    (usd sol : F64) : Outcome ε TradeHistory := do
  let total ← b.add 64 t.sellVolumeToken token
  pure
    { t with
      sellVolumeToken := total
      sellVolumeUsd := t.sellVolumeUsd + usd
      sellVolumeSol := t.sellVolumeSol + sol }

/-- The volumes that a trade adds to, in its direction. -/
def TradeHistory.addIn {ε : Type} (b : Build) (t : TradeHistory) (token : ℕ) (usd sol : F64) :
    TradeDirection → Outcome ε TradeHistory
  | .buy => t.addBuyIn b token usd sol
  | .sell => t.addSellIn b token usd sol

/-- What was bought or sold so far. -/
def TradeHistory.volume (t : TradeHistory) : TradeDirection → ℕ
  | .buy => t.buyVolumeToken
  | .sell => t.sellVolumeToken

/-- The history after a sum that wraps. -/
def TradeHistory.added (t : TradeHistory) (token : ℕ) (usd sol : F64) :
    TradeDirection → TradeHistory
  | .buy => t.addBuy token usd sol
  | .sell => t.addSell token usd sol

/-- A sum that fits where that is checked. -/
theorem TradeHistory.addIn_of_fits {ε : Type} {b : Build} {t : TradeHistory} {token : ℕ}
    {direction : TradeDirection} (h : b = .checked → t.volume direction + token < 2 ^ 64)
    (usd sol : F64) :
    (t.addIn b token usd sol direction : Outcome ε TradeHistory) =
      .ok (t.added token usd sol direction) := by
  cases direction with
  | buy =>
    have hfits : b = .checked → t.buyVolumeToken + token < 2 ^ 64 := h
    rw [addIn, addBuyIn, Build.add, Build.word_of_fits hfits]
    rfl
  | sell =>
    have hfits : b = .checked → t.sellVolumeToken + token < 2 ^ 64 := h
    rw [addIn, addSellIn, Build.add, Build.word_of_fits hfits]
    rfl

theorem TradeHistory.addIn_eq_panic_iff {ε : Type} {b : Build} {t : TradeHistory} {token : ℕ}
    {direction : TradeDirection} {usd sol : F64} :
    (t.addIn b token usd sol direction : Outcome ε TradeHistory) = .panic ↔
      b = .checked ∧ 2 ^ 64 ≤ t.volume direction + token := by
  cases direction with
  | buy =>
    rw [addIn, addBuyIn, Outcome.bind_eq_panic, Build.add, Build.word_eq_panic_iff]
    simp [volume]
  | sell =>
    rw [addIn, addSellIn, Outcome.bind_eq_panic, Build.add, Build.word_eq_panic_iff]
    simp [volume]

/-- What is left when the dust is taken off: exactly that in a build that checks, and the same word
in any build. -/
structure Nets (b : Build) (volume dust net : ℕ) : Prop where
  word : wrapU64 net = wrapSubU64 volume dust
  exact : b = .checked → net = volume - dust

/-- Dust that is part of a volume where that is checked can be taken off. -/
theorem exists_nets {ε : Type} {b : Build} {volume dust : ℕ} (hword : dust < 2 ^ 64)
    (h : b = .checked → dust ≤ volume) :
    ∃ net, (b.sub 64 volume dust : Outcome ε ℕ) = .ok net ∧ Nets b volume dust net := by
  by_cases hle : dust ≤ volume
  · exact ⟨volume - dust, b.sub_ok 64 hle, (wrapSubU64_of_le hle).symm, fun _ => rfl⟩
  · cases b with
    | checked => exact absurd (h rfl) hle
    | wrapping =>
      refine ⟨volume + 2 ^ 64 - dust, if_neg hle, ?_, fun hb => by cases hb⟩
      simp only [wrapU64, wrapSubU64]
      omega

/-- Taking the dust off first or in words makes no difference to a sum that wraps. -/
theorem TradeHistory.added_nets (t : TradeHistory) {b : Build} {volume dust net : ℕ}
    (h : Nets b volume dust net) (usd sol : F64) (direction : TradeDirection) :
    t.added net usd sol direction = t.added (wrapSubU64 volume dust) usd sol direction := by
  have hsum : ∀ n, wrapU64 (n + net) = wrapU64 (n + wrapSubU64 volume dust) := by
    intro n
    rw [← h.word]
    simp only [wrapU64, Nat.add_mod_mod]
  cases direction with
  | buy => simp only [added, addBuy, hsum]
  | sell => simp only [added, addSell, hsum]

/-! ## Recording in a build -/

namespace HistoricalTrades

/-- `insert_trade` in a build: the four powers of ten come before the sums. -/
def insertTradeIn (b : Build) (h : HistoricalTrades) (r : Rounding)
    (originWallet token : Pubkey) (tokenDecimals execVolumeToken originVolumeToken : ℕ)
    (execPriceUsd execPriceSol originPriceUsd originPriceSol : F64)
    (direction : TradeDirection) (moonbagBps : Option ℕ) :
    Outcome TradeError (HistoricalTrades × TradeVolume) :=
  if isStaticToken token then .err .staticToken
  else do
    let dust ← Outcome.ofExcept (dustVolume r execVolumeToken direction moonbagBps)
    let factor ← b.pow 32 10 tokenDecimals
    let execVolumeUsd := F64.ofNat execVolumeToken * execPriceUsd / F64.ofNat factor
    let originVolumeUsd := F64.ofNat originVolumeToken * originPriceUsd / F64.ofNat factor
    let execVolumeSol := F64.ofNat execVolumeToken * execPriceSol / F64.ofNat factor
    let originVolumeSol := F64.ofNat originVolumeToken * originPriceSol / F64.ofNat factor
    let history := (h (originWallet, token)).getD {}
    let net ← b.sub 64 execVolumeToken dust
    let origin ← history.origin.addIn b originVolumeToken originVolumeUsd originVolumeSol direction
    let exec ← history.exec.addIn b net execVolumeUsd execVolumeSol direction
    pure (h.insert (originWallet, token) { origin, exec, token },
      { execVolumeToken
        execVolumeUsd
        execVolumeSol
        originVolumeToken
        originVolumeUsd
        originVolumeSol
        dustTokenAmount := dust })

end HistoricalTrades

/-- The execution count of a token goes up by one, in a word of eight bits. -/
def PingTracker.countIn {ε : Type} (b : Build) (t : PingTracker) (token : Pubkey) :
    Outcome ε (Pubkey → Option Ping) :=
  match t.pings token with
  | none => .ok t.pings
  | some ping => do
    let executionCount ← b.add 8 ping.executionCount 1
    pure (Function.update t.pings token (some { ping with executionCount }))

/-- `insert_execution` in a build. -/
def PingTracker.insertExecutionIn (b : Build) (t : PingTracker) (r : Rounding)
    (token : Pubkey) (tokenDecimals volumeToken : ℕ) (tokenPriceUsd tokenPriceSol : F64)
    (direction : TradeDirection) (moonbagBps : Option ℕ) :
    Outcome TradeError (PingTracker × PingExecutionVolume) := do
  let factor ← b.pow 32 10 tokenDecimals
  let volumeUsd := F64.ofNat volumeToken * tokenPriceUsd / F64.ofNat factor
  let volumeSol := F64.ofNat volumeToken * tokenPriceSol / F64.ofNat factor
  let dust ← Outcome.ofExcept (dustAmount r volumeToken direction moonbagBps)
  let volumeToken ← b.sub 64 volumeToken dust
  let history ← ((t.execution token).getD {}).addIn b volumeToken volumeUsd volumeSol direction
  let pings ← t.countIn b token
  pure ({ t with pings, execution := Function.update t.execution token (some history) },
    ⟨volumeToken, volumeUsd, volumeSol, dust, pings token⟩)

/-- A side can be recorded in a build that checks: its power of ten fits 32 bits, and the sums fit
theirs. A side that is refused is not summed. -/
def SideFits (cfg : CopyConfig) (s : Shared) (d : CopyDetails) (token : Pubkey)
    (decimals execVolume originVolume : ℕ) (direction : TradeDirection) : Prop :=
  match d.walletConfig.mode with
  | .direct => isStaticToken token = false →
      ∀ dust, HistoricalTrades.dustVolume cfg.rounding execVolume direction
          (some cfg.moonbagBps) = .ok dust →
        decimals ≤ 9 ∧ dust ≤ execVolume ∧
        ((s.history (d.originSigner, token)).getD {}).origin.volume direction + originVolume <
          2 ^ 64 ∧
        ((s.history (d.originSigner, token)).getD {}).exec.volume direction +
          (execVolume - dust) < 2 ^ 64
  | .ping => ∀ t ∈ s.pingTracker, decimals ≤ 9 ∧
      ∀ dust, PingTracker.dustAmount cfg.rounding execVolume direction (some cfg.moonbagBps) =
          .ok dust →
        dust ≤ execVolume ∧
        ((t.execution token).getD {}).volume direction + (execVolume - dust) < 2 ^ 64 ∧
        ∀ ping ∈ t.pings token, ping.executionCount + 1 < 2 ^ 8

/-! ### A side is recorded unless it does not fit -/

theorem pow_ten_of_fits {ε : Type} {b : Build} {decimals : ℕ} (h : b = .checked → decimals ≤ 9) :
    (b.pow 32 10 decimals : Outcome ε ℕ) = .ok (10 ^ decimals % 2 ^ 32) :=
  Build.word_of_fits fun hb => (pow_ten_lt_iff decimals).mpr (h hb)

theorem pow_ten_checked {ε : Type} {decimals : ℕ} (h : ¬ decimals ≤ 9) :
    (Build.checked.pow 32 10 decimals : Outcome ε ℕ) = .panic := by
  rw [← pow_ten_lt_iff, Nat.not_lt] at h
  exact Build.word_checked_eq_panic h

theorem HistoricalTrades.insertTradeIn_of_fits {b : Build} {h : HistoricalTrades}
    {r : Rounding} {originWallet token : Pubkey} {decimals execVolume originVolume : ℕ}
    {direction : TradeDirection} {moonbagBps : Option ℕ}
    (hfits : b = .checked → isStaticToken token = false →
      ∀ dust, dustVolume r execVolume direction moonbagBps = .ok dust →
        decimals ≤ 9 ∧ dust ≤ execVolume ∧
        ((h (originWallet, token)).getD {}).origin.volume direction + originVolume < 2 ^ 64 ∧
        ((h (originWallet, token)).getD {}).exec.volume direction + (execVolume - dust) < 2 ^ 64)
    (execPriceUsd execPriceSol originPriceUsd originPriceSol : F64) :
    h.insertTradeIn b r originWallet token decimals execVolume originVolume execPriceUsd
        execPriceSol originPriceUsd originPriceSol direction moonbagBps =
      Outcome.ofExcept (h.insertTrade r originWallet token decimals execVolume originVolume
        execPriceUsd execPriceSol originPriceUsd originPriceSol direction moonbagBps) := by
  unfold insertTradeIn insertTrade
  by_cases hstatic : isStaticToken token = true
  · rw [if_pos hstatic, if_pos hstatic]
    rfl
  · have htoken : isStaticToken token = false := by simpa using hstatic
    rw [if_neg hstatic, if_neg hstatic]
    cases hdust : dustVolume r execVolume direction moonbagBps with
    | error e => rfl
    | ok dust =>
      have hfits' := fun hb => hfits hb htoken dust hdust
      obtain ⟨net, hnet, hnets⟩ := exists_nets (ε := TradeError) (dustVolume_lt hdust)
        fun hb => (hfits' hb).2.1
      have hexec : b = .checked →
          ((h (originWallet, token)).getD {}).exec.volume direction + net < 2 ^ 64 := by
        intro hb
        rw [hnets.exact hb]
        exact (hfits' hb).2.2.2
      simp only [Outcome.ofExcept_ok, Outcome.ok_bind,
        pow_ten_of_fits fun hb => (hfits' hb).1, hnet,
        TradeHistory.addIn_of_fits fun hb => (hfits' hb).2.2.1,
        TradeHistory.addIn_of_fits hexec, Outcome.pure_eq,
        insertTradeInner, htoken, Bool.false_eq_true, if_false, Outcome.ok.injEq]
      rw [TradeHistory.added_nets _ hnets]
      cases direction <;> rfl

/-- In a build that checks, a trade that does not fit panics. -/
theorem HistoricalTrades.insertTradeIn_checked {h : HistoricalTrades} {r : Rounding}
    {originWallet token : Pubkey} {decimals execVolume originVolume dust : ℕ}
    {direction : TradeDirection} {moonbagBps : Option ℕ} (htoken : isStaticToken token = false)
    (hdust : dustVolume r execVolume direction moonbagBps = .ok dust)
    (hfits : ¬ (decimals ≤ 9 ∧ dust ≤ execVolume ∧
      ((h (originWallet, token)).getD {}).origin.volume direction + originVolume < 2 ^ 64 ∧
      ((h (originWallet, token)).getD {}).exec.volume direction + (execVolume - dust) < 2 ^ 64))
    (execPriceUsd execPriceSol originPriceUsd originPriceSol : F64) :
    h.insertTradeIn .checked r originWallet token decimals execVolume originVolume execPriceUsd
      execPriceSol originPriceUsd originPriceSol direction moonbagBps = .panic := by
  unfold insertTradeIn
  simp only [htoken, hdust, Bool.false_eq_true, if_false, Outcome.ofExcept_ok, Outcome.ok_bind]
  by_cases hpow : decimals ≤ 9
  · simp only [pow_ten_of_fits fun _ => hpow, Outcome.ok_bind]
    by_cases hle : dust ≤ execVolume
    · simp only [Build.checked.sub_ok 64 hle, Outcome.ok_bind]
      by_cases horigin :
          ((h (originWallet, token)).getD {}).origin.volume direction + originVolume < 2 ^ 64
      · simp only [TradeHistory.addIn_of_fits fun _ => horigin, Outcome.ok_bind]
        have hexec : 2 ^ 64 ≤ ((h (originWallet, token)).getD {}).exec.volume direction +
            (execVolume - dust) :=
          Nat.le_of_not_lt fun hlt => hfits ⟨hpow, hle, horigin, hlt⟩
        simp only [TradeHistory.addIn_eq_panic_iff.mpr ⟨rfl, hexec⟩, Outcome.panic_bind]
      · simp only [TradeHistory.addIn_eq_panic_iff.mpr ⟨rfl, Nat.le_of_not_lt horigin⟩,
          Outcome.panic_bind]
    · simp only [Build.sub_checked_eq_panic 64 (Nat.lt_of_not_le hle), Outcome.panic_bind]
  · simp only [pow_ten_checked hpow, Outcome.panic_bind]

/-- The dust of an execution is part of it. -/
theorem PingTracker.dustAmount_le {r : Rounding} {volume : ℕ} {direction : TradeDirection}
    {moonbagBps : Option ℕ} {dust : ℕ} (h : dustAmount r volume direction moonbagBps = .ok dust) :
    dust ≤ volume := by
  cases direction with
  | sell =>
    simp only [dustAmount, Except.ok.injEq] at h
    omega
  | buy =>
    simp only [dustAmount] at h
    split at h
    · contradiction
    · rename_i hbps
      obtain rfl := Except.ok.inj h
      exact r.toU64_trunc_share_le (by decide) (by omega) volume

/-- The pings after a count that wraps. -/
def PingTracker.counted (t : PingTracker) (token : Pubkey) : Pubkey → Option Ping :=
  match t.pings token with
  | none => t.pings
  | some ping => Function.update t.pings token
      (some { ping with executionCount := (ping.executionCount + 1) % 2 ^ 8 })

theorem PingTracker.countIn_of_fits {ε : Type} {b : Build} {t : PingTracker} {token : Pubkey}
    (h : b = .checked → ∀ ping ∈ t.pings token, ping.executionCount + 1 < 2 ^ 8) :
    (t.countIn b token : Outcome ε (Pubkey → Option Ping)) = .ok (t.counted token) := by
  unfold countIn counted
  cases hp : t.pings token with
  | none => rfl
  | some ping =>
    have hfits : b = .checked → ping.executionCount + 1 < 2 ^ 8 := fun hb => h hb ping hp
    simp only [Build.add, Build.word_of_fits hfits, Outcome.ok_bind, Outcome.pure_eq]

theorem PingTracker.countIn_checked {ε : Type} {t : PingTracker} {token : Pubkey}
    (h : ¬ ∀ ping ∈ t.pings token, ping.executionCount + 1 < 2 ^ 8) :
    (t.countIn .checked token : Outcome ε (Pubkey → Option Ping)) = .panic := by
  unfold countIn
  cases hp : t.pings token with
  | none =>
    rw [hp] at h
    exact absurd (fun ping hping => by cases hping) h
  | some ping =>
    have hcount : 2 ^ 8 ≤ ping.executionCount + 1 := by
      by_contra hlt
      apply h
      intro ping' hping
      obtain rfl := Option.some.inj (hp.symm.trans hping)
      exact Nat.lt_of_not_le hlt
    simp only [Build.add, Build.word_checked_eq_panic hcount, Outcome.panic_bind]

/-- An execution that fits is recorded as in a build that wraps. -/
theorem PingTracker.insertExecutionIn_of_fits {b : Build} {t : PingTracker} {r : Rounding}
    {token : Pubkey} {decimals volume : ℕ} {direction : TradeDirection} {moonbagBps : Option ℕ}
    (hfits : b = .checked → decimals ≤ 9 ∧
      ∀ dust, dustAmount r volume direction moonbagBps = .ok dust →
        dust ≤ volume ∧
        ((t.execution token).getD {}).volume direction + (volume - dust) < 2 ^ 64 ∧
        ∀ ping ∈ t.pings token, ping.executionCount + 1 < 2 ^ 8)
    (priceUsd priceSol : F64) :
    (∃ e, t.insertExecution r token decimals volume priceUsd priceSol direction moonbagBps =
        .error e ∧
      t.insertExecutionIn b r token decimals volume priceUsd priceSol direction moonbagBps =
        .err e) ∨
    ∃ t' v v', t.insertExecution r token decimals volume priceUsd priceSol direction moonbagBps =
        .ok (t', v) ∧
      t.insertExecutionIn b r token decimals volume priceUsd priceSol direction moonbagBps =
        .ok (t', v') := by
  unfold insertExecution insertExecutionIn
  simp only [pow_ten_of_fits fun hb => (hfits hb).1, Outcome.ok_bind, pow10]
  cases hdust : dustAmount r volume direction moonbagBps with
  | error e => exact .inl ⟨e, rfl, rfl⟩
  | ok dust =>
    have hle := dustAmount_le hdust
    have hnets : Nets b volume dust (volume - dust) :=
      ⟨(wrapSubU64_of_le hle).symm, fun _ => rfl⟩
    have hfits' := fun hb => (hfits hb).2 dust hdust
    right
    simp only [Outcome.ofExcept_ok, Outcome.ok_bind, b.sub_ok 64 hle,
      TradeHistory.addIn_of_fits fun hb => (hfits' hb).2.1,
      countIn_of_fits fun hb => (hfits' hb).2.2, Outcome.pure_eq,
      TradeHistory.added_nets _ hnets]
    cases direction with
    | buy => exact ⟨_, _, _, rfl, rfl⟩
    | sell => exact ⟨_, _, _, rfl, rfl⟩

theorem PingTracker.insertExecutionIn_checked {t : PingTracker} {r : Rounding}
    {token : Pubkey} {decimals volume : ℕ} {direction : TradeDirection} {moonbagBps : Option ℕ}
    (hfits : ¬ (decimals ≤ 9 ∧
      ∀ dust, dustAmount r volume direction moonbagBps = .ok dust →
        dust ≤ volume ∧
        ((t.execution token).getD {}).volume direction + (volume - dust) < 2 ^ 64 ∧
        ∀ ping ∈ t.pings token, ping.executionCount + 1 < 2 ^ 8))
    (priceUsd priceSol : F64) :
    t.insertExecutionIn .checked r token decimals volume priceUsd priceSol direction moonbagBps =
      .panic := by
  unfold insertExecutionIn
  by_cases hpow : decimals ≤ 9
  · obtain ⟨dust, hdust, hnot⟩ : ∃ dust, dustAmount r volume direction moonbagBps = .ok dust ∧
        ¬ (dust ≤ volume ∧
          ((t.execution token).getD {}).volume direction + (volume - dust) < 2 ^ 64 ∧
          ∀ ping ∈ t.pings token, ping.executionCount + 1 < 2 ^ 8) := by
      by_contra hall
      exact hfits ⟨hpow, fun dust hdust => not_not.mp fun h => hall ⟨dust, hdust, h⟩⟩
    have hle := dustAmount_le hdust
    simp only [pow_ten_of_fits fun _ => hpow, hdust, Outcome.ofExcept_ok, Outcome.ok_bind,
      Build.checked.sub_ok 64 hle]
    by_cases hsum : ((t.execution token).getD {}).volume direction + (volume - dust) < 2 ^ 64
    · have hcount : ¬ ∀ ping ∈ t.pings token, ping.executionCount + 1 < 2 ^ 8 :=
        fun h => hnot ⟨hle, hsum, h⟩
      simp only [TradeHistory.addIn_of_fits fun _ => hsum, Outcome.ok_bind,
        countIn_checked hcount, Outcome.panic_bind]
    · simp only [TradeHistory.addIn_eq_panic_iff.mpr ⟨rfl, Nat.le_of_not_lt hsum⟩,
        Outcome.panic_bind]
  · simp only [pow_ten_checked hpow, Outcome.panic_bind]

/-! ## The handling -/

/-- What a confirmed swap has left so far: the shared state and the trades. -/
abbrev Recorded : Type := Shared × List CopyTrade

/-- How success handling stops before its end, other than by a panic of what it calls or
computes. -/
inductive SuccessStop
  /-- It returns with what it has recorded so far. -/
  | returned (r : Recorded)
  /-- One of its own `expect`s, `unwrap`s or `debug_assert!`s fails. -/
  | refuted

/-- `debug_assert!`, which a release build leaves out. -/
def debugAssert (b : Build) (c : Prop) [Decidable c] : Outcome SuccessStop Unit :=
  match b with
  | .checked => if c then .ok () else .err .refuted
  | .wrapping => .ok ()

/-- What is read of a confirmed transaction. -/
structure FetchedTransaction where
  preBalances : Option (List ℕ)
  postBalances : Option (List ℕ)
  /-- The output amount of the swap that the parser finds, if it does not panic. -/
  parsed : Outcome Unit (Option ℕ)
  /-- What the copying wallet held of the output mint before, where that is stated. -/
  preBalance : Option F64
  /-- What it holds afterwards, with the decimals of the mint. -/
  postBalance : Option (F64 × ℕ)

/-- The amount received, told from the balances: in lamports for SOL, else in tokens. The balances
in tokens are numbers. -/
def FetchedTransaction.balanceOut (b : Build) (tx : FetchedTransaction) (outputMint : Pubkey)
    (lastFeeLamports postLamports : ℕ) : Outcome Unit ℕ :=
  if outputMint = SOL then
    let preLamports := (tx.preBalances.getD []).head?.getD 0
    .ok (postLamports - (preLamports - lastFeeLamports))
  else do
    let (postBalance, decimals) ← Outcome.ofOption () tx.postBalance
    let preBalance := tx.preBalance.getD (.fin 0)
    if F64.lt preBalance postBalance then do
      let factor ← b.pow 32 10 decimals
      .ok ((postBalance - preBalance) * F64.ofNat factor).trunc.toU64
    else .err ()

/-- The closure `get_amount_out` of `handle_success_txn`: the amount received and the lamports
left. -/
def getAmountOut (b : Build) (outputMint : Pubkey) (lastFeeLamports : ℕ)
    (fetched : Option FetchedTransaction) : Outcome Unit (ℕ × ℕ) := do
  let tx ← Outcome.ofOption () fetched
  let postBalances ← Outcome.ofOption () tx.postBalances
  let postLamports := postBalances.head?.getD 0
  let swap ← tx.parsed.attempt
  match swap.join with
  | some amountOut => .ok (amountOut, postLamports)
  | none => do
    let amountOut ← tx.balanceOut b outputMint lastFeeLamports postLamports
    .ok (amountOut, postLamports)

/-- The answers that one call of `handle_success_txn` gets. -/
structure SuccessRun where
  /-- The prices for the executed swap. -/
  execPrices : PriceAnswers
  /-- The prices for the origin swap. -/
  originPrices : PriceAnswers
  /-- The transaction, unless it cannot be read. -/
  fetched : Option FetchedTransaction

/-- Record one side of a confirmed swap in the book of the wallet's mode. -/
def Shared.recordIn (b : Build) (s : Shared) (cfg : CopyConfig) (d : CopyDetails)
    (signature : Signature) (side : TradeSide) : Outcome SuccessStop Recorded :=
  match d.walletConfig.mode with
  | .direct => do
    let inserted ← (s.history.insertTradeIn b cfg.rounding d.originSigner side.token
      side.decimals side.execVolume side.originVolume side.execPriceUsd side.execPriceSol
      side.originPriceUsd side.originPriceSol side.direction (some cfg.moonbagBps)).attempt
    match inserted with
    | none => pure (s, [])
    | some (history, volume) =>
      pure ({ s with history },
        [{ token := side.token
           originWallet := d.originSigner
           originSignature := d.originSignature
           execSignature := signature
           direction := side.direction
           volume }])
  | .ping =>
    match s.pingTracker with
    | none => pure (s, [])
    | some tracker => do
      let inserted ← (tracker.insertExecutionIn b cfg.rounding side.token side.decimals
        side.execVolume side.execPriceUsd side.execPriceSol side.direction
        (some cfg.moonbagBps)).attempt
      match inserted with
      | none => pure (s, [])
      | some (tracker, _) => pure ({ s with pingTracker := some tracker }, [])

/-- One side of a confirmed swap, if the order trades it. The mint is asserted to be that of the
executed swap, and a missing ping tracker ends the call. -/
def recordSide (b : Build) (cfg : CopyConfig) (d : CopyDetails) (signature : Signature)
    (traded : Bool) (execMint : Pubkey) (side : TradeSide) (r : Recorded) :
    Outcome SuccessStop Recorded :=
  if traded then do
    debugAssert b (side.token = execMint)
    if d.walletConfig.mode = .ping ∧ r.1.pingTracker.isNone then .err (.returned r)
    else do
      let (s, trades) ← r.1.recordIn b cfg d signature side
      pure (s, r.2 ++ trades)
  else pure r

/-- The amounts of both sides of the executed swap. -/
def QuoteDetails.amounts (q : QuoteDetails) : ℕ × ℕ :=
  if q.amountSpecifiedIsInput then (q.amount, q.otherAmount) else (q.otherAmount, q.amount)

/-- The answers of a call, as far as recording goes. Prices that cannot be told are zero, and an
amount that cannot be told is left out. -/
def SuccessRun.env (b : Build) (run : SuccessRun) (d : CopyDetails) (origin : TokenDecimals)
    (q : QuoteDetails) (inDecimals outDecimals : ℕ) : Outcome SuccessStop SuccessEnv := do
  let execPrice ← (getTokenPricesIn b run.execPrices none q.inputMint q.outputMint q.amounts.1
    q.amounts.2 inDecimals outDecimals).attempt
  let originPrice ← (getTokenPricesIn b run.originPrices none d.originSwap.inputTokenMint
    d.originSwap.outputTokenMint d.originSwap.inputAmount d.originSwap.outputAmount origin.input
    origin.output).attempt
  let amountOut ← (getAmountOut b q.outputMint d.lastFeeLamports run.fetched).attempt
  pure ⟨execPrice.getD {}, originPrice.getD {}, amountOut⟩

/-- Both sides of a confirmed swap, the sell before the buy. -/
def recordSides (b : Build) (cfg : CopyConfig) (env : SuccessEnv) (s : Shared) (d : CopyDetails)
    (q : QuoteDetails) (inDecimals outDecimals : ℕ) (signature : Signature) :
    Outcome SuccessStop Recorded := do
  let copyType ← Outcome.ofOption .refuted d.copyType
  let r ← recordSide b cfg d signature copyType.sells q.inputMint (sellSide env d q inDecimals)
    (s.switchBuys cfg env.amountOut, [])
  recordSide b cfg d signature copyType.buys q.outputMint (buySide env d q outDecimals) r

/-- `handle_success_txn` in a build. -/
def handleSuccessTxnIn (b : Build) (cfg : CopyConfig) (run : SuccessRun) (s : Shared)
    (d : CopyDetails) (signature : Signature) : Outcome SuccessStop Recorded := do
  let origin ← Outcome.ofOption (.returned (s, [])) d.originSwap.tokenDecimals
  let q ← Outcome.ofOption .refuted d.quoteOutput
  let inDecimals ← Outcome.ofOption .refuted (q.inputDecimals d.originSwap.inputTokenMint origin)
  let outDecimals ←
    Outcome.ofOption .refuted (q.outputDecimals d.originSwap.outputTokenMint origin)
  let env ← run.env b d origin q inDecimals outDecimals
  recordSides b cfg env s d q inDecimals outDecimals signature

/-! ## What a call can be handed -/

/-- The powers that prices are derived with are of nine decimals at most, unless the price of SOL
is missing and none is derived. -/
def PricesFit (answers : PriceAnswers) (inDecimals outDecimals : ℕ) : Prop :=
  answers.sol.isSome → inDecimals ≤ 9 ∧ outDecimals ≤ 9

theorem getTokenPricesIn_ne_panic {b : Build} {answers : PriceAnswers}
    {inDecimals outDecimals : ℕ} (h : b = .checked → PricesFit answers inDecimals outDecimals)
    (inputMint outputMint : Pubkey) (inputAmount outputAmount : ℕ) :
    getTokenPricesIn b answers none inputMint outputMint inputAmount outputAmount inDecimals
      outDecimals ≠ .panic := by
  unfold getTokenPricesIn
  cases hsol : answers.sol with
  | none => exact nofun
  | some sol =>
    have hfits := fun hb => h hb (by rw [hsol]; rfl)
    simp only [Option.none_or, Outcome.ofOption_some, Outcome.ok_bind,
      pow_ten_of_fits fun hb => (hfits hb).1, pow_ten_of_fits fun hb => (hfits hb).2]
    generalize askedPrices answers sol inputMint outputMint = prices
    obtain ⟨_ | inputPrice, _ | outputPrice⟩ := prices <;> exact nofun

/-- Beyond nine decimals a build that checks panics before it derives anything. -/
theorem getTokenPricesIn_checked {answers : PriceAnswers} {inDecimals outDecimals : ℕ}
    (h : ¬ PricesFit answers inDecimals outDecimals) (inputMint outputMint : Pubkey)
    (inputAmount outputAmount : ℕ) :
    getTokenPricesIn .checked answers none inputMint outputMint inputAmount outputAmount
      inDecimals outDecimals = .panic := by
  rw [PricesFit, Classical.not_imp] at h
  obtain ⟨hsol, hnot⟩ := h
  obtain ⟨sol, hsol⟩ := Option.isSome_iff_exists.mp hsol
  simp only [getTokenPricesIn, hsol, Option.none_or, Outcome.ofOption_some, Outcome.ok_bind]
  by_cases hin : inDecimals ≤ 9
  · have hout : ¬ outDecimals ≤ 9 := fun hout => hnot ⟨hin, hout⟩
    rw [pow_ten_of_fits fun _ => hin, Outcome.ok_bind, pow_ten_checked hout, Outcome.panic_bind]
  · rw [pow_ten_checked hin, Outcome.panic_bind]

namespace FetchedTransaction

/-- The output amount of the swap that the parser finds. -/
def swapped (tx : FetchedTransaction) : Option ℕ :=
  match tx.parsed with
  | .ok found => found
  | _ => none

/-- What the balances say that was received. -/
def gained (tx : FetchedTransaction) (outputMint : Pubkey) (lastFeeLamports postLamports : ℕ) :
    Option ℕ :=
  if outputMint = SOL then
    some (postLamports - ((tx.preBalances.getD []).head?.getD 0 - lastFeeLamports))
  else
    (tx.postBalance.filter fun balance => F64.lt (tx.preBalance.getD (.fin 0)) balance.1).map
      fun (postBalance, decimals) =>
        ((postBalance - tx.preBalance.getD (.fin 0)) * F64.ofNat (10 ^ decimals)).trunc.toU64

/-- What was received and the lamports that are left, as the transaction has it. -/
def received (tx : FetchedTransaction) (outputMint : Pubkey) (lastFeeLamports : ℕ) :
    Option (ℕ × ℕ) :=
  tx.postBalances.bind fun postBalances =>
    let postLamports := postBalances.head?.getD 0
    (tx.swapped.or (tx.gained outputMint lastFeeLamports postLamports)).map (·, postLamports)

/-- Where an amount is told from the balances in tokens, their decimals are nine at most. -/
def BalanceFits (tx : FetchedTransaction) (outputMint : Pubkey) : Prop :=
  outputMint ≠ SOL → ∀ balance ∈ tx.postBalance,
    F64.lt (tx.preBalance.getD (.fin 0)) balance.1 = true → balance.2 ≤ 9

/-- The parser gets through a transaction with balances, and a build that checks through the
balances where it finds no swap. -/
def AmountFits (b : Build) (tx : FetchedTransaction) (outputMint : Pubkey) : Prop :=
  tx.postBalances.isSome → tx.parsed ≠ .panic ∧
    (b = .checked → tx.swapped = none → tx.BalanceFits outputMint)

theorem attempt_parsed {tx : FetchedTransaction} (h : tx.parsed ≠ .panic) :
    ∃ swap, (tx.parsed.attempt : Outcome Unit (Option (Option ℕ))) = .ok swap ∧
      swap.join = tx.swapped := by
  unfold swapped
  cases hp : tx.parsed with
  | ok found => exact ⟨_, rfl, rfl⟩
  | err e => exact ⟨_, rfl, rfl⟩
  | panic => exact absurd hp h

theorem balanceOut_ne_panic {b : Build} {tx : FetchedTransaction} {outputMint : Pubkey}
    (h : b = .checked → tx.BalanceFits outputMint) (lastFeeLamports postLamports : ℕ) :
    tx.balanceOut b outputMint lastFeeLamports postLamports ≠ .panic := by
  unfold balanceOut
  split_ifs with hsol
  · exact nofun
  · cases hbalance : tx.postBalance with
    | none => exact nofun
    | some balance =>
      obtain ⟨postBalance, decimals⟩ := balance
      simp only [Outcome.ofOption_some, Outcome.ok_bind]
      split_ifs with hlt
      · rw [pow_ten_of_fits fun hb => h hb hsol _ hbalance hlt]
        exact nofun
      · exact nofun

theorem balanceOut_eq_gained {tx : FetchedTransaction} {outputMint : Pubkey}
    (h : tx.BalanceFits outputMint) (lastFeeLamports postLamports : ℕ) :
    tx.balanceOut .checked outputMint lastFeeLamports postLamports =
      Outcome.ofOption () (tx.gained outputMint lastFeeLamports postLamports) := by
  unfold balanceOut gained
  split_ifs with hsol
  · rfl
  · cases hbalance : tx.postBalance with
    | none => rfl
    | some balance =>
      obtain ⟨postBalance, decimals⟩ := balance
      simp only [Outcome.ofOption_some, Outcome.ok_bind]
      split_ifs with hlt
      · have hnine : decimals ≤ 9 := h hsol _ hbalance hlt
        rw [Build.pow_ok _ ((pow_ten_lt_iff decimals).mpr hnine), Outcome.ok_bind,
          Option.filter_some, if_pos hlt]
        rfl
      · rw [Option.filter_some, if_neg hlt]
        rfl

/-- Beyond nine decimals a build that checks panics. -/
theorem balanceOut_checked {tx : FetchedTransaction} {outputMint : Pubkey}
    (h : ¬ tx.BalanceFits outputMint) (lastFeeLamports postLamports : ℕ) :
    tx.balanceOut .checked outputMint lastFeeLamports postLamports = .panic := by
  simp only [BalanceFits, Classical.not_imp, not_forall] at h
  obtain ⟨hsol, ⟨postBalance, decimals⟩, hbalance, hlt, hnine⟩ := h
  rw [Option.mem_def] at hbalance
  simp only [balanceOut, if_neg hsol, hbalance, Outcome.ofOption_some, Outcome.ok_bind, if_pos hlt]
  rw [pow_ten_checked hnine, Outcome.panic_bind]

end FetchedTransaction

/-- An amount that fits is not a panic, and in a build that checks it is what the transaction
has. -/
theorem getAmountOut_of_fits {b : Build} {outputMint : Pubkey} {fetched : Option FetchedTransaction}
    (h : ∀ tx ∈ fetched, tx.AmountFits b outputMint) (lastFeeLamports : ℕ) :
    getAmountOut b outputMint lastFeeLamports fetched ≠ .panic ∧
      (b = .checked → getAmountOut b outputMint lastFeeLamports fetched =
        Outcome.ofOption () (fetched.bind fun tx => tx.received outputMint lastFeeLamports)) := by
  cases fetched with
  | none => exact ⟨nofun, fun _ => rfl⟩
  | some tx =>
    simp only [getAmountOut, Outcome.ofOption_some, Outcome.ok_bind, Option.bind_some,
      FetchedTransaction.received]
    cases hpost : tx.postBalances with
    | none => exact ⟨nofun, fun _ => rfl⟩
    | some postBalances =>
      obtain ⟨hparsed, hbalance⟩ := h tx rfl (by rw [hpost]; rfl)
      simp only [Outcome.ofOption_some, Outcome.ok_bind, Option.bind_some]
      obtain ⟨swap, hswap, hjoin⟩ := FetchedTransaction.attempt_parsed hparsed
      simp only [hswap, Outcome.ok_bind, hjoin]
      cases hswapped : tx.swapped with
      | some amountOut => exact ⟨nofun, fun _ => rfl⟩
      | none =>
        have hfits := fun hb => hbalance hb hswapped
        constructor
        · exact Outcome.bind_ne_panic (FetchedTransaction.balanceOut_ne_panic hfits _ _)
            fun _ _ => nofun
        · rintro rfl
          simp only [FetchedTransaction.balanceOut_eq_gained (hfits rfl), Option.none_or]
          cases tx.gained outputMint lastFeeLamports (postBalances.head?.getD 0) <;> rfl

/-- Where it does not fit it is a panic. -/
theorem getAmountOut_of_not_fits {b : Build} {outputMint : Pubkey} {tx : FetchedTransaction}
    (h : ¬ tx.AmountFits b outputMint) (lastFeeLamports : ℕ) :
    getAmountOut b outputMint lastFeeLamports (some tx) = .panic := by
  rw [FetchedTransaction.AmountFits, Classical.not_imp] at h
  obtain ⟨hpost, hnot⟩ := h
  obtain ⟨postBalances, hpost⟩ := Option.isSome_iff_exists.mp hpost
  simp only [getAmountOut, Outcome.ofOption_some, Outcome.ok_bind, hpost]
  by_cases hparsed : tx.parsed = .panic
  · rw [Outcome.attempt_eq_panic.mpr hparsed, Outcome.panic_bind]
  · obtain ⟨swap, hswap, hjoin⟩ := FetchedTransaction.attempt_parsed hparsed
    simp only [ne_eq, hparsed, not_false_eq_true, true_and, Classical.not_imp] at hnot
    obtain ⟨rfl, hswapped, hbalance⟩ := hnot
    simp only [hswap, Outcome.ok_bind, hjoin, hswapped,
      FetchedTransaction.balanceOut_checked hbalance, Outcome.panic_bind]

/-! ## A side that fits is recorded -/

theorem debugAssert_ok (b : Build) {c : Prop} [Decidable c] (h : c) : debugAssert b c = .ok () := by
  cases b with
  | checked => exact if_pos h
  | wrapping => rfl

/-- A side that fits is recorded as in a build that wraps. -/
theorem Shared.recordIn_of_fits {b : Build} {s : Shared} {cfg : CopyConfig} {d : CopyDetails}
    {side : TradeSide}
    (h : b = .checked → SideFits cfg s d side.token side.decimals side.execVolume
      side.originVolume side.direction) (signature : Signature) :
    s.recordIn b cfg d signature side = .ok (s.record cfg d signature side) := by
  unfold recordIn record
  cases hmode : d.walletConfig.mode with
  | direct =>
    simp only [SideFits, hmode] at h
    simp only [HistoricalTrades.insertTradeIn_of_fits h]
    cases s.history.insertTrade cfg.rounding d.originSigner side.token side.decimals side.execVolume
        side.originVolume side.execPriceUsd side.execPriceSol side.originPriceUsd
        side.originPriceSol side.direction (some cfg.moonbagBps) with
    | error e => rfl
    | ok result => rfl
  | ping =>
    cases htracker : s.pingTracker with
    | none => rfl
    | some tracker =>
      simp only [SideFits, hmode, htracker] at h
      rcases PingTracker.insertExecutionIn_of_fits (fun hb => h hb tracker rfl) side.execPriceUsd
          side.execPriceSol with ⟨e, hexec, hin⟩ | ⟨t', v, v', hexec, hin⟩
      · simp only [hexec, hin]
        rfl
      · simp only [hexec, hin]
        rfl

/-- In a build that checks, a side that does not fit panics. -/
theorem Shared.recordIn_checked {s : Shared} {cfg : CopyConfig} {d : CopyDetails}
    {side : TradeSide}
    (h : ¬ SideFits cfg s d side.token side.decimals side.execVolume side.originVolume
      side.direction) (signature : Signature) :
    s.recordIn .checked cfg d signature side = .panic := by
  unfold recordIn
  cases hmode : d.walletConfig.mode with
  | direct =>
    simp only [SideFits, hmode, Classical.not_imp, not_forall] at h
    obtain ⟨htoken, dust, hdust, hnot⟩ := h
    simp only [HistoricalTrades.insertTradeIn_checked htoken hdust hnot, Outcome.attempt,
      Outcome.panic_bind]
  | ping =>
    simp only [SideFits, hmode, Classical.not_imp, not_forall] at h
    obtain ⟨tracker, htracker, hnot⟩ := h
    simp only [Option.mem_def.mp htracker, PingTracker.insertExecutionIn_checked hnot,
      Outcome.attempt, Outcome.panic_bind]

/-- Whether a side fits depends on what is recorded for its token alone. -/
theorem SideFits.congr {cfg : CopyConfig} {s s' : Shared} {d : CopyDetails} {token : Pubkey}
    (hhistory : s'.history (d.originSigner, token) = s.history (d.originSigner, token))
    (htracker : (s'.pingTracker.map fun t => (t.execution token, t.pings token)) =
      s.pingTracker.map fun t => (t.execution token, t.pings token))
    (decimals execVolume originVolume : ℕ) (direction : TradeDirection) :
    SideFits cfg s' d token decimals execVolume originVolume direction ↔
      SideFits cfg s d token decimals execVolume originVolume direction := by
  unfold SideFits
  cases d.walletConfig.mode with
  | direct => simp only [hhistory]
  | ping =>
    cases ht : s.pingTracker with
    | none =>
      rw [ht, Option.map_none, Option.map_eq_none_iff] at htracker
      rw [htracker]
    | some t =>
      rw [ht, Option.map_some] at htracker
      obtain ⟨t', ht', hfields⟩ := Option.map_eq_some_iff.mp htracker
      obtain ⟨hexecution, hpings⟩ := Prod.mk.inj hfields
      simp only [ht', Option.mem_def, Option.some.injEq, forall_eq', hexecution, hpings]

theorem PingTracker.insertExecution_frame {t t' : PingTracker} {r : Rounding} {token : Pubkey}
    {decimals volume : ℕ} {usd sol : F64} {direction : TradeDirection} {moonbagBps : Option ℕ}
    {v : PingExecutionVolume}
    (h : t.insertExecution r token decimals volume usd sol direction moonbagBps = .ok (t', v))
    {other : Pubkey} (hother : other ≠ token) :
    t'.execution other = t.execution other ∧ t'.pings other = t.pings other := by
  unfold insertExecution at h
  cases hdust : dustAmount r volume direction moonbagBps with
  | error e =>
    rw [hdust] at h
    cases h
  | ok dust =>
    simp only [hdust, Except.ok.injEq, Prod.mk.injEq] at h
    obtain ⟨rfl, -⟩ := h
    refine ⟨Function.update_of_ne hother _ _, ?_⟩
    cases t.pings token with
    | none => rfl
    | some ping => exact Function.update_of_ne hother _ _

/-- Recording a side leaves the other tokens as they are. -/
theorem Shared.record_frame (s : Shared) (cfg : CopyConfig) (d : CopyDetails)
    (signature : Signature) (side : TradeSide) {other : Pubkey} (hother : other ≠ side.token) :
    (s.record cfg d signature side).1.history (d.originSigner, other) =
        s.history (d.originSigner, other) ∧
      ((s.record cfg d signature side).1.pingTracker.map fun t =>
          (t.execution other, t.pings other)) =
        s.pingTracker.map fun t => (t.execution other, t.pings other) := by
  unfold record
  cases d.walletConfig.mode with
  | direct =>
    simp only
    split
    · exact ⟨rfl, rfl⟩
    · rename_i history volume hok
      obtain ⟨-, -, -, -, rfl⟩ := HistoricalTrades.insertTrade_ok hok
      have hkey : (d.originSigner, other) ≠ (d.originSigner, side.token) :=
        fun h => hother (congrArg Prod.snd h)
      exact ⟨HistoricalTrades.insert_of_ne _ hkey, rfl⟩
  | ping =>
    simp only
    split
    · exact ⟨rfl, rfl⟩
    · rename_i t ht
      split
      · exact ⟨rfl, rfl⟩
      · rename_i t' volume hok
        obtain ⟨hexecution, hpings⟩ := PingTracker.insertExecution_frame hok hother
        rw [ht, Option.map_some, Option.map_some, hexecution, hpings]
        exact ⟨rfl, rfl⟩

/-! ## A call that fits -/

/-- The answers of a call can be told. The powers are only checked in a debug build. -/
structure AnswersFit (b : Build) (run : SuccessRun) (origin : TokenDecimals) (q : QuoteDetails)
    (inDecimals outDecimals : ℕ) : Prop where
  execPrices : b = .checked → PricesFit run.execPrices inDecimals outDecimals
  originPrices : b = .checked → PricesFit run.originPrices origin.input origin.output
  amount : ∀ tx ∈ run.fetched, tx.AmountFits b q.outputMint

/-- In a debug build, what was sold and what was received can be added to what is recorded. -/
structure SidesFit (b : Build) (cfg : CopyConfig) (s : Shared) (d : CopyDetails) (q : QuoteDetails)
    (inDecimals outDecimals : ℕ) (amountOut : Option (ℕ × ℕ)) : Prop where
  sold : b = .checked → d.sells = true → SideFits cfg s d d.originSwap.inputTokenMint inDecimals
    q.amount d.originSwap.inputAmount .sell
  bought : b = .checked → d.buys = true → SideFits cfg s d d.originSwap.outputTokenMint outDecimals
    (q.actualAmountOut amountOut) d.originSwap.outputAmount .buy

/-- Nothing that a call calls or computes panics, by what it is handed. -/
def SuccessFits (b : Build) (cfg : CopyConfig) (run : SuccessRun) (s : Shared) (d : CopyDetails) :
    Prop :=
  ∀ origin ∈ d.originSwap.tokenDecimals, ∀ q ∈ d.quoteOutput,
    ∀ inDecimals ∈ q.inputDecimals d.originSwap.inputTokenMint origin,
      ∀ outDecimals ∈ q.outputDecimals d.originSwap.outputTokenMint origin,
        AnswersFit b run origin q inDecimals outDecimals ∧
          SidesFit b cfg s d q inDecimals outDecimals
            (run.fetched.bind fun tx => tx.received q.outputMint d.lastFeeLamports)

/-- The answers of a call that fit are told, and in a build that checks the amount is what the
transaction has. -/
theorem SuccessRun.env_of_fits {b : Build} {run : SuccessRun} (d : CopyDetails)
    {origin : TokenDecimals} {q : QuoteDetails} {inDecimals outDecimals : ℕ}
    (h : AnswersFit b run origin q inDecimals outDecimals) :
    ∃ env, run.env b d origin q inDecimals outDecimals = .ok env ∧
      (b = .checked → env.amountOut =
        run.fetched.bind fun tx => tx.received q.outputMint d.lastFeeLamports) := by
  obtain ⟨execPrice, hexec⟩ : ∃ price, (getTokenPricesIn b run.execPrices none q.inputMint
      q.outputMint q.amounts.1 q.amounts.2 inDecimals outDecimals).attempt =
        (.ok price : Outcome SuccessStop (Option Price)) :=
    Outcome.exists_attempt_eq_ok (getTokenPricesIn_ne_panic h.execPrices _ _ _ _)
  obtain ⟨originPrice, horigin⟩ : ∃ price, (getTokenPricesIn b run.originPrices none
      d.originSwap.inputTokenMint d.originSwap.outputTokenMint d.originSwap.inputAmount
      d.originSwap.outputAmount origin.input origin.output).attempt =
        (.ok price : Outcome SuccessStop (Option Price)) :=
    Outcome.exists_attempt_eq_ok (getTokenPricesIn_ne_panic h.originPrices _ _ _ _)
  obtain ⟨hpanic, hreceived⟩ := getAmountOut_of_fits h.amount d.lastFeeLamports
  obtain ⟨amountOut, hamount⟩ : ∃ amountOut,
      (getAmountOut b q.outputMint d.lastFeeLamports run.fetched).attempt =
        (.ok amountOut : Outcome SuccessStop (Option (ℕ × ℕ))) :=
    Outcome.exists_attempt_eq_ok hpanic
  refine ⟨⟨execPrice.getD {}, originPrice.getD {}, amountOut⟩, ?_, fun hb => ?_⟩
  · simp only [SuccessRun.env, hexec, horigin, hamount, Outcome.ok_bind, Outcome.pure_eq]
  · rw [hreceived hb] at hamount
    exact Outcome.ok.inj (hamount.symm.trans (Outcome.attempt_ofOption ..))

/-- An answer that does not fit is a panic, whichever it is. -/
theorem SuccessRun.env_of_not_fits {b : Build} {run : SuccessRun} (d : CopyDetails)
    {origin : TokenDecimals} {q : QuoteDetails} {inDecimals outDecimals : ℕ}
    (h : ¬ AnswersFit b run origin q inDecimals outDecimals) :
    run.env b d origin q inDecimals outDecimals = .panic := by
  by_cases hexec : b = .checked → PricesFit run.execPrices inDecimals outDecimals
  · obtain ⟨execPrice, hexecPrice⟩ : ∃ price, (getTokenPricesIn b run.execPrices none q.inputMint
        q.outputMint q.amounts.1 q.amounts.2 inDecimals outDecimals).attempt =
          (.ok price : Outcome SuccessStop (Option Price)) :=
      Outcome.exists_attempt_eq_ok (getTokenPricesIn_ne_panic hexec _ _ _ _)
    rw [SuccessRun.env, hexecPrice, Outcome.ok_bind]
    by_cases horigin : b = .checked → PricesFit run.originPrices origin.input origin.output
    · obtain ⟨originPrice, horiginPrice⟩ : ∃ price, (getTokenPricesIn b run.originPrices none
          d.originSwap.inputTokenMint d.originSwap.outputTokenMint d.originSwap.inputAmount
          d.originSwap.outputAmount origin.input origin.output).attempt =
            (.ok price : Outcome SuccessStop (Option Price)) :=
        Outcome.exists_attempt_eq_ok (getTokenPricesIn_ne_panic horigin _ _ _ _)
      obtain ⟨tx, htx, hnot⟩ : ∃ tx, run.fetched = some tx ∧ ¬ tx.AmountFits b q.outputMint := by
        by_contra hall
        exact h ⟨hexec, horigin, fun tx htx => not_not.mp fun hnot => hall ⟨tx, htx, hnot⟩⟩
      rw [horiginPrice, Outcome.ok_bind, htx,
        Outcome.attempt_eq_panic.mpr (getAmountOut_of_not_fits hnot _), Outcome.panic_bind]
    · obtain ⟨rfl, hnot⟩ := Classical.not_imp.mp horigin
      rw [Outcome.attempt_eq_panic.mpr (getTokenPricesIn_checked hnot _ _ _ _), Outcome.panic_bind]
  · obtain ⟨rfl, hnot⟩ := Classical.not_imp.mp hexec
    rw [SuccessRun.env, Outcome.attempt_eq_panic.mpr (getTokenPricesIn_checked hnot _ _ _ _),
      Outcome.panic_bind]

end Biscuit.Copy
