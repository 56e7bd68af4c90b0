import Biscuit.Models.Copy.PingErrors

/-!
# What is derived from a swap

`get_execution_input` refuses a swap, leaves it alone or copies it with an order, and on the way
it may take an entry out of the history or enter the swap into the ping tracker. Which of these
it does is read off the state before the call: the entry of the sold token, the wallets that count
for the bought one, the tiers, and what is known of the mints and of the prices.
-/

namespace Biscuit.Copy

namespace PingTracker

/-- What one more wallet may spend on a token with its swap, by the wallets that count already. -/
def lamportsForNext (t : PingTracker) (token : Pubkey) (cost : ℕ) : Option ℕ :=
  let ping := (t.pings token).getD ⟨∅, 0, 0⟩
  if t.tiers.length ≤ ping.executionCount then none
  else (t.tierFor (ping.wallets.card + 1)).map (min · (wrapU64 (ping.totalLamportsCost + cost)))

/-- The tracker knows already whatever it would enter of a swap. -/
structure KnowsSwap (r : Rounding) (t : PingTracker) (env : ExecEnv) (d : CopyDetails)
    (decimals : Option TokenDecimals) : Prop where
  sell : t.SellKnown d.originSigner d.originSwap.inputTokenMint d.originSignature
  buy : isStaticToken d.originSwap.outputTokenMint = false →
    ∀ dec ∈ decimals, ∀ solPriceUsd ∈ env.priceFeed SOL,
      t.BuyKnown d.originSigner d.originSwap.outputTokenMint d.originSignature
        (swapLamports r env.priceFeed solPriceUsd d.originSwap dec.input)

theorem touchSell_lamportsForNext (t : PingTracker) (origin token other : Pubkey)
    (signature : Signature) (cost : ℕ) :
    (t.touchSell origin token signature).lamportsForNext other cost =
      t.lamportsForNext other cost := by
  unfold touchSell
  cases t.walletHistory (origin, token) <;> rfl

theorem addPing_new (t : PingTracker) (origin token : Pubkey) (signature : Signature)
    (lamports : ℕ) :
    (t.addPing origin token signature lamports).2 = !t.counts origin token := by
  unfold addPing counts
  cases t.pings token with
  | none => rfl
  | some ping => simp only [Option.any_some, decide_not]

/-- A wallet that is new to a token may spend what the tracker had for the next one. -/
theorem addPing_getLamportsInput {t : PingTracker} {origin token : Pubkey} {lamports : ℕ}
    (hnew : t.counts origin token = false) (hword : lamports < 2 ^ 64) (signature : Signature) :
    (t.addPing origin token signature lamports).1.getLamportsInput token =
      t.lamportsForNext token lamports := by
  unfold addPing getLamportsInput lamportsForNext
  unfold counts at hnew
  cases hp : t.pings token with
  | none =>
    have hcost : wrapU64 lamports = lamports := Nat.mod_eq_of_lt hword
    simp only [Function.update_self, Option.getD_none, Finset.card_singleton, Finset.card_empty,
      Nat.zero_add, hcost]
    rfl
  | some ping =>
    have hout : origin ∉ ping.wallets := by simpa [hp] using hnew
    simp only [Function.update_self, Option.getD_some, Finset.card_insert_of_notMem hout]
    rfl

/-- A swap for another token changes no share in its input token. -/
theorem addPing_hasShare {t : PingTracker} {origin token other : Pubkey} (hne : other ≠ token)
    (signature : Signature) (lamports : ℕ) (wallet : Pubkey) :
    (t.addPing origin token signature lamports).1.hasShare wallet other =
      t.hasShare wallet other := by
  unfold addPing hasShare counts
  cases t.pings token <;> simp only [Function.update_of_ne hne]

theorem touchSell_hasShare (t : PingTracker) (origin token : Pubkey) (signature : Signature)
    (wallet other : Pubkey) :
    (t.touchSell origin token signature).hasShare wallet other = t.hasShare wallet other := by
  rw [hasShare, counts, touchSell_pings, touchSell_execution]
  rfl

/-- Entering a swap changes nothing exactly when the tracker knows it. -/
theorem insertSwap_eq_iff (t : PingTracker) (r : Rounding) (env : ExecEnv) (d : CopyDetails) :
    (t.insertSwap r d.originSigner d.originSignature d.originSwap env.priceFeed).1 = t ↔
      t.KnowsSwap r env d d.originSwap.tokenDecimals := by
  have hsell := t.touchSell_eq_iff d.originSigner d.originSwap.inputTokenMint d.originSignature
  unfold insertSwap
  by_cases hs : isStaticToken d.originSwap.outputTokenMint = true
  · simp only [hs, if_true, hsell]
    exact ⟨fun h => ⟨h, fun hstatic => by simp [hs] at hstatic⟩, fun h => h.sell⟩
  · have hs' : isStaticToken d.originSwap.outputTokenMint = false := by simpa using hs
    simp only [hs, Bool.false_eq_true, if_false]
    cases hdec : d.originSwap.tokenDecimals with
    | none =>
      simp only [hsell]
      exact ⟨fun h => ⟨h, fun _ _ hnone => by cases hnone⟩, fun h => h.sell⟩
    | some decimals =>
      cases hprice : env.priceFeed SOL with
      | none =>
        simp only [hsell]
        exact ⟨fun h => ⟨h, fun _ _ _ _ hnone => by simp [hprice] at hnone⟩, fun h => h.sell⟩
      | some solPriceUsd =>
        simp only [addPing_touchSell_eq_iff]
        constructor
        · rintro ⟨hsell, hbuy⟩
          refine ⟨hsell, fun _ dec hmem price hmem' => ?_⟩
          obtain rfl := Option.some.inj hmem
          obtain rfl := Option.some.inj (hprice.symm.trans hmem')
          exact hbuy
        · exact fun h => ⟨h.sell, h.buy hs' decimals rfl solPriceUsd hprice⟩

/-- A swap is refused by the tracker when it buys a token that is to be tracked without decimals
or without a price of SOL. -/
theorem insertSwap_error_iff (t : PingTracker) (r : Rounding) (origin : Pubkey)
    (signature : Signature) (swap : ResolvedSwap) (priceFeed : PriceFeed) :
    (∃ e, (t.insertSwap r origin signature swap priceFeed).2 = .error e) ↔
      isStaticToken swap.outputTokenMint = false ∧
        (swap.tokenDecimals = none ∨ priceFeed SOL = none) := by
  unfold insertSwap
  by_cases hs : isStaticToken swap.outputTokenMint = true
  · simp [hs]
  · have hs' : isStaticToken swap.outputTokenMint = false := by simpa using hs
    cases hdec : swap.tokenDecimals with
    | none => simp [hs']
    | some decimals => cases hprice : priceFeed SOL <;> simp [hs']

end PingTracker

/-! ## Changing the books -/

/-- By its entry the origin wallet leaves the token with this swap, so the entry goes. -/
def FullExit (cfg : CopyConfig) (h : HistoricalTrades) (d : CopyDetails) : Prop :=
  ∃ c, h d.sellKey = some c ∧ c.originTokensLeft ≠ 0 ∧
    c.isFullExit cfg.rounding d.originSwap.inputAmount = true

/-- There is a ping tracker, and it has something to enter of the swap. -/
def EntersPing (cfg : CopyConfig) (env : ExecEnv) (s : Shared) (d : CopyDetails)
    (decimals : Option TokenDecimals) : Prop :=
  ∃ tracker, s.pingTracker = some tracker ∧ ¬ tracker.KnowsSwap cfg.rounding env d decimals

/-- Sizing changes the book of the wallet's mode. -/
def SizingChanges (cfg : CopyConfig) (env : ExecEnv) (s : Shared) (d : CopyDetails) : Prop :=
  ∃ mints, env.mintInfo = some mints ∧
    d.originSwap.inputTokenMint ≠ d.originSwap.outputTokenMint ∧
    match d.walletConfig.mode with
    | .direct => (tokenDecimals mints).isSome = true ∧ FullExit cfg s.history d
    | .ping => EntersPing cfg env s d (tokenDecimals mints)

/-- Taking out an entry that is there changes the history. -/
theorem HistoricalTrades.remove_eq_iff {h : HistoricalTrades} {key : Pubkey × Pubkey} :
    h.remove key = h ↔ h key = none := by
  constructor
  · intro he
    rw [← he]
    exact remove_self h key
  · intro hn
    ext1 k
    by_cases hk : k = key
    · rw [hk, remove_self, hn]
    · exact remove_of_ne hk

theorem processDirect_history_eq_iff (cfg : CopyConfig) (buyDisabled : Bool)
    (h : HistoricalTrades) (d : CopyDetails) :
    (processDirect cfg buyDisabled h d).1 = h ↔
      ¬ (d.originSwap.tokenDecimals.isSome = true ∧ FullExit cfg h d) := by
  have hkeep : ∀ c, h d.sellKey = some c → c.originTokensLeft ≠ 0 →
      d.originSwap.tokenDecimals.isSome = true →
      ((if c.isFullExit cfg.rounding d.originSwap.inputAmount then h.remove d.sellKey else h) = h
        ↔
        ¬ (d.originSwap.tokenDecimals.isSome = true ∧ FullExit cfg h d)) := by
    intro c hc hleft hdec
    cases hfull : c.isFullExit cfg.rounding d.originSwap.inputAmount with
    | true => simp [HistoricalTrades.remove_eq_iff, hc, hdec, FullExit, hleft, hfull]
    | false => simp [FullExit, hc, hfull]
  have hcase := processDirect_cases cfg buyDisabled h d
  generalize processDirect cfg buyDisabled h d = result at hcase
  cases hcase with
  | unresolved hdec => simp [hdec]
  | exhausted c hdec hc hleft => simp [FullExit, hc, hleft]
  | skipSell c hdec hc hleft => exact hkeep c hc hleft hdec
  | sell c order copyType hdec hc hleft => exact hkeep c hc hleft hdec
  | skipBuy hdec hc => simp [FullExit, hc]
  | buy order hdec hc => simp [FullExit, hc]

theorem processPing_pingTracker_eq_iff (cfg : CopyConfig) (env : ExecEnv) (s : Shared)
    (d : CopyDetails) :
    (processPing cfg env s d).1.pingTracker = s.pingTracker ↔
      ¬ EntersPing cfg env s d d.originSwap.tokenDecimals := by
  cases hs : s.pingTracker with
  | none => simp [processPing, EntersPing, hs]
  | some tracker =>
    simp [processPing_pingTracker hs, EntersPing, hs, PingTracker.insertSwap_eq_iff]

/-- Sizing never touches the book of the other mode, and its own one only as described. -/
theorem getExecutionInput_books_iff (cfg : CopyConfig) (env : ExecEnv) (s : Shared)
    (d : CopyDetails) :
    ((getExecutionInput cfg env s d).1.history = s.history ∧
      (getExecutionInput cfg env s d).1.pingTracker = s.pingTracker) ↔
      ¬ SizingChanges cfg env s d := by
  unfold getExecutionInput SizingChanges
  cases env.mintInfo with
  | none => simp
  | some mints =>
    by_cases hsame : d.originSwap.inputTokenMint = d.originSwap.outputTokenMint
    · simp [CopyDetails.resolved, hsame]
    · have hne : ¬ (d.resolved mints).originSwap.inputTokenMint =
          (d.resolved mints).originSwap.outputTokenMint := hsame
      simp only [hne, if_false, processMode]
      cases hmode : d.walletConfig.mode with
      | direct =>
        have hm : (d.resolved mints).walletConfig.mode = .direct := hmode
        have hiff := processDirect_history_eq_iff cfg (buysDisabled env s) s.history
          (d.resolved mints)
        simp only [hm, Option.some.injEq, exists_eq_left', and_true]
        rw [hiff]
        simp [hsame, FullExit, CopyDetails.resolved, CopyDetails.sellKey]
      | ping =>
        have hm : (d.resolved mints).walletConfig.mode = .ping := hmode
        have henters : EntersPing cfg env s (d.resolved mints)
            (d.resolved mints).originSwap.tokenDecimals ↔
              EntersPing cfg env s d (tokenDecimals mints) := by
          constructor <;> rintro ⟨tracker, ht, hnew⟩ <;>
            exact ⟨tracker, ht, fun h => hnew ⟨h.sell, h.buy⟩⟩
        simp only [hm, Option.some.injEq, exists_eq_left', processPing_history, true_and]
        rw [processPing_pingTracker_eq_iff, henters]
        simp [hsame]

/-! ## Refusing a swap -/

/-- The direct mode refuses a swap whose decimals are not known, or of a token that the origin
wallet has sold already by its entry. -/
def DirectRefuses (s : Shared) (d : CopyDetails) (decimals : Option TokenDecimals) : Prop :=
  decimals = none ∨ ∃ c, s.history d.sellKey = some c ∧ c.originTokensLeft = 0

/-- The ping mode refuses a swap without a tracker, without the origin wallet's balance, and when
the tracker does. -/
def PingRefuses (env : ExecEnv) (s : Shared) (d : CopyDetails)
    (decimals : Option TokenDecimals) : Prop :=
  s.pingTracker = none ∨ d.originInputMintBalance = none ∨
    isStaticToken d.originSwap.outputTokenMint = false ∧
      (decimals = none ∨ env.priceFeed SOL = none)

/-- A swap is refused when its mints cannot be read, or by the mode of its wallet unless it is
one of a token for itself. -/
def Refuses (env : ExecEnv) (s : Shared) (d : CopyDetails) : Prop :=
  env.mintInfo = none ∨ ∃ mints, env.mintInfo = some mints ∧
    d.originSwap.inputTokenMint ≠ d.originSwap.outputTokenMint ∧
    match d.walletConfig.mode with
    | .direct => DirectRefuses s d (tokenDecimals mints)
    | .ping => PingRefuses env s d (tokenDecimals mints)

theorem processDirect_error_iff (cfg : CopyConfig) (buyDisabled : Bool) (s : Shared)
    (d : CopyDetails) :
    (∃ e, (processDirect cfg buyDisabled s.history d).2.2 = .error e) ↔
      DirectRefuses s d d.originSwap.tokenDecimals := by
  have hcase := processDirect_cases cfg buyDisabled s.history d
  generalize processDirect cfg buyDisabled s.history d = result at hcase
  unfold DirectRefuses
  cases hcase with
  | unresolved hdec => simp [hdec]
  | exhausted c hdec hc hleft => simp [hc, hleft]
  | skipSell c hdec hc hleft =>
    simp [hc, hleft, Option.isSome_iff_ne_none.mp hdec]
  | sell c order copyType hdec hc hleft =>
    simp [hc, hleft, Option.isSome_iff_ne_none.mp hdec]
  | skipBuy hdec hc => simp [hc, Option.isSome_iff_ne_none.mp hdec]
  | buy order hdec hc => simp [hc, Option.isSome_iff_ne_none.mp hdec]

theorem processPing_error_iff (cfg : CopyConfig) (env : ExecEnv) (s : Shared) (d : CopyDetails) :
    (∃ e, (processPing cfg env s d).2.2 = .error e) ↔
      PingRefuses env s d d.originSwap.tokenDecimals := by
  unfold PingRefuses
  cases ht : s.pingTracker with
  | none => simp [processPing, ht]
  | some tracker =>
    rw [processPing_fails_iff cfg ht, PingTracker.insertSwap_error_iff]
    simp [or_comm]

theorem getExecutionInput_error_iff (cfg : CopyConfig) (env : ExecEnv) (s : Shared)
    (d : CopyDetails) :
    (∃ e, (getExecutionInput cfg env s d).2.2 = .error e) ↔ Refuses env s d := by
  unfold getExecutionInput Refuses
  cases env.mintInfo with
  | none => simp
  | some mints =>
    by_cases hsame : d.originSwap.inputTokenMint = d.originSwap.outputTokenMint
    · simp [CopyDetails.resolved, hsame]
    · have hne : ¬ (d.resolved mints).originSwap.inputTokenMint =
          (d.resolved mints).originSwap.outputTokenMint := hsame
      have hmap : ∀ r : Except ExecError (Option SwapInput),
          (∃ e, r.map nonzeroOrder = .error e) ↔ ∃ e, r = .error e := by
        intro r
        cases r <;> simp [Except.map]
      simp only [hne, if_false, processMode]
      cases hmode : d.walletConfig.mode with
      | direct =>
        have hm : (d.resolved mints).walletConfig.mode = .direct := hmode
        have hiff := processDirect_error_iff cfg (buysDisabled env s) s (d.resolved mints)
        simp only [hm, hmap, hiff, reduceCtorEq, Option.some.injEq, exists_eq_left', false_or]
        simp only [ne_eq, hsame, not_false_eq_true, true_and]
        exact Iff.rfl
      | ping =>
        have hm : (d.resolved mints).walletConfig.mode = .ping := hmode
        have hiff := processPing_error_iff cfg env s (d.resolved mints)
        simp only [hm, hmap, hiff, reduceCtorEq, Option.some.injEq, exists_eq_left', false_or]
        simp only [ne_eq, hsame, not_false_eq_true, true_and]
        exact Iff.rfl

/-! ## Copying a swap -/

/-- The order of the direct mode, with what it copies: of a token that is held, what is left to
sell of the origin wallet's share, and a buy otherwise. -/
inductive DirectCopies (cfg : CopyConfig) (env : ExecEnv) (s : Shared) (d : CopyDetails) :
    CopyType → SwapInput → Prop
  | held (c : CopyHistory) (order : SwapInput) (copyType : CopyType)
      (hc : s.history d.sellKey = some c) (hleft : c.originTokensLeft ≠ 0)
      (hpos : c.sellInputAmount cfg.rounding d.originSwap.inputAmount ≠ 0)
      (horder : directSellOrder cfg (buysDisabled env s) d
        (c.sellInputAmount cfg.rounding d.originSwap.inputAmount) = (order, copyType)) :
      DirectCopies cfg env s d copyType order
  | bought (order : SwapInput) (hc : s.history d.sellKey = none)
      (hbuys : buysDisabled env s = false)
      (hout : isStaticToken d.originSwap.outputTokenMint = false) (hpos : order.amount ≠ 0)
      (horder : order = exactInOrder cfg SOL d.originSwap.outputTokenMint
        (buyInputAmount d.walletConfig d.originSwap.inputTokenMint
          (d.originSolBalance.getD ⟨0, 0⟩) d.originSwap.inputAmount)) :
      DirectCopies cfg env s d .buy order

/-- The order of the ping mode, with what it copies: one more wallet counts for the bought token,
and a wallet with a share in the sold token pays with it. -/
inductive PingCopies (cfg : CopyConfig) (env : ExecEnv) (s : Shared) (d : CopyDetails)
    (decimals : TokenDecimals) : CopyType → SwapInput → Prop
  | next (t : PingTracker) (solPriceUsd : F64) (lamports : ℕ) (copyType : CopyType)
      (order : SwapInput) (ht : s.pingTracker = some t)
      (hbalance : d.originInputMintBalance.isSome = true) (hbuys : buysDisabled env s = false)
      (hout : isStaticToken d.originSwap.outputTokenMint = false)
      (hprice : env.priceFeed SOL = some solPriceUsd)
      (hnew : t.counts d.originSigner d.originSwap.outputTokenMint = false)
      (hlamports : t.lamportsForNext d.originSwap.outputTokenMint
        (PingTracker.swapLamports cfg.rounding env.priceFeed solPriceUsd d.originSwap
          decimals.input) = some lamports)
      (hpos : lamports ≠ 0)
      (horder : (copyType, order) =
        if t.hasShare d.originSigner d.originSwap.inputTokenMint then
          (.both, exactInOrder cfg d.originSwap.inputTokenMint d.originSwap.outputTokenMint
            lamports)
        else (.buy, exactInOrder cfg SOL d.originSwap.outputTokenMint lamports)) :
      PingCopies cfg env s d decimals copyType order

/-- A swap of one token for another is copied with an order of the wallet's mode, once the
decimals of both are known. -/
def Copies (cfg : CopyConfig) (env : ExecEnv) (s : Shared) (d : CopyDetails)
    (copyType : CopyType) (order : SwapInput) : Prop :=
  ∃ mints decimals, env.mintInfo = some mints ∧ tokenDecimals mints = some decimals ∧
    d.originSwap.inputTokenMint ≠ d.originSwap.outputTokenMint ∧
    match d.walletConfig.mode with
    | .direct => DirectCopies cfg env s d copyType order
    | .ping => PingCopies cfg env s d decimals copyType order

/-- An order that is given, and not of nothing, is the one that is asked for. -/
theorem given_order_iff {order order' : SwapInput} {copyType copyType' : CopyType} :
    ((.ok (some order') : Except ExecError (Option SwapInput)) = .ok (some order) ∧
        some copyType' = some copyType ∧ order.amount ≠ 0) ↔
      order'.amount ≠ 0 ∧ (copyType, order) = (copyType', order') := by
  constructor
  · rintro ⟨horder, hcopy, hpos⟩
    cases horder
    cases hcopy
    exact ⟨hpos, rfl⟩
  · rintro ⟨hpos, horder⟩
    cases horder
    exact ⟨rfl, rfl, hpos⟩

theorem processDirect_copies_iff (cfg : CopyConfig) (env : ExecEnv) (s : Shared)
    (d : CopyDetails) (copyType : CopyType) (order : SwapInput) :
    ((processDirect cfg (buysDisabled env s) s.history d).2.2 = .ok (some order) ∧
        (processDirect cfg (buysDisabled env s) s.history d).2.1.copyType = some copyType ∧
        order.amount ≠ 0) ↔
      d.originSwap.tokenDecimals.isSome = true ∧ DirectCopies cfg env s d copyType order := by
  unfold processDirect
  cases hdec : d.originSwap.tokenDecimals with
  | none => simp
  | some decimals =>
    cases hc : s.history d.sellKey with
    | none =>
      have hiff : DirectCopies cfg env s d copyType order ↔ copyType = .buy ∧
          buysDisabled env s = false ∧ isStaticToken d.originSwap.outputTokenMint = false ∧
          order.amount ≠ 0 ∧ order = exactInOrder cfg SOL d.originSwap.outputTokenMint
            (buyInputAmount d.walletConfig d.originSwap.inputTokenMint
              (d.originSolBalance.getD ⟨0, 0⟩) d.originSwap.inputAmount) := by
        constructor
        · intro h
          cases h with
          | held c _ _ hheld => simp [hc] at hheld
          | bought _ _ hbuys hout hpos horder => exact ⟨rfl, hbuys, hout, hpos, horder⟩
        · rintro ⟨rfl, hbuys, hout, hpos, horder⟩
          exact .bought order hc hbuys hout hpos horder
      rw [hiff]
      simp only [Option.isSome_some, true_and]
      split_ifs with hbuys hout
      · simp [hbuys]
      · simp [hout]
      · simp only [Except.ok.injEq, Option.some.injEq, Bool.not_eq_true] at hbuys hout ⊢
        simp only [hbuys, hout, true_and]
        constructor
        · rintro ⟨rfl, rfl, hpos⟩
          exact ⟨rfl, hpos, rfl⟩
        · rintro ⟨rfl, hpos, rfl⟩
          exact ⟨rfl, rfl, hpos⟩
    | some c =>
      have hiff : DirectCopies cfg env s d copyType order ↔ c.originTokensLeft ≠ 0 ∧
          c.sellInputAmount cfg.rounding d.originSwap.inputAmount ≠ 0 ∧
          directSellOrder cfg (buysDisabled env s) d
            (c.sellInputAmount cfg.rounding d.originSwap.inputAmount) = (order, copyType) := by
        constructor
        · intro h
          cases h with
          | held c' _ _ hheld hleft hpos horder =>
            obtain rfl := Option.some.inj (hc.symm.trans hheld)
            exact ⟨hleft, hpos, horder⟩
          | bought _ hnone => simp [hc] at hnone
        · rintro ⟨hleft, hpos, horder⟩
          exact .held c order copyType hc hleft hpos horder
      rw [hiff]
      simp only [Option.isSome_some, true_and]
      by_cases hleft : c.originTokensLeft = 0
      · simp [hleft]
      · have hb : c.origin.buyVolumeToken ≠ 0 := (CopyHistory.buyVolume_pos hleft).ne'
        rw [if_neg hleft, if_neg hb]
        by_cases hzero : c.sellInputAmount cfg.rounding d.originSwap.inputAmount = 0
        · simp [hzero]
        · rw [if_neg hzero]
          generalize hplan : directSellOrder cfg (buysDisabled env s) d
            (c.sellInputAmount cfg.rounding d.originSwap.inputAmount) = plan
          obtain ⟨order', copyType'⟩ := plan
          have hamount := (directSellOrder_spec hplan).2.1
          simp only [Except.ok.injEq, Option.some.injEq, hleft, hzero, not_false_eq_true, ne_eq,
            true_and, Prod.mk.injEq]
          constructor
          · rintro ⟨rfl, rfl, -⟩
            exact ⟨rfl, rfl⟩
          · rintro ⟨rfl, rfl⟩
            exact ⟨rfl, rfl, hamount ▸ hzero⟩

/-- Entering a swap in full: its wallet is new unless it counts, it may then spend what was there
for the next one, and its share in the input token is the one it had. -/
theorem PingTracker.insertSwap_entered {t t' : PingTracker} {r : Rounding} {env : ExecEnv}
    {d : CopyDetails} {pinged : Bool}
    (hne : d.originSwap.inputTokenMint ≠ d.originSwap.outputTokenMint)
    (h : t.insertSwap r d.originSigner d.originSignature d.originSwap env.priceFeed =
      (t', .ok pinged)) :
    t'.hasShare d.originSigner d.originSwap.inputTokenMint =
        t.hasShare d.originSigner d.originSwap.inputTokenMint ∧
      (pinged = true ↔ isStaticToken d.originSwap.outputTokenMint = false ∧
        t.counts d.originSigner d.originSwap.outputTokenMint = false) ∧
      (pinged = true → ∃ decimals solPriceUsd, d.originSwap.tokenDecimals = some decimals ∧
        env.priceFeed SOL = some solPriceUsd ∧
        t'.getLamportsInput d.originSwap.outputTokenMint =
          t.lamportsForNext d.originSwap.outputTokenMint
            (swapLamports r env.priceFeed solPriceUsd d.originSwap decimals.input)) := by
  unfold insertSwap at h
  by_cases hs : isStaticToken d.originSwap.outputTokenMint = true
  · simp only [hs, if_true, Prod.mk.injEq, Except.ok.injEq] at h
    obtain ⟨rfl, rfl⟩ := h
    refine ⟨touchSell_hasShare .., by simp [hs], fun hnew => by cases hnew⟩
  · have hs' : isStaticToken d.originSwap.outputTokenMint = false := by simpa using hs
    simp only [hs, Bool.false_eq_true, if_false] at h
    cases hdec : d.originSwap.tokenDecimals with
    | none => simp [hdec] at h
    | some decimals =>
      cases hprice : env.priceFeed SOL with
      | none => simp [hdec, hprice] at h
      | some solPriceUsd =>
        simp only [hdec, hprice, Prod.mk.injEq, Except.ok.injEq] at h
        obtain ⟨rfl, rfl⟩ := h
        have hcounts : (t.touchSell d.originSigner d.originSwap.inputTokenMint
            d.originSignature).counts d.originSigner d.originSwap.outputTokenMint =
              t.counts d.originSigner d.originSwap.outputTokenMint := by
          rw [counts, touchSell_pings]
          rfl
        refine ⟨?_, ?_, fun hnew => ⟨decimals, solPriceUsd, rfl, rfl, ?_⟩⟩
        · rw [addPing_hasShare hne, touchSell_hasShare]
        · rw [addPing_new, hcounts, Bool.not_eq_true']
          exact ⟨fun h => ⟨hs', h⟩, fun h => h.2⟩
        · rw [addPing_new, Bool.not_eq_true'] at hnew
          have hword : swapLamports r env.priceFeed solPriceUsd d.originSwap decimals.input <
              2 ^ 64 := F64.toU64_lt _
          rw [addPing_getLamportsInput hnew hword, touchSell_lamportsForNext]

/-- A wallet that is new to a tracked token is followed with what the next wallet may spend. -/
theorem pingCopies_iff {cfg : CopyConfig} {env : ExecEnv} {s : Shared} {d : CopyDetails}
    {t : PingTracker} {decimals : TokenDecimals} {solPriceUsd : F64} (copyType : CopyType)
    (order : SwapInput) (ht : s.pingTracker = some t)
    (hbalance : d.originInputMintBalance.isSome = true) (hbuys : buysDisabled env s = false)
    (hout : isStaticToken d.originSwap.outputTokenMint = false)
    (hdec : d.originSwap.tokenDecimals = some decimals)
    (hprice : env.priceFeed SOL = some solPriceUsd)
    (hnew : t.counts d.originSigner d.originSwap.outputTokenMint = false) :
    (∃ decimals, d.originSwap.tokenDecimals = some decimals ∧
        PingCopies cfg env s d decimals copyType order) ↔
      ∃ lamports, t.lamportsForNext d.originSwap.outputTokenMint (PingTracker.swapLamports
          cfg.rounding env.priceFeed solPriceUsd d.originSwap decimals.input) = some lamports ∧
        lamports ≠ 0 ∧ (copyType, order) =
          if t.hasShare d.originSigner d.originSwap.inputTokenMint then
            (.both, exactInOrder cfg d.originSwap.inputTokenMint d.originSwap.outputTokenMint
              lamports)
          else (.buy, exactInOrder cfg SOL d.originSwap.outputTokenMint lamports) := by
  constructor
  · rintro ⟨decimals', hdec', h⟩
    obtain rfl := Option.some.inj (hdec.symm.trans hdec')
    cases h with
    | next t₁ price₁ lamports _ _ ht₁ _ _ _ hprice₁ _ hlamports hpos horder =>
      obtain rfl := Option.some.inj (ht.symm.trans ht₁)
      obtain rfl := Option.some.inj (hprice.symm.trans hprice₁)
      exact ⟨lamports, hlamports, hpos, horder⟩
  · rintro ⟨lamports, hlamports, hpos, horder⟩
    exact ⟨decimals, hdec, .next t solPriceUsd lamports copyType order ht hbalance hbuys hout hprice
      hnew hlamports hpos horder⟩

theorem processPing_copies_iff (cfg : CopyConfig) (env : ExecEnv) (s : Shared) (d : CopyDetails)
    (copyType : CopyType) (order : SwapInput)
    (hne : d.originSwap.inputTokenMint ≠ d.originSwap.outputTokenMint) :
    ((processPing cfg env s d).2.2 = .ok (some order) ∧
        (processPing cfg env s d).2.1.copyType = some copyType ∧ order.amount ≠ 0) ↔
      ∃ decimals, d.originSwap.tokenDecimals = some decimals ∧
        PingCopies cfg env s d decimals copyType order := by
  cases ht : s.pingTracker with
  | none =>
    refine iff_of_false (by simp [processPing, ht]) ?_
    rintro ⟨decimals, -, h⟩
    cases h with
    | next t _ _ _ _ ht' => simp [ht] at ht'
  | some t =>
    cases hinsert : t.insertSwap cfg.rounding d.originSigner d.originSignature d.originSwap
        env.priceFeed with
    | mk t' inserted =>
      cases inserted with
      | error e =>
        have hrefused := (PingTracker.insertSwap_error_iff t cfg.rounding d.originSigner
          d.originSignature d.originSwap env.priceFeed).mp ⟨e, by rw [hinsert]⟩
        refine iff_of_false (fun h => ?_) ?_
        · have hfailed := (processPing_fails_iff cfg ht).mpr (.inl ⟨e, by rw [hinsert]⟩)
          obtain ⟨e', he'⟩ := hfailed
          cases h.1.symm.trans he'
        · rintro ⟨decimals, hdec, h⟩
          cases h with
          | next _ solPriceUsd _ _ _ _ _ _ _ hprice => simp [hdec, hprice] at hrefused
      | ok pinged =>
        cases hbalance : d.originInputMintBalance with
        | none =>
          refine iff_of_false (fun h => ?_) ?_
          · cases h.1.symm.trans (processPing_unbalanced cfg ht hinsert hbalance)
          · rintro ⟨decimals, -, h⟩
            cases h with
            | next _ _ _ _ _ _ hknown => simp [hbalance] at hknown
        | some balance =>
          obtain ⟨hresult, hcopy⟩ := processPing_entered cfg ht hinsert hbalance
          obtain ⟨hshare, hpinged, hlamports⟩ := PingTracker.insertSwap_entered hne hinsert
          have htoken : (pingTokenInput cfg.rounding t' d balance).isSome =
              t.hasShare d.originSigner d.originSwap.inputTokenMint := by
            rw [pingTokenInput, PingTracker.getTokenInput_isSome, hshare]
          rw [hresult]
          by_cases hbuys : (pinged && !buysDisabled env s) = true
          · obtain ⟨rfl, hbuys'⟩ : pinged = true ∧ buysDisabled env s = false := by
              simpa using hbuys
            obtain ⟨hout, hnew⟩ := hpinged.mp rfl
            obtain ⟨decimals, solPriceUsd, hdec, hprice, hspend⟩ := hlamports rfl
            have hinput : pingLamportsInput t' true (buysDisabled env s) d =
                t.lamportsForNext d.originSwap.outputTokenMint (PingTracker.swapLamports
                  cfg.rounding env.priceFeed solPriceUsd d.originSwap decimals.input) := by
              rw [pingLamportsInput, hbuys', ← hspend]
              rfl
            rw [hinput] at hcopy ⊢
            have hknown : d.originInputMintBalance.isSome = true := by rw [hbalance]; rfl
            rw [pingCopies_iff copyType order ht hknown hbuys' hout hdec hprice hnew, ← htoken]
            generalize t.lamportsForNext d.originSwap.outputTokenMint
              (PingTracker.swapLamports cfg.rounding env.priceFeed solPriceUsd d.originSwap
                decimals.input) = lamportsInput at hcopy ⊢
            cases lamportsInput with
            | none => simp
            | some lamports =>
              simp only [Option.some.injEq, exists_eq_left']
              cases htk : pingTokenInput cfg.rounding t' d balance with
              | none =>
                rw [htk] at hcopy
                rw [hcopy _ _ rfl]
                exact given_order_iff
              | some amount =>
                rw [htk] at hcopy
                rw [hcopy _ _ rfl]
                exact given_order_iff
          · have hnone : pingLamportsInput t' pinged (buysDisabled env s) d = none := if_neg hbuys
            rw [hnone]
            refine iff_of_false (by simp) ?_
            rintro ⟨decimals, -, h⟩
            cases h with
            | next t₁ _ _ _ _ ht₁ _ hbuys' hout _ hnew =>
              obtain rfl := Option.some.inj (ht.symm.trans ht₁)
              exact hbuys (by rw [hpinged.mpr ⟨hout, hnew⟩, hbuys']; rfl)

/-- An order of something is given as it is. -/
theorem map_nonzeroOrder_eq_iff (r : Except ExecError (Option SwapInput)) (order : SwapInput) :
    r.map nonzeroOrder = .ok (some order) ↔ r = .ok (some order) ∧ order.amount ≠ 0 := by
  cases r with
  | error e => simp [Except.map]
  | ok given =>
    cases given with
    | none => simp [Except.map, nonzeroOrder]
    | some order' =>
      by_cases hzero : order'.amount = 0
      · simp only [Except.map, nonzeroOrder, hzero, if_true, Except.ok.injEq, reduceCtorEq,
          Option.some.injEq, false_iff]
        rintro ⟨rfl, hpos⟩
        exact hpos hzero
      · simp only [Except.map, nonzeroOrder, hzero, if_false, Except.ok.injEq, Option.some.injEq]
        exact ⟨fun h => ⟨h, h ▸ hzero⟩, fun h => h.1⟩

/-- Sizing gives an order, and the details name what it copies, exactly when the swap is copied
with it. -/
theorem getExecutionInput_copies_iff (cfg : CopyConfig) (env : ExecEnv) (s : Shared)
    (d : CopyDetails) (copyType : CopyType) (order : SwapInput) :
    ((getExecutionInput cfg env s d).2.2 = .ok (some order) ∧
        (getExecutionInput cfg env s d).2.1.copyType = some copyType) ↔
      Copies cfg env s d copyType order := by
  unfold getExecutionInput Copies
  cases env.mintInfo with
  | none => simp
  | some mints =>
    by_cases hsame : d.originSwap.inputTokenMint = d.originSwap.outputTokenMint
    · simp [CopyDetails.resolved, hsame]
    · have hne : ¬ (d.resolved mints).originSwap.inputTokenMint =
          (d.resolved mints).originSwap.outputTokenMint := hsame
      simp only [hne, if_false, processMode]
      cases hmode : d.walletConfig.mode with
      | direct =>
        have hm : (d.resolved mints).walletConfig.mode = .direct := hmode
        have hiff := processDirect_copies_iff cfg env s (d.resolved mints) copyType order
        have hstate : DirectCopies cfg env s (d.resolved mints) copyType order ↔
            DirectCopies cfg env s d copyType order := by
          constructor <;> intro h <;> cases h
          case mp.held c hc hleft hpos horder => exact .held c _ _ hc hleft hpos horder
          case mp.bought hc hbuys hout hpos horder => exact .bought _ hc hbuys hout hpos horder
          case mpr.held c hc hleft hpos horder => exact .held c _ _ hc hleft hpos horder
          case mpr.bought hc hbuys hout hpos horder => exact .bought _ hc hbuys hout hpos horder
        simp only [hm, map_nonzeroOrder_eq_iff]
        rw [and_right_comm, and_assoc, hiff, hstate]
        simp [hsame, Option.isSome_iff_exists, CopyDetails.resolved]
      | ping =>
        have hm : (d.resolved mints).walletConfig.mode = .ping := hmode
        have hiff := processPing_copies_iff cfg env s (d.resolved mints) copyType order hne
        have hstate : ∀ decimals, PingCopies cfg env s (d.resolved mints) decimals copyType order ↔
            PingCopies cfg env s d decimals copyType order := by
          intro decimals
          constructor <;> rintro ⟨t, price, lamports, _, _, ht, hb, hbuys, hout, hprice, hnew, hl,
            hpos, horder⟩ <;>
            exact .next t price lamports _ _ ht hb hbuys hout hprice hnew hl hpos horder
        simp only [hm, map_nonzeroOrder_eq_iff]
        have hdec : (d.resolved mints).originSwap.tokenDecimals = tokenDecimals mints := rfl
        rw [and_right_comm, and_assoc, hiff]
        simp [hsame, hstate, hdec]

/-- An order that is given names what it copies. -/
theorem getExecutionInput_exists_copyType {cfg : CopyConfig} {env : ExecEnv} {s : Shared}
    {d : CopyDetails} {order : SwapInput}
    (h : (getExecutionInput cfg env s d).2.2 = .ok (some order)) :
    ∃ copyType, (getExecutionInput cfg env s d).2.1.copyType = some copyType := by
  generalize hresult : getExecutionInput cfg env s d = result at h ⊢
  obtain ⟨s', d', given⟩ := result
  simp only at h ⊢
  subst h
  obtain ⟨mints, -, -, -, hmode⟩ := getExecutionInput_eq_order hresult
  unfold processMode at hmode
  split at hmode
  · have hcase := processDirect_cases cfg (buysDisabled env s) s.history (d.resolved mints)
    generalize processDirect cfg (buysDisabled env s) s.history (d.resolved mints) = direct
      at hmode hcase
    cases hcase with
    | sell c order' copyType =>
      simp only [Prod.mk.injEq] at hmode
      exact ⟨copyType, by rw [← hmode.2.1]⟩
    | buy order' =>
      simp only [Prod.mk.injEq] at hmode
      exact ⟨.buy, by rw [← hmode.2.1]⟩
    | unresolved | exhausted | skipSell | skipBuy => simp at hmode
  · obtain ⟨-, ⟨hboth, -⟩ | ⟨hbuy, -⟩⟩ := processPing_order hmode
    · exact ⟨.both, hboth⟩
    · exact ⟨.buy, hbuy⟩

end Biscuit.Copy
