import Biscuit.Models.Copy.Pings
import Biscuit.Models.Copy.Retry

/-!
# Buys of the ping mode and their tiers

An order of the ping mode is sized against the executions counted so far, and counted when
it is confirmed. Any number of orders is in flight in between. As many buys of a token are
confirmed as there are tiers at most, as long as no wallet is counted while the orders in
flight already use up the tiers, and nothing but buys is confirmed.
-/

namespace Biscuit.Copy

/-- What holds of an order sized in the ping mode and of its details. -/
structure IsPingOrder (d : CopyDetails) (input : SwapInput) : Prop where
  ping : d.walletConfig.mode = .ping
  resolved : d.originSwap.tokenDecimals.isSome
  buys : d.buys = true
  fundMint : d.sells = false → input.inputTokenMint = SOL
  buyMint : input.outputTokenMint = d.originSwap.outputTokenMint

namespace PingTracker

/-- Whether a wallet counts for a token. -/
def counts (t : PingTracker) (wallet token : Pubkey) : Bool :=
  (t.pings token).any fun ping => decide (wallet ∈ ping.wallets)

/-- How many executions of a token are counted. -/
def executions (t : PingTracker) (token : Pubkey) : ℕ :=
  ((t.pings token).map Ping.executionCount).getD 0

/-- Whether any wallet was counted for a token. -/
def pinged (t : PingTracker) (token : Pubkey) : Bool := (t.pings token).isSome

/-! ## Swaps count wallets, executions count executions -/

theorem addPing_executions (t : PingTracker) (origin token : Pubkey) (signature : Signature)
    (lamports : ℕ) (token' : Pubkey) :
    (t.addPing origin token signature lamports).1.executions token' = t.executions token' := by
  unfold addPing executions
  by_cases h : token' = token
  · subst h
    cases hp : t.pings token' <;> simp only [Function.update_self] <;> rfl
  · cases hp : t.pings token <;> simp only [Function.update_of_ne h]

theorem addPing_pinged (t : PingTracker) (origin token : Pubkey) (signature : Signature)
    (lamports : ℕ) (token' : Pubkey) :
    (t.addPing origin token signature lamports).1.pinged token' =
      (t.pinged token' || decide (token' = token)) := by
  obtain ⟨ping, hpings, -⟩ := t.addPing_pings origin token signature lamports
  unfold pinged
  rw [hpings]
  by_cases h : token' = token
  · subst h
    simp only [Function.update_self, Option.isSome_some, decide_true, Bool.or_true]
  · simp only [Function.update_of_ne h, h, decide_false, Bool.or_false]

theorem touchSell_tiers (t : PingTracker) (origin inputToken : Pubkey) (signature : Signature) :
    (t.touchSell origin inputToken signature).tiers = t.tiers := by
  unfold touchSell
  cases t.walletHistory (origin, inputToken) <;> rfl

/-- Two trackers that count the same executions of the same tokens and have the same tiers,
except that the second one may know more tokens. -/
structure SameCounts (t t' : PingTracker) : Prop where
  tiers : t'.tiers = t.tiers
  executions : ∀ token, t'.executions token = t.executions token
  pinged : ∀ token, t.pinged token = true → t'.pinged token = true

/-- Entering a swap counts no execution. -/
theorem insertSwap_sameCounts (t : PingTracker) (r : Rounding) (origin : Pubkey)
    (signature : Signature) (swap : ResolvedSwap) (priceFeed : PriceFeed) :
    t.SameCounts (t.insertSwap r origin signature swap priceFeed).1 := by
  have htouch : t.SameCounts (t.touchSell origin swap.inputTokenMint signature) :=
    { tiers := touchSell_tiers ..
      executions := fun token => by rw [executions, touchSell_pings]; rfl
      pinged := fun token h => by rw [pinged, touchSell_pings]; exact h }
  rcases t.insertSwap_fst r origin signature swap priceFeed with h | ⟨-, lamports, h⟩
  · rw [h]
    exact htouch
  · rw [h]
    exact
      { tiers := htouch.tiers
        executions := fun token => (addPing_executions ..).trans (htouch.executions token)
        pinged := fun token hp => by
          rw [addPing_pinged, htouch.pinged token hp, Bool.true_or] }

/-- A swap that reports a new wallet has known decimals, and its wallet did not count for the
token before. -/
theorem insertSwap_new {t : PingTracker} {r : Rounding} {origin : Pubkey} {signature : Signature}
    {swap : ResolvedSwap} {priceFeed : PriceFeed}
    (h : (t.insertSwap r origin signature swap priceFeed).2 = .ok true) :
    swap.tokenDecimals.isSome ∧ t.counts origin swap.outputTokenMint = false := by
  unfold insertSwap at h
  by_cases hs : isStaticToken swap.outputTokenMint = true
  · simp only [hs, if_true, Except.ok.injEq, Bool.false_eq_true] at h
  · have hs' : isStaticToken swap.outputTokenMint = false := by simpa using hs
    simp only [hs', Bool.false_eq_true, if_false] at h
    cases hd : swap.tokenDecimals with
    | none =>
      rw [hd] at h
      cases h
    | some decimals =>
      cases hp : priceFeed SOL with
      | none =>
        rw [hd, hp] at h
        cases h
      | some price =>
        simp only [hd, hp, Except.ok.injEq] at h
        refine ⟨rfl, ?_⟩
        unfold addPing at h
        unfold counts
        rw [touchSell_pings] at h
        cases hping : t.pings swap.outputTokenMint with
        | none => rfl
        | some ping =>
          simp only [hping, decide_eq_true_eq] at h
          simpa only [Option.any_some, decide_eq_false_iff_not] using h

/-- A buy is sized only while fewer executions are counted than there are tiers. -/
theorem getLamportsInput_isSome {t : PingTracker} {token : Pubkey}
    (h : (t.getLamportsInput token).isSome) :
    t.pinged token = true ∧ t.executions token < t.tiers.length := by
  unfold getLamportsInput at h
  unfold pinged executions
  cases hp : t.pings token with
  | none =>
    rw [hp] at h
    cases h
  | some ping =>
    simp only [hp] at h
    split at h
    · cases h
    · next hlt => exact ⟨rfl, Nat.lt_of_not_le hlt⟩

/-- An execution counts for its token, unless the token is unknown or the part that is kept
out of it is refused. -/
theorem step_execution_counts (r : Rounding) (t : PingTracker) (token : Pubkey)
    (tokenDecimals volumeToken : ℕ) (usd sol : F64) {moonbagBps : ℕ} (hbps : moonbagBps < 5000)
    (hpinged : t.pinged token = true) (hcount : t.executions token < 255) :
    let t' := t.step r (.execution token tokenDecimals volumeToken usd sol .buy (some moonbagBps))
    t'.tiers = t.tiers ∧ (∀ token', t'.pinged token' = t.pinged token') ∧
      ∀ token', t'.executions token' =
        t.executions token' + if token' = token then 1 else 0 := by
  have hdust : ∃ dust, dustAmount r volumeToken .buy (some moonbagBps) = .ok dust := by
    unfold dustAmount
    rw [Option.getD_some, if_neg (Nat.not_le.mpr hbps)]
    exact ⟨_, rfl⟩
  obtain ⟨dust, hdust⟩ := hdust
  have hok : ∃ t' volume, t.insertExecution r token tokenDecimals volumeToken usd sol .buy
      (some moonbagBps) = .ok (t', volume) := by
    unfold insertExecution
    rw [hdust]
    exact ⟨_, _, rfl⟩
  obtain ⟨t', volume, hok⟩ := hok
  obtain ⟨-, htiers, hpings⟩ := insertExecution_pings hok
  obtain ⟨ping, hp⟩ := Option.isSome_iff_exists.mp hpinged
  simp only [step, hok]
  refine ⟨htiers, fun token' => ?_, fun token' => ?_⟩
  · unfold pinged
    rw [hpings]
    by_cases h : token' = token
    · rw [h, Function.update_self, Option.isSome_map]
    · rw [Function.update_of_ne h]
  · unfold executions at hcount ⊢
    rw [hpings]
    by_cases h : token' = token
    · subst h
      simp only [hp, Option.map_some, Option.getD_some] at hcount
      simp only [Function.update_self, hp, Option.map_some, Option.getD_some, if_true]
      omega
    · rw [Function.update_of_ne h, if_neg h, Nat.add_zero]

end PingTracker

/-! ## Sizing and settling one order -/

/-- In the ping mode a swap is entered into the tracker, whatever else comes of it; an order
is a buy for a wallet that is new to the token. -/
theorem processPing_spec (cfg : CopyConfig) (env : ExecEnv) {s : Shared} {t : PingTracker}
    (ht : s.pingTracker = some t) {d : CopyDetails} (hmode : d.walletConfig.mode = .ping) :
    let inserted := t.insertSwap cfg.rounding d.originSigner d.originSignature d.originSwap
      env.priceFeed
    (processPing cfg env s d).1 = { s with pingTracker := some inserted.1 } ∧
      (processPing cfg env s d).2.1.originSwap = d.originSwap ∧
      ∀ input, (processPing cfg env s d).2.2 = .ok (some input) →
        IsPingOrder (processPing cfg env s d).2.1 input ∧
        t.counts d.originSigner d.originSwap.outputTokenMint = false ∧
        buysDisabled env s = false ∧
        (inserted.1.getLamportsInput d.originSwap.outputTokenMint).isSome := by
  intro inserted
  have hnew : inserted.2 = .ok true → d.originSwap.tokenDecimals.isSome ∧
      t.counts d.originSigner d.originSwap.outputTokenMint = false :=
    PingTracker.insertSwap_new
  unfold processPing
  simp only [ht]
  change _ ∧ _ ∧ _
  generalize hi : inserted = result at hnew
  have hi' : t.insertSwap cfg.rounding d.originSigner d.originSignature d.originSwap env.priceFeed =
    result := hi
  rw [hi']
  obtain ⟨t', pinged⟩ := result
  cases pinged with
  | error e =>
    cases e with
    | tokenDecimals => exact ⟨rfl, rfl, fun input h => by cases h⟩
    | solPrice => exact ⟨rfl, rfl, fun input h => by cases h⟩
  | ok pinged =>
    cases hbalance : d.originInputMintBalance with
    | none => exact ⟨rfl, rfl, fun input h => by cases h⟩
    | some balance =>
      simp only
      have hbought : ∀ lamports,
          (if (pinged && !buysDisabled env { s with pingTracker := some t' }) = true then
            t'.getLamportsInput d.originSwap.outputTokenMint else none) = some lamports →
          pinged = true ∧ buysDisabled env s = false ∧
            (t'.getLamportsInput d.originSwap.outputTokenMint).isSome := by
        intro lamports h
        split at h
        · next hc =>
          simp only [Bool.and_eq_true, Bool.not_eq_true'] at hc
          exact ⟨hc.1, hc.2, by rw [h]; rfl⟩
        · cases h
      split
      · next token lamports htoken hlamports =>
        obtain ⟨rfl, hdisabled, hsome⟩ := hbought lamports hlamports
        obtain ⟨hdecimals, hcounts⟩ := hnew rfl
        refine ⟨rfl, rfl, fun input h => ⟨?_, hcounts, hdisabled, hsome⟩⟩
        cases h
        exact ⟨hmode, hdecimals, rfl, fun hs => (by cases hs), rfl⟩
      · exact ⟨rfl, rfl, fun input h => by cases h⟩
      · next lamports htoken hlamports =>
        obtain ⟨rfl, hdisabled, hsome⟩ := hbought lamports hlamports
        obtain ⟨hdecimals, hcounts⟩ := hnew rfl
        refine ⟨rfl, rfl, fun input h => ⟨?_, hcounts, hdisabled, hsome⟩⟩
        cases h
        exact ⟨hmode, hdecimals, rfl, fun _ => rfl, rfl⟩
      · exact ⟨rfl, rfl, fun input h => by cases h⟩

/-- What entering one origin trade does, whatever order comes of it. -/
structure EntersSwap (cfg : CopyConfig) (env : ExecEnv) (s : Shared) (d : CopyDetails) : Prop where
  /-- The tracker counts the same executions. -/
  tracker : ∀ t, s.pingTracker = some t →
    ∃ t', (getExecutionInput cfg env s d).1.pingTracker = some t' ∧ t.SameCounts t'
  /-- An order buys for a wallet that did not count before, while tiers are left. -/
  order : ∀ t input, s.pingTracker = some t →
    (getExecutionInput cfg env s d).2.2 = .ok (some input) →
      IsPingOrder (getExecutionInput cfg env s d).2.1 input ∧
      (getExecutionInput cfg env s d).2.1.originSwap.outputTokenMint =
        d.originSwap.outputTokenMint ∧
      t.counts d.originSigner d.originSwap.outputTokenMint = false ∧
      buysDisabled env s = false ∧
      t.executions d.originSwap.outputTokenMint < t.tiers.length ∧
      ∀ t', (getExecutionInput cfg env s d).1.pingTracker = some t' →
        t'.pinged d.originSwap.outputTokenMint = true

/-- An order of nothing is dropped, every other one is kept. -/
theorem map_nonzeroOrder {result : Except ExecError (Option SwapInput)} {input : SwapInput}
    (h : result.map nonzeroOrder = .ok (some input)) : result = .ok (some input) := by
  cases result with
  | error e => cases h
  | ok order =>
    simp only [Except.map, Except.ok.injEq] at h
    cases order with
    | none => cases h
    | some order =>
      simp only [nonzeroOrder] at h
      split at h
      · cases h
      · exact congrArg Except.ok h

theorem getExecutionInput_enters (cfg : CopyConfig) (env : ExecEnv) (s : Shared)
    {d : CopyDetails} (hmode : d.walletConfig.mode = .ping) : EntersSwap cfg env s d := by
  have hidle : ∀ {d' result}, getExecutionInput cfg env s d = (s, d', result) →
      (∀ input, result ≠ .ok (some input)) → EntersSwap cfg env s d := by
    intro d' result h hresult
    refine ⟨fun t ht => ⟨t, ?_, rfl, fun _ => rfl, fun _ hp => hp⟩, fun t input ht hi => ?_⟩
    · rw [h]
      exact ht
    · rw [h] at hi
      exact (hresult input hi).elim
  cases hmints : env.mintInfo with
  | none =>
    have h : getExecutionInput cfg env s d = (s, d, .error .mintInfo) := by
      simp only [getExecutionInput, hmints]
    exact hidle h fun _ hi => by cases hi
  | some mints =>
    by_cases hsame : (d.resolved mints).originSwap.inputTokenMint =
        (d.resolved mints).originSwap.outputTokenMint
    · have h : getExecutionInput cfg env s d = (s, d.resolved mints, .ok none) := by
        simp only [getExecutionInput, hmints, hsame, if_true]
      exact hidle h fun _ hi => by cases hi
    · have hmode' : (d.resolved mints).walletConfig.mode = .ping := hmode
      have h : getExecutionInput cfg env s d =
          ((processPing cfg env s (d.resolved mints)).1,
            (processPing cfg env s (d.resolved mints)).2.1,
            (processPing cfg env s (d.resolved mints)).2.2.map nonzeroOrder) := by
        simp only [getExecutionInput, hmints, hsame, if_false, processMode, hmode']
      refine ⟨fun t ht => ?_, fun t input ht hi => ?_⟩
      · obtain ⟨hs, -⟩ := processPing_spec cfg env ht hmode'
        rw [h, hs]
        exact ⟨_, rfl, t.insertSwap_sameCounts ..⟩
      · obtain ⟨hs, hswap, horder⟩ := processPing_spec cfg env ht hmode'
        rw [h] at hi ⊢
        obtain ⟨hping, hcounts, hdisabled, hsized⟩ := horder input (map_nonzeroOrder hi)
        obtain ⟨hpinged, hlt⟩ := PingTracker.getLamportsInput_isSome hsized
        have hcountsSame := t.insertSwap_sameCounts cfg.rounding (d.resolved mints).originSigner
          (d.resolved mints).originSignature (d.resolved mints).originSwap env.priceFeed
        rw [hcountsSame.executions, hcountsSame.tiers] at hlt
        refine ⟨hping, by rw [hswap]; rfl, hcounts, hdisabled, hlt, fun t' ht' => ?_⟩
        simp only [hs, Option.some.injEq] at ht'
        rw [← ht']
        exact hpinged

/-- Every order of the ping mode is a buy with known decimals. -/
theorem getExecutionInput_isPingOrder {cfg : CopyConfig} {env : ExecEnv} {s s' : Shared}
    {d d' : CopyDetails} {input : SwapInput} (hmode : d.walletConfig.mode = .ping)
    (h : getExecutionInput cfg env s d = (s', d', .ok (some input))) : IsPingOrder d' input := by
  obtain ⟨-, t, -, -, ht, -⟩ := getExecutionInput_ping hmode h
  have horder := (getExecutionInput_enters cfg env s hmode).order t input ht (by rw [h])
  rw [h] at horder
  exact horder.1

/-- In the ping mode recording a side is one execution of the tracker. -/
theorem Shared.record_pingTracker (s : Shared) (cfg : CopyConfig) {d : CopyDetails}
    (hmode : d.walletConfig.mode = .ping) (signature : Signature) (side : TradeSide) :
    (s.record cfg d signature side).1.pingTracker = s.pingTracker.map fun t =>
      t.step cfg.rounding (.execution side.token side.decimals side.execVolume side.execPriceUsd
        side.execPriceSol side.direction (some cfg.moonbagBps)) := by
  unfold Shared.record
  simp only [hmode]
  cases ht : s.pingTracker with
  | none => exact ht
  | some t =>
    simp only [Option.map_some, PingTracker.step]
    cases t.insertExecution cfg.rounding side.token side.decimals side.execVolume
        side.execPriceUsd side.execPriceSol side.direction (some cfg.moonbagBps) with
    | error e => exact ht
    | ok result => rfl

theorem Shared.switchBuys_pingTracker (s : Shared) (cfg : CopyConfig)
    (amountOut : Option (ℕ × ℕ)) : (s.switchBuys cfg amountOut).pingTracker = s.pingTracker := by
  cases amountOut <;> rfl

/-- A confirmed order that only buys is one execution of its output token. -/
theorem handleSuccessTxn_ping (cfg : CopyConfig) (env : SuccessEnv) (s : Shared)
    {d : CopyDetails} {input : SwapInput} (h : IsPingOrder d input) (hsells : d.sells = false)
    (quote : QuoteAnswer) (signature : Signature) :
    ∃ s' trades decimals volume usd sol,
      handleSuccessTxn cfg env s { d with quoteOutput := some (quote.details input) } signature =
        some (s', trades) ∧
      s'.pingTracker = s.pingTracker.map fun t =>
        t.step cfg.rounding (.execution d.originSwap.outputTokenMint decimals volume usd sol .buy
          (some cfg.moonbagBps)) := by
  obtain ⟨origin, horigin⟩ := Option.isSome_iff_exists.mp h.resolved
  have htype : d.copyType = some .buy := by
    have hbuys := h.buys
    unfold CopyDetails.buys at hbuys
    unfold CopyDetails.sells at hsells
    cases hc : d.copyType with
    | none => rw [hc] at hbuys; cases hbuys
    | some copyType => cases copyType with
      | sell => rw [hc] at hbuys; cases hbuys
      | buy => rfl
      | both => rw [hc] at hsells; cases hsells
  have hin : ∃ n, (quote.details input).inputDecimals d.originSwap.inputTokenMint origin =
      some n := QuoteDetails.exists_inputDecimals origin (.inr (h.fundMint hsells))
  have hout : ∃ n, (quote.details input).outputDecimals d.originSwap.outputTokenMint origin =
      some n := QuoteDetails.exists_outputDecimals origin (.inl h.buyMint)
  obtain ⟨inDecimals, hin⟩ := hin
  obtain ⟨outDecimals, hout⟩ := hout
  let d' : CopyDetails := { d with quoteOutput := some (quote.details input) }
  let side := buySide env d' (quote.details input) outDecimals
  let recorded := (s.switchBuys cfg env.amountOut).record cfg d' signature side
  refine ⟨recorded.1, recorded.2, side.decimals, side.execVolume, side.execPriceUsd,
    side.execPriceSol, ?_, ?_⟩
  · simp only [handleSuccessTxn, horigin, htype, hin, hout, Shared.recordIf, CopyType.sells,
      CopyType.buys, Bool.false_eq_true, if_false, if_true, List.nil_append]
    rfl
  · have hrecord := (s.switchBuys cfg env.amountOut).record_pingTracker cfg (d := d') h.ping
      signature side
    rw [Shared.switchBuys_pingTracker] at hrecord
    exact hrecord

/-! ## The system -/

/-- An order sized in the ping mode. -/
structure PingOrder where
  details : CopyDetails
  input : SwapInput
  sized : IsPingOrder details input

/-- The token that an order buys. -/
def PingOrder.token (o : PingOrder) : Pubkey := o.details.originSwap.outputTokenMint

/-- A weight of one for the orders that buy a token. -/
def PingOrder.buying (o : PingOrder) (token : Pubkey) : ℕ := if o.token = token then 1 else 0

theorem PingOrder.buying_of_token {o : PingOrder} {token : Pubkey} (h : o.token = token) :
    o.buying token = 1 := if_pos h

theorem PingOrder.buying_of_other {o : PingOrder} {token : Pubkey} (h : o.token ≠ token) :
    o.buying token = 0 := if_neg h

/-- The shared state, the orders in flight, and the orders confirmed so far. -/
structure PingBook where
  shared : Shared
  inFlight : List PingOrder
  confirmed : List PingOrder

/-- One step of the ping mode. -/
inductive PingBookEvent
  /-- `process_ping` runs for an origin swap. -/
  | swap (env : ExecEnv) (d : CopyDetails)
  /-- The transaction of an order in flight is confirmed. -/
  | confirm (i : ℕ) (quote : QuoteAnswer) (env : SuccessEnv) (signature : Signature)
  /-- An order in flight is given up, or executed again as a new swap. -/
  | fail (i : ℕ)

namespace PingBook

/-- Nothing was seen yet. -/
def init (tiers : List (ℕ × ℕ)) (buyDisabled : Bool) : PingBook :=
  ⟨⟨.empty, some (.empty tiers), buyDisabled⟩, [], []⟩

/-- Enter one origin swap; the order, if there is one, is in flight from now on. -/
def swap (cfg : CopyConfig) (s : PingBook) (env : ExecEnv) (d : CopyDetails) : PingBook :=
  if hmode : d.walletConfig.mode = .ping then
    match horder : getExecutionInput cfg env s.shared d with
    | (shared, d', .ok (some input)) =>
      { s with
        shared
        inFlight := s.inFlight ++ [⟨d', input, getExecutionInput_isPingOrder hmode horder⟩] }
    | (shared, _, _) => { s with shared }
  else s

/-- Record a confirmed order. -/
def confirm (cfg : CopyConfig) (s : PingBook) (i : ℕ) (quote : QuoteAnswer) (env : SuccessEnv)
    (signature : Signature) : PingBook :=
  match s.inFlight[i]? with
  | none => s
  | some o =>
    match handleSuccessTxn cfg env s.shared
        { o.details with quoteOutput := some (quote.details o.input) } signature with
    | none => s
    | some (shared, _) =>
      { shared
        inFlight := s.inFlight.eraseIdx i
        confirmed := s.confirmed ++ [o] }

/-- Give an order up; the tracker keeps its wallet. -/
def fail (s : PingBook) (i : ℕ) : PingBook := { s with inFlight := s.inFlight.eraseIdx i }

/-- The step function of the ping mode. -/
def step (cfg : CopyConfig) (s : PingBook) : PingBookEvent → PingBook
  | .swap env d => s.swap cfg env d
  | .confirm i quote env signature => s.confirm cfg i quote env signature
  | .fail i => s.fail i

/-- How many buys of a token were confirmed. -/
def bought (s : PingBook) (token : Pubkey) : ℕ := tally (PingOrder.buying · token) s.confirmed

/-- How many buys of a token are in flight. -/
def buying (s : PingBook) (token : Pubkey) : ℕ := tally (PingOrder.buying · token) s.inFlight

/-- How many executions of a token the tracker has counted. -/
def executions (s : PingBook) (token : Pubkey) : ℕ :=
  (s.shared.pingTracker.map (·.executions token)).getD 0

/-- The buys of every token stay within the tiers, and only buys use them up. -/
def WithinTiers (tiers : List (ℕ × ℕ)) (s : PingBook) : Prop :=
  ∀ token, s.bought token ≤ tiers.length ∧ s.executions token ≤ s.bought token

/-- A wallet that is counted for a token finds tiers that the orders in flight leave over, or
none at all. -/
def FitsSwap (tiers : List (ℕ × ℕ)) (s : PingBook) (env : ExecEnv) (d : CopyDetails) : Prop :=
  buysDisabled env s.shared = false →
    (s.shared.pingTracker.any (·.counts d.originSigner d.originSwap.outputTokenMint)) = false →
    s.executions d.originSwap.outputTokenMint < tiers.length →
    s.executions d.originSwap.outputTokenMint + s.buying d.originSwap.outputTokenMint <
      tiers.length

/-- A confirmed order only buys, its execution is not refused, and the counter of its token
does not wrap. -/
def FitsConfirm (cfg : CopyConfig) (s : PingBook) (i : ℕ) : Prop :=
  cfg.moonbagBps < 5000 ∧
    (s.inFlight[i]?).all fun o => !o.details.sells && decide (s.executions o.token < 255)

/-- What a step has to meet for the buys to stay within the tiers. -/
def Fits (cfg : CopyConfig) (tiers : List (ℕ × ℕ)) (s : PingBook) : PingBookEvent → Prop
  | .swap env d => s.FitsSwap tiers env d
  | .confirm i _ _ _ => s.FitsConfirm cfg i
  | .fail _ => True

instance (tiers : List (ℕ × ℕ)) (s : PingBook) (env : ExecEnv) (d : CopyDetails) :
    Decidable (s.FitsSwap tiers env d) := inferInstanceAs (Decidable (_ → _ → _ → _))

instance (cfg : CopyConfig) (s : PingBook) (i : ℕ) : Decidable (s.FitsConfirm cfg i) :=
  inferInstanceAs (Decidable (_ ∧ _))

instance (cfg : CopyConfig) (tiers : List (ℕ × ℕ)) (s : PingBook) :
    ∀ e, Decidable (s.Fits cfg tiers e)
  | .swap env d => inferInstanceAs (Decidable (s.FitsSwap tiers env d))
  | .confirm i _ _ _ => inferInstanceAs (Decidable (s.FitsConfirm cfg i))
  | .fail _ => inferInstanceAs (Decidable True)

/-! ## Orders in flight are counted against the tiers -/

/-- Every confirmed buy was counted, and the orders in flight will still fit. -/
structure Counted (tiers : List (ℕ × ℕ)) (s : PingBook) (t : PingTracker) : Prop where
  tracker : s.shared.pingTracker = some t
  hasTiers : t.tiers = tiers
  counted : ∀ token, t.executions token = s.bought token
  fits : ∀ token, s.bought token + s.buying token ≤ tiers.length
  pinged : ∀ o ∈ s.inFlight, t.pinged o.token = true

variable {cfg : CopyConfig} {tiers : List (ℕ × ℕ)} {s : PingBook} {t : PingTracker}

theorem counted_init (buyDisabled : Bool) :
    (init tiers buyDisabled).Counted tiers (.empty tiers) where
  tracker := rfl
  hasTiers := rfl
  counted _ := rfl
  fits _ := Nat.zero_le _
  pinged _ h := by cases h

/-- A swap only adds tokens to the tracker, and at most one order that still fits. -/
theorem Counted.swap (hs : s.Counted tiers t) (env : ExecEnv) (d : CopyDetails)
    (hfits : s.FitsSwap tiers env d) : ∃ t', (s.swap cfg env d).Counted tiers t' := by
  unfold PingBook.swap
  split
  · next hmode =>
    have henter := getExecutionInput_enters cfg env s.shared hmode
    obtain ⟨t', ht', hsame⟩ := henter.tracker t hs.tracker
    refine ⟨t', ?_⟩
    split
    · next shared d' input horder =>
      obtain ⟨-, htoken, hcounts, hdisabled, hlt, hpinged⟩ :=
        henter.order t input hs.tracker (by rw [horder])
      rw [horder] at htoken ht' hpinged
      let o : PingOrder := ⟨d', input, getExecutionInput_isPingOrder hmode horder⟩
      have ho : o.token = d.originSwap.outputTokenMint := htoken
      have hexecutions : s.executions d.originSwap.outputTokenMint =
          t.executions d.originSwap.outputTokenMint := by rw [PingBook.executions, hs.tracker]; rfl
      have hroom := hfits hdisabled (by rw [hs.tracker]; exact hcounts)
        (by rw [hexecutions, ← hs.hasTiers]; exact hlt)
      rw [hexecutions, hs.counted] at hroom
      refine ⟨ht', hsame.tiers.trans hs.hasTiers, fun token => ?_, fun token => ?_, fun p hp => ?_⟩
      · exact (hsame.executions token).trans (hs.counted token)
      · have hbefore := hs.fits token
        simp only [bought, buying, tally_append, tally_cons, tally_nil] at hbefore hroom ⊢
        by_cases hk : o.token = token
        · rw [PingOrder.buying_of_token hk]
          rw [← ho, hk] at hroom
          omega
        · rw [PingOrder.buying_of_other hk]
          omega
      · rcases List.mem_append.mp hp with hp | hp
        · exact hsame.pinged _ (hs.pinged p hp)
        · obtain rfl := List.mem_singleton.mp hp
          exact (congrArg t'.pinged ho).trans (hpinged t' ht')
    · next shared d' result horder hnone =>
      rw [hnone] at ht'
      exact ⟨ht', hsame.tiers.trans hs.hasTiers,
        fun token => (hsame.executions token).trans (hs.counted token), hs.fits,
        fun o ho => hsame.pinged _ (hs.pinged o ho)⟩
  · exact ⟨t, hs⟩

/-- A confirmed buy moves from the orders in flight to the counter of its token. -/
theorem Counted.confirm (hs : s.Counted tiers t) (i : ℕ) (quote : QuoteAnswer) (env : SuccessEnv)
    (signature : Signature) (hfits : s.FitsConfirm cfg i) :
    ∃ t', (s.confirm cfg i quote env signature).Counted tiers t' := by
  unfold PingBook.confirm
  cases ho : s.inFlight[i]? with
  | none => exact ⟨t, hs⟩
  | some o =>
    obtain ⟨hbps, hall⟩ := hfits
    simp only [ho, Option.all_some, Bool.and_eq_true, Bool.not_eq_true', decide_eq_true_eq] at hall
    obtain ⟨hsells, hcount⟩ := hall
    have hmem : o ∈ s.inFlight := List.mem_of_getElem? ho
    obtain ⟨s', trades, decimals, volume, usd, sol, hsuccess, htracker⟩ :=
      handleSuccessTxn_ping cfg env s.shared o.sized hsells quote signature
    rw [hs.tracker, Option.map_some] at htracker
    rw [PingBook.executions, hs.tracker] at hcount
    obtain ⟨htiers, hpinged, hexecutions⟩ := PingTracker.step_execution_counts cfg.rounding t
      o.token decimals volume usd sol hbps (hs.pinged o hmem) hcount
    simp only [hsuccess]
    refine ⟨_, htracker, htiers.trans hs.hasTiers, fun token => ?_, fun token => ?_, fun p hp => ?_⟩
    · refine (hexecutions token).trans ?_
      rw [hs.counted token]
      simp only [bought, tally_append, tally_cons, tally_nil, Nat.add_zero, PingOrder.buying,
        eq_comm]
    · have hbefore := hs.fits token
      have herase := tally_eraseIdx (f := (PingOrder.buying · token)) ho
      simp only [bought, buying, tally_append, tally_cons, tally_nil] at hbefore ⊢
      omega
    · exact (hpinged p.token).trans (hs.pinged p (List.mem_of_mem_eraseIdx hp))

theorem Counted.fail (hs : s.Counted tiers t) (i : ℕ) : (s.fail i).Counted tiers t where
  tracker := hs.tracker
  hasTiers := hs.hasTiers
  counted := hs.counted
  fits token := by
    have hbefore := hs.fits token
    cases ho : s.inFlight[i]? with
    | none =>
      simp only [PingBook.fail, List.eraseIdx_of_length_le (List.getElem?_eq_none_iff.mp ho)]
      exact hbefore
    | some o =>
      have herase := tally_eraseIdx (f := (PingOrder.buying · token)) ho
      simp only [PingBook.fail, bought, buying] at hbefore ⊢
      omega
  pinged o ho := hs.pinged o (List.mem_of_mem_eraseIdx ho)

theorem step_counted (s : PingBook) (e : PingBookEvent) (hs : ∃ t, s.Counted tiers t)
    (hfits : s.Fits cfg tiers e) : ∃ t, (s.step cfg e).Counted tiers t := by
  obtain ⟨t, hs⟩ := hs
  cases e with
  | swap env d => exact hs.swap env d hfits
  | confirm i quote env signature => exact hs.confirm i quote env signature hfits
  | fail i => exact ⟨t, hs.fail i⟩

theorem Counted.withinTiers (hs : s.Counted tiers t) : s.WithinTiers tiers := by
  intro token
  refine ⟨le_trans (Nat.le_add_right _ _) (hs.fits token), ?_⟩
  rw [PingBook.executions, hs.tracker, ← hs.counted token]
  exact le_rfl

/-- In every run whose steps all fit, no more buys of a token are confirmed than there are
tiers, and only buys use the tiers up. -/
theorem withinTiers_of_fits (cfg : CopyConfig) (tiers : List (ℕ × ℕ)) (buyDisabled : Bool)
    (es : List PingBookEvent)
    (h : Along (step cfg) (fun s e => s.Fits cfg tiers e) (init tiers buyDisabled) es) :
    Visits (step cfg) (fun s => s.WithinTiers tiers) (init tiers buyDisabled) es := by
  refine Along.strengthen (I := fun s => ∃ t, s.Counted tiers t) step_counted (fun s e hs hfits => ?_)
    ⟨_, counted_init buyDisabled⟩ h
  obtain ⟨t, ht⟩ := step_counted s e hs hfits
  exact ht.withinTiers

/-! ## One tier -/

/-- Both mints can be read and the price of SOL is known. -/
def sampleFeed : ExecEnv :=
  ⟨some (some 9, some 6), fun token => if token = SOL then some (.fin 1) else none, false⟩

/-- A wallet buys the sample token for SOL. -/
def sampleSwap (wallet : Pubkey) : PingBookEvent :=
  .swap sampleFeed
    { (sampleTrade .ping SOL sampleToken 1000 100).details sampleConfig with
      originSigner := wallet }

/-- The oldest order in flight is confirmed. -/
def sampleConfirmed : PingBookEvent := .confirm 0 sampleQuote (sampleSuccess 100) 1

/-- A second wallet buys after the order of the first one was confirmed. -/
theorem withinTiers_of_fits_sample :
    Visits (step sampleConfig) (fun s => s.WithinTiers [(1, 500)]) (init [(1, 500)] false)
      [sampleSwap 1, sampleConfirmed, sampleSwap 3] :=
  withinTiers_of_fits sampleConfig [(1, 500)] false _ (by decide +kernel)

/-- With one tier two buys of a token are confirmed when the second wallet buys before the
order of the first one is confirmed. -/
theorem not_withinTiers_two_in_flight :
    ¬ ∀ (cfg : CopyConfig) (tiers : List (ℕ × ℕ)) (es : List PingBookEvent),
      Visits (step cfg) (fun s => s.WithinTiers tiers) (init tiers false) es := by
  intro h
  have hrun := h sampleConfig [(1, 500)]
    [sampleSwap 1, sampleSwap 3, sampleConfirmed, sampleConfirmed]
  have hlast := (hrun.2.2.2.1 sampleToken).1
  exact absurd hlast (by decide +kernel)

end PingBook

end Biscuit.Copy
