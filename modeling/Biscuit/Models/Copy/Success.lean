import Biscuit.Models.Copy.Recording
import Biscuit.Models.Copy.Service
import Biscuit.Models.Copy.Tiers

/-!
# What success handling takes for granted

`handle_success_txn` unwraps the quote, the decimals of both sides and the copy type, and asserts
that each side it records is a side of the executed swap. All of this was settled long before, by
whichever branch of `process_direct` or `process_ping` gave the order. An invariant of the jobs
carries it through building, sending and retries to the confirmation. What is left to fail are the
parser, the powers of ten and the sums.
-/

namespace Biscuit.Copy

/-! ## Success handling of a typed order -/

/-- What every order settles for the success handling, by the mints that are traded. -/
structure TypedOrder (tracked : Bool) (d : CopyDetails) (inputMint outputMint : Pubkey) :
    Prop where
  resolved : d.originSwap.tokenDecimals.isSome
  typed : d.copyType.isSome
  sellMint : d.sells = true → d.originSwap.inputTokenMint = inputMint
  fundMint : d.sells = false → inputMint = SOL
  buyMint : d.buys = true → d.originSwap.outputTokenMint = outputMint
  proceedsMint : d.buys = false → outputMint = SOL
  differ : d.originSwap.outputTokenMint ≠ d.originSwap.inputTokenMint
  tracked : d.walletConfig.mode = .ping → tracked = true

/-- The decimals of both sides of a typed order are known. -/
theorem TypedOrder.exists_decimals {tracked : Bool} {d : CopyDetails} {q : QuoteDetails}
    (h : TypedOrder tracked d q.inputMint q.outputMint) (origin : TokenDecimals) :
    ∃ inDecimals outDecimals, q.inputDecimals d.originSwap.inputTokenMint origin = some inDecimals ∧
      q.outputDecimals d.originSwap.outputTokenMint origin = some outDecimals := by
  have hin : ∃ n, q.inputDecimals d.originSwap.inputTokenMint origin = some n := by
    apply QuoteDetails.exists_inputDecimals
    cases hs : d.sells with
    | true => exact .inl (h.sellMint hs).symm
    | false => exact .inr (h.fundMint hs)
  have hout : ∃ n, q.outputDecimals d.originSwap.outputTokenMint origin = some n := by
    apply QuoteDetails.exists_outputDecimals
    cases hb : d.buys with
    | true => exact .inl (h.buyMint hb).symm
    | false => exact .inr (h.proceedsMint hb)
  obtain ⟨inDecimals, hin⟩ := hin
  obtain ⟨outDecimals, hout⟩ := hout
  exact ⟨inDecimals, outDecimals, hin, hout⟩

/-- The tracker is set where it is needed, after a side is recorded too. -/
def Tracked (s : Shared) (d : CopyDetails) : Prop :=
  d.walletConfig.mode = .ping → s.pingTracker.isSome = true

theorem Tracked.recordIf {s : Shared} {d : CopyDetails} (h : Tracked s d) (cfg : CopyConfig)
    (signature : Signature) (traded : Bool) (side : TradeSide) :
    Tracked (s.recordIf cfg d signature traded side).1 d := by
  cases traded with
  | false => exact h
  | true =>
    intro hmode
    rw [Shared.recordIf, if_pos rfl, Shared.record_pingTracker _ _ hmode, Option.isSome_map]
    exact h hmode

/-- Up to where a side is recorded nothing fails, if the mint is the executed one and the tracker
is there. -/
theorem recordSide_eq (b : Build) (cfg : CopyConfig) {d : CopyDetails} (signature : Signature)
    {execMint : Pubkey} {side : TradeSide} {r : Recorded} (hmint : side.token = execMint)
    (htracked : Tracked r.1 d) :
    recordSide b cfg d signature true execMint side r = (do
      let (s, trades) ← r.1.recordIn b cfg d signature side
      pure (s, r.2 ++ trades)) := by
  have hping : ¬ (d.walletConfig.mode = .ping ∧ r.1.pingTracker.isNone) := by
    rintro ⟨hmode, hnone⟩
    rw [Option.isNone_iff_eq_none] at hnone
    have hsome := htracked hmode
    rw [hnone] at hsome
    cases hsome
  rw [recordSide, if_pos rfl, debugAssert_ok b hmint, Outcome.ok_bind, if_neg hping]

/-- A side that fits is recorded. -/
theorem recordSide_of_fits {b : Build} {cfg : CopyConfig} {d : CopyDetails} (side : TradeSide)
    (signature : Signature) {traded : Bool} {execMint : Pubkey} {r : Recorded}
    (hmint : traded = true → side.token = execMint) (htracked : Tracked r.1 d)
    (hfits : b = .checked → traded = true → SideFits cfg r.1 d side.token side.decimals
      side.execVolume side.originVolume side.direction) :
    recordSide b cfg d signature traded execMint side r =
      .ok ((r.1.recordIf cfg d signature traded side).1,
        r.2 ++ (r.1.recordIf cfg d signature traded side).2) := by
  cases traded with
  | false =>
    rw [Shared.recordIf, if_neg Bool.false_ne_true, List.append_nil]
    rfl
  | true =>
    rw [recordSide_eq b cfg signature (hmint rfl) htracked,
      Shared.recordIn_of_fits fun hb => hfits hb rfl]
    rfl

/-- One that does not fit is a panic. -/
theorem recordSide_checked {cfg : CopyConfig} {d : CopyDetails} (side : TradeSide)
    (signature : Signature) {execMint : Pubkey} {r : Recorded} (hmint : side.token = execMint)
    (htracked : Tracked r.1 d)
    (hfits : ¬ SideFits cfg r.1 d side.token side.decimals side.execVolume side.originVolume
      side.direction) :
    recordSide .checked cfg d signature true execMint side r = .panic := by
  rw [recordSide_eq .checked cfg signature hmint htracked, Shared.recordIn_checked hfits,
    Outcome.panic_bind]

section Frame

variable {cfg : CopyConfig} {s : Shared} {d : CopyDetails} {token : Pubkey}
  {amountOut : Option (ℕ × ℕ)} {decimals execVolume originVolume : ℕ} {direction : TradeDirection}

/-- Switching buys leaves it open whether a side fits. -/
theorem sideFits_switchBuys :
    SideFits cfg (s.switchBuys cfg amountOut) d token decimals execVolume originVolume direction ↔
      SideFits cfg s d token decimals execVolume originVolume direction :=
  SideFits.congr (by rw [Shared.switchBuys_history]) (by rw [Shared.switchBuys_pingTracker]) ..

/-- So does recording the sell for the buy. -/
theorem sideFits_recordIf {side : TradeSide} (htoken : token ≠ side.token) {signature : Signature}
    {traded : Bool} :
    SideFits cfg ((s.switchBuys cfg amountOut).recordIf cfg d signature traded side).1 d token
        decimals execVolume originVolume direction ↔
      SideFits cfg s d token decimals execVolume originVolume direction := by
  cases traded with
  | false => exact sideFits_switchBuys
  | true =>
    obtain ⟨hhistory, htracker⟩ :=
      (s.switchBuys cfg amountOut).record_frame cfg d signature side htoken
    exact (SideFits.congr hhistory htracker ..).trans sideFits_switchBuys

end Frame

/-- Both sides of a confirmed swap are recorded if the order trades them. -/
def sidesRecorded (cfg : CopyConfig) (env : SuccessEnv) (s : Shared) (d : CopyDetails)
    (q : QuoteDetails) (inDecimals outDecimals : ℕ) (copyType : CopyType) (signature : Signature) :
    Recorded :=
  let sold := (s.switchBuys cfg env.amountOut).recordIf cfg d signature copyType.sells
    (sellSide env d q inDecimals)
  let bought := sold.1.recordIf cfg d signature copyType.buys (buySide env d q outDecimals)
  (bought.1, sold.2 ++ bought.2)

/-- Both sides are recorded where they fit, as the service takes them to be. -/
theorem recordSides_of_fits {b : Build} {cfg : CopyConfig} {env : SuccessEnv} {s : Shared}
    {d : CopyDetails} {q : QuoteDetails} {inDecimals outDecimals : ℕ} {copyType : CopyType}
    (htype : d.copyType = some copyType)
    (h : TypedOrder s.pingTracker.isSome d q.inputMint q.outputMint)
    (hfits : SidesFit b cfg s d q inDecimals outDecimals env.amountOut) (signature : Signature) :
    recordSides b cfg env s d q inDecimals outDecimals signature =
      .ok (sidesRecorded cfg env s d q inDecimals outDecimals copyType signature) := by
  have hsells : d.sells = copyType.sells := by rw [CopyDetails.sells, htype, Option.any_some]
  have hbuys : d.buys = copyType.buys := by rw [CopyDetails.buys, htype, Option.any_some]
  have htracked : Tracked (s.switchBuys cfg env.amountOut) d := by
    rw [Tracked, Shared.switchBuys_pingTracker]
    exact h.tracked
  have hsold := recordSide_of_fits (sellSide env d q inDecimals)
    (r := (s.switchBuys cfg env.amountOut, [])) signature
    (fun hs => h.sellMint (hsells.trans hs)) htracked
    (fun hb hs => sideFits_switchBuys.mpr (hfits.sold hb (hsells.trans hs)))
  have hbought := recordSide_of_fits (buySide env d q outDecimals) signature
    (fun hb => h.buyMint (hbuys.trans hb))
    (htracked.recordIf cfg signature copyType.sells (sellSide env d q inDecimals))
    (fun hb ht => (sideFits_recordIf h.differ).mpr (hfits.bought hb (hbuys.trans ht)))
  rw [recordSides, htype, Outcome.ofOption_some, Outcome.ok_bind, hsold, Outcome.ok_bind,
    List.nil_append, hbought]
  rfl

/-- A side that does not fit is a panic, whichever it is. -/
theorem recordSides_of_not_fits {b : Build} {cfg : CopyConfig} {env : SuccessEnv} {s : Shared}
    {d : CopyDetails} {q : QuoteDetails} {inDecimals outDecimals : ℕ}
    (h : TypedOrder s.pingTracker.isSome d q.inputMint q.outputMint)
    (hfits : ¬ SidesFit b cfg s d q inDecimals outDecimals env.amountOut) (signature : Signature) :
    recordSides b cfg env s d q inDecimals outDecimals signature = .panic := by
  obtain ⟨copyType, htype⟩ := Option.isSome_iff_exists.mp h.typed
  have hsells : d.sells = copyType.sells := by rw [CopyDetails.sells, htype, Option.any_some]
  have hbuys : d.buys = copyType.buys := by rw [CopyDetails.buys, htype, Option.any_some]
  have htracked : Tracked (s.switchBuys cfg env.amountOut) d := by
    rw [Tracked, Shared.switchBuys_pingTracker]
    exact h.tracked
  rw [recordSides, htype, Outcome.ofOption_some, Outcome.ok_bind]
  by_cases hsold : b = .checked → d.sells = true → SideFits cfg s d d.originSwap.inputTokenMint
      inDecimals q.amount d.originSwap.inputAmount .sell
  · rw [recordSide_of_fits (sellSide env d q inDecimals)
      (r := (s.switchBuys cfg env.amountOut, [])) signature
      (fun hs => h.sellMint (hsells.trans hs)) htracked
      (fun hb hs => sideFits_switchBuys.mpr (hsold hb (hsells.trans hs))), Outcome.ok_bind]
    have hbought : ¬ (b = .checked → d.buys = true → SideFits cfg s d d.originSwap.outputTokenMint
        outDecimals (q.actualAmountOut env.amountOut) d.originSwap.outputAmount .buy) :=
      fun hbought => hfits ⟨hsold, hbought⟩
    simp only [Classical.not_imp] at hbought
    obtain ⟨rfl, hbuy, hnot⟩ := hbought
    rw [← hbuys, hbuy]
    exact recordSide_checked (buySide env d q outDecimals) signature (h.buyMint hbuy)
      (htracked.recordIf cfg signature copyType.sells (sellSide env d q inDecimals))
      fun hside => hnot ((sideFits_recordIf h.differ).mp hside)
  · simp only [Classical.not_imp] at hsold
    obtain ⟨rfl, hsell, hnot⟩ := hsold
    rw [← hsells, hsell, recordSide_checked (sellSide env d q inDecimals)
      (r := (s.switchBuys cfg env.amountOut, [])) signature (h.sellMint hsell) htracked
      fun hside => hnot (sideFits_switchBuys.mp hside), Outcome.panic_bind]

/-- Where nothing that it calls or computes panics, the success handling of a typed order reaches
its end, and leaves what the service takes it to leave. -/
theorem handleSuccessTxnIn_of_fits {b : Build} {cfg : CopyConfig} {run : SuccessRun} {s : Shared}
    {d : CopyDetails} {q : QuoteDetails} (hq : d.quoteOutput = some q)
    (h : TypedOrder s.pingTracker.isSome d q.inputMint q.outputMint)
    (hfits : SuccessFits b cfg run s d) (signature : Signature) :
    ∃ env r, handleSuccessTxnIn b cfg run s d signature = .ok r ∧
      handleSuccessTxn cfg env s d signature = some r := by
  obtain ⟨origin, horigin⟩ := Option.isSome_iff_exists.mp h.resolved
  obtain ⟨copyType, htype⟩ := Option.isSome_iff_exists.mp h.typed
  obtain ⟨inDecimals, outDecimals, hin, hout⟩ := h.exists_decimals origin
  obtain ⟨hanswers, hsides⟩ := hfits origin horigin q hq inDecimals hin outDecimals hout
  obtain ⟨env, henv, hamount⟩ := SuccessRun.env_of_fits d hanswers
  have hsides' : SidesFit b cfg s d q inDecimals outDecimals env.amountOut :=
    ⟨fun hb => by rw [← hamount hb] at hsides; exact hsides.sold hb,
      fun hb => by rw [← hamount hb] at hsides; exact hsides.bought hb⟩
  refine ⟨env, sidesRecorded cfg env s d q inDecimals outDecimals copyType signature, ?_, ?_⟩
  · simp only [handleSuccessTxnIn, horigin, hq, hin, hout, henv, Outcome.ofOption_some,
      Outcome.ok_bind]
    exact recordSides_of_fits htype h hsides' signature
  · simp only [handleSuccessTxn, horigin, hq, hin, hout, htype]
    rfl

/-- Where one of these panics, so does the call; it is never one of its own assumptions that
fails. -/
theorem handleSuccessTxnIn_of_not_fits {b : Build} {cfg : CopyConfig} {run : SuccessRun}
    {s : Shared} {d : CopyDetails} {q : QuoteDetails} (hq : d.quoteOutput = some q)
    (h : TypedOrder s.pingTracker.isSome d q.inputMint q.outputMint)
    (hfits : ¬ SuccessFits b cfg run s d) (signature : Signature) :
    handleSuccessTxnIn b cfg run s d signature = .panic := by
  obtain ⟨origin, horigin⟩ := Option.isSome_iff_exists.mp h.resolved
  obtain ⟨inDecimals, outDecimals, hin, hout⟩ := h.exists_decimals origin
  simp only [SuccessFits, Option.mem_def, horigin, hq, Option.some.injEq, forall_eq', hin, hout]
    at hfits
  simp only [handleSuccessTxnIn, horigin, hq, hin, hout, Outcome.ofOption_some, Outcome.ok_bind]
  by_cases hanswers : AnswersFit b run origin q inDecimals outDecimals
  · obtain ⟨env, henv, hamount⟩ := SuccessRun.env_of_fits d hanswers
    rw [henv, Outcome.ok_bind]
    apply recordSides_of_not_fits h
    rintro ⟨hsold, hbought⟩
    exact hfits ⟨hanswers, hsold, fun hb => by rw [← hamount hb]; exact hbought hb⟩
  · rw [SuccessRun.env_of_not_fits d hanswers, Outcome.panic_bind]

/-- The success handling of the service answers for a typed order. -/
theorem handleSuccessTxn_of_typed {d : CopyDetails} {q : QuoteDetails} {s : Shared}
    (hq : d.quoteOutput = some q) (h : TypedOrder s.pingTracker.isSome d q.inputMint q.outputMint)
    (cfg : CopyConfig) (env : SuccessEnv) (signature : Signature) :
    handleSuccessTxn cfg env s d signature ≠ none := by
  obtain ⟨origin, horigin⟩ := Option.isSome_iff_exists.mp h.resolved
  obtain ⟨copyType, htype⟩ := Option.isSome_iff_exists.mp h.typed
  obtain ⟨inDecimals, outDecimals, hin, hout⟩ := h.exists_decimals origin
  simp only [handleSuccessTxn, horigin, hq, hin, hout, htype]
  exact Option.some_ne_none _

/-! ## Every order is typed -/

/-- Whichever branch gave an order, of whatever details, its copy type fits its mints. -/
theorem getExecutionInput_typed {cfg : CopyConfig} {env : ExecEnv} {s s' : Shared}
    {d d' : CopyDetails} {input : SwapInput}
    (h : getExecutionInput cfg env s d = (s', d', .ok (some input))) :
    TypedOrder s.pingTracker.isSome d' input.inputTokenMint input.outputTokenMint := by
  have hdiffer : d'.originSwap.outputTokenMint ≠ d'.originSwap.inputTokenMint := by
    obtain ⟨-, -, hne, -, -⟩ := getExecutionInput_eq_order h
    obtain ⟨tokenDecimals, copyType, hdetails⟩ := getExecutionInput_details cfg env s d
    rw [h] at hdetails
    simp only at hdetails
    rw [hdetails]
    exact hne.symm
  cases hmode : d.walletConfig.mode with
  | direct =>
    obtain ⟨mints, -, -, -, -, hp⟩ := getExecutionInput_direct hmode h
    have horder : IsDirectOrder d' input :=
      processDirect_isDirectOrder (d := d.resolved mints) hmode hp
    exact
      { resolved := horder.resolved
        typed := horder.typed
        sellMint := fun hs => (horder.sellMint hs).symm
        fundMint := horder.fundMint
        buyMint := fun hb => (horder.buyMint hb).symm
        proceedsMint := horder.proceedsMint
        differ := hdiffer
        tracked := fun hping => by cases horder.direct.symm.trans hping }
  | ping =>
    have horder := getExecutionInput_isPingOrder hmode h
    obtain ⟨mints, tracker, -, -, htracker, -, -, -, -, -⟩ := getExecutionInput_ping hmode h
    obtain ⟨mints, -, -, -, hp⟩ := getExecutionInput_eq_order h
    have hmode' : (d.resolved mints).walletConfig.mode = .ping := hmode
    simp only [processMode, hmode'] at hp
    obtain ⟨copyType, hdetails⟩ := processPing_details cfg env s (d.resolved mints)
    simp only [hp] at hdetails
    have hswap : d'.originSwap = (d.resolved mints).originSwap := by rw [hdetails]
    obtain ⟨-, hcase⟩ := processPing_order hp
    have htyped : d'.copyType.isSome := by
      rcases hcase with ⟨htype, -⟩ | ⟨htype, -⟩ <;> rw [htype] <;> rfl
    have hsellMint : d'.sells = true → input.inputTokenMint = d'.originSwap.inputTokenMint := by
      intro hs
      rcases hcase with ⟨-, hin⟩ | ⟨htype, -⟩
      · rw [hin, hswap]
      · rw [CopyDetails.sells, htype] at hs
        cases hs
    exact
      { resolved := horder.resolved
        typed := htyped
        sellMint := fun hs => (hsellMint hs).symm
        fundMint := horder.fundMint
        buyMint := fun _ => horder.buyMint.symm
        proceedsMint := fun hb => by cases hb.symm.trans horder.buys
        differ := hdiffer
        tracked := fun _ => by rw [htracker]; rfl }

/-- Nothing else of the details matters. -/
theorem TypedOrder.congr {tracked : Bool} {d d' : CopyDetails} {inputMint outputMint : Pubkey}
    (h : TypedOrder tracked d inputMint outputMint) (hswap : d'.originSwap = d.originSwap)
    (hwallet : d'.walletConfig = d.walletConfig) (htype : d'.copyType = d.copyType) :
    TypedOrder tracked d' inputMint outputMint := by
  have hsells : d'.sells = d.sells := by rw [CopyDetails.sells, htype, CopyDetails.sells]
  have hbuys : d'.buys = d.buys := by rw [CopyDetails.buys, htype, CopyDetails.buys]
  exact
    { resolved := hswap ▸ h.resolved
      typed := htype ▸ h.typed
      sellMint := fun hs => by rw [hswap]; exact h.sellMint (hsells ▸ hs)
      fundMint := fun hs => h.fundMint (hsells ▸ hs)
      buyMint := fun hb => by rw [hswap]; exact h.buyMint (hbuys ▸ hb)
      proceedsMint := fun hb => h.proceedsMint (hbuys ▸ hb)
      differ := by rw [hswap]; exact h.differ
      tracked := fun hmode => h.tracked (by rw [← hwallet]; exact hmode) }

/-- The details of a typed order that a transaction was built for. -/
def CopyDetails.Quoted (tracked : Bool) (d : CopyDetails) : Prop :=
  ∃ q, d.quoteOutput = some q ∧ TypedOrder tracked d q.inputMint q.outputMint

/-- What a job has settled, by where it is. -/
def Job.Typed (tracked : Bool) (j : Job) : Prop :=
  match j.stage with
  | .executing input _ =>
    TypedOrder tracked j.details input.inputTokenMint input.outputTokenMint
  | .built _ => j.details.Quoted tracked
  | .pending _ _ => j.details.Quoted tracked
  | _ => True

/-- A job is typed once its order is derived. -/
theorem Job.typed_derived {cfg : CopyConfig} {env : ExecEnv} {s s' : Shared}
    {d d' : CopyDetails} {result : Except ExecError (Option SwapInput)} (calls : List ℕ)
    (h : getExecutionInput cfg env s d = (s', d', result)) :
    (Job.mk d' (.ofInput result) calls).Typed s.pingTracker.isSome := by
  cases result with
  | error e => trivial
  | ok found =>
    cases found with
    | none => trivial
    | some input => exact getExecutionInput_typed h

/-- It stays so while attempts to build its transaction fail, and when one succeeds. -/
theorem Job.typed_attempted {cfg : CopyConfig} {env : BuildEnv} {input : SwapInput}
    {d d' : CopyDetails} {tx : Option BuiltTransaction} {tracked : Bool} (attempts : ℕ)
    (calls : List ℕ)
    (h : TypedOrder tracked d input.inputTokenMint input.outputTokenMint)
    (hbuild : processExecutionInput cfg env input d = (d', tx)) :
    (Job.mk d' (.ofAttempt cfg input attempts tx) calls).Typed tracked := by
  have hfailed : ∀ d', TypedOrder tracked d' input.inputTokenMint input.outputTokenMint →
      (Job.mk d' (.ofAttempt cfg input attempts none) calls).Typed tracked := by
    intro d' h'
    rw [Stage.ofAttempt]
    split_ifs
    · exact h'
    · trivial
  unfold processExecutionInput at hbuild
  split at hbuild
  · obtain ⟨rfl, rfl⟩ := Prod.mk.inj hbuild
    exact hfailed _ h
  · simp only at hbuild
    split at hbuild
    · obtain ⟨rfl, rfl⟩ := Prod.mk.inj hbuild
      exact hfailed _ (h.congr rfl rfl rfl)
    · obtain ⟨rfl, rfl⟩ := Prod.mk.inj hbuild
      exact ⟨_, rfl, h.congr rfl rfl rfl⟩

/-- The same bytes are sent again for the same order. -/
theorem handleConfirmation_resend {cfg : CopyConfig} {d d' : CopyDetails} {tx : List UInt8}
    {response : ConfirmTransactionResponse}
    (h : handleConfirmation cfg d response = .resend d' tx) : d' = d.retryUnconfirmed cfg := by
  unfold handleConfirmation at h
  split at h
  · split at h <;> cases h
  · cases h
  · split at h
    · split at h
      · cases h
      · exact (Disposition.resend.inj h).1.symm
    · cases h

/-! ## In every run of the service -/

/-- What has been settled before success handling, for all jobs of the service. -/
def Service.Typed (s : Service) : Prop := ∀ j ∈ s.jobs, j.Typed s.shared.pingTracker.isSome

/-- Recording neither sets a ping tracker nor takes it away. -/
theorem handleSuccessTxn_isSome {cfg : CopyConfig} {env : SuccessEnv} {s s' : Shared}
    {d : CopyDetails} {signature : Signature} {trades : List CopyTrade}
    (h : handleSuccessTxn cfg env s d signature = some (s', trades)) :
    s'.pingTracker.isSome = s.pingTracker.isSome := by
  have hrecord : ∀ (s : Shared) traded side,
      (s.recordIf cfg d signature traded side).1.pingTracker.isSome = s.pingTracker.isSome := by
    intro s traded side
    cases traded with
    | false => rfl
    | true =>
      cases hmode : d.walletConfig.mode with
      | direct =>
        simp only [Shared.recordIf, if_true, Shared.record, hmode]
        split <;> rfl
      | ping =>
        simp only [Shared.recordIf, if_true]
        rw [Shared.record_pingTracker _ _ hmode, Option.isSome_map]
  unfold handleSuccessTxn at h
  split at h
  · obtain ⟨rfl, -⟩ := Prod.mk.inj (Option.some.inj h)
    rfl
  · split at h
    · cases h
    · split at h
      · simp only [Option.some.injEq, Prod.mk.injEq] at h
        obtain ⟨rfl, -⟩ := h
        rw [hrecord, hrecord, Shared.switchBuys_pingTracker]
      · cases h

/-- A step that keeps the tracker keeps what the other jobs have settled. -/
theorem Service.Typed.set {s : Service} (h : s.Typed) {i : ℕ} {j : Job}
    (hj : j.Typed s.shared.pingTracker.isSome) :
    ∀ k ∈ s.jobs.set i j, k.Typed s.shared.pingTracker.isSome :=
  Service.forall_update h hj

/-- A job that waits for its confirmation takes its place, and others may be shed for it. -/
theorem Service.Typed.insertPending {s : Service} (h : s.Typed) (cfg : CopyConfig) (i : ℕ)
    {d : CopyDetails} (hd : d.Quoted s.shared.pingTracker.isSome) (txnId : TransactionId)
    (calls : List ℕ) : (s.insertPending cfg i d txnId calls).Typed := by
  intro j hj
  rcases List.mem_or_eq_of_mem_set hj with hm | rfl
  · exact forall_shedJobs (fun _ _ _ _ _ => trivial) h j hm
  · exact hd

theorem Service.Typed.step (cfg : CopyConfig) {s : Service} (h : s.Typed) (e : ServiceEvent) :
    (s.step cfg e).Typed := by
  have hget : ∀ {i : ℕ} {j : Job}, s.jobs[i]? = some j → j.Typed s.shared.pingTracker.isSome :=
    fun hi => h _ (List.mem_of_getElem? hi)
  have hcase := s.step_cases cfg e
  generalize s.step cfg e = s' at hcase
  cases hcase with
  | idle => exact h
  | delivered t =>
    intro j hj
    rcases List.mem_append.mp hj with hm | hm
    · exact h j hm
    · obtain rfl := List.mem_singleton.mp hm
      cases s.hasRoom cfg <;> trivial
  | received i d calls hi => exact h.set trivial
  | derived i env d d' calls shared result hi hget =>
    have htracked := getExecutionInput_isSome cfg env s.shared d
    rw [hget] at htracked
    change ∀ j ∈ s.jobs.set i _, j.Typed shared.pingTracker.isSome
    rw [htracked]
    exact h.set (Job.typed_derived calls hget)
  | attempted i env d d' input attempts calls tx hi hbuild =>
    exact h.set (Job.typed_attempted _ _ (hget hi) hbuild)
  | sent i env d tx calls hi => exact h.insertPending cfg i (hget hi) s.nextTxnId calls
  | unsent i env d tx calls hi => exact h.set trivial
  | failed i sent env d calls hi => exact h.set trivial
  | requeued i response env d d' txnId insertedAt calls hi hconfirm =>
    refine h.set ?_
    cases s.hasRoom cfg <;> trivial
  | resent i response env d d' tx txnId insertedAt calls hi hconfirm =>
    have hout : (s.update i ⟨d', .done .sendFailed, calls⟩).Typed := h.set trivial
    split
    · refine hout.insertPending cfg i ?_ txnId calls
      obtain ⟨q, hq, htyped⟩ : d.Quoted s.shared.pingTracker.isSome := hget hi
      rw [handleConfirmation_resend hconfirm]
      exact ⟨q, hq, htyped.congr rfl rfl rfl⟩
    · exact hout
  | gaveUp i response env d d' txnId insertedAt calls hi hconfirm => exact h.set trivial
  | crashed i response env d d' txnId insertedAt calls hi hconfirm hrecord => exact h
  | confirmed i response env d d' txnId insertedAt calls shared trades hi hconfirm hrecord =>
    change ∀ j ∈ s.jobs.set i _, j.Typed shared.pingTracker.isSome
    rw [handleSuccessTxn_isSome hrecord]
    exact h.set trivial
  | panicked => exact h

/-- The main task stops running only where it panics on what it reads. -/
theorem Service.Typed.running {cfg : CopyConfig} {s : Service} (h : s.Typed)
    (hrunning : s.crashed = false) {e : ServiceEvent} (he : e ≠ .panics) :
    (s.step cfg e).crashed = false := by
  have hcase := s.step_cases cfg e
  generalize s.step cfg e = s' at hcase
  cases hcase with
  | resent i response env d d' tx txnId insertedAt calls hi hconfirm =>
    split <;> exact hrunning
  | crashed i response env d d' txnId insertedAt calls hi hconfirm hrecord =>
    obtain rfl := handleConfirmation_success hconfirm
    obtain ⟨q, hq, htyped⟩ : d'.Quoted s.shared.pingTracker.isSome :=
      h _ (List.mem_of_getElem? hi)
    exact absurd hrecord (handleSuccessTxn_of_typed hq htyped cfg env.success env.signature)
  | panicked => exact absurd rfl he
  | _ => exact hrunning

/-! ## The end of success handling -/

/-- Success handling returns early for want of the decimals of the origin swap, or reaches its
end. -/
def SuccessEnds (b : Build) (cfg : CopyConfig) (run : SuccessRun) (s : Shared) (d : CopyDetails)
    (signature : Signature) : Prop :=
  d.originSwap.tokenDecimals = none ∨ ∃ r, handleSuccessTxnIn b cfg run s d signature = .ok r

/-- From any details, copied anew or retried with what an earlier execution left in them: for every
job whose transaction was built, success handling never fails on what it takes for granted, in any
build. It reaches its end exactly where what it calls and computes does not panic. -/
theorem Service.success_ends_iff (b : Build) (cfg : CopyConfig) {s : Service}
    (hqueued : ∀ j ∈ s.jobs, j.stage = .queued) (events : List ServiceEvent) :
    let s' := exec (Service.step cfg) s events
    ∀ j ∈ s'.jobs, j.isPending = true → ∀ run signature,
      handleSuccessTxnIn b cfg run s'.shared j.details signature ≠ .err .refuted ∧
        (SuccessEnds b cfg run s'.shared j.details signature ↔
          SuccessFits b cfg run s'.shared j.details) := by
  have hinit : s.Typed := by
    intro j hj
    rw [Job.Typed, hqueued j hj]
    trivial
  have hrun := exec_preserves (I := Service.Typed) (fun _ e h => h.step cfg e) events hinit
  intro s' j hj hpending run signature
  obtain ⟨q, hq, htyped⟩ : j.details.Quoted s'.shared.pingTracker.isSome := by
    have hjob := hrun j hj
    unfold Job.isPending at hpending
    split at hpending
    · rename_i hstage
      rwa [Job.Typed, hstage] at hjob
    · cases hpending
  have hresolved : j.details.originSwap.tokenDecimals ≠ none :=
    Option.isSome_iff_ne_none.mp htyped.resolved
  by_cases hfits : SuccessFits b cfg run s'.shared j.details
  · obtain ⟨env, r, hok, -⟩ := handleSuccessTxnIn_of_fits hq htyped hfits signature
    exact ⟨by rw [hok]; exact nofun, iff_of_true (.inr ⟨r, hok⟩) hfits⟩
  · have hpanic := handleSuccessTxnIn_of_not_fits hq htyped hfits signature
    refine ⟨by rw [hpanic]; exact nofun, iff_of_false ?_ hfits⟩
    rintro (hnone | ⟨r, hok⟩)
    · exact hresolved hnone
    · rw [hpanic] at hok
      cases hok

/-- A buy is retried with the copy type of a sell left in its details. -/
def staleRetry : Service :=
  ⟨⟨.empty, none, false⟩,
    [⟨{ sampleBuy 100 with copyType := some .sell, sendTxnRetries := 1 }, .queued, []⟩], [], 0, 0,
    false⟩

/-- Its order is derived, with some decimals, and its transaction built and sent once more. -/
def staleTrip (decimals : ℕ) : List ServiceEvent :=
  [.recv 0, .input 0 ⟨some (some 9, some decimals), fun _ => none, false⟩,
    .attempt 0 ⟨some ⟨none, none, 0, 0⟩, 100, some 200000⟩, .output 0 true sampleFailure]

/-- The price of SOL is known, and so is what the transaction received. -/
def sampleRun : SuccessRun :=
  ⟨⟨some (.fin 150), fun _ => none⟩, ⟨some (.fin 150), fun _ => none⟩,
    some ⟨some [2000000], some [1000000], .ok (some 100), none, none⟩⟩

/-- It reaches the end for a token of six decimals. -/
theorem Service.success_ends_staleRetry :
    let s' := exec (Service.step sampleConfig) staleRetry (staleTrip 6)
    ∃ j ∈ s'.jobs, j.isPending = true ∧
      SuccessFits .checked sampleConfig sampleRun s'.shared j.details := by
  intro s'
  have hjob : ∃ j ∈ s'.jobs, j.isPending = true ∧
      (handleSuccessTxnIn .checked sampleConfig sampleRun s'.shared j.details 1).isOk = true := by
    decide +kernel
  obtain ⟨j, hj, hpending, hok⟩ := hjob
  have hiff := (Service.success_ends_iff .checked sampleConfig (s := staleRetry)
    (fun j hj => by rw [List.mem_singleton.mp hj]) (staleTrip 6) j hj hpending sampleRun 1).2
  exact ⟨j, hj, hpending, hiff.mp (.inr (Outcome.isOk_iff.mp hok))⟩

/-- The parser panics on the transaction. -/
def malformedRun : SuccessRun :=
  { sampleRun with fetched := some ⟨some [2000000], some [1000000], .panic, none, none⟩ }

/-- For a token of ten decimals it panics where powers are checked, and on a transaction that the
parser panics on it does so in any build. -/
theorem Service.not_success_ends_tenDecimals :
    let s' := exec (Service.step sampleConfig) staleRetry (staleTrip 10)
    ∃ j ∈ s'.jobs, j.isPending = true ∧
      ¬ SuccessEnds .checked sampleConfig sampleRun s'.shared j.details 1 ∧
        ¬ SuccessEnds .wrapping sampleConfig malformedRun s'.shared j.details 1 := by
  intro s'
  have hjob : ∃ j ∈ s'.jobs, j.isPending = true ∧
      j.details.originSwap.tokenDecimals = some ⟨9, 10⟩ ∧
      handleSuccessTxnIn .checked sampleConfig sampleRun s'.shared j.details 1 = .panic ∧
      handleSuccessTxnIn .wrapping sampleConfig malformedRun s'.shared j.details 1 = .panic :=
    ⟨_, List.mem_singleton_self _, rfl, rfl, rfl, rfl⟩
  obtain ⟨j, hj, hpending, hdecimals, hpanic, hmalformed⟩ := hjob
  refine ⟨j, hj, hpending, ?_, ?_⟩
  · rintro (hnone | ⟨r, hok⟩)
    · cases hnone.symm.trans hdecimals
    · cases hpanic.symm.trans hok
  · rintro (hnone | ⟨r, hok⟩)
    · cases hnone.symm.trans hdecimals
    · cases hmalformed.symm.trans hok

end Biscuit.Copy
