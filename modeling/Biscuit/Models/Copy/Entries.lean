import Biscuit.Models.Copy.Book

/-!
# Entries of the trade history

An entry should stand for tokens that both wallets hold: the origin wallet bought some and
has some left, and no more was sold of ours than was bought. A full exit drops the entry
before its sell is executed, and recording that sell creates the entry again without a
buy. Without full exits of held tokens every entry keeps its meaning.
-/

namespace Biscuit.Copy

/-- An entry, the sells of it in flight, and what these ask to sell and the origin wallet
sold: both are counted as if they had been recorded. -/
structure EntryHolds (token : Pubkey) (entry : Option CopyHistory)
    (count amount originAmount : ℕ) : Prop where
  absent : entry = none → count = 0
  bought : ∀ c, entry = some c → 0 < c.origin.buyVolumeToken
  covered : ∀ c, entry = some c → c.exec.sellVolumeToken + amount ≤ c.exec.buyVolumeToken
  left : ∀ c, entry = some c →
    c.origin.sellVolumeToken + originAmount < c.origin.buyVolumeToken
  originWord : ∀ c, entry = some c → c.origin.buyVolumeToken < 2 ^ 64
  execWord : ∀ c, entry = some c → c.exec.buyVolumeToken < 2 ^ 64
  tracked : entry.isSome = true → isStaticToken token = false

/-- The volumes that the buy of a confirmed order adds to fit into the words of its entry,
and the origin wallet has bought something. -/
structure BuyFits (entry : Option CopyHistory) (originVolume execVolume : ℕ) : Prop where
  positive : 0 < (entry.getD {}).origin.buyVolumeToken + originVolume
  origin : (entry.getD {}).origin.buyVolumeToken + originVolume < 2 ^ 64
  exec : (entry.getD {}).exec.buyVolumeToken + execVolume < 2 ^ 64

instance (entry : Option CopyHistory) (originVolume execVolume : ℕ) :
    Decidable (BuyFits entry originVolume execVolume) :=
  decidable_of_iff
    (0 < (entry.getD {}).origin.buyVolumeToken + originVolume ∧
      (entry.getD {}).origin.buyVolumeToken + originVolume < 2 ^ 64 ∧
      (entry.getD {}).exec.buyVolumeToken + execVolume < 2 ^ 64)
    ⟨fun h => ⟨h.1, h.2.1, h.2.2⟩, fun h => ⟨h.positive, h.origin, h.exec⟩⟩

namespace EntryHolds

variable {token : Pubkey} {entry : Option CopyHistory} {c : CopyHistory}
  {count amount originAmount : ℕ}

/-- A token without an entry and without sells in flight. -/
theorem empty (token : Pubkey) : EntryHolds token none 0 0 0 where
  absent := fun _ => rfl
  bought := by rintro c ⟨⟩
  covered := by rintro c ⟨⟩
  left := by rintro c ⟨⟩
  originWord := by rintro c ⟨⟩
  execWord := by rintro c ⟨⟩
  tracked := nofun

/-- A held entry has tokens left. -/
theorem originTokensLeft (h : EntryHolds token (some c) count amount originAmount) :
    c.originTokensLeft ≠ 0 := by
  have hb := h.bought c rfl
  have hl := h.left c rfl
  unfold CopyHistory.originTokensLeft
  omega

/-- A sell sized while none is in flight, short of a full exit. -/
theorem size (h : EntryHolds token (some c) 0 0 0) {r : Rounding} {a : ℕ}
    (hfull : c.isFullExit r a = false) :
    EntryHolds token (some c) 1 (c.sellInputAmount r a) a := by
  have hb := h.bought c rfl
  have hc := h.covered c rfl
  have hsell := CopyHistory.sellInputAmount_le_of_not_isFullExit hb hfull
  have hleft := CopyHistory.sold_lt_of_not_isFullExit hb (h.originWord c rfl) hfull
  refine ⟨nofun, h.bought, ?_, ?_, h.originWord, h.execWord, h.tracked⟩
  · intro c' hc'
    obtain rfl := Option.some.inj hc'
    omega
  · intro c' hc'
    obtain rfl := Option.some.inj hc'
    exact hleft

/-- A recorded sell moves from the orders in flight to the entry. -/
theorem sell {v : TradeEntry} {a x : ℕ} (hexec : v.execVolumeToken = a)
    (horigin : v.originVolumeToken = x) (hdust : v.dustVolumeToken = 0)
    (h : EntryHolds token entry (count + 1) (amount + a) (originAmount + x)) :
    EntryHolds token (some ((entry.getD {}).addTrade token v .sell)) count amount
      originAmount := by
  cases entry with
  | none => exact absurd (h.absent rfl) (Nat.succ_ne_zero count)
  | some c =>
    have hcov := h.covered c rfl
    have hleft := h.left c rfl
    have horiginWord := h.originWord c rfl
    have hexecWord := h.execWord c rfl
    have hsold : wrapU64 (c.exec.sellVolumeToken +
        wrapSubU64 v.execVolumeToken v.dustVolumeToken) = c.exec.sellVolumeToken + a := by
      rw [wrapSubU64_of_le (by omega), hdust, hexec, Nat.sub_zero,
        wrapU64_eq (n := a) (by omega), wrapU64_eq (by omega)]
    have horiginSold : wrapU64 (c.origin.sellVolumeToken + v.originVolumeToken) =
        c.origin.sellVolumeToken + x := by
      rw [horigin, wrapU64_eq (by omega)]
    rw [Option.getD_some]
    refine ⟨nofun, ?_, ?_, ?_, ?_, ?_, fun _ => h.tracked rfl⟩
    · rintro c' ⟨⟩
      exact h.bought c rfl
    · rintro c' ⟨⟩
      change wrapU64 _ + amount ≤ c.exec.buyVolumeToken
      rw [hsold]
      omega
    · rintro c' ⟨⟩
      change wrapU64 _ + originAmount < c.origin.buyVolumeToken
      rw [horiginSold]
      omega
    · rintro c' ⟨⟩
      exact horiginWord
    · rintro c' ⟨⟩
      exact hexecWord

/-- A recorded buy creates the entry or adds to it. -/
theorem buy {v : TradeEntry} (hdust : v.dustVolumeToken ≤ v.execVolumeToken)
    (htoken : isStaticToken token = false)
    (hfits : BuyFits entry v.originVolumeToken v.execVolumeToken)
    (h : EntryHolds token entry count amount originAmount)
    (hnone : count = 0 → amount = 0 ∧ originAmount = 0) :
    EntryHolds token (some ((entry.getD {}).addTrade token v .buy)) count amount
      originAmount := by
  have hpos := hfits.positive
  have horigin := hfits.origin
  have hexec := hfits.exec
  have hbought : wrapU64 ((entry.getD {}).origin.buyVolumeToken + v.originVolumeToken) =
      (entry.getD {}).origin.buyVolumeToken + v.originVolumeToken := wrapU64_eq horigin
  have hheld : wrapU64 ((entry.getD {}).exec.buyVolumeToken +
      wrapSubU64 v.execVolumeToken v.dustVolumeToken) =
      (entry.getD {}).exec.buyVolumeToken + (v.execVolumeToken - v.dustVolumeToken) := by
    rw [wrapSubU64_of_le hdust, wrapU64_eq (n := v.execVolumeToken - v.dustVolumeToken)
      (by omega), wrapU64_eq (by omega)]
  refine ⟨nofun, ?_, ?_, ?_, ?_, ?_, fun _ => htoken⟩
  · rintro c' ⟨⟩
    change 0 < wrapU64 _
    rw [hbought]
    exact hpos
  · rintro c' ⟨⟩
    change (entry.getD {}).exec.sellVolumeToken + amount ≤ wrapU64 _
    rw [hheld]
    cases entry with
    | none =>
      obtain ⟨rfl, -⟩ := hnone (h.absent rfl)
      exact Nat.zero_le _
    | some c => exact (h.covered c rfl).trans (Nat.le_add_right _ _)
  · rintro c' ⟨⟩
    change (entry.getD {}).origin.sellVolumeToken + originAmount < wrapU64 _
    rw [hbought]
    cases entry with
    | none =>
      obtain ⟨-, rfl⟩ := hnone (h.absent rfl)
      exact hpos
    | some c => exact (h.left c rfl).trans_le (Nat.le_add_right _ _)
  · rintro c' ⟨⟩
    exact wrapU64_lt _
  · rintro c' ⟨⟩
    exact wrapU64_lt _

/-- The sell of an order that is given up is added to what the origin wallet sold. -/
theorem fail {a x : ℕ} (usd sol : F64)
    (h : EntryHolds token (some c) (count + 1) (amount + a) (originAmount + x)) :
    EntryHolds token (some { c with origin := c.origin.addSell x usd sol }) count amount
      originAmount := by
  have hcov := h.covered c rfl
  have hleft := h.left c rfl
  have hword := h.originWord c rfl
  have hsold : wrapU64 (c.origin.sellVolumeToken + x) = c.origin.sellVolumeToken + x :=
    wrapU64_eq (by omega)
  refine ⟨nofun, ?_, ?_, ?_, ?_, ?_, h.tracked⟩
  · rintro c' ⟨⟩
    exact h.bought c rfl
  · rintro c' ⟨⟩
    change c.exec.sellVolumeToken + amount ≤ c.exec.buyVolumeToken
    omega
  · rintro c' ⟨⟩
    change wrapU64 (c.origin.sellVolumeToken + x) + originAmount < c.origin.buyVolumeToken
    rw [hsold]
    omega
  · rintro c' ⟨⟩
    exact hword
  · rintro c' ⟨⟩
    exact h.execWord c rfl

/-- The sell of an order that is given up without being counted. -/
theorem release {n a x : ℕ}
    (h : EntryHolds token entry (count + n) (amount + a) (originAmount + x)) :
    EntryHolds token entry count amount originAmount where
  absent := fun hn => by
    have hz := h.absent hn
    omega
  bought := h.bought
  covered := fun c hc => by
    have hcov := h.covered c hc
    omega
  left := fun c hc => by
    have hleft := h.left c hc
    omega
  originWord := h.originWord
  execWord := h.execWord
  tracked := h.tracked

end EntryHolds

namespace Book

/-- The entry of a wallet's token holds, with the sells of it that are in flight. -/
def Holds (s : Book) (key : Pubkey × Pubkey) : Prop :=
  EntryHolds key.2 (s.shared.history key) (tally (Order.selling key fun _ => 1) s.inFlight)
    (tally (Order.selling key Order.amount) s.inFlight)
    (tally (Order.selling key Order.originAmount) s.inFlight)

/-- The condition under which a step keeps the entry of a wallet's token: a swap out of a
held token is sized alone, and as the machine rounds it is no full exit unless nothing of it
is left to sell; the volumes of a confirmed buy are positive and fit, and its dust is part of
it; and no buy that was funded by the token is given up once the token is held. -/
def KeepsEntry (cfg : CopyConfig) (key : Pubkey × Pubkey) (s : Book) : BookEvent → Prop
  | .trade _ d => d.sellKey = key → ∀ c ∈ s.shared.history key,
      (∀ o ∈ s.inFlight, o.details.sells = true → o.details.sellKey ≠ key) ∧
      (c.isFullExit cfg.rounding d.originSwap.inputAmount = false ∨
        c.sellInputAmount cfg.rounding d.originSwap.inputAmount = 0)
  | .confirm i quote env _ => ∀ o ∈ s.inFlight[i]?, o.details.buys = true →
      o.details.buyKey = key →
      BuyFits (s.shared.history key) o.details.originSwap.outputAmount
          ((quote.details o.input).actualAmountOut env.amountOut) ∧
        HistoricalTrades.DustWithin cfg.rounding
          ((quote.details o.input).actualAmountOut env.amountOut) (some cfg.moonbagBps)
  | .fail i _ => ∀ o ∈ s.inFlight[i]?, o.details.sells = false → o.details.sellKey = key →
      s.shared.history key = none

instance (cfg : CopyConfig) (key : Pubkey × Pubkey) (s : Book) :
    ∀ e, Decidable (KeepsEntry cfg key s e)
  | .trade _ d => inferInstanceAs (Decidable (d.sellKey = key → ∀ c ∈ s.shared.history key, _))
  | .confirm i _ _ _ => inferInstanceAs (Decidable (∀ o ∈ s.inFlight[i]?, _))
  | .fail i _ => inferInstanceAs (Decidable (∀ o ∈ s.inFlight[i]?, _))

theorem init_holds (pingTracker : Option PingTracker) (buyDisabled : Bool)
    (key : Pubkey × Pubkey) : (init pingTracker buyDisabled).Holds key :=
  EntryHolds.empty key.2

/-- Sizing a trade keeps the entry. -/
theorem holds_trade {cfg : CopyConfig} {s : Book} {walletBuysDisabled : Bool}
    {d : CopyDetails} {key : Pubkey × Pubkey}
    (hkeeps : KeepsEntry cfg key s (.trade walletBuysDisabled d)) (h : s.Holds key) :
    (s.trade cfg walletBuysDisabled d).Holds key := by
  have hcase := s.trade_cases cfg walletBuysDisabled d
  generalize s.trade cfg walletBuysDisabled d = s' at hcase
  cases hcase with
  | idle => exact h
  | skipSell c hc hleft hzero =>
    by_cases hfull : c.isFullExit cfg.rounding d.originSwap.inputAmount = true
    · simp only [hfull, if_true]
      by_cases hk : d.sellKey = key
      · subst hk
        have halone := (hkeeps rfl c hc).1
        unfold Holds
        simp only [HistoricalTrades.remove_self, tally_selling_eq_zero halone]
        exact EntryHolds.empty _
      · unfold Holds
        simp only [HistoricalTrades.remove_of_ne fun he => hk (Eq.symm he)]
        exact h
    · simp only [hfull]
      exact h
  | sell c o hc hleft hpos hsells hsigner hswap hamount =>
    have hkey : o.details.sellKey = d.sellKey := by
      simp only [CopyDetails.sellKey, hsigner, hswap]
    by_cases hk : d.sellKey = key
    · subst hk
      obtain ⟨halone, hexit⟩ := hkeeps rfl c hc
      have hfull : c.isFullExit cfg.rounding d.originSwap.inputAmount = false := by
        rcases hexit with hf | hsold
        · exact hf
        · exact absurd hsold hpos
      have hc' : s.Holds d.sellKey := h
      simp only [Holds, hc, tally_selling_eq_zero halone] at hc'
      have hsized := hc'.size hfull
      unfold Holds
      simp only [hfull, Bool.false_eq_true, if_false, hc, tally_append, tally_cons, tally_nil,
        Nat.add_zero, tally_selling_eq_zero halone, Nat.zero_add,
        Order.selling_of_sells hsells hkey, Order.amount, Order.originAmount, hamount, hswap]
      exact hsized
    · have hother : o.details.sells = true → o.details.sellKey ≠ key :=
        fun _ he => hk (hkey.symm.trans he)
      have hentry : (if c.isFullExit cfg.rounding d.originSwap.inputAmount = true then
          s.shared.history.remove d.sellKey else s.shared.history) key =
          s.shared.history key := by
        split
        · exact HistoricalTrades.remove_of_ne fun he => hk he.symm
        · rfl
      unfold Holds
      simp only [hentry, tally_append, tally_cons, tally_nil, Nat.add_zero,
        Order.selling_of_other hother]
      exact h
  | buy o hc hsells hsigner hswap =>
    have hother : o.details.sells = true → o.details.sellKey ≠ key :=
      fun hs => absurd (hsells.symm.trans hs) nofun
    unfold Holds
    simp only [tally_append, tally_cons, tally_nil, Nat.add_zero, Order.selling_of_other hother]
    exact h

/-- The orders in flight before one of them is taken out. -/
theorem holds_erase {s : Book} {i : ℕ} {o : Order} {key : Pubkey × Pubkey}
    (hi : s.inFlight[i]? = some o) (h : s.Holds key) :
    EntryHolds key.2 (s.shared.history key)
      (tally (Order.selling key fun _ => 1) (s.inFlight.eraseIdx i) +
        o.selling key fun _ => 1)
      (tally (Order.selling key Order.amount) (s.inFlight.eraseIdx i) +
        o.selling key Order.amount)
      (tally (Order.selling key Order.originAmount) (s.inFlight.eraseIdx i) +
        o.selling key Order.originAmount) := by
  rw [tally_eraseIdx hi, tally_eraseIdx hi, tally_eraseIdx hi]
  exact h

end Book

/-- The sold side of a confirmed order moves its sell to the entry. -/
theorem EntryHolds.soldAt {o : Order} {key : Pubkey × Pubkey} {entry mid : Option CopyHistory}
    {count amount originAmount : ℕ} (hat : SoldAt o key entry mid)
    (h : EntryHolds key.2 entry (count + o.selling key fun _ => 1)
      (amount + o.selling key Order.amount) (originAmount + o.selling key Order.originAmount)) :
    EntryHolds key.2 mid count amount originAmount := by
  cases hat with
  | other hno =>
    simp only [Order.selling_of_other hno, Nat.add_zero] at h
    exact h
  | untracked hsells hkey htoken =>
    simp only [Order.selling_of_sells hsells hkey] at h
    cases entry with
    | none => exact absurd (h.absent rfl) (Nat.succ_ne_zero count)
    | some c => exact absurd (htoken.symm.trans (h.tracked rfl)) nofun
  | sold v hsells hkey htoken hexec horigin hdust =>
    simp only [Order.selling_of_sells hsells hkey] at h
    exact h.sell hexec horigin hdust

namespace Book

/-- Confirming an order keeps the entry. -/
theorem holds_confirm {cfg : CopyConfig} {s : Book} {i : ℕ} {quote : QuoteAnswer}
    {env : SuccessEnv} {signature : Signature} {key : Pubkey × Pubkey}
    (hkeeps : KeepsEntry cfg key s (.confirm i quote env signature)) (h : s.Holds key) :
    (s.confirm cfg i quote env signature).Holds key := by
  have hcase := s.confirm_cases cfg i quote env signature
  generalize s.confirm cfg i quote env signature = s' at hcase
  cases hcase with
  | missing hi => exact h
  | settled o shared trades hi hat =>
    obtain ⟨mid, hsold, hbought⟩ := hat key
    have hmid := (holds_erase hi h).soldAt hsold
    change EntryHolds key.2 (shared.history key) _ _ _
    generalize shared.history key = entry at hbought ⊢
    generalize tally (CopyTrade.boughtAmount key) trades = net at hbought
    cases hbought with
    | other => exact hmid
    | bought v hbuys hkey htoken hexec horigin hdust =>
      obtain ⟨horiginBuy, hexecBuy⟩ := hsold.buyVolumes
      obtain ⟨hfits, hwithin⟩ := hkeeps o hi hbuys hkey
      rw [← hexec] at hwithin
      have hle := HistoricalTrades.dustVolume_le_of_within hwithin hdust
      refine hmid.buy hle htoken ⟨?_, ?_, ?_⟩ fun hcount => ⟨?_, ?_⟩
      · rw [horiginBuy, horigin]
        exact hfits.positive
      · rw [horiginBuy, horigin]
        exact hfits.origin
      · rw [hexecBuy, hexec]
        exact hfits.exec
      · exact tally_selling_of_count hcount _
      · exact tally_selling_of_count hcount _

/-- Giving an order up keeps the entry. -/
theorem holds_fail {cfg : CopyConfig} {s : Book} {i : ℕ} {env : FailureEnv}
    {key : Pubkey × Pubkey} (hkeeps : KeepsEntry cfg key s (.fail i env)) (h : s.Holds key) :
    (s.fail i env).Holds key := by
  unfold fail
  cases hi : s.inFlight[i]? with
  | none => exact h
  | some o =>
    have herase := holds_erase hi h
    have hat := handleFailedExecution_at env s.shared.history o key
    change EntryHolds key.2 (handleFailedExecution env s.shared.history o.details key) _ _ _
    generalize handleFailedExecution env s.shared.history o.details key = entry at hat ⊢
    cases hat with
    | other => exact herase.release
    | recorded c usd sol hc hkey =>
      cases hsells : o.details.sells with
      | true =>
        rw [hc] at herase
        simp only [Order.selling_of_sells hsells hkey] at herase
        exact herase.fail usd sol
      | false => exact absurd ((hkeeps o hi hsells hkey).symm.trans hc) nofun

/-- A step that meets the condition keeps the entry. -/
theorem holds_step (cfg : CopyConfig) (key : Pubkey × Pubkey) (s : Book) (e : BookEvent)
    (h : s.Holds key) (hkeeps : KeepsEntry cfg key s e) : (s.step cfg e).Holds key := by
  cases e with
  | trade walletBuysDisabled d => exact holds_trade hkeeps h
  | confirm i quote env signature => exact holds_confirm hkeeps h
  | fail i env => exact holds_fail hkeeps h

/-- What the entry of a wallet's token promises in a state of the book. -/
structure KeepsPromise (cfg : CopyConfig) (s : Book) (key : Pubkey × Pubkey) : Prop where
  /-- The origin wallet bought some, and no more of ours was sold than bought. -/
  held : ∀ c, s.shared.history key = some c →
    0 < c.origin.buyVolumeToken ∧ c.exec.sellVolumeToken ≤ c.exec.buyVolumeToken
  /-- An absent entry is created only by the confirmation of a buy. -/
  recreated : ∀ e c, s.shared.history key = none →
    (s.step cfg e).shared.history key = some c →
    ∃ i quote env signature o, e = .confirm i quote env signature ∧
      s.inFlight[i]? = some o ∧ o.details.buys = true ∧ o.details.buyKey = key
  /-- No swap out of the token finds that the origin wallet has nothing left. -/
  notExhausted : ∀ buyDisabled d wallet token buyVolume sellVolume, d.sellKey = key →
    (processDirect cfg buyDisabled s.shared.history d).2.2 ≠
      .error (.zeroTokensLeft wallet token buyVolume sellVolume)
  /-- A buy of the token for SOL is copied. -/
  rebought : ∀ d, d.originSwap.tokenDecimals.isSome = true → d.sellKey = (key.1, SOL) →
    d.buyKey = key → isStaticToken key.2 = false →
    ∃ order, (processDirect cfg false s.shared.history d).2.2 = .ok (some order) ∧
      order.inputTokenMint = SOL ∧ order.outputTokenMint = key.2

/-- A held entry promises what it should, once static tokens have none. -/
theorem Holds.keepsPromise {s : Book} {key : Pubkey × Pubkey} (h : s.Holds key)
    (huntracked : s.Untracked) (cfg : CopyConfig) : KeepsPromise cfg s key where
  held := fun c hc => by
    have hcov := EntryHolds.covered h c hc
    exact ⟨EntryHolds.bought h c hc, by omega⟩
  recreated := fun e c hnone hsome => by
    obtain ⟨-, i, quote, env, signature, o, rfl, hi, hsell | hbuy⟩ :=
      created_by_confirm hnone hsome
    · have hle := le_tally (f := Order.selling key fun _ => 1) hi
      have hzero := EntryHolds.absent h hnone
      rw [Order.selling_of_sells hsell.1 hsell.2] at hle
      omega
    · exact ⟨i, quote, env, signature, o, rfl, hi, hbuy⟩
  notExhausted := fun buyDisabled d wallet token buyVolume sellVolume hkey herr => by
    have hcase := processDirect_cases cfg buyDisabled s.shared.history d
    generalize processDirect cfg buyDisabled s.shared.history d = result at hcase herr
    cases hcase with
    | unresolved hdec => cases herr
    | exhausted c hdec hc hleft =>
      rw [hkey] at hc
      have hholds : s.Holds key := h
      unfold Holds at hholds
      rw [hc] at hholds
      exact hholds.originTokensLeft hleft
    | skipSell c hdec hc hleft hzero => cases herr
    | sell c order copyType hdec hc hleft hpos horder => cases herr
    | skipBuy hdec hc hskip => cases herr
    | buy order hdec hc hbuy hout hin hmint => cases herr
  rebought := fun d hdec hsell hbuy htoken => by
    have hnone : s.shared.history d.sellKey = none := by
      rw [hsell]
      exact huntracked _ rfl
    have hout : d.originSwap.outputTokenMint = key.2 := congrArg Prod.snd hbuy
    have hcase := processDirect_cases cfg false s.shared.history d
    generalize processDirect cfg false s.shared.history d = result at hcase ⊢
    cases hcase with
    | unresolved hno => exact absurd hdec (by simp [hno])
    | exhausted c hdec hc hleft => exact absurd (hnone.symm.trans hc) nofun
    | skipSell c hdec hc hleft hzero => exact absurd (hnone.symm.trans hc) nofun
    | sell c order copyType hdec hc hleft hpos horder =>
      exact absurd (hnone.symm.trans hc) nofun
    | skipBuy hdec hc hskip =>
      rcases hskip with hb | hs
      · exact absurd hb nofun
      · rw [hout, htoken] at hs
        exact absurd hs nofun
    | buy order hdec hc hbuys hstatic hin hmint => exact ⟨order, rfl, hin, hmint.trans hout⟩

/-- In every run from an empty history whose steps meet the condition for a wallet's
token, the entry of the token keeps its promise. -/
theorem keepsPromise_of_keepsEntry (cfg : CopyConfig) (pingTracker : Option PingTracker)
    (buyDisabled : Bool) (events : List BookEvent) (key : Pubkey × Pubkey)
    (hkeeps : Along (step cfg) (KeepsEntry cfg key) (init pingTracker buyDisabled) events) :
    KeepsPromise cfg (exec (step cfg) (init pingTracker buyDisabled) events) key := by
  have hholds := exec_invariant (holds_step cfg key)
    (init_holds pingTracker buyDisabled key) hkeeps
  have huntracked := exec_preserves (I := Untracked) (untracked_step cfg) events
    (fun _ _ => rfl : (init pingTracker buyDisabled).Untracked)
  exact hholds.keepsPromise huntracked cfg

/-- One buy and one partial sell. -/
theorem keepsPromise_of_keepsEntry_sample :
    KeepsPromise sampleConfig (exec (step sampleConfig) (init none false)
      (sampleBought ++ [.trade false (sampleSell 50)])) (sampleWallet, sampleToken) :=
  keepsPromise_of_keepsEntry sampleConfig none false _ _ (by decide +kernel)

/-- A full exit whose sell is confirmed before anything else happens leaves an entry that
the origin wallet never bought for. -/
theorem not_keepsPromise_full_exit :
    ¬ KeepsPromise sampleConfig (exec (step sampleConfig) (init none false)
      (sampleBought ++ [.trade false (sampleSell 96),
        .confirm 0 sampleQuote (sampleSuccess 0) 2])) (sampleWallet, sampleToken) := by
  intro h
  have hentry : (exec (step sampleConfig) (init none false)
      (sampleBought ++ [.trade false (sampleSell 96),
        .confirm 0 sampleQuote (sampleSuccess 0) 2])).shared.history
        (sampleWallet, sampleToken) =
      some { origin := { sellVolumeToken := 96 }, exec := { sellVolumeToken := 96 },
             token := sampleToken } := by
    decide +kernel
  exact Nat.lt_irrefl 0 (h.held _ hentry).1

end Book

end Biscuit.Copy
