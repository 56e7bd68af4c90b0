import Biscuit.Core.Ledger
import Biscuit.Models.Copy.History

/-!
# The volumes of the history as a ledger

What sizing reads of the history are its volumes in tokens: for every wallet and token what
the origin wallet and the executing wallet bought and sold. They are the totals of a ledger
that every trade posts to, as 64-bit words. A storage rebuilds a history by adding its trades
one after the other.
-/

namespace Biscuit.Copy

/-- Whose volumes a history holds. -/
inductive Party
  | origin
  | exec
  deriving DecidableEq, Repr

/-- What each party bought and sold of a token. -/
abbrev TokenVolumes := TradeDirection → Party → ℕ

/-- The volumes in tokens of an entry. -/
def CopyHistory.volumes (c : CopyHistory) : TokenVolumes
  | .buy, .origin => c.origin.buyVolumeToken
  | .sell, .origin => c.origin.sellVolumeToken
  | .buy, .exec => c.exec.buyVolumeToken
  | .sell, .exec => c.exec.sellVolumeToken

/-- The volumes as 64-bit words. -/
def TokenVolumes.wrapped (v : TokenVolumes) : TokenVolumes := fun direction party =>
  wrapU64 (v direction party)

/-- The volumes of one trade. -/
def tradeVolumes (direction : TradeDirection) (origin exec : ℕ) : TokenVolumes :=
  fun direction' party =>
    if direction' = direction then
      match party with
      | .origin => origin
      | .exec => exec
    else 0

/-- The volumes that a trade adds to its entry: the dust stays out. -/
def TradeEntry.volumes (v : TradeEntry) (direction : TradeDirection) : TokenVolumes :=
  tradeVolumes direction v.originVolumeToken (wrapSubU64 v.execVolumeToken v.dustVolumeToken)

/-- A trade adds its volumes to those of the entry, and the sums wrap. -/
theorem CopyHistory.volumes_addTrade {c : CopyHistory} {a : TokenVolumes}
    (hc : c.volumes = a.wrapped) (token : Pubkey) (v : TradeEntry) (direction : TradeDirection) :
    (c.addTrade token v direction).volumes = (a + v.volumes direction).wrapped := by
  have hbuyOrigin : c.origin.buyVolumeToken = wrapU64 (a .buy .origin) :=
    congrFun (congrFun hc .buy) .origin
  have hbuyExec : c.exec.buyVolumeToken = wrapU64 (a .buy .exec) :=
    congrFun (congrFun hc .buy) .exec
  have hsellOrigin : c.origin.sellVolumeToken = wrapU64 (a .sell .origin) :=
    congrFun (congrFun hc .sell) .origin
  have hsellExec : c.exec.sellVolumeToken = wrapU64 (a .sell .exec) :=
    congrFun (congrFun hc .sell) .exec
  have hadd : ∀ m n : ℕ, wrapU64 (wrapU64 m + n) = wrapU64 (m + n) := fun m n =>
    Nat.mod_add_mod m _ n
  ext direction' party
  cases direction <;> cases direction' <;> cases party <;>
    simp only [volumes, addTrade, TradeHistory.addBuy, TradeHistory.addSell, TokenVolumes.wrapped,
      Pi.add_apply, TradeEntry.volumes, tradeVolumes, if_true, reduceCtorEq, if_false, Nat.add_zero,
      hbuyOrigin, hbuyExec, hsellOrigin, hsellExec, hadd]

/-- An origin sell changes the volumes of an entry exactly when its amount is not zero as a
word. -/
theorem CopyHistory.volumes_addSell_iff {c : CopyHistory} {a : TokenVolumes}
    (hc : c.volumes = a.wrapped) (amount : ℕ) (usd sol : F64) :
    volumes { c with origin := c.origin.addSell amount usd sol } = c.volumes ↔
      amount % 2 ^ 64 = 0 := by
  have hword : c.origin.sellVolumeToken = wrapU64 (a .sell .origin) :=
    congrFun (congrFun hc .sell) .origin
  have hsum : wrapU64 (c.origin.sellVolumeToken + amount) = c.origin.sellVolumeToken ↔
      amount % 2 ^ 64 = 0 := by
    rw [hword]
    unfold wrapU64
    omega
  rw [← hsum]
  constructor
  · intro h
    exact congrFun (congrFun h .sell) .origin
  · intro h
    ext direction party
    cases direction <;> cases party <;>
      simp only [volumes, TradeHistory.addSell, h]

/-- A ledger of the volumes that were traded. -/
abbrev VolumeLedger := Ledger (Pubkey × Pubkey) TokenVolumes

namespace HistoricalTrades

/-- The history has the entries of the ledger, and their volumes as 64-bit words. -/
def Keeps (h : HistoricalTrades) (l : VolumeLedger) : Prop :=
  ∀ key, (h key).map CopyHistory.volumes = (l key).map TokenVolumes.wrapped

/-- Two histories have the same entries with the same volumes in tokens. -/
def SameVolumes (h h' : HistoricalTrades) : Prop :=
  ∀ key, (h' key).map CopyHistory.volumes = (h key).map CopyHistory.volumes

theorem keeps_empty : empty.Keeps Ledger.empty := fun _ => rfl

/-- Recording a trade posts its volumes. -/
theorem Keeps.addTrade {h : HistoricalTrades} {l : VolumeLedger} (hl : h.Keeps l)
    (key : Pubkey × Pubkey) (token : Pubkey) (v : TradeEntry) (direction : TradeDirection) :
    (h.insert key (((h key).getD {}).addTrade token v direction)).Keeps
      (l.post (key, v.volumes direction)) := by
  intro key'
  by_cases hk : key' = key
  · subst hk
    have hvolumes : ((h key').getD {}).volumes = ((l key').getD 0).wrapped := by
      have hentry := hl key'
      cases hh : h key' with
      | none =>
        rw [hh] at hentry
        rw [Option.map_eq_none_iff.mp hentry.symm]
        ext direction party
        cases direction <;> cases party <;> rfl
      | some c =>
        rw [hh, Option.map_some] at hentry
        obtain ⟨a, ha, hca⟩ := Option.map_eq_some_iff.mp hentry.symm
        rw [ha]
        exact hca.symm
    rw [insert_self, Option.map_some, CopyHistory.volumes_addTrade hvolumes,
      Ledger.post_self l (key', v.volumes direction), Option.map_some]
  · rw [insert_of_ne _ hk, Ledger.post_of_ne l _ hk]
    exact hl key'

theorem Keeps.sameVolumes_iff {h h' : HistoricalTrades} {l l' : VolumeLedger} (hl : h.Keeps l)
    (hl' : h'.Keeps l') : h.SameVolumes h' ↔
      ∀ key, (l' key).map TokenVolumes.wrapped = (l key).map TokenVolumes.wrapped := by
  constructor
  · intro hs key
    rw [← hl key, ← hl' key]
    exact hs key
  · intro hs key
    rw [hl key, hl' key]
    exact hs key

end HistoricalTrades

/-! ## Rebuilding a history -/

/-- The volumes of a trade, in the order in which `insert_trade_inner` takes them. -/
def TradeVolume.entry (v : TradeVolume) : TradeEntry :=
  ⟨v.execVolumeToken, v.originVolumeToken, v.execVolumeUsd, v.originVolumeUsd, v.execVolumeSol,
    v.originVolumeSol, v.dustTokenAmount⟩

/-- The arguments with which a storage calls `insert_trade_inner`. -/
structure TradeRecord where
  originWallet : Pubkey
  token : Pubkey
  entry : TradeEntry
  direction : TradeDirection

/-- What a trade adds to which entry. -/
def TradeRecord.posting (r : TradeRecord) : (Pubkey × Pubkey) × TokenVolumes :=
  ((r.originWallet, r.token), r.entry.volumes r.direction)

/-- Add a trade that was read back. -/
def HistoricalTrades.replay (h : HistoricalTrades) (r : TradeRecord) : Option HistoricalTrades :=
  (h.insertTradeInner r.originWallet r.token r.entry r.direction).toOption

theorem HistoricalTrades.replay_tracked {h : HistoricalTrades} {l : VolumeLedger}
    (hl : h.Keeps l) {r : TradeRecord} (hr : isStaticToken r.token = false) :
    ∃ h', h.replay r = some h' ∧ h'.Keeps (l.post r.posting) := by
  refine ⟨_, ?_, hl.addTrade (r.originWallet, r.token) r.token r.entry r.direction⟩
  simp only [replay, insertTradeInner, hr, Bool.false_eq_true, if_false]
  rfl

theorem HistoricalTrades.replay_static (h : HistoricalTrades) {r : TradeRecord}
    (hr : isStaticToken r.token = true) : h.replay r = none := by
  simp only [replay, insertTradeInner, hr, if_true]
  rfl

section Replay

variable {β : Type} {record : β → Option TradeRecord} {items : List β}

/-- The item is read as a trade of a tracked token. -/
def Restores (record : β → Option TradeRecord) (b : β) : Bool :=
  (record b).any fun r => !isStaticToken r.token

theorem restores_iff {b : β} :
    Restores record b = true ↔ ∃ r, record b = some r ∧ isStaticToken r.token = false := by
  unfold Restores
  cases record b with
  | none => simp only [Option.any_none, Bool.false_eq_true, reduceCtorEq, false_and, exists_false]
  | some r => simp only [Option.any_some, Bool.not_eq_true', Option.some.injEq, exists_eq_left']

/-- When every item can be read, the history keeps the ledger of all trades. -/
theorem foldlM_replay (hgood : ∀ b ∈ items, Restores record b = true) {h : HistoricalTrades}
    {l : VolumeLedger} (hl : h.Keeps l) :
    ∃ h', items.foldlM (fun h b => (record b).bind h.replay) h = some h' ∧
      h'.Keeps (l.postAll ((items.filterMap record).map TradeRecord.posting)) := by
  induction items generalizing h l with
  | nil => exact ⟨h, rfl, hl⟩
  | cons b items ih =>
    obtain ⟨r, hb, hr⟩ := restores_iff.mp (hgood b List.mem_cons_self)
    obtain ⟨h₁, hreplay, hkeeps⟩ := HistoricalTrades.replay_tracked hl hr
    rw [List.foldlM_cons, hb, Option.bind_some, hreplay, List.filterMap_cons_some hb]
    exact ih (fun b hb => hgood b (List.mem_cons_of_mem _ hb)) hkeeps

/-- When one item cannot be read, there is no history. -/
theorem foldlM_replay_eq_none {b : β} (hb : b ∈ items) (hbad : Restores record b = false)
    (h : HistoricalTrades) : items.foldlM (fun h b => (record b).bind h.replay) h = none := by
  induction items generalizing h with
  | nil => cases hb
  | cons c items ih =>
    rw [List.foldlM_cons]
    rcases List.mem_cons.mp hb with rfl | hb
    · cases hrecord : record b with
      | none => rfl
      | some r =>
        rw [Restores, hrecord, Option.any_some, Bool.not_eq_false'] at hbad
        rw [Option.bind_some, h.replay_static hbad]
        rfl
    · cases hread : (record c).bind h.replay with
      | none => rfl
      | some h₁ => exact ih hb h₁

end Replay

end Biscuit.Copy
