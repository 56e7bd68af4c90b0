import Biscuit.Models.Copy.Postgres
import Mathlib.Data.Nat.ModEq

/-!
# The two storages side by side

The trades that `insert_trade` records are persisted in the files and in the database. The
files keep the volume and the dust of a trade, the database a clamped volume without the
dust. Both give back what the live history holds exactly when nothing is lost on the way.
-/

namespace Biscuit.Copy

/-- The arguments of one call of `insert_trade`, and what its trade is persisted with. -/
structure TradeCall where
  originWallet : Pubkey
  token : Pubkey
  tokenDecimals : ℕ
  execVolumeToken : ℕ
  originVolumeToken : ℕ
  execPriceUsd : F64
  execPriceSol : F64
  originPriceUsd : F64
  originPriceSol : F64
  direction : TradeDirection
  moonbagBps : Option ℕ
  originSignature : Signature
  execSignature : Signature
  execWallet : Pubkey

/-- A history and the trades that were recorded in it. -/
structure Recording where
  history : HistoricalTrades
  trades : List StoredTrade

namespace Recording

/-- One call of `insert_trade`; its trade is persisted unless the call fails. -/
def insert (r : Rounding) (s : Recording) (c : TradeCall) : Recording :=
  match s.history.insertTrade r c.originWallet c.token c.tokenDecimals c.execVolumeToken
      c.originVolumeToken c.execPriceUsd c.execPriceSol c.originPriceUsd c.originPriceSol
      c.direction c.moonbagBps with
  | .error _ => s
  | .ok (history, volume) =>
    { history
      trades := s.trades ++
        [{ token := c.token
           originWallet := c.originWallet
           originSignature := c.originSignature
           execSignature := c.execSignature
           direction := c.direction
           volume
           execWallet := c.execWallet }] }

/-- The calls are made one after the other. -/
def ofCalls (r : Rounding) (calls : List TradeCall) : Recording :=
  calls.foldl (insert r) ⟨.empty, []⟩

/-- Both storages give the volumes of the live history back, in whatever order files and rows
are read. -/
def BackendsAgree (clock : ℕ → ℕ) (s : Recording) : Prop :=
  ∀ (reader : FloatReader) (dirs : Iteration TradeFile) (rows : Iteration (Json × Json)),
    ∃ files db,
      (FileStorage.ofTrades clock s.trades).bootstrapHistory reader dirs = some files ∧
      (PgInstance.ofTrades s.trades).bootstrapTradeHistory reader rows = some db ∧
      s.history.SameVolumes files ∧ s.history.SameVolumes db

end Recording

/-- The part of a volume that the database cuts off. -/
def clippedI64 (n : ℕ) : ℕ := n - maxI64

/-- The total of a volume over the trades of one wallet and token in one direction. -/
def traded (key : Pubkey × Pubkey) (direction : TradeDirection) (f : TradeVolume → ℕ)
    (trades : List StoredTrade) : ℕ :=
  tally (fun t => if (t.originWallet, t.token) = key ∧ t.direction = direction then f t.volume
    else 0) trades

/-- The database loses nothing: all values are finite, what it cuts off the executed volumes
is their dust, and what it cuts off the origin volumes vanishes in a word. -/
structure Lossless (trades : List StoredTrade) : Prop where
  finite : ∀ t ∈ trades, t.volume.allFinite = true
  exec : ∀ key direction,
    traded key direction (fun v => clippedI64 v.execVolumeToken) trades ≡
      traded key direction TradeVolume.dustTokenAmount trades [MOD 2 ^ 64]
  origin : ∀ key direction,
    traded key direction (fun v => clippedI64 v.originVolumeToken) trades ≡ 0 [MOD 2 ^ 64]

/-! ## What was recorded -/

/-- The history keeps the recorded trades, which are trades of tracked tokens. -/
structure Recording.Faithful (s : Recording) : Prop where
  keeps : s.history.Keeps (Ledger.empty.postAll (s.trades.map fun t => t.record.posting))
  tracked : ∀ t ∈ s.trades, t.tracked = true

namespace Recording

theorem Faithful.insert {r : Rounding} {s : Recording} (hs : s.Faithful) (c : TradeCall) :
    (s.insert r c).Faithful := by
  unfold Recording.insert
  split
  · exact hs
  · next history volume hok =>
    obtain ⟨htoken, -, -, -, rfl⟩ := HistoricalTrades.insertTrade_ok hok
    refine ⟨?_, fun t ht => ?_⟩
    · rw [List.map_append, Ledger.postAll_append]
      exact hs.keeps.addTrade (c.originWallet, c.token) c.token volume.entry c.direction
    · rcases List.mem_append.mp ht with ht | ht
      · exact hs.tracked t ht
      · rw [List.mem_singleton.mp ht, CopyTrade.tracked, htoken]
        rfl

theorem faithful_ofCalls (r : Rounding) (calls : List TradeCall) : (ofCalls r calls).Faithful := by
  suffices h : ∀ s : Recording, s.Faithful → (calls.foldl (Recording.insert r) s).Faithful by
    refine h ⟨.empty, []⟩ ⟨HistoricalTrades.keeps_empty, fun t ht => ?_⟩
    cases ht
  induction calls with
  | nil => exact fun s hs => hs
  | cons c calls ih => exact fun s hs => ih _ (hs.insert c)

end Recording

/-! ## What the database cuts off -/

@[simp] theorem traded_nil (key : Pubkey × Pubkey) (direction : TradeDirection)
    (f : TradeVolume → ℕ) : traded key direction f [] = 0 := rfl

theorem traded_cons (key : Pubkey × Pubkey) (direction : TradeDirection) (f : TradeVolume → ℕ)
    (t : StoredTrade) (trades : List StoredTrade) :
    traded key direction f (t :: trades) =
      (if (t.originWallet, t.token) = key ∧ t.direction = direction then f t.volume else 0) +
        traded key direction f trades := tally_cons _ _

/-- What is posted to a key, seen at one direction and party. -/
theorem total_posting (key : Pubkey × Pubkey) (direction : TradeDirection) (party : Party)
    (record : StoredTrade → TradeRecord) (f : TradeVolume → ℕ)
    (hrecord : ∀ t, (record t).posting.1 = (t.originWallet, t.token) ∧
      (record t).posting.2 direction party = if t.direction = direction then f t.volume else 0)
    (trades : List StoredTrade) :
    Ledger.total key (trades.map fun t => (record t).posting) direction party =
      traded key direction f trades := by
  induction trades with
  | nil => rfl
  | cons t trades ih =>
    obtain ⟨hkey, hvolume⟩ := hrecord t
    rw [List.map_cons, Ledger.total_cons, Pi.add_apply, Pi.add_apply, ih, traded_cons, hkey]
    by_cases hk : (t.originWallet, t.token) = key
    · simp only [hk, if_true, true_and, hvolume]
    · simp only [hk, if_false, false_and, Pi.zero_apply]

theorem traded_add (key : Pubkey × Pubkey) (direction : TradeDirection) (f g : TradeVolume → ℕ)
    (trades : List StoredTrade) :
    traded key direction f trades + traded key direction g trades =
      traded key direction (fun v => f v + g v) trades := by
  induction trades with
  | nil => rfl
  | cons t trades ih =>
    rw [traded_cons, traded_cons, traded_cons, ← ih]
    split
    · omega
    · omega

theorem traded_modEq (key : Pubkey × Pubkey) (direction : TradeDirection) {f g : TradeVolume → ℕ}
    {trades : List StoredTrade} (h : ∀ t ∈ trades, f t.volume ≡ g t.volume [MOD 2 ^ 64]) :
    traded key direction f trades ≡ traded key direction g trades [MOD 2 ^ 64] := by
  induction trades with
  | nil => rfl
  | cons t trades ih =>
    rw [traded_cons, traded_cons]
    refine Nat.ModEq.add ?_ (ih fun u hu => h u (List.mem_cons_of_mem t hu))
    split
    · exact h t List.mem_cons_self
    · rfl

theorem clampI64_add_clippedI64 (n : ℕ) : clampI64 n + clippedI64 n = n := by
  unfold clampI64 clippedI64
  omega

/-- A wrapped difference gives the word back when what was taken off is added again. -/
theorem wrapSubU64_add_modEq (a b : ℕ) : wrapSubU64 a b + b ≡ a [MOD 2 ^ 64] := by
  unfold Nat.ModEq wrapSubU64 wrapU64
  omega

/-- What both storages post for the executing wallet agrees when the database cuts off the
dust. -/
theorem exec_modEq_iff (trades : List StoredTrade) (key : Pubkey × Pubkey)
    (direction : TradeDirection) :
    traded key direction (fun v => wrapSubU64 (clampI64 v.execVolumeToken) 0) trades ≡
        traded key direction (fun v => wrapSubU64 v.execVolumeToken v.dustTokenAmount) trades
          [MOD 2 ^ 64] ↔
      traded key direction (fun v => clippedI64 v.execVolumeToken) trades ≡
        traded key direction TradeVolume.dustTokenAmount trades [MOD 2 ^ 64] := by
  have hclamp : traded key direction (fun v => wrapSubU64 (clampI64 v.execVolumeToken) 0) trades +
      traded key direction (fun v => clippedI64 v.execVolumeToken) trades ≡
        traded key direction TradeVolume.execVolumeToken trades [MOD 2 ^ 64] := by
    rw [traded_add]
    refine traded_modEq key direction fun t _ => ?_
    rw [wrapSubU64_of_le (Nat.zero_le _), Nat.sub_zero]
    calc wrapU64 (clampI64 t.volume.execVolumeToken) + clippedI64 t.volume.execVolumeToken
        ≡ clampI64 t.volume.execVolumeToken + clippedI64 t.volume.execVolumeToken [MOD 2 ^ 64] :=
          (Nat.mod_modEq _ _).add_right _
      _ = t.volume.execVolumeToken := clampI64_add_clippedI64 _
  have hnet : traded key direction (fun v => wrapSubU64 v.execVolumeToken v.dustTokenAmount)
      trades + traded key direction TradeVolume.dustTokenAmount trades ≡
        traded key direction TradeVolume.execVolumeToken trades [MOD 2 ^ 64] := by
    rw [traded_add]
    exact traded_modEq key direction fun t _ => wrapSubU64_add_modEq _ _
  have hboth := hclamp.trans hnet.symm
  exact ⟨fun h => h.add_left_cancel hboth, fun h => h.add_right_cancel hboth⟩

/-- What both storages post for the origin wallet agrees when the database cuts nothing off. -/
theorem origin_modEq_iff (trades : List StoredTrade) (key : Pubkey × Pubkey)
    (direction : TradeDirection) :
    traded key direction (fun v => clampI64 v.originVolumeToken) trades ≡
        traded key direction TradeVolume.originVolumeToken trades [MOD 2 ^ 64] ↔
      traded key direction (fun v => clippedI64 v.originVolumeToken) trades ≡ 0 [MOD 2 ^ 64] := by
  have hclamp : traded key direction (fun v => clampI64 v.originVolumeToken) trades +
      traded key direction (fun v => clippedI64 v.originVolumeToken) trades =
        traded key direction TradeVolume.originVolumeToken trades := by
    rw [traded_add]
    simp only [clampI64_add_clippedI64]
  have hboth : traded key direction (fun v => clampI64 v.originVolumeToken) trades +
      traded key direction (fun v => clippedI64 v.originVolumeToken) trades ≡
        traded key direction TradeVolume.originVolumeToken trades + 0 [MOD 2 ^ 64] := by
    rw [hclamp, Nat.add_zero]
  exact ⟨fun h => h.add_left_cancel hboth, fun h => h.add_right_cancel hboth⟩

theorem wrapU64_eq_iff {m n : ℕ} : wrapU64 m = wrapU64 n ↔ m ≡ n [MOD 2 ^ 64] := Iff.rfl

/-- The columns of the trades and the trades themselves post the same words to every key exactly
when the database loses nothing but the dust. -/
theorem columns_wrapped_iff (reader : FloatReader) (trades : List StoredTrade) :
    (∀ key, TokenVolumes.wrapped (Ledger.total key
          (trades.map fun t => (t.columns reader).posting)) =
        TokenVolumes.wrapped (Ledger.total key (trades.map fun t => t.record.posting))) ↔
      ∀ key direction, traded key direction (fun v => clippedI64 v.execVolumeToken) trades ≡
          traded key direction TradeVolume.dustTokenAmount trades [MOD 2 ^ 64] ∧
        traded key direction (fun v => clippedI64 v.originVolumeToken) trades ≡ 0
          [MOD 2 ^ 64] := by
  have hcolumnsExec := fun key direction => total_posting key direction .exec
    (fun t => t.columns reader) (fun v => wrapSubU64 (clampI64 v.execVolumeToken) 0)
    (fun t => ⟨rfl, if_congr eq_comm rfl rfl⟩) trades
  have hcolumnsOrigin := fun key direction => total_posting key direction .origin
    (fun t => t.columns reader) (fun v => clampI64 v.originVolumeToken)
    (fun t => ⟨rfl, if_congr eq_comm rfl rfl⟩) trades
  have hrecordExec := fun key direction => total_posting key direction .exec
    (fun t => t.record) (fun v => wrapSubU64 v.execVolumeToken v.dustTokenAmount)
    (fun t => ⟨rfl, if_congr eq_comm rfl rfl⟩) trades
  have hrecordOrigin := fun key direction => total_posting key direction .origin
    (fun t => t.record) TradeVolume.originVolumeToken
    (fun t => ⟨rfl, if_congr eq_comm rfl rfl⟩) trades
  constructor
  · intro h key direction
    rw [← exec_modEq_iff, ← origin_modEq_iff]
    have hexec := congrFun (congrFun (h key) direction) Party.exec
    have horigin := congrFun (congrFun (h key) direction) Party.origin
    rw [TokenVolumes.wrapped, TokenVolumes.wrapped, hcolumnsExec, hrecordExec] at hexec
    rw [TokenVolumes.wrapped, TokenVolumes.wrapped, hcolumnsOrigin, hrecordOrigin] at horigin
    exact ⟨wrapU64_eq_iff.mp hexec, wrapU64_eq_iff.mp horigin⟩
  · intro h key
    ext direction party
    obtain ⟨hexec, horigin⟩ := h key direction
    rw [← exec_modEq_iff] at hexec
    rw [← origin_modEq_iff] at horigin
    cases party with
    | exec =>
      rw [TokenVolumes.wrapped, TokenVolumes.wrapped, hcolumnsExec, hrecordExec]
      exact wrapU64_eq_iff.mpr hexec
    | origin =>
      rw [TokenVolumes.wrapped, TokenVolumes.wrapped, hcolumnsOrigin, hrecordOrigin]
      exact wrapU64_eq_iff.mpr horigin

/-- Both storages give the live volumes back exactly when the database loses nothing. -/
theorem backendsAgree_iff {clock : ℕ → ℕ} (hclock : Function.Injective clock) (r : Rounding)
    (calls : List TradeCall) :
    (Recording.ofCalls r calls).BackendsAgree clock ↔
      Lossless (Recording.ofCalls r calls).trades := by
  obtain ⟨hkeeps, htracked⟩ := Recording.faithful_ofCalls r calls
  generalize Recording.ofCalls r calls = s at hkeeps htracked ⊢
  have hkeys : ∀ reader, (s.trades.map fun t => (t.columns reader).posting).map Prod.fst =
      (s.trades.map fun t => t.record.posting).map Prod.fst := by
    intro reader
    have hcolumn : ∀ t : StoredTrade,
        (t.columns reader).posting.1 = (t.originWallet, t.token) := fun _ => rfl
    have hrecord : ∀ t : StoredTrade, t.record.posting.1 = (t.originWallet, t.token) :=
      fun _ => rfl
    simp only [List.map_map, Function.comp_def, hcolumn, hrecord]
  have hcolumns : ∀ (reader : FloatReader) (db : HistoricalTrades),
      db.Keeps (Ledger.empty.postAll (s.trades.map fun t => (t.columns reader).posting)) →
      (s.history.SameVolumes db ↔ ∀ key direction,
        traded key direction (fun v => clippedI64 v.execVolumeToken) s.trades ≡
          traded key direction TradeVolume.dustTokenAmount s.trades [MOD 2 ^ 64] ∧
        traded key direction (fun v => clippedI64 v.originVolumeToken) s.trades ≡ 0
          [MOD 2 ^ 64]) := by
    intro reader db hdb
    rw [hkeeps.sameVolumes_iff hdb, Ledger.map_postAll_eq_iff _ (hkeys reader),
      columns_wrapped_iff]
  constructor
  · intro h
    have hfinite : ∀ t ∈ s.trades, t.volume.allFinite = true := by
      intro t ht
      by_contra hbad
      obtain ⟨files, db, -, hdb, -⟩ := h ⟨id⟩ (.stored _) (.stored _)
      rw [PgInstance.bootstrapTradeHistory_eq_none ht (by simpa using hbad)] at hdb
      cases hdb
    obtain ⟨files, db, -, hdb, -, hsame⟩ := h ⟨id⟩ (.stored _) (.stored _)
    obtain ⟨db', hdb', hkeeps'⟩ := PgInstance.bootstrapTradeHistory_ofTrades
      (fun t ht => ⟨htracked t ht, hfinite t ht⟩) ⟨id⟩ (.stored _)
    rw [hdb, Option.some.injEq] at hdb'
    subst hdb'
    have hlost := (hcolumns _ db hkeeps').mp hsame
    exact ⟨hfinite, fun key direction => (hlost key direction).1,
      fun key direction => (hlost key direction).2⟩
  · rintro ⟨hfinite, hexec, horigin⟩ reader dirs rows
    have hrestorable : ∀ t ∈ s.trades, t.restorable = true := by
      intro t ht
      have hall := hfinite t ht
      rw [TradeVolume.allFinite, Bool.and_eq_true] at hall
      rw [CopyTrade.restorable, htracked t ht, hall.1]
      rfl
    obtain ⟨files, hfiles, hkeepsFiles⟩ :=
      FileStorage.bootstrapHistory_ofTrades hclock hrestorable reader dirs
    obtain ⟨db, hdb, hkeepsDb⟩ := PgInstance.bootstrapTradeHistory_ofTrades
      (fun t ht => ⟨htracked t ht, hfinite t ht⟩) reader rows
    refine ⟨files, db, hfiles, hdb, ?_, ?_⟩
    · exact (hkeeps.sameVolumes_iff hkeepsFiles).mpr fun key => rfl
    · exact (hcolumns reader db hkeepsDb).mpr fun key direction =>
        ⟨hexec key direction, horigin key direction⟩

/-- A buy of 100 units of the sample token. -/
def sampleCall (moonbagBps : ℕ) : TradeCall where
  originWallet := sampleWallet
  token := sampleToken
  tokenDecimals := 6
  execVolumeToken := 100
  originVolumeToken := 100
  execPriceUsd := .fin 1
  execPriceSol := .fin 1
  originPriceUsd := .fin 1
  originPriceSol := .fin 1
  direction := .buy
  moonbagBps := some moonbagBps
  originSignature := 0
  execSignature := 1
  execWallet := 3

/-- Without a moonbag a small buy comes back from both storages. -/
theorem backendsAgree_iff_sample :
    (Recording.ofCalls .binary64 [sampleCall 0]).BackendsAgree id := by
  refine (backendsAgree_iff Function.injective_id .binary64 [sampleCall 0]).mpr
    ⟨by decide +kernel, fun key direction => ?_, fun key direction => ?_⟩
  · exact traded_modEq key direction (by decide +kernel)
  · exact (origin_modEq_iff _ key direction).mp (traded_modEq key direction (by decide +kernel))

/-- The database gives the dust of a buy back as if it were held. -/
theorem not_backendsAgree_dust :
    ¬ ∀ calls : List TradeCall, (Recording.ofCalls .binary64 calls).BackendsAgree id := by
  intro h
  obtain ⟨files, db, -, hdb, -, hsame⟩ := h [sampleCall 1000] ⟨id⟩ (.stored _) (.stored _)
  have hstored : ((PgInstance.ofTrades (Recording.ofCalls .binary64 [sampleCall 1000]).trades
      ).bootstrapTradeHistory ⟨id⟩ (.stored _)).bind (fun db =>
        (db (sampleWallet, sampleToken)).map fun c => c.volumes .buy .exec) = some 100 := by
    decide +kernel
  have hlive : ((Recording.ofCalls .binary64 [sampleCall 1000]).history
      (sampleWallet, sampleToken)).map (fun c => c.volumes .buy .exec) = some 90 := by
    decide +kernel
  have hvolume := congrArg (Option.map fun v : TokenVolumes => v .buy .exec)
    (hsame (sampleWallet, sampleToken))
  rw [Option.map_map, Option.map_map] at hvolume
  rw [hdb, Option.bind_some] at hstored
  have hboth := hstored.symm.trans (hvolume.trans hlive)
  exact absurd hboth (by decide)

end Biscuit.Copy
