import Biscuit.Core.Table
import Biscuit.Models.Copy.Serde
import Biscuit.Models.Copy.Volumes

/-!
# The file storage

Every recorded trade is one JSON file in a directory of its token, in a directory of its
wallet. After a restart the history is rebuilt from all files, in the order in which the
directories list them; a single file that cannot be read ends it.
-/

namespace Biscuit.Copy

/-! ## The storage -/

/-- One file: the names of its two directories, its own name and its content. -/
structure TradeFile where
  walletDir : Text
  tokenDir : Text
  /-- The time at which the file was written, in microseconds. -/
  timestamp : ℕ
  content : Json

/-- The files of a storage. -/
abbrev FileStorage := List TradeFile

/-- The file of a trade. -/
def StoredTrade.file (t : StoredTrade) (timestamp : ℕ) : TradeFile :=
  ⟨Pubkey.toText t.originWallet, Pubkey.toText t.token, timestamp, t.toJson⟩

/-- The two files have the same path. -/
def TradeFile.samePath (f g : TradeFile) : Bool :=
  f.walletDir == g.walletDir && f.tokenDir == g.tokenDir && f.timestamp == g.timestamp

/-- Read one file; the names of its directories give the wallet and the token. -/
def TradeFile.record (reader : FloatReader) (f : TradeFile) : Option TradeRecord := do
  let originWallet ← Pubkey.ofText f.walletDir
  let token ← Pubkey.ofText f.tokenDir
  let trade ← StoredTrade.ofJson reader f.content
  some ⟨originWallet, token, trade.volume.entry, trade.direction⟩

namespace FileStorage

/-- `FileStorage::insert_trade`: a file of the same name is overwritten. -/
def insertTrade (storage : FileStorage) (timestamp : ℕ) (t : StoredTrade) : FileStorage :=
  storage.filter (fun f => !f.samePath (t.file timestamp)) ++ [t.file timestamp]

/-- `FileStorage::bootstrap_history`, for the order in which the directories list the files. -/
def bootstrapHistory (reader : FloatReader) (storage : FileStorage) (dirs : Iteration TradeFile) :
    Option HistoricalTrades :=
  (dirs.order storage).foldlM (fun h f => (f.record reader).bind h.replay) .empty

/-- The trades are stored one after the other, each at its own time. -/
def ofTrades (clock : ℕ → ℕ) (trades : List StoredTrade) : FileStorage :=
  trades.zipIdx.foldl (fun storage t => storage.insertTrade (clock t.2) t.1) []

end FileStorage

/-! ## What the files of trades restore -/

/-- A trade of a tracked token. -/
def CopyTrade.tracked (t : CopyTrade) : Bool := !isStaticToken t.token

/-- What a trade is replayed with. -/
def CopyTrade.record (t : CopyTrade) : TradeRecord :=
  ⟨t.originWallet, t.token, t.volume.entry, t.direction⟩

/-- Whether the file of a trade can be read and added to a history. -/
def CopyTrade.restorable (t : CopyTrade) : Bool := t.tracked && t.volume.execFinite

theorem StoredTrade.record_file (reader : FloatReader) (t : StoredTrade) (timestamp : ℕ) :
    (t.file timestamp).record reader =
      if t.volume.execFinite then some (t.orNan.back reader).record else none := by
  simp only [TradeFile.record, file, Pubkey.ofText_toText, ofJson_toJson,
    TradeVolume.ofJson_toJson, Option.bind_eq_bind, Option.bind_some]
  split
  · rfl
  · rfl

theorem StoredTrade.restores_file (reader : FloatReader) (t : StoredTrade) (timestamp : ℕ) :
    Restores (TradeFile.record reader) (t.file timestamp) = t.restorable := by
  rw [Restores, record_file, CopyTrade.restorable, Bool.and_comm]
  split
  · next h => rw [h]; rfl
  · next h => rw [Bool.eq_false_iff.mpr h]; rfl

namespace FileStorage

/-- At a new time nothing is overwritten. -/
theorem insertTrade_of_new {storage : FileStorage} {timestamp : ℕ}
    (h : ∀ f ∈ storage, f.timestamp ≠ timestamp) (t : StoredTrade) :
    storage.insertTrade timestamp t = storage ++ [t.file timestamp] := by
  rw [insertTrade, List.filter_eq_self.mpr]
  intro f hf
  have hne : (f.timestamp == (t.file timestamp).timestamp) = false := beq_false_of_ne (h f hf)
  simp only [TradeFile.samePath, hne, Bool.and_false, Bool.not_false]

theorem foldl_insertTrade {clock : ℕ → ℕ} (hclock : Function.Injective clock)
    (trades : List StoredTrade) (n : ℕ) (storage : FileStorage)
    (h : ∀ f ∈ storage, ∀ k, n ≤ k → f.timestamp ≠ clock k) :
    (trades.zipIdx n).foldl (fun storage t => storage.insertTrade (clock t.2) t.1) storage =
      storage ++ (trades.zipIdx n).map fun t => t.1.file (clock t.2) := by
  induction trades generalizing n storage with
  | nil => rw [List.zipIdx_nil, List.foldl_nil, List.map_nil, List.append_nil]
  | cons t trades ih =>
    rw [List.zipIdx_cons, List.foldl_cons, insertTrade_of_new fun f hf => h f hf n le_rfl, ih,
      List.map_cons, List.append_assoc, List.singleton_append]
    intro f hf k hk
    rcases List.mem_append.mp hf with hf | hf
    · exact h f hf k (by omega)
    · rw [List.mem_singleton.mp hf]
      exact fun hsame => absurd (hclock hsame) (by omega)

/-- Every trade has a file of its own. -/
theorem ofTrades_eq {clock : ℕ → ℕ} (hclock : Function.Injective clock)
    (trades : List StoredTrade) :
    ofTrades clock trades = trades.zipIdx.map fun t => t.1.file (clock t.2) := by
  rw [ofTrades, foldl_insertTrade hclock trades 0 [] fun f hf => (List.not_mem_nil hf).elim,
    List.nil_append]

theorem exists_file_mem_ofTrades {clock : ℕ → ℕ} (hclock : Function.Injective clock)
    {trades : List StoredTrade} {t : StoredTrade} (ht : t ∈ trades) :
    ∃ timestamp, t.file timestamp ∈ ofTrades clock trades := by
  rw [ofTrades_eq hclock]
  obtain ⟨n, hn⟩ := List.getElem?_of_mem ht
  exact ⟨clock n, List.mem_map.mpr ⟨(t, n), List.mem_zipIdx_iff_getElem?.mpr hn, rfl⟩⟩

/-- When all trades can be restored, the history keeps all of them. -/
theorem bootstrapHistory_ofTrades {clock : ℕ → ℕ} (hclock : Function.Injective clock)
    {trades : List StoredTrade} (h : ∀ t ∈ trades, t.restorable = true) (reader : FloatReader)
    (dirs : Iteration TradeFile) :
    ∃ h', (ofTrades clock trades).bootstrapHistory reader dirs = some h' ∧
      h'.Keeps (Ledger.empty.postAll (trades.map fun t => t.record.posting)) := by
  have hfiles := ofTrades_eq hclock trades
  have hgood : ∀ f ∈ dirs.order (ofTrades clock trades),
      Restores (TradeFile.record reader) f = true := by
    intro f hf
    rw [dirs.mem_order, hfiles] at hf
    obtain ⟨⟨t, n⟩, ht, rfl⟩ := List.mem_map.mp hf
    rw [StoredTrade.restores_file]
    exact h t (List.fst_mem_of_mem_zipIdx ht)
  obtain ⟨h', hread, hkeeps⟩ := foldlM_replay hgood HistoricalTrades.keeps_empty
  refine ⟨h', hread, ?_⟩
  have hrecords : ((ofTrades clock trades).filterMap (TradeFile.record reader)).map
      TradeRecord.posting = trades.map fun t => t.record.posting := by
    rw [hfiles, List.filterMap_map]
    have hmap : ∀ t ∈ trades.zipIdx, (TradeFile.record reader ∘ fun t => t.1.file (clock t.2)) t =
        some (t.1.orNan.back reader).record := by
      intro t ht
      have hfinite := h t.1 (List.fst_mem_of_mem_zipIdx ht)
      rw [CopyTrade.restorable, Bool.and_eq_true] at hfinite
      rw [Function.comp_apply, StoredTrade.record_file, if_pos hfinite.2]
    rw [List.filterMap_congr hmap, List.filterMap_eq_map', List.map_map]
    conv_rhs => rw [← List.zipIdx_map_fst 0 trades, List.map_map]
    rfl
  rw [← hrecords, ← Ledger.postAll_perm _ (((dirs.perm _).filterMap _).map _)]
  exact hkeeps

/-- One trade that cannot be read ends the restart, whatever else is stored. -/
theorem bootstrapHistory_eq_none {storage : FileStorage} {t : StoredTrade} {timestamp : ℕ}
    (ht : t.restorable = false) (hmem : t.file timestamp ∈ storage) (reader : FloatReader)
    (dirs : Iteration TradeFile) : storage.bootstrapHistory reader dirs = none := by
  refine foldlM_replay_eq_none (dirs.mem_order.mpr hmem) ?_ _
  rw [StoredTrade.restores_file, ht]

end FileStorage

/-! ## The round trip -/

/-- A stored trade is read back, with `nan` for what is not finite, exactly when the values of
its executed volume are finite and its finite values are read back as they are; and no history
with its file can be rebuilt when a value of its executed volume is not finite. -/
theorem StoredTrade.roundTrip_iff (reader : FloatReader) (t : StoredTrade) :
    (ofJson reader t.toJson = some t.orNan ↔ t.volume.Kept reader) ∧
      (t.volume.execFinite = false → ∀ (storage : FileStorage) (timestamp : ℕ)
        (dirs : Iteration TradeFile), t.file timestamp ∈ storage →
        storage.bootstrapHistory reader dirs = none) := by
  constructor
  · rw [← TradeVolume.ofJson_toJson_iff, ofJson_toJson]
    cases TradeVolume.ofJson reader t.volume.toJson with
    | none => simp only [Option.map_none, reduceCtorEq]
    | some volume =>
      simp only [Option.map_some, Option.some.injEq, orNan, StoredTrade.mk.injEq,
        CopyTrade.mk.injEq, true_and, and_true]
  · intro h storage timestamp dirs hmem
    refine FileStorage.bootstrapHistory_eq_none ?_ hmem reader dirs
    rw [CopyTrade.restorable, h, Bool.and_false]

/-- A buy of the sample token for SOL. -/
def samplePriced : Order where
  details := { sampleBuy 100 with copyType := some .buy }
  input := exactInOrder sampleConfig SOL sampleToken 10
  sized :=
    { direct := rfl
      resolved := rfl
      typed := rfl
      sellMint := fun h => by cases h
      fundMint := fun _ => rfl
      buyMint := fun _ => rfl
      proceedsMint := fun h => by cases h
      bought := fun _ => by decide }

/-- Only the price of SOL is known. -/
def sampleAnswers : PriceAnswers := ⟨some (.fin 150), fun _ => none⟩

/-- The quote says that nothing is received, but 100 tokens are. -/
def sampleZeroQuote : SuccessEnv :=
  ⟨(sampleQuote.details samplePriced.input).prices sampleAnswers 9 6,
    samplePriced.details.originSwap.prices sampleAnswers ⟨9, 6⟩, some (100, 1000000)⟩

/-- The service records a trade of infinite value when the quoted output is zero, and its file
is not read back, even where finite values are. -/
theorem StoredTrade.not_roundTrip_zero_quote :
    ¬ ∀ t : StoredTrade, Produced t.toCopyTrade → ofJson ⟨id⟩ t.toJson = some t.orNan := by
  intro h
  have hpriced : sampleZeroQuote.Priced (samplePriced.quoted sampleQuote) := by
    intro origin q inDecimals outDecimals horigin hq hin hout
    cases horigin
    cases hq
    cases hin
    cases hout
    exact ⟨⟨sampleAnswers, rfl⟩, ⟨sampleAnswers, rfl⟩⟩
  have hodd : (handleSuccessTxn sampleConfig sampleZeroQuote ⟨.empty, none, false⟩
      (samplePriced.quoted sampleQuote) 1).any
        (fun r => r.2.any fun t => !t.volume.execFinite) = true := by
    decide +kernel
  cases hsuccess : handleSuccessTxn sampleConfig sampleZeroQuote ⟨.empty, none, false⟩
      (samplePriced.quoted sampleQuote) 1 with
  | none =>
    rw [hsuccess] at hodd
    cases hodd
  | some r =>
    rw [hsuccess, Option.any_some, List.any_eq_true] at hodd
    obtain ⟨t, ht, hfinite⟩ := hodd
    have hback := h ⟨t, 0⟩ ⟨_, _, _, _, _, _, r.1, r.2, hpriced, hsuccess, ht⟩
    have hfinite' : t.volume.execFinite = false := by simpa using hfinite
    rw [ofJson_toJson, TradeVolume.ofJson_toJson, hfinite'] at hback
    cases hback

end Biscuit.Copy
