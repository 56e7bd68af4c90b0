import Biscuit.Models.Copy.FileStorage

/-!
# The database storage

Every recorded trade is two rows of the trade table, one for each wallet, and a row that
joins them. Volumes are clamped to a signed word, and the dust is not stored. The joined
rows come back as JSON, in which Postgres writes a number that is not finite as a text.
-/

namespace Biscuit.Copy

/-- `i64::MAX` -/
def maxI64 : ℕ := 2 ^ 63 - 1

/-- `try_into().unwrap_or(i64::MAX)` -/
def clampI64 (n : ℕ) : ℕ := min n maxI64

/-- A row of the trade table. -/
structure TradeRaw where
  id : ℕ
  signature : Text
  wallet : Text
  token : Text
  direction : TradeDirection
  volumeToken : ℕ
  volumeUsd : F64
  volumeSol : F64

/-- A row that joins the two rows of a trade. -/
structure CopyExecutionRaw where
  tradeId : ℕ
  originTradeId : ℕ

/-- The two tables. -/
structure PgInstance where
  trade : List TradeRaw
  copyExecution : List CopyExecutionRaw

/-- A number in a JSON document that Postgres builds. -/
def Json.ofFloat8 : F64 → Json
  | .fin q => .float q
  | .inf false => .str "Infinity".toList
  | .inf true => .str "-Infinity".toList
  | .nan => .str "NaN".toList

namespace TradeDirection

/-- The name of a direction in the database. -/
def toColumn : TradeDirection → Json
  | .buy => .str "buy".toList
  | .sell => .str "sell".toList

/-- A direction is read from its name in the database. -/
def ofColumn (j : Json) : Option TradeDirection := do
  let name ← j.asText
  if name = "buy".toList then some .buy
  else if name = "sell".toList then some .sell
  else none

end TradeDirection

namespace TradeRaw

/-- `json_build_object` of a row. -/
def toJson (r : TradeRaw) : Json :=
  .obj
    [("id", .nat r.id),
      ("signature", .str r.signature),
      ("wallet", .str r.wallet),
      ("token", .str r.token),
      ("direction", r.direction.toColumn),
      ("volume_token", .nat r.volumeToken),
      ("volume_usd", .ofFloat8 r.volumeUsd),
      ("volume_sol", .ofFloat8 r.volumeSol)]

/-- `Deserialize` of a row. -/
def ofJson (reader : FloatReader) (j : Json) : Option TradeRaw := do
  let id ← (j.field "id").bind Json.asU64
  let signature ← (j.field "signature").bind Json.asText
  let wallet ← (j.field "wallet").bind Json.asText
  let token ← (j.field "token").bind Json.asText
  let direction ← (j.field "direction").bind TradeDirection.ofColumn
  let volumeToken ← (j.field "volume_token").bind Json.asU64
  let volumeUsd ← (j.field "volume_usd").bind (Json.asF64 reader)
  let volumeSol ← (j.field "volume_sol").bind (Json.asF64 reader)
  some
    { id
      signature
      wallet
      token
      direction
      volumeToken
      volumeUsd
      volumeSol }

/-- What is read back of a row whose values are finite. -/
def back (reader : FloatReader) (r : TradeRaw) : TradeRaw :=
  { r with volumeUsd := reader.back r.volumeUsd, volumeSol := reader.back r.volumeSol }

end TradeRaw

namespace PgInstance

/-- Empty tables. -/
def empty : PgInstance := ⟨[], []⟩

/-- `insert_trade`: ids are counted up. -/
def insertTrade (db : PgInstance) (signature wallet token : Text) (direction : TradeDirection)
    (volumeToken : ℕ) (volumeUsd volumeSol : F64) : PgInstance × TradeRaw :=
  let row : TradeRaw :=
    { id := db.trade.length + 1
      signature
      wallet
      token
      direction
      volumeToken
      volumeUsd
      volumeSol }
  ({ db with trade := db.trade ++ [row] }, row)

/-- `insert_copy_execution` -/
def insertCopyExecution (db : PgInstance) (tradeId originTradeId : ℕ) : PgInstance :=
  { db with copyExecution := db.copyExecution ++ [⟨tradeId, originTradeId⟩] }

/-- `process_copy_trade` -/
def processCopyTrade (db : PgInstance) (t : StoredTrade) : PgInstance :=
  let (db, originTrade) := db.insertTrade (Signature.toText t.originSignature)
    (Pubkey.toText t.originWallet) (Pubkey.toText t.token) t.direction
    (clampI64 t.volume.originVolumeToken) t.volume.originVolumeUsd t.volume.originVolumeSol
  let (db, execTrade) := db.insertTrade (Signature.toText t.execSignature)
    (Pubkey.toText t.execWallet) (Pubkey.toText t.token) t.direction
    (clampI64 t.volume.execVolumeToken) t.volume.execVolumeUsd t.volume.execVolumeSol
  db.insertCopyExecution execTrade.id originTrade.id

/-- A row of the trade table by its id. -/
def tradeById (db : PgInstance) (id : ℕ) : Option TradeRaw := db.trade.find? fun r => r.id == id

/-- The execution trade and the origin trade of every joining row. -/
def joined (db : PgInstance) : List (Json × Json) :=
  db.copyExecution.filterMap fun cet => do
    let et ← db.tradeById cet.tradeId
    let ot ← db.tradeById cet.originTradeId
    some (et.toJson, ot.toJson)

/-- `get_all_copy_execution_trades`: all rows are decoded, in the order of the answer. -/
def getAllCopyExecutionTrades (db : PgInstance) (reader : FloatReader)
    (rows : Iteration (Json × Json)) : Option (List (TradeRaw × TradeRaw)) :=
  (rows.order db.joined).mapM fun row => do
    let executionTrade ← TradeRaw.ofJson reader row.1
    let originTrade ← TradeRaw.ofJson reader row.2
    some (executionTrade, originTrade)

/-- What a joined row is replayed with; the dust is not stored. -/
def joinedRecord (row : TradeRaw × TradeRaw) : Option TradeRecord := do
  let (executionTrade, originTrade) := row
  let originWallet ← Pubkey.ofText originTrade.wallet
  let token ← Pubkey.ofText originTrade.token
  some
    { originWallet
      token
      entry := ⟨executionTrade.volumeToken, originTrade.volumeToken, executionTrade.volumeUsd,
        originTrade.volumeUsd, executionTrade.volumeSol, originTrade.volumeSol, 0⟩
      direction := originTrade.direction }

/-- `bootstrap_trade_history` -/
def bootstrapTradeHistory (db : PgInstance) (reader : FloatReader)
    (rows : Iteration (Json × Json)) : Option HistoricalTrades := do
  let execTrades ← db.getAllCopyExecutionTrades reader rows
  execTrades.foldlM (fun h trade => (joinedRecord trade).bind h.replay) .empty

/-- The trades are stored one after the other. -/
def ofTrades (trades : List StoredTrade) : PgInstance := trades.foldl processCopyTrade empty

end PgInstance

/-! ## The joined rows -/

/-- The row of the executed side of a trade. -/
def StoredTrade.executionRow (t : StoredTrade) (id : ℕ) : TradeRaw :=
  { id
    signature := Signature.toText t.execSignature
    wallet := Pubkey.toText t.execWallet
    token := Pubkey.toText t.token
    direction := t.direction
    volumeToken := clampI64 t.volume.execVolumeToken
    volumeUsd := t.volume.execVolumeUsd
    volumeSol := t.volume.execVolumeSol }

/-- The row of the origin side of a trade. -/
def StoredTrade.originRow (t : StoredTrade) (id : ℕ) : TradeRaw :=
  { id
    signature := Signature.toText t.originSignature
    wallet := Pubkey.toText t.originWallet
    token := Pubkey.toText t.token
    direction := t.direction
    volumeToken := clampI64 t.volume.originVolumeToken
    volumeUsd := t.volume.originVolumeUsd
    volumeSol := t.volume.originVolumeSol }

namespace PgInstance

/-- Ids of the trade table are counted up from one, and joining rows refer to rows that are
there. -/
structure WellFormed (db : PgInstance) : Prop where
  ids : ∀ r ∈ db.trade, r.id ≤ db.trade.length
  refers : ∀ c ∈ db.copyExecution, (db.tradeById c.tradeId).isSome ∧
    (db.tradeById c.originTradeId).isSome

theorem wellFormed_empty : empty.WellFormed where
  ids _ h := by cases h
  refers _ h := by cases h

theorem processCopyTrade_eq (db : PgInstance) (t : StoredTrade) :
    db.processCopyTrade t =
      ⟨db.trade ++ [t.originRow (db.trade.length + 1), t.executionRow (db.trade.length + 2)],
        db.copyExecution ++ [⟨db.trade.length + 2, db.trade.length + 1⟩]⟩ := by
  simp only [processCopyTrade, insertTrade, insertCopyExecution, StoredTrade.originRow,
    StoredTrade.executionRow, List.append_assoc, List.length_append, List.length_singleton]
  rfl

/-- New rows do not hide older ones. -/
theorem tradeById_append {db : PgInstance} {rows : List TradeRaw} {joins : List CopyExecutionRaw}
    {id : ℕ} {r : TradeRaw} (h : db.tradeById id = some r) :
    PgInstance.tradeById ⟨db.trade ++ rows, joins⟩ id = some r := by
  rw [tradeById] at h
  rw [tradeById, List.find?_append, h, Option.some_or]

/-- Storing a trade adds its two rows to the joined ones. -/
theorem WellFormed.process {db : PgInstance} (hdb : db.WellFormed) (t : StoredTrade) :
    (db.processCopyTrade t).WellFormed ∧ ∃ m n, (db.processCopyTrade t).joined =
      db.joined ++ [((t.executionRow m).toJson, (t.originRow n).toJson)] := by
  rw [processCopyTrade_eq]
  have hnone : ∀ id, db.trade.length < id → db.trade.find? (fun r => r.id == id) = none := by
    intro id hid
    rw [List.find?_eq_none]
    intro r hr
    have hle := hdb.ids r hr
    simp only [beq_iff_eq]
    omega
  have horigin : PgInstance.tradeById
      ⟨db.trade ++ [t.originRow (db.trade.length + 1), t.executionRow (db.trade.length + 2)],
        db.copyExecution ++ [⟨db.trade.length + 2, db.trade.length + 1⟩]⟩
      (db.trade.length + 1) = some (t.originRow (db.trade.length + 1)) := by
    rw [tradeById, List.find?_append, hnone _ (by omega)]
    simp [StoredTrade.originRow]
  have hexec : PgInstance.tradeById
      ⟨db.trade ++ [t.originRow (db.trade.length + 1), t.executionRow (db.trade.length + 2)],
        db.copyExecution ++ [⟨db.trade.length + 2, db.trade.length + 1⟩]⟩
      (db.trade.length + 2) = some (t.executionRow (db.trade.length + 2)) := by
    rw [tradeById, List.find?_append, hnone _ (by omega)]
    simp [StoredTrade.originRow, StoredTrade.executionRow]
  refine ⟨⟨?_, ?_⟩, db.trade.length + 2, db.trade.length + 1, ?_⟩
  · intro r hr
    simp only [List.length_append, List.length_cons, List.length_nil]
    rcases List.mem_append.mp hr with hr | hr
    · have hle := hdb.ids r hr
      omega
    · simp only [List.mem_cons, List.not_mem_nil, or_false] at hr
      rcases hr with rfl | rfl
      · exact Nat.le_succ _
      · exact le_rfl
  · intro c hc
    rcases List.mem_append.mp hc with hc | hc
    · obtain ⟨het, hot⟩ := hdb.refers c hc
      obtain ⟨et, het⟩ := Option.isSome_iff_exists.mp het
      obtain ⟨ot, hot⟩ := Option.isSome_iff_exists.mp hot
      rw [tradeById_append het, tradeById_append hot]
      exact ⟨rfl, rfl⟩
    · rw [List.mem_singleton.mp hc]
      rw [hexec, horigin]
      exact ⟨rfl, rfl⟩
  · rw [joined, List.filterMap_append]
    congr 1
    · refine List.filterMap_congr fun c hc => ?_
      obtain ⟨het, hot⟩ := hdb.refers c hc
      obtain ⟨et, het⟩ := Option.isSome_iff_exists.mp het
      obtain ⟨ot, hot⟩ := Option.isSome_iff_exists.mp hot
      rw [tradeById_append het, tradeById_append hot, het, hot]
    · simp only [List.filterMap_cons, List.filterMap_nil, hexec, horigin, Option.bind_eq_bind,
        Option.bind_some]

/-- What a joined row is replayed with, if both of its documents can be read. -/
def rowRecord (reader : FloatReader) (row : Json × Json) : Option TradeRecord := do
  let executionTrade ← TradeRaw.ofJson reader row.1
  let originTrade ← TradeRaw.ofJson reader row.2
  joinedRecord (executionTrade, originTrade)

end PgInstance

/-! ## What the rows of trades restore -/

/-- All values of a trade are finite. -/
def TradeVolume.allFinite (v : TradeVolume) : Bool :=
  v.execFinite && (v.originVolumeUsd.isFinite && v.originVolumeSol.isFinite)

/-- What a trade is replayed with from the database. -/
def CopyTrade.columns (reader : FloatReader) (t : CopyTrade) : TradeRecord :=
  { originWallet := t.originWallet
    token := t.token
    entry := ⟨clampI64 t.volume.execVolumeToken, clampI64 t.volume.originVolumeToken,
      reader.back t.volume.execVolumeUsd, reader.back t.volume.originVolumeUsd,
      reader.back t.volume.execVolumeSol, reader.back t.volume.originVolumeSol, 0⟩
    direction := t.direction }

theorem TradeDirection.ofColumn_toColumn (direction : TradeDirection) :
    ofColumn direction.toColumn = some direction := by
  cases direction <;> decide

theorem Json.asF64_ofFloat8 (reader : FloatReader) (x : F64) :
    (ofFloat8 x).asF64 reader = if x.isFinite then some (reader.back x) else none := by
  match x with
  | .fin q => rfl
  | .inf false => rfl
  | .inf true => rfl
  | .nan => rfl

/-- A row is read exactly when its values are finite. -/
theorem TradeRaw.ofJson_toJson (reader : FloatReader) (r : TradeRaw) :
    ofJson reader r.toJson =
      if r.volumeUsd.isFinite && r.volumeSol.isFinite then some (r.back reader) else none := by
  have hfields : ofJson reader r.toJson = (TradeDirection.ofColumn r.direction.toColumn).bind
      fun direction => ((Json.ofFloat8 r.volumeUsd).asF64 reader).bind fun volumeUsd =>
        ((Json.ofFloat8 r.volumeSol).asF64 reader).bind fun volumeSol =>
          some { r with direction, volumeUsd, volumeSol } := by
    simp [ofJson, toJson, Json.field, Json.asU64, Json.asText, bind]
  rw [hfields, TradeDirection.ofColumn_toColumn, Json.asF64_ofFloat8, Json.asF64_ofFloat8]
  cases r.volumeUsd.isFinite with
  | false => rfl
  | true =>
    cases r.volumeSol.isFinite with
    | false => rfl
    | true => rfl

namespace PgInstance

theorem rowRecord_of_trade (reader : FloatReader) (t : StoredTrade) (m n : ℕ) :
    rowRecord reader ((t.executionRow m).toJson, (t.originRow n).toJson) =
      if t.volume.allFinite then some (t.columns reader) else none := by
  simp only [rowRecord, TradeRaw.ofJson_toJson, Option.bind_eq_bind, TradeVolume.allFinite,
    TradeVolume.execFinite, StoredTrade.executionRow, StoredTrade.originRow]
  by_cases hexec : (t.volume.execVolumeUsd.isFinite && t.volume.execVolumeSol.isFinite) = true
  · by_cases horigin :
        (t.volume.originVolumeUsd.isFinite && t.volume.originVolumeSol.isFinite) = true
    · simp only [hexec, horigin, if_true, Option.bind_some, joinedRecord, TradeRaw.back,
        Pubkey.ofText_toText, Option.bind_eq_bind, Bool.and_self]
      rfl
    · simp only [hexec, if_true, horigin, if_false, Option.bind_some, Option.bind_none,
        Bool.and_false, Bool.false_eq_true]
  · simp only [hexec, if_false, Option.bind_none, Bool.false_and, Bool.false_eq_true]

/-- The joined rows are those of the trades. -/
theorem records_ofTrades (reader : FloatReader) (trades : List StoredTrade) :
    (ofTrades trades).joined.map (rowRecord reader) =
      trades.map fun t => if t.volume.allFinite then some (t.columns reader) else none := by
  suffices h : ∀ db : PgInstance, db.WellFormed →
      (trades.foldl processCopyTrade db).joined.map (rowRecord reader) =
        db.joined.map (rowRecord reader) ++
          trades.map fun t => if t.volume.allFinite then some (t.columns reader) else none by
    exact h empty wellFormed_empty
  induction trades with
  | nil => exact fun db _ => (List.append_nil _).symm
  | cons t trades ih =>
    intro db hdb
    obtain ⟨hwell, m, n, hjoined⟩ := hdb.process t
    rw [List.foldl_cons, ih _ hwell, hjoined, List.map_append, List.map_singleton,
      rowRecord_of_trade, List.append_assoc, List.singleton_append, List.map_cons]

/-- Decoding all rows first fails exactly when decoding them one by one does. -/
theorem mapM_bind_foldlM {β γ σ : Type} (f : β → Option γ) (g : σ → γ → Option σ)
    (items : List β) (s : σ) :
    ((items.mapM f).bind fun ys => ys.foldlM g s) =
      items.foldlM (fun s b => (f b).bind (g s)) s := by
  induction items generalizing s with
  | nil => rfl
  | cons b items ih =>
    rw [List.mapM_cons, List.foldlM_cons]
    cases hb : f b with
    | none => rfl
    | some c =>
      simp only [Option.bind_eq_bind, Option.bind_some]
      cases hg : g s c with
      | none =>
        cases hrest : items.mapM f with
        | none => rfl
        | some ys =>
          simp only [Option.bind_some, Option.pure_def, List.foldlM_cons, hg]
          rfl
      | some s' =>
        rw [Option.bind_some, ← ih]
        cases hrest : items.mapM f with
        | none => rfl
        | some ys =>
          simp only [Option.bind_some, Option.pure_def, List.foldlM_cons, hg]
          rfl

theorem bootstrapTradeHistory_eq (db : PgInstance) (reader : FloatReader)
    (rows : Iteration (Json × Json)) :
    db.bootstrapTradeHistory reader rows =
      (rows.order db.joined).foldlM (fun h row => (rowRecord reader row).bind h.replay) .empty := by
  have hread : ∀ (h : HistoricalTrades) (row : Json × Json),
      ((do
        let executionTrade ← TradeRaw.ofJson reader row.1
        let originTrade ← TradeRaw.ofJson reader row.2
        some (executionTrade, originTrade)).bind fun trade => (joinedRecord trade).bind h.replay) =
      (rowRecord reader row).bind h.replay := by
    intro h row
    simp only [rowRecord, Option.bind_eq_bind, Option.bind_assoc, Option.bind_some]
  rw [bootstrapTradeHistory, getAllCopyExecutionTrades, Option.bind_eq_bind, mapM_bind_foldlM]
  simp only [hread]

/-- When all values are finite and all tokens tracked, the history keeps what the columns say. -/
theorem bootstrapTradeHistory_ofTrades {trades : List StoredTrade}
    (h : ∀ t ∈ trades, t.tracked = true ∧ t.volume.allFinite = true) (reader : FloatReader)
    (rows : Iteration (Json × Json)) :
    ∃ h', (ofTrades trades).bootstrapTradeHistory reader rows = some h' ∧
      h'.Keeps (Ledger.empty.postAll (trades.map fun t => (t.columns reader).posting)) := by
  have hrecords : (ofTrades trades).joined.map (rowRecord reader) =
      trades.map fun t => some (t.columns reader) := by
    rw [records_ofTrades]
    exact List.map_congr_left fun t ht => by rw [if_pos (h t ht).2]
  have hgood : ∀ row ∈ rows.order (ofTrades trades).joined,
      Restores (rowRecord reader) row = true := by
    intro row hrow
    have hmem : rowRecord reader row ∈ (ofTrades trades).joined.map (rowRecord reader) :=
      List.mem_map_of_mem (rows.mem_order.mp hrow)
    rw [hrecords] at hmem
    obtain ⟨t, ht, hsome⟩ := List.mem_map.mp hmem
    refine restores_iff.mpr ⟨_, hsome.symm, ?_⟩
    have htracked : isStaticToken t.token = false := by
      simpa only [CopyTrade.tracked, Bool.not_eq_true'] using (h t ht).1
    exact htracked
  obtain ⟨h', hread, hkeeps⟩ := foldlM_replay hgood HistoricalTrades.keeps_empty
  refine ⟨h', by rw [bootstrapTradeHistory_eq]; exact hread, ?_⟩
  have hposted : ((ofTrades trades).joined.filterMap (rowRecord reader)).map TradeRecord.posting =
      trades.map fun t => (t.columns reader).posting := by
    have hfilter : (ofTrades trades).joined.filterMap (rowRecord reader) =
        ((ofTrades trades).joined.map (rowRecord reader)).filterMap id := by
      rw [List.filterMap_map]
      rfl
    rw [hfilter, hrecords, List.filterMap_map, List.map_filterMap]
    exact congrFun List.filterMap_eq_map' trades
  rw [← hposted, ← Ledger.postAll_perm _ (((rows.perm _).filterMap _).map _)]
  exact hkeeps

/-- One value that is not finite ends the restart. -/
theorem bootstrapTradeHistory_eq_none {trades : List StoredTrade} {t : StoredTrade}
    (ht : t ∈ trades) (hbad : t.volume.allFinite = false) (reader : FloatReader)
    (rows : Iteration (Json × Json)) :
    (ofTrades trades).bootstrapTradeHistory reader rows = none := by
  have hmem : none ∈ (ofTrades trades).joined.map (rowRecord reader) := by
    rw [records_ofTrades]
    exact List.mem_map.mpr ⟨t, ht, by rw [hbad]; rfl⟩
  obtain ⟨row, hrow, hnone⟩ := List.mem_map.mp hmem
  rw [bootstrapTradeHistory_eq]
  refine foldlM_replay_eq_none (rows.mem_order.mpr hrow) ?_ _
  rw [Restores, hnone]
  rfl

end PgInstance

end Biscuit.Copy
