import Biscuit.Core.Outcome
import Biscuit.Core.Table
import Biscuit.Models.Copy.Serde
import Biscuit.Models.Copy.Tiers
import Mathlib.Data.Set.List

/-!
# The snapshot of the ping tracker

The three maps of the tracker are written to a file as JSON and loaded from it at the next
start. Maps are written as lists of pairs, sets as lists of texts, in the order in which a
traversal yields them.
-/

namespace Biscuit.Copy

/-! ## Collections in JSON -/

namespace Json

/-- `field_as_string_collection::serialize` -/
def ofCollection {α : Type} (toText : α → Text) (items : List α) : Json :=
  .arr (items.map fun a => .str (toText a))

/-- `field_as_string_collection::deserialize` -/
def asCollection {α : Type} (ofText : Text → Option α) : Json → Option (List α)
  | .arr items => items.mapM fun j => j.asText.bind ofText
  | _ => none

/-- `map_serde::serialize`: a map is a list of pairs. -/
def ofMap {κ ν : Type} (key : κ → Json) (value : κ → ν → Json) (items : List (κ × ν)) : Json :=
  .arr (items.map fun e => .arr [key e.1, value e.1 e.2])

/-- A pair of a key and a value. -/
def asPair {κ ν : Type} (key : Json → Option κ) (value : Json → Option ν) :
    Json → Option (κ × ν)
  | .arr [k, v] => do
    let k ← key k
    let v ← value v
    some (k, v)
  | _ => none

/-- `map_serde::deserialize` -/
def asMap {κ ν : Type} [DecidableEq κ] (key : Json → Option κ) (value : Json → Option ν) :
    Json → Option (Table κ ν)
  | .arr items => (items.mapM (asPair key value)).map Table.collect
  | _ => none

/-- A byte. -/
def asU8 : Json → Option ℕ
  | .nat n => if n < 2 ^ 8 then some n else none
  | _ => none

end Json

/-- The list of the elements of a set that one traversal yields. -/
structure SetOrder (α : Type) where
  list : Finset α → List α
  val (s : Finset α) : (list s : Multiset α) = s.val

/-! ## What is written -/

/-- `Serialize` of the executed volumes. -/
def TradeHistory.toJson (h : TradeHistory) : Json :=
  .obj
    [("buy_volume_token", .nat h.buyVolumeToken),
      ("sell_volume_token", .nat h.sellVolumeToken),
      ("buy_volume_usd", .ofF64 h.buyVolumeUsd),
      ("sell_volume_usd", .ofF64 h.sellVolumeUsd),
      ("buy_volume_sol", .ofF64 h.buyVolumeSol),
      ("sell_volume_sol", .ofF64 h.sellVolumeSol)]

/-- `Deserialize` of the executed volumes. -/
def TradeHistory.ofJson (reader : FloatReader) (j : Json) : Option TradeHistory := do
  let buyVolumeToken ← (j.field "buy_volume_token").bind Json.asU64
  let sellVolumeToken ← (j.field "sell_volume_token").bind Json.asU64
  let buyVolumeUsd ← (j.field "buy_volume_usd").bind (Json.asF64 reader)
  let sellVolumeUsd ← (j.field "sell_volume_usd").bind (Json.asF64 reader)
  let buyVolumeSol ← (j.field "buy_volume_sol").bind (Json.asF64 reader)
  let sellVolumeSol ← (j.field "sell_volume_sol").bind (Json.asF64 reader)
  some
    { buyVolumeToken
      sellVolumeToken
      buyVolumeUsd
      sellVolumeUsd
      buyVolumeSol
      sellVolumeSol }

/-- The values in dollars and SOL are finite. -/
def TradeHistory.isFinite (h : TradeHistory) : Bool :=
  h.buyVolumeUsd.isFinite && h.sellVolumeUsd.isFinite && h.buyVolumeSol.isFinite &&
    h.sellVolumeSol.isFinite

/-- What is read back of volumes whose values are finite. -/
def TradeHistory.back (reader : FloatReader) (h : TradeHistory) : TradeHistory :=
  { h with
    buyVolumeUsd := reader.back h.buyVolumeUsd
    sellVolumeUsd := reader.back h.sellVolumeUsd
    buyVolumeSol := reader.back h.buyVolumeSol
    sellVolumeSol := reader.back h.sellVolumeSol }

/-- The values in dollars and SOL are finite and read back as they are. -/
structure TradeHistory.Kept (reader : FloatReader) (h : TradeHistory) : Prop where
  buyUsd : reader.Keeps h.buyVolumeUsd
  sellUsd : reader.Keeps h.sellVolumeUsd
  buySol : reader.Keeps h.buyVolumeSol
  sellSol : reader.Keeps h.sellVolumeSol

/-- `Serialize` of the wallets of a token. -/
def Ping.toJson (wallets : SetOrder Pubkey) (p : Ping) : Json :=
  .obj
    [("wallets", .ofCollection Pubkey.toText (wallets.list p.wallets)),
      ("execution_count", .nat p.executionCount),
      ("total_lamports_cost", .nat p.totalLamportsCost)]

/-- `Deserialize` of the wallets of a token. -/
def Ping.ofJson (j : Json) : Option Ping := do
  let wallets ← (j.field "wallets").bind (Json.asCollection Pubkey.ofText)
  let executionCount ← (j.field "execution_count").bind Json.asU8
  let totalLamportsCost ← (j.field "total_lamports_cost").bind Json.asU64
  some ⟨wallets.toFinset, executionCount, totalLamportsCost⟩

/-- `Serialize` of the transactions of a wallet. -/
def WalletHistory.toJson (signatures : SetOrder Signature) (h : WalletHistory) : Json :=
  .obj
    [("wallet", .str (Pubkey.toText h.wallet)),
      ("token", .str (Pubkey.toText h.token)),
      ("signatures", .ofCollection Signature.toText (signatures.list h.signatures))]

/-- `Deserialize` of the transactions of a wallet. -/
def WalletHistory.ofJson (j : Json) : Option WalletHistory := do
  let wallet ← ((j.field "wallet").bind Json.asText).bind Pubkey.ofText
  let token ← ((j.field "token").bind Json.asText).bind Pubkey.ofText
  let signatures ← (j.field "signatures").bind (Json.asCollection Signature.ofText)
  some ⟨wallet, token, signatures.toFinset⟩

/-- The maps of a snapshot, by the texts of their keys. -/
structure PingSnapshot where
  pings : Table Text Ping
  walletHistory : Table (Text × Text) WalletHistory
  execution : Table Text TradeHistory

namespace PingSnapshot

/-- A pair of texts is written as a list. -/
def pairJson (key : Text × Text) : Json := .arr [.str key.1, .str key.2]

/-- `Serialize` of a snapshot; every map and every set is traversed in an order of its own. -/
def toJson (s : PingSnapshot) (iter : ∀ α : Type, Iteration α) (wallets : Text → SetOrder Pubkey)
    (signatures : Text × Text → SetOrder Signature) : Json :=
  .obj
    [("pings", .ofMap .str (fun key => Ping.toJson (wallets key))
        ((iter _).order s.pings.items)),
      ("wallet_history", .ofMap pairJson (fun key => WalletHistory.toJson (signatures key))
        ((iter _).order s.walletHistory.items)),
      ("execution", .ofMap .str (fun _ => TradeHistory.toJson)
        ((iter _).order s.execution.items))]

/-- `Deserialize` of a snapshot. -/
def ofJson (reader : FloatReader) (j : Json) : Option PingSnapshot := do
  let pings ← (j.field "pings").bind (Json.asMap Json.asText Ping.ofJson)
  let walletHistory ← (j.field "wallet_history").bind
    (Json.asMap (Json.asPair Json.asText Json.asText) WalletHistory.ofJson)
  let execution ← (j.field "execution").bind
    (Json.asMap Json.asText (TradeHistory.ofJson reader))
  some ⟨pings, walletHistory, execution⟩

end PingSnapshot

/-! ## The tracker and its file -/

/-- The maps of a tracker. -/
structure PingMaps where
  pings : Table Pubkey Ping
  walletHistory : Table (Pubkey × Pubkey) WalletHistory
  execution : Table Pubkey TradeHistory

namespace PingMaps

/-- The tracker with these maps. -/
def tracker (m : PingMaps) (tiers : List (ℕ × ℕ)) : PingTracker where
  pings token := m.pings.lookup token
  walletHistory key := m.walletHistory.lookup key
  execution token := m.execution.lookup token
  tiers := tiers

/-- `PingSnapshot::from` -/
def snapshot (m : PingMaps) (iter : ∀ α : Type, Iteration α) : PingSnapshot where
  pings := .collect (((iter _).order m.pings.items).map fun e => (Pubkey.toText e.1, e.2))
  walletHistory := .collect (((iter _).order m.walletHistory.items).map fun e =>
    ((Pubkey.toText e.1.1, Pubkey.toText e.1.2), e.2))
  execution := .collect (((iter _).order m.execution.items).map fun e =>
    (Pubkey.toText e.1, e.2))

end PingMaps

/-- One tier as it is configured: an amount in SOL. -/
structure TiersRaw where
  pings : ℕ
  amount : F64

/-- What the ping mode is configured with. -/
structure PingConfig where
  tiers : List TiersRaw

/-- Why the tracker does not start. -/
inductive PingStartError
  /-- ping tiers config is empty -/
  | emptyTiers
  /-- The snapshot cannot be deserialized. -/
  | snapshot
  deriving DecidableEq, Repr

namespace PingTracker

/-- The tiers by their number of wallets, in lamports. -/
def tiersOf (config : PingConfig) : List (ℕ × ℕ) :=
  (Table.collect (config.tiers.map fun t =>
    (t.pings, (t.amount * F64.ofNat lamportsPerSol).trunc.toU64))).items

/-- The keys of a loaded map are read from their texts, which panics where one is none. -/
def loadMap {κ κ' ν : Type} [DecidableEq κ'] (key : κ → Option κ') (iter : Iteration (κ × ν))
    (m : Table κ ν) [DecidableEq κ] : Outcome PingStartError (Table κ' ν) := do
  let items ← (iter.order m.items).mapM fun e => do
    let k ← Outcome.unwrap (key e.1)
    pure (k, e.2)
  pure (.collect items)

/-- The pair of addresses that a pair of texts stands for. -/
def pairOfText (key : Text × Text) : Option (Pubkey × Pubkey) := do
  let wallet ← Pubkey.ofText key.1
  let token ← Pubkey.ofText key.2
  some (wallet, token)

/-- The maps that a snapshot file is loaded as, or empty ones. -/
def loadMaps (reader : FloatReader) (file : Option Json) (iter : ∀ α : Type, Iteration α) :
    Outcome PingStartError PingMaps :=
  match file with
  | none => .ok ⟨∅, ∅, ∅⟩
  | some json => do
    let snapshot ← Outcome.ofOption .snapshot (PingSnapshot.ofJson reader json)
    let pings ← loadMap Pubkey.ofText (iter _) snapshot.pings
    let walletHistory ← loadMap pairOfText (iter _) snapshot.walletHistory
    let execution ← loadMap Pubkey.ofText (iter _) snapshot.execution
    pure ⟨pings, walletHistory, execution⟩

/-- `PingTracker::start`, with the snapshot file if one is to be loaded and exists. -/
def start (reader : FloatReader) (config : PingConfig) (file : Option Json)
    (iter : ∀ α : Type, Iteration α) : Outcome PingStartError PingTracker := do
  if config.tiers.isEmpty then .err .emptyTiers
  let maps ← loadMaps reader file iter
  pure (maps.tracker (tiersOf config))

end PingTracker

/-! ## Reading back what was written -/

theorem mapM_eq_some {α β γ : Type} {f : β → Option γ} {g : α → β} {h : α → γ} {items : List α}
    (hread : ∀ a ∈ items, f (g a) = some (h a)) : (items.map g).mapM f = some (items.map h) := by
  induction items with
  | nil => rfl
  | cons a items ih =>
    have hrest := ih fun b hb => hread b (List.mem_cons_of_mem a hb)
    rw [List.map_cons, List.mapM_cons, hread a List.mem_cons_self, hrest]
    rfl

namespace Json

theorem asCollection_ofCollection {α : Type} {toText : α → Text} {ofText : Text → Option α}
    (h : ∀ a, ofText (toText a) = some a) (items : List α) :
    asCollection ofText (ofCollection toText items) = some items := by
  have hread : ∀ a ∈ items, (asText (.str (toText a))).bind ofText = some (id a) :=
    fun a _ => h a
  rw [ofCollection, asCollection]
  exact (mapM_eq_some (g := fun a => Json.str (toText a)) hread).trans (by rw [List.map_id])

section Maps

variable {κ ν : Type} [DecidableEq κ] {keyJson : κ → Json} {valueJson : κ → ν → Json}
  {asKey : Json → Option κ} {asValue : Json → Option ν} (m : Table κ ν)

omit [DecidableEq κ] in
theorem asPair_pair (hkey : ∀ k, asKey (keyJson k) = some k) (k : κ) (v : ν) :
    asPair asKey asValue (.arr [keyJson k, valueJson k v]) =
      (asValue (valueJson k v)).map (Prod.mk k) := by
  simp only [asPair, hkey, Option.bind_eq_bind, Option.bind_some]
  cases asValue (valueJson k v) <;> rfl

/-- A map whose values are read is read with what they are read as. -/
theorem asMap_ofMap (f : ν → ν) (hkey : ∀ k, asKey (keyJson k) = some k)
    (hvalue : ∀ k v, m.lookup k = some v → asValue (valueJson k v) = some (f v))
    (iter : Iteration (κ × ν)) :
    ∃ m', asMap asKey asValue (ofMap keyJson valueJson (iter.order m.items)) = some m' ∧
      ∀ k, m'.lookup k = (m.lookup k).map f := by
  have hread : ∀ e ∈ iter.order m.items,
      asPair asKey asValue (.arr [keyJson e.1, valueJson e.1 e.2]) = some (e.1, f e.2) := by
    intro e he
    have hlookup := Table.mem_items.mp (iter.mem_order.mp he)
    rw [asPair_pair hkey, hvalue e.1 e.2 hlookup]
    rfl
  refine ⟨.collect ((iter.order m.items).map fun e => (e.1, f e.2)), ?_,
    Table.lookup_collect_order f iter⟩
  rw [ofMap, asMap, mapM_eq_some hread, Option.map_some]

end Maps

end Json

theorem SetOrder.toFinset_list {α : Type} [DecidableEq α] (o : SetOrder α) (s : Finset α) :
    (o.list s).toFinset = s := by
  rw [← List.toFinset_coe, o.val, Finset.val_toFinset]

/-- The executed volumes are read exactly when their values are finite. -/
theorem TradeHistory.ofJson_toJson (reader : FloatReader) (h : TradeHistory) :
    ofJson reader h.toJson = if h.isFinite then some (h.back reader) else none := by
  have hfields : ofJson reader h.toJson =
      ((Json.ofF64 h.buyVolumeUsd).asF64 reader).bind fun buyVolumeUsd =>
        ((Json.ofF64 h.sellVolumeUsd).asF64 reader).bind fun sellVolumeUsd =>
          ((Json.ofF64 h.buyVolumeSol).asF64 reader).bind fun buyVolumeSol =>
            ((Json.ofF64 h.sellVolumeSol).asF64 reader).bind fun sellVolumeSol =>
              some { h with buyVolumeUsd, sellVolumeUsd, buyVolumeSol, sellVolumeSol } := by
    simp [ofJson, toJson, Json.field, Json.asU64, bind]
  rw [hfields]
  simp only [Json.asF64_ofF64, isFinite, Bool.and_eq_true, back]
  split_ifs <;> simp_all

/-- The wallets of a token are read back if their counter is a byte. -/
theorem Ping.ofJson_toJson (wallets : SetOrder Pubkey) {p : Ping} (hp : p.executionCount < 2 ^ 8) :
    ofJson (p.toJson wallets) = some p := by
  have hfields : ofJson (p.toJson wallets) =
      (Json.asCollection Pubkey.ofText
        (.ofCollection Pubkey.toText (wallets.list p.wallets))).bind fun list =>
          (Json.asU8 (.nat p.executionCount)).bind fun executionCount =>
            some ⟨list.toFinset, executionCount, p.totalLamportsCost⟩ := by
    simp [ofJson, toJson, Json.field, Json.asU64, bind]
  rw [hfields, Json.asCollection_ofCollection Pubkey.ofText_toText, Json.asU8, if_pos hp]
  simp only [Option.bind_some, wallets.toFinset_list]

theorem WalletHistory.ofJson_toJson (signatures : SetOrder Signature) (h : WalletHistory) :
    ofJson (h.toJson signatures) = some h := by
  have hfields : ofJson (h.toJson signatures) =
      (Pubkey.ofText (Pubkey.toText h.wallet)).bind fun wallet =>
        (Pubkey.ofText (Pubkey.toText h.token)).bind fun token =>
          (Json.asCollection Signature.ofText
            (.ofCollection Signature.toText (signatures.list h.signatures))).bind fun list =>
              some ⟨wallet, token, list.toFinset⟩ := by
    simp [ofJson, toJson, Json.field, Json.asText, bind]
  rw [hfields, Json.asCollection_ofCollection Signature.ofText_toText]
  simp only [Pubkey.ofText_toText, Option.bind_some, signatures.toFinset_list]

/-- What is read back of a tracker whose volumes have finite values. -/
def PingTracker.back (reader : FloatReader) (t : PingTracker) : PingTracker :=
  { t with execution := fun token => (t.execution token).map (TradeHistory.back reader) }

namespace PingSnapshot

variable {s : PingSnapshot} (reader : FloatReader) (iter : ∀ α : Type, Iteration α)
  (wallets : Text → SetOrder Pubkey) (signatures : Text × Text → SetOrder Signature)

omit reader iter wallets signatures in
theorem asText_str (key : Text) : Json.asText (.str key) = some key := rfl

theorem asPair_pairJson (key : Text × Text) :
    Json.asPair Json.asText Json.asText (pairJson key) = some key := rfl

theorem ofJson_fields : ofJson reader (s.toJson iter wallets signatures) =
    (Json.asMap Json.asText Ping.ofJson (.ofMap .str (fun key => Ping.toJson (wallets key))
        ((iter _).order s.pings.items))).bind fun pings =>
      (Json.asMap (Json.asPair Json.asText Json.asText) WalletHistory.ofJson
          (.ofMap pairJson (fun key => WalletHistory.toJson (signatures key))
            ((iter _).order s.walletHistory.items))).bind fun walletHistory =>
        (Json.asMap Json.asText (TradeHistory.ofJson reader)
            (.ofMap .str (fun _ => TradeHistory.toJson)
              ((iter _).order s.execution.items))).bind fun execution =>
          some ⟨pings, walletHistory, execution⟩ := by
  simp [ofJson, toJson, Json.field, bind]

/-- A snapshot whose volumes have finite values is read. -/
theorem ofJson_toJson
    (hcount : ∀ key p, s.pings.lookup key = some p → p.executionCount < 2 ^ 8)
    (hfinite : ∀ key h, s.execution.lookup key = some h → h.isFinite = true) :
    ∃ s', ofJson reader (s.toJson iter wallets signatures) = some s' ∧
      (∀ key, s'.pings.lookup key = s.pings.lookup key) ∧
      (∀ key, s'.walletHistory.lookup key = s.walletHistory.lookup key) ∧
      ∀ key, s'.execution.lookup key =
        (s.execution.lookup key).map (TradeHistory.back reader) := by
  have hping : ∀ key p, s.pings.lookup key = some p →
      Ping.ofJson (p.toJson (wallets key)) = some (id p) :=
    fun key p hp => Ping.ofJson_toJson (wallets key) (hcount key p hp)
  obtain ⟨pings, hpings, hpingsSame⟩ := Json.asMap_ofMap s.pings id asText_str hping (iter _)
  obtain ⟨walletHistory, hhistory, hhistorySame⟩ := Json.asMap_ofMap s.walletHistory id
    asPair_pairJson (fun key h _ => WalletHistory.ofJson_toJson (signatures key) h) (iter _)
  obtain ⟨execution, hexecution, hexecutionSame⟩ := Json.asMap_ofMap s.execution
    (TradeHistory.back reader) asText_str
    (fun _ h hh => (TradeHistory.ofJson_toJson reader h).trans (if_pos (hfinite _ h hh))) (iter _)
  simp only [Option.map_id_fun, id] at hpingsSame hhistorySame
  refine ⟨⟨pings, walletHistory, execution⟩, ?_, hpingsSame, hhistorySame, hexecutionSame⟩
  rw [ofJson_fields, hpings, Option.bind_some, hhistory, Option.bind_some, hexecution,
    Option.bind_some]

end PingSnapshot

namespace PingTracker

/-- The counters of executions are bytes. -/
def CountsAreBytes (t : PingTracker) : Prop := ∀ token, t.executions token < 2 ^ 8

theorem CountsAreBytes.step (r : Rounding) {t : PingTracker} (ht : t.CountsAreBytes)
    (e : PingEvent) : (t.step r e).CountsAreBytes := by
  intro token'
  cases e with
  | swap origin signature swap priceFeed =>
    exact ((t.insertSwap_sameCounts r origin signature swap priceFeed).executions token').trans_lt
      (ht token')
  | execution token tokenDecimals volumeToken usd sol direction moonbagBps =>
    simp only [PingTracker.step]
    split
    · exact ht token'
    · next t' volume h =>
      have hpings := (insertExecution_pings h).2.2
      have hcount := ht token'
      unfold executions at hcount ⊢
      rw [hpings]
      by_cases htoken : token' = token
      · subst htoken
        rw [Function.update_self]
        cases t.pings token' with
        | none => exact Nat.two_pow_pos 8
        | some ping => exact Nat.mod_lt _ (by decide)
      · rw [Function.update_of_ne htoken]
        exact hcount

end PingTracker

/-- The values of an execution that is recorded are finite. -/
def PingEvent.isFinite (r : Rounding) : PingEvent → Bool
  | .swap .. => true
  | .execution _ tokenDecimals volumeToken usd sol direction moonbagBps =>
    match PingTracker.dustAmount r volumeToken direction moonbagBps with
    | .error _ => true
    | .ok _ => (F64.ofNat volumeToken * usd / pow10 tokenDecimals).isFinite &&
        (F64.ofNat volumeToken * sol / pow10 tokenDecimals).isFinite

namespace PingTracker

end PingTracker

end Biscuit.Copy
