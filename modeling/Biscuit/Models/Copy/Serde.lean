import Biscuit.Models.Chain.Base58
import Biscuit.Models.Copy.Prices

/-!
# Copy trades as JSON

A trade is written as a JSON object and read back from it. `serde_json` writes a floating
point number that is not finite as `null`. The volumes of the origin wallet are read with
`null` as `nan`, the volumes of the executing wallet are not. A finite number need not be read
back as the one that was written.
-/

namespace Biscuit.Copy

/-- JSON, as far as trades and snapshots use it; whole numbers are kept apart from the others. -/
inductive Json
  | null
  | nat (n : ℕ)
  | float (q : ℚ)
  | str (text : Text)
  | arr (items : List Json)
  | obj (fields : List (String × Json))

/-- What `serde_json` reads back for a finite number that it has written. Its feature
`float_roundtrip` is not enabled; without it the number can be a neighbour of the one that was
written. -/
structure FloatReader where
  read : ℚ → ℚ

namespace FloatReader

/-- What is read back of a finite value. -/
def back (reader : FloatReader) : F64 → F64
  | .fin q => .fin (reader.read q)
  | x => x

/-- The value is finite and read back as it is. -/
def Keeps (reader : FloatReader) (x : F64) : Prop := x.isFinite = true ∧ reader.back x = x

end FloatReader

namespace Json

/-- A field of an object, which must not be there twice. -/
def field (name : String) : Json → Option Json
  | .obj fields =>
    match fields.filter fun f => f.1 == name with
    | [f] => some f.2
    | _ => none
  | _ => none

/-- A word; all whole numbers of the model are words. -/
def asU64 : Json → Option ℕ
  | .nat n => some n
  | _ => none

/-- A floating point number is read from any number. -/
def asF64 (reader : FloatReader) : Json → Option F64
  | .nat n => some (.ofNat n)
  | .float q => some (.fin (reader.read q))
  | _ => none

/-- `deserialize_f64_null_as_nan` -/
def asF64NullAsNan (reader : FloatReader) : Json → Option F64
  | .null => some .nan
  | j => j.asF64 reader

/-- A text. -/
def asText : Json → Option Text
  | .str text => some text
  | _ => none

/-- JSON has no word for a number that is not finite. -/
def ofF64 : F64 → Json
  | .fin q => .float q
  | _ => .null

end Json

namespace TradeDirection

/-- The name of a direction. -/
def toJson : TradeDirection → Json
  | .buy => .str "Buy".toList
  | .sell => .str "Sell".toList

/-- A direction is read from its name. -/
def ofJson (j : Json) : Option TradeDirection := do
  let name ← j.asText
  if name = "Buy".toList then some .buy
  else if name = "Sell".toList then some .sell
  else none

end TradeDirection

namespace TradeVolume

/-- `Serialize` of the volumes. -/
def toJson (v : TradeVolume) : Json :=
  .obj
    [("exec_volume_token", .nat v.execVolumeToken),
      ("exec_volume_usd", .ofF64 v.execVolumeUsd),
      ("exec_volume_sol", .ofF64 v.execVolumeSol),
      ("origin_volume_token", .nat v.originVolumeToken),
      ("origin_volume_usd", .ofF64 v.originVolumeUsd),
      ("origin_volume_sol", .ofF64 v.originVolumeSol),
      ("dust_token_amount", .nat v.dustTokenAmount)]

/-- `Deserialize` of the volumes. -/
def ofJson (reader : FloatReader) (j : Json) : Option TradeVolume := do
  let execVolumeToken ← (j.field "exec_volume_token").bind Json.asU64
  let execVolumeUsd ← (j.field "exec_volume_usd").bind (Json.asF64 reader)
  let execVolumeSol ← (j.field "exec_volume_sol").bind (Json.asF64 reader)
  let originVolumeToken ← (j.field "origin_volume_token").bind Json.asU64
  let originVolumeUsd ← (j.field "origin_volume_usd").bind (Json.asF64NullAsNan reader)
  let originVolumeSol ← (j.field "origin_volume_sol").bind (Json.asF64NullAsNan reader)
  let dustTokenAmount ← (j.field "dust_token_amount").bind Json.asU64
  some
    { execVolumeToken
      execVolumeUsd
      execVolumeSol
      originVolumeToken
      originVolumeUsd
      originVolumeSol
      dustTokenAmount }

/-- The volumes with `nan` for what is not finite. -/
def orNan (v : TradeVolume) : TradeVolume :=
  { v with
    execVolumeUsd := v.execVolumeUsd.orNan
    execVolumeSol := v.execVolumeSol.orNan
    originVolumeUsd := v.originVolumeUsd.orNan
    originVolumeSol := v.originVolumeSol.orNan }

/-- What is read back of volumes whose values are finite or `nan`. -/
def back (reader : FloatReader) (v : TradeVolume) : TradeVolume :=
  { v with
    execVolumeUsd := reader.back v.execVolumeUsd
    execVolumeSol := reader.back v.execVolumeSol
    originVolumeUsd := reader.back v.originVolumeUsd
    originVolumeSol := reader.back v.originVolumeSol }

/-- The values of the executed volume are finite. -/
def execFinite (v : TradeVolume) : Bool := v.execVolumeUsd.isFinite && v.execVolumeSol.isFinite

/-- The values of the executed volume are finite, and every finite value is read back as it is. -/
structure Kept (reader : FloatReader) (v : TradeVolume) : Prop where
  execUsd : reader.Keeps v.execVolumeUsd
  execSol : reader.Keeps v.execVolumeSol
  originUsd : v.originVolumeUsd.isFinite = true → reader.Keeps v.originVolumeUsd
  originSol : v.originVolumeSol.isFinite = true → reader.Keeps v.originVolumeSol

end TradeVolume

/-- A trade as it is stored, with the wallet that executed it. -/
structure StoredTrade extends CopyTrade where
  execWallet : Pubkey

namespace StoredTrade

/-- `Serialize` of a trade; addresses and signatures are written as texts. -/
def toJson (t : StoredTrade) : Json :=
  .obj
    [("volume", t.volume.toJson),
      ("token", .str (Pubkey.toText t.token)),
      ("origin_signature", .str (Signature.toText t.originSignature)),
      ("exec_signature", .str (Signature.toText t.execSignature)),
      ("origin_wallet", .str (Pubkey.toText t.originWallet)),
      ("exec_wallet", .str (Pubkey.toText t.execWallet)),
      ("direction", t.direction.toJson)]

/-- `Deserialize` of a trade. -/
def ofJson (reader : FloatReader) (j : Json) : Option StoredTrade := do
  let volume ← (j.field "volume").bind (TradeVolume.ofJson reader)
  let token ← ((j.field "token").bind Json.asText).bind Pubkey.ofText
  let originSignature ← ((j.field "origin_signature").bind Json.asText).bind Signature.ofText
  let execSignature ← ((j.field "exec_signature").bind Json.asText).bind Signature.ofText
  let originWallet ← ((j.field "origin_wallet").bind Json.asText).bind Pubkey.ofText
  let execWallet ← ((j.field "exec_wallet").bind Json.asText).bind Pubkey.ofText
  let direction ← (j.field "direction").bind TradeDirection.ofJson
  some
    { token
      originWallet
      originSignature
      execSignature
      direction
      volume
      execWallet }

/-- The trade with `nan` for what is not finite. -/
def orNan (t : StoredTrade) : StoredTrade := { t with volume := t.volume.orNan }

/-- What is read back of a trade whose values are finite or `nan`. -/
def back (reader : FloatReader) (t : StoredTrade) : StoredTrade :=
  { t with volume := t.volume.back reader }

end StoredTrade

/-! ## Writing and reading -/

theorem TradeDirection.ofJson_toJson (direction : TradeDirection) :
    ofJson direction.toJson = some direction := by
  cases direction <;> decide

theorem Json.asF64_ofF64 (reader : FloatReader) (x : F64) :
    (ofF64 x).asF64 reader = if x.isFinite then some (reader.back x) else none := by
  cases x <;> rfl

theorem Json.asF64NullAsNan_ofF64 (reader : FloatReader) (x : F64) :
    (ofF64 x).asF64NullAsNan reader = some (reader.back x.orNan) := by
  cases x <;> rfl

/-- A value is read as itself or `nan` exactly when it is kept if it is finite. -/
theorem FloatReader.back_orNan_iff (reader : FloatReader) (x : F64) :
    reader.back x.orNan = x.orNan ↔ (x.isFinite = true → reader.Keeps x) := by
  cases x with
  | fin q => exact ⟨fun h _ => ⟨rfl, h⟩, fun h => (h rfl).2⟩
  | inf neg => exact ⟨fun _ h => (by cases h), fun _ => rfl⟩
  | nan => exact ⟨fun _ h => (by cases h), fun _ => rfl⟩

/-- The volumes are read exactly when those of the executing wallet are finite. -/
theorem TradeVolume.ofJson_toJson (reader : FloatReader) (v : TradeVolume) :
    ofJson reader v.toJson = if v.execFinite then some (v.orNan.back reader) else none := by
  have hfields : ofJson reader v.toJson =
      ((Json.ofF64 v.execVolumeUsd).asF64 reader).bind fun execVolumeUsd =>
        ((Json.ofF64 v.execVolumeSol).asF64 reader).bind fun execVolumeSol =>
          ((Json.ofF64 v.originVolumeUsd).asF64NullAsNan reader).bind fun originVolumeUsd =>
            ((Json.ofF64 v.originVolumeSol).asF64NullAsNan reader).bind fun originVolumeSol =>
              some { v with execVolumeUsd, execVolumeSol, originVolumeUsd, originVolumeSol } := by
    simp [ofJson, toJson, Json.field, Json.asU64, bind]
  rw [hfields, Json.asF64_ofF64, Json.asF64_ofF64, Json.asF64NullAsNan_ofF64,
    Json.asF64NullAsNan_ofF64]
  unfold execFinite
  cases husd : v.execVolumeUsd.isFinite with
  | false => simp only [Bool.false_and, Bool.false_eq_true, if_false, Option.bind_none]
  | true =>
    cases hsol : v.execVolumeSol.isFinite with
    | false =>
      simp only [Bool.and_false, Bool.false_eq_true, if_false, if_true, Option.bind_some,
        Option.bind_none]
    | true =>
      simp only [Bool.and_true, if_true, Option.bind_some, orNan, back,
        F64.orNan_of_isFinite husd, F64.orNan_of_isFinite hsol]

/-- They are read as they were written, with `nan` for what is not finite, exactly when they are
kept. -/
theorem TradeVolume.ofJson_toJson_iff (reader : FloatReader) (v : TradeVolume) :
    ofJson reader v.toJson = some v.orNan ↔ v.Kept reader := by
  rw [ofJson_toJson]
  cases hfinite : v.execFinite with
  | false =>
    simp only [Bool.false_eq_true, if_false, reduceCtorEq, false_iff]
    intro h
    rw [execFinite, h.execUsd.1, h.execSol.1] at hfinite
    cases hfinite
  | true =>
    obtain ⟨husd, hsol⟩ := Bool.and_eq_true_iff.mp hfinite
    have hfields : v.orNan.back reader = v.orNan ↔
        reader.back v.execVolumeUsd.orNan = v.execVolumeUsd.orNan ∧
        reader.back v.execVolumeSol.orNan = v.execVolumeSol.orNan ∧
        reader.back v.originVolumeUsd.orNan = v.originVolumeUsd.orNan ∧
        reader.back v.originVolumeSol.orNan = v.originVolumeSol.orNan := by
      simp only [back, orNan, TradeVolume.mk.injEq, true_and, and_true]
    simp only [if_true, Option.some.injEq, hfields, FloatReader.back_orNan_iff, husd, hsol,
      forall_const]
    exact ⟨fun ⟨execUsd, execSol, originUsd, originSol⟩ =>
        ⟨execUsd, execSol, originUsd, originSol⟩,
      fun h => ⟨h.execUsd, h.execSol, h.originUsd, h.originSol⟩⟩

/-- A trade is read when its volumes are. -/
theorem StoredTrade.ofJson_toJson (reader : FloatReader) (t : StoredTrade) :
    ofJson reader t.toJson =
      (TradeVolume.ofJson reader t.volume.toJson).map fun volume => { t with volume } := by
  have hfields : ofJson reader t.toJson =
      (TradeVolume.ofJson reader t.volume.toJson).bind fun volume =>
      (Pubkey.ofText (Pubkey.toText t.token)).bind fun token =>
        (Signature.ofText (Signature.toText t.originSignature)).bind fun originSignature =>
          (Signature.ofText (Signature.toText t.execSignature)).bind fun execSignature =>
            (Pubkey.ofText (Pubkey.toText t.originWallet)).bind fun originWallet =>
              (Pubkey.ofText (Pubkey.toText t.execWallet)).bind fun execWallet =>
                (TradeDirection.ofJson t.direction.toJson).bind fun direction =>
                  some
                    { token
                      originWallet
                      originSignature
                      execSignature
                      direction
                      volume
                      execWallet } := by
    simp [ofJson, toJson, Json.field, Json.asText, bind]
  rw [hfields, Pubkey.ofText_toText, Pubkey.ofText_toText, Pubkey.ofText_toText,
    Signature.ofText_toText, Signature.ofText_toText, TradeDirection.ofJson_toJson]
  cases TradeVolume.ofJson reader t.volume.toJson with
  | none => rfl
  | some volume => rfl

end Biscuit.Copy
