import AtvRemote.Discovery
import AtvRemote.JsonTexts
import AtvRemote.Pairing
import AtvRemote.Session

namespace AtvRemote.Output

open JsonTexts Errors Pairing Session Discovery

/-- How `serde_json` writes a value in its compact form and reads a text. -/
structure SerdeJson where
  toString : Json → String
  fromStr : String → Option Json
  fromStr_toString : ∀ j, fromStr (toString j) = some j
  unbroken : ∀ j, '\n' ∉ (toString j).toList

def compact : SerdeJson where
  toString j := String.ofList (write j)
  fromStr s := JsonTexts.read s.toList
  fromStr_toString j := by rw [String.toList_ofList, read_write]
  unbroken j hmem := by
    rw [String.toList_ofList] at hmem
    exact absurd (write_printed j _ hmem) (by decide)

class Serialize (α : Type) where
  serialize : α → Json

open Serialize

instance serializeStatusOutput : Serialize StatusOutput where
  serialize out :=
    .object [("timestamp", .string out.timestamp), ("host", .string out.host),
      ("power", .string out.power)]

instance serializeKeysOutput : Serialize KeysOutput where
  serialize out := .object [("timestamp", .string out.timestamp), ("host", .string out.host),
    ("keys", .array (out.keys.map .string))]

instance serializeLaunchOutput : Serialize LaunchOutput where
  serialize out :=
    .object [("timestamp", .string out.timestamp), ("host", .string out.host),
      ("app_link", .string out.appLink)]

/-- The field `wol` is left out where it has no value. -/
instance serializePowerOutput : Serialize PowerOutput where
  serialize out :=
    .object ([("timestamp", .string out.timestamp), ("host", .string out.host),
      ("power", .string out.power),
    ("changed", .bool out.changed)] ++ out.wol.toList.map fun wol => ("wol", .bool wol))

instance serializePairOutput : Serialize PairOutput where
  serialize out :=
    .object [("timestamp", .string out.timestamp), ("host", .string out.host),
      ("paired", .bool out.paired)]

instance serializeDevice : Serialize Device where
  serialize device :=
    .object [("name", .string device.name), ("host", .string device.host),
      ("port", .number device.port.toNat)]

instance serializeDiscoverOutput : Serialize DiscoverOutput where
  serialize out :=
    .object [("timestamp", .string out.timestamp), ("devices", .array (out.devices.map serialize))]

instance serializeErrorKind : Serialize ErrorKind where
  serialize kind := .string <| match kind with
    | .unreachable => "unreachable"
    | .notPaired => "not_paired"
    | .authRejected => "auth_rejected"
    | .pairingFailed => "pairing_failed"
    | .protocolError => "protocol_error"
    | .configIo => "config_io"

instance serializeAtvError : Serialize AtvError where
  serialize e := .object [("kind", serialize e.kind), ("detail", .string e.detail)]

structure ErrorEnvelope where
  error : AtvError

instance serializeErrorEnvelope : Serialize ErrorEnvelope where
  serialize envelope := .object [("error", serialize envelope.error)]

def toJson (json : SerdeJson) (e : AtvError) : String :=
  json.toString (serialize (ErrorEnvelope.mk e))

/-- What a caller finds under a name. -/
def member (name : String) : Json → Option Json
  | .object members => members.lookup name
  | _ => none

def asString : Json → Option String
  | .string s => some s
  | _ => none

def asBool : Json → Option Bool
  | .bool b => some b
  | _ => none

def asNumber : Json → Option Nat
  | .number n => some n
  | _ => none

def asArray : Json → Option (List Json)
  | .array elements => some elements
  | _ => none

/-- A caller gets back the value that an object was made of. -/
class Deserialize (α : Type) extends Serialize α where
  deserialize : Json → Option α
  deserialize_serialize : ∀ a : α, deserialize (serialize a) = some a

open Deserialize

theorem mapM_map {α β : Type} {f : α → β} {g : β → Option α}
    (h : ∀ a, g (f a) = some a) (xs : List α) :
    (xs.map f).mapM g = some xs := by
  induction xs with
  | nil => rfl
  | cons x xs ih => rw [List.map_cons, List.mapM_cons, h, ih]; rfl

def text (name : String) (j : Json) : Option String := (member name j).bind asString

def flag (name : String) (j : Json) : Option Bool := (member name j).bind asBool

instance deserializeStatusOutput : Deserialize StatusOutput where
  deserialize j := do
    pure { timestamp := ← text "timestamp" j, host := ← text "host" j, power := ← text "power" j }
  deserialize_serialize _ := rfl

instance deserializeKeysOutput : Deserialize KeysOutput where
  deserialize j := do
    let keys ← ((member "keys" j).bind asArray).bind (List.mapM asString)
    pure { timestamp := ← text "timestamp" j, host := ← text "host" j, keys }
  deserialize_serialize out := by
    have hkeys : (out.keys.map Json.string).mapM asString = some out.keys :=
      @mapM_map String Json .string asString (fun _ => rfl) _
    change ((out.keys.map Json.string).mapM asString).bind _ = _
    rw [hkeys]
    rfl

instance deserializeLaunchOutput : Deserialize LaunchOutput where
  deserialize j := do
    pure
      { timestamp := ← text "timestamp" j
        host := ← text "host" j
        appLink := ← text "app_link" j }
  deserialize_serialize _ := rfl

instance deserializePowerOutput : Deserialize PowerOutput where
  deserialize j := do
    pure {
      timestamp := ← text "timestamp" j
      host := ← text "host" j
      power := ← text "power" j
      changed := ← flag "changed" j
      wol := flag "wol" j }
  deserialize_serialize out := by
    obtain ⟨timestamp, host, power, changed, wol⟩ := out
    cases wol with
    | none => rfl
    | some wol => rfl

instance deserializePairOutput : Deserialize PairOutput where
  deserialize j := do
    pure { timestamp := ← text "timestamp" j, host := ← text "host" j, paired := ← flag "paired" j }
  deserialize_serialize _ := rfl

instance deserializeDevice : Deserialize Device where
  deserialize j := do
    let port ← (member "port" j).bind asNumber
    pure { name := ← text "name" j, host := ← text "host" j, port := UInt16.ofNat port }
  deserialize_serialize device := by
    change some (Device.mk _ _ (UInt16.ofNat device.port.toNat)) = _
    rw [UInt16.ofNat_toNat]

instance deserializeDiscoverOutput : Deserialize DiscoverOutput where
  deserialize j := do
    let devices ← ((member "devices" j).bind asArray).bind (List.mapM deserialize)
    pure { timestamp := ← text "timestamp" j, devices }
  deserialize_serialize out := by
    have hdevices : (out.devices.map serialize).mapM deserialize = some out.devices :=
      mapM_map deserialize_serialize _
    change ((out.devices.map serialize).mapM deserialize).bind _ = _
    rw [hdevices]
    rfl

instance deserializeErrorKind : Deserialize ErrorKind where
  deserialize j := do
    match ← asString j with
    | "unreachable" => pure .unreachable
    | "not_paired" => pure .notPaired
    | "auth_rejected" => pure .authRejected
    | "pairing_failed" => pure .pairingFailed
    | "protocol_error" => pure .protocolError
    | "config_io" => pure .configIo
    | _ => none
  deserialize_serialize kind := by cases kind <;> rfl

instance deserializeErrorEnvelope : Deserialize ErrorEnvelope where
  deserialize j := do
    let error ← member "error" j
    let kind ← (member "kind" error).bind deserialize
    pure ⟨{ kind, detail := ← text "detail" error }⟩
  deserialize_serialize envelope := by
    obtain ⟨kind, detail⟩ := envelope
    have hkind : deserialize (serialize kind) = some kind := deserialize_serialize kind
    change (deserialize (serialize kind)).bind _ = _
    rw [hkind]
    rfl

end AtvRemote.Output
