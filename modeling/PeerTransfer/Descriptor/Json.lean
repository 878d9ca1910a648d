import PeerTransfer.Descriptor.Basic
import PeerTransfer.Json.Reader
import PeerTransfer.Json.Writer

/-!
# Descriptors as JSON

A descriptor is written as an object whose members stand in a fixed order, the token only if there
is one. It is read from an object with its members in any order and others among them, or from an
array of its fields in their order. A member that is known may not stand twice, but of the entries
under one unit id the last one counts.
-/

namespace PeerTransfer

namespace UnitDescriptor

/-- The JSON value of a unit. -/
def toJson (unit : UnitDescriptor) : Json :=
  .object [
    (Json.unitsOf "content_type", Json.ofString unit.contentType),
    (Json.unitsOf "remote_path", Json.ofString unit.remotePath),
    (Json.unitsOf "size_bytes", Json.ofNat unit.size.toNat)]

end UnitDescriptor

namespace Descriptor

/-- The JSON value of a descriptor. -/
def toJson (descriptor : Descriptor) : Json :=
  .object <|
    [(Json.unitsOf "batch_id", Json.ofString descriptor.batchId)] ++
    (descriptor.token.map fun token =>
      (Json.unitsOf "correlation_token", Json.ofString token)).toList ++
    [(Json.unitsOf "units", .object <| descriptor.units.entries.map fun (id, unit) =>
      (Json.unitsOf id, unit.toJson))]

/-- The text of a descriptor. -/
def render (descriptor : Descriptor) : String :=
  descriptor.toJson.render

end Descriptor

namespace Json

/-- The only member of a name. -/
def field? (members : List (String × Json)) (name : String) : Option Json :=
  match members.filter (·.1 = name) with
  | [(_, value)] => some value
  | _ => none

/-- The only member of a name, or none: a name that stands twice is refused. -/
def optionalField? (members : List (String × Json)) (name : String) : Option (Option Json) :=
  match members.filter (·.1 = name) with
  | [] => some none
  | [(_, value)] => some (some value)
  | _ => none

/-- A text, or nothing. -/
def asOptionalString? : Json → Option (Option String)
  | null => some none
  | json => json.asString?.map some

end Json

namespace UnitDescriptor

/-- A unit with the given fields. -/
def ofFields? (contentType remotePath size : Json) : Option UnitDescriptor := do
  return ⟨← contentType.asString?, ← remotePath.asString?, ← size.asUInt64?⟩

/-- The unit that a JSON value describes. -/
def ofJson? : Json → Option UnitDescriptor
  | .array [contentType, remotePath, size] => ofFields? contentType remotePath size
  | .object members => do
    let members ← (Json.object members).members?
    ofFields? (← Json.field? members "content_type") (← Json.field? members "remote_path")
      (← Json.field? members "size_bytes")
  | _ => none

end UnitDescriptor

namespace Descriptor

/-- The units that a JSON value describes. -/
def unitsOfJson? (json : Json) : Option (Catalog UnitDescriptor) := do
  let members ← json.members?
  let units ← members.mapM fun (id, unit) => (UnitDescriptor.ofJson? unit).map (id, ·)
  return Catalog.ofList units

/-- A descriptor with the given fields. -/
def ofFields? (batchId token units : Json) : Option Descriptor := do
  return ⟨← batchId.asString?, ← token.asOptionalString?, ← unitsOfJson? units⟩

/-- The descriptor that a JSON value is. -/
def ofJson? : Json → Option Descriptor
  | .array [batchId, token, units] => ofFields? batchId token units
  | .object members => do
    let members ← (Json.object members).members?
    let token ← Json.optionalField? members "correlation_token"
    ofFields? (← Json.field? members "batch_id") (token.getD .null)
      (← Json.field? members "units")
  | _ => none

/-- Reads a descriptor from its text. -/
def parse? (source : String) : Option Descriptor :=
  Json.parse? source >>= ofJson?

end Descriptor

end PeerTransfer
