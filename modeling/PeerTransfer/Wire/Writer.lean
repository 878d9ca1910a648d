import PeerTransfer.Text.Quoted
import PeerTransfer.Text.Utf8
import PeerTransfer.Wire.Record

/-!
# Writing the wire format

Records are written in order, the name before the address before the size, so the first of several
faults is the one reported.
-/

namespace PeerTransfer.Wire

/-- Why records cannot be written. -/
inductive WriteError where
  | tooManyUnits (count : Nat)
  | zeroByte (text : String)
  | textTooLong (length : Nat)
  | sizeOutOfRange (size : UInt64)
  deriving DecidableEq, Repr

/-- The wording of an error. -/
def WriteError.message : WriteError → String
  | tooManyUnits count => s!"too many units: {count}"
  | zeroByte text => "string contains a zero byte: " ++ Text.quote text
  | textTooLong length => s!"string too long: {length} bytes"
  | sizeOutOfRange size => s!"size out of range: {size}"

/-- Writes a text with its length before it and a zero byte after it. -/
def encodeText (text : String) : Except WriteError Bytes :=
  let bytes := Text.Utf8.encode text
  if text.toList.contains '\x00' then .error (.zeroByte text)
  else if maxCount < bytes.length + 1 then .error (.textTooLong bytes.length)
  else .ok (Bytes.ofNatLE countWidth (bytes.length + 1) ++ bytes ++ [0])

/-- Writes a size. -/
def encodeSize (size : UInt64) : Except WriteError Bytes :=
  if maxSize < size.toNat then .error (.sizeOutOfRange size)
  else .ok (Bytes.ofNatLE sizeWidth size.toNat)

/-- Writes one record. -/
def encodeRecord (record : Record) : Except WriteError Bytes := do
  let name ← encodeText record.name
  let url ← encodeText record.url
  let size ← encodeSize record.size
  return name ++ url ++ size

/-- Writes records one after another. -/
def encodeRecords : List Record → Except WriteError Bytes
  | [] => .ok []
  | record :: rest => do
    let first ← encodeRecord record
    let others ← encodeRecords rest
    return first ++ others

/-- Writes a list of records, their count in front. -/
def encode (records : List Record) : Except WriteError Bytes := do
  if maxCount < records.length then throw (.tooManyUnits records.length)
  let body ← encodeRecords records
  return Bytes.ofNatLE countWidth records.length ++ body

end PeerTransfer.Wire
