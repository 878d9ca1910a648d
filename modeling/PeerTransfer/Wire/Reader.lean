import PeerTransfer.Text.Utf8
import PeerTransfer.Wire.Record

/-!
# Reading the wire format

A reader holds the bytes that are left and how many were read before them. All of the bytes must
be used up: what cannot be read to its end is refused as a whole.
-/

namespace PeerTransfer.Wire

/-- Why bytes cannot be read. Offsets count the bytes read before. -/
inductive ReadError where
  | bytesMissing (needed offset left : Nat)
  | negativeCount (count : Int)
  | countTooGreat (count left : Nat)
  | badLength (length : Int) (offset : Nat)
  | notTerminated (offset : Nat)
  | notText (refusal : Text.Utf8.Refusal)
  | negativeSize (size : Int)
  | bytesLeft (left : Nat)
  deriving DecidableEq, Repr

/-- The wording of an error. -/
def ReadError.message : ReadError → String
  | bytesMissing needed offset left =>
    s!"need {needed} bytes at offset {offset}, only {left} left"
  | negativeCount count => s!"negative unit count {count}"
  | countTooGreat count left => s!"unit count {count} does not fit into {left} bytes"
  | badLength length offset => s!"invalid string length {length} at offset {offset}"
  | notTerminated offset => s!"string at offset {offset} is not zero-terminated"
  | notText refusal => refusal.message
  | negativeSize size => s!"negative size {size}"
  | bytesLeft left => s!"{left} trailing bytes after the last unit"

/-- The bytes that are left, and how many were read before them. -/
structure Reader where
  offset : Nat
  rest : Bytes
  deriving DecidableEq, Repr

/-- A step that reads something off the front of the bytes. -/
abbrev Read (α : Type) := StateT Reader (Except ReadError) α

/-- Reads the next `count` bytes. -/
def take (count : Nat) : Read Bytes := do
  let reader ← get
  if reader.rest.length < count then
    throw (.bytesMissing count reader.offset reader.rest.length)
  set (⟨reader.offset + count, reader.rest.drop count⟩ : Reader)
  return reader.rest.take count

/-- Reads a number of `width` bytes. -/
def readInt (width : Nat) : Read Int := do
  return Bytes.toIntLE (← take width)

/-- Reads a text. -/
def readText : Read String := do
  let length ← readInt countWidth
  if length ≤ 0 then throw (.badLength length (← get).offset)
  let start := (← get).offset
  let bytes ← take length.toNat
  if bytes.getLast? ≠ some 0 then throw (.notTerminated start)
  match Text.Utf8.decode bytes.dropLast with
  | .ok text => return text
  | .error refusal => throw (.notText refusal)

/-- Reads one record. -/
def readRecord : Read Record := do
  let name ← readText
  let url ← readText
  let size ← readInt sizeWidth
  if size < 0 then throw (.negativeSize size)
  return ⟨name, url, UInt64.ofNat size.toNat⟩

/-- Reads `count` records. -/
def readRecords : Nat → Read (List Record)
  | 0 => return []
  | count + 1 => do
    let record ← readRecord
    let others ← readRecords count
    return record :: others

/-- Reads a count and as many records. -/
def readAll : Read (List Record) := do
  let count ← readInt countWidth
  if count < 0 then throw (.negativeCount count)
  let left := (← get).rest.length
  if left / minRecordLength < count.toNat then throw (.countTooGreat count.toNat left)
  let records ← readRecords count.toNat
  let left := (← get).rest.length
  if left ≠ 0 then throw (.bytesLeft left)
  return records

/-- The records that a byte string announces. -/
def decode (bytes : Bytes) : Except ReadError (List Record) :=
  readAll.run' ⟨0, bytes⟩

end PeerTransfer.Wire
