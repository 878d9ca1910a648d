import PeerTransfer.Wire.Reader

/-!
# Reading a buffer in place

The bytes of an announcement can be read where they lie: an offset goes over the buffer, slices are
cut out of it, numbers are copied from slices into words, and room is reserved for the records
before they are read. Each of these asks for something that no type sees to, such as a slice that
ends inside the buffer. A step that does not get it is a fault, which is not the refusal of bytes
that announce nothing.
-/

namespace PeerTransfer.Wire.Cursor

/-- What must not become of a step. -/
inductive Fault where
  /-- A difference of offsets or lengths below zero. -/
  | underflow (length subtracted : Nat)
  /-- A slice that is not inside the buffer. -/
  | outOfRange (start stop : Nat)
  /-- A slice copied into a word of another width. -/
  | wrongWidth (width length : Nat)
  /-- A number that a word of 64 bits without a sign does not hold. -/
  | lossy (n : Int)
  /-- A text field that lacks even its zero byte. -/
  | emptyField
  deriving DecidableEq, Repr

/-- Why a step does not go on. -/
inductive Stop where
  | refused (error : ReadError)
  | fault (fault : Fault)
  deriving DecidableEq, Repr

/-- Where a cursor stands, where it has stood before, and for how many records each time room was
reserved, the latest first. -/
structure Walk where
  offset : Nat
  passed : List Nat
  reserved : List Nat
  deriving DecidableEq, Repr

/-- A cursor at the first byte. -/
def Walk.start : Walk where
  offset := 0
  passed := []
  reserved := []

/-- A step of a cursor. The walk so far is known also where a step does not go on. -/
abbrev Step (α : Type) := ExceptT Stop (StateM Walk) α

/-- Refuses the bytes. -/
def refuse {α : Type} (error : ReadError) : Step α :=
  throw (.refused error)

/-- A difference that is not below zero. -/
def difference (length subtracted : Nat) : Step Nat := do
  if length < subtracted then throw (.fault (.underflow length subtracted))
  return length - subtracted

/-- A number as a word of 64 bits without a sign. -/
def toWord (n : Int) : Step Nat := do
  let word := (n % 0x10000000000000000).toNat
  if (word : Int) ≠ n then throw (.fault (.lossy n))
  return word

/-- Reserves room for records. -/
def reserve (count : Nat) : Step Unit :=
  modify fun walk => { walk with reserved := count :: walk.reserved }

/-- Moves on. -/
def advance (count : Nat) : Step Unit :=
  modify fun walk =>
    { walk with offset := walk.offset + count, passed := walk.offset :: walk.passed }

variable (buffer : Bytes)

/-- How many bytes are left. -/
def remaining : Step Nat := do
  difference buffer.length (← get).offset

/-- The bytes from one offset up to another. -/
def slice (start stop : Nat) : Step Bytes := do
  if stop < start ∨ buffer.length < stop then throw (.fault (.outOfRange start stop))
  return (buffer.drop start).take (stop - start)

/-- Takes the next `count` bytes. -/
def take (count : Nat) : Step Bytes := do
  let left ← remaining buffer
  if left < count then refuse (.bytesMissing count (← get).offset left)
  let start := (← get).offset
  let bytes ← slice buffer start (start + count)
  advance count
  return bytes

/-- Reads a number of `width` bytes. -/
def readInt (width : Nat) : Step Int := do
  let bytes ← take buffer width
  if bytes.length ≠ width then throw (.fault (.wrongWidth width bytes.length))
  return Bytes.toIntLE bytes

/-- Reads a text. -/
def readText : Step String := do
  let length ← readInt buffer countWidth
  if length ≤ 0 then refuse (.badLength length (← get).offset)
  let bytes ← take buffer (← toWord length)
  match bytes.getLast? with
  | none => throw (.fault .emptyField)
  | some terminator =>
    if terminator ≠ 0 then refuse (.notTerminated (← difference (← get).offset bytes.length))
    match Text.Utf8.decode bytes.dropLast with
    | .ok text => return text
    | .error refusal => refuse (.notText refusal)

/-- Reads one record. -/
def readRecord : Step Record := do
  let name ← readText buffer
  let url ← readText buffer
  let size ← readInt buffer sizeWidth
  if size < 0 then refuse (.negativeSize size)
  return ⟨name, url, UInt64.ofNat (← toWord size)⟩

/-- Reads `count` records. -/
def readRecords : Nat → Step (List Record)
  | 0 => return []
  | count + 1 => do
    let record ← readRecord buffer
    let others ← readRecords count
    return record :: others

/-- Reads a count and as many records, for which room is reserved first. -/
def readAll : Step (List Record) := do
  let count ← readInt buffer countWidth
  if count < 0 then refuse (.negativeCount count)
  let count ← toWord count
  let left ← remaining buffer
  if left / minRecordLength < count then refuse (.countTooGreat count left)
  reserve count
  let records ← readRecords buffer count
  let left ← remaining buffer
  if left ≠ 0 then refuse (.bytesLeft left)
  return records

/-- Reads a whole buffer: what comes of it, and the walk. -/
def decode : Except Stop (List Record) × Walk :=
  (readAll buffer).run.run Walk.start

end PeerTransfer.Wire.Cursor
