import PeerTransfer.Image.Jpeg.Segment
import PeerTransfer.Image.PrefixCode

/-!
# Coded bits of a JPEG file

The bits of a scan are read ahead, up to eight bytes of them. They end before the first marker, and
from there on zeros are read. A byte `0xFF` among them is followed by a zero that counts for
nothing.
-/

namespace PeerTransfer.Image.Jpeg

/-- Coded bits of which some are read ahead. -/
structure Source where
  /-- The bits that are read ahead. -/
  ahead : List Bool
  /-- The marker before which the coded bits end, once it is reached. -/
  marker : Option Marker
  /-- What is not read yet. -/
  rest : Bytes

namespace Source

/-- The coded bits at the beginning of some bytes. -/
def ofBytes (bytes : Bytes) : Source := ⟨[], none, bytes⟩

/-- The bits of a byte from the highest on. -/
def bitsOf (b : UInt8) : List Bool :=
  (List.range 8).map fun i => b.toNat.testBit (7 - i)

/-- Reads one byte ahead. A marker may stand behind any number of bytes `0xFF`. -/
def readByte (source : Source) : Option Source :=
  if source.marker.isSome then some { source with ahead := source.ahead ++ bitsOf 0 }
  else match source.rest with
  | [] => none
  | 0xFF :: 0 :: rest => some { source with ahead := source.ahead ++ bitsOf 0xFF, rest }
  | 0xFF :: rest =>
    match rest.dropWhile (· = 0xFF) with
    | [] => none
    | marker :: rest =>
      if marker = 0 then none
      else some ⟨source.ahead ++ bitsOf 0, some marker, rest⟩
  | b :: rest => some { source with ahead := source.ahead ++ bitsOf b, rest }

/-- Reads ahead for as long as another byte has its place, at most `count` bytes. -/
def fill : Nat → Source → Option Source
  | 0, source => some source
  | count + 1, source =>
    if 56 < source.ahead.length then some source else source.readByte >>= fill count

/-- Reads ahead if fewer than `width` bits are there. -/
def ensure (width : Nat) (source : Source) : Option Source :=
  if source.ahead.length < width then source.fill 8 else some source

/-- Reads the symbol of the code that stands first. No code is longer than sixteen bits. -/
def readSymbol (code : PrefixCode) (source : Source) : Option (Nat × Source) := do
  let source ← source.ensure 16
  let (symbol, ahead) ← code.read? source.ahead
  return (symbol, { source with ahead })

/-- The number that bits write, the highest first. -/
def numberOf (bits : List Bool) : Nat :=
  bits.foldl (fun n b => 2 * n + b.toNat) 0

/-- Reads a number of `width` bits, the highest first. -/
def readBits (width : Nat) (source : Source) : Option (Nat × Source) := do
  let source ← source.ensure width
  return (numberOf (source.ahead.take width), { source with ahead := source.ahead.drop width })

/-- Reads ahead as far as there is a place, and lets go of all bits. Answers the marker, if it is
reached. -/
def finish (source : Source) : Option (Option Marker × Bytes) :=
  (source.fill 8).map fun source => (source.marker, source.rest)

end Source

/-- Passes over restarts. -/
def passRestarts : Nat → Marker → Bytes → Option (Marker × Bytes)
  | 0, _, _ => none
  | count + 1, marker, bytes =>
    if marker.isRestart then do
      let (marker, bytes) ← nextMarker false bytes
      passRestarts count marker bytes
    else some (marker, bytes)

end PeerTransfer.Image.Jpeg
