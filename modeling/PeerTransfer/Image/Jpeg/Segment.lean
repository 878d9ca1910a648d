import PeerTransfer.Bytes

/-!
# Segments of a JPEG file

A file is a sequence of markers, each two bytes of which the first is `0xFF`. Most begin a segment
that gives its own length; a scan is followed by coded bits, in which a byte `0xFF` that begins no
marker is followed by a zero. What stands between segments and is no marker is passed over.
-/

namespace PeerTransfer.Image.Jpeg

/-- The second byte of a marker. -/
abbrev Marker := UInt8

namespace Marker

/-- The beginning of the file. -/
def start : Marker := 0xD8

/-- The end of the file. -/
def finish : Marker := 0xD9

/-- A frame header: sequential coding of 8 bits. -/
def baseline : Marker := 0xC0

/-- A frame header: sequential coding. -/
def sequential : Marker := 0xC1

/-- A frame header: progressive coding. -/
def progressive : Marker := 0xC2

/-- A frame header: coding without loss. -/
def lossless : Marker := 0xC3

/-- Prefix codes. -/
def codes : Marker := 0xC4

/-- The header of a scan. -/
def scan : Marker := 0xDA

/-- Quantization tables. -/
def quantization : Marker := 0xDB

/-- The number of units between restarts. -/
def restartInterval : Marker := 0xDD

/-- The application segment that tells the common meaning of samples, or that the file is a picture
of a film. -/
def jfif : Marker := 0xE0

/-- The application segment that tells another meaning of samples. -/
def meaning : Marker := 0xEE

/-- A comment. -/
def comment : Marker := 0xFE

/-- An application segment. -/
def isApplication (marker : Marker) : Bool :=
  0xE0 ≤ marker && marker ≤ 0xEF

/-- The restart with a number. They are numbered from zero to seven over and over. -/
def restart (number : Nat) : Marker :=
  UInt8.ofNat (0xD0 + number % 8)

/-- A restart of the coder inside a scan. -/
def isRestart (marker : Marker) : Bool :=
  0xD0 ≤ marker && marker ≤ 0xD7

end Marker

/-- Skips to the next marker; the flag tells that the byte before was `0xFF`. -/
def nextMarker : Bool → Bytes → Option (Marker × Bytes)
  | _, [] => none
  | false, b :: rest => nextMarker (b = 0xFF) rest
  | true, b :: rest =>
    if b = 0xFF then nextMarker true rest
    else if b = 0 then nextMarker false rest
    else some (b, rest)

/-- Reads the body of a segment, whose length counts its own two bytes. -/
def readBody (bytes : Bytes) : Option (Bytes × Bytes) :=
  let length := Bytes.toNatBE (bytes.take 2)
  if bytes.length < 2 || length < 2 || bytes.length < length then none
  else some ((bytes.take length).drop 2, bytes.drop length)

/-- Writes a segment. -/
def writeSegment (marker : Marker) (body : Bytes) : Bytes :=
  [0xFF, marker] ++ Bytes.ofNatBE 2 (body.length + 2) ++ body

/-- Packs bits into bytes, the last filled with ones, and puts a zero after each `0xFF`. -/
def packBits : List Bool → Bytes
  | [] => []
  | bit :: bits =>
    let more := bits.take 7
    let byte := ((bit :: more) ++ List.replicate (7 - more.length) true).foldl
      (fun n b => 2 * n + b.toNat) 0
    (if byte = 0xFF then [0xFF, 0] else [UInt8.ofNat byte]) ++ packBits (bits.drop 7)
  termination_by bits => bits.length

end PeerTransfer.Image.Jpeg
