import PeerTransfer.Bytes

/-!
# Chunks of a PNG file

A file is a signature followed by chunks, each with its length, its kind, its data and a checksum
of kind and data.
-/

namespace PeerTransfer.Image.Png

/-- The bytes that every file begins with. -/
def signature : Bytes := [0x89, 0x50, 0x4E, 0x47, 0x0D, 0x0A, 0x1A, 0x0A]

/-- The name of a chunk's kind. -/
abbrev Kind := Bytes

/-- The header of the file. -/
def Kind.header : Kind := [0x49, 0x48, 0x44, 0x52]

/-- The colors that samples are numbers of. -/
def Kind.palette : Kind := [0x50, 0x4C, 0x54, 0x45]

/-- What is transparent. -/
def Kind.transparency : Kind := [0x74, 0x52, 0x4E, 0x53]

/-- A part of the compressed pixels. -/
def Kind.data : Kind := [0x49, 0x44, 0x41, 0x54]

/-- An animation: how many frames it has. -/
def Kind.animation : Kind := [0x61, 0x63, 0x54, 0x4C]

/-- A frame of an animation: where it stands and how long. -/
def Kind.frame : Kind := [0x66, 0x63, 0x54, 0x4C]

/-- A part of the compressed pixels of a frame, behind its number. -/
def Kind.frameData : Kind := [0x66, 0x64, 0x41, 0x54]

/-- The size of a pixel. -/
def Kind.pixelSize : Kind := [0x70, 0x48, 0x59, 0x73]

/-- How brightness grows with samples. -/
def Kind.gamma : Kind := [0x67, 0x41, 0x4D, 0x41]

/-- What the primary colors are. -/
def Kind.primaries : Kind := [0x63, 0x48, 0x52, 0x4D]

/-- The intent with which the common colors are rendered. -/
def Kind.intent : Kind := [0x73, 0x52, 0x47, 0x42]

/-- The end of the file. -/
def Kind.finish : Kind := [0x49, 0x45, 0x4E, 0x44]

/-- A file cannot be read without the chunk: the first letter of its kind is a capital. -/
def Kind.isCritical (kind : Kind) : Bool :=
  match kind with
  | letter :: _ => !letter.toNat.testBit 5
  | [] => false

/-- One step of the checksum: the remainder moves by a bit. -/
def checksumStep (n : Nat) : Nat :=
  if n % 2 = 1 then (n / 2) ^^^ 0xEDB88320 else n / 2

/-- The checksum of bytes: the remainder of a polynomial division. -/
def checksum (bytes : Bytes) : Nat :=
  bytes.foldl (fun n b => (List.range 8).foldl (fun n _ => checksumStep n) (n ^^^ b.toNat))
    0xFFFFFFFF ^^^ 0xFFFFFFFF

/-- A chunk as it was read. -/
structure Chunk where
  kind : Kind
  data : Bytes
  /-- The checksum is that of the chunk. -/
  isIntact : Bool
  deriving DecidableEq, Repr

/-- Reads a chunk off the front of the bytes. -/
def readChunk (bytes : Bytes) : Option (Chunk × Bytes) :=
  let length := Bytes.toNatBE (bytes.take 4)
  let rest := bytes.drop 4
  if rest.length < 4 + length + 4 then none
  else
    let kind := rest.take 4
    let data := (rest.drop 4).take length
    let sum := Bytes.toNatBE ((rest.drop (4 + length)).take 4)
    some (⟨kind, data, sum = checksum (kind ++ data)⟩, rest.drop (4 + length + 4))

/-- Writes a chunk. -/
def writeChunk (kind : Kind) (data : Bytes) : Bytes :=
  Bytes.ofNatBE 4 data.length ++ kind ++ data ++ Bytes.ofNatBE 4 (checksum (kind ++ data))

end PeerTransfer.Image.Png
