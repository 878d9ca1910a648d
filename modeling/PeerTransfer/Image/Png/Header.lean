import PeerTransfer.Image.Png.Chunk
import PeerTransfer.Image.Raster

/-!
# What a PNG file says about its pixels

The header gives the size of an image and the meaning of its samples. A palette gives the colors
that samples are numbers of, and transparency is given for a color, or for the colors of a palette.
-/

namespace PeerTransfer.Image.Png

/-- What the samples of a pixel mean. -/
inductive Meaning where
  | channels (channels : Channels)
  /-- The number of a color in the palette. -/
  | indexed
  deriving DecidableEq, Repr

/-- How many samples a pixel has. -/
def Meaning.count : Meaning → Nat
  | channels c => c.count
  | indexed => 1

/-- The meaning that a number in the header stands for. -/
def meaning? : Nat → Option Meaning
  | 0 => some (.channels .grey)
  | 2 => some (.channels .rgb)
  | 3 => some .indexed
  | 4 => some (.channels .greyAlpha)
  | 6 => some (.channels .rgba)
  | _ => none

/-- The bits that a sample may have. -/
def Meaning.depths : Meaning → List Nat
  | channels .grey => [1, 2, 4, 8, 16]
  | indexed => [1, 2, 4, 8]
  | channels _ => [8, 16]

/-- The header of a file. -/
structure Header where
  width : Nat
  height : Nat
  /-- Bits of a sample. -/
  depth : Nat
  meaning : Meaning
  /-- The rows come in seven passes. -/
  isInterlaced : Bool
  deriving DecidableEq, Repr

/-- Reads the data of a header. -/
def readHeader (data : Bytes) : Option Header :=
  match data.drop 8 with
  | depth :: color :: compression :: filter :: interlace :: _ => do
    let width := Bytes.toNatBE (data.take 4)
    let height := Bytes.toNatBE ((data.drop 4).take 4)
    let meaning ← meaning? color.toNat
    if width = 0 || height = 0 || !meaning.depths.contains depth.toNat then none
    if compression ≠ 0 || filter ≠ 0 || 1 < interlace then none
    return ⟨width, height, depth.toNat, meaning, interlace = 1⟩
  | _ => none

/-- The part of an image that a frame of an animation covers. -/
structure Frame where
  width : Nat
  height : Nat
  left : Nat
  top : Nat
  deriving DecidableEq, Repr

/-- What the chunks before the pixels say. -/
structure Preamble where
  header : Header
  palette : Option Bytes
  transparency : Option Bytes
  /-- The frame that the next pixels are of, if they are of an animation. -/
  frame : Option Frame
  /-- The number that the next chunk of a frame bears. -/
  nextNumber : Nat
  /-- Kinds of chunks that have come and must not come again. -/
  seen : List Kind
  deriving DecidableEq, Repr

namespace Preamble

/-- What is known when no more than the header is read. -/
def ofHeader (header : Header) : Preamble :=
  ⟨header, none, none, none, 0, []⟩

/-- A transparency chunk that fits what is known of the pixels. -/
def admitsTransparency (preamble : Preamble) (data : Bytes) : Bool :=
  match preamble.header.meaning with
  | .channels .grey => 2 ≤ data.length
  | .channels .rgb => 6 ≤ data.length
  | .indexed => preamble.palette.isSome
  | .channels _ => false

/-- Reads a frame, which must lie within the image. -/
def readFrame (preamble : Preamble) (data : Bytes) : Option Preamble :=
  let number (i : Nat) := Bytes.toNatBE ((data.drop (4 * i)).take 4)
  let frame : Frame := ⟨number 1, number 2, number 3, number 4⟩
  if number 0 ≠ preamble.nextNumber then none
  else match data.drop 24 with
  | disposal :: blending :: _ =>
    if 2 < disposal || 1 < blending then none
    else if frame.width = 0 || frame.height = 0 ||
        preamble.header.width < frame.left + frame.width ||
        preamble.header.height < frame.top + frame.height then none
    else some { preamble with frame := some frame, nextNumber := preamble.nextNumber + 1 }
  | _ => none

/-- The data of a chunk that says nothing of the pixels but must make sense. -/
def makesSense (kind : Kind) (data : Bytes) : Bool :=
  if kind = Kind.pixelSize then (data[8]?).any (· ≤ 1)
  else if kind = Kind.gamma then 4 ≤ data.length
  else if kind = Kind.primaries then 32 ≤ data.length
  else if kind = Kind.intent then (data[0]?).any (· ≤ 3)
  else if kind = Kind.animation then 8 ≤ data.length
  else true

/-- Kinds of chunks of which a file has one at most. -/
def isSingle (kind : Kind) : Bool :=
  [Kind.palette, Kind.transparency, Kind.pixelSize, Kind.gamma, Kind.primaries,
    Kind.intent].contains kind

/-- Takes in what the data of a chunk say. -/
def read (preamble : Preamble) (kind : Kind) (data : Bytes) : Option Preamble :=
  if kind = Kind.header || preamble.seen.contains kind || !makesSense kind data then none
  else
    let preamble :=
      { preamble with seen := if isSingle kind then kind :: preamble.seen else preamble.seen }
    if kind = Kind.palette then some { preamble with palette := some data }
    else if kind = Kind.transparency then
      if preamble.admitsTransparency data then some { preamble with transparency := some data }
      else none
    else if kind = Kind.frame then preamble.readFrame data
    else some preamble

/-- Takes in what a chunk says. One without data says nothing. What a chunk says holds even if it
is damaged, unless the file cannot be read without it. -/
def take (preamble : Preamble) (chunk : Chunk) : Option Preamble :=
  if chunk.kind = Kind.finish || (chunk.kind.isCritical && !chunk.isIntact) then none
  else if chunk.data = [] then some preamble
  else preamble.read chunk.kind chunk.data

/-- Reads chunks up to the first of the compressed pixels, at most `count` of them. -/
def readAll : Nat → Preamble → Bytes → Option (Preamble × Bytes)
  | 0, _, _ => none
  | count + 1, preamble, bytes =>
    let kind := (bytes.drop 4).take 4
    if kind = Kind.data || kind = Kind.frameData then some (preamble, bytes)
    else do
      let (chunk, rest) ← readChunk bytes
      readAll count (← preamble.take chunk) rest

end Preamble

/-- Reads the chunks of the compressed pixels, at most `count` of them. What follows must at least
begin another chunk. -/
def readData : Nat → Bytes → Option Bytes
  | 0, _ => none
  | count + 1, bytes =>
    if bytes.length < 8 then none
    else if (bytes.drop 4).take 4 ≠ Kind.data then some []
    else do
      let (chunk, rest) ← readChunk bytes
      if !chunk.isIntact then none
      let others ← readData count rest
      return chunk.data ++ others

/-- Reads the chunks of the compressed pixels of a frame, at most `count` of them. They are numbered
on, and may be damaged. What follows must at least begin another chunk. -/
def readFrameData : Nat → Nat → Bytes → Option Bytes
  | 0, _, _ => none
  | count + 1, number, bytes =>
    if bytes.length < 8 then none
    else if (bytes.drop 4).take 4 ≠ Kind.frameData then some []
    else do
      let (chunk, rest) ← readChunk bytes
      if chunk.data.length < 4 || Bytes.toNatBE (chunk.data.take 4) ≠ number then none
      let others ← readFrameData count (number + 1) rest
      return chunk.data.drop 4 ++ others

/-- Reads the chunk of the header. Those without data that stand before it say nothing. -/
def readHeaderChunk : Nat → Bytes → Option (Header × Bytes)
  | 0, _ => none
  | count + 1, bytes => do
    let (chunk, rest) ← readChunk bytes
    if chunk.kind ≠ Kind.header || !chunk.isIntact then none
    if chunk.data = [] then readHeaderChunk count rest
    else return (← readHeader chunk.data, rest)

/-- Reads the signature, the header and all up to the end of the first compressed pixels. -/
def readFile (bytes : Bytes) : Option (Preamble × Bytes) := do
  if bytes.take 8 ≠ signature then none
  let (header, rest) ← readHeaderChunk (bytes.length + 1) (bytes.drop 8)
  let (preamble, rest) ← (Preamble.ofHeader header).readAll (rest.length + 1) rest
  if (rest.drop 4).take 4 = Kind.data then return (preamble, ← readData (rest.length + 1) rest)
  else if preamble.frame.isNone then none
  else return (preamble, ← readFrameData (rest.length + 1) preamble.nextNumber rest)

end PeerTransfer.Image.Png
