import PeerTransfer.Image.Jpeg.Reader

/-!
# Writing JPEG files

A picture is written with the steps that belong to a quality: each coefficient is rounded to the
nearest multiple of its new step. The file holds a scan for each component and none of the segments
that do not touch the pixels.
-/

namespace PeerTransfer.Image.Jpeg

/-- The multiple of `step` nearest to a coefficient, in steps. -/
def requantize (coefficient : Int) (step : Nat) : Int :=
  if coefficient < 0 then -(((-coefficient).toNat + step / 2) / step : Nat)
  else ((coefficient.toNat + step / 2) / step : Nat)

/-- The coefficients of a block counted in new steps, within the range that the codes have. -/
def requantizeBlock (old new : Steps) (block : Block) : List Int :=
  (block.toList.zip (old.zip new)).map fun (n, a, b) =>
    max (-1023) (min 1023 (requantize (n.toInt * a) b))

/-- How many bits a magnitude has. -/
def magnitudeBits (n : Int) : Nat :=
  if n = 0 then 0 else Nat.log2 n.natAbs + 1

/-- The `width` low bits of a number, the highest first. -/
def bitsOfNat : Nat → Nat → List Bool
  | 0, _ => []
  | width + 1, n => bitsOfNat width (n / 2) ++ [n.testBit 0]

/-- A number with a sign in as many bits as its magnitude has. -/
def bitsOfInt (n : Int) : List Bool :=
  let size := magnitudeBits n
  bitsOfNat size (if n < 0 then n + (Nat.pow 2 size - 1) else n).toNat

/-- The codes of symbols. -/
abbrev Codebook := List (Nat × List Bool)

/-- The code of a symbol with the number whose size it tells. -/
def writeNumber (book : Codebook) (run : Nat) (n : Int) : List Bool :=
  (book.lookup (16 * run + magnitudeBits n)).getD [] ++ bitsOfInt n

/-- Writes coefficients after `run` zeros. -/
def writeRuns (book : Codebook) : Nat → List Int → List Bool
  | run, [] => if run = 0 then [] else (book.lookup 0).getD []
  | run, n :: rest =>
    if n = 0 then writeRuns book (run + 1) rest
    else
      (List.replicate (run / 16) ((book.lookup 0xF0).getD [])).flatten ++
        writeNumber book (run % 16) n ++ writeRuns book 0 rest

/-- Writes blocks, the mean value of each as the difference from the one before. -/
def writeBlocks (means runs : Codebook) : Int → List (List Int) → List Bool
  | _, [] => []
  | last, block :: rest =>
    let mean := block.headD 0
    writeNumber means 0 (mean - last) ++ writeRuns runs 0 block.tail ++
      writeBlocks means runs mean rest

/-- The steps of a component at a quality. -/
def newSteps (quality place : Nat) : Steps :=
  stepsOf quality ((middlingSteps[min place 1]?).getD [])

/-- Writes the scan of a component. -/
def writeScan (picture : Picture) (quality place : Nat) (component : Component) : Bytes :=
  let old := (picture.steps.lookup component.table).getD []
  let plane := picture.planes[place]?.getD #[]
  let blocks := (List.range (picture.frame.ownCount component)).map fun number =>
    requantizeBlock old (newSteps quality place)
      (plane[picture.frame.ownBlock component number]?.getD #[])
  writeSegment Marker.scan [1, component.id, 0, 0, 63, 0] ++
    packBits (writeBlocks meanTable.code.codes runTable.code.codes 0 blocks)

/-- The frame of a written file: the first component has a table of its own, the others share
one. -/
def writtenFrame (frame : Frame) : Frame :=
  { frame with
    process := .baseline
    components := frame.components.zipIdx.map fun (c, place) => { c with table := min place 1 } }

/-- The body of the segment for the common meaning of samples. -/
def jfifBody : Bytes := Reading.jfifName ++ [1, 2, 0, 0, 1, 0, 1, 0, 0]

/-- The body of the segment for another meaning of samples. -/
def meaningBody (meaning : Meaning) : Bytes :=
  Reading.meaningName ++ [100, 0, 0, 0, 0, meaning.number]

/-- Writes a picture at a quality. -/
def write (picture : Picture) (quality : Nat) : Bytes :=
  [0xFF, Marker.start] ++
    (if picture.hasJfif then writeSegment Marker.jfif jfifBody else []) ++
    (match picture.meaning with
      | some meaning => writeSegment Marker.meaning (meaningBody meaning)
      | none => []) ++
    ([0, 1].flatMap fun place =>
      writeSegment Marker.quantization
        (UInt8.ofNat place :: (newSteps quality place).map UInt8.ofNat)) ++
    writeSegment Marker.baseline (writtenFrame picture.frame).body ++
    writeSegment Marker.codes (meanTable.body .dc) ++
    writeSegment Marker.codes (runTable.body .ac) ++
    (picture.frame.components.zipIdx.flatMap fun (c, place) =>
      writeScan picture quality place c) ++
    [0xFF, Marker.finish]

end PeerTransfer.Image.Jpeg
