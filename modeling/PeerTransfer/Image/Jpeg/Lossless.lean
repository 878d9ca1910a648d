import PeerTransfer.Image.Jpeg.Transform

/-!
# Scans without loss

Such a scan codes every sample of its components as the difference from what the samples to the
left and above let expect. Samples are words of sixteen bits; of an image with samples of 8 bits the
lower byte is shown.
-/

namespace PeerTransfer.Image.Jpeg

/-- How samples are foretold. -/
structure Prediction where
  /-- The number of the rule for a sample outside the first row and the first column. -/
  rule : Nat
  /-- How many low bits are left out. -/
  shift : Nat
  deriving DecidableEq, Repr

namespace Prediction

/-- What the first sample is expected to be. -/
def first (prediction : Prediction) : Int :=
  if prediction.shift < 7 then Nat.pow 2 (7 - prediction.shift) else 0

/-- What a sample is expected to be, given the samples to the left, above, and above the left. -/
def expect (rule : Nat) (left above corner : Int) : Int :=
  match rule with
  | 0 => 0
  | 1 => left
  | 2 => above
  | 3 => corner
  | 4 => left + above - corner
  | 5 => left + (above - corner) / 2
  | 6 => above + (left - corner) / 2
  | _ => (left + above) / 2

/-- The sample that differs by so much from what is expected. -/
def sample (prediction : Prediction) (expected difference : Int) : Nat :=
  ((expected + difference) % 0x10000).toNat * Nat.pow 2 prediction.shift % 0x10000

/-- Restores the samples after the first of a row by a rule. Each difference comes with the sample
above. -/
def restoreAfter (prediction : Prediction) (rule : Nat) : Nat → Nat → List (Nat × Int) → List Nat
  | _, _, [] => []
  | left, corner, (above, difference) :: rest =>
    let sample := prediction.sample (expect rule left above corner) difference
    sample :: restoreAfter prediction rule sample above rest

/-- Restores the first row, in which each sample is expected to be like the one to its left. -/
def restoreFirst (prediction : Prediction) : List Int → List Nat
  | [] => []
  | difference :: rest =>
    let sample := prediction.sample prediction.first difference
    sample :: prediction.restoreAfter 1 sample 0 (rest.map (0, ·))

/-- Restores the row under another. Its first sample is expected to be like the one above. -/
def restoreUnder (prediction : Prediction) : List Nat → List Int → List Nat
  | above :: row, difference :: rest =>
    let sample := prediction.sample above difference
    sample :: prediction.restoreAfter prediction.rule sample above (row.zip rest)
  | _, _ => []

/-- Restores the rows under another. -/
def restoreRows (prediction : Prediction) : List Nat → List (List Int) → List (List Nat)
  | _, [] => []
  | above, row :: rest =>
    let row := prediction.restoreUnder above row
    row :: prediction.restoreRows row rest

/-- Restores the samples of a component from its rows of differences. -/
def restore (prediction : Prediction) : List (List Int) → List (List Nat)
  | [] => []
  | row :: rest =>
    let row := prediction.restoreFirst row
    row :: prediction.restoreRows row rest

end Prediction

/-- Reads the difference of a sample. -/
def readDifference (code : PrefixCode) : Coding Int := do
  let size ← readSymbol code
  if 16 < size then failure
  if size = 16 then return 0x8000
  return (← readSigned size).toInt

/-- Reads the differences of a sample of each component. -/
def readDifferences : List ScanPart → Coding (List Int)
  | [] => return []
  | part :: rest => do
    let difference ← readDifference part.dc
    return difference :: (← readDifferences rest)

/-- Cuts a sequence into rows, `count` of them. -/
def rowsOf {α : Type} (width : Nat) : Nat → List α → List (List α)
  | 0, _ => []
  | count + 1, items => items.take width :: rowsOf width count (items.drop width)

/-- Reads a scan without loss. Answers the blocks of each of its components. -/
def readLossless (frame : Frame) (interval : Nat) (parts : List ScanPart)
    (prediction : Prediction) : Coding (List (Array Block)) := do
  let differences ← readUnits (fun _ all => return (← readDifferences parts) :: all) interval
    (frame.width * frame.height) 0 []
  let differences := differences.reverse
  return (List.range parts.length).map fun i =>
    let rows := rowsOf frame.width frame.height (differences.map (·[i]?.getD 0))
    let plane := (prediction.restore rows).map fun row => (row.map (· % 256)).toArray
    blocksOfSamples (Frame.ceilDiv frame.width 8) (Frame.ceilDiv frame.height 8) plane.toArray

end PeerTransfer.Image.Jpeg
