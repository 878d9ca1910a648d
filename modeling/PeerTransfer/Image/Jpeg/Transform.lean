import PeerTransfer.Image.Jpeg.Scan

/-!
# Coefficients of samples

A block of eight rows of eight samples is a sum of sixty-four waves, products of a cosine along rows
and one along columns. Its coefficients tell how much there is of each wave. They are computed with
integers, and rounded to the nearest integer at the end.
-/

namespace PeerTransfer.Image.Jpeg

/-- Halves of the cosines of the angles up to a right one, in steps of a sixteenth of the half turn
and in units of `2 ^ -13`. -/
def halfCosines : List Int := [4096, 4017, 3784, 3406, 2896, 2276, 1567, 799, 0]

/-- Half the cosine of so many sixteenths of the half turn, in units of `2 ^ -13`. -/
def halfCosine (angle : Nat) : Int :=
  let angle := min (angle % 32) (32 - angle % 32)
  if angle ≤ 8 then halfCosines[angle]?.getD 0 else -(halfCosines[16 - angle]?.getD 0)

/-- The wave with `frequency` half turns along eight samples, at the sample with a number. -/
def wave (frequency place : Nat) : Int :=
  halfCosine (if frequency = 0 then 4 else (2 * place + 1) * frequency)

/-- How much there is of each wave along a row of eight samples, in units of `2 ^ -13`. -/
def transformRow (row : List Int) : List Int :=
  (List.range 8).map fun frequency =>
    (row.zipIdx.map fun (sample, place) => wave frequency place * sample).foldr (· + ·) 0

/-- The columns of eight rows. -/
def columns (rows : List (List Int)) : List (List Int) :=
  (List.range 8).map fun x => rows.map (·[x]?.getD 0)

/-- The order of growing frequency: places in a block that is listed row by row. -/
def growing : List Nat :=
  [0, 1, 8, 16, 9, 2, 3, 10, 17, 24, 32, 25, 18, 11, 4, 5, 12, 19, 26, 33, 40, 48, 41, 34, 27, 20,
   13, 6, 7, 14, 21, 28, 35, 42, 49, 56, 57, 50, 43, 36, 29, 22, 15, 23, 30, 37, 44, 51, 58, 59, 52,
   45, 38, 31, 39, 46, 53, 60, 61, 54, 47, 55, 62, 63]

/-- The coefficients of eight rows of eight samples of 8 bits. Samples are counted from the middle
of their range. -/
def Block.ofSamples (rows : List (List Nat)) : Block :=
  let rows := rows.map fun row => row.map fun (sample : Nat) => (sample : Int) - 128
  let coefficients := (columns ((columns (rows.map transformRow)).map transformRow)).flatten.toArray
  (growing.map fun i => Int16.ofInt ((coefficients[i]?.getD 0 + 0x2000000) / 0x4000000)).toArray

/-- The sample at a place; beyond the end of a row or of a column the last one counts on. -/
def sampleAt (plane : Array (Array Nat)) (x y : Nat) : Nat :=
  let row := plane[min y (plane.size - 1)]?.getD #[]
  row[min x (row.size - 1)]?.getD 0

/-- The blocks of a plane of samples, `across` of them in a row and `down` in a column. -/
def blocksOfSamples (across down : Nat) (plane : Array (Array Nat)) : Array Block :=
  ((List.range down).flatMap fun y => (List.range across).map fun x =>
    Block.ofSamples ((List.range 8).map fun v => (List.range 8).map fun h =>
      sampleAt plane (8 * x + h) (8 * y + v))).toArray

end PeerTransfer.Image.Jpeg
