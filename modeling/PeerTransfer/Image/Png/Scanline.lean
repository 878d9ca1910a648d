import PeerTransfer.Image.Png.Header

/-!
# Scanlines of a PNG file

A row of pixels is stored as differences from what stands before it and above it, behind a byte
that tells which. The samples of a row are packed, the first into the highest bits.
-/

namespace PeerTransfer.Image.Png

/-- The one of three neighbours that is nearest to `left + above - corner`. -/
def nearest (left above corner : Nat) : Nat :=
  let guess : Int := left + above - corner
  let off (n : Nat) : Nat := (guess - n).natAbs
  if off left ≤ off above && off left ≤ off corner then left
  else if off above ≤ off corner then above
  else corner

/-- What a byte is stored as the difference from, given the bytes before, above, and above the one
before. -/
def prediction? : UInt8 → Option (Nat → Nat → Nat → Nat)
  | 0 => some fun _ _ _ => 0
  | 1 => some fun left _ _ => left
  | 2 => some fun _ above _ => above
  | 3 => some fun left above _ => (left + above) / 2
  | 4 => some nearest
  | _ => none

/-- The bytes of a row, of which `stride` belong to one pixel. -/
def restore (predict : Nat → Nat → Nat → Nat) (stride : Nat) (above row : Bytes) : Bytes :=
  let corners := List.replicate stride 0 ++ above
  ((row.zip (above.zip corners)).foldl (fun (done : List UInt8) (b, up, corner) =>
    let left := done[stride - 1]?.getD 0
    UInt8.ofNat (b.toNat + predict left.toNat up.toNat corner.toNat) :: done) []).reverse

/-- Reads `count` rows of `width` bytes. -/
def readRows (stride width : Nat) : Nat → Bytes → Bytes → Option (List Bytes × Bytes)
  | 0, _, bytes => some ([], bytes)
  | count + 1, above, bytes =>
    match bytes with
    | [] => none
    | filter :: bytes => do
      if bytes.length < width then none
      let row := restore (← prediction? filter) stride above (bytes.take width)
      let (rows, bytes) ← readRows stride width count row (bytes.drop width)
      return (row :: rows, bytes)

/-- The samples of a row, each of `depth` bits. -/
def unpack (depth : Nat) : Bytes → List Nat
  | [] => []
  | b :: rest =>
    if depth = 16 then
      match rest with
      | [] => []
      | low :: rest => (256 * b.toNat + low.toNat) :: unpack depth rest
    else
      (List.range (8 / depth)).map (fun i => b.toNat / Nat.pow 2 (8 - depth * (i + 1)) %
        Nat.pow 2 depth) ++ unpack depth rest

/-- Samples `count` at a time, for as many pixels as `width`. -/
def pixels (count : Nat) : Nat → List Nat → List Pixel
  | 0, _ => []
  | width + 1, samples => samples.take count :: pixels count width (samples.drop count)

/-- Which pixels a pass brings: from where, and how far apart. -/
structure Pass where
  left : Nat
  top : Nat
  across : Nat
  down : Nat

/-- The passes of a file. -/
def Header.passes (header : Header) : List Pass :=
  if header.isInterlaced then
    [⟨0, 0, 8, 8⟩, ⟨4, 0, 8, 8⟩, ⟨0, 4, 4, 8⟩, ⟨2, 0, 4, 4⟩, ⟨0, 2, 2, 4⟩, ⟨1, 0, 2, 2⟩,
     ⟨0, 1, 1, 2⟩]
  else [⟨0, 0, 1, 1⟩]

/-- How many of `total` places from `start` on a step of `step` meets. -/
def placesOf (start step total : Nat) : Nat :=
  (total - start + step - 1) / step

/-- Reads the pixels of a pass. One that brings no pixel of a row brings no row. -/
def readPass (header : Header) (pass : Pass) (bytes : Bytes) :
    Option (Array (Array Pixel) × Bytes) := do
  let width := placesOf pass.left pass.across header.width
  let height := placesOf pass.top pass.down header.height
  if width = 0 then return (#[], bytes)
  let bits := header.depth * header.meaning.count
  let rowWidth := (bits * width + 7) / 8
  if bytes.length < (rowWidth + 1) * height then none
  let (rows, bytes) ←
    readRows (max 1 (bits / 8)) rowWidth height (List.replicate rowWidth 0) bytes
  let pixelsOf (row : Bytes) :=
    (pixels header.meaning.count width (unpack header.depth row)).toArray
  return ((rows.map pixelsOf).toArray, bytes)

/-- Reads the pixels of every pass. -/
def readPasses (header : Header) : List Pass → Bytes → Option (List (Pass × Array (Array Pixel)))
  | [], _ => some []
  | pass :: rest, bytes => do
    let (grid, bytes) ← readPass header pass bytes
    let grids ← readPasses header rest bytes
    return (pass, grid) :: grids

/-- The pixel of a place, in the pass that brings it. -/
def pixelAt (grids : List (Pass × Array (Array Pixel))) (x y : Nat) : Option Pixel :=
  grids.findSome? fun (pass, grid) =>
    if pass.left ≤ x && pass.top ≤ y && (x - pass.left) % pass.across = 0 &&
        (y - pass.top) % pass.down = 0 then
      (grid[(y - pass.top) / pass.down]?).bind (·[(x - pass.left) / pass.across]?)
    else none

/-- The pixels of an image of which a frame is stored, row by row. Without interlacing the pixels
of the frame fill the rows of the image one after another. With it each stands in its row, as far
to the left and to the top as it can. -/
def readPixels (header : Header) (frame : Frame) (bytes : Bytes) :
    Option (List (List (Option Pixel))) := do
  let grids ← readPasses { header with width := frame.width, height := frame.height }
    header.passes bytes
  return (List.range header.height).map fun y => (List.range header.width).map fun x =>
    if header.isInterlaced then pixelAt grids x y
    else
      let place := y * header.width + x
      pixelAt grids (place % frame.width) (place / frame.width)

end PeerTransfer.Image.Png
