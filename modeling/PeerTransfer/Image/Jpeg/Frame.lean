import PeerTransfer.Image.Raster
import PeerTransfer.Image.Jpeg.Segment

/-!
# Frames of a JPEG file

A frame is an image of one, three or four components, each sampled at its own density. The blocks
of a component stand in units that cover the same area in every component.
-/

namespace PeerTransfer.Image.Jpeg

/-- How the samples of a frame are coded. -/
inductive Process where
  /-- By the coefficients of blocks, with at most two codes of each kind. -/
  | baseline
  /-- By the coefficients of blocks. -/
  | sequential
  /-- By the coefficients of blocks, a part of them in each scan. -/
  | progressive
  /-- By differences between samples. -/
  | lossless
  deriving DecidableEq, Repr

/-- The process that the marker of a frame header tells. -/
def Process.ofMarker? (marker : Marker) : Option Process :=
  if marker = Marker.baseline then some baseline
  else if marker = Marker.sequential then some sequential
  else if marker = Marker.progressive then some progressive
  else if marker = Marker.lossless then some lossless
  else none

/-- A component of a frame. -/
structure Component where
  id : UInt8
  /-- Samples along a row, in proportion to the other components. -/
  across : Nat
  /-- Samples along a column, in proportion to the other components. -/
  down : Nat
  /-- The number of its quantization table. -/
  table : Nat
  deriving DecidableEq, Repr

/-- The header of an image. -/
structure Frame where
  process : Process
  width : Nat
  height : Nat
  components : List Component
  deriving DecidableEq, Repr

/-- Reads components. -/
def readComponents : Bytes → List Component
  | id :: density :: table :: rest =>
    ⟨id, density.toNat / 16, density.toNat % 16, table.toNat⟩ :: readComponents rest
  | _ => []

namespace Frame

/-- The color in which the image is shown. -/
def color (frame : Frame) : Color :=
  ⟨if frame.components.length = 1 then .grey else .rgb, false⟩

/-- The greatest density along rows. -/
def maxAcross (frame : Frame) : Nat :=
  (frame.components.map (·.across)).foldl max 1

/-- The greatest density along columns. -/
def maxDown (frame : Frame) : Nat :=
  (frame.components.map (·.down)).foldl max 1

/-- The samples of a component can be spread over the image: its densities are the greatest or half
of them, or at least divide them. Along a row of one sample, and along a column of one, the density
does not matter. -/
def canSpread (frame : Frame) (c : Component) : Bool :=
  let isFullAcross := c.across = frame.maxAcross || frame.width = 1
  let isFullDown := c.down = frame.maxDown || frame.height = 1
  let isSimple := (isFullAcross || 2 * c.across = frame.maxAcross) &&
    (isFullDown || 2 * c.down = frame.maxDown)
  isSimple || (frame.maxAcross % c.across = 0 && frame.maxDown % c.down = 0)

/-- A component may be part of the frame. -/
def admits (frame : Frame) (c : Component) : Bool :=
  1 ≤ c.across && c.across ≤ 4 && 1 ≤ c.down && c.down ≤ 4 && frame.canSpread c &&
    c.table ≤ (if frame.process = .lossless then 0 else 3)

/-- Reads the body of a frame header. Only samples of 8 bits are known. -/
def read? (process : Process) : Bytes → Option Frame
  | precision :: h₁ :: h₀ :: w₁ :: w₀ :: count :: rest =>
    let components := readComponents rest
    let frame : Frame := ⟨process, Bytes.toNatBE [w₁, w₀], Bytes.toNatBE [h₁, h₀], components⟩
    if precision = 8 && frame.width ≠ 0 && frame.height ≠ 0 && [1, 3, 4].contains count.toNat &&
        rest.length = 3 * count.toNat && decide (components.map (·.id)).Nodup &&
        components.all frame.admits &&
        !Raster.isTooLarge frame.width frame.height frame.color then
      some frame
    else none
  | _ => none

/-- The body of a frame header. -/
def body (frame : Frame) : Bytes :=
  8 :: Bytes.ofNatBE 2 frame.height ++ Bytes.ofNatBE 2 frame.width ++
    UInt8.ofNat frame.components.length ::
    frame.components.flatMap fun c =>
      [c.id, UInt8.ofNat (16 * c.across + c.down), UInt8.ofNat c.table]

/-- A quotient rounded up. -/
def ceilDiv (n d : Nat) : Nat :=
  (n + d - 1) / d

/-- Units along a row. -/
def unitsAcross (frame : Frame) : Nat :=
  ceilDiv frame.width (8 * frame.maxAcross)

/-- Units along a column. -/
def unitsDown (frame : Frame) : Nat :=
  ceilDiv frame.height (8 * frame.maxDown)

/-- Blocks along a row of a component, as many as whole units have. -/
def planeWidth (frame : Frame) (c : Component) : Nat :=
  frame.unitsAcross * c.across

/-- Blocks of a component. -/
def planeSize (frame : Frame) (c : Component) : Nat :=
  frame.planeWidth c * (frame.unitsDown * c.down)

/-- Blocks along a row of a component that a scan of this component alone codes: those of whole
units, but no more than an image of this width has at the greatest density. -/
def ownAcross (frame : Frame) (c : Component) : Nat :=
  min (frame.planeWidth c) (ceilDiv frame.width 8)

/-- Blocks along a column of a component that a scan of this component alone codes. -/
def ownDown (frame : Frame) (c : Component) : Nat :=
  min (frame.unitsDown * c.down) (ceilDiv frame.height 8)

/-- How many blocks a scan of a component alone codes. -/
def ownCount (frame : Frame) (c : Component) : Nat :=
  frame.ownDown c * frame.ownAcross c

/-- The place in the plane of the block with a number in a scan of a component alone. -/
def ownBlock (frame : Frame) (c : Component) (number : Nat) : Nat :=
  number / frame.ownAcross c * frame.planeWidth c + number % frame.ownAcross c

/-- The blocks of a component in the unit at `(x, y)`. -/
def unitBlocks (frame : Frame) (c : Component) (x y : Nat) : List Nat :=
  (List.range c.down).flatMap fun v =>
    (List.range c.across).map fun h =>
      (y * c.down + v) * frame.planeWidth c + (x * c.across + h)

end Frame

end PeerTransfer.Image.Jpeg
