import PeerTransfer.Bytes

/-!
# Rasters

A raster is an image as rows of pixels, each pixel a sample for every channel of its color.
-/

namespace PeerTransfer.Image

/-- The channels of a pixel. -/
inductive Channels where
  | grey
  | greyAlpha
  | rgb
  | rgba
  deriving DecidableEq, Repr

/-- How many samples a pixel has. -/
def Channels.count : Channels → Nat
  | grey => 1
  | greyAlpha => 2
  | rgb => 3
  | rgba => 4

/-- The channels of a pixel, and whether a sample has two bytes or one. -/
structure Color where
  channels : Channels
  isDeep : Bool
  deriving DecidableEq, Repr

/-- Bytes of a sample. -/
def Color.sampleWidth (color : Color) : Nat :=
  if color.isDeep then 2 else 1

/-- The samples of a pixel. -/
abbrev Pixel := List Nat

/-- An image by its pixels, row by row. -/
structure Raster where
  width : Nat
  height : Nat
  color : Color
  rows : List (List Pixel)
  deriving DecidableEq, Repr

namespace Raster

/-- The most bytes that the samples of an image may take. -/
def maxBytes : Nat := 0x20000000

/-- An image is too large to be read. -/
def isTooLarge (width height : Nat) (color : Color) : Bool :=
  maxBytes < width * height * (color.channels.count * color.sampleWidth)

/-- The bytes of a row of pixels. -/
def rowBytes (color : Color) (row : List Pixel) : Bytes :=
  row.flatMap fun pixel => pixel.flatMap (Bytes.ofNatBE color.sampleWidth)

/-- The bytes of all samples. -/
def bytes (raster : Raster) : Bytes :=
  raster.rows.flatMap (rowBytes raster.color)

end Raster

end PeerTransfer.Image
