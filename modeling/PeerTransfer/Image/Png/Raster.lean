import PeerTransfer.Image.Inflate
import PeerTransfer.Image.Png.Scanline

/-!
# PNG files and rasters

A file is read into a raster of whole bytes: grey of fewer bits is spread over the range of a byte,
numbers of colors are replaced by the colors, and transparency becomes a channel. A raster is
written without loss, and with nothing that is not a pixel.
-/

namespace PeerTransfer.Image.Png

/-- The colors of a palette. -/
def colors : Bytes → List Pixel
  | red :: green :: blue :: rest => [red.toNat, green.toNat, blue.toNat] :: colors rest
  | _ => []

/-- The numbers that two-byte words stand for, cut to a sample. -/
def words (depth : Nat) : Bytes → List Nat
  | high :: low :: rest =>
    (256 * high.toNat + low.toNat) % Nat.pow 2 (max 8 depth) :: words depth rest
  | _ => []

/-- The pixel that a transparency chunk makes transparent. Samples of two bytes must fill the
chunk, or it means none; of smaller samples what follows the last counts for nothing. -/
def transparentPixel? (header : Header) (count : Nat) (data : Bytes) : Option Pixel :=
  if header.depth = 16 && data.length ≠ 2 * count then none
  else some ((words header.depth data).take count)

/-- The color of a raster that holds the pixels. -/
def Preamble.color (preamble : Preamble) : Color :=
  let isDeep := preamble.header.depth = 16
  match preamble.header.meaning, preamble.transparency with
  | .channels .grey, some _ => ⟨.greyAlpha, isDeep⟩
  | .channels .rgb, some _ => ⟨.rgba, isDeep⟩
  | .channels channels, _ => ⟨channels, isDeep⟩
  | .indexed, none => ⟨.rgb, false⟩
  | .indexed, some _ => ⟨.rgba, false⟩

/-- A sample in the range of a raster's samples. -/
def spread (depth sample : Nat) : Nat :=
  if depth < 8 then sample * (255 / (Nat.pow 2 depth - 1)) else sample

/-- A pixel with a channel that tells whether it is the transparent one. -/
def withAlpha (header : Header) (transparent : Option Pixel) (pixel : Pixel) : Pixel :=
  let opaqueness := if some pixel = transparent then 0 else Nat.pow 2 (max 8 header.depth) - 1
  pixel.map (spread header.depth) ++ [opaqueness]

/-- The color of a number, black if the palette has none, and the transparency given for it. More
values of transparency than there are colors count for nothing. -/
def lookUp (palette : List Pixel) (transparency : Option Bytes) (number : Nat) : Pixel :=
  let color := palette[number]?.getD [0, 0, 0]
  match transparency with
  | none => color
  | some alphas =>
    if palette.length < alphas.length then color ++ [255]
    else color ++ [((alphas[number]?).map UInt8.toNat).getD 255]

/-- A stored pixel as a pixel of a raster. -/
def Preamble.expand (preamble : Preamble) (palette : List Pixel) (pixel : Pixel) : Pixel :=
  match preamble.header.meaning, preamble.transparency with
  | .indexed, transparency => lookUp palette transparency (pixel.headD 0)
  | .channels channels, some data =>
    withAlpha preamble.header (transparentPixel? preamble.header channels.count data) pixel
  | .channels _, none => pixel.map (spread preamble.header.depth)

/-- The frame that the first pixels are of: all of the image, unless the file tells of another. -/
def Preamble.firstFrame (preamble : Preamble) : Frame :=
  preamble.frame.getD ⟨preamble.header.width, preamble.header.height, 0, 0⟩

/-- Reads a file. What its first frame does not cover is blank. -/
def read? (bytes : Bytes) : Option Raster := do
  let (preamble, data) ← readFile bytes
  let { width, height, .. } := preamble.header
  if preamble.header.meaning = .indexed && preamble.palette.isNone then none
  if Raster.isTooLarge width height preamble.color then none
  let stored ← readPixels preamble.header preamble.firstFrame (← inflate? data)
  let palette := colors (preamble.palette.getD [])
  let blank := List.replicate preamble.color.channels.count 0
  return ⟨width, height, preamble.color,
    stored.map fun row => row.map fun pixel => (pixel.map (preamble.expand palette)).getD blank⟩

/-- The number that stands for channels in a header. -/
def channelsNumber : Channels → UInt8
  | .grey => 0
  | .rgb => 2
  | .greyAlpha => 4
  | .rgba => 6

/-- The data of the header of a raster. -/
def headerOf (raster : Raster) : Bytes :=
  Bytes.ofNatBE 4 raster.width ++ Bytes.ofNatBE 4 raster.height ++
    [if raster.color.isDeep then 16 else 8, channelsNumber raster.color.channels, 0, 0, 0]

/-- Writes a raster as a file of three chunks. -/
def write (raster : Raster) : Bytes :=
  let lines := raster.rows.flatMap fun row => 0 :: Raster.rowBytes raster.color row
  signature ++ writeChunk Kind.header (headerOf raster) ++
    writeChunk Kind.data (deflate lines) ++ writeChunk Kind.finish []

end PeerTransfer.Image.Png
