import PeerTransfer.Failure
import PeerTransfer.Image.Jpeg.Writer
import PeerTransfer.Image.Png.Raster

/-!
# Normal form of images

Images of known types are read and written anew, so that nothing is left in them but what is seen.
Content of any other type stays as it is. What claims to be an image of a known type but cannot be
read as one is refused.
-/

namespace PeerTransfer.Image

/-- The normal form of a photograph, written at a quality. -/
def normalizeJpeg (content : Bytes) (quality : UInt8) : Except Failure Bytes :=
  match Jpeg.read? content with
  | some picture => .ok (Jpeg.write picture quality.toNat)
  | none => .error .unreadableImage

/-- The normal form of an image without loss. -/
def normalizePng (content : Bytes) : Except Failure Bytes :=
  match Png.read? content with
  | some raster => .ok (Png.write raster)
  | none => .error .unreadableImage

/-- The normal form of content of a type. -/
def normalize (contentType : String) (content : Bytes) (quality : UInt8) :
    Except Failure Bytes :=
  if contentType = "image/jpeg" then normalizeJpeg content quality
  else if contentType = "image/png" then normalizePng content
  else .ok content

end PeerTransfer.Image
