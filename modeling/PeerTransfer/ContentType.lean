import PeerTransfer.Path

/-!
# Content types

The type of a file's content is guessed from the extension of its name, and a file of a known type
gets that type's extension when it is stored. Of a type with two extensions the first is given.
-/

namespace PeerTransfer.ContentType

/-- The type of a file about which nothing is known. -/
def octetStream : String := "application/octet-stream"

/-- Each known extension with the type it stands for. -/
def known : List (String × String) :=
  [("jpg", "image/jpeg"), ("jpeg", "image/jpeg"), ("png", "image/png"), ("gif", "image/gif"),
   ("webp", "image/webp"), ("bmp", "image/bmp"), ("txt", "text/plain"),
   ("pdf", "application/pdf"), ("mp4", "video/mp4")]

/-- The type that an extension stands for, in whatever case it is written. -/
def ofExtension (ext : String) : String :=
  ((known.find? (·.1 = String.ofList (ext.toList.map Char.toLower))).map (·.2)).getD octetStream

/-- The type of a file, guessed from its path. -/
def guess (path : Path) : String :=
  match path.extension? with
  | some ext => ofExtension ext
  | none => octetStream

/-- The ending, with its dot, of the name of a stored file of the type. -/
def suffix (contentType : String) : String :=
  match known.find? (·.2 = contentType) with
  | some (ext, _) => "." ++ ext
  | none => ""

end PeerTransfer.ContentType
