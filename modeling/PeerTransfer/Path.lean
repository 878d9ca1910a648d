/-!
# Paths

A path is the text by which a file is named. Its segments stand between slashes; a segment that is
empty or a single dot leads nowhere.
-/

namespace PeerTransfer

/-- The text by which a file or folder is named. -/
structure Path where
  text : String
  deriving DecidableEq, Repr, Inhabited

namespace Path

/-- The pieces of a list of characters between slashes; there is always one. -/
def split : List Char → List (List Char)
  | [] => [[]]
  | c :: cs =>
    if c = '/' then [] :: split cs
    else match split cs with
    | [] => [[c]]
    | piece :: pieces => (c :: piece) :: pieces

/-- The segments of a path, empty ones and dots among them. -/
def segments (path : Path) : List String :=
  (split path.text.toList).map String.ofList

/-- A segment that stays where it is. -/
def isIdle (segment : String) : Bool :=
  segment = "" || segment = "."

/-- The last segment that leads anywhere, unless it leads back to the folder above. -/
def fileName? (path : Path) : Option String :=
  match (path.segments.filter (!isIdle ·)).getLast? with
  | none => none
  | some name => if name = ".." then none else some name

/-- What follows the last dot of a file name, if anything stands before that dot. -/
def extensionOf? (name : String) : Option String :=
  let after := name.toList.reverse.takeWhile (· ≠ '.')
  match name.toList.reverse.dropWhile (· ≠ '.') with
  | '.' :: _ :: _ => some (String.ofList after.reverse)
  | _ => none

/-- The extension of a path's file name. -/
def extension? (path : Path) : Option String :=
  path.fileName? >>= extensionOf?

/-- The path of `name` in the folder that `folder` names. -/
def join (folder : Path) (name : String) : Path :=
  if folder.text = "" then ⟨name⟩
  else if folder.text.toList.getLast? = some '/' then ⟨folder.text ++ name⟩
  else ⟨folder.text ++ "/" ++ name⟩

end Path

end PeerTransfer
