import PeerTransfer.Bytes
import PeerTransfer.Path
import PeerTransfer.Text.Utf8

/-!
# The disk

A disk holds files and folders at locations, which are lists of names from the root. A path leads
to a location by way of folders that exist; relative paths start at the root as well.
-/

namespace PeerTransfer

/-- What stands at a location. -/
inductive Disk.Entry where
  | file (content : Bytes)
  | folder
  deriving DecidableEq, Repr

/-- Names from the root down. -/
abbrev Disk.Location := List String

/-- Why the disk refuses a request. -/
inductive Disk.Refusal where
  | missing
  | isFolder
  | notFolder
  | alreadyExists
  | badName
  | notText
  deriving DecidableEq, Repr

/-- The files and folders below the root, each location once. -/
structure Disk where
  entries : List (Disk.Location × Disk.Entry)
  deriving DecidableEq, Repr

namespace Disk

/-- The wording of a refusal. -/
def Refusal.message : Refusal → String
  | missing => "no such file or folder"
  | isFolder => "is a folder"
  | notFolder => "not a folder"
  | alreadyExists => "already exists"
  | badName => "not a name for a file"
  | notText => "not a text file"

/-- A disk with nothing but its root. -/
def empty : Disk := ⟨[]⟩

/-- What stands at a location; the root is a folder. -/
def lookup (disk : Disk) (location : Location) : Option Entry :=
  if location = [] then some .folder else disk.entries.lookup location

/-- Puts an entry at a location, in place of what stood there. -/
def put (disk : Disk) (location : Location) (entry : Entry) : Disk :=
  ⟨disk.entries.filter (·.1 ≠ location) ++ [(location, entry)]⟩

/-- Takes away what stands at a location. -/
def erase (disk : Disk) (location : Location) : Disk :=
  ⟨disk.entries.filter (·.1 ≠ location)⟩

/-- The longest name a file may have, in bytes. -/
def maxNameLength : Nat := 255

/-- The longest path, in bytes. -/
def maxPathLength : Nat := 4095

/-- A name that no file can have. -/
def isBadName (name : String) : Bool :=
  maxNameLength < name.utf8ByteSize

/-- A path that leads nowhere whatever the disk holds. -/
def isBadPath (path : Path) : Bool :=
  path.text.toList.contains '\x00' || maxPathLength < path.text.utf8ByteSize

/-- Follows segments from a location; each is looked up in a folder that exists, so that only the
last may be missing. -/
def walk (disk : Disk) : Location → List String → Except Refusal Location
  | here, [] => .ok here
  | here, segment :: rest =>
    match disk.lookup here with
    | none => .error .missing
    | some (.file _) => .error .notFolder
    | some .folder =>
      if Path.isIdle segment then walk disk here rest
      else if segment = ".." then walk disk here.dropLast rest
      else if isBadName segment then .error .badName
      else walk disk (here ++ [segment]) rest

/-- The location that a path leads to. -/
def locate (disk : Disk) (path : Path) : Except Refusal Location :=
  if path.text = "" then .error .missing
  else if isBadPath path then .error .badName
  else disk.walk [] path.segments

/-- A file or folder stands where the path leads. -/
def holds (disk : Disk) (path : Path) : Bool :=
  match disk.locate path with
  | .ok location => (disk.lookup location).isSome
  | .error _ => false

/-- A folder stands where the path leads. -/
def holdsFolder (disk : Disk) (path : Path) : Bool :=
  match disk.locate path with
  | .ok location => disk.lookup location = some .folder
  | .error _ => false

/-- The content of a file. -/
def read (disk : Disk) (path : Path) : Except Refusal Bytes := do
  let location ← disk.locate path
  match disk.lookup location with
  | some (.file content) => .ok content
  | some .folder => .error .isFolder
  | none => .error .missing

/-- The content of a file of text. -/
def readText (disk : Disk) (path : Path) : Except Refusal String := do
  match Text.Utf8.decode (← disk.read path) with
  | .ok text => .ok text
  | .error _ => .error .notText

/-- Writes a file, in place of the one that stood there; its folder must exist. -/
def write (disk : Disk) (path : Path) (content : Bytes) : Except Refusal Disk := do
  let location ← disk.locate path
  match disk.lookup location with
  | some .folder => .error .isFolder
  | _ => .ok (disk.put location (.file content))

/-- Removes a file. -/
def remove (disk : Disk) (path : Path) : Except Refusal Disk := do
  let location ← disk.locate path
  match disk.lookup location with
  | some (.file _) => .ok (disk.erase location)
  | some .folder => .error .isFolder
  | none => .error .missing

/-- Removes a file if there is one. -/
def discard (disk : Disk) (path : Path) : Disk :=
  match disk.remove path with
  | .ok disk => disk
  | .error _ => disk

/-- Follows segments from a location and makes the folders that are missing. What was made before
a refusal stays. -/
def makeWalk : Location → List String → Disk → Except Refusal Unit × Disk
  | here, [], disk =>
    if disk.lookup here = some .folder then (.ok (), disk) else (.error .alreadyExists, disk)
  | here, segment :: rest, disk =>
    match disk.lookup here with
    | none => (.error .missing, disk)
    | some (.file _) => (.error .notFolder, disk)
    | some .folder =>
      if Path.isIdle segment then makeWalk here rest disk
      else if segment = ".." then makeWalk here.dropLast rest disk
      else if isBadName segment then (.error .badName, disk)
      else
        let next := here ++ [segment]
        match disk.lookup next with
        | none => makeWalk next rest (disk.put next .folder)
        | some _ => makeWalk next rest disk

/-- The last segment with a name or dots in it is a single dot. -/
def endsInDot (path : Path) : Bool :=
  (path.segments.filter (· ≠ "")).getLast? = some "."

/-- Makes the folder that a path names, and those on the way to it, where they are missing. A
folder that is yet to be made cannot be named by a dot: there, all but the folder itself are made
before that is refused. -/
def makeFolders (disk : Disk) (path : Path) : Except Refusal Unit × Disk :=
  if path.text = "" || disk.holdsFolder path then (.ok (), disk)
  else if isBadPath path then (.error .badName, disk)
  else if endsInDot path then
    match makeWalk [] (path.segments.filter (!Path.isIdle ·)).dropLast disk with
    | (.error refusal, disk) => (.error refusal, disk)
    | (.ok (), disk) =>
      if disk.holdsFolder path then (.ok (), disk) else (.error .missing, disk)
  else makeWalk [] path.segments disk

/-- Everything below a location. -/
def below (disk : Disk) (location : Location) : List (Location × Entry) :=
  disk.entries.filter fun (here, _) => location.isPrefixOf here && here ≠ location

end Disk

end PeerTransfer
