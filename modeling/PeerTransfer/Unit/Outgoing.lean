import PeerTransfer.ContentType
import PeerTransfer.Failure
import PeerTransfer.Image.Normalize
import PeerTransfer.Unit.Transferable

/-!
# Outgoing units

A picked file is loaded into a local copy of its own, and the copy is staged under a remote path.
Each step begins, and then completes or fails; a batch may also take whole steps back.
-/

namespace PeerTransfer

/-- A file that is sent out. -/
structure OutgoingUnit where
  id : Uuid
  source : Path
  localPath : Option Path
  remotePath : Option String
  contentType : String
  size : UInt64
  state : OutgoingState
  deriving DecidableEq

/-- What the loading of a file needs to know. -/
structure LoadRequest where
  unit : Uuid
  source : Path
  contentType : String
  deriving DecidableEq

/-- A copy that loading has made. -/
structure LocalCopy where
  path : Path
  size : UInt64
  deriving DecidableEq

/-- What the staging of a file needs to know. -/
structure StageRequest where
  unit : Uuid
  localPath : Path
  remotePath : String
  deriving DecidableEq

namespace LoadRequest

/-- Where the copy is put. -/
def targetIn (request : LoadRequest) (folder : Path) : Path :=
  folder.join (request.unit.text ++ ContentType.suffix request.contentType)

/-- Reads the source, brings it into normal form and writes it to the target. -/
def copyTo (request : LoadRequest) (folder : Path) (quality : UInt8) (disk : Disk) :
    Except Failure LocalCopy × Disk :=
  let target := request.targetIn folder
  match (disk.read request.source).mapError Failure.disk with
  | .error failure => (.error failure, disk)
  | .ok content =>
    match Image.normalize request.contentType content quality with
    | .error failure => (.error failure, disk)
    | .ok content =>
      match disk.makeFolders folder with
      | (.error refusal, disk) => (.error (.disk refusal), disk)
      | (.ok (), disk) =>
        match disk.write target content with
        | .error refusal => (.error (.disk refusal), disk)
        | .ok disk => (.ok ⟨target, UInt64.ofNat content.length⟩, disk)

/-- Makes the local copy; where that fails, no file is left at the target. -/
def run (request : LoadRequest) (folder : Path) (quality : UInt8) (disk : Disk) :
    Except Failure LocalCopy × Disk :=
  match request.copyTo folder quality disk with
  | (.ok copy, disk) => (.ok copy, disk)
  | (.error failure, disk) => (.error failure, disk.discard (request.targetIn folder))

end LoadRequest

namespace OutgoingUnit

/-- A picked file of a type that is already known. -/
def pick (id : Uuid) (source : Path) (contentType : String) : OutgoingUnit where
  id := id
  source := source
  localPath := none
  remotePath := none
  contentType := contentType
  size := 0
  state := .picked

/-- A picked file of the type that its name tells. -/
def ofPath (id : Uuid) (source : Path) : OutgoingUnit :=
  pick id source (ContentType.guess source)

/-- The name announced to the peer. -/
def name (unit : OutgoingUnit) : String :=
  unit.source.fileName?.getD unit.id.text

/-- The text by which the journal names a unit. -/
def label (unit : OutgoingUnit) : String :=
  unit.remotePath.getD unit.name

instance : Transferable OutgoingUnit OutgoingState where
  id := OutgoingUnit.id
  contentType := OutgoingUnit.contentType
  size := OutgoingUnit.size
  remotePath := OutgoingUnit.remotePath
  state := OutgoingUnit.state
  label := OutgoingUnit.label

/-- Refuses an operation in the present state. -/
def conflict {α : Type} (unit : OutgoingUnit) (operation : OutgoingOperation) :
    Except Failure α :=
  .error (.outgoingConflict operation unit.id unit.state)

/-- The size may change until a byte has left the device. -/
def setSize (unit : OutgoingUnit) (size : UInt64) : Except Failure OutgoingUnit :=
  if unit.state.isPreTransfer then .ok { unit with size }
  else unit.conflict .setSize

/-- Only a picked unit begins to load. -/
def beginLoad (unit : OutgoingUnit) : Except Failure (LoadRequest × OutgoingUnit) :=
  if unit.state = .picked then
    .ok (⟨unit.id, unit.source, unit.contentType⟩, { unit with state := .loading })
  else unit.conflict .load

/-- The copy becomes the unit's own, and its size the unit's size. -/
def completeLoad (unit : OutgoingUnit) (copy : LocalCopy) : Except Failure OutgoingUnit :=
  if unit.state = .loading then
    .ok { unit with localPath := some copy.path, size := copy.size, state := .loaded }
  else unit.conflict .completeLoad

/-- Loading that fails leaves the unit picked and without a copy. -/
def failLoad (unit : OutgoingUnit) : Except Failure OutgoingUnit :=
  if unit.state = .loading then .ok { unit with localPath := none, state := .picked }
  else unit.conflict .failLoad

/-- Assigns the remote path, once and for all: a retried upload goes to the same place. -/
def assignRemotePath (unit : OutgoingUnit) (path : String) : Except Failure OutgoingUnit :=
  match unit.remotePath with
  | some current => .error (.remotePathTaken unit.id current)
  | none => .ok { unit with remotePath := some path }

/-- A loaded unit begins to be staged once it has a local copy and a remote path. -/
def beginStage (unit : OutgoingUnit) : Except Failure (StageRequest × OutgoingUnit) :=
  if unit.state = .loaded then
    match unit.localPath, unit.remotePath with
    | some localPath, some remotePath =>
      .ok (⟨unit.id, localPath, remotePath⟩, { unit with state := .staging })
    | _, _ => .error (.nothingToStage unit.id)
  else unit.conflict .stage

/-- The blob stands at the remote path. -/
def completeStage (unit : OutgoingUnit) : Except Failure OutgoingUnit :=
  if unit.state = .staging then .ok { unit with state := .staged }
  else unit.conflict .completeStage

/-- Staging that fails leaves the unit loaded; its copy and its remote path stay. -/
def failStage (unit : OutgoingUnit) : Except Failure OutgoingUnit :=
  if unit.state = .staging then .ok { unit with state := .loaded }
  else unit.conflict .failStage

/-- Deletes the local copy of a staged unit. The unit has given up the copy even where the disk
refuses to delete it. -/
def releaseLocal (unit : OutgoingUnit) (disk : Disk) :
    Except Failure Unit × OutgoingUnit × Disk :=
  if unit.state = .staged then
    match unit.localPath with
    | none => (.ok (), unit, disk)
    | some path =>
      let unit := { unit with localPath := none }
      match disk.remove path with
      | .ok disk => (.ok (), unit, disk)
      | .error refusal => (.error (.disk refusal), unit, disk)
  else (unit.conflict .releaseLocal, unit, disk)

/-- Deletes the local copy, if there is one, in whatever state the unit is. -/
def discardLocal (unit : OutgoingUnit) (disk : Disk) : OutgoingUnit × Disk :=
  match unit.localPath with
  | none => (unit, disk)
  | some path => ({ unit with localPath := none }, disk.discard path)

/-- Takes staging back; the local copy stays. -/
def rollbackStage (unit : OutgoingUnit) : OutgoingUnit :=
  match unit.state with
  | .staging | .staged => { unit with state := .loaded }
  | _ => unit

/-- Takes loading back together with the local copy. -/
def rollbackLoad (unit : OutgoingUnit) (disk : Disk) : OutgoingUnit × Disk :=
  let (unit, disk) := unit.discardLocal disk
  ({ unit with state := .picked }, disk)

end OutgoingUnit

end PeerTransfer
