import PeerTransfer.ContentType
import PeerTransfer.Failure
import PeerTransfer.Unit.Transferable

/-!
# Incoming units

A file that a peer has announced is downloaded from its remote path. The file it is written to is
named by the unit's id and nothing that the peer chose but the content type.
-/

namespace PeerTransfer

/-- A file that is taken in. -/
structure IncomingUnit where
  id : Uuid
  name : String
  remotePath : String
  contentType : String
  size : UInt64
  localPath : Option Path
  state : IncomingState
  deriving DecidableEq

/-- What the download of a file needs to know. -/
structure DownloadRequest where
  unit : Uuid
  remotePath : String
  contentType : String
  deriving DecidableEq

namespace DownloadRequest

/-- Where the file is put. -/
def targetIn (request : DownloadRequest) (folder : Path) : Path :=
  folder.join (request.unit.text ++ ContentType.suffix request.contentType)

end DownloadRequest

namespace IncomingUnit

/-- A file that was announced. -/
def announced (id : Uuid) (name remotePath contentType : String) (size : UInt64) :
    IncomingUnit where
  id := id
  name := name
  remotePath := remotePath
  contentType := contentType
  size := size
  localPath := none
  state := .received

/-- A file that was announced over a direct channel; its type is guessed from its name. -/
def ofRecord (id : Uuid) (record : Wire.Record) : IncomingUnit :=
  announced id record.name record.url (ContentType.guess ⟨record.name⟩) record.size

instance : Transferable IncomingUnit IncomingState where
  id := IncomingUnit.id
  contentType := IncomingUnit.contentType
  size := IncomingUnit.size
  remotePath := fun unit => some unit.remotePath
  state := IncomingUnit.state
  label := IncomingUnit.remotePath

/-- Refuses an operation in the present state. -/
def conflict {α : Type} (unit : IncomingUnit) (operation : IncomingOperation) :
    Except Failure α :=
  .error (.incomingConflict operation unit.id unit.state)

/-- The size may be set until the download begins. -/
def setSize (unit : IncomingUnit) (size : UInt64) : Except Failure IncomingUnit :=
  if unit.state = .received then .ok { unit with size }
  else unit.conflict .setSize

/-- Only a received unit begins its download. -/
def beginDownload (unit : IncomingUnit) : Except Failure (DownloadRequest × IncomingUnit) :=
  if unit.state = .received then
    .ok (⟨unit.id, unit.remotePath, unit.contentType⟩, { unit with state := .downloading })
  else unit.conflict .download

/-- The file at the path belongs to the unit. -/
def completeDownload (unit : IncomingUnit) (path : Path) : Except Failure IncomingUnit :=
  if unit.state = .downloading then
    .ok { unit with localPath := some path, state := .downloaded }
  else unit.conflict .completeDownload

/-- A download that fails leaves the unit as it was announced. -/
def failDownload (unit : IncomingUnit) : Except Failure IncomingUnit :=
  if unit.state = .downloading then .ok { unit with state := .received }
  else unit.conflict .failDownload

/-- Takes the download back together with the file it has made. -/
def rollbackDownload (unit : IncomingUnit) (disk : Disk) : IncomingUnit × Disk :=
  match unit.localPath with
  | none => ({ unit with state := .received }, disk)
  | some path => ({ unit with localPath := none, state := .received }, disk.discard path)

end IncomingUnit

end PeerTransfer
