import PeerTransfer.Batch.Basic
import PeerTransfer.Descriptor.Basic

/-!
# Handing a batch over

An outgoing batch reaches its receiver on one of two ways, as records over a direct channel or as a
descriptor through a registry. On the first the receiver gives ids of its own, on the second it
keeps those of the sender.
-/

namespace PeerTransfer

namespace OutgoingUnit

/-- The record that announces a unit of a batch; the unit must have a remote path. -/
def record (unit : OutgoingUnit) (batch : String) : Except Failure Wire.Record :=
  match unit.remotePath with
  | some path => .ok ⟨unit.name, path, unit.size⟩
  | none => .error (.remotePathMissingIn batch unit.id)

/-- What a descriptor says of a unit; the unit must have a remote path. -/
def describe (unit : OutgoingUnit) : Except Failure (String × UnitDescriptor) :=
  match unit.remotePath with
  | some path => .ok (unit.id.text, ⟨unit.contentType, path, unit.size⟩)
  | none => .error (.remotePathMissing unit.id)

end OutgoingUnit

namespace Batch

/-- The records that announce a batch. -/
def records (batch : OutgoingBatch) : Except Failure (List Wire.Record) :=
  batch.units.mapM (·.record batch.id)

/-- The bytes that announce a batch over a direct channel. -/
def encodeWire (batch : OutgoingBatch) : Except Failure Bytes := do
  (Wire.encode (← batch.records)).mapError Failure.unwritableWire

/-- The descriptor that announces a batch through a registry. -/
def describe (batch : OutgoingBatch) : Except Failure Descriptor := do
  let units ← batch.units.mapM (·.describe)
  return ⟨batch.id, batch.token, Catalog.ofList units⟩

/-- The batch that was announced by the bytes of a direct channel. -/
def ofWire (payload : Bytes) (sender receiver : String) (ids : IdSource) :
    Except Failure IncomingBatch × IdSource :=
  match Wire.decode payload with
  | .error error => (.error (.unreadableWire error), ids)
  | .ok records =>
    let (numbered, ids) := ids.drawFor records
    let (id, ids) := ids.draw
    let units := numbered.map fun (id, record) => IncomingUnit.ofRecord id record
    (Draft.build ⟨none, sender, receiver, units⟩ id.text, ids)

/-- What follows the last slash of a remote path. -/
def nameInPath (path : String) : String :=
  String.ofList ((Path.split path.toList).getLast?.getD [])

/-- The unit that a descriptor's entry announces. -/
def unitOfEntry (key : String) (unit : UnitDescriptor) : Except Failure IncomingUnit :=
  match Uuid.parse? key with
  | none => .error (.unreadableUnitId key)
  | some id =>
    .ok (IncomingUnit.announced id (nameInPath unit.remotePath) unit.remotePath unit.contentType
      unit.size)

/-- The batch that was announced by a descriptor. -/
def ofDescriptor (descriptor : Descriptor) (sender receiver : String) :
    Except Failure IncomingBatch := do
  let units ← descriptor.units.entries.mapM fun (key, unit) => unitOfEntry key unit
  Draft.build ⟨descriptor.token, sender, receiver, units⟩ descriptor.batchId

end Batch

end PeerTransfer
