import PeerTransfer.Catalog

/-!
# Batch descriptors

A batch that is announced through a registry is described by its id and, for each unit, under the
text of the unit's id, what is needed to fetch it.
-/

namespace PeerTransfer

/-- What a receiver is told of one unit. -/
structure UnitDescriptor where
  contentType : String
  remotePath : String
  size : UInt64
  deriving DecidableEq, Repr

/-- What a receiver is told of a batch. -/
structure Descriptor where
  batchId : String
  token : Option String
  units : Catalog UnitDescriptor
  deriving DecidableEq

end PeerTransfer
