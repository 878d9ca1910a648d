import PeerTransfer.Progress
import PeerTransfer.Uuid.Basic

/-!
# What a batch asks of its units

A batch holds units of one direction and needs to know the same of both.
-/

namespace PeerTransfer

/-- Files on their way in one direction, with the states they pass through. -/
class Transferable (U : Type) (S : outParam Type) where
  id : U → Uuid
  contentType : U → String
  size : U → UInt64
  remotePath : U → Option String
  state : U → S
  /-- The text by which the journal names a unit. -/
  label : U → String

end PeerTransfer
