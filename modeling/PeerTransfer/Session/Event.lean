import PeerTransfer.Bytes
import PeerTransfer.Endpoint.State

/-!
# Events of the channel

What the channel to the peers tells a device, each event about one endpoint.
-/

namespace PeerTransfer

/-- How far a payload has come. -/
inductive PayloadStatus where
  | inProgress
  | success
  | failure
  | canceled
  deriving DecidableEq, Repr

namespace PayloadStatus

/-- Every status. -/
def all : List PayloadStatus := [inProgress, success, failure, canceled]

def name : PayloadStatus → String
  | inProgress => "InProgress"
  | success => "Success"
  | failure => "Failure"
  | canceled => "Canceled"

end PayloadStatus

/-- Something that has happened on the channel. -/
inductive Event where
  | endpointFound (endpoint name : String) (medium : Medium)
  | endpointLost (endpoint : String)
  | distanceChanged (endpoint distance : String)
  | connectionInitiated (endpoint name : String)
  | connectionAccepted (endpoint : String)
  | connectionRejected (endpoint : String)
  | disconnected (endpoint : String)
  | bandwidthUpgraded (endpoint : String) (medium : Medium)
  /-- A payload has come, but stays provisional until its progress is a success. -/
  | payloadInitiated (endpoint : String) (payload : Int) (content : Bytes)
  | payloadProgress (endpoint : String) (payload : Int) (status : PayloadStatus)
    (total transferred : UInt64)
  deriving DecidableEq, Repr

/-- The endpoint that an event is about. -/
def Event.endpoint : Event → String
  | endpointFound endpoint _ _ | endpointLost endpoint | distanceChanged endpoint _
  | connectionInitiated endpoint _ | connectionAccepted endpoint | connectionRejected endpoint
  | disconnected endpoint | bandwidthUpgraded endpoint _ | payloadInitiated endpoint _ _
  | payloadProgress endpoint _ _ _ _ => endpoint

end PeerTransfer
