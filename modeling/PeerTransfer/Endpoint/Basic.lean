import PeerTransfer.Batch.Basic
import PeerTransfer.Endpoint.State
import PeerTransfer.Journal

/-!
# Endpoints

An endpoint is a remote peer with everything that belongs to it: its batches, the journal of its
transfers, the send that is under way, and the payloads it has announced but not confirmed.
-/

namespace PeerTransfer

/-- A remote peer. -/
structure Endpoint where
  id : String
  name : String
  state : EndpointState
  medium : Medium
  /-- The peer has opened the connection. -/
  isIncoming : Bool
  token : Option String
  outgoing : List OutgoingBatch
  incoming : List IncomingBatch
  journal : Journal
  /-- The batch whose bytes are on their way to the peer. -/
  inFlight : Option String
  /-- Payloads whose transfer is not confirmed, under their ids. -/
  payloads : List (Int × Bytes)
  deriving DecidableEq

namespace Endpoint

/-- A peer that has just become known. -/
def new (id name : String) (state : EndpointState) (medium : Medium) (isIncoming : Bool) :
    Endpoint where
  id := id
  name := name
  state := state
  medium := medium
  isIncoming := isIncoming
  token := none
  outgoing := []
  incoming := []
  journal := []
  inFlight := none
  payloads := []

/-- The first outgoing batch of an id. -/
def outgoing? (endpoint : Endpoint) (batch : String) : Option OutgoingBatch :=
  endpoint.outgoing.find? (·.id = batch)

/-- The first incoming batch of an id. -/
def incoming? (endpoint : Endpoint) (batch : String) : Option IncomingBatch :=
  endpoint.incoming.find? (·.id = batch)

/-- Puts an outgoing batch in place of the one of its id. -/
def setOutgoing (endpoint : Endpoint) (batch : OutgoingBatch) : Endpoint :=
  { endpoint with outgoing := replaceFirst Batch.id batch endpoint.outgoing }

/-- Puts an incoming batch in place of the one of its id. -/
def setIncoming (endpoint : Endpoint) (batch : IncomingBatch) : Endpoint :=
  { endpoint with incoming := replaceFirst Batch.id batch endpoint.incoming }

/-- Adds an outgoing batch as the last. -/
def addOutgoing (endpoint : Endpoint) (batch : OutgoingBatch) : Endpoint :=
  { endpoint with outgoing := endpoint.outgoing ++ [batch] }

/-- Adds an incoming batch as the last. -/
def addIncoming (endpoint : Endpoint) (batch : IncomingBatch) : Endpoint :=
  { endpoint with incoming := endpoint.incoming ++ [batch] }

/-- Lets go of the first outgoing batch of an id. -/
def dropOutgoing (endpoint : Endpoint) (batch : String) : Endpoint :=
  { endpoint with outgoing := endpoint.outgoing.eraseP (·.id = batch) }

/-- Holds a payload until its transfer is confirmed, in place of one of the same id. -/
def holdPayload (endpoint : Endpoint) (payload : Int) (content : Bytes) : Endpoint :=
  { endpoint with
    payloads := endpoint.payloads.filter (·.1 ≠ payload) ++ [(payload, content)] }

/-- The content of a held payload. -/
def payload? (endpoint : Endpoint) (payload : Int) : Option Bytes :=
  endpoint.payloads.lookup payload

/-- Lets go of a held payload. -/
def dropPayload (endpoint : Endpoint) (payload : Int) : Endpoint :=
  { endpoint with payloads := endpoint.payloads.filter (·.1 ≠ payload) }

/-- The local copies that the endpoint's outgoing units own. -/
def localCopies (endpoint : Endpoint) : List Path :=
  endpoint.outgoing.flatMap fun batch => batch.units.filterMap (·.localPath)

end Endpoint

end PeerTransfer
