import PeerTransfer.Disk
import PeerTransfer.Endpoint.State
import PeerTransfer.Progress
import PeerTransfer.Settings.Basic
import PeerTransfer.Uuid.Text
import PeerTransfer.Wire.Reader
import PeerTransfer.Wire.Writer

/-!
# Failures

Everything that can go wrong, each cause with the facts it is reported with. Causes are grouped by
kind, and the message of a failure is the heading of its kind followed by its own wording. A panic
stands among the causes because it ends a call as they do, but nobody gets to see it as a failure.
-/

namespace PeerTransfer

/-- What a caller can do about a failure depends on its kind. -/
inductive Failure.Kind where
  | disk
  | collaborator
  | decode
  | encode
  | stateConflict
  | endpointNotFound
  | batchNotFound
  | invalidBatch
  | settings
  | task
  | other
  deriving DecidableEq, Repr

/-- What can be asked of an outgoing unit in the wrong state. -/
inductive OutgoingOperation where
  | setSize
  | load
  | completeLoad
  | failLoad
  | stage
  | completeStage
  | failStage
  | releaseLocal
  deriving DecidableEq, Repr

/-- What can be asked of an incoming unit in the wrong state. -/
inductive IncomingOperation where
  | setSize
  | download
  | completeDownload
  | failDownload
  deriving DecidableEq, Repr

/-- What can be asked of an endpoint in the wrong state. -/
inductive EndpointOperation where
  | requestConnection
  | initiateConnection
  | acceptConnection
  | rejectConnection
  | failConnection
  | beginTransfer
  | finishTransfer
  | disconnect
  | abortDisconnect
  deriving DecidableEq, Repr

/-- A step taken by all units of a batch together. -/
inductive Phase where
  | load
  | stage
  | download
  deriving DecidableEq, Repr

/-- A cause of failure. -/
inductive Failure where
  /-- Told by a service outside, in its own words. -/
  | reported (kind : Failure.Kind) (text : String)
  | disk (refusal : Disk.Refusal)
  | unreadableWire (error : Wire.ReadError)
  | unwritableWire (error : Wire.WriteError)
  | unreadableDescriptor
  | unreadableUnitId (key : String)
  | unreadableImage
  | unreadableSettings
  | unwritableSettings
  | invalidSettings (fault : Settings.Invalid)
  | outgoingConflict (operation : OutgoingOperation) (unit : Uuid) (state : OutgoingState)
  | incomingConflict (operation : IncomingOperation) (unit : Uuid) (state : IncomingState)
  | remotePathTaken (unit : Uuid) (path : String)
  | nothingToStage (unit : Uuid)
  | phaseConflict (phase : Phase) (batch : String) (unit : Uuid) (state : String)
  | strayResult (unit : Uuid)
  | partiesMissing
  | unitsMissing
  | blankBatchId
  | remotePathMissing (unit : Uuid)
  | remotePathMissingIn (batch : String) (unit : Uuid)
  | batchUnknown (batch : String)
  | batchNotStaged (batch : String) (state : OutgoingState)
  | batchKnown (batch : String)
  | endpointUnknown (endpoint : String)
  | endpointKnown (endpoint : String)
  | endpointConflict (operation : EndpointOperation) (endpoint : String) (state : EndpointState)
  | badReturn (endpoint : String) (state : EndpointState)
  | namelessInitiator (endpoint : String)
  /-- The call has panicked: it has broken off where it was, and answers neither a value nor a
  failure. -/
  | panicked
  deriving DecidableEq

def OutgoingOperation.text : OutgoingOperation → String
  | setSize => "set size"
  | load => "load"
  | completeLoad => "complete load"
  | failLoad => "fail load"
  | stage => "stage"
  | completeStage => "complete stage"
  | failStage => "fail stage"
  | releaseLocal => "release local copy"

def IncomingOperation.text : IncomingOperation → String
  | setSize => "set size"
  | download => "download"
  | completeDownload => "complete download"
  | failDownload => "fail download"

def EndpointOperation.text : EndpointOperation → String
  | requestConnection => "request connection"
  | initiateConnection => "initiate connection"
  | acceptConnection => "accept connection"
  | rejectConnection => "reject connection"
  | failConnection => "fail connection"
  | beginTransfer => "begin transfer"
  | finishTransfer => "finish transfer"
  | disconnect => "disconnect"
  | abortDisconnect => "abort disconnect"

def Phase.text : Phase → String
  | load => "load"
  | stage => "stage"
  | download => "download"

namespace Failure

/-- What every message of a kind begins with. -/
def Kind.heading : Kind → String
  | disk => "IO error: "
  | collaborator => "Collaborator error: "
  | decode => "Decoding error: "
  | encode => "Encoding error: "
  | stateConflict => "State conflict: "
  | endpointNotFound => "Endpoint not found: "
  | batchNotFound => "Batch not found: "
  | invalidBatch => "Invalid batch: "
  | settings => "Configuration error: "
  | task => "Task error: "
  | other => ""

def kind : Failure → Kind
  | reported kind _ => kind
  | disk _ => .disk
  | unreadableWire _ | unreadableDescriptor | unreadableUnitId _ => .decode
  | unwritableWire _ | unreadableImage => .encode
  | unreadableSettings | unwritableSettings | invalidSettings _ => .settings
  | outgoingConflict .. | incomingConflict .. | remotePathTaken .. | nothingToStage _
  | phaseConflict .. | batchNotStaged .. | batchKnown _ | endpointKnown _ | endpointConflict ..
  | badReturn .. => .stateConflict
  | strayResult _ => .task
  | partiesMissing | unitsMissing | blankBatchId | remotePathMissing _
  | remotePathMissingIn .. => .invalidBatch
  | batchUnknown _ => .batchNotFound
  | endpointUnknown _ => .endpointNotFound
  | namelessInitiator _ => .collaborator
  | panicked => .other

/-- The wording of a failure, without the heading of its kind. -/
def detail : Failure → String
  | reported _ text => text
  | disk refusal => refusal.message
  | unreadableWire error => error.message
  | unwritableWire error => error.message
  | unreadableDescriptor => "not a batch descriptor"
  | unreadableUnitId key => "invalid unit id " ++ key
  | unreadableImage => "not a readable image"
  | unreadableSettings => "not readable as settings"
  | unwritableSettings => "a number is too great to be written"
  | invalidSettings fault => fault.message
  | outgoingConflict operation unit state =>
    s!"cannot {operation.text} unit {unit.text} in state {state.name}"
  | incomingConflict operation unit state =>
    s!"cannot {operation.text} unit {unit.text} in state {state.name}"
  | remotePathTaken unit path => s!"unit {unit.text} already has remote path {path}"
  | nothingToStage unit => s!"unit {unit.text} is missing a local copy or a remote path"
  | phaseConflict phase batch unit state =>
    s!"cannot {phase.text} batch {batch}: unit {unit.text} is {state}"
  | strayResult unit => s!"result for unknown unit {unit.text}"
  | partiesMissing => "sender and receiver are required"
  | unitsMissing => "a batch needs at least one unit"
  | blankBatchId => "batch id must not be empty"
  | remotePathMissing unit => s!"unit {unit.text} has no remote path"
  | remotePathMissingIn batch unit => s!"unit {unit.text} of batch {batch} has no remote path"
  | batchUnknown batch => batch
  | batchNotStaged batch state =>
    s!"batch {batch} is {state.name}, only staged batches can be sent"
  | batchKnown batch => s!"batch {batch} was already received"
  | endpointUnknown endpoint => endpoint
  | endpointKnown endpoint => s!"endpoint {endpoint} already exists"
  | endpointConflict operation endpoint state =>
    s!"cannot {operation.text} for endpoint {endpoint} in state {state.name}"
  | badReturn endpoint state =>
    s!"endpoint {endpoint} cannot return to {state.name} after disconnect"
  | namelessInitiator endpoint =>
    s!"endpoint {endpoint} initiated a connection without a name"
  | panicked => "the call has panicked"

/-- The message of a failure. -/
def message (failure : Failure) : String :=
  failure.kind.heading ++ failure.detail

/-- The request was understood but does not fit the state it met. -/
def isStateConflict (failure : Failure) : Bool :=
  failure.kind = .stateConflict

end Failure

end PeerTransfer
