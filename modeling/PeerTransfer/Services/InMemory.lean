import PeerTransfer.Services.Basic

/-!
# Services in memory

A store, a registry and a channel that live beside the device. The store follows rules by which
calls go wrong, and each of the other services fails while a fault is set.
-/

namespace PeerTransfer

/-- What a rule of the store does to a call. -/
inductive StoreAction where
  /-- The call is answered with a refusal. -/
  | refuse
  /-- The call never returns. -/
  | crash
  /-- A file of the device is deleted before the call goes on. -/
  | deleteFile (path : Path)
  deriving DecidableEq, Repr

/-- A rule for calls with remote paths that hold the marker. -/
structure StoreRule where
  marker : String
  action : StoreAction
  deriving DecidableEq, Repr

/-- The state of the services. -/
structure InMemory where
  /-- Content by its remote path. -/
  blobs : Catalog Bytes
  rules : List StoreRule
  /-- Published descriptors, the oldest first. -/
  published : List Descriptor
  publishFault : Option Failure
  connectFault : Option Failure
  disconnectFault : Option Failure
  sendFault : Option Failure
  /-- Bytes that were sent, with the peer they were sent to, the oldest first. -/
  sent : List (String × Bytes)
  listeners : List String

namespace InMemory

/-- Services that keep nothing yet and follow no rule. -/
def empty : InMemory where
  blobs := Catalog.empty
  rules := []
  published := []
  publishFault := none
  connectFault := none
  disconnectFault := none
  sendFault := none
  sent := []
  listeners := []

/-- The marker stands somewhere in the text. -/
def holdsMarker (marker : List Char) : List Char → Bool
  | [] => marker.isEmpty
  | c :: cs => marker.isPrefixOf (c :: cs) || holdsMarker marker cs

/-- Lets rules act on a call, in order, up to the first that ends it. -/
def applyRules (path : String) : List StoreRule → Disk → Except Failure Unit × Disk
  | [], disk => (.ok (), disk)
  | rule :: rest, disk =>
    if holdsMarker rule.marker.toList path.toList then
      match rule.action with
      | .refuse => (.error (.reported .collaborator ("store refused " ++ path)), disk)
      | .crash => (.error (.reported .task "the store never returned"), disk)
      | .deleteFile file => applyRules path rest (disk.discard file)
    else applyRules path rest disk

/-- Keeps the content at the path, in place of what was there. -/
def upload (content : Bytes) (path : String) (world : World InMemory) :
    Except Failure Unit × World InMemory :=
  let services := world.services
  match applyRules path services.rules world.disk with
  | (.error failure, disk) => (.error failure, ⟨disk, services⟩)
  | (.ok (), disk) =>
    (.ok (), ⟨disk, { services with blobs := services.blobs.insert path content }⟩)

/-- The content that was kept at the path. -/
def download (path : String) (world : World InMemory) : Except Failure Bytes × World InMemory :=
  let services := world.services
  match applyRules path services.rules world.disk with
  | (.error failure, disk) => (.error failure, ⟨disk, services⟩)
  | (.ok (), disk) =>
    match services.blobs.find? path with
    | some content => (.ok content, ⟨disk, services⟩)
    | none => (.error (.reported .collaborator ("no blob at " ++ path)), ⟨disk, services⟩)

/-- Fails while a fault is set. -/
def unlessFault (fault : Option Failure) : Except Failure Unit :=
  match fault with
  | some failure => .error failure
  | none => .ok ()

/-- Keeps the descriptor; the reference is made of the batch's id. -/
def publish (descriptor : Descriptor) (services : InMemory) :
    Except Failure String × InMemory :=
  match unlessFault services.publishFault with
  | .error failure => (.error failure, services)
  | .ok () =>
    (.ok ("batches/" ++ descriptor.batchId),
      { services with published := services.published ++ [descriptor] })

/-- Keeps the bytes as sent. -/
def send (endpoint : String) (payload : Bytes) (services : InMemory) :
    Except Failure Unit × InMemory :=
  match unlessFault services.sendFault with
  | .error failure => (.error failure, services)
  | .ok () => (.ok (), { services with sent := services.sent ++ [(endpoint, payload)] })

instance : Services InMemory where
  upload := upload
  download := download
  publish := publish
  connect := fun _ services => (unlessFault services.connectFault, services)
  disconnect := fun _ services => (unlessFault services.disconnectFault, services)
  send := send
  register := fun listener services =>
    { services with listeners := services.listeners.filter (· ≠ listener) ++ [listener] }
  unregister := fun listener services =>
    { services with listeners := services.listeners.filter (· ≠ listener) }

end InMemory

end PeerTransfer
