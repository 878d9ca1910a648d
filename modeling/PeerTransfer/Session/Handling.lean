import PeerTransfer.Session.Transfer

/-!
# Handling events

An event is applied to the table as far as the table allows it. A payload becomes a batch only once
its transfer is a success, and at most once; progress of any other payload is that of our own send.
-/

namespace PeerTransfer.Session

variable {σ : Type}

/-- The journal entry of a unit that a payload has brought. -/
def receiveEntry (unit : IncomingUnit) : JournalEntry :=
  ⟨.receive, unit.id, unit.remotePath, .success, unit.size, 0⟩

/-- The journal entry of a payload that is no batch. -/
def badPayloadEntry (payload : Int) (content : Bytes) : JournalEntry :=
  ⟨.receive, Uuid.zero, s!"payload {payload}", .failure, UInt64.ofNat content.length, 0⟩

/-- Makes a batch of a held payload whose transfer was a success. -/
def acceptPayload (endpoint : String) (peer : Endpoint) (payload : Int) (content : Bytes) :
    Act σ Unit := do
  let localName := (← get).settings.localName
  match ← Act.draw (Batch.ofWire content peer.name localName) with
  | .error failure =>
    Act.move (·.appendLog endpoint [badPayloadEntry payload content])
    throw failure
  | .ok batch =>
    Act.move (·.update endpoint (·.addIncoming batch))
    Act.move (·.appendLog endpoint (batch.units.map receiveEntry))

/-- What the final status of a payload says about the send it belongs to. -/
def outcomeOf : PayloadStatus → Outcome
  | .success => .success
  | .canceled => .canceled
  | .failure | .inProgress => .failure

/-- Ends the send that is under way. A batch that has arrived is let go of. -/
def finishSend (endpoint : String) (batch : String) (status : PayloadStatus) : Act σ Unit := do
  Act.move (·.update endpoint ({ · with inFlight := none }))
  if (← Act.endpoint endpoint).state = .sending then Act.move (·.finishTransfer endpoint)
  logSend endpoint batch (outcomeOf status)
  if outcomeOf status = .success then
    Act.move (·.update endpoint (·.dropOutgoing batch))

/-- Applies the final status of a payload. -/
def finishPayload (endpoint : String) (payload : Int) (status : PayloadStatus) : Act σ Unit := do
  let peer ← Act.endpoint endpoint
  match peer.payload? payload with
  | some content =>
    Act.move (·.update endpoint (·.dropPayload payload))
    if status = .success then acceptPayload endpoint peer payload content
  | none =>
    match peer.inFlight with
    | none => return
    | some batch => finishSend endpoint batch status

/-- Applies an event of the channel. -/
def handle : Event → Act σ Unit
  | .endpointFound endpoint name medium => Act.move (·.discover endpoint name medium)
  | .endpointLost endpoint => Act.moveAndDiscard (·.remove endpoint)
  | .disconnected endpoint => Act.moveAndDiscard (·.remove endpoint)
  | .distanceChanged _ _ => return
  | .connectionInitiated endpoint name => Act.move (·.connectionInitiated endpoint name)
  | .connectionAccepted endpoint => Act.move (·.accept endpoint)
  | .connectionRejected endpoint => Act.moveAndDiscard (·.reject endpoint)
  | .bandwidthUpgraded endpoint medium => Act.move (·.upgradeMedium endpoint medium)
  | .payloadInitiated endpoint payload content =>
    Act.move (·.update endpoint (·.holdPayload payload content))
  | .payloadProgress endpoint payload status _ _ =>
    if status = .inProgress then return else finishPayload endpoint payload status

/-- Applies events one after another; those that are refused are skipped. -/
def handleAll : List Event → Session σ → Session σ
  | [], session => session
  | event :: rest, session => handleAll rest ((handle event).run session).2

/-- Applies every queued event. Answers how many there were. -/
def pump (session : Session σ) : Nat × Session σ :=
  (session.queue.length, handleAll session.queue { session with queue := [] })

/-- Takes the oldest event off the queue. -/
def next? (session : Session σ) : Option (Event × Session σ) :=
  match session.queue with
  | [] => none
  | event :: rest => some (event, { session with queue := rest })

end PeerTransfer.Session
