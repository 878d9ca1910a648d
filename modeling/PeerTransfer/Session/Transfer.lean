import PeerTransfer.Phase.Download
import PeerTransfer.Phase.Load
import PeerTransfer.Phase.Stage
import PeerTransfer.Session.Basic

/-!
# Transfers of a session

Batches are created and received, run through their phases while the connection is claimed, and
sent. Every attempt to move a unit is recorded in the journal of its endpoint.
-/

namespace PeerTransfer.Session

variable {σ : Type}

/-- Picks files for an endpoint. Answers the id of the new batch. -/
def createBatch (endpoint : String) (sources : List Path) : Act σ String := do
  let peer ← Act.endpoint endpoint
  let numbered ← Act.draw (IdSource.drawFor sources)
  let id ← Act.draw IdSource.draw
  let units := numbered.map fun (id, source) => OutgoingUnit.ofPath id source
  let draft : Draft OutgoingUnit := ⟨peer.token, (← get).settings.localName, peer.name, units⟩
  let batch ← Act.ofExcept (draft.build id.text)
  Act.move (·.update endpoint (·.addOutgoing batch))
  return batch.id

/-- Takes in a batch that was announced through the registry. Answers its id. -/
def receiveDescriptor (endpoint : String) (descriptor : Descriptor) : Act σ String := do
  let peer ← Act.endpoint endpoint
  if (peer.incoming? descriptor.batchId).isSome then throw (.batchKnown descriptor.batchId)
  let batch ←
    Act.ofExcept (Batch.ofDescriptor descriptor peer.name (← get).settings.localName)
  Act.move (·.update endpoint (·.addIncoming batch))
  return batch.id

/-- Gives the connection free after a phase, and records what the phase reports. A panic goes past
all of this, so that it leaves the connection claimed. -/
def finishPhase (endpoint : String) : Except Failure PhaseReport → Act σ PhaseReport
  | .error .panicked => throw .panicked
  | result => do
    Act.move (·.finishTransfer endpoint)
    let report ← Act.ofExcept result
    Act.move (·.appendLog endpoint report.entries)
    return report

/-- Runs a phase of an outgoing batch while the connection is claimed. -/
def runOutgoing
    (run : Settings → OutgoingBatch → World σ →
      Except Failure PhaseReport × OutgoingBatch × World σ)
    (endpoint batch : String) : Act σ PhaseReport := do
  let peer ← Act.endpoint endpoint
  match peer.outgoing? batch with
  | none => throw (.batchUnknown batch)
  | some found =>
    Act.move (·.beginTransfer endpoint .upload)
    let session ← get
    let (result, changed, world) := run session.settings found session.world
    set { session with world }
    Act.move (·.update endpoint (·.setOutgoing changed))
    finishPhase endpoint result

/-- Makes the local copies of a batch. -/
def loadBatch (endpoint batch : String) : Act σ PhaseReport :=
  runOutgoing (fun settings batch world =>
    let (result, batch, disk) := Phase.runLoad settings batch world.disk
    (result, batch, { world with disk })) endpoint batch

/-- Uploads and publishes a batch. -/
def stageBatch [Services σ] (endpoint batch : String) : Act σ PhaseReport :=
  runOutgoing Phase.runStage endpoint batch

/-- Downloads a batch while the connection is claimed. -/
def downloadBatch [Services σ] (endpoint batch : String) : Act σ PhaseReport := do
  let peer ← Act.endpoint endpoint
  match peer.incoming? batch with
  | none => throw (.batchUnknown batch)
  | some found =>
    Act.move (·.beginTransfer endpoint .download)
    let session ← get
    let (result, changed, world) := Phase.runDownload session.settings found session.world
    set { session with world }
    Act.move (·.update endpoint (·.setIncoming changed))
    finishPhase endpoint result

/-- The journal entry of a unit that was sent; a failed send has moved no bytes. -/
def sendEntry (outcome : Outcome) (unit : OutgoingUnit) : JournalEntry :=
  ⟨.send, unit.id, unit.label, outcome, if outcome = .success then unit.size else 0, 0⟩

/-- Records what came of sending a batch. -/
def logSend (endpoint batch : String) (outcome : Outcome) : Act σ Unit :=
  Act.move fun table =>
    let units := ((table.find? endpoint).bind (·.outgoing? batch)).map (·.units)
    table.appendLog endpoint ((units.getD []).map (sendEntry outcome))

/-- Sends the bytes that announce a staged batch. The connection stays claimed until the channel
tells what has come of them. -/
def sendBatch [Services σ] (endpoint batch : String) : Act σ Unit := do
  let peer ← Act.endpoint endpoint
  match peer.outgoing? batch with
  | none => throw (.batchUnknown batch)
  | some found =>
    if found.state ≠ OutgoingState.staged then throw (.batchNotStaged batch found.state)
    let payload ← Act.ofExcept found.encodeWire
    Act.move (·.beginTransfer endpoint .send)
    match ← Act.call (Services.send endpoint payload) with
    | .ok () => Act.move (·.update endpoint ({ · with inFlight := some batch }))
    | .error failure =>
      Act.move (·.finishTransfer endpoint)
      logSend endpoint batch .failure
      throw failure

end PeerTransfer.Session
