import PeerTransfer.Batch.Handover
import PeerTransfer.Phase.Attempt
import PeerTransfer.Services.Basic

/-!
# Staging a batch

Every local copy is uploaded, and once all of them are, the batch is published. If one upload or
the publication fails, all units are as they were; what was uploaded stays and is overwritten by
the next attempt.
-/

namespace PeerTransfer.Phase

variable {σ : Type} [Services σ]

/-- The remote path of a unit that is staged with a batch: no two units of any batches share it,
and its ending tells the content type. -/
def remotePathFor (batch : String) (unit : OutgoingUnit) : String :=
  batch ++ "/" ++ unit.id.text ++ ContentType.suffix unit.contentType

/-- Assigns the remote path, unless the unit has one already. -/
def ensureRemotePath (batch : String) (unit : OutgoingUnit) : OutgoingUnit :=
  match unit.assignRemotePath (remotePathFor batch unit) with
  | .ok unit => unit
  | .error _ => unit

/-- Reads a local copy and uploads it. Answers how many bytes it has. -/
def uploadCopy (request : StageRequest) (world : World σ) : Except Failure UInt64 × World σ :=
  match world.disk.read request.localPath with
  | .error refusal => (.error (.disk refusal), world)
  | .ok content =>
    match Services.upload content request.remotePath world with
    | (.error failure, world) => (.error failure, world)
    | (.ok (), world) => (.ok (UInt64.ofNat content.length), world)

/-- Staging one unit. -/
def stageSteps : PhaseSteps OutgoingUnit StageRequest UInt64 (World σ) where
  start := OutgoingUnit.beginStage
  unit := StageRequest.unit
  run := uploadCopy
  complete := fun unit _ => unit.completeStage
  fail := OutgoingUnit.failStage
  isPrompt := fun _ => false

/-- Takes the staging of every unit back. -/
def rollbackStaging (batch : OutgoingBatch) : OutgoingBatch :=
  { batch with units := batch.units.map OutgoingUnit.rollbackStage }

/-- Deletes a unit's local copy, whatever the disk says to it. -/
def releaseCopy (unit : OutgoingUnit) (disk : Disk) : OutgoingUnit × Disk :=
  (unit.releaseLocal disk).2

/-- Publishes a batch of which every unit is uploaded. -/
def publish (settings : Settings) (entries : List JournalEntry) (batch : OutgoingBatch)
    (world : World σ) : Except Failure PhaseReport × OutgoingBatch × World σ :=
  match batch.describe with
  | .error failure => (.error failure, batch, world)
  | .ok descriptor =>
    match Services.publish descriptor world.services with
    | (.error cause, services) =>
      (.ok ⟨.publishFailed cause, entries⟩, rollbackStaging batch, { world with services })
    | (.ok reference, services) =>
      let batch := { batch with reference := some reference }
      if settings.releaseAfterStage then
        let (units, disk) := forAll releaseCopy batch.units world.disk
        (.ok ⟨.advanced, entries⟩, { batch with units }, ⟨disk, services⟩)
      else (.ok ⟨.advanced, entries⟩, batch, { world with services })

/-- Uploads every unit of a batch and publishes it, or takes everything back. -/
def runStage (settings : Settings) (batch : OutgoingBatch) (world : World σ) :
    Except Failure PhaseReport × OutgoingBatch × World σ :=
  match requireAll .stage OutgoingState.loaded batch with
  | .error failure => (.error failure, batch, world)
  | .ok () =>
    let batch := { batch with units := batch.units.map (ensureRemotePath batch.id) }
    match attempt stageSteps settings.maxConcurrentUnits.toNat batch world with
    | (.error failure, batch, world) => (.error failure, batch, world)
    | (.ok verdicts, batch, world) =>
      let entries := verdicts.map (Verdict.entry .upload id)
      match Verdict.failed verdicts with
      | [] => publish settings entries batch world
      | failed => (.ok ⟨.unitsFailed failed, entries⟩, rollbackStaging batch, world)

end PeerTransfer.Phase
