import PeerTransfer.Phase.Attempt

/-!
# Loading a batch

Every picked file gets a local copy. If one copy fails, all are deleted again.
-/

namespace PeerTransfer.Phase

/-- Loading one unit. -/
def loadSteps (settings : Settings) : PhaseSteps OutgoingUnit LoadRequest LocalCopy Disk where
  start := OutgoingUnit.beginLoad
  unit := LoadRequest.unit
  run := fun request disk => request.run settings.stagingFolder settings.jpegQuality disk
  complete := OutgoingUnit.completeLoad
  fail := OutgoingUnit.failLoad
  isPrompt := fun _ => false

/-- Loads every unit of a batch, or none. -/
def runLoad (settings : Settings) (batch : OutgoingBatch) (disk : Disk) :
    Except Failure PhaseReport × OutgoingBatch × Disk :=
  match requireAll .load OutgoingState.picked batch with
  | .error failure => (.error failure, batch, disk)
  | .ok () =>
    match attempt (loadSteps settings) settings.maxConcurrentUnits.toNat batch disk with
    | (.error failure, batch, disk) => (.error failure, batch, disk)
    | (.ok verdicts, batch, disk) =>
      match Verdict.failed verdicts with
      | [] => (.ok ⟨.advanced, []⟩, batch, disk)
      | failed =>
        let (units, disk) := forAll OutgoingUnit.rollbackLoad batch.units disk
        (.ok ⟨.unitsFailed failed, []⟩, { batch with units }, disk)

end PeerTransfer.Phase
