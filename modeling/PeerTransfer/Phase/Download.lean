import PeerTransfer.Phase.Attempt
import PeerTransfer.Services.Basic

/-!
# Downloading a batch

Every blob of a batch is fetched and written to a file of its own. If one download fails, the files
of the others are deleted again.
-/

namespace PeerTransfer.Phase

variable {σ : Type} [Services σ]

/-- A file that a download has made. -/
structure Delivery where
  path : Path
  size : UInt64

/-- Writes a file into a folder, which is made where it is missing. Where the file cannot be
written, none is left. -/
def deliver (folder target : Path) (content : Bytes) (disk : Disk) :
    Except Failure Delivery × Disk :=
  match disk.makeFolders folder with
  | (.error refusal, disk) => (.error (.disk refusal), disk)
  | (.ok (), disk) =>
    match disk.write target content with
    | .error refusal => (.error (.disk refusal), disk.discard target)
    | .ok disk => (.ok ⟨target, UInt64.ofNat content.length⟩, disk)

/-- Fetches a blob and writes it to its file. -/
def fetch (folder : Path) (request : DownloadRequest) (world : World σ) :
    Except Failure Delivery × World σ :=
  match Services.download request.remotePath world with
  | (.error failure, world) => (.error failure, world)
  | (.ok content, world) =>
    let (result, disk) := deliver folder (request.targetIn folder) content world.disk
    (result, { world with disk })

/-- Downloading one unit. -/
def downloadSteps (settings : Settings) :
    PhaseSteps IncomingUnit DownloadRequest Delivery (World σ) where
  start := IncomingUnit.beginDownload
  unit := DownloadRequest.unit
  run := fetch settings.downloadFolder
  complete := fun unit delivery => unit.completeDownload delivery.path
  fail := IncomingUnit.failDownload
  isPrompt := fun failure =>
    match failure with
    | .disk _ => false
    | _ => true

/-- Downloads every unit of a batch, or none. -/
def runDownload (settings : Settings) (batch : IncomingBatch) (world : World σ) :
    Except Failure PhaseReport × IncomingBatch × World σ :=
  match requireAll .download IncomingState.received batch with
  | .error failure => (.error failure, batch, world)
  | .ok () =>
    match attempt (downloadSteps settings) settings.maxConcurrentUnits.toNat batch world with
    | (.error failure, batch, world) => (.error failure, batch, world)
    | (.ok verdicts, batch, world) =>
      let entries := verdicts.map (Verdict.entry .download Delivery.size)
      match Verdict.failed verdicts with
      | [] => (.ok ⟨.advanced, entries⟩, batch, world)
      | failed =>
        let (units, disk) := forAll IncomingUnit.rollbackDownload batch.units world.disk
        (.ok ⟨.unitsFailed failed, entries⟩, { batch with units }, { world with disk })

end PeerTransfer.Phase
