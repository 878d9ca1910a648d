import PeerTransfer.Proofs.Disk.Program
import PeerTransfer.Proofs.Services.Keeping

/-!
# Phases on drives

The jobs of a phase as programs on a disk, each on a drive of its own, so that any call of any job
may give way. Where all drives are sound, these are the phases (`runLoadOn_sound`,
`runStageOn_sound`, `runDownloadOn_sound`). Whatever the drives do, a job that is to make a file
makes it or leaves no trace of it (`tries_loadProgram`, `tries_fetchOn`).
-/

namespace PeerTransfer

open List

/-! ## Services that touch no file -/

section Aloof

variable {σ : Type}

/-- All files are the same in both worlds, and `Kept` holds of the services in the second. -/
structure World.Stays (Kept : σ → Prop) (world world' : World σ) : Prop where
  kept : Kept world'.services
  changes : world.disk.Changes ∅ world'.disk

/-- Services that touch no file of the device as long as `Kept` holds of their state, which it then
keeps doing. -/
structure Aloof [Services σ] (Kept : σ → Prop) : Prop where
  upload (content : Bytes) (remotePath : String) (world : World σ) : Kept world.services →
    world.Stays Kept (Services.upload content remotePath world).2
  download (remotePath : String) (world : World σ) : Kept world.services →
    world.Stays Kept (Services.download remotePath world).2
  publish (descriptor : Descriptor) (services : σ) : Kept services →
    Kept (Services.publish descriptor services).2

theorem World.Stays.refl {Kept : σ → Prop} {world : World σ} (h : Kept world.services) :
    world.Stays Kept world :=
  ⟨h, .refl ∅ world.disk⟩

theorem World.Stays.trans {Kept : σ → Prop} {world world' world'' : World σ}
    (h : world.Stays Kept world') (h' : world'.Stays Kept world'') : world.Stays Kept world'' :=
  ⟨h'.kept, h.changes.trans h'.changes⟩

theorem InMemory.aloof_of_harmless : Aloof InMemory.Harmless where
  upload content remotePath world h := by
    rcases upload_of_harmless h content remotePath with ⟨failure, hrun⟩ | hrun
    · rw [hrun]
      exact .refl h
    · rw [hrun]
      exact ⟨h, .refl ∅ world.disk⟩
  download remotePath world h := by
    rw [download_of_harmless h]
    exact .refl h
  publish := (sparing_of_harmless default).publish

end Aloof

/-- The same steps with other jobs. -/
def PhaseSteps.Law.withRun {U S ρ α W : Type} [Transferable U S] {steps : PhaseSteps U ρ α W}
    {Ready : U → Prop} (law : steps.Law Ready) (run : ρ → W → Except Failure α × W) :
    PhaseSteps.Law { steps with run } Ready :=
  { law with }

namespace Phase

/-! ## A phase by its parts -/

/-- What a phase is made of. -/
structure Plan (U S ρ α W : Type) where
  phase : Phase
  /-- The state that every unit must be in. -/
  required : S
  prepare : Batch U → Batch U
  steps : PhaseSteps U ρ α W
  /-- How many jobs may be under way at a time. -/
  limit : Nat
  entries : List (Verdict α) → List JournalEntry
  /-- What is left to do once every job has succeeded. -/
  finish : List JournalEntry → Batch U → W → Except Failure PhaseReport × Batch U × W
  /-- Takes the step of every unit back. -/
  rollback : List U → W → List U × W

namespace Plan

variable {U S ρ α W : Type} [Transferable U S] [Progress S] [DecidableEq S]

/-- Carries out a phase. -/
def run (plan : Plan U S ρ α W) (batch : Batch U) (world : W) :
    Except Failure PhaseReport × Batch U × W :=
  match requireAll plan.phase plan.required batch with
  | .error failure => (.error failure, batch, world)
  | .ok () =>
    match attempt plan.steps plan.limit (plan.prepare batch) world with
    | (.error failure, batch, world) => (.error failure, batch, world)
    | (.ok verdicts, batch, world) =>
      match Verdict.failed verdicts with
      | [] => plan.finish (plan.entries verdicts) batch world
      | failed =>
        let (units, world) := plan.rollback batch.units world
        (.ok ⟨.unitsFailed failed, plan.entries verdicts⟩, { batch with units }, world)

variable (plan : Plan U S ρ α W) {batch : Batch U} (world : W)

theorem run_of_exists (h : ∃ u ∈ batch.units, Transferable.state u ≠ plan.required) :
    ∃ failure, plan.run batch world = (.error failure, batch, world) := by
  obtain ⟨u, -, hrequire⟩ := requireAll_of_exists plan.phase h
  exact ⟨_, by rw [run, hrequire]⟩

variable {plan}

/-- With more jobs at a time than a semaphore has permits, a phase panics once its steps are
begun. -/
theorem run_of_lt {Ready : U → Prop} (law : plan.steps.Law Ready)
    (hlimit : maxPermits < plan.limit)
    (hstate : ∀ u ∈ batch.units, Transferable.state u = plan.required)
    (hready : ∀ u ∈ (plan.prepare batch).units, Ready u) :
    plan.run batch world =
      (.error .panicked,
        { plan.prepare batch with units := (plan.prepare batch).units.map law.begun }, world) := by
  unfold run
  simp only [requireAll_of_forall hstate, attempt_of_lt_of_ready law hlimit hready]

/-- Units end as their own jobs did, and are then taken back if one of the jobs has failed. -/
theorem run_of_ready {Ready : U → Prop} (law : plan.steps.Law Ready)
    (hlimit : plan.limit ≤ maxPermits)
    (hstate : ∀ u ∈ batch.units, Transferable.state u = plan.required)
    (hready : ∀ u ∈ (plan.prepare batch).units, Ready u)
    (hnodup : ((plan.prepare batch).units.map Transferable.id).Nodup) :
    ∃ result : Uuid → Except Failure α,
      let start := plan.prepare batch
      let ran := jobs plan.steps start.units world
      let units := start.units.map fun u => law.settled u (result (Transferable.id u))
      let entries := plan.entries (told start.units result)
      ran.1 = start.units.map (fun u => (Transferable.id u, result (Transferable.id u))) ∧
      plan.run batch world =
        if failedIn ran.1 = [] then plan.finish entries { start with units } ran.2
        else (.ok ⟨.unitsFailed (failedIn ran.1), entries⟩,
          { start with units := (plan.rollback units ran.2).1 },
          (plan.rollback units ran.2).2) := by
  obtain ⟨result, hresult, hattempt⟩ := attempt_of_ready law hlimit world hready hnodup
  have hfailed : Verdict.failed (told (plan.prepare batch).units result) =
      failedIn (jobs plan.steps (plan.prepare batch).units world).1 := by
    rw [failed_told, hresult]
  refine ⟨result, hresult, ?_⟩
  unfold run
  simp only [requireAll_of_forall hstate, hattempt, hfailed]
  split_ifs with hnil
  · rw [hnil]
  · split
    · next h => exact absurd h hnil
    · rfl

end Plan

/-! ## Loading -/

section Load

/-- The job that makes a local copy. Where that fails, no file is left at the target. -/
def loadProgram (folder : Path) (quality : UInt8) (request : LoadRequest) :
    Disk.Program (Except Failure LocalCopy) :=
  let target := request.targetIn folder
  let giveUp (failure : Failure) := Disk.Program.discard target (.done (.error failure))
  .read request.source fun
    | .error refusal => giveUp (.disk refusal)
    | .ok content =>
      match Image.normalize request.contentType content quality with
      | .error failure => giveUp failure
      | .ok content =>
        .makeFolders folder fun
          | .error refusal => giveUp (.disk refusal)
          | .ok () =>
            .write target content fun
              | .error refusal => giveUp (.disk refusal)
              | .ok () => .done (.ok ⟨target, UInt64.ofNat content.length⟩)

/-- Loading one unit, each on its own drive. -/
def loadStepsOn (drives : Uuid → Disk.Drive) (settings : Settings) :
    PhaseSteps OutgoingUnit LoadRequest LocalCopy Disk :=
  { loadSteps settings with
    run := fun request =>
      (loadProgram settings.stagingFolder settings.jpegQuality request).run (drives request.unit) }

/-- The law of loading holds on any drives. -/
def loadLawOn (drives : Uuid → Disk.Drive) (settings : Settings) :
    (loadStepsOn drives settings).Law (·.state = .picked) :=
  (loadLaw settings).withRun _

/-- Loading, each unit on its own drive. -/
def loadPlan (drives : Uuid → Disk.Drive) (settings : Settings) :
    Plan OutgoingUnit OutgoingState LoadRequest LocalCopy Disk where
  phase := .load
  required := .picked
  prepare := id
  steps := loadStepsOn drives settings
  limit := settings.maxConcurrentUnits.toNat
  entries _ := []
  finish entries batch disk := (.ok ⟨.advanced, entries⟩, batch, disk)
  rollback := forAll OutgoingUnit.rollbackLoad

/-- Loads every unit of a batch on its own drive, or none. -/
def runLoadOn (drives : Uuid → Disk.Drive) (settings : Settings) (batch : OutgoingBatch)
    (disk : Disk) : Except Failure PhaseReport × OutgoingBatch × Disk :=
  (loadPlan drives settings).run batch disk

theorem run_loadProgram_sound (folder : Path) (quality : UInt8) (request : LoadRequest)
    (disk : Disk) :
    (loadProgram folder quality request).run .sound disk = request.run folder quality disk := by
  unfold loadProgram LoadRequest.run LoadRequest.copyTo
  simp only [Disk.Program.run, Disk.Drive.sound]
  cases disk.read request.source with
  | error refusal => rfl
  | ok content =>
    simp only [Except.mapError]
    cases Image.normalize request.contentType content quality with
    | error failure => rfl
    | ok normal =>
      simp only [Disk.Program.run]
      cases hmade : disk.makeFolders folder with
      | mk answer made =>
        cases answer with
        | error refusal => rfl
        | ok =>
          simp only [Disk.Program.run]
          cases made.write (request.targetIn folder) normal <;> rfl

/-- On sound drives this is loading. -/
theorem runLoadOn_sound (settings : Settings) :
    runLoadOn (fun _ => .sound) settings = runLoad settings := by
  have hrun : (fun request => (loadProgram settings.stagingFolder settings.jpegQuality request).run
      .sound) = (loadSteps settings).run :=
    funext₂ fun request disk => run_loadProgram_sound _ _ request disk
  have hsteps : loadStepsOn (fun _ => .sound) settings = loadSteps settings :=
    congrArg (fun run => { loadSteps settings with run }) hrun
  funext batch disk
  unfold runLoadOn Plan.run runLoad
  dsimp only [loadPlan]
  rw [hsteps, id]
  cases requireAll .load OutgoingState.picked batch with
  | error failure => rfl
  | ok =>
    rcases attempt (loadSteps settings) settings.maxConcurrentUnits.toNat batch disk with
      ⟨failure | verdicts, batch, disk⟩
    · rfl
    · rfl

/-- The job touches no file but its target, and the copy that it makes is there. -/
theorem confined_loadProgram (folder : Path) (quality : UInt8) (request : LoadRequest) :
    (loadProgram folder quality request).Confined (· = request.targetIn folder)
      fun result => ∀ copy, result = .ok copy → copy.path = request.targetIn folder := by
  rintro (refusal | content)
  · exact ⟨rfl, nofun⟩
  · dsimp only
    split
    · exact ⟨rfl, nofun⟩
    · rintro (refusal | _)
      · exact ⟨rfl, nofun⟩
      · refine ⟨rfl, ?_⟩
        rintro (refusal | _)
        · exact ⟨rfl, nofun⟩
        · rintro copy ⟨⟩
          rfl

theorem path_of_loadProgram {drive : Disk.Drive} {folder : Path} {quality : UInt8}
    {request : LoadRequest} {disk : Disk} {copy : LocalCopy}
    (h : ((loadProgram folder quality request).run drive disk).1 = .ok copy) :
    copy.path = request.targetIn folder :=
  (confined_loadProgram folder quality request).answer drive disk copy h

theorem tries_loadProgram (drive : Disk.Drive) (folder : Path) (quality : UInt8)
    (request : LoadRequest) (disk : Disk) :
    let ran := (loadProgram folder quality request).run drive disk
    disk.Tries (request.targetIn folder) ran.1.toBool ran.2 := by
  have hnothing := Disk.Tries.refl (request.targetIn folder) disk
  unfold loadProgram
  dsimp only [Disk.Program.run]
  rcases drive.read request.source disk with refusal | content
  · exact hnothing.discard
  · dsimp only
    rcases Image.normalize request.contentType content quality with failure | normal
    · exact hnothing.discard
    · dsimp only [Disk.Program.run]
      have hmade := drive.changes_makeFolders folder disk
      rcases hmake : drive.makeFolders folder disk with ⟨refusal | _, made⟩
      all_goals rw [hmake] at hmade
      · exact .after hmade (Disk.Tries.refl _ made).discard
      · dsimp only [Disk.Program.run]
        rcases hwrite : drive.write (request.targetIn folder) normal made with
          ⟨refusal | _, written⟩
        · exact .after hmade (.of_write_error hwrite)
        · exact .after hmade (.of_write (drive.write_ok hwrite))

end Load

/-! ## Staging -/

section Stage

variable {σ : Type} [Services σ]

/-- Reads a local copy on a drive and uploads it. -/
def uploadCopyOn (drive : Disk.Drive) (request : StageRequest) (world : World σ) :
    Except Failure UInt64 × World σ :=
  match drive.read request.localPath world.disk with
  | .error refusal => (.error (.disk refusal), world)
  | .ok content =>
    match Services.upload content request.remotePath world with
    | (.error failure, world) => (.error failure, world)
    | (.ok (), world) => (.ok (UInt64.ofNat content.length), world)

/-- Staging one unit, each on its own drive. -/
def stageStepsOn (drives : Uuid → Disk.Drive) :
    PhaseSteps OutgoingUnit StageRequest UInt64 (World σ) :=
  { stageSteps (σ := σ) with run := fun request => uploadCopyOn (drives request.unit) request }

/-- The law of staging holds on any drives. -/
def stageLawOn (drives : Uuid → Disk.Drive) : (stageStepsOn (σ := σ) drives).Law IsStageable :=
  stageLaw.withRun _

/-- Staging, each unit on its own drive. -/
def stagePlan (drives : Uuid → Disk.Drive) (settings : Settings) :
    Plan OutgoingUnit OutgoingState StageRequest UInt64 (World σ) where
  phase := .stage
  required := .loaded
  prepare := withRemotePaths
  steps := stageStepsOn drives
  limit := settings.maxConcurrentUnits.toNat
  entries := map (Verdict.entry .upload id)
  finish := publish settings
  rollback units world := (units.map OutgoingUnit.rollbackStage, world)

/-- Uploads every unit of a batch, each on its own drive, and publishes it, or takes everything
back. -/
def runStageOn (drives : Uuid → Disk.Drive) (settings : Settings) (batch : OutgoingBatch)
    (world : World σ) : Except Failure PhaseReport × OutgoingBatch × World σ :=
  (stagePlan drives settings).run batch world

theorem stays_uploadCopyOn {Kept : σ → Prop} (hservices : Aloof Kept) (drive : Disk.Drive)
    (request : StageRequest) {world : World σ} (hkept : Kept world.services) :
    world.Stays Kept (uploadCopyOn drive request world).2 := by
  unfold uploadCopyOn
  rcases drive.read request.localPath world.disk with refusal | content
  · exact .refl hkept
  · have hupload := hservices.upload content request.remotePath world hkept
    dsimp only
    split
    · next h => rwa [h] at hupload
    · next h => rwa [h] at hupload

/-- On sound drives this is staging. -/
theorem runStageOn_sound (settings : Settings) :
    runStageOn (σ := σ) (fun _ => .sound) settings = runStage settings := by
  funext batch world
  have hsteps : stageStepsOn (σ := σ) (fun _ => .sound) = stageSteps := rfl
  unfold runStageOn Plan.run runStage
  dsimp only [stagePlan]
  rw [hsteps, ← withRemotePaths]
  cases requireAll .stage OutgoingState.loaded batch with
  | error failure => rfl
  | ok =>
    rcases attempt stageSteps settings.maxConcurrentUnits.toNat (withRemotePaths batch) world with
      ⟨failure | verdicts, batch, world⟩
    · rfl
    · rfl

end Stage

/-! ## Downloading -/

section Download

variable {σ : Type} [Services σ]

/-- The job that writes a file. Where the file cannot be written, none is left. -/
def deliverProgram (folder target : Path) (content : Bytes) :
    Disk.Program (Except Failure Delivery) :=
  .makeFolders folder fun
    | .error refusal => .done (.error (.disk refusal))
    | .ok () =>
      .write target content fun
        | .error refusal => .discard target (.done (.error (.disk refusal)))
        | .ok () => .done (.ok ⟨target, UInt64.ofNat content.length⟩)

/-- Fetches a blob and writes it to its file on a drive. -/
def fetchOn (drive : Disk.Drive) (folder : Path) (request : DownloadRequest) (world : World σ) :
    Except Failure Delivery × World σ :=
  match Services.download request.remotePath world with
  | (.error failure, world) => (.error failure, world)
  | (.ok content, world) =>
    let ran := (deliverProgram folder (request.targetIn folder) content).run drive world.disk
    (ran.1, { world with disk := ran.2 })

/-- Downloading one unit, each on its own drive. -/
def downloadStepsOn (drives : Uuid → Disk.Drive) (settings : Settings) :
    PhaseSteps IncomingUnit DownloadRequest Delivery (World σ) :=
  { downloadSteps (σ := σ) settings with
    run := fun request => fetchOn (drives request.unit) settings.downloadFolder request }

/-- The law of downloading holds on any drives. -/
def downloadLawOn (drives : Uuid → Disk.Drive) (settings : Settings) :
    (downloadStepsOn (σ := σ) drives settings).Law (·.state = .received) :=
  (downloadLaw settings).withRun _

/-- Downloading, each unit on its own drive. -/
def downloadPlan (drives : Uuid → Disk.Drive) (settings : Settings) :
    Plan IncomingUnit IncomingState DownloadRequest Delivery (World σ) where
  phase := .download
  required := .received
  prepare := id
  steps := downloadStepsOn drives settings
  limit := settings.maxConcurrentUnits.toNat
  entries := map (Verdict.entry .download Delivery.size)
  finish entries batch world := (.ok ⟨.advanced, entries⟩, batch, world)
  rollback units world :=
    let (units, disk) := forAll IncomingUnit.rollbackDownload units world.disk
    (units, { world with disk })

theorem rollbackDownload_disk (unit : IncomingUnit) (disk : Disk) :
    (unit.rollbackDownload disk).2 = unit.localPath.elim disk disk.discard := by
  unfold IncomingUnit.rollbackDownload
  cases unit.localPath <;> rfl

/-- Downloads every unit of a batch on its own drive, or none. -/
def runDownloadOn (drives : Uuid → Disk.Drive) (settings : Settings) (batch : IncomingBatch)
    (world : World σ) : Except Failure PhaseReport × IncomingBatch × World σ :=
  (downloadPlan drives settings).run batch world

/-- The job touches no file but its target, and the file that it makes is there. -/
theorem confined_deliverProgram (folder target : Path) (content : Bytes) :
    (deliverProgram folder target content).Confined (· = target)
      fun result => ∀ delivery, result = .ok delivery → delivery.path = target := by
  rintro (refusal | _)
  · exact nofun
  · refine ⟨rfl, ?_⟩
    rintro (refusal | _)
    · exact ⟨rfl, nofun⟩
    · rintro delivery ⟨⟩
      rfl

theorem tries_deliverProgram (drive : Disk.Drive) (folder target : Path) (content : Bytes)
    (disk : Disk) :
    let ran := (deliverProgram folder target content).run drive disk
    disk.Tries target ran.1.toBool ran.2 := by
  have hmade := drive.changes_makeFolders folder disk
  unfold deliverProgram
  dsimp only [Disk.Program.run]
  rcases hmake : drive.makeFolders folder disk with ⟨refusal | _, made⟩
  all_goals rw [hmake] at hmade
  · exact .after hmade (.refl target made)
  · dsimp only [Disk.Program.run]
    rcases hwrite : drive.write target content made with ⟨refusal | _, written⟩
    · exact .after hmade (.of_write_error hwrite)
    · exact .after hmade (.of_write (drive.write_ok hwrite))

theorem path_of_fetchOn {drive : Disk.Drive} {folder : Path} {request : DownloadRequest}
    {world : World σ} {delivery : Delivery}
    (h : (fetchOn drive folder request world).1 = .ok delivery) :
    delivery.path = request.targetIn folder := by
  unfold fetchOn at h
  split at h
  · cases h
  · exact (confined_deliverProgram folder (request.targetIn folder) _).answer drive _ delivery h

theorem tries_fetchOn {Kept : σ → Prop} (hservices : Aloof Kept) (drive : Disk.Drive)
    (folder : Path) (request : DownloadRequest) {world : World σ} (hkept : Kept world.services) :
    let ran := fetchOn drive folder request world
    Kept ran.2.services ∧ world.disk.Tries (request.targetIn folder) ran.1.toBool ran.2.disk := by
  have hdownload := hservices.download request.remotePath world hkept
  unfold fetchOn
  rcases hcall : Services.download request.remotePath world with ⟨failure | content, world'⟩
  all_goals rw [hcall] at hdownload
  · exact ⟨hdownload.kept, .after hdownload.changes (.refl _ world'.disk)⟩
  · exact ⟨hdownload.kept, .after hdownload.changes (tries_deliverProgram drive folder _ content _)⟩

theorem run_deliverProgram_sound (folder target : Path) (content : Bytes) (disk : Disk) :
    (deliverProgram folder target content).run .sound disk =
      deliver folder target content disk := by
  unfold deliverProgram deliver
  simp only [Disk.Program.run, Disk.Drive.sound]
  rcases disk.makeFolders folder with ⟨refusal | _, made⟩
  · rfl
  · simp only [Disk.Program.run]
    cases made.write target content <;> rfl

theorem fetchOn_sound (folder : Path) (request : DownloadRequest) (world : World σ) :
    fetchOn .sound folder request world = fetch folder request world := by
  unfold fetchOn fetch
  rcases Services.download request.remotePath world with ⟨failure | content, world'⟩
  · rfl
  · exact congrArg
      (fun ran : Except Failure Delivery × Disk => (ran.1, { world' with disk := ran.2 }))
      (run_deliverProgram_sound folder (request.targetIn folder) content world'.disk)

/-- On sound drives this is downloading. -/
theorem runDownloadOn_sound (settings : Settings) :
    runDownloadOn (σ := σ) (fun _ => .sound) settings = runDownload settings := by
  have hrun : (fun request => fetchOn .sound settings.downloadFolder request) =
      (downloadSteps (σ := σ) settings).run :=
    funext₂ fun request world => fetchOn_sound _ request world
  have hsteps : downloadStepsOn (σ := σ) (fun _ => .sound) settings = downloadSteps settings :=
    congrArg (fun run => { downloadSteps (σ := σ) settings with run }) hrun
  funext batch world
  unfold runDownloadOn Plan.run runDownload
  dsimp only [downloadPlan]
  rw [hsteps, id]
  cases requireAll .download IncomingState.received batch with
  | error failure => rfl
  | ok =>
    rcases attempt (downloadSteps settings) settings.maxConcurrentUnits.toNat batch world with
      ⟨failure | verdicts, batch, world⟩
    · rfl
    · rfl

end Download

end Phase

end PeerTransfer
