import PeerTransfer.Phase.Download
import PeerTransfer.Phase.Load
import PeerTransfer.Phase.Stage
import PeerTransfer.Proofs.Batch.Announced
import PeerTransfer.Proofs.Phase.Attempt

/-!
# How a phase ends

The laws of the three phases, and what each phase comes to on a batch whose units are ready for it
and have ids of their own (`runLoad_of_picked`, `runStage_of_loaded`, `runDownload_of_received`).
Which of its ends a phase takes is told by the jobs that failed, as long as the limit leaves the
semaphore its permits; past that the phase panics with every unit begun.
-/

namespace PeerTransfer.Phase

open List

/-! ## The laws of the phases -/

/-- Loading, for picked units. -/
def loadLaw (settings : Settings) : (loadSteps settings).Law (·.state = .picked) where
  request u := ⟨u.id, u.source, u.contentType⟩
  begun u := { u with state := .loading }
  completed u copy := { u with localPath := some copy.path, size := copy.size, state := .loaded }
  failed u := { u with localPath := none, state := .picked }
  start_eq h := if_pos h
  complete_eq _ _ := rfl
  fail_eq _ := rfl
  unit_request _ := rfl
  id_begun _ := rfl
  id_completed _ _ := rfl
  id_failed _ := rfl
  label_completed _ _ := rfl
  label_failed _ := rfl

/-- A unit that can be staged. -/
def IsStageable (unit : OutgoingUnit) : Prop :=
  unit.state = .loaded ∧ unit.localPath.isSome ∧ unit.remotePath.isSome

/-- Staging, for loaded units with both their paths. -/
def stageLaw {σ : Type} [Services σ] : (stageSteps (σ := σ)).Law IsStageable where
  request u := ⟨u.id, u.localPath.getD default, u.remotePath.getD default⟩
  begun u := { u with state := .staging }
  completed u _ := { u with state := .staged }
  failed u := { u with state := .loaded }
  start_eq := by
    rintro u ⟨hstate, hlocal, hremote⟩
    obtain ⟨localPath, hlocal⟩ := Option.isSome_iff_exists.1 hlocal
    obtain ⟨remotePath, hremote⟩ := Option.isSome_iff_exists.1 hremote
    simp only [stageSteps, OutgoingUnit.beginStage, hstate, hlocal, hremote, if_true,
      Option.getD_some]
  complete_eq _ _ := rfl
  fail_eq _ := rfl
  unit_request _ := rfl
  id_begun _ := rfl
  id_completed _ _ := rfl
  id_failed _ := rfl
  label_completed _ _ := rfl
  label_failed _ := rfl

/-- Downloading, for received units. -/
def downloadLaw {σ : Type} [Services σ] (settings : Settings) :
    (downloadSteps (σ := σ) settings).Law (·.state = .received) where
  request u := ⟨u.id, u.remotePath, u.contentType⟩
  begun u := { u with state := .downloading }
  completed u delivery := { u with localPath := some delivery.path, state := .downloaded }
  failed u := { u with state := .received }
  start_eq h := if_pos h
  complete_eq _ _ := rfl
  fail_eq _ := rfl
  unit_request _ := rfl
  id_begun _ := rfl
  id_completed _ _ := rfl
  id_failed _ := rfl
  label_completed _ _ := rfl
  label_failed _ := rfl

/-! ## Whether a phase begins -/

section RequireAll

variable {U S : Type} [Transferable U S] [Progress S] [DecidableEq S] {phase : Phase} {required : S}
  {batch : Batch U}

theorem requireAll_of_forall (h : ∀ u ∈ batch.units, Transferable.state u = required) :
    requireAll phase required batch = .ok () := by
  have hnone : batch.units.find? (Transferable.state · ≠ required) = none :=
    find?_eq_none.2 fun u hu => by simpa using h u hu
  unfold requireAll
  rw [hnone]

/-- A phase that does not begin names a unit that is not where the phase starts from. -/
theorem requireAll_of_exists (phase : Phase)
    (h : ∃ u ∈ batch.units, Transferable.state u ≠ required) :
    ∃ u ∈ batch.units, requireAll phase required batch =
      .error (.phaseConflict phase batch.id (Transferable.id u)
        (Progress.name (Transferable.state u))) := by
  obtain ⟨v, hv, hne⟩ := h
  have hsome : (batch.units.find? (Transferable.state · ≠ required)).isSome :=
    find?_isSome.2 ⟨v, hv, decide_eq_true hne⟩
  obtain ⟨u, hu⟩ := Option.isSome_iff_exists.1 hsome
  refine ⟨u, mem_of_find?_eq_some hu, ?_⟩
  unfold requireAll
  rw [hu]

end RequireAll

/-! ## Which jobs failed -/

section Failed

variable {U S α : Type} [Transferable U S]

/-- The ids under which failures stand. -/
def failedIn (results : List (Uuid × Except Failure α)) : List Uuid :=
  (results.filter fun result => !result.2.toBool).map Prod.fst

theorem mem_failedIn {results : List (Uuid × Except Failure α)} {id : Uuid} :
    id ∈ failedIn results ↔ ∃ failure, (id, .error failure) ∈ results := by
  simp only [failedIn, mem_map, mem_filter]
  constructor
  · rintro ⟨⟨id, _ | failure⟩, ⟨hmem, hfailed⟩, rfl⟩
    · exact ⟨_, hmem⟩
    · simp [Except.toBool] at hfailed
  · rintro ⟨failure, hmem⟩
    exact ⟨_, ⟨hmem, rfl⟩, rfl⟩

theorem failedIn_eq_nil_iff {results : List (Uuid × Except Failure α)} :
    failedIn results = [] ↔ ∀ result ∈ results, ∃ a, result.2 = .ok a := by
  simp only [failedIn, map_eq_nil_iff, filter_eq_nil_iff]
  apply forall₂_congr
  intro result _
  cases result.2 <;> simp [Except.toBool]

theorem nodup_failedIn {results : List (Uuid × Except Failure α)}
    (h : (results.map Prod.fst).Nodup) : (failedIn results).Nodup :=
  h.sublist (filter_sublist.map _)

theorem failed_told (units : List U) (result : Uuid → Except Failure α) :
    Verdict.failed (told units result) =
      failedIn (units.map fun u => (Transferable.id u, result (Transferable.id u))) := by
  induction units with
  | nil => rfl
  | cons u units ih =>
    simp only [told, Verdict.failed, failedIn, map_cons, filter_cons, Verdict.isFailure] at ih ⊢
    cases h : result (Transferable.id u) with
    | ok a => simpa [Except.toBool] using ih
    | error failure => simpa [Except.toBool] using ih

end Failed

/-! ## The ends of each phase -/

/-- Loading does not begin with a unit that is not picked, and then changes nothing. -/
theorem runLoad_of_exists (settings : Settings) {batch : OutgoingBatch} (disk : Disk)
    (h : ∃ u ∈ batch.units, u.state ≠ .picked) :
    ∃ u ∈ batch.units, runLoad settings batch disk =
      (.error (.phaseConflict .load batch.id u.id (Progress.name u.state)), batch, disk) := by
  obtain ⟨u, hu, hrequire⟩ := requireAll_of_exists .load h
  refine ⟨u, hu, ?_⟩
  unfold runLoad
  rw [hrequire]
  rfl

/-- Loading never gets to the first job where no semaphore has permits for so many at a time. -/
theorem runLoad_of_lt {settings : Settings}
    (hlimit : maxPermits < settings.maxConcurrentUnits.toNat) (batch : OutgoingBatch)
    (disk : Disk) :
    ∃ failure units,
      runLoad settings batch disk = (.error failure, { batch with units }, disk) := by
  unfold runLoad
  split
  · next failure _ => exact ⟨failure, batch.units, rfl⟩
  · obtain ⟨failure, hattempt⟩ := attempt_of_lt (loadSteps settings) hlimit batch disk
    rw [hattempt]
    exact ⟨failure, _, rfl⟩

theorem runLoad_of_lt_of_picked {settings : Settings}
    (hlimit : maxPermits < settings.maxConcurrentUnits.toNat) {batch : OutgoingBatch} (disk : Disk)
    (hstate : ∀ u ∈ batch.units, u.state = .picked) :
    runLoad settings batch disk =
      (.error .panicked,
        { batch with units := batch.units.map fun u => { u with state := .loading } }, disk) := by
  have hrequire : requireAll .load OutgoingState.picked batch = .ok () :=
    requireAll_of_forall hstate
  unfold runLoad
  rw [hrequire, attempt_of_lt_of_ready (loadLaw settings) hlimit hstate]
  rfl

theorem le_maxPermits_of_runLoad {settings : Settings} {batch : OutgoingBatch} {disk : Disk}
    {report : PhaseReport} (h : (runLoad settings batch disk).1 = .ok report) :
    settings.maxConcurrentUnits.toNat ≤ maxPermits := by
  by_contra hlimit
  obtain ⟨failure, units, hrun⟩ := runLoad_of_lt (not_le.1 hlimit) batch disk
  rw [hrun] at h
  cases h

/-- Loading ends in copies for all units, or is taken back. -/
theorem runLoad_of_picked {settings : Settings}
    (hlimit : settings.maxConcurrentUnits.toNat ≤ maxPermits) {batch : OutgoingBatch} (disk : Disk)
    (hstate : ∀ u ∈ batch.units, u.state = .picked)
    (hnodup : (batch.units.map Transferable.id).Nodup) :
    ∃ result : Uuid → Except Failure LocalCopy,
      let ran := jobs (loadSteps settings) batch.units disk
      let units := batch.units.map fun u => (loadLaw settings).settled u (result u.id)
      ran.1 = batch.units.map (fun u => (u.id, result u.id)) ∧
      runLoad settings batch disk =
        if failedIn ran.1 = [] then (.ok ⟨.advanced, []⟩, { batch with units }, ran.2)
        else (.ok ⟨.unitsFailed (failedIn ran.1), []⟩,
          { batch with units := (forAll OutgoingUnit.rollbackLoad units ran.2).1 },
          (forAll OutgoingUnit.rollbackLoad units ran.2).2) := by
  obtain ⟨result, hresult, hattempt⟩ :=
    attempt_of_ready (loadLaw settings) hlimit disk hstate hnodup
  have hrequire : requireAll .load OutgoingState.picked batch = .ok () :=
    requireAll_of_forall hstate
  have hfailed : Verdict.failed (told batch.units result) =
      failedIn (jobs (loadSteps settings) batch.units disk).1 := by
    rw [failed_told, hresult]
  refine ⟨result, hresult, ?_⟩
  unfold runLoad
  simp only [hrequire, hattempt, hfailed]
  split_ifs with hnil
  · rw [hnil]
    rfl
  · split
    · next h => exact absurd h hnil
    · rfl

section Download

variable {σ : Type} [Services σ]

theorem runDownload_of_lt {settings : Settings}
    (hlimit : maxPermits < settings.maxConcurrentUnits.toNat) (batch : IncomingBatch)
    (world : World σ) :
    ∃ failure units,
      runDownload settings batch world = (.error failure, { batch with units }, world) := by
  unfold runDownload
  split
  · next failure _ => exact ⟨failure, batch.units, rfl⟩
  · obtain ⟨failure, hattempt⟩ := attempt_of_lt (downloadSteps settings) hlimit batch world
    rw [hattempt]
    exact ⟨failure, _, rfl⟩

theorem runDownload_of_lt_of_received {settings : Settings}
    (hlimit : maxPermits < settings.maxConcurrentUnits.toNat) {batch : IncomingBatch}
    (world : World σ) (hstate : ∀ u ∈ batch.units, u.state = .received) :
    runDownload settings batch world =
      (.error .panicked,
        { batch with units := batch.units.map fun u => { u with state := .downloading } },
        world) := by
  have hrequire : requireAll .download IncomingState.received batch = .ok () :=
    requireAll_of_forall hstate
  unfold runDownload
  rw [hrequire, attempt_of_lt_of_ready (downloadLaw settings) hlimit hstate]
  rfl

theorem le_maxPermits_of_runDownload {settings : Settings} {batch : IncomingBatch}
    {world : World σ} {report : PhaseReport}
    (h : (runDownload settings batch world).1 = .ok report) :
    settings.maxConcurrentUnits.toNat ≤ maxPermits := by
  by_contra hlimit
  obtain ⟨failure, units, hrun⟩ := runDownload_of_lt (not_le.1 hlimit) batch world
  rw [hrun] at h
  cases h

/-- Downloading ends in files for all units, or is taken back. -/
theorem runDownload_of_received {settings : Settings}
    (hlimit : settings.maxConcurrentUnits.toNat ≤ maxPermits) {batch : IncomingBatch}
    (world : World σ) (hstate : ∀ u ∈ batch.units, u.state = .received)
    (hnodup : (batch.units.map Transferable.id).Nodup) :
    ∃ result : Uuid → Except Failure Delivery,
      let ran := jobs (downloadSteps settings) batch.units world
      let units := batch.units.map fun u => (downloadLaw (σ := σ) settings).settled u (result u.id)
      let entries := (told batch.units result).map (Verdict.entry .download Delivery.size)
      ran.1 = batch.units.map (fun u => (u.id, result u.id)) ∧
      runDownload settings batch world =
        if failedIn ran.1 = [] then (.ok ⟨.advanced, entries⟩, { batch with units }, ran.2)
        else (.ok ⟨.unitsFailed (failedIn ran.1), entries⟩,
          { batch with units := (forAll IncomingUnit.rollbackDownload units ran.2.disk).1 },
          { ran.2 with disk := (forAll IncomingUnit.rollbackDownload units ran.2.disk).2 }) := by
  obtain ⟨result, hresult, hattempt⟩ := attempt_of_ready (downloadLaw settings) hlimit world hstate
    hnodup
  have hrequire : requireAll .download IncomingState.received batch = .ok () :=
    requireAll_of_forall hstate
  have hfailed : Verdict.failed (told batch.units result) =
      failedIn (jobs (downloadSteps settings) batch.units world).1 := by
    rw [failed_told, hresult]
  refine ⟨result, hresult, ?_⟩
  unfold runDownload
  simp only [hrequire, hattempt, hfailed]
  split_ifs with hnil
  · rw [hnil]
    rfl
  · split
    · next h => exact absurd h hnil
    · rfl

end Download

/-! ### Staging -/

theorem ensureRemotePath_eq (batch : String) (unit : OutgoingUnit) :
    ensureRemotePath batch unit =
      { unit with remotePath := some (unit.remotePath.getD (remotePathFor batch unit)) } := by
  obtain ⟨_, _, _, remotePath, _, _, _⟩ := unit
  cases remotePath <;> rfl

theorem isStageable_ensureRemotePath {unit : OutgoingUnit} (hstate : unit.state = .loaded)
    (hlocal : unit.localPath.isSome) (batch : String) :
    IsStageable (ensureRemotePath batch unit) := by
  rw [ensureRemotePath_eq]
  exact ⟨hstate, hlocal, rfl⟩

/-- A batch whose units have the remote paths that they are staged to. -/
def withRemotePaths (batch : OutgoingBatch) : OutgoingBatch :=
  { batch with units := batch.units.map (ensureRemotePath batch.id) }

theorem id_withRemotePaths (batch : OutgoingBatch) :
    (withRemotePaths batch).units.map Transferable.id = batch.units.map Transferable.id := by
  rw [withRemotePaths, map_map]
  exact map_congr_left fun u _ => by rw [Function.comp_apply, ensureRemotePath_eq]; rfl

theorem isStageable_withRemotePaths {batch : OutgoingBatch}
    (hstate : ∀ u ∈ batch.units, u.state = .loaded)
    (hlocal : ∀ u ∈ batch.units, u.localPath.isSome) :
    ∀ u ∈ (withRemotePaths batch).units, IsStageable u :=
  forall_mem_map.2 fun u hu => isStageable_ensureRemotePath (hstate u hu) (hlocal u hu) batch.id

theorem filterMap_localPath_withRemotePaths (batch : OutgoingBatch) :
    (withRemotePaths batch).units.filterMap (·.localPath) =
      batch.units.filterMap (·.localPath) := by
  rw [withRemotePaths, filterMap_map]
  refine filterMap_congr fun u _ => ?_
  simp only [Function.comp_apply, ensureRemotePath_eq]

section Stage

variable {σ : Type} [Services σ]

/-- Why the registry refuses a batch, if it does. -/
def refusal (batch : OutgoingBatch) (world : World σ) : Option Failure :=
  match batch.describe with
  | .error failure => some failure
  | .ok descriptor =>
    match (Services.publish descriptor world.services).1 with
    | .ok _ => none
    | .error cause => some cause

/-- Staging does not begin with a unit that is not loaded, and then changes nothing. -/
theorem runStage_of_exists (settings : Settings) {batch : OutgoingBatch} (world : World σ)
    (h : ∃ u ∈ batch.units, u.state ≠ .loaded) :
    ∃ u ∈ batch.units, runStage settings batch world =
      (.error (.phaseConflict .stage batch.id u.id (Progress.name u.state)), batch, world) := by
  obtain ⟨u, hu, hrequire⟩ := requireAll_of_exists .stage h
  refine ⟨u, hu, ?_⟩
  unfold runStage
  rw [hrequire]
  rfl

theorem runStage_of_lt {settings : Settings}
    (hlimit : maxPermits < settings.maxConcurrentUnits.toNat) (batch : OutgoingBatch)
    (world : World σ) :
    ∃ failure units,
      runStage settings batch world = (.error failure, { batch with units }, world) := by
  unfold runStage
  split
  · next failure _ => exact ⟨failure, batch.units, rfl⟩
  · dsimp only
    rw [← withRemotePaths]
    obtain ⟨failure, hattempt⟩ := attempt_of_lt stageSteps hlimit (withRemotePaths batch) world
    rw [hattempt]
    exact ⟨failure, _, rfl⟩

theorem runStage_of_lt_of_loaded {settings : Settings}
    (hlimit : maxPermits < settings.maxConcurrentUnits.toNat) {batch : OutgoingBatch}
    (world : World σ) (hstate : ∀ u ∈ batch.units, u.state = .loaded)
    (hlocal : ∀ u ∈ batch.units, u.localPath.isSome) :
    runStage settings batch world =
      (.error .panicked,
        { batch with
          units := (withRemotePaths batch).units.map fun u => { u with state := .staging } },
        world) := by
  have hrequire : requireAll .stage OutgoingState.loaded batch = .ok () :=
    requireAll_of_forall hstate
  have hready := isStageable_withRemotePaths hstate hlocal
  unfold runStage
  rw [hrequire]
  dsimp only
  rw [← withRemotePaths, attempt_of_lt_of_ready (stageLaw (σ := σ)) hlimit hready]
  rfl

theorem le_maxPermits_of_runStage {settings : Settings} {batch : OutgoingBatch} {world : World σ}
    {report : PhaseReport} (h : (runStage settings batch world).1 = .ok report) :
    settings.maxConcurrentUnits.toNat ≤ maxPermits := by
  by_contra hlimit
  obtain ⟨failure, units, hrun⟩ := runStage_of_lt (not_le.1 hlimit) batch world
  rw [hrun] at h
  cases h

/-- Staging ends with a published batch, or is taken back. -/
theorem runStage_of_loaded {settings : Settings}
    (hlimit : settings.maxConcurrentUnits.toNat ≤ maxPermits) {batch : OutgoingBatch}
    (world : World σ) (hstate : ∀ u ∈ batch.units, u.state = .loaded)
    (hlocal : ∀ u ∈ batch.units, u.localPath.isSome)
    (hnodup : (batch.units.map Transferable.id).Nodup) :
    ∃ result : Uuid → Except Failure UInt64,
      let start := withRemotePaths batch
      let ran := jobs stageSteps start.units world
      let staged := { start with
        units := start.units.map fun u => (stageLaw (σ := σ)).settled u (result u.id) }
      let entries := (told start.units result).map (Verdict.entry .upload id)
      ran.1 = start.units.map (fun u => (u.id, result u.id)) ∧
      runStage settings batch world =
        if failedIn ran.1 = [] then publish settings entries staged ran.2
        else (.ok ⟨.unitsFailed (failedIn ran.1), entries⟩, rollbackStaging staged, ran.2) := by
  have hready := isStageable_withRemotePaths hstate hlocal
  obtain ⟨result, hresult, hattempt⟩ := attempt_of_ready (stageLaw (σ := σ)) hlimit world hready
    (id_withRemotePaths batch ▸ hnodup)
  have hrequire : requireAll .stage OutgoingState.loaded batch = .ok () :=
    requireAll_of_forall hstate
  have hfailed : Verdict.failed (told (withRemotePaths batch).units result) =
      failedIn (jobs stageSteps (withRemotePaths batch).units world).1 := by
    rw [failed_told, hresult]
  refine ⟨result, hresult, ?_⟩
  unfold runStage
  simp only [hrequire]
  rw [← withRemotePaths]
  simp only [hattempt, hfailed]
  split_ifs with hnil
  · rw [hnil]
    rfl
  · split
    · next h => exact absurd h hnil
    · rfl

theorem describe_settled (unit : OutgoingUnit) (result : Except Failure UInt64) :
    ((stageLaw (σ := σ)).settled unit result).describe = unit.describe := by
  cases result <;> rfl

theorem publish_of_refusal (settings : Settings) (entries : List JournalEntry)
    {batch : OutgoingBatch} {world : World σ} {cause : Failure}
    (hpaths : ∀ u ∈ batch.units, u.remotePath.isSome) (h : refusal batch world = some cause) :
    ∃ services, publish settings entries batch world =
      (.ok ⟨.publishFailed cause, entries⟩, rollbackStaging batch, { world with services }) := by
  have hdescribe := Batch.describe_eq_ok hpaths
  unfold refusal at h
  unfold publish
  simp only [hdescribe] at h ⊢
  cases hpublish : Services.publish batch.descriptor world.services with
  | mk answer services =>
    cases answer with
    | ok reference => simp [hpublish] at h
    | error failure =>
      simp only [hpublish, Option.some.injEq] at h
      exact ⟨services, by rw [h]⟩

/-- A batch that the registry takes keeps the reference, and gives up its copies if it is to. -/
theorem publish_of_published (settings : Settings) (entries : List JournalEntry)
    {batch : OutgoingBatch} {world : World σ} {descriptor : Descriptor} {reference : String}
    {services : σ} (hdescribe : batch.describe = .ok descriptor)
    (hpublish : Services.publish descriptor world.services = (.ok reference, services)) :
    publish settings entries batch world =
      (.ok ⟨.advanced, entries⟩,
        { batch with
          reference := some reference
          units := if settings.releaseAfterStage
            then (forAll releaseCopy batch.units world.disk).1 else batch.units },
        { disk := if settings.releaseAfterStage
            then (forAll releaseCopy batch.units world.disk).2 else world.disk
          services }) := by
  unfold publish
  rw [hdescribe]
  dsimp only
  rw [hpublish]
  dsimp only
  cases settings.releaseAfterStage with
  | true => rfl
  | false => rfl

theorem publish_of_no_refusal (settings : Settings) (entries : List JournalEntry)
    {batch : OutgoingBatch} {world : World σ} (h : refusal batch world = none) :
    ∃ reference services, publish settings entries batch world =
      (.ok ⟨.advanced, entries⟩,
        { batch with
          reference := some reference
          units := if settings.releaseAfterStage
            then (forAll releaseCopy batch.units world.disk).1 else batch.units },
        { disk := if settings.releaseAfterStage
            then (forAll releaseCopy batch.units world.disk).2 else world.disk
          services }) := by
  unfold refusal at h
  cases hdescribe : batch.describe with
  | error failure => simp [hdescribe] at h
  | ok descriptor =>
    cases hpublish : Services.publish descriptor world.services with
    | mk answer services =>
      cases answer with
      | error failure => simp [hdescribe, hpublish] at h
      | ok reference =>
        exact ⟨reference, services, publish_of_published settings entries hdescribe hpublish⟩

end Stage

end PeerTransfer.Phase
