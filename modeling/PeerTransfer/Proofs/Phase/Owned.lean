import PeerTransfer.Proofs.Batch.Tracked
import PeerTransfer.Proofs.Disk.Files
import PeerTransfer.Proofs.Services.Keeping

/-!
# Files that batches own

A local copy of a unit belongs to the unit's batch. Loading leaves no file behind but those that the
batch then owns, and staging gives up no copy without deleting it (`owned_of_runLoad`,
`owned_of_runStage`). Downloading puts files nowhere but where its units say
(`addsOnlyIf_runDownload`).
-/

namespace PeerTransfer

open List

/-! ## What stays untouched below a folder -/

/-- The location is below the folder. -/
def Path.IsAbove (folder : Path) (l : Disk.Location) : Prop :=
  folder.place <+: l ∧ l ≠ folder.place

theorem Path.exists_isAbove (folder : Path) : ∃ l, folder.IsAbove l :=
  ⟨folder.place ++ [""], prefix_append _ _, by simp⟩

section Avoids

variable {σ : Type}

/-- Nothing below the folder is touched, and its files are reached as before; `Kept` holds of the
services afterwards. -/
structure World.Avoids (Kept : σ → Prop) (folder : Path) (world world' : World σ) : Prop where
  kept : Kept world'.services
  lookup : ∀ l, folder.IsAbove l → world'.disk.lookup l = world.disk.lookup l
  leads : world.disk.LeadsOn folder world'.disk

/-- Services that touch nothing below a folder as long as `Kept` holds of their state, which it then
keeps doing. -/
structure Avoiding [Services σ] (Kept : σ → Prop) (folder : Path) : Prop where
  upload (content : Bytes) (remotePath : String) (world : World σ) : Kept world.services →
    world.Avoids Kept folder (Services.upload content remotePath world).2
  download (remotePath : String) (world : World σ) : Kept world.services →
    world.Avoids Kept folder (Services.download remotePath world).2
  publish (descriptor : Descriptor) (services : σ) : Kept services →
    Kept (Services.publish descriptor services).2
  connect (endpoint : String) (services : σ) : Kept services →
    Kept (Services.connect endpoint services).2
  disconnect (endpoint : String) (services : σ) : Kept services →
    Kept (Services.disconnect endpoint services).2
  send (endpoint : String) (payload : Bytes) (services : σ) : Kept services →
    Kept (Services.send endpoint payload services).2

/-- `Disk.AddsOnlyIf` of the disks of two worlds, and `Kept` of the services in the second. -/
structure World.AddsOnlyIf (Kept : σ → Prop) (Why : Prop) (folder : Path) (l : Disk.Location)
    (world world' : World σ) : Prop where
  kept : Kept world'.services
  disk : world.disk.AddsOnlyIf Why folder l world'.disk

variable {Kept : σ → Prop} {Why : Prop} {folder : Path} {l : Disk.Location}
  {world world' world'' : World σ}

theorem World.AddsOnlyIf.refl (hkept : Kept world.services) :
    world.AddsOnlyIf Kept Why folder l world :=
  ⟨hkept, .refl folder l world.disk⟩

theorem World.AddsOnlyIf.trans (h : world.AddsOnlyIf Kept Why folder l world')
    (h' : world'.AddsOnlyIf Kept Why folder l world'') :
    world.AddsOnlyIf Kept Why folder l world'' :=
  ⟨h'.kept, h.disk.trans h'.disk⟩

theorem World.Avoids.refl (hkept : Kept world.services) : world.Avoids Kept folder world :=
  ⟨hkept, fun _ _ => rfl, fun _ _ h => h⟩

theorem World.Avoids.addsOnlyIf (h : world.Avoids Kept folder world') (hl : folder.IsAbove l) :
    world.AddsOnlyIf Kept Why folder l world' where
  kept := h.kept
  disk := ⟨fun ⟨content, hfile⟩ => .inl ⟨content, (h.lookup l hl).symm.trans hfile⟩, h.leads⟩

/-- The store in memory touches no file, whatever calls it has fail. -/
theorem InMemory.avoiding_of_harmless (folder : Path) : Avoiding InMemory.Harmless folder where
  upload content remotePath world h := by
    rcases upload_of_harmless h content remotePath with ⟨failure, hrun⟩ | hrun
    · rw [hrun]
      exact .refl h
    · rw [hrun]
      exact ⟨h, fun _ _ => rfl, fun _ _ hlocate => hlocate⟩
  download remotePath world h := by
    rw [download_of_harmless h]
    exact .refl h
  publish := (sparing_of_harmless folder).publish
  connect := (sparing_of_harmless folder).connect
  disconnect := (sparing_of_harmless folder).disconnect
  send := (sparing_of_harmless folder).send

end Avoids

/-! ## Copies of a batch -/

namespace Batch

/-- The local copies of the units. -/
def localCopies (batch : OutgoingBatch) : List Path :=
  batch.units.filterMap (·.localPath)

/-- A local copy of one of the units leads to the location. -/
def Owns (batch : OutgoingBatch) (l : Disk.Location) : Prop :=
  ∃ copy ∈ batch.localCopies, copy.place = l

/-- Units that are staged have given up their copies. -/
def Released (batch : OutgoingBatch) : Prop :=
  ∀ u ∈ batch.units, u.state = .staged → u.localPath = none

/-- The paths of all local copies lead somewhere. -/
def Reached (disk : Disk) (batch : OutgoingBatch) : Prop :=
  ∀ copy ∈ batch.localCopies, disk.locate copy = .ok copy.place

variable {batch batch' : OutgoingBatch} {disk disk' : Disk} {folder : Path} {l : Disk.Location}

theorem mem_localCopies {copy : Path} :
    copy ∈ batch.localCopies ↔ ∃ u ∈ batch.units, u.localPath = some copy :=
  mem_filterMap

theorem localCopies_of_picked (hsound : batch.SoundOutgoing)
    (hstate : ∀ u ∈ batch.units, u.state = .picked) : batch.localCopies = [] :=
  filterMap_eq_nil_iff.2 fun u hu => (hsound.coherent u hu).localPath_eq_none (.inl (hstate u hu))

theorem not_owns_of_localCopies (h : batch.localCopies = []) : ¬batch.Owns l := by
  rintro ⟨copy, hcopy, -⟩
  rw [h] at hcopy
  cases hcopy

theorem Released.not_owns (h : batch.Released) (hstate : ∀ u ∈ batch.units, u.state = .staged) :
    ¬batch.Owns l :=
  not_owns_of_localCopies (filterMap_eq_nil_iff.2 fun u hu => h u hu (hstate u hu))

theorem Reached.of_subset (h : batch.Reached disk)
    (hcopies : batch'.localCopies ⊆ batch.localCopies) :
    batch'.Reached disk :=
  fun copy hcopy => h copy (hcopies hcopy)

/-- The copies of a tracked batch are files of the folder. -/
theorem Reached.of_leadsOn (h : batch.Reached disk) (htracked : batch.Tracked folder)
    (hleads : disk.LeadsOn folder disk') : batch.Reached disk' := by
  intro copy hcopy
  obtain ⟨u, hu, hlocal⟩ := mem_localCopies.1 hcopy
  have hpath := htracked.localPath_eq u hu copy hlocal
  have hplace := h copy hcopy
  rw [hpath] at hplace ⊢
  exact hleads _ (isPlain_storedName _ _) hplace

/-- Once all its copies are deleted, a batch has left no file where they were. -/
theorem not_owns_of_discardAll (h : batch.Reached disk)
    (hfile : (batch.localCopies.foldl Disk.discard disk).FileAt l) : ¬batch.Owns l := by
  rintro ⟨copy, hcopy, rfl⟩
  exact Disk.not_fileAt_discardAll hcopy (h copy hcopy) hfile

end Batch

namespace Phase

/-! ## Loading -/

section Load

variable {request : LoadRequest} {folder : Path} {quality : UInt8} {disk : Disk}
  {l : Disk.Location} {settings : Settings} {batch : OutgoingBatch}

/-- A job that makes no copy may make folders, and does nothing else to the disk. -/
theorem copyTo_eq_error {failure : Failure} {disk' : Disk}
    (h : request.copyTo folder quality disk = (.error failure, disk')) :
    disk' = disk ∨ disk' = (disk.makeFolders folder).2 := by
  unfold LoadRequest.copyTo at h
  dsimp only at h
  split at h
  · cases h
    exact .inl rfl
  · split at h
    · cases h
      exact .inl rfl
    · split at h
      · next hmade =>
        cases h
        exact .inr (congrArg Prod.snd hmade).symm
      · next hmade =>
        split at h
        · cases h
          exact .inr (congrArg Prod.snd hmade).symm
        · cases h

/-- A job may make folders, and it puts a file to its target just if it succeeds. -/
theorem run_cases (request : LoadRequest) (folder : Path) (quality : UInt8) (disk : Disk) :
    (∃ copy made content, (request.run folder quality disk).1 = .ok copy ∧
        copy.path = request.targetIn folder ∧ disk.makeFolders folder = (.ok (), made) ∧
        made.write copy.path content = .ok (request.run folder quality disk).2) ∨
      ∃ made, (made = disk ∨ made = (disk.makeFolders folder).2) ∧
        (request.run folder quality disk).2 = made.discard (request.targetIn folder) := by
  cases hrun : request.run folder quality disk with
  | mk result disk' =>
    cases result with
    | ok copy =>
      obtain ⟨_, normal, made, -, -, hmade, hwrite, rfl⟩ := run_eq_ok_iff.1 hrun
      exact .inl ⟨_, made, normal, rfl, rfl, hmade, hwrite⟩
    | error failure =>
      unfold LoadRequest.run at hrun
      split at hrun
      · cases hrun
      · next hcopy =>
        cases hrun
        exact .inr ⟨_, copyTo_eq_error hcopy, rfl⟩

theorem foldersWithin_run (request : LoadRequest) (folder : Path) (quality : UInt8) (disk : Disk) :
    disk.FoldersWithin (request.run folder quality disk).2 := by
  have hmade := Disk.foldersWithin_makeFolders folder disk
  rcases run_cases request folder quality disk with
    ⟨copy, made, content, -, -, hmake, hwrite⟩ | ⟨made, hmake, hdisk⟩
  · rw [hmake] at hmade
    obtain ⟨-, hfolder, hput⟩ := Disk.write_eq_ok hwrite
    rw [hput]
    exact hmade.trans (Disk.foldersWithin_put hfolder _)
  · rw [hdisk]
    refine .trans ?_ (Disk.foldersWithin_discard made _)
    rcases hmake with rfl | rfl
    · exact .refl made
    · exact hmade

/-- The job has made a copy to which the location belongs. -/
def Makes (l : Disk.Location) (result : Except Failure LocalCopy) (disk : Disk) : Prop :=
  ∃ copy, result = .ok copy ∧ copy.path.place = l ∧ disk.locate copy.path = .ok copy.path.place

theorem fileAt_of_run (h : (request.run folder quality disk).2.FileAt l) :
    disk.FileAt l ∨
      Makes l (request.run folder quality disk).1 (request.run folder quality disk).2 := by
  rcases run_cases request folder quality disk with
    ⟨copy, made, content, hok, -, hmake, hwrite⟩ | ⟨made, hmake, hdisk⟩
  · rcases Disk.FileAt.of_write hwrite h with hfile | hplace
    · have hmade : (disk.makeFolders folder).2.FileAt l := by
        rw [hmake]
        exact hfile
      exact .inl hmade.of_makeFolders
    · have hread := Disk.read_of_write hwrite
      exact .inr ⟨copy, hok, hplace, (Disk.read_eq_ok_iff.1 hread).1⟩
  · rw [hdisk] at h
    have hfile := h.of_discard
    rcases hmake with rfl | rfl
    · exact .inl hfile
    · exact .inl hfile.of_makeFolders

theorem fileAt_of_jobs_load {units : List OutgoingUnit}
    (hstate : ∀ u ∈ units, u.state = .picked)
    (h : (jobs (loadSteps settings) units disk).2.FileAt l) :
    disk.FileAt l ∨ ∃ ended ∈ (jobs (loadSteps settings) units disk).1,
      Makes l ended.2 (jobs (loadSteps settings) units disk).2 := by
  rw [jobs_of_ready (loadLaw settings) hstate] at h ⊢
  refine exists_of_runAll (P := fun disk => Disk.FileAt disk l)
    (fun _ _ _ hfile => fileAt_of_run hfile) ?_ h
  rintro request - _ disk ⟨copy, hok, hplace, hlocate⟩
  exact ⟨copy, hok, hplace, Disk.locate_of_folders (foldersWithin_run request _ _ disk) hlocate⟩

theorem rollbackLoad_disk (unit : OutgoingUnit) (disk : Disk) :
    (unit.rollbackLoad disk).2 = unit.localPath.elim disk disk.discard := by
  unfold OutgoingUnit.rollbackLoad OutgoingUnit.discardLocal
  cases unit.localPath <;> rfl

/-- Taking loading back deletes the copies of all units. -/
theorem forAll_rollbackLoad (units : List OutgoingUnit) (disk : Disk) :
    (forAll OutgoingUnit.rollbackLoad units disk).2 =
      (units.filterMap (·.localPath)).foldl Disk.discard disk :=
  forAll_discard rollbackLoad_disk units disk

theorem foldersWithin_runLoad (settings : Settings) (batch : OutgoingBatch) (disk : Disk) :
    disk.FoldersWithin (runLoad settings batch disk).2.2 := by
  have hattempt := attempt_induction (P := disk.FoldersWithin) (loadSteps settings)
    settings.maxConcurrentUnits.toNat batch
    (fun _ _ request _ _ disk' h => h.trans (foldersWithin_run request _ _ disk')) (.refl disk)
  unfold runLoad
  split
  · exact .refl disk
  · split
    · next h => rwa [h] at hattempt
    · next h =>
      rw [h] at hattempt
      split
      · exact hattempt
      · rw [forAll_rollbackLoad]
        exact hattempt.trans (Disk.foldersWithin_discardAll _ _)

/-- A file that stands somewhere once a batch was loaded is a copy that the batch owns, or it stood
there before and was none. -/
theorem owned_of_runLoad (hsound : batch.SoundOutgoing)
    (hended : (runLoad settings batch disk).1 ≠ .error .panicked)
    (h : (runLoad settings batch disk).2.2.FileAt l) :
    (runLoad settings batch disk).2.1.Owns l ∨ disk.FileAt l ∧ ¬batch.Owns l := by
  by_cases hstate : ∀ u ∈ batch.units, u.state = .picked
  · have hnone := Batch.not_owns_of_localCopies (l := l)
      (Batch.localCopies_of_picked hsound hstate)
    have hlimit := (of_not_panicked_runLoad hended).resolve_right (by simpa)
    obtain ⟨result, hresult, hrun⟩ := runLoad_of_picked hlimit disk hstate hsound.unit_ids
    rw [hrun] at h ⊢
    -- The copies of the units are those that their own jobs have made.
    have hmade {ended : Uuid × Except Failure LocalCopy} {copy : LocalCopy}
        (hended : ended ∈ (jobs (loadSteps settings) batch.units disk).1)
        (hok : ended.2 = .ok copy) : copy.path ∈ (batch.units.map fun u =>
          (loadLaw settings).settled u (result u.id)).filterMap (·.localPath) := by
      rw [hresult] at hended
      obtain ⟨u, hu, rfl⟩ := mem_map.1 hended
      refine mem_filterMap.2 ⟨_, mem_map_of_mem hu, ?_⟩
      rw [show result u.id = .ok copy from hok]
      rfl
    split_ifs at h ⊢
    · rcases fileAt_of_jobs_load hstate h with hfile | ⟨ended, hended, copy, hok, hplace, -⟩
      · exact .inr ⟨hfile, hnone⟩
      · exact .inl ⟨copy.path, hmade hended hok, hplace⟩
    · dsimp only at h
      rw [forAll_rollbackLoad] at h
      rcases fileAt_of_jobs_load hstate h.of_discardAll with
        hfile | ⟨ended, hended, copy, hok, rfl, hlocate⟩
      · exact .inr ⟨hfile, hnone⟩
      · exact absurd h (Disk.not_fileAt_discardAll (hmade hended hok) hlocate)
  · push Not at hstate
    obtain ⟨u, -, hrun⟩ := runLoad_of_exists settings disk hstate
    rw [hrun] at h ⊢
    by_cases howns : batch.Owns l
    · exact .inl howns
    · exact .inr ⟨h, howns⟩

theorem reached_runLoad (hsound : batch.SoundOutgoing) (h : batch.Reached disk)
    (hended : (runLoad settings batch disk).1 ≠ .error .panicked) :
    (runLoad settings batch disk).2.1.Reached (runLoad settings batch disk).2.2 := by
  by_cases hstate : ∀ u ∈ batch.units, u.state = .picked
  · have hlimit := (of_not_panicked_runLoad hended).resolve_right (by simpa)
    obtain ⟨units, hbatch, hunits⟩ := units_runLoad hlimit disk hstate hsound.unit_ids
    intro copy hcopy
    rw [hbatch] at hcopy
    obtain ⟨v, hv, hlocal⟩ := Batch.mem_localCopies.1 hcopy
    obtain ⟨u, -, ⟨size, rfl⟩ | ⟨content, hread, rfl⟩⟩ := hunits v hv
    · cases hlocal
    · cases hlocal
      exact (Disk.read_eq_ok_iff.1 hread).1
  · push Not at hstate
    obtain ⟨u, -, hrun⟩ := runLoad_of_exists settings disk hstate
    rw [hrun]
    exact h

theorem released_runLoad (hsound : batch.SoundOutgoing) (h : batch.Released)
    (hended : (runLoad settings batch disk).1 ≠ .error .panicked) :
    (runLoad settings batch disk).2.1.Released := by
  by_cases hstate : ∀ u ∈ batch.units, u.state = .picked
  · have hlimit := (of_not_panicked_runLoad hended).resolve_right (by simpa)
    obtain ⟨units, hbatch, hunits⟩ := units_runLoad hlimit disk hstate hsound.unit_ids
    rw [hbatch]
    intro v hv hstaged
    obtain ⟨u, -, ⟨size, rfl⟩ | ⟨content, -, rfl⟩⟩ := hunits v hv <;> cases hstaged
  · push Not at hstate
    obtain ⟨u, -, hrun⟩ := runLoad_of_exists settings disk hstate
    rw [hrun]
    exact h

end Load

variable {σ : Type} [Services σ] {Kept : σ → Prop} {Why : Prop} {folder : Path}
  {l : Disk.Location} {world : World σ} {settings : Settings}

/-! ## Staging -/

section Stage

variable {batch : OutgoingBatch}

theorem addsOnlyIf_uploadCopy (hservices : Avoiding Kept folder) (hl : folder.IsAbove l)
    (request : StageRequest) (hkept : Kept world.services) :
    world.AddsOnlyIf Kept Why folder l (uploadCopy request world).2 := by
  unfold uploadCopy
  split
  · exact .refl hkept
  · next content _ =>
    have hupload := hservices.upload content request.remotePath world hkept
    split
    · next h =>
      rw [h] at hupload
      exact hupload.addsOnlyIf hl
    · next h =>
      rw [h] at hupload
      exact hupload.addsOnlyIf hl

theorem addsOnlyIf_jobs_stage (hservices : Avoiding Kept folder) (hl : folder.IsAbove l)
    {units : List OutgoingUnit} (hready : ∀ u ∈ units, IsStageable u)
    (hkept : Kept world.services) :
    world.AddsOnlyIf Kept Why folder l (jobs stageSteps units world).2 := by
  rw [jobs_of_ready stageLaw hready]
  refine runAll_induction (P := world.AddsOnlyIf Kept Why folder l) ?_ (.refl hkept)
  exact fun request _ _ h => h.trans (addsOnlyIf_uploadCopy hservices hl request h.kept)

theorem localCopies_withRemotePaths (batch : OutgoingBatch) :
    (withRemotePaths batch).localCopies = batch.localCopies :=
  filterMap_localPath_withRemotePaths batch

theorem localCopies_handOver (batch : OutgoingBatch) (release : Bool) (reference : Option String) :
    Batch.localCopies { batch with
        reference := reference
        units := batch.units.map (handOver release) } =
      if release then [] else batch.localCopies := by
  unfold Batch.localCopies
  dsimp only
  rw [filterMap_map]
  cases release with
  | false => rfl
  | true => exact filterMap_eq_nil_iff.2 fun _ _ => rfl

/-- A staging ends with the copies as they were, or with all of them given up and deleted. -/
theorem copies_of_stageEnds {ended : Except Failure PhaseReport × OutgoingBatch × World σ}
    (hends : StageEnds settings batch world ended) :
    let ran := (jobs stageSteps (withRemotePaths batch).units world).2
    ended.2.1.localCopies = batch.localCopies ∧ ended.2.2.disk = ran.disk ∨
      ended.2.1.localCopies = [] ∧
        ended.2.2.disk = batch.localCopies.foldl Disk.discard ran.disk := by
  cases hends with
  | unitsFailed | publishFailed => exact .inl ⟨localCopies_withRemotePaths batch, rfl⟩
  | published =>
    dsimp only
    rw [localCopies_handOver, localCopies_withRemotePaths]
    split_ifs
    · exact .inr ⟨rfl, rfl⟩
    · exact .inl ⟨rfl, rfl⟩

theorem kept_of_stageEnds (hservices : Avoiding Kept folder)
    {ended : Except Failure PhaseReport × OutgoingBatch × World σ}
    (hends : StageEnds settings batch world ended)
    (hkept : Kept (jobs stageSteps (withRemotePaths batch).units world).2.services) :
    Kept ended.2.2.services := by
  have hpublished := hservices.publish (withRemotePaths batch).descriptor _ hkept
  cases hends with
  | unitsFailed => exact hkept
  | publishFailed _ _ hpublish | published _ _ hpublish => rwa [hpublish] at hpublished

/-- Staging puts no file anywhere. -/
theorem addsOnlyIf_runStage (hservices : Avoiding Kept folder) (hl : folder.IsAbove l)
    (hsound : batch.SoundOutgoing) (hkept : Kept world.services)
    (hended : (runStage settings batch world).1 ≠ .error .panicked) :
    world.AddsOnlyIf Kept Why folder l (runStage settings batch world).2.2 := by
  rcases hsound.runStage_cases hended with ⟨failure, hrun⟩ | ⟨hstate, hends⟩
  · rw [hrun]
    exact .refl hkept
  · have hready := isStageable_withRemotePaths hstate (hsound.localPath_isSome hstate)
    have hjobs : world.AddsOnlyIf Kept Why folder l _ :=
      addsOnlyIf_jobs_stage hservices hl hready hkept
    refine ⟨kept_of_stageEnds hservices hends hjobs.kept, ?_⟩
    rcases copies_of_stageEnds hends with ⟨-, hdisk⟩ | ⟨-, hdisk⟩
    · rw [hdisk]
      exact hjobs.disk
    · rw [hdisk]
      exact hjobs.disk.trans (.discardAll _ _)

/-- A file that stands somewhere once a batch was staged stood there before; if it was a copy of the
batch, it still is. -/
theorem owned_of_runStage (hservices : Avoiding Kept folder) (hl : folder.IsAbove l)
    (hsound : batch.SoundOutgoing) (htracked : batch.Tracked folder)
    (hreached : batch.Reached world.disk) (hkept : Kept world.services)
    (hended : (runStage settings batch world).1 ≠ .error .panicked)
    (h : (runStage settings batch world).2.2.disk.FileAt l) :
    (runStage settings batch world).2.1.Owns l ∨ world.disk.FileAt l ∧ ¬batch.Owns l := by
  have hbefore : world.disk.FileAt l :=
    ((addsOnlyIf_runStage hservices hl hsound hkept hended).disk.file h).resolve_right not_false
  by_cases howns : batch.Owns l
  · refine .inl ?_
    rcases hsound.runStage_cases hended with ⟨failure, hrun⟩ | ⟨hstate, hends⟩
    · rw [hrun]
      exact howns
    · have hready := isStageable_withRemotePaths hstate (hsound.localPath_isSome hstate)
      have hjobs : world.AddsOnlyIf Kept False folder l _ :=
        addsOnlyIf_jobs_stage hservices hl hready hkept
      rcases copies_of_stageEnds hends with ⟨hcopies, -⟩ | ⟨-, hdisk⟩
      · unfold Batch.Owns
        rw [hcopies]
        exact howns
      · rw [hdisk] at h
        have hran := hreached.of_leadsOn htracked hjobs.disk.leads
        exact absurd howns (Batch.not_owns_of_discardAll hran h)
  · exact .inr ⟨hbefore, howns⟩

theorem localCopies_runStage (hsound : batch.SoundOutgoing)
    (hended : (runStage settings batch world).1 ≠ .error .panicked) :
    (runStage settings batch world).2.1.localCopies ⊆ batch.localCopies := by
  rcases hsound.runStage_cases hended with ⟨failure, hrun⟩ | ⟨-, hends⟩
  · rw [hrun]
    exact Subset.refl _
  · rcases copies_of_stageEnds hends with ⟨hcopies, -⟩ | ⟨hcopies, -⟩
    · rw [hcopies]
      exact Subset.refl _
    · rw [hcopies]
      exact nil_subset _

theorem released_runStage (hrelease : settings.releaseAfterStage = true)
    (hsound : batch.SoundOutgoing) (h : batch.Released)
    (hended : (runStage settings batch world).1 ≠ .error .panicked) :
    (runStage settings batch world).2.1.Released := by
  rcases hsound.runStage_cases hended with ⟨failure, hrun⟩ | ⟨hstate, hends⟩
  · rw [hrun]
    exact h
  · have hloaded : (withRemotePaths batch).Released := by
      refine forall_mem_map.2 fun u hu hstaged => ?_
      rw [ensureRemotePath_eq] at hstaged
      cases (hstate u hu).symm.trans hstaged
    clear hended
    generalize runStage settings batch world = ended at hends ⊢
    cases hends with
    | unitsFailed | publishFailed => exact hloaded
    | published => exact forall_mem_map.2 fun u _ _ => if_pos hrelease

end Stage

/-! ## Downloading -/

section Download

variable {batch : IncomingBatch}

theorem addsOnlyIf_deliver {target : Path} (hwhy : target.place = l → Why) (folder' : Path)
    (content : Bytes) (disk : Disk) :
    disk.AddsOnlyIf Why folder l (deliver folder' target content disk).2 := by
  have hmade : disk.AddsOnlyIf Why folder l _ := .makeFolders folder' disk
  unfold deliver
  split
  · next h => rwa [h] at hmade
  · next h =>
    rw [h] at hmade
    split
    · exact hmade.trans (.discard _ target)
    · next hwrite => exact hmade.trans (.write hwrite hwhy)

theorem addsOnlyIf_fetch (hservices : Avoiding Kept folder) (hl : folder.IsAbove l)
    {folder' : Path} {request : DownloadRequest}
    (hwhy : (request.targetIn folder').place = l → Why) (hkept : Kept world.services) :
    world.AddsOnlyIf Kept Why folder l (fetch folder' request world).2 := by
  have hdownload := hservices.download request.remotePath world hkept
  unfold fetch
  split
  · next h =>
    rw [h] at hdownload
    exact hdownload.addsOnlyIf hl
  · next content world' h =>
    rw [h] at hdownload
    refine ⟨hdownload.kept, (hdownload.addsOnlyIf hl).disk.trans ?_⟩
    exact addsOnlyIf_deliver hwhy folder' content world'.disk

theorem addsOnlyIf_rollbackDownload (unit : IncomingUnit) (disk : Disk) :
    disk.AddsOnlyIf Why folder l (unit.rollbackDownload disk).2 := by
  unfold IncomingUnit.rollbackDownload
  split
  · exact .refl folder l disk
  · exact .discard disk _

/-- Downloading puts a file nowhere but where one of its units is downloaded to. -/
theorem addsOnlyIf_runDownload (hservices : Avoiding Kept folder) (hl : folder.IsAbove l)
    (settings : Settings) (batch : IncomingBatch)
    (hwhy : ∀ u ∈ batch.units, u.state = .received →
      (u.targetIn settings.downloadFolder).place = l → Why) (hkept : Kept world.services) :
    world.AddsOnlyIf Kept Why folder l (runDownload settings batch world).2.2 := by
  unfold runDownload
  split
  · exact .refl hkept
  · next hrequire =>
    have hstate := forall_of_requireAll hrequire
    have hworld := attempt_induction (P := world.AddsOnlyIf Kept Why folder l)
      (downloadSteps settings) settings.maxConcurrentUnits.toNat batch
      (by
        intro u hu request u' hbegin world' hadds
        refine hadds.trans (addsOnlyIf_fetch hservices hl ?_ hadds.kept)
        rw [(targetIn_of_beginDownload hbegin _).1]
        exact hwhy u hu (hstate u hu))
      (.refl hkept)
    split
    · next h => rwa [h] at hworld
    · next h =>
      rw [h] at hworld
      split
      · exact hworld
      · refine ⟨hworld.kept, forAll_induction (P := world.disk.AddsOnlyIf Why folder l) ?_
          hworld.disk⟩
        exact fun u _ disk hdisk => hdisk.trans (addsOnlyIf_rollbackDownload u disk)

end Download

end Phase

end PeerTransfer
