import PeerTransfer.Proofs.Batch.Tracked
import PeerTransfer.Proofs.Services.Keeping

/-!
# Copies and blobs of the sizes that units tell

A unit tells its size from when it is loaded, and its descriptor repeats it. Loading leaves a copy
of that size (`holdsCopies_runLoad`), and as long as the copies are left alone, uploads that all
succeed leave a blob of that size for every unit (`exists_blob_of_jobs`).
-/

namespace PeerTransfer

open List

/-- What the unit is copied to in the folder has as many bytes as the unit says. -/
def OutgoingUnit.HasCopy (folder : Path) (disk : Disk) (unit : OutgoingUnit) : Prop :=
  ∃ content, disk.read (unit.targetIn folder) = .ok content ∧
    unit.size = UInt64.ofNat content.length

/-- All loaded units of the batch have their copies. -/
def Batch.HoldsCopies (folder : Path) (disk : Disk) (batch : OutgoingBatch) : Prop :=
  ∀ u ∈ batch.units, u.state = .loaded → u.HasCopy folder disk

theorem OutgoingUnit.HasCopy.of_within {folder : Path} {disk disk' : Disk} {unit : OutgoingUnit}
    (h : unit.HasCopy folder disk) (hwithin : disk.FileWithin (unit.targetIn folder) disk') :
    unit.HasCopy folder disk' := by
  obtain ⟨content, hread, hsize⟩ := h
  exact ⟨content, hwithin content hread, hsize⟩

theorem Batch.HoldsCopies.of_within {folder : Path} {disk disk' : Disk} {batch : OutgoingBatch}
    (h : batch.HoldsCopies folder disk)
    (hwithin : ∀ u ∈ batch.units, u.state = .loaded →
      disk.FileWithin (u.targetIn folder) disk') : batch.HoldsCopies folder disk' :=
  fun u hu hstate => (h u hu hstate).of_within (hwithin u hu hstate)

/-- Under every path that the descriptor tells there is a blob of the size that it tells, and the
paths belong to units of its batch. -/
def Descriptor.Backed (blob? : String → Option Bytes) (descriptor : Descriptor) : Prop :=
  ∀ entry ∈ descriptor.units.entries, ∃ unit content,
    entry.2.remotePath = Phase.remotePathFor descriptor.batchId unit ∧
    blob? entry.2.remotePath = some content ∧ entry.2.size = UInt64.ofNat content.length

theorem Descriptor.Backed.of_within {blob? blob?' : String → Option Bytes}
    {descriptor : Descriptor} (h : descriptor.Backed blob?)
    (hwithin : ∀ unit content,
      blob? (Phase.remotePathFor descriptor.batchId unit) = some content →
      blob?' (Phase.remotePathFor descriptor.batchId unit) = some content) :
    descriptor.Backed blob?' := by
  intro entry hentry
  obtain ⟨unit, content, hpath, hblob, hsize⟩ := h entry hentry
  rw [hpath] at hblob
  exact ⟨unit, content, hpath, hpath ▸ hwithin unit content hblob, hsize⟩

namespace Phase

/-- A batch that is loaded holds its copies, and one that is not to be loaded keeps them. -/
theorem holdsCopies_runLoad {settings : Settings} {batch : OutgoingBatch} {disk : Disk}
    (h : batch.HoldsCopies settings.stagingFolder disk)
    (hnodup : (batch.units.map Transferable.id).Nodup)
    (hended : (runLoad settings batch disk).1 ≠ .error .panicked) :
    (runLoad settings batch disk).2.1.HoldsCopies settings.stagingFolder
      (runLoad settings batch disk).2.2 := by
  by_cases hstate : ∀ u ∈ batch.units, u.state = .picked
  · have hlimit := (of_not_panicked_runLoad hended).resolve_right (by simpa)
    obtain ⟨units, hbatch, hunits⟩ := units_runLoad hlimit disk hstate hnodup
    rw [hbatch]
    intro v hv hloaded
    obtain ⟨u, -, ⟨size, rfl⟩ | ⟨content, hread, rfl⟩⟩ := hunits v hv
    · cases hloaded
    · exact ⟨content, hread, rfl⟩
  · push Not at hstate
    obtain ⟨u, -, hrun⟩ := runLoad_of_exists settings disk hstate
    rw [hrun]
    exact h

variable {σ : Type} [Services σ] {folder : Path} (store : Keeping σ folder) {world : World σ}

/-! ## Uploads -/

theorem blobWithin_uploadCopy {request : StageRequest} {path : String}
    (hne : path ≠ request.remotePath) (hkept : store.Kept world.services) :
    BlobWithin store.blob? path world.services (uploadCopy request world).2.services := by
  unfold uploadCopy
  split
  · exact .refl _ _ _
  · next content _ =>
    have hupload := store.upload_of_ne content world hne hkept
    split
    · next h => rwa [h] at hupload
    · next h => rwa [h] at hupload

/-- An upload that succeeds has put under the remote path what the copy held. -/
theorem exists_of_uploadCopy {request : StageRequest} {size : UInt64}
    (hkept : store.Kept world.services) (h : (uploadCopy request world).1 = .ok size) :
    ∃ content, world.disk.read request.localPath = .ok content ∧
      store.blob? (uploadCopy request world).2.services request.remotePath = some content := by
  unfold uploadCopy at h ⊢
  split at h
  · cases h
  · next content hread =>
    have hupload : (Services.upload content request.remotePath world).1 = .ok () → _ :=
      store.upload world hkept
    split at h
    · cases h
    · next world' hok =>
      rw [hok] at hupload
      exact ⟨content, hread, hupload rfl⟩

/-- Uploads of units leave alone what is under the paths of others. -/
theorem blobWithin_jobs_stage {units : List OutgoingUnit} {path : String}
    (hready : ∀ u ∈ units, IsStageable u) (hne : ∀ u ∈ units, u.remotePath ≠ some path)
    (hkept : store.Kept world.services) :
    BlobWithin store.blob? path world.services (jobs stageSteps units world).2.services := by
  rw [jobs_of_ready stageLaw hready]
  refine (runAll_induction (P := fun world' : World σ => store.Kept world'.services ∧
    BlobWithin store.blob? path world.services world'.services) ?_ ⟨hkept, .refl _ _ _⟩).2
  rw [forall_mem_map]
  rintro u hu world' ⟨hkept', hblob⟩
  have hrequest : path ≠ ((stageLaw (σ := σ)).request u).remotePath := by
    obtain ⟨remotePath, hremote⟩ := Option.isSome_iff_exists.1 (hready u hu).2.2
    intro heq
    have hpath : ((stageLaw (σ := σ)).request u).remotePath = remotePath := by
      change u.remotePath.getD default = remotePath
      rw [hremote]
      rfl
    exact hne u hu (by rw [hremote, heq, hpath])
  exact ⟨(spares_uploadCopy (store.sparing u) _ hkept').kept,
    hblob.trans (blobWithin_uploadCopy store hrequest hkept')⟩

variable {units : List OutgoingUnit} {batch : String}

/-- Uploads that have all succeeded have put a blob for every unit, of as many bytes as the unit
says if its copy had as many. -/
theorem exists_blob_of_jobs (hready : ∀ u ∈ units, IsStageable u)
    (hnodup : (units.map Transferable.id).Nodup)
    (hlocal : ∀ u ∈ units, u.localPath = some (u.targetIn folder))
    (hremote : ∀ u ∈ units, u.remotePath = some (remotePathFor batch u))
    (hcopies : ∀ u ∈ units, u.HasCopy folder world.disk) (hkept : store.Kept world.services)
    (hok : failedIn (jobs stageSteps units world).1 = []) :
    ∀ u ∈ units, ∃ content,
      store.blob? (jobs stageSteps units world).2.services (remotePathFor batch u) =
        some content ∧ u.size = UInt64.ofNat content.length := by
  have hrequest (u : OutgoingUnit) (hu : u ∈ units) : (stageLaw (σ := σ)).request u =
      ⟨u.id, u.targetIn folder, remotePathFor batch u⟩ := by
    simp only [stageLaw, hlocal u hu, hremote u hu, Option.getD_some]
  obtain ⟨result, hresult⟩ := exists_result_jobs (stageLaw (σ := σ)) hready hnodup world
  have hblobs := of_jobs_ok (stageLaw (σ := σ))
    (P := fun world' => store.Kept world'.services ∧ ∀ u ∈ units, u.HasCopy folder world'.disk)
    (Q := fun u _ world' => ∃ content, store.blob? world'.services (remotePathFor batch u) =
      some content ∧ u.size = UInt64.ofNat content.length) hready hnodup
    (by
      rintro u hu world' ⟨hkept', hcopies'⟩
      have hspares (v : OutgoingUnit) := spares_uploadCopy (store.sparing v)
        ((stageLaw (σ := σ)).request u) hkept'
      exact ⟨(hspares u).kept, fun v hv => (hcopies' v hv).of_within (hspares v).file⟩)
    (by
      rintro u hu world' size ⟨hkept', hcopies'⟩ hupload
      obtain ⟨content, hread, hblob⟩ := exists_of_uploadCopy store hkept' hupload
      obtain ⟨content', hread', hsize⟩ := hcopies' u hu
      rw [hrequest u hu] at hread hblob
      obtain rfl : content' = content := Except.ok.inj (hread'.symm.trans hread)
      refine ⟨content', ?_, hsize⟩
      rw [hrequest u hu]
      exact hblob)
    (by
      rintro u hu v hv hne world' size ⟨hkept', -⟩ ⟨content, hblob, hsize⟩
      refine ⟨content, blobWithin_uploadCopy store ?_ hkept' content hblob, hsize⟩
      rw [hrequest v hv]
      exact fun heq => hne (remotePathFor_inj heq).2.symm)
    hresult hok ⟨hkept, hcopies⟩
  intro u hu
  obtain ⟨_, -, hblob⟩ := hblobs u hu
  exact hblob

/-! ## Staging -/

section Stage

variable {settings : Settings} {batch : OutgoingBatch}

/-- A batch that is not published holds its copies as before. -/
theorem holdsCopies_runStage (hsound : batch.SoundOutgoing)
    (h : batch.HoldsCopies folder world.disk) (hkept : store.Kept world.services)
    (hended : (runStage settings batch world).1 ≠ .error .panicked) :
    (runStage settings batch world).2.1.HoldsCopies folder
      (runStage settings batch world).2.2.disk := by
  rcases hsound.runStage_cases hended with ⟨failure, hrun⟩ | ⟨hstate, hends⟩
  · rw [hrun]
    exact h
  · have hready := isStageable_withRemotePaths hstate (hsound.localPath_isSome hstate)
    have hstart : (withRemotePaths batch).HoldsCopies folder
        (jobs stageSteps (withRemotePaths batch).units world).2.disk := by
      refine forall_mem_map.2 fun u hu _ => ?_
      have hspares := spares_jobs_stage (store.sparing u) hready hkept
      rw [ensureRemotePath_eq]
      exact (h u hu (hstate u hu)).of_within hspares.file
    clear hended
    generalize runStage settings batch world = ended at hends ⊢
    cases hends with
    | unitsFailed | publishFailed => exact hstart
    | published => exact forall_mem_map.2 fun u _ hloaded => nomatch hloaded

/-- After the uploads of a batch no blob is lost. -/
theorem blobWithin_of_stageEnds
    {ended : Except Failure PhaseReport × OutgoingBatch × World σ}
    (hends : StageEnds settings batch world ended)
    (hkept : store.Kept (jobs stageSteps (withRemotePaths batch).units world).2.services) :
    store.Kept ended.2.2.services ∧ ∀ path, BlobWithin store.blob? path
      (jobs stageSteps (withRemotePaths batch).units world).2.services ended.2.2.services := by
  obtain ⟨file, hsparing⟩ := store.exists_sparing
  have hpublished := And.intro (hsparing.publish (withRemotePaths batch).descriptor _ hkept)
    fun path => store.publish (withRemotePaths batch).descriptor path _ hkept
  cases hends with
  | unitsFailed => exact ⟨hkept, fun path => .refl _ path _⟩
  | publishFailed _ _ hpublish | published _ _ hpublish => rwa [hpublish] at hpublished

/-- Staging loses no blob but those of its own batch. -/
theorem blobWithin_runStage (hsound : batch.SoundOutgoing) (htracked : batch.Tracked folder)
    (hkept : store.Kept world.services)
    (hended : (runStage settings batch world).1 ≠ .error .panicked) :
    store.Kept (runStage settings batch world).2.2.services ∧
      ∀ path, (∀ u, path ≠ remotePathFor batch.id u) →
        BlobWithin store.blob? path world.services
          (runStage settings batch world).2.2.services := by
  rcases hsound.runStage_cases hended with ⟨failure, hrun⟩ | ⟨hstate, hends⟩
  · rw [hrun]
    exact ⟨hkept, fun path _ => .refl _ path _⟩
  · have hready := isStageable_withRemotePaths hstate (hsound.localPath_isSome hstate)
    obtain ⟨file, hsparing⟩ := store.exists_sparing
    have hjobs := (spares_jobs_stage hsparing hready hkept).kept
    obtain ⟨hkept', hblobs⟩ := blobWithin_of_stageEnds store hends hjobs
    refine ⟨hkept', fun path hne =>
      .trans (blobWithin_jobs_stage store hready ?_ hkept) (hblobs path)⟩
    rw [htracked.units_withRemotePaths, forall_mem_map]
    exact fun u _ heq => hne u (Option.some.inj heq).symm

/-- A batch whose uploads have all succeeded is backed by the store, if its copies were left alone
since they were made. -/
theorem backed_of_runStage (hsound : batch.SoundOutgoing) (htracked : batch.Tracked folder)
    (hcopies : batch.HoldsCopies folder world.disk) (hkept : store.Kept world.services)
    (hstate : ∀ u ∈ batch.units, u.state = .loaded)
    (hok : failedIn (jobs stageSteps (withRemotePaths batch).units world).1 = [])
    (hended : (runStage settings batch world).1 ≠ .error .panicked) :
    (withRemotePaths batch).descriptor.Backed
      (store.blob? (runStage settings batch world).2.2.services) := by
  have hlocal := hsound.localPath_isSome hstate
  have hready := isStageable_withRemotePaths hstate hlocal
  have hlimit := (of_not_panicked_runStage hsound.coherent hended).resolve_right (by simpa)
  have hends := stageEnds_runStage world hlimit hstate hlocal hsound.unit_ids
  obtain ⟨file, hsparing⟩ := store.exists_sparing
  have hjobs := (spares_jobs_stage hsparing hready hkept).kept
  have hblobs := (blobWithin_of_stageEnds store hends hjobs).2
  have hnodup := id_withRemotePaths batch ▸ hsound.unit_ids
  have hunits := htracked.units_withRemotePaths
  have hlocals : ∀ v ∈ (withRemotePaths batch).units, v.localPath = some (v.targetIn folder) := by
    rw [hunits, forall_mem_map]
    intro u hu
    obtain ⟨path, hpath⟩ := Option.isSome_iff_exists.1 (hlocal u hu)
    rw [hpath, htracked.localPath_eq u hu path hpath]
    rfl
  have hremotes : ∀ v ∈ (withRemotePaths batch).units,
      v.remotePath = some (remotePathFor batch.id v) := by
    rw [hunits, forall_mem_map]
    exact fun u _ => rfl
  have hcopies' : ∀ v ∈ (withRemotePaths batch).units, v.HasCopy folder world.disk := by
    rw [hunits, forall_mem_map]
    exact fun u hu => hcopies u hu (hstate u hu)
  have hput := exists_blob_of_jobs store hready hnodup hlocals hremotes hcopies' hkept hok
  intro entry hentry
  rw [(Batch.perm_entries_descriptor hnodup).mem_iff] at hentry
  obtain ⟨v, hv, rfl⟩ := mem_map.1 hentry
  obtain ⟨content, hblob, hsize⟩ := hput v hv
  have hpath : v.entry.2.remotePath = remotePathFor batch.id v := by
    rw [OutgoingUnit.entry, hremotes v hv]
    rfl
  exact ⟨v, content, hpath, hpath ▸ hblobs _ content hblob, hsize⟩

end Stage

/-! ## Downloads -/

theorem blobWithin_fetch (folder : Path) (request : DownloadRequest) (path : String)
    (hkept : store.Kept world.services) :
    BlobWithin store.blob? path world.services (fetch folder request world).2.services := by
  have hdownload := store.download request.remotePath path world hkept
  unfold fetch
  split
  · next h => rwa [h] at hdownload
  · next h => rwa [h] at hdownload

/-- Downloads lose no blob. -/
theorem blobWithin_runDownload (settings : Settings) (batch : IncomingBatch)
    (hkept : store.Kept world.services) :
    store.Kept (runDownload settings batch world).2.2.services ∧
      ∀ path, BlobWithin store.blob? path world.services
        (runDownload settings batch world).2.2.services := by
  obtain ⟨file, hsparing⟩ := store.exists_sparing
  unfold runDownload
  split
  · exact ⟨hkept, fun path => .refl _ path _⟩
  · have hattempt := attempt_induction (P := fun world' : World σ => store.Kept world'.services ∧
        ∀ path, BlobWithin store.blob? path world.services world'.services)
      (downloadSteps settings) settings.maxConcurrentUnits.toNat batch
      (by
        rintro _ - request _ - world' ⟨hkept', hblobs⟩
        refine ⟨kept_fetch hsparing settings.downloadFolder request hkept', fun path => ?_⟩
        exact (hblobs path).trans (blobWithin_fetch store _ request path hkept'))
      ⟨hkept, fun path => .refl _ path _⟩
    split
    · next h => rwa [h] at hattempt
    · next h =>
      rw [h] at hattempt
      split <;> exact hattempt

end Phase

end PeerTransfer
