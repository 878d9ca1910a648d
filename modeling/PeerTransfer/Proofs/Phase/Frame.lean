import PeerTransfer.Proofs.Phase.AllOrNothing
import PeerTransfer.Proofs.Phase.Jobs
import PeerTransfer.Proofs.Unit.Target

/-!
# What phases leave of a file

A phase writes and deletes the files of its own units and no others, whatever becomes of its jobs
(`fileWithin_runLoad`, `spares_runStage`, `spares_runDownload`). A download that has advanced leaves
in the file of each unit what the store has answered for it (`read_of_advanced`).
-/

namespace PeerTransfer

open List

/-! ## Services that leave a file alone -/

section Spares

variable {σ : Type}

/-- A file is the same in both worlds, if it can be read in the first; `Kept` holds of the services
in the second. -/
structure World.Spares (Kept : σ → Prop) (path : Path) (world world' : World σ) : Prop where
  kept : Kept world'.services
  file : world.disk.FileWithin path world'.disk

/-- Services that leave a file alone as long as `Kept` holds of their state, which it then keeps
doing. -/
structure Sparing [Services σ] (Kept : σ → Prop) (path : Path) : Prop where
  upload (content : Bytes) (remotePath : String) (world : World σ) : Kept world.services →
    world.Spares Kept path (Services.upload content remotePath world).2
  download (remotePath : String) (world : World σ) : Kept world.services →
    world.Spares Kept path (Services.download remotePath world).2
  publish (descriptor : Descriptor) (services : σ) : Kept services →
    Kept (Services.publish descriptor services).2
  connect (endpoint : String) (services : σ) : Kept services →
    Kept (Services.connect endpoint services).2
  disconnect (endpoint : String) (services : σ) : Kept services →
    Kept (Services.disconnect endpoint services).2
  send (endpoint : String) (payload : Bytes) (services : σ) : Kept services →
    Kept (Services.send endpoint payload services).2

variable {Kept : σ → Prop} {path : Path} {world world' world'' : World σ}

theorem World.Spares.refl (hkept : Kept world.services) : world.Spares Kept path world :=
  ⟨hkept, .refl world.disk path⟩

theorem World.Spares.trans (h : world.Spares Kept path world')
    (h' : world'.Spares Kept path world'') : world.Spares Kept path world'' :=
  ⟨h'.kept, h.file.trans h'.file⟩

end Spares

namespace Phase

section Load

variable {path : Path} {unit : OutgoingUnit}

/-- A job that makes a copy has read the source, and has written its normal form to the target. -/
theorem run_eq_ok_iff {request : LoadRequest} {folder : Path} {quality : UInt8} {disk disk' : Disk}
    {copy : LocalCopy} :
    request.run folder quality disk = (.ok copy, disk') ↔
      ∃ content normal made, disk.read request.source = .ok content ∧
        Image.normalize request.contentType content quality = .ok normal ∧
        disk.makeFolders folder = (.ok (), made) ∧
        made.write (request.targetIn folder) normal = .ok disk' ∧
        copy = ⟨request.targetIn folder, UInt64.ofNat normal.length⟩ := by
  have hrun : request.run folder quality disk = (.ok copy, disk') ↔
      request.copyTo folder quality disk = (.ok copy, disk') := by
    unfold LoadRequest.run
    split
    · next h => rw [h]
    · next h =>
      rw [h]
      constructor <;> rintro ⟨⟩
  rw [hrun]
  unfold LoadRequest.copyTo
  constructor
  · intro h
    dsimp only at h
    cases hread : disk.read request.source with
    | error refusal =>
      rw [hread] at h
      cases h
    | ok content =>
      simp only [hread, Except.mapError] at h
      split at h
      · cases h
      · next normal hnormal =>
        split at h
        · cases h
        · next made hmade =>
          split at h
          · cases h
          · next written hwrite =>
            cases h
            exact ⟨content, normal, made, rfl, hnormal, hmade, hwrite, rfl⟩
  · rintro ⟨content, normal, made, hread, hnormal, hmade, hwrite, rfl⟩
    simp only [hread, Except.mapError, hnormal, hmade, hwrite]

theorem path_of_run {request : LoadRequest} {folder : Path} {quality : UInt8} {disk : Disk}
    {copy : LocalCopy} (h : (request.run folder quality disk).1 = .ok copy) :
    copy.path = request.targetIn folder := by
  obtain ⟨_, _, _, -, -, -, -, rfl⟩ := run_eq_ok_iff.1 (Prod.ext h rfl)
  rfl

theorem fileWithin_copyTo {request : LoadRequest} {folder : Path}
    (hne : path.place ≠ (request.targetIn folder).place) (quality : UInt8) (disk : Disk) :
    disk.FileWithin path (request.copyTo folder quality disk).2 := by
  unfold LoadRequest.copyTo
  dsimp only
  split
  · exact .refl disk path
  · split
    · exact .refl disk path
    · have hmade := Disk.fileWithin_makeFolders path folder disk
      split
      · next h => rwa [h] at hmade
      · next h =>
        rw [h] at hmade
        split
        · exact hmade
        · next hwrite => exact hmade.trans (Disk.fileWithin_write hwrite hne)

theorem fileWithin_run {request : LoadRequest} {folder : Path}
    (hne : path.place ≠ (request.targetIn folder).place) (quality : UInt8) (disk : Disk) :
    disk.FileWithin path (request.run folder quality disk).2 := by
  have hcopy := fileWithin_copyTo hne quality disk
  unfold LoadRequest.run
  split
  · next h => rwa [h] at hcopy
  · next h =>
    rw [h] at hcopy
    exact hcopy.trans (Disk.fileWithin_discard hne)

theorem fileWithin_rollbackLoad
    (hne : ∀ copy, unit.localPath = some copy → path.place ≠ copy.place) (disk : Disk) :
    disk.FileWithin path (unit.rollbackLoad disk).2 := by
  unfold OutgoingUnit.rollbackLoad OutgoingUnit.discardLocal
  cases hlocal : unit.localPath with
  | none => exact .refl disk path
  | some copy => exact Disk.fileWithin_discard (hne copy hlocal)

/-- Loading touches no file but the copies it makes. -/
theorem fileWithin_runLoad (settings : Settings) {batch : OutgoingBatch} (disk : Disk)
    (hnodup : (batch.units.map Transferable.id).Nodup)
    (hne : ∀ u ∈ batch.units, u.state = .picked →
      path.place ≠ (u.targetIn settings.stagingFolder).place) :
    disk.FileWithin path (runLoad settings batch disk).2.2 := by
  rcases lt_or_ge maxPermits settings.maxConcurrentUnits.toNat with hlimit | hlimit
  · obtain ⟨failure, units, hrun⟩ := runLoad_of_lt hlimit batch disk
    rw [hrun]
    exact .refl disk path
  by_cases hstate : ∀ u ∈ batch.units, u.state = .picked
  · obtain ⟨result, hresult, hrun⟩ := runLoad_of_picked hlimit disk hstate hnodup
    have hjobs : disk.FileWithin path (jobs (loadSteps settings) batch.units disk).2 := by
      rw [jobs_of_ready (loadLaw settings) hstate]
      refine runAll_induction (P := disk.FileWithin path) ?_ (.refl disk path)
      intro request hrequest disk' hdisk'
      obtain ⟨u, hu, rfl⟩ := mem_map.1 hrequest
      exact hdisk'.trans (fileWithin_run (hne u hu (hstate u hu)) settings.jpegQuality disk')
    rw [hrun]
    split_ifs
    · exact hjobs
    · refine forAll_induction (P := disk.FileWithin path) ?_ hjobs
      intro v hv disk' hdisk'
      obtain ⟨u, hu, rfl⟩ := mem_map.1 hv
      refine hdisk'.trans (fileWithin_rollbackLoad ?_ disk')
      -- The only copy that can be taken back is the one that the unit's own job has made.
      intro copy hcopy
      cases hu' : result u.id with
      | error failure =>
        rw [hu'] at hcopy
        cases hcopy
      | ok made =>
        rw [hu'] at hcopy
        cases hcopy
        obtain ⟨_, hmade⟩ := exists_run_eq_result (loadLaw settings) hstate hresult hu
        have hpath : made.path = u.targetIn settings.stagingFolder :=
          path_of_run (hmade.trans hu')
        rw [hpath]
        exact hne u hu (hstate u hu)
  · push Not at hstate
    obtain ⟨u, -, hrun⟩ := runLoad_of_exists settings disk hstate
    rw [hrun]
    exact .refl disk path

end Load

variable {σ : Type} [Services σ] {Kept : σ → Prop} {path : Path} {world : World σ}

section Stage

theorem spares_uploadCopy (hservices : Sparing Kept path) (request : StageRequest)
    (hkept : Kept world.services) : world.Spares Kept path (uploadCopy request world).2 := by
  unfold uploadCopy
  split
  · exact .refl hkept
  · next content _ =>
    have hupload := hservices.upload content request.remotePath world hkept
    split
    · next h => rwa [h] at hupload
    · next h => rwa [h] at hupload

theorem fileWithin_releaseCopy {unit : OutgoingUnit}
    (hne : ∀ copy, unit.localPath = some copy → path.place ≠ copy.place) (disk : Disk) :
    disk.FileWithin path (releaseCopy unit disk).2 := by
  unfold releaseCopy OutgoingUnit.releaseLocal
  split_ifs
  · split
    · exact .refl disk path
    · next copy hcopy =>
      dsimp only
      split
      · next h => exact Disk.fileWithin_remove h (hne copy hcopy)
      · exact .refl disk path
  · exact .refl disk path

theorem spares_publish (hservices : Sparing Kept path) (settings : Settings)
    (entries : List JournalEntry) {batch : OutgoingBatch}
    (hne : ∀ u ∈ batch.units, ∀ copy, u.localPath = some copy → path.place ≠ copy.place)
    (hkept : Kept world.services) :
    world.Spares Kept path (publish settings entries batch world).2.2 := by
  unfold publish
  split
  · exact .refl hkept
  · next descriptor _ =>
    have hpublish := hservices.publish descriptor world.services hkept
    split
    · next h =>
      rw [h] at hpublish
      exact ⟨hpublish, .refl world.disk path⟩
    · next h =>
      rw [h] at hpublish
      dsimp only
      split_ifs
      · refine ⟨hpublish, forAll_induction (P := world.disk.FileWithin path) ?_ (.refl _ path)⟩
        intro u hu disk hdisk
        exact hdisk.trans (fileWithin_releaseCopy (hne u hu) disk)
      · exact ⟨hpublish, .refl world.disk path⟩

theorem spares_jobs_stage (hservices : Sparing Kept path) {units : List OutgoingUnit}
    (hready : ∀ u ∈ units, IsStageable u) (hkept : Kept world.services) :
    world.Spares Kept path (jobs stageSteps units world).2 := by
  rw [jobs_of_ready stageLaw hready]
  refine runAll_induction (P := world.Spares Kept path) ?_ (.refl hkept)
  intro request _ world' hworld'
  exact hworld'.trans (spares_uploadCopy hservices request hworld'.kept)

/-- Staging touches no file but the copies of its units. -/
theorem spares_runStage (hservices : Sparing Kept path) (settings : Settings)
    {batch : OutgoingBatch} (hnodup : (batch.units.map Transferable.id).Nodup)
    (hcoherent : ∀ u ∈ batch.units, u.Coherent)
    (hne : ∀ u ∈ batch.units, u.state = .loaded → ∀ copy, u.localPath = some copy →
      path.place ≠ copy.place) (hkept : Kept world.services) :
    world.Spares Kept path (runStage settings batch world).2.2 := by
  rcases lt_or_ge maxPermits settings.maxConcurrentUnits.toNat with hlimit | hlimit
  · obtain ⟨failure, units, hrun⟩ := runStage_of_lt hlimit batch world
    rw [hrun]
    exact .refl hkept
  by_cases hstate : ∀ u ∈ batch.units, u.state = .loaded
  · have hlocal : ∀ u ∈ batch.units, u.localPath.isSome := fun u hu =>
      (hcoherent u hu).localPath_isSome (.inl (hstate u hu))
    obtain ⟨result, -, hrun⟩ := runStage_of_loaded hlimit world hstate hlocal hnodup
    have hjobs := spares_jobs_stage hservices (isStageable_withRemotePaths hstate hlocal) hkept
    rw [hrun]
    split_ifs
    · refine hjobs.trans (spares_publish hservices settings _ ?_ hjobs.kept)
      intro v hv copy hcopy
      obtain ⟨w, hw, rfl⟩ := mem_map.1 hv
      obtain ⟨u, hu, rfl⟩ := mem_map.1 hw
      have hcopy' : u.localPath = some copy := by
        rw [← hcopy, ensureRemotePath_eq]
        cases result (OutgoingUnit.id _) <;> rfl
      exact hne u hu (hstate u hu) copy hcopy'
    · exact hjobs
  · push Not at hstate
    obtain ⟨u, -, hrun⟩ := runStage_of_exists settings world hstate
    rw [hrun]
    exact .refl hkept

end Stage

section Download

variable {folder target : Path} {request : DownloadRequest}

theorem fileWithin_deliver (hne : path.place ≠ target.place) (folder : Path) (content : Bytes)
    (disk : Disk) : disk.FileWithin path (deliver folder target content disk).2 := by
  have hmade := Disk.fileWithin_makeFolders path folder disk
  unfold deliver
  split
  · next h => rwa [h] at hmade
  · next h =>
    rw [h] at hmade
    split
    · exact hmade.trans (Disk.fileWithin_discard hne)
    · next hwrite => exact hmade.trans (Disk.fileWithin_write hwrite hne)

theorem deliver_eq_ok_iff {content : Bytes} {disk disk' : Disk} {delivery : Delivery} :
    deliver folder target content disk = (.ok delivery, disk') ↔
      ∃ made, disk.makeFolders folder = (.ok (), made) ∧ made.write target content = .ok disk' ∧
        delivery = ⟨target, UInt64.ofNat content.length⟩ := by
  unfold deliver
  constructor
  · intro h
    split at h
    · cases h
    · next made hmade =>
      split at h
      · cases h
      · next written hwrite =>
        cases h
        exact ⟨made, hmade, hwrite, rfl⟩
  · rintro ⟨made, hmade, hwrite, rfl⟩
    simp only [hmade, hwrite]

theorem eq_of_deliver {content : Bytes} {disk : Disk} {delivery : Delivery}
    (h : (deliver folder target content disk).1 = .ok delivery) :
    delivery = ⟨target, UInt64.ofNat content.length⟩ ∧
      (deliver folder target content disk).2.read target = .ok content := by
  obtain ⟨_, -, hwrite, rfl⟩ := deliver_eq_ok_iff.1 (Prod.ext h rfl)
  exact ⟨rfl, Disk.read_of_write hwrite⟩

theorem spares_fetch (hservices : Sparing Kept path)
    (hne : path.place ≠ (request.targetIn folder).place) (hkept : Kept world.services) :
    world.Spares Kept path (fetch folder request world).2 := by
  have hdownload := hservices.download request.remotePath world hkept
  unfold fetch
  split
  · next h => rwa [h] at hdownload
  · next content world' h =>
    rw [h] at hdownload
    exact ⟨hdownload.kept, hdownload.file.trans (fileWithin_deliver hne folder content world'.disk)⟩

theorem kept_fetch (hservices : Sparing Kept path) (folder : Path) (request : DownloadRequest)
    (hkept : Kept world.services) : Kept (fetch folder request world).2.services := by
  have hdownload := (hservices.download request.remotePath world hkept).kept
  unfold fetch
  split
  · next h => rwa [h] at hdownload
  · next h => rwa [h] at hdownload

/-- A download that succeeds leaves in its file what the store has answered. -/
theorem read_of_fetch {delivery : Delivery} (h : (fetch folder request world).1 = .ok delivery) :
    ∃ content, (Services.download request.remotePath world).1 = .ok content ∧
      delivery = ⟨request.targetIn folder, UInt64.ofNat content.length⟩ ∧
      (fetch folder request world).2.disk.read (request.targetIn folder) = .ok content := by
  unfold fetch at h ⊢
  split at h
  · cases h
  · next content world' hdownload =>
    obtain ⟨hdelivery, hread⟩ := eq_of_deliver h
    exact ⟨content, by rw [hdownload], hdelivery, hread⟩

theorem fileWithin_rollbackDownload {unit : IncomingUnit}
    (hne : ∀ copy, unit.localPath = some copy → path.place ≠ copy.place) (disk : Disk) :
    disk.FileWithin path (unit.rollbackDownload disk).2 := by
  unfold IncomingUnit.rollbackDownload
  split
  · exact .refl disk path
  · next copy hcopy => exact Disk.fileWithin_discard (hne copy hcopy)

theorem spares_jobs_download (hservices : Sparing Kept path) (settings : Settings)
    {units : List IncomingUnit} (hstate : ∀ u ∈ units, u.state = .received)
    (hne : ∀ u ∈ units, path.place ≠ (u.targetIn settings.downloadFolder).place)
    (hkept : Kept world.services) :
    world.Spares Kept path (jobs (downloadSteps settings) units world).2 := by
  rw [jobs_of_ready (downloadLaw settings) hstate]
  refine runAll_induction (P := world.Spares Kept path) ?_ (.refl hkept)
  intro request hrequest world' hworld'
  obtain ⟨u, hu, rfl⟩ := mem_map.1 hrequest
  exact hworld'.trans (spares_fetch hservices (hne u hu) hworld'.kept)

/-- What a unit begins to download goes to the unit's own file. -/
theorem targetIn_of_beginDownload {unit unit' : IncomingUnit} {request : DownloadRequest}
    (h : unit.beginDownload = .ok (request, unit')) (folder : Path) :
    request.targetIn folder = unit.targetIn folder ∧ unit'.localPath = unit.localPath := by
  unfold IncomingUnit.beginDownload at h
  split_ifs at h
  · cases h
    exact ⟨rfl, rfl⟩
  · cases h

/-- However an attempt at a download ends, the files of its units are those that jobs have made. -/
theorem localPath_of_attempt {W : Type} (steps : PhaseSteps IncomingUnit DownloadRequest Delivery W)
    (batch : IncomingBatch) (hstart : steps.start = IncomingUnit.beginDownload)
    (hcomplete : steps.complete = fun unit delivery => unit.completeDownload delivery.path)
    (hfail : steps.fail = IncomingUnit.failDownload) {R : Path → Prop}
    (hrun : ∀ u ∈ batch.units, ∀ request u', u.beginDownload = .ok (request, u') →
      ∀ world delivery, (steps.run request world).1 = .ok delivery → R delivery.path)
    (hlocal : ∀ u ∈ batch.units, u.localPath = none) (limit : Nat) (world : W) :
    ∀ u ∈ (attempt steps limit batch world).2.1.units, ∀ copy,
      u.localPath = some copy → R copy := by
  refine forall_mem_attempt_of_run steps (P := fun u => ∀ copy, u.localPath = some copy → R copy)
    (R := fun delivery => R delivery.path) ?_ ?_ ?_ limit ?_ world ?_
  · intro u request u' hu hbegin
    rw [hstart] at hbegin
    exact (targetIn_of_beginDownload hbegin default).2 ▸ hu
  · intro u delivery u' hdelivery _ hcompleted copy hcopy
    rw [hcomplete] at hcompleted
    dsimp only [IncomingUnit.completeDownload] at hcompleted
    split_ifs at hcompleted
    · cases hcompleted
      cases hcopy
      exact hdelivery
    · cases hcompleted
  · intro u u' hu hfailed
    rw [hfail] at hfailed
    unfold IncomingUnit.failDownload at hfailed
    split_ifs at hfailed
    · cases hfailed
      exact hu
    · cases hfailed
  · rw [hstart]
    exact hrun
  · intro u hu copy hcopy
    rw [hlocal u hu] at hcopy
    cases hcopy

/-- Downloading touches no file but those that its units are put in, also where the ids of units do
not tell them apart. -/
theorem spares_runDownload (hservices : Sparing Kept path) (settings : Settings)
    {batch : IncomingBatch}
    (hlocal : ∀ u ∈ batch.units, u.state = .received → u.localPath = none)
    (hne : ∀ u ∈ batch.units, u.state = .received →
      path.place ≠ (u.targetIn settings.downloadFolder).place) (hkept : Kept world.services) :
    world.Spares Kept path (runDownload settings batch world).2.2 := by
  unfold runDownload
  split
  · exact .refl hkept
  · next hrequire =>
    have hstate := forall_of_requireAll hrequire
    have htarget : ∀ u ∈ batch.units, ∀ request u', u.beginDownload = .ok (request, u') →
        path.place ≠ (request.targetIn settings.downloadFolder).place := by
      intro u hu request u' hbegin
      rw [(targetIn_of_beginDownload hbegin _).1]
      exact hne u hu (hstate u hu)
    have hworld := attempt_induction (P := world.Spares Kept path) (downloadSteps settings)
      settings.maxConcurrentUnits.toNat batch
      (fun u hu request u' hbegin world' hspares =>
        hspares.trans (spares_fetch hservices (htarget u hu request u' hbegin) hspares.kept))
      (.refl hkept)
    -- Where a download is taken back, the copies that go are those that jobs have made.
    have hunits := localPath_of_attempt (downloadSteps settings) batch
      (R := fun copy => path.place ≠ copy.place) rfl rfl rfl
      (by
        intro u hu request u' hbegin world' delivery hfetch
        obtain ⟨content, -, rfl, -⟩ := read_of_fetch hfetch
        exact htarget u hu request u' hbegin)
      (fun u hu => hlocal u hu (hstate u hu)) settings.maxConcurrentUnits.toNat world
    split
    · next h => rwa [h] at hworld
    · next h =>
      rw [h] at hworld hunits
      split
      · exact hworld
      · refine ⟨hworld.kept, forAll_induction (P := world.disk.FileWithin path) ?_ hworld.file⟩
        exact fun u hu disk hdisk => hdisk.trans (fileWithin_rollbackDownload (hunits u hu) disk)

/-- A download that has advanced has put into the file of each unit what the store answered when
the unit's turn came, and no other unit has changed it since. -/
theorem read_of_advanced {settings : Settings} {batch : IncomingBatch}
    {before after : List IncomingUnit} {u : IncomingUnit}
    (hservices : Sparing Kept (u.targetIn settings.downloadFolder))
    (hnodup : (batch.units.map Transferable.id).Nodup) (hunits : batch.units = before ++ u :: after)
    {report : PhaseReport} (hrun : (runDownload settings batch world).1 = .ok report)
    (hadvanced : report.outcome = .advanced) (hkept : Kept world.services) :
    ∃ content,
      (Services.download u.remotePath (jobs (downloadSteps settings) before world).2).1 =
        .ok content ∧
      { u with
        localPath := some (u.targetIn settings.downloadFolder)
        state := .downloaded } ∈ (runDownload settings batch world).2.1.units ∧
      Kept (runDownload settings batch world).2.2.services ∧
      (runDownload settings batch world).2.2.disk.read (u.targetIn settings.downloadFolder) =
        .ok content := by
  have hlimit := le_maxPermits_of_runDownload hrun
  have hstate : ∀ v ∈ batch.units, v.state = .received := by
    by_contra hne
    push Not at hne
    obtain ⟨failure, hfailure⟩ :=
      (allOrNothing_runDownload world hnodup (.inl hlimit)).refused_iff.2 hne
    cases hrun.symm.trans hfailure
  obtain ⟨result, hresult, hends⟩ := runDownload_of_received hlimit world hstate hnodup
  have hu : u ∈ batch.units := hunits ▸ mem_append_right before mem_cons_self
  have hall : failedIn (jobs (downloadSteps settings) batch.units world).1 = [] := by
    by_contra hfailed
    rw [hends, if_neg hfailed] at hrun
    cases hrun
    cases hadvanced
  obtain ⟨delivery, hdelivery⟩ := failedIn_eq_nil_iff.1 hall (u.id, result u.id)
    (hresult ▸ mem_map_of_mem hu)
  rw [hends, if_pos hall]
  -- The job of `u` among those of its batch.
  have hready := hunits ▸ hstate
  have hmade := result_eq_run (downloadLaw settings) hready (hunits ▸ hresult)
  obtain ⟨content, hcontent, rfl, hread⟩ := read_of_fetch (hmade.symm.trans hdelivery)
  have hbefore : Kept (jobs (downloadSteps settings) before world).2.services := by
    rw [jobs_of_ready (downloadLaw settings) (forall_mem_append.1 hready).1]
    exact runAll_induction (P := fun world : World σ => Kept world.services)
      (fun request _ _ hkept => kept_fetch hservices settings.downloadFolder request hkept) hkept
  have hfetched := kept_fetch hservices settings.downloadFolder
    ((downloadLaw (σ := σ) settings).request u) hbefore
  have hne : ∀ v ∈ after, (u.targetIn settings.downloadFolder).place ≠
      (v.targetIn settings.downloadFolder).place := by
    rw [hunits, map_append, map_cons, nodup_append, nodup_cons] at hnodup
    intro v hv
    refine IncomingUnit.place_targetIn_ne (fun heq => hnodup.2.1.1 ?_) _
    exact mem_map.2 ⟨v, hv, heq.symm⟩
  have hafter := spares_jobs_download hservices settings
    (fun v hv => (forall_mem_cons.1 (forall_mem_append.1 hready).2).2 v hv) hne hfetched
  have hsplit := jobs_append_cons (downloadLaw settings) hready world
  rw [hunits, hsplit]
  dsimp only
  refine ⟨content, hcontent, ?_, hafter.kept, hafter.file content hread⟩
  refine mem_map.2 ⟨u, hunits ▸ hu, ?_⟩
  rw [show result u.id = _ from hdelivery]
  rfl

end Download

end Phase

end PeerTransfer
