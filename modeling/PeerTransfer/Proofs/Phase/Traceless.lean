import PeerTransfer.Proofs.Phase.Alike
import PeerTransfer.Proofs.Phase.Drives
import PeerTransfer.Proofs.Phase.Owned
import PeerTransfer.Proofs.Phase.Reached
import PeerTransfer.Proofs.Phase.Received

/-!
# Phases that leave no trace

A phase that does not advance leaves every file of the disk as it was, whatever its jobs met with
and wherever their drives gave way (`files_of_not_advances`). Each job makes the file of its unit or
leaves none behind (`MakesFiles.file_of_jobs`), and what was made is deleted when the phase is taken
back (`MakesFiles.file?_discardAll_jobs`).
-/

namespace PeerTransfer.Phase

open List

/-! ## Jobs that make files -/

section Jobs

variable {U S ρ α W : Type} [Transferable U S] {steps : PhaseSteps U ρ α W} {Ready : U → Prop}

/-- Every job tries to make the file of its unit, which the unit then owns, and keeps what is
`Kept`. No two units share their file. -/
structure MakesFiles (law : steps.Law Ready) (Kept : W → Prop) (disk : W → Disk)
    (target : U → Path) (localPath : U → Option Path) : Prop where
  kept (u : U) {world : W} : Kept world → Kept (steps.run (law.request u) world).2
  tries (u : U) {world : W} : Kept world →
    (disk world).Tries (target u) (steps.run (law.request u) world).1.toBool
      (disk (steps.run (law.request u) world).2)
  owned (u : U) {world : W} {a : α} : (steps.run (law.request u) world).1 = .ok a →
    localPath (law.completed u a) = some (target u)
  place_ne {u v : U} : Transferable.id u ≠ Transferable.id v →
    (target u).place ≠ (target v).place

namespace MakesFiles

variable {law : steps.Law Ready} {Kept : W → Prop} {disk : W → Disk} {target : U → Path}
  {localPath : U → Option Path} (hmakes : MakesFiles law Kept disk target localPath)
  {units : List U} {world : W} (hready : ∀ u ∈ units, Ready u)

include hmakes hready

/-- Jobs change no files but those of their units. -/
theorem changes_jobs (footprint : Set Disk.Location)
    (htarget : ∀ u ∈ units, (target u).place ∈ footprint) (hkept : Kept world) :
    Kept (jobs steps units world).2 ∧
      (disk world).Changes footprint (disk (jobs steps units world).2) := by
  rw [jobs_of_ready law hready]
  refine runAll_induction (P := fun ran => Kept ran ∧ (disk world).Changes footprint (disk ran)) ?_
    ⟨hkept, .refl footprint (disk world)⟩
  rw [forall_mem_map]
  rintro u hu ran ⟨hkept, hchanges⟩
  have hown := (hmakes.tries u hkept).changes.mono (Set.singleton_subset_iff.2 (htarget u hu))
  exact ⟨hmakes.kept u hkept, hchanges.trans hown⟩

variable (hnodup : (units.map Transferable.id).Nodup) (hkept : Kept world)
  {result : Uuid → Except Failure α}
  (hresult : (jobs steps units world).1 =
    units.map fun u => (Transferable.id u, result (Transferable.id u)))

include hnodup hkept hresult

/-- Once all jobs have run, the file of a unit is there just if the unit's own job has succeeded. -/
theorem file_of_jobs {u : U} (hu : u ∈ units)
    (hvacant : (disk world).file? (target u).place = none) :
    (∀ a, result (Transferable.id u) = .ok a →
      ∃ content, (disk (jobs steps units world).2).read (target u) = .ok content) ∧
    (∀ failure, result (Transferable.id u) = .error failure →
      (disk (jobs steps units world).2).file? (target u).place = none) := by
  obtain ⟨before, after, rfl⟩ := append_of_mem hu
  have hown := result_eq_run law hready hresult
  rw [map_append, map_cons, nodup_middle, nodup_cons, mem_append, not_or] at hnodup
  have hothers : ∀ v, Transferable.id v ∈ before.map Transferable.id ∨
      Transferable.id v ∈ after.map Transferable.id →
        (target v).place ∈ ({(target u).place}ᶜ : Set Disk.Location) := by
    rintro v hv heq
    refine hmakes.place_ne (fun hid => ?_) heq
    rw [hid] at hv
    exact hv.elim hnodup.1.1 hnodup.1.2
  rw [jobs_append_cons law hready]
  rw [forall_mem_append, forall_mem_cons] at hready
  obtain ⟨hfirst, hbefore⟩ := hmakes.changes_jobs hready.1 _
    (fun v hv => hothers v (.inl (mem_map_of_mem hv))) hkept
  have htries := hmakes.tries u hfirst
  obtain ⟨-, hafter⟩ := hmakes.changes_jobs hready.2.2 _
    (fun v hv => hothers v (.inr (mem_map_of_mem hv))) (hmakes.kept u hfirst)
  have hmem : (target u).place ∉ ({(target u).place}ᶜ : Set Disk.Location) := fun h => h rfl
  rw [← hown] at htries
  constructor
  · intro a ha
    rw [ha] at htries
    obtain ⟨content, hread⟩ := htries.exists_read rfl
    exact ⟨content, hafter.fileWithin (target u) hmem content hread⟩
  · intro failure hfailure
    rw [hfailure] at htries
    have hstill := (hbefore.file?_eq _ hmem).trans hvacant
    exact (hafter.file?_eq _ hmem).trans (htries.file?_eq_none rfl hstill)

variable (hnone : ∀ u ∈ units, localPath (law.failed u) = none)

include hnone

omit hnodup hkept in
/-- The files that units own are those that their jobs have made. -/
theorem mem_copies_iff (copy : Path) :
    copy ∈ (units.map fun u => law.settled u (result (Transferable.id u))).filterMap localPath ↔
      ∃ u ∈ units, (∃ a, result (Transferable.id u) = .ok a) ∧ target u = copy := by
  rw [filterMap_map, mem_filterMap]
  refine exists_congr fun u => and_congr_right fun hu => ?_
  rw [Function.comp_apply]
  cases hend : result (Transferable.id u) with
  | error failure => simp [PhaseSteps.Law.settled, hnone u hu]
  | ok a =>
    obtain ⟨_, hrun⟩ := exists_run_eq_result law hready hresult hu
    simp [PhaseSteps.Law.settled, hmakes.owned u (hrun.trans hend)]

/-- Once the files are deleted that units own, all files are as they were before. -/
theorem file?_discardAll_jobs
    (hvacant : ∀ u ∈ units, (disk world).file? (target u).place = none) :
    (((units.map fun u => law.settled u (result (Transferable.id u))).filterMap localPath).foldl
      Disk.discard (disk (jobs steps units world).2)).file? = (disk world).file? := by
  have hcopies := hmakes.mem_copies_iff hready hresult hnone
  set copies := (units.map fun u => law.settled u (result (Transferable.id u))).filterMap localPath
  funext l
  by_cases hl : ∃ u ∈ units, (target u).place = l
  · obtain ⟨u, hu, rfl⟩ := hl
    obtain ⟨hmade, hfailed⟩ := hmakes.file_of_jobs hready hnodup hkept hresult hu (hvacant u hu)
    rw [hvacant u hu]
    cases hend : result (Transferable.id u) with
    | ok a =>
      obtain ⟨content, hread⟩ := hmade a hend
      exact Disk.file?_discardAll_of_read ((hcopies _).2 ⟨u, hu, ⟨a, hend⟩, rfl⟩) hread
    | error failure => exact Disk.file?_discardAll_eq_none (hfailed failure hend) copies
  · set footprint : Set Disk.Location := {l | ∃ u ∈ units, (target u).place = l}
    obtain ⟨-, hjobs⟩ := hmakes.changes_jobs hready footprint
      (fun u hu => ⟨u, hu, rfl⟩) hkept
    have hdeleted : ∀ copy ∈ copies, copy.place ∈ footprint := by
      intro copy hcopy
      obtain ⟨u, hu, -, rfl⟩ := (hcopies copy).1 hcopy
      exact ⟨u, hu, rfl⟩
    exact (hjobs.trans (.discardAll hdeleted _)).file?_eq l hl

end MakesFiles

end Jobs

variable {drives : Uuid → Disk.Drive} {settings : Settings}

/-! ## Loading -/

theorem makesFiles_load (drives : Uuid → Disk.Drive) (settings : Settings) :
    MakesFiles (loadLawOn drives settings) (fun _ => True) id
      (·.targetIn settings.stagingFolder) (·.localPath) where
  kept _ _ _ := trivial
  tries _ disk _ := tries_loadProgram _ _ _ _ disk
  owned _ _ _ h := congrArg some (path_of_loadProgram h)
  place_ne h := OutgoingUnit.place_targetIn_ne h _

theorem files_runLoadOn {batch : OutgoingBatch} {disk : Disk}
    (hnodup : (batch.units.map Transferable.id).Nodup)
    (hvacant : ∀ u ∈ batch.units, disk.file? (u.targetIn settings.stagingFolder).place = none)
    (h : ¬Advances (runLoadOn drives settings batch disk)) :
    (runLoadOn drives settings batch disk).2.2.file? = disk.file? := by
  unfold runLoadOn at h ⊢
  by_cases hstate : ∀ u ∈ batch.units, u.state = .picked
  · rcases lt_or_ge maxPermits (loadPlan drives settings).limit with hlimit | hlimit
    · rw [(loadPlan drives settings).run_of_lt disk (loadLawOn drives settings) hlimit hstate
        hstate]
    obtain ⟨result, hresult, hrun⟩ :=
      (loadPlan drives settings).run_of_ready disk (loadLawOn drives settings) hlimit hstate hstate
        hnodup
    rw [hrun] at h ⊢
    split_ifs at h ⊢
    · exact absurd ⟨_, rfl, rfl⟩ h
    · have hback := forAll_rollbackLoad (batch.units.map fun u =>
        (loadLawOn drives settings).settled u (result u.id))
        (jobs (loadStepsOn drives settings) batch.units disk).2
      exact (congrArg Disk.file? hback).trans <|
        (makesFiles_load drives settings).file?_discardAll_jobs hstate hnodup trivial hresult
          (fun _ _ => rfl) hvacant
  · push Not at hstate
    obtain ⟨failure, hrun⟩ := (loadPlan drives settings).run_of_exists disk hstate
    rw [hrun]

variable {σ : Type} [Services σ] {Kept : σ → Prop} (hservices : Aloof Kept)

/-! ## Staging -/

section Stage

theorem localPath_rollbackStage (unit : OutgoingUnit) :
    unit.rollbackStage.localPath = unit.localPath := by
  unfold OutgoingUnit.rollbackStage
  split <;> rfl

theorem map_localPath_rollbackStage (units : List OutgoingUnit) :
    (units.map OutgoingUnit.rollbackStage).map (fun u => (u.id, u.localPath)) =
      units.map fun u => (u.id, u.localPath) := by
  rw [map_map]
  refine map_congr_left fun u _ => ?_
  rw [Function.comp_apply, id_rollbackStage, localPath_rollbackStage]

theorem publish_of_not_advances {entries : List JournalEntry} {batch : OutgoingBatch}
    {world : World σ} (h : ¬Advances (publish settings entries batch world)) :
    let ended := publish settings entries batch world
    ended.2.2.disk = world.disk ∧
      ended.2.1.units.map (fun u => (u.id, u.localPath)) =
        batch.units.map fun u => (u.id, u.localPath) := by
  cases hdescribe : batch.describe with
  | error failure =>
    unfold publish
    rw [hdescribe]
    exact ⟨rfl, rfl⟩
  | ok descriptor =>
    rcases hpublish : Services.publish descriptor world.services with
      ⟨cause | reference, services⟩
    · unfold publish
      simp only [hdescribe, hpublish]
      exact ⟨trivial, map_localPath_rollbackStage batch.units⟩
    · rw [publish_of_published settings entries hdescribe hpublish] at h
      exact absurd ⟨_, rfl, rfl⟩ h

include hservices

theorem stays_jobs_stageOn (drives : Uuid → Disk.Drive) {units : List OutgoingUnit}
    (hready : ∀ u ∈ units, IsStageable u) {world : World σ} (hkept : Kept world.services) :
    world.Stays Kept (jobs (stageStepsOn drives) units world).2 := by
  rw [jobs_of_ready (stageLawOn drives) hready]
  refine runAll_induction (P := world.Stays Kept) ?_ (.refl hkept)
  exact fun request _ ran hran => hran.trans (stays_uploadCopyOn hservices _ request hran.kept)

theorem files_runStageOn {batch : OutgoingBatch} {world : World σ}
    (hnodup : (batch.units.map Transferable.id).Nodup) (hcoherent : ∀ u ∈ batch.units, u.Coherent)
    (hkept : Kept world.services) (h : ¬Advances (runStageOn drives settings batch world)) :
    let ended := runStageOn drives settings batch world
    ended.2.2.disk.file? = world.disk.file? ∧
      ended.2.1.units.map (fun u => (u.id, u.localPath)) =
        batch.units.map fun u => (u.id, u.localPath) := by
  unfold runStageOn at h ⊢
  by_cases hstate : ∀ u ∈ batch.units, u.state = .loaded
  · have hlocal : ∀ u ∈ batch.units, u.localPath.isSome := fun u hu =>
      (hcoherent u hu).localPath_isSome (.inl (hstate u hu))
    have hready := isStageable_withRemotePaths hstate hlocal
    rcases lt_or_ge maxPermits (stagePlan (σ := σ) drives settings).limit with hlimit | hlimit
    · rw [(stagePlan drives settings).run_of_lt world (stageLawOn drives) hlimit hstate hready]
      refine ⟨rfl, ?_⟩
      change ((withRemotePaths batch).units.map _).map _ = _
      rw [withRemotePaths, map_map, map_map]
      refine map_congr_left fun u _ => ?_
      rw [Function.comp_apply, Function.comp_apply, ensureRemotePath_eq]
      rfl
    obtain ⟨result, -, hrun⟩ :=
      (stagePlan drives settings).run_of_ready world (stageLawOn drives) hlimit hstate hready
        (id_withRemotePaths batch ▸ hnodup)
    have hjobs := (stays_jobs_stageOn hservices drives hready hkept).changes
    have hpaths : ((withRemotePaths batch).units.map fun u =>
        (stageLawOn (σ := σ) drives).settled u (result u.id)).map (fun u => (u.id, u.localPath)) =
          batch.units.map fun u => (u.id, u.localPath) := by
      rw [withRemotePaths, map_map, map_map]
      refine map_congr_left fun u _ => ?_
      rw [Function.comp_apply, Function.comp_apply, ensureRemotePath_eq]
      cases result u.id <;> rfl
    rw [hrun] at h ⊢
    split_ifs at h ⊢
    · obtain ⟨hdisk, hunits⟩ := publish_of_not_advances h
      exact ⟨(congrArg Disk.file? hdisk).trans hjobs.file?_eq_of_empty, hunits.trans hpaths⟩
    · exact ⟨hjobs.file?_eq_of_empty, (map_localPath_rollbackStage _).trans hpaths⟩
  · push Not at hstate
    obtain ⟨failure, hrun⟩ := (stagePlan drives settings).run_of_exists world hstate
    rw [hrun]
    exact ⟨rfl, rfl⟩

end Stage

/-! ## Downloading -/

include hservices

theorem makesFiles_download (drives : Uuid → Disk.Drive) (settings : Settings) :
    MakesFiles (downloadLawOn (σ := σ) drives settings) (fun world => Kept world.services)
      World.disk (·.targetIn settings.downloadFolder) (·.localPath) where
  kept _ _ h := (tries_fetchOn hservices _ _ _ h).1
  tries _ _ h := (tries_fetchOn hservices _ _ _ h).2
  owned _ _ _ h := congrArg some (path_of_fetchOn h)
  place_ne h := IncomingUnit.place_targetIn_ne h _

theorem files_runDownloadOn {batch : IncomingBatch} {world : World σ}
    (hnodup : (batch.units.map Transferable.id).Nodup)
    (hunfetched : ∀ u ∈ batch.units, u.Unfetched) (hkept : Kept world.services)
    (hvacant : ∀ u ∈ batch.units,
      world.disk.file? (u.targetIn settings.downloadFolder).place = none)
    (h : ¬Advances (runDownloadOn drives settings batch world)) :
    (runDownloadOn drives settings batch world).2.2.disk.file? = world.disk.file? := by
  unfold runDownloadOn at h ⊢
  by_cases hstate : ∀ u ∈ batch.units, u.state = .received
  · rcases lt_or_ge maxPermits (downloadPlan (σ := σ) drives settings).limit with hlimit | hlimit
    · rw [(downloadPlan drives settings).run_of_lt world (downloadLawOn drives settings) hlimit
        hstate hstate]
    obtain ⟨result, hresult, hrun⟩ :=
      (downloadPlan drives settings).run_of_ready world (downloadLawOn drives settings) hlimit
        hstate hstate hnodup
    rw [hrun] at h ⊢
    split_ifs at h ⊢
    · exact absurd ⟨_, rfl, rfl⟩ h
    · have hback := forAll_discard rollbackDownload_disk (batch.units.map fun u =>
        (downloadLawOn (σ := σ) drives settings).settled u (result u.id))
        (jobs (downloadStepsOn drives settings) batch.units world).2.disk
      refine (congrArg Disk.file? hback).trans <|
        (makesFiles_download hservices drives settings).file?_discardAll_jobs hstate hnodup hkept
          hresult ?_ hvacant
      intro u hu
      have hreceived : u.state ≠ .downloaded := by simp [hstate u hu]
      exact hunfetched u hu hreceived
  · push Not at hstate
    obtain ⟨failure, hrun⟩ := (downloadPlan drives settings).run_of_exists world hstate
    rw [hrun]

/-! ## All phases -/

/-- A phase that does not advance leaves all files as they were, wherever its jobs fail and whatever
has been carried out of a call before it was refused; staging also leaves every unit its copy. No
file may stand where a load or a download is to put one, and services may fail as they like as long
as they touch no file. On sound drives these are the phases themselves. -/
theorem files_of_not_advances (settings : Settings) (drives : Uuid → Disk.Drive) :
    (∀ (batch : OutgoingBatch) (disk : Disk), (batch.units.map Transferable.id).Nodup →
      (∀ u ∈ batch.units, disk.file? (u.targetIn settings.stagingFolder).place = none) →
      ¬Advances (runLoadOn drives settings batch disk) →
        (runLoadOn drives settings batch disk).2.2.file? = disk.file?) ∧
    (∀ (batch : OutgoingBatch) (world : World σ), (batch.units.map Transferable.id).Nodup →
      (∀ u ∈ batch.units, u.Reached) → Kept world.services →
      ¬Advances (runStageOn drives settings batch world) →
        let ended := runStageOn drives settings batch world
        ended.2.2.disk.file? = world.disk.file? ∧
          ended.2.1.units.map (fun u => (u.id, u.localPath)) =
            batch.units.map (fun u => (u.id, u.localPath)) ∧
          ((∀ u ∈ batch.units, u.state = .loaded) →
            ∀ u ∈ ended.2.1.units, u.localPath.isSome)) ∧
    (∀ (batch : IncomingBatch) (world : World σ), (batch.units.map Transferable.id).Nodup →
      (∀ u ∈ batch.units, u.Reached) → Kept world.services →
      (∀ u ∈ batch.units,
        world.disk.file? (u.targetIn settings.downloadFolder).place = none) →
      ¬Advances (runDownloadOn drives settings batch world) →
        (runDownloadOn drives settings batch world).2.2.disk.file? = world.disk.file?) ∧
    runLoadOn (fun _ => .sound) settings = runLoad settings ∧
    runStageOn (σ := σ) (fun _ => .sound) settings = runStage settings ∧
    runDownloadOn (σ := σ) (fun _ => .sound) settings = runDownload settings := by
  refine ⟨fun batch disk hnodup hvacant h => files_runLoadOn hnodup hvacant h, ?_, ?_,
    runLoadOn_sound settings, runStageOn_sound settings, runDownloadOn_sound settings⟩
  · intro batch world hnodup hreached hkept h
    have hcoherent : ∀ u ∈ batch.units, u.Coherent := fun u hu => (hreached u hu).coherent
    obtain ⟨hfiles, hunits⟩ := files_runStageOn hservices hnodup hcoherent hkept h
    refine ⟨hfiles, hunits, fun hstate v hv => ?_⟩
    have hmem : (v.id, v.localPath) ∈ batch.units.map fun u => (u.id, u.localPath) :=
      hunits ▸ mem_map_of_mem hv
    obtain ⟨u, hu, heq⟩ := mem_map.1 hmem
    have hlocal : u.localPath = v.localPath := congrArg Prod.snd heq
    rw [← hlocal]
    exact (hcoherent u hu).localPath_isSome (.inl (hstate u hu))
  · intro batch world hnodup hreached hkept hvacant h
    exact files_runDownloadOn hservices hnodup (fun u hu => (hreached u hu).unfetched) hkept hvacant
      h

omit hservices in
/-- Of two units the second has its file broken off by the drive, or its copy is gone. -/
theorem files_of_not_advances_torn :
    let settings := { Settings.defaults with stagingFolder := ⟨"s"⟩, downloadFolder := ⟨"d"⟩ }
    let one : Uuid := ⟨Vector.replicate 32 1⟩
    let drives (id : Uuid) : Disk.Drive := if id = one then .torn else .sound
    let picked : OutgoingBatch := ⟨"b", none, "s", "r",
      [.pick Uuid.zero ⟨"x"⟩ "text/plain", .pick one ⟨"y"⟩ "text/plain"], none⟩
    let sources : Disk := ⟨[(["x"], .file [1, 2]), (["y"], .file [3])]⟩
    let copied (id : Uuid) (copy : Path) : OutgoingUnit :=
      ⟨id, ⟨"x"⟩, some copy, none, "text/plain", 2, .loaded⟩
    let loaded : OutgoingBatch := ⟨"b", none, "s", "r",
      [copied Uuid.zero ⟨"x"⟩, copied one ⟨"gone"⟩], none⟩
    let received : IncomingBatch := ⟨"b", none, "s", "r",
      [.announced Uuid.zero "x" "b/x" "text/plain" 2, .announced one "y" "b/y" "text/plain" 1],
      none⟩
    let stocked : InMemory :=
      { InMemory.empty with blobs := Catalog.ofList [("b/x", [1, 2]), ("b/y", [3])] }
    let load := runLoadOn drives settings picked sources
    let stage := runStageOn drives settings loaded ⟨sources, InMemory.empty⟩
    let download := runDownloadOn drives settings received ⟨Disk.empty, stocked⟩
    (¬Advances load ∧ load.2.2.file? = sources.file?) ∧
      (¬Advances stage ∧ stage.2.2.disk.file? = sources.file? ∧
        ∀ u ∈ stage.2.1.units, u.localPath.isSome) ∧
      ¬Advances download ∧ download.2.2.disk.file? = Disk.empty.file? := by
  intro settings one drives picked sources copied loaded received stocked load stage download
  have hfiles := files_of_not_advances InMemory.aloof_of_harmless settings drives
  have hload : ¬Advances load := by decide +kernel
  have hstage : ¬Advances stage := by decide +kernel
  have hdownload : ¬Advances download := by decide +kernel
  have hkept : InMemory.empty.Harmless := nofun
  refine ⟨⟨hload, ?_⟩, ⟨hstage, ?_⟩, hdownload, ?_⟩
  · exact hfiles.1 picked sources (by decide) (by decide +kernel) hload
  · have hreached : ∀ u ∈ loaded.units, u.Reached := by
      have hcopied (id : Uuid) (copy : Path) : (copied id copy).Reached :=
        .completeLoad ⟨copy, 2⟩ (.beginLoad _ (.pick id ⟨"x"⟩ "text/plain") rfl) rfl
      exact forall_mem_cons.2 ⟨hcopied _ _, forall_mem_singleton.2 (hcopied _ _)⟩
    obtain ⟨hdisk, -, hlocal⟩ :=
      hfiles.2.1 loaded ⟨sources, InMemory.empty⟩ (by decide) hreached hkept hstage
    exact ⟨hdisk, hlocal (by decide)⟩
  · have hreached : ∀ u ∈ received.units, u.Reached :=
      forall_mem_cons.2 ⟨.announced _ _ _ _ _, forall_mem_singleton.2 (.announced _ _ _ _ _)⟩
    exact hfiles.2.2.1 received ⟨Disk.empty, stocked⟩ (by decide) hreached hkept
      (by decide +kernel) hdownload

end PeerTransfer.Phase
