import PeerTransfer.Proofs.Phase.Ends
import PeerTransfer.Proofs.Phase.Jobs

/-!
# What a phase reports

A report of staging or of a download has one entry for each unit of the batch, which tells under the
remote path of the unit how many bytes were moved, or that the transfer has failed
(`accounts_runStage`, `accounts_runDownload`). What was moved is told by the job of the unit, which
runs in the world that the jobs before it leave.
-/

namespace PeerTransfer

open List

/-- The units that an outcome names. -/
def PhaseOutcome.failed : PhaseOutcome → List Uuid
  | .unitsFailed units => units
  | .advanced | .publishFailed _ => []

namespace Phase

variable {U S ρ α W : Type} [Transferable U S]

/-- What an entry tells of a unit: how many bytes its transfer has moved, or that it has failed. -/
inductive Tells (direction : Direction) (Moved : U → UInt64 → Prop) (failed : List Uuid) (u : U) :
    JournalEntry → Prop
  | success {label : String} {bytes : UInt64} : Transferable.remotePath u = some label →
      Moved u bytes → Transferable.id u ∉ failed →
      Tells direction Moved failed u ⟨direction, Transferable.id u, label, .success, bytes, 0⟩
  | failure {label : String} : Transferable.remotePath u = some label →
      (∀ bytes, ¬Moved u bytes) → Transferable.id u ∈ failed →
      Tells direction Moved failed u ⟨direction, Transferable.id u, label, .failure, 0, 0⟩

/-- A report tells of each unit once, and names no other as failed. -/
structure Accounts (direction : Direction) (Moved : U → UInt64 → Prop) (units : List U)
    (report : PhaseReport) : Prop where
  entries : ∃ entries, entries ~ report.entries ∧
    Forall₂ (Tells direction Moved report.outcome.failed) units entries
  failed_nodup : report.outcome.failed.Nodup
  failed_subset : report.outcome.failed ⊆ units.map Transferable.id

/-- The world in which the job of a unit runs, as the jobs of the units before it leave it. -/
def worldBefore (steps : PhaseSteps U ρ α W) (units : List U) (world : W) (u : U) : W :=
  (jobs steps (units.takeWhile (Transferable.id · ≠ Transferable.id u)) world).2

section Jobs

variable {steps : PhaseSteps U ρ α W} {Ready : U → Prop} (law : steps.Law Ready) {units : List U}
  {world : W} {result : Uuid → Except Failure α}

include law

theorem result_eq_run_worldBefore (hready : ∀ u ∈ units, Ready u)
    (hnodup : (units.map Transferable.id).Nodup)
    (hresult : (jobs steps units world).1 =
      units.map fun u => (Transferable.id u, result (Transferable.id u))) {u : U} (hu : u ∈ units) :
    result (Transferable.id u) =
      (steps.run (law.request u) (worldBefore steps units world u)).1 := by
  obtain ⟨before, after, rfl⟩ := append_of_mem hu
  have hbefore : (before ++ u :: after).takeWhile (Transferable.id · ≠ Transferable.id u) =
      before := by
    have hne : ∀ v ∈ before, decide (Transferable.id v ≠ Transferable.id u) = true := by
      intro v hv
      rw [map_append, nodup_append] at hnodup
      exact decide_eq_true
        (hnodup.2.2 _ (mem_map_of_mem hv) _ (mem_map_of_mem mem_cons_self))
    rw [takeWhile_append_of_pos hne, takeWhile_cons_of_neg (by simp), append_nil]
  unfold worldBefore
  rw [hbefore]
  exact result_eq_run law hready hresult

/-- Where it is known of every unit what its job has moved if it succeeds, the entries of the jobs
account for the units. -/
theorem accounts_of_jobs (hready : ∀ u ∈ units, Ready u)
    (hnodup : (units.map Transferable.id).Nodup)
    (hresult : (jobs steps units world).1 =
      units.map fun u => (Transferable.id u, result (Transferable.id u)))
    (direction : Direction) (size : α → UInt64) {Moved : U → UInt64 → Prop}
    (hlabel : ∀ u ∈ units, Transferable.remotePath u = some (Transferable.label u))
    (hmoved : ∀ u ∈ units, ∀ bytes, Moved u bytes ↔
      ∃ a, (steps.run (law.request u) (worldBefore steps units world u)).1 = .ok a ∧
        size a = bytes)
    {report : PhaseReport}
    (hentries : report.entries = (told units result).map (Verdict.entry direction size))
    (hfailed : report.outcome.failed = failedIn (jobs steps units world).1) :
    Accounts direction Moved units report := by
  have hkeys : (jobs steps units world).1.map Prod.fst = units.map Transferable.id := by
    rw [hresult, map_map]
    rfl
  -- Ids tell the units apart, so a failure under the id of a unit is that of its job.
  have hmem (u : U) (hu : u ∈ units) : Transferable.id u ∈ report.outcome.failed ↔
      ∃ failure, result (Transferable.id u) = .error failure := by
    rw [hfailed, mem_failedIn, hresult]
    constructor
    · rintro ⟨failure, hmem⟩
      obtain ⟨v, -, heq⟩ := mem_map.1 hmem
      obtain ⟨hid, hfailure⟩ := Prod.mk.inj heq
      exact ⟨failure, hid ▸ hfailure⟩
    · rintro ⟨failure, hfailure⟩
      exact ⟨failure, mem_map.2 ⟨u, hu, by rw [hfailure]⟩⟩
  refine ⟨⟨report.entries, .refl _, ?_⟩, ?_, ?_⟩
  · rw [hentries, told, map_map, forall₂_map_right_iff, forall₂_same]
    intro u hu
    have hrun := result_eq_run_worldBefore law hready hnodup hresult hu
    dsimp only [Function.comp_apply, Verdict.entry]
    cases hu' : result (Transferable.id u) with
    | ok a =>
      refine .success (hlabel u hu) ((hmoved u hu _).2 ⟨a, hrun.symm.trans hu', rfl⟩) ?_
      rw [hmem u hu, hu']
      rintro ⟨failure, ⟨⟩⟩
    | error failure =>
      refine .failure (hlabel u hu) (fun bytes hbytes => ?_) ((hmem u hu).2 ⟨failure, hu'⟩)
      obtain ⟨a, ha, -⟩ := (hmoved u hu bytes).1 hbytes
      cases (hrun.symm.trans hu').symm.trans ha
  · rw [hfailed]
    exact nodup_failedIn (hkeys ▸ hnodup)
  · rw [hfailed, ← hkeys]
    exact (filter_sublist.map _).subset

end Jobs

section Services

variable {σ : Type} [Services σ]

/-! ## Staging -/

/-- In the world, the copy of a unit is read, and the store takes all its bytes: so many. -/
def Uploaded (world : World σ) (u : OutgoingUnit) (bytes : UInt64) : Prop :=
  ∃ copy remotePath content world', u.localPath = some copy ∧ u.remotePath = some remotePath ∧
    world.disk.read copy = .ok content ∧
    Services.upload content remotePath world = (.ok (), world') ∧
    bytes = UInt64.ofNat content.length

theorem uploaded_iff {u : OutgoingUnit} (h : IsStageable u) (world : World σ) (bytes : UInt64) :
    Uploaded world u bytes ↔
      ∃ size, (stageSteps.run ((stageLaw (σ := σ)).request u) world).1 = .ok size ∧
        size = bytes := by
  obtain ⟨-, hlocal, hremote⟩ := h
  obtain ⟨copy, hcopy⟩ := Option.isSome_iff_exists.1 hlocal
  obtain ⟨remotePath, hpath⟩ := Option.isSome_iff_exists.1 hremote
  have hrequest : (stageLaw (σ := σ)).request u = ⟨u.id, copy, remotePath⟩ := by
    simp only [stageLaw, hcopy, hpath, Option.getD_some]
  rw [hrequest]
  change _ ↔ ∃ size, (uploadCopy ⟨u.id, copy, remotePath⟩ world).1 = .ok size ∧ size = bytes
  unfold uploadCopy
  constructor
  · rintro ⟨copy', remotePath', content, world', hcopy', hpath', hread, hupload, rfl⟩
    cases hcopy.symm.trans hcopy'
    cases hpath.symm.trans hpath'
    simp only [hread, hupload]
    exact ⟨_, rfl, rfl⟩
  · rintro ⟨size, hsize, rfl⟩
    dsimp only at hsize
    split at hsize
    · cases hsize
    · next content hread =>
      split at hsize
      · cases hsize
      · next world' hupload =>
        cases hsize
        exact ⟨copy, remotePath, content, world', hcopy, hpath, hread, hupload, rfl⟩

/-- A publication adds nothing to what was to be reported, whichever way it ends. -/
theorem report_of_publish {settings : Settings} {entries : List JournalEntry}
    {batch : OutgoingBatch} {world : World σ} {report : PhaseReport}
    (h : (publish settings entries batch world).1 = .ok report) :
    report.entries = entries ∧ report.outcome.failed = [] := by
  unfold publish at h
  split at h
  · cases h
  · split at h
    · cases h
      exact ⟨rfl, rfl⟩
    · dsimp only at h
      split_ifs at h
      · cases h
        exact ⟨rfl, rfl⟩
      · cases h
        exact ⟨rfl, rfl⟩

theorem loaded_of_runStage {settings : Settings} {batch : OutgoingBatch} {world : World σ}
    {report : PhaseReport} (h : (runStage settings batch world).1 = .ok report) :
    ∀ u ∈ batch.units, u.state = .loaded := by
  by_contra hne
  push Not at hne
  obtain ⟨u, -, hrefused⟩ := runStage_of_exists settings world hne
  rw [hrefused] at h
  cases h

/-- What staging reports accounts for the uploads, under the remote paths that it has assigned. -/
theorem accounts_runStage {settings : Settings} {batch : OutgoingBatch} {world : World σ}
    (hcoherent : ∀ u ∈ batch.units, u.Coherent) (hnodup : (batch.units.map Transferable.id).Nodup)
    {report : PhaseReport} (h : (runStage settings batch world).1 = .ok report) :
    let units := (withRemotePaths batch).units
    Accounts .upload (fun u => Uploaded (worldBefore stageSteps units world u) u) units report := by
  intro units
  have hstate := loaded_of_runStage h
  have hlocal : ∀ u ∈ batch.units, u.localPath.isSome := fun u hu =>
    (hcoherent u hu).localPath_isSome (.inl (hstate u hu))
  have hready := isStageable_withRemotePaths hstate hlocal
  obtain ⟨result, hresult, hrun⟩ :=
    runStage_of_loaded (le_maxPermits_of_runStage h) world hstate hlocal hnodup
  have hreport : report.entries = (told units result).map (Verdict.entry .upload id) ∧
      report.outcome.failed = failedIn (jobs stageSteps units world).1 := by
    rw [hrun] at h
    split_ifs at h with hnil
    · obtain ⟨hentries, hfailed⟩ := report_of_publish h
      exact ⟨hentries, hfailed.trans hnil.symm⟩
    · cases h
      exact ⟨rfl, rfl⟩
  refine accounts_of_jobs stageLaw hready (id_withRemotePaths batch ▸ hnodup) hresult .upload id
    (fun u hu => ?_) (fun u hu => uploaded_iff (hready u hu) _) hreport.1 hreport.2
  obtain ⟨remotePath, hremote⟩ := Option.isSome_iff_exists.1 (hready u hu).2.2
  change u.remotePath = some (u.remotePath.getD u.name)
  rw [hremote]
  rfl

/-- The units keep those paths, whichever way the staging ends. -/
theorem remotePaths_runStage {settings : Settings} {batch : OutgoingBatch} {world : World σ}
    (hcoherent : ∀ u ∈ batch.units, u.Coherent) (hnodup : (batch.units.map Transferable.id).Nodup)
    {report : PhaseReport} (h : (runStage settings batch world).1 = .ok report) :
    (runStage settings batch world).2.1.units.map (fun u => (u.id, u.remotePath)) =
      (withRemotePaths batch).units.map fun u => (u.id, u.remotePath) := by
  have hstate := loaded_of_runStage h
  have hends := stageEnds_runStage world (le_maxPermits_of_runStage h) hstate
    (fun u hu => (hcoherent u hu).localPath_isSome (.inl (hstate u hu))) hnodup
  generalize runStage settings batch world = ended at hends ⊢
  cases hends with
  | unitsFailed | publishFailed => rfl
  | published =>
    rw [map_map]
    rfl

/-! ## Downloading -/

/-- In the world, the blob of a unit is fetched, and all its bytes are written to the file: so
many. -/
def Written (folder : Path) (world : World σ) (u : IncomingUnit) (bytes : UInt64) : Prop :=
  ∃ content world' made disk, Services.download u.remotePath world = (.ok content, world') ∧
    world'.disk.makeFolders folder = (.ok (), made) ∧
    made.write (u.targetIn folder) content = .ok disk ∧
    bytes = UInt64.ofNat content.length

theorem written_iff (settings : Settings) (u : IncomingUnit) (world : World σ) (bytes : UInt64) :
    Written settings.downloadFolder world u bytes ↔
      ∃ delivery, ((downloadSteps settings).run ((downloadLaw (σ := σ) settings).request u)
        world).1 = .ok delivery ∧ delivery.size = bytes := by
  change _ ↔ ∃ delivery, (fetch settings.downloadFolder ⟨u.id, u.remotePath, u.contentType⟩
    world).1 = .ok delivery ∧ delivery.size = bytes
  unfold fetch
  constructor
  · rintro ⟨content, world', made, disk, hdownload, hmade, hwrite, rfl⟩
    have hdeliver := deliver_eq_ok_iff.2 ⟨made, hmade, hwrite, rfl⟩
    simp only [hdownload]
    exact ⟨_, congrArg Prod.fst hdeliver, rfl⟩
  · rintro ⟨delivery, hdelivery, rfl⟩
    dsimp only at hdelivery
    split at hdelivery
    · cases hdelivery
    · next content world' hdownload =>
      obtain ⟨made, hmade, hwrite, rfl⟩ := deliver_eq_ok_iff.1 (Prod.ext hdelivery rfl)
      exact ⟨content, world', made, _, hdownload, hmade, hwrite, rfl⟩

/-- What a download reports accounts for the files written. -/
theorem accounts_runDownload {settings : Settings} {batch : IncomingBatch} {world : World σ}
    (hnodup : (batch.units.map Transferable.id).Nodup) {report : PhaseReport}
    (h : (runDownload settings batch world).1 = .ok report) :
    Accounts .download
      (fun u => Written settings.downloadFolder
        (worldBefore (downloadSteps settings) batch.units world u) u) batch.units report := by
  have hstate : ∀ u ∈ batch.units, u.state = .received := by
    by_contra hne
    push Not at hne
    obtain ⟨u, -, hrequire⟩ := requireAll_of_exists .download hne
    unfold runDownload at h
    rw [hrequire] at h
    cases h
  obtain ⟨result, hresult, hrun⟩ :=
    runDownload_of_received (le_maxPermits_of_runDownload h) world hstate hnodup
  have hreport :
      report.entries = (told batch.units result).map (Verdict.entry .download Delivery.size) ∧
        report.outcome.failed = failedIn (jobs (downloadSteps settings) batch.units world).1 := by
    rw [hrun] at h
    split_ifs at h with hnil
    · cases h
      exact ⟨rfl, hnil.symm⟩
    · cases h
      exact ⟨rfl, rfl⟩
  exact accounts_of_jobs (downloadLaw settings) hstate hnodup hresult .download Delivery.size
    (fun u _ => rfl) (fun u _ => written_iff settings u _) hreport.1 hreport.2

end Services

end Phase

end PeerTransfer
