import PeerTransfer.Proofs.Phase.Outcome
import PeerTransfer.Proofs.Unit.Target

/-!
# Downloads from a store that has everything

Where the store has every blob of a batch (`Stocks`) and the disk takes every file
(`Disk.Accepts`), no job of a download fails (`results_of_stocked`). Whether the results then fit
the units is a matter of ids alone: of two results for one unit the second is refused
(`settle_downloaded`).
-/

namespace PeerTransfer

open List

/-- A disk that has the folder, or can make it, and then takes each of the files. -/
def Disk.Accepts (disk : Disk) (folder : Path) (targets : List Path) : Prop :=
  ∃ made, disk.makeFolders folder = (.ok (), made) ∧
    ∀ target ∈ targets, ∃ l, made.locate target = .ok l ∧ made.lookup l ≠ some .folder

theorem Disk.accepts_of_place {disk : Disk} (made : Disk) {folder : Path} {targets : List Path}
    (hmade : disk.makeFolders folder = (.ok (), made))
    (htargets : ∀ target ∈ targets, made.locate target = .ok target.place ∧
      made.lookup target.place ≠ some .folder) : disk.Accepts folder targets :=
  ⟨made, hmade, fun target htarget => ⟨target.place, htargets target htarget⟩⟩

/-- What was written does not keep the disk from taking more. -/
theorem Disk.Accepts.exists_write {disk : Disk} {folder target : Path} {targets : List Path}
    (h : disk.Accepts folder targets) (htarget : target ∈ targets) (content : Bytes) :
    ∃ made disk', disk.makeFolders folder = (.ok (), made) ∧
      made.write target content = .ok disk' ∧ disk'.Accepts folder targets := by
  obtain ⟨made, hmade, htargets⟩ := h
  obtain ⟨l, hlocate, hfolder⟩ := htargets target htarget
  -- No folder gives way to the file, so all paths lead where they led.
  have hwithin : made.FoldersWithin (made.put l (.file content)) :=
    Disk.foldersWithin_put hfolder _
  refine ⟨made, made.put l (.file content), hmade, Disk.write_of_locate hlocate hfolder content,
    _, Disk.makeFolders_of_makeFolders hmade hwithin, fun target' htarget' => ?_⟩
  obtain ⟨l', hlocate', hfolder'⟩ := htargets target' htarget'
  refine ⟨l', Disk.locate_of_folders hwithin hlocate', ?_⟩
  by_cases heq : l' = l
  · subst heq
    have hroot : l' ≠ [] := by
      rintro rfl
      exact hfolder (Disk.lookup_root made)
    rw [Disk.lookup_put_self made hroot]
    simp
  · rwa [Disk.lookup_put_of_ne made heq]

/-- A store that has the blobs of some paths and, however often it is asked, keeps them and leaves
the disk alone; `Kept` holds of its states. -/
def Stocks {σ : Type} [Services σ] (paths : List String) (Kept : σ → Prop) : Prop :=
  ∀ path ∈ paths, ∀ (disk : Disk) (services : σ), Kept services →
    ∃ content services', Kept services' ∧
      Services.download path ⟨disk, services⟩ = (.ok content, ⟨disk, services'⟩)

namespace Phase

/-! ## Jobs that succeed -/

theorem deliver_of_accepts {disk : Disk} {folder target : Path} {targets : List Path}
    (h : disk.Accepts folder targets) (htarget : target ∈ targets) (content : Bytes) :
    ∃ disk', disk'.Accepts folder targets ∧ deliver folder target content disk =
      (.ok ⟨target, UInt64.ofNat content.length⟩, disk') := by
  obtain ⟨made, disk', hmade, hwrite, haccepts⟩ := h.exists_write htarget content
  refine ⟨disk', haccepts, ?_⟩
  unfold deliver
  rw [hmade]
  dsimp only
  rw [hwrite]

section Stocked

variable {σ : Type} [Services σ] {paths : List String} {Kept : σ → Prop} {folder : Path}
  {targets : List Path}

theorem fetch_of_stocked (hstocks : Stocks paths Kept) {request : DownloadRequest} {world : World σ}
    (hpath : request.remotePath ∈ paths) (htarget : request.targetIn folder ∈ targets)
    (hkept : Kept world.services) (hdisk : world.disk.Accepts folder targets) :
    ∃ size world', Kept world'.services ∧ world'.disk.Accepts folder targets ∧
      fetch folder request world = (.ok ⟨request.targetIn folder, size⟩, world') := by
  obtain ⟨content, services, hkept', hdownload⟩ :=
    hstocks request.remotePath hpath world.disk world.services hkept
  obtain ⟨disk, hdisk', hdeliver⟩ := deliver_of_accepts hdisk htarget content
  refine ⟨UInt64.ofNat content.length, ⟨disk, services⟩, hkept', hdisk', ?_⟩
  unfold fetch
  rw [hdownload]
  dsimp only
  rw [hdeliver]

theorem runAll_of_stocked (hstocks : Stocks paths Kept) {requests : List DownloadRequest}
    (hpaths : ∀ request ∈ requests, request.remotePath ∈ paths)
    (htargets : ∀ request ∈ requests, request.targetIn folder ∈ targets) {world : World σ}
    (hkept : Kept world.services) (hdisk : world.disk.Accepts folder targets) :
    ∀ result ∈ (runAll DownloadRequest.unit (fetch folder) requests world).1,
      ∃ request ∈ requests, ∃ size,
        result = (request.unit, .ok ⟨request.targetIn folder, size⟩) := by
  induction requests generalizing world with
  | nil =>
    intro result hresult
    exact absurd hresult not_mem_nil
  | cons request requests ih =>
    rw [forall_mem_cons] at hpaths htargets
    obtain ⟨size, world', hkept', hdisk', hfetch⟩ :=
      fetch_of_stocked hstocks hpaths.1 htargets.1 hkept hdisk
    have hrest := ih hpaths.2 htargets.2 hkept' hdisk'
    unfold runAll
    rw [hfetch]
    refine forall_mem_cons.2 ⟨⟨request, mem_cons_self, size, rfl⟩, fun result hresult => ?_⟩
    obtain ⟨request', hrequest', hsize⟩ := hrest result hresult
    exact ⟨request', mem_cons_of_mem _ hrequest', hsize⟩

theorem results_of_stocked (settings : Settings) {batch : IncomingBatch} {world : World σ}
    (hstate : ∀ u ∈ batch.units, u.state = .received)
    (hstocks : Stocks (batch.units.map (·.remotePath)) Kept) (hkept : Kept world.services)
    (hdisk : world.disk.Accepts settings.downloadFolder
      (batch.units.map (·.targetIn settings.downloadFolder))) :
    ∀ result ∈ (jobs (downloadSteps settings) batch.units world).1, ∃ u ∈ batch.units, ∃ size,
      result = (u.id, .ok ⟨u.targetIn settings.downloadFolder, size⟩) := by
  rw [jobs_of_ready (downloadLaw settings) hstate]
  have hpaths : ∀ request ∈ batch.units.map (downloadLaw (σ := σ) settings).request,
      request.remotePath ∈ batch.units.map (·.remotePath) := by
    intro request hrequest
    obtain ⟨u, hu, rfl⟩ := mem_map.1 hrequest
    exact mem_map.2 ⟨u, hu, rfl⟩
  have htargets : ∀ request ∈ batch.units.map (downloadLaw (σ := σ) settings).request,
      request.targetIn settings.downloadFolder ∈
        batch.units.map (·.targetIn settings.downloadFolder) := by
    intro request hrequest
    obtain ⟨u, hu, rfl⟩ := mem_map.1 hrequest
    exact mem_map.2 ⟨u, hu, rfl⟩
  intro result hresult
  obtain ⟨request, hrequest, size, hsize⟩ :=
    runAll_of_stocked hstocks hpaths htargets hkept hdisk result hresult
  obtain ⟨u, hu, rfl⟩ := mem_map.1 hrequest
  exact ⟨u, hu, size, hsize⟩

end Stocked

/-! ## Two results for one unit -/

section Repeated

variable {σ : Type} [Services σ] {settings : Settings}

theorem settle_of_downloading (settings : Settings) {units : List IncomingUnit} {id : Uuid}
    {unit : IncomingUnit} (hunit : units.find? (Transferable.id · = id) = some unit)
    (hstate : unit.state = .downloading) (delivery : Delivery)
    (results : List (Uuid × Except Failure Delivery)) :
    settle (downloadSteps (σ := σ) settings) ((id, .ok delivery) :: results) units =
      settle (downloadSteps (σ := σ) settings) results
        (replaceFirst Transferable.id
          { unit with localPath := some delivery.path, state := .downloaded } units) := by
  rw [settle, hunit]
  simp only [settleOne, downloadSteps, IncomingUnit.completeDownload, hstate, if_true]

theorem settle_of_not_downloading (settings : Settings) {units : List IncomingUnit} {id : Uuid}
    {unit : IncomingUnit} (hunit : units.find? (Transferable.id · = id) = some unit)
    (hstate : unit.state ≠ .downloading) (delivery : Delivery)
    (results : List (Uuid × Except Failure Delivery)) :
    (settle (downloadSteps (σ := σ) settings) ((id, .ok delivery) :: results) units).1 =
      .error (.incomingConflict .completeDownload unit.id unit.state) := by
  rw [settle, hunit]
  simp only [settleOne, downloadSteps, IncomingUnit.completeDownload, hstate, if_false]
  rfl

/-- Results of downloads that succeeded are either all for units of their own that are
downloading, or one of them meets a unit in the wrong state. -/
theorem settle_downloaded (settings : Settings) {results : List (Uuid × Except Failure Delivery)}
    {units : List IncomingUnit} (hok : ∀ result ∈ results, ∃ delivery, result.2 = .ok delivery)
    (hfound : ∀ result ∈ results, result.1 ∈ units.map Transferable.id) :
    (∃ failure : Failure, failure.isStateConflict ∧
      (settle (downloadSteps (σ := σ) settings) results units).1 = .error failure) ∨
    (results.map Prod.fst).Nodup ∧
      ∀ unit, ∀ id ∈ results.map Prod.fst, units.find? (Transferable.id · = id) = some unit →
        unit.state = .downloading := by
  induction results generalizing units with
  | nil => exact .inr ⟨nodup_nil, fun unit id hid => absurd hid not_mem_nil⟩
  | cons result results ih =>
    obtain ⟨id, result⟩ := result
    rw [forall_mem_cons] at hok hfound
    obtain ⟨⟨delivery, rfl⟩, hok⟩ := hok
    have hsome : (units.find? (Transferable.id · = id)).isSome := by
      obtain ⟨u, hu, rfl⟩ := mem_map.1 hfound.1
      exact find?_isSome.2 ⟨u, hu, decide_eq_true rfl⟩
    obtain ⟨unit, hunit⟩ := Option.isSome_iff_exists.1 hsome
    have hid : Transferable.id unit = id := by simpa using find?_some hunit
    by_cases hstate : unit.state = .downloading
    · rw [settle_of_downloading settings hunit hstate]
      set unit' : IncomingUnit :=
        { unit with localPath := some delivery.path, state := .downloaded } with hunit'
      have hfound' : ∀ result ∈ results,
          result.1 ∈ (replaceFirst Transferable.id unit' units).map Transferable.id := by
        rw [map_replaceFirst]
        exact hfound.2
      apply (ih hok hfound').imp_right
      intro hrest
      obtain ⟨hnodup, hdownloading⟩ := hrest
      -- The unit is downloaded now, so no other result can be for it.
      have hself : (replaceFirst Transferable.id unit' units).find? (Transferable.id · = id) =
          some unit' := find?_replaceFirst hunit rfl
      have hnot : id ∉ results.map Prod.fst := by
        intro hmem
        have hdownloaded : unit'.state = .downloading := hdownloading unit' id hmem hself
        rw [hunit'] at hdownloaded
        cases hdownloaded
      refine ⟨nodup_cons.2 ⟨hnot, hnodup⟩, fun v id' hid' hv => ?_⟩
      rcases mem_cons.1 hid' with rfl | hid'
      · rw [hunit, Option.some.injEq] at hv
        exact hv ▸ hstate
      · have hne : id' ≠ Transferable.id unit' := fun heq => hnot (hid ▸ heq ▸ hid')
        exact hdownloading v id' hid' ((find?_replaceFirst_of_ne hne units).trans hv)
    · exact .inl ⟨_, rfl, settle_of_not_downloading settings hunit hstate delivery results⟩

theorem runDownload_of_repeated (hlimit : settings.maxConcurrentUnits.toNat ≤ maxPermits)
    {batch : IncomingBatch} {world : World σ} (hstate : ∀ u ∈ batch.units, u.state = .received)
    (hrepeated : ¬(batch.units.map Transferable.id).Nodup)
    (hok : ∀ result ∈ (jobs (downloadSteps settings) batch.units world).1,
      ∃ delivery, result.2 = .ok delivery) :
    ∃ failure : Failure, failure.isStateConflict ∧
      (runDownload settings batch world).1 = .error failure := by
  have hkeys := map_fst_jobs_of_ready (downloadLaw settings) hstate world
  set begun := batch.units.map (downloadLaw (σ := σ) settings).begun with hbegun
  set results := (jobs (downloadSteps settings) batch.units world).1
  set ended := inOrderOfEnding settings.maxConcurrentUnits.toNat
    (comesAtOnce (downloadSteps (σ := σ) settings)) [] results
  have hperm : ended ~ results := (inOrderOfEnding_perm _ _ [] _).trans (by rw [nil_append])
  have hok' : ∀ result ∈ ended, ∃ delivery, result.2 = .ok delivery :=
    fun result hresult => hok result (hperm.mem_iff.1 hresult)
  have hfound : ∀ result ∈ ended, result.1 ∈ begun.map Transferable.id := by
    intro result hresult
    rw [hbegun, map_map]
    exact hkeys ▸ mem_map_of_mem (hperm.mem_iff.1 hresult)
  rcases settle_downloaded (σ := σ) settings hok' hfound with
    ⟨failure, hconflict, hsettle⟩ | ⟨hnodup, -⟩
  · refine ⟨failure, hconflict, ?_⟩
    unfold runDownload
    rw [requireAll_of_forall hstate, attempt_eq_settle (downloadLaw settings) hlimit hstate]
    dsimp only
    rw [hsettle]
    rfl
  · rw [(hperm.map Prod.fst).nodup_iff, hkeys] at hnodup
    exact absurd hnodup hrepeated

end Repeated

end Phase

end PeerTransfer
