import PeerTransfer.Proofs.Phase.Frame
import PeerTransfer.Proofs.Phase.Delivery
import PeerTransfer.Proofs.Services.FaultFree

/-!
# What phases carry along

Where nothing is in the way, which a semaphore without enough permits would be, each phase advances
and takes along what its units hold: loading puts the content of sources into copies
(`runLoad_of_loadable`), staging puts that of copies into the store and publishes the batch
(`runStage_of_faultFree`), and downloading puts what the store has into files
(`runDownload_of_faultFree`).
-/

namespace PeerTransfer

open List

/-- A batch of picked units that can be loaded: ids tell the units apart, no content is brought
into normal form, every source can be read and none lies where a copy is put, and the disk takes
the copies. -/
structure Batch.Loadable (folder : Path) (disk : Disk) (batch : OutgoingBatch) : Prop where
  picked : ∀ u ∈ batch.units, u.state = .picked
  unassigned : ∀ u ∈ batch.units, u.remotePath = none
  unit_ids : (batch.units.map Transferable.id).Nodup
  plain : ∀ u ∈ batch.units, u.contentType ≠ "image/jpeg" ∧ u.contentType ≠ "image/png"
  readable : ∀ u ∈ batch.units, ∃ content, disk.read u.source = .ok content
  apart : ∀ u ∈ batch.units, ∀ v ∈ batch.units, u.source.place ≠ (v.targetIn folder).place
  accepts : disk.Accepts folder (batch.units.map (·.targetIn folder))

namespace Phase

/-! ## Loading -/

/-- A unit with a copy of some content. -/
def loadedIn (folder : Path) (content : Bytes) (unit : OutgoingUnit) : OutgoingUnit :=
  { unit with
    localPath := some (unit.targetIn folder)
    size := UInt64.ofNat content.length
    state := .loaded }

theorem run_of_accepts (request : LoadRequest) {folder : Path} {targets : List Path} {disk : Disk}
    {content : Bytes} (haccepts : disk.Accepts folder targets)
    (htarget : request.targetIn folder ∈ targets)
    (hplain : request.contentType ≠ "image/jpeg" ∧ request.contentType ≠ "image/png")
    (hread : disk.read request.source = .ok content) (quality : UInt8) :
    ∃ disk', request.run folder quality disk =
        (.ok ⟨request.targetIn folder, UInt64.ofNat content.length⟩, disk') ∧
      disk'.Accepts folder targets ∧ disk'.read (request.targetIn folder) = .ok content ∧
      ∀ path : Path, path.place ≠ (request.targetIn folder).place →
        disk.FileWithin path disk' := by
  obtain ⟨made, disk', hmade, hwrite, haccepts'⟩ := haccepts.exists_write htarget content
  have hnormal : Image.normalize request.contentType content quality = .ok content := by
    rw [Image.normalize, if_neg hplain.1, if_neg hplain.2]
  have hrun : request.run folder quality disk =
      (.ok ⟨request.targetIn folder, UInt64.ofNat content.length⟩, disk') :=
    run_eq_ok_iff.2 ⟨content, content, made, hread, hnormal, hmade, hwrite, rfl⟩
  refine ⟨disk', hrun, haccepts', Disk.read_of_write hwrite, fun path hne => ?_⟩
  have hwithin := fileWithin_run hne quality disk
  rwa [hrun] at hwithin

/-- A batch that can be loaded is, and each copy holds what its source held. -/
theorem runLoad_of_loadable {settings : Settings}
    (hlimit : settings.maxConcurrentUnits.toNat ≤ maxPermits) {batch : OutgoingBatch} {disk : Disk}
    (h : batch.Loadable settings.stagingFolder disk) :
    ∃ (content : OutgoingUnit → Bytes) (disk' : Disk),
      runLoad settings batch disk = (.ok ⟨.advanced, []⟩,
        { batch with
          units := batch.units.map fun u => loadedIn settings.stagingFolder (content u) u },
        disk') ∧
      ∀ u ∈ batch.units, disk.read u.source = .ok (content u) ∧
        disk'.read (u.targetIn settings.stagingFolder) = .ok (content u) := by
  set folder := settings.stagingFolder with hfolder
  choose! content hcontent using h.readable
  -- While copies are made, the disk keeps taking them and no source changes.
  have hjobs := jobs_of_independent (loadLaw settings)
    (fun u => ⟨u.targetIn folder, UInt64.ofNat (content u).length⟩)
    (P := fun disk' => disk'.Accepts folder (batch.units.map (·.targetIn folder)) ∧
      ∀ u ∈ batch.units, disk'.read u.source = .ok (content u))
    (Q := fun u disk' => disk'.read (u.targetIn folder) = .ok (content u)) h.picked h.unit_ids
    (by
      rintro u hu disk' ⟨haccepts, hsources⟩
      obtain ⟨disk'', hrun, haccepts', hread, hwithin⟩ := run_of_accepts
        ⟨u.id, u.source, u.contentType⟩ haccepts (mem_map_of_mem hu) (h.plain u hu)
        (hsources u hu) settings.jpegQuality
      have hsources' (v : OutgoingUnit) (hv : v ∈ batch.units) :
          disk''.read v.source = .ok (content v) :=
        hwithin v.source (h.apart v hv u hu) _ (hsources v hv)
      refine ⟨disk'', hrun, ⟨haccepts', hsources'⟩, hread, fun v _ hne hread' => ?_⟩
      exact hwithin _ (OutgoingUnit.place_targetIn_ne hne folder) _ hread')
    disk ⟨h.accepts, hcontent⟩
  obtain ⟨hresults, -, hcopies⟩ := hjobs
  obtain ⟨result, hresult, hrun⟩ := runLoad_of_picked hlimit disk h.picked h.unit_ids
  have hunits : batch.units.map (fun u => (loadLaw settings).settled u (result u.id)) = _ :=
    map_settled_eq_map_completed _ (hresult.symm.trans hresults)
  rw [if_pos (hresults ▸ failedIn_map_ok _ _), hunits] at hrun
  exact ⟨content, _, hrun, fun u hu => ⟨hcontent u hu, hcopies u hu⟩⟩

/-! ## Staging -/

/-- The content of a unit's copy. -/
def copy? (disk : Disk) (unit : OutgoingUnit) : Option Bytes :=
  unit.localPath.bind fun path => (disk.read path).toOption

theorem exists_of_copy {disk : Disk} {unit : OutgoingUnit} {content : Bytes}
    (h : copy? disk unit = some content) :
    ∃ path, unit.localPath = some path ∧ disk.read path = .ok content := by
  obtain ⟨path, hlocal, hread⟩ := Option.bind_eq_some_iff.1 h
  refine ⟨path, hlocal, ?_⟩
  cases hfile : disk.read path with
  | error refusal => simp [hfile, Except.toOption] at hread
  | ok bytes =>
    rw [hfile] at hread
    cases hread
    rfl

theorem remotePathFor_ne {unit unit' : OutgoingUnit} (h : unit.id ≠ unit'.id) (batch : String) :
    remotePathFor batch unit ≠ remotePathFor batch unit' :=
  fun heq => h (remotePathFor_inj heq).2

section Services

variable {σ : Type} [Services σ] (store : FaultFree σ) {settings : Settings} {world : World σ}

theorem uploadCopy_of_faultFree {unit : OutgoingUnit} {content : Bytes} {remotePath : String}
    (hcopy : copy? world.disk unit = some content) (hpath : unit.remotePath = some remotePath)
    (hsound : store.Sound world.services) :
    ∃ services, uploadCopy ((stageLaw (σ := σ)).request unit) world =
        (.ok (UInt64.ofNat content.length), ⟨world.disk, services⟩) ∧ store.Sound services ∧
      store.blob? services =
        Function.update (store.blob? world.services) remotePath (some content) ∧
      store.published services = store.published world.services := by
  obtain ⟨path, hlocal, hread⟩ := exists_of_copy hcopy
  obtain ⟨services, hupload, h⟩ := store.upload world.disk content remotePath hsound
  have hrequest : (stageLaw (σ := σ)).request unit = ⟨unit.id, path, remotePath⟩ := by
    simp only [stageLaw, hlocal, hpath, Option.getD_some]
  refine ⟨services, ?_, h⟩
  unfold uploadCopy
  rw [hrequest, hread]
  dsimp only
  rw [hupload]

/-- Uploads put what the copies hold under the remote paths, of which no two are the same. -/
theorem jobs_stage_of_faultFree {units : List OutgoingUnit} (hready : ∀ u ∈ units, IsStageable u)
    (hnodup : (units.map Transferable.id).Nodup) {content : OutgoingUnit → Bytes}
    (hcopies : ∀ u ∈ units, copy? world.disk u = some (content u))
    {batch : String} (hpaths : ∀ u ∈ units, u.remotePath = some (remotePathFor batch u))
    (hsound : store.Sound world.services) :
    let ran := jobs stageSteps units world
    ran.1 = units.map (fun u => (u.id, .ok (UInt64.ofNat (content u).length))) ∧
      ran.2.disk = world.disk ∧ store.Sound ran.2.services ∧
      store.published ran.2.services = store.published world.services ∧
      ∀ u ∈ units, store.blob? ran.2.services (remotePathFor batch u) = some (content u) := by
  have hjobs := jobs_of_independent (stageLaw (σ := σ))
    (fun u => UInt64.ofNat (content u).length)
    (P := fun world' => world'.disk = world.disk ∧ store.Sound world'.services ∧
      store.published world'.services = store.published world.services)
    (Q := fun u world' => store.blob? world'.services (remotePathFor batch u) = some (content u))
    hready hnodup
    (by
      rintro u hu world' ⟨hdisk, hsound', hpublished⟩
      obtain ⟨services, hupload, hsound'', hblobs, hpublished'⟩ := uploadCopy_of_faultFree store
        (hdisk ▸ hcopies u hu) (hpaths u hu) hsound'
      refine ⟨_, hupload, ⟨hdisk, hsound'', hpublished'.trans hpublished⟩, ?_, ?_⟩
      · change store.blob? services _ = _
        rw [hblobs, Function.update_self]
      · intro v _ hne hblob
        change store.blob? services _ = _
        rw [hblobs, Function.update_of_ne (remotePathFor_ne hne batch)]
        exact hblob)
    world ⟨rfl, hsound, rfl⟩
  exact ⟨hjobs.1, hjobs.2.1.1, hjobs.2.1.2.1, hjobs.2.1.2.2, hjobs.2.2⟩

theorem encodeWire_congr {batch batch' : OutgoingBatch} (hid : batch.id = batch'.id)
    (h : batch.units.map (·.record batch.id) = batch'.units.map (·.record batch.id)) :
    batch.encodeWire = batch'.encodeWire := by
  have hrecords : batch.records = batch'.records := by
    have hmapM (units : List OutgoingUnit) :
        units.mapM (·.record batch.id) = (units.map (·.record batch.id)).mapM id := by
      rw [mapM_map]
      rfl
    unfold Batch.records
    rw [← hid, hmapM, hmapM, h]
  unfold Batch.encodeWire
  rw [hrecords]

/-- A record does not tell whether its unit is staged and still has its copy. -/
theorem map_record_staged (release : Bool) (batch : String) (units : List OutgoingUnit)
    (result : Uuid → Except Failure UInt64) (disk : Disk) :
    let staged := units.map fun u => (stageLaw (σ := σ)).settled u (result u.id)
    (if release then (forAll releaseCopy staged disk).1 else staged).map (·.record batch) =
      units.map (·.record batch) := by
  intro staged
  have hreleased (unit : OutgoingUnit) (disk : Disk) :
      (releaseCopy unit disk).1.record batch = unit.record batch := by
    obtain ⟨localPath, h⟩ := releaseCopy_eq unit disk
    rw [h]
    rfl
  have hstaged : staged.map (·.record batch) = units.map (·.record batch) := by
    rw [map_map]
    apply map_congr_left
    intro u _
    change ((stageLaw (σ := σ)).settled u (result u.id)).record batch = u.record batch
    cases result u.id <;> rfl
  split_ifs
  · exact (map_forAll hreleased staged disk).trans hstaged
  · exact hstaged

theorem units_withRemotePaths {batch : OutgoingBatch} (h : ∀ u ∈ batch.units, u.remotePath = none) :
    (withRemotePaths batch).units =
      batch.units.map fun u => { u with remotePath := some (remotePathFor batch.id u) } := by
  apply map_congr_left
  intro u hu
  rw [ensureRemotePath_eq, h u hu]
  rfl

variable (world) in
/-- A batch of loaded units is staged: the store has what their copies hold, and the registry has
the descriptor. -/
theorem runStage_of_faultFree (hlimit : settings.maxConcurrentUnits.toNat ≤ maxPermits)
    {batch : OutgoingBatch} (hstate : ∀ u ∈ batch.units, u.state = .loaded)
    (hunassigned : ∀ u ∈ batch.units, u.remotePath = none)
    (hnodup : (batch.units.map Transferable.id).Nodup)
    (hcopies : ∀ u ∈ batch.units, (copy? world.disk u).isSome)
    (hsound : store.Sound world.services) :
    ∃ entries staged world', runStage settings batch world =
        (.ok ⟨.advanced, entries⟩, staged, world') ∧ store.Sound world'.services ∧
      (∀ u ∈ batch.units, store.blob? world'.services (remotePathFor batch.id u) =
        copy? world.disk u) ∧
      store.published world'.services =
        store.published world.services ++ [(withRemotePaths batch).descriptor] ∧
      staged.encodeWire = (withRemotePaths batch).encodeWire := by
  set start := withRemotePaths batch with hstart
  have hassigned : start.units = _ := units_withRemotePaths hunassigned
  have hlocal : ∀ u ∈ batch.units, u.localPath.isSome := by
    intro u hu
    obtain ⟨content, hcopy⟩ := Option.isSome_iff_exists.1 (hcopies u hu)
    obtain ⟨path, hpath, -⟩ := exists_of_copy hcopy
    rw [hpath]
    rfl
  have hready : ∀ v ∈ start.units, IsStageable v := by
    rw [hassigned, forall_mem_map]
    exact fun u hu => ⟨hstate u hu, hlocal u hu, rfl⟩
  have hpaths : ∀ v ∈ start.units, v.remotePath = some (remotePathFor batch.id v) := by
    rw [hassigned, forall_mem_map]
    exact fun u _ => rfl
  have hcopies' : ∀ v ∈ start.units, ∃ content, copy? world.disk v = some content := by
    rw [hassigned, forall_mem_map]
    exact fun u hu => Option.isSome_iff_exists.1 (hcopies u hu)
  choose! content hcontent using hcopies'
  obtain ⟨hresults, hdisk, hsound', hpublished, hblobs⟩ := jobs_stage_of_faultFree store hready
    (id_withRemotePaths batch ▸ hnodup) hcontent hpaths hsound
  obtain ⟨result, hresult, hrun⟩ := runStage_of_loaded hlimit world hstate hlocal hnodup
  rw [if_pos (hresults ▸ failedIn_map_ok _ _)] at hrun
  have hpaths' : ∀ v ∈ start.units, v.remotePath.isSome := by
    intro v hv
    rw [hpaths v hv]
    rfl
  have hdescribe := (describe_map_settled (σ := σ) start result).trans
    (Batch.describe_eq_ok hpaths')
  obtain ⟨reference, services, hpublish, hsound'', hblobs', hpublished'⟩ :=
    store.publish start.descriptor hsound'
  rw [publish_of_published settings _ hdescribe hpublish] at hrun
  refine ⟨_, _, _, hrun, hsound'', ?_, ?_, ?_⟩
  · intro u hu
    have hmem : { u with remotePath := some (remotePathFor batch.id u) } ∈ start.units := by
      rw [hassigned]
      exact mem_map_of_mem hu
    exact (congrFun hblobs' _).trans ((hblobs _ hmem).trans (hcontent _ hmem).symm)
  · exact hpublished'.trans (congrArg (· ++ _) hpublished)
  · refine encodeWire_congr rfl ?_
    exact map_record_staged settings.releaseAfterStage batch.id start.units result _

/-! ## Downloading -/

/-- A unit with its file. -/
def downloadedIn (folder : Path) (unit : IncomingUnit) : IncomingUnit :=
  { unit with localPath := some (unit.targetIn folder), state := .downloaded }

theorem fetch_of_faultFree {folder : Path} {targets : List Path} (request : DownloadRequest)
    {content : Bytes} (hblob : store.blob? world.services request.remotePath = some content)
    (haccepts : world.disk.Accepts folder targets) (htarget : request.targetIn folder ∈ targets)
    (hsound : store.Sound world.services) :
    ∃ world', fetch folder request world =
        (.ok ⟨request.targetIn folder, UInt64.ofNat content.length⟩, world') ∧
      store.Sound world'.services ∧ store.blob? world'.services = store.blob? world.services ∧
      world'.disk.Accepts folder targets ∧
      world'.disk.read (request.targetIn folder) = .ok content ∧
      ∀ path : Path, path.place ≠ (request.targetIn folder).place →
        world.disk.FileWithin path world'.disk := by
  obtain ⟨services, hdownload, hsound', hblobs⟩ := store.download world.disk hsound hblob
  obtain ⟨disk, haccepts', hdeliver⟩ := deliver_of_accepts haccepts htarget content
  have hread := (eq_of_deliver (congrArg Prod.fst hdeliver)).2
  have hwithin (path : Path) (hne : path.place ≠ (request.targetIn folder).place) :=
    fileWithin_deliver hne folder content world.disk
  rw [hdeliver] at hread hwithin
  refine ⟨⟨disk, services⟩, ?_, hsound', hblobs, haccepts', hread, hwithin⟩
  unfold fetch
  rw [hdownload]
  dsimp only
  rw [hdeliver]

/-- A batch of which the store has everything is downloaded, and each file holds what the store
has for its unit. -/
theorem runDownload_of_faultFree (hlimit : settings.maxConcurrentUnits.toNat ≤ maxPermits)
    {batch : IncomingBatch} (hstate : ∀ u ∈ batch.units, u.state = .received)
    (hnodup : (batch.units.map Transferable.id).Nodup) {content : IncomingUnit → Bytes}
    (hblobs : ∀ u ∈ batch.units,
      store.blob? world.services u.remotePath = some (content u))
    (haccepts : world.disk.Accepts settings.downloadFolder
      (batch.units.map (·.targetIn settings.downloadFolder)))
    (hsound : store.Sound world.services) :
    ∃ entries world', runDownload settings batch world = (.ok ⟨.advanced, entries⟩,
        { batch with units := batch.units.map (downloadedIn settings.downloadFolder) }, world') ∧
      ∀ u ∈ batch.units,
        world'.disk.read (u.targetIn settings.downloadFolder) = .ok (content u) := by
  set folder := settings.downloadFolder with hfolder
  have hjobs := jobs_of_independent (downloadLaw (σ := σ) settings)
    (fun u => ⟨u.targetIn folder, UInt64.ofNat (content u).length⟩)
    (P := fun world' => store.Sound world'.services ∧
      store.blob? world'.services = store.blob? world.services ∧
      world'.disk.Accepts folder (batch.units.map (·.targetIn folder)))
    (Q := fun u world' => world'.disk.read (u.targetIn folder) = .ok (content u)) hstate hnodup
    (by
      rintro u hu world' ⟨hsound', hkept, haccepts'⟩
      obtain ⟨world'', hfetch, hsound'', hkept', haccepts'', hread, hwithin⟩ := fetch_of_faultFree
        store ⟨u.id, u.remotePath, u.contentType⟩ ((congrFun hkept _).trans (hblobs u hu))
        haccepts' (mem_map_of_mem hu) hsound'
      refine ⟨world'', hfetch, ⟨hsound'', hkept'.trans hkept, haccepts''⟩, hread, ?_⟩
      intro v _ hne hread'
      exact hwithin _ (IncomingUnit.place_targetIn_ne hne folder) _ hread')
    world ⟨hsound, rfl, haccepts⟩
  obtain ⟨hresults, -, hfiles⟩ := hjobs
  obtain ⟨result, hresult, hrun⟩ := runDownload_of_received hlimit world hstate hnodup
  have hunits : batch.units.map (fun u =>
      (downloadLaw (σ := σ) settings).settled u (result u.id)) = _ :=
    map_settled_eq_map_completed _ (hresult.symm.trans hresults)
  rw [if_pos (hresults ▸ failedIn_map_ok _ _), hunits] at hrun
  exact ⟨_, _, hrun, hfiles⟩

end Services

end Phase

end PeerTransfer
