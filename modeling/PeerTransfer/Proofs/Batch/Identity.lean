import PeerTransfer.Batch.Handover
import PeerTransfer.Proofs.Phase.AllOrNothing
import PeerTransfer.Proofs.Phase.Delivery
import PeerTransfer.Proofs.Services.FaultFree

/-!
# Whether ids tell units apart

A descriptor files its units under texts, and a batch knows them by the ids that the texts are read
as. Texts that differ may be read as the same id; then two units of the batch share it, and the
batch cannot be downloaded from any store (`download_ofDescriptor`).
-/

namespace PeerTransfer

open List

namespace Batch

theorem units_of_build {U : Type} {draft : Draft U} {id : String} {batch : Batch U}
    (h : draft.build id = .ok batch) : batch.id = id ∧ batch.units = draft.units := by
  rw [eq_of_build h]
  exact ⟨rfl, rfl⟩

theorem mapM_unitOfEntry {entries : List (String × UnitDescriptor)} {units : List IncomingUnit}
    (h : entries.mapM (fun (key, unit) => unitOfEntry key unit) = .ok units) :
    entries.map (Uuid.parse? ·.1) = units.map (some ·.id) ∧ ∀ u ∈ units, u.state = .received := by
  induction entries generalizing units with
  | nil =>
    cases h
    exact ⟨rfl, fun u hu => absurd hu not_mem_nil⟩
  | cons entry entries ih =>
    obtain ⟨key, unit⟩ := entry
    rw [mapM_cons] at h
    change (unitOfEntry key unit >>= fun unit =>
      entries.mapM (fun (key, unit) => unitOfEntry key unit) >>= fun rest =>
        pure (unit :: rest)) = _ at h
    cases hparse : Uuid.parse? key with
    | none =>
      have hunit : unitOfEntry key unit = .error (.unreadableUnitId key) := by
        rw [unitOfEntry, hparse]
      rw [hunit] at h
      cases h
    | some id =>
      have hunit : unitOfEntry key unit = .ok (IncomingUnit.announced id
          (nameInPath unit.remotePath) unit.remotePath unit.contentType unit.size) := by
        rw [unitOfEntry, hparse]
      rw [hunit] at h
      cases hrest : entries.mapM (fun (key, unit) => unitOfEntry key unit) with
      | error failure =>
        rw [hrest] at h
        cases h
      | ok rest =>
        rw [hrest] at h
        cases h
        obtain ⟨hids, hstate⟩ := ih hrest
        refine ⟨?_, forall_mem_cons.2 ⟨rfl, hstate⟩⟩
        rw [map_cons, map_cons, hids, hparse]
        rfl

theorem exists_of_mem_mapM {α β : Type} {f : α → Except Failure β} {as : List α} {bs : List β}
    (h : as.mapM f = .ok bs) {b : β} (hb : b ∈ bs) : ∃ a ∈ as, f a = .ok b := by
  induction as generalizing bs with
  | nil =>
    cases h
    exact absurd hb not_mem_nil
  | cons a as ih =>
    rw [mapM_cons] at h
    cases hfirst : f a with
    | error failure =>
      rw [hfirst] at h
      cases h
    | ok first =>
      rw [hfirst] at h
      cases hrest : as.mapM f with
      | error failure =>
        rw [hrest] at h
        cases h
      | ok rest =>
        rw [hrest] at h
        cases h
        rcases mem_cons.1 hb with rfl | hb
        · exact ⟨a, mem_cons_self, hfirst⟩
        · obtain ⟨a', ha', heq⟩ := ih hrest hb
          exact ⟨a', mem_cons_of_mem a ha', heq⟩

variable {descriptor : Descriptor} {sender receiver : String} {batch : IncomingBatch}

/-- A batch is made of the units that its descriptor's entries announce. -/
theorem exists_units_of_ofDescriptor (h : ofDescriptor descriptor sender receiver = .ok batch) :
    ∃ units, descriptor.units.entries.mapM (fun (key, unit) => unitOfEntry key unit) = .ok units ∧
      batch = ⟨descriptor.batchId, descriptor.token, sender, receiver, units, none⟩ := by
  unfold ofDescriptor at h
  cases hunits : descriptor.units.entries.mapM (fun (key, unit) => unitOfEntry key unit) with
  | error failure =>
    rw [hunits] at h
    cases h
  | ok units =>
    rw [hunits] at h
    exact ⟨units, rfl, eq_of_build h⟩

/-- No unit that is announced has a file yet. -/
theorem localPath_of_ofDescriptor (h : ofDescriptor descriptor sender receiver = .ok batch) :
    ∀ u ∈ batch.units, u.localPath = none := by
  intro u hu
  obtain ⟨units, hunits, rfl⟩ := exists_units_of_ofDescriptor h
  obtain ⟨⟨key, unit⟩, -, hentry⟩ := exists_of_mem_mapM hunits hu
  dsimp only [unitOfEntry] at hentry
  cases hparse : Uuid.parse? key with
  | none =>
    rw [hparse] at hentry
    cases hentry
  | some id =>
    rw [hparse] at hentry
    cases hentry
    rfl

theorem ofDescriptor_units (h : ofDescriptor descriptor sender receiver = .ok batch) :
    batch.id = descriptor.batchId ∧
      descriptor.units.keys.map Uuid.parse? = batch.units.map (some ·.id) ∧
      ∀ u ∈ batch.units, u.state = .received := by
  obtain ⟨units, hunits, rfl⟩ := exists_units_of_ofDescriptor h
  rw [Catalog.keys, map_map]
  exact ⟨rfl, mapM_unitOfEntry hunits⟩

theorem nodup_ids_ofDescriptor_iff (h : ofDescriptor descriptor sender receiver = .ok batch) :
    (batch.units.map Transferable.id).Nodup ↔ (descriptor.units.keys.map Uuid.parse?).Nodup := by
  have hids : descriptor.units.keys.map Uuid.parse? =
      (batch.units.map Transferable.id).map some := by
    rw [(ofDescriptor_units h).2.1, map_map]
    rfl
  rw [hids, nodup_map_iff (Option.some_injective Uuid)]

end Batch

namespace Phase

variable {σ : Type} [Services σ]

/-- Where no job fails and ids tell the units apart, each unit is downloaded to its own file. -/
theorem runDownload_of_stocked {settings : Settings}
    (hlimit : settings.maxConcurrentUnits.toNat ≤ maxPermits) {batch : IncomingBatch}
    {world : World σ} {Kept : σ → Prop} (hstate : ∀ u ∈ batch.units, u.state = .received)
    (hnodup : (batch.units.map Transferable.id).Nodup)
    (hstocks : Stocks (batch.units.map (·.remotePath)) Kept) (hkept : Kept world.services)
    (hdisk : world.disk.Accepts settings.downloadFolder
      (batch.units.map (·.targetIn settings.downloadFolder))) :
    ∃ report, (runDownload settings batch world).1 = .ok report ∧ report.outcome = .advanced ∧
      (runDownload settings batch world).2.1.units = batch.units.map fun u =>
        { u with
          localPath := some (u.targetIn settings.downloadFolder)
          state := .downloaded } := by
  have hresults := results_of_stocked settings hstate hstocks hkept hdisk
  obtain ⟨result, hresult, hrun⟩ := runDownload_of_received hlimit world hstate hnodup
  have hfailed : failedIn (jobs (downloadSteps settings) batch.units world).1 = [] := by
    apply failedIn_eq_nil_iff.2
    intro r hr
    obtain ⟨u, -, size, rfl⟩ := hresults r hr
    exact ⟨_, rfl⟩
  rw [if_pos hfailed] at hrun
  rw [hrun]
  refine ⟨_, rfl, rfl, map_congr_left fun u hu => ?_⟩
  have hmem : (u.id, result u.id) ∈ (jobs (downloadSteps settings) batch.units world).1 :=
    hresult ▸ mem_map_of_mem hu
  obtain ⟨v, hv, size, heq⟩ := hresults _ hmem
  rw [Prod.mk.injEq] at heq
  obtain rfl : u = v := eq_of_id_eq hnodup hu hv heq.1
  rw [heq.2]
  rfl

/-- A batch that was announced by a descriptor is downloaded from a store that has everything
exactly if no two keys of the descriptor are read as the same id, given that a semaphore has permits
for the jobs. Then ids tell its units apart and each unit is downloaded to its own file; otherwise
the phase ends in a conflict. -/
theorem download_ofDescriptor (settings : Settings) {descriptor : Descriptor}
    {sender receiver : String} {batch : IncomingBatch} (world : World σ) {Kept : σ → Prop}
    (hbatch : Batch.ofDescriptor descriptor sender receiver = .ok batch)
    (hstocks : Stocks (batch.units.map (·.remotePath)) Kept) (hkept : Kept world.services)
    (hdisk : world.disk.Accepts settings.downloadFolder
      (batch.units.map (·.targetIn settings.downloadFolder))) :
    let ended := runDownload settings batch world
    ((batch.units.map Transferable.id).Nodup ↔
      (descriptor.units.keys.map Uuid.parse?).Nodup) ∧
    (settings.maxConcurrentUnits.toNat ≤ maxPermits →
      ((descriptor.units.keys.map Uuid.parse?).Nodup →
        ∃ report, ended.1 = .ok report ∧ report.outcome = .advanced ∧
          ended.2.1.units = batch.units.map fun u =>
            { u with
              localPath := some (u.targetIn settings.downloadFolder)
              state := .downloaded }) ∧
      (¬(descriptor.units.keys.map Uuid.parse?).Nodup →
        ∃ failure : Failure, failure.isStateConflict ∧ ended.1 = .error failure)) := by
  have hids := Batch.nodup_ids_ofDescriptor_iff hbatch
  have hstate := (Batch.ofDescriptor_units hbatch).2.2
  refine ⟨hids, fun hlimit => ⟨fun hdistinct => ?_, fun hrepeated => ?_⟩⟩
  · exact runDownload_of_stocked hlimit hstate (hids.2 hdistinct) hstocks hkept hdisk
  · apply runDownload_of_repeated hlimit hstate (mt hids.1 hrepeated)
    intro r hr
    obtain ⟨u, -, size, rfl⟩ := results_of_stocked settings hstate hstocks hkept hdisk r hr
    exact ⟨_, rfl⟩

/-- The store in memory has whatever was put into it, for as long as no rule interferes. -/
theorem stocks_inMemory {paths : List String} {services : InMemory} (hrules : services.rules = [])
    (hblobs : ∀ path ∈ paths, (services.blobs.find? path).isSome) :
    Stocks paths (· = services) := by
  rintro path hpath disk _ rfl
  obtain ⟨content, hcontent⟩ := Option.isSome_iff_exists.1 (hblobs path hpath)
  exact ⟨content, _, rfl, InMemory.download_of_no_rules hrules disk hcontent⟩

theorem download_ofDescriptor_two :
    let settings := { Settings.defaults with downloadFolder := ⟨"d"⟩ }
    let one : Uuid := ⟨Vector.replicate 32 1⟩
    let descriptor : Descriptor := ⟨"b", none, Catalog.ofList
      [("00000000000000000000000000000000", ⟨"text/plain", "b/x", 3⟩),
        ("11111111-1111-1111-1111-111111111111", ⟨"image/gif", "b/y", 2⟩)]⟩
    let batch : IncomingBatch := ⟨"b", none, "s", "r",
      [.announced Uuid.zero "x" "b/x" "text/plain" 3, .announced one "y" "b/y" "image/gif" 2], none⟩
    let services : InMemory :=
      { InMemory.empty with blobs := Catalog.ofList [("b/x", [1]), ("b/y", [2])] }
    let ended := runDownload settings batch ⟨Disk.empty, services⟩
    Batch.ofDescriptor descriptor "s" "r" = .ok batch ∧
      Stocks (batch.units.map (·.remotePath)) (· = services) ∧
      Disk.empty.Accepts settings.downloadFolder
        (batch.units.map (·.targetIn settings.downloadFolder)) ∧
      settings.maxConcurrentUnits.toNat ≤ maxPermits ∧
      (batch.units.map Transferable.id).Nodup ∧
      ∃ report, ended.1 = .ok report ∧ report.outcome = .advanced ∧
        ended.2.1.units.map (·.state) = [.downloaded, .downloaded] := by
  intro settings one descriptor batch services ended
  have hbatch : Batch.ofDescriptor descriptor "s" "r" = .ok batch := by decide +kernel
  have hstocks : Stocks (batch.units.map (·.remotePath)) (· = services) :=
    stocks_inMemory rfl (by decide +kernel)
  have hdisk : Disk.empty.Accepts settings.downloadFolder
      (batch.units.map (·.targetIn settings.downloadFolder)) := by
    refine ⟨⟨[(["d"], .folder)]⟩, by decide +kernel, forall_mem_cons.2 ⟨?_, ?_⟩⟩
    · exact ⟨["d", "00000000-0000-0000-0000-000000000000.txt"], by decide +kernel,
        by decide +kernel⟩
    · refine forall_mem_singleton.2 ⟨["d", "11111111-1111-1111-1111-111111111111.gif"], ?_, ?_⟩
      · decide +kernel
      · decide +kernel
  have hlimit : settings.maxConcurrentUnits.toNat ≤ maxPermits := by decide
  obtain ⟨hids, hended⟩ :=
    download_ofDescriptor settings ⟨Disk.empty, services⟩ hbatch hstocks rfl hdisk
  have hkeys : (descriptor.units.keys.map Uuid.parse?).Nodup := by decide +kernel
  obtain ⟨report, hreport, hadvanced, hunits⟩ := (hended hlimit).1 hkeys
  exact ⟨hbatch, hstocks, hdisk, hlimit, hids.2 hkeys, report, hreport, hadvanced,
    congrArg (map (·.state)) hunits⟩

/-- Two spellings of one id: the second result is refused, and the units are left on the way. -/
theorem repeated_ids_of_two_spellings :
    let descriptor : Descriptor := ⟨"b", none, Catalog.ofList
      [("00000000-0000-0000-0000-000000000000", ⟨"text/plain", "b/x", 3⟩),
        ("00000000000000000000000000000000", ⟨"text/plain", "b/y", 3⟩)]⟩
    let batch : IncomingBatch := ⟨"b", none, "s", "r",
      [.announced Uuid.zero "x" "b/x" "text/plain" 3,
        .announced Uuid.zero "y" "b/y" "text/plain" 3], none⟩
    let services : InMemory :=
      { InMemory.empty with blobs := Catalog.ofList [("b/x", [1]), ("b/y", [2])] }
    let ended := runDownload Settings.defaults batch ⟨Disk.empty, services⟩
    Batch.ofDescriptor descriptor "s" "r" = .ok batch ∧
      ¬(batch.units.map Transferable.id).Nodup ∧
      ended.1 = .error (.incomingConflict .completeDownload Uuid.zero .downloaded) ∧
      ended.2.1.units.map (·.state) = [.downloaded, .downloading] := by
  decide +kernel

end Phase

end PeerTransfer
