import PeerTransfer.Proofs.Batch.Sound
import PeerTransfer.Proofs.Descriptor.Json
import PeerTransfer.Proofs.Phase.Carried

/-!
# Batches that arrive

A batch that can be loaded is loaded and staged, and whoever is told of it, through the registry or
over a direct channel, has the content of all its sources once the download is done. All this is so
with no more jobs at a time than a semaphore has permits, and with more of them not even the first
phase ends (`delivered_of_loadable`).
-/

namespace PeerTransfer

open List

theorem forall₂_of_map_eq {α β γ : Type} {R : α → β → Prop} {f : α → γ} {g : β → γ} {as : List α}
    {bs : List β} (h : as.map f = bs.map g) (hR : ∀ a ∈ as, ∀ b ∈ bs, f a = g b → R a b) :
    Forall₂ R as bs := by
  induction as generalizing bs with
  | nil =>
    rw [map_nil, eq_comm, map_eq_nil_iff] at h
    rw [h]
    exact .nil
  | cons a as ih =>
    cases bs with
    | nil => cases h
    | cons b bs =>
      rw [map_cons, map_cons, cons.injEq] at h
      refine .cons (hR a mem_cons_self b mem_cons_self h.1) (ih h.2 fun a' ha' b' hb' => ?_)
      exact hR a' (mem_cons_of_mem a ha') b' (mem_cons_of_mem b hb')

namespace Phase

/-- A received unit has a file that holds what the source of a sent unit held. -/
def Carried (sources : Disk) (sent : OutgoingUnit) (disk : Disk) (received : IncomingUnit) : Prop :=
  ∃ file content, received.localPath = some file ∧ disk.read file = .ok content ∧
    sources.read sent.source = .ok content

variable {σ : Type} [Services σ]

/-- With no more jobs at a time than a semaphore has permits, and if the disk takes its files, a
batch is downloaded; this holds of the units and of the disk then. -/
def Arrives (settings : Settings) (batch : IncomingBatch) (world : World σ)
    (Arrived : List IncomingUnit → Disk → Prop) : Prop :=
  settings.maxConcurrentUnits.toNat ≤ maxPermits →
  world.disk.Accepts settings.downloadFolder
      (batch.units.map (·.targetIn settings.downloadFolder)) →
    ∃ report, (runDownload settings batch world).1 = .ok report ∧ report.outcome = .advanced ∧
      Arrived (runDownload settings batch world).2.1.units
        (runDownload settings batch world).2.2.disk

variable (store : FaultFree σ) {settings : Settings} {world : World σ}

/-- Units are downloaded with the content of those that were sent under their remote paths. -/
theorem arrives_of_sent {batch : IncomingBatch} (hstate : ∀ v ∈ batch.units, v.state = .received)
    (hnodup : (batch.units.map Transferable.id).Nodup) {sources : Disk} {units : List OutgoingUnit}
    {path : OutgoingUnit → String}
    (hblobs : ∀ u ∈ units, ∃ content, sources.read u.source = .ok content ∧
      store.blob? world.services (path u) = some content)
    (hsent : ∀ v ∈ batch.units, ∃ u ∈ units, path u = v.remotePath)
    (hsound : store.Sound world.services) :
    Arrives settings batch world fun received disk =>
      received = batch.units.map (downloadedIn settings.downloadFolder) ∧
        ∀ u ∈ units, ∀ v ∈ batch.units, path u = v.remotePath →
          Carried sources u disk (downloadedIn settings.downloadFolder v) := by
  intro hlimit haccepts
  have hstored : ∀ v ∈ batch.units, ∃ content,
      store.blob? world.services v.remotePath = some content := by
    intro v hv
    obtain ⟨u, hu, hpath⟩ := hsent v hv
    obtain ⟨content, -, hblob⟩ := hblobs u hu
    exact ⟨content, hpath ▸ hblob⟩
  choose! content hcontent using hstored
  obtain ⟨entries, world', hrun, hfiles⟩ :=
    runDownload_of_faultFree store hlimit hstate hnodup hcontent haccepts hsound
  rw [hrun]
  refine ⟨_, rfl, rfl, rfl, fun u hu v hv hpath => ?_⟩
  obtain ⟨content', hread, hblob⟩ := hblobs u hu
  rw [hpath, hcontent v hv, Option.some.injEq] at hblob
  exact ⟨_, content v, rfl, hfiles v hv, hblob ▸ hread⟩

end Phase

namespace Batch

variable {σ : Type} [Services σ] (store : FaultFree σ)

open Phase

section Announced

variable (settings : Settings) {world : World σ} {batch : OutgoingBatch} {sources : Disk}
  {sender receiver : String} (hunits : batch.units ≠ [])
  (hblobs : ∀ u ∈ batch.units, ∃ content, sources.read u.source = .ok content ∧
    store.blob? world.services (u.remotePath.getD default) = some content)
  (hsound : store.Sound world.services) (hsender : Text.isBlank sender = false)
  (hreceiver : Text.isBlank receiver = false)

include hunits hblobs hsound hsender hreceiver

/-- A batch that is known by its descriptor arrives with the ids of its units. -/
theorem arrives_ofDescriptor (hnodup : (batch.units.map Transferable.id).Nodup)
    (hid : Text.isBlank batch.id = false) :
    ∃ incoming, ofDescriptor batch.descriptor sender receiver = .ok incoming ∧
      Arrives settings incoming world fun received disk =>
        ∀ u ∈ batch.units, ∃ v ∈ received, v.id = u.id ∧ Carried sources u disk v := by
  obtain ⟨incoming, hincoming, hperm⟩ :=
    ofDescriptor_of_described hnodup hunits hid hsender hreceiver
  refine ⟨incoming, hincoming, fun hlimit haccepts => ?_⟩
  have hids : incoming.units.map Transferable.id ~ batch.units.map Transferable.id := by
    have hmap := hperm.map Transferable.id
    rw [map_map] at hmap
    exact hmap
  have hsent (v : IncomingUnit) (hv : v ∈ incoming.units) :
      ∃ u ∈ batch.units, u.remotePath.getD default = v.remotePath := by
    obtain ⟨u, hu, rfl⟩ := mem_map.1 (hperm.mem_iff.1 hv)
    exact ⟨u, hu, rfl⟩
  obtain ⟨report, hreport, hadvanced, hreceived, hcarried⟩ := arrives_of_sent store
    (ofDescriptor_units hincoming).2.2 (hids.nodup_iff.2 hnodup) hblobs hsent hsound hlimit
    haccepts
  refine ⟨report, hreport, hadvanced, fun u hu => ?_⟩
  have hmem : u.asAnnounced ∈ incoming.units := hperm.mem_iff.2 (mem_map_of_mem hu)
  refine ⟨downloadedIn settings.downloadFolder u.asAnnounced, ?_, rfl, hcarried u hu _ hmem rfl⟩
  rw [hreceived]
  exact mem_map_of_mem hmem

/-- A batch that is known by its records arrives in their order. -/
theorem arrives_ofWire (hpaths : ∀ u ∈ batch.units, u.remotePath.isSome) {payload : Bytes}
    (hpayload : batch.encodeWire = .ok payload) {ids : IdSource}
    (hdistinct : ids.DistinctBelow (ofWire payload sender receiver ids).2.drawn) :
    ∃ incoming, (ofWire payload sender receiver ids).1 = .ok incoming ∧
      Arrives settings incoming world fun received disk =>
        Forall₂ (fun u v => Carried sources u disk v) batch.units received := by
  obtain ⟨incoming, hincoming, hnumbered⟩ := ofWire_of_encode
    (encode_of_encodeWire hpaths hpayload) (by simpa using hunits) hsender hreceiver ids
  refine ⟨incoming, hincoming, fun hlimit haccepts => ?_⟩
  have hpath : batch.units.map (fun u => u.remotePath.getD default) =
      incoming.units.map IncomingUnit.remotePath := by
    have hrecords := congrArg (map Wire.Record.url)
      (ids.map_snd_drawFor (batch.units.map OutgoingUnit.announcement))
    rw [map_map, map_map] at hrecords
    rw [hnumbered, map_map]
    exact hrecords.symm
  have hsent (v : IncomingUnit) (hv : v ∈ incoming.units) :
      ∃ u ∈ batch.units, u.remotePath.getD default = v.remotePath :=
    mem_map.1 (hpath ▸ mem_map_of_mem hv)
  have hstate : ∀ v ∈ incoming.units, v.state = .received := by
    rw [hnumbered, forall_mem_map]
    exact fun _ _ => rfl
  have hsoundIncoming := (soundIncoming_of_ofWire hdistinct le_rfl hincoming).1
  obtain ⟨report, hreport, hadvanced, hreceived, hcarried⟩ := arrives_of_sent store hstate
    hsoundIncoming.unit_ids hblobs hsent hsound hlimit haccepts
  refine ⟨report, hreport, hadvanced, ?_⟩
  rw [hreceived]
  exact forall₂_map_right_iff.2 (forall₂_of_map_eq hpath hcarried)

end Announced

/-- A batch that can be loaded is staged, and is announced with copies of the content that its
sources held. -/
theorem staged_of_loadable {settings : Settings}
    (hlimit : settings.maxConcurrentUnits.toNat ≤ maxPermits) {batch : OutgoingBatch}
    {world : World σ} (hloadable : batch.Loadable settings.stagingFolder world.disk)
    (hsound : store.Sound world.services) :
    ∃ (copied : OutgoingBatch × Disk) (entries : List JournalEntry) (ended : OutgoingBatch)
      (after : World σ) (announced : OutgoingBatch) (content : OutgoingUnit → Bytes),
      runLoad settings batch world.disk = (.ok ⟨.advanced, []⟩, copied) ∧
      runStage settings copied.1 ⟨copied.2, world.services⟩ =
        (.ok ⟨.advanced, entries⟩, ended, after) ∧
      announced.id = batch.id ∧
      announced.units = batch.units.map (fun u =>
        { loadedIn settings.stagingFolder (content u) u with
          remotePath := some (remotePathFor batch.id u) }) ∧
      (∀ u ∈ batch.units, world.disk.read u.source = .ok (content u) ∧
        store.blob? after.services (remotePathFor batch.id u) = some (content u)) ∧
      store.published after.services =
        store.published world.services ++ [announced.descriptor] ∧
      ended.encodeWire = announced.encodeWire := by
  obtain ⟨content, disk, hload, hcopies⟩ := runLoad_of_loadable hlimit hloadable
  set folder := settings.stagingFolder
  set copies : OutgoingBatch :=
    { batch with units := batch.units.map fun u => loadedIn folder (content u) u } with hcopied
  have hcopy (u : OutgoingUnit) (hu : u ∈ batch.units) :
      copy? disk (loadedIn folder (content u) u) = some (content u) := by
    change (disk.read (u.targetIn folder)).toOption = _
    rw [(hcopies u hu).2]
    rfl
  have hstate : ∀ v ∈ copies.units, v.state = .loaded := forall_mem_map.2 fun _ _ => rfl
  have hunassigned : ∀ v ∈ copies.units, v.remotePath = none :=
    forall_mem_map.2 hloadable.unassigned
  have hnodup : (copies.units.map Transferable.id).Nodup := by
    rw [hcopied, map_map]
    exact hloadable.unit_ids
  have hheld : ∀ v ∈ copies.units, (copy? disk v).isSome :=
    forall_mem_map.2 fun u hu => by rw [hcopy u hu]; rfl
  obtain ⟨entries, ended, after, hstage, hsound', hblobs, hpublished, hencode⟩ :=
    runStage_of_faultFree store ⟨disk, world.services⟩ hlimit hstate hunassigned hnodup hheld
      hsound
  refine ⟨(copies, disk), entries, ended, after, withRemotePaths copies, content, hload, hstage,
    rfl, ?_, fun u hu => ⟨(hcopies u hu).1, ?_⟩, hpublished, hencode⟩
  · rw [units_withRemotePaths hunassigned, hcopied, map_map]
    rfl
  · exact (hblobs _ (mem_map_of_mem hu)).trans (hcopy u hu)

/-- What a batch comes to that is loaded and staged: both phases advance, the registry has its
descriptor, and a receiver who is told of it, whichever way, and asks a store that still has the
blobs, gets files that hold what the sources held before. -/
structure Delivered (batch : OutgoingBatch) (world : World σ)
    (loaded : Except Failure PhaseReport × OutgoingBatch × Disk)
    (staged : Except Failure PhaseReport × OutgoingBatch × World σ) : Prop where
  loads : ∃ report, loaded.1 = .ok report ∧ report.outcome = .advanced
  stages : ∃ report, staged.1 = .ok report ∧ report.outcome = .advanced
  /-- By the text of the descriptor, under the ids of the sender. -/
  described : ∃ descriptor,
    store.published staged.2.2.services = store.published world.services ++ [descriptor] ∧
    Descriptor.parse? descriptor.render = some descriptor ∧
    ∀ (sender receiver : String), Text.isBlank sender = false → Text.isBlank receiver = false →
    ∀ (settings : Settings) (world' : World σ), store.Sound world'.services →
      store.blob? world'.services = store.blob? staged.2.2.services →
      ∃ incoming, ofDescriptor descriptor sender receiver = .ok incoming ∧
        Arrives settings incoming world' fun received disk =>
          ∀ u ∈ batch.units, ∃ v ∈ received, v.id = u.id ∧ Carried world.disk u disk v
  /-- By the records, in the order of the sender. -/
  sent : ∀ payload, staged.2.1.encodeWire = .ok payload →
    ∀ (sender receiver : String), Text.isBlank sender = false → Text.isBlank receiver = false →
    ∀ ids : IdSource, ids.DistinctBelow (ofWire payload sender receiver ids).2.drawn →
    ∀ (settings : Settings) (world' : World σ), store.Sound world'.services →
      store.blob? world'.services = store.blob? staged.2.2.services →
      ∃ incoming, (ofWire payload sender receiver ids).1 = .ok incoming ∧
        Arrives settings incoming world' fun received disk =>
          Forall₂ (fun u v => Carried world.disk u disk v) batch.units received

theorem delivered_of_limit {settings : Settings} {draft : Draft OutgoingUnit} {id : String}
    {batch : OutgoingBatch} {world : World σ} (hbuild : draft.build id = .ok batch)
    (hloadable : batch.Loadable settings.stagingFolder world.disk)
    (hsound : store.Sound world.services)
    (hlimit : settings.maxConcurrentUnits.toNat ≤ maxPermits) :
    let loaded := runLoad settings batch world.disk
    Delivered store batch world loaded
      (runStage settings loaded.2.1 ⟨loaded.2.2, world.services⟩) := by
  intro loaded
  obtain ⟨hunits, hid⟩ := build_of_eq_ok hbuild
  obtain ⟨copied, entries, ended, after, announced, content, hload, hstage, hannouncedId,
    hannounced, hcontent, hpublished, hencode⟩ := staged_of_loadable store hlimit hloadable hsound
  have hloaded : loaded = (.ok ⟨.advanced, []⟩, copied) := hload
  rw [hloaded, hstage]
  -- What was announced is what was loaded, wherever the store still has it.
  have hblobs (world' : World σ)
      (hkept : store.blob? world'.services = store.blob? after.services) :
      ∀ v ∈ announced.units, ∃ content, world.disk.read v.source = .ok content ∧
        store.blob? world'.services (v.remotePath.getD default) = some content := by
    rw [hannounced, forall_mem_map]
    exact fun u hu => ⟨content u, (hcontent u hu).1, (congrFun hkept _).trans (hcontent u hu).2⟩
  have hnonempty : announced.units ≠ [] := by
    rw [hannounced]
    simpa using hunits
  have hnodup : (announced.units.map Transferable.id).Nodup := by
    rw [hannounced, map_map]
    exact hloadable.unit_ids
  have hpaths : ∀ v ∈ announced.units, v.remotePath.isSome := by
    rw [hannounced, forall_mem_map]
    exact fun _ _ => rfl
  refine ⟨⟨_, rfl, rfl⟩, ⟨_, rfl, rfl⟩,
    ⟨announced.descriptor, hpublished, announced.descriptor.parse?_render, ?_⟩, ?_⟩
  · intro sender receiver hsender hreceiver settings' world' hsound' hkept
    obtain ⟨incoming, hincoming, harrives⟩ := arrives_ofDescriptor store settings' hnonempty
      (hblobs world' hkept) hsound' hsender hreceiver hnodup (hannouncedId ▸ hid)
    refine ⟨incoming, hincoming, fun hpermits haccepts => ?_⟩
    obtain ⟨report, hreport, hadvanced, harrived⟩ := harrives hpermits haccepts
    rw [hannounced, forall_mem_map] at harrived
    exact ⟨report, hreport, hadvanced, harrived⟩
  · intro payload hpayload sender receiver hsender hreceiver ids hdistinct settings' world' hsound'
      hkept
    obtain ⟨incoming, hincoming, harrives⟩ := arrives_ofWire store settings' hnonempty
      (hblobs world' hkept) hsound' hsender hreceiver hpaths (hencode.symm.trans hpayload) hdistinct
    refine ⟨incoming, hincoming, fun hpermits haccepts => ?_⟩
    obtain ⟨report, hreport, hadvanced, harrived⟩ := harrives hpermits haccepts
    rw [hannounced, forall₂_map_left_iff] at harrived
    exact ⟨report, hreport, hadvanced, harrived⟩

/-- A batch that can be loaded is delivered, just if a semaphore can have as many permits as jobs
are to run at a time. -/
theorem delivered_of_loadable {settings : Settings} {draft : Draft OutgoingUnit} {id : String}
    {batch : OutgoingBatch} {world : World σ} (hbuild : draft.build id = .ok batch)
    (hloadable : batch.Loadable settings.stagingFolder world.disk)
    (hsound : store.Sound world.services) :
    let loaded := runLoad settings batch world.disk
    Delivered store batch world loaded
        (runStage settings loaded.2.1 ⟨loaded.2.2, world.services⟩) ↔
      settings.maxConcurrentUnits.toNat ≤ maxPermits := by
  intro loaded
  refine ⟨fun h => ?_, delivered_of_limit store hbuild hloadable hsound⟩
  obtain ⟨report, hreport, -⟩ := h.loads
  exact le_maxPermits_of_runLoad hreport

/-- Two units, one of them empty, and a store that has a blob where that one is put. -/
theorem delivered_of_loadable_two :
    let settings : Settings := ⟨"us", ⟨"/s"⟩, ⟨"/d"⟩, 1, 1, true⟩
    let draft : Draft OutgoingUnit := ⟨none, "us", "them",
      [.pick ⟨Vector.replicate 32 1⟩ ⟨"/a.txt"⟩ "text/plain", .pick .zero ⟨"/b"⟩ "image/gif"]⟩
    let batch : OutgoingBatch := ⟨"b", none, "us", "them", draft.units, none⟩
    let world : World InMemory := ⟨⟨[(["a.txt"], .file [1, 2]), (["b"], .file [])]⟩,
      { InMemory.empty with
        blobs := .ofList [("b/00000000-0000-0000-0000-000000000000.gif", [3])] }⟩
    let staged := runStage settings (runLoad settings batch world.disk).2.1
      ⟨(runLoad settings batch world.disk).2.2, world.services⟩
    let descriptor : Descriptor := ⟨"b", none, .ofList
      [("00000000-0000-0000-0000-000000000000",
          ⟨"image/gif", "b/00000000-0000-0000-0000-000000000000.gif", 0⟩),
        ("11111111-1111-1111-1111-111111111111",
          ⟨"text/plain", "b/11111111-1111-1111-1111-111111111111.txt", 2⟩)]⟩
    let payload := staged.2.1.encodeWire.toOption.getD []
    let world' : World InMemory := ⟨Disk.empty, staged.2.2.services⟩
    draft.build "b" = .ok batch ∧ batch.Loadable settings.stagingFolder world.disk ∧
      InMemory.faultFree.Sound world.services ∧
      Delivered InMemory.faultFree batch world (runLoad settings batch world.disk) staged ∧
      staged.2.2.services.published = [descriptor] ∧ staged.2.1.encodeWire = .ok payload ∧
      (∃ incoming report, ofDescriptor descriptor "us" "them" = .ok incoming ∧
        (runDownload settings incoming world').1 = .ok report ∧ report.outcome = .advanced) ∧
      ∃ incoming report, (ofWire payload "us" "them" .repdigits).1 = .ok incoming ∧
        (runDownload settings incoming world').1 = .ok report ∧ report.outcome = .advanced := by
  intro settings draft batch world staged descriptor payload world'
  have hbuild : draft.build "b" = .ok batch := by decide +kernel
  have hcopies : world.disk.Accepts ⟨"/s"⟩ (batch.units.map (·.targetIn ⟨"/s"⟩)) :=
    Disk.accepts_of_place (world.disk.put ["s"] .folder) (by decide +kernel) (by decide +kernel)
  have hreadable : ∀ u ∈ batch.units, ∃ content, world.disk.read u.source = .ok content := by
    rw [forall_mem_cons, forall_mem_singleton]
    exact ⟨⟨[1, 2], by decide +kernel⟩, [], by decide +kernel⟩
  have hloadable : batch.Loadable settings.stagingFolder world.disk :=
    ⟨by decide +kernel, by decide +kernel, by decide +kernel, by decide +kernel, hreadable,
      by decide +kernel, hcopies⟩
  have hsound : InMemory.faultFree.Sound world.services := ⟨rfl, rfl⟩
  have hdelivered : Delivered InMemory.faultFree batch world
      (runLoad settings batch world.disk) staged :=
    (delivered_of_loadable InMemory.faultFree hbuild hloadable hsound).2 (by decide)
  have hends : (staged.2.2.services.rules = [] ∧ staged.2.2.services.publishFault = none) ∧
      staged.2.2.services.published = [descriptor] ∧ staged.2.1.encodeWire = .ok payload := by
    decide +kernel
  have hdescribed : (ofDescriptor descriptor "us" "them").map
      (fun batch => batch.units.map (·.targetIn ⟨"/d"⟩)) =
        .ok [⟨"/d/00000000-0000-0000-0000-000000000000.gif"⟩,
          ⟨"/d/11111111-1111-1111-1111-111111111111.txt"⟩] := by decide +kernel
  have hsent : (ofWire payload "us" "them" .repdigits).1.map
      (fun batch => batch.units.map (·.targetIn ⟨"/d"⟩)) =
        .ok [⟨"/d/00000000-0000-0000-0000-000000000000.txt"⟩,
          ⟨"/d/11111111-1111-1111-1111-111111111111"⟩] ∧
      (ofWire payload "us" "them" .repdigits).2.drawn = 3 := by decide +kernel
  have hdistinct : IdSource.repdigits.DistinctBelow 3 :=
    IdSource.distinctBelow_repdigits.mono (by decide)
  have hnames : Text.isBlank "us" = false ∧ Text.isBlank "them" = false := by decide +kernel
  -- From here on it does not matter how the batch was staged.
  clear_value payload staged
  have hsound' : InMemory.faultFree.Sound world'.services := hends.1
  refine ⟨hbuild, hloadable, hsound, hdelivered, hends.2.1, hends.2.2, ?_, ?_⟩
  · obtain ⟨descriptor', hpublished, -, harrives⟩ := hdelivered.described
    have hsame : [descriptor] = [descriptor'] := hends.2.1.symm.trans hpublished
    obtain rfl : descriptor' = descriptor := (cons.inj hsame).1.symm
    obtain ⟨incoming, hincoming, harrives⟩ :=
      harrives "us" "them" hnames.1 hnames.2 settings world' hsound' rfl
    rw [hincoming] at hdescribed
    have htargets : incoming.units.map (·.targetIn ⟨"/d"⟩) = _ := Except.ok.inj hdescribed
    have hfiles : Disk.empty.Accepts ⟨"/d"⟩ (incoming.units.map (·.targetIn ⟨"/d"⟩)) := by
      rw [htargets]
      exact Disk.accepts_of_place (Disk.empty.put ["d"] .folder) (by decide +kernel)
        (by decide +kernel)
    obtain ⟨report, hreport, hadvanced, -⟩ := harrives (by decide) hfiles
    exact ⟨incoming, report, hincoming, hreport, hadvanced⟩
  · obtain ⟨incoming, hincoming, harrives⟩ := hdelivered.sent payload hends.2.2 "us" "them"
      hnames.1 hnames.2 .repdigits (hsent.2 ▸ hdistinct) settings world' hsound' rfl
    rw [hincoming] at hsent
    have htargets : incoming.units.map (·.targetIn ⟨"/d"⟩) = _ := Except.ok.inj hsent.1
    have hfiles : Disk.empty.Accepts ⟨"/d"⟩ (incoming.units.map (·.targetIn ⟨"/d"⟩)) := by
      rw [htargets]
      exact Disk.accepts_of_place (Disk.empty.put ["d"] .folder) (by decide +kernel)
        (by decide +kernel)
    obtain ⟨report, hreport, hadvanced, -⟩ := harrives (by decide) hfiles
    exact ⟨incoming, report, hincoming, hreport, hadvanced⟩

/-- Settings are not refused for one permit more than a semaphore can have, and with them a batch
that can be loaded is not. -/
theorem not_delivered_beyond_permits :
    let settings : Settings := ⟨"us", ⟨"/s"⟩, ⟨"/d"⟩, 2305843009213693952, 80, true⟩
    let draft : Draft OutgoingUnit := ⟨none, "us", "them",
      [.pick .zero ⟨"/a.txt"⟩ "text/plain"]⟩
    let batch : OutgoingBatch := ⟨"b", none, "us", "them", draft.units, none⟩
    let world : World InMemory := ⟨⟨[(["a.txt"], .file [97, 98, 99])]⟩, InMemory.empty⟩
    let loaded := runLoad settings batch world.disk
    settings.validate = .ok () ∧ draft.build "b" = .ok batch ∧
      batch.Loadable settings.stagingFolder world.disk ∧
      InMemory.faultFree.Sound world.services ∧ loaded.1 = .error .panicked ∧
      ¬Delivered InMemory.faultFree batch world loaded
        (runStage settings loaded.2.1 ⟨loaded.2.2, world.services⟩) := by
  intro settings draft batch world loaded
  have hcopies : world.disk.Accepts ⟨"/s"⟩ (batch.units.map (·.targetIn ⟨"/s"⟩)) :=
    Disk.accepts_of_place (world.disk.put ["s"] .folder) (by decide +kernel) (by decide +kernel)
  have hreadable : ∀ u ∈ batch.units, ∃ content, world.disk.read u.source = .ok content :=
    forall_mem_singleton.2 ⟨[97, 98, 99], by decide +kernel⟩
  have hloadable : batch.Loadable settings.stagingFolder world.disk :=
    ⟨by decide +kernel, by decide +kernel, by decide +kernel, by decide +kernel, hreadable,
      by decide +kernel, hcopies⟩
  have hpanicked : loaded.1 = .error .panicked := by decide +kernel
  refine ⟨by decide +kernel, by decide +kernel, hloadable, ⟨rfl, rfl⟩, hpanicked, fun h => ?_⟩
  obtain ⟨report, hreport, -⟩ := h.loads
  cases hpanicked.symm.trans hreport

end Batch

end PeerTransfer
