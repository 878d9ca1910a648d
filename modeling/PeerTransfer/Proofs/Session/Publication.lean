import PeerTransfer.Proofs.Session.Backing
import PeerTransfer.Proofs.Session.Traffic

/-!
# Publishing a batch

A batch is published once its uploads have all succeeded, under a description of every unit, and
once at most; its units are staged just if it has a reference (`published_of_runs`). What the
description tells of sizes is true of the blobs unless a unit is downloaded to where a copy is
before it is uploaded. Where copies and downloads share a folder, a peer can bring this about, as it
chooses the ids of its units (`published_beside_download`).
-/

namespace PeerTransfer.Session

open List Table

variable {σ : Type}

/-- Copies and downloads that have folders of their own do not meet. -/
theorem sparesCopies_of_folders {s : Session σ}
    (h : s.settings.stagingFolder.place ≠ s.settings.downloadFolder.place) (action : Action σ) :
    action.SparesCopies s := by
  cases action with
  | downloadBatch id batch =>
    intro v _ _ b _ u _ _ heq
    have hu := Path.place_join s.settings.stagingFolder (isPlain_storedName u.id u.contentType)
    have hv := Path.place_join s.settings.downloadFolder (isPlain_storedName v.id v.contentType)
    exact h (append_inj_left' (hu.symm.trans (heq.trans hv)) rfl)
  | _ => trivial

/-- So in a session with such folders every run spares copies. -/
theorem sparesCopies_of_runs [Services σ] {s₀ s : Session σ} {Fair : Session σ → Action σ → Prop}
    (harises : s₀.Arises)
    (hfolders : s₀.settings.stagingFolder.place ≠ s₀.settings.downloadFolder.place)
    (hruns : s₀.Runs Fair s) :
    s₀.Runs (fun s action => Fair s action ∧ action.SparesCopies s) s := by
  induction hruns with
  | refl => exact .refl
  | act action hruns haction ih =>
    refine .act action ih ⟨haction, sparesCopies_of_folders ?_ action⟩
    rwa [settings_of_runs harises hruns]

variable [Services σ] {limit : Nat} {s₀ s s' : Session (Recorded σ)} {action : Action (Recorded σ)}

/-- What is taken for granted of an action: it draws no id for the second time, and the world
outside leaves the record of calls alone. -/
def Action.Fair (limit : Nat) (s : Session (Recorded σ)) (action : Action (Recorded σ)) : Prop :=
  (action.run s).ids.drawn ≤ limit ∧ action.Records s

/-- The world outside leaves blobs and copies alone as well. -/
def Action.Apart {folder : Path} (store : Keeping σ folder) (limit : Nat)
    (s : Session (Recorded σ)) (action : Action (Recorded σ)) : Prop :=
  action.Fair limit s ∧ action.Leaves store.recorded s

theorem Action.apart_of_inside {folder : Path} {store : Keeping σ folder}
    (hinside : ∀ world, action ≠ .outside world) (hdrawn : s'.ids.drawn ≤ limit)
    (heq : s' = action.run s) : action.Apart store limit s :=
  ⟨⟨heq ▸ hdrawn, fun world heq => absurd heq (hinside world)⟩,
    fun world heq => absurd heq (hinside world)⟩

/-! ## Requests for publication -/

/-- An action that asks for a publication stages a batch. Before, it has put the blob of every unit
of the batch, and it asks for nothing after. -/
theorem exists_uploads_of_publish (haccounted : s.Accounted limit) (hdistinct : s.table.Distinct)
    (hinside : ∀ world, action ≠ .outside world) :
    ∃ made, (action.run s).world.services.calls = s.world.services.calls ++ made ∧
      ∀ d answer, .publish d answer ∈ made → ∃ p batch found uploads,
        action = .stageBatch p.id batch ∧ s.table.find? p.id = some p ∧
        p.outgoing? batch = some found ∧ made = uploads ++ [.publish d answer] ∧
        Forall₂ (fun unit call => ∃ content,
          call = .upload content (Phase.remotePathFor found.id unit) (.ok ())) found.units uploads ∧
        d = (Phase.withRemotePaths found).descriptor := by
  have htraffic := action.traffic hdistinct
  generalize (action.run s).world.services = recorded at htraffic ⊢
  cases htraffic with
  | silent => exact ⟨[], (append_nil _).symm, by simp⟩
  | outside world => exact absurd rfl (hinside world)
  | connected | disconnected | sent => exact ⟨[_], rfl, by simp⟩
  | @staged p batch found hp hfound _ hended =>
    have hmem := mem_outgoing_of_find? hp hfound
    have hbatch := haccounted.sound found hmem
    rcases hbatch.runStage_cases hended with ⟨failure, hrun⟩ | ⟨hstate, -⟩
    · rw [hrun]
      exact ⟨[], (append_nil _).symm, by simp⟩
    · obtain ⟨made, hcalls, hmade⟩ := Recorded.calls_runStage s.settings s.world hstate
        (hbatch.localPath_isSome hstate) hbatch.unit_ids
      refine ⟨made, hcalls, fun d answer hasks => ?_⟩
      rcases hmade with huploads | ⟨uploads, answer', rfl, hputs, -, -⟩
      · cases huploads _ hasks
      · rcases mem_append.1 hasks with hupload | hpublish
        · cases Call.forall_isUpload hputs _ hupload
        · obtain ⟨rfl, rfl⟩ := Call.publish.inj (mem_singleton.1 hpublish)
          refine ⟨p, batch, found, uploads, rfl, hp, hfound, rfl, ?_, rfl⟩
          rw [(haccounted.tracked found hmem).units_withRemotePaths, forall₂_map_left_iff] at hputs
          refine hputs.imp fun unit call hput => ?_
          obtain ⟨content, path, hpath, rfl⟩ := hput
          cases hpath
          exact ⟨content, rfl⟩
  | @downloaded p batch found =>
    obtain ⟨made, hcalls, hmade⟩ := Recorded.extends_runDownload s.settings found s.world
    exact ⟨made, hcalls, fun d answer hasks => (hmade _ hasks).elim⟩

/-- What the registry has taken is not forgotten. -/
theorem published_prefix_run (hdistinct : s.table.Distinct) (hrecords : action.Records s) :
    s.world.services.published <+: (action.run s).world.services.published := by
  have htraffic := action.traffic hdistinct
  generalize (action.run s).world.services = recorded at htraffic ⊢
  cases htraffic with
  | silent => exact prefix_refl _
  | outside world =>
    unfold Recorded.published
    rw [hrecords world rfl]
  | connected | disconnected | sent => exact ⟨_, (Recorded.published_of_calls rfl).symm⟩
  | staged =>
    obtain ⟨made, hcalls, -⟩ := Recorded.extends_runStage s.settings _ s.world
    exact ⟨_, (Recorded.published_of_calls hcalls).symm⟩
  | downloaded =>
    obtain ⟨made, hcalls, -⟩ := Recorded.extends_runDownload s.settings _ s.world
    exact ⟨_, (Recorded.published_of_calls hcalls).symm⟩

/-! ## Runs -/

theorem registered_of_runs (harises : s₀.Arises) (haccounted : s₀.Accounted limit)
    (hnone : s₀.world.services.calls = []) (hruns : s₀.Runs (Action.Fair limit) s) :
    s.Registered limit := by
  induction hruns with
  | refl =>
    have hpublished : s₀.world.services.published = [] := by
      rw [Recorded.published, hnone]
      rfl
    constructor <;> simp [hpublished]
  | act action hruns hfair ih =>
    have haccounted' := accounted_of_runs haccounted harises hruns fun _ _ h => h.1
    exact ih.act haccounted' (harises.runs hruns).distinct hfair.1 hfair.2

section Backing

variable {folder : Path} {store : Keeping σ folder} {s₁ : Session (Recorded σ)}

/-- Batches that are published while copies are left alone are backed by the store. -/
theorem backing_of_runs (harises : s₀.Arises) (haccounted : s₀.Accounted limit)
    (hnone : s₀.world.services.calls = []) (hunpicked : s₀.outgoing = [])
    (hfolder : s₀.settings.stagingFolder = folder) (hkept : store.Kept s₀.world.services.services)
    (hruns : s₀.Runs (fun s action => action.Apart store limit s ∧ action.SparesCopies s) s) :
    s.Backing store.recorded := by
  induction hruns with
  | refl =>
    have hpublished : s₀.world.services.published = [] := by
      rw [Recorded.published, hnone]
      rfl
    exact ⟨hfolder, hkept, by simp [hunpicked], by simp [hpublished]⟩
  | act action hruns haction ih =>
    have hfair := hruns.mono fun _ _ h => h.1.1
    have haccounted' := accounted_of_runs haccounted harises hfair fun _ _ h => h.1
    have hregistered := registered_of_runs harises haccounted hnone hfair
    exact ih.act haccounted' hregistered (harises.runs hruns) haction.1.1.2 haction.1.2 haction.2

/-- Whatever becomes of copies, the store keeps what it has for a batch that was published. -/
theorem backed_of_runs (harises : s₁.Arises) (haccounted : s₁.Accounted limit)
    (hregistered : s₁.Registered limit) (hfolder : s₁.settings.stagingFolder = folder)
    (hkept : store.recorded.Kept s₁.world.services) (hruns : s₁.Runs (Action.Apart store limit) s)
    {d : Descriptor} (hd : d ∈ s₁.world.services.published)
    (hbacked : d.Backed (store.recorded.blob? s₁.world.services)) :
    d.Backed (store.recorded.blob? s.world.services) := by
  -- The next step keeps the blobs only as long as the store and the registry are as they were left.
  have hbacks : s.settings.stagingFolder = folder ∧ store.recorded.Kept s.world.services ∧
      s.Registered limit ∧ d ∈ s.world.services.published ∧
      d.Backed (store.recorded.blob? s.world.services) := by
    induction hruns with
    | refl => exact ⟨hfolder, hkept, hregistered, hd, hbacked⟩
    | act action hruns haction ih =>
      obtain ⟨hfolder', hkept', hregistered', hd', hbacked'⟩ := ih
      have hdistinct := (harises.runs hruns).distinct
      have haccounted' := accounted_of_runs haccounted harises hruns fun _ _ h => h.1.1
      obtain ⟨hkept'', hold⟩ :=
        backed_run haccounted' hdistinct hfolder' hkept' hregistered' haction.2
      exact ⟨by rw [action.settings_run hdistinct, hfolder'], hkept'',
        hregistered'.act haccounted' hdistinct haction.1.1 haction.1.2,
        (published_prefix_run hdistinct haction.1.2).subset hd', hold d hd' hbacked'⟩
  exact hbacks.2.2.2.2

end Backing

omit [Services σ] in
/-- What a batch is published as: its id, and under the id of every unit the content type, the
remote path and the size of that unit. -/
theorem entries_of_published (haccounted : s.Accounted limit) {found : OutgoingBatch}
    (hfound : found ∈ s.outgoing) :
    (Phase.withRemotePaths found).descriptor.units.entries ~ found.units.map fun unit =>
      (unit.id.text, ⟨unit.contentType, Phase.remotePathFor found.id unit, unit.size⟩) := by
  have hbatch := haccounted.sound found hfound
  have hentries := Batch.perm_entries_descriptor
    (Phase.id_withRemotePaths found ▸ hbatch.unit_ids)
  rwa [(haccounted.tracked found hfound).units_withRemotePaths, map_map] at hentries

/-- However a session goes on, the units of a batch are staged just if the batch has a reference,
and no batch is published twice. An action that asks for a publication has put the blob of every
unit of the batch before, and describes each unit once. What is published while no unit is
downloaded to where a copy is has blobs of the sizes that it tells, from then on. -/
theorem published_of_runs {settings : Settings} {source : IdSource} {world : World (Recorded σ)}
    (hdistinct : source.DistinctBelow limit)
    (hstart : Session.start settings source world = .ok s₀)
    (hnone : s₀.world.services.calls = []) (hruns : s₀.Runs (Action.Fair limit) s) :
    (∀ batch ∈ s.outgoing, ∀ unit ∈ batch.units,
      (unit.state = .staged ↔ batch.reference.isSome) ∧
      (unit.state = .staged → unit.remotePath = some (Phase.remotePathFor batch.id unit))) ∧
    (s.world.services.published.map (·.batchId)).Nodup ∧
    (∀ action : Action (Recorded σ), (∀ world, action ≠ .outside world) → ∃ made,
      (action.run s).world.services.calls = s.world.services.calls ++ made ∧
      ∀ d answer, .publish d answer ∈ made → ∃ p batch found uploads,
        action = .stageBatch p.id batch ∧ s.table.find? p.id = some p ∧
        p.outgoing? batch = some found ∧ made = uploads ++ [.publish d answer] ∧
        Forall₂ (fun unit call => ∃ content,
          call = .upload content (Phase.remotePathFor found.id unit) (.ok ())) found.units uploads ∧
        d.batchId = found.id ∧ (found.units.map (·.id)).Nodup ∧
        d.units.entries ~ found.units.map fun unit =>
          (unit.id.text, ⟨unit.contentType, Phase.remotePathFor found.id unit, unit.size⟩)) ∧
    ∀ store : Keeping σ settings.stagingFolder, store.Kept s₀.world.services.services →
      ∀ s₁, s₀.Runs (fun s action => action.Apart store limit s ∧ action.SparesCopies s) s₁ →
        s₁.Runs (Action.Apart store limit) s →
        ∀ d ∈ s₁.world.services.published, ∀ entry ∈ d.units.entries, ∃ content,
          store.blob? s.world.services.services entry.2.remotePath = some content ∧
            entry.2.size = UInt64.ofNat content.length := by
  have harises : s₀.Arises := .start hstart
  have hnew := accounted_of_start hdistinct hstart
  have haccounted := accounted_of_runs hnew harises hruns fun _ _ h => h.1
  have hregistered := registered_of_runs harises hnew hnone hruns
  refine ⟨fun batch hbatch unit hunit => ?_, hregistered.batch_ids, fun action hinside => ?_,
    fun store hkept s₁ hspared hlater => ?_⟩
  · have htracked := haccounted.tracked batch hbatch
    refine ⟨htracked.staged_iff unit hunit, fun hstaged => ?_⟩
    have hsome := ((haccounted.sound batch hbatch).coherent unit hunit).remotePath_isSome
      (.inr hstaged)
    obtain ⟨path, hpath⟩ := Option.isSome_iff_exists.1 hsome
    rw [hpath, htracked.remotePath_eq unit hunit path hpath]
  · obtain ⟨made, hcalls, hmade⟩ :=
      exists_uploads_of_publish haccounted (harises.runs hruns).distinct hinside
    refine ⟨made, hcalls, fun d answer hasks => ?_⟩
    obtain ⟨p, batch, found, uploads, haction, hp, hfound, hsplit, huploads, rfl⟩ :=
      hmade d answer hasks
    have hmem := mem_outgoing_of_find? hp hfound
    exact ⟨p, batch, found, uploads, haction, hp, hfound, hsplit, huploads, rfl,
      (haccounted.sound found hmem).unit_ids, entries_of_published haccounted hmem⟩
  · have hunpicked : s₀.outgoing = [] := by
      rw [outgoing, (endpoints_of_start hstart).1]
      rfl
    have hfolder : s₀.settings.stagingFolder = settings.stagingFolder := by
      rw [(settings_of_start hstart).1]
    have hbacking := backing_of_runs harises hnew hnone hunpicked hfolder hkept hspared
    have hfair := hspared.mono fun _ _ h => h.1.1
    intro d hd entry hentry
    have hbacked := backed_of_runs (harises.runs hspared)
      (accounted_of_runs hnew harises hfair fun _ _ h => h.1)
      (registered_of_runs harises hnew hnone hfair) hbacking.folder_eq hbacking.kept hlater hd
      (hbacking.backed d hd)
    obtain ⟨unit, content, -, hblob, hsize⟩ := hbacked entry hentry
    exact ⟨content, hblob, hsize⟩

/-- The store refuses a blob at first, and then the registry refuses the batch. In the end the batch
is published. -/
theorem published_of_runs_at_third :
    let refusing : InMemory := { InMemory.empty with rules := [⟨"22222222-2", .refuse⟩] }
    let world : World (Recorded InMemory) := ⟨ourDisk, ⟨refusing, []⟩⟩
    let started := opened ourSettings world
    let batch := "33333333-3333-3333-3333-333333333333"
    let changed (s : Session (Recorded InMemory)) (fault : Option Failure) :
        World (Recorded InMemory) :=
      ⟨s.world.disk, ⟨{ s.world.services.services with rules := [], publishFault := fault },
        s.world.services.calls⟩⟩
    let history := meeting "e" "peer" ++ offering "e" batch [⟨"/a"⟩, ⟨"/b"⟩]
    let tried := started.after history
    let mended := (Action.outside (changed tried (some .unitsMissing))).run tried
    let retried := (Action.stageBatch "e" batch).run mended
    let restored := (Action.outside (changed retried none)).run retried
    let staged := (Action.stageBatch "e" batch).run restored
    let store := InMemory.keeping ⟨"/s"⟩
    Session.start ourSettings .repdigits world = .ok started ∧
      started.Runs (fun s action => action.Apart store 4 s ∧ action.SparesCopies s) staged ∧
      staged.world.services.calls.length = 8 ∧ staged.world.services.published.length = 1 ∧
      (∀ batch ∈ staged.outgoing, ∀ unit ∈ batch.units,
        unit.state = .staged ↔ batch.reference.isSome) ∧
      ∀ d ∈ staged.world.services.published, ∀ entry ∈ d.units.entries, ∃ content,
        store.blob? staged.world.services.services entry.2.remotePath = some content ∧
          entry.2.size = UInt64.ofNat content.length := by
  intro refusing world started batch changed history tried mended retried restored staged store
  have hdistinct : IdSource.repdigits.DistinctBelow 4 :=
    IdSource.distinctBelow_repdigits.mono (by decide)
  have hstart : Session.start ourSettings .repdigits world = .ok started :=
    start_repdigits (by decide) world
  have hends : (tried.ids.drawn ≤ 4 ∧ retried.ids.drawn ≤ 4 ∧ staged.ids.drawn ≤ 4) ∧
      staged.world.services.calls.length = 8 ∧
      staged.world.services.published.length = 1 := by decide +kernel
  obtain ⟨⟨htriedDrawn, hretriedDrawn, hstagedDrawn⟩, hcalls, hpublished⟩ := hends
  have hleaves (s : Session (Recorded InMemory)) (fault : Option Failure) :
      store.recorded.Leaves s.world (changed s fault) :=
    ⟨fun rule hrule => absurd hrule not_mem_nil, fun path content hblob => hblob,
      fun unit content hread => hread⟩
  have houtside (s : Session (Recorded InMemory)) (fault : Option Failure)
      (hruns : started.Runs (Action.Apart store 4) s) (h : s.ids.drawn ≤ 4) :
      started.Runs (Action.Apart store 4) ((Action.outside (changed s fault)).run s) := by
    refine .act (.outside (changed s fault)) hruns ⟨⟨h, fun world heq => ?_⟩, fun world heq => ?_⟩
    · rw [← Action.outside.inj heq]
    · rw [← Action.outside.inj heq]
      exact hleaves s fault
  have htried : started.Runs (Action.Apart store 4) tried := by
    refine runs_of_eq_after rfl (fun action hmem s h => Action.apart_of_inside ?_ h rfl) htriedDrawn
    rintro world rfl
    simp [history, meeting, offering] at hmem
  have hmended : started.Runs (Action.Apart store 4) mended :=
    houtside tried (some .unitsMissing) htried htriedDrawn
  have hretried : started.Runs (Action.Apart store 4) retried :=
    .act (.stageBatch "e" batch) hmended (Action.apart_of_inside (by simp) hretriedDrawn rfl)
  have hrestored : started.Runs (Action.Apart store 4) restored :=
    houtside retried none hretried hretriedDrawn
  have hapart : started.Runs (Action.Apart store 4) staged :=
    .act (.stageBatch "e" batch) hrestored (Action.apart_of_inside (by simp) hstagedDrawn rfl)
  have hspared := sparesCopies_of_runs (.start hstart) (by decide +kernel) hapart
  obtain ⟨hstaged, -, -, hbacked⟩ :=
    published_of_runs hdistinct hstart rfl (hapart.mono fun _ _ h => h.1)
  have hkept : store.Kept started.world.services.services := by
    change ∀ rule ∈ refusing.rules, rule.action = .refuse ∨ rule.action = .crash
    decide
  exact ⟨hstart, hspared, hcalls, hpublished,
    fun batch hbatch unit hunit => (hstaged batch hbatch unit hunit).1,
    hbacked store hkept staged hspared .refl⟩

/-- Copies are kept where downloads go. Between loading and staging, the peer announces a unit under
the id of ours, and it is downloaded onto our copy. What is published tells the size that the copy
had. -/
theorem published_beside_download :
    let settings := { ourSettings with stagingFolder := ⟨"/f"⟩, downloadFolder := ⟨"/f"⟩ }
    let stocked : InMemory := { InMemory.empty with blobs := .ofList [("x", [1, 2])] }
    let world : World (Recorded InMemory) :=
      ⟨⟨[(["a.txt"], .file [0x61])]⟩, ⟨stocked, []⟩⟩
    let started := opened settings world
    let batch := "22222222-2222-2222-2222-222222222222"
    let history : List (Action (Recorded InMemory)) := meeting "e" "peer" ++
      [.createBatch "e" [⟨"/a.txt"⟩], .loadBatch "e" batch,
        .receiveDescriptor "e" ⟨"b", none, .ofList
          [("11111111-1111-1111-1111-111111111111", ⟨"text/plain", "x", 2⟩)]⟩,
        .downloadBatch "e" "b", .stageBatch "e" batch]
    let staged := started.after history
    let store := InMemory.keeping ⟨"/f"⟩
    IdSource.repdigits.DistinctBelow 3 ∧
      Session.start settings .repdigits world = .ok started ∧
      store.Kept started.world.services.services ∧
      started.Runs (Action.Apart store 3) staged ∧
      ∃ d ∈ staged.world.services.published, ∃ entry ∈ d.units.entries, entry.2.size = 1 ∧
        staged.world.services.services.blobs.find? entry.2.remotePath = some [1, 2] := by
  intro settings stocked world started batch history staged store
  have hdistinct : IdSource.repdigits.DistinctBelow 3 :=
    IdSource.distinctBelow_repdigits.mono (by decide)
  have hkept : store.Kept started.world.services.services :=
    fun rule hrule => absurd hrule not_mem_nil
  have hends : staged.ids.drawn ≤ 3 ∧
      ∃ d ∈ staged.world.services.published, ∃ entry ∈ d.units.entries, entry.2.size = 1 ∧
        staged.world.services.services.blobs.find? entry.2.remotePath = some [1, 2] := by
    decide +kernel
  have hstaged : started.Runs (Action.Apart store 3) staged := by
    refine runs_of_eq_after rfl (fun action hmem s h => Action.apart_of_inside ?_ h rfl) hends.1
    rintro world rfl
    simp [history, meeting] at hmem
  exact ⟨hdistinct, start_repdigits (by decide) world, hkept, hstaged, hends.2⟩

end PeerTransfer.Session
