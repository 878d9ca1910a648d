import PeerTransfer.Proofs.Batch.Identity
import PeerTransfer.Proofs.Batch.Sound
import PeerTransfer.Proofs.Phase.Drives

/-!
# Downloads that stay in their folder

What a peer announces decides neither where a file is put nor which is deleted. To say so, the paths
of all files that a download writes or deletes are noted (`runDownloadNoted`). Every one of them is
named by the id of a unit and one of a few endings, and no file changes that is not noted
(`writes_confined`).
-/

namespace PeerTransfer

open List

/-! ## The names of stored files -/

/-- The endings of stored files. -/
def ContentType.endings : List String :=
  ["", ".jpg", ".png", ".gif", ".webp", ".bmp", ".txt", ".pdf", ".mp4"]

theorem ContentType.suffix_mem_endings (contentType : String) :
    suffix contentType ∈ endings := by
  have hknown : ∀ entry ∈ known, suffix entry.2 ∈ endings := by decide
  obtain ⟨entry, hentry, rfl, -⟩ | ⟨-, hsuffix⟩ := suffix_cases contentType
  · exact hknown entry hentry
  · rw [hsuffix]
    exact mem_cons_self

/-- A text of 36 characters, all of them hyphens or lower-case hexadecimal digits. -/
def Uuid.IsCanonical (text : String) : Prop :=
  text.toList.length = 36 ∧ ∀ c ∈ text.toList, c ∈ "0123456789abcdef-".toList

theorem Uuid.isCanonical_text (id : Uuid) : Uuid.IsCanonical id.text := by
  refine ⟨id.length_toList_text, fun c hc => ?_⟩
  rw [toList_text] at hc
  have hdigit : ∀ d, Text.Hex.digitChar d ∈ "0123456789abcdef-".toList := by decide
  rcases mem_of_mem_hyphenate hc with hc | rfl
  · obtain ⟨d, -, rfl⟩ := mem_map.1 hc
    exact hdigit d
  · decide

/-- The path is that of a file in the folder, right below it, which is named by the id of one of the
units and an ending. -/
def IsFileOf (folder : Path) (units : List IncomingUnit) (path : Path) : Prop :=
  ∃ u ∈ units, ∃ ending ∈ ContentType.endings, Uuid.IsCanonical u.id.text ∧
    path = folder.join (u.id.text ++ ending) ∧
    path.place = folder.place ++ [u.id.text ++ ending]

theorem isFileOf_targetIn {folder : Path} {units : List IncomingUnit} {unit : IncomingUnit}
    (hunit : unit ∈ units) : IsFileOf folder units (unit.targetIn folder) :=
  ⟨unit, hunit, _, ContentType.suffix_mem_endings unit.contentType, unit.id.isCanonical_text, rfl,
    Path.place_join folder (isPlain_storedName unit.id unit.contentType)⟩

namespace Phase

/-! ## Phases with notes -/

section Noting

variable {U S ρ α W : Type}

/-- The phase with notes of the files that its jobs touch, and of those that are touched when it is
taken back. -/
def Plan.noting (plan : Plan U S ρ α W) (touched : ρ → W → List Path)
    (undone : List U → List Path) : Plan U S ρ α (W × List Path) where
  phase := plan.phase
  required := plan.required
  prepare := plan.prepare
  steps :=
    { start := plan.steps.start
      unit := plan.steps.unit
      run := fun request (world, notes) =>
        let ran := plan.steps.run request world
        (ran.1, ran.2, notes ++ touched request world)
      complete := plan.steps.complete
      fail := plan.steps.fail
      isPrompt := plan.steps.isPrompt }
  limit := plan.limit
  entries := plan.entries
  finish := fun entries batch (world, notes) =>
    let ended := plan.finish entries batch world
    (ended.1, ended.2.1, ended.2.2, notes)
  rollback := fun units (world, notes) =>
    let ended := plan.rollback units world
    (ended.1, ended.2, notes ++ undone units)

variable (plan : Plan U S ρ α W) (touched : ρ → W → List Path) (undone : List U → List Path)

theorem runAll_noting (requests : List ρ) (noted : W × List Path) :
    let steps := (plan.noting touched undone).steps
    let ran := runAll steps.unit steps.run requests noted
    runAll plan.steps.unit plan.steps.run requests noted.1 = (ran.1, ran.2.1) := by
  induction requests generalizing noted with
  | nil => rfl
  | cons request requests ih =>
    have hrest := ih ((plan.steps.run request noted.1).2, noted.2 ++ touched request noted.1)
    simp only [runAll] at hrest ⊢
    rw [hrest]
    rfl

variable [Transferable U S]

theorem settle_noting (results : List (Uuid × Except Failure α)) (units : List U) :
    settle (plan.noting touched undone).steps results units =
      settle plan.steps results units := by
  induction results generalizing units with
  | nil => rfl
  | cons result results ih =>
    simp only [settle, ih]
    rfl

theorem attempt_noting (batch : Batch U) (world : W) (notes : List Path) :
    let ended := attempt (plan.noting touched undone).steps plan.limit batch (world, notes)
    attempt plan.steps plan.limit batch world = (ended.1, ended.2.1, ended.2.2.1) := by
  have hstart : (plan.noting touched undone).steps.start = plan.steps.start := rfl
  have hprompt : comesAtOnce (plan.noting touched undone).steps = comesAtOnce plan.steps := rfl
  unfold attempt
  dsimp only
  rw [hstart]
  rcases startAll plan.steps.start batch.units with ⟨failure | requests, units⟩
  · rfl
  · have hran := runAll_noting plan touched undone requests (world, notes)
    dsimp only at hran ⊢
    rw [hran, settle_noting, hprompt]
    split_ifs <;> rfl

theorem Plan.run_noting [Progress S] [DecidableEq S] (batch : Batch U) (world : W)
    (notes : List Path) :
    let ended := (plan.noting touched undone).run batch (world, notes)
    plan.run batch world = (ended.1, ended.2.1, ended.2.2.1) := by
  have hattempt := attempt_noting plan touched undone (plan.prepare batch) world notes
  unfold Plan.run
  dsimp only [Plan.noting] at hattempt ⊢
  rw [hattempt]
  cases requireAll plan.phase plan.required batch with
  | error failure => rfl
  | ok =>
    generalize attempt _ plan.limit (plan.prepare batch) (world, notes) = ended
    rcases ended with ⟨failure | verdicts, batch, world, notes⟩
    · rfl
    · dsimp only
      cases Verdict.failed verdicts <;> rfl

end Noting

/-! ## Downloading -/

section Download

variable {σ : Type} {Kept : σ → Prop} {Allowed : Path → Prop} {world : World σ}
  {noted : World σ × List Path}

/-- The locations that some paths lead to. -/
def placesOf (paths : List Path) : Set Disk.Location :=
  {l | ∃ path ∈ paths, path.place = l}

theorem placesOf_subset_append_left (paths paths' : List Path) :
    placesOf paths ⊆ placesOf (paths ++ paths') :=
  fun _ ⟨path, hpath, hplace⟩ => ⟨path, mem_append_left paths' hpath, hplace⟩

theorem placesOf_subset_append_right (paths paths' : List Path) :
    placesOf paths' ⊆ placesOf (paths ++ paths') :=
  fun _ ⟨path, hpath, hplace⟩ => ⟨path, mem_append_right paths hpath, hplace⟩

/-- All files that were noted are allowed, and no others have changed. -/
structure Noted (Kept : σ → Prop) (Allowed : Path → Prop) (world : World σ)
    (noted : World σ × List Path) : Prop where
  kept : Kept noted.1.services
  allowed : ∀ path ∈ noted.2, Allowed path
  changes : world.disk.Changes (placesOf noted.2) noted.1.disk

theorem Noted.start (hkept : Kept world.services) : Noted Kept Allowed world (world, []) :=
  ⟨hkept, fun _ hpath => absurd hpath not_mem_nil, .refl _ world.disk⟩

theorem Noted.rollback (h : Noted Kept Allowed world noted) {units : List IncomingUnit}
    (hlocal : ∀ u ∈ units, ∀ copy, u.localPath = some copy → Allowed copy) :
    Noted Kept Allowed world
      ({ noted.1 with disk := (forAll IncomingUnit.rollbackDownload units noted.1.disk).2 },
        noted.2 ++ units.filterMap (·.localPath)) where
  kept := h.kept
  allowed := by
    rw [forall_mem_append]
    refine ⟨h.allowed, fun copy hcopy => ?_⟩
    obtain ⟨u, hu, hpath⟩ := mem_filterMap.1 hcopy
    exact hlocal u hu copy hpath
  changes := by
    dsimp only
    rw [forAll_discard rollbackDownload_disk]
    refine (h.changes.mono (placesOf_subset_append_left _ _)).trans (.discardAll ?_ _)
    exact fun copy hcopy => placesOf_subset_append_right noted.2 _ ⟨copy, hcopy, rfl⟩

variable [Services σ] {drives : Uuid → Disk.Drive} {settings : Settings}

/-- The paths of the files that a job writes or deletes on a drive. -/
def fetchTouched (drive : Disk.Drive) (folder : Path) (request : DownloadRequest)
    (world : World σ) : List Path :=
  match Services.download request.remotePath world with
  | (.error _, _) => []
  | (.ok content, world) =>
    (deliverProgram folder (request.targetIn folder) content).touched drive world.disk

/-- Downloading, each unit on its own drive, with notes of all files that are written or deleted.
When a download is taken back, these are the files of its units. -/
def downloadPlanNoted (drives : Uuid → Disk.Drive) (settings : Settings) :
    Plan IncomingUnit IncomingState DownloadRequest Delivery (World σ × List Path) :=
  (downloadPlan drives settings).noting
    (fun request => fetchTouched (drives request.unit) settings.downloadFolder request)
    (filterMap (·.localPath))

/-- Downloads a batch and answers the notes as well. -/
def runDownloadNoted (drives : Uuid → Disk.Drive) (settings : Settings) (batch : IncomingBatch)
    (world : World σ) : Except Failure PhaseReport × IncomingBatch × World σ × List Path :=
  (downloadPlanNoted drives settings).run batch (world, [])

/-- Taking notes changes nothing. -/
theorem runDownloadOn_eq (drives : Uuid → Disk.Drive) (settings : Settings) (batch : IncomingBatch)
    (world : World σ) :
    let noted := runDownloadNoted drives settings batch world
    runDownloadOn drives settings batch world = (noted.1, noted.2.1, noted.2.2.1) :=
  (downloadPlan drives settings).run_noting
    (fun request => fetchTouched (drives request.unit) settings.downloadFolder request)
    (filterMap (·.localPath)) batch world []

theorem Noted.fetch (h : Noted Kept Allowed world noted) (hservices : Aloof Kept)
    (drive : Disk.Drive) {folder : Path} {request : DownloadRequest}
    (hallowed : Allowed (request.targetIn folder)) :
    Noted Kept Allowed world ((fetchOn drive folder request noted.1).2,
      noted.2 ++ fetchTouched drive folder request noted.1) := by
  have hdownload := hservices.download request.remotePath noted.1 h.kept
  have hnoted := fun paths => h.changes.mono (placesOf_subset_append_left noted.2 paths)
  unfold fetchOn fetchTouched
  rcases hcall : Services.download request.remotePath noted.1 with ⟨failure | content, world'⟩
  all_goals rw [hcall] at hdownload
  · refine ⟨hdownload.kept, ?_, ?_⟩
    · rw [append_nil]
      exact h.allowed
    · exact (hnoted []).trans (hdownload.changes.mono (Set.empty_subset _))
  · have htouched := (confined_deliverProgram folder (request.targetIn folder) content).touched
      drive world'.disk
    refine ⟨hdownload.kept, ?_, ?_⟩
    · rw [forall_mem_append]
      exact ⟨h.allowed, fun path hpath => htouched path hpath ▸ hallowed⟩
    · refine ((hnoted _).trans (hdownload.changes.mono (Set.empty_subset _))).trans ?_
      exact Disk.Program.changes_run fun path hpath =>
        placesOf_subset_append_right noted.2 _ ⟨path, hpath, rfl⟩

/-- Whatever becomes of a download, and also where the ids of units do not tell them apart, it
touches no files but those of its units. -/
theorem noted_runDownload (hservices : Aloof Kept) {batch : IncomingBatch}
    (hlocal : ∀ u ∈ batch.units, u.localPath = none) (hkept : Kept world.services) :
    Noted Kept (IsFileOf settings.downloadFolder batch.units) world
      (runDownloadNoted drives settings batch world).2.2 := by
  have htarget : ∀ u ∈ batch.units, ∀ request u', u.beginDownload = .ok (request, u') →
      IsFileOf settings.downloadFolder batch.units (request.targetIn settings.downloadFolder) := by
    intro u hu request u' hbegin
    rw [(targetIn_of_beginDownload hbegin _).1]
    exact isFileOf_targetIn hu
  unfold runDownloadNoted Plan.run
  set plan := downloadPlanNoted (σ := σ) drives settings
  have hworld := attempt_induction
    (P := Noted Kept (IsFileOf settings.downloadFolder batch.units) world) plan.steps plan.limit
    (plan.prepare batch)
    (fun u hu request u' hbegin noted hnoted =>
      hnoted.fetch hservices (drives request.unit) (htarget u hu request u' hbegin))
    (.start hkept)
  have hunits := localPath_of_attempt plan.steps (plan.prepare batch)
    (R := IsFileOf settings.downloadFolder batch.units) rfl rfl rfl
    (by
      intro u hu request u' hbegin noted delivery hfetch
      rw [path_of_fetchOn hfetch]
      exact htarget u hu request u' hbegin)
    hlocal plan.limit (world, [])
  split
  · exact .start hkept
  · split
    · next h => rwa [h] at hworld
    · next h =>
      rw [h] at hworld hunits
      split
      · exact hworld
      · exact hworld.rollback hunits

/-- Batches that were announced by a peer, whatever it sent. -/
inductive FromPeer : IncomingBatch → Prop where
  | wire {payload : Bytes} {sender receiver : String} {ids : IdSource} {batch : IncomingBatch} :
      (Batch.ofWire payload sender receiver ids).1 = .ok batch → FromPeer batch
  | descriptor {descriptor : Descriptor} {sender receiver : String} {batch : IncomingBatch} :
      Batch.ofDescriptor descriptor sender receiver = .ok batch → FromPeer batch

theorem FromPeer.localPath {batch : IncomingBatch} (h : FromPeer batch) :
    ∀ u ∈ batch.units, u.localPath = none := by
  cases h with
  | wire h => exact Batch.localPath_of_ofWire h
  | descriptor h => exact Batch.localPath_of_ofDescriptor h

/-- A download of what a peer has announced, on whatever drives and with whatever outcome, writes
and deletes only files that lie right below the download folder and that are named by the id of one
of its units and an ending. No other file changes. The download is the same as without the notes
and, on sound drives, the one that runs. -/
theorem writes_confined (hservices : Aloof Kept) (drives : Uuid → Disk.Drive) (settings : Settings)
    {batch : IncomingBatch} (hbatch : FromPeer batch) (world : World σ)
    (hkept : Kept world.services) :
    let noted := runDownloadNoted drives settings batch world
    let touched := noted.2.2.2
    (∀ path ∈ touched, IsFileOf settings.downloadFolder batch.units path) ∧
      (∀ l, noted.2.2.1.disk.file? l ≠ world.disk.file? l → ∃ path ∈ touched, path.place = l) ∧
      runDownloadOn drives settings batch world = (noted.1, noted.2.1, noted.2.2.1) ∧
      runDownloadOn (σ := σ) (fun _ => .sound) settings = runDownload settings := by
  intro noted touched
  have hnoted : Noted Kept (IsFileOf settings.downloadFolder batch.units) world noted.2.2 :=
    noted_runDownload hservices hbatch.localPath hkept
  refine ⟨hnoted.allowed, fun l hchanged => ?_, runDownloadOn_eq drives settings batch world,
    runDownloadOn_sound settings⟩
  by_contra huntouched
  exact hchanged (hnoted.changes.file?_eq l huntouched)

/-- The peer asks for places outside of the folder and for an odd type. On one of two drives the
second file is broken off, so that the first is written over another and then deleted. -/
theorem writes_confined_hostile :
    let one : Uuid := ⟨Vector.replicate 32 1⟩
    let settings := { Settings.defaults with downloadFolder := ⟨"d"⟩ }
    let drives (id : Uuid) : Disk.Drive := if id = one then .torn else .sound
    let descriptor : Descriptor := ⟨"b", none, Catalog.ofList
      [(Uuid.zero.text, ⟨"image/png", "../../etc/passwd", 2⟩), (one.text, ⟨"/../x", "/etc/x", 1⟩)]⟩
    let batch : IncomingBatch := ⟨"b", none, "s", "r",
      [.announced Uuid.zero "passwd" "../../etc/passwd" "image/png" 2,
        .announced one "x" "/etc/x" "/../x" 1], none⟩
    let services : InMemory := { InMemory.empty with
      blobs := Catalog.ofList [("../../etc/passwd", [1, 2]), ("/etc/x", [3])] }
    let disk : Disk := ⟨[(["d"], .folder), (["d", Uuid.zero.text ++ ".png"], .file [4]),
      (["etc", "passwd"], .file [5])]⟩
    let world : World InMemory := ⟨disk, services⟩
    let touched := (runDownloadNoted drives settings batch world).2.2.2
    Batch.ofDescriptor descriptor "s" "r" = .ok batch ∧
      touched.map (·.text) = ["d/" ++ Uuid.zero.text ++ ".png", "d/" ++ one.text,
        "d/" ++ one.text, "d/" ++ Uuid.zero.text ++ ".png"] ∧
      ∀ path ∈ touched, IsFileOf settings.downloadFolder batch.units path := by
  intro one settings drives descriptor batch services disk world touched
  have hbatch : Batch.ofDescriptor descriptor "s" "r" = .ok batch := by decide +kernel
  refine ⟨hbatch, by decide +kernel, ?_⟩
  have hkept : services.Harmless := nofun
  have hconfined := writes_confined InMemory.aloof_of_harmless drives settings
    (.descriptor hbatch) world hkept
  exact hconfined.1

end Download

end Phase

end PeerTransfer
