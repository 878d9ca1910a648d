import PeerTransfer.Proofs.Session.Footprint

/-!
# Files of downloaded units

A unit that was downloaded has its file, with the bytes that the store gave for it, until an action
has that file in its footprint (`read_of_downloaded`). Peers choose the ids of their units, and the
file is named by the id alone: a batch of another peer that announces the same id overwrites the
file, or deletes it when its own download fails (`failed_download_deletes_file`).
-/

namespace PeerTransfer

open List

namespace Session

open Table

variable {σ : Type} [Services σ] {Kept : σ → Prop} {path : Path} {limit : Nat} {s s' : Session σ}

/-- Actions lead from one session to the other, and none of them has the file in its footprint. The
world outside leaves the file alone as well. -/
inductive StepsBeside (limit : Nat) (Kept : σ → Prop) (path : Path) (s : Session σ) :
    Session σ → Prop
  | refl : StepsBeside limit Kept path s s
  | act {s' : Session σ} (action : Action σ) :
      StepsBeside limit Kept path s s' → action.Allowed limit s' →
      (∀ file ∈ action.footprint s', path.place ≠ file.place) →
      (∀ world, action = .outside world → s'.world.Spares Kept path world) →
      StepsBeside limit Kept path s (action.run s')

theorem StepsBeside.steps (h : s.StepsBeside limit Kept path s') : s.Steps limit s' := by
  induction h with
  | refl => exact .refl
  | act action _ hallowed _ _ ih => exact .act action ih hallowed

theorem StepsBeside.spares (hservices : Sparing Kept path) (hreachable : s.Reachable limit)
    (hkept : Kept s.world.services) (h : s.StepsBeside limit Kept path s') :
    s.world.Spares Kept path s'.world := by
  induction h with
  | refl => exact .refl hkept
  | act action hsteps _ hne houtside ih =>
    have hsound := sound_of_reachable (hreachable.steps hsteps.steps)
    exact ih.trans (action.spares_run hservices hsound hne houtside ih.kept)

theorem incomingUnits_run_downloadBatch (h : s.Sound limit) {id batch : String} {p : Endpoint}
    {found : IncomingBatch} (hp : s.table.find? id = some p)
    (hfound : p.incoming? batch = some found) (hstate : p.state = .connected)
    (hended : (Phase.runDownload s.settings found s.world).1 ≠ .error .panicked) :
    ((downloadBatch id batch).run s).2.incomingUnits id batch =
      (Phase.runDownload s.settings found s.world).2.1.units := by
  have hid : p.id = id := id_of_find? hp
  have hsound := (h.sound_of_find? hp).soundIncoming (mem_of_find?_eq_some hfound)
  have hchanged := (Phase.allOrNothing_runDownload s.world hsound.unit_ids
    (Phase.of_not_panicked_runDownload hended)).id_eq
  set ran := Phase.runDownload s.settings found s.world with hran
  set q := { p.setIncoming ran.2.1 with state := .connected }.log (entriesOf ran.1) with hq
  have hset : q.incoming? batch = some ran.2.1 := find?_replaceFirst hfound hchanged
  have hfind : ((downloadBatch id batch).run s).2.table.find? id = some q := by
    rw [run_downloadBatch h.distinct hp, hfound]
    dsimp only
    rw [if_pos hstate, ← hran, if_neg hended, ← hq]
    exact find?_focus hp (q := q) hid _
  exact incomingUnits_of_find? hfind hset

/-- What an advanced download has put into the file of a unit stays there while no action has that
file in its footprint, whatever else becomes of the session. -/
theorem read_of_downloaded (h : s.Reachable limit) {id batch : String}
    {before after : List IncomingUnit} {u : IncomingUnit}
    (hunits : s.incomingUnits id batch = before ++ u :: after) {report : PhaseReport}
    (hrun : ((downloadBatch id batch).run s).1 = .ok report)
    (hadvanced : report.outcome = .advanced)
    (hservices : Sparing Kept (u.targetIn s.settings.downloadFolder))
    (hkept : Kept s.world.services) :
    let file := u.targetIn s.settings.downloadFolder
    let arrived := ((downloadBatch id batch).run s).2
    ∃ content,
      (Services.download u.remotePath
        (Phase.jobs (Phase.downloadSteps s.settings) before s.world).2).1 = .ok content ∧
      { u with localPath := some file, state := .downloaded } ∈ arrived.incomingUnits id batch ∧
      ∀ s', arrived.StepsBeside limit Kept file s' → s'.world.disk.read file = .ok content := by
  intro file arrived
  have hsound := sound_of_reachable h
  cases hp : s.table.find? id with
  | none =>
    rw [run_downloadBatch_of_unknown hp] at hrun
    cases hrun
  | some p =>
    have hends := run_downloadBatch hsound.distinct hp batch
    cases hfound : p.incoming? batch with
    | none =>
      rw [hends, hfound] at hrun
      cases hrun
    | some found =>
      rw [hfound] at hends
      dsimp only at hends
      by_cases hstate : p.state = .connected
      · rw [if_pos hstate] at hends
        rw [incomingUnits_of_find? hp hfound] at hunits
        have hbatch := (hsound.sound_of_find? hp).soundIncoming (mem_of_find?_eq_some hfound)
        split_ifs at hends with hpanic
        · rw [hends] at hrun
          cases hrun
        rw [hends] at hrun
        obtain ⟨content, hcontent, hmem, hkept', hread⟩ :=
          Phase.read_of_advanced hservices hbatch.unit_ids hunits hrun hadvanced hkept
        have hworld : arrived.world = (Phase.runDownload s.settings found s.world).2.2 := by
          change ((downloadBatch id batch).run s).2.world = _
          rw [hends]
        refine ⟨content, hcontent, ?_, fun s' hsteps => ?_⟩
        · change _ ∈ ((downloadBatch id batch).run s).2.incomingUnits id batch
          rw [incomingUnits_run_downloadBatch hsound hp hfound hstate hpanic]
          exact hmem
        · have hended : ((downloadBatch id batch).run s).1 ≠ .error .panicked := by rwa [hends]
          have hspares :=
            hsteps.spares hservices (.downloadBatch id batch h hended) (hworld ▸ hkept')
          exact hspares.file content (hworld ▸ hread)
      · rw [if_neg hstate] at hends
        rw [hends] at hrun
        cases hrun

/-- The store in memory leaves all files alone while it follows no rule. -/
theorem sparing_inMemory (path : Path) : Sparing (σ := InMemory) (·.rules = []) path where
  upload content remotePath world hrules := by
    obtain ⟨disk, services⟩ := world
    change World.Spares _ _ _ (InMemory.upload content remotePath ⟨disk, services⟩).2
    have hrules : services.rules = [] := hrules
    unfold InMemory.upload
    dsimp only
    rw [hrules, InMemory.applyRules]
    exact ⟨rfl, .refl disk path⟩
  download remotePath world hrules := by
    obtain ⟨disk, services⟩ := world
    change World.Spares _ _ _ (InMemory.download remotePath ⟨disk, services⟩).2
    have hrules : services.rules = [] := hrules
    unfold InMemory.download
    dsimp only
    rw [hrules, InMemory.applyRules]
    dsimp only
    split <;> exact ⟨hrules, .refl disk path⟩
  publish descriptor services hrules := by
    change (InMemory.publish descriptor services).2.rules = []
    unfold InMemory.publish
    split <;> exact hrules
  connect _ _ hrules := hrules
  disconnect _ _ hrules := hrules
  send endpoint payload services hrules := by
    change (InMemory.send endpoint payload services).2.rules = []
    unfold InMemory.send
    split <;> exact hrules

/-- Two peers are accepted. The store has two blobs. -/
def twoAccepted : Session InMemory :=
  (opened ourSettings ⟨Disk.empty,
    { InMemory.empty with blobs := .ofList [("x", [1]), ("y", [2])] }⟩).after
      (meeting "e" "peer" ++ meeting "f" "other")

/-- One of two peers announces a unit. -/
def oneAnnounced : Session InMemory :=
  (Action.receiveDescriptor "e" ⟨"b", none, .ofList
    [("00000000-0000-0000-0000-000000000000", ⟨"text/plain", "x", 1⟩)]⟩).run twoAccepted

/-- The unit of `oneAnnounced` is downloaded. -/
def oneArrived : Session InMemory :=
  ((downloadBatch "e" "b").run oneAnnounced).2

theorem reachable_oneAnnounced : oneAnnounced.Reachable 1 := by
  have haccepted : twoAccepted.Reachable 1 :=
    reachable_after_opened (by decide) (by decide) (by simp [meeting]) (by decide +kernel)
  exact haccepted.act ⟨by decide +kernel, IdSource.isFresh_of_le (by decide +kernel) "b"⟩

/-- Another peer announces two units under ids of their own, and the store lacks one of them. -/
theorem read_of_downloaded_beside_failure :
    let announced := (Action.receiveDescriptor "f" ⟨"c", none, .ofList
      [("11111111-1111-1111-1111-111111111111", ⟨"text/plain", "y", 1⟩),
        ("22222222-2222-2222-2222-222222222222", ⟨"text/plain", "z", 1⟩)]⟩).run oneArrived
    let failed := (Action.downloadBatch "f" "c").run announced
    let file : Path := ⟨"/d/00000000-0000-0000-0000-000000000000.txt"⟩
    oneAnnounced.Reachable 1 ∧ oneArrived.StepsBeside 1 (·.rules = []) file failed ∧
      (failed.incomingUnits "f" "c").map (·.state) = [.received, .received] ∧
      failed.world.disk.read file = .ok [1] := by
  intro announced failed file
  have hannounced : oneArrived.StepsBeside 1 (·.rules = []) file announced :=
    .act (.receiveDescriptor "f" _) .refl
      ⟨by decide +kernel, IdSource.isFresh_of_le (by decide +kernel) "c"⟩ (by decide +kernel)
      (by rintro world ⟨⟩)
  have hbeside : oneArrived.StepsBeside 1 (·.rules = []) file failed :=
    .act (.downloadBatch "f" "c") hannounced trivial (by decide +kernel) (by rintro world ⟨⟩)
  have hdownload : oneAnnounced.incomingUnits "e" "b" =
        [] ++ IncomingUnit.announced .zero "x" "x" "text/plain" 1 :: [] ∧
      ((downloadBatch "e" "b").run oneAnnounced).1 =
        .ok ⟨.advanced, [⟨.download, .zero, "x", .success, 1, 0⟩]⟩ ∧
      oneAnnounced.world.services.rules = [] ∧
      (Services.download "x" oneAnnounced.world).1 = .ok [1] ∧
      (IncomingUnit.announced .zero "x" "x" "text/plain" 1).targetIn
        oneAnnounced.settings.downloadFolder = file := by decide +kernel
  obtain ⟨hunits, hrun, hrules, hbytes, hfile⟩ := hdownload
  obtain ⟨content, hcontent, -, hreads⟩ :=
    read_of_downloaded reachable_oneAnnounced hunits hrun rfl (sparing_inMemory _) hrules
  obtain rfl : content = [1] := Except.ok.inj (hcontent.symm.trans hbytes)
  rw [hfile] at hreads
  exact ⟨reachable_oneAnnounced, hbeside, by decide +kernel, hreads failed hbeside⟩

/-- Another peer announces two units, one of them under an id that is taken and the other under one
that the store has nothing for. Its download fails, and with it goes the file that was there. -/
theorem failed_download_deletes_file :
    let announced := (Action.receiveDescriptor "f" ⟨"c", none, .ofList
      [("00000000-0000-0000-0000-000000000000", ⟨"text/plain", "y", 1⟩),
        ("22222222-2222-2222-2222-222222222222", ⟨"text/plain", "z", 1⟩)]⟩).run oneArrived
    let failed := (Action.downloadBatch "f" "c").run announced
    let file : Path := ⟨"/d/00000000-0000-0000-0000-000000000000.txt"⟩
    oneArrived.Reachable 1 ∧ oneArrived.Steps 1 failed ∧
      (oneArrived.incomingUnits "e" "b").map (fun u => (u.state, u.localPath)) =
        [(.downloaded, some file)] ∧
      oneArrived.world.disk.read file = .ok [1] ∧
      (failed.incomingUnits "e" "b").map (fun u => (u.state, u.localPath)) =
        [(.downloaded, some file)] ∧
      failed.world.disk.read file = .error .missing := by
  intro announced failed file
  have hends : (oneArrived.incomingUnits "e" "b").map (fun u => (u.state, u.localPath)) =
        [(.downloaded, some file)] ∧
      oneArrived.world.disk.read file = .ok [1] ∧
      (failed.incomingUnits "e" "b").map (fun u => (u.state, u.localPath)) =
        [(.downloaded, some file)] ∧
      failed.world.disk.read file = .error .missing := by decide +kernel
  have harrived : oneArrived.Reachable 1 :=
    .downloadBatch "e" "b" reachable_oneAnnounced (by decide +kernel)
  have hannounced : oneArrived.Steps 1 announced :=
    .act (.receiveDescriptor "f" _) .refl
      ⟨by decide +kernel, IdSource.isFresh_of_le (by decide +kernel) "c"⟩
  have hfailed : oneArrived.Steps 1 failed := .act (.downloadBatch "f" "c") hannounced trivial
  exact ⟨harrived, hfailed, hends⟩

end Session

end PeerTransfer
