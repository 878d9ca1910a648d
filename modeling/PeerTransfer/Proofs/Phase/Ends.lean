import PeerTransfer.Proofs.Phase.Frame

/-!
# What an outgoing batch has become

A phase of an outgoing batch that begins its jobs has few ends. Loading gives every unit a copy that
has as many bytes as the unit then says, or leaves it without one (`units_runLoad`). Staging leaves
the batch as it was, but for remote paths that it has assigned, or it publishes what it has
described (`stageEnds_runStage`).
-/

namespace PeerTransfer.Phase

open List

/-! ## Loading -/

theorem rollbackLoad_eq (unit : OutgoingUnit) (disk : Disk) :
    (unit.rollbackLoad disk).1 = { unit with localPath := none, state := .picked } := by
  obtain ⟨_, _, localPath, _, _, _, _⟩ := unit
  cases localPath <;> rfl

theorem reference_runLoad (settings : Settings) (batch : OutgoingBatch) (disk : Disk) :
    (runLoad settings batch disk).2.1.reference = batch.reference := by
  obtain ⟨units, hunits⟩ := exists_units_attempt (loadSteps settings)
    settings.maxConcurrentUnits.toNat batch disk
  have href := congrArg Batch.reference hunits
  unfold runLoad
  split
  · rfl
  · split
    · next h =>
      rw [h] at href
      exact href
    · next h =>
      rw [h] at href
      split <;> exact href

theorem read_of_run {request : LoadRequest} {folder : Path} {quality : UInt8} {disk : Disk}
    {copy : LocalCopy} (h : (request.run folder quality disk).1 = .ok copy) :
    ∃ content, copy = ⟨request.targetIn folder, UInt64.ofNat content.length⟩ ∧
      (request.run folder quality disk).2.read (request.targetIn folder) = .ok content := by
  obtain ⟨_, normal, _, -, -, -, hwrite, rfl⟩ := run_eq_ok_iff.1 (Prod.ext h rfl)
  exact ⟨normal, rfl, Disk.read_of_write hwrite⟩

/-- Once all jobs have succeeded, every unit has the copy that its own job has made. -/
theorem copies_of_jobs (settings : Settings) {units : List OutgoingUnit} {disk : Disk}
    (hstate : ∀ u ∈ units, u.state = .picked) (hnodup : (units.map Transferable.id).Nodup)
    {result : Uuid → Except Failure LocalCopy}
    (hresult : (jobs (loadSteps settings) units disk).1 = units.map fun u => (u.id, result u.id))
    (hok : failedIn (jobs (loadSteps settings) units disk).1 = []) :
    ∀ u ∈ units, ∃ content,
      result u.id = .ok ⟨u.targetIn settings.stagingFolder, UInt64.ofNat content.length⟩ ∧
        (jobs (loadSteps settings) units disk).2.read (u.targetIn settings.stagingFolder) =
          .ok content := by
  have hmade := of_jobs_ok (loadLaw settings) (P := fun _ => True)
    (Q := fun u copy disk => ∃ content : Bytes,
      copy = ⟨u.targetIn settings.stagingFolder, UInt64.ofNat content.length⟩ ∧
        disk.read (u.targetIn settings.stagingFolder) = .ok content)
    hstate hnodup (fun _ _ _ _ => trivial) (fun u _ disk copy _ hrun => read_of_run hrun)
    (by
      rintro u - v - hne disk copy - ⟨content, hcopy, hread⟩
      refine ⟨content, hcopy, ?_⟩
      exact fileWithin_run (OutgoingUnit.place_targetIn_ne hne.symm _) settings.jpegQuality disk _
        hread)
    hresult hok trivial
  intro u hu
  obtain ⟨_, hcopy, content, rfl, hread⟩ := hmade u hu
  exact ⟨content, hcopy, hread⟩

/-- A batch that was to be loaded is the same but for its units, each of which is picked and has no
copy, or has one with as many bytes as it says. -/
theorem units_runLoad {settings : Settings}
    (hlimit : settings.maxConcurrentUnits.toNat ≤ maxPermits) {batch : OutgoingBatch} (disk : Disk)
    (hstate : ∀ u ∈ batch.units, u.state = .picked)
    (hnodup : (batch.units.map Transferable.id).Nodup) :
    ∃ units, (runLoad settings batch disk).2.1 = { batch with units } ∧
      ∀ v ∈ units, ∃ u ∈ batch.units,
        (∃ size, v = { u with localPath := none, size, state := .picked }) ∨
        ∃ content,
          (runLoad settings batch disk).2.2.read (u.targetIn settings.stagingFolder) =
            .ok content ∧
          v = { u with
            localPath := some (u.targetIn settings.stagingFolder)
            size := UInt64.ofNat content.length
            state := .loaded } := by
  obtain ⟨result, hresult, hrun⟩ := runLoad_of_picked hlimit disk hstate hnodup
  rw [hrun]
  split_ifs with hok
  · refine ⟨_, rfl, forall_mem_map.2 fun u hu => ⟨u, hu, .inr ?_⟩⟩
    obtain ⟨content, hcopy, hread⟩ := copies_of_jobs settings hstate hnodup hresult hok u hu
    refine ⟨content, hread, ?_⟩
    rw [hcopy]
    rfl
  · refine ⟨_, rfl, ?_⟩
    refine forall_mem_forAll
      (P := fun v => ∃ u ∈ batch.units, ∃ localPath size state, v = { u with
        localPath := localPath, size := size, state := state })
      (fun v disk hv => ?_) (forall_mem_map.2 fun u hu => ⟨u, hu, ?_⟩) _
    · obtain ⟨u, hu, localPath, size, state, rfl⟩ := hv
      exact ⟨u, hu, .inl ⟨size, rollbackLoad_eq _ disk⟩⟩
    · cases result u.id <;> exact ⟨_, _, _, rfl⟩

/-! ## Staging -/

theorem releaseCopy_of_staged {unit : OutgoingUnit} (h : unit.state = .staged) (disk : Disk) :
    releaseCopy unit disk =
      ({ unit with localPath := none }, unit.localPath.elim disk disk.discard) := by
  unfold releaseCopy OutgoingUnit.releaseLocal Disk.discard
  rw [if_pos h]
  obtain ⟨_, _, localPath, _, _, _, _⟩ := unit
  cases localPath with
  | none => rfl
  | some copy =>
    dsimp only [Option.elim_some]
    cases disk.remove copy <;> rfl

/-- Staged units give up all their copies. -/
theorem releaseAll_of_staged {units : List OutgoingUnit} (h : ∀ u ∈ units, u.state = .staged)
    (disk : Disk) :
    forAll releaseCopy units disk =
      (units.map fun u => { u with localPath := none },
        (units.filterMap (·.localPath)).foldl Disk.discard disk) := by
  induction units generalizing disk with
  | nil => rfl
  | cons u units ih =>
    rw [forall_mem_cons] at h
    rw [forAll, releaseCopy_of_staged h.1]
    dsimp only
    rw [ih h.2, filterMap_cons]
    cases u.localPath <;> rfl

section Stage

variable {σ : Type} [Services σ] {settings : Settings} {batch : OutgoingBatch} {world : World σ}

theorem map_settled_staging {units : List OutgoingUnit} {result : Uuid → Except Failure UInt64}
    (h : failedIn (units.map fun u => (Transferable.id u, result (Transferable.id u))) = []) :
    units.map (fun u => (stageLaw (σ := σ)).settled u (result u.id)) =
      units.map fun u => { u with state := .staged } := by
  apply map_congr_left
  intro u hu
  obtain ⟨size, hsize⟩ := exists_settled_eq_completed (stageLaw (σ := σ)) result h u hu
  exact hsize

theorem rollbackStage_settled {unit : OutgoingUnit} (h : unit.state = .loaded)
    (result : Except Failure UInt64) :
    ((stageLaw (σ := σ)).settled unit result).rollbackStage = unit := by
  obtain ⟨_, _, _, _, _, _, _⟩ := unit
  obtain rfl := h
  cases result <;> rfl

theorem remotePath_withRemotePaths :
    ∀ u ∈ (withRemotePaths batch).units, u.remotePath.isSome :=
  forall_mem_map.2 fun u _ => by rw [ensureRemotePath_eq]; rfl

/-- A unit of a batch that was published. It has given up its copy if it was to. -/
def handOver (release : Bool) (unit : OutgoingUnit) : OutgoingUnit :=
  { unit with localPath := if release then none else unit.localPath, state := .staged }

variable (settings batch world) in
/-- The ways in which the staging of a loaded batch ends. -/
inductive StageEnds : Except Failure PhaseReport × OutgoingBatch × World σ → Prop
  | unitsFailed {report : PhaseReport} : report.outcome ≠ .advanced →
      failedIn (jobs stageSteps (withRemotePaths batch).units world).1 ≠ [] →
      StageEnds (.ok report, withRemotePaths batch,
        (jobs stageSteps (withRemotePaths batch).units world).2)
  | publishFailed {report : PhaseReport} {cause : Failure} {services : σ} :
      report.outcome ≠ .advanced →
      failedIn (jobs stageSteps (withRemotePaths batch).units world).1 = [] →
      Services.publish (withRemotePaths batch).descriptor
        (jobs stageSteps (withRemotePaths batch).units world).2.services =
          (.error cause, services) →
      StageEnds (.ok report, withRemotePaths batch,
        { (jobs stageSteps (withRemotePaths batch).units world).2 with services })
  | published {report : PhaseReport} {reference : String} {services : σ} :
      report.outcome = .advanced →
      failedIn (jobs stageSteps (withRemotePaths batch).units world).1 = [] →
      Services.publish (withRemotePaths batch).descriptor
        (jobs stageSteps (withRemotePaths batch).units world).2.services =
          (.ok reference, services) →
      StageEnds (.ok report,
        { withRemotePaths batch with
          reference := some reference
          units := (withRemotePaths batch).units.map (handOver settings.releaseAfterStage) },
        { disk := if settings.releaseAfterStage
            then (batch.units.filterMap (·.localPath)).foldl Disk.discard
              (jobs stageSteps (withRemotePaths batch).units world).2.disk
            else (jobs stageSteps (withRemotePaths batch).units world).2.disk
          services })

variable (world) in
/-- A loaded batch is staged to no other end than these. -/
theorem stageEnds_runStage (hlimit : settings.maxConcurrentUnits.toNat ≤ maxPermits)
    (hstate : ∀ u ∈ batch.units, u.state = .loaded) (hlocal : ∀ u ∈ batch.units, u.localPath.isSome)
    (hnodup : (batch.units.map Transferable.id).Nodup) :
    StageEnds settings batch world (runStage settings batch world) := by
  obtain ⟨result, hresult, hrun⟩ := runStage_of_loaded hlimit world hstate hlocal hnodup
  set start := withRemotePaths batch with hstart
  set ran := jobs stageSteps start.units world with hran
  set staged : OutgoingBatch := { start with
    units := start.units.map fun u => (stageLaw (σ := σ)).settled u (result u.id) } with hstaged
  have hback : rollbackStaging staged = start := by
    have hloaded : ∀ v ∈ start.units, v.state = .loaded :=
      forall_mem_map.2 fun u hu => by rw [ensureRemotePath_eq]; exact hstate u hu
    have hunits : start.units.map (OutgoingUnit.rollbackStage ∘ fun u =>
        (stageLaw (σ := σ)).settled u (result u.id)) = start.units.map id :=
      map_congr_left fun v hv => rollbackStage_settled (hloaded v hv) _
    unfold rollbackStaging
    rw [map_map, hunits, map_id]
  have hdescribe : staged.describe = .ok start.descriptor :=
    (describe_map_settled start result).trans (Batch.describe_eq_ok remotePath_withRemotePaths)
  rw [hrun]
  split_ifs with hok
  · cases hpublish : Services.publish start.descriptor ran.2.services with
    | mk answer services =>
      cases answer with
      | error cause =>
        unfold publish
        rw [hdescribe]
        dsimp only
        rw [hpublish, hback]
        exact .publishFailed nofun hok hpublish
      | ok reference =>
        have hunits : staged.units = start.units.map fun u => { u with state := .staged } :=
          map_settled_staging (hresult ▸ hok)
        have hcopies : staged.units.filterMap (·.localPath) =
            batch.units.filterMap (·.localPath) := by
          rw [hunits, filterMap_map, ← filterMap_localPath_withRemotePaths]
          rfl
        have hdone : ∀ v ∈ staged.units, v.state = .staged := by
          rw [hunits, forall_mem_map]
          exact fun u _ => rfl
        have hreleased := releaseAll_of_staged hdone ran.2.disk
        rw [publish_of_published settings _ hdescribe hpublish, hreleased, hcopies, hunits]
        have hends : StageEnds settings batch world (.ok ⟨.advanced,
            (told start.units result).map (Verdict.entry .upload id)⟩, _, _) :=
          .published rfl hok hpublish
        cases hrelease : settings.releaseAfterStage with
        | true =>
          rw [hrelease] at hends
          rw [map_map]
          exact hends
        | false =>
          rw [hrelease] at hends
          exact hends
  · rw [hback]
    exact .unitsFailed nofun hok

end Stage

end PeerTransfer.Phase
