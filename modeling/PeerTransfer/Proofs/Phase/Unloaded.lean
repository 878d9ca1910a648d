import PeerTransfer.Proofs.Phase.AllOrNothing
import PeerTransfer.Proofs.Phase.Drives
import PeerTransfer.Proofs.Phase.Ends

/-!
# What a failed load leaves behind

When loading fails for some of the units, it is taken back for all of them. The units are then what
they were but for their sizes: a unit whose own copy had been made keeps the size of that copy
(`unloaded_of_unitsFailed`). So the batch is as before exactly where these sizes were right already.
-/

namespace PeerTransfer

open List

namespace OutgoingUnit

/-- A picked unit once its load is taken back. Of a copy that had been made its size is left. -/
def unloaded (unit : OutgoingUnit) : Except Failure LocalCopy → OutgoingUnit
  | .ok copy => { unit with size := copy.size }
  | .error _ => unit

theorem unloaded_eq_self_iff {unit : OutgoingUnit} {result : Except Failure LocalCopy} :
    unit.unloaded result = unit ↔ ∀ copy, result = .ok copy → copy.size = unit.size := by
  cases result with
  | error failure => exact ⟨fun _ _ => nofun, fun _ => rfl⟩
  | ok copy =>
    constructor
    · rintro h _ ⟨⟩
      exact congrArg size h
    · intro h
      rw [unloaded, h copy rfl]

end OutgoingUnit

namespace Phase

variable {drives : Uuid → Disk.Drive} {settings : Settings}

/-- Taking a load back undoes what the jobs have made of a unit, but for the size. -/
theorem rollbackLoad_settled {unit : OutgoingUnit} (hstate : unit.state = .picked)
    (hlocal : unit.localPath = none) (result : Except Failure LocalCopy) (disk : Disk) :
    (((loadLawOn drives settings).settled unit result).rollbackLoad disk).1 =
      unit.unloaded result := by
  obtain ⟨id, source, localPath, remotePath, contentType, size, state⟩ := unit
  cases hstate
  cases hlocal
  rw [rollbackLoad_eq]
  cases result <;> rfl

theorem forAll_rollbackLoad_settled {units : List OutgoingUnit}
    (hunits : ∀ u ∈ units, u.state = .picked ∧ u.localPath = none)
    (result : Uuid → Except Failure LocalCopy) (disk : Disk) :
    (forAll OutgoingUnit.rollbackLoad
      (units.map fun u => (loadLawOn drives settings).settled u (result u.id)) disk).1 =
        units.map fun u => u.unloaded (result u.id) := by
  induction units generalizing disk with
  | nil => rfl
  | cons u units ih =>
    rw [forall_mem_cons] at hunits
    simp only [map_cons, forAll]
    rw [rollbackLoad_settled hunits.1.1 hunits.1.2, ih hunits.2]

theorem map_unloaded_eq_self_iff {batch : OutgoingBatch}
    {result : Uuid → Except Failure LocalCopy} :
    { batch with units := batch.units.map fun u => u.unloaded (result u.id) } = batch ↔
      ∀ u ∈ batch.units, ∀ copy, result u.id = .ok copy → copy.size = u.size := by
  have hmap := map_inj_left (f := fun u : OutgoingUnit => u.unloaded (result u.id)) (g := id)
    (l := batch.units)
  rw [map_id] at hmap
  constructor
  · intro h u hu
    exact OutgoingUnit.unloaded_eq_self_iff.1 (hmap.1 (congrArg Batch.units h) u hu)
  · intro h
    rw [hmap.2 fun u hu => OutgoingUnit.unloaded_eq_self_iff.2 (h u hu)]

/-- What a load that fails makes of a batch, on whatever drives. -/
theorem unloaded_of_unitsFailed (drives : Uuid → Disk.Drive) (settings : Settings)
    {batch : OutgoingBatch} {disk : Disk} (hreached : ∀ u ∈ batch.units, u.Reached)
    (hnodup : (batch.units.map Transferable.id).Nodup) {report : PhaseReport} {ids : List Uuid}
    (hreport : (runLoadOn drives settings batch disk).1 = .ok report)
    (hfailed : report.outcome = .unitsFailed ids) :
    let after := (runLoadOn drives settings batch disk).2.1
    (∃ result : Uuid → Except Failure LocalCopy,
      (jobs (loadStepsOn drives settings) batch.units disk).1 =
        batch.units.map (fun u => (u.id, result u.id)) ∧
      after = { batch with units := batch.units.map fun u => u.unloaded (result u.id) } ∧
      (after = batch ↔
        ∀ u ∈ batch.units, ∀ copy, result u.id = .ok copy → copy.size = u.size)) ∧
    runLoadOn (fun _ => .sound) settings = runLoad settings := by
  intro after
  refine ⟨?_, runLoadOn_sound settings⟩
  have hstate : ∀ u ∈ batch.units, u.state = .picked := by
    by_contra! hother
    obtain ⟨failure, hrun⟩ := (loadPlan drives settings).run_of_exists disk hother
    have hrefused : (runLoadOn drives settings batch disk).1 = .error failure := by
      rw [runLoadOn, hrun]
    cases hreport.symm.trans hrefused
  have hlimit : (loadPlan drives settings).limit ≤ maxPermits := by
    by_contra hlimit
    have hpanicked : (runLoadOn drives settings batch disk).1 = .error .panicked :=
      congrArg Prod.fst ((loadPlan drives settings).run_of_lt disk (loadLawOn drives settings)
        (not_le.1 hlimit) hstate hstate)
    cases hreport.symm.trans hpanicked
  obtain ⟨result, hresult, hrun⟩ := (loadPlan drives settings).run_of_ready disk
    (loadLawOn drives settings) hlimit hstate hstate hnodup
  have hafter : after =
      { batch with units := batch.units.map fun u => u.unloaded (result u.id) } := by
    have hunits (u : OutgoingUnit) (hu : u ∈ batch.units) :
        u.state = .picked ∧ u.localPath = none :=
      ⟨hstate u hu, (hreached u hu).coherent.localPath_eq_none (.inl (hstate u hu))⟩
    change (Plan.run _ batch disk).2.1 = _
    unfold runLoadOn at hreport
    rw [hrun] at hreport ⊢
    split_ifs at hreport ⊢
    · cases hreport
      cases hfailed
    · exact congrArg (fun units => { batch with units })
        (forAll_rollbackLoad_settled hunits result _)
  exact ⟨result, hresult, hafter, hafter ▸ map_unloaded_eq_self_iff⟩

/-- The size of the first unit was set right beforehand. The second file is broken off by its drive,
and the batch is as it was. -/
theorem unloaded_of_unitsFailed_torn :
    let one : Uuid := ⟨Vector.replicate 32 1⟩
    let settings := { Settings.defaults with stagingFolder := ⟨"s"⟩ }
    let drives (id : Uuid) : Disk.Drive := if id = one then .torn else .sound
    let sized : OutgoingUnit := { OutgoingUnit.pick Uuid.zero ⟨"x"⟩ "text/plain" with size := 2 }
    let batch : OutgoingBatch := ⟨"b", none, "s", "r", [sized, .pick one ⟨"y"⟩ "text/plain"], none⟩
    let disk : Disk := ⟨[(["x"], .file [1, 2]), (["y"], .file [3])]⟩
    let ended := runLoadOn drives settings batch disk
    ended.1 = .ok ⟨.unitsFailed [one], []⟩ ∧ ended.2.1 = batch := by
  intro one settings drives sized batch disk ended
  have hreport : ended.1 = .ok ⟨.unitsFailed [one], []⟩ := by decide +kernel
  have hreached : ∀ u ∈ batch.units, u.Reached := by
    have hsized : sized.Reached := .setSize 2 (.pick Uuid.zero ⟨"x"⟩ "text/plain") rfl
    exact forall_mem_cons.2 ⟨hsized, forall_mem_singleton.2 (.pick one ⟨"y"⟩ "text/plain")⟩
  obtain ⟨⟨result, hresult, -, hiff⟩, -⟩ :=
    unloaded_of_unitsFailed drives settings hreached (by decide) hreport rfl
  have hjobs : (jobs (loadStepsOn drives settings) batch.units disk).1 =
      [(Uuid.zero, .ok ⟨sized.targetIn ⟨"s"⟩, 2⟩), (one, .error (.disk .missing))] := by
    decide +kernel
  rw [hjobs] at hresult
  obtain ⟨hfirst, hsecond⟩ : result Uuid.zero = .ok ⟨sized.targetIn ⟨"s"⟩, 2⟩ ∧
      result one = .error (.disk .missing) := by
    simpa [batch, sized, OutgoingUnit.pick, eq_comm] using hresult
  refine ⟨hreport, hiff.2 (forall_mem_cons.2 ⟨fun copy hcopy => ?_, forall_mem_singleton.2 ?_⟩)⟩
  · cases hfirst.symm.trans hcopy
    rfl
  · intro copy hcopy
    cases hsecond.symm.trans hcopy

/-- Of two picked units the second has no source. The first one has a size afterwards. -/
theorem size_left_by_failed_load :
    let one : Uuid := ⟨Vector.replicate 32 1⟩
    let settings := { Settings.defaults with stagingFolder := ⟨"s"⟩ }
    let batch : OutgoingBatch := ⟨"b", none, "s", "r",
      [.pick Uuid.zero ⟨"a.txt"⟩ "text/plain", .pick one ⟨"missing.txt"⟩ "text/plain"], none⟩
    let ended := runLoad settings batch ⟨[(["a.txt"], .file [97, 98, 99])]⟩
    (batch.units.map Transferable.id).Nodup ∧ (∀ u ∈ batch.units, u.Reached ∧ u.state = .picked) ∧
      ended.1 = .ok ⟨.unitsFailed [one], []⟩ ∧
      batch.units.map (·.size) = [0, 0] ∧ batch.totalSize = 0 ∧
      ended.2.1.units.map (·.size) = [3, 0] ∧ ended.2.1.totalSize = 3 := by
  intro one settings batch ended
  refine ⟨by decide, ?_, by decide +kernel⟩
  exact forall_mem_cons.2 ⟨⟨.pick _ _ _, rfl⟩, forall_mem_singleton.2 ⟨.pick _ _ _, rfl⟩⟩

end Phase

end PeerTransfer
