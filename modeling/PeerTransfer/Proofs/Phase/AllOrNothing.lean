import PeerTransfer.Proofs.Phase.Reached
import PeerTransfer.Services.InMemory

/-!
# Phases are all or nothing

A phase is refused and changes nothing, or it reports. When it reports, either every unit has taken
the step or every unit is back where the phase started from (`AllOrNothing`), and the report says
which jobs are the reason. This holds of loading, staging and downloading alike, whatever becomes of
the jobs, as long as a semaphore has the permits for them (`phases_allOrNothing`). With more than
that a phase panics half-way, and leaves its units begun (`load_panics`).
-/

namespace PeerTransfer.Phase

open List

variable {U S α W : Type} [Transferable U S]

/-- What a phase comes to that takes units from one state to another: `results` are those of its
jobs, and `refusal` is why the registry refuses the batch, if it does. -/
structure AllOrNothing (required done : S) (batch : Batch U) (world : W)
    (results : List (Uuid × Except Failure α)) (refusal : Option Failure)
    (ended : Except Failure PhaseReport × Batch U × W) : Prop where
  refused_iff : (∃ failure, ended.1 = .error failure) ↔
    ∃ u ∈ batch.units, Transferable.state u ≠ required
  of_refused : ∀ failure, ended.1 = .error failure →
    failure.isStateConflict ∧ ended.2 = (batch, world)
  id_eq : ended.2.1.id = batch.id
  unit_ids_eq : ended.2.1.units.map Transferable.id = batch.units.map Transferable.id
  /-- There is one job for each unit. -/
  job_ids_eq : ∀ report, ended.1 = .ok report →
    results.map Prod.fst = batch.units.map Transferable.id
  advanced_iff : ∀ report, ended.1 = .ok report →
    (report.outcome = .advanced ↔ (∀ result ∈ results, ∃ a, result.2 = .ok a) ∧ refusal = none)
  of_advanced : ∀ report, ended.1 = .ok report → report.outcome = .advanced →
    ∀ u ∈ ended.2.1.units, Transferable.state u = done
  of_not_advanced : ∀ report, ended.1 = .ok report → report.outcome ≠ .advanced →
    ∀ u ∈ ended.2.1.units, Transferable.state u = required
  of_unitsFailed : ∀ report ids, ended.1 = .ok report → report.outcome = .unitsFailed ids →
    ids.Nodup ∧ ∀ id, id ∈ ids ↔ ∃ failure, (id, .error failure) ∈ results
  of_publishFailed : ∀ report cause, ended.1 = .ok report → report.outcome = .publishFailed cause →
    (∀ result ∈ results, ∃ a, result.2 = .ok a) ∧ refusal = some cause

/-! ## A phase that is refused, and one that reports -/

section Ends

variable {required done : S} {batch changed : Batch U} {world after : W}
  {results : List (Uuid × Except Failure α)} {refusal : Option Failure}

theorem allOrNothing_of_refused {failure : Failure}
    (hstate : ∃ u ∈ batch.units, Transferable.state u ≠ required)
    (hfailure : failure.isStateConflict) :
    AllOrNothing required done batch world results refusal (.error failure, batch, world) where
  refused_iff := ⟨fun _ => hstate, fun _ => ⟨failure, rfl⟩⟩
  of_refused := by
    rintro failure' ⟨⟩
    exact ⟨hfailure, rfl⟩
  id_eq := rfl
  unit_ids_eq := rfl
  job_ids_eq := by rintro report ⟨⟩
  advanced_iff := by rintro report ⟨⟩
  of_advanced := by rintro report ⟨⟩
  of_not_advanced := by rintro report ⟨⟩
  of_unitsFailed := by rintro report ids ⟨⟩
  of_publishFailed := by rintro report cause ⟨⟩

/-- The outcome that the jobs and the registry give reason for. -/
def outcomeFor (results : List (Uuid × Except Failure α)) (refusal : Option Failure) :
    PhaseOutcome :=
  if failedIn results = [] then refusal.elim .advanced .publishFailed
  else .unitsFailed (failedIn results)

theorem outcomeFor_eq_advanced_iff :
    outcomeFor results refusal = .advanced ↔
      (∀ result ∈ results, ∃ a, result.2 = .ok a) ∧ refusal = none := by
  rw [← failedIn_eq_nil_iff]
  unfold outcomeFor
  split_ifs with hfailed
  · cases refusal <;> simp [hfailed]
  · simp [hfailed]

theorem eq_failedIn_of_outcomeFor {ids : List Uuid}
    (h : outcomeFor results refusal = .unitsFailed ids) : ids = failedIn results := by
  unfold outcomeFor at h
  split_ifs at h
  · cases refusal <;> cases h
  · cases h
    rfl

theorem of_outcomeFor_eq_publishFailed {cause : Failure}
    (h : outcomeFor results refusal = .publishFailed cause) :
    (∀ result ∈ results, ∃ a, result.2 = .ok a) ∧ refusal = some cause := by
  unfold outcomeFor at h
  split_ifs at h with hfailed
  · refine ⟨failedIn_eq_nil_iff.1 hfailed, ?_⟩
    cases refusal with
    | none => cases h
    | some failure =>
      cases h
      rfl

theorem allOrNothing_of_reported {report : PhaseReport}
    (hstart : ∀ u ∈ batch.units, Transferable.state u = required)
    (hnodup : (batch.units.map Transferable.id).Nodup) (hid : changed.id = batch.id)
    (hids : changed.units.map Transferable.id = batch.units.map Transferable.id)
    (hjobs : results.map Prod.fst = batch.units.map Transferable.id)
    (houtcome : report.outcome = outcomeFor results refusal)
    (hstate : ∀ u ∈ changed.units,
      Transferable.state u = if report.outcome = .advanced then done else required) :
    AllOrNothing required done batch world results refusal (.ok report, changed, after) where
  refused_iff := by
    constructor
    · rintro ⟨failure, ⟨⟩⟩
    · rintro ⟨u, hu, hne⟩
      exact absurd (hstart u hu) hne
  of_refused := by rintro failure ⟨⟩
  id_eq := hid
  unit_ids_eq := hids
  job_ids_eq _ _ := hjobs
  advanced_iff := by
    rintro _ ⟨⟩
    rw [houtcome]
    exact outcomeFor_eq_advanced_iff
  of_advanced := by
    rintro _ ⟨⟩ hadvanced u hu
    rw [hstate u hu, if_pos hadvanced]
  of_not_advanced := by
    rintro _ ⟨⟩ hadvanced u hu
    rw [hstate u hu, if_neg hadvanced]
  of_unitsFailed := by
    rintro _ ids ⟨⟩ hfailed
    obtain rfl := eq_failedIn_of_outcomeFor (houtcome.symm.trans hfailed)
    exact ⟨nodup_failedIn (hjobs ▸ hnodup), fun id => mem_failedIn⟩
  of_publishFailed := by
    rintro _ cause ⟨⟩ hfailed
    exact of_outcomeFor_eq_publishFailed (houtcome.symm.trans hfailed)

/-- A phase that is all or nothing has ended, be it in a refusal. -/
theorem AllOrNothing.not_panicked {ended : Except Failure PhaseReport × Batch U × W}
    (h : AllOrNothing required done batch world results refusal ended) :
    ended.1 ≠ .error .panicked :=
  fun hpanic => absurd (h.of_refused .panicked hpanic).1 (by decide)

end Ends

/-! ## What taking a phase back leaves of a unit -/

theorem id_rollbackLoad (unit : OutgoingUnit) (disk : Disk) :
    (unit.rollbackLoad disk).1.id = unit.id := by
  unfold OutgoingUnit.rollbackLoad OutgoingUnit.discardLocal
  cases unit.localPath <;> rfl

theorem state_rollbackLoad (unit : OutgoingUnit) (disk : Disk) :
    (unit.rollbackLoad disk).1.state = .picked := rfl

theorem id_rollbackStage (unit : OutgoingUnit) : unit.rollbackStage.id = unit.id := by
  unfold OutgoingUnit.rollbackStage
  split <;> rfl

theorem state_rollbackStage {unit : OutgoingUnit}
    (h : unit.state = .loaded ∨ unit.state = .staged) : unit.rollbackStage.state = .loaded := by
  unfold OutgoingUnit.rollbackStage
  rcases h with h | h
  · simp only [h]
  · simp only [h]

/-- Of a unit that gives up its copy nothing else changes. -/
theorem releaseCopy_eq (unit : OutgoingUnit) (disk : Disk) :
    ∃ localPath, (releaseCopy unit disk).1 = { unit with localPath } := by
  unfold releaseCopy OutgoingUnit.releaseLocal
  split_ifs
  · split
    · exact ⟨_, rfl⟩
    · dsimp only
      split <;> exact ⟨_, rfl⟩
  · exact ⟨_, rfl⟩

theorem id_releaseCopy (unit : OutgoingUnit) (disk : Disk) :
    (releaseCopy unit disk).1.id = unit.id := by
  obtain ⟨localPath, h⟩ := releaseCopy_eq unit disk
  rw [h]

theorem state_releaseCopy (unit : OutgoingUnit) (disk : Disk) :
    (releaseCopy unit disk).1.state = unit.state := by
  obtain ⟨localPath, h⟩ := releaseCopy_eq unit disk
  rw [h]

theorem id_rollbackDownload (unit : IncomingUnit) (disk : Disk) :
    (unit.rollbackDownload disk).1.id = unit.id := by
  unfold IncomingUnit.rollbackDownload
  split <;> rfl

theorem state_rollbackDownload (unit : IncomingUnit) (disk : Disk) :
    (unit.rollbackDownload disk).1.state = .received := by
  unfold IncomingUnit.rollbackDownload
  split <;> rfl

section Settled

variable {ρ : Type} {steps : PhaseSteps U ρ α W} {Ready : U → Prop} (law : steps.Law Ready)
  (result : Uuid → Except Failure α) (units : List U)

theorem map_id_settled :
    (units.map fun u => law.settled u (result (Transferable.id u))).map Transferable.id =
      units.map Transferable.id := by
  rw [map_map]
  exact map_congr_left fun u _ => law.id_settled u _

theorem map_fst_results :
    (units.map fun u => (Transferable.id u, result (Transferable.id u))).map Prod.fst =
      units.map Transferable.id := by
  rw [map_map]
  rfl

/-- Where no job has failed, every unit has completed its step. -/
theorem exists_settled_eq_completed {units : List U}
    (h : failedIn (units.map fun u => (Transferable.id u, result (Transferable.id u))) = []) :
    ∀ u ∈ units, ∃ a, law.settled u (result (Transferable.id u)) = law.completed u a := by
  intro u hu
  obtain ⟨a, ha⟩ := failedIn_eq_nil_iff.1 h _ (mem_map_of_mem hu)
  exact ⟨a, by rw [show result (Transferable.id u) = .ok a from ha]; rfl⟩

end Settled

/-! ## The three phases -/

theorem of_not_panicked_runLoad {settings : Settings} {batch : OutgoingBatch} {disk : Disk}
    (h : (runLoad settings batch disk).1 ≠ .error .panicked) :
    settings.maxConcurrentUnits.toNat ≤ maxPermits ∨ ∃ u ∈ batch.units, u.state ≠ .picked := by
  by_contra hnot
  push Not at hnot
  exact h (congrArg Prod.fst (runLoad_of_lt_of_picked hnot.1 disk hnot.2))

theorem allOrNothing_runLoad {settings : Settings} {batch : OutgoingBatch} (disk : Disk)
    (hnodup : (batch.units.map Transferable.id).Nodup)
    (h : settings.maxConcurrentUnits.toNat ≤ maxPermits ∨ ∃ u ∈ batch.units, u.state ≠ .picked) :
    AllOrNothing .picked .loaded batch disk (jobs (loadSteps settings) batch.units disk).1 none
      (runLoad settings batch disk) := by
  by_cases hstate : ∀ u ∈ batch.units, u.state = .picked
  · have hlimit := h.resolve_right (by simpa using hstate)
    obtain ⟨result, hresult, hrun⟩ := runLoad_of_picked hlimit disk hstate hnodup
    have hids := map_id_settled (loadLaw settings) result batch.units
    have hjobs := hresult ▸ map_fst_results result batch.units
    rw [hrun]
    split_ifs with hfailed
    · refine allOrNothing_of_reported hstate hnodup rfl hids hjobs ?_ ?_
      · rw [outcomeFor, if_pos hfailed]
        rfl
      · intro v hv
        obtain ⟨u, hu, rfl⟩ := mem_map.1 hv
        obtain ⟨copy, hcopy⟩ :=
          exists_settled_eq_completed (loadLaw settings) result (hresult ▸ hfailed) u hu
        exact congrArg OutgoingUnit.state hcopy
    · refine allOrNothing_of_reported hstate hnodup rfl ?_ hjobs ?_ ?_
      · exact (map_forAll (fun u disk => id_rollbackLoad u disk) _ _).trans hids
      · rw [outcomeFor, if_neg hfailed]
      · exact forall_mem_forAll (P := fun _ => True)
          (Q := fun u : OutgoingUnit => u.state = .picked)
          (fun u disk _ => state_rollbackLoad u disk) (fun _ _ => trivial) _
  · push Not at hstate
    obtain ⟨u, -, hrun⟩ := runLoad_of_exists settings disk hstate
    rw [hrun]
    exact allOrNothing_of_refused hstate rfl

theorem of_not_panicked_runDownload {σ : Type} [Services σ] {settings : Settings}
    {batch : IncomingBatch} {world : World σ}
    (h : (runDownload settings batch world).1 ≠ .error .panicked) :
    settings.maxConcurrentUnits.toNat ≤ maxPermits ∨ ∃ u ∈ batch.units, u.state ≠ .received := by
  by_contra hnot
  push Not at hnot
  exact h (congrArg Prod.fst (runDownload_of_lt_of_received hnot.1 world hnot.2))

theorem allOrNothing_runDownload {σ : Type} [Services σ] {settings : Settings}
    {batch : IncomingBatch} (world : World σ) (hnodup : (batch.units.map Transferable.id).Nodup)
    (h : settings.maxConcurrentUnits.toNat ≤ maxPermits ∨
      ∃ u ∈ batch.units, u.state ≠ .received) :
    AllOrNothing .received .downloaded batch world
      (jobs (downloadSteps settings) batch.units world).1 none
      (runDownload settings batch world) := by
  by_cases hstate : ∀ u ∈ batch.units, u.state = .received
  · have hlimit := h.resolve_right (by simpa using hstate)
    obtain ⟨result, hresult, hrun⟩ := runDownload_of_received hlimit world hstate hnodup
    have hids := map_id_settled (downloadLaw (σ := σ) settings) result batch.units
    have hjobs := hresult ▸ map_fst_results result batch.units
    rw [hrun]
    split_ifs with hfailed
    · refine allOrNothing_of_reported hstate hnodup rfl hids hjobs ?_ ?_
      · rw [outcomeFor, if_pos hfailed]
        rfl
      · intro v hv
        obtain ⟨u, hu, rfl⟩ := mem_map.1 hv
        obtain ⟨delivery, hdelivery⟩ :=
          exists_settled_eq_completed (downloadLaw (σ := σ) settings) result (hresult ▸ hfailed) u
            hu
        exact congrArg IncomingUnit.state hdelivery
    · refine allOrNothing_of_reported hstate hnodup rfl ?_ hjobs ?_ ?_
      · exact (map_forAll (fun u disk => id_rollbackDownload u disk) _ _).trans hids
      · rw [outcomeFor, if_neg hfailed]
      · exact forall_mem_forAll (P := fun _ => True)
          (Q := fun u : IncomingUnit => u.state = .received)
          (fun u disk _ => state_rollbackDownload u disk) (fun _ _ => trivial) _
  · push Not at hstate
    obtain ⟨u, hu, hrequire⟩ := requireAll_of_exists .download hstate
    unfold runDownload
    rw [hrequire]
    exact allOrNothing_of_refused hstate rfl

section Stage

variable {σ : Type} [Services σ]

/-- A batch is described the same, whether its units are staged or not. -/
theorem describe_map_settled (batch : OutgoingBatch) (result : Uuid → Except Failure UInt64) :
    Batch.describe { batch with
      units := batch.units.map fun u => (stageLaw (σ := σ)).settled u (result u.id) } =
        batch.describe := by
  have hunits : (batch.units.map fun u => (stageLaw (σ := σ)).settled u (result u.id)).mapM
      OutgoingUnit.describe = batch.units.mapM OutgoingUnit.describe := by
    rw [mapM_map]
    congr 1
    funext u
    exact describe_settled u _
  unfold Batch.describe
  rw [hunits]

theorem refusal_settled (batch : OutgoingBatch) (result : Uuid → Except Failure UInt64)
    (world : World σ) :
    refusal { batch with
      units := batch.units.map fun u => (stageLaw (σ := σ)).settled u (result u.id) } world =
        refusal batch world := by
  unfold refusal
  rw [describe_map_settled]

theorem state_settled_staging (unit : OutgoingUnit) (result : Except Failure UInt64) :
    ((stageLaw (σ := σ)).settled unit result).state = .loaded ∨
      ((stageLaw (σ := σ)).settled unit result).state = .staged := by
  cases result with
  | ok size => exact .inr rfl
  | error failure => exact .inl rfl

theorem remotePath_settled_isSome {batch : OutgoingBatch} {unit : OutgoingUnit}
    (hunit : unit ∈ (withRemotePaths batch).units) (result : Except Failure UInt64) :
    ((stageLaw (σ := σ)).settled unit result).remotePath.isSome := by
  obtain ⟨v, -, rfl⟩ := mem_map.1 hunit
  rw [ensureRemotePath_eq]
  cases result <;> rfl

theorem map_id_rollbackStaging (batch : OutgoingBatch) :
    (rollbackStaging batch).units.map Transferable.id = batch.units.map Transferable.id := by
  rw [rollbackStaging, map_map]
  exact map_congr_left fun u _ => id_rollbackStage u

theorem state_rollbackStaging {batch : OutgoingBatch}
    (h : ∀ u ∈ batch.units, u.state = .loaded ∨ u.state = .staged) :
    ∀ u ∈ (rollbackStaging batch).units, u.state = .loaded := by
  intro v hv
  obtain ⟨u, hu, rfl⟩ := mem_map.1 hv
  exact state_rollbackStage (h u hu)

theorem of_not_panicked_runStage {settings : Settings} {batch : OutgoingBatch} {world : World σ}
    (hcoherent : ∀ u ∈ batch.units, u.Coherent)
    (h : (runStage settings batch world).1 ≠ .error .panicked) :
    settings.maxConcurrentUnits.toNat ≤ maxPermits ∨ ∃ u ∈ batch.units, u.state ≠ .loaded := by
  by_contra hnot
  push Not at hnot
  have hlocal : ∀ u ∈ batch.units, u.localPath.isSome := fun u hu =>
    (hcoherent u hu).localPath_isSome (.inl (hnot.2 u hu))
  exact h (congrArg Prod.fst (runStage_of_lt_of_loaded hnot.1 world hnot.2 hlocal))

theorem allOrNothing_runStage {settings : Settings} {batch : OutgoingBatch} (world : World σ)
    (hnodup : (batch.units.map Transferable.id).Nodup) (hcoherent : ∀ u ∈ batch.units, u.Coherent)
    (h : settings.maxConcurrentUnits.toNat ≤ maxPermits ∨ ∃ u ∈ batch.units, u.state ≠ .loaded) :
    AllOrNothing .loaded .staged batch world
      (jobs stageSteps (withRemotePaths batch).units world).1
      (refusal (withRemotePaths batch) (jobs stageSteps (withRemotePaths batch).units world).2)
      (runStage settings batch world) := by
  by_cases hstate : ∀ u ∈ batch.units, u.state = .loaded
  · have hlocal : ∀ u ∈ batch.units, u.localPath.isSome := fun u hu =>
      (hcoherent u hu).localPath_isSome (.inl (hstate u hu))
    have hlimit := h.resolve_right (by simpa using hstate)
    obtain ⟨result, hresult, hrun⟩ := runStage_of_loaded hlimit world hstate hlocal hnodup
    set start := withRemotePaths batch
    set ran := jobs stageSteps start.units world
    set staged : OutgoingBatch := { start with
      units := start.units.map fun u => (stageLaw (σ := σ)).settled u (result u.id) }
    have hids : staged.units.map Transferable.id = batch.units.map Transferable.id :=
      (map_id_settled stageLaw result start.units).trans (id_withRemotePaths batch)
    have hjobs : ran.1.map Prod.fst = batch.units.map Transferable.id := by
      rw [hresult]
      exact (map_fst_results result start.units).trans (id_withRemotePaths batch)
    -- However a batch is refused, its units are loaded once more.
    have hids' := (map_id_rollbackStaging staged).trans hids
    have hback : ∀ u ∈ (rollbackStaging staged).units, u.state = .loaded :=
      state_rollbackStaging (forall_mem_map.2 fun u _ => state_settled_staging u _)
    rw [hrun]
    split_ifs with hfailed
    · cases hrefusal : refusal start ran.2 with
      | some cause =>
        have hpaths : ∀ u ∈ staged.units, u.remotePath.isSome := by
          intro v hv
          obtain ⟨u, hu, rfl⟩ := mem_map.1 hv
          exact remotePath_settled_isSome hu _
        obtain ⟨services, hpublish⟩ := publish_of_refusal settings _ hpaths
          ((refusal_settled start result ran.2).trans hrefusal)
        rw [hpublish]
        refine allOrNothing_of_reported hstate hnodup rfl hids' hjobs ?_ hback
        rw [outcomeFor, if_pos hfailed]
        rfl
      | none =>
        obtain ⟨reference, services, hpublish⟩ := publish_of_no_refusal settings _
          ((refusal_settled start result ran.2).trans hrefusal)
        have hdone : ∀ u ∈ staged.units, u.state = .staged := by
          intro v hv
          obtain ⟨u, hu, rfl⟩ := mem_map.1 hv
          obtain ⟨size, hsize⟩ := exists_settled_eq_completed (stageLaw (σ := σ)) result
            (hresult ▸ hfailed) u hu
          exact congrArg OutgoingUnit.state hsize
        rw [hpublish]
        refine allOrNothing_of_reported hstate hnodup rfl ?_ hjobs ?_ ?_
        · cases settings.releaseAfterStage with
          | true => exact (map_forAll (fun u disk => id_releaseCopy u disk) _ _).trans hids
          | false => exact hids
        · rw [outcomeFor, if_pos hfailed]
          rfl
        · cases settings.releaseAfterStage with
          | true =>
            exact forall_mem_forAll (Q := fun u : OutgoingUnit => u.state = .staged)
              (fun u disk hu => (state_releaseCopy u disk).trans hu) hdone _
          | false => exact hdone
    · refine allOrNothing_of_reported hstate hnodup rfl hids' hjobs ?_ hback
      rw [outcomeFor, if_neg hfailed]
  · push Not at hstate
    obtain ⟨u, -, hrun⟩ := runStage_of_exists settings world hstate
    rw [hrun]
    exact allOrNothing_of_refused hstate rfl

end Stage

/-- Every phase is all or nothing, but for one that panics, which is one of a batch that is ready
for it with more jobs at a time than a semaphore has permits. Ids must tell the units of a batch
apart, and staging may count on the copies that units have come by. -/
theorem phases_allOrNothing {σ : Type} [Services σ] (settings : Settings) :
    (∀ (batch : OutgoingBatch) (disk : Disk), (batch.units.map Transferable.id).Nodup →
      (AllOrNothing .picked .loaded batch disk (jobs (loadSteps settings) batch.units disk).1 none
          (runLoad settings batch disk) ↔
        settings.maxConcurrentUnits.toNat ≤ maxPermits ∨
          ∃ u ∈ batch.units, u.state ≠ .picked)) ∧
    (∀ (batch : OutgoingBatch) (world : World σ), (batch.units.map Transferable.id).Nodup →
      (∀ u ∈ batch.units, u.Reached) →
      (AllOrNothing .loaded .staged batch world
          (jobs stageSteps (withRemotePaths batch).units world).1
          (refusal (withRemotePaths batch) (jobs stageSteps (withRemotePaths batch).units world).2)
          (runStage settings batch world) ↔
        settings.maxConcurrentUnits.toNat ≤ maxPermits ∨
          ∃ u ∈ batch.units, u.state ≠ .loaded)) ∧
    ∀ (batch : IncomingBatch) (world : World σ), (batch.units.map Transferable.id).Nodup →
      (AllOrNothing .received .downloaded batch world
          (jobs (downloadSteps settings) batch.units world).1 none
          (runDownload settings batch world) ↔
        settings.maxConcurrentUnits.toNat ≤ maxPermits ∨
          ∃ u ∈ batch.units, u.state ≠ .received) := by
  refine ⟨fun batch disk hnodup => ⟨fun h => of_not_panicked_runLoad h.not_panicked,
    allOrNothing_runLoad disk hnodup⟩, fun batch world hnodup hreached => ?_,
    fun batch world hnodup => ⟨fun h => of_not_panicked_runDownload h.not_panicked,
      allOrNothing_runDownload world hnodup⟩⟩
  have hcoherent : ∀ u ∈ batch.units, u.Coherent := fun u hu => (hreached u hu).coherent
  exact ⟨fun h => of_not_panicked_runStage hcoherent h.not_panicked,
    allOrNothing_runStage world hnodup hcoherent⟩

theorem phases_allOrNothing_two_loaded :
    let unit (id : Uuid) : OutgoingUnit :=
      ⟨id, ⟨"a"⟩, some ⟨"copy"⟩, none, "text/plain", 3, .loaded⟩
    let batch : OutgoingBatch :=
      ⟨"b", none, "s", "r", [unit Uuid.zero, unit ⟨Vector.replicate 32 1⟩], none⟩
    let world : World InMemory := ⟨Disk.empty, InMemory.empty⟩
    (batch.units.map Transferable.id).Nodup ∧ (∀ u ∈ batch.units, u.Reached) ∧
      Settings.defaults.maxConcurrentUnits.toNat ≤ maxPermits ∧
      AllOrNothing .loaded .staged batch world
        (jobs stageSteps (withRemotePaths batch).units world).1
        (refusal (withRemotePaths batch) (jobs stageSteps (withRemotePaths batch).units world).2)
        (runStage Settings.defaults batch world) := by
  intro unit batch world
  have hunit (id : Uuid) : (unit id).Reached :=
    .completeLoad ⟨⟨"copy"⟩, 3⟩ (.beginLoad _ (.pick id ⟨"a"⟩ "text/plain") rfl) rfl
  have hreached : ∀ u ∈ batch.units, u.Reached := by
    rintro u (_ | ⟨_, _ | ⟨_, ⟨⟩⟩⟩)
    · exact hunit _
    · exact hunit _
  have hnodup : (batch.units.map Transferable.id).Nodup := by decide
  have hlimit : Settings.defaults.maxConcurrentUnits.toNat ≤ maxPermits := by decide
  exact ⟨hnodup, hreached, hlimit,
    ((phases_allOrNothing Settings.defaults).2.1 batch world hnodup hreached).2 (.inl hlimit)⟩

/-- One permit more than a semaphore can have, which no settings are refused for, and loading ends
in a panic with every unit begun. -/
theorem load_panics :
    let settings := { Settings.defaults with maxConcurrentUnits := 2305843009213693952 }
    let batch : OutgoingBatch := ⟨"b", none, "s", "r",
      [.pick Uuid.zero ⟨"a.txt"⟩ "text/plain"], none⟩
    let disk : Disk := ⟨[(["a.txt"], .file [97, 98, 99])]⟩
    let ended := runLoad settings batch disk
    settings.validate = .ok () ∧ (batch.units.map Transferable.id).Nodup ∧
      ended.1 = .error .panicked ∧ ended.2.1.units.map (·.state) = [.loading] ∧
      ¬AllOrNothing .picked .loaded batch disk (jobs (loadSteps settings) batch.units disk).1 none
        ended := by
  intro settings batch disk ended
  have hended : ended.1 = .error .panicked := by decide +kernel
  exact ⟨by decide +kernel, by decide, hended, by decide +kernel,
    fun h => h.not_panicked hended⟩

end PeerTransfer.Phase
