import PeerTransfer.Proofs.Phase.Drives

/-!
# The order in which jobs end

A phase applies the results of its jobs in the order in which the jobs end, and tells them in this
order. `Plan.runEnding` is a phase whose jobs end with given results in a given order. Where the ids
of a batch are distinct, any two orders end in the same units and the same world, and what is
reported differs in its order alone (`phases_orderFree`). The phases as they run are one such order.
-/

namespace PeerTransfer

open List

/-- The same outcome, but for the order in which units are named. -/
inductive PhaseOutcome.Matches : PhaseOutcome → PhaseOutcome → Prop
  | advanced : Matches .advanced .advanced
  | unitsFailed {failed failed' : List Uuid} : failed ~ failed' →
      Matches (.unitsFailed failed) (.unitsFailed failed')
  | publishFailed (cause : Failure) : Matches (.publishFailed cause) (.publishFailed cause)

theorem PhaseOutcome.Matches.refl (outcome : PhaseOutcome) : outcome.Matches outcome := by
  cases outcome with
  | advanced => exact .advanced
  | unitsFailed units => exact .unitsFailed (.refl units)
  | publishFailed cause => exact .publishFailed cause

/-- The same report, but for the order in which units and transfers are told. -/
structure PhaseReport.Matches (report report' : PhaseReport) : Prop where
  outcome : report.outcome.Matches report'.outcome
  entries : report.entries ~ report'.entries

theorem PhaseReport.Matches.refl (report : PhaseReport) : report.Matches report :=
  ⟨.refl report.outcome, .refl report.entries⟩

namespace Phase

/-- Two ends of a phase with the same batch and the same world, and with the same refusal or with
reports that match. -/
inductive EndsMatch {B W : Type} : Except Failure PhaseReport × B × W →
    Except Failure PhaseReport × B × W → Prop
  | refused (failure : Failure) (batch : B) (world : W) :
      EndsMatch (.error failure, batch, world) (.error failure, batch, world)
  | reported {report report' : PhaseReport} (batch : B) (world : W) : report.Matches report' →
      EndsMatch (.ok report, batch, world) (.ok report', batch, world)

theorem EndsMatch.refl {B W : Type} (ended : Except Failure PhaseReport × B × W) :
    EndsMatch ended ended := by
  obtain ⟨failure | report, batch, world⟩ := ended
  · exact .refused failure batch world
  · exact .reported batch world (.refl report)

theorem perm_failed {α : Type} {verdicts verdicts' : List (Verdict α)} (h : verdicts ~ verdicts') :
    Verdict.failed verdicts ~ Verdict.failed verdicts' :=
  (h.filter _).map _

theorem exists_begun_of_startAll {U ρ : Type} {start : U → Except Failure (ρ × U)}
    {units : List U} {requests : List ρ} (h : (startAll start units).1 = .ok requests) :
    ∀ u ∈ units, ∃ begun, start u = .ok begun := by
  induction units generalizing requests with
  | nil => exact fun u hu => absurd hu not_mem_nil
  | cons u units ih =>
    rw [startAll] at h
    cases hbegun : start u with
    | error failure =>
      rw [hbegun] at h
      cases h
    | ok begun =>
      rw [hbegun] at h
      cases hrest : (startAll start units).1 with
      | error failure =>
        simp only [hrest] at h
        cases h
      | ok rest => exact forall_mem_cons.2 ⟨⟨begun, hbegun⟩, ih hrest⟩

namespace Plan

variable {U S ρ α W : Type} [Transferable U S] [Progress S] [DecidableEq S]
  (plan : Plan U S ρ α W)

/-- What is left to do once every result is applied. -/
def close (verdicts : List (Verdict α)) (batch : Batch U) (world : W) :
    Except Failure PhaseReport × Batch U × W :=
  match Verdict.failed verdicts with
  | [] => plan.finish (plan.entries verdicts) batch world
  | failed =>
    let (units, world) := plan.rollback batch.units world
    (.ok ⟨.unitsFailed failed, plan.entries verdicts⟩, { batch with units }, world)

/-- Carries out a phase whose jobs end with these results, in this order, and leave this world. -/
def runEnding (results : List (Uuid × Except Failure α)) (batch : Batch U) (world : W) :
    Except Failure PhaseReport × Batch U × W :=
  match requireAll plan.phase plan.required batch with
  | .error failure => (.error failure, batch, world)
  | .ok () =>
    let batch := plan.prepare batch
    match startAll plan.steps.start batch.units with
    | (.error failure, units) => (.error failure, { batch with units }, world)
    | (.ok _, units) =>
      match settleTelling plan.steps results units with
      | (.error failure, units) => (.error failure, { batch with units }, world)
      | (.ok verdicts, units) => plan.close verdicts { batch with units } world

/-- Whatever the jobs of a phase come to, the order in which they end makes a difference to the
order of its report and to nothing else. So a run of the phase that does not panic does what becomes
of the results of its own jobs in any order. -/
structure OrderFree (run : Batch U → W → Except Failure PhaseReport × Batch U × W)
    (batch : Batch U) : Prop where
  any_results {results results' : List (Uuid × Except Failure α)} (world : W) :
    results.map Prod.fst ~ batch.units.map Transferable.id → results ~ results' →
    EndsMatch (plan.runEnding results batch world) (plan.runEnding results' batch world)
  run_jobs {results : List (Uuid × Except Failure α)} (world : W) :
    let ran := jobs plan.steps (plan.prepare batch).units world
    (run batch world).1 ≠ .error .panicked → results ~ ran.1 →
    EndsMatch (run batch world) (plan.runEnding results batch ran.2)

/-- What makes a phase indifferent to the order in which its jobs end. -/
structure Indifferent (Ready : U → Prop) where
  law : plan.steps.Law Ready
  ready_of_start (u : U) (begun : ρ × U) : plan.steps.start u = .ok begun → Ready u
  state_of_ready {u : U} : Ready u → Transferable.state u = plan.required
  id_prepare (batch : Batch U) :
    (plan.prepare batch).units.map Transferable.id = batch.units.map Transferable.id
  state_prepare (batch : Batch U) :
    (plan.prepare batch).units.map Transferable.state = batch.units.map Transferable.state
  perm_entries {verdicts verdicts' : List (Verdict α)} : verdicts ~ verdicts' →
    plan.entries verdicts ~ plan.entries verdicts'
  finish_matches {entries entries' : List JournalEntry} (batch : Batch U) (world : W) :
    entries ~ entries' → EndsMatch (plan.finish entries batch world)
      (plan.finish entries' batch world)

namespace Indifferent

variable {plan} {Ready : U → Prop} (h : plan.Indifferent Ready) {batch : Batch U}

include h

omit [Progress S] [DecidableEq S] in
theorem close_matches {verdicts verdicts' : List (Verdict α)} (hperm : verdicts ~ verdicts')
    (batch : Batch U) (world : W) :
    EndsMatch (plan.close verdicts batch world) (plan.close verdicts' batch world) := by
  have hfailed := perm_failed hperm
  have hentries := h.perm_entries hperm
  unfold close
  cases hone : Verdict.failed verdicts with
  | nil =>
    rw [hone, nil_perm] at hfailed
    rw [hfailed]
    exact h.finish_matches batch world hentries
  | cons unit units =>
    cases hother : Verdict.failed verdicts' with
    | nil =>
      rw [hone, hother, perm_nil] at hfailed
      cases hfailed
    | cons unit' units' =>
      rw [hone, hother] at hfailed
      exact .reported _ _ ⟨.unitsFailed hfailed, hentries⟩

/-- Each result goes to the unit it belongs to, and the results are told in the order in which they
come. -/
theorem exists_runEnding_eq (hstate : requireAll plan.phase plan.required batch = .ok ())
    (hready : ∀ u ∈ (plan.prepare batch).units, Ready u)
    (hnodup : ((plan.prepare batch).units.map Transferable.id).Nodup)
    {result : Uuid → Except Failure α} {results : List (Uuid × Except Failure α)}
    (hresults : results ~ (plan.prepare batch).units.map fun u =>
      (Transferable.id u, result (Transferable.id u))) (world : W) :
    ∃ verdicts, verdicts ~ told (plan.prepare batch).units result ∧
      plan.runEnding results batch world = plan.close verdicts
        { plan.prepare batch with
          units := (plan.prepare batch).units.map fun u =>
            h.law.settled u (result (Transferable.id u)) } world := by
  obtain ⟨pending, hpending, hsettle⟩ :=
    settleTelling_of_perm h.law result hready hnodup hresults
  refine ⟨told pending result, hpending.map _, ?_⟩
  unfold runEnding
  rw [hstate]
  dsimp only
  rw [startAll_of_ready h.law hready]
  dsimp only
  rw [hsettle]

omit [Progress S] [DecidableEq S] in
theorem ready_of_startAll {requests : List ρ}
    (hstart : (startAll plan.steps.start (plan.prepare batch).units).1 = .ok requests) :
    ∀ u ∈ (plan.prepare batch).units, Ready u := by
  intro u hu
  obtain ⟨begun, hbegun⟩ := exists_begun_of_startAll hstart u hu
  exact h.ready_of_start u begun hbegun

omit [Progress S] [DecidableEq S] in
theorem nodup_prepare (hnodup : (batch.units.map Transferable.id).Nodup) :
    ((plan.prepare batch).units.map Transferable.id).Nodup := by
  rwa [h.id_prepare]

theorem runEnding_matches (hnodup : (batch.units.map Transferable.id).Nodup)
    {results results' : List (Uuid × Except Failure α)}
    (hids : results.map Prod.fst ~ batch.units.map Transferable.id) (hperm : results ~ results')
    (world : W) :
    EndsMatch (plan.runEnding results batch world) (plan.runEnding results' batch world) := by
  cases hstate : requireAll plan.phase plan.required batch with
  | error failure =>
    unfold runEnding
    rw [hstate]
    exact .refused failure batch world
  | ok =>
    rcases hstart : startAll plan.steps.start (plan.prepare batch).units with
      ⟨failure | requests, units⟩
    · unfold runEnding
      rw [hstate]
      dsimp only
      rw [hstart]
      exact .refused failure _ world
    · have hready := h.ready_of_startAll (congrArg Prod.fst hstart)
      have hdistinct := h.nodup_prepare hnodup
      -- Results under distinct ids are those of a function of the id.
      have : Inhabited (Except Failure α) := ⟨.error .unitsMissing⟩
      obtain ⟨result, hresult⟩ := exists_eq_map_of_nodup (hids.nodup_iff.2 hnodup)
      have hgraph : results ~ (plan.prepare batch).units.map fun u =>
          (Transferable.id u, result (Transferable.id u)) := by
        rw [← h.id_prepare] at hids
        rw [hresult]
        exact (hids.map _).trans (.of_eq (map_map ..))
      obtain ⟨verdicts, hverdicts, hrun⟩ :=
        h.exists_runEnding_eq hstate hready hdistinct hgraph world
      obtain ⟨verdicts', hverdicts', hrun'⟩ :=
        h.exists_runEnding_eq hstate hready hdistinct (hperm.symm.trans hgraph) world
      rw [hrun, hrun']
      exact h.close_matches (hverdicts.trans hverdicts'.symm) _ world

/-- A phase that does not begin runs no job. -/
theorem jobs_of_requireAll {failure : Failure}
    (hrequire : requireAll plan.phase plan.required batch = .error failure) (world : W) :
    jobs plan.steps (plan.prepare batch).units world = ([], world) := by
  unfold jobs
  cases hstart : (startAll plan.steps.start (plan.prepare batch).units).1 with
  | error failure => rfl
  | ok requests =>
    have hprepared : ∀ s ∈ (plan.prepare batch).units.map Transferable.state, s = plan.required :=
      forall_mem_map.2 fun u hu => h.state_of_ready (h.ready_of_startAll hstart u hu)
    rw [h.state_prepare, forall_mem_map] at hprepared
    cases hrequire.symm.trans (requireAll_of_forall hprepared)

theorem run_matches (hnodup : (batch.units.map Transferable.id).Nodup) (world : W)
    {results : List (Uuid × Except Failure α)}
    (hended : (plan.run batch world).1 ≠ .error .panicked)
    (hresults : results ~ (jobs plan.steps (plan.prepare batch).units world).1) :
    EndsMatch (plan.run batch world)
      (plan.runEnding results batch (jobs plan.steps (plan.prepare batch).units world).2) := by
  cases hstate : requireAll plan.phase plan.required batch with
  | error failure =>
    rw [h.jobs_of_requireAll hstate]
    unfold run runEnding
    rw [hstate]
    exact .refused failure batch world
  | ok =>
    rcases hstart : startAll plan.steps.start (plan.prepare batch).units with
      ⟨failure | requests, units⟩
    · have hjobs : jobs plan.steps (plan.prepare batch).units world = ([], world) := by
        unfold jobs
        rw [hstart]
      rw [hjobs]
      unfold run runEnding attempt
      rw [hstate]
      dsimp only
      rw [hstart]
      exact .refused failure _ world
    · have hready := h.ready_of_startAll (congrArg Prod.fst hstart)
      have hdistinct := h.nodup_prepare hnodup
      have hlimit : plan.limit ≤ maxPermits := by
        by_contra hlimit
        exact hended (congrArg Prod.fst (plan.run_of_lt world h.law (not_le.1 hlimit)
          (forall_of_requireAll hstate) hready))
      obtain ⟨result, hresult, hattempt⟩ :=
        attempt_of_ready h.law hlimit world hready hdistinct
      obtain ⟨verdicts, hverdicts, hrun⟩ := h.exists_runEnding_eq hstate hready hdistinct
        (hresults.trans (.of_eq hresult)) (jobs plan.steps (plan.prepare batch).units world).2
      rw [hrun, run, hstate]
      dsimp only
      rw [hattempt]
      exact h.close_matches hverdicts.symm _ _

theorem orderFree (hnodup : (batch.units.map Transferable.id).Nodup) :
    plan.OrderFree plan.run batch where
  any_results world hids hperm := h.runEnding_matches hnodup hids hperm world
  run_jobs world hended hresults := h.run_matches hnodup world hended hresults

end Indifferent

end Plan

/-! ## The three phases -/

/-- Loading tells nothing but the units that failed. -/
def loadPlanIndifferent (drives : Uuid → Disk.Drive) (settings : Settings) :
    (loadPlan drives settings).Indifferent (·.state = .picked) where
  law := loadLawOn drives settings
  ready_of_start u begun h := by
    by_contra hstate
    have hrefused : u.beginLoad = u.conflict .load := if_neg hstate
    cases hrefused.symm.trans h
  state_of_ready h := h
  id_prepare _ := rfl
  state_prepare _ := rfl
  perm_entries _ := .refl []
  finish_matches batch disk h := .reported batch disk ⟨.advanced, h⟩

section Stage

variable {σ : Type} [Services σ]

theorem publish_matches (settings : Settings) {entries entries' : List JournalEntry}
    (h : entries ~ entries') (batch : OutgoingBatch) (world : World σ) :
    EndsMatch (publish settings entries batch world) (publish settings entries' batch world) := by
  unfold publish
  cases batch.describe with
  | error failure => exact .refused failure batch world
  | ok descriptor =>
    dsimp only
    rcases Services.publish descriptor world.services with ⟨cause | reference, services⟩
    · exact .reported _ _ ⟨.publishFailed cause, h⟩
    · dsimp only
      split_ifs
      · exact .reported _ _ ⟨.advanced, h⟩
      · exact .reported _ _ ⟨.advanced, h⟩

/-- Staging publishes a batch that tells nothing of the order in which uploads ended. -/
def stagePlanIndifferent (drives : Uuid → Disk.Drive) (settings : Settings) :
    (stagePlan (σ := σ) drives settings).Indifferent IsStageable where
  law := stageLawOn drives
  ready_of_start u begun h := by
    have hbegun : u.beginStage = .ok begun := h
    unfold OutgoingUnit.beginStage at hbegun
    split_ifs at hbegun with hstate
    · split at hbegun
      · next hlocal hremote =>
        exact ⟨hstate, Option.isSome_of_eq_some hlocal, Option.isSome_of_eq_some hremote⟩
      · cases hbegun
    · cases hbegun
  state_of_ready h := h.1
  id_prepare := id_withRemotePaths
  state_prepare batch := by
    refine (map_map ..).trans (map_congr_left fun u _ => ?_)
    rw [Function.comp_apply, ensureRemotePath_eq]
    rfl
  perm_entries h := h.map _
  finish_matches batch world h := publish_matches settings h batch world

/-- Downloading has nothing to do after the last result but to take back what it must. -/
def downloadPlanIndifferent (drives : Uuid → Disk.Drive) (settings : Settings) :
    (downloadPlan (σ := σ) drives settings).Indifferent (·.state = .received) where
  law := downloadLawOn drives settings
  ready_of_start u begun h := by
    by_contra hstate
    have hrefused : u.beginDownload = u.conflict .download := if_neg hstate
    cases hrefused.symm.trans h
  state_of_ready h := h
  id_prepare _ := rfl
  state_prepare _ := rfl
  perm_entries h := h.map _
  finish_matches batch world h := .reported batch world ⟨.advanced, h⟩

end Stage

/-- What comes of a batch does not depend on the order in which its jobs end. Ids must tell its
units apart. -/
theorem phases_orderFree {σ : Type} [Services σ] (settings : Settings) :
    (∀ batch : OutgoingBatch, (batch.units.map Transferable.id).Nodup →
      (loadPlan (fun _ => .sound) settings).OrderFree (runLoad settings) batch) ∧
    (∀ batch : OutgoingBatch, (batch.units.map Transferable.id).Nodup →
      (stagePlan (fun _ => .sound) settings).OrderFree (runStage (σ := σ) settings) batch) ∧
    ∀ batch : IncomingBatch, (batch.units.map Transferable.id).Nodup →
      (downloadPlan (fun _ => .sound) settings).OrderFree (runDownload (σ := σ) settings)
        batch := by
  refine ⟨fun batch hnodup => ?_, fun batch hnodup => ?_, fun batch hnodup => ?_⟩
  · rw [← runLoadOn_sound]
    exact (loadPlanIndifferent _ settings).orderFree hnodup
  · rw [← runStageOn_sound]
    exact (stagePlanIndifferent _ settings).orderFree hnodup
  · rw [← runDownloadOn_sound]
    exact (downloadPlanIndifferent _ settings).orderFree hnodup

theorem phases_orderFree_two_failed :
    let one : Uuid := ⟨Vector.replicate 32 1⟩
    let two : Uuid := ⟨Vector.replicate 32 2⟩
    let batch : IncomingBatch := ⟨"b", none, "s", "r",
      [.announced Uuid.zero "x" "b/x" "text/plain" 2, .announced one "y" "b/y" "text/plain" 1,
        .announced two "z" "b/z" "text/plain" 3], none⟩
    let world : World InMemory := ⟨Disk.empty, InMemory.empty⟩
    let plan := downloadPlan (σ := InMemory) (fun _ => .sound) Settings.defaults
    let results : List (Uuid × Except Failure Delivery) :=
      [(Uuid.zero, .error (.reported .collaborator "gone")), (one, .ok ⟨⟨"d/1"⟩, 1⟩),
        (two, .error (.reported .task "cancelled"))]
    let outcome (ended : Except Failure PhaseReport × IncomingBatch × World InMemory) :=
      ended.1.map PhaseReport.outcome
    (batch.units.map Transferable.id).Nodup ∧
      EndsMatch (plan.runEnding results batch world)
        (plan.runEnding results.reverse batch world) ∧
      outcome (plan.runEnding results batch world) = .ok (.unitsFailed [Uuid.zero, two]) ∧
      outcome (plan.runEnding results.reverse batch world) =
        .ok (.unitsFailed [two, Uuid.zero]) := by
  intro one two batch world plan results outcome
  have hnodup : (batch.units.map Transferable.id).Nodup := by decide
  have hfree := (phases_orderFree (σ := InMemory) Settings.defaults).2.2 batch hnodup
  exact ⟨hnodup, hfree.any_results world (.refl _) (reverse_perm results).symm, rfl, rfl⟩

end Phase

end PeerTransfer
