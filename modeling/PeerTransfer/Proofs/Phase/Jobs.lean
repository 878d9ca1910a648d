import PeerTransfer.Proofs.Phase.Outcome

/-!
# One job among others

The job of a unit runs in the world that the jobs of the units before it leave, and those of the
units after it start from the world that it leaves (`jobs_append_cons`). What every job keeps, all
of them keep, and jobs that succeed and do not disturb each other all come to what they are for
(`jobs_of_independent`).
-/

namespace PeerTransfer.Phase

open List

section Jobs

variable {U S ρ α W : Type} [Transferable U S]

theorem runAll_append (unit : ρ → Uuid) (run : ρ → W → Except Failure α × W)
    (before after : List ρ) (world : W) :
    runAll unit run (before ++ after) world =
      let first := runAll unit run before world
      let last := runAll unit run after first.2
      (first.1 ++ last.1, last.2) := by
  induction before generalizing world with
  | nil => rfl
  | cons request before ih => simp only [cons_append, runAll, ih]

/-- What no job breaks holds once all of them have run. -/
theorem runAll_induction {P : W → Prop} {unit : ρ → Uuid} {run : ρ → W → Except Failure α × W}
    {requests : List ρ} (hrun : ∀ request ∈ requests, ∀ world, P world → P (run request world).2)
    {world : W} (h : P world) : P (runAll unit run requests world).2 := by
  induction requests generalizing world with
  | nil => exact h
  | cons request requests ih =>
    rw [forall_mem_cons] at hrun
    exact ih hrun.2 (hrun.1 world h)

/-- What holds once all jobs have run held before, unless a job has brought it about; and what is
then true of the job's result stays so while the others run. -/
theorem exists_of_runAll {P : W → Prop} {R : Except Failure α → W → Prop} {unit : ρ → Uuid}
    {run : ρ → W → Except Failure α × W} {requests : List ρ}
    (hrun : ∀ request ∈ requests, ∀ world, P (run request world).2 →
      P world ∨ R (run request world).1 (run request world).2)
    (hkeep : ∀ request ∈ requests, ∀ result world, R result world →
      R result (run request world).2)
    {world : W} (h : P (runAll unit run requests world).2) :
    P world ∨ ∃ ended ∈ (runAll unit run requests world).1,
      R ended.2 (runAll unit run requests world).2 := by
  induction requests generalizing world with
  | nil => exact .inl h
  | cons request requests ih =>
    rw [forall_mem_cons] at hrun hkeep
    rcases ih hrun.2 hkeep.2 h with hfirst | ⟨ended, hended, hresult⟩
    · refine (hrun.1 world hfirst).imp_right fun hresult => ?_
      exact ⟨(unit request, _), mem_cons_self, runAll_induction (hkeep.2 · · _) hresult⟩
    · exact .inr ⟨ended, mem_cons_of_mem _ hended, hresult⟩

/-- What no job of a unit breaks holds after an attempt, whichever way it ends. -/
theorem attempt_induction {S : Type} [Transferable U S] {P : W → Prop} (steps : PhaseSteps U ρ α W)
    (limit : Nat) (batch : Batch U)
    (hrun : ∀ u ∈ batch.units, ∀ request u', steps.start u = .ok (request, u') →
      ∀ world, P world → P (steps.run request world).2) {world : W} (h : P world) :
    P (attempt steps limit batch world).2.2 := by
  unfold attempt
  split
  · exact h
  · next requests units hstart =>
    have hrequests : (startAll steps.start batch.units).1 = .ok requests := by rw [hstart]
    split_ifs
    · exact h
    refine runAll_induction (fun request hrequest => ?_) h
    obtain ⟨u, hu, u', hasked⟩ := exists_of_mem_startAll hrequests request hrequest
    exact hrun u hu request u' hasked

/-- What no change of a unit breaks holds of the disk once all of them are made. -/
theorem forAll_induction {P : Disk → Prop} {change : U → Disk → U × Disk} {units : List U}
    (hchange : ∀ u ∈ units, ∀ disk, P disk → P (change u disk).2) {disk : Disk} (h : P disk) :
    P (forAll change units disk).2 := by
  induction units generalizing disk with
  | nil => exact h
  | cons u units ih =>
    rw [forall_mem_cons] at hchange
    exact ih hchange.2 (hchange.1 disk h)

/-- Where a change of a unit deletes the unit's copy, all copies are deleted in the end. -/
theorem forAll_discard {change : U → Disk → U × Disk} {copy? : U → Option Path}
    (h : ∀ u disk, (change u disk).2 = (copy? u).elim disk disk.discard) (units : List U)
    (disk : Disk) :
    (forAll change units disk).2 = (units.filterMap copy?).foldl Disk.discard disk := by
  induction units generalizing disk with
  | nil => rfl
  | cons u units ih =>
    rw [forAll, filterMap_cons]
    dsimp only
    rw [ih, h]
    cases copy? u <;> rfl

variable {steps : PhaseSteps U ρ α W} {Ready : U → Prop} (law : steps.Law Ready)

theorem jobs_append_cons {before after : List U} {u : U}
    (hready : ∀ v ∈ before ++ u :: after, Ready v) (world : W) :
    jobs steps (before ++ u :: after) world =
      let first := jobs steps before world
      let ran := steps.run (law.request u) first.2
      let last := jobs steps after ran.2
      (first.1 ++ (Transferable.id u, ran.1) :: last.1, last.2) := by
  have hready' := hready
  rw [forall_mem_append, forall_mem_cons] at hready
  rw [jobs_of_ready law hready', jobs_of_ready law hready.1, map_append, runAll_append]
  dsimp only
  rw [jobs_of_ready law hready.2.2, map_cons, runAll, law.unit_request]

/-- The result of a unit's job is what the job comes to after those before it. -/
theorem result_eq_run {before after : List U} {u : U}
    (hready : ∀ v ∈ before ++ u :: after, Ready v) {world : W}
    {result : Uuid → Except Failure α}
    (hresult : (jobs steps (before ++ u :: after) world).1 =
      (before ++ u :: after).map fun v => (Transferable.id v, result (Transferable.id v))) :
    result (Transferable.id u) = (steps.run (law.request u) (jobs steps before world).2).1 := by
  have hbefore := map_fst_jobs_of_ready law (forall_mem_append.1 hready).1 world
  have hlength := congrArg length hbefore
  rw [length_map, length_map] at hlength
  rw [jobs_append_cons law hready, map_append, map_cons] at hresult
  obtain ⟨-, htail⟩ := append_inj hresult (by rw [hlength, length_map])
  rw [cons.injEq, Prod.mk.injEq] at htail
  exact htail.1.2.symm

theorem exists_run_eq_result {units : List U} (hready : ∀ v ∈ units, Ready v) {world : W}
    {result : Uuid → Except Failure α}
    (hresult : (jobs steps units world).1 =
      units.map fun v => (Transferable.id v, result (Transferable.id v))) {u : U} (hu : u ∈ units) :
    ∃ world', (steps.run (law.request u) world').1 = result (Transferable.id u) := by
  obtain ⟨before, after, rfl⟩ := append_of_mem hu
  exact ⟨_, (result_eq_run law hready hresult).symm⟩

/-- Every job succeeds where `P` holds, which it keeps; it brings about what `Q` says of its unit
and leaves alone what `Q` says of others. -/
theorem jobs_of_independent {P : W → Prop} {Q : U → W → Prop} (value : U → α) {units : List U}
    (hready : ∀ u ∈ units, Ready u) (hnodup : (units.map Transferable.id).Nodup)
    (hrun : ∀ u ∈ units, ∀ world, P world → ∃ world',
      steps.run (law.request u) world = (.ok (value u), world') ∧ P world' ∧ Q u world' ∧
        ∀ v ∈ units, Transferable.id v ≠ Transferable.id u → Q v world → Q v world')
    (world : W) (h : P world) :
    (jobs steps units world).1 = units.map (fun u => (Transferable.id u, .ok (value u))) ∧
      P (jobs steps units world).2 ∧ ∀ u ∈ units, Q u (jobs steps units world).2 := by
  rw [jobs_of_ready law hready]
  clear hready
  induction units generalizing world with
  | nil => exact ⟨rfl, h, fun u hu => absurd hu not_mem_nil⟩
  | cons u units ih =>
    rw [map_cons, nodup_cons] at hnodup
    rw [forall_mem_cons] at hrun
    obtain ⟨world', hworld', hkept, hput, -⟩ := hrun.1 world h
    have hrest : ∀ v ∈ units, ∀ world, P world → ∃ world',
        steps.run (law.request v) world = (.ok (value v), world') ∧ P world' ∧ Q v world' ∧
          ∀ w ∈ u :: units, Transferable.id w ≠ Transferable.id v → Q w world → Q w world' :=
      hrun.2
    obtain ⟨hvalues, hkept', hputs⟩ := ih hnodup.2 (fun v hv world h => by
      obtain ⟨world', hworld', hkept, hput, hspared⟩ := hrest v hv world h
      exact ⟨world', hworld', hkept, hput, (forall_mem_cons.1 hspared).2⟩) _ hkept
    -- The jobs of the other units keep `P`, and so what the job of `u` has brought about.
    have hafter : Q u (runAll steps.unit steps.run (units.map law.request) world').2 := by
      refine (runAll_induction (P := fun world => P world ∧ Q u world) ?_ ⟨hkept, hput⟩).2
      rw [forall_mem_map]
      rintro v hv world ⟨hkept, hput⟩
      have hne : Transferable.id u ≠ Transferable.id v :=
        fun heq => hnodup.1 (heq ▸ mem_map_of_mem hv)
      obtain ⟨world', hworld', hkept', -, hspared⟩ := hrest v hv world hkept
      rw [hworld']
      exact ⟨hkept', hspared u mem_cons_self hne hput⟩
    rw [map_cons, runAll, hworld']
    dsimp only
    rw [map_cons, hvalues, law.unit_request]
    exact ⟨rfl, hkept', forall_mem_cons.2 ⟨hafter, hputs⟩⟩

/-- What a job that succeeds has brought about for its unit stands once all of them have succeeded,
as no job of another unit breaks it. -/
theorem of_jobs_ok {P : W → Prop} {Q : U → α → W → Prop} {units : List U}
    (hready : ∀ u ∈ units, Ready u) (hnodup : (units.map Transferable.id).Nodup)
    (hkeep : ∀ u ∈ units, ∀ world, P world → P (steps.run (law.request u) world).2)
    (hput : ∀ u ∈ units, ∀ world a, P world → (steps.run (law.request u) world).1 = .ok a →
      Q u a (steps.run (law.request u) world).2)
    (hspare : ∀ u ∈ units, ∀ v ∈ units, Transferable.id v ≠ Transferable.id u →
      ∀ world a, P world → Q u a world → Q u a (steps.run (law.request v) world).2)
    {world : W} {result : Uuid → Except Failure α}
    (hresult : (jobs steps units world).1 =
      units.map fun u => (Transferable.id u, result (Transferable.id u)))
    (hok : failedIn (jobs steps units world).1 = []) (h : P world) :
    ∀ u ∈ units, ∃ a, result (Transferable.id u) = .ok a ∧ Q u a (jobs steps units world).2 := by
  intro u hu
  rw [failedIn_eq_nil_iff, hresult] at hok
  obtain ⟨a, ha⟩ := hok _ (mem_map_of_mem hu)
  refine ⟨a, ha, ?_⟩
  obtain ⟨before, after, rfl⟩ := append_of_mem hu
  have hrun := (result_eq_run law hready hresult).symm.trans ha
  rw [jobs_append_cons law hready]
  rw [map_append, map_cons, nodup_append, nodup_cons] at hnodup
  rw [forall_mem_append, forall_mem_cons] at hready hkeep
  have hbefore : P (jobs steps before world).2 := by
    rw [jobs_of_ready law hready.1]
    exact runAll_induction (forall_mem_map.2 hkeep.1) h
  have hput' := hput u hu _ a hbefore hrun
  dsimp only
  rw [jobs_of_ready law hready.2.2]
  refine (runAll_induction (P := fun world => P world ∧ Q u a world) ?_
    ⟨hkeep.2.1 _ hbefore, hput'⟩).2
  rw [forall_mem_map]
  rintro v hv world' ⟨hworld', hstands⟩
  have hne : Transferable.id v ≠ Transferable.id u :=
    fun heq => hnodup.2.1.1 (heq ▸ mem_map_of_mem hv)
  exact ⟨hkeep.2.2 v hv world' hworld',
    hspare u hu v (mem_append_right before (mem_cons_of_mem u hv)) hne world' a hworld' hstands⟩

theorem failedIn_map_ok (units : List U) (value : U → α) :
    failedIn (units.map fun u => (Transferable.id u, Except.ok (value u))) = [] := by
  rw [failedIn_eq_nil_iff, forall_mem_map]
  exact fun u _ => ⟨value u, rfl⟩

/-- Units whose jobs have succeeded have completed their steps. -/
theorem map_settled_eq_map_completed {units : List U} {result : Uuid → Except Failure α}
    {value : U → α} (h : units.map (fun u => (Transferable.id u, result (Transferable.id u))) =
      units.map fun u => (Transferable.id u, .ok (value u))) :
    units.map (fun u => law.settled u (result (Transferable.id u))) =
      units.map fun u => law.completed u (value u) := by
  rw [map_inj_left] at h
  apply map_congr_left
  intro u hu
  have hresult : result (Transferable.id u) = .ok (value u) := congrArg Prod.snd (h u hu)
  rw [hresult]
  rfl

end Jobs

end PeerTransfer.Phase
