import PeerTransfer.Phase.Attempt
import PeerTransfer.Proofs.Lookup
import PeerTransfer.Proofs.Replaced

/-!
# What one attempt does to a batch

`PhaseSteps.Law` says what the steps of a phase do to a unit that is ready for them: they begin, and
then complete or fail, and none of it is ever refused. Where every unit of a batch is ready and no
two share an id, each result is applied to the unit it belongs to, in whatever order the results
come (`settle_of_perm`). So an attempt is never refused, and every unit ends as its own job did
(`attempt_of_ready`).
-/

namespace PeerTransfer

open List

variable {U S ρ α W : Type} [Transferable U S]

/-- What the steps of a phase do to the units that are ready for them. -/
structure PhaseSteps.Law (steps : PhaseSteps U ρ α W) (Ready : U → Prop) where
  request : U → ρ
  /-- The unit while its job runs. -/
  begun : U → U
  completed : U → α → U
  failed : U → U
  start_eq {u : U} : Ready u → steps.start u = .ok (request u, begun u)
  complete_eq {u : U} (a : α) : Ready u → steps.complete (begun u) a = .ok (completed u a)
  fail_eq {u : U} : Ready u → steps.fail (begun u) = .ok (failed u)
  unit_request (u : U) : steps.unit (request u) = Transferable.id u
  id_begun (u : U) : Transferable.id (begun u) = Transferable.id u
  id_completed (u : U) (a : α) : Transferable.id (completed u a) = Transferable.id u
  id_failed (u : U) : Transferable.id (failed u) = Transferable.id u
  label_completed (u : U) (a : α) : Transferable.label (completed u a) = Transferable.label u
  label_failed (u : U) : Transferable.label (failed u) = Transferable.label u

namespace PhaseSteps.Law

variable {steps : PhaseSteps U ρ α W} {Ready : U → Prop} (law : steps.Law Ready)

/-- The unit once the result of its job is applied. -/
def settled (u : U) : Except Failure α → U
  | .ok a => law.completed u a
  | .error _ => law.failed u

/-- The unit while the results of some ids are still to come. -/
def during (result : Uuid → Except Failure α) (pending : List Uuid) (u : U) : U :=
  if Transferable.id u ∈ pending then law.begun u else law.settled u (result (Transferable.id u))

@[simp] theorem id_settled (u : U) (result : Except Failure α) :
    Transferable.id (law.settled u result) = Transferable.id u := by
  cases result with
  | ok a => exact law.id_completed u a
  | error failure => exact law.id_failed u

@[simp] theorem label_settled (u : U) (result : Except Failure α) :
    Transferable.label (law.settled u result) = Transferable.label u := by
  cases result with
  | ok a => exact law.label_completed u a
  | error failure => exact law.label_failed u

@[simp] theorem id_during (result : Uuid → Except Failure α) (pending : List Uuid) (u : U) :
    Transferable.id (law.during result pending u) = Transferable.id u := by
  unfold during
  split_ifs
  · exact law.id_begun u
  · exact law.id_settled u _

theorem settleOne_begun {u : U} (h : Ready u) (result : Except Failure α) :
    Phase.settleOne steps (law.begun u) result = .ok (law.settled u result) := by
  cases result with
  | ok a => exact law.complete_eq a h
  | error failure => exact law.fail_eq h

end PhaseSteps.Law

namespace Phase

/-! ## Beginning every step and running every job -/

theorem startAll_of_ready {steps : PhaseSteps U ρ α W} {Ready : U → Prop} (law : steps.Law Ready)
    {units : List U} (h : ∀ u ∈ units, Ready u) :
    startAll steps.start units = (.ok (units.map law.request), units.map law.begun) := by
  induction units with
  | nil => rfl
  | cons u units ih =>
    have hu := law.start_eq (h u mem_cons_self)
    have hrest := ih fun v hv => h v (mem_cons_of_mem _ hv)
    simp only [startAll, hu, hrest, map_cons]
    rfl

theorem map_fst_runAll (unit : ρ → Uuid) (run : ρ → W → Except Failure α × W)
    (requests : List ρ) (world : W) :
    (runAll unit run requests world).1.map Prod.fst = requests.map unit := by
  induction requests generalizing world with
  | nil => rfl
  | cons request requests ih => simp only [runAll, map_cons, ih]

/-! ## The order in which jobs end -/

theorem inOrderOfEnding_perm {β : Type} (limit : Nat) (endsAtOnce : β → Bool)
    (underWay jobs : List β) :
    inOrderOfEnding limit endsAtOnce underWay jobs ~ underWay ++ jobs := by
  induction jobs generalizing underWay with
  | nil => rw [inOrderOfEnding, append_nil]
  | cons job jobs ih =>
    rw [inOrderOfEnding]
    set ended := if underWay.length < limit then 0 else 1
    -- The oldest job may make room; the rest is under way still, with or without the new one.
    have htail : (if endsAtOnce job = true
          then job :: inOrderOfEnding limit endsAtOnce (underWay.drop ended) jobs
          else inOrderOfEnding limit endsAtOnce (underWay.drop ended ++ [job]) jobs) ~
        underWay.drop ended ++ job :: jobs := by
      split_ifs
      · exact ((ih _).cons job).trans perm_middle.symm
      · exact (ih _).trans (by rw [append_assoc, singleton_append])
    calc underWay.take ended ++ _
        ~ underWay.take ended ++ (underWay.drop ended ++ job :: jobs) := htail.append_left _
      _ = underWay ++ job :: jobs := by rw [← append_assoc, take_append_drop]

/-! ## Applying the results -/

theorem eq_of_id_eq {units : List U} (hnodup : (units.map Transferable.id).Nodup) {u v : U}
    (hu : u ∈ units) (hv : v ∈ units) (h : Transferable.id u = Transferable.id v) : u = v :=
  inj_on_of_nodup_map hnodup hu hv h

theorem find?_id_of_mem {units : List U} (hnodup : (units.map Transferable.id).Nodup) {u : U}
    (hu : u ∈ units) : units.find? (Transferable.id · = Transferable.id u) = some u := by
  have hsome : (units.find? (Transferable.id · = Transferable.id u)).isSome :=
    find?_isSome.2 ⟨u, hu, decide_eq_true rfl⟩
  obtain ⟨v, hv⟩ := Option.isSome_iff_exists.1 hsome
  have hid : Transferable.id v = Transferable.id u := by simpa using find?_some hv
  rw [hv, eq_of_id_eq hnodup (mem_of_find?_eq_some hv) hu hid]

theorem find?_map_id {units : List U} {f : U → U}
    (hf : ∀ u, Transferable.id (f u) = Transferable.id u) (id : Uuid) :
    (units.map f).find? (Transferable.id · = id) =
      (units.find? (Transferable.id · = id)).map f := by
  rw [find?_map]
  congr 2
  funext u
  simp only [Function.comp_apply, hf]

/-- What is told of units whose jobs have ended. -/
def told (units : List U) (result : Uuid → Except Failure α) : List (Verdict α) :=
  units.map fun u => ⟨Transferable.id u, Transferable.label u, result (Transferable.id u)⟩

/-- Applies results in the order in which they come, up to the first that a unit refuses, and tells
each of them once it is applied. -/
def settleTelling (steps : PhaseSteps U ρ α W) :
    List (Uuid × Except Failure α) → List U → Except Failure (List (Verdict α)) × List U
  | [], units => (.ok [], units)
  | (id, result) :: rest, units =>
    match units.find? (Transferable.id · = id) with
    | none => (.error (.strayResult id), units)
    | some unit =>
      match settleOne steps unit result with
      | .error failure => (.error failure, units)
      | .ok unit =>
        let (verdicts, units) := settleTelling steps rest (replaceFirst Transferable.id unit units)
        (verdicts.map (⟨id, Transferable.label unit, result⟩ :: ·), units)

theorem settle_eq_settleTelling (steps : PhaseSteps U ρ α W)
    (results : List (Uuid × Except Failure α)) (units : List U) :
    settle steps results units =
      ((settleTelling steps results units).1.map fun _ => (),
        (settleTelling steps results units).2) := by
  induction results generalizing units with
  | nil => rfl
  | cons result results ih =>
    rw [settle, settleTelling]
    cases units.find? (Transferable.id · = result.1) with
    | none => rfl
    | some unit =>
      dsimp only
      cases settleOne steps unit result.2 with
      | error failure => rfl
      | ok unit =>
        dsimp only
        rw [ih]
        cases (settleTelling steps results (replaceFirst Transferable.id unit units)).1 <;> rfl

section Settle

variable {steps : PhaseSteps U ρ α W} {Ready : U → Prop} (law : steps.Law Ready) {units : List U}
  (result : Uuid → Except Failure α)

theorem settleTelling_during (hready : ∀ u ∈ units, Ready u)
    (hnodup : (units.map Transferable.id).Nodup) {pending : List U}
    (hpending : (pending.map Transferable.id).Nodup) (hmem : ∀ u ∈ pending, u ∈ units) :
    settleTelling steps
        (pending.map fun u => (Transferable.id u, result (Transferable.id u)))
        (units.map (law.during result (pending.map Transferable.id))) =
      (.ok (told pending result), units.map (law.during result [])) := by
  induction pending with
  | nil => rfl
  | cons u pending ih =>
    rw [map_cons, nodup_cons] at hpending
    rw [forall_mem_cons] at hmem
    have hbegun : law.during result (Transferable.id u :: pending.map Transferable.id) u =
        law.begun u := if_pos mem_cons_self
    have hsettled : law.during result (pending.map Transferable.id) u =
        law.settled u (result (Transferable.id u)) := if_neg hpending.1
    -- Of all units only `u` has its result applied, and no later result is meant for it.
    have hreplace : replaceFirst Transferable.id (law.during result (pending.map Transferable.id) u)
        (units.map (law.during result (Transferable.id u :: pending.map Transferable.id))) =
          units.map (law.during result (pending.map Transferable.id)) := by
      refine replaceFirst_map hnodup (law.id_during result _) hmem.1 (law.id_during result _ u)
        fun v _ hv => ?_
      simp only [PhaseSteps.Law.during, mem_cons, hv, false_or]
    rw [map_cons, map_cons, settleTelling, find?_map_id (law.id_during result _),
      find?_id_of_mem hnodup hmem.1, Option.map_some, hbegun]
    simp only [law.settleOne_begun (hready u hmem.1), law.label_settled]
    rw [← hsettled, hreplace, ih hpending.2 hmem.2]
    rfl

theorem exists_perm_of_perm_map {β γ : Type} {f : β → γ} {l : List γ} {l' : List β}
    (h : l ~ l'.map f) : ∃ k, k ~ l' ∧ l = k.map f := by
  have hmap : Forall₂ (fun c b => c = f b) (l'.map f) l' := by
    rw [forall₂_map_left_iff, forall₂_same]
    exact fun _ _ => rfl
  obtain ⟨k, hk, hperm⟩ := perm_comp_forall₂ h hmap
  refine ⟨k, hperm, ?_⟩
  rw [← forall₂_eq_eq_eq, forall₂_map_right_iff]
  exact hk

/-- In whatever order the results come, each is applied to the unit it belongs to, and they are told
in this order. -/
theorem settleTelling_of_perm (hready : ∀ u ∈ units, Ready u)
    (hnodup : (units.map Transferable.id).Nodup) {results : List (Uuid × Except Failure α)}
    (hresults : results ~
      units.map fun u => (Transferable.id u, result (Transferable.id u))) :
    ∃ pending, pending ~ units ∧
      settleTelling steps results (units.map law.begun) =
        (.ok (told pending result),
          units.map fun u => law.settled u (result (Transferable.id u))) := by
  obtain ⟨pending, hperm, rfl⟩ := exists_perm_of_perm_map hresults
  have hids := hperm.map Transferable.id
  have hbegun : units.map (law.during result (pending.map Transferable.id)) =
      units.map law.begun :=
    map_congr_left fun u hu => if_pos (hids.mem_iff.2 (mem_map_of_mem hu))
  have hend : units.map (law.during result []) =
      units.map fun u => law.settled u (result (Transferable.id u)) :=
    map_congr_left fun u _ => if_neg not_mem_nil
  refine ⟨pending, hperm, ?_⟩
  rw [← hbegun, ← hend]
  exact settleTelling_during law result hready hnodup (hids.nodup_iff.2 hnodup)
    fun u hu => hperm.mem_iff.1 hu

theorem settle_of_perm (hready : ∀ u ∈ units, Ready u)
    (hnodup : (units.map Transferable.id).Nodup) {results : List (Uuid × Except Failure α)}
    (hresults : results ~
      units.map fun u => (Transferable.id u, result (Transferable.id u))) :
    settle steps results (units.map law.begun) =
      (.ok (), units.map fun u => law.settled u (result (Transferable.id u))) := by
  obtain ⟨pending, -, htold⟩ := settleTelling_of_perm law result hready hnodup hresults
  rw [settle_eq_settleTelling, htold]
  rfl

end Settle

/-! ## The whole attempt -/

/-- What comes of the jobs that the steps of a phase ask for, with the world after them. -/
def jobs (steps : PhaseSteps U ρ α W) (units : List U) (world : W) :
    List (Uuid × Except Failure α) × W :=
  match (startAll steps.start units).1 with
  | .ok requests => runAll steps.unit steps.run requests world
  | .error _ => ([], world)

theorem jobs_of_ready {steps : PhaseSteps U ρ α W} {Ready : U → Prop} (law : steps.Law Ready)
    {units : List U} (hready : ∀ u ∈ units, Ready u) (world : W) :
    jobs steps units world = runAll steps.unit steps.run (units.map law.request) world := by
  unfold jobs
  rw [startAll_of_ready law hready]

theorem map_fst_jobs_of_ready {steps : PhaseSteps U ρ α W} {Ready : U → Prop}
    (law : steps.Law Ready) {units : List U} (hready : ∀ u ∈ units, Ready u) (world : W) :
    (jobs steps units world).1.map Prod.fst = units.map Transferable.id := by
  rw [jobs_of_ready law hready, map_fst_runAll, map_map]
  exact map_congr_left fun u _ => law.unit_request u

/-- With more jobs at a time than a semaphore has permits, an attempt stops as soon as every step
is begun. -/
theorem attempt_of_lt (steps : PhaseSteps U ρ α W) {limit : Nat} (hlimit : maxPermits < limit)
    (batch : Batch U) (world : W) :
    ∃ failure, attempt steps limit batch world =
      (.error failure, { batch with units := (startAll steps.start batch.units).2 }, world) := by
  unfold attempt
  split
  · next failure units h => exact ⟨failure, by rw [h]⟩
  · next requests units h => exact ⟨.panicked, by rw [if_pos hlimit, h]⟩

theorem attempt_of_lt_of_ready {steps : PhaseSteps U ρ α W} {Ready : U → Prop}
    (law : steps.Law Ready) {limit : Nat} (hlimit : maxPermits < limit) {batch : Batch U}
    (hready : ∀ u ∈ batch.units, Ready u) (world : W) :
    attempt steps limit batch world =
      (.error .panicked, { batch with units := batch.units.map law.begun }, world) := by
  unfold attempt
  rw [startAll_of_ready law hready]
  exact if_pos hlimit

theorem attempt_eq_settle {steps : PhaseSteps U ρ α W} {Ready : U → Prop} (law : steps.Law Ready)
    {limit : Nat} (hlimit : limit ≤ maxPermits) {batch : Batch U}
    (hready : ∀ u ∈ batch.units, Ready u) (world : W) :
    attempt steps limit batch world =
      let ran := jobs steps batch.units world
      let settled := settle steps (inOrderOfEnding limit (comesAtOnce steps) [] ran.1)
        (batch.units.map law.begun)
      (settled.1.map fun _ => verdicts ran.1 settled.2, { batch with units := settled.2 },
        ran.2) := by
  rw [jobs_of_ready law hready]
  unfold attempt
  rw [startAll_of_ready law hready]
  exact if_neg (not_lt.2 hlimit)

/-- Pairs under distinct keys are the graph of a function. -/
theorem exists_eq_map_of_nodup {κ β : Type} [DecidableEq κ] [Inhabited β] {pairs : List (κ × β)}
    (h : (pairs.map Prod.fst).Nodup) :
    ∃ f : κ → β, pairs = (pairs.map Prod.fst).map fun key => (key, f key) := by
  refine ⟨fun key => (pairs.lookup key).getD default, ?_⟩
  rw [map_map]
  refine (map_id pairs).symm.trans (map_congr_left fun pair hpair => ?_)
  simp only [Function.comp_apply, lookup_of_mem h hpair, Option.getD_some, id]

/-- Each job has its own result. -/
theorem exists_result_jobs {steps : PhaseSteps U ρ α W} {Ready : U → Prop} (law : steps.Law Ready)
    {units : List U} (hready : ∀ u ∈ units, Ready u) (hnodup : (units.map Transferable.id).Nodup)
    (world : W) :
    ∃ result : Uuid → Except Failure α,
      (jobs steps units world).1 =
        units.map fun u => (Transferable.id u, result (Transferable.id u)) := by
  have hkeys := map_fst_jobs_of_ready law hready world
  have : Inhabited (Except Failure α) := ⟨.error .unitsMissing⟩
  obtain ⟨result, hresult⟩ := exists_eq_map_of_nodup (hkeys ▸ hnodup)
  rw [hkeys, map_map] at hresult
  exact ⟨result, hresult⟩

/-- What an attempt comes to where every unit is ready: each job has its own result, and each unit
ends as its own job did. -/
theorem attempt_of_ready {steps : PhaseSteps U ρ α W} {Ready : U → Prop} (law : steps.Law Ready)
    {limit : Nat} (hlimit : limit ≤ maxPermits) {batch : Batch U} (world : W)
    (hready : ∀ u ∈ batch.units, Ready u)
    (hnodup : (batch.units.map Transferable.id).Nodup) :
    ∃ result : Uuid → Except Failure α,
      (jobs steps batch.units world).1 =
        batch.units.map (fun u => (Transferable.id u, result (Transferable.id u))) ∧
      attempt steps limit batch world =
        (.ok (told batch.units result),
          { batch with
            units := batch.units.map fun u => law.settled u (result (Transferable.id u)) },
          (jobs steps batch.units world).2) := by
  obtain ⟨result, hresult⟩ := exists_result_jobs law hready hnodup world
  have hperm := inOrderOfEnding_perm limit (comesAtOnce steps) [] (jobs steps batch.units world).1
  rw [nil_append] at hperm
  refine ⟨result, hresult, ?_⟩
  have hsettle := settle_of_perm law result hready hnodup (hperm.trans (.of_eq hresult))
  have hverdicts : verdicts (jobs steps batch.units world).1
      (batch.units.map fun u => law.settled u (result (Transferable.id u))) =
        told batch.units result := by
    rw [told, hresult, verdicts, filterMap_map]
    apply filterMap_eq_map_iff_forall_eq_some.2
    intro u hu
    simp only [Function.comp_apply]
    rw [find?_map_id fun u => law.id_settled u _, find?_id_of_mem hnodup hu]
    simp only [Option.map_some, law.label_settled]
  rw [attempt_eq_settle law hlimit hready]
  dsimp only
  rw [hsettle, ← hverdicts]
  rfl

/-! ## What an attempt keeps, ready or not -/

/-- An attempt changes nothing of a batch but its units. -/
theorem exists_units_attempt (steps : PhaseSteps U ρ α W) (limit : Nat) (batch : Batch U)
    (world : W) : ∃ units, (attempt steps limit batch world).2.1 = { batch with units } := by
  unfold attempt
  split
  · exact ⟨_, rfl⟩
  · split_ifs <;> exact ⟨_, rfl⟩

section Kept

variable {steps : PhaseSteps U ρ α W} {P : U → Prop}

theorem forall_mem_startAll
    (hstart : ∀ u request u', P u → steps.start u = .ok (request, u') → P u')
    {units : List U} (h : ∀ u ∈ units, P u) : ∀ u ∈ (startAll steps.start units).2, P u := by
  induction units with
  | nil => exact h
  | cons v units ih =>
    rw [forall_mem_cons] at h
    unfold startAll
    split
    · exact forall_mem_cons.2 h
    · next request v' heq => exact forall_mem_cons.2 ⟨hstart v request v' h.1 heq, ih h.2⟩

theorem forall_mem_settle {R : α → Prop}
    (hcomplete : ∀ u a u', R a → P u → steps.complete u a = .ok u' → P u')
    (hfail : ∀ u u', P u → steps.fail u = .ok u' → P u') {results : List (Uuid × Except Failure α)}
    (hresults : ∀ result ∈ results, ∀ a, result.2 = .ok a → R a) {units : List U}
    (h : ∀ u ∈ units, P u) : ∀ u ∈ (settle steps results units).2, P u := by
  induction results generalizing units with
  | nil => exact h
  | cons result results ih =>
    obtain ⟨id, result⟩ := result
    rw [forall_mem_cons] at hresults
    unfold settle
    split
    · exact h
    · next unit hfind =>
      have hunit : P unit := h unit (mem_of_find?_eq_some hfind)
      split
      · exact h
      · next unit' hsettle =>
        refine ih hresults.2 (forall_mem_replaceFirst ?_ h)
        cases result with
        | ok a => exact hcomplete unit a unit' (hresults.1 a rfl) hunit hsettle
        | error failure => exact hfail unit unit' hunit hsettle

theorem forall_mem_runAll {unit : ρ → Uuid} {run : ρ → W → Except Failure α × W} {R : α → Prop}
    {requests : List ρ}
    (hrun : ∀ request ∈ requests, ∀ world a, (run request world).1 = .ok a → R a) (world : W) :
    ∀ result ∈ (runAll unit run requests world).1, ∀ a, result.2 = .ok a → R a := by
  induction requests generalizing world with
  | nil => simp [runAll]
  | cons request requests ih =>
    rw [forall_mem_cons] at hrun
    exact forall_mem_cons.2 ⟨hrun.1 world, ih hrun.2 _⟩

/-- Every job is one that a unit has asked for. -/
theorem exists_of_mem_startAll {start : U → Except Failure (ρ × U)} {units : List U}
    {requests : List ρ} (h : (startAll start units).1 = .ok requests) :
    ∀ request ∈ requests, ∃ u ∈ units, ∃ u', start u = .ok (request, u') := by
  induction units generalizing requests with
  | nil =>
    cases h
    simp
  | cons u units ih =>
    rw [startAll] at h
    cases hstart : start u with
    | error failure =>
      rw [hstart] at h
      cases h
    | ok begun =>
      cases hrest : (startAll start units).1 with
      | error failure =>
        simp only [hstart, hrest] at h
        cases h
      | ok rest =>
        simp only [hstart, hrest] at h
        cases h
        refine forall_mem_cons.2 ⟨⟨u, mem_cons_self, begun.2, hstart⟩, fun request hrequest => ?_⟩
        obtain ⟨v, hv, hasked⟩ := ih hrest request hrequest
        exact ⟨v, mem_cons_of_mem u hv, hasked⟩

/-- What no step of a phase breaks holds of every unit after an attempt, also after one that was
refused half-way. Units complete their steps with what their jobs come to. -/
theorem forall_mem_attempt_of_run {R : α → Prop} (steps : PhaseSteps U ρ α W)
    (hstart : ∀ u request u', P u → steps.start u = .ok (request, u') → P u')
    (hcomplete : ∀ u a u', R a → P u → steps.complete u a = .ok u' → P u')
    (hfail : ∀ u u', P u → steps.fail u = .ok u' → P u') (limit : Nat) {batch : Batch U}
    (hrun : ∀ u ∈ batch.units, ∀ request u', steps.start u = .ok (request, u') →
      ∀ world a, (steps.run request world).1 = .ok a → R a)
    (world : W) (h : ∀ u ∈ batch.units, P u) :
    ∀ u ∈ (attempt steps limit batch world).2.1.units, P u := by
  have hbegun := forall_mem_startAll hstart h
  unfold attempt
  split
  · next failure units heq => simpa only [heq] using hbegun
  · next requests units heq =>
    simp only [heq] at hbegun
    split_ifs
    · exact hbegun
    have hrequests : (startAll steps.start batch.units).1 = .ok requests := by rw [heq]
    have hjobs : ∀ request ∈ requests, ∀ world a, (steps.run request world).1 = .ok a → R a := by
      intro request hrequest
      obtain ⟨u, hu, u', hasked⟩ := exists_of_mem_startAll hrequests request hrequest
      exact hrun u hu request u' hasked
    have hresults : ∀ result ∈ (runAll steps.unit steps.run requests world).1,
        ∀ a, result.2 = .ok a → R a := forall_mem_runAll hjobs world
    have hperm := inOrderOfEnding_perm limit (comesAtOnce steps) []
      (runAll steps.unit steps.run requests world).1
    exact forall_mem_settle hcomplete hfail
      (fun result hresult => hresults result (hperm.mem_iff.1 hresult)) hbegun

theorem forall_mem_attempt (steps : PhaseSteps U ρ α W)
    (hstart : ∀ u request u', P u → steps.start u = .ok (request, u') → P u')
    (hcomplete : ∀ u a u', P u → steps.complete u a = .ok u' → P u')
    (hfail : ∀ u u', P u → steps.fail u = .ok u' → P u') (limit : Nat) {batch : Batch U} (world : W)
    (h : ∀ u ∈ batch.units, P u) : ∀ u ∈ (attempt steps limit batch world).2.1.units, P u :=
  forall_mem_attempt_of_run (R := fun _ => True) steps hstart (fun u a u' _ => hcomplete u a u')
    hfail limit (fun _ _ _ _ _ _ _ _ => trivial) world h

theorem map_forAll {β : Type} {f g : U → β} {change : U → Disk → U × Disk}
    (h : ∀ u disk, f (change u disk).1 = g u) (units : List U) (disk : Disk) :
    (forAll change units disk).1.map f = units.map g := by
  induction units generalizing disk with
  | nil => rfl
  | cons u units ih => simp only [forAll, map_cons, h, ih]

theorem forall_mem_forAll {Q : U → Prop} {change : U → Disk → U × Disk}
    (hchange : ∀ u disk, P u → Q (change u disk).1) {units : List U} (h : ∀ u ∈ units, P u)
    (disk : Disk) : ∀ u ∈ (forAll change units disk).1, Q u := by
  induction units generalizing disk with
  | nil =>
    intro u hu
    exact absurd hu not_mem_nil
  | cons v units ih =>
    rw [forall_mem_cons] at h
    exact forall_mem_cons.2 ⟨hchange v disk h.1, ih h.2 _⟩

end Kept

end Phase

end PeerTransfer
