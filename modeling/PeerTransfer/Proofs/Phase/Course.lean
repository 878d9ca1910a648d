import PeerTransfer.Proofs.Phase.Alongside
import PeerTransfer.Proofs.Phase.Ends
import PeerTransfer.Proofs.Phase.Reached
import PeerTransfer.Proofs.Phase.Received
import PeerTransfer.Proofs.Unit.InPlace

/-!
# The course of a unit

Operations on units and phases of batches take a unit through steps (`OutgoingUnit.Step`), and a
phase may at its end take back what it has done (`OutgoingUnit.Back`). So what a unit is about never
changes, its state follows the edges, and its paths are those that its state promises, whatever
happens to it and to the other units of its batches (`OutgoingUnit.course_of_turn`).
-/

namespace PeerTransfer

open List Relation

namespace Method

variable {U α : Type}

/-- The unit after a method, whether the method succeeds or is refused. -/
def after (method : Method U α) (unit : U) (disk : Disk) : U :=
  match method.run (unit, disk) with
  | .ok _ (unit, _) => unit
  | .error _ (unit, _) => unit

theorem after_atOnce {R : U → U → Prop} (operation : U → Except Failure (α × U)) {unit : U}
    (hrefl : R unit unit) (h : ∀ a v, operation unit = .ok (a, v) → R unit v) (disk : Disk) :
    R unit ((atOnce operation).after unit disk) := by
  simp only [after, EStateM.run, atOnce]
  cases hoperation : operation unit with
  | ok answer => exact h answer.1 answer.2 hoperation
  | error failure => exact hrefl

theorem after_atOnce_map {R : U → U → Prop} (operation : U → Except Failure U) {unit : U}
    (hrefl : R unit unit) (h : ∀ v, operation unit = .ok v → R unit v) (disk : Disk) :
    R unit ((atOnce fun unit => (operation unit).map ((), ·)).after unit disk) := by
  refine after_atOnce _ hrefl (fun _ v hmap => ?_) disk
  cases hoperation : operation unit with
  | ok unit' =>
    rw [hoperation] at hmap
    cases hmap
    exact h _ hoperation
  | error failure =>
    rw [hoperation] at hmap
    cases hmap

end Method

/-- What succeeds behind a guard has passed it. -/
theorem of_guarded {α : Type} {guard : Prop} [Decidable guard] {failure : Failure} {a b : α}
    (h : (if guard then .ok a else .error failure) = Except.ok b) : guard ∧ a = b := by
  split_ifs at h with hguard
  exact ⟨hguard, Except.ok.inj h⟩

/-- Where an operation can take a unit: on by one, or back where a job has failed. -/
def OutgoingState.edges : List (OutgoingState × OutgoingState) :=
  [(picked, loading), (loading, loaded), (loaded, staging), (staging, staged),
    (loading, picked), (staging, loaded)]

namespace OutgoingUnit

/-- What no step changes. -/
structure Same (u v : OutgoingUnit) : Prop where
  id_eq : v.id = u.id
  source_eq : v.source = u.source
  contentType_eq : v.contentType = u.contentType
  remotePath_eq : u.remotePath.isSome → v.remotePath = u.remotePath

/-- What one operation may make of a unit. -/
structure Step (u v : OutgoingUnit) : Prop extends Same u v where
  size_eq : ¬u.state.isPreTransfer → v.size = u.size
  edge : v.state = u.state ∨ (u.state, v.state) ∈ OutgoingState.edges
  coherent : u.Coherent → v.Coherent

/-- What is taken back at the end of a phase. -/
inductive Back : OutgoingUnit → OutgoingUnit → Prop
  | load {u : OutgoingUnit} : u.state.isPreTransfer →
      Back u { u with localPath := none, state := .picked }
  /-- Only a unit that still has its copy is taken back to loaded. -/
  | stage {u : OutgoingUnit} : u.state = .staging ∨ u.state = .staged → u.localPath.isSome →
      Back u { u with state := .loaded }

/-- Steps, and then at most one that takes them back. -/
def Course (u v : OutgoingUnit) : Prop :=
  ∃ w, ReflTransGen Step u w ∧ (v = w ∨ Back w v)

variable {u v w : OutgoingUnit}

theorem Same.refl (u : OutgoingUnit) : Same u u :=
  ⟨rfl, rfl, rfl, fun _ => rfl⟩

theorem Same.trans (h : Same u v) (h' : Same v w) : Same u w where
  id_eq := h'.id_eq.trans h.id_eq
  source_eq := h'.source_eq.trans h.source_eq
  contentType_eq := h'.contentType_eq.trans h.contentType_eq
  remotePath_eq hsome :=
    (h'.remotePath_eq (h.remotePath_eq hsome ▸ hsome)).trans (h.remotePath_eq hsome)

theorem Step.refl (u : OutgoingUnit) : Step u u :=
  ⟨.refl u, fun _ => rfl, .inl rfl, fun hu => hu⟩

/-- A step along an edge. -/
theorem step_of_edge {localPath : Option Path} {size : UInt64} {state : OutgoingState}
    (hedge : (u.state, state) ∈ OutgoingState.edges)
    (hsize : ¬u.state.isPreTransfer → size = u.size)
    (hcoherent : u.Coherent → { u with localPath, size, state }.Coherent) :
    Step u { u with localPath, size, state } :=
  ⟨⟨rfl, rfl, rfl, fun _ => rfl⟩, hsize, .inr hedge, hcoherent⟩

theorem Back.same (h : Back u v) : Same u v := by
  cases h <;> exact ⟨rfl, rfl, rfl, fun _ => rfl⟩

theorem Back.coherent (h : Back u v) : v.Coherent := by
  cases h with
  | load => exact ⟨fun _ => rfl, by simp, by simp⟩
  | stage _ hlocal => exact ⟨by simp, fun _ => hlocal, by simp⟩

theorem same_of_steps (h : ReflTransGen Step u v) : Same u v := by
  induction h with
  | refl => exact .refl u
  | tail _ hstep ih => exact ih.trans hstep.toSame

theorem coherent_of_steps (h : ReflTransGen Step u v) (hu : u.Coherent) : v.Coherent := by
  induction h with
  | refl => exact hu
  | tail _ hstep ih => exact hstep.coherent ih

theorem Course.same (h : Course u v) : Same u v := by
  obtain ⟨w, hsteps, rfl | hback⟩ := h
  · exact same_of_steps hsteps
  · exact (same_of_steps hsteps).trans hback.same

theorem Course.coherent (h : Course u v) (hu : u.Coherent) : v.Coherent := by
  obtain ⟨w, hsteps, rfl | hback⟩ := h
  · exact coherent_of_steps hsteps hu
  · exact hback.coherent

/-! ## The operations -/

theorem step_of_setSize {size : UInt64} (h : u.setSize size = .ok v) : Step u v := by
  have hcoherent (hu : u.Coherent) : v.Coherent := hu.setSize h
  obtain ⟨hstate, rfl⟩ := of_guarded h
  exact ⟨⟨rfl, rfl, rfl, fun _ => rfl⟩, fun hnot => absurd hstate hnot, .inl rfl, hcoherent⟩

theorem step_of_beginLoad {request : LoadRequest} (h : u.beginLoad = .ok (request, v)) :
    Step u v := by
  have hcoherent (hu : u.Coherent) : v.Coherent := hu.beginLoad h
  obtain ⟨hstate, hbegun⟩ := of_guarded h
  cases hbegun
  exact step_of_edge (by rw [hstate]; decide) (fun _ => rfl) hcoherent

theorem step_of_completeLoad {copy : LocalCopy} (h : u.completeLoad copy = .ok v) :
    Step u v := by
  have hcoherent : v.Coherent := coherent_of_completeLoad h
  obtain ⟨hstate, rfl⟩ := of_guarded h
  refine step_of_edge (by rw [hstate]; decide) (fun hnot => ?_) fun _ => hcoherent
  rw [hstate] at hnot
  exact absurd rfl hnot

theorem step_of_failLoad (h : u.failLoad = .ok v) : Step u v := by
  have hcoherent : v.Coherent := coherent_of_failLoad h
  obtain ⟨hstate, rfl⟩ := of_guarded h
  exact step_of_edge (by rw [hstate]; decide) (fun _ => rfl) fun _ => hcoherent

theorem step_of_assignRemotePath {path : String} (h : u.assignRemotePath path = .ok v) :
    Step u v := by
  have hcoherent (hu : u.Coherent) : v.Coherent := hu.assignRemotePath h
  unfold assignRemotePath at h
  split at h
  · cases h
  · next hnone =>
    cases h
    refine ⟨⟨rfl, rfl, rfl, fun hsome => ?_⟩, fun _ => rfl, .inl rfl, hcoherent⟩
    rw [hnone] at hsome
    cases hsome

theorem step_of_beginStage {request : StageRequest} (h : u.beginStage = .ok (request, v)) :
    Step u v := by
  have hcoherent : v.Coherent := coherent_of_beginStage h
  unfold beginStage at h
  split_ifs at h with hstate
  · split at h
    · cases h
      exact step_of_edge (by rw [hstate]; decide) (fun _ => rfl) fun _ => hcoherent
    · cases h
  · cases h

theorem step_of_completeStage (h : u.completeStage = .ok v) : Step u v := by
  have hcoherent (hu : u.Coherent) : v.Coherent := hu.completeStage h
  obtain ⟨hstate, rfl⟩ := of_guarded h
  exact step_of_edge (by rw [hstate]; decide) (fun _ => rfl) hcoherent

theorem step_of_failStage (h : u.failStage = .ok v) : Step u v := by
  have hcoherent (hu : u.Coherent) : v.Coherent := hu.failStage h
  obtain ⟨hstate, rfl⟩ := of_guarded h
  exact step_of_edge (by rw [hstate]; decide) (fun _ => rfl) hcoherent

/-- A copy is given up also where the disk does not delete it. -/
theorem step_releaseLocal (u : OutgoingUnit) (disk : Disk) : Step u (u.releaseLocal disk).2.1 := by
  have hcoherent (hu : u.Coherent) : (u.releaseLocal disk).2.1.Coherent := hu.releaseLocal disk
  have hreleased : ∃ localPath, (u.releaseLocal disk).2.1 = { u with localPath } := by
    unfold releaseLocal
    split_ifs
    · split
      · exact ⟨_, rfl⟩
      · dsimp only
        split
        · exact ⟨_, rfl⟩
        · exact ⟨_, rfl⟩
    · exact ⟨_, rfl⟩
  obtain ⟨localPath, heq⟩ := hreleased
  rw [heq] at hcoherent ⊢
  exact ⟨⟨rfl, rfl, rfl, fun _ => rfl⟩, fun _ => rfl, .inl rfl, hcoherent⟩

theorem step_call {α : Type} (call : Call α) (unit : OutgoingUnit) (disk : Disk) :
    Step unit (call.method.after unit disk) := by
  rw [Call.method_eq_operation]
  have hrefl : Step unit unit := .refl unit
  cases call with
  | setSize size =>
    exact Method.after_atOnce_map (·.setSize size) hrefl (fun _ => step_of_setSize) disk
  | beginLoad => exact Method.after_atOnce beginLoad hrefl (fun _ _ => step_of_beginLoad) disk
  | completeLoad copy =>
    exact Method.after_atOnce_map (·.completeLoad copy) hrefl (fun _ => step_of_completeLoad) disk
  | failLoad => exact Method.after_atOnce_map failLoad hrefl (fun _ => step_of_failLoad) disk
  | assignRemotePath path =>
    exact Method.after_atOnce_map (·.assignRemotePath path) hrefl
      (fun _ => step_of_assignRemotePath) disk
  | beginStage => exact Method.after_atOnce beginStage hrefl (fun _ _ => step_of_beginStage) disk
  | completeStage =>
    exact Method.after_atOnce_map completeStage hrefl (fun _ => step_of_completeStage) disk
  | failStage => exact Method.after_atOnce_map failStage hrefl (fun _ => step_of_failStage) disk
  | releaseLocal =>
    have hreleased : (Call.operation .releaseLocal).after unit disk =
        (unit.releaseLocal disk).2.1 := by
      simp only [Method.after, EStateM.run, Call.operation]
      rcases unit.releaseLocal disk with ⟨_ | _, _⟩ <;> rfl
    rw [hreleased]
    exact step_releaseLocal unit disk

/-! ## The phases -/

/-- What an operation or a phase makes of a unit: if the unit is coherent, this. -/
def Turned (u v : OutgoingUnit) : Prop :=
  u.Coherent → Course u v ∧ (¬u.state.isPreTransfer → v.size = u.size)

theorem turned_refl (u : OutgoingUnit) : Turned u u :=
  fun _ => ⟨⟨u, .refl, .inl rfl⟩, fun _ => rfl⟩

theorem Step.turned (h : Step u v) : Turned u v :=
  fun _ => ⟨⟨v, .single h, .inl rfl⟩, h.size_eq⟩

/-- A unit that a phase began with before any byte had left the device. -/
theorem turned_of_course (hstate : u.state.isPreTransfer) (h : u.Coherent → Course u v) :
    Turned u v :=
  fun hu => ⟨h hu, fun hnot => absurd hstate hnot⟩

/-- A step that goes no further than loaded. -/
def LoadStep (u v : OutgoingUnit) : Prop :=
  Step u v ∧ v.state.isPreTransfer

/-- A step that leaves a unit its copy. -/
def StageStep (u v : OutgoingUnit) : Prop :=
  Step u v ∧ v.localPath = u.localPath

theorem steps_of_and {P : OutgoingUnit → OutgoingUnit → Prop}
    (h : ReflTransGen (fun u v => Step u v ∧ P u v) u v) : ReflTransGen Step u v := by
  induction h with
  | refl => exact .refl
  | tail _ hstep ih => exact ih.tail hstep.1

theorem isPreTransfer_of_steps (hu : u.state.isPreTransfer)
    (h : ReflTransGen LoadStep u v) : v.state.isPreTransfer := by
  cases h with
  | refl => exact hu
  | tail _ hstep => exact hstep.2

theorem localPath_of_steps (h : ReflTransGen StageStep u v) : v.localPath = u.localPath := by
  induction h with
  | refl => rfl
  | tail _ hstep ih => exact hstep.2.trans ih

theorem isPreTransfer_of_beginLoad {request : LoadRequest} (h : u.beginLoad = .ok (request, v)) :
    v.state.isPreTransfer := by
  obtain ⟨-, hbegun⟩ := of_guarded h
  cases hbegun
  rfl

theorem isPreTransfer_of_completeLoad {copy : LocalCopy} (h : u.completeLoad copy = .ok v) :
    v.state.isPreTransfer := by
  obtain ⟨-, rfl⟩ := of_guarded h
  rfl

theorem isPreTransfer_of_failLoad (h : u.failLoad = .ok v) : v.state.isPreTransfer := by
  obtain ⟨-, rfl⟩ := of_guarded h
  rfl

theorem step_ensureRemotePath (batch : String) (u : OutgoingUnit) :
    Step u (Phase.ensureRemotePath batch u) := by
  unfold Phase.ensureRemotePath
  split
  · next h => exact step_of_assignRemotePath h
  · exact .refl u

/-- Taking staging back from a unit that still has its copy. -/
theorem rollbackStage_eq_or_back (hlocal : u.localPath.isSome) :
    u.rollbackStage = u ∨ Back u u.rollbackStage := by
  unfold rollbackStage
  split
  · next hstate => exact .inr (.stage (.inl hstate) hlocal)
  · next hstate => exact .inr (.stage (.inr hstate) hlocal)
  · exact .inl rfl

end OutgoingUnit

namespace Phase

open OutgoingUnit

/-- Loading goes no further than loaded, so that it may be taken back. -/
theorem steps_attempt_load (settings : Settings) (batch : OutgoingBatch) (disk : Disk) :
    Forall₂ (ReflTransGen LoadStep) batch.units
      (attempt (loadSteps settings) settings.maxConcurrentUnits.toNat batch disk).2.1.units :=
  forall₂_attempt (loadSteps settings) _ (fun _ _ h => h.1.id_eq)
    (fun _ _ _ h => ⟨step_of_beginLoad h, isPreTransfer_of_beginLoad h⟩)
    (fun _ _ _ h => ⟨step_of_completeLoad h, isPreTransfer_of_completeLoad h⟩)
    (fun _ _ h => ⟨step_of_failLoad h, isPreTransfer_of_failLoad h⟩) _ batch disk

theorem back_rollbackLoad (units : List OutgoingUnit) (disk : Disk) :
    Forall₂ (fun w v => w.state.isPreTransfer → Back w v) units
      (forAll OutgoingUnit.rollbackLoad units disk).1 := by
  refine forall₂_forAll (fun w disk hstate => ?_) units disk
  rw [rollbackLoad_eq]
  exact .load hstate

theorem turned_runLoad (settings : Settings) (batch : OutgoingBatch) (disk : Disk) :
    Forall₂ Turned batch.units (runLoad settings batch disk).2.1.units := by
  unfold runLoad
  split
  · exact forall₂_same.2 fun u _ => turned_refl u
  · next hrequire =>
    have hpicked : ∀ u ∈ batch.units, u.state.isPreTransfer := fun u hu => by
      rw [show u.state = .picked from forall_of_requireAll hrequire u hu]
      rfl
    -- Every unit is picked before and no further than loaded after, so loading may be taken back.
    have hattempt := (forall₂_and_left _ _).2 ⟨hpicked, steps_attempt_load settings batch disk⟩
    have hkept := hattempt.imp fun u v h =>
      turned_of_course h.1 fun _ => ⟨v, steps_of_and h.2, .inl rfl⟩
    split
    · next heq =>
      rw [heq] at hkept
      exact hkept
    · next heq =>
      rw [heq] at hattempt hkept
      split
      · exact hkept
      · refine forall₂_trans (fun u w v h hback => ?_) hattempt (back_rollbackLoad _ _)
        have hw := isPreTransfer_of_steps h.1 h.2
        exact turned_of_course h.1 fun _ => ⟨w, steps_of_and h.2, .inr (hback hw)⟩

section Stage

variable {σ : Type} [Services σ]

/-- Staging keeps the copy of a unit, so that it may be taken back. -/
theorem steps_attempt_stage (limit : Nat) (batch : OutgoingBatch) (world : World σ) :
    Forall₂ (ReflTransGen StageStep) batch.units
      (attempt stageSteps limit batch world).2.1.units :=
  forall₂_attempt stageSteps _ (fun _ _ h => h.1.id_eq)
    (fun _ _ _ h => ⟨step_of_beginStage h, localPath_of_beginStage h⟩)
    (fun _ _ _ h => ⟨step_of_completeStage h, localPath_of_completeStage h⟩)
    (fun _ _ h => ⟨step_of_failStage h, localPath_of_failStage h⟩) limit batch world

theorem back_rollbackStaging (batch : OutgoingBatch) :
    Forall₂ (fun w v => w.localPath.isSome → v = w ∨ Back w v) batch.units
      (rollbackStaging batch).units := by
  unfold rollbackStaging
  rw [forall₂_map_right_iff]
  exact forall₂_same.2 fun w _ => rollbackStage_eq_or_back

theorem steps_publish (settings : Settings) (entries : List JournalEntry) (batch : OutgoingBatch)
    (world : World σ) :
    Forall₂ (fun w v => w.localPath.isSome → Course w v) batch.units
      (publish settings entries batch world).2.1.units := by
  have hkept : Forall₂ (fun w v => w.localPath.isSome → Course w v) batch.units batch.units :=
    forall₂_same.2 fun w _ _ => ⟨w, .refl, .inl rfl⟩
  unfold publish
  split
  · exact hkept
  · split
    · exact (back_rollbackStaging batch).imp fun w v h hlocal => ⟨w, .refl, h hlocal⟩
    · dsimp only
      split
      · refine forall₂_forAll (fun w disk _ => ?_) _ _
        exact ⟨_, .single (step_releaseLocal w disk), .inl rfl⟩
      · exact hkept

/-- A loaded unit that was staged, once all that its batch is to do is done or taken back. -/
theorem turned_of_staging {u w v : OutgoingUnit} (hstate : u.state = .loaded)
    (hsteps : ReflTransGen StageStep u w) (h : w.localPath.isSome → Course w v) : Turned u v := by
  refine turned_of_course (by rw [hstate]; rfl) fun hu => ?_
  have hlocal : w.localPath.isSome :=
    localPath_of_steps hsteps ▸ hu.localPath_isSome (.inl hstate)
  obtain ⟨w', hsteps', hend⟩ := h hlocal
  exact ⟨w', (steps_of_and hsteps).trans hsteps', hend⟩

theorem turned_runStage (settings : Settings) (batch : OutgoingBatch) (world : World σ) :
    Forall₂ Turned batch.units (runStage settings batch world).2.1.units := by
  unfold runStage
  split
  · exact forall₂_same.2 fun u _ => turned_refl u
  · next hrequire =>
    have hloaded : ∀ u ∈ batch.units, u.state = .loaded := forall_of_requireAll hrequire
    -- Assigning a remote path is a step of staging too, and leaves the copy where it is.
    have hpaths : Forall₂ (ReflTransGen StageStep) batch.units (withRemotePaths batch).units := by
      unfold withRemotePaths
      rw [forall₂_map_right_iff]
      refine forall₂_same.2 fun u _ => .single ⟨step_ensureRemotePath batch.id u, ?_⟩
      rw [ensureRemotePath_eq]
    have hattempt :=
      steps_attempt_stage settings.maxConcurrentUnits.toNat (withRemotePaths batch) world
    have hsteps := (forall₂_and_left _ _).2
      ⟨hloaded, forall₂_trans (fun _ _ _ h h' => h.trans h') hpaths hattempt⟩
    rw [← withRemotePaths]
    dsimp only
    split
    · next heq =>
      rw [heq] at hsteps
      exact hsteps.imp fun u v h => turned_of_staging h.1 h.2 fun _ => ⟨v, .refl, .inl rfl⟩
    · next heq =>
      rw [heq] at hsteps
      split
      · refine forall₂_trans (fun u w v h hpublished => ?_) hsteps (steps_publish settings _ _ _)
        exact turned_of_staging h.1 h.2 hpublished
      · refine forall₂_trans (fun u w v h hback => ?_) hsteps (back_rollbackStaging _)
        exact turned_of_staging h.1 h.2 fun hlocal => ⟨w, .refl, hback hlocal⟩

end Stage

end Phase

/-! ## Outgoing units from first to last -/

namespace OutgoingUnit

/-- One operation on a unit, taken or refused, or one phase of a batch that the unit is in, whatever
comes of it and whatever the other units are. -/
inductive Turn : OutgoingUnit → OutgoingUnit → Prop
  | call {α : Type} (call : Call α) (unit : OutgoingUnit) (disk : Disk) :
      Turn unit (call.method.after unit disk)
  | load (settings : Settings) (batch : OutgoingBatch) (disk : Disk) {u v : OutgoingUnit} :
      (u, v) ∈ batch.units.zip (Phase.runLoad settings batch disk).2.1.units → Turn u v
  | stage {σ : Type} [Services σ] (settings : Settings) (batch : OutgoingBatch) (world : World σ)
      {u v : OutgoingUnit} :
      (u, v) ∈ batch.units.zip (Phase.runStage settings batch world).2.1.units → Turn u v

/-- The units that come about. -/
def Met (u : OutgoingUnit) : Prop :=
  ∃ id source contentType, ReflTransGen Turn (pick id source contentType) u

variable {u v : OutgoingUnit}

theorem Turn.turned (h : Turn u v) : Turned u v := by
  cases h with
  | call call unit disk => exact (step_call call _ disk).turned
  | load settings batch disk hmem =>
    exact forall₂_zip (Phase.turned_runLoad settings batch disk) hmem
  | stage settings batch world hmem =>
    exact forall₂_zip (Phase.turned_runStage settings batch world) hmem

theorem coherent_of_turns (h : ReflTransGen Turn u v) (hu : u.Coherent) : v.Coherent := by
  induction h with
  | refl => exact hu
  | tail _ hturn ih => exact (hturn.turned ih).1.coherent ih

theorem same_of_turns (h : ReflTransGen Turn u v) (hu : u.Coherent) : Same u v := by
  induction h with
  | refl => exact .refl u
  | tail hturns hturn ih =>
    exact ih.trans (hturn.turned (coherent_of_turns hturns hu)).1.same

theorem Met.coherent (h : u.Met) : u.Coherent := by
  obtain ⟨id, source, contentType, hturns⟩ := h
  exact coherent_of_turns hturns (coherent_pick id source contentType)

/-- A loaded unit lacks nothing but a remote path, if anything. -/
theorem Coherent.beginStage_eq_error_iff (h : u.Coherent) (hstate : u.state = .loaded) :
    (∃ failure, u.beginStage = .error failure) ↔ u.remotePath = none := by
  obtain ⟨localPath, hlocal⟩ := Option.isSome_iff_exists.1 (h.localPath_isSome (.inl hstate))
  unfold beginStage
  rw [if_pos hstate, hlocal]
  cases u.remotePath with
  | none => exact iff_of_true ⟨_, rfl⟩ rfl
  | some remotePath =>
    refine iff_of_false ?_ (Option.some_ne_none remotePath)
    rintro ⟨failure, ⟨⟩⟩

end OutgoingUnit

end PeerTransfer
