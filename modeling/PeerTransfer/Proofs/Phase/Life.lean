import PeerTransfer.Proofs.Phase.Course
import PeerTransfer.Services.InMemory

/-!
# Units from first to last

Incoming units change less than outgoing ones: a download and its being taken back are steps that
keep what was announced (`IncomingUnit.Step`). So for both kinds of units it can be told what holds
of them whatever operations and phases they go through (`life_of_units`).
-/

namespace PeerTransfer

open List Relation

/-! ## Outgoing units -/

/-- A batch that staging takes up has no unit that refuses to begin. -/
theorem Phase.startAll_withRemotePaths {batch : OutgoingBatch}
    (h : ∀ u ∈ batch.units, u.Coherent)
    (hrequire : requireAll .stage OutgoingState.loaded batch = .ok ()) :
    ∃ requests, (startAll OutgoingUnit.beginStage (withRemotePaths batch).units).1 =
      .ok requests := by
  have hstate : ∀ u ∈ batch.units, u.state = .loaded := forall_of_requireAll hrequire
  have hready := isStageable_withRemotePaths hstate fun u hu =>
    (h u hu).localPath_isSome (.inl (hstate u hu))
  -- To begin asks no service, so the law of staging with any services will do.
  exact ⟨_, congrArg Prod.fst (startAll_of_ready (stageLaw (σ := InMemory)) hready)⟩

namespace OutgoingUnit

/-- What holds of a unit at every moment, and of all that becomes of it. -/
structure Lasting (u : OutgoingUnit) : Prop where
  coherent : u.Coherent
  same (v : OutgoingUnit) : ReflTransGen Turn u v → Same u v
  step {α : Type} (call : Call α) (disk : Disk) : Step u (call.method.after u disk)
  course (v : OutgoingUnit) : Turn u v → Course u v
  size_eq (v : OutgoingUnit) : Turn u v → u.state = .staging ∨ u.state = .staged → v.size = u.size
  beginStage_eq_error_iff : u.state = .loaded →
    ((∃ failure, u.beginStage = .error failure) ↔ u.remotePath = none)

theorem Coherent.lasting {u : OutgoingUnit} (h : u.Coherent) : u.Lasting where
  coherent := h
  same v hturns := same_of_turns hturns h
  step call disk := step_call call u disk
  course v hturn := (hturn.turned h).1
  size_eq v hturn hstate :=
    (hturn.turned h).2 (by rcases hstate with hstate | hstate <;> rw [hstate] <;> decide)
  beginStage_eq_error_iff := h.beginStage_eq_error_iff

end OutgoingUnit

/-! ## Incoming units -/

namespace IncomingUnit

/-- What nothing changes. -/
structure Same (u v : IncomingUnit) : Prop where
  id_eq : v.id = u.id
  name_eq : v.name = u.name
  remotePath_eq : v.remotePath = u.remotePath
  contentType_eq : v.contentType = u.contentType

/-- A unit has a file if it is downloaded, and only then. -/
def Filed (u : IncomingUnit) : Prop :=
  u.localPath.isSome ↔ u.state = .downloaded

/-- What one operation, or the taking back of a download, may make of a unit. -/
structure Step (u v : IncomingUnit) : Prop extends Same u v where
  filed : u.Filed → v.Filed

variable {u v w : IncomingUnit}

theorem Same.refl (u : IncomingUnit) : Same u u :=
  ⟨rfl, rfl, rfl, rfl⟩

theorem Same.trans (h : Same u v) (h' : Same v w) : Same u w where
  id_eq := h'.id_eq.trans h.id_eq
  name_eq := h'.name_eq.trans h.name_eq
  remotePath_eq := h'.remotePath_eq.trans h.remotePath_eq
  contentType_eq := h'.contentType_eq.trans h.contentType_eq

theorem Step.refl (u : IncomingUnit) : Step u u :=
  ⟨.refl u, fun h => h⟩

theorem same_of_steps (h : ReflTransGen Step u v) : Same u v := by
  induction h with
  | refl => exact .refl u
  | tail _ hstep ih => exact ih.trans hstep.toSame

theorem filed_of_steps (h : ReflTransGen Step u v) (hu : u.Filed) : v.Filed := by
  induction h with
  | refl => exact hu
  | tail _ hstep ih => exact hstep.filed ih

theorem Filed.localPath_eq_none (h : u.Filed) (hstate : u.state ≠ .downloaded) :
    u.localPath = none :=
  Option.not_isSome_iff_eq_none.1 (mt h.1 hstate)

/-- A unit without a file in any state before it is downloaded. -/
theorem filed_of_eq_none (hlocal : u.localPath = none) (hstate : u.state ≠ .downloaded) :
    u.Filed := by
  unfold Filed
  rw [hlocal]
  exact iff_of_false Bool.false_ne_true hstate

theorem step_of_setSize {size : UInt64} (h : u.setSize size = .ok v) : Step u v := by
  obtain ⟨-, rfl⟩ := of_guarded h
  exact ⟨⟨rfl, rfl, rfl, rfl⟩, fun hu => hu⟩

theorem step_of_beginDownload {request : DownloadRequest}
    (h : u.beginDownload = .ok (request, v)) : Step u v := by
  obtain ⟨hstate, hbegun⟩ := of_guarded h
  cases hbegun
  refine ⟨⟨rfl, rfl, rfl, rfl⟩, fun hu => filed_of_eq_none ?_ nofun⟩
  exact hu.localPath_eq_none (by rw [hstate]; nofun)

theorem step_of_completeDownload {path : Path} (h : u.completeDownload path = .ok v) :
    Step u v := by
  obtain ⟨-, rfl⟩ := of_guarded h
  exact ⟨⟨rfl, rfl, rfl, rfl⟩, fun _ => iff_of_true rfl rfl⟩

theorem step_of_failDownload (h : u.failDownload = .ok v) : Step u v := by
  obtain ⟨hstate, rfl⟩ := of_guarded h
  refine ⟨⟨rfl, rfl, rfl, rfl⟩, fun hu => filed_of_eq_none ?_ nofun⟩
  exact hu.localPath_eq_none (by rw [hstate]; nofun)

theorem step_rollbackDownload (u : IncomingUnit) (disk : Disk) :
    Step u (u.rollbackDownload disk).1 := by
  unfold rollbackDownload
  split
  · next hlocal => exact ⟨⟨rfl, rfl, rfl, rfl⟩, fun _ => filed_of_eq_none hlocal nofun⟩
  · exact ⟨⟨rfl, rfl, rfl, rfl⟩, fun _ => filed_of_eq_none rfl nofun⟩

theorem step_call {α : Type} (call : Call α) (unit : IncomingUnit) (disk : Disk) :
    Step unit (call.method.after unit disk) := by
  rw [Call.method_eq_operation]
  have hrefl : Step unit unit := .refl unit
  cases call with
  | setSize size =>
    exact Method.after_atOnce_map (·.setSize size) hrefl (fun _ => step_of_setSize) disk
  | beginDownload =>
    exact Method.after_atOnce beginDownload hrefl (fun _ _ => step_of_beginDownload) disk
  | completeDownload path =>
    exact Method.after_atOnce_map (·.completeDownload path) hrefl
      (fun _ => step_of_completeDownload) disk
  | failDownload =>
    exact Method.after_atOnce_map failDownload hrefl (fun _ => step_of_failDownload) disk

end IncomingUnit

theorem Phase.steps_runDownload {σ : Type} [Services σ] (settings : Settings)
    (batch : IncomingBatch) (world : World σ) :
    Forall₂ (ReflTransGen IncomingUnit.Step) batch.units
      (runDownload settings batch world).2.1.units := by
  have hattempt := forall₂_attempt (downloadSteps (σ := σ) settings) IncomingUnit.Step
    (fun _ _ h => h.id_eq) (fun _ _ _ => IncomingUnit.step_of_beginDownload)
    (fun _ _ _ => IncomingUnit.step_of_completeDownload)
    (fun _ _ => IncomingUnit.step_of_failDownload) settings.maxConcurrentUnits.toNat batch world
  unfold runDownload
  split
  · exact forall₂_refl _
  · split
    · next heq =>
      rw [heq] at hattempt
      exact hattempt
    · next heq =>
      rw [heq] at hattempt
      split
      · exact hattempt
      · refine forall₂_trans (fun u w v h hback => h.tail hback) hattempt ?_
        exact forall₂_forAll IncomingUnit.step_rollbackDownload _ _

namespace IncomingUnit

/-- One operation on a unit, taken or refused, or one download of a batch that the unit is in,
whatever comes of it and whatever the other units are. -/
inductive Turn : IncomingUnit → IncomingUnit → Prop
  | call {α : Type} (call : Call α) (unit : IncomingUnit) (disk : Disk) :
      Turn unit (call.method.after unit disk)
  | download {σ : Type} [Services σ] (settings : Settings) (batch : IncomingBatch)
      (world : World σ) {u v : IncomingUnit} :
      (u, v) ∈ batch.units.zip (Phase.runDownload settings batch world).2.1.units → Turn u v

/-- The units that come about. -/
def Met (u : IncomingUnit) : Prop :=
  ∃ id name remotePath contentType size,
    ReflTransGen Turn (announced id name remotePath contentType size) u

variable {u v : IncomingUnit}

theorem Turn.steps (h : Turn u v) : ReflTransGen Step u v := by
  cases h with
  | call call unit disk => exact .single (step_call call _ disk)
  | download settings batch world hmem =>
    exact forall₂_zip (Phase.steps_runDownload settings batch world) hmem

theorem steps_of_turns (h : ReflTransGen Turn u v) : ReflTransGen Step u v := by
  induction h with
  | refl => exact .refl
  | tail _ hturn ih => exact ih.trans hturn.steps

theorem Met.filed (h : u.Met) : u.Filed := by
  obtain ⟨id, name, remotePath, contentType, size, hturns⟩ := h
  exact filed_of_steps (steps_of_turns hturns) (filed_of_eq_none rfl nofun)

end IncomingUnit

/-! ## Both -/

/-- Whatever operations and phases a unit goes through, taken, refused or failed: an outgoing unit
has the paths that its state promises, it stays what it is about, its state follows the edges but
for what phases take back, and staging is refused to a loaded unit for want of a remote path alone
— which in the staging of a batch never is wanting. An incoming unit has a file if and only if it is
downloaded, and stays what was announced. -/
theorem life_of_units :
    (∀ u : OutgoingUnit, u.Met → u.Lasting) ∧
    (∀ batch : OutgoingBatch, (∀ u ∈ batch.units, u.Met) →
      Phase.requireAll .stage OutgoingState.loaded batch = .ok () →
      ∃ requests, (Phase.startAll OutgoingUnit.beginStage (Phase.withRemotePaths batch).units).1 =
        .ok requests) ∧
    ∀ u : IncomingUnit, u.Met →
      u.Filed ∧ ∀ v, ReflTransGen IncomingUnit.Turn u v → IncomingUnit.Same u v := by
  refine ⟨fun u hu => hu.coherent.lasting, fun batch hbatch => ?_, fun u hu => ⟨hu.filed, ?_⟩⟩
  · exact Phase.startAll_withRemotePaths fun u hu => (hbatch u hu).coherent
  · exact fun v hturns => IncomingUnit.same_of_steps (IncomingUnit.steps_of_turns hturns)

/-- A unit that was loaded has a copy, keeps what it is about, and lacks a remote path, but a batch
of it is staged. A unit that was downloaded has a file. -/
theorem life_of_units_fetched :
    let loaded : OutgoingUnit := ⟨Uuid.zero, ⟨"x"⟩, some ⟨"s/0"⟩, none, "text/plain", 2, .loaded⟩
    let downloaded : IncomingUnit :=
      ⟨Uuid.zero, "x", "b/x", "text/plain", 2, some ⟨"d/0"⟩, .downloaded⟩
    loaded.localPath.isSome ∧ (∃ failure, loaded.beginStage = .error failure) ∧
      (∀ v, OutgoingUnit.Turn loaded v → v.source = ⟨"x"⟩) ∧
      (∃ requests, (Phase.startAll OutgoingUnit.beginStage
        (Phase.withRemotePaths ⟨"b", none, "s", "r", [loaded], none⟩).units).1 = .ok requests) ∧
      downloaded.localPath.isSome := by
  intro loaded downloaded
  have hloaded : loaded.Met := ⟨Uuid.zero, ⟨"x"⟩, "text/plain",
    .tail (.single (.call .beginLoad _ Disk.empty))
      (.call (.completeLoad ⟨⟨"s/0"⟩, 2⟩) _ Disk.empty)⟩
  have hdownloaded : downloaded.Met := ⟨Uuid.zero, "x", "b/x", "text/plain", 2,
    .tail (.single (.call .beginDownload _ Disk.empty))
      (.call (.completeDownload ⟨"d/0"⟩) _ Disk.empty)⟩
  obtain ⟨houtgoing, hbatch, hincoming⟩ := life_of_units
  have hlasting := houtgoing loaded hloaded
  refine ⟨hlasting.coherent.localPath_isSome (.inl rfl),
    (hlasting.beginStage_eq_error_iff rfl).2 rfl, fun v hturn => ?_,
    hbatch _ (by simpa using hloaded) rfl, (hincoming downloaded hdownloaded).1.2 rfl⟩
  exact (hlasting.same v (.single hturn)).source_eq

end PeerTransfer
