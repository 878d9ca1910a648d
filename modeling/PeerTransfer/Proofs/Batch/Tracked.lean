import PeerTransfer.Proofs.Batch.Sound
import PeerTransfer.Proofs.Phase.Ends

/-!
# What an outgoing batch can be told to own

Between phases an outgoing batch has a reference just if its units are staged, and its units have no
local copy and no remote path but those that are theirs by their ids. A batch is so when it is
picked, and loading and staging leave it so.
-/

namespace PeerTransfer.Batch

open List

theorem SoundOutgoing.localPath_isSome {batch : OutgoingBatch} (h : batch.SoundOutgoing)
    (hstate : ∀ u ∈ batch.units, u.state = .loaded) : ∀ u ∈ batch.units, u.localPath.isSome :=
  fun u hu => (h.coherent u hu).localPath_isSome (.inl (hstate u hu))

/-- A batch that is not loaded is refused, and any other is staged to one of its ends. -/
theorem SoundOutgoing.runStage_cases {σ : Type} [Services σ] {batch : OutgoingBatch}
    (h : batch.SoundOutgoing) {settings : Settings} {world : World σ}
    (hended : (Phase.runStage settings batch world).1 ≠ .error .panicked) :
    (∃ failure, Phase.runStage settings batch world = (.error failure, batch, world)) ∨
      (∀ u ∈ batch.units, u.state = .loaded) ∧
        Phase.StageEnds settings batch world (Phase.runStage settings batch world) := by
  by_cases hstate : ∀ u ∈ batch.units, u.state = .loaded
  · have hlimit := (Phase.of_not_panicked_runStage h.coherent hended).resolve_right (by simpa)
    have hlocal := h.localPath_isSome hstate
    exact .inr ⟨hstate, Phase.stageEnds_runStage world hlimit hstate hlocal h.unit_ids⟩
  · push Not at hstate
    obtain ⟨u, -, hrun⟩ := Phase.runStage_of_exists settings world hstate
    exact .inl ⟨_, hrun⟩

/-- The reference and the paths that an outgoing batch may have between two phases. -/
structure Tracked (folder : Path) (batch : OutgoingBatch) : Prop where
  units_ne_nil : batch.units ≠ []
  staged_iff : ∀ u ∈ batch.units, u.state = .staged ↔ batch.reference.isSome
  localPath_eq : ∀ u ∈ batch.units, ∀ path, u.localPath = some path → path = u.targetIn folder
  remotePath_eq : ∀ u ∈ batch.units, ∀ path, u.remotePath = some path →
    path = Phase.remotePathFor batch.id u

theorem reference_of_build {U : Type} {draft : Draft U} {id : String} {batch : Batch U}
    (h : draft.build id = .ok batch) : batch.reference = none := by
  rw [eq_of_build h]

theorem tracked_of_pick (folder : Path) {draft : Draft OutgoingUnit} {id : String}
    {batch : OutgoingBatch} (h : draft.build id = .ok batch) {numbered : List (Uuid × Path)}
    (hunits : draft.units = numbered.map fun (id, source) => .ofPath id source) :
    batch.Tracked folder := by
  have hpicked : ∀ u ∈ batch.units, ∃ id source, u = .ofPath id source := by
    rw [(units_of_build h).2, hunits, forall_mem_map]
    exact fun (id, source) _ => ⟨id, source, rfl⟩
  refine ⟨(build_of_eq_ok h).1, ?_, ?_, ?_⟩
  · intro u hu
    obtain ⟨id, source, rfl⟩ := hpicked u hu
    rw [reference_of_build h]
    exact ⟨nofun, nofun⟩
  · intro u hu path hpath
    obtain ⟨id, source, rfl⟩ := hpicked u hu
    cases hpath
  · intro u hu path hpath
    obtain ⟨id, source, rfl⟩ := hpicked u hu
    cases hpath

namespace Tracked

variable {folder : Path} {batch : OutgoingBatch} {settings : Settings}

/-- A batch of which no unit is staged has no reference. -/
theorem reference_eq_none (h : batch.Tracked folder) {state : OutgoingState}
    (hstate : ∀ u ∈ batch.units, u.state = state) (hne : state ≠ .staged) :
    batch.reference = none := by
  obtain ⟨u, hu⟩ := exists_mem_of_ne_nil _ h.units_ne_nil
  have hnot : ¬batch.reference.isSome := by
    rw [← h.staged_iff u hu, hstate u hu]
    exact hne
  simpa using hnot

theorem runLoad (h : batch.Tracked settings.stagingFolder) (hsound : batch.SoundOutgoing)
    {disk : Disk} (hended : (Phase.runLoad settings batch disk).1 ≠ .error .panicked) :
    (Phase.runLoad settings batch disk).2.1.Tracked settings.stagingFolder := by
  have hbound := Phase.of_not_panicked_runLoad hended
  by_cases hstate : ∀ u ∈ batch.units, u.state = .picked
  · have hne := units_ne_nil_of_allOrNothing
      (Phase.allOrNothing_runLoad disk hsound.unit_ids hbound) h.units_ne_nil
    have hlimit := hbound.resolve_right (by simpa)
    obtain ⟨units, hbatch, hunits⟩ := Phase.units_runLoad hlimit disk hstate hsound.unit_ids
    have hnone := h.reference_eq_none hstate nofun
    rw [hbatch] at hne ⊢
    refine ⟨hne, ?_, ?_, ?_⟩
    · intro v hv
      change v.state = .staged ↔ batch.reference.isSome
      rw [hnone]
      obtain ⟨u, -, ⟨size, rfl⟩ | ⟨content, -, rfl⟩⟩ := hunits v hv <;> exact ⟨nofun, nofun⟩
    · intro v hv path hpath
      obtain ⟨u, -, ⟨size, rfl⟩ | ⟨content, -, rfl⟩⟩ := hunits v hv
      · cases hpath
      · cases hpath
        rfl
    · intro v hv path hpath
      obtain ⟨u, hu, ⟨size, rfl⟩ | ⟨content, -, rfl⟩⟩ := hunits v hv <;>
        exact h.remotePath_eq u hu path hpath
  · push Not at hstate
    obtain ⟨u, -, hrun⟩ := Phase.runLoad_of_exists settings disk hstate
    rw [hrun]
    exact h

/-- Whether or not it had one before, a unit is staged to the remote path that is its own. -/
theorem units_withRemotePaths (h : batch.Tracked folder) :
    (Phase.withRemotePaths batch).units =
      batch.units.map fun u => { u with remotePath := some (Phase.remotePathFor batch.id u) } := by
  apply map_congr_left
  intro u hu
  rw [Phase.ensureRemotePath_eq]
  cases hpath : u.remotePath with
  | none => rfl
  | some path =>
    rw [h.remotePath_eq u hu path hpath]
    rfl

theorem withRemotePaths (h : batch.Tracked folder) :
    (Phase.withRemotePaths batch).Tracked folder := by
  have hunits := h.units_withRemotePaths
  refine ⟨?_, ?_, ?_, ?_⟩
  · rw [hunits, ne_eq, map_eq_nil_iff]
    exact h.units_ne_nil
  · rw [hunits, forall_mem_map]
    exact h.staged_iff
  · rw [hunits, forall_mem_map]
    exact h.localPath_eq
  · rw [hunits, forall_mem_map]
    rintro u - path ⟨⟩
    rfl

/-- A batch is still tracked when it is handed over to the registry. -/
theorem handOver (h : batch.Tracked folder) (release : Bool) (reference : String) :
    Tracked folder { batch with
      reference := some reference
      units := batch.units.map (Phase.handOver release) } := by
  refine ⟨?_, ?_, ?_, ?_⟩
  · rw [ne_eq, map_eq_nil_iff]
    exact h.units_ne_nil
  · rw [forall_mem_map]
    exact fun u _ => ⟨fun _ => rfl, fun _ => rfl⟩
  · rw [forall_mem_map]
    intro u hu path hpath
    cases release with
    | true => cases hpath
    | false => exact h.localPath_eq u hu path hpath
  · rw [forall_mem_map]
    exact h.remotePath_eq

theorem runStage {σ : Type} [Services σ] (h : batch.Tracked settings.stagingFolder)
    (hsound : batch.SoundOutgoing) {world : World σ}
    (hended : (Phase.runStage settings batch world).1 ≠ .error .panicked) :
    (Phase.runStage settings batch world).2.1.Tracked settings.stagingFolder := by
  rcases hsound.runStage_cases hended with ⟨failure, hrun⟩ | ⟨-, hends⟩
  · rw [hrun]
    exact h
  · clear hended
    generalize Phase.runStage settings batch world = ended at hends ⊢
    cases hends with
    | unitsFailed | publishFailed => exact h.withRemotePaths
    | published => exact h.withRemotePaths.handOver _ _

end Tracked

end PeerTransfer.Batch
