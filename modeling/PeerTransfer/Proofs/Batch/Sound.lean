import PeerTransfer.Proofs.Batch.Identity
import PeerTransfer.Proofs.Phase.Received
import PeerTransfer.Proofs.Uuid.Fresh

/-!
# Batches between phases

Between two phases the units of a batch share one state, ids tell them apart, and outgoing units are
coherent. Batches are so when they are built, however they come about, and every phase leaves them
so, whatever becomes of it.
-/

namespace PeerTransfer

open List

namespace Batch

/-- All units of a batch are in the same state, which is one of these. -/
def Uniform {U S : Type} [Transferable U S] (states : List S) (batch : Batch U) : Prop :=
  ∃ state ∈ states, ∀ u ∈ batch.units, Transferable.state u = state

/-- An outgoing batch between two phases. -/
structure SoundOutgoing (batch : OutgoingBatch) : Prop where
  uniform : batch.Uniform [.picked, .loaded, .staged]
  unit_ids : (batch.units.map Transferable.id).Nodup
  coherent : ∀ u ∈ batch.units, u.Coherent

/-- An incoming batch between two phases. -/
structure SoundIncoming (batch : IncomingBatch) : Prop where
  uniform : batch.Uniform [.received, .downloaded]
  unit_ids : (batch.units.map Transferable.id).Nodup
  /-- What is not downloaded has no file. -/
  unfetched : ∀ u ∈ batch.units, u.state = .received → u.localPath = none

/-! ## Batches that come about -/

theorem soundOutgoing_of_pick {source : IdSource} {limit : Nat}
    (hdistinct : source.DistinctBelow limit) {sources : List Path}
    (hlimit : (source.drawFor sources).2.drawn ≤ limit) {batch : OutgoingBatch}
    (hunits : batch.units =
      (source.drawFor sources).1.map fun (id, path) => OutgoingUnit.ofPath id path) :
    batch.SoundOutgoing where
  uniform := by
    refine ⟨.picked, by decide, fun u hu => ?_⟩
    rw [hunits] at hu
    obtain ⟨⟨id, path⟩, -, rfl⟩ := mem_map.1 hu
    rfl
  unit_ids := by
    have hids := IdSource.nodup_drawFor hdistinct hlimit
    rw [hunits, map_map]
    exact hids
  coherent := by
    intro u hu
    rw [hunits] at hu
    obtain ⟨⟨id, path⟩, -, rfl⟩ := mem_map.1 hu
    exact OutgoingUnit.coherent_pick _ _ _

theorem precedes_ofWire (payload : Bytes) (sender receiver : String) (source : IdSource) :
    source.Precedes (ofWire payload sender receiver source).2 := by
  unfold ofWire
  split
  · exact .refl source
  · next records _ =>
    exact (IdSource.precedes_drawFor records source).trans (IdSource.precedes_draw _)

theorem localPath_of_ofWire {payload : Bytes} {sender receiver : String} {source : IdSource}
    {batch : IncomingBatch} (h : (ofWire payload sender receiver source).1 = .ok batch) :
    ∀ u ∈ batch.units, u.localPath = none := by
  unfold ofWire at h
  cases hdecode : Wire.decode payload with
  | error error =>
    rw [hdecode] at h
    cases h
  | ok records =>
    rw [hdecode] at h
    rw [(units_of_build h).2, forall_mem_map]
    exact fun _ _ => rfl

/-- A batch that came over a direct channel, under an id that was drawn for it. -/
theorem soundIncoming_of_ofWire {payload : Bytes} {sender receiver : String} {source : IdSource}
    {limit : Nat} (hdistinct : source.DistinctBelow limit)
    (hlimit : (ofWire payload sender receiver source).2.drawn ≤ limit) {batch : IncomingBatch}
    (h : (ofWire payload sender receiver source).1 = .ok batch) :
    batch.SoundIncoming ∧
      source.DrawnBetween (ofWire payload sender receiver source).2 batch.id := by
  have hlocal := localPath_of_ofWire h
  unfold ofWire at h hlimit ⊢
  cases hdecode : Wire.decode payload with
  | error error =>
    rw [hdecode] at h
    cases h
  | ok records =>
    simp only [hdecode] at h hlimit ⊢
    obtain ⟨hid, hunits⟩ := units_of_build h
    refine ⟨⟨⟨.received, by decide, fun u hu => ?_⟩, ?_, fun u hu _ => hlocal u hu⟩, ?_⟩
    · rw [hunits] at hu
      obtain ⟨⟨id, record⟩, -, rfl⟩ := mem_map.1 hu
      rfl
    · have hids := IdSource.nodup_drawFor hdistinct ((Nat.le_succ _).trans hlimit)
      rw [hunits, map_map]
      exact hids
    · rw [hid]
      exact IdSource.drawnBetween_draw (IdSource.precedes_drawFor records source)

theorem soundIncoming_of_ofDescriptor {descriptor : Descriptor} {sender receiver : String}
    {batch : IncomingBatch} (hkeys : (descriptor.units.keys.map Uuid.parse?).Nodup)
    (h : ofDescriptor descriptor sender receiver = .ok batch) : batch.SoundIncoming where
  uniform := ⟨.received, by decide, (ofDescriptor_units h).2.2⟩
  unit_ids := (nodup_ids_ofDescriptor_iff h).2 hkeys
  unfetched u hu _ := localPath_of_ofDescriptor h u hu

/-! ## Batches that a phase leaves -/

section AllOrNothing

variable {U S α W : Type} [Transferable U S] {required done : S} {batch : Batch U} {world : W}
  {results : List (Uuid × Except Failure α)} {refusal : Option Failure}
  {ended : Except Failure PhaseReport × Batch U × W}

/-- A phase that is all or nothing ends where it began or where it leads to. -/
theorem uniform_of_allOrNothing
    (h : Phase.AllOrNothing required done batch world results refusal ended) {states : List S}
    (hrequired : required ∈ states) (hdone : done ∈ states) (hbatch : batch.Uniform states) :
    ended.2.1.Uniform states := by
  cases hreport : ended.1 with
  | error failure => rwa [(h.of_refused failure hreport).2]
  | ok report =>
    by_cases hadvanced : report.outcome = .advanced
    · exact ⟨done, hdone, h.of_advanced report hreport hadvanced⟩
    · exact ⟨required, hrequired, h.of_not_advanced report hreport hadvanced⟩

theorem units_ne_nil_of_allOrNothing
    (h : Phase.AllOrNothing required done batch world results refusal ended)
    (hbatch : batch.units ≠ []) : ended.2.1.units ≠ [] := by
  intro hnil
  have hids := h.unit_ids_eq
  rw [hnil, map_nil] at hids
  exact hbatch (map_eq_nil_iff.1 hids.symm)

end AllOrNothing

theorem SoundOutgoing.runLoad {batch : OutgoingBatch} (h : batch.SoundOutgoing)
    {settings : Settings} {disk : Disk}
    (hended : (Phase.runLoad settings batch disk).1 ≠ .error .panicked) :
    (Phase.runLoad settings batch disk).2.1.SoundOutgoing :=
  have hphase := Phase.allOrNothing_runLoad disk h.unit_ids (Phase.of_not_panicked_runLoad hended)
  { uniform := uniform_of_allOrNothing hphase (by decide) (by decide) h.uniform
    unit_ids := hphase.unit_ids_eq ▸ h.unit_ids
    coherent := Phase.coherent_runLoad settings disk h.coherent }

variable {σ : Type} [Services σ]

theorem SoundOutgoing.runStage {batch : OutgoingBatch} (h : batch.SoundOutgoing)
    {settings : Settings} {world : World σ}
    (hended : (Phase.runStage settings batch world).1 ≠ .error .panicked) :
    (Phase.runStage settings batch world).2.1.SoundOutgoing :=
  have hphase := Phase.allOrNothing_runStage world h.unit_ids h.coherent
    (Phase.of_not_panicked_runStage h.coherent hended)
  { uniform := uniform_of_allOrNothing hphase (by decide) (by decide) h.uniform
    unit_ids := hphase.unit_ids_eq ▸ h.unit_ids
    coherent := Phase.coherent_runStage settings world h.coherent }

/-- A download leaves no unit a file that is not downloaded, also where the ids of units do not tell
them apart. -/
theorem unfetched_runDownload {batch : IncomingBatch}
    (h : ∀ u ∈ batch.units, u.state = .received → u.localPath = none) (settings : Settings)
    (world : World σ) :
    ∀ u ∈ (Phase.runDownload settings batch world).2.1.units,
      u.state = .received → u.localPath = none := by
  by_cases hstate : ∀ u ∈ batch.units, u.state = .received
  · have hunfetched : ∀ u ∈ batch.units, u.Unfetched := fun u hu _ => h u hu (hstate u hu)
    intro u hu hreceived
    exact Phase.unfetched_runDownload settings world hunfetched u hu (by simp [hreceived])
  · push Not at hstate
    obtain ⟨u, -, hrequire⟩ := Phase.requireAll_of_exists .download hstate
    unfold Phase.runDownload
    rw [hrequire]
    exact h

theorem SoundIncoming.runDownload {batch : IncomingBatch} (h : batch.SoundIncoming)
    {settings : Settings} {world : World σ}
    (hended : (Phase.runDownload settings batch world).1 ≠ .error .panicked) :
    (Phase.runDownload settings batch world).2.1.SoundIncoming :=
  have hphase := Phase.allOrNothing_runDownload world h.unit_ids
    (Phase.of_not_panicked_runDownload hended)
  { uniform := uniform_of_allOrNothing hphase (by decide) (by decide) h.uniform
    unit_ids := hphase.unit_ids_eq ▸ h.unit_ids
    unfetched := unfetched_runDownload h.unfetched settings world }

theorem foldl_least_of_forall {S : Type} [Progress S] {state : S} {states : List S}
    (h : ∀ t ∈ states, t = state) : states.foldl Progress.least state = state := by
  induction states with
  | nil => rfl
  | cons t states ih =>
    rw [forall_mem_cons] at h
    rw [foldl_cons, h.1, Progress.least, if_neg (lt_irrefl _)]
    exact ih h.2

/-- A batch between two phases that is staged has all its units staged. -/
theorem SoundOutgoing.forall_staged {batch : OutgoingBatch} (h : batch.SoundOutgoing)
    (hstaged : batch.state = .staged) : ∀ u ∈ batch.units, u.state = .staged := by
  obtain ⟨state, -, hstate⟩ := h.uniform
  cases hunits : batch.units with
  | nil =>
    intro u hu
    exact absurd hu not_mem_nil
  | cons v units =>
    rw [hunits, forall_mem_cons] at hstate
    have hleast : batch.state = state := by
      unfold Batch.state
      rw [hunits, map_cons, Progress.leastOf, hstate.1]
      exact foldl_least_of_forall (forall_mem_map.2 hstate.2)
    have heq : state = .staged := hleast.symm.trans hstaged
    exact forall_mem_cons.2 ⟨heq ▸ hstate.1, heq ▸ hstate.2⟩

end Batch

end PeerTransfer
