import PeerTransfer.Proofs.Batch.Tracked
import PeerTransfer.Proofs.Session.Arising
import PeerTransfer.Proofs.Session.Shift

/-!
# Outgoing batches and their units are told apart

Ids are drawn for outgoing batches and for their units, so no two batches of a session share an id,
and no two units do, whatever endpoints they belong to. Every batch is sound and tracked
(`accounted_of_runs`).
-/

namespace PeerTransfer.Session

open List Table

variable {σ : Type}

/-- The ids of all units that go out. -/
def unitIds (s : Session σ) : List Uuid :=
  s.outgoing.flatMap fun batch => batch.units.map (·.id)

/-- The ids of outgoing batches and of their units are used once, and not drawn again. -/
structure Accounted (limit : Nat) (s : Session σ) : Prop where
  ids : s.ids.DistinctBelow limit
  batch_ids : (s.outgoing.map (·.id)).Nodup
  batch_fresh : ∀ id ∈ s.outgoing.map (·.id), s.ids.IsFresh limit id
  unit_ids : s.unitIds.Nodup
  unit_fresh : ∀ id ∈ s.unitIds, s.ids.IsFresh limit id.text
  sound : ∀ batch ∈ s.outgoing, batch.SoundOutgoing
  tracked : ∀ batch ∈ s.outgoing, batch.Tracked s.settings.stagingFolder

variable {limit : Nat} {s s' : Session σ}

namespace Accounted

theorem of_sublist (h : s.Accounted limit) (hsub : s'.outgoing <+ s.outgoing)
    (hids : s.ids.Precedes s'.ids) (hsettings : s'.settings = s.settings) :
    s'.Accounted limit where
  ids := h.ids.of_precedes hids
  batch_ids := h.batch_ids.sublist (hsub.map _)
  batch_fresh id hid := (h.batch_fresh id ((hsub.map _).subset hid)).of_precedes hids
  unit_ids := h.unit_ids.sublist (hsub.flatMap _)
  unit_fresh id hid := (h.unit_fresh id ((hsub.flatMap _).subset hid)).of_precedes hids
  sound batch hbatch := h.sound batch (hsub.subset hbatch)
  tracked batch hbatch := hsettings ▸ h.tracked batch (hsub.subset hbatch)

/-- A batch may become another of the same ids. -/
theorem of_replace (h : s.Accounted limit) {before after : List OutgoingBatch}
    {found changed : OutgoingBatch} (hsplit : s.outgoing = before ++ found :: after)
    (hsplit' : s'.outgoing = before ++ changed :: after) (hid : changed.id = found.id)
    (hunits : changed.units.map (·.id) = found.units.map (·.id)) (hsound : changed.SoundOutgoing)
    (htracked : changed.Tracked s.settings.stagingFolder) (hids : s'.ids = s.ids)
    (hsettings : s'.settings = s.settings) : s'.Accounted limit := by
  have hbatchIds : s'.outgoing.map (·.id) = s.outgoing.map (·.id) := by
    rw [hsplit, hsplit', map_append, map_append, map_cons, map_cons, hid]
  have hunitIds : s'.unitIds = s.unitIds := by
    unfold unitIds
    rw [hsplit, hsplit', flatMap_append, flatMap_append, flatMap_cons, flatMap_cons, hunits]
  have hsounds := h.sound
  have hbatches := h.tracked
  rw [hsplit, forall_mem_append, forall_mem_cons] at hsounds hbatches
  refine ⟨hids ▸ h.ids, hbatchIds ▸ h.batch_ids, ?_, hunitIds ▸ h.unit_ids, ?_, ?_, ?_⟩
  · rw [hbatchIds, hids]
    exact h.batch_fresh
  · rw [hunitIds, hids]
    exact h.unit_fresh
  · rw [hsplit', forall_mem_append, forall_mem_cons]
    exact ⟨hsounds.1, hsound, hsounds.2.2⟩
  · rw [hsplit', hsettings, forall_mem_append, forall_mem_cons]
    exact ⟨hbatches.1, htracked, hbatches.2.2⟩

/-- A batch that is picked has ids that no other has. -/
theorem of_pick (h : s.Accounted limit) {sources : List Path} {draft : Draft OutgoingUnit}
    {batch : OutgoingBatch} {before after : List OutgoingBatch}
    (hunits : draft.units = (s.ids.drawFor sources).1.map fun (id, source) => .ofPath id source)
    (hbuild : draft.build (s.ids.drawFor sources).2.draw.1.text = .ok batch)
    (hsplit : s.outgoing = before ++ after) (hsplit' : s'.outgoing = before ++ batch :: after)
    (hids : s'.ids = (s.ids.drawFor sources).2.draw.2) (hlimit : s'.ids.drawn ≤ limit)
    (hsettings : s'.settings = s.settings) : s'.Accounted limit := by
  obtain ⟨hid, hbuilt⟩ := Batch.units_of_build hbuild
  have hperm : s'.outgoing ~ batch :: s.outgoing := by
    rw [hsplit, hsplit']
    exact perm_middle
  have hnumbered := IdSource.precedes_drawFor sources s.ids
  have hprecedes := hnumbered.trans (IdSource.precedes_draw _)
  rw [hids] at hlimit
  have hlimit' : (s.ids.drawFor sources).2.drawn ≤ limit := (Nat.le_succ _).trans hlimit
  have hbatch := IdSource.drawnBetween_draw hnumbered
  have hnew : batch.units.map (·.id) = (s.ids.drawFor sources).1.map Prod.fst := by
    rw [hbuilt, hunits, map_map]
    rfl
  have hunitIds : s'.unitIds ~ batch.units.map (·.id) ++ s.unitIds := by
    have hflat := hperm.flatMap_right fun batch => batch.units.map (·.id)
    rwa [flatMap_cons] at hflat
  have hdrawn : ∀ id ∈ batch.units.map (·.id),
      s.ids.DrawnBetween (s.ids.drawFor sources).2 id.text := by
    rw [hnew]
    exact fun id => IdSource.drawnBetween_drawFor
  refine ⟨hids ▸ h.ids.of_precedes hprecedes, ?_, ?_, ?_, ?_, ?_, ?_⟩
  · rw [(hperm.map _).nodup_iff, map_cons, nodup_cons, hid]
    refine ⟨fun hmem => ?_, h.batch_ids⟩
    exact hbatch.ne hlimit (h.batch_fresh _ hmem) rfl
  · intro id hmem
    rw [(hperm.map _).mem_iff, map_cons, mem_cons, hid] at hmem
    rw [hids]
    rcases hmem with rfl | hmem
    · exact hbatch.isFresh hprecedes h.ids
    · exact (h.batch_fresh id hmem).of_precedes hprecedes
  · rw [hunitIds.nodup_iff, nodup_append, hnew]
    refine ⟨IdSource.nodup_drawFor h.ids hlimit', h.unit_ids, ?_⟩
    rintro id hmem _ hmem' rfl
    exact (hdrawn id (hnew ▸ hmem)).ne hlimit' (h.unit_fresh id hmem') rfl
  · intro id hmem
    rw [hunitIds.mem_iff, mem_append] at hmem
    rw [hids]
    rcases hmem with hmem | hmem
    · exact ((hdrawn id hmem).isFresh hnumbered h.ids).of_precedes (IdSource.precedes_draw _)
    · exact (h.unit_fresh id hmem).of_precedes hprecedes
  · intro b hb
    rcases mem_cons.1 (hperm.mem_iff.1 hb) with rfl | hb
    · exact Batch.soundOutgoing_of_pick h.ids hlimit' (hbuilt.trans hunits)
    · exact h.sound b hb
  · intro b hb
    rw [hsettings]
    rcases mem_cons.1 (hperm.mem_iff.1 hb) with rfl | hb
    · exact Batch.tracked_of_pick _ hbuild hunits
    · exact h.tracked b hb

/-- Units of batches that go are none of those that stay. -/
theorem unit_id_ne (h : s.Accounted limit) {before gone after : List OutgoingBatch}
    (hsplit : s.outgoing = before ++ gone ++ after) {b g : OutgoingBatch}
    (hb : b ∈ before ++ after) (hg : g ∈ gone) {u v : OutgoingUnit} (hu : u ∈ b.units)
    (hv : v ∈ g.units) : u.id ≠ v.id := by
  have hperm : s.outgoing ~ before ++ after ++ gone := by
    rw [hsplit, append_assoc, append_assoc]
    exact perm_append_comm.append_left before
  have hnodup := h.unit_ids
  unfold unitIds at hnodup
  rw [(hperm.flatMap_right _).nodup_iff, flatMap_append, nodup_append] at hnodup
  exact hnodup.2.2 _ (mem_flatMap.2 ⟨b, hb, mem_map_of_mem hu⟩) _
    (mem_flatMap.2 ⟨g, hg, mem_map_of_mem hv⟩)

end Accounted

variable [Services σ]

theorem Action.settings_run (hdistinct : s.table.Distinct) (action : Action σ) :
    (action.run s).settings = s.settings :=
  (action.effect hdistinct).settings_eq

theorem settings_of_runs {s₀ : Session σ} {Fair : Session σ → Action σ → Prop}
    (harises : s₀.Arises) (hruns : s₀.Runs Fair s) : s.settings = s₀.settings := by
  induction hruns with
  | refl => rfl
  | act action hruns _ ih => rw [action.settings_run (harises.runs hruns).distinct, ih]

/-- Every action leaves the outgoing batches accounted for, unless it draws an id once more. -/
theorem Accounted.act (h : s.Accounted limit) (hdistinct : s.table.Distinct) {action : Action σ}
    (hlimit : (action.run s).ids.drawn ≤ limit) : (action.run s).Accounted limit := by
  have hsettings := action.settings_run hdistinct
  cases action.shift hdistinct h.sound with
  | outside world => exact h.of_sublist (Sublist.refl _) (.refl s.ids) rfl
  | idle houtgoing _ _ hids => exact h.of_sublist (houtgoing ▸ Sublist.refl _) hids hsettings
  | delivered _ _ _ _ hsplit hsplit' _ _ hids =>
    exact h.of_sublist (outgoing_sublist_of_gone hsplit hsplit') hids hsettings
  | forgot hsplit hsplit' _ _ hids =>
    have hsub := outgoing_sublist_of_gone hsplit hsplit'
    exact h.of_sublist hsub (hids ▸ .refl s.ids) hsettings
  | picked hunits hbuild hsplit hsplit' _ hids =>
    exact h.of_pick hunits hbuild hsplit hsplit' hids hlimit hsettings
  | @loaded p batch found before after _ _ hended hsplit hsplit' _ hids =>
    have hmem : found ∈ s.outgoing := hsplit ▸ mem_append_right before mem_cons_self
    have hbatch := h.sound found hmem
    have hphase := Phase.allOrNothing_runLoad s.world.disk hbatch.unit_ids
      (Phase.of_not_panicked_runLoad hended)
    exact h.of_replace hsplit hsplit' hphase.id_eq hphase.unit_ids_eq (hbatch.runLoad hended)
      ((h.tracked found hmem).runLoad hbatch hended) hids hsettings
  | @staged p batch found before after _ _ hended hsplit hsplit' _ hids =>
    have hmem : found ∈ s.outgoing := hsplit ▸ mem_append_right before mem_cons_self
    have hbatch := h.sound found hmem
    have hphase := Phase.allOrNothing_runStage s.world hbatch.unit_ids hbatch.coherent
      (Phase.of_not_panicked_runStage hbatch.coherent hended)
    exact h.of_replace hsplit hsplit' hphase.id_eq hphase.unit_ids_eq (hbatch.runStage hended)
      ((h.tracked found hmem).runStage hbatch hended) hids hsettings
  | downloaded _ _ houtgoing _ hids =>
    exact h.of_sublist (houtgoing ▸ Sublist.refl _) (hids ▸ .refl s.ids) hsettings

theorem outgoing_of_start {settings : Settings} {source : IdSource} {world : World σ}
    (hstart : Session.start settings source world = .ok s) : s.outgoing = [] := by
  rw [outgoing, (endpoints_of_start hstart).1]
  rfl

theorem accounted_of_start {settings : Settings} {source : IdSource} {world : World σ}
    (hdistinct : source.DistinctBelow limit)
    (hstart : Session.start settings source world = .ok s) : s.Accounted limit := by
  have hnone := outgoing_of_start hstart
  have hids : source.Precedes s.ids := (endpoints_of_start hstart).2
  exact ⟨hdistinct.of_precedes hids, by simp [hnone], by simp [hnone], by simp [unitIds, hnone],
    by simp [unitIds, hnone], by simp [hnone], by simp [hnone]⟩

/-- However a session goes on, its outgoing batches are accounted for while no id is drawn for the
second time. -/
theorem accounted_of_runs {Fair : Session σ → Action σ → Prop} (h : s.Accounted limit)
    (harises : s.Arises) (hruns : s.Runs Fair s')
    (hfair : ∀ s action, Fair s action → (action.run s).ids.drawn ≤ limit) :
    s'.Accounted limit := by
  induction hruns with
  | refl => exact h
  | act action hruns haction ih =>
    exact ih.act (harises.runs hruns).distinct (hfair _ action haction)

end PeerTransfer.Session
