import PeerTransfer.Proofs.Services.Published
import PeerTransfer.Proofs.Session.Outgoing

/-!
# What the registry has taken from a session

A session asks for publications only when it stages a batch, and of a batch that was published it
keeps the reference. So whatever happens to a session, no batch is published twice
(`Registered.act`).
-/

namespace PeerTransfer.Session

open List Table

variable {σ : Type}

/-- No two descriptors that the registry has taken are of one batch, and what is left in the session
of a batch that was published has a reference. -/
structure Registered (limit : Nat) (s : Session (Recorded σ)) : Prop where
  batch_ids : (s.world.services.published.map (·.batchId)).Nodup
  fresh : ∀ d ∈ s.world.services.published, s.ids.IsFresh limit d.batchId
  referenced : ∀ d ∈ s.world.services.published, ∀ batch ∈ s.outgoing,
    batch.id = d.batchId → batch.reference.isSome

/-- The world outside leaves the record of calls alone. -/
def Action.Records (s : Session (Recorded σ)) (action : Action (Recorded σ)) : Prop :=
  ∀ world, action = .outside world → world.services.calls = s.world.services.calls

variable {limit : Nat} {s s' : Session (Recorded σ)}

theorem Signalled.published_eq [Services σ] {recorded recorded' : Recorded σ}
    (h : Signalled recorded recorded') : recorded'.published = recorded.published := by
  cases h with
  | silent => rfl
  | connect | disconnect | send => exact Recorded.filterMap_of_call rfl rfl

namespace Registered

/-- While nothing is published, batches may go, and others may come under ids that are drawn for
them. Those that stay keep their references. -/
theorem of_published_eq (h : s.Registered limit)
    (hpublished : s'.world.services.published = s.world.services.published)
    (hids : s.ids.Precedes s'.ids)
    (hbatches : ∀ batch ∈ s'.outgoing, ¬s.ids.IsFresh limit batch.id ∨
      ∃ b ∈ s.outgoing, b.id = batch.id ∧ (b.reference.isSome → batch.reference.isSome)) :
    s'.Registered limit where
  batch_ids := hpublished ▸ h.batch_ids
  fresh d hd := (h.fresh d (hpublished ▸ hd)).of_precedes hids
  referenced d hd batch hbatch hid := by
    rcases hbatches batch hbatch with hdrawn | ⟨b, hb, hbid, href⟩
    · exact absurd (hid ▸ h.fresh d (hpublished ▸ hd)) hdrawn
    · exact href (h.referenced d (hpublished ▸ hd) b hb (hbid.trans hid))

theorem of_sublist (h : s.Registered limit)
    (hpublished : s'.world.services.published = s.world.services.published)
    (hids : s.ids.Precedes s'.ids) (hsub : s'.outgoing <+ s.outgoing) : s'.Registered limit :=
  h.of_published_eq hpublished hids fun batch hbatch =>
    .inr ⟨batch, hsub.subset hbatch, rfl, id⟩

variable {before after : List OutgoingBatch} {found changed : OutgoingBatch}

theorem of_replace (h : s.Registered limit)
    (hpublished : s'.world.services.published = s.world.services.published)
    (hids : s'.ids = s.ids) (hsplit : s.outgoing = before ++ found :: after)
    (hsplit' : s'.outgoing = before ++ changed :: after) (hid : changed.id = found.id)
    (href : found.reference.isSome → changed.reference.isSome) : s'.Registered limit := by
  refine h.of_published_eq hpublished (hids ▸ .refl s.ids) ?_
  rw [hsplit, hsplit', forall_mem_append, forall_mem_cons]
  refine ⟨fun b hb => .inr ⟨b, by simp [hb], rfl, id⟩, .inr ⟨found, by simp, hid.symm, href⟩,
    fun b hb => .inr ⟨b, by simp [hb], rfl, id⟩⟩

/-- A batch that has no reference has not been published. Once it is, it has one. -/
theorem of_publish (h : s.Registered limit) (haccounted : s.Accounted limit) {d : Descriptor}
    (hd : d.batchId = found.id) (hnone : found.reference = none)
    (hpublished : s'.world.services.published = s.world.services.published ++ [d])
    (hids : s'.ids = s.ids) (hsplit : s.outgoing = before ++ found :: after)
    (hsplit' : s'.outgoing = before ++ changed :: after) (href : changed.reference.isSome) :
    s'.Registered limit := by
  have hmem : found ∈ s.outgoing := hsplit ▸ mem_append_right before mem_cons_self
  have hnew : ∀ d' ∈ s.world.services.published, d'.batchId ≠ found.id := by
    intro d' hd' heq
    have hsome := h.referenced d' hd' found hmem heq.symm
    rw [hnone] at hsome
    cases hsome
  have hnodup := haccounted.batch_ids
  rw [hsplit, map_append, map_cons, nodup_append, nodup_cons] at hnodup
  have hother : ∀ b ∈ before ++ after, b.id ≠ found.id := by
    intro b hb
    rcases mem_append.1 hb with hb | hb
    · exact hnodup.2.2 b.id (mem_map_of_mem hb) found.id mem_cons_self
    · exact fun heq => hnodup.2.1.1 (heq ▸ mem_map_of_mem hb)
  rw [forall_mem_append] at hother
  refine ⟨?_, ?_, ?_⟩
  · rw [hpublished, map_append, map_singleton, ← concat_eq_append, nodup_concat, hd]
    refine ⟨fun hin => ?_, h.batch_ids⟩
    obtain ⟨d', hd', heq⟩ := mem_map.1 hin
    exact hnew d' hd' heq
  · rw [hpublished, hids, forall_mem_append, forall_mem_singleton, hd]
    exact ⟨h.fresh, haccounted.batch_fresh _ (mem_map_of_mem hmem)⟩
  · rw [hpublished, forall_mem_append, forall_mem_singleton]
    constructor
    · intro d' hd'
      have hreferenced := h.referenced d' hd'
      rw [hsplit, forall_mem_append, forall_mem_cons] at hreferenced
      rw [hsplit', forall_mem_append, forall_mem_cons]
      exact ⟨hreferenced.1, fun _ => href, hreferenced.2.2⟩
    · rw [hsplit', forall_mem_append, forall_mem_cons, hd]
      exact ⟨fun b hb heq => absurd heq (hother.1 b hb), fun _ => href,
        fun b hb heq => absurd heq (hother.2 b hb)⟩

variable [Services σ]

theorem of_stage (h : s.Registered limit) (haccounted : s.Accounted limit)
    (hended : (Phase.runStage s.settings found s.world).1 ≠ .error .panicked)
    (hsplit : s.outgoing = before ++ found :: after)
    (hsplit' : s'.outgoing =
      before ++ (Phase.runStage s.settings found s.world).2.1 :: after)
    (hworld : s'.world = (Phase.runStage s.settings found s.world).2.2) (hids : s'.ids = s.ids) :
    s'.Registered limit := by
  have hmem : found ∈ s.outgoing := hsplit ▸ mem_append_right before mem_cons_self
  have hbatch := haccounted.sound found hmem
  have hid := (Phase.allOrNothing_runStage s.world hbatch.unit_ids hbatch.coherent
    (Phase.of_not_panicked_runStage hbatch.coherent hended)).id_eq
  rcases hbatch.runStage_cases hended with ⟨failure, hrun⟩ | ⟨hstate, -⟩
  · rw [hrun] at hsplit' hworld
    exact h.of_replace (by rw [hworld]) hids hsplit hsplit' rfl id
  · have hnone := (haccounted.tracked found hmem).reference_eq_none hstate nofun
    have hlocal := hbatch.localPath_isSome hstate
    have hpublished := Recorded.published_runStage s.settings s.world hstate hlocal hbatch.unit_ids
    rw [← hworld] at hpublished
    rcases hpublished with hpublished | ⟨hpublished, -, href⟩
    · refine h.of_replace hpublished hids hsplit hsplit' hid fun hsome => ?_
      rw [hnone] at hsome
      cases hsome
    · exact h.of_publish haccounted rfl hnone hpublished hids hsplit hsplit' href

/-- No action lets a batch be published anew. -/
theorem act (h : s.Registered limit) (haccounted : s.Accounted limit)
    (hdistinct : s.table.Distinct) {action : Action (Recorded σ)}
    (hlimit : (action.run s).ids.drawn ≤ limit) (hrecords : action.Records s) :
    (action.run s).Registered limit := by
  cases action.shift hdistinct haccounted.sound with
  | outside world =>
    refine h.of_sublist ?_ (.refl s.ids) (Sublist.refl _)
    exact congrArg (filterMap Call.published?) (hrecords world rfl)
  | idle houtgoing _ hservices hids =>
    exact h.of_sublist hservices.published_eq hids (houtgoing ▸ Sublist.refl _)
  | delivered _ _ _ _ hsplit hsplit' _ hservices hids =>
    exact h.of_sublist hservices.published_eq hids (outgoing_sublist_of_gone hsplit hsplit')
  | forgot hsplit hsplit' _ hservices hids =>
    have hsub := outgoing_sublist_of_gone hsplit hsplit'
    exact h.of_sublist hservices.published_eq (hids ▸ .refl s.ids) hsub
  | @picked id sources before after draft batch _ hbuild hsplit hsplit' hworld hids =>
    have hnumbered := IdSource.precedes_drawFor sources s.ids
    have hprecedes := hnumbered.trans (IdSource.precedes_draw _)
    have hdrawn := IdSource.drawnBetween_draw hnumbered
    refine h.of_published_eq (by rw [hworld]) (hids ▸ hprecedes) ?_
    rw [hids] at hlimit
    rw [hsplit, hsplit', forall_mem_append, forall_mem_cons, (Batch.units_of_build hbuild).1]
    exact ⟨fun b hb => .inr ⟨b, by simp [hb], rfl, fun h => h⟩,
      .inl fun hfresh => hdrawn.ne hlimit hfresh rfl,
      fun b hb => .inr ⟨b, by simp [hb], rfl, fun h => h⟩⟩
  | @loaded p batch found before after _ _ hended hsplit hsplit' hworld hids =>
    have hmem : found ∈ s.outgoing := hsplit ▸ mem_append_right before mem_cons_self
    have hbatch := haccounted.sound found hmem
    have hid := (Phase.allOrNothing_runLoad s.world.disk hbatch.unit_ids
      (Phase.of_not_panicked_runLoad hended)).id_eq
    refine h.of_replace (by rw [hworld]) hids hsplit hsplit' hid fun hsome => ?_
    rwa [Phase.reference_runLoad]
  | staged _ _ hended hsplit hsplit' hworld hids =>
    exact h.of_stage haccounted hended hsplit hsplit' hworld hids
  | downloaded _ _ houtgoing hworld hids =>
    refine h.of_sublist ?_ (hids ▸ .refl s.ids) (houtgoing ▸ Sublist.refl _)
    rw [hworld]
    exact Recorded.published_runDownload s.settings _ s.world

end Registered

end PeerTransfer.Session
