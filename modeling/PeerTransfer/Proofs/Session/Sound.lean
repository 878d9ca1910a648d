import PeerTransfer.Proofs.Endpoint.Settled
import PeerTransfer.Proofs.Session.Transfer

/-!
# Sessions between operations

A session is sound if the endpoints of its table are. Every operation leaves it so, whether it
succeeds or fails. What an operation does to its endpoint in between is known from the equation that
it comes to; what is left to show is that the endpoint which then stands in the table is sound.
-/

namespace PeerTransfer.Session

open List Table Act

variable {σ : Type} {limit : Nat} {s s' : Session σ} {id : String} {p : Endpoint}

/-- A session between two operations, which draws its ids up to a limit. -/
structure Sound (limit : Nat) (s : Session σ) : Prop where
  distinct : s.table.Distinct
  ids : s.ids.DistinctBelow limit
  endpoints : ∀ p ∈ s.table.endpoints, p.Sound limit s.ids

namespace Sound

variable (h : s.Sound limit)

include h

theorem sound_of_find? (hfind : s.table.find? id = some p) : p.Sound limit s.ids :=
  h.endpoints p (mem_of_find? hfind)

/-- Endpoints may go, and all else but the source of ids may be anything. -/
theorem of_sublist (hendpoints : s'.table.endpoints <+ s.table.endpoints) (hids : s'.ids = s.ids) :
    s'.Sound limit where
  distinct := h.distinct.sublist (hendpoints.map _)
  ids := hids ▸ h.ids
  endpoints p hp := hids ▸ h.endpoints p (hendpoints.subset hp)

theorem withIds {source : IdSource} (hprecedes : s.ids.Precedes source) :
    Sound limit { s with ids := source } where
  distinct := h.distinct
  ids := h.ids.of_precedes hprecedes
  endpoints p hp := (h.endpoints p hp).of_precedes hprecedes

theorem focus (hp : p.Sound limit s.ids) (notices : List Notice) :
    (s.focus p notices).Sound limit where
  distinct := h.distinct.focus p notices
  ids := h.ids
  endpoints := by
    intro q hq
    obtain ⟨e, he, rfl⟩ := mem_map.1 hq
    split_ifs
    · exact hp
    · exact h.endpoints e he

theorem add (hfind : s.table.find? p.id = none) (hp : p.Sound limit s.ids)
    (hendpoints : s'.table.endpoints = s.table.endpoints ++ [p]) (hids : s'.ids = s.ids) :
    s'.Sound limit where
  distinct := by
    unfold Distinct
    rw [hendpoints]
    exact h.distinct.append hfind
  ids := hids ▸ h.ids
  endpoints := by
    rw [hendpoints, hids, forall_mem_append, forall_mem_singleton]
    exact ⟨h.endpoints, hp⟩

theorem withServices (services : σ) : (s.withServices services).Sound limit :=
  h.of_sublist (Sublist.refl _) rfl

theorem without (p : Endpoint) : (s.without p).Sound limit :=
  h.of_sublist filter_sublist rfl

/-! ## Connections -/

theorem connect [Services σ] (id : String) : ((connect id).run s).2.Sound limit := by
  cases hfind : s.table.find? id with
  | none =>
    rw [run_connect_of_unknown hfind]
    exact h
  | some p =>
    have hp := h.sound_of_find? hfind
    rw [run_connect h.distinct hfind]
    by_cases hstate : p.state = .discovered
    · have hne : p.state ≠ .sending := by simp [hstate]
      have hpending := hp.setState hne .pending (by simp)
      rw [if_pos hstate]
      dsimp only
      split
      · exact (h.focus hpending _).withServices _
      · split_ifs
        · exact ((h.focus hpending _).withServices _).without _
        · exact (h.focus (hp.setState hne .discovered (by simp)) _).withServices _
    · rw [if_neg hstate]
      exact h

theorem disconnect [Services σ] (id : String) : ((disconnect id).run s).2.Sound limit := by
  cases hfind : s.table.find? id with
  | none =>
    rw [run_disconnect_of_unknown hfind]
    exact h
  | some p =>
    rw [run_disconnect h.distinct hfind]
    split_ifs
    · dsimp only
      split
      -- The endpoint that goes is not sound while it is leaving, but all others are.
      · have hendpoints := endpoints_without_focus s.table (p := { p with
          state := .disconnecting }) rfl (changeOf p .disconnecting)
        exact h.of_sublist (hendpoints ▸ filter_sublist) rfl
      · exact (h.focus (h.sound_of_find? hfind) _).withServices _
    · exact h

/-! ## Transfers -/

theorem createBatch (id : String) (sources : List Path)
    (hlimit : ((createBatch id sources).run s).2.ids.drawn ≤ limit) :
    ((createBatch id sources).run s).2.Sound limit := by
  cases hfind : s.table.find? id with
  | none =>
    rw [run_createBatch_of_unknown hfind]
    exact h
  | some p =>
    have hp := h.sound_of_find? hfind
    have hnumbered := IdSource.precedes_drawFor sources s.ids
    have hprecedes := hnumbered.trans (IdSource.precedes_draw _)
    rw [run_createBatch h.distinct hfind] at hlimit ⊢
    dsimp only at hlimit ⊢
    split at hlimit
    · exact h.withIds hprecedes
    · next batch hbuild =>
      obtain ⟨hid, hunits⟩ := Batch.units_of_build hbuild
      have hdrawn := hid ▸ IdSource.drawnBetween_draw hnumbered
      refine (h.withIds hprecedes).focus ?_ _
      exact (hp.of_precedes hprecedes).addOutgoing
        (Batch.soundOutgoing_of_pick h.ids ((Nat.le_succ _).trans hlimit) hunits)
        (fun b hb => hdrawn.ne hlimit (hp.outgoing_fresh b hb)) (hdrawn.isFresh hprecedes h.ids)

theorem receiveDescriptor (id : String) {descriptor : Descriptor}
    (hkeys : (descriptor.units.keys.map Uuid.parse?).Nodup)
    (hfresh : s.ids.IsFresh limit descriptor.batchId) :
    ((receiveDescriptor id descriptor).run s).2.Sound limit := by
  cases hfind : s.table.find? id with
  | none =>
    rw [run_receiveDescriptor_of_unknown hfind]
    exact h
  | some p =>
    have hp := h.sound_of_find? hfind
    rw [run_receiveDescriptor h.distinct hfind]
    split_ifs with hknown
    · exact h
    · split
      · exact h
      · next batch hbatch =>
        have hid := (Batch.ofDescriptor_units hbatch).1
        refine h.focus (hp.addIncoming (Batch.soundIncoming_of_ofDescriptor hkeys hbatch) ?_ ?_) _
        · intro b hb heq
          exact hknown (find?_isSome.2 ⟨b, hb, by simpa [hid] using heq⟩)
        · rwa [hid]

/-- A phase of an outgoing batch may do what it likes to its batch, as long as the batch is still
sound and keeps its id if the phase ends. -/
theorem runOutgoing
    {run : Settings → OutgoingBatch → World σ →
      Except Failure PhaseReport × OutgoingBatch × World σ}
    (hrun : ∀ settings batch world, batch.SoundOutgoing →
      (run settings batch world).1 ≠ .error .panicked →
      (run settings batch world).2.1.SoundOutgoing ∧ (run settings batch world).2.1.id = batch.id)
    (id batch : String) : ((runOutgoing run id batch).after s).Sound limit := by
  cases hfind : s.table.find? id with
  | none =>
    rw [after_runOutgoing_of_unknown hfind]
    exact h
  | some p =>
    have hp := h.sound_of_find? hfind
    rw [after_runOutgoing h.distinct hfind]
    cases hfound : p.outgoing? batch with
    | none => exact h
    | some found =>
      have hmem : found ∈ p.outgoing := mem_of_find?_eq_some hfound
      dsimp only
      split_ifs with hstate hpanic
      · exact h
      · have hne : p.state ≠ .sending := by simp [hstate]
        obtain ⟨hsound, hid⟩ := hrun s.settings found s.world (hp.soundOutgoing hmem) hpanic
        have hset := hp.setOutgoing hne hmem hid hsound
        have hback := (hset.setState hne .connected (by simp)).log
          (entriesOf (run s.settings found s.world).1)
        exact (h.focus hback _).of_sublist (Sublist.refl _) rfl
      · exact h

theorem loadBatch (id batch : String) : ((loadBatch id batch).after s).Sound limit := by
  refine h.runOutgoing (fun settings batch world hbatch hended => ?_) id batch
  have hphase := Phase.allOrNothing_runLoad world.disk hbatch.unit_ids
    (Phase.of_not_panicked_runLoad hended)
  exact ⟨hbatch.runLoad hended, hphase.id_eq⟩

theorem stageBatch [Services σ] (id batch : String) :
    ((stageBatch id batch).after s).Sound limit := by
  refine h.runOutgoing (fun settings batch world hbatch hended => ?_) id batch
  have hphase := Phase.allOrNothing_runStage world hbatch.unit_ids hbatch.coherent
    (Phase.of_not_panicked_runStage hbatch.coherent hended)
  exact ⟨hbatch.runStage hended, hphase.id_eq⟩

theorem downloadBatch [Services σ] (id batch : String) :
    ((downloadBatch id batch).after s).Sound limit := by
  cases hfind : s.table.find? id with
  | none =>
    rw [after_downloadBatch_of_unknown hfind]
    exact h
  | some p =>
    have hp := h.sound_of_find? hfind
    rw [after_downloadBatch h.distinct hfind]
    cases hfound : p.incoming? batch with
    | none => exact h
    | some found =>
      have hmem : found ∈ p.incoming := mem_of_find?_eq_some hfound
      have hbatch := hp.soundIncoming hmem
      dsimp only
      split_ifs with hstate hpanic
      · exact h
      · have hne : p.state ≠ .sending := by simp [hstate]
        have hid := (Phase.allOrNothing_runDownload s.world hbatch.unit_ids
          (Phase.of_not_panicked_runDownload hpanic)).id_eq
        have hset := hp.setIncoming hmem hid (hbatch.runDownload hpanic)
        have hback := (hset.setState hne .connected (by simp)).log
          (entriesOf (Phase.runDownload s.settings found s.world).1)
        exact (h.focus hback _).of_sublist (Sublist.refl _) rfl
      · exact h

theorem sendBatch [Services σ] (id batch : String) :
    ((sendBatch id batch).run s).2.Sound limit := by
  cases hfind : s.table.find? id with
  | none =>
    rw [run_sendBatch_of_unknown hfind]
    exact h
  | some p =>
    have hp := h.sound_of_find? hfind
    rw [run_sendBatch h.distinct hfind]
    cases hfound : p.outgoing? batch with
    | none => exact h
    | some found =>
      have hmem : found ∈ p.outgoing := mem_of_find?_eq_some hfound
      have hid : found.id = batch := by simpa using find?_some hfound
      dsimp only
      by_cases hstaged : found.state ≠ OutgoingState.staged
      · rw [if_pos hstaged]
        exact h
      rw [if_neg hstaged]
      split
      · exact h
      · split_ifs with hstate
        · have hne : p.state ≠ .sending := by simp [hstate]
          have hall := (hp.soundOutgoing hmem).forall_staged (not_not.1 hstaged)
          split
          · exact (h.focus (hp.beginSend ⟨found, hmem, hid, hall⟩) _).withServices _
          · exact (h.focus ((hp.setState hne .connected (by simp)).log _) _).withServices _
        · exact h

end Sound

end PeerTransfer.Session
