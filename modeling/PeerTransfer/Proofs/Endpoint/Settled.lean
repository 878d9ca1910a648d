import PeerTransfer.Proofs.Batch.Sound
import PeerTransfer.Proofs.Table.Focus

/-!
# Endpoints between operations

`Endpoint.Settled` is what holds of every endpoint while no operation is under way. To keep it, an
endpoint needs more: its outgoing units are coherent, and no id that is yet to be drawn is that of
one of its batches (`Endpoint.Sound`, up to a limit on how many ids are drawn). Whatever an
operation makes of an endpoint is sound again.
-/

namespace PeerTransfer.Endpoint

open List

/-- An endpoint while no operation is under way. -/
structure Settled (p : Endpoint) : Prop where
  state_mem : p.state ∈ [EndpointState.discovered, .pending, .connected, .sending]
  sending_iff : p.state = .sending ↔ p.inFlight.isSome
  inFlight_staged : ∀ id, p.inFlight = some id →
    ∃ batch ∈ p.outgoing, batch.id = id ∧ ∀ u ∈ batch.units, u.state = .staged
  outgoing_uniform : ∀ batch ∈ p.outgoing, batch.Uniform [.picked, .loaded, .staged]
  incoming_uniform : ∀ batch ∈ p.incoming, batch.Uniform [.received, .downloaded]
  outgoing_ids : (p.outgoing.map (·.id)).Nodup
  incoming_ids : (p.incoming.map (·.id)).Nodup
  outgoing_unit_ids : ∀ batch ∈ p.outgoing, (batch.units.map Transferable.id).Nodup
  incoming_unit_ids : ∀ batch ∈ p.incoming, (batch.units.map Transferable.id).Nodup

/-- A settled endpoint that stays settled while ids are drawn from a source, up to a limit. -/
structure Sound (limit : Nat) (source : IdSource) (p : Endpoint) : Prop extends p.Settled where
  coherent : ∀ batch ∈ p.outgoing, ∀ u ∈ batch.units, u.Coherent
  unfetched : ∀ batch ∈ p.incoming, ∀ u ∈ batch.units, u.state = .received → u.localPath = none
  outgoing_fresh : ∀ batch ∈ p.outgoing, source.IsFresh limit batch.id
  incoming_fresh : ∀ batch ∈ p.incoming, source.IsFresh limit batch.id

/-! ## Lists of batches -/

section Batches

variable {U : Type} {P : Batch U → Prop} {batch : Batch U} {batches : List (Batch U)}

theorem forall_mem_concat :
    (∀ b ∈ batches ++ [batch], P b) ↔ (∀ b ∈ batches, P b) ∧ P batch := by
  rw [forall_mem_append, forall_mem_singleton]

theorem nodup_ids_concat (h : (batches.map (·.id)).Nodup) (hnew : ∀ b ∈ batches, b.id ≠ batch.id) :
    ((batches ++ [batch]).map (·.id)).Nodup := by
  have hnot : batch.id ∉ batches.map (·.id) := by
    intro hmem
    obtain ⟨b, hb, heq⟩ := mem_map.1 hmem
    exact hnew b hb heq
  rw [map_append, map_singleton, ← concat_eq_append, nodup_concat]
  exact ⟨hnot, h⟩

end Batches

/-! ## Endpoints that are sound -/

variable {limit : Nat} {source source' : IdSource} {p q : Endpoint}

theorem sound_new (id name : String) {state : EndpointState}
    (hstate : state = .discovered ∨ state = .pending) (medium : Medium) (isIncoming : Bool) :
    (Endpoint.new id name state medium isIncoming).Sound limit source where
  state_mem := by rcases hstate with rfl | rfl <;> simp [Endpoint.new]
  sending_iff := by rcases hstate with rfl | rfl <;> simp [Endpoint.new]
  inFlight_staged := by rintro batch ⟨⟩
  outgoing_uniform := by rintro batch ⟨⟩
  incoming_uniform := by rintro batch ⟨⟩
  outgoing_ids := nodup_nil
  incoming_ids := nodup_nil
  outgoing_unit_ids := by rintro batch ⟨⟩
  incoming_unit_ids := by rintro batch ⟨⟩
  coherent := by rintro batch ⟨⟩
  unfetched := by rintro batch ⟨⟩
  outgoing_fresh := by rintro batch ⟨⟩
  incoming_fresh := by rintro batch ⟨⟩

namespace Sound

variable (h : p.Sound limit source)

include h

theorem of_precedes (hprecedes : source.Precedes source') : p.Sound limit source' where
  toSettled := h.toSettled
  coherent := h.coherent
  unfetched := h.unfetched
  outgoing_fresh batch hbatch := (h.outgoing_fresh batch hbatch).of_precedes hprecedes
  incoming_fresh batch hbatch := (h.incoming_fresh batch hbatch).of_precedes hprecedes

theorem soundOutgoing {batch : OutgoingBatch} (hbatch : batch ∈ p.outgoing) :
    batch.SoundOutgoing :=
  ⟨h.outgoing_uniform batch hbatch, h.outgoing_unit_ids batch hbatch, h.coherent batch hbatch⟩

theorem soundIncoming {batch : IncomingBatch} (hbatch : batch ∈ p.incoming) :
    batch.SoundIncoming :=
  ⟨h.incoming_uniform batch hbatch, h.incoming_unit_ids batch hbatch, h.unfetched batch hbatch⟩

theorem inFlight_eq_none (hstate : p.state ≠ .sending) : p.inFlight = none := by
  cases hflight : p.inFlight with
  | none => rfl
  | some batch => exact absurd (h.sending_iff.2 (by rw [hflight]; rfl)) hstate

/-- Name, medium, token, journal and held payloads may be anything. -/
theorem congr (hstate : q.state = p.state) (houtgoing : q.outgoing = p.outgoing)
    (hincoming : q.incoming = p.incoming) (hflight : q.inFlight = p.inFlight) :
    q.Sound limit source where
  state_mem := hstate ▸ h.state_mem
  sending_iff := by rw [hstate, hflight]; exact h.sending_iff
  inFlight_staged := by rw [hflight, houtgoing]; exact h.inFlight_staged
  outgoing_uniform := houtgoing ▸ h.outgoing_uniform
  incoming_uniform := hincoming ▸ h.incoming_uniform
  outgoing_ids := houtgoing ▸ h.outgoing_ids
  incoming_ids := hincoming ▸ h.incoming_ids
  outgoing_unit_ids := houtgoing ▸ h.outgoing_unit_ids
  incoming_unit_ids := hincoming ▸ h.incoming_unit_ids
  coherent := houtgoing ▸ h.coherent
  unfetched := hincoming ▸ h.unfetched
  outgoing_fresh := houtgoing ▸ h.outgoing_fresh
  incoming_fresh := hincoming ▸ h.incoming_fresh

theorem log (entries : List JournalEntry) : (p.log entries).Sound limit source :=
  h.congr rfl rfl rfl rfl

/-! ## Changes of state -/

/-- Where no send is under way, the state may be any but that of a transfer. -/
theorem setState (hstate : p.state ≠ .sending) (next : EndpointState)
    (hnext : next = .discovered ∨ next = .pending ∨ next = .connected) :
    ({ p with state := next } : Endpoint).Sound limit source := by
  have hflight := h.inFlight_eq_none hstate
  refine { h with state_mem := ?_, sending_iff := ?_ }
  · rcases hnext with rfl | rfl | rfl <;> simp
  · rw [hflight]
    rcases hnext with rfl | rfl | rfl <;> simp

/-- A send may begin once all units of its batch are staged. -/
theorem beginSend {id : String} (hstaged : ∃ batch ∈ p.outgoing, batch.id = id ∧
      ∀ u ∈ batch.units, u.state = .staged) :
    ({ p with state := .sending, inFlight := some id } : Endpoint).Sound limit source := by
  refine { h with state_mem := by simp, sending_iff := by simp, inFlight_staged := ?_ }
  rintro _ ⟨⟩
  exact hstaged

/-- A send that has ended leaves its batch, and the connection free. -/
theorem endSend :
    ({ p with inFlight := none, state := if p.state = .sending then .connected else p.state } :
      Endpoint).Sound limit source := by
  have hstate := h.state_mem
  refine { h with state_mem := ?_, sending_iff := ?_, inFlight_staged := by rintro batch ⟨⟩ }
  · split_ifs
    · simp
    · exact hstate
  · split_ifs with hsending
    · simp
    · simp [hsending]

/-! ## Batches that are added -/

theorem addOutgoing {batch : OutgoingBatch} (hbatch : batch.SoundOutgoing)
    (hnew : ∀ b ∈ p.outgoing, b.id ≠ batch.id) (hfresh : source.IsFresh limit batch.id) :
    (p.addOutgoing batch).Sound limit source where
  state_mem := h.state_mem
  sending_iff := h.sending_iff
  inFlight_staged id hid := by
    obtain ⟨b, hb, hstaged⟩ := h.inFlight_staged id hid
    exact ⟨b, mem_append_left _ hb, hstaged⟩
  outgoing_uniform := forall_mem_concat.2 ⟨h.outgoing_uniform, hbatch.uniform⟩
  incoming_uniform := h.incoming_uniform
  outgoing_ids := nodup_ids_concat h.outgoing_ids hnew
  incoming_ids := h.incoming_ids
  outgoing_unit_ids := forall_mem_concat.2 ⟨h.outgoing_unit_ids, hbatch.unit_ids⟩
  incoming_unit_ids := h.incoming_unit_ids
  coherent := forall_mem_concat.2 ⟨h.coherent, hbatch.coherent⟩
  unfetched := h.unfetched
  outgoing_fresh := forall_mem_concat.2 ⟨h.outgoing_fresh, hfresh⟩
  incoming_fresh := h.incoming_fresh

theorem addIncoming {batch : IncomingBatch} (hbatch : batch.SoundIncoming)
    (hnew : ∀ b ∈ p.incoming, b.id ≠ batch.id) (hfresh : source.IsFresh limit batch.id) :
    (p.addIncoming batch).Sound limit source where
  state_mem := h.state_mem
  sending_iff := h.sending_iff
  inFlight_staged := h.inFlight_staged
  outgoing_uniform := h.outgoing_uniform
  incoming_uniform := forall_mem_concat.2 ⟨h.incoming_uniform, hbatch.uniform⟩
  outgoing_ids := h.outgoing_ids
  incoming_ids := nodup_ids_concat h.incoming_ids hnew
  outgoing_unit_ids := h.outgoing_unit_ids
  incoming_unit_ids := forall_mem_concat.2 ⟨h.incoming_unit_ids, hbatch.unit_ids⟩
  coherent := h.coherent
  unfetched := forall_mem_concat.2 ⟨h.unfetched, hbatch.unfetched⟩
  outgoing_fresh := h.outgoing_fresh
  incoming_fresh := forall_mem_concat.2 ⟨h.incoming_fresh, hfresh⟩

/-! ## Batches that are replaced or let go of -/

/-- Where no send is under way, a batch of the same id may stand in the place of a batch. -/
theorem setOutgoing (hstate : p.state ≠ .sending) {found changed : OutgoingBatch}
    (hfound : found ∈ p.outgoing) (hid : changed.id = found.id) (hchanged : changed.SoundOutgoing) :
    (p.setOutgoing changed).Sound limit source := by
  have hflight := h.inFlight_eq_none hstate
  have hfresh : source.IsFresh limit changed.id := hid ▸ h.outgoing_fresh found hfound
  refine { h with
    inFlight_staged := ?_
    outgoing_uniform := forall_mem_replaceFirst hchanged.uniform h.outgoing_uniform
    outgoing_ids := ?_
    outgoing_unit_ids := forall_mem_replaceFirst hchanged.unit_ids h.outgoing_unit_ids
    coherent := forall_mem_replaceFirst hchanged.coherent h.coherent
    outgoing_fresh := forall_mem_replaceFirst hfresh h.outgoing_fresh }
  · intro id hsome
    cases hflight.symm.trans hsome
  · exact (map_replaceFirst Batch.id changed p.outgoing).symm ▸ h.outgoing_ids

theorem setIncoming {found changed : IncomingBatch} (hfound : found ∈ p.incoming)
    (hid : changed.id = found.id) (hchanged : changed.SoundIncoming) :
    (p.setIncoming changed).Sound limit source := by
  have hfresh : source.IsFresh limit changed.id := hid ▸ h.incoming_fresh found hfound
  refine { h with
    incoming_uniform := forall_mem_replaceFirst hchanged.uniform h.incoming_uniform
    incoming_ids := ?_
    incoming_unit_ids := forall_mem_replaceFirst hchanged.unit_ids h.incoming_unit_ids
    unfetched := forall_mem_replaceFirst hchanged.unfetched h.unfetched
    incoming_fresh := forall_mem_replaceFirst hfresh h.incoming_fresh }
  exact (map_replaceFirst Batch.id changed p.incoming).symm ▸ h.incoming_ids

/-- Where no send is under way, any batch may be let go of. -/
theorem dropOutgoing (hflight : p.inFlight = none) (id : String) :
    (p.dropOutgoing id).Sound limit source := by
  have hsub : p.outgoing.eraseP (·.id = id) <+ p.outgoing := eraseP_sublist
  refine { h with
    inFlight_staged := ?_
    outgoing_uniform := fun batch hbatch => h.outgoing_uniform batch (hsub.subset hbatch)
    outgoing_ids := h.outgoing_ids.sublist (hsub.map _)
    outgoing_unit_ids := fun batch hbatch => h.outgoing_unit_ids batch (hsub.subset hbatch)
    coherent := fun batch hbatch => h.coherent batch (hsub.subset hbatch)
    outgoing_fresh := fun batch hbatch => h.outgoing_fresh batch (hsub.subset hbatch) }
  intro batch hsome
  cases hflight.symm.trans hsome

end Sound

end PeerTransfer.Endpoint
