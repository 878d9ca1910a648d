import PeerTransfer.Proofs.Session.Action
import PeerTransfer.Proofs.Session.Handling
import PeerTransfer.Proofs.Session.Sound
import PeerTransfer.Services.InMemory

/-!
# Sessions that come about are settled

Every event, too, leaves a session sound. So by induction on how a session comes about, all of its
endpoints are settled (`settled_of_reachable`).
-/

namespace PeerTransfer.Session

open List Table Act

variable {σ : Type} {limit : Nat} {s s' : Session σ} {id : String} {p : Endpoint}

namespace Sound

section Events

variable (h : s.Sound limit)

include h

theorem acceptPayload (hfind : s.table.find? id = some p) (peer : Endpoint) (payload : Int)
    (content : Bytes)
    (hlimit : ((acceptPayload id peer payload content).run s).2.ids.drawn ≤ limit) :
    ((acceptPayload id peer payload content).run s).2.Sound limit := by
  have hp := h.sound_of_find? hfind
  have hprecedes := Batch.precedes_ofWire content peer.name s.settings.localName s.ids
  have hp' := hp.of_precedes hprecedes
  rw [run_acceptPayload h.distinct hfind] at hlimit ⊢
  dsimp only at hlimit ⊢
  split at hlimit
  · exact (h.withIds hprecedes).focus (hp'.log _) _
  · next batch hbatch =>
    obtain ⟨hsound, hdrawn⟩ := Batch.soundIncoming_of_ofWire h.ids hlimit hbatch
    have hadd := hp'.addIncoming hsound (fun b hb => hdrawn.ne hlimit (hp.incoming_fresh b hb))
      (hdrawn.isFresh hprecedes h.ids)
    exact (h.withIds hprecedes).focus (hadd.log _) _

theorem finishSend (hfind : s.table.find? id = some p) (batch : String) (status : PayloadStatus) :
    ((finishSend id batch status).run s).2.Sound limit := by
  have hfree : (giveFree p).Sound limit s.ids := (h.sound_of_find? hfind).endSend
  rw [run_finishSend h.distinct hfind]
  refine h.focus ?_ _
  unfold recordSend
  dsimp only
  split_ifs
  · exact (hfree.log _).dropOutgoing rfl batch
  · exact hfree.log _

theorem finishPayload (id : String) (payload : Int) (status : PayloadStatus)
    (hlimit : ((finishPayload id payload status).run s).2.ids.drawn ≤ limit) :
    ((finishPayload id payload status).run s).2.Sound limit := by
  cases hfind : s.table.find? id with
  | none =>
    rw [run_finishPayload_of_unknown hfind]
    exact h
  | some p =>
    have hp := h.sound_of_find? hfind
    rw [run_finishPayload h.distinct hfind] at hlimit ⊢
    cases hpayload : p.payload? payload with
    | none =>
      cases p.inFlight with
      | none => exact h
      | some batch => exact h.finishSend hfind batch status
    | some content =>
      have hid : p.id = id := id_of_find? hfind
      have hp' : (p.dropPayload payload).Sound limit s.ids := hp.congr rfl rfl rfl rfl
      have hdropped := h.focus hp' []
      have hfind' := find?_focus hfind (q := p.dropPayload payload) hid []
      rw [hpayload] at hlimit
      dsimp only at hlimit ⊢
      split_ifs at hlimit ⊢
      · exact hdropped.acceptPayload hfind' p payload content hlimit
      · exact hdropped

theorem move {change : Table → Except Failure Table}
    (hchange : ∀ table, change s.table = .ok table → Sound limit { s with table }) :
    ((move change).run s).2.Sound limit := by
  cases htable : change s.table with
  | error failure =>
    rw [run_move_of_error htable]
    exact h
  | ok table =>
    rw [run_move_of_ok htable]
    exact hchange table htable

theorem moveAndDiscard {change : Table → Except Failure (List Path × Table)}
    (hchange : ∀ copies table, change s.table = .ok (copies, table) →
      Sound limit { s with table }) :
    ((moveAndDiscard change).run s).2.Sound limit := by
  cases htable : change s.table with
  | error failure =>
    rw [run_moveAndDiscard_of_error htable]
    exact h
  | ok answer =>
    obtain ⟨copies, table⟩ := answer
    rw [run_moveAndDiscard_of_ok htable]
    exact (hchange copies table htable).of_sublist (Sublist.refl _) rfl

theorem update (id : String) (change : Endpoint → Endpoint) (hid : ∀ p, (change p).id = p.id)
    (hchange : ∀ p : Endpoint, p.Sound limit s.ids → (change p).Sound limit s.ids) :
    ((Act.move (·.update id change)).run s).2.Sound limit := by
  apply h.move
  intro table htable
  cases hfind : s.table.find? id with
  | none =>
    rw [update_of_unknown hfind] at htable
    cases htable
  | some p =>
    rw [update_of_find? h.distinct hfind ((hid p).trans (id_of_find? hfind))] at htable
    cases htable
    exact h.focus (hchange p (h.sound_of_find? hfind)) []

theorem remove (id : String) : ((Act.moveAndDiscard (·.remove id)).run s).2.Sound limit := by
  apply h.moveAndDiscard
  intro copies table htable
  cases hfind : s.table.find? id with
  | none =>
    rw [remove_of_unknown hfind] at htable
    cases htable
  | some p =>
    rw [remove_of_find? hfind] at htable
    cases htable
    exact h.of_sublist filter_sublist rfl

theorem discover (id name : String) (medium : Medium) :
    ((Act.move (·.discover id name medium)).run s).2.Sound limit := by
  apply h.move
  intro table htable
  unfold Table.discover at htable
  split at htable
  · cases htable
  · next hfind =>
    cases htable
    exact h.add hfind (Endpoint.sound_new id name (.inl rfl) medium false) rfl rfl

theorem connectionInitiated (id name : String) :
    ((Act.move (·.connectionInitiated id name)).run s).2.Sound limit := by
  apply h.move
  intro table htable
  cases hfind : s.table.find? id with
  | none =>
    rw [connectionInitiated_of_unknown hfind] at htable
    split_ifs at htable
    cases htable
    exact h.add hfind (Endpoint.sound_new id name (.inr rfl) .unknown true) rfl rfl
  | some p =>
    rw [connectionInitiated_of_find? h.distinct hfind] at htable
    split_ifs at htable with hstate
    cases htable
    have hne : p.state ≠ .sending := by rcases hstate with hstate | hstate <;> simp [hstate]
    have hpending := (h.sound_of_find? hfind).setState hne .pending (by simp)
    exact (h.focus hpending (changeOf p .pending)).of_sublist (Sublist.refl _) rfl

theorem accept (id : String) : ((Act.move (·.accept id)).run s).2.Sound limit := by
  apply h.move
  intro table htable
  cases hfind : s.table.find? id with
  | none =>
    rw [accept_of_unknown hfind] at htable
    cases htable
  | some p =>
    rw [accept_of_find? h.distinct hfind] at htable
    split_ifs at htable with hstate
    cases htable
    have hne : p.state ≠ .sending := by simp [hstate]
    have hconnected := (h.sound_of_find? hfind).setState hne .connected (by simp)
    exact h.focus hconnected (changeOf p .connected)

theorem reject (id : String) : ((Act.moveAndDiscard (·.reject id)).run s).2.Sound limit := by
  apply h.moveAndDiscard
  intro copies table htable
  unfold Table.reject at htable
  cases hfind : s.table.find? id with
  | none =>
    rw [abandonPending_of_unknown hfind] at htable
    cases htable
  | some p =>
    rw [abandonPending_of_find? h.distinct hfind] at htable
    split_ifs at htable with hstate
    · cases htable
      exact h.of_sublist filter_sublist rfl
    · cases htable
      have hne : p.state ≠ .sending := by simp [hstate]
      have hback := (h.sound_of_find? hfind).setState hne .discovered (by simp)
      exact h.focus hback (changeOf p .discovered)

theorem select (id : String) : ((Session.select id).run s).2.Sound limit := by
  apply h.move
  intro table htable
  unfold Table.select at htable
  cases hget : s.table.get id with
  | error failure =>
    rw [hget] at htable
    cases htable
  | ok p =>
    rw [hget] at htable
    cases htable
    exact h.of_sublist (Sublist.refl _) rfl

/-- Whatever an event is, and whatever comes of it, it leaves a session sound. -/
theorem handle (event : Event) (hlimit : ((handle event).run s).2.ids.drawn ≤ limit) :
    ((handle event).run s).2.Sound limit := by
  cases event with
  | endpointFound id name medium => exact h.discover id name medium
  | endpointLost id => exact h.remove id
  | distanceChanged id distance => exact h
  | connectionInitiated id name => exact h.connectionInitiated id name
  | connectionAccepted id => exact h.accept id
  | connectionRejected id => exact h.reject id
  | disconnected id => exact h.remove id
  | bandwidthUpgraded id medium =>
    exact h.update id ({ · with medium }) (fun _ => rfl) fun p hp => hp.congr rfl rfl rfl rfl
  | payloadInitiated id payload content =>
    exact h.update id (·.holdPayload payload content) (fun _ => rfl)
      fun p hp => hp.congr rfl rfl rfl rfl
  | payloadProgress id payload status total transferred =>
    unfold Session.handle at hlimit ⊢
    dsimp only at hlimit ⊢
    by_cases hstatus : status = .inProgress
    · rw [if_pos hstatus]
      exact h
    · rw [if_neg hstatus] at hlimit ⊢
      exact h.finishPayload id payload status hlimit

end Events

/-! ## Queues of events -/

theorem handleAll {events : List Event} (h : s.Sound limit)
    (hlimit : (handleAll events s).ids.drawn ≤ limit) : (handleAll events s).Sound limit := by
  induction events generalizing s with
  | nil => exact h
  | cons event rest ih =>
    have hfirst : ((Session.handle event).run s).2.ids.drawn ≤ limit :=
      (precedes_handleAll rest _).drawn_le.trans hlimit
    exact ih (h.handle event hfirst) hlimit

end Sound

/-! ## All sessions that come about -/

theorem start_eq_ok [Services σ] {settings : Settings} {source : IdSource} {world : World σ}
    (h : Session.start settings source world = .ok s) :
    settings.validate = .ok () ∧
      s = ⟨settings, Table.empty, [], "session-" ++ source.draw.1.text, source.draw.2,
        { world with
          services := Services.register ("session-" ++ source.draw.1.text) world.services }⟩ := by
  unfold Session.start at h
  cases hvalid : settings.validate with
  | error error =>
    rw [hvalid] at h
    cases h
  | ok =>
    rw [hvalid] at h
    cases h
    exact ⟨rfl, rfl⟩

theorem endpoints_of_start [Services σ] {settings : Settings} {source : IdSource}
    {world : World σ} (h : Session.start settings source world = .ok s) :
    s.table.endpoints = [] ∧ source.Precedes s.ids := by
  obtain ⟨-, rfl⟩ := start_eq_ok h
  exact ⟨rfl, IdSource.precedes_draw source⟩

theorem sound_of_reachable [Services σ] (h : s.Reachable limit) : s.Sound limit := by
  induction h with
  | @start settings source world s hdistinct hstart =>
    obtain ⟨hnone, hprecedes⟩ := endpoints_of_start hstart
    refine ⟨?_, hdistinct.of_precedes hprecedes, ?_⟩
    · unfold Distinct
      rw [hnone]
      exact nodup_nil
    · rw [hnone]
      rintro p ⟨⟩
  | world world _ ih => exact ih.of_sublist (Sublist.refl _) rfl
  | notify event _ ih => exact ih.of_sublist (Sublist.refl _) rfl
  | @next s s' event _ hnext ih =>
    unfold next? at hnext
    split at hnext
    · cases hnext
    · cases hnext
      exact ih.of_sublist (Sublist.refl _) rfl
  | subscribe subscriber _ ih => exact ih.of_sublist (Sublist.refl _) rfl
  | unsubscribe subscriber _ ih => exact ih.of_sublist (Sublist.refl _) rfl
  | select endpoint _ ih => exact ih.select endpoint
  | connect endpoint _ ih => exact ih.connect endpoint
  | disconnect endpoint _ ih => exact ih.disconnect endpoint
  | createBatch endpoint sources _ hlimit ih => exact ih.createBatch endpoint sources hlimit
  | loadBatch endpoint batch _ hended ih =>
    exact Act.after_of_ended hended ▸ ih.loadBatch endpoint batch
  | stageBatch endpoint batch _ hended ih =>
    exact Act.after_of_ended hended ▸ ih.stageBatch endpoint batch
  | sendBatch endpoint batch _ ih => exact ih.sendBatch endpoint batch
  | receiveDescriptor endpoint descriptor _ hkeys hfresh ih =>
    exact ih.receiveDescriptor endpoint hkeys hfresh
  | downloadBatch endpoint batch _ hended ih =>
    exact Act.after_of_ended hended ▸ ih.downloadBatch endpoint batch
  | handle event _ hlimit ih => exact ih.handle event hlimit
  | @pump s _ hlimit ih =>
    have hemptied : Sound limit { s with queue := [] } := ih.of_sublist (Sublist.refl _) rfl
    exact hemptied.handleAll hlimit

/-- Between operations every endpoint of a session is settled, in whatever order operations and
events came and whatever failed. -/
theorem settled_of_reachable [Services σ] (h : s.Reachable limit) :
    ∀ p ∈ s.table.endpoints, p.Settled :=
  fun p hp => ((sound_of_reachable h).endpoints p hp).toSettled

/-- A batch of two files is offered to a peer that was accepted, and is on its way. -/
theorem settled_of_reachable_sending :
    let batch := "33333333-3333-3333-3333-333333333333"
    let started : Session InMemory := opened ourSettings ⟨ourDisk, InMemory.empty⟩
    let staged := started.after (meeting "e" "peer" ++ offering "e" batch [⟨"/a"⟩, ⟨"/b"⟩])
    let sent := (Action.sendBatch "e" batch).run staged
    sent.Reachable 4 ∧
      (sent.table.endpoints.map fun p =>
        (p.state, p.inFlight, p.outgoing.map fun found => found.units.map (·.state))) =
          [(.sending, some batch, [[.staged, .staged]])] ∧
      ∀ p ∈ sent.table.endpoints, p.Settled := by
  intro batch started staged sent
  have hstaged : staged.Reachable 4 := reachable_after_opened (by decide) (by decide)
    (by simp [meeting, offering]) (by decide +kernel)
  have hsent : sent.Reachable 4 := .sendBatch "e" batch hstaged
  exact ⟨hsent, by decide +kernel, settled_of_reachable hsent⟩

end PeerTransfer.Session
