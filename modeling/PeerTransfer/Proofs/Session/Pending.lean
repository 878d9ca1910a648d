import PeerTransfer.Proofs.Lookup
import PeerTransfer.Proofs.Session.Effect

/-!
# Payloads that are pending

A payload of a peer is pending from the time it is announced to its final status, and an endpoint
holds just the payloads that are pending (`Pending.payload?_isSome`). The final status of a payload
that is held touches no send of ours. That of any other is taken for the status of the send that is
under way, if there is one, whatever payload it is about: a status that is told twice ends a send
that it does not belong to (`sendUntouched_iff_of_announced`).
-/

namespace PeerTransfer

open List

namespace Endpoint

theorem payload?_holdPayload (p : Endpoint) (payload other : Int) (content : Bytes) :
    (p.holdPayload payload content).payload? other =
      if other = payload then some content else p.payload? other :=
  lookup_filter_ne_concat p.payloads payload other content

theorem payload?_dropPayload (p : Endpoint) (payload other : Int) :
    (p.dropPayload payload).payload? other =
      if other = payload then none else p.payload? other :=
  lookup_filter_ne p.payloads payload other

end Endpoint

namespace Session

open Table Act

variable {σ : Type} {s : Session σ} {id : String} {p p' : Endpoint}

/-! ## What events do to payloads -/

/-- The send that is under way at an endpoint is as it was, and so is all that belongs to it. -/
structure SendUntouched (p q : Endpoint) : Prop where
  inFlight_eq : q.inFlight = p.inFlight
  state_eq : q.state = p.state
  outgoing_eq : q.outgoing = p.outgoing
  no_send_logged : ∃ entries, q.journal = p.journal ++ entries ∧
    ∀ entry ∈ entries, entry.direction ≠ .send

theorem sendUntouched_log {entries : List JournalEntry}
    (h : ∀ entry ∈ entries, entry.direction ≠ .send) (hflight : p'.inFlight = p.inFlight)
    (hstate : p'.state = p.state) (houtgoing : p'.outgoing = p.outgoing)
    (hjournal : p'.journal = p.journal) : SendUntouched p (p'.log entries) :=
  ⟨hflight, hstate, houtgoing, entries, congrArg (· ++ entries) hjournal, h⟩

theorem sendUntouched_of_eq (hflight : p'.inFlight = p.inFlight) (hstate : p'.state = p.state)
    (houtgoing : p'.outgoing = p.outgoing) (hjournal : p'.journal = p.journal) :
    SendUntouched p p' :=
  ⟨hflight, hstate, houtgoing, [], by rw [hjournal, append_nil], by simp⟩

section Progress

variable (hdistinct : s.table.Distinct) (h : s.table.find? id = some p)

include hdistinct h

theorem exists_focus_acceptPayload (peer : Endpoint) (payload : Int) (content : Bytes) :
    ∃ q notices source,
      ((acceptPayload id peer payload content).run s).2 =
        ({ s with ids := source } : Session σ).focus q notices ∧
      q.id = p.id ∧ q.payloads = p.payloads ∧ SendUntouched p q := by
  rw [run_acceptPayload hdistinct h]
  dsimp only
  split
  · next failure _ =>
    refine ⟨_, _, _, rfl, rfl, rfl, sendUntouched_log ?_ rfl rfl rfl rfl⟩
    simp [badPayloadEntry]
  · next batch _ =>
    refine ⟨_, _, _, rfl, rfl, rfl, sendUntouched_log ?_ rfl rfl rfl rfl⟩
    simp [receiveEntry]

/-- The final status of a payload lets go of it if it is held, and then touches no send. If it is
not held, the status is taken for that of the send that is under way. -/
theorem exists_focus_finishPayload (payload : Int) (status : PayloadStatus) :
    ∃ q notices source,
      ((finishPayload id payload status).run s).2 =
        ({ s with ids := source } : Session σ).focus q notices ∧
      q.id = p.id ∧
      (∀ other, q.payload? other = if other = payload then none else p.payload? other) ∧
      (SendUntouched p q ↔ (p.payload? payload).isSome ∨ p.inFlight = none) := by
  have hself : s = ({ s with ids := s.ids } : Session σ).focus p [] := by
    unfold focus
    rw [focus_self hdistinct h]
  rw [run_finishPayload hdistinct h]
  cases hpayload : p.payload? payload with
  | none =>
    have hnone : ∀ q : Endpoint, q.payloads = p.payloads →
        ∀ other, q.payload? other = if other = payload then none else p.payload? other := by
      intro q hq other
      have heq : q.payload? other = p.payload? other := by
        unfold Endpoint.payload?
        rw [hq]
      split_ifs with hother
      · rw [heq, hother, hpayload]
      · exact heq
    cases hflight : p.inFlight with
    | none =>
      refine ⟨p, [], s.ids, hself, rfl, hnone p rfl, ?_⟩
      simp [sendUntouched_of_eq]
    | some batch =>
      dsimp only
      rw [run_finishSend hdistinct h]
      refine ⟨_, _, s.ids, rfl, id_recordSend _ _ _, hnone _ ?_, ?_⟩
      · unfold recordSend giveFree
        dsimp only
        split_ifs <;> rfl
      · have hended : (recordSend (giveFree p) batch (outcomeOf status)).inFlight = none := by
          unfold recordSend giveFree
          dsimp only
          split_ifs <;> rfl
        constructor
        · intro huntouched
          rw [huntouched.inFlight_eq, hflight] at hended
          cases hended
        · simp
  | some content =>
    have hid : p.id = id := id_of_find? h
    have hdropped := p.payload?_dropPayload payload
    have hfind := find?_focus h (q := p.dropPayload payload) hid []
    dsimp only
    split_ifs with hsuccess
    · obtain ⟨q, notices, source, hrun, hq, hpayloads, huntouched⟩ := exists_focus_acceptPayload
        (s := s.focus (p.dropPayload payload) []) (hdistinct.focus _ _) hfind p payload content
      refine ⟨q, [] ++ notices, source, ?_, hq, ?_, ?_⟩
      · rw [hrun]
        exact focus_focus (s := ({ s with ids := source } : Session σ)) hq [] notices
      · intro other
        rw [← hdropped other]
        unfold Endpoint.payload?
        rw [hpayloads]
      · have hsame : SendUntouched p q :=
          ⟨huntouched.inFlight_eq, huntouched.state_eq, huntouched.outgoing_eq,
            huntouched.no_send_logged⟩
        simp [hsame]
    · refine ⟨p.dropPayload payload, [], s.ids, rfl, rfl, hdropped, ?_⟩
      have hsame : SendUntouched p (p.dropPayload payload) := sendUntouched_of_eq rfl rfl rfl rfl
      simp [hsame]

end Progress

/-! ## Payloads that were announced -/

/-- Whether a payload of an endpoint is pending after an event. Its announcement makes it so, its
final status ends it. -/
def pendingAfter (id : String) (payload : Int) (pending : Bool) : Event → Bool
  | .payloadInitiated endpoint other _ => (endpoint = id ∧ other = payload) || pending
  | .payloadProgress endpoint other status _ _ =>
    pending && !(endpoint = id ∧ other = payload ∧ status ≠ .inProgress)
  | _ => pending

/-- Whether a payload of an endpoint is pending after an action. -/
def Action.leavesPending (id : String) (payload : Int) (pending : Bool) : Action σ → Bool
  | .handle event => pendingAfter id payload pending event
  | _ => pending

theorem payload?_payloadInitiated (hdistinct : s.table.Distinct) (hp : s.table.find? id = some p)
    {other : String} {payload : Int} {content : Bytes}
    (hp' : ((handle (.payloadInitiated other payload content)).run s).2.table.find? id = some p')
    (k : Int) :
    p'.payload? k =
      if other = id ∧ k = payload then some content else p.payload? k := by
  unfold handle at hp'
  dsimp only at hp'
  cases hfind : s.table.find? other with
  | none =>
    have hne : other ≠ id := by
      rintro rfl
      cases hfind.symm.trans hp
    rw [run_move_of_error (update_of_unknown hfind _)] at hp'
    cases hp.symm.trans hp'
    rw [if_neg fun h => hne h.1]
  | some q =>
    have hid : q.id = other := id_of_find? hfind
    rw [run_update hdistinct hfind (·.holdPayload payload content) hid] at hp'
    by_cases hother : other = id
    · subst hother
      cases hfind.symm.trans hp
      cases (find?_focus hfind (q := p.holdPayload payload content) hid []).symm.trans hp'
      rw [Endpoint.payload?_holdPayload]
      simp only [true_and]
    · have hne : id ≠ (q.holdPayload payload content).id := fun h => hother (hid.symm.trans h.symm)
      cases ((find?_focus_of_ne hne []).trans hp).symm.trans hp'
      rw [if_neg fun h => hother h.1]

theorem payload?_finishPayload (hdistinct : s.table.Distinct) (hp : s.table.find? id = some p)
    {other : String} {payload : Int} {status : PayloadStatus}
    (hp' : ((finishPayload other payload status).run s).2.table.find? id = some p') (k : Int) :
    p'.payload? k = if other = id ∧ k = payload then none else p.payload? k := by
  cases hfind : s.table.find? other with
  | none =>
    have hne : other ≠ id := by
      rintro rfl
      cases hfind.symm.trans hp
    rw [run_finishPayload_of_unknown hfind] at hp'
    cases hp.symm.trans hp'
    rw [if_neg fun h => hne h.1]
  | some e =>
    obtain ⟨q, notices, source, hrun, hq, hpayload, -⟩ :=
      exists_focus_finishPayload hdistinct hfind payload status
    have hid : q.id = other := hq.trans (id_of_find? hfind)
    rw [hrun] at hp'
    by_cases hother : other = id
    · subst hother
      cases hfind.symm.trans hp
      cases (find?_focus hfind hid notices).symm.trans hp'
      rw [hpayload]
      simp only [true_and]
    · have hne : id ≠ q.id := fun h => hother (hid.symm.trans h.symm)
      cases ((find?_focus_of_ne hne notices).trans hp).symm.trans hp'
      rw [if_neg fun h => hother h.1]

variable [Services σ] {limit : Nat}

/-- The content of a payload that an endpoint holds after an action, if it still is known. The
payload is held with its latest content, until it is consumed. -/
def Action.contentAfter (id : String) (payload : Int) (content? : Option Bytes) :
    Action σ → Option Bytes
  | .handle (.payloadInitiated endpoint other content) =>
    if endpoint = id ∧ other = payload then some content else content?
  | .handle (.payloadProgress endpoint other status _ _) =>
    if endpoint = id ∧ other = payload ∧ status ≠ .inProgress then none else content?
  | _ => content?

omit [Services σ] in
theorem Action.isSome_contentAfter (id : String) (payload : Int) (content? : Option Bytes)
    (action : Action σ) :
    (action.contentAfter id payload content?).isSome =
      action.leavesPending id payload content?.isSome := by
  cases action with
  | handle event =>
    cases event with
    | payloadInitiated other k content =>
      unfold contentAfter leavesPending pendingAfter
      by_cases h : other = id ∧ k = payload
      · simp [h]
      · simp [h]
    | payloadProgress other k status total transferred =>
      unfold contentAfter leavesPending pendingAfter
      by_cases h : other = id ∧ k = payload ∧ status ≠ .inProgress
      · simp [h]
      · simp [h]
    | _ => rfl
  | _ => rfl

theorem Turn.payloads_eq {action : Action σ} {failure? : Option Failure}
    (h : Turn s p action failure? p')
    (hinitiated : ∀ payload content, action ≠ .handle (.payloadInitiated p.id payload content))
    (hprogress : ∀ payload status total transferred,
      action ≠ .handle (.payloadProgress p.id payload status total transferred)) :
    p'.payloads = p.payloads := by
  cases h with
  | announced => exact absurd rfl (hinitiated _ _)
  | dropped | spoiled | materialized | ended => exact absurd rfl (hprogress _ _ _ _)
  | _ => rfl

theorem payload?_run (hdistinct : s.table.Distinct) (hp : s.table.find? id = some p)
    {action : Action σ} (hp' : (action.run s).table.find? id = some p') (payload : Int) :
    p'.payload? payload = action.contentAfter id payload (p.payload? payload) := by
  have hsame
      (hinitiated : ∀ other k content, action ≠ .handle (.payloadInitiated other k content))
      (hprogress : ∀ other k status total transferred,
        action ≠ .handle (.payloadProgress other k status total transferred)) :
      p'.payload? payload = p.payload? payload := by
    rcases (action.effect hdistinct).eq_or_turn hp hp' with rfl | hturn
    · rfl
    · unfold Endpoint.payload?
      rw [hturn.payloads_eq (hinitiated _) (hprogress _)]
  cases action with
  | handle event =>
    cases event with
    | payloadInitiated other k content =>
      unfold Action.contentAfter
      dsimp only
      rw [payload?_payloadInitiated hdistinct hp hp']
      simp only [eq_comm]
    | payloadProgress other k status total transferred =>
      unfold Action.contentAfter
      unfold Action.run handle at hp'
      dsimp only at hp' ⊢
      by_cases hstatus : status = .inProgress
      · rw [if_pos hstatus] at hp'
        cases hp.symm.trans hp'
        simp [hstatus]
      · rw [if_neg hstatus] at hp'
        rw [payload?_finishPayload hdistinct hp hp']
        simp only [hstatus, ne_eq, not_false_eq_true, and_true, eq_comm]
    | _ => exact hsame (by simp) (by simp)
  | _ => exact hsame (by simp) (by simp)

theorem isSome_payload?_run (hdistinct : s.table.Distinct) (hp : s.table.find? id = some p)
    {action : Action σ} (hp' : (action.run s).table.find? id = some p') (payload : Int) :
    (p'.payload? payload).isSome =
      action.leavesPending id payload (p.payload? payload).isSome := by
  rw [payload?_run hdistinct hp hp', Action.isSome_contentAfter]

/-! ## The status of a payload that was announced -/

/-- The peer has announced the payload since its endpoint became known, and the endpoint has stayed
known. Also says whether the payload is pending. -/
inductive Announced (limit : Nat) (id : String) (payload : Int) : Bool → Session σ → Prop
  | announce {s : Session σ} (content : Bytes) :
      s.Reachable limit → (s.table.find? id).isSome →
      ((handle (.payloadInitiated id payload content)).run s).2.ids.drawn ≤ limit →
      Announced limit id payload true ((handle (.payloadInitiated id payload content)).run s).2
  | act {pending : Bool} {s : Session σ} (action : Action σ) :
      Announced limit id payload pending s → action.Allowed limit s →
      ((action.run s).table.find? id).isSome →
      Announced limit id payload (action.leavesPending id payload pending) (action.run s)

theorem Announced.reachable {payload : Int} {pending : Bool}
    (h : Announced limit id payload pending s) : s.Reachable limit := by
  induction h with
  | announce content hreachable _ hlimit => exact .handle _ hreachable hlimit
  | act action _ hallowed _ ih => exact ih.act hallowed

/-- Actions that leave the payload as it is change nothing about its having been announced. -/
theorem Announced.after {payload : Int} {pending : Bool} {history : List (Action σ)}
    (h : Announced limit id payload pending s)
    (hleaves : ∀ action ∈ history, action.leavesPending id payload pending = pending ∧
      ∀ endpoint descriptor, action ≠ .receiveDescriptor endpoint descriptor)
    (hknown : ∀ n < history.length, ((s.after (history.take (n + 1))).table.find? id).isSome)
    (hlimit : (s.after history).ids.drawn ≤ limit) :
    Announced limit id payload pending (s.after history) := by
  induction history generalizing s with
  | nil => exact h
  | cons action rest ih =>
    rw [forall_mem_cons] at hleaves
    have hdrawn := (precedes_after (action.run s) rest).drawn_le.trans hlimit
    have hact := h.act action (action.allowed_of_drawn hleaves.1.2 hdrawn)
      (hknown 0 (by simp))
    rw [hleaves.1.1] at hact
    exact ih hact hleaves.2 (fun n hn => hknown (n + 1) (by simpa using hn)) hlimit

/-- The endpoint holds the payload just if it is pending. -/
theorem Announced.exists_find? {payload : Int} {pending : Bool}
    (h : Announced limit id payload pending s) :
    ∃ p, s.table.find? id = some p ∧ (p.payload? payload).isSome = pending := by
  induction h with
  | @announce s content hreachable hknown _ =>
    obtain ⟨p, hp⟩ := Option.isSome_iff_exists.1 hknown
    have hdistinct := (sound_of_reachable hreachable).distinct
    have hid : p.id = id := id_of_find? hp
    have hrun := run_update hdistinct hp (·.holdPayload payload content) hid
    have hfind := find?_focus hp (q := p.holdPayload payload content) hid []
    refine ⟨p.holdPayload payload content, ?_, ?_⟩
    · unfold handle
      dsimp only
      rw [hrun]
      exact hfind
    · rw [Endpoint.payload?_holdPayload, if_pos rfl]
      rfl
  | @act pending s action hannounced _ hknown ih =>
    obtain ⟨p, hp, hpending⟩ := ih
    obtain ⟨p', hp'⟩ := Option.isSome_iff_exists.1 hknown
    have hdistinct := (sound_of_reachable hannounced.reachable).distinct
    exact ⟨p', hp', hpending ▸ isSome_payload?_run hdistinct hp hp' payload⟩

/-- The final status of a payload that was announced touches no send just if the payload is pending
still, or no send is under way. -/
theorem sendUntouched_iff_of_announced {payload : Int} {pending : Bool}
    (h : Announced limit id payload pending s) {status : PayloadStatus}
    (hstatus : status ≠ .inProgress) (total transferred : UInt64) :
    ∃ p q, s.table.find? id = some p ∧
      ((handle (.payloadProgress id payload status total transferred)).run s).2.table.find? id =
        some q ∧
      (SendUntouched p q ↔ pending = true ∨ p.inFlight = none) := by
  obtain ⟨p, hp, hpending⟩ := h.exists_find?
  have hdistinct := (sound_of_reachable h.reachable).distinct
  obtain ⟨q, notices, source, hrun, hq, -, huntouched⟩ :=
    exists_focus_finishPayload hdistinct hp payload status
  have hfind := find?_focus hp (hq.trans (id_of_find? hp)) notices
  refine ⟨p, q, hp, ?_, hpending ▸ huntouched⟩
  unfold handle
  dsimp only
  rw [if_neg hstatus, hrun]
  exact hfind

/-- A payload is announced, then a batch of ours is sent, then the payload's transfer ends. -/
theorem sendUntouched_iff_of_announced_before_send :
    let batch := "22222222-2222-2222-2222-222222222222"
    let accepted : Session InMemory :=
      (opened ourSettings ⟨ourDisk, InMemory.empty⟩).after (meeting "e" "peer")
    let announced := ((handle (.payloadInitiated "e" 7 [])).run accepted).2
    let sent := announced.after (offering "e" batch [⟨"/a"⟩] ++ [.sendBatch "e" batch])
    Announced 3 "e" 7 true sent ∧
      (sent.table.endpoints.map fun p => (p.state, p.inFlight)) = [(.sending, some batch)] ∧
      ∃ p q, sent.table.find? "e" = some p ∧
        ((handle (.payloadProgress "e" 7 .success 0 0)).run sent).2.table.find? "e" = some q ∧
        SendUntouched p q := by
  intro batch accepted announced sent
  have haccepted : accepted.Reachable 3 :=
    reachable_after_opened (by decide) (by decide) (by simp [meeting]) (by decide +kernel)
  have hannounced : Announced 3 "e" 7 true announced :=
    .announce [] haccepted (by decide +kernel) (by decide +kernel)
  have hsent : Announced 3 "e" 7 true sent :=
    hannounced.after (by simp [offering, Action.leavesPending]) (by decide +kernel)
      (by decide +kernel)
  have hsending : (sent.table.endpoints.map fun p => (p.state, p.inFlight)) =
      [(.sending, some batch)] := by decide +kernel
  have hstatus : PayloadStatus.success ≠ .inProgress := by decide
  obtain ⟨p, q, hp, hq, huntouched⟩ := sendUntouched_iff_of_announced hsent hstatus 0 0
  exact ⟨hsent, hsending, p, q, hp, hq, huntouched.2 (.inl rfl)⟩

/-- The transfer of a payload is canceled, then a batch of ours is sent, then the channel tells once
more that the payload was canceled. That ends the send. -/
theorem canceled_twice_ends_send :
    let batch := "22222222-2222-2222-2222-222222222222"
    let accepted : Session InMemory :=
      (opened ourSettings ⟨ourDisk, InMemory.empty⟩).after (meeting "e" "peer")
    let announced := ((handle (.payloadInitiated "e" 7 [])).run accepted).2
    let canceled := (Action.handle (.payloadProgress "e" 7 .canceled 0 0)).run announced
    let sent := canceled.after (offering "e" batch [⟨"/a"⟩] ++ [.sendBatch "e" batch])
    let ended := ((handle (.payloadProgress "e" 7 .canceled 0 0)).run sent).2
    Announced 3 "e" 7 false sent ∧
      (sent.table.endpoints.map fun p => (p.state, p.inFlight, p.journal.map (·.direction))) =
        [(.sending, some batch, [.upload])] ∧
      (ended.table.endpoints.map fun p => (p.state, p.inFlight, p.journal.map (·.direction))) =
        [(.connected, none, [.upload, .send])] := by
  intro batch accepted announced canceled sent ended
  have haccepted : accepted.Reachable 3 :=
    reachable_after_opened (by decide) (by decide) (by simp [meeting]) (by decide +kernel)
  have hannounced : Announced 3 "e" 7 true announced :=
    .announce [] haccepted (by decide +kernel) (by decide +kernel)
  have hcanceled : Announced 3 "e" 7 false canceled :=
    .act (.handle (.payloadProgress "e" 7 .canceled 0 0)) hannounced
      (Action.allowed_of_drawn (by simp) (by decide +kernel)) (by decide +kernel)
  have hsent : Announced 3 "e" 7 false sent :=
    hcanceled.after (by simp [offering, Action.leavesPending]) (by decide +kernel)
      (by decide +kernel)
  have hends : (sent.table.endpoints.map fun p =>
        (p.state, p.inFlight, p.journal.map (·.direction))) =
          [(.sending, some batch, [.upload])] ∧
      (ended.table.endpoints.map fun p => (p.state, p.inFlight, p.journal.map (·.direction))) =
        [(.connected, none, [.upload, .send])] := by decide +kernel
  exact ⟨hsent, hends⟩

end Session

end PeerTransfer
