import PeerTransfer.Proofs.Session.Transfer
import PeerTransfer.Session.Handling

/-!
# What the final status of a payload comes to

A payload that is held becomes a batch or is let go of. Any other ends the send that is under way,
if there is one.
-/

namespace PeerTransfer.Session

open List Table Act

variable {σ : Type} {s : Session σ} {id : String} {p : Endpoint}

/-- The endpoint once the send of a batch is recorded. A batch that has arrived is let go of. -/
def recordSend (p : Endpoint) (batch : String) (outcome : Outcome) : Endpoint :=
  let logged := p.log (sendEntries p batch outcome)
  if outcome = .success then logged.dropOutgoing batch else logged

/-- The endpoint once no send is under way. -/
def giveFree (p : Endpoint) : Endpoint :=
  { p with inFlight := none, state := if p.state = .sending then .connected else p.state }

theorem id_recordSend (p : Endpoint) (batch : String) (outcome : Outcome) :
    (recordSend p batch outcome).id = p.id := by
  unfold recordSend
  dsimp only
  split_ifs <;> rfl

section Known

variable (hdistinct : s.table.Distinct) (h : s.table.find? id = some p)

include hdistinct h

theorem run_acceptPayload (peer : Endpoint) (payload : Int) (content : Bytes) :
    (acceptPayload id peer payload content).run s =
      let taken := Batch.ofWire content peer.name s.settings.localName s.ids
      let s' : Session σ := { s with ids := taken.2 }
      match taken.1 with
      | .error failure =>
        (.error failure, s'.focus (p.log [badPayloadEntry payload content])
          [.logged id (badPayloadEntry payload content)])
      | .ok batch =>
        (.ok (), s'.focus ((p.addIncoming batch).log (batch.units.map receiveEntry))
          ((batch.units.map receiveEntry).map (.logged id))) := by
  have hid : p.id = id := id_of_find? h
  unfold acceptPayload
  rw [run_bind_ok run_get, run_bind_ok (run_draw _)]
  dsimp only
  set s' : Session σ :=
    { s with ids := (Batch.ofWire content peer.name s.settings.localName s.ids).2 } with hs'
  cases (Batch.ofWire content peer.name s.settings.localName s.ids).1 with
  | error failure =>
    have hlog := run_appendLog (s := s') hdistinct h [badPayloadEntry payload content]
    exact run_bind_ok hlog
  | ok batch =>
    have hadd := run_update (s := s') hdistinct h (·.addIncoming batch) hid
    have hfind := find?_focus h (q := p.addIncoming batch) hid []
    have hlog := run_appendLog (s := s'.focus (p.addIncoming batch) []) (hdistinct.focus _ _) hfind
      (batch.units.map receiveEntry)
    refine (run_bind_ok hadd).trans (hlog.trans ?_)
    rw [focus_focus (by rfl), nil_append]

theorem run_logSend_dropOutgoing (batch : String) (outcome : Outcome) :
    (do
      logSend id batch outcome
      if outcome = .success then move (·.update id (·.dropOutgoing batch)) : Act σ Unit).run s =
      (.ok (), s.focus (recordSend p batch outcome)
        ((sendEntries p batch outcome).map (.logged id))) := by
  have hid : p.id = id := id_of_find? h
  rw [run_bind_ok (run_logSend hdistinct h batch outcome)]
  unfold recordSend
  split_ifs with hsuccess
  · set logged := p.log (sendEntries p batch outcome)
    have hfind := find?_focus h (q := logged) hid ((sendEntries p batch outcome).map (.logged id))
    have hdrop := run_update
      (s := s.focus logged ((sendEntries p batch outcome).map (.logged id))) (hdistinct.focus _ _)
      hfind (·.dropOutgoing batch) hid
    refine hdrop.trans ?_
    rw [focus_focus (by rfl), append_nil]
  · rfl

theorem run_finishSend (batch : String) (status : PayloadStatus) :
    (finishSend id batch status).run s =
      (.ok (), s.focus (recordSend (giveFree p) batch (outcomeOf status))
        ((if p.state = .sending then changeOf p .connected else []) ++
          (sendEntries p batch (outcomeOf status)).map (.logged id))) := by
  have hid : p.id = id := id_of_find? h
  have hclear := run_update hdistinct h ({ · with inFlight := none }) hid
  have hfind := find?_focus h (q := { p with inFlight := none }) hid []
  have hdistinct' := hdistinct.focus { p with inFlight := none } []
  unfold finishSend giveFree
  rw [run_bind_ok hclear, run_bind_ok (run_endpoint_of_find? hfind)]
  dsimp only
  by_cases hstate : p.state = .sending
  · have hfinish := finishTransfer_of_find? hdistinct' hfind
    rw [if_pos (.inl hstate), Table.focus_focus (by rfl), nil_append] at hfinish
    have hfind' := find?_focus h (q := { p with inFlight := none, state := .connected }) hid
      (changeOf p .connected)
    have hrecord := run_logSend_dropOutgoing (s := s.focus
      { p with inFlight := none, state := .connected } (changeOf p .connected))
      (hdistinct.focus _ _) hfind' batch (outcomeOf status)
    rw [if_pos hstate, if_pos hstate, if_pos hstate]
    refine (run_bind_ok (run_move_of_ok hfinish)).trans (hrecord.trans ?_)
    rw [focus_focus (id_recordSend _ _ _)]
    rfl
  · have hrecord := run_logSend_dropOutgoing (s := s.focus { p with inFlight := none } [])
      hdistinct' hfind batch (outcomeOf status)
    rw [if_neg hstate, if_neg hstate, if_neg hstate]
    refine hrecord.trans ?_
    rw [focus_focus (id_recordSend _ _ _)]
    rfl

theorem run_finishPayload (payload : Int) (status : PayloadStatus) :
    (finishPayload id payload status).run s =
      match p.payload? payload with
      | some content =>
        if status = .success then
          (acceptPayload id p payload content).run (s.focus (p.dropPayload payload) [])
        else (.ok (), s.focus (p.dropPayload payload) [])
      | none =>
        match p.inFlight with
        | none => (.ok (), s)
        | some batch => (finishSend id batch status).run s := by
  have hid : p.id = id := id_of_find? h
  unfold finishPayload
  rw [run_bind_ok (run_endpoint_of_find? h)]
  cases p.payload? payload with
  | none => cases p.inFlight <;> rfl
  | some content =>
    have hdrop := run_update hdistinct h (·.dropPayload payload) hid
    dsimp only
    rw [run_bind_ok hdrop]
    split_ifs <;> rfl

/-- A held payload that has arrived becomes a batch, or it is recorded as none. -/
theorem run_finishPayload_success {payload : Int} {content : Bytes}
    (hpayload : p.payload? payload = some content) :
    (finishPayload id payload .success).run s =
      let taken := Batch.ofWire content p.name s.settings.localName s.ids
      let s' : Session σ := { s with ids := taken.2 }
      let dropped := p.dropPayload payload
      match taken.1 with
      | .error failure =>
        (.error failure, s'.focus (dropped.log [badPayloadEntry payload content])
          [.logged id (badPayloadEntry payload content)])
      | .ok batch =>
        (.ok (), s'.focus ((dropped.addIncoming batch).log (batch.units.map receiveEntry))
          ((batch.units.map receiveEntry).map (.logged id))) := by
  have hid : p.id = id := id_of_find? h
  have hfind := find?_focus h (q := p.dropPayload payload) hid []
  have haccept := run_acceptPayload (s := s.focus (p.dropPayload payload) []) (hdistinct.focus _ _)
    hfind p payload content
  have hback (source : IdSource) (q : Endpoint) (hq : q.id = p.id) (notices : List Notice) :
      ({ s.focus (p.dropPayload payload) [] with ids := source } : Session σ).focus q notices =
        ({ s with ids := source } : Session σ).focus q notices := by
    refine (focus_focus (s := ({ s with ids := source } : Session σ)) ?_ [] notices).trans ?_
    · exact hq
    · rw [nil_append]
  rw [run_finishPayload hdistinct h, hpayload]
  dsimp only
  rw [if_pos rfl, haccept]
  dsimp only [settings_focus, ids_focus]
  cases (Batch.ofWire content p.name s.settings.localName s.ids).1 with
  | error failure => exact congrArg (Prod.mk _) (hback _ _ (by rfl) _)
  | ok batch => exact congrArg (Prod.mk _) (hback _ _ (by rfl) _)

end Known

theorem run_finishPayload_of_unknown (h : s.table.find? id = none) (payload : Int)
    (status : PayloadStatus) :
    (finishPayload id payload status).run s = (.error (.endpointUnknown id), s) := by
  unfold finishPayload
  rw [run_bind_error (run_endpoint_of_unknown h)]

end PeerTransfer.Session
