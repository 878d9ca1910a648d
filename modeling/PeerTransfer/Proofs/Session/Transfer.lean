import PeerTransfer.Proofs.Session.Connection
import PeerTransfer.Session.Transfer

/-!
# What the transfers of a session come to

Each operation on a batch comes to one equation, like those on connections. A phase leaves the
endpoint connected as it was, with the batch that the phase has made of its own.
-/

namespace PeerTransfer.Session

open List Table Act

variable {σ : Type} {s : Session σ} {id : String} {p : Endpoint}

/-- The entries that a phase reports, if it reports. -/
def entriesOf : Except Failure PhaseReport → List JournalEntry
  | .ok report => report.entries
  | .error _ => []

/-- The entries for sending a batch of an endpoint. -/
def sendEntries (p : Endpoint) (batch : String) (outcome : Outcome) : List JournalEntry :=
  (((p.outgoing? batch).map (·.units)).getD []).map (sendEntry outcome)

theorem run_endpoint_of_find? (h : s.table.find? id = some p) :
    (endpoint id).run s = (.ok p, s) := by
  rw [run_endpoint, get_of_find? h]

theorem run_endpoint_of_unknown (h : s.table.find? id = none) :
    (endpoint id).run s = (.error (.endpointUnknown id), s) := by
  rw [run_endpoint, get_of_find?_eq_none h]

section Known

variable (hdistinct : s.table.Distinct) (h : s.table.find? id = some p)

include hdistinct h

theorem run_update (change : Endpoint → Endpoint) (hchange : (change p).id = id) :
    (move (·.update id change)).run s = (.ok (), s.focus (change p) []) :=
  run_move_of_focus (update_of_find? hdistinct h hchange)

theorem run_appendLog (entries : List JournalEntry) :
    (move (·.appendLog id entries)).run s =
      (.ok (), s.focus (p.log entries) (entries.map (.logged id))) :=
  run_move_of_focus (appendLog_of_find? hdistinct h entries)

theorem run_logSend (batch : String) (outcome : Outcome) :
    (logSend id batch outcome).run s =
      (.ok (), s.focus (p.log (sendEntries p batch outcome))
        ((sendEntries p batch outcome).map (.logged id))) := by
  refine run_move_of_focus ?_
  dsimp only
  rw [h]
  exact appendLog_of_find? hdistinct h _

theorem run_createBatch (sources : List Path) :
    (createBatch id sources).run s =
      let numbered := s.ids.drawFor sources
      let drawn := numbered.2.draw
      let units := numbered.1.map fun (id, source) => OutgoingUnit.ofPath id source
      match (⟨p.token, s.settings.localName, p.name, units⟩ : Draft OutgoingUnit).build
        drawn.1.text with
      | .error failure => (.error failure, { s with ids := drawn.2 })
      | .ok batch =>
        (.ok batch.id, { s with ids := drawn.2 }.focus (p.addOutgoing batch) []) := by
  have hid : p.id = id := id_of_find? h
  unfold createBatch
  rw [run_bind_ok (run_endpoint_of_find? h), run_bind_ok (run_draw _), run_bind_ok (run_draw _),
    run_bind_ok run_get]
  dsimp only
  cases hbuild : Draft.build (U := OutgoingUnit) ⟨p.token, s.settings.localName, p.name,
      (s.ids.drawFor sources).1.map fun (id, source) => OutgoingUnit.ofPath id source⟩
      (s.ids.drawFor sources).2.draw.1.text with
  | error failure => rw [run_bind_error (run_ofExcept _)]
  | ok batch =>
    have hadd := run_update (s := { s with ids := (s.ids.drawFor sources).2.draw.2 }) hdistinct h
      (·.addOutgoing batch) hid
    rw [run_bind_ok (run_ofExcept _), run_bind_ok hadd]
    rfl

theorem run_receiveDescriptor (descriptor : Descriptor) :
    (receiveDescriptor id descriptor).run s =
      if (p.incoming? descriptor.batchId).isSome then
        (.error (.batchKnown descriptor.batchId), s)
      else match Batch.ofDescriptor descriptor p.name s.settings.localName with
        | .error failure => (.error failure, s)
        | .ok batch => (.ok batch.id, s.focus (p.addIncoming batch) []) := by
  have hid : p.id = id := id_of_find? h
  unfold receiveDescriptor
  rw [run_bind_ok (run_endpoint_of_find? h)]
  split_ifs with hknown
  · rfl
  · rw [run_bind_ok run_get]
    cases hbatch : Batch.ofDescriptor descriptor p.name s.settings.localName with
    | error failure => rw [run_bind_error (run_ofExcept _)]
    | ok batch =>
      have hadd := run_update hdistinct h (·.addIncoming batch) hid
      rw [run_bind_ok (run_ofExcept _), run_bind_ok hadd]
      rfl

theorem run_finishPhase (hstate : p.state = .sending ∨ p.state = .receiving)
    {result : Except Failure PhaseReport} (hended : result ≠ .error .panicked) :
    (finishPhase id result).run s =
      (result, s.focus ({ p with state := .connected }.log (entriesOf result))
        (changeOf p .connected ++ (entriesOf result).map (.logged id))) := by
  have hid : p.id = id := id_of_find? h
  have hfinish := finishTransfer_of_find? hdistinct h
  rw [if_pos hstate] at hfinish
  unfold finishPhase
  split
  · exact absurd rfl hended
  rw [run_bind_ok (run_move_of_focus hfinish)]
  cases result with
  | error failure =>
    rw [run_bind_error (run_ofExcept _), entriesOf, Endpoint.log_nil, map_nil, append_nil]
  | ok report =>
    have hfind := find?_focus h (q := { p with state := .connected }) hid
      (changeOf p .connected)
    have hlog := run_appendLog (s := s.focus { p with state := .connected } (changeOf p .connected))
      (hdistinct.focus _ _) hfind report.entries
    rw [run_bind_ok (run_ofExcept _), run_bind_ok hlog, focus_focus (by rfl)]
    rfl

theorem run_finish_of_claimed {q : Endpoint} (hq : q.id = id) (notices : List Notice)
    (change : Endpoint → Endpoint) (hchange : (change q).id = id)
    (hstate : (change q).state = .sending ∨ (change q).state = .receiving)
    (result : Except Failure PhaseReport) (world : World σ) :
    (do
      set { s.focus q notices with world }
      move (·.update id change)
      finishPhase id result : Act σ PhaseReport).run (s.focus q notices) =
      if result = .error .panicked then
        (.error .panicked, { s.focus (change q) notices with world })
      else (result, { s.focus ({ change q with state := .connected }.log (entriesOf result))
        (notices ++ (changeOf (change q) .connected ++ (entriesOf result).map (.logged id)))
          with world }) := by
  have hfind := find?_focus h (q := q) hq notices
  have hupdate := run_update (s := { s.focus q notices with world }) (hdistinct.focus _ _) hfind
    change hchange
  rw [run_bind_ok (run_set _), run_bind_ok hupdate]
  split_ifs with hpanic
  · have hback := focus_focus (s := s) (hchange.trans hq.symm) notices []
    rw [append_nil] at hback
    rw [hpanic]
    exact congrArg (fun t : Session σ => (Except.error Failure.panicked, { t with world })) hback
  · have hfind' := find?_focus hfind (q := change q) hchange []
    have hfinish := run_finishPhase (s := { s.focus q notices with world }.focus (change q) [])
      ((hdistinct.focus _ _).focus _ _) hfind' hstate hpanic
    have hback := focus_focus (s := s)
      (q := ({ change q with state := .connected } : Endpoint).log (entriesOf result))
      (hchange.trans hq.symm) notices
      (changeOf (change q) .connected ++ (entriesOf result).map (.logged id))
    rw [hfinish, focus_focus (by rfl), nil_append]
    exact congrArg (fun t : Session σ => (result, { t with world })) hback

/-- A phase runs while the connection is claimed, and gives it free whatever it ends in. One that
panics ends nothing, and leaves the connection claimed. -/
theorem run_runOutgoing
    (run : Settings → OutgoingBatch → World σ →
      Except Failure PhaseReport × OutgoingBatch × World σ) (batch : String) :
    (runOutgoing run id batch).run s =
      match p.outgoing? batch with
      | none => (.error (.batchUnknown batch), s)
      | some found =>
        if p.state = .connected then
          let ran := run s.settings found s.world
          if ran.1 = .error .panicked then
            (.error .panicked, { s.focus { p.setOutgoing ran.2.1 with state := .sending }
              (changeOf p .sending) with world := ran.2.2 })
          else (ran.1, { s.focus ({ p.setOutgoing ran.2.1 with state := .connected }.log
              (entriesOf ran.1))
            (changeOf p .sending ++ (changeOf { p with state := .sending } .connected ++
              (entriesOf ran.1).map (.logged id))) with world := ran.2.2 })
        else (.error (.endpointConflict .beginTransfer id p.state), s) := by
  have hid : p.id = id := id_of_find? h
  have hbegin := beginTransfer_of_find? hdistinct h .upload
  unfold runOutgoing
  rw [run_bind_ok (run_endpoint_of_find? h)]
  cases p.outgoing? batch with
  | none => rfl
  | some found =>
    dsimp only
    by_cases hstate : p.state = .connected
    · rw [if_pos hstate] at hbegin ⊢
      rw [run_bind_ok (run_move_of_focus hbegin), run_bind_ok run_get]
      exact run_finish_of_claimed hdistinct h (q := { p with state := .sending }) hid _
        (·.setOutgoing (run s.settings found s.world).2.1) hid (.inl rfl) _ _
    · rw [if_neg hstate] at hbegin ⊢
      rw [run_bind_error (run_move_of_error hbegin)]

theorem after_runOutgoing
    (run : Settings → OutgoingBatch → World σ →
      Except Failure PhaseReport × OutgoingBatch × World σ) (batch : String) :
    (runOutgoing run id batch).after s =
      match p.outgoing? batch with
      | none => s
      | some found =>
        if p.state = .connected then
          let ran := run s.settings found s.world
          if ran.1 = .error .panicked then s
          else { s.focus ({ p.setOutgoing ran.2.1 with state := .connected }.log
              (entriesOf ran.1))
            (changeOf p .sending ++ (changeOf { p with state := .sending } .connected ++
              (entriesOf ran.1).map (.logged id))) with world := ran.2.2 }
        else s := by
  have hrun := run_runOutgoing hdistinct h run batch
  cases hfound : p.outgoing? batch with
  | none =>
    rw [hfound] at hrun
    rw [after_of_ended (by rw [hrun]; nofun), hrun]
  | some found =>
    rw [hfound] at hrun
    dsimp only at hrun ⊢
    split_ifs at hrun ⊢ with hstate hpanic
    · rw [after_of_panicked (by rw [hrun])]
    · rw [after_of_ended (by rwa [hrun]), hrun]
    · rw [after_of_ended (by rw [hrun]; nofun), hrun]

theorem run_downloadBatch [Services σ] (batch : String) :
    (downloadBatch id batch).run s =
      match p.incoming? batch with
      | none => (.error (.batchUnknown batch), s)
      | some found =>
        if p.state = .connected then
          let ran := Phase.runDownload s.settings found s.world
          if ran.1 = .error .panicked then
            (.error .panicked, { s.focus { p.setIncoming ran.2.1 with state := .receiving }
              (changeOf p .receiving) with world := ran.2.2 })
          else (ran.1, { s.focus ({ p.setIncoming ran.2.1 with state := .connected }.log
              (entriesOf ran.1))
            (changeOf p .receiving ++ (changeOf { p with state := .receiving } .connected ++
              (entriesOf ran.1).map (.logged id))) with world := ran.2.2 })
        else (.error (.endpointConflict .beginTransfer id p.state), s) := by
  have hid : p.id = id := id_of_find? h
  have hbegin := beginTransfer_of_find? hdistinct h .download
  unfold downloadBatch
  rw [run_bind_ok (run_endpoint_of_find? h)]
  cases p.incoming? batch with
  | none => rfl
  | some found =>
    dsimp only
    by_cases hstate : p.state = .connected
    · rw [if_pos hstate] at hbegin ⊢
      rw [run_bind_ok (run_move_of_focus hbegin), run_bind_ok run_get]
      exact run_finish_of_claimed hdistinct h (q := { p with state := .receiving }) hid _
        (·.setIncoming (Phase.runDownload s.settings found s.world).2.1) hid (.inr rfl) _ _
    · rw [if_neg hstate] at hbegin ⊢
      rw [run_bind_error (run_move_of_error hbegin)]

theorem after_downloadBatch [Services σ] (batch : String) :
    (downloadBatch id batch).after s =
      match p.incoming? batch with
      | none => s
      | some found =>
        if p.state = .connected then
          let ran := Phase.runDownload s.settings found s.world
          if ran.1 = .error .panicked then s
          else { s.focus ({ p.setIncoming ran.2.1 with state := .connected }.log
              (entriesOf ran.1))
            (changeOf p .receiving ++ (changeOf { p with state := .receiving } .connected ++
              (entriesOf ran.1).map (.logged id))) with world := ran.2.2 }
        else s := by
  have hrun := run_downloadBatch hdistinct h batch
  cases hfound : p.incoming? batch with
  | none =>
    rw [hfound] at hrun
    rw [after_of_ended (by rw [hrun]; nofun), hrun]
  | some found =>
    rw [hfound] at hrun
    dsimp only at hrun ⊢
    split_ifs at hrun ⊢ with hstate hpanic
    · rw [after_of_panicked (by rw [hrun])]
    · rw [after_of_ended (by rwa [hrun]), hrun]
    · rw [after_of_ended (by rw [hrun]; nofun), hrun]

theorem run_send [Services σ] (hstate : p.state = .sending) (batch : String) (payload : Bytes) :
    (do
      match ← call (Services.send id payload) with
      | .ok () => move (·.update id ({ · with inFlight := some batch }))
      | .error failure =>
        move (·.finishTransfer id)
        logSend id batch .failure
        throw failure : Act σ Unit).run s =
      let answer := Services.send id payload s.world.services
      match answer.1 with
      | .ok _ => (.ok (), (s.focus { p with inFlight := some batch } []).withServices answer.2)
      | .error failure =>
        (.error failure,
          (s.focus ({ p with state := .connected }.log (sendEntries p batch .failure))
            (changeOf p .connected ++ (sendEntries p batch .failure).map (.logged id))).withServices
              answer.2) := by
  have hid : p.id = id := id_of_find? h
  rw [run_bind_ok (run_call _)]
  dsimp only
  set s' := s.withServices (Services.send id payload s.world.services).2 with hs'
  cases (Services.send id payload s.world.services).1 with
  | ok _ => exact run_update (s := s') hdistinct h ({ · with inFlight := some batch }) hid
  | error failure =>
    have hfinish : s'.table.finishTransfer id = _ := finishTransfer_of_find? hdistinct h
    rw [if_pos (.inl hstate)] at hfinish
    have hfind := find?_focus h (q := { p with state := .connected }) hid (changeOf p .connected)
    have hlog := run_logSend (s := s'.focus { p with state := .connected } (changeOf p .connected))
      (hdistinct.focus _ _) hfind batch .failure
    dsimp only
    refine (run_bind_ok (run_move_of_focus hfinish)).trans ?_
    rw [run_bind_ok hlog, focus_focus (by rfl)]
    rfl

/-- A send that the channel takes keeps the connection claimed; one that it refuses is recorded. -/
theorem run_sendBatch [Services σ] (batch : String) :
    (sendBatch id batch).run s =
      match p.outgoing? batch with
      | none => (.error (.batchUnknown batch), s)
      | some found =>
        if found.state ≠ OutgoingState.staged then
          (.error (.batchNotStaged batch found.state), s)
        else match found.encodeWire with
          | .error failure => (.error failure, s)
          | .ok payload =>
            if p.state = .connected then
              let answer := Services.send id payload s.world.services
              match answer.1 with
              | .ok _ =>
                (.ok (), (s.focus { p with state := .sending, inFlight := some batch }
                  (changeOf p .sending)).withServices answer.2)
              | .error failure =>
                (.error failure, (s.focus
                  ({ p with state := .connected }.log (sendEntries p batch .failure))
                  (changeOf p .sending ++ (changeOf { p with state := .sending } .connected ++
                    (sendEntries p batch .failure).map (.logged id)))).withServices answer.2)
            else (.error (.endpointConflict .beginTransfer id p.state), s) := by
  have hid : p.id = id := id_of_find? h
  have hbegin := beginTransfer_of_find? hdistinct h .send
  unfold sendBatch
  rw [run_bind_ok (run_endpoint_of_find? h)]
  cases p.outgoing? batch with
  | none => rfl
  | some found =>
    dsimp only
    by_cases hstaged : found.state ≠ OutgoingState.staged
    · rw [if_pos hstaged, if_pos hstaged]
      rfl
    rw [if_neg hstaged, if_neg hstaged]
    cases found.encodeWire with
    | error failure => rw [run_bind_error (run_ofExcept _)]
    | ok payload =>
      dsimp only
      by_cases hstate : p.state = .connected
      · rw [if_pos hstate] at hbegin ⊢
        have hfind := find?_focus h (q := { p with state := .sending }) hid (changeOf p .sending)
        have hsend := run_send (s := s.focus { p with state := .sending } (changeOf p .sending))
          (hdistinct.focus _ _) hfind rfl batch payload
        rw [run_bind_ok (run_ofExcept _), run_bind_ok (run_move_of_focus hbegin)]
        refine hsend.trans ?_
        rw [world_focus]
        dsimp only
        cases (Services.send id payload s.world.services).1 with
        | ok _ =>
          dsimp only
          rw [focus_focus (by rfl), append_nil]
        | error failure =>
          dsimp only
          rw [focus_focus (by rfl)]
          rfl
      · rw [if_neg hstate] at hbegin ⊢
        rw [run_bind_ok (run_ofExcept _), run_bind_error (run_move_of_error hbegin)]

end Known

/-! ## Operations on an endpoint that is not known -/

section Unknown

variable (h : s.table.find? id = none)

include h

theorem run_createBatch_of_unknown (sources : List Path) :
    (createBatch id sources).run s = (.error (.endpointUnknown id), s) := by
  unfold createBatch
  rw [run_bind_error (run_endpoint_of_unknown h)]

theorem run_receiveDescriptor_of_unknown (descriptor : Descriptor) :
    (receiveDescriptor id descriptor).run s = (.error (.endpointUnknown id), s) := by
  unfold receiveDescriptor
  rw [run_bind_error (run_endpoint_of_unknown h)]

theorem run_runOutgoing_of_unknown
    (run : Settings → OutgoingBatch → World σ →
      Except Failure PhaseReport × OutgoingBatch × World σ) (batch : String) :
    (runOutgoing run id batch).run s = (.error (.endpointUnknown id), s) := by
  unfold runOutgoing
  rw [run_bind_error (run_endpoint_of_unknown h)]

theorem after_runOutgoing_of_unknown
    (run : Settings → OutgoingBatch → World σ →
      Except Failure PhaseReport × OutgoingBatch × World σ) (batch : String) :
    (runOutgoing run id batch).after s = s := by
  have hrun := run_runOutgoing_of_unknown h run batch
  rw [after_of_ended (by rw [hrun]; nofun), hrun]

theorem run_downloadBatch_of_unknown [Services σ] (batch : String) :
    (downloadBatch id batch).run s = (.error (.endpointUnknown id), s) := by
  unfold downloadBatch
  rw [run_bind_error (run_endpoint_of_unknown h)]

theorem after_downloadBatch_of_unknown [Services σ] (batch : String) :
    (downloadBatch id batch).after s = s := by
  have hrun := run_downloadBatch_of_unknown h batch
  rw [after_of_ended (by rw [hrun]; nofun), hrun]

theorem run_sendBatch_of_unknown [Services σ] (batch : String) :
    (sendBatch id batch).run s = (.error (.endpointUnknown id), s) := by
  unfold sendBatch
  rw [run_bind_error (run_endpoint_of_unknown h)]

end Unknown

end PeerTransfer.Session
