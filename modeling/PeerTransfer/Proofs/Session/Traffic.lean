import PeerTransfer.Proofs.Services.Recorded
import PeerTransfer.Proofs.Session.Pending

/-!
# What an action asks of the services

Only six actions turn to the services, and those about batches only while the peer is connected.
`Traffic` lists them with the state in which they leave the services (`Action.traffic`).
-/

namespace PeerTransfer.Session

open List Table Act

variable {σ : Type} [Services σ]

/-- The state in which an action leaves the services. -/
inductive Traffic (s : Session σ) : Action σ → σ → Prop
  | silent (action : Action σ) : Traffic s action s.world.services
  | outside (world : World σ) : Traffic s (.outside world) world.services
  | connected {p : Endpoint} : s.table.find? p.id = some p → p.state = .discovered →
      Traffic s (.connect p.id) (Services.connect p.id s.world.services).2
  | disconnected {p : Endpoint} : s.table.find? p.id = some p →
      p.state = .connected ∨ p.state = .pending →
      Traffic s (.disconnect p.id) (Services.disconnect p.id s.world.services).2
  | staged {p : Endpoint} {batch : String} {found : OutgoingBatch} :
      s.table.find? p.id = some p → p.outgoing? batch = some found → p.state = .connected →
      (Phase.runStage s.settings found s.world).1 ≠ .error .panicked →
      Traffic s (.stageBatch p.id batch) (Phase.runStage s.settings found s.world).2.2.services
  | downloaded {p : Endpoint} {batch : String} {found : IncomingBatch} :
      s.table.find? p.id = some p → p.incoming? batch = some found → p.state = .connected →
      Traffic s (.downloadBatch p.id batch)
        (Phase.runDownload s.settings found s.world).2.2.services
  | sent {p : Endpoint} {batch : String} {found : OutgoingBatch} {payload : Bytes} :
      s.table.find? p.id = some p → p.outgoing? batch = some found →
      found.encodeWire = .ok payload → p.state = .connected →
      Traffic s (.sendBatch p.id batch) (Services.send p.id payload s.world.services).2

variable {s : Session σ} {action : Action σ}

theorem traffic_move (change : Table → Except Failure Table) :
    Traffic s action ((move change).run s).2.world.services := by
  cases htable : change s.table with
  | error failure =>
    rw [run_move_of_error htable]
    exact .silent action
  | ok table =>
    rw [run_move_of_ok htable]
    exact .silent action

theorem traffic_moveAndDiscard (change : Table → Except Failure (List Path × Table)) :
    Traffic s action ((moveAndDiscard change).run s).2.world.services := by
  cases htable : change s.table with
  | error failure =>
    rw [run_moveAndDiscard_of_error htable]
    exact .silent action
  | ok answer =>
    rw [run_moveAndDiscard_of_ok htable]
    exact .silent action

section Operations

variable (hdistinct : s.table.Distinct)

include hdistinct

theorem traffic_connect (id : String) :
    Traffic s (.connect id) ((connect id).run s).2.world.services := by
  cases hfind : s.table.find? id with
  | none =>
    rw [run_connect_of_unknown hfind]
    exact .silent _
  | some p =>
    obtain rfl : p.id = id := id_of_find? hfind
    rw [run_connect hdistinct hfind]
    by_cases hstate : p.state = .discovered
    · rw [if_pos hstate]
      dsimp only
      split
      · exact .connected hfind hstate
      · split_ifs <;> exact .connected hfind hstate
    · rw [if_neg hstate]
      exact .silent _

theorem traffic_disconnect (id : String) :
    Traffic s (.disconnect id) ((disconnect id).run s).2.world.services := by
  cases hfind : s.table.find? id with
  | none =>
    rw [run_disconnect_of_unknown hfind]
    exact .silent _
  | some p =>
    obtain rfl : p.id = id := id_of_find? hfind
    rw [run_disconnect hdistinct hfind]
    split_ifs with hstate
    · dsimp only
      split <;> exact .disconnected hfind hstate
    · exact .silent _

theorem traffic_createBatch (id : String) (sources : List Path) :
    Traffic s action ((createBatch id sources).run s).2.world.services := by
  cases hfind : s.table.find? id with
  | none =>
    rw [run_createBatch_of_unknown hfind]
    exact .silent _
  | some p =>
    rw [run_createBatch hdistinct hfind]
    dsimp only
    split <;> exact .silent _

theorem traffic_receiveDescriptor (id : String) (descriptor : Descriptor) :
    Traffic s action ((receiveDescriptor id descriptor).run s).2.world.services := by
  cases hfind : s.table.find? id with
  | none =>
    rw [run_receiveDescriptor_of_unknown hfind]
    exact .silent _
  | some p =>
    rw [run_receiveDescriptor hdistinct hfind]
    split_ifs
    · exact .silent _
    · split <;> exact .silent _

theorem traffic_loadBatch (id batch : String) :
    Traffic s action ((loadBatch id batch).after s).world.services := by
  unfold loadBatch
  cases hfind : s.table.find? id with
  | none =>
    rw [after_runOutgoing_of_unknown hfind]
    exact .silent _
  | some p =>
    rw [after_runOutgoing hdistinct hfind]
    split
    · exact .silent _
    · dsimp only
      split_ifs <;> exact .silent _

theorem traffic_stageBatch (id batch : String) :
    Traffic s (.stageBatch id batch) ((stageBatch id batch).after s).world.services := by
  unfold stageBatch
  cases hfind : s.table.find? id with
  | none =>
    rw [after_runOutgoing_of_unknown hfind]
    exact .silent _
  | some p =>
    obtain rfl : p.id = id := id_of_find? hfind
    rw [after_runOutgoing hdistinct hfind]
    split
    · exact .silent _
    · next found hfound =>
      dsimp only
      split_ifs with hstate hpanic
      · exact .silent _
      · exact .staged hfind hfound hstate hpanic
      · exact .silent _

theorem traffic_downloadBatch (id batch : String) :
    Traffic s (.downloadBatch id batch) ((downloadBatch id batch).after s).world.services := by
  cases hfind : s.table.find? id with
  | none =>
    rw [after_downloadBatch_of_unknown hfind]
    exact .silent _
  | some p =>
    obtain rfl : p.id = id := id_of_find? hfind
    rw [after_downloadBatch hdistinct hfind]
    split
    · exact .silent _
    · next found hfound =>
      dsimp only
      split_ifs with hstate
      · exact .silent _
      · exact .downloaded hfind hfound hstate
      · exact .silent _

theorem traffic_sendBatch (id batch : String) :
    Traffic s (.sendBatch id batch) ((sendBatch id batch).run s).2.world.services := by
  cases hfind : s.table.find? id with
  | none =>
    rw [run_sendBatch_of_unknown hfind]
    exact .silent _
  | some p =>
    obtain rfl : p.id = id := id_of_find? hfind
    rw [run_sendBatch hdistinct hfind]
    split
    · exact .silent _
    · next found hfound =>
      by_cases hstaged : found.state ≠ OutgoingState.staged
      · rw [if_pos hstaged]
        exact .silent _
      rw [if_neg hstaged]
      split
      · exact .silent _
      · next payload hpayload =>
        split_ifs with hstate
        · dsimp only
          split <;> exact .sent hfind hfound hpayload hstate
        · exact .silent _

theorem traffic_finishPayload (id : String) (payload : Int) (status : PayloadStatus) :
    Traffic s action ((finishPayload id payload status).run s).2.world.services := by
  cases hfind : s.table.find? id with
  | none =>
    rw [run_finishPayload_of_unknown hfind]
    exact .silent _
  | some p =>
    obtain ⟨q, notices, source, hrun, -⟩ :=
      exists_focus_finishPayload hdistinct hfind payload status
    rw [hrun]
    exact .silent _

theorem traffic_handle (event : Event) :
    Traffic s (.handle event) ((handle event).run s).2.world.services := by
  cases event with
  | endpointLost | disconnected | connectionRejected => exact traffic_moveAndDiscard _
  | distanceChanged id distance => exact .silent _
  | payloadProgress id payload status total transferred =>
    unfold handle
    dsimp only
    split_ifs
    · exact .silent _
    · exact traffic_finishPayload hdistinct id payload status
  | _ => exact traffic_move _

/-- Every action asks of the services what `Traffic` says, and nothing else. -/
theorem Action.traffic (action : Action σ) : Traffic s action (action.run s).world.services := by
  cases action with
  | outside world => exact .outside world
  | notify | emptyQueue | subscribe | unsubscribe => exact .silent _
  | next =>
    rw [Action.run_next]
    unfold next?
    split <;> exact .silent _
  | select id => exact traffic_move _
  | connect id => exact traffic_connect hdistinct id
  | disconnect id => exact traffic_disconnect hdistinct id
  | createBatch id sources => exact traffic_createBatch hdistinct id sources
  | loadBatch id batch => exact traffic_loadBatch hdistinct id batch
  | stageBatch id batch => exact traffic_stageBatch hdistinct id batch
  | sendBatch id batch => exact traffic_sendBatch hdistinct id batch
  | receiveDescriptor id descriptor => exact traffic_receiveDescriptor hdistinct id descriptor
  | downloadBatch id batch => exact traffic_downloadBatch hdistinct id batch
  | handle event => exact traffic_handle hdistinct event

end Operations

end PeerTransfer.Session
