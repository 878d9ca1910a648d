import PeerTransfer.Proofs.Session.Act
import PeerTransfer.Proofs.Table.Steps
import PeerTransfer.Session.Connection

/-!
# What connecting and disconnecting come to

An operation on an endpoint that is known comes to one equation: whether it is refused, what the
channel is asked, and which endpoint then stands in the place of the one that was found.
-/

namespace PeerTransfer.Session

open List Table Act

variable {σ : Type} {s : Session σ} {id : String} {p : Endpoint}

section Known

variable (hdistinct : s.table.Distinct) (h : s.table.find? id = some p)

include hdistinct h

theorem run_connect [Services σ] :
    (connect id).run s =
      if p.state = .discovered then
        let pending : Endpoint := { p with state := .pending }
        let answer := Services.connect id s.world.services
        match answer.1 with
        | .ok _ => (.ok (), (s.focus pending (changeOf p .pending)).withServices answer.2)
        | .error failure =>
          (.error failure,
            if p.isIncoming then
              ((s.focus pending (changeOf p .pending)).withServices answer.2).without pending
            else
              (s.focus { p with state := .discovered }
                (changeOf p .pending ++ changeOf pending .discovered)).withServices answer.2)
      else (.error (.endpointConflict .requestConnection id p.state), s) := by
  have hid : p.id = id := id_of_find? h
  have hrequest := requestConnection_of_find? hdistinct h
  unfold connect
  by_cases hstate : p.state = .discovered
  · rw [if_pos hstate] at hrequest ⊢
    rw [run_bind_ok (run_move_of_ok hrequest), run_bind_ok (run_call _)]
    dsimp only
    cases (Services.connect id s.world.services).1 with
    | ok _ => rfl
    | error failure =>
      have hfind := find?_focus h (q := { p with state := .pending }) hid (changeOf p .pending)
      have habandon := abandonPending_of_find? (hdistinct.focus _ _) hfind .failConnection
      rw [if_pos rfl] at habandon
      dsimp only at habandon ⊢
      by_cases hincoming : p.isIncoming
      · rw [if_pos hincoming] at habandon ⊢
        rw [run_bind_ok (run_moveAndDiscard_of_ok habandon)]
        rfl
      · rw [if_neg hincoming, Table.focus_focus (by rfl)] at habandon
        rw [if_neg hincoming, run_bind_ok (run_moveAndDiscard_of_ok habandon)]
        rfl
  · rw [if_neg hstate] at hrequest ⊢
    rw [run_bind_error (run_move_of_error hrequest)]

theorem run_disconnect [Services σ] :
    (disconnect id).run s =
      if p.state = .connected ∨ p.state = .pending then
        let leaving : Endpoint := { p with state := .disconnecting }
        let answer := Services.disconnect id s.world.services
        match answer.1 with
        | .ok _ =>
          (.ok (),
            ((s.focus leaving (changeOf p .disconnecting)).withServices answer.2).without leaving)
        | .error failure =>
          (.error failure,
            (s.focus p (changeOf p .disconnecting ++ changeOf leaving p.state)).withServices
              answer.2)
      else (.error (.endpointConflict .disconnect id p.state), s) := by
  have hid : p.id = id := id_of_find? h
  have hbegin := beginDisconnect_of_find? hdistinct h
  unfold disconnect
  by_cases hstate : p.state = .connected ∨ p.state = .pending
  · rw [if_pos hstate] at hbegin ⊢
    rw [run_bind_ok (run_step_of_ok hbegin), run_bind_ok (run_call _)]
    have hfind := find?_focus h (q := { p with state := .disconnecting }) hid
      (changeOf p .disconnecting)
    dsimp only
    cases (Services.disconnect id s.world.services).1 with
    | ok _ =>
      dsimp only
      rw [run_moveAndDiscard_of_ok (remove_of_find? hfind)]
      rfl
    | error failure =>
      have habort := abortDisconnect_of_find? (hdistinct.focus _ _) hfind hstate
      rw [if_pos rfl, Table.focus_focus (by rfl)] at habort
      dsimp only
      rw [run_bind_ok (run_move_of_ok habort)]
      rfl
  · rw [if_neg hstate] at hbegin ⊢
    rw [run_bind_error (run_step_of_error hbegin)]

end Known

theorem run_connect_of_unknown [Services σ] (h : s.table.find? id = none) :
    (connect id).run s = (.error (.endpointUnknown id), s) := by
  have hrequest : s.table.requestConnection id = .error (.endpointUnknown id) := by
    unfold requestConnection
    rw [transition_of_unknown h]
    rfl
  unfold connect
  rw [run_bind_error (run_move_of_error hrequest)]

theorem run_disconnect_of_unknown [Services σ] (h : s.table.find? id = none) :
    (disconnect id).run s = (.error (.endpointUnknown id), s) := by
  unfold disconnect
  rw [run_bind_error (run_step_of_error (transition_of_unknown h _ _ _))]

end PeerTransfer.Session
