import PeerTransfer.Proofs.Table.Focus

/-!
# What the steps of the table come to

Each step is either refused, with the failure that says why, or it changes the one endpoint it is
about. Which of the two it is depends on that endpoint alone.
-/

namespace PeerTransfer.Table

open List

variable {table : Table} {id : String} {p : Endpoint}

/-! ## Steps from one state to another -/

section Known

variable (hdistinct : table.Distinct) (h : table.find? id = some p)

include hdistinct h

theorem snd_transition (allowed : List EndpointState) (next : EndpointState)
    (operation : EndpointOperation) :
    (do return (← table.transition id allowed next operation).2 : Except Failure Table) =
      if p.state ∈ allowed then .ok (table.focus { p with state := next } (changeOf p next))
      else .error (.endpointConflict operation id p.state) := by
  split_ifs with hstate
  · rw [transition_of_mem hdistinct h hstate]
    rfl
  · rw [transition_of_not_mem h hstate]
    rfl

theorem requestConnection_of_find? :
    table.requestConnection id =
      if p.state = .discovered then
        .ok (table.focus { p with state := .pending } (changeOf p .pending))
      else .error (.endpointConflict .requestConnection id p.state) := by
  unfold requestConnection
  simpa only [mem_singleton] using
    snd_transition hdistinct h [.discovered] .pending .requestConnection

theorem accept_of_find? :
    table.accept id =
      if p.state = .pending then
        .ok (table.focus { p with state := .connected } (changeOf p .connected))
      else .error (.endpointConflict .acceptConnection id p.state) := by
  unfold accept
  simpa only [mem_singleton] using
    snd_transition hdistinct h [.pending] .connected .acceptConnection

theorem beginTransfer_of_find? (direction : Direction) :
    table.beginTransfer id direction =
      if p.state = .connected then
        .ok (table.focus { p with state := stateDuring direction }
          (changeOf p (stateDuring direction)))
      else .error (.endpointConflict .beginTransfer id p.state) := by
  unfold beginTransfer
  simpa only [mem_singleton] using
    snd_transition hdistinct h [.connected] (stateDuring direction) .beginTransfer

theorem finishTransfer_of_find? :
    table.finishTransfer id =
      if p.state = .sending ∨ p.state = .receiving then
        .ok (table.focus { p with state := .connected } (changeOf p .connected))
      else .error (.endpointConflict .finishTransfer id p.state) := by
  unfold finishTransfer
  simpa only [mem_cons, mem_singleton, not_mem_nil, or_false] using
    snd_transition hdistinct h [.sending, .receiving] .connected .finishTransfer

theorem beginDisconnect_of_find? :
    table.beginDisconnect id =
      if p.state = .connected ∨ p.state = .pending then
        .ok (p.state, table.focus { p with state := .disconnecting } (changeOf p .disconnecting))
      else .error (.endpointConflict .disconnect id p.state) := by
  unfold beginDisconnect
  split_ifs with hstate
  · exact transition_of_mem hdistinct h (by simpa using hstate) _ _
  · exact transition_of_not_mem h (by simpa using hstate) _ _

/-- Whoever could begin to disconnect can return from it. -/
theorem abortDisconnect_of_find? {previous : EndpointState}
    (hprevious : previous = .connected ∨ previous = .pending) :
    table.abortDisconnect id previous =
      if p.state = .disconnecting then
        .ok (table.focus { p with state := previous } (changeOf p previous))
      else .error (.endpointConflict .abortDisconnect id p.state) := by
  have hmem : previous ∈ [EndpointState.connected, .pending] := by simpa using hprevious
  have hstep : table.abortDisconnect id previous =
      (do return (← table.transition id [.disconnecting] previous .abortDisconnect).2) := by
    unfold abortDisconnect
    rw [if_neg (not_not_intro hmem)]
  rw [hstep, snd_transition hdistinct h]
  simp only [mem_singleton]

theorem abandonPending_of_find? (operation : EndpointOperation) :
    table.abandonPending id operation =
      if p.state = .pending then
        if p.isIncoming then .ok (p.localCopies, table.without p)
        else .ok ([], table.focus { p with state := .discovered } (changeOf p .discovered))
      else .error (.endpointConflict operation id p.state) := by
  unfold abandonPending
  rw [get_of_find? h]
  by_cases hstate : p.state = .pending
  · rw [if_pos hstate]
    have hmem : p.state ∈ [EndpointState.pending] := by simpa using hstate
    rw [remove_of_find? h, transition_of_mem hdistinct h hmem]
    simp only [bind, Except.bind, hstate]
    rfl
  · rw [if_neg hstate]
    simp only [bind, Except.bind]
    rw [if_pos hstate]
    rfl

theorem connectionInitiated_of_find? (name : String) :
    table.connectionInitiated id name =
      if p.state = .discovered ∨ p.state = .pending then
        .ok { table.focus { p with state := .pending } (changeOf p .pending) with
          selected := some id }
      else .error (.endpointConflict .initiateConnection id p.state) := by
  unfold connectionInitiated
  simp only [h]
  split_ifs with hstate
  · rw [transition_of_mem hdistinct h (by simpa using hstate)]
    rfl
  · rw [transition_of_not_mem h (by simpa using hstate)]
    rfl

end Known

/-! ## Steps on an endpoint that is not known -/

theorem accept_of_unknown (h : table.find? id = none) :
    table.accept id = .error (.endpointUnknown id) := by
  unfold accept
  rw [transition_of_unknown h]
  rfl

theorem connectionInitiated_of_unknown (h : table.find? id = none) (name : String) :
    table.connectionInitiated id name =
      if Text.isBlank name then .error (.namelessInitiator id)
      else .ok { table.add (Endpoint.new id name .pending .unknown true) with
        selected := some id } := by
  unfold connectionInitiated
  simp only [h]
  split_ifs
  · rfl
  · rfl

theorem abandonPending_of_unknown (h : table.find? id = none) (operation : EndpointOperation) :
    table.abandonPending id operation = .error (.endpointUnknown id) := by
  unfold abandonPending
  rw [get_of_find?_eq_none h]
  rfl

theorem update_of_unknown (h : table.find? id = none) (change : Endpoint → Endpoint) :
    table.update id change = .error (.endpointUnknown id) := by
  unfold update
  rw [get_of_find?_eq_none h]
  rfl

theorem remove_of_unknown (h : table.find? id = none) :
    table.remove id = .error (.endpointUnknown id) := by
  unfold remove
  rw [get_of_find?_eq_none h]
  rfl

end PeerTransfer.Table
