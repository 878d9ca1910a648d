import PeerTransfer.Table.Basic

/-!
# Steps of the endpoint table

What can happen to a connection: discovery, handshake, transfer, disconnection, and what else a
peer is given while it is known.
-/

namespace PeerTransfer.Table

/-- Adds a peer that was found nearby. -/
def discover (table : Table) (id name : String) (medium : Medium) : Except Failure Table :=
  match table.find? id with
  | some _ => .error (.endpointKnown id)
  | none => .ok (table.add (Endpoint.new id name .discovered medium false))

/-- This side asks for the connection. -/
def requestConnection (table : Table) (id : String) : Except Failure Table := do
  return (← table.transition id [.discovered] .pending .requestConnection).2

/-- Notes that either side has begun the handshake, and selects the peer. A peer that was not
known has begun it itself, and must give its name. -/
def connectionInitiated (table : Table) (id name : String) : Except Failure Table := do
  let table ← match table.find? id with
    | none =>
      if Text.isBlank name then throw (.namelessInitiator id)
      pure (table.add (Endpoint.new id name .pending .unknown true))
    | some _ => do
      pure (← table.transition id [.discovered, .pending] .pending .initiateConnection).2
  return { table with selected := some id }

/-- The handshake has succeeded. -/
def accept (table : Table) (id : String) : Except Failure Table := do
  return (← table.transition id [.pending] .connected .acceptConnection).2

/-- Gives a handshake up: a peer that has begun it itself is forgotten, any other is known as
before. Answers the local copies that are left without owner. -/
def abandonPending (table : Table) (id : String) (operation : EndpointOperation) :
    Except Failure (List Path × Table) := do
  let endpoint ← table.get id
  if endpoint.state ≠ .pending then throw (.endpointConflict operation id endpoint.state)
  if endpoint.isIncoming then table.remove id
  else return ([], (← table.transition id [.pending] .discovered operation).2)

/-- One side has turned the handshake down. -/
def reject (table : Table) (id : String) : Except Failure (List Path × Table) :=
  table.abandonPending id .rejectConnection

/-- The handshake could not be finished. -/
def connectionFailed (table : Table) (id : String) : Except Failure (List Path × Table) :=
  table.abandonPending id .failConnection

/-- The state of an endpoint while a transfer runs. -/
def stateDuring : Direction → EndpointState
  | .send | .upload => .sending
  | .receive | .download => .receiving

/-- Claims the connection for one transfer. -/
def beginTransfer (table : Table) (id : String) (direction : Direction) :
    Except Failure Table := do
  return (← table.transition id [.connected] (stateDuring direction) .beginTransfer).2

/-- Gives the connection back, whichever way the transfer went. -/
def finishTransfer (table : Table) (id : String) : Except Failure Table := do
  return (← table.transition id [.sending, .receiving] .connected .finishTransfer).2

/-- Begins to disconnect. Answers the state to return to if that fails. -/
def beginDisconnect (table : Table) (id : String) : Except Failure (EndpointState × Table) :=
  table.transition id [.connected, .pending] .disconnecting .disconnect

/-- Returns to the state before the disconnection was begun. -/
def abortDisconnect (table : Table) (id : String) (previous : EndpointState) :
    Except Failure Table := do
  if previous ∉ [EndpointState.connected, .pending] then throw (.badReturn id previous)
  return (← table.transition id [.disconnecting] previous .abortDisconnect).2

/-- Notes the medium that now carries the connection. -/
def upgradeMedium (table : Table) (id : String) (medium : Medium) : Except Failure Table :=
  table.update id ({ · with medium })

/-- Notes the token under which the peer is known elsewhere. -/
def setToken (table : Table) (id token : String) : Except Failure Table :=
  table.update id ({ · with token := some token })

/-- Records an entry in an endpoint's journal and tells of it. -/
def log (table : Table) (id : String) (entry : JournalEntry) : Table :=
  (table.modify id fun endpoint => { endpoint with journal := endpoint.journal.append entry }).tell
    (.logged id entry)

/-- Records entries in the journal of an endpoint, which must be known. -/
def appendLog (table : Table) (id : String) (entries : List JournalEntry) :
    Except Failure Table := do
  let _ ← table.get id
  return entries.foldl (fun table entry => table.log id entry) table

/-- Selects an endpoint, which must be known. -/
def select (table : Table) (id : String) : Except Failure Table := do
  let _ ← table.get id
  return { table with selected := some id }

end PeerTransfer.Table
