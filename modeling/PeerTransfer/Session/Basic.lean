import PeerTransfer.Services.Basic
import PeerTransfer.Session.Event
import PeerTransfer.Table.Steps

/-!
# Sessions

A session owns the endpoint table of a device. Events of the channel wait in its queue and are
applied one at a time. An operation of a session ends in a value or a failure, and what it has
changed up to then stays changed.
-/

namespace PeerTransfer

/-- A running session, with the world it runs in. -/
structure Session (σ : Type) where
  settings : Settings
  table : Table
  /-- Events that are still to be applied, the oldest first. -/
  queue : List Event
  /-- The name under which the session listens to the channel. -/
  listener : String
  ids : IdSource
  world : World σ

/-- An operation of a session. -/
abbrev Act (σ α : Type) := ExceptT Failure (StateM (Session σ)) α

namespace Session

variable {σ : Type}

/-- Starts a session, if the settings are valid, and listens to the channel. -/
def start [Services σ] (settings : Settings) (ids : IdSource) (world : World σ) :
    Except Failure (Session σ) := do
  settings.validate.mapError Failure.invalidSettings
  let (id, ids) := ids.draw
  let listener := "session-" ++ id.text
  let services := Services.register listener world.services
  return ⟨settings, Table.empty, [], listener, ids, { world with services }⟩

/-- Ends a session, which no longer listens to the channel. -/
def close [Services σ] (session : Session σ) : World σ :=
  { session.world with
    services := Services.unregister session.listener session.world.services }

/-- Queues an event of the channel. -/
def notify (session : Session σ) (event : Event) : Session σ :=
  { session with queue := session.queue ++ [event] }

end Session

namespace Act

variable {σ α : Type}

/-- Lifts a value that may be a failure. -/
def ofExcept : Except Failure α → Act σ α
  | .ok a => pure a
  | .error failure => throw failure

/-- The endpoint of an id, which must be known. -/
def endpoint (id : String) : Act σ Endpoint := do
  ofExcept ((← get).table.get id)

/-- Takes a step of the table that also answers something. -/
def step (change : Table → Except Failure (α × Table)) : Act σ α := do
  let (answer, table) ← ofExcept (change (← get).table)
  modify ({ · with table })
  return answer

/-- Takes a step of the table. -/
def move (change : Table → Except Failure Table) : Act σ Unit :=
  step fun table => (change table).map ((), ·)

/-- Takes a step of the table that may leave local copies without owner, and deletes those. -/
def moveAndDiscard (change : Table → Except Failure (List Path × Table)) : Act σ Unit := do
  let copies ← step change
  modify fun session =>
    { session with
      world := { session.world with disk := copies.foldl Disk.discard session.world.disk } }

/-- Calls a service, and answers what came of it without failing. -/
def call (request : σ → Except Failure α × σ) : Act σ (Except Failure α) := do
  let session ← get
  let (result, services) := request session.world.services
  set { session with world := { session.world with services } }
  return result

/-- Draws ids. -/
def draw (request : IdSource → α × IdSource) : Act σ α := do
  let session ← get
  let (answer, ids) := request session.ids
  set { session with ids }
  return answer

end Act

end PeerTransfer
