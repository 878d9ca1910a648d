import PeerTransfer.Endpoint.Basic

/-!
# The endpoint table

The table lists every known peer in the order in which they became known. All changes of state go
through it: a step that is not allowed in the present state is refused and changes nothing, and
every step that is taken is told to the subscribers.
-/

namespace PeerTransfer

/-- What subscribers are told. -/
inductive Notice where
  | stateChanged (endpoint : String) (previous : Option EndpointState) (current : EndpointState)
  | logged (endpoint : String) (entry : JournalEntry)
  deriving DecidableEq

/-- Someone to be told, and the inbox that notices for them go to. -/
structure Subscriber where
  id : String
  inbox : String
  deriving DecidableEq, Repr

/-- The known peers, the selected one, and what has been told to whom. -/
structure Table where
  endpoints : List Endpoint
  selected : Option String
  subscribers : List Subscriber
  /-- Every notice with the inbox it went to, the oldest first. -/
  told : List (String × Notice)
  deriving DecidableEq

namespace Table

/-- The table of a device that knows no peer. -/
def empty : Table := ⟨[], none, [], []⟩

instance : Inhabited Table := ⟨empty⟩

/-- The endpoint of an id. -/
def find? (table : Table) (id : String) : Option Endpoint :=
  table.endpoints.find? (·.id = id)

/-- The endpoint of an id, which must be known. -/
def get (table : Table) (id : String) : Except Failure Endpoint :=
  match table.find? id with
  | some endpoint => .ok endpoint
  | none => .error (.endpointUnknown id)

/-- The state of an endpoint, which must be known. -/
def state (table : Table) (id : String) : Except Failure EndpointState :=
  (table.get id).map Endpoint.state

/-- The selected endpoint, if it is still known. -/
def selected? (table : Table) : Option Endpoint :=
  table.selected.bind table.find?

/-- Changes the endpoint of an id. -/
def modify (table : Table) (id : String) (change : Endpoint → Endpoint) : Table :=
  { table with
    endpoints := table.endpoints.map fun endpoint =>
      if endpoint.id = id then change endpoint else endpoint }

/-- Changes the endpoint of an id, which must be known. -/
def update (table : Table) (id : String) (change : Endpoint → Endpoint) :
    Except Failure Table := do
  let _ ← table.get id
  return table.modify id change

/-- Tells every subscriber. -/
def tell (table : Table) (notice : Notice) : Table :=
  { table with
    told := table.told ++ table.subscribers.map fun subscriber => (subscriber.inbox, notice) }

/-- Adds a subscriber, in place of one of the same id. -/
def subscribe (table : Table) (subscriber : Subscriber) : Table :=
  { table with
    subscribers := table.subscribers.filter (·.id ≠ subscriber.id) ++ [subscriber] }

/-- Ends a subscription; what was told before stays told. -/
def unsubscribe (table : Table) (id : String) : Table :=
  { table with subscribers := table.subscribers.filter (·.id ≠ id) }

/-- Adds an endpoint as the last and tells of it. -/
def add (table : Table) (endpoint : Endpoint) : Table :=
  { table with endpoints := table.endpoints ++ [endpoint] }.tell
    (.stateChanged endpoint.id none endpoint.state)

/-- Moves an endpoint on from one of the allowed states, and tells of it if its state changes.
Answers the state it was in. -/
def transition (table : Table) (id : String) (allowed : List EndpointState)
    (next : EndpointState) (operation : EndpointOperation) :
    Except Failure (EndpointState × Table) := do
  let endpoint ← table.get id
  if endpoint.state ∉ allowed then throw (.endpointConflict operation id endpoint.state)
  let moved := table.modify id ({ · with state := next })
  if endpoint.state = next then return (endpoint.state, moved)
  return (endpoint.state, moved.tell (.stateChanged id (some endpoint.state) next))

/-- Takes an endpoint out of the table. Answers the local copies that are left without owner. -/
def remove (table : Table) (id : String) : Except Failure (List Path × Table) := do
  let endpoint ← table.get id
  let endpoints := table.endpoints.filter (·.id ≠ id)
  let selected :=
    if table.selected = some id then endpoints.head?.map (·.id) else table.selected
  return (endpoint.localCopies,
    { table with endpoints, selected }.tell (.stateChanged id (some endpoint.state) .removed))

end Table

end PeerTransfer
