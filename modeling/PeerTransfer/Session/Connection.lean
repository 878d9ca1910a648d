import PeerTransfer.Session.Basic

/-!
# Connections of a session

Connecting and disconnecting ask the channel for something, and the table is put back where the
channel refuses.
-/

namespace PeerTransfer.Session

variable {σ : Type}

/-- Makes an endpoint the selected one. -/
def select (endpoint : String) : Act σ Unit :=
  Act.move (·.select endpoint)

def subscribe (subscriber : Subscriber) : Act σ Unit :=
  Act.move fun table => .ok (table.subscribe subscriber)

def unsubscribe (subscriber : String) : Act σ Unit :=
  Act.move fun table => .ok (table.unsubscribe subscriber)

/-- Asks a discovered peer for a connection. -/
def connect [Services σ] (endpoint : String) : Act σ Unit := do
  Act.move (·.requestConnection endpoint)
  match ← Act.call (Services.connect endpoint) with
  | .ok () => return
  | .error failure =>
    Act.moveAndDiscard (·.connectionFailed endpoint)
    throw failure

/-- Ends the connection to a peer and forgets it. -/
def disconnect [Services σ] (endpoint : String) : Act σ Unit := do
  let previous ← Act.step (·.beginDisconnect endpoint)
  match ← Act.call (Services.disconnect endpoint) with
  | .ok () => Act.moveAndDiscard (·.remove endpoint)
  | .error failure =>
    Act.move (·.abortDisconnect endpoint previous)
    throw failure

end PeerTransfer.Session
