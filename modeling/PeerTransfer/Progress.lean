/-!
# Progress of a unit

A unit is one file on its way. Its states are ordered by how far it has come, and a batch is as far
as its least advanced unit.
-/

namespace PeerTransfer

/-- States in an order of progress. -/
class Progress (S : Type) where
  /-- The state in which every unit begins. -/
  first : S
  rank : S → Nat
  name : S → String

namespace Progress

/-- The less advanced of two states. -/
def least {S : Type} [Progress S] (s t : S) : S :=
  if rank t < rank s then t else s

/-- The least advanced of some states, or the first state if there are none. -/
def leastOf {S : Type} [Progress S] : List S → S
  | [] => first
  | s :: rest => rest.foldl least s

end Progress

/-- How far a file has come that is sent out. -/
inductive OutgoingState where
  | picked
  | loading
  | loaded
  | staging
  | staged
  deriving DecidableEq, Repr

namespace OutgoingState

/-- The states in order of progress. -/
def all : List OutgoingState := [picked, loading, loaded, staging, staged]

def rank : OutgoingState → Nat
  | picked => 0
  | loading => 1
  | loaded => 2
  | staging => 3
  | staged => 4

def name : OutgoingState → String
  | picked => "Picked"
  | loading => "Loading"
  | loaded => "Loaded"
  | staging => "Staging"
  | staged => "Staged"

instance : Progress OutgoingState := ⟨picked, rank, name⟩

/-- No byte has left the device, so the size of the file may still change. -/
def isPreTransfer (state : OutgoingState) : Bool :=
  state.rank ≤ loaded.rank

end OutgoingState

/-- How far a file has come that is taken in. -/
inductive IncomingState where
  | received
  | downloading
  | downloaded
  deriving DecidableEq, Repr

namespace IncomingState

/-- The states in order of progress. -/
def all : List IncomingState := [received, downloading, downloaded]

def rank : IncomingState → Nat
  | received => 0
  | downloading => 1
  | downloaded => 2

def name : IncomingState → String
  | received => "Received"
  | downloading => "Downloading"
  | downloaded => "Downloaded"

instance : Progress IncomingState := ⟨received, rank, name⟩

end IncomingState

end PeerTransfer
