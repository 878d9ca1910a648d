import PeerTransfer.Failure
import PeerTransfer.Text.Blank
import PeerTransfer.Unit.Incoming
import PeerTransfer.Unit.Outgoing

/-!
# Batches

A batch is a list of units that are transferred together. It has no state of its own: it is as far
as its least advanced unit.
-/

namespace PeerTransfer

/-- Units transferred together. -/
structure Batch (U : Type) where
  id : String
  /-- What the notification service needs to tell the receiver of the batch. -/
  token : Option String
  sender : String
  receiver : String
  units : List U
  /-- What the registry gave for the published batch. -/
  reference : Option String
  deriving DecidableEq

/-- A batch that is sent out. -/
abbrev OutgoingBatch := Batch OutgoingUnit

/-- A batch that is taken in. -/
abbrev IncomingBatch := Batch IncomingUnit

/-- What a batch is built from. -/
structure Draft (U : Type) where
  token : Option String
  sender : String
  receiver : String
  units : List U

/-- Builds the batch of an id, where the draft names both parties and has units. -/
def Draft.build {U : Type} (draft : Draft U) (id : String) : Except Failure (Batch U) :=
  if Text.isBlank draft.sender || Text.isBlank draft.receiver then .error .partiesMissing
  else if draft.units.isEmpty then .error .unitsMissing
  else if Text.isBlank id then .error .blankBatchId
  else .ok ⟨id, draft.token, draft.sender, draft.receiver, draft.units, none⟩

/-- Puts a value in place of the first one of the same key. Where there is none, nothing changes. -/
def replaceFirst {α κ : Type} [DecidableEq κ] (key : α → κ) (a : α) : List α → List α
  | [] => []
  | b :: rest => if key b = key a then a :: rest else b :: replaceFirst key a rest

namespace Batch

variable {U S : Type}

/-- The first unit of an id. -/
def unit? [Transferable U S] (batch : Batch U) (id : Uuid) : Option U :=
  batch.units.find? (Transferable.id · = id)

/-- The sizes of all units together, as a number without bound. From 2 ^ 64 on this is not the sum
of machine words, which then wraps around, or ends the program where overflow is checked. -/
def totalSize [Transferable U S] (batch : Batch U) : Nat :=
  (batch.units.map fun unit => (Transferable.size unit).toNat).foldr (· + ·) 0

/-- The state of the least advanced unit. -/
def state [Transferable U S] [Progress S] (batch : Batch U) : S :=
  Progress.leastOf (batch.units.map Transferable.state)

end Batch

end PeerTransfer
