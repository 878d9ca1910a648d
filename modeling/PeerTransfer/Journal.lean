import PeerTransfer.Uuid.Basic

/-!
# The transfer journal

Every attempt to move a unit is recorded, whatever comes of it. Entries are only added, in the
order of the attempts.
-/

namespace PeerTransfer

/-- What a transfer does with the bytes of a unit. -/
inductive Direction where
  | send
  | receive
  | upload
  | download
  deriving DecidableEq, Repr

/-- What came of a transfer. -/
inductive Outcome where
  | success
  | failure
  | canceled
  deriving DecidableEq, Repr

/-- Every direction. -/
def Direction.all : List Direction := [.send, .receive, .upload, .download]

/-- Every outcome. -/
def Outcome.all : List Outcome := [.success, .failure, .canceled]

def Direction.name : Direction → String
  | send => "Send"
  | receive => "Receive"
  | upload => "Upload"
  | download => "Download"

def Outcome.name : Outcome → String
  | success => "Success"
  | failure => "Failure"
  | canceled => "Canceled"

/-- One finished attempt to move one unit. -/
structure JournalEntry where
  direction : Direction
  unit : Uuid
  label : String
  outcome : Outcome
  bytes : UInt64
  /-- How long the attempt took. -/
  micros : Nat := 0
  deriving DecidableEq

namespace JournalEntry

def isSuccess (entry : JournalEntry) : Bool :=
  entry.outcome = .success

/-- The text by which an entry is shown, its duration in whole milliseconds. -/
def text (entry : JournalEntry) : String :=
  s!"{entry.direction.name} {entry.label} {entry.outcome.name} " ++
    s!"({entry.bytes} bytes in {entry.micros / 1000} ms)"

end JournalEntry

/-- The attempts to move units to or from one peer, the oldest first. -/
abbrev Journal := List JournalEntry

namespace Journal

/-- Adds an entry as the newest. -/
def append (journal : Journal) (entry : JournalEntry) : Journal :=
  journal ++ [entry]

/-- The entries of attempts that did not succeed. -/
def failures (journal : Journal) : List JournalEntry :=
  journal.filter (!·.isSuccess)

end Journal

end PeerTransfer
