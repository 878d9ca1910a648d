import PeerTransfer.Batch.Basic
import PeerTransfer.Journal

/-!
# One attempt at a phase

In a phase every unit of a batch begins a step, each on its own runs the job that the step asks
for, and the results are applied to the units they belong to, in the order in which the jobs end.
What becomes of the batch is decided after the last of them. The jobs take their turns by a
semaphore, and one of more permits than a semaphore can have ends in a panic.
-/

namespace PeerTransfer

/-- What came of a phase. -/
inductive PhaseOutcome where
  /-- Every unit has taken the step. -/
  | advanced
  /-- The units whose jobs failed; no unit has taken the step. -/
  | unitsFailed (units : List Uuid)
  /-- Every job succeeded, but the registry refused; no unit has taken the step. -/
  | publishFailed (cause : Failure)
  deriving DecidableEq

/-- What a phase tells its caller, with a journal entry for each attempted transfer. -/
structure PhaseReport where
  outcome : PhaseOutcome
  entries : List JournalEntry
  deriving DecidableEq

/-- Every unit has taken the step. -/
def PhaseReport.isAdvanced (report : PhaseReport) : Bool :=
  report.outcome = .advanced

/-- The steps of a phase on one unit: requests of type `ρ` are run in a world `W` to results of
type `α`. -/
structure PhaseSteps (U ρ α W : Type) where
  start : U → Except Failure (ρ × U)
  unit : ρ → Uuid
  run : ρ → W → Except Failure α × W
  complete : U → α → Except Failure U
  fail : U → Except Failure U
  /-- A job that fails so ends at once, while others wait for the disk. -/
  isPrompt : Failure → Bool

/-- The result of a unit's job as it was applied to the unit. -/
structure Verdict (α : Type) where
  unit : Uuid
  label : String
  result : Except Failure α

namespace Verdict

variable {α : Type}

/-- The job has failed. -/
def isFailure (verdict : Verdict α) : Bool :=
  match verdict.result with
  | .ok _ => false
  | .error _ => true

/-- The units whose jobs failed. -/
def failed (verdicts : List (Verdict α)) : List Uuid :=
  (verdicts.filter isFailure).map unit

/-- The journal entry of a transfer; a failed one has moved no bytes. -/
def entry (direction : Direction) (size : α → UInt64) (verdict : Verdict α) : JournalEntry :=
  match verdict.result with
  | .ok a => ⟨direction, verdict.unit, verdict.label, .success, size a, 0⟩
  | .error _ => ⟨direction, verdict.unit, verdict.label, .failure, 0, 0⟩

end Verdict

namespace Phase

variable {U S ρ α W : Type}

/-- Refuses a phase unless every unit is in the state it starts from. -/
def requireAll [Transferable U S] [Progress S] [DecidableEq S] (phase : Phase) (required : S)
    (batch : Batch U) : Except Failure Unit :=
  match batch.units.find? (Transferable.state · ≠ required) with
  | none => .ok ()
  | some unit =>
    .error (.phaseConflict phase batch.id (Transferable.id unit)
      (Progress.name (Transferable.state unit)))

/-- Begins the step of every unit, in order, up to the first refusal. -/
def startAll (start : U → Except Failure (ρ × U)) : List U → Except Failure (List ρ) × List U
  | [] => (.ok [], [])
  | unit :: rest =>
    match start unit with
    | .error failure => (.error failure, unit :: rest)
    | .ok (request, unit) =>
      let (requests, rest) := startAll start rest
      (requests.map (request :: ·), unit :: rest)

/-- Runs every job. -/
def runAll (unit : ρ → Uuid) (run : ρ → W → Except Failure α × W) :
    List ρ → W → List (Uuid × Except Failure α) × W
  | [], world => ([], world)
  | request :: rest, world =>
    let (result, world) := run request world
    let (results, world) := runAll unit run rest world
    ((unit request, result) :: results, world)

/-- The most permits that a semaphore can have. Three bits of a machine word are not for counting
them. -/
def maxPermits : Nat :=
  Nat.pow 2 61 - 1

/-- A result that comes at once. -/
def comesAtOnce (steps : PhaseSteps U ρ α W) (result : Uuid × Except Failure α) : Bool :=
  match result.2 with
  | .ok _ => false
  | .error failure => steps.isPrompt failure

/-- The order in which jobs end that are begun in the order of a list, with at most `limit` of them
under way at a time. Those that are under way already, and those that do not end at once, end in
the order in which they were begun. -/
def inOrderOfEnding {β : Type} (limit : Nat) (endsAtOnce : β → Bool) : List β → List β → List β
  | underWay, [] => underWay
  | underWay, job :: rest =>
    let ended := if underWay.length < limit then 0 else 1
    underWay.take ended ++
      if endsAtOnce job then job :: inOrderOfEnding limit endsAtOnce (underWay.drop ended) rest
      else inOrderOfEnding limit endsAtOnce (underWay.drop ended ++ [job]) rest

/-- Applies a result to the unit it belongs to. -/
def settleOne (steps : PhaseSteps U ρ α W) (unit : U) : Except Failure α → Except Failure U
  | .ok a => steps.complete unit a
  | .error _ => steps.fail unit

/-- Applies results in the order in which they come, up to the first that a unit refuses. -/
def settle [Transferable U S] (steps : PhaseSteps U ρ α W) :
    List (Uuid × Except Failure α) → List U → Except Failure Unit × List U
  | [], units => (.ok (), units)
  | (id, result) :: rest, units =>
    match units.find? (Transferable.id · = id) with
    | none => (.error (.strayResult id), units)
    | some unit =>
      match settleOne steps unit result with
      | .error failure => (.error failure, units)
      | .ok unit => settle steps rest (replaceFirst Transferable.id unit units)

/-- Results with the labels of their units. -/
def verdicts [Transferable U S] (results : List (Uuid × Except Failure α)) (units : List U) :
    List (Verdict α) :=
  results.filterMap fun (id, result) =>
    (units.find? (Transferable.id · = id)).map fun unit => ⟨id, Transferable.label unit, result⟩

/-- Begins every step, runs every job, at most `limit` of them at a time, and applies every
result. The results are told in the order of the units. Where no semaphore can have so many permits,
this panics once every step is begun, before any job is. -/
def attempt [Transferable U S] (steps : PhaseSteps U ρ α W) (limit : Nat) (batch : Batch U)
    (world : W) : Except Failure (List (Verdict α)) × Batch U × W :=
  match startAll steps.start batch.units with
  | (.error failure, units) => (.error failure, { batch with units }, world)
  | (.ok requests, units) =>
    if maxPermits < limit then (.error .panicked, { batch with units }, world)
    else
      let (results, world) := runAll steps.unit steps.run requests world
      let (settled, units) :=
        settle steps (inOrderOfEnding limit (comesAtOnce steps) [] results) units
      (settled.map fun _ => verdicts results units, { batch with units }, world)

/-- Changes every unit, in order, together with the disk. -/
def forAll (change : U → Disk → U × Disk) : List U → Disk → List U × Disk
  | [], disk => ([], disk)
  | unit :: rest, disk =>
    let (unit, disk) := change unit disk
    let (rest, disk) := forAll change rest disk
    (unit :: rest, disk)

end Phase

end PeerTransfer
