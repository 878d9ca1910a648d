import Mathlib.Tactic
import PeerTransfer.Unit.Incoming
import PeerTransfer.Unit.Outgoing

/-!
# Units that change in place

An operation on a unit changes it field by field, and it may be refused on the way. One that looks
before it changes anything leaves the unit as it was when it is refused (`Method.Atomic`). So do all
operations on units, with one exception: a copy that the disk does not delete has been given up
already (`refused_keeps`).
-/

namespace PeerTransfer

/-- A method of a unit. The unit and the disk may have changed also where it is refused. -/
abbrev Method (U α : Type) := EStateM Failure (U × Disk) α

namespace Method

variable {U α β : Type}

/-! ## What methods are made of -/

/-- The unit as it is. -/
def self : Method U U := do
  let (unit, _) ← get
  return unit

def change (f : U → U) : Method U Unit :=
  modify fun (unit, disk) => (f unit, disk)

/-- Goes on only if the unit is allowed to. -/
def require (allowed : U → Prop) [DecidablePred allowed] (failure : U → Failure) :
    Method U Unit := do
  let unit ← self
  unless allowed unit do throw (failure unit)

def removeFile (path : Path) : Method U Unit := do
  let (unit, disk) ← get
  match disk.remove path with
  | .error refusal => throw (.disk refusal)
  | .ok disk => set (unit, disk)

theorem run_removeFile (path : Path) (unit : U) (disk : Disk) :
    (removeFile path).run (unit, disk) =
      match disk.remove path with
      | .error refusal => .error (.disk refusal) (unit, disk)
      | .ok disk => .ok () (unit, disk) := by
  cases hremove : disk.remove path <;> simp [removeFile, hremove]

/-- The method that changes the unit all at once, or not at all. -/
def atOnce (operation : U → Except Failure (α × U)) : Method U α := fun (unit, disk) =>
  match operation unit with
  | .ok (a, unit) => .ok a (unit, disk)
  | .error failure => .error failure (unit, disk)

theorem run_bind_of_ok {method : Method U α} {next : α → Method U β} {start after : U × Disk}
    {a : α} (h : method.run start = .ok a after) :
    (method >>= next).run start = (next a).run after := by
  change EStateM.bind method next start = _
  rw [EStateM.bind, show method start = _ from h]
  rfl

theorem run_bind_of_error {method : Method U α} {next : α → Method U β} {start after : U × Disk}
    {failure : Failure} (h : method.run start = .error failure after) :
    (method >>= next).run start = .error failure after := by
  change EStateM.bind method next start = _
  rw [EStateM.bind, show method start = _ from h]

section Require

variable (allowed : U → Prop) [DecidablePred allowed] (failure : U → Failure)

theorem run_require (start : U × Disk) :
    (require allowed failure).run start =
      if allowed start.1 then .ok () start else .error (failure start.1) start := by
  unfold require
  rw [run_bind_of_ok (show (self : Method U U).run start = .ok start.1 start from rfl)]
  split_ifs <;> rfl

theorem run_require_bind (next : Unit → Method U α) (start : U × Disk) :
    (require allowed failure >>= next).run start =
      if allowed start.1 then (next ()).run start else .error (failure start.1) start := by
  have hrun := run_require allowed failure start
  split_ifs with hallowed
  · rw [if_pos hallowed] at hrun
    exact run_bind_of_ok hrun
  · rw [if_neg hallowed] at hrun
    exact run_bind_of_error hrun

/-- A method that is refused at its beginning, if at all, changes the unit at once. -/
theorem require_bind_eq_atOnce {next : Unit → Method U α} {operation : U → Except Failure (α × U)}
    (hallowed : ∀ unit disk, allowed unit →
      (next ()).run (unit, disk) = (atOnce operation).run (unit, disk))
    (hrefused : ∀ unit, ¬allowed unit → operation unit = .error (failure unit)) :
    (require allowed failure >>= next) = atOnce operation := by
  funext ⟨unit, disk⟩
  refine (run_require_bind allowed failure next (unit, disk)).trans ?_
  split_ifs with h
  · exact hallowed unit disk h
  · unfold atOnce
    dsimp only
    rw [hrefused unit h]

end Require

/-! ## Methods that are refused before they change anything -/

/-- The method changes nothing, whether it is refused or not. -/
def Looks (method : Method U α) : Prop :=
  ∀ start, (∃ a, method.run start = .ok a start) ∨
    ∃ failure, method.run start = .error failure start

/-- The method is never refused. -/
def Total (method : Method U α) : Prop :=
  ∀ start, ∃ a after, method.run start = .ok a after

/-- The method changes nothing where it is refused. -/
def Atomic (method : Method U α) : Prop :=
  ∀ start failure after, method.run start = .error failure after → after = start

theorem looks_self : Looks (self : Method U U) :=
  fun start => .inl ⟨start.1, rfl⟩

theorem looks_require (allowed : U → Prop) [DecidablePred allowed] (failure : U → Failure) :
    Looks (require allowed failure) := by
  intro start
  rw [run_require]
  split_ifs
  · exact .inl ⟨(), rfl⟩
  · exact .inr ⟨_, rfl⟩

theorem total_pure (a : α) : Total (pure a : Method U α) :=
  fun start => ⟨a, start, rfl⟩

theorem total_self : Total (self : Method U U) :=
  fun start => ⟨start.1, start, rfl⟩

theorem total_change (f : U → U) : Total (change f) :=
  fun start => ⟨(), (f start.1, start.2), rfl⟩

theorem Total.bind {method : Method U α} {next : α → Method U β} (h : Total method)
    (hnext : ∀ a, Total (next a)) : Total (method >>= next) := by
  intro start
  obtain ⟨a, after, hrun⟩ := h start
  rw [run_bind_of_ok hrun]
  exact hnext a after

theorem Total.atomic {method : Method U α} (h : Total method) : Atomic method := by
  intro start failure after hrefused
  obtain ⟨a, after', hrun⟩ := h start
  cases hrun.symm.trans hrefused

theorem atomic_throw (failure : Failure) : Atomic (throw failure : Method U α) := by
  rintro start _ _ ⟨⟩
  rfl

/-- What looks first may go on with anything that changes nothing where it is refused. -/
theorem Looks.bind {method : Method U α} {next : α → Method U β} (h : Looks method)
    (hnext : ∀ a, Atomic (next a)) : Atomic (method >>= next) := by
  intro start failure after hrefused
  rcases h start with ⟨a, hrun⟩ | ⟨failure', hrun⟩
  · rw [run_bind_of_ok hrun] at hrefused
    exact hnext a start failure after hrefused
  · rw [run_bind_of_error hrun] at hrefused
    cases hrefused
    rfl

theorem atomic_require_bind (allowed : U → Prop) [DecidablePred allowed] (failure : U → Failure)
    {next : Unit → Method U α} (h : Total (next ())) :
    Atomic (require allowed failure >>= next) :=
  (looks_require allowed failure).bind fun _ => h.atomic

end Method

open Method

/-! ## Outgoing units -/

namespace OutgoingUnit

/-- The operations on an outgoing unit, by the type of their answers. -/
inductive Call : Type → Type
  | setSize (size : UInt64) : Call Unit
  | beginLoad : Call LoadRequest
  | completeLoad (copy : LocalCopy) : Call Unit
  | failLoad : Call Unit
  | assignRemotePath (path : String) : Call Unit
  | beginStage : Call StageRequest
  | completeStage : Call Unit
  | failStage : Call Unit
  | releaseLocal : Call Unit

/-- Goes on only in a state that is allowed. -/
def requireState (allowed : OutgoingState → Prop) [DecidablePred allowed]
    (operation : OutgoingOperation) : Method OutgoingUnit Unit :=
  require (allowed ·.state) fun unit => .outgoingConflict operation unit.id unit.state

namespace Call

/-- What an operation does, in the order in which it does it. -/
def method {α : Type} : Call α → Method OutgoingUnit α
  | .setSize size => do
    requireState (·.isPreTransfer) .setSize
    change ({ · with size })
  | .beginLoad => do
    requireState (· = .picked) .load
    change ({ · with state := .loading })
    let unit ← self
    return ⟨unit.id, unit.source, unit.contentType⟩
  | .completeLoad copy => do
    requireState (· = .loading) .completeLoad
    change ({ · with localPath := some copy.path })
    change ({ · with size := copy.size })
    change ({ · with state := .loaded })
  | .failLoad => do
    requireState (· = .loading) .failLoad
    change ({ · with localPath := none })
    change ({ · with state := .picked })
  | .assignRemotePath path => do
    let unit ← self
    match unit.remotePath with
    | some current => throw (.remotePathTaken unit.id current)
    | none => change ({ · with remotePath := some path })
  | .beginStage => do
    requireState (· = .loaded) .stage
    let unit ← self
    match unit.localPath, unit.remotePath with
    | some localPath, some remotePath =>
      change ({ · with state := .staging })
      return ⟨unit.id, localPath, remotePath⟩
    | _, _ => throw (.nothingToStage unit.id)
  | .completeStage => do
    requireState (· = .staging) .completeStage
    change ({ · with state := .staged })
  | .failStage => do
    requireState (· = .staging) .failStage
    change ({ · with state := .loaded })
  | .releaseLocal => do
    requireState (· = .staged) .releaseLocal
    let unit ← self
    change ({ · with localPath := none })
    match unit.localPath with
    | none => return
    | some path => removeFile path

/-- The operation as a function of the unit. -/
def operation {α : Type} : Call α → Method OutgoingUnit α
  | .setSize size => atOnce fun unit => (unit.setSize size).map ((), ·)
  | .beginLoad => atOnce OutgoingUnit.beginLoad
  | .completeLoad copy => atOnce fun unit => (unit.completeLoad copy).map ((), ·)
  | .failLoad => atOnce fun unit => unit.failLoad.map ((), ·)
  | .assignRemotePath path => atOnce fun unit => (unit.assignRemotePath path).map ((), ·)
  | .beginStage => atOnce OutgoingUnit.beginStage
  | .completeStage => atOnce fun unit => unit.completeStage.map ((), ·)
  | .failStage => atOnce fun unit => unit.failStage.map ((), ·)
  | .releaseLocal => fun (unit, disk) =>
    match unit.releaseLocal disk with
    | (.ok (), after) => .ok () after
    | (.error failure, after) => .error failure after

theorem method_eq_operation {α : Type} (call : Call α) : call.method = call.operation := by
  cases call with
  | assignRemotePath path =>
    funext ⟨⟨_, _, _, remotePath, _, _, _⟩, disk⟩
    cases remotePath <;> rfl
  | releaseLocal =>
    funext ⟨⟨id, source, localPath, remotePath, contentType, size, state⟩, disk⟩
    refine (run_require_bind _ _ _ _).trans ?_
    dsimp only [operation, OutgoingUnit.releaseLocal, conflict]
    split_ifs
    · cases localPath with
      | none => rfl
      | some path =>
        refine (run_removeFile path _ disk).trans ?_
        dsimp only
        cases disk.remove path <;> rfl
    · rfl
  | beginStage =>
    refine require_bind_eq_atOnce _ _ (fun ⟨_, _, localPath, remotePath, _, _, _⟩ disk h => ?_)
      fun unit h => if_neg h
    simp only [EStateM.run, atOnce, OutgoingUnit.beginStage, if_pos h]
    cases localPath <;> cases remotePath <;> rfl
  | setSize | beginLoad | completeLoad | failLoad | completeStage | failStage =>
    unfold method operation requireState
    refine require_bind_eq_atOnce _ _ (fun unit disk h => ?_) fun unit h => ?_
    · simp only [EStateM.run, atOnce, OutgoingUnit.setSize, OutgoingUnit.beginLoad,
        OutgoingUnit.completeLoad, OutgoingUnit.failLoad, OutgoingUnit.completeStage,
        OutgoingUnit.failStage, if_pos h]
      rfl
    · simp only [OutgoingUnit.setSize, OutgoingUnit.beginLoad, OutgoingUnit.completeLoad,
        OutgoingUnit.failLoad, OutgoingUnit.completeStage, OutgoingUnit.failStage, if_neg h]
      rfl

/-- The call gives up a copy that the disk does not delete. -/
def GivesUp {α : Type} : Call α → OutgoingUnit → Disk → Prop
  | .releaseLocal, unit, disk => unit.state = .staged ∧
      ∃ path refusal, unit.localPath = some path ∧ disk.remove path = .error refusal
  | _, _, _ => False

theorem GivesUp.localPath_ne_none {α : Type} {call : Call α} {unit : OutgoingUnit} {disk : Disk}
    (h : call.GivesUp unit disk) : unit.localPath ≠ none := by
  cases call with
  | releaseLocal =>
    obtain ⟨-, path, _, hlocal, -⟩ := h
    rw [hlocal]
    exact Option.some_ne_none path
  | _ => exact h.elim

theorem of_refused_releaseLocal {unit : OutgoingUnit} {disk : Disk} {failure : Failure}
    {after : OutgoingUnit × Disk}
    (h : releaseLocal.method.run (unit, disk) = .error failure after) :
    releaseLocal.GivesUp unit disk ∧ after = ({ unit with localPath := none }, disk) ∨
      ¬releaseLocal.GivesUp unit disk ∧ after = (unit, disk) := by
  rw [method_eq_operation] at h
  dsimp only [EStateM.run, operation, OutgoingUnit.releaseLocal, conflict] at h
  split_ifs at h with hstate
  · cases hlocal : unit.localPath with
    | none =>
      rw [hlocal] at h
      cases h
    | some path =>
      simp only [hlocal] at h
      cases hremove : disk.remove path with
      | ok disk' =>
        rw [hremove] at h
        cases h
      | error refusal =>
        rw [hremove] at h
        cases h
        exact .inl ⟨⟨hstate, path, refusal, hlocal, hremove⟩, rfl⟩
  · cases h
    exact .inr ⟨fun hgives => hstate hgives.1, rfl⟩

/-- A call that is refused has changed nothing, or it has given up the copy and no more. -/
theorem of_refused {α : Type} (call : Call α) {unit : OutgoingUnit} {disk : Disk}
    {failure : Failure} {after : OutgoingUnit × Disk}
    (h : call.method.run (unit, disk) = .error failure after) :
    call.GivesUp unit disk ∧ after = ({ unit with localPath := none }, disk) ∨
      ¬call.GivesUp unit disk ∧ after = (unit, disk) := by
  have of_atomic (hatomic : call.method.Atomic) : after = (unit, disk) :=
    hatomic (unit, disk) failure after h
  cases call with
  | releaseLocal => exact of_refused_releaseLocal h
  | setSize | completeStage | failStage =>
    exact .inr ⟨not_false, of_atomic (atomic_require_bind _ _ (total_change _))⟩
  | beginLoad =>
    refine .inr ⟨not_false, of_atomic (atomic_require_bind _ _ ?_)⟩
    exact (total_change _).bind fun _ => total_self.bind fun _ => total_pure _
  | completeLoad copy =>
    refine .inr ⟨not_false, of_atomic (atomic_require_bind _ _ ?_)⟩
    exact (total_change _).bind fun _ => (total_change _).bind fun _ => total_change _
  | failLoad =>
    refine .inr ⟨not_false, of_atomic (atomic_require_bind _ _ ?_)⟩
    exact (total_change _).bind fun _ => total_change _
  | assignRemotePath path =>
    refine .inr ⟨not_false, of_atomic (looks_self.bind fun unit => ?_)⟩
    split
    · exact atomic_throw _
    · exact (total_change _).atomic
  | beginStage =>
    -- The paths are looked at before the state is changed.
    refine .inr ⟨not_false, of_atomic ((looks_require _ _).bind fun _ => ?_)⟩
    refine looks_self.bind fun unit => ?_
    split
    · exact ((total_change _).bind fun _ => total_pure _).atomic
    · exact atomic_throw _

end Call

end OutgoingUnit

/-! ## Incoming units -/

namespace IncomingUnit

/-- The operations on an incoming unit, by the type of their answers. -/
inductive Call : Type → Type
  | setSize (size : UInt64) : Call Unit
  | beginDownload : Call DownloadRequest
  | completeDownload (path : Path) : Call Unit
  | failDownload : Call Unit

/-- Goes on only in one state. -/
def requireState (state : IncomingState) (operation : IncomingOperation) :
    Method IncomingUnit Unit :=
  require (·.state = state) fun unit => .incomingConflict operation unit.id unit.state

namespace Call

/-- What an operation does, in the order in which it does it. -/
def method {α : Type} : Call α → Method IncomingUnit α
  | .setSize size => do
    requireState .received .setSize
    change ({ · with size })
  | .beginDownload => do
    requireState .received .download
    change ({ · with state := .downloading })
    let unit ← self
    return ⟨unit.id, unit.remotePath, unit.contentType⟩
  | .completeDownload path => do
    requireState .downloading .completeDownload
    change ({ · with localPath := some path })
    change ({ · with state := .downloaded })
  | .failDownload => do
    requireState .downloading .failDownload
    change ({ · with state := .received })

/-- The operation as a function of the unit. -/
def operation {α : Type} : Call α → Method IncomingUnit α
  | .setSize size => atOnce fun unit => (unit.setSize size).map ((), ·)
  | .beginDownload => atOnce IncomingUnit.beginDownload
  | .completeDownload path => atOnce fun unit => (unit.completeDownload path).map ((), ·)
  | .failDownload => atOnce fun unit => unit.failDownload.map ((), ·)

theorem method_eq_operation {α : Type} (call : Call α) : call.method = call.operation := by
  cases call
  all_goals
    unfold method operation requireState
    refine require_bind_eq_atOnce _ _ (fun unit disk h => ?_) fun unit h => ?_
    · simp only [EStateM.run, atOnce, IncomingUnit.setSize, IncomingUnit.beginDownload,
        IncomingUnit.completeDownload, IncomingUnit.failDownload, if_pos h]
      rfl
    · simp only [IncomingUnit.setSize, IncomingUnit.beginDownload, IncomingUnit.completeDownload,
        IncomingUnit.failDownload, if_neg h]
      rfl

theorem atomic_method {α : Type} (call : Call α) : call.method.Atomic := by
  cases call with
  | setSize | failDownload => exact atomic_require_bind _ _ (total_change _)
  | beginDownload =>
    exact atomic_require_bind _ _ <| (total_change _).bind fun _ =>
      total_self.bind fun _ => total_pure _
  | completeDownload path =>
    exact atomic_require_bind _ _ <| (total_change _).bind fun _ => total_change _

end Call

end IncomingUnit

/-! ## All operations -/

/-- An operation that is refused leaves the disk as it was, and the unit too. Only the release of a
copy that the disk does not delete leaves the unit without its copy, and no more is changed. The
operations are those of the units. -/
theorem refused_keeps {α β : Type} (call : OutgoingUnit.Call α) (unit : OutgoingUnit)
    (call' : IncomingUnit.Call β) (unit' : IncomingUnit) (disk : Disk) :
    (∀ failure after, call.method.run (unit, disk) = .error failure after →
      after.2 = disk ∧ (after.1 = unit ↔ ¬call.GivesUp unit disk) ∧
        (call.GivesUp unit disk → after.1 = { unit with localPath := none })) ∧
    (∀ failure after, call'.method.run (unit', disk) = .error failure after →
      after = (unit', disk)) ∧
    call.method = call.operation ∧ call'.method = call'.operation := by
  refine ⟨fun failure after h => ?_, call'.atomic_method (unit', disk),
    call.method_eq_operation, call'.method_eq_operation⟩
  rcases call.of_refused h with ⟨hgives, rfl⟩ | ⟨hkeeps, rfl⟩
  · refine ⟨rfl, ⟨fun hsame => ?_, absurd hgives⟩, fun _ => rfl⟩
    exact absurd (hsame ▸ rfl : unit.localPath = none) hgives.localPath_ne_none
  · exact ⟨rfl, ⟨fun _ => hkeeps, fun _ => rfl⟩, fun hgives => absurd hgives hkeeps⟩

/-- A loaded unit is not to be released, and a received unit does not complete a download. A staged
unit whose copy is gone is refused as well, and only it has changed. -/
theorem refused_keeps_three :
    let loaded : OutgoingUnit :=
      ⟨Uuid.zero, ⟨"x"⟩, some ⟨"s/0"⟩, some "b/x", "text/plain", 2, .loaded⟩
    let staged : OutgoingUnit := { loaded with state := .staged }
    let received : IncomingUnit := .announced Uuid.zero "x" "b/x" "text/plain" 2
    let release := OutgoingUnit.Call.releaseLocal
    let complete := IncomingUnit.Call.completeDownload ⟨"d/0"⟩
    (∃ failure, release.method.run (loaded, Disk.empty) = .error failure (loaded, Disk.empty)) ∧
      (∃ failure,
        complete.method.run (received, Disk.empty) = .error failure (received, Disk.empty)) ∧
      release.GivesUp staged Disk.empty ∧
      ∃ failure after, release.method.run (staged, Disk.empty) = .error failure after ∧
        after.1 = { staged with localPath := none } := by
  intro loaded staged received release complete
  obtain ⟨hloaded, hreceived, -⟩ := refused_keeps release loaded complete received Disk.empty
  obtain ⟨hstaged, -⟩ := refused_keeps release staged complete received Disk.empty
  have hstays : ¬release.GivesUp loaded Disk.empty := fun hgives => by cases hgives.1
  have hgives : release.GivesUp staged Disk.empty := ⟨rfl, ⟨"s/0"⟩, .missing, rfl, rfl⟩
  refine ⟨⟨.outgoingConflict .releaseLocal Uuid.zero .loaded, ?_⟩,
    ⟨.incomingConflict .completeDownload Uuid.zero .received, ?_⟩, hgives,
    .disk .missing, _, rfl, (hstaged _ _ rfl).2.2 hgives⟩
  · obtain ⟨hdisk, hunit, -⟩ := hloaded _ _ rfl
    exact congrArg (EStateM.Result.error _) (Prod.ext (hunit.2 hstays) hdisk)
  · exact congrArg (EStateM.Result.error _) (hreceived _ _ rfl)

/-- A picked unit is loaded and staged, and its copy is gone when it is to be released. The release
is refused, the copy given up, and the next release has nothing left to do. -/
theorem copy_given_up_by_refused_release :
    let copy : LocalCopy := ⟨⟨"s/0"⟩, 2⟩
    let stage : Method OutgoingUnit Unit := do
      let _ ← OutgoingUnit.Call.beginLoad.method
      (OutgoingUnit.Call.completeLoad copy).method
      (OutgoingUnit.Call.assignRemotePath "b/x").method
      let _ ← OutgoingUnit.Call.beginStage.method
      OutgoingUnit.Call.completeStage.method
    let release := OutgoingUnit.Call.releaseLocal.method
    let picked : OutgoingUnit := .pick Uuid.zero ⟨"x"⟩ "text/plain"
    let staged : OutgoingUnit :=
      ⟨Uuid.zero, ⟨"x"⟩, some copy.path, some "b/x", "text/plain", 2, .staged⟩
    let given : OutgoingUnit := { staged with localPath := none }
    stage.run (picked, Disk.empty) = .ok () (staged, Disk.empty) ∧
      release.run (staged, Disk.empty) = .error (.disk .missing) (given, Disk.empty) ∧
      given ≠ staged ∧ release.run (given, Disk.empty) = .ok () (given, Disk.empty) :=
  ⟨rfl, rfl, by decide, rfl⟩

end PeerTransfer
