import Mathlib.Tactic
import PeerTransfer.Unit.Outgoing

/-!
# Coherent outgoing units

The state of an outgoing unit tells whether it has a local copy and whether it has a remote path.
Every operation on a unit keeps this, and so does taking loading back. Taking staging back keeps it
while the unit still has its copy (`Coherent.rollbackStage`), which a staged unit may have released.
-/

namespace PeerTransfer.OutgoingUnit

/-- The paths that the state of a unit promises. -/
structure Coherent (unit : OutgoingUnit) : Prop where
  localPath_eq_none : unit.state = .picked ∨ unit.state = .loading → unit.localPath = none
  localPath_isSome : unit.state = .loaded ∨ unit.state = .staging → unit.localPath.isSome
  remotePath_isSome : unit.state = .staging ∨ unit.state = .staged → unit.remotePath.isSome

variable {unit unit' : OutgoingUnit}

theorem coherent_pick (id : Uuid) (source : Path) (contentType : String) :
    (pick id source contentType).Coherent := by
  constructor <;> simp [pick]

theorem coherent_of_completeLoad {copy : LocalCopy}
    (hcomplete : unit.completeLoad copy = .ok unit') : unit'.Coherent := by
  unfold completeLoad at hcomplete
  split_ifs at hcomplete
  · cases hcomplete
    exact ⟨by simp, fun _ => rfl, by simp⟩
  · cases hcomplete

theorem coherent_of_failLoad (hfail : unit.failLoad = .ok unit') : unit'.Coherent := by
  unfold failLoad at hfail
  split_ifs at hfail
  · cases hfail
    exact ⟨fun _ => rfl, by simp, by simp⟩
  · cases hfail

theorem coherent_of_beginStage {request : StageRequest}
    (hbegin : unit.beginStage = .ok (request, unit')) : unit'.Coherent := by
  unfold beginStage at hbegin
  split_ifs at hbegin with hstate
  · split at hbegin
    · next hlocal hremote =>
      cases hbegin
      exact ⟨by simp, fun _ => by simp [hlocal], fun _ => by simp [hremote]⟩
    · cases hbegin
  · cases hbegin

/-! Between loaded and staged a unit keeps its copy, whichever way staging goes. -/

theorem localPath_of_beginStage {request : StageRequest}
    (hbegin : unit.beginStage = .ok (request, unit')) : unit'.localPath = unit.localPath := by
  unfold beginStage at hbegin
  split_ifs at hbegin
  · split at hbegin
    · cases hbegin
      rfl
    · cases hbegin
  · cases hbegin

theorem paths_of_beginStage {request : StageRequest}
    (hbegin : unit.beginStage = .ok (request, unit')) :
    unit.localPath = some request.localPath ∧ unit.remotePath = some request.remotePath := by
  unfold beginStage at hbegin
  split_ifs at hbegin
  · split at hbegin
    · next hlocal hremote =>
      cases hbegin
      exact ⟨hlocal, hremote⟩
    · cases hbegin
  · cases hbegin

theorem localPath_of_completeStage (hcomplete : unit.completeStage = .ok unit') :
    unit'.localPath = unit.localPath := by
  unfold completeStage at hcomplete
  split_ifs at hcomplete
  · cases hcomplete
    rfl
  · cases hcomplete

theorem localPath_of_failStage (hfail : unit.failStage = .ok unit') :
    unit'.localPath = unit.localPath := by
  unfold failStage at hfail
  split_ifs at hfail
  · cases hfail
    rfl
  · cases hfail

/-- Whatever a unit was, it has no copy once loading is taken back. -/
theorem coherent_rollbackLoad (unit : OutgoingUnit) (disk : Disk) :
    (unit.rollbackLoad disk).1.Coherent := by
  have hlocal : (unit.rollbackLoad disk).1.localPath = none := by
    unfold rollbackLoad discardLocal
    cases h : unit.localPath with
    | none => exact h
    | some path => rfl
  exact ⟨fun _ => hlocal, by simp [rollbackLoad], by simp [rollbackLoad]⟩

namespace Coherent

theorem setSize (h : unit.Coherent) {size : UInt64} (hset : unit.setSize size = .ok unit') :
    unit'.Coherent := by
  unfold OutgoingUnit.setSize at hset
  split_ifs at hset
  · cases hset
    exact ⟨h.localPath_eq_none, h.localPath_isSome, h.remotePath_isSome⟩
  · cases hset

theorem beginLoad (h : unit.Coherent) {request : LoadRequest}
    (hbegin : unit.beginLoad = .ok (request, unit')) : unit'.Coherent := by
  unfold OutgoingUnit.beginLoad at hbegin
  split_ifs at hbegin with hstate
  · cases hbegin
    exact ⟨fun _ => h.localPath_eq_none (.inl hstate), by simp, by simp⟩
  · cases hbegin

theorem assignRemotePath (h : unit.Coherent) {path : String}
    (hassign : unit.assignRemotePath path = .ok unit') : unit'.Coherent := by
  unfold OutgoingUnit.assignRemotePath at hassign
  split at hassign
  · cases hassign
  · cases hassign
    exact ⟨h.localPath_eq_none, h.localPath_isSome, fun _ => rfl⟩

theorem completeStage (h : unit.Coherent) (hcomplete : unit.completeStage = .ok unit') :
    unit'.Coherent := by
  unfold OutgoingUnit.completeStage at hcomplete
  split_ifs at hcomplete with hstate
  · cases hcomplete
    exact ⟨by simp, by simp, fun _ => h.remotePath_isSome (.inl hstate)⟩
  · cases hcomplete

theorem failStage (h : unit.Coherent) (hfail : unit.failStage = .ok unit') : unit'.Coherent := by
  unfold OutgoingUnit.failStage at hfail
  split_ifs at hfail with hstate
  · cases hfail
    exact ⟨by simp, fun _ => h.localPath_isSome (.inr hstate), by simp⟩
  · cases hfail

/-- A staged unit may go without its copy, so also one whose copy the disk refuses to delete. -/
theorem releaseLocal (h : unit.Coherent) (disk : Disk) : (unit.releaseLocal disk).2.1.Coherent := by
  unfold OutgoingUnit.releaseLocal
  split_ifs with hstate
  · have hreleased : ({ unit with localPath := none } : OutgoingUnit).Coherent :=
      ⟨by simp, by simp [hstate], h.remotePath_isSome⟩
    split
    · exact h
    · dsimp only
      split <;> exact hreleased
  · exact h

theorem rollbackStage (h : unit.Coherent) (hlocal : unit.localPath.isSome) :
    unit.rollbackStage.Coherent := by
  unfold OutgoingUnit.rollbackStage
  split
  · exact ⟨by simp, fun _ => hlocal, by simp⟩
  · exact ⟨by simp, fun _ => hlocal, by simp⟩
  · exact h

end Coherent

end PeerTransfer.OutgoingUnit
