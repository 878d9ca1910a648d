import PeerTransfer.Proofs.Phase.Outcome

/-!
# Incoming units that come about

`IncomingUnit.Reached` says which incoming units the operations on units and the download of batches
can bring about, also downloads that are refused half-way. None of them has a file before it is
downloaded (`IncomingUnit.Reached.unfetched`).
-/

namespace PeerTransfer

open List

namespace IncomingUnit

/-- A unit has a file only once it is downloaded. -/
def Unfetched (unit : IncomingUnit) : Prop :=
  unit.state ≠ .downloaded → unit.localPath = none

variable {unit unit' : IncomingUnit}

theorem Unfetched.setSize (h : unit.Unfetched) {size : UInt64}
    (hset : unit.setSize size = .ok unit') : unit'.Unfetched := by
  unfold IncomingUnit.setSize at hset
  split_ifs at hset
  · cases hset
    exact h
  · cases hset

theorem Unfetched.beginDownload (h : unit.Unfetched) {request : DownloadRequest}
    (hbegin : unit.beginDownload = .ok (request, unit')) : unit'.Unfetched := by
  unfold IncomingUnit.beginDownload at hbegin
  split_ifs at hbegin with hstate
  · cases hbegin
    exact fun _ => h (by simp [hstate])
  · cases hbegin

theorem unfetched_of_completeDownload {path : Path}
    (hcomplete : unit.completeDownload path = .ok unit') : unit'.Unfetched := by
  unfold completeDownload at hcomplete
  split_ifs at hcomplete
  · cases hcomplete
    exact fun hne => absurd rfl hne
  · cases hcomplete

theorem Unfetched.failDownload (h : unit.Unfetched) (hfail : unit.failDownload = .ok unit') :
    unit'.Unfetched := by
  unfold IncomingUnit.failDownload at hfail
  split_ifs at hfail with hstate
  · cases hfail
    exact fun _ => h (by simp [hstate])
  · cases hfail

theorem unfetched_rollbackDownload (unit : IncomingUnit) (disk : Disk) :
    (unit.rollbackDownload disk).1.Unfetched := by
  intro _
  unfold rollbackDownload
  split
  · assumption
  · rfl

end IncomingUnit

/-- A download leaves no unit a file that is not downloaded, also where the ids of units do not tell
them apart. -/
theorem Phase.unfetched_runDownload {σ : Type} [Services σ] (settings : Settings)
    {batch : IncomingBatch} (world : World σ) (h : ∀ u ∈ batch.units, u.Unfetched) :
    ∀ u ∈ (runDownload settings batch world).2.1.units, u.Unfetched := by
  have hattempt := forall_mem_attempt (downloadSteps (σ := σ) settings)
    (P := IncomingUnit.Unfetched)
    (fun _ _ _ hu hbegin => hu.beginDownload hbegin)
    (fun _ _ _ _ hcomplete => IncomingUnit.unfetched_of_completeDownload hcomplete)
    (fun _ _ hu hfail => hu.failDownload hfail)
    settings.maxConcurrentUnits.toNat world h
  unfold runDownload
  split
  · exact h
  · split
    · next heq =>
      rw [heq] at hattempt
      exact hattempt
    · next heq =>
      rw [heq] at hattempt
      split
      · exact hattempt
      · exact forall_mem_forAll (P := fun _ => True)
          (fun u disk _ => IncomingUnit.unfetched_rollbackDownload u disk) (fun _ _ => trivial) _

namespace IncomingUnit

/-- The units that operations on units and downloads of batches bring about. A download may do so
also where it is refused, and with units that have nothing to do with each other. -/
inductive Reached : IncomingUnit → Prop
  | announced (id : Uuid) (name remotePath contentType : String) (size : UInt64) :
      Reached (announced id name remotePath contentType size)
  | setSize {unit unit' : IncomingUnit} (size : UInt64) :
      Reached unit → unit.setSize size = .ok unit' → Reached unit'
  | beginDownload {unit unit' : IncomingUnit} (request : DownloadRequest) :
      Reached unit → unit.beginDownload = .ok (request, unit') → Reached unit'
  | completeDownload {unit unit' : IncomingUnit} (path : Path) :
      Reached unit → unit.completeDownload path = .ok unit' → Reached unit'
  | failDownload {unit unit' : IncomingUnit} :
      Reached unit → unit.failDownload = .ok unit' → Reached unit'
  | runDownload {σ : Type} [Services σ] (settings : Settings) {batch : IncomingBatch}
      (world : World σ) {unit : IncomingUnit} : (∀ u ∈ batch.units, Reached u) →
      unit ∈ (Phase.runDownload settings batch world).2.1.units → Reached unit

theorem Reached.unfetched {unit : IncomingUnit} (h : unit.Reached) : unit.Unfetched := by
  induction h with
  | announced id name remotePath contentType size => exact fun _ => rfl
  | setSize size _ hset ih => exact ih.setSize hset
  | beginDownload request _ hbegin ih => exact ih.beginDownload hbegin
  | completeDownload path _ hcomplete _ => exact unfetched_of_completeDownload hcomplete
  | failDownload _ hfail ih => exact ih.failDownload hfail
  | runDownload settings world _ hunit ih =>
    exact Phase.unfetched_runDownload settings world ih _ hunit

end IncomingUnit

end PeerTransfer
