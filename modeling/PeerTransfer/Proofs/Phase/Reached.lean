import PeerTransfer.Proofs.Phase.Outcome
import PeerTransfer.Proofs.Unit.Coherent

/-!
# Units that come about

`OutgoingUnit.Reached` says which outgoing units the operations on units and the phases of batches
can bring about, also phases that are refused half-way. All of them are coherent
(`OutgoingUnit.Reached.coherent`), so a loaded unit always has the copy that staging asks for.
-/

namespace PeerTransfer

open List

namespace Phase

theorem forall_of_requireAll {U S : Type} [Transferable U S] [Progress S] [DecidableEq S]
    {phase : Phase} {required : S} {batch : Batch U}
    (h : requireAll phase required batch = .ok ()) :
    ∀ u ∈ batch.units, Transferable.state u = required := by
  by_contra hne
  push Not at hne
  obtain ⟨u, -, hrefused⟩ := requireAll_of_exists phase hne
  rw [h] at hrefused
  cases hrefused

/-! ## What the phases keep of every unit -/

theorem coherent_runLoad (settings : Settings) {batch : OutgoingBatch} (disk : Disk)
    (h : ∀ u ∈ batch.units, u.Coherent) :
    ∀ u ∈ (runLoad settings batch disk).2.1.units, u.Coherent := by
  have hattempt := forall_mem_attempt (loadSteps settings) (P := OutgoingUnit.Coherent)
    (fun _ _ _ hu hbegin => hu.beginLoad hbegin)
    (fun _ _ _ _ hcomplete => OutgoingUnit.coherent_of_completeLoad hcomplete)
    (fun _ _ _ hfail => OutgoingUnit.coherent_of_failLoad hfail)
    settings.maxConcurrentUnits.toNat disk h
  unfold runLoad
  split
  · exact h
  · split
    · next heq =>
      rw [heq] at hattempt
      exact hattempt
    · next heq =>
      rw [heq] at hattempt
      split
      · exact hattempt
      · exact forall_mem_forAll (P := fun _ => True)
          (fun u disk _ => OutgoingUnit.coherent_rollbackLoad u disk) (fun _ _ => trivial) _

variable {σ : Type} [Services σ]

theorem coherent_releaseCopy {unit : OutgoingUnit} (h : unit.Coherent) (disk : Disk) :
    (releaseCopy unit disk).1.Coherent :=
  h.releaseLocal disk

theorem coherent_rollbackStaging {batch : OutgoingBatch}
    (h : ∀ u ∈ batch.units, u.Coherent ∧ u.localPath.isSome) :
    ∀ u ∈ (rollbackStaging batch).units, u.Coherent := by
  intro u hu
  obtain ⟨v, hv, rfl⟩ := mem_map.1 hu
  exact (h v hv).1.rollbackStage (h v hv).2

theorem coherent_publish (settings : Settings) (entries : List JournalEntry) {batch : OutgoingBatch}
    (world : World σ) (h : ∀ u ∈ batch.units, u.Coherent ∧ u.localPath.isSome) :
    ∀ u ∈ (publish settings entries batch world).2.1.units, u.Coherent := by
  have hcoherent : ∀ u ∈ batch.units, u.Coherent := fun u hu => (h u hu).1
  unfold publish
  split
  · exact hcoherent
  · split
    · exact coherent_rollbackStaging h
    · dsimp only
      split
      · exact forall_mem_forAll (fun _ disk hu => coherent_releaseCopy hu disk) hcoherent _
      · exact hcoherent

theorem coherent_runStage (settings : Settings) {batch : OutgoingBatch} (world : World σ)
    (h : ∀ u ∈ batch.units, u.Coherent) :
    ∀ u ∈ (runStage settings batch world).2.1.units, u.Coherent := by
  unfold runStage
  split
  · exact h
  · next hrequire =>
    rw [← withRemotePaths]
    -- A unit that is taken back to loaded must still have its copy, so that is kept along.
    have hready : ∀ u ∈ (withRemotePaths batch).units, u.Coherent ∧ u.localPath.isSome := by
      intro u hu
      obtain ⟨v, hv, rfl⟩ := mem_map.1 hu
      have hlocal := (h v hv).localPath_isSome (.inl (forall_of_requireAll hrequire v hv))
      rw [ensureRemotePath_eq]
      exact ⟨⟨(h v hv).localPath_eq_none, (h v hv).localPath_isSome, fun _ => rfl⟩, hlocal⟩
    have hattempt := forall_mem_attempt stageSteps
      (P := fun u => u.Coherent ∧ u.localPath.isSome)
      (fun u _ _ hu hbegin => ⟨OutgoingUnit.coherent_of_beginStage hbegin,
        OutgoingUnit.localPath_of_beginStage hbegin ▸ hu.2⟩)
      (fun u _ _ hu hcomplete => ⟨hu.1.completeStage hcomplete,
        OutgoingUnit.localPath_of_completeStage hcomplete ▸ hu.2⟩)
      (fun u _ hu hfail => ⟨hu.1.failStage hfail,
        OutgoingUnit.localPath_of_failStage hfail ▸ hu.2⟩)
      settings.maxConcurrentUnits.toNat world hready
    dsimp only
    split
    · next heq =>
      rw [heq] at hattempt
      intro u hu
      exact (hattempt u hu).1
    · next heq =>
      rw [heq] at hattempt
      split
      · exact coherent_publish settings _ _ hattempt
      · exact coherent_rollbackStaging hattempt

end Phase

namespace OutgoingUnit

/-- The units that operations on units and phases of batches bring about. A phase may do so also
where it is refused, and with units that have nothing to do with each other. -/
inductive Reached : OutgoingUnit → Prop
  | pick (id : Uuid) (source : Path) (contentType : String) : Reached (pick id source contentType)
  | setSize {unit unit' : OutgoingUnit} (size : UInt64) :
      Reached unit → unit.setSize size = .ok unit' → Reached unit'
  | beginLoad {unit unit' : OutgoingUnit} (request : LoadRequest) :
      Reached unit → unit.beginLoad = .ok (request, unit') → Reached unit'
  | completeLoad {unit unit' : OutgoingUnit} (copy : LocalCopy) :
      Reached unit → unit.completeLoad copy = .ok unit' → Reached unit'
  | failLoad {unit unit' : OutgoingUnit} :
      Reached unit → unit.failLoad = .ok unit' → Reached unit'
  | assignRemotePath {unit unit' : OutgoingUnit} (path : String) :
      Reached unit → unit.assignRemotePath path = .ok unit' → Reached unit'
  | beginStage {unit unit' : OutgoingUnit} (request : StageRequest) :
      Reached unit → unit.beginStage = .ok (request, unit') → Reached unit'
  | completeStage {unit unit' : OutgoingUnit} :
      Reached unit → unit.completeStage = .ok unit' → Reached unit'
  | failStage {unit unit' : OutgoingUnit} :
      Reached unit → unit.failStage = .ok unit' → Reached unit'
  | releaseLocal {unit : OutgoingUnit} (disk : Disk) :
      Reached unit → Reached (unit.releaseLocal disk).2.1
  | runLoad (settings : Settings) {batch : OutgoingBatch} (disk : Disk) {unit : OutgoingUnit} :
      (∀ u ∈ batch.units, Reached u) →
      unit ∈ (Phase.runLoad settings batch disk).2.1.units → Reached unit
  | runStage {σ : Type} [Services σ] (settings : Settings) {batch : OutgoingBatch}
      (world : World σ) {unit : OutgoingUnit} : (∀ u ∈ batch.units, Reached u) →
      unit ∈ (Phase.runStage settings batch world).2.1.units → Reached unit

theorem Reached.coherent {unit : OutgoingUnit} (h : unit.Reached) : unit.Coherent := by
  induction h with
  | pick id source contentType => exact coherent_pick id source contentType
  | setSize size _ hset ih => exact ih.setSize hset
  | beginLoad request _ hbegin ih => exact ih.beginLoad hbegin
  | completeLoad copy _ hcomplete _ => exact coherent_of_completeLoad hcomplete
  | failLoad _ hfail _ => exact coherent_of_failLoad hfail
  | assignRemotePath path _ hassign ih => exact ih.assignRemotePath hassign
  | beginStage request _ hbegin _ => exact coherent_of_beginStage hbegin
  | completeStage _ hcomplete ih => exact ih.completeStage hcomplete
  | failStage _ hfail ih => exact ih.failStage hfail
  | releaseLocal disk _ ih => exact ih.releaseLocal disk
  | runLoad settings disk _ hunit ih => exact Phase.coherent_runLoad settings disk ih _ hunit
  | runStage settings world _ hunit ih => exact Phase.coherent_runStage settings world ih _ hunit

end OutgoingUnit

end PeerTransfer
