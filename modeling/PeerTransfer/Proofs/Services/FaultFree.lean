import PeerTransfer.Proofs.Catalog
import PeerTransfer.Services.InMemory

/-!
# Services without faults

A store without faults answers what it was given last, and a registry without faults takes every
descriptor; neither touches the disk (`FaultFree`). The services in memory are such services while
they follow no rule and the registry has no fault (`InMemory.faultFree`).
-/

namespace PeerTransfer

/-- What store and registry do in the states of which `Sound` holds, and how these states go on. -/
structure FaultFree (σ : Type) [Services σ] where
  Sound : σ → Prop
  /-- The content that the store has under a remote path. -/
  blob? : σ → String → Option Bytes
  /-- The descriptors that the registry has, the oldest first. -/
  published : σ → List Descriptor
  upload {services : σ} (disk : Disk) (content : Bytes) (path : String) : Sound services →
    ∃ services', Services.upload content path ⟨disk, services⟩ = (.ok (), ⟨disk, services'⟩) ∧
      Sound services' ∧ blob? services' = Function.update (blob? services) path (some content) ∧
      published services' = published services
  download {services : σ} (disk : Disk) {path : String} {content : Bytes} : Sound services →
    blob? services path = some content →
    ∃ services', Services.download path ⟨disk, services⟩ = (.ok content, ⟨disk, services'⟩) ∧
      Sound services' ∧ blob? services' = blob? services
  publish {services : σ} (descriptor : Descriptor) : Sound services →
    ∃ reference services', Services.publish descriptor services = (.ok reference, services') ∧
      Sound services' ∧ blob? services' = blob? services ∧
      published services' = published services ++ [descriptor]

namespace InMemory

theorem upload_of_no_rules {services : InMemory} (hrules : services.rules = []) (disk : Disk)
    (content : Bytes) (path : String) :
    upload content path ⟨disk, services⟩ =
      (.ok (), ⟨disk, { services with blobs := services.blobs.insert path content }⟩) := by
  unfold upload
  dsimp only
  rw [hrules]
  rfl

theorem download_of_no_rules {services : InMemory} (hrules : services.rules = []) (disk : Disk)
    {path : String} {content : Bytes} (hblob : services.blobs.find? path = some content) :
    download path ⟨disk, services⟩ = (.ok content, ⟨disk, services⟩) := by
  unfold download
  dsimp only
  rw [hrules, applyRules]
  dsimp only
  rw [hblob]

theorem publish_of_no_fault {services : InMemory} (hfault : services.publishFault = none)
    (descriptor : Descriptor) :
    publish descriptor services = (.ok ("batches/" ++ descriptor.batchId),
      { services with published := services.published ++ [descriptor] }) := by
  unfold publish
  rw [hfault]
  rfl

/-- The services in memory, with no rules for the store and no fault of the registry. -/
def faultFree : FaultFree InMemory where
  Sound services := services.rules = [] ∧ services.publishFault = none
  blob? services := services.blobs.find?
  published := InMemory.published
  upload disk content path h := by
    refine ⟨_, upload_of_no_rules h.1 disk content path, h, ?_, rfl⟩
    funext path'
    by_cases hpath : path' = path
    · subst hpath
      rw [Function.update_self]
      exact Catalog.find?_insert_self _ _ _
    · rw [Function.update_of_ne hpath]
      exact Catalog.find?_insert_of_ne _ hpath _
  download disk _ _ h hblob := ⟨_, download_of_no_rules h.1 disk hblob, h, rfl⟩
  publish descriptor h := ⟨_, _, publish_of_no_fault h.2 descriptor, h, rfl, rfl⟩

end InMemory

end PeerTransfer
