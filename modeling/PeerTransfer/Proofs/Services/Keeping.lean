import PeerTransfer.Proofs.Phase.Frame
import PeerTransfer.Proofs.Services.FaultFree
import PeerTransfer.Proofs.Services.Recorded

/-!
# Stores that keep what they have taken

Any call of a store may fail, and one that fails may have done some of its work. Of a store that
keeps what it has taken it is known only that content is there once its upload has succeeded, and
that nothing but an upload to a path changes what is under that path (`Keeping`).
-/

namespace PeerTransfer

open List

variable {σ : Type}

/-- What is under a path in the first state, if anything is, is there in the second. -/
def BlobWithin (blob? : σ → String → Option Bytes) (path : String) (services services' : σ) :
    Prop :=
  ∀ content, blob? services path = some content → blob? services' path = some content

section BlobWithin

variable {blob? : σ → String → Option Bytes} {path : String} {services services' services'' : σ}

theorem BlobWithin.refl (blob? : σ → String → Option Bytes) (path : String) (services : σ) :
    BlobWithin blob? path services services :=
  fun _ h => h

theorem BlobWithin.trans (h : BlobWithin blob? path services services')
    (h' : BlobWithin blob? path services' services'') :
    BlobWithin blob? path services services'' :=
  fun content hcontent => h' content (h content hcontent)

end BlobWithin

/-- A store that keeps what it has taken as long as `Kept` holds of its state, and services that do
not touch what units are copied to in a folder. -/
structure Keeping (σ : Type) [Services σ] (folder : Path) where
  Kept : σ → Prop
  /-- The content that the store has under a remote path. -/
  blob? : σ → String → Option Bytes
  sparing (unit : OutgoingUnit) : Sparing Kept (unit.targetIn folder)
  upload {content : Bytes} {path : String} (world : World σ) : Kept world.services →
    (Services.upload content path world).1 = .ok () →
    blob? (Services.upload content path world).2.services path = some content
  upload_of_ne (content : Bytes) {path path' : String} (world : World σ) : path' ≠ path →
    Kept world.services →
    BlobWithin blob? path' world.services (Services.upload content path world).2.services
  download (remotePath path : String) (world : World σ) : Kept world.services →
    BlobWithin blob? path world.services (Services.download remotePath world).2.services
  publish (descriptor : Descriptor) (path : String) (services : σ) : Kept services →
    BlobWithin blob? path services (Services.publish descriptor services).2
  connect (endpoint path : String) (services : σ) : Kept services →
    BlobWithin blob? path services (Services.connect endpoint services).2
  disconnect (endpoint path : String) (services : σ) : Kept services →
    BlobWithin blob? path services (Services.disconnect endpoint services).2
  send (endpoint : String) (payload : Bytes) (path : String) (services : σ) : Kept services →
    BlobWithin blob? path services (Services.send endpoint payload services).2

/-- Recording the calls of services leaves files alone. -/
theorem Sparing.recorded [Services σ] {Kept : σ → Prop} {path : Path} (h : Sparing Kept path) :
    Sparing (fun recorded : Recorded σ => Kept recorded.services) path where
  upload content remotePath world hkept :=
    have hspares := h.upload content remotePath ⟨world.disk, world.services.services⟩ hkept
    ⟨hspares.kept, hspares.file⟩
  download remotePath world hkept :=
    have hspares := h.download remotePath ⟨world.disk, world.services.services⟩ hkept
    ⟨hspares.kept, hspares.file⟩
  publish descriptor recorded := h.publish descriptor recorded.services
  connect endpoint recorded := h.connect endpoint recorded.services
  disconnect endpoint recorded := h.disconnect endpoint recorded.services
  send endpoint payload recorded := h.send endpoint payload recorded.services

namespace Keeping

variable [Services σ] {folder : Path} (store : Keeping σ folder)

/-- The store whose calls are recorded keeps what it has taken just as well. -/
def recorded : Keeping (Recorded σ) folder where
  Kept recorded := store.Kept recorded.services
  blob? recorded := store.blob? recorded.services
  sparing unit := (store.sparing unit).recorded
  upload world := store.upload ⟨world.disk, world.services.services⟩
  upload_of_ne content {_ _} world :=
    store.upload_of_ne content ⟨world.disk, world.services.services⟩
  download remotePath path world :=
    store.download remotePath path ⟨world.disk, world.services.services⟩
  publish descriptor path recorded := store.publish descriptor path recorded.services
  connect endpoint path recorded := store.connect endpoint path recorded.services
  disconnect endpoint path recorded := store.disconnect endpoint path recorded.services
  send endpoint payload path recorded := store.send endpoint payload path recorded.services

theorem exists_sparing : ∃ path, Sparing store.Kept path :=
  ⟨_, store.sparing (.ofPath .zero default)⟩

/-- What a change of the world is held to: the store keeps its blobs, and the files in the folder to
which units are copied stay as they are. -/
structure Leaves (world world' : World σ) : Prop where
  kept : store.Kept world'.services
  blobs : ∀ path, BlobWithin store.blob? path world.services world'.services
  copies : ∀ unit : OutgoingUnit, world.disk.FileWithin (unit.targetIn folder) world'.disk

end Keeping

/-! ## The store in memory -/

namespace InMemory

/-- The rules only have calls fail. -/
def Harmless (services : InMemory) : Prop :=
  ∀ rule ∈ services.rules, rule.action = .refuse ∨ rule.action = .crash

theorem snd_applyRules {rules : List StoreRule}
    (h : ∀ rule ∈ rules, rule.action = .refuse ∨ rule.action = .crash) (path : String)
    (disk : Disk) : (applyRules path rules disk).2 = disk := by
  induction rules with
  | nil => rfl
  | cons rule rules ih =>
    rw [forall_mem_cons] at h
    unfold applyRules
    split_ifs
    · rcases h.1 with hrefuse | hcrash
      · rw [hrefuse]
      · rw [hcrash]
    · exact ih h.2

variable {world : World InMemory} (h : world.services.Harmless)

include h

theorem upload_of_harmless (content : Bytes) (path : String) :
    (∃ failure, Services.upload content path world = (.error failure, world)) ∨
      Services.upload content path world = (.ok (), { world with services :=
        { world.services with blobs := world.services.blobs.insert path content } }) := by
  obtain ⟨disk, services⟩ := world
  have hdisk := snd_applyRules h path disk
  change (∃ failure, upload content path ⟨disk, services⟩ = (.error failure, ⟨disk, services⟩)) ∨
    upload content path ⟨disk, services⟩ = _
  unfold upload
  dsimp only
  split
  · next failure disk' hrules =>
    rw [hrules] at hdisk
    exact .inl ⟨failure, by rw [← hdisk]⟩
  · next disk' hrules =>
    rw [hrules] at hdisk
    exact .inr (by rw [← hdisk])

theorem download_of_harmless (path : String) : (Services.download path world).2 = world := by
  obtain ⟨disk, services⟩ := world
  have hdisk := snd_applyRules h path disk
  change (download path ⟨disk, services⟩).2 = _
  unfold download
  dsimp only
  split
  · next hrules =>
    rw [hrules] at hdisk
    rw [← hdisk]
  · next hrules =>
    rw [hrules] at hdisk
    rw [← hdisk]
    split <;> rfl

omit h

theorem publish_spares_store (descriptor : Descriptor) (services : InMemory) :
    (Services.publish descriptor services).2.blobs = services.blobs ∧
      (Services.publish descriptor services).2.rules = services.rules := by
  change (publish descriptor services).2.blobs = _ ∧ (publish descriptor services).2.rules = _
  unfold publish
  split <;> exact ⟨rfl, rfl⟩

theorem send_spares_store (endpoint : String) (payload : Bytes) (services : InMemory) :
    (Services.send endpoint payload services).2.blobs = services.blobs ∧
      (Services.send endpoint payload services).2.rules = services.rules := by
  change (send endpoint payload services).2.blobs = _ ∧ (send endpoint payload services).2.rules = _
  unfold send
  split <;> exact ⟨rfl, rfl⟩

theorem sparing_of_harmless (path : Path) : Sparing Harmless path where
  upload content remotePath world h := by
    rcases upload_of_harmless h content remotePath with ⟨failure, hrun⟩ | hrun
    · rw [hrun]
      exact .refl h
    · rw [hrun]
      exact ⟨h, .refl world.disk path⟩
  download remotePath world h := by
    rw [download_of_harmless h]
    exact .refl h
  publish descriptor services h := by
    unfold Harmless
    rw [(publish_spares_store descriptor services).2]
    exact h
  connect _ _ h := h
  disconnect _ _ h := h
  send endpoint payload services h := by
    unfold Harmless
    rw [(send_spares_store endpoint payload services).2]
    exact h

/-- The store in memory keeps what it has taken, whatever calls it has fail. -/
def keeping (folder : Path) : Keeping InMemory folder where
  Kept := Harmless
  blob? services := services.blobs.find?
  sparing unit := sparing_of_harmless (unit.targetIn folder)
  upload {content path} world h hok := by
    rcases upload_of_harmless h content path with ⟨failure, hrun⟩ | hrun
    · rw [hrun] at hok
      cases hok
    · rw [hrun]
      exact Catalog.find?_insert_self _ _ _
  upload_of_ne content {path _} world hne h := by
    rcases upload_of_harmless h content path with ⟨failure, hrun⟩ | hrun
    · rw [hrun]
      exact .refl _ _ _
    · rw [hrun]
      intro blob hblob
      exact (Catalog.find?_insert_of_ne _ hne _).trans hblob
  download remotePath path world h := by
    rw [download_of_harmless h]
    exact .refl _ _ _
  publish descriptor path services _ := by
    intro content hblob
    rw [← hblob]
    exact congrArg (·.find? path) (publish_spares_store descriptor services).1
  connect _ _ _ _ := .refl _ _ _
  disconnect _ _ _ _ := .refl _ _ _
  send endpoint payload path services _ := by
    intro content hblob
    rw [← hblob]
    exact congrArg (·.find? path) (send_spares_store endpoint payload services).1

end InMemory

end PeerTransfer
