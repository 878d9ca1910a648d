import PeerTransfer.Batch.Handover
import PeerTransfer.Proofs.Catalog
import PeerTransfer.Proofs.Unit.Target
import PeerTransfer.Proofs.Uuid.Fresh
import PeerTransfer.Proofs.Wire.RoundTrip

/-!
# What a receiver makes of an announcement

A batch of which every unit has a remote path can be described, and its receiver makes of the
descriptor a unit for each of the sender's, under the same id and remote path, though in the order
of the ids' texts (`ofDescriptor_of_described`). Of records that were sent over a direct channel it
makes units under ids of its own, in the order of the records (`ofWire_of_encode`).
-/

namespace PeerTransfer

open List

/-- A pass that succeeds on every element answers what it makes of each. -/
theorem mapM_eq_ok {α β ε : Type} {f : α → Except ε β} {g : α → β} {as : List α}
    (h : ∀ a ∈ as, f a = .ok (g a)) : as.mapM f = .ok (as.map g) := by
  induction as with
  | nil => rfl
  | cons a as ih =>
    rw [forall_mem_cons] at h
    rw [mapM_cons, h.1, ih h.2]
    rfl

theorem exists_of_mapM_eq_ok {α β ε : Type} {f : α → Except ε β} {as : List α} {bs : List β}
    (h : as.mapM f = .ok bs) : ∀ a ∈ as, ∃ b, f a = .ok b := by
  induction as generalizing bs with
  | nil => exact forall_mem_nil _
  | cons a as ih =>
    rw [mapM_cons] at h
    cases hfirst : f a with
    | error failure =>
      rw [hfirst] at h
      cases h
    | ok b =>
      cases hrest : as.mapM f with
      | error failure =>
        rw [hfirst, hrest] at h
        cases h
      | ok bs => exact forall_mem_cons.2 ⟨⟨b, hfirst⟩, ih hrest⟩

theorem Uuid.isBlank_text (id : Uuid) : Text.isBlank id.text = false := by
  have hhyphen : '-' ∈ id.text.toList := by
    rw [toList_text]
    simp [hyphenate]
  unfold Text.isBlank
  rw [all_eq_false]
  exact ⟨'-', hhyphen, by decide⟩

namespace Batch

theorem build_eq_ok {U : Type} {draft : Draft U} {id : String}
    (hsender : Text.isBlank draft.sender = false) (hreceiver : Text.isBlank draft.receiver = false)
    (hunits : draft.units ≠ []) (hid : Text.isBlank id = false) :
    draft.build id = .ok ⟨id, draft.token, draft.sender, draft.receiver, draft.units, none⟩ := by
  unfold Draft.build
  simp [hsender, hreceiver, hunits, hid]

theorem eq_of_build {U : Type} {draft : Draft U} {id : String} {batch : Batch U}
    (h : draft.build id = .ok batch) :
    batch = ⟨id, draft.token, draft.sender, draft.receiver, draft.units, none⟩ := by
  unfold Draft.build at h
  split_ifs at h
  exact (Except.ok.inj h).symm

theorem build_of_eq_ok {U : Type} {draft : Draft U} {id : String} {batch : Batch U}
    (h : draft.build id = .ok batch) : batch.units ≠ [] ∧ Text.isBlank batch.id = false := by
  unfold Draft.build at h
  split_ifs at h with _ hunits hid
  cases h
  exact ⟨by simpa using hunits, by simpa using hid⟩

theorem draft_of_build_eq_ok {U : Type} {draft : Draft U} {id : String} {batch : Batch U}
    (h : draft.build id = .ok batch) : Text.isBlank draft.sender = false ∧ draft.units ≠ [] := by
  unfold Draft.build at h
  split_ifs at h with hparties hunits
  rw [Bool.or_eq_true, not_or] at hparties
  exact ⟨by simpa using hparties.1, by simpa using hunits⟩

end Batch

/-! ## Descriptors -/

/-- What a unit with a remote path is filed under and as. -/
def OutgoingUnit.entry (unit : OutgoingUnit) : String × UnitDescriptor :=
  (unit.id.text, ⟨unit.contentType, unit.remotePath.getD default, unit.size⟩)

/-- What the receiver makes of a unit that was described. -/
def OutgoingUnit.asAnnounced (unit : OutgoingUnit) : IncomingUnit :=
  .announced unit.id (Batch.nameInPath (unit.remotePath.getD default))
    (unit.remotePath.getD default) unit.contentType unit.size

namespace Batch

/-- The descriptor of a batch of which every unit has a remote path. -/
def descriptor (batch : OutgoingBatch) : Descriptor :=
  ⟨batch.id, batch.token, Catalog.ofList (batch.units.map OutgoingUnit.entry)⟩

theorem describe_eq_ok {batch : OutgoingBatch} (h : ∀ u ∈ batch.units, u.remotePath.isSome) :
    batch.describe = .ok batch.descriptor := by
  have hunits : batch.units.mapM OutgoingUnit.describe =
      .ok (batch.units.map OutgoingUnit.entry) := by
    apply mapM_eq_ok
    intro u hu
    obtain ⟨path, hpath⟩ := Option.isSome_iff_exists.1 (h u hu)
    simp only [OutgoingUnit.describe, OutgoingUnit.entry, hpath, Option.getD_some]
  unfold describe
  rw [hunits]
  rfl

theorem batchId_of_describe {batch : OutgoingBatch} {descriptor : Descriptor}
    (h : batch.describe = .ok descriptor) : descriptor.batchId = batch.id := by
  unfold describe at h
  cases hunits : batch.units.mapM OutgoingUnit.describe with
  | error failure =>
    rw [hunits] at h
    cases h
  | ok units =>
    rw [hunits] at h
    cases h
    rfl

theorem perm_entries_descriptor {batch : OutgoingBatch}
    (hnodup : (batch.units.map Transferable.id).Nodup) :
    batch.descriptor.units.entries ~ batch.units.map OutgoingUnit.entry := by
  apply Catalog.entries_ofList_perm
  have hkeys : (batch.units.map OutgoingUnit.entry).map Prod.fst =
      (batch.units.map Transferable.id).map Uuid.text := by
    rw [map_map, map_map]
    rfl
  rw [hkeys]
  exact hnodup.map Uuid.text_injective

theorem ofDescriptor_of_described {batch : OutgoingBatch} {sender receiver : String}
    (hnodup : (batch.units.map Transferable.id).Nodup) (hunits : batch.units ≠ [])
    (hid : Text.isBlank batch.id = false) (hsender : Text.isBlank sender = false)
    (hreceiver : Text.isBlank receiver = false) :
    ∃ incoming, ofDescriptor batch.descriptor sender receiver = .ok incoming ∧
      incoming.units ~ batch.units.map OutgoingUnit.asAnnounced := by
  have hperm := perm_entries_descriptor hnodup
  -- What is made of an entry, whatever its key is read as.
  set made : String × UnitDescriptor → IncomingUnit := fun entry =>
    .announced ((Uuid.parse? entry.1).getD default) (nameInPath entry.2.remotePath)
      entry.2.remotePath entry.2.contentType entry.2.size
  have hmade : (batch.units.map OutgoingUnit.entry).map made =
      batch.units.map OutgoingUnit.asAnnounced := by
    rw [map_map]
    apply map_congr_left
    intro u _
    change IncomingUnit.announced ((Uuid.parse? u.id.text).getD default) _ _ _ _ = _
    rw [Uuid.parse?_text]
    rfl
  have hreceived : batch.descriptor.units.entries.map made ≠ [] := by
    intro hnil
    rw [map_eq_nil_iff] at hnil
    rw [hnil] at hperm
    exact hunits (map_eq_nil_iff.1 hperm.symm.eq_nil)
  refine ⟨⟨batch.id, batch.token, sender, receiver, _, none⟩, ?_, hmade ▸ hperm.map made⟩
  unfold ofDescriptor
  rw [mapM_eq_ok (g := made)]
  · exact build_eq_ok hsender hreceiver hreceived hid
  · intro entry hentry
    obtain ⟨u, -, rfl⟩ := mem_map.1 (hperm.mem_iff.1 hentry)
    simp only [unitOfEntry, OutgoingUnit.entry, Uuid.parse?_text, made, Option.getD_some]

end Batch

/-! ## Records -/

/-- What announces a unit with a remote path over a direct channel. -/
def OutgoingUnit.announcement (unit : OutgoingUnit) : Wire.Record :=
  ⟨unit.name, unit.remotePath.getD default, unit.size⟩

theorem IdSource.map_snd_drawFor {α : Type} (l : List α) (source : IdSource) :
    (drawFor l source).1.map Prod.snd = l := by
  induction l generalizing source with
  | nil => rfl
  | cons a l ih => simp only [drawFor, map_cons, ih]

namespace Batch

theorem records_eq_ok {batch : OutgoingBatch} (h : ∀ u ∈ batch.units, u.remotePath.isSome) :
    batch.records = .ok (batch.units.map OutgoingUnit.announcement) := by
  apply mapM_eq_ok
  intro u hu
  obtain ⟨path, hpath⟩ := Option.isSome_iff_exists.1 (h u hu)
  simp only [OutgoingUnit.record, OutgoingUnit.announcement, hpath, Option.getD_some]

theorem exists_encode_of_encodeWire {batch : OutgoingBatch} {payload : Bytes}
    (h : batch.encodeWire = .ok payload) :
    ∃ records, batch.records = .ok records ∧ Wire.encode records = .ok payload := by
  unfold encodeWire at h
  cases hrecords : batch.records with
  | error failure =>
    rw [hrecords] at h
    cases h
  | ok records =>
    rw [hrecords] at h
    change (Wire.encode records).mapError Failure.unwritableWire = .ok payload at h
    cases hencode : Wire.encode records with
    | error error =>
      rw [hencode] at h
      cases h
    | ok bytes =>
      rw [hencode] at h
      cases h
      exact ⟨records, rfl, hencode⟩

theorem encode_of_encodeWire {batch : OutgoingBatch} (h : ∀ u ∈ batch.units, u.remotePath.isSome)
    {payload : Bytes} (hpayload : batch.encodeWire = .ok payload) :
    Wire.encode (batch.units.map OutgoingUnit.announcement) = .ok payload := by
  obtain ⟨records, hrecords, hencode⟩ := exists_encode_of_encodeWire hpayload
  rw [records_eq_ok h] at hrecords
  cases hrecords
  exact hencode

/-- What a batch hands over is read as its records. -/
theorem exists_decode_of_encodeWire {batch : OutgoingBatch} {payload : Bytes}
    (h : batch.encodeWire = .ok payload) :
    ∃ records, batch.records = .ok records ∧ Wire.decode payload = .ok records := by
  obtain ⟨records, hrecords, hencode⟩ := exists_encode_of_encodeWire h
  exact ⟨records, hrecords, Wire.decode_of_run (Wire.run_readAll hencode)⟩

/-- Readable records that are not none become a batch between the parties that are named. -/
theorem ofWire_of_decode {records : List Wire.Record} {payload : Bytes}
    (h : Wire.decode payload = .ok records) (hrecords : records ≠ []) {sender receiver : String}
    (hsender : Text.isBlank sender = false) (hreceiver : Text.isBlank receiver = false)
    (ids : IdSource) :
    ∃ incoming, (ofWire payload sender receiver ids).1 = .ok incoming ∧
      incoming.sender = sender ∧ incoming.receiver = receiver ∧
      incoming.units =
        (ids.drawFor records).1.map fun (id, record) => IncomingUnit.ofRecord id record := by
  have hunits : (ids.drawFor records).1.map
      (fun (id, record) => IncomingUnit.ofRecord id record) ≠ [] := by
    intro hnil
    rw [map_eq_nil_iff] at hnil
    have hnumbered := ids.map_snd_drawFor records
    rw [hnil] at hnumbered
    exact hrecords hnumbered.symm
  unfold ofWire
  rw [h]
  exact ⟨_, build_eq_ok hsender hreceiver hunits (Uuid.isBlank_text _), rfl, rfl, rfl⟩

/-- Only readable records that are not none become a batch, and only of a sender with a name. -/
theorem decode_of_ofWire {payload : Bytes} {sender receiver : String} {ids : IdSource}
    {incoming : IncomingBatch} (h : (ofWire payload sender receiver ids).1 = .ok incoming) :
    ∃ records, Wire.decode payload = .ok records ∧ records ≠ [] ∧ Text.isBlank sender = false := by
  unfold ofWire at h
  cases hdecode : Wire.decode payload with
  | error error =>
    rw [hdecode] at h
    cases h
  | ok records =>
    rw [hdecode] at h
    obtain ⟨hsender, hunits⟩ := draft_of_build_eq_ok h
    refine ⟨records, rfl, ?_, hsender⟩
    rintro rfl
    exact hunits rfl

theorem ofWire_of_encode {records : List Wire.Record} {payload : Bytes}
    (h : Wire.encode records = .ok payload) (hrecords : records ≠ []) {sender receiver : String}
    (hsender : Text.isBlank sender = false) (hreceiver : Text.isBlank receiver = false)
    (ids : IdSource) :
    ∃ incoming, (ofWire payload sender receiver ids).1 = .ok incoming ∧
      incoming.units =
        (ids.drawFor records).1.map fun (id, record) => IncomingUnit.ofRecord id record := by
  have hdecode := Wire.decode_of_run (Wire.run_readAll h)
  obtain ⟨incoming, hincoming, -, -, hunits⟩ :=
    ofWire_of_decode hdecode hrecords hsender hreceiver ids
  exact ⟨incoming, hincoming, hunits⟩

end Batch

end PeerTransfer
