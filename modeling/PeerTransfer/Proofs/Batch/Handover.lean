import PeerTransfer.Proofs.Batch.Tracked
import PeerTransfer.Proofs.ContentType

/-!
# What is handed over

Only a batch of which every unit has a remote path is handed over. Over a direct channel its
receiver gets the units in their order, with the types that their names tell
(`received_of_encodeWire`). Through a registry it gets them in the order of their ids, with the ids
and the types that the sender knows (`relayed_of_describe`). Of files that were picked by their
paths, which they stay through all phases (`Picked`), it learns the same on both ways
(`perm_of_both_ways`).
-/

namespace PeerTransfer

open List

theorem map_eq_of_forall₂ {α β γ : Type} {R : α → β → Prop} {f : α → γ} {g : β → γ} {as : List α}
    {bs : List β} (h : Forall₂ R as bs) (hfg : ∀ a b, R a b → f a = g b) :
    as.map f = bs.map g := by
  induction h with
  | nil => rfl
  | cons hab _ ih => rw [map_cons, map_cons, hfg _ _ hab, ih]

/-! ## Over a direct channel -/

/-- What the receiver of a direct payload makes of a unit. -/
structure OutgoingUnit.SentAs (unit : OutgoingUnit) (received : IncomingUnit) : Prop where
  state_eq : received.state = .received
  name_eq : received.name = unit.name
  remotePath_eq : unit.remotePath = some received.remotePath
  size_eq : received.size = unit.size
  contentType_eq : received.contentType = ContentType.guess ⟨unit.name⟩
  label_eq : Transferable.label received = Transferable.label unit

theorem IncomingUnit.contentType_ofRecord (id : Uuid) (record : Wire.Record) :
    (ofRecord id record).contentType = ContentType.guess ⟨record.name⟩ := rfl

theorem OutgoingUnit.sentAs_ofRecord {unit : OutgoingUnit} (h : unit.remotePath.isSome)
    (id : Uuid) : unit.SentAs (.ofRecord id unit.announcement) := by
  obtain ⟨path, hpath⟩ := Option.isSome_iff_exists.1 h
  have hurl : unit.announcement.url = path := by
    simp [announcement, hpath]
  refine ⟨rfl, rfl, ?_, rfl, IncomingUnit.contentType_ofRecord id _, ?_⟩
  · rw [hpath, ← hurl]
    rfl
  · show unit.announcement.url = unit.remotePath.getD unit.name
    rw [hurl, hpath, Option.getD_some]

/-- Each record draws an id of its own, and apart from it says all there is to know of its unit. -/
theorem forall₂_sentAs_drawFor {units : List OutgoingUnit}
    (h : ∀ u ∈ units, u.remotePath.isSome) (ids : IdSource) :
    Forall₂ OutgoingUnit.SentAs units
      ((ids.drawFor (units.map OutgoingUnit.announcement)).1.map fun (id, record) =>
        IncomingUnit.ofRecord id record) := by
  induction units generalizing ids with
  | nil => exact .nil
  | cons u units ih =>
    rw [forall_mem_cons] at h
    exact .cons (OutgoingUnit.sentAs_ofRecord h.1 _) (ih h.2 _)

namespace Batch

theorem isSome_remotePath_of_encodeWire {batch : OutgoingBatch} {payload : Bytes}
    (h : batch.encodeWire = .ok payload) : ∀ u ∈ batch.units, u.remotePath.isSome := by
  obtain ⟨records, hrecords, -⟩ := exists_encode_of_encodeWire h
  intro u hu
  obtain ⟨record, hrecord⟩ := exists_of_mapM_eq_ok hrecords u hu
  unfold OutgoingUnit.record at hrecord
  cases hpath : u.remotePath with
  | none => simp [hpath] at hrecord
  | some path => rfl

/-- What is handed over directly is received unit by unit. -/
theorem exists_ofWire_of_encodeWire {batch : OutgoingBatch} {payload : Bytes}
    (h : batch.encodeWire = .ok payload) (hunits : batch.units ≠ []) {sender receiver : String}
    (hsender : Text.isBlank sender = false) (hreceiver : Text.isBlank receiver = false)
    (ids : IdSource) :
    ∃ incoming, (ofWire payload sender receiver ids).1 = .ok incoming ∧
      Forall₂ OutgoingUnit.SentAs batch.units incoming.units := by
  have hpaths := isSome_remotePath_of_encodeWire h
  obtain ⟨incoming, hincoming, hreceived⟩ := ofWire_of_encode (encode_of_encodeWire hpaths h)
    (by simpa using hunits) hsender hreceiver ids
  exact ⟨incoming, hincoming, hreceived ▸ forall₂_sentAs_drawFor hpaths ids⟩

theorem totalSize_eq_of_map {U S U' S' : Type} [Transferable U S] [Transferable U' S']
    {batch : Batch U} {batch' : Batch U'}
    (h : batch.units.map Transferable.size = batch'.units.map Transferable.size) :
    batch.totalSize = batch'.totalSize := by
  have hsizes := congrArg (map UInt64.toNat) h
  rw [map_map, map_map] at hsizes
  unfold totalSize
  exact congrArg (foldr (· + ·) 0) hsizes

/-- A payload is written only for a batch of which every unit has a remote path, and then, between
any parties with names, it is read as a batch of as many units in the same order. A batch that is
built has units. -/
theorem received_of_encodeWire {batch : OutgoingBatch} {payload : Bytes}
    (hpayload : batch.encodeWire = .ok payload) (hunits : batch.units ≠ [])
    {sender receiver : String} (hsender : Text.isBlank sender = false)
    (hreceiver : Text.isBlank receiver = false) (ids : IdSource) :
    (∀ u ∈ batch.units, u.remotePath.isSome) ∧
      ∃ incoming, (ofWire payload sender receiver ids).1 = .ok incoming ∧
        incoming.units.length = batch.units.length ∧
        Forall₂ OutgoingUnit.SentAs batch.units incoming.units ∧
        incoming.totalSize = batch.totalSize := by
  refine ⟨isSome_remotePath_of_encodeWire hpayload, ?_⟩
  obtain ⟨incoming, hincoming, hreceived⟩ :=
    exists_ofWire_of_encodeWire hpayload hunits hsender hreceiver ids
  have hsizes : incoming.units.map Transferable.size = batch.units.map Transferable.size :=
    (map_eq_of_forall₂ hreceived fun _ _ h => h.size_eq.symm).symm
  exact ⟨incoming, hincoming, hreceived.length_eq.symm, hreceived, totalSize_eq_of_map hsizes⟩

/-- Two files that were picked by their paths, one of which names none, with the remote paths that
they were given. -/
def twoPicked : OutgoingBatch where
  id := "b"
  token := some ""
  sender := "us"
  receiver := "them"
  units := [
    { OutgoingUnit.ofPath ⟨Vector.replicate 32 (Fin.last 15)⟩ ⟨"/x/Photo.JPG/"⟩ with
      remotePath := some "b/1.jpg", size := 3 },
    { OutgoingUnit.ofPath .zero ⟨"/y/.."⟩ with remotePath := some "0" }]
  reference := none

theorem received_of_encodeWire_twoPicked :
    let payload := twoPicked.encodeWire.toOption.getD []
    twoPicked.encodeWire = .ok payload ∧ twoPicked.units ≠ [] ∧ Text.isBlank "us" = false ∧
      Text.isBlank "them" = false ∧ (∀ u ∈ twoPicked.units, u.remotePath.isSome) ∧
      ∃ incoming, (ofWire payload "us" "them" .repdigits).1 = .ok incoming ∧
        incoming.units.length = 2 ∧
        Forall₂ OutgoingUnit.SentAs twoPicked.units incoming.units ∧
        incoming.totalSize = 3 := by
  intro payload
  have hpayload : twoPicked.encodeWire = .ok payload := by decide +kernel
  have hunits : twoPicked.units ≠ [] := by simp [twoPicked]
  have hsender : Text.isBlank "us" = false := by decide +kernel
  have hreceiver : Text.isBlank "them" = false := by decide +kernel
  exact ⟨hpayload, hunits, hsender, hreceiver,
    received_of_encodeWire hpayload hunits hsender hreceiver .repdigits⟩

/-! ## Through a registry -/

/-- A list is cut at the last of its members that are the same. -/
theorem exists_last_of_mem {α : Type} {a : α} {as : List α} (h : a ∈ as) :
    ∃ before after, as = before ++ a :: after ∧ a ∉ after := by
  obtain ⟨after, before, hcut, hafter⟩ := eq_append_cons_of_mem (mem_reverse.2 h)
  refine ⟨before.reverse, after.reverse, ?_, by simpa using hafter⟩
  rw [← reverse_reverse as, hcut]
  simp

/-- A name is what follows the last slash of a path, or all of a path without slashes. -/
def FollowsLastSlash (name path : String) : Prop :=
  '/' ∉ name.toList ∧ (path = name ∨ ∃ folder, path = folder ++ "/" ++ name)

theorem nameInPath_of_toList {path : String} {before after : List Char}
    (h : path.toList = before ++ '/' :: after) (hafter : '/' ∉ after) :
    nameInPath path = String.ofList after := by
  unfold nameInPath
  rw [h, Path.split_append_slash, Path.split_of_not_mem hafter]
  simp

theorem followsLastSlash_nameInPath (path : String) :
    FollowsLastSlash (nameInPath path) path := by
  by_cases hslash : '/' ∈ path.toList
  · obtain ⟨before, after, hpath, hafter⟩ := exists_last_of_mem hslash
    rw [nameInPath_of_toList hpath hafter]
    refine ⟨by simpa using hafter, .inr ⟨String.ofList before, ?_⟩⟩
    apply String.toList_inj.1
    simp [hpath]
  · have hname : nameInPath path = path := by
      unfold nameInPath
      rw [Path.split_of_not_mem hslash]
      simp
    rw [hname]
    exact ⟨hslash, .inl rfl⟩

end Batch

/-- What the receiver of a descriptor makes of a unit. -/
structure OutgoingUnit.RelayedAs (unit : OutgoingUnit) (received : IncomingUnit) : Prop where
  id_eq : received.id = unit.id
  state_eq : received.state = .received
  name_follows : Batch.FollowsLastSlash received.name received.remotePath
  remotePath_eq : unit.remotePath = some received.remotePath
  size_eq : received.size = unit.size
  contentType_eq : received.contentType = unit.contentType

theorem OutgoingUnit.relayedAs_asAnnounced {unit : OutgoingUnit} (h : unit.remotePath.isSome) :
    unit.RelayedAs unit.asAnnounced := by
  obtain ⟨path, hpath⟩ := Option.isSome_iff_exists.1 h
  refine ⟨rfl, rfl, Batch.followsLastSlash_nameInPath _, ?_, rfl, rfl⟩
  show unit.remotePath = some (unit.remotePath.getD default)
  rw [hpath, Option.getD_some]

namespace Batch

theorem isSome_remotePath_of_describe {batch : OutgoingBatch} {descriptor : Descriptor}
    (h : batch.describe = .ok descriptor) : ∀ u ∈ batch.units, u.remotePath.isSome := by
  unfold describe at h
  cases hentries : batch.units.mapM OutgoingUnit.describe with
  | error failure =>
    rw [hentries] at h
    cases h
  | ok entries =>
    intro u hu
    obtain ⟨entry, hentry⟩ := exists_of_mapM_eq_ok hentries u hu
    unfold OutgoingUnit.describe at hentry
    cases hpath : u.remotePath with
    | none => simp [hpath] at hentry
    | some path => rfl

theorem exists_describe_iff (batch : OutgoingBatch) :
    (∃ descriptor, batch.describe = .ok descriptor) ↔ ∀ u ∈ batch.units, u.remotePath.isSome := by
  constructor
  · rintro ⟨descriptor, h⟩
    exact isSome_remotePath_of_describe h
  · intro h
    exact ⟨batch.descriptor, describe_eq_ok h⟩

theorem eq_descriptor_of_describe {batch : OutgoingBatch} {descriptor : Descriptor}
    (h : batch.describe = .ok descriptor) : descriptor = batch.descriptor := by
  rw [describe_eq_ok (isSome_remotePath_of_describe h)] at h
  exact (Except.ok.inj h).symm

/-- Units that are filed under the texts of ids stay in the order of their keys. -/
theorem map_text_of_ofDescriptor {descriptor : Descriptor} {sender receiver : String}
    {incoming : IncomingBatch} (h : ofDescriptor descriptor sender receiver = .ok incoming)
    (hkeys : ∀ key ∈ descriptor.units.keys, ∃ id : Uuid, key = id.text) :
    incoming.units.map (·.id.text) = descriptor.units.keys := by
  have htexts := congrArg (map (Option.map Uuid.text)) (ofDescriptor_units h).2.1
  rw [map_map, map_map] at htexts
  have hread : descriptor.units.keys.map (Option.map Uuid.text ∘ Uuid.parse?) =
      descriptor.units.keys.map some := by
    apply map_congr_left
    intro key hkey
    obtain ⟨id, rfl⟩ := hkeys key hkey
    simp
  apply map_injective_iff.2 (Option.some_injective String)
  rw [map_map, ← hread, htexts]
  rfl

theorem exists_text_of_mem_keys {batch : OutgoingBatch}
    (hnodup : (batch.units.map Transferable.id).Nodup) {key : String}
    (hkey : key ∈ batch.descriptor.units.keys) : ∃ id : Uuid, key = id.text := by
  obtain ⟨entry, hentry, rfl⟩ := mem_map.1 hkey
  obtain ⟨u, -, rfl⟩ := mem_map.1 ((perm_entries_descriptor hnodup).mem_iff.1 hentry)
  exact ⟨u.id, rfl⟩

/-- Just a batch of which every unit has a remote path is described, and then, between any parties
with names, its descriptor is read as a batch of the same id and token with one unit for each of
its own, in the order of the texts of their ids. A batch that is built has units and an id that is
not blank. -/
theorem relayed_of_describe {batch : OutgoingBatch}
    (hnodup : (batch.units.map Transferable.id).Nodup) (hunits : batch.units ≠ [])
    (hid : Text.isBlank batch.id = false) {sender receiver : String}
    (hsender : Text.isBlank sender = false) (hreceiver : Text.isBlank receiver = false) :
    ((∃ descriptor, batch.describe = .ok descriptor) ↔ ∀ u ∈ batch.units, u.remotePath.isSome) ∧
      ∀ descriptor, batch.describe = .ok descriptor →
        ∃ incoming, ofDescriptor descriptor sender receiver = .ok incoming ∧
          incoming.id = batch.id ∧ incoming.token = batch.token ∧
          incoming.units.length = batch.units.length ∧
          incoming.units.Pairwise (fun v w => v.id.text < w.id.text) ∧
          ∀ u ∈ batch.units, ∃ v ∈ incoming.units, u.RelayedAs v ∧
            ∀ w ∈ incoming.units, w.id = u.id → w = v := by
  refine ⟨exists_describe_iff batch, fun descriptor hdescriptor => ?_⟩
  have hpaths := isSome_remotePath_of_describe hdescriptor
  obtain rfl := eq_descriptor_of_describe hdescriptor
  obtain ⟨incoming, hincoming, hperm⟩ :=
    ofDescriptor_of_described hnodup hunits hid hsender hreceiver
  have htoken : incoming.token = batch.token := by
    obtain ⟨units, -, rfl⟩ := exists_units_of_ofDescriptor hincoming
    rfl
  have htexts := map_text_of_ofDescriptor hincoming fun key => exists_text_of_mem_keys hnodup
  have hordered : incoming.units.Pairwise fun v w => v.id.text < w.id.text := by
    have hkeys := batch.descriptor.units.pairwise_keys
    rw [← htexts, pairwise_map] at hkeys
    exact hkeys
  have hlength : incoming.units.length = batch.units.length := by
    rw [hperm.length_eq, length_map]
  refine ⟨incoming, hincoming, (ofDescriptor_units hincoming).1, htoken, hlength, hordered,
    fun u hu => ?_⟩
  have hmem : u.asAnnounced ∈ incoming.units := hperm.mem_iff.2 (mem_map_of_mem hu)
  refine ⟨u.asAnnounced, hmem, OutgoingUnit.relayedAs_asAnnounced (hpaths u hu), ?_⟩
  intro w hw hwid
  obtain ⟨u', hu', rfl⟩ := mem_map.1 (hperm.mem_iff.1 hw)
  rw [Phase.eq_of_id_eq hnodup hu' hu hwid]

/-- The receiver has the units of `twoPicked` in the order of their ids. -/
theorem relayed_of_describe_twoPicked :
    (twoPicked.units.map Transferable.id).Nodup ∧ twoPicked.units ≠ [] ∧
      Text.isBlank twoPicked.id = false ∧ Text.isBlank "us" = false ∧
      Text.isBlank "them" = false ∧ twoPicked.describe = .ok twoPicked.descriptor ∧
      ∃ incoming, ofDescriptor twoPicked.descriptor "us" "them" = .ok incoming ∧
        incoming.id = "b" ∧ incoming.token = some "" ∧ incoming.units.length = 2 ∧
        incoming.units.Pairwise (fun v w => v.id.text < w.id.text) ∧
        ∀ u ∈ twoPicked.units, ∃ v ∈ incoming.units, u.RelayedAs v ∧
          ∀ w ∈ incoming.units, w.id = u.id → w = v := by
  have hnodup : (twoPicked.units.map Transferable.id).Nodup := by decide +kernel
  have hunits : twoPicked.units ≠ [] := by simp [twoPicked]
  have hid : Text.isBlank twoPicked.id = false := by decide +kernel
  have hsender : Text.isBlank "us" = false := by decide +kernel
  have hreceiver : Text.isBlank "them" = false := by decide +kernel
  have hdescribe : twoPicked.describe = .ok twoPicked.descriptor := by decide +kernel
  exact ⟨hnodup, hunits, hid, hsender, hreceiver, hdescribe,
    (relayed_of_describe hnodup hunits hid hsender hreceiver).2 _ hdescribe⟩

/-! ## Picked files -/

/-- A batch of files that were picked by their paths, each with the type that its path tells. -/
structure Picked (batch : OutgoingBatch) : Prop where
  isBlank_id : Text.isBlank batch.id = false
  units_ne_nil : batch.units ≠ []
  unit_ids : (batch.units.map Transferable.id).Nodup
  contentType_eq : ∀ u ∈ batch.units, u.contentType = ContentType.guess u.source

theorem picked_of_build {draft : Draft OutgoingUnit} {id : String} {batch : OutgoingBatch}
    (h : draft.build id = .ok batch) (hnodup : (draft.units.map Transferable.id).Nodup)
    (hunits : ∀ u ∈ draft.units, ∃ id source, u = .ofPath id source) : batch.Picked := by
  obtain ⟨hne, hid⟩ := build_of_eq_ok h
  obtain rfl := eq_of_build h
  refine ⟨hid, hne, hnodup, fun u hu => ?_⟩
  obtain ⟨id, source, rfl⟩ := hunits u hu
  rfl

namespace Picked

variable {batch : OutgoingBatch}

/-- A phase keeps the ids of a batch and its units. -/
theorem of_allOrNothing {α W : Type} {required done : OutgoingState} {world : W}
    {results : List (Uuid × Except Failure α)} {refusal : Option Failure}
    {ended : Except Failure PhaseReport × OutgoingBatch × W} (h : batch.Picked)
    (hended : Phase.AllOrNothing required done batch world results refusal ended)
    (htypes : ∀ u ∈ ended.2.1.units, u.contentType = ContentType.guess u.source) :
    ended.2.1.Picked where
  isBlank_id := hended.id_eq ▸ h.isBlank_id
  units_ne_nil := units_ne_nil_of_allOrNothing hended h.units_ne_nil
  unit_ids := hended.unit_ids_eq ▸ h.unit_ids
  contentType_eq := htypes

theorem runLoad (h : batch.Picked) {settings : Settings} {disk : Disk}
    (hended : (Phase.runLoad settings batch disk).1 ≠ .error .panicked) :
    (Phase.runLoad settings batch disk).2.1.Picked := by
  have hbound := Phase.of_not_panicked_runLoad hended
  apply h.of_allOrNothing (Phase.allOrNothing_runLoad disk h.unit_ids hbound)
  by_cases hstate : ∀ u ∈ batch.units, u.state = .picked
  · have hlimit := hbound.resolve_right (by simpa)
    obtain ⟨units, hbatch, hunits⟩ := Phase.units_runLoad hlimit disk hstate h.unit_ids
    rw [hbatch]
    intro v hv
    obtain ⟨u, hu, ⟨size, rfl⟩ | ⟨content, -, rfl⟩⟩ := hunits v hv <;>
      exact h.contentType_eq u hu
  · push Not at hstate
    obtain ⟨u, -, hrun⟩ := Phase.runLoad_of_exists settings disk hstate
    rw [hrun]
    exact h.contentType_eq

theorem runStage {σ : Type} [Services σ] (h : batch.Picked) (hsound : batch.SoundOutgoing)
    {settings : Settings} {world : World σ}
    (hended : (Phase.runStage settings batch world).1 ≠ .error .panicked) :
    (Phase.runStage settings batch world).2.1.Picked := by
  apply h.of_allOrNothing (Phase.allOrNothing_runStage world h.unit_ids hsound.coherent
    (Phase.of_not_panicked_runStage hsound.coherent hended))
  have hpaths : ∀ u ∈ (Phase.withRemotePaths batch).units,
      u.contentType = ContentType.guess u.source := by
    refine forall_mem_map.2 fun u hu => ?_
    rw [Phase.ensureRemotePath_eq]
    exact h.contentType_eq u hu
  rcases hsound.runStage_cases hended with ⟨failure, hrun⟩ | ⟨-, hends⟩
  · rw [hrun]
    exact h.contentType_eq
  · clear hended
    generalize Phase.runStage settings batch world = ended at hends ⊢
    cases hends with
    | unitsFailed | publishFailed => exact hpaths
    | published => exact forall_mem_map.2 fun u hu => hpaths u hu

/-- The name of a picked file tells the type that was recorded for it. -/
theorem guess_name (h : batch.Picked) :
    ∀ u ∈ batch.units, ContentType.guess ⟨u.name⟩ = u.contentType := by
  intro u hu
  rw [u.guess_name, h.contentType_eq u hu]

end Picked

end Batch

/-! ## Both ways -/

/-- What a receiver fetches a unit by and keeps it as. -/
def IncomingUnit.facts (unit : IncomingUnit) : String × String × UInt64 :=
  (unit.remotePath, unit.contentType, unit.size)

theorem OutgoingUnit.SentAs.facts_eq {unit : OutgoingUnit} {received : IncomingUnit}
    (h : unit.SentAs received) :
    received.facts = (unit.remotePath.getD default, ContentType.guess unit.source, unit.size) := by
  unfold IncomingUnit.facts
  rw [h.remotePath_eq, h.size_eq, h.contentType_eq, unit.guess_name, Option.getD_some]

namespace Batch

/-- The receivers of a payload and of a descriptor learn the same of files that were picked by
their paths, but for the order. -/
theorem perm_of_both_ways {batch : OutgoingBatch} (hpicked : batch.Picked) {payload : Bytes}
    (hpayload : batch.encodeWire = .ok payload) {sender receiver : String}
    (hsender : Text.isBlank sender = false) (hreceiver : Text.isBlank receiver = false)
    (ids : IdSource) :
    (∀ u ∈ batch.units, ContentType.guess ⟨u.name⟩ = u.contentType) ∧
      ∃ descriptor sent relayed, batch.describe = .ok descriptor ∧
        (ofWire payload sender receiver ids).1 = .ok sent ∧
        ofDescriptor descriptor sender receiver = .ok relayed ∧
        sent.units.map IncomingUnit.facts ~ relayed.units.map IncomingUnit.facts := by
  have hpaths := isSome_remotePath_of_encodeWire hpayload
  obtain ⟨sent, hsent, hreceived⟩ :=
    exists_ofWire_of_encodeWire hpayload hpicked.units_ne_nil hsender hreceiver ids
  obtain ⟨relayed, hrelayed, hperm⟩ := ofDescriptor_of_described hpicked.unit_ids
    hpicked.units_ne_nil hpicked.isBlank_id hsender hreceiver
  -- What is written of a unit, by its source on the one way and by its type on the other.
  have hwritten : batch.units.map (fun u =>
        (u.remotePath.getD default, ContentType.guess u.source, u.size)) =
      batch.units.map (IncomingUnit.facts ∘ OutgoingUnit.asAnnounced) := by
    apply map_congr_left
    intro u hu
    rw [← hpicked.contentType_eq u hu]
    rfl
  have hsentFacts := map_eq_of_forall₂ hreceived fun u v h => h.facts_eq.symm
  have hrelayedFacts := hperm.map IncomingUnit.facts
  rw [map_map] at hrelayedFacts
  refine ⟨hpicked.guess_name, batch.descriptor, sent, relayed, describe_eq_ok hpaths, hsent,
    hrelayed, ?_⟩
  rw [← hsentFacts, hwritten]
  exact hrelayedFacts.symm

theorem picked_twoPicked : twoPicked.Picked where
  isBlank_id := by decide +kernel
  units_ne_nil := by simp [twoPicked]
  unit_ids := by decide +kernel
  contentType_eq := by decide +kernel

theorem perm_of_both_ways_twoPicked :
    let payload := twoPicked.encodeWire.toOption.getD []
    twoPicked.Picked ∧ twoPicked.encodeWire = .ok payload ∧ Text.isBlank "us" = false ∧
      Text.isBlank "them" = false ∧
      (∀ u ∈ twoPicked.units, ContentType.guess ⟨u.name⟩ = u.contentType) ∧
      ∃ descriptor sent relayed, twoPicked.describe = .ok descriptor ∧
        (ofWire payload "us" "them" .repdigits).1 = .ok sent ∧
        ofDescriptor descriptor "us" "them" = .ok relayed ∧
        sent.units.map IncomingUnit.facts ~ relayed.units.map IncomingUnit.facts := by
  intro payload
  have hpayload : twoPicked.encodeWire = .ok payload := by decide +kernel
  have hsender : Text.isBlank "us" = false := by decide +kernel
  have hreceiver : Text.isBlank "them" = false := by decide +kernel
  exact ⟨picked_twoPicked, hpayload, hsender, hreceiver,
    perm_of_both_ways picked_twoPicked hpayload hsender hreceiver .repdigits⟩

end Batch

end PeerTransfer
