import PeerTransfer.Descriptor.Json
import PeerTransfer.Proofs.Catalog
import PeerTransfer.Proofs.Json.RoundTrip

/-!
# Descriptors that are read back

The text of a descriptor is read as that descriptor (`Descriptor.parse?_render`), and so is the text
that is written of a descriptor which was read from another one
(`Descriptor.render_round_trip`).
-/

namespace PeerTransfer

open List

namespace Json

/-! ## Objects of named members -/

/-- An object of members under proper texts. -/
def objectOf (members : List (String × Json)) : Json :=
  .object (members.map fun (name, value) => (unitsOf name, value))

theorem members?_objectOf (members : List (String × Json)) :
    (objectOf members).members? = some members := by
  unfold objectOf members?
  dsimp only
  rw [mapM_map]
  induction members with
  | nil => rfl
  | cons member members ih =>
    rw [mapM_cons, ih]
    simp

theorem readable_objectOf {members : List (String × Json)}
    (h : ∀ member ∈ members, Readable member.2) : Readable (objectOf members) := by
  apply readable_object
  intro member hmember
  obtain ⟨member, hmem, rfl⟩ := mem_map.1 hmember
  exact ⟨areCodePoints_unitsOf _, h member hmem⟩

@[simp] theorem asString?_ofString (value : String) : (ofString value).asString? = some value :=
  string?_unitsOf value

section Field

variable {members : List (String × Json)} {name name' : String}

theorem filter_name_eq_nil (h : name ∉ members.map Prod.fst) :
    members.filter (·.1 = name) = [] := by
  rw [filter_eq_nil_iff]
  intro member hmember
  simp only [decide_eq_true_eq]
  rintro rfl
  exact h (mem_map_of_mem hmember)

theorem field?_cons_self (h : name ∉ members.map Prod.fst) (value : Json) :
    field? ((name, value) :: members) name = some value := by
  unfold field?
  rw [filter_cons_of_pos (by simp), filter_name_eq_nil h]

theorem field?_cons_of_ne (h : name' ≠ name) (value : Json) :
    field? ((name', value) :: members) name = field? members name := by
  unfold field?
  rw [filter_cons_of_neg (by simpa using h)]

theorem optionalField?_of_not_mem (h : name ∉ members.map Prod.fst) :
    optionalField? members name = some none := by
  unfold optionalField?
  rw [filter_name_eq_nil h]

theorem optionalField?_cons_self (h : name ∉ members.map Prod.fst) (value : Json) :
    optionalField? ((name, value) :: members) name = some (some value) := by
  unfold optionalField?
  rw [filter_cons_of_pos (by simp), filter_name_eq_nil h]

theorem optionalField?_cons_of_ne (h : name' ≠ name) (value : Json) :
    optionalField? ((name', value) :: members) name = optionalField? members name := by
  unfold optionalField?
  rw [filter_cons_of_neg (by simpa using h)]

end Field

end Json

/-! ## Units -/

namespace UnitDescriptor

/-- The members by which a unit is written. -/
def fields (unit : UnitDescriptor) : List (String × Json) :=
  [("content_type", .ofString unit.contentType), ("remote_path", .ofString unit.remotePath),
    ("size_bytes", .ofNat unit.size.toNat)]

theorem toJson_eq (unit : UnitDescriptor) : unit.toJson = Json.objectOf unit.fields := rfl

theorem readable_toJson (unit : UnitDescriptor) : Json.Readable unit.toJson := by
  rw [toJson_eq]
  apply Json.readable_objectOf
  unfold fields
  rw [forall_mem_cons, forall_mem_cons, forall_mem_singleton]
  exact ⟨Json.readable_ofString _, Json.readable_ofString _, Json.readable_ofNat _⟩

theorem ofJson?_objectOf (members : List (String × Json)) :
    ofJson? (Json.objectOf members) = (do
      ofFields? (← Json.field? members "content_type") (← Json.field? members "remote_path")
        (← Json.field? members "size_bytes")) := by
  have hmembers := Json.members?_objectOf members
  unfold Json.objectOf at hmembers ⊢
  rw [ofJson?.eq_2, hmembers]
  rfl

theorem ofJson?_toJson (unit : UnitDescriptor) : ofJson? unit.toJson = some unit := by
  have hcontent : Json.field? unit.fields "content_type" = some (.ofString unit.contentType) :=
    Json.field?_cons_self (by simp) _
  have hremote : Json.field? unit.fields "remote_path" = some (.ofString unit.remotePath) := by
    unfold fields
    rw [Json.field?_cons_of_ne (by simp), Json.field?_cons_self (by simp)]
  have hsize : Json.field? unit.fields "size_bytes" = some (.ofNat unit.size.toNat) := by
    unfold fields
    rw [Json.field?_cons_of_ne (by simp), Json.field?_cons_of_ne (by simp),
      Json.field?_cons_self (by simp)]
  rw [toJson_eq, ofJson?_objectOf, hcontent, hremote, hsize]
  simp [ofFields?, Json.asUInt64?_ofNat]

end UnitDescriptor

/-! ## Descriptors -/

namespace Descriptor

/-- The members by which the units of a descriptor are written. -/
def unitFields (units : Catalog UnitDescriptor) : List (String × Json) :=
  units.entries.map fun (id, unit) => (id, unit.toJson)

/-- The members by which a descriptor is written. -/
def fields (descriptor : Descriptor) : List (String × Json) :=
  ("batch_id", .ofString descriptor.batchId) ::
    ((descriptor.token.map fun token => ("correlation_token", Json.ofString token)).toList ++
      [("units", Json.objectOf (unitFields descriptor.units))])

theorem toJson_eq (descriptor : Descriptor) :
    descriptor.toJson = Json.objectOf descriptor.fields := by
  unfold toJson fields unitFields Json.objectOf
  rw [map_map]
  cases descriptor.token with
  | none => rfl
  | some token => rfl

theorem readable_toJson (descriptor : Descriptor) : Json.Readable descriptor.toJson := by
  have hunits : Json.Readable (Json.objectOf (unitFields descriptor.units)) := by
    apply Json.readable_objectOf
    intro member hmember
    obtain ⟨⟨id, unit⟩, -, rfl⟩ := mem_map.1 hmember
    exact unit.readable_toJson
  rw [toJson_eq]
  apply Json.readable_objectOf
  unfold fields
  rw [forall_mem_cons, forall_mem_append, forall_mem_singleton]
  refine ⟨Json.readable_ofString _, ?_, hunits⟩
  intro member hmember
  rw [Option.mem_toList, Option.map_eq_some_iff] at hmember
  obtain ⟨token, -, rfl⟩ := hmember
  exact Json.readable_ofString token

theorem mapM_unitFields (entries : List (String × UnitDescriptor)) :
    (entries.map fun (id, unit) => (id, unit.toJson)).mapM (fun (id, unit) =>
      (UnitDescriptor.ofJson? unit).map (id, ·)) = some entries := by
  induction entries with
  | nil => rfl
  | cons entry entries ih =>
    rw [map_cons, mapM_cons, ih]
    simp [UnitDescriptor.ofJson?_toJson]

theorem unitsOfJson?_objectOf (units : Catalog UnitDescriptor) :
    unitsOfJson? (Json.objectOf (unitFields units)) = some units := by
  have hmapM := mapM_unitFields units.entries
  rw [← unitFields] at hmapM
  unfold unitsOfJson?
  rw [Json.members?_objectOf, Option.bind_eq_bind, Option.bind_some, hmapM, Option.bind_eq_bind,
    Option.bind_some, Catalog.ofList_entries]
  rfl

theorem ofJson?_objectOf (members : List (String × Json)) :
    ofJson? (Json.objectOf members) = (do
      let token ← Json.optionalField? members "correlation_token"
      ofFields? (← Json.field? members "batch_id") (token.getD .null)
        (← Json.field? members "units")) := by
  have hmembers := Json.members?_objectOf members
  unfold Json.objectOf at hmembers ⊢
  rw [ofJson?.eq_2, hmembers]
  rfl

theorem ofJson?_toJson (descriptor : Descriptor) :
    ofJson? descriptor.toJson = some descriptor := by
  obtain ⟨batchId, token, units⟩ := descriptor
  set fields := Descriptor.fields ⟨batchId, token, units⟩ with hfields
  have hbatch : Json.field? fields "batch_id" = some (.ofString batchId) := by
    apply Json.field?_cons_self
    cases token <;> simp
  have htoken : Json.optionalField? fields "correlation_token" =
      some (token.map Json.ofString) := by
    rw [hfields, Descriptor.fields, Json.optionalField?_cons_of_ne (by simp)]
    cases token with
    | none => exact Json.optionalField?_of_not_mem (by simp)
    | some token => exact Json.optionalField?_cons_self (by simp) _
  have hunits : Json.field? fields "units" = some (Json.objectOf (unitFields units)) := by
    rw [hfields, Descriptor.fields, Json.field?_cons_of_ne (by simp)]
    cases token with
    | none => exact Json.field?_cons_self (by simp) _
    | some token =>
      exact (Json.field?_cons_of_ne (by simp) _).trans (Json.field?_cons_self (by simp) _)
  have hread : ((token.map Json.ofString).getD .null).asOptionalString? = some token := by
    cases token with
    | none => rfl
    | some token =>
      change (Json.ofString token).asString?.map some = _
      rw [Json.asString?_ofString, Option.map_some]
  rw [toJson_eq, ofJson?_objectOf, htoken, hbatch, hunits]
  simp [ofFields?, hread, unitsOfJson?_objectOf]

/-- The text of a descriptor is read as that descriptor. -/
theorem parse?_render (descriptor : Descriptor) : parse? descriptor.render = some descriptor := by
  unfold parse? render
  rw [Json.parse?_render descriptor.readable_toJson, Option.bind_eq_bind, Option.bind_some]
  exact descriptor.ofJson?_toJson

/-- Every descriptor is written as the text of a JSON object and is read from that text, and
whatever is read as a descriptor is the same once it is written and read anew. -/
theorem render_round_trip (descriptor : Descriptor) (source : String) :
    Json.parse? descriptor.render = some descriptor.toJson ∧
      parse? descriptor.render = some descriptor ∧
      (parse? source).bind (fun read => parse? read.render) = parse? source := by
  refine ⟨Json.parse?_render descriptor.readable_toJson, descriptor.parse?_render, ?_⟩
  cases parse? source with
  | none => rfl
  | some read => rw [Option.bind_some, read.parse?_render]

/-- The members may stand in another order, with blanks between them and with other escapes. -/
example :
    (parse? "\x7b\"units\":\x7b\x7d, \"batch_id\":\"\\u0062\\/\"\x7d").map render =
      some "\x7b\"batch_id\":\"b/\",\"units\":\x7b\x7d\x7d" := by
  decide +kernel

end Descriptor

end PeerTransfer
