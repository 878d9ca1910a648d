import Mathlib.Tactic
import PeerTransfer.Proofs.Text.Utf8
import PeerTransfer.Wire.Record

/-!
# The grammar of the wire format

What bytes must be to announce a list of records, told without a reader and without a writer
(`Announces`): a number is its digits to the base 256, least significant first, and a text is the
UTF-8 form that the text itself has.

Every part fixes its bytes (`IsNumber.unique` and its like). Every part also shows where it ends:
two byte strings that begin with such a part each, and are equal as a whole, begin with the same
part (`IsNumber.lockstep` and its like). How long an announcement is follows from the lengths of
its texts (`Announces.length_eq`), and a record is never shorter than `minRecordLength`
(`AreRecords.le_length`).
-/

namespace PeerTransfer

namespace Bytes

theorem toNatLE_lt (bytes : Bytes) : toNatLE bytes < 256 ^ bytes.length := by
  induction bytes with
  | nil => simp [toNatLE]
  | cons b rest ih =>
    have hb := b.toNat_lt
    simp only [toNatLE, List.length_cons, Nat.pow_succ]
    omega

theorem toNatLE_ofNatLE {width n : Nat} (h : n < 256 ^ width) :
    toNatLE (ofNatLE width n) = n := by
  induction width generalizing n with
  | zero => simp [ofNatLE, toNatLE] at h ⊢; omega
  | succ width ih =>
    have hq : n / 256 < 256 ^ width := by
      rw [Nat.pow_succ] at h
      omega
    simp only [ofNatLE, toNatLE, ih hq, UInt8.toNat_ofNat']
    omega

theorem ofNatLE_toNatLE (bytes : Bytes) : ofNatLE bytes.length (toNatLE bytes) = bytes := by
  induction bytes with
  | nil => rfl
  | cons b rest ih =>
    have hb := b.toNat_lt
    have hquotient : (b.toNat + 256 * toNatLE rest) / 256 = toNatLE rest := by omega
    have hremainder : UInt8.ofNat (b.toNat + 256 * toNatLE rest) = b := by
      rw [← UInt8.toNat_inj, UInt8.toNat_ofNat']
      omega
    rw [List.length_cons, ofNatLE, toNatLE, hquotient, hremainder, ih]

theorem ofDigits_eq_toNatLE (bytes : Bytes) :
    Nat.ofDigits 256 (bytes.map UInt8.toNat) = toNatLE bytes := by
  induction bytes with
  | nil => rfl
  | cons b rest ih => rw [List.map_cons, Nat.ofDigits_cons, ih, toNatLE]

end Bytes

namespace Wire

/-! ## The parts -/

/-- The bytes are the number `n` in `width` bytes, least significant first, and the sign bit of
its two's complement form is off. -/
structure IsNumber (width n : Nat) (bytes : Bytes) : Prop where
  length_eq : bytes.length = width
  value : Nat.ofDigits 256 (bytes.map UInt8.toNat) = n
  signOff : 2 * n < 256 ^ width

/-- The bytes are a length, then the text in UTF-8, then a zero byte that the length counts. -/
def IsText (text : String) (bytes : Bytes) : Prop :=
  ∃ length content : Bytes, IsNumber countWidth (content.length + 1) length ∧
    content.toByteArray = text.toUTF8 ∧ bytes = length ++ (content ++ [0])

/-- The bytes are a name, an address and a size, in this order. -/
def IsRecord (record : Record) (bytes : Bytes) : Prop :=
  ∃ name url size : Bytes, IsText record.name name ∧ IsText record.url url ∧
    IsNumber sizeWidth record.size.toNat size ∧ bytes = name ++ (url ++ size)

/-- The bytes are the records one after another. -/
inductive AreRecords : List Record → Bytes → Prop
  | nil : AreRecords [] []
  | cons {record : Record} {records : List Record} {first others : Bytes} :
      IsRecord record first → AreRecords records others →
        AreRecords (record :: records) (first ++ others)

/-- The bytes are a count, then as many records, and nothing else. -/
def Announces (records : List Record) (bytes : Bytes) : Prop :=
  ∃ count body : Bytes, IsNumber countWidth records.length count ∧ AreRecords records body ∧
    bytes = count ++ body

/-! ## In closed form -/

theorem isNumber_iff {width n : Nat} {bytes : Bytes} :
    IsNumber width n bytes ↔ 2 * n < 256 ^ width ∧ bytes = Bytes.ofNatLE width n := by
  constructor
  · rintro ⟨rfl, rfl, hsign⟩
    rw [Bytes.ofDigits_eq_toNatLE, Bytes.ofNatLE_toNatLE, ← Bytes.ofDigits_eq_toNatLE]
    exact ⟨hsign, rfl⟩
  · rintro ⟨hsign, rfl⟩
    refine ⟨Bytes.length_ofNatLE width n, ?_, hsign⟩
    rw [Bytes.ofDigits_eq_toNatLE, Bytes.toNatLE_ofNatLE (by omega)]

theorem toUTF8_eq (text : String) : text.toUTF8 = (Text.Utf8.encode text).toByteArray :=
  String.utf8Encode_toList.symm

theorem toByteArray_inj {bytes bytes' : Bytes} :
    bytes.toByteArray = bytes'.toByteArray ↔ bytes = bytes' := by
  constructor
  · intro h
    have hdata := congrArg ByteArray.data h
    rw [List.data_toByteArray, List.data_toByteArray] at hdata
    exact congrArg Array.toList hdata
  · rintro rfl
    rfl

theorem isText_iff {text : String} {bytes : Bytes} :
    IsText text bytes ↔ 2 * ((Text.Utf8.encode text).length + 1) < 256 ^ countWidth ∧
      bytes = Bytes.ofNatLE countWidth ((Text.Utf8.encode text).length + 1) ++
        (Text.Utf8.encode text ++ [0]) := by
  constructor
  · rintro ⟨length, content, hlength, hcontent, rfl⟩
    rw [toUTF8_eq, toByteArray_inj] at hcontent
    obtain ⟨hshort, rfl⟩ := isNumber_iff.mp hlength
    subst hcontent
    exact ⟨hshort, rfl⟩
  · rintro ⟨hshort, rfl⟩
    exact ⟨_, _, isNumber_iff.mpr ⟨hshort, rfl⟩, (toUTF8_eq text).symm, rfl⟩

/-! ## Each part fixes its bytes -/

section

variable {width n : Nat} {text : String} {record : Record} {records : List Record}
  {bytes bytes' : Bytes}

theorem IsNumber.unique (h : IsNumber width n bytes) (h' : IsNumber width n bytes') :
    bytes = bytes' :=
  (isNumber_iff.mp h).2.trans (isNumber_iff.mp h').2.symm

theorem IsText.unique (h : IsText text bytes) (h' : IsText text bytes') : bytes = bytes' :=
  (isText_iff.mp h).2.trans (isText_iff.mp h').2.symm

theorem IsRecord.unique (h : IsRecord record bytes) (h' : IsRecord record bytes') :
    bytes = bytes' := by
  obtain ⟨name, url, size, hname, hurl, hsize, rfl⟩ := h
  obtain ⟨name', url', size', hname', hurl', hsize', rfl⟩ := h'
  rw [hname.unique hname', hurl.unique hurl', hsize.unique hsize']

theorem AreRecords.unique (h : AreRecords records bytes) (h' : AreRecords records bytes') :
    bytes = bytes' := by
  induction h generalizing bytes' with
  | nil =>
    cases h'
    rfl
  | cons hfirst _ ih =>
    cases h' with
    | cons hfirst' hothers' => rw [hfirst.unique hfirst', ih hothers']

theorem Announces.unique (h : Announces records bytes) (h' : Announces records bytes') :
    bytes = bytes' := by
  obtain ⟨count, body, hcount, hbody, rfl⟩ := h
  obtain ⟨count', body', hcount', hbody', rfl⟩ := h'
  rw [hcount.unique hcount', hbody.unique hbody']

end

/-! ## Each part shows where it ends -/

section

variable {p p' rest rest' : Bytes}

theorem IsNumber.lockstep {width n n' : Nat} (h : IsNumber width n p)
    (h' : IsNumber width n' p') (heq : p ++ rest = p' ++ rest') : n = n' ∧ rest = rest' := by
  obtain ⟨rfl, hrest⟩ := List.append_inj heq (h.length_eq.trans h'.length_eq.symm)
  exact ⟨h.value.symm.trans h'.value, hrest⟩

theorem IsText.lockstep {text text' : String} (h : IsText text p) (h' : IsText text' p')
    (heq : p ++ rest = p' ++ rest') : text = text' ∧ rest = rest' := by
  obtain ⟨length, content, hlength, hcontent, rfl⟩ := h
  obtain ⟨length', content', hlength', hcontent', rfl⟩ := h'
  simp only [List.append_assoc] at heq
  -- The lengths are equal, so the contents take the same number of bytes.
  obtain ⟨hequal, heq⟩ := hlength.lockstep hlength' heq
  obtain ⟨rfl, heq⟩ := List.append_inj heq (Nat.succ.inj hequal)
  have hrest := List.append_cancel_left (List.append_cancel_left heq)
  exact ⟨String.toByteArray_inj.mp (hcontent.symm.trans hcontent'), hrest⟩

theorem IsRecord.lockstep {record record' : Record} (h : IsRecord record p)
    (h' : IsRecord record' p') (heq : p ++ rest = p' ++ rest') :
    record = record' ∧ rest = rest' := by
  obtain ⟨name, url, size, hname, hurl, hsize, rfl⟩ := h
  obtain ⟨name', url', size', hname', hurl', hsize', rfl⟩ := h'
  simp only [List.append_assoc] at heq
  obtain ⟨hnames, heq⟩ := hname.lockstep hname' heq
  obtain ⟨hurls, heq⟩ := hurl.lockstep hurl' heq
  obtain ⟨hsizes, hrest⟩ := hsize.lockstep hsize' heq
  cases record
  cases record'
  obtain rfl := UInt64.toNat_inj.mp hsizes
  obtain rfl := hnames
  obtain rfl := hurls
  exact ⟨rfl, hrest⟩

theorem AreRecords.lockstep {records records' : List Record} (h : AreRecords records p)
    (h' : AreRecords records' p') (hlength : records.length = records'.length)
    (heq : p ++ rest = p' ++ rest') : records = records' ∧ rest = rest' := by
  induction h generalizing records' p' with
  | nil =>
    obtain rfl := List.length_eq_zero_iff.mp hlength.symm
    cases h'
    exact ⟨rfl, heq⟩
  | cons hfirst _ ih =>
    cases h' with
    | nil => cases hlength
    | cons hfirst' hothers' =>
      rw [List.append_assoc, List.append_assoc] at heq
      obtain ⟨rfl, heq⟩ := hfirst.lockstep hfirst' heq
      obtain ⟨rfl, hrest⟩ := ih hothers' (Nat.succ.inj hlength) heq
      exact ⟨rfl, hrest⟩

/-- Two announcements, read side by side, agree in the count, in every length and in every size,
and end at the same byte. -/
theorem Announces.lockstep {records records' : List Record} (h : Announces records p)
    (h' : Announces records' p') (heq : p ++ rest = p' ++ rest') :
    records = records' ∧ rest = rest' := by
  obtain ⟨count, body, hcount, hbody, rfl⟩ := h
  obtain ⟨count', body', hcount', hbody', rfl⟩ := h'
  rw [List.append_assoc, List.append_assoc] at heq
  obtain ⟨hlength, heq⟩ := hcount.lockstep hcount' heq
  exact hbody.lockstep hbody' hlength heq

/-- No announcement begins another one. -/
theorem Announces.eq_of_prefix {records records' : List Record} (h : Announces records p)
    (h' : Announces records' p') (hpre : p <+: p') : p = p' := by
  obtain ⟨rest, rfl⟩ := hpre
  obtain ⟨-, rfl⟩ := h.lockstep h' (List.append_nil _).symm
  exact (List.append_nil p).symm

end

/-! ## How long they are -/

/-- The bytes of a record: its two texts, and what is written around them. -/
def Record.byteCount (record : Record) : Nat :=
  minRecordLength + record.name.utf8ByteSize + record.url.utf8ByteSize

theorem length_encode (text : String) :
    (Text.Utf8.encode text).length = text.utf8ByteSize := by
  rw [← List.size_toByteArray, ← toUTF8_eq]
  rfl

theorem IsText.length_eq {text : String} {bytes : Bytes} (h : IsText text bytes) :
    bytes.length = countWidth + 1 + text.utf8ByteSize := by
  rw [(isText_iff.mp h).2, List.length_append, List.length_append, Bytes.length_ofNatLE,
    List.length_singleton, length_encode]
  omega

theorem IsRecord.length_eq {record : Record} {bytes : Bytes} (h : IsRecord record bytes) :
    bytes.length = record.byteCount := by
  obtain ⟨name, url, size, hname, hurl, hsize, rfl⟩ := h
  rw [List.length_append, List.length_append, hname.length_eq, hurl.length_eq, hsize.length_eq]
  unfold Record.byteCount minRecordLength
  omega

theorem AreRecords.length_eq {records : List Record} {bytes : Bytes}
    (h : AreRecords records bytes) : bytes.length = (records.map Record.byteCount).sum := by
  induction h with
  | nil => rfl
  | cons hfirst _ ih =>
    rw [List.length_append, hfirst.length_eq, ih, List.map_cons, List.sum_cons]

theorem Announces.length_eq {records : List Record} {bytes : Bytes}
    (h : Announces records bytes) :
    bytes.length = countWidth + (records.map Record.byteCount).sum := by
  obtain ⟨count, body, hcount, hbody, rfl⟩ := h
  rw [List.length_append, hcount.length_eq, hbody.length_eq]

theorem AreRecords.le_length {records : List Record} {bytes : Bytes}
    (h : AreRecords records bytes) : minRecordLength * records.length ≤ bytes.length := by
  have hleast : ∀ count ∈ records.map Record.byteCount, minRecordLength ≤ count := by
    simp only [List.forall_mem_map, Record.byteCount]
    intro record _
    omega
  have hsum := List.card_nsmul_le_sum (records.map Record.byteCount) minRecordLength hleast
  rw [h.length_eq, Nat.mul_comm]
  simpa using hsum

end Wire

end PeerTransfer
