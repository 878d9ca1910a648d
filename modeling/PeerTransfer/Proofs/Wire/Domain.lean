import PeerTransfer.Proofs.Wire.RoundTrip

/-!
# What can be written, and how long it becomes

A list of records has an announcement just if its count, its lengths and its sizes are within the
numbers of the format (`exists_announces_iff`). A writer asks in addition that no text holds a zero
byte. That is all it asks: just then it writes the list, into exactly as many bytes as were set
aside for it, and otherwise it reports that the list cannot be encoded
(`encode_eq_ok_iff_writable`).
-/

namespace PeerTransfer.Wire

/-- What the writer asks of a list of records. -/
structure Writable (records : List Record) : Prop where
  count_le : records.length ≤ 2 ^ 31 - 1
  zero_notMem : ∀ record ∈ records,
    (0 : UInt8) ∉ record.name.toUTF8.data ∧ (0 : UInt8) ∉ record.url.toUTF8.data
  text_le : ∀ record ∈ records,
    record.name.utf8ByteSize ≤ 2 ^ 31 - 2 ∧ record.url.utf8ByteSize ≤ 2 ^ 31 - 2
  size_le : ∀ record ∈ records, record.size.toNat ≤ 2 ^ 63 - 1

/-- The bytes that are set aside for a list of records before it is written. -/
def capacity (records : List Record) : Nat :=
  records.foldl (fun total record =>
    total + minRecordLength + record.name.utf8ByteSize + record.url.utf8ByteSize) countWidth

theorem capacity_eq (records : List Record) :
    capacity records = countWidth + (records.map Record.byteCount).sum := by
  unfold capacity
  generalize countWidth = start
  induction records generalizing start with
  | nil => rfl
  | cons record records ih =>
    rw [List.foldl_cons, ih, List.map_cons, List.sum_cons, Record.byteCount]
    omega

/-! ## What has a form in the grammar -/

theorem exists_isNumber_iff {width n : Nat} :
    (∃ bytes, IsNumber width n bytes) ↔ 2 * n < 256 ^ width := by
  simp only [isNumber_iff, exists_and_left, exists_eq, and_true]

theorem exists_isText_iff {text : String} :
    (∃ bytes, IsText text bytes) ↔ text.utf8ByteSize ≤ 2 ^ 31 - 2 := by
  simp only [isText_iff, exists_and_left, exists_eq, and_true, length_encode, countWidth]
  omega

theorem exists_isRecord_iff {record : Record} :
    (∃ bytes, IsRecord record bytes) ↔
      (record.name.utf8ByteSize ≤ 2 ^ 31 - 2 ∧ record.url.utf8ByteSize ≤ 2 ^ 31 - 2) ∧
        record.size.toNat ≤ 2 ^ 63 - 1 := by
  have hsize : (∃ bytes, IsNumber sizeWidth record.size.toNat bytes) ↔
      record.size.toNat ≤ 2 ^ 63 - 1 := by
    rw [exists_isNumber_iff, sizeWidth]
    omega
  rw [← exists_isText_iff, ← exists_isText_iff, ← hsize]
  constructor
  · rintro ⟨_, name, url, size, hname, hurl, hsize, -⟩
    exact ⟨⟨⟨name, hname⟩, url, hurl⟩, size, hsize⟩
  · rintro ⟨⟨⟨name, hname⟩, url, hurl⟩, size, hsize⟩
    exact ⟨_, name, url, size, hname, hurl, hsize, rfl⟩

theorem exists_areRecords_iff {records : List Record} :
    (∃ bytes, AreRecords records bytes) ↔ ∀ record ∈ records, ∃ bytes, IsRecord record bytes := by
  constructor
  · rintro ⟨bytes, h⟩
    induction h with
    | nil => exact List.forall_mem_nil _
    | cons hfirst _ ih => exact List.forall_mem_cons.mpr ⟨⟨_, hfirst⟩, ih⟩
  · intro h
    induction records with
    | nil => exact ⟨[], .nil⟩
    | cons record records ih =>
      obtain ⟨⟨first, hfirst⟩, hothers⟩ := List.forall_mem_cons.mp h
      obtain ⟨others, hothers⟩ := ih hothers
      exact ⟨first ++ others, .cons hfirst hothers⟩

theorem exists_announces_iff {records : List Record} :
    (∃ bytes, Announces records bytes) ↔
      records.length ≤ 2 ^ 31 - 1 ∧ ∀ record ∈ records, ∃ bytes, IsRecord record bytes := by
  have hcount : (∃ bytes, IsNumber countWidth records.length bytes) ↔
      records.length ≤ 2 ^ 31 - 1 := by
    rw [exists_isNumber_iff, countWidth]
    omega
  rw [← hcount, ← exists_areRecords_iff]
  constructor
  · rintro ⟨_, count, body, hcount, hbody, -⟩
    exact ⟨⟨count, hcount⟩, body, hbody⟩
  · rintro ⟨⟨count, hcount⟩, body, hbody⟩
    exact ⟨_, count, body, hcount, hbody, rfl⟩

/-! ## What is written -/

theorem zero_mem_toUTF8 {text : String} :
    (0 : UInt8) ∈ text.toUTF8.data ↔ '\x00' ∈ text.toList := by
  rw [← Text.Utf8.zero_mem_encode, toUTF8_eq, List.data_toByteArray, List.mem_toArray]

theorem exists_encode_iff {records : List Record} :
    (∃ bytes, encode records = .ok bytes) ↔ Writable records := by
  simp only [encode_eq_ok_iff, exists_and_right, exists_announces_iff, exists_isRecord_iff,
    Record.ZeroFree, ← zero_mem_toUTF8]
  constructor
  · rintro ⟨⟨hcount, hform⟩, hzero⟩
    exact ⟨hcount, hzero, fun record h => (hform record h).1, fun record h => (hform record h).2⟩
  · rintro ⟨hcount, hzero, htext, hsize⟩
    exact ⟨⟨hcount, fun record h => ⟨htext record h, hsize record h⟩⟩, hzero⟩

/-- A list of records is written just if its count, the bytes of its texts and its sizes allow, and
what is written has the length that was set aside. Otherwise it cannot be encoded. -/
theorem encode_eq_ok_iff_writable (records : List Record) :
    ((∃ bytes, encode records = .ok bytes) ↔ Writable records) ∧
      (¬Writable records → ∃ error, encode records = .error error ∧
        (Failure.unwritableWire error).kind = .encode) ∧
      ∀ bytes, encode records = .ok bytes →
        bytes.length = 4 + (records.map fun record =>
          18 + record.name.utf8ByteSize + record.url.utf8ByteSize).sum ∧
        capacity records = bytes.length := by
  refine ⟨exists_encode_iff, fun hnot => ?_, fun bytes h => ?_⟩
  · cases hencode : encode records with
    | ok bytes => exact absurd (exists_encode_iff.mp ⟨bytes, hencode⟩) hnot
    | error error => exact ⟨error, rfl, rfl⟩
  · have hlength := (encode_eq_ok_iff.mp h).1.length_eq
    exact ⟨hlength, (capacity_eq records).trans hlength.symm⟩

end PeerTransfer.Wire
