import Mathlib.Tactic
import PeerTransfer.Proofs.Wire.Accepted
import PeerTransfer.Wire.Writer

/-!
# The wire format reads back what it writes

A writer puts out exactly what the grammar has for its part, and refuses a text that holds a zero
character (`encodeText_eq_ok_iff`, `encodeRecord_eq_ok_iff`, `encodeRecords_eq_ok_iff`,
`encode_eq_ok_iff`). So what is written is an announcement, and the reader takes it
(`decode_of_encode`). A reader that goes about a text in another way takes it too, if it takes
what is written for a text (`run_readAllWith`).
-/

namespace PeerTransfer.Wire

/-! ## What a writer puts out -/

theorem encodeText_eq_ok_iff {text : String} {bytes : Bytes} :
    encodeText text = .ok bytes ↔ IsText text bytes ∧ '\x00' ∉ text.toList := by
  have hcount : maxCount < (Text.Utf8.encode text).length + 1 ↔
      ¬2 * ((Text.Utf8.encode text).length + 1) < 256 ^ countWidth := by
    unfold maxCount countWidth
    omega
  rw [isText_iff]
  unfold encodeText
  simp only
  split_ifs with hzero hlong
  · rw [List.contains_iff_mem] at hzero
    exact ⟨nofun, fun h => absurd hzero h.2⟩
  · exact ⟨nofun, fun h => absurd h.1.1 (hcount.mp hlong)⟩
  · rw [List.contains_iff_mem] at hzero
    rw [hcount, not_not] at hlong
    rw [Except.ok.injEq, List.append_assoc]
    exact ⟨fun h => ⟨⟨hlong, h.symm⟩, hzero⟩, fun h => h.1.2.symm⟩

theorem encodeSize_eq_ok_iff {size : UInt64} {bytes : Bytes} :
    encodeSize size = .ok bytes ↔ IsNumber sizeWidth size.toNat bytes := by
  have hrange : maxSize < size.toNat ↔ ¬2 * size.toNat < 256 ^ sizeWidth := by
    unfold maxSize sizeWidth
    omega
  rw [isNumber_iff]
  unfold encodeSize
  split_ifs with hlarge
  · exact ⟨nofun, fun h => absurd h.1 (hrange.mp hlarge)⟩
  · rw [hrange, not_not] at hlarge
    rw [Except.ok.injEq]
    exact ⟨fun h => ⟨hlarge, h.symm⟩, fun h => h.2.symm⟩

/-- No text of the record holds a zero character. -/
def Record.ZeroFree (record : Record) : Prop :=
  '\x00' ∉ record.name.toList ∧ '\x00' ∉ record.url.toList

instance (record : Record) : Decidable record.ZeroFree := inferInstanceAs (Decidable (_ ∧ _))

theorem encodeRecord_eq_ok_iff {record : Record} {bytes : Bytes} :
    encodeRecord record = .ok bytes ↔ IsRecord record bytes ∧ record.ZeroFree := by
  constructor
  · intro h
    unfold encodeRecord at h
    cases hname : encodeText record.name with
    | error e => rw [hname] at h; cases h
    | ok name =>
      cases hurl : encodeText record.url with
      | error e => rw [hname, hurl] at h; cases h
      | ok url =>
        cases hsize : encodeSize record.size with
        | error e => rw [hname, hurl, hsize] at h; cases h
        | ok size =>
          rw [hname, hurl, hsize] at h
          cases h
          rw [encodeText_eq_ok_iff] at hname hurl
          rw [encodeSize_eq_ok_iff] at hsize
          exact ⟨⟨name, url, size, hname.1, hurl.1, hsize, List.append_assoc _ _ _⟩, hname.2,
            hurl.2⟩
  · rintro ⟨⟨name, url, size, hname, hurl, hsize, rfl⟩, hfreeName, hfreeUrl⟩
    unfold encodeRecord
    rw [encodeText_eq_ok_iff.mpr ⟨hname, hfreeName⟩, encodeText_eq_ok_iff.mpr ⟨hurl, hfreeUrl⟩,
      encodeSize_eq_ok_iff.mpr hsize, ← List.append_assoc]
    rfl

theorem encodeRecords_eq_ok_iff {records : List Record} {bytes : Bytes} :
    encodeRecords records = .ok bytes ↔
      AreRecords records bytes ∧ ∀ record ∈ records, record.ZeroFree := by
  constructor
  · intro h
    induction records generalizing bytes with
    | nil =>
      cases h
      exact ⟨.nil, List.forall_mem_nil _⟩
    | cons record records ih =>
      unfold encodeRecords at h
      cases hfirst : encodeRecord record with
      | error e => rw [hfirst] at h; cases h
      | ok first =>
        cases hothers : encodeRecords records with
        | error e => rw [hfirst, hothers] at h; cases h
        | ok others =>
          rw [hfirst, hothers] at h
          cases h
          rw [encodeRecord_eq_ok_iff] at hfirst
          obtain ⟨hare, hfree⟩ := ih hothers
          exact ⟨.cons hfirst.1 hare, List.forall_mem_cons.mpr ⟨hfirst.2, hfree⟩⟩
  · rintro ⟨h, hfree⟩
    induction h with
    | nil => rfl
    | cons hfirst _ ih =>
      rw [List.forall_mem_cons] at hfree
      unfold encodeRecords
      rw [encodeRecord_eq_ok_iff.mpr ⟨hfirst, hfree.1⟩, ih hfree.2]
      rfl

/-- What is written for a list of records is the announcement of them, if no text of them holds a
zero character. -/
theorem encode_eq_ok_iff {records : List Record} {bytes : Bytes} :
    encode records = .ok bytes ↔
      Announces records bytes ∧ ∀ record ∈ records, record.ZeroFree := by
  have hcount : maxCount < records.length ↔ ¬2 * records.length < 256 ^ countWidth := by
    unfold maxCount countWidth
    omega
  constructor
  · intro h
    unfold encode at h
    split_ifs at h with hmany
    · cases h
    · rw [hcount, not_not] at hmany
      cases hbody : encodeRecords records with
      | error e => rw [hbody] at h; cases h
      | ok body =>
        rw [hbody] at h
        cases h
        obtain ⟨hare, hfree⟩ := encodeRecords_eq_ok_iff.mp hbody
        exact ⟨⟨_, body, isNumber_iff.mpr ⟨hmany, rfl⟩, hare, rfl⟩, hfree⟩
  · rintro ⟨⟨count, body, hnumber, hare, rfl⟩, hfree⟩
    obtain ⟨hfew, rfl⟩ := isNumber_iff.mp hnumber
    unfold encode
    rw [if_neg (mt hcount.mp (not_not.mpr hfew)), encodeRecords_eq_ok_iff.mpr ⟨hare, hfree⟩]
    rfl

/-! ## Whatever the reader of texts -/

/-- `text` takes exactly the bytes of a written text. -/
def ReadsTexts (text : Read String) : Prop :=
  ∀ {value : String} {bytes : Bytes}, encodeText value = .ok bytes →
    ∀ (rest : Bytes) (offset : Nat),
      text.run ⟨offset, bytes ++ rest⟩ = .ok (value, ⟨offset + bytes.length, rest⟩)

theorem ReadsTexts.takesTexts {text : Read String} (h : ReadsTexts text) :
    TakesTexts (fun value => '\x00' ∉ value.toList) text :=
  fun hvalue hzero rest offset => h (encodeText_eq_ok_iff.mpr ⟨hvalue, hzero⟩) rest offset

/-- Reading takes all that was written. -/
theorem run_readAllWith {text : Read String} (htext : ReadsTexts text) {records : List Record}
    {bytes : Bytes} (h : encode records = .ok bytes) :
    (readAllWith text).run ⟨0, bytes⟩ = .ok (records, ⟨bytes.length, []⟩) := by
  obtain ⟨hannounces, hfree⟩ := encode_eq_ok_iff.mp h
  exact run_readAllWith_of htext.takesTexts hannounces hfree

/-! ## The whole list -/

theorem readsTexts_readText : ReadsTexts readText :=
  fun h rest offset => run_readText (encodeText_eq_ok_iff.mp h).1 rest offset

theorem run_readAll {records : List Record} {bytes : Bytes} (h : encode records = .ok bytes) :
    readAll.run ⟨0, bytes⟩ = .ok (records, ⟨bytes.length, []⟩) := by
  rw [← readAllWith_readText]
  exact run_readAllWith readsTexts_readText h

/-- The records that were written are read back, in their order and with their names, addresses
and sizes, and nothing else is. -/
theorem decode_of_encode {records : List Record} {bytes : Bytes}
    (h : encode records = .ok bytes) : decode bytes = .ok records := by
  have hrun := run_readAll h
  unfold decode
  change Prod.fst <$> readAll.run ⟨0, bytes⟩ = .ok records
  rw [hrun]
  rfl

/-- A record of nothing but empty texts, and one with letters of two bytes and the greatest
size. -/
theorem decode_of_encode_two :
    encode [⟨"", "", 0⟩, ⟨"ф", "/r", 0x7fffffffffffffff⟩] =
        .ok [2, 0, 0, 0, 1, 0, 0, 0, 0, 1, 0, 0, 0, 0, 0, 0, 0, 0, 0, 0, 0, 0,
          3, 0, 0, 0, 0xd1, 0x84, 0, 3, 0, 0, 0, 0x2f, 0x72, 0,
          0xff, 0xff, 0xff, 0xff, 0xff, 0xff, 0xff, 0x7f] ∧
      decode [2, 0, 0, 0, 1, 0, 0, 0, 0, 1, 0, 0, 0, 0, 0, 0, 0, 0, 0, 0, 0, 0,
          3, 0, 0, 0, 0xd1, 0x84, 0, 3, 0, 0, 0, 0x2f, 0x72, 0,
          0xff, 0xff, 0xff, 0xff, 0xff, 0xff, 0xff, 0x7f] =
        .ok [⟨"", "", 0⟩, ⟨"ф", "/r", 0x7fffffffffffffff⟩] := by
  have h : encode [⟨"", "", 0⟩, ⟨"ф", "/r", 0x7fffffffffffffff⟩] =
      .ok [2, 0, 0, 0, 1, 0, 0, 0, 0, 1, 0, 0, 0, 0, 0, 0, 0, 0, 0, 0, 0, 0,
        3, 0, 0, 0, 0xd1, 0x84, 0, 3, 0, 0, 0, 0x2f, 0x72, 0,
        0xff, 0xff, 0xff, 0xff, 0xff, 0xff, 0xff, 0x7f] := by decide
  exact ⟨h, decode_of_encode h⟩

end PeerTransfer.Wire
