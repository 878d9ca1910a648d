import Mathlib.Tactic
import PeerTransfer.Failure
import PeerTransfer.Proofs.Wire.Grammar
import PeerTransfer.Wire.Reader

/-!
# What the reader accepts

Every reader takes exactly the bytes of its part, whatever bytes follow (`run_readInt`,
`run_readText`, `run_readRecordWith_of`, `run_readRecordsWith_of`), and has nothing else in front
of it when it succeeds (`readInt_eq_ok`, `readText_eq_ok`, `readRecord_eq_ok`,
`readRecords_eq_ok`). The count is checked against the bytes that are left before any record is
read; a record is never shorter than that check assumes (`AreRecords.le_length`), so it refuses no
announcement. So a byte string is read just if it is an announcement (`decode_eq_ok_iff`).

A peer may go about a text in another way. The readers of records and lists are therefore taken
with any reader of texts that takes the texts it is given (`TakesTexts`); with `readText` they are
the readers of this side (`readAllWith_readText`).
-/

namespace PeerTransfer

namespace Bytes

theorem toIntLE_ofNatLE {width n : Nat} (h : 2 * n < 256 ^ width) :
    toIntLE (ofNatLE width n) = n := by
  unfold toIntLE
  rw [toNatLE_ofNatLE (by omega), length_ofNatLE, Nat.pow_eq]
  exact Int.bmod_eq_of_le_mul_two (by omega) (by omega)

/-- A number that is not negative is read by its bytes alone: the sign bit is off. -/
theorem toIntLE_eq_of_nonneg {bytes : Bytes} (h : 0 ≤ toIntLE bytes) :
    toIntLE bytes = toNatLE bytes ∧ 2 * toNatLE bytes < 256 ^ bytes.length := by
  have hlt := toNatLE_lt bytes
  unfold toIntLE at h ⊢
  rw [Nat.pow_eq] at h ⊢
  set m := 256 ^ bytes.length
  set n := toNatLE bytes
  rw [Int.bmod_def] at h ⊢
  rw [Int.emod_eq_of_lt (by omega) (by omega)] at h ⊢
  split_ifs at h ⊢ with hsmall
  · omega
  · omega

end Bytes

namespace Wire

/-! ## Running a reader -/

section

variable {α β : Type}

theorem run_bind_of_ok {first : Read α} {next : α → Read β} {reader reader' : Reader}
    {a : α} (h : first.run reader = .ok (a, reader')) :
    (first >>= next).run reader = (next a).run reader' := by
  rw [StateT.run_bind, h]
  rfl

theorem run_bind_eq_ok {first : Read α} {next : α → Read β} {reader reader'' : Reader}
    {b : β} (h : (first >>= next).run reader = .ok (b, reader'')) :
    ∃ a reader', first.run reader = .ok (a, reader') ∧
      (next a).run reader' = .ok (b, reader'') := by
  rw [StateT.run_bind] at h
  cases hfirst : first.run reader with
  | error e =>
    rw [hfirst] at h
    cases h
  | ok result =>
    rw [hfirst] at h
    exact ⟨result.1, result.2, rfl, h⟩

theorem run_pure_eq_ok {a b : α} {reader reader' : Reader}
    (h : (pure a : Read α).run reader = .ok (b, reader')) : b = a ∧ reader' = reader := by
  cases h
  exact ⟨rfl, rfl⟩

theorem run'_eq_ok {read : Read α} {reader : Reader} {a : α}
    (h : read.run' reader = .ok a) : ∃ reader', read.run reader = .ok (a, reader') := by
  change Prod.fst <$> read.run reader = .ok a at h
  cases hrun : read.run reader with
  | error e =>
    rw [hrun] at h
    cases h
  | ok result =>
    rw [hrun] at h
    cases h
    exact ⟨result.2, rfl⟩

theorem run_get (reader : Reader) : (get : Read Reader).run reader = .ok (reader, reader) := rfl

theorem run_take (bytes rest : Bytes) (offset : Nat) :
    (take bytes.length).run ⟨offset, bytes ++ rest⟩ =
      .ok (bytes, ⟨offset + bytes.length, rest⟩) := by
  have henough : ¬(bytes ++ rest).length < bytes.length := by
    rw [List.length_append]
    omega
  unfold take
  rw [run_bind_of_ok (run_get _)]
  dsimp only
  rw [if_neg henough, List.drop_left, List.take_left]
  rfl

theorem take_eq_ok {count : Nat} {reader reader' : Reader} {bytes : Bytes}
    (h : (take count).run reader = .ok (bytes, reader')) :
    bytes.length = count ∧ reader.rest = bytes ++ reader'.rest := by
  unfold take at h
  rw [run_bind_of_ok (run_get _)] at h
  split_ifs at h with hshort
  · cases h
  · cases h
    exact ⟨List.length_take_of_le (by omega), (List.take_append_drop _ _).symm⟩

end

/-! ## Numbers and texts -/

theorem run_readInt {width n : Nat} {bytes : Bytes} (h : IsNumber width n bytes) (rest : Bytes)
    (offset : Nat) :
    (readInt width).run ⟨offset, bytes ++ rest⟩ =
      .ok ((n : Int), ⟨offset + bytes.length, rest⟩) := by
  obtain ⟨hsmall, rfl⟩ := isNumber_iff.mp h
  have htake := run_take (Bytes.ofNatLE width n) rest offset
  rw [Bytes.length_ofNatLE] at htake ⊢
  unfold readInt
  rw [run_bind_of_ok htake, Bytes.toIntLE_ofNatLE hsmall]
  rfl

theorem readInt_eq_ok {width : Nat} {reader reader' : Reader} {n : Int} (hn : 0 ≤ n)
    (h : (readInt width).run reader = .ok (n, reader')) :
    ∃ bytes, IsNumber width n.toNat bytes ∧ reader.rest = bytes ++ reader'.rest := by
  unfold readInt at h
  obtain ⟨bytes, _, htake, hpure⟩ := run_bind_eq_ok h
  obtain ⟨rfl, rfl⟩ := run_pure_eq_ok hpure
  obtain ⟨rfl, hrest⟩ := take_eq_ok htake
  obtain ⟨hvalue, hsmall⟩ := Bytes.toIntLE_eq_of_nonneg hn
  refine ⟨bytes, isNumber_iff.mpr ?_, hrest⟩
  rw [hvalue, Int.toNat_natCast, Bytes.ofNatLE_toNatLE]
  exact ⟨hsmall, rfl⟩

theorem run_readText {text : String} {bytes : Bytes} (h : IsText text bytes)
    (rest : Bytes) (offset : Nat) :
    readText.run ⟨offset, bytes ++ rest⟩ = .ok (text, ⟨offset + bytes.length, rest⟩) := by
  obtain ⟨hshort, rfl⟩ := isText_iff.mp h
  set content := Text.Utf8.encode text with hcontent
  have hlength := run_readInt (isNumber_iff.mpr ⟨hshort, rfl⟩) (content ++ [0] ++ rest) offset
  have htake := run_take (content ++ [0]) rest
    (offset + (Bytes.ofNatLE countWidth (content.length + 1)).length)
  have hpos : ¬(((content.length + 1 : Nat) : Int) ≤ 0) := by omega
  rw [List.length_append, List.length_singleton] at htake
  unfold readText
  rw [List.append_assoc, run_bind_of_ok hlength]
  simp only [hpos, if_false, Int.toNat_natCast]
  rw [run_bind_of_ok (run_get _), run_bind_of_ok htake, Nat.add_assoc offset, List.length_append,
    List.length_append, List.length_singleton]
  simp only [List.getLast?_concat, ne_eq, not_true_eq_false, if_false, List.dropLast_concat,
    hcontent, Text.Utf8.decode_encode]
  rfl

theorem readText_eq_ok {reader reader' : Reader} {text : String}
    (h : readText.run reader = .ok (text, reader')) :
    ∃ bytes, IsText text bytes ∧ reader.rest = bytes ++ reader'.rest := by
  unfold readText at h
  obtain ⟨length, reader₁, hlength, h⟩ := run_bind_eq_ok h
  split_ifs at h with hpos
  · cases h
  rw [run_bind_of_ok (run_get _)] at h
  obtain ⟨bytes, reader₂, htake, h⟩ := run_bind_eq_ok h
  split_ifs at h with hlast
  · cases h
  cases hdecode : Text.Utf8.decode bytes.dropLast with
  | error refusal =>
    rw [hdecode] at h
    cases h
  | ok read =>
    rw [hdecode] at h
    obtain ⟨rfl, rfl⟩ := run_pure_eq_ok h
    have hpositive : 0 < length := by omega
    obtain ⟨width, hwidth, hrest⟩ := readInt_eq_ok hpositive.le hlength
    obtain ⟨hcount, hrest₁⟩ := take_eq_ok htake
    have hbytes : bytes = Text.Utf8.encode text ++ [0] := by
      rw [Text.Utf8.encode_of_decode hdecode]
      exact (List.dropLast_append_getLast? 0 (not_not.mp hlast)).symm
    rw [hbytes, List.length_append, List.length_singleton] at hcount
    rw [← hcount] at hwidth
    refine ⟨width ++ (Text.Utf8.encode text ++ [0]), isText_iff.mpr ?_, ?_⟩
    · obtain ⟨hshort, rfl⟩ := isNumber_iff.mp hwidth
      exact ⟨hshort, rfl⟩
    · rw [hrest, hrest₁, hbytes, List.append_assoc width]

/-! ## Records and lists, whatever the reader of texts -/

/-- Reads one record, its texts by `text`. -/
def readRecordWith (text : Read String) : Read Record := do
  let name ← text
  let url ← text
  let size ← readInt sizeWidth
  if size < 0 then throw (.negativeSize size)
  return ⟨name, url, UInt64.ofNat size.toNat⟩

/-- Reads `count` records, their texts by `text`. -/
def readRecordsWith (text : Read String) : Nat → Read (List Record)
  | 0 => return []
  | count + 1 => do
    let record ← readRecordWith text
    let others ← readRecordsWith text count
    return record :: others

/-- Reads a count and as many records, their texts by `text`. -/
def readAllWith (text : Read String) : Read (List Record) := do
  let count ← readInt countWidth
  if count < 0 then throw (.negativeCount count)
  let left := (← get).rest.length
  if left / minRecordLength < count.toNat then throw (.countTooGreat count.toNat left)
  let records ← readRecordsWith text count.toNat
  let left := (← get).rest.length
  if left ≠ 0 then throw (.bytesLeft left)
  return records

theorem readRecordsWith_readText (count : Nat) :
    readRecordsWith readText count = readRecords count := by
  induction count with
  | zero => rfl
  | succ count ih =>
    rw [readRecordsWith, readRecords, ih]
    rfl

theorem readAllWith_readText : readAllWith readText = readAll := by
  unfold readAllWith readAll
  simp only [readRecordsWith_readText]

/-- `text` takes exactly the bytes of every text with `P`. -/
def TakesTexts (P : String → Prop) (text : Read String) : Prop :=
  ∀ {value : String} {bytes : Bytes}, IsText value bytes → P value →
    ∀ (rest : Bytes) (offset : Nat),
      text.run ⟨offset, bytes ++ rest⟩ = .ok (value, ⟨offset + bytes.length, rest⟩)

section

variable {P : String → Prop} {text : Read String} (htext : TakesTexts P text)
include htext

theorem run_readRecordWith_of {record : Record} {bytes : Bytes} (h : IsRecord record bytes)
    (hrecord : P record.name ∧ P record.url) (rest : Bytes) (offset : Nat) :
    (readRecordWith text).run ⟨offset, bytes ++ rest⟩ =
      .ok (record, ⟨offset + bytes.length, rest⟩) := by
  obtain ⟨name, url, size, hname, hurl, hsize, rfl⟩ := h
  unfold readRecordWith
  rw [List.append_assoc, List.append_assoc, run_bind_of_ok (htext hname hrecord.1 _ _),
    run_bind_of_ok (htext hurl hrecord.2 _ _), run_bind_of_ok (run_readInt hsize _ _)]
  have hnat : ¬((record.size.toNat : Int) < 0) := by omega
  simp only [hnat, if_false, Int.toNat_natCast, List.length_append, UInt64.ofNat_toNat,
    ← Nat.add_assoc]
  rfl

/-- Records are read in their order, up to the bytes after them. -/
theorem run_readRecordsWith_of {records : List Record} {bytes : Bytes}
    (h : AreRecords records bytes) (hrecords : ∀ record ∈ records, P record.name ∧ P record.url)
    (rest : Bytes) (offset : Nat) :
    (readRecordsWith text records.length).run ⟨offset, bytes ++ rest⟩ =
      .ok (records, ⟨offset + bytes.length, rest⟩) := by
  induction h generalizing offset with
  | nil => rfl
  | cons hfirst _ ih =>
    rw [List.forall_mem_cons] at hrecords
    rw [List.length_cons, readRecordsWith, List.append_assoc,
      run_bind_of_ok (run_readRecordWith_of htext hfirst hrecords.1 _ _),
      run_bind_of_ok (ih hrecords.2 _), List.length_append, Nat.add_assoc]
    rfl

/-- Reading takes the whole announcement. -/
theorem run_readAllWith_of {records : List Record} {bytes : Bytes} (h : Announces records bytes)
    (hrecords : ∀ record ∈ records, P record.name ∧ P record.url) :
    (readAllWith text).run ⟨0, bytes⟩ = .ok (records, ⟨bytes.length, []⟩) := by
  obtain ⟨count, body, hcount, hbody, rfl⟩ := h
  have hread := run_readRecordsWith_of htext hbody hrecords [] (0 + count.length)
  rw [List.append_nil] at hread
  -- The early check of the count passes: every record takes its least length.
  have hfits : ¬body.length / minRecordLength < records.length := by
    have hleast := hbody.le_length
    rw [Nat.not_lt, Nat.le_div_iff_mul_le (by decide), Nat.mul_comm]
    exact hleast
  have hnat : ¬((records.length : Int) < 0) := by omega
  unfold readAllWith
  rw [run_bind_of_ok (run_readInt hcount _ _)]
  simp only [hnat, if_false, Int.toNat_natCast]
  rw [run_bind_of_ok (run_get _)]
  simp only [hfits, if_false]
  rw [run_bind_of_ok hread, run_bind_of_ok (run_get _), List.length_append, Nat.zero_add]
  rfl

end

/-! ## What was read -/

theorem readRecord_eq_ok {reader reader' : Reader} {record : Record}
    (h : readRecord.run reader = .ok (record, reader')) :
    ∃ bytes, IsRecord record bytes ∧ reader.rest = bytes ++ reader'.rest := by
  unfold readRecord at h
  obtain ⟨name, reader₁, hname, h⟩ := run_bind_eq_ok h
  obtain ⟨url, reader₂, hurl, h⟩ := run_bind_eq_ok h
  obtain ⟨size, reader₃, hsize, h⟩ := run_bind_eq_ok h
  split_ifs at h with hnegative
  · cases h
  obtain ⟨rfl, rfl⟩ := run_pure_eq_ok h
  obtain ⟨nameBytes, hnameBytes, hrest⟩ := readText_eq_ok hname
  obtain ⟨urlBytes, hurlBytes, hrest₁⟩ := readText_eq_ok hurl
  obtain ⟨sizeBytes, hsizeBytes, hrest₂⟩ := readInt_eq_ok (not_lt.mp hnegative) hsize
  have hnat : (UInt64.ofNat size.toNat).toNat = size.toNat := by
    have hsmall := hsizeBytes.signOff
    rw [UInt64.toNat_ofNat']
    unfold sizeWidth at hsmall
    exact Nat.mod_eq_of_lt (by omega)
  rw [← hnat] at hsizeBytes
  refine ⟨_, ⟨nameBytes, urlBytes, sizeBytes, hnameBytes, hurlBytes, hsizeBytes, rfl⟩, ?_⟩
  rw [hrest, hrest₁, hrest₂, List.append_assoc, List.append_assoc]

theorem readRecords_eq_ok {count : Nat} {reader reader' : Reader} {records : List Record}
    (h : (readRecords count).run reader = .ok (records, reader')) :
    records.length = count ∧
      ∃ bytes, AreRecords records bytes ∧ reader.rest = bytes ++ reader'.rest := by
  induction count generalizing reader records with
  | zero =>
    obtain ⟨rfl, rfl⟩ := run_pure_eq_ok h
    exact ⟨rfl, [], .nil, rfl⟩
  | succ count ih =>
    unfold readRecords at h
    obtain ⟨record, reader₁, hrecord, h⟩ := run_bind_eq_ok h
    obtain ⟨others, reader₂, hothers, h⟩ := run_bind_eq_ok h
    obtain ⟨rfl, rfl⟩ := run_pure_eq_ok h
    obtain ⟨first, hfirst, hrest⟩ := readRecord_eq_ok hrecord
    obtain ⟨hlength, bytes, hbytes, hrest₁⟩ := ih hothers
    refine ⟨by rw [List.length_cons, hlength], first ++ bytes, .cons hfirst hbytes, ?_⟩
    rw [hrest, hrest₁, List.append_assoc]

/-- What is read to its end is an announcement. -/
theorem announces_of_readAll {reader reader' : Reader} {records : List Record}
    (h : readAll.run reader = .ok (records, reader')) : Announces records reader.rest := by
  unfold readAll at h
  obtain ⟨count, reader₁, hcount, h⟩ := run_bind_eq_ok h
  split_ifs at h with hnegative
  · cases h
  rw [run_bind_of_ok (run_get _)] at h
  dsimp only at h
  split_ifs at h with hmany
  · cases h
  obtain ⟨read, reader₂, hread, h⟩ := run_bind_eq_ok h
  rw [run_bind_of_ok (run_get _)] at h
  split_ifs at h with hleft
  · cases h
  obtain ⟨rfl, rfl⟩ := run_pure_eq_ok h
  obtain ⟨number, hnumber, hrest⟩ := readInt_eq_ok (not_lt.mp hnegative) hcount
  obtain ⟨hlength, body, hbody, hrest₁⟩ := readRecords_eq_ok hread
  have hend : reader'.rest = [] := List.length_eq_zero_iff.mp (not_not.mp hleft)
  rw [← hlength] at hnumber
  refine ⟨number, body, hnumber, hbody, ?_⟩
  rw [hrest, hrest₁, hend, List.append_nil]

/-! ## What is accepted, and how it is told apart -/

theorem decode_of_run {records : List Record} {bytes : Bytes} {reader : Reader}
    (h : readAll.run ⟨0, bytes⟩ = .ok (records, reader)) : decode bytes = .ok records := by
  unfold decode
  change Prod.fst <$> readAll.run ⟨0, bytes⟩ = .ok records
  rw [h]
  rfl

theorem takesTexts_readText : TakesTexts (fun _ => True) readText :=
  fun h _ rest offset => run_readText h rest offset

theorem decode_eq_ok_iff {records : List Record} {bytes : Bytes} :
    decode bytes = .ok records ↔ Announces records bytes := by
  constructor
  · intro h
    obtain ⟨_, hrun⟩ := run'_eq_ok h
    exact announces_of_readAll hrun
  · intro h
    have hrun := run_readAllWith_of takesTexts_readText h fun _ _ => ⟨trivial, trivial⟩
    rw [readAllWith_readText] at hrun
    exact decode_of_run hrun

/-- The bytes are refused, and the failure is of the kind of what cannot be decoded. -/
def Refused (bytes : Bytes) : Prop :=
  ∃ error, decode bytes = .error error ∧ (Failure.unreadableWire error).kind = .decode

theorem refused_of_forall_not {bytes : Bytes} (h : ∀ records, ¬Announces records bytes) :
    Refused bytes := by
  cases hdecode : decode bytes with
  | error error => exact ⟨error, hdecode, rfl⟩
  | ok records => exact absurd (decode_eq_ok_iff.mp hdecode) (h records)

theorem Announces.length_le_div {records : List Record} {bytes : Bytes}
    (h : Announces records bytes) :
    records.length ≤ (bytes.length - countWidth) / minRecordLength := by
  obtain ⟨count, body, hcount, hbody, rfl⟩ := h
  have hleast := hbody.le_length
  rw [List.length_append, hcount.length_eq, Nat.add_sub_cancel_left,
    Nat.le_div_iff_mul_le (by decide), Nat.mul_comm]
  exact hleast

/-- A byte string is read as a list of records just if it announces them, and every other one is
refused. The early check of the count takes no announcement for too short. -/
theorem decode_accepts_announcements (bytes : Bytes) :
    (∀ records, decode bytes = .ok records ↔ Announces records bytes) ∧
      ((∀ records, ¬Announces records bytes) → Refused bytes) ∧
      ∀ records, Announces records bytes →
        records.length ≤ (bytes.length - countWidth) / minRecordLength :=
  ⟨fun _ => decode_eq_ok_iff, refused_of_forall_not, fun _ => Announces.length_le_div⟩

theorem Announces.refused_take {records : List Record} {bytes : Bytes}
    (h : Announces records bytes) {n : Nat} (hn : n < bytes.length) : Refused (bytes.take n) := by
  refine refused_of_forall_not fun records' hshort => ?_
  have hequal := hshort.eq_of_prefix h (List.take_prefix n bytes)
  have hlength := congrArg List.length hequal
  rw [List.length_take_of_le hn.le] at hlength
  omega

theorem Announces.refused_append {records : List Record} {bytes extra : Bytes}
    (h : Announces records bytes) (hextra : extra ≠ []) : Refused (bytes ++ extra) := by
  refine refused_of_forall_not fun records' hlong => ?_
  have hequal := h.eq_of_prefix hlong (List.prefix_append bytes extra)
  exact hextra (List.self_eq_append_right.mp hequal)

/-- A byte string that is read is the only one for its records, and no other one that is read
begins it or is begun by it: cut short anywhere or continued in any way, it is refused. -/
theorem decode_self_delimiting {bytes : Bytes} {records : List Record}
    (h : decode bytes = .ok records) :
    (∀ bytes', decode bytes' = .ok records → bytes' = bytes) ∧
      (∀ bytes' records', decode bytes' = .ok records' →
        bytes <+: bytes' ∨ bytes' <+: bytes → bytes' = bytes) ∧
      (∀ n < bytes.length, Refused (bytes.take n)) ∧
      ∀ extra ≠ [], Refused (bytes ++ extra) := by
  rw [decode_eq_ok_iff] at h
  refine ⟨fun bytes' h' => ?_, fun bytes' records' h' hprefix => ?_, fun n hn => ?_,
    fun extra hextra => ?_⟩
  · exact (decode_eq_ok_iff.mp h').unique h
  · rw [decode_eq_ok_iff] at h'
    cases hprefix with
    | inl hbegins => exact (h.eq_of_prefix h' hbegins).symm
    | inr hbegun => exact h'.eq_of_prefix h hbegun
  · exact h.refused_take hn
  · exact h.refused_append hextra

/-- One record with a letter of two bytes: without its last byte it is refused, and with one more
byte too. -/
theorem decode_self_delimiting_letter :
    decode [1, 0, 0, 0, 3, 0, 0, 0, 0xd1, 0x84, 0, 1, 0, 0, 0, 0, 7, 0, 0, 0, 0, 0, 0, 0] =
        .ok [⟨"ф", "", 7⟩] ∧
      Refused [1, 0, 0, 0, 3, 0, 0, 0, 0xd1, 0x84, 0, 1, 0, 0, 0, 0, 7, 0, 0, 0, 0, 0, 0] ∧
      Refused [1, 0, 0, 0, 3, 0, 0, 0, 0xd1, 0x84, 0, 1, 0, 0, 0, 0, 7, 0, 0, 0, 0, 0, 0, 0,
        0] := by
  have h : decode
      [1, 0, 0, 0, 3, 0, 0, 0, 0xd1, 0x84, 0, 1, 0, 0, 0, 0, 7, 0, 0, 0, 0, 0, 0, 0] =
        .ok [⟨"ф", "", 7⟩] := by decide +kernel
  obtain ⟨-, -, hcut, hcontinued⟩ := decode_self_delimiting h
  exact ⟨h, hcut 23 (by decide), hcontinued [0] (by decide)⟩

end Wire

end PeerTransfer
