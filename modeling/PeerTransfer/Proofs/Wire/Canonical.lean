import Mathlib.Tactic
import PeerTransfer.Proofs.Wire.RoundTrip

/-!
# Which buffers are written ones

A buffer that is read is an announcement (`decode_eq_ok_iff`), and what is written for records is
the announcement of them (`encode_eq_ok_iff`). One thing is left open. A writer refuses a text that
holds a zero character, and a reader that goes by lengths lets it pass. So a buffer is what would
be written for its records just if no text of them holds a zero character, and just then a reader
that goes by the zero byte at the end of a text sees the same records (`encode_of_decode_tfae`).
-/

namespace PeerTransfer

namespace Wire

/-- What is read to its end, without a zero character in a text, is what is written for it. -/
theorem readAll_eq_ok {reader reader' : Reader} {records : List Record}
    (h : readAll.run reader = .ok (records, reader'))
    (hzero : ∀ record ∈ records, record.ZeroFree) : encode records = .ok reader.rest :=
  encode_eq_ok_iff.mpr ⟨announces_of_readAll h, hzero⟩

/-! ## A reader that goes by the zero byte -/

/-- Reads a text up to its zero byte and passes over the length in front of it. -/
def readTerminated : Read String := do
  let _ ← take countWidth
  let content := (← get).rest.takeWhile (· ≠ 0)
  let bytes ← take (content.length + 1)
  match Text.Utf8.decode bytes.dropLast with
  | .ok text => return text
  | .error refusal => throw (.notText refusal)

/-- The records that a byte string announces to a reader that goes by zero bytes. -/
def decodeTerminated (bytes : Bytes) : Except ReadError (List Record) :=
  (readAllWith readTerminated).run' ⟨0, bytes⟩

theorem takeWhile_append_zero {content : Bytes} (h : 0 ∉ content) (rest : Bytes) :
    (content ++ 0 :: rest).takeWhile (· ≠ 0) = content := by
  rw [List.takeWhile_append_of_pos]
  · simp
  · intro b hb
    exact decide_eq_true fun hzero => h (hzero ▸ hb)

theorem readsTexts_readTerminated : ReadsTexts readTerminated := by
  intro text bytes h rest offset
  obtain ⟨htext, hzero⟩ := encodeText_eq_ok_iff.mp h
  obtain ⟨-, rfl⟩ := isText_iff.mp htext
  rw [← Text.Utf8.zero_mem_encode] at hzero
  set content := Text.Utf8.encode text with hcontent
  have hwidth := run_take (Bytes.ofNatLE countWidth (content.length + 1))
    (content ++ [0] ++ rest) offset
  have htake := run_take (content ++ [0]) rest (offset + countWidth)
  have hwhole : content ++ [0] ++ rest = content ++ 0 :: rest := List.append_cons .. |>.symm
  rw [Bytes.length_ofNatLE] at hwidth
  rw [List.length_append, List.length_singleton] at htake
  unfold readTerminated
  rw [List.append_assoc, run_bind_of_ok hwidth, run_bind_of_ok (run_get _)]
  dsimp only
  rw [congrArg (List.takeWhile (· ≠ 0)) hwhole, takeWhile_append_zero hzero,
    run_bind_of_ok htake, Nat.add_assoc offset, List.length_append, Bytes.length_ofNatLE,
    List.length_append, List.length_singleton]
  simp only [List.dropLast_concat, hcontent, Text.Utf8.decode_encode]
  rfl

theorem dropLast_eq_of_prefix {content whole bytes rest : Bytes} (h : content <+: whole)
    (hwhole : whole = bytes ++ rest) (hlength : bytes.length = content.length + 1) :
    bytes.dropLast = content := by
  subst hwhole
  have hfront := List.prefix_iff_eq_take.mp h
  rw [List.take_append_of_le_length (by omega)] at hfront
  rw [List.dropLast_eq_take, hlength, Nat.add_sub_cancel, ← hfront]

theorem zero_notMem_of_readTerminated {reader reader' : Reader} {text : String}
    (h : readTerminated.run reader = .ok (text, reader')) : '\x00' ∉ text.toList := by
  unfold readTerminated at h
  obtain ⟨_, reader₁, _, h⟩ := run_bind_eq_ok h
  rw [run_bind_of_ok (run_get _)] at h
  dsimp only at h
  obtain ⟨bytes, reader₂, htake, h⟩ := run_bind_eq_ok h
  cases hdecode : Text.Utf8.decode bytes.dropLast with
  | error refusal =>
    rw [hdecode] at h
    cases h
  | ok read =>
    rw [hdecode] at h
    obtain ⟨rfl, rfl⟩ := run_pure_eq_ok h
    obtain ⟨hlength, hrest⟩ := take_eq_ok htake
    have hcontent : bytes.dropLast = reader₁.rest.takeWhile (· ≠ 0) :=
      dropLast_eq_of_prefix (List.takeWhile_prefix _) hrest hlength
    rw [← Text.Utf8.zero_mem_encode, Text.Utf8.encode_of_decode hdecode, hcontent]
    intro hzero
    simpa using List.all_eq_true.mp List.all_takeWhile 0 hzero

theorem zeroFree_of_readRecordWith {reader reader' : Reader} {record : Record}
    (h : (readRecordWith readTerminated).run reader = .ok (record, reader')) :
    record.ZeroFree := by
  unfold readRecordWith at h
  obtain ⟨name, reader₁, hname, h⟩ := run_bind_eq_ok h
  obtain ⟨url, reader₂, hurl, h⟩ := run_bind_eq_ok h
  obtain ⟨size, reader₃, _, h⟩ := run_bind_eq_ok h
  split_ifs at h
  · cases h
  obtain ⟨rfl, -⟩ := run_pure_eq_ok h
  exact ⟨zero_notMem_of_readTerminated hname, zero_notMem_of_readTerminated hurl⟩

theorem zeroFree_of_readRecordsWith {count : Nat} {reader reader' : Reader}
    {records : List Record}
    (h : (readRecordsWith readTerminated count).run reader = .ok (records, reader')) :
    ∀ record ∈ records, record.ZeroFree := by
  induction count generalizing reader reader' records with
  | zero =>
    obtain ⟨rfl, -⟩ := run_pure_eq_ok h
    simp
  | succ count ih =>
    unfold readRecordsWith at h
    obtain ⟨record, reader₁, hrecord, h⟩ := run_bind_eq_ok h
    obtain ⟨others, reader₂, hothers, h⟩ := run_bind_eq_ok h
    obtain ⟨rfl, -⟩ := run_pure_eq_ok h
    rw [List.forall_mem_cons]
    exact ⟨zeroFree_of_readRecordWith hrecord, ih hothers⟩

theorem zeroFree_of_readAllWith {reader reader' : Reader} {records : List Record}
    (h : (readAllWith readTerminated).run reader = .ok (records, reader')) :
    ∀ record ∈ records, record.ZeroFree := by
  unfold readAllWith at h
  obtain ⟨count, reader₁, _, h⟩ := run_bind_eq_ok h
  split_ifs at h
  · cases h
  rw [run_bind_of_ok (run_get _)] at h
  dsimp only at h
  split_ifs at h
  · cases h
  obtain ⟨read, reader₂, hread, h⟩ := run_bind_eq_ok h
  rw [run_bind_of_ok (run_get _)] at h
  split_ifs at h
  · cases h
  obtain ⟨rfl, -⟩ := run_pure_eq_ok h
  exact zeroFree_of_readRecordsWith hread

/-! ## The buffers that are written ones -/

/-- A buffer is the one written for the records read from it just if a reader that goes by zero
bytes sees the same records, which is just if no text of them holds a zero character. -/
theorem encode_of_decode_tfae {bytes : Bytes} {records : List Record}
    (h : decode bytes = .ok records) :
    [encode records = .ok bytes, decodeTerminated bytes = .ok records,
      ∀ record ∈ records, record.ZeroFree].TFAE := by
  have hwritten : encode records = .ok bytes → decodeTerminated bytes = .ok records := by
    intro hencode
    unfold decodeTerminated
    change Prod.fst <$> (readAllWith readTerminated).run ⟨0, bytes⟩ = .ok records
    rw [run_readAllWith readsTexts_readTerminated hencode]
    rfl
  have hseen : decodeTerminated bytes = .ok records → ∀ record ∈ records, record.ZeroFree := by
    intro hterminated
    obtain ⟨_, hrun⟩ := run'_eq_ok hterminated
    exact zeroFree_of_readAllWith hrun
  have hfree : (∀ record ∈ records, record.ZeroFree) → encode records = .ok bytes := by
    intro hzero
    obtain ⟨_, hrun⟩ := run'_eq_ok h
    exact readAll_eq_ok hrun hzero
  tfae_have 1 → 2 := hwritten
  tfae_have 2 → 3 := hseen
  tfae_have 3 → 1 := hfree
  tfae_finish

/-- The buffer of one record with a letter of two bytes. -/
theorem encode_of_decode_tfae_letter :
    decode [1, 0, 0, 0, 3, 0, 0, 0, 0xd1, 0x84, 0, 1, 0, 0, 0, 0, 7, 0, 0, 0, 0, 0, 0, 0] =
        .ok [⟨"ф", "", 7⟩] ∧
      encode [⟨"ф", "", 7⟩] =
        .ok [1, 0, 0, 0, 3, 0, 0, 0, 0xd1, 0x84, 0, 1, 0, 0, 0, 0, 7, 0, 0, 0, 0, 0, 0, 0] := by
  have h : decode
      [1, 0, 0, 0, 3, 0, 0, 0, 0xd1, 0x84, 0, 1, 0, 0, 0, 0, 7, 0, 0, 0, 0, 0, 0, 0] =
        .ok [⟨"ф", "", 7⟩] := by decide +kernel
  have hfree : ∀ record ∈ [(⟨"ф", "", 7⟩ : Record)], record.ZeroFree := by decide
  exact ⟨h, ((encode_of_decode_tfae h).out 2 0).mp hfree⟩

/-- A buffer with a zero byte inside a name is read, although nothing is written so: the name is
three bytes long to one reader and one byte long to the other. -/
theorem encode_of_decode_zero_inside :
    decode [1, 0, 0, 0, 3, 0, 0, 0, 0x61, 0, 0, 1, 0, 0, 0, 0, 0, 0, 0, 0, 0, 0, 0, 0] =
        .ok [⟨"a\x00", "", 0⟩] ∧
      encode [⟨"a\x00", "", 0⟩] = .error (.zeroByte "a\x00") ∧
      decodeTerminated
          [1, 0, 0, 0, 3, 0, 0, 0, 0x61, 0, 0, 1, 0, 0, 0, 0, 0, 0, 0, 0, 0, 0, 0, 0] ≠
        .ok [⟨"a\x00", "", 0⟩] := by
  refine ⟨by decide +kernel, by decide +kernel, by decide +kernel⟩

end Wire

end PeerTransfer
