import PeerTransfer.Proofs.Toml.Scalar
import PeerTransfer.Settings.Toml

/-!
# Settings that are read back

A document of lines with a bare key each, no two the same, is read as these keys and their values
(`parse?_lines`). So settings that can be written are read back as they are, unless they are not to
be used, and then for the same reason (`parse_render`).
-/

namespace PeerTransfer

open List

namespace Toml

/-! ## Documents of single lines -/

/-- A key that needs no quotes. -/
def IsBareKey (key : String) : Prop :=
  key.toList ≠ [] ∧ ∀ c ∈ key.toList, isBare c = true

instance (key : String) : Decidable (IsBareKey key) :=
  decidable_of_iff ((!key.toList.isEmpty && key.toList.all isBare) = true) (by simp [IsBareKey])

/-- A line of a document. -/
structure Entry where
  key : String
  value : Value
  /-- The value as it is written. -/
  text : List Char
  isBareKey : IsBareKey key
  written : Written value text

namespace Entry

/-- The characters of a line. -/
def line (entry : Entry) : List Char :=
  Settings.line entry.key entry.text

/-- What a line says. -/
def statement (entry : Entry) : Statement :=
  .pair [entry.key] entry.value

/-- What a line puts into a document. -/
def member (entry : Entry) : String × Value :=
  (entry.key, entry.value)

end Entry

theorem skipBlanks_of_not_blank {c : Char} (h : isBlank c = false) (cs : List Char) :
    skipBlanks (c :: cs) = c :: cs :=
  dropWhile_cons_of_neg (by simp [h])

theorem isBlank_of_isBare {c : Char} (h : isBare c = true) : isBlank c = false := by
  have hspace : c ≠ ' ' := Text.ne_of_kind h (by decide)
  have htab : c ≠ '\t' := Text.ne_of_kind h (by decide)
  simp [isBlank, hspace, htab]

theorem readKeyPart_of_isBare {c : Char} {cs : List Char} (h : ∀ d ∈ c :: cs, isBare d = true)
    (rest : List Char) :
    readKeyPart (c :: cs ++ ' ' :: rest) = some (c :: cs, ' ' :: rest) := by
  have htake : (c :: cs ++ ' ' :: rest).takeWhile isBare = c :: cs := by
    rw [takeWhile_append_of_pos h]
    exact append_nil _
  have hdrop : (c :: cs ++ ' ' :: rest).dropWhile isBare = ' ' :: rest := by
    rw [dropWhile_append_of_pos h]
    rfl
  have hbare := h c mem_cons_self
  unfold readKeyPart
  split
  · next heq => exact absurd (cons.inj heq).1 (Text.ne_of_kind hbare (by decide))
  · next heq => exact absurd (cons.inj heq).1 (Text.ne_of_kind hbare (by decide))
  · rw [htake, hdrop]

theorem readKey_of_isBare {c : Char} {cs : List Char} (h : ∀ d ∈ c :: cs, isBare d = true)
    (rest : List Char) :
    readKey (c :: cs ++ ' ' :: '=' :: rest) = some ([String.ofList (c :: cs)], '=' :: rest) := by
  unfold readKey maxDepth readParts
  rw [cons_append, skipBlanks_of_not_blank (isBlank_of_isBare (h c mem_cons_self)), ← cons_append,
    readKeyPart_of_isBare h]
  rfl

theorem Entry.exists_line_eq (entry : Entry) : ∃ c cs, entry.key.toList = c :: cs ∧
    (∀ d ∈ c :: cs, isBare d = true) ∧
      ∀ rest, entry.line ++ rest =
        c :: cs ++ ' ' :: '=' :: ' ' :: (entry.text ++ '\n' :: rest) := by
  obtain ⟨hne, hbare⟩ := entry.isBareKey
  obtain ⟨c, cs, hkey⟩ := exists_cons_of_ne_nil hne
  refine ⟨c, cs, hkey, hkey ▸ hbare, fun rest => ?_⟩
  rw [line, Settings.line, hkey, append_assoc, append_assoc]
  rfl

theorem readPair_line (entry : Entry) (rest : List Char) :
    readPair (readValue maxDepth) (entry.line ++ rest) =
      some (([entry.key], entry.value), '\n' :: rest) := by
  obtain ⟨c, cs, hkey, hbare, hline⟩ := entry.exists_line_eq
  obtain ⟨d, ds, htext, hblank⟩ := entry.written.head
  have hread := entry.written.read rest
  have hskip : skipBlanks (' ' :: (entry.text ++ '\n' :: rest)) = entry.text ++ '\n' :: rest := by
    rw [htext]
    exact skipBlanks_of_not_blank hblank _
  rw [hline, readPair, readKey_of_isBare hbare]
  change (readValue maxDepth (skipBlanks (' ' :: (entry.text ++ '\n' :: rest)))).bind _ = _
  rw [hskip, hread, ← hkey, String.ofList_toList]
  rfl

theorem readStatement_line (entry : Entry) (rest : List Char) :
    readStatement (entry.line ++ rest) = some (entry.statement, '\n' :: rest) := by
  have hpair := readPair_line entry rest
  obtain ⟨c, cs, -, hbare, hline⟩ := entry.exists_line_eq
  have hbracket : c ≠ '[' := Text.ne_of_kind (hbare c mem_cons_self) (by decide)
  rw [hline, cons_append] at hpair ⊢
  unfold readStatement
  split
  · next heq => exact absurd (cons.inj heq).1 hbracket
  · next heq => exact absurd (cons.inj heq).1 hbracket
  · rw [hpair]
    rfl

theorem readLines_line (entry : Entry) (count : Nat) (rest : List Char) :
    readLines (count + 1) (entry.line ++ rest) =
      (readLines count rest).map (entry.statement :: ·) := by
  have hstatement := readStatement_line entry rest
  obtain ⟨c, cs, -, hbare, hline⟩ := entry.exists_line_eq
  have hc := hbare c mem_cons_self
  rw [hline, cons_append] at hstatement ⊢
  generalize cs ++ ' ' :: '=' :: ' ' :: (entry.text ++ '\n' :: rest) = ds at hstatement ⊢
  have hskip : skipBlanks (c :: ds) = c :: ds := skipBlanks_of_not_blank (isBlank_of_isBare hc) ds
  -- The line is neither empty nor a comment.
  have hend : endLine? (c :: ds) = none := by
    have hcomment : c ≠ '#' := Text.ne_of_kind hc (by decide)
    have hnewline : c ≠ '\n' := Text.ne_of_kind hc (by decide)
    have hreturn : c ≠ '\r' := Text.ne_of_kind hc (by decide)
    unfold endLine?
    rw [hskip, skipComment.eq_2 _ (by simp [hcomment])]
    simp [dropNewline?, hnewline, hreturn]
  rw [readLines, hskip]
  dsimp only
  rw [hend]
  dsimp only
  rw [hstatement]
  change (readLines count rest).bind _ = _
  cases readLines count rest <;> rfl

theorem readLines_lines (entries : List Entry) {count : Nat} (h : entries.length < count) :
    readLines count (entries.flatMap Entry.line) = some (entries.map Entry.statement) := by
  induction entries generalizing count with
  | nil =>
    obtain ⟨count, rfl⟩ := Nat.exists_eq_succ_of_ne_zero h.ne'
    rfl
  | cons entry entries ih =>
    obtain ⟨count, rfl⟩ := Nat.exists_eq_succ_of_ne_zero (Nat.ne_zero_of_lt h)
    rw [flatMap_cons, readLines_line, ih (by simpa using h)]
    rfl

theorem length_le_lines (entries : List Entry) :
    entries.length ≤ (entries.flatMap Entry.line).length := by
  induction entries with
  | nil => exact Nat.le_refl 0
  | cons entry entries ih =>
    obtain ⟨c, cs, -, -, hline⟩ := entry.exists_line_eq
    rw [flatMap_cons, hline]
    simp only [length_cons, length_append]
    omega

theorem assign_of_fresh {document : Members} {key : String} (h : key ∉ document.map Prod.fst)
    (value : Value) : Members.assign [key] value .header document =
      some (.header, document ++ [(key, value)]) := by
  have hfresh : ∀ member ∈ document, member.1 ≠ key := fun member hmember heq =>
    h (heq ▸ mem_map_of_mem hmember)
  have hlookup : document.lookup key = none :=
    lookup_eq_none_iff.2 fun member hmember => by simpa using (hfresh member hmember).symm
  have hset : document.set key value = document ++ [(key, value)] := by
    rw [Members.set, filter_eq_self.2 fun member hmember => by simpa using hfresh member hmember]
  unfold Members.assign
  simp only [getLast?_singleton, dropLast_singleton, Members.changeAt, hlookup, hset, ne_eq,
    not_true_eq_false, decide_false, Bool.false_and, Bool.false_eq_true, if_false]

theorem carryOut_members (entries : List Entry) {document : Members}
    (h : (document.map Prod.fst ++ entries.map Entry.key).Nodup) :
    carryOut (entries.map Entry.statement) [] document =
      some (document ++ entries.map Entry.member) := by
  induction entries generalizing document with
  | nil => exact congrArg some (append_nil document).symm
  | cons entry entries ih =>
    have hfresh : entry.key ∉ document.map Prod.fst := fun hmem =>
      disjoint_of_nodup_append h hmem mem_cons_self
    have hrest := @ih (document ++ [entry.member]) (by rwa [map_append, append_assoc])
    change (Members.changeAt false (Members.assign [entry.key] entry.value) [] .header
      document).bind _ = _
    rw [Members.changeAt, assign_of_fresh hfresh]
    exact hrest.trans (congrArg some (append_assoc ..))

/-- A document of single lines under different keys is read as these keys and their values. -/
theorem parse?_lines {entries : List Entry} (h : (entries.map Entry.key).Nodup) :
    parse? (String.ofList (entries.flatMap Entry.line)) = some (entries.map Entry.member) := by
  have hmark : ∀ rest, entries.flatMap Entry.line ≠ '\uFEFF' :: rest := by
    intro rest heq
    cases entries with
    | nil => cases heq
    | cons entry entries =>
      obtain ⟨c, cs, -, hbare, hline⟩ := entry.exists_line_eq
      rw [flatMap_cons, hline] at heq
      exact absurd (cons.inj heq).1 (Text.ne_of_kind (hbare c mem_cons_self) (by decide))
  have hstatements : statements? (String.ofList (entries.flatMap Entry.line)) =
      some (entries.map Entry.statement) := by
    have hread := readLines_lines entries (Nat.lt_succ_of_le (length_le_lines entries))
    unfold statements?
    rw [String.toList_ofList]
    split
    · next heq => exact absurd heq (hmark _)
    · exact hread
  unfold parse?
  rw [hstatements]
  exact carryOut_members entries h

end Toml

namespace Settings

theorem isInt64_of_lt {n : Nat} (h : n < 2 ^ 63) : Toml.isInt64 n = true := by
  simp only [Toml.isInt64, Bool.and_eq_true, decide_eq_true_eq]
  omega

section RoundTrip

variable (settings : Settings)

/-- The lines of settings with what they say. -/
def entries (h : Toml.isInt64 settings.maxConcurrentUnits.toNat = true) : List Toml.Entry :=
  [⟨"local_name", _, _, by decide, Toml.written_text settings.localName⟩,
    ⟨"staging_dir", _, _, by decide, Toml.written_text settings.stagingFolder.text⟩,
    ⟨"download_dir", _, _, by decide, Toml.written_text settings.downloadFolder.text⟩,
    ⟨"max_concurrent_units", _, _, by decide, Toml.written_nat h⟩,
    ⟨"jpeg_quality", _, _, by decide,
      Toml.written_nat (isInt64_of_lt (settings.jpegQuality.toNat_lt.trans (by decide)))⟩,
    ⟨"release_after_stage", _, _, by decide, Toml.written_bool settings.releaseAfterStage⟩]

variable {settings} (h : Toml.isInt64 settings.maxConcurrentUnits.toNat = true)

theorem lines_eq_flatMap : settings.lines = (settings.entries h).flatMap Toml.Entry.line := by
  simp only [lines, entries, flatMap_cons, flatMap_nil, Toml.Entry.line, append_nil, append_assoc]

theorem ofDocument?_entries :
    ofDocument? ((settings.entries h).map Toml.Entry.member) = some settings := by
  have hunits : asNat? UInt64.size (.number (.whole settings.maxConcurrentUnits.toNat)) =
      some settings.maxConcurrentUnits.toNat := if_pos settings.maxConcurrentUnits.toNat_lt
  have hquality : asNat? UInt8.size (.number (.whole settings.jpegQuality.toNat)) =
      some settings.jpegQuality.toNat := if_pos settings.jpegQuality.toNat_lt
  simp only [entries, map_cons, map_nil, Toml.Entry.member, ofDocument?, field, lookup_cons,
    String.reduceBEq, beq_self_eq_true, asText?, asBool?, hunits, hquality, Option.bind_eq_bind,
    Option.bind_some, UInt64.ofNat_toNat, UInt8.ofNat_toNat]
  rfl

include h in
theorem parse?_settings_lines :
    (Toml.parse? (String.ofList settings.lines) >>= ofDocument?) = some settings := by
  have hkeys : ((settings.entries h).map Toml.Entry.key).Nodup := by
    change ["local_name", "staging_dir", "download_dir", "max_concurrent_units", "jpeg_quality",
      "release_after_stage"].Nodup
    decide
  rw [lines_eq_flatMap h, Toml.parse?_lines hkeys]
  exact ofDocument?_entries h

end RoundTrip

/-- Settings that are written are read back as they are, unless they are not to be used, and then
they are refused for the reason for which they are not. Only a number of units that has no 64 bits
with a sign cannot be written. -/
theorem parse_render (settings : Settings) :
    (∀ text, settings.render = .ok text →
      (settings.validate = .ok () → parse text = .ok settings) ∧
        ∀ fault, settings.validate = .error fault →
          parse text = .error (.invalidSettings fault)) ∧
      ((∃ failure, settings.render = .error failure) ↔
        2 ^ 63 - 1 < settings.maxConcurrentUnits.toNat) := by
  unfold render
  constructor
  · intro text hrender
    split_ifs at hrender with h
    cases hrender
    have hread := parse?_settings_lines h
    constructor
    · intro hvalid
      simp only [parse, hread, hvalid]
    · intro fault hfault
      simp only [parse, hread, hfault]
  · constructor
    · rintro ⟨failure, hrender⟩
      by_contra hsmall
      rw [if_pos (isInt64_of_lt (by omega))] at hrender
      cases hrender
    · intro hlarge
      refine ⟨.unwritableSettings, if_neg ?_⟩
      simp only [Toml.isInt64, Bool.and_eq_true, decide_eq_true_eq]
      omega

end Settings

end PeerTransfer
