import PeerTransfer.Proofs.Text.Digits
import PeerTransfer.Toml.Quoted

/-!
# Quoted texts that are read back

However a text is quoted, it is read back as it was (`readQuoted_writeQuoted`), with anything on the
lines after it. An escaped character has one of three forms (`Escaped`), which both readers of
escapes take alike. Between three quotes, up to two quotes stand for themselves: they are read only
once it is seen what follows them, so the texts are read by induction with the quotes that are still
held back (`readLongBasic_escapeLong`, `readLongLiteral_append`).
-/

namespace PeerTransfer.Toml

open List

/-- What a reader answers that has taken some characters already. -/
def prepend (cs : List Char) (read : Option (List Char × List Char)) :
    Option (List Char × List Char) :=
  read.map fun (ds, rest) => (cs ++ ds, rest)

theorem prepend_nil (read : Option (List Char × List Char)) : prepend [] read = read := by
  cases read <;> rfl

theorem prepend_prepend (cs ds : List Char) (read : Option (List Char × List Char)) :
    prepend cs (prepend ds read) = prepend (cs ++ ds) read := by
  cases read with
  | none => rfl
  | some read => simp [prepend]

/-! ## Characters and their escapes -/

/-- The forms of a character between double quotes. -/
inductive Escaped (c : Char) : List Char → Prop
  | plain : isText c = true → c ≠ '"' → c ≠ '\\' → Escaped c [c]
  | short {letter : Char} : shortEscape? letter = some c → Escaped c ['\\', letter]
  | named {a b d e : Char} : namedChar? [a, b, d, e] = some c →
      Escaped c ['\\', 'u', a, b, d, e]

theorem namedChar?_toUpper {c : Char} (h : isText c = false) :
    namedChar? ((Text.Hex.chars 4 c.toNat).map Char.toUpper) = some c := by
  have hsmall : c.toNat < 16 ^ 4 := by
    by_contra hlarge
    have hprintable : 0x20 ≤ c.val := UInt32.le_iff_toNat_le.2 (by
      change 0x20 ≤ c.toNat
      omega)
    have hdelete : c.val ≠ 0x7F := by
      intro heq
      have : c.toNat = 0x7F := congrArg UInt32.toNat heq
      omega
    simp [isText, hprintable, hdelete] at h
  have hvalid : Nat.isValidChar c.toNat := c.valid
  rw [namedChar?, Text.Hex.number?_chars_toUpper, Nat.mod_eq_of_lt hsmall]
  change (if Nat.isValidChar c.toNat then some (Char.ofNat c.toNat) else none) = some c
  rw [if_pos hvalid, Char.ofNat_toNat]

theorem escaped_escape (c : Char) : Escaped c (escape c) := by
  unfold escape
  split
  all_goals try exact .short rfl
  next hquote hslash =>
    split_ifs with htext
    · exact .plain htext hquote hslash
    · exact .named (namedChar?_toUpper (by simpa using htext))

theorem ne_newline_of_isText {c : Char} (h : isText c = true) : c ≠ '\n' ∧ c ≠ '\r' := by
  constructor <;> (rintro rfl; revert h; decide)

theorem isText_of_not_hidden {c : Char} (h : isHidden c = false) (hnewline : c ≠ '\n') :
    isText c = true := by
  simpa [isHidden, hnewline] using h

/-- A letter after a backslash neither begins a longer escape nor ends a line. -/
theorem of_shortEscape? {letter c : Char} (h : shortEscape? letter = some c) :
    letter ≠ 'u' ∧ letter ≠ 'U' ∧ ∀ rest, isLineEnd (letter :: rest) = false := by
  unfold shortEscape? at h
  split at h
  all_goals first
    | exact ⟨by decide, by decide, fun _ => rfl⟩
    | cases h

/-- An escaped character begins with no quote and no line end. -/
theorem Escaped.exists_head {c : Char} {written : List Char} (h : Escaped c written) :
    ∃ d ds, written = d :: ds ∧ d ≠ '"' ∧ d ≠ '\n' ∧ d ≠ '\r' := by
  cases h with
  | plain htext hquote _ =>
    exact ⟨c, [], rfl, hquote, ne_newline_of_isText htext⟩
  | short _ => exact ⟨'\\', _, rfl, by decide⟩
  | named _ => exact ⟨'\\', _, rfl, by decide⟩

/-! ## Texts on one line -/

theorem readBasic_of_escaped {c : Char} {written : List Char} (h : Escaped c written)
    (rest : List Char) : readBasic (written ++ rest) = prepend [c] (readBasic rest) := by
  cases h with
  | plain htext hquote hslash =>
    rw [singleton_append, readBasic.eq_6 c rest hquote (by intros; contradiction)
      (by intros; contradiction) (by intros; contradiction), htext]
    cases readBasic rest <;> rfl
  | @short letter hletter =>
    obtain ⟨hu, hU, -⟩ := of_shortEscape? hletter
    change readBasic ('\\' :: letter :: rest) = _
    rw [readBasic.eq_5 letter rest (by intros; contradiction) (by intros; contradiction), hletter]
    cases readBasic rest <;> rfl
  | @named a b d e hnamed =>
    change readBasic ('\\' :: 'u' :: a :: b :: d :: e :: rest) = _
    rw [readBasic.eq_3, hnamed]
    cases readBasic rest <;> rfl

theorem readBasic_escape (cs rest : List Char) :
    readBasic (cs.flatMap escape ++ '"' :: rest) = some (cs, rest) := by
  induction cs with
  | nil => exact readBasic.eq_2 rest
  | cons c cs ih =>
    rw [flatMap_cons, append_assoc, readBasic_of_escaped (escaped_escape c), ih]
    rfl

theorem readLiteral_append {cs : List Char} (h : ∀ c ∈ cs, isText c = true ∧ c ≠ '\'')
    (rest : List Char) : readLiteral (cs ++ '\'' :: rest) = some (cs, rest) := by
  induction cs with
  | nil => exact readLiteral.eq_2 rest
  | cons c cs ih =>
    obtain ⟨⟨htext, hquote⟩, hcs⟩ := forall_mem_cons.1 h
    rw [cons_append, readLiteral.eq_3 c _ hquote, htext, ih hcs]
    rfl

/-! ## Texts over several lines -/

/-- One or two quotes stand for themselves where a reader takes a quote for itself that two others
do not follow. -/
theorem read_held {quote : Char} {read : List Char → Option (List Char × List Char)}
    (hread : ∀ cs, (∀ rest, cs ≠ quote :: quote :: rest) →
      read (quote :: cs) = prepend [quote] (read cs))
    {held : Nat} (hheld : held ≤ 2) {c : Char} (hc : c ≠ quote) (cs : List Char) :
    read (replicate held quote ++ c :: cs) = prepend (replicate held quote) (read (c :: cs)) := by
  have hone : read (quote :: c :: cs) = prepend [quote] (read (c :: cs)) :=
    hread _ fun rest h => hc (cons.inj h).1
  obtain rfl | rfl | rfl : held = 0 ∨ held = 1 ∨ held = 2 := by omega
  · exact (prepend_nil _).symm
  · exact hone
  · change read (quote :: quote :: c :: cs) = _
    rw [hread _ fun rest h => hc (cons.inj (cons.inj h).2).1, hone, prepend_prepend]
    rfl

theorem readLongBasic_of_escaped {c : Char} {written : List Char} (h : Escaped c written)
    (rest : List Char) :
    readLongBasic false (written ++ rest) = prepend [c] (readLongBasic false rest) := by
  cases h with
  | plain htext hquote hslash =>
    obtain ⟨hnewline, hreturn⟩ := ne_newline_of_isText htext
    rw [singleton_append, readLongBasic.eq_10 false c rest (by intros; contradiction)
      (by intros; contradiction) (by intros; contradiction) (by intros; contradiction)
      (by intros; contradiction) (by intros; contradiction) hnewline (by intros; contradiction),
      if_neg (by simp), if_pos htext]
    rfl
  | @short letter hletter =>
    obtain ⟨hu, hU, hline⟩ := of_shortEscape? hletter
    change readLongBasic false ('\\' :: letter :: rest) = _
    rw [readLongBasic.eq_9 false letter rest (by intros; contradiction) (by intros; contradiction),
      hline, if_neg (by simp), hletter]
    cases readLongBasic false rest <;> rfl
  | @named a b d e hnamed =>
    change readLongBasic false ('\\' :: 'u' :: a :: b :: d :: e :: rest) = _
    rw [readLongBasic.eq_5, hnamed]
    cases readLongBasic false rest <;> rfl

theorem readLongBasic_newline (rest : List Char) :
    readLongBasic false ('\n' :: rest) = prepend ['\n'] (readLongBasic false rest) :=
  readLongBasic.eq_8 false rest

/-- A quote stands for itself where two others do not follow. -/
theorem readLongBasic_quote (cs : List Char) (h : ∀ rest, cs ≠ '"' :: '"' :: rest) :
    readLongBasic false ('"' :: cs) = prepend ['"'] (readLongBasic false cs) := by
  rw [readLongBasic.eq_10 false '"' cs (fun _ _ heq => h _ heq) (fun _ _ heq => h _ heq)
    (fun _ _ heq => h _ heq) (by simp) (by simp) (by simp) (by decide) (by simp)]
  rfl

theorem readLongBasic_close {held : Nat} (hheld : held ≤ 2) (rest : List Char) :
    readLongBasic false (replicate held '"' ++ (replicate 3 '"' ++ '\n' :: rest)) =
      some (replicate held '"', '\n' :: rest) := by
  obtain rfl | rfl | rfl : held = 0 ∨ held = 1 ∨ held = 2 := by omega
  · exact readLongBasic.eq_4 false _ (by simp) (by simp)
  · exact readLongBasic.eq_3 false _ (by simp)
  · exact readLongBasic.eq_2 false _

/-- The quotes before the text are held back until it is read on. -/
theorem readLongBasic_escapeLong {held : Nat} (hheld : held ≤ 2) (cs rest : List Char) :
    readLongBasic false
        (replicate held '"' ++ (escapeLong held cs ++ (replicate 3 '"' ++ '\n' :: rest))) =
      some (replicate held '"' ++ cs, '\n' :: rest) := by
  induction cs generalizing held with
  | nil =>
    rw [escapeLong, nil_append, append_nil]
    exact readLongBasic_close hheld rest
  | cons c cs ih =>
    have hnone := ih (Nat.zero_le 2)
    rw [replicate_zero, nil_append, nil_append] at hnone
    rw [escapeLong]
    split_ifs with hnewline hquote
    · subst hnewline
      rw [cons_append, read_held readLongBasic_quote hheld (by decide), readLongBasic_newline,
        hnone]
      rfl
    · simp only [Bool.and_eq_true, decide_eq_true_eq] at hquote
      obtain ⟨rfl, hroom⟩ := hquote
      have hmore := @ih (held + 1) hroom
      rwa [replicate_succ', append_assoc, append_assoc] at hmore
    · obtain ⟨d, ds, hwritten, hd, -⟩ := (escaped_escape c).exists_head
      have hread := readLongBasic_of_escaped (escaped_escape c)
        (escapeLong 0 cs ++ (replicate 3 '"' ++ '\n' :: rest))
      rw [hnone, hwritten, cons_append] at hread
      rw [append_assoc, hwritten, cons_append, read_held readLongBasic_quote hheld hd, hread]
      rfl

theorem readLongLiteral_of_isText {c : Char} (htext : isText c = true) {cs : List Char}
    (h : c = '\'' → ∀ rest, cs ≠ '\'' :: '\'' :: rest) :
    readLongLiteral (c :: cs) = prepend [c] (readLongLiteral cs) := by
  obtain ⟨hnewline, hreturn⟩ := ne_newline_of_isText htext
  rw [readLongLiteral.eq_7 c cs (fun _ hc heq => h hc _ heq) (fun _ hc heq => h hc _ heq)
    (fun _ hc heq => h hc _ heq) (by intros; contradiction) hnewline, if_pos htext]
  rfl

theorem readLongLiteral_quote (cs : List Char) (h : ∀ rest, cs ≠ '\'' :: '\'' :: rest) :
    readLongLiteral ('\'' :: cs) = prepend ['\''] (readLongLiteral cs) :=
  readLongLiteral_of_isText rfl fun _ => h

theorem readLongLiteral_close {held : Nat} (hheld : held ≤ 2) (rest : List Char) :
    readLongLiteral (replicate held '\'' ++ (replicate 3 '\'' ++ '\n' :: rest)) =
      some (replicate held '\'', '\n' :: rest) := by
  obtain rfl | rfl | rfl : held = 0 ∨ held = 1 ∨ held = 2 := by omega
  · exact readLongLiteral.eq_4 _ (by simp) (by simp)
  · exact readLongLiteral.eq_3 _ (by simp)
  · exact readLongLiteral.eq_2 _

theorem le_longestRun (quote : Char) (run : Nat) (cs : List Char) :
    run ≤ longestRun quote run cs := by
  induction cs generalizing run with
  | nil => exact Nat.le_refl run
  | cons c cs ih =>
    rw [longestRun]
    split_ifs
    · exact (Nat.le_succ run).trans (ih (run + 1))
    · exact Nat.le_max_left ..

theorem readLongLiteral_append {held : Nat} {cs : List Char}
    (htext : ∀ c ∈ cs, isHidden c = false) (hruns : longestRun '\'' held cs ≤ 2)
    (rest : List Char) :
    readLongLiteral (replicate held '\'' ++ (cs ++ (replicate 3 '\'' ++ '\n' :: rest))) =
      some (replicate held '\'' ++ cs, '\n' :: rest) := by
  have hheld : held ≤ 2 := (le_longestRun '\'' held cs).trans hruns
  induction cs generalizing held with
  | nil =>
    rw [nil_append, append_nil]
    exact readLongLiteral_close hheld rest
  | cons c cs ih =>
    obtain ⟨hc, hcs⟩ := forall_mem_cons.1 htext
    rw [longestRun] at hruns
    split_ifs at hruns with hquote
    · subst hquote
      have hmore := ih hcs hruns ((le_longestRun ..).trans hruns)
      rwa [replicate_succ', append_assoc, append_assoc] at hmore
    · have hnone := ih hcs ((Nat.le_max_right ..).trans hruns) (Nat.zero_le 2)
      rw [replicate_zero, nil_append, nil_append] at hnone
      have hread : readLongLiteral (c :: (cs ++ (replicate 3 '\'' ++ '\n' :: rest))) =
          prepend [c] (some (cs, '\n' :: rest)) := by
        rw [← hnone]
        by_cases hnewline : c = '\n'
        · subst hnewline
          exact readLongLiteral.eq_6 _
        · exact readLongLiteral_of_isText (isText_of_not_hidden hc hnewline)
            fun h => absurd h hquote
      rw [cons_append, read_held readLongLiteral_quote hheld hquote, hread]
      rfl

/-! ## Texts of any kind -/

theorem openLong_append (quote : Char) (cs body : List Char) :
    openLong quote cs ++ body = quote :: quote :: quote ::
      ((if cs.contains '\n' then ['\n'] else []) ++ body) := by
  rw [openLong, append_assoc]
  rfl

/-- The opening of a text is dropped with the line end in it. A text without line ends is opened
without one. -/
theorem dropFirstNewline_openLong {cs body : List Char}
    (h : '\n' ∉ cs → ∀ d ds, body = d :: ds → d ≠ '\n' ∧ d ≠ '\r') :
    dropFirstNewline ((if cs.contains '\n' then ['\n'] else []) ++ body) = body := by
  split_ifs with hlong
  · rfl
  · rw [nil_append]
    cases body with
    | nil => rfl
    | cons d ds =>
      obtain ⟨hnewline, hreturn⟩ := h (by simpa using hlong) d ds rfl
      unfold dropFirstNewline dropNewline?
      split
      · next heq => exact absurd (cons.inj heq).1 hnewline
      · next heq => exact absurd (cons.inj heq).1 hreturn
      · rfl

theorem readQuoted_basic (cs rest : List Char) :
    readQuoted ('"' :: cs.flatMap escape ++ '"' :: '\n' :: rest) = some (cs, '\n' :: rest) := by
  have hbody : ∀ ds, cs.flatMap escape ++ '"' :: '\n' :: rest ≠ '"' :: '"' :: ds := by
    cases cs with
    | nil => simp
    | cons c cs =>
      obtain ⟨d, ds, hwritten, hd, -⟩ := (escaped_escape c).exists_head
      intro es heq
      rw [flatMap_cons, hwritten, cons_append, cons_append] at heq
      exact hd (cons.inj heq).1
  rw [cons_append, readQuoted.eq_2 _ hbody, readBasic_escape]

theorem readQuoted_literal {cs : List Char} (h : ∀ c ∈ cs, isText c = true ∧ c ≠ '\'')
    (rest : List Char) :
    readQuoted ('\'' :: cs ++ '\'' :: '\n' :: rest) = some (cs, '\n' :: rest) := by
  have hbody : ∀ ds, cs ++ '\'' :: '\n' :: rest ≠ '\'' :: '\'' :: ds := by
    cases cs with
    | nil => simp
    | cons c cs => exact fun ds heq => (h c mem_cons_self).2 (cons.inj heq).1
  rw [cons_append, readQuoted.eq_4 _ hbody, readLiteral_append h]

theorem readQuoted_longBasic (cs rest : List Char) :
    readQuoted (openLong '"' cs ++ (escapeLong 0 cs ++ (replicate 3 '"' ++ '\n' :: rest))) =
      some (cs, '\n' :: rest) := by
  have hbody : '\n' ∉ cs → ∀ d ds,
      escapeLong 0 cs ++ (replicate 3 '"' ++ '\n' :: rest) = d :: ds → d ≠ '\n' ∧ d ≠ '\r' := by
    intro hlong d ds heq
    cases cs with
    | nil =>
      obtain rfl := (cons.inj heq).1
      decide
    | cons c cs =>
      rw [mem_cons, not_or] at hlong
      rw [escapeLong, if_neg (Ne.symm hlong.1)] at heq
      split_ifs at heq with hquote
      · simp only [Bool.and_eq_true, decide_eq_true_eq] at hquote
        obtain rfl := hquote.1.symm.trans (cons.inj heq).1
        decide
      · obtain ⟨e, es, hwritten, -, hends⟩ := (escaped_escape c).exists_head
        rw [hwritten, cons_append, cons_append] at heq
        obtain rfl := (cons.inj heq).1
        exact hends
  have hread := readLongBasic_escapeLong (Nat.zero_le 2) cs rest
  rw [replicate_zero, nil_append, nil_append] at hread
  rw [openLong_append, readQuoted.eq_1, dropFirstNewline_openLong hbody, hread]

theorem readQuoted_longLiteral {cs : List Char} (htext : ∀ c ∈ cs, isHidden c = false)
    (hruns : longestRun '\'' 0 cs ≤ 2) (rest : List Char) :
    readQuoted (openLong '\'' cs ++ (cs ++ (replicate 3 '\'' ++ '\n' :: rest))) =
      some (cs, '\n' :: rest) := by
  have hbody : '\n' ∉ cs → ∀ d ds,
      cs ++ (replicate 3 '\'' ++ '\n' :: rest) = d :: ds → d ≠ '\n' ∧ d ≠ '\r' := by
    intro hlong d ds heq
    cases cs with
    | nil =>
      obtain rfl := (cons.inj heq).1
      decide
    | cons c cs =>
      obtain rfl := (cons.inj heq).1
      have hnewline : c ≠ '\n' := fun h => hlong (h ▸ mem_cons_self)
      exact ne_newline_of_isText (isText_of_not_hidden (htext c mem_cons_self) hnewline)
  have hread := readLongLiteral_append htext hruns rest
  rw [replicate_zero, nil_append, nil_append] at hread
  rw [openLong_append, readQuoted.eq_3, dropFirstNewline_openLong hbody, hread]

theorem not_mem_of_longestRun {quote : Char} {cs : List Char} (h : longestRun quote 0 cs = 0) :
    quote ∉ cs := by
  induction cs with
  | nil => exact not_mem_nil
  | cons c cs ih =>
    rw [longestRun] at h
    split_ifs at h with hquote
    · have := le_longestRun quote (0 + 1) cs
      omega
    · rw [mem_cons, not_or]
      exact ⟨Ne.symm hquote, ih (by omega)⟩

/-- Between single quotes stands only what can. -/
theorem Quoting.shows_of_literal {cs : List Char} (h : Quoting.of cs = .literal) :
    ∀ c ∈ cs, isText c = true ∧ c ≠ '\'' := by
  unfold Quoting.of at h
  dsimp only at h
  split_ifs at h with hbasic hliteral
  simp only [Bool.and_eq_true, Bool.not_eq_true', decide_eq_true_eq, any_eq_false] at hliteral
  obtain ⟨⟨hshown, hsingles⟩, hline⟩ := hliteral
  intro c hc
  have hnewline : c ≠ '\n' := by
    rintro rfl
    rw [contains_iff_mem.2 hc] at hline
    cases hline
  have htext := isText_of_not_hidden (Bool.eq_false_iff.2 (hshown c hc)) hnewline
  exact ⟨htext, fun heq => not_mem_of_longestRun hsingles (heq ▸ hc)⟩

theorem Quoting.shows_of_longLiteral {cs : List Char} (h : Quoting.of cs = .longLiteral) :
    (∀ c ∈ cs, isHidden c = false) ∧ longestRun '\'' 0 cs ≤ 2 := by
  unfold Quoting.of at h
  dsimp only at h
  split_ifs at h with hbasic hliteral hlongBasic hlongLiteral
  simp only [Bool.and_eq_true, Bool.not_eq_true', decide_eq_true_eq, any_eq_false] at hlongLiteral
  exact ⟨fun c hc => Bool.eq_false_iff.2 (hlongLiteral.1 c hc), hlongLiteral.2⟩

/-- A quoted text is read back, whatever stands on the lines after it. -/
theorem readQuoted_writeQuoted (text : String) (rest : List Char) :
    readQuoted (writeQuoted text ++ '\n' :: rest) = some (text.toList, '\n' :: rest) := by
  unfold writeQuoted
  dsimp only
  split
  · rw [append_assoc, singleton_append]
    exact readQuoted_basic text.toList rest
  · next h =>
    rw [append_assoc, singleton_append]
    exact readQuoted_literal (Quoting.shows_of_literal h) rest
  · rw [append_assoc, append_assoc]
    exact readQuoted_longBasic text.toList rest
  · next h =>
    obtain ⟨htext, hruns⟩ := Quoting.shows_of_longLiteral h
    rw [append_assoc, append_assoc]
    exact readQuoted_longLiteral htext hruns rest

/-- The first two of the five quotes at the end belong to the text. -/
example : writeQuoted "it's \"\"" = "\"\"\"it's \"\"\"\"\"".toList := by decide

end PeerTransfer.Toml
