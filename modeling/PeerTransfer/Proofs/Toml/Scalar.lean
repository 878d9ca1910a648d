import PeerTransfer.Proofs.Toml.Quoted
import PeerTransfer.Toml.Reader

/-!
# Scalars that are read back

A value is `Written` as some characters if these are read as the value with a line end behind them.
Quoted texts, natural numbers of 63 bits and truth values are.
-/

namespace PeerTransfer.Toml

open List

/-- These characters are read as the value, whatever stands on the lines after it. -/
structure Written (value : Value) (cs : List Char) : Prop where
  head : ∃ c ds, cs = c :: ds ∧ isBlank c = false
  read (rest : List Char) : readValue maxDepth (cs ++ '\n' :: rest) = some (value, '\n' :: rest)

theorem readValue_eq_readScalar (depth : Nat) {c : Char} (harray : c ≠ '[') (htable : c ≠ '\x7b')
    (cs : List Char) : readValue depth (c :: cs) = readScalar (c :: cs) := by
  unfold readValue
  split
  all_goals first
    | rfl
    | next heq => exact absurd (cons.inj heq).1 harray
    | next heq => exact absurd (cons.inj heq).1 htable

theorem exists_head_writeQuoted (text : String) :
    ∃ quote cs, writeQuoted text = quote :: cs ∧ (quote = '"' ∨ quote = '\'') := by
  unfold writeQuoted
  dsimp only
  split
  · exact ⟨'"', _, rfl, .inl rfl⟩
  · exact ⟨'\'', _, rfl, .inr rfl⟩
  · exact ⟨'"', _, rfl, .inl rfl⟩
  · exact ⟨'\'', _, rfl, .inr rfl⟩

theorem written_text (text : String) : Written (.text text) (writeQuoted text) where
  head := by
    obtain ⟨quote, cs, hcs, rfl | rfl⟩ := exists_head_writeQuoted text
    · exact ⟨_, cs, hcs, by decide⟩
    · exact ⟨_, cs, hcs, by decide⟩
  read rest := by
    have hread := readQuoted_writeQuoted text rest
    obtain ⟨quote, cs, hcs, hquote⟩ := exists_head_writeQuoted text
    rw [hcs, cons_append] at hread ⊢
    have hscalar : readScalar (quote :: (cs ++ '\n' :: rest)) =
        (readQuoted (quote :: (cs ++ '\n' :: rest))).map fun read =>
          (.text (String.ofList read.1), read.2) := by
      obtain rfl | rfl := hquote
      · rfl
      · rfl
    rw [readValue_eq_readScalar maxDepth (by rintro rfl; simp at hquote)
      (by rintro rfl; simp at hquote), hscalar, hread, Option.map_some, String.ofList_toList]

theorem written_bool (b : Bool) : Written (.bool b) (if b then "true" else "false").toList := by
  cases b with
  | false => exact ⟨⟨'f', _, rfl, rfl⟩, fun _ => rfl⟩
  | true => exact ⟨⟨'t', _, rfl, rfl⟩, fun _ => rfl⟩

/-! ## Numbers -/

section Digits

variable {digits : List Char} (hdigits : ∀ c ∈ digits, c.isDigit = true) (rest : List Char)

include hdigits

/-- Digits are left behind the first of them. -/
theorem exists_of_readFixed {width n : Nat} {left : List Char}
    (h : readFixed width (digits ++ '\n' :: rest) = some (n, left)) :
    ∃ ds, (∀ c ∈ ds, c.isDigit = true) ∧ left = ds ++ '\n' :: rest := by
  unfold readFixed at h
  dsimp only at h
  split_ifs at h with htaken
  cases h
  simp only [Bool.and_eq_true, all_eq_true] at htaken
  have hwidth : width ≤ digits.length := by
    by_contra hmore
    obtain ⟨more, rfl⟩ := Nat.exists_eq_add_of_lt (not_le.1 hmore)
    have hend : '\n' ∈ take (digits.length + more + 1) (digits ++ '\n' :: rest) := by
      rw [Nat.add_assoc, take_length_add_append]
      exact mem_append_right _ mem_cons_self
    exact absurd (htaken.2 _ hend) (by decide)
  exact ⟨digits.drop width, fun c hc => hdigits c (mem_of_mem_drop hc),
    drop_append_of_le_length hwidth⟩

theorem readChar_digits {c : Char} (hdigit : c.isDigit = false) (hend : c ≠ '\n') :
    readChar c (digits ++ '\n' :: rest) = none := by
  cases digits with
  | nil => exact if_neg (Ne.symm hend)
  | cons d ds => exact if_neg (Text.ne_of_kind (hdigits d mem_cons_self) hdigit)

/-- No date and no time is written with digits alone. -/
theorem readMoment_digits : readMoment (digits ++ '\n' :: rest) = none := by
  have hdate : readDate (digits ++ '\n' :: rest) = none := by
    unfold readDate
    cases hfixed : readFixed 4 (digits ++ '\n' :: rest) with
    | none => rfl
    | some read =>
      obtain ⟨ds, hds, hleft⟩ := exists_of_readFixed hdigits rest hfixed
      change (readChar '-' read.2).bind _ = none
      rw [hleft, readChar_digits hds rest (by decide) (by decide)]
      rfl
  have htime : readTime (digits ++ '\n' :: rest) = none := by
    unfold readTime readHourMinute
    cases hfixed : readFixed 2 (digits ++ '\n' :: rest) with
    | none => rfl
    | some read =>
      obtain ⟨ds, hds, hleft⟩ := exists_of_readFixed hdigits rest hfixed
      change ((readChar ':' read.2).bind _).bind _ = none
      rw [hleft, readChar_digits hds rest (by decide) (by decide)]
      rfl
  rw [readMoment, hdate, htime]
  rfl

theorem readDigits_append : readDigits Char.isDigit (digits ++ '\n' :: rest) =
    (digits, '\n' :: rest) := by
  induction digits with
  | nil => rfl
  | cons c digits ih =>
    obtain ⟨hc, hdigits⟩ := forall_mem_cons.1 hdigits
    unfold readDigits
    simp only [cons_append, hc, if_true, ih hdigits]

end Digits

theorem readWhole_repr (n : Nat) (rest : List Char) :
    readWhole ((Nat.repr n).toList ++ '\n' :: rest) = some ((Nat.repr n).toList, '\n' :: rest) := by
  obtain ⟨c, cs, hcs, hdigits, hzero⟩ := Text.exists_digits_repr n
  rw [hcs]
  by_cases hc : c = '0'
  · obtain rfl := hzero hc
    cases hcs
    rfl
  · have hread := readDigits_append hdigits rest
    rw [cons_append] at hread ⊢
    unfold readWhole
    split
    · next heq => exact absurd (cons.inj heq).1 hc
    · rw [readRun, if_pos (hdigits c mem_cons_self), hread]

theorem readDecimal_repr {n : Nat} (h : isInt64 n = true) (rest : List Char) :
    readDecimal [] ((Nat.repr n).toList ++ '\n' :: rest) = some (.whole n, '\n' :: rest) := by
  have hfraction : readFraction ('\n' :: rest) = some ([], '\n' :: rest) := rfl
  have hexponent : readExponent ('\n' :: rest) = some (none, '\n' :: rest) := rfl
  have hvalue : signed [] (decimal (Nat.repr n).toList) = n := by
    rw [decimal, Text.foldl_repr]
    rfl
  unfold readDecimal
  rw [readWhole_repr, Option.bind_eq_bind, Option.bind_some]
  dsimp only
  rw [hfraction, Option.bind_eq_bind, Option.bind_some]
  dsimp only
  rw [hexponent, Option.bind_some, if_pos (by rfl), hvalue]
  dsimp only
  rw [if_pos h]

theorem readNumber_repr {n : Nat} (h : isInt64 n = true) (rest : List Char) :
    readNumber ((Nat.repr n).toList ++ '\n' :: rest) = some (.whole n, '\n' :: rest) := by
  have hread := readDecimal_repr h rest
  obtain ⟨c, cs, hcs, hdigits, hzero⟩ := Text.exists_digits_repr n
  have hdigit := hdigits c mem_cons_self
  rw [hcs, cons_append] at hread ⊢
  have hsign : readSign (c :: (cs ++ '\n' :: rest)) = ([], c :: (cs ++ '\n' :: rest)) := by
    unfold readSign
    split
    · next heq => exact absurd (cons.inj heq).1 (Text.ne_of_kind hdigit (by decide))
    · next heq => exact absurd (cons.inj heq).1 (Text.ne_of_kind hdigit (by decide))
    · rfl
  unfold readNumber
  split
  · next d ds heq =>
    -- A zero in front stands alone, so the line ends after it.
    obtain rfl := hzero (cons.inj heq).1
    cases hcs
    obtain rfl := (cons.inj (cons.inj heq).2).1
    exact hread
  · rw [hsign]
    split
    · next heq =>
      exact absurd (cons.inj (Prod.mk.inj heq).2).1 (Text.ne_of_kind hdigit (by decide))
    · next heq =>
      exact absurd (cons.inj (Prod.mk.inj heq).2).1 (Text.ne_of_kind hdigit (by decide))
    · next heq =>
      obtain ⟨rfl, rfl⟩ := Prod.mk.inj heq
      exact hread

theorem written_nat {n : Nat} (h : isInt64 n = true) :
    Written (.number (.whole n)) (Nat.repr n).toList where
  head := by
    obtain ⟨c, cs, hcs, hdigits, -⟩ := Text.exists_digits_repr n
    refine ⟨c, cs, hcs, ?_⟩
    simp [isBlank, Text.ne_of_kind (hdigits c mem_cons_self)]
  read rest := by
    have hnumber := readNumber_repr h rest
    obtain ⟨c, cs, hcs, hdigits, -⟩ := Text.exists_digits_repr n
    have hmoment := readMoment_digits hdigits rest
    rw [cons_append] at hmoment
    rw [hcs, cons_append] at hnumber ⊢
    have hne {d : Char} (hd : d.isDigit = false) : c ≠ d :=
      Text.ne_of_kind (hdigits c mem_cons_self) hd
    rw [readValue_eq_readScalar maxDepth (hne (by decide)) (hne (by decide))]
    unfold readScalar
    split
    all_goals first
      | next heq => exact absurd (cons.inj heq).1 (hne (by decide))
      | skip
    rw [hmoment, hnumber]
    rfl

end PeerTransfer.Toml
