import PeerTransfer.Json.Reader
import PeerTransfer.Json.Writer
import PeerTransfer.Proofs.Text.Digits

/-!
# JSON that is read back

Each reader is run on what was written, with anything behind it that can stand behind a value. A
value is `Readable` if it is read back so; texts and natural numbers are, and an object is if the
values of its members are.
-/

namespace PeerTransfer

open List

namespace Json

/-! ## Texts -/

theorem toNat_ofNat {unit : Nat} (hsmall : unit < 0x110000) (hhigh : isHighHalf unit = false)
    (hlow : isLowHalf unit = false) : (Char.ofNat unit).toNat = unit := by
  have hvalid : unit.isValidChar := by
    simp only [isHighHalf, isLowHalf, Bool.and_eq_false_iff, decide_eq_false_iff_not] at hhigh hlow
    unfold Nat.isValidChar
    omega
  rw [Char.ofNat, dif_pos hvalid]
  rfl

theorem readUnits_of_plain {c : Char} (hquote : c ≠ '"') (hslash : c ≠ '\\')
    (hcontrol : ¬c.toNat < 0x20) (rest : List Char) :
    readUnits (c :: rest) = (readUnits rest).map fun (units, rest) => (c.toNat :: units, rest) := by
  rw [readUnits.eq_5 c rest hquote (by intros; simp_all) (by intros; simp_all), if_neg hcontrol]
  cases readUnits rest <;> rfl

theorem readUnits_of_short {c : Char} {unit : Nat} (h : shortEscape? c = some unit)
    (rest : List Char) :
    readUnits ('\\' :: c :: rest) =
      (readUnits rest).map fun (units, rest) => (unit :: units, rest) := by
  have hletter : c ≠ 'u' := by
    rintro rfl
    cases h
  rw [readUnits.eq_4 c rest (by intros; simp_all), h]
  cases readUnits rest <;> rfl

theorem readUnits_of_hex {unit : Nat} (hsmall : unit < 0x10000) (rest : List Char) :
    readUnits ('\\' :: 'u' :: (Text.Hex.chars 4 unit ++ rest)) =
      (readUnits rest).map fun (units, rest) => (unit :: units, rest) := by
  have hnumber := Text.Hex.number?_chars 4 unit
  rw [Nat.mod_eq_of_lt (show unit < 16 ^ 4 by omega)] at hnumber
  change readUnits ('\\' :: 'u' :: _ :: _ :: _ :: _ :: rest) = _
  rw [readUnits.eq_3]
  change (Text.Hex.number? (Text.Hex.chars 4 unit)).bind _ = _
  rw [hnumber]
  cases readUnits rest <;> rfl

/-- A code point is read back, however it was written. -/
theorem readUnits_writeUnit {unit : Nat} (hsmall : unit < 0x110000) (rest : List Char) :
    readUnits (writeUnit unit ++ rest) =
      (readUnits rest).map fun (units, rest) => (unit :: units, rest) := by
  by_cases hquote : unit = 0x22
  · subst hquote
    exact readUnits_of_short rfl rest
  by_cases hslash : unit = 0x5C
  · subst hslash
    exact readUnits_of_short rfl rest
  by_cases hb : unit = 0x08
  · subst hb
    exact readUnits_of_short rfl rest
  by_cases ht : unit = 0x09
  · subst ht
    exact readUnits_of_short rfl rest
  by_cases hn : unit = 0x0A
  · subst hn
    exact readUnits_of_short rfl rest
  by_cases hf : unit = 0x0C
  · subst hf
    exact readUnits_of_short rfl rest
  by_cases hr : unit = 0x0D
  · subst hr
    exact readUnits_of_short rfl rest
  unfold writeUnit
  rw [if_neg hquote, if_neg hslash, if_neg hb, if_neg ht, if_neg hn, if_neg hf, if_neg hr]
  split_ifs with hescaped
  · refine readUnits_of_hex ?_ rest
    simp only [isHighHalf, isLowHalf, Bool.or_eq_true, Bool.and_eq_true, decide_eq_true_eq]
      at hescaped
    omega
  · simp only [Bool.or_eq_true, not_or, decide_eq_true_eq, Bool.not_eq_true] at hescaped
    obtain ⟨⟨hcontrol, hhigh⟩, hlow⟩ := hescaped
    have hunit := toNat_ofNat hsmall hhigh hlow
    have hread := readUnits_of_plain (c := Char.ofNat unit)
      (fun h => hquote (hunit.symm.trans (congrArg Char.toNat h)))
      (fun h => hslash (hunit.symm.trans (congrArg Char.toNat h))) (by rwa [hunit]) rest
    rwa [hunit] at hread

/-- Code points, which halves of surrogate pairs are as well. -/
def AreCodePoints (units : List Nat) : Prop :=
  ∀ unit ∈ units, unit < 0x110000

theorem readUnits_writeText {units : List Nat} (h : AreCodePoints units) (rest : List Char) :
    readUnits (units.flatMap writeUnit ++ '"' :: rest) = some (units, rest) := by
  induction units with
  | nil => exact readUnits.eq_2 rest
  | cons unit units ih =>
    obtain ⟨hunit, hunits⟩ := forall_mem_cons.1 h
    rw [flatMap_cons, append_assoc, readUnits_writeUnit hunit, ih hunits]
    rfl

theorem areCodePoints_unitsOf (text : String) : AreCodePoints (unitsOf text) := by
  intro unit hunit
  obtain ⟨c, -, rfl⟩ := mem_map.1 hunit
  have hvalid := c.valid
  unfold UInt32.isValidChar Nat.isValidChar at hvalid
  change c.val.toNat < _
  omega

@[simp] theorem string?_unitsOf (text : String) : string? (unitsOf text) = some text := by
  have hchars : ∀ cs : List Char, chars? (cs.map Char.toNat) = some cs := by
    intro cs
    induction cs with
    | nil => rfl
    | cons c cs ih =>
      have hvalid := c.valid
      unfold UInt32.isValidChar Nat.isValidChar at hvalid
      have hhigh : isHighHalf c.toNat = false := by
        simp only [isHighHalf, Bool.and_eq_false_iff, decide_eq_false_iff_not]
        change ¬_ ≤ c.val.toNat ∨ ¬c.val.toNat < _
        omega
      have hlow : isLowHalf c.toNat = false := by
        simp only [isLowHalf, Bool.and_eq_false_iff, decide_eq_false_iff_not]
        change ¬_ ≤ c.val.toNat ∨ ¬c.val.toNat < _
        omega
      rw [map_cons, chars?.eq_def]
      simp [hhigh, hlow, ih]
  rw [string?, unitsOf, hchars, Option.map_some, String.ofList_toList]

/-! ## Natural numbers -/

/-- What can stand behind a value. -/
inductive Ends : List Char → Prop
  | nil : Ends []
  | comma (rest : List Char) : Ends (',' :: rest)
  | brace (rest : List Char) : Ends ('\x7d' :: rest)

theorem readDigits_append {digits rest : List Char} (hdigits : ∀ c ∈ digits, c.isDigit = true)
    (hne : digits ≠ []) (hrest : Ends rest) :
    readDigits (digits ++ rest) = some (digits, rest) := by
  have hstop : rest.takeWhile Char.isDigit = [] ∧ rest.dropWhile Char.isDigit = rest := by
    cases hrest <;> exact ⟨rfl, rfl⟩
  unfold readDigits
  rw [takeWhile_append_of_pos hdigits, dropWhile_append_of_pos hdigits, hstop.1, hstop.2,
    append_nil]
  cases digits with
  | nil => exact absurd rfl hne
  | cons c cs => rfl

theorem readNumber_repr (n : Nat) {rest : List Char} (hrest : Ends rest) :
    readNumber ((Nat.repr n).toList ++ rest) = some ((Nat.repr n).toList, rest) := by
  obtain ⟨c, cs, hcs, hdigits, hzero⟩ := Text.exists_digits_repr n
  have hwhole : readWhole (c :: cs ++ rest) = some (c :: cs, rest) := by
    by_cases hc : c = '0'
    · obtain rfl := hzero hc
      cases hcs
      rfl
    · have hread := readDigits_append hdigits (cons_ne_nil c cs) hrest
      rw [cons_append] at hread ⊢
      unfold readWhole
      split
      · next heq => exact absurd (cons.inj heq).1 hc
      · exact hread
  have hsign : c ≠ '-' := by
    rintro rfl
    exact absurd (hdigits '-' mem_cons_self) (by decide)
  have hfraction : readFraction rest = some ([], rest) := by
    cases hrest <;> rfl
  have hexponent : readExponent rest = some ([], rest) := by
    cases hrest <;> simp [readExponent]
  rw [hcs]
  unfold readNumber
  rw [cons_append] at hwhole ⊢
  split
  next sign digits heq =>
    split at heq
    · next h => exact absurd (cons.inj h).1 hsign
    · cases heq
      rw [hwhole]
      change (readFraction rest).bind _ = _
      rw [hfraction]
      change (readExponent rest).bind _ = _
      rw [hexponent]
      change some ([] ++ (c :: cs) ++ [] ++ [], rest) = _
      rw [nil_append, append_nil, append_nil]

theorem asUInt64?_ofNat (n : UInt64) : (ofNat n.toNat).asUInt64? = some n := by
  have hdigits : (Nat.repr n.toNat).toList.all Char.isDigit = true :=
    all_eq_true.2 fun c hc => Text.isDigit_of_mem_repr hc
  unfold ofNat asUInt64?
  dsimp only
  rw [if_pos hdigits, Text.foldl_repr, if_pos n.toNat_lt, UInt64.ofNat_toNat]

/-! ## Values -/

/-- A value that is read back from what was written, whatever stands behind it, with fuel for
each of its characters. -/
structure Readable (json : Json) : Prop where
  head : ∃ c cs, write json = c :: cs ∧ isBlank c = false
  read {fuel : Nat} {rest : List Char} : (write json).length ≤ fuel → Ends rest →
    readValue fuel (write json ++ rest) = some (json, rest)

theorem Readable.skipBlanks_write {json : Json} (h : Readable json) (rest : List Char) :
    skipBlanks (write json ++ rest) = write json ++ rest := by
  obtain ⟨c, cs, hcs, hblank⟩ := h.head
  rw [hcs, cons_append, skipBlanks, dropWhile_cons_of_neg (by simp [hblank])]

theorem writeText_append (units : List Nat) (rest : List Char) :
    writeText units ++ rest = '"' :: (units.flatMap writeUnit ++ '"' :: rest) := by
  rw [writeText, cons_append, cons_append, append_assoc]
  rfl

theorem readable_text {units : List Nat} (h : AreCodePoints units) : Readable (text units) where
  head := ⟨'"', _, by rw [write, writeText]; rfl, by decide⟩
  read := by
    intro fuel rest hfuel _
    rw [write] at hfuel ⊢
    cases fuel with
    | zero => simp [writeText] at hfuel
    | succ fuel =>
      rw [writeText_append, readValue.eq_5, readUnits_writeText h]
      rfl

theorem readable_ofString (value : String) : Readable (ofString value) :=
  readable_text (areCodePoints_unitsOf value)

theorem readable_ofNat (n : Nat) : Readable (ofNat n) := by
  obtain ⟨c, cs, hcs, hdigits, -⟩ := Text.exists_digits_repr n
  have hdigit := hdigits c mem_cons_self
  -- No other value begins with a digit.
  have hne : ∀ d : Char, d.isDigit = false → c ≠ d := fun _ => Text.ne_of_kind hdigit
  have hblank : isBlank c = false := by
    simp [isBlank, hne ' ' (by decide), hne '\t' (by decide), hne '\n' (by decide),
      hne '\r' (by decide)]
  refine ⟨⟨c, cs, by rw [ofNat, write, hcs], hblank⟩, ?_⟩
  intro fuel rest hfuel hrest
  rw [ofNat, write] at hfuel ⊢
  cases fuel with
  | zero => simp [hcs] at hfuel
  | succ fuel =>
    have hread := readNumber_repr n hrest
    rw [hcs, cons_append] at hread ⊢
    have hother : ∀ (d : Char) (ds : List Char), d.isDigit = false → c :: (cs ++ rest) ≠ d :: ds :=
      fun d ds hd heq => hne d hd (cons.inj heq).1
    rw [readValue.eq_8 _ fuel (fun _ => hother 'n' _ (by decide))
      (fun _ => hother 't' _ (by decide)) (fun _ => hother 'f' _ (by decide))
      (fun _ => hother '"' _ (by decide))
      (fun _ => hother '[' _ (by decide)) (fun _ => hother '\x7b' _ (by decide)), hread]
    rfl

/-! ## Objects -/

theorem readMembers_cons {name : List Nat} {value : Json} (hname : AreCodePoints name)
    (hvalue : Readable value) {fuel : Nat} (hfuel : (write value).length ≤ fuel)
    {rest : List Char} (hrest : Ends rest) :
    readMembers (fuel + 1) (writeText name ++ ':' :: (write value ++ rest)) =
      match skipBlanks rest with
      | ',' :: rest =>
        (readMembers fuel rest).map fun (members, rest) => ((name, value) :: members, rest)
      | '\x7d' :: rest => some ([(name, value)], rest)
      | _ => none := by
  rw [writeText_append, readMembers.eq_2]
  change (readUnits (name.flatMap writeUnit ++ '"' :: ':' :: (write value ++ rest))).bind _ = _
  rw [readUnits_writeText hname]
  change (readValue fuel (skipBlanks (write value ++ rest))).bind _ = _
  rw [hvalue.skipBlanks_write, hvalue.read hfuel hrest]
  cases hrest with
  | nil => rfl
  | comma rest =>
    change (readMembers fuel rest).bind _ = (readMembers fuel rest).map _
    cases readMembers fuel rest <;> rfl
  | brace rest => rfl

theorem readMembers_writeMembers {members : List (List Nat × Json)} (hne : members ≠ [])
    (h : ∀ member ∈ members, AreCodePoints member.1 ∧ Readable member.2) {fuel : Nat}
    (hfuel : (writeMembers members).length ≤ fuel) (rest : List Char) :
    readMembers fuel (writeMembers members ++ '\x7d' :: rest) = some (members, rest) := by
  induction members generalizing fuel with
  | nil => exact absurd rfl hne
  | cons member members ih =>
    obtain ⟨name, value⟩ := member
    obtain ⟨hmember, hmembers⟩ := forall_mem_cons.1 h
    obtain ⟨hname, hvalue⟩ : AreCodePoints name ∧ Readable value := hmember
    cases fuel with
    | zero => cases members <;> simp [writeMembers, writeText] at hfuel
    | succ fuel =>
      by_cases hlast : members = []
      · subst hlast
        rw [writeMembers.eq_2] at hfuel ⊢
        have hroom : (write value).length ≤ fuel := by
          simp [writeText] at hfuel
          omega
        rw [append_assoc, cons_append, readMembers_cons hname hvalue hroom (.brace rest)]
        rfl
      · rw [writeMembers.eq_3 name value members hlast] at hfuel ⊢
        have hroom : (write value).length ≤ fuel ∧ (writeMembers members).length ≤ fuel := by
          simp [writeText] at hfuel
          omega
        have hread := ih hlast hmembers hroom.2
        simp only [append_assoc, cons_append]
        rw [readMembers_cons hname hvalue hroom.1 (.comma _)]
        change (readMembers fuel _).map _ = _
        rw [hread]
        rfl

theorem readable_object {members : List (List Nat × Json)}
    (h : ∀ member ∈ members, AreCodePoints member.1 ∧ Readable member.2) :
    Readable (object members) where
  head := ⟨'\x7b', _, by rw [write]; rfl, by decide⟩
  read := by
    intro fuel rest hfuel _
    rw [write] at hfuel ⊢
    cases fuel with
    | zero => simp at hfuel
    | succ fuel =>
      rw [cons_append, cons_append, append_assoc, readValue.eq_7]
      by_cases hnil : members = []
      · subst hnil
        rfl
      · have hroom : (writeMembers members).length ≤ fuel := by
          simp at hfuel
          omega
        have hread := readMembers_writeMembers hnil h hroom rest
        -- Members begin with a quote, which is no blank and does not end the object.
        have hhead : ∃ cs, writeMembers members = '"' :: cs := by
          obtain ⟨⟨name, value⟩, members, rfl⟩ := exists_cons_of_ne_nil hnil
          cases members with
          | nil => exact ⟨_, by rw [writeMembers.eq_2, writeText_append]⟩
          | cons member members =>
            exact ⟨_, by rw [writeMembers.eq_3 _ _ _ (by simp), append_assoc, writeText_append]⟩
        obtain ⟨cs, hcs⟩ := hhead
        rw [hcs] at hread ⊢
        change (readMembers fuel ('"' :: cs ++ '\x7d' :: rest)).map _ = _
        rw [hread]
        rfl

/-- A value that can be read back is what its text is parsed to. -/
theorem parse?_render {json : Json} (h : Readable json) : parse? json.render = some json := by
  have hfuel : (write json).length ≤ 2 * (write json).length + 2 := by omega
  have hskip := h.skipBlanks_write []
  have hread := h.read hfuel .nil
  rw [append_nil] at hskip hread
  unfold parse? render
  rw [String.toList_ofList]
  dsimp only
  rw [hskip, hread]
  rfl

end Json

end PeerTransfer
