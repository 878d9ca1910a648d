import Mathlib.Tactic
import PeerTransfer.Text.Utf8

/-!
# UTF-8 in both directions

The bytes of a character are read as that character and nothing more, whatever bytes follow
(`decodeFrom_utf8EncodeChar_append`). So a text is read back from its bytes (`decode_encode`). The
four lemmas before it go through the four lengths of a character, each with the code points that
have it.

No other bytes are read as that text (`encode_of_decode`): the bounds on the second byte leave no
overlong form and no surrogate. In particular a zero byte is read as a zero character only
(`zero_mem_encode`).
-/

namespace PeerTransfer.Text.Utf8

/-- A byte given by a number below 256 has that number. -/
theorem toNat_ofNat_of_lt {n : Nat} (h : n < 256) : (UInt8.ofNat n).toNat = n := by
  rw [UInt8.toNat_ofNat']
  exact Nat.mod_eq_of_lt h

/-- A byte with the bits `10` in front is a continuation byte, and its low bits are read back. -/
theorem isTail_ofNat (v : Nat) : IsTail (UInt8.ofNat (v % 64 + 0x80)) := by
  have h : (UInt8.ofNat (v % 64 + 0x80)).toNat = v % 64 + 0x80 := toNat_ofNat_of_lt (by omega)
  unfold IsTail
  rw [UInt8.le_iff_toNat_le, UInt8.le_iff_toNat_le, h]
  change 128 ≤ v % 64 + 128 ∧ v % 64 + 128 ≤ 191
  omega

theorem tail_ofNat (v : Nat) : tail (UInt8.ofNat (v % 64 + 0x80)) = v % 64 := by
  unfold tail
  rw [toNat_ofNat_of_lt (by omega)]
  omega

theorem decodeFrom_one {v : Nat} (h : v ≤ 0x7f) (index : Nat) (rest : Bytes) :
    decodeFrom index (UInt8.ofNat v :: rest) =
      (decodeFrom (index + 1) rest).map (Char.ofNat v :: ·) := by
  have hv : (UInt8.ofNat v).toNat = v := toNat_ofNat_of_lt (by omega)
  have hlt : UInt8.ofNat v < 0x80 := by
    rw [UInt8.lt_iff_toNat_lt, hv]
    change v < 128
    omega
  rw [decodeFrom.eq_def]
  simp only [if_pos hlt, hv]

theorem decodeFrom_two {v : Nat} (h : 0x7f < v) (h' : v ≤ 0x7ff) (index : Nat) (rest : Bytes) :
    decodeFrom index (UInt8.ofNat (v / 64 % 32 + 0xc0) :: UInt8.ofNat (v % 64 + 0x80) :: rest) =
      (decodeFrom (index + 2) rest).map (Char.ofNat v :: ·) := by
  set b₀ := UInt8.ofNat (v / 64 % 32 + 0xc0) with hb₀
  have hv : b₀.toNat = v / 64 % 32 + 0xc0 := toNat_ofNat_of_lt (by omega)
  have h₁ : ¬b₀ < 0x80 := by
    rw [UInt8.lt_iff_toNat_lt, hv]
    change ¬_ < 128
    omega
  have h₂ : 0xC2 ≤ b₀ ∧ b₀ ≤ 0xDF := by
    rw [UInt8.le_iff_toNat_le, UInt8.le_iff_toNat_le, hv]
    change 194 ≤ _ ∧ _ ≤ 223
    omega
  have hvalue : b₀.toNat % 32 * 64 + tail (UInt8.ofNat (v % 64 + 0x80)) = v := by
    rw [hv, tail_ofNat]
    omega
  rw [decodeFrom.eq_def]
  simp only [if_neg h₁, if_pos h₂, isTail_ofNat, not_true_eq_false, if_false]
  rw [hvalue]

theorem decodeFrom_three {v : Nat} (h : 0x7ff < v) (h' : v ≤ 0xffff)
    (hs : v < 0xd800 ∨ 0xdfff < v) (index : Nat) (rest : Bytes) :
    decodeFrom index (UInt8.ofNat (v / 4096 % 16 + 0xe0) ::
        UInt8.ofNat (v / 64 % 64 + 0x80) :: UInt8.ofNat (v % 64 + 0x80) :: rest) =
      (decodeFrom (index + 3) rest).map (Char.ofNat v :: ·) := by
  set b₀ := UInt8.ofNat (v / 4096 % 16 + 0xe0) with hb₀
  have hv : b₀.toNat = v / 4096 % 16 + 0xe0 := toNat_ofNat_of_lt (by omega)
  have hw : (UInt8.ofNat (v / 64 % 64 + 0x80)).toNat = v / 64 % 64 + 0x80 :=
    toNat_ofNat_of_lt (by omega)
  have h₁ : ¬b₀ < 0x80 := by
    rw [UInt8.lt_iff_toNat_lt, hv]
    change ¬_ < 128
    omega
  have h₂ : ¬(0xC2 ≤ b₀ ∧ b₀ ≤ 0xDF) := by
    rw [UInt8.le_iff_toNat_le, UInt8.le_iff_toNat_le, hv]
    change ¬(194 ≤ _ ∧ _ ≤ 223)
    omega
  have h₃ : 0xE0 ≤ b₀ ∧ b₀ ≤ 0xEF := by
    rw [UInt8.le_iff_toNat_le, UInt8.le_iff_toNat_le, hv]
    change 224 ≤ _ ∧ _ ≤ 239
    omega
  -- The lead bytes `E0` and `ED` narrow the second byte: no overlong form, no surrogate.
  have hsecond : IsSecondOfThree b₀ (UInt8.ofNat (v / 64 % 64 + 0x80)) := by
    have hE0 : b₀ = 0xE0 ↔ v / 4096 % 16 + 0xe0 = 0xe0 := by rw [← UInt8.toNat_inj, hv]; rfl
    have hED : b₀ = 0xED ↔ v / 4096 % 16 + 0xe0 = 0xed := by rw [← UInt8.toNat_inj, hv]; rfl
    unfold IsSecondOfThree
    rw [UInt8.le_iff_toNat_le, UInt8.le_iff_toNat_le, hw]
    simp only [hE0, hED]
    constructor
    · split_ifs with hc
      · change 160 ≤ _
        omega
      · change 128 ≤ _
        omega
    · split_ifs with hc
      · change _ ≤ 159
        omega
      · change _ ≤ 191
        omega
  have hvalue : (b₀.toNat % 16 * 64 + tail (UInt8.ofNat (v / 64 % 64 + 0x80))) * 64 +
      tail (UInt8.ofNat (v % 64 + 0x80)) = v := by
    rw [hv, tail_ofNat, tail_ofNat]
    omega
  rw [decodeFrom.eq_def]
  simp only [if_neg h₁, if_neg h₂, if_pos h₃, hsecond, isTail_ofNat, not_true_eq_false, if_false]
  rw [hvalue]

theorem decodeFrom_four {v : Nat} (h : 0xffff < v) (h' : v ≤ 0x10ffff) (index : Nat)
    (rest : Bytes) :
    decodeFrom index (UInt8.ofNat (v / 262144 % 8 + 0xf0) ::
        UInt8.ofNat (v / 4096 % 64 + 0x80) :: UInt8.ofNat (v / 64 % 64 + 0x80) ::
        UInt8.ofNat (v % 64 + 0x80) :: rest) =
      (decodeFrom (index + 4) rest).map (Char.ofNat v :: ·) := by
  set b₀ := UInt8.ofNat (v / 262144 % 8 + 0xf0) with hb₀
  have hv : b₀.toNat = v / 262144 % 8 + 0xf0 := toNat_ofNat_of_lt (by omega)
  have hw : (UInt8.ofNat (v / 4096 % 64 + 0x80)).toNat = v / 4096 % 64 + 0x80 :=
    toNat_ofNat_of_lt (by omega)
  have h₁ : ¬b₀ < 0x80 := by
    rw [UInt8.lt_iff_toNat_lt, hv]
    change ¬_ < 128
    omega
  have h₂ : ¬(0xC2 ≤ b₀ ∧ b₀ ≤ 0xDF) := by
    rw [UInt8.le_iff_toNat_le, UInt8.le_iff_toNat_le, hv]
    change ¬(194 ≤ _ ∧ _ ≤ 223)
    omega
  have h₃ : ¬(0xE0 ≤ b₀ ∧ b₀ ≤ 0xEF) := by
    rw [UInt8.le_iff_toNat_le, UInt8.le_iff_toNat_le, hv]
    change ¬(224 ≤ _ ∧ _ ≤ 239)
    omega
  have h₄ : 0xF0 ≤ b₀ ∧ b₀ ≤ 0xF4 := by
    rw [UInt8.le_iff_toNat_le, UInt8.le_iff_toNat_le, hv]
    change 240 ≤ _ ∧ _ ≤ 244
    omega
  have hsecond : IsSecondOfFour b₀ (UInt8.ofNat (v / 4096 % 64 + 0x80)) := by
    have hF0 : b₀ = 0xF0 ↔ v / 262144 % 8 + 0xf0 = 0xf0 := by rw [← UInt8.toNat_inj, hv]; rfl
    have hF4 : b₀ = 0xF4 ↔ v / 262144 % 8 + 0xf0 = 0xf4 := by rw [← UInt8.toNat_inj, hv]; rfl
    unfold IsSecondOfFour
    rw [UInt8.le_iff_toNat_le, UInt8.le_iff_toNat_le, hw]
    simp only [hF0, hF4]
    constructor
    · split_ifs with hc
      · change 144 ≤ _
        omega
      · change 128 ≤ _
        omega
    · split_ifs with hc
      · change _ ≤ 143
        omega
      · change _ ≤ 191
        omega
  have hvalue : ((b₀.toNat % 8 * 64 + tail (UInt8.ofNat (v / 4096 % 64 + 0x80))) * 64 +
      tail (UInt8.ofNat (v / 64 % 64 + 0x80))) * 64 + tail (UInt8.ofNat (v % 64 + 0x80)) = v := by
    rw [hv, tail_ofNat, tail_ofNat, tail_ofNat]
    omega
  rw [decodeFrom.eq_def]
  simp only [if_neg h₁, if_neg h₂, if_neg h₃, if_pos h₄, hsecond, isTail_ofNat, not_true_eq_false,
    if_false]
  rw [hvalue]

/-- The bytes of a character are read as that character. -/
theorem decodeFrom_utf8EncodeChar_append (c : Char) (index : Nat) (rest : Bytes) :
    ∃ next, decodeFrom index (String.utf8EncodeChar c ++ rest) =
      (decodeFrom next rest).map (c :: ·) := by
  have hc : Char.ofNat c.val.toNat = c := c.ofNat_toNat
  have hvalid := c.valid
  simp only [UInt32.isValidChar, Nat.isValidChar] at hvalid
  simp only [String.utf8EncodeChar]
  split_ifs with h₁ h₂ h₃
  · exact ⟨_, (decodeFrom_one h₁ index rest).trans (by rw [hc])⟩
  · exact ⟨_, (decodeFrom_two (by omega) h₂ index rest).trans (by rw [hc])⟩
  · exact ⟨_, (decodeFrom_three (by omega) h₃ (by omega) index rest).trans (by rw [hc])⟩
  · exact ⟨_, (decodeFrom_four (by omega) (by omega) index rest).trans (by rw [hc])⟩

theorem decodeFrom_flatMap (cs : List Char) (index : Nat) :
    decodeFrom index (cs.flatMap String.utf8EncodeChar) = .ok cs := by
  induction cs generalizing index with
  | nil => rfl
  | cons c cs ih =>
    obtain ⟨next, h⟩ :=
      decodeFrom_utf8EncodeChar_append c index (cs.flatMap String.utf8EncodeChar)
    rw [List.flatMap_cons, h, ih next]
    rfl

/-- A text is read back from its bytes. -/
@[simp] theorem decode_encode (text : String) : decode (encode text) = .ok text := by
  unfold decode encode
  rw [decodeFrom_flatMap]
  exact congrArg Except.ok String.ofList_toList

/-! ## Writing back what was read -/

theorem ofNat_eq_of_toNat {n : Nat} (b : UInt8) (h : n = b.toNat) : UInt8.ofNat n = b := by
  rw [h, UInt8.ofNat_toNat]

theorem toNat_val_ofNat {v : Nat} (h : v.isValidChar) : (Char.ofNat v).val.toNat = v := by
  unfold Char.ofNat
  rw [dif_pos h]
  rfl

theorem isTail_iff (b : UInt8) : IsTail b ↔ 128 ≤ b.toNat ∧ b.toNat ≤ 191 := by
  unfold IsTail
  rw [UInt8.le_iff_toNat_le, UInt8.le_iff_toNat_le]
  rfl

theorem isSecondOfThree_iff (lead b : UInt8) :
    IsSecondOfThree lead b ↔ (if lead.toNat = 224 then 160 else 128) ≤ b.toNat ∧
      b.toNat ≤ (if lead.toNat = 237 then 159 else 191) := by
  have hE0 : lead = 0xE0 ↔ lead.toNat = 224 := UInt8.toNat_inj.symm
  have hED : lead = 0xED ↔ lead.toNat = 237 := UInt8.toNat_inj.symm
  unfold IsSecondOfThree
  rw [UInt8.le_iff_toNat_le, UInt8.le_iff_toNat_le, apply_ite UInt8.toNat, apply_ite UInt8.toNat]
  simp only [hE0, hED]
  rfl

theorem isSecondOfFour_iff (lead b : UInt8) :
    IsSecondOfFour lead b ↔ (if lead.toNat = 240 then 144 else 128) ≤ b.toNat ∧
      b.toNat ≤ (if lead.toNat = 244 then 143 else 191) := by
  have hF0 : lead = 0xF0 ↔ lead.toNat = 240 := UInt8.toNat_inj.symm
  have hF4 : lead = 0xF4 ↔ lead.toNat = 244 := UInt8.toNat_inj.symm
  unfold IsSecondOfFour
  rw [UInt8.le_iff_toNat_le, UInt8.le_iff_toNat_le, apply_ite UInt8.toNat, apply_ite UInt8.toNat]
  simp only [hF0, hF4]
  rfl

theorem utf8EncodeChar_one {b₀ : UInt8} (h₀ : b₀ < 0x80) :
    String.utf8EncodeChar (Char.ofNat b₀.toNat) = [b₀] := by
  rw [UInt8.lt_iff_toNat_lt] at h₀
  change b₀.toNat < 128 at h₀
  have hvalid : b₀.toNat.isValidChar := .inl (by omega)
  unfold String.utf8EncodeChar
  simp only [toNat_val_ofNat hvalid]
  rw [if_pos (by omega), ofNat_eq_of_toNat b₀ rfl]

theorem utf8EncodeChar_two {b₀ b₁ : UInt8} (h₀ : 0xC2 ≤ b₀ ∧ b₀ ≤ 0xDF) (h₁ : IsTail b₁) :
    String.utf8EncodeChar (Char.ofNat (b₀.toNat % 32 * 64 + tail b₁)) = [b₀, b₁] := by
  rw [UInt8.le_iff_toNat_le, UInt8.le_iff_toNat_le] at h₀
  change 194 ≤ b₀.toNat ∧ b₀.toNat ≤ 223 at h₀
  rw [isTail_iff] at h₁
  unfold tail
  set v := b₀.toNat % 32 * 64 + b₁.toNat % 64 with hv
  have hvalid : v.isValidChar := .inl (by omega)
  unfold String.utf8EncodeChar
  simp only [toNat_val_ofNat hvalid]
  rw [if_neg (by omega), if_pos (by omega), ofNat_eq_of_toNat b₀ (by omega),
    ofNat_eq_of_toNat b₁ (by omega)]

theorem utf8EncodeChar_three {b₀ b₁ b₂ : UInt8} (h₀ : 0xE0 ≤ b₀ ∧ b₀ ≤ 0xEF)
    (h₁ : IsSecondOfThree b₀ b₁) (h₂ : IsTail b₂) :
    String.utf8EncodeChar (Char.ofNat ((b₀.toNat % 16 * 64 + tail b₁) * 64 + tail b₂)) =
      [b₀, b₁, b₂] := by
  rw [UInt8.le_iff_toNat_le, UInt8.le_iff_toNat_le] at h₀
  change 224 ≤ b₀.toNat ∧ b₀.toNat ≤ 239 at h₀
  rw [isSecondOfThree_iff] at h₁
  rw [isTail_iff] at h₂
  unfold tail
  set v := (b₀.toNat % 16 * 64 + b₁.toNat % 64) * 64 + b₂.toNat % 64 with hv
  have hvalid : v.isValidChar := by
    unfold Nat.isValidChar
    split_ifs at h₁ <;> omega
  have hlarge : 0x7ff < v := by
    split_ifs at h₁ <;> omega
  have hsecond : 128 ≤ b₁.toNat ∧ b₁.toNat ≤ 191 := by
    split_ifs at h₁ <;> omega
  unfold String.utf8EncodeChar
  simp only [toNat_val_ofNat hvalid]
  rw [if_neg (by omega), if_neg (by omega), if_pos (by omega), ofNat_eq_of_toNat b₀ (by omega),
    ofNat_eq_of_toNat b₁ (by omega), ofNat_eq_of_toNat b₂ (by omega)]

theorem utf8EncodeChar_four {b₀ b₁ b₂ b₃ : UInt8} (h₀ : 0xF0 ≤ b₀ ∧ b₀ ≤ 0xF4)
    (h₁ : IsSecondOfFour b₀ b₁) (h₂ : IsTail b₂) (h₃ : IsTail b₃) :
    String.utf8EncodeChar (Char.ofNat
        (((b₀.toNat % 8 * 64 + tail b₁) * 64 + tail b₂) * 64 + tail b₃)) =
      [b₀, b₁, b₂, b₃] := by
  rw [UInt8.le_iff_toNat_le, UInt8.le_iff_toNat_le] at h₀
  change 240 ≤ b₀.toNat ∧ b₀.toNat ≤ 244 at h₀
  rw [isSecondOfFour_iff] at h₁
  rw [isTail_iff] at h₂ h₃
  unfold tail
  set v := ((b₀.toNat % 8 * 64 + b₁.toNat % 64) * 64 + b₂.toNat % 64) * 64 + b₃.toNat % 64 with hv
  have hrange : 0xffff < v ∧ v < 0x110000 := by
    split_ifs at h₁ <;> omega
  have hsecond : 128 ≤ b₁.toNat ∧ b₁.toNat ≤ 191 := by
    split_ifs at h₁ <;> omega
  have hvalid : v.isValidChar := .inr (by omega)
  unfold String.utf8EncodeChar
  simp only [toNat_val_ofNat hvalid]
  rw [if_neg (by omega), if_neg (by omega), if_neg (by omega), ofNat_eq_of_toNat b₀ (by omega),
    ofNat_eq_of_toNat b₁ (by omega), ofNat_eq_of_toNat b₂ (by omega),
    ofNat_eq_of_toNat b₃ (by omega)]

theorem map_cons_eq_ok {result : Except Refusal (List Char)} {c : Char} {cs : List Char}
    (h : result.map (c :: ·) = .ok cs) : ∃ rest, result = .ok rest ∧ cs = c :: rest := by
  cases result with
  | error refusal => cases h
  | ok rest =>
    cases h
    exact ⟨rest, rfl, rfl⟩

theorem flatMap_of_decodeFrom {index : Nat} {bytes : Bytes} {cs : List Char}
    (h : decodeFrom index bytes = .ok cs) : cs.flatMap String.utf8EncodeChar = bytes := by
  -- Four of the cases of the recursion read a character; the others refuse or are at the end.
  fun_induction decodeFrom index bytes generalizing cs
  case case1 =>
    cases h
    rfl
  case case2 h₀ ih =>
    obtain ⟨cs, hrest, rfl⟩ := map_cons_eq_ok h
    rw [List.flatMap_cons, utf8EncodeChar_one h₀, ih hrest]
    rfl
  case case5 h₀ _ _ h₁ ih =>
    obtain ⟨cs, hrest, rfl⟩ := map_cons_eq_ok h
    rw [List.flatMap_cons, utf8EncodeChar_two h₀ (not_not.mp h₁), ih hrest]
    rfl
  case case10 h₀ _ h₁ _ _ h₂ ih =>
    obtain ⟨cs, hrest, rfl⟩ := map_cons_eq_ok h
    rw [List.flatMap_cons, utf8EncodeChar_three h₀ (not_not.mp h₁) (not_not.mp h₂), ih hrest]
    rfl
  case case17 h₀ _ h₁ _ h₂ _ _ h₃ ih =>
    obtain ⟨cs, hrest, rfl⟩ := map_cons_eq_ok h
    rw [List.flatMap_cons,
      utf8EncodeChar_four h₀ (not_not.mp h₁) (not_not.mp h₂) (not_not.mp h₃), ih hrest]
    rfl
  all_goals cases h

/-- The bytes that a text is read from are the bytes of that text. -/
theorem encode_of_decode {bytes : Bytes} {text : String} (h : decode bytes = .ok text) :
    encode text = bytes := by
  unfold decode at h
  cases hfrom : decodeFrom 0 bytes with
  | error refusal =>
    rw [hfrom] at h
    cases h
  | ok cs =>
    rw [hfrom] at h
    cases h
    unfold encode
    rw [String.toList_ofList]
    exact flatMap_of_decodeFrom hfrom

/-- Only the zero character is written with a zero byte. -/
theorem zero_mem_encode {text : String} : 0 ∈ encode text ↔ '\x00' ∈ text.toList := by
  unfold encode
  rw [List.mem_flatMap]
  constructor
  · rintro ⟨c, hc, hzero⟩
    have hchar : c = Char.ofNat c.val.toNat := c.ofNat_toNat.symm
    have hnonzero : ∀ n, 0 < n → n < 256 → (0 : UInt8) ≠ UInt8.ofNat n := by
      intro n hpos hlt heq
      have hnat := congrArg UInt8.toNat heq
      rw [toNat_ofNat_of_lt hlt] at hnat
      exact absurd hnat (by change ¬0 = n; omega)
    suffices hval : c.val.toNat = 0 by
      rw [hval] at hchar
      rw [hchar] at hc
      exact hc
    by_contra hpos
    unfold String.utf8EncodeChar at hzero
    simp only at hzero
    split_ifs at hzero <;> simp only [List.mem_cons, List.not_mem_nil, or_false] at hzero
    · exact hnonzero _ (by omega) (by omega) hzero
    · rcases hzero with hzero | hzero <;> exact hnonzero _ (by omega) (by omega) hzero
    · rcases hzero with hzero | hzero | hzero <;> exact hnonzero _ (by omega) (by omega) hzero
    · rcases hzero with hzero | hzero | hzero | hzero <;>
        exact hnonzero _ (by omega) (by omega) hzero
  · intro hc
    exact ⟨'\x00', hc, by decide⟩

end PeerTransfer.Text.Utf8
