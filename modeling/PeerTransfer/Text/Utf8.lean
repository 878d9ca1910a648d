import PeerTransfer.Bytes

/-!
# UTF-8

Texts as byte strings, and back. A byte string that is no text is refused at the first sequence
that no character has, with the length of the text before it.
-/

namespace PeerTransfer.Text.Utf8

/-- Why a byte string is no text. -/
inductive Refusal where
  /-- The `count` bytes at `index` begin no character. -/
  | invalid (count index : Nat)
  /-- The bytes end inside the character that begins at `index`. -/
  | incomplete (index : Nat)
  deriving DecidableEq, Repr

/-- The wording of a refusal. -/
def Refusal.message : Refusal → String
  | invalid count index => s!"invalid utf-8 sequence of {count} bytes from index {index}"
  | incomplete index => s!"incomplete utf-8 byte sequence from index {index}"

/-- The bytes of a text. -/
def encode (text : String) : Bytes :=
  text.toList.flatMap String.utf8EncodeChar

/-- The low six bits of a continuation byte. -/
def tail (b : UInt8) : Nat :=
  b.toNat % 64

/-- `b` may follow the lead byte of a character. -/
def IsTail (b : UInt8) : Prop :=
  0x80 ≤ b ∧ b ≤ 0xBF

/-- `b` may follow the lead byte `lead` of three: no overlong form and no surrogate. -/
def IsSecondOfThree (lead b : UInt8) : Prop :=
  (if lead = 0xE0 then 0xA0 else 0x80) ≤ b ∧ b ≤ (if lead = 0xED then 0x9F else 0xBF)

/-- `b` may follow the lead byte `lead` of four: no overlong form, nothing above `U+10FFFF`. -/
def IsSecondOfFour (lead b : UInt8) : Prop :=
  (if lead = 0xF0 then 0x90 else 0x80) ≤ b ∧ b ≤ (if lead = 0xF4 then 0x8F else 0xBF)

instance (b : UInt8) : Decidable (IsTail b) := inferInstanceAs (Decidable (_ ∧ _))

instance (lead b : UInt8) : Decidable (IsSecondOfThree lead b) :=
  inferInstanceAs (Decidable (_ ∧ _))

instance (lead b : UInt8) : Decidable (IsSecondOfFour lead b) :=
  inferInstanceAs (Decidable (_ ∧ _))

/-- The characters of the bytes that stand at `index` of a longer byte string. -/
def decodeFrom (index : Nat) : Bytes → Except Refusal (List Char)
  | [] => .ok []
  | b₀ :: rest =>
    if b₀ < 0x80 then
      (decodeFrom (index + 1) rest).map (Char.ofNat b₀.toNat :: ·)
    else if 0xC2 ≤ b₀ ∧ b₀ ≤ 0xDF then
      match rest with
      | [] => .error (.incomplete index)
      | b₁ :: rest =>
        if ¬IsTail b₁ then .error (.invalid 1 index)
        else (decodeFrom (index + 2) rest).map
          (Char.ofNat (b₀.toNat % 32 * 64 + tail b₁) :: ·)
    else if 0xE0 ≤ b₀ ∧ b₀ ≤ 0xEF then
      match rest with
      | [] => .error (.incomplete index)
      | b₁ :: rest =>
        if ¬IsSecondOfThree b₀ b₁ then .error (.invalid 1 index)
        else match rest with
        | [] => .error (.incomplete index)
        | b₂ :: rest =>
          if ¬IsTail b₂ then .error (.invalid 2 index)
          else (decodeFrom (index + 3) rest).map
            (Char.ofNat ((b₀.toNat % 16 * 64 + tail b₁) * 64 + tail b₂) :: ·)
    else if 0xF0 ≤ b₀ ∧ b₀ ≤ 0xF4 then
      match rest with
      | [] => .error (.incomplete index)
      | b₁ :: rest =>
        if ¬IsSecondOfFour b₀ b₁ then .error (.invalid 1 index)
        else match rest with
        | [] => .error (.incomplete index)
        | b₂ :: rest =>
          if ¬IsTail b₂ then .error (.invalid 2 index)
          else match rest with
          | [] => .error (.incomplete index)
          | b₃ :: rest =>
            if ¬IsTail b₃ then .error (.invalid 3 index)
            else (decodeFrom (index + 4) rest).map
              (Char.ofNat (((b₀.toNat % 8 * 64 + tail b₁) * 64 + tail b₂) * 64 + tail b₃) :: ·)
    else .error (.invalid 1 index)

/-- The text that the bytes encode. -/
def decode (bytes : Bytes) : Except Refusal String :=
  (decodeFrom 0 bytes).map String.ofList

end PeerTransfer.Text.Utf8
