import PeerTransfer.Bytes

/-!
# Hexadecimal digits

Digits are written in lower case and read in either case.
-/

namespace PeerTransfer.Text.Hex

/-- The lower-case character of a digit. -/
def digitChar (d : Fin 16) : Char :=
  if d.val < 10 then Char.ofNat ('0'.toNat + d.val) else Char.ofNat ('a'.toNat + (d.val - 10))

/-- The digit that a character stands for. -/
def digit? (c : Char) : Option (Fin 16) :=
  if '0' ≤ c ∧ c ≤ '9' then some (Fin.ofNat 16 (c.toNat - '0'.toNat))
  else if 'a' ≤ c ∧ c ≤ 'f' then some (Fin.ofNat 16 (c.toNat - 'a'.toNat + 10))
  else if 'A' ≤ c ∧ c ≤ 'F' then some (Fin.ofNat 16 (c.toNat - 'A'.toNat + 10))
  else none

/-- The number that digits stand for, the most significant first. -/
def ofDigits (digits : List (Fin 16)) : Nat :=
  digits.foldl (fun n d => 16 * n + d.val) 0

/-- The number that characters stand for. -/
def number? (cs : List Char) : Option Nat :=
  (cs.mapM digit?).map ofDigits

/-- The last `width` digits of a number. -/
def digits : Nat → Nat → List (Fin 16)
  | 0, _ => []
  | width + 1, n => digits width (n / 16) ++ [Fin.ofNat 16 n]

/-- The last `width` digits of a number as characters. -/
def chars (width n : Nat) : List Char :=
  (digits width n).map digitChar

/-- Two digits for each byte. -/
def encode (bytes : Bytes) : String :=
  String.ofList (bytes.flatMap fun b => chars 2 b.toNat)

/-- The byte of each pair of digits. -/
def decodeChars? : List Char → Option Bytes
  | [] => some []
  | [_] => none
  | a :: b :: rest => do
    let byte ← number? [a, b]
    let bytes ← decodeChars? rest
    return UInt8.ofNat byte :: bytes

/-- The byte string that a text shows digit by digit. -/
def decode? (text : String) : Option Bytes :=
  decodeChars? text.toList

end PeerTransfer.Text.Hex
