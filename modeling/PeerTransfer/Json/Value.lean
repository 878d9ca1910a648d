/-!
# JSON values

A value keeps what its text says and no more: a number keeps its literal, and a text keeps its
code units, because half of a surrogate pair can be written though no character has it.
-/

namespace PeerTransfer

/-- A JSON value, the members of an object in the order in which they are written. -/
inductive Json where
  | null
  | bool (value : Bool)
  /-- A number by its literal. -/
  | number (literal : List Char)
  /-- A text by its code points, halves of surrogate pairs among them. -/
  | text (units : List Nat)
  | array (elements : List Json)
  | object (members : List (List Nat × Json))

namespace Json

/-- The first half of a surrogate pair. -/
def isHighHalf (unit : Nat) : Bool :=
  0xD800 ≤ unit && unit < 0xDC00

/-- The second half of a surrogate pair. -/
def isLowHalf (unit : Nat) : Bool :=
  0xDC00 ≤ unit && unit < 0xE000

/-- The characters that code units stand for; a half without the other stands for none. -/
def chars? : List Nat → Option (List Char)
  | [] => some []
  | unit :: rest =>
    if isHighHalf unit then
      match rest with
      | [] => none
      | low :: rest =>
        if isLowHalf low then
          (chars? rest).map
            (Char.ofNat ((unit - 0xD800) * 0x400 + (low - 0xDC00) + 0x10000) :: ·)
        else none
    else if isLowHalf unit then none
    else (chars? rest).map (Char.ofNat unit :: ·)

/-- The text that code units stand for. -/
def string? (units : List Nat) : Option String :=
  (chars? units).map String.ofList

/-- The code units of a text. -/
def unitsOf (text : String) : List Nat :=
  text.toList.map Char.toNat

/-- A text as a value. -/
def ofString (value : String) : Json :=
  .text (unitsOf value)

/-- A natural number as a value. -/
def ofNat (n : Nat) : Json :=
  .number (Nat.repr n).toList

/-- The text that a value is. -/
def asString? : Json → Option String
  | text units => string? units
  | _ => none

/-- The number of 64 bits that a value is: digits only, with neither sign nor fraction nor
exponent. -/
def asUInt64? : Json → Option UInt64
  | number literal =>
    if literal.all Char.isDigit then
      let n := literal.foldl (fun n c => 10 * n + (c.toNat - '0'.toNat)) 0
      if n < UInt64.size then some (UInt64.ofNat n) else none
    else none
  | _ => none

/-- The members of an object, each name a proper text. -/
def members? : Json → Option (List (String × Json))
  | object members => members.mapM fun (name, value) => (string? name).map (·, value)
  | _ => none

end Json

end PeerTransfer
