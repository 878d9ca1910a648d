import PeerTransfer.Text.Hex
import PeerTransfer.Toml.Token

/-!
# Numbers in TOML

A whole number has 64 bits with a sign. It is decimal, or hexadecimal, octal or binary without a
sign. A number with a fraction or an exponent is kept by its literal; one that no double comes near
is refused, but only when it is positive.
-/

namespace PeerTransfer.Toml

/-- A number as it is written. -/
inductive Number where
  | whole (value : Int)
  | float (literal : List Char)
  deriving DecidableEq, Repr

/-- The whole numbers that have 64 bits. -/
def isInt64 (n : Int) : Bool :=
  -0x8000000000000000 ≤ n && n < 0x8000000000000000

/-- Reads a sign, if there is one. -/
def readSign : List Char → List Char × List Char
  | '+' :: rest => (['+'], rest)
  | '-' :: rest => (['-'], rest)
  | cs => ([], cs)

/-- Applies a sign to a magnitude. -/
def signed (sign : List Char) (n : Nat) : Int :=
  if sign = ['-'] then -(n : Int) else n

/-- Reads decimal digits; a zero in front stands alone. -/
def readWhole : List Char → Option (List Char × List Char)
  | '0' :: rest => some (['0'], rest)
  | cs => readRun Char.isDigit cs

/-- The least number that rounds to infinity as a double. -/
def overflowBound : Nat := Nat.pow 2 1024 - Nat.pow 2 970

/-- Decides `overflowBound ≤ mantissa * 10 ^ exponent`. Powers of ten are compared only between
`10 ^ 308` and `10 ^ 310`, where the number of digits does not tell. -/
def overflows (mantissa : Nat) (exponent : Int) : Bool :=
  if mantissa = 0 then false
  else
    let magnitude := ((Nat.toDigits 10 mantissa).length : Int) + exponent
    if magnitude ≤ 308 then false
    else if 310 < magnitude then true
    else if 0 ≤ exponent then overflowBound ≤ mantissa * Nat.pow 10 exponent.toNat
    else overflowBound * Nat.pow 10 (-exponent).toNat ≤ mantissa

/-- Reads the fraction of a number, if there is one. -/
def readFraction : List Char → Option (List Char × List Char)
  | '.' :: rest => readRun Char.isDigit rest
  | cs => some ([], cs)

/-- Reads the exponent of a number, if there is one. -/
def readExponent : List Char → Option (Option (List Char × List Char) × List Char)
  | c :: rest =>
    if c = 'e' || c = 'E' then do
      let (sign, rest) := readSign rest
      let (digits, rest) ← readRun Char.isDigit rest
      return (some (sign, digits), rest)
    else some (none, c :: rest)
  | [] => some (none, [])

/-- Reads a decimal number after its sign. -/
def readDecimal (sign cs : List Char) : Option (Number × List Char) := do
  let (digits, rest) ← readWhole cs
  let (fraction, rest) ← readFraction rest
  let (exponent, rest) ← readExponent rest
  if fraction = [] && exponent.isNone then
    let value := signed sign (decimal digits)
    if isInt64 value then some (.whole value, rest) else none
  else
    let (expSign, expDigits) := exponent.getD ([], [])
    let scale := signed expSign (decimal expDigits) - fraction.length
    if sign ≠ ['-'] && overflows (decimal (digits ++ fraction)) scale then none
    else some (.float (sign ++ digits ++ '.' :: fraction ++ 'e' :: expSign ++ expDigits), rest)

/-- A digit of the base that a letter after the zero stands for. -/
def radix? : Char → Option (Nat × (Char → Bool))
  | 'x' => some (16, fun c => (Text.Hex.digit? c).isSome)
  | 'o' => some (8, fun c => '0' ≤ c && c ≤ '7')
  | 'b' => some (2, fun c => c = '0' || c = '1')
  | _ => none

/-- The number that digits of a base stand for. -/
def ofRadix (base : Nat) (digits : List Char) : Nat :=
  digits.foldl (fun n c => base * n + ((Text.Hex.digit? c).map Fin.val).getD 0) 0

/-- Reads a number of any form. -/
def readNumber (cs : List Char) : Option (Number × List Char) :=
  match cs with
  | '0' :: c :: rest =>
    match radix? c with
    | some (base, isDigit) => do
      let (digits, rest) ← readRun isDigit rest
      let value := (ofRadix base digits : Int)
      if isInt64 value then some (.whole value, rest) else none
    | none => readDecimal [] cs
  | _ =>
    match readSign cs with
    | (sign, 'i' :: 'n' :: 'f' :: rest) => some (.float (sign ++ ['i', 'n', 'f']), rest)
    | (sign, 'n' :: 'a' :: 'n' :: rest) => some (.float (sign ++ ['n', 'a', 'n']), rest)
    | (sign, rest) => readDecimal sign rest

end PeerTransfer.Toml
