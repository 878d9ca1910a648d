import PeerTransfer.Json.Value
import PeerTransfer.Text.Hex

/-!
# Writing JSON

Values are written without blanks. In a text only quotes, backslashes, control characters and
halves of surrogate pairs are escaped.
-/

namespace PeerTransfer.Json

/-- A code unit inside a text. -/
def writeUnit (unit : Nat) : List Char :=
  if unit = 0x22 then ['\\', '"']
  else if unit = 0x5C then ['\\', '\\']
  else if unit = 0x08 then ['\\', 'b']
  else if unit = 0x09 then ['\\', 't']
  else if unit = 0x0A then ['\\', 'n']
  else if unit = 0x0C then ['\\', 'f']
  else if unit = 0x0D then ['\\', 'r']
  else if unit < 0x20 || isHighHalf unit || isLowHalf unit then '\\' :: 'u' :: Text.Hex.chars 4 unit
  else [Char.ofNat unit]

/-- A text between its quotes. -/
def writeText (units : List Nat) : List Char :=
  '"' :: units.flatMap writeUnit ++ ['"']

mutual

/-- The characters of a value. -/
def write : Json → List Char
  | null => "null".toList
  | bool true => "true".toList
  | bool false => "false".toList
  | number literal => literal
  | text units => writeText units
  | array elements => '[' :: writeElements elements ++ [']']
  | object members => '\x7b' :: writeMembers members ++ ['\x7d']

/-- The elements of an array, with commas between them. -/
def writeElements : List Json → List Char
  | [] => []
  | [element] => write element
  | element :: rest => write element ++ ',' :: writeElements rest

/-- The members of an object, with commas between them. -/
def writeMembers : List (List Nat × Json) → List Char
  | [] => []
  | [(name, value)] => writeText name ++ ':' :: write value
  | (name, value) :: rest => writeText name ++ ':' :: write value ++ ',' :: writeMembers rest

end

/-- The text of a value. -/
def render (json : Json) : String :=
  String.ofList (write json)

end PeerTransfer.Json
