import PeerTransfer.Toml.Moment
import PeerTransfer.Toml.Quoted
import PeerTransfer.Toml.Value

/-!
# Reading TOML values

Values are read with a bound on how deep arrays and tables may stand inside each other, and keys
with a bound on how many parts they may have.
-/

namespace PeerTransfer.Toml

/-- Arrays and tables stand at most this deep inside each other, and a key has at most this many
parts. -/
def maxDepth : Nat := 79

/-- A character of a key without quotes. -/
def isBare (c : Char) : Bool :=
  c.isAlphanum || c = '_' || c = '-'

/-- Reads one part of a key. -/
def readKeyPart : List Char → Option (List Char × List Char)
  | '"' :: rest => readBasic rest
  | '\'' :: rest => readLiteral rest
  | cs =>
    match cs.takeWhile isBare with
    | [] => none
    | part => some (part, cs.dropWhile isBare)

/-- Reads a key of at most `parts` parts, with the blanks around each. -/
def readParts : Nat → List Char → Option (List String × List Char)
  | 0, _ => none
  | parts + 1, cs => do
    let (part, rest) ← readKeyPart (skipBlanks cs)
    match skipBlanks rest with
    | '.' :: rest =>
      let (others, rest) ← readParts parts rest
      return (String.ofList part :: others, rest)
    | rest => return ([String.ofList part], rest)

/-- Reads a key. -/
def readKey : List Char → Option (List String × List Char) :=
  readParts maxDepth

/-- Reads a key, an equals sign and a value. -/
def readPair (value : List Char → Option (Value × List Char)) (cs : List Char) :
    Option ((List String × Value) × List Char) := do
  let (key, rest) ← readKey cs
  match rest with
  | '=' :: rest =>
    let (value, rest) ← value (skipBlanks rest)
    return ((key, value), rest)
  | _ => none

/-- Reads at most `count` elements up to the closing bracket; a comma may stand before it. -/
def readElements (value : List Char → Option (Value × List Char)) :
    Nat → List Char → Option (List Value × List Char)
  | 0, _ => none
  | count + 1, cs =>
    match skipFill false cs with
    | ']' :: rest => some ([], rest)
    | cs => do
      let (element, rest) ← value cs
      match skipFill false rest with
      | ',' :: rest =>
        let (elements, rest) ← readElements value count rest
        return (element :: elements, rest)
      | ']' :: rest => return ([element], rest)
      | _ => none

/-- Reads at most `count` members up to the closing brace; no comma may stand before it. -/
def readMembers (value : List Char → Option (Value × List Char)) :
    Nat → List Char → Option (List (List String × Value) × List Char)
  | 0, _ => none
  | count + 1, cs => do
    let (pair, rest) ← readPair value cs
    match skipBlanks rest with
    | ',' :: rest =>
      let (pairs, rest) ← readMembers value count rest
      return (pair :: pairs, rest)
    | '\x7d' :: rest => return ([pair], rest)
    | _ => none

/-- Reads a table between braces after the opening one. -/
def readInline (value : List Char → Option (Value × List Char)) (cs : List Char) :
    Option (Value × List Char) :=
  match skipBlanks cs with
  | '\x7d' :: rest => some (.table .inline [], rest)
  | cs => do
    let (pairs, rest) ← readMembers value (cs.length + 1) cs
    return (.table .inline (← Members.ofPairs pairs), rest)

/-- Reads a value that is neither an array nor a table. -/
def readScalar (cs : List Char) : Option (Value × List Char) :=
  match cs with
  | 't' :: 'r' :: 'u' :: 'e' :: rest => some (.bool true, rest)
  | 'f' :: 'a' :: 'l' :: 's' :: 'e' :: rest => some (.bool false, rest)
  | '"' :: _ | '\'' :: _ =>
    (readQuoted cs).map fun (content, rest) => (.text (String.ofList content), rest)
  | _ =>
    match readMoment cs with
    | some (literal, rest) => some (.moment literal, rest)
    | none => (readNumber cs).map fun (n, rest) => (.number n, rest)

/-- Reads a value with at most `depth` arrays and tables inside each other. -/
def readValue : Nat → List Char → Option (Value × List Char)
  | 0, '[' :: _ => none
  | 0, '\x7b' :: _ => none
  | depth + 1, '[' :: rest =>
    (readElements (readValue depth) (rest.length + 1) rest).map fun (elements, rest) =>
      (.array elements, rest)
  | depth + 1, '\x7b' :: rest => readInline (readValue depth) rest
  | _, cs => readScalar cs

end PeerTransfer.Toml
