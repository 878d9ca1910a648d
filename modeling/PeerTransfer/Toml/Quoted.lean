import PeerTransfer.Text.Hex
import PeerTransfer.Toml.Token

/-!
# Quoted texts in TOML

Between double quotes a backslash begins an escape, between single quotes every character stands
for itself. Either kind may span lines when it is written with three quotes; such a text may hold
up to two of its quotes in a row, also right before the closing three.
-/

namespace PeerTransfer.Toml

/-- The character that hexadecimal digits name, unless they name half of a surrogate pair or no
character at all. -/
def namedChar? (digits : List Char) : Option Char := do
  let n ← Text.Hex.number? digits
  if Nat.isValidChar n then some (Char.ofNat n) else none

/-- The character that a letter after a backslash names. -/
def shortEscape? : Char → Option Char
  | 'b' => some '\x08'
  | 't' => some '\t'
  | 'n' => some '\n'
  | 'f' => some '\x0c'
  | 'r' => some '\r'
  | '"' => some '"'
  | '\\' => some '\\'
  | _ => none

/-- Reads a text up to its closing double quote. -/
def readBasic : List Char → Option (List Char × List Char)
  | [] => none
  | '"' :: rest => some ([], rest)
  | '\\' :: 'u' :: a :: b :: c :: d :: rest => do
    let named ← namedChar? [a, b, c, d]
    let (cs, rest) ← readBasic rest
    return (named :: cs, rest)
  | '\\' :: 'U' :: a :: b :: c :: d :: e :: f :: g :: h :: rest => do
    let named ← namedChar? [a, b, c, d, e, f, g, h]
    let (cs, rest) ← readBasic rest
    return (named :: cs, rest)
  | '\\' :: c :: rest => do
    let named ← shortEscape? c
    let (cs, rest) ← readBasic rest
    return (named :: cs, rest)
  | c :: rest => do
    if !isText c then none
    let (cs, rest) ← readBasic rest
    return (c :: cs, rest)

/-- Reads a text up to its closing single quote. -/
def readLiteral : List Char → Option (List Char × List Char)
  | [] => none
  | '\'' :: rest => some ([], rest)
  | c :: rest => do
    if !isText c then none
    let (cs, rest) ← readLiteral rest
    return (c :: cs, rest)

/-- Nothing but blanks stands before the next line end. -/
def isLineEnd (cs : List Char) : Bool :=
  (dropNewline? (skipBlanks cs)).isSome

/-- Reads a text up to its three closing double quotes. A backslash at the end of a line is left
out together with the blanks and line ends after it, which the flag tells. -/
def readLongBasic : Bool → List Char → Option (List Char × List Char)
  | _, [] => none
  | _, '"' :: '"' :: '"' :: '"' :: '"' :: rest => some (['"', '"'], rest)
  | _, '"' :: '"' :: '"' :: '"' :: rest => some (['"'], rest)
  | _, '"' :: '"' :: '"' :: rest => some ([], rest)
  | _, '\\' :: 'u' :: a :: b :: c :: d :: rest => do
    let named ← namedChar? [a, b, c, d]
    let (cs, rest) ← readLongBasic false rest
    return (named :: cs, rest)
  | _, '\\' :: 'U' :: a :: b :: c :: d :: e :: f :: g :: h :: rest => do
    let named ← namedChar? [a, b, c, d, e, f, g, h]
    let (cs, rest) ← readLongBasic false rest
    return (named :: cs, rest)
  | skipping, '\r' :: '\n' :: rest =>
    if skipping then readLongBasic true rest
    else (readLongBasic false rest).map fun (cs, rest) => ('\n' :: cs, rest)
  | skipping, '\n' :: rest =>
    if skipping then readLongBasic true rest
    else (readLongBasic false rest).map fun (cs, rest) => ('\n' :: cs, rest)
  | _, '\\' :: c :: rest =>
    if isLineEnd (c :: rest) then readLongBasic true (c :: rest)
    else do
      let named ← shortEscape? c
      let (cs, rest) ← readLongBasic false rest
      return (named :: cs, rest)
  | skipping, c :: rest =>
    if skipping && isBlank c then readLongBasic true rest
    else if isText c then
      (readLongBasic false rest).map fun (cs, rest) => (c :: cs, rest)
    else none

/-- Reads a text up to its three closing single quotes. -/
def readLongLiteral : List Char → Option (List Char × List Char)
  | [] => none
  | '\'' :: '\'' :: '\'' :: '\'' :: '\'' :: rest => some (['\'', '\''], rest)
  | '\'' :: '\'' :: '\'' :: '\'' :: rest => some (['\''], rest)
  | '\'' :: '\'' :: '\'' :: rest => some ([], rest)
  | '\r' :: '\n' :: rest => (readLongLiteral rest).map fun (cs, rest) => ('\n' :: cs, rest)
  | '\n' :: rest => (readLongLiteral rest).map fun (cs, rest) => ('\n' :: cs, rest)
  | c :: rest =>
    if isText c then (readLongLiteral rest).map fun (cs, rest) => (c :: cs, rest) else none

/-- A line end right after three opening quotes is no part of the text. -/
def dropFirstNewline (cs : List Char) : List Char :=
  (dropNewline? cs).getD cs

/-- Reads a quoted text of any kind. -/
def readQuoted : List Char → Option (List Char × List Char)
  | '"' :: '"' :: '"' :: rest => readLongBasic false (dropFirstNewline rest)
  | '"' :: rest => readBasic rest
  | '\'' :: '\'' :: '\'' :: rest => readLongLiteral (dropFirstNewline rest)
  | '\'' :: rest => readLiteral rest
  | _ => none

/-- A character between double quotes. -/
def escape (c : Char) : List Char :=
  match c with
  | '\x08' => ['\\', 'b']
  | '\t' => ['\\', 't']
  | '\n' => ['\\', 'n']
  | '\x0c' => ['\\', 'f']
  | '\r' => ['\\', 'r']
  | '"' => ['\\', '"']
  | '\\' => ['\\', '\\']
  | c =>
    if isText c then [c]
    else '\\' :: 'u' :: (Text.Hex.chars 4 c.toNat).map Char.toUpper

/-- The longest run of a character, after `run` of them. -/
def longestRun (quote : Char) : Nat → List Char → Nat
  | run, [] => run
  | run, c :: cs =>
    if c = quote then longestRun quote (run + 1) cs else max run (longestRun quote 0 cs)

/-- The ways to quote a text. -/
inductive Quoting where
  | basic
  | literal
  | longBasic
  | longLiteral
  deriving DecidableEq, Repr

/-- A character that only an escape can stand for, between whatever quotes. -/
def isHidden (c : Char) : Bool :=
  !isText c && c ≠ '\n'

/-- The first way to quote a text in which it needs no escape, if there is one: double quotes on
one line, single quotes on one line, and each of them over several lines. -/
def Quoting.of (cs : List Char) : Quoting :=
  let isLong := cs.contains '\n'
  let showsLiteral := !cs.any isHidden
  let showsBasic := showsLiteral && !cs.contains '\\'
  let doubles := longestRun '"' 0 cs
  let singles := longestRun '\'' 0 cs
  if showsBasic && doubles = 0 && !isLong then basic
  else if showsLiteral && singles = 0 && !isLong then literal
  else if showsBasic && doubles ≤ 2 then longBasic
  else if showsLiteral && singles ≤ 2 then longLiteral
  else if isLong then longBasic
  else basic

/-- The characters of a text between three double quotes, after `run` of its double quotes. Line
ends stand for themselves, and so do up to two double quotes in a row. -/
def escapeLong : Nat → List Char → List Char
  | _, [] => []
  | run, c :: cs =>
    if c = '\n' then c :: escapeLong 0 cs
    else if c = '"' && run < 2 then c :: escapeLong (run + 1) cs
    else escape c ++ escapeLong 0 cs

/-- Three quotes; a text of several lines begins on a line of its own. -/
def openLong (quote : Char) (cs : List Char) : List Char :=
  List.replicate 3 quote ++ if cs.contains '\n' then ['\n'] else []

/-- A text between quotes. -/
def writeQuoted (text : String) : List Char :=
  let cs := text.toList
  match Quoting.of cs with
  | .basic => '"' :: cs.flatMap escape ++ ['"']
  | .literal => '\'' :: cs ++ ['\'']
  | .longBasic => openLong '"' cs ++ escapeLong 0 cs ++ List.replicate 3 '"'
  | .longLiteral => openLong '\'' cs ++ cs ++ List.replicate 3 '\''

end PeerTransfer.Toml
