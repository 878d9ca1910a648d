/-!
# What TOML is written with

The characters of a TOML document between its values: blanks, line ends and comments. Every reader
of the format takes characters off the front of a text and returns what is left.
-/

namespace PeerTransfer.Toml

/-- A blank within a line. -/
def isBlank (c : Char) : Bool :=
  c = ' ' || c = '\t'

/-- A character that may stand for itself in comments and texts: no control character but the
tabulator. -/
def isText (c : Char) : Bool :=
  c = '\t' || (0x20 ≤ c.val && c.val ≠ 0x7F)

/-- Drops blanks. -/
def skipBlanks (cs : List Char) : List Char :=
  cs.dropWhile isBlank

/-- Drops a comment, if one begins here. -/
def skipComment : List Char → List Char
  | '#' :: rest => rest.dropWhile isText
  | cs => cs

/-- Drops one line end. -/
def dropNewline? : List Char → Option (List Char)
  | '\n' :: rest => some rest
  | '\r' :: '\n' :: rest => some rest
  | _ => none

/-- Finishes a line: blanks, a comment, and a line end or the end of the document. -/
def endLine? (cs : List Char) : Option (List Char) :=
  match skipComment (skipBlanks cs) with
  | [] => some []
  | cs => dropNewline? cs

/-- Drops blanks, line ends and comments; the flag tells that a comment has begun. -/
def skipFill : Bool → List Char → List Char
  | _, '\n' :: rest => skipFill false rest
  | _, '\r' :: '\n' :: rest => skipFill false rest
  | true, c :: rest => if isText c then skipFill true rest else c :: rest
  | false, c :: rest =>
    if isBlank c then skipFill false rest
    else if c = '#' then skipFill true rest
    else c :: rest
  | _, [] => []

/-- Reads digits, each but the first after at most one underscore. -/
def readDigits (isDigit : Char → Bool) : List Char → List Char × List Char
  | [] => ([], [])
  | c :: rest =>
    if isDigit c then
      let (digits, rest) := readDigits isDigit rest
      (c :: digits, rest)
    else match c, rest with
    | '_', d :: rest =>
      if isDigit d then
        let (digits, rest) := readDigits isDigit rest
        (d :: digits, rest)
      else ([], c :: d :: rest)
    | _, _ => ([], c :: rest)

/-- Reads one digit or more; no underscore stands in front. -/
def readRun (isDigit : Char → Bool) : List Char → Option (List Char × List Char)
  | [] => none
  | c :: rest => if isDigit c then some (readDigits isDigit (c :: rest)) else none

/-- The number that decimal digits stand for. -/
def decimal (digits : List Char) : Nat :=
  digits.foldl (fun n c => 10 * n + (c.toNat - '0'.toNat)) 0

end PeerTransfer.Toml
