import PeerTransfer.Toml.Reader

/-!
# TOML documents

A document is read line by line into statements, and the statements are then carried out: each pair
goes into the table whose header stands last before it.
-/

namespace PeerTransfer.Toml

/-- What a line says. -/
inductive Statement where
  | table (path : List String)
  | row (path : List String)
  | pair (key : List String) (value : Value)

/-- Reads the rest of a header, which ends in one bracket or, for a row, in two. -/
def readHeader (isRow : Bool) (cs : List Char) : Option (Statement × List Char) := do
  let (path, rest) ← readKey cs
  match isRow, rest with
  | false, ']' :: rest => return (.table path, rest)
  | true, ']' :: ']' :: rest => return (.row path, rest)
  | _, _ => none

/-- Reads a statement up to the comment or line end after it. -/
def readStatement : List Char → Option (Statement × List Char)
  | '[' :: '[' :: rest => readHeader true rest
  | '[' :: rest => readHeader false rest
  | cs => (readPair (readValue maxDepth) cs).map fun ((key, value), rest) => (.pair key value, rest)

/-- Reads at most `count` lines; one without a statement is empty but for a comment. -/
def readLines : Nat → List Char → Option (List Statement)
  | 0, _ => none
  | count + 1, cs =>
    match skipBlanks cs with
    | [] => some []
    | cs =>
      match endLine? cs with
      | some rest => readLines count rest
      | none => do
        let (statement, rest) ← readStatement cs
        let statements ← readLines count (← endLine? rest)
        return statement :: statements

/-- Carries statements out in turn, `path` being that of the last header. -/
def carryOut : List Statement → List String → Members → Option Members
  | [], _, document => some document
  | .table path :: rest, _, document => document.openTable path >>= carryOut rest path
  | .row path :: rest, _, document => document.openRow path >>= carryOut rest path
  | .pair key value :: rest, path, document => do
    let (_, document) ←
      Members.changeAt false (Members.assign key value) path .header document
    carryOut rest path document

/-- The statements of a document, which may begin with a byte order mark. -/
def statements? (source : String) : Option (List Statement) :=
  let cs := match source.toList with
    | '\uFEFF' :: rest => rest
    | cs => cs
  readLines (cs.length + 1) cs

/-- The members of a document. -/
def parse? (source : String) : Option Members := do
  carryOut (← statements? source) [] []

end PeerTransfer.Toml
