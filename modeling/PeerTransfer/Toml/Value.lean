import PeerTransfer.Toml.Number

/-!
# TOML values

A table remembers how it came to be, because that decides what may still be added to it.
-/

namespace PeerTransfer.Toml

/-- How a table came to be. -/
inductive Origin where
  /-- By a header of its own, or as the document itself. -/
  | header
  /-- On the way to the table of a longer header. -/
  | implied
  /-- On the way along a dotted key. -/
  | dotted
  /-- Between braces; nothing can be added to it. -/
  | inline
  deriving DecidableEq, Repr

/-- A TOML value. -/
inductive Value where
  | text (content : String)
  | number (value : Number)
  | bool (value : Bool)
  /-- A date or a time by its literal. -/
  | moment (literal : List Char)
  | array (elements : List Value)
  | table (origin : Origin) (members : List (String × Value))
  /-- Tables that were begun one after another by headers of the same path. -/
  | tables (rows : List (List (String × Value)))

/-- The members of a table. -/
abbrev Members := List (String × Value)

namespace Members

/-- Gives a key a value, in place of the one it had. -/
def set (members : Members) (key : String) (value : Value) : Members :=
  members.filter (·.1 ≠ key) ++ [(key, value)]

/-- Changes the table at the end of a path. A table that is missing on the way is made; one that
was begun by a header is closed to dotted keys, and of several tables under one path the way leads
through the last. -/
def changeAt (isDotted : Bool) (change : Origin → Members → Option (Origin × Members)) :
    List String → Origin → Members → Option (Origin × Members)
  | [], origin, members => change origin members
  | key :: path, origin, members =>
    match members.lookup key with
    | none => do
      let (o, m) ← changeAt isDotted change path (if isDotted then .dotted else .implied) []
      return (origin, members.set key (.table o m))
    | some (.table .inline _) => none
    | some (.table o m) => do
      if isDotted && o = .header then none
      let (o, m) ← changeAt isDotted change path o m
      return (origin, members.set key (.table o m))
    | some (.tables rows) => do
      let (_, m) ← changeAt isDotted change path .header (rows.getLast?.getD [])
      return (origin, members.set key (.tables (rows.dropLast ++ [m])))
    | some _ => none

/-- Gives a dotted key its value. The last part must be new, and the table that the other parts
lead to must have been made by dotted keys alone. -/
def assign (path : List String) (value : Value) (origin : Origin) (members : Members) :
    Option (Origin × Members) :=
  match path.getLast? with
  | none => none
  | some key =>
    changeAt true (fun origin members =>
      if path.dropLast ≠ [] && origin ≠ .dotted then none
      else match members.lookup key with
      | none => some (origin, members.set key value)
      | some _ => none) path.dropLast origin members

/-- The members that dotted keys between braces give. -/
def ofPairs (pairs : List (List String × Value)) : Option Members :=
  pairs.foldlM (fun members (path, value) => (assign path value .inline members).map (·.2)) []

/-- Begins the table of a header. It must be new, or known only from the way to other tables. -/
def openTable (path : List String) (document : Members) : Option Members :=
  match path.getLast? with
  | none => none
  | some key =>
    (changeAt false (fun origin members =>
      match members.lookup key with
      | none => some (origin, members.set key (.table .header []))
      | some (.table .implied m) => some (origin, members.set key (.table .header m))
      | some _ => none) path.dropLast .header document).map (·.2)

/-- Begins the next table of a path that has several. -/
def openRow (path : List String) (document : Members) : Option Members :=
  match path.getLast? with
  | none => none
  | some key =>
    (changeAt false (fun origin members =>
      match members.lookup key with
      | none => some (origin, members.set key (.tables [[]]))
      | some (.tables rows) => some (origin, members.set key (.tables (rows ++ [[]])))
      | some _ => none) path.dropLast .header document).map (·.2)

end Members

end PeerTransfer.Toml
