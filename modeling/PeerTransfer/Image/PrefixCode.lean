/-!
# Prefix codes

A prefix code is a binary tree with symbols at its leaves. Only the lengths of its codes are ever
stored: codes of one length stand side by side in the order of their symbols, and shorter codes
stand before longer ones.
-/

namespace PeerTransfer.Image

/-- A binary tree with symbols at its leaves. -/
inductive PrefixCode where
  /-- No code leads here. -/
  | unused
  | symbol (value : Nat)
  | branch (zero one : PrefixCode)
  deriving Repr

namespace PrefixCode

/-- Joins neighbours under one branch each; the last may stay alone. -/
def joinPairs : List PrefixCode → List PrefixCode
  | a :: b :: rest => branch a b :: joinPairs rest
  | [a] => [branch a unused]
  | [] => []

/-- The trees at one depth, given the symbols whose codes end there and at each greater depth. -/
def treesAt : List (List Nat) → List PrefixCode
  | [] => []
  | here :: deeper => here.map symbol ++ joinPairs (treesAt deeper)

/-- The code in which `symbols` lists the symbols of codes of one bit, of two bits, and so on. There
is none if they are too many. -/
def ofSymbols? (symbols : List (List Nat)) : Option PrefixCode :=
  match joinPairs (treesAt symbols) with
  | [] => some unused
  | [tree] => some tree
  | _ => none

/-- The code that gives each symbol in turn a length; a length of zero gives it no code. -/
def ofLengths? (lengths : List Nat) : Option PrefixCode :=
  let longest := lengths.foldl max 0
  ofSymbols? ((List.range longest).map fun n =>
    (lengths.zipIdx.filter (·.1 = n + 1)).map (·.2))

/-- Every sequence of bits leads to a symbol. -/
def isComplete : PrefixCode → Bool
  | unused => false
  | symbol _ => true
  | branch zero one => zero.isComplete && one.isComplete

/-- Reads the symbol of the code that stands first. -/
def read? : PrefixCode → List Bool → Option (Nat × List Bool)
  | unused, _ => none
  | symbol value, bits => some (value, bits)
  | branch _ _, [] => none
  | branch zero one, bit :: bits => (if bit then one else zero).read? bits

/-- The codes of all symbols, each with its bits. -/
def codes : PrefixCode → List (Nat × List Bool)
  | unused => []
  | symbol value => [(value, [])]
  | branch zero one =>
    zero.codes.map (fun (value, bits) => (value, false :: bits)) ++
      one.codes.map fun (value, bits) => (value, true :: bits)

end PrefixCode

end PeerTransfer.Image
