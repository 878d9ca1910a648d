import PeerTransfer.Image.Jpeg.Source

/-!
# The coder of a JPEG file

Inside a scan the coder reads symbols and numbers from the coded bits, unit after unit. After a
certain number of units it starts anew at a restart marker, and then nothing is kept of what came
before.
-/

namespace PeerTransfer.Image.Jpeg

/-- The state of the coder inside a scan. -/
structure Coder where
  source : Source
  /-- The last mean value of each component of the scan. -/
  means : List (Nat × Int16)
  /-- Blocks to come without coefficients of their own. -/
  emptyRun : Nat

/-- The coder at the beginning of coded bytes. -/
def Coder.start (bytes : Bytes) : Coder := ⟨.ofBytes bytes, [], 0⟩

/-- A step of the coder. -/
abbrev Coding (α : Type) := StateT Coder Option α

/-- Carries out a step on the coded bits alone. -/
def onSource {α : Type} (read : Source → Option (α × Source)) : Coding α := do
  let coder ← get
  let (a, source) ← read coder.source
  set { coder with source }
  return a

/-- Reads the next symbol of a code. -/
def readSymbol (code : PrefixCode) : Coding Nat :=
  onSource (Source.readSymbol code)

/-- Reads a number of `width` bits, the highest first. -/
def readBits (width : Nat) : Coding Nat :=
  onSource (Source.readBits width)

/-- A number with a sign whose magnitude has `size` bits. A first bit of zero stands for a number
below zero. -/
def signed (size n : Nat) : Int16 :=
  if size ≠ 0 && n < Nat.pow 2 (size - 1) then Int16.ofInt (n - (Nat.pow 2 size - 1))
  else Int16.ofNat n

/-- Reads a number with a sign whose magnitude has `size` bits. -/
def readSigned (size : Nat) : Coding Int16 := do
  return signed size (← readBits size)

/-- Reads the next symbol of a code, whose lower half tells the size of a number. If both together
take no more than eight bits the number is read with it. -/
def readSymbolAndNumber (code : PrefixCode) : Coding (Nat × Option Int16) := do
  let source ← (← get).source.ensure 8
  match code.read? (source.ahead.take 8) with
  | some (symbol, more) =>
    let size := symbol % 16
    if size ≠ 0 && size ≤ more.length then
      let ahead := source.ahead.drop (8 - more.length + size)
      modify ({ · with source := { source with ahead } })
      return (symbol, some (signed size (Source.numberOf (more.take size))))
    else return (← readSymbol code, none)
  | none => return (← readSymbol code, none)

/-- Starts anew at the restart with a number. -/
def restart (number : Nat) : Coding Unit := do
  let (marker, rest) ← (← get).source.finish
  if marker ≠ some (Marker.restart number) then failure
  set (Coder.start rest)

/-- Reads `count` units one after another, each by its number. Before a unit whose number is a
multiple of the interval a restart stands. -/
def readUnits {α : Type} (read : Nat → α → Coding α) (interval : Nat) : Nat → Nat → α → Coding α
  | 0, _, result => return result
  | count + 1, number, result => do
    if interval ≠ 0 && number ≠ 0 && number % interval = 0 then restart (number / interval - 1)
    let result ← read number result
    readUnits read interval count (number + 1) result

/-- Carries out the coding at the beginning of some bytes. Answers the marker that follows, restarts
left out, and what stands behind it. The coded bits may end without a marker; then the next one is
looked for behind what is read ahead. -/
def Coding.run? {α : Type} (coding : Coding α) (bytes : Bytes) : Option (α × Marker × Bytes) := do
  let (result, coder) ← StateT.run coding (Coder.start bytes)
  match ← coder.source.finish with
  | (some marker, rest) =>
    let (marker, rest) ← passRestarts (rest.length + 1) marker rest
    return (result, marker, rest)
  | (none, rest) =>
    let (marker, rest) ← nextMarker false rest
    let (marker, rest) ← if marker.isRestart then nextMarker false rest else pure (marker, rest)
    return (result, marker, rest)

end PeerTransfer.Image.Jpeg
