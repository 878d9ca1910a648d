import PeerTransfer.Image.Jpeg.Coder
import PeerTransfer.Image.Jpeg.Frame
import PeerTransfer.Image.Jpeg.Table

/-!
# Scans of a JPEG file

A scan codes some coefficients of some components, block after block. In a progressive file later
scans add coefficients, and lower bits of coefficients that are there already. Coefficients are
words of sixteen bits, and what does not fit into them is lost.
-/

namespace PeerTransfer.Image.Jpeg

/-- The sixty-four coefficients of a block, in the order of growing frequency. -/
abbrev Block := Array Int16

/-- The blocks of each component. -/
abbrev Planes := Array (Array Block)

/-- A component of a scan with its prefix codes. -/
structure ScanPart where
  component : Component
  /-- The number of the component in the frame. -/
  place : Nat
  dc : PrefixCode
  ac : PrefixCode

/-- Which coefficients a scan codes, and which of their bits. -/
structure Band where
  first : Nat
  last : Nat
  /-- The bit down to which earlier scans have come, or zero for the first scan. -/
  high : Nat
  /-- The lowest bit that the scan brings. -/
  low : Nat
  deriving DecidableEq, Repr

/-- A value whose lowest bit is the lowest one that the scan brings. -/
def Band.raise (band : Band) (value : Int16) : Int16 :=
  value <<< Int16.ofNat band.low

/-- Reads the first bits of a block's mean value, as the difference from the last block's. -/
def readMean (part : ScanPart) (band : Band) (block : Block) : Coding Block := do
  let size ← readSymbol part.dc
  if 11 < size then failure
  let difference ← readSigned size
  let coder ← get
  let mean := (coder.means.lookup part.place).getD 0 + difference
  set { coder with means := (part.place, mean) :: coder.means.filter (·.1 ≠ part.place) }
  return block.setIfInBounds 0 (band.raise mean)

/-- Reads how many blocks after the present one have no more coefficients. -/
def readEmptyRun (size : Nat) : Coding Unit := do
  let more ← readBits size
  modify ({ · with emptyRun := Nat.pow 2 size - 1 + more })

/-- Reads the first bits of coefficients from `index` on. At most `steps` codes are read. -/
def readRuns (code : PrefixCode) (band : Band) : Nat → Nat → Block → Coding Block
  | 0, _, block => return block
  | steps + 1, index, block => do
    if band.last < index then return block
    let (symbol, number?) ← readSymbolAndNumber code
    let run := symbol / 16
    let size := symbol % 16
    if size = 0 then
      if run = 15 then readRuns code band steps (index + 16) block
      else
        readEmptyRun run
        return block
    else
      let index := index + run
      if band.last < index then return block
      let number ← match number? with
        | some number => pure number
        | none => readSigned size
      readRuns code band steps (index + 1) (block.setIfInBounds index (band.raise number))

/-- A coefficient that is there with one more bit. It may not leave the range of words. -/
def refine? (value bit : Int16) : Option Int16 :=
  let sum := if 0 < value then value.toInt + bit.toInt else value.toInt - bit.toInt
  if -0x8000 ≤ sum && sum < 0x8000 then some (Int16.ofInt sum) else none

/-- Reads a bit for each coefficient that is there, from `index` on, until `zeros` of the others
are passed. Answers the index of the next one that is not there. -/
def refineRun (band : Band) : Nat → Nat → Nat → Block → Coding (Nat × Block)
  | 0, index, _, block => return (index, block)
  | steps + 1, index, zeros, block => do
    if band.last < index then return (band.last, block)
    let value := block[index]?.getD 0
    if value = 0 then
      if zeros = 0 then return (index, block)
      refineRun band steps (index + 1) (zeros - 1) block
    else
      let bit := band.raise 1
      if (← readBits 1) = 1 && value &&& bit = 0 then
        let value ← refine? value bit
        refineRun band steps (index + 1) zeros (block.setIfInBounds index value)
      else refineRun band steps (index + 1) zeros block

/-- Reads a lower bit of coefficients from `index` on. At most `steps` codes are read. -/
def refineRuns (code : PrefixCode) (band : Band) : Nat → Nat → Block → Coding Block
  | 0, _, block => return block
  | steps + 1, index, block => do
    if band.last < index then return block
    let symbol ← readSymbol code
    let run := symbol / 16
    match symbol % 16 with
    | 0 =>
      if run = 15 then
        let (index, block) ← refineRun band 64 index 15 block
        refineRuns code band steps (index + 1) block
      else
        readEmptyRun run
        return (← refineRun band 64 index 64 block).2
    | 1 =>
      let bit ← readBits 1
      let (index, block) ← refineRun band 64 index run block
      let value := if bit = 0 then -band.raise 1 else band.raise 1
      refineRuns code band steps (index + 1) (block.setIfInBounds index value)
    | _ => failure

/-- Passes over a block that has no more coefficients of its own. -/
def takeEmpty : Coding Bool := do
  let coder ← get
  if coder.emptyRun = 0 then return false
  set { coder with emptyRun := coder.emptyRun - 1 }
  return true

/-- Reads what a scan says about a block. -/
def readBlock (part : ScanPart) (band : Band) (block : Block) : Coding Block := do
  if band.high = 0 then
    let block ← if band.first = 0 then readMean part band block else pure block
    let index := max band.first 1
    if band.last < index then return block
    if ← takeEmpty then return block
    readRuns part.ac band 64 index block
  else if band.first = 0 then
    if (← readBits 1) = 1 then
      return block.setIfInBounds 0 (block[0]?.getD 0 ||| band.raise 1)
    else return block
  else if ← takeEmpty then
    return (← refineRun band 64 band.first 64 block).2
  else refineRuns part.ac band 64 band.first block

/-- A block of a scan: its component, and its place in the plane. -/
abbrev Target := ScanPart × Nat

/-- Reads what a scan says about blocks. -/
def readTargets (band : Band) : List Target → Planes → Coding Planes
  | [], planes => return planes
  | (part, i) :: rest, planes => do
    let old := ((planes[part.place]?).bind (·[i]?)).getD #[]
    let block ← readBlock part band old
    readTargets band rest (planes.modify part.place (·.setIfInBounds i block))

/-- How many units a scan has. A component alone has no units but its own blocks. -/
def unitCount (frame : Frame) : List ScanPart → Nat
  | [part] => frame.ownCount part.component
  | _ => frame.unitsDown * frame.unitsAcross

/-- The blocks of the unit of a scan with a number. -/
def targets (frame : Frame) (number : Nat) : List ScanPart → List Target
  | [part] => [(part, frame.ownBlock part.component number)]
  | parts =>
    parts.flatMap fun part =>
      (frame.unitBlocks part.component (number % frame.unitsAcross)
        (number / frame.unitsAcross)).map (part, ·)

/-- Reads a scan of some coefficients, with a restart after each `interval` units. -/
def readScan (frame : Frame) (interval : Nat) (parts : List ScanPart) (band : Band)
    (planes : Planes) : Coding Planes :=
  readUnits (fun number => readTargets band (targets frame number parts)) interval
    (unitCount frame parts) 0 planes

end PeerTransfer.Image.Jpeg
