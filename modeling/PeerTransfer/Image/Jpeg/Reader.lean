import PeerTransfer.Image.Jpeg.Lossless

/-!
# Reading JPEG files

A file is read into the coefficients of its blocks with the steps they are counted in. It may be
coded sequentially, progressively or without loss, but by prefix codes and with samples of 8 bits.
The segments of a file are carried out one by one up to its end, and then nothing may be missing
that the image needs.
-/

namespace PeerTransfer.Image.Jpeg

/-- What a file says of the meaning of its samples. -/
inductive Meaning where
  /-- The components are colors themselves. -/
  | plain
  /-- The first component is the brightness, the others tell the color. -/
  | brightness
  /-- Like `brightness`, with black as the fourth component. -/
  | brightnessAndBlack
  deriving DecidableEq, Repr

namespace Meaning

/-- The number of a meaning in a file. -/
def number : Meaning → UInt8
  | plain => 0
  | brightness => 1
  | brightnessAndBlack => 2

/-- The meaning with a number. -/
def ofNumber? (number : UInt8) : Option Meaning :=
  [plain, brightness, brightnessAndBlack].find? (·.number = number)

end Meaning

/-- An image by its coefficients. -/
structure Picture where
  frame : Frame
  planes : Planes
  /-- The quantization tables by number. -/
  steps : List (Nat × Steps)
  /-- The file says that its samples have the common meaning. -/
  hasJfif : Bool
  /-- What the file says of another meaning of its samples. -/
  meaning : Option Meaning

/-- What is known while a file is read. -/
structure Reading where
  frame : Option Frame
  planes : Planes
  steps : List (Nat × Steps)
  codes : List ((CodeClass × Nat) × PrefixCode)
  interval : Nat
  /-- The components that scans have brought. -/
  brought : List Nat
  hasJfif : Bool
  /-- The file is a picture of a film, whose usual codes are left out. -/
  isFilm : Bool
  meaning : Option Meaning

namespace Reading

/-- Nothing is known. -/
def empty : Reading := ⟨none, #[], [], [], 0, [], false, false, none⟩

/-- Planes of blocks without coefficients. -/
def blankPlanes (frame : Frame) : Planes :=
  (frame.components.map fun c =>
    Array.replicate (frame.planeSize c) (Array.replicate 64 (0 : Int16))).toArray

/-- Takes in a frame header; there is only one. -/
def takeFrame (reading : Reading) (frame : Frame) : Option Reading :=
  if reading.frame.isSome then none
  else
    let planes := if frame.process = .lossless then #[] else blankPlanes frame
    some { reading with frame := some frame, planes }

/-- The code that a file gives under a number. -/
def code? (reading : Reading) (frame : Frame) (cls : CodeClass) (number : Nat) :
    Option PrefixCode :=
  reading.codes.lookup (cls, number) <|>
    if reading.isFilm && frame.process ≠ .lossless then filmCode? cls number else none

/-- Reads the components of a scan header, which come in the order of the frame. The codes that the
scan needs must be there, and the steps of its coefficients. -/
def readParts (reading : Reading) (frame : Frame) (needsDc needsAc : Bool) :
    Nat → Bytes → Option (List ScanPart)
  | least, id :: numbers :: rest => do
    let place := (frame.components.findIdx? (·.id = id)).getD 4
    let component ← frame.components[place]?
    let dcNumber := numbers.toNat / 16
    let acNumber := numbers.toNat % 16
    let greatest := if frame.process = .baseline then 1 else 3
    if place < least || greatest < dcNumber || greatest < acNumber then none
    if frame.process ≠ .lossless && (reading.steps.lookup component.table).isNone then none
    let dc := reading.code? frame .dc dcNumber
    let ac := reading.code? frame .ac acNumber
    if (needsDc && dc.isNone) || (needsAc && ac.isNone) then none
    let parts ← readParts reading frame needsDc needsAc (place + 1) rest
    return ⟨component, place, dc.getD .unused, ac.getD .unused⟩ :: parts
  | _, [] => some []
  | _, _ => none

/-- Reads what a scan of coefficients codes. A sequential scan codes everything; a progressive one
either mean values or, for one component alone, a part of the other coefficients. The lowest bit is
one that samples have. -/
def readBand (isProgressive : Bool) (count first last bits : Nat) : Option Band :=
  let high := bits / 16
  let low := bits % 16
  if isProgressive then
    if last ≤ 63 && first ≤ last && (first ≠ 0 || last = 0) && (first = 0 || count = 1) &&
        low < 8 && (high = 0 || high = low + 1) then
      some ⟨first, last, high, low⟩
    else none
  else if first = 0 && (last = 0 || last = 63) && bits = 0 then some ⟨0, 63, 0, 0⟩
  else none

/-- Reads how samples are foretold in a scan without loss. Some bit of a sample must be left. -/
def readPrediction (first last bits : Nat) : Option Prediction :=
  if first ≤ 7 && last = 0 && bits < 8 then some ⟨first, bits⟩ else none

/-- Reads a scan: its header, and what is coded up to the next marker that is no restart. The
components of a scan without loss are counted as they come in the scan. -/
def takeScan (reading : Reading) (bytes : Bytes) : Option (Reading × Marker × Bytes) := do
  let frame ← reading.frame
  let (body, rest) ← readBody bytes
  let count := (body.headD 0).toNat
  if count = 0 || 4 < count || body.length ≠ 4 + 2 * count then none
  match body.drop (1 + 2 * count) with
  | [first, last, bits] =>
    let numbers := (body.drop 1).take (2 * count)
    let check (parts : List ScanPart) : Option Unit :=
      let total := (parts.map fun p => p.component.across * p.component.down).foldr (· + ·) 0
      if 1 < count && 10 < total then none else some ()
    if frame.process = .lossless then
      let prediction ← readPrediction first.toNat last.toNat bits.toNat
      let parts ← readParts reading frame true false 0 numbers
      check parts
      let (planes, marker, rest) ← (readLossless frame reading.interval parts prediction).run? rest
      return ({ reading with
        planes := (planes ++ reading.planes.toList.drop count).toArray
        brought := reading.brought ++ List.range count }, marker, rest)
    else
      let band ← readBand (frame.process = .progressive) count first.toNat last.toNat bits.toNat
      let parts ← readParts reading frame (band.first = 0) (0 < band.last) 0 numbers
      check parts
      let (planes, marker, rest) ←
        (readScan frame reading.interval parts band reading.planes).run? rest
      return ({ reading with
        planes, brought := reading.brought ++ parts.map (·.place) }, marker, rest)
  | _ => none

/-- The beginning of the segment for the common meaning of samples. -/
def jfifName : Bytes := [0x4A, 0x46, 0x49, 0x46, 0]

/-- The beginning of the segment of a picture of a film. -/
def filmName : Bytes := [0x41, 0x56, 0x49, 0x31, 0]

/-- The beginning of the segment for another meaning of samples. -/
def meaningName : Bytes := [0x41, 0x64, 0x6F, 0x62, 0x65, 0]

/-- Takes in a segment that is neither a scan nor a frame header. -/
def takeBody (reading : Reading) (marker : Marker) (body : Bytes) : Option Reading := do
  if marker = Marker.quantization then
    return { reading with steps := (← readSteps (body.length + 1) body).reverse ++ reading.steps }
  else if marker = Marker.codes then
    let isBaseline := reading.frame.any (·.process = .baseline)
    let codes ← readCodes isBaseline (body.length + 1) body
    return { reading with codes := codes.reverse ++ reading.codes }
  else if marker = Marker.restartInterval then
    if body.length = 2 then return { reading with interval := Bytes.toNatBE body } else none
  else if marker = Marker.jfif then
    return { reading with
      hasJfif := reading.hasJfif || body.take 5 = jfifName
      isFilm := reading.isFilm || body.take 5 = filmName }
  else if marker = Marker.meaning && 12 ≤ body.length && body.take 6 = meaningName then
    let meaning ← Meaning.ofNumber? (body[11]?.getD 0)
    return { reading with meaning := some meaning }
  else if marker.isApplication || marker = Marker.comment then return reading
  else none

/-- Carries out what follows a marker, at most `count` segments. -/
def takeAll : Nat → Reading → Marker → Bytes → Option Reading
  | 0, _, _, _ => none
  | count + 1, reading, marker, bytes => do
    if marker = Marker.finish then return reading
    else if marker = Marker.scan then
      let (reading, marker, bytes) ← takeScan reading bytes
      takeAll count reading marker bytes
    else
      let (body, rest) ← readBody bytes
      let reading ← match Process.ofMarker? marker with
        | some process => do reading.takeFrame (← Frame.read? process body)
        | none => reading.takeBody marker body
      let (marker, rest) ← nextMarker false rest
      takeAll count reading marker rest

/-- The components of a frame have a meaning that can be shown. -/
def hasKnownMeaning (reading : Reading) (frame : Frame) : Bool :=
  match frame.components.map (·.id) with
  | [a, b, c] =>
    if [[1, 34, 35], [114, 103, 98]].contains [a, b, c] then false
    else [[1, 2, 3], [82, 71, 66]].contains [a, b, c] || reading.hasJfif ||
      reading.meaning ≠ some .brightnessAndBlack
  | [_, _, _, _] => reading.meaning ≠ some .brightness
  | _ => true

/-- The image of a frame by its coefficients. All components must have come, each with its steps; of
those of a progressive file the coefficients that have not come are zero. -/
def picture? (reading : Reading) (frame : Frame) : Option Picture :=
  let isMissing := (List.range frame.components.length).any (!reading.brought.contains ·)
  let isBlank := if frame.process = .progressive then reading.brought = [] else isMissing
  let lacksSteps := frame.components.any fun c => (reading.steps.lookup c.table).isNone
  if isBlank || lacksSteps || !hasKnownMeaning reading frame then none
  else some ⟨frame, reading.planes, reading.steps, reading.hasJfif, reading.meaning⟩

/-- The image of a frame without loss. Its components are the colors themselves, in steps of one. -/
def plainPicture? (reading : Reading) (frame : Frame) : Option Picture :=
  if (List.range frame.components.length).any (!reading.brought.contains ·) then none
  else
    let ids : List UInt8 := if frame.components.length = 3 then [82, 71, 66] else [1, 2, 3, 4]
    let components := (ids.take frame.components.length).map fun id => ⟨id, 1, 1, 0⟩
    some ⟨{ frame with components }, reading.planes, [(0, List.replicate 64 1)], false, none⟩

end Reading

/-- Reads a file. -/
def read? (bytes : Bytes) : Option Picture := do
  if bytes.take 2 ≠ [0xFF, Marker.start] then none
  let (marker, rest) ← nextMarker false (bytes.drop 2)
  let reading ← Reading.takeAll (bytes.length + 1) .empty marker rest
  let frame ← reading.frame
  if frame.process = .lossless then reading.plainPicture? frame else reading.picture? frame

end PeerTransfer.Image.Jpeg
