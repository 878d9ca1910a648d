import PeerTransfer.Bytes
import PeerTransfer.Image.PrefixCode

/-!
# Tables of a JPEG file

Quantization tables tell what the steps of coefficients are, in the order of growing frequency.
Prefix codes are given by the number of codes of each length, and their symbols.
-/

namespace PeerTransfer.Image.Jpeg

/-- The steps of the sixty-four coefficients of a block. -/
abbrev Steps := List Nat

/-- Reads numbers of `width` bytes. -/
def readNumbers (width : Nat) : Nat → Bytes → List Nat
  | 0, _ => []
  | count + 1, bytes =>
    Bytes.toNatBE (bytes.take width) :: readNumbers width count (bytes.drop width)

/-- Reads quantization tables, each with its number, at most `count` of them. -/
def readSteps : Nat → Bytes → Option (List (Nat × Steps))
  | _, [] => some []
  | 0, _ => none
  | count + 1, head :: rest => do
    let width := head.toNat / 16 + 1
    let number := head.toNat % 16
    if 2 < width || 3 < number || rest.length < 64 * width then none
    let steps := readNumbers width 64 rest
    if steps.contains 0 then none
    let tables ← readSteps count (rest.drop (64 * width))
    return (number, steps) :: tables

/-- What a prefix code is for. -/
inductive CodeClass where
  | dc
  | ac
  deriving DecidableEq, Repr

/-- Symbols cut into groups, one for each length of codes. -/
def group : List Nat → List Nat → List (List Nat)
  | [], _ => []
  | count :: counts, symbols => symbols.take count :: group counts (symbols.drop count)

/-- Reads prefix codes, each with what it is for and its number, at most `count` of them. -/
def readCodes (isBaseline : Bool) : Nat → Bytes → Option (List ((CodeClass × Nat) × PrefixCode))
  | _, [] => some []
  | 0, _ => none
  | count + 1, head :: rest => do
    let cls ← match head.toNat / 16 with
      | 0 => some CodeClass.dc
      | 1 => some CodeClass.ac
      | _ => none
    let number := head.toNat % 16
    let counts := (rest.take 16).map UInt8.toNat
    let size := counts.sum
    if (if isBaseline then 1 else 3) < number || size = 0 || 256 < size ||
        rest.length < 16 + size then none
    let symbols := ((rest.drop 16).take size).map UInt8.toNat
    let code ← PrefixCode.ofSymbols? (group counts symbols)
    let codes ← readCodes isBaseline count (rest.drop (16 + size))
    return ((cls, number), code) :: codes

/-- The prefix code of a segment as it is written: how many codes have each length, and the
symbols. -/
structure CodeTable where
  counts : List Nat
  symbols : List Nat

/-- The prefix code that a table gives. -/
def CodeTable.code (table : CodeTable) : PrefixCode :=
  (PrefixCode.ofSymbols? (group table.counts table.symbols)).getD .unused

/-- The body of a segment with one code. -/
def CodeTable.body (table : CodeTable) (cls : CodeClass) : Bytes :=
  (if cls = .dc then 0 else 16) :: (table.counts ++ table.symbols).map UInt8.ofNat

/-- A code for the sizes of differences between mean values. -/
def meanTable : CodeTable where
  counts := [0, 1, 5, 1, 1, 1, 1, 1, 1, 0, 0, 0, 0, 0, 0, 0]
  symbols := [0, 1, 2, 3, 4, 5, 6, 7, 8, 9, 10, 11]

/-- A code for runs of zeros with the size of what ends them. -/
def runTable : CodeTable where
  counts := [0, 2, 1, 3, 3, 2, 4, 3, 5, 5, 4, 4, 0, 0, 1, 125]
  symbols :=
    [0x01, 0x02, 0x03, 0x00, 0x04, 0x11, 0x05, 0x12, 0x21, 0x31, 0x41, 0x06, 0x13, 0x51, 0x61,
     0x07, 0x22, 0x71, 0x14, 0x32, 0x81, 0x91, 0xa1, 0x08, 0x23, 0x42, 0xb1, 0xc1, 0x15, 0x52,
     0xd1, 0xf0, 0x24, 0x33, 0x62, 0x72, 0x82, 0x09, 0x0a, 0x16, 0x17, 0x18, 0x19, 0x1a, 0x25,
     0x26, 0x27, 0x28, 0x29, 0x2a, 0x34, 0x35, 0x36, 0x37, 0x38, 0x39, 0x3a, 0x43, 0x44, 0x45,
     0x46, 0x47, 0x48, 0x49, 0x4a, 0x53, 0x54, 0x55, 0x56, 0x57, 0x58, 0x59, 0x5a, 0x63, 0x64,
     0x65, 0x66, 0x67, 0x68, 0x69, 0x6a, 0x73, 0x74, 0x75, 0x76, 0x77, 0x78, 0x79, 0x7a, 0x83,
     0x84, 0x85, 0x86, 0x87, 0x88, 0x89, 0x8a, 0x92, 0x93, 0x94, 0x95, 0x96, 0x97, 0x98, 0x99,
     0x9a, 0xa2, 0xa3, 0xa4, 0xa5, 0xa6, 0xa7, 0xa8, 0xa9, 0xaa, 0xb2, 0xb3, 0xb4, 0xb5, 0xb6,
     0xb7, 0xb8, 0xb9, 0xba, 0xc2, 0xc3, 0xc4, 0xc5, 0xc6, 0xc7, 0xc8, 0xc9, 0xca, 0xd2, 0xd3,
     0xd4, 0xd5, 0xd6, 0xd7, 0xd8, 0xd9, 0xda, 0xe1, 0xe2, 0xe3, 0xe4, 0xe5, 0xe6, 0xe7, 0xe8,
     0xe9, 0xea, 0xf1, 0xf2, 0xf3, 0xf4, 0xf5, 0xf6, 0xf7, 0xf8, 0xf9, 0xfa]

/-- A code for the sizes of differences between mean values of color. -/
def colorMeanTable : CodeTable where
  counts := [0, 3, 1, 1, 1, 1, 1, 1, 1, 1, 1, 0, 0, 0, 0, 0]
  symbols := [0, 1, 2, 3, 4, 5, 6, 7, 8, 9, 10, 11]

/-- A code for runs of zeros with the size of what ends them, for color. -/
def colorRunTable : CodeTable where
  counts := [0, 2, 1, 2, 4, 4, 3, 4, 7, 5, 4, 4, 0, 1, 2, 119]
  symbols :=
    [0x00, 0x01, 0x02, 0x03, 0x11, 0x04, 0x05, 0x21, 0x31, 0x06, 0x12, 0x41, 0x51, 0x07, 0x61,
     0x71, 0x13, 0x22, 0x32, 0x81, 0x08, 0x14, 0x42, 0x91, 0xa1, 0xb1, 0xc1, 0x09, 0x23, 0x33,
     0x52, 0xf0, 0x15, 0x62, 0x72, 0xd1, 0x0a, 0x16, 0x24, 0x34, 0xe1, 0x25, 0xf1, 0x17, 0x18,
     0x19, 0x1a, 0x26, 0x27, 0x28, 0x29, 0x2a, 0x35, 0x36, 0x37, 0x38, 0x39, 0x3a, 0x43, 0x44,
     0x45, 0x46, 0x47, 0x48, 0x49, 0x4a, 0x53, 0x54, 0x55, 0x56, 0x57, 0x58, 0x59, 0x5a, 0x63,
     0x64, 0x65, 0x66, 0x67, 0x68, 0x69, 0x6a, 0x73, 0x74, 0x75, 0x76, 0x77, 0x78, 0x79, 0x7a,
     0x82, 0x83, 0x84, 0x85, 0x86, 0x87, 0x88, 0x89, 0x8a, 0x92, 0x93, 0x94, 0x95, 0x96, 0x97,
     0x98, 0x99, 0x9a, 0xa2, 0xa3, 0xa4, 0xa5, 0xa6, 0xa7, 0xa8, 0xa9, 0xaa, 0xb2, 0xb3, 0xb4,
     0xb5, 0xb6, 0xb7, 0xb8, 0xb9, 0xba, 0xc2, 0xc3, 0xc4, 0xc5, 0xc6, 0xc7, 0xc8, 0xc9, 0xca,
     0xd2, 0xd3, 0xd4, 0xd5, 0xd6, 0xd7, 0xd8, 0xd9, 0xda, 0xe2, 0xe3, 0xe4, 0xe5, 0xe6, 0xe7,
     0xe8, 0xe9, 0xea, 0xf2, 0xf3, 0xf4, 0xf5, 0xf6, 0xf7, 0xf8, 0xf9, 0xfa]

/-- The code that a picture of a film uses under a number when it gives none itself. -/
def filmCode? : CodeClass → Nat → Option PrefixCode
  | .dc, 0 => some meanTable.code
  | .dc, 1 => some colorMeanTable.code
  | .ac, 0 => some runTable.code
  | .ac, 1 => some colorRunTable.code
  | _, _ => none

/-- The steps of middling quality, for the first component and for the others. -/
def middlingSteps : List Steps :=
  [[16, 11, 12, 14, 12, 10, 16, 14, 13, 14, 18, 17, 16, 19, 24, 40, 26, 24, 22, 22, 24, 49, 35, 37,
    29, 40, 58, 51, 61, 60, 57, 51, 56, 55, 64, 72, 92, 78, 64, 68, 87, 69, 55, 56, 80, 109, 81,
    87, 95, 98, 103, 104, 103, 62, 77, 113, 121, 112, 100, 120, 92, 101, 103, 99],
   [17, 18, 18, 24, 21, 24, 47, 26, 26, 47, 99, 66, 56, 66, 99, 99, 99, 99, 99, 99, 99, 99, 99, 99,
    99, 99, 99, 99, 99, 99, 99, 99, 99, 99, 99, 99, 99, 99, 99, 99, 99, 99, 99, 99, 99, 99, 99, 99,
    99, 99, 99, 99, 99, 99, 99, 99, 99, 99, 99, 99, 99, 99, 99, 99]]

/-- The steps of a quality from 1 to 100, of which 50 is middling: the lower it is the longer they
are. -/
def stepsOf (quality : Nat) (middling : Steps) : Steps :=
  let quality := min 100 (max 1 quality)
  let percent := if quality < 50 then 5000 / quality else 200 - 2 * quality
  middling.map fun step => min 255 (max 1 ((step * percent + 50) / 100))

end PeerTransfer.Image.Jpeg
