import PeerTransfer.Bytes
import PeerTransfer.Image.PrefixCode

/-!
# Inflated data

A compressed stream is a header of two bytes, blocks of bits, and a checksum of four bytes. The
blocks hold bytes as they are, or codes for bytes and for copies of what was written before. A
stream must be whole, but its checksum is not compared.
-/

namespace PeerTransfer.Image

/-- The bits of bytes, each byte from its lowest bit. -/
def bitsOf (bytes : Bytes) : List Bool :=
  bytes.flatMap fun b => (List.range 8).map b.toNat.testBit

namespace Inflate

/-- Reads a number of `width` bits, the lowest first. -/
def readNat : Nat → List Bool → Option (Nat × List Bool)
  | 0, bits => some (0, bits)
  | _ + 1, [] => none
  | width + 1, bit :: bits => do
    let (n, bits) ← readNat width bits
    return (bit.toNat + 2 * n, bits)

/-- The bits that follow a code, and the least number that the code stands for. -/
abbrev Range := Nat × Nat

/-- Lengths of copies, by code from 257 on. -/
def lengthRanges : List Range :=
  [(0, 3), (0, 4), (0, 5), (0, 6), (0, 7), (0, 8), (0, 9), (0, 10), (1, 11), (1, 13), (1, 15),
   (1, 17), (2, 19), (2, 23), (2, 27), (2, 31), (3, 35), (3, 43), (3, 51), (3, 59), (4, 67),
   (4, 83), (4, 99), (4, 115), (5, 131), (5, 163), (5, 195), (5, 227), (0, 258)]

/-- Distances of copies, by code. -/
def distanceRanges : List Range :=
  [(0, 1), (0, 2), (0, 3), (0, 4), (1, 5), (1, 7), (2, 9), (2, 13), (3, 17), (3, 25), (4, 33),
   (4, 49), (5, 65), (5, 97), (6, 129), (6, 193), (7, 257), (7, 385), (8, 513), (8, 769),
   (9, 1025), (9, 1537), (10, 2049), (10, 3073), (11, 4097), (11, 6145), (12, 8193),
   (12, 12289), (13, 16385), (13, 24577)]

/-- Reads a number in the range that a code stands for. -/
def readInRange (ranges : List Range) (code : Nat) (bits : List Bool) :
    Option (Nat × List Bool) := do
  let (width, least) ← ranges[code]?
  let (more, bits) ← readNat width bits
  return (least + more, bits)

/-- Copies `length` bytes that begin `distance` bytes back. -/
def copyBack (distance : Nat) : Nat → Array UInt8 → Option (Array UInt8)
  | 0, out => some out
  | length + 1, out =>
    if out.size < distance then none
    else match out[out.size - distance]? with
    | some b => copyBack distance length (out.push b)
    | none => none

/-- The codes of a block. -/
structure Codes where
  literals : PrefixCode
  distances : PrefixCode

/-- A code that ends a block: the one that is meant to, and those that no length belongs to. -/
def isEnd (code : Nat) : Bool :=
  code = 256 || 257 + lengthRanges.length ≤ code

/-- Reads codes up to the end of the block, at most `count` of them. -/
def readCodes (codes : Codes) : Nat → List Bool → Array UInt8 →
    Option (Array UInt8 × List Bool)
  | 0, _, _ => none
  | count + 1, bits, out => do
    let (code, bits) ← codes.literals.read? bits
    if code < 256 then readCodes codes count bits (out.push (UInt8.ofNat code))
    else if isEnd code then return (out, bits)
    else
      let (length, bits) ← readInRange lengthRanges (code - 257) bits
      let (code, bits) ← codes.distances.read? bits
      let (distance, bits) ← readInRange distanceRanges code bits
      readCodes codes count bits (← copyBack distance length out)

/-- Reads `count` bytes as they are. -/
def readBytes : Nat → List Bool → Array UInt8 → Option (Array UInt8 × List Bool)
  | 0, bits, out => some (out, bits)
  | count + 1, bits, out => do
    let (byte, bits) ← readNat 8 bits
    readBytes count bits (out.push (UInt8.ofNat byte))

/-- Reads a block of bytes as they are, which begins at the next whole byte. The stream ends with a
whole byte, so what is left of the present one is told by the number of bits left. -/
def readStored (bits : List Bool) (out : Array UInt8) : Option (Array UInt8 × List Bool) := do
  let (length, bits) ← readNat 16 (bits.drop (bits.length % 8))
  let (complement, bits) ← readNat 16 bits
  if length + complement ≠ 0xFFFF then none
  readBytes length bits out

/-- The codes of a block that brings none of its own. -/
def fixedCodes? : Option Codes := do
  let literals ← PrefixCode.ofLengths? (List.replicate 144 8 ++ List.replicate 112 9 ++
    List.replicate 24 7 ++ List.replicate 8 8)
  let distances ← PrefixCode.ofLengths? (List.replicate 32 5)
  return ⟨literals, distances⟩

/-- The order in which the lengths of the codes for lengths are given. -/
def lengthOrder : List Nat := [16, 17, 18, 0, 8, 7, 9, 6, 10, 5, 11, 4, 12, 3, 13, 2, 14, 1, 15]

/-- Reads `count` numbers of three bits. -/
def readTriples : Nat → List Bool → Option (List Nat × List Bool)
  | 0, bits => some ([], bits)
  | count + 1, bits => do
    let (n, bits) ← readNat 3 bits
    let (rest, bits) ← readTriples count bits
    return (n :: rest, bits)

/-- Reads lengths of codes until there are `total` of them. Each step adds at least one, so that
many steps are enough. -/
def readLengths (code : PrefixCode) (total : Nat) : Nat → List Bool → List Nat →
    Option (List Nat × List Bool)
  | steps, bits, lengths =>
    if lengths.length = total then some (lengths, bits)
    else if total < lengths.length then none
    else match steps with
    | 0 => none
    | steps + 1 => do
      let (symbol, bits) ← code.read? bits
      if symbol < 16 then readLengths code total steps bits (lengths ++ [symbol])
      else if symbol = 16 then
        let last ← lengths.getLast?
        let (more, bits) ← readNat 2 bits
        readLengths code total steps bits (lengths ++ List.replicate (3 + more) last)
      else if symbol = 17 then
        let (more, bits) ← readNat 3 bits
        readLengths code total steps bits (lengths ++ List.replicate (3 + more) 0)
      else
        let (more, bits) ← readNat 7 bits
        readLengths code total steps bits (lengths ++ List.replicate (11 + more) 0)

/-- The code for distances: a complete one, one code of a single bit, or none at all. -/
def distanceCode? (lengths : List Nat) : Option PrefixCode := do
  let code ← PrefixCode.ofLengths? lengths
  let used := lengths.filter (· ≠ 0)
  if code.isComplete || used = [] || used = [1] then some code else none

/-- Reads the codes that a block brings. -/
def readOwnCodes (bits : List Bool) : Option (Codes × List Bool) := do
  let (literals, bits) ← readNat 5 bits
  let (distances, bits) ← readNat 5 bits
  let (count, bits) ← readNat 4 bits
  if 286 < literals + 257 || 30 < distances + 1 then none
  let (triples, bits) ← readTriples (count + 4) bits
  let given := lengthOrder.zip triples
  let code ← PrefixCode.ofLengths? ((List.range 19).map fun n => (given.lookup n).getD 0)
  if !code.isComplete then none
  let total := literals + 257 + (distances + 1)
  let (lengths, bits) ← readLengths code total total bits []
  let literalLengths := lengths.take (literals + 257)
  let literalCode ← PrefixCode.ofLengths? literalLengths
  if !literalCode.isComplete || literalLengths[256]? = some 0 then none
  return (⟨literalCode, ← distanceCode? (lengths.drop (literals + 257))⟩, bits)

/-- Reads blocks up to the last, at most `count` of them. -/
def readBlocks : Nat → List Bool → Array UInt8 → Option (Array UInt8 × List Bool)
  | 0, _, _ => none
  | count + 1, bits, out => do
    let (isLast, bits) ← readNat 1 bits
    let (kind, bits) ← readNat 2 bits
    let (out, bits) ← match kind with
      | 0 => readStored bits out
      | 1 => do readCodes (← fixedCodes?) (bits.length + 1) bits out
      | 2 => do
        let (codes, bits) ← readOwnCodes bits
        readCodes codes (bits.length + 1) bits out
      | _ => none
    if isLast = 1 then return (out, bits) else readBlocks count bits out

end Inflate

/-- The bytes of a compressed stream; what follows the stream is left alone. -/
def inflate? : Bytes → Option Bytes
  | method :: flags :: rest => do
    if method.toNat % 16 ≠ 8 || 0x7F < method.toNat || flags.toNat.testBit 5 then none
    if (256 * method.toNat + flags.toNat) % 31 ≠ 0 then none
    let bits := bitsOf rest
    let (out, bits) ← Inflate.readBlocks (bits.length + 1) bits #[]
    if bits.length / 8 < 4 then none
    return out.toList
  | _ => none

/-- The checksum at the end of a compressed stream: the sum of the bytes, and the sum of those sums
as they grow, both modulo 65521. -/
def adler (bytes : Bytes) : Nat :=
  let (a, b) := bytes.foldl (fun (a, b) byte =>
    let a := (a + byte.toNat) % 65521
    (a, (b + a) % 65521)) (1, 0)
  65536 * b + a

/-- Bytes as blocks that hold them as they are, at most `count` blocks besides the last. -/
def storedBlocks : Nat → Bytes → Bytes
  | 0, _ => []
  | count + 1, bytes =>
    let block := bytes.take 0xFFFF
    let rest := bytes.drop 0xFFFF
    let isLast := rest.isEmpty
    (if isLast then 1 else 0) :: Bytes.ofNatLE 2 block.length ++
      Bytes.ofNatLE 2 (0xFFFF - block.length) ++ block ++
      if isLast then [] else storedBlocks count rest

/-- A stream that inflates to the bytes. -/
def deflate (bytes : Bytes) : Bytes :=
  [0x78, 0x01] ++ storedBlocks (bytes.length + 1) bytes ++ Bytes.ofNatBE 4 (adler bytes)

end PeerTransfer.Image
