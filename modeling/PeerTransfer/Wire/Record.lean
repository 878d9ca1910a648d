import PeerTransfer.Bytes

/-!
# The wire format

A batch is announced over a direct channel as one byte string: a count, and for each unit a name,
an address and a size. All numbers are little-endian. A text is written as its length, its bytes
and a zero byte that the length counts.
-/

namespace PeerTransfer.Wire

/-- One unit as it is announced. -/
structure Record where
  name : String
  url : String
  size : UInt64
  deriving DecidableEq, Repr

/-- Bytes of a count or a length. -/
def countWidth : Nat := 4

/-- Bytes of a size. -/
def sizeWidth : Nat := 8

/-- Bytes of the shortest record: two empty texts and a size. -/
def minRecordLength : Nat := 2 * (countWidth + 1) + sizeWidth

/-- The greatest count or length. -/
def maxCount : Nat := 0x7fffffff

/-- The greatest size. -/
def maxSize : Nat := 0x7fffffffffffffff

end PeerTransfer.Wire
