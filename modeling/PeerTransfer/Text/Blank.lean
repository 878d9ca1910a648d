/-!
# Blank text

A text is blank if it holds nothing but white space.
-/

namespace PeerTransfer.Text

/-- The characters with the property `White_Space`. -/
def isSpace (c : Char) : Bool :=
  (0x09 ≤ c.val && c.val ≤ 0x0D) || c.val = 0x20 || c.val = 0x85 || c.val = 0xA0 ||
  c.val = 0x1680 || (0x2000 ≤ c.val && c.val ≤ 0x200A) || c.val = 0x2028 || c.val = 0x2029 ||
  c.val = 0x202F || c.val = 0x205F || c.val = 0x3000

/-- A text of white space only, the empty text among them. -/
def isBlank (text : String) : Bool :=
  text.toList.all isSpace

end PeerTransfer.Text
