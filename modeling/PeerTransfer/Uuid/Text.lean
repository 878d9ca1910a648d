import PeerTransfer.Text.Hex
import PeerTransfer.Uuid.Basic

/-!
# The text of an id

An id is written in lower case with hyphens, `8-4-4-4-12`. It is read in either case, with those
four hyphens or none of them; the hyphenated form may also stand in braces or after `urn:uuid:`.
-/

namespace PeerTransfer.Uuid

/-- Sets the hyphens between the groups of 8, 4, 4, 4 and 12 characters. -/
def hyphenate (cs : List Char) : List Char :=
  cs.take 8 ++ '-' :: (cs.drop 8).take 4 ++ '-' :: (cs.drop 12).take 4 ++
    '-' :: (cs.drop 16).take 4 ++ '-' :: cs.drop 20

/-- Takes the four hyphens out of thirty-six characters, if they stand in their places. -/
def unhyphenate? (cs : List Char) : Option (List Char) :=
  if cs.length = 36 ∧ cs[8]? = some '-' ∧ cs[13]? = some '-' ∧ cs[18]? = some '-' ∧
      cs[23]? = some '-' then
    some (cs.take 8 ++ (cs.drop 9).take 4 ++ (cs.drop 14).take 4 ++ (cs.drop 19).take 4 ++
      cs.drop 24)
  else none

/-- The id with the digits that the characters stand for. -/
def ofDigits? (cs : List Char) : Option Uuid :=
  match cs.mapM Text.Hex.digit? with
  | none => none
  | some ds => if h : ds.length = 32 then some ⟨⟨ds.toArray, by simp [h]⟩⟩ else none

/-- The canonical text of an id. -/
def text (id : Uuid) : String :=
  String.ofList (hyphenate (id.digits.toList.map Text.Hex.digitChar))

/-- Removes `urn:uuid:` in front, in either case. -/
def afterUrn? (cs : List Char) : Option (List Char) :=
  if (cs.take 9).map Char.toLower = "urn:uuid:".toList then some (cs.drop 9) else none

/-- Removes the braces around a text. -/
def insideBraces? : List Char → Option (List Char)
  | '\x7b' :: cs => if cs.getLast? = some '\x7d' then some cs.dropLast else none
  | _ => none

/-- Reads an id from any of its forms. -/
def parse? (text : String) : Option Uuid :=
  let cs := text.toList
  match cs.length with
  | 32 => ofDigits? cs
  | 36 => unhyphenate? cs >>= ofDigits?
  | 38 => insideBraces? cs >>= unhyphenate? >>= ofDigits?
  | 45 => afterUrn? cs >>= unhyphenate? >>= ofDigits?
  | _ => none

end PeerTransfer.Uuid
