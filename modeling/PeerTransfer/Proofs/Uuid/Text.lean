import PeerTransfer.Proofs.Text.Digits
import PeerTransfer.Uuid.Text

/-!
# The text of an id and back

The text of an id is read as that id (`parse?_text`), so ids that differ have texts that differ
(`text_injective`).
-/

namespace PeerTransfer

open List

namespace Uuid

/-- Thirty-two characters in their five groups. -/
theorem exists_groups {cs : List Char} (h : cs.length = 32) :
    ∃ a b c d e : List Char, cs = a ++ (b ++ (c ++ (d ++ e))) ∧ a.length = 8 ∧ b.length = 4 ∧
      c.length = 4 ∧ d.length = 4 ∧ e.length = 12 := by
  refine ⟨cs.take 8, (cs.drop 8).take 4, (cs.drop 12).take 4, (cs.drop 16).take 4, cs.drop 20,
    ?_, ?_, ?_, ?_, ?_, ?_⟩
  · rw [show cs.drop 20 = (cs.drop 16).drop 4 by rw [drop_drop], take_append_drop,
      show cs.drop 16 = (cs.drop 12).drop 4 by rw [drop_drop], take_append_drop,
      show cs.drop 12 = (cs.drop 8).drop 4 by rw [drop_drop], take_append_drop, take_append_drop]
  all_goals simp [h]

theorem hyphenate_groups {a b c d e : List Char} (ha : a.length = 8) (hb : b.length = 4)
    (hc : c.length = 4) (hd : d.length = 4) :
    hyphenate (a ++ (b ++ (c ++ (d ++ e)))) =
      a ++ '-' :: (b ++ '-' :: (c ++ '-' :: (d ++ '-' :: e))) := by
  simp (disch := omega) [hyphenate, drop_append, drop_eq_nil_of_le, ha, hb, hc]

theorem unhyphenate?_groups {a b c d e : List Char} (ha : a.length = 8) (hb : b.length = 4)
    (hc : c.length = 4) (hd : d.length = 4) (he : e.length = 12) :
    unhyphenate? (a ++ '-' :: (b ++ '-' :: (c ++ '-' :: (d ++ '-' :: e)))) =
      some (a ++ (b ++ (c ++ (d ++ e)))) := by
  simp (disch := omega) [unhyphenate?, drop_append, drop_eq_nil_of_le, getElem?_append_right,
    getElem?_cons_zero, ha, hb, hc, hd, he]

theorem length_hyphenate {cs : List Char} (h : cs.length = 32) : (hyphenate cs).length = 36 := by
  obtain ⟨a, b, c, d, e, rfl, ha, hb, hc, hd, he⟩ := exists_groups h
  rw [hyphenate_groups ha hb hc hd]
  simp only [length_append, length_cons, ha, hb, hc, hd, he]

theorem unhyphenate?_hyphenate {cs : List Char} (h : cs.length = 32) :
    unhyphenate? (hyphenate cs) = some cs := by
  obtain ⟨a, b, c, d, e, rfl, ha, hb, hc, hd, he⟩ := exists_groups h
  rw [hyphenate_groups ha hb hc hd, unhyphenate?_groups ha hb hc hd he]

theorem ofDigits?_digits (id : Uuid) :
    ofDigits? (id.digits.toList.map Text.Hex.digitChar) = some id := by
  have hlength : id.digits.toList.length = 32 := id.digits.length_toList
  unfold ofDigits?
  rw [Text.Hex.mapM_digit?_digitChar]
  dsimp only
  rw [dif_pos hlength]
  rfl

@[simp] theorem parse?_text (id : Uuid) : parse? id.text = some id := by
  have hlength : (id.digits.toList.map Text.Hex.digitChar).length = 32 := by
    rw [length_map]
    exact id.digits.length_toList
  unfold parse? text
  rw [String.toList_ofList]
  dsimp only
  rw [length_hyphenate hlength]
  change (unhyphenate? _ >>= ofDigits?) = some id
  rw [unhyphenate?_hyphenate hlength]
  exact ofDigits?_digits id

theorem text_injective : Function.Injective text := by
  intro id id' h
  have hsome : some id = some id' := by rw [← parse?_text id, ← parse?_text id', h]
  exact Option.some.inj hsome

end Uuid

end PeerTransfer
