import Mathlib.Tactic
import PeerTransfer.Text.Hex

/-!
# Digits that are read back

Hexadecimal digits are read as the number they were written for, in whichever case they are written
(`number?_chars`, `number?_chars_toUpper`). The decimal digits of a number are digits, do not begin
with a zero unless the number is zero, and stand for the number (`foldl_repr`).
-/

namespace PeerTransfer.Text

open List

namespace Hex

theorem mapM_digit?_map {write : Fin 16 → Char} (h : ∀ d, digit? (write d) = some d)
    (ds : List (Fin 16)) : (ds.map write).mapM digit? = some ds := by
  induction ds with
  | nil => rfl
  | cons d ds ih =>
    rw [map_cons, mapM_cons, h, ih]
    rfl

theorem digit?_digitChar (d : Fin 16) : digit? (digitChar d) = some d := by
  revert d
  decide

theorem mapM_digit?_digitChar (ds : List (Fin 16)) : (ds.map digitChar).mapM digit? = some ds :=
  mapM_digit?_map digit?_digitChar ds

theorem ofDigits_digits (width n : Nat) : ofDigits (digits width n) = n % 16 ^ width := by
  induction width generalizing n with
  | zero =>
    rw [pow_zero, Nat.mod_one]
    rfl
  | succ width ih =>
    have hlast : ofDigits (digits (width + 1) n) =
        16 * ofDigits (digits width (n / 16)) + n % 16 := by
      rw [digits, ofDigits, foldl_append]
      rfl
    rw [hlast, ih, pow_succ', Nat.mod_mul, add_comm]

theorem number?_digits {write : Fin 16 → Char} (h : ∀ d, digit? (write d) = some d)
    (width n : Nat) : number? ((digits width n).map write) = some (n % 16 ^ width) := by
  rw [number?, mapM_digit?_map h, Option.map_some, ofDigits_digits]

theorem number?_chars (width n : Nat) : number? (chars width n) = some (n % 16 ^ width) :=
  number?_digits digit?_digitChar width n

theorem number?_chars_toUpper (width n : Nat) :
    number? ((chars width n).map Char.toUpper) = some (n % 16 ^ width) := by
  have hupper : ∀ d, digit? (digitChar d).toUpper = some d := by decide
  rw [chars, map_map]
  exact number?_digits hupper width n

end Hex

/-- Characters of different kinds differ. -/
theorem ne_of_kind {p : Char → Bool} {c d : Char} (hc : p c = true) (hd : p d = false) : c ≠ d := by
  rintro rfl
  rw [hc] at hd
  cases hd

theorem isDigit_of_mem_repr {n : Nat} {c : Char} (h : c ∈ (Nat.repr n).toList) :
    c.isDigit = true := by
  rw [Nat.toList_repr] at h
  exact Nat.isDigit_of_mem_toDigits (by decide) (by decide) h

/-- A number begins with a zero just if it is zero. -/
theorem exists_head_repr (n : Nat) :
    ∃ c cs, (Nat.repr n).toList = c :: cs ∧ (c = '0' → n = 0) := by
  rw [Nat.toList_repr]
  induction n using Nat.strong_induction_on with
  | _ n ih =>
    rw [Nat.toDigits_eq_if (by decide)]
    split_ifs with hsmall
    · exact ⟨n.digitChar, [], rfl, Nat.digitChar_eq_zero.1⟩
    · obtain ⟨c, cs, hcs, hzero⟩ := ih (n / 10) (by omega)
      rw [hcs]
      refine ⟨c, _, rfl, fun hc => ?_⟩
      have := hzero hc
      omega

theorem exists_digits_repr (n : Nat) :
    ∃ c cs, (Nat.repr n).toList = c :: cs ∧ (∀ d ∈ c :: cs, d.isDigit = true) ∧
      (c = '0' → n = 0) := by
  obtain ⟨c, cs, hcs, hzero⟩ := exists_head_repr n
  exact ⟨c, cs, hcs, fun d hd => isDigit_of_mem_repr (hcs ▸ hd), hzero⟩

theorem foldl_repr (n : Nat) :
    (Nat.repr n).toList.foldl (fun n c => 10 * n + (c.toNat - '0'.toNat)) 0 = n := by
  rw [Nat.toList_repr]
  exact (Nat.ofDigitChars_eq_foldl).symm.trans Nat.ofDigitChars_ten_toDigits

end PeerTransfer.Text
