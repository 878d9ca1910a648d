import Mathlib.Tactic

/-!
# Looking up what was put under a key

Held payloads and the entries of a disk are lists of pairs in which a new pair takes the place of
all those of its key.
-/

namespace PeerTransfer

open List

variable {κ β : Type} [BEq κ] [LawfulBEq κ]

/-- What stands under a key of its own is found there. -/
theorem lookup_of_mem {pairs : List (κ × β)} (h : (pairs.map Prod.fst).Nodup) {pair : κ × β}
    (hpair : pair ∈ pairs) : pairs.lookup pair.1 = some pair.2 := by
  induction pairs with
  | nil => exact absurd hpair not_mem_nil
  | cons head pairs ih =>
    rw [map_cons, nodup_cons] at h
    rcases mem_cons.1 hpair with rfl | hpair
    · exact lookup_cons_self
    · have hne : pair.1 ≠ head.1 := fun heq => h.1 (heq ▸ mem_map_of_mem hpair)
      rw [lookup_cons, beq_false_of_ne hne]
      exact ih h.2 hpair

variable [DecidableEq κ]

theorem lookup_filter_ne (pairs : List (κ × β)) (key key' : κ) :
    (pairs.filter (·.1 ≠ key)).lookup key' = if key' = key then none else pairs.lookup key' := by
  induction pairs with
  | nil => split_ifs <;> rfl
  | cons pair pairs ih =>
    by_cases hpair : pair.1 = key
    · rw [filter_cons_of_neg (by simpa using hpair), ih]
      split_ifs with hkey
      · rfl
      · rw [lookup_cons, beq_false_of_ne (hpair ▸ hkey)]
    · rw [filter_cons_of_pos (by simpa using hpair), lookup_cons, lookup_cons, ih]
      split_ifs with hkey
      · rw [hkey, beq_false_of_ne (Ne.symm hpair)]
      · rfl

theorem lookup_filter_ne_concat (pairs : List (κ × β)) (key key' : κ) (value : β) :
    (pairs.filter (·.1 ≠ key) ++ [(key, value)]).lookup key' =
      if key' = key then some value else pairs.lookup key' := by
  rw [lookup_append, lookup_filter_ne, lookup_cons]
  split_ifs with hkey
  · rw [hkey, beq_self_eq_true]
    rfl
  · rw [beq_false_of_ne hkey, lookup_nil, Option.or_none]

end PeerTransfer
