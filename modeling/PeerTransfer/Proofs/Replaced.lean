import PeerTransfer.Batch.Basic
import Mathlib.Tactic

/-!
# Putting a value in place of another

What `replaceFirst` does to a list whose values are told apart by a key. Where a value of the key is
found, it alone gives way, and everything before and after it stays (`exists_replaceFirst`).
-/

namespace PeerTransfer

open List

variable {α κ : Type} [DecidableEq κ] {key : α → κ} {a b : α} {k : κ} {l : List α}

theorem forall_mem_replaceFirst {P : α → Prop} (ha : P a) (h : ∀ b ∈ l, P b) :
    ∀ b ∈ replaceFirst key a l, P b := by
  induction l with
  | nil => exact h
  | cons b l ih =>
    rw [forall_mem_cons] at h
    unfold replaceFirst
    split_ifs
    · exact forall_mem_cons.2 ⟨ha, h.2⟩
    · exact forall_mem_cons.2 ⟨h.1, ih h.2⟩

theorem map_replaceFirst (key : α → κ) (a : α) (l : List α) :
    (replaceFirst key a l).map key = l.map key := by
  induction l with
  | nil => rfl
  | cons b l ih =>
    unfold replaceFirst
    split_ifs with hkey
    · rw [map_cons, map_cons, hkey]
    · rw [map_cons, map_cons, ih]

/-- The value that is found under a key is the one that gives way to another of that key. -/
theorem exists_replaceFirst (hfound : l.find? (key · = k) = some b) :
    ∃ before after, l = before ++ b :: after ∧ (∀ c ∈ before, key c ≠ k) ∧
      ∀ a, key a = key b → replaceFirst key a l = before ++ a :: after := by
  obtain ⟨hkey, before, after, rfl, hbefore⟩ := find?_eq_some_iff_append.1 hfound
  replace hkey : key b = k := of_decide_eq_true hkey
  replace hbefore : ∀ c ∈ before, key c ≠ k := by simpa using hbefore
  refine ⟨before, after, rfl, hbefore, fun a ha => ?_⟩
  clear hfound
  induction before with
  | nil => rw [nil_append, replaceFirst, if_pos ha.symm, nil_append]
  | cons c before ih =>
    rw [forall_mem_cons] at hbefore
    have hne : key c ≠ key a := by
      rw [ha, hkey]
      exact hbefore.1
    rw [cons_append, replaceFirst, if_neg hne, ih hbefore.2, cons_append]

theorem replaceFirst_self (hfound : l.find? (key · = k) = some a) : replaceFirst key a l = l := by
  obtain ⟨before, after, hsplit, -, hreplace⟩ := exists_replaceFirst hfound
  rw [hreplace a rfl, ← hsplit]

theorem find?_replaceFirst (hfound : l.find? (key · = k) = some b) (ha : key a = key b) :
    (replaceFirst key a l).find? (key · = k) = some a := by
  obtain ⟨before, after, -, hbefore, hreplace⟩ := exists_replaceFirst hfound
  have hkey : key b = k := by simpa using find?_some hfound
  rw [hreplace a ha, find?_append, find?_eq_none.2 (by simpa using hbefore), Option.none_or,
    find?_cons_of_pos (by simpa [ha] using hkey)]

theorem find?_replaceFirst_of_ne (hne : k ≠ key a) (l : List α) :
    (replaceFirst key a l).find? (key · = k) = l.find? (key · = k) := by
  induction l with
  | nil => rfl
  | cons b l ih =>
    unfold replaceFirst
    split_ifs with hkey
    · rw [find?_cons_of_neg (by simpa using hne.symm),
        find?_cons_of_neg (by simpa [hkey] using hne.symm)]
    · rw [find?_cons, find?_cons, ih]

/-- What comes in the place of another is related to that one, and everything else to itself. -/
theorem forall₂_replaceFirst {R : α → α → Prop} [Std.Refl R]
    (hfound : l.find? (key · = k) = some b) (ha : key a = key b) (h : R b a) :
    Forall₂ R l (replaceFirst key a l) := by
  obtain ⟨before, after, rfl, -, hreplace⟩ := exists_replaceFirst hfound
  rw [hreplace a ha]
  exact rel_append (forall₂_refl before) (.cons h (forall₂_refl after))

/-- Where no two keys are the same, one value gives way to its own image alone. -/
theorem replaceFirst_map (hnodup : (l.map key).Nodup) {f g : α → α}
    (hf : ∀ c, key (f c) = key c) (ha : a ∈ l) (hg : key (g a) = key a)
    (hfg : ∀ c ∈ l, key c ≠ key a → f c = g c) : replaceFirst key (g a) (l.map f) = l.map g := by
  induction l with
  | nil => exact absurd ha not_mem_nil
  | cons b l ih =>
    rw [map_cons, nodup_cons] at hnodup
    rw [map_cons, map_cons, replaceFirst, hf, hg]
    split_ifs with hkey
    · have hba : b = a := by
        rcases mem_cons.1 ha with rfl | ha
        · rfl
        · exact absurd (hkey ▸ mem_map_of_mem ha) hnodup.1
      subst hba
      congr 1
      refine map_congr_left fun c hc => hfg c (mem_cons_of_mem _ hc) fun hkey' => ?_
      exact hnodup.1 (hkey' ▸ mem_map_of_mem hc)
    · rcases mem_cons.1 ha with rfl | ha
      · exact absurd rfl hkey
      · rw [hfg b mem_cons_self hkey,
          ih hnodup.2 ha fun c hc => hfg c (mem_cons_of_mem _ hc)]

end PeerTransfer
