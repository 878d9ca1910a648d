import Mathlib.Tactic
import PeerTransfer.Catalog

/-!
# What a catalog holds

A catalog of values under keys that differ holds those values and no others
(`entries_ofList_perm`), and a catalog that is filed anew entry by entry is the same
(`ofList_entries`).
-/

namespace PeerTransfer.Catalog

open List

variable {α : Type}

theorem ext_entries {catalog catalog' : Catalog α} (h : catalog.entries = catalog'.entries) :
    catalog = catalog' := by
  cases catalog
  cases catalog'
  cases h
  rfl

theorem pairwise_keys (catalog : Catalog α) : catalog.keys.Pairwise (· < ·) :=
  pairwise_map.2 catalog.ordered

theorem insertSorted_perm {key : String} (value : α) {entries : List (String × α)}
    (h : key ∉ entries.map Prod.fst) :
    insertSorted key value entries ~ (key, value) :: entries := by
  induction entries with
  | nil => exact .refl _
  | cons entry entries ih =>
    obtain ⟨k, v⟩ := entry
    rw [map_cons, mem_cons, not_or] at h
    unfold insertSorted
    rw [if_neg h.1]
    split_ifs
    · exact .refl _
    · exact ((ih h.2).cons _).trans (.swap _ _ _)

theorem insertSorted_of_forall_lt {key : String} (value : α) {entries : List (String × α)}
    (h : ∀ entry ∈ entries, entry.1 < key) :
    insertSorted key value entries = entries ++ [(key, value)] := by
  induction entries with
  | nil => rfl
  | cons entry entries ih =>
    obtain ⟨hlt, hentries⟩ := forall_mem_cons.1 h
    have hnlt : ¬key < entry.1 := fun hgt => String.lt_irrefl _ (String.lt_trans hlt hgt)
    have hne : key ≠ entry.1 := by
      rintro rfl
      exact String.lt_irrefl _ hlt
    unfold insertSorted
    rw [if_neg hnlt, if_neg hne, ih hentries]
    rfl

@[simp] theorem find?_empty (key : String) : (empty : Catalog α).find? key = none := rfl

theorem find?_insert_self (catalog : Catalog α) (key : String) (value : α) :
    (catalog.insert key value).find? key = some value := by
  unfold find? insert
  dsimp only
  induction catalog.entries with
  | nil => exact lookup_cons_self
  | cons entry entries ih =>
    obtain ⟨k, v⟩ := entry
    unfold insertSorted
    split_ifs with _ heq
    · exact lookup_cons_self
    · exact lookup_cons_self
    · rwa [lookup_cons, beq_false_of_ne heq]

theorem find?_insert_of_ne (catalog : Catalog α) {key key' : String} (h : key' ≠ key) (value : α) :
    (catalog.insert key value).find? key' = catalog.find? key' := by
  unfold find? insert
  dsimp only
  induction catalog.entries with
  | nil => rw [insertSorted, lookup_cons, beq_false_of_ne h]
  | cons entry entries ih =>
    obtain ⟨k, v⟩ := entry
    unfold insertSorted
    split_ifs with _ heq
    · rw [lookup_cons, beq_false_of_ne h]
    · subst heq
      rw [lookup_cons, lookup_cons, beq_false_of_ne h]
    · rw [lookup_cons, lookup_cons, ih]

/-- What is filed after a catalog was begun. -/
def extend (catalog : Catalog α) (entries : List (String × α)) : Catalog α :=
  entries.foldl (fun catalog (key, value) => catalog.insert key value) catalog

theorem entries_extend_perm (catalog : Catalog α) {entries : List (String × α)}
    (h : ((catalog.entries ++ entries).map Prod.fst).Nodup) :
    (catalog.extend entries).entries ~ catalog.entries ++ entries := by
  induction entries generalizing catalog with
  | nil => exact .of_eq (append_nil _).symm
  | cons entry entries ih =>
    obtain ⟨key, value⟩ := entry
    have hnot : key ∉ catalog.entries.map Prod.fst := by
      rw [map_append, nodup_append] at h
      intro hmem
      exact h.2.2 _ hmem key (by simp) rfl
    have hperm : (catalog.insert key value).entries ++ entries ~
        catalog.entries ++ (key, value) :: entries :=
      ((insertSorted_perm value hnot).append_right entries).trans perm_middle.symm
    have hnodup : (((catalog.insert key value).entries ++ entries).map Prod.fst).Nodup :=
      (hperm.map Prod.fst).nodup_iff.2 h
    exact (ih _ hnodup).trans hperm

theorem entries_ofList_perm {entries : List (String × α)} (h : (entries.map Prod.fst).Nodup) :
    (ofList entries).entries ~ entries :=
  entries_extend_perm empty h

theorem entries_extend_of_ordered (catalog : Catalog α) {entries : List (String × α)}
    (h : (catalog.entries ++ entries).Pairwise fun a b => a.1 < b.1) :
    (catalog.extend entries).entries = catalog.entries ++ entries := by
  induction entries generalizing catalog with
  | nil => exact (append_nil _).symm
  | cons entry entries ih =>
    obtain ⟨key, value⟩ := entry
    have hlast : ∀ e ∈ catalog.entries, e.1 < key :=
      fun e he => (pairwise_append.1 h).2.2 e he (key, value) mem_cons_self
    have hinsert : (catalog.insert key value).entries = catalog.entries ++ [(key, value)] :=
      insertSorted_of_forall_lt value hlast
    have hrest := ih (catalog.insert key value)
    rw [hinsert, append_assoc, singleton_append] at hrest
    exact hrest h

theorem ofList_entries (catalog : Catalog α) : ofList catalog.entries = catalog :=
  ext_entries (entries_extend_of_ordered empty catalog.ordered)

end PeerTransfer.Catalog
