/-!
# Catalogs

A catalog files values under texts. Its entries stand in ascending order of their keys, each key
once; a value filed under a key that is taken replaces the one that was there.
-/

namespace PeerTransfer

/-- Values under keys, in ascending order of the keys. -/
structure Catalog (α : Type) where
  entries : List (String × α)
  ordered : entries.Pairwise fun a b => a.1 < b.1
  deriving DecidableEq

namespace Catalog

variable {α : Type}

/-- The catalog without entries. -/
def empty : Catalog α := ⟨[], .nil⟩

/-- Files a value in ascending entries. -/
def insertSorted (key : String) (value : α) : List (String × α) → List (String × α)
  | [] => [(key, value)]
  | (k, v) :: rest =>
    if key < k then (key, value) :: (k, v) :: rest
    else if key = k then (key, value) :: rest
    else (k, v) :: insertSorted key value rest

theorem mem_insertSorted {key : String} {value : α} {entries : List (String × α)}
    {entry : String × α} (h : entry ∈ insertSorted key value entries) :
    entry = (key, value) ∨ entry ∈ entries := by
  induction entries with
  | nil => simpa [insertSorted] using h
  | cons head rest ih =>
    obtain ⟨k, v⟩ := head
    unfold insertSorted at h
    split at h
    · simpa using h
    · split at h
      · rcases List.mem_cons.1 h with h | h
        · exact .inl h
        · exact .inr (List.mem_cons_of_mem _ h)
      · rcases List.mem_cons.1 h with h | h
        · exact .inr (h ▸ List.mem_cons_self)
        · exact (ih h).imp_right (List.mem_cons_of_mem _)

theorem pairwise_insertSorted (key : String) (value : α) {entries : List (String × α)}
    (h : entries.Pairwise fun a b => a.1 < b.1) :
    (insertSorted key value entries).Pairwise fun a b => a.1 < b.1 := by
  induction entries with
  | nil => simp [insertSorted]
  | cons head rest ih =>
    obtain ⟨k, v⟩ := head
    obtain ⟨hhead, hrest⟩ := List.pairwise_cons.1 h
    unfold insertSorted
    split
    · next hlt =>
      refine List.pairwise_cons.2 ⟨fun b hb => ?_, h⟩
      rcases List.mem_cons.1 hb with rfl | hb
      · exact hlt
      · exact String.lt_trans hlt (hhead b hb)
    · next hlt =>
      split
      · next heq =>
        subst heq
        exact List.pairwise_cons.2 ⟨hhead, hrest⟩
      · next hne =>
        refine List.pairwise_cons.2 ⟨fun b hb => ?_, ih hrest⟩
        rcases mem_insertSorted hb with rfl | hb
        · rcases String.le_total k key with hle | hle
          · apply String.not_le.1
            intro hge
            exact hne (String.le_antisymm hge hle)
          · exact absurd (String.le_antisymm hle (String.not_lt.1 hlt)) hne
        · exact hhead b hb

/-- Files a value under a key. -/
def insert (catalog : Catalog α) (key : String) (value : α) : Catalog α :=
  ⟨insertSorted key value catalog.entries, pairwise_insertSorted key value catalog.ordered⟩

/-- Files values one after another. -/
def ofList (entries : List (String × α)) : Catalog α :=
  entries.foldl (fun catalog (key, value) => catalog.insert key value) empty

/-- The value filed under a key. -/
def find? (catalog : Catalog α) (key : String) : Option α :=
  catalog.entries.lookup key

/-- The keys in ascending order. -/
def keys (catalog : Catalog α) : List String :=
  catalog.entries.map (·.1)

end Catalog

end PeerTransfer
