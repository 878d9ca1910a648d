import PeerTransfer.Proofs.Disk.Files

/-!
# What stands in files

The content of the files of a disk, by location (`Disk.file?`), and how far a change of the disk
reaches (`Disk.Changes`). Making folders changes no file, and writing or deleting a file changes
that file alone.
-/

namespace PeerTransfer.Disk

open List

/-- The content of the file at a location, if one stands there. -/
def file? (disk : Disk) (l : Location) : Option Bytes :=
  match disk.lookup l with
  | some (.file content) => some content
  | _ => none

variable {disk disk' disk'' : Disk} {l : Location} {target : Path} {content : Bytes}

theorem file?_eq_some_iff : disk.file? l = some content ↔ disk.lookup l = some (.file content) := by
  unfold file?
  split
  · next h => simp [h]
  · next h => exact ⟨nofun, fun heq => absurd heq (h content)⟩

theorem file?_eq_none_iff : disk.file? l = none ↔ ¬disk.FileAt l := by
  rw [Option.eq_none_iff_forall_ne_some]
  simp only [ne_eq, file?_eq_some_iff, FileAt, not_exists]

theorem file?_of_lookup_eq (h : disk'.lookup l = disk.lookup l) : disk'.file? l = disk.file? l := by
  unfold file?
  rw [h]

/-! ## Making folders -/

theorem file?_put_folder {here : Location} (h : disk.lookup here = none) :
    (disk.put here .folder).file? = disk.file? := by
  funext l
  by_cases heq : l = here
  · subst heq
    have hroot : l ≠ [] := by
      rintro rfl
      rw [lookup_root] at h
      cases h
    unfold file?
    rw [lookup_put_self disk hroot, h]
  · exact file?_of_lookup_eq (lookup_put_of_ne disk heq .folder)

theorem file?_makeWalk (here : Location) (segments : List String) (disk : Disk) :
    (makeWalk here segments disk).2.file? = disk.file? := by
  induction segments generalizing here disk with
  | nil =>
    unfold makeWalk
    split_ifs <;> rfl
  | cons segment segments ih =>
    unfold makeWalk
    split
    · rfl
    · rfl
    · split_ifs
      · exact ih _ disk
      · exact ih _ disk
      · rfl
      · dsimp only
        split
        · next hnone => exact (ih _ _).trans (file?_put_folder hnone)
        · exact ih _ disk

theorem file?_makeFolders (folder : Path) (disk : Disk) :
    (disk.makeFolders folder).2.file? = disk.file? := by
  unfold makeFolders
  split_ifs
  · rfl
  · rfl
  · have hmade := file?_makeWalk [] (folder.segments.filter (!Path.isIdle ·)).dropLast disk
    split
    · next h => rwa [h] at hmade
    · next h =>
      rw [h] at hmade
      split_ifs <;> exact hmade
  · exact file?_makeWalk _ _ disk

/-! ## How far a change reaches -/

/-- Files change at these locations only, and whatever path led to a file elsewhere still does. -/
structure Changes (footprint : Set Location) (disk disk' : Disk) : Prop where
  file?_eq : ∀ l ∉ footprint, disk'.file? l = disk.file? l
  fileWithin : ∀ path : Path, path.place ∉ footprint → disk.FileWithin path disk'

namespace Changes

variable {footprint footprint' : Set Location}

theorem refl (footprint : Set Location) (disk : Disk) : disk.Changes footprint disk :=
  ⟨fun _ _ => rfl, fun path _ => .refl disk path⟩

theorem trans (h : disk.Changes footprint disk') (h' : disk'.Changes footprint disk'') :
    disk.Changes footprint disk'' where
  file?_eq l hl := (h'.file?_eq l hl).trans (h.file?_eq l hl)
  fileWithin path hpath := (h.fileWithin path hpath).trans (h'.fileWithin path hpath)

theorem mono (h : disk.Changes footprint disk') (hsubset : footprint ⊆ footprint') :
    disk.Changes footprint' disk' where
  file?_eq l hl := h.file?_eq l fun hmem => hl (hsubset hmem)
  fileWithin path hpath := h.fileWithin path fun hmem => hpath (hsubset hmem)

theorem file?_eq_of_empty (h : disk.Changes ∅ disk') : disk'.file? = disk.file? :=
  funext fun l => h.file?_eq l (Set.notMem_empty l)

theorem makeFolders (folder : Path) (disk : Disk) : disk.Changes ∅ (disk.makeFolders folder).2 where
  file?_eq l _ := congrFun (file?_makeFolders folder disk) l
  fileWithin path _ := fileWithin_makeFolders path folder disk

theorem write (h : disk.write target content = .ok disk') :
    disk.Changes {target.place} disk' where
  file?_eq l hl := by
    obtain ⟨-, -, rfl⟩ := write_eq_ok h
    exact file?_of_lookup_eq (lookup_put_of_ne disk hl _)
  fileWithin _ hpath := fileWithin_write h hpath

theorem discard (disk : Disk) (target : Path) :
    disk.Changes {target.place} (disk.discard target) where
  file?_eq l hl := by
    unfold Disk.discard
    split
    · next hremove =>
      obtain ⟨_, -, rfl⟩ := remove_eq_ok hremove
      exact file?_of_lookup_eq (lookup_erase_of_ne disk hl)
    · rfl
  fileWithin _ hpath := fileWithin_discard hpath

theorem discardAll {copies : List Path} (h : ∀ copy ∈ copies, copy.place ∈ footprint)
    (disk : Disk) : disk.Changes footprint (copies.foldl Disk.discard disk) := by
  induction copies generalizing disk with
  | nil => exact .refl footprint disk
  | cons copy copies ih =>
    rw [forall_mem_cons] at h
    exact ((discard disk copy).mono (Set.singleton_subset_iff.2 h.1)).trans (ih h.2 _)

end Changes

/-! ## Files that are deleted -/

theorem file?_discard_eq_none (h : disk.file? l = none) (target : Path) :
    (disk.discard target).file? l = none := by
  rw [file?_eq_none_iff] at h ⊢
  exact fun hfile => h hfile.of_discard

theorem file?_discardAll_eq_none (h : disk.file? l = none) (copies : List Path) :
    (copies.foldl discard disk).file? l = none := by
  rw [file?_eq_none_iff] at h ⊢
  exact fun hfile => h hfile.of_discardAll

/-- A file that can be read is gone once it is deleted. -/
theorem file?_discard_of_read (hread : disk.read target = .ok content) :
    (disk.discard target).file? target.place = none :=
  file?_eq_none_iff.2 (not_fileAt_discard (read_eq_ok_iff.1 hread).1)

theorem file?_discardAll_of_read {copies : List Path} (htarget : target ∈ copies)
    (hread : disk.read target = .ok content) :
    (copies.foldl discard disk).file? target.place = none :=
  file?_eq_none_iff.2 (not_fileAt_discardAll htarget (read_eq_ok_iff.1 hread).1)

end PeerTransfer.Disk
