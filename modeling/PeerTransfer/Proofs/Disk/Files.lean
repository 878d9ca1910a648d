import PeerTransfer.Proofs.Disk.Place

/-!
# Where files come to stand

Only a write puts a file where none stood. Making folders and deleting files puts none anywhere, and
a file that can be reached is gone once it is deleted (`not_fileAt_discardAll`). So it can be told
what must have happened if a file has come to stand somewhere (`AddsOnlyIf`).
-/

namespace PeerTransfer.Disk

open List

variable {disk disk' disk'' : Disk} {l : Location} {folder path target : Path}

/-- A file stands at the location. -/
def FileAt (disk : Disk) (l : Location) : Prop :=
  ∃ content, disk.lookup l = some (.file content)

theorem FileAt.ne_root (h : disk.FileAt l) : l ≠ [] := by
  rintro rfl
  obtain ⟨content, hfile⟩ := h
  rw [lookup_root] at hfile
  cases hfile

/-! ## What puts a file somewhere -/

theorem FileAt.of_put_folder {here : Location} (h : (disk.put here .folder).FileAt l) :
    disk.FileAt l := by
  have hroot := h.ne_root
  obtain ⟨content, hfile⟩ := h
  by_cases heq : l = here
  · subst heq
    rw [lookup_put_self disk hroot] at hfile
    cases hfile
  · exact ⟨content, lookup_put_of_ne disk heq .folder ▸ hfile⟩

theorem FileAt.of_makeWalk {here : Location} {segments : List String}
    (h : (makeWalk here segments disk).2.FileAt l) : disk.FileAt l := by
  induction segments generalizing here disk with
  | nil =>
    unfold makeWalk at h
    split_ifs at h <;> exact h
  | cons segment segments ih =>
    unfold makeWalk at h
    split at h
    · exact h
    · exact h
    · split_ifs at h
      · exact ih h
      · exact ih h
      · exact h
      · dsimp only at h
        split at h
        · exact (ih h).of_put_folder
        · exact ih h

theorem FileAt.of_makeFolders (h : (disk.makeFolders folder).2.FileAt l) : disk.FileAt l := by
  unfold makeFolders at h
  split_ifs at h
  · exact h
  · exact h
  · have hmade (hfile : (makeWalk [] (folder.segments.filter (!Path.isIdle ·)).dropLast
        disk).2.FileAt l) : disk.FileAt l := hfile.of_makeWalk
    split at h
    · next hwalk =>
      rw [hwalk] at hmade
      exact hmade h
    · next hwalk =>
      rw [hwalk] at hmade
      split_ifs at h <;> exact hmade h
  · exact h.of_makeWalk

/-- A write puts a file nowhere but where its path leads. -/
theorem FileAt.of_write {content : Bytes} (hwrite : disk.write target content = .ok disk')
    (h : disk'.FileAt l) : disk.FileAt l ∨ target.place = l := by
  obtain ⟨-, -, rfl⟩ := write_eq_ok hwrite
  by_cases heq : l = target.place
  · exact .inr heq.symm
  · obtain ⟨found, hfile⟩ := h
    exact .inl ⟨found, lookup_put_of_ne disk heq _ ▸ hfile⟩

theorem FileAt.of_discard (h : (disk.discard target).FileAt l) : disk.FileAt l := by
  unfold discard at h
  split at h
  · next hremove =>
    obtain ⟨content, hread, rfl⟩ := remove_eq_ok hremove
    obtain ⟨found, hfile⟩ := h
    by_cases heq : l = target.place
    · exact ⟨content, heq ▸ (read_eq_ok_iff.1 hread).2⟩
    · exact ⟨found, lookup_erase_of_ne disk heq ▸ hfile⟩
  · exact h

theorem FileAt.of_discardAll {copies : List Path} (h : (copies.foldl discard disk).FileAt l) :
    disk.FileAt l := by
  induction copies generalizing disk with
  | nil => exact h
  | cons copy copies ih => exact (ih h).of_discard

/-! ## Files that are deleted -/

theorem foldersWithin_discard (disk : Disk) (target : Path) :
    disk.FoldersWithin (disk.discard target) := by
  unfold discard
  split
  · next hremove =>
    obtain ⟨content, hread, rfl⟩ := remove_eq_ok hremove
    exact foldersWithin_erase (read_eq_ok_iff.1 hread).2
  · exact .refl disk

theorem foldersWithin_discardAll (disk : Disk) (copies : List Path) :
    disk.FoldersWithin (copies.foldl discard disk) := by
  induction copies generalizing disk with
  | nil => exact .refl disk
  | cons copy copies ih => exact (foldersWithin_discard disk copy).trans (ih _)

theorem not_fileAt_discard (hlocate : disk.locate target = .ok target.place) :
    ¬(disk.discard target).FileAt target.place := by
  intro h
  obtain ⟨content, hfile⟩ := h.of_discard
  have hfree : disk.IsFree target := ⟨hlocate, by simp [hfile]⟩
  obtain ⟨found, hleft⟩ := h
  rw [hfree.isVacant_discard.lookup] at hleft
  cases hleft

/-- No file is left where a path leads that is among those whose files are deleted. -/
theorem not_fileAt_discardAll {copies : List Path} (htarget : target ∈ copies)
    (hlocate : disk.locate target = .ok target.place) :
    ¬(copies.foldl discard disk).FileAt target.place := by
  induction copies generalizing disk with
  | nil => exact absurd htarget not_mem_nil
  | cons copy copies ih =>
    rcases mem_cons.1 htarget with rfl | htarget
    · rw [foldl_cons]
      exact fun h => not_fileAt_discard hlocate h.of_discardAll
    · exact ih htarget (locate_of_folders (foldersWithin_discard disk copy) hlocate)

/-! ## What a change of the disk may do at a location -/

/-- The paths of a folder's files lead where they led. -/
def LeadsOn (folder : Path) (disk disk' : Disk) : Prop :=
  ∀ name, Path.IsPlain name → disk.locate (folder.join name) = .ok (folder.join name).place →
    disk'.locate (folder.join name) = .ok (folder.join name).place

theorem LeadsOn.of_folders (h : disk.FoldersWithin disk') : disk.LeadsOn folder disk' :=
  fun _ _ hlocate => locate_of_folders h hlocate

/-- A file that has come to stand at the location tells that `Why` holds, and the paths of the
folder's files lead where they led. -/
structure AddsOnlyIf (Why : Prop) (folder : Path) (l : Location) (disk disk' : Disk) : Prop where
  file : disk'.FileAt l → disk.FileAt l ∨ Why
  leads : disk.LeadsOn folder disk'

namespace AddsOnlyIf

variable {Why : Prop}

theorem refl (folder : Path) (l : Location) (disk : Disk) : disk.AddsOnlyIf Why folder l disk :=
  ⟨.inl, fun _ _ h => h⟩

theorem trans (h : disk.AddsOnlyIf Why folder l disk')
    (h' : disk'.AddsOnlyIf Why folder l disk'') : disk.AddsOnlyIf Why folder l disk'' where
  file hfile := (h'.file hfile).elim h.file .inr
  leads name hname hlocate := h'.leads name hname (h.leads name hname hlocate)

theorem of_folders (h : disk.FoldersWithin disk') (hfile : disk'.FileAt l → disk.FileAt l ∨ Why) :
    disk.AddsOnlyIf Why folder l disk' :=
  ⟨hfile, .of_folders h⟩

theorem makeFolders (folder' : Path) (disk : Disk) :
    disk.AddsOnlyIf Why folder l (disk.makeFolders folder').2 :=
  of_folders (foldersWithin_makeFolders folder' disk) fun h => .inl h.of_makeFolders

theorem discard (disk : Disk) (target : Path) :
    disk.AddsOnlyIf Why folder l (disk.discard target) :=
  of_folders (foldersWithin_discard disk target) fun h => .inl h.of_discard

theorem discardAll (disk : Disk) (copies : List Path) :
    disk.AddsOnlyIf Why folder l (copies.foldl Disk.discard disk) :=
  of_folders (foldersWithin_discardAll disk copies) fun h => .inl h.of_discardAll

theorem write {content : Bytes} (h : disk.write target content = .ok disk')
    (hwhy : target.place = l → Why) : disk.AddsOnlyIf Why folder l disk' := by
  obtain ⟨-, hfolder, hput⟩ := write_eq_ok h
  refine of_folders (hput ▸ foldersWithin_put hfolder _) fun hfile => ?_
  exact (FileAt.of_write h hfile).imp_right hwhy

end AddsOnlyIf

end PeerTransfer.Disk
