import PeerTransfer.Disk
import PeerTransfer.Proofs.Lookup

/-!
# Folders that stay

A path leads its way through folders, so it leads to the same location on every disk that has those
folders as well (`walk_of_folders`). Making folders and writing files takes no folder away, and a
folder that was made need not be made again (`makeFolders_of_makeFolders`).
-/

namespace PeerTransfer.Disk

open List

/-! ## What stands where an entry was put -/

@[simp] theorem lookup_root (disk : Disk) : disk.lookup [] = some .folder :=
  if_pos rfl

theorem lookup_put_self (disk : Disk) {l : Location} (hl : l ≠ []) (entry : Entry) :
    (disk.put l entry).lookup l = some entry := by
  rw [lookup, if_neg hl]
  exact (lookup_filter_ne_concat disk.entries l l entry).trans (if_pos rfl)

theorem lookup_put_of_ne (disk : Disk) {l l' : Location} (h : l' ≠ l) (entry : Entry) :
    (disk.put l entry).lookup l' = disk.lookup l' := by
  have hlookup := (lookup_filter_ne_concat disk.entries l l' entry).trans (if_neg h)
  exact congrArg (fun found => if l' = [] then some Entry.folder else found) hlookup

theorem lookup_erase_of_ne (disk : Disk) {l l' : Location} (h : l' ≠ l) :
    (disk.erase l).lookup l' = disk.lookup l' := by
  have hlookup := (lookup_filter_ne disk.entries l l').trans (if_neg h)
  exact congrArg (fun found => if l' = [] then some Entry.folder else found) hlookup

/-! ## Disks with the same folders and more -/

/-- Every folder of one disk stands on another as well. -/
def FoldersWithin (disk disk' : Disk) : Prop :=
  ∀ l, disk.lookup l = some .folder → disk'.lookup l = some .folder

theorem FoldersWithin.refl (disk : Disk) : disk.FoldersWithin disk :=
  fun _ h => h

theorem FoldersWithin.trans {disk₁ disk₂ disk₃ : Disk} (h₁₂ : disk₁.FoldersWithin disk₂)
    (h₂₃ : disk₂.FoldersWithin disk₃) : disk₁.FoldersWithin disk₃ :=
  fun l h => h₂₃ l (h₁₂ l h)

theorem foldersWithin_put {disk : Disk} {l : Location} (h : disk.lookup l ≠ some .folder)
    (entry : Entry) : disk.FoldersWithin (disk.put l entry) := by
  intro l' hl'
  have hne : l' ≠ l := by
    rintro rfl
    exact h hl'
  rwa [lookup_put_of_ne disk hne]

theorem foldersWithin_put_folder (disk : Disk) (l : Location) :
    disk.FoldersWithin (disk.put l .folder) := by
  intro l' hl'
  by_cases heq : l' = l
  · subst heq
    by_cases hroot : l' = []
    · rw [hroot, lookup_root]
    · exact lookup_put_self disk hroot .folder
  · rwa [lookup_put_of_ne disk heq]

variable {disk disk' : Disk}

/-- A path leads to the same location wherever its folders stand. -/
theorem walk_of_folders (h : disk.FoldersWithin disk') {here l : Location} {segments : List String}
    (hwalk : disk.walk here segments = .ok l) : disk'.walk here segments = .ok l := by
  induction segments generalizing here with
  | nil => exact hwalk
  | cons segment segments ih =>
    unfold walk at hwalk ⊢
    cases hhere : disk.lookup here with
    | none => simp [hhere] at hwalk
    | some entry =>
      cases entry with
      | file content => simp [hhere] at hwalk
      | folder =>
        rw [hhere] at hwalk
        rw [h here hhere]
        dsimp only at hwalk ⊢
        split_ifs at hwalk ⊢
        · exact ih hwalk
        · exact ih hwalk
        · exact ih hwalk

theorem locate_of_folders (h : disk.FoldersWithin disk') {path : Path} {l : Location}
    (hlocate : disk.locate path = .ok l) : disk'.locate path = .ok l := by
  unfold locate at hlocate ⊢
  split_ifs at hlocate ⊢
  exact walk_of_folders h hlocate

theorem holdsFolder_iff {path : Path} :
    disk.holdsFolder path = true ↔
      ∃ l, disk.locate path = .ok l ∧ disk.lookup l = some .folder := by
  unfold holdsFolder
  cases disk.locate path with
  | error refusal => simp
  | ok l => simp

theorem holdsFolder_of_folders (h : disk.FoldersWithin disk') {path : Path}
    (hholds : disk.holdsFolder path = true) : disk'.holdsFolder path = true := by
  obtain ⟨l, hlocate, hfolder⟩ := holdsFolder_iff.1 hholds
  exact holdsFolder_iff.2 ⟨l, locate_of_folders h hlocate, h l hfolder⟩

/-! ## Folders that were made -/

/-- Making folders takes none away, also where it is refused in the end. -/
theorem foldersWithin_makeWalk (here : Location) (segments : List String) (disk : Disk) :
    disk.FoldersWithin (makeWalk here segments disk).2 := by
  induction segments generalizing here disk with
  | nil =>
    unfold makeWalk
    split_ifs <;> exact .refl disk
  | cons segment segments ih =>
    unfold makeWalk
    split
    · exact .refl disk
    · exact .refl disk
    · split_ifs
      · exact ih _ disk
      · exact ih _ disk
      · exact .refl disk
      · dsimp only
        split
        · exact (foldersWithin_put_folder _ _).trans (ih _ _)
        · exact ih _ disk

theorem foldersWithin_makeFolders (folder : Path) (disk : Disk) :
    disk.FoldersWithin (disk.makeFolders folder).2 := by
  unfold makeFolders
  split_ifs
  · exact .refl disk
  · exact .refl disk
  · have hmade := foldersWithin_makeWalk [] (folder.segments.filter (!Path.isIdle ·)).dropLast disk
    split
    · next h => rwa [h] at hmade
    · next h =>
      rw [h] at hmade
      split_ifs <;> exact hmade
  · exact foldersWithin_makeWalk [] folder.segments disk

/-- What was walked while folders were made can be walked, and ends in a folder. -/
theorem walk_of_makeWalk {here : Location} {segments : List String}
    (hmake : makeWalk here segments disk = (.ok (), disk')) :
    ∃ l, disk'.walk here segments = .ok l ∧ disk'.lookup l = some .folder := by
  induction segments generalizing here disk with
  | nil =>
    unfold makeWalk at hmake
    split_ifs at hmake with hfolder
    · cases hmake
      exact ⟨here, rfl, hfolder⟩
    · cases hmake
  | cons segment segments ih =>
    have hwithin := foldersWithin_makeWalk here (segment :: segments) disk
    rw [hmake] at hwithin
    unfold makeWalk at hmake
    unfold walk
    split at hmake
    · cases hmake
    · cases hmake
    · next hhere =>
      rw [hwithin here hhere]
      dsimp only
      split_ifs at hmake ⊢
      · exact ih hmake
      · exact ih hmake
      · cases hmake
      · dsimp only at hmake
        split at hmake
        · exact ih hmake
        · exact ih hmake

theorem makeFolders_of_holdsFolder {path : Path} (h : disk.holdsFolder path = true) :
    disk.makeFolders path = (.ok (), disk) := by
  unfold makeFolders
  rw [h, Bool.or_true, if_pos rfl]

/-- Folders that were made stand, unless there was nothing to make. -/
theorem holdsFolder_of_makeFolders {path : Path}
    (hmake : disk.makeFolders path = (.ok (), disk')) :
    path.text = "" ∨ disk'.holdsFolder path = true := by
  by_cases htext : path.text = ""
  · exact .inl htext
  refine .inr ?_
  unfold makeFolders at hmake
  split_ifs at hmake with hholds hbad hdot
  · cases hmake
    simpa [htext] using hholds
  · cases hmake
  · split at hmake
    · cases hmake
    · split_ifs at hmake with hmade
      · cases hmake
        exact hmade
      · cases hmake
  · obtain ⟨l, hwalk, hfolder⟩ := walk_of_makeWalk hmake
    refine holdsFolder_iff.2 ⟨l, ?_, hfolder⟩
    rw [locate, if_neg htext, if_neg hbad]
    exact hwalk

/-- A folder is made once, and then stands for as long as folders do. -/
theorem makeFolders_of_makeFolders {disk'' : Disk} {path : Path}
    (hmake : disk.makeFolders path = (.ok (), disk')) (h : disk'.FoldersWithin disk'') :
    disk''.makeFolders path = (.ok (), disk'') := by
  rcases holdsFolder_of_makeFolders hmake with htext | hholds
  · rw [makeFolders, if_pos (by simp [htext])]
  · exact makeFolders_of_holdsFolder (holdsFolder_of_folders h hholds)

/-! ## Files -/

theorem write_of_locate {target : Path} {l : Location} (hlocate : disk.locate target = .ok l)
    (hfolder : disk.lookup l ≠ some .folder) (content : Bytes) :
    disk.write target content = .ok (disk.put l (.file content)) := by
  unfold write
  rw [hlocate]
  refine (pure_bind (m := Except Refusal) l _).trans ?_
  split
  · next h => exact absurd h hfolder
  · rfl

end PeerTransfer.Disk
