import PeerTransfer.Proofs.Disk.Folders

/-!
# Where paths lead

A disk has no links, so where a path leads is told by its text (`Path.place`); what a disk adds is
only whether the path leads there at all. A file keeps its content while files at other places are
written and removed and while folders are made, whether or not that succeeds
(`Disk.FileWithin`).
-/

namespace PeerTransfer

open List

namespace Path

/-- The location that segments lead to from another. -/
def follow : Disk.Location → List String → Disk.Location
  | here, [] => here
  | here, segment :: rest =>
    if isIdle segment then follow here rest
    else if segment = ".." then follow here.dropLast rest
    else follow (here ++ [segment]) rest

/-- The location that a path leads to on every disk on which it leads anywhere. -/
def place (path : Path) : Disk.Location :=
  follow [] path.segments

theorem follow_append (here : Disk.Location) (segments segments' : List String) :
    follow here (segments ++ segments') = follow (follow here segments) segments' := by
  induction segments generalizing here with
  | nil => rfl
  | cons segment segments ih =>
    rw [cons_append, follow, follow.eq_2 here segment segments]
    split_ifs
    · exact ih _
    · exact ih _
    · exact ih _

/-! ## Files in a folder -/

/-- A name that leads to a file of the folder it is joined to. -/
structure IsPlain (name : String) : Prop where
  slash : '/' ∉ name.toList
  not_idle : isIdle name = false
  not_up : name ≠ ".."

theorem split_ne_nil (cs : List Char) : split cs ≠ [] := by
  cases cs with
  | nil => simp [split]
  | cons c cs =>
    unfold split
    split_ifs
    · simp
    · split <;> simp

theorem split_append_slash (cs ds : List Char) :
    split (cs ++ '/' :: ds) = split cs ++ split ds := by
  induction cs with
  | nil => simp [split]
  | cons c cs ih =>
    rw [cons_append, split, split.eq_2 c cs, ih]
    split_ifs
    · rfl
    · cases hsplit : split cs with
      | nil => exact absurd hsplit (split_ne_nil cs)
      | cons piece pieces => rfl

theorem split_of_not_mem {cs : List Char} (h : '/' ∉ cs) : split cs = [cs] := by
  induction cs with
  | nil => rfl
  | cons c cs ih =>
    rw [mem_cons, not_or] at h
    unfold split
    rw [if_neg (Ne.symm h.1), ih h.2]

theorem segments_of_toList {text : String} {cs ds : List Char} (h : text.toList = cs ++ '/' :: ds) :
    (Path.mk text).segments = (split cs).map String.ofList ++ (split ds).map String.ofList := by
  unfold segments
  rw [h, split_append_slash, map_append]

theorem place_of_toList {text : String} {cs ds : List Char} (h : text.toList = cs ++ '/' :: ds) :
    (Path.mk text).place =
      follow (follow [] ((split cs).map String.ofList)) ((split ds).map String.ofList) := by
  unfold place
  rw [segments_of_toList h, follow_append]

section IsPlain

variable {name : String} (hname : IsPlain name)

include hname

theorem segments_of_isPlain : (Path.mk name).segments = [name] := by
  unfold segments
  rw [split_of_not_mem hname.slash, map_singleton, String.ofList_toList]

/-- A plain name after a slash is the last segment of a path. -/
theorem segments_append_of_isPlain {text : String} {cs : List Char}
    (h : text.toList = cs ++ '/' :: name.toList) :
    (Path.mk text).segments = (split cs).map String.ofList ++ [name] := by
  rw [segments_of_toList h, split_of_not_mem hname.slash, map_singleton, String.ofList_toList]

theorem follow_of_isPlain (here : Disk.Location) : follow here [name] = here ++ [name] := by
  simp [follow, hname.not_idle, hname.not_up]

end IsPlain

/-- What is joined to a folder stands alone or after the last slash. -/
theorem join_cases (folder : Path) (name : String) :
    (folder.text = "" ∧ folder.join name = ⟨name⟩) ∨
      ∃ cs, (folder.join name).text.toList = cs ++ '/' :: name.toList ∧
        folder.place = follow [] ((split cs).map String.ofList) := by
  unfold join
  split_ifs with hempty hslash
  · exact .inl ⟨hempty, rfl⟩
  · obtain ⟨cs, hcs⟩ := getLast?_eq_some_iff.1 hslash
    refine .inr ⟨cs, ?_, place_of_toList hcs⟩
    rw [String.toList_append, hcs, append_assoc]
    rfl
  · refine .inr ⟨folder.text.toList, ?_, rfl⟩
    rw [String.toList_append, String.toList_append, append_assoc]
    rfl

/-- A file stands right in the folder that its name is joined to. -/
theorem place_join (folder : Path) {name : String} (h : IsPlain name) :
    (folder.join name).place = folder.place ++ [name] := by
  obtain ⟨hempty, hjoin⟩ | ⟨cs, htext, hfolder⟩ := join_cases folder name
  · have hroot : folder.place = [] := by
      unfold place segments
      rw [hempty]
      rfl
    rw [hjoin, hroot, place, segments_of_isPlain h, follow_of_isPlain h]
  · rw [place, segments_append_of_isPlain h htext, follow_append, follow_of_isPlain h, hfolder]

end Path

namespace Disk

variable {disk disk' : Disk} {path target : Path} {content : Bytes}

theorem walk_eq_follow {here l : Location} {segments : List String}
    (h : disk.walk here segments = .ok l) : l = Path.follow here segments := by
  induction segments generalizing here with
  | nil =>
    cases h
    rfl
  | cons segment segments ih =>
    unfold walk at h
    unfold Path.follow
    split at h
    · cases h
    · cases h
    · split_ifs at h ⊢
      · exact ih h
      · exact ih h
      · exact ih h

theorem locate_eq_place {l : Location} (h : disk.locate path = .ok l) : l = path.place := by
  unfold locate at h
  split_ifs at h
  exact walk_eq_follow h

/-! ## What a file holds -/

theorem read_eq_ok_iff :
    disk.read path = .ok content ↔
      disk.locate path = .ok path.place ∧ disk.lookup path.place = some (.file content) := by
  unfold read
  cases hlocate : disk.locate path with
  | error refusal =>
    constructor
    · rintro ⟨⟩
    · rintro ⟨⟨⟩, -⟩
  | ok l =>
    obtain rfl := locate_eq_place hlocate
    dsimp only [bind, Except.bind]
    cases hlookup : disk.lookup path.place with
    | none => simp
    | some entry => cases entry <;> simp

/-- A file that can be read on one disk can be read on the other, and has the same content. -/
def FileWithin (disk : Disk) (path : Path) (disk' : Disk) : Prop :=
  ∀ content, disk.read path = .ok content → disk'.read path = .ok content

theorem FileWithin.refl (disk : Disk) (path : Path) : disk.FileWithin path disk :=
  fun _ h => h

theorem FileWithin.trans {disk'' : Disk} (h : disk.FileWithin path disk')
    (h' : disk'.FileWithin path disk'') : disk.FileWithin path disk'' :=
  fun content hread => h' content (h content hread)

theorem fileWithin_of_folders (h : disk.FoldersWithin disk')
    (hlookup : disk'.lookup path.place = disk.lookup path.place) : disk.FileWithin path disk' := by
  intro content hread
  rw [read_eq_ok_iff] at hread ⊢
  exact ⟨locate_of_folders h hread.1, hlookup.trans hread.2⟩

theorem fileWithin_put {l : Location} {entry : Entry} (hfolder : disk.lookup l ≠ some .folder)
    (hne : path.place ≠ l) : disk.FileWithin path (disk.put l entry) :=
  fileWithin_of_folders (foldersWithin_put hfolder entry) (lookup_put_of_ne disk hne entry)

theorem foldersWithin_erase {l : Location} (hfile : disk.lookup l = some (.file content)) :
    disk.FoldersWithin (disk.erase l) := by
  intro l' hl'
  have hne : l' ≠ l := by
    rintro rfl
    cases hfile.symm.trans hl'
  rwa [lookup_erase_of_ne disk hne]

theorem fileWithin_erase {l : Location} (hfile : disk.lookup l = some (.file content))
    (hne : path.place ≠ l) : disk.FileWithin path (disk.erase l) :=
  fileWithin_of_folders (foldersWithin_erase hfile) (lookup_erase_of_ne disk hne)

/-! ## What leaves a file as it is -/

/-- Folders are made where nothing stands. -/
theorem fileWithin_makeWalk (path : Path) (here : Location) (segments : List String)
    (disk : Disk) : disk.FileWithin path (makeWalk here segments disk).2 := by
  induction segments generalizing here disk with
  | nil =>
    unfold makeWalk
    split_ifs <;> exact .refl disk path
  | cons segment segments ih =>
    unfold makeWalk
    split
    · exact .refl disk path
    · exact .refl disk path
    · split_ifs
      · exact ih _ disk
      · exact ih _ disk
      · exact .refl disk path
      · dsimp only
        split
        · next hnone =>
          intro content hread
          have hne : path.place ≠ here ++ [segment] := by
            intro heq
            rw [← heq, (read_eq_ok_iff.1 hread).2] at hnone
            cases hnone
          have hfolder : disk.lookup (here ++ [segment]) ≠ some .folder := by simp [hnone]
          exact ih _ _ content (fileWithin_put hfolder hne content hread)
        · exact ih _ disk

theorem fileWithin_makeFolders (path folder : Path) (disk : Disk) :
    disk.FileWithin path (disk.makeFolders folder).2 := by
  unfold makeFolders
  split_ifs
  · exact .refl disk path
  · exact .refl disk path
  · have hmade :=
      fileWithin_makeWalk path [] (folder.segments.filter (!Path.isIdle ·)).dropLast disk
    split
    · next h => rwa [h] at hmade
    · next h =>
      rw [h] at hmade
      split_ifs <;> exact hmade
  · exact fileWithin_makeWalk path _ _ disk

theorem write_eq_ok (h : disk.write target content = .ok disk') :
    disk.locate target = .ok target.place ∧ disk.lookup target.place ≠ some .folder ∧
      disk' = disk.put target.place (.file content) := by
  unfold write at h
  cases hlocate : disk.locate target with
  | error refusal =>
    rw [hlocate] at h
    cases h
  | ok l =>
    rw [hlocate] at h
    obtain rfl := locate_eq_place hlocate
    dsimp only [bind, Except.bind] at h
    split at h
    · cases h
    · next hfolder =>
      cases h
      exact ⟨rfl, hfolder, rfl⟩

theorem fileWithin_write (h : disk.write target content = .ok disk')
    (hne : path.place ≠ target.place) : disk.FileWithin path disk' := by
  obtain ⟨-, hfolder, rfl⟩ := write_eq_ok h
  exact fileWithin_put hfolder hne

theorem read_of_write (h : disk.write target content = .ok disk') :
    disk'.read target = .ok content := by
  obtain ⟨hlocate, hfolder, rfl⟩ := write_eq_ok h
  have hroot : target.place ≠ [] := by
    intro hroot
    rw [hroot] at hfolder
    exact hfolder (lookup_root disk)
  rw [read_eq_ok_iff]
  exact ⟨locate_of_folders (foldersWithin_put hfolder _) hlocate, lookup_put_self disk hroot _⟩

theorem remove_eq_ok (h : disk.remove target = .ok disk') :
    ∃ content, disk.read target = .ok content ∧ disk' = disk.erase target.place := by
  unfold remove at h
  cases hlocate : disk.locate target with
  | error refusal =>
    rw [hlocate] at h
    cases h
  | ok l =>
    rw [hlocate] at h
    obtain rfl := locate_eq_place hlocate
    dsimp only [bind, Except.bind] at h
    split at h
    · next content hfile =>
      cases h
      exact ⟨content, read_eq_ok_iff.2 ⟨hlocate, hfile⟩, rfl⟩
    · cases h
    · cases h

theorem fileWithin_remove (h : disk.remove target = .ok disk') (hne : path.place ≠ target.place) :
    disk.FileWithin path disk' := by
  obtain ⟨content, hread, rfl⟩ := remove_eq_ok h
  exact fileWithin_erase (read_eq_ok_iff.1 hread).2 hne

theorem fileWithin_discard (hne : path.place ≠ target.place) :
    disk.FileWithin path (disk.discard target) := by
  unfold discard
  split
  · next h => exact fileWithin_remove h hne
  · exact .refl disk path

theorem fileWithin_discardAll {copies : List Path}
    (hne : ∀ copy ∈ copies, path.place ≠ copy.place) (disk : Disk) :
    disk.FileWithin path (copies.foldl discard disk) := by
  induction copies generalizing disk with
  | nil => exact .refl disk path
  | cons copy copies ih =>
    rw [forall_mem_cons] at hne
    exact (fileWithin_discard hne.1).trans (ih hne.2 _)

/-! ## Files that are gone -/

/-- The path leads to a location at which there is no folder. -/
structure IsFree (disk : Disk) (path : Path) : Prop where
  locate : disk.locate path = .ok path.place
  lookup : disk.lookup path.place ≠ some .folder

/-- The path leads to a location at which nothing stands. -/
structure IsVacant (disk : Disk) (path : Path) : Prop where
  locate : disk.locate path = .ok path.place
  lookup : disk.lookup path.place = none

theorem lookup_erase_self (disk : Disk) {l : Location} (hl : l ≠ []) :
    (disk.erase l).lookup l = none := by
  rw [lookup, if_neg hl]
  exact (lookup_filter_ne disk.entries l l).trans (if_pos rfl)

theorem IsFree.discard (h : disk.IsFree path) (target : Path) :
    (disk.discard target).IsFree path := by
  unfold Disk.discard
  split
  · next hremove =>
    obtain ⟨content, hread, rfl⟩ := remove_eq_ok hremove
    have hfile := (read_eq_ok_iff.1 hread).2
    refine ⟨locate_of_folders (foldersWithin_erase hfile) h.locate, ?_⟩
    by_cases heq : path.place = target.place
    · have hroot : target.place ≠ [] := fun hroot => h.lookup (by rw [heq, hroot, lookup_root])
      simp [heq, lookup_erase_self disk hroot]
    · rw [lookup_erase_of_ne disk heq]
      exact h.lookup
  · exact h

theorem IsVacant.discard (h : disk.IsVacant path) (target : Path) :
    (disk.discard target).IsVacant path := by
  unfold Disk.discard
  split
  · next hremove =>
    obtain ⟨content, hread, rfl⟩ := remove_eq_ok hremove
    have hfile := (read_eq_ok_iff.1 hread).2
    have hne : path.place ≠ target.place := fun heq => by simp [heq ▸ h.lookup] at hfile
    exact ⟨locate_of_folders (foldersWithin_erase hfile) h.locate,
      (lookup_erase_of_ne disk hne).trans h.lookup⟩
  · exact h

theorem IsFree.isVacant_discard (h : disk.IsFree path) : (disk.discard path).IsVacant path := by
  unfold Disk.discard remove
  rw [h.locate]
  dsimp only [bind, Except.bind]
  cases hlookup : disk.lookup path.place with
  | none => exact ⟨h.locate, hlookup⟩
  | some entry =>
    cases entry with
    | folder => exact absurd hlookup h.lookup
    | file content =>
      have hroot : path.place ≠ [] := fun hroot => by simp [hroot] at hlookup
      exact ⟨locate_of_folders (foldersWithin_erase hlookup) h.locate, lookup_erase_self disk hroot⟩

/-- A file can be read on both disks, and has the same content. -/
def Agree (path : Path) (disk disk' : Disk) : Prop :=
  ∃ content, disk.read path = .ok content ∧ disk'.read path = .ok content

section Agree

variable {made made' : Disk}

theorem Agree.of_within (h : Agree path disk disk') (hwithin : disk.FileWithin path made)
    (hwithin' : disk'.FileWithin path made') : Agree path made made' := by
  obtain ⟨content, hread, hread'⟩ := h
  exact ⟨content, hwithin content hread, hwithin' content hread'⟩

/-- Disks that share a file still do so once the same file is written on both, be it that one. -/
theorem Agree.write (hagree : Agree path disk disk') (h : disk.write target content = .ok made)
    (h' : disk'.write target content = .ok made') : Agree path made made' := by
  by_cases hne : path.place = target.place
  · have hwritten {disk made : Disk} (h : disk.write target content = .ok made)
        {old : Bytes} (hread : disk.read path = .ok old) : made.read path = .ok content := by
      have hnew := (read_eq_ok_iff.1 (read_of_write h)).2
      obtain ⟨-, hfolder, rfl⟩ := write_eq_ok h
      rw [read_eq_ok_iff, hne]
      exact ⟨hne ▸ locate_of_folders (foldersWithin_put hfolder _) (read_eq_ok_iff.1 hread).1, hnew⟩
    obtain ⟨old, hread, hread'⟩ := hagree
    exact ⟨content, hwritten h hread, hwritten h' hread'⟩
  · exact hagree.of_within (fileWithin_write h hne) (fileWithin_write h' hne)

end Agree

end Disk

end PeerTransfer
