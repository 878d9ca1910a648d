import PeerTransfer.Proofs.Disk.Content

/-!
# Programs on a disk

A program asks one thing of a disk after another, and every answer decides how it goes on
(`Program`). How much of a call is carried out before it is refused is up to the drive that runs the
program (`Drive`). Files change at no other locations than those that the program touches
(`Program.changes_run`), and which these can be is told by the program alone, whatever it is
answered (`Program.Confined`).
-/

namespace PeerTransfer.Disk

open List

/-- How a disk carries out what a program asks of it. Any call may be refused. Folders may be made
up to some point, and a write that is refused has changed nothing or has put some other content into
its file. -/
structure Drive where
  read : Path → Disk → Except Refusal Bytes
  makeFolders : Path → Disk → Except Refusal Unit × Disk
  write : Path → Bytes → Disk → Except Refusal Unit × Disk
  changes_makeFolders (folder : Path) (disk : Disk) : disk.Changes ∅ (makeFolders folder disk).2
  write_ok {target : Path} {content : Bytes} {disk disk' : Disk} :
    write target content disk = (.ok (), disk') → disk.write target content = .ok disk'
  write_error {target : Path} {content : Bytes} {disk disk' : Disk} {refusal : Refusal} :
    write target content disk = (.error refusal, disk') →
      disk' = disk ∨ ∃ part, disk.write target part = .ok disk'

namespace Drive

/-- The drive that carries out every call in full or, where the disk has a reason to refuse it, not
at all. -/
def sound : Drive where
  read path disk := disk.read path
  makeFolders folder disk := disk.makeFolders folder
  write target content disk :=
    match disk.write target content with
    | .ok disk => (.ok (), disk)
    | .error refusal => (.error refusal, disk)
  changes_makeFolders := Changes.makeFolders
  write_ok := by
    intro target content disk disk' h
    split at h
    · next hwrite =>
      cases h
      exact hwrite
    · cases h
  write_error := by
    intro target content disk disk' refusal h
    split at h
    · cases h
    · cases h
      exact .inl rfl

/-- The drive that breaks off every write once the first byte is written. -/
def torn : Drive where
  read := sound.read
  makeFolders := sound.makeFolders
  write target content disk :=
    match disk.write target (content.take 1) with
    | .ok disk => (.error .missing, disk)
    | .error refusal => (.error refusal, disk)
  changes_makeFolders := sound.changes_makeFolders
  write_ok := by
    intro target content disk disk' h
    split at h <;> cases h
  write_error := by
    intro target content disk disk' refusal h
    split at h
    · next hwrite =>
      cases h
      exact .inr ⟨_, hwrite⟩
    · cases h
      exact .inl rfl

theorem changes_write (drive : Drive) (target : Path) (content : Bytes) (disk : Disk) :
    disk.Changes {target.place} (drive.write target content disk).2 := by
  cases hwrite : drive.write target content disk with
  | mk answer disk' =>
    cases answer with
    | ok => exact .write (drive.write_ok hwrite)
    | error refusal =>
      rcases drive.write_error hwrite with rfl | ⟨part, hpart⟩
      · exact .refl _ disk'
      · exact .write hpart

end Drive

/-- Calls to a disk, one after another, with an answer of type `α` at the end. -/
inductive Program (α : Type) where
  | done (a : α)
  | read (path : Path) (next : Except Refusal Bytes → Program α)
  | makeFolders (folder : Path) (next : Except Refusal Unit → Program α)
  | write (target : Path) (content : Bytes) (next : Except Refusal Unit → Program α)
  | discard (target : Path) (next : Program α)

namespace Program

variable {α : Type}

/-- Runs the program on a drive. -/
def run (drive : Drive) : Program α → Disk → α × Disk
  | done a, disk => (a, disk)
  | read path next, disk => (next (drive.read path disk)).run drive disk
  | makeFolders folder next, disk =>
    (next (drive.makeFolders folder disk).1).run drive (drive.makeFolders folder disk).2
  | write target content next, disk =>
    (next (drive.write target content disk).1).run drive (drive.write target content disk).2
  | discard target next, disk => next.run drive (disk.discard target)

/-- The paths of the files that the program writes or deletes on a drive, in order. -/
def touched (drive : Drive) : Program α → Disk → List Path
  | done _, _ => []
  | read path next, disk => (next (drive.read path disk)).touched drive disk
  | makeFolders folder next, disk =>
    (next (drive.makeFolders folder disk).1).touched drive (drive.makeFolders folder disk).2
  | write target content next, disk =>
    target :: (next (drive.write target content disk).1).touched drive
      (drive.write target content disk).2
  | discard target next, disk => target :: next.touched drive (disk.discard target)

/-- Whatever it is answered, the program writes and deletes no other files than these, and this
holds of what it comes to. -/
def Confined (Allowed : Path → Prop) (Answer : α → Prop) : Program α → Prop
  | done a => Answer a
  | read _ next => ∀ answer, (next answer).Confined Allowed Answer
  | makeFolders _ next => ∀ answer, (next answer).Confined Allowed Answer
  | write target _ next => Allowed target ∧ ∀ answer, (next answer).Confined Allowed Answer
  | discard target next => Allowed target ∧ next.Confined Allowed Answer

section Confined

variable {Allowed : Path → Prop} {Answer : α → Prop} {program : Program α}

theorem Confined.touched (h : program.Confined Allowed Answer) (drive : Drive) (disk : Disk) :
    ∀ path ∈ program.touched drive disk, Allowed path := by
  induction program generalizing disk with
  | done a => exact fun path hpath => absurd hpath not_mem_nil
  | read path next ih => exact ih _ (h _) disk
  | makeFolders folder next ih => exact ih _ (h _) _
  | write target content next ih => exact forall_mem_cons.2 ⟨h.1, ih _ (h.2 _) _⟩
  | discard target next ih => exact forall_mem_cons.2 ⟨h.1, ih h.2 _⟩

theorem Confined.answer (h : program.Confined Allowed Answer) (drive : Drive) (disk : Disk) :
    Answer (program.run drive disk).1 := by
  induction program generalizing disk with
  | done a => exact h
  | read path next ih => exact ih _ (h _) disk
  | makeFolders folder next ih => exact ih _ (h _) _
  | write target content next ih => exact ih _ (h.2 _) _
  | discard target next ih => exact ih h.2 _

end Confined

/-- Files change where the program touches them and nowhere else. -/
theorem changes_run {footprint : Set Location} {program : Program α} {drive : Drive} {disk : Disk}
    (h : ∀ path ∈ program.touched drive disk, path.place ∈ footprint) :
    disk.Changes footprint (program.run drive disk).2 := by
  induction program generalizing disk with
  | done a => exact .refl footprint disk
  | read path next ih => exact ih _ h
  | makeFolders folder next ih =>
    have hmade := drive.changes_makeFolders folder disk
    exact (hmade.mono (Set.empty_subset footprint)).trans (ih _ h)
  | write target content next ih =>
    have htouched := forall_mem_cons.1 h
    have hwritten := drive.changes_write target content disk
    exact (hwritten.mono (Set.singleton_subset_iff.2 htouched.1)).trans (ih _ htouched.2)
  | discard target next ih =>
    have htouched := forall_mem_cons.1 h
    have hdeleted := Changes.discard disk target
    exact (hdeleted.mono (Set.singleton_subset_iff.2 htouched.1)).trans (ih htouched.2)

end Program

/-! ## Making a file -/

/-- What becomes of a disk on which a program tries to make a file. A file that it fails to make is
not there, unless one was there before. -/
structure Tries (target : Path) (success : Bool) (disk disk' : Disk) : Prop where
  changes : disk.Changes {target.place} disk'
  exists_read : success = true → ∃ content, disk'.read target = .ok content
  file?_eq_none : success = false → disk.file? target.place = none →
    disk'.file? target.place = none

namespace Tries

variable {disk disk' made : Disk} {target : Path} {content : Bytes}

theorem refl (target : Path) (disk : Disk) : Tries target false disk disk :=
  ⟨.refl _ disk, nofun, fun _ h => h⟩

theorem after {success : Bool} (hmade : disk.Changes ∅ made) (h : Tries target success made disk') :
    Tries target success disk disk' where
  changes := (hmade.mono (Set.empty_subset _)).trans h.changes
  exists_read := h.exists_read
  file?_eq_none hfailed hnone :=
    h.file?_eq_none hfailed ((congrFun hmade.file?_eq_of_empty _).trans hnone)

theorem discard (h : Tries target false disk disk') :
    Tries target false disk (disk'.discard target) where
  changes := h.changes.trans (.discard disk' target)
  exists_read := nofun
  file?_eq_none hfailed hnone := file?_discard_eq_none (h.file?_eq_none hfailed hnone) target

theorem of_write (h : disk.write target content = .ok disk') : Tries target true disk disk' where
  changes := .write h
  exists_read _ := ⟨content, read_of_write h⟩
  file?_eq_none := nofun

/-- What a write that was refused has left is deleted. -/
theorem of_write_error {drive : Drive} {refusal : Refusal}
    (h : drive.write target content disk = (.error refusal, disk')) :
    Tries target false disk (disk'.discard target) := by
  rcases drive.write_error h with rfl | ⟨part, hpart⟩
  · exact (refl target disk').discard
  · refine ⟨(Changes.write hpart).trans (.discard disk' target), nofun, fun _ _ => ?_⟩
    exact file?_discard_of_read (read_of_write hpart)

end Tries

end PeerTransfer.Disk
