import PeerTransfer.Proofs.Batch.Handover

/-!
# What the names of stored files tell

A blob, a local copy and a downloaded file are named by the id of their unit and the ending of its
content type. The ids keep such names apart, in whatever batches and with whatever types. The ending
tells the type again, where the type was guessed from a name: of the extensions that stand for it an
ending has the first, and each of them is read as that type (`ofExtension_of_mem_known`). Both are
put together in `stored_apart_and_typed`.
-/

namespace PeerTransfer

open List

namespace ContentType

theorem ofExtension_of_mem_known : ∀ entry ∈ known, ofExtension entry.1 = entry.2 := by
  decide +kernel

theorem dot_not_mem_of_mem_known : ∀ entry ∈ known, '.' ∉ entry.1.toList := by
  decide

/-- A type that is guessed is a known one, or says that nothing is known. -/
theorem guess_cases (path : Path) :
    (∃ entry ∈ known, entry.2 = guess path) ∨ guess path = octetStream := by
  unfold guess
  split
  · next ext _ =>
    unfold ofExtension
    cases hfind : known.find? (·.1 = String.ofList (ext.toList.map Char.toLower)) with
    | none => exact .inr rfl
    | some entry => exact .inl ⟨entry, mem_of_find?_eq_some hfind, rfl⟩
  · exact .inr rfl

/-- A stored file tells the type that it was stored with, if that type was guessed. -/
theorem guess_of_storedName {path source : Path} {id : Uuid}
    (h : path.fileName? = some (storedName id (guess source))) : guess path = guess source := by
  have hext := Path.extension?_of_fileName? h
  unfold storedName at hext
  obtain ⟨entry, hentry, htype, hsuffix⟩ | ⟨hunknown, hsuffix⟩ := suffix_cases (guess source)
  · have hstem : id.text ≠ "" := by
      intro hempty
      simpa [hempty] using id.length_toList_text
    have hdot := dot_not_mem_of_mem_known entry hentry
    rw [hsuffix, Path.extensionOf?_append_dot hstem hdot] at hext
    -- this need not be the extension that `source` has, but it stands for the same type
    rw [guess, hext]
    exact (ofExtension_of_mem_known entry hentry).trans htype
  · have hnothing : guess source = octetStream := by
      refine (guess_cases source).resolve_left ?_
      rintro ⟨entry, hentry, htype⟩
      exact hunknown entry hentry htype
    rw [hsuffix, String.append_empty, Path.extensionOf?_of_not_mem id.dot_not_mem_text] at hext
    rw [guess_of_extension_none hext, hnothing]

end ContentType

namespace Phase

variable (batch : String) (unit : OutgoingUnit)

theorem fileName?_remotePathFor :
    (Path.mk (remotePathFor batch unit)).fileName? =
      some (storedName unit.id unit.contentType) :=
  Path.fileName?_of_toList (toList_remotePathFor batch unit) (isPlain_storedName _ _)

theorem nameInPath_remotePathFor :
    Batch.nameInPath (remotePathFor batch unit) = storedName unit.id unit.contentType := by
  have hplain := isPlain_storedName unit.id unit.contentType
  rw [Batch.nameInPath_of_toList (toList_remotePathFor batch unit) hplain.slash,
    String.ofList_toList]

end Phase

/-- The path is where a unit of this id and type has its file in a folder: the copy that is sent or
the file that is received. -/
inductive IsStoredAt (folder : Path) (id : Uuid) (contentType : String) : Path → Prop
  | copied (source : Path) :
      IsStoredAt folder id contentType (LoadRequest.targetIn ⟨id, source, contentType⟩ folder)
  | downloaded (remotePath : String) :
      IsStoredAt folder id contentType
        (DownloadRequest.targetIn ⟨id, remotePath, contentType⟩ folder)

theorem IsStoredAt.eq_join {folder path : Path} {id : Uuid} {contentType : String}
    (h : IsStoredAt folder id contentType path) :
    path = folder.join (storedName id contentType) := by
  cases h with
  | copied source => rfl
  | downloaded remotePath => rfl

/-- Units of different ids share no blob, whatever their batches and types are, and no file of one
folder. Where the type of a unit was guessed from some name, the same is guessed from the path of
its blob, from what follows the last slash of that path, and from its files. -/
theorem stored_apart_and_typed :
    (∀ (batch batch' : String) (unit unit' : OutgoingUnit), unit.id ≠ unit'.id →
      Phase.remotePathFor batch unit ≠ Phase.remotePathFor batch' unit') ∧
    (∀ (folder : Path) (id id' : Uuid) (contentType contentType' : String), id ≠ id' →
      ∀ path path', IsStoredAt folder id contentType path →
        IsStoredAt folder id' contentType' path' → path.place ≠ path'.place) ∧
    ∀ (source : Path) (batch : String) (unit : OutgoingUnit),
      unit.contentType = ContentType.guess source →
      let blob := Phase.remotePathFor batch unit
      ContentType.guess ⟨blob⟩ = ContentType.guess source ∧
        ContentType.guess ⟨Batch.nameInPath blob⟩ = ContentType.guess source ∧
        ∀ folder path, IsStoredAt folder unit.id unit.contentType path →
          ContentType.guess path = ContentType.guess source := by
  refine ⟨fun batch batch' unit unit' hids hblob => ?_, ?_, ?_⟩
  · exact hids (Phase.remotePathFor_inj hblob).2
  · intro folder id id' contentType contentType' hids path path' h h' hplace
    rw [h.eq_join, h'.eq_join] at hplace
    exact hids (place_stored_eq_iff.1 hplace).1
  · intro source batch unit htype blob
    have hplain := isPlain_storedName unit.id unit.contentType
    have htold {path : Path} (h : path.fileName? = some (storedName unit.id unit.contentType)) :
        ContentType.guess path = ContentType.guess source :=
      ContentType.guess_of_storedName (htype ▸ h)
    refine ⟨htold (Phase.fileName?_remotePathFor batch unit), htold ?_, fun folder path h => ?_⟩
    · rw [Phase.nameInPath_remotePathFor]
      exact Path.fileName?_of_isPlain hplain
    · rw [h.eq_join]
      exact htold (Path.fileName?_join folder hplain)

/-- The second blob lies below the first, as if that were a folder. -/
theorem stored_apart_and_typed_below :
    let one : Uuid := ⟨Vector.replicate 32 1⟩
    let note := OutgoingUnit.ofPath Uuid.zero ⟨"/x/note"⟩
    let photo := OutgoingUnit.ofPath one ⟨"/x/Photo.JPEG"⟩
    let noteBlob := Phase.remotePathFor "b" note
    let photoBlob := Phase.remotePathFor noteBlob photo
    let copy := note.targetIn ⟨"d/"⟩
    let download := DownloadRequest.targetIn ⟨one, photoBlob, photo.contentType⟩ ⟨"d/"⟩
    note.id ≠ photo.id ∧ noteBlob ≠ photoBlob ∧ copy.place ≠ download.place ∧
      photo.contentType = ContentType.guess ⟨"/x/Photo.JPEG"⟩ ∧
      ContentType.guess ⟨photoBlob⟩ = "image/jpeg" ∧
      ContentType.guess ⟨Batch.nameInPath photoBlob⟩ = "image/jpeg" ∧
      ContentType.guess download = "image/jpeg" := by
  intro one note photo noteBlob photoBlob copy download
  have hids : note.id ≠ photo.id := by decide
  have hjpeg : ContentType.guess ⟨"/x/Photo.JPEG"⟩ = "image/jpeg" := by decide +kernel
  have hcopy : IsStoredAt ⟨"d/"⟩ note.id note.contentType copy := .copied note.source
  have hdownload : IsStoredAt ⟨"d/"⟩ photo.id photo.contentType download := .downloaded photoBlob
  obtain ⟨hblobs, hfiles, htypes⟩ := stored_apart_and_typed
  obtain ⟨hblob, hname, hfile⟩ := htypes ⟨"/x/Photo.JPEG"⟩ noteBlob photo rfl
  exact ⟨hids, hblobs "b" noteBlob note photo hids, hfiles _ _ _ _ _ hids _ _ hcopy hdownload, rfl,
    hblob.trans hjpeg, hname.trans hjpeg, (hfile _ _ hdownload).trans hjpeg⟩

end PeerTransfer
