import PeerTransfer.Phase.Stage
import PeerTransfer.Proofs.Disk.Place
import PeerTransfer.Proofs.Uuid.Text
import PeerTransfer.Unit.Incoming

/-!
# Where the files and blobs of units are put

A unit's file is named by its id and the ending of its content type. All texts of ids are of the
same length, so two units of one folder share a file just if they share their id and that ending
(`place_stored_eq_iff`). A blob has the same name after the id of its batch, and no other unit of
any batch shares it (`remotePathFor_inj`).
-/

namespace PeerTransfer

open List

/-- Where a picked unit is copied to. -/
def OutgoingUnit.targetIn (unit : OutgoingUnit) (folder : Path) : Path :=
  LoadRequest.targetIn ⟨unit.id, unit.source, unit.contentType⟩ folder

/-- Where a unit is downloaded to. -/
def IncomingUnit.targetIn (unit : IncomingUnit) (folder : Path) : Path :=
  DownloadRequest.targetIn ⟨unit.id, unit.remotePath, unit.contentType⟩ folder

/-- The name of a stored file. -/
def storedName (id : Uuid) (contentType : String) : String :=
  id.text ++ ContentType.suffix contentType

namespace Uuid

theorem toList_text (id : Uuid) :
    id.text.toList = hyphenate (id.digits.toList.map Text.Hex.digitChar) :=
  String.toList_ofList

@[simp] theorem length_toList_text (id : Uuid) : id.text.toList.length = 36 := by
  rw [toList_text]
  apply length_hyphenate
  rw [length_map]
  exact id.digits.length_toList

theorem mem_of_mem_hyphenate {cs : List Char} {c : Char} (h : c ∈ hyphenate cs) :
    c ∈ cs ∨ c = '-' := by
  simp only [hyphenate, mem_append, mem_cons] at h
  have htake : ∀ {m n}, c ∈ (cs.drop m).take n → c ∈ cs :=
    fun h => mem_of_mem_drop (mem_of_mem_take h)
  rcases h with (((h | rfl | h) | rfl | h) | rfl | h) | rfl | h
  · exact .inl (mem_of_mem_take h)
  · exact .inr rfl
  · exact .inl (htake h)
  · exact .inr rfl
  · exact .inl (htake h)
  · exact .inr rfl
  · exact .inl (htake h)
  · exact .inr rfl
  · exact .inl (mem_of_mem_drop h)

theorem not_mem_text {c : Char} (hdigit : ∀ d, Text.Hex.digitChar d ≠ c) (hhyphen : c ≠ '-')
    (id : Uuid) : c ∉ id.text.toList := by
  intro h
  rw [toList_text] at h
  rcases mem_of_mem_hyphenate h with h | h
  · obtain ⟨d, -, hd⟩ := mem_map.1 h
    exact hdigit d hd
  · exact hhyphen h

theorem slash_not_mem_text (id : Uuid) : '/' ∉ id.text.toList :=
  id.not_mem_text (by decide) (by decide)

theorem dot_not_mem_text (id : Uuid) : '.' ∉ id.text.toList :=
  id.not_mem_text (by decide) (by decide)

end Uuid

namespace ContentType

/-- The ending of a known type is a dot and an extension that stands for it; others have none. -/
theorem suffix_cases (contentType : String) :
    (∃ entry ∈ known, entry.2 = contentType ∧ suffix contentType = "." ++ entry.1) ∨
      (∀ entry ∈ known, entry.2 ≠ contentType) ∧ suffix contentType = "" := by
  unfold suffix
  split
  · next ext type hfind =>
    have htype : type = contentType := by simpa using find?_some hfind
    exact .inl ⟨(ext, type), mem_of_find?_eq_some hfind, htype, rfl⟩
  · next hnone => exact .inr ⟨by simpa using hnone, rfl⟩

theorem slash_not_mem_suffix (contentType : String) : '/' ∉ (suffix contentType).toList := by
  obtain ⟨entry, hentry, -, hsuffix⟩ | ⟨-, hsuffix⟩ := suffix_cases contentType
  · have hknown : ∀ entry ∈ known, '/' ∉ ("." ++ entry.1).toList := by decide
    rw [hsuffix]
    exact hknown entry hentry
  · rw [hsuffix]
    exact not_mem_nil

end ContentType

theorem toList_storedName (id : Uuid) (contentType : String) :
    (storedName id contentType).toList =
      id.text.toList ++ (ContentType.suffix contentType).toList :=
  String.toList_append

theorem isPlain_storedName (id : Uuid) (contentType : String) :
    Path.IsPlain (storedName id contentType) := by
  have hlength : 36 ≤ (storedName id contentType).toList.length := by
    rw [toList_storedName, length_append, Uuid.length_toList_text]
    exact Nat.le_add_right _ _
  have hne : ∀ text : String, text.toList.length < 36 → storedName id contentType ≠ text := by
    rintro text htext rfl
    exact absurd hlength htext.not_ge
  refine ⟨?_, ?_, hne _ (by decide)⟩
  · rw [toList_storedName, mem_append, not_or]
    exact ⟨id.slash_not_mem_text, ContentType.slash_not_mem_suffix contentType⟩
  · have hempty := hne "" (by decide)
    have hdot := hne "." (by decide)
    simp [Path.isIdle, hempty, hdot]

theorem Uuid.isPlain_text (id : Uuid) : Path.IsPlain id.text := by
  have hname : storedName id "" = id.text := by
    unfold storedName
    rw [show ContentType.suffix "" = "" by decide, String.append_empty]
  exact hname ▸ isPlain_storedName id ""

theorem storedName_eq_iff {id id' : Uuid} {contentType contentType' : String} :
    storedName id contentType = storedName id' contentType' ↔
      id = id' ∧ ContentType.suffix contentType = ContentType.suffix contentType' := by
  constructor
  · intro h
    have hlist := congrArg String.toList h
    rw [toList_storedName, toList_storedName] at hlist
    obtain ⟨htext, hsuffix⟩ := append_inj hlist (by simp)
    exact ⟨Uuid.text_injective (String.toList_inj.1 htext), String.toList_inj.1 hsuffix⟩
  · rintro ⟨rfl, hsuffix⟩
    unfold storedName
    rw [hsuffix]

/-- Two stored files of one folder are the same just if id and ending are. -/
theorem place_stored_eq_iff {folder : Path} {id id' : Uuid} {contentType contentType' : String} :
    (folder.join (storedName id contentType)).place =
        (folder.join (storedName id' contentType')).place ↔
      id = id' ∧ ContentType.suffix contentType = ContentType.suffix contentType' := by
  rw [Path.place_join folder (isPlain_storedName _ _), Path.place_join folder
    (isPlain_storedName _ _), append_cancel_left_eq, cons.injEq, storedName_eq_iff]
  simp

theorem OutgoingUnit.place_targetIn_ne {unit unit' : OutgoingUnit} (h : unit.id ≠ unit'.id)
    (folder : Path) : (unit.targetIn folder).place ≠ (unit'.targetIn folder).place :=
  fun heq => h (place_stored_eq_iff.1 heq).1

theorem IncomingUnit.place_targetIn_ne {unit unit' : IncomingUnit} (h : unit.id ≠ unit'.id)
    (folder : Path) : (unit.targetIn folder).place ≠ (unit'.targetIn folder).place :=
  fun heq => h (place_stored_eq_iff.1 heq).1

/-! ## Blobs -/

/-- Two lists that are cut at the last of some mark are the same just if both parts are. -/
theorem append_mark_inj {α : Type} {a : α} {as as' bs bs' : List α} (hbs : a ∉ bs) (hbs' : a ∉ bs')
    (h : as ++ a :: bs = as' ++ a :: bs') : as = as' ∧ bs = bs' := by
  have hpart {cs ds ds' : List α} (hds : a ∉ ds) (h : a :: ds = cs ++ a :: ds') :
      cs = [] ∧ ds = ds' := by
    cases cs with
    | nil => exact ⟨rfl, (cons.inj h).2⟩
    | cons c cs =>
      rw [(cons.inj h).2] at hds
      exact absurd (mem_append_right cs mem_cons_self) hds
  rcases append_eq_append_iff.1 h with ⟨cs, rfl, hcs⟩ | ⟨cs, rfl, hcs⟩
  · obtain ⟨rfl, rfl⟩ := hpart hbs hcs
    exact ⟨(append_nil as).symm, rfl⟩
  · obtain ⟨rfl, rfl⟩ := hpart hbs' hcs
    exact ⟨append_nil as', rfl⟩

namespace Phase

theorem toList_remotePathFor (batch : String) (unit : OutgoingUnit) :
    (remotePathFor batch unit).toList =
      batch.toList ++ '/' :: (storedName unit.id unit.contentType).toList := by
  have hname : remotePathFor batch unit = batch ++ "/" ++ storedName unit.id unit.contentType :=
    String.append_assoc
  rw [hname, String.toList_append, String.toList_append, append_assoc]
  rfl

theorem remotePathFor_inj {batch batch' : String} {unit unit' : OutgoingUnit}
    (h : remotePathFor batch unit = remotePathFor batch' unit') :
    batch = batch' ∧ unit.id = unit'.id := by
  have hlist := congrArg String.toList h
  rw [toList_remotePathFor, toList_remotePathFor] at hlist
  have hplain (unit : OutgoingUnit) := (isPlain_storedName unit.id unit.contentType).slash
  obtain ⟨hbatch, hname⟩ := append_mark_inj (hplain unit) (hplain unit') hlist
  exact ⟨String.toList_inj.1 hbatch, (storedName_eq_iff.1 (String.toList_inj.1 hname)).1⟩

end Phase

end PeerTransfer
