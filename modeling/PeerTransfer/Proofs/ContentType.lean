import Mathlib.Data.List.TakeWhile
import PeerTransfer.ContentType
import PeerTransfer.Proofs.Unit.Target

/-!
# Types of announced names

The type of a file is guessed from the extension of its file name. A plain name is the file name of
every path that ends in it (`Path.fileName?_of_segments`), so folders in front of it change nothing.

A unit is announced by the file name of its source, or by its id where the source has none. Either
way the name tells the same type of content as the source (`OutgoingUnit.guess_name`).
-/

namespace PeerTransfer

open List

namespace Path

theorem slash_not_mem_of_mem_split {cs piece : List Char} (h : piece ∈ split cs) :
    '/' ∉ piece := by
  induction cs generalizing piece with
  | nil => simp_all [split]
  | cons c cs ih =>
    unfold split at h
    by_cases hc : c = '/'
    · rw [if_pos hc, mem_cons] at h
      rcases h with rfl | h
      · simp
      · exact ih h
    · rw [if_neg hc] at h
      cases hsplit : split cs with
      | nil => exact absurd hsplit (split_ne_nil cs)
      | cons first pieces =>
        rw [hsplit] at h ih
        rcases mem_cons.1 h with rfl | h
        · have hfirst := ih mem_cons_self
          simp only [mem_cons, not_or]
          exact ⟨Ne.symm hc, hfirst⟩
        · exact ih (mem_cons_of_mem first h)

/-- A file name leads to a file of the folder it is joined to. -/
theorem isPlain_of_fileName? {path : Path} {name : String} (h : path.fileName? = some name) :
    IsPlain name := by
  unfold fileName? at h
  cases hlast : (path.segments.filter (!isIdle ·)).getLast? with
  | none => simp [hlast] at h
  | some last =>
    rw [hlast] at h
    dsimp only at h
    split_ifs at h with hup
    obtain rfl : last = name := Option.some.inj h
    obtain ⟨hsegment, hidle⟩ := mem_filter.1 (mem_of_getLast? hlast)
    obtain ⟨piece, hpiece, rfl⟩ := mem_map.1 hsegment
    refine ⟨?_, by simpa using hidle, hup⟩
    rw [String.toList_ofList]
    exact slash_not_mem_of_mem_split hpiece

/-- The last segment of a path is its file name, if it is a plain name. -/
theorem fileName?_of_segments {path : Path} {segments : List String} {name : String}
    (h : path.segments = segments ++ [name]) (hname : IsPlain name) :
    path.fileName? = some name := by
  unfold fileName?
  rw [h, filter_append]
  simp [hname.not_idle, hname.not_up]

theorem fileName?_of_isPlain {name : String} (h : IsPlain name) :
    (mk name).fileName? = some name := by
  have hsegments : (mk name).segments = [] ++ [name] := segments_of_isPlain h
  exact fileName?_of_segments hsegments h

theorem fileName?_of_toList {text name : String} {cs : List Char}
    (h : text.toList = cs ++ '/' :: name.toList) (hname : IsPlain name) :
    (mk text).fileName? = some name :=
  fileName?_of_segments (segments_append_of_isPlain hname h) hname

/-- A file is named by what was joined to its folder. -/
theorem fileName?_join (folder : Path) {name : String} (h : IsPlain name) :
    (folder.join name).fileName? = some name := by
  obtain ⟨-, hjoin⟩ | ⟨cs, htext, -⟩ := join_cases folder name
  · rw [hjoin]
    exact fileName?_of_isPlain h
  · exact fileName?_of_toList htext h

/-- A name without a dot has no extension. -/
theorem extensionOf?_of_not_mem {name : String} (h : '.' ∉ name.toList) :
    extensionOf? name = none := by
  have hnone : name.toList.reverse.dropWhile (· ≠ '.') = [] := by
    rw [dropWhile_eq_nil_iff]
    intro c hc
    simp only [ne_eq, decide_eq_true_eq]
    rintro rfl
    exact h (mem_reverse.1 hc)
  unfold extensionOf?
  rw [hnone]

/-- What follows the dot of a name is its extension, if no further dot is in it and something
stands before the dot. -/
theorem extensionOf?_append_dot {stem ext : String} (hstem : stem ≠ "") (hext : '.' ∉ ext.toList) :
    extensionOf? (stem ++ ("." ++ ext)) = some ext := by
  have hreverse : (stem ++ ("." ++ ext)).toList.reverse =
      ext.toList.reverse ++ '.' :: stem.toList.reverse := by
    simp [String.toList_append]
  have hafter : ∀ c ∈ ext.toList.reverse, decide (c ≠ '.') = true := by
    intro c hc
    rw [decide_eq_true_eq]
    rintro rfl
    exact hext (mem_reverse.1 hc)
  unfold extensionOf?
  rw [hreverse, takeWhile_append_of_pos hafter, dropWhile_append_of_pos hafter]
  cases hbefore : stem.toList.reverse with
  | nil => simp_all
  | cons c cs => simp

theorem extension?_of_fileName? {path : Path} {name : String} (h : path.fileName? = some name) :
    path.extension? = extensionOf? name := by
  unfold extension?
  rw [h, Option.bind_eq_bind, Option.bind_some]

/-- Of a path with a file name no more than that name counts. -/
theorem extension?_fileName {path : Path} {name : String} (h : path.fileName? = some name) :
    (mk name).extension? = path.extension? := by
  have hname := fileName?_of_isPlain (isPlain_of_fileName? h)
  rw [extension?_of_fileName? h, extension?_of_fileName? hname]

end Path

namespace ContentType

theorem guess_of_extension_eq {path path' : Path} (h : path.extension? = path'.extension?) :
    guess path = guess path' := by
  unfold guess
  rw [h]

theorem guess_of_extension_none {path : Path} (h : path.extension? = none) :
    guess path = octetStream := by
  unfold guess
  rw [h]

theorem guess_of_fileName_none {path : Path} (h : path.fileName? = none) :
    guess path = octetStream := by
  apply guess_of_extension_none
  unfold Path.extension?
  rw [h, Option.bind_eq_bind, Option.bind_none]

/-- The text of an id tells no type. -/
theorem guess_text (id : Uuid) : guess ⟨id.text⟩ = octetStream := by
  apply guess_of_extension_none
  rw [Path.extension?_of_fileName? (Path.fileName?_of_isPlain id.isPlain_text)]
  exact Path.extensionOf?_of_not_mem id.dot_not_mem_text

end ContentType

/-- The name of a unit tells the type that its source tells. -/
theorem OutgoingUnit.guess_name (unit : OutgoingUnit) :
    ContentType.guess ⟨unit.name⟩ = ContentType.guess unit.source := by
  unfold name
  cases hname : unit.source.fileName? with
  | none =>
    rw [Option.getD_none, ContentType.guess_text, ContentType.guess_of_fileName_none hname]
  | some name =>
    rw [Option.getD_some]
    exact ContentType.guess_of_extension_eq (Path.extension?_fileName hname)

/-- A slash at the end does not count, a dot in front begins no extension, `..` names no file. -/
example : ["/x/Photo.JPG/", "/x/.png", "/x/.."].map (ContentType.guess ⟨·⟩) =
    ["image/jpeg", ContentType.octetStream, ContentType.octetStream] := by
  decide +kernel

end PeerTransfer
