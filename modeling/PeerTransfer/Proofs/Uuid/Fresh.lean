import PeerTransfer.Proofs.Uuid.Text

/-!
# Ids that were not drawn before

There are only so many ids, so a source repeats itself at last. As long as it has not, it gives each
element of a list an id of its own, and what it has given it will not give again
(`IdSource.DrawnBetween.isFresh`).
-/

namespace PeerTransfer.IdSource

open List

/-- The first ids of a source differ from one another. -/
def DistinctBelow (limit : Nat) (source : IdSource) : Prop :=
  ∀ m < limit, ∀ n < limit, source.ids m = source.ids n → m = n

/-- No id has this text of those that are yet to be drawn below a limit. -/
def IsFresh (limit : Nat) (source : IdSource) (text : String) : Prop :=
  ∀ n, source.drawn ≤ n → n < limit → text ≠ (source.ids n).text

/-- Where all ids up to a limit are drawn, every text is fresh. -/
theorem isFresh_of_le {limit : Nat} {source : IdSource} (h : limit ≤ source.drawn)
    (text : String) : source.IsFresh limit text :=
  fun _ hle hlt => absurd (h.trans hle) hlt.not_ge

/-- One source comes after another if it has drawn from the same ids, and at least as many. -/
structure Precedes (source source' : IdSource) : Prop where
  ids_eq : source'.ids = source.ids
  drawn_le : source.drawn ≤ source'.drawn

theorem Precedes.refl (source : IdSource) : source.Precedes source :=
  ⟨rfl, le_rfl⟩

theorem Precedes.trans {source₁ source₂ source₃ : IdSource} (h₁₂ : source₁.Precedes source₂)
    (h₂₃ : source₂.Precedes source₃) : source₁.Precedes source₃ :=
  ⟨h₂₃.ids_eq.trans h₁₂.ids_eq, h₁₂.drawn_le.trans h₂₃.drawn_le⟩

variable {α : Type} {limit : Nat} {source source' : IdSource}

theorem DistinctBelow.of_precedes (h : source.DistinctBelow limit)
    (hprecedes : source.Precedes source') : source'.DistinctBelow limit := by
  unfold DistinctBelow
  rwa [hprecedes.ids_eq]

theorem DistinctBelow.mono {limit' : Nat} (h : source.DistinctBelow limit')
    (hle : limit ≤ limit') : source.DistinctBelow limit :=
  fun m hm n hn => h m (hm.trans_le hle) n (hn.trans_le hle)

theorem precedes_draw (source : IdSource) : source.Precedes source.draw.2 :=
  ⟨rfl, Nat.le_succ _⟩

theorem IsFresh.of_precedes {text : String} (h : source.IsFresh limit text)
    (hprecedes : source.Precedes source') : source'.IsFresh limit text := by
  intro n hn
  rw [hprecedes.ids_eq]
  exact h n (hprecedes.drawn_le.trans hn)

/-- The text of an id that was drawn on the way from one source to another. -/
def DrawnBetween (source source' : IdSource) (text : String) : Prop :=
  ∃ n, source.drawn ≤ n ∧ n < source'.drawn ∧ text = (source.ids n).text

theorem DrawnBetween.ne {text other : String} (h : DrawnBetween source source' text)
    (hlimit : source'.drawn ≤ limit) (hother : source.IsFresh limit other) : other ≠ text := by
  obtain ⟨n, hle, hlt, rfl⟩ := h
  exact hother n hle (hlt.trans_le hlimit)

/-- What was drawn is not drawn again. -/
theorem DrawnBetween.isFresh {text : String} (h : DrawnBetween source source' text)
    (hprecedes : source.Precedes source') (hdistinct : source.DistinctBelow limit) :
    source'.IsFresh limit text := by
  obtain ⟨n, -, hn, rfl⟩ := h
  intro m hle hlt heq
  rw [hprecedes.ids_eq] at heq
  have hnm : n = m := hdistinct n (by omega) m hlt (Uuid.text_injective heq)
  omega

theorem drawnBetween_draw (hprecedes : source.Precedes source') :
    DrawnBetween source source'.draw.2 source'.draw.1.text :=
  ⟨source'.drawn, hprecedes.drawn_le, Nat.lt_succ_self _, by rw [← hprecedes.ids_eq]; rfl⟩

/-! ## Ids of one digit -/

/-- The ids of which all digits are the same, over and over. -/
def repdigits : IdSource :=
  ⟨fun n => ⟨Vector.replicate 32 ⟨n % 16, Nat.mod_lt n (by decide)⟩⟩, 0⟩

theorem distinctBelow_repdigits : repdigits.DistinctBelow 16 := by
  intro m hm n hn heq
  have hdigit := congrArg (fun id : Uuid => id.digits[0].val) heq
  have hmod : m % 16 = n % 16 := by simpa [repdigits] using hdigit
  omega

/-! ## Ids for the elements of a list -/

theorem drawFor_snd (l : List α) (source : IdSource) :
    (drawFor l source).2 = { source with drawn := source.drawn + l.length } := by
  induction l generalizing source with
  | nil => rfl
  | cons a l ih =>
    have hlength : source.drawn + 1 + l.length = source.drawn + (l.length + 1) := by omega
    simp only [drawFor, draw, ih, length_cons, hlength]

theorem map_fst_drawFor (l : List α) (source : IdSource) :
    (drawFor l source).1.map Prod.fst = (range' source.drawn l.length).map source.ids := by
  induction l generalizing source with
  | nil => rfl
  | cons a l ih =>
    simp only [drawFor, map_cons, draw, ih, length_cons, range'_succ]

theorem precedes_drawFor (l : List α) (source : IdSource) :
    source.Precedes (drawFor l source).2 := by
  rw [drawFor_snd]
  exact ⟨rfl, Nat.le_add_right _ _⟩

theorem drawnBetween_drawFor {l : List α} {id : Uuid}
    (hid : id ∈ (drawFor l source).1.map Prod.fst) :
    DrawnBetween source (drawFor l source).2 id.text := by
  rw [map_fst_drawFor] at hid
  obtain ⟨n, hn, rfl⟩ := mem_map.1 hid
  rw [mem_range'_1] at hn
  rw [drawFor_snd]
  exact ⟨n, hn.1, hn.2, rfl⟩

theorem nodup_drawFor (hdistinct : source.DistinctBelow limit) {l : List α}
    (hlimit : (drawFor l source).2.drawn ≤ limit) : ((drawFor l source).1.map Prod.fst).Nodup := by
  rw [drawFor_snd] at hlimit
  dsimp only at hlimit
  rw [map_fst_drawFor]
  refine Nodup.map_on (fun m hm n hn heq => ?_) nodup_range'
  rw [mem_range'_1] at hm hn
  exact hdistinct m (by omega) n (by omega) heq

end PeerTransfer.IdSource
