import Mathlib.Tactic

/-!
# What has been so since

A history lists what was done, the oldest first. `Since` says that something was done at some point
of it, and that something has been so at every point from then on.
-/

namespace PeerTransfer

open List

variable {α : Type} {Event : List α → α → Prop} {Holds : List α → Prop} {history : List α}
  {step : α}

/-- A step of the history was such an event after what came before it, and this has held of the
history ever since. -/
def Since (Event : List α → α → Prop) (Holds : List α → Prop) (history : List α) : Prop :=
  ∃ before step after, history = before ++ step :: after ∧ Event before step ∧
    ∀ done, done <+: after → Holds (before ++ step :: done)

theorem Since.holds (h : Since Event Holds history) : Holds history := by
  obtain ⟨before, step, after, rfl, -, hholds⟩ := h
  exact hholds after prefix_rfl

theorem Since.concat (h : Since Event Holds history) (hholds : Holds (history ++ [step])) :
    Since Event Holds (history ++ [step]) := by
  obtain ⟨before, first, after, rfl, hevent, hsince⟩ := h
  refine ⟨before, first, after ++ [step], by simp, hevent, ?_⟩
  intro done hdone
  rcases prefix_concat_iff.1 hdone with rfl | hdone
  · simpa using hholds
  · exact hsince done hdone

/-- Something has been so since an event just if it is so now, and the last step was such an event
or it had been so since one before. -/
theorem since_concat_iff : Since Event Holds (history ++ [step]) ↔
    Holds (history ++ [step]) ∧ (Event history step ∨ Since Event Holds history) := by
  constructor
  · intro h
    refine ⟨h.holds, ?_⟩
    obtain ⟨before, first, after, hhistory, hevent, hsince⟩ := h
    rcases eq_nil_or_concat after with rfl | ⟨after, last, rfl⟩
    · obtain ⟨rfl, hlast⟩ := append_inj' hhistory rfl
      cases hlast
      exact .inl hevent
    · rw [concat_eq_append, ← cons_append, ← append_assoc] at hhistory
      obtain ⟨rfl, -⟩ := append_inj' hhistory rfl
      refine .inr ⟨before, first, after, rfl, hevent, fun done hdone => ?_⟩
      exact hsince done (hdone.trans (by simp))
  · rintro ⟨hholds, hevent | hsince⟩
    · refine ⟨history, step, [], rfl, hevent, fun done hdone => ?_⟩
      rw [prefix_nil.1 hdone]
      exact hholds
    · exact hsince.concat hholds

end PeerTransfer
