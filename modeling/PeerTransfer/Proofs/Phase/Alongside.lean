import PeerTransfer.Proofs.Phase.Attempt

/-!
# What an attempt makes of each unit

An attempt takes every unit through steps of its own, also one that is refused half-way, and also
where the ids of units do not tell them apart: the unit at a position after it comes from the unit
at that position before it, by steps alone (`forall₂_attempt`).
-/

namespace PeerTransfer

open List Relation

variable {U S ρ α W : Type} [Transferable U S]

theorem forall₂_trans {R R' R'' : U → U → Prop} (h : ∀ u v w, R u v → R' v w → R'' u w)
    {us vs ws : List U} (huv : Forall₂ R us vs) (hvw : Forall₂ R' vs ws) : Forall₂ R'' us ws := by
  induction huv generalizing ws with
  | nil =>
    cases hvw
    exact .nil
  | cons hab _ ih =>
    cases hvw with
    | cons hbc hrest => exact .cons (h _ _ _ hab hbc) (ih hrest)

namespace Phase

variable {steps : PhaseSteps U ρ α W} {Step : U → U → Prop}

theorem forall₂_startAll
    (hstart : ∀ u request v, steps.start u = .ok (request, v) → Step u v) (units : List U) :
    Forall₂ (ReflTransGen Step) units (startAll steps.start units).2 := by
  induction units with
  | nil => exact .nil
  | cons u units ih =>
    unfold startAll
    split
    · exact forall₂_refl _
    · next request v h => exact .cons (.single (hstart u request v h)) ih

theorem forall₂_settle (hid : ∀ u v, Step u v → Transferable.id v = Transferable.id u)
    (hcomplete : ∀ u a v, steps.complete u a = .ok v → Step u v)
    (hfail : ∀ u v, steps.fail u = .ok v → Step u v) (results : List (Uuid × Except Failure α))
    (units : List U) : Forall₂ (ReflTransGen Step) units (settle steps results units).2 := by
  induction results generalizing units with
  | nil => exact forall₂_refl _
  | cons result results ih =>
    obtain ⟨id, result⟩ := result
    unfold settle
    split
    · exact forall₂_refl _
    · next unit hfind =>
      split
      · exact forall₂_refl _
      · next unit' hsettle =>
        have hstep : Step unit unit' := by
          cases result with
          | ok a => exact hcomplete unit a unit' hsettle
          | error failure => exact hfail unit unit' hsettle
        have hreplaced : Forall₂ (ReflTransGen Step) units
            (replaceFirst Transferable.id unit' units) :=
          forall₂_replaceFirst hfind (hid unit unit' hstep) (.single hstep)
        exact forall₂_trans (fun _ _ _ => .trans) hreplaced (ih _)

/-- Each unit after an attempt comes from the one at its place before it, by steps alone. -/
theorem forall₂_attempt (steps : PhaseSteps U ρ α W) (Step : U → U → Prop)
    (hid : ∀ u v, Step u v → Transferable.id v = Transferable.id u)
    (hstart : ∀ u request v, steps.start u = .ok (request, v) → Step u v)
    (hcomplete : ∀ u a v, steps.complete u a = .ok v → Step u v)
    (hfail : ∀ u v, steps.fail u = .ok v → Step u v) (limit : Nat) (batch : Batch U) (world : W) :
    Forall₂ (ReflTransGen Step) batch.units (attempt steps limit batch world).2.1.units := by
  have hbegun := forall₂_startAll hstart batch.units
  unfold attempt
  split
  · next h =>
    rw [h] at hbegun
    exact hbegun
  · next h =>
    rw [h] at hbegun
    split_ifs
    · exact hbegun
    · exact forall₂_trans (fun _ _ _ => .trans) hbegun (forall₂_settle hid hcomplete hfail _ _)

theorem forall₂_forAll {R : U → U → Prop} {change : U → Disk → U × Disk}
    (h : ∀ u disk, R u (change u disk).1) (units : List U) (disk : Disk) :
    Forall₂ R units (forAll change units disk).1 := by
  induction units generalizing disk with
  | nil => exact .nil
  | cons u units ih => exact .cons (h u disk) (ih _)

end Phase

end PeerTransfer
