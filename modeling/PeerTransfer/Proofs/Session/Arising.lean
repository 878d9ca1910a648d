import PeerTransfer.Proofs.Session.Effect

/-!
# Sessions that actions lead to

`Session.Arises` holds of every session that actions lead to from a new one, whatever ids are drawn
and whatever peers announce. So it is all that is taken for granted where nothing depends on ids.
-/

namespace PeerTransfer.Session

open List Table

variable {σ : Type} [Services σ] {s s' : Session σ} {limit : Nat}

/-- Sessions to which actions lead from a new one. -/
inductive Arises : Session σ → Prop
  | start {settings : Settings} {source : IdSource} {world : World σ} {s : Session σ} :
      Session.start settings source world = .ok s → Arises s
  | act {s : Session σ} (action : Action σ) : Arises s → Arises (action.run s)

/-- Actions lead from one session to the other, and of each `Fair` holds when it begins. -/
inductive Runs (Fair : Session σ → Action σ → Prop) (s : Session σ) : Session σ → Prop
  | refl : Runs Fair s s
  | act {s' : Session σ} (action : Action σ) :
      Runs Fair s s' → Fair s' action → Runs Fair s (action.run s')

theorem Runs.mono {Fair Fair' : Session σ → Action σ → Prop} (h : s.Runs Fair s')
    (hfair : ∀ s action, Fair s action → Fair' s action) : s.Runs Fair' s' := by
  induction h with
  | refl => exact .refl
  | act action _ haction ih => exact .act action ih (hfair _ action haction)

theorem Arises.runs {Fair : Session σ → Action σ → Prop} (h : s.Arises) (hruns : s.Runs Fair s') :
    s'.Arises := by
  induction hruns with
  | refl => exact h
  | act action _ _ ih => exact ih.act action

/-- Whatever comes about from ids that are not repeated arises. -/
theorem Reachable.arises (h : s.Reachable limit) : s.Arises := by
  obtain ⟨settings, source, world, new, -, hstart, hsteps⟩ := reachable_iff_started.1 h
  clear h
  induction hsteps with
  | refl => exact .start hstart
  | act action _ _ ih => exact ih.act action

theorem Arises.distinct (h : s.Arises) : s.table.Distinct := by
  induction h with
  | start hstart =>
    unfold Distinct
    rw [(endpoints_of_start hstart).1]
    exact nodup_nil
  | act action _ ih => exact (action.effect ih).distinct ih

theorem Arises.after (h : s.Arises) (history : List (Action σ)) : (s.after history).Arises :=
  foldlRecOn history _ h fun _ harises action _ => harises.act action

/-- A history is a run if each of its actions is fair wherever it does not draw too many ids. -/
theorem runs_of_eq_after {Fair : Session σ → Action σ → Prop} {history : List (Action σ)}
    (heq : s' = s.after history)
    (hfair : ∀ action ∈ history, ∀ s, (action.run s).ids.drawn ≤ limit → Fair s action)
    (hlimit : s'.ids.drawn ≤ limit) : s.Runs Fair s' := by
  subst heq
  induction history using reverseRecOn with
  | nil => exact .refl
  | append_singleton history action ih =>
    rw [forall_mem_append, forall_mem_singleton] at hfair
    rw [after_concat] at hlimit ⊢
    have hdrawn := (action.precedes_run (s.after history)).drawn_le.trans hlimit
    exact .act action (ih hfair.1 hdrawn) (hfair.2 _ hlimit)

theorem Turn.not_discovered {action : Action σ} {failure? : Option Failure} {p q : Endpoint}
    (h : Turn s p action failure? q) (hincoming : p.isIncoming = true)
    (hstate : p.state ≠ .discovered) : q.state ≠ .discovered := by
  cases h with
  | requested | sent | initiated | accepted => simp
  | rejected _ hnot => simp [hincoming] at hnot
  | ended =>
    rw [state_recordSend]
    unfold giveFree
    dsimp only
    split_ifs
    · simp
    · exact hstate
  | _ => exact hstate

/-- A peer that has opened the connection itself is never one that was only found nearby. -/
theorem Arises.not_discovered (h : s.Arises) :
    ∀ p ∈ s.table.endpoints, p.isIncoming = true → p.state ≠ .discovered := by
  induction h with
  | start hstart =>
    rw [(endpoints_of_start hstart).1]
    rintro p ⟨⟩
  | act action harises ih =>
    refine (action.effect harises.distinct).forall_endpoints ?_ ?_ ?_ ih
    · rintro id name medium ⟨⟩
    · rintro id name - ⟨⟩
    · intro p q hp hturn hincoming
      have hp' : p.isIncoming = true := hturn.isIncoming_eq ▸ hincoming
      exact hturn.not_discovered hp' (hp hp')

/-- What an endpoint has taken in has no file but those that were downloaded. -/
theorem Turn.unfetched {action : Action σ} {failure? : Option Failure} {p q : Endpoint}
    (h : Turn s p action failure? q)
    (hp : ∀ batch ∈ p.incoming, ∀ u ∈ batch.units, u.state = .received → u.localPath = none) :
    ∀ batch ∈ q.incoming, ∀ u ∈ batch.units, u.state = .received → u.localPath = none := by
  cases h with
  | received _ hbatch =>
    change ∀ b ∈ p.incoming ++ [_], _
    rw [forall_mem_append, forall_mem_singleton]
    exact ⟨hp, fun u hu _ => Batch.localPath_of_ofDescriptor hbatch u hu⟩
  | materialized _ hbatch =>
    change ∀ b ∈ p.incoming ++ [_], _
    rw [forall_mem_append, forall_mem_singleton]
    exact ⟨hp, fun u hu _ => Batch.localPath_of_ofWire hbatch u hu⟩
  | downloaded hfound _ hrun _ =>
    have hbatch := hp _ (mem_of_find?_eq_some hfound)
    have hdownload := Batch.unfetched_runDownload hbatch s.settings s.world
    rw [hrun] at hdownload
    exact forall_mem_replaceFirst hdownload hp
  | ended =>
    rw [incoming_recordSend]
    exact hp
  | _ => exact hp

/-- Whatever peers announce, a unit that is not downloaded has no file. -/
theorem Arises.unfetched (h : s.Arises) :
    ∀ p ∈ s.table.endpoints, ∀ batch ∈ p.incoming, ∀ u ∈ batch.units,
      u.state = .received → u.localPath = none := by
  induction h with
  | start hstart =>
    rw [(endpoints_of_start hstart).1]
    rintro p ⟨⟩
  | act action harises ih =>
    refine (action.effect harises.distinct).forall_endpoints ?_ ?_ ?_ ih
    · rintro id name medium batch ⟨⟩
    · rintro id name batch ⟨⟩
    · exact fun p q hp hturn => hturn.unfetched hp

theorem settings_of_start {settings : Settings} {source : IdSource} {world : World σ}
    (h : Session.start settings source world = .ok s) :
    s.settings = settings ∧ settings.validate = .ok () := by
  obtain ⟨hvalid, rfl⟩ := start_eq_ok h
  exact ⟨rfl, hvalid⟩

theorem Arises.settings_valid (h : s.Arises) : s.settings.validate = .ok () := by
  induction h with
  | start hstart =>
    obtain ⟨hsettings, hvalid⟩ := settings_of_start hstart
    rw [hsettings]
    exact hvalid
  | act action harises ih =>
    rw [(action.effect harises.distinct).settings_eq]
    exact ih

end PeerTransfer.Session
