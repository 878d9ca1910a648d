import PeerTransfer.Proofs.Table.Focus
import PeerTransfer.Session.Basic

/-!
# Running operations of a session

What each kind of act comes to when it is run, and what two acts come to that are run one after the
other. An operation is run by putting these together.
-/

namespace PeerTransfer

namespace Session

variable {σ : Type}

/-- The session with an endpoint in place of the one of its id, once notices have been told. -/
def focus (s : Session σ) (p : Endpoint) (notices : List Notice) : Session σ :=
  { s with table := s.table.focus p notices }

/-- The session with a new state of the services. -/
def withServices (s : Session σ) (services : σ) : Session σ :=
  { s with world := { s.world with services } }

/-- The session once an endpoint is taken out of its table and the local copies that are left
without owner are deleted. -/
def without (s : Session σ) (p : Endpoint) : Session σ :=
  { s with
    table := s.table.without p
    world := { s.world with disk := p.localCopies.foldl Disk.discard s.world.disk } }

@[simp] theorem world_focus (s : Session σ) (p : Endpoint) (notices : List Notice) :
    (s.focus p notices).world = s.world := rfl

@[simp] theorem settings_focus (s : Session σ) (p : Endpoint) (notices : List Notice) :
    (s.focus p notices).settings = s.settings := rfl

@[simp] theorem ids_focus (s : Session σ) (p : Endpoint) (notices : List Notice) :
    (s.focus p notices).ids = s.ids := rfl

theorem focus_focus {s : Session σ} {p q : Endpoint} (h : q.id = p.id)
    (notices notices' : List Notice) :
    (s.focus p notices).focus q notices' = s.focus q (notices ++ notices') := by
  unfold focus
  dsimp only
  rw [Table.focus_focus h]

end Session

namespace Act

variable {σ α β : Type} {s s' : Session σ}

/-! ## Calls that panic -/

/-- The session that a call ends in. One that panics ends nowhere: it is no step of the session,
which counts as not having been asked. -/
def after (act : Act σ α) (s : Session σ) : Session σ :=
  match act.run s with
  | (.error .panicked, _) => s
  | (_, ended) => ended

theorem after_of_panicked {act : Act σ α} (h : (act.run s).1 = .error .panicked) :
    act.after s = s := by
  unfold after
  split
  · rfl
  · next hnot heq =>
    rw [heq] at h
    exact absurd h hnot

theorem after_of_ended {act : Act σ α} (h : (act.run s).1 ≠ .error .panicked) :
    act.after s = (act.run s).2 := by
  unfold after
  split
  · next heq => exact absurd (congrArg Prod.fst heq) h
  · next heq => rw [heq]

/-- What holds before a call, and after it if it ends, holds either way. -/
theorem after_induction {P : Session σ → Prop} {act : Act σ α} (h : P s)
    (hended : (act.run s).1 ≠ .error .panicked → P (act.run s).2) : P (act.after s) := by
  by_cases hpanicked : (act.run s).1 = .error .panicked
  · rwa [after_of_panicked hpanicked]
  · rw [after_of_ended hpanicked]
    exact hended hpanicked

/-! ## One act after the other -/

theorem run_bind_ok {act : Act σ α} {next : α → Act σ β} {a : α} (h : act.run s = (.ok a, s')) :
    (act >>= next).run s = (next a).run s' := by
  change ExceptT.bindCont next (act.run s).1 (act.run s).2 = _
  rw [h]
  rfl

theorem run_bind_error {act : Act σ α} {next : α → Act σ β} {failure : Failure}
    (h : act.run s = (.error failure, s')) : (act >>= next).run s = (.error failure, s') := by
  change ExceptT.bindCont next (act.run s).1 (act.run s).2 = _
  rw [h]
  rfl

@[simp] theorem run_pure (a : α) : (pure a : Act σ α).run s = (.ok a, s) := rfl

@[simp] theorem run_throw (failure : Failure) :
    (throw failure : Act σ α).run s = (.error failure, s) := rfl

@[simp] theorem run_get : (get : Act σ (Session σ)).run s = (.ok s, s) := rfl

@[simp] theorem run_set (s' : Session σ) : (set s' : Act σ PUnit).run s = (.ok ⟨⟩, s') := rfl

@[simp] theorem run_modify (change : Session σ → Session σ) :
    (modify change : Act σ PUnit).run s = (.ok ⟨⟩, change s) := rfl

@[simp] theorem run_ofExcept (result : Except Failure α) :
    (ofExcept result : Act σ α).run s = (result, s) := by
  cases result <;> rfl

/-! ## The acts of a session -/

@[simp] theorem run_endpoint (id : String) : (endpoint id).run s = (s.table.get id, s) := by
  unfold endpoint
  rw [run_bind_ok run_get, run_ofExcept]

theorem run_step_of_ok {change : Table → Except Failure (α × Table)} {answer : α} {table : Table}
    (h : change s.table = .ok (answer, table)) :
    (step change).run s = (.ok answer, { s with table }) := by
  unfold step
  rw [run_bind_ok run_get, h]
  rfl

theorem run_step_of_error {change : Table → Except Failure (α × Table)} {failure : Failure}
    (h : change s.table = .error failure) : (step change).run s = (.error failure, s) := by
  unfold step
  rw [run_bind_ok run_get, h]
  rfl

theorem run_move_of_ok {change : Table → Except Failure Table} {table : Table}
    (h : change s.table = .ok table) : (move change).run s = (.ok (), { s with table }) := by
  refine run_step_of_ok ?_
  rw [h]
  rfl

theorem run_move_of_focus {change : Table → Except Failure Table} {p : Endpoint}
    {notices : List Notice} (h : change s.table = .ok (s.table.focus p notices)) :
    (move change).run s = (.ok (), s.focus p notices) :=
  run_move_of_ok h

theorem run_move_of_error {change : Table → Except Failure Table} {failure : Failure}
    (h : change s.table = .error failure) : (move change).run s = (.error failure, s) := by
  refine run_step_of_error ?_
  rw [h]
  rfl

theorem run_moveAndDiscard_of_ok {change : Table → Except Failure (List Path × Table)}
    {copies : List Path} {table : Table} (h : change s.table = .ok (copies, table)) :
    (moveAndDiscard change).run s =
      (.ok (), { s with
        table
        world := { s.world with disk := copies.foldl Disk.discard s.world.disk } }) := by
  unfold moveAndDiscard
  rw [run_bind_ok (run_step_of_ok h)]
  rfl

theorem run_moveAndDiscard_of_error {change : Table → Except Failure (List Path × Table)}
    {failure : Failure} (h : change s.table = .error failure) :
    (moveAndDiscard change).run s = (.error failure, s) := by
  unfold moveAndDiscard
  rw [run_bind_error (run_step_of_error h)]

@[simp] theorem run_call (request : σ → Except Failure α × σ) :
    (call request).run s = (.ok (request s.world.services).1,
      s.withServices (request s.world.services).2) := rfl

@[simp] theorem run_draw (request : IdSource → α × IdSource) :
    (draw request).run s = (.ok (request s.ids).1, { s with ids := (request s.ids).2 }) := rfl

end Act

end PeerTransfer
