import PeerTransfer.Proofs.Batch.Sound
import PeerTransfer.Proofs.Session.Act
import PeerTransfer.Session.Connection
import PeerTransfer.Session.Handling

/-!
# Ids are drawn, and never put back

Whatever an operation of a session does, and whatever comes of it, all it does to the source of ids
is to draw from it. So in a session ids that were drawn stay drawn.
-/

namespace PeerTransfer.Session

open Act

variable {σ α β : Type}

/-! ## Rules for all acts -/

/-- Whatever comes of an act, it has done no more to the ids than to draw some. -/
def OnlyDraws (act : Act σ α) : Prop :=
  ∀ s : Session σ, s.ids.Precedes (act.run s).2.ids

theorem OnlyDraws.bind {act : Act σ α} {next : α → Act σ β} (h : OnlyDraws act)
    (hnext : ∀ a, OnlyDraws (next a)) : OnlyDraws (act >>= next) := by
  intro s
  have hact := h s
  cases hrun : act.run s with
  | mk result s' =>
    rw [hrun] at hact
    cases result with
    | error failure =>
      rw [run_bind_error hrun]
      exact hact
    | ok a =>
      rw [run_bind_ok hrun]
      exact hact.trans (hnext a s')

/-- A call that panics draws nothing at all, for it has not ended. -/
theorem OnlyDraws.precedes_after {act : Act σ α} (h : OnlyDraws act) (s : Session σ) :
    s.ids.Precedes (act.after s).ids :=
  after_induction (P := fun s' => s.ids.Precedes s'.ids) (.refl s.ids) fun _ => h s

theorem onlyDraws_pure (a : α) : OnlyDraws (pure a : Act σ α) :=
  fun s => .refl s.ids

theorem onlyDraws_throw (failure : Failure) : OnlyDraws (throw failure : Act σ α) :=
  fun s => .refl s.ids

theorem onlyDraws_get : OnlyDraws (get : Act σ (Session σ)) :=
  fun s => .refl s.ids

theorem onlyDraws_ofExcept (result : Except Failure α) :
    OnlyDraws (Act.ofExcept result : Act σ α) := by
  intro s
  rw [run_ofExcept]
  exact .refl s.ids

theorem onlyDraws_endpoint (id : String) : OnlyDraws (endpoint id : Act σ Endpoint) := by
  intro s
  rw [run_endpoint]
  exact .refl s.ids

theorem onlyDraws_step (change : Table → Except Failure (α × Table)) :
    OnlyDraws (step change : Act σ α) := by
  intro s
  cases htable : change s.table with
  | error failure =>
    rw [run_step_of_error htable]
    exact .refl s.ids
  | ok answer =>
    rw [run_step_of_ok htable]
    exact .refl s.ids

theorem onlyDraws_move (change : Table → Except Failure Table) :
    OnlyDraws (move change : Act σ Unit) := by
  intro s
  cases htable : change s.table with
  | error failure =>
    rw [run_move_of_error htable]
    exact .refl s.ids
  | ok table =>
    rw [run_move_of_ok htable]
    exact .refl s.ids

theorem onlyDraws_moveAndDiscard (change : Table → Except Failure (List Path × Table)) :
    OnlyDraws (moveAndDiscard change : Act σ Unit) := by
  intro s
  cases htable : change s.table with
  | error failure =>
    rw [run_moveAndDiscard_of_error htable]
    exact .refl s.ids
  | ok answer =>
    rw [run_moveAndDiscard_of_ok htable]
    exact .refl s.ids

theorem onlyDraws_call (request : σ → Except Failure α × σ) :
    OnlyDraws (call request : Act σ (Except Failure α)) :=
  fun s => .refl s.ids

theorem onlyDraws_draw {request : IdSource → α × IdSource}
    (h : ∀ source : IdSource, source.Precedes (request source).2) :
    OnlyDraws (draw request : Act σ α) :=
  fun s => h s.ids

theorem onlyDraws_set_world (world : Session σ → World σ) {next : Session σ → Act σ α}
    (h : ∀ s, OnlyDraws (next s)) :
    OnlyDraws (do
      let session ← get
      set { session with world := world session }
      next session) :=
  fun s => h s { s with world := world s }

theorem onlyDraws_unless (refused : Prop) [Decidable refused] (failure : Failure)
    {next : Act σ α} (h : OnlyDraws next) :
    OnlyDraws (do
      if refused then throw failure
      next) := by
  dsimp only
  split_ifs
  · exact (onlyDraws_throw failure).bind fun _ => h
  · exact h

/-! ## Operations -/

theorem onlyDraws_createBatch (id : String) (sources : List Path) :
    OnlyDraws (createBatch id sources : Act σ String) := by
  refine (onlyDraws_endpoint id).bind fun p => ?_
  refine (onlyDraws_draw (IdSource.precedes_drawFor sources)).bind fun numbered => ?_
  refine (onlyDraws_draw IdSource.precedes_draw).bind fun drawn => ?_
  refine onlyDraws_get.bind fun session => (onlyDraws_ofExcept _).bind fun batch => ?_
  exact (onlyDraws_move _).bind fun _ => onlyDraws_pure _

theorem onlyDraws_receiveDescriptor (id : String) (descriptor : Descriptor) :
    OnlyDraws (receiveDescriptor id descriptor : Act σ String) := by
  refine (onlyDraws_endpoint id).bind fun p => onlyDraws_unless _ _ ?_
  refine onlyDraws_get.bind fun session => (onlyDraws_ofExcept _).bind fun batch => ?_
  exact (onlyDraws_move _).bind fun _ => onlyDraws_pure _

theorem onlyDraws_finishPhase (id : String) (result : Except Failure PhaseReport) :
    OnlyDraws (finishPhase id result : Act σ PhaseReport) := by
  unfold finishPhase
  split
  · exact onlyDraws_throw _
  · exact (onlyDraws_move _).bind fun _ => (onlyDraws_ofExcept _).bind fun report =>
      (onlyDraws_move _).bind fun _ => onlyDraws_pure _

theorem onlyDraws_runOutgoing
    (run : Settings → OutgoingBatch → World σ →
      Except Failure PhaseReport × OutgoingBatch × World σ) (id batch : String) :
    OnlyDraws (runOutgoing run id batch) := by
  refine (onlyDraws_endpoint id).bind fun p => ?_
  cases p.outgoing? batch with
  | none => exact onlyDraws_throw _
  | some found =>
    refine (onlyDraws_move _).bind fun _ => onlyDraws_set_world _ fun s => ?_
    exact (onlyDraws_move _).bind fun _ => onlyDraws_finishPhase id _

theorem onlyDraws_downloadBatch [Services σ] (id batch : String) :
    OnlyDraws (downloadBatch id batch : Act σ PhaseReport) := by
  refine (onlyDraws_endpoint id).bind fun p => ?_
  cases p.incoming? batch with
  | none => exact onlyDraws_throw _
  | some found =>
    refine (onlyDraws_move _).bind fun _ => onlyDraws_set_world _ fun s => ?_
    exact (onlyDraws_move _).bind fun _ => onlyDraws_finishPhase id _

theorem onlyDraws_sendBatch [Services σ] (id batch : String) :
    OnlyDraws (sendBatch id batch : Act σ Unit) := by
  refine (onlyDraws_endpoint id).bind fun p => ?_
  cases p.outgoing? batch with
  | none => exact onlyDraws_throw _
  | some found =>
    refine onlyDraws_unless _ _ ((onlyDraws_ofExcept _).bind fun payload => ?_)
    refine (onlyDraws_move _).bind fun _ => (onlyDraws_call _).bind fun answer => ?_
    cases answer with
    | ok => exact onlyDraws_move _
    | error failure =>
      exact (onlyDraws_move _).bind fun _ => (onlyDraws_move _).bind fun _ =>
        onlyDraws_throw failure

theorem onlyDraws_connect [Services σ] (id : String) :
    OnlyDraws (connect id : Act σ Unit) := by
  refine (onlyDraws_move _).bind fun _ => (onlyDraws_call _).bind fun answer => ?_
  cases answer with
  | ok => exact onlyDraws_pure _
  | error failure => exact (onlyDraws_moveAndDiscard _).bind fun _ => onlyDraws_throw failure

theorem onlyDraws_disconnect [Services σ] (id : String) :
    OnlyDraws (disconnect id : Act σ Unit) := by
  refine (onlyDraws_step _).bind fun previous => (onlyDraws_call _).bind fun answer => ?_
  cases answer with
  | ok => exact onlyDraws_moveAndDiscard _
  | error failure => exact (onlyDraws_move _).bind fun _ => onlyDraws_throw failure

/-! ## Events -/

theorem onlyDraws_acceptPayload (id : String) (peer : Endpoint) (payload : Int) (content : Bytes) :
    OnlyDraws (acceptPayload id peer payload content : Act σ Unit) := by
  apply onlyDraws_get.bind
  intro session
  refine OnlyDraws.bind (fun s => Batch.precedes_ofWire _ _ _ s.ids) fun batch => ?_
  cases batch with
  | error failure => exact (onlyDraws_move _).bind fun _ => onlyDraws_throw failure
  | ok batch => exact (onlyDraws_move _).bind fun _ => onlyDraws_move _

theorem onlyDraws_finishSend (id batch : String) (status : PayloadStatus) :
    OnlyDraws (finishSend id batch status : Act σ Unit) := by
  have hend : OnlyDraws (do
      logSend id batch (outcomeOf status)
      if outcomeOf status = .success then
        move (·.update id (·.dropOutgoing batch)) : Act σ Unit) := by
    apply (onlyDraws_move _).bind
    intro _
    split_ifs
    · exact onlyDraws_move _
    · exact onlyDraws_pure _
  refine (onlyDraws_move _).bind fun _ => (onlyDraws_endpoint id).bind fun p => ?_
  dsimp only
  by_cases hstate : p.state = .sending
  · rw [if_pos hstate]
    exact (onlyDraws_move _).bind fun _ => hend
  · rw [if_neg hstate]
    exact hend

theorem onlyDraws_finishPayload (id : String) (payload : Int) (status : PayloadStatus) :
    OnlyDraws (finishPayload id payload status : Act σ Unit) := by
  apply (onlyDraws_endpoint id).bind
  intro p
  cases p.payload? payload with
  | none =>
    cases p.inFlight with
    | none => exact onlyDraws_pure _
    | some batch => exact onlyDraws_finishSend id batch status
  | some content =>
    apply (onlyDraws_move _).bind
    intro _
    split_ifs
    · exact onlyDraws_acceptPayload id p payload content
    · exact onlyDraws_pure _

theorem onlyDraws_handle (event : Event) : OnlyDraws (handle event : Act σ Unit) := by
  cases event with
  | endpointLost | disconnected | connectionRejected => exact onlyDraws_moveAndDiscard _
  | distanceChanged => exact onlyDraws_pure _
  | payloadProgress id payload status total transferred =>
    unfold handle
    dsimp only
    split_ifs
    · exact onlyDraws_pure _
    · exact onlyDraws_finishPayload id payload status
  | _ => exact onlyDraws_move _

theorem precedes_handleAll (events : List Event) (s : Session σ) :
    s.ids.Precedes (handleAll events s).ids := by
  induction events generalizing s with
  | nil => exact .refl s.ids
  | cons event rest ih => exact (onlyDraws_handle event s).trans (ih _)

end PeerTransfer.Session
