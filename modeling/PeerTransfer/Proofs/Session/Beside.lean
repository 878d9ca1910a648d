import PeerTransfer.Proofs.Session.Arising
import PeerTransfer.Proofs.Table.InPlace

/-!
# Endpoints beside each other

Whatever is asked of a session is about one endpoint, if any (`Action.endpoint?`), and all others
are after it what they were before, in the same order. The acts of which operations are made are
`Turning` or `Parting`, and so are the operations that are put together from them.
-/

namespace PeerTransfer

open List

namespace Table

/-- Nothing but the endpoint of an id has changed, and it is neither new nor gone. -/
structure TurnsOnly (id : String) (table table' : Table) : Prop where
  others : table'.endpoints.filter (·.id ≠ id) = table.endpoints.filter (·.id ≠ id)
  ids : table'.endpoints.map Endpoint.id = table.endpoints.map Endpoint.id
  selected : table'.selected = table.selected

/-- Nothing but the endpoint of an id has changed, and it may be gone. If it was selected then,
the first of those that are left is. -/
structure PartsOnly (id : String) (table table' : Table) : Prop where
  others : table'.endpoints.filter (·.id ≠ id) = table.endpoints.filter (·.id ≠ id)
  selected : table'.selected = table.selected ∨
    table.selected = some id ∧ id ∈ table.endpoints.map Endpoint.id ∧
      id ∉ table'.endpoints.map Endpoint.id ∧
      table'.selected = (table'.endpoints.map Endpoint.id).head?

variable {id : String} {table table' table'' : Table}

theorem TurnsOnly.of_endpoints (h : table'.endpoints = table.endpoints)
    (hselected : table'.selected = table.selected) : TurnsOnly id table table' :=
  ⟨by rw [h], by rw [h], hselected⟩

theorem TurnsOnly.refl (id : String) (table : Table) : TurnsOnly id table table :=
  .of_endpoints rfl rfl

theorem TurnsOnly.trans (h : TurnsOnly id table table') (h' : TurnsOnly id table' table'') :
    TurnsOnly id table table'' :=
  ⟨h'.others.trans h.others, h'.ids.trans h.ids, h'.selected.trans h.selected⟩

theorem TurnsOnly.partsOnly (h : TurnsOnly id table table') : PartsOnly id table table' :=
  ⟨h.others, .inl h.selected⟩

theorem TurnsOnly.trans_partsOnly (h : TurnsOnly id table table')
    (h' : PartsOnly id table' table'') : PartsOnly id table table'' := by
  refine ⟨h'.others.trans h.others, ?_⟩
  rw [← h.selected, ← h.ids]
  exact h'.selected

theorem PartsOnly.trans_turnsOnly (h : PartsOnly id table table')
    (h' : TurnsOnly id table' table'') : PartsOnly id table table'' := by
  refine ⟨h'.others.trans h.others, ?_⟩
  rw [h'.selected, h'.ids]
  exact h.selected

/-! ## The steps of a table -/

/-- What succeeds with an endpoint that is asked for has been given one. -/
theorem exists_of_get_bind {α : Type} {next : Endpoint → Except Failure α} {a : α}
    (h : (table.get id >>= next) = .ok a) : ∃ p, table.get id = .ok p ∧ next p = .ok a := by
  cases hget : table.get id with
  | error failure =>
    rw [hget] at h
    cases h
  | ok p =>
    rw [hget] at h
    exact ⟨p, rfl, h⟩

theorem turnsOnly_modify (id : String) (table : Table) {change : Endpoint → Endpoint}
    (hchange : ∀ e, (change e).id = e.id) : TurnsOnly id table (table.modify id change) := by
  have hid (e : Endpoint) : (if e.id = id then change e else e).id = e.id := by
    split_ifs
    · exact hchange e
    · rfl
  refine ⟨?_, ?_, rfl⟩
  · have hcomp : ((fun e : Endpoint => decide (e.id ≠ id)) ∘ fun e =>
        if e.id = id then change e else e) = fun e => decide (e.id ≠ id) :=
      funext fun e => congrArg (fun other => decide (other ≠ id)) (hid e)
    unfold modify
    rw [filter_map, hcomp]
    refine (map_congr_left fun e he => if_neg ?_).trans (map_id _)
    exact of_decide_eq_true (mem_filter.1 he).2
  · unfold modify
    rw [map_map]
    exact map_congr_left fun e _ => hid e

theorem turnsOnly_of_update {change : Endpoint → Endpoint} (hchange : ∀ e, (change e).id = e.id)
    (h : table.update id change = .ok table') : TurnsOnly id table table' := by
  obtain ⟨_, -, hchanged⟩ := exists_of_get_bind h
  cases hchanged
  exact turnsOnly_modify id table hchange

theorem turnsOnly_of_transition {allowed : List EndpointState} {next : EndpointState}
    {operation : EndpointOperation} {answer : EndpointState × Table}
    (h : table.transition id allowed next operation = .ok answer) :
    TurnsOnly id table answer.2 := by
  have hmoved : TurnsOnly id table (table.modify id ({ · with state := next })) :=
    turnsOnly_modify id table fun _ => rfl
  cases hfind : table.find? id with
  | none =>
    rw [transition_of_unknown hfind] at h
    cases h
  | some p =>
    by_cases hstate : p.state ∈ allowed
    · simp only [transition, get_of_find? hfind, bind, Except.bind, hstate, not_true,
        if_false] at h
      split_ifs at h
      · cases h
        exact hmoved
      · cases h
        exact ⟨hmoved.others, hmoved.ids, rfl⟩
    · rw [transition_of_not_mem hfind hstate] at h
      cases h

theorem turnsOnly_of_appendLog {entries : List JournalEntry}
    (h : table.appendLog id entries = .ok table') : TurnsOnly id table table' := by
  have hfold (start : Table) :
      TurnsOnly id start (entries.foldl (fun table entry => table.log id entry) start) := by
    clear h
    induction entries generalizing start with
    | nil => exact .refl id start
    | cons entry entries ih =>
      have hlogged : TurnsOnly id start
          (start.modify id fun e => { e with journal := e.journal.append entry }) :=
        turnsOnly_modify id start fun _ => rfl
      have hlog : TurnsOnly id start (start.log id entry) :=
        ⟨hlogged.others, hlogged.ids, rfl⟩
      exact hlog.trans (ih _)
  obtain ⟨_, -, hlogged⟩ := exists_of_get_bind h
  cases hlogged
  exact hfold table

theorem partsOnly_of_remove {copies : List Path} (h : table.remove id = .ok (copies, table')) :
    PartsOnly id table table' := by
  cases hfind : table.find? id with
  | none =>
    rw [remove_of_unknown hfind] at h
    cases h
  | some p =>
    have hid : p.id = id := id_of_find? hfind
    subst hid
    rw [remove_of_find? hfind] at h
    cases h
    refine ⟨?_, ?_⟩
    · unfold without tell
      dsimp only
      rw [filter_filter]
      simp only [Bool.and_self]
    · by_cases hselected : table.selected = some p.id
      · refine .inr ⟨hselected, mem_map_of_mem (mem_of_find? hfind), ?_, ?_⟩
        · simp [without, tell]
        · simp only [without, tell, hselected, if_true, head?_map]
      · exact .inl (if_neg hselected)

theorem partsOnly_of_abandonPending {operation : EndpointOperation} {copies : List Path}
    (h : table.abandonPending id operation = .ok (copies, table')) :
    PartsOnly id table table' := by
  cases hfind : table.find? id with
  | none =>
    rw [abandonPending_of_unknown hfind] at h
    cases h
  | some p =>
    rw [abandonPending_of_known hfind] at h
    split_ifs at h
    · exact partsOnly_of_remove h
    · cases hmove : table.transition id [.pending] .discovered operation with
      | error failure =>
        rw [hmove] at h
        cases h
      | ok answer =>
        rw [hmove] at h
        cases h
        exact (turnsOnly_of_transition hmove).partsOnly

end Table

/-! ## Acts on one endpoint -/

namespace Act

open Table Session

variable {σ α β : Type} {id : String}

/-- The act turns the endpoint of an id, whatever comes of it. -/
def Turning (id : String) (act : Act σ α) : Prop :=
  ∀ s, TurnsOnly id s.table (act.run s).2.table

/-- The act turns the endpoint of an id or takes it out, whatever comes of it. -/
def Parting (id : String) (act : Act σ α) : Prop :=
  ∀ s, PartsOnly id s.table (act.run s).2.table

theorem Turning.parting {act : Act σ α} (h : act.Turning id) : act.Parting id :=
  fun s => (h s).partsOnly

theorem turning_pure (a : α) : (pure a : Act σ α).Turning id :=
  fun s => .refl id s.table

theorem turning_throw (failure : Failure) : (throw failure : Act σ α).Turning id :=
  fun s => .refl id s.table

theorem turning_throw_bind (failure : Failure) (next : α → Act σ β) :
    (throw failure >>= next).Turning id :=
  fun s => .refl id s.table

theorem turning_get : (get : Act σ (Session σ)).Turning id :=
  fun s => .refl id s.table

theorem turning_ofExcept (result : Except Failure α) : (ofExcept result : Act σ α).Turning id := by
  cases result with
  | ok a => exact turning_pure a
  | error failure => exact turning_throw failure

theorem turning_endpoint (endpoint : String) : (Act.endpoint endpoint : Act σ _).Turning id := by
  intro s
  rw [run_endpoint]
  exact .refl id s.table

theorem turning_call (request : σ → Except Failure α × σ) : (call request).Turning id :=
  fun s => .refl id s.table

theorem turning_draw (request : IdSource → α × IdSource) :
    (draw request : Act σ α).Turning id :=
  fun s => .refl id s.table

theorem turning_step {change : Table → Except Failure (α × Table)}
    (h : ∀ table answer, change table = .ok answer → TurnsOnly id table answer.2) :
    (step change : Act σ α).Turning id := by
  intro s
  cases hchange : change s.table with
  | ok answer =>
    rw [run_step_of_ok hchange]
    exact h s.table answer hchange
  | error failure =>
    rw [run_step_of_error hchange]
    exact .refl id s.table

theorem turning_move {change : Table → Except Failure Table}
    (h : ∀ table table', change table = .ok table' → TurnsOnly id table table') :
    (move change : Act σ Unit).Turning id := by
  refine turning_step fun table answer hchange => ?_
  cases hmoved : change table with
  | ok table' =>
    rw [hmoved] at hchange
    cases hchange
    exact h table table' hmoved
  | error failure =>
    rw [hmoved] at hchange
    cases hchange

theorem parting_moveAndDiscard {change : Table → Except Failure (List Path × Table)}
    (h : ∀ table copies table', change table = .ok (copies, table') → PartsOnly id table table') :
    (moveAndDiscard change : Act σ Unit).Parting id := by
  intro s
  cases hchange : change s.table with
  | ok answer =>
    rw [run_moveAndDiscard_of_ok hchange]
    exact h s.table answer.1 answer.2 hchange
  | error failure =>
    rw [run_moveAndDiscard_of_error hchange]
    exact (TurnsOnly.refl id s.table).partsOnly

theorem Turning.bind {act : Act σ α} {next : α → Act σ β} (h : act.Turning id)
    (hnext : ∀ a, (next a).Turning id) : (act >>= next).Turning id := by
  intro s
  have hfirst := h s
  rcases hrun : act.run s with ⟨failure | a, s'⟩
  · rw [hrun] at hfirst
    rw [run_bind_error hrun]
    exact hfirst
  · rw [hrun] at hfirst
    rw [run_bind_ok hrun]
    exact hfirst.trans (hnext a s')

theorem Turning.bind_parting {act : Act σ α} {next : α → Act σ β} (h : act.Turning id)
    (hnext : ∀ a, (next a).Parting id) : (act >>= next).Parting id := by
  intro s
  have hfirst := h s
  rcases hrun : act.run s with ⟨failure | a, s'⟩
  · rw [hrun] at hfirst
    rw [run_bind_error hrun]
    exact hfirst.partsOnly
  · rw [hrun] at hfirst
    rw [run_bind_ok hrun]
    exact hfirst.trans_partsOnly (hnext a s')

theorem Parting.bind_turning {act : Act σ α} {next : α → Act σ β} (h : act.Parting id)
    (hnext : ∀ a, (next a).Turning id) : (act >>= next).Parting id := by
  intro s
  have hfirst := h s
  rcases hrun : act.run s with ⟨failure | a, s'⟩
  · rw [hrun] at hfirst
    rw [run_bind_error hrun]
    exact hfirst
  · rw [hrun] at hfirst
    rw [run_bind_ok hrun]
    exact hfirst.trans_turnsOnly (hnext a s')

theorem Turning.of_get {next : Session σ → Act σ α}
    (h : ∀ s, TurnsOnly id s.table ((next s).run s).2.table) : (get >>= next).Turning id :=
  h

/-- Another world may be put in the place of this one. -/
theorem Turning.set_bind {next : PUnit → Act σ α} (h : (next ⟨⟩).Turning id) (s : Session σ)
    (world : World σ) :
    TurnsOnly id s.table ((set { s with world } >>= next).run s).2.table :=
  h { s with world }

theorem turning_update {change : Endpoint → Endpoint} (h : ∀ e, (change e).id = e.id) :
    (move (·.update id change) : Act σ Unit).Turning id :=
  turning_move fun _ _ => turnsOnly_of_update h

theorem turning_transition {allowed : List EndpointState} {next : EndpointState}
    {operation : EndpointOperation} :
    (move fun table => do return (← table.transition id allowed next operation).2 :
      Act σ Unit).Turning id := by
  refine turning_move fun table table' h => ?_
  cases hmove : table.transition id allowed next operation with
  | error failure =>
    rw [hmove] at h
    cases h
  | ok answer =>
    rw [hmove] at h
    cases h
    exact turnsOnly_of_transition hmove

theorem turning_appendLog (entries : List JournalEntry) :
    (move (·.appendLog id entries) : Act σ Unit).Turning id :=
  turning_move fun _ _ => turnsOnly_of_appendLog

theorem turning_abortDisconnect (previous : EndpointState) :
    (move (·.abortDisconnect id previous) : Act σ Unit).Turning id := by
  by_cases hprevious : previous ∈ [EndpointState.connected, .pending]
  · have hstep : (fun table : Table => table.abortDisconnect id previous) = fun table => do
        return (← table.transition id [.disconnecting] previous .abortDisconnect).2 := by
      funext table
      exact (abortDisconnect_of_mem hprevious table id).trans
        (Operation.return_eq_map _ _).symm
    rw [hstep]
    exact turning_transition
  · refine turning_move fun table table' h => ?_
    rw [abortDisconnect_of_not_mem hprevious] at h
    cases h

theorem parting_remove : (moveAndDiscard (·.remove id) : Act σ Unit).Parting id :=
  parting_moveAndDiscard fun _ _ _ => partsOnly_of_remove

theorem parting_abandonPending (operation : EndpointOperation) :
    (moveAndDiscard (·.abandonPending id operation) : Act σ Unit).Parting id :=
  parting_moveAndDiscard fun _ _ _ => partsOnly_of_abandonPending

end Act

/-! ## The operations of a session -/

namespace Session

open Table Act

variable {σ : Type} {id : String}

theorem turning_createBatch (sources : List Path) :
    (createBatch id sources : Act σ String).Turning id := by
  unfold createBatch
  refine (turning_endpoint id).bind fun peer => ?_
  refine (turning_draw _).bind fun numbered => ?_
  refine (turning_draw _).bind fun batchId => ?_
  refine turning_get.bind fun session => ?_
  refine (turning_ofExcept _).bind fun batch => ?_
  exact Turning.bind (turning_update fun _ => rfl) fun _ => turning_pure _

theorem turning_receiveDescriptor (descriptor : Descriptor) :
    (receiveDescriptor id descriptor : Act σ String).Turning id := by
  unfold receiveDescriptor
  refine (turning_endpoint id).bind fun peer => ?_
  split_ifs
  · exact turning_throw_bind _ _
  · refine turning_get.bind fun session => ?_
    refine (turning_ofExcept _).bind fun batch => ?_
    exact Turning.bind (turning_update fun _ => rfl) fun _ => turning_pure _

theorem turning_finishPhase (result : Except Failure PhaseReport) :
    (finishPhase id result : Act σ PhaseReport).Turning id := by
  unfold finishPhase
  split
  · exact turning_throw _
  · refine Turning.bind turning_transition fun _ => ?_
    refine (turning_ofExcept result).bind fun report => ?_
    exact (turning_appendLog _).bind fun _ => turning_pure _

theorem turning_runOutgoing
    (run : Settings → OutgoingBatch → World σ →
      Except Failure PhaseReport × OutgoingBatch × World σ)
    (batch : String) : (runOutgoing run id batch).Turning id := by
  unfold runOutgoing
  refine (turning_endpoint id).bind fun peer => ?_
  split
  · exact turning_throw _
  · refine Turning.bind turning_transition fun _ => ?_
    refine Turning.of_get fun s => Turning.set_bind ?_ s _
    exact Turning.bind (turning_update fun _ => rfl) fun _ => turning_finishPhase _

theorem turning_logSend (batch : String) (outcome : Outcome) :
    (logSend id batch outcome : Act σ Unit).Turning id :=
  turning_move fun _ _ => turnsOnly_of_appendLog

theorem turning_acceptPayload (peer : Endpoint) (payload : Int) (content : Bytes) :
    (acceptPayload id peer payload content : Act σ Unit).Turning id := by
  unfold acceptPayload
  refine turning_get.bind fun session => ?_
  refine (turning_draw _).bind fun result => ?_
  split
  · exact (turning_appendLog _).bind fun _ => turning_throw _
  · exact Turning.bind (turning_update fun _ => rfl) fun _ => turning_appendLog _

theorem turning_finishSend (batch : String) (status : PayloadStatus) :
    (finishSend id batch status : Act σ Unit).Turning id := by
  unfold finishSend
  refine Turning.bind (turning_update fun _ => rfl) fun _ => ?_
  refine (turning_endpoint id).bind fun peer => ?_
  have hlog : (logSend id batch (outcomeOf status) : Act σ Unit).Turning id :=
    turning_logSend batch _
  have hdrop : (move (·.update id (·.dropOutgoing batch)) : Act σ Unit).Turning id :=
    turning_update fun _ => rfl
  split_ifs
  · exact Turning.bind turning_transition fun _ => hlog.bind fun _ => hdrop
  · exact hlog.bind fun _ => hdrop
  · exact Turning.bind turning_transition fun _ => hlog.bind fun _ => turning_pure _
  · exact hlog.bind fun _ => turning_pure _

theorem turning_finishPayload (payload : Int) (status : PayloadStatus) :
    (finishPayload id payload status : Act σ Unit).Turning id := by
  unfold finishPayload
  refine (turning_endpoint id).bind fun peer => ?_
  split
  · refine Turning.bind (turning_update fun _ => rfl) fun _ => ?_
    split_ifs
    · exact turning_acceptPayload peer payload _
    · exact turning_pure _
  · split
    · exact turning_pure _
    · exact turning_finishSend _ status

/-- The endpoint that an action is about, if it is about one. -/
def Action.endpoint? : Action σ → Option String
  | .outside _ | .notify _ | .next | .emptyQueue | .subscribe _ | .unsubscribe _ => none
  | .select endpoint | .connect endpoint | .disconnect endpoint | .createBatch endpoint _
  | .loadBatch endpoint _ | .stageBatch endpoint _ | .sendBatch endpoint _
  | .receiveDescriptor endpoint _ | .downloadBatch endpoint _ => some endpoint
  | .handle event => some event.endpoint

/-- Why an action about an endpoint leaves another selection, if it does. -/
inductive Selection (id : String) (table : Table) : Action σ → Table → Prop
  | kept {action : Action σ} {table' : Table} : table'.selected = table.selected →
      Selection id table action table'
  | chosen {table' : Table} : table'.selected = some id → Selection id table (.select id) table'
  | called {name : String} {table' : Table} : table'.selected = some id →
      Selection id table (.handle (.connectionInitiated id name)) table'
  /-- The selected endpoint is gone, and the first of those that are left is selected. -/
  | gone {action : Action σ} {table' : Table} : table.selected = some id →
      id ∈ table.endpoints.map Endpoint.id → id ∉ table'.endpoints.map Endpoint.id →
      table'.selected = (table'.endpoints.map Endpoint.id).head? →
      Selection id table action table'

variable {s s' : Session σ} {action : Action σ} {table table' : Table}

/-- What an action about an endpoint makes of a table beside that endpoint. -/
structure Beside (id : String) (action : Action σ) (table table' : Table) : Prop where
  others : table'.endpoints.filter (·.id ≠ id) = table.endpoints.filter (·.id ≠ id)
  selection : Selection id table action table'

theorem beside_of_partsOnly (h : PartsOnly id table table') : Beside id action table table' := by
  refine ⟨h.others, ?_⟩
  rcases h.selected with hkept | ⟨hselected, hmem, hnot, hhead⟩
  · exact .kept hkept
  · exact .gone hselected hmem hnot hhead

theorem beside_of_move {change : Table → Except Failure Table}
    (h : ∀ table', change s.table = .ok table' → Beside id action s.table table') :
    Beside id action s.table ((move change).run s).2.table := by
  cases hchange : change s.table with
  | ok table' =>
    rw [run_move_of_ok hchange]
    exact h table' hchange
  | error failure =>
    rw [run_move_of_error hchange]
    exact ⟨rfl, .kept rfl⟩

theorem filter_ne_append (endpoints : List Endpoint) {e : Endpoint} (h : e.id = id) :
    (endpoints ++ [e]).filter (·.id ≠ id) = endpoints.filter (·.id ≠ id) := by
  simp [filter_append, h]

theorem beside_select (s : Session σ) (id : String) :
    Beside id (.select id : Action σ) s.table ((Session.select id).run s).2.table := by
  refine beside_of_move fun table' h => ?_
  obtain ⟨_, -, hselected⟩ := exists_of_get_bind h
  cases hselected
  exact ⟨rfl, .chosen rfl⟩

theorem beside_handle (s : Session σ) (event : Event) :
    Beside event.endpoint (.handle event : Action σ) s.table ((handle event).run s).2.table := by
  have of_turning {act : Act σ Unit} (h : act.Turning event.endpoint) :
      Beside event.endpoint (.handle event : Action σ) s.table (act.run s).2.table :=
    beside_of_partsOnly (h s).partsOnly
  cases event with
  | endpointFound endpoint name medium =>
    refine beside_of_move fun table' h => ?_
    unfold discover at h
    split at h
    · cases h
    · cases h
      exact ⟨filter_ne_append _ rfl, .kept rfl⟩
  | connectionInitiated endpoint name =>
    refine beside_of_move fun table' h => ?_
    cases hfind : s.table.find? endpoint with
    | none =>
      rw [connectionInitiated_of_unknown hfind] at h
      split_ifs at h
      cases h
      exact ⟨filter_ne_append _ rfl, .called rfl⟩
    | some p =>
      rw [connectionInitiated_of_known hfind] at h
      cases hmove : s.table.transition endpoint [.discovered, .pending] .pending
          .initiateConnection with
      | error failure =>
        rw [hmove] at h
        cases h
      | ok answer =>
        rw [hmove] at h
        cases h
        exact ⟨(turnsOnly_of_transition hmove).others, .called rfl⟩
  | endpointLost endpoint | disconnected endpoint => exact beside_of_partsOnly (parting_remove s)
  | connectionRejected endpoint => exact beside_of_partsOnly (parting_abandonPending _ s)
  | distanceChanged endpoint distance => exact of_turning (turning_pure _)
  | connectionAccepted endpoint => exact of_turning turning_transition
  | bandwidthUpgraded endpoint medium => exact of_turning (turning_update fun _ => rfl)
  | payloadInitiated endpoint payload content => exact of_turning (turning_update fun _ => rfl)
  | payloadProgress endpoint payload status total transferred =>
    have hturning : (if status = .inProgress then pure ()
        else finishPayload endpoint payload status : Act σ Unit).Turning endpoint := by
      split_ifs
      · exact turning_pure _
      · exact turning_finishPayload payload status
    exact of_turning hturning

theorem find?_of_filter_ne {endpoints endpoints' : List Endpoint}
    (h : endpoints'.filter (·.id ≠ id) = endpoints.filter (·.id ≠ id)) {other : String}
    (hother : other ≠ id) :
    endpoints'.find? (·.id = other) = endpoints.find? (·.id = other) := by
  have hfind := find?_filter_ne endpoints' other id
  rw [h, find?_filter_ne, if_neg hother, if_neg hother] at hfind
  exact hfind.symm

variable [Services σ]

theorem turning_downloadBatch (batch : String) :
    (downloadBatch id batch : Act σ PhaseReport).Turning id := by
  unfold downloadBatch
  refine (turning_endpoint id).bind fun peer => ?_
  split
  · exact turning_throw _
  · refine Turning.bind turning_transition fun _ => ?_
    refine Turning.of_get fun s => Turning.set_bind ?_ s _
    exact Turning.bind (turning_update fun _ => rfl) fun _ => turning_finishPhase _

theorem turning_sendBatch (batch : String) : (sendBatch id batch : Act σ Unit).Turning id := by
  unfold sendBatch
  refine (turning_endpoint id).bind fun peer => ?_
  split
  · exact turning_throw _
  · split_ifs
    · exact turning_throw_bind _ _
    · refine (turning_ofExcept _).bind fun payload => ?_
      refine Turning.bind turning_transition fun _ => ?_
      refine (turning_call _).bind fun result => ?_
      split
      · exact turning_update fun _ => rfl
      · refine Turning.bind turning_transition fun _ => ?_
        exact (turning_logSend _ _).bind fun _ => turning_throw _

theorem parting_connect : (connect id : Act σ Unit).Parting id := by
  unfold connect
  refine Turning.bind_parting turning_transition fun _ => ?_
  refine (turning_call _).bind_parting fun result => ?_
  split
  · exact (turning_pure _).parting
  · exact (parting_abandonPending _).bind_turning fun _ => turning_throw _

theorem parting_disconnect : (disconnect id : Act σ Unit).Parting id := by
  unfold disconnect
  refine Turning.bind_parting (turning_step fun _ _ => turnsOnly_of_transition) fun previous => ?_
  refine (turning_call _).bind_parting fun result => ?_
  split
  · exact parting_remove
  · exact ((turning_abortDisconnect _).bind fun _ => turning_throw _).parting

theorem Action.beside (action : Action σ) (h : action.endpoint? = some id) (s : Session σ) :
    Beside id action s.table (action.run s).table := by
  have of_turning {α : Type} {act : Act σ α} (h : act.Turning id) :
      Beside id action s.table (act.run s).2.table :=
    beside_of_partsOnly (h s).partsOnly
  have of_phase {act : Act σ PhaseReport} (h : act.Turning id) :
      Beside id action s.table (act.after s).table :=
    Act.after_induction (P := fun s' => Beside id action s.table s'.table) ⟨rfl, .kept rfl⟩
      fun _ => of_turning h
  cases action with
  | outside | notify | next | emptyQueue | subscribe | unsubscribe => cases h
  | select => cases h; exact beside_select s id
  | connect => cases h; exact beside_of_partsOnly (parting_connect s)
  | disconnect => cases h; exact beside_of_partsOnly (parting_disconnect s)
  | createBatch _ sources => cases h; exact of_turning (turning_createBatch sources)
  | loadBatch _ batch => cases h; exact of_phase (turning_runOutgoing _ batch)
  | stageBatch _ batch => cases h; exact of_phase (turning_runOutgoing _ batch)
  | sendBatch _ batch => cases h; exact of_turning (turning_sendBatch batch)
  | receiveDescriptor _ descriptor =>
    cases h; exact of_turning (turning_receiveDescriptor descriptor)
  | downloadBatch _ batch => cases h; exact of_phase (turning_downloadBatch batch)
  | handle event => cases h; exact beside_handle s event

theorem Action.endpoints_of_endpoint?_eq_none (action : Action σ) (h : action.endpoint? = none)
    (s : Session σ) :
    (action.run s).table.endpoints = s.table.endpoints ∧
      (action.run s).table.selected = s.table.selected := by
  cases action with
  | outside | notify | emptyQueue | subscribe | unsubscribe => exact ⟨rfl, rfl⟩
  | next =>
    rw [run_next]
    unfold next?
    split
    · exact ⟨rfl, rfl⟩
    · exact ⟨rfl, rfl⟩
  | _ => cases h

/-- Whatever is done about an endpoint and whatever comes of it, every other endpoint is after it
what it was before, and the others follow each other as before. The selection stays, unless the
endpoint is selected now, or it was and is gone. -/
theorem other_endpoints_kept (action : Action σ) (h : action.endpoint? = some id)
    (s : Session σ) :
    (∀ other, other ≠ id → (action.run s).table.find? other = s.table.find? other) ∧
      (action.run s).table.endpoints.filter (·.id ≠ id) =
        s.table.endpoints.filter (·.id ≠ id) ∧
      Selection id s.table action (action.run s).table := by
  obtain ⟨hothers, hselection⟩ := action.beside h s
  exact ⟨fun _ hother => find?_of_filter_ne hothers hother, hothers, hselection⟩

/-- Two peers call, and the one that is selected goes. -/
theorem other_endpoints_kept_lost :
    let called : Session InMemory := (opened ourSettings ⟨Disk.empty, InMemory.empty⟩).after
      [.handle (.connectionInitiated "a" "first"), .handle (.connectionInitiated "b" "second")]
    let lost := (Action.handle (.endpointLost "b")).run called
    called.table.selected = some "b" ∧ lost.table.selected = some "a" ∧
      lost.table.find? "a" = called.table.find? "a" := by
  intro called lost
  have hkept := other_endpoints_kept (.handle (.endpointLost "b")) rfl called
  exact ⟨by decide +kernel, by decide +kernel, hkept.1 "a" (by decide)⟩

/-- What is not about an endpoint leaves it as it is, and so does what is about none. -/
theorem filter_endpoints_of_not_about {keep : String → Bool} (action : Action σ)
    (h : ∀ id, action.endpoint? = some id → keep id = false) (s : Session σ) :
    (action.run s).table.endpoints.filter (keep ·.id) = s.table.endpoints.filter (keep ·.id) := by
  cases habout : action.endpoint? with
  | none => rw [(action.endpoints_of_endpoint?_eq_none habout s).1]
  | some id =>
    have hkeep : (fun e : Endpoint => keep e.id) = fun e => keep e.id && decide (e.id ≠ id) := by
      funext e
      by_cases he : e.id = id
      · simp [he, h id habout]
      · simp [he]
    rw [hkeep, ← filter_filter, ← filter_filter, (action.beside habout s).others]

/-- In a run none of which is about them, endpoints stay as they are and in their order. -/
theorem Runs.filter_endpoints {keep : String → Bool}
    (h : s.Runs (fun _ action => ∀ id, action.endpoint? = some id → keep id = false) s') :
    s'.table.endpoints.filter (keep ·.id) = s.table.endpoints.filter (keep ·.id) := by
  induction h with
  | refl => rfl
  | act action _ habout ih => exact (filter_endpoints_of_not_about action habout _).trans ih

end Session

end PeerTransfer
