import Mathlib.Tactic
import PeerTransfer.Proofs.Table.Operation
import PeerTransfer.Proofs.Unit.InPlace

/-!
# A table that changes in place

An operation changes the table piece by piece and tells the subscribers on the way, and it may be
refused. `Operation.Allowed` says for each operation what it asks of the table, and
`Operation.refusal` with what kind of failure it is refused. An operation is taken exactly where it
is allowed; elsewhere it is refused before it has changed or told anything (`taken_iff_allowed`).
-/

namespace PeerTransfer

open List Method

namespace Method

variable {U : Type}

/-- Deletes files as far as they can be deleted. -/
def deleteAll (files : List Path) : Method U Unit :=
  modify fun (unit, disk) => (unit, files.foldl Disk.discard disk)

/-- The method that changes the unit all at once, or not at all, and deletes the files that this
leaves without owner. -/
def atOnceDeleting (operation : U → Except Failure (List Path × U)) : Method U Unit :=
  fun (unit, disk) =>
    match operation unit with
    | .ok (files, unit) => .ok () (unit, files.foldl Disk.discard disk)
    | .error failure => .error failure (unit, disk)

section AtOnceDeleting

variable {operation : U → Except Failure (List Path × U)} {unit : U}

theorem run_atOnceDeleting_of_ok {files : List Path} {after : U}
    (h : operation unit = .ok (files, after)) (disk : Disk) :
    (atOnceDeleting operation).run (unit, disk) =
      .ok () (after, files.foldl Disk.discard disk) := by
  simp only [EStateM.run, atOnceDeleting, h]

theorem run_atOnceDeleting_of_error {failure : Failure} (h : operation unit = .error failure)
    (disk : Disk) :
    (atOnceDeleting operation).run (unit, disk) = .error failure (unit, disk) := by
  simp only [EStateM.run, atOnceDeleting, h]

theorem run_atOnceDeleting_congr {operation' : U → Except Failure (List Path × U)}
    (h : operation unit = operation' unit) (disk : Disk) :
    (atOnceDeleting operation).run (unit, disk) = (atOnceDeleting operation').run (unit, disk) := by
  simp only [EStateM.run, atOnceDeleting, h]

end AtOnceDeleting

theorem run_self_bind {α : Type} (next : U → Method U α) (unit : U) (disk : Disk) :
    (self >>= next).run (unit, disk) = (next unit).run (unit, disk) :=
  run_bind_of_ok rfl

theorem discard_atOnce {α : Type} (operation : U → Except Failure (α × U)) :
    discard (atOnce operation) =
      atOnceDeleting fun unit => (operation unit).map fun answer => ([], answer.2) := by
  funext ⟨unit, disk⟩
  change EStateM.map (fun _ => ()) (atOnce operation) (unit, disk) = _
  simp only [EStateM.map, atOnce, atOnceDeleting]
  cases operation unit <;> rfl

end Method

namespace Table

/-! ## What the operations are made of -/

/-- The endpoint of an id, which must be known. -/
def known (id : String) : Method Table Endpoint := do
  let table ← self
  match table.find? id with
  | some endpoint => return endpoint
  | none => throw (.endpointUnknown id)

/-- Moves an endpoint on from one of the allowed states, then tells of it if its state changes. -/
def moveOn (id : String) (allowed : List EndpointState) (next : EndpointState)
    (operation : EndpointOperation) : Method Table EndpointState := do
  let endpoint ← known id
  if endpoint.state ∉ allowed then throw (.endpointConflict operation id endpoint.state)
  change (·.modify id ({ · with state := next }))
  unless endpoint.state = next do change (·.tell (.stateChanged id (some endpoint.state) next))
  return endpoint.state

/-- Adds an endpoint as the last, then tells of it. -/
def append (endpoint : Endpoint) : Method Table Unit := do
  change fun table => { table with endpoints := table.endpoints ++ [endpoint] }
  change (·.tell (.stateChanged endpoint.id none endpoint.state))

/-- Takes an endpoint out of the table with its local copies, then selects another in its place,
then tells of it. -/
def takeOut (id : String) : Method Table Unit := do
  let endpoint ← known id
  change fun table => { table with endpoints := table.endpoints.filter (·.id ≠ id) }
  deleteAll endpoint.localCopies
  change fun table =>
    { table with
      selected :=
        if table.selected = some id then table.endpoints.head?.map (·.id) else table.selected }
  change (·.tell (.stateChanged id (some endpoint.state) .removed))

/-- Gives a handshake up. -/
def giveUp (id : String) (operation : EndpointOperation) : Method Table Unit := do
  let endpoint ← known id
  if endpoint.state ≠ .pending then throw (.endpointConflict operation id endpoint.state)
  if endpoint.isIncoming then takeOut id
  else discard <| moveOn id [.pending] .discovered operation

/-- Records an entry, then tells of it. -/
def record (id : String) (entry : JournalEntry) : Method Table Unit := do
  change (·.modify id fun endpoint => { endpoint with journal := endpoint.journal.append entry })
  change (·.tell (.logged id entry))

namespace Operation

/-- What an operation does, in the order in which it does it. -/
def method : Operation → Method Table Unit
  | subscribe subscriber => change (·.subscribe subscriber)
  | unsubscribe id => change (·.unsubscribe id)
  | discover id name medium => do
    let table ← self
    match table.find? id with
    | some _ => throw (.endpointKnown id)
    | none => append (.new id name .discovered medium false)
  | requestConnection id => discard <| moveOn id [.discovered] .pending .requestConnection
  | connectionInitiated id name => do
    let table ← self
    match table.find? id with
    | none => do
      if Text.isBlank name then throw (.namelessInitiator id)
      append (.new id name .pending .unknown true)
    | some _ => discard <| moveOn id [.discovered, .pending] .pending .initiateConnection
    change ({ · with selected := some id })
  | accept id => discard <| moveOn id [.pending] .connected .acceptConnection
  | reject id => giveUp id .rejectConnection
  | connectionFailed id => giveUp id .failConnection
  | beginTransfer id direction =>
    discard <| moveOn id [.connected] (stateDuring direction) .beginTransfer
  | finishTransfer id => discard <| moveOn id [.sending, .receiving] .connected .finishTransfer
  | beginDisconnect id => discard <| moveOn id [.connected, .pending] .disconnecting .disconnect
  | abortDisconnect id previous => do
    if previous ∉ [EndpointState.connected, .pending] then throw (.badReturn id previous)
    discard <| moveOn id [.disconnecting] previous .abortDisconnect
  | remove id => takeOut id
  | upgradeMedium id medium => do
    let _ ← known id
    change (·.modify id ({ · with medium }))
  | setToken id token => do
    let _ ← known id
    change (·.modify id ({ · with token := some token }))
  | appendLog id entries => do
    let _ ← known id
    entries.forM (record id)
  | select id => do
    let _ ← known id
    change ({ · with selected := some id })

/-- The table that an operation leads to, with the local copies that it leaves without owner. -/
def parting : Operation → Table → Except Failure (List Path × Table)
  | reject id, table => table.reject id
  | connectionFailed id, table => table.connectionFailed id
  | remove id, table => table.remove id
  | operation, table => (operation.step table).map ([], ·)

theorem map_parting (operation : Operation) (table : Table) :
    (operation.parting table).map Prod.snd = operation.step table := by
  have map_map (result : Except Failure Table) :
      (result.map fun table => (([] : List Path), table)).map Prod.snd = result := by
    cases result <;> rfl
  cases operation <;> first | rfl | exact map_map _

end Operation

variable {α : Type} {table : Table} {id : String} {p : Endpoint}

/-! ## The operations at once -/

theorem run_known_bind (h : table.find? id = some p) (next : Endpoint → Method Table α)
    (disk : Disk) : (known id >>= next).run (table, disk) = (next p).run (table, disk) := by
  have hknown : (known id).run (table, disk) = .ok p (table, disk) := by
    simp [known, self, h]
  exact run_bind_of_ok hknown

theorem run_known_bind_of_unknown (h : table.find? id = none) (next : Endpoint → Method Table α)
    (disk : Disk) :
    (known id >>= next).run (table, disk) = .error (.endpointUnknown id) (table, disk) := by
  have hknown : (known id).run (table, disk) = .error (.endpointUnknown id) (table, disk) := by
    simp only [known, self, EStateM.run_bind, EStateM.run_get, EStateM.run_pure, h]
    rfl
  exact run_bind_of_error hknown

/-- What looks its endpoint up first does what the step does if it does so on an endpoint that is
known. -/
theorem known_bind_eq {next : Endpoint → Method Table Unit}
    {step : Table → Except Failure (List Path × Table)}
    (hunknown : ∀ table, table.find? id = none → step table = .error (.endpointUnknown id))
    (hknown : ∀ table p disk, table.find? id = some p →
      (next p).run (table, disk) = (atOnceDeleting step).run (table, disk)) :
    (known id >>= next) = atOnceDeleting step := by
  funext ⟨table, disk⟩
  cases hfind : table.find? id with
  | none =>
    exact (run_known_bind_of_unknown hfind next disk).trans
      (run_atOnceDeleting_of_error (hunknown table hfind) disk).symm
  | some p => exact (run_known_bind hfind next disk).trans (hknown table p disk hfind)

theorem discard_moveOn (id : String) (allowed : List EndpointState) (next : EndpointState)
    (operation : EndpointOperation) :
    discard (moveOn id allowed next operation) = atOnceDeleting fun table =>
      (table.transition id allowed next operation).map fun answer => ([], answer.2) := by
  have hmove : moveOn id allowed next operation =
      atOnce (·.transition id allowed next operation) := by
    funext ⟨table, disk⟩
    cases hfind : table.find? id with
    | none =>
      refine (run_known_bind_of_unknown hfind _ disk).trans ?_
      simp only [atOnce, transition_of_unknown hfind]
    | some p =>
      refine (run_known_bind hfind _ disk).trans ?_
      simp only [atOnce, transition, get_of_find? hfind, bind, Except.bind]
      split_ifs <;> rfl
  rw [hmove, discard_atOnce]

section Moved

variable {allowed : List EndpointState} {next : EndpointState} {operation : EndpointOperation}

theorem run_discard_moveOn_of_ok {answer : EndpointState × Table}
    (h : table.transition id allowed next operation = .ok answer) (disk : Disk) :
    (discard <| moveOn id allowed next operation).run (table, disk) = .ok () (answer.2, disk) := by
  simp only [discard_moveOn, EStateM.run, atOnceDeleting, h]
  rfl

theorem run_discard_moveOn_of_error {failure : Failure}
    (h : table.transition id allowed next operation = .error failure) (disk : Disk) :
    (discard <| moveOn id allowed next operation).run (table, disk) =
      .error failure (table, disk) := by
  simp only [discard_moveOn, EStateM.run, atOnceDeleting, h]
  rfl

end Moved

theorem takeOut_eq (id : String) : takeOut id = atOnceDeleting (·.remove id) := by
  refine known_bind_eq (fun table h => remove_of_unknown h) fun table p disk h => ?_
  simp only [EStateM.run, atOnceDeleting, Table.remove, get_of_find? h]
  rfl

theorem abandonPending_of_known (h : table.find? id = some p) (operation : EndpointOperation) :
    table.abandonPending id operation =
      if p.state = .pending then
        if p.isIncoming then table.remove id
        else (table.transition id [.pending] .discovered operation).map fun answer =>
          ([], answer.2)
      else .error (.endpointConflict operation id p.state) := by
  simp only [abandonPending, get_of_find? h, bind, Except.bind]
  by_cases hstate : p.state = .pending
  · simp only [hstate, ne_eq, not_true, if_true, if_false]
    split_ifs
    · rfl
    · cases table.transition id [.pending] .discovered operation <;> rfl
  · simp only [hstate, ne_eq, not_false_eq_true, if_true, if_false]
    rfl

theorem giveUp_eq (id : String) (operation : EndpointOperation) :
    giveUp id operation = atOnceDeleting (·.abandonPending id operation) := by
  refine known_bind_eq (fun table h => abandonPending_of_unknown h operation)
    fun table p disk h => ?_
  have habandon := abandonPending_of_known h operation
  by_cases hstate : p.state = .pending
  · rw [if_pos hstate] at habandon
    simp only [hstate, ne_eq, not_true, if_false]
    split_ifs at habandon ⊢
    · rw [takeOut_eq]
      exact run_atOnceDeleting_congr habandon.symm disk
    · rw [discard_moveOn]
      exact run_atOnceDeleting_congr habandon.symm disk
  · rw [if_neg hstate] at habandon
    simp only [hstate, ne_eq, not_false_eq_true, if_true]
    exact (run_atOnceDeleting_of_error habandon disk).symm

theorem connectionInitiated_of_known (h : table.find? id = some p) (name : String) :
    table.connectionInitiated id name =
      (table.transition id [.discovered, .pending] .pending .initiateConnection).map fun answer =>
        { answer.2 with selected := some id } := by
  simp only [connectionInitiated, h]
  cases table.transition id [.discovered, .pending] .pending .initiateConnection <;> rfl

section Abort

variable {previous : EndpointState}

theorem abortDisconnect_of_mem (h : previous ∈ [EndpointState.connected, .pending])
    (table : Table) (id : String) :
    table.abortDisconnect id previous =
      (table.transition id [.disconnecting] previous .abortDisconnect).map Prod.snd := by
  simp only [abortDisconnect, h, not_true, if_false]
  cases table.transition id [.disconnecting] previous .abortDisconnect <;> rfl

theorem abortDisconnect_of_not_mem (h : previous ∉ [EndpointState.connected, .pending])
    (table : Table) (id : String) :
    table.abortDisconnect id previous = .error (.badReturn id previous) := by
  simp only [abortDisconnect, h, not_false_eq_true, if_true]
  rfl

end Abort

theorem run_forM_record (id : String) (entries : List JournalEntry) (table : Table) (disk : Disk) :
    (entries.forM (record id)).run (table, disk) =
      .ok () (entries.foldl (fun table entry => table.log id entry) table, disk) := by
  induction entries generalizing table with
  | nil => rfl
  | cons entry entries ih => exact ih (table.log id entry)

namespace Operation

theorem method_discover (id name : String) (medium : Medium) :
    (discover id name medium).method = atOnceDeleting (discover id name medium).parting := by
  funext ⟨table, disk⟩
  refine (run_self_bind _ table disk).trans ?_
  cases hfind : table.find? id with
  | none =>
    have hstep : (discover id name medium).parting table =
        .ok ([], table.add (.new id name .discovered medium false)) := by
      simp only [parting, step, Table.discover, hfind]
      rfl
    exact (run_atOnceDeleting_of_ok hstep disk).symm
  | some p =>
    have hstep : (discover id name medium).parting table = .error (.endpointKnown id) := by
      simp only [parting, step, Table.discover, hfind]
      rfl
    exact (run_atOnceDeleting_of_error hstep disk).symm

theorem method_connectionInitiated (id name : String) :
    (connectionInitiated id name).method =
      atOnceDeleting (connectionInitiated id name).parting := by
  funext ⟨table, disk⟩
  refine (run_self_bind _ table disk).trans ?_
  cases hfind : table.find? id with
  | none =>
    by_cases hname : Text.isBlank name
    · have hstep : (connectionInitiated id name).parting table =
          .error (.namelessInitiator id) := by
        simp only [parting, step, connectionInitiated_of_unknown hfind, hname, if_true]
        rfl
      simp only [hname, if_true]
      exact (run_atOnceDeleting_of_error hstep disk).symm
    · have hstep : (connectionInitiated id name).parting table =
          .ok ([], { table.add (.new id name .pending .unknown true) with
            selected := some id }) := by
        simp only [parting, step, connectionInitiated_of_unknown hfind, hname]
        rfl
      simp only [hname]
      exact (run_atOnceDeleting_of_ok hstep disk).symm
  | some p =>
    cases hmove : table.transition id [.discovered, .pending] .pending .initiateConnection with
    | ok answer =>
      have hstep : (connectionInitiated id name).parting table =
          .ok ([], { answer.2 with selected := some id }) := by
        simp only [parting, step, connectionInitiated_of_known hfind, hmove]
        rfl
      exact (run_bind_of_ok (run_discard_moveOn_of_ok hmove disk)).trans
        (run_atOnceDeleting_of_ok hstep disk).symm
    | error failure =>
      have hstep : (connectionInitiated id name).parting table = .error failure := by
        simp only [parting, step, connectionInitiated_of_known hfind, hmove]
        rfl
      exact (run_bind_of_error (run_discard_moveOn_of_error hmove disk)).trans
        (run_atOnceDeleting_of_error hstep disk).symm

theorem method_abortDisconnect (id : String) (previous : EndpointState) :
    (abortDisconnect id previous).method =
      atOnceDeleting (abortDisconnect id previous).parting := by
  funext ⟨table, disk⟩
  by_cases hprevious : previous ∈ [EndpointState.connected, .pending]
  · simp only [method, hprevious, not_true, if_false, discard_moveOn]
    refine run_atOnceDeleting_congr ?_ disk
    simp only [parting, step, abortDisconnect_of_mem hprevious]
    cases table.transition .. <;> rfl
  · have hstep : (abortDisconnect id previous).parting table = .error (.badReturn id previous) := by
      simp only [parting, step, abortDisconnect_of_not_mem hprevious]
      rfl
    simp only [method, hprevious, not_false_eq_true, if_true]
    exact (run_atOnceDeleting_of_error hstep disk).symm

/-- The order in which an operation does what it does is never seen: it is refused before it has
done anything, or not at all. -/
theorem method_eq (operation : Operation) :
    operation.method = atOnceDeleting operation.parting := by
  cases operation with
  | subscribe | unsubscribe => rfl
  | discover id name medium => exact method_discover id name medium
  | connectionInitiated id name => exact method_connectionInitiated id name
  | abortDisconnect id previous => exact method_abortDisconnect id previous
  | reject id | connectionFailed id => exact giveUp_eq id _
  | remove id => exact takeOut_eq id
  | requestConnection id | accept id | beginTransfer id | finishTransfer id | beginDisconnect id =>
    refine (discard_moveOn ..).trans ?_
    congr 1
    funext table
    simp only [parting, step, Table.requestConnection, Table.accept, Table.beginTransfer,
      Table.finishTransfer, Table.beginDisconnect]
    cases table.transition .. <;> rfl
  | upgradeMedium id medium | setToken id token =>
    refine known_bind_eq (fun table h => ?_) fun table p disk h => ?_
    · simp only [parting, step, Table.upgradeMedium, Table.setToken, update_of_unknown h]
      rfl
    · simp only [EStateM.run, atOnceDeleting, parting, step, Table.upgradeMedium, Table.setToken,
        update, get_of_find? h]
      rfl
  | appendLog id entries =>
    refine known_bind_eq (fun table h => ?_) fun table p disk h => ?_
    · simp only [parting, step, Table.appendLog, get_of_find?_eq_none h]
      rfl
    · refine (run_forM_record id entries table disk).trans ?_
      simp only [EStateM.run, atOnceDeleting, parting, step, Table.appendLog, get_of_find? h]
      rfl
  | select id =>
    refine known_bind_eq (fun table h => ?_) fun table p disk h => ?_
    · simp only [parting, step, Table.select, get_of_find?_eq_none h]
      rfl
    · simp only [EStateM.run, atOnceDeleting, parting, step, Table.select, get_of_find? h]
      rfl

end Operation

/-! ## What is allowed -/

/-- An endpoint of the id is known, and it is in one of the states. -/
def IsIn (table : Table) (id : String) (states : List EndpointState) : Prop :=
  ∃ p, table.find? id = some p ∧ p.state ∈ states

/-- No endpoint of the id is known. -/
def IsUnknown (table : Table) (id : String) : Prop :=
  ∀ p ∈ table.endpoints, p.id ≠ id

instance (table : Table) (id : String) : Decidable (table.IsUnknown id) :=
  inferInstanceAs (Decidable (∀ p ∈ table.endpoints, p.id ≠ id))

theorem isUnknown_iff : table.IsUnknown id ↔ table.find? id = none := by
  simp [IsUnknown, find?]

theorem not_isUnknown (h : table.find? id = some p) : ¬table.IsUnknown id := by
  intro hunknown
  cases h.symm.trans (isUnknown_iff.1 hunknown)

namespace Operation

/-- What an operation asks of the table. -/
def Allowed (table : Table) : Operation → Prop
  | subscribe _ | unsubscribe _ => True
  | discover id _ _ => table.IsUnknown id
  | connectionInitiated id name =>
    table.IsUnknown id ∧ ¬Text.isBlank name ∨ table.IsIn id [.discovered, .pending]
  | requestConnection id => table.IsIn id [.discovered]
  | accept id | reject id | connectionFailed id => table.IsIn id [.pending]
  | beginTransfer id _ => table.IsIn id [.connected]
  | finishTransfer id => table.IsIn id [.sending, .receiving]
  | beginDisconnect id => table.IsIn id [.connected, .pending]
  | abortDisconnect id previous =>
    table.IsIn id [.disconnecting] ∧ (previous = .connected ∨ previous = .pending)
  | remove id | upgradeMedium id _ | setToken id _ | appendLog id _ | select id =>
    ¬table.IsUnknown id

/-- The kind of failure of an operation that is not allowed. -/
def refusal (table : Table) : Operation → Failure.Kind
  | discover _ _ _ => .stateConflict
  | connectionInitiated id _ => if table.IsUnknown id then .collaborator else .stateConflict
  | abortDisconnect id previous =>
    if (previous = .connected ∨ previous = .pending) ∧ table.IsUnknown id then .endpointNotFound
    else .stateConflict
  | requestConnection id | accept id | reject id | connectionFailed id | beginTransfer id _
  | finishTransfer id | beginDisconnect id =>
    if table.IsUnknown id then .endpointNotFound else .stateConflict
  | _ => .endpointNotFound

end Operation

/-- A step is taken where it is allowed, and refused with a failure of the kind elsewhere. -/
def Decides {β : Type} (allowed : Prop) (kind : Failure.Kind) (result : Except Failure β) : Prop :=
  allowed ∧ (∃ b, result = .ok b) ∨
    ¬allowed ∧ ∃ failure, result = .error failure ∧ failure.kind = kind

section Decides

variable {β γ : Type} {allowed : Prop} {kind : Failure.Kind} {result : Except Failure β}

theorem Decides.map (h : Decides allowed kind result) (f : β → γ) :
    Decides allowed kind (result.map f) := by
  rcases h with ⟨hallowed, b, rfl⟩ | ⟨hnot, failure, rfl, hkind⟩
  · exact .inl ⟨hallowed, f b, rfl⟩
  · exact .inr ⟨hnot, failure, rfl, hkind⟩

theorem Decides.congr (h : Decides allowed kind result) {allowed' : Prop} {kind' : Failure.Kind}
    (hallowed : allowed ↔ allowed') (hkind : kind = kind') : Decides allowed' kind' result := by
  rwa [← hallowed, ← hkind]

theorem decides_get (table : Table) (id : String) :
    Decides (¬table.IsUnknown id) .endpointNotFound (table.get id) := by
  cases hfind : table.find? id with
  | none => exact .inr ⟨not_not_intro (isUnknown_iff.2 hfind), _, get_of_find?_eq_none hfind, rfl⟩
  | some p => exact .inl ⟨not_isUnknown hfind, p, get_of_find? hfind⟩

/-- A step that asks for an endpoint in one of some states. -/
theorem decides_of_find? {states : List EndpointState}
    (hunknown : table.find? id = none → result = .error (.endpointUnknown id))
    (htaken : ∀ p, table.find? id = some p → p.state ∈ states → ∃ b, result = .ok b)
    (hrefused : ∀ p, table.find? id = some p → p.state ∉ states →
      ∃ operation, result = .error (.endpointConflict operation id p.state)) :
    Decides (table.IsIn id states)
      (if table.IsUnknown id then .endpointNotFound else .stateConflict) result := by
  cases hfind : table.find? id with
  | none =>
    rw [if_pos (isUnknown_iff.2 hfind)]
    refine .inr ⟨?_, _, hunknown hfind, rfl⟩
    rintro ⟨p, hp, -⟩
    cases hfind.symm.trans hp
  | some p =>
    rw [if_neg (not_isUnknown hfind)]
    by_cases hstate : p.state ∈ states
    · exact .inl ⟨⟨p, hfind, hstate⟩, htaken p hfind hstate⟩
    · obtain ⟨operation, hresult⟩ := hrefused p hfind hstate
      refine .inr ⟨?_, _, hresult, rfl⟩
      rintro ⟨q, hq, hmem⟩
      cases hfind.symm.trans hq
      exact hstate hmem

theorem exists_transition {states : List EndpointState} (h : table.find? id = some p)
    (hstate : p.state ∈ states) (next : EndpointState) (operation : EndpointOperation) :
    ∃ answer, table.transition id states next operation = .ok answer := by
  simp only [transition, get_of_find? h, bind, Except.bind, hstate, not_true, if_false]
  split_ifs
  · exact ⟨_, rfl⟩
  · exact ⟨_, rfl⟩

theorem decides_transition (table : Table) (id : String) (states : List EndpointState)
    (next : EndpointState) (operation : EndpointOperation) :
    Decides (table.IsIn id states)
      (if table.IsUnknown id then .endpointNotFound else .stateConflict)
      (table.transition id states next operation) :=
  decides_of_find? (fun h => transition_of_unknown h states next operation)
    (fun _ h hstate => exists_transition h hstate next operation)
    fun _ h hstate => ⟨operation, transition_of_not_mem h hstate next operation⟩

theorem decides_abandonPending (table : Table) (id : String) (operation : EndpointOperation) :
    Decides (table.IsIn id [.pending])
      (if table.IsUnknown id then .endpointNotFound else .stateConflict)
      (table.abandonPending id operation) := by
  refine decides_of_find? (fun h => abandonPending_of_unknown h operation)
    (fun p h hstate => ?_) fun p h hstate => ⟨operation, ?_⟩
  · rw [abandonPending_of_known h, if_pos (mem_singleton.1 hstate)]
    split_ifs
    · exact ⟨_, remove_of_find? h⟩
    · obtain ⟨answer, hmove⟩ := exists_transition h hstate .discovered operation
      exact ⟨([], answer.2), by rw [hmove]; rfl⟩
  · rw [abandonPending_of_known h, if_neg fun heq => hstate (mem_singleton.2 heq)]

end Decides

namespace Operation

theorem return_eq_map {β γ : Type} (result : Except Failure β) (f : β → γ) :
    (do return f (← result)) = result.map f := by
  cases result <;> rfl

theorem decides_discover (table : Table) (id name : String) (medium : Medium) :
    Decides (table.IsUnknown id) .stateConflict (table.discover id name medium) := by
  unfold Table.discover
  cases hfind : table.find? id with
  | none => exact .inl ⟨isUnknown_iff.2 hfind, _, rfl⟩
  | some p => exact .inr ⟨not_isUnknown hfind, _, rfl, rfl⟩

theorem decides_connectionInitiated (table : Table) (id name : String) :
    Decides ((connectionInitiated id name).Allowed table)
      ((connectionInitiated id name).refusal table) (table.connectionInitiated id name) := by
  cases hfind : table.find? id with
  | none =>
    have hunknown : table.IsUnknown id := isUnknown_iff.2 hfind
    have hkind : (connectionInitiated id name).refusal table = .collaborator := if_pos hunknown
    rw [hkind, connectionInitiated_of_unknown hfind]
    split_ifs with hname
    · refine .inr ⟨?_, _, rfl, rfl⟩
      rintro (⟨-, hnot⟩ | ⟨p, hp, -⟩)
      · exact hnot hname
      · cases hfind.symm.trans hp
    · exact .inl ⟨.inl ⟨hunknown, hname⟩, _, rfl⟩
  | some p =>
    have hknown := not_isUnknown hfind
    have hdecides :=
      decides_transition table id [.discovered, .pending] .pending .initiateConnection
    rw [connectionInitiated_of_known hfind]
    refine (hdecides.map _).congr ⟨.inr, ?_⟩ ?_
    · exact fun h => h.resolve_left fun hnew => hknown hnew.1
    · rw [if_neg hknown]
      exact (if_neg hknown).symm

theorem decides_abortDisconnect (table : Table) (id : String) (previous : EndpointState) :
    Decides ((abortDisconnect id previous).Allowed table)
      ((abortDisconnect id previous).refusal table) (table.abortDisconnect id previous) := by
  have hmem_iff : previous ∈ [EndpointState.connected, .pending] ↔
      previous = .connected ∨ previous = .pending := by simp
  by_cases hprevious : previous ∈ [EndpointState.connected, .pending]
  · rw [abortDisconnect_of_mem hprevious]
    rw [hmem_iff] at hprevious
    refine ((decides_transition ..).map _).congr (iff_self_and.2 fun _ => hprevious) ?_
    simp only [refusal, hprevious, true_and]
  · rw [abortDisconnect_of_not_mem hprevious]
    rw [hmem_iff] at hprevious
    exact .inr ⟨fun h => hprevious h.2, _, rfl, (if_neg fun h => hprevious h.1).symm⟩

theorem decides_parting (operation : Operation) (table : Table) :
    Decides (operation.Allowed table) (operation.refusal table) (operation.parting table) := by
  cases operation with
  | subscribe | unsubscribe => exact .inl ⟨trivial, _, rfl⟩
  | discover => exact (decides_discover ..).map _
  | connectionInitiated => exact (decides_connectionInitiated ..).map _
  | abortDisconnect => exact (decides_abortDisconnect ..).map _
  | reject id | connectionFailed id => exact decides_abandonPending table id _
  | remove id =>
    simp only [parting, Table.remove, return_eq_map]
    exact (decides_get table id).map _
  | beginDisconnect id => exact ((decides_transition ..).map _).map _
  | requestConnection id | accept id | beginTransfer id | finishTransfer id =>
    refine Decides.map ?_ _
    simp only [step, Table.requestConnection, Table.accept, Table.beginTransfer,
      Table.finishTransfer, return_eq_map]
    exact (decides_transition ..).map _
  | upgradeMedium id | setToken id | appendLog id | select id =>
    refine Decides.map ?_ _
    simp only [step, Table.upgradeMedium, Table.setToken, update, Table.appendLog, Table.select,
      return_eq_map]
    exact (decides_get table id).map _

/-- An operation is taken where the table is as it asks, and only there; elsewhere it is refused,
and everything is as it was: the endpoints and their order, what is selected, what has been told,
and the disk. -/
theorem taken_iff_allowed (operation : Operation) (table : Table) (disk : Disk) :
    (operation.Allowed table ↔ ∃ after, operation.step table = .ok after) ∧
      (operation.Allowed table ↔ ∃ after, operation.method.run (table, disk) = .ok () after) ∧
      (¬operation.Allowed table → ∃ failure, operation.step table = .error failure ∧
        operation.method.run (table, disk) = .error failure (table, disk) ∧
        failure.kind = operation.refusal table) := by
  rw [method_eq, ← map_parting]
  rcases decides_parting operation table with
    ⟨hallowed, ⟨copies, after⟩, hparting⟩ | ⟨hnot, failure, hparting, hkind⟩
  · rw [hparting]
    exact ⟨iff_of_true hallowed ⟨after, rfl⟩,
      iff_of_true hallowed ⟨_, run_atOnceDeleting_of_ok hparting disk⟩,
      fun hnot => absurd hallowed hnot⟩
  · have hrun := run_atOnceDeleting_of_error hparting disk
    rw [hparting, hrun]
    refine ⟨iff_of_false hnot ?_, iff_of_false hnot ?_, fun _ => ⟨failure, rfl, rfl, hkind⟩⟩
    · rintro ⟨after, ⟨⟩⟩
    · rintro ⟨after, ⟨⟩⟩

end Operation

end Table

end PeerTransfer
