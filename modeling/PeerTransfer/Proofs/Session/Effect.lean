import PeerTransfer.Proofs.Session.Settled

/-!
# What an action can do

An action leaves the endpoints as they are, or it adds one, takes one out, or makes of one what
`Turn` lists. `Effect` says so, and with what failure the action then ends (`Action.effect`). What
holds of every action is shown from it, without looking at the operations again.
-/

namespace PeerTransfer

/-- The failure in which an operation ends, if it does not succeed. -/
def failureOf {α : Type} : Except Failure α → Option Failure
  | .ok _ => none
  | .error failure => some failure

/-- The failure in which a call ends, if it ends in one. One that panics does not end. -/
def Act.failure? {σ α : Type} (act : Act σ α) (s : Session σ) : Option Failure :=
  match (act.run s).1 with
  | .error .panicked => none
  | result => failureOf result

namespace Session

open List Table Act

variable {σ : Type} [Services σ]

/-- The failure in which an action ends, if it does not succeed. -/
def Action.failure? (s : Session σ) : Action σ → Option Failure
  | .outside _ | .notify _ | .next | .emptyQueue => none
  | .subscribe subscriber => failureOf ((Session.subscribe subscriber).run s).1
  | .unsubscribe subscriber => failureOf ((Session.unsubscribe subscriber).run s).1
  | .select endpoint => failureOf ((Session.select endpoint).run s).1
  | .connect endpoint => failureOf ((Session.connect endpoint).run s).1
  | .disconnect endpoint => failureOf ((Session.disconnect endpoint).run s).1
  | .createBatch endpoint sources => failureOf ((Session.createBatch endpoint sources).run s).1
  | .loadBatch endpoint batch => (Session.loadBatch endpoint batch).failure? s
  | .stageBatch endpoint batch => (Session.stageBatch endpoint batch).failure? s
  | .sendBatch endpoint batch => failureOf ((Session.sendBatch endpoint batch).run s).1
  | .receiveDescriptor endpoint descriptor =>
    failureOf ((Session.receiveDescriptor endpoint descriptor).run s).1
  | .downloadBatch endpoint batch => (Session.downloadBatch endpoint batch).failure? s
  | .handle event => failureOf ((Session.handle event).run s).1

/-- What an action makes of the endpoint that it is about, and the failure in which it ends. -/
inductive Turn (s : Session σ) (p : Endpoint) : Action σ → Option Failure → Endpoint → Prop
  | requested : p.state = .discovered →
      Turn s p (.connect p.id) none { p with state := .pending }
  | picked {sources : List Path} (batch : OutgoingBatch) :
      Turn s p (.createBatch p.id sources) none (p.addOutgoing batch)
  | loaded {batch : String} {found changed : OutgoingBatch} {result : Except Failure PhaseReport}
      {disk : Disk} :
      p.outgoing? batch = some found → p.state = .connected →
      Phase.runLoad s.settings found s.world.disk = (result, changed, disk) →
      result ≠ .error .panicked →
      Turn s p (.loadBatch p.id batch) (failureOf result)
        ((p.setOutgoing changed).log (entriesOf result))
  | staged {batch : String} {found changed : OutgoingBatch} {result : Except Failure PhaseReport}
      {world : World σ} :
      p.outgoing? batch = some found → p.state = .connected →
      Phase.runStage s.settings found s.world = (result, changed, world) →
      result ≠ .error .panicked →
      Turn s p (.stageBatch p.id batch) (failureOf result)
        ((p.setOutgoing changed).log (entriesOf result))
  | sent {batch : String} {found : OutgoingBatch} {payload : Bytes} :
      p.outgoing? batch = some found → found.state = OutgoingState.staged →
      found.encodeWire = .ok payload → p.state = .connected →
      (Services.send p.id payload s.world.services).1 = .ok () →
      Turn s p (.sendBatch p.id batch) none { p with state := .sending, inFlight := some batch }
  | unsent {batch : String} {found : OutgoingBatch} {payload : Bytes} {failure : Failure} :
      p.outgoing? batch = some found → found.state = OutgoingState.staged →
      found.encodeWire = .ok payload → p.state = .connected →
      (Services.send p.id payload s.world.services).1 = .error failure →
      Turn s p (.sendBatch p.id batch) (some failure) (p.log (sendEntries p batch .failure))
  | received {descriptor : Descriptor} {batch : IncomingBatch} :
      p.incoming? descriptor.batchId = none →
      Batch.ofDescriptor descriptor p.name s.settings.localName = .ok batch →
      Turn s p (.receiveDescriptor p.id descriptor) none (p.addIncoming batch)
  | downloaded {batch : String} {found changed : IncomingBatch}
      {result : Except Failure PhaseReport} {world : World σ} :
      p.incoming? batch = some found → p.state = .connected →
      Phase.runDownload s.settings found s.world = (result, changed, world) →
      result ≠ .error .panicked →
      Turn s p (.downloadBatch p.id batch) (failureOf result)
        ((p.setIncoming changed).log (entriesOf result))
  | initiated {name : String} : p.state = .discovered ∨ p.state = .pending →
      Turn s p (.handle (.connectionInitiated p.id name)) none { p with state := .pending }
  | accepted : p.state = .pending →
      Turn s p (.handle (.connectionAccepted p.id)) none { p with state := .connected }
  | rejected : p.state = .pending → p.isIncoming = false →
      Turn s p (.handle (.connectionRejected p.id)) none { p with state := .discovered }
  | upgraded {medium : Medium} :
      Turn s p (.handle (.bandwidthUpgraded p.id medium)) none { p with medium }
  | announced {payload : Int} {content : Bytes} :
      Turn s p (.handle (.payloadInitiated p.id payload content)) none
        (p.holdPayload payload content)
  | dropped {payload : Int} {content : Bytes} {status : PayloadStatus}
      {total transferred : UInt64} :
      p.payload? payload = some content → status ≠ .inProgress → status ≠ .success →
      Turn s p (.handle (.payloadProgress p.id payload status total transferred)) none
        (p.dropPayload payload)
  | spoiled {payload : Int} {content : Bytes} {failure : Failure} {total transferred : UInt64} :
      p.payload? payload = some content →
      (Batch.ofWire content p.name s.settings.localName s.ids).1 = .error failure →
      Turn s p (.handle (.payloadProgress p.id payload .success total transferred)) (some failure)
        ((p.dropPayload payload).log [badPayloadEntry payload content])
  | materialized {payload : Int} {content : Bytes} {batch : IncomingBatch}
      {total transferred : UInt64} :
      p.payload? payload = some content →
      (Batch.ofWire content p.name s.settings.localName s.ids).1 = .ok batch →
      Turn s p (.handle (.payloadProgress p.id payload .success total transferred)) none
        (((p.dropPayload payload).addIncoming batch).log (batch.units.map receiveEntry))
  | ended {payload : Int} {batch : String} {status : PayloadStatus} {total transferred : UInt64} :
      p.payload? payload = none → p.inFlight = some batch → status ≠ .inProgress →
      Turn s p (.handle (.payloadProgress p.id payload status total transferred)) none
        (recordSend (giveFree p) batch (outcomeOf status))

/-- The action may take an endpoint out of the table. -/
def Action.Parts : Action σ → Prop
  | .connect _ | .disconnect _ => True
  | .handle (.endpointLost _) | .handle (.disconnected _) | .handle (.connectionRejected _) => True
  | _ => False

/-- What an action makes of a session, and the failure in which it ends. -/
inductive Effect (s : Session σ) (action : Action σ) (failure? : Option Failure)
    (s' : Session σ) : Prop
  | kept : s'.table.endpoints = s.table.endpoints →
      failure? = none ∨ s'.table.selected = s.table.selected → s'.settings = s.settings →
      Effect s action failure? s'
  | turned {p q : Endpoint} : s.table.find? p.id = some p → Turn s p action failure? q →
      s'.table.endpoints = (s.table.focus q []).endpoints →
      failure? = none ∨ s'.table.selected = s.table.selected → s'.settings = s.settings →
      Effect s action failure? s'
  | added {e : Endpoint} (name : String) : s.table.find? e.id = none →
      (∃ medium, action = .handle (.endpointFound e.id name medium) ∧
        e = Endpoint.new e.id name .discovered medium false) ∨
      action = .handle (.connectionInitiated e.id name) ∧
        e = Endpoint.new e.id name .pending .unknown true →
      s'.table.endpoints = s.table.endpoints ++ [e] → failure? = none →
      s'.settings = s.settings → Effect s action failure? s'
  | removed {p : Endpoint} : s.table.find? p.id = some p →
      s'.table.endpoints = s.table.endpoints.filter (·.id ≠ p.id) →
      failure? = none ∨ p.state = .discovered ∧ p.isIncoming = true →
      s'.settings = s.settings → action.Parts → Effect s action failure? s'

variable {s s' : Session σ} {action : Action σ} {id : String} {p : Endpoint}

theorem Effect.refl (failure? : Option Failure) : Effect s action failure? s :=
  .kept rfl (.inr rfl) rfl

theorem Effect.congr {failure? : Option Failure} {s'' : Session σ}
    (h : Effect s action failure? s') (htable : s''.table = s'.table)
    (hsettings : s''.settings = s'.settings) : Effect s action failure? s'' := by
  cases h with
  | kept hendpoints hselected hkept =>
    exact .kept (htable ▸ hendpoints) (htable ▸ hselected) (hsettings.trans hkept)
  | turned hfind hturn hendpoints hselected hkept =>
    exact .turned hfind hturn (htable ▸ hendpoints) (htable ▸ hselected) (hsettings.trans hkept)
  | added name hfind hnew hendpoints hfailure hkept =>
    exact .added name hfind hnew (htable ▸ hendpoints) hfailure (hsettings.trans hkept)
  | removed hfind hendpoints hfailure hkept hparts =>
    exact .removed hfind (htable ▸ hendpoints) hfailure (hsettings.trans hkept) hparts

/-- What is put back in the state in which it was found. -/
theorem setState_of_eq {state : EndpointState} (h : p.state = state) (q : Endpoint) :
    ({ q with state := state } : Endpoint) = { q with state := p.state } := by
  rw [h]

/-! ## Connections -/

theorem effect_move {change : Table → Except Failure Table}
    (h : ∀ table, change s.table = .ok table → Effect s action none { s with table }) :
    Effect s action (failureOf ((move change).run s).1) ((move change).run s).2 := by
  cases htable : change s.table with
  | error failure =>
    rw [run_move_of_error htable]
    exact .refl _
  | ok table =>
    rw [run_move_of_ok htable]
    exact h table htable

theorem effect_moveAndDiscard {change : Table → Except Failure (List Path × Table)}
    (h : ∀ copies table, change s.table = .ok (copies, table) →
      Effect s action none { s with table }) :
    Effect s action (failureOf ((moveAndDiscard change).run s).1)
      ((moveAndDiscard change).run s).2 := by
  cases htable : change s.table with
  | error failure =>
    rw [run_moveAndDiscard_of_error htable]
    exact .refl _
  | ok answer =>
    rw [run_moveAndDiscard_of_ok htable]
    exact (h answer.1 answer.2 htable).congr rfl rfl

theorem effect_select (id : String) :
    Effect s (.select id) (failureOf ((select id).run s).1) ((select id).run s).2 := by
  apply effect_move
  intro table htable
  unfold Table.select at htable
  cases hget : s.table.get id with
  | error failure =>
    rw [hget] at htable
    cases htable
  | ok p =>
    rw [hget] at htable
    cases htable
    exact .kept rfl (.inl rfl) rfl

section Operations

variable (hdistinct : s.table.Distinct)

include hdistinct

theorem effect_connect (id : String) :
    Effect s (.connect id) (failureOf ((connect id).run s).1) ((connect id).run s).2 := by
  cases hfind : s.table.find? id with
  | none =>
    rw [run_connect_of_unknown hfind]
    exact .refl _
  | some p =>
    obtain rfl : p.id = id := id_of_find? hfind
    rw [run_connect hdistinct hfind]
    by_cases hstate : p.state = .discovered
    · rw [if_pos hstate]
      dsimp only
      split
      · exact .turned hfind (.requested hstate) rfl (.inl rfl) rfl
      · split_ifs with hincoming
        · refine .removed hfind ?_ (.inr ⟨hstate, hincoming⟩) rfl trivial
          exact endpoints_without_focus s.table (by rfl) _
        · rw [setState_of_eq hstate]
          exact .kept (endpoints_focus_self hdistinct hfind _) (.inr rfl) rfl
    · rw [if_neg hstate]
      exact .refl _

theorem effect_disconnect (id : String) :
    Effect s (.disconnect id) (failureOf ((disconnect id).run s).1) ((disconnect id).run s).2 := by
  cases hfind : s.table.find? id with
  | none =>
    rw [run_disconnect_of_unknown hfind]
    exact .refl _
  | some p =>
    obtain rfl : p.id = id := id_of_find? hfind
    rw [run_disconnect hdistinct hfind]
    split_ifs
    · dsimp only
      split
      · refine .removed hfind ?_ (.inl rfl) rfl trivial
        exact endpoints_without_focus s.table (by rfl) _
      · exact .kept (endpoints_focus_self hdistinct hfind _) (.inr rfl) rfl
    · exact .refl _

/-! ## Transfers -/

theorem effect_createBatch (id : String) (sources : List Path) :
    Effect s (.createBatch id sources) (failureOf ((createBatch id sources).run s).1)
      ((createBatch id sources).run s).2 := by
  cases hfind : s.table.find? id with
  | none =>
    rw [run_createBatch_of_unknown hfind]
    exact .refl _
  | some p =>
    obtain rfl : p.id = id := id_of_find? hfind
    rw [run_createBatch hdistinct hfind]
    dsimp only
    split
    · exact .kept rfl (.inr rfl) rfl
    · next batch _ => exact .turned hfind (.picked batch) rfl (.inl rfl) rfl

theorem effect_receiveDescriptor (id : String) (descriptor : Descriptor) :
    Effect s (.receiveDescriptor id descriptor)
      (failureOf ((receiveDescriptor id descriptor).run s).1)
      ((receiveDescriptor id descriptor).run s).2 := by
  cases hfind : s.table.find? id with
  | none =>
    rw [run_receiveDescriptor_of_unknown hfind]
    exact .refl _
  | some p =>
    obtain rfl : p.id = id := id_of_find? hfind
    rw [run_receiveDescriptor hdistinct hfind]
    split_ifs with hknown
    · exact .refl _
    · have hnone : p.incoming? descriptor.batchId = none := by simpa using hknown
      split
      · exact .refl _
      · next batch hbatch => exact .turned hfind (.received hnone hbatch) rfl (.inl rfl) rfl

omit hdistinct in
theorem effect_after {α : Type} {act : Act σ α}
    (h : (act.run s).1 ≠ .error .panicked →
      Effect s action (failureOf (act.run s).1) (act.run s).2) :
    Effect s action (act.failure? s) (act.after s) := by
  unfold Act.failure?
  split
  · next hpanicked =>
    rw [after_of_panicked hpanicked]
    exact .refl _
  · next hended =>
    rw [after_of_ended hended]
    exact h hended

theorem effect_loadBatch (id batch : String)
    (hended : ((loadBatch id batch).run s).1 ≠ .error .panicked) :
    Effect s (.loadBatch id batch) (failureOf ((loadBatch id batch).run s).1)
      ((loadBatch id batch).run s).2 := by
  unfold loadBatch at hended ⊢
  cases hfind : s.table.find? id with
  | none =>
    rw [run_runOutgoing_of_unknown hfind]
    exact .refl _
  | some p =>
    obtain rfl : p.id = id := id_of_find? hfind
    rw [run_runOutgoing hdistinct hfind] at hended ⊢
    cases hfound : p.outgoing? batch with
    | none => exact .refl _
    | some found =>
      rw [hfound] at hended
      dsimp only at hended ⊢
      split_ifs at hended ⊢ with hstate hpanic
      · exact absurd rfl hended
      · rw [setState_of_eq hstate]
        exact .turned hfind (.loaded hfound hstate rfl hpanic) rfl (.inr rfl) rfl
      · exact .refl _

theorem effect_stageBatch (id batch : String)
    (hended : ((stageBatch id batch).run s).1 ≠ .error .panicked) :
    Effect s (.stageBatch id batch) (failureOf ((stageBatch id batch).run s).1)
      ((stageBatch id batch).run s).2 := by
  unfold stageBatch at hended ⊢
  cases hfind : s.table.find? id with
  | none =>
    rw [run_runOutgoing_of_unknown hfind]
    exact .refl _
  | some p =>
    obtain rfl : p.id = id := id_of_find? hfind
    rw [run_runOutgoing hdistinct hfind] at hended ⊢
    cases hfound : p.outgoing? batch with
    | none => exact .refl _
    | some found =>
      rw [hfound] at hended
      dsimp only at hended ⊢
      split_ifs at hended ⊢ with hstate hpanic
      · exact absurd rfl hended
      · rw [setState_of_eq hstate]
        exact .turned hfind (.staged hfound hstate rfl hpanic) rfl (.inr rfl) rfl
      · exact .refl _

theorem effect_downloadBatch (id batch : String)
    (hended : ((downloadBatch id batch).run s).1 ≠ .error .panicked) :
    Effect s (.downloadBatch id batch) (failureOf ((downloadBatch id batch).run s).1)
      ((downloadBatch id batch).run s).2 := by
  cases hfind : s.table.find? id with
  | none =>
    rw [run_downloadBatch_of_unknown hfind]
    exact .refl _
  | some p =>
    obtain rfl : p.id = id := id_of_find? hfind
    rw [run_downloadBatch hdistinct hfind] at hended ⊢
    cases hfound : p.incoming? batch with
    | none => exact .refl _
    | some found =>
      rw [hfound] at hended
      dsimp only at hended ⊢
      split_ifs at hended ⊢ with hstate hpanic
      · exact absurd rfl hended
      · rw [setState_of_eq hstate]
        exact .turned hfind (.downloaded hfound hstate rfl hpanic) rfl (.inr rfl) rfl
      · exact .refl _

theorem effect_sendBatch (id batch : String) :
    Effect s (.sendBatch id batch) (failureOf ((sendBatch id batch).run s).1)
      ((sendBatch id batch).run s).2 := by
  cases hfind : s.table.find? id with
  | none =>
    rw [run_sendBatch_of_unknown hfind]
    exact .refl _
  | some p =>
    obtain rfl : p.id = id := id_of_find? hfind
    rw [run_sendBatch hdistinct hfind]
    cases hfound : p.outgoing? batch with
    | none => exact .refl _
    | some found =>
      dsimp only
      by_cases hstaged : found.state ≠ OutgoingState.staged
      · rw [if_pos hstaged]
        exact .refl _
      rw [if_neg hstaged]
      split
      · exact .refl _
      · next payload hpayload =>
        split_ifs with hstate
        · split
          · next hanswer =>
            exact .turned hfind (.sent hfound (not_not.1 hstaged) hpayload hstate hanswer) rfl
              (.inl rfl) rfl
          · next failure hanswer =>
            rw [setState_of_eq hstate]
            exact .turned hfind (.unsent hfound (not_not.1 hstaged) hpayload hstate hanswer) rfl
              (.inr rfl) rfl
        · exact .refl _

/-! ## Events -/

omit hdistinct in
theorem effect_discover (id name : String) (medium : Medium) :
    Effect s (.handle (.endpointFound id name medium))
      (failureOf ((move (·.discover id name medium)).run s).1)
      ((move (·.discover id name medium)).run s).2 := by
  apply effect_move
  intro table htable
  unfold discover at htable
  split at htable
  · cases htable
  · next hfind =>
    cases htable
    exact .added (e := Endpoint.new id name .discovered medium false) name hfind
      (.inl ⟨medium, rfl, rfl⟩) rfl rfl rfl

omit hdistinct in
theorem effect_remove (id : String) (hparts : action.Parts) :
    Effect s action (failureOf ((moveAndDiscard (·.remove id)).run s).1)
      ((moveAndDiscard (·.remove id)).run s).2 := by
  apply effect_moveAndDiscard
  intro copies table htable
  cases hfind : s.table.find? id with
  | none =>
    rw [remove_of_unknown hfind] at htable
    cases htable
  | some p =>
    obtain rfl : p.id = id := id_of_find? hfind
    rw [remove_of_find? hfind] at htable
    cases htable
    exact .removed hfind rfl (.inl rfl) rfl hparts

theorem effect_connectionInitiated (id name : String) :
    Effect s (.handle (.connectionInitiated id name))
      (failureOf ((move (·.connectionInitiated id name)).run s).1)
      ((move (·.connectionInitiated id name)).run s).2 := by
  apply effect_move
  intro table htable
  cases hfind : s.table.find? id with
  | none =>
    rw [connectionInitiated_of_unknown hfind] at htable
    split_ifs at htable
    cases htable
    exact .added (e := Endpoint.new id name .pending .unknown true) name hfind
      (.inr ⟨rfl, rfl⟩) rfl rfl rfl
  | some p =>
    obtain rfl : p.id = id := id_of_find? hfind
    rw [connectionInitiated_of_find? hdistinct hfind] at htable
    split_ifs at htable with hstate
    cases htable
    exact .turned hfind (.initiated hstate) rfl (.inl rfl) rfl

theorem effect_accept (id : String) :
    Effect s (.handle (.connectionAccepted id)) (failureOf ((move (·.accept id)).run s).1)
      ((move (·.accept id)).run s).2 := by
  apply effect_move
  intro table htable
  cases hfind : s.table.find? id with
  | none =>
    rw [accept_of_unknown hfind] at htable
    cases htable
  | some p =>
    obtain rfl : p.id = id := id_of_find? hfind
    rw [accept_of_find? hdistinct hfind] at htable
    split_ifs at htable with hstate
    cases htable
    exact .turned hfind (.accepted hstate) rfl (.inl rfl) rfl

theorem effect_reject (id : String) :
    Effect s (.handle (.connectionRejected id))
      (failureOf ((moveAndDiscard (·.reject id)).run s).1)
      ((moveAndDiscard (·.reject id)).run s).2 := by
  apply effect_moveAndDiscard
  intro copies table htable
  unfold reject at htable
  cases hfind : s.table.find? id with
  | none =>
    rw [abandonPending_of_unknown hfind] at htable
    cases htable
  | some p =>
    obtain rfl : p.id = id := id_of_find? hfind
    rw [abandonPending_of_find? hdistinct hfind] at htable
    split_ifs at htable with hstate hincoming
    · cases htable
      exact .removed hfind rfl (.inl rfl) rfl trivial
    · cases htable
      exact .turned hfind (.rejected hstate (by simpa using hincoming)) rfl (.inl rfl) rfl

theorem effect_update {id : String} (change : Endpoint → Endpoint)
    (hid : ∀ p, (change p).id = p.id)
    (hturn : ∀ p, p.id = id → Turn s p action none (change p)) :
    Effect s action (failureOf ((move (·.update id change)).run s).1)
      ((move (·.update id change)).run s).2 := by
  apply effect_move
  intro table htable
  cases hfind : s.table.find? id with
  | none =>
    rw [update_of_unknown hfind] at htable
    cases htable
  | some p =>
    obtain rfl : p.id = id := id_of_find? hfind
    rw [update_of_find? hdistinct hfind (hid p)] at htable
    cases htable
    exact .turned hfind (hturn p rfl) rfl (.inl rfl) rfl

theorem effect_finishPayload (id : String) (payload : Int) {status : PayloadStatus}
    (hstatus : status ≠ .inProgress) (total transferred : UInt64) :
    Effect s (.handle (.payloadProgress id payload status total transferred))
      (failureOf ((finishPayload id payload status).run s).1)
      ((finishPayload id payload status).run s).2 := by
  cases hfind : s.table.find? id with
  | none =>
    rw [run_finishPayload_of_unknown hfind]
    exact .refl _
  | some p =>
    obtain rfl : p.id = id := id_of_find? hfind
    cases hpayload : p.payload? payload with
    | none =>
      rw [run_finishPayload hdistinct hfind, hpayload]
      cases hflight : p.inFlight with
      | none => exact .refl _
      | some batch =>
        dsimp only
        rw [run_finishSend hdistinct hfind]
        exact .turned hfind (.ended hpayload hflight hstatus) rfl (.inl rfl) rfl
    | some content =>
      by_cases hsuccess : status = .success
      · subst hsuccess
        rw [run_finishPayload_success hdistinct hfind hpayload]
        dsimp only
        split
        · next failure hbatch =>
          exact .turned hfind (.spoiled hpayload hbatch) rfl (.inr rfl) rfl
        · next batch hbatch =>
          exact .turned hfind (.materialized hpayload hbatch) rfl (.inl rfl) rfl
      · rw [run_finishPayload hdistinct hfind, hpayload]
        dsimp only
        rw [if_neg hsuccess]
        exact .turned hfind (.dropped hpayload hstatus hsuccess) rfl (.inl rfl) rfl

theorem effect_handle (event : Event) :
    Effect s (.handle event) (failureOf ((handle event).run s).1) ((handle event).run s).2 := by
  cases event with
  | endpointFound id name medium => exact effect_discover id name medium
  | endpointLost id => exact effect_remove id (by trivial)
  | distanceChanged id distance => exact .refl _
  | connectionInitiated id name => exact effect_connectionInitiated hdistinct id name
  | connectionAccepted id => exact effect_accept hdistinct id
  | connectionRejected id => exact effect_reject hdistinct id
  | disconnected id => exact effect_remove id (by trivial)
  | bandwidthUpgraded id medium =>
    refine effect_update hdistinct ({ · with medium }) (fun _ => rfl) ?_
    rintro p rfl
    exact .upgraded
  | payloadInitiated id payload content =>
    refine effect_update hdistinct (·.holdPayload payload content) (fun _ => rfl) ?_
    rintro p rfl
    exact .announced
  | payloadProgress id payload status total transferred =>
    unfold handle
    dsimp only
    split_ifs with hstatus
    · exact .refl _
    · exact effect_finishPayload hdistinct id payload hstatus total transferred

/-- Every action does what `Effect` says, and nothing else. -/
theorem Action.effect (action : Action σ) :
    Effect s action (action.failure? s) (action.run s) := by
  cases action with
  | outside world => exact .kept rfl (.inl rfl) rfl
  | notify event => exact .kept rfl (.inl rfl) rfl
  | next =>
    rw [Action.run_next]
    unfold next?
    split
    · exact .refl _
    · exact .kept rfl (.inl rfl) rfl
  | emptyQueue => exact .kept rfl (.inl rfl) rfl
  | subscribe subscriber => exact .kept rfl (.inl rfl) rfl
  | unsubscribe subscriber => exact .kept rfl (.inl rfl) rfl
  | select id => exact effect_select id
  | connect id => exact effect_connect hdistinct id
  | disconnect id => exact effect_disconnect hdistinct id
  | createBatch id sources => exact effect_createBatch hdistinct id sources
  | loadBatch id batch => exact effect_after (effect_loadBatch hdistinct id batch)
  | stageBatch id batch => exact effect_after (effect_stageBatch hdistinct id batch)
  | sendBatch id batch => exact effect_sendBatch hdistinct id batch
  | receiveDescriptor id descriptor => exact effect_receiveDescriptor hdistinct id descriptor
  | downloadBatch id batch => exact effect_after (effect_downloadBatch hdistinct id batch)
  | handle event => exact effect_handle hdistinct event

end Operations

/-! ## Endpoints before and after -/

variable {failure? : Option Failure} {q : Endpoint}

theorem state_recordSend (p : Endpoint) (batch : String) (outcome : Outcome) :
    (recordSend p batch outcome).state = p.state := by
  unfold recordSend
  dsimp only
  split_ifs <;> rfl

theorem isIncoming_recordSend (p : Endpoint) (batch : String) (outcome : Outcome) :
    (recordSend p batch outcome).isIncoming = p.isIncoming := by
  unfold recordSend
  dsimp only
  split_ifs <;> rfl

theorem incoming_recordSend (p : Endpoint) (batch : String) (outcome : Outcome) :
    (recordSend p batch outcome).incoming = p.incoming := by
  unfold recordSend
  dsimp only
  split_ifs <;> rfl

theorem Turn.id_eq (h : Turn s p action failure? q) : q.id = p.id := by
  cases h with
  | ended => exact id_recordSend _ _ _
  | _ => rfl

theorem Turn.isIncoming_eq (h : Turn s p action failure? q) : q.isIncoming = p.isIncoming := by
  cases h with
  | ended => exact isIncoming_recordSend _ _ _
  | _ => rfl

theorem Effect.distinct (h : Effect s action failure? s') (hdistinct : s.table.Distinct) :
    s'.table.Distinct := by
  unfold Distinct
  cases h with
  | kept hendpoints =>
    rw [hendpoints]
    exact hdistinct
  | turned _ _ hendpoints =>
    rw [hendpoints]
    exact hdistinct.focus _ _
  | added _ hfind _ hendpoints =>
    rw [hendpoints]
    exact hdistinct.append hfind
  | removed _ hendpoints =>
    rw [hendpoints]
    exact hdistinct.sublist (filter_sublist.map _)

theorem Effect.settings_eq (h : Effect s action failure? s') : s'.settings = s.settings := by
  cases h <;> assumption

/-- What holds of new endpoints and of what becomes of others holds of all. -/
theorem Effect.forall_endpoints {P : Endpoint → Prop} (h : Effect s action failure? s')
    (hdiscovered : ∀ id name medium, P (.new id name .discovered medium false))
    (hpending : ∀ id name, P (.new id name .pending .unknown true))
    (hturn : ∀ p q, P p → Turn s p action failure? q → P q)
    (hall : ∀ p ∈ s.table.endpoints, P p) : ∀ p ∈ s'.table.endpoints, P p := by
  cases h with
  | kept hendpoints =>
    rw [hendpoints]
    exact hall
  | @turned p q hfind hturned hendpoints =>
    rw [hendpoints]
    intro e he
    obtain ⟨e', he', rfl⟩ := mem_map.1 he
    split_ifs
    · exact hturn p q (hall p (mem_of_find? hfind)) hturned
    · exact hall e' he'
  | @added e name _ hnew hendpoints =>
    rw [hendpoints, forall_mem_append, forall_mem_singleton]
    refine ⟨hall, ?_⟩
    rcases hnew with ⟨medium, -, hnew⟩ | ⟨-, hnew⟩
    · rw [hnew]
      exact hdiscovered _ _ _
    · rw [hnew]
      exact hpending _ _
  | removed _ hendpoints =>
    rw [hendpoints]
    exact fun e he => hall e (mem_of_mem_filter he)

/-- An endpoint that is found before and after is as it was, or as the action has turned it. -/
theorem Effect.eq_or_turn (h : Effect s action failure? s') (hp : s.table.find? id = some p)
    (hq : s'.table.find? id = some q) : q = p ∨ Turn s p action failure? q := by
  cases h with
  | kept hendpoints =>
    rw [find?_congr hendpoints] at hq
    exact .inl (Option.some.inj (hq.symm.trans hp))
  | @turned p' q' hfind hturned hendpoints =>
    rw [find?_congr hendpoints] at hq
    by_cases hid : id = p'.id
    · subst hid
      cases hfind.symm.trans hp
      cases (find?_focus hfind hturned.id_eq []).symm.trans hq
      exact .inr hturned
    · rw [find?_focus_of_ne (hturned.id_eq ▸ hid)] at hq
      exact .inl (Option.some.inj (hq.symm.trans hp))
  | @added e _ _ _ hendpoints =>
    have hadd : s'.table.find? id = (s.table.add e).find? id := find?_congr hendpoints id
    rw [hadd, find?_add_of_some hp] at hq
    exact .inl (Option.some.inj hq).symm
  | @removed p' hfind hendpoints =>
    unfold Table.find? at hq
    rw [hendpoints, find?_filter_ne] at hq
    split_ifs at hq
    exact .inl (Option.some.inj (hq.symm.trans hp))

/-- An endpoint that was not found before is new. -/
theorem Effect.eq_new (h : Effect s action failure? s') (hp : s.table.find? id = none)
    (hq : s'.table.find? id = some q) :
    ∃ name, (∃ medium, action = .handle (.endpointFound id name medium) ∧
        q = .new id name .discovered medium false) ∨
      action = .handle (.connectionInitiated id name) ∧
        q = .new id name .pending .unknown true := by
  cases h with
  | kept hendpoints =>
    rw [find?_congr hendpoints, hp] at hq
    cases hq
  | @turned p' q' hfind hturned hendpoints =>
    rw [find?_congr hendpoints] at hq
    have hid : id ≠ q'.id := by
      rintro rfl
      rw [hturned.id_eq, hfind] at hp
      cases hp
    rw [find?_focus_of_ne hid, hp] at hq
    cases hq
  | @added e name _ hnew hendpoints =>
    have hadd : s'.table.find? id = (s.table.add e).find? id := find?_congr hendpoints id
    rw [hadd, find?_add_of_none hp] at hq
    split_ifs at hq with hid
    cases hq
    subst hid
    exact ⟨name, hnew⟩
  | removed _ hendpoints =>
    unfold Table.find? at hp hq
    rw [hendpoints, find?_filter_ne, hp] at hq
    split_ifs at hq

end Session

end PeerTransfer
