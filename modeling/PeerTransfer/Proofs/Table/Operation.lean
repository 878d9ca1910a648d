import PeerTransfer.Proofs.Table.Steps

/-!
# Operations on a table

`Operation` lists what can be asked of a table, and `Operation.run` says what table it leads to,
whether it is taken or refused. `Taken` lists all that an operation does when it is taken, with the
state in which it is (`taken_of_step`). So it changes at most one endpoint, and tells of it what
`Change` says (`exists_tells`).
-/

namespace PeerTransfer

open List

/-- The states that an endpoint can be told to have come to, from the state it was in, or from none
if it was not known. -/
def EndpointState.successors : Option EndpointState → List EndpointState
  | none => [discovered, pending]
  | some discovered => [pending, removed]
  | some pending => [connected, discovered, disconnecting, removed]
  | some connected => [sending, receiving, disconnecting, removed]
  | some sending => [connected, removed]
  | some receiving => [connected, removed]
  | some disconnecting => [connected, pending, removed]
  | some removed => [removed]

namespace Table

/-- What can be asked of a table. -/
inductive Operation where
  | subscribe (subscriber : Subscriber)
  | unsubscribe (subscriber : String)
  | discover (id name : String) (medium : Medium)
  | requestConnection (id : String)
  | connectionInitiated (id name : String)
  | accept (id : String)
  | reject (id : String)
  | connectionFailed (id : String)
  | beginTransfer (id : String) (direction : Direction)
  | finishTransfer (id : String)
  | beginDisconnect (id : String)
  | abortDisconnect (id : String) (previous : EndpointState)
  | remove (id : String)
  | upgradeMedium (id : String) (medium : Medium)
  | setToken (id token : String)
  | appendLog (id : String) (entries : List JournalEntry)
  | select (id : String)

/-- The table that an operation leads to, unless it is refused. -/
def Operation.step (table : Table) : Operation → Except Failure Table
  | subscribe subscriber => .ok (table.subscribe subscriber)
  | unsubscribe subscriber => .ok (table.unsubscribe subscriber)
  | discover id name medium => table.discover id name medium
  | requestConnection id => table.requestConnection id
  | connectionInitiated id name => table.connectionInitiated id name
  | accept id => table.accept id
  | reject id => (table.reject id).map Prod.snd
  | connectionFailed id => (table.connectionFailed id).map Prod.snd
  | beginTransfer id direction => table.beginTransfer id direction
  | finishTransfer id => table.finishTransfer id
  | beginDisconnect id => (table.beginDisconnect id).map Prod.snd
  | abortDisconnect id previous => table.abortDisconnect id previous
  | remove id => (table.remove id).map Prod.snd
  | upgradeMedium id medium => table.upgradeMedium id medium
  | setToken id token => table.setToken id token
  | appendLog id entries => table.appendLog id entries
  | select id => table.select id

/-- The table after an operation, which a refused operation leaves as it is. -/
def Operation.run (operation : Operation) (table : Table) : Table :=
  match operation.step table with
  | .ok table' => table'
  | .error _ => table

/-- What an operation that is taken does to the table. -/
inductive Taken (table : Table) : Operation → Table → Prop
  | subscribed {subscriber : Subscriber} :
      Taken table (.subscribe subscriber) (table.subscribe subscriber)
  | unsubscribed {id : String} : Taken table (.unsubscribe id) (table.unsubscribe id)
  | found {id name : String} {medium : Medium} : table.find? id = none →
      Taken table (.discover id name medium) (table.add (.new id name .discovered medium false))
  | called {id name : String} : table.find? id = none →
      Taken table (.connectionInitiated id name)
        { table.add (.new id name .pending .unknown true) with selected := some id }
  | requested {p : Endpoint} : table.find? p.id = some p → p.state = .discovered →
      Taken table (.requestConnection p.id)
        (table.focus { p with state := .pending } (changeOf p .pending))
  | initiated {p : Endpoint} {name : String} : table.find? p.id = some p →
      p.state = .discovered ∨ p.state = .pending →
      Taken table (.connectionInitiated p.id name)
        { table.focus { p with state := .pending } (changeOf p .pending) with
          selected := some p.id }
  | accepted {p : Endpoint} : table.find? p.id = some p → p.state = .pending →
      Taken table (.accept p.id)
        (table.focus { p with state := .connected } (changeOf p .connected))
  | rejected {p : Endpoint} : table.find? p.id = some p → p.state = .pending →
      p.isIncoming = false → Taken table (.reject p.id)
        (table.focus { p with state := .discovered } (changeOf p .discovered))
  | dismissed {p : Endpoint} : table.find? p.id = some p → p.state = .pending →
      p.isIncoming → Taken table (.reject p.id) (table.without p)
  | failed {p : Endpoint} : table.find? p.id = some p → p.state = .pending →
      p.isIncoming = false → Taken table (.connectionFailed p.id)
        (table.focus { p with state := .discovered } (changeOf p .discovered))
  | lost {p : Endpoint} : table.find? p.id = some p → p.state = .pending →
      p.isIncoming → Taken table (.connectionFailed p.id) (table.without p)
  | begun {p : Endpoint} {direction : Direction} : table.find? p.id = some p →
      p.state = .connected → Taken table (.beginTransfer p.id direction)
        (table.focus { p with state := stateDuring direction }
          (changeOf p (stateDuring direction)))
  | finished {p : Endpoint} : table.find? p.id = some p →
      p.state = .sending ∨ p.state = .receiving → Taken table (.finishTransfer p.id)
        (table.focus { p with state := .connected } (changeOf p .connected))
  | leaving {p : Endpoint} : table.find? p.id = some p →
      p.state = .connected ∨ p.state = .pending → Taken table (.beginDisconnect p.id)
        (table.focus { p with state := .disconnecting } (changeOf p .disconnecting))
  | back {p : Endpoint} {previous : EndpointState} : table.find? p.id = some p →
      p.state = .disconnecting → previous = .connected ∨ previous = .pending →
      Taken table (.abortDisconnect p.id previous)
        (table.focus { p with state := previous } (changeOf p previous))
  | removed {p : Endpoint} : table.find? p.id = some p →
      Taken table (.remove p.id) (table.without p)
  | upgraded {p : Endpoint} {medium : Medium} : table.find? p.id = some p →
      Taken table (.upgradeMedium p.id medium) (table.focus { p with medium } [])
  | named {p : Endpoint} {token : String} : table.find? p.id = some p →
      Taken table (.setToken p.id token) (table.focus { p with token := some token } [])
  | logged {p : Endpoint} {entries : List JournalEntry} : table.find? p.id = some p →
      Taken table (.appendLog p.id entries)
        (table.focus (p.log entries) (entries.map (.logged p.id)))
  | selected {p : Endpoint} : table.find? p.id = some p →
      Taken table (.select p.id) { table with selected := some p.id }

/-- What becomes of the endpoints of a table, with the notices that go with it. -/
inductive Change (table : Table) : List Notice → List Endpoint → Prop
  | kept : Change table [] table.endpoints
  | added {e : Endpoint} : table.find? e.id = none → e.state ∈ EndpointState.successors none →
      e.journal = [] → Change table [.stateChanged e.id none e.state] (table.endpoints ++ [e])
  | moved {p : Endpoint} {next : EndpointState} : table.find? p.id = some p →
      next = p.state ∨ next ∈ EndpointState.successors (some p.state) → next ≠ .removed →
      Change table (changeOf p next) (table.focus { p with state := next } []).endpoints
  | logged {p : Endpoint} (entries : List JournalEntry) : table.find? p.id = some p →
      Change table (entries.map (.logged p.id)) (table.focus (p.log entries) []).endpoints
  | noted {p q : Endpoint} : table.find? p.id = some p → q.id = p.id → q.state = p.state →
      q.journal = p.journal → Change table [] (table.focus q []).endpoints
  | removed {p : Endpoint} : table.find? p.id = some p →
      Change table [.stateChanged p.id (some p.state) .removed]
        (table.endpoints.filter (·.id ≠ p.id))

/-- The second table is the first once its endpoints have changed and the subscribers have been
told. -/
structure Tells (table : Table) (notices : List Notice) (table' : Table) : Prop where
  change : Change table notices table'.endpoints
  told_eq : table'.told = table.told ++ notices.flatMap fun notice =>
    table.subscribers.map fun subscriber => (subscriber.inbox, notice)
  subscribers_eq : table'.subscribers = table.subscribers

variable {table table' : Table} {id : String} {p : Endpoint}

/-! ## What the operations do -/

theorem exists_of_transition (hdistinct : table.Distinct) {allowed : List EndpointState}
    {next : EndpointState} {operation : EndpointOperation}
    (h : (table.transition id allowed next operation).map Prod.snd = .ok table') :
    ∃ p, table.find? p.id = some p ∧ p.id = id ∧ p.state ∈ allowed ∧
      table' = table.focus { p with state := next } (changeOf p next) := by
  cases hfind : table.find? id with
  | none =>
    rw [transition_of_unknown hfind] at h
    cases h
  | some p =>
    obtain rfl : p.id = id := id_of_find? hfind
    by_cases hstate : p.state ∈ allowed
    · rw [transition_of_mem hdistinct hfind hstate] at h
      cases h
      exact ⟨p, hfind, rfl, hstate, rfl⟩
    · rw [transition_of_not_mem hfind hstate] at h
      cases h

theorem exists_of_abandonPending (hdistinct : table.Distinct) {operation : EndpointOperation}
    (h : (table.abandonPending id operation).map Prod.snd = .ok table') :
    ∃ p, table.find? p.id = some p ∧ p.id = id ∧ p.state = .pending ∧
      (p.isIncoming ∧ table' = table.without p ∨ p.isIncoming = false ∧
        table' = table.focus { p with state := .discovered } (changeOf p .discovered)) := by
  cases hfind : table.find? id with
  | none =>
    rw [abandonPending_of_unknown hfind] at h
    cases h
  | some p =>
    obtain rfl : p.id = id := id_of_find? hfind
    rw [abandonPending_of_find? hdistinct hfind] at h
    split_ifs at h with hstate hincoming
    · cases h
      exact ⟨p, hfind, rfl, hstate, .inl ⟨hincoming, rfl⟩⟩
    · cases h
      exact ⟨p, hfind, rfl, hstate, .inr ⟨Bool.eq_false_iff.2 hincoming, rfl⟩⟩
    · cases h

theorem exists_of_update (hdistinct : table.Distinct) (change : Endpoint → Endpoint)
    (hid : ∀ p, (change p).id = p.id) (h : table.update id change = .ok table') :
    ∃ p, table.find? p.id = some p ∧ p.id = id ∧ table' = table.focus (change p) [] := by
  cases hfind : table.find? id with
  | none =>
    rw [update_of_unknown hfind] at h
    cases h
  | some p =>
    obtain rfl : p.id = id := id_of_find? hfind
    rw [update_of_find? hdistinct hfind (hid p)] at h
    cases h
    exact ⟨p, hfind, rfl, rfl⟩

theorem exists_of_get {p : Endpoint} (h : table.get id = .ok p) :
    table.find? p.id = some p ∧ p.id = id := by
  cases hfind : table.find? id with
  | none =>
    rw [get_of_find?_eq_none hfind] at h
    cases h
  | some q =>
    rw [get_of_find? hfind] at h
    cases h
    obtain rfl : p.id = id := id_of_find? hfind
    exact ⟨hfind, rfl⟩

theorem taken_discover {name : String} {medium : Medium}
    (h : table.discover id name medium = .ok table') :
    Taken table (.discover id name medium) table' := by
  unfold discover at h
  split at h
  · cases h
  · next hfind =>
    cases h
    exact .found hfind

theorem taken_connectionInitiated (hdistinct : table.Distinct) {name : String}
    (h : table.connectionInitiated id name = .ok table') :
    Taken table (.connectionInitiated id name) table' := by
  cases hfind : table.find? id with
  | none =>
    rw [connectionInitiated_of_unknown hfind] at h
    split_ifs at h
    cases h
    exact .called hfind
  | some p =>
    obtain rfl : p.id = id := id_of_find? hfind
    rw [connectionInitiated_of_find? hdistinct hfind] at h
    split_ifs at h with hstate
    cases h
    exact .initiated hfind hstate

theorem taken_abortDisconnect (hdistinct : table.Distinct) {previous : EndpointState}
    (h : table.abortDisconnect id previous = .ok table') :
    Taken table (.abortDisconnect id previous) table' := by
  unfold abortDisconnect at h
  by_cases hprevious : previous ∈ [EndpointState.connected, .pending]
  · rw [if_neg (not_not_intro hprevious)] at h
    obtain ⟨p, hfind, rfl, hstate, rfl⟩ := exists_of_transition hdistinct h
    exact .back hfind (by simpa using hstate) (by simpa using hprevious)
  · rw [if_pos hprevious] at h
    cases h

theorem taken_remove (h : (table.remove id).map Prod.snd = .ok table') :
    Taken table (.remove id) table' := by
  cases hfind : table.find? id with
  | none =>
    rw [remove_of_unknown hfind] at h
    cases h
  | some p =>
    obtain rfl : p.id = id := id_of_find? hfind
    rw [remove_of_find? hfind] at h
    cases h
    exact .removed hfind

theorem taken_appendLog (hdistinct : table.Distinct) {entries : List JournalEntry}
    (h : table.appendLog id entries = .ok table') :
    Taken table (.appendLog id entries) table' := by
  cases hget : table.get id with
  | error failure =>
    unfold appendLog at h
    rw [hget] at h
    cases h
  | ok p =>
    obtain ⟨hfind, rfl⟩ := exists_of_get hget
    rw [appendLog_of_find? hdistinct hfind] at h
    cases h
    exact .logged hfind

theorem taken_select (h : table.select id = .ok table') : Taken table (.select id) table' := by
  unfold select at h
  cases hget : table.get id with
  | error failure =>
    rw [hget] at h
    cases h
  | ok p =>
    obtain ⟨hfind, rfl⟩ := exists_of_get hget
    rw [hget] at h
    cases h
    exact .selected hfind

/-- All that an operation can do when it is taken. -/
theorem taken_of_step (hdistinct : table.Distinct) {operation : Operation}
    (h : operation.step table = .ok table') : Taken table operation table' := by
  cases operation with
  | subscribe subscriber =>
    cases h
    exact .subscribed
  | unsubscribe id =>
    cases h
    exact .unsubscribed
  | discover id name medium => exact taken_discover h
  | requestConnection id =>
    obtain ⟨p, hfind, rfl, hstate, rfl⟩ := exists_of_transition hdistinct h
    exact .requested hfind (by simpa using hstate)
  | connectionInitiated id name => exact taken_connectionInitiated hdistinct h
  | accept id =>
    obtain ⟨p, hfind, rfl, hstate, rfl⟩ := exists_of_transition hdistinct h
    exact .accepted hfind (by simpa using hstate)
  | reject id =>
    obtain ⟨p, hfind, rfl, hstate, ⟨hincoming, rfl⟩ | ⟨hown, rfl⟩⟩ :=
      exists_of_abandonPending hdistinct h
    · exact .dismissed hfind hstate hincoming
    · exact .rejected hfind hstate hown
  | connectionFailed id =>
    obtain ⟨p, hfind, rfl, hstate, ⟨hincoming, rfl⟩ | ⟨hown, rfl⟩⟩ :=
      exists_of_abandonPending hdistinct h
    · exact .lost hfind hstate hincoming
    · exact .failed hfind hstate hown
  | beginTransfer id direction =>
    obtain ⟨p, hfind, rfl, hstate, rfl⟩ := exists_of_transition hdistinct h
    exact .begun hfind (by simpa using hstate)
  | finishTransfer id =>
    obtain ⟨p, hfind, rfl, hstate, rfl⟩ := exists_of_transition hdistinct h
    exact .finished hfind (by simpa using hstate)
  | beginDisconnect id =>
    obtain ⟨p, hfind, rfl, hstate, rfl⟩ := exists_of_transition hdistinct h
    exact .leaving hfind (by simpa using hstate)
  | abortDisconnect id previous => exact taken_abortDisconnect hdistinct h
  | remove id => exact taken_remove h
  | upgradeMedium id medium =>
    obtain ⟨p, hfind, rfl, rfl⟩ :=
      exists_of_update hdistinct ({ · with medium }) (fun _ => rfl) h
    exact .upgraded hfind
  | setToken id token =>
    obtain ⟨p, hfind, rfl, rfl⟩ :=
      exists_of_update hdistinct ({ · with token := some token }) (fun _ => rfl) h
    exact .named hfind
  | appendLog id entries => exact taken_appendLog hdistinct h
  | select id => exact taken_select h

/-- What holds of a table that is left as it is, and after all that an operation can do. -/
theorem run_cases {P : Table → Prop} (hdistinct : table.Distinct) (operation : Operation)
    (hrefused : P table) (htaken : ∀ table', Taken table operation table' → P table') :
    P (operation.run table) := by
  unfold Operation.run
  split
  · next h => exact htaken _ (taken_of_step hdistinct h)
  · exact hrefused

/-! ## What the operations tell -/

theorem tells_add {e : Endpoint} (hfind : table.find? e.id = none)
    (hstate : e.state ∈ EndpointState.successors none) (hjournal : e.journal = []) :
    Tells table [.stateChanged e.id none e.state] (table.add e) :=
  ⟨.added hfind hstate hjournal, by rw [flatMap_singleton]; rfl, rfl⟩

theorem tells_move (hfind : table.find? p.id = some p) {next : EndpointState}
    (hmove : next = p.state ∨ next ∈ EndpointState.successors (some p.state))
    (hnext : next ≠ .removed) :
    Tells table (changeOf p next) (table.focus { p with state := next } (changeOf p next)) :=
  ⟨.moved hfind hmove hnext, rfl, rfl⟩

theorem tells_without (hfind : table.find? p.id = some p) :
    Tells table [.stateChanged p.id (some p.state) .removed] (table.without p) :=
  ⟨.removed hfind, by rw [flatMap_singleton]; rfl, rfl⟩

theorem Tells.select {notices : List Notice} (h : Tells table notices table')
    (selected : Option String) : Tells table notices { table' with selected } :=
  ⟨h.change, h.told_eq, h.subscribers_eq⟩

theorem tells_note (hfind : table.find? p.id = some p) {q : Endpoint} (hid : q.id = p.id)
    (hstate : q.state = p.state) (hjournal : q.journal = p.journal) :
    Tells table [] (table.focus q []) :=
  ⟨.noted hfind hid hstate hjournal, rfl, rfl⟩

/-- Whatever is asked of a table, other than to tell other subscribers, what it does to the
endpoints goes with what it tells. -/
theorem exists_tells (hdistinct : table.Distinct) {operation : Operation}
    (hsubscribe : ∀ subscriber, operation ≠ .subscribe subscriber)
    (hunsubscribe : ∀ subscriber, operation ≠ .unsubscribe subscriber)
    (h : operation.step table = .ok table') : ∃ notices, Tells table notices table' := by
  cases taken_of_step hdistinct h with
  | subscribed => exact absurd rfl (hsubscribe _)
  | unsubscribed => exact absurd rfl (hunsubscribe _)
  | found hfind => exact ⟨_, tells_add hfind (by simp [EndpointState.successors, Endpoint.new]) rfl⟩
  | called hfind =>
    refine ⟨_, (tells_add (e := .new _ _ .pending .unknown true) hfind ?_ rfl).select _⟩
    simp [EndpointState.successors, Endpoint.new]
  | requested hfind hstate | accepted hfind hstate | rejected hfind hstate
  | failed hfind hstate =>
    exact ⟨_, tells_move hfind (by rw [hstate]; decide) (by decide)⟩
  | initiated hfind hstate =>
    refine ⟨_, (tells_move hfind ?_ (by decide)).select _⟩
    rcases hstate with hstate | hstate <;> rw [hstate] <;> decide
  | @begun p direction hfind hstate =>
    exact ⟨_, tells_move hfind (by rw [hstate]; cases direction <;> decide)
      (by cases direction <;> decide)⟩
  | finished hfind hstate | leaving hfind hstate =>
    refine ⟨_, tells_move hfind ?_ (by decide)⟩
    rcases hstate with hstate | hstate <;> rw [hstate] <;> decide
  | back hfind hstate hprevious =>
    refine ⟨_, tells_move hfind ?_ ?_⟩
    · rw [hstate]
      rcases hprevious with rfl | rfl <;> decide
    · rcases hprevious with rfl | rfl <;> decide
  | dismissed hfind | lost hfind | removed hfind => exact ⟨_, tells_without hfind⟩
  | upgraded hfind | named hfind => exact ⟨_, tells_note hfind (by rfl) rfl rfl⟩
  | logged hfind => exact ⟨_, .logged _ hfind, rfl, rfl⟩
  | selected => exact ⟨[], .kept, (append_nil _).symm, rfl⟩

/-! ## Ids still tell the endpoints apart -/

theorem Change.distinct {notices : List Notice} {endpoints : List Endpoint}
    (h : Change table notices endpoints) (hdistinct : table.Distinct) :
    (endpoints.map Endpoint.id).Nodup := by
  cases h with
  | kept => exact hdistinct
  | added hfind => exact hdistinct.append hfind
  | moved => exact hdistinct.focus _ []
  | logged => exact hdistinct.focus _ []
  | noted => exact hdistinct.focus _ []
  | removed => exact hdistinct.sublist (filter_sublist.map _)

theorem Distinct.run (hdistinct : table.Distinct) (operation : Operation) :
    (operation.run table).Distinct := by
  unfold Operation.run
  split
  · next table' h =>
    cases operation with
    | subscribe subscriber =>
      cases h
      exact hdistinct
    | unsubscribe subscriber =>
      cases h
      exact hdistinct
    | _ =>
      obtain ⟨notices, htells⟩ := exists_tells hdistinct (by simp) (by simp) h
      exact htells.change.distinct hdistinct
  · exact hdistinct

end Table

end PeerTransfer
