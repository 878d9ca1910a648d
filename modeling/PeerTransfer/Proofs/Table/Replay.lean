import PeerTransfer.Proofs.Table.Operation

/-!
# The table, replayed from what is told

An observer who is told everything from the start on knows the table. A notice only fits in with
what was known of its endpoint before (`Notice.follow`), all notices together lead to what the table
holds, and each tells of a state that may follow the one before.
-/

namespace PeerTransfer

open List

/-- What is known of an endpoint: its state, and the entries of its journal. -/
structure Sighting where
  state : EndpointState
  journal : Journal
  deriving DecidableEq

/-- The endpoints that are known of, under their ids. -/
abbrev Sightings := String → Option Sighting

/-- The state of an endpoint that is still in the table. -/
def EndpointState.present? : EndpointState → Option EndpointState
  | removed => none
  | state => some state

/-- What is known after a notice, if it fits in with what was known. An endpoint that becomes known
has no entries yet. -/
def Notice.follow (known : Sightings) : Notice → Option Sightings
  | stateChanged id previous current =>
    if (known id).map Sighting.state = previous then
      some (Function.update known id
        (current.present?.map (⟨·, ((known id).map Sighting.journal).getD []⟩)))
    else none
  | logged id entry =>
    (known id).map fun sighting =>
      Function.update known id (some { sighting with journal := sighting.journal.append entry })

/-- What is known after all notices, if each fits in. -/
def replay : Sightings → List Notice → Option Sightings
  | known, [] => some known
  | known, notice :: rest => (notice.follow known).bind (replay · rest)

/-- The change of state that a notice tells of an endpoint. -/
def Notice.change? (id : String) : Notice → Option (Option EndpointState × EndpointState)
  | stateChanged other previous current => if other = id then some (previous, current) else none
  | logged _ _ => none

/-- The changes of state that notices tell of an endpoint. -/
def changesOf (id : String) (notices : List Notice) :
    List (Option EndpointState × EndpointState) :=
  notices.filterMap (·.change? id)

/-- Each change begins with the state that the one before has led to. -/
inductive Chained : Option EndpointState → List (Option EndpointState × EndpointState) →
    Option EndpointState → Prop
  | nil {state : Option EndpointState} : Chained state [] state
  | cons {previous last : Option EndpointState} {current : EndpointState}
      {rest : List (Option EndpointState × EndpointState)} :
      Chained current.present? rest last → Chained previous ((previous, current) :: rest) last

/-- A change of state leads to one that may follow. -/
def Notice.Legal : Notice → Prop
  | stateChanged _ previous current => current ∈ EndpointState.successors previous
  | logged _ _ => True

/-- What there is to know of an endpoint. -/
def Endpoint.sighting (p : Endpoint) : Sighting :=
  ⟨p.state, p.journal⟩

/-- What there is to know of endpoints. -/
def sightings (endpoints : List Endpoint) : Sightings :=
  fun id => (endpoints.find? (·.id = id)).map Endpoint.sighting

/-! ## Following notices -/

variable {known known' : Sightings} {id : String}

theorem Notice.follow_stateChanged {previous : Option EndpointState}
    (h : (known id).map Sighting.state = previous) (current : EndpointState) :
    (stateChanged id previous current).follow known =
      some (Function.update known id
        (current.present?.map (⟨·, ((known id).map Sighting.journal).getD []⟩))) :=
  if_pos h

theorem replay_append (known : Sightings) (notices notices' : List Notice) :
    replay known (notices ++ notices') = (replay known notices).bind (replay · notices') := by
  induction notices generalizing known with
  | nil => rfl
  | cons notice rest ih =>
    rw [cons_append, replay, replay, Option.bind_assoc]
    congr 1
    funext next
    exact ih next

theorem replay_singleton (known : Sightings) (notice : Notice) :
    replay known [notice] = notice.follow known := by
  rw [replay]
  exact Option.bind_fun_some _

theorem replay_logged {sighting : Sighting} (h : known id = some sighting)
    (entries : List JournalEntry) :
    replay known (entries.map (.logged id)) =
      some (Function.update known id
        (some { sighting with journal := sighting.journal ++ entries })) := by
  induction entries generalizing known sighting with
  | nil => rw [map_nil, replay, append_nil, ← h, Function.update_eq_self]
  | cons entry entries ih =>
    rw [map_cons, replay, Notice.follow, h, Option.map_some, Option.bind_some,
      ih (Function.update_self id _ known), Function.update_idem, Journal.append, append_assoc]
    rfl

/-- What is known of one endpoint goes through the states that its notices tell of. -/
theorem chained_of_follow {notice : Notice} (h : notice.follow known = some known') (id : String)
    {rest : List Notice} {last : Option EndpointState}
    (hrest : Chained ((known' id).map Sighting.state) (changesOf id rest) last) :
    Chained ((known id).map Sighting.state) (changesOf id (notice :: rest)) last := by
  cases notice with
  | stateChanged other previous current =>
    rw [Notice.follow] at h
    split_ifs at h with hprevious
    cases h
    by_cases hid : other = id
    · subst hid
      rw [Function.update_self, Option.map_map, Function.comp_def, Option.map_id'] at hrest
      have hchange : (Notice.stateChanged other previous current).change? other =
          some (previous, current) := if_pos rfl
      rw [changesOf, filterMap_cons_some hchange]
      rw [hprevious]
      exact .cons hrest
    · rw [Function.update_of_ne (Ne.symm hid)] at hrest
      have hchange : (Notice.stateChanged other previous current).change? id = none := if_neg hid
      rwa [changesOf, filterMap_cons_none hchange]
  | logged other entry =>
    rw [changesOf, filterMap_cons_none rfl]
    obtain ⟨sighting, hsighting, rfl⟩ := Option.map_eq_some_iff.1 h
    by_cases hid : other = id
    · subst hid
      rw [Function.update_self] at hrest
      rw [hsighting]
      exact hrest
    · rwa [Function.update_of_ne (Ne.symm hid)] at hrest

theorem chained_of_replay {notices : List Notice} (h : replay known notices = some known')
    (id : String) :
    Chained ((known id).map Sighting.state) (changesOf id notices)
      ((known' id).map Sighting.state) := by
  induction notices generalizing known with
  | nil =>
    cases h
    exact .nil
  | cons notice rest ih =>
    obtain ⟨next, hnext, hrest⟩ := Option.bind_eq_some_iff.1 h
    exact chained_of_follow hnext id (ih hrest)

namespace Table

variable {table table' : Table} {p q : Endpoint}

/-! ## What there is to know of a table -/

theorem sightings_of_find? (h : table.find? id = some p) :
    sightings table.endpoints id = some p.sighting :=
  congrArg (Option.map Endpoint.sighting) h

theorem sightings_focus (h : table.find? p.id = some p) (hid : q.id = p.id)
    (notices : List Notice) :
    sightings (table.focus q notices).endpoints =
      Function.update (sightings table.endpoints) p.id (some q.sighting) := by
  funext id
  by_cases hne : id = p.id
  · subst hne
    rw [Function.update_self]
    exact sightings_of_find? (find?_focus h hid notices)
  · rw [Function.update_of_ne hne]
    exact congrArg (Option.map Endpoint.sighting) (find?_focus_of_ne (hid ▸ hne) notices)

theorem sightings_append {e : Endpoint} (h : table.find? e.id = none) :
    sightings (table.endpoints ++ [e]) =
      Function.update (sightings table.endpoints) e.id (some e.sighting) := by
  funext id
  by_cases hid : id = e.id
  · subst hid
    rw [Function.update_self]
    have hfind := find?_add_of_none h e
    rw [if_pos rfl] at hfind
    exact congrArg (Option.map Endpoint.sighting) hfind
  · rw [Function.update_of_ne hid]
    cases hother : table.find? id with
    | none =>
      have hfind := find?_add_of_none hother e
      rw [if_neg (Ne.symm hid), ← hother] at hfind
      exact congrArg (Option.map Endpoint.sighting) hfind
    | some p =>
      have hfind := find?_add_of_some hother e
      rw [← hother] at hfind
      exact congrArg (Option.map Endpoint.sighting) hfind

theorem sightings_filter (endpoints : List Endpoint) (id : String) :
    sightings (endpoints.filter (·.id ≠ id)) =
      Function.update (sightings endpoints) id none := by
  funext other
  unfold sightings
  rw [find?_filter_ne]
  by_cases hid : other = id
  · subst hid
    rw [if_pos rfl, Function.update_self]
    rfl
  · rw [if_neg hid, Function.update_of_ne hid]

/-- The notices of a change lead from what there was to know to what there is to know. -/
theorem Change.replay_eq {notices : List Notice} {endpoints : List Endpoint}
    (h : Change table notices endpoints) :
    replay (sightings table.endpoints) notices = some (sightings endpoints) := by
  cases h with
  | kept => rfl
  | @added e hfind hstate hjournal =>
    have hnone : sightings table.endpoints e.id = none :=
      congrArg (Option.map Endpoint.sighting) hfind
    have hpresent : e.state.present? = some e.state := by
      rcases (by simpa [EndpointState.successors] using hstate :
        e.state = .discovered ∨ e.state = .pending) with hs | hs <;> rw [hs] <;> rfl
    rw [replay_singleton, sightings_append hfind, Notice.follow_stateChanged (by rw [hnone]; rfl),
      hnone, hpresent, Endpoint.sighting, hjournal]
    rfl
  | @moved p next hfind _ hnext =>
    have hpresent : next.present? = some next := by
      cases next <;> first | rfl | exact absurd rfl hnext
    rw [sightings_focus hfind (by rfl)]
    unfold changeOf
    -- A move to the same state is not told of, and there is nothing new to know.
    split_ifs with hsame
    · rw [replay, ← hsame, Function.update_eq_self_iff.2 (sightings_of_find? hfind).symm]
    · rw [replay_singleton, Notice.follow_stateChanged (by rw [sightings_of_find? hfind]; rfl),
        sightings_of_find? hfind, hpresent]
      rfl
  | @logged p entries hfind =>
    rw [sightings_focus hfind (by rfl), replay_logged (sightings_of_find? hfind)]
    rfl
  | @noted p q hfind hid hstate hjournal =>
    have hsame : q.sighting = p.sighting := by
      rw [Endpoint.sighting, hstate, hjournal]
      rfl
    rw [replay, sightings_focus hfind hid, hsame,
      Function.update_eq_self_iff.2 (sightings_of_find? hfind).symm]
  | @removed p hfind =>
    rw [replay_singleton, sightings_filter,
      Notice.follow_stateChanged (by rw [sightings_of_find? hfind]; rfl)]
    rfl

theorem Change.legal {notices : List Notice} {endpoints : List Endpoint}
    (h : Change table notices endpoints) : ∀ notice ∈ notices, notice.Legal := by
  cases h with
  | kept => simp
  | added _ hstate _ => simpa [Notice.Legal] using hstate
  | @moved p next _ hallowed _ =>
    unfold changeOf
    split_ifs with hsame
    · simp
    · simpa [Notice.Legal, Ne.symm hsame] using hallowed
  | logged entries _ => simp [Notice.Legal]
  | noted => simp
  | @removed p _ =>
    simp only [mem_singleton, forall_eq, Notice.Legal]
    cases p.state <;> decide

/-! ## What an observer is told -/

/-- The notices that went to an inbox. -/
def heard (table : Table) (inbox : String) : List Notice :=
  (table.told.filter (·.1 = inbox)).map Prod.snd

/-- The observer stays subscribed, and nobody else is told in his inbox. -/
def Operation.Keeps (observer : Subscriber) : Operation → Prop
  | .subscribe subscriber =>
    subscriber = observer ∨ subscriber.id ≠ observer.id ∧ subscriber.inbox ≠ observer.inbox
  | .unsubscribe subscriber => subscriber ≠ observer.id
  | _ => True

/-- The table after operations, those that are refused among them. -/
def runAll (operations : List Operation) (table : Table) : Table :=
  operations.foldl (fun table operation => operation.run table) table

/-- What an observer has been told, and nobody else in his inbox, leads to what the table holds. -/
structure Followed (observer : Subscriber) (table : Table) : Prop where
  distinct : table.Distinct
  alone : table.subscribers.filter (·.inbox = observer.inbox) = [observer]
  replays : replay (fun _ => none) (table.heard observer.inbox) = some (sightings table.endpoints)
  legal : ∀ notice ∈ table.heard observer.inbox, notice.Legal

variable {observer : Subscriber}

theorem heard_flatMap {subscribers : List Subscriber}
    (halone : subscribers.filter (·.inbox = observer.inbox) = [observer]) (notices : List Notice) :
    ((notices.flatMap fun notice => subscribers.map fun subscriber =>
      (subscriber.inbox, notice)).filter (·.1 = observer.inbox)).map Prod.snd = notices := by
  induction notices with
  | nil => rfl
  | cons notice rest ih =>
    have hown : (subscribers.map fun subscriber => (subscriber.inbox, notice)).filter
        (·.1 = observer.inbox) = [(observer.inbox, notice)] := by
      rw [filter_map]
      exact congrArg (map fun subscriber => (subscriber.inbox, notice)) halone
    rw [flatMap_cons, filter_append, map_append, hown, ih]
    rfl

theorem Followed.of_tells {notices : List Notice} (h : Followed observer table)
    (htells : Tells table notices table') : Followed observer table' := by
  have hheard : table'.heard observer.inbox = table.heard observer.inbox ++ notices := by
    unfold heard
    rw [htells.told_eq, filter_append, map_append, heard_flatMap h.alone]
  refine ⟨htells.change.distinct h.distinct, ?_, ?_, ?_⟩
  · rw [htells.subscribers_eq]
    exact h.alone
  · rw [hheard, replay_append, h.replays, Option.bind_some]
    exact htells.change.replay_eq
  · rw [hheard]
    exact forall_mem_append.2 ⟨h.legal, htells.change.legal⟩

theorem filter_unsubscribe (h : Followed observer table) (id : String) :
    (table.subscribers.filter (·.id ≠ id)).filter (·.inbox = observer.inbox) =
      [observer].filter (·.id ≠ id) := by
  rw [← h.alone, filter_filter, filter_filter]
  exact filter_congr fun _ _ => Bool.and_comm _ _

theorem Followed.subscribe (h : Followed observer table) {subscriber : Subscriber}
    (hkeeps : (Operation.subscribe subscriber).Keeps observer) :
    Followed observer (table.subscribe subscriber) := by
  refine ⟨h.distinct, ?_, h.replays, h.legal⟩
  unfold Table.subscribe
  dsimp only
  rw [filter_append, filter_unsubscribe h]
  rcases hkeeps with rfl | ⟨hid, hinbox⟩
  · simp
  · simp [Ne.symm hid, hinbox]

theorem Followed.unsubscribe (h : Followed observer table) {id : String}
    (hid : id ≠ observer.id) : Followed observer (table.unsubscribe id) := by
  refine ⟨h.distinct, ?_, h.replays, h.legal⟩
  unfold Table.unsubscribe
  dsimp only
  rw [filter_unsubscribe h]
  simp [Ne.symm hid]

theorem Followed.run (h : Followed observer table) {operation : Operation}
    (hkeeps : operation.Keeps observer) : Followed observer (operation.run table) := by
  unfold Operation.run
  split
  · next table' hstep =>
    cases operation with
    | subscribe subscriber =>
      cases hstep
      exact h.subscribe hkeeps
    | unsubscribe id =>
      cases hstep
      exact h.unsubscribe hkeeps
    | _ =>
      obtain ⟨notices, htells⟩ := exists_tells h.distinct (by simp) (by simp) hstep
      exact h.of_tells htells
  · exact h

theorem followed_runAll {operations : List Operation}
    (h : ∀ operation ∈ operations, operation.Keeps observer) :
    Followed observer (runAll operations (empty.subscribe observer)) := by
  have hstart : Followed observer (empty.subscribe observer) :=
    ⟨nodup_nil, by simp [empty, Table.subscribe], rfl, by simp [heard, empty, Table.subscribe]⟩
  exact foldlRecOn operations _ hstart fun _ hfollowed _ hmem => hfollowed.run (h _ hmem)

/-- Whatever is asked of a table, what an observer is told from the start on leads from nothing to
what there is to know of the table. The changes of state he is told of an endpoint begin with one
that was not known, each takes up where the one before has ended, and the last ends where the
endpoint is; none of them is one that may not be. -/
theorem replay_heard_runAll {operations : List Operation}
    (h : ∀ operation ∈ operations, operation.Keeps observer) :
    let table := runAll operations (empty.subscribe observer)
    let heard := table.heard observer.inbox
    replay (fun _ => none) heard = some (sightings table.endpoints) ∧
      (∀ id, Chained none (changesOf id heard) ((table.find? id).map Endpoint.state)) ∧
      ∀ id previous current, Notice.stateChanged id previous current ∈ heard →
        current ∈ EndpointState.successors previous := by
  intro table heard
  have hfollowed : Followed observer table := followed_runAll h
  refine ⟨hfollowed.replays, ?_, ?_⟩
  · intro id
    have hchained := chained_of_replay hfollowed.replays id
    rw [sightings, Option.map_map] at hchained
    exact hchained
  · intro id previous current hmem
    exact hfollowed.legal _ hmem

/-- A peer is connected to, sent to and forgotten, and then calls by itself. What is refused in
between is not told of. -/
theorem replay_heard_runAll_known_anew :
    let observer : Subscriber := ⟨"observer", "inbox"⟩
    let entry : JournalEntry := ⟨.send, Uuid.zero, "a.txt", .success, 3, 0⟩
    let operations : List Operation := [.discover "e" "peer" .ble, .requestConnection "e",
      .subscribe ⟨"other", "elsewhere"⟩, .requestConnection "e", .accept "e",
      .beginTransfer "e" .send, .appendLog "e" [entry], .unsubscribe "other", .remove "e",
      .accept "e", .connectionInitiated "e" "peer", .connectionInitiated "e" "peer"]
    let table := runAll operations (empty.subscribe observer)
    let heard := table.heard observer.inbox
    (∀ operation ∈ operations, operation.Keeps observer) ∧
      heard = [.stateChanged "e" none .discovered, .stateChanged "e" (some .discovered) .pending,
        .stateChanged "e" (some .pending) .connected,
        .stateChanged "e" (some .connected) .sending, .logged "e" entry,
        .stateChanged "e" (some .sending) .removed, .stateChanged "e" none .pending] ∧
      replay (fun _ => none) heard = some (sightings table.endpoints) ∧
      Chained none (changesOf "e" heard) (some .pending) := by
  intro observer entry operations table heard
  have hkeeps : ∀ operation ∈ operations, operation.Keeps observer := by
    simp [operations, observer, Operation.Keeps]
  have hheard : heard = [.stateChanged "e" none .discovered,
      .stateChanged "e" (some .discovered) .pending,
      .stateChanged "e" (some .pending) .connected,
      .stateChanged "e" (some .connected) .sending, .logged "e" entry,
      .stateChanged "e" (some .sending) .removed, .stateChanged "e" none .pending] := by
    decide +kernel
  have hstate : (table.find? "e").map Endpoint.state = some .pending := by decide +kernel
  obtain ⟨hreplay, hchained, -⟩ := replay_heard_runAll hkeeps
  have hchain := hchained "e"
  rw [hstate] at hchain
  exact ⟨hkeeps, hheard, hreplay, hchain⟩

end Table

end PeerTransfer
