import PeerTransfer.Proofs.History
import PeerTransfer.Proofs.Table.Replay

/-!
# Connected endpoints and the handshake

A handshake that succeeds leads an endpoint from pending to connected. Only one other step leads to
connected an endpoint that was not: a disconnection that is given up for that state. What can lead
to a state is said once (`Enters`). An endpoint is connected without a handshake since it became
known just if a disconnection was given up for connected that had been begun while the handshake
was pending (`connected_accepted_iff`).
-/

namespace PeerTransfer.Table

open List

/-- What can lead an endpoint to a state. -/
inductive Enters (table : Table) (id : String) : Operation → EndpointState → Prop
  | found {name : String} {medium : Medium} : table.find? id = none →
      Enters table id (.discover id name medium) .discovered
  | called {name : String} : table.find? id = none →
      Enters table id (.connectionInitiated id name) .pending
  | requested {p : Endpoint} : table.find? id = some p → p.state = .discovered →
      Enters table id (.requestConnection id) .pending
  | initiated {p : Endpoint} {name : String} : table.find? id = some p → p.state = .discovered →
      Enters table id (.connectionInitiated id name) .pending
  | accepted {p : Endpoint} : table.find? id = some p → p.state = .pending →
      Enters table id (.accept id) .connected
  | rejected {p : Endpoint} : table.find? id = some p → p.state = .pending →
      Enters table id (.reject id) .discovered
  | failed {p : Endpoint} : table.find? id = some p → p.state = .pending →
      Enters table id (.connectionFailed id) .discovered
  | begun {p : Endpoint} {direction : Direction} : table.find? id = some p →
      p.state = .connected → Enters table id (.beginTransfer id direction) (stateDuring direction)
  | finished {p : Endpoint} : table.find? id = some p → p.state = .sending ∨ p.state = .receiving →
      Enters table id (.finishTransfer id) .connected
  | leaving {p : Endpoint} : table.find? id = some p → p.state = .connected ∨ p.state = .pending →
      Enters table id (.beginDisconnect id) .disconnecting
  | back {p : Endpoint} {previous : EndpointState} : table.find? id = some p →
      p.state = .disconnecting → previous = .connected ∨ previous = .pending →
      Enters table id (.abortDisconnect id previous) previous

variable {table table' : Table} {id : String} {p q : Endpoint} {operation : Operation}

/-! ## How a state is come to -/

/-- An endpoint that is found after a step was in the same state before, or the step has led to
it. -/
def Comes (table : Table) (operation : Operation) (q : Endpoint) : Prop :=
  (∃ p, table.find? q.id = some p ∧ p.state = q.state) ∨ Enters table q.id operation q.state

theorem comes_of_find? (hfind : table.find? id = some q) : Comes table operation q := by
  obtain rfl : q.id = id := id_of_find? hfind
  exact .inl ⟨q, hfind, rfl⟩

theorem comes_of_focus (hfind : table.find? p.id = some p) {r : Endpoint} {notices : List Notice}
    (hid : r.id = p.id) (hq : (table.focus r notices).find? id = some q)
    (hcomes : Comes table operation r) : Comes table operation q := by
  by_cases hne : id = p.id
  · subst hne
    cases (find?_focus hfind hid notices).symm.trans hq
    exact hcomes
  · rw [find?_focus_of_ne (hid ▸ hne)] at hq
    exact comes_of_find? hq

theorem comes_of_add {e : Endpoint} (hq : (table.add e).find? id = some q)
    (henters : Comes table operation e) : Comes table operation q := by
  cases hfind : table.find? id with
  | some p =>
    rw [find?_add_of_some hfind] at hq
    cases hq
    exact comes_of_find? hfind
  | none =>
    rw [find?_add_of_none hfind] at hq
    split_ifs at hq
    cases hq
    exact henters

theorem comes_of_without (hq : (table.without p).find? id = some q) : Comes table operation q := by
  unfold without Table.find? tell at hq
  rw [find?_filter_ne] at hq
  split_ifs at hq
  exact comes_of_find? hq

theorem Taken.comes (h : Taken table operation table') (hq : table'.find? id = some q) :
    Comes table operation q := by
  cases h with
  | subscribed | unsubscribed | selected =>
    have hfind : table.find? id = some q := hq
    exact comes_of_find? hfind
  | found hfind => exact comes_of_add hq (.inr (.found hfind))
  | called hfind =>
    exact comes_of_add (e := .new _ _ .pending .unknown true) hq (.inr (.called hfind))
  | requested hfind hstate =>
    exact comes_of_focus hfind (by rfl) hq (.inr (.requested hfind hstate))
  | @initiated p name hfind hstate =>
    have hcomes : Comes table (.connectionInitiated p.id name) { p with state := .pending } := by
      rcases hstate with hstate | hstate
      · exact .inr (.initiated hfind hstate)
      · exact .inl ⟨p, hfind, hstate⟩
    have hq : (table.focus { p with state := .pending } (changeOf p .pending)).find? id =
      some q := hq
    exact comes_of_focus hfind (by rfl) hq hcomes
  | accepted hfind hstate => exact comes_of_focus hfind (by rfl) hq (.inr (.accepted hfind hstate))
  | rejected hfind hstate => exact comes_of_focus hfind (by rfl) hq (.inr (.rejected hfind hstate))
  | failed hfind hstate => exact comes_of_focus hfind (by rfl) hq (.inr (.failed hfind hstate))
  | begun hfind hstate => exact comes_of_focus hfind (by rfl) hq (.inr (.begun hfind hstate))
  | finished hfind hstate => exact comes_of_focus hfind (by rfl) hq (.inr (.finished hfind hstate))
  | leaving hfind hstate => exact comes_of_focus hfind (by rfl) hq (.inr (.leaving hfind hstate))
  | back hfind hstate hprevious =>
    exact comes_of_focus hfind (by rfl) hq (.inr (.back hfind hstate hprevious))
  | dismissed | lost | removed => exact comes_of_without hq
  | upgraded hfind | named hfind | logged hfind =>
    exact comes_of_focus hfind (by rfl) hq (.inl ⟨_, hfind, rfl⟩)

/-- An endpoint is in the state in which it was, or an operation has led it there. -/
theorem comes_run (hdistinct : table.Distinct) (hq : (operation.run table).find? id = some q) :
    Comes table operation q := by
  revert hq
  exact run_cases hdistinct operation comes_of_find? fun _ htaken => htaken.comes

/-! ## What has been so since -/

/-- A handshake with the endpoint has succeeded, and it has been known ever since. -/
def AcceptedSince (id : String) : List Operation → Prop :=
  Since (fun before operation => operation = .accept id ∧
      ∃ table, (runAll before empty).accept id = .ok table)
    fun history => ((runAll history empty).find? id).isSome

/-- A disconnection was begun that answered the state to return to, and it has not ended since. -/
def LeavingFrom (id : String) (previous : EndpointState) : List Operation → Prop :=
  Since (fun before operation => operation = .beginDisconnect id ∧
      ∃ table, (runAll before empty).beginDisconnect id = .ok (previous, table))
    fun history => (runAll history empty).state id = .ok .disconnecting

variable {history : List Operation} {current : EndpointState}

theorem runAll_concat (history : List Operation) (operation : Operation) (table : Table) :
    runAll (history ++ [operation]) table = operation.run (runAll history table) := by
  unfold runAll
  rw [foldl_append, foldl_cons, foldl_nil]

theorem distinct_runAll (history : List Operation) : (runAll history empty).Distinct :=
  foldlRecOn history _ nodup_nil fun _ hdistinct operation _ => hdistinct.run operation

theorem state_of_find? (h : table.find? id = some p) : table.state id = .ok p.state := by
  rw [state, get_of_find? h]
  rfl

theorem exists_of_state (h : table.state id = .ok current) :
    ∃ p, table.find? id = some p ∧ p.state = current := by
  cases hfind : table.find? id with
  | none =>
    rw [state, get_of_find?_eq_none hfind] at h
    cases h
  | some p =>
    rw [state_of_find? hfind] at h
    cases h
    exact ⟨p, rfl, rfl⟩

theorem stateDuring_ne_disconnecting (direction : Direction) :
    stateDuring direction ≠ .disconnecting := by
  cases direction <;> decide

theorem find?_of_mem (hdistinct : table.Distinct) (hp : p ∈ table.endpoints) :
    table.find? p.id = some p := by
  cases hfind : table.find? p.id with
  | none => simpa using find?_eq_none.1 hfind p hp
  | some q => rw [eq_of_mem hdistinct hfind hp rfl]

theorem AcceptedSince.concat (h : AcceptedSince id history)
    (hq : (runAll (history ++ [operation]) empty).find? id = some q) :
    AcceptedSince id (history ++ [operation]) := by
  refine Since.concat h ?_
  rw [hq]
  rfl

theorem acceptedSince_accept (hp : (runAll history empty).find? id = some p)
    (hstate : p.state = .pending)
    (hq : (runAll (history ++ [.accept id]) empty).find? id = some q) :
    AcceptedSince id (history ++ [.accept id]) := by
  have haccept := accept_of_find? (distinct_runAll history) hp
  rw [if_pos hstate] at haccept
  refine since_concat_iff.2 ⟨?_, .inl ⟨rfl, _, haccept⟩⟩
  rw [hq]
  rfl

theorem leavingFrom_beginDisconnect (hp : (runAll history empty).find? id = some p)
    (hstate : p.state = .connected ∨ p.state = .pending)
    (hq : (runAll (history ++ [.beginDisconnect id]) empty).state id = .ok .disconnecting) :
    LeavingFrom id p.state (history ++ [.beginDisconnect id]) := by
  have hbegin := beginDisconnect_of_find? (distinct_runAll history) hp
  rw [if_pos hstate] at hbegin
  exact since_concat_iff.2 ⟨hq, .inl ⟨rfl, _, hbegin⟩⟩

/-- An endpoint that is connected was accepted. One that is being disconnected was accepted, or its
handshake was pending. -/
structure Vouched (id : String) (history : List Operation) : Prop where
  of_connected : ∀ p, (runAll history empty).find? id = some p → p.state.isConnected →
    AcceptedSince id history
  of_leaving : (runAll history empty).state id = .ok .disconnecting →
    LeavingFrom id .pending history ∨ AcceptedSince id history

theorem vouched_nil : Vouched id [] := by
  constructor
  · rintro p ⟨⟩
  · rintro ⟨⟩

/-- A step keeps this, unless it gives up for connected what was begun while pending. -/
theorem Vouched.concat (h : Vouched id history)
    (hback : operation = .abortDisconnect id .connected → LeavingFrom id .pending history →
      AcceptedSince id history) : Vouched id (history ++ [operation]) := by
  have hcomes : ∀ q, (runAll (history ++ [operation]) empty).find? id = some q →
      Comes (runAll history empty) operation q := by
    intro q hq
    rw [runAll_concat] at hq
    exact comes_run (distinct_runAll history) hq
  constructor
  · intro q hq hconnected
    obtain rfl : q.id = id := id_of_find? hq
    rcases hcomes q hq with ⟨p, hp, hstate⟩ | henters
    · exact (h.of_connected p hp (hstate ▸ hconnected)).concat hq
    generalize hnext : q.state = next at henters
    rw [hnext] at hconnected
    cases henters with
    | accepted hp hstate => exact acceptedSince_accept hp hstate hq
    | begun hp hstate => exact (h.of_connected _ hp (by rw [hstate]; rfl)).concat hq
    | finished hp hstate =>
      refine (h.of_connected _ hp ?_).concat hq
      rcases hstate with hstate | hstate <;> rw [hstate] <;> rfl
    | back hp hstate hprevious =>
      have hleaving := h.of_leaving (hstate ▸ state_of_find? hp)
      rcases hprevious with rfl | rfl
      · exact (hleaving.elim (hback rfl) fun h => h).concat hq
      · cases hconnected
    | _ => cases hconnected
  · intro hleaving
    obtain ⟨q, hq, hstate⟩ := exists_of_state hleaving
    obtain rfl : q.id = id := id_of_find? hq
    rcases hcomes q hq with ⟨p, hp, hsame⟩ | henters
    · have hbefore := h.of_leaving ((hsame.trans hstate) ▸ state_of_find? hp)
      exact hbefore.imp (Since.concat · hleaving) (·.concat hq)
    generalize hnext : q.state = next at henters
    cases henters with
    | @leaving p hp hleft =>
      rcases hleft with hleft | hleft
      · exact .inr ((h.of_connected p hp (by rw [hleft]; rfl)).concat hq)
      · rw [← hleft]
        exact .inl (leavingFrom_beginDisconnect hp (.inr hleft) hleaving)
    | begun => exact absurd (hnext.symm.trans hstate) (stateDuring_ne_disconnecting _)
    | back _ _ hprevious => simp [hnext.symm.trans hstate] at hprevious
    | _ => cases hnext.symm.trans hstate

/-- Whatever is asked of a table, an endpoint that is connected was accepted since it became known,
at all times just if no disconnection that was begun while its handshake was pending is given up
for connected, other than of an endpoint that was accepted before. -/
theorem connected_accepted_iff (operations : List Operation) :
    (∀ history, history <+: operations → ∀ p ∈ (runAll history empty).endpoints,
      p.state.isConnected → AcceptedSince p.id history) ↔
    ∀ id history, history ++ [.abortDisconnect id .connected] <+: operations →
      LeavingFrom id .pending history → AcceptedSince id history := by
  constructor
  · intro h id history hprefix hleaving
    obtain ⟨p, hp, hstate⟩ := exists_of_state hleaving.holds
    obtain rfl : p.id = id := id_of_find? hp
    have habort := abortDisconnect_of_find? (distinct_runAll history) hp (.inl rfl)
    rw [if_pos hstate] at habort
    have hq : (runAll (history ++ [.abortDisconnect p.id .connected]) empty).find? p.id =
        some { p with state := .connected } := by
      rw [runAll_concat, Operation.run, Operation.step, habort]
      exact find?_focus hp (q := { p with state := .connected }) rfl _
    have haccepted := h _ hprefix _ (mem_of_find? hq) rfl
    rcases (since_concat_iff.1 haccepted).2 with ⟨⟨⟩, -⟩ | hsince
    exact hsince
  · intro h history hprefix p hp hconnected
    have hvouched : ∀ history, history <+: operations → Vouched p.id history := by
      intro history
      induction history using reverseRecOn with
      | nil => exact fun _ => vouched_nil
      | append_singleton history operation ih =>
        intro hprefix
        refine (ih ((prefix_append _ _).trans hprefix)).concat ?_
        rintro rfl
        exact h p.id history hprefix
    exact (hvouched history hprefix).of_connected p (find?_of_mem (distinct_runAll history) hp)
      hconnected

/-- A peer calls, and before the handshake is over it is to be disconnected from; the table returns
it to connected, a state it was never in. -/
theorem connected_without_accept :
    ¬∀ operations : List Operation, ∀ p ∈ (runAll operations empty).endpoints,
      p.state.isConnected → AcceptedSince p.id operations := by
  intro h
  let operations : List Operation :=
    [.connectionInitiated "e" "peer", .beginDisconnect "e", .abortDisconnect "e" .connected]
  have hstates : (runAll operations empty).endpoints.map (fun p => (p.id, p.state)) =
      [("e", .connected)] := by decide +kernel
  obtain ⟨p, hp, hpair⟩ := mem_map.1 (hstates ▸ mem_singleton_self ("e", EndpointState.connected))
  obtain ⟨hid, hstate⟩ := Prod.mk.inj hpair
  obtain ⟨before, operation, after, hsplit, ⟨rfl, -⟩, -⟩ := h operations p hp (by rw [hstate]; rfl)
  have hmem : Operation.accept p.id ∈ operations := by
    rw [hsplit]
    simp
  simp [operations] at hmem

end PeerTransfer.Table
