import PeerTransfer.Proofs.Table.Acceptance

/-!
# Which endpoints a table lists, and which it has selected

An operation that is taken leaves the list of ids as it is, puts an unknown id at its end, or takes
one out of it; the selection follows in the last case, and names a listed endpoint in the other two
(`Taken.relisted`). So the ids stand in the order in which they were last brought in, and the
selection is never left behind. The states in which an endpoint is listed depend on who has opened
the connection, and that does not change as long as it is listed (`Taken.isIncoming_eq`): a peer
that has called is never taken for one that was discovered. All of it is put together for what is
asked of a table from the start on (`listing_runAll`).
-/

namespace PeerTransfer.Table

open List

/-- The ids of the known peers, in the order of the table. -/
def ids (table : Table) : List String :=
  table.endpoints.map Endpoint.id

/-- The ids that an operation brings into a table. -/
def Operation.brings (operation : Operation) (table : Table) : List String :=
  (operation.run table).ids.filter (· ∉ table.ids)

/-- The ids that operations bring into a table, one after another, each as often as it is brought
in. -/
def insertions : List Operation → Table → List String
  | [], _ => []
  | operation :: rest, table => operation.brings table ++ insertions rest (operation.run table)

/-- What becomes of the list of ids, and of the selection with it. -/
inductive Relisted (table table' : Table) : Prop
  | kept : table'.ids = table.ids →
      table'.selected = table.selected ∨ (∃ id ∈ table.ids, table'.selected = some id) →
      Relisted table table'
  | grown {id : String} : id ∉ table.ids → table'.ids = table.ids ++ [id] →
      table'.selected = table.selected ∨ table'.selected = some id → Relisted table table'
  | shrunk {id : String} : id ∈ table.ids → table'.ids = table.ids.filter (· ≠ id) →
      table'.selected =
        (if table.selected = some id then table'.ids.head? else table.selected) →
      Relisted table table'

variable {table table' : Table} {id : String} {p q : Endpoint} {operation : Operation}
  {history : List Operation}

/-! ## The list of ids -/

theorem mem_ids_of_find? (h : table.find? id = some p) : id ∈ table.ids :=
  mem_map.2 ⟨p, mem_of_find? h, id_of_find? h⟩

theorem notMem_ids_of_find? (h : table.find? id = none) : id ∉ table.ids := by
  intro hmem
  obtain ⟨p, hp, hid⟩ := mem_map.1 hmem
  simpa [hid] using find?_eq_none.1 h p hp

theorem exists_find?_of_mem_ids (hdistinct : table.Distinct) (h : id ∈ table.ids) :
    ∃ p, table.find? id = some p := by
  obtain ⟨p, hp, rfl⟩ := mem_map.1 h
  exact ⟨p, find?_of_mem hdistinct hp⟩

theorem ids_without (table : Table) (p : Endpoint) :
    (table.without p).ids = table.ids.filter (· ≠ p.id) := by
  unfold ids without tell
  rw [filter_map]
  rfl

theorem selected_without (table : Table) (p : Endpoint) :
    (table.without p).selected =
      if table.selected = some p.id then (table.without p).ids.head? else table.selected := by
  unfold ids
  rw [head?_map]
  rfl

theorem relisted_without (h : table.find? p.id = some p) : Relisted table (table.without p) :=
  .shrunk (mem_ids_of_find? h) (ids_without table p) (selected_without table p)

theorem Taken.relisted (h : Taken table operation table') : Relisted table table' := by
  cases h with
  | subscribed | unsubscribed => exact .kept rfl (.inl rfl)
  | found hfind => exact .grown (notMem_ids_of_find? hfind) (map_append ..) (.inl rfl)
  | called hfind => exact .grown (notMem_ids_of_find? hfind) (map_append ..) (.inr rfl)
  | @initiated p _ hfind =>
    exact .kept (map_id_focus _ (changeOf p .pending)) (.inr ⟨_, mem_ids_of_find? hfind, rfl⟩)
  | dismissed hfind | lost hfind | removed hfind => exact relisted_without hfind
  | selected hfind => exact .kept rfl (.inr ⟨_, mem_ids_of_find? hfind, rfl⟩)
  | _ => exact .kept (map_id_focus ..) (.inl rfl)

theorem relisted_run (hdistinct : table.Distinct) (operation : Operation) :
    Relisted table (operation.run table) :=
  run_cases hdistinct operation (.kept rfl (.inl rfl)) fun _ htaken => htaken.relisted

/-! ## The order of the list -/

theorem insertions_concat (history : List Operation) (operation : Operation) (table : Table) :
    insertions (history ++ [operation]) table =
      insertions history table ++ operation.brings (runAll history table) := by
  induction history generalizing table with
  | nil => exact append_nil _
  | cons first rest ih =>
    rw [cons_append, insertions, insertions, ih, append_assoc]
    rfl

theorem dedup_concat {α : Type} [DecidableEq α] (l : List α) (a : α) :
    (l ++ [a]).dedup = l.dedup.filter (· ≠ a) ++ [a] := by
  induction l with
  | nil => rfl
  | cons x l ih =>
    rw [cons_append]
    by_cases hmem : x ∈ l
    · rw [dedup_cons_of_mem (mem_append_left _ hmem), dedup_cons_of_mem hmem, ih]
    · by_cases hx : x = a
      · subst hx
        rw [dedup_cons_of_mem (mem_append_right _ mem_cons_self), dedup_cons_of_notMem hmem, ih,
          filter_cons_of_neg (by simp)]
      · rw [dedup_cons_of_notMem (by simp [hmem, hx]), dedup_cons_of_notMem hmem, ih,
          filter_cons_of_pos (by simpa using hx), cons_append]

section

variable {ids brought : List String} (h : ids = brought.dedup.filter (· ∈ ids))
include h

theorem concat_eq_filter_dedup (hnew : id ∉ ids) :
    ids ++ [id] = (brought ++ [id]).dedup.filter (· ∈ ids ++ [id]) := by
  have hbefore : (brought.dedup.filter (· ≠ id)).filter (· ∈ ids ++ [id]) = ids := by
    conv_rhs => rw [h]
    rw [filter_filter]
    apply filter_congr
    intro other _
    by_cases hother : other = id
    · simp [hother, hnew]
    · simp [hother]
  rw [dedup_concat, filter_append, hbefore]
  simp

theorem filter_ne_eq_filter_dedup (id : String) :
    ids.filter (· ≠ id) = brought.dedup.filter (· ∈ ids.filter (· ≠ id)) := by
  conv_lhs => rw [h]
  rw [filter_filter]
  apply filter_congr
  intro other _
  simp [and_comm]

end

/-- The listed ids stand as they were last brought in. -/
def InOrder (history : List Operation) : Prop :=
  (runAll history empty).ids =
    (insertions history empty).dedup.filter (· ∈ (runAll history empty).ids)

theorem InOrder.concat (h : InOrder history) (operation : Operation) :
    InOrder (history ++ [operation]) := by
  unfold InOrder
  rw [runAll_concat, insertions_concat, Operation.brings]
  cases relisted_run (distinct_runAll history) operation with
  | kept hids =>
    have hnone : (runAll history empty).ids.filter (· ∉ (runAll history empty).ids) = [] := by simp
    rw [hids, hnone, append_nil]
    exact h
  | @grown id hnew hids =>
    have hone : ((runAll history empty).ids ++ [id]).filter (· ∉ (runAll history empty).ids) =
        [id] := by
      rw [filter_append]
      simp [hnew]
    rw [hids, hone]
    exact concat_eq_filter_dedup h hnew
  | @shrunk id _ hids =>
    have hnone : ((runAll history empty).ids.filter (· ≠ id)).filter
        (· ∉ (runAll history empty).ids) = [] := by
      rw [filter_eq_nil_iff]
      intro other hother
      simp [mem_of_mem_filter hother]
    rw [hids, hnone, append_nil]
    exact filter_ne_eq_filter_dedup h id

theorem inOrder (history : List Operation) : InOrder history := by
  induction history using reverseRecOn with
  | nil => rfl
  | append_singleton history operation ih => exact ih.concat operation

/-! ## The selection -/

/-- The selection, if there is one, is listed. -/
def SelectsListed (table : Table) : Prop :=
  ∀ id, table.selected = some id → id ∈ table.ids

theorem Relisted.selectsListed (h : Relisted table table') (hlisted : table.SelectsListed) :
    table'.SelectsListed := by
  intro id hid
  cases h with
  | kept hids hselected =>
    rw [hids]
    rcases hselected with hsame | ⟨other, hother, hselected⟩
    · exact hlisted id (hsame ▸ hid)
    · cases hselected.symm.trans hid
      exact hother
  | grown _ hids hselected =>
    rw [hids, mem_append, mem_singleton]
    rcases hselected with hsame | hselected
    · exact .inl (hlisted id (hsame ▸ hid))
    · exact .inr (Option.some.inj (hid.symm.trans hselected))
  | @shrunk other _ hids hselected =>
    rw [hselected] at hid
    split_ifs at hid with hother
    · exact mem_of_mem_head? hid
    · rw [hids, mem_filter]
      refine ⟨hlisted id hid, decide_eq_true ?_⟩
      rintro rfl
      exact hother hid

theorem selectsListed_runAll (history : List Operation) :
    (runAll history empty).SelectsListed := by
  induction history using reverseRecOn with
  | nil => rintro id ⟨⟩
  | append_singleton history operation ih =>
    rw [runAll_concat]
    exact (relisted_run (distinct_runAll history) operation).selectsListed ih

/-- What is no longer listed was taken out alone, and the selection went to the first one that is
left if it was on what was taken out. -/
theorem Relisted.removed (h : Relisted table table') (hid : id ∈ table.ids)
    (hgone : id ∉ table'.ids) : table'.ids = table.ids.filter (· ≠ id) ∧
      table'.selected =
        if table.selected = some id then table'.ids.head? else table.selected := by
  cases h with
  | kept hids => exact absurd (hids ▸ hid) hgone
  | grown _ hids => exact absurd (hids ▸ mem_append_left _ hid) hgone
  | @shrunk other _ hids hselected =>
    obtain rfl : id = other := by
      by_contra hne
      exact hgone (hids ▸ mem_filter.2 ⟨hid, decide_eq_true hne⟩)
    exact ⟨hids, hselected⟩

/-! ## The states in which an endpoint is listed -/

/-- The endpoint is not in the state of one that is gone, and in that of a discovered one only if
the connection was not opened by the peer. -/
def Proper (p : Endpoint) : Prop :=
  p.state ≠ .removed ∧ (p.isIncoming → p.state ≠ .discovered)

theorem forall_mem_focus {P : Endpoint → Prop} (h : ∀ p ∈ table.endpoints, P p) (hq : P q)
    (notices : List Notice) : ∀ p ∈ (table.focus q notices).endpoints, P p := by
  intro r hr
  obtain ⟨p, hp, rfl⟩ := mem_map.1 hr
  split_ifs
  · exact hq
  · exact h p hp

theorem forall_mem_add {P : Endpoint → Prop} (h : ∀ p ∈ table.endpoints, P p) (hq : P q) :
    ∀ p ∈ (table.add q).endpoints, P p :=
  forall_mem_append.2 ⟨h, forall_mem_singleton.2 hq⟩

theorem forall_mem_without {P : Endpoint → Prop} (h : ∀ p ∈ table.endpoints, P p)
    (q : Endpoint) : ∀ p ∈ (table.without q).endpoints, P p :=
  fun p hp => h p (mem_of_mem_filter hp)

theorem proper_move (p : Endpoint) {next : EndpointState} (hremoved : next ≠ .removed)
    (hdiscovered : p.isIncoming → next ≠ .discovered) : Proper { p with state := next } :=
  ⟨hremoved, hdiscovered⟩

theorem Taken.proper (h : Taken table operation table')
    (hproper : ∀ p ∈ table.endpoints, Proper p) : ∀ p ∈ table'.endpoints, Proper p := by
  cases h with
  | subscribed | unsubscribed | selected => exact hproper
  | found => exact forall_mem_add hproper ⟨nofun, nofun⟩
  | called =>
    exact forall_mem_add (q := .new _ _ .pending .unknown true) hproper ⟨nofun, fun _ => nofun⟩
  | requested | accepted | finished | leaving =>
    exact forall_mem_focus hproper (proper_move _ (by decide) fun _ => by decide) _
  | @initiated p =>
    exact forall_mem_focus hproper (proper_move p (by decide) fun _ => by decide) []
  | rejected _ _ hown | failed _ _ hown =>
    refine forall_mem_focus hproper (proper_move _ (by decide) fun hincoming => ?_) _
    exact absurd hincoming (Bool.eq_false_iff.1 hown)
  | dismissed | lost | removed => exact forall_mem_without hproper _
  | @begun p direction =>
    refine forall_mem_focus hproper (proper_move p ?_ fun _ => ?_) _ <;>
      cases direction <;> decide
  | back _ _ hprevious =>
    refine forall_mem_focus hproper (proper_move _ ?_ fun _ => ?_) _ <;>
      rcases hprevious with rfl | rfl <;> decide
  | @upgraded p medium hfind =>
    exact forall_mem_focus (q := { p with medium }) hproper (hproper p (mem_of_find? hfind)) []
  | @named p token hfind =>
    exact forall_mem_focus (q := { p with token := some token }) hproper
      (hproper p (mem_of_find? hfind)) []
  | @logged p entries hfind =>
    exact forall_mem_focus (q := p.log entries) hproper (hproper p (mem_of_find? hfind)) _

theorem proper_runAll (history : List Operation) :
    ∀ p ∈ (runAll history empty).endpoints, Proper p := by
  induction history using reverseRecOn with
  | nil => simp [runAll, empty]
  | append_singleton history operation ih =>
    rw [runAll_concat]
    exact run_cases (distinct_runAll history) operation ih fun _ htaken => htaken.proper ih

/-! ## Who has opened the connection -/

theorem isIncoming_focus (hfind : table.find? p.id = some p) {r : Endpoint} (hid : r.id = p.id)
    (hr : r.isIncoming = p.isIncoming) {notices : List Notice} {p' : Endpoint}
    (hp' : table.find? id = some p') (hq : (table.focus r notices).find? id = some q) :
    q.isIncoming = p'.isIncoming := by
  by_cases hne : id = p.id
  · subst hne
    cases hfind.symm.trans hp'
    cases (find?_focus hfind hid notices).symm.trans hq
    exact hr
  · rw [find?_focus_of_ne (hid ▸ hne)] at hq
    cases hq.symm.trans hp'
    rfl

theorem Taken.isIncoming_eq (h : Taken table operation table') (hp : table.find? id = some p)
    (hq : table'.find? id = some q) : q.isIncoming = p.isIncoming := by
  cases h with
  | subscribed | unsubscribed | selected =>
    have hfind : table.find? id = some q := hq
    cases hfind.symm.trans hp
    rfl
  | found | called =>
    have hfind := hq.symm.trans (find?_add_of_some hp _)
    cases hfind
    rfl
  | dismissed | lost | removed =>
    unfold without Table.find? tell at hq
    rw [find?_filter_ne] at hq
    split_ifs at hq
    have hfind : table.find? id = some q := hq
    cases hfind.symm.trans hp
    rfl
  | @initiated r _ hfind =>
    have hq : (table.focus { r with state := .pending } (changeOf r .pending)).find? id =
      some q := hq
    exact isIncoming_focus hfind (by rfl) (by rfl) hp hq
  | requested hfind | accepted hfind | rejected hfind | failed hfind | begun hfind
  | finished hfind | leaving hfind | back hfind | upgraded hfind | named hfind | logged hfind =>
    exact isIncoming_focus hfind (by rfl) (by rfl) hp hq

/-- A request to connect to the endpoint was taken, and it has been listed ever since. -/
def RequestedSince (id : String) : List Operation → Prop :=
  Since (fun before operation => operation = .requestConnection id ∧
      ∃ table, (runAll before empty).requestConnection id = .ok table)
    fun history => id ∈ (runAll history empty).ids

theorem isIncoming_of_requestedSince (h : RequestedSince id history)
    (hp : (runAll history empty).find? id = some p) : p.isIncoming = false := by
  induction history using reverseRecOn generalizing p with
  | nil => cases hp
  | append_singleton history operation ih =>
    have hdistinct := distinct_runAll history
    obtain ⟨-, ⟨rfl, requested, hrequest⟩ | hsince⟩ := since_concat_iff.1 h
    · rw [runAll_concat, Operation.run, Operation.step, hrequest] at hp
      have htaken : Taken _ (.requestConnection id) requested := taken_of_step hdistinct hrequest
      cases htaken with
      | @requested r hfind hstate =>
        -- An endpoint that is discovered has not called.
        have hown : r.isIncoming = false := Bool.eq_false_iff.2 fun hincoming =>
          (proper_runAll history r (mem_of_find? hfind)).2 hincoming hstate
        rw [← hown]
        exact isIncoming_focus (r := { r with state := .pending }) hfind rfl rfl hfind hp
    · have hlisted := hsince.holds
      obtain ⟨r, hr⟩ := exists_find?_of_mem_ids hdistinct hlisted
      have hown := ih hsince hr
      rw [runAll_concat] at hp
      revert hp
      refine run_cases (P := fun after => after.find? id = some p → p.isIncoming = false) hdistinct
        operation (fun hp => ?_) fun _ htaken hp => (htaken.isIncoming_eq hr hp).trans hown
      cases hr.symm.trans hp
      exact hown

theorem ids_connectionFailed (hdistinct : table.Distinct)
    (hown : ∀ p, table.find? id = some p → p.isIncoming = false) :
    ((Operation.connectionFailed id).run table).ids = table.ids := by
  refine run_cases (P := fun after => after.ids = table.ids) hdistinct _ rfl fun _ htaken => ?_
  cases htaken with
  | failed => exact map_id_focus ..
  | lost hfind _ hincoming => exact absurd hincoming (Bool.eq_false_iff.1 (hown _ hfind))

theorem endpoints_connectionFailed_requestConnection (hdistinct : table.Distinct)
    (hproper : ∀ p ∈ table.endpoints, Proper p)
    (h : table.requestConnection id = .ok table') :
    ((Operation.connectionFailed id).run table').endpoints = table.endpoints := by
  have htaken : Taken table (.requestConnection id) table' := taken_of_step hdistinct h
  cases htaken with
  | @requested p hfind hstate =>
    have hown : p.isIncoming = false := Bool.eq_false_iff.2 fun hincoming =>
      (hproper p (mem_of_find? hfind)).2 hincoming hstate
    have hpending : (table.focus { p with state := .pending } (changeOf p .pending)).find? p.id =
        some { p with state := .pending } :=
      find?_focus (q := { p with state := .pending }) hfind rfl _
    have hback : ({ p with state := .discovered } : Endpoint) = p := by
      rw [← hstate]
    rw [Operation.run, Operation.step, connectionFailed,
      abandonPending_of_find? (hdistinct.focus _ _) hpending, if_pos rfl, if_neg (by simp [hown])]
    dsimp only [Except.map]
    rw [focus_focus (by rfl), hback]
    exact endpoints_focus_self hdistinct hfind _

/-- Whatever is asked of a table from the start on: ids tell the endpoints apart, and they are
listed in the order in which they were last brought in. The selection is absent or listed; if what
is selected is taken out, it goes to the earliest that is left, and it stays if something else is.
No endpoint is listed as removed, and none that has called as discovered. So a handshake that this
side has asked for can fail at any time, and the endpoint stays; if it fails at once, the
endpoints are what they were. -/
theorem listing_runAll (operations : List Operation) :
    let table := runAll operations empty
    (table.ids.Nodup ∧
        table.ids = (insertions operations empty).dedup.filter (· ∈ table.ids)) ∧
      (∀ id, table.selected = some id → id ∈ table.ids) ∧
      (∀ (operation : Operation) (id : String), id ∈ table.ids → id ∉ (operation.run table).ids →
        (operation.run table).ids = table.ids.filter (· ≠ id) ∧
          (operation.run table).selected =
            if table.selected = some id then (operation.run table).ids.head?
            else table.selected) ∧
      (∀ p ∈ table.endpoints, p.state ≠ .removed ∧ (p.isIncoming → p.state ≠ .discovered)) ∧
      (∀ id, RequestedSince id operations →
        ((Operation.connectionFailed id).run table).ids = table.ids) ∧
      ∀ id table', table.requestConnection id = .ok table' →
        ((Operation.connectionFailed id).run table').endpoints = table.endpoints := by
  intro table
  have hdistinct : table.Distinct := distinct_runAll operations
  have hproper : ∀ p ∈ table.endpoints, Proper p := proper_runAll operations
  refine ⟨⟨hdistinct, inOrder operations⟩, selectsListed_runAll operations, ?_, hproper, ?_, ?_⟩
  · exact fun operation id => (relisted_run hdistinct operation).removed
  · exact fun id hsince =>
      ids_connectionFailed hdistinct fun p => isIncoming_of_requestedSince hsince
  · exact fun id table' => endpoints_connectionFailed_requestConnection hdistinct hproper

/-- An endpoint that is forgotten and comes back is the last, and the selection has moved on. -/
example :
    let table := runAll [.discover "a" "first" .ble, .discover "b" "second" .ble, .select "a",
      .connectionInitiated "c" "third", .select "a", .remove "a", .discover "a" "first" .ble] empty
    table.ids = ["b", "c", "a"] ∧ table.selected = some "b" := by
  decide +kernel

end PeerTransfer.Table
