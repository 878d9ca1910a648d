import Mathlib.Tactic
import PeerTransfer.Table.Steps

/-!
# One endpoint of the table at a time

Every step of the table that finds its endpoint comes to the same: another endpoint of that id
stands in its place, and notices are told (`Table.focus`). Steps that follow each other on one
endpoint then come to one such change (`focus_focus`).
-/

namespace PeerTransfer

open List

/-- The endpoint with more entries in its journal. -/
def Endpoint.log (endpoint : Endpoint) (entries : List JournalEntry) : Endpoint :=
  { endpoint with journal := endpoint.journal ++ entries }

@[simp] theorem Endpoint.log_nil (endpoint : Endpoint) : endpoint.log [] = endpoint := by
  rw [log, append_nil]

namespace Table

/-- Ids tell the endpoints of a table apart. -/
def Distinct (table : Table) : Prop :=
  (table.endpoints.map Endpoint.id).Nodup

/-- The table with an endpoint in place of the one of its id, once notices have been told. -/
def focus (table : Table) (endpoint : Endpoint) (notices : List Notice) : Table :=
  { table with
    endpoints := table.endpoints.map fun e => if e.id = endpoint.id then endpoint else e
    told := table.told ++ notices.flatMap fun notice =>
      table.subscribers.map fun subscriber => (subscriber.inbox, notice) }

/-- What is told when an endpoint's state becomes another. -/
def changeOf (endpoint : Endpoint) (next : EndpointState) : List Notice :=
  if endpoint.state = next then []
  else [.stateChanged endpoint.id (some endpoint.state) next]

variable {table : Table} {id : String} {p q : Endpoint}

/-! ## Finding an endpoint -/

theorem mem_of_find? (h : table.find? id = some p) : p ∈ table.endpoints :=
  mem_of_find?_eq_some h

theorem id_of_find? (h : table.find? id = some p) : p.id = id := by
  simpa using find?_some h

theorem get_of_find? (h : table.find? id = some p) : table.get id = .ok p := by
  rw [get, h]

theorem get_of_find?_eq_none (h : table.find? id = none) :
    table.get id = .error (.endpointUnknown id) := by
  rw [get, h]

theorem eq_of_mem (hdistinct : table.Distinct) (h : table.find? id = some p) {e : Endpoint}
    (he : e ∈ table.endpoints) (hid : e.id = id) : e = p :=
  inj_on_of_nodup_map hdistinct he (mem_of_find? h) (hid.trans (id_of_find? h).symm)

theorem find?_add_of_some (h : table.find? id = some p) (e : Endpoint) :
    (table.add e).find? id = some p := by
  unfold Table.find? add tell at *
  dsimp only
  rw [find?_append, h]
  rfl

theorem find?_congr {table' : Table} (h : table'.endpoints = table.endpoints) (id : String) :
    table'.find? id = table.find? id := by
  unfold Table.find?
  rw [h]

theorem find?_add_of_none (h : table.find? id = none) (e : Endpoint) :
    (table.add e).find? id = if e.id = id then some e else none := by
  unfold Table.find? add tell at *
  dsimp only
  rw [find?_append, h, Option.none_or, find?_singleton]
  simp only [decide_eq_true_eq]

theorem find?_filter_ne (endpoints : List Endpoint) (id other : String) :
    (endpoints.filter (·.id ≠ other)).find? (·.id = id) =
      if id = other then none else endpoints.find? (·.id = id) := by
  rw [find?_filter]
  split_ifs with hid
  · simp [hid]
  · congr 1
    funext e
    by_cases he : e.id = id
    · simp [he, hid]
    · simp [he]

theorem Distinct.append (h : table.Distinct) (hfind : table.find? p.id = none) :
    ((table.endpoints ++ [p]).map Endpoint.id).Nodup := by
  have hnot : p.id ∉ table.endpoints.map Endpoint.id := by
    intro hmem
    obtain ⟨e, he, hid⟩ := mem_map.1 hmem
    simpa [hid] using find?_eq_none.1 hfind e he
  rw [map_append, map_singleton, ← concat_eq_append, nodup_concat]
  exact ⟨hnot, h⟩

/-! ## The focus -/

theorem focus_self (hdistinct : table.Distinct) (h : table.find? id = some p) :
    table.focus p [] = table := by
  have hmap : (table.endpoints.map fun e => if e.id = p.id then p else e) = table.endpoints := by
    conv_rhs => rw [← map_id table.endpoints]
    apply map_congr_left
    intro e he
    split_ifs with hid
    · exact (eq_of_mem hdistinct h he (hid.trans (id_of_find? h))).symm
    · rfl
  unfold focus
  rw [hmap]
  simp

theorem endpoints_focus_self (hdistinct : table.Distinct) (h : table.find? id = some p)
    (notices : List Notice) : (table.focus p notices).endpoints = table.endpoints := by
  have hself : (table.focus p []).endpoints = table.endpoints := by rw [focus_self hdistinct h]
  exact hself

theorem focus_focus (h : q.id = p.id) (notices notices' : List Notice) :
    (table.focus p notices).focus q notices' = table.focus q (notices ++ notices') := by
  unfold focus
  simp only [map_map, flatMap_append, append_assoc, mk.injEq, and_self, and_true]
  apply map_congr_left
  intro e _
  rw [Function.comp_apply, h]
  split_ifs with hid hp
  · rfl
  · exact absurd rfl hp
  · rfl

@[simp] theorem map_id_focus (p : Endpoint) (notices : List Notice) :
    (table.focus p notices).endpoints.map Endpoint.id = table.endpoints.map Endpoint.id := by
  unfold focus
  rw [map_map]
  apply map_congr_left
  intro e _
  rw [Function.comp_apply]
  split_ifs with hid
  · exact hid.symm
  · rfl

theorem Distinct.focus (h : table.Distinct) (p : Endpoint) (notices : List Notice) :
    (table.focus p notices).Distinct := by
  unfold Distinct
  rwa [map_id_focus]

theorem find?_focus (h : table.find? id = some p) (hq : q.id = id) (notices : List Notice) :
    (table.focus q notices).find? id = some q := by
  unfold Table.find? Table.focus at *
  rw [find?_map]
  have hcomp : ((fun e : Endpoint => decide (e.id = id)) ∘ fun e : Endpoint =>
      if e.id = q.id then q else e) = fun e => decide (e.id = id) := by
    funext e
    rw [Function.comp_apply]
    split_ifs with hid
    · rw [hid]
    · rfl
  rw [hcomp, h, Option.map_some, hq, if_pos (id_of_find? h)]

theorem find?_focus_of_ne (hne : id ≠ q.id) (notices : List Notice) :
    (table.focus q notices).find? id = table.find? id := by
  unfold Table.find? focus
  dsimp only
  rw [find?_map]
  have hcomp : ((fun e : Endpoint => decide (e.id = id)) ∘ fun e : Endpoint =>
      if e.id = q.id then q else e) = fun e => decide (e.id = id) := by
    funext e
    rw [Function.comp_apply]
    split_ifs with hid
    · rw [hid]
    · rfl
  rw [hcomp]
  cases hfind : table.endpoints.find? fun e => decide (e.id = id) with
  | none => rfl
  | some e =>
    have hid : e.id = id := by simpa using find?_some hfind
    rw [Option.map_some, if_neg (hid ▸ hne)]

theorem tell_focus (p : Endpoint) (notices : List Notice) (notice : Notice) :
    (table.focus p notices).tell notice = table.focus p (notices ++ [notice]) := by
  unfold tell focus
  rw [flatMap_append, flatMap_singleton, append_assoc]

theorem modify_eq_focus (hdistinct : table.Distinct) (h : table.find? id = some p)
    {change : Endpoint → Endpoint} (hchange : (change p).id = id) :
    table.modify id change = table.focus (change p) [] := by
  unfold modify focus
  rw [hchange, flatMap_nil, append_nil]
  congr 1
  apply map_congr_left
  intro e he
  split_ifs with hid
  · rw [eq_of_mem hdistinct h he hid]
  · rfl

/-! ## Steps that find their endpoint -/

theorem update_of_find? (hdistinct : table.Distinct) (h : table.find? id = some p)
    {change : Endpoint → Endpoint} (hchange : (change p).id = id) :
    table.update id change = .ok (table.focus (change p) []) := by
  unfold update
  rw [get_of_find? h, modify_eq_focus hdistinct h hchange]
  rfl

theorem transition_of_mem (hdistinct : table.Distinct) (h : table.find? id = some p)
    {allowed : List EndpointState} (hstate : p.state ∈ allowed) (next : EndpointState)
    (operation : EndpointOperation) :
    table.transition id allowed next operation =
      .ok (p.state, table.focus { p with state := next } (changeOf p next)) := by
  have hid : p.id = id := id_of_find? h
  unfold transition changeOf
  rw [get_of_find? h, modify_eq_focus hdistinct h hid]
  simp only [bind, Except.bind, hstate, not_true, if_false, hid]
  split_ifs
  · rfl
  · rw [tell_focus]
    rfl

theorem transition_of_not_mem (h : table.find? id = some p) {allowed : List EndpointState}
    (hstate : p.state ∉ allowed) (next : EndpointState) (operation : EndpointOperation) :
    table.transition id allowed next operation =
      .error (.endpointConflict operation id p.state) := by
  unfold transition
  rw [get_of_find? h]
  simp only [bind, Except.bind, hstate, not_false_eq_true, if_true]
  rfl

theorem transition_of_unknown (h : table.find? id = none) (allowed : List EndpointState)
    (next : EndpointState) (operation : EndpointOperation) :
    table.transition id allowed next operation = .error (.endpointUnknown id) := by
  unfold transition
  rw [get_of_find?_eq_none h]
  rfl

theorem appendLog_of_find? (hdistinct : table.Distinct) (h : table.find? id = some p)
    (entries : List JournalEntry) :
    table.appendLog id entries =
      .ok (table.focus (p.log entries) (entries.map (.logged id))) := by
  have hfold : entries.foldl (fun table entry => table.log id entry) table =
      table.focus (p.log entries) (entries.map (.logged id)) := by
    induction entries generalizing table p with
    | nil =>
      rw [foldl_nil, map_nil, Endpoint.log_nil, focus_self hdistinct h]
    | cons entry entries ih =>
      have hid : p.id = id := id_of_find? h
      have hlog : table.log id entry = table.focus (p.log [entry]) [.logged id entry] := by
        unfold log
        rw [modify_eq_focus hdistinct h hid, tell_focus]
        rfl
      have hfind : (table.focus (p.log [entry]) [.logged id entry]).find? id =
          some (p.log [entry]) := find?_focus (q := p.log [entry]) h hid _
      have hlogs : (p.log [entry]).log entries = p.log (entry :: entries) := by
        rw [Endpoint.log, Endpoint.log, append_assoc]
        rfl
      rw [foldl_cons, hlog, ih (hdistinct.focus _ _) hfind, hlogs]
      exact focus_focus (by rfl) _ _
  unfold appendLog
  rw [get_of_find? h, ← hfold]
  rfl

/-! ## Endpoints that go -/

/-- The table once an endpoint is taken out of it and that has been told. -/
def without (table : Table) (endpoint : Endpoint) : Table :=
  let endpoints := table.endpoints.filter (·.id ≠ endpoint.id)
  let selected := if table.selected = some endpoint.id then endpoints.head?.map (·.id)
    else table.selected
  { table with endpoints, selected }.tell
    (.stateChanged endpoint.id (some endpoint.state) .removed)

theorem remove_of_find? (h : table.find? id = some p) :
    table.remove id = .ok (p.localCopies, table.without p) := by
  unfold remove without
  rw [get_of_find? h, id_of_find? h]
  rfl

theorem endpoints_without_focus (table : Table) (h : q.id = p.id) (notices : List Notice) :
    ((table.focus p notices).without q).endpoints = table.endpoints.filter (·.id ≠ q.id) := by
  unfold without focus tell
  dsimp only
  rw [filter_map, h]
  have hcomp : ((fun e : Endpoint => decide (e.id ≠ p.id)) ∘ fun e : Endpoint =>
      if e.id = p.id then p else e) = fun e => decide (e.id ≠ p.id) := by
    funext e
    rw [Function.comp_apply]
    split_ifs with hid
    · rw [hid]
    · rfl
  rw [hcomp]
  conv_rhs => rw [← map_id (table.endpoints.filter fun e => decide (e.id ≠ p.id))]
  apply map_congr_left
  intro e he
  have hne : e.id ≠ p.id := of_decide_eq_true (mem_filter.1 he).2
  exact if_neg hne

end Table

end PeerTransfer
