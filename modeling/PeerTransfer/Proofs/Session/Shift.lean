import PeerTransfer.Proofs.Session.Effect
import PeerTransfer.Proofs.Session.Pending

/-!
# What becomes of outgoing batches and of their world

Most actions leave the outgoing batches of a session and the disk as they are. A batch that is
delivered goes, and so do the batches of an endpoint that goes; only of these are the copies
deleted. The others put a new batch among them or run a phase of one. `Shift` tells all of this of
the batches of all endpoints together and of the world at once (`Action.shift`), so that what holds
of both is shown by looking at its cases.
-/

namespace PeerTransfer.Session

open List Table Act

variable {σ : Type}

/-- The outgoing batches of all endpoints. -/
def outgoing (s : Session σ) : List OutgoingBatch :=
  s.table.endpoints.flatMap (·.outgoing)

section Outgoing

variable {s : Session σ} {p : Endpoint} {batch : OutgoingBatch}

theorem mem_outgoing_iff : batch ∈ s.outgoing ↔ ∃ p ∈ s.table.endpoints, batch ∈ p.outgoing :=
  mem_flatMap

theorem mem_outgoing_of_find? {id id' : String} (hp : s.table.find? id = some p)
    (hbatch : p.outgoing? id' = some batch) : batch ∈ s.outgoing :=
  mem_outgoing_iff.2 ⟨p, mem_of_find? hp, mem_of_find?_eq_some hbatch⟩

theorem outgoing_eq_of_endpoints {s' : Session σ} (h : s'.table.endpoints = s.table.endpoints) :
    s'.outgoing = s.outgoing := by
  unfold outgoing
  rw [h]

/-- Around the batches of an endpoint stand those of the others, which stay when it changes or
goes. -/
theorem exists_outgoing_split (hdistinct : s.table.Distinct) (hfind : s.table.find? p.id = some p) :
    ∃ before after, s.outgoing = before ++ p.outgoing ++ after ∧
      (∀ q : Endpoint, q.id = p.id → ∀ notices,
        (s.table.focus q notices).endpoints.flatMap (·.outgoing) =
          before ++ q.outgoing ++ after) ∧
      (s.table.endpoints.filter (·.id ≠ p.id)).flatMap (·.outgoing) = before ++ after := by
  obtain ⟨first, last, hendpoints⟩ := append_of_mem (mem_of_find? hfind)
  have hnodup := hdistinct
  unfold Distinct at hnodup
  rw [hendpoints, map_append, map_cons, nodup_append, nodup_cons] at hnodup
  have hfirst : ∀ e ∈ first, e.id ≠ p.id :=
    fun e he => hnodup.2.2 e.id (mem_map_of_mem he) p.id mem_cons_self
  have hlast : ∀ e ∈ last, e.id ≠ p.id :=
    fun e he heq => hnodup.2.1.1 (heq ▸ mem_map_of_mem he)
  refine ⟨first.flatMap (·.outgoing), last.flatMap (·.outgoing), ?_, fun q hq notices => ?_, ?_⟩
  · rw [outgoing, hendpoints, flatMap_append, flatMap_cons, append_assoc]
  · have hstay (endpoints : List Endpoint) (hne : ∀ e ∈ endpoints, e.id ≠ p.id) :
        endpoints.map (fun e => if e.id = q.id then q else e) = endpoints := by
      conv_rhs => rw [← map_id endpoints]
      exact map_congr_left fun e he => if_neg (hq ▸ hne e he)
    unfold Table.focus
    dsimp only
    rw [hendpoints, map_append, map_cons, hstay first hfirst, hstay last hlast, if_pos hq.symm,
      flatMap_append, flatMap_cons, append_assoc]
  · have hstay (endpoints : List Endpoint) (hne : ∀ e ∈ endpoints, e.id ≠ p.id) :
        endpoints.filter (·.id ≠ p.id) = endpoints :=
      filter_eq_self.2 fun e he => decide_eq_true (hne e he)
    rw [hendpoints, filter_append, filter_cons_of_neg (by simp), hstay first hfirst,
      hstay last hlast, flatMap_append]

theorem outgoing_sublist_of_gone {s' : Session σ} {before gone after : List OutgoingBatch}
    (h : s.outgoing = before ++ gone ++ after) (h' : s'.outgoing = before ++ after) :
    s'.outgoing <+ s.outgoing := by
  rw [h, h', append_assoc]
  exact (sublist_append_right _ _).append_left _

end Outgoing

/-- The services after at most one call that is about a connection or hands over a payload. -/
inductive Signalled [Services σ] (services : σ) : σ → Prop
  | silent : Signalled services services
  | connect (endpoint : String) : Signalled services (Services.connect endpoint services).2
  | disconnect (endpoint : String) : Signalled services (Services.disconnect endpoint services).2
  | send (endpoint : String) (payload : Bytes) :
      Signalled services (Services.send endpoint payload services).2

variable [Services σ]

/-- What an action makes of the outgoing batches and of the world. -/
inductive Shift (s s' : Session σ) : Action σ → Prop
  | outside (world : World σ) : s' = { s with world } → Shift s s' (.outside world)
  | idle {action : Action σ} : s'.outgoing = s.outgoing → s'.world.disk = s.world.disk →
      Signalled s.world.services s'.world.services → s.ids.Precedes s'.ids → Shift s s' action
  | delivered {p : Endpoint} {payload : Int} {total transferred : UInt64} {found : OutgoingBatch}
      {before after : List OutgoingBatch} :
      s.table.find? p.id = some p → p.payload? payload = none → p.inFlight = some found.id →
      found ∈ p.outgoing → s.outgoing = before ++ [found] ++ after →
      s'.outgoing = before ++ after → s'.world.disk = s.world.disk →
      Signalled s.world.services s'.world.services → s.ids.Precedes s'.ids →
      Shift s s' (.handle (.payloadProgress p.id payload .success total transferred))
  | forgot {action : Action σ} {before gone after : List OutgoingBatch} :
      s.outgoing = before ++ gone ++ after → s'.outgoing = before ++ after →
      s'.world.disk =
        (gone.flatMap fun batch => batch.units.filterMap (·.localPath)).foldl Disk.discard
          s.world.disk →
      Signalled s.world.services s'.world.services → s'.ids = s.ids → Shift s s' action
  | picked {id : String} {sources : List Path} {before after : List OutgoingBatch}
      {draft : Draft OutgoingUnit} {batch : OutgoingBatch} :
      draft.units = (s.ids.drawFor sources).1.map (fun (id, source) => .ofPath id source) →
      draft.build (s.ids.drawFor sources).2.draw.1.text = .ok batch →
      s.outgoing = before ++ after → s'.outgoing = before ++ batch :: after →
      s'.world = s.world → s'.ids = (s.ids.drawFor sources).2.draw.2 →
      Shift s s' (.createBatch id sources)
  | loaded {p : Endpoint} {batch : String} {found : OutgoingBatch}
      {before after : List OutgoingBatch} :
      s.table.find? p.id = some p → p.outgoing? batch = some found →
      (Phase.runLoad s.settings found s.world.disk).1 ≠ .error .panicked →
      s.outgoing = before ++ found :: after →
      s'.outgoing = before ++ (Phase.runLoad s.settings found s.world.disk).2.1 :: after →
      s'.world = { s.world with disk := (Phase.runLoad s.settings found s.world.disk).2.2 } →
      s'.ids = s.ids → Shift s s' (.loadBatch p.id batch)
  | staged {p : Endpoint} {batch : String} {found : OutgoingBatch}
      {before after : List OutgoingBatch} :
      s.table.find? p.id = some p → p.outgoing? batch = some found →
      (Phase.runStage s.settings found s.world).1 ≠ .error .panicked →
      s.outgoing = before ++ found :: after →
      s'.outgoing = before ++ (Phase.runStage s.settings found s.world).2.1 :: after →
      s'.world = (Phase.runStage s.settings found s.world).2.2 →
      s'.ids = s.ids → Shift s s' (.stageBatch p.id batch)
  | downloaded {p : Endpoint} {batch : String} {found : IncomingBatch} :
      s.table.find? p.id = some p → p.incoming? batch = some found →
      s'.outgoing = s.outgoing → s'.world = (Phase.runDownload s.settings found s.world).2.2 →
      s'.ids = s.ids → Shift s s' (.downloadBatch p.id batch)

variable {s s' : Session σ} {action : Action σ} {id : String} {p q : Endpoint}

theorem Shift.refl : Shift s s action :=
  .idle rfl rfl .silent (.refl s.ids)

/-! ## Batches that are let go of -/

/-- The action may put a batch among the outgoing ones, or make another of one. -/
def Action.Prepares : Action σ → Prop
  | .createBatch _ _ | .loadBatch _ _ | .stageBatch _ _ => True
  | _ => False

/-- An endpoint keeps its outgoing batches, or it lets go of the one that was delivered. -/
theorem Turn.outgoing_cases {failure? : Option Failure} (h : Turn s p action failure? q)
    (hprepares : ¬action.Prepares) :
    q.outgoing = p.outgoing ∨
      ∃ payload total transferred before found after,
        action = .handle (.payloadProgress p.id payload .success total transferred) ∧
        p.payload? payload = none ∧ p.inFlight = some found.id ∧
        p.outgoing = before ++ found :: after ∧ q.outgoing = before ++ after := by
  cases h with
  | picked | loaded | staged => exact absurd trivial hprepares
  | @ended payload batch status total transferred hpayload hflight hstatus =>
    cases status with
    | inProgress => exact absurd rfl hstatus
    | canceled | failure => exact .inl rfl
    | success =>
      rcases exists_or_eq_self_of_eraseP (·.id = batch) p.outgoing with
        hsame | ⟨found, before, after, -, hid, hsplit, herase⟩
      · exact .inl hsame
      · obtain rfl : found.id = batch := by simpa using hid
        exact .inr ⟨payload, total, transferred, before, found, after, rfl, hpayload, hflight,
          hsplit, herase⟩
  | _ => exact .inl rfl

section Operations

variable (hdistinct : s.table.Distinct)

include hdistinct

omit [Services σ] in
theorem outgoing_focus (hfind : s.table.find? p.id = some p) (hid : q.id = p.id)
    (houtgoing : q.outgoing = p.outgoing) (notices : List Notice) :
    (s.focus q notices).outgoing = s.outgoing := by
  obtain ⟨before, after, hsplit, hfocus, -⟩ := exists_outgoing_split hdistinct hfind
  exact (hfocus q hid notices).trans (by rw [houtgoing, hsplit])

/-- An action that prepares nothing, takes no endpoint out and leaves the disk alone is idle, or a
batch was delivered. -/
theorem shift_of_disk (hprepares : ¬action.Prepares) (hparts : ¬action.Parts)
    (hends : Signalled s.world.services (action.run s).world.services ∧
      s.ids.Precedes (action.run s).ids ∧ (action.run s).world.disk = s.world.disk) :
    Shift s (action.run s) action := by
  obtain ⟨hservices, hids, hdisk⟩ := hends
  cases action.effect hdistinct with
  | kept hendpoints => exact .idle (outgoing_eq_of_endpoints hendpoints) hdisk hservices hids
  | @turned p q hfind hturn hendpoints =>
    obtain ⟨first, last, hsplit, hfocus, -⟩ := exists_outgoing_split hdistinct hfind
    have houtgoing : (action.run s).outgoing = first ++ q.outgoing ++ last := by
      rw [outgoing, hendpoints, hfocus _ hturn.id_eq]
    rcases hturn.outgoing_cases hprepares with
      hsame | ⟨payload, total, transferred, before, found, after, heq, hpayload, hflight, hp, hq⟩
    · exact .idle (by rw [houtgoing, hsame, hsplit]) hdisk hservices hids
    · have hbefore : s.outgoing = first ++ before ++ [found] ++ (after ++ last) := by
        rw [hsplit, hp]
        simp
      have hafter : (action.run s).outgoing = first ++ before ++ (after ++ last) := by
        rw [houtgoing, hq]
        simp
      subst heq
      exact .delivered hfind hpayload hflight (hp ▸ mem_append_right before mem_cons_self) hbefore
        hafter hdisk hservices hids
  | @added e name _ hnew hendpoints =>
    have hnone : e.outgoing = [] := by
      rcases hnew with ⟨medium, -, hnew⟩ | ⟨-, hnew⟩ <;> rw [hnew] <;> rfl
    refine .idle ?_ hdisk hservices hids
    rw [outgoing, hendpoints, flatMap_append, flatMap_singleton, hnone, append_nil]
    rfl
  | removed _ _ _ _ hparted => exact absurd hparted hparts

theorem shift_of_world (hprepares : ¬action.Prepares) (hparts : ¬action.Parts)
    (hworld : (action.run s).world = s.world) (hids : s.ids.Precedes (action.run s).ids) :
    Shift s (action.run s) action :=
  shift_of_disk hdistinct hprepares hparts ⟨hworld ▸ .silent, hids, by rw [hworld]⟩

/-- An action on an endpoint leaves the disk alone, or the endpoint goes with its batches and their
copies are deleted. -/
theorem shift_of_find? (hfind : s.table.find? p.id = some p)
    (hends : Signalled s.world.services (action.run s).world.services ∧
      (action.run s).ids = s.ids ∧
      ((action.run s).outgoing = s.outgoing ∧ (action.run s).world.disk = s.world.disk ∨
        (action.run s).table.endpoints = s.table.endpoints.filter (·.id ≠ p.id) ∧
          (action.run s).world.disk = p.localCopies.foldl Disk.discard s.world.disk)) :
    Shift s (action.run s) action := by
  obtain ⟨hservices, hids, ⟨houtgoing, hdisk⟩ | ⟨hendpoints, hdisk⟩⟩ := hends
  · exact .idle houtgoing hdisk hservices (hids ▸ .refl s.ids)
  · obtain ⟨before, after, hsplit, -, hothers⟩ := exists_outgoing_split hdistinct hfind
    exact .forgot hsplit (by rw [outgoing, hendpoints, hothers]) hdisk hservices hids

/-! ## Connections -/

theorem shift_connect (id : String) : Shift s ((Action.connect id).run s) (.connect id) := by
  cases hfind : s.table.find? id with
  | none =>
    have hrun : (Action.connect id).run s = _ := congrArg Prod.snd (run_connect_of_unknown hfind)
    rw [hrun]
    exact .refl
  | some p =>
    obtain rfl : p.id = id := id_of_find? hfind
    have hrun : (Action.connect p.id).run s = _ := congrArg Prod.snd (run_connect hdistinct hfind)
    refine shift_of_find? hdistinct hfind ?_
    rw [hrun]
    have hsame (state : EndpointState) (notices : List Notice) :=
      outgoing_focus hdistinct hfind (q := { p with state }) rfl rfl notices
    by_cases hstate : p.state = .discovered
    · rw [if_pos hstate]
      dsimp only
      split
      · exact ⟨.connect _, rfl, .inl ⟨hsame _ _, rfl⟩⟩
      · split_ifs
        · exact ⟨.connect _, rfl, .inr ⟨endpoints_without_focus s.table (by rfl) _, rfl⟩⟩
        · exact ⟨.connect _, rfl, .inl ⟨hsame _ _, rfl⟩⟩
    · rw [if_neg hstate]
      exact ⟨.silent, rfl, .inl ⟨rfl, rfl⟩⟩

theorem shift_disconnect (id : String) :
    Shift s ((Action.disconnect id).run s) (.disconnect id) := by
  cases hfind : s.table.find? id with
  | none =>
    have hrun : (Action.disconnect id).run s = _ :=
      congrArg Prod.snd (run_disconnect_of_unknown hfind)
    rw [hrun]
    exact .refl
  | some p =>
    obtain rfl : p.id = id := id_of_find? hfind
    have hrun : (Action.disconnect p.id).run s = _ :=
      congrArg Prod.snd (run_disconnect hdistinct hfind)
    refine shift_of_find? hdistinct hfind ?_
    rw [hrun]
    split_ifs
    · dsimp only
      split
      · exact ⟨.disconnect _, rfl, .inr ⟨endpoints_without_focus s.table (by rfl) _, rfl⟩⟩
      · exact ⟨.disconnect _, rfl, .inl ⟨outgoing_focus hdistinct hfind (by rfl) rfl _, rfl⟩⟩
    · exact ⟨.silent, rfl, .inl ⟨rfl, rfl⟩⟩

/-! ## Transfers -/

theorem shift_createBatch (id : String) (sources : List Path) :
    Shift s ((Action.createBatch id sources).run s) (.createBatch id sources) := by
  cases hfind : s.table.find? id with
  | none =>
    have hrun : (Action.createBatch id sources).run s = _ :=
      congrArg Prod.snd (run_createBatch_of_unknown hfind sources)
    rw [hrun]
    exact .refl
  | some p =>
    obtain rfl : p.id = id := id_of_find? hfind
    have hrun : (Action.createBatch p.id sources).run s = _ :=
      congrArg Prod.snd (run_createBatch hdistinct hfind sources)
    rw [hrun]
    dsimp only
    split
    · have hprecedes := (IdSource.precedes_drawFor sources s.ids).trans (IdSource.precedes_draw _)
      exact .idle rfl rfl .silent hprecedes
    · next batch hbuild =>
      obtain ⟨before, after, hsplit, hfocus, -⟩ := exists_outgoing_split hdistinct hfind
      have hadded := hfocus (p.addOutgoing batch) rfl []
      refine .picked rfl hbuild hsplit (hadded.trans ?_) rfl rfl
      rw [Endpoint.addOutgoing, ← append_assoc, append_assoc, singleton_append]

theorem shift_receiveDescriptor (id : String) (descriptor : Descriptor) :
    Shift s ((Action.receiveDescriptor id descriptor).run s)
      (.receiveDescriptor id descriptor) := by
  cases hfind : s.table.find? id with
  | none =>
    have hrun : (Action.receiveDescriptor id descriptor).run s = _ :=
      congrArg Prod.snd (run_receiveDescriptor_of_unknown hfind descriptor)
    rw [hrun]
    exact .refl
  | some p =>
    obtain rfl : p.id = id := id_of_find? hfind
    have hrun : (Action.receiveDescriptor p.id descriptor).run s = _ :=
      congrArg Prod.snd (run_receiveDescriptor hdistinct hfind descriptor)
    refine shift_of_disk hdistinct not_false not_false ?_
    rw [hrun]
    split_ifs
    · exact ⟨.silent, .refl s.ids, rfl⟩
    · split <;> exact ⟨.silent, .refl s.ids, rfl⟩

omit [Services σ] in
/-- A phase of an outgoing batch that is refused or does not end changes nothing, and any other puts
what it has made of the batch in its place. -/
theorem shift_runOutgoing
    (run : Settings → OutgoingBatch → World σ →
      Except Failure PhaseReport × OutgoingBatch × World σ) (id batch : String)
    (hid : ∀ p found, s.table.find? id = some p → p.outgoing? batch = some found →
      (run s.settings found s.world).1 ≠ .error .panicked →
      (run s.settings found s.world).2.1.id = found.id) :
    (runOutgoing run id batch).after s = s ∨
      ∃ p found before after, s.table.find? p.id = some p ∧ p.id = id ∧
        p.outgoing? batch = some found ∧
        (run s.settings found s.world).1 ≠ .error .panicked ∧
        s.outgoing = before ++ found :: after ∧
        ((runOutgoing run id batch).after s).outgoing =
          before ++ (run s.settings found s.world).2.1 :: after ∧
        ((runOutgoing run id batch).after s).world = (run s.settings found s.world).2.2 ∧
        ((runOutgoing run id batch).after s).ids = s.ids := by
  cases hfind : s.table.find? id with
  | none =>
    rw [after_runOutgoing_of_unknown hfind]
    exact .inl rfl
  | some p =>
    obtain rfl : p.id = id := id_of_find? hfind
    rw [after_runOutgoing hdistinct hfind]
    cases hfound : p.outgoing? batch with
    | none => exact .inl rfl
    | some found =>
      dsimp only
      split_ifs with hstate hpanic
      · exact .inl rfl
      · obtain ⟨before, after, hsplit, hfocus, -⟩ := exists_outgoing_split hdistinct hfind
        obtain ⟨first, last, hbatches, -, hreplace⟩ := exists_replaceFirst hfound
        refine .inr ⟨p, found, before ++ first, last ++ after, hfind, rfl, hfound, hpanic, ?_, ?_,
          rfl, rfl⟩
        · rw [hsplit, hbatches]
          simp
        · refine (hfocus _ (by rfl) _).trans ?_
          have hset := hreplace _ (hid p found hfind hfound hpanic)
          change before ++ replaceFirst Batch.id _ p.outgoing ++ after = _
          rw [hset]
          simp
      · exact .inl rfl

theorem shift_downloadBatch (id batch : String) :
    Shift s ((Action.downloadBatch id batch).run s) (.downloadBatch id batch) := by
  cases hfind : s.table.find? id with
  | none =>
    have hrun : (Action.downloadBatch id batch).run s = _ :=
      after_downloadBatch_of_unknown hfind batch
    rw [hrun]
    exact .refl
  | some p =>
    obtain rfl : p.id = id := id_of_find? hfind
    have hrun : (Action.downloadBatch p.id batch).run s = _ :=
      after_downloadBatch hdistinct hfind batch
    rw [hrun]
    cases hfound : p.incoming? batch with
    | none => exact .refl
    | some found =>
      dsimp only
      split_ifs
      · exact .refl
      · obtain ⟨before, after, hsplit, hfocus, -⟩ := exists_outgoing_split hdistinct hfind
        exact .downloaded hfind hfound ((hfocus _ (by rfl) _).trans hsplit.symm) rfl rfl
      · exact .refl

theorem shift_sendBatch (id batch : String) :
    Shift s ((Action.sendBatch id batch).run s) (.sendBatch id batch) := by
  cases hfind : s.table.find? id with
  | none =>
    have hrun : (Action.sendBatch id batch).run s = _ :=
      congrArg Prod.snd (run_sendBatch_of_unknown hfind batch)
    rw [hrun]
    exact .refl
  | some p =>
    obtain rfl : p.id = id := id_of_find? hfind
    have hrun : (Action.sendBatch p.id batch).run s = _ :=
      congrArg Prod.snd (run_sendBatch hdistinct hfind batch)
    refine shift_of_disk hdistinct not_false not_false ?_
    rw [hrun]
    split
    · exact ⟨.silent, .refl s.ids, rfl⟩
    · next found _ =>
      by_cases hstaged : found.state ≠ OutgoingState.staged
      · rw [if_pos hstaged]
        exact ⟨.silent, .refl s.ids, rfl⟩
      rw [if_neg hstaged]
      split
      · exact ⟨.silent, .refl s.ids, rfl⟩
      · split_ifs
        · dsimp only
          split <;> exact ⟨.send _ _, .refl s.ids, rfl⟩
        · exact ⟨.silent, .refl s.ids, rfl⟩

/-! ## Events -/

omit [Services σ] in
omit hdistinct in
theorem exists_table_move (change : Table → Except Failure Table) :
    ∃ table, ((move change).run s).2 = { s with table } := by
  cases htable : change s.table with
  | error failure =>
    rw [run_move_of_error htable]
    exact ⟨s.table, rfl⟩
  | ok table =>
    rw [run_move_of_ok htable]
    exact ⟨table, rfl⟩

theorem shift_of_move {change : Table → Except Failure Table} (hprepares : ¬action.Prepares)
    (hparts : ¬action.Parts) (hrun : action.run s = ((move change).run s).2) :
    Shift s (action.run s) action := by
  obtain ⟨table, htable⟩ := exists_table_move (s := s) change
  rw [htable] at hrun
  exact shift_of_world hdistinct hprepares hparts (by rw [hrun]) (by rw [hrun]; exact .refl s.ids)

theorem shift_of_remove (hrun : action.run s = ((moveAndDiscard (·.remove id)).run s).2) :
    Shift s (action.run s) action := by
  cases hfind : s.table.find? id with
  | none =>
    rw [run_moveAndDiscard_of_error (remove_of_unknown hfind)] at hrun
    rw [hrun]
    exact .refl
  | some p =>
    obtain rfl : p.id = id := id_of_find? hfind
    rw [run_moveAndDiscard_of_ok (remove_of_find? hfind)] at hrun
    refine shift_of_find? hdistinct hfind ?_
    rw [hrun]
    exact ⟨.silent, rfl, .inr ⟨rfl, rfl⟩⟩

theorem shift_reject (id : String) :
    Shift s ((Action.handle (.connectionRejected id)).run s)
      (.handle (.connectionRejected id)) := by
  have hrun : (Action.handle (.connectionRejected id)).run s =
      ((moveAndDiscard (·.reject id)).run s).2 := rfl
  cases hfind : s.table.find? id with
  | none =>
    rw [run_moveAndDiscard_of_error (abandonPending_of_unknown hfind _)] at hrun
    rw [hrun]
    exact .refl
  | some p =>
    obtain rfl : p.id = id := id_of_find? hfind
    refine shift_of_find? hdistinct hfind ?_
    have habandon : s.table.reject p.id = _ := abandonPending_of_find? hdistinct hfind _
    split_ifs at habandon
    · rw [run_moveAndDiscard_of_ok habandon] at hrun
      rw [hrun]
      exact ⟨.silent, rfl, .inr ⟨rfl, rfl⟩⟩
    · rw [run_moveAndDiscard_of_ok habandon] at hrun
      rw [hrun]
      have hsame := outgoing_focus hdistinct hfind (q := { p with state := .discovered }) rfl rfl
      exact ⟨.silent, rfl, .inl ⟨hsame _, rfl⟩⟩
    · rw [run_moveAndDiscard_of_error habandon] at hrun
      rw [hrun]
      exact ⟨.silent, rfl, .inl ⟨rfl, rfl⟩⟩

theorem shift_handle (event : Event) :
    Shift s ((Action.handle event).run s) (.handle event) := by
  cases event with
  | endpointLost | disconnected => exact shift_of_remove hdistinct rfl
  | connectionRejected id => exact shift_reject hdistinct id
  | distanceChanged => exact .refl
  | payloadProgress id payload status total transferred =>
    have hids := onlyDraws_handle (.payloadProgress id payload status total transferred) s
    refine shift_of_world hdistinct not_false not_false ?_ hids
    change ((handle (.payloadProgress id payload status total transferred)).run s).2.world = _
    unfold handle
    dsimp only
    split_ifs
    · rfl
    · cases hfind : s.table.find? id with
      | none => rw [run_finishPayload_of_unknown hfind]
      | some p =>
        obtain ⟨q, notices, source, hrun, -⟩ :=
          exists_focus_finishPayload hdistinct hfind payload status
        rw [hrun]
        rfl
  | _ => exact shift_of_move hdistinct not_false not_false rfl

end Operations

section Phases

variable (hdistinct : s.table.Distinct) (hsound : ∀ batch ∈ s.outgoing, batch.SoundOutgoing)

include hdistinct hsound

theorem shift_loadBatch (id batch : String) :
    Shift s ((Action.loadBatch id batch).run s) (.loadBatch id batch) := by
  have hends := shift_runOutgoing hdistinct (fun settings batch world =>
    let ended := Phase.runLoad settings batch world.disk
    (ended.1, ended.2.1, { world with disk := ended.2.2 })) id batch
    fun p found hp hfound hended => by
      have hbatch := hsound found (mem_outgoing_of_find? hp hfound)
      exact (Phase.allOrNothing_runLoad s.world.disk hbatch.unit_ids
        (Phase.of_not_panicked_runLoad hended)).id_eq
  rcases hends with hself | ⟨p, found, before, after, hfind, rfl, hfound, hended, hsplit, hrun⟩
  · have hrun : (Action.loadBatch id batch).run s = s := hself
    rw [hrun]
    exact .refl
  · exact .loaded hfind hfound hended hsplit hrun.1 hrun.2.1 hrun.2.2

theorem shift_stageBatch (id batch : String) :
    Shift s ((Action.stageBatch id batch).run s) (.stageBatch id batch) := by
  have hends := shift_runOutgoing hdistinct Phase.runStage id batch
    fun p found hp hfound hended => by
      have hbatch := hsound found (mem_outgoing_of_find? hp hfound)
      exact (Phase.allOrNothing_runStage s.world hbatch.unit_ids hbatch.coherent
        (Phase.of_not_panicked_runStage hbatch.coherent hended)).id_eq
  rcases hends with hself | ⟨p, found, before, after, hfind, rfl, hfound, hended, hsplit, hrun⟩
  · have hrun : (Action.stageBatch id batch).run s = s := hself
    rw [hrun]
    exact .refl
  · exact .staged hfind hfound hended hsplit hrun.1 hrun.2.1 hrun.2.2

/-- Whatever an action does to outgoing batches and to the world, `Shift` tells it. -/
theorem Action.shift (action : Action σ) : Shift s (action.run s) action := by
  cases action with
  | outside world => exact .outside world rfl
  | notify | emptyQueue => exact shift_of_world hdistinct not_false not_false rfl (.refl s.ids)
  | next =>
    rw [Action.run_next]
    unfold next?
    split
    · exact .refl
    · exact .idle rfl rfl .silent (.refl s.ids)
  | subscribe | unsubscribe | select => exact shift_of_move hdistinct not_false not_false rfl
  | connect id => exact shift_connect hdistinct id
  | disconnect id => exact shift_disconnect hdistinct id
  | createBatch id sources => exact shift_createBatch hdistinct id sources
  | loadBatch id batch => exact shift_loadBatch hdistinct hsound id batch
  | stageBatch id batch => exact shift_stageBatch hdistinct hsound id batch
  | sendBatch id batch => exact shift_sendBatch hdistinct id batch
  | receiveDescriptor id descriptor => exact shift_receiveDescriptor hdistinct id descriptor
  | downloadBatch id batch => exact shift_downloadBatch hdistinct id batch
  | handle event => exact shift_handle hdistinct event

end Phases

end PeerTransfer.Session
