import PeerTransfer.Proofs.Phase.Frame
import PeerTransfer.Proofs.Session.Pending

/-!
# The files that an action lays hands on

An action writes and deletes no files but those of the batch that it runs a phase of, and the local
copies of an endpoint that it may forget (`Action.footprint`). All others it leaves as they are,
whether it succeeds or fails (`Action.spares_run`).
-/

namespace PeerTransfer.Session

open List Table Act

variable {σ : Type}

/-- The units of an outgoing batch, if the endpoint has it. -/
def outgoingUnits (s : Session σ) (id batch : String) : List OutgoingUnit :=
  ((s.table.find? id).bind (·.outgoing? batch)).elim [] (·.units)

/-- The units of an incoming batch, if the endpoint has it. -/
def incomingUnits (s : Session σ) (id batch : String) : List IncomingUnit :=
  ((s.table.find? id).bind (·.incoming? batch)).elim [] (·.units)

/-- The local copies that are left without owner when an endpoint is forgotten. -/
def copiesOf (s : Session σ) (id : String) : List Path :=
  (s.table.find? id).elim [] (·.localCopies)

/-- The files that an action may write or delete. -/
def Action.footprint (s : Session σ) : Action σ → List Path
  | .loadBatch id batch =>
    ((s.outgoingUnits id batch).filter (·.state = .picked)).map
      (·.targetIn s.settings.stagingFolder)
  | .stageBatch id batch =>
    ((s.outgoingUnits id batch).filter (·.state = .loaded)).filterMap (·.localPath)
  | .downloadBatch id batch =>
    ((s.incomingUnits id batch).filter (·.state = .received)).map
      (·.targetIn s.settings.downloadFolder)
  | .connect id | .disconnect id => s.copiesOf id
  | .handle (.endpointLost id) | .handle (.disconnected id) | .handle (.connectionRejected id) =>
    s.copiesOf id
  | _ => []

variable {Kept : σ → Prop} {path : Path} {limit : Nat} {s : Session σ}

theorem copiesOf_of_find? {id : String} {p : Endpoint} (h : s.table.find? id = some p) :
    s.copiesOf id = p.localCopies := by
  rw [copiesOf, h]
  rfl

theorem outgoingUnits_of_find? {id batch : String} {p : Endpoint} {found : OutgoingBatch}
    (hp : s.table.find? id = some p) (hfound : p.outgoing? batch = some found) :
    s.outgoingUnits id batch = found.units := by
  rw [outgoingUnits, hp, Option.bind_some, hfound]
  rfl

theorem incomingUnits_of_find? {id batch : String} {p : Endpoint} {found : IncomingBatch}
    (hp : s.table.find? id = some p) (hfound : p.incoming? batch = some found) :
    s.incomingUnits id batch = found.units := by
  rw [incomingUnits, hp, Option.bind_some, hfound]
  rfl

/-! ## Connections -/

theorem spares_connect [Services σ] (hservices : Sparing Kept path) (hdistinct : s.table.Distinct)
    {id : String} (hne : ∀ copy ∈ s.copiesOf id, path.place ≠ copy.place)
    (hkept : Kept s.world.services) :
    s.world.Spares Kept path ((connect id).run s).2.world := by
  cases hfind : s.table.find? id with
  | none =>
    rw [run_connect_of_unknown hfind]
    exact .refl hkept
  | some p =>
    have hanswer := hservices.connect id s.world.services hkept
    rw [copiesOf_of_find? hfind] at hne
    rw [run_connect hdistinct hfind]
    by_cases hstate : p.state = .discovered
    · rw [if_pos hstate]
      dsimp only
      split
      · exact ⟨hanswer, .refl _ path⟩
      · split_ifs
        · exact ⟨hanswer, Disk.fileWithin_discardAll hne s.world.disk⟩
        · exact ⟨hanswer, .refl _ path⟩
    · rw [if_neg hstate]
      exact .refl hkept

theorem spares_disconnect [Services σ] (hservices : Sparing Kept path)
    (hdistinct : s.table.Distinct) {id : String}
    (hne : ∀ copy ∈ s.copiesOf id, path.place ≠ copy.place) (hkept : Kept s.world.services) :
    s.world.Spares Kept path ((disconnect id).run s).2.world := by
  cases hfind : s.table.find? id with
  | none =>
    rw [run_disconnect_of_unknown hfind]
    exact .refl hkept
  | some p =>
    have hanswer := hservices.disconnect id s.world.services hkept
    rw [copiesOf_of_find? hfind] at hne
    rw [run_disconnect hdistinct hfind]
    split_ifs
    · dsimp only
      split
      · exact ⟨hanswer, Disk.fileWithin_discardAll hne s.world.disk⟩
      · exact ⟨hanswer, .refl _ path⟩
    · exact .refl hkept

/-! ## Transfers -/

theorem spares_createBatch (hdistinct : s.table.Distinct) (id : String) (sources : List Path)
    (hkept : Kept s.world.services) :
    s.world.Spares Kept path ((createBatch id sources).run s).2.world := by
  cases hfind : s.table.find? id with
  | none =>
    rw [run_createBatch_of_unknown hfind]
    exact .refl hkept
  | some p =>
    rw [run_createBatch hdistinct hfind]
    dsimp only
    split <;> exact .refl hkept

theorem spares_receiveDescriptor (hdistinct : s.table.Distinct) (id : String)
    (descriptor : Descriptor) (hkept : Kept s.world.services) :
    s.world.Spares Kept path ((receiveDescriptor id descriptor).run s).2.world := by
  cases hfind : s.table.find? id with
  | none =>
    rw [run_receiveDescriptor_of_unknown hfind]
    exact .refl hkept
  | some p =>
    rw [run_receiveDescriptor hdistinct hfind]
    split_ifs
    · exact .refl hkept
    · split <;> exact .refl hkept

theorem spares_runOutgoing
    {run : Settings → OutgoingBatch → World σ →
      Except Failure PhaseReport × OutgoingBatch × World σ}
    (hdistinct : s.table.Distinct) {id batch : String}
    (hrun : ∀ p found, s.table.find? id = some p → p.outgoing? batch = some found →
      s.world.Spares Kept path (run s.settings found s.world).2.2)
    (hkept : Kept s.world.services) :
    s.world.Spares Kept path ((runOutgoing run id batch).after s).world := by
  cases hfind : s.table.find? id with
  | none =>
    rw [after_runOutgoing_of_unknown hfind]
    exact .refl hkept
  | some p =>
    rw [after_runOutgoing hdistinct hfind]
    cases hfound : p.outgoing? batch with
    | none => exact .refl hkept
    | some found =>
      dsimp only
      split_ifs
      · exact .refl hkept
      · exact hrun p found hfind hfound
      · exact .refl hkept

theorem spares_loadBatch (h : s.Sound limit) {id batch : String}
    (hne : ∀ u ∈ s.outgoingUnits id batch, u.state = .picked →
      path.place ≠ (u.targetIn s.settings.stagingFolder).place) (hkept : Kept s.world.services) :
    s.world.Spares Kept path ((loadBatch id batch).after s).world := by
  refine spares_runOutgoing h.distinct (fun p found hp hfound => ⟨hkept, ?_⟩) hkept
  have hsound := (h.sound_of_find? hp).soundOutgoing (mem_of_find?_eq_some hfound)
  rw [outgoingUnits_of_find? hp hfound] at hne
  exact Phase.fileWithin_runLoad s.settings s.world.disk hsound.unit_ids hne

theorem spares_stageBatch [Services σ] (hservices : Sparing Kept path) (h : s.Sound limit)
    {id batch : String}
    (hne : ∀ u ∈ s.outgoingUnits id batch, u.state = .loaded → ∀ copy, u.localPath = some copy →
      path.place ≠ copy.place) (hkept : Kept s.world.services) :
    s.world.Spares Kept path ((stageBatch id batch).after s).world := by
  refine spares_runOutgoing h.distinct (fun p found hp hfound => ?_) hkept
  have hsound := (h.sound_of_find? hp).soundOutgoing (mem_of_find?_eq_some hfound)
  rw [outgoingUnits_of_find? hp hfound] at hne
  exact Phase.spares_runStage hservices s.settings hsound.unit_ids hsound.coherent hne hkept

theorem spares_downloadBatch [Services σ] (hservices : Sparing Kept path) (h : s.Sound limit)
    {id batch : String}
    (hne : ∀ u ∈ s.incomingUnits id batch, u.state = .received →
      path.place ≠ (u.targetIn s.settings.downloadFolder).place) (hkept : Kept s.world.services) :
    s.world.Spares Kept path ((downloadBatch id batch).after s).world := by
  cases hfind : s.table.find? id with
  | none =>
    rw [after_downloadBatch_of_unknown hfind]
    exact .refl hkept
  | some p =>
    rw [after_downloadBatch h.distinct hfind]
    cases hfound : p.incoming? batch with
    | none => exact .refl hkept
    | some found =>
      dsimp only
      split_ifs
      · exact .refl hkept
      · have hsound := (h.sound_of_find? hfind).soundIncoming (mem_of_find?_eq_some hfound)
        rw [incomingUnits_of_find? hfind hfound] at hne
        exact Phase.spares_runDownload hservices s.settings hsound.unfetched hne hkept
      · exact .refl hkept

theorem spares_sendBatch [Services σ] (hservices : Sparing Kept path)
    (hdistinct : s.table.Distinct) (id batch : String) (hkept : Kept s.world.services) :
    s.world.Spares Kept path ((sendBatch id batch).run s).2.world := by
  cases hfind : s.table.find? id with
  | none =>
    rw [run_sendBatch_of_unknown hfind]
    exact .refl hkept
  | some p =>
    rw [run_sendBatch hdistinct hfind]
    cases p.outgoing? batch with
    | none => exact .refl hkept
    | some found =>
      dsimp only
      by_cases hstaged : found.state ≠ OutgoingState.staged
      · rw [if_pos hstaged]
        exact .refl hkept
      rw [if_neg hstaged]
      split
      · exact .refl hkept
      · next payload _ =>
        have hanswer := hservices.send id payload s.world.services hkept
        split_ifs
        · split <;> exact ⟨hanswer, .refl _ path⟩
        · exact .refl hkept

/-! ## Events -/

theorem spares_move (change : Table → Except Failure Table) (hkept : Kept s.world.services) :
    s.world.Spares Kept path ((move change).run s).2.world := by
  cases htable : change s.table with
  | error failure =>
    rw [run_move_of_error htable]
    exact .refl hkept
  | ok table =>
    rw [run_move_of_ok htable]
    exact .refl hkept

theorem spares_moveAndDiscard {change : Table → Except Failure (List Path × Table)}
    (hne : ∀ copies table, change s.table = .ok (copies, table) →
      ∀ copy ∈ copies, path.place ≠ copy.place) (hkept : Kept s.world.services) :
    s.world.Spares Kept path ((moveAndDiscard change).run s).2.world := by
  cases htable : change s.table with
  | error failure =>
    rw [run_moveAndDiscard_of_error htable]
    exact .refl hkept
  | ok answer =>
    obtain ⟨copies, table⟩ := answer
    rw [run_moveAndDiscard_of_ok htable]
    exact ⟨hkept, Disk.fileWithin_discardAll (hne copies table htable) s.world.disk⟩

theorem spares_remove {id : String} (hne : ∀ copy ∈ s.copiesOf id, path.place ≠ copy.place)
    (hkept : Kept s.world.services) :
    s.world.Spares Kept path ((moveAndDiscard (·.remove id)).run s).2.world := by
  refine spares_moveAndDiscard (fun copies table htable => ?_) hkept
  cases hfind : s.table.find? id with
  | none =>
    rw [remove_of_unknown hfind] at htable
    cases htable
  | some p =>
    rw [remove_of_find? hfind] at htable
    cases htable
    rwa [copiesOf_of_find? hfind] at hne

theorem spares_reject (hdistinct : s.table.Distinct) {id : String}
    (hne : ∀ copy ∈ s.copiesOf id, path.place ≠ copy.place) (hkept : Kept s.world.services) :
    s.world.Spares Kept path ((moveAndDiscard (·.reject id)).run s).2.world := by
  refine spares_moveAndDiscard (fun copies table htable => ?_) hkept
  unfold Table.reject at htable
  cases hfind : s.table.find? id with
  | none =>
    rw [abandonPending_of_unknown hfind] at htable
    cases htable
  | some p =>
    rw [abandonPending_of_find? hdistinct hfind] at htable
    rw [copiesOf_of_find? hfind] at hne
    split_ifs at htable
    · cases htable
      exact hne
    · cases htable
      rintro copy ⟨⟩

theorem spares_finishPayload (hdistinct : s.table.Distinct) (id : String) (payload : Int)
    (status : PayloadStatus) (hkept : Kept s.world.services) :
    s.world.Spares Kept path ((finishPayload id payload status).run s).2.world := by
  cases hfind : s.table.find? id with
  | none =>
    rw [run_finishPayload_of_unknown hfind]
    exact .refl hkept
  | some p =>
    obtain ⟨q, notices, source, hrun, -⟩ :=
      exists_focus_finishPayload hdistinct hfind payload status
    rw [hrun]
    exact .refl hkept

/-- Events touch no file but the copies of an endpoint that goes. -/
theorem spares_handle (hdistinct : s.table.Distinct) (event : Event)
    (hne : ∀ file ∈ (Action.handle event : Action σ).footprint s, path.place ≠ file.place)
    (hkept : Kept s.world.services) :
    s.world.Spares Kept path ((handle event).run s).2.world := by
  cases event with
  | endpointLost id => exact spares_remove hne hkept
  | disconnected id => exact spares_remove hne hkept
  | connectionRejected id => exact spares_reject hdistinct hne hkept
  | distanceChanged id distance => exact .refl hkept
  | payloadProgress id payload status total transferred =>
    unfold handle
    dsimp only
    split_ifs
    · exact .refl hkept
    · exact spares_finishPayload hdistinct id payload status hkept
  | _ => exact spares_move _ hkept

variable [Services σ]

/-- An action leaves every file alone that stands elsewhere than those in its footprint. -/
theorem Action.spares_run (hservices : Sparing Kept path) (h : s.Sound limit) {action : Action σ}
    (hne : ∀ file ∈ action.footprint s, path.place ≠ file.place)
    (houtside : ∀ world, action = .outside world → s.world.Spares Kept path world)
    (hkept : Kept s.world.services) : s.world.Spares Kept path (action.run s).world := by
  cases action with
  | outside world => exact houtside world rfl
  | next =>
    rw [Action.run_next]
    unfold next?
    split <;> exact .refl hkept
  | select id => exact spares_move _ hkept
  | connect id => exact spares_connect hservices h.distinct hne hkept
  | disconnect id => exact spares_disconnect hservices h.distinct hne hkept
  | createBatch id sources => exact spares_createBatch h.distinct id sources hkept
  | loadBatch id batch =>
    refine spares_loadBatch h (fun u hu hstate => hne _ ?_) hkept
    exact mem_map_of_mem (mem_filter.2 ⟨hu, decide_eq_true hstate⟩)
  | stageBatch id batch =>
    refine spares_stageBatch hservices h (fun u hu hstate copy hcopy => hne _ ?_) hkept
    exact mem_filterMap.2 ⟨u, mem_filter.2 ⟨hu, decide_eq_true hstate⟩, hcopy⟩
  | sendBatch id batch => exact spares_sendBatch hservices h.distinct id batch hkept
  | receiveDescriptor id descriptor =>
    exact spares_receiveDescriptor h.distinct id descriptor hkept
  | downloadBatch id batch =>
    refine spares_downloadBatch hservices h (fun u hu hstate => hne _ ?_) hkept
    exact mem_map_of_mem (mem_filter.2 ⟨hu, decide_eq_true hstate⟩)
  | handle event => exact spares_handle h.distinct event hne hkept
  | notify | emptyQueue | subscribe | unsubscribe => exact .refl hkept

end PeerTransfer.Session
