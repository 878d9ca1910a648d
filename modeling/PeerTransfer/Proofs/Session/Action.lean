import PeerTransfer.Proofs.Session.Draws
import PeerTransfer.Proofs.Session.Reachable

/-!
# Sessions act by act

What happens to a session, one thing at a time: `Action` lists it, `Action.run` says what session it
leads to. Pumping is not among the actions. It takes all events off the queue and then handles one
after the other, and whoever asks what goes on in between has to look at those (`steps_pump`). With
that, the sessions that come about are those to which actions lead (`reachable_iff_started`).

A history lists actions, and `Session.after` is the session that it leads to. The histories of peers
that are accepted and of batches that are offered to them are at the end.
-/

namespace PeerTransfer.Session

open List

variable {σ : Type}

/-- What can happen to a session in one go. -/
inductive Action (σ : Type) where
  | outside (world : World σ)
  | notify (event : Event)
  | next
  | emptyQueue
  | subscribe (subscriber : Subscriber)
  | unsubscribe (subscriber : String)
  | select (endpoint : String)
  | connect (endpoint : String)
  | disconnect (endpoint : String)
  | createBatch (endpoint : String) (sources : List Path)
  | loadBatch (endpoint batch : String)
  | stageBatch (endpoint batch : String)
  | sendBatch (endpoint batch : String)
  | receiveDescriptor (endpoint : String) (descriptor : Descriptor)
  | downloadBatch (endpoint batch : String)
  | handle (event : Event)

variable [Services σ]

/-- The session after an action, whether or not the action has succeeded. Phases may panic, and then
have not ended. -/
def Action.run : Action σ → Session σ → Session σ
  | .outside world, s => { s with world }
  | .notify event, s => s.notify event
  | .next, s => (s.next?.map Prod.snd).getD s
  | .emptyQueue, s => { s with queue := [] }
  | .subscribe subscriber, s => ((Session.subscribe subscriber).run s).2
  | .unsubscribe subscriber, s => ((Session.unsubscribe subscriber).run s).2
  | .select endpoint, s => ((Session.select endpoint).run s).2
  | .connect endpoint, s => ((Session.connect endpoint).run s).2
  | .disconnect endpoint, s => ((Session.disconnect endpoint).run s).2
  | .createBatch endpoint sources, s => ((Session.createBatch endpoint sources).run s).2
  | .loadBatch endpoint batch, s => (Session.loadBatch endpoint batch).after s
  | .stageBatch endpoint batch, s => (Session.stageBatch endpoint batch).after s
  | .sendBatch endpoint batch, s => ((Session.sendBatch endpoint batch).run s).2
  | .receiveDescriptor endpoint descriptor, s =>
    ((Session.receiveDescriptor endpoint descriptor).run s).2
  | .downloadBatch endpoint batch, s => (Session.downloadBatch endpoint batch).after s
  | .handle event, s => ((Session.handle event).run s).2

/-- What is taken for granted of an action: no more ids are drawn than the limit says, and no
descriptor is received under an id that is yet to be drawn or with two keys for one unit. -/
def Action.Allowed (limit : Nat) (s : Session σ) : Action σ → Prop
  | .createBatch endpoint sources =>
    ((Session.createBatch endpoint sources).run s).2.ids.drawn ≤ limit
  | .receiveDescriptor _ descriptor =>
    (descriptor.units.keys.map Uuid.parse?).Nodup ∧ s.ids.IsFresh limit descriptor.batchId
  | .handle event => ((Session.handle event).run s).2.ids.drawn ≤ limit
  | _ => True

/-- Actions lead from one session to the other. -/
inductive Steps (limit : Nat) (s : Session σ) : Session σ → Prop
  | refl : Steps limit s s
  | act {s' : Session σ} (action : Action σ) :
      Steps limit s s' → action.Allowed limit s' → Steps limit s (action.run s')

variable {limit : Nat} {s s' s'' : Session σ}

theorem Action.run_next : Action.next.run s = (s.next?.map Prod.snd).getD s := rfl

/-- All that an action does to the source of ids is to draw from it. -/
theorem Action.precedes_run (action : Action σ) (s : Session σ) :
    s.ids.Precedes (action.run s).ids := by
  cases action with
  | outside | notify | emptyQueue => exact .refl s.ids
  | next =>
    rw [run_next]
    unfold next?
    split <;> exact .refl s.ids
  | subscribe | unsubscribe | select => exact onlyDraws_move _ s
  | connect endpoint => exact onlyDraws_connect endpoint s
  | disconnect endpoint => exact onlyDraws_disconnect endpoint s
  | createBatch endpoint sources => exact onlyDraws_createBatch endpoint sources s
  | loadBatch endpoint batch => exact (onlyDraws_runOutgoing _ endpoint batch).precedes_after s
  | stageBatch endpoint batch => exact (onlyDraws_runOutgoing _ endpoint batch).precedes_after s
  | sendBatch endpoint batch => exact onlyDraws_sendBatch endpoint batch s
  | receiveDescriptor endpoint descriptor => exact onlyDraws_receiveDescriptor endpoint descriptor s
  | downloadBatch endpoint batch => exact (onlyDraws_downloadBatch endpoint batch).precedes_after s
  | handle event => exact onlyDraws_handle event s

theorem Steps.trans (h : s.Steps limit s') (h' : s'.Steps limit s'') : s.Steps limit s'' := by
  induction h' with
  | refl => exact h
  | act action _ hallowed ih => exact .act action ih hallowed

theorem Reachable.withQueue {queue : List Event}
    (h : ({ s with queue } : Session σ).Reachable limit) :
    ({ s with queue := [] } : Session σ).Reachable limit := by
  induction queue with
  | nil => exact h
  | cons event rest ih =>
    have hrest : ({ s with queue := rest } : Session σ).Reachable limit := .next h rfl
    exact ih hrest

theorem Reachable.act (h : s.Reachable limit) {action : Action σ}
    (hallowed : action.Allowed limit s) : (action.run s).Reachable limit := by
  cases action with
  | outside world => exact .world world h
  | notify event => exact .notify event h
  | next =>
    rw [Action.run_next]
    cases hnext : s.next? with
    | none => exact h
    | some found => exact .next h hnext
  | emptyQueue => exact h.withQueue
  | subscribe subscriber => exact .subscribe subscriber h
  | unsubscribe subscriber => exact .unsubscribe subscriber h
  | select endpoint => exact .select endpoint h
  | connect endpoint => exact .connect endpoint h
  | disconnect endpoint => exact .disconnect endpoint h
  | createBatch endpoint sources => exact .createBatch endpoint sources h hallowed
  | loadBatch endpoint batch => exact Act.after_induction h (.loadBatch endpoint batch h)
  | stageBatch endpoint batch => exact Act.after_induction h (.stageBatch endpoint batch h)
  | sendBatch endpoint batch => exact .sendBatch endpoint batch h
  | receiveDescriptor endpoint descriptor =>
    exact .receiveDescriptor endpoint descriptor h hallowed.1 hallowed.2
  | downloadBatch endpoint batch => exact Act.after_induction h (.downloadBatch endpoint batch h)
  | handle event => exact .handle event h hallowed

theorem Reachable.steps (h : s.Reachable limit) (hsteps : s.Steps limit s') :
    s'.Reachable limit := by
  induction hsteps with
  | refl => exact h
  | act action _ hallowed ih => exact ih.act hallowed

/-! ## Pumping, act by act -/

theorem steps_handleAll {events : List Event} (h : (handleAll events s).ids.drawn ≤ limit) :
    s.Steps limit (handleAll events s) := by
  induction events generalizing s with
  | nil => exact .refl
  | cons event rest ih =>
    have hfirst : ((handle event).run s).2.ids.drawn ≤ limit :=
      (precedes_handleAll rest _).drawn_le.trans h
    have hact : s.Steps limit ((handle event).run s).2 := .act (.handle event) .refl hfirst
    exact hact.trans (ih h)

theorem steps_pump (h : s.pump.2.ids.drawn ≤ limit) : s.Steps limit s.pump.2 := by
  have hempty : s.Steps limit { s with queue := [] } := .act .emptyQueue .refl trivial
  exact hempty.trans (steps_handleAll h)

/-- Actions lead to the session from a new one. -/
def Started (limit : Nat) (s : Session σ) : Prop :=
  ∃ settings source world, ∃ new : Session σ, source.DistinctBelow limit ∧
    Session.start settings source world = .ok new ∧ new.Steps limit s

theorem Started.steps (h : s.Started limit) (hsteps : s.Steps limit s') : s'.Started limit := by
  obtain ⟨settings, source, world, new, hdistinct, hstart, hnew⟩ := h
  exact ⟨settings, source, world, new, hdistinct, hstart, hnew.trans hsteps⟩

theorem Started.act (h : s.Started limit) (action : Action σ) (hallowed : action.Allowed limit s) :
    (action.run s).Started limit :=
  h.steps (.act action .refl hallowed)

/-- The sessions that come about are those to which actions lead from a new one. -/
theorem reachable_iff_started : s.Reachable limit ↔ s.Started limit := by
  constructor
  · intro h
    induction h with
    | @start settings source world s hdistinct hstart =>
      exact ⟨settings, source, world, s, hdistinct, hstart, .refl⟩
    | world world _ ih => exact ih.act (.outside world) trivial
    | notify event _ ih => exact ih.act (.notify event) trivial
    | @next s s' event _ hnext ih =>
      have hact := ih.act .next trivial
      rwa [Action.run_next, hnext] at hact
    | subscribe subscriber _ ih => exact ih.act (.subscribe subscriber) trivial
    | unsubscribe subscriber _ ih => exact ih.act (.unsubscribe subscriber) trivial
    | select endpoint _ ih => exact ih.act (.select endpoint) trivial
    | connect endpoint _ ih => exact ih.act (.connect endpoint) trivial
    | disconnect endpoint _ ih => exact ih.act (.disconnect endpoint) trivial
    | createBatch endpoint sources _ hlimit ih =>
      exact ih.act (.createBatch endpoint sources) hlimit
    | loadBatch endpoint batch _ hended ih =>
      exact Act.after_of_ended hended ▸ ih.act (.loadBatch endpoint batch) trivial
    | stageBatch endpoint batch _ hended ih =>
      exact Act.after_of_ended hended ▸ ih.act (.stageBatch endpoint batch) trivial
    | sendBatch endpoint batch _ ih => exact ih.act (.sendBatch endpoint batch) trivial
    | receiveDescriptor endpoint descriptor _ hkeys hfresh ih =>
      exact ih.act (.receiveDescriptor endpoint descriptor) ⟨hkeys, hfresh⟩
    | downloadBatch endpoint batch _ hended ih =>
      exact Act.after_of_ended hended ▸ ih.act (.downloadBatch endpoint batch) trivial
    | handle event _ hlimit ih => exact ih.act (.handle event) hlimit
    | pump _ hlimit ih => exact ih.steps (steps_pump hlimit)
  · rintro ⟨settings, source, world, new, hdistinct, hstart, hsteps⟩
    exact (Reachable.start hdistinct hstart).steps hsteps

/-! ## Histories -/

/-- The session after actions, those that fail among them. -/
def after (s : Session σ) (history : List (Action σ)) : Session σ :=
  history.foldl (fun s action => action.run s) s

theorem after_concat (s : Session σ) (history : List (Action σ)) (action : Action σ) :
    s.after (history ++ [action]) = action.run (s.after history) := by
  unfold after
  rw [foldl_append, foldl_cons, foldl_nil]

/-- Pumping is one action after the other. -/
theorem pump_eq_after (s : Session σ) :
    s.pump.2 = s.after (.emptyQueue :: s.queue.map Action.handle) := by
  have hhandleAll : ∀ (events : List Event) (s : Session σ),
      handleAll events s = s.after (events.map Action.handle) := by
    intro events
    induction events with
    | nil => exact fun _ => rfl
    | cons event rest ih => exact fun s => ih _
  exact hhandleAll s.queue _

theorem precedes_after (s : Session σ) (history : List (Action σ)) :
    s.ids.Precedes (s.after history).ids := by
  induction history generalizing s with
  | nil => exact .refl s.ids
  | cons action rest ih => exact (action.precedes_run s).trans (ih _)

/-- Unless it receives a descriptor, all that is asked of an action is not to draw too many ids. -/
theorem Action.allowed_of_drawn {action : Action σ}
    (hnone : ∀ endpoint descriptor, action ≠ .receiveDescriptor endpoint descriptor)
    (hdrawn : (action.run s).ids.drawn ≤ limit) : action.Allowed limit s := by
  cases action with
  | createBatch | handle => exact hdrawn
  | receiveDescriptor endpoint descriptor => exact absurd rfl (hnone endpoint descriptor)
  | _ => trivial

theorem steps_after {history : List (Action σ)}
    (hnone : ∀ action ∈ history, ∀ endpoint descriptor,
      action ≠ .receiveDescriptor endpoint descriptor)
    (hlimit : (s.after history).ids.drawn ≤ limit) : s.Steps limit (s.after history) := by
  induction history generalizing s with
  | nil => exact .refl
  | cons action rest ih =>
    rw [forall_mem_cons] at hnone
    have hdrawn : (action.run s).ids.drawn ≤ limit :=
      (precedes_after (action.run s) rest).drawn_le.trans hlimit
    have hallowed := action.allowed_of_drawn hnone.1 hdrawn
    exact (Steps.act action .refl hallowed).trans (ih hnone.2 hlimit)

/-- A peer calls and is accepted. -/
def meeting (id name : String) : List (Action σ) :=
  [.handle (.connectionInitiated id name), .handle (.connectionAccepted id)]

/-- Files are picked for a peer, and the batch is loaded and staged. -/
def offering (id batch : String) (sources : List Path) : List (Action σ) :=
  [.createBatch id sources, .loadBatch id batch, .stageBatch id batch]

/-! ## New sessions with ids of one digit -/

/-- A new session that draws ids of one digit, the first of them for its listener. -/
def opened (settings : Settings) (world : World σ) : Session σ :=
  let (id, ids) := IdSource.repdigits.draw
  let listener := "session-" ++ id.text
  ⟨settings, Table.empty, [], listener, ids,
    { world with services := Services.register listener world.services }⟩

theorem start_repdigits {settings : Settings} (h : settings.validate = .ok ())
    (world : World σ) : Session.start settings .repdigits world = .ok (opened settings world) := by
  unfold Session.start
  rw [h]
  rfl

theorem reachable_after_opened {settings : Settings} {world : World σ}
    {history : List (Action σ)} (h : settings.validate = .ok ()) (hle : limit ≤ 16)
    (hnone : ∀ action ∈ history, ∀ endpoint descriptor,
      action ≠ .receiveDescriptor endpoint descriptor)
    (hlimit : ((opened settings world).after history).ids.drawn ≤ limit) :
    ((opened settings world).after history).Reachable limit := by
  have hdistinct := IdSource.distinctBelow_repdigits.mono hle
  have hopened : (opened settings world).Reachable limit :=
    .start hdistinct (start_repdigits h world)
  exact hopened.steps (steps_after hnone hlimit)

/-- Settings under which units are worked on one at a time, and copies stay once they are staged. -/
def ourSettings : Settings :=
  ⟨"us", ⟨"/s"⟩, ⟨"/d"⟩, 1, 1, false⟩

/-- A disk with two files, of one byte and of two. -/
def ourDisk : Disk :=
  ⟨[(["a"], .file [0x61]), (["b"], .file [0x62, 0x63])]⟩

end PeerTransfer.Session
