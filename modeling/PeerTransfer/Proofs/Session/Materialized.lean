import PeerTransfer.Proofs.Batch.Announced
import PeerTransfer.Proofs.Session.Arising
import PeerTransfer.Proofs.Session.Pending

/-!
# Payloads become batches at most once

`Traced` follows what events tell of one payload of one endpoint. The endpoint holds the payload
with the content that was announced last, until it is consumed, and each announcement makes at most
one batch, however often the progress is told (`batches_of_traced`). What a final status makes of a
payload that is held is written out in `Consumed`.
-/

namespace PeerTransfer.Session

open List Table Act

variable {σ : Type} [Services σ]

/-- The batches that an endpoint has taken in, if it is known. -/
def batchesOf (s : Session σ) (id : String) : List IncomingBatch :=
  (s.table.find? id).elim [] (·.incoming)

/-- How often an action announces a payload. -/
def Action.announced (id : String) (payload : Int) : Action σ → Nat
  | .handle (.payloadInitiated endpoint other _) =>
    if endpoint = id ∧ other = payload then 1 else 0
  | _ => 0

/-- How many batches an endpoint takes in by an action that tells of the progress of a payload. -/
def Action.made (id : String) (payload : Int) (s : Session σ) (action : Action σ) : Nat :=
  match action with
  | .handle (.payloadProgress endpoint other _ _ _) =>
    if endpoint = id ∧ other = payload then
      ((action.run s).batchesOf id).length - (s.batchesOf id).length
    else 0
  | _ => 0

/-- What has happened to a payload of an endpoint. -/
structure PayloadHistory where
  /-- How often it was announced. -/
  announced : Nat
  /-- How many batches were taken in when its progress was told. -/
  made : Nat
  /-- What it was announced with last, since it was consumed and since the endpoint is known. -/
  content? : Option Bytes

/-- The history after one more action. -/
def PayloadHistory.after (history : PayloadHistory) (id : String) (payload : Int) (s : Session σ)
    (action : Action σ) : PayloadHistory where
  announced := history.announced + action.announced id payload
  made := history.made + action.made id payload s
  content? :=
    if ((action.run s).table.find? id).isSome then
      action.contentAfter id payload history.content?
    else none

/-- Sessions that actions lead to from a new one, with what has happened to a payload on the way. -/
inductive Traced (id : String) (payload : Int) : PayloadHistory → Session σ → Prop
  | start {settings : Settings} {source : IdSource} {world : World σ} {s : Session σ} :
      Session.start settings source world = .ok s → Traced id payload ⟨0, 0, none⟩ s
  | act {history : PayloadHistory} {s : Session σ} (action : Action σ) :
      Traced id payload history s →
      Traced id payload (history.after id payload s action) (action.run s)

/-- The endpoint has taken in one batch more, which is made of the records, and has recorded every
unit of it. -/
def TakenIn (records : List Wire.Record) (receiver : String) (p q : Endpoint) : Prop :=
  ∃ batch : IncomingBatch, q.incoming = p.incoming ++ [batch] ∧ batch.sender = p.name ∧
    batch.receiver = receiver ∧
    batch.units.map (fun unit => ⟨unit.name, unit.remotePath, unit.size⟩) = records ∧
    q.journal = p.journal ++
      batch.units.map fun unit => ⟨.receive, unit.id, unit.remotePath, .success, unit.size, 0⟩

/-- The endpoint has taken in nothing, and has recorded one failure to receive. -/
def TurnedDown (p q : Endpoint) : Prop :=
  q.incoming = p.incoming ∧
    ∃ entry : JournalEntry, q.journal = p.journal ++ [entry] ∧ entry.direction = .receive ∧
      entry.outcome = .failure

/-- What the final status of a payload that is held makes of its endpoint. -/
structure Consumed (s : Session σ) (payload : Int) (content : Bytes) (status : PayloadStatus)
    (p q : Endpoint) (result : Except Failure Unit) : Prop where
  payload?_eq : ∀ other, q.payload? other = if other = payload then none else p.payload? other
  of_not_success : status ≠ .success →
    result = .ok () ∧ q.incoming = p.incoming ∧ q.journal = p.journal
  of_readable : status = .success → ∀ records, Wire.decode content = .ok records →
    records ≠ [] → Text.isBlank p.name = false →
    result = .ok () ∧ TakenIn records s.settings.localName p q
  of_unreadable : status = .success →
    (∀ records, Wire.decode content = .ok records → records = [] ∨ Text.isBlank p.name = true) →
    (∃ failure, result = .error failure) ∧ TurnedDown p q

variable {s : Session σ} {id : String} {payload : Int} {history : PayloadHistory}
  {action : Action σ} {p q : Endpoint}

omit [Services σ] in
theorem batchesOf_of_find? (h : s.table.find? id = some p) : s.batchesOf id = p.incoming := by
  rw [batchesOf, h]
  rfl

theorem Traced.arises (h : Traced id payload history s) : s.Arises := by
  induction h with
  | start hstart => exact .start hstart
  | act action _ ih => exact ih.act action

/-- Whatever arises, something has happened to the payload on the way. -/
theorem Arises.exists_traced (h : s.Arises) (id : String) (payload : Int) :
    ∃ history, Traced id payload history s := by
  induction h with
  | start hstart => exact ⟨_, .start hstart⟩
  | act action _ ih =>
    obtain ⟨_, htraced⟩ := ih
    exact ⟨_, htraced.act action⟩

/-! ## Batches that are taken in -/

/-- An endpoint has the batches it had, unless it has received one by a descriptor or a payload
that it held. -/
theorem Turn.incoming_cases {failure? : Option Failure} (h : Turn s p action failure? q) :
    q.incoming.map (·.id) = p.incoming.map (·.id) ∨
      (∃ descriptor, action = .receiveDescriptor p.id descriptor) ∨
      ∃ other content total transferred batch,
        action = .handle (.payloadProgress p.id other .success total transferred) ∧
        p.payload? other = some content ∧ q.incoming = p.incoming ++ [batch] := by
  cases h with
  | received => exact .inr (.inl ⟨_, rfl⟩)
  | materialized hpayload => exact .inr (.inr ⟨_, _, _, _, _, rfl, hpayload, rfl⟩)
  | downloaded => exact .inl (map_replaceFirst _ _ _)
  | ended => exact .inl (congrArg _ (incoming_recordSend _ _ _))
  | _ => exact .inl rfl

theorem incoming_run (hdistinct : s.table.Distinct)
    (hq : (action.run s).table.find? id = some q) :
    q.incoming.map (·.id) = (s.batchesOf id).map (·.id) ∨
      (∃ descriptor, action = .receiveDescriptor id descriptor) ∨
      ∃ p other content total transferred batch, s.table.find? id = some p ∧
        action = .handle (.payloadProgress id other .success total transferred) ∧
        p.payload? other = some content ∧ q.incoming = p.incoming ++ [batch] := by
  have heffect := action.effect hdistinct
  cases hp : s.table.find? id with
  | none =>
    left
    rw [batchesOf, hp]
    obtain ⟨name, ⟨medium, -, rfl⟩ | ⟨-, rfl⟩⟩ := heffect.eq_new hp hq <;> rfl
  | some p =>
    obtain rfl : p.id = id := id_of_find? hp
    rw [batchesOf_of_find? hp]
    rcases heffect.eq_or_turn hp hq with rfl | hturn
    · exact .inl rfl
    · rcases hturn.incoming_cases with hsame | hreceived |
        ⟨other, content, total, transferred, batch, haction, hpayload, hincoming⟩
      · exact .inl hsame
      · exact .inr (.inl hreceived)
      · exact .inr (.inr ⟨p, other, content, total, transferred, batch, rfl, haction, hpayload,
          hincoming⟩)

/-! ## What is held -/

/-- What an endpoint holds of a payload is what events have told of it. An endpoint that is not
known, or has just become known, holds nothing. -/
theorem Traced.content_eq (h : Traced id payload history s) :
    history.content? = (s.table.find? id).bind (·.payload? payload) := by
  induction h with
  | start hstart =>
    rw [Table.find?, (endpoints_of_start hstart).1]
    rfl
  | @act history s action htraced ih =>
    have hdistinct := htraced.arises.distinct
    unfold PayloadHistory.after
    dsimp only
    cases hq : (action.run s).table.find? id with
    | none => rfl
    | some q =>
      rw [Option.bind_some, if_pos (by rfl)]
      cases hp : s.table.find? id with
      | some p => rw [payload?_run hdistinct hp hq, ih, hp, Option.bind_some]
      | none =>
        rw [ih, hp]
        obtain ⟨name, ⟨medium, rfl, rfl⟩ | ⟨rfl, rfl⟩⟩ :=
          (action.effect hdistinct).eq_new hp hq <;> rfl

omit [Services σ] in
theorem length_contentAfter_le (content? : Option Bytes) (action : Action σ) :
    (action.contentAfter id payload content?).toList.length ≤
      content?.toList.length + action.announced id payload := by
  cases action with
  | handle event =>
    cases event with
    | payloadInitiated =>
      unfold Action.contentAfter Action.announced
      dsimp only
      split_ifs <;> simp
    | payloadProgress =>
      unfold Action.contentAfter Action.announced
      dsimp only
      split_ifs <;> simp
    | _ => exact Nat.le_add_right _ _
  | _ => exact Nat.le_add_right _ _

theorem length_content_after_le :
    (history.after id payload s action).content?.toList.length ≤
      history.content?.toList.length + action.announced id payload := by
  unfold PayloadHistory.after
  dsimp only
  split_ifs
  · exact length_contentAfter_le _ _
  · exact Nat.zero_le _

/-- A batch is made of a payload only by its success, and only where it is held. -/
theorem made_cases (hdistinct : s.table.Distinct) (id : String) (payload : Int)
    (action : Action σ) :
    action.made id payload s = 0 ∨
      action.made id payload s = 1 ∧ ∃ p content total transferred,
        action = .handle (.payloadProgress id payload .success total transferred) ∧
        s.table.find? id = some p ∧ p.payload? payload = some content := by
  cases action with
  | handle event =>
    cases event with
    | payloadProgress endpoint other status total transferred =>
      unfold Action.made
      dsimp only
      split_ifs with h
      · obtain ⟨rfl, rfl⟩ := h
        cases hq : ((Action.handle (.payloadProgress endpoint other status total
            transferred)).run s).table.find? endpoint with
        | none =>
          rw [batchesOf, hq]
          exact .inl (Nat.zero_sub _)
        | some q =>
          rw [batchesOf_of_find? hq]
          rcases incoming_run hdistinct hq with hsame | ⟨descriptor, hreceived⟩ |
            ⟨p, held, content, total', transferred', batch, hp, hprogress, hpayload, hincoming⟩
          · have hlength := congrArg length hsame
            rw [length_map, length_map] at hlength
            exact .inl (by omega)
          · cases hreceived
          · cases hprogress
            rw [hincoming, batchesOf_of_find? hp, length_append, length_singleton]
            exact .inr ⟨Nat.add_sub_cancel_left _ _, p, content, total, transferred, rfl, hp,
              hpayload⟩
      · exact .inl rfl
    | _ => exact .inl rfl
  | _ => exact .inl rfl

/-- What is made into a batch is held no longer. -/
theorem made_add_le (hdistinct : s.table.Distinct)
    (hcontent : history.content? = (s.table.find? id).bind (·.payload? payload))
    (action : Action σ) :
    action.made id payload s + (history.after id payload s action).content?.toList.length ≤
      history.content?.toList.length + action.announced id payload := by
  rcases made_cases hdistinct id payload action with hmade |
    ⟨hmade, p, content, total, transferred, rfl, hp, hpayload⟩
  · rw [hmade, zero_add]
    exact length_content_after_le
  · have hafter : (history.after id payload s
        (.handle (.payloadProgress id payload .success total transferred))).content? = none := by
      simp [PayloadHistory.after, Action.contentAfter]
    rw [hmade, hafter, hcontent, hp, Option.bind_some, hpayload]
    simp

/-- Of every announcement there is a batch, or the payload is held still, or neither. -/
theorem Traced.made_le (h : Traced id payload history s) :
    history.made + history.content?.toList.length ≤ history.announced := by
  -- What is held counts as a batch to come, so that consuming it leaves the sum as it is.
  induction h with
  | start => rfl
  | @act history s action htraced ih =>
    have hstep := made_add_le htraced.arises.distinct htraced.content_eq action
    have hmade : (history.after id payload s action).made =
        history.made + action.made id payload s := rfl
    have hannounced : (history.after id payload s action).announced =
        history.announced + action.announced id payload := rfl
    omega

/-! ## What a final status makes of a payload -/

omit [Services σ] in
theorem records_of_units {records : List Wire.Record} {ids : IdSource} {units : List IncomingUnit}
    (h : units = (ids.drawFor records).1.map fun (id, record) => .ofRecord id record) :
    units.map (fun unit => ⟨unit.name, unit.remotePath, unit.size⟩) = records := by
  rw [h, map_map]
  exact ids.map_snd_drawFor records

omit [Services σ] in
theorem exists_consumed (hvalid : Text.isBlank s.settings.localName = false)
    (hdistinct : s.table.Distinct) (hp : s.table.find? id = some p) {content : Bytes}
    (hpayload : p.payload? payload = some content) (status : PayloadStatus) :
    ∃ q, ((finishPayload id payload status).run s).2.table.find? id = some q ∧
      Consumed s payload content status p q ((finishPayload id payload status).run s).1 := by
  have hid : p.id = id := id_of_find? hp
  have hdropped := p.payload?_dropPayload payload
  by_cases hsuccess : status = .success
  · subst hsuccess
    rw [run_finishPayload_success hdistinct hp hpayload]
    dsimp only
    cases hbatch : (Batch.ofWire content p.name s.settings.localName s.ids).1 with
    | error failure =>
      set logged := (p.dropPayload payload).log [badPayloadEntry payload content] with hlogged
      refine ⟨logged, find?_focus (q := logged) hp hid _, hdropped, ?_, ?_, ?_⟩
      · exact fun h => absurd rfl h
      · intro _ records hdecode hrecords hname
        obtain ⟨batch, hok, -⟩ := Batch.ofWire_of_decode hdecode hrecords hname hvalid s.ids
        rw [hok] at hbatch
        cases hbatch
      · exact fun _ _ => ⟨⟨failure, rfl⟩, rfl, badPayloadEntry payload content, rfl, rfl, rfl⟩
    | ok batch =>
      set taken := ((p.dropPayload payload).addIncoming batch).log (batch.units.map receiveEntry)
        with htaken
      refine ⟨taken, find?_focus (q := taken) hp hid _, hdropped, ?_, ?_, ?_⟩
      · exact fun h => absurd rfl h
      · intro _ records hdecode hrecords hname
        obtain ⟨made, hok, hsender, hreceiver, hunits⟩ :=
          Batch.ofWire_of_decode hdecode hrecords hname hvalid s.ids
        cases hok.symm.trans hbatch
        exact ⟨rfl, batch, rfl, hsender, hreceiver, records_of_units hunits, rfl⟩
      · intro _ hunreadable
        obtain ⟨records, hdecode, hrecords, hname⟩ := Batch.decode_of_ofWire hbatch
        rcases hunreadable records hdecode with hnil | hblank
        · exact absurd hnil hrecords
        · cases hname.symm.trans hblank
  · have hdrop : (p.dropPayload payload).id = id := hid
    rw [run_finishPayload hdistinct hp, hpayload]
    dsimp only
    rw [if_neg hsuccess]
    refine ⟨p.dropPayload payload, find?_focus hp hdrop [], hdropped, ?_, ?_, ?_⟩
    · exact fun _ => ⟨rfl, rfl, rfl⟩
    · exact fun h => absurd h hsuccess
    · exact fun h => absurd h hsuccess

theorem localName_of_validate {settings : Settings} (h : settings.validate = .ok ()) :
    Text.isBlank settings.localName = false := by
  unfold Settings.validate at h
  split_ifs at h with hblank
  simpa using hblank

/-- A payload of an endpoint makes at most one batch for each time it is announced. An endpoint
takes in a batch only by a descriptor, or by the success of a payload that it holds, and it holds
a payload with what was announced last. Any final status ends that, and makes of the payload what
`Consumed` says. -/
theorem batches_of_traced (h : Traced id payload history s) :
    history.made ≤ history.announced ∧
      (∀ (action : Action σ) (q : Endpoint), (action.run s).table.find? id = some q →
        q.incoming.map (·.id) = (s.batchesOf id).map (·.id) ∨
          (∃ descriptor, action = .receiveDescriptor id descriptor) ∨
          ∃ p other content total transferred batch, s.table.find? id = some p ∧
            action = .handle (.payloadProgress id other .success total transferred) ∧
            p.payload? other = some content ∧ q.incoming = p.incoming ++ [batch]) ∧
      ∀ p, s.table.find? id = some p → p.payload? payload = history.content? ∧
        ∀ content status total transferred, history.content? = some content →
          status ≠ .inProgress →
          let finished := (handle (.payloadProgress id payload status total transferred)).run s
          ∃ q, finished.2.table.find? id = some q ∧
            Consumed s payload content status p q finished.1 := by
  have hdistinct := h.arises.distinct
  have hmade : history.made ≤ history.announced := (Nat.le_add_right _ _).trans h.made_le
  refine ⟨hmade, fun action q hq => incoming_run hdistinct hq, ?_⟩
  intro p hp
  have hcontent : p.payload? payload = history.content? := by
    rw [h.content_eq, hp]
    rfl
  refine ⟨hcontent, ?_⟩
  intro content status total transferred hheld hstatus
  have hvalid := localName_of_validate h.arises.settings_valid
  unfold handle
  dsimp only
  rw [if_neg hstatus]
  exact exists_consumed hvalid hdistinct hp (hcontent.trans hheld) status

/-- A payload is announced twice, the second time as a batch of one unit, and its success is told
twice. That makes one batch. -/
theorem batches_of_traced_told_twice :
    let content : Bytes := [1, 0, 0, 0, 2, 0, 0, 0, 97, 0, 3, 0, 0, 0, 47, 120, 0,
      1, 0, 0, 0, 0, 0, 0, 0]
    let started : Session InMemory := opened ourSettings ⟨ourDisk, InMemory.empty⟩
    let initiated := (Action.handle (.connectionInitiated "e" "peer")).run started
    let spoiled := (Action.handle (.payloadInitiated "e" 7 [])).run initiated
    let announced := (Action.handle (.payloadInitiated "e" 7 content)).run spoiled
    let told := (Action.handle (.payloadProgress "e" 7 .success 0 0)).run announced
    let toldTwice := (Action.handle (.payloadProgress "e" 7 .success 0 0)).run told
    (∃ p q, announced.table.find? "e" = some p ∧
      ((handle (.payloadProgress "e" 7 .success 0 0)).run announced).2.table.find? "e" = some q ∧
      TakenIn [⟨"a", "/x", 1⟩] "us" p q ∧ q.payload? 7 = none) ∧
      ∃ history, Traced "e" 7 history toldTwice ∧ history.made = 1 ∧
        history.made ≤ history.announced := by
  intro content started initiated spoiled announced told toldTwice
  have hstarted : Traced "e" 7 ⟨0, 0, none⟩ started := .start (start_repdigits (by decide) _)
  have hspoiled := (hstarted.act (.handle (.connectionInitiated "e" "peer"))).act
    (.handle (.payloadInitiated "e" 7 []))
  have hannounced := hspoiled.act (.handle (.payloadInitiated "e" 7 content))
  have htold := (hannounced.act (.handle (.payloadProgress "e" 7 .success 0 0))).act
    (.handle (.payloadProgress "e" 7 .success 0 0))
  have hpeer : (announced.table.find? "e").map (·.name) = some "peer" ∧
      announced.settings.localName = "us" := by decide +kernel
  obtain ⟨p, hp, hname⟩ := Option.map_eq_some_iff.1 hpeer.1
  have hnamed : Text.isBlank p.name = false := by rw [hname]; decide
  have hdecode : Wire.decode content = .ok [⟨"a", "/x", 1⟩] := by decide +kernel
  obtain ⟨-, hfinal⟩ := (batches_of_traced hannounced).2.2 p hp
  obtain ⟨q, hq, hconsumed⟩ := hfinal content .success 0 0 (by decide +kernel) (by decide)
  obtain ⟨-, htaken⟩ := hconsumed.of_readable rfl _ hdecode (by simp) hnamed
  rw [hpeer.2] at htaken
  have hdropped : q.payload? 7 = none := by rw [hconsumed.payload?_eq, if_pos rfl]
  refine ⟨⟨p, q, hp, hq, htaken, hdropped⟩, _, htold, ?_, (batches_of_traced htold).1⟩
  decide +kernel

end PeerTransfer.Session
