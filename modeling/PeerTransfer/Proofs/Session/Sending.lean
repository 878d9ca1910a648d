import PeerTransfer.Proofs.Batch.Announced
import PeerTransfer.Proofs.Session.Arising
import PeerTransfer.Proofs.Session.Traffic

/-!
# The course of a send

A send that the channel takes hands over the records of its batch once. From then on the connection
stays claimed, whatever else is tried, until the channel tells the final status of a payload that
the endpoint does not hold. That ends the send and is recorded, and only then
(`course_of_sendBatch`).
-/

namespace PeerTransfer.Session

open List Table Act

/-- The send of a batch is under way, and nothing of it was recorded since the journal was as
given. -/
structure Underway (batch : String) (found : OutgoingBatch) (journal : Journal) (p : Endpoint) :
    Prop where
  state_eq : p.state = .sending
  inFlight_eq : p.inFlight = some batch
  outgoing_eq : p.outgoing? batch = some found
  unrecorded : ∃ entries, p.journal = journal ++ entries ∧
    ∀ entry ∈ entries, entry.direction ≠ .send

section Step

variable {σ : Type} [Services σ] {s s' : Session σ} {id batch : String} {found : OutgoingBatch}
  {journal : Journal} {p q : Endpoint} {action : Action σ} {failure? : Option Failure}

/-- The action tells an endpoint of the final status of a payload that it does not hold. -/
def Action.EndsSend (id : String) (s : Session σ) : Action σ → Prop
  | .handle (.payloadProgress endpoint payload status _ _) =>
    endpoint = id ∧ status ≠ .inProgress ∧
      ((s.table.find? id).bind (·.payload? payload)) = none
  | _ => False

theorem Underway.log (h : Underway batch found journal p) {entries : List JournalEntry}
    (hentries : ∀ entry ∈ entries, entry.direction ≠ .send) :
    Underway batch found journal (p.log entries) := by
  obtain ⟨before, hjournal, hbefore⟩ := h.unrecorded
  refine { h with unrecorded := ⟨before ++ entries, ?_, forall_mem_append.2 ⟨hbefore, hentries⟩⟩ }
  rw [← append_assoc, ← hjournal]
  rfl

/-- While a send is under way, nothing that happens to its endpoint but its end touches it. -/
theorem Turn.underway (h : Turn s p action failure? q) (hp : Underway batch found journal p)
    (hfind : s.table.find? p.id = some p) (hends : ¬action.EndsSend p.id s) :
    Underway batch found journal q := by
  have hstate := hp.state_eq
  cases h with
  | picked picked =>
    refine { hp with outgoing_eq := ?_ }
    unfold Endpoint.outgoing? Endpoint.addOutgoing
    rw [find?_append, show p.outgoing.find? _ = some found from hp.outgoing_eq]
    rfl
  | received | upgraded | announced | dropped => exact { hp with }
  | @spoiled payload =>
    have hdropped : Underway batch found journal (p.dropPayload payload) := { hp with }
    exact hdropped.log (by simp [badPayloadEntry])
  | @materialized payload content taken =>
    have hadded : Underway batch found journal ((p.dropPayload payload).addIncoming taken) :=
      { hp with }
    exact hadded.log (by simp [receiveEntry])
  | ended hpayload _ hstatus =>
    refine absurd ⟨rfl, hstatus, ?_⟩ hends
    rw [hfind]
    exact hpayload
  | initiated hother => simp [hstate] at hother
  -- All that is left asks for another state than that of a claimed connection.
  | requested hother | loaded _ hother | staged _ hother | sent _ _ _ hother
  | unsent _ _ _ hother | downloaded _ hother | accepted hother | rejected hother =>
    cases hstate.symm.trans hother

/-- A send succeeds only by the channel taking the records of the batch. -/
theorem exists_of_sendBatch_eq_ok (hdistinct : s.table.Distinct)
    (h : ((sendBatch id batch).run s).1 = .ok ()) :
    ∃ p found payload, s.table.find? id = some p ∧ p.outgoing? batch = some found ∧
      found.encodeWire = .ok payload ∧ (Services.send id payload s.world.services).1 = .ok () ∧
      ((sendBatch id batch).run s).2 =
        (s.focus { p with state := .sending, inFlight := some batch }
          (changeOf p .sending)).withServices (Services.send id payload s.world.services).2 := by
  cases hfind : s.table.find? id with
  | none =>
    rw [run_sendBatch_of_unknown hfind] at h
    cases h
  | some p =>
    rw [run_sendBatch hdistinct hfind] at h ⊢
    cases hfound : p.outgoing? batch with
    | none =>
      rw [hfound] at h
      cases h
    | some found =>
      rw [hfound] at h
      dsimp only at h ⊢
      by_cases hstaged : found.state ≠ OutgoingState.staged
      · rw [if_pos hstaged] at h
        cases h
      rw [if_neg hstaged] at h ⊢
      cases hpayload : found.encodeWire with
      | error failure =>
        rw [hpayload] at h
        cases h
      | ok payload =>
        rw [hpayload] at h
        dsimp only at h ⊢
        by_cases hstate : p.state = .connected
        · rw [if_pos hstate] at h ⊢
          cases hanswer : (Services.send id payload s.world.services).1 with
          | error failure =>
            rw [hanswer] at h
            cases h
          | ok => exact ⟨p, found, payload, rfl, hfound, hpayload, hanswer, rfl⟩
        · rw [if_neg hstate] at h
          cases h

omit [Services σ] in
/-- The final status of a payload that is not held ends the send that is under way. -/
theorem run_finishPayload_of_underway (hdistinct : s.table.Distinct)
    (hp : s.table.find? id = some p) (hunderway : Underway batch found journal p) {payload : Int}
    (hpayload : p.payload? payload = none) (status : PayloadStatus) :
    ((finishPayload id payload status).run s).1 = .ok () ∧
      ∃ q, ((finishPayload id payload status).run s).2.table.find? id = some q ∧
        q.state = .connected ∧ q.inFlight = none ∧
        q.journal = p.journal ++ found.units.map (sendEntry (outcomeOf status)) ∧
        q.outgoing = if status = .success then p.outgoing.eraseP (·.id = batch)
          else p.outgoing := by
  have hid : p.id = id := id_of_find? hp
  have hentries : sendEntries (giveFree p) batch (outcomeOf status) =
      found.units.map (sendEntry (outcomeOf status)) := by
    rw [sendEntries, show (giveFree p).outgoing? batch = some found from hunderway.outgoing_eq]
    rfl
  rw [run_finishPayload hdistinct hp, hpayload, hunderway.inFlight_eq]
  dsimp only
  rw [run_finishSend hdistinct hp]
  have hended : (recordSend (giveFree p) batch (outcomeOf status)).id = id :=
    (id_recordSend _ _ _).trans hid
  refine ⟨rfl, _, find?_focus hp hended _, ?_, ?_, ?_, ?_⟩
  · rw [state_recordSend]
    exact if_pos hunderway.state_eq
  · unfold recordSend
    dsimp only
    split_ifs <;> rfl
  · unfold recordSend
    rw [hentries]
    dsimp only
    split_ifs <;> rfl
  · unfold recordSend
    dsimp only
    cases status <;> rfl

end Step

section Run

variable {σ : Type} [Services σ] {s s' : Session (Recorded σ)} {id batch : String}
  {found : OutgoingBatch} {journal : Journal} {p q : Endpoint}

/-- Actions lead from one session to the other that neither forget the endpoint nor end a send to
it. The world outside leaves the record of calls alone. -/
inductive Meanwhile (id : String) (s : Session (Recorded σ)) : Session (Recorded σ) → Prop
  | refl : Meanwhile id s s
  | act {s' : Session (Recorded σ)} (action : Action (Recorded σ)) :
      Meanwhile id s s' → ((action.run s').table.find? id).isSome → ¬action.EndsSend id s' →
      (∀ world, action = .outside world →
        world.services.calls = s'.world.services.calls) →
      Meanwhile id s (action.run s')

theorem Arises.meanwhile (h : s.Arises) (hrun : s.Meanwhile id s') : s'.Arises := by
  induction hrun with
  | refl => exact h
  | act action _ _ _ _ ih => exact ih.act action

/-- Nothing is sent to a peer while the connection to it is claimed. -/
theorem sentTo_run_of_sending (hdistinct : s.table.Distinct) (hp : s.table.find? id = some p)
    (hstate : p.state = .sending) {action : Action (Recorded σ)}
    (houtside : ∀ world, action = .outside world →
      world.services.calls = s.world.services.calls) :
    (action.run s).world.services.sentTo id = s.world.services.sentTo id := by
  have htraffic := action.traffic hdistinct
  generalize (action.run s).world.services = recorded at htraffic ⊢
  cases htraffic with
  | silent => rfl
  | outside world =>
    unfold Recorded.sentTo
    rw [houtside world rfl]
  | connected | disconnected => exact Recorded.filterMap_of_call rfl rfl
  | staged =>
    refine (Recorded.extends_runStage _ _ _).filterMap_eq fun call hcall => ?_
    cases call <;> first | rfl | cases hcall
  | downloaded =>
    refine (Recorded.extends_runDownload _ _ _).filterMap_eq fun call hcall => ?_
    cases call <;> first | rfl | cases hcall
  | @sent p' _ _ payload hfind _ _ hconnected =>
    have hne : p'.id ≠ id := by
      rintro rfl
      cases hfind.symm.trans hp
      cases hstate.symm.trans hconnected
    exact Recorded.filterMap_of_call rfl (if_neg hne)

theorem Meanwhile.underway (h : s.Arises) (hp : s.table.find? id = some p)
    (hunderway : Underway batch found journal p) (hrun : s.Meanwhile id s') :
    ∃ q, s'.table.find? id = some q ∧ Underway batch found journal q ∧
      s'.world.services.sentTo id = s.world.services.sentTo id := by
  induction hrun with
  | refl => exact ⟨p, hp, hunderway, rfl⟩
  | @act s' action hrun hknown hends houtside ih =>
    obtain ⟨q, hq, hunderwayq, hsent⟩ := ih
    obtain ⟨r, hr⟩ := Option.isSome_iff_exists.1 hknown
    have hdistinct := (h.meanwhile hrun).distinct
    have hid : q.id = id := id_of_find? hq
    refine ⟨r, hr, ?_, ?_⟩
    · rcases (action.effect hdistinct).eq_or_turn hq hr with rfl | hturn
      · exact hunderwayq
      · exact hturn.underway hunderwayq (hid ▸ hq) (hid ▸ hends)
    · rw [sentTo_run_of_sending hdistinct hq hunderwayq.state_eq houtside, hsent]

/-- A send that succeeds has handed over the records of its batch, and nothing else. Whatever then
happens to the session, other than that the endpoint is forgotten or that the final status is told
of a payload that it does not hold, the batch stays as it was, the endpoint stays claimed, and
nothing more is sent to the peer or recorded of the send. The first such status gives the connection
free, records what came of each unit, and lets go of the batch just if it has arrived. -/
theorem course_of_sendBatch (h : s.Arises) (hok : ((sendBatch id batch).run s).1 = .ok ()) :
    ∃ p found payload records, s.table.find? id = some p ∧ p.outgoing? batch = some found ∧
      found.records = .ok records ∧ Wire.decode payload = .ok records ∧
      ((sendBatch id batch).run s).2.world.services.calls =
        s.world.services.calls ++ [.send id payload (.ok ())] ∧
      ∀ s', ((sendBatch id batch).run s).2.Meanwhile id s' →
        ∃ q, s'.table.find? id = some q ∧ Underway batch found p.journal q ∧
          s'.world.services.sentTo id =
            ((sendBatch id batch).run s).2.world.services.sentTo id ∧
          ∀ payload status total transferred, q.payload? payload = none →
            status ≠ .inProgress →
            let ended := (handle (.payloadProgress id payload status total transferred)).run s'
            ended.1 = .ok () ∧ ∃ r, ended.2.table.find? id = some r ∧
              r.state = .connected ∧ r.inFlight = none ∧
              r.journal = q.journal ++ found.units.map (fun unit =>
                ⟨.send, unit.id, unit.label, outcomeOf status,
                  if outcomeOf status = .success then unit.size else 0, 0⟩) ∧
              r.outgoing = if status = .success then q.outgoing.eraseP (·.id = batch)
                else q.outgoing := by
  obtain ⟨p, found, payload, hp, hfound, hpayload, hanswer, hsent⟩ :=
    exists_of_sendBatch_eq_ok h.distinct hok
  obtain ⟨records, hrecords, hdecode⟩ := Batch.exists_decode_of_encodeWire hpayload
  have hid : p.id = id := id_of_find? hp
  have hcalls : ((sendBatch id batch).run s).2.world.services.calls =
      s.world.services.calls ++ [.send id payload (.ok ())] := by
    rw [hsent, ← hanswer]
    rfl
  refine ⟨p, found, payload, records, hp, hfound, hrecords, hdecode, hcalls, ?_⟩
  intro s' hrun
  have harises : ((sendBatch id batch).run s).2.Arises := h.act (.sendBatch id batch)
  have hfind : ((sendBatch id batch).run s).2.table.find? id =
      some { p with state := .sending, inFlight := some batch } := by
    rw [hsent]
    exact find?_focus hp (q := { p with state := .sending, inFlight := some batch }) hid _
  have hunderway : Underway batch found p.journal
      { p with state := .sending, inFlight := some batch } :=
    ⟨rfl, rfl, hfound, [], (append_nil _).symm, by simp⟩
  obtain ⟨q, hq, hunderwayq, hsentTo⟩ := hrun.underway harises hfind hunderway
  refine ⟨q, hq, hunderwayq, hsentTo, ?_⟩
  intro other status total transferred hother hstatus
  unfold handle
  dsimp only
  rw [if_neg hstatus]
  exact run_finishPayload_of_underway (harises.meanwhile hrun).distinct hq hunderwayq hother status

/-- While a batch is on its way, the peer announces a payload of its own, which then proves to be
none. The send ends with the next status, and not before. -/
theorem course_of_sendBatch_beside_payload :
    let batch := "22222222-2222-2222-2222-222222222222"
    let staged : Session (Recorded InMemory) :=
      (opened ourSettings ⟨ourDisk, ⟨InMemory.empty, []⟩⟩).after
        (meeting "e" "peer" ++ offering "e" batch [⟨"/a"⟩])
    let sent := ((sendBatch "e" batch).run staged).2
    let announced := (Action.handle (.payloadInitiated "e" 7 [])).run sent
    let spoiled := (Action.handle (.payloadProgress "e" 7 .success 0 0)).run announced
    staged.Arises ∧ ((sendBatch "e" batch).run staged).1 = .ok () ∧ sent.Meanwhile "e" spoiled ∧
      ∃ q, spoiled.table.find? "e" = some q ∧ q.state = .sending ∧
        ∃ r, ((handle (.payloadProgress "e" 9 .success 0 0)).run spoiled).2.table.find? "e" =
          some r ∧ r.state = .connected ∧ r.inFlight = none ∧
          r.outgoing = q.outgoing.eraseP (·.id = batch) := by
  intro batch staged sent announced spoiled
  have harises : staged.Arises := (Arises.start (start_repdigits (by decide) _)).after _
  have hok : ((sendBatch "e" batch).run staged).1 = .ok () := by decide +kernel
  have hknown : (announced.table.find? "e").isSome ∧ (spoiled.table.find? "e").isSome ∧
      ((announced.table.find? "e").bind (·.payload? 7)).isSome ∧
      ((spoiled.table.find? "e").map (·.payload? 9)) = some none := by decide +kernel
  obtain ⟨hannouncedKnown, hspoiledKnown, hheld, hother⟩ := hknown
  have hannounced : sent.Meanwhile "e" announced :=
    .act (.handle (.payloadInitiated "e" 7 [])) .refl hannouncedKnown (fun hends => hends)
      (by rintro world ⟨⟩)
  have hspoiled : sent.Meanwhile "e" spoiled := by
    refine .act (.handle (.payloadProgress "e" 7 .success 0 0)) hannounced hspoiledKnown ?_
      (by rintro world ⟨⟩)
    rintro ⟨-, -, hnone⟩
    rw [hnone] at hheld
    cases hheld
  obtain ⟨p, found, payload, records, -, -, -, -, -, hcourse⟩ := course_of_sendBatch harises hok
  obtain ⟨q, hq, hunderway, -, hends⟩ := hcourse spoiled hspoiled
  rw [hq] at hother
  have hnone : q.payload? 9 = none := by simpa using hother
  obtain ⟨-, r, hr, hstate, hflight, -, houtgoing⟩ := hends 9 .success 0 0 hnone (by decide)
  exact ⟨harises, hok, hspoiled, q, hq, hunderway.state_eq, r, hr, hstate, hflight, houtgoing⟩

end Run

end PeerTransfer.Session
