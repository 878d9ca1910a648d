import PeerTransfer.Proofs.Phase.Accounts
import PeerTransfer.Proofs.Session.Beside
import PeerTransfer.Proofs.Session.Downloaded
import PeerTransfer.Proofs.Session.Outgoing
import PeerTransfer.Proofs.Table.Acceptance

/-!
# What the journals tell

The journal of an endpoint only grows while the endpoint is in the table. Staging and downloading
add what they report, which accounts for every unit of the batch, and nothing where they are
refused; loading adds nothing (`journaled_of_runs`). That the units of a batch are told apart is all
that this takes, so of descriptors no more is asked than that they name no unit twice.
-/

namespace PeerTransfer

open List

/-- The journal of the endpoint of an id. -/
def Table.journal? (table : Table) (id : String) : Option Journal :=
  (table.find? id).map Endpoint.journal

namespace Session

open Table Act

variable {σ : Type} [Services σ] {limit : Nat} {s s' : Session σ} {action : Action σ}
  {failure? : Option Failure} {id batch : String} {p q : Endpoint}

/-! ## Journals grow -/

theorem journal_recordSend (p : Endpoint) (batch : String) (outcome : Outcome) :
    (recordSend p batch outcome).journal = p.journal ++ sendEntries p batch outcome := by
  unfold recordSend
  dsimp only
  split_ifs <;> rfl

theorem Turn.journal_grows (h : Turn s p action failure? q) : p.journal <+: q.journal := by
  cases h with
  | loaded | staged | unsent | downloaded | spoiled | materialized => exact prefix_append _ _
  | ended =>
    rw [journal_recordSend]
    exact prefix_append _ _
  | _ => exact prefix_rfl

theorem Action.journal_grows (hdistinct : s.table.Distinct) (action : Action σ)
    (hp : s.table.find? id = some p) (hq : (action.run s).table.find? id = some q) :
    p.journal <+: q.journal := by
  rcases (action.effect hdistinct).eq_or_turn hp hq with rfl | hturn
  · exact prefix_rfl
  · exact hturn.journal_grows

/-- While events are handled, the journal of an endpoint grows, unless the endpoint is forgotten at
some point of them. -/
theorem journal_grows_handleAll {events : List Event} (h : s.Arises)
    (hstays : ∀ done, done <+: events → ((handleAll done s).table.find? id).isSome)
    (hp : s.table.find? id = some p) (hq : (handleAll events s).table.find? id = some q) :
    p.journal <+: q.journal := by
  induction events generalizing s p with
  | nil =>
    cases hp.symm.trans hq
    exact prefix_rfl
  | cons event events ih =>
    obtain ⟨r, hr⟩ := Option.isSome_iff_exists.1 (hstays [event] (prefix_append [event] events))
    have hfirst := (Action.handle event).journal_grows h.distinct hp hr
    have hrest := ih (h.act (.handle event))
      (fun done hdone => hstays (event :: done) (prefix_cons_inj event |>.2 hdone)) hr hq
    exact hfirst.trans hrest

theorem journal?_of_ne (action : Action σ) (habout : action.endpoint? = some id)
    {other : String} (hother : other ≠ id) :
    (action.run s).table.journal? other = s.table.journal? other := by
  have hfind := find?_of_filter_ne (action.beside habout s).others hother
  exact congrArg (Option.map Endpoint.journal) hfind

omit [Services σ] in
theorem journal?_of_turning {α : Type} {act : Act σ α} (h : act.Turning id) {other : String}
    (hother : other ≠ id) : (act.run s).2.table.journal? other = s.table.journal? other :=
  congrArg (Option.map Endpoint.journal) (find?_of_filter_ne (h s).partsOnly.others hother)

/-! ## Phases -/

section Phases

variable (hdistinct : s.table.Distinct)

include hdistinct

omit [Services σ] in
/-- A phase of an outgoing batch leaves the session as it was, or puts back what it has made of the
batch and adds to the journal what it reports. -/
theorem runOutgoing_cases
    (run : Settings → OutgoingBatch → World σ →
      Except Failure PhaseReport × OutgoingBatch × World σ) (id batch : String) :
    (∃ failure, (runOutgoing run id batch).run s = (.error failure, s)) ∨
    ∃ p q found, s.table.find? id = some p ∧ p.outgoing? batch = some found ∧
      ((runOutgoing run id batch).run s).1 = (run s.settings found s.world).1 ∧
      ((runOutgoing run id batch).run s).2.table.find? id = some q ∧
      q.outgoing = replaceFirst Batch.id (run s.settings found s.world).2.1 p.outgoing ∧
      q.journal = p.journal ++ entriesOf (run s.settings found s.world).1 := by
  cases hp : s.table.find? id with
  | none => exact .inl ⟨_, run_runOutgoing_of_unknown hp run batch⟩
  | some p =>
    have hid : p.id = id := id_of_find? hp
    have hrun := run_runOutgoing hdistinct hp run batch
    cases hfound : p.outgoing? batch with
    | none =>
      rw [hfound] at hrun
      exact .inl ⟨_, hrun⟩
    | some found =>
      rw [hfound] at hrun
      dsimp only at hrun
      by_cases hstate : p.state = .connected
      · rw [if_pos hstate] at hrun
        set ran := run s.settings found s.world
        split_ifs at hrun with hpanic
        · set q := { p.setOutgoing ran.2.1 with state := .sending }
          have hnone : entriesOf ran.1 = [] := by rw [hpanic]; rfl
          refine .inr ⟨p, q, found, rfl, hfound, by rw [hrun, hpanic], ?_, rfl, ?_⟩
          · rw [hrun]
            exact find?_focus hp (q := q) hid _
          · rw [hnone, append_nil]
            rfl
        · set q := { p.setOutgoing ran.2.1 with state := .connected }.log (entriesOf ran.1)
          refine .inr ⟨p, q, found, rfl, hfound, by rw [hrun], ?_, rfl, rfl⟩
          rw [hrun]
          exact find?_focus hp (q := q) hid _
      · rw [if_neg hstate] at hrun
        exact .inl ⟨_, hrun⟩

/-- A download leaves the session as it was, or adds to the journal what it reports. -/
theorem downloadBatch_cases (id batch : String) :
    (∃ failure, (downloadBatch id batch).run s = (.error failure, s)) ∨
    ∃ p q found, s.table.find? id = some p ∧ p.incoming? batch = some found ∧
      ((downloadBatch id batch).run s).1 = (Phase.runDownload s.settings found s.world).1 ∧
      ((downloadBatch id batch).run s).2.table.find? id = some q ∧
      q.journal = p.journal ++ entriesOf (Phase.runDownload s.settings found s.world).1 := by
  cases hp : s.table.find? id with
  | none => exact .inl ⟨_, run_downloadBatch_of_unknown hp batch⟩
  | some p =>
    have hid : p.id = id := id_of_find? hp
    have hrun := run_downloadBatch hdistinct hp batch
    cases hfound : p.incoming? batch with
    | none =>
      rw [hfound] at hrun
      exact .inl ⟨_, hrun⟩
    | some found =>
      rw [hfound] at hrun
      dsimp only at hrun
      by_cases hstate : p.state = .connected
      · rw [if_pos hstate] at hrun
        set ran := Phase.runDownload s.settings found s.world
        split_ifs at hrun with hpanic
        · set q := { p.setIncoming ran.2.1 with state := .receiving }
          have hnone : entriesOf ran.1 = [] := by rw [hpanic]; rfl
          refine .inr ⟨p, q, found, rfl, hfound, by rw [hrun, hpanic], ?_, ?_⟩
          · rw [hrun]
            exact find?_focus hp (q := q) hid _
          · rw [hnone, append_nil]
            rfl
        · set q := { p.setIncoming ran.2.1 with state := .connected }.log (entriesOf ran.1)
          refine .inr ⟨p, q, found, rfl, hfound, by rw [hrun], ?_, rfl⟩
          rw [hrun]
          exact find?_focus hp (q := q) hid _
      · rw [if_neg hstate] at hrun
        exact .inl ⟨_, hrun⟩

end Phases

/-- A journal to which nothing was added. -/
theorem journal?_of_nil {table table' : Table} {entries : List JournalEntry}
    (hp : table.find? id = some p) (hq : table'.find? id = some q)
    (hjournal : q.journal = p.journal ++ entries) (hentries : entries = []) :
    table'.journal? id = table.journal? id := by
  unfold journal?
  rw [hp, hq, Option.map_some, Option.map_some, hjournal, hentries, append_nil]

theorem entriesOf_of_error {result : Except Failure PhaseReport} {failure : Failure}
    (h : result = .error failure) : entriesOf result = [] := by
  rw [h]
  rfl

theorem entriesOf_runLoad (settings : Settings) (batch : OutgoingBatch) (disk : Disk) :
    entriesOf (Phase.runLoad settings batch disk).1 = [] := by
  unfold Phase.runLoad
  split
  · rfl
  · split
    · rfl
    · split <;> rfl

omit [Services σ] in
theorem journal?_loadBatch (hdistinct : s.table.Distinct) (id batch other : String) :
    ((loadBatch id batch).run s).2.table.journal? other = s.table.journal? other := by
  by_cases hother : other = id
  · subst hother
    unfold loadBatch
    rcases runOutgoing_cases hdistinct _ other batch with
      ⟨failure, hrun⟩ | ⟨p, q, found, hp, -, -, hq, -, hjournal⟩
    · rw [hrun]
    · exact journal?_of_nil hp hq hjournal (entriesOf_runLoad _ _ _)
  · exact journal?_of_turning (turning_runOutgoing _ batch) hother

theorem journal?_of_refused_stageBatch (hdistinct : s.table.Distinct) {failure : Failure}
    (h : ((stageBatch id batch).run s).1 = .error failure) (other : String) :
    ((stageBatch id batch).run s).2.table.journal? other = s.table.journal? other := by
  by_cases hother : other = id
  · subst hother
    unfold stageBatch at h ⊢
    rcases runOutgoing_cases hdistinct Phase.runStage other batch with
      ⟨failure, hrun⟩ | ⟨p, q, found, hp, -, hresult, hq, -, hjournal⟩
    · rw [hrun]
    · exact journal?_of_nil hp hq hjournal (entriesOf_of_error (hresult.symm.trans h))
  · exact journal?_of_turning (turning_runOutgoing _ batch) hother

theorem journal?_of_refused_downloadBatch (hdistinct : s.table.Distinct) {failure : Failure}
    (h : ((downloadBatch id batch).run s).1 = .error failure) (other : String) :
    ((downloadBatch id batch).run s).2.table.journal? other = s.table.journal? other := by
  by_cases hother : other = id
  · subst hother
    rcases downloadBatch_cases hdistinct other batch with
      ⟨failure, hrun⟩ | ⟨p, q, found, hp, -, hresult, hq, hjournal⟩
    · rw [hrun]
    · exact journal?_of_nil hp hq hjournal (entriesOf_of_error (hresult.symm.trans h))
  · exact journal?_of_turning (turning_downloadBatch batch) hother

/-! ## Batches that were taken in -/

/-- What is taken for granted of an action: it draws no id for the second time, and a descriptor
does not name a unit twice. -/
def Action.Keyed (limit : Nat) (s : Session σ) (action : Action σ) : Prop :=
  (action.run s).ids.drawn ≤ limit ∧ ∀ endpoint descriptor,
    action = .receiveDescriptor endpoint descriptor →
    (descriptor.units.keys.map Uuid.parse?).Nodup

theorem Turn.soundIncoming (h : Turn s p action failure? q) (hdistinct : s.table.Distinct)
    (hids : s.ids.DistinctBelow limit) (hkeyed : action.Keyed limit s)
    (hfind : s.table.find? p.id = some p) (hp : ∀ b ∈ p.incoming, b.SoundIncoming) :
    ∀ b ∈ q.incoming, b.SoundIncoming := by
  cases h with
  | received _ hbatch =>
    have hkeys := hkeyed.2 _ _ rfl
    exact Endpoint.forall_mem_concat.2 ⟨hp, Batch.soundIncoming_of_ofDescriptor hkeys hbatch⟩
  | @materialized payload content batch total transferred hpayload hbatch =>
    have hrun : (Action.handle (.payloadProgress p.id payload .success total transferred)).run s =
        ((finishPayload p.id payload .success).run s).2 := rfl
    -- The source has gone on by the ids that were drawn for the batch, so none of them repeats.
    have hlimit := hkeyed.1
    rw [hrun, run_finishPayload_success hdistinct hfind hpayload] at hlimit
    dsimp only at hlimit
    rw [hbatch] at hlimit
    exact Endpoint.forall_mem_concat.2
      ⟨hp, (Batch.soundIncoming_of_ofWire hids hlimit hbatch).1⟩
  | @downloaded _ found _ _ _ hfound _ hrun hended =>
    have hended' : (Phase.runDownload s.settings found s.world).1 ≠ .error .panicked := by
      rwa [hrun]
    have hsound := (hp found (mem_of_find?_eq_some hfound)).runDownload hended'
    rw [hrun] at hsound
    exact forall_mem_replaceFirst hsound hp
  | ended =>
    rw [incoming_recordSend]
    exact hp
  | _ => exact hp

theorem soundIncoming_run (hdistinct : s.table.Distinct) (hids : s.ids.DistinctBelow limit)
    (hkeyed : action.Keyed limit s)
    (h : ∀ p ∈ s.table.endpoints, ∀ b ∈ p.incoming, b.SoundIncoming) :
    ∀ p ∈ (action.run s).table.endpoints, ∀ b ∈ p.incoming, b.SoundIncoming := by
  intro q hq
  have heffect := action.effect hdistinct
  have hq' := find?_of_mem (heffect.distinct hdistinct) hq
  cases hp : s.table.find? q.id with
  | none =>
    obtain ⟨name, ⟨medium, -, hnew⟩ | ⟨-, hnew⟩⟩ := heffect.eq_new hp hq'
    · rw [hnew]
      rintro b ⟨⟩
    · rw [hnew]
      rintro b ⟨⟩
  | some p =>
    have hbatches := h p (mem_of_find? hp)
    rcases heffect.eq_or_turn hp hq' with rfl | hturn
    · exact hbatches
    · exact hturn.soundIncoming hdistinct hids hkeyed (id_of_find? hp ▸ hp) hbatches

theorem soundIncoming_of_runs {s₀ : Session σ} (harises : s₀.Arises)
    (haccounted : s₀.Accounted limit) (hruns : s₀.Runs (Action.Keyed limit) s)
    (h : ∀ p ∈ s₀.table.endpoints, ∀ b ∈ p.incoming, b.SoundIncoming) :
    ∀ p ∈ s.table.endpoints, ∀ b ∈ p.incoming, b.SoundIncoming := by
  induction hruns with
  | refl => exact h
  | act action hruns hkeyed ih =>
    have hids := (accounted_of_runs haccounted harises hruns fun _ _ hkeyed => hkeyed.1).ids
    exact soundIncoming_run (harises.runs hruns).distinct hids hkeyed ih

/-! ## What phases record -/

/-- A staging was recorded: its report stands at the end of the journal, and accounts for the units
of the batch under the remote paths that they then have. -/
def RecordedStaging (id batch : String) (report : PhaseReport) (s s' : Session σ) : Prop :=
  ∃ p q found changed, s.table.find? id = some p ∧ p.outgoing? batch = some found ∧
    s'.table.find? id = some q ∧ q.outgoing? batch = some changed ∧
    q.journal = p.journal ++ report.entries ∧
    let units := (Phase.withRemotePaths found).units
    changed.units.map (fun u => (u.id, u.remotePath)) = units.map (fun u => (u.id, u.remotePath)) ∧
    Phase.Accounts .upload
      (fun u => Phase.Uploaded (Phase.worldBefore Phase.stageSteps units s.world u) u) units report

/-- A download was recorded: its report stands at the end of the journal, and accounts for the units
of the batch. -/
def RecordedDownload (id batch : String) (report : PhaseReport) (s s' : Session σ) : Prop :=
  ∃ p q found, s.table.find? id = some p ∧ p.incoming? batch = some found ∧
    s'.table.find? id = some q ∧ q.journal = p.journal ++ report.entries ∧
    let steps := Phase.downloadSteps s.settings
    Phase.Accounts .download
      (fun u => Phase.Written s.settings.downloadFolder
        (Phase.worldBefore steps found.units s.world u) u) found.units report

theorem recordedStaging (hdistinct : s.table.Distinct)
    (hsound : ∀ p ∈ s.table.endpoints, ∀ b ∈ p.outgoing, b.SoundOutgoing) {report : PhaseReport}
    (h : ((stageBatch id batch).run s).1 = .ok report) :
    RecordedStaging id batch report s ((stageBatch id batch).run s).2 := by
  unfold stageBatch at h ⊢
  rcases runOutgoing_cases hdistinct Phase.runStage id batch with
    ⟨failure, hrun⟩ | ⟨p, q, found, hp, hfound, hresult, hq, houtgoing, hjournal⟩
  · rw [hrun] at h
    cases h
  · have hbatch := hsound p (mem_of_find? hp) found (mem_of_find?_eq_some hfound)
    have hreport := hresult.symm.trans h
    have hlimit := Phase.le_maxPermits_of_runStage hreport
    have hid := (Phase.allOrNothing_runStage s.world hbatch.unit_ids hbatch.coherent
      (.inl hlimit)).id_eq
    have hchanged := find?_replaceFirst hfound hid
    rw [← houtgoing] at hchanged
    rw [hreport] at hjournal
    exact ⟨p, q, found, _, hp, hfound, hq, hchanged, hjournal,
      Phase.remotePaths_runStage hbatch.coherent hbatch.unit_ids hreport,
      Phase.accounts_runStage hbatch.coherent hbatch.unit_ids hreport⟩

theorem recordedDownload (hdistinct : s.table.Distinct)
    (hsound : ∀ p ∈ s.table.endpoints, ∀ b ∈ p.incoming, b.SoundIncoming) {report : PhaseReport}
    (h : ((downloadBatch id batch).run s).1 = .ok report) :
    RecordedDownload id batch report s ((downloadBatch id batch).run s).2 := by
  rcases downloadBatch_cases hdistinct id batch with
    ⟨failure, hrun⟩ | ⟨p, q, found, hp, hfound, hresult, hq, hjournal⟩
  · rw [hrun] at h
    cases h
  · have hbatch := hsound p (mem_of_find? hp) found (mem_of_find?_eq_some hfound)
    have hreport := hresult.symm.trans h
    rw [hreport] at hjournal
    exact ⟨p, q, found, hp, hfound, hq, hjournal,
      Phase.accounts_runDownload hbatch.unit_ids hreport⟩

/-- What a step makes of the journals, as it concerns one endpoint. -/
structure Journaled (id : String) (s : Session σ) : Prop where
  /-- What was recorded is kept while the endpoint stays. -/
  grows (action : Action σ) {p q : Endpoint} : s.table.find? id = some p →
    (action.run s).table.find? id = some q → p.journal <+: q.journal
  /-- Events that are handled at one go are steps one by one. -/
  grows_pump {p q : Endpoint} : s.table.find? id = some p →
    (∀ done, done <+: s.queue →
      ((handleAll done { s with queue := [] }).table.find? id).isSome) →
    s.pump.2.table.find? id = some q → p.journal <+: q.journal
  others (action : Action σ) : action.endpoint? = some id → ∀ other, other ≠ id →
    (action.run s).table.journal? other = s.table.journal? other
  loading (batch other : String) :
    ((loadBatch id batch).run s).2.table.journal? other = s.table.journal? other
  staging (batch : String) {report : PhaseReport} :
    ((stageBatch id batch).run s).1 = .ok report →
    RecordedStaging id batch report s ((stageBatch id batch).run s).2
  refused_staging (batch : String) {failure : Failure} :
    ((stageBatch id batch).run s).1 = .error failure → ∀ other,
    ((stageBatch id batch).run s).2.table.journal? other = s.table.journal? other
  downloading (batch : String) {report : PhaseReport} :
    ((downloadBatch id batch).run s).1 = .ok report →
    RecordedDownload id batch report s ((downloadBatch id batch).run s).2
  refused_downloading (batch : String) {failure : Failure} :
    ((downloadBatch id batch).run s).1 = .error failure → ∀ other,
    ((downloadBatch id batch).run s).2.table.journal? other = s.table.journal? other

/-- However a session goes on from its start, as long as no id is drawn for the second time and no
descriptor names a unit twice: the journals grow, and they tell of every unit that was to be staged
or downloaded what came of it. -/
theorem journaled_of_runs {settings : Settings} {source : IdSource} {world : World σ}
    {started : Session σ} (hdistinct : source.DistinctBelow limit)
    (hstart : Session.start settings source world = .ok started)
    (hruns : started.Runs (Action.Keyed limit) s) (id : String) : s.Journaled id := by
  have harises := (Arises.start hstart).runs hruns
  have haccounted := accounted_of_start hdistinct hstart
  have houtgoing := (accounted_of_runs haccounted (.start hstart) hruns fun _ _ h => h.1).sound
  have hincoming := soundIncoming_of_runs (.start hstart) haccounted hruns
    (by rw [(endpoints_of_start hstart).1]; rintro p ⟨⟩)
  exact {
    grows := fun action _ _ => action.journal_grows harises.distinct
    grows_pump := fun hp hstays =>
      journal_grows_handleAll (s := { s with queue := [] }) (harises.act .emptyQueue) hstays hp
    others := fun action habout other => journal?_of_ne action habout
    loading := journal?_loadBatch harises.distinct id
    staging := fun _ _ => recordedStaging harises.distinct
      fun p hp b hb => houtgoing b (mem_flatMap.2 ⟨p, hp, hb⟩)
    refused_staging := fun _ _ => journal?_of_refused_stageBatch harises.distinct
    downloading := fun _ _ => recordedDownload harises.distinct hincoming
    refused_downloading := fun _ _ => journal?_of_refused_downloadBatch harises.distinct }

/-- A peer announces two units, and the store has only one of them. Both are recorded. -/
theorem journaled_of_runs_half :
    let world : World InMemory :=
      ⟨Disk.empty, { InMemory.empty with blobs := .ofList [("x", [1])] }⟩
    let started := opened ourSettings world
    let accepted := started.after (meeting "e" "peer")
    let described := (Action.receiveDescriptor "e" ⟨"b", none, .ofList
      [("00000000-0000-0000-0000-000000000000", ⟨"text/plain", "x", 1⟩),
        ("22222222-2222-2222-2222-222222222222", ⟨"text/plain", "z", 1⟩)]⟩).run accepted
    let other : Uuid := ⟨Vector.replicate 32 2⟩
    let report : PhaseReport := ⟨.unitsFailed [other],
      [⟨.download, .zero, "x", .success, 1, 0⟩, ⟨.download, other, "z", .failure, 0, 0⟩]⟩
    IdSource.repdigits.DistinctBelow 1 ∧
      Session.start ourSettings .repdigits world = .ok started ∧
      started.Runs (Action.Keyed 1) described ∧
      ((downloadBatch "e" "b").run described).1 = .ok report ∧
      RecordedDownload "e" "b" report described ((downloadBatch "e" "b").run described).2 := by
  intro world started accepted described other report
  have hdistinct : IdSource.repdigits.DistinctBelow 1 :=
    IdSource.distinctBelow_repdigits.mono (by decide)
  have hstart : Session.start ourSettings .repdigits world = .ok started :=
    start_repdigits (by decide) world
  have hends : (accepted.ids.drawn ≤ 1 ∧ described.ids.drawn ≤ 1) ∧
      ((downloadBatch "e" "b").run described).1 = .ok report := by decide +kernel
  obtain ⟨⟨haccepted, hdescribed⟩, hreport⟩ := hends
  have hmeeting : started.Runs (Action.Keyed 1) accepted := by
    refine runs_of_eq_after rfl (fun action hmem s hdrawn => ⟨hdrawn, ?_⟩) haccepted
    rintro endpoint descriptor rfl
    simp [meeting] at hmem
  have hruns : started.Runs (Action.Keyed 1) described := by
    refine .act (.receiveDescriptor "e" _) hmeeting ⟨hdescribed, ?_⟩
    rintro _ _ ⟨⟩
    decide +kernel
  have hjournaled := journaled_of_runs hdistinct hstart hruns "e"
  exact ⟨hdistinct, hstart, hruns, hreport, hjournaled.downloading "b" hreport⟩

end Session

end PeerTransfer
