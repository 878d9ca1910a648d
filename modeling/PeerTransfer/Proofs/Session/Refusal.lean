import PeerTransfer.Proofs.Session.Arising

/-!
# Actions that fail

Several operations change an endpoint first and take that back when something fails. All of it is
taken back: an action that fails leaves the endpoints, their order and the selection as they were
(`run_of_failure`). There are two exceptions, which `Leaves` lists, and nothing but records is left
by them.
-/

namespace PeerTransfer

open List

theorem failureOf_eq_some {α : Type} {result : Except Failure α} {failure : Failure} :
    failureOf result = some failure ↔ result = .error failure := by
  cases result <;> simp [failureOf]

namespace Endpoint

variable {p : Endpoint} {batch : String}

theorem setOutgoing_self {found : OutgoingBatch} (h : p.outgoing? batch = some found) :
    p.setOutgoing found = p := by
  unfold setOutgoing
  rw [replaceFirst_self h]

theorem setIncoming_self {found : IncomingBatch} (h : p.incoming? batch = some found) :
    p.setIncoming found = p := by
  unfold setIncoming
  rw [replaceFirst_self h]

end Endpoint

/-- A phase that fails leaves its batch as it was. -/
theorem Phase.AllOrNothing.of_failure {U S W α : Type} [Transferable U S] {required done : S}
    {batch changed : Batch U} {world world' : W} {results : List (Uuid × Except Failure α)}
    {refusal : Option Failure} {result : Except Failure PhaseReport} {failure : Failure}
    (h : AllOrNothing required done batch world results refusal (result, changed, world'))
    (hfailure : failureOf result = some failure) :
    result = .error failure ∧ changed = batch := by
  have hresult : result = .error failure := failureOf_eq_some.1 hfailure
  exact ⟨hresult, congrArg Prod.fst (h.of_refused failure hresult).2⟩

namespace Session

open Table Act

variable {σ : Type} [Services σ] {s : Session σ} {limit : Nat} {action : Action σ} {p q : Endpoint}
  {failure : Failure}

/-- What an action that fails leaves of an endpoint where it does not leave it as it was. A send
that the channel refuses is recorded. Bytes that have arrived but are no batch are recorded and let
go of. -/
inductive Leaves (s : Session σ) (p : Endpoint) : Action σ → Endpoint → Prop
  | unsent {batch : String} {found : OutgoingBatch} {payload : Bytes} {failure : Failure} :
      p.outgoing? batch = some found → found.state = OutgoingState.staged →
      found.encodeWire = .ok payload → p.state = .connected →
      (Services.send p.id payload s.world.services).1 = .error failure →
      Leaves s p (.sendBatch p.id batch)
        (p.log (found.units.map fun unit => ⟨.send, unit.id, unit.label, .failure, 0, 0⟩))
  | spoiled {payload : Int} {content : Bytes} {failure : Failure} {total transferred : UInt64} :
      p.payload? payload = some content →
      (Batch.ofWire content p.name s.settings.localName s.ids).1 = .error failure →
      Leaves s p (.handle (.payloadProgress p.id payload .success total transferred))
        ((p.dropPayload payload).log [badPayloadEntry payload content])

theorem sendEntries_failure {batch : String} {found : OutgoingBatch}
    (h : p.outgoing? batch = some found) :
    sendEntries p batch .failure =
      found.units.map fun unit => ⟨.send, unit.id, unit.label, .failure, 0, 0⟩ := by
  rw [sendEntries, h]
  rfl

theorem Turn.eq_or_leaves (hsound : p.Sound limit s.ids) (h : Turn s p action (some failure) q) :
    q = p ∨ Leaves s p action q := by
  generalize hfailure? : some failure = failure? at h
  cases h with
  | @loaded batch found changed result disk hfound hstate hran hended =>
    have hmem : found ∈ p.outgoing := mem_of_find?_eq_some hfound
    have hphase := Phase.allOrNothing_runLoad s.world.disk (hsound.soundOutgoing hmem).unit_ids
      (Phase.of_not_panicked_runLoad (by rwa [hran]))
    rw [hran] at hphase
    obtain ⟨rfl, rfl⟩ := hphase.of_failure hfailure?.symm
    left
    rw [Endpoint.setOutgoing_self hfound]
    exact Endpoint.log_nil p
  | @staged batch found changed result world hfound hstate hran hended =>
    have hmem : found ∈ p.outgoing := mem_of_find?_eq_some hfound
    have hbatch := hsound.soundOutgoing hmem
    have hphase := Phase.allOrNothing_runStage s.world hbatch.unit_ids hbatch.coherent
      (Phase.of_not_panicked_runStage hbatch.coherent (by rwa [hran]))
    rw [hran] at hphase
    obtain ⟨rfl, rfl⟩ := hphase.of_failure hfailure?.symm
    left
    rw [Endpoint.setOutgoing_self hfound]
    exact Endpoint.log_nil p
  | @downloaded batch found changed result world hfound hstate hran hended =>
    have hmem : found ∈ p.incoming := mem_of_find?_eq_some hfound
    have hphase := Phase.allOrNothing_runDownload s.world (hsound.soundIncoming hmem).unit_ids
      (Phase.of_not_panicked_runDownload (by rwa [hran]))
    rw [hran] at hphase
    obtain ⟨rfl, rfl⟩ := hphase.of_failure hfailure?.symm
    left
    rw [Endpoint.setIncoming_self hfound]
    exact Endpoint.log_nil p
  | unsent hfound hstaged hpayload hstate hanswer =>
    rw [sendEntries_failure hfound]
    exact .inr (.unsent hfound hstaged hpayload hstate hanswer)
  | spoiled hpayload hbatch => exact .inr (.spoiled hpayload hbatch)
  | _ => cases hfailure?

theorem endpoints_of_leaves (hdistinct : s.table.Distinct) (hfind : s.table.find? p.id = some p)
    (h : Leaves s p action q) :
    (action.run s).table.endpoints = (s.table.focus q []).endpoints := by
  unfold Action.run
  cases h with
  | @unsent batch found payload failure hfound hstaged hpayload hstate hanswer =>
    dsimp only
    rw [run_sendBatch hdistinct hfind, hfound]
    dsimp only
    rw [if_neg (not_not_intro hstaged), hpayload]
    dsimp only
    rw [if_pos hstate, hanswer, setState_of_eq hstate, sendEntries_failure hfound]
    rfl
  | @spoiled payload content failure total transferred hpayload hbatch =>
    unfold handle
    dsimp only
    rw [if_neg (by simp), run_finishPayload_success hdistinct hfind hpayload]
    dsimp only
    rw [hbatch]
    rfl

/-- An action that fails leaves the endpoints, their order and the selection as they were, unless
it is one of the two that leave a record. Where it is asked for a connection, or to end one, the
endpoint is still there as it was. -/
theorem run_of_failure (h : s.Reachable limit) (hfailure : action.failure? s = some failure) :
    (action.run s).table.selected = s.table.selected ∧
      (∀ p q, s.table.find? p.id = some p → Leaves s p action q →
        (action.run s).table.endpoints = (s.table.focus q []).endpoints) ∧
      ((∀ p q, s.table.find? p.id = some p → ¬Leaves s p action q) →
        (action.run s).table.endpoints = s.table.endpoints) ∧
      ∀ id, action = .connect id ∨ action = .disconnect id →
        (action.run s).table.find? id = s.table.find? id := by
  have hsound := sound_of_reachable h
  have heffect := action.effect hsound.distinct
  rw [hfailure] at heffect
  have hends : (action.run s).table.selected = s.table.selected ∧
      ((action.run s).table.endpoints = s.table.endpoints ∨
        ∃ p q, s.table.find? p.id = some p ∧ Leaves s p action q) := by
    cases heffect with
    | kept hendpoints hselected => exact ⟨by simpa using hselected, .inl hendpoints⟩
    | @turned p q hfind hturn hendpoints hselected =>
      refine ⟨by simpa using hselected, ?_⟩
      rcases hturn.eq_or_leaves (hsound.sound_of_find? hfind) with rfl | hleaves
      · exact .inl (hendpoints.trans (endpoints_focus_self hsound.distinct hfind []))
      · exact .inr ⟨p, q, hfind, hleaves⟩
    | added _ _ _ _ hnone => cases hnone
    -- Only a peer that has called by itself is taken out, and such a peer is never discovered.
    | @removed p hfind _ hnone =>
      obtain ⟨hstate, hincoming⟩ : p.state = .discovered ∧ p.isIncoming = true := by
        simpa using hnone
      exact absurd hstate (h.arises.not_discovered p (mem_of_find? hfind) hincoming)
  obtain ⟨hselected, hendpoints⟩ := hends
  refine ⟨hselected, ?_, ?_, ?_⟩
  · intro p q hfind hleaves
    exact endpoints_of_leaves hsound.distinct hfind hleaves
  · intro hnot
    rcases hendpoints with hendpoints | ⟨p, q, hfind, hleaves⟩
    · exact hendpoints
    · exact absurd hleaves (hnot p q hfind)
  · intro id hasked
    rcases hendpoints with hendpoints | ⟨p, q, hfind, hleaves⟩
    · exact find?_congr hendpoints id
    · rcases hasked with rfl | rfl <;> cases hleaves

/-- The channel refuses to send a staged batch, which is recorded, and then to disconnect. -/
theorem run_of_failure_refused_twice :
    let batch := "22222222-2222-2222-2222-222222222222"
    let refusal : Failure := .reported .collaborator "out of reach"
    let staged : Session InMemory := (opened ourSettings ⟨ourDisk, InMemory.empty⟩).after
      (meeting "e" "peer" ++ offering "e" batch [⟨"/a"⟩])
    let faulty : Session InMemory := { staged with
      world := { staged.world with
        services := { staged.world.services with
          sendFault := some refusal
          disconnectFault := some refusal } } }
    let unsent := (Action.sendBatch "e" batch).run faulty
    (faulty.Reachable 3 ∧ (Action.sendBatch "e" batch).failure? faulty = some refusal ∧
      ∃ p q, faulty.table.find? p.id = some p ∧ Leaves faulty p (.sendBatch "e" batch) q ∧
        ((Action.sendBatch "e" batch).run faulty).table.endpoints =
          (faulty.table.focus q []).endpoints) ∧
      unsent.Reachable 3 ∧ (Action.disconnect "e").failure? unsent = some refusal ∧
      ((Action.disconnect "e").run unsent).table.endpoints = unsent.table.endpoints := by
  intro batch refusal staged faulty unsent
  have hstaged : staged.Reachable 3 := reachable_after_opened (by decide) (by decide)
    (by simp [meeting, offering]) (by decide +kernel)
  have hfaulty : faulty.Reachable 3 := .world _ hstaged
  have hunsent : unsent.Reachable 3 := .sendBatch "e" batch hfaulty
  have hfailures : (Action.sendBatch "e" batch).failure? faulty = some refusal ∧
      (Action.disconnect "e").failure? unsent = some refusal := by decide +kernel
  have hready : ((faulty.table.find? "e").bind fun p => (p.outgoing? batch).map fun found =>
      (p.state, found.state, found.encodeWire.toOption.isSome)) =
        some (.connected, .staged, true) := by decide +kernel
  obtain ⟨p, hp, hready⟩ := Option.bind_eq_some_iff.1 hready
  obtain ⟨found, hfound, hready⟩ := Option.map_eq_some_iff.1 hready
  obtain ⟨hstate, hready⟩ := Prod.mk.inj hready
  obtain ⟨hstaged, hready⟩ := Prod.mk.inj hready
  obtain ⟨payload, hpayload⟩ := Option.isSome_iff_exists.1 hready
  have hencoded : found.encodeWire = .ok payload := by
    cases hwire : found.encodeWire with
    | error failure =>
      rw [hwire] at hpayload
      cases hpayload
    | ok bytes =>
      rw [hwire] at hpayload
      cases hpayload
      rfl
  have hid : p.id = "e" := id_of_find? hp
  have hrefused : (Services.send p.id payload faulty.world.services).1 = .error refusal := rfl
  have hleaves := Leaves.unsent hfound hstaged hencoded hstate hrefused
  rw [hid] at hleaves
  have hfind : faulty.table.find? p.id = some p := by rw [hid]; exact hp
  have hkept : ∀ q r, unsent.table.find? q.id = some q →
      ¬Leaves unsent q (.disconnect "e") r := by
    intro q r _ hnot
    cases hnot
  have hrecorded := (run_of_failure hfaulty hfailures.1).2.1 p _ hfind hleaves
  have hback := (run_of_failure hunsent hfailures.2).2.2.1 hkept
  exact ⟨⟨hfaulty, hfailures.1, p, _, hfind, hleaves, hrecorded⟩, hunsent, hfailures.2, hback⟩

end Session

end PeerTransfer
