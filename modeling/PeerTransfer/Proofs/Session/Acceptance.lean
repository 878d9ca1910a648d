import PeerTransfer.Proofs.History
import PeerTransfer.Proofs.Services.Published
import PeerTransfer.Proofs.Session.Arising
import PeerTransfer.Proofs.Session.Traffic

/-!
# Traffic and the handshake

A peer is connected only by a handshake that succeeds, and remains so at most as long as it is
known. What a session asks of the store, the registry or the channel for a batch, it asks for a peer
that is connected. So nothing is handed over for a peer, or fetched from it, that was not accepted
since it became known (`accepted_of_asks`).
-/

namespace PeerTransfer.Session

open List Table Act

variable {σ : Type}

section History

variable [Services σ] {s s₀ : Session σ} {history : List (Action σ)} {action : Action σ}
  {failure? : Option Failure} {id : String} {p q : Endpoint}

/-- That the handshake has succeeded was handled with success, and the endpoint has been known ever
since. -/
def AcceptedSince (s₀ : Session σ) (id : String) : List (Action σ) → Prop :=
  Since (fun before action => action = .handle (.connectionAccepted id) ∧
      action.failure? (s₀.after before) = none)
    fun history => ((s₀.after history).table.find? id).isSome

/-- Only a handshake that succeeds connects an endpoint that was not connected. -/
theorem Turn.isConnected (h : Turn s p action failure? q) (hq : q.state.isConnected) :
    p.state.isConnected ∨ action = .handle (.connectionAccepted p.id) ∧ failure? = none := by
  cases h with
  | accepted => exact .inr ⟨rfl, rfl⟩
  | sent _ _ _ hstate => exact .inl (by rw [hstate]; rfl)
  | ended =>
    refine .inl ?_
    rw [state_recordSend] at hq
    unfold giveFree at hq
    dsimp only at hq
    split_ifs at hq with hsending
    · rw [hsending]
      rfl
    · exact hq
  | requested | initiated | rejected => cases hq
  | _ => exact .inl hq

theorem acceptedSince_concat (harises : (s₀.after history).Arises)
    (h : ∀ p, (s₀.after history).table.find? id = some p → p.state.isConnected →
      AcceptedSince s₀ id history)
    (hq : (s₀.after (history ++ [action])).table.find? id = some q) (hstate : q.state.isConnected) :
    AcceptedSince s₀ id (history ++ [action]) := by
  have hknown : ((s₀.after (history ++ [action])).table.find? id).isSome := by
    rw [hq]
    rfl
  refine since_concat_iff.2 ⟨hknown, ?_⟩
  have heffect := action.effect harises.distinct
  rw [after_concat] at hq
  cases hp : (s₀.after history).table.find? id with
  | none =>
    obtain ⟨name, ⟨medium, -, rfl⟩ | ⟨-, rfl⟩⟩ := heffect.eq_new hp hq <;> cases hstate
  | some p =>
    obtain rfl : p.id = id := id_of_find? hp
    rcases heffect.eq_or_turn hp hq with rfl | hturn
    · exact .inr (h q hp hstate)
    · exact (hturn.isConnected hstate).symm.imp_right (h p hp)

/-- An endpoint that is connected was accepted since it became known. -/
theorem acceptedSince_of_isConnected (hnone : s₀.table.endpoints = []) (harises : s₀.Arises)
    (hp : (s₀.after history).table.find? id = some p) (hstate : p.state.isConnected) :
    AcceptedSince s₀ id history := by
  induction history using reverseRecOn generalizing p with
  | nil =>
    have hfind : (s₀.after []).table.endpoints.find? (·.id = id) = some p := hp
    rw [show (s₀.after []).table.endpoints = [] from hnone] at hfind
    cases hfind
  | append_singleton history action ih =>
    exact acceptedSince_concat (harises.after history) (fun p => ih) hp hstate

end History

/-! ## What is asked for a batch -/

variable {s : Session (Recorded σ)} {action : Action (Recorded σ)} {call : Call}

/-- The action makes the call for a batch of the endpoint. -/
inductive Asks (p : Endpoint) : Action (Recorded σ) → Call → Prop
  | upload {batch : String} {found : OutgoingBatch} {unit : OutgoingUnit} {content : Bytes}
      {answer : Except Failure Unit} : p.outgoing? batch = some found → unit ∈ found.units →
      Asks p (.stageBatch p.id batch)
        (.upload content (unit.remotePath.getD (Phase.remotePathFor found.id unit)) answer)
  | publish {batch : String} {found : OutgoingBatch} {descriptor : Descriptor}
      {answer : Except Failure String} : p.outgoing? batch = some found →
      descriptor.batchId = found.id →
      Asks p (.stageBatch p.id batch) (.publish descriptor answer)
  | download {batch : String} {found : IncomingBatch} {unit : IncomingUnit}
      {answer : Except Failure Bytes} : p.incoming? batch = some found → unit ∈ found.units →
      Asks p (.downloadBatch p.id batch) (.download unit.remotePath answer)
  | send {batch : String} {found : OutgoingBatch} {payload : Bytes} {answer : Except Failure Unit} :
      p.outgoing? batch = some found → found.encodeWire = .ok payload →
      Asks p (.sendBatch p.id batch) (.send p.id payload answer)

variable [Services σ]

/-- What an action asks for a batch, it asks for an endpoint that is connected. -/
theorem exists_connected_of_asks (hdistinct : s.table.Distinct)
    (hinside : ∀ world, action ≠ .outside world) :
    ∃ made, (action.run s).world.services.calls = s.world.services.calls ++ made ∧
      ∀ call ∈ made, ¬call.IsSignal →
        ∃ p, s.table.find? p.id = some p ∧ p.state = .connected ∧ Asks p action call := by
  have htraffic := action.traffic hdistinct
  generalize (action.run s).world.services = recorded at htraffic ⊢
  cases htraffic with
  | silent => exact ⟨[], (append_nil _).symm, by simp⟩
  | outside world => exact absurd rfl (hinside world)
  | connected | disconnected =>
    refine ⟨[_], rfl, ?_⟩
    rw [forall_mem_singleton]
    exact fun hsignal => absurd trivial hsignal
  | @staged p batch found hfind hfound hstate =>
    obtain ⟨made, hcalls, hmade⟩ := Recorded.extends_runStage s.settings found s.world
    refine ⟨made, hcalls, fun call hcall _ => ⟨p, hfind, hstate, ?_⟩⟩
    have hkind := hmade call hcall
    cases call with
    | upload content path answer =>
      obtain ⟨unit, hunit, rfl⟩ := hkind
      exact .upload hfound hunit
    | publish descriptor answer => exact .publish hfound hkind
    | _ => cases hkind
  | @downloaded p batch found hfind hfound hstate =>
    obtain ⟨made, hcalls, hmade⟩ := Recorded.extends_runDownload s.settings found s.world
    refine ⟨made, hcalls, fun call hcall _ => ⟨p, hfind, hstate, ?_⟩⟩
    have hkind := hmade call hcall
    cases call with
    | download path answer =>
      obtain ⟨unit, hunit, rfl⟩ := hkind
      exact .download hfound hunit
    | _ => cases hkind
  | @sent p batch found payload hfind hfound hpayload hstate =>
    refine ⟨[_], rfl, ?_⟩
    rw [forall_mem_singleton]
    exact fun _ => ⟨p, hfind, hstate, .send hfound hpayload⟩

/-- Whatever has happened to a session, what an action of it asks of the store, the registry or the
channel for a batch, it asks for the endpoint that has the batch, and that endpoint is connected
when the action begins and was accepted since it became known. -/
theorem accepted_of_asks {settings : Settings} {source : IdSource} {world : World (Recorded σ)}
    {s₀ : Session (Recorded σ)} (hstart : Session.start settings source world = .ok s₀)
    (history : List (Action (Recorded σ))) (action : Action (Recorded σ))
    (hinside : ∀ world, action ≠ .outside world) :
    let s := s₀.after history
    ∃ made, (action.run s).world.services.calls = s.world.services.calls ++ made ∧
      ∀ call ∈ made, ¬call.IsSignal →
        ∃ p, s.table.find? p.id = some p ∧ Asks p action call ∧ p.state = .connected ∧
          AcceptedSince s₀ p.id history := by
  intro s
  have harises : s₀.Arises := .start hstart
  obtain ⟨made, hcalls, hmade⟩ :=
    exists_connected_of_asks (harises.after history).distinct hinside
  refine ⟨made, hcalls, fun call hcall hsignal => ?_⟩
  obtain ⟨p, hp, hstate, hasks⟩ := hmade call hcall hsignal
  refine ⟨p, hp, hasks, hstate, ?_⟩
  exact acceptedSince_of_isConnected (endpoints_of_start hstart).1 harises hp (by rw [hstate]; rfl)

/-- A peer that was accepted is lost and calls anew. It is accepted again, and then a batch is
published for it. -/
theorem accepted_of_asks_known_anew :
    let batch := "22222222-2222-2222-2222-222222222222"
    let world : World (Recorded InMemory) := ⟨ourDisk, ⟨InMemory.empty, []⟩⟩
    let started := opened ourSettings world
    let history : List (Action (Recorded InMemory)) :=
      meeting "e" "peer" ++ .handle (.endpointLost "e") :: meeting "e" "peer" ++
        [.createBatch "e" [⟨"/a"⟩], .loadBatch "e" batch]
    let staging : Action (Recorded InMemory) := .stageBatch "e" batch
    Session.start ourSettings .repdigits world = .ok started ∧
      (∀ world, staging ≠ .outside world) ∧
      ∃ descriptor answer,
        .publish descriptor answer ∈ (staging.run (started.after history)).world.services.calls ∧
        ∃ p, Asks p staging (.publish descriptor answer) ∧ p.state = .connected ∧
          AcceptedSince started p.id history := by
  intro batch world started history staging
  have hstart : Session.start ourSettings .repdigits world = .ok started :=
    start_repdigits (by decide) world
  have hinside : ∀ world, staging ≠ .outside world := by simp [staging]
  obtain ⟨made, hcalls, hmade⟩ := accepted_of_asks hstart history staging hinside
  have hnone : (started.after history).world.services.calls.length = 0 := by decide +kernel
  have hpublished : ((staging.run (started.after history)).world.services.calls.any
      fun call => call.published?.isSome) = true := by decide +kernel
  obtain ⟨call, hcall, hkind⟩ := any_eq_true.1 hpublished
  cases call with
  | publish descriptor answer =>
    refine ⟨hstart, hinside, descriptor, answer, hcall, ?_⟩
    rw [hcalls, eq_nil_of_length_eq_zero hnone, nil_append] at hcall
    obtain ⟨p, -, hasks⟩ := hmade _ hcall fun hsignal => hsignal
    exact ⟨p, hasks⟩
  | _ => cases hkind

end PeerTransfer.Session
