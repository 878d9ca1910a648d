import PeerTransfer.Proofs.Phase.Jobs
import PeerTransfer.Proofs.Unit.Coherent

/-!
# Services whose calls are recorded

`Recorded σ` answers as the services in `σ` do, and keeps every call with its answer. A session that
runs with it does what it does with the services themselves, and what it has asked of them can be
read from the record.
-/

namespace PeerTransfer

open List

/-- A call of a service, with its answer. -/
inductive Call where
  | upload (content : Bytes) (path : String) (answer : Except Failure Unit)
  | download (path : String) (answer : Except Failure Bytes)
  | publish (descriptor : Descriptor) (answer : Except Failure String)
  | connect (endpoint : String) (answer : Except Failure Unit)
  | disconnect (endpoint : String) (answer : Except Failure Unit)
  | send (endpoint : String) (payload : Bytes) (answer : Except Failure Unit)

namespace Call

/-- The bytes that the call hands over for a peer. -/
def sentTo? (id : String) : Call → Option Bytes
  | send endpoint payload _ => if endpoint = id then some payload else none
  | _ => none

/-- A call that the staging of a batch makes. -/
def Stages (batch : OutgoingBatch) : Call → Prop
  | upload _ path _ =>
    ∃ unit ∈ batch.units, path = unit.remotePath.getD (Phase.remotePathFor batch.id unit)
  | publish descriptor _ => descriptor.batchId = batch.id
  | _ => False

/-- A call that the download of a batch makes. -/
def Fetches (batch : IncomingBatch) : Call → Prop
  | download path _ => ∃ unit ∈ batch.units, path = unit.remotePath
  | _ => False

/-- A call that is about a connection and not about a batch. -/
def IsSignal : Call → Prop
  | connect _ _ | disconnect _ _ => True
  | _ => False

end Call

/-- The state of services, with the calls that were made of them, the oldest first. -/
structure Recorded (σ : Type) where
  services : σ
  calls : List Call

namespace Recorded

variable {σ : Type}

/-- Records a call that was answered in a world. -/
def note {α : Type} (calls : List Call) (call : Except Failure α → Call)
    (answered : Except Failure α × World σ) : Except Failure α × World (Recorded σ) :=
  (answered.1, ⟨answered.2.disk, ⟨answered.2.services, calls ++ [call answered.1]⟩⟩)

/-- Records a call that was answered by the services alone. -/
def noteServices {α : Type} (calls : List Call) (call : Except Failure α → Call)
    (answered : Except Failure α × σ) : Except Failure α × Recorded σ :=
  (answered.1, ⟨answered.2, calls ++ [call answered.1]⟩)

instance [Services σ] : Services (Recorded σ) where
  upload content path world :=
    note world.services.calls (.upload content path)
      (Services.upload content path ⟨world.disk, world.services.services⟩)
  download path world :=
    note world.services.calls (.download path)
      (Services.download path ⟨world.disk, world.services.services⟩)
  publish descriptor recorded :=
    noteServices recorded.calls (.publish descriptor)
      (Services.publish descriptor recorded.services)
  connect endpoint recorded :=
    noteServices recorded.calls (.connect endpoint) (Services.connect endpoint recorded.services)
  disconnect endpoint recorded :=
    noteServices recorded.calls (.disconnect endpoint)
      (Services.disconnect endpoint recorded.services)
  send endpoint payload recorded :=
    noteServices recorded.calls (.send endpoint payload)
      (Services.send endpoint payload recorded.services)
  register listener recorded :=
    { recorded with services := Services.register listener recorded.services }
  unregister listener recorded :=
    { recorded with services := Services.unregister listener recorded.services }

/-- What was handed over for a peer, the oldest first. -/
def sentTo (recorded : Recorded σ) (id : String) : List Bytes :=
  recorded.calls.filterMap (·.sentTo? id)

/-- The second state has recorded more calls, all of one kind. -/
def Extends (Kind : Call → Prop) (recorded recorded' : Recorded σ) : Prop :=
  ∃ made, recorded'.calls = recorded.calls ++ made ∧ ∀ call ∈ made, Kind call

variable {Kind : Call → Prop} {recorded recorded' recorded'' : Recorded σ}

theorem Extends.refl (recorded : Recorded σ) : recorded.Extends Kind recorded :=
  ⟨[], (append_nil _).symm, by simp⟩

theorem Extends.trans (h : recorded.Extends Kind recorded')
    (h' : recorded'.Extends Kind recorded'') : recorded.Extends Kind recorded'' := by
  obtain ⟨made, hcalls, hkind⟩ := h
  obtain ⟨made', hcalls', hkind'⟩ := h'
  refine ⟨made ++ made', ?_, forall_mem_append.2 ⟨hkind, hkind'⟩⟩
  rw [hcalls', hcalls, append_assoc]

theorem extends_of_calls {call : Call} (hcalls : recorded'.calls = recorded.calls ++ [call])
    (hkind : Kind call) : recorded.Extends Kind recorded' :=
  ⟨[call], hcalls, by simpa using hkind⟩

/-- What is read off calls of other kinds only stays as it was. -/
theorem Extends.filterMap_eq {β : Type} {f : Call → Option β} (h : recorded.Extends Kind recorded')
    (hkind : ∀ call, Kind call → f call = none) :
    recorded'.calls.filterMap f = recorded.calls.filterMap f := by
  obtain ⟨made, hcalls, hmade⟩ := h
  have hnone : made.filterMap f = [] :=
    filterMap_eq_nil_iff.2 fun call hcall => hkind call (hmade call hcall)
  rw [hcalls, filterMap_append, hnone, append_nil]

theorem filterMap_of_call {β : Type} {f : Call → Option β} {call : Call}
    (hcalls : recorded'.calls = recorded.calls ++ [call]) (hnone : f call = none) :
    recorded'.calls.filterMap f = recorded.calls.filterMap f := by
  have hextends : recorded.Extends (· = call) recorded' := extends_of_calls hcalls rfl
  refine hextends.filterMap_eq ?_
  rintro _ rfl
  exact hnone

/-! ## The calls of a phase -/

variable [Services σ]

theorem extends_uploadCopy {request : StageRequest}
    (hkind : ∀ content answer, Kind (.upload content request.remotePath answer))
    (world : World (Recorded σ)) :
    world.services.Extends Kind (Phase.uploadCopy request world).2.services := by
  unfold Phase.uploadCopy
  split
  · exact .refl _
  · next content _ =>
    have hupload : world.services.Extends Kind
        (Services.upload content request.remotePath world).2.services :=
      extends_of_calls rfl (hkind _ _)
    split
    · next h =>
      rw [h] at hupload
      exact hupload
    · next h =>
      rw [h] at hupload
      exact hupload

theorem extends_publish {batch : OutgoingBatch}
    (hkind : ∀ descriptor answer, descriptor.batchId = batch.id → Kind (.publish descriptor answer))
    (settings : Settings) (entries : List JournalEntry) (world : World (Recorded σ)) :
    world.services.Extends Kind (Phase.publish settings entries batch world).2.2.services := by
  unfold Phase.publish
  split
  · exact .refl _
  · next descriptor hdescribe =>
    have hpublish : world.services.Extends Kind
        (Services.publish descriptor world.services).2 :=
      extends_of_calls rfl (hkind _ _ (Batch.batchId_of_describe hdescribe))
    split
    · next h =>
      rw [h] at hpublish
      exact hpublish
    · next h =>
      rw [h] at hpublish
      dsimp only
      split_ifs <;> exact hpublish

theorem extends_runStage (settings : Settings) (batch : OutgoingBatch)
    (world : World (Recorded σ)) :
    world.services.Extends (Call.Stages batch)
      (Phase.runStage settings batch world).2.2.services := by
  unfold Phase.runStage
  split
  · exact .refl _
  · dsimp only
    set prepared : OutgoingBatch :=
      { batch with units := batch.units.map (Phase.ensureRemotePath batch.id) }
    have hrun : ∀ u ∈ prepared.units, ∀ request u',
        (Phase.stageSteps (σ := Recorded σ)).start u = .ok (request, u') →
        ∀ world' : World (Recorded σ),
          world.services.Extends (Call.Stages batch) world'.services →
          world.services.Extends (Call.Stages batch)
            (Phase.uploadCopy request world').2.services := by
      intro v hv request v' hstart world' h
      obtain ⟨u, hu, rfl⟩ := mem_map.1 hv
      refine h.trans (extends_uploadCopy (fun content answer => ⟨u, hu, ?_⟩) world')
      rw [Phase.ensureRemotePath_eq] at hstart
      exact (Option.some.inj (OutgoingUnit.paths_of_beginStage hstart).2).symm
    have hattempt := Phase.attempt_induction Phase.stageSteps settings.maxConcurrentUnits.toNat
      prepared hrun (.refl _)
    obtain ⟨units, hunits⟩ := Phase.exists_units_attempt (Phase.stageSteps (σ := Recorded σ))
      settings.maxConcurrentUnits.toNat prepared world
    have hid := congrArg Batch.id hunits
    split
    · next h =>
      rw [h] at hattempt
      exact hattempt
    · next h =>
      rw [h] at hattempt hid
      split
      · refine hattempt.trans
          (extends_publish (fun descriptor answer hdescriptor => ?_) settings _ _)
        exact hdescriptor.trans hid
      · exact hattempt

theorem extends_fetch {request : DownloadRequest}
    (hkind : ∀ answer, Kind (.download request.remotePath answer)) (folder : Path)
    (world : World (Recorded σ)) :
    world.services.Extends Kind (Phase.fetch folder request world).2.services := by
  have hdownload : world.services.Extends Kind
      (Services.download request.remotePath world).2.services := extends_of_calls rfl (hkind _)
  unfold Phase.fetch
  split
  · next h =>
    rw [h] at hdownload
    exact hdownload
  · next h =>
    rw [h] at hdownload
    exact hdownload

theorem extends_runDownload (settings : Settings) (batch : IncomingBatch)
    (world : World (Recorded σ)) :
    world.services.Extends (Call.Fetches batch)
      (Phase.runDownload settings batch world).2.2.services := by
  unfold Phase.runDownload
  split
  · exact .refl _
  · have hrun : ∀ u ∈ batch.units, ∀ request u',
        (Phase.downloadSteps (σ := Recorded σ) settings).start u = .ok (request, u') →
        ∀ world' : World (Recorded σ),
          world.services.Extends (Call.Fetches batch) world'.services →
          world.services.Extends (Call.Fetches batch)
            (Phase.fetch settings.downloadFolder request world').2.services := by
      intro u hu request u' hstart world' h
      refine h.trans (extends_fetch (fun answer => ⟨u, hu, ?_⟩) settings.downloadFolder world')
      change u.beginDownload = _ at hstart
      unfold IncomingUnit.beginDownload at hstart
      split_ifs at hstart
      · cases hstart
        rfl
      · cases hstart
    have hattempt := Phase.attempt_induction (Phase.downloadSteps settings)
      settings.maxConcurrentUnits.toNat batch hrun (.refl _)
    split
    · next h =>
      rw [h] at hattempt
      exact hattempt
    · next h =>
      rw [h] at hattempt
      split <;> exact hattempt

end Recorded

end PeerTransfer
