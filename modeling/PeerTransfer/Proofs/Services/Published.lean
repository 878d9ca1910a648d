import PeerTransfer.Proofs.Phase.Ends
import PeerTransfer.Proofs.Services.Recorded

/-!
# What staging asks of the store and the registry

Staging uploads the copies of a batch one after the other. If one upload fails, it asks for nothing
more; only if all have succeeded does it ask the registry to publish the batch, and then as its last
call (`calls_runStage`).
-/

namespace PeerTransfer

open List

namespace Call

/-- The descriptor that the registry has taken with the call. -/
def published? : Call → Option Descriptor
  | publish descriptor (.ok _) => some descriptor
  | _ => none

/-- The call has put a blob under the unit's remote path. -/
def Puts (unit : OutgoingUnit) (call : Call) : Prop :=
  ∃ content path, unit.remotePath = some path ∧ call = .upload content path (.ok ())

/-- A call of the store that hands over a blob. -/
def IsUpload : Call → Prop
  | upload _ _ _ => True
  | _ => False

theorem published?_of_isUpload {call : Call} (h : call.IsUpload) : call.published? = none := by
  cases call with
  | upload => rfl
  | _ => cases h

theorem Puts.isUpload {unit : OutgoingUnit} {call : Call} (h : call.Puts unit) :
    call.IsUpload := by
  obtain ⟨content, path, -, rfl⟩ := h
  trivial

theorem forall_isUpload {units : List OutgoingUnit} {calls : List Call}
    (h : Forall₂ (fun unit call => Puts unit call) units calls) :
    ∀ call ∈ calls, call.IsUpload := by
  induction h with
  | nil => simp
  | cons hputs _ ih => exact forall_mem_cons.2 ⟨hputs.isUpload, ih⟩

end Call

namespace Recorded

variable {σ : Type}

/-- The descriptors that the registry has taken, the oldest first. -/
def published (recorded : Recorded σ) : List Descriptor :=
  recorded.calls.filterMap Call.published?

theorem published_of_calls {recorded recorded' : Recorded σ} {made : List Call}
    (h : recorded'.calls = recorded.calls ++ made) :
    recorded'.published = recorded.published ++ made.filterMap Call.published? := by
  unfold published
  rw [h, filterMap_append]

variable [Services σ]

/-- An upload that succeeds is one call; one that fails is at most one. -/
theorem calls_uploadCopy (request : StageRequest) (world : World (Recorded σ)) :
    ∃ made, (Phase.uploadCopy request world).2.services.calls = world.services.calls ++ made ∧
      (∀ call ∈ made, call.IsUpload) ∧
      ∀ size, (Phase.uploadCopy request world).1 = .ok size →
        ∃ content, made = [.upload content request.remotePath (.ok ())] := by
  unfold Phase.uploadCopy
  split
  · exact ⟨[], (append_nil _).symm, by simp, nofun⟩
  · next content _ =>
    have hcalls : (Services.upload content request.remotePath world).2.services.calls =
        world.services.calls ++ [.upload content request.remotePath
          (Services.upload content request.remotePath world).1] := rfl
    cases hupload : Services.upload content request.remotePath world with
    | mk answer world' =>
      rw [hupload] at hcalls
      cases answer with
      | error failure => exact ⟨_, hcalls, by simp [Call.IsUpload], nofun⟩
      | ok answer => exact ⟨_, hcalls, by simp [Call.IsUpload], fun _ _ => ⟨content, rfl⟩⟩

/-- Jobs that have all succeeded have put one blob for each unit, in order. -/
theorem calls_uploadAll {units : List OutgoingUnit} (hready : ∀ u ∈ units, Phase.IsStageable u)
    (world : World (Recorded σ)) :
    ∃ made, (Phase.jobs Phase.stageSteps units world).2.services.calls =
        world.services.calls ++ made ∧ (∀ call ∈ made, call.IsUpload) ∧
      (Phase.failedIn (Phase.jobs Phase.stageSteps units world).1 = [] →
        Forall₂ Call.Puts units made) := by
  rw [Phase.jobs_of_ready Phase.stageLaw hready]
  induction units generalizing world with
  | nil => exact ⟨[], (append_nil _).symm, by simp, fun _ => .nil⟩
  | cons u units ih =>
    rw [forall_mem_cons] at hready
    set request := (Phase.stageLaw (σ := Recorded σ)).request u
    obtain ⟨made, hcalls, huploads, hok⟩ := calls_uploadCopy request world
    obtain ⟨made', hcalls', huploads', hall⟩ := ih hready.2 (Phase.uploadCopy request world).2
    refine ⟨made ++ made', ?_, forall_mem_append.2 ⟨huploads, huploads'⟩, fun hnone => ?_⟩
    · exact hcalls'.trans (by rw [hcalls, append_assoc])
    · rw [Phase.failedIn_eq_nil_iff] at hnone
      obtain ⟨hfirst, hrest⟩ := forall_mem_cons.1 hnone
      obtain ⟨size, hsize⟩ := hfirst
      obtain ⟨content, rfl⟩ := hok size hsize
      obtain ⟨path, hpath⟩ := Option.isSome_iff_exists.1 hready.1.2.2
      refine .cons ⟨content, path, hpath, ?_⟩ (hall (Phase.failedIn_eq_nil_iff.2 hrest))
      have hremote : request.remotePath = path := by
        change u.remotePath.getD default = path
        rw [hpath]
        rfl
      rw [hremote]

/-- Staging a batch asks for uploads only, or it asks for the publication of the batch once it has
put a blob for every unit. -/
theorem calls_runStage (settings : Settings) {batch : OutgoingBatch} (world : World (Recorded σ))
    (hstate : ∀ u ∈ batch.units, u.state = .loaded) (hlocal : ∀ u ∈ batch.units, u.localPath.isSome)
    (hnodup : (batch.units.map Transferable.id).Nodup) :
    ∃ made, (Phase.runStage settings batch world).2.2.services.calls =
        world.services.calls ++ made ∧
      ((∀ call ∈ made, call.IsUpload) ∨
        ∃ uploads answer,
          made = uploads ++ [.publish (Phase.withRemotePaths batch).descriptor answer] ∧
          Forall₂ Call.Puts (Phase.withRemotePaths batch).units uploads ∧
          Phase.failedIn
            (Phase.jobs Phase.stageSteps (Phase.withRemotePaths batch).units world).1 = [] ∧
          ∀ reference, answer = .ok reference →
            (Phase.runStage settings batch world).2.1.reference = some reference) := by
  rcases lt_or_ge Phase.maxPermits settings.maxConcurrentUnits.toNat with hlimit | hlimit
  · rw [Phase.runStage_of_lt_of_loaded hlimit world hstate hlocal]
    exact ⟨[], (append_nil _).symm, .inl fun _ hcall => absurd hcall not_mem_nil⟩
  have hready := Phase.isStageable_withRemotePaths hstate hlocal
  obtain ⟨uploads, hcalls, huploads, hall⟩ := calls_uploadAll hready world
  have hends := Phase.stageEnds_runStage world hlimit hstate hlocal hnodup
  generalize Phase.runStage settings batch world = ended at hends ⊢
  have hpublished (services : Recorded σ) (answer : Except Failure String)
      (h : Services.publish (Phase.withRemotePaths batch).descriptor
        (Phase.jobs Phase.stageSteps (Phase.withRemotePaths batch).units world).2.services =
          (answer, services)) :
      services.calls = world.services.calls ++
        (uploads ++ [.publish (Phase.withRemotePaths batch).descriptor answer]) := by
    cases h
    rw [← append_assoc, ← hcalls]
  cases hends with
  | unitsFailed => exact ⟨uploads, hcalls, .inl huploads⟩
  | @publishFailed report cause services _ hok hpublish =>
    exact ⟨_, hpublished services _ hpublish, .inr ⟨uploads, _, rfl, hall hok, hok, nofun⟩⟩
  | @published report reference services _ hok hpublish =>
    refine ⟨_, hpublished services _ hpublish, .inr ⟨uploads, _, rfl, hall hok, hok, ?_⟩⟩
    rintro _ ⟨⟩
    rfl

/-- Staging a batch publishes nothing, or the batch once all its uploads have succeeded. -/
theorem published_runStage (settings : Settings) {batch : OutgoingBatch}
    (world : World (Recorded σ)) (hstate : ∀ u ∈ batch.units, u.state = .loaded)
    (hlocal : ∀ u ∈ batch.units, u.localPath.isSome)
    (hnodup : (batch.units.map Transferable.id).Nodup) :
    (Phase.runStage settings batch world).2.2.services.published = world.services.published ∨
      (Phase.runStage settings batch world).2.2.services.published =
          world.services.published ++ [(Phase.withRemotePaths batch).descriptor] ∧
        Phase.failedIn
          (Phase.jobs Phase.stageSteps (Phase.withRemotePaths batch).units world).1 = [] ∧
        (Phase.runStage settings batch world).2.1.reference.isSome := by
  obtain ⟨made, hcalls, hmade⟩ := calls_runStage settings world hstate hlocal hnodup
  have hpublished := published_of_calls hcalls
  rcases hmade with huploads | ⟨uploads, answer, rfl, hputs, hok, href⟩
  · have hnothing : made.filterMap Call.published? = [] := filterMap_eq_nil_iff.2
      fun call hcall => Call.published?_of_isUpload (huploads call hcall)
    rw [hnothing, append_nil] at hpublished
    exact .inl hpublished
  · have hnothing : uploads.filterMap Call.published? = [] := filterMap_eq_nil_iff.2
      fun call hcall => Call.published?_of_isUpload (Call.forall_isUpload hputs call hcall)
    rw [filterMap_append, hnothing] at hpublished
    cases answer with
    | error cause => exact .inl (hpublished.trans (append_nil _))
    | ok reference => exact .inr ⟨hpublished, hok, by rw [href reference rfl]; rfl⟩

theorem published_runDownload (settings : Settings) (batch : IncomingBatch)
    (world : World (Recorded σ)) :
    (Phase.runDownload settings batch world).2.2.services.published =
      world.services.published := by
  refine (extends_runDownload settings batch world).filterMap_eq fun call hcall => ?_
  cases call with
  | download => rfl
  | _ => cases hcall

end Recorded

end PeerTransfer
