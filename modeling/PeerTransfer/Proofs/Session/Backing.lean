import PeerTransfer.Proofs.Phase.Backing
import PeerTransfer.Proofs.Session.Footprint
import PeerTransfer.Proofs.Session.Registered

/-!
# What published batches are backed by

While nobody else touches the copies of units, every loaded unit has a copy of the size that it
tells, and so the store has a blob of that size for every unit of a batch when the batch is
published (`backed_of_published`). A session may itself touch a copy, but only by downloading a unit
to where the copy is. What backs a published batch then stays in the store (`backed_run`).
-/

namespace PeerTransfer.Session

open List Table

variable {σ : Type} {folder : Path} {limit : Nat}

section Copies

variable [Services σ] {s : Session σ} {action : Action σ}

/-- The world outside leaves blobs and copies alone. -/
def Action.Leaves (store : Keeping σ folder) (s : Session σ) (action : Action σ) : Prop :=
  ∀ world, action = .outside world → store.Leaves s.world world

/-- No unit is downloaded to where the copy of a loaded unit is. -/
def Action.SparesCopies (s : Session σ) : Action σ → Prop
  | .downloadBatch id batch =>
    ∀ v ∈ s.incomingUnits id batch, v.state = .received →
      ∀ b ∈ s.outgoing, ∀ u ∈ b.units, u.state = .loaded →
        (u.targetIn s.settings.stagingFolder).place ≠ (v.targetIn s.settings.downloadFolder).place
  | _ => True

omit [Services σ] in
/-- When a batch becomes another, the batches beside it hold their copies unless files change that
are not copies of its units. -/
theorem Accounted.holdsCopies_of_replace (haccounted : s.Accounted limit)
    (h : ∀ batch ∈ s.outgoing, batch.HoldsCopies folder s.world.disk) {s' : Session σ}
    {before after : List OutgoingBatch} {found changed : OutgoingBatch}
    (hsplit : s.outgoing = before ++ found :: after)
    (hsplit' : s'.outgoing = before ++ changed :: after)
    (hchanged : changed.HoldsCopies folder s'.world.disk)
    (hwithin : ∀ u : OutgoingUnit,
      (∀ v ∈ found.units, (u.targetIn folder).place ≠ (v.targetIn folder).place) →
        s.world.disk.FileWithin (u.targetIn folder) s'.world.disk) :
    ∀ batch ∈ s'.outgoing, batch.HoldsCopies folder s'.world.disk := by
  have hsplit₁ : s.outgoing = before ++ [found] ++ after := by rw [hsplit, append_cons]
  have hothers : ∀ b ∈ before ++ after, b.HoldsCopies folder s'.world.disk := by
    intro b hb
    have hmem : b ∈ s.outgoing := by
      rw [hsplit]
      exact ((sublist_cons_self found after).append_left before).subset hb
    refine (h b hmem).of_within fun u hu _ => hwithin u fun v hv => ?_
    exact OutgoingUnit.place_targetIn_ne (haccounted.unit_id_ne hsplit₁ hb mem_cons_self hu hv) _
  rw [forall_mem_append] at hothers
  rw [hsplit', forall_mem_append, forall_mem_cons]
  exact ⟨hothers.1, hchanged, hothers.2⟩

variable (store : Keeping σ folder) (harises : s.Arises) (haccounted : s.Accounted limit)
  (hfolder : s.settings.stagingFolder = folder) (hkept : store.Kept s.world.services)

include harises haccounted hfolder hkept

/-- Whatever becomes of a batch, the other batches hold their copies. -/
theorem holdsCopies_run (h : ∀ batch ∈ s.outgoing, batch.HoldsCopies folder s.world.disk)
    (hleaves : action.Leaves store s) (hspares : action.SparesCopies s) :
    ∀ batch ∈ (action.run s).outgoing, batch.HoldsCopies folder (action.run s).world.disk := by
  subst hfolder
  cases action.shift harises.distinct haccounted.sound with
  | outside world =>
    exact fun b hb => (h b hb).of_within fun u _ _ => (hleaves world rfl).copies u
  | idle houtgoing hdisk =>
    rw [houtgoing, hdisk]
    exact h
  | delivered _ _ _ _ hsplit hsplit' hdisk =>
    rw [hdisk]
    exact fun b hb => h b ((outgoing_sublist_of_gone hsplit hsplit').subset hb)
  | @forgot _ before gone after hsplit hsplit' hdisk =>
    rw [hdisk]
    intro b hb
    refine (h b ((outgoing_sublist_of_gone hsplit hsplit').subset hb)).of_within fun u hu _ => ?_
    rw [hsplit'] at hb
    refine Disk.fileWithin_discardAll (fun copy hcopy => ?_) _
    obtain ⟨g, hg, hcopy⟩ := mem_flatMap.1 hcopy
    obtain ⟨v, hv, hlocal⟩ := mem_filterMap.1 hcopy
    have hgone : g ∈ s.outgoing := hsplit ▸ mem_append_left _ (mem_append_right _ hg)
    rw [(haccounted.tracked g hgone).localPath_eq v hv copy hlocal]
    exact OutgoingUnit.place_targetIn_ne (haccounted.unit_id_ne hsplit hb hg hu hv) _
  | @picked id sources before after draft batch hunits hbuild hsplit hsplit' hworld =>
    have hothers := h
    rw [hsplit, forall_mem_append] at hothers
    rw [hsplit', hworld, forall_mem_append, forall_mem_cons]
    refine ⟨hothers.1, ?_, hothers.2⟩
    unfold Batch.HoldsCopies
    rw [(Batch.units_of_build hbuild).2, hunits, forall_mem_map]
    rintro ⟨id, source⟩ - ⟨⟩
  | @loaded p batch found before after _ _ hended hsplit hsplit' hworld =>
    have hfound : found ∈ s.outgoing := hsplit ▸ mem_append_right before mem_cons_self
    have hids := (haccounted.sound found hfound).unit_ids
    refine haccounted.holdsCopies_of_replace h hsplit hsplit' ?_ fun u hne => ?_
    · rw [hworld]
      exact Phase.holdsCopies_runLoad (h found hfound) hids hended
    · rw [hworld]
      exact Phase.fileWithin_runLoad s.settings s.world.disk hids fun v hv _ => hne v hv
  | @staged p batch found before after _ _ hended hsplit hsplit' hworld =>
    have hfound : found ∈ s.outgoing := hsplit ▸ mem_append_right before mem_cons_self
    have hbatch := haccounted.sound found hfound
    refine haccounted.holdsCopies_of_replace h hsplit hsplit' ?_ fun u hne => ?_
    · rw [hworld]
      exact Phase.holdsCopies_runStage store hbatch (h found hfound) hkept hended
    · rw [hworld]
      refine (Phase.spares_runStage (store.sparing u) s.settings hbatch.unit_ids hbatch.coherent
        (fun v hv _ copy hlocal => ?_) hkept).file
      rw [(haccounted.tracked found hfound).localPath_eq v hv copy hlocal]
      exact hne v hv
  | @downloaded p batch found hp hfound houtgoing hworld =>
    have hlocal := harises.unfetched p (mem_of_find? hp) found (mem_of_find?_eq_some hfound)
    have hapart : ∀ v ∈ s.incomingUnits p.id batch, v.state = .received → _ := hspares
    rw [incomingUnits_of_find? hp hfound] at hapart
    rw [houtgoing, hworld]
    intro b hb
    refine (h b hb).of_within fun u hu hstate => ?_
    exact (Phase.spares_runDownload (store.sparing u) s.settings hlocal
      (fun v hv hreceived => hapart v hv hreceived b hb u hu hstate) hkept).file

end Copies

variable [Services σ]

theorem Signalled.blobWithin (store : Keeping σ folder) {services services' : σ}
    (h : Signalled services services') (hkept : store.Kept services) :
    store.Kept services' ∧ ∀ path, BlobWithin store.blob? path services services' := by
  obtain ⟨file, hsparing⟩ := store.exists_sparing
  cases h with
  | silent => exact ⟨hkept, fun path => .refl _ path _⟩
  | connect id => exact ⟨hsparing.connect id _ hkept, fun path => store.connect id path _ hkept⟩
  | disconnect id =>
    exact ⟨hsparing.disconnect id _ hkept, fun path => store.disconnect id path _ hkept⟩
  | send id payload =>
    exact ⟨hsparing.send id payload _ hkept, fun path => store.send id payload path _ hkept⟩

section Published

variable {store : Keeping (Recorded σ) folder} {s : Session (Recorded σ)}
  {action : Action (Recorded σ)}

section Step

variable (haccounted : s.Accounted limit) (hdistinct : s.table.Distinct)
  (hfolder : s.settings.stagingFolder = folder) (hkept : store.Kept s.world.services)

include haccounted hdistinct hfolder hkept

/-- No action has the store lose what it has for a batch that was published: such a batch is not
staged again, and no other is staged to its remote paths. -/
theorem backed_run (hregistered : s.Registered limit) (hleaves : action.Leaves store s) :
    store.Kept (action.run s).world.services ∧
      ∀ d ∈ s.world.services.published, d.Backed (store.blob? s.world.services) →
        d.Backed (store.blob? (action.run s).world.services) := by
  have hall {services : Recorded σ} (h : store.Kept services ∧
      ∀ path, BlobWithin store.blob? path s.world.services services) :
      store.Kept services ∧ ∀ d ∈ s.world.services.published,
        d.Backed (store.blob? s.world.services) → d.Backed (store.blob? services) :=
    ⟨h.1, fun d _ hbacked => hbacked.of_within fun _ _ => h.2 _ _⟩
  cases action.shift hdistinct haccounted.sound with
  | outside world =>
    have hworld := hleaves world rfl
    exact hall ⟨hworld.kept, hworld.blobs⟩
  | idle _ _ hservices | delivered _ _ _ _ _ _ _ hservices | forgot _ _ _ hservices =>
    exact hall (hservices.blobWithin store hkept)
  | picked _ _ _ _ hworld =>
    rw [hworld]
    exact ⟨hkept, fun d _ hbacked => hbacked⟩
  | loaded _ _ _ _ _ hworld =>
    rw [hworld]
    exact ⟨hkept, fun d _ hbacked => hbacked⟩
  | @staged p batch found before after _ _ hended hsplit _ hworld =>
    have hfound : found ∈ s.outgoing := hsplit ▸ mem_append_right before mem_cons_self
    have hbatch := haccounted.sound found hfound
    have htracked := hfolder ▸ haccounted.tracked found hfound
    rw [hworld]
    rcases hbatch.runStage_cases hended with ⟨failure, hrun⟩ | ⟨hstate, -⟩
    · rw [hrun]
      exact ⟨hkept, fun d _ hbacked => hbacked⟩
    · obtain ⟨hkept', hblobs⟩ := Phase.blobWithin_runStage store hbatch htracked hkept hended
      refine ⟨hkept', fun d hd hbacked => hbacked.of_within fun unit content => ?_⟩
      refine hblobs _ (fun u heq => ?_) content
      -- A remote path tells its batch, and a batch that was published is not staged again.
      have hsome := hregistered.referenced d hd found hfound (Phase.remotePathFor_inj heq).1.symm
      rw [htracked.reference_eq_none hstate nofun] at hsome
      cases hsome
  | downloaded _ _ _ hworld =>
    rw [hworld]
    exact hall (Phase.blobWithin_runDownload store s.settings _ hkept)

/-- A batch is backed when it is published, if its copies were left alone until then. -/
theorem backed_of_published (hcopies : ∀ batch ∈ s.outgoing, batch.HoldsCopies folder s.world.disk)
    (hrecords : action.Records s) :
    ∀ d ∈ (action.run s).world.services.published, d ∈ s.world.services.published ∨
      d.Backed (store.blob? (action.run s).world.services) := by
  have hsame {services : Recorded σ} (h : services.published = s.world.services.published) :
      ∀ d ∈ services.published, d ∈ s.world.services.published ∨
        d.Backed (store.blob? services) :=
    fun d hd => .inl (h ▸ hd)
  cases action.shift hdistinct haccounted.sound with
  | outside world => exact hsame (congrArg (filterMap Call.published?) (hrecords world rfl))
  | idle _ _ hservices | delivered _ _ _ _ _ _ _ hservices | forgot _ _ _ hservices =>
    exact hsame hservices.published_eq
  | picked _ _ _ _ hworld => exact hsame (by rw [hworld])
  | loaded _ _ _ _ _ hworld => exact hsame (by rw [hworld])
  | @staged p batch found before after _ _ hended hsplit _ hworld =>
    have hfound : found ∈ s.outgoing := hsplit ▸ mem_append_right before mem_cons_self
    have hbatch := haccounted.sound found hfound
    have htracked := hfolder ▸ haccounted.tracked found hfound
    rcases hbatch.runStage_cases hended with ⟨failure, hrun⟩ | ⟨hstate, -⟩
    · exact hsame (by rw [hworld, hrun])
    · rcases Recorded.published_runStage s.settings s.world hstate (hbatch.localPath_isSome hstate)
        hbatch.unit_ids with hpublished | ⟨hpublished, hok, -⟩
      · exact hsame (by rw [hworld, hpublished])
      · rw [hworld, hpublished, forall_mem_append, forall_mem_singleton]
        exact ⟨fun d hd => .inl hd, .inr (Phase.backed_of_runStage store hbatch htracked
          (hcopies found hfound) hkept hstate hok hended)⟩
  | downloaded _ _ _ hworld =>
    exact hsame (by rw [hworld, Recorded.published_runDownload])

end Step

/-- The store keeps what it has taken, loaded units have their copies, and published batches are
backed by the store. -/
structure Backing (store : Keeping (Recorded σ) folder) (s : Session (Recorded σ)) : Prop where
  folder_eq : s.settings.stagingFolder = folder
  kept : store.Kept s.world.services
  copies : ∀ batch ∈ s.outgoing, batch.HoldsCopies folder s.world.disk
  backed : ∀ d ∈ s.world.services.published, d.Backed (store.blob? s.world.services)

theorem Backing.act (h : s.Backing store) (haccounted : s.Accounted limit)
    (hregistered : s.Registered limit) (harises : s.Arises) (hrecords : action.Records s)
    (hleaves : action.Leaves store s) (hspares : action.SparesCopies s) :
    (action.run s).Backing store := by
  have hdistinct := harises.distinct
  obtain ⟨hkept, hold⟩ :=
    backed_run haccounted hdistinct h.folder_eq h.kept hregistered hleaves
  refine ⟨?_, hkept, ?_, fun d hd => ?_⟩
  · rw [action.settings_run hdistinct, h.folder_eq]
  · exact holdsCopies_run store harises haccounted h.folder_eq h.kept h.copies hleaves hspares
  · rcases backed_of_published haccounted hdistinct h.folder_eq h.kept h.copies hrecords d hd with
      hbefore | hnew
    · exact hold d hbefore (h.backed d hbefore)
    · exact hnew

end Published

end PeerTransfer.Session
