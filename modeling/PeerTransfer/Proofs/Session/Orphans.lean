import PeerTransfer.Proofs.Phase.Owned
import PeerTransfer.Proofs.Session.Footprint
import PeerTransfer.Proofs.Session.Outgoing

/-!
# Files without an owner

A session puts files below the folder for its local copies, and an outgoing unit owns each of them
until it is deleted (`owned_of_runs`). There are two ways out of this. A batch that was delivered is
let go of with the copies that it still has, and a unit may be downloaded to where copies are kept.
Batches that give up their copies once they are staged leave none behind; those that keep them leave
all of them behind (`stranded_beside_success`).
-/

namespace PeerTransfer.Session

open List Table Act

variable {σ : Type} {limit : Nat} {l : Disk.Location}

/-- A local copy of an outgoing unit of some endpoint leads to the location. -/
def Owns (s : Session σ) (l : Disk.Location) : Prop :=
  ∃ p ∈ s.table.endpoints, ∃ copy ∈ p.localCopies, copy.place = l

/-- A unit of the batch that the action downloads has its file at the location. -/
def Action.Fetches (l : Disk.Location) (s : Session σ) : Action σ → Prop
  | .downloadBatch id batch =>
    ∃ u ∈ s.incomingUnits id batch, u.state = .received ∧
      (u.targetIn s.settings.downloadFolder).place = l
  | _ => False

/-- The action tells that a batch was delivered which still owns the location. -/
def Action.Strands (l : Disk.Location) (s : Session σ) (action : Action σ) : Prop :=
  ∃ p payload total transferred,
    action = .handle (.payloadProgress p.id payload .success total transferred) ∧
    s.table.find? p.id = some p ∧ p.payload? payload = none ∧
    ∃ batch ∈ p.outgoing, p.inFlight = some batch.id ∧ batch.Owns l

section Owns

variable {s s' : Session σ}

theorem owns_iff : s.Owns l ↔ ∃ batch ∈ s.outgoing, batch.Owns l := by
  constructor
  · rintro ⟨p, hp, copy, hcopy, hplace⟩
    obtain ⟨batch, hbatch, hcopy⟩ := mem_flatMap.1 hcopy
    exact ⟨batch, mem_outgoing_iff.2 ⟨p, hp, hbatch⟩, copy, hcopy, hplace⟩
  · rintro ⟨batch, hbatch, copy, hcopy, hplace⟩
    obtain ⟨p, hp, hbatch⟩ := mem_outgoing_iff.1 hbatch
    exact ⟨p, hp, copy, mem_flatMap.2 ⟨batch, hbatch, hcopy⟩, hplace⟩

/-- While only batches go that do not own the location, a file there is owned if it was before. -/
theorem owns_of_gone {before gone after : List OutgoingBatch}
    (hsplit : s.outgoing = before ++ gone ++ after)
    (hstay : ∀ batch ∈ before ++ after, batch ∈ s'.outgoing)
    (hgone : ∀ batch ∈ gone, ¬batch.Owns l) (hfile : s.world.disk.FileAt l) :
    s'.Owns l ∨ s.world.disk.FileAt l ∧ ¬s.Owns l := by
  by_cases howns : s.Owns l
  · obtain ⟨batch, hbatch, hbatchOwns⟩ := owns_iff.1 howns
    rw [hsplit, mem_append, mem_append] at hbatch
    rcases hbatch with (hbefore | hmem) | hafter
    · exact .inl (owns_iff.2 ⟨batch, hstay _ (mem_append_left _ hbefore), hbatchOwns⟩)
    · exact absurd hbatchOwns (hgone batch hmem)
    · exact .inl (owns_iff.2 ⟨batch, hstay _ (mem_append_right _ hafter), hbatchOwns⟩)
  · exact .inr ⟨hfile, howns⟩

theorem owns_of_same (houtgoing : s'.outgoing = s.outgoing) (hfile : s.world.disk.FileAt l) :
    s'.Owns l ∨ s.world.disk.FileAt l ∧ ¬s.Owns l := by
  have hsplit : s.outgoing = s.outgoing ++ [] ++ [] := by rw [append_nil, append_nil]
  refine owns_of_gone hsplit (fun batch hbatch => ?_) (fun _ => (absurd · not_mem_nil)) hfile
  rwa [houtgoing, ← append_nil s.outgoing]

/-- When a batch becomes another, it is enough to look at these two. -/
theorem owns_of_replace {before after : List OutgoingBatch} {found changed : OutgoingBatch}
    (hsplit : s.outgoing = before ++ found :: after)
    (hsplit' : s'.outgoing = before ++ changed :: after)
    (hchanged : changed.Owns l ∨ s.world.disk.FileAt l ∧ ¬found.Owns l) :
    s'.Owns l ∨ s.world.disk.FileAt l ∧ ¬s.Owns l := by
  rcases hchanged with howns | ⟨hfile, hnot⟩
  · refine .inl (owns_iff.2 ⟨changed, ?_, howns⟩)
    rw [hsplit']
    exact mem_append_right before mem_cons_self
  · rw [append_cons] at hsplit
    refine owns_of_gone hsplit (fun batch hbatch => ?_) (forall_mem_singleton.2 hnot) hfile
    rw [hsplit']
    exact ((sublist_cons_self changed after).append_left before).subset hbatch

/-- No two outgoing units share a file, as the names of files tell the ids of units. -/
theorem Accounted.nodup_places (h : s.Accounted limit) :
    ((s.table.endpoints.flatMap (·.localCopies)).map Path.place).Nodup := by
  have hcopies : s.table.endpoints.flatMap (·.localCopies) =
      (s.outgoing.flatMap (·.units)).filterMap (·.localPath) := by
    unfold outgoing Endpoint.localCopies
    rw [filterMap_flatMap, flatMap_assoc]
  have hids := h.unit_ids
  unfold unitIds at hids
  rw [← map_flatMap] at hids
  rw [hcopies]
  unfold Nodup at hids ⊢
  rw [pairwise_map, pairwise_filterMap]
  rw [pairwise_map] at hids
  refine hids.imp_of_mem fun {u v} hu hv hne copy hcopy copy' hcopy' => ?_
  obtain ⟨b, hb, hu⟩ := mem_flatMap.1 hu
  obtain ⟨b', hb', hv⟩ := mem_flatMap.1 hv
  rw [(h.tracked b hb).localPath_eq u hu copy hcopy,
    (h.tracked b' hb').localPath_eq v hv copy' hcopy']
  exact OutgoingUnit.place_targetIn_ne hne _

end Owns

/-! ## Batches whose send is under way -/

/-- While a send is under way its batch is listed, and all of it is staged. -/
def Engaged (p : Endpoint) : Prop :=
  ∀ batch, p.inFlight = some batch → p.state = .sending ∧
    ∃ found, p.outgoing? batch = some found ∧ found.state = OutgoingState.staged

variable [Services σ]

theorem Turn.engaged {s : Session σ} {action : Action σ} {p q : Endpoint}
    {failure? : Option Failure} (h : Turn s p action failure? q) (hp : Engaged p) : Engaged q := by
  intro batch hflight
  cases h with
  | picked =>
    obtain ⟨hstate, found, hfound, hstaged⟩ := hp batch hflight
    refine ⟨hstate, found, ?_, hstaged⟩
    unfold Endpoint.outgoing? at hfound
    rw [Endpoint.outgoing?, Endpoint.addOutgoing, find?_append, hfound, Option.some_or]
  | sent hfound hstaged =>
    cases hflight
    exact ⟨rfl, _, hfound, hstaged⟩
  | ended =>
    have hnone : ∀ outcome batch, (recordSend (giveFree p) batch outcome).inFlight = none := by
      intro outcome batch
      unfold recordSend
      dsimp only
      split_ifs <;> rfl
    rw [hnone] at hflight
    cases hflight
  | received | upgraded | announced | dropped | spoiled | materialized | unsent =>
    exact hp batch hflight
  -- All that is left asks for another state than that of a claimed connection.
  | requested hother | loaded _ hother | staged _ hother | downloaded _ hother | accepted hother
  | rejected hother => cases (hp batch hflight).1.symm.trans hother
  | initiated hother => simp [(hp batch hflight).1] at hother

theorem Arises.engaged {s : Session σ} (h : s.Arises) : ∀ p ∈ s.table.endpoints, Engaged p := by
  induction h with
  | start hstart =>
    rw [(endpoints_of_start hstart).1]
    rintro p ⟨⟩
  | act action harises ih =>
    refine (action.effect harises.distinct).forall_endpoints ?_ ?_ ?_ ih
    · rintro id name medium batch ⟨⟩
    · rintro id name batch ⟨⟩
    · exact fun p q hp hturn => hturn.engaged hp

/-- A batch whose send is under way is staged. -/
theorem Accounted.staged_of_inFlight {s : Session σ} (haccounted : s.Accounted limit)
    (harises : s.Arises) {p : Endpoint} (hp : p ∈ s.table.endpoints) {batch : OutgoingBatch}
    (hbatch : batch ∈ p.outgoing) (hflight : p.inFlight = some batch.id) :
    ∀ u ∈ batch.units, u.state = .staged := by
  obtain ⟨-, found, hfound, hstaged⟩ := harises.engaged p hp batch.id hflight
  have hmem := mem_outgoing_iff.2 ⟨p, hp, hbatch⟩
  have hid : found.id = batch.id := by simpa using find?_some hfound
  have heq : found = batch := inj_on_of_nodup_map haccounted.batch_ids
    (mem_outgoing_iff.2 ⟨p, hp, mem_of_find?_eq_some hfound⟩) hmem hid
  subst heq
  exact (haccounted.sound found hmem).forall_staged hstaged

/-! ## What becomes of all outgoing batches -/

/-- What holds of all outgoing batches does after an action, if it holds of those that are picked,
loaded and staged with it. -/
theorem forall_outgoing_run {s : Session σ} {action : Action σ} {P Q : OutgoingBatch → Prop}
    (hdistinct : s.table.Distinct) (hsound : ∀ batch ∈ s.outgoing, batch.SoundOutgoing)
    (hstay : ∀ batch ∈ s.outgoing, P batch → Q batch)
    (hpicked : ∀ batch : OutgoingBatch,
      (∀ u ∈ batch.units, ∃ id source, u = .ofPath id source) → Q batch)
    (hloaded : ∀ batch ∈ s.outgoing, P batch →
      (Phase.runLoad s.settings batch s.world.disk).1 ≠ .error .panicked →
      (action.run s).world.disk = (Phase.runLoad s.settings batch s.world.disk).2.2 →
      Q (Phase.runLoad s.settings batch s.world.disk).2.1)
    (hstaged : ∀ batch ∈ s.outgoing, P batch →
      (Phase.runStage s.settings batch s.world).1 ≠ .error .panicked →
      (action.run s).world = (Phase.runStage s.settings batch s.world).2.2 →
      Q (Phase.runStage s.settings batch s.world).2.1)
    (hall : ∀ batch ∈ s.outgoing, P batch) : ∀ batch ∈ (action.run s).outgoing, Q batch := by
  have hold : ∀ batch ∈ s.outgoing, Q batch :=
    fun batch hbatch => hstay batch hbatch (hall batch hbatch)
  cases action.shift hdistinct hsound with
  | outside => exact hold
  | idle houtgoing | downloaded _ _ houtgoing =>
    rw [houtgoing]
    exact hold
  | delivered _ _ _ _ hsplit hsplit' | forgot hsplit hsplit' =>
    exact fun batch hbatch => hold batch ((outgoing_sublist_of_gone hsplit hsplit').subset hbatch)
  | picked hunits hbuild hsplit hsplit' =>
    rw [hsplit, forall_mem_append] at hold
    rw [hsplit', forall_mem_append, forall_mem_cons]
    refine ⟨hold.1, hpicked _ ?_, hold.2⟩
    rw [(Batch.units_of_build hbuild).2, hunits, forall_mem_map]
    exact fun (id, source) _ => ⟨id, source, rfl⟩
  | @loaded p batch found before after _ _ hended hsplit hsplit' hworld =>
    have hfound : found ∈ s.outgoing := hsplit ▸ mem_append_right before mem_cons_self
    rw [hsplit, forall_mem_append, forall_mem_cons] at hold
    rw [hsplit', forall_mem_append, forall_mem_cons]
    exact ⟨hold.1, hloaded found hfound (hall found hfound) hended (by rw [hworld]), hold.2.2⟩
  | @staged p batch found before after _ _ hended hsplit hsplit' hworld =>
    have hfound : found ∈ s.outgoing := hsplit ▸ mem_append_right before mem_cons_self
    rw [hsplit, forall_mem_append, forall_mem_cons] at hold
    rw [hsplit', forall_mem_append, forall_mem_cons]
    exact ⟨hold.1, hstaged found hfound (hall found hfound) hended hworld, hold.2.2⟩

/-! ## What one action leaves -/

variable {s s' : Session σ} {action : Action σ} {Kept : σ → Prop}

theorem Signalled.kept {folder : Path} (hservices : Avoiding Kept folder) {services services' : σ}
    (h : Signalled services services') (hkept : Kept services) : Kept services' := by
  cases h with
  | silent => exact hkept
  | connect id => exact hservices.connect id _ hkept
  | disconnect id => exact hservices.disconnect id _ hkept
  | send id payload => exact hservices.send id payload _ hkept

/-- The world outside touches nothing below the folder for local copies. -/
def Action.Respects (Kept : σ → Prop) (s : Session σ) (action : Action σ) : Prop :=
  ∀ world, action = .outside world → s.world.Avoids Kept s.settings.stagingFolder world

/-- The services are as they are taken to be, all copies can be reached, and staged batches have
given up theirs if they are to. -/
structure Tended (Kept : σ → Prop) (s : Session σ) : Prop where
  kept : Kept s.world.services
  reached : ∀ batch ∈ s.outgoing, batch.Reached s.world.disk
  released : s.settings.releaseAfterStage = true → ∀ batch ∈ s.outgoing, batch.Released

section Step

variable (hservices : Avoiding Kept s.settings.stagingFolder) (harises : s.Arises)
  (haccounted : s.Accounted limit) (htended : s.Tended Kept) (hrespects : action.Respects Kept s)

include hservices harises haccounted htended hrespects

theorem kept_run : Kept (action.run s).world.services ∧
    s.world.disk.LeadsOn s.settings.stagingFolder (action.run s).world.disk := by
  obtain ⟨l, hl⟩ := s.settings.stagingFolder.exists_isAbove
  have hkept := htended.kept
  cases action.shift harises.distinct haccounted.sound with
  | outside world => exact ⟨(hrespects world rfl).kept, (hrespects world rfl).leads⟩
  | idle _ hdisk hsignalled | delivered _ _ _ _ _ _ hdisk hsignalled =>
    rw [hdisk]
    exact ⟨hsignalled.kept hservices hkept, fun _ _ h => h⟩
  | forgot _ _ hdisk hsignalled =>
    rw [hdisk]
    exact ⟨hsignalled.kept hservices hkept, .of_folders (Disk.foldersWithin_discardAll _ _)⟩
  | picked _ _ _ _ hworld =>
    rw [hworld]
    exact ⟨hkept, fun _ _ h => h⟩
  | loaded _ _ _ _ _ hworld =>
    rw [hworld]
    exact ⟨hkept, .of_folders (Phase.foldersWithin_runLoad _ _ _)⟩
  | @staged p batch found before after _ _ hended hsplit _ hworld =>
    have hsound := haccounted.sound found (hsplit ▸ mem_append_right before mem_cons_self)
    have hadds : s.world.AddsOnlyIf Kept True s.settings.stagingFolder l _ :=
      Phase.addsOnlyIf_runStage hservices hl hsound hkept hended
    rw [hworld]
    exact ⟨hadds.kept, hadds.disk.leads⟩
  | @downloaded p batch found _ _ _ hworld =>
    have hadds : s.world.AddsOnlyIf Kept True s.settings.stagingFolder l _ :=
      Phase.addsOnlyIf_runDownload hservices hl s.settings found (fun _ _ _ _ => trivial) hkept
    rw [hworld]
    exact ⟨hadds.kept, hadds.disk.leads⟩

theorem Tended.act : (action.run s).Tended Kept := by
  have hdistinct := harises.distinct
  obtain ⟨hkept, hleads⟩ := kept_run hservices harises haccounted htended hrespects
  have hreached : ∀ batch ∈ s.outgoing, batch.Reached s.world.disk →
      batch.Reached (action.run s).world.disk := fun batch hbatch h =>
    h.of_leadsOn (haccounted.tracked batch hbatch) hleads
  refine ⟨hkept, ?_, fun hrelease => ?_⟩
  · refine forall_outgoing_run hdistinct haccounted.sound hreached ?_ ?_ ?_ htended.reached
    · intro batch hpicked copy hcopy
      obtain ⟨u, hu, hlocal⟩ := Batch.mem_localCopies.1 hcopy
      obtain ⟨id, source, rfl⟩ := hpicked u hu
      cases hlocal
    · intro batch hbatch h hended hdisk
      rw [hdisk]
      exact Phase.reached_runLoad (haccounted.sound batch hbatch) h hended
    · intro batch hbatch h hended _
      exact (hreached batch hbatch h).of_subset
        (Phase.localCopies_runStage (haccounted.sound batch hbatch) hended)
  · rw [action.settings_run hdistinct] at hrelease
    refine forall_outgoing_run hdistinct haccounted.sound (fun _ _ h => h) ?_ ?_ ?_
      (htended.released hrelease)
    · intro batch hpicked u hu hstaged
      obtain ⟨id, source, rfl⟩ := hpicked u hu
      cases hstaged
    · exact fun batch hbatch h hended _ =>
        Phase.released_runLoad (haccounted.sound batch hbatch) h hended
    · exact fun batch hbatch h hended _ =>
        Phase.released_runStage hrelease (haccounted.sound batch hbatch) h hended

/-- A file that stands below the folder for copies after an action is owned, or it stood there
before and was not; or the action has downloaded it or left it behind. -/
theorem owned_run (hl : s.settings.stagingFolder.IsAbove l)
    (hfile : (action.run s).world.disk.FileAt l) :
    ((action.run s).Owns l ∨ s.world.disk.FileAt l ∧ ¬s.Owns l) ∨
      action.Fetches l s ∨ action.Strands l s := by
  cases action.shift harises.distinct haccounted.sound with
  | outside world =>
    have hadds : s.world.AddsOnlyIf Kept False s.settings.stagingFolder l world :=
      (hrespects world rfl).addsOnlyIf hl
    exact .inl (owns_of_same rfl ((hadds.disk.file hfile).resolve_right not_false))
  | idle houtgoing hdisk =>
    rw [hdisk] at hfile
    exact .inl (owns_of_same houtgoing hfile)
  | @delivered p payload total transferred found before after hfind hpayload hflight hfound hsplit
      hsplit' hdisk =>
    rw [hdisk] at hfile
    by_cases howns : found.Owns l
    · exact .inr (.inr ⟨p, payload, total, transferred, rfl, hfind, hpayload, found, hfound,
        hflight, howns⟩)
    · exact .inl (owns_of_gone hsplit (fun _ hb => hsplit' ▸ hb) (forall_mem_singleton.2 howns)
        hfile)
  | @forgot _ before gone after hsplit hsplit' hdisk =>
    rw [hdisk] at hfile
    refine .inl (owns_of_gone hsplit (fun _ hb => hsplit' ▸ hb) ?_ hfile.of_discardAll)
    rintro batch hbatch ⟨copy, hcopy, rfl⟩
    have hmem : batch ∈ s.outgoing := hsplit ▸ mem_append_left _ (mem_append_right _ hbatch)
    have hgone : copy ∈ gone.flatMap fun batch => batch.units.filterMap (·.localPath) :=
      mem_flatMap.2 ⟨batch, hbatch, hcopy⟩
    exact Disk.not_fileAt_discardAll hgone (htended.reached batch hmem copy hcopy) hfile
  | @picked id sources before after draft batch _ _ hsplit hsplit' hworld =>
    rw [hworld] at hfile
    have hsplit₀ : s.outgoing = before ++ [] ++ after := by rw [hsplit, append_nil]
    refine .inl (owns_of_gone hsplit₀ (fun b hb => ?_) (fun _ => (absurd · not_mem_nil)) hfile)
    rw [hsplit']
    exact ((sublist_cons_self batch after).append_left before).subset hb
  | @loaded p batch found before after _ _ hended hsplit hsplit' hworld =>
    rw [hworld] at hfile
    have hmem : found ∈ s.outgoing := hsplit ▸ mem_append_right before mem_cons_self
    exact .inl (owns_of_replace hsplit hsplit'
      (Phase.owned_of_runLoad (haccounted.sound found hmem) hended hfile))
  | @staged p batch found before after _ _ hended hsplit hsplit' hworld =>
    rw [hworld] at hfile
    have hmem : found ∈ s.outgoing := hsplit ▸ mem_append_right before mem_cons_self
    exact .inl (owns_of_replace hsplit hsplit' (Phase.owned_of_runStage hservices hl
      (haccounted.sound found hmem) (haccounted.tracked found hmem) (htended.reached found hmem)
      htended.kept hended hfile))
  | @downloaded p batch found hp hfound houtgoing hworld =>
    rw [hworld] at hfile
    have hadds := Phase.addsOnlyIf_runDownload hservices hl s.settings found
      (fun u hu hstate hplace => show (Action.downloadBatch p.id batch).Fetches l s from
        ⟨u, incomingUnits_of_find? hp hfound ▸ hu, hstate, hplace⟩) htended.kept
    rcases hadds.disk.file hfile with hbefore | hfetches
    · exact .inl (owns_of_same houtgoing hbefore)
    · exact .inr (.inl hfetches)

omit hservices hrespects in
/-- Where batches give up their copies once they are staged, none is left to be forgotten. -/
theorem not_strands_of_released (hrelease : s.settings.releaseAfterStage = true) :
    ¬action.Strands l s := by
  rintro ⟨p, payload, total, transferred, -, hfind, -, batch, hbatch, hflight, howns⟩
  have hp := mem_of_find? hfind
  have hstaged := haccounted.staged_of_inFlight harises hp hbatch hflight
  exact (htended.released hrelease batch (mem_outgoing_iff.2 ⟨p, hp, hbatch⟩)).not_owns hstaged
    howns

end Step

/-- A batch that was delivered is let go of, and nothing is done to the disk. -/
theorem exists_run_delivered (hdistinct : s.table.Distinct) {p : Endpoint}
    (hfind : s.table.find? p.id = some p) {payload : Int} (hpayload : p.payload? payload = none)
    {batch : String} (hflight : p.inFlight = some batch) (total transferred : UInt64) :
    ∃ notices, (Action.handle (.payloadProgress p.id payload .success total transferred)).run s =
      s.focus (recordSend (giveFree p) batch .success) notices := by
  have hrun := congrArg Prod.snd (run_finishPayload hdistinct hfind payload .success)
  rw [hpayload, hflight] at hrun
  dsimp only at hrun
  rw [run_finishSend hdistinct hfind] at hrun
  exact ⟨_, hrun⟩

/-- A copy that is left behind stays where it is, and no endpoint owns it any more. -/
theorem orphaned_of_strands (harises : s.Arises) (haccounted : s.Accounted limit)
    (hstrands : action.Strands l s) :
    (action.run s).world = s.world ∧ ¬(action.run s).Owns l := by
  obtain ⟨p, payload, total, transferred, rfl, hfind, hpayload, found, hfound, hflight, howns⟩ :=
    hstrands
  obtain ⟨notices, hrun⟩ :=
    exists_run_delivered harises.distinct hfind hpayload hflight total transferred
  rw [hrun]
  refine ⟨rfl, fun hafter => ?_⟩
  -- The first batch of the id is the one that owns the location.
  obtain ⟨gone, before, after, -, hid, hp, herase⟩ :=
    exists_of_eraseP (p := fun b : OutgoingBatch => b.id = found.id) hfound (by simp)
  have hgone : gone ∈ p.outgoing := hp ▸ mem_append_right before mem_cons_self
  have hlisted {b : OutgoingBatch} (hb : b ∈ p.outgoing) : b ∈ s.outgoing :=
    mem_outgoing_iff.2 ⟨p, mem_of_find? hfind, hb⟩
  obtain rfl : gone = found :=
    inj_on_of_nodup_map haccounted.batch_ids (hlisted hgone) (hlisted hfound) (by simpa using hid)
  obtain ⟨first, last, hsplit, hfocus, -⟩ := exists_outgoing_split harises.distinct hfind
  have hbefore : s.outgoing = first ++ before ++ [gone] ++ (after ++ last) := by
    rw [hsplit, hp]
    simp
  have houtgoing : _ = first ++ before ++ (after ++ last) :=
    (hfocus (recordSend (giveFree p) gone.id .success) (id_recordSend _ _ _) notices).trans (by
      rw [show (recordSend (giveFree p) gone.id .success).outgoing = before ++ after from herase]
      simp)
  obtain ⟨b, hb, copy, hcopy, hplace⟩ := owns_iff.1 hafter
  obtain ⟨copy', hcopy', hplace'⟩ := howns
  obtain ⟨u, hu, hlocal⟩ := Batch.mem_localCopies.1 hcopy
  obtain ⟨v, hv, hlocal'⟩ := Batch.mem_localCopies.1 hcopy'
  have hstays : b ∈ first ++ before ++ (after ++ last) := houtgoing ▸ hb
  have hmem : b ∈ s.outgoing := by
    rw [hbefore, append_assoc]
    exact ((sublist_append_right _ _).append_left _).subset hstays
  have hne := haccounted.unit_id_ne hbefore hstays (mem_singleton_self gone) hu hv
  refine OutgoingUnit.place_targetIn_ne hne s.settings.stagingFolder ?_
  rw [← (haccounted.tracked b hmem).localPath_eq u hu copy hlocal,
    ← (haccounted.tracked gone (hlisted hgone)).localPath_eq v hv copy' hlocal', hplace, hplace']

/-! ## What a whole run leaves -/

/-- Ids are drawn up to the limit only, and the world outside touches nothing below the folder for
local copies. -/
def Action.Secluded (Kept : σ → Prop) (limit : Nat) (s : Session σ) (action : Action σ) : Prop :=
  (action.run s).ids.drawn ≤ limit ∧ action.Respects Kept s

theorem Action.secluded_of_inside {Kept : σ → Prop} {s s' : Session σ} {action : Action σ}
    (hinside : ∀ world, action ≠ .outside world) (hdrawn : s'.ids.drawn ≤ limit)
    (heq : s' = action.run s) : action.Secluded Kept limit s :=
  ⟨heq ▸ hdrawn, fun world heq => absurd heq (hinside world)⟩

/-- Nothing is downloaded to the location, and where batches keep their copies once they are staged,
none is left behind there. -/
def Action.Tidy (l : Disk.Location) (s : Session σ) (action : Action σ) : Prop :=
  ¬action.Fetches l s ∧ (s.settings.releaseAfterStage = true ∨ ¬action.Strands l s)

section Runs

variable {s₀ : Session σ} (harises : s₀.Arises) (haccounted : s₀.Accounted limit)
  (hservices : Avoiding Kept s₀.settings.stagingFolder) (htended : s₀.Tended Kept)

include harises haccounted hservices htended

theorem tended_of_runs (hruns : s₀.Runs (Action.Secluded Kept limit) s) : s.Tended Kept := by
  induction hruns with
  | refl => exact htended
  | @act s action hruns haction ih =>
    have haccounted' := accounted_of_runs haccounted harises hruns fun _ _ h => h.1
    refine ih.act ?_ (harises.runs hruns) haccounted' haction.2
    rwa [settings_of_runs harises hruns]

theorem owned_of_runs (hl : s₀.settings.stagingFolder.IsAbove l)
    (hruns : s₀.Runs (fun s action => action.Secluded Kept limit s ∧ action.Tidy l s) s)
    (hnone : ¬s₀.world.disk.FileAt l) (hfile : s.world.disk.FileAt l) : s.Owns l := by
  induction hruns with
  | refl => exact absurd hfile hnone
  | @act s action hruns haction ih =>
    have hsecluded := hruns.mono fun _ _ h => h.1
    have harises' := harises.runs hruns
    have haccounted' := accounted_of_runs haccounted harises hsecluded fun _ _ h => h.1
    have htended' := tended_of_runs harises haccounted hservices htended hsecluded
    have hsettings := settings_of_runs harises hruns
    obtain ⟨⟨-, hrespects⟩, hfetches, hkeeps⟩ := haction
    have hstrands : ¬action.Strands l s :=
      hkeeps.elim (not_strands_of_released harises' haccounted' htended') id
    rcases owned_run (hsettings ▸ hservices) harises' haccounted' htended' hrespects
      (hsettings ▸ hl) hfile with (howns | ⟨hbefore, hnot⟩) | hfetched | hstranded
    · exact howns
    · exact absurd (ih hbefore) hnot
    · exact absurd hfetched hfetches
    · exact absurd hstranded hstrands

end Runs

/-- However a session goes on, no two outgoing units share a local copy. While nothing is downloaded
to the folder for copies and no copy is left behind, a file below the folder that was not there at
the start is a copy which an endpoint owns, so that none is left once all endpoints have gone. A
batch that is delivered while it still owns a copy leaves it behind without an owner; batches that
give up their copies once they are staged leave none behind. -/
theorem no_orphans_of_runs {settings : Settings} {source : IdSource} {world : World σ}
    {s₀ : Session σ} (hservices : Avoiding Kept settings.stagingFolder)
    (hdistinct : source.DistinctBelow limit)
    (hstart : Session.start settings source world = .ok s₀) (hkept : Kept s₀.world.services)
    (hruns : s₀.Runs (Action.Secluded Kept limit) s) :
    ((s.table.endpoints.flatMap (·.localCopies)).map Path.place).Nodup ∧
    (∀ l, settings.stagingFolder.IsAbove l → ¬world.disk.FileAt l →
      s₀.Runs (fun s action => action.Secluded Kept limit s ∧ action.Tidy l s) s →
      (s.world.disk.FileAt l → s.Owns l) ∧
      (s.table.endpoints = [] → ¬s.world.disk.FileAt l)) ∧
    (∀ l (action : Action σ), action.Strands l s →
      (action.run s).world = s.world ∧ ¬(action.run s).Owns l) ∧
    (settings.releaseAfterStage = true → ∀ l (action : Action σ), ¬action.Strands l s) := by
  have harises : s₀.Arises := .start hstart
  have hnew := accounted_of_start hdistinct hstart
  have hsettings₀ := (settings_of_start hstart).1
  have hnone := outgoing_of_start hstart
  have htended₀ : s₀.Tended Kept := ⟨hkept, by simp [hnone], by simp [hnone]⟩
  have haccounted := accounted_of_runs hnew harises hruns fun _ _ h => h.1
  have harises' := harises.runs hruns
  rw [← hsettings₀] at hservices ⊢
  have htended := tended_of_runs harises hnew hservices htended₀ hruns
  refine ⟨haccounted.nodup_places, fun l hl hfree htidy => ?_,
    fun l action => orphaned_of_strands harises' haccounted, fun hrelease l action => ?_⟩
  · have hdisk : s₀.world.disk = world.disk := by rw [(start_eq_ok hstart).2]
    rw [← hdisk] at hfree
    have howned := owned_of_runs harises hnew hservices htended₀ hl htidy hfree
    refine ⟨howned, fun hempty hfile => ?_⟩
    obtain ⟨p, hp, -⟩ := howned hfile
    rw [hempty] at hp
    cases hp
  · rw [← settings_of_runs harises hruns] at hrelease
    exact not_strands_of_released harises' haccounted htended hrelease

/-- A batch is loaded, and then its endpoint is lost. -/
theorem no_orphans_of_runs_lost :
    let settings := { ourSettings with releaseAfterStage := true }
    let world : World InMemory := ⟨ourDisk, InMemory.empty⟩
    let started := opened settings world
    let batch := "22222222-2222-2222-2222-222222222222"
    let copy := ["s", "11111111-1111-1111-1111-111111111111"]
    let loaded := started.after
      (meeting "e" "peer" ++ [.createBatch "e" [⟨"/a"⟩], .loadBatch "e" batch])
    let lost := (Action.handle (.endpointLost "e")).run loaded
    Session.start settings .repdigits world = .ok started ∧
      started.Runs (fun s action => action.Secluded InMemory.Harmless 3 s ∧ action.Tidy copy s)
        lost ∧
      loaded.world.disk.FileAt copy ∧ loaded.Owns copy ∧
      lost.table.endpoints = [] ∧ ¬lost.world.disk.FileAt copy := by
  intro settings world started batch copy loaded lost
  have hdistinct : IdSource.repdigits.DistinctBelow 3 :=
    IdSource.distinctBelow_repdigits.mono (by decide)
  have hstart : Session.start settings .repdigits world = .ok started :=
    start_repdigits (by decide) world
  have hends : (loaded.ids.drawn ≤ 3 ∧ lost.ids.drawn ≤ 3) ∧
      loaded.world.disk.lookup copy = some (.file [0x61]) ∧
      lost.table.endpoints = [] := by decide +kernel
  obtain ⟨⟨hloadedDrawn, hlostDrawn⟩, hfile, hempty⟩ := hends
  have htidy (action : Action InMemory) (s : Session InMemory)
      (hdownload : ∀ id batch, action ≠ .downloadBatch id batch)
      (hprogress : ∀ id payload status total transferred,
        action ≠ .handle (.payloadProgress id payload status total transferred)) :
      action.Tidy copy s := by
    refine ⟨fun hfetches => ?_, .inr ?_⟩
    · cases action with
      | downloadBatch id batch => exact hdownload id batch rfl
      | _ => exact hfetches
    · rintro ⟨p, payload, total, transferred, heq, -⟩
      exact hprogress _ _ _ _ _ heq
  have hloaded : started.Runs (fun s action =>
      action.Secluded InMemory.Harmless 3 s ∧ action.Tidy copy s) loaded := by
    refine runs_of_eq_after rfl (fun action hmem s hdrawn =>
      ⟨Action.secluded_of_inside ?_ hdrawn rfl, htidy action s ?_ ?_⟩) hloadedDrawn
    · rintro world rfl
      simp [meeting] at hmem
    · rintro id batch rfl
      simp [meeting] at hmem
    · rintro id payload status total transferred rfl
      simp [meeting] at hmem
  have hlost : started.Runs (fun s action =>
      action.Secluded InMemory.Harmless 3 s ∧ action.Tidy copy s) lost :=
    .act (.handle (.endpointLost "e")) hloaded
      ⟨Action.secluded_of_inside (by simp) hlostDrawn rfl, htidy _ _ (by simp) (by simp)⟩
  have hservices := InMemory.avoiding_of_harmless ⟨"/s"⟩
  have hharmless : InMemory.Harmless started.world.services :=
    fun rule hrule => absurd hrule not_mem_nil
  have habove : Path.IsAbove ⟨"/s"⟩ copy := by unfold Path.IsAbove; decide +kernel
  have hfree : ¬ourDisk.FileAt copy := by
    rintro ⟨content, hcontent⟩
    have hnone : ourDisk.lookup copy = none := by decide +kernel
    rw [hnone] at hcontent
    cases hcontent
  have hleft {s : Session InMemory} (hruns : started.Runs (fun s action =>
      action.Secluded InMemory.Harmless 3 s ∧ action.Tidy copy s) s) :
      (s.world.disk.FileAt copy → s.Owns copy) ∧
        (s.table.endpoints = [] → ¬s.world.disk.FileAt copy) :=
    (no_orphans_of_runs hservices hdistinct hstart hharmless (hruns.mono fun _ _ h => h.1)).2.1
      copy habove hfree hruns
  exact ⟨hstart, hlost, ⟨_, hfile⟩, (hleft hloaded).1 ⟨_, hfile⟩, hempty, (hleft hlost).2 hempty⟩

/-- Where batches keep their copies once they are staged, one that is delivered leaves its copy
behind. It is still there once the endpoint has gone. -/
theorem stranded_beside_success :
    let world : World InMemory := ⟨ourDisk, InMemory.empty⟩
    let started := opened ourSettings world
    let batch := "22222222-2222-2222-2222-222222222222"
    let copy := ["s", "11111111-1111-1111-1111-111111111111"]
    let history := meeting "e" "peer" ++ offering "e" batch [⟨"/a"⟩] ++ [.sendBatch "e" batch]
    let progress : Action InMemory := .handle (.payloadProgress "e" 9 .success 0 0)
    let sent := started.after history
    let delivered := started.after (history ++ [progress])
    let lost := started.after (history ++ [progress, .handle (.endpointLost "e")])
    IdSource.repdigits.DistinctBelow 3 ∧
      Session.start ourSettings .repdigits world = .ok started ∧
      InMemory.Harmless started.world.services ∧
      started.Runs (Action.Secluded InMemory.Harmless 3) lost ∧
      Path.IsAbove ⟨"/s"⟩ copy ∧ ourDisk.lookup copy = none ∧
      sent.Owns copy ∧ delivered.world.disk.FileAt copy ∧ ¬delivered.Owns copy ∧
      lost.table.endpoints = [] ∧ lost.world.disk.FileAt copy := by
  intro world started batch copy history progress sent delivered lost
  have hdistinct : IdSource.repdigits.DistinctBelow 3 :=
    IdSource.distinctBelow_repdigits.mono (by decide)
  have hends : lost.ids.drawn ≤ 3 ∧
      (∃ p ∈ sent.table.endpoints, ∃ path ∈ p.localCopies, path.place = copy) ∧
      delivered.world.disk.lookup copy = some (.file [0x61]) ∧
      (∀ p ∈ delivered.table.endpoints, ∀ path ∈ p.localCopies, path.place ≠ copy) ∧
      lost.table.endpoints = [] ∧ lost.world.disk.lookup copy = some (.file [0x61]) := by
    decide +kernel
  obtain ⟨hdrawn, howns, hfile, hnone, hempty, hleft⟩ := hends
  have hlost : started.Runs (Action.Secluded InMemory.Harmless 3) lost := by
    refine runs_of_eq_after rfl (fun action hmem s h => Action.secluded_of_inside ?_ h rfl) hdrawn
    rintro world rfl
    simp [history, progress, meeting, offering] at hmem
  have hharmless : InMemory.Harmless started.world.services :=
    fun rule hrule => absurd hrule not_mem_nil
  refine ⟨hdistinct, start_repdigits (by decide) world, hharmless, hlost, ?_, by decide +kernel,
    howns, ⟨_, hfile⟩, ?_, hempty, ⟨_, hleft⟩⟩
  · unfold Path.IsAbove
    decide +kernel
  · rintro ⟨p, hp, path, hpath, hplace⟩
    exact hnone p hp path hpath hplace

end PeerTransfer.Session
