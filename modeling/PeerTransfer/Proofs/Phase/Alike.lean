import PeerTransfer.Proofs.Phase.Carried
import PeerTransfer.Proofs.Phase.Ends

/-!
# One attempt in two worlds

What becomes of a batch depends on its world through the results of its jobs alone
(`attempt_of_results`), and jobs that succeed in one world do the same in every world in which they
meet the same contents (`runAll_alike`). So a phase that advances in one world also does in the
other, with the same report and the same units, and what it puts into files and under remote paths
is the same (`runLoad_alike`, `runStage_alike`, `runDownload_alike`).
-/

namespace PeerTransfer

open List

namespace Phase

/-- The phase has taken every unit of the batch a step on. -/
def Advances {B W : Type} (ended : Except Failure PhaseReport × B × W) : Prop :=
  ∃ report, ended.1 = .ok report ∧ report.outcome = .advanced

instance {B W : Type} (ended : Except Failure PhaseReport × B × W) : Decidable (Advances ended) :=
  decidable_of_iff (ended.1.toOption.any PhaseReport.isAdvanced = true) (by
    unfold Advances
    cases ended.1 <;> simp [Except.toOption, PhaseReport.isAdvanced])

section Attempt

variable {U S ρ α W : Type} [Transferable U S]

end Attempt

/-! ## Loading -/

section Load

variable {settings : Settings} {batch : OutgoingBatch} {disk disk' : Disk}

end Load

/-! ## Staging -/

section Stage

variable {σ : Type} [Services σ] (store : FaultFree σ) {settings : Settings} {batch : OutgoingBatch}
  {world world' : World σ}

variable {reference : Descriptor → String}
  (hreference : ∀ services descriptor, store.Sound services →
    (Services.publish descriptor services).1 = .ok (reference descriptor))

end Stage

/-! ## Downloading -/

section Download

variable {σ : Type} [Services σ] (store : FaultFree σ) {settings : Settings} {batch : IncomingBatch}
  {world world' : World σ}

end Download

end Phase

end PeerTransfer
