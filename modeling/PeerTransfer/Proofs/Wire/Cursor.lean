import Mathlib.Tactic
import PeerTransfer.Proofs.Wire.Accepted
import PeerTransfer.Wire.Cursor

/-!
# A cursor never leaves its buffer

A cursor goes the way of the reader that holds the bytes from its offset on (`Follows`): the two
answer alike, and the cursor stays within the buffer. The relation is composed along the steps of
both, and a step that only the cursor takes, to make sure of something, adds nothing to it. So no
step of a cursor is ever a fault, whatever the bytes are (`decode_within`).
-/

namespace PeerTransfer.Wire.Cursor

/-- No offset that the cursor has stood at is outside of the buffer, and the shortest records that
room was reserved for would fit into it. -/
structure Walk.Within (walk : Walk) (buffer : Bytes) : Prop where
  offset_le : walk.offset ≤ buffer.length
  passed_le : ∀ offset ∈ walk.passed, offset ≤ buffer.length
  reserved_le : ∀ count ∈ walk.reserved, minRecordLength * count ≤ buffer.length

/-- The reader that holds the bytes from the offset on. -/
def Walk.reader (walk : Walk) (buffer : Bytes) : Reader where
  offset := walk.offset
  rest := buffer.drop walk.offset

/-- From where the cursor stands it answers as the reader does that holds the bytes from there on,
and stays within the buffer. `Post` holds of an answer and of the walk up to it. -/
inductive Follows {α : Type} (buffer : Bytes) (walk : Walk) (Post : α → Walk → Prop)
    (step : Step α) (read : Read α) : Prop
  | answered {a : α} {walk' : Walk} : walk'.Within buffer → Post a walk' →
      step.run.run walk = (.ok a, walk') →
      read.run (walk.reader buffer) = .ok (a, walk'.reader buffer) →
      Follows buffer walk Post step read
  | refused {error : ReadError} {walk' : Walk} : walk'.Within buffer →
      step.run.run walk = (.error (.refused error), walk') →
      read.run (walk.reader buffer) = .error error →
      Follows buffer walk Post step read

variable {α β : Type} {buffer : Bytes} {walk walk' : Walk} {Post : α → Walk → Prop}
  {Post' : β → Walk → Prop} {step : Step α} {next : α → Step β} {read : Read α}
  {after : α → Read β}

/-! ## One step after the other -/

theorem run_bind_of_answer {a : α} (h : step.run.run walk = (.ok a, walk')) :
    (step >>= next).run.run walk = (next a).run.run walk' := by
  change ExceptT.bindCont next (step.run.run walk).1 (step.run.run walk).2 = _
  rw [h]
  rfl

theorem run_bind_of_stop {stop : Stop} (h : step.run.run walk = (.error stop, walk')) :
    (step >>= next).run.run walk = (.error stop, walk') := by
  change ExceptT.bindCont next (step.run.run walk).1 (step.run.run walk).2 = _
  rw [h]
  rfl

theorem Follows.bind (h : Follows buffer walk Post step read)
    (hnext : ∀ a walk', walk'.Within buffer → Post a walk' →
      Follows buffer walk' Post' (next a) (after a)) :
    Follows buffer walk Post' (step >>= next) (read >>= after) := by
  cases h with
  | @answered a walk' hwithin hpost hstep hread =>
    cases hnext a walk' hwithin hpost with
    | answered hwithin' hpost' hnext' hafter =>
      exact .answered hwithin' hpost' ((run_bind_of_answer hstep).trans hnext')
        ((run_bind_of_ok hread).trans hafter)
    | refused hwithin' hnext' hafter =>
      exact .refused hwithin' ((run_bind_of_answer hstep).trans hnext')
        ((run_bind_of_ok hread).trans hafter)
  | refused hwithin hstep hread =>
    refine .refused hwithin (run_bind_of_stop hstep) ?_
    rw [StateT.run_bind, hread]
    rfl

/-- A step that the cursor takes alone. -/
theorem Follows.alone {a : α} {read : Read β} (h : step.run.run walk = (.ok a, walk'))
    (hreader : walk'.reader buffer = walk.reader buffer)
    (hnext : Follows buffer walk' Post' (next a) read) :
    Follows buffer walk Post' (step >>= next) read := by
  cases hnext with
  | answered hwithin hpost hnext hread =>
    exact .answered hwithin hpost ((run_bind_of_answer h).trans hnext) (hreader ▸ hread)
  | refused hwithin hnext hread =>
    exact .refused hwithin ((run_bind_of_answer h).trans hnext) (hreader ▸ hread)

/-- The reader looks at itself. -/
theorem Follows.look {step : Step β} {look : Reader → Read β}
    (h : Follows buffer walk Post' step (look (walk.reader buffer))) :
    Follows buffer walk Post' step (get >>= look) := by
  cases h with
  | answered hwithin hpost hstep hread =>
    exact .answered hwithin hpost hstep ((run_bind_of_ok (run_get _)).trans hread)
  | refused hwithin hstep hread =>
    exact .refused hwithin hstep ((run_bind_of_ok (run_get _)).trans hread)

theorem follows_pure (hwithin : walk.Within buffer) {a : α} (hpost : Post a walk) :
    Follows buffer walk Post (pure a) (pure a) :=
  .answered hwithin hpost rfl rfl

theorem follows_refuse (hwithin : walk.Within buffer) (error : ReadError) :
    Follows buffer walk Post (refuse error) (throw error) :=
  .refused hwithin rfl rfl

/-! ## What the cursor makes sure of -/

theorem run_difference {length subtracted : Nat} (h : subtracted ≤ length) :
    (difference length subtracted).run.run walk = (.ok (length - subtracted), walk) := by
  unfold difference
  rw [if_neg (Nat.not_lt.2 h)]
  rfl

theorem run_toWord {n : Int} (hn : 0 ≤ n) (hsmall : n < 2 ^ 64) :
    (toWord n).run.run walk = (.ok n.toNat, walk) := by
  have hmod : n % 0x10000000000000000 = n := Int.emod_eq_of_lt hn (by omega)
  unfold toWord
  dsimp only
  rw [hmod, if_neg (not_not.2 (Int.toNat_of_nonneg hn))]
  rfl

theorem run_remaining (h : walk.Within buffer) :
    (remaining buffer).run.run walk = (.ok (walk.reader buffer).rest.length, walk) := by
  unfold remaining
  have hget : (get : Step Walk).run.run walk = (.ok walk, walk) := rfl
  rw [run_bind_of_answer hget, run_difference h.offset_le, Walk.reader, List.length_drop]

theorem run_slice {start stop : Nat} (h : start ≤ stop) (hstop : stop ≤ buffer.length) :
    (slice buffer start stop).run.run walk =
      (.ok ((buffer.drop start).take (stop - start)), walk) := by
  unfold slice
  rw [if_neg (by omega)]
  rfl

/-! ## The steps of a reader -/

/-- The next bytes are taken: as many as were asked for, and the cursor stands behind them. -/
theorem follows_take (h : walk.Within buffer) (count : Nat) :
    Follows buffer walk
      (fun bytes walk' => bytes.length = count ∧ walk'.offset = walk.offset + count)
      (take buffer count) (Wire.take count) := by
  have hget : (get : Step Walk).run.run walk = (.ok walk, walk) := rfl
  have hlength : (walk.reader buffer).rest.length = buffer.length - walk.offset :=
    List.length_drop
  unfold take Wire.take
  refine .alone (run_remaining h) rfl (.look ?_)
  split_ifs with hshort
  · refine .alone hget rfl ?_
    exact follows_refuse h _
  · have hoffset := h.offset_le
    rw [hlength] at hshort
    have hslice : (slice buffer walk.offset (walk.offset + count)).run.run walk =
        (.ok ((walk.reader buffer).rest.take count), walk) := by
      rw [run_slice (by omega) (by omega), Nat.add_sub_cancel_left]
      rfl
    refine .alone hget rfl (.alone hslice rfl ?_)
    have hwithin : Walk.Within
        ⟨walk.offset + count, walk.offset :: walk.passed, walk.reserved⟩ buffer := by
      refine ⟨?_, List.forall_mem_cons.2 ⟨hoffset, h.passed_le⟩, h.reserved_le⟩
      dsimp only
      omega
    refine .answered hwithin ⟨List.length_take_of_le (by omega), rfl⟩ rfl ?_
    change Except.ok _ = Except.ok _
    unfold Walk.reader
    rw [List.drop_drop]

theorem toIntLE_lt (bytes : Bytes) : 2 * Bytes.toIntLE bytes < 256 ^ bytes.length := by
  unfold Bytes.toIntLE
  have hpos : 0 < Nat.pow 256 bytes.length := Nat.pow_pos (by decide)
  have hlt := Int.bmod_lt (x := Bytes.toNatLE bytes) hpos
  rw [Nat.pow_eq] at hlt ⊢
  push_cast at hlt ⊢
  omega

theorem follows_readInt (h : walk.Within buffer) (width : Nat) :
    Follows buffer walk (fun n _ => 2 * n < 256 ^ width) (readInt buffer width)
      (Wire.readInt width) := by
  unfold readInt Wire.readInt
  refine (follows_take h width).bind fun bytes walk' h' hbytes => ?_
  rw [if_neg (not_not.2 hbytes.1)]
  exact follows_pure h' (hbytes.1 ▸ toIntLE_lt bytes)

theorem follows_readText (h : walk.Within buffer) :
    Follows buffer walk (fun _ _ => True) (readText buffer) Wire.readText := by
  unfold readText Wire.readText
  refine (follows_readInt h countWidth).bind fun length walk₁ h₁ hsmall => ?_
  have hget : (get : Step Walk).run.run walk₁ = (.ok walk₁, walk₁) := rfl
  unfold countWidth at hsmall
  split_ifs with hpos
  · exact .look (.alone hget rfl (follows_refuse h₁ _))
  · refine .alone (run_toWord (by omega) (by omega)) rfl (.look ?_)
    refine (follows_take h₁ length.toNat).bind fun bytes walk₂ h₂ hbytes => ?_
    have hget₂ : (get : Step Walk).run.run walk₂ = (.ok walk₂, walk₂) := rfl
    cases hlast : bytes.getLast? with
    | none =>
      -- A length above zero has brought at least one byte.
      rw [List.getLast?_eq_none_iff] at hlast
      rw [hlast] at hbytes
      have hzero := hbytes.1
      rw [List.length_nil] at hzero
      omega
    | some terminator =>
      dsimp only
      by_cases hterminator : terminator = 0
      · rw [if_neg (not_not.2 hterminator), if_neg (not_not.2 (congrArg some hterminator))]
        cases Text.Utf8.decode bytes.dropLast with
        | ok text => exact follows_pure h₂ trivial
        | error refusal => exact follows_refuse h₂ _
      · rw [if_pos hterminator, if_pos (mt Option.some.inj hterminator)]
        have hstart : walk₂.offset - bytes.length = (walk₁.reader buffer).offset := by
          rw [hbytes.1, hbytes.2, Nat.add_sub_cancel]
          rfl
        refine .alone hget₂ rfl (.alone (run_difference (by omega)) rfl ?_)
        rw [hstart]
        exact follows_refuse h₂ _

theorem follows_readRecord (h : walk.Within buffer) :
    Follows buffer walk (fun _ _ => True) (readRecord buffer) Wire.readRecord := by
  unfold readRecord Wire.readRecord
  refine (follows_readText h).bind fun name walk₁ h₁ _ => ?_
  refine (follows_readText h₁).bind fun url walk₂ h₂ _ => ?_
  refine (follows_readInt h₂ sizeWidth).bind fun size walk₃ h₃ hsmall => ?_
  unfold sizeWidth at hsmall
  split_ifs with hnegative
  · exact follows_refuse h₃ _
  · refine .alone (run_toWord (by omega) (by omega)) rfl ?_
    exact follows_pure h₃ trivial

theorem follows_readRecords (h : walk.Within buffer) (count : Nat) :
    Follows buffer walk (fun _ _ => True) (readRecords buffer count) (Wire.readRecords count) := by
  induction count generalizing walk with
  | zero => exact follows_pure h trivial
  | succ count ih =>
    unfold readRecords Wire.readRecords
    refine (follows_readRecord h).bind fun record walk₁ h₁ _ => ?_
    refine (ih h₁).bind fun others walk₂ h₂ _ => ?_
    exact follows_pure h₂ trivial

theorem follows_readAll (h : walk.Within buffer) :
    Follows buffer walk (fun _ _ => True) (readAll buffer) Wire.readAll := by
  unfold readAll Wire.readAll
  refine (follows_readInt h countWidth).bind fun count walk₁ h₁ hsmall => ?_
  unfold countWidth at hsmall
  split_ifs with hnegative
  · exact follows_refuse h₁ _
  refine .alone (run_toWord (by omega) (by omega)) rfl ?_
  refine .alone (run_remaining h₁) rfl (.look ?_)
  dsimp only
  split_ifs with hmany
  · exact follows_refuse h₁ _
  -- What is left pays for the records, so the whole buffer does.
  have hpaid : minRecordLength * count.toNat ≤ buffer.length := by
    rw [Nat.not_lt, Nat.le_div_iff_mul_le (by decide), Nat.mul_comm] at hmany
    exact hmany.trans (List.length_drop.trans_le (Nat.sub_le _ _))
  have h₂ : Walk.Within ⟨walk₁.offset, walk₁.passed, count.toNat :: walk₁.reserved⟩ buffer :=
    ⟨h₁.offset_le, h₁.passed_le, List.forall_mem_cons.2 ⟨hpaid, h₁.reserved_le⟩⟩
  have hreserve : (reserve count.toNat).run.run walk₁ =
      (.ok (), ⟨walk₁.offset, walk₁.passed, count.toNat :: walk₁.reserved⟩) := rfl
  refine .alone hreserve rfl ?_
  refine (follows_readRecords h₂ count.toNat).bind fun records walk₃ h₃ _ => ?_
  refine .alone (run_remaining h₃) rfl (.look ?_)
  split_ifs with hleft
  · exact follows_refuse h₃ _
  · exact follows_pure h₃ trivial

/-! ## The whole buffer -/

/-- Whatever the bytes are, a cursor reads them as a reader does and no step of it is a fault: no
difference is below zero, no slice ends outside of the buffer, no copy has another width than its
word, no number is changed by becoming a length, and no text field lacks its zero byte. At every
point the offset is within the buffer, and the buffer has eighteen bytes for every record that room
is reserved for. -/
theorem decode_within (buffer : Bytes) :
    (decode buffer).1 = (Wire.decode buffer).mapError .refused ∧
      (∀ fault, (decode buffer).1 ≠ .error (.fault fault)) ∧
      (∀ offset ∈ (decode buffer).2.offset :: (decode buffer).2.passed,
        offset ≤ buffer.length) ∧
      ∀ count ∈ (decode buffer).2.reserved,
        count ≤ buffer.length / 18 ∧ 18 * count ≤ buffer.length := by
  have hstart : Walk.start.Within buffer :=
    ⟨Nat.zero_le _, List.forall_mem_nil _, List.forall_mem_nil _⟩
  have hfollows := follows_readAll hstart
  have hbounds {walk : Walk} (h : walk.Within buffer) :
      (∀ offset ∈ walk.offset :: walk.passed, offset ≤ buffer.length) ∧
        ∀ count ∈ walk.reserved, count ≤ buffer.length / 18 ∧ 18 * count ≤ buffer.length := by
    refine ⟨List.forall_mem_cons.2 ⟨h.offset_le, h.passed_le⟩, fun count hcount => ?_⟩
    have hpaid : 18 * count ≤ buffer.length := h.reserved_le count hcount
    exact ⟨by omega, hpaid⟩
  have hread : Wire.decode buffer =
      Prod.fst <$> Wire.readAll.run (Walk.start.reader buffer) := rfl
  unfold decode
  cases hfollows with
  | answered hwithin _ hstep hreader =>
    rw [hstep, hread, hreader]
    exact ⟨rfl, nofun, hbounds hwithin⟩
  | refused hwithin hstep hreader =>
    rw [hstep, hread, hreader]
    exact ⟨rfl, nofun, hbounds hwithin⟩

end PeerTransfer.Wire.Cursor
