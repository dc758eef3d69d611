import Vml.Lib.Run
import Vml.SgBuffer

/-!
# Building a chain

A driver builds a chain in a `Sg::Buffer` with `reset`, `add_link`, `add_final_link` and
`modify_link`. The comments in `virtio_sg.hpp` promise that a chain built this way does not break
the driver's obligations: it fits the buffer, its total is right and at most `2 ^ 32 - 1`,
readable descriptors come before writable ones, and exactly the last descriptor of a complete
chain ends it (`Buffer.Contract`).

Two operations can break the promise. `add_descriptor` appends to a full buffer and to a complete
chain, and `modify_link` takes the old length off the total before it refuses a new one.
`Builder.StepOk` says when an operation does neither, and the contract holds throughout a run
exactly when every operation of it is `StepOk`.

* `Builder.contract_iff`: the contract along a run, and every store in bounds, if and only if
  every operation is `StepOk`.
* `Builder.contract_broken`: the three ways to break it.
* `Builder.refused_iff`: an operation that returns an error leaves the buffer and the descriptor
  table as they were, if and only if it is not that refusal of `modify_link`.
-/

namespace Vml

namespace Buffer

/-! ## The contract -/

/-- What building a chain promises of the buffer. -/
structure Contract (b : Buffer) : Prop extends b.Recorded where
  complete_pos : b.completeChain = true → 0 < b.active
  complete_next : b.completeChain = true →
    ∀ i < b.active, contNext (b.descChain i).flags = decide (i + 1 < b.active)

/-- The invariant behind the contract. -/
structure BuilderInv (b : Buffer) : Prop extends b.WellFormed where
  complete_pos : b.completeChain = true → 0 < b.active
  complete_next : b.completeChain = true →
    ∀ i < b.active, contNext (b.descChain i).flags = decide (i + 1 < b.active)
  incomplete_next : b.completeChain = false →
    ∀ i < b.active, contNext (b.descChain i).flags = true

theorem BuilderInv.contract {b : Buffer} (h : b.BuilderInv) : b.Contract :=
  { h with }

theorem IsReset.builderInv {b : Buffer} (h : b.IsReset) : b.BuilderInv :=
  { h.wellFormed with
    complete_pos := by simp [h.completeChain]
    complete_next := by simp [h.completeChain]
    incomplete_next := by simp [h.active] }

/-! ## Adding a descriptor -/

/-- The checks of `add_descriptor`. -/
def Accepts (b : Buffer) (length : UInt32) (flags : UInt16) : Prop :=
  length ≠ 0 ∧ b.sizeBytes + length.toNat ≤ uint32Max.toNat ∧
    (isReadable flags = true → b.seenWritableDesc = false)

instance (b : Buffer) (length : UInt32) (flags : UInt16) : Decidable (b.Accepts length flags) :=
  inferInstanceAs (Decidable (_ ∧ _ ∧ _))

/-- There is an entry left and the chain is still open. -/
def HasRoom (b : Buffer) : Prop :=
  b.active < b.maxChainLength.toNat ∧ b.completeChain = false

section Append

variable {b : Buffer} {table : Table} {newDesc : UInt16} {address : UInt64} {length : UInt32}
  {flags next : UInt16}

/-- While the total is in range, the checks of `add_descriptor` are `Accepts`. -/
theorem addDescriptor_eq (hsize : b.sizeBytes ≤ uint32Max.toNat) :
    (b.Accepts length flags ∧ b.addDescriptor table newDesc address length flags next =
      (.none, b.appendDescriptor newDesc address length flags next,
        Function.update table newDesc { address, length, flags, next })) ∨
    (¬b.Accepts length flags ∧ ∃ err, err ≠ Errno.none ∧
      b.addDescriptor table newDesc address length flags next = (err, b, table)) := by
  have hlen := length.toNat_lt
  have hmax : uint32Max.toNat = 2 ^ 32 - 1 := rfl
  have hadd : sizeAdd b.sizeBytes length.toNat = b.sizeBytes + length.toNat :=
    sizeAdd_of_lt (by omega)
  unfold addDescriptor Accepts
  rw [hadd]
  split_ifs with h0 hsum hro
  · exact .inr ⟨fun h => h.1 h0, _, by decide, rfl⟩
  · exact .inr ⟨fun h => by omega, _, by decide, rfl⟩
  · exact .inr ⟨fun h => by simp [h.2.2 hro.2] at hro, _, by decide, rfl⟩
  · exact .inl ⟨⟨h0, by omega, fun hr => by simpa [hr] using hro⟩, rfl⟩

@[simp] theorem descChain_appendDescriptor :
    (b.appendDescriptor newDesc address length flags next).descChain =
      Function.update b.descChain b.active
        { address, length, flags, linearNext := b.activeChainLength + 1 } := rfl

theorem sizeBytes_appendDescriptor (hacc : b.Accepts length flags) :
    (b.appendDescriptor newDesc address length flags next).sizeBytes =
      b.sizeBytes + length.toNat :=
  have hmax : uint32Max.toNat = 2 ^ 32 - 1 := rfl
  sizeAdd_of_lt (by have := hacc.2.1; omega)

/-- An accepted descriptor is recorded, if there is an entry for it. -/
theorem extends_appendDescriptor (hacc : b.Accepts length flags)
    (hroom : b.active < b.maxChainLength.toNat) :
    b.Extends (b.appendDescriptor newDesc address length flags next) where
  maxChainLength := rfl
  active := toNat_succ16 hroom
  descChain i hi := Function.update_of_ne (Nat.ne_of_lt hi) _ _
  sizeBytes := by
    rw [sizeBytes_appendDescriptor hacc, len, descChain_appendDescriptor, Function.update_self]
  seen := by simp [appendDescriptor, writableAt]
  first := by simp [appendDescriptor, writableAt]
  ordered hseen := by
    have := hacc.2.2
    simp_all [appendDescriptor, writableAt]

theorem wellFormed_appendDescriptor (h : b.WellFormed) (hacc : b.Accepts length flags)
    (hroom : b.active < b.maxChainLength.toNat) :
    (b.appendDescriptor newDesc address length flags next).WellFormed := by
  refine h.extend (extends_appendDescriptor hacc hroom) hroom ?_ ?_
  · rw [len, descChain_appendDescriptor, Function.update_self]
    exact Nat.pos_of_ne_zero fun h0 => hacc.1 (UInt32.toNat_inj.1 h0)
  · rw [sizeBytes_appendDescriptor hacc]
    exact hacc.2.1

theorem flags_appendDescriptor (i : ℕ) :
    ((b.appendDescriptor newDesc address length flags next).descChain i).flags =
      if i = b.active then flags else (b.descChain i).flags := by
  rw [descChain_appendDescriptor, Function.update_apply]
  split_ifs <;> rfl

theorem builderInv_link (h : b.BuilderInv) (hacc : b.Accepts length flags) (hroom : b.HasRoom)
    (hflags : contNext flags = true) :
    (b.appendDescriptor newDesc address length flags next).BuilderInv :=
  have hopen : (b.appendDescriptor newDesc address length flags next).completeChain = false :=
    hroom.2
  { wellFormed_appendDescriptor h.toWellFormed hacc hroom.1 with
    complete_pos := by simp [hopen]
    complete_next := by simp [hopen]
    incomplete_next := by
      intro _ i hi
      rw [(extends_appendDescriptor hacc hroom.1).active] at hi
      rw [flags_appendDescriptor]
      split_ifs with hlast
      · exact hflags
      · exact h.incomplete_next hroom.2 i (by omega) }

theorem builderInv_finalLink (h : b.BuilderInv) (hacc : b.Accepts length flags)
    (hroom : b.HasRoom) (hflags : contNext flags = false) :
    { b.appendDescriptor newDesc address length flags next with
      completeChain := true : Buffer }.BuilderInv :=
  have hactive := (@extends_appendDescriptor b newDesc address _ _ next hacc hroom.1).active
  { (wellFormed_appendDescriptor h.toWellFormed hacc hroom.1).setCompleteChain true with
    complete_pos := fun _ => hactive ▸ Nat.succ_pos _
    complete_next := by
      intro _ i hi
      change i < (b.appendDescriptor newDesc address length flags next).active at hi
      show contNext ((b.appendDescriptor newDesc address length flags next).descChain i).flags =
        decide (i + 1 < (b.appendDescriptor newDesc address length flags next).active)
      rw [hactive] at hi ⊢
      rw [flags_appendDescriptor]
      split_ifs with hlast
      · simp [hflags, hlast]
      · rw [h.incomplete_next hroom.2 i (by omega), eq_comm, decide_eq_true_iff]
        omega
    incomplete_next := by simp }

theorem addLink_buffer (hsize : b.sizeBytes ≤ uint32Max.toNat) :
    (b.addLink table newDesc address length flags next).2.1 =
      if contNext flags = true ∧ b.Accepts length flags then
        b.appendDescriptor newDesc address length flags next
      else b := by
  unfold addLink
  rcases @addDescriptor_eq b table newDesc address length flags next hsize with
    ⟨hacc, heq⟩ | ⟨hacc, err, -, heq⟩
  all_goals by_cases hf : contNext flags = true <;> simp [hf, hacc, heq]

theorem addFinalLink_buffer (hsize : b.sizeBytes ≤ uint32Max.toNat) :
    (b.addFinalLink table newDesc address length flags).2.1 =
      if contNext flags = false ∧ b.Accepts length flags then
        { b.appendDescriptor newDesc address length flags 0 with completeChain := true }
      else b := by
  unfold addFinalLink
  rcases @addDescriptor_eq b table newDesc address length flags 0 hsize with
    ⟨hacc, heq⟩ | ⟨hacc, err, herr, heq⟩
  · by_cases hf : contNext flags = true <;> simp [hf, hacc, heq]
  · by_cases hf : contNext flags = true <;> simp [hf, hacc, heq, herr]

end Append

/-! ## Appending without room -/

/-- What `b'` needs to share with `b` after an append for the append to show. -/
structure Appended (b b' : Buffer) (length : UInt32) : Prop where
  maxChainLength : b'.maxChainLength = b.maxChainLength
  activeChainLength : b'.activeChainLength = b.activeChainLength + 1
  sizeBytes : b'.sizeBytes = b.sizeBytes + length.toNat
  completeChain : b.completeChain = true → b'.completeChain = true
  flags : ∀ i < b.active, (b'.descChain i).flags = (b.descChain i).flags

section NoRoom

variable {b b' : Buffer} {length : UInt32}

theorem appended_appendDescriptor {newDesc : UInt16} {address : UInt64} {flags next : UInt16}
    (hacc : b.Accepts length flags) :
    b.Appended (b.appendDescriptor newDesc address length flags next) length where
  maxChainLength := rfl
  activeChainLength := rfl
  sizeBytes := sizeBytes_appendDescriptor hacc
  completeChain := id
  flags i hi := by rw [flags_appendDescriptor, if_neg (Nat.ne_of_lt hi)]

theorem Appended.close (ha : b.Appended b' length) :
    b.Appended { b' with completeChain := true } length :=
  { ha with completeChain := fun _ => rfl }

theorem Appended.not_contract_of_full (ha : b.Appended b' length) (h0 : length ≠ 0)
    (hfull : b.maxChainLength.toNat ≤ b.active) : ¬b'.Contract := by
  intro h
  have hactive : b'.active = (b.active + 1) % 2 ^ 16 := by
    rw [active, ha.activeChainLength, UInt16.toNat_add]
    rfl
  have hle : b'.active ≤ b.maxChainLength.toNat := ha.maxChainLength ▸ h.active_le
  have hlt : b.active < 2 ^ 16 := b.activeChainLength.toNat_lt
  have hzero : b'.active = 0 := by omega
  have hsize := h.size_eq
  rw [ha.sizeBytes, hzero, descOffset, offsetOf_zero] at hsize
  exact h0 (UInt32.toNat_inj.1 (by rw [UInt32.toNat_zero]; omega))

/-- After a complete chain, the descriptor that ended it is no longer the last. -/
theorem Appended.not_contract_of_complete (ha : b.Appended b' length) (h : b.BuilderInv)
    (hlt : b.active < b.maxChainLength.toNat) (hdone : b.completeChain = true) : ¬b'.Contract := by
  intro h'
  have hactive : b'.active = b.active + 1 := by
    rw [active, ha.activeChainLength]
    exact toNat_succ16 hlt
  have hpos := h.complete_pos hdone
  have hold := h.complete_next hdone (b.active - 1) (by omega)
  have hnew := h'.complete_next (ha.completeChain hdone) (b.active - 1) (by omega)
  rw [ha.flags _ (by omega), hold, hactive, decide_eq_decide] at hnew
  omega

/-- **A descriptor appended without room breaks the contract.** -/
theorem Appended.not_contract (ha : b.Appended b' length) (h : b.BuilderInv) (h0 : length ≠ 0)
    (hroom : ¬b.HasRoom) : ¬b'.Contract := by
  by_cases hfull : b.maxChainLength.toNat ≤ b.active
  · exact ha.not_contract_of_full h0 hfull
  · have hlt := Nat.lt_of_not_le hfull
    have hdone : b.completeChain = true := by
      by_contra hc
      exact hroom ⟨hlt, by simpa using hc⟩
    exact ha.not_contract_of_complete h hlt hdone

end NoRoom

/-! ## Modifying a descriptor -/

/-- `modify_link` on descriptor `i`, once its checks have passed. -/
def modifyDescriptor (b : Buffer) (i : ℕ) (address : UInt64) (length : UInt32) : Buffer :=
  { b with
    sizeBytes := b.sizeBytes - b.len i + length.toNat
    descChain := Function.update b.descChain i { b.descChain i with address, length } }

section Modify

variable {b : Buffer} {table : Table} {i : ℕ} {address : UInt64} {length : UInt32}

/-- The three ways `modify_link` ends: nothing to do, the new length taken, or the new length
refused with the old one already off the total. -/
theorem modifyLink_eq (h : b.WellFormed) :
    ((b.active ≤ i ∨ length = 0) ∧
      ∃ err, b.modifyLink table i address length = (err, b, table)) ∨
    (i < b.active ∧ length ≠ 0 ∧ b.sizeBytes - b.len i + length.toNat ≤ uint32Max.toNat ∧
      ∃ table', b.modifyLink table i address length =
        (.none, b.modifyDescriptor i address length, table')) ∨
    (i < b.active ∧ length ≠ 0 ∧ uint32Max.toNat < b.sizeBytes - b.len i + length.toNat ∧
      b.modifyLink table i address length =
        (.badr, { b with sizeBytes := b.sizeBytes - b.len i }, table)) := by
  have hmax : uint32Max.toNat = 2 ^ 32 - 1 := rfl
  have hsize := h.size_le
  have hlength := length.toNat_lt
  unfold modifyLink
  split_ifs with hi h0
  · exact .inl ⟨.inl hi, _, rfl⟩
  · exact .inl ⟨.inr h0, _, rfl⟩
  · have hlt : i < b.active := Nat.lt_of_not_le hi
    have hsub : sizeSub b.sizeBytes (b.len i) = b.sizeBytes - b.len i :=
      sizeSub_of_le (h.len_le_size hlt) (by omega)
    have hadd : sizeAdd (b.sizeBytes - b.len i) length.toNat =
        b.sizeBytes - b.len i + length.toNat := sizeAdd_of_lt (by omega)
    simp only [hsub, hadd]
    split_ifs with hsum
    · exact .inr (.inr ⟨hlt, h0, by omega, rfl⟩)
    · exact .inr (.inl ⟨hlt, h0, by omega, _, rfl⟩)

@[simp] theorem descChain_modifyDescriptor :
    (b.modifyDescriptor i address length).descChain =
      Function.update b.descChain i { b.descChain i with address, length } := rfl

theorem len_modifyDescriptor :
    (b.modifyDescriptor i address length).len = Function.update b.len i length.toNat := by
  funext j
  rw [len, descChain_modifyDescriptor, Function.update_apply, Function.update_apply]
  split_ifs <;> rfl

theorem flags_modifyDescriptor (j : ℕ) :
    ((b.modifyDescriptor i address length).descChain j).flags = (b.descChain j).flags := by
  rw [descChain_modifyDescriptor, Function.update_apply]
  split_ifs with h
  · rw [h]
  · rfl

theorem wellFormed_modifyDescriptor (h : b.WellFormed) (hi : i < b.active) (h0 : length ≠ 0)
    (hsum : b.sizeBytes - b.len i + length.toNat ≤ uint32Max.toNat) :
    (b.modifyDescriptor i address length).WellFormed where
  active_le := h.active_le
  size_eq := by
    have hmove := @offsetOf_update_of_lt b.len _ _ length.toNat hi
    have hold := h.size_eq
    have hle := h.len_le_size hi
    rw [descOffset, len_modifyDescriptor]
    rw [descOffset] at hold
    show b.sizeBytes - b.len i + length.toNat = offsetOf _ b.active
    omega
  size_le := hsum
  first_lt := h.first_lt
  writable_iff j hj := by
    rw [writableAt, flags_modifyDescriptor]
    exact h.writable_iff j hj
  len_pos j hj := by
    rw [len_modifyDescriptor, Function.update_apply]
    split_ifs
    · exact Nat.pos_of_ne_zero fun hz => h0 (UInt32.toNat_inj.1 hz)
    · exact h.len_pos j hj

theorem builderInv_modifyDescriptor (h : b.BuilderInv) (hi : i < b.active) (h0 : length ≠ 0)
    (hsum : b.sizeBytes - b.len i + length.toNat ≤ uint32Max.toNat) :
    (b.modifyDescriptor i address length).BuilderInv :=
  { wellFormed_modifyDescriptor h.toWellFormed hi h0 hsum with
    complete_pos := h.complete_pos
    complete_next := fun hc j hj => by
      rw [flags_modifyDescriptor]
      exact h.complete_next hc j hj
    incomplete_next := fun hc j hj => by
      rw [flags_modifyDescriptor]
      exact h.incomplete_next hc j hj }

theorem not_contract_of_refused (h : b.WellFormed) (hi : i < b.active) :
    ¬{ b with sizeBytes := b.sizeBytes - b.len i : Buffer }.Contract := by
  intro h'
  have hpos := h.len_pos i hi
  have hle := h.len_le_size hi
  have hsum : b.sizeBytes - b.len i = b.descOffset b.active := h'.size_eq
  have hold := h.size_eq
  omega

end Modify

end Buffer

/-! ## Runs -/

/-- A buffer under construction and the descriptor table it is built into. -/
structure Builder where
  buffer : Buffer
  table : Table

/-- The builder operations with their arguments. -/
inductive BuilderOp
  | reset
  | addLink (desc : UInt16) (address : UInt64) (length : UInt32) (flags next : UInt16)
  | addFinalLink (desc : UInt16) (address : UInt64) (length : UInt32) (flags : UInt16)
  | modifyLink (chainIdx : ℕ) (address : UInt64) (length : UInt32)
  deriving DecidableEq, Repr

namespace Builder

/-- Perform one operation. The error code goes to the caller. -/
def step (s : Builder) : BuilderOp → Builder
  | .reset => { s with buffer := s.buffer.reset }
  | .addLink desc address length flags next =>
      let r := s.buffer.addLink s.table desc address length flags next
      ⟨r.2.1, r.2.2⟩
  | .addFinalLink desc address length flags =>
      let r := s.buffer.addFinalLink s.table desc address length flags
      ⟨r.2.1, r.2.2⟩
  | .modifyLink chainIdx address length =>
      let r := s.buffer.modifyLink s.table chainIdx address length
      ⟨r.2.1, r.2.2⟩

/-- The operation does not append to a full buffer or a complete chain, and does not ask
`modify_link` for a length that takes the total out of range. -/
def StepOk (s : Builder) : BuilderOp → Prop
  | .reset => True
  | .addLink _ _ length flags _ =>
      contNext flags = true → s.buffer.Accepts length flags → s.buffer.HasRoom
  | .addFinalLink _ _ length flags =>
      contNext flags = false → s.buffer.Accepts length flags → s.buffer.HasRoom
  | .modifyLink i _ length =>
      i < s.buffer.active → length ≠ 0 →
        s.buffer.sizeBytes - s.buffer.len i + length.toNat ≤ uint32Max.toNat

/-- The entry of the two arrays that an operation stores to, if it gets as far as a store. -/
def storeIndex (s : Builder) : BuilderOp → Option ℕ
  | .reset => none
  | .addLink _ _ length flags _ =>
      if contNext flags = true ∧ s.buffer.Accepts length flags then some s.buffer.active else none
  | .addFinalLink _ _ length flags =>
      if contNext flags = false ∧ s.buffer.Accepts length flags then some s.buffer.active
      else none
  | .modifyLink i _ length =>
      if i < s.buffer.active ∧ length ≠ 0 then some i else none

/-- The operation stores inside the arrays, if it stores. -/
def StoreInBounds (s : Builder) (op : BuilderOp) : Prop :=
  ∀ i, s.storeIndex op = some i → i < s.buffer.maxChainLength.toNat

/-! ### One operation -/

/-- **An operation that is `StepOk` keeps the invariant.** -/
theorem builderInv_step {s : Builder} {op : BuilderOp} (h : s.buffer.BuilderInv)
    (hok : s.StepOk op) : (s.step op).buffer.BuilderInv := by
  cases op with
  | reset => exact s.buffer.isReset_reset.builderInv
  | addLink desc address length flags next =>
      rw [step, Buffer.addLink_buffer h.size_le]
      split_ifs with hacc
      · exact Buffer.builderInv_link h hacc.2 (hok hacc.1 hacc.2) hacc.1
      · exact h
  | addFinalLink desc address length flags =>
      rw [step, Buffer.addFinalLink_buffer h.size_le]
      split_ifs with hacc
      · exact Buffer.builderInv_finalLink h hacc.2 (hok hacc.1 hacc.2) hacc.1
      · exact h
  | modifyLink i address length =>
      rw [step]
      rcases @Buffer.modifyLink_eq _ s.table i address length h.toWellFormed with
        ⟨-, err, heq⟩ | ⟨hi, h0, hsum, table', heq⟩ | ⟨hi, h0, hsum, heq⟩
      · rw [heq]
        exact h
      · rw [heq]
        exact Buffer.builderInv_modifyDescriptor h hi h0 hsum
      · exact absurd (hok hi h0) (Nat.not_le.2 hsum)

/-- **An operation that is not breaks the contract.** -/
theorem not_contract_step {s : Builder} {op : BuilderOp} (h : s.buffer.BuilderInv)
    (hok : ¬s.StepOk op) : ¬(s.step op).buffer.Contract := by
  cases op with
  | reset => exact absurd trivial hok
  | addLink desc address length flags next =>
      simp only [StepOk, Classical.not_imp] at hok
      obtain ⟨hf, hacc, hroom⟩ := hok
      rw [step, Buffer.addLink_buffer h.size_le, if_pos ⟨hf, hacc⟩]
      exact (Buffer.appended_appendDescriptor hacc).not_contract h hacc.1 hroom
  | addFinalLink desc address length flags =>
      simp only [StepOk, Classical.not_imp] at hok
      obtain ⟨hf, hacc, hroom⟩ := hok
      rw [step, Buffer.addFinalLink_buffer h.size_le, if_pos ⟨hf, hacc⟩]
      exact (Buffer.appended_appendDescriptor hacc).close.not_contract h hacc.1 hroom
  | modifyLink i address length =>
      simp only [StepOk, Classical.not_imp] at hok
      obtain ⟨hi, h0, hsum⟩ := hok
      rw [step]
      rcases @Buffer.modifyLink_eq _ s.table i address length h.toWellFormed with
        ⟨hnop, -⟩ | ⟨-, -, hle, -⟩ | ⟨-, -, -, heq⟩
      · rcases hnop with hge | hz
        · exact absurd hi (Nat.not_lt.2 hge)
        · exact absurd hz h0
      · exact absurd hle hsum
      · rw [heq]
        exact Buffer.not_contract_of_refused h.toWellFormed hi

theorem storeInBounds_of_stepOk {s : Builder} {op : BuilderOp} (h : s.buffer.BuilderInv)
    (hok : s.StepOk op) : s.StoreInBounds op := by
  intro i hi
  have hle := h.active_le
  cases op with
  | reset => simp [storeIndex] at hi
  | addLink desc address length flags next =>
      simp only [storeIndex, Option.ite_none_right_eq_some, Option.some.injEq] at hi
      exact hi.2 ▸ (hok hi.1.1 hi.1.2).1
  | addFinalLink desc address length flags =>
      simp only [storeIndex, Option.ite_none_right_eq_some, Option.some.injEq] at hi
      exact hi.2 ▸ (hok hi.1.1 hi.1.2).1
  | modifyLink j address length =>
      simp only [storeIndex, Option.ite_none_right_eq_some, Option.some.injEq] at hi
      omega

/-! ### Every sequence of operations -/

/-- **The contract holds throughout a run exactly when every operation is `StepOk`**, and then
every store is in bounds. The run starts from any buffer that has been reset. -/
theorem contract_iff (b : Buffer) (table : Table) (ops : List BuilderOp) :
    ((∀ t ∈ ops.scanl step ⟨b.reset, table⟩, t.buffer.Contract) ∧
      AllOk step StoreInBounds ⟨b.reset, table⟩ ops) ↔
    AllOk step StepOk ⟨b.reset, table⟩ ops := by
  have hinit : (⟨b.reset, table⟩ : Builder).buffer.BuilderInv := b.isReset_reset.builderInv
  have hrun := @forall_scanl_iff_allOk _ _ step StepOk (fun s => s.buffer.BuilderInv)
    (fun s => s.buffer.Contract) (fun _ _ => builderInv_step) (fun _ _ => not_contract_step)
    (fun _ => Buffer.BuilderInv.contract) ops _ hinit
  constructor
  · exact fun h => hrun.1 h.1
  · intro h
    have hstores :=
      AllOk.imp (fun _ _ => builderInv_step) (fun _ _ => storeInBounds_of_stepOk) h hinit
    exact ⟨hrun.2 h, hstores⟩

/-- The three ways to break it: a second link in a buffer for one, a link after the final one, and
a length that `modify_link` refuses. -/
theorem contract_broken :
    let s (n : UInt16) : Builder := ⟨{ maxChainLength := n }, fun _ => {}⟩
    let link : BuilderOp := .addLink 0 0 16 1 0
    ¬([link, link].foldl step (s 1)).buffer.Contract ∧
    ¬([.addFinalLink 0 0 16 0, link].foldl step (s 4)).buffer.Contract ∧
    ¬([link, link, .modifyLink 0 0 uint32Max].foldl step (s 4)).buffer.Contract := by
  refine ⟨fun h => ?_, fun h => ?_, fun h => ?_⟩
  · exact absurd h.active_le (by decide)
  · exact absurd (h.complete_next (by decide) 0 (by decide)) (by decide)
  · exact absurd h.size_eq (by decide)

end Builder

/-! ## Refused operations -/

namespace Buffer

section Refused

variable {b : Buffer} {table : Table} {desc : UInt16} {address : UInt64} {length : UInt32}
  {flags next : UInt16}

theorem addDescriptor_refused
    (h : (b.addDescriptor table desc address length flags next).1 ≠ .none) :
    (b.addDescriptor table desc address length flags next).2 = (b, table) := by
  unfold addDescriptor at h ⊢
  split_ifs at h ⊢ <;> first | rfl | exact absurd rfl h

theorem addLink_refused (h : (b.addLink table desc address length flags next).1 ≠ .none) :
    (b.addLink table desc address length flags next).2 = (b, table) := by
  unfold addLink at h ⊢
  split_ifs at h ⊢
  · exact addDescriptor_refused h
  · rfl

theorem addFinalLink_refused (h : (b.addFinalLink table desc address length flags).1 ≠ .none) :
    (b.addFinalLink table desc address length flags).2 = (b, table) := by
  unfold addFinalLink at h ⊢
  split_ifs at h ⊢ with hnext
  · rfl
  · rcases hr : b.addDescriptor table desc address length flags 0 with ⟨err, b', table'⟩
    have hrefused := @addDescriptor_refused b table desc address length flags 0
    rw [hr] at hrefused
    simp only [hr] at h ⊢
    by_cases herr : err = .none
    · rw [if_pos herr] at h
      exact absurd herr h
    · rw [if_neg herr]
      exact hrefused herr

theorem sizeSub_eq_self {a n : ℕ} (ha : a < 2 ^ 64) (hn : n < 2 ^ 32) :
    sizeSub a n = a ↔ n = 0 := by
  unfold sizeSub
  omega

/-- The total, less the length that is modified, has room for the new length. -/
def FitsTotal (b : Buffer) (i : ℕ) (length : UInt32) : Prop :=
  sizeSub b.sizeBytes (b.len i) ≤ uint32Max.toNat ∧
    sizeAdd (sizeSub b.sizeBytes (b.len i)) length.toNat ≤ uint32Max.toNat

/-- **How `modify_link` ends**: it refuses the index or the new length, and changes nothing; it
refuses the total, short of the length that was to be modified; or it modifies the link. -/
theorem modifyLink_cases (i : ℕ) :
    (¬(i < b.active ∧ length ≠ 0) ∧ (b.modifyLink table i address length).2 = (b, table)) ∨
    ((i < b.active ∧ length ≠ 0) ∧ ¬b.FitsTotal i length ∧
      b.modifyLink table i address length =
        (.badr, { b with sizeBytes := sizeSub b.sizeBytes (b.len i) }, table)) ∨
    ((i < b.active ∧ length ≠ 0) ∧ b.FitsTotal i length ∧
      (b.modifyLink table i address length).1 = .none) := by
  unfold modifyLink
  dsimp only
  split_ifs with hi hlength htotal
  · exact .inl ⟨fun h => Nat.not_lt.2 hi h.1, rfl⟩
  · exact .inl ⟨fun h => h.2 hlength, rfl⟩
  · refine .inr (.inl ⟨⟨Nat.not_le.1 hi, hlength⟩, fun hfits => ?_, rfl⟩)
    obtain h | h := htotal
    · exact Nat.not_le.2 h hfits.1
    · exact Nat.not_le.2 h hfits.2
  · push Not at htotal
    exact .inr (.inr ⟨⟨Nat.not_le.1 hi, hlength⟩, htotal, rfl⟩)

end Refused

end Buffer

namespace Builder

/-- Perform one operation, with the error code it returns. -/
def call (s : Builder) : BuilderOp → Errno × Builder
  | .reset => (.none, { s with buffer := s.buffer.reset })
  | .addLink desc address length flags next =>
      let r := s.buffer.addLink s.table desc address length flags next
      (r.1, ⟨r.2.1, r.2.2⟩)
  | .addFinalLink desc address length flags =>
      let r := s.buffer.addFinalLink s.table desc address length flags
      (r.1, ⟨r.2.1, r.2.2⟩)
  | .modifyLink chainIdx address length =>
      let r := s.buffer.modifyLink s.table chainIdx address length
      (r.1, ⟨r.2.1, r.2.2⟩)

theorem call_snd (s : Builder) (op : BuilderOp) : (s.call op).2 = s.step op := by
  cases op <;> rfl

/-- The operation is not one that `modify_link` refuses for the total, having taken the length of a
descriptor that is not empty off it. -/
def RefusalOk (s : Builder) : BuilderOp → Prop
  | .modifyLink i _ length =>
      i < s.buffer.active → length ≠ 0 → s.buffer.len i ≠ 0 → s.buffer.FitsTotal i length
  | _ => True

theorem call_refused {s : Builder} {op : BuilderOp} (h : (s.call op).1 ≠ .none)
    (hop : ∀ i address length, op ≠ .modifyLink i address length) : (s.call op).2 = s := by
  cases op with
  | reset => exact absurd rfl h
  | addLink =>
      have heq := Buffer.addLink_refused h
      exact congrArg₂ Builder.mk (congrArg Prod.fst heq) (congrArg Prod.snd heq)
  | addFinalLink =>
      have heq := Buffer.addFinalLink_refused h
      exact congrArg₂ Builder.mk (congrArg Prod.fst heq) (congrArg Prod.snd heq)
  | modifyLink i address length => exact absurd rfl (hop i address length)

/-- `modify_link` leaves no trace exactly when it does not refuse the total of a descriptor that is
not empty. -/
theorem modifyLink_refused {s : Builder} {i : ℕ} {address : UInt64} {length : UInt32}
    (hsize : s.buffer.sizeBytes < 2 ^ 64) :
    ((s.call (.modifyLink i address length)).1 ≠ .none →
      (s.call (.modifyLink i address length)).2 = s) ↔
    s.RefusalOk (.modifyLink i address length) := by
  obtain ⟨hargs, hsame⟩ | ⟨hargs, hfits, heq⟩ | ⟨hargs, hfits, herr⟩ :=
    @Buffer.modifyLink_cases s.buffer s.table address length i
  · refine iff_of_true (fun _ => ?_) fun hi hlength => absurd ⟨hi, hlength⟩ hargs
    exact congrArg₂ Builder.mk (congrArg Prod.fst hsame) (congrArg Prod.snd hsame)
  · have hcall : s.call (.modifyLink i address length) =
        (.badr, ⟨{ s.buffer with sizeBytes := sizeSub s.buffer.sizeBytes (s.buffer.len i) },
          s.table⟩) := by
      rw [call, heq]
    rw [hcall]
    have hempty : sizeSub s.buffer.sizeBytes (s.buffer.len i) = s.buffer.sizeBytes ↔
        s.buffer.len i = 0 := Buffer.sizeSub_eq_self hsize (UInt32.toNat_lt _)
    constructor
    · intro h _ _ hlen
      have hbuffer := congrArg (fun t : Builder => t.buffer.sizeBytes) (h nofun)
      exact absurd (hempty.1 hbuffer) hlen
    · intro hok _
      by_cases hlen : s.buffer.len i = 0
      · show (⟨{ s.buffer with sizeBytes := _ }, s.table⟩ : Builder) = s
        rw [hempty.2 hlen]
      · exact absurd (hok hargs.1 hargs.2 hlen) hfits
  · exact iff_of_true (fun h => absurd herr h) fun _ _ _ => hfits

/-- **A refused operation leaves no trace**, exactly when it is `RefusalOk`: the buffer and the
descriptor table are those before it, and every further operation finds them so. A run in which it
is made is the run without it. -/
theorem refused_iff (s : Builder) (op : BuilderOp) (hsize : s.buffer.sizeBytes < 2 ^ 64) :
    ((s.call op).1 ≠ .none →
      (s.call op).2 = s ∧
        ∀ ops : List BuilderOp, ops.foldl step (s.call op).2 = ops.foldl step s ∧
          (op :: ops).foldl step s = ops.foldl step s) ↔
    s.RefusalOk op := by
  have hsame : ((s.call op).1 ≠ .none → (s.call op).2 = s) ↔ s.RefusalOk op := by
    cases op with
    | modifyLink i address length => exact modifyLink_refused hsize
    | _ => exact iff_of_true (fun h => call_refused h nofun) trivial
  rw [← hsame]
  refine ⟨fun h herr => (h herr).1, fun h herr => ⟨h herr, fun ops => ?_⟩⟩
  rw [List.foldl_cons, ← call_snd, h herr]
  exact ⟨rfl, rfl⟩

/-- A chain of two descriptors of 16 bytes, the second of which is to have `2 ^ 32 - 1`. -/
def twoLinks : Builder :=
  [.addLink 0 0 16 1 0, .addLink 1 0 16 1 0].foldl step ⟨{ maxChainLength := 4 }, fun _ => {}⟩

theorem refused_twoLinks :
    (twoLinks.call (.addLink 2 0 0 1 0)).1 = .badr ∧
      (twoLinks.call (.addLink 2 0 0 1 0)).2 = twoLinks :=
  ⟨rfl, ((refused_iff twoLinks (.addLink 2 0 0 1 0) (by decide)).2 trivial nofun).1⟩

/-- The refused length is gone from the total. -/
theorem refused_short :
    (twoLinks.call (.modifyLink 1 0 uint32Max)).1 = .badr ∧
      twoLinks.buffer.sizeBytes = 32 ∧
      (twoLinks.call (.modifyLink 1 0 uint32Max)).2.buffer.sizeBytes = 16 := by
  decide

end Builder

end Vml
