import Vml.Pl011

/-!
# Interrupts of the UART that the guest has cleared

**What is cleared stays clear**: what the guest clears in `UARTICR` is to stay so until the condition
of the queue has been false and true again, or the device is reset.

**Receiver.** The raw status is set from the condition unless the guest has cleared it
(`compute_rxris`), but `mmio_write_ifls` takes the old condition of the transmitter for that of the
receiver. **Transmitter.** It is set when the condition becomes true, but `mmio_write_dr` sets it
from the bare condition.

Main result: `UartIrq.staysClear_iff`.
-/

namespace Vml

/-- An interrupt that has a condition. -/
inductive UartIrq
  | rx
  | tx
  deriving DecidableEq, Repr

namespace Pl011

/-- The device whose condition `mmio_write_dr` takes. -/
def takeDr (u : Pl011) (value : UInt64) : Pl011 :=
  if u.canTx then u.fromGuestSent [value.toUInt8]
  else { u with txFifo := (u.txFifo.enqueue value.toUInt8.toUInt16).2 }

theorem mmioWriteDr_eq (u : Pl011) (value : UInt64) :
    u.mmioWriteDr value = if !u.uartEnabled then u
      else ((u.takeDr value).setTxris (u.takeDr value).txIrqCond).updatedIrqLvlToGicdIfNeeded
        u.isIrqAsserted := rfl

end Pl011

namespace UartIrq

open Pl011

/-- The bit of the raw status. -/
def mask : UartIrq → UInt16
  | rx => rxris
  | tx => txris

/-- The condition of the queue. -/
def cond : UartIrq → Pl011 → Bool
  | rx, u => u.rxIrqCond
  | tx, u => u.txIrqCond

/-- The bit is set. -/
def raw (irq : UartIrq) (u : Pl011) : Bool := u.ris &&& irq.mask != 0

/-- After some of the operations the condition has been false, and after some more true again. -/
def Rearmed (irq : UartIrq) (u : Pl011) (ops : List UartOp) : Prop :=
  ∃ before after, before <+: after ∧ after <+: ops ∧
    irq.cond (before.foldl Pl011.next u) = false ∧ irq.cond (after.foldl Pl011.next u) = true

/-- The bit is set again only after the condition has been false and true, or a reset. -/
def StaysClear (irq : UartIrq) (u : Pl011) (ops : List UartOp) : Prop :=
  ∀ done, done <+: ops → .reset ∉ done → irq.raw (done.foldl Pl011.next u) = true →
    irq.Rearmed u done

/-- **The condition** that an operation has to avoid: the threshold is written while the receiver has
characters and the transmitter has too many, or a character is written that leaves it with few. -/
def SetsBare : UartIrq → Pl011 → UartOp → Prop
  | rx, u, .access access offset _ _ =>
      access = .write ∧ UartReg.ofOffset offset = some .ifls ∧ u.txIrqCond = false ∧
        u.rxIrqCond = true
  | tx, u, .access access offset _ value =>
      access = .write ∧ UartReg.ofOffset offset = some .dr ∧ u.uartEnabled = true ∧
        (u.takeDr value).txIrqCond = true
  | _, _, _ => False

/-- No operation does so before the condition has been false and true, or a reset. -/
def AvoidsBare (irq : UartIrq) (u : Pl011) (ops : List UartOp) : Prop :=
  ∀ done op, done ++ [op] <+: ops → .reset ∉ done → ¬irq.Rearmed u done →
    ¬irq.SetsBare (done.foldl Pl011.next u) op

variable {irq : UartIrq} {u v : Pl011} {b : Bool} {op : UartOp} {ops : List UartOp}

/-! ## The bits -/

theorem or_and (x y z : UInt16) : (x ||| y) &&& z = x &&& z ||| y &&& z := by
  refine UInt16.toBitVec_inj.1 (BitVec.eq_of_getElem_eq fun i hi => ?_)
  simp only [UInt16.toBitVec_and, UInt16.toBitVec_or, BitVec.getElem_and, BitVec.getElem_or]
  exact Bool.and_or_distrib_right ..

theorem raw_setRxris : irq.raw (u.setRxris b) = if irq = .rx then b else irq.raw u := by
  cases irq <;> cases b
  · show ((u.ris &&& ~~~rxris) &&& rxris != 0) = false
    rw [UInt16.and_assoc, show ~~~rxris &&& rxris = 0 by decide, UInt16.and_zero]
    rfl
  · show ((u.ris ||| rxris) &&& rxris != 0) = true
    rw [or_and, bne_iff_ne, Ne, UInt16.or_eq_zero_iff]
    exact fun h => absurd h.2 (by decide)
  · show ((u.ris &&& ~~~rxris) &&& txris != 0) = (u.ris &&& txris != 0)
    rw [UInt16.and_assoc, show ~~~rxris &&& txris = txris by decide]
  · show ((u.ris ||| rxris) &&& txris != 0) = (u.ris &&& txris != 0)
    rw [or_and, show rxris &&& txris = 0 by decide, UInt16.or_zero]

theorem raw_setTxris : irq.raw (u.setTxris b) = if irq = .tx then b else irq.raw u := by
  cases irq <;> cases b
  · show ((u.ris &&& ~~~txris) &&& rxris != 0) = (u.ris &&& rxris != 0)
    rw [UInt16.and_assoc, show ~~~txris &&& rxris = rxris by decide]
  · show ((u.ris ||| txris) &&& rxris != 0) = (u.ris &&& rxris != 0)
    rw [or_and, show txris &&& rxris = 0 by decide, UInt16.or_zero]
  · show ((u.ris &&& ~~~txris) &&& txris != 0) = false
    rw [UInt16.and_assoc, show ~~~txris &&& txris = 0 by decide, UInt16.and_zero]
    rfl
  · show ((u.ris ||| txris) &&& txris != 0) = true
    rw [or_and, bne_iff_ne, Ne, UInt16.or_eq_zero_iff]
    exact fun h => absurd h.2 (by decide)

theorem raw_congr (h : v.ris = u.ris) : irq.raw v = irq.raw u := by rw [raw, raw, h]

theorem ris_updated : (u.updatedIrqLvlToGicdIfNeeded b).ris = u.ris := by
  rw [updatedIrqLvlToGicdIfNeeded]
  split_ifs <;> rfl

theorem raw_updated : irq.raw (u.updatedIrqLvlToGicdIfNeeded b) = irq.raw u := raw_congr ris_updated

theorem raw_and {w : UInt16} (hris : v.ris = u.ris &&& w) (h : irq.raw u = false) :
    irq.raw v = false := by
  have hzero : u.ris &&& irq.mask = 0 := by simpa [raw] using h
  have hassoc : v.ris &&& irq.mask = u.ris &&& irq.mask &&& w := by
    rw [hris, UInt16.and_assoc, UInt16.and_comm w, ← UInt16.and_assoc]
  rw [raw, hassoc, hzero, UInt16.zero_and]
  rfl

/-! ## The flag -/

theorem disabled_setTxris : (u.setTxris b).rxIrqDisabledByIcr = u.rxIrqDisabledByIcr := by
  cases b <;> rfl

theorem disabled_updated :
    (u.updatedIrqLvlToGicdIfNeeded b).rxIrqDisabledByIcr = u.rxIrqDisabledByIcr := by
  rw [updatedIrqLvlToGicdIfNeeded]
  split_ifs <;> rfl

theorem rxIrqCond_congr (h : v.rxFifo = u.rxFifo) : v.rxIrqCond = u.rxIrqCond := by
  rw [rxIrqCond, rxIrqCond, h]

theorem txIrqCond_congr (hfifo : v.txFifo = u.txFifo) (hifls : v.ifls = u.ifls) :
    v.txIrqCond = u.txIrqCond := by
  rw [txIrqCond, txIrqCond, getTxIrqLevel, getTxIrqLevel, hfifo, hifls]

theorem ifls_updated : (u.updatedIrqLvlToGicdIfNeeded b).ifls = u.ifls := by
  rw [updatedIrqLvlToGicdIfNeeded]
  split_ifs <;> rfl

theorem txIrqCond_of_empty (h : u.txFifo.curSize = 0) : u.txIrqCond = true := by
  rw [txIrqCond, h]
  split_ifs <;> rfl

/-! ## The receiver -/

/-- The receiver's status is clear and, while it has characters, it is the guest who has cleared
it. -/
structure RxClear (u : Pl011) : Prop where
  raw : rx.raw u = false
  disabled : u.rxIrqCond = true → u.rxIrqDisabledByIcr = true

theorem RxClear.of_same (h : RxClear u) (hraw : rx.raw v = rx.raw u) (hfifo : v.rxFifo = u.rxFifo)
    (hflag : v.rxIrqDisabledByIcr = u.rxIrqDisabledByIcr) : RxClear v where
  raw := hraw.trans h.raw
  disabled := by
    rw [rxIrqCond_congr hfifo, hflag]
    exact h.disabled

theorem rxClear_of_cond (hraw : rx.raw u = false) (hcond : u.rxIrqCond = false) : RxClear u where
  raw := hraw
  disabled := by
    intro h
    rw [hcond] at h
    cases h

theorem RxClear.mmioWriteCr (h : RxClear u) (value : UInt64) : RxClear (u.mmioWriteCr value) := by
  refine h.of_same ?_ (crWritten u value).rxFifo ?_
  · unfold Pl011.mmioWriteCr drainTx
    dsimp only
    rw [raw_updated]
    split_ifs <;> first | rfl | exact raw_setTxris
  · unfold Pl011.mmioWriteCr drainTx
    dsimp only
    rw [disabled_updated]
    split_ifs <;> rfl

theorem RxClear.mmioWriteDr (h : RxClear u) (value : UInt64) : RxClear (u.mmioWriteDr value) := by
  refine h.of_same ?_ (drWritten u value).rxFifo ?_
  · unfold Pl011.mmioWriteDr
    dsimp only
    split_ifs
    · rfl
    · rw [raw_updated]
      exact raw_setTxris
    · rw [raw_updated]
      exact raw_setTxris
  · unfold Pl011.mmioWriteDr
    dsimp only
    split_ifs
    · rfl
    · rw [disabled_updated, disabled_setTxris]
      rfl
    · rw [disabled_updated, disabled_setTxris]

theorem ris_mmioWriteIcr (value : UInt64) :
    (u.mmioWriteIcr value).ris = u.ris &&& (~~~(value &&& 0x7ff)).toUInt16 := by
  unfold Pl011.mmioWriteIcr
  dsimp only
  split_ifs <;> exact ris_updated

theorem RxClear.mmioWriteIcr (h : RxClear u) (value : UInt64) : RxClear (u.mmioWriteIcr value) := by
  constructor
  · exact raw_and (ris_mmioWriteIcr value) h.raw
  · intro hcond
    rw [rxIrqCond_congr (aside_mmioWriteIcr value).rxFifo] at hcond
    unfold Pl011.mmioWriteIcr
    dsimp only
    split_ifs
    · rfl
    · rfl
    · exact disabled_updated.trans (h.disabled hcond)
    · exact disabled_updated.trans (h.disabled hcond)

theorem RxClear.mmioWriteImsc (h : RxClear u) (value : UInt64) : RxClear
    ({ u with imsc := value.toUInt16 }.updatedIrqLvlToGicdIfNeeded u.isIrqAsserted) := by
  refine h.of_same ?_ (aside_mmioWriteImsc value).rxFifo ?_
  · rw [raw_updated]
    rfl
  · rw [disabled_updated]

theorem RxClear.mmioWriteLcrH (h : RxClear u) (value : UInt64) :
    RxClear (u.mmioWriteLcrH value) := by
  refine rxClear_of_cond h.raw ?_
  have hempty : (u.mmioWriteLcrH value).rxFifo.curSize = 0 :=
    (sound_mmioWriteLcrH u value).rxFifo.isEmpty_iff.1 (SeqQueue.isEmpty_reset _)
  rw [rxIrqCond, hempty]
  rfl

/-- **A write of the threshold** leaves it clear unless it takes the receiver's condition to have
been false. -/
theorem RxClear.mmioWriteIfls (h : RxClear u) (value : UInt64)
    (hno : ¬(u.txIrqCond = false ∧ u.rxIrqCond = true)) : RxClear (u.mmioWriteIfls value) := by
  have hfifo := (aside_mmioWriteIfls (u := u) value).rxFifo
  cases hcond : u.rxIrqCond with
  | false =>
      refine rxClear_of_cond ?_ ((rxIrqCond_congr hfifo).trans hcond)
      have hnew : ({ u with ifls := value.toUInt16 } : Pl011).rxIrqCond = false := hcond
      unfold Pl011.mmioWriteIfls
      simp only [hnew, raw_updated, Bool.not_false, if_true]
      exact raw_setRxris
  | true =>
      have htx : u.txIrqCond = true := by
        cases htx : u.txIrqCond with
        | true => rfl
        | false => exact absurd ⟨htx, hcond⟩ hno
      have hnew : ({ u with ifls := value.toUInt16 } : Pl011).rxIrqCond = true := hcond
      refine h.of_same ?_ hfifo ?_
      · unfold Pl011.mmioWriteIfls
        simp only [hnew, htx, raw_updated, Bool.not_true, Bool.false_eq_true, if_false]
        split_ifs
        · exact raw_setTxris
        · rfl
      · unfold Pl011.mmioWriteIfls
        simp only [hnew, htx, disabled_updated, Bool.not_true, Bool.false_eq_true, if_false]
        split_ifs <;> rfl

/-- **The last character is taken** with the flag and the status. -/
theorem RxClear.mmioReadDr (h : RxClear u) (hsound : u.rxFifo.Sound) : RxClear u.mmioReadDr.2 := by
  cases htakes : u.takes with
  | false =>
      rw [Pl011.mmioReadDr, htakes]
      exact h
  | true =>
      have hread (w : Pl011) :
          RxClear (if u.rxFifo.isFull = true then w.notifyEmptySpace else w) ↔ RxClear w := by
        split_ifs
        · exact ⟨fun h => ⟨h.raw, h.disabled⟩, fun h => ⟨h.raw, h.disabled⟩⟩
        · exact Iff.rfl
      rw [Pl011.mmioReadDr, if_pos htakes, takeRx]
      dsimp only
      rw [hread]
      split_ifs with hlast
      · obtain ⟨-, hcond⟩ := Bool.and_eq_true_iff.1 hlast
        rw [Bool.not_eq_true'] at hcond
        exact rxClear_of_cond raw_setRxris hcond
      · obtain ⟨hempty, -⟩ := isEmpty_of_takes htakes
        have hcond : u.rxIrqCond = true := by
          rw [rxIrqCond, decide_eq_true_iff]
          refine Nat.pos_of_ne_zero fun hzero => ?_
          rw [hsound.isEmpty_iff.2 hzero] at hempty
          cases hempty
        exact ⟨h.raw, fun _ => h.disabled hcond⟩

/-- **A character is received**: the status is set only if the condition has been false. -/
theorem RxClear.writeToRxQueue (h : RxClear u) (c : UInt8)
    (hrise : (u.writeToRxQueue c).2.rxIrqCond = true → u.rxIrqCond = true) :
    RxClear (u.writeToRxQueue c).2 := by
  have hfifo := (received u c).rxFifo
  cases hwait : u.waitToReceive with
  | true =>
      rw [Pl011.writeToRxQueue, if_pos hwait]
      exact h
  | false =>
      rw [Pl011.writeToRxQueue, if_neg (by simp [hwait])] at hrise ⊢
      dsimp only at hrise ⊢
      split_ifs at hrise ⊢ with hset
      · obtain ⟨hcond, hflag⟩ := Bool.and_eq_true_iff.1 hset
        rw [Bool.not_eq_true'] at hflag
        have hcond' : (({ u with rxFifo := (u.rxFifo.enqueue c.toUInt16).2 } : Pl011).setRxris
            true).rxIrqCond = true := hcond
        rw [rxIrqCond_congr (rxFifo_updatedIrqLvlToGicdIfNeeded ..)] at hrise
        have hdisabled : u.rxIrqDisabledByIcr = true := h.disabled (hrise hcond')
        rw [show u.rxIrqDisabledByIcr = false from hflag] at hdisabled
        cases hdisabled
      · exact ⟨h.raw, fun hcond => h.disabled (hrise hcond)⟩

/-! ## The transmitter -/

/-- **The transmitter is enabled**: its condition becomes true when the status is set. -/
theorem raw_tx_mmioWriteCr (h : tx.raw u = false) (hsound : u.txFifo.Sound) (value : UInt64)
    (hrise : (u.mmioWriteCr value).txIrqCond = true → u.txIrqCond = true) :
    tx.raw (u.mmioWriteCr value) = false := by
  cases hstarts : u.startsTx value with
  | false =>
      unfold Pl011.mmioWriteCr
      simp only [hstarts, raw_updated, Bool.false_eq_true, if_false]
      split_ifs <;> exact h
  | true =>
      have hempty : (u.mmioWriteCr value).txFifo.curSize = 0 := by
        obtain ⟨-, hdrained, hdone, -⟩ := SeqQueue.dequeueMany_curSize hsound rfl
        rw [(crWritten u value).txFifo, if_pos hstarts]
        exact hdrained.isEmpty_iff.1 hdone
      have hold := hrise (txIrqCond_of_empty hempty)
      unfold Pl011.mmioWriteCr drainTx
      simp only [hstarts, hold, raw_updated, if_true, Bool.not_true, Bool.false_eq_true, if_false]
      split_ifs <;> exact h

theorem ifls_mmioWriteIfls (value : UInt64) : (u.mmioWriteIfls value).ifls = value.toUInt16 := by
  unfold Pl011.mmioWriteIfls
  dsimp only
  rw [ifls_updated]
  split_ifs <;> rfl

/-- **The threshold is written**: the status is set if the condition becomes true. -/
theorem raw_tx_mmioWriteIfls (h : tx.raw u = false) (value : UInt64)
    (hrise : (u.mmioWriteIfls value).txIrqCond = true → u.txIrqCond = true) :
    tx.raw (u.mmioWriteIfls value) = false := by
  have hnew : (u.mmioWriteIfls value).txIrqCond =
      ({ u with ifls := value.toUInt16 } : Pl011).txIrqCond :=
    txIrqCond_congr (aside_mmioWriteIfls value).txFifo (ifls_mmioWriteIfls value)
  rw [hnew] at hrise
  have hset (w : Pl011) (hw : tx.raw w = false) (b : Bool) : tx.raw (w.setRxris b) = false :=
    raw_setRxris.trans hw
  unfold Pl011.mmioWriteIfls
  dsimp only
  rw [raw_updated]
  cases hcond : ({ u with ifls := value.toUInt16 } : Pl011).txIrqCond with
  | false =>
      have hclear : tx.raw (({ u with ifls := value.toUInt16 } : Pl011).setTxris false) = false :=
        raw_setTxris
      simp only [Bool.not_false, if_true]
      split_ifs
      · exact hset _ hclear _
      · exact hset _ hclear _
      · exact hclear
  | true =>
      simp only [hrise hcond, Bool.not_true, Bool.false_eq_true, if_false]
      split_ifs
      · exact hset { u with ifls := value.toUInt16 } h false
      · exact h

/-- **A character is written**: the status is what the condition is after it. -/
theorem raw_tx_mmioWriteDr (h : tx.raw u = false) (value : UInt64)
    (hno : ¬(u.uartEnabled = true ∧ (u.takeDr value).txIrqCond = true)) :
    tx.raw (u.mmioWriteDr value) = false := by
  rw [mmioWriteDr_eq]
  cases henabled : u.uartEnabled with
  | false =>
      rw [if_pos (by simp)]
      exact h
  | true =>
      have hcond : (u.takeDr value).txIrqCond = false :=
        Bool.eq_false_iff.2 fun hcond => hno ⟨henabled, hcond⟩
      rw [if_neg (by simp), raw_updated, hcond]
      exact raw_setTxris

theorem raw_tx_mmioReadDr (h : tx.raw u = false) : tx.raw u.mmioReadDr.2 = false := by
  rw [Pl011.mmioReadDr]
  split_ifs
  · have hclear : tx.raw (({ u with rxFifo := u.rxFifo.dequeue.2 } : Pl011).setRxris false) =
        false := raw_setRxris.trans h
    unfold takeRx
    dsimp only
    split_ifs
    · exact hclear
    · exact h
    · exact hclear
    · exact h
  · exact h

theorem raw_tx_writeToRxQueue (h : tx.raw u = false) (c : UInt8) :
    tx.raw (u.writeToRxQueue c).2 = false := by
  rw [Pl011.writeToRxQueue]
  split_ifs
  · exact h
  · dsimp only
    split_ifs
    · rw [raw_updated]
      exact raw_setRxris.trans h
    · exact h

/-! ## Operations -/

/-- The status is clear, and stays clear while the condition stays true. -/
def Clear : UartIrq → Pl011 → Prop
  | rx, u => RxClear u
  | tx, u => tx.raw u = false

theorem Clear.raw (h : irq.Clear u) : irq.raw u = false := by
  cases irq with
  | rx => exact RxClear.raw h
  | tx => exact h

/-- **An operation** leaves the status clear unless the condition becomes true with it, or it sets
the status from the bare condition. -/
theorem Clear.next (h : irq.Clear u) (hsound : u.Sound) (hreset : op ≠ .reset)
    (hno : ¬irq.SetsBare u op)
    (hrise : irq.cond (u.next op) = true → irq.cond u = true) : irq.Clear (u.next op) := by
  cases op with
  | reset => exact absurd rfl hreset
  | writeToRxQueue c =>
      cases irq with
      | rx => exact RxClear.writeToRxQueue h c hrise
      | tx => exact raw_tx_writeToRxQueue h c
  | access access offset size value =>
      rw [Pl011.next, Pl011.access] at hrise ⊢
      split_ifs at hrise ⊢ with hexec hwrite
      · exact h
      · rw [mmioWrite] at hrise ⊢
        cases hreg : UartReg.ofOffset offset with
        | none => exact h
        | some reg =>
            rw [hreg] at hrise
            cases irq with
            | rx =>
                cases reg with
                | dr => exact RxClear.mmioWriteDr h value
                | lcrH => exact RxClear.mmioWriteLcrH h value
                | cr => exact RxClear.mmioWriteCr h value
                | ifls => exact RxClear.mmioWriteIfls h value fun hbare => hno ⟨hwrite, hreg, hbare⟩
                | imsc => exact RxClear.mmioWriteImsc h value
                | icr => exact RxClear.mmioWriteIcr h value
                | _ => exact RxClear.of_same h rfl rfl rfl
            | tx =>
                cases reg with
                | dr => exact raw_tx_mmioWriteDr h value fun hbare => hno ⟨hwrite, hreg, hbare⟩
                | cr => exact raw_tx_mmioWriteCr h hsound.txFifo value hrise
                | ifls => exact raw_tx_mmioWriteIfls h value hrise
                | imsc => exact raw_updated.trans h
                | icr => exact raw_and (ris_mmioWriteIcr value) h
                | _ => exact h
      · rw [mmioRead] at hrise ⊢
        cases UartReg.ofOffset offset with
        | none => exact h
        | some reg =>
            cases reg with
            | dr =>
                cases irq with
                | rx => exact RxClear.mmioReadDr h hsound.rxFifo
                | tx => exact raw_tx_mmioReadDr h
            | _ => exact h

/-! ## Runs -/

theorem Rearmed.mono {done : List UartOp} (h : irq.Rearmed u done) (hpre : done <+: ops) :
    irq.Rearmed u ops := by
  obtain ⟨before, after, hba, hafter, hfalse, htrue⟩ := h
  exact ⟨before, after, hba, hafter.trans hpre, hfalse, htrue⟩

theorem rearmed_of_rise (hold : irq.cond (ops.foldl Pl011.next u) = false)
    (hnew : irq.cond ((ops ++ [op]).foldl Pl011.next u) = true) : irq.Rearmed u (ops ++ [op]) :=
  ⟨ops, ops ++ [op], List.prefix_append .., List.prefix_rfl, hold, hnew⟩

theorem Rearmed.of_concat (h : irq.Rearmed u (ops ++ [op]))
    (hold : irq.cond (ops.foldl Pl011.next u) = true) : irq.Rearmed u ops := by
  obtain ⟨before, after, hba, hafter, hfalse, htrue⟩ := h
  obtain rfl | hafter := List.prefix_concat_iff.1 hafter
  · obtain rfl | hbefore := List.prefix_concat_iff.1 hba
    · rw [hfalse] at htrue
      cases htrue
    · exact ⟨before, ops, hbefore, List.prefix_rfl, hfalse, hold⟩
  · exact ⟨before, after, hba, hafter, hfalse, htrue⟩

theorem sound_foldl (h : u.Sound) (ops : List UartOp) : (ops.foldl Pl011.next u).Sound := by
  induction ops generalizing u with
  | nil => exact h
  | cons op ops ih => exact ih (h.next op)

/-- **The status stays clear** as long as the condition is not rearmed. -/
theorem Clear.foldl (h : irq.Clear u) (hsound : u.Sound) (hreset : .reset ∉ ops)
    (havoids : irq.AvoidsBare u ops) (harmed : ¬irq.Rearmed u ops) :
    irq.Clear (ops.foldl Pl011.next u) := by
  induction ops using List.reverseRecOn with
  | nil => exact h
  | append_singleton ops op ih =>
      rw [List.mem_append, not_or] at hreset
      have harmed' : ¬irq.Rearmed u ops := fun hr => harmed (hr.mono (List.prefix_append ..))
      have havoids' : irq.AvoidsBare u ops := by
        intro done op' hpre
        exact havoids done op' (hpre.trans (List.prefix_append ..))
      have hop : op ≠ .reset := fun hop => hreset.2 (hop ▸ List.mem_singleton_self _)
      have hrise : irq.cond ((ops.foldl Pl011.next u).next op) = true →
          irq.cond (ops.foldl Pl011.next u) = true := by
        intro hnew
        by_contra hold
        rw [Bool.not_eq_true] at hold
        refine harmed (rearmed_of_rise hold ?_)
        rw [List.foldl_concat]
        exact hnew
      rw [List.foldl_concat]
      exact (ih hreset.1 havoids' harmed').next (sound_foldl hsound ops) hop
        (havoids ops op List.prefix_rfl hreset.1 harmed') hrise

/-- A character more does not make the condition of the transmitter true. -/
theorem txIrqCond_of_takeDr {value : UInt64} (hsound : u.txFifo.Sound)
    (h : (u.takeDr value).txIrqCond = true) : u.txIrqCond = true := by
  have hifls : (u.takeDr value).ifls = u.ifls := by
    rw [takeDr]
    split_ifs <;> rfl
  have hle : u.txFifo.curSize ≤ (u.takeDr value).txFifo.curSize := by
    rw [takeDr]
    split_ifs
    · exact le_rfl
    · show u.txFifo.curSize ≤ (u.txFifo.enqueue value.toUInt8.toUInt16).2.curSize
      cases hfull : u.txFifo.isFull with
      | true => rw [SeqQueue.enqueue_of_full hfull]
      | false =>
          rw [SeqQueue.curSize_enqueue hsound hfull]
          exact Nat.le_succ _
  rw [txIrqCond, getTxIrqLevel, hifls] at h
  rw [txIrqCond, getTxIrqLevel]
  split_ifs at h ⊢
  all_goals
    simp only [decide_eq_true_iff] at h ⊢
    try omega

/-- The status is set from the bare condition, which has been true before. -/
theorem SetsBare.spec (h : irq.SetsBare u op) (hsound : u.Sound) :
    irq.cond u = true ∧ irq.raw (u.next op) = true := by
  cases op with
  | writeToRxQueue c => cases irq <;> exact h.elim
  | reset => cases irq <;> exact h.elim
  | access access offset size value =>
      have hnext (haccess : access = .write) :
          u.next (.access access offset size value) = u.mmioWrite offset value := by
        rw [haccess]
        rfl
      cases irq with
      | rx =>
          obtain ⟨haccess, hreg, htx, hrx⟩ := h
          refine ⟨hrx, ?_⟩
          have hnew : ({ u with ifls := value.toUInt16 } : Pl011).rxIrqCond = true := hrx
          rw [hnext haccess, mmioWrite, hreg]
          show rx.raw (u.mmioWriteIfls value) = true
          unfold Pl011.mmioWriteIfls
          simp only [hnew, htx, raw_updated, Bool.not_true, Bool.not_false, Bool.false_eq_true,
            if_false, if_true]
          exact raw_setRxris
      | tx =>
          obtain ⟨haccess, hreg, henabled, hcond⟩ := h
          refine ⟨txIrqCond_of_takeDr hsound.txFifo hcond, ?_⟩
          rw [hnext haccess, mmioWrite, hreg]
          show tx.raw (u.mmioWriteDr value) = true
          rw [mmioWriteDr_eq, if_neg (by simp [henabled]), raw_updated, hcond]
          exact raw_setTxris

/-- **What is cleared stays clear** exactly if no operation sets the status from the bare
condition. -/
theorem Clear.stays_iff_avoids (h : irq.Clear u) (hsound : u.Sound) (ops : List UartOp) :
    irq.StaysClear u ops ↔ irq.AvoidsBare u ops := by
  constructor
  · intro hstays done op hpre hreset harmed hbare
    obtain ⟨hcond, hraw⟩ := hbare.spec (sound_foldl hsound done)
    have hop : op ≠ .reset := by
      rintro rfl
      cases irq <;> exact hbare
    have hreset' : .reset ∉ done ++ [op] := by
      rw [List.mem_append, List.mem_singleton, not_or]
      exact ⟨hreset, hop.symm⟩
    have hrearmed := hstays (done ++ [op]) hpre hreset' (by rwa [List.foldl_concat])
    exact harmed (hrearmed.of_concat hcond)
  · intro havoids done hpre hreset hraw
    by_contra harmed
    have havoids' : irq.AvoidsBare u done := fun done' op hpre' =>
      havoids done' op (hpre'.trans hpre)
    rw [(h.foldl hsound hreset havoids' harmed).raw] at hraw
    cases hraw

theorem and_mask {x : UInt16} (h : x &&& irq.mask ≠ 0) : x &&& irq.mask = irq.mask := by
  obtain ⟨i, hi⟩ : ∃ i, irq.mask.toBitVec = BitVec.twoPow 16 i := by
    cases irq
    · exact ⟨4, rfl⟩
    · exact ⟨5, rfl⟩
  rw [← UInt16.toBitVec_inj, UInt16.toBitVec_and, hi, BitVec.and_twoPow]
  rw [Ne, ← UInt16.toBitVec_inj, UInt16.toBitVec_and, hi, BitVec.and_twoPow] at h
  split_ifs at h ⊢
  · rfl
  · exact absurd rfl h

theorem and_mask64 {x : UInt64} (h : x &&& irq.mask.toUInt64 ≠ 0) :
    x &&& irq.mask.toUInt64 = irq.mask.toUInt64 := by
  obtain ⟨i, hi⟩ : ∃ i, irq.mask.toUInt64.toBitVec = BitVec.twoPow 64 i := by
    cases irq
    · exact ⟨4, rfl⟩
    · exact ⟨5, rfl⟩
  rw [← UInt64.toBitVec_inj, UInt64.toBitVec_and, hi, BitVec.and_twoPow]
  rw [Ne, ← UInt64.toBitVec_inj, UInt64.toBitVec_and, hi, BitVec.and_twoPow] at h
  split_ifs at h ⊢
  · rfl
  · exact absurd rfl h

theorem clear_mmioWriteIcr {value : UInt64} (hset : irq.raw u = true)
    (hbit : value &&& irq.mask.toUInt64 ≠ 0) : irq.Clear (u.mmioWriteIcr value) := by
  have hvalue := and_mask64 hbit
  have hraw : irq.raw (u.mmioWriteIcr value) = false := by
    have hcleared : (~~~(value &&& 0x7ff)).toUInt16 &&& irq.mask = 0 := by
      have hkept : value &&& 0x7ff &&& irq.mask.toUInt64 = irq.mask.toUInt64 := by
        rw [UInt64.and_assoc, show 0x7ff &&& irq.mask.toUInt64 = irq.mask.toUInt64 by
          cases irq <;> decide, hvalue]
      have hnone : ~~~(value &&& 0x7ff) &&& irq.mask.toUInt64 = 0 := by
        rw [← hkept, ← UInt64.and_assoc, UInt64.not_and_self, UInt64.zero_and]
      rw [← UInt16.toUInt16_toUInt64 irq.mask, ← UInt64.toUInt16_and, hnone]
      rfl
    rw [raw, ris_mmioWriteIcr, UInt16.and_assoc, hcleared, UInt16.and_zero]
    rfl
  cases irq with
  | tx => exact hraw
  | rx =>
      refine ⟨hraw, fun _ => ?_⟩
      have hris : u.ris &&& rxris = rxris := @and_mask .rx _ (by simpa [raw] using hset)
      have hflag : value &&& rxris.toUInt64 &&& (u.ris &&& rxris).toUInt64 != 0 := by
        rw [hris, UInt64.and_assoc, UInt64.and_self]
        exact bne_iff_ne.2 hbit
      unfold Pl011.mmioWriteIcr
      dsimp only
      rw [if_pos hflag]

/-- **What the guest has cleared in `UARTICR`** stays clear until the condition has been false and
true again, or the device is reset, exactly if no operation sets the status from the bare condition
before. -/
theorem staysClear_iff (irq : UartIrq) (sbsaUart : Bool) (past ops : List UartOp) (size : UInt8)
    (value : UInt64) (hset : irq.raw (past.foldl Pl011.next (init sbsaUart)) = true)
    (hbit : value &&& irq.mask.toUInt64 ≠ 0) :
    let u := (past.foldl Pl011.next (init sbsaUart)).next (.access .write 0x44 size value)
    irq.StaysClear u ops ↔ irq.AvoidsBare u ops :=
  Clear.stays_iff_avoids (clear_mmioWriteIcr hset hbit)
    ((sound_foldl (sound_init sbsaUart) past).next (.access .write 0x44 size value)) ops

/-- The transmitter's interrupt is cleared, and characters come in. -/
theorem staysClear_received : StaysClear .tx
    (([.access .write 0x00 1 65].foldl Pl011.next (init true)).next (.access .write 0x44 4 0x20))
    [.writeToRxQueue 66] ↔ AvoidsBare .tx
      (([.access .write 0x00 1 65].foldl Pl011.next (init true)).next
        (.access .write 0x44 4 0x20)) [.writeToRxQueue 66] :=
  staysClear_iff .tx true [.access .write 0x00 1 65] [.writeToRxQueue 66] 4 0x20 (by decide)
    (by decide)

/-- The guest disables the transmitter and fills its queue above the threshold; a character comes
in. -/
def aboveThreshold : List UartOp :=
  [.access .write 0x2c 4 0x70, .access .write 0x30 4 0x201, .access .write 0x34 4 0,
    .access .write 0x00 1 1, .access .write 0x00 1 2, .access .write 0x00 1 3,
    .access .write 0x00 1 4, .access .write 0x00 1 5, .writeToRxQueue 65]

/-- In every run what the guest has cleared stays clear. -/
def AlwaysStaysClear (irq : UartIrq) : Prop :=
  ∀ (sbsaUart : Bool) (past ops : List UartOp) (size : UInt8) (value : UInt64),
    irq.raw (past.foldl Pl011.next (init sbsaUart)) = true → value &&& irq.mask.toUInt64 ≠ 0 →
    irq.StaysClear ((past.foldl Pl011.next (init sbsaUart)).next (.access .write 0x44 size value))
      ops

/-- The next operation sets the status from the bare condition. -/
theorem not_alwaysStaysClear {past : List UartOp} {value : UInt64}
    (hset : irq.raw (past.foldl Pl011.next (init true)) = true)
    (hbit : value &&& irq.mask.toUInt64 ≠ 0)
    (hbare : irq.SetsBare ((past.foldl Pl011.next (init true)).mmioWriteIcr value) op) :
    ¬irq.AlwaysStaysClear := by
  intro hall
  have hsound := (sound_foldl (sound_init true) past).next (.access .write 0x44 4 value)
  have havoids := ((clear_mmioWriteIcr hset hbit).stays_iff_avoids hsound [op]).1
    (hall true past [op] 4 value hset hbit)
  refine havoids [] op List.prefix_rfl (by simp) ?_ hbare
  rintro ⟨before, after, hba, hafter, hfalse, htrue⟩
  cases List.prefix_nil.1 hafter
  cases List.prefix_nil.1 hba
  rw [hfalse] at htrue
  cases htrue

/-- A write of the threshold sets the receiver's status again, and one of a character that of the
transmitter. -/
theorem set_from_bare_condition : ¬AlwaysStaysClear .rx ∧ ¬AlwaysStaysClear .tx := by
  constructor
  · have hbare : SetsBare .rx ((aboveThreshold.foldl Pl011.next (init true)).mmioWriteIcr 0x10)
        (.access .write 0x34 4 0) := ⟨rfl, rfl, by decide +kernel, by decide +kernel⟩
    exact not_alwaysStaysClear (by decide +kernel) (by decide) hbare
  · have hbare : SetsBare .tx
        (([.access .write 0x00 1 65].foldl Pl011.next (init true)).mmioWriteIcr 0x20)
        (.access .write 0x00 1 66) := ⟨rfl, rfl, by decide, by decide⟩
    exact not_alwaysStaysClear (by decide) (by decide) hbare

end UartIrq

end Vml
