import Vml.Pl011

/-!
# The interrupt line of the UART

**In step.** The level last driven is to be that of `is_irq_asserted`. Every operation compares the
level before with that after (`updated_irq_lvl_to_gicd_if_needed`), but for the read of `UARTDR` and
the reset.

Main result: `Pl011.line_follows_irq_iff`: it is so after every operation of a run exactly if no
read empties the receive queue while the transmitter interrupts, and no reset is made while the line
is up.
-/

namespace Vml

namespace Pl011

variable {u v : Pl011} {b : Bool}

/-- The line is at the level that it should be at. -/
def InStep (u : Pl011) : Prop := u.line = u.isIrqAsserted

/-- **An update** of the level that was right before. -/
theorem inStep_updated (h : v.line = b) : (v.updatedIrqLvlToGicdIfNeeded b).InStep := by
  rw [updatedIrqLvlToGicdIfNeeded]
  split_ifs with hchanged
  · rfl
  · have hsame : b = v.isIrqAsserted := by simpa using hchanged
    exact h.trans hsame

theorem InStep.congr (h : u.InStep) (hline : v.line = u.line) (himsc : v.imsc = u.imsc)
    (hris : v.ris = u.ris) : v.InStep := by
  rw [InStep, hline, h, isIrqAsserted, isIrqAsserted, isRxIrqAsserted, isRxIrqAsserted,
    isTxIrqAsserted, isTxIrqAsserted, himsc, hris]

/-! ## Writes -/

theorem InStep.mmioWriteCr (h : u.InStep) (value : UInt64) : (u.mmioWriteCr value).InStep := by
  refine inStep_updated (Eq.trans ?_ h)
  unfold drainTx
  split_ifs <;> simp [fromGuestSent, notifyEmptySpace]

theorem InStep.mmioWriteIfls (h : u.InStep) (value : UInt64) : (u.mmioWriteIfls value).InStep := by
  refine inStep_updated (Eq.trans ?_ h)
  split_ifs <;> simp

theorem InStep.mmioWriteIcr (h : u.InStep) (value : UInt64) : (u.mmioWriteIcr value).InStep := by
  have hupdated : ({ u with
      ris := u.ris &&& (~~~(value &&& 0x7ff)).toUInt16 }.updatedIrqLvlToGicdIfNeeded
        u.isIrqAsserted).InStep := inStep_updated h
  unfold Pl011.mmioWriteIcr
  dsimp only
  split_ifs <;> exact hupdated.congr rfl rfl rfl

theorem InStep.mmioWriteDr (h : u.InStep) (value : UInt64) : (u.mmioWriteDr value).InStep := by
  rw [Pl011.mmioWriteDr]
  split_ifs
  · exact h
  · refine inStep_updated (Eq.trans ?_ h)
    simp [fromGuestSent]
  · refine inStep_updated (Eq.trans ?_ h)
    simp

/-- **Writes** leave the line at the right level. -/
theorem InStep.mmioWrite (h : u.InStep) (offset value : UInt64) :
    (u.mmioWrite offset value).InStep := by
  rw [Pl011.mmioWrite]
  split
  · exact h.mmioWriteDr value
  · exact h.congr rfl rfl rfl
  · exact h.congr rfl rfl rfl
  · exact h.congr rfl rfl rfl
  · exact h.congr rfl rfl rfl
  · exact h.mmioWriteCr value
  · exact h.mmioWriteIfls value
  · exact inStep_updated h
  · exact h.mmioWriteIcr value
  · exact h.congr rfl rfl rfl
  · exact h

/-! ## Reads -/

theorem isRxIrqAsserted_setRxris_false : (u.setRxris false).isRxIrqAsserted = false := by
  have hris : (u.ris &&& ~~~rxris) &&& rxris = 0 := by
    rw [UInt16.and_assoc, show ~~~rxris &&& rxris = 0 by decide, UInt16.and_zero]
  show ((u.imsc &&& rxim != 0) && ((u.ris &&& ~~~rxris) &&& rxris != 0)) = false
  rw [hris, bne_self_eq_false, Bool.and_false]

theorem isTxIrqAsserted_setRxris_false :
    (u.setRxris false).isTxIrqAsserted = u.isTxIrqAsserted := by
  have hris : (u.ris &&& ~~~rxris) &&& txris = u.ris &&& txris := by
    rw [UInt16.and_assoc, show ~~~rxris &&& txris = txris by decide]
  show ((u.imsc &&& txim != 0) && ((u.ris &&& ~~~rxris) &&& txris != 0)) = u.isTxIrqAsserted
  rw [hris]
  rfl

/-- **The condition**: no read empties the receive queue while the transmitter interrupts, and no
reset is made while the UART does. -/
def KeepsLine (u : Pl011) (op : UartOp) : Prop :=
  match op.kind with
  | .readDr => u.canRx = true → u.rxFifo.curSize = 1 → u.isTxIrqAsserted = false
  | .reset => u.isIrqAsserted = false
  | _ => True

theorem inStep_notifyEmptySpace : u.notifyEmptySpace.InStep ↔ u.InStep := Iff.rfl

/-- **A read of `UARTDR`** leaves the line at the right level exactly if it does not empty the queue
while the transmitter interrupts. -/
theorem InStep.mmioReadDr_iff (h : u.InStep) (hsound : u.rxFifo.Sound) :
    u.mmioReadDr.2.InStep ↔
      (u.canRx = true → u.rxFifo.curSize = 1 → u.isTxIrqAsserted = false) := by
  cases htakes : u.takes with
  | false =>
      rw [mmioReadDr, htakes]
      refine iff_of_true h fun hrx hsize => ?_
      have hempty : u.rxFifo.isEmpty = true := by simpa [takes, hrx] using htakes
      rw [hsound.isEmpty_iff] at hempty
      omega
  | true =>
      obtain ⟨hempty, hrx⟩ := isEmpty_of_takes htakes
      have hpos : 0 < u.rxFifo.curSize := Nat.pos_of_ne_zero fun hzero => by
        rw [hsound.isEmpty_iff.2 hzero] at hempty
        cases hempty
      have hsize : ({ u with rxFifo := u.rxFifo.dequeue.2 } : Pl011).rxFifo.curSize =
          u.rxFifo.curSize - 1 := SeqQueue.curSize_dequeue hsound hempty
      have hdrained : (u.rxIrqCond &&
          !({ u with rxFifo := u.rxFifo.dequeue.2 } : Pl011).rxIrqCond) = true ↔
          u.rxFifo.curSize = 1 := by
        rw [rxIrqCond, rxIrqCond, hsize, Bool.and_eq_true, Bool.not_eq_true', decide_eq_true_iff,
          decide_eq_false_iff_not]
        omega
      have hread (w : Pl011) :
          (if u.rxFifo.isFull = true then w.notifyEmptySpace else w).InStep ↔ w.InStep := by
        split_ifs
        · exact inStep_notifyEmptySpace
        · exact Iff.rfl
      rw [mmioReadDr, if_pos htakes, takeRx]
      dsimp only
      rw [hread]
      split_ifs with hone
      · rw [hdrained] at hone
        have htx : ({ u with rxFifo := u.rxFifo.dequeue.2 } : Pl011).isTxIrqAsserted =
            u.isTxIrqAsserted := rfl
        have hasserted : ({ u with rxFifo := u.rxFifo.dequeue.2 }.setRxris false).isIrqAsserted =
            u.isTxIrqAsserted := by
          rw [isIrqAsserted, isRxIrqAsserted_setRxris_false, isTxIrqAsserted_setRxris_false, htx,
            Bool.false_or]
        constructor
        · intro hlow _ _
          exact hasserted.symm.trans (Eq.symm hlow)
        · intro htx
          exact ((hasserted.trans (htx hrx hone)).symm : false = _)
      · rw [hdrained] at hone
        exact iff_of_true (h.congr rfl rfl rfl) fun _ hsize => absurd hsize hone

/-! ## Runs -/

theorem InStep.writeToRxQueue (h : u.InStep) (c : UInt8) : (u.writeToRxQueue c).2.InStep := by
  rw [Pl011.writeToRxQueue]
  split_ifs
  · exact h
  · dsimp only
    split_ifs
    · refine inStep_updated (Eq.trans ?_ h)
      simp
    · exact h.congr rfl rfl rfl

theorem inStep_reset : u.reset.InStep ↔ u.line = false := by
  have hasserted : u.reset.isIrqAsserted = false := by
    have hris : u.reset.ris = 0 := rfl
    simp [isIrqAsserted, isRxIrqAsserted, isTxIrqAsserted, hris]
  rw [InStep, hasserted]
  rfl

/-- **An operation** leaves the line at the right level exactly if it meets the condition. -/
theorem InStep.next_iff (h : u.InStep) (hsound : u.rxFifo.Sound) (op : UartOp) :
    (u.next op).InStep ↔ u.KeepsLine op := by
  cases op with
  | access access offset size value =>
      rw [KeepsLine, UartOp.kind, Pl011.next, Pl011.access]
      split_ifs
      · exact iff_of_true h trivial
      · refine iff_of_true (h.mmioWrite offset value) ?_
        cases UartReg.ofOffset offset with
        | none => trivial
        | some reg => cases reg <;> trivial
      · rw [mmioRead]
        cases UartReg.ofOffset offset with
        | none => exact iff_of_true h trivial
        | some reg =>
            cases reg with
            | dr => exact h.mmioReadDr_iff hsound
            | _ => exact iff_of_true h trivial
  | writeToRxQueue c => exact iff_of_true (h.writeToRxQueue c) trivial
  | reset =>
      have hkeeps : u.KeepsLine .reset ↔ u.isIrqAsserted = false := Iff.rfl
      rw [hkeeps, ← h]
      exact inStep_reset

/-- **The line follows the interrupts** after every operation of a run exactly if every operation
meets the condition. -/
theorem line_follows_irq_iff (sbsaUart : Bool) (ops : List UartOp) :
    (∀ u ∈ ops.scanl Pl011.next (init sbsaUart), u.line = u.isIrqAsserted) ↔
      AllOk Pl011.next KeepsLine (init sbsaUart) ops :=
  @forall_scanl_iff_allOk _ _ Pl011.next KeepsLine (fun u => u.InStep ∧ u.Sound) InStep
    (fun _ op h hok => ⟨(h.1.next_iff h.2.rxFifo op).2 hok, h.2.next op⟩)
    (fun _ op h hbreak hin => hbreak ((h.1.next_iff h.2.rxFifo op).1 hin)) (fun _ h => h.1) ops _
    ⟨by cases sbsaUart <;> rfl, sound_init sbsaUart⟩

/-- Both interrupts are on, a character comes in and one goes out. -/
def bothInterrupts : List UartOp :=
  [.access .write 0x38 4 0x30, .writeToRxQueue 65, .access .write 0x00 1 66]

/-- The read of the character lowers the line while the transmitter interrupts; and a reset leaves
it up. -/
theorem line_dropped_and_stuck :
    ((bothInterrupts.foldl Pl011.next (init true)).next (.access .read 0x00 1 0)).line = false ∧
      ((bothInterrupts.foldl Pl011.next (init true)).next (.access .read 0x00 1 0)).isIrqAsserted =
        true ∧
      ((bothInterrupts.foldl Pl011.next (init true)).next .reset).line = true ∧
      ((bothInterrupts.foldl Pl011.next (init true)).next .reset).isIrqAsserted = false := by
  exact ⟨by decide, by decide, by decide, by decide⟩

end Pl011

end Vml
