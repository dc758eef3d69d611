import Vml.Pl011

/-!
# Who waits for space in the receive queue

**The writer.** `to_guest` tries to hand a character over, and waits for a signal whenever it cannot,
in turns with the operations of the guest and resets (`RxSys`).

Main result: `RxSys.not_stranded_iff`: in no state of a run does the writer wait without a signal
while the receiver is enabled and has space, exactly if no write of `UARTLCR_H` is made while it
waits for space.
-/

namespace Vml

/-- Where the writer is. -/
inductive RxWriter
  | idle
  /-- About to call `write_to_rx_queue`. -/
  | trying (c : UInt8)
  /-- In `wait_for_available_buffer`. -/
  | waiting (c : UInt8)
  deriving DecidableEq, Repr

/-- The UART and the writer. -/
structure RxSys where
  uart : Pl011
  writer : RxWriter := .idle

/-- A turn of the writer, or an operation of the guest, or a reset. -/
inductive RxAct
  | toGuest (c : UInt8)
  | attempt
  | wake
  | operation (op : UartOp)
  deriving DecidableEq, Repr

namespace RxSys

/-- A turn, which changes nothing when it is not that of the writer. Characters come from the writer
only. -/
def next (s : RxSys) : RxAct → RxSys
  | .toGuest c => if s.writer = .idle then { s with writer := .trying c } else s
  | .attempt =>
      match s.writer with
      | .trying c =>
          { uart := (s.uart.writeToRxQueue c).2
            writer := if (s.uart.writeToRxQueue c).1 then .idle else .waiting c }
      | _ => s
  | .wake =>
      match s.writer, s.uart.sigNotifyEmptySpace.wait with
      | .waiting c, some signal =>
          { uart := { s.uart with sigNotifyEmptySpace := signal }, writer := .trying c }
      | _, _ => s
  | .operation (.writeToRxQueue _) => s
  | .operation op => { s with uart := s.uart.next op }

/-- The writer waits, and nobody has signalled. -/
def Blocked (s : RxSys) : Prop :=
  (∃ c, s.writer = .waiting c) ∧ s.uart.sigNotifyEmptySpace.signaled = false

/-- The receiver is enabled and has space, and yet the writer is blocked. -/
def Stranded (s : RxSys) : Prop :=
  s.Blocked ∧ s.uart.rxFifo.isFull = false ∧ s.uart.canRx = true

/-- **The condition**: `UARTLCR_H` is not written while the writer is blocked and the receiver is
enabled. -/
def Signals (s : RxSys) : RxAct → Prop
  | .operation op =>
      match op.kind with
      | .writeLcrH _ => s.Blocked → s.uart.canRx = false
      | _ => True
  | _ => True

/-- The UART of a new system. -/
def init (sbsaUart : Bool) : RxSys := { uart := Pl011.init sbsaUart }

variable {s : RxSys}

theorem canRx_congr {u v : Pl011} (h : v.cr = u.cr) : v.canRx = u.canRx := by
  rw [Pl011.canRx, Pl011.canRx, Pl011.uartEnabled, Pl011.uartEnabled, h]

/-- **An operation** of the guest that leaves the signal as it is makes no space, nor enables the
receiver, unless it writes `UARTLCR_H`. -/
theorem waits_of_next {u : Pl011} {op : UartOp} (hkind : ∀ value, op.kind ≠ .writeLcrH value)
    (hsignal : (u.next op).sigNotifyEmptySpace.signaled = false)
    (hno : ∀ c, op.kind ≠ .receive c) (hfull : (u.next op).rxFifo.isFull = false)
    (hrx : (u.next op).canRx = true) :
    u.sigNotifyEmptySpace.signaled = false ∧ u.rxFifo.isFull = false ∧ u.canRx = true := by
  have hdoes := Pl011.does_next u op
  cases hk : op.kind with
  | writeLcrH value => exact absurd hk (hkind value)
  | receive c => exact absurd hk (hno c)
  | writeDr value =>
      rw [hk] at hdoes
      rw [show u.next op = _ from hdoes] at hsignal hfull hrx
      have hwritten := Pl011.drWritten u value
      rw [hwritten.signal] at hsignal
      rw [hwritten.rxFifo] at hfull
      rw [canRx_congr hwritten.cr] at hrx
      exact ⟨hsignal, hfull, hrx⟩
  | writeCr value =>
      rw [hk] at hdoes
      rw [show u.next op = _ from hdoes] at hsignal hfull hrx
      have hwritten := Pl011.crWritten u value
      have hset : ({ u with cr := value.toUInt16 } : Pl011).canRx = true :=
        (canRx_congr hwritten.cr.symm).trans hrx
      rw [hwritten.signal] at hsignal
      rw [hwritten.rxFifo] at hfull
      cases hstarts : u.startsRx value with
      | true =>
          rw [hstarts] at hsignal
          cases hsignal
      | false =>
          rw [hstarts] at hsignal
          refine ⟨hsignal, hfull, ?_⟩
          simpa [Pl011.startsRx, hset] using hstarts
  | readDr =>
      rw [hk] at hdoes
      rw [show u.next op = _ from hdoes] at hsignal hfull hrx
      have hread := Pl011.drRead u
      rw [hread.signal] at hsignal
      rw [hread.rxFifo] at hfull
      rw [canRx_congr hread.cr] at hrx
      cases hwas : u.rxFifo.isFull with
      | false =>
          rw [hwas, Bool.and_false] at hsignal
          exact ⟨hsignal, rfl, hrx⟩
      | true =>
          cases htakes : u.takes with
          | true =>
              rw [htakes, hwas] at hsignal
              cases hsignal
          | false =>
              rw [htakes, if_neg nofun, hwas] at hfull
              cases hfull
  | reset =>
      rw [hk] at hdoes
      rw [show u.next op = _ from hdoes] at hsignal
      cases hsignal
  | aside =>
      rw [hk] at hdoes
      have haside : Pl011.Aside u (u.next op) := hdoes
      rw [haside.signal] at hsignal
      rw [haside.rxFifo] at hfull
      rw [canRx_congr haside.cr] at hrx
      exact ⟨hsignal, hfull, hrx⟩

/-- **A write of `UARTLCR_H`** makes space without a signal. -/
theorem stranded_writeLcrH_iff {op : UartOp} {value : UInt64} (hkind : op.kind = .writeLcrH value) :
    ({ s with uart := s.uart.next op } : RxSys).Stranded ↔ s.Blocked ∧ s.uart.canRx = true := by
  have hdoes := Pl011.does_next s.uart op
  rw [hkind] at hdoes
  have huart : s.uart.next op = s.uart.mmioWriteLcrH value := hdoes
  have hfull : (s.uart.mmioWriteLcrH value).rxFifo.isFull = false := by
    refine SeqQueue.isFull_reset ?_
    split_ifs <;> decide
  rw [huart]
  constructor
  · rintro ⟨hblocked, -, hrx⟩
    exact ⟨hblocked, hrx⟩
  · rintro ⟨hblocked, hrx⟩
    exact ⟨hblocked, hfull, hrx⟩

/-- **An operation strands the writer** exactly if it does not meet the condition. -/
theorem stranded_operation_iff (h : ¬s.Stranded) {op : UartOp} (hno : ∀ c, op.kind ≠ .receive c) :
    ¬({ s with uart := s.uart.next op } : RxSys).Stranded ↔ s.Signals (.operation op) := by
  by_cases hlcrH : ∃ value, op.kind = .writeLcrH value
  · obtain ⟨value, hkind⟩ := hlcrH
    rw [stranded_writeLcrH_iff hkind, Signals, hkind]
    cases s.uart.canRx <;> simp
  · have hkind (value : UInt64) : op.kind ≠ .writeLcrH value := fun hk => hlcrH ⟨value, hk⟩
    refine iff_of_true ?_ ?_
    · rintro ⟨⟨hwriter, hsignal⟩, hfull, hrx⟩
      obtain ⟨hsignal', hfull', hrx'⟩ := waits_of_next hkind hsignal hno hfull hrx
      exact h ⟨⟨hwriter, hsignal'⟩, hfull', hrx'⟩
    · rw [Signals]
      split
      · rename_i value hk
        exact absurd hk (hkind value)
      · trivial

theorem kind_access_ne_receive (access : Vbus.Access) (offset : UInt64) (size : UInt8)
    (value : UInt64) (c : UInt8) : (UartOp.access access offset size value).kind ≠ .receive c := by
  rw [UartOp.kind]
  split_ifs
  · simp
  · split <;> simp
  · split <;> simp

/-- **A turn strands the writer** exactly if it does not meet the condition. -/
theorem stranded_next_iff (h : ¬s.Stranded) (a : RxAct) : ¬(s.next a).Stranded ↔ s.Signals a := by
  cases a with
  | toGuest c =>
      refine iff_of_true ?_ trivial
      rw [next]
      split_ifs
      · rintro ⟨⟨⟨c', hc'⟩, -⟩, -⟩
        cases hc'
      · exact h
  | attempt =>
      refine iff_of_true ?_ trivial
      rw [next]
      split
      · rename_i c hc
        rintro ⟨⟨⟨c', hc'⟩, hsignal⟩, hfull, hrx⟩
        cases hwait : s.uart.waitToReceive with
        | false =>
            -- a character that has been handed over does not wait
            have hok : (s.uart.writeToRxQueue c).1 = true := by
              rw [Pl011.writeToRxQueue, if_neg (by rw [hwait]; exact nofun)]
              dsimp only
              split_ifs <;> rfl
            rw [hok] at hc'
            cases hc'
        | true =>
            have hsame : (s.uart.writeToRxQueue c).2 = s.uart := by
              rw [Pl011.writeToRxQueue, if_pos hwait]
            have hfull' : s.uart.rxFifo.isFull = false := hsame ▸ hfull
            have hrx' : s.uart.canRx = true := hsame ▸ hrx
            rw [Pl011.waitToReceive, hfull', hrx'] at hwait
            cases hwait
      · exact h
  | wake =>
      refine iff_of_true ?_ trivial
      rw [next]
      split
      · rintro ⟨⟨⟨c', hc'⟩, -⟩, -⟩
        cases hc'
      · exact h
  | operation op =>
      cases op with
      | writeToRxQueue c => exact iff_of_true h trivial
      | access access offset size value =>
          exact stranded_operation_iff h (kind_access_ne_receive access offset size value)
      | reset => exact stranded_operation_iff h nofun

/-- **The writer is never stranded** in a run exactly if every turn meets the condition. -/
theorem not_stranded_iff (sbsaUart : Bool) (acts : List RxAct) :
    (∀ s ∈ acts.scanl RxSys.next (init sbsaUart), ¬s.Stranded) ↔
      AllOk RxSys.next Signals (init sbsaUart) acts :=
  @forall_scanl_iff_allOk _ _ RxSys.next Signals (fun s => ¬s.Stranded) (fun s => ¬s.Stranded)
    (fun _ a h hok => (stranded_next_iff h a).2 hok)
    (fun _ a h hbreak hnot => hbreak ((stranded_next_iff h a).1 hnot)) (fun _ h => h) acts _
    fun h => nomatch h.1.1

/-- The queue takes one character, the signal of the reset is used up, and the writer waits; then the
guest enables the queues. -/
def waitAndResize : List RxAct :=
  [.toGuest 65, .attempt, .toGuest 66, .attempt, .wake, .attempt,
    .operation (.access .write 0x2c 1 0x70)]

/-- The writer waits for space in an empty queue. -/
theorem stranded_after_resize :
    (waitAndResize.foldl next (init true)).writer = .waiting 66 ∧
      (waitAndResize.foldl next (init true)).uart.rxFifo.curSize = 0 ∧
      (waitAndResize.foldl next (init true)).Stranded := by
  refine ⟨by decide, by decide, ⟨⟨66, by decide⟩, by decide⟩, by decide, by decide⟩

end RxSys

end Vml
