import Vml.Lib.Run
import Vml.Platform
import Vml.SeqQueue
import Vml.Vbus

/-!
# The UART

`pl011.cpp` and `pl011.hpp`: the registers of a PL011, its two queues, and the character that the
outside hands over. Every operation holds the lock of the state, so that each is one step.

What the device does to the outside is part of its state: the level it has last driven on its
interrupt line, the characters it has handed to the backend, and the signal to who waits for space
in the receive queue. A backend is registered.
-/

namespace Vml

/-- The registers, with the names of the enumeration. -/
inductive UartReg
  | dr | rsr | fr | ilpr | ibrd | fbrd | lcrH | cr | ifls | imsc | ris | mis | icr | dmacr
  | periphId0 | periphId1 | periphId2 | periphId3 | pcellId0 | pcellId1 | pcellId2 | pcellId3
  deriving DecidableEq, Repr

/-- The register at an offset. -/
def UartReg.ofOffset (offset : UInt64) : Option UartReg :=
  if offset = 0x00 then some .dr
  else if offset = 0x04 then some .rsr
  else if offset = 0x18 then some .fr
  else if offset = 0x20 then some .ilpr
  else if offset = 0x24 then some .ibrd
  else if offset = 0x28 then some .fbrd
  else if offset = 0x2c then some .lcrH
  else if offset = 0x30 then some .cr
  else if offset = 0x34 then some .ifls
  else if offset = 0x38 then some .imsc
  else if offset = 0x3c then some .ris
  else if offset = 0x40 then some .mis
  else if offset = 0x44 then some .icr
  else if offset = 0x48 then some .dmacr
  else if offset = 0xfe0 then some .periphId0
  else if offset = 0xfe4 then some .periphId1
  else if offset = 0xfe8 then some .periphId2
  else if offset = 0xfec then some .periphId3
  else if offset = 0xff0 then some .pcellId0
  else if offset = 0xff4 then some .pcellId1
  else if offset = 0xff8 then some .pcellId2
  else if offset = 0xffc then some .pcellId3
  else none

/-- `Model::Pl011`. -/
structure Pl011 where
  sbsaUart : Bool := true
  ilpr : UInt8 := 0
  ibrd : UInt16 := 0
  fbrd : UInt16 := 0
  lcrh : UInt16 := 0
  imsc : UInt16 := 0
  cr : UInt16 := 0x300
  ifls : UInt16 := 0x12
  ris : UInt16 := 0
  dmacr : UInt16 := 0
  rxIrqDisabledByIcr : Bool := false
  txIrqDisabledByIcr : Bool := false
  rxFifo : SeqQueue UInt16 := { data := fun _ => 0 }
  txFifo : SeqQueue UInt16 := { data := fun _ => 0 }
  /-- The level last driven by `set_lvl_to_gicd` and `deassert_global_line`. -/
  line : Bool := false
  sigNotifyEmptySpace : Signal := {}
  /-- What `from_guest_sent` has been called with. -/
  sent : List UInt8 := []

namespace Pl011

/-! ## Bits -/

def fifoMaxSize : ℕ := 32

def rxfe : UInt64 := 0x10

def rxff : UInt64 := 0x40

def txfe : UInt64 := 0x80

def fen : UInt16 := 0x10

def wlen8 : UInt16 := 0x60

def uarten : UInt16 := 1

def txe : UInt16 := 0x100

def rxe : UInt16 := 0x200

def rxim : UInt16 := 0x10

def txim : UInt16 := 0x20

def rxris : UInt16 := 0x10

def txris : UInt16 := 0x20

/-- `get_tx_irq_level`. -/
def getTxIrqLevel (u : Pl011) : UInt16 := u.ifls &&& 7

/-- `is_fifo_enabled`. -/
def isFifoEnabled (u : Pl011) : Bool := fen &&& u.lcrh != 0

/-- `uart_enabled`. -/
def uartEnabled (u : Pl011) : Bool := u.cr &&& uarten != 0

/-- `can_tx`. -/
def canTx (u : Pl011) : Bool := u.uartEnabled && u.cr &&& txe != 0

/-- `can_rx`. -/
def canRx (u : Pl011) : Bool := u.uartEnabled && u.cr &&& rxe != 0

/-- `wait_to_receive`. -/
def waitToReceive (u : Pl011) : Bool := u.rxFifo.isFull || !u.canRx

/-- `is_rx_irq_asserted`. -/
def isRxIrqAsserted (u : Pl011) : Bool := u.imsc &&& rxim != 0 && u.ris &&& rxris != 0

/-- `is_tx_irq_asserted`. -/
def isTxIrqAsserted (u : Pl011) : Bool := u.imsc &&& txim != 0 && u.ris &&& txris != 0

/-- `is_irq_asserted`. -/
def isIrqAsserted (u : Pl011) : Bool := u.isRxIrqAsserted || u.isTxIrqAsserted

/-- `rx_irq_cond`. -/
def rxIrqCond (u : Pl011) : Bool := decide (0 < u.rxFifo.curSize)

/-- `tx_irq_cond`. -/
def txIrqCond (u : Pl011) : Bool :=
  if u.getTxIrqLevel = 0 then decide (u.txFifo.curSize ≤ 4)
  else if u.getTxIrqLevel = 1 then decide (u.txFifo.curSize ≤ 8)
  else if u.getTxIrqLevel = 2 then decide (u.txFifo.curSize ≤ 16)
  else if u.getTxIrqLevel = 3 then decide (u.txFifo.curSize ≤ 24)
  else if u.getTxIrqLevel = 4 then decide (u.txFifo.curSize ≤ 28)
  else true

/-- `compute_rxris`. -/
def computeRxris (u : Pl011) : Bool := u.rxIrqCond && !u.rxIrqDisabledByIcr

/-! ## Effects -/

/-- `set_lvl_to_gicd`, and `deassert_global_line`. -/
def setLvlToGicd (u : Pl011) (asserted : Bool) : Pl011 := { u with line := asserted }

/-- `updated_irq_lvl_to_gicd_if_needed`. -/
def updatedIrqLvlToGicdIfNeeded (u : Pl011) (oldIrqLvl : Bool) : Pl011 :=
  if oldIrqLvl != u.isIrqAsserted then u.setLvlToGicd u.isIrqAsserted else u

/-- `set_rxris`. -/
def setRxris (u : Pl011) (b : Bool) : Pl011 :=
  if b then { u with ris := u.ris ||| rxris }
  else { u with ris := u.ris &&& ~~~rxris, rxIrqDisabledByIcr := false }

/-- `set_txris`. -/
def setTxris (u : Pl011) (b : Bool) : Pl011 :=
  if b then { u with ris := u.ris ||| txris }
  else { u with ris := u.ris &&& ~~~txris, txIrqDisabledByIcr := false }

/-- `_sig_notify_empty_space.sig`. -/
def notifyEmptySpace (u : Pl011) : Pl011 :=
  { u with sigNotifyEmptySpace := u.sigNotifyEmptySpace.sig }

/-- `_callback->from_guest_sent`. -/
def fromGuestSent (u : Pl011) (cs : List UInt8) : Pl011 := { u with sent := u.sent ++ cs }

/-! ## Writes -/

/-- `!could_rx && can_rx()`, after `UARTCR` has been written. -/
def startsRx (u : Pl011) (value : UInt64) : Bool :=
  !u.canRx && { u with cr := value.toUInt16 }.canRx

/-- `!could_tx && can_tx()`, after `UARTCR` has been written. -/
def startsTx (u : Pl011) (value : UInt64) : Bool :=
  !u.canTx && { u with cr := value.toUInt16 }.canTx

/-- What `mmio_write_cr` does when the transmitter has been enabled. -/
def drainTx (u : Pl011) (oldTxCond : Bool) : Pl011 :=
  let drained := SeqQueue.dequeueMany u.txFifo.curSize u.txFifo
  let v := { u with txFifo := drained.2 }.fromGuestSent (drained.1.map UInt16.toUInt8)
  if !oldTxCond then v.setTxris true else v

/-- `mmio_write_cr`. -/
def mmioWriteCr (u : Pl011) (value : UInt64) : Pl011 :=
  let v := { u with cr := value.toUInt16 }
  let v := if u.startsRx value then v.notifyEmptySpace else v
  let v := if u.startsTx value then v.drainTx u.txIrqCond else v
  v.updatedIrqLvlToGicdIfNeeded u.isIrqAsserted

/-- `mmio_write_ifls`. It takes the old condition of the receiver from the transmitter. -/
def mmioWriteIfls (u : Pl011) (value : UInt64) : Pl011 :=
  let oldTxCond := u.txIrqCond
  let oldRxCond := u.txIrqCond
  let v := { u with ifls := value.toUInt16 }
  let newRxCond := v.rxIrqCond
  let newTxCond := v.txIrqCond
  let v := if !newTxCond then v.setTxris false else if !oldTxCond then v.setTxris true else v
  let v := if !newRxCond then v.setRxris false else if !oldRxCond then v.setRxris true else v
  v.updatedIrqLvlToGicdIfNeeded u.isIrqAsserted

/-- `mmio_write_icr`. -/
def mmioWriteIcr (u : Pl011) (value : UInt64) : Pl011 :=
  let v := { u with ris := u.ris &&& (~~~(value &&& 0x7ff)).toUInt16 }
  let v := v.updatedIrqLvlToGicdIfNeeded u.isIrqAsserted
  let v :=
    if value &&& txris.toUInt64 &&& (u.ris &&& txris).toUInt64 != 0 then
      { v with txIrqDisabledByIcr := true }
    else v
  if value &&& rxris.toUInt64 &&& (u.ris &&& rxris).toUInt64 != 0 then
    { v with rxIrqDisabledByIcr := true }
  else v

/-- `mmio_write_dr`. -/
def mmioWriteDr (u : Pl011) (value : UInt64) : Pl011 :=
  if !u.uartEnabled then u
  else
    let v :=
      if u.canTx then u.fromGuestSent [value.toUInt8]
      else { u with txFifo := (u.txFifo.enqueue value.toUInt8.toUInt16).2 }
    (v.setTxris v.txIrqCond).updatedIrqLvlToGicdIfNeeded u.isIrqAsserted

/-- A write of `UARTLCR_H`. -/
def mmioWriteLcrH (u : Pl011) (value : UInt64) : Pl011 :=
  let v := { u with lcrh := value.toUInt8.toUInt16 }
  let capacity := if v.isFifoEnabled then fifoMaxSize else 1
  { v with rxFifo := v.rxFifo.reset capacity, txFifo := v.txFifo.reset capacity }

/-- `mmio_write`, which always succeeds. -/
def mmioWrite (u : Pl011) (offset value : UInt64) : Pl011 :=
  match UartReg.ofOffset offset with
  | some .dr => u.mmioWriteDr value
  | some .ilpr => { u with ilpr := value.toUInt8 }
  | some .ibrd => { u with ibrd := value.toUInt16 }
  | some .fbrd => { u with fbrd := value.toUInt8.toUInt16 }
  | some .lcrH => u.mmioWriteLcrH value
  | some .cr => u.mmioWriteCr value
  | some .ifls => u.mmioWriteIfls value
  | some .imsc =>
      { u with imsc := value.toUInt16 }.updatedIrqLvlToGicdIfNeeded u.isIrqAsserted
  | some .icr => u.mmioWriteIcr value
  | some .dmacr => { u with dmacr := value.toUInt16 }
  -- the other registers can only be read
  | _ => u

/-! ## Reads -/

/-- `!is_empty && can_rx()`: a read of `UARTDR` takes a character. -/
def takes (u : Pl011) : Bool := !(u.rxFifo.isEmpty || !u.canRx)

/-- The read of a character takes it from the receive queue. -/
def takeRx (u : Pl011) : Pl011 :=
  let v := { u with rxFifo := u.rxFifo.dequeue.2 }
  let v := if u.rxIrqCond && !v.rxIrqCond then (v.setRxris false).setLvlToGicd false else v
  if u.rxFifo.isFull then v.notifyEmptySpace else v

/-- A read of `UARTDR`. -/
def mmioReadDr (u : Pl011) : UInt64 × Pl011 :=
  if u.takes then (u.rxFifo.dequeue.1.toUInt64, u.takeRx) else (0, u)

/-- `mmio_read`, with the value that the caller has passed. -/
def mmioRead (u : Pl011) (offset value : UInt64) : Bool × UInt64 × Pl011 :=
  match UartReg.ofOffset offset with
  | some .dr => (true, u.mmioReadDr.1, u.mmioReadDr.2)
  | some .rsr => (true, 0, u)
  | some .fr =>
      (true, (if u.rxFifo.isEmpty then rxfe else 0) ||| (if u.rxFifo.isFull then rxff else 0) |||
        txfe, u)
  | some .ilpr => (true, u.ilpr.toUInt64, u)
  | some .ibrd => (true, u.ibrd.toUInt64, u)
  | some .fbrd => (true, u.fbrd.toUInt64, u)
  | some .lcrH => (true, u.lcrh.toUInt64, u)
  | some .cr => (true, u.cr.toUInt64, u)
  | some .ifls => (true, u.ifls.toUInt64, u)
  | some .imsc => (true, u.imsc.toUInt64, u)
  | some .ris => (true, u.ris.toUInt64, u)
  | some .mis => (true, (u.ris &&& u.imsc).toUInt64, u)
  -- the value is left as it is
  | some .icr => (true, value, u)
  | some .dmacr => (true, u.dmacr.toUInt64, u)
  | some .periphId0 => (true, 0x11, u)
  | some .periphId1 => (true, 0x10, u)
  | some .periphId2 => (true, 0x14, u)
  | some .periphId3 => (true, 0x0, u)
  | some .pcellId0 => (true, 0xd, u)
  | some .pcellId1 => (true, 0xf0, u)
  | some .pcellId2 => (true, 0x5, u)
  | some .pcellId3 => (true, 0xb1, u)
  | none => (false, value, u)

/-! ## Operations -/

/-- `access`: whether it succeeds, and the value after it. -/
def access (u : Pl011) (access : Vbus.Access) (offset value : UInt64) : Bool × UInt64 × Pl011 :=
  if access = .exec then (false, value, u)
  else if access = .write then (true, value, u.mmioWrite offset value)
  else u.mmioRead offset value

/-- `write_to_rx_queue`. -/
def writeToRxQueue (u : Pl011) (c : UInt8) : Bool × Pl011 :=
  if u.waitToReceive then (false, u)
  else
    let v := { u with rxFifo := (u.rxFifo.enqueue c.toUInt16).2 }
    if v.computeRxris then
      (true, (v.setRxris true).updatedIrqLvlToGicdIfNeeded u.isIrqAsserted)
    else (true, v)

/-- `reset`, but for the callback of the lifecycle. -/
def reset (u : Pl011) : Pl011 :=
  let cr := rxe ||| txe
  { u with
    ilpr := 0
    ibrd := 0
    fbrd := 0
    lcrh := if u.sbsaUart then wlen8 ||| fen else 0
    imsc := 0
    cr := if u.sbsaUart then cr ||| uarten else cr
    ris := 0
    ifls := 0x12
    dmacr := 0
    rxIrqDisabledByIcr := false
    txIrqDisabledByIcr := false
    rxFifo := u.rxFifo.reset 1 }.notifyEmptySpace

/-- `init`, on the device that is constructed. -/
def init (sbsaUart : Bool) : Pl011 := { sbsaUart := sbsaUart : Pl011 }.reset

/-! ## What the effects leave alone -/

section Frames

variable (u : Pl011) (b : Bool)

@[simp] theorem line_setTxris : (u.setTxris b).line = u.line := by
  cases b <;> rfl

@[simp] theorem line_setRxris : (u.setRxris b).line = u.line := by
  cases b <;> rfl

@[simp] theorem rxFifo_setTxris : (u.setTxris b).rxFifo = u.rxFifo := by
  cases b <;> rfl

@[simp] theorem rxFifo_setRxris : (u.setRxris b).rxFifo = u.rxFifo := by
  cases b <;> rfl

@[simp] theorem rxFifo_updatedIrqLvlToGicdIfNeeded :
    (u.updatedIrqLvlToGicdIfNeeded b).rxFifo = u.rxFifo := by
  rw [updatedIrqLvlToGicdIfNeeded]
  split_ifs <;> rfl

@[simp] theorem txFifo_setTxris : (u.setTxris b).txFifo = u.txFifo := by
  cases b <;> rfl

@[simp] theorem txFifo_setRxris : (u.setRxris b).txFifo = u.txFifo := by
  cases b <;> rfl

@[simp] theorem txFifo_updatedIrqLvlToGicdIfNeeded :
    (u.updatedIrqLvlToGicdIfNeeded b).txFifo = u.txFifo := by
  rw [updatedIrqLvlToGicdIfNeeded]
  split_ifs <;> rfl

@[simp] theorem cr_setTxris : (u.setTxris b).cr = u.cr := by
  cases b <;> rfl

@[simp] theorem cr_setRxris : (u.setRxris b).cr = u.cr := by
  cases b <;> rfl

@[simp] theorem cr_updatedIrqLvlToGicdIfNeeded :
    (u.updatedIrqLvlToGicdIfNeeded b).cr = u.cr := by
  rw [updatedIrqLvlToGicdIfNeeded]
  split_ifs <;> rfl

@[simp] theorem sent_setTxris : (u.setTxris b).sent = u.sent := by
  cases b <;> rfl

@[simp] theorem sent_setRxris : (u.setRxris b).sent = u.sent := by
  cases b <;> rfl

@[simp] theorem sent_updatedIrqLvlToGicdIfNeeded :
    (u.updatedIrqLvlToGicdIfNeeded b).sent = u.sent := by
  rw [updatedIrqLvlToGicdIfNeeded]
  split_ifs <;> rfl

@[simp] theorem sigNotifyEmptySpace_setTxris :
    (u.setTxris b).sigNotifyEmptySpace = u.sigNotifyEmptySpace := by
  cases b <;> rfl

@[simp] theorem sigNotifyEmptySpace_setRxris :
    (u.setRxris b).sigNotifyEmptySpace = u.sigNotifyEmptySpace := by
  cases b <;> rfl

@[simp] theorem sigNotifyEmptySpace_updatedIrqLvlToGicdIfNeeded :
    (u.updatedIrqLvlToGicdIfNeeded b).sigNotifyEmptySpace = u.sigNotifyEmptySpace := by
  rw [updatedIrqLvlToGicdIfNeeded]
  split_ifs <;> rfl

end Frames

end Pl011

/-- An operation of the guest, one attempt of `to_guest`, or a reset. -/
inductive UartOp
  | access (access : Vbus.Access) (offset : UInt64) (size : UInt8) (value : UInt64)
  | writeToRxQueue (c : UInt8)
  | reset
  deriving DecidableEq, Repr

/-- The device after an operation. The size of an access is only warned about. -/
def Pl011.next (u : Pl011) : UartOp → Pl011
  | .access access offset _ value => (u.access access offset value).2.2
  | .writeToRxQueue c => (u.writeToRxQueue c).2
  | .reset => u.reset

namespace Pl011

/-! ## What the writes change -/

variable {u : Pl011} (value : UInt64)

/-- What a write of `UARTCR` changes, but for the interrupt. -/
structure CrWritten (u : Pl011) (value : UInt64) (v : Pl011) : Prop where
  cr : v.cr = value.toUInt16
  rxFifo : v.rxFifo = u.rxFifo
  txFifo : v.txFifo =
    if u.startsTx value then (SeqQueue.dequeueMany u.txFifo.curSize u.txFifo).2 else u.txFifo
  sent : v.sent =
    if u.startsTx value then
      u.sent ++ (SeqQueue.dequeueMany u.txFifo.curSize u.txFifo).1.map UInt16.toUInt8
    else u.sent
  signal : v.sigNotifyEmptySpace =
    if u.startsRx value then u.sigNotifyEmptySpace.sig else u.sigNotifyEmptySpace

theorem crWritten (u : Pl011) (value : UInt64) : CrWritten u value (u.mmioWriteCr value) := by
  unfold mmioWriteCr drainTx
  cases hrx : u.startsRx value <;> cases htx : u.startsTx value <;> cases hc : u.txIrqCond <;>
    constructor <;> simp [hrx, htx, fromGuestSent, notifyEmptySpace]

/-- The operation has nothing to do with the queues. -/
structure Aside (u v : Pl011) : Prop where
  cr : v.cr = u.cr
  rxFifo : v.rxFifo = u.rxFifo
  txFifo : v.txFifo = u.txFifo
  sent : v.sent = u.sent
  signal : v.sigNotifyEmptySpace = u.sigNotifyEmptySpace

theorem aside_mmioWriteIfls : Aside u (u.mmioWriteIfls value) := by
  unfold mmioWriteIfls
  dsimp only
  split_ifs <;> constructor <;> simp

theorem aside_mmioWriteIcr : Aside u (u.mmioWriteIcr value) := by
  unfold mmioWriteIcr
  dsimp only
  split_ifs <;> constructor <;> simp

theorem aside_mmioWriteImsc : Aside u
    ({ u with imsc := value.toUInt16 }.updatedIrqLvlToGicdIfNeeded u.isIrqAsserted) := by
  constructor <;> simp

end Pl011

/-! ## Operations that have to do with the queues -/

/-- What an operation has to do with the queues. -/
inductive UartKind
  | writeDr (value : UInt64)
  | writeCr (value : UInt64)
  | writeLcrH (value : UInt64)
  | readDr
  | receive (c : UInt8)
  | reset
  | aside
  deriving DecidableEq, Repr

/-- The kind of an operation. -/
def UartOp.kind : UartOp → UartKind
  | .access a offset _ value =>
      if a = .exec then .aside
      else if a = .write then
        match UartReg.ofOffset offset with
        | some .dr => .writeDr value
        | some .cr => .writeCr value
        | some .lcrH => .writeLcrH value
        | _ => .aside
      else
        match UartReg.ofOffset offset with
        | some .dr => .readDr
        | _ => .aside
  | .writeToRxQueue c => .receive c
  | .reset => .reset

namespace Pl011

variable {u v : Pl011}

/-- What an operation of a kind makes of the device. -/
def Does (u v : Pl011) : UartKind → Prop
  | .writeDr value => v = u.mmioWriteDr value
  | .writeCr value => v = u.mmioWriteCr value
  | .writeLcrH value => v = u.mmioWriteLcrH value
  | .readDr => v = u.mmioReadDr.2
  | .receive c => v = (u.writeToRxQueue c).2
  | .reset => v = u.reset
  | .aside => Aside u v

theorem aside_refl (u : Pl011) : Aside u u := ⟨rfl, rfl, rfl, rfl, rfl⟩

/-- **What an operation can do** to the queues. -/
theorem does_next (u : Pl011) (op : UartOp) : Does u (u.next op) op.kind := by
  cases op with
  | writeToRxQueue c => rfl
  | reset => rfl
  | access access offset size value =>
      rw [UartOp.kind, Pl011.next, Pl011.access]
      split_ifs
      · exact aside_refl u
      · rw [mmioWrite]
        cases UartReg.ofOffset offset with
        | none => exact aside_refl u
        | some reg =>
            cases reg with
            | dr => rfl
            | cr => rfl
            | lcrH => rfl
            | ifls => exact aside_mmioWriteIfls value
            | icr => exact aside_mmioWriteIcr value
            | imsc => exact aside_mmioWriteImsc value
            | _ => exact ⟨rfl, rfl, rfl, rfl, rfl⟩
      · rw [mmioRead]
        cases UartReg.ofOffset offset with
        | none => exact aside_refl u
        | some reg =>
            cases reg with
            | dr => rfl
            | _ => exact aside_refl u

/-- What a read of `UARTDR` changes, but for the interrupt. -/
structure DrRead (u v : Pl011) : Prop where
  cr : v.cr = u.cr
  rxFifo : v.rxFifo = if u.takes then u.rxFifo.dequeue.2 else u.rxFifo
  txFifo : v.txFifo = u.txFifo
  sent : v.sent = u.sent
  signal : v.sigNotifyEmptySpace =
    if u.takes && u.rxFifo.isFull then u.sigNotifyEmptySpace.sig else u.sigNotifyEmptySpace

theorem drRead (u : Pl011) : DrRead u u.mmioReadDr.2 := by
  rw [mmioReadDr]
  cases htakes : u.takes with
  | false => constructor <;> simp [htakes]
  | true =>
      rw [if_pos rfl]
      unfold takeRx
      cases hfull : u.rxFifo.isFull <;> dsimp only <;> split_ifs <;> constructor <;>
        simp_all [setLvlToGicd, notifyEmptySpace]

/-- What a write of `UARTDR` changes, but for the interrupt. -/
structure DrWritten (u : Pl011) (value : UInt64) (v : Pl011) : Prop where
  cr : v.cr = u.cr
  rxFifo : v.rxFifo = u.rxFifo
  txFifo : v.txFifo =
    if u.uartEnabled && !u.canTx then (u.txFifo.enqueue value.toUInt8.toUInt16).2 else u.txFifo
  sent : v.sent = if u.canTx then u.sent ++ [value.toUInt8] else u.sent
  signal : v.sigNotifyEmptySpace = u.sigNotifyEmptySpace

theorem uartEnabled_of_canTx (h : u.canTx = true) : u.uartEnabled = true :=
  (Bool.and_eq_true_iff.1 h).1

theorem drWritten (u : Pl011) (value : UInt64) : DrWritten u value (u.mmioWriteDr value) := by
  unfold mmioWriteDr
  cases htx : u.canTx with
  | true => constructor <;> simp [htx, uartEnabled_of_canTx htx, fromGuestSent]
  | false => cases hen : u.uartEnabled <;> constructor <;> simp [htx, hen]

/-- What a character that the outside hands over changes, but for the interrupt. -/
structure Received (u : Pl011) (c : UInt8) (v : Pl011) : Prop where
  cr : v.cr = u.cr
  rxFifo : v.rxFifo = if u.waitToReceive then u.rxFifo else (u.rxFifo.enqueue c.toUInt16).2
  txFifo : v.txFifo = u.txFifo
  sent : v.sent = u.sent
  signal : v.sigNotifyEmptySpace = u.sigNotifyEmptySpace

theorem received (u : Pl011) (c : UInt8) : Received u c (u.writeToRxQueue c).2 := by
  unfold writeToRxQueue
  cases hwait : u.waitToReceive with
  | true => constructor <;> simp [hwait]
  | false =>
      dsimp only
      rw [if_neg nofun]
      split_ifs <;> constructor <;> simp [hwait]

/-! ## The queues stay queues -/

/-- The queues are queues. -/
structure Sound (u : Pl011) : Prop where
  rxFifo : u.rxFifo.Sound
  txFifo : u.txFifo.Sound

theorem sound_init (sbsaUart : Bool) : (init sbsaUart).Sound :=
  ⟨SeqQueue.sound_reset Nat.one_pos, Nat.one_pos, Nat.one_pos, Nat.le_refl 1, fun _ => rfl⟩

theorem sound_mmioWriteLcrH (u : Pl011) (value : UInt64) : (u.mmioWriteLcrH value).Sound := by
  have hpos : 0 < if ({ u with lcrh := value.toUInt8.toUInt16 } : Pl011).isFifoEnabled then
      fifoMaxSize else 1 := by
    split_ifs <;> decide
  exact ⟨SeqQueue.sound_reset hpos, SeqQueue.sound_reset hpos⟩

theorem isEmpty_of_takes (h : u.takes = true) : u.rxFifo.isEmpty = false ∧ u.canRx = true := by
  simpa [takes] using h

/-- **Every operation** leaves the queues queues. -/
theorem Sound.next (h : u.Sound) (op : UartOp) : (u.next op).Sound := by
  have hdoes := does_next u op
  cases hkind : op.kind with
  | writeDr value =>
      rw [hkind] at hdoes
      rw [show u.next op = _ from hdoes]
      have hwritten := drWritten u value
      refine ⟨by rw [hwritten.rxFifo]; exact h.rxFifo, ?_⟩
      rw [hwritten.txFifo]
      split_ifs
      · exact h.txFifo.enqueue
      · exact h.txFifo
  | writeCr value =>
      rw [hkind] at hdoes
      rw [show u.next op = _ from hdoes]
      have hwritten := crWritten u value
      refine ⟨by rw [hwritten.rxFifo]; exact h.rxFifo, ?_⟩
      rw [hwritten.txFifo]
      split_ifs
      · exact (SeqQueue.dequeueMany_curSize h.txFifo rfl).2.1
      · exact h.txFifo
  | writeLcrH value =>
      rw [hkind] at hdoes
      rw [show u.next op = _ from hdoes]
      exact sound_mmioWriteLcrH u value
  | readDr =>
      rw [hkind] at hdoes
      rw [show u.next op = _ from hdoes]
      have hread := drRead u
      refine ⟨?_, by rw [hread.txFifo]; exact h.txFifo⟩
      rw [hread.rxFifo]
      split_ifs with htakes
      · exact h.rxFifo.dequeue (isEmpty_of_takes htakes).1
      · exact h.rxFifo
  | receive c =>
      rw [hkind] at hdoes
      rw [show u.next op = _ from hdoes]
      have hreceived := received u c
      refine ⟨?_, by rw [hreceived.txFifo]; exact h.txFifo⟩
      rw [hreceived.rxFifo]
      split_ifs
      · exact h.rxFifo
      · exact h.rxFifo.enqueue
  | reset =>
      rw [hkind] at hdoes
      rw [show u.next op = _ from hdoes]
      exact ⟨SeqQueue.sound_reset Nat.one_pos, h.txFifo⟩
  | aside =>
      rw [hkind] at hdoes
      have haside : Aside u (u.next op) := hdoes
      exact ⟨by rw [haside.rxFifo]; exact h.rxFifo, by rw [haside.txFifo]; exact h.txFifo⟩

end Pl011

end Vml
