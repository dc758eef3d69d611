import Vml.SgCopy
import Vml.SgWalk
import Vml.VirtioMmio

/-!
# The virtio console

`Model::VirtioConsole` and what it inherits from `Virtio::Device`. The guest drives it through the
MMIO window (`access`, `handle_events`); a backend hands bytes to the guest with `to_guest` and
takes bytes from it with `from_guest`; the platform calls `reset`.

Each of the two buffers keeps the chain it has walked until it concludes it. `to_guest` concludes
the RX buffer before it returns. `from_guest` returns as soon as its caller has enough, so the TX
buffer holds a chain, and a position in it, from one call to the next.

The loops are given fuel; that it suffices is proved with the properties of the loops.
-/

namespace Vml

/-- The indices of the two queues. -/
abbrev rxQueue : ℕ := 0
abbrev txQueue : ℕ := 1

/-- What a call of the backend runs against: the guest, which answers its loads, and the address
translation of the device as it is when so many loads have been made. -/
structure CallEnv where
  guest : Guest
  accessor : ℕ → ChainAccessor

/-- `Model::VirtioConsole`. `irqLine` is the device's line at the interrupt controller. -/
structure VirtioConsole where
  devState : DeviceState
  rxBuff : Buffer
  txBuff : Buffer
  txBuffProgress : ℕ := 0
  sigNotifyEvent : Signal := {}
  driverInitialized : Bool := false
  sigNotifyEmptySpace : Signal := {}
  irqLine : Bool := false

namespace VirtioConsole

/-- A console that has been constructed, with `init`. -/
def new (queueEntries : UInt16) : VirtioConsole where
  devState := { queueNumMax := queueEntries, deviceId := 3, configSize := 12 }
  rxBuff := { maxChainLength := queueEntries }
  txBuff := { maxChainLength := queueEntries }

/-- `queue`. -/
def queue (c : VirtioConsole) (i : ℕ) : QueueState := c.devState.queue i

/-- `device_queue`. -/
def deviceQueue (c : VirtioConsole) (i : ℕ) : DeviceQueue := (c.queue i).deviceQueue

/-- Put back a device queue that a call has used. -/
def setDeviceQueue (c : VirtioConsole) (i : ℕ) (q : DeviceQueue) : VirtioConsole :=
  { c with devState := { c.devState with
      queue := Function.update c.devState.queue i { c.queue i with deviceQueue := q } } }

/-! ## Interrupts -/

/-- `assert_irq`, by `MMIOTransport::assert_queue_interrupt`. -/
def assertIrq (c : VirtioConsole) : VirtioConsole :=
  if c.devState.irqStatus &&& 1 != 0 then c
  else
    { c with
      devState := { c.devState with irqStatus := c.devState.irqStatus ||| 1 }
      irqLine := true }

/-- `deassert_irq`, by `MMIOTransport::deassert_queue_interrupt`. -/
def deassertIrq (c : VirtioConsole) : VirtioConsole :=
  { c with
    devState := { c.devState with irqStatus := c.devState.irqStatus &&& ~~~1 }
    irqLine := false }

/-! ## Events from the guest -/

/-- The driver has set up queue `i` and is ready. -/
def usable (c : VirtioConsole) (i : ℕ) : Bool := (c.queue i).constructed && c.driverInitialized

/-- `notify`, which loads the index of the RX queue's available ring from `m`. -/
def notify (c : VirtioConsole) (m : Shared) : VirtioConsole :=
  let c := { c with sigNotifyEvent := c.sigNotifyEvent.sig }
  if !c.usable rxQueue then c
  else if (c.deviceQueue rxQueue).getFree m ≠ 0 then
    { c with sigNotifyEmptySpace := c.sigNotifyEmptySpace.sig }
  else c

/-- `driver_ok`. -/
def driverOk (c : VirtioConsole) : VirtioConsole := { c with driverInitialized := true }

/-- The first event of `handle_events`: construct the selected queue. -/
def handleConstruct (c : VirtioConsole) (p : Platform) : VirtioConsole :=
  if c.devState.constructQueue then
    { c with devState := { c.devState with constructQueue := false }.constructSelected p }
  else c

/-- The second event: the status has changed. -/
def handleStatus (c : VirtioConsole) : VirtioConsole :=
  if c.devState.statusChanged then
    let c := { c with devState := { c.devState with statusChanged := false } }
    if c.devState.status = 0 then { c with devState := c.devState.reset }
    else if c.devState.status &&& driverOkBit ≠ 0 then c.driverOk
    else c
  else c

/-- The third event: an interrupt has been acknowledged. -/
def handleIrqAck (c : VirtioConsole) : VirtioConsole :=
  if c.devState.irqAcknowledged then
    { c with devState := { c.devState with irqAcknowledged := false } }.deassertIrq
  else c

/-- The fourth event: a queue notification. -/
def handleNotify (c : VirtioConsole) (m : Shared) : VirtioConsole :=
  if c.devState.notify then
    { c with devState := { c.devState with notify := false } }.notify m
  else c

/-- `handle_events`. -/
def handleEvents (c : VirtioConsole) (p : Platform) (m : Shared) : VirtioConsole :=
  (((c.handleConstruct p).handleStatus).handleIrqAck).handleNotify m

/-- `access`: whether it succeeds, the value and the device. -/
def access (c : VirtioConsole) (a : Access) (offset : UInt64) (size : UInt8) (value : UInt64)
    (p : Platform) (m : Shared) : Bool × UInt64 × VirtioConsole :=
  let r := c.devState.mmioAccess a offset size value
  let c := { c with devState := r.2.2 }
  (r.1, r.2.1, if r.1 then c.handleEvents p m else c)

/-! ## Calls of the backend -/

/-- Put back the RX buffer and the RX queue after a call on both. -/
def putRx (c : VirtioConsole) (b : Buffer) (q : DeviceQueue) : VirtioConsole :=
  { c.setDeviceQueue rxQueue q with rxBuff := b }

/-- Put back the TX buffer and the TX queue after a call on both. -/
def putTx (c : VirtioConsole) (b : Buffer) (q : DeviceQueue) : VirtioConsole :=
  { c.setDeviceQueue txQueue q with txBuff := b }

/-- `_rx_buff.conclude_chain_use(device_queue(RX))`. -/
def concludeRx (c : VirtioConsole) : VirtioConsole :=
  let r := c.rxBuff.concludeChainUse (c.deviceQueue rxQueue)
  c.putRx r.1 r.2

/-- `_tx_buff.conclude_chain_use(device_queue(TX))`. -/
def concludeTx (c : VirtioConsole) : VirtioConsole :=
  let r := c.txBuff.concludeChainUse (c.deviceQueue txQueue)
  c.putTx r.1 r.2

/-- `_rx_buff.walk_chain(device_queue(RX))`, with the error code and the number of the next load. -/
def walkRx (c : VirtioConsole) (env : CallEnv) (time : ℕ) : Option (Errno × VirtioConsole × ℕ) :=
  (c.rxBuff.walkChain (c.deviceQueue rxQueue) env.guest time).map fun r =>
    (r.err, c.putRx r.buffer r.queue, r.time)

/-- `_tx_buff.walk_chain(device_queue(TX))`. -/
def walkTx (c : VirtioConsole) (env : CallEnv) (time : ℕ) : Option (Errno × VirtioConsole × ℕ) :=
  (c.txBuff.walkChain (c.deviceQueue txQueue) env.guest time).map fun r =>
    (r.err, c.putTx r.buffer r.queue, r.time)

/-- How a turn of the loop of `to_guest` ends: `ok` unless it returns `false`. -/
structure RxTurn where
  ok : Bool
  console : VirtioConsole
  bufIdx : ℕ
  sizeBytes : ℕ
  /-- The number of the next load. -/
  time : ℕ
  mem : Mem

/-- The body of the loop of `to_guest`. -/
def toGuestTurn (c : VirtioConsole) (env : CallEnv) (buff : Option ℕ)
    (bufIdx sizeBytes time : ℕ) (m : Mem) : Option RxTurn := do
  let (err, c, time) ← c.walkRx env time
  if err ≠ .none then some ⟨false, c.assertIrq, bufIdx, sizeBytes, time, m⟩
  else
    let r := c.rxBuff.copyFromLinear (buff.map (· + bufIdx)) (env.accessor time)
      (min sizeBytes c.rxBuff.sizeBytes) 0 none m
    let c := { c with rxBuff := r.state }.concludeRx.assertIrq
    if r.err ≠ .none then some ⟨false, c, bufIdx, sizeBytes, time, r.mem⟩
    else some ⟨true, c, bufIdx + r.bytesCopied, sizeBytes - r.bytesCopied, time, r.mem⟩

/-- The loop of `to_guest`. -/
def toGuestLoop (env : CallEnv) (buff : Option ℕ) :
    (fuel : ℕ) → VirtioConsole → (bufIdx sizeBytes time : ℕ) → Mem →
      Option (Bool × VirtioConsole × Mem)
  | 0, _, _, _, _, _ => none
  | fuel + 1, c, bufIdx, sizeBytes, time, m =>
      if sizeBytes = 0 then some (true, c, m)
      else do
        let r ← c.toGuestTurn env buff bufIdx sizeBytes time m
        if r.ok then toGuestLoop env buff fuel r.console r.bufIdx r.sizeBytes r.time r.mem
        else some (false, r.console, r.mem)

/-- `to_guest(buff, size_bytes)`. -/
def toGuest (c : VirtioConsole) (env : CallEnv) (buff : Option ℕ) (sizeBytes : ℕ) (m : Mem) :
    Option (Bool × VirtioConsole × Mem) :=
  if !c.usable rxQueue then some (false, c, m)
  else toGuestLoop env buff (sizeBytes + 1) c 0 sizeBytes 0 m

/-- The first half of a turn of `from_guest`: take a chain if the buffer holds none. -/
def fetchTx (c : VirtioConsole) (env : CallEnv) (time : ℕ) : Option (Errno × VirtioConsole × ℕ) :=
  if c.txBuff.sizeBytes = 0 then { c with txBuffProgress := 0 }.walkTx env time
  else some (.none, c, time)

/-- The copy of a turn of `from_guest`, which is skipped when there is nothing to copy: the error
code, the number of bytes copied, the device and the memory. -/
def copyTx (c : VirtioConsole) (env : CallEnv) (outBuf : Option ℕ) (nCopy time : ℕ) (m : Mem) :
    Errno × ℕ × VirtioConsole × Mem :=
  if 0 < nCopy then
    let r := c.txBuff.copyToLinear outBuf (env.accessor time) nCopy c.txBuffProgress none m
    (r.err, r.bytesCopied, { c with txBuff := r.state }, r.mem)
  else (.none, nCopy, c, m)

/-- How a turn of the loop of `from_guest` ends: `done` if it leaves the loop. -/
structure TxTurn where
  done : Bool
  console : VirtioConsole
  sizeBytes : ℕ
  wasRead : ℕ
  /-- The number of the next load. -/
  time : ℕ
  mem : Mem

/-- The body of the loop of `from_guest`. -/
def fromGuestTurn (c : VirtioConsole) (env : CallEnv) (outBuf : Option ℕ)
    (sizeBytes wasRead time : ℕ) (m : Mem) : Option TxTurn := do
  let (err, c, time) ← c.fetchTx env time
  if err ≠ .none then some ⟨true, c, sizeBytes, wasRead, time, m⟩
  else
    let nCopy := min sizeBytes (sizeSub c.txBuff.sizeBytes c.txBuffProgress)
    let (err, nCopy, c, m) := c.copyTx env (outBuf.map (· + wasRead)) nCopy time m
    if err ≠ .none ∨ nCopy = 0 then
      some ⟨decide (err ≠ .none), c.concludeTx.assertIrq, sizeBytes, wasRead, time, m⟩
    else
      some ⟨false, { c with txBuffProgress := c.txBuffProgress + nCopy }, sizeBytes - nCopy,
        wasRead + nCopy, time, m⟩

/-- The loop of `from_guest`. -/
def fromGuestLoop (env : CallEnv) (outBuf : Option ℕ) :
    (fuel : ℕ) → VirtioConsole → (sizeBytes wasRead time : ℕ) → Mem →
      Option (ℕ × VirtioConsole × Mem)
  | 0, _, _, _, _, _ => none
  | fuel + 1, c, sizeBytes, wasRead, time, m =>
      if sizeBytes = 0 then some (wasRead, c, m)
      else do
        let r ← c.fromGuestTurn env outBuf sizeBytes wasRead time m
        if r.done then some (r.wasRead, r.console, r.mem)
        else fromGuestLoop env outBuf fuel r.console r.sizeBytes r.wasRead r.time r.mem

/-- `from_guest(out_buf, size_bytes)`. -/
def fromGuest (c : VirtioConsole) (env : CallEnv) (outBuf : Option ℕ) (sizeBytes : ℕ) (m : Mem) :
    Option (ℕ × VirtioConsole × Mem) :=
  if !c.usable txQueue then some (0, c, m)
  else fromGuestLoop env outBuf (2 * sizeBytes + 2) c sizeBytes 0 0 m

/-- `reset`. The queues get their chains back before they are torn down. -/
def reset (c : VirtioConsole) : VirtioConsole :=
  let c := c.concludeRx.concludeTx
  { c with
    sigNotifyEmptySpace := c.sigNotifyEmptySpace.sig
    devState := c.devState.reset }

end VirtioConsole

end Vml
