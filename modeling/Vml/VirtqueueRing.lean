import Vml.Lib.Ring
import Vml.Lib.Run
import Vml.Virtqueue

/-!
# A driver and a device over one virtqueue

The operations `DriverQueue::send`/`recv` and `DeviceQueue::send`/`recv` of `virtqueue.cpp` as a
transition system: one driver and one device share the rings, and each load or store of the
shared memory is one step. The counters a side keeps for itself change together with the load or
store they belong to.

The driver passes only descriptors of the queue that it does not have outstanding, and the device
only heads it holds: this is what `Virtio::Descriptor` being affine means for the two classes.
-/

namespace Vml

/-- Where the driver is in its current operation. -/
inductive DriverPc
  | idle
  /-- `send`: the counter is bumped; the ring slot is stored next. -/
  | sendRing (desc : UInt16)
  /-- `send`: the index is stored next. -/
  | sendIndex
  /-- `recv`: the used index is loaded next. -/
  | recvIndex
  /-- `recv`: `used_event` is stored next. -/
  | recvEvent (usedIdx : UInt16)
  /-- `recv`: the used ring entry is loaded next. -/
  | recvRing
  deriving DecidableEq, Repr

/-- Where the device is in its current operation. -/
inductive DevicePc
  | idle
  /-- `send`: the counter is bumped; the entry's `id` is stored next. -/
  | sendId (desc : UInt16) (len : UInt32)
  /-- `send`: the entry's `length` is stored next. -/
  | sendLength (len : UInt32)
  /-- `send`: the index is stored next. -/
  | sendIndex
  /-- `recv`: the available index is loaded next. -/
  | recvIndex
  /-- `recv`: `avail_event` is stored next. -/
  | recvEvent (availIdx : UInt16)
  /-- `recv`: the available ring entry is loaded next. -/
  | recvRing
  deriving DecidableEq, Repr

/-- The shared memory, the two sides, and the history of their calls. -/
structure RingSys where
  shared : Shared
  driver : Queue
  driverPc : DriverPc
  device : Queue
  devicePc : DevicePc
  /-- The heads passed to `DriverQueue::send`. -/
  sent : List UInt16
  /-- The heads returned by `DeviceQueue::recv`. -/
  received : List UInt16
  /-- The heads and lengths passed to `DeviceQueue::send`. -/
  returned : List (UInt16 × UInt32)
  /-- The heads returned by `DriverQueue::recv`, each with the length its used ring entry holds
  at that moment. -/
  reclaimed : List (UInt16 × UInt32)
  /-- How many times the available index has been stored. -/
  availPublished : ℕ
  /-- How many times the used index has been stored. -/
  usedPublished : ℕ
  /-- For each `recv` that reported an empty ring: the number of entries published at its index
  load and the number its side had read. -/
  empties : List (ℕ × ℕ)
  /-- How many times `DeviceQueue::recv` returned `NOTRECOVERABLE`. -/
  rejected : ℕ

namespace RingSys

/-- Both sides right after construction. The rings may hold anything; the indices are zero. -/
def initial (size : UInt16) (m : Shared) : RingSys where
  shared := { m with avail := { m.avail with index := 0 }, used := { m.used with index := 0 } }
  driver := { size }
  driverPc := .idle
  device := { size }
  devicePc := .idle
  sent := []
  received := []
  returned := []
  reclaimed := []
  availPublished := 0
  usedPublished := 0
  empties := []
  rejected := 0

/-- What can happen next: a side calls an operation, or takes the next step of the one it is
in. -/
inductive Act
  | driverSend (desc : UInt16)
  | driverRecv
  | driver
  | deviceSend (desc : UInt16) (len : UInt32)
  | deviceRecv
  | device
  deriving DecidableEq, Repr

/-- The driver has sent `desc` and not got it back. -/
def outstanding (s : RingSys) (desc : UInt16) : Prop :=
  (s.reclaimed.map Prod.fst).count desc < s.sent.count desc

/-- The device has received `desc` and not sent it back. -/
def held (s : RingSys) (desc : UInt16) : Prop :=
  (s.returned.map Prod.fst).count desc < s.received.count desc

instance (s : RingSys) (desc : UInt16) : Decidable (s.outstanding desc) :=
  inferInstanceAs (Decidable (_ < _))

instance (s : RingSys) (desc : UInt16) : Decidable (s.held desc) :=
  inferInstanceAs (Decidable (_ < _))

/-- `_available.set_ring`. -/
def setAvailRing (s : RingSys) (slot : ℕ) (v : UInt16) : Shared :=
  { s.shared with
    avail := { s.shared.avail with ring := Function.update s.shared.avail.ring slot v } }

/-- `_used.set_ring` stores the entry field by field; this is one of the two stores. -/
def setUsedRing (s : RingSys) (slot : ℕ) (e : UsedEntry) : Shared :=
  { s.shared with
    used := { s.shared.used with ring := Function.update s.shared.used.ring slot e } }

/-- The descriptor index `DriverQueue::recv` computes from a used ring id. -/
def usedDesc (size : UInt16) (id : UInt32) : UInt16 := (id % size.toUInt32).toUInt16

/-- The driver's next step. -/
def stepDriver (s : RingSys) : Option RingSys :=
  match s.driverPc with
  | .idle => none
  | .sendRing desc =>
      some { s with shared := s.setAvailRing s.driver.drivenSlot desc, driverPc := .sendIndex }
  | .sendIndex =>
      some { s with
        shared := { s.shared with avail := { s.shared.avail with index := s.driver.drivenIdx } }
        availPublished := s.availPublished + 1
        driverPc := .idle }
  | .recvIndex =>
      let usedIdx := s.shared.used.index
      if s.driver.countAvailable usedIdx = 0 then
        some { s with
          empties := s.empties ++ [(s.usedPublished, s.reclaimed.length)], driverPc := .idle }
      else some { s with driverPc := .recvEvent usedIdx }
  | .recvEvent usedIdx =>
      some { s with
        shared := { s.shared with avail := { s.shared.avail with availEvent := usedIdx } }
        driverPc := .recvRing }
  | .recvRing =>
      let e := s.shared.used.ring s.driver.readSlot
      some { s with
        driver := s.driver.bumpIdx
        reclaimed := s.reclaimed ++ [(usedDesc s.driver.size e.id, e.length)]
        driverPc := .idle }

/-- The device's next step. -/
def stepDevice (s : RingSys) : Option RingSys :=
  match s.devicePc with
  | .idle => none
  | .sendId desc len =>
      let slot := s.device.drivenSlot
      some { s with
        shared := s.setUsedRing slot { s.shared.used.ring slot with id := desc.toUInt32 }
        devicePc := .sendLength len }
  | .sendLength len =>
      let slot := s.device.drivenSlot
      some { s with
        shared := s.setUsedRing slot { s.shared.used.ring slot with length := len }
        devicePc := .sendIndex }
  | .sendIndex =>
      some { s with
        shared := { s.shared with used := { s.shared.used with index := s.device.drivenIdx } }
        usedPublished := s.usedPublished + 1
        devicePc := .idle }
  | .recvIndex =>
      let availIdx := s.shared.avail.index
      if s.device.countAvailable availIdx = 0 then
        some { s with
          empties := s.empties ++ [(s.availPublished, s.received.length)], devicePc := .idle }
      else some { s with devicePc := .recvEvent availIdx }
  | .recvEvent availIdx =>
      some { s with
        shared := { s.shared with used := { s.shared.used with availEvent := availIdx } }
        devicePc := .recvRing }
  | .recvRing =>
      let head := s.shared.avail.ring s.device.readSlot
      if s.device.size ≤ head then
        some { s with
          device := s.device.bumpIdx, rejected := s.rejected + 1, devicePc := .idle }
      else
        some { s with
          device := s.device.bumpIdx, received := s.received ++ [head], devicePc := .idle }

/-- One step of the system; `none` when the action is not possible. -/
def step (s : RingSys) : Act → Option RingSys
  | .driverSend desc =>
      if s.driverPc = .idle ∧ desc < s.driver.size ∧ ¬ s.outstanding desc then
        some { s with
          driver := s.driver.bumpDrivenIdx
          sent := s.sent ++ [desc]
          driverPc := .sendRing desc }
      else none
  | .driverRecv => if s.driverPc = .idle then some { s with driverPc := .recvIndex } else none
  | .driver => s.stepDriver
  | .deviceSend desc len =>
      if s.devicePc = .idle ∧ s.held desc then
        some { s with
          device := s.device.bumpDrivenIdx
          returned := s.returned ++ [(desc, len)]
          devicePc := .sendId desc len }
      else none
  | .deviceRecv => if s.devicePc = .idle then some { s with devicePc := .recvIndex } else none
  | .device => s.stepDevice

/-- The runs of the system. -/
abbrev Runs (size : UInt16) (m : Shared) : List Act → RingSys → Prop :=
  Run (fun s a t => s.step a = some t) (initial size m)

end RingSys

end Vml
