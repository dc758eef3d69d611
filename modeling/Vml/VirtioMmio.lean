import Vml.Virtqueue

/-!
# The MMIO register interface of a virtio device

The state a virtio device shares with its transport (`virtio_common.hpp`) and the MMIO transport
itself (`virtio_mmio.hpp`): how a guest's reads and writes of the register window change that
state, and how queues are constructed and destructed.

What construction needs from outside, the translation of the ring addresses and the mapping of
guest memory, is answered by a `Platform`. The two arrays of `DeviceState` are functions of the
index; the source declares `queuesMax` entries and checks the selected index only where it is
written.
-/

namespace Vml

/-! ## Queues of a device -/

/-- `Virtio::QueueData`, less what only the PCI transport uses. -/
structure QueueData where
  descrLow : UInt32 := 0
  descrHigh : UInt32 := 0
  driverLow : UInt32 := 0
  driverHigh : UInt32 := 0
  deviceLow : UInt32 := 0
  deviceHigh : UInt32 := 0
  num : UInt32 := 0
  ready : UInt32 := 0
  deriving DecidableEq, Repr

/-- `combine_low_high`. -/
def combineLowHigh (low high : UInt32) : UInt64 := high.toUInt64 <<< 32 ||| low.toUInt64

namespace QueueData

/-- `descr`. -/
def descr (d : QueueData) : UInt64 := combineLowHigh d.descrLow d.descrHigh

/-- `driver`. -/
def driver (d : QueueData) : UInt64 := combineLowHigh d.driverLow d.driverHigh

/-- `device`. -/
def device (d : QueueData) : UInt64 := combineLowHigh d.deviceLow d.deviceHigh

end QueueData

/-- `Descriptor::region_size_bytes`. -/
def descriptorRegionSizeBytes (n : UInt16) : ℕ := n.toNat * 16

/-- `Available::region_size_bytes`. -/
def availableRegionSizeBytes (n : UInt16) : ℕ := 4 + n.toNat * 2 + 2

/-- `Used::region_size_bytes`. -/
def usedRegionSizeBytes (n : UInt16) : ℕ := 4 + n.toNat * 8 + 2

/-- `GPA::INVALID_GPA`. -/
abbrev invalidGpa : UInt64 := 0xFFFFFFFFFFFFFFFF

/-- What is around the device while it handles an access. -/
structure Platform where
  /-- `iommu_avail and attached`. -/
  ioMappings : Bool
  /-- `translate_io`. -/
  translateIo : UInt64 → ℕ → UInt64
  /-- `SimpleAS::map_guest_mem`, with `none` for `nullptr`. -/
  mapGuestMem : UInt64 → ℕ → Option ℕ

/-- Guest memory is mapped or unmapped, at a host address and for a number of bytes. -/
inductive MapEvent
  | map (addr sizeBytes : ℕ)
  | unmap (addr sizeBytes : ℕ)
  deriving DecidableEq, Repr

/-- `Virtio::QueueState`. `maps` is a history variable. -/
structure QueueState where
  queueSzNumDescs : UInt16 := 0
  deviceQueue : DeviceQueue := {}
  constructed : Bool := false
  descAddr : Option ℕ := none
  availAddr : Option ℕ := none
  usedAddr : Option ℕ := none
  maps : List MapEvent := []

namespace QueueState

/-- `convert`. -/
def convert (p : Platform) (useIoTranslation : Bool) (addr : UInt64) (sizeBytes : ℕ) : UInt64 :=
  if useIoTranslation then p.translateIo addr sizeBytes else addr

/-- Unmap a region that is mapped. -/
def unmap (addr : Option ℕ) (sizeBytes : ℕ) : List MapEvent :=
  match addr with
  | none => []
  | some a => [.unmap a sizeBytes]

/-- `destruct`. The queue that takes the place of the old one has size zero. -/
def destruct (q : QueueState) : QueueState where
  deviceQueue := { log := q.deviceQueue.log ++ [.destruct] }
  maps := q.maps ++ unmap q.descAddr (descriptorRegionSizeBytes q.queueSzNumDescs) ++
    unmap q.availAddr (availableRegionSizeBytes q.queueSzNumDescs) ++
    unmap q.usedAddr (usedRegionSizeBytes q.queueSzNumDescs)

/-- `construct`. A region that cannot be translated or mapped destructs the queue again, with the
regions mapped before it. -/
def construct (q : QueueState) (d : QueueData) (p : Platform) (useIoTranslation : Bool) :
    QueueState :=
  let n := d.num.toUInt16
  if !isSizeValid n then q
  else
    let q : QueueState := { q with queueSzNumDescs := n }
    let data := convert p useIoTranslation d.descr (descriptorRegionSizeBytes n)
    let driver := convert p useIoTranslation d.driver (availableRegionSizeBytes n)
    let device := convert p useIoTranslation d.device (usedRegionSizeBytes n)
    if data = invalidGpa ∨ driver = invalidGpa ∨ device = invalidGpa then q.destruct
    else
      match p.mapGuestMem data (descriptorRegionSizeBytes n) with
      | none => { q with descAddr := none }.destruct
      | some desc =>
          let q : QueueState := { q with
            descAddr := some desc
            maps := q.maps ++ [.map desc (descriptorRegionSizeBytes n)] }
          match p.mapGuestMem driver (availableRegionSizeBytes n) with
          | none => { q with availAddr := none }.destruct
          | some avail =>
              let q : QueueState := { q with
                availAddr := some avail
                maps := q.maps ++ [.map avail (availableRegionSizeBytes n)] }
              match p.mapGuestMem device (usedRegionSizeBytes n) with
              | none => { q with usedAddr := none }.destruct
              | some used =>
                  { q with
                    usedAddr := some used
                    maps := q.maps ++ [.map used (usedRegionSizeBytes n)]
                    deviceQueue :=
                      { size := n, log := q.deviceQueue.log ++ [.construct n] }
                    constructed := true }

end QueueState

/-! ## The state of a device -/

/-- `Virtio::Queues::MAX`. -/
abbrev queuesMax : ℕ := 3

/-- `Virtio::DeviceState`, less what only the PCI transport uses. -/
structure DeviceState where
  statusChanged : Bool := false
  constructQueue : Bool := false
  irqAcknowledged : Bool := false
  notify : Bool := false
  notifyVal : UInt32 := 0
  queueNumMax : UInt16
  vendorId : UInt32 := 0x20564842
  deviceId : UInt32
  deviceFeatureLower : UInt32 := 0
  deviceFeatureUpper : UInt32 := 1
  configSpace : ℕ → UInt8 := fun _ => 0
  configSize : UInt32
  selQueue : UInt32 := 0
  irqStatus : UInt32 := 0
  status : UInt32 := 0
  drvDeviceSel : UInt32 := 0
  drvFeatureSel : UInt32 := 0
  drvFeatureUpper : UInt32 := 0
  drvFeatureLower : UInt32 := 0
  configGeneration : UInt32 := 0
  data : ℕ → QueueData := fun _ => { num := queueNumMax.toUInt32 }
  queue : ℕ → QueueState := fun _ => {}

/-- `DeviceStatus::DRIVER_OK`. -/
abbrev driverOkBit : UInt32 := 4

namespace DeviceState

/-- `selected_queue_data`. -/
def selectedQueueData (s : DeviceState) : QueueData := s.data s.selQueue.toNat

/-- Change the data of the selected queue. -/
def modifySelected (s : DeviceState) (f : QueueData → QueueData) : DeviceState :=
  { s with data := Function.update s.data s.selQueue.toNat (f s.selectedQueueData) }

/-- `is_driver_ok_state`. -/
def isDriverOkState (s : DeviceState) : Bool := s.status == driverOkBit

/-- `platform_specific_access_enabled`. -/
def platformSpecificAccessEnabled (s : DeviceState) : Bool :=
  s.deviceFeatureUpper &&& s.drvFeatureUpper &&& 2 != 0

/-- `construct_selected`, with `use_io_mappings` for the translation. -/
def constructSelected (s : DeviceState) (p : Platform) : DeviceState :=
  let i := s.selQueue.toNat
  if (s.queue i).constructed then s
  else
    let use := p.ioMappings && s.platformSpecificAccessEnabled
    { s with queue := Function.update s.queue i ((s.queue i).construct s.selectedQueueData p use) }

/-- `reset`. -/
def reset (s : DeviceState) : DeviceState :=
  { s with
    queue := fun i => if i < queuesMax then (s.queue i).destruct else s.queue i
    data := fun i => if i < queuesMax then { num := s.queueNumMax.toUInt32 } else s.data i
    status := 0
    irqStatus := 0
    drvDeviceSel := 0
    drvFeatureSel := 0
    drvFeatureUpper := 0
    drvFeatureLower := 0 }

end DeviceState

/-! ## Registers -/

/-- A register: its first and its last byte in the window. -/
structure Reg where
  base : UInt64
  last : UInt64
  deriving DecidableEq, Repr

/-- The mask of the `bytes` low bytes. -/
def byteMask (bytes : UInt8) : UInt64 :=
  if 8 ≤ bytes then 0xFFFFFFFFFFFFFFFF else (1 <<< (bytes.toUInt64 * 8)) - 1

theorem byteMask_toNat {bytes : UInt8} (hlt : bytes.toNat < 8) :
    (byteMask bytes).toNat = 2 ^ (8 * bytes.toNat) - 1 := by
  have hshift : ((1 : UInt64) <<< (bytes.toUInt64 * 8)).toNat = 2 ^ (8 * bytes.toNat) := by
    have hcount : (bytes.toUInt64 * 8).toNat = 8 * bytes.toNat := by
      rw [UInt64.toNat_mul, UInt8.toNat_toUInt64, Nat.mul_comm]
      exact Nat.mod_eq_of_lt (show 8 * bytes.toNat < 2 ^ 64 by omega)
    have hpow : 2 ^ (8 * bytes.toNat) < 2 ^ 64 := Nat.pow_lt_pow_right (by decide) (by omega)
    rw [UInt64.toNat_shiftLeft, hcount, Nat.mod_eq_of_lt (show 8 * bytes.toNat < 64 by omega),
      UInt64.toNat_one, Nat.one_shiftLeft]
    exact Nat.mod_eq_of_lt hpow
  have hone : (1 : UInt64) ≤ 1 <<< (bytes.toUInt64 * 8) := by
    rw [UInt64.le_iff_toNat_le, hshift]
    exact Nat.two_pow_pos _
  rw [byteMask, if_neg (by rw [UInt8.le_iff_toNat_le]; exact Nat.not_le.2 hlt),
    UInt64.toNat_sub_of_le _ _ hone, hshift]
  rfl

namespace Reg

/-- The offset lies in the register. -/
def contains (r : Reg) (offset : UInt64) : Bool := decide (r.base ≤ offset ∧ offset ≤ r.last)

/-- `read_register`, with `none` for failure. -/
def read (r : Reg) (offset : UInt64) (bytes : UInt8) (value : UInt64) : Option UInt64 :=
  if bytes = 0 ∨ 8 < bytes ∨ r.last + 1 < offset + bytes.toUInt64 then none
  else some (value >>> ((offset - r.base) * 8) &&& byteMask bytes)

/-- `write_register` to a 32-bit field, with `none` for failure. -/
def write (r : Reg) (offset : UInt64) (bytes : UInt8) (value : UInt64) (result : UInt32) :
    Option UInt32 :=
  if bytes = 0 ∨ 4 < bytes ∨ r.last + 1 < offset + bytes.toUInt64 then none
  else
    let shift := (offset - r.base) * 8
    let mask : UInt64 := if 4 ≤ bytes then 0xFFFFFFFFFFFFFFFF else byteMask bytes
    let keep : UInt32 := if 4 ≤ bytes then 0 else (~~~(mask <<< shift)).toUInt32
    some (result &&& keep ||| ((value &&& mask) <<< shift).toUInt32)

end Reg

/-- The registers of `Virtio::MMIOTransport`. -/
abbrev roMagic : Reg := ⟨0x0, 0x3⟩
abbrev roVersion : Reg := ⟨0x4, 0x7⟩
abbrev roDeviceId : Reg := ⟨0x8, 0xb⟩
abbrev roVendorId : Reg := ⟨0xc, 0xf⟩
abbrev roDeviceFeature : Reg := ⟨0x10, 0x13⟩
abbrev rwDeviceFeatureSel : Reg := ⟨0x14, 0x17⟩
abbrev woDriverFeature : Reg := ⟨0x20, 0x23⟩
abbrev rwDriverFeatureSel : Reg := ⟨0x24, 0x27⟩
abbrev woQueueSel : Reg := ⟨0x30, 0x33⟩
abbrev roQueueNumMax : Reg := ⟨0x34, 0x37⟩
abbrev woQueueNum : Reg := ⟨0x38, 0x3b⟩
abbrev rwQueueReady : Reg := ⟨0x44, 0x47⟩
abbrev woQueueNotify : Reg := ⟨0x50, 0x50⟩
abbrev roIrqStatus : Reg := ⟨0x60, 0x63⟩
abbrev woIrqAck : Reg := ⟨0x64, 0x67⟩
abbrev rwStatus : Reg := ⟨0x70, 0x73⟩
abbrev woQueueDescrLow : Reg := ⟨0x80, 0x83⟩
abbrev woQueueDescrHigh : Reg := ⟨0x84, 0x87⟩
abbrev woQueueDriverLow : Reg := ⟨0x90, 0x93⟩
abbrev woQueueDriverHigh : Reg := ⟨0x94, 0x97⟩
abbrev woQueueDeviceLow : Reg := ⟨0xa0, 0xa3⟩
abbrev woQueueDeviceHigh : Reg := ⟨0xa4, 0xa7⟩
abbrev roConfigGeneration : Reg := ⟨0xfc, 0xff⟩
abbrev rwConfig : Reg := ⟨0x100, 0x163⟩

namespace DeviceState

/-! ### Configuration space -/

/-- `memcpy` of `n` bytes over the low bytes of a 64-bit value. -/
def loadBytes (m : ℕ → UInt8) (off n : ℕ) (value : UInt64) : UInt64 :=
  (List.range n).foldl (fun v i =>
    v &&& ~~~(0xFF <<< (8 * UInt64.ofNat i)) ||| (m (off + i)).toUInt64 <<< (8 * UInt64.ofNat i))
    value

/-- `config_space_read`. -/
def configSpaceRead (s : DeviceState) (offset : UInt64) (bytes : UInt8) (value : UInt64) :
    Bool × UInt64 :=
  let off := offset - rwConfig.base
  if s.configSize.toUInt64 < off + bytes.toUInt64 then (false, value)
  else (true, loadBytes s.configSpace off.toNat bytes.toNat value)

/-- `config_space_write`. -/
def configSpaceWrite (s : DeviceState) (offset : UInt64) (bytes : UInt8) (value : UInt64) :
    Bool × DeviceState :=
  let off := offset - rwConfig.base
  if s.configSize.toUInt64 < off + bytes.toUInt64 then (false, s)
  else
    (true, { s with configSpace := fun i =>
      if off.toNat ≤ i ∧ i < off.toNat + bytes.toNat then
        (value >>> (8 * UInt64.ofNat (i - off.toNat))).toUInt8
      else s.configSpace i })

/-! ### Accesses -/

/-- The value a readable register shows. -/
def registerValue (s : DeviceState) (offset : UInt64) : Option (Reg × UInt64) :=
  if roMagic.contains offset then some (roMagic, 0x74726976)
  else if roVersion.contains offset then some (roVersion, 2)
  else if roDeviceId.contains offset then some (roDeviceId, s.deviceId.toUInt64)
  else if roVendorId.contains offset then some (roVendorId, s.vendorId.toUInt64)
  else if roDeviceFeature.contains offset then
    some (roDeviceFeature, if s.drvDeviceSel = 0 then s.deviceFeatureLower.toUInt64
      else s.deviceFeatureUpper.toUInt64)
  else if rwDeviceFeatureSel.contains offset then some (rwDeviceFeatureSel, s.drvDeviceSel.toUInt64)
  else if rwDriverFeatureSel.contains offset then
    some (rwDriverFeatureSel, s.drvFeatureSel.toUInt64)
  else if roQueueNumMax.contains offset then some (roQueueNumMax, s.queueNumMax.toUInt64)
  else if rwQueueReady.contains offset then
    some (rwQueueReady, s.selectedQueueData.ready.toUInt64)
  else if roIrqStatus.contains offset then some (roIrqStatus, s.irqStatus.toUInt64)
  else if rwStatus.contains offset then some (rwStatus, s.status.toUInt64)
  else if roConfigGeneration.contains offset then
    some (roConfigGeneration, s.configGeneration.toUInt64)
  else none

/-- `MMIOTransport::read`: whether it succeeds, and the value. -/
def mmioRead (s : DeviceState) (offset : UInt64) (bytes : UInt8) (value : UInt64) :
    Bool × UInt64 :=
  if 4 < bytes then (false, value)
  else
    match s.registerValue offset with
    | some (r, v) =>
        match r.read offset bytes v with
        | some v => (true, v)
        | none => (false, value)
    | none =>
        if rwConfig.contains offset then
          if rwConfig.last < offset + bytes.toUInt64 then (false, value)
          else s.configSpaceRead offset bytes value
        else (false, value)

/-- A write that goes to one 32-bit field. -/
def writeField (s : DeviceState) (r : Reg) (offset : UInt64) (bytes : UInt8) (value : UInt64)
    (field : UInt32) (set : UInt32 → DeviceState) : Bool × DeviceState :=
  match r.write offset bytes value field with
  | some v => (true, set v)
  | none => (false, s)

/-- A write to a field of the selected queue's data, which is ignored in the driver-ok state. -/
def writeQueueField (s : DeviceState) (r : Reg) (offset : UInt64) (bytes : UInt8) (value : UInt64)
    (field : QueueData → UInt32) (set : QueueData → UInt32 → QueueData) : Bool × DeviceState :=
  if s.isDriverOkState then (true, s)
  else
    s.writeField r offset bytes value (field s.selectedQueueData) fun v =>
      s.modifySelected (set · v)

/-- `MMIOTransport::write`: whether it succeeds, and the state. -/
def mmioWrite (s : DeviceState) (offset : UInt64) (bytes : UInt8) (value : UInt64) :
    Bool × DeviceState :=
  if 4 < bytes then (false, s)
  else if rwDeviceFeatureSel.contains offset then
    s.writeField rwDeviceFeatureSel offset bytes value s.drvDeviceSel
      fun v => { s with drvDeviceSel := v }
  else if woDriverFeature.contains offset then
    if s.isDriverOkState then (true, s)
    else if s.drvFeatureSel = 0 then
      s.writeField woDriverFeature offset bytes value s.drvFeatureLower
        fun v => { s with drvFeatureLower := v }
    else
      s.writeField woDriverFeature offset bytes value s.drvFeatureUpper
        fun v => { s with drvFeatureUpper := v }
  else if rwDriverFeatureSel.contains offset then
    s.writeField rwDriverFeatureSel offset bytes value s.drvFeatureSel
      fun v => { s with drvFeatureSel := v }
  else if woQueueSel.contains offset then
    -- The value is checked, but a write of some of the bytes leaves the others as they are.
    if UInt64.ofNat queuesMax ≤ value then (true, s)
    else
      s.writeField woQueueSel offset bytes value s.selQueue fun v => { s with selQueue := v }
  else if woQueueNum.contains offset then
    if s.isDriverOkState then (true, s)
    else if s.queueNumMax.toUInt64 < value then (true, s)
    else
      s.writeField woQueueNum offset bytes value s.selectedQueueData.num
        fun v => s.modifySelected ({ · with num := v })
  else if rwQueueReady.contains offset then
    s.writeField rwQueueReady offset bytes value s.selectedQueueData.ready
      fun v => { s.modifySelected ({ · with ready := v }) with constructQueue := true }
  else if woIrqAck.contains offset then (true, { s with irqAcknowledged := true })
  else if rwStatus.contains offset then
    let s := { s with statusChanged := true }
    s.writeField rwStatus offset bytes value s.status fun v => { s with status := v }
  else if woQueueNotify.contains offset then
    (true, { s with notify := true, notifyVal := value.toUInt32 })
  else if woQueueDescrLow.contains offset then
    s.writeQueueField woQueueDescrLow offset bytes value (·.descrLow)
      fun d v => { d with descrLow := v }
  else if woQueueDescrHigh.contains offset then
    s.writeQueueField woQueueDescrHigh offset bytes value (·.descrHigh)
      fun d v => { d with descrHigh := v }
  else if woQueueDriverLow.contains offset then
    s.writeQueueField woQueueDriverLow offset bytes value (·.driverLow)
      fun d v => { d with driverLow := v }
  else if woQueueDriverHigh.contains offset then
    s.writeQueueField woQueueDriverHigh offset bytes value (·.driverHigh)
      fun d v => { d with driverHigh := v }
  else if woQueueDeviceLow.contains offset then
    s.writeQueueField woQueueDeviceLow offset bytes value (·.deviceLow)
      fun d v => { d with deviceLow := v }
  else if woQueueDeviceHigh.contains offset then
    s.writeQueueField woQueueDeviceHigh offset bytes value (·.deviceHigh)
      fun d v => { d with deviceHigh := v }
  else if rwConfig.contains offset then
    if rwConfig.last < offset + bytes.toUInt64 then (false, s)
    else s.configSpaceWrite offset bytes value
  else (false, s)

end DeviceState

/-- `Vbus::Access`. -/
inductive Access
  | read
  | write
  | other
  deriving DecidableEq, Repr

namespace DeviceState

/-- `MMIOTransport::access`: whether it succeeds, the value and the state. -/
def mmioAccess (s : DeviceState) (access : Access) (offset : UInt64) (size : UInt8)
    (value : UInt64) : Bool × UInt64 × DeviceState :=
  match access with
  | .write =>
      let r := s.mmioWrite offset size value
      (r.1, value, r.2)
  | .read =>
      let r := s.mmioRead offset size value
      (r.1, r.2, s)
  | .other => (false, value, s)

/-- The access, or the event it raises, goes to an array entry of the selected queue. -/
def usesSelected (s : DeviceState) (access : Access) (offset : UInt64) (size : UInt8)
    (value : UInt64) : Bool :=
  decide (size ≤ 4) &&
    match access with
    | .read => rwQueueReady.contains offset
    | .write =>
        rwQueueReady.contains offset || !s.isDriverOkState &&
          (woQueueNum.contains offset && decide (value ≤ s.queueNumMax.toUInt64) ||
            woQueueDescrLow.contains offset || woQueueDescrHigh.contains offset ||
            woQueueDriverLow.contains offset || woQueueDriverHigh.contains offset ||
            woQueueDeviceLow.contains offset || woQueueDeviceHigh.contains offset)
    | .other => false

/-- The access stays within the two arrays. Otherwise its effect is undefined. -/
def InBounds (s : DeviceState) (access : Access) (offset : UInt64) (size : UInt8)
    (value : UInt64) : Prop :=
  s.usesSelected access offset size value = true → s.selQueue.toNat < queuesMax

instance (s : DeviceState) (access : Access) (offset : UInt64) (size : UInt8) (value : UInt64) :
    Decidable (s.InBounds access offset size value) :=
  inferInstanceAs (Decidable (_ → _))

/-! ## What an access leaves alone -/

variable {s : DeviceState} {offset value : UInt64} {bytes : UInt8}

theorem queue_writeField {r : Reg} {field : UInt32} {set : UInt32 → DeviceState}
    (h : ∀ v, (set v).queue = s.queue) :
    (s.writeField r offset bytes value field set).2.queue = s.queue := by
  rw [writeField]
  cases r.write offset bytes value field with
  | none => rfl
  | some v => exact h v

theorem queue_ite {q : ℕ → QueueState} {c : Prop} [Decidable c] {x y : Bool × DeviceState}
    (hx : x.2.queue = q) (hy : y.2.queue = q) : (if c then x else y).2.queue = q := by
  split
  · exact hx
  · exact hy

theorem queue_mmioWrite : (s.mmioWrite offset bytes value).2.queue = s.queue := by
  unfold mmioWrite
  repeat' apply queue_ite
  all_goals first
    | rfl
    | exact queue_writeField fun _ => rfl

theorem queue_mmioAccess (access : Access) :
    (s.mmioAccess access offset bytes value).2.2.queue = s.queue := by
  cases access with
  | read => rfl
  | write => exact queue_mmioWrite
  | other => rfl

end DeviceState

end Vml
