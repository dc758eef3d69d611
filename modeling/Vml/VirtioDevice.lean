import Vml.Lib.Lanes
import Vml.VirtioConsole

/-!
# A virtio device and its guest

An access to the register window of a virtio device changes its `DeviceState` in two steps: the
transport stores to a register or raises an event, and `handle_events` handles the events. What the
device itself does on `notify` and `driver_ok` does not touch this state, so these two steps are the
same for every device. The console's state is changed by them and by nothing else.

* `Reg.write_cases`: what `write_register` does to a field, byte by byte.
* `WriteEffect`: what a write can do to the registers that matter later.
-/

namespace Vml

/-! ## Registers -/

namespace Reg

/-- A register of four bytes. -/
def IsField (r : Reg) : Prop := r.last = r.base + 3 ∧ r.base ≤ 0x1000

instance (r : Reg) : Decidable r.IsField := inferInstanceAs (Decidable (_ ∧ _))

/-- The first byte of the register that an access at `offset` covers. -/
def lane (r : Reg) (offset : UInt64) : ℕ := (offset - r.base).toNat

/-- The access lies within the register. -/
def Fits (r : Reg) (offset : UInt64) (bytes : UInt8) : Prop :=
  0 < bytes.toNat ∧ r.lane offset + bytes.toNat ≤ 4

instance (r : Reg) (offset : UInt64) (bytes : UInt8) : Decidable (r.Fits offset bytes) :=
  inferInstanceAs (Decidable (_ ∧ _))

variable {r : Reg} {offset value : UInt64} {bytes : UInt8} {result v : UInt32}

theorem lane_lt (h : r.IsField) (hc : r.contains offset = true) :
    r.lane offset < 4 ∧ offset.toNat = r.base.toNat + r.lane offset := by
  obtain ⟨hlast, hbase⟩ := h
  obtain ⟨hle, hle'⟩ := of_decide_eq_true hc
  rw [hlast] at hle'
  have hle := UInt64.le_iff_toNat_le.1 hle
  have hle' := UInt64.le_iff_toNat_le.1 hle'
  have hbase := UInt64.le_iff_toNat_le.1 hbase
  have hbase : r.base.toNat ≤ 0x1000 := hbase
  have hlane : r.lane offset = offset.toNat - r.base.toNat := by
    rw [lane, UInt64.toNat_sub_of_le _ _ (UInt64.le_iff_toNat_le.2 hle)]
  rw [UInt64.toNat_add, Nat.mod_eq_of_lt (by
    show r.base.toNat + 3 < 2 ^ 64
    omega)] at hle'
  have hle' : offset.toNat ≤ r.base.toNat + 3 := hle'
  omega

theorem contains_cases (h : r.IsField) (hc : r.contains offset = true) :
    offset = r.base ∨ offset = r.base + 1 ∨ offset = r.base + 2 ∨ offset = r.base + 3 := by
  obtain ⟨hlane, hoffset⟩ := lane_lt h hc
  have hbase : r.base.toNat ≤ 0x1000 := UInt64.le_iff_toNat_le.1 h.2
  have hadd : ∀ k : UInt64, k.toNat < 4 → r.lane offset = k.toNat → offset = r.base + k := by
    intro k hk hl
    rw [← UInt64.toNat_inj, UInt64.toNat_add, hoffset, hl]
    omega
  rcases (by omega : r.lane offset = 0 ∨ r.lane offset = 1 ∨ r.lane offset = 2 ∨
    r.lane offset = 3) with hl | hl | hl | hl
  · exact .inl ((hadd 0 (by decide) hl).trans (UInt64.add_zero _))
  · exact .inr (.inl (hadd 1 (by decide) hl))
  · exact .inr (.inr (.inl (hadd 2 (by decide) hl)))
  · exact .inr (.inr (.inr (hadd 3 (by decide) hl)))

/-- The bytes outside the access are kept, and the others are those of the value. -/
theorem toNat_write_of_lt {k : ℕ} {shift : UInt64} (hk : shift.toNat = 8 * k)
    (hle : k + bytes.toNat ≤ 4) (hlt : bytes.toNat < 4) :
    (result &&& (~~~(byteMask bytes <<< shift)).toUInt32 |||
      ((value &&& byteMask bytes) <<< shift).toUInt32).toNat =
      mergeLanes result.toNat value.toNat k bytes.toNat := by
  have hmask := byteMask_toNat (Nat.lt_trans hlt (by decide : 4 < 8))
  apply Nat.eq_of_testBit_eq
  intro j
  rw [testBit_mergeLanes, UInt32.toNat_or, UInt32.toNat_and, Nat.testBit_or, Nat.testBit_and,
    UInt64.toNat_toUInt32, UInt64.toNat_toUInt32, UInt64.toNat_not, UInt64.toNat_shiftLeft,
    UInt64.toNat_shiftLeft, UInt64.toNat_and, hk, hmask,
    show UInt64.size - 1 - ((2 ^ (8 * bytes.toNat) - 1) <<< (8 * k % 64) % 2 ^ 64) =
      2 ^ 64 - ((2 ^ (8 * bytes.toNat) - 1) <<< (8 * k % 64) % 2 ^ 64 + 1) by
        show 2 ^ 64 - 1 - _ = _
        omega]
  rw [Nat.mod_eq_of_lt (show 8 * k < 64 by omega), Nat.testBit_mod_two_pow,
    Nat.testBit_two_pow_sub_succ (Nat.mod_lt _ (by positivity)), Nat.testBit_mod_two_pow,
    Nat.testBit_mod_two_pow, Nat.testBit_mod_two_pow, Nat.testBit_shiftLeft, Nat.testBit_shiftLeft,
    Nat.testBit_and, Nat.testBit_two_pow_sub_one]
  by_cases hj : j < 32
  · rw [decide_eq_true hj, decide_eq_true (show j < 64 by omega)]
    by_cases hlow : 8 * k ≤ j
    · by_cases hhigh : j - 8 * k < 8 * bytes.toNat
      · rw [if_pos ⟨hlow, by omega⟩, decide_eq_true hlow, decide_eq_true hhigh]
        simp
      · rw [if_neg (by omega), decide_eq_true hlow, decide_eq_false hhigh]
        simp
    · rw [if_neg (by omega), decide_eq_false hlow]
      simp
  · have hbit : result.toNat.testBit j = false :=
      Nat.testBit_lt_two_pow (lt_of_lt_of_le result.toNat_lt
        (Nat.pow_le_pow_right (by decide) (by omega)))
    rw [if_neg (by omega), hbit, decide_eq_false hj]
    simp

/-- **What `write_register` does to a field.** It fails unless the access fits. -/
theorem write_cases (h : r.IsField) (hc : r.contains offset = true) :
    (¬r.Fits offset bytes ∧ r.write offset bytes value result = none) ∨
    (r.Fits offset bytes ∧ ∃ v, r.write offset bytes value result = some v ∧
      v.toNat = mergeLanes result.toNat value.toNat (r.lane offset) bytes.toNat) := by
  obtain ⟨hlane, hoffset⟩ := lane_lt h hc
  have hbase : r.base.toNat ≤ 0x1000 := UInt64.le_iff_toNat_le.1 h.2
  have hbytes := bytes.toNat_lt
  have hend : (offset + bytes.toUInt64).toNat = offset.toNat + bytes.toNat := by
    rw [UInt64.toNat_add, UInt8.toNat_toUInt64]
    omega
  have hlast : (r.last + 1).toNat = r.base.toNat + 4 := by
    rw [h.1, UInt64.toNat_add, UInt64.toNat_add]
    show (((r.base.toNat + 3) % 2 ^ 64) + 1) % 2 ^ 64 = r.base.toNat + 4
    omega
  have hfail : (bytes = 0 ∨ 4 < bytes ∨ r.last + 1 < offset + bytes.toUInt64) ↔
      ¬r.Fits offset bytes := by
    rw [UInt64.lt_iff_toNat_lt, hend, hlast, UInt8.lt_iff_toNat_lt, ← UInt8.toNat_inj, Fits]
    show bytes.toNat = 0 ∨ 4 < bytes.toNat ∨ _ ↔ _
    omega
  rw [write]
  by_cases hfits : r.Fits offset bytes
  · refine .inr ⟨hfits, _, if_neg fun hc => hfail.1 hc hfits, ?_⟩
    have hshift : ((offset - r.base) * 8).toNat = 8 * r.lane offset := by
      rw [UInt64.toNat_mul, ← lane]
      show r.lane offset * 8 % 2 ^ 64 = _
      omega
    by_cases hlt : bytes.toNat < 4
    · rw [if_neg (show ¬4 ≤ bytes from fun hle => absurd (UInt8.le_iff_toNat_le.1 hle)
        (Nat.not_le.2 hlt)), if_neg (show ¬4 ≤ bytes from fun hle => absurd
          (UInt8.le_iff_toNat_le.1 hle) (Nat.not_le.2 hlt))]
      exact toNat_write_of_lt hshift hfits.2 hlt
    · have hfour : bytes.toNat = 4 := by
        have := hfits.2
        omega
      have hzero : r.lane offset = 0 := by
        have := hfits.2
        omega
      have hle : 4 ≤ bytes := UInt8.le_iff_toNat_le.2 hfour.ge
      have hshift : (offset - r.base) * 8 = 0 := by
        rw [← UInt64.toNat_inj, hshift, hzero]
        rfl
      rw [if_pos hle, if_pos hle, hshift, hzero, hfour, mergeLanes_zero result.toNat_lt]
      have hmask : value &&& 0xFFFFFFFFFFFFFFFF = value := UInt64.and_neg_one
      rw [hmask, UInt64.shiftLeft_zero, UInt32.and_zero, UInt32.zero_or, UInt64.toNat_toUInt32]
  · exact .inl ⟨hfits, if_pos (hfail.2 hfits)⟩

theorem fits_of_write (h : r.IsField) (hc : r.contains offset = true)
    (hw : r.write offset bytes value result = some v) : r.Fits offset bytes := by
  rcases write_cases h hc with ⟨-, hnone⟩ | ⟨hfits, -⟩
  · exact absurd (hnone.symm.trans hw) nofun
  · exact hfits

theorem Fits.not_lt (h : r.Fits offset bytes) : ¬4 < bytes := by
  have := h.2
  rw [UInt8.lt_iff_toNat_lt]
  show ¬4 < bytes.toNat
  omega

/-- The register holds the bytes that an access brings. -/
def Holds (r : Reg) (offset : UInt64) (bytes : UInt8) (value : UInt64) (result : UInt32) : Prop :=
  value.toNat % 2 ^ (8 * bytes.toNat) =
    result.toNat / 2 ^ (8 * r.lane offset) % 2 ^ (8 * bytes.toNat)

/-- A store changes nothing exactly if the register holds the bytes that it brings. -/
theorem write_eq_self_iff (h : r.IsField) (hc : r.contains offset = true)
    (hw : r.write offset bytes value result = some v) :
    v = result ↔ r.Holds offset bytes value result := by
  rcases write_cases h hc with ⟨-, hnone⟩ | ⟨-, v', hv', hmerge⟩
  · exact absurd (hnone.symm.trans hw) nofun
  · obtain rfl : v' = v := Option.some.inj (hv'.symm.trans hw)
    rw [← UInt32.toNat_inj, hmerge, Holds]
    exact mergeLanes_eq_self

end Reg

/-! ## The device -/

/-- The guest accesses the register window, or the platform resets the device. -/
inductive DeviceOp
  | access (a : Access) (offset : UInt64) (size : UInt8) (value : UInt64) (p : Platform)
  | reset

namespace DeviceState

/-- A device that has been built and not been used. -/
def new (queueNumMax : UInt16) (deviceId configSize : UInt32) (featureLower featureUpper : UInt32)
    (configSpace : ℕ → UInt8) : DeviceState :=
  { queueNumMax, deviceId, configSize, configSpace, deviceFeatureLower := featureLower,
    deviceFeatureUpper := featureUpper ||| 1 }

/-- The first event of `handle_events`. -/
def handleConstruct (s : DeviceState) (p : Platform) : DeviceState :=
  if s.constructQueue then { s with constructQueue := false }.constructSelected p else s

/-- The second event. -/
def handleStatus (s : DeviceState) : DeviceState :=
  if s.statusChanged then
    let s := { s with statusChanged := false }
    if s.status = 0 then s.reset else s
  else s

/-- The third event. -/
def handleIrqAck (s : DeviceState) : DeviceState :=
  if s.irqAcknowledged then
    { s with irqAcknowledged := false, irqStatus := s.irqStatus &&& ~~~1 }
  else s

/-- What `handle_events` does to the state of a device. -/
def handleEvents (s : DeviceState) (p : Platform) : DeviceState :=
  let s := ((s.handleConstruct p).handleStatus).handleIrqAck
  if s.notify then { s with notify := false } else s

/-- `access`: whether it succeeds, the value and the state. -/
def access (s : DeviceState) (a : Access) (offset : UInt64) (size : UInt8) (value : UInt64)
    (p : Platform) : Bool × UInt64 × DeviceState :=
  let r := s.mmioAccess a offset size value
  (r.1, r.2.1, if r.1 then r.2.2.handleEvents p else r.2.2)

/-- The state after an operation. -/
def exec (s : DeviceState) : DeviceOp → DeviceState
  | .access a offset size value p => (s.access a offset size value p).2.2
  | .reset => s.reset

end DeviceState

namespace VirtioConsole

variable (c : VirtioConsole)

theorem devState_handleEvents (p : Platform) (m : Shared) :
    (c.handleEvents p m).devState = c.devState.handleEvents p := by
  have hconstruct : (c.handleConstruct p).devState = c.devState.handleConstruct p := by
    rw [handleConstruct, DeviceState.handleConstruct]
    split_ifs <;> rfl
  have hstatus : ∀ c : VirtioConsole, c.handleStatus.devState = c.devState.handleStatus := by
    intro c
    rw [handleStatus, DeviceState.handleStatus]
    dsimp only
    split_ifs <;> rfl
  have hack : ∀ c : VirtioConsole, c.handleIrqAck.devState = c.devState.handleIrqAck := by
    intro c
    rw [handleIrqAck, DeviceState.handleIrqAck]
    split_ifs <;> rfl
  have hnotify : ∀ c : VirtioConsole, (c.notify m).devState = c.devState := by
    intro c
    rw [notify]
    dsimp only
    split_ifs <;> rfl
  rw [handleEvents, DeviceState.handleEvents, ← hconstruct, ← hstatus, ← hack, handleNotify]
  dsimp only
  split_ifs
  · rw [hnotify]
  · rfl

/-- **An access to the console** is an access to a device. -/
theorem devState_access (a : Access) (offset : UInt64) (size : UInt8) (value : UInt64)
    (p : Platform) (m : Shared) : (c.access a offset size value p m).2.2.devState =
      (c.devState.access a offset size value p).2.2 := by
  rw [access, DeviceState.access]
  dsimp only
  split_ifs
  · exact devState_handleEvents ..
  · rfl

end VirtioConsole

/-! ## What a write does -/

/-- The fields of a queue's data that the guest may not write in the driver-ok state. -/
inductive QueueField
  | num
  | descrLow
  | descrHigh
  | driverLow
  | driverHigh
  | deviceLow
  | deviceHigh
  deriving DecidableEq, Repr

namespace QueueField

/-- The register of the field. -/
def reg : QueueField → Reg
  | num => woQueueNum
  | descrLow => woQueueDescrLow
  | descrHigh => woQueueDescrHigh
  | driverLow => woQueueDriverLow
  | driverHigh => woQueueDriverHigh
  | deviceLow => woQueueDeviceLow
  | deviceHigh => woQueueDeviceHigh

/-- The field. -/
def get (d : QueueData) : QueueField → UInt32
  | num => d.num
  | descrLow => d.descrLow
  | descrHigh => d.descrHigh
  | driverLow => d.driverLow
  | driverHigh => d.driverHigh
  | deviceLow => d.deviceLow
  | deviceHigh => d.deviceHigh

/-- Store to the field. -/
def set (d : QueueData) (v : UInt32) : QueueField → QueueData
  | num => { d with num := v }
  | descrLow => { d with descrLow := v }
  | descrHigh => { d with descrHigh := v }
  | driverLow => { d with driverLow := v }
  | driverHigh => { d with driverHigh := v }
  | deviceLow => { d with deviceLow := v }
  | deviceHigh => { d with deviceHigh := v }

variable {f g : QueueField} {d : QueueData} {v : UInt32}

theorem isField_reg : f.reg.IsField := by
  cases f <;> decide

theorem get_set : g.get (f.set d v) = if g = f then v else g.get d := by
  cases f <;> cases g <;> rfl

end QueueField

namespace DeviceState

variable {s s' : DeviceState} {offset value : UInt64} {bytes : UInt8}

/-- The registers that set a device up are as they were, and the queues. -/
structure SameSetup (s s' : DeviceState) : Prop where
  queueNumMax : s'.queueNumMax = s.queueNumMax
  selQueue : s'.selQueue = s.selQueue
  data : s'.data = s.data
  queue : s'.queue = s.queue
  status : s'.status = s.status
  drvFeatureLower : s'.drvFeatureLower = s.drvFeatureLower
  drvFeatureUpper : s'.drvFeatureUpper = s.drvFeatureUpper

theorem SameSetup.refl (s : DeviceState) : SameSetup s s := ⟨rfl, rfl, rfl, rfl, rfl, rfl, rfl⟩

theorem SameSetup.trans {s s' s'' : DeviceState} (h : SameSetup s s') (h' : SameSetup s' s'') :
    SameSetup s s'' where
  queueNumMax := h'.queueNumMax.trans h.queueNumMax
  selQueue := h'.selQueue.trans h.selQueue
  data := h'.data.trans h.data
  queue := h'.queue.trans h.queue
  status := h'.status.trans h.status
  drvFeatureLower := h'.drvFeatureLower.trans h.drvFeatureLower
  drvFeatureUpper := h'.drvFeatureUpper.trans h.drvFeatureUpper

/-! ### The events -/

/-- `handle_events` will reset the device. -/
def ResetPending (s : DeviceState) : Prop := s.statusChanged = true ∧ s.status = 0

instance (s : DeviceState) : Decidable s.ResetPending := inferInstanceAs (Decidable (_ ∧ _))

theorem handleConstruct_frame (s : DeviceState) (p : Platform) :
    ∃ queue constructQueue, s.handleConstruct p = { s with queue, constructQueue } := by
  rw [handleConstruct]
  split_ifs
  · rw [constructSelected]
    split_ifs
    · exact ⟨_, _, rfl⟩
    · exact ⟨_, _, rfl⟩
  · exact ⟨_, _, rfl⟩

/-- `handle_events` constructs the selected queue if it is told to, and then resets the device if
it is told to. -/
theorem sameSetup_handleEvents (s : DeviceState) (p : Platform) :
    SameSetup (if s.ResetPending then (s.handleConstruct p).reset else s.handleConstruct p)
      (s.handleEvents p) := by
  have hrest : SameSetup (s.handleConstruct p).handleStatus (s.handleEvents p) := by
    rw [handleEvents, handleIrqAck]
    split_ifs <;> exact ⟨rfl, rfl, rfl, rfl, rfl, rfl, rfl⟩
  refine SameSetup.trans ?_ hrest
  obtain ⟨queue, constructQueue, hconstruct⟩ := s.handleConstruct_frame p
  rw [hconstruct, handleStatus]
  by_cases hchanged : s.statusChanged = true
  · by_cases hzero : s.status = 0
    · rw [if_pos ⟨hchanged, hzero⟩, if_pos hchanged, if_pos hzero]
      exact ⟨rfl, rfl, rfl, rfl, rfl, rfl, rfl⟩
    · rw [if_neg fun h => hzero h.2, if_pos hchanged, if_neg hzero]
      exact ⟨rfl, rfl, rfl, rfl, rfl, rfl, rfl⟩
  · rw [if_neg fun h => hchanged h.1, if_neg hchanged]
    exact .refl _

theorem selQueue_handleEvents (s : DeviceState) (p : Platform) :
    (s.handleEvents p).selQueue = s.selQueue := by
  obtain ⟨queue, constructQueue, hconstruct⟩ := s.handleConstruct_frame p
  rw [(sameSetup_handleEvents s p).selQueue, hconstruct]
  split_ifs <;> rfl

theorem status_handleEvents (s : DeviceState) (p : Platform) :
    (s.handleEvents p).status = s.status := by
  obtain ⟨queue, constructQueue, hconstruct⟩ := s.handleConstruct_frame p
  rw [(sameSetup_handleEvents s p).status, hconstruct]
  split_ifs with hreset
  · exact hreset.2.symm
  · rfl

/-! ### The writes -/

/-- **What a write can do** to the registers that set a device up. -/
inductive WriteEffect (s : DeviceState) (offset : UInt64) (bytes : UInt8) (value : UInt64) :
    Bool × DeviceState → Prop
  | other {ok : Bool} {s' : DeviceState} (h : SameSetup s s')
      (hc : s'.constructQueue = s.constructQueue) : WriteEffect s offset bytes value (ok, s')
  | queueSel {v : UInt32} (hc : woQueueSel.contains offset = true)
      (hlt : value < UInt64.ofNat queuesMax)
      (hw : woQueueSel.write offset bytes value s.selQueue = some v) :
      WriteEffect s offset bytes value (true, { s with selQueue := v })
  | queueField (f : QueueField) {v : UInt32} (hc : f.reg.contains offset = true)
      (hok : s.isDriverOkState = false) (hmax : f = .num → value ≤ s.queueNumMax.toUInt64)
      (hw : f.reg.write offset bytes value (f.get s.selectedQueueData) = some v) :
      WriteEffect s offset bytes value (true, s.modifySelected (f.set · v))
  | queueReady {v : UInt32} (hc : rwQueueReady.contains offset = true)
      (hw : rwQueueReady.write offset bytes value s.selectedQueueData.ready = some v) :
      WriteEffect s offset bytes value
        (true, { s.modifySelected ({ · with ready := v }) with constructQueue := true })
  | status {v : UInt32} (hc : rwStatus.contains offset = true)
      (hw : rwStatus.write offset bytes value s.status = some v) :
      WriteEffect s offset bytes value (true, { s with statusChanged := true, status := v })
  | featureLower {v : UInt32} (hc : woDriverFeature.contains offset = true)
      (hok : s.isDriverOkState = false) (hsel : s.drvFeatureSel = 0)
      (hw : woDriverFeature.write offset bytes value s.drvFeatureLower = some v) :
      WriteEffect s offset bytes value (true, { s with drvFeatureLower := v })
  | featureUpper {v : UInt32} (hc : woDriverFeature.contains offset = true)
      (hok : s.isDriverOkState = false) (hsel : s.drvFeatureSel ≠ 0)
      (hw : woDriverFeature.write offset bytes value s.drvFeatureUpper = some v) :
      WriteEffect s offset bytes value (true, { s with drvFeatureUpper := v })

theorem WriteEffect.writeField {r : Reg} {field : UInt32} {set : UInt32 → DeviceState}
    (h : ∀ v, r.write offset bytes value field = some v →
      WriteEffect s offset bytes value (true, set v)) :
    WriteEffect s offset bytes value (s.writeField r offset bytes value field set) := by
  rw [DeviceState.writeField]
  cases hw : r.write offset bytes value field with
  | none => exact .other (.refl s) rfl
  | some v => exact h v hw

theorem WriteEffect.writeQueueField (f : QueueField) (hc : f.reg.contains offset = true)
    (hnum : f ≠ .num) : WriteEffect s offset bytes value
      (s.writeQueueField f.reg offset bytes value (f.get ·) (f.set · ·)) := by
  rw [DeviceState.writeQueueField]
  by_cases hok : s.isDriverOkState = true
  · rw [if_pos hok]
    exact .other (.refl s) rfl
  · rw [if_neg hok]
    exact .writeField fun v hw => .queueField f hc (by simpa using hok) (fun h => absurd h hnum) hw

theorem WriteEffect.configSpaceWrite :
    WriteEffect s offset bytes value (s.configSpaceWrite offset bytes value) := by
  rw [DeviceState.configSpaceWrite]
  dsimp only
  split_ifs
  · exact .other (.refl s) rfl
  · exact .other ⟨rfl, rfl, rfl, rfl, rfl, rfl, rfl⟩ rfl

theorem WriteEffect.ite {c : Prop} [Decidable c] {x y : Bool × DeviceState}
    (hx : c → WriteEffect s offset bytes value x) (hy : ¬c → WriteEffect s offset bytes value y) :
    WriteEffect s offset bytes value (if c then x else y) := by
  by_cases hc : c
  · rw [if_pos hc]
    exact hx hc
  · rw [if_neg hc]
    exact hy hc

theorem writeEffect_mmioWrite (s : DeviceState) (offset : UInt64) (bytes : UInt8)
    (value : UInt64) : WriteEffect s offset bytes value (s.mmioWrite offset bytes value) := by
  have hnone : ∀ {ok : Bool}, WriteEffect s offset bytes value (ok, s) := .other (.refl s) rfl
  have hfalse : ¬s.isDriverOkState = true → s.isDriverOkState = false := by simp
  unfold mmioWrite
  refine .ite (fun _ => hnone) fun _ => .ite (fun _ => .writeField fun v _ => ?_) fun _ => ?_
  · exact .other ⟨rfl, rfl, rfl, rfl, rfl, rfl, rfl⟩ rfl
  refine .ite (fun hc => .ite (fun _ => hnone) fun hok => ?_) fun _ => ?_
  · exact .ite (fun hsel => .writeField fun v hw => .featureLower hc (hfalse hok) hsel hw)
      fun hsel => .writeField fun v hw => .featureUpper hc (hfalse hok) hsel hw
  refine .ite (fun _ => .writeField fun v _ => ?_) fun _ => ?_
  · exact .other ⟨rfl, rfl, rfl, rfl, rfl, rfl, rfl⟩ rfl
  refine .ite (fun hc => .ite (fun _ => hnone) fun hle => ?_) fun _ => ?_
  · exact .writeField fun v hw => .queueSel hc (UInt64.not_le.1 hle) hw
  refine .ite (fun hc => .ite (fun _ => hnone) fun hok => .ite (fun _ => hnone) fun hlt => ?_)
    fun _ => ?_
  · exact .writeField fun v hw => .queueField .num hc (hfalse hok) (fun _ => UInt64.not_lt.1 hlt) hw
  refine .ite (fun hc => .writeField fun v hw => .queueReady hc hw) fun _ => ?_
  refine .ite (fun _ => .other ⟨rfl, rfl, rfl, rfl, rfl, rfl, rfl⟩ rfl) fun _ => ?_
  refine .ite (fun hc => ?_) fun _ => ?_
  · dsimp only
    rw [DeviceState.writeField]
    cases hw : rwStatus.write offset bytes value s.status with
    | none => exact .other ⟨rfl, rfl, rfl, rfl, rfl, rfl, rfl⟩ rfl
    | some v => exact .status hc hw
  refine .ite (fun _ => .other ⟨rfl, rfl, rfl, rfl, rfl, rfl, rfl⟩ rfl) fun _ => ?_
  refine .ite (fun hc => .writeQueueField .descrLow hc (by simp)) fun _ => ?_
  refine .ite (fun hc => .writeQueueField .descrHigh hc (by simp)) fun _ => ?_
  refine .ite (fun hc => .writeQueueField .driverLow hc (by simp)) fun _ => ?_
  refine .ite (fun hc => .writeQueueField .driverHigh hc (by simp)) fun _ => ?_
  refine .ite (fun hc => .writeQueueField .deviceLow hc (by simp)) fun _ => ?_
  refine .ite (fun hc => .writeQueueField .deviceHigh hc (by simp)) fun _ => ?_
  exact .ite (fun _ => .ite (fun _ => hnone) fun _ => .configSpaceWrite)
    fun _ => hnone

/-! ### Writes to one register -/

theorem mmioWrite_queueSel (hc : woQueueSel.contains offset = true) (hle : ¬4 < bytes) :
    s.mmioWrite offset bytes value = if UInt64.ofNat queuesMax ≤ value then (true, s) else
      s.writeField woQueueSel offset bytes value s.selQueue fun v => { s with selQueue := v } := by
  rw [mmioWrite, if_neg hle]
  rcases Reg.contains_cases (by decide) hc with rfl | rfl | rfl | rfl <;> rfl

theorem mmioWrite_queueField (f : QueueField) (hc : f.reg.contains offset = true)
    (hle : ¬4 < bytes) : s.mmioWrite offset bytes value =
      if s.isDriverOkState then (true, s)
      else if f = .num ∧ s.queueNumMax.toUInt64 < value then (true, s)
      else s.writeField f.reg offset bytes value (f.get s.selectedQueueData) fun v =>
        s.modifySelected (f.set · v) := by
  rw [mmioWrite, if_neg hle]
  cases f with
  | num =>
      simp only [true_and]
      rcases Reg.contains_cases QueueField.isField_reg hc with rfl | rfl | rfl | rfl <;> rfl
  | _ =>
      rw [if_neg (fun h : _ ∧ _ => absurd h.1 nofun)]
      rcases Reg.contains_cases QueueField.isField_reg hc with rfl | rfl | rfl | rfl <;> rfl

theorem mmioWrite_driverFeature (hc : woDriverFeature.contains offset = true)
    (hle : ¬4 < bytes) : s.mmioWrite offset bytes value =
      if s.isDriverOkState then (true, s)
      else if s.drvFeatureSel = 0 then
        s.writeField woDriverFeature offset bytes value s.drvFeatureLower
          fun v => { s with drvFeatureLower := v }
      else
        s.writeField woDriverFeature offset bytes value s.drvFeatureUpper
          fun v => { s with drvFeatureUpper := v } := by
  rw [mmioWrite, if_neg hle]
  rcases Reg.contains_cases (by decide) hc with rfl | rfl | rfl | rfl <;> rfl

end DeviceState

end Vml
