import Vml.Lib.Run
import Vml.VirtioDevice

/-!
# The selected queue and the sizes of the queues

`write` checks the value that the guest writes to QueueSel and QueueNum, and `write_register` stores
the bytes that the access covers. A value that is in range can so be stored in the high bytes of the
register, or next to bytes that stay: a byte of value 1 at the second byte of QueueSel selects queue
256.

* `DeviceState.Bounded`: the selected queue is in the array, and no size is above the maximum.
* `DeviceState.StepOk`: what the guest writes to the two registers, and where.
* `bounded_exec`, `not_bounded_exec`: an access keeps the registers in range exactly if it is.
* `registers_bounded_iff`: all states of a run are in range exactly if all its accesses are.
-/

namespace Vml

namespace DeviceState

/-- The selected queue is one of the device's, and the sizes are at most the maximum. -/
structure Bounded (s : DeviceState) : Prop where
  selQueue_lt : s.selQueue.toNat < queuesMax
  num_le : ∀ i < queuesMax, (s.data i).num.toNat ≤ s.queueNumMax.toNat

/-- A write that QueueSel accepts starts at the lowest byte, or brings zero. One that QueueNum
accepts leaves and brings bytes of a number up to the maximum, unless the device is about to be
reset. -/
def StepOk (s : DeviceState) : DeviceOp → Prop
  | .access .write offset size value _ =>
      (woQueueSel.contains offset = true → woQueueSel.Fits offset size →
        value < UInt64.ofNat queuesMax → offset = woQueueSel.base ∨ value = 0) ∧
      (woQueueNum.contains offset = true → woQueueNum.Fits offset size →
        s.isDriverOkState = false → value ≤ s.queueNumMax.toUInt64 → s.ResetPending ∨
          LanesLe s.selectedQueueData.num.toNat value.toNat (woQueueNum.lane offset) size.toNat
            s.queueNumMax.toNat)
  | _ => True

variable {s s' : DeviceState} {offset value : UInt64} {bytes : UInt8} {op : DeviceOp}

theorem toNat_value_lt (h : value < UInt64.ofNat queuesMax) : value.toNat < 3 :=
  UInt64.lt_iff_toNat_lt.1 h

/-! ## What the events do -/

theorem Bounded.congr (h : s.Bounded) (hsame : SameSetup s s') : s'.Bounded where
  selQueue_lt := hsame.selQueue ▸ h.selQueue_lt
  num_le := by
    rw [hsame.data, hsame.queueNumMax]
    exact h.num_le

theorem bounded_reset (h : s.selQueue.toNat < queuesMax) : s.reset.Bounded where
  selQueue_lt := h
  num_le i hi := by
    rw [reset]
    dsimp only
    rw [if_pos hi]
    exact (UInt16.toNat_toUInt32 _).le

/-- Handling the events keeps the registers in range, and a reset brings the sizes back. -/
theorem bounded_handleEvents (s : DeviceState) (p : Platform) :
    (s.handleEvents p).Bounded ↔ s.selQueue.toNat < queuesMax ∧
      (s.ResetPending ∨ ∀ i < queuesMax, (s.data i).num.toNat ≤ s.queueNumMax.toNat) := by
  have hsame := sameSetup_handleEvents s p
  have hsel := selQueue_handleEvents s p
  obtain ⟨queue, constructQueue, hconstruct⟩ := s.handleConstruct_frame p
  rw [hconstruct] at hsame
  by_cases hreset : s.ResetPending
  · rw [if_pos hreset] at hsame
    refine ⟨fun h => ⟨hsel ▸ h.selQueue_lt, .inl hreset⟩, fun h => Bounded.congr ?_ hsame⟩
    exact bounded_reset h.1
  · rw [if_neg hreset] at hsame
    refine ⟨fun h => ⟨hsel ▸ h.selQueue_lt, .inr ?_⟩, fun h => Bounded.congr ?_ hsame⟩
    · have hnum := h.num_le
      rwa [hsame.data, hsame.queueNumMax] at hnum
    · exact ⟨h.1, h.2.resolve_left hreset⟩

/-! ## What a write does -/

theorem selQueue_lt_iff (h : s.selQueue.toNat < queuesMax) {v : UInt32}
    (hc : woQueueSel.contains offset = true) (hlt : value < UInt64.ofNat queuesMax)
    (hw : woQueueSel.write offset bytes value s.selQueue = some v) :
    v.toNat < queuesMax ↔ offset = woQueueSel.base ∨ value = 0 := by
  have hvalue := toNat_value_lt hlt
  have hsel : s.selQueue.toNat < 3 := h
  obtain ⟨hlane, hoffset⟩ := Reg.lane_lt (by decide) hc
  rcases Reg.write_cases (by decide) hc with ⟨-, hnone⟩ | ⟨hfits, v', hv', hmerge⟩
  · exact absurd (hnone.symm.trans hw) nofun
  obtain rfl : v' = v := Option.some.inj (hv'.symm.trans hw)
  obtain ⟨hpos, hle⟩ := hfits
  rw [hmerge, ← UInt64.toNat_inj, ← UInt64.toNat_inj, hoffset]
  show mergeLanes _ _ _ _ < 3 ↔ woQueueSel.base.toNat + _ = woQueueSel.base.toNat ∨ value.toNat = 0
  generalize woQueueSel.lane offset = k at hlane hle
  generalize bytes.toNat = n at hpos hle
  have hn : n < 5 := by omega
  interval_cases k <;> interval_cases n <;> simp [mergeLanes] at * <;> omega

theorem num_le_iff (h : s.Bounded) {v : UInt32} (hc : woQueueNum.contains offset = true)
    (hle : value ≤ s.queueNumMax.toUInt64)
    (hw : woQueueNum.write offset bytes value s.selectedQueueData.num = some v) :
    v.toNat ≤ s.queueNumMax.toNat ↔ LanesLe s.selectedQueueData.num.toNat value.toNat
      (woQueueNum.lane offset) bytes.toNat s.queueNumMax.toNat := by
  rcases Reg.write_cases (by decide) hc with ⟨-, hnone⟩ | ⟨hfits, v', hv', hmerge⟩
  · exact absurd (hnone.symm.trans hw) nofun
  obtain rfl : v' = v := Option.some.inj (hv'.symm.trans hw)
  have hvalue : value.toNat ≤ s.queueNumMax.toNat := by
    have hle := UInt64.le_iff_toNat_le.1 hle
    rwa [UInt16.toNat_toUInt64] at hle
  have hold : s.selectedQueueData.num.toNat ≤ s.queueNumMax.toNat := h.num_le _ h.selQueue_lt
  rw [hmerge, mergeLanes_le s.queueNumMax.toNat_lt hold hvalue hfits.1 hfits.2]

theorem num_le_modifySelected (h : s.Bounded) {f : QueueData → QueueData} {n : UInt32}
    (hf : (f s.selectedQueueData).num = n) :
    (∀ i < queuesMax, ((s.modifySelected f).data i).num.toNat ≤ s.queueNumMax.toNat) ↔
      n.toNat ≤ s.queueNumMax.toNat := by
  constructor
  · intro hall
    have hself := hall _ h.selQueue_lt
    rw [modifySelected] at hself
    dsimp only at hself
    rwa [Function.update_self, hf] at hself
  · intro hle i hi
    rw [modifySelected]
    dsimp only
    by_cases heq : i = s.selQueue.toNat
    · rwa [heq, Function.update_self, hf]
    · rw [Function.update_of_ne heq]
      exact h.num_le i hi

/-- A write that neither of the two registers accepts. -/
theorem bounded_write_other (h : s.Bounded)
    (hsel : ¬(woQueueSel.contains offset = true ∧ woQueueSel.Fits offset bytes ∧
      value < UInt64.ofNat queuesMax))
    (hnum : ¬(woQueueNum.contains offset = true ∧ woQueueNum.Fits offset bytes ∧
      s.isDriverOkState = false ∧ value ≤ s.queueNumMax.toUInt64)) :
    (s.mmioWrite offset bytes value).2.Bounded := by
  have heffect := writeEffect_mmioWrite s offset bytes value
  have hold : s.selectedQueueData.num.toNat ≤ s.queueNumMax.toNat := h.num_le _ h.selQueue_lt
  generalize s.mmioWrite offset bytes value = r at heffect
  cases heffect with
  | other hsame => exact h.congr hsame
  | queueSel hc hlt hw => exact absurd ⟨hc, Reg.fits_of_write (by decide) hc hw, hlt⟩ hsel
  | @queueField f v hc hok hmax hw =>
      have hne : f ≠ .num := by
        rintro rfl
        exact hnum ⟨hc, Reg.fits_of_write (by decide) hc hw, hok, hmax rfl⟩
      have hkeep : (f.set s.selectedQueueData v).num = s.selectedQueueData.num := by
        cases f <;> first | rfl | exact absurd rfl hne
      exact ⟨h.selQueue_lt, (num_le_modifySelected (f := fun d => f.set d v) h hkeep).2 hold⟩
  | @queueReady v hc hw =>
      exact ⟨h.selQueue_lt,
        (num_le_modifySelected (f := fun d => { d with ready := v }) h rfl).2 hold⟩
  | status hc hw => exact ⟨h.selQueue_lt, h.num_le⟩
  | featureLower hc hok hsel hw => exact ⟨h.selQueue_lt, h.num_le⟩
  | featureUpper hc hok hsel hw => exact ⟨h.selQueue_lt, h.num_le⟩

/-! ## One access -/

theorem bounded_access {a : Access} {p : Platform}
    (h : (s.mmioAccess a offset bytes value).2.2.Bounded) :
    (s.access a offset bytes value p).2.2.Bounded := by
  rw [access]
  dsimp only
  split_ifs
  · exact (bounded_handleEvents _ p).2 ⟨h.selQueue_lt, .inr h.num_le⟩
  · exact h

/-- **A write keeps the registers in range exactly if it is in order.** -/
theorem bounded_write_iff (h : s.Bounded) (p : Platform) :
    (s.access .write offset bytes value p).2.2.Bounded ↔
      s.StepOk (.access .write offset bytes value p) := by
  by_cases hsel : woQueueSel.contains offset = true ∧ woQueueSel.Fits offset bytes ∧
      value < UInt64.ofNat queuesMax
  · obtain ⟨hc, hfits, hlt⟩ := hsel
    have hnum : ¬woQueueNum.contains offset = true := by
      rcases Reg.contains_cases (by decide) hc with rfl | rfl | rfl | rfl <;> decide
    rcases @Reg.write_cases woQueueSel offset value bytes s.selQueue (by decide) hc with
      ⟨hno, -⟩ | ⟨-, v, hw, -⟩
    · exact absurd hfits hno
    have hwrite : s.mmioWrite offset bytes value = (true, { s with selQueue := v }) := by
      rw [mmioWrite_queueSel hc hfits.not_lt, if_neg (UInt64.not_le.2 hlt), writeField,
        hw]
    have hiff := selQueue_lt_iff h.selQueue_lt hc hlt hw
    rw [access, mmioAccess, hwrite]
    dsimp only
    rw [if_pos rfl, bounded_handleEvents]
    constructor
    · intro hb
      exact ⟨fun _ _ _ => hiff.1 hb.1, fun hc => absurd hc hnum⟩
    · intro hok
      exact ⟨hiff.2 (hok.1 hc hfits hlt), .inr h.num_le⟩
  by_cases hnum : woQueueNum.contains offset = true ∧ woQueueNum.Fits offset bytes ∧
      s.isDriverOkState = false ∧ value ≤ s.queueNumMax.toUInt64
  · obtain ⟨hc, hfits, hok, hle⟩ := hnum
    have hsel : ¬woQueueSel.contains offset = true := by
      rcases Reg.contains_cases (by decide) hc with rfl | rfl | rfl | rfl <;> decide
    rcases @Reg.write_cases woQueueNum offset value bytes s.selectedQueueData.num (by decide) hc
      with ⟨hno, -⟩ | ⟨-, v, hw, -⟩
    · exact absurd hfits hno
    have hwrite : s.mmioWrite offset bytes value =
        (true, s.modifySelected (QueueField.num.set · v)) := by
      rw [mmioWrite_queueField .num hc hfits.not_lt, hok, if_neg Bool.false_ne_true,
        if_neg (fun hlt => absurd hlt.2 (UInt64.not_lt.2 hle)), writeField]
      have hwrite : QueueField.num.reg.write offset bytes value
          (QueueField.num.get s.selectedQueueData) = some v := hw
      rw [hwrite]
    have hiff := num_le_iff h hc hle hw
    have hall := num_le_modifySelected (f := fun d => QueueField.num.set d v) h rfl
    rw [access, mmioAccess, hwrite]
    dsimp only
    rw [if_pos rfl, bounded_handleEvents]
    constructor
    · intro hb
      exact ⟨fun hc => absurd hc hsel, fun _ _ _ _ => hb.2.imp_right fun hb => hiff.1 (hall.1 hb)⟩
    · intro hstep
      exact ⟨h.selQueue_lt, (hstep.2 hc hfits hok hle).imp_right fun hl => hall.2 (hiff.2 hl)⟩
  · refine iff_of_true (bounded_access (bounded_write_other h hsel hnum)) ⟨?_, ?_⟩
    · exact fun hc hfits hlt => absurd ⟨hc, hfits, hlt⟩ hsel
    · exact fun hc hfits hok hle => absurd ⟨hc, hfits, hok, hle⟩ hnum

/-- **An operation keeps the registers in range exactly if it is in order.** -/
theorem bounded_exec_iff (h : s.Bounded) : (s.exec op).Bounded ↔ s.StepOk op := by
  cases op with
  | reset => exact iff_of_true (bounded_reset h.selQueue_lt) trivial
  | access a offset size value p =>
      cases a with
      | write => exact bounded_write_iff h p
      | read => exact iff_of_true (bounded_access h) trivial
      | other => exact iff_of_true (bounded_access h) trivial

/-! ## Runs -/

theorem Bounded.inBounds (h : s.Bounded) (a : Access) (offset : UInt64) (size : UInt8)
    (value : UInt64) : s.InBounds a offset size value := fun _ => h.selQueue_lt

/-- **From a device that has not been used**, the registers are in range in all states of a run, and
no access leaves the arrays, exactly if all writes are in order. -/
theorem registers_bounded_iff (queueNumMax : UInt16)
    (deviceId configSize featureLower featureUpper : UInt32) (configSpace : ℕ → UInt8)
    (ops : List DeviceOp) :
    (∀ t ∈ ops.scanl exec
        (new queueNumMax deviceId configSize featureLower featureUpper configSpace),
      t.Bounded ∧ ∀ a offset size value, t.InBounds a offset size value) ↔
    AllOk exec StepOk (new queueNumMax deviceId configSize featureLower featureUpper configSpace)
      ops := by
  have hnew : (new queueNumMax deviceId configSize featureLower featureUpper
      configSpace).Bounded := by
    refine ⟨?_, fun i _ => (UInt16.toNat_toUInt32 _).le⟩
    show (0 : UInt32).toNat < queuesMax
    decide
  exact forall_scanl_iff_allOk (fun s op h hok => (bounded_exec_iff h).2 hok)
    (fun s op h hok hb => hok ((bounded_exec_iff h).1 hb.1)) (fun s h => ⟨h, h.inBounds⟩) ops _ hnew

/-- A byte of value 1 at the second byte of QueueSel, and at the fourth byte of QueueNum. After the
first the guest can write to the array entry 256. -/
theorem high_byte_writes :
    let s : DeviceState := new 4 3 0 0 0 fun _ => 0
    let p : Platform := ⟨false, fun a _ => a, fun a _ => some a.toNat⟩
    let s₁ := s.exec (.access .write 0x31 1 1 p)
    let s₂ := s.exec (.access .write 0x3b 1 1 p)
    s₁.selQueue.toNat = 256 ∧ ¬s₁.InBounds .write 0x44 4 1 ∧
      (s₂.data 0).num.toNat = 0x1000004 ∧ s₂.queueNumMax.toNat = 4 := by
  decide

end DeviceState

end Vml
