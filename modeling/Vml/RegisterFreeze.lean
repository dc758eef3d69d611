import Vml.Lib.Run
import Vml.VirtioDevice

/-!
# The registers of a device that is in use

Once the driver has set DRIVER_OK, what it has negotiated and the queues it has set up are not to
change until the device is reset. `write` guards the registers with `is_driver_ok_state`, which
compares the status with DRIVER_OK. The status of a conforming driver has three more bits set, and
the guard lets its writes through.

* `FreezeSys`: a device, and what its registers held when DRIVER_OK was set.
* `FreezeSys.frozen_exec_iff`: an operation keeps the registers exactly if it is not a write, past
  the guard, of bytes that the register does not hold.
* `frozen_until_reset`: they stay in every run of operations that are not.
-/

namespace Vml

namespace DeviceState

/-- What the driver has negotiated and set up. -/
structure Setup where
  drvFeatureLower : UInt32
  drvFeatureUpper : UInt32
  field : ℕ → QueueField → UInt32

/-- The registers that hold it. -/
def setup (s : DeviceState) : Setup where
  drvFeatureLower := s.drvFeatureLower
  drvFeatureUpper := s.drvFeatureUpper
  field i f := f.get (s.data i)

/-- A write of bytes that one of these registers does not hold. -/
def Changes (s : DeviceState) (offset : UInt64) (bytes : UInt8) (value : UInt64) : Prop :=
  (∃ f : QueueField, f.reg.contains offset = true ∧ f.reg.Fits offset bytes ∧
    (f = .num → value ≤ s.queueNumMax.toUInt64) ∧
    ¬f.reg.Holds offset bytes value (f.get s.selectedQueueData)) ∨
  woDriverFeature.contains offset = true ∧ woDriverFeature.Fits offset bytes ∧
    ¬woDriverFeature.Holds offset bytes value
      (if s.drvFeatureSel = 0 then s.drvFeatureLower else s.drvFeatureUpper)

variable {s s' : DeviceState} {offset value : UInt64} {bytes : UInt8} {op : DeviceOp}

theorem SameSetup.setup (h : SameSetup s s') : s'.setup = s.setup := by
  rw [DeviceState.setup, DeviceState.setup, h.drvFeatureLower, h.drvFeatureUpper, h.data]

theorem setup_modifySelected {f : QueueData → QueueData}
    (hf : ∀ g : QueueField, g.get (f s.selectedQueueData) = g.get s.selectedQueueData) :
    (s.modifySelected f).setup = s.setup := by
  show Setup.mk _ _ _ = Setup.mk _ _ _
  congr 1
  funext i g
  rw [modifySelected]
  dsimp only
  by_cases hi : i = s.selQueue.toNat
  · rw [hi, Function.update_self]
    exact hf g
  · rw [Function.update_of_ne hi]

theorem setup_modifySelected_iff (f : QueueField) (v : UInt32) :
    (s.modifySelected (f.set · v)).setup = s.setup ↔ v = f.get s.selectedQueueData := by
  constructor
  · intro h
    have hfield := congrFun (congrFun (congrArg Setup.field h) s.selQueue.toNat) f
    rw [setup, setup, modifySelected] at hfield
    dsimp only at hfield
    rw [Function.update_self, QueueField.get_set, if_pos rfl] at hfield
    exact hfield
  · intro h
    refine setup_modifySelected (f := (f.set · v)) fun g => ?_
    rw [QueueField.get_set]
    split_ifs with hg
    · rw [hg]
      exact h
    · rfl

/-- **A write leaves the setup alone** if the guard stops it, or it brings nothing new. -/
theorem setup_mmioWrite (h : s.isDriverOkState = true ∨ ¬s.Changes offset bytes value) :
    (s.mmioWrite offset bytes value).2.setup = s.setup := by
  have heffect := writeEffect_mmioWrite s offset bytes value
  generalize s.mmioWrite offset bytes value = r at heffect
  have hguard : s.isDriverOkState = false → ¬s.Changes offset bytes value := fun hok =>
    h.resolve_left fun ht => Bool.false_ne_true (hok.symm.trans ht)
  cases heffect with
  | other hsame => exact hsame.setup
  | queueSel hc hlt hw => rfl
  | queueField f hc hok hmax hw =>
      refine (setup_modifySelected_iff f _).2 ?_
      rw [Reg.write_eq_self_iff QueueField.isField_reg hc hw]
      by_contra hnew
      exact hguard hok (.inl ⟨f, hc, Reg.fits_of_write QueueField.isField_reg hc hw, hmax, hnew⟩)
  | @queueReady v hc hw =>
      show (s.modifySelected ({ · with ready := v })).setup = s.setup
      exact setup_modifySelected fun g => by cases g <;> rfl
  | status hc hw => rfl
  | @featureLower v hc hok hsel hw =>
      have hsame : v = s.drvFeatureLower := by
        rw [Reg.write_eq_self_iff (by decide) hc hw]
        by_contra hnew
        exact hguard hok (.inr ⟨hc, Reg.fits_of_write (by decide) hc hw, by rwa [if_pos hsel]⟩)
      rw [hsame]
  | @featureUpper v hc hok hsel hw =>
      have hsame : v = s.drvFeatureUpper := by
        rw [Reg.write_eq_self_iff (by decide) hc hw]
        by_contra hnew
        exact hguard hok (.inr ⟨hc, Reg.fits_of_write (by decide) hc hw, by rwa [if_neg hsel]⟩)
      rw [hsame]

/-- **A write that passes the guard and brings something new** succeeds, and changes the setup and
nothing that `handle_events` looks at. -/
theorem setup_mmioWrite_ne (hok : s.isDriverOkState = false)
    (h : s.Changes offset bytes value) :
    (s.mmioWrite offset bytes value).1 = true ∧
      (s.mmioWrite offset bytes value).2.setup ≠ s.setup ∧
      (s.mmioWrite offset bytes value).2.status = s.status ∧
      (s.mmioWrite offset bytes value).2.statusChanged = s.statusChanged := by
  rcases h with ⟨f, hc, hfits, hmax, hnew⟩ | ⟨hc, hfits, hnew⟩
  · rcases @Reg.write_cases f.reg offset value bytes (f.get s.selectedQueueData)
      QueueField.isField_reg hc with ⟨hno, -⟩ | ⟨-, v, hw, -⟩
    · exact absurd hfits hno
    have hlt : ¬(f = .num ∧ s.queueNumMax.toUInt64 < value) := fun hn =>
      absurd hn.2 (UInt64.not_lt.2 (hmax hn.1))
    rw [mmioWrite_queueField f hc hfits.not_lt, hok, if_neg Bool.false_ne_true, if_neg hlt,
      writeField, hw]
    refine ⟨rfl, fun hsame => hnew ?_, rfl, rfl⟩
    exact (Reg.write_eq_self_iff QueueField.isField_reg hc hw).1
      ((setup_modifySelected_iff f v).1 hsame)
  · rw [mmioWrite_driverFeature hc hfits.not_lt, hok, if_neg Bool.false_ne_true]
    by_cases hsel : s.drvFeatureSel = 0
    · rw [if_pos hsel] at hnew ⊢
      rcases @Reg.write_cases woDriverFeature offset value bytes s.drvFeatureLower (by decide) hc
        with ⟨hno, -⟩ | ⟨-, v, hw, -⟩
      · exact absurd hfits hno
      rw [writeField, hw]
      refine ⟨rfl, fun hsame => hnew ?_, rfl, rfl⟩
      exact (Reg.write_eq_self_iff (by decide) hc hw).1 (congrArg Setup.drvFeatureLower hsame)
    · rw [if_neg hsel] at hnew ⊢
      rcases @Reg.write_cases woDriverFeature offset value bytes s.drvFeatureUpper (by decide) hc
        with ⟨hno, -⟩ | ⟨-, v, hw, -⟩
      · exact absurd hfits hno
      rw [writeField, hw]
      refine ⟨rfl, fun hsame => hnew ?_, rfl, rfl⟩
      exact (Reg.write_eq_self_iff (by decide) hc hw).1 (congrArg Setup.drvFeatureUpper hsame)

theorem setup_handleEvents (h : ¬s.ResetPending) (p : Platform) :
    (s.handleEvents p).setup = s.setup := by
  have hsame := sameSetup_handleEvents s p
  obtain ⟨queue, constructQueue, hconstruct⟩ := s.handleConstruct_frame p
  rw [if_neg h, hconstruct] at hsame
  exact hsame.setup

end DeviceState

/-! ## From DRIVER_OK to the next reset -/

open DeviceState (Setup)

/-- A device. `since` is a history variable: once the driver has set DRIVER_OK and until the next
reset, what had been set up then. -/
structure FreezeSys where
  devState : DeviceState
  since : Option Setup := none

namespace FreezeSys

/-- What is remembered when the device has come into state `s`. -/
def record (since : Option Setup) (s : DeviceState) : Option Setup :=
  if s.status = 0 then none
  else if s.status &&& driverOkBit ≠ 0 then some (since.getD s.setup)
  else since

/-- The state after an operation. -/
def exec (t : FreezeSys) (op : DeviceOp) : FreezeSys :=
  let s := t.devState.exec op
  { devState := s, since := record t.since s }

/-- The setup is the one there was when DRIVER_OK was set. -/
def Frozen (t : FreezeSys) : Prop := ∀ f, t.since = some f → t.devState.setup = f

/-- A write of something new does not get past the guard. -/
def Guarded (t : FreezeSys) : DeviceOp → Prop
  | .access .write offset size value _ => t.since ≠ none →
      t.devState.isDriverOkState = true ∨ ¬t.devState.Changes offset size value
  | _ => True

/-- What holds between two operations: a device that has been reset has a status of 0. -/
structure Inv (t : FreezeSys) : Prop where
  frozen : t.Frozen
  status_ne : t.since ≠ none → t.devState.status ≠ 0

variable {t t' : FreezeSys} {op : DeviceOp}

theorem inv_start (d : DeviceState) : Inv { devState := d } := ⟨nofun, fun h => absurd rfl h⟩

/-- The device has been left as it was, or reset, or its status has changed. -/
theorem inv_record {since : Option Setup} {s : DeviceState}
    (h : s.status ≠ 0 → ∀ f, since = some f → s.setup = f) :
    Inv { devState := s, since := record since s } := by
  refine ⟨fun f hf => ?_, fun hne hzero => hne (if_pos hzero)⟩
  rw [record] at hf
  split_ifs at hf with hzero hbit
  · rw [Option.some.injEq] at hf
    cases hs : since with
    | none => rw [← hf, hs, Option.getD_none]
    | some f' =>
        rw [← hf, hs, Option.getD_some]
        exact h hzero f' hs
  · exact h hzero f hf

/-- An access whose first step leaves the setup alone. -/
theorem Inv.access (h : t.Inv) {a : Access} {offset value : UInt64} {size : UInt8} {p : Platform}
    (hsame : t.since ≠ none →
      (t.devState.mmioAccess a offset size value).2.2.setup = t.devState.setup) :
    (t.exec (.access a offset size value p)).Inv := by
  refine inv_record fun hzero f hf => ?_
  have hsame := (hsame (by rw [hf]; nofun)).trans (h.frozen f hf)
  rw [DeviceState.exec, DeviceState.access] at hzero ⊢
  dsimp only at hzero ⊢
  split_ifs at hzero ⊢
  · rw [DeviceState.status_handleEvents] at hzero
    rw [DeviceState.setup_handleEvents fun hreset => hzero hreset.2]
    exact hsame
  · exact hsame

/-- **An operation that is guarded keeps the setup.** -/
theorem Inv.exec (h : t.Inv) (hok : t.Guarded op) : (t.exec op).Inv := by
  cases op with
  | reset => exact inv_record fun hzero => absurd rfl hzero
  | access a offset size value p =>
      cases a with
      | write => exact h.access fun hne => DeviceState.setup_mmioWrite (hok hne)
      | read => exact h.access fun _ => rfl
      | other => exact h.access fun _ => rfl

/-- **And one that is not does not.** -/
theorem frozen_exec_iff (h : t.Inv) : (t.exec op).Frozen ↔ t.Guarded op := by
  refine ⟨fun hfrozen => ?_, fun hok => (h.exec hok).frozen⟩
  by_contra hnot
  cases op with
  | reset => exact hnot trivial
  | access a offset size value p =>
      cases a with
      | read => exact hnot trivial
      | other => exact hnot trivial
      | write =>
          rw [Guarded, Classical.not_imp, not_or, not_not] at hnot
          obtain ⟨hne, hok, hchanges⟩ := hnot
          obtain ⟨f, hf⟩ := Option.ne_none_iff_exists'.1 hne
          obtain ⟨hsucceeds, hnew, hstatus, -⟩ :=
            DeviceState.setup_mmioWrite_ne (by simpa using hok) hchanges
          have hzero := h.status_ne hne
          have hexec : t.devState.exec (.access .write offset size value p) =
              (t.devState.mmioWrite offset size value).2.handleEvents p := by
            rw [DeviceState.exec, DeviceState.access]
            exact if_pos hsucceeds
          have hsetup : (t.devState.exec (.access .write offset size value p)).setup =
              (t.devState.mmioWrite offset size value).2.setup := by
            rw [hexec]
            exact DeviceState.setup_handleEvents (fun hreset => hzero (hstatus ▸ hreset.2)) p
          have hsince : (t.exec (.access .write offset size value p)).since = some f := by
            show record t.since _ = some f
            rw [record, hexec, DeviceState.status_handleEvents, hstatus, if_neg hzero, hf]
            split_ifs <;> rfl
          exact hnew (hsetup.symm.trans ((hfrozen f hsince).trans (h.frozen f hf).symm))

/-! ## Runs -/

/-- A step. What an access outside the arrays does is undefined. -/
def Step (t : FreezeSys) (op : DeviceOp) (t' : FreezeSys) : Prop :=
  match op with
  | .access a offset size value _ =>
      t.devState.InBounds a offset size value → t' = t.exec op
  | .reset => t' = t.exec op

/-- The operation is guarded, and stays within the arrays. -/
def StepOk (t : FreezeSys) (op : DeviceOp) : Prop :=
  t.Guarded op ∧
    match op with
    | .access a offset size value _ => t.devState.InBounds a offset size value
    | .reset => True

/-- **From DRIVER_OK to the next reset** the setup stays, as long as no write of something new gets
past the guard. -/
theorem frozen_until_reset {d : DeviceState} {ops : List DeviceOp}
    (h : Run (fun t op t' => t.StepOk op ∧ t.Step op t') { devState := d } ops t) :
    ∀ f, t.since = some f → t.devState.setup = f := by
  have hstep : ∀ (t : FreezeSys) (op : DeviceOp) (t' : FreezeSys), t.Inv →
      t.StepOk op ∧ t.Step op t' → t'.Inv := by
    intro t op t' ht ⟨⟨hok, hin⟩, hstep⟩
    have heq : t' = t.exec op := by
      cases op with
      | reset => exact hstep
      | access a offset size value p => exact hstep hin
    rw [heq]
    exact ht.exec hok
  exact (h.invariant hstep (inv_start d)).frozen

/-- A device with queues of up to four entries. -/
def unused : DeviceState := .new 4 3 0 0 0 fun _ => 0

/-- A write of four bytes by the driver. -/
def write (offset value : UInt64) : DeviceOp :=
  .access .write offset 4 value ⟨false, fun a _ => a, fun a _ => some a.toNat⟩

/-- A conforming driver sets ACKNOWLEDGE, DRIVER, FEATURES_OK and DRIVER_OK, and then writes 2 to
QueueNum. -/
theorem conforming_status : ∃ f, ([write 0x70 15, write 0x38 2].foldl exec
      { devState := unused }).since = some f ∧
    ([write 0x70 15, write 0x38 2].foldl exec { devState := unused }).devState.setup ≠ f := by
  refine ⟨unused.setup, rfl, fun h => ?_⟩
  have hnum := congrArg (fun f : Setup => f.field 0 .num) h
  exact absurd hnum (by decide)

/-- A driver that sets DRIVER_OK alone. -/
theorem frozen_until_reset_alone :
    ∃ t, Run (fun (t : FreezeSys) op t' => t.StepOk op ∧ t.Step op t') { devState := unused }
      [write 0x70 4, write 0x38 2] t ∧ t.since = some unused.setup ∧
      t.devState.setup = unused.setup := by
  have hrun : Run (fun (t : FreezeSys) op t' => t.StepOk op ∧ t.Step op t')
      { devState := unused } [write 0x70 4, write 0x38 2]
      ([write 0x70 4, write 0x38 2].foldl exec { devState := unused }) := by
    refine .snoc (.snoc .nil (a := write 0x70 4) ⟨⟨fun hne => absurd rfl hne, ?_⟩, fun _ => rfl⟩)
      ⟨⟨fun _ => .inl (by decide), ?_⟩, fun _ => rfl⟩
    · exact (by decide : unused.InBounds .write 0x70 4 4)
    · exact (by decide : (unused.exec (write 0x70 4)).InBounds .write 0x38 4 2)
  exact ⟨_, hrun, rfl, frozen_until_reset hrun _ rfl⟩

end FreezeSys

end Vml
