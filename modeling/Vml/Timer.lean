import Vml.Lib.Run
import Vml.Platform

/-!
# The virtual timer

`AA64Timer`: a control byte `_cntv_ctl` and a compare value `_cval`, which the VCPU writes through
the registers `CNTP_CTL`, `CNTP_CVAL` and `CNTP_TVAL`, and the timer loop, which waits for the
compare value to be reached, asserts the interrupt and sets the status bit of the same byte.

**Turns.** Every load and store of the control byte or the compare value, and every operation on
the signal `_wait_timer`, is a turn of its own. A wait with a deadline may end at any time, for the
clock is not part of the state. The loop goes on for ever: `_terminate` is left out, and so is
`_curr_timeout`, which this timer never reads.

**History.** `lastCtl` is what the guest wrote to the control register last, and `asserted` says
whether an interrupt has been asserted since the last store or signal of a guest's write.

**What goes wrong.** The loop sets and clears its status bit with a load and a store, and loses what
the guest stores in between. The guest writes back the status bit that it loaded, and so may set it
again while the loop waits for a deadline: the loop takes it as its own and waits without one
(`setting_and_expiry_lost`).

Main result: `TimerSys.setting_kept`: in every run where neither happens, the bits in effect are
those the guest wrote last, and the loop is never left waiting for nothing or for an old deadline.
-/

namespace Vml

/-! ## The control byte -/

namespace CntvCtl

/-- `ENABLED_BIT`. -/
abbrev enabledBit : UInt8 := 0x1

/-- `MASKED_BIT`. -/
abbrev maskedBit : UInt8 := 0x2

/-- `STATUS_BIT`. -/
abbrev statusBit : UInt8 := 0x4

/-- `enabled`. -/
def enabled (value : UInt8) : Bool := value &&& enabledBit != 0

/-- `masked`. -/
def masked (value : UInt8) : Bool := value &&& maskedBit != 0

/-- `status`. -/
def status (value : UInt8) : Bool := value &&& statusBit != 0

/-- `can_fire`. -/
def canFire (value : UInt8) : Bool := enabled value && !masked value

/-- `set_status`. -/
def setStatus (value : UInt8) (set : Bool) : UInt8 :=
  if set then value ||| statusBit else value &&& ~~~statusBit

end CntvCtl

/-- `Msr::Register::access` for a write of a register that can be written: its value afterwards. -/
def registerWrite (writeMask current value : UInt64) : UInt64 :=
  (current ||| value &&& writeMask) &&& ~~~(writeMask &&& (value ^^^ writeMask))

/-! ## The settings -/

section Settings

variable {mask current value : UInt64} {v bit : UInt8} {set : Bool}

/-- **A write replaces the bits of the mask.** -/
theorem registerWrite_and :
    registerWrite mask current value &&& mask = value &&& mask := by
  refine UInt64.toBitVec_inj.1 (BitVec.eq_of_getElem_eq fun i hi => ?_)
  simp only [registerWrite, UInt64.toBitVec_and, UInt64.toBitVec_or, UInt64.toBitVec_not,
    UInt64.toBitVec_xor, BitVec.getElem_and, BitVec.getElem_or, BitVec.getElem_not,
    BitVec.getElem_xor]
  cases current.toBitVec[i] <;> cases value.toBitVec[i] <;> cases mask.toBitVec[i] <;> rfl

theorem registerWrite_ctl_and (hbit : 0b11 &&& bit.toUInt64 = bit.toUInt64) :
    (registerWrite 0b11 current value).toUInt8 &&& bit = value.toUInt8 &&& bit := by
  have hnarrow (x : UInt64) : x.toUInt8 &&& bit = (x &&& 0b11 &&& bit.toUInt64).toUInt8 := by
    rw [UInt64.and_assoc, hbit, UInt64.toUInt8_and, UInt8.toUInt8_toUInt64]
  rw [hnarrow, registerWrite_and, ← hnarrow]

namespace CntvCtl

/-- The status bit is the only one that `set_status` changes. -/
theorem setStatus_and (hbit : statusBit &&& bit = 0) : setStatus v set &&& bit = v &&& bit := by
  refine UInt8.toBitVec_inj.1 (BitVec.eq_of_getElem_eq fun i hi => ?_)
  have hother : (statusBit.toBitVec[i] && bit.toBitVec[i]) = false := by
    rw [← BitVec.getElem_and, ← UInt8.toBitVec_and, hbit]
    exact BitVec.getElem_zero hi
  revert hother
  cases set with
  | false =>
      simp only [setStatus, Bool.false_eq_true, if_false, UInt8.toBitVec_and, UInt8.toBitVec_not,
        BitVec.getElem_and, BitVec.getElem_not]
      cases v.toBitVec[i] <;> cases statusBit.toBitVec[i] <;> simp
  | true =>
      simp only [setStatus, if_true, UInt8.toBitVec_and, UInt8.toBitVec_or, BitVec.getElem_and,
        BitVec.getElem_or]
      cases v.toBitVec[i] <;> cases statusBit.toBitVec[i] <;> simp

@[simp] theorem enabled_setStatus : enabled (setStatus v set) = enabled v := by
  rw [enabled, setStatus_and rfl, enabled]

@[simp] theorem masked_setStatus : masked (setStatus v set) = masked v := by
  rw [masked, setStatus_and rfl, masked]

@[simp] theorem status_setStatus_false : status (setStatus v false) = false := by
  have hclear : setStatus v false &&& statusBit = 0 := by
    rw [setStatus, if_neg nofun, UInt8.and_assoc]
    exact UInt8.and_zero
  rw [status, hclear]
  rfl

@[simp] theorem enabled_registerWrite :
    enabled (registerWrite 0b11 current value).toUInt8 = enabled value.toUInt8 := by
  rw [enabled, registerWrite_ctl_and rfl, enabled]

@[simp] theorem masked_registerWrite :
    masked (registerWrite 0b11 current value).toUInt8 = masked value.toUInt8 := by
  rw [masked, registerWrite_ctl_and rfl, masked]

theorem canFire_eq_true_iff : canFire v = true ↔ enabled v = true ∧ masked v = false := by
  rw [canFire, Bool.and_eq_true, Bool.not_eq_true']

end CntvCtl

end Settings

/-! ## The parties -/

/-- Where the timer loop is: what its next turn does. -/
inductive LoopPoint
  /-- `can_fire` loads the control byte for `enabled`. -/
  | topEnabled
  /-- `can_fire` loads it for `masked`. -/
  | topMasked
  /-- `is_irq_status_set` loads it. -/
  | topStatus
  /-- `timer_wait`. -/
  | waiting
  /-- `clear_irq_status`: `set_status` loads the control byte. -/
  | clearLoad
  /-- `clear_irq_status`: `set_status` stores it. -/
  | clearStore (value : UInt8)
  /-- `clear_irq_status`: `deassert_irq`. -/
  | deassert
  /-- `get_timeout_abs` loads the compare value. -/
  | loadTimeout
  /-- `timer_wait_timeout`. -/
  | waitingTimeout (timeout : UInt64)
  /-- `get_timeout_abs` loads the compare value again; `curr_timer_expired` does not look at it. -/
  | loadTimer (released : Bool)
  /-- After a timeout `can_fire` loads the control byte for `enabled`. -/
  | fireEnabled
  /-- `can_fire` loads it for `masked`. -/
  | fireMasked
  /-- `assert_irq`. -/
  | assertIrq
  /-- `set_irq_status`: `set_status` loads the control byte. -/
  | setLoad
  /-- `set_irq_status`: `set_status` stores it. -/
  | setStore (value : UInt8)
  deriving DecidableEq, Repr

/-- Where the VCPU is. -/
inductive GuestPoint
  | idle
  /-- `CntpCval::access` loads the compare value. -/
  | cvalLoad (value : UInt64)
  /-- `set_cval` stores it. -/
  | cvalStore (cval : UInt64)
  /-- `set_cval`: `timer_wakeup`. -/
  | cvalSig
  /-- `CntpCtl::access` loads the control byte. -/
  | ctlLoad (value : UInt64)
  /-- `set_ctl` stores it. The value that the guest writes is remembered as history. -/
  | ctlStore (value : UInt64) (ctl : UInt8)
  /-- `set_ctl`: `can_fire` loads the control byte for `enabled`. -/
  | ctlEnabled
  /-- `set_ctl`: `can_fire` loads it for `masked`. -/
  | ctlMasked
  /-- `set_ctl`: `timer_wakeup`. -/
  | ctlSig
  deriving DecidableEq, Repr

/-- A write of the guest to a register of the timer. -/
inductive TimerWrite
  /-- `CNTP_CVAL_EL0`. -/
  | cval (value : UInt64)
  /-- `CNTP_TVAL_EL0`, with what `clock()` returns. -/
  | tval (value clock : UInt64)
  /-- `CNTP_CTL_EL0`. -/
  | ctl (value : UInt64)
  deriving DecidableEq, Repr

/-- `CntpTval::access`: the value is a signed offset of 32 bits. -/
def tvalOffset (value : UInt64) : UInt64 := value.toUInt32.toInt32.toInt64.toUInt64

/-- The first turn of a write. -/
def TimerWrite.start : TimerWrite → GuestPoint
  | cval value => .cvalLoad value
  | tval value clock => .cvalStore (clock + tvalOffset value)
  | ctl value => .ctlLoad value

/-- The timer, its loop and its VCPU. -/
structure TimerSys where
  cntvCtl : UInt8 := 0
  cval : UInt64 := 0
  waitTimer : Signal := {}
  loop : LoopPoint := .topEnabled
  guest : GuestPoint := .idle
  lastCtl : UInt8 := 0
  asserted : Bool := false
  deriving DecidableEq, Repr

/-- A turn of one of the parties. -/
inductive TimerTurn
  /-- The loop. While it waits it needs the signal. -/
  | loop
  /-- A wait with a deadline ends without the signal. -/
  | timeout
  /-- The loop asserts the interrupt, with what `assert_irq` returns. -/
  | assertIrq (ok : Bool)
  /-- The VCPU begins a write. -/
  | write (w : TimerWrite)
  /-- The VCPU goes on with its write. -/
  | guest
  deriving DecidableEq, Repr

namespace TimerSys

open CntvCtl

/-- The timer when its loop starts. -/
def init : TimerSys := {}

/-- A turn of the loop. -/
def loopStep (s : TimerSys) : Option TimerSys :=
  match s.loop with
  | .topEnabled =>
      some { s with loop := if enabled s.cntvCtl then .topMasked else .waiting }
  | .topMasked => some { s with loop := if masked s.cntvCtl then .waiting else .topStatus }
  | .topStatus => some { s with loop := if status s.cntvCtl then .waiting else .loadTimeout }
  | .waiting =>
      s.waitTimer.wait.map fun signal => { s with waitTimer := signal, loop := .clearLoad }
  | .clearLoad => some { s with loop := .clearStore s.cntvCtl }
  | .clearStore value => some { s with cntvCtl := setStatus value false, loop := .deassert }
  | .deassert => some { s with loop := .topEnabled }
  | .loadTimeout => some { s with loop := .waitingTimeout s.cval }
  | .waitingTimeout _ =>
      s.waitTimer.wait.map fun signal => { s with waitTimer := signal, loop := .loadTimer true }
  | .loadTimer released => some { s with loop := if released then .topEnabled else .fireEnabled }
  | .fireEnabled =>
      some { s with loop := if enabled s.cntvCtl then .fireMasked else .topEnabled }
  | .fireMasked => some { s with loop := if masked s.cntvCtl then .topEnabled else .assertIrq }
  | .assertIrq => none
  | .setLoad => some { s with loop := .setStore s.cntvCtl }
  | .setStore value => some { s with cntvCtl := setStatus value true, loop := .topEnabled }

/-- A turn of the VCPU, in a write. -/
def guestStep (s : TimerSys) : Option TimerSys :=
  match s.guest with
  | .idle => none
  | .cvalLoad value =>
      some { s with guest := .cvalStore (registerWrite 0xFFFFFFFFFFFFFFFF s.cval value) }
  | .cvalStore cval => some { s with cval := cval, guest := .cvalSig, asserted := false }
  | .cvalSig =>
      some { s with waitTimer := s.waitTimer.sig, guest := .idle, asserted := false }
  | .ctlLoad value =>
      some { s with
        guest := .ctlStore value (registerWrite 0b11 s.cntvCtl.toUInt64 value).toUInt8 }
  | .ctlStore value ctl =>
      some { s with
        cntvCtl := ctl, guest := .ctlEnabled, lastCtl := value.toUInt8, asserted := false }
  | .ctlEnabled => some { s with guest := if enabled s.cntvCtl then .ctlMasked else .idle }
  | .ctlMasked => some { s with guest := if masked s.cntvCtl then .idle else .ctlSig }
  | .ctlSig =>
      some { s with waitTimer := s.waitTimer.sig, guest := .idle, asserted := false }

/-- A turn. -/
def step (s : TimerSys) : TimerTurn → Option TimerSys
  | .loop => s.loopStep
  | .timeout =>
      match s.loop with
      | .waitingTimeout _ => some { s with loop := .loadTimer false }
      | _ => none
  | .assertIrq ok =>
      match s.loop with
      | .assertIrq =>
          some { s with
            loop := if ok then .setLoad else .topEnabled
            asserted := s.asserted || ok }
      | _ => none
  | .write w => if s.guest = .idle then some { s with guest := w.start } else none
  | .guest => s.guestStep

/-- **Nothing is lost.** -/
structure SettingKept (s : TimerSys) : Prop where
  enabled : enabled s.cntvCtl = enabled s.lastCtl
  masked : masked s.cntvCtl = masked s.lastCtl
  /-- The loop waits for the guest only if it has nothing to do. -/
  expiry : s.guest = .idle → s.waitTimer.signaled = false → s.loop = .waiting →
    canFire s.lastCtl = true → s.asserted = true
  /-- It waits for the compare value. -/
  deadline : s.guest = .idle → s.waitTimer.signaled = false →
    ∀ timeout, s.loop = .waitingTimeout timeout → timeout = s.cval

/-- **The condition** on the guest's store of the control byte: the loop is not about to store the
byte with other settings, and it is not about to wait for a deadline, or waiting for one, while the
byte has the status bit and can fire. -/
def StoresInTime (s : TimerSys) : TimerTurn → Prop
  | .guest =>
      match s.guest, s.loop with
      | .ctlStore _ ctl, .clearStore value | .ctlStore _ ctl, .setStore value =>
          CntvCtl.enabled ctl = CntvCtl.enabled value ∧ CntvCtl.masked ctl = CntvCtl.masked value
      | .ctlStore _ ctl, .loadTimeout | .ctlStore _ ctl, .waitingTimeout _ =>
          ¬(status ctl = true ∧ canFire ctl = true)
      | _, _ => True
  | _ => True

instance (s : TimerSys) (t : TimerTurn) : Decidable (s.StoresInTime t) := by
  unfold StoresInTime
  split
  · split <;> infer_instance
  · infer_instance

/-- Any turn. -/
def AnyStep (s : TimerSys) (t : TimerTurn) (s' : TimerSys) : Prop := s.step t = some s'

/-- A turn that meets the condition. -/
def KeptStep (s : TimerSys) (t : TimerTurn) (s' : TimerSys) : Prop :=
  s.StoresInTime t ∧ s.step t = some s'

/-! ## The invariant -/

/-- Both bytes have the same settings. -/
abbrev SameSetting (v w : UInt8) : Prop :=
  CntvCtl.enabled v = CntvCtl.enabled w ∧ CntvCtl.masked v = CntvCtl.masked w

/-- The VCPU is still to signal, if the control byte can fire. -/
def ToSignal (s : TimerSys) : Prop :=
  match s.guest with
  | .cvalSig | .ctlEnabled | .ctlMasked | .ctlSig => True
  | _ => False

/-- The loop may wait for the guest: it will be woken, or has nothing to do. -/
def Woken (s : TimerSys) : Prop :=
  s.asserted = true ∨ s.waitTimer.signaled = true ∨ s.ToSignal ∨ canFire s.cntvCtl = false

/-- The loop does not take the status bit for its own. -/
def Quiet (s : TimerSys) : Prop := ¬(status s.cntvCtl = true ∧ canFire s.cntvCtl = true)

/-- What the loop relies on where it is. -/
def LoopOk (s : TimerSys) : Prop :=
  match s.loop with
  | .waiting | .setLoad => s.Woken
  | .clearLoad => True
  | .clearStore value => SameSetting s.cntvCtl value
  | .setStore value => s.Woken ∧ SameSetting s.cntvCtl value
  | .loadTimeout => s.Quiet
  | .waitingTimeout timeout =>
      s.Quiet ∧ (timeout = s.cval ∨ s.waitTimer.signaled = true ∨ s.guest = .cvalSig)
  | _ => status s.cntvCtl = true → s.Woken

/-- What holds after every turn. -/
structure Inv (s : TimerSys) : Prop where
  setting : SameSetting s.cntvCtl s.lastCtl
  store : ∀ value ctl, s.guest = .ctlStore value ctl → SameSetting ctl value.toUInt8
  loop : s.LoopOk

variable {s s' : TimerSys}

theorem SameSetting.canFire_eq {v w : UInt8} (h : SameSetting v w) : canFire v = canFire w := by
  rw [canFire, canFire, h.1, h.2]

theorem woken_of_canFire_eq_false (h : canFire s.cntvCtl = false) : s.Woken := .inr (.inr (.inr h))

theorem woken_of_toSignal (h : s.ToSignal) : s.Woken := .inr (.inr (.inl h))

theorem woken_of_not_enabled (h : CntvCtl.enabled s.cntvCtl = false) : s.Woken := by
  refine woken_of_canFire_eq_false ?_
  rw [canFire, h, Bool.false_and]

theorem woken_of_masked (h : CntvCtl.masked s.cntvCtl = true) : s.Woken := by
  refine woken_of_canFire_eq_false ?_
  rw [canFire, h, Bool.not_true, Bool.and_false]

theorem Quiet.woken (h : s.Quiet) (hstatus : status s.cntvCtl = true) : s.Woken :=
  woken_of_canFire_eq_false (Bool.eq_false_iff.2 fun hfire => h ⟨hstatus, hfire⟩)

theorem quiet_of_status_eq_false (h : status s.cntvCtl = false) : s.Quiet := by
  rintro ⟨hstatus, -⟩
  rw [h] at hstatus
  cases hstatus

theorem inv_init : init.Inv where
  setting := ⟨rfl, rfl⟩
  store := nofun
  loop := nofun

/-! ## The turns of the loop -/

theorem Inv.goOn (h : s.Inv) {p : LoopPoint} (hp : LoopOk { s with loop := p }) :
    Inv { s with loop := p } :=
  ⟨h.setting, h.store, hp⟩

theorem Inv.setStatus (h : s.Inv) {value : UInt8} {set : Bool} {p : LoopPoint}
    (hsame : SameSetting s.cntvCtl value)
    (hp : LoopOk { s with cntvCtl := CntvCtl.setStatus value set, loop := p }) :
    Inv { s with cntvCtl := CntvCtl.setStatus value set, loop := p } where
  setting := by
    refine ⟨?_, ?_⟩
    · exact enabled_setStatus.trans (hsame.1.symm.trans h.setting.1)
    · exact masked_setStatus.trans (hsame.2.symm.trans h.setting.2)
  store := h.store
  loop := hp

theorem Inv.wait (h : s.Inv) {signal : Signal} {p : LoopPoint}
    (hp : LoopOk { s with waitTimer := signal, loop := p }) :
    Inv { s with waitTimer := signal, loop := p } :=
  ⟨h.setting, h.store, hp⟩

/-- **The turns of the loop.** -/
theorem Inv.loopStep (h : s.Inv) (hstep : s.loopStep = some s') : s'.Inv := by
  have hok := h.loop
  rw [LoopOk] at hok
  rw [TimerSys.loopStep] at hstep
  cases hloop : s.loop with
  | topEnabled =>
      rw [hloop] at hok hstep
      cases hstep
      cases hen : CntvCtl.enabled s.cntvCtl with
      | true => exact h.goOn hok
      | false => exact h.goOn (woken_of_not_enabled (s := s) hen)
  | topMasked =>
      rw [hloop] at hok hstep
      cases hstep
      cases hmasked : CntvCtl.masked s.cntvCtl with
      | true => exact h.goOn (woken_of_masked (s := s) hmasked)
      | false => exact h.goOn hok
  | topStatus =>
      rw [hloop] at hok hstep
      cases hstep
      cases hstatus : status s.cntvCtl with
      | true => exact h.goOn (hok hstatus)
      | false => exact h.goOn (quiet_of_status_eq_false (s := s) hstatus)
  | waiting =>
      rw [hloop] at hstep
      obtain ⟨signal, -, rfl⟩ := Option.map_eq_some_iff.1 hstep
      exact h.wait trivial
  | clearLoad =>
      rw [hloop] at hstep
      cases hstep
      exact h.goOn (p := .clearStore _) ⟨rfl, rfl⟩
  | clearStore value =>
      rw [hloop] at hok hstep
      cases hstep
      refine h.setStatus hok fun hstatus => ?_
      cases status_setStatus_false.symm.trans hstatus
  | deassert =>
      rw [hloop] at hok hstep
      cases hstep
      exact h.goOn hok
  | loadTimeout =>
      rw [hloop] at hok hstep
      cases hstep
      exact h.goOn (p := .waitingTimeout _) ⟨hok, .inl rfl⟩
  | waitingTimeout timeout =>
      rw [hloop] at hok hstep
      obtain ⟨signal, -, rfl⟩ := Option.map_eq_some_iff.1 hstep
      exact h.wait (p := .loadTimer true)
        (Quiet.woken (s := { s with waitTimer := signal, loop := .loadTimer true }) hok.1)
  | loadTimer released =>
      rw [hloop] at hok hstep
      cases hstep
      cases released <;> exact h.goOn hok
  | fireEnabled =>
      rw [hloop] at hok hstep
      cases hstep
      cases CntvCtl.enabled s.cntvCtl <;> exact h.goOn hok
  | fireMasked =>
      rw [hloop] at hok hstep
      cases hstep
      cases CntvCtl.masked s.cntvCtl <;> exact h.goOn hok
  | assertIrq =>
      rw [hloop] at hstep
      cases hstep
  | setLoad =>
      rw [hloop] at hok hstep
      cases hstep
      exact h.goOn (p := .setStore _) ⟨hok, rfl, rfl⟩
  | setStore value =>
      rw [hloop] at hok hstep
      cases hstep
      refine h.setStatus hok.2 fun _ => ?_
      obtain hasserted | hsignal | htoSignal | hfire := hok.1
      · exact .inl hasserted
      · exact .inr (.inl hsignal)
      · exact .inr (.inr (.inl htoSignal))
      · refine woken_of_canFire_eq_false ?_
        rw [← hfire, hok.2.canFire_eq]
        exact SameSetting.canFire_eq ⟨enabled_setStatus, masked_setStatus⟩

/-! ## The turns of the VCPU -/

/-- **A turn that leaves the control byte alone** and keeps the loop from waiting for nothing. -/
theorem LoopOk.of_same (h : s.LoopOk) (hctl : s'.cntvCtl = s.cntvCtl) (hloop : s'.loop = s.loop)
    (hwoken : s.Woken → s'.Woken)
    (hdeadline : ∀ timeout, timeout = s.cval ∨ s.waitTimer.signaled = true ∨ s.guest = .cvalSig →
      timeout = s'.cval ∨ s'.waitTimer.signaled = true ∨ s'.guest = .cvalSig) : s'.LoopOk := by
  rw [LoopOk] at h ⊢
  rw [hloop]
  cases hp : s.loop with
  | waiting =>
      rw [hp] at h
      exact hwoken h
  | setLoad =>
      rw [hp] at h
      exact hwoken h
  | clearLoad => trivial
  | clearStore value =>
      rw [hp] at h
      dsimp only at h ⊢
      rwa [hctl]
  | setStore value =>
      rw [hp] at h
      refine ⟨hwoken h.1, ?_⟩
      rw [hctl]
      exact h.2
  | loadTimeout =>
      rw [hp] at h
      dsimp only at h ⊢
      rwa [Quiet, hctl]
  | waitingTimeout timeout =>
      rw [hp] at h
      dsimp only at h ⊢
      rw [Quiet, hctl]
      exact ⟨h.1, hdeadline timeout h.2⟩
  | _ =>
      rw [hp] at h
      dsimp only at h ⊢
      rw [hctl]
      exact hwoken ∘ h

/-- The VCPU goes on and leaves everything as it is. -/
theorem Inv.guestGoOn (h : s.Inv) {p : GuestPoint} (hnot : s.guest ≠ .cvalSig)
    (hsignal : s.ToSignal → Woken { s with guest := p })
    (hp : ∀ value ctl, p = .ctlStore value ctl → SameSetting ctl value.toUInt8) :
    Inv { s with guest := p } where
  setting := h.setting
  store := hp
  loop := by
    refine h.loop.of_same rfl rfl (fun hwoken => ?_) fun timeout hdeadline => ?_
    · obtain hasserted | hsignaled | htoSignal | hfire := hwoken
      · exact .inl hasserted
      · exact .inr (.inl hsignaled)
      · exact hsignal htoSignal
      · exact .inr (.inr (.inr hfire))
    · exact hdeadline.imp_right fun h => .inl (h.resolve_right hnot)

theorem Inv.sig (h : s.Inv) :
    Inv { s with waitTimer := s.waitTimer.sig, guest := .idle, asserted := false } where
  setting := h.setting
  store := nofun
  loop := h.loop.of_same rfl rfl (fun _ => .inr (.inl rfl)) fun _ _ => .inr (.inl rfl)

/-- **A store of the control byte** in time. -/
theorem Inv.storeCtl (h : s.Inv) {value : UInt64} {ctl : UInt8} (hin : s.StoresInTime .guest)
    (hguest : s.guest = .ctlStore value ctl) :
    Inv { s with
      cntvCtl := ctl, guest := .ctlEnabled, lastCtl := value.toUInt8, asserted := false } where
  setting := h.store value ctl hguest
  store := nofun
  loop := by
    obtain ⟨s', hs'⟩ : ∃ s', s' = ({ s with
      cntvCtl := ctl, guest := .ctlEnabled, lastCtl := value.toUInt8, asserted := false } :
        TimerSys) := ⟨_, rfl⟩
    have hctl : s'.cntvCtl = ctl := by rw [hs']
    have hloop : s'.loop = s.loop := by rw [hs']
    have hwoken : s'.Woken := by
      refine woken_of_toSignal ?_
      rw [hs']
      trivial
    rw [← hs', LoopOk, hloop]
    rw [StoresInTime, hguest] at hin
    cases hp : s.loop with
    | waiting => exact hwoken
    | setLoad => exact hwoken
    | clearLoad => trivial
    | clearStore value =>
        rw [hp] at hin
        dsimp only
        rw [hctl]
        exact hin
    | setStore value =>
        rw [hp] at hin
        dsimp only
        rw [hctl]
        exact ⟨hwoken, hin⟩
    | loadTimeout =>
        rw [hp] at hin
        dsimp only
        rw [Quiet, hctl]
        exact hin
    | waitingTimeout timeout =>
        rw [hp] at hin
        have hdeadline := h.loop
        rw [LoopOk, hp] at hdeadline
        dsimp only
        rw [Quiet, hctl, hs']
        refine ⟨hin, hdeadline.2.imp_right fun h => .inl (h.resolve_right ?_)⟩
        rw [hguest]
        exact nofun
    | _ => exact fun _ => hwoken

/-- **The turns of the VCPU.** -/
theorem Inv.guestStep (h : s.Inv) (hin : s.StoresInTime .guest) (hstep : s.guestStep = some s') :
    s'.Inv := by
  rw [TimerSys.guestStep] at hstep
  cases hguest : s.guest with
  | idle =>
      rw [hguest] at hstep
      cases hstep
  | cvalLoad value =>
      rw [hguest] at hstep
      cases hstep
      refine h.guestGoOn (hguest ▸ nofun) ?_ nofun
      rw [ToSignal, hguest]
      exact nofun
  | cvalStore cval =>
      rw [hguest] at hstep
      cases hstep
      refine ⟨h.setting, nofun, h.loop.of_same rfl rfl (fun _ => ?_) fun _ _ => .inr (.inr rfl)⟩
      exact woken_of_toSignal trivial
  | cvalSig =>
      rw [hguest] at hstep
      cases hstep
      exact h.sig
  | ctlLoad value =>
      rw [hguest] at hstep
      cases hstep
      refine h.guestGoOn (hguest ▸ nofun) ?_ ?_
      · rw [ToSignal, hguest]
        exact nofun
      · intro value' ctl hctl
        cases hctl
        exact ⟨enabled_registerWrite, masked_registerWrite⟩
  | ctlStore value ctl =>
      rw [hguest] at hstep
      cases hstep
      exact h.storeCtl hin hguest
  | ctlEnabled =>
      rw [hguest] at hstep
      cases hstep
      refine h.guestGoOn (hguest ▸ nofun) (fun _ => ?_) fun _ _ => ?_
      · cases hen : CntvCtl.enabled s.cntvCtl with
        | true => exact woken_of_toSignal trivial
        | false => exact woken_of_not_enabled hen
      · cases CntvCtl.enabled s.cntvCtl <;> exact nofun
  | ctlMasked =>
      rw [hguest] at hstep
      cases hstep
      refine h.guestGoOn (hguest ▸ nofun) (fun _ => ?_) fun _ _ => ?_
      · cases hmasked : CntvCtl.masked s.cntvCtl with
        | true => exact woken_of_masked hmasked
        | false => exact woken_of_toSignal trivial
      · cases CntvCtl.masked s.cntvCtl <;> exact nofun
  | ctlSig =>
      rw [hguest] at hstep
      cases hstep
      exact h.sig

/-! ## Runs -/

/-- **A turn keeps the invariant.** -/
theorem Inv.step {t : TimerTurn} (h : s.Inv) (hin : s.StoresInTime t)
    (hstep : s.step t = some s') : s'.Inv := by
  cases t with
  | loop => exact h.loopStep hstep
  | timeout =>
      have hok := h.loop
      rw [TimerSys.step] at hstep
      cases hloop : s.loop with
      | waitingTimeout timeout =>
          rw [hloop] at hstep
          cases hstep
          rw [LoopOk, hloop] at hok
          exact h.goOn (p := .loadTimer false) hok.1.woken
      | _ =>
          rw [hloop] at hstep
          cases hstep
  | assertIrq ok =>
      have hok := h.loop
      rw [TimerSys.step] at hstep
      cases hloop : s.loop with
      | assertIrq =>
          rw [hloop] at hstep
          cases hstep
          rw [LoopOk, hloop] at hok
          refine ⟨h.setting, h.store, ?_⟩
          cases ok with
          | true => exact Or.inl (Bool.or_true _)
          | false =>
              intro hstatus
              exact (hok hstatus).imp_left fun h => (Bool.or_false _).trans h
      | _ =>
          rw [hloop] at hstep
          cases hstep
  | write w =>
      rw [TimerSys.step] at hstep
      split_ifs at hstep with hguest
      cases hstep
      refine h.guestGoOn (hguest ▸ nofun) ?_ ?_
      · rw [ToSignal, hguest]
        exact nofun
      · cases w <;> exact nofun
  | guest => exact h.guestStep hin hstep

/-- What the invariant says while no write is in progress. -/
theorem Inv.settingKept (h : s.Inv) : s.SettingKept where
  enabled := h.setting.1
  masked := h.setting.2
  expiry := by
    intro hguest hsignaled hloop hfire
    have hwoken := h.loop
    rw [LoopOk, hloop] at hwoken
    obtain hasserted | hsignal | htoSignal | hnot := hwoken
    · exact hasserted
    · rw [hsignaled] at hsignal
      cases hsignal
    · rw [ToSignal, hguest] at htoSignal
      cases htoSignal
    · rw [SameSetting.canFire_eq h.setting, hfire] at hnot
      cases hnot
  deadline := by
    intro hguest hsignaled timeout hloop
    have hok := h.loop
    rw [LoopOk, hloop] at hok
    obtain hcval | hsignal | hsig := hok.2
    · exact hcval
    · rw [hsignaled] at hsignal
      cases hsignal
    · rw [hguest] at hsig
      cases hsig

/-- The VCPU signals a byte that can fire, and the loop, which has a deadline, takes the status bit
for its own. -/
theorem exists_run_waiting (hguest : s.guest = .ctlEnabled) (hfire : canFire s.cntvCtl = true)
    (hstatus : status s.cntvCtl = true) (hloop : ∃ timeout, s.loop = .waitingTimeout timeout) :
    ∃ ts, Run AnyStep s ts { s with
      waitTimer := ⟨false⟩, loop := .waiting, guest := .idle, asserted := false } := by
  obtain ⟨timeout, hloop⟩ := hloop
  obtain ⟨hen, hmasked⟩ := canFire_eq_true_iff.1 hfire
  obtain ⟨ctl, cval, signal, loop, guest, lastCtl, asserted⟩ := s
  cases hguest
  cases hloop
  refine ⟨[.guest, .guest, .guest, .loop, .loop, .loop, .loop, .loop], .of_foldlM ?_⟩
  dsimp only at hen hmasked hstatus
  simp [TimerSys.step, TimerSys.guestStep, TimerSys.loopStep, Signal.sig, Signal.wait, hen, hmasked,
    hstatus]

/-- **The condition is exact**: a store that does not meet it can be followed by turns after which
something is lost. -/
theorem Inv.exists_lost {t : TimerTurn} (h : s.Inv) (hin : ¬s.StoresInTime t)
    (hstep : s.step t = some s') : ∃ ts s'', Run AnyStep s' ts s'' ∧ ¬s''.SettingKept := by
  obtain rfl : t = .guest := by
    cases t with
    | guest => rfl
    | _ => exact absurd trivial hin
  obtain ⟨value, ctl, hguest⟩ : ∃ value ctl, s.guest = .ctlStore value ctl := by
    rw [StoresInTime] at hin
    split at hin
    · exact ⟨_, _, ‹_›⟩
    · exact ⟨_, _, ‹_›⟩
    · exact ⟨_, _, ‹_›⟩
    · exact ⟨_, _, ‹_›⟩
    · exact absurd trivial hin
  have hsame := h.store value ctl hguest
  rw [TimerSys.step, TimerSys.guestStep, hguest] at hstep
  have hs' := Option.some.inj hstep
  have hctl : s'.cntvCtl = ctl := by rw [← hs']
  have hlast : s'.lastCtl = value.toUInt8 := by rw [← hs']
  have hguest' : s'.guest = .ctlEnabled := by rw [← hs']
  have hloop' : s'.loop = s.loop := by rw [← hs']
  rw [StoresInTime, hguest] at hin
  -- the loop puts back the settings of the byte it loaded
  have hback {v : UInt8} (set : Bool) (p : LoopPoint) (hother : ¬SameSetting ctl v)
      (hstore : s'.loopStep = some { s' with cntvCtl := CntvCtl.setStatus v set, loop := p }) :
      ∃ ts s'', Run AnyStep s' ts s'' ∧ ¬s''.SettingKept := by
    refine ⟨[.loop], _, .snoc .nil hstore, fun hkept => hother ⟨?_, ?_⟩⟩
    · rw [hsame.1, ← hlast]
      exact hkept.enabled.symm.trans enabled_setStatus
    · rw [hsame.2, ← hlast]
      exact hkept.masked.symm.trans masked_setStatus
  -- the loop waits without a deadline
  have hlost {u : TimerSys} (hu : u.cntvCtl = ctl ∧ u.lastCtl = value.toUInt8 ∧
      u.guest = .ctlEnabled) (hnot : ¬¬(status ctl = true ∧ canFire ctl = true))
      (hloop : ∃ timeout, u.loop = .waitingTimeout timeout) :
      ∃ ts s'', Run AnyStep u ts s'' ∧ ¬s''.SettingKept := by
    obtain ⟨hctl, hlast, hguest⟩ := hu
    obtain ⟨hstatus, hfire⟩ := not_not.1 hnot
    rw [← hctl] at hstatus hfire
    obtain ⟨ts, hrun⟩ := exists_run_waiting hguest hfire hstatus hloop
    refine ⟨ts, _, hrun, fun hkept => ?_⟩
    have hlastFire : canFire u.lastCtl = true := by
      rw [hlast, ← hsame.canFire_eq, ← hctl]
      exact hfire
    cases hkept.expiry rfl rfl rfl hlastFire
  cases hloop : s.loop with
  | clearStore v =>
      rw [hloop] at hin hloop'
      refine hback false .deassert hin ?_
      rw [TimerSys.loopStep, hloop']
  | setStore v =>
      rw [hloop] at hin hloop'
      refine hback true .topEnabled hin ?_
      rw [TimerSys.loopStep, hloop']
  | loadTimeout =>
      rw [hloop] at hin hloop'
      have hload : s'.loopStep = some { s' with loop := .waitingTimeout s'.cval } := by
        rw [TimerSys.loopStep, hloop']
      obtain ⟨ts, s'', hrun, hnot⟩ := hlost (u := { s' with loop := .waitingTimeout s'.cval })
        ⟨hctl, hlast, hguest'⟩ hin ⟨_, rfl⟩
      exact ⟨.loop :: ts, s'', hrun.cons hload, hnot⟩
  | waitingTimeout timeout =>
      rw [hloop] at hin hloop'
      exact hlost ⟨hctl, hlast, hguest'⟩ hin ⟨timeout, hloop'⟩
  | _ =>
      rw [hloop] at hin
      exact absurd trivial hin

/-- **The settings and the expiry are kept** in every run in which the guest's stores meet the
condition, and one that does not can be followed by turns after which they are lost. -/
theorem setting_kept {ts : List TimerTurn} (h : Run KeptStep init ts s) :
    s.SettingKept ∧ ∀ t s', ¬s.StoresInTime t → s.step t = some s' →
      ∃ ts' s'', Run AnyStep s' ts' s'' ∧ ¬s''.SettingKept := by
  have hinv : s.Inv := h.invariant (fun _ _ _ hu hstep => hu.step hstep.1 hstep.2) inv_init
  exact ⟨hinv.settingKept, fun t s' hin hstep => hinv.exists_lost hin hstep⟩

/-- The guest enables the timer, and its interrupt is asserted when the deadline is over. -/
def expiry : List TimerTurn :=
  [.loop, .write (.cval 100), .guest, .guest, .guest, .write (.ctl 1), .guest, .guest, .guest,
    .guest, .guest, .loop, .loop, .loop, .loop, .loop, .loop, .loop, .loop, .timeout, .loop, .loop,
    .loop, .assertIrq true, .loop, .loop, .loop, .loop, .loop]

/-- The settings are kept when the timer is used once. -/
theorem setting_kept_expiry : ∃ s, Run KeptStep init expiry s ∧ s.loop = .waiting ∧
    s.asserted = true ∧ s.SettingKept := by
  have hrun : Run _ init expiry _ :=
    Run.of_foldlM (f := fun u t => if StoresInTime u t then step u t else none) rfl
  have hkept := hrun.mono fun u t v hstep => show KeptStep u t v by
    split_ifs at hstep with hin
    exact ⟨hin, hstep⟩
  exact ⟨_, hkept, rfl, rfl, (setting_kept hkept).1⟩

/-- The guest enables the timer, and disables it when the loop, which it has woken, is about to
store the byte. -/
def settingLost : List TimerTurn :=
  [.loop, .write (.ctl 1), .guest, .guest, .guest, .guest, .guest, .loop, .loop,
    .write (.ctl 0), .guest, .guest, .loop]

/-- After an interrupt the guest sets a new deadline and enables the timer once more. The loop
clears the status bit after the guest has loaded it, and the guest stores it when the loop waits. -/
def expiryLost : List TimerTurn :=
  expiry ++ [.write (.cval 200), .guest, .guest, .guest, .write (.ctl 1), .guest, .loop, .loop,
    .loop, .loop, .loop, .loop, .loop, .loop, .guest, .guest, .guest, .guest, .loop, .loop, .loop,
    .loop, .loop]

/-- The timer that the guest has disabled last is enabled, and the loop waits without a deadline for
the guest, which has enabled it. -/
theorem setting_and_expiry_lost :
    (∃ s, Run AnyStep init settingLost s ∧ enabled s.lastCtl = false ∧ enabled s.cntvCtl = true) ∧
      ∃ s, Run AnyStep init expiryLost s ∧ s.guest = .idle ∧ s.waitTimer.signaled = false ∧
        s.loop = .waiting ∧ canFire s.lastCtl = true ∧ s.asserted = false :=
  ⟨⟨_, .of_foldlM rfl, rfl, rfl⟩, _, .of_foldlM rfl, rfl, rfl, rfl, rfl, rfl⟩

end TimerSys

end Vml
