import Vml.CpuFeature
import Vml.Lib.Run
import Vml.SysRegs

/-!
# Accesses to the system registers

What the objects of `SysRegs` do with the accesses that the bus passes on, with all that they reach:
the request of every vCPU to have its virtual memory registers trapped (`_tvm`), its `SCTLR_EL1`,
the timer and the distributor. In between the introspection makes requests of its own, the vCPUs
change what is not trapped, and the clock and the timer loop go on.

**The registers are masked words.** A `Register` holds what was written to its id last, where its
mask allows that, and its reset value elsewhere. No access to another id and nothing else in between
changes it.

Main result: `RegSys.register_read`.
-/

namespace Vml

/-- `is_requested_by`. -/
def CpuFeature.isRequestedBy (f : CpuFeature) (r : Requestor) : Bool :=
  f.requests r &&& enableMask != 0

/-- `request`. -/
def CpuFeature.request (f : CpuFeature) (enable : Bool) (r : Requestor) (regs : UInt64) :
    CpuFeature := (f.store r enable regs).forceReconfiguration

namespace Msr

open Vbus (Access)

/-- `Vbus::Err`. -/
inductive Err
  | ok
  | noOp
  | accessErr
  | updateRegister
  | noDevice
  deriving DecidableEq, Repr

/-- `Register::access`: what it returns, the value and the register afterwards. -/
def Register.access (r : Register) (access : Access) (value : UInt64) : Err × UInt64 × Register :=
  if access = .write ∧ ¬r.writable then (.accessErr, value, r)
  else if access = .write then
    if r.errOnWriteReserved ∧ value &&& ~~~r.writeMask ≠ 0 then (.accessErr, value, r)
    else (.ok, value, { r with value := registerWrite r.writeMask r.value value })
  else (.ok, r.value, r)

/-- `Register::reset`. -/
def Register.reset (r : Register) : Register := { r with value := r.resetValue }

/-- `reset` of an object. -/
def RegObj.reset {ρ : Type*} : RegObj ρ → RegObj ρ
  | register r => .register r.reset
  | setWayFlush r => .setWayFlush r.reset
  | cntpTval r => .cntpTval r.reset
  | cntpCtl r => .cntpCtl r.reset
  | cntpCval r => .cntpCval r.reset
  | ccsidr csselr clidr sizes => .ccsidr csselr clidr sizes
  | iccSgi1r => .iccSgi1r
  | wtrapped => .wtrapped
  | sctlr => .sctlr
  | cntpct => .cntpct

/-- What the registers have had done elsewhere. -/
inductive RegEffect
  /-- `flush_callback` for every device of the bus. -/
  | flushGuestAs (vcpu : ℕ)
  /-- `icc_sgi1r_el1`. -/
  | sgi (value : UInt64) (vcpu : ℕ)
  deriving DecidableEq, Repr

/-- The registers with what they reach. `done` is a history variable. -/
structure RegSys (ρ : Type*) where
  regs : SysRegs ρ
  tvm : ℕ → CpuFeature := fun _ => {}
  sctlr : ℕ → UInt64 := fun _ => 0
  cntvoff : ℕ → UInt64 := fun _ => 0
  clock : UInt64 := 0
  ctl : UInt8 := 0
  cval : UInt64 := 0
  done : List RegEffect := []

/-- What happens. -/
inductive RegAct
  | access (vcpu : ℕ) (access : Access) (id val : UInt64)
  /-- `BaseBus::reset`. -/
  | reset
  /-- The introspection requests the trap, or takes that back. -/
  | vmiTvm (vcpu : ℕ) (enable : Bool) (regs : UInt64)
  /-- The vCPU takes note of the requests. -/
  | clean (vcpu : ℕ)
  /-- `SCTLR_EL1` has a new value. -/
  | setSctlr (vcpu : ℕ) (value : UInt64)
  | setCntvoff (vcpu : ℕ) (value : UInt64)
  | tick (clock : UInt64)
  /-- The timer loop sets the status of the timer, or clears it. -/
  | timerStatus (set : Bool)
  deriving DecidableEq, Repr

/-- `SctlrEl1::cache_enabled`. -/
def cacheEnabled (sctlr : UInt64) : Bool := sctlr &&& 0x4 != 0 && sctlr &&& 0x1 != 0

/-- What `Ccsidr` answers for a level, if there is one. -/
def ccsidrValue (clidr : UInt64) (sizes : ℕ → UInt64) (el : UInt64) : Option UInt64 :=
  let instr := el &&& 0x1 != 0
  let level := ((el >>> 1) &&& 0x7).toNat
  if level > 6 then none
  else
    let ce := (clidr >>> UInt64.ofNat (level * 3)) &&& 0b111
    if ce = 0 ∨ ce = 2 ∧ instr then some 0xffffffff
    else if ce = 1 ∨ ce = 3 ∧ instr then some (sizes (level * 2 + 1))
    else some (sizes (level * 2))

namespace RegSys

variable {ρ : Type*} [LinearOrder ρ]

/-- The object at a place is another one. -/
def setObj (s : RegSys ρ) (r : ρ) (o : RegObj ρ) : RegSys ρ :=
  { s with regs := { s.regs with obj := Function.update s.regs.obj r o } }

/-- The bus has traced an access. -/
def withBus (s : RegSys ρ) (bus : BaseBus ρ) : RegSys ρ :=
  { s with regs := { s.regs with bus := bus } }

/-- `SetWayFlushReg::flush`. -/
def flush (s : RegSys ρ) (vcpu : ℕ) : RegSys ρ :=
  if (s.tvm vcpu).isRequestedBy .vmm then s
  else { s with tvm := Function.update s.tvm vcpu ((s.tvm vcpu).request true .vmm 0) }

/-- `flush_on_cache_toggle`. -/
def flushOnCacheToggle (s : RegSys ρ) (vcpu : ℕ) (newValue : UInt64) : RegSys ρ :=
  if !(s.tvm vcpu).isRequestedBy .vmm then s
  else
    let before := cacheEnabled (s.sctlr vcpu)
    let after := cacheEnabled newValue
    let s := if before ≠ after then { s with done := s.done ++ [.flushGuestAs vcpu] } else s
    if after then
      { s with tvm := Function.update s.tvm vcpu ((s.tvm vcpu).request false .vmm 0) }
    else s

/-- `access` of the object at a place: what it returns, and the value afterwards. There is no result
where an assertion fails. -/
def accessObj (s : RegSys ρ) (r : ρ) (vcpu : ℕ) (access : Access) (value : UInt64) :
    Option (Err × UInt64 × RegSys ρ) :=
  match s.regs.obj r with
  | .register reg =>
      let (err, value, reg) := reg.access access value
      some (err, value, s.setObj r (.register reg))
  | .setWayFlush reg =>
      let (err, value, reg) := reg.access access value
      let s := s.setObj r (.setWayFlush reg)
      some (err, value, if access = .write then s.flush vcpu else s)
  | .ccsidr csselr clidr sizes =>
      if access = .write then some (.accessErr, value, s)
      else
        match s.regs.obj csselr with
        | .register c =>
            match ccsidrValue clidr sizes (c.access access 0).2.1 with
            | none => some (.accessErr, value, s)
            | some value => some (.ok, value, s)
        | _ => none
  | .iccSgi1r =>
      if access ≠ .write then some (.accessErr, value, s)
      else some (.ok, value, { s with done := s.done ++ [.sgi value vcpu] })
  | .wtrapped => if access = .write then some (.updateRegister, value, s) else none
  | .sctlr =>
      if access = .write then some (.updateRegister, value, s.flushOnCacheToggle vcpu value)
      else none
  | .cntpct =>
      if access ≠ .read then some (.accessErr, value, s)
      else some (.ok, s.clock - s.cntvoff vcpu, s)
  | .cntpTval _ =>
      if access = .read then
        some (.ok, (s.cval - (s.clock - s.cntvoff vcpu)) &&& 0xffffffff, s)
      else if access = .write then
        some (.ok, value, { s with cval := s.clock + tvalOffset value })
      else some (.accessErr, value, s)
  | .cntpCtl reg =>
      let (err, value, reg) := { reg with value := s.ctl.toUInt64 }.access access value
      let s := s.setObj r (.cntpCtl reg)
      some (err, value,
        if err = .ok ∧ access = .write then { s with ctl := reg.value.toUInt8 } else s)
  | .cntpCval reg =>
      let (err, value, reg) := { reg with value := s.cval }.access access value
      let s := s.setObj r (.cntpCval reg)
      some (err, value, if err = .ok ∧ access = .write then { s with cval := reg.value } else s)

/-- `BaseBus::access`. -/
def access (s : RegSys ρ) (vcpu : ℕ) (access : Access) (id val : UInt64) :
    Option (Err × UInt64 × RegSys ρ) :=
  match s.regs.bus.access access id val with
  | (.assertFails, _) => none
  | (.noDevice, _) => some (.noDevice, val, s)
  | (.register r access val, bus) => (s.withBus bus).accessObj r vcpu access val

/-- `BaseBus::reset`. -/
def reset (s : RegSys ρ) : RegSys ρ :=
  let resetObj (obj : ρ → RegObj ρ) (r : ρ) := Function.update obj r (obj r).reset
  { s with regs := { s.regs with obj := s.regs.bus.reset.foldl resetObj s.regs.obj } }

/-- What comes after an act, if no assertion fails. -/
def next (s : RegSys ρ) : RegAct → Option (RegSys ρ)
  | .access vcpu access id val => (s.access vcpu access id val).map fun res => res.2.2
  | .reset => some s.reset
  | .vmiTvm vcpu enable regs =>
      some { s with tvm := Function.update s.tvm vcpu ((s.tvm vcpu).request enable .vmi regs) }
  | .clean vcpu => some { s with tvm := Function.update s.tvm vcpu (s.tvm vcpu).clean }
  | .setSctlr vcpu value => some { s with sctlr := Function.update s.sctlr vcpu value }
  | .setCntvoff vcpu value => some { s with cntvoff := Function.update s.cntvoff vcpu value }
  | .tick clock => some { s with clock := clock }
  | .timerStatus set => some { s with ctl := CntvCtl.setStatus s.ctl set }

/-! ## One step -/

section Step

variable {s s' : RegSys ρ} {r r' : ρ} {vcpu : ℕ} {a : Access} {id value value' : UInt64} {err : Err}

@[simp] theorem bus_setObj (o : RegObj ρ) : (s.setObj r o).regs.bus = s.regs.bus := rfl

@[simp] theorem obj_setObj_self (o : RegObj ρ) : (s.setObj r o).regs.obj r = o :=
  Function.update_self ..

theorem obj_setObj_of_ne (hr : r' ≠ r) (o : RegObj ρ) :
    (s.setObj r o).regs.obj r' = s.regs.obj r' := Function.update_of_ne hr ..

omit [LinearOrder ρ] in
@[simp] theorem regs_flush : (s.flush vcpu).regs = s.regs := by
  unfold flush
  split_ifs <;> rfl

omit [LinearOrder ρ] in
@[simp] theorem regs_flushOnCacheToggle : (s.flushOnCacheToggle vcpu value).regs = s.regs := by
  unfold flushOnCacheToggle
  dsimp only
  split_ifs <;> rfl

theorem resetValue_access (reg : Register) : (reg.access a value).2.2.reset = reg.reset := by
  unfold Register.access
  split_ifs <;> rfl

/-- What an access to an object leaves as it is. -/
structure Frame (r : ρ) (s s' : RegSys ρ) : Prop where
  bus : s'.regs.bus = s.regs.bus
  others : ∀ r' ≠ r, s'.regs.obj r' = s.regs.obj r'
  reset : (s'.regs.obj r).reset = (s.regs.obj r).reset

omit [LinearOrder ρ] in
theorem Frame.of_regs (h : s'.regs = s.regs) : Frame r s s' :=
  ⟨by rw [h], fun _ _ => by rw [h], by rw [h]⟩

theorem Frame.of_setObj {o : RegObj ρ} (h : s'.regs = (s.setObj r o).regs)
    (ho : o.reset = (s.regs.obj r).reset) : Frame r s s' := by
  refine ⟨by rw [h, bus_setObj], fun r' hr => ?_, ?_⟩
  · rw [h, obj_setObj_of_ne hr]
  · rw [h, obj_setObj_self, ho]

theorem accessObj_register {reg : Register} (hobj : s.regs.obj r = .register reg) :
    s.accessObj r vcpu a value = some ((reg.access a value).1, (reg.access a value).2.1,
      s.setObj r (.register (reg.access a value).2.2)) := by
  simp only [accessObj, hobj]

theorem accessObj_setWayFlush {reg : Register} (hobj : s.regs.obj r = .setWayFlush reg) :
    s.accessObj r vcpu a value = some ((reg.access a value).1, (reg.access a value).2.1,
      let s := s.setObj r (.setWayFlush (reg.access a value).2.2)
      if a = .write then s.flush vcpu else s) := by
  simp only [accessObj, hobj]

theorem accessObj_cntpCtl {reg : Register} (hobj : s.regs.obj r = .cntpCtl reg) :
    s.accessObj r vcpu a value =
      let res := { reg with value := s.ctl.toUInt64 }.access a value
      let s := s.setObj r (.cntpCtl res.2.2)
      some (res.1, res.2.1,
        if res.1 = .ok ∧ a = .write then { s with ctl := res.2.2.value.toUInt8 } else s) := by
  simp only [accessObj, hobj]

theorem accessObj_cntpCval {reg : Register} (hobj : s.regs.obj r = .cntpCval reg) :
    s.accessObj r vcpu a value =
      let res := { reg with value := s.cval }.access a value
      let s := s.setObj r (.cntpCval res.2.2)
      some (res.1, res.2.1,
        if res.1 = .ok ∧ a = .write then { s with cval := res.2.2.value } else s) := by
  simp only [accessObj, hobj]

theorem accessObj_ccsidr {csselr : ρ} {clidr : UInt64} {sizes : ℕ → UInt64} {c : Register}
    (hobj : s.regs.obj r = .ccsidr csselr clidr sizes) (hsel : s.regs.obj csselr = .register c)
    (ha : a ≠ .write) :
    s.accessObj r vcpu a value = some ((ccsidrValue clidr sizes c.value).elim
      (.accessErr, value, s) fun value => (.ok, value, s)) := by
  have hread : (c.access a 0).2.1 = c.value := by
    rw [Register.access, if_neg fun h => ha h.1, if_neg ha]
  simp only [accessObj, hobj, hsel, if_neg ha, hread]
  cases ccsidrValue clidr sizes c.value <;> rfl

/-- **An access to an object** changes no other one, and nothing that outlives a reset. -/
theorem accessObj_frame (h : s.accessObj r vcpu a value = some (err, value', s')) :
    Frame r s s' := by
  cases hobj : s.regs.obj r with
  | register reg =>
      rw [accessObj_register hobj, Option.some.injEq, Prod.mk.injEq, Prod.mk.injEq] at h
      obtain ⟨-, -, rfl⟩ := h
      exact .of_setObj rfl (by rw [hobj, RegObj.reset, RegObj.reset, resetValue_access])
  | setWayFlush reg =>
      rw [accessObj_setWayFlush hobj, Option.some.injEq, Prod.mk.injEq, Prod.mk.injEq] at h
      obtain ⟨-, -, rfl⟩ := h
      refine .of_setObj (o := .setWayFlush (reg.access a value).2.2) ?_ ?_
      · dsimp only
        split_ifs
        · exact regs_flush
        · rfl
      · rw [hobj, RegObj.reset, RegObj.reset, resetValue_access]
  | ccsidr csselr clidr sizes =>
      simp only [accessObj, hobj] at h
      split_ifs at h with ha
      · cases h
        exact .of_regs rfl
      · split at h
        · split at h <;> cases h <;> exact .of_regs rfl
        · exact absurd h nofun
  | cntpCtl reg =>
      rw [accessObj_cntpCtl hobj, Option.some.injEq, Prod.mk.injEq, Prod.mk.injEq] at h
      obtain ⟨-, -, rfl⟩ := h
      refine .of_setObj (o := .cntpCtl ({ reg with value := s.ctl.toUInt64 }.access a value).2.2)
        ?_ ?_
      · split_ifs <;> rfl
      · rw [hobj, RegObj.reset, RegObj.reset, resetValue_access]
        rfl
  | cntpCval reg =>
      rw [accessObj_cntpCval hobj, Option.some.injEq, Prod.mk.injEq, Prod.mk.injEq] at h
      obtain ⟨-, -, rfl⟩ := h
      refine .of_setObj (o := .cntpCval ({ reg with value := s.cval }.access a value).2.2) ?_ ?_
      · split_ifs <;> rfl
      · rw [hobj, RegObj.reset, RegObj.reset, resetValue_access]
        rfl
  | sctlr =>
      simp only [accessObj, hobj] at h
      split_ifs at h
      cases h
      exact .of_regs regs_flushOnCacheToggle
  | iccSgi1r | wtrapped | cntpct | cntpTval reg =>
      simp only [accessObj, hobj] at h
      split_ifs at h <;> cases h <;> exact .of_regs rfl

theorem access_found (ha : a ≠ .exec) (hr : s.regs.bus.getDeviceAt id = some r) :
    ∃ bus, bus.devices = s.regs.bus.devices ∧ ∀ vcpu value,
      s.access vcpu a id value = (s.withBus bus).accessObj r vcpu a value := by
  have hget : s.regs.bus.devices.get id = some r := hr
  refine ⟨if s.regs.bus.trace then s.regs.bus.logTraceInfo r else s.regs.bus, ?_,
    fun vcpu value => ?_⟩
  · split_ifs
    · exact BaseBus.devices_logTraceInfo
    · rfl
  · unfold RegSys.access BaseBus.access
    rw [if_neg ha, hget]

/-- **An access** is answered by the object that its id leads to, if there is one. -/
theorem access_cases (h : s.access vcpu a id value = some (err, value', s')) :
    s.regs.bus.getDeviceAt id = none ∧ err = .noDevice ∧ value' = value ∧ s' = s ∨
      ∃ r bus, s.regs.bus.getDeviceAt id = some r ∧ bus.devices = s.regs.bus.devices ∧
        (s.withBus bus).accessObj r vcpu a value = some (err, value', s') := by
  by_cases ha : a = .exec
  · rw [RegSys.access, BaseBus.access, if_pos ha] at h
    cases h
  · cases hget : s.regs.bus.getDeviceAt id with
    | none =>
        have hnone : s.regs.bus.devices.get id = none := hget
        rw [RegSys.access, BaseBus.access, if_neg ha, hnone] at h
        cases h
        exact .inl ⟨rfl, rfl, rfl, rfl⟩
    | some r =>
        obtain ⟨bus, hbus, hacc⟩ := access_found ha hget
        exact .inr ⟨r, bus, rfl, hbus, hacc vcpu value ▸ h⟩

/-- A reset reaches every object of the bus, and no other one. -/
theorem obj_foldl_reset (rs : List ρ) (obj : ρ → RegObj ρ) (r : ρ) :
    rs.foldl (fun obj r => Function.update obj r (obj r).reset) obj r =
      if r ∈ rs then (obj r).reset else obj r := by
  have hidem (o : RegObj ρ) : o.reset.reset = o.reset := by cases o <;> rfl
  induction rs generalizing obj with
  | nil => rw [List.foldl_nil, if_neg List.not_mem_nil]
  | cons r' rs ih =>
      rw [List.foldl_cons, ih]
      by_cases hr : r = r'
      · subst hr
        rw [Function.update_self, hidem, ite_self, if_pos List.mem_cons_self]
      · rw [Function.update_of_ne hr]
        simp only [List.mem_cons, hr, false_or]

theorem obj_reset (s : RegSys ρ) (r : ρ) : s.reset.regs.obj r =
    if r ∈ s.regs.bus.devices.set then (s.regs.obj r).reset else s.regs.obj r :=
  obj_foldl_reset _ _ _

/-- **A step** leaves what is registered, and what the objects are reset to. -/
theorem next_frame {act : RegAct} (h : s.next act = some s') :
    s'.regs.bus.devices = s.regs.bus.devices ∧
      ∀ r, (s'.regs.obj r).reset = (s.regs.obj r).reset := by
  have hidem (o : RegObj ρ) : o.reset.reset = o.reset := by cases o <;> rfl
  cases act with
  | access vcpu a id val =>
      obtain ⟨⟨err, value, t⟩, hacc, rfl⟩ := Option.map_eq_some_iff.1 h
      obtain ⟨-, -, -, rfl⟩ | ⟨r, bus, -, hbus, hobj⟩ := access_cases hacc
      · exact ⟨rfl, fun _ => rfl⟩
      · have hframe := accessObj_frame hobj
        refine ⟨by rw [hframe.bus]; exact hbus, fun r' => ?_⟩
        by_cases hr : r' = r
        · rw [hr, hframe.reset]
          rfl
        · rw [hframe.others r' hr]
          rfl
  | reset =>
      cases h
      refine ⟨rfl, fun r => ?_⟩
      rw [obj_reset]
      split_ifs
      · exact hidem _
      · rfl
  | vmiTvm vcpu enable regs => cases h; exact ⟨rfl, fun _ => rfl⟩
  | clean vcpu => cases h; exact ⟨rfl, fun _ => rfl⟩
  | setSctlr vcpu value => cases h; exact ⟨rfl, fun _ => rfl⟩
  | setCntvoff vcpu value => cases h; exact ⟨rfl, fun _ => rfl⟩
  | tick clock => cases h; exact ⟨rfl, fun _ => rfl⟩
  | timerStatus set => cases h; exact ⟨rfl, fun _ => rfl⟩

end Step

end RegSys

/-! ## The registers are masked words -/

namespace Register

/-- What happens to a register that is found by an id. -/
def step (reg : Register) (k : UInt64) : RegAct → Register
  | .access _ a id val => if id = k then (reg.access a val).2.2 else reg
  | .reset => reg.reset
  | _ => reg

/-- A value that can be written. -/
def accepts (reg : Register) (value : UInt64) : Bool :=
  reg.writable && !(reg.errOnWriteReserved && value &&& ~~~reg.writeMask != 0)

/-- What has been written last to an id, one step later. -/
def writeStep (reg : Register) (k : UInt64) (last : Option UInt64) : RegAct → Option UInt64
  | .access _ a id val => if id = k ∧ a = .write ∧ reg.accepts val then some val else last
  | .reset => none
  | _ => last

/-- What is written last to an id since it was reset. -/
def lastWrite (reg : Register) (k : UInt64) (acts : List RegAct) : Option UInt64 :=
  acts.foldl (reg.writeStep k) none

/-- What a register holds after that. -/
def contents (reg : Register) : Option UInt64 → UInt64
  | none => reg.resetValue
  | some value => (value &&& reg.writeMask) ||| (reg.resetValue &&& ~~~reg.writeMask)

variable {reg : Register} {k value : UInt64} {a : Access}

theorem registerWrite_eq (mask current value : UInt64) :
    registerWrite mask current value = (value &&& mask) ||| (current &&& ~~~mask) := by
  refine UInt64.toBitVec_inj.1 (BitVec.eq_of_getElem_eq fun i hi => ?_)
  simp only [registerWrite, UInt64.toBitVec_and, UInt64.toBitVec_or, UInt64.toBitVec_not,
    UInt64.toBitVec_xor, BitVec.getElem_and, BitVec.getElem_or, BitVec.getElem_not,
    BitVec.getElem_xor]
  cases current.toBitVec[i] <;> cases value.toBitVec[i] <;> cases mask.toBitVec[i] <;> rfl

theorem registerWrite_registerWrite (mask current first value : UInt64) :
    registerWrite mask (registerWrite mask current first) value =
      registerWrite mask current value := by
  refine UInt64.toBitVec_inj.1 (BitVec.eq_of_getElem_eq fun i hi => ?_)
  simp only [registerWrite_eq, UInt64.toBitVec_and, UInt64.toBitVec_or, UInt64.toBitVec_not,
    BitVec.getElem_and, BitVec.getElem_or, BitVec.getElem_not]
  cases current.toBitVec[i] <;> cases first.toBitVec[i] <;> cases value.toBitVec[i] <;>
    cases mask.toBitVec[i] <;> rfl

theorem access_of_accepts (h : reg.accepts value = true) :
    reg.access .write value =
      (.ok, value, { reg with value := registerWrite reg.writeMask reg.value value }) := by
  simp only [accepts, Bool.and_eq_true, Bool.not_eq_true', Bool.and_eq_false_iff] at h
  obtain ⟨hwritable, hreserved⟩ := h
  rw [access, if_neg (by simp [hwritable]), if_pos rfl, if_neg]
  rintro ⟨herr, hne⟩
  obtain hreserved | hreserved := hreserved
  · rw [herr] at hreserved
    exact absurd hreserved nofun
  · exact absurd hreserved (by simpa using hne)

theorem access_of_not_accepts (h : ¬(a = .write ∧ reg.accepts value = true)) :
    (reg.access a value).2.2 = reg := by
  unfold access
  split_ifs with hw ha hres
  · rfl
  · rfl
  · refine absurd ⟨ha, ?_⟩ h
    simp only [accepts, Bool.and_eq_true, Bool.not_eq_true', Bool.and_eq_false_iff]
    refine ⟨by simpa [ha] using hw, ?_⟩
    by_cases herr : reg.errOnWriteReserved = true
    · exact .inr (by simpa [herr] using hres)
    · exact .inl (by simpa using herr)
  · rfl

theorem step_contents (last : Option UInt64) (act : RegAct) :
    { reg with value := reg.contents last }.step k act =
      { reg with value := reg.contents (reg.writeStep k last act) } := by
  cases act with
  | access vcpu a id val =>
      rw [step, writeStep]
      by_cases hid : id = k
      · rw [if_pos hid]
        by_cases hacc : a = .write ∧ reg.accepts val = true
        · obtain ⟨rfl, hval⟩ := hacc
          rw [access_of_accepts (by exact hval), if_pos ⟨hid, rfl, hval⟩]
          cases last with
          | none => simp only [contents, registerWrite_eq]
          | some first =>
              simp only [contents]
              rw [← registerWrite_eq, ← registerWrite_eq, registerWrite_registerWrite]
        · rw [access_of_not_accepts (by exact hacc), if_neg fun h => hacc h.2]
      · rw [if_neg hid, if_neg fun h => hid h.1]
  | reset => rfl
  | vmiTvm vcpu enable regs => rfl
  | clean vcpu => rfl
  | setSctlr vcpu value => rfl
  | setCntvoff vcpu value => rfl
  | tick clock => rfl
  | timerStatus set => rfl

/-- **A run** leaves the register with what was written last. -/
theorem foldl_step (hreset : reg.reset = reg) (acts : List RegAct) :
    acts.foldl (fun r act => r.step k act) reg =
      { reg with value := reg.contents (reg.lastWrite k acts) } := by
  induction acts using List.reverseRecOn with
  | nil => exact hreset.symm
  | append_singleton acts act ih =>
      rw [List.foldl_append, List.foldl_cons, List.foldl_nil, ih, step_contents, lastWrite,
        lastWrite, List.foldl_append]
      rfl

end Register

namespace RegSys

variable {ρ : Type*} [LinearOrder ρ] {s s' : RegSys ρ} {r : ρ} {vcpu : ℕ} {a : Access}
  {id k value : UInt64} {reg : Register} {acts : List RegAct}

theorem eq_of_getDeviceAt (h : s.regs.bus.devices.Sound) (hid : s.regs.bus.getDeviceAt id = some r)
    (hk : s.regs.bus.getDeviceAt k = some r) : id = k :=
  (h.get_eq_some_iff.1 hid).2.symm.trans (h.get_eq_some_iff.1 hk).2

/-- **A step** of a register is an access to its id, or a reset. -/
theorem next_register (hsound : s.regs.bus.devices.Sound)
    (hk : s.regs.bus.getDeviceAt k = some r) (hreg : s.regs.obj r = .register reg) {act : RegAct}
    (h : s.next act = some s') : s'.regs.obj r = .register (reg.step k act) := by
  cases act with
  | access vcpu a id val =>
      obtain ⟨⟨err, value, t⟩, hacc, rfl⟩ := Option.map_eq_some_iff.1 h
      obtain ⟨hnone, -, -, rfl⟩ | ⟨r', bus, hr', hbus, hobj⟩ := access_cases hacc
      · have hne : id ≠ k := fun heq => by
          rw [heq, hk] at hnone
          exact absurd hnone nofun
        rw [Register.step, if_neg hne]
        exact hreg
      · by_cases hid : id = k
        · subst hid
          obtain rfl : r = r' := by rw [hk, Option.some.injEq] at hr'; exact hr'
          rw [accessObj_register (s := s.withBus bus) hreg, Option.some.injEq, Prod.mk.injEq,
            Prod.mk.injEq] at hobj
          obtain ⟨-, -, rfl⟩ := hobj
          rw [obj_setObj_self, Register.step, if_pos rfl]
        · have hne : r ≠ r' := fun heq => hid (eq_of_getDeviceAt hsound (heq ▸ hr') hk)
          rw [(accessObj_frame hobj).others r hne, Register.step, if_neg hid]
          exact hreg
  | reset =>
      cases h
      rw [obj_reset, if_pos (hsound.get_eq_some_iff.1 hk).1, hreg]
      rfl
  | vmiTvm vcpu enable regs => cases h; exact hreg
  | clean vcpu => cases h; exact hreg
  | setSctlr vcpu value => cases h; exact hreg
  | setCntvoff vcpu value => cases h; exact hreg
  | tick clock => cases h; exact hreg
  | timerStatus set => cases h; exact hreg

/-- What is registered, and what the objects are reset to, at the end of a run. -/
theorem run_frame (h : acts.foldlM next s = some s') :
    s'.regs.bus.devices = s.regs.bus.devices ∧
      ∀ r, (s'.regs.obj r).reset = (s.regs.obj r).reset := by
  refine @Run.invariant _ _ _ (fun t => t.regs.bus.devices = s.regs.bus.devices ∧
    ∀ r, (t.regs.obj r).reset = (s.regs.obj r).reset) _ _ _ (fun t act t' ht hstep => ?_)
    (Run.of_foldlM h) ⟨rfl, fun _ => rfl⟩
  obtain ⟨hdevices, hreset⟩ := next_frame hstep
  exact ⟨hdevices.trans ht.1, fun r => (hreset r).trans (ht.2 r)⟩

theorem run_register (hsound : s.regs.bus.devices.Sound) (hk : s.regs.bus.getDeviceAt k = some r)
    (hreg : s.regs.obj r = .register reg) (h : acts.foldlM next s = some s') :
    s'.regs.obj r = .register (acts.foldl (fun reg act => reg.step k act) reg) := by
  induction acts generalizing s reg with
  | nil => cases h; exact hreg
  | cons act acts ih =>
      rw [List.foldlM_cons, Option.bind_eq_bind, Option.bind_eq_some_iff] at h
      obtain ⟨t, hstep, hrest⟩ := h
      have hdevices := (next_frame hstep).1
      refine ih (by rwa [hdevices]) ?_ (next_register hsound hk hreg hstep) hrest
      rw [BaseBus.getDeviceAt, hdevices]
      exact hk

theorem access_register (hk : s.regs.bus.getDeviceAt k = some r)
    (hreg : s.regs.obj r = .register reg) (vcpu : ℕ) (value : UInt64) :
    ∃ t, s.access vcpu .read k value = some (.ok, reg.value, t) := by
  obtain ⟨bus, -, hacc⟩ := access_found (a := .read) (by decide) hk
  exact ⟨_, (hacc vcpu value).trans (accessObj_register (s := s.withBus bus) hreg)⟩

theorem next_register_write (hk : s.regs.bus.getDeviceAt k = some r)
    (hreg : s.regs.obj r = .register reg) (vcpu : ℕ) (value : UInt64) :
    ∃ t, s.next (.access vcpu .write k value) = some t := by
  obtain ⟨bus, -, hacc⟩ := access_found (a := .write) (by decide) hk
  rw [RegSys.next, hacc, accessObj_register (s := s.withBus bus) hreg]
  exact ⟨_, rfl⟩

theorem run_getDeviceAt (h : acts.foldlM next s = some s') (k : UInt64) :
    s'.regs.bus.getDeviceAt k = s.regs.bus.getDeviceAt k := by
  rw [BaseBus.getDeviceAt, (run_frame h).1]
  rfl

/-- **A register is a masked word.** Whatever is done, a read of its id is answered with what was
written to this id last, of the values that can be written, since the bus was reset: the bits of the
mask, and those of the reset value elsewhere. -/
theorem register_read (hsound : s.regs.bus.devices.Sound)
    (hk : s.regs.bus.getDeviceAt k = some r) (hreg : s.regs.obj r = .register reg)
    (hreset : reg.reset = reg) (h : acts.foldlM next s = some s') (vcpu : ℕ) (value : UInt64) :
    ∃ t, s'.access vcpu .read k value = some (.ok, reg.contents (reg.lastWrite k acts), t) := by
  have hobj := run_register hsound hk hreg h
  rw [Register.foldl_step hreset] at hobj
  exact access_register ((run_getDeviceAt h k).trans hk) hobj vcpu value

/-- What one vCPU has written another one reads. -/
theorem register_read_written : ∃ s s' : RegSys ℕ,
    [.access 1 .write RegisterId.csselrEl1.toUInt64 5, .tick 3].foldlM next s = some s' ∧
      ∃ t, s'.access 0 .read RegisterId.csselrEl1.toUInt64 0 = some (.ok, 5, t) := by
  have hkinds : ([SysRegs.SetUpCall.cachingInfo {}].map SysRegs.SetUpCall.kind).Nodup := List.nodup_singleton _
  obtain ⟨u, -, hholds⟩ := SysRegs.holds_setUp (ρ := ℕ) Function.injective_id (fun _ => 0)
    (fun _ => .wtrapped) hkinds
  have hk : u.bus.getDeviceAt RegisterId.csselrEl1.toUInt64 = some 1 := hholds.found 1 (by decide)
  have hobj : u.obj 1 = .register (.new true 0) := hholds.obj 1 (by decide)
  obtain ⟨t, ht⟩ := next_register_write (s := { regs := u }) hk hobj 1 5
  have hrun : [.access 1 .write RegisterId.csselrEl1.toUInt64 5, .tick 3].foldlM next
      ({ regs := u } : RegSys ℕ) = some { t with clock := 3 } := by
    rw [List.foldlM_cons, ht]
    rfl
  exact ⟨_, _, hrun, register_read (s := { regs := u }) hholds.sound hk hobj rfl hrun 0 0⟩

end RegSys

end Msr

end Vml
