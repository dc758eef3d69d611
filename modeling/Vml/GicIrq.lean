import Mathlib.Data.Finset.Insert
import Mathlib.Tactic
import Vml.Platform

/-!
# Interrupts of the GIC

The state that `GicD` keeps for an interrupt (`gic.hpp`): where it is routed, whether it is pending
and injected (`IrqInjectionInfo`), and what the guest and the devices have set (`Irq`).

The injection info is one 64-bit word in the source, which is read, stored and compared at once.
Here it is a structure: bit 31 of the target says whether it is a vCPU or a set of vCPUs, and the
pending and the injected bits, eight of each, are sets of senders. Only SGIs without affinity
routing have other senders than 0.
-/

namespace Vml

/-! ## Numbers of interrupts -/

/-- `MAX_SGI`. -/
abbrev maxSgi : ℕ := 16

/-- `PPI_BASE`. -/
abbrev ppiBase : ℕ := maxSgi

/-- `MAX_PPI`. -/
abbrev maxPpi : ℕ := 16

/-- `SPI_BASE`. -/
abbrev spiBase : ℕ := ppiBase + maxPpi

/-- `MAX_SPI`. -/
abbrev maxSpi : ℕ := 992

/-- `MAX_IRQ_NO_LPI`. -/
abbrev maxIrqNoLpi : ℕ := 1020

/-- `LPI_BASE`. -/
abbrev lpiBase : ℕ := 8192

/-- `MAX_IRQ`. -/
abbrev maxIrq : ℕ := lpiBase + 1024

/-- `GICV2_MAX_CPUS`. -/
abbrev gicv2MaxCpus : ℕ := 8

/-! ## Targets -/

/-- `IrqTarget`. -/
inductive IrqTarget
  | cpuId (target : ℕ)
  | cpuSet (mask : ℕ)
  deriving DecidableEq, Repr

namespace IrqTarget

/-- `INVALID_TARGET`: all bits are set. -/
def invalid : IrqTarget := .cpuSet (2 ^ 31 - 1)

/-- `is_valid`. -/
def isValid (t : IrqTarget) : Bool := t != invalid

/-- `IrqTarget(CPU_ID, target)`. -/
def ofCpuId (target : ℕ) : IrqTarget := .cpuId (target % 2 ^ 31)

/-- `is_cpu_targeted`. The source asserts that a vCPU looked for in a set is below 8. -/
def isCpuTargeted (t : IrqTarget) (id : ℕ) : Bool :=
  match t with
  | .cpuId target => target == id
  | .cpuSet mask => decide (id < gicv2MaxCpus) && mask.testBit id

/-- `add_target_to_set`. -/
def addTargetToSet (t : IrqTarget) (id : ℕ) : IrqTarget :=
  match t with
  | .cpuId target => .cpuId target
  | .cpuSet mask => .cpuSet (mask ||| 1 <<< id)

end IrqTarget

/-! ## Injection -/

/-- `IrqInjectionInfo`, and the `IrqInjectionInfoUpdate` that is read from it and stored to it. -/
structure IrqInjectionInfo where
  target : IrqTarget := .cpuId 0
  pendingBits : Finset ℕ := ∅
  injectedBits : Finset ℕ := ∅
  deriving DecidableEq

namespace IrqInjectionInfo

variable (i : IrqInjectionInfo)

/-- `pending`. -/
def pending : Bool := i.pendingBits != ∅

/-- `in_injection`. -/
def inInjection : Bool := i.injectedBits != ∅

/-- `is_targeting_cpu`. -/
def isTargetingCpu (id : ℕ) : Bool := i.target.isCpuTargeted id

/-- `is_injected`. -/
def isInjected (sender : ℕ) : Bool := decide (sender ∈ i.injectedBits)

/-- `set_injected`. -/
def setInjected (sender : ℕ) : IrqInjectionInfo :=
  { i with injectedBits := insert sender i.injectedBits }

/-- `unset_injected`. -/
def unsetInjected (sender : ℕ) : IrqInjectionInfo :=
  { i with injectedBits := i.injectedBits.erase sender }

/-- `set_pending`. -/
def setPending (sender : ℕ) : IrqInjectionInfo :=
  { i with pendingBits := insert sender i.pendingBits }

/-- `unset_pending`. -/
def unsetPending (sender : ℕ) : IrqInjectionInfo :=
  { i with pendingBits := i.pendingBits.erase sender }

/-- `get_pending_sender_id`. The source asserts that there is one. -/
def getPendingSenderId : ℕ := ((List.range gicv2MaxCpus).find? (· ∈ i.pendingBits)).getD 0

/-- `get_injected_sender_id`, with `none` for `NO_INJECTION`. -/
def getInjectedSenderId : Option ℕ := (List.range gicv2MaxCpus).find? (· ∈ i.injectedBits)

/-- The info of an interrupt that has just been asserted. -/
def asserted (target : IrqTarget) : IrqInjectionInfo := { target, pendingBits := {0} }

/-- What `redirect_spi` makes of the info, unless it leaves it alone. -/
def redirected (target : IrqTarget) : Option IrqInjectionInfo :=
  if !i.pending || i.isInjected 0 then none else some (asserted target)

/-- What `assert_sgi` makes of the info, without affinity routing. -/
def sentBy (sender target : ℕ) : IrqInjectionInfo :=
  ({ i with target := .ofCpuId target }.unsetInjected sender).setPending sender

/-- What `pending_irq` makes of the info, unless the interrupt is not for the vCPU any more. -/
def injected (cpu : ℕ) : Option IrqInjectionInfo :=
  if !i.pending || !i.isTargetingCpu cpu then none
  else some (i.setInjected i.getPendingSenderId)

/-- What `update_inj_status_inactive` makes of the info, unless it leaves it alone. -/
def completed (cpu : ℕ) : Option IrqInjectionInfo :=
  match i.getInjectedSenderId with
  | none => none
  | some sender =>
      if !i.isTargetingCpu cpu then none
      else some ((i.unsetInjected sender).unsetPending sender)

end IrqInjectionInfo

/-- `IrqState`. -/
inductive IrqState
  | inactive
  | pending
  | active
  | activePending
  deriving DecidableEq, Repr

namespace IrqInjectionInfo

/-- What `update_inj_status_active_or_pending` makes of the info, unless it leaves it alone. -/
def cameBack (i : IrqInjectionInfo) (cpu : ℕ) (state : IrqState) (inInjection : Bool) :
    Option IrqInjectionInfo :=
  match i.getInjectedSenderId with
  | none => none
  | some sender =>
      if !i.isTargetingCpu cpu then none
      else
        let i := if inInjection then i else i.unsetInjected sender
        some (if state = .active then i.unsetPending sender else i)

/-- What `update_inj_status` makes of the info. -/
def updated (i : IrqInjectionInfo) (cpu : ℕ) (state : IrqState) (inInjection : Bool) :
    Option IrqInjectionInfo :=
  match state with
  | .inactive => i.completed cpu
  | _ => i.cameBack cpu state inInjection

/-! ### What coming back takes away -/

theorem pending_of_subset {i i' : IrqInjectionInfo} (h : i'.pendingBits ⊆ i.pendingBits)
    (hp : i'.pending = true) : i.pending = true := by
  rw [pending, bne_iff_ne] at hp ⊢
  intro hempty
  rw [hempty, Finset.subset_empty] at h
  exact hp h

/-- `i'` has the target of `i`, and no bit that `i` has not. -/
structure Lowers (i i' : IrqInjectionInfo) : Prop where
  target : i'.target = i.target
  pendingBits : i'.pendingBits ⊆ i.pendingBits
  injectedBits : i'.injectedBits ⊆ i.injectedBits

variable {i i' : IrqInjectionInfo}

theorem Lowers.refl (i : IrqInjectionInfo) : Lowers i i :=
  ⟨rfl, Finset.Subset.refl _, Finset.Subset.refl _⟩

theorem Lowers.unsetInjected (h : Lowers i i') (sender : ℕ) : Lowers i (i'.unsetInjected sender) :=
  { h with injectedBits := (Finset.erase_subset _ _).trans h.injectedBits }

theorem Lowers.unsetPending (h : Lowers i i') (sender : ℕ) : Lowers i (i'.unsetPending sender) :=
  { h with pendingBits := (Finset.erase_subset _ _).trans h.pendingBits }

theorem lowers_completed {cpu : ℕ} (h : i.completed cpu = some i') : Lowers i i' := by
  rw [completed] at h
  split at h
  · cases h
  · rename_i sender _
    split_ifs at h
    exact Option.some.inj h ▸ ((Lowers.refl i).unsetInjected sender).unsetPending sender

theorem lowers_cameBack {cpu : ℕ} {state : IrqState} {inInjection : Bool}
    (h : i.cameBack cpu state inInjection = some i') : Lowers i i' := by
  rw [cameBack] at h
  split at h
  · cases h
  · rename_i sender _
    have hunset : Lowers i (if inInjection then i else i.unsetInjected sender) := by
      split_ifs
      · exact .refl i
      · exact (Lowers.refl i).unsetInjected sender
    dsimp only at h
    generalize (if inInjection then i else i.unsetInjected sender) = j at h hunset
    split_ifs at h
    · exact Option.some.inj h ▸ hunset.unsetPending sender
    · exact Option.some.inj h ▸ hunset

theorem lowers_updated {cpu : ℕ} {state : IrqState} {inInjection : Bool}
    (h : i.updated cpu state inInjection = some i') : Lowers i i' := by
  cases state with
  | inactive => exact lowers_completed h
  | pending => exact lowers_cameBack h
  | active => exact lowers_cameBack h
  | activePending => exact lowers_cameBack h

end IrqInjectionInfo

/-! ## Interrupts -/

/-- `Irq`, less its id, which is where it is stored, and its statistics. -/
structure Irq where
  pintid : UInt16 := 0
  prio : UInt8 := 0
  target : UInt8 := 1
  lineAsserted : Bool := false
  swAsserted : Bool := false
  hwEdge : Bool := true
  swEdge : Bool := true
  enable : Bool := false
  group1 : Bool := false
  hw : Bool := false
  active : Bool := false
  injectionInfo : IrqInjectionInfo := {}
  routing : UInt64 := 0
  deriving DecidableEq

namespace Irq

/-- `configure_hw`. -/
def configureHw (irq : Irq) (hw : Bool) (pintid : UInt16) (edge : Bool) : Irq :=
  { irq with pintid, hwEdge := edge, swEdge := edge, hw }

/-- `set_encoded_edge`. -/
def setEncodedEdge (irq : Irq) (encodedEdge : UInt8) : Irq :=
  { irq with swEdge := encodedEdge &&& 2 != 0 }

/-- `pending`. -/
def pending (irq : Irq) : Bool :=
  (!irq.swEdge && irq.lineAsserted) || irq.swAsserted || irq.injectionInfo.pending

/-- `reset`. -/
def reset (irq : Irq) (t : UInt8) : Irq :=
  { irq with
    swEdge := irq.hwEdge
    target := t
    prio := 0
    active := false
    enable := false
    group1 := false
    injectionInfo := if irq.hw then irq.injectionInfo else {}
    routing := 0 }

/-- `routing.any`. -/
def routingAny (irq : Irq) : Bool := irq.routing >>> 31 &&& 1 != 0

/-- The affinity that `routing` names. -/
def routingAffinity (irq : Irq) : UInt32 :=
  let aff0 := irq.routing &&& 0xff
  let aff1 := irq.routing >>> 8 &&& 0xff
  let aff2 := irq.routing >>> 16 &&& 0xff
  let aff3 := irq.routing >>> 32 &&& 0x1f
  (aff3 <<< 24 ||| aff2 <<< 16 ||| aff1 <<< 8 ||| aff0).toUInt32

end Irq

/-- `Lr`: the list register for an interrupt. -/
def lr (state : IrqState) (irq : Irq) (vintid sender : ℕ) : UInt64 :=
  let stateBits : UInt64 := match state with
    | .inactive => 0
    | .pending => 1
    | .active => 2
    | .activePending => 3
  let source : UInt64 :=
    if irq.hw then (irq.pintid &&& 0x3ff).toUInt64 <<< 32
    else if vintid < maxSgi then (UInt64.ofNat sender &&& 7) <<< 32
    else 0
  stateBits <<< 62 ||| irq.hw.toUInt64 <<< 61 ||| irq.group1.toUInt64 <<< 60 |||
    irq.prio.toUInt64 <<< 48 ||| source ||| UInt64.ofNat vintid

end Vml
