import Vml.GicIrq

/-!
# The distributor of the GIC

The state of `GicD` and how interrupts travel through it (`gicd.cpp`): they are asserted, routed and
announced to their targets, injected into a vCPU, and completed.

An interrupt is stored in the bank of a vCPU if it is private, and once if it is shared. Here `irq`
of a bank holds `sgi` and `ppi`, and `irq` of the distributor holds `_spi` and `_lpi`, all by
interrupt id. What the distributor sees of a vCPU is whether it has registered, its redistributor,
and the signal that `notify_interrupt_pending` raises.
-/

namespace Vml

/-- `GicR`, less what does not change. -/
structure GicR where
  ctlr : UInt32 := 2
  waker : UInt32 := 6
  deriving DecidableEq, Repr

namespace GicR

/-- `_waker.sleeping`. -/
def sleeping (waker : UInt32) : Bool := waker &&& 2 != 0

/-- `can_receive_irq`. -/
def canReceiveIrq (r : GicR) : Bool := !sleeping r.waker

end GicR

/-- `Banked`, with the vCPU it belongs to. -/
structure Banked where
  irq : ℕ → Irq := fun _ => {}
  pendingIrqs : ℕ → Bool := fun _ => false
  inInjectionIrqs : ℕ → Bool := fun _ => false
  notify : Bool := true
  gicR : GicR := {}
  irqSig : Signal := {}

/-- `IRQCtlrVersion`, of those that `GicD` knows. -/
inductive IrqCtlrVersion
  | gicV2
  | gicV3
  deriving DecidableEq, Repr

/-- `GicD`. `clusters` is what `cpu_affinity_to_cluster` knows. -/
structure GicD where
  version : IrqCtlrVersion
  numVcpus : ℕ
  configuredIrqs : ℕ
  lpiSupported : Bool := false
  clusters : UInt32 → Option (ℕ → Option ℕ) := fun _ => none
  ctlr : UInt32 := 64
  bank : ℕ → Banked := fun _ => {}
  irq : ℕ → Irq := fun _ => {}
  propBaser : UInt64 := 0
  pendBaser : UInt64 := 0
  vcpuGlobalHint : UInt16 := 0

namespace GicD

/-! ## Access to the state -/

/-- `group0_enabled`. -/
def group0Enabled (g : GicD) : Bool := g.ctlr &&& 1 != 0

/-- `group1_enabled`. -/
def group1Enabled (g : GicD) : Bool := g.ctlr &&& 2 != 0

/-- `affinity_routing`. -/
def affinityRouting (g : GicD) : Bool := g.ctlr &&& 16 != 0

/-- `irq_object`. -/
def irqObject (g : GicD) (cpu id : ℕ) : Irq :=
  if id < spiBase then (g.bank cpu).irq id else g.irq id

/-- Change a bank. -/
def modifyBank (g : GicD) (cpu : ℕ) (f : Banked → Banked) : GicD :=
  { g with bank := Function.update g.bank cpu (f (g.bank cpu)) }

/-- Change an interrupt. -/
def modifyIrq (g : GicD) (cpu id : ℕ) (f : Irq → Irq) : GicD :=
  if id < spiBase then
    g.modifyBank cpu fun b => { b with irq := Function.update b.irq id (f (b.irq id)) }
  else { g with irq := Function.update g.irq id (f (g.irq id)) }

/-- Store an injection info. -/
def setInfo (g : GicD) (cpu id : ℕ) (info : IrqInjectionInfo) : GicD :=
  g.modifyIrq cpu id ({ · with injectionInfo := info })

/-- `pending_irqs.set`. -/
def setPendingIrq (g : GicD) (cpu id : ℕ) : GicD :=
  g.modifyBank cpu fun b => { b with pendingIrqs := Function.update b.pendingIrqs id true }

/-- `pending_irqs.clr`. -/
def clrPendingIrq (g : GicD) (cpu id : ℕ) : GicD :=
  g.modifyBank cpu fun b => { b with pendingIrqs := Function.update b.pendingIrqs id false }

/-- `in_injection_irqs.set`. -/
def setInInjection (g : GicD) (cpu id : ℕ) : GicD :=
  g.modifyBank cpu fun b => { b with inInjectionIrqs := Function.update b.inInjectionIrqs id true }

/-- `in_injection_irqs.clr`. -/
def clrInInjection (g : GicD) (cpu id : ℕ) : GicD :=
  g.modifyBank cpu fun b => { b with inInjectionIrqs := Function.update b.inInjectionIrqs id false }

/-- `notify_interrupt_pending` on a vCPU. -/
def notifyInterruptPending (g : GicD) (cpu : ℕ) : GicD :=
  g.modifyBank cpu fun b => { b with irqSig := b.irqSig.sig }

/-- `vcpu_can_receive_irq`. -/
def vcpuCanReceiveIrq (g : GicD) (cpu id : ℕ) : Bool :=
  if !g.affinityRouting then true
  else if id < spiBase then true
  else (g.bank cpu).gicR.canReceiveIrq

/-! ## Routing -/

/-- `route_spi_no_affinity`. -/
def routeSpiNoAffinity (g : GicD) (irq : Irq) : IrqTarget :=
  (List.range (min g.numVcpus gicv2MaxCpus)).foldl (fun res i =>
    if !(g.bank i).notify then res
    else if irq.target &&& 1 <<< UInt8.ofNat i != 0 then res.addTargetToSet i
    else res) (.cpuSet 0)

/-- `route_spi`. -/
def routeSpi (g : GicD) (irq : Irq) (vcpuHintStart : ℕ) : IrqTarget :=
  if !g.affinityRouting then g.routeSpiNoAffinity irq
  else if irq.routingAny then
    let hint := vcpuHintStart % g.numVcpus
    match (List.range g.numVcpus).find? fun k =>
        (g.bank ((hint + k) % g.numVcpus)).gicR.canReceiveIrq with
    | some k => .ofCpuId ((hint + k) % g.numVcpus)
    | none => .ofCpuId hint
  else
    let affinity := irq.routingAffinity
    match g.clusters (affinity &&& ~~~0xff) with
    | none => .invalid
    | some vcpuId =>
        match vcpuId (affinity &&& 0xff).toNat with
        | none => .invalid
        | some id =>
            if g.numVcpus ≤ id then .invalid
            else if (g.bank id).notify then .ofCpuId id
            else .invalid

/-- What `notify_target` does for one vCPU. -/
def notifyCpu (g : GicD) (id cpu : ℕ) : GicD :=
  let g := g.setPendingIrq cpu id
  if g.vcpuCanReceiveIrq cpu id then g.notifyInterruptPending cpu else g

/-- The vCPUs that `notify_target` goes through. -/
def notified (g : GicD) (target : IrqTarget) : List ℕ :=
  if !target.isValid then []
  else
    match target with
    | .cpuSet _ => (List.range (min g.numVcpus gicv2MaxCpus)).filter target.isCpuTargeted
    | .cpuId cpu => [cpu]

/-- `notify_target`. -/
def notifyTarget (g : GicD) (id : ℕ) (target : IrqTarget) : Bool × GicD :=
  (target.isValid, (g.notified target).foldl (fun g cpu => g.notifyCpu id cpu) g)

/-! ## Assertion -/

/-- `redirect_spi`. -/
def redirectSpi (g : GicD) (id vcpuHintStart : ℕ) : Bool × GicD :=
  let irq := g.irqObject 0 id
  let target := g.routeSpi irq vcpuHintStart
  match irq.injectionInfo.redirected target with
  | none => (false, g)
  | some info => (g.setInfo 0 id info).notifyTarget id target

/-- `++_vcpu_global_hint`. -/
def bumpHint (g : GicD) : GicD := { g with vcpuGlobalHint := g.vcpuGlobalHint + 1 }

/-- `assert_pi`, for the interrupt `id` of the bank of `owner`. -/
def assertPi (g : GicD) (cpuId owner id : ℕ) : Bool × GicD :=
  let g' := if spiBase ≤ id then g.bumpHint else g
  let target := if spiBase ≤ id then g'.routeSpi (g'.irqObject owner id) g'.vcpuGlobalHint.toNat
    else .ofCpuId cpuId
  (g'.setInfo owner id (.asserted target)).notifyTarget id target

/-- `assert_pi_sw`. -/
def assertPiSw (g : GicD) (cpuId owner id : ℕ) : Bool × GicD :=
  (g.modifyIrq owner id ({ · with swAsserted := true })).assertPi cpuId owner id

/-- `assert_sgi`. -/
def assertSgi (g : GicD) (sender target owner id : ℕ) : Bool × GicD :=
  if g.affinityRouting then g.assertPi target owner id
  else if gicv2MaxCpus ≤ sender then (false, g)
  else
    (g.setInfo owner id ((g.irqObject owner id).injectionInfo.sentBy sender target)).notifyTarget id
      (.ofCpuId target)

/-- `send_sgi`. -/
def sendSgi (g : GicD) (sender target sgiId : ℕ) : GicD :=
  (g.assertSgi sender target target sgiId).2

/-- `deassert_pi`. -/
def deassertPi (g : GicD) (owner id : ℕ) : Bool × GicD :=
  if (g.irqObject owner id).hw then (true, g)
  else (true, g.setInfo owner id {})

/-- `deassert_pi_sw`. -/
def deassertPiSw (g : GicD) (owner id : ℕ) : Bool × GicD :=
  (g.modifyIrq owner id ({ · with swAsserted := false })).deassertPi owner id

/-- `deassert_sgi`. -/
def deassertSgi (g : GicD) (sender owner id : ℕ) : Bool × GicD :=
  if g.affinityRouting then g.deassertPi owner id
  else if gicv2MaxCpus ≤ sender then (false, g)
  else
    (true, g.setInfo owner id
      (((g.irqObject owner id).injectionInfo.unsetInjected sender).unsetPending sender))

/-- `assert_ppi`. -/
def assertPpi (g : GicD) (cpuId irqId : ℕ) : Bool × GicD :=
  if g.numVcpus ≤ cpuId then (false, g)
  else if spiBase ≤ irqId then (false, g)
  else
    (g.modifyIrq cpuId irqId fun irq =>
      if irq.hwEdge then irq else { irq with lineAsserted := true }).assertPi cpuId cpuId irqId

/-- `assert_global_line`. -/
def assertGlobalLine (g : GicD) (irqId : ℕ) : Bool × GicD :=
  if g.configuredIrqs ≤ irqId then (false, g)
  else if irqId < spiBase then (false, g)
  else
    (g.modifyIrq 0 irqId fun irq =>
      if irq.hwEdge then irq else { irq with lineAsserted := true }).assertPi 0 0 irqId

/-- `deassert_line`. -/
def deassertLine (g : GicD) (cpuId irqId : ℕ) : GicD :=
  if g.numVcpus ≤ cpuId then g
  else if spiBase ≤ irqId then g
  else
    let g := g.modifyIrq cpuId irqId ({ · with lineAsserted := false })
    let irq := g.irqObject cpuId irqId
    if !irq.swEdge && !irq.swAsserted then (g.deassertPi cpuId irqId).2 else g

/-- `deassert_line_ppi`. -/
def deassertLinePpi (g : GicD) (cpuId irqId : ℕ) : GicD := g.deassertLine cpuId irqId

/-- `deassert_global_line`. -/
def deassertGlobalLine (g : GicD) (irqId : ℕ) : GicD := g.deassertLine 0 irqId

/-- `config_irq`. -/
def configIrq (g : GicD) (cpuId irqId : ℕ) (hw : Bool) (pintid : UInt16) (edge : Bool) :
    Bool × GicD :=
  if g.configuredIrqs ≤ irqId then (false, g)
  else if g.numVcpus ≤ cpuId then (false, g)
  else (true, g.modifyIrq cpuId irqId (·.configureHw hw pintid edge))

/-! ## Delivery -/

/-- `first_set`. -/
def firstSet (bits : ℕ → Bool) (start len : ℕ) : Option ℕ :=
  (List.range' start (min (start + len) maxIrq - start)).find? bits

/-- `has_irq_in_injection`. -/
def hasIrqInInjection (g : GicD) (cpuId : ℕ) : Bool :=
  (firstSet (g.bank cpuId).inInjectionIrqs 0 (g.configuredIrqs - 1)).isSome ||
    (firstSet (g.bank cpuId).inInjectionIrqs lpiBase (maxIrq - 1)).isSome

/-- `get_next_pending_irq`. -/
def getNextPendingIrq (g : GicD) (cpuId next : ℕ) : Option ℕ :=
  let bits := (g.bank cpuId).pendingIrqs
  let irqId := if next < lpiBase then firstSet bits next (g.configuredIrqs - 1)
    else firstSet bits next (maxIrq - 1)
  match irqId with
  | some id => some id
  | none => if next < lpiBase then firstSet bits lpiBase (maxIrq - 1) else none

/-- The group of the interrupt is enabled. -/
def groupEnabled (g : GicD) (irq : Irq) : Bool :=
  !irq.group1 && g.group0Enabled || irq.group1 && g.group1Enabled

/-- What `highest_irq` asks of an interrupt whose bit is set in `pending_irqs`. -/
def considers (g : GicD) (cpuId id : ℕ) : Bool :=
  let irq := g.irqObject cpuId id
  let cur := irq.injectionInfo
  g.groupEnabled irq && cur.isTargetingCpu cpuId && cur.pending && irq.enable &&
    !(g.bank cpuId).inInjectionIrqs id && g.vcpuCanReceiveIrq cpuId id

/-- The interrupt takes the place of the one found so far. -/
def supersedes (g : GicD) (cpuId id : ℕ) (r : Option ℕ) : Bool :=
  match r with
  | none => true
  | some r => decide ((g.irqObject cpuId id).prio > (g.irqObject cpuId r).prio)

/-- The loop of `highest_irq`. Every turn goes on behind the interrupt it has looked at, so as many
turns as there are interrupts are enough. -/
def highestIrqLoop (cpuId : ℕ) (redirectIrq : Bool) :
    ℕ → GicD → ℕ → Option ℕ → Option ℕ × GicD
  | 0, g, _, r => (r, g)
  | fuel + 1, g, irqId, r =>
      match g.getNextPendingIrq cpuId irqId with
      | none => (r, g)
      | some id =>
          let considered := g.considers cpuId id
          let r := if considered && g.supersedes cpuId id r then some id else r
          let g := if !considered && redirectIrq && decide (spiBase ≤ id) &&
              !g.vcpuCanReceiveIrq cpuId id then (g.redirectSpi id (cpuId + 1)).2 else g
          if id + 1 < g.configuredIrqs then highestIrqLoop cpuId redirectIrq fuel g (id + 1) r
          else (r, g)

/-- `highest_irq`. -/
def highestIrq (g : GicD) (cpuId : ℕ) (redirectIrq : Bool) : Option ℕ × GicD :=
  highestIrqLoop cpuId redirectIrq g.configuredIrqs g 0 none

/-- `has_irq_to_inject`. -/
def hasIrqToInject (g : GicD) (cpuId : ℕ) : Bool := (g.highestIrq cpuId false).1.isSome

/-- `GicR::int_pending`. -/
def intPending (g : GicD) (cpuId : ℕ) : Bool := g.hasIrqInInjection cpuId || g.hasIrqToInject cpuId

/-- The second half of `pending_irq`: the interrupt `id` is put into a list register. -/
def inject (g : GicD) (cpuId id : ℕ) : UInt64 × GicD :=
  let irq := g.irqObject cpuId id
  match irq.injectionInfo.injected cpuId with
  | none => (0, g)
  | some info =>
      let sender := irq.injectionInfo.getPendingSenderId
      let state := if irq.active && !irq.hw then IrqState.activePending else .pending
      (lr state irq id sender,
        ((g.setInfo cpuId id info).setInInjection cpuId id).clrPendingIrq cpuId id)

/-- `pending_irq`: the list register, if there is an interrupt for it. -/
def pendingIrq (g : GicD) (cpuId : ℕ) (minPriority : UInt8) : Option UInt64 × GicD :=
  let r := g.highestIrq cpuId true
  match r.1 with
  | none => (none, r.2)
  | some id =>
      if minPriority < (r.2.irqObject cpuId id).prio then (none, r.2)
      else
        let r := r.2.inject cpuId id
        (some r.1, r.2)

/-- `update_inj_status`. -/
def updateInjStatus (g : GicD) (cpuId irqId : ℕ) (state : IrqState) (inInjection : Bool) : GicD :=
  let g := if inInjection then g else g.clrInInjection cpuId irqId
  let active := match state with
    | .inactive | .pending => false
    | .active | .activePending => true
  let g := g.modifyIrq cpuId irqId ({ · with active })
  let g := match (g.irqObject cpuId irqId).injectionInfo.updated cpuId state inInjection with
    | none => g
    | some info => g.setInfo cpuId irqId info
  if (g.irqObject cpuId irqId).pending then g.setPendingIrq cpuId irqId else g

/-! ## Reset -/

/-- What `reset` makes of a bank. -/
def resetBank (g : GicD) (cpu : ℕ) : Banked :=
  let b := g.bank cpu
  let target : UInt8 :=
    if g.version = .gicV3 ∨ gicv2MaxCpus ≤ cpu then 0 else 1 <<< UInt8.ofNat cpu
  { b with
    irq := fun id =>
      if id < maxSgi then { (b.irq id).reset target with enable := true }
      else if id < spiBase then (b.irq id).reset target
      else b.irq id
    pendingIrqs := fun id =>
      if id < g.configuredIrqs then
        if (g.irqObject cpu id).hw then b.inInjectionIrqs id || b.pendingIrqs id else false
      else b.pendingIrqs id
    inInjectionIrqs := fun _ => false }

/-- `reset`. -/
def reset (g : GicD) : GicD :=
  { g with
    bank := fun cpu => if cpu < g.numVcpus then g.resetBank cpu else g.bank cpu
    irq := fun id =>
      if spiBase ≤ id ∧ id < g.configuredIrqs then (g.irq id).reset 1 else g.irq id
    ctlr := 0 }

end GicD

end Vml
