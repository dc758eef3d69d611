import Vml.CpuState
import Vml.GicD
import Vml.Lib.Run
import Vml.Lib.Threads

/-!
# The GIC under concurrent calls

The vCPUs and the devices of a machine call into the distributor at the same time, and vCPUs wait
for interrupts and are rounded up. Here each call is taken apart: every access to an injection info,
to a bit of `pending_irqs` or `in_injection_irqs`, to the signal of a vCPU and to the state of a
vCPU is a turn of its own. Other reads are taken together with the access before which they stand.

**Loops.** Five functions read an injection info, compute what it becomes, and compare and swap
(`Update`). They share the two points `read` and `cas`.

**Routing.** What `route_spi` returns depends on registers that other vCPUs write meanwhile, so a
call comes with the target it is routed to, whatever it is.

**Other writes.** What a register write stores besides is one turn (`store`), which may change
everything but what the points above are about.
-/

namespace Vml

/-! ## The machine -/

/-- What the threads share: the GIC, and of every vCPU its state and whether a dump of its registers
is requested. -/
structure Machine where
  gic : GicD
  cpuState : ℕ → CpuState := fun _ => .on
  dumpRegs : ℕ → Bool := fun _ => false

namespace Machine

/-- Store an injection info. -/
def setInfo (m : Machine) (cpu id : ℕ) (info : IrqInjectionInfo) : Machine :=
  { m with gic := m.gic.setInfo cpu id info }

/-- `is_roundup_pending`. -/
def isRoundupPending (m : Machine) (cpu : ℕ) : Bool := m.cpuState cpu == .emulateRoundedup

end Machine

/-! ## Points in the calls -/

/-- The functions that compare and swap an injection info. -/
inductive Update
  /-- `assert_sgi`, without affinity routing. -/
  | assertSgi (sender target owner id : ℕ)
  /-- `deassert_sgi`, without affinity routing. -/
  | deassertSgi (sender owner id : ℕ)
  /-- `redirect_spi`. -/
  | redirectSpi (id : ℕ) (target : IrqTarget)
  /-- `pending_irq`. -/
  | pendingIrq (id : ℕ)
  /-- `update_inj_status`. -/
  | updateInjStatus (id : ℕ) (state : IrqState) (inInjection : Bool)
  deriving DecidableEq

/-- Who runs `highest_irq`, and for what. -/
inductive Scan
  /-- `pending_irq`. -/
  | pendingIrq (minPriority : UInt8)
  /-- `wait_for_interrupt`. -/
  | waitForInterrupt (willTimeout : Bool)
  deriving DecidableEq

/-- The state is switched by a round-up, or by the end of one. -/
inductive Switch
  | roundup
  | resume
  deriving DecidableEq

/-- Where a thread is: what its next turn does. -/
inductive Task
  | idle
  /-- `assert_pi`: store the injection info. -/
  | assertPi (owner id : ℕ) (target : IrqTarget)
  /-- `deassert_pi`: store the injection info. -/
  | deassertPi (owner id : ℕ)
  /-- Read the injection info, and go on with `k` in the end. -/
  | read (u : Update) (k : Task)
  /-- Compare the injection info with `cur`, and swap. -/
  | cas (u : Update) (cur : IrqInjectionInfo) (k : Task)
  /-- `notify_target`: set the bit of the first of `cpus`. -/
  | notify (owner id : ℕ) (cpus : List ℕ) (k : Task)
  /-- `notify_target`: `notify_interrupt_pending` on `cpu`, if it can receive the interrupt. -/
  | signal (owner id cpu : ℕ) (cpus : List ℕ) (k : Task)
  /-- `first_set`, called for the bits from `start`: read the bit at `pos`. -/
  | scan (s : Scan) (start pos : ℕ) (r : Option ℕ)
  /-- `highest_irq`: read the injection info. -/
  | look (s : Scan) (id : ℕ) (r : Option ℕ)
  /-- `highest_irq`: the test. -/
  | judge (s : Scan) (id : ℕ) (r : Option ℕ) (cur : IrqInjectionInfo)
  /-- `highest_irq` has returned. -/
  | found (s : Scan) (r : Option ℕ)
  /-- `pending_irq`: set the bit in `in_injection_irqs`. -/
  | setInInjection (id : ℕ)
  /-- `pending_irq`: clear the bit in `pending_irqs`. -/
  | clrPending (id : ℕ)
  /-- `update_inj_status`: clear the bit in `in_injection_irqs`, unless still in injection. -/
  | clrInInjection (id : ℕ) (state : IrqState) (inInjection : Bool)
  /-- `update_inj_status`: read whether the interrupt is pending. -/
  | checkPending (id : ℕ)
  /-- `update_inj_status`: set the bit in `pending_irqs`. -/
  | setPending (id : ℕ)
  /-- `wait_for_interrupt`: `has_irq_in_injection`. -/
  | checkInInjection (willTimeout : Bool)
  /-- `wait_for_interrupt`: `is_roundup_pending`. -/
  | checkRoundup (willTimeout : Bool)
  /-- `wait_for_interrupt`: whether a dump of the registers is requested. -/
  | checkDump (willTimeout : Bool)
  /-- `wait_for_interrupt`: `block`. -/
  | block (willTimeout : Bool)
  /-- `roundup_impl` and `resume`: read the state. -/
  | readState (sw : Switch) (cpu : ℕ)
  /-- `roundup_impl` and `resume`: compare the state with `cur`, and swap. -/
  | casState (sw : Switch) (cpu : ℕ) (cur : CpuState)
  /-- `roundup_impl`: `unblock`. -/
  | unblock (cpu : ℕ)

namespace Update

/-- The interrupt whose injection info is updated. A device has no interrupts of its own. -/
def id : Update → ℕ
  | assertSgi _ _ _ id | deassertSgi _ _ id | redirectSpi id _ | pendingIrq id
  | updateInjStatus id _ _ => id

/-- The vCPU in whose bank the interrupt is, if it is private. -/
def owner (self : Option ℕ) : Update → ℕ
  | assertSgi _ _ owner _ | deassertSgi _ owner _ => owner
  | redirectSpi _ _ => 0
  | pendingIrq _ | updateInjStatus _ _ _ => self.getD 0

/-- What the injection info is to become, with `none` for a loop that is left. -/
def desired (self : Option ℕ) (cur : IrqInjectionInfo) : Update → Option IrqInjectionInfo
  | assertSgi sender target _ _ => some (cur.sentBy sender target)
  | deassertSgi sender _ _ => some ((cur.unsetInjected sender).unsetPending sender)
  | redirectSpi _ target => cur.redirected target
  | pendingIrq _ => self.bind cur.injected
  | updateInjStatus _ state inInjection => self.bind (cur.updated · state inInjection)

/-- How it goes on after the swap. -/
def done (g : GicD) (k : Task) : Update → Task
  | assertSgi _ target owner id => .notify owner id (g.notified (.ofCpuId target)) k
  | deassertSgi _ _ _ => k
  | redirectSpi id target => .notify 0 id (g.notified target) k
  | pendingIrq id => .setInInjection id
  | updateInjStatus id _ _ => .checkPending id

/-- How it goes on when the loop is left. -/
def left (k : Task) : Update → Task
  | updateInjStatus id _ _ => .checkPending id
  | _ => k

end Update

/-! ## Turns -/

namespace Task

/-- How `highest_irq` goes on behind the interrupt `id`. -/
def further (g : GicD) (s : Scan) (id : ℕ) (r : Option ℕ) : Task :=
  if id + 1 < g.configuredIrqs then .scan s (id + 1) (id + 1) r else .found s r

/-- The turns in the calls that only the vCPU `v` makes. The route is what `route_spi` returns, if
the turn calls it. -/
def nextOfVcpu (v : ℕ) (route : IrqTarget) (m : Machine) : Task → Option (Machine × Task)
  | .scan s start pos r =>
      let len := if start < lpiBase then m.gic.configuredIrqs - 1 else maxIrq - 1
      if pos < min (start + len) maxIrq then
        some (m, if (m.gic.bank v).pendingIrqs pos then .look s pos r
          else .scan s start (pos + 1) r)
      else if start < lpiBase then some (m, .scan s lpiBase lpiBase r)
      else some (m, .found s r)
  | .look s id r => some (m, .judge s id r (m.gic.irqObject v id).injectionInfo)
  | .judge s id r cur =>
      let irq := m.gic.irqObject v id
      let considered := m.gic.groupEnabled irq && cur.isTargetingCpu v && cur.pending &&
        irq.enable && !(m.gic.bank v).inInjectionIrqs id && m.gic.vcpuCanReceiveIrq v id
      let r := if considered && m.gic.supersedes v id r then some id else r
      let k := further m.gic s id r
      match s with
      | .pendingIrq _ =>
          if !considered && decide (spiBase ≤ id) && !m.gic.vcpuCanReceiveIrq v id then
            some (m, .read (.redirectSpi id route) k)
          else some (m, k)
      | .waitForInterrupt _ => some (m, k)
  | .found (.pendingIrq minPriority) r =>
      match r with
      | none => some (m, .idle)
      | some id =>
          if minPriority < (m.gic.irqObject v id).prio then some (m, .idle)
          else some (m, .read (.pendingIrq id) .idle)
  | .found (.waitForInterrupt willTimeout) r =>
      match r with
      | none => some (m, .checkRoundup willTimeout)
      | some _ => some (m, .idle)
  | .setInInjection id => some ({ m with gic := m.gic.setInInjection v id }, .clrPending id)
  | .clrPending id => some ({ m with gic := m.gic.clrPendingIrq v id }, .idle)
  | .clrInInjection id state inInjection =>
      let g := if inInjection then m.gic else m.gic.clrInInjection v id
      let active := match state with
        | .inactive | .pending => false
        | .active | .activePending => true
      some ({ m with gic := g.modifyIrq v id ({ · with active }) },
        .read (.updateInjStatus id state inInjection) .idle)
  | .checkPending id =>
      some (m, if (m.gic.irqObject v id).pending then .setPending id else .idle)
  | .setPending id => some ({ m with gic := m.gic.setPendingIrq v id }, .idle)
  | .checkInInjection willTimeout =>
      some (m, if m.gic.hasIrqInInjection v then .idle
        else .scan (.waitForInterrupt willTimeout) 0 0 none)
  | .checkRoundup willTimeout =>
      some (m, if m.isRoundupPending v then .idle else .checkDump willTimeout)
  | .checkDump willTimeout => some (m, if m.dumpRegs v then .idle else .block willTimeout)
  | .block willTimeout =>
      match (m.gic.bank v).irqSig.wait with
      | none => none
      | some irqSig =>
          some ({ m with gic := m.gic.modifyBank v ({ · with irqSig }) },
            if willTimeout then .idle else .checkInInjection willTimeout)
  | _ => none

/-- The next turn of a thread, which is that of a vCPU or not. -/
def next (self : Option ℕ) (route : IrqTarget) (m : Machine) : Task → Option (Machine × Task)
  | .idle => none
  | .assertPi owner id target =>
      some (m.setInfo owner id (.asserted target), .notify owner id (m.gic.notified target) .idle)
  | .deassertPi owner id => some (m.setInfo owner id {}, .idle)
  | .read u k =>
      let cur := (m.gic.irqObject (u.owner self) u.id).injectionInfo
      some (m, if (u.desired self cur).isSome then .cas u cur k else u.left k)
  | .cas u cur k =>
      match u.desired self cur with
      | none => none
      | some desired =>
          if (m.gic.irqObject (u.owner self) u.id).injectionInfo = cur then
            some (m.setInfo (u.owner self) u.id desired, u.done m.gic k)
          else some (m, .read u k)
  | .notify _ _ [] k => some (m, k)
  | .notify owner id (cpu :: cpus) k =>
      some ({ m with gic := m.gic.setPendingIrq cpu id }, .signal owner id cpu cpus k)
  | .signal owner id cpu cpus k =>
      some (if m.gic.vcpuCanReceiveIrq cpu id then
        { m with gic := m.gic.notifyInterruptPending cpu } else m, .notify owner id cpus k)
  | .readState sw cpu => some (m, .casState sw cpu (m.cpuState cpu))
  | .casState sw cpu cur =>
      let desired := match sw with
        | .roundup => cur.roundedup
        | .resume => cur.resumed
      match desired with
      | none => none
      | some state =>
          if m.cpuState cpu = cur then
            some ({ m with cpuState := Function.update m.cpuState cpu state },
              match sw with
              | .roundup => .unblock cpu
              | .resume => .idle)
          else some (m, .readState sw cpu)
  | .unblock cpu => some ({ m with gic := m.gic.notifyInterruptPending cpu }, .idle)
  | task => self.bind fun v => task.nextOfVcpu v route m

end Task

/-! ## Calls and runs -/

/-- A thread: a vCPU, or a device of `ι`. -/
inductive Party (ι : Type*)
  | vcpu (v : ℕ)
  | device (i : ι)
  deriving DecidableEq

/-- The vCPU that the thread is. -/
def Party.self {ι : Type*} : Party ι → Option ℕ
  | .vcpu v => some v
  | .device _ => none

theorem Party.eq_of_self {ι : Type*} {t u : Party ι} {v : ℕ} (ht : t.self = some v)
    (hu : u.self = some v) : t = u := by
  cases t with
  | vcpu w =>
      cases u with
      | vcpu x =>
          cases ht
          cases hu
          rfl
      | device i => cases hu
  | device i => cases ht

/-- A call. `assertPi` is that of `assert_ppi` and `assert_global_line`, of a write to a pending
bit, and of `assert_sgi` with affinity routing. -/
inductive Call
  | assertPi (owner id : ℕ) (target : IrqTarget)
  | deassertPi (owner id : ℕ)
  | assertSgi (sender target owner id : ℕ)
  | deassertSgi (sender owner id : ℕ)
  | redirectSpi (id : ℕ) (target : IrqTarget)
  | pendingIrq (minPriority : UInt8)
  | updateInjStatus (id : ℕ) (state : IrqState) (inInjection : Bool)
  | waitForInterrupt (willTimeout : Bool)
  | roundup (cpu : ℕ)
  | resume (cpu : ℕ)

namespace Call

/-- Where the call begins. -/
def start : Call → Task
  | assertPi owner id target => .assertPi owner id target
  | deassertPi owner id => .deassertPi owner id
  | assertSgi sender target owner id => .read (.assertSgi sender target owner id) .idle
  | deassertSgi sender owner id => .read (.deassertSgi sender owner id) .idle
  | redirectSpi id target => .read (.redirectSpi id target) .idle
  | pendingIrq minPriority => .scan (.pendingIrq minPriority) 0 0 none
  | updateInjStatus id state inInjection => .clrInInjection id state inInjection
  | waitForInterrupt willTimeout => .checkInInjection willTimeout
  | roundup cpu => .readState .roundup cpu
  | resume cpu => .readState .resume cpu

/-- The thread may make the call: what the callers and the assertions of the source see to. An
interrupt that is private is for the vCPU whose bank it is in. -/
def Allowed (g : GicD) (self : Option ℕ) : Call → Prop
  | assertPi owner id target =>
      id < g.configuredIrqs ∧ (id < spiBase → owner < g.numVcpus ∧ target = .ofCpuId owner)
  | deassertPi _ id => id < g.configuredIrqs
  | assertSgi sender _ owner id => sender < gicv2MaxCpus ∧ owner < g.numVcpus ∧ id < maxSgi
  | deassertSgi sender _ id => sender < gicv2MaxCpus ∧ id < maxSgi
  | redirectSpi id _ => spiBase ≤ id ∧ id < g.configuredIrqs
  | updateInjStatus id state inInjection =>
      id < g.configuredIrqs ∧ (inInjection = false → state = .pending ∨ state = .inactive) ∧
        ∃ v < g.numVcpus, self = some v
  | pendingIrq _ | waitForInterrupt _ => ∃ v < g.numVcpus, self = some v
  | roundup cpu | resume cpu => cpu < g.numVcpus

end Call

namespace GicD

/-- `g'` has the injection infos, the bits and the signals of `g`. -/
structure SameAtomics (g g' : GicD) : Prop where
  numVcpus : g'.numVcpus = g.numVcpus
  configuredIrqs : g'.configuredIrqs = g.configuredIrqs
  injectionInfo : ∀ c x, (g'.irqObject c x).injectionInfo = (g.irqObject c x).injectionInfo
  pendingIrqs : ∀ c, (g'.bank c).pendingIrqs = (g.bank c).pendingIrqs
  inInjectionIrqs : ∀ c, (g'.bank c).inInjectionIrqs = (g.bank c).inInjectionIrqs
  irqSig : ∀ c, (g'.bank c).irqSig = (g.bank c).irqSig

theorem SameAtomics.refl (g : GicD) : g.SameAtomics g :=
  ⟨rfl, rfl, fun _ _ => rfl, fun _ => rfl, fun _ => rfl, fun _ => rfl⟩

end GicD

/-- The machine and its threads. -/
abbrev GicSys (ι : Type*) := Threads Machine (Party ι) Task

/-- What happens: a thread makes a call, takes its next turn, or makes another store; a wait times
out; a vCPU that is not in a call switches its state; a dump of registers is requested or not. -/
inductive GicAct (ι : Type*)
  | call (t : Party ι) (c : Call)
  | next (t : Party ι) (route : IrqTarget)
  | store (t : Party ι) (g : GicD)
  | timeout (v : ℕ)
  | switch (v : ℕ) (state : CpuState)
  | requestDump (v : ℕ) (on : Bool)

namespace GicSys

variable {ι : Type*}

/-- One step. -/
def Step [DecidableEq ι] (s : GicSys ι) (a : GicAct ι) (s' : GicSys ι) : Prop :=
  match a with
  | .call t c =>
      s.task t = .idle ∧ c.Allowed s.shared.gic t.self ∧ s' = s.goOn t s.shared c.start
  | .next t route =>
      ∃ m k, (s.task t).next t.self route s.shared = some (m, k) ∧ s' = s.goOn t m k
  | .store t g =>
      s.task t = .idle ∧ s.shared.gic.SameAtomics g ∧
        s' = s.goOn t { s.shared with gic := g } .idle
  | .timeout v => s.task (.vcpu v) = .block true ∧ s' = s.goOn (.vcpu v) s.shared .idle
  | .switch v state =>
      s.task (.vcpu v) = .idle ∧ state ∈ (s.shared.cpuState v).switched ∧
        s' = s.goOn (.vcpu v)
          { s.shared with cpuState := Function.update s.shared.cpuState v state } .idle
  | .requestDump v on =>
      s' = { s with shared := { s.shared with
        dumpRegs := Function.update s.shared.dumpRegs v on } }

/-- No thread is in a call. -/
def start (m : Machine) : GicSys ι := { shared := m, task := fun _ => .idle }

end GicSys

end Vml
