import Vml.GicAlike
import Vml.ItsIndices

/-!
# The GIC after a reset

A device is reset to the state it started from. For the GIC that is `GicD::reset`, `GicR::reset` of
every redistributor, and `Gits::reset`. Whether the guest finds the GIC as it was is told by all
that it, the devices and the vCPUs do from then on, compared with what they would see of a GIC that
has just been set up: `answers` of the same calls.

**What a reset leaves alone.** What the guest has set pending by a register (`_sw_asserted`), the
wakers of the redistributors, `_prop_baser` and `_pend_baser`, the LPIs with their bits in
`pending_irqs`, the hint for the next vCPU, and the tables of the ITS (`_baser`). `Unused` says that
they are as they were.

Main results: `ItsSys.fresh_start` and `ItsSys.reset_restores`.
-/

namespace Vml

/-! ## The resets, and the registers of the ITS -/

/-- `GicR::reset`. -/
def GicR.reset (r : GicR) : GicR := { r with ctlr := 2 }

/-- `GicR::reset` of every redistributor. -/
def GicD.resetGicRs (g : GicD) : GicD :=
  { g with bank := fun cpu =>
      if cpu < g.numVcpus then { g.bank cpu with gicR := (g.bank cpu).gicR.reset } else g.bank cpu }

namespace Gits

/-- `Gits::reset`. -/
def reset (its : Gits) : Gits :=
  { its with ctlr := 0x80000000, cbaser := 0, cwriter := 0, creadr := 0 }

/-- `Gits::mmio_read`, without a result where an assertion fails. -/
def mmioRead (its : Gits) (offset : UInt64) (bytes : UInt8) : Option ReadEffect :=
  let register (first last value : UInt64) := GicD.readRegister offset first last bytes value
  if GicD.within offset 0x0 0x3 then some (register 0x0 0x3 its.ctlr.toUInt64)
  else if GicD.within offset 0x4 0x7 then some (register 0x4 0x7 0x43b)
  else if GicD.within offset 0x8 0xf then some (register 0x8 0xf 0)
  else if GicD.within offset 0x80 0x87 then some (register 0x80 0x87 its.cbaser)
  else if GicD.within offset 0x88 0x8F then some (register 0x88 0x8F its.cwriter)
  else if GicD.within offset 0x90 0x97 then some (register 0x90 0x97 its.creadr)
  else if GicD.within offset 0x100 0x13f then
    let idx := (offset - 0x100) / 8
    some (register (0x100 + idx * 8) (0x100 + idx * 8 + 7)
      (its.baser ⟨idx.toNat % 8, Nat.mod_lt _ (by decide)⟩))
  else if GicD.within offset 0xffe8 0xffeb then some (register 0xffe8 0xffeb 0x30)
  else none

end Gits

/-- What happens to the GIC of a platform. -/
inductive SysOp
  /-- A register of the distributor or of a redistributor is written, a device asserts an interrupt,
  or a vCPU takes one and hands it back. -/
  | gic (op : GicOp)
  /-- A register of the ITS is written, a device sends an MSI, or the guest writes to its memory. -/
  | its (act : ItsAct)
  | gicDRead (cpuId : ℕ) (offset : UInt64) (bytes : UInt8)
  | gicRRead (cpu : ℕ) (aff : UInt32) (last : Bool) (offset : UInt64) (bytes : UInt8)
  | gitsRead (offset : UInt64) (bytes : UInt8)
  /-- A vCPU asks whether there is an interrupt for it. -/
  | intPending (cpuId : ℕ)
  /-- It looks whether it has been notified. -/
  | notified (cpuId : ℕ)
  | reset

/-- What comes back. -/
inductive Answer
  | done
  | flag (b : Bool)
  | lr (r : Option UInt64)
  | read (r : ReadEffect)
  deriving DecidableEq

/-- What a call to the distributor returns. -/
def GicD.answer (g : GicD) : GicOp → Answer
  | .mmioWrite cpuId offset bytes value => .flag (g.mmioWrite cpuId offset bytes value).1
  | .gicRMmioWrite cpu offset bytes value => .flag (g.gicRMmioWrite cpu offset bytes value).1
  | .assertPpi cpuId irqId => .flag (g.assertPpi cpuId irqId).1
  | .assertGlobalLine irqId => .flag (g.assertGlobalLine irqId).1
  | .configIrq cpuId irqId hw pintid edge => .flag (g.configIrq cpuId irqId hw pintid edge).1
  | .pendingIrq cpuId minPriority => .lr (g.pendingIrq cpuId minPriority).1
  | _ => .done

namespace ItsSys

/-- The reset of all parts. -/
def reset (s : ItsSys) : ItsSys :=
  { s with gic := s.gic.reset.resetGicRs, its := s.its.reset }

/-- One step, without a result if it fails an assertion. -/
def step (s : ItsSys) : SysOp → Option (Answer × ItsSys)
  | .gic op => some (s.gic.answer op, { s with gic := s.gic.exec op })
  | .its act => (s.act act).map fun t => (.done, t)
  | .gicDRead cpuId offset bytes => some (.read (s.gic.mmioRead cpuId offset bytes), s)
  | .gicRRead cpu aff last offset bytes =>
      some (.read (s.gic.gicRMmioRead cpu aff last offset bytes), s)
  | .gitsRead offset bytes => (s.its.mmioRead offset bytes).map fun r => (.read r, s)
  | .intPending cpuId => some (.flag (s.gic.intPending cpuId), s)
  | .notified cpuId => some (.flag (s.gic.bank cpuId).irqSig.signaled, s)
  | .reset => some (.done, s.reset)

/-- What comes back from a sequence of calls, up to an assertion that fails. -/
def answers (s : ItsSys) : List SysOp → List (Option Answer)
  | [] => []
  | op :: ops =>
      match s.step op with
      | none => [none]
      | some (a, t) => some a :: answers t ops

/-- The platform after a sequence of calls none of which fails an assertion. -/
def run (s : ItsSys) : List SysOp → Option ItsSys
  | [] => some s
  | op :: ops =>
      match s.step op with
      | none => none
      | some (_, t) => run t ops

end ItsSys

/-! ## A GIC that has just been set up -/

/-- `compute_irq_lines`. -/
def computeIrqLines (desired : UInt16) : ℕ :=
  min maxIrqNoLpi ((desired.toUInt64 + 31) &&& ~~~31).toNat

/-- What a platform is built from. -/
structure GicConfig where
  version : IrqCtlrVersion
  numVcpus : ℕ
  confIrqs : UInt16
  lpiSupported : Bool
  clusters : UInt32 → Option (ℕ → Option ℕ)
  bus : GuestBus

/-- The platform with the GIC that `init` has set up. Only a GICv3 has LPIs. -/
def GicConfig.start (c : GicConfig) : ItsSys where
  gic :=
    let g : GicD :=
      { GicD.init c.version c.numVcpus (computeIrqLines c.confIrqs) with
        lpiSupported := c.lpiSupported
        clusters := c.clusters }
    if c.version = .gicV3 then g.initLpis else g
  its := .init
  bus := c.bus

/-- An interrupt that has been constructed, with the `config_irq` settings of another. -/
def Irq.constructed (irq : Irq) : Irq := ({} : Irq).configureHw irq.hw irq.pintid irq.hwEdge

namespace GicD

/-- An LPI as `init` leaves it. A GICv2 has none. -/
def initialLpi (version : IrqCtlrVersion) : Irq :=
  if version = .gicV3 then
    { ({} : Irq) with enable := true, group1 := true, prio := 0xff }.configureHw false 0 true
  else {}

/-- A distributor for the same vCPUs, with the same `config_irq` settings, before its first reset.
What stands for no vCPU and no interrupt is taken over. -/
def constructed (g : GicD) : GicD where
  version := g.version
  numVcpus := g.numVcpus
  configuredIrqs := g.configuredIrqs
  lpiSupported := g.lpiSupported
  clusters := g.clusters
  bank cpu :=
    if cpu < g.numVcpus then
      { irq := fun id =>
          if id < spiBase then ((g.bank cpu).irq id).constructed else (g.bank cpu).irq id
        notify := (g.bank cpu).notify
        irqSig := (g.bank cpu).irqSig }
    else g.bank cpu
  irq id :=
    if spiBase ≤ id ∧ id < g.configuredIrqs then (g.irq id).constructed
    else if lpiBase ≤ id ∧ id < maxIrq then initialLpi g.version
    else g.irq id

/-- A distributor that `init` has set up, for the same vCPUs and with the same `config_irq`
settings. -/
def fresh (g : GicD) : GicD := g.constructed.reset

end GicD

/-- The platform with a GIC that has just been set up. -/
def ItsSys.fresh (s : ItsSys) : ItsSys := { s with gic := s.gic.fresh, its := .init }

/-! ### It follows the calls of `config_irq` -/

namespace GicD

variable {g : GicD}

theorem reset_constructed_configureHw (irq : Irq) (hw : Bool) (pintid : UInt16) (edge : Bool)
    (t : UInt8) : (irq.configureHw hw pintid edge).constructed.reset t =
      (irq.constructed.reset t).configureHw hw pintid edge := by
  have hinfo (irq : Irq) (hirq : irq.injectionInfo = {}) : (irq.reset t).injectionInfo = {} := by
    rw [Irq.reset]
    split_ifs
    · exact hirq
    · rfl
  have hleft := hinfo ((irq.configureHw hw pintid edge).constructed) rfl
  have hright := hinfo irq.constructed rfl
  simp only [Irq.constructed, Irq.configureHw, Irq.reset] at hleft hright ⊢
  rw [hleft, hright]

/-- The bank of a vCPU in a distributor that has just been set up. -/
def freshBank (version : IrqCtlrVersion) (cpu : ℕ) (b : Banked) : Banked :=
  let target : UInt8 := if version = .gicV3 ∨ gicv2MaxCpus ≤ cpu then 0 else 1 <<< UInt8.ofNat cpu
  { irq := fun id =>
      if id < maxSgi then { (b.irq id).constructed.reset target with enable := true }
      else if id < spiBase then (b.irq id).constructed.reset target
      else b.irq id
    notify := b.notify
    irqSig := b.irqSig }

theorem fresh_bank {cpu : ℕ} (hcpu : cpu < g.numVcpus) :
    g.fresh.bank cpu = freshBank g.version cpu (g.bank cpu) := by
  simp only [fresh, reset, freshBank, if_pos hcpu, resetBank, constructed, Banked.mk.injEq,
    and_true]
  refine ⟨funext fun id => ?_, funext fun id => ?_⟩
  · by_cases hsgi : id < maxSgi
    · have hid : id < spiBase := Nat.lt_trans hsgi (by decide)
      simp only [if_pos hsgi, if_pos hid]
      rfl
    · by_cases hid : id < spiBase
      · simp only [if_neg hsgi, if_pos hid]
        rfl
      · simp only [if_neg hsgi, if_neg hid]
  · simp only [Bool.or_self, ite_self]

theorem freshBank_configureHw (version : IrqCtlrVersion) (cpu : ℕ) (b : Banked) {irqId : ℕ}
    (hid : irqId < spiBase) (hw : Bool) (pintid : UInt16) (edge : Bool) :
    freshBank version cpu
        { b with irq := Function.update b.irq irqId ((b.irq irqId).configureHw hw pintid edge) } =
      { freshBank version cpu b with
        irq := Function.update (freshBank version cpu b).irq irqId
          (((freshBank version cpu b).irq irqId).configureHw hw pintid edge) } := by
  simp only [freshBank, Banked.mk.injEq, and_true]
  generalize (if version = .gicV3 ∨ gicv2MaxCpus ≤ cpu then (0 : UInt8)
    else 1 <<< UInt8.ofNat cpu) = target
  funext id
  obtain rfl | hne := eq_or_ne id irqId
  · simp only [Function.update_self, if_pos hid]
    rw [reset_constructed_configureHw]
    split_ifs
    · rfl
    · rfl
  · simp only [Function.update_of_ne hne]

theorem fresh_bank_of_le {cpu : ℕ} (hcpu : ¬cpu < g.numVcpus) : g.fresh.bank cpu = g.bank cpu := by
  simp only [fresh, reset, constructed, if_neg hcpu]

theorem fresh_irq (id : ℕ) : g.fresh.irq id =
    if spiBase ≤ id ∧ id < g.configuredIrqs then (g.irq id).constructed.reset 1
    else if lpiBase ≤ id ∧ id < maxIrq then initialLpi g.version
    else g.irq id := by
  simp only [fresh, reset, constructed]
  split_ifs
  all_goals rfl

theorem fresh_configure_private (g : GicD) {cpuId irqId : ℕ} (hid : irqId < spiBase)
    (hcpu : cpuId < g.numVcpus) (hw : Bool) (pintid : UInt16) (edge : Bool) :
    (g.modifyIrq cpuId irqId (·.configureHw hw pintid edge)).fresh =
      g.fresh.modifyIrq cpuId irqId (·.configureHw hw pintid edge) := by
  rw [modifyIrq, modifyIrq, if_pos hid, if_pos hid]
  obtain ⟨f, hf⟩ : ∃ f : Banked → Banked, f = fun b =>
    { b with irq := Function.update b.irq irqId ((b.irq irqId).configureHw hw pintid edge) } :=
    ⟨_, rfl⟩
  have hcomm (cpu : ℕ) (b : Banked) : freshBank g.version cpu (f b) =
      f (freshBank g.version cpu b) := by
    rw [hf, freshBank_configureHw _ _ _ hid]
  rw [← hf]
  have hbank : (g.modifyBank cpuId f).fresh.bank = (g.fresh.modifyBank cpuId f).bank := by
    funext cpu
    have hversion : (g.modifyBank cpuId f).version = g.version := rfl
    rw [modifyBank_bank]
    obtain rfl | hne := eq_or_ne cpu cpuId
    · rw [if_pos rfl, fresh_bank hcpu, fresh_bank (g := g.modifyBank cpu f) hcpu, modifyBank_bank,
        if_pos rfl, ← hcomm]
      rfl
    · rw [if_neg hne]
      by_cases hlt : cpu < g.numVcpus
      · rw [fresh_bank hlt, fresh_bank (g := g.modifyBank cpuId f) hlt, modifyBank_bank, if_neg hne]
        rfl
      · rw [fresh_bank_of_le hlt, fresh_bank_of_le (g := g.modifyBank cpuId f) hlt,
          modifyBank_bank, if_neg hne]
  show { g.fresh with bank := (g.modifyBank cpuId f).fresh.bank } =
    { g.fresh with bank := (g.fresh.modifyBank cpuId f).bank }
  rw [hbank]

theorem fresh_configure_shared (g : GicD) {cpuId irqId : ℕ} (hid : spiBase ≤ irqId)
    (hirq : irqId < g.configuredIrqs) (hw : Bool) (pintid : UInt16) (edge : Bool) :
    (g.modifyIrq cpuId irqId (·.configureHw hw pintid edge)).fresh =
      g.fresh.modifyIrq cpuId irqId (·.configureHw hw pintid edge) := by
  rw [modifyIrq, modifyIrq, if_neg (Nat.not_lt.2 hid), if_neg (Nat.not_lt.2 hid)]
  obtain ⟨e, he⟩ : ∃ e : ℕ → Irq, e =
    Function.update g.irq irqId ((g.irq irqId).configureHw hw pintid edge) := ⟨_, rfl⟩
  have hirqs : ({ g with irq := e } : GicD).fresh.irq =
      Function.update g.fresh.irq irqId ((g.fresh.irq irqId).configureHw hw pintid edge) := by
    funext id
    rw [fresh_irq]
    dsimp only
    rw [he]
    obtain rfl | hne := eq_or_ne id irqId
    · rw [Function.update_self, Function.update_self, fresh_irq, if_pos ⟨hid, hirq⟩,
        if_pos ⟨hid, hirq⟩, reset_constructed_configureHw]
    · rw [Function.update_of_ne hne, Function.update_of_ne hne, fresh_irq]
  have hbank : ({ g with irq := e } : GicD).fresh.bank = g.fresh.bank := by
    funext cpu
    by_cases hlt : cpu < g.numVcpus
    · rw [fresh_bank hlt, fresh_bank (g := { g with irq := e }) hlt]
    · rw [fresh_bank_of_le hlt, fresh_bank_of_le (g := { g with irq := e }) hlt]
  rw [← he, ← hirqs, ← hbank]
  rfl

/-- **A call of `config_irq`** configures the same in a distributor that has just been set up. -/
theorem fresh_configIrq (g : GicD) (cpuId irqId : ℕ) (hw : Bool) (pintid : UInt16) (edge : Bool) :
    (g.configIrq cpuId irqId hw pintid edge).2.fresh =
      (g.fresh.configIrq cpuId irqId hw pintid edge).2 := by
  have hconf : g.fresh.configuredIrqs = g.configuredIrqs := rfl
  have hnum : g.fresh.numVcpus = g.numVcpus := rfl
  rw [configIrq, configIrq, hconf, hnum]
  split_ifs with hirq hcpu
  · rfl
  · rfl
  · rw [Nat.not_le] at hirq hcpu
    obtain hid | hid := Nat.lt_or_ge irqId spiBase
    · exact g.fresh_configure_private hid hcpu hw pintid edge
    · exact g.fresh_configure_shared hid hirq hw pintid edge

/-- Calls of `config_irq`: the vCPU, the interrupt, and its settings. -/
def configure (g : GicD) (calls : List (ℕ × ℕ × Bool × UInt16 × Bool)) : GicD :=
  calls.foldl (fun g call =>
    (g.configIrq call.1 call.2.1 call.2.2.1 call.2.2.2.1 call.2.2.2.2).2) g

theorem fresh_configure (g : GicD) (calls : List (ℕ × ℕ × Bool × UInt16 × Bool)) :
    (g.configure calls).fresh = g.fresh.configure calls := by
  induction calls generalizing g with
  | nil => rfl
  | cons call calls ih =>
      obtain ⟨cpuId, irqId, hw, pintid, edge⟩ := call
      have htail := ih (g.configIrq cpuId irqId hw pintid edge).2
      rw [fresh_configIrq] at htail
      exact htail

end GicD

/-! ## The condition -/

/-- `id` is a private interrupt of the vCPU, or a shared one. -/
def GicD.IsLine (g : GicD) (cpu id : ℕ) : Prop :=
  if id < spiBase then cpu < g.numVcpus else id < g.configuredIrqs

/-- There is no HW interrupt, and no device asserts a line. -/
def GicD.Quiet (g : GicD) : Prop :=
  ∀ cpu id, g.IsLine cpu id →
    (g.irqObject cpu id).hw = false ∧ (g.irqObject cpu id).lineAsserted = false

/-- **The condition.** What a reset leaves alone is as it was in the beginning, or makes no
difference: an LPI may have been delivered, and the hint does not matter to a GICv2, nor if its
remainder by the number of vCPUs is 0 and stays the same as that of a hint from 0 on. -/
structure ItsSys.Unused (s : ItsSys) : Prop where
  swAsserted : ∀ cpu id, s.gic.IsLine cpu id → (s.gic.irqObject cpu id).swAsserted = false
  waker : ∀ cpu < s.gic.numVcpus, (s.gic.bank cpu).gicR.waker = 6
  propBaser : s.gic.propBaser = 0
  pendBaser : s.gic.pendBaser = 0
  hint : s.gic.version = .gicV2 ∨ GicD.HintsAlike s.gic.numVcpus s.gic.vcpuGlobalHint 0
  lpi : ∀ id, lpiBase ≤ id → id < maxIrq →
    Irq.Alike id (s.gic.irq id) (GicD.initialLpi s.gic.version)
  pendingIrqs : ∀ cpu < s.gic.numVcpus, ∀ id, s.gic.configuredIrqs ≤ id →
    (s.gic.bank cpu).pendingIrqs id = false
  baser : s.its.baser = Gits.init.baser

/-! ## Alike platforms -/

/-- The platforms differ in nothing that a call brings to light. -/
structure ItsSys.Alike (s s' : ItsSys) : Prop where
  gic : s.gic.Alike s'.gic
  its : s'.its = s.its
  bus : s'.bus = s.bus

theorem GicD.Alike.resetGicRs {g g' : GicD} (h : g.Alike g') :
    g.resetGicRs.Alike g'.resetGicRs := by
  obtain ⟨_, _, rfl⟩ := h.exists_eq
  exact ⟨rfl, h.irq, h.hint, h.lines⟩

/-- **A call to the distributor** returns the same, and leaves alike what was alike. -/
theorem GicD.Alike.exec {g g' : GicD} (h : g.Alike g') (op : GicOp) :
    g'.answer op = g.answer op ∧ (g.exec op).Alike (g'.exec op) := by
  cases op with
  | mmioWrite cpuId offset bytes value =>
      obtain ⟨hok, hnext⟩ := h.mmioWrite cpuId offset bytes value
      exact ⟨congrArg Answer.flag hok, hnext⟩
  | gicRMmioWrite cpu offset bytes value =>
      obtain ⟨hok, hnext⟩ := h.gicRMmioWrite cpu offset bytes value
      exact ⟨congrArg Answer.flag hok, hnext⟩
  | iccSgi1rEl1 value self => exact ⟨rfl, h.iccSgi1rEl1 value self⟩
  | assertPpi cpuId irqId =>
      obtain ⟨hok, hnext⟩ := h.assertPpi cpuId irqId
      exact ⟨congrArg Answer.flag hok, hnext⟩
  | assertGlobalLine irqId =>
      obtain ⟨hok, hnext⟩ := h.assertGlobalLine irqId
      exact ⟨congrArg Answer.flag hok, hnext⟩
  | deassertLinePpi cpuId irqId => exact ⟨rfl, h.deassertLine cpuId irqId⟩
  | deassertGlobalLine irqId => exact ⟨rfl, h.deassertLine 0 irqId⟩
  | configIrq cpuId irqId hw pintid edge =>
      obtain ⟨hok, hnext⟩ := h.configIrq cpuId irqId hw pintid edge
      exact ⟨congrArg Answer.flag hok, hnext⟩
  | pendingIrq cpuId minPriority =>
      obtain ⟨hlr, hnext⟩ := h.pendingIrq cpuId minPriority
      exact ⟨congrArg Answer.lr hlr, hnext⟩
  | updateInjStatus cpuId irqId state inInjection =>
      exact ⟨rfl, h.updateInjStatus cpuId irqId state inInjection⟩
  | reset => exact ⟨rfl, h.reset⟩

theorem rel_map {α β : Type*} {r : α → α → Prop} {q : β → β → Prop} {o o' : Option α}
    (h : Option.Rel r o o') {f f' : α → β} (hf : ∀ a a', r a a' → q (f a) (f' a')) :
    Option.Rel q (o.map f) (o'.map f') := by
  cases h with
  | some hr => exact .some (hf _ _ hr)
  | none => exact .none

namespace ItsSys.Alike

variable {s s' : ItsSys}

theorem exists_eq (h : s.Alike s') : ∃ g, s' = { s with gic := g } ∧ s.gic.Alike g := by
  obtain ⟨gic, its, bus⟩ := s'
  obtain ⟨hgic, rfl, rfl⟩ := h
  exact ⟨gic, rfl, hgic⟩

theorem handleMsi (h : s.Alike s') (eventId devId : UInt32) :
    Option.Rel Alike (s.handleMsi eventId devId) (s'.handleMsi eventId devId) := by
  obtain ⟨g, rfl, hg⟩ := h.exists_eq
  simp only [ItsSys.handleMsi]
  cases s.its.translate s.bus eventId devId with
  | none => exact .some h
  | some found =>
      exact rel_map (hg.assertLpi s.bus found.1 found.2) fun _ _ hnext => ⟨hnext, rfl, rfl⟩

theorem handleMovi (h : s.Alike s') (devId eventId : UInt32) (icid : UInt16) :
    (s.handleMovi devId eventId icid).Alike (s'.handleMovi devId eventId icid) := by
  obtain ⟨g, rfl, hg⟩ := h.exists_eq
  simp only [ItsSys.handleMovi]
  split_ifs
  all_goals exact ⟨hg, rfl, rfl⟩

theorem handleMapd (h : s.Alike s') (valid : Bool) (devId : UInt32) (ittAddr : UInt64)
    (ittSize : UInt8) : Option.Rel Alike (s.handleMapd valid devId ittAddr ittSize)
      (s'.handleMapd valid devId ittAddr ittSize) := by
  obtain ⟨g, rfl, hg⟩ := h.exists_eq
  simp only [ItsSys.handleMapd]
  split_ifs
  · exact .none
  · exact .some ⟨hg, rfl, rfl⟩
  · exact .some ⟨hg, rfl, rfl⟩

theorem handleMapc (h : s.Alike s') (valid : Bool) (rdBase : UInt32) (icid : UInt16) :
    (s.handleMapc valid rdBase icid).Alike (s'.handleMapc valid rdBase icid) := by
  obtain ⟨g, rfl, hg⟩ := h.exists_eq
  exact ⟨hg, rfl, rfl⟩

theorem handleMapti (h : s.Alike s') (devId eventId pintid : UInt32) (icid : UInt16) :
    (s.handleMapti devId eventId pintid icid).Alike
      (s'.handleMapti devId eventId pintid icid) := by
  obtain ⟨g, rfl, hg⟩ := h.exists_eq
  simp only [ItsSys.handleMapti]
  split_ifs
  all_goals exact ⟨hg, rfl, rfl⟩

theorem handleCommand (h : s.Alike s') (q0 q1 q2 : UInt64) :
    Option.Rel Alike (s.handleCommand q0 q1 q2) (s'.handleCommand q0 q1 q2) := by
  simp only [ItsSys.handleCommand]
  split_ifs
  · exact .some (h.handleMovi _ _ _)
  · exact h.handleMsi _ _
  · exact h.handleMapd _ _ _ _
  · exact .some (h.handleMapc _ _ _)
  · exact .some (h.handleMapti _ _ _ _)
  · exact .some h
  · exact .none

theorem atCommand (h : s.Alike s') (creadr : UInt64) :
    (s.atCommand creadr).Alike (s'.atCommand creadr) := by
  obtain ⟨g, rfl, hg⟩ := h.exists_eq
  exact ⟨hg, rfl, rfl⟩

theorem fetchLoop (h : s.Alike s') (cbaserSize : UInt64) (n : ℕ) :
    Option.Rel Alike (ItsSys.fetchLoop cbaserSize n s).2 (ItsSys.fetchLoop cbaserSize n s').2 := by
  induction n generalizing s s' with
  | zero => exact .some h
  | succ n ih =>
      simp only [ItsSys.fetchLoop, h.its, h.bus]
      split_ifs
      · exact .some h
      · cases s.bus.readCommand (s.its.queueBase + s.its.creadr) with
        | none => exact .some (h.atCommand _)
        | some q =>
            have hcommand := h.handleCommand q.1 q.2.1 q.2.2.1
            dsimp only
            generalize s.handleCommand q.1 q.2.1 q.2.2.1 = o at hcommand ⊢
            generalize s'.handleCommand q.1 q.2.1 q.2.2.1 = o' at hcommand ⊢
            cases hcommand with
            | none => exact .none
            | some hnext =>
                dsimp only
                rw [hnext.its]
                exact ih (hnext.atCommand _)

theorem fetchCommands (h : s.Alike s') :
    Option.Rel Alike s.fetchCommands.2 s'.fetchCommands.2 := by
  simp only [ItsSys.fetchCommands, h.its]
  split_ifs
  · exact .some h
  · exact h.fetchLoop _ _

theorem withIts (h : s.Alike s') (its : Gits) :
    Alike { s with its := its } { s' with its := its } := ⟨h.gic, rfl, h.bus⟩

theorem writeCwriter (h : s.Alike s') (value : UInt64) :
    Option.Rel Alike (s.writeCwriter value).2 (s'.writeCwriter value).2 := by
  have hstore : (s.withCwriter (value &&& 0xFFFE0)).Alike (s'.withCwriter (value &&& 0xFFFE0)) := by
    simpa only [ItsSys.withCwriter, h.its] using h.withIts _
  simp only [ItsSys.writeCwriter]
  generalize s.withCwriter (value &&& 0xFFFE0) = e at hstore ⊢
  generalize s'.withCwriter (value &&& 0xFFFE0) = e' at hstore ⊢
  rw [hstore.its]
  by_cases hodd : value &&& 1 ≠ 0
  · rw [if_pos hodd, if_pos hodd]
    exact .none
  · rw [if_neg hodd, if_neg hodd]
    split_ifs
    · exact hstore.fetchCommands
    · exact .some hstore

theorem mmioWrite (h : s.Alike s') (offset : UInt64) (bytes : UInt8) (value : UInt64) :
    Option.Rel Alike (s.mmioWrite offset bytes value) (s'.mmioWrite offset bytes value) := by
  simp only [ItsSys.mmioWrite, ItsSys.writeCbaser, h.its]
  split_ifs
  · cases s.its.writeCtlr offset bytes value with
    | none => exact .none
    | some its => exact .some (h.withIts its)
  · exact .none
  · exact .some (h.withIts _)
  · exact h.writeCwriter value
  · exact .none
  · exact .some (h.withIts _)
  · exact .none

theorem act (h : s.Alike s') (a : ItsAct) : Option.Rel Alike (s.act a) (s'.act a) := by
  cases a with
  | write offset bytes value => exact h.mmioWrite offset bytes value
  | msi eventId devId => exact h.handleMsi eventId devId
  | guest mem =>
      obtain ⟨g, rfl, hg⟩ := h.exists_eq
      exact .some ⟨hg, rfl, rfl⟩

theorem reset (h : s.Alike s') : s.reset.Alike s'.reset :=
  ⟨h.gic.reset.resetGicRs, congrArg Gits.reset h.its, h.bus⟩

/-- **A step** answers the same, and leaves alike what was alike. -/
theorem step (h : s.Alike s') (op : SysOp) :
    Option.Rel (fun p p' => p'.1 = p.1 ∧ p.2.Alike p'.2) (s.step op) (s'.step op) := by
  cases op with
  | gic op =>
      obtain ⟨hanswer, hnext⟩ := h.gic.exec op
      exact .some ⟨hanswer, hnext, h.its, h.bus⟩
  | its a => exact rel_map (h.act a) fun _ _ hnext => ⟨rfl, hnext⟩
  | gicDRead cpuId offset bytes =>
      exact .some ⟨congrArg Answer.read (h.gic.mmioRead cpuId offset bytes), h⟩
  | gicRRead cpu aff last offset bytes =>
      exact .some ⟨congrArg Answer.read (h.gic.gicRMmioRead cpu aff last offset bytes), h⟩
  | gitsRead offset bytes =>
      simp only [ItsSys.step, h.its]
      cases s.its.mmioRead offset bytes with
      | none => exact .none
      | some r => exact .some ⟨rfl, h⟩
  | intPending cpuId => exact .some ⟨congrArg Answer.flag (h.gic.intPending cpuId), h⟩
  | notified cpuId => exact .some ⟨by rw [h.gic.bank], h⟩
  | reset => exact .some ⟨rfl, h.reset⟩

/-- **Platforms that are alike** answer every sequence of calls alike. -/
theorem answers (h : s.Alike s') (ops : List SysOp) : s'.answers ops = s.answers ops := by
  induction ops generalizing s s' with
  | nil => rfl
  | cons op ops ih =>
      have hstep := h.step op
      simp only [ItsSys.answers]
      generalize s.step op = o at hstep ⊢
      generalize s'.step op = o' at hstep ⊢
      cases hstep with
      | none => rfl
      | some hrel =>
          obtain ⟨hanswer, hnext⟩ := hrel
          simp only [hanswer, ih hnext]

end ItsSys.Alike

/-! ## After the reset -/

theorem Irq.reset_constructed {irq : Irq} (hhw : irq.hw = false)
    (hline : irq.lineAsserted = false) (hsw : irq.swAsserted = false) (t : UInt8) :
    irq.constructed.reset t = irq.reset t := by
  simp [constructed, configureHw, reset, hhw, hline, hsw]

theorem GicD.irqObject_constructed {g : GicD} {cpu id : ℕ} (hline : g.IsLine cpu id) :
    g.constructed.irqObject cpu id = (g.irqObject cpu id).constructed := by
  rw [IsLine] at hline
  rw [irqObject, irqObject]
  by_cases hid : id < spiBase
  · rw [if_pos hid] at hline
    simp only [constructed, if_pos hid, if_pos hline]
  · rw [if_neg hid] at hline
    simp only [constructed, if_neg hid, if_pos (And.intro (Nat.not_lt.1 hid) hline)]

namespace ItsSys

variable {s : ItsSys}

theorem reset_constructed (hquiet : s.gic.Quiet) (hunused : s.Unused) {cpu id : ℕ}
    (hline : s.gic.IsLine cpu id) (t : UInt8) :
    (s.gic.irqObject cpu id).constructed.reset t = (s.gic.irqObject cpu id).reset t := by
  obtain ⟨hhw, hlow⟩ := hquiet cpu id hline
  exact Irq.reset_constructed hhw hlow (hunused.swAsserted cpu id hline) t

theorem resetBank_constructed (hquiet : s.gic.Quiet) (hunused : s.Unused) {cpu : ℕ}
    (hcpu : cpu < s.gic.numVcpus) : s.gic.constructed.resetBank cpu =
      { s.gic.resetBank cpu with gicR := (s.gic.bank cpu).gicR.reset } := by
  have hprivate {id : ℕ} (hid : id < spiBase) (t : UInt8) :
      ((s.gic.bank cpu).irq id).constructed.reset t = ((s.gic.bank cpu).irq id).reset t := by
    have h := @reset_constructed s hquiet hunused cpu id
    rw [GicD.IsLine, GicD.irqObject, if_pos hid, if_pos hid] at h
    exact h hcpu t
  have hhw {id : ℕ} (hid : id < s.gic.configuredIrqs) :
      (s.gic.irqObject cpu id).hw = false ∧ (s.gic.constructed.irqObject cpu id).hw = false := by
    have hline : s.gic.IsLine cpu id := by
      rw [GicD.IsLine]
      split_ifs
      · exact hcpu
      · exact hid
    have hhw := (hquiet cpu id hline).1
    rw [GicD.irqObject_constructed hline]
    exact ⟨hhw, hhw⟩
  have hgicR : (s.gic.bank cpu).gicR.reset = {} := by
    rw [GicR.reset, hunused.waker cpu hcpu]
  have hconf : s.gic.constructed.configuredIrqs = s.gic.configuredIrqs := rfl
  have hversion : s.gic.constructed.version = s.gic.version := rfl
  have hbank : s.gic.constructed.bank cpu =
      { irq := fun id =>
          if id < spiBase then ((s.gic.bank cpu).irq id).constructed else (s.gic.bank cpu).irq id
        notify := (s.gic.bank cpu).notify
        irqSig := (s.gic.bank cpu).irqSig } := if_pos hcpu
  simp only [GicD.resetBank, hbank, hconf, hversion, hgicR, Banked.mk.injEq, and_true]
  refine ⟨funext fun id => ?_, funext fun id => ?_⟩
  · by_cases hid : id < spiBase
    · simp only [if_pos hid, hprivate hid]
    · have hsgi : ¬id < maxSgi := fun h => hid (Nat.lt_trans h (by decide))
      simp only [if_neg hid, if_neg hsgi]
  · by_cases hid : id < s.gic.configuredIrqs
    · simp only [if_pos hid, (hhw hid).1, (hhw hid).2, Bool.false_eq_true, if_false]
    · simp only [if_neg hid, hunused.pendingIrqs cpu hcpu id (Nat.not_lt.1 hid)]

/-- **A reset**, where nothing is left over, makes of the GIC one that has just been set up. -/
theorem reset_alike_fresh (hlines : s.gic.configuredIrqs ≤ maxIrqNoLpi) (hquiet : s.gic.Quiet)
    (hunused : s.Unused) : s.reset.Alike s.fresh := by
  have hbank : s.fresh.gic.bank = s.reset.gic.bank := by
    funext cpu
    have hnum : s.gic.constructed.numVcpus = s.gic.numVcpus := rfl
    by_cases hcpu : cpu < s.gic.numVcpus
    · simp only [fresh, GicD.fresh, reset, GicD.reset, GicD.resetGicRs, hnum, if_pos hcpu]
      rw [resetBank_constructed hquiet hunused hcpu]
      rfl
    · simp only [fresh, GicD.fresh, reset, GicD.reset, GicD.resetGicRs, hnum, if_neg hcpu]
      simp only [GicD.constructed, if_neg hcpu]
  have hits : s.fresh.its = s.reset.its := by
    simp only [fresh, reset, Gits.reset, hunused.baser, Gits.init]
  refine ⟨⟨?_, fun id => ?_, ?_, hlines⟩, hits, rfl⟩
  · have hprop : s.reset.gic.propBaser = 0 := hunused.propBaser
    have hpend : s.reset.gic.pendBaser = 0 := hunused.pendBaser
    rw [← hbank, hprop, hpend]
    rfl
  · have hirq : s.reset.gic.irq id =
      if spiBase ≤ id ∧ id < s.gic.configuredIrqs then (s.gic.irq id).reset 1
      else s.gic.irq id := rfl
    have hfresh : s.fresh.gic.irq id =
      if spiBase ≤ id ∧ id < s.gic.configuredIrqs then (s.gic.constructed.irq id).reset 1
      else s.gic.constructed.irq id := rfl
    rw [hirq, hfresh, GicD.constructed]
    by_cases hspi : spiBase ≤ id ∧ id < s.gic.configuredIrqs
    · have hline : s.gic.IsLine 0 id := by
        rw [GicD.IsLine, if_neg (Nat.not_lt.2 hspi.1)]
        exact hspi.2
      have hreset := reset_constructed hquiet hunused hline 1
      rw [GicD.irqObject, if_neg (Nat.not_lt.2 hspi.1)] at hreset
      simp only [if_pos hspi, hreset]
      exact .refl _ _
    · simp only [if_neg hspi]
      split_ifs with hlpi
      · exact hunused.lpi id hlpi.1 hlpi.2
      · exact .refl _ _
  · refine hunused.hint.imp (fun hversion => ⟨hversion, ?_⟩) id
    simp [GicD.affinityRouting, reset, GicD.reset, GicD.resetGicRs]

theorem lines_run {t : ItsSys} {ops : List SysOp} (hlines : s.gic.configuredIrqs ≤ maxIrqNoLpi)
    (h : s.run ops = some t) : t.gic.configuredIrqs ≤ maxIrqNoLpi := by
  induction ops generalizing s with
  | nil =>
      cases h
      exact hlines
  | cons op ops ih =>
      have hrefl : s.Alike s := ⟨⟨rfl, fun id => .refl id _, .inr (.inl rfl), hlines⟩, rfl, rfl⟩
      have hstep := hrefl.step op
      rw [run] at h
      generalize s.step op = o at h hstep
      cases hstep with
      | none => cases h
      | some hrel => exact ih hrel.2.gic.lines h

theorem lines_start (c : GicConfig) : c.start.gic.configuredIrqs ≤ maxIrqNoLpi := by
  have hlines : c.start.gic.configuredIrqs = computeIrqLines c.confIrqs := by
    rw [GicConfig.start]
    dsimp only
    split_ifs
    · rfl
    · rfl
  rw [hlines]
  exact min_le_left _ _

/-- **The second boot.** Whatever has happened to a GIC since it was set up, if there is no HW
interrupt, no device asserts a line, and nothing is left over that a reset leaves alone, then it
answers every sequence of calls after a reset as one that has just been set up. -/
theorem reset_restores (c : GicConfig) (ops : List SysOp) {s : ItsSys}
    (hrun : c.start.run ops = some s) (hquiet : s.gic.Quiet) (hunused : s.Unused)
    (later : List SysOp) : s.reset.answers later = s.fresh.answers later :=
  ((reset_alike_fresh (lines_run (lines_start c) hrun) hquiet hunused).answers later).symm

/-! ## In the beginning -/

section Start

variable (c : GicConfig)

theorem gic_start : c.start.gic =
    { GicD.init c.version c.numVcpus (computeIrqLines c.confIrqs) with
      lpiSupported := c.lpiSupported
      clusters := c.clusters
      irq := c.start.gic.irq } := by
  rw [GicConfig.start]
  dsimp only
  split_ifs
  · rfl
  · rfl

theorem irq_start (id : ℕ) :
    c.start.gic.irq id = if lpiBase ≤ id then GicD.initialLpi c.version else {} := by
  have hinit (id : ℕ) :
      (GicD.init c.version c.numVcpus (computeIrqLines c.confIrqs)).irq id = {} := by
    simp only [GicD.init, GicD.reset]
    split_ifs
    · rfl
    · rfl
  rw [GicConfig.start, GicD.initialLpi]
  dsimp only
  split_ifs with hversion hid hid
  · simp only [GicD.initLpis, if_pos hid, hinit]
  · simp only [GicD.initLpis, if_neg hid, hinit]
  · exact hinit id
  · exact hinit id

theorem bank_start {cpu : ℕ} (hcpu : cpu < c.numVcpus) :
    c.start.gic.bank cpu = GicD.freshBank c.version cpu {} := by
  rw [gic_start]
  simp only [GicD.init, GicD.reset, if_pos hcpu, GicD.resetBank, GicD.freshBank, Banked.mk.injEq,
    and_true]
  refine ⟨funext fun id => ?_, funext fun id => ?_⟩
  · rfl
  · simp only [Bool.or_self, ite_self]

theorem numVcpus_start : c.start.gic.numVcpus = c.numVcpus := by rw [gic_start]; rfl

theorem irqObject_start {cpu id : ℕ} (hline : c.start.gic.IsLine cpu id) :
    (c.start.gic.irqObject cpu id).hw = false ∧
      (c.start.gic.irqObject cpu id).lineAsserted = false ∧
      (c.start.gic.irqObject cpu id).swAsserted = false := by
  rw [GicD.IsLine, numVcpus_start] at hline
  rw [GicD.irqObject]
  split_ifs at hline ⊢ with hid
  · rw [bank_start c hline]
    simp only [GicD.freshBank, if_pos hid]
    split_ifs
    all_goals exact ⟨rfl, rfl, rfl⟩
  · rw [irq_start, GicD.initialLpi]
    split_ifs
    all_goals exact ⟨rfl, rfl, rfl⟩

theorem quiet_start : c.start.gic.Quiet := fun _ _ hline =>
  ⟨(irqObject_start c hline).1, (irqObject_start c hline).2.1⟩

theorem unused_start : c.start.Unused where
  swAsserted _ _ hline := (irqObject_start c hline).2.2
  waker cpu hcpu := by
    rw [numVcpus_start] at hcpu
    rw [bank_start c hcpu]
    rfl
  propBaser := by rw [gic_start]; rfl
  pendBaser := by rw [gic_start]; rfl
  hint := .inr (.inl (by rw [gic_start]; rfl))
  lpi id hlo _ := by
    rw [irq_start, if_pos hlo, gic_start]
    exact .refl _ _
  pendingIrqs cpu hcpu id _ := by
    rw [numVcpus_start] at hcpu
    rw [bank_start c hcpu]
    rfl
  baser := rfl

theorem fresh_gic_start : c.start.gic.fresh = c.start.gic := by
  have hversion : c.start.gic.version = c.version := by rw [gic_start]; rfl
  have hbank : c.start.gic.fresh.bank = c.start.gic.bank := by
    funext cpu
    by_cases hcpu : cpu < c.numVcpus
    · rw [GicD.fresh_bank (by rwa [numVcpus_start]), bank_start c hcpu, hversion]
      simp only [GicD.freshBank, Banked.mk.injEq, and_true]
      funext id
      split_ifs
      all_goals rfl
    · exact GicD.fresh_bank_of_le (by rwa [numVcpus_start])
  have hirq : c.start.gic.fresh.irq = c.start.gic.irq := by
    funext id
    have hlines := lines_start c
    rw [GicD.fresh_irq, hversion]
    split_ifs with hspi hlpi
    · have hlt : ¬lpiBase ≤ id := by
        simp only [lpiBase, maxIrqNoLpi] at hlines ⊢
        omega
      rw [irq_start, if_neg hlt]
      rfl
    · rw [irq_start, if_pos hlpi.1]
    · rfl
  have hctlr : c.start.gic.ctlr = 0 := by rw [gic_start]; rfl
  have hhint : c.start.gic.vcpuGlobalHint = 0 := by rw [gic_start]; rfl
  have hgic : c.start.gic.fresh =
      { c.start.gic with bank := c.start.gic.fresh.bank, irq := c.start.gic.fresh.irq } := by
    dsimp only
    rw [hctlr, hhint, (unused_start c).propBaser, (unused_start c).pendBaser]
    rfl
  rw [hbank, hirq] at hgic
  exact hgic

/-- **A GIC that has just been set up**, and configured by some calls of `config_irq`, is the fresh
GIC with its settings. -/
theorem fresh_start (calls : List (ℕ × ℕ × Bool × UInt16 × Bool)) :
    fresh { c.start with gic := c.start.gic.configure calls } =
      { c.start with gic := c.start.gic.configure calls } := by
  rw [fresh]
  dsimp only
  rw [GicD.fresh_configure, fresh_gic_start]
  rfl

end Start

/-- A GICv3 of one vCPU. -/
def oneVcpuGic : GicConfig where
  version := .gicV3
  numVcpus := 1
  confIrqs := 64
  lpiSupported := true
  clusters := fun _ => none
  bus := GicD.lpiBus

/-- The redistributor is awake after a reset, if the guest has woken it before. -/
theorem waker_survives : ¬∀ (c : GicConfig) (ops : List SysOp) (s : ItsSys),
    c.start.run ops = some s → s.gic.Quiet →
      ∀ later, s.reset.answers later = s.fresh.answers later := by
  intro hall
  have hquiet : (oneVcpuGic.start.gic.exec (.gicRMmioWrite 0 0x14 4 0)).Quiet := by
    have hwake : oneVcpuGic.start.gic.exec (.gicRMmioWrite 0 0x14 4 0) =
      oneVcpuGic.start.gic.modifyGicR 0 ({ · with waker := 0 }) := rfl
    intro cpu id hline
    rw [hwake, GicD.modifyGicR_irqObject]
    exact quiet_start oneVcpuGic cpu id hline
  have hsame := hall oneVcpuGic [.gic (.gicRMmioWrite 0 0x14 4 0)] _ rfl hquiet
    [.gicRRead 0 0 true 0x14 4]
  revert hsame
  decide +kernel

/-- A GICv3 of two vCPUs. -/
def twoVcpuGic : GicConfig := { oneVcpuGic with numVcpus := 2 }

/-- The guest enables both groups, the LPIs of vCPU 1 and the ITS, and disables group 0 again. -/
def enableAll : List SysOp :=
  [.gic (.mmioWrite 0 0x0 4 3), .gic (.gicRMmioWrite 1 0x0 4 1),
    .its (.write 0x80 8 0x8000000000050000), .its (.write 0x0 4 1), .gic (.mmioWrite 1 0x0 4 2)]

/-- It reads what it has written. -/
def readAll : List SysOp :=
  [.gicDRead 1 0x0 4, .gicRRead 1 1 true 0x0 4, .gitsRead 0x80 8, .gitsRead 0x0 4, .intPending 1]

/-- What it has written is not there any more after a reset. -/
theorem registers_reset : ∃ s, twoVcpuGic.start.run enableAll = some s ∧
    s.answers readAll ≠ s.fresh.answers readAll ∧
      s.reset.answers readAll = s.fresh.answers readAll := by
  have hstart := unused_start twoVcpuGic
  obtain ⟨s, hrun, hgic, hbaser, hanswers⟩ : ∃ s, twoVcpuGic.start.run enableAll = some s ∧
      s.gic = { twoVcpuGic.start.gic.modifyGicR 1 ({ · with ctlr := 3 }) with ctlr := 66 } ∧
      s.its.baser = Gits.init.baser ∧ s.answers readAll ≠ s.fresh.answers readAll :=
    ⟨_, rfl, rfl, rfl, by decide +kernel⟩
  have hobj (cpu id : ℕ) : s.gic.irqObject cpu id = twoVcpuGic.start.gic.irqObject cpu id := by
    rw [hgic]
    exact twoVcpuGic.start.gic.modifyGicR_irqObject 1 ({ · with ctlr := 3 }) cpu id
  have hline {cpu id : ℕ} (h : s.gic.IsLine cpu id) : twoVcpuGic.start.gic.IsLine cpu id := by
    rw [hgic] at h
    exact h
  refine ⟨s, hrun, hanswers, reset_restores twoVcpuGic enableAll hrun ?_ ?_ _⟩
  · intro cpu id h
    rw [hobj]
    exact quiet_start twoVcpuGic cpu id (hline h)
  · refine ⟨fun cpu id h => ?_, ?_, ?_, ?_, ?_, ?_, ?_, hbaser⟩
    · rw [hobj]
      exact hstart.swAsserted cpu id (hline h)
    · rw [hgic]
      decide +kernel
    · rw [hgic]
      exact hstart.propBaser
    · rw [hgic]
      exact hstart.pendBaser
    · rw [hgic]
      exact hstart.hint
    · rw [hgic]
      exact hstart.lpi
    · intro cpu hcpu id hid
      rw [hgic] at hcpu hid ⊢
      rw [← hstart.pendingIrqs cpu hcpu id hid]
      by_cases h : cpu = 1
      · subst h
        rfl
      · rw [GicD.modifyGicR, GicD.modifyBank]
        dsimp only
        rw [Function.update_of_ne h]

end ItsSys

end Vml
