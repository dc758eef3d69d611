import Vml.GicMmio
import Vml.Lib.Run

/-!
# Runs of the GIC

What the vCPUs and the devices do to the GIC, call by call, and how a property of all its states is
proved.

**Calls and their effects.** However a guest writes to the registers, it stores to the fields of an
interrupt, to a register, or it asserts, takes back or re-routes interrupts. A property that these
keep (`CallRule`) is kept by every register write and every device line, which leaves `inject`,
`updateInjStatus` and `reset` to look at. Where it matters which interrupts are asserted
(`assertedBy`), the property need only be kept by the assertions of those (`AssertRule`).

Main results: `AssertRule.mmioWrite`, `AssertRule.gicRMmioWrite`, `AssertRule.iccSgi1rEl1`,
`exec_keeps_of`, and `exec_keeps`.
-/

namespace Vml

/-- A call to the GIC: the guest writes to a register, a device sets a line, or a vCPU exchanges
interrupts with its list registers. -/
inductive GicOp
  | mmioWrite (cpuId : ℕ) (offset : UInt64) (bytes : UInt8) (value : UInt64)
  | gicRMmioWrite (cpu : ℕ) (offset : UInt64) (bytes : UInt8) (value : UInt64)
  | iccSgi1rEl1 (value : UInt64) (self : ℕ)
  | assertPpi (cpuId irqId : ℕ)
  | assertGlobalLine (irqId : ℕ)
  | deassertLinePpi (cpuId irqId : ℕ)
  | deassertGlobalLine (irqId : ℕ)
  | configIrq (cpuId irqId : ℕ) (hw : Bool) (pintid : UInt16) (edge : Bool)
  | pendingIrq (cpuId : ℕ) (minPriority : UInt8)
  | updateInjStatus (cpuId irqId : ℕ) (state : IrqState) (inInjection : Bool)
  | reset

namespace GicD

/-- The call is made. -/
def exec (g : GicD) : GicOp → GicD
  | .mmioWrite cpuId offset bytes value => (g.mmioWrite cpuId offset bytes value).2
  | .gicRMmioWrite cpu offset bytes value => (g.gicRMmioWrite cpu offset bytes value).2
  | .iccSgi1rEl1 value self => g.iccSgi1rEl1 value self
  | .assertPpi cpuId irqId => (g.assertPpi cpuId irqId).2
  | .assertGlobalLine irqId => (g.assertGlobalLine irqId).2
  | .deassertLinePpi cpuId irqId => g.deassertLinePpi cpuId irqId
  | .deassertGlobalLine irqId => g.deassertGlobalLine irqId
  | .configIrq cpuId irqId hw pintid edge => (g.configIrq cpuId irqId hw pintid edge).2
  | .pendingIrq cpuId minPriority => (g.pendingIrq cpuId minPriority).2
  | .updateInjStatus cpuId irqId state inInjection =>
      g.updateInjStatus cpuId irqId state inInjection
  | .reset => g.reset

/-- No interrupt is pending or injected, as in a GIC that has just been set up. -/
structure Fresh (g : GicD) : Prop where
  pendingIrqs : ∀ cpu id, (g.bank cpu).pendingIrqs id = false
  inInjectionIrqs : ∀ cpu id, (g.bank cpu).inInjectionIrqs id = false
  injectionInfo : ∀ cpu id, (g.irqObject cpu id).injectionInfo = {}

/-- A GIC that has been set up (`GicD::init`). -/
def init (version : IrqCtlrVersion) (numVcpus configuredIrqs : ℕ) : GicD :=
  reset { version, numVcpus, configuredIrqs }

theorem fresh_init (version : IrqCtlrVersion) (numVcpus configuredIrqs : ℕ) :
    (init version numVcpus configuredIrqs).Fresh where
  pendingIrqs cpu id := by
    simp only [init, reset, resetBank, irqObject]
    split_ifs <;> simp
  inInjectionIrqs cpu id := by
    simp only [init, reset, resetBank]
    split_ifs <;> rfl
  injectionInfo cpu id := by
    simp only [init, reset, resetBank, irqObject, Irq.reset]
    split_ifs <;> simp_all only [if_true]
    all_goals split_ifs <;> rfl

theorem run_exec (g : GicD) (ops : List GicOp) :
    Run (fun (g : GicD) op t => t = g.exec op) g ops (ops.foldl exec g) := by
  induction ops generalizing g with
  | nil => exact .nil
  | cons op ops ih => exact .cons rfl (ih _)

/-! ## The interrupts of an access -/

/-- An access goes to the interrupts below its bound. -/
theorem lt_irqMax_of_mem_irqs {acc : IrqMmioAccess} (hper : acc.irqPerBytes ≤ 8)
    (hmax : acc.irqMax ≤ 32768) {p : ℕ × ℕ} (hp : p ∈ acc.irqs) : p.2 < acc.irqMax.toNat := by
  have hb := acc.bytes.toNat_lt
  rw [IrqMmioAccess.irqs] at hp
  split_ifs at hp with hvalid
  case neg => exact absurd hp List.not_mem_nil
  obtain ⟨i, hi, rfl⟩ := List.mem_map.1 hp
  have hi := List.mem_range.1 hi
  rw [IrqMmioAccess.numIrqs] at hi
  split_ifs at hi with hle
  · exact absurd hi (Nat.not_lt_zero i)
  dsimp only at hi ⊢
  generalize acc.firstIrqAccessed = first at hi hle ⊢
  obtain ⟨n, hn⟩ : ∃ n : UInt16, n = acc.bytes.toUInt16 * acc.irqPerBytes.toUInt16 := ⟨_, rfl⟩
  rw [← hn] at hi
  rw [UInt8.le_iff_toNat_le] at hper
  rw [UInt16.le_iff_toNat_le] at hmax hle
  have hprod : acc.bytes.toNat * acc.irqPerBytes.toNat ≤ 255 * 8 :=
    Nat.mul_le_mul (by omega) hper
  have hnat : n.toNat = acc.bytes.toNat * acc.irqPerBytes.toNat := by
    rw [hn, UInt16.toNat_mul, UInt8.toNat_toUInt16, UInt8.toNat_toUInt16]
    exact Nat.mod_eq_of_lt (by omega)
  have h15 : (32768 : UInt16).toNat = 32768 := rfl
  -- nothing wraps, so the access ends at the bound when it would reach beyond it
  have hsum : (first + n).toNat = first.toNat + n.toNat := by
    rw [UInt16.toNat_add, Nat.mod_eq_of_lt (by omega)]
  split_ifs at hi with hover
  · rw [UInt16.lt_iff_toNat_lt, hsum] at hover
    have hsub : (first + n - acc.irqMax).toNat = first.toNat + n.toNat - acc.irqMax.toNat := by
      rw [UInt16.toNat_sub_of_le _ _ (UInt16.le_iff_toNat_le.2 (by omega)), hsum]
    rw [UInt16.toNat_sub_of_le _ _ (UInt16.le_iff_toNat_le.2 (by omega)), hsub] at hi
    omega
  · rw [UInt16.lt_iff_toNat_lt, hsum] at hover
    rw [UInt16.sub_zero] at hi
    omega

theorem lt_maxSgi_of_mem_irqs {acc : IrqMmioAccess} (hper : acc.irqPerBytes = 1)
    (hmax : acc.irqMax = 16) {p : ℕ × ℕ} (hp : p ∈ acc.irqs) : p.2 < maxSgi := by
  have hlt := lt_irqMax_of_mem_irqs (by rw [hper]; decide) (by rw [hmax]; decide) hp
  rwa [hmax] at hlt

/-- An access to the registers with the targets of the SPIs does not reach below them. -/
theorem spiBase_le_of_mem_irqs {acc : IrqMmioAccess} (hbase : acc.irqBase = 32)
    (hper : acc.irqPerBytes = 1) (hoff : acc.baseAbs ≤ acc.offset ∧ acc.offset ≤ 0xbff)
    {p : ℕ × ℕ} (hp : p ∈ acc.irqs) : spiBase ≤ p.2 := by
  have hfirst : spiBase ≤ acc.firstIrqAccessed.toNat := by
    have hle := UInt64.le_iff_toNat_le.1 hoff.2
    have hb : (0xbff : UInt64).toNat = 0xbff := rfl
    have hsub := UInt64.toNat_sub_of_le _ _ hoff.1
    have h1 : (1 : UInt8).toUInt64 = 1 := rfl
    have h32 : (32 : UInt16).toUInt64.toNat = 32 := rfl
    rw [IrqMmioAccess.firstIrqAccessed, hbase, hper, h1, UInt64.mul_one, UInt64.toNat_toUInt16,
      UInt64.toNat_add, h32, hsub]
    simp only [spiBase, ppiBase, maxSgi, maxPpi]
    omega
  rw [IrqMmioAccess.irqs] at hp
  split_ifs at hp with hvalid
  case neg => exact absurd hp List.not_mem_nil
  obtain ⟨i, -, rfl⟩ := List.mem_map.1 hp
  exact hfirst.trans (Nat.le_add_right _ i)

theorem toNat_and_lt_maxSgi (value : UInt64) : (value &&& 0xf).toNat < maxSgi := by
  rw [UInt64.toNat_and]
  exact Nat.and_lt_two_pow _ (show (0xf : UInt64).toNat < 2 ^ 4 by decide)

/-! ## Writes that go to every interrupt of an access -/

section Loops

variable {P : GicD → Prop} {g : GicD}

theorem keeps_ite {β : Type} {c : Prop} [Decidable c] {a b : β × GicD} (ha : c → P a.2)
    (hb : ¬c → P b.2) : P (if c then a else b).2 := by
  split_ifs with hc
  · exact ha hc
  · exact hb hc

theorem mmioAssert_keeps (hg : P g) (acc : IrqMmioAccess) (value : UInt64) {f : GicD → ℕ → GicD}
    (hf : ∀ p ∈ acc.irqs, (value >>> UInt64.ofNat p.1 &&& 1 != 0) = true →
      ∀ g, P g → P (f g p.2)) : P (g.mmioAssert acc value f).2 := by
  refine List.foldlRecOn acc.irqs _ hg fun g hg p hp => ?_
  split_ifs with hbit
  · exact hf p hp hbit g hg
  · exact hg

theorem mmioAssertSgi_keeps (hg : P g) (acc : IrqMmioAccess) (value : UInt64)
    {f : GicD → ℕ → ℕ → GicD} (hacc : ∀ p ∈ acc.irqs, p.2 < maxSgi)
    (hf : ∀ g j id, id < maxSgi → P g → P (f g j id)) : P (g.mmioAssertSgi acc value f).2 := by
  refine List.foldlRecOn acc.irqs _ hg fun g hg p hp => ?_
  refine List.foldlRecOn (List.range gicv2MaxCpus) _ hg fun g hg j _ => ?_
  split_ifs
  · exact hf g j p.2 (hacc p hp) hg
  · exact hg

/-- The scan re-routes SPIs, and changes nothing else. -/
theorem highestIrqLoop_keeps
    (hredirect : ∀ {g}, P g → ∀ id hint, spiBase ≤ id → P (g.redirectSpi id hint).2) (cpuId : ℕ)
    (redirectIrq : Bool) (fuel : ℕ) (hg : P g) (irqId : ℕ) (r : Option ℕ) :
    P (highestIrqLoop cpuId redirectIrq fuel g irqId r).2 := by
  induction fuel generalizing g irqId r with
  | zero => exact hg
  | succ fuel ih =>
      rw [GicD.highestIrqLoop]
      cases g.getNextPendingIrq cpuId irqId with
      | none => exact hg
      | some id =>
          have hnext : P (if !g.considers cpuId id && redirectIrq && decide (spiBase ≤ id) &&
              !g.vcpuCanReceiveIrq cpuId id then (g.redirectSpi id (cpuId + 1)).2 else g) := by
            split_ifs with hr
            · simp only [Bool.and_eq_true, decide_eq_true_eq] at hr
              exact hredirect hg id (cpuId + 1) hr.1.2
            · exact hg
          exact keeps_ite (fun _ => ih hnext _ _) fun _ => hnext

end Loops

/-! ## The interrupts that a call asserts -/

/-- The interrupts that a write to ISPENDR makes pending, each with the vCPU that sees it. -/
def pended (cpu : ℕ) (acc : IrqMmioAccess) (value : UInt64) : List (ℕ × ℕ) :=
  (acc.irqs.filter fun p => value >>> UInt64.ofNat p.1 &&& 1 != 0).map fun p => (cpu, p.2)

/-- The interrupts that a call asserts, less the SGIs that are sent. -/
def assertedBy (g : GicD) : GicOp → List (ℕ × ℕ)
  | .mmioWrite cpuId offset bytes value =>
      if cpuId < g.numVcpus ∧ bytes ≤ 4 ∧ within offset 0x200 0x27f = true then
        pended cpuId { g.irqMmioAccess offset bytes .all with baseAbs := 0x200 }
          (stripSgis offset 0x200 value)
      else []
  | .gicRMmioWrite cpu offset bytes value =>
      if g.affinityRouting = true ∧ within offset 0x10200 0x10203 = true then
        pended cpu { g.irqMmioAccess offset bytes .privateOnly with baseAbs := 0x10200 } value
      else []
  | .assertPpi cpuId irqId => if cpuId < g.numVcpus ∧ irqId < spiBase then [(cpuId, irqId)] else []
  | .assertGlobalLine irqId =>
      if irqId < g.configuredIrqs ∧ spiBase ≤ irqId then [(0, irqId)] else []
  | _ => []

/-! ## What all register writes keep -/

/-- A store to an interrupt that leaves its injection info and its line alone. -/
def Stores (f : Irq → Irq) : Prop :=
  ∀ irq, (f irq).injectionInfo = irq.injectionInfo ∧ (f irq).lineAsserted = irq.lineAsserted

theorem stores_ite {c : Prop} [Decidable c] {f : Irq → Irq} (hf : Stores f) :
    Stores fun irq => if c then f irq else irq := by
  intro irq
  split_ifs
  · exact hf irq
  · exact ⟨rfl, rfl⟩

/-- The device raises the line of an interrupt, if it is level-triggered. -/
def raiseLine (irq : Irq) : Irq := if irq.hwEdge then irq else { irq with lineAsserted := true }

/-- A property that what a call consists of keeps, as long as it asserts no other interrupts than
those in `A`: the stores to an interrupt and to the registers, the changes of a line, and the
assertions, deassertions and re-routings. -/
structure AssertRule (A : ℕ → ℕ → Prop) (P : GicD → Prop) : Prop where
  store : ∀ {g}, P g → ∀ cpu id {f : Irq → Irq}, Stores f → P (g.modifyIrq cpu id f)
  raiseLine : ∀ {g}, P g → ∀ cpu id, A cpu id → P (g.modifyIrq cpu id raiseLine)
  lowerLine : ∀ {g}, P g → ∀ cpu id, id < spiBase →
    P (g.modifyIrq cpu id ({ · with lineAsserted := false }))
  ctlr : ∀ {g}, P g → ∀ v, P { g with ctlr := v }
  propBaser : ∀ {g}, P g → ∀ v, P { g with propBaser := v }
  pendBaser : ∀ {g}, P g → ∀ v, P { g with pendBaser := v }
  bumpHint : ∀ {g : GicD}, P g → P g.bumpHint
  gicR : ∀ {g}, P g → ∀ cpu f, P (g.modifyGicR cpu f)
  assertPi : ∀ {g}, P g → ∀ cpuId owner id, A owner id → P (g.assertPi cpuId owner id).2
  assertSgi : ∀ {g}, P g → ∀ sender target owner id, id < maxSgi →
    P (g.assertSgi sender target owner id).2
  redirectSpi : ∀ {g}, P g → ∀ id hint, spiBase ≤ id → P (g.redirectSpi id hint).2
  deassertPi : ∀ {g}, P g → ∀ owner id, P (g.deassertPi owner id).2
  deassertSgi : ∀ {g}, P g → ∀ sender owner id, id < maxSgi → P (g.deassertSgi sender owner id).2

namespace AssertRule

variable {A : ℕ → ℕ → Prop} {P : GicD → Prop} (h : AssertRule A P) {g : GicD}

include h

theorem assertPiSw (hg : P g) (cpuId : ℕ) {owner id : ℕ} (hA : A owner id) :
    P (g.assertPiSw cpuId owner id).2 :=
  h.assertPi (h.store hg owner id (f := ({ · with swAsserted := true })) fun _ => ⟨rfl, rfl⟩) cpuId
    owner id hA

theorem deassertPiSw (hg : P g) (owner id : ℕ) : P (g.deassertPiSw owner id).2 :=
  h.deassertPi (h.store hg owner id (f := ({ · with swAsserted := false })) fun _ => ⟨rfl, rfl⟩)
    owner id

theorem writeIspendr (hg : P g) (cpu : ℕ) (acc : IrqMmioAccess) (value : UInt64)
    (hA : ∀ p ∈ pended cpu acc value, A p.1 p.2) :
    P (g.mmioAssert acc value fun g id => (g.assertPiSw cpu cpu id).2).2 := by
  refine mmioAssert_keeps hg acc value fun p hp hbit g hg => ?_
  exact h.assertPiSw hg cpu (hA (cpu, p.2) (List.mem_map.2 ⟨p, List.mem_filter.2 ⟨hp, hbit⟩, rfl⟩))

theorem write (hg : P g) (cpu : ℕ) (acc : IrqMmioAccess) (value : UInt64) {f : UInt8 → Irq → Irq}
    (hf : ∀ v, Stores (f v)) : P (g.write cpu acc value f).2 := by
  refine List.foldlRecOn acc.irqs _ hg fun g hg p _ => ?_
  exact h.store hg cpu p.2 (hf _)

theorem reroute (hg : P g) (cpu : ℕ) {id : ℕ} (hid : spiBase ≤ id) {f : Irq → Irq}
    (hf : Stores f) :
    P (if ((g.modifyIrq cpu id f).irqObject cpu id).pending then
      ((g.modifyIrq cpu id f).bumpHint.redirectSpi id
        (g.modifyIrq cpu id f).bumpHint.vcpuGlobalHint.toNat).2
    else g.modifyIrq cpu id f) := by
  have hstore := h.store hg cpu id hf
  split_ifs
  · exact h.redirectSpi (h.bumpHint hstore) _ _ hid
  · exact hstore

theorem changeTarget (hg : P g) (cpu : ℕ) (acc : IrqMmioAccess) (value : UInt64)
    (hacc : ∀ p ∈ acc.irqs, spiBase ≤ p.2) : P (g.changeTarget cpu acc value).2 := by
  refine List.foldlRecOn acc.irqs _ hg fun g hg p hp => ?_
  exact h.reroute hg cpu (hacc p hp) fun _ => ⟨rfl, rfl⟩

theorem sendSgi (hg : P g) (sender target : ℕ) {id : ℕ} (hid : id < maxSgi) :
    P (g.sendSgi sender target id) := h.assertSgi hg sender target target id hid

theorem writeCtlr (hg : P g) (offset : UInt64) (bytes : UInt8) (value : UInt64) :
    P (g.writeCtlr offset bytes value).2 := by
  rw [GicD.writeCtlr]
  split
  · exact h.ctlr hg _
  · exact hg

theorem writeIrouter (hg : P g) (cpu : ℕ) (offset : UInt64) (bytes : UInt8) (value : UInt64) :
    P (g.writeIrouter cpu offset bytes value) := by
  rw [GicD.writeIrouter]
  split_ifs
  · exact hg
  · exact hg
  · exact hg
  · exact h.reroute hg cpu (Nat.le_add_right _ _) fun _ => ⟨rfl, rfl⟩

theorem writeSgir (hg : P g) (cpuId : ℕ) (value : UInt64) : P (g.writeSgir cpuId value) := by
  have hid := toNat_and_lt_maxSgi value
  rw [GicD.writeSgir]
  split_ifs
  · refine List.foldlRecOn _ _ hg fun g hg tcpu _ => ?_
    split_ifs
    · exact h.sendSgi hg cpuId tcpu hid
    · exact hg
  · refine List.foldlRecOn _ _ hg fun g hg tcpu _ => ?_
    split_ifs
    · exact hg
    · exact h.sendSgi hg cpuId tcpu hid
  · exact h.sendSgi hg cpuId cpuId hid
  · exact hg

/-- **The distributor's registers.** -/
theorem mmioWrite32OrLess (hg : P g) (cpuId : ℕ) (acc : IrqMmioAccess) (value : UInt64)
    (hA : within acc.offset 0x200 0x27f = true →
      ∀ p ∈ pended cpuId { acc with baseAbs := 0x200 } (stripSgis acc.offset 0x200 value),
        A p.1 p.2) :
    P (g.mmioWrite32OrLess cpuId acc value).2 := by
  rw [GicD.mmioWrite32OrLess]
  refine keeps_ite (fun _ => h.writeCtlr hg _ _ _) fun _ => ?_
  refine keeps_ite (fun _ => h.write hg _ _ _ fun _ _ => ⟨rfl, rfl⟩) fun _ => ?_
  refine keeps_ite (fun _ => h.write hg _ _ _ fun _ => stores_ite fun _ => ⟨rfl, rfl⟩) fun _ => ?_
  refine keeps_ite (fun _ => h.write hg _ _ _ fun _ => stores_ite fun _ => ⟨rfl, rfl⟩) fun _ => ?_
  refine keeps_ite (fun hoff => h.writeIspendr hg cpuId _ _ (hA hoff)) fun _ => ?_
  refine keeps_ite (fun _ => mmioAssert_keeps hg _ _ fun p _ _ g hg => ?_) fun _ => ?_
  · exact h.deassertPiSw hg cpuId p.2
  refine keeps_ite (fun _ => h.write hg _ _ _ fun _ => stores_ite fun _ => ⟨rfl, rfl⟩) fun _ => ?_
  refine keeps_ite (fun _ => h.write hg _ _ _ fun _ => stores_ite fun _ => ⟨rfl, rfl⟩) fun _ => ?_
  refine keeps_ite (fun _ => h.write hg _ _ _ fun _ _ => ⟨rfl, rfl⟩) fun _ => ?_
  refine keeps_ite (fun hoff => h.changeTarget hg _ _ _ fun p hp => ?_) fun _ => ?_
  · rw [within, decide_eq_true_eq] at hoff
    exact spiBase_le_of_mem_irqs rfl rfl hoff hp
  refine keeps_ite (fun _ => h.write hg _ _ _ fun _ _ => ⟨rfl, rfl⟩) fun _ => ?_
  refine keeps_ite (fun _ => h.write hg _ _ _ fun _ _ => ⟨rfl, rfl⟩) fun _ => ?_
  refine keeps_ite (fun _ => h.writeSgir hg _ _) fun _ => ?_
  refine keeps_ite (fun _ => ?_) fun _ => ?_
  · refine keeps_ite (fun _ => hg) fun _ => mmioAssertSgi_keeps hg _ _ (fun p hp => ?_) ?_
    · exact lt_maxSgi_of_mem_irqs rfl rfl hp
    · exact fun g _ id hid hg => h.deassertSgi hg cpuId cpuId id hid
  refine keeps_ite (fun _ => ?_) fun _ => hg
  refine keeps_ite (fun _ => hg) fun _ => mmioAssertSgi_keeps hg _ _ (fun p hp => ?_) ?_
  · exact lt_maxSgi_of_mem_irqs rfl rfl hp
  · exact fun g j id hid hg => h.assertSgi hg cpuId j cpuId id hid

/-- **`GicD::mmio_write`.** -/
theorem mmioWrite (hg : P g) (cpuId : ℕ) (offset : UInt64) (bytes : UInt8) (value : UInt64)
    (hA : ∀ p ∈ g.assertedBy (.mmioWrite cpuId offset bytes value), A p.1 p.2) :
    P (g.mmioWrite cpuId offset bytes value).2 := by
  rw [GicD.mmioWrite]
  refine keeps_ite (fun _ => hg) fun hvalid => ?_
  refine keeps_ite (fun _ => h.writeIrouter hg _ _ _ _) fun _ => ?_
  refine keeps_ite (fun _ => hg) fun _ => ?_
  refine keeps_ite (fun _ => hg) fun hbytes => h.mmioWrite32OrLess hg _ _ _ fun hoff => ?_
  rw [not_or, not_or] at hvalid
  rwa [assertedBy, if_pos ⟨Nat.not_le.1 hvalid.2.2, UInt8.not_lt.1 hbytes, hoff⟩] at hA

theorem highestIrqLoop (cpuId : ℕ) (redirectIrq : Bool) (fuel : ℕ) (hg : P g) (irqId : ℕ)
    (r : Option ℕ) : P (highestIrqLoop cpuId redirectIrq fuel g irqId r).2 :=
  highestIrqLoop_keeps (P := P) h.redirectSpi cpuId redirectIrq fuel hg irqId r

theorem highestIrq (hg : P g) (cpuId : ℕ) (redirectIrq : Bool) :
    P (g.highestIrq cpuId redirectIrq).2 := h.highestIrqLoop cpuId redirectIrq _ hg _ _

theorem writeWaker (hg : P g) (cpu : ℕ) (offset : UInt64) (bytes : UInt8) (value : UInt64) :
    P (g.writeWaker cpu offset bytes value).2 := by
  rw [GicD.writeWaker]
  refine keeps_ite (fun _ => h.highestIrq ?_ cpu true) fun _ => ?_
  · split
    · next v _ => exact h.gicR hg cpu ({ · with waker := v })
    · exact hg
  · split
    · next v _ => exact h.gicR hg cpu ({ · with waker := v })
    · exact hg

/-- **`GicR::mmio_write`.** -/
theorem gicRMmioWrite (hg : P g) (cpu : ℕ) (offset : UInt64) (bytes : UInt8) (value : UInt64)
    (hA : ∀ p ∈ g.assertedBy (.gicRMmioWrite cpu offset bytes value), A p.1 p.2) :
    P (g.gicRMmioWrite cpu offset bytes value).2 := by
  rw [GicD.gicRMmioWrite]
  refine keeps_ite (fun _ => hg) fun _ => ?_
  refine keeps_ite (fun _ => ?_) fun _ => ?_
  · exact h.gicR hg cpu
      ({ · with ctlr := if g.lpiSupported then 2 ||| value.toUInt32 &&& 1 else 0 })
  refine keeps_ite (fun _ => ?_) fun _ => ?_
  · dsimp only
    split_ifs
    · exact h.propBaser hg value
    · exact hg
  refine keeps_ite (fun _ => ?_) fun _ => ?_
  · dsimp only
    split_ifs
    · exact h.pendBaser hg value
    · exact hg
  refine keeps_ite (fun _ => h.writeWaker hg _ _ _ _) fun _ => ?_
  refine keeps_ite (fun _ => h.write hg _ _ _ fun _ _ => ⟨rfl, rfl⟩) fun _ => ?_
  refine keeps_ite (fun _ => h.write hg _ _ _ fun _ => stores_ite fun _ => ⟨rfl, rfl⟩) fun _ => ?_
  refine keeps_ite (fun _ => h.write hg _ _ _ fun _ => stores_ite fun _ => ⟨rfl, rfl⟩) fun _ => ?_
  refine keeps_ite (fun _ => h.write hg _ _ _ fun _ => stores_ite fun _ => ⟨rfl, rfl⟩) fun _ => ?_
  refine keeps_ite (fun _ => h.write hg _ _ _ fun _ => stores_ite fun _ => ⟨rfl, rfl⟩) fun _ => ?_
  refine keeps_ite (fun _ => h.write hg _ _ _ fun _ _ => ⟨rfl, rfl⟩) fun _ => ?_
  refine keeps_ite (fun hoff => ?_) fun _ => ?_
  · refine keeps_ite (fun _ => hg) fun haff => h.writeIspendr hg cpu _ _ ?_
    rw [Bool.not_eq_true', Bool.not_eq_false] at haff
    rwa [assertedBy, if_pos ⟨haff, hoff⟩] at hA
  refine keeps_ite (fun _ => ?_) fun _ => ?_
  · refine keeps_ite (fun _ => hg) fun _ => mmioAssert_keeps hg _ _ fun p _ _ g hg => ?_
    exact h.deassertPiSw hg cpu p.2
  refine keeps_ite (fun _ => h.write hg _ _ _ fun _ _ => ⟨rfl, rfl⟩) fun _ => ?_
  exact keeps_ite (fun _ => h.write hg _ _ _ fun _ _ => ⟨rfl, rfl⟩) fun _ => hg

/-- **`icc_sgi1r_el1`.** -/
theorem iccSgi1rEl1 (hg : P g) (value : UInt64) (self : ℕ) : P (g.iccSgi1rEl1 value self) := by
  have hid := toNat_and_lt_maxSgi (value >>> 24)
  simp only [GicD.iccSgi1rEl1]
  split_ifs
  · refine List.foldlRecOn _ _ hg fun g hg tcpu _ => ?_
    split_ifs
    · exact hg
    · exact h.sendSgi hg self tcpu hid
  · split
    · exact hg
    · refine List.foldlRecOn _ _ hg fun g hg tcpu _ => ?_
      split_ifs
      · split
        · exact hg
        · exact h.sendSgi hg self _ hid
      · exact hg

theorem assertPpi (hg : P g) (cpuId irqId : ℕ)
    (hA : ∀ p ∈ g.assertedBy (.assertPpi cpuId irqId), A p.1 p.2) :
    P (g.assertPpi cpuId irqId).2 := by
  rw [GicD.assertPpi]
  refine keeps_ite (fun _ => hg) fun hcpu => keeps_ite (fun _ => hg) fun hid => ?_
  rw [assertedBy, if_pos ⟨Nat.not_le.1 hcpu, Nat.not_le.1 hid⟩] at hA
  have hirq := hA _ (List.mem_singleton_self _)
  exact h.assertPi (h.raiseLine hg _ _ hirq) _ _ _ hirq

theorem assertGlobalLine (hg : P g) (irqId : ℕ)
    (hA : ∀ p ∈ g.assertedBy (.assertGlobalLine irqId), A p.1 p.2) :
    P (g.assertGlobalLine irqId).2 := by
  rw [GicD.assertGlobalLine]
  refine keeps_ite (fun _ => hg) fun hconf => keeps_ite (fun _ => hg) fun hid => ?_
  rw [assertedBy, if_pos ⟨Nat.not_le.1 hconf, Nat.not_lt.1 hid⟩] at hA
  have hirq := hA _ (List.mem_singleton_self _)
  exact h.assertPi (h.raiseLine hg _ _ hirq) _ _ _ hirq

theorem deassertLine (hg : P g) (cpuId irqId : ℕ) : P (g.deassertLine cpuId irqId) := by
  rw [GicD.deassertLine]
  dsimp only
  split_ifs with _ hid
  · exact hg
  · exact hg
  · exact h.deassertPi (h.lowerLine hg _ _ (Nat.not_le.1 hid)) cpuId irqId
  · exact h.lowerLine hg _ _ (Nat.not_le.1 hid)

theorem configIrq (hg : P g) (cpuId irqId : ℕ) (hw : Bool) (pintid : UInt16) (edge : Bool) :
    P (g.configIrq cpuId irqId hw pintid edge).2 := by
  rw [GicD.configIrq]
  refine keeps_ite (fun _ => hg) fun _ => keeps_ite (fun _ => hg) fun _ => ?_
  exact h.store hg cpuId irqId (f := (·.configureHw hw pintid edge)) fun _ => ⟨rfl, rfl⟩

end AssertRule

/-- **What the calls keep.** What keeps to the rule, and is kept where an interrupt goes into a list
register, comes back from one, or is reset, is kept by every call that asserts no other interrupts
than those in `A`. -/
theorem exec_keeps_of {A : ℕ → ℕ → Prop} {P : GicD → Prop} (h : AssertRule A P) {g : GicD}
    (hg : P g) (op : GicOp) (hA : ∀ p ∈ g.assertedBy op, A p.1 p.2)
    (hinject : ∀ cpuId minPriority id, op = .pendingIrq cpuId minPriority →
      (g.highestIrq cpuId true).1 = some id → P (g.highestIrq cpuId true).2 →
      P ((g.highestIrq cpuId true).2.inject cpuId id).2)
    (hupdate : ∀ cpuId irqId state inInjection,
      op = .updateInjStatus cpuId irqId state inInjection →
      P (g.updateInjStatus cpuId irqId state inInjection))
    (hreset : op = .reset → P g.reset) : P (g.exec op) := by
  cases op with
  | mmioWrite cpuId offset bytes value => exact h.mmioWrite hg cpuId offset bytes value hA
  | gicRMmioWrite cpu offset bytes value => exact h.gicRMmioWrite hg cpu offset bytes value hA
  | iccSgi1rEl1 value self => exact h.iccSgi1rEl1 hg value self
  | assertPpi cpuId irqId => exact h.assertPpi hg cpuId irqId hA
  | assertGlobalLine irqId => exact h.assertGlobalLine hg irqId hA
  | deassertLinePpi cpuId irqId => exact h.deassertLine hg cpuId irqId
  | deassertGlobalLine irqId => exact h.deassertLine hg 0 irqId
  | configIrq cpuId irqId hw pintid edge => exact h.configIrq hg cpuId irqId hw pintid edge
  | pendingIrq cpuId minPriority =>
      have hscan := h.highestIrq hg cpuId true
      have hinject := hinject cpuId minPriority
      simp only [exec, pendingIrq]
      split
      · exact hscan
      · rename_i id hid
        split_ifs
        · exact hscan
        · exact hinject id rfl hid hscan
  | updateInjStatus cpuId irqId state inInjection => exact hupdate _ _ _ _ rfl
  | reset => exact hreset rfl

/-! ## Whatever a call asserts -/

/-- A property that what a register write consists of keeps: the stores to an interrupt and to the
registers, and the assertions, deassertions and re-routings. -/
structure CallRule (P : GicD → Prop) : Prop where
  store : ∀ {g}, P g → ∀ cpu id {f : Irq → Irq},
    (∀ irq, (f irq).injectionInfo = irq.injectionInfo) → P (g.modifyIrq cpu id f)
  ctlr : ∀ {g}, P g → ∀ v, P { g with ctlr := v }
  propBaser : ∀ {g}, P g → ∀ v, P { g with propBaser := v }
  pendBaser : ∀ {g}, P g → ∀ v, P { g with pendBaser := v }
  bumpHint : ∀ {g : GicD}, P g → P g.bumpHint
  gicR : ∀ {g}, P g → ∀ cpu f, P (g.modifyGicR cpu f)
  assertPi : ∀ {g}, P g → ∀ cpuId owner id, P (g.assertPi cpuId owner id).2
  assertSgi : ∀ {g}, P g → ∀ sender target owner id, id < maxSgi →
    P (g.assertSgi sender target owner id).2
  redirectSpi : ∀ {g}, P g → ∀ id hint, spiBase ≤ id → P (g.redirectSpi id hint).2
  deassertPi : ∀ {g}, P g → ∀ owner id, P (g.deassertPi owner id).2
  deassertSgi : ∀ {g}, P g → ∀ sender owner id, id < maxSgi → P (g.deassertSgi sender owner id).2

namespace CallRule

variable {P : GicD → Prop} (h : CallRule P) {g : GicD}

include h

/-- Any interrupt may be asserted, and any line changed. -/
theorem toAssertRule : AssertRule (fun _ _ => True) P where
  store hg cpu id _ hf := h.store hg cpu id fun irq => (hf irq).1
  raiseLine hg cpu id _ := h.store hg cpu id fun irq => by rw [GicD.raiseLine]; split_ifs <;> rfl
  lowerLine hg cpu id _ := h.store hg cpu id fun _ => rfl
  ctlr := h.ctlr
  propBaser := h.propBaser
  pendBaser := h.pendBaser
  bumpHint := h.bumpHint
  gicR := h.gicR
  assertPi hg cpuId owner id _ := h.assertPi hg cpuId owner id
  assertSgi := h.assertSgi
  redirectSpi := h.redirectSpi
  deassertPi := h.deassertPi
  deassertSgi := h.deassertSgi

theorem assertPiSw (hg : P g) (cpuId owner id : ℕ) : P (g.assertPiSw cpuId owner id).2 :=
  h.toAssertRule.assertPiSw hg cpuId trivial

theorem reroute (hg : P g) (cpu : ℕ) {id : ℕ} (hid : spiBase ≤ id) {f : Irq → Irq}
    (hf : Stores f) :
    P (if ((g.modifyIrq cpu id f).irqObject cpu id).pending then
      ((g.modifyIrq cpu id f).bumpHint.redirectSpi id
        (g.modifyIrq cpu id f).bumpHint.vcpuGlobalHint.toNat).2
    else g.modifyIrq cpu id f) := h.toAssertRule.reroute hg cpu hid hf

theorem sendSgi (hg : P g) (sender target : ℕ) {id : ℕ} (hid : id < maxSgi) :
    P (g.sendSgi sender target id) := h.assertSgi hg sender target target id hid

theorem highestIrq (hg : P g) (cpuId : ℕ) (redirectIrq : Bool) :
    P (g.highestIrq cpuId redirectIrq).2 := h.toAssertRule.highestIrq hg cpuId redirectIrq

end CallRule

/-- **What all calls keep.** The same, whatever the call asserts. -/
theorem exec_keeps {P : GicD → Prop} (h : CallRule P) {g : GicD} (hg : P g) (op : GicOp)
    (hinject : ∀ cpuId minPriority id, op = .pendingIrq cpuId minPriority →
      (g.highestIrq cpuId true).1 = some id → P (g.highestIrq cpuId true).2 →
      P ((g.highestIrq cpuId true).2.inject cpuId id).2)
    (hupdate : ∀ cpuId irqId state inInjection,
      op = .updateInjStatus cpuId irqId state inInjection →
      P (g.updateInjStatus cpuId irqId state inInjection))
    (hreset : op = .reset → P g.reset) : P (g.exec op) :=
  exec_keeps_of h.toAssertRule hg op (fun _ _ => trivial) hinject hupdate hreset

/-- `update_inj_status` clears a bit, stores to the interrupt, changes its injection info as
`updated` says, and sets a bit. What these keep, it keeps. -/
theorem updateInjStatus_keeps {P : GicD → Prop} {g : GicD} (hg : P g) (cpuId irqId : ℕ)
    (state : IrqState) (inInjection : Bool) (hclr : P (g.clrInInjection cpuId irqId))
    (hstore : ∀ {g}, P g → ∀ {f : Irq → Irq}, Stores f → P (g.modifyIrq cpuId irqId f))
    (hinfo : ∀ {g info}, P g →
      (g.irqObject cpuId irqId).injectionInfo.updated cpuId state inInjection = some info →
      P (g.setInfo cpuId irqId info))
    (hbit : ∀ {g}, P g → P (g.setPendingIrq cpuId irqId)) :
    P (g.updateInjStatus cpuId irqId state inInjection) := by
  have hstart : P (if inInjection then g else g.clrInInjection cpuId irqId) := by
    split_ifs
    · exact hg
    · exact hclr
  simp only [updateInjStatus]
  generalize (if inInjection then g else g.clrInInjection cpuId irqId) = g₁ at hstart ⊢
  generalize hg₂ : g₁.modifyIrq cpuId irqId _ = g₂
  have hact : P g₂ := hg₂ ▸ hstore hstart fun _ => ⟨rfl, rfl⟩
  cases hupdated : (g₂.irqObject cpuId irqId).injectionInfo.updated cpuId state inInjection with
  | none =>
    dsimp only
    split_ifs
    · exact hbit hact
    · exact hact
  | some info =>
    have hset := hinfo hact hupdated
    dsimp only
    split_ifs
    · exact hbit hset
    · exact hset

end GicD

end Vml
