import Vml.GicAlike
import Vml.GicFlags

/-!
# The priorities of the interrupts

The priority of an interrupt is a byte of `GICD_IPRIORITYR`, and of `GICR_IPRIORITYR` if the
interrupt is private; that of an LPI is in a table in memory. Which interrupt a vCPU gets first
depends on it (`highest_irq`).

**What sets a priority.** A write to one of these registers, and a reset. Everything else that
happens to the GIC leaves the priorities alone (`SamePrios`).

**The registers are a memory.** Whatever the vCPUs and the devices do, a read of a byte shows what
has been written there last, by whichever vCPU and through whichever of the two registers, or zero
if nothing has been since the last reset.

Main results: `prio_run`, and `priority_reads_last_write`.
-/

namespace Vml

namespace GicD

/-! ## What sets a priority -/

/-- The byte at `addr` of a write. -/
def writtenAt (offset : UInt64) (bytes : UInt8) (value : UInt64) (addr : ℕ) : Option UInt8 :=
  if offset.toNat ≤ addr ∧ addr < offset.toNat + bytes.toNat then
    some (value >>> UInt64.ofNat ((addr - offset.toNat) * 8)).toUInt8
  else none

/-- The priority that a call gives to the interrupt `id` of the vCPU, if it does. -/
def setsPrio (g : GicD) (cpu id : ℕ) : GicOp → Option UInt8
  | .mmioWrite cpuId offset bytes value =>
      if cpuId < g.numVcpus ∧ bytes ≤ 4 ∧ within offset 0x400 0x7ff = true ∧
          id < g.configuredIrqs ∧ Shares id cpu cpuId then
        writtenAt offset bytes value (0x400 + id)
      else none
  | .gicRMmioWrite c offset bytes value =>
      if within offset 0x10400 0x1041f = true ∧ id < spiBase ∧ cpu = c then
        writtenAt offset bytes value (0x10400 + id)
      else none
  | .reset => if (if id < spiBase then cpu < g.numVcpus else id < g.configuredIrqs) then some 0
      else none
  | _ => none

/-! ## What leaves the priorities alone -/

/-- All priorities are the same. -/
def SamePrios (g g' : GicD) : Prop := ∀ c x, (g'.irqObject c x).prio = (g.irqObject c x).prio

namespace SamePrios

variable {g₀ g g' : GicD} (h : SamePrios g₀ g)

include h

theorem of_eq (heq : ∀ c x, g'.irqObject c x = g.irqObject c x) : SamePrios g₀ g' :=
  fun c x => (congrArg Irq.prio (heq c x)).trans (h c x)

theorem modifyBank (cpu : ℕ) {f : Banked → Banked} (hf : ∀ b, (f b).irq = b.irq) :
    SamePrios g₀ (g.modifyBank cpu f) := h.of_eq (g.modifyBank_irqObject cpu f hf)

theorem modifyIrq (cpu id : ℕ) {f : Irq → Irq} (hf : ∀ irq, (f irq).prio = irq.prio) :
    SamePrios g₀ (g.modifyIrq cpu id f) := by
  intro c x
  rw [modifyIrq_irqObject]
  split_ifs
  · exact (hf _).trans (h c x)
  · exact h c x

theorem setInfo (cpu id : ℕ) (info : IrqInjectionInfo) : SamePrios g₀ (g.setInfo cpu id info) :=
  h.modifyIrq cpu id fun _ => rfl

theorem notifyTarget (id : ℕ) (target : IrqTarget) : SamePrios g₀ (g.notifyTarget id target).2 :=
  h.of_eq (announced_notifyTarget g id target).irqObject

theorem redirectSpi (id hint : ℕ) : SamePrios g₀ (g.redirectSpi id hint).2 :=
  fun c x => (Alike.prio_redirectSpi g id hint c x).trans (h c x)

theorem assertPi (cpuId owner id : ℕ) : SamePrios g₀ (g.assertPi cpuId owner id).2 := by
  have hbump : SamePrios g₀ (if spiBase ≤ id then g.bumpHint else g) := by
    split_ifs
    · exact h
    · exact h
  exact (hbump.setInfo owner id _).notifyTarget id _

theorem assertPiSw (cpuId owner id : ℕ) : SamePrios g₀ (g.assertPiSw cpuId owner id).2 :=
  (h.modifyIrq owner id (f := ({ · with swAsserted := true })) fun _ => rfl).assertPi cpuId owner id

theorem assertSgi (sender target owner id : ℕ) :
    SamePrios g₀ (g.assertSgi sender target owner id).2 := by
  rw [GicD.assertSgi]
  refine keeps_ite (fun _ => h.assertPi target owner id) fun _ => keeps_ite (fun _ => h) fun _ => ?_
  exact (h.setInfo owner id _).notifyTarget id _

theorem deassertPi (owner id : ℕ) : SamePrios g₀ (g.deassertPi owner id).2 := by
  rw [GicD.deassertPi]
  exact keeps_ite (fun _ => h) fun _ => h.setInfo owner id _

theorem deassertPiSw (owner id : ℕ) : SamePrios g₀ (g.deassertPiSw owner id).2 :=
  (h.modifyIrq owner id (f := ({ · with swAsserted := false })) fun _ => rfl).deassertPi owner id

theorem deassertSgi (sender owner id : ℕ) : SamePrios g₀ (g.deassertSgi sender owner id).2 := by
  rw [GicD.deassertSgi]
  refine keeps_ite (fun _ => h.deassertPi owner id) fun _ => keeps_ite (fun _ => h) fun _ => ?_
  exact h.setInfo owner id _

/-! ### Lines -/

theorem assertPpi (cpuId irqId : ℕ) : SamePrios g₀ (g.assertPpi cpuId irqId).2 := by
  rw [GicD.assertPpi]
  refine keeps_ite (fun _ => h) fun _ => keeps_ite (fun _ => h) fun _ => ?_
  exact (h.modifyIrq cpuId irqId fun irq => by split_ifs <;> rfl).assertPi _ _ _

theorem assertGlobalLine (irqId : ℕ) : SamePrios g₀ (g.assertGlobalLine irqId).2 := by
  rw [GicD.assertGlobalLine]
  refine keeps_ite (fun _ => h) fun _ => keeps_ite (fun _ => h) fun _ => ?_
  exact (h.modifyIrq 0 irqId fun irq => by split_ifs <;> rfl).assertPi _ _ _

theorem deassertLine (cpuId irqId : ℕ) : SamePrios g₀ (g.deassertLine cpuId irqId) := by
  have hlower := h.modifyIrq cpuId irqId (f := ({ · with lineAsserted := false })) fun _ => rfl
  rw [GicD.deassertLine]
  dsimp only
  split_ifs
  · exact h
  · exact h
  · exact hlower.deassertPi cpuId irqId
  · exact hlower

theorem configIrq (cpuId irqId : ℕ) (hw : Bool) (pintid : UInt16) (edge : Bool) :
    SamePrios g₀ (g.configIrq cpuId irqId hw pintid edge).2 := by
  rw [GicD.configIrq]
  refine keeps_ite (fun _ => h) fun _ => keeps_ite (fun _ => h) fun _ => ?_
  exact h.modifyIrq cpuId irqId fun _ => rfl

/-! ### Delivery -/

theorem highestIrq (cpuId : ℕ) (redirectIrq : Bool) :
    SamePrios g₀ (g.highestIrq cpuId redirectIrq).2 :=
  highestIrqLoop_keeps (P := SamePrios g₀) (fun hg id hint _ => hg.redirectSpi id hint) cpuId
    redirectIrq _ h _ _

theorem inject (cpuId id : ℕ) : SamePrios g₀ (g.inject cpuId id).2 := by
  rw [GicD.inject]
  split
  · exact h
  · rename_i info _
    refine (h.setInfo cpuId id info).of_eq fun c x => ?_
    rw [clrPendingIrq_irqObject, setInInjection_irqObject]

theorem pendingIrq (cpuId : ℕ) (minPriority : UInt8) :
    SamePrios g₀ (g.pendingIrq cpuId minPriority).2 := by
  have hscan := h.highestIrq cpuId true
  simp only [GicD.pendingIrq]
  split
  · exact hscan
  · split_ifs
    · exact hscan
    · exact hscan.inject cpuId _

theorem updateInjStatus (cpuId irqId : ℕ) (state : IrqState) (inInjection : Bool) :
    SamePrios g₀ (g.updateInjStatus cpuId irqId state inInjection) := by
  have hclr : SamePrios g₀ (if inInjection then g else g.clrInInjection cpuId irqId) := by
    split_ifs
    · exact h
    · exact h.modifyBank cpuId fun _ => rfl
  simp only [GicD.updateInjStatus]
  generalize (if inInjection then g else g.clrInInjection cpuId irqId) = g₁ at hclr ⊢
  generalize hg₂ : g₁.modifyIrq cpuId irqId _ = g₂
  have hact : SamePrios g₀ g₂ := hg₂ ▸ hclr.modifyIrq cpuId irqId fun _ => rfl
  cases (g₂.irqObject cpuId irqId).injectionInfo.updated cpuId state inInjection with
  | none =>
      dsimp only
      split_ifs
      · exact hact.modifyBank cpuId fun _ => rfl
      · exact hact
  | some info =>
      have hset := hact.setInfo cpuId irqId info
      dsimp only
      split_ifs
      · exact hset.modifyBank cpuId fun _ => rfl
      · exact hset

/-! ### Registers -/

theorem write (cpu : ℕ) (acc : IrqMmioAccess) (value : UInt64) {f : UInt8 → Irq → Irq}
    (hf : ∀ v irq, (f v irq).prio = irq.prio) : SamePrios g₀ (g.write cpu acc value f).2 := by
  refine List.foldlRecOn acc.irqs _ h fun g hg p _ => ?_
  exact hg.modifyIrq cpu p.2 (hf _)

theorem writeBits (cpu : ℕ) (acc : IrqMmioAccess) (value : UInt64) {f : Irq → Irq}
    (hf : ∀ irq, (f irq).prio = irq.prio) :
    SamePrios g₀ (g.write cpu acc value fun v irq => if v != 0 then f irq else irq).2 := by
  refine h.write cpu acc value fun v irq => ?_
  split_ifs
  · exact hf irq
  · rfl

theorem reroute (cpu id : ℕ) {f : Irq → Irq} (hf : ∀ irq, (f irq).prio = irq.prio) :
    SamePrios g₀ (if ((g.modifyIrq cpu id f).irqObject cpu id).pending then
      ((g.modifyIrq cpu id f).bumpHint.redirectSpi id
        (g.modifyIrq cpu id f).bumpHint.vcpuGlobalHint.toNat).2
    else g.modifyIrq cpu id f) := by
  have hstore := h.modifyIrq cpu id hf
  split_ifs
  · exact SamePrios.redirectSpi (g := (g.modifyIrq cpu id f).bumpHint) hstore _ _
  · exact hstore

theorem changeTarget (cpu : ℕ) (acc : IrqMmioAccess) (value : UInt64) :
    SamePrios g₀ (g.changeTarget cpu acc value).2 := by
  refine List.foldlRecOn acc.irqs _ h fun g hg p _ => ?_
  exact hg.reroute cpu p.2 fun _ => rfl

theorem writeIrouter (cpu : ℕ) (offset : UInt64) (bytes : UInt8) (value : UInt64) :
    SamePrios g₀ (g.writeIrouter cpu offset bytes value) := by
  rw [GicD.writeIrouter]
  split_ifs
  · exact h
  · exact h
  · exact h
  · exact h.reroute cpu _ fun _ => rfl

theorem sendSgi (sender target id : ℕ) : SamePrios g₀ (g.sendSgi sender target id) :=
  h.assertSgi sender target target id

theorem writeSgir (cpuId : ℕ) (value : UInt64) : SamePrios g₀ (g.writeSgir cpuId value) := by
  rw [GicD.writeSgir]
  split_ifs
  · refine List.foldlRecOn _ _ h fun g hg tcpu _ => ?_
    split_ifs
    · exact hg.sendSgi cpuId tcpu _
    · exact hg
  · refine List.foldlRecOn _ _ h fun g hg tcpu _ => ?_
    split_ifs
    · exact hg
    · exact hg.sendSgi cpuId tcpu _
  · exact h.sendSgi cpuId cpuId _
  · exact h

theorem writeCtlr (offset : UInt64) (bytes : UInt8) (value : UInt64) :
    SamePrios g₀ (g.writeCtlr offset bytes value).2 := by
  rw [GicD.writeCtlr]
  split
  · exact h
  · exact h

/-- The registers of the distributor, less those of the priorities. -/
theorem mmioWrite32OrLess (cpuId : ℕ) {acc : IrqMmioAccess} (value : UInt64)
    (hoff : within acc.offset 0x400 0x7ff = false) :
    SamePrios g₀ (g.mmioWrite32OrLess cpuId acc value).2 := by
  rw [GicD.mmioWrite32OrLess, hoff]
  refine keeps_ite (fun _ => h.writeCtlr _ _ _) fun _ => ?_
  refine keeps_ite (fun _ => h.write _ _ _ fun _ _ => rfl) fun _ => ?_
  refine keeps_ite (fun _ => h.writeBits _ _ _ fun _ => rfl) fun _ => ?_
  refine keeps_ite (fun _ => h.writeBits _ _ _ fun _ => rfl) fun _ => ?_
  refine keeps_ite (fun _ => mmioAssert_keeps h _ _ fun p _ _ g hg => ?_) fun _ => ?_
  · exact hg.assertPiSw cpuId cpuId p.2
  refine keeps_ite (fun _ => mmioAssert_keeps h _ _ fun p _ _ g hg => ?_) fun _ => ?_
  · exact hg.deassertPiSw cpuId p.2
  refine keeps_ite (fun _ => h.writeBits _ _ _ fun _ => rfl) fun _ => ?_
  refine keeps_ite (fun _ => h.writeBits _ _ _ fun _ => rfl) fun _ => ?_
  refine keeps_ite (fun hprio => absurd hprio Bool.false_ne_true) fun _ => ?_
  refine keeps_ite (fun _ => h.changeTarget _ _ _) fun _ => ?_
  refine keeps_ite (fun _ => h.write _ _ _ fun _ _ => rfl) fun _ => ?_
  refine keeps_ite (fun _ => h.write _ _ _ fun _ _ => rfl) fun _ => ?_
  refine keeps_ite (fun _ => h.writeSgir _ _) fun _ => ?_
  refine keeps_ite (fun _ => keeps_ite (fun _ => h) fun _ => ?_) fun _ => ?_
  · exact mmioAssertSgi_keeps h _ _ (fun p hp => lt_maxSgi_of_mem_irqs rfl rfl hp)
      fun g _ id _ hg => hg.deassertSgi cpuId cpuId id
  refine keeps_ite (fun _ => keeps_ite (fun _ => h) fun _ => ?_) fun _ => h
  exact mmioAssertSgi_keeps h _ _ (fun p hp => lt_maxSgi_of_mem_irqs rfl rfl hp)
    fun g j id _ hg => hg.assertSgi cpuId j cpuId id

/-- **`GicD::mmio_write`**, less the registers of the priorities. -/
theorem mmioWrite (cpuId : ℕ) (offset : UInt64) (bytes : UInt8) (value : UInt64)
    (hoff : ¬(cpuId < g.numVcpus ∧ bytes ≤ 4 ∧ within offset 0x400 0x7ff = true)) :
    SamePrios g₀ (g.mmioWrite cpuId offset bytes value).2 := by
  rw [GicD.mmioWrite]
  refine keeps_ite (fun _ => h) fun hvalid => ?_
  refine keeps_ite (fun _ => h.writeIrouter _ _ _ _) fun _ => ?_
  refine keeps_ite (fun _ => h) fun _ => keeps_ite (fun _ => h) fun hbytes => ?_
  rw [not_or, not_or] at hvalid
  refine h.mmioWrite32OrLess cpuId value (Bool.eq_false_iff.2 fun hin => hoff ?_)
  exact ⟨Nat.not_le.1 hvalid.2.2, UInt8.not_lt.1 hbytes, hin⟩

theorem modifyGicR (cpu : ℕ) (f : GicR → GicR) : SamePrios g₀ (g.modifyGicR cpu f) :=
  h.of_eq (g.modifyGicR_irqObject cpu f)

theorem writeWaker (cpu : ℕ) (offset : UInt64) (bytes : UInt8) (value : UInt64) :
    SamePrios g₀ (g.writeWaker cpu offset bytes value).2 := by
  rw [GicD.writeWaker]
  refine keeps_ite (fun _ => SamePrios.highestIrq ?_ cpu true) fun _ => ?_
  · split
    · next v _ => exact h.modifyGicR cpu ({ · with waker := v })
    · exact h
  · split
    · next v _ => exact h.modifyGicR cpu ({ · with waker := v })
    · exact h

/-- **`GicR::mmio_write`**, less the registers of the priorities. -/
theorem gicRMmioWrite (cpu : ℕ) (offset : UInt64) (bytes : UInt8) (value : UInt64)
    (hoff : within offset 0x10400 0x1041f = false) :
    SamePrios g₀ (g.gicRMmioWrite cpu offset bytes value).2 := by
  rw [GicD.gicRMmioWrite, hoff]
  refine keeps_ite (fun _ => h) fun _ => ?_
  refine keeps_ite (fun _ => ?_) fun _ => ?_
  · exact h.modifyGicR cpu
      ({ · with ctlr := if g.lpiSupported then 2 ||| value.toUInt32 &&& 1 else 0 })
  refine keeps_ite (fun _ => ?_) fun _ => ?_
  · dsimp only
    split_ifs
    · exact h
    · exact h
  refine keeps_ite (fun _ => ?_) fun _ => ?_
  · dsimp only
    split_ifs
    · exact h
    · exact h
  refine keeps_ite (fun _ => h.writeWaker _ _ _ _) fun _ => ?_
  refine keeps_ite (fun _ => h.write _ _ _ fun _ _ => rfl) fun _ => ?_
  refine keeps_ite (fun _ => h.writeBits _ _ _ fun _ => rfl) fun _ => ?_
  refine keeps_ite (fun _ => h.writeBits _ _ _ fun _ => rfl) fun _ => ?_
  refine keeps_ite (fun _ => h.writeBits _ _ _ fun _ => rfl) fun _ => ?_
  refine keeps_ite (fun _ => h.writeBits _ _ _ fun _ => rfl) fun _ => ?_
  refine keeps_ite (fun hprio => absurd hprio Bool.false_ne_true) fun _ => ?_
  refine keeps_ite (fun _ => keeps_ite (fun _ => h) fun _ => ?_) fun _ => ?_
  · exact mmioAssert_keeps h _ _ fun p _ _ g hg => hg.assertPiSw cpu cpu p.2
  refine keeps_ite (fun _ => keeps_ite (fun _ => h) fun _ => ?_) fun _ => ?_
  · exact mmioAssert_keeps h _ _ fun p _ _ g hg => hg.deassertPiSw cpu p.2
  refine keeps_ite (fun _ => h.write _ _ _ fun _ _ => rfl) fun _ => ?_
  exact keeps_ite (fun _ => h.write _ _ _ fun _ _ => rfl) fun _ => h

/-- **`icc_sgi1r_el1`.** -/
theorem iccSgi1rEl1 (value : UInt64) (self : ℕ) : SamePrios g₀ (g.iccSgi1rEl1 value self) := by
  simp only [GicD.iccSgi1rEl1]
  split_ifs
  · refine List.foldlRecOn _ _ h fun g hg tcpu _ => ?_
    split_ifs
    · exact hg
    · exact hg.sendSgi self tcpu _
  · split
    · exact h
    · refine List.foldlRecOn _ _ h fun g hg tcpu _ => ?_
      split_ifs
      · split
        · exact hg
        · exact hg.sendSgi self _ _
      · exact hg

end SamePrios

end GicD

/-! ## The registers of the priorities -/

namespace IrqMmioAccess

variable {acc : IrqMmioAccess} {k : ℕ}

/-- The interrupts of an access with a byte for each of them, `k` bytes into the window. -/
theorem mem_irqs_of_bytewise (hk : (acc.offset - acc.baseAbs).toNat = k) (hle : k ≤ 1024)
    (hper : acc.irqPerBytes = 1) (hbase : acc.irqBase = 0) (hmax : acc.irqMax ≤ 1024)
    {p : ℕ × ℕ} :
    p ∈ acc.irqs ↔ p.1 < acc.bytes.toNat ∧ p.2 < acc.irqMax.toNat ∧ p.2 = k + p.1 := by
  have hbytes := acc.bytes.toNat_lt
  have hmax := UInt16.le_iff_toNat_le.1 hmax
  have h1024 : (1024 : UInt16).toNat = 1024 := rfl
  have hone : (1 : UInt8).toUInt64 = 1 := rfl
  have hzero : (0 : UInt16).toUInt64 = 0 := rfl
  have hfirst : acc.firstIrqAccessed.toNat = k := by
    rw [firstIrqAccessed, hper, hbase, hone, hzero, UInt64.mul_one, UInt64.add_zero,
      UInt64.toNat_toUInt16, hk, Nat.mod_eq_of_lt (by omega)]
  have hn : (acc.bytes.toUInt16 * acc.irqPerBytes.toUInt16).toNat = acc.bytes.toNat := by
    have hone : (1 : UInt8).toUInt16 = 1 := rfl
    rw [hper, hone, UInt16.mul_one, UInt8.toNat_toUInt16]
  have hnum := numIrqs_eq hfirst hn (by omega)
  have hvalid : acc.isValid = true := by
    rw [isValid, hfirst, hbase, decide_eq_true_iff, hnum]
    simp only [maxSpi, maxPpi, maxSgi, UInt16.toNat_zero]
    omega
  rw [irqs, if_pos hvalid, hfirst, hnum, List.mem_map]
  constructor
  · rintro ⟨i, hi, rfl⟩
    rw [List.mem_range] at hi
    dsimp only
    omega
  · rintro ⟨hlt, hlast, heq⟩
    refine ⟨p.1, List.mem_range.2 (by omega), ?_⟩
    rw [← heq]

theorem field_of_bytewise (hper : acc.irqPerBytes = 1) (value : UInt64) (i : ℕ) :
    acc.field value i = (value >>> UInt64.ofNat (i * 8)).toUInt8 := by
  have hbits : acc.bits = 8 := by
    rw [bits, hper]
    rfl
  have hmask : ((1 : UInt64) <<< UInt64.ofNat 8 - 1).toUInt8 = -1 := rfl
  rw [field, hbits, UInt64.toUInt8_and, hmask, UInt8.and_neg_one]

end IrqMmioAccess

namespace GicD

variable {g t : GicD} {cpu id : ℕ} {ops : List GicOp}

/-- The priorities after a part of the loop of `write`. -/
theorem prio_foldl {k : ℕ} (byte : ℕ → UInt8) (l : List (ℕ × ℕ)) (hl : ∀ p ∈ l, p.2 = k + p.1)
    (c : ℕ) : ((l.foldl (fun g p => g.modifyIrq cpu p.2 fun irq => { irq with prio := byte p.1 })
      g).irqObject c id).prio =
        if Shares id c cpu ∧ ∃ p ∈ l, p.2 = id then byte (id - k) else (g.irqObject c id).prio := by
  induction l using List.reverseRecOn with
  | nil => simp
  | append_singleton l p ih =>
      have hp := hl p (List.mem_append_right _ (List.mem_singleton_self p))
      rw [List.foldl_append, List.foldl_cons, List.foldl_nil, modifyIrq_irqObject]
      by_cases hid : id = p.2 ∧ Shares p.2 c cpu
      · have hi : p.1 = id - k := by omega
        have hmem : p ∈ l ++ [p] := List.mem_append_right _ (List.mem_singleton_self p)
        rw [if_pos hid, if_pos ⟨hid.1 ▸ hid.2, p, hmem, hid.1.symm⟩, ← hi]
      · rw [if_neg hid, ih fun q hq => hl q (List.mem_append_left _ hq)]
        refine if_congr (and_congr_right fun hshares => ?_) rfl rfl
        have hne : p.2 ≠ id := fun heq => hid ⟨heq.symm, heq ▸ hshares⟩
        simp [or_and_right, exists_or, hne]

/-- **A write to the priorities** stores a byte for each interrupt that it reaches. -/
theorem prio_write {acc : IrqMmioAccess} {base last : ℕ} (hbase : acc.baseAbs.toNat = base)
    (hoff : base ≤ acc.offset.toNat ∧ acc.offset.toNat ≤ base + 1024)
    (hper : acc.irqPerBytes = 1) (hfirst : acc.irqBase = 0) (hlast : acc.irqMax.toNat = last)
    (hle : last ≤ 1024) (value : UInt64) (c : ℕ) :
    ((g.write cpu acc value fun v irq => { irq with prio := v }).2.irqObject c id).prio =
      ((if id < last ∧ Shares id c cpu then writtenAt acc.offset acc.bytes value (base + id)
        else none).getD (g.irqObject c id).prio) := by
  have hindex : id - (acc.offset.toNat - base) = base + id - acc.offset.toNat := by omega
  have hk : (acc.offset - acc.baseAbs).toNat = acc.offset.toNat - base := by
    rw [UInt64.toNat_sub_of_le _ _ (UInt64.le_iff_toNat_le.2 (by omega)), hbase]
  have hmem {p : ℕ × ℕ} : p ∈ acc.irqs ↔ p.1 < acc.bytes.toNat ∧ p.2 < last ∧
      p.2 = acc.offset.toNat - base + p.1 := by
    rw [← hlast]
    refine IrqMmioAccess.mem_irqs_of_bytewise hk (by omega) hper hfirst ?_
    rw [UInt16.le_iff_toNat_le, hlast]
    exact hle
  have hreached : (∃ p ∈ acc.irqs, p.2 = id) ↔ id < last ∧ acc.offset.toNat ≤ base + id ∧
      base + id < acc.offset.toNat + acc.bytes.toNat := by
    constructor
    · rintro ⟨p, hp, rfl⟩
      have hp := hmem.1 hp
      omega
    · rintro ⟨hid, hlow, hhigh⟩
      refine ⟨(id - (acc.offset.toNat - base), id), hmem.2 ?_, rfl⟩
      dsimp only
      omega
  have hplaces : ∀ p ∈ acc.irqs, p.2 = acc.offset.toNat - base + p.1 := fun p hp => (hmem.1 hp).2.2
  refine (@prio_foldl g cpu id _ (acc.field value) acc.irqs hplaces c).trans ?_
  rw [IrqMmioAccess.field_of_bytewise hper, writtenAt]
  simp only [hreached]
  split_ifs with hall hin hbytes hin' hbytes'
  · rw [hindex]
    rfl
  · exact absurd hall.2.2 hbytes
  · exact absurd ⟨hall.2.1, hall.1⟩ hin
  · exact absurd ⟨hin'.2, hin'.1, hbytes'⟩ hall
  · rfl
  · rfl

theorem mmioWrite_prio {offset value : UInt64} {bytes : UInt8} (hcpu : cpu < g.numVcpus)
    (hbytes : bytes ≤ 4) (hoff : within offset 0x400 0x7ff = true) :
    g.mmioWrite cpu offset bytes value =
      g.write cpu { g.irqMmioAccess offset bytes .all with baseAbs := 0x400, irqPerBytes := 1 }
        value fun v irq => { irq with prio := v } := by
  have hnot {first last : UInt64} (hdisjoint : 0x7ff < first ∨ last < 0x400) :
      ¬within offset first last = true := Bool.not_eq_true _ ▸ within_of_disjoint hoff hdisjoint
  have hin := of_decide_eq_true hoff
  have hpage : within offset 0x0 0xfff = true := by
    refine decide_eq_true ⟨UInt64.le_iff_toNat_le.2 (Nat.zero_le _), ?_⟩
    exact UInt64.le_trans hin.2 (by decide)
  rw [mmioWrite_eq hcpu hbytes hpage, mmioWrite32OrLess]
  dsimp only
  have hsame : (g.irqMmioAccess offset bytes .all).offset = offset := rfl
  rw [hsame, if_neg (hnot (by decide)), if_neg (hnot (by decide)), if_neg (hnot (by decide)),
    if_neg (hnot (by decide)), if_neg (hnot (by decide)), if_neg (hnot (by decide)),
    if_neg (hnot (by decide)), if_neg (hnot (by decide))]
  exact if_pos hoff

theorem gicRMmioWrite_prio {offset value : UInt64} {bytes : UInt8}
    (hoff : within offset 0x10400 0x1041f = true) :
    g.gicRMmioWrite cpu offset bytes value =
      g.write cpu { g.irqMmioAccess offset bytes .privateOnly with
        baseAbs := 0x10400, irqPerBytes := 1 } value fun v irq => { irq with prio := v } := by
  have hnot {first last : UInt64} (hdisjoint : 0x1041f < first ∨ last < 0x10400) :
      ¬within offset first last = true := Bool.not_eq_true _ ▸ within_of_disjoint hoff hdisjoint
  have hpage : ¬(0x20000 ≤ offset) := UInt64.not_le.2 (lt_of_within hoff (by decide))
  rw [gicRMmioWrite]
  dsimp only
  rw [if_neg hpage, if_neg (hnot (by decide)), if_neg (hnot (by decide)),
    if_neg (hnot (by decide)), if_neg (hnot (by decide)), if_neg (hnot (by decide)),
    if_neg (hnot (by decide)), if_neg (hnot (by decide)), if_neg (hnot (by decide)),
    if_neg (hnot (by decide))]
  exact if_pos hoff

theorem prio_reset (g : GicD) (cpu id : ℕ) : (g.reset.irqObject cpu id).prio =
    ((if (if id < spiBase then cpu < g.numVcpus else id < g.configuredIrqs) then some 0
      else none).getD (g.irqObject cpu id).prio) := by
  by_cases hid : id < spiBase
  · have hbank : ((g.resetBank cpu).irq id).prio = 0 := by
      rw [resetBank]
      dsimp only
      split_ifs <;> rfl
    simp only [irqObject, if_pos hid, reset]
    split_ifs
    · exact hbank
    · rfl
  · simp only [irqObject, if_neg hid, reset, Nat.not_lt.1 hid, true_and]
    split_ifs <;> rfl

/-! ## Every call -/

/-- **The priorities after `GicD::mmio_write`.** -/
theorem prio_mmioWrite (hconf : g.configuredIrqs ≤ maxIrqNoLpi) (c : ℕ) (offset : UInt64)
    (bytes : UInt8) (value : UInt64) :
    ((g.mmioWrite c offset bytes value).2.irqObject cpu id).prio =
      (g.setsPrio cpu id (.mmioWrite c offset bytes value)).getD (g.irqObject cpu id).prio := by
  by_cases hoff : c < g.numVcpus ∧ bytes ≤ 4 ∧ within offset 0x400 0x7ff = true
  · obtain ⟨hc, hbytes, hoff⟩ := hoff
    have hin := of_decide_eq_true hoff
    rw [UInt64.le_iff_toNat_le, UInt64.le_iff_toNat_le] at hin
    have hlow : (0x400 : UInt64).toNat = 0x400 := rfl
    have hlast : (UInt16.ofNat g.configuredIrqs).toNat = g.configuredIrqs :=
      UInt16.toNat_ofNat_of_lt' (Nat.lt_of_le_of_lt hconf (by decide))
    have hsets : g.setsPrio cpu id (.mmioWrite c offset bytes value) =
        if id < g.configuredIrqs ∧ Shares id cpu c then
          writtenAt offset bytes value (0x400 + id) else none := by
      simp [setsPrio, hc, hbytes, hoff]
    rw [hsets, mmioWrite_prio hc hbytes hoff]
    exact @prio_write g c id { g.irqMmioAccess offset bytes .all with
      baseAbs := 0x400, irqPerBytes := 1 } 0x400 g.configuredIrqs hlow
      ⟨hin.1, hin.2.trans (by decide)⟩ rfl rfl hlast (hconf.trans (by decide)) value cpu
  · have hsame : SamePrios g g := fun _ _ => rfl
    have hnone : g.setsPrio cpu id (.mmioWrite c offset bytes value) = none :=
      if_neg fun h => hoff ⟨h.1, h.2.1, h.2.2.1⟩
    rw [hnone]
    exact hsame.mmioWrite c offset bytes value hoff cpu id

/-- **The priorities after `GicR::mmio_write`.** -/
theorem prio_gicRMmioWrite (c : ℕ) (offset : UInt64) (bytes : UInt8) (value : UInt64) :
    ((g.gicRMmioWrite c offset bytes value).2.irqObject cpu id).prio =
      (g.setsPrio cpu id (.gicRMmioWrite c offset bytes value)).getD
        (g.irqObject cpu id).prio := by
  by_cases hoff : within offset 0x10400 0x1041f = true
  · have hin := of_decide_eq_true hoff
    rw [UInt64.le_iff_toNat_le, UInt64.le_iff_toNat_le] at hin
    have hlow : (0x10400 : UInt64).toNat = 0x10400 := rfl
    -- The interrupts of the access are those of the bank.
    have hown : id < 32 ∧ Shares id cpu c ↔ id < spiBase ∧ cpu = c :=
      and_congr_right fun hid => or_iff_right (Nat.not_le.2 hid)
    have hsets : g.setsPrio cpu id (.gicRMmioWrite c offset bytes value) =
        if id < 32 ∧ Shares id cpu c then
          writtenAt offset bytes value (0x10400 + id) else none := by
      simp [setsPrio, hoff, hown]
    rw [hsets, gicRMmioWrite_prio hoff]
    exact @prio_write g c id { g.irqMmioAccess offset bytes .privateOnly with
      baseAbs := 0x10400, irqPerBytes := 1 } 0x10400 32 hlow
      ⟨hin.1, hin.2.trans (by decide)⟩ rfl rfl rfl (by decide) value cpu
  · have hsame : SamePrios g g := fun _ _ => rfl
    have hnone : g.setsPrio cpu id (.gicRMmioWrite c offset bytes value) = none :=
      if_neg fun h => hoff h.1
    rw [hnone]
    exact hsame.gicRMmioWrite c offset bytes value (Bool.eq_false_iff.2 hoff) cpu id

/-- **The priorities after a call.** -/
theorem prio_exec (hconf : g.configuredIrqs ≤ maxIrqNoLpi) (op : GicOp) :
    ((g.exec op).irqObject cpu id).prio =
      (g.setsPrio cpu id op).getD (g.irqObject cpu id).prio := by
  have hsame : SamePrios g g := fun _ _ => rfl
  cases op with
  | mmioWrite c offset bytes value => exact prio_mmioWrite hconf c offset bytes value
  | gicRMmioWrite c offset bytes value => exact prio_gicRMmioWrite c offset bytes value
  | iccSgi1rEl1 value self => exact hsame.iccSgi1rEl1 value self cpu id
  | assertPpi c irqId => exact hsame.assertPpi c irqId cpu id
  | assertGlobalLine irqId => exact hsame.assertGlobalLine irqId cpu id
  | deassertLinePpi c irqId => exact hsame.deassertLine c irqId cpu id
  | deassertGlobalLine irqId => exact hsame.deassertLine 0 irqId cpu id
  | configIrq c irqId hw pintid edge => exact hsame.configIrq c irqId hw pintid edge cpu id
  | pendingIrq c minPriority => exact hsame.pendingIrq c minPriority cpu id
  | updateInjStatus c irqId state inInjection =>
      exact hsame.updateInjStatus c irqId state inInjection cpu id
  | reset => exact prio_reset g cpu id

/-! ## Every run -/

/-- The number of vCPUs and the number of interrupts do not change. -/
def Sized (n m : ℕ) (g : GicD) : Prop := g.numVcpus = n ∧ g.configuredIrqs = m

theorem Sized.setInfo {n m : ℕ} (h : g.Sized n m) (cpu id : ℕ) (info : IrqInjectionInfo) :
    (g.setInfo cpu id info).Sized n m :=
  ⟨(setInfo_numVcpus ..).trans h.1, (setInfo_configuredIrqs ..).trans h.2⟩

theorem Sized.notifyTarget {n m : ℕ} (h : g.Sized n m) (id : ℕ) (target : IrqTarget) :
    (g.notifyTarget id target).2.Sized n m :=
  ⟨(announced_notifyTarget ..).numVcpus.trans h.1,
    (announced_notifyTarget ..).configuredIrqs.trans h.2⟩

theorem Sized.modifyIrq {n m : ℕ} (h : g.Sized n m) (cpu id : ℕ) (f : Irq → Irq) :
    (g.modifyIrq cpu id f).Sized n m :=
  ⟨(modifyIrq_numVcpus ..).trans h.1, (modifyIrq_configuredIrqs ..).trans h.2⟩

theorem Sized.assertPi {n m : ℕ} (h : g.Sized n m) (cpuId owner id : ℕ) :
    (g.assertPi cpuId owner id).2.Sized n m := by
  have hbump : (if spiBase ≤ id then g.bumpHint else g).Sized n m := by
    split_ifs
    · exact h
    · exact h
  exact (hbump.setInfo owner id _).notifyTarget id _

theorem Sized.deassertPi {n m : ℕ} (h : g.Sized n m) (owner id : ℕ) :
    (g.deassertPi owner id).2.Sized n m := by
  rw [GicD.deassertPi]
  exact keeps_ite (fun _ => h) fun _ => h.setInfo owner id _

theorem sizedRule (n m : ℕ) : CallRule (Sized n m) where
  store hg cpu id f _ := hg.modifyIrq cpu id f
  ctlr hg _ := hg
  propBaser hg _ := hg
  pendBaser hg _ := hg
  bumpHint hg := hg
  gicR hg _ _ := hg
  assertPi hg cpuId owner id := hg.assertPi cpuId owner id
  assertSgi hg sender target owner id _ := by
    rw [assertSgi]
    refine keeps_ite (fun _ => hg.assertPi target owner id) fun _ => keeps_ite (fun _ => hg) ?_
    exact fun _ => (hg.setInfo owner id _).notifyTarget id _
  redirectSpi hg id hint _ := by
    rw [redirectSpi]
    split
    · exact hg
    · exact (hg.setInfo 0 id _).notifyTarget id _
  deassertPi hg owner id := hg.deassertPi owner id
  deassertSgi hg sender owner id _ := by
    rw [deassertSgi]
    refine keeps_ite (fun _ => hg.deassertPi owner id) fun _ => keeps_ite (fun _ => hg) ?_
    exact fun _ => hg.setInfo owner id _

theorem Sized.exec {n m : ℕ} (h : g.Sized n m) (op : GicOp) : (g.exec op).Sized n m := by
  refine exec_keeps (sizedRule n m) h op ?_ ?_ fun _ => h
  · intro v _ id _ _ hscan
    rw [inject]
    split
    · exact hscan
    · rename_i info _
      exact hscan.setInfo v id info
  · intro v id state inInjection _
    refine updateInjStatus_keeps h v id state inInjection h ?_ ?_ fun hg => hg
    · exact fun hg f _ => hg.modifyIrq v id f
    · exact fun hg _ => hg.setInfo v id _

theorem Sized.setsPrio (h : t.Sized g.numVcpus g.configuredIrqs) (op : GicOp) :
    t.setsPrio cpu id op = g.setsPrio cpu id op := by
  cases op <;> simp only [GicD.setsPrio, h.1, h.2]

/-- The priority that the calls have set last. -/
def lastPrio (g : GicD) (cpu id : ℕ) (ops : List GicOp) : Option UInt8 :=
  (ops.filterMap (g.setsPrio cpu id)).getLast?

/-- **The priorities after a run**: what has been set last, or what there was. -/
theorem prio_run (hconf : g.configuredIrqs ≤ maxIrqNoLpi)
    (h : Run (fun (g : GicD) op t => t = g.exec op) g ops t) (cpu id : ℕ) :
    t.Sized g.numVcpus g.configuredIrqs ∧
      (t.irqObject cpu id).prio = (g.lastPrio cpu id ops).getD (g.irqObject cpu id).prio := by
  induction h with
  | nil => exact ⟨⟨rfl, rfl⟩, rfl⟩
  | @snoc u v ops op _ hlast ih =>
      obtain ⟨hsized, hprio⟩ := ih
      subst hlast
      refine ⟨hsized.exec op, ?_⟩
      rw [prio_exec (hsized.2.trans_le hconf), hsized.setsPrio, hprio, lastPrio, lastPrio,
        List.filterMap_append, List.getLast?_append, List.filterMap_cons, List.filterMap_nil]
      cases g.setsPrio cpu id op with
      | none => rfl
      | some prio => rfl

/-! ## Reads -/

theorem read_prio {acc : IrqMmioAccess} (h : acc.Begins id) (hbytes : acc.bytes = 1)
    (hper : acc.irqPerBytes = 1) (hbase : acc.irqBase = 0) (hid : id < acc.irqMax.toNat) :
    g.read cpu acc (·.prio.toUInt64) = .shows (g.irqObject cpu id).prio.toUInt64 := by
  have hone : (1 : UInt8).toNat = 1 := rfl
  have hfirst : acc.first id = id := by
    rw [IrqMmioAccess.first, hper, hbase, hone, Nat.mul_one]
    rfl
  have hroom : acc.room = 1 := by rw [IrqMmioAccess.room, hbytes, hper, hone]
  have hmin : min 1 (acc.irqMax.toNat - id) = 1 := by omega
  rw [GicD.read, if_pos (h.isValid (hfirst.trans_le h.le)), h.irqs, hfirst, hroom, hmin]
  simp

theorem begins_byte {acc : IrqMmioAccess} {base : UInt64}
    (hoff : acc.offset = base + UInt64.ofNat id) (hbase : acc.baseAbs = base)
    (hbytes : acc.bytes = 1) (hper : acc.irqPerBytes = 1) (hfirst : acc.irqBase = 0)
    (hmax : acc.irqMax.toNat ≤ 1024) (hid : id < 1024) : acc.Begins id where
  offset := by
    rw [hoff, hbase, UInt64.add_comm, UInt64.add_sub_cancel]
    exact UInt64.toNat_ofNat_of_lt' (hid.trans (by decide))
  bytes := by rw [hbytes]; decide
  irqPerBytes := by rw [hper]; decide
  le := hid.le
  irqBase := by rw [hfirst]; decide
  irqMax := UInt16.le_iff_toNat_le.2 hmax

theorem mmioRead_prio (hconf : g.configuredIrqs ≤ maxIrqNoLpi) (hcpu : cpu < g.numVcpus)
    (hid : id < g.configuredIrqs) : g.mmioRead cpu (0x400 + UInt64.ofNat id) 1 =
      .shows (g.irqObject cpu id).prio.toUInt64 := by
  have hlt : id < 1020 := hid.trans_le hconf
  have hlow : (0x400 : UInt64).toNat = 0x400 := rfl
  have hhigh : (0x7ff : UInt64).toNat = 0x7ff := rfl
  have hend : (0xfff : UInt64).toNat = 0xfff := rfl
  have hoff : within (0x400 + UInt64.ofNat id) 0x400 0x7ff = true :=
    within_window _ _ _ (by decide) (by omega) (Nat.le_add_right _ _) (by omega)
  have hpage : within (0x400 + UInt64.ofNat id) 0x0 0xfff = true :=
    within_window _ _ _ (by decide) (by omega) (Nat.zero_le _) (by omega)
  have hnot {first last : UInt64} (hdisjoint : 0x7ff < first ∨ last < 0x400) :
      ¬within (0x400 + UInt64.ofNat id) first last = true :=
    Bool.not_eq_true _ ▸ within_of_disjoint hoff hdisjoint
  have hlast : (UInt16.ofNat g.configuredIrqs).toNat = g.configuredIrqs :=
    UInt16.toNat_ofNat_of_lt' (Nat.lt_of_le_of_lt hconf (by decide))
  have hsame : (g.irqMmioAccess (0x400 + UInt64.ofNat id) 1 .all).offset =
      0x400 + UInt64.ofNat id := rfl
  rw [mmioRead_eq hcpu (by decide) hpage, mmioRead32OrLess]
  dsimp only
  rw [hsame, if_neg (hnot (by decide)), if_neg (hnot (by decide)), if_neg (hnot (by decide)),
    if_neg (hnot (by decide)), if_neg (hnot (by decide)), if_neg (hnot (by decide)),
    if_neg (hnot (by decide)), if_neg (hnot (by decide)), if_neg (hnot (by decide)),
    if_neg (hnot (by decide)), if_pos hoff]
  refine read_prio ?_ rfl rfl rfl (hid.trans_eq hlast.symm)
  exact begins_byte rfl rfl rfl rfl rfl (hlast.trans_le (hconf.trans (by decide))) (by omega)

theorem gicRMmioRead_prio (hid : id < spiBase) (aff : UInt32) (last : Bool) :
    g.gicRMmioRead cpu aff last (0x10400 + UInt64.ofNat id) 1 =
      .shows (g.irqObject cpu id).prio.toUInt64 := by
  have hlt : id < 32 := hid
  have hlow : (0x10400 : UInt64).toNat = 0x10400 := rfl
  have hhigh : (0x1041f : UInt64).toNat = 0x1041f := rfl
  have hsum : (0x10400 + UInt64.ofNat id).toNat = 0x10400 + id := by
    rw [UInt64.toNat_add, UInt64.toNat_ofNat_of_lt' (hlt.trans (by decide)), hlow,
      Nat.mod_eq_of_lt (by omega)]
  have hoff : within (0x10400 + UInt64.ofNat id) 0x10400 0x1041f = true := by
    rw [within, decide_eq_true_iff, UInt64.le_iff_toNat_le, UInt64.le_iff_toNat_le, hsum]
    omega
  have hnot {first last : UInt64} (hdisjoint : 0x1041f < first ∨ last < 0x10400) :
      ¬within (0x10400 + UInt64.ofNat id) first last = true :=
    Bool.not_eq_true _ ▸ within_of_disjoint hoff hdisjoint
  have hpage : ¬(0x20000 ≤ 0x10400 + UInt64.ofNat id) :=
    UInt64.not_le.2 (lt_of_within hoff (by decide))
  have hneither : ¬(within (0x10400 + UInt64.ofNat id) 0x10d00 0x10d03 ||
      within (0x10400 + UInt64.ofNat id) 0x10e00 0x10e03) = true := by
    rw [Bool.or_eq_true, not_or]
    exact ⟨hnot (by decide), hnot (by decide)⟩
  rw [gicRMmioRead]
  dsimp only
  rw [if_neg hpage, if_neg (hnot (by decide)), if_neg (hnot (by decide)),
    if_neg (hnot (by decide)), if_neg (hnot (by decide)), if_neg (hnot (by decide)),
    if_neg (hnot (by decide)), if_neg (hnot (by decide)), if_neg hneither,
    if_neg (hnot (by decide)), if_neg (hnot (by decide)), if_neg (hnot (by decide)),
    if_neg (hnot (by decide)), if_neg (hnot (by decide)), if_neg (hnot (by decide)),
    if_neg (hnot (by decide)), if_neg (hnot (by decide)), if_neg (hnot (by decide)), if_pos hoff]
  refine read_prio ?_ rfl rfl rfl hlt
  exact begins_byte rfl rfl rfl rfl rfl (show (32 : UInt16).toNat ≤ 1024 by decide) (by omega)

/-! ## The registers are a memory -/

/-- **A read shows what has been written last**, by any vCPU and through either register, or zero:
after any run of a GIC that has been set up. -/
theorem priority_reads_last_write {version : IrqCtlrVersion} {numVcpus configuredIrqs : ℕ}
    (hconf : configuredIrqs ≤ maxIrqNoLpi)
    (h : Run (fun (g : GicD) op t => t = g.exec op) (init version numVcpus configuredIrqs) ops t)
    (hcpu : cpu < numVcpus) (hid : id < configuredIrqs) :
    t.mmioRead cpu (0x400 + UInt64.ofNat id) 1 = .shows
        (((init version numVcpus configuredIrqs).lastPrio cpu id ops).getD 0).toUInt64 ∧
      (id < spiBase → ∀ aff last, t.gicRMmioRead cpu aff last (0x10400 + UInt64.ofNat id) 1 = .shows
        (((init version numVcpus configuredIrqs).lastPrio cpu id ops).getD 0).toUInt64) := by
  obtain ⟨⟨hnum, hsize⟩, hprio⟩ := prio_run hconf h cpu id
  have hzero : ((init version numVcpus configuredIrqs).irqObject cpu id).prio = 0 := by
    rw [init, prio_reset]
    split_ifs <;> rfl
  rw [hzero] at hprio
  refine ⟨?_, fun hprivate aff last => ?_⟩
  · rw [← hprio]
    exact mmioRead_prio (hsize.trans_le hconf) (hcpu.trans_eq hnum.symm) (hid.trans_eq hsize.symm)
  · rw [← hprio]
    exact gicRMmioRead_prio hprivate aff last

/-- Interrupt 42 is written with its word by one vCPU, and alone by another. Then it is raised. -/
def twoWriters : List GicOp :=
  [.mmioWrite 0 0x428 4 0x10203040, .mmioWrite 1 0x42a 1 0x80, .assertGlobalLine 42]

theorem priority_reads_last_write_twoWriters : ∃ t,
    Run (fun (g : GicD) op t => t = g.exec op) (init .gicV3 2 64) twoWriters t ∧
      t.mmioRead 0 (0x400 + UInt64.ofNat 42) 1 = .shows 0x80 := by
  have hrun := run_exec (init .gicV3 2 64) twoWriters
  refine ⟨_, hrun, ?_⟩
  refine (priority_reads_last_write (by decide) hrun (by decide) (by decide)).1.trans ?_
  decide +kernel

end GicD

end Vml
