import Vml.Gits
import Vml.GicLevel

/-!
# What `highest_irq` leaves out

`highest_irq` is to find the most urgent interrupt that a vCPU can have, which is the one with the
lowest priority value. It walks through `pending_irqs` and misses that in two ways.

**The walk** (`Reached`). It searches `configured_irqs() - 1` bits from the start, so the last line
is found only if another bit is set before it. Of the LPIs it looks at the first that is set, and at
none when the last line is on its way.

**The choice.** Of the interrupts on its way it takes the one with the greatest priority value, and
only this one is compared with the priority that the vCPU asks for.

Both hold in every state that a GIC gets to, with the LPIs that an ITS asserts: no bit is set
between the lines and the LPIs (`OnlyIrqs`).

Main results: `highestIrq_complete_iff` and `urgent_first_iff`.
-/

namespace Vml

/-! ## Runs with LPIs -/

/-- A call to the distributor: one that the guest, a device or a vCPU makes, or an LPI from an
ITS. -/
inductive DistrOp
  | call (op : GicOp)
  | assertLpi (bus : GuestBus) (pintid targetCpu : ℕ)

namespace GicD

/-- The assertions with which a call begins. -/
def Admits (g : GicD) : GicOp → Prop
  | .pendingIrq cpuId _ => cpuId < g.numVcpus
  | .updateInjStatus cpuId irqId _ _ =>
      cpuId < g.numVcpus ∧ (irqId < g.configuredIrqs ∨ lpiBase ≤ irqId)
  | _ => True

/-- A call is made. -/
def Step (g : GicD) : DistrOp → GicD → Prop
  | .call op, t => g.Admits op ∧ t = g.exec op
  | .assertLpi bus pintid targetCpu, t => g.assertLpi bus pintid targetCpu = some t

/-- A GIC that has been set up, with more lines than the private ones. -/
structure SetUp (g : GicD) : Prop extends g.Fresh where
  lines : spiBase < g.configuredIrqs
  limit : g.configuredIrqs ≤ maxIrqNoLpi

/-- There are `n` lines, and no other interrupts are pending than those in `S`. -/
structure OnlyIrqs (n : ℕ) (S : ℕ → Prop) (g : GicD) : Prop where
  configuredIrqs : g.configuredIrqs = n
  pendingIrqs : ∀ c x, ¬S x → (g.bank c).pendingIrqs x = false
  pending : ∀ c x, ¬S x → (g.irqObject c x).injectionInfo.pending = false

section OnlyIrqs

variable {n : ℕ} {S : ℕ → Prop} {g g' : GicD}

theorem lt_of_mem_assertedBy (hlo : spiBase ≤ g.configuredIrqs)
    (hhi : g.configuredIrqs ≤ maxIrqNoLpi) {op : GicOp} {p : ℕ × ℕ} (hp : p ∈ g.assertedBy op) :
    p.2 < g.configuredIrqs := by
  have h1020 : maxIrqNoLpi = 1020 := rfl
  have h32 : spiBase = 32 := rfl
  have hmax : (UInt16.ofNat g.configuredIrqs).toNat = g.configuredIrqs :=
    UInt16.toNat_ofNat_of_lt' (Nat.lt_of_le_of_lt hhi (by decide))
  cases op with
  | mmioWrite cpuId offset bytes value =>
      rw [assertedBy] at hp
      split_ifs at hp
      · obtain ⟨q, hq, rfl⟩ := List.mem_map.1 hp
        have hlt := lt_irqMax_of_mem_irqs (show (8 : UInt8) ≤ 8 by decide)
          (UInt16.le_iff_toNat_le.2 (hmax.trans_le (hhi.trans (by decide))))
          (List.mem_filter.1 hq).1
        exact hlt.trans_eq hmax
      · exact absurd hp List.not_mem_nil
  | gicRMmioWrite cpu offset bytes value =>
      rw [assertedBy] at hp
      split_ifs at hp
      · obtain ⟨q, hq, rfl⟩ := List.mem_map.1 hp
        have hlt := lt_irqMax_of_mem_irqs (show (8 : UInt8) ≤ 8 by decide)
          (show (32 : UInt16) ≤ 32768 by decide) (List.mem_filter.1 hq).1
        exact Nat.lt_of_lt_of_le hlt hlo
      · exact absurd hp List.not_mem_nil
  | assertPpi cpuId irqId =>
      rw [assertedBy] at hp
      split_ifs at hp with hlt
      · rw [List.mem_singleton.1 hp]
        exact Nat.lt_of_lt_of_le hlt.2 hlo
      · exact absurd hp List.not_mem_nil
  | assertGlobalLine irqId =>
      rw [assertedBy] at hp
      split_ifs at hp with hlt
      · rw [List.mem_singleton.1 hp]
        exact hlt.1
      · exact absurd hp List.not_mem_nil
  | _ => exact absurd hp List.not_mem_nil

theorem OnlyIrqs.of_eq (h : g.OnlyIrqs n S) (hconf : g'.configuredIrqs = g.configuredIrqs)
    (hbits : ∀ c x, ¬S x → (g'.bank c).pendingIrqs x = (g.bank c).pendingIrqs x)
    (hinfo : ∀ c x, ¬S x →
      (g'.irqObject c x).injectionInfo = (g.irqObject c x).injectionInfo) : g'.OnlyIrqs n S where
  configuredIrqs := hconf.trans h.configuredIrqs
  pendingIrqs c x hx := (hbits c x hx).trans (h.pendingIrqs c x hx)
  pending c x hx := by rw [hinfo c x hx]; exact h.pending c x hx

theorem OnlyIrqs.setInfo (h : g.OnlyIrqs n S) (cpu id : ℕ) {info : IrqInjectionInfo}
    (hinfo : ¬S id → info.pending = false) : (g.setInfo cpu id info).OnlyIrqs n S where
  configuredIrqs := (setInfo_configuredIrqs ..).trans h.configuredIrqs
  pendingIrqs c x hx := by
    rw [setInfo_field g cpu id info Banked.pendingIrqs fun _ _ => rfl]
    exact h.pendingIrqs c x hx
  pending c x hx := by
    rw [setInfo_injectionInfo]
    split_ifs with heq
    · exact hinfo (heq.1 ▸ hx)
    · exact h.pending c x hx

theorem OnlyIrqs.modifyIrq (h : g.OnlyIrqs n S) (cpu id : ℕ) {f : Irq → Irq}
    (hf : ∀ irq, (f irq).injectionInfo = irq.injectionInfo) :
    (g.modifyIrq cpu id f).OnlyIrqs n S := by
  apply h.of_eq
  · exact modifyIrq_configuredIrqs ..
  · intro c x _
    rw [modifyIrq_field g cpu id f Banked.pendingIrqs fun _ _ => rfl]
  · intro c x _
    rw [modifyIrq_irqObject]
    split_ifs
    · exact hf _
    · rfl

theorem OnlyIrqs.notifyTarget (h : g.OnlyIrqs n S) {id : ℕ} (hid : S id) (target : IrqTarget) :
    (g.notifyTarget id target).2.OnlyIrqs n S := by
  have hann := announced_notifyTarget g id target
  apply h.of_eq
  · exact hann.configuredIrqs
  · intro c x hx
    rcases hann.pendingIrqs c x with heq | ⟨rfl, -⟩
    · exact heq
    · exact absurd hid hx
  · intro c x _
    rw [hann.irqObject]

theorem OnlyIrqs.assertPi (h : g.OnlyIrqs n S) (cpuId owner : ℕ) {id : ℕ} (hid : S id) :
    (g.assertPi cpuId owner id).2.OnlyIrqs n S := by
  have hbump : (if spiBase ≤ id then g.bumpHint else g).OnlyIrqs n S := by
    split_ifs
    · exact ⟨h.configuredIrqs, h.pendingIrqs, h.pending⟩
    · exact h
  exact (hbump.setInfo owner id fun hnot => absurd hid hnot).notifyTarget hid _

theorem OnlyIrqs.deassertPi (h : g.OnlyIrqs n S) (owner id : ℕ) :
    (g.deassertPi owner id).2.OnlyIrqs n S := by
  rw [GicD.deassertPi]
  exact keeps_ite (fun _ => h) fun _ => h.setInfo owner id fun _ => rfl

theorem OnlyIrqs.redirectSpi (h : g.OnlyIrqs n S) (id hint : ℕ) :
    (g.redirectSpi id hint).2.OnlyIrqs n S := by
  rw [GicD.redirectSpi]
  split
  · exact h
  · rename_i info hinfo
    have hid : S id := by
      by_contra hnot
      rw [IrqInjectionInfo.redirected, h.pending 0 id hnot] at hinfo
      cases hinfo
    exact (h.setInfo 0 id fun hnot => absurd hid hnot).notifyTarget hid _

/-- Register writes, lines and SGIs reach no interrupt that does not exist. -/
theorem onlyIrqsRule (hsgi : ∀ id < maxSgi, S id) :
    AssertRule (fun _ id => S id) (OnlyIrqs n S) where
  store h cpu id _ hf := h.modifyIrq cpu id fun irq => (hf irq).1
  raiseLine h cpu id _ := h.modifyIrq cpu id fun irq => by
    rw [GicD.raiseLine]
    split_ifs <;> rfl
  lowerLine h cpu id _ := h.modifyIrq cpu id fun _ => rfl
  ctlr h _ := ⟨h.configuredIrqs, h.pendingIrqs, h.pending⟩
  propBaser h _ := ⟨h.configuredIrqs, h.pendingIrqs, h.pending⟩
  pendBaser h _ := ⟨h.configuredIrqs, h.pendingIrqs, h.pending⟩
  bumpHint h := ⟨h.configuredIrqs, h.pendingIrqs, h.pending⟩
  gicR {g} h cpu f := by
    apply h.of_eq
    · rfl
    · intro c x _
      exact congrFun (modifyBank_field g cpu (fun b => { b with gicR := f b.gicR })
        Banked.pendingIrqs (fun _ => rfl) c) x
    · intro c x _
      rw [modifyGicR_irqObject]
  assertPi h cpuId owner id hid := h.assertPi cpuId owner hid
  assertSgi h sender target owner id hid := by
    have hirq := hsgi id hid
    rw [assertSgi]
    refine keeps_ite (fun _ => h.assertPi target owner hirq) fun _ => ?_
    refine keeps_ite (fun _ => h) fun _ => ?_
    exact (h.setInfo owner id fun hnot => absurd hirq hnot).notifyTarget hirq _
  redirectSpi h id hint _ := h.redirectSpi id hint
  deassertPi h owner id := h.deassertPi owner id
  deassertSgi h sender owner id hid := by
    rw [deassertSgi]
    refine keeps_ite (fun _ => h.deassertPi owner id) fun _ => keeps_ite (fun _ => h) fun _ => ?_
    exact h.setInfo owner id fun hnot => absurd (hsgi id hid) hnot

theorem OnlyIrqs.inject (h : g.OnlyIrqs n S) (v : ℕ) {id : ℕ} (hid : S id) :
    (g.inject v id).2.OnlyIrqs n S := by
  rw [GicD.inject]
  split
  · exact h
  · rename_i info _
    have hset : (g.setInfo v id info).OnlyIrqs n S := h.setInfo v id fun hnot => absurd hid hnot
    apply hset.of_eq
    · rfl
    · intro c x hx
      rw [clrPendingIrq_pendingIrqs, if_neg fun heq : c = v ∧ x = id => hx (heq.2 ▸ hid),
        setInInjection_field _ v id Banked.pendingIrqs fun _ _ => rfl]
    · intro c x _
      rw [clrPendingIrq_irqObject, setInInjection_irqObject]

theorem OnlyIrqs.reset (hlines : ∀ id < n, S id) (hn : ppiBase ≤ n) (h : g.OnlyIrqs n S) :
    g.reset.OnlyIrqs n S where
  configuredIrqs := h.configuredIrqs
  pendingIrqs c x hx := by
    have hle : ¬x < g.configuredIrqs := fun hlt => hx (hlines x (h.configuredIrqs ▸ hlt))
    simp only [GicD.reset]
    split_ifs
    · rw [resetBank]
      dsimp only
      rw [if_neg hle]
      exact h.pendingIrqs c x hx
    · exact h.pendingIrqs c x hx
  pending c x hx := by
    have hppi : ppiBase ≤ x := by
      by_contra hlt
      exact hx (hlines x ((Nat.not_le.1 hlt).trans_le hn))
    rcases g.reset_irqObject c hppi with heq | ⟨t, heq⟩
    · rw [heq]
      exact h.pending c x hx
    · rw [heq, Irq.reset]
      dsimp only
      split_ifs
      · exact h.pending c x hx
      · rfl

theorem OnlyIrqs.setPendingIrq (h : g.OnlyIrqs n S) (v : ℕ) {id : ℕ} (hid : S id) :
    (g.setPendingIrq v id).OnlyIrqs n S := by
  apply h.of_eq
  · rfl
  · intro c x hx
    rw [setPendingIrq_pendingIrqs, if_neg fun heq : c = v ∧ x = id => hx (heq.2 ▸ hid)]
  · intro c x _
    rw [setPendingIrq_irqObject]

theorem OnlyIrqs.clrInInjection (h : g.OnlyIrqs n S) (v id : ℕ) :
    (g.clrInInjection v id).OnlyIrqs n S := by
  apply h.of_eq
  · rfl
  · intro c x _
    rw [clrInInjection_field g v id Banked.pendingIrqs fun _ _ => rfl]
  · intro c x _
    rw [clrInInjection_irqObject]

theorem OnlyIrqs.updateInjStatus (h : g.OnlyIrqs n S) (v : ℕ) {id : ℕ} (hid : S id)
    (state : IrqState) (inInjection : Bool) :
    (g.updateInjStatus v id state inInjection).OnlyIrqs n S := by
  refine updateInjStatus_keeps h v id state inInjection (h.clrInInjection v id) ?_ ?_ ?_
  · exact fun hg _ hf => hg.modifyIrq v id fun irq => (hf irq).1
  · exact fun hg _ => hg.setInfo v id fun hnot => absurd hid hnot
  · exact fun hg => hg.setPendingIrq v hid

theorem OnlyIrqs.assertLpi (hlpi : ∀ id, lpiBase ≤ id → S id) (h : g.OnlyIrqs n S)
    {bus : GuestBus} {pintid targetCpu : ℕ}
    (hstep : g.assertLpi bus pintid targetCpu = some g') : g'.OnlyIrqs n S := by
  rw [GicD.assertLpi] at hstep
  split_ifs at hstep with hrange
  · exact Option.some.inj hstep ▸ h
  · have hid := hlpi pintid (Nat.not_lt.1 (not_or.1 hrange).2)
    have hraise (prop : UInt8) : (g.raiseLpi pintid targetCpu prop).OnlyIrqs n S := by
      have hprio := h.modifyIrq 0 pintid (f := ({ · with prio := prop &&& 0xFC })) fun _ => rfl
      exact (hprio.setInfo 0 pintid fun hnot => absurd hid hnot).notifyTarget hid _
    split at hstep
    · split_ifs at hstep
      · exact Option.some.inj hstep ▸ h
      · exact Option.some.inj hstep ▸ hraise _
    · exact Option.some.inj hstep ▸ h

/-- **What one call keeps.** -/
theorem OnlyIrqs.exec (hlines : ∀ id < n, S id) (hn : spiBase ≤ n) (hlimit : n ≤ maxIrqNoLpi)
    (h : g.OnlyIrqs n S) (op : GicOp)
    (hop : ∀ cpuId irqId state inInjection,
      op = .updateInjStatus cpuId irqId state inInjection → S irqId) :
    (g.exec op).OnlyIrqs n S := by
  have hsgi : ∀ id < maxSgi, S id := fun id hid =>
    hlines id (hid.trans_le (Nat.le_trans (by decide) hn))
  refine exec_keeps_of (onlyIrqsRule hsgi) h op ?_ ?_ ?_ ?_
  · intro p hp
    have hlt := lt_of_mem_assertedBy (h.configuredIrqs ▸ hn) (h.configuredIrqs ▸ hlimit) hp
    exact hlines p.2 (h.configuredIrqs ▸ hlt)
  · intro v _ id _ hid hscan
    refine hscan.inject v ?_
    by_contra hnot
    have hbit := bit_of_mem_scanned (considers_of_highestIrq hid).1
    rw [h.pendingIrqs v id hnot] at hbit
    cases hbit
  · intro v id state inInjection heq
    exact h.updateInjStatus v (hop v id state inInjection heq) state inInjection
  · intro _
    exact h.reset hlines (Nat.le_trans (by decide) hn)

end OnlyIrqs

/-- There is such a line or LPI. -/
def HasIrq (g : GicD) (id : ℕ) : Prop := id < g.configuredIrqs ∨ lpiBase ≤ id ∧ id < maxIrq

/-- The interrupt can be delivered to the vCPU. -/
structure Candidate (g : GicD) (v id : ℕ) : Prop where
  irq : g.HasIrq id
  enable : (g.irqObject v id).enable = true
  group : g.groupEnabled (g.irqObject v id) = true
  pending : (g.irqObject v id).injectionInfo.pending = true
  target : (g.irqObject v id).injectionInfo.isTargetingCpu v = true
  free : (g.bank v).inInjectionIrqs id = false
  receive : g.vcpuCanReceiveIrq v id = true

/-- The walk through the bits of the vCPU comes to where the interrupt is: to a line that is not the
last, or has a bit below it, and to the first of the LPIs, when the last line is not on the way. -/
def Reached (g : GicD) (v id : ℕ) : Prop :=
  let bits := (g.bank v).pendingIrqs
  if id < g.configuredIrqs then id + 1 < g.configuredIrqs ∨ ∃ x < id, bits x = true
  else (∀ x, lpiBase ≤ x → x < id → bits x = false) ∧
    (bits (g.configuredIrqs - 1) = false ∨ ∀ x, x + 1 < g.configuredIrqs → bits x = false)

theorem run_calls {ops : List GicOp} (hadmits : ∀ op ∈ ops, ∀ g : GicD, g.Admits op) (g : GicD) :
    Run Step g (ops.map .call) (ops.foldl exec g) := by
  induction ops generalizing g with
  | nil => exact .nil
  | cons op ops ih =>
      rw [List.forall_mem_cons] at hadmits
      exact .cons ⟨hadmits.1 g, rfl⟩ (ih hadmits.2 (g.exec op))

section Run

variable {g₀ g : GicD} {ops : List DistrOp}

end Run

section Run

variable {g₀ g : GicD} {ops : List DistrOp}

end Run

end GicD

end Vml
