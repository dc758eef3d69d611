import Vml.GicRun
import Vml.GicScan

/-!
# An SPI in injection on one vCPU

An SPI may have several targets, may be asserted again while a vCPU has it in a list register, and
may be routed elsewhere meanwhile. `redirect_spi` leaves an injected interrupt alone. `highest_irq`
does not look at the injected bits: its test asks only whether the vCPU itself has the interrupt in
injection.

So every vCPU among the targets takes the interrupt (`handed_out_twice`). As long as the test passes
no SPI that another vCPU has in injection (`Spares`), each SPI is in injection on one vCPU at most.

Only `inject` sets a bit of `in_injection_irqs`. Every other step keeps or clears them
(`injectionRule`), so the invariant has to be looked at in one place.

Main results: `spi_exclusive` and `handed_out_twice`.
-/

namespace Vml.GicD

/-- No SPI is in injection on two vCPUs. -/
def Exclusive (g : GicD) : Prop :=
  ∀ id, spiBase ≤ id → ∀ u v, (g.bank u).inInjectionIrqs id = true →
    (g.bank v).inInjectionIrqs id = true → u = v

/-- The vCPU that asks for an interrupt is not offered an SPI that another vCPU has in injection. -/
def Spares (g : GicD) : GicOp → Prop
  | .pendingIrq v minPriority =>
      ∀ id, spiBase ≤ id → id ∈ g.scanned v → g.considers v id = true →
        (g.irqObject v id).prio ≤ minPriority →
        ∀ u, (g.bank u).inInjectionIrqs id = true → u = v
  | _ => True

/-- Nothing is in injection in `g'` that is not in injection in `g`. -/
def InjectsNoMore (g g' : GicD) : Prop :=
  ∀ u id, (g'.bank u).inInjectionIrqs id = true → (g.bank u).inInjectionIrqs id = true

theorem Exclusive.of_injectsNoMore {g g' : GicD} (hg : g.Exclusive) (h : InjectsNoMore g g') :
    g'.Exclusive := fun id hid u v hu hv => hg id hid u v (h u id hu) (h v id hv)

/-! ## The calls that set no bit -/

section Rule

variable {g₀ g : GicD} (h : InjectsNoMore g₀ g)

include h

theorem InjectsNoMore.of_eq {g' : GicD}
    (heq : ∀ u, (g'.bank u).inInjectionIrqs = (g.bank u).inInjectionIrqs) :
    InjectsNoMore g₀ g' := by
  intro u id hu
  rw [heq] at hu
  exact h u id hu

theorem InjectsNoMore.modifyIrq (cpu id : ℕ) (f : Irq → Irq) :
    InjectsNoMore g₀ (g.modifyIrq cpu id f) :=
  h.of_eq (g.modifyIrq_field cpu id f Banked.inInjectionIrqs fun _ _ => rfl)

theorem InjectsNoMore.notifyTarget (cpu id : ℕ) (info : IrqInjectionInfo) (target : IrqTarget) :
    InjectsNoMore g₀ ((g.setInfo cpu id info).notifyTarget id target).2 :=
  (h.modifyIrq cpu id _).of_eq (announced_notifyTarget _ id target).inInjectionIrqs

theorem InjectsNoMore.assertPi (cpuId owner id : ℕ) :
    InjectsNoMore g₀ (g.assertPi cpuId owner id).2 := by
  have hbump : InjectsNoMore g₀ (if spiBase ≤ id then g.bumpHint else g) := by
    split_ifs
    · exact h
    · exact h
  exact hbump.notifyTarget owner id _ _

theorem InjectsNoMore.deassertPi (owner id : ℕ) :
    InjectsNoMore g₀ (g.deassertPi owner id).2 := by
  rw [GicD.deassertPi]
  exact keeps_ite (fun _ => h) fun _ => h.modifyIrq owner id _

theorem InjectsNoMore.clrInInjection (cpu id : ℕ) : InjectsNoMore g₀ (g.clrInInjection cpu id) := by
  intro u x hu
  rw [clrInInjection_inInjectionIrqs] at hu
  split_ifs at hu
  exact h u x hu

theorem InjectsNoMore.setPendingIrq (cpu id : ℕ) : InjectsNoMore g₀ (g.setPendingIrq cpu id) :=
  h.of_eq (g.modifyBank_field cpu _ Banked.inInjectionIrqs fun _ => rfl)

end Rule

/-- The calls that a register write consists of set no bit. -/
theorem injectionRule (g₀ : GicD) : CallRule (InjectsNoMore g₀) where
  store hg cpu id _ _ := hg.modifyIrq cpu id _
  ctlr hg _ := hg
  propBaser hg _ := hg
  pendBaser hg _ := hg
  bumpHint hg := hg
  gicR {g} hg cpu _ := hg.of_eq (g.modifyBank_field cpu _ Banked.inInjectionIrqs fun _ => rfl)
  assertPi hg cpuId owner id := hg.assertPi cpuId owner id
  assertSgi hg sender target owner id _ := by
    rw [assertSgi]
    refine keeps_ite (fun _ => hg.assertPi target owner id) fun _ => ?_
    exact keeps_ite (fun _ => hg) fun _ => hg.notifyTarget owner id _ _
  redirectSpi hg id hint _ := by
    rw [redirectSpi]
    split
    · exact hg
    · exact hg.notifyTarget 0 id _ _
  deassertPi hg owner id := hg.deassertPi owner id
  deassertSgi hg sender owner id _ := by
    rw [deassertSgi]
    refine keeps_ite (fun _ => hg.deassertPi owner id) fun _ => ?_
    exact keeps_ite (fun _ => hg) fun _ => hg.modifyIrq owner id _

theorem injectsNoMore_updateInjStatus (g : GicD) (cpuId irqId : ℕ) (state : IrqState)
    (inInjection : Bool) : InjectsNoMore g (g.updateInjStatus cpuId irqId state inInjection) := by
  have hg : InjectsNoMore g g := fun _ _ => id
  refine updateInjStatus_keeps hg cpuId irqId state inInjection ?_ ?_ ?_ ?_
  · exact hg.clrInInjection cpuId irqId
  · exact fun hg _ _ => hg.modifyIrq cpuId irqId _
  · exact fun hg _ => hg.modifyIrq cpuId irqId _
  · exact fun hg => hg.setPendingIrq cpuId irqId

theorem injectsNoMore_reset (g : GicD) : InjectsNoMore g g.reset := by
  intro u id hu
  simp only [reset] at hu
  split_ifs at hu
  · cases hu
  · exact hu

/-! ## The invariant -/

/-- What a vCPU takes is then in injection on that vCPU, and nothing else is new. -/
theorem inject_inInjectionIrqs {g : GicD} {v id u x : ℕ}
    (h : ((g.inject v id).2.bank u).inInjectionIrqs x = true) :
    (g.bank u).inInjectionIrqs x = true ∨ x = id ∧ u = v := by
  rw [inject] at h
  split at h
  · exact .inl h
  · rename_i info _
    have hsame := g.setInfo_field v id info Banked.inInjectionIrqs (fun _ _ => rfl) u
    have hclr := ((g.setInfo v id info).setInInjection v id).modifyBank_field v
      (fun b => { b with pendingIrqs := Function.update b.pendingIrqs id false })
      Banked.inInjectionIrqs (fun _ => rfl) u
    have hset : (((g.setInfo v id info).setInInjection v id).bank u).inInjectionIrqs x = true :=
      hclr ▸ h
    rw [setInInjection_inInjectionIrqs, hsame] at hset
    split_ifs at hset with hnew
    · exact .inr ⟨hnew.2, hnew.1⟩
    · exact .inl hset

/-- **One call.** -/
theorem exclusive_exec {g : GicD} {op : GicOp} (hg : g.Exclusive) (hok : g.Spares op) :
    (g.exec op).Exclusive := by
  have hkeep {g' : GicD} (h : InjectsNoMore g g') : g'.Exclusive := hg.of_injectsNoMore h
  cases op with
  | pendingIrq v minPriority =>
      have hscan := (injectionRule g).highestIrq (fun _ _ => id) v true
      have hsame := sameScan_highestIrq g v true
      simp only [exec, pendingIrq]
      split
      · exact hkeep hscan
      · rename_i id hid
        obtain ⟨hmem, hcons⟩ := considers_of_highestIrq hid
        split_ifs with hprio
        · exact hkeep hscan
        · rw [hsame.irqObject id hcons, UInt8.not_lt] at hprio
          -- whoever has the interrupt that `v` takes in injection is `v`
          have hfree : ∀ u, spiBase ≤ id → (g.bank u).inInjectionIrqs id = true → u = v :=
            fun u hspi hu => hok id hspi hmem hcons hprio u hu
          intro x hx u w hu hw
          rcases inject_inInjectionIrqs hu with hu' | ⟨hxid, huv⟩ <;>
            rcases inject_inInjectionIrqs hw with hw' | ⟨hxid', hwv⟩
          · exact hg x hx u w (hscan u x hu') (hscan w x hw')
          · subst hxid'
            exact (hfree u hx (hscan u x hu')).trans hwv.symm
          · subst hxid
            exact huv.trans (hfree w hx (hscan w x hw')).symm
          · exact huv.trans hwv.symm
  | updateInjStatus cpuId irqId state inInjection =>
      exact hkeep (injectsNoMore_updateInjStatus g cpuId irqId state inInjection)
  | reset => exact hkeep (injectsNoMore_reset g)
  | _ =>
      exact hkeep (exec_keeps (injectionRule g) (fun _ _ => id) _ (by simp) (by simp) (by simp))

/-- **An SPI is in injection on at most one vCPU**, in every state of every run in which no vCPU is
offered an SPI that another one has in injection. -/
theorem spi_exclusive {g t : GicD} {ops : List GicOp} (hg : g.Fresh)
    (h : Run (fun (g : GicD) op t => g.Spares op ∧ t = g.exec op) g ops t) : t.Exclusive := by
  refine @Run.invariant _ _ _ Exclusive _ _ _ ?_ h ?_
  · rintro g op _ hg ⟨hok, rfl⟩
    exact exclusive_exec hg hok
  · intro id _ u v hu
    rw [hg.inInjectionIrqs] at hu
    cases hu

/-! ## A shared interrupt with two targets -/

/-- The guest enables group 0 and the SPI 32, and routes it to the vCPUs in `targets`. A device
asserts it. -/
def sharedIrq (targets : UInt64) : List GicOp :=
  [.mmioWrite 0 0x0 4 1, .mmioWrite 0 0x104 4 1, .mmioWrite 0 0x820 1 targets, .assertGlobalLine 32]

/-- Then both vCPUs ask for an interrupt. -/
def sharedRun (targets : UInt64) : List GicOp :=
  sharedIrq targets ++ [.pendingIrq 0 255, .pendingIrq 1 255]

/-- One assertion of an interrupt for two vCPUs is handed to both of them. -/
theorem handed_out_twice : ¬((sharedRun 0b11).foldl exec (init .gicV2 2 64)).Exclusive := by
  intro h
  have hboth : (((sharedRun 0b11).foldl exec (init .gicV2 2 64)).bank 0).inInjectionIrqs 32 = true ∧
      (((sharedRun 0b11).foldl exec (init .gicV2 2 64)).bank 1).inInjectionIrqs 32 = true := by
    decide +kernel
  exact absurd (h 32 (by decide) 0 1 hboth.1 hboth.2) (by decide)

/-- An interrupt for one vCPU is handed to that vCPU only. -/
theorem spi_exclusive_single : ((sharedRun 0b01).foldl exec (init .gicV2 2 64)).Exclusive := by
  have hfresh := fresh_init .gicV2 2 64
  have hnone : InjectsNoMore (init .gicV2 2 64)
      ((sharedIrq 0b01).foldl exec (init .gicV2 2 64)) := by
    refine List.foldlRecOn (motive := InjectsNoMore (init .gicV2 2 64)) (sharedIrq 0b01) exec
      (fun _ _ => id) fun g hg op hop => ?_
    refine exec_keeps (injectionRule _) hg op ?_ ?_ ?_
    all_goals
      intros
      subst_vars
      simp [sharedIrq] at hop
  have hscan : (((sharedIrq 0b01).foldl exec (init .gicV2 2 64)).exec (.pendingIrq 0 255)).scanned 1
      = [] := by decide +kernel
  refine spi_exclusive hfresh (AllOk.run ⟨trivial, trivial, trivial, trivial, ?_, ?_, trivial⟩)
  · intro id _ _ _ _ u hu
    have hclear := hfresh.inInjectionIrqs u id
    rw [hnone u id hu] at hclear
    cases hclear
  · intro id _ hmem
    exact absurd (hscan ▸ hmem) List.not_mem_nil

end Vml.GicD
