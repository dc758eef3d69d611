import Vml.GicRun
import Vml.GicTurns
import Vml.GicUninterrupted

/-!
# Waiting for interrupts

`wait_for_interrupt` looks for an interrupt and for a round-up, and blocks when there is none. What
comes later has to raise the signal of the vCPU, or the vCPU waits in vain.

**Debts.** For a vCPU and an interrupt (`Wake`) one of three things holds: the interrupt is not
deliverable; the signal is raised; or some thread owes it, which is one that has yet to signal the
vCPU, or the vCPU itself as long as its scan has the interrupt ahead. The scan reaches the last
interrupt of all only if the bit of another one is set, which is why an interrupt comes with the one
that leads the scan to it.

**What goes wrong.** A register write of another vCPU may make an interrupt deliverable whose bit
has been set for long: it is enabled, or its group is, or the redistributor wakes up. Nobody signals
the vCPU then. An SPI that is routed nowhere does the same, since the invalid target has the bits of
all vCPUs. The runs in which this does not happen (`Wary`) lose no wake-up.

Main results: `no_wakeup_lost`, and `wakeup_lost`.
-/

namespace Vml

namespace GicSys

open GicD

variable {ι : Type*}

/-! ## Debts -/

/-- What a vCPU may wait for: the interrupt `id`, to which the bit of `x` leads its scan, or to be
rounded up. -/
inductive Wake
  | irq (v x id : ℕ)
  | roundup (v : ℕ)

/-- The vCPU that waits. -/
def Wake.cpu : Wake → ℕ
  | irq v _ _ | roundup v => v

/-- The bit of `x` leads the scan to `id`. -/
def LeadsTo (g : GicD) (x id : ℕ) : Prop :=
  x = id ∧ id + 1 < g.configuredIrqs ∨ x < id ∧ id + 1 = g.configuredIrqs

/-- The signal of the vCPU is raised. -/
def Signaled (m : Machine) (v : ℕ) : Prop := (m.gic.bank v).irqSig.signaled = true

/-- There is nothing to wait for, or the signal is raised. -/
def Paid (m : Machine) : Wake → Prop
  | .irq v x id => v < m.gic.numVcpus → LeadsTo m.gic x id → (m.gic.bank v).pendingIrqs x = true →
      (m.gic.bank v).pendingIrqs id = true → m.gic.considers v id = true → Signaled m v
  | .roundup v => m.cpuState v = .emulateRoundedup → Signaled m v

/-- The vCPU still comes to look for what it may wait for, or does not block. -/
def Looks : Wake → Task → Prop
  | k, .read _ task | k, .cas _ _ task | k, .notify _ _ _ task | k, .signal _ _ _ _ task =>
      Looks k task
  | .irq _ x id, .scan (.waitForInterrupt _) start pos r =>
      r ≠ none ∨ start = 0 ∧ pos ≤ x ∨ 0 < start ∧ start < lpiBase ∧ pos ≤ id
  | .irq _ _ id, .look (.waitForInterrupt _) y r => r ≠ none ∨ y ≤ id
  | .irq v _ id, .judge (.waitForInterrupt _) y r cur =>
      r ≠ none ∨ y < id ∨ y = id ∧ cur.pending = true ∧ cur.isTargetingCpu v = true
  | .irq _ _ _, .found (.waitForInterrupt _) r => r ≠ none
  | .irq _ _ _, .checkRoundup _ => False
  | _, .checkDump _ | _, .block _ => False
  | _, _ => True

/-- The thread has yet to signal the vCPU. -/
def Announces : Wake → Task → Prop
  | .irq v x id, .notify _ y cpus _ => (y = x ∨ y = id) ∧ v ∈ cpus
  | .irq v x id, .signal _ y cpu cpus _ => (y = x ∨ y = id) ∧ (v = cpu ∨ v ∈ cpus)
  | .roundup v, .unblock cpu => cpu = v
  | _, _ => False

/-- The thread owes the vCPU to wake up: it is the vCPU and still looks, or has yet to signal it. -/
def OwesWake (k : Wake) (t : Party ι) (task : Task) : Prop :=
  t.self = some k.cpu ∧ Looks k task ∨ Announces k task

/-- Every wake-up is paid or owed. -/
abbrev AllAwake (s : GicSys ι) : Prop := s.Settled (fun k m => Paid m k) OwesWake

/-! ## What takes nothing back -/

/-- For the vCPU `v` there is no more to wait for in `m'` than in `m`, and its signal is raised if
it was. -/
structure Calmer (v : ℕ) (m m' : Machine) : Prop where
  numVcpus : m'.gic.numVcpus = m.gic.numVcpus
  configuredIrqs : m'.gic.configuredIrqs = m.gic.configuredIrqs
  pendingIrqs : ∀ x, (m'.gic.bank v).pendingIrqs x = true → (m.gic.bank v).pendingIrqs x = true
  considers : ∀ id, m'.gic.considers v id = true → m.gic.considers v id = true
  cpuState : m'.cpuState v = .emulateRoundedup → m.cpuState v = .emulateRoundedup
  signaled : Signaled m v → Signaled m' v

variable {v : ℕ} {t : Party ι} {m m' : Machine} {task task' : Task} {k : Wake}

theorem Calmer.refl (v : ℕ) (m : Machine) : Calmer v m m :=
  ⟨rfl, rfl, fun _ h => h, fun _ h => h, fun h => h, fun h => h⟩

theorem LeadsTo.of_configuredIrqs {g g' : GicD} (hconf : g'.configuredIrqs = g.configuredIrqs)
    {x id : ℕ} (h : LeadsTo g' x id) : LeadsTo g x id := by
  rwa [LeadsTo, hconf] at h

theorem Calmer.paid (h : Calmer k.cpu m m') (hpaid : Paid m k) : Paid m' k := by
  cases k with
  | irq v x id =>
      intro hv hleads hx hid hcons
      exact h.signaled (hpaid (h.numVcpus ▸ hv) (hleads.of_configuredIrqs h.configuredIrqs)
        (h.pendingIrqs x hx) (h.pendingIrqs id hid) (h.considers id hcons))
  | roundup v => exact fun hstate => h.signaled (hpaid (h.cpuState hstate))

theorem vcpuCanReceiveIrq_congr {g g' : GicD} {v : ℕ} (hctlr : g'.ctlr = g.ctlr)
    (hgicR : (g'.bank v).gicR = (g.bank v).gicR) (id : ℕ) :
    g'.vcpuCanReceiveIrq v id = g.vcpuCanReceiveIrq v id := by
  rw [vcpuCanReceiveIrq, vcpuCanReceiveIrq, affinityRouting, affinityRouting, hctlr, hgicR]

/-- The test of `highest_irq` is no easier, if no interrupt has left injection. -/
theorem considers_of_considers {g g' : GicD} {v id : ℕ} (hctlr : g'.ctlr = g.ctlr)
    (hirq : g'.irqObject v id = g.irqObject v id) (hgicR : (g'.bank v).gicR = (g.bank v).gicR)
    (hinj : (g.bank v).inInjectionIrqs id = true → (g'.bank v).inInjectionIrqs id = true)
    (h : g'.considers v id = true) : g.considers v id = true := by
  have hrecv := vcpuCanReceiveIrq_congr hctlr hgicR id
  simp only [GicD.considers, groupEnabled, group0Enabled, group1Enabled, hrecv, hctlr, hirq,
    Bool.and_eq_true, Bool.not_eq_true'] at h ⊢
  refine ⟨⟨h.1.1, ?_⟩, h.2⟩
  by_contra hset
  rw [hinj (Bool.not_eq_false _ ▸ hset)] at h
  exact absurd h.1.2 Bool.true_eq_false_eq_False

/-- An access that leaves alone all that the test of `highest_irq` on `v` sees, though an interrupt
may go into injection. -/
theorem Calmer.of_same (hnum : m'.gic.numVcpus = m.gic.numVcpus)
    (hconf : m'.gic.configuredIrqs = m.gic.configuredIrqs) (hctlr : m'.gic.ctlr = m.gic.ctlr)
    (hirq : ∀ id, m'.gic.irqObject v id = m.gic.irqObject v id)
    (hgicR : (m'.gic.bank v).gicR = (m.gic.bank v).gicR)
    (hinj : ∀ id, (m.gic.bank v).inInjectionIrqs id = true →
      (m'.gic.bank v).inInjectionIrqs id = true)
    (hpend : ∀ x, (m'.gic.bank v).pendingIrqs x = true → (m.gic.bank v).pendingIrqs x = true)
    (hcpu : m'.cpuState v = .emulateRoundedup → m.cpuState v = .emulateRoundedup)
    (hsig : Signaled m v → Signaled m' v) : Calmer v m m' where
  numVcpus := hnum
  configuredIrqs := hconf
  pendingIrqs := hpend
  considers id := considers_of_considers hctlr (hirq id) hgicR (hinj id)
  cpuState := hcpu
  signaled := hsig

theorem calmer_setPendingIrq {cpu id : ℕ} (hne : v ≠ cpu) :
    Calmer v m (m.mapGic (·.setPendingIrq cpu id)) := by
  have hfield {α : Type} := @setPendingIrq_field m.gic cpu id α
  refine .of_same rfl rfl rfl (setPendingIrq_irqObject _ _ _ _)
    (hfield Banked.gicR (fun _ _ => rfl) v) (fun x hset => ?_) (fun x hset => ?_) (fun h => h)
    fun hsig => ?_
  · rwa [Machine.mapGic, hfield Banked.inInjectionIrqs fun _ _ => rfl]
  · rwa [Machine.mapGic, setPendingIrq_pendingIrqs, if_neg fun h => hne h.1] at hset
  · rwa [Signaled, Machine.mapGic, hfield Banked.irqSig fun _ _ => rfl]

theorem calmer_clrPendingIrq (cpu id : ℕ) : Calmer v m (m.mapGic (·.clrPendingIrq cpu id)) := by
  have hfield {α : Type} := @clrPendingIrq_field m.gic cpu id α
  refine .of_same rfl rfl rfl (clrPendingIrq_irqObject _ _ _ _)
    (hfield Banked.gicR (fun _ _ => rfl) v) (fun x hset => ?_) (fun x hset => ?_) (fun h => h)
    fun hsig => ?_
  · rwa [Machine.mapGic, hfield Banked.inInjectionIrqs fun _ _ => rfl]
  · rw [Machine.mapGic, clrPendingIrq_pendingIrqs] at hset
    split_ifs at hset
    exact hset
  · rwa [Signaled, Machine.mapGic, hfield Banked.irqSig fun _ _ => rfl]

theorem calmer_setInInjection (cpu id : ℕ) : Calmer v m (m.mapGic (·.setInInjection cpu id)) := by
  have hfield {α : Type} := @setInInjection_field m.gic cpu id α
  refine .of_same rfl rfl rfl (setInInjection_irqObject _ _ _ _)
    (hfield Banked.gicR (fun _ _ => rfl) v) (fun x hset => ?_) (fun x hset => ?_) (fun h => h)
    fun hsig => ?_
  · rw [Machine.mapGic, setInInjection_inInjectionIrqs, hset, ite_self]
  · rwa [Machine.mapGic, hfield Banked.pendingIrqs fun _ _ => rfl] at hset
  · rwa [Signaled, Machine.mapGic, hfield Banked.irqSig fun _ _ => rfl]

theorem calmer_notifyInterruptPending (cpu : ℕ) :
    Calmer v m (m.mapGic (·.notifyInterruptPending cpu)) := by
  have hann := announced_notifyInterruptPending m.gic 0 cpu
  refine .of_same rfl rfl rfl (hann.irqObject v) (hann.gicR v) (fun x hset => ?_) (fun x hset => ?_)
    (fun h => h) fun hsig => ?_
  · rwa [Machine.mapGic, hann.inInjectionIrqs]
  · rwa [Machine.mapGic, GicD.notifyInterruptPending,
      irqSig_field _ _ _ Banked.pendingIrqs fun _ _ => rfl] at hset
  · rw [Signaled, Machine.mapGic, GicD.notifyInterruptPending, modifyBank_bank]
    split_ifs
    · rfl
    · exact hsig

theorem calmer_wait {cpu : ℕ} {irqSig : Signal} (hne : v ≠ cpu) :
    Calmer v m (m.mapGic (·.modifyBank cpu ({ · with irqSig }))) := by
  have hbank : ((m.mapGic (·.modifyBank cpu ({ · with irqSig }))).gic.bank v) = m.gic.bank v := by
    rw [Machine.mapGic, modifyBank_bank, if_neg hne]
  refine .of_same rfl rfl rfl (m.gic.modifyBank_irqObject cpu ({ · with irqSig }) (fun _ => rfl) v)
    (by rw [hbank]) ?_ ?_ (fun h => h) ?_
  · rw [hbank]
    exact fun _ h => h
  · rw [hbank]
    exact fun _ h => h
  · rw [Signaled, Signaled, hbank]
    exact fun h => h

theorem calmer_cpuState {cpu : ℕ} {state : CpuState}
    (h : v = cpu → state = .emulateRoundedup → m.cpuState v = .emulateRoundedup) :
    Calmer v m { m with cpuState := Function.update m.cpuState cpu state } := by
  refine .of_same rfl rfl rfl (fun _ => rfl) rfl (fun _ h => h) (fun _ h => h) (fun hstate => ?_)
    fun h => h
  dsimp only at hstate
  rw [Function.update_apply] at hstate
  split_ifs at hstate with hv
  · exact h hv hstate
  · exact hstate

theorem calmer_clrInInjection {cpu id : ℕ} {g : GicD} {active : Bool} (hne : v ≠ cpu)
    (hg : g = m.gic ∨ g = m.gic.clrInInjection cpu id) :
    Calmer v m { m with gic := g.modifyIrq cpu id ({ · with active }) } := by
  have hfield {α : Type} := @modifyIrq_field g cpu id ({ · with active }) α
  have hbank : g.bank v = m.gic.bank v := by
    obtain rfl | rfl := hg
    · rfl
    · rw [clrInInjection, modifyBank_bank, if_neg hne]
  have hsizes : g.numVcpus = m.gic.numVcpus ∧ g.configuredIrqs = m.gic.configuredIrqs ∧
      g.ctlr = m.gic.ctlr ∧ ∀ x, g.irqObject v x = m.gic.irqObject v x := by
    obtain rfl | rfl := hg
    · exact ⟨rfl, rfl, rfl, fun _ => rfl⟩
    · exact ⟨rfl, rfl, rfl, clrInInjection_irqObject _ _ _ _⟩
  obtain ⟨hnum, hconf, hctlr, hirq⟩ := hsizes
  have hpend := hfield Banked.pendingIrqs (fun _ _ => rfl) v
  have hinj := hfield Banked.inInjectionIrqs (fun _ _ => rfl) v
  have hgicR := hfield Banked.gicR (fun _ _ => rfl) v
  have hsig := hfield Banked.irqSig (fun _ _ => rfl) v
  refine ⟨(modifyIrq_numVcpus ..).trans hnum, (modifyIrq_configuredIrqs ..).trans hconf, ?_, ?_,
    fun h => h, ?_⟩
  · rw [hpend, hbank]
    exact fun _ h => h
  · -- whether the interrupt is active is not asked
    intro x hcons
    have hrecv := vcpuCanReceiveIrq_congr ((modifyIrq_ctlr ..).trans hctlr)
      (hgicR.trans (congrArg _ hbank)) x
    simp only [GicD.considers, groupEnabled, group0Enabled, group1Enabled, hrecv, modifyIrq_ctlr,
      hctlr, hinj, hbank, modifyIrq_irqObject, hirq] at hcons ⊢
    split_ifs at hcons <;> exact hcons
  · rw [Signaled, Signaled, hsig, hbank]
    exact fun h => h

/-! ## Stores of injection infos -/

theorem considers_setInfo_of_not {g : GicD} {owner id x : ℕ} {info : IrqInjectionInfo}
    (h : ¬(x = id ∧ Shares id v owner)) :
    (g.setInfo owner id info).considers v x = true → g.considers v x = true := by
  refine considers_of_considers (g.setInfo_ctlr ..) ?_ (g.setInfo_field _ _ _ _ (fun _ _ => rfl) v)
    fun hset => ?_
  · rw [setInfo_irqObject, if_neg h]
  · rwa [setInfo_field _ _ _ _ Banked.inInjectionIrqs fun _ _ => rfl]

/-- An injection info is stored that makes nothing deliverable. -/
theorem calmer_setInfo {owner id : ℕ} {info : IrqInjectionInfo}
    (h : Shares id v owner → (m.gic.setInfo owner id info).considers v id = true →
      m.gic.considers v id = true) : Calmer v m (m.setInfo owner id info) := by
  have hfield {α : Type} := @setInfo_field m.gic owner id α info
  refine ⟨m.gic.setInfo_numVcpus .., m.gic.setInfo_configuredIrqs .., ?_, fun x => ?_, fun h => h,
    ?_⟩
  · rw [Machine.setInfo, hfield Banked.pendingIrqs fun _ _ => rfl]
    exact fun _ h => h
  · by_cases hobj : x = id ∧ Shares id v owner
    · rw [hobj.1]
      exact h hobj.2
    · exact considers_setInfo_of_not hobj
  · rw [Signaled, Signaled, Machine.setInfo, hfield Banked.irqSig fun _ _ => rfl]
    exact fun h => h

/-- An injection info that keeps the target and is no more pending makes nothing deliverable. -/
theorem calmer_setInfo_lower {owner id : ℕ} {info : IrqInjectionInfo}
    (htarget : info.target = (m.gic.irqObject owner id).injectionInfo.target)
    (hpend : info.pending = true → (m.gic.irqObject owner id).injectionInfo.pending = true) :
    Calmer v m (m.setInfo owner id info) := by
  refine calmer_setInfo fun hshares hcons => ?_
  have hctlr := m.gic.setInfo_ctlr owner id info
  have hrecv := vcpuCanReceiveIrq_congr hctlr
    (m.gic.setInfo_field owner id info Banked.gicR (fun _ _ => rfl) v) id
  have hirq : (m.gic.setInfo owner id info).irqObject v id =
      { m.gic.irqObject v id with injectionInfo := info } := by
    rw [setInfo_irqObject, if_pos ⟨rfl, hshares⟩]
  rw [← irqObject_eq_of_shares hshares] at htarget hpend
  simp only [GicD.considers, groupEnabled, group0Enabled, group1Enabled, hrecv, hctlr, hirq,
    Bool.and_eq_true, IrqInjectionInfo.isTargetingCpu, htarget,
    setInfo_field _ _ _ _ Banked.inInjectionIrqs fun _ _ => rfl] at hcons ⊢
  exact ⟨⟨⟨⟨hcons.1.1.1.1, hpend hcons.1.1.1.2⟩, hcons.1.1.2⟩, hcons.1.2⟩, hcons.2⟩

/-! ## Turns -/

/-- What a turn has to do for the wake-ups: those that were paid, or owed by its thread, are so
afterwards. -/
def KeepsWake (m : Machine) (t : Party ι) (task : Task) (m' : Machine) (task' : Task) : Prop :=
  ∀ k, Paid m k ∨ OwesWake k t task → Paid m' k ∨ OwesWake k t task'

/-- A turn that gives no vCPU more to wait for, unless it is the vCPU's own and the vCPU looks
afterwards. -/
theorem KeepsWake.of_calmer
    (hcalm : ∀ v, Calmer v m m' ∨ t.self = some v ∧ ∀ k : Wake, k.cpu = v → Looks k task')
    (hlooks : ∀ k, t.self = some k.cpu → Looks k task → Looks k task' ∨ Paid m' k)
    (hann : ∀ k, Announces k task → Announces k task' ∨ Paid m' k) :
    KeepsWake m t task m' task' := by
  rintro k (hpaid | ⟨hself, hlook⟩ | hannounces)
  · obtain hcalm | ⟨hself, hlook⟩ := hcalm k.cpu
    · exact .inl (hcalm.paid hpaid)
    · exact .inr (.inl ⟨hself, hlook k rfl⟩)
  · exact (hlooks k hself hlook).symm.imp_right fun h => .inl ⟨hself, h⟩
  · exact (hann k hannounces).symm.imp_right .inr

theorem Looks.left {u : Update} {task : Task} (h : Looks k (.read u task)) :
    Looks k (u.left task) := by
  cases u with
  | updateInjStatus id state inInjection => cases k <;> trivial
  | _ => exact h

theorem Looks.done {u : Update} {cur : IrqInjectionInfo} {task : Task}
    (h : Looks k (.cas u cur task)) (g : GicD) : Looks k (u.done g task) := by
  cases u with
  | pendingIrq id => cases k <;> trivial
  | updateInjStatus id state inInjection => cases k <;> trivial
  | _ => exact h

/-! ### The scan -/

theorem pending_of_considers {g : GicD} {id : ℕ} (h : g.considers v id = true) :
    (g.irqObject v id).injectionInfo.pending = true := by
  simp only [GicD.considers, Bool.and_eq_true] at h
  exact h.1.1.1.2

theorem isTargetingCpu_of_considers {g : GicD} {id : ℕ} (h : g.considers v id = true) :
    (g.irqObject v id).injectionInfo.isTargetingCpu v = true := by
  simp only [GicD.considers, Bool.and_eq_true] at h
  exact h.1.1.1.1.2

theorem vcpuCanReceiveIrq_of_considers {g : GicD} {id : ℕ} (h : g.considers v id = true) :
    g.vcpuCanReceiveIrq v id = true := by
  simp only [GicD.considers, Bool.and_eq_true] at h
  exact h.2

theorem LeadsTo.le {g : GicD} {x id : ℕ} (h : LeadsTo g x id) : x ≤ id := by
  rcases h with ⟨rfl, -⟩ | ⟨hlt, -⟩
  · exact le_rfl
  · exact hlt.le

/-- A vCPU that looks at a bit goes on to the interrupt, or the bit is not set. -/
theorem looks_scan {route : IrqTarget} {s : Scan} {start pos : ℕ} {r : Option ℕ}
    (hconf : m.gic.configuredIrqs ≤ maxIrqNoLpi) (hlook : Looks k (.scan s start pos r))
    (hv : k.cpu = v)
    (h : (Task.scan s start pos r).nextOfVcpu v route m = some (m', task')) :
    Looks k task' ∨ Paid m' k := by
  cases s with
  | pendingIrq minPriority =>
      simp only [Task.nextOfVcpu] at h
      split_ifs at h <;> cases h <;> exact .inl (by cases k <;> trivial)
  | waitForInterrupt willTimeout =>
      cases k with
      | roundup w =>
          simp only [Task.nextOfVcpu] at h
          split_ifs at h <;> cases h <;> exact .inl trivial
      | irq w x id =>
          obtain rfl : w = v := hv
          refine or_iff_not_imp_right.2 fun hpaid => ?_
          simp only [Task.nextOfVcpu] at h
          by_cases hr : r = none
          · subst hr
            replace hlook := hlook.resolve_left fun h => h rfl
            have hlow : start < lpiBase := by
              obtain ⟨rfl, -⟩ | ⟨-, hlow, -⟩ := hlook
              · decide
              · exact hlow
            have hm : m' = m := by
              split_ifs at h <;> cases h <;> rfl
            subst hm
            simp only [Paid, Classical.not_imp] at hpaid
            obtain ⟨-, hleads, hx, hid, -, -⟩ := hpaid
            have hle := hleads.le
            rw [if_pos hlow, if_pos hlow] at h
            by_cases hwin : pos < min (start + (m'.gic.configuredIrqs - 1)) maxIrq
            · rw [if_pos hwin] at h
              by_cases hbit : (m'.gic.bank w).pendingIrqs pos = true
              · rw [if_pos hbit] at h
                cases h
                refine .inr ?_
                obtain ⟨-, hpos⟩ | ⟨-, -, hpos⟩ := hlook
                · exact hpos.trans hle
                · exact hpos
              · rw [if_neg hbit] at h
                cases h
                -- the bit that has been read is that of neither
                have hnx : pos ≠ x := fun heq => hbit (heq ▸ hx)
                have hnid : pos ≠ id := fun heq => hbit (heq ▸ hid)
                refine .inr (hlook.imp (fun h => ⟨h.1, ?_⟩) fun h => ⟨h.1, h.2.1, ?_⟩)
                · omega
                · omega
            · -- the window reaches beyond the interrupt
              have h1020 : maxIrqNoLpi = 1020 := rfl
              have h8192 : lpiBase = 8192 := rfl
              have h9216 : maxIrq = 9216 := rfl
              rw [LeadsTo] at hleads
              omega
          · have hr' (h : r = none) : False := hr h
            split_ifs at h <;> cases h <;> first | exact .inl hr' | exact hr'

theorem looks_further {g : GicD} {s : Scan} {y : ℕ} {r : Option ℕ} {x id : ℕ}
    (hconf : g.configuredIrqs ≤ maxIrqNoLpi) (hid : id + 1 ≤ g.configuredIrqs)
    (h : r ≠ none ∨ y < id) : Looks (.irq v x id) (Task.further g s y r) := by
  have h1020 : maxIrqNoLpi = 1020 := rfl
  have h8192 : lpiBase = 8192 := rfl
  cases s with
  | pendingIrq minPriority =>
      rw [Task.further]
      split_ifs <;> trivial
  | waitForInterrupt willTimeout =>
      rw [Task.further]
      split_ifs with hmore
      · exact h.imp_right fun hlt => .inr ⟨by omega, by omega, by omega⟩
      · exact h.resolve_right (by omega)

/-- A vCPU that is at an interrupt goes on behind it, or takes it. -/
theorem looks_judge {route : IrqTarget} {s : Scan} {y : ℕ} {r : Option ℕ} {cur : IrqInjectionInfo}
    (hconf : m.gic.configuredIrqs ≤ maxIrqNoLpi) (hlook : Looks k (.judge s y r cur))
    (hv : k.cpu = v)
    (h : (Task.judge s y r cur).nextOfVcpu v route m = some (m', task')) :
    Looks k task' ∨ Paid m' k := by
  cases s with
  | pendingIrq minPriority =>
      obtain ⟨rfl, r', rfl | ⟨-, rfl⟩⟩ := Task.eq_of_judge h
      all_goals
        refine .inl ?_
        rw [Task.further]
        split_ifs <;> cases k <;> trivial
  | waitForInterrupt willTimeout =>
      cases k with
      | roundup w =>
          cases h
          rw [Task.further]
          split_ifs <;> exact .inl trivial
      | irq w x id =>
          obtain rfl : w = v := hv
          refine or_iff_not_imp_right.2 fun hpaid => ?_
          cases h
          simp only [Paid, Classical.not_imp] at hpaid
          obtain ⟨-, hleads, -, -, hcons, -⟩ := hpaid
          have hlast : id + 1 ≤ m.gic.configuredIrqs := by
            rw [LeadsTo] at hleads
            omega
          refine looks_further hconf hlast ?_
          by_cases hr : r = none
          · subst hr
            obtain hr | hlt | ⟨rfl, hpend, hcpu⟩ := hlook
            · exact absurd rfl hr
            · exact .inr hlt
            · -- it passes the test with what has been read
              refine .inl ?_
              simp only [GicD.considers, Bool.and_eq_true] at hcons
              simp only [hpend, hcpu, hcons.1.1.1.1.1, hcons.1.1.2, hcons.1.2, hcons.2,
                GicD.supersedes, Bool.and_true, if_true, ne_eq, reduceCtorEq, not_false_eq_true]
          · refine .inl ?_
            split_ifs
            · exact Option.some_ne_none _
            · exact hr

/-! ### One turn -/

/-- **A turn of a vCPU.** -/
theorem keepsWake_nextOfVcpu {route : IrqTarget} (hconf : m.gic.configuredIrqs ≤ maxIrqNoLpi)
    (hself : t.self = some v) (h : task.nextOfVcpu v route m = some (m', task')) :
    KeepsWake m t task m' task' := by
  have hcpu {k : Wake} (hk : t.self = some k.cpu) : k.cpu = v :=
    Option.some.inj (hk.symm.trans hself)
  have hown {c : ℕ} (hc : c = v) : t.self = some c := hc ▸ hself
  cases task with
  | scan s start pos r =>
      have hm : m' = m := by
        simp only [Task.nextOfVcpu] at h
        split_ifs at h <;> cases h <;> rfl
      refine .of_calmer (fun v => .inl (hm ▸ .refl v m)) (fun k hk hlook => ?_) (by rintro (_ | _) ⟨⟩)
      exact looks_scan hconf hlook (hcpu hk) h
  | look s y r =>
      cases h
      refine .of_calmer (fun v => .inl (.refl v m)) (fun k hk hlook => ?_) (by rintro (_ | _) ⟨⟩)
      cases s with
      | pendingIrq minPriority => cases k <;> exact .inl trivial
      | waitForInterrupt willTimeout =>
          cases k with
          | roundup w => exact .inl trivial
          | irq w x id =>
              obtain rfl : w = v := hcpu hk
              refine or_iff_not_imp_right.2 fun hpaid => ?_
              simp only [Paid, Classical.not_imp] at hpaid
              obtain ⟨-, -, -, -, hcons, -⟩ := hpaid
              refine hlook.imp_right fun hle => ?_
              obtain hlt | rfl := hle.lt_or_eq
              · exact .inl hlt
              · exact .inr ⟨rfl, pending_of_considers hcons, isTargetingCpu_of_considers hcons⟩
  | judge s y r cur =>
      have hm := (Task.eq_of_judge h).1
      refine .of_calmer (fun v => .inl (hm ▸ .refl v m)) (fun k hk hlook => ?_) (by rintro (_ | _) ⟨⟩)
      exact looks_judge hconf hlook (hcpu hk) h
  | found s r =>
      cases s with
      | pendingIrq minPriority =>
          have hm : m' = m ∧ ∀ k, Looks k task' := by
            cases r with
            | none =>
                cases h
                exact ⟨rfl, fun k => by cases k <;> trivial⟩
            | some id =>
                simp only [Task.nextOfVcpu] at h
                split_ifs at h <;> cases h <;> exact ⟨rfl, fun k => by cases k <;> trivial⟩
          exact .of_calmer (fun v => .inl (hm.1 ▸ .refl v m)) (fun k _ _ => .inl (hm.2 k)) (by rintro (_ | _) ⟨⟩)
      | waitForInterrupt willTimeout =>
          cases r with
          | none =>
              cases h
              refine .of_calmer (fun v => .inl (.refl v m)) (fun k _ hlook => ?_) (by rintro (_ | _) ⟨⟩)
              cases k with
              | irq w x id => exact absurd rfl hlook
              | roundup w => exact .inl trivial
          | some id =>
              cases h
              exact .of_calmer (fun v => .inl (.refl v m))
                (fun k _ _ => .inl (by cases k <;> trivial)) (by rintro (_ | _) ⟨⟩)
  | setInInjection id =>
      cases h
      exact .of_calmer (fun w => .inl (calmer_setInInjection v id))
        (fun k _ _ => .inl (by cases k <;> trivial)) (by rintro (_ | _) ⟨⟩)
  | clrPending id =>
      cases h
      exact .of_calmer (fun w => .inl (calmer_clrPendingIrq v id))
        (fun k _ _ => .inl (by cases k <;> trivial)) (by rintro (_ | _) ⟨⟩)
  | clrInInjection id state inInjection =>
      cases h
      refine .of_calmer (fun w => ?_) (fun k _ _ => .inl (by cases k <;> trivial)) (by rintro (_ | _) ⟨⟩)
      by_cases hw : w = v
      · exact .inr ⟨hown hw, fun k _ => by cases k <;> trivial⟩
      · refine .inl (calmer_clrInInjection hw ?_)
        split_ifs
        · exact .inl rfl
        · exact .inr rfl
  | checkPending id =>
      cases h
      refine .of_calmer (fun w => .inl (.refl w m)) (fun k _ _ => .inl ?_) (by rintro (_ | _) ⟨⟩)
      split_ifs <;> cases k <;> trivial
  | setPending id =>
      cases h
      refine .of_calmer (fun w => ?_) (fun k _ _ => .inl (by cases k <;> trivial)) (by rintro (_ | _) ⟨⟩)
      by_cases hw : w = v
      · exact .inr ⟨hown hw, fun k _ => by cases k <;> trivial⟩
      · exact .inl (calmer_setPendingIrq hw)
  | checkInInjection willTimeout =>
      cases h
      refine .of_calmer (fun w => .inl (.refl w m)) (fun k _ _ => .inl ?_) (by rintro (_ | _) ⟨⟩)
      cases k with
      | roundup w => split_ifs <;> trivial
      | irq w x id =>
          split_ifs
          · trivial
          · exact .inr (.inl ⟨rfl, Nat.zero_le x⟩)
  | checkRoundup willTimeout =>
      cases h
      refine .of_calmer (fun w => .inl (.refl w m)) (fun k hk hlook => ?_) (by rintro (_ | _) ⟨⟩)
      cases k with
      | irq w x id => exact hlook.elim
      | roundup w =>
          obtain rfl : w = v := hcpu hk
          cases hround : m.isRoundupPending w with
          | true => exact .inl trivial
          | false =>
              refine .inr fun hstate => ?_
              rw [Machine.isRoundupPending, hstate] at hround
              cases hround
  | checkDump willTimeout =>
      cases h
      refine .of_calmer (fun w => .inl (.refl w m)) (fun k _ hlook => ?_) (by rintro (_ | _) ⟨⟩)
      cases k <;> exact hlook.elim
  | block willTimeout =>
      simp only [Task.nextOfVcpu] at h
      split at h
      · cases h
      · cases h
        refine .of_calmer (fun w => ?_) (fun k _ hlook => ?_) (by rintro (_ | _) ⟨⟩)
        · by_cases hw : w = v
          · refine .inr ⟨hown hw, fun k _ => ?_⟩
            split_ifs <;> cases k <;> trivial
          · exact .inl (calmer_wait hw)
        · cases k <;> exact hlook.elim
  | _ => cases h

/-! ### What nobody signals -/

/-- In `g`, every interrupt that is deliverable to a vCPU has been so before, if its bits are set
and the vCPU waits without a signal and has its scan behind it. -/
def WakesNone (s : GicSys ι) (g : GicD) : Prop :=
  ∀ v < s.shared.gic.numVcpus, ∀ x id, LeadsTo s.shared.gic x id →
    (s.shared.gic.bank v).pendingIrqs x = true → (s.shared.gic.bank v).pendingIrqs id = true →
      ¬Signaled s.shared v → ¬Looks (.irq v x id) (s.task (.vcpu v)) →
        g.considers v id = true → s.shared.gic.considers v id = true

/-- The step makes nothing deliverable that nobody signals: no other store does, and an SPI that is
routed nowhere does not. -/
def Wary (s : GicSys ι) : GicAct ι → Prop
  | .store _ g => WakesNone s g
  | .next t _ =>
      match s.task t with
      | .assertPi owner id target =>
          target.isValid = false → WakesNone s (s.shared.gic.setInfo owner id (.asserted target))
      | .cas (.redirectSpi id target) _ _ =>
          target.isValid = false → WakesNone s (s.shared.gic.setInfo 0 id (.asserted target))
      | _ => True
  | _ => True

/-- Another thread owes the wake-up. -/
def OwedByOther (s : GicSys ι) (t : Party ι) (k : Wake) : Prop :=
  ∃ u, u ≠ t ∧ OwesWake k u (s.task u)

theorem owed_of_looks {s : GicSys ι} (t : Party ι) (hlook : Looks k (s.task (.vcpu k.cpu))) :
    t.self = some k.cpu ∧ Looks k (s.task t) ∨ OwedByOther s t k := by
  by_cases ht : t = .vcpu k.cpu
  · subst ht
    exact .inl ⟨rfl, hlook⟩
  · exact .inr ⟨.vcpu k.cpu, fun heq => ht heq.symm, .inl ⟨rfl, hlook⟩⟩

/-- **An injection info that is stored and announced.** -/
theorem keepsWake_announce {s : GicSys ι} {owner id : ℕ} {info : IrqInjectionInfo} {task' : Task}
    (hlooks : ∀ k, Looks k (s.task t) → Looks k task') (hann : ∀ k, ¬Announces k (s.task t))
    (hwary : info.target.isValid = false → WakesNone s (s.shared.gic.setInfo owner id info))
    (k : Wake) (hk : Paid s.shared k ∨ OwesWake k t (s.task t)) :
    Paid (s.shared.setInfo owner id info) k ∨
      OwesWake k t (.notify owner id (s.shared.gic.notified info.target) task') ∨
        OwedByOther s t k := by
  by_cases hown : t.self = some k.cpu ∧ Looks k (s.task t)
  · exact .inr (.inl (.inl ⟨hown.1, by cases k <;> exact hlooks _ hown.2⟩))
  have hpaid : Paid s.shared k := hk.resolve_right fun h => h.elim hown (hann k)
  have hfield {α : Type} := @setInfo_field s.shared.gic owner id α info
  have hsig {v : ℕ} : Signaled (s.shared.setInfo owner id info) v ↔ Signaled s.shared v := by
    rw [Signaled, Signaled, Machine.setInfo, hfield Banked.irqSig fun _ _ => rfl]
  cases k with
  | roundup w => exact .inl fun hstate => hsig.2 (hpaid hstate)
  | irq w x y =>
      by_cases hpaid' : Paid (s.shared.setInfo owner id info) (.irq w x y)
      · exact .inl hpaid'
      simp only [Paid, Classical.not_imp, hsig] at hpaid'
      obtain ⟨hw, hleads, hx, hy, hcons, hunsig⟩ := hpaid'
      rw [Machine.setInfo, hfield Banked.pendingIrqs fun _ _ => rfl] at hx hy
      rw [Machine.setInfo, setInfo_numVcpus] at hw
      replace hleads := hleads.of_configuredIrqs (s.shared.gic.setInfo_configuredIrqs ..)
      have hnot : ¬s.shared.gic.considers w y = true := fun h => hunsig (hpaid hw hleads hx hy h)
      have hobj : y = id ∧ Shares id w owner := by
        by_contra hobj
        exact hnot (considers_setInfo_of_not hobj hcons)
      cases hvalid : info.target.isValid with
      | true =>
          refine .inr (.inl (.inr ⟨.inr hobj.1.symm, mem_notified hw hvalid ?_⟩))
          have hcpu := isTargetingCpu_of_considers hcons
          rwa [Machine.setInfo, setInfo_injectionInfo, if_pos hobj] at hcpu
      | false =>
          -- nobody is notified, so the vCPU has to look
          refine .inr (.inr ?_)
          by_cases hlook : Looks (.irq w x y) (s.task (.vcpu w))
          · exact (owed_of_looks t hlook).resolve_left hown
          · exact absurd (hwary hvalid w hw x y hleads hx hy hunsig hlook hcons) hnot

theorem vcpuCanReceiveIrq_of_le {g : GicD} {x id : ℕ} (hle : x ≤ id)
    (h : g.vcpuCanReceiveIrq v id = true) : g.vcpuCanReceiveIrq v x = true := by
  rw [vcpuCanReceiveIrq] at h ⊢
  split_ifs at h ⊢ <;> first | rfl | exact h | omega

/-- The bit of a vCPU is set, which is to be signalled next. -/
theorem keepsWake_notify {owner id cpu : ℕ} {cpus : List ℕ} {task' : Task} :
    KeepsWake m t (.notify owner id (cpu :: cpus) task') (m.mapGic (·.setPendingIrq cpu id))
      (.signal owner id cpu cpus task') := by
  intro k hk
  have hlooks (h : Looks k (.notify owner id (cpu :: cpus) task')) :
      Looks k (.signal owner id cpu cpus task') := by cases k <;> exact h
  cases k with
  | roundup w =>
      obtain hpaid | ⟨hself, hlook⟩ | hann := hk
      · refine .inl fun hstate => ?_
        rw [Signaled, Machine.mapGic, setPendingIrq_field _ _ _ Banked.irqSig fun _ _ => rfl]
        exact hpaid hstate
      · exact .inr (.inl ⟨hself, hlooks hlook⟩)
      · exact hann.elim
  | irq w x y =>
      obtain hpaid | ⟨hself, hlook⟩ | ⟨hid, hmem⟩ := hk
      · by_cases hw : w = cpu
        · by_cases hid : id = x ∨ id = y
          · exact .inr (.inr ⟨hid, .inl hw⟩)
          · -- the bits of the claim are others
            refine .inl fun hv hleads hx hy hcons => ?_
            rw [Machine.mapGic, setPendingIrq_pendingIrqs,
              if_neg fun h => hid (.inl h.2.symm)] at hx
            rw [Machine.mapGic, setPendingIrq_pendingIrqs,
              if_neg fun h => hid (.inr h.2.symm)] at hy
            rw [Signaled, Machine.mapGic, setPendingIrq_field _ _ _ Banked.irqSig fun _ _ => rfl]
            refine hpaid hv hleads hx hy ?_
            refine @considers_of_considers m.gic (m.gic.setPendingIrq cpu id) w y rfl
              (setPendingIrq_irqObject ..) ?_ (fun hset => ?_) hcons
            · exact setPendingIrq_field _ _ _ Banked.gicR (fun _ _ => rfl) w
            · rwa [setPendingIrq_field _ _ _ Banked.inInjectionIrqs fun _ _ => rfl]
        · exact .inl ((calmer_setPendingIrq hw).paid (k := .irq w x y) hpaid)
      · exact .inr (.inl ⟨hself, hlooks hlook⟩)
      · exact .inr (.inr ⟨hid, List.mem_cons.1 hmem⟩)

/-- The vCPU is signalled, unless it cannot receive the interrupt, nor then those behind it. -/
theorem keepsWake_signal {owner id cpu : ℕ} {cpus : List ℕ} {task' : Task}
    (hm : m' = if m.gic.vcpuCanReceiveIrq cpu id then m.mapGic (·.notifyInterruptPending cpu)
      else m) :
    KeepsWake m t (.signal owner id cpu cpus task') m' (.notify owner id cpus task') := by
  have hcalm (v : ℕ) : Calmer v m m' := by
    rw [hm]
    split_ifs
    · exact calmer_notifyInterruptPending cpu
    · exact .refl v m
  refine .of_calmer (fun v => .inl (hcalm v)) (fun k _ hlook => .inl ?_) fun k hann => ?_
  · cases k <;> exact hlook
  · cases k with
    | roundup w => exact hann.elim
    | irq w x y =>
        obtain ⟨hid, rfl | hmem⟩ := hann
        · refine .inr fun _ hleads _ _ hcons => ?_
          have hle : id ≤ y := by
            obtain rfl | rfl := hid
            · exact hleads.le
            · exact le_rfl
          have hrecv := vcpuCanReceiveIrq_of_le hle
            (vcpuCanReceiveIrq_of_considers ((hcalm w).considers y hcons))
          rw [hm, if_pos hrecv, Signaled, Machine.mapGic, GicD.notifyInterruptPending,
            modifyBank_bank, if_pos rfl]
          rfl
        · exact .inl ⟨hid, hmem⟩

/-- A round-up is started or ended, and in the former case the vCPU is signalled next. -/
theorem keepsWake_casState {sw : Switch} {cpu : ℕ} {cur : CpuState} {route : IrqTarget}
    (h : (Task.casState sw cpu cur).next t.self route m = some (m', task')) :
    KeepsWake m t (.casState sw cpu cur) m' task' := by
  have hlooks (task : Task) (htask : ∀ k, Looks k task) (hcalm : ∀ v, Calmer v m m') :
      KeepsWake m t (.casState sw cpu cur) m' task :=
    .of_calmer (fun v => .inl (hcalm v)) (fun k _ _ => .inl (htask k)) (fun k => by
      cases k <;> exact False.elim)
  simp only [Task.next] at h
  split at h
  · cases h
  · rename_i state hstate
    split_ifs at h
    · cases sw with
      | roundup =>
          cases h
          rintro k (hpaid | ⟨hself, -⟩ | hann)
          · cases k with
            | irq w x y => exact .inl hpaid
            | roundup w =>
                by_cases hw : cpu = w
                · exact .inr (.inr hw)
                · refine .inl fun hround => hpaid ?_
                  dsimp only at hround
                  rwa [Function.update_of_ne (Ne.symm hw)] at hround
          · exact .inr (.inl ⟨hself, by cases k <;> trivial⟩)
          · cases k <;> exact hann.elim
      | resume =>
          cases h
          refine hlooks _ (fun k => by cases k <;> trivial) fun v =>
            calmer_cpuState fun _ hround => ?_
          rw [hround] at hstate
          cases cur <;> cases hstate
    · cases h
      exact hlooks _ (fun k => by cases k <;> trivial) fun v => .refl v m

/-- **A turn.** -/
theorem keepsWake_next {s : GicSys ι} {route : IrqTarget}
    (hconf : s.shared.gic.configuredIrqs ≤ maxIrqNoLpi) (hwary : Wary s (.next t route))
    (h : (s.task t).next t.self route s.shared = some (m', task')) (k : Wake)
    (hk : Paid s.shared k ∨ OwesWake k t (s.task t)) :
    Paid m' k ∨ OwesWake k t task' ∨ OwedByOther s t k := by
  have hkeeps {task : Task} (htask : s.task t = task)
      (hkeeps : KeepsWake s.shared t task m' task') :
      Paid m' k ∨ OwesWake k t task' ∨ OwedByOther s t k :=
    ((htask ▸ hkeeps) k hk).imp_right .inl
  cases htask : s.task t with
  | idle =>
      rw [htask] at h
      cases h
  | assertPi owner id target =>
      simp only [Wary, htask] at hwary
      rw [htask] at h
      cases h
      refine keepsWake_announce (fun k _ => by cases k <;> trivial) (fun k => ?_) hwary k hk
      rw [htask]
      cases k <;> exact False.elim
  | deassertPi owner id =>
      rw [htask] at h
      cases h
      refine hkeeps htask (.of_calmer (fun v => .inl (calmer_setInfo fun hshares hcons => ?_))
        (fun k _ _ => .inl (by cases k <;> trivial)) fun k => by cases k <;> exact False.elim)
      have hpend := pending_of_considers hcons
      rw [setInfo_injectionInfo, if_pos ⟨rfl, hshares⟩] at hpend
      cases hpend
  | read u task =>
      rw [htask] at h
      cases h
      refine hkeeps htask (.of_calmer (fun v => .inl (.refl v _)) (fun k _ hlook => .inl ?_)
        fun k => by cases k <;> exact False.elim)
      split_ifs
      · cases k <;> exact hlook
      · exact hlook.left
  | cas u cur task =>
      rw [htask] at h
      simp only [Task.next] at h
      split at h
      · cases h
      · rename_i desired hdesired
        split_ifs at h with hcur
        · cases h
          have hann (k : Wake) : ¬Announces k (s.task t) := by
            rw [htask]
            cases k <;> exact False.elim
          have hlooks (k : Wake) (hlook : Looks k (s.task t)) : Looks k task := by
            rw [htask] at hlook
            cases k <;> exact hlook
          obtain ⟨sender, target, owner, id, rfl, rfl⟩ | ⟨id, target, rfl, rfl⟩ |
            ⟨htarget, hbits⟩ := Task.desired_cases hdesired
          · exact keepsWake_announce hlooks hann (fun hvalid => by cases hvalid) k hk
          · simp only [Wary, htask] at hwary
            exact keepsWake_announce hlooks hann hwary k hk
          · refine hkeeps htask (.of_calmer (fun v => .inl (calmer_setInfo_lower ?_ fun hp => ?_))
              (fun k _ hlook => .inl (hlook.done _)) fun k => by cases k <;> exact False.elim)
            · rw [hcur]
              exact htarget
            · rw [hcur]
              exact IrqInjectionInfo.pending_of_subset hbits hp
        · cases h
          refine hkeeps htask (.of_calmer (fun v => .inl (.refl v _)) (fun k _ hlook => .inl ?_)
            fun k => by cases k <;> exact False.elim)
          cases k <;> exact hlook
  | notify owner id cpus task =>
      rw [htask] at h
      cases cpus with
      | nil =>
          cases h
          refine hkeeps htask (.of_calmer (fun v => .inl (.refl v _)) (fun k _ hlook => .inl ?_)
            fun k hann => ?_)
          · cases k <;> exact hlook
          · cases k with
            | irq w x y => exact absurd hann.2 List.not_mem_nil
            | roundup w => exact hann.elim
      | cons cpu cpus =>
          cases h
          exact hkeeps htask keepsWake_notify
  | signal owner id cpu cpus task =>
      rw [htask] at h
      cases h
      exact hkeeps htask (keepsWake_signal rfl)
  | readState sw cpu =>
      rw [htask] at h
      cases h
      exact hkeeps htask (.of_calmer (fun v => .inl (.refl v _))
        (fun k _ _ => .inl (by cases k <;> trivial)) fun k => by cases k <;> exact False.elim)
  | casState sw cpu cur => exact hkeeps htask (keepsWake_casState (htask ▸ h))
  | unblock cpu =>
      rw [htask] at h
      cases h
      refine hkeeps htask (.of_calmer (fun v => .inl (calmer_notifyInterruptPending cpu))
        (fun k _ _ => .inl (by cases k <;> trivial)) fun k hann => ?_)
      cases k with
      | irq w x y => exact hann.elim
      | roundup w =>
          obtain rfl : cpu = w := hann
          refine .inr fun _ => ?_
          rw [Signaled, GicD.notifyInterruptPending, modifyBank_bank, if_pos rfl]
          rfl
  | _ =>
      rw [htask] at h
      obtain ⟨v, hself, hv⟩ := Option.bind_eq_some_iff.1 h
      exact hkeeps htask (keepsWake_nextOfVcpu hconf hself hv)

/-! ## The interrupts that exist -/

/-- The interrupts that the thread may announce are below `n`. -/
def Bounded (n : ℕ) : Task → Prop
  | .assertPi _ id _ | .look _ id _ | .judge _ id _ _ | .clrInInjection id _ _ | .checkPending id
  | .setPending id => id < n
  | .read (.assertSgi _ _ _ id) k | .read (.redirectSpi id _) k | .read (.updateInjStatus id _ _) k
  | .cas (.assertSgi _ _ _ id) _ k | .cas (.redirectSpi id _) _ k
  | .cas (.updateInjStatus id _ _) _ k | .notify _ id _ k | .signal _ id _ _ k =>
      id < n ∧ Bounded n k
  | .read _ k | .cas _ _ k => Bounded n k
  | _ => True

/-- Only interrupts that exist have their bits set. -/
def PendingBounded (g : GicD) : Prop :=
  ∀ v x, (g.bank v).pendingIrqs x = true → x < g.configuredIrqs

variable {n : ℕ}

theorem Bounded.left {u : Update} (h : Bounded n (.read u task)) : Bounded n (u.left task) := by
  cases u with
  | updateInjStatus id state inInjection => exact h.1
  | deassertSgi sender owner id | pendingIrq id => exact h
  | _ => exact h.2

theorem Bounded.cas {u : Update} (h : Bounded n (.read u task)) (cur : IrqInjectionInfo) :
    Bounded n (.cas u cur task) := by
  cases u <;> exact h

theorem Bounded.read {u : Update} {cur : IrqInjectionInfo} (h : Bounded n (.cas u cur task)) :
    Bounded n (.read u task) := by
  cases u <;> exact h

theorem Bounded.done {u : Update} {cur : IrqInjectionInfo} (h : Bounded n (.cas u cur task))
    (g : GicD) : Bounded n (u.done g task) := by
  cases u with
  | pendingIrq id => trivial
  | updateInjStatus id state inInjection => exact h.1
  | _ => exact h

theorem bounded_further {g : GicD} {s : Scan} {id : ℕ} {r : Option ℕ} :
    Bounded n (Task.further g s id r) := by
  rw [Task.further]
  split_ifs <;> trivial

theorem bounded_nextOfVcpu {route : IrqTarget} (hpend : PendingBounded m.gic)
    (hbound : Bounded m.gic.configuredIrqs task)
    (h : task.nextOfVcpu v route m = some (m', task')) :
    Bounded m.gic.configuredIrqs task' := by
  cases task with
  | scan s start pos r =>
      simp only [Task.nextOfVcpu] at h
      by_cases hbit : (m.gic.bank v).pendingIrqs pos = true
      · split_ifs at h <;> cases h
        all_goals first
          | exact hpend v pos hbit
          | trivial
      · split_ifs at h <;> cases h <;> trivial
  | look s id r =>
      cases h
      exact hbound
  | judge s id r cur =>
      obtain ⟨rfl, r', rfl | ⟨-, rfl⟩⟩ := Task.eq_of_judge h
      · exact bounded_further
      · exact ⟨hbound, bounded_further⟩
  | found s r =>
      cases s with
      | pendingIrq minPriority =>
          cases r with
          | none =>
              cases h
              trivial
          | some id =>
              simp only [Task.nextOfVcpu] at h
              split_ifs at h <;> cases h <;> trivial
      | waitForInterrupt willTimeout => cases r <;> cases h <;> trivial
  | clrInInjection id state inInjection =>
      cases h
      exact ⟨hbound, trivial⟩
  | checkPending id =>
      cases h
      split_ifs
      · exact hbound
      · trivial
  | block willTimeout =>
      simp only [Task.nextOfVcpu] at h
      split at h
      · cases h
      · cases h
        split_ifs <;> trivial
  | checkInInjection w | checkRoundup w | checkDump w =>
      cases h
      split_ifs <;> trivial
  | setInInjection id | clrPending id | setPending id =>
      cases h
      trivial
  | _ => cases h

/-- **A turn leads to interrupts that exist.** -/
theorem bounded_next {self : Option ℕ} {route : IrqTarget} (hpend : PendingBounded m.gic)
    (hbound : Bounded m.gic.configuredIrqs task)
    (h : task.next self route m = some (m', task')) : Bounded m.gic.configuredIrqs task' := by
  cases task with
  | idle => cases h
  | assertPi owner id target =>
      cases h
      exact ⟨hbound, trivial⟩
  | deassertPi owner id =>
      cases h
      trivial
  | read u task =>
      cases h
      split_ifs
      · exact hbound.cas _
      · exact hbound.left
  | cas u cur task =>
      simp only [Task.next] at h
      split at h
      · cases h
      · split_ifs at h
        · cases h
          exact hbound.done _
        · cases h
          exact hbound.read
  | notify owner id cpus task =>
      cases cpus with
      | nil =>
          cases h
          exact hbound.2
      | cons cpu cpus =>
          cases h
          exact hbound
  | signal owner id cpu cpus task =>
      cases h
      exact hbound
  | readState sw cpu =>
      cases h
      trivial
  | casState sw cpu cur =>
      simp only [Task.next] at h
      split at h
      · cases h
      · split_ifs at h <;> cases h
        · cases sw <;> trivial
        · trivial
  | unblock cpu =>
      cases h
      trivial
  | _ =>
      obtain ⟨v, -, hv⟩ := Option.bind_eq_some_iff.1 h
      exact bounded_nextOfVcpu hpend hbound hv

theorem pendingBounded_next {self : Option ℕ} {route : IrqTarget} (hpend : PendingBounded m.gic)
    (hbound : Bounded m.gic.configuredIrqs task)
    (h : task.next self route m = some (m', task')) : PendingBounded m'.gic := by
  intro v x hset
  rw [(Task.sizes_of_next h).2]
  obtain hset | hmarks := Task.pendingIrqs_of_next h hset
  · exact hpend v x hset
  · cases task with
    | notify owner id cpus task =>
        cases cpus with
        | nil => exact hmarks.elim
        | cons cpu cpus => exact hmarks.2 ▸ hbound.1
    | setPending id => exact hmarks.2 ▸ hbound
    | _ => exact hmarks.elim

/-! ## Runs -/

/-- What holds in every state. -/
structure AwakeInv (s : GicSys ι) : Prop where
  awake : AllAwake s
  bounded : ∀ t, Bounded s.shared.gic.configuredIrqs (s.task t)
  pendingBounded : PendingBounded s.shared.gic
  spiBase_lt : spiBase < s.shared.gic.configuredIrqs
  le_maxIrqNoLpi : s.shared.gic.configuredIrqs ≤ maxIrqNoLpi

theorem awakeInv_start {m : Machine} (hfresh : m.gic.Fresh) (hlt : spiBase < m.gic.configuredIrqs)
    (hle : m.gic.configuredIrqs ≤ maxIrqNoLpi) : AwakeInv (start m : GicSys ι) where
  awake k := by
    refine .inr ⟨.vcpu k.cpu, .inl ⟨rfl, ?_⟩⟩
    cases k <;> trivial
  bounded _ := trivial
  pendingBounded v x hset := by
    rw [start, hfresh.pendingIrqs] at hset
    cases hset
  spiBase_lt := hlt
  le_maxIrqNoLpi := hle

theorem bounded_start {c : Call} {g : GicD} {self : Option ℕ} (hlt : spiBase < g.configuredIrqs)
    (hallowed : c.Allowed g self) : Bounded g.configuredIrqs c.start := by
  cases c with
  | assertPi owner id target => exact hallowed.1
  | assertSgi sender target owner id =>
      have hid : id < maxSgi := hallowed.2.2
      exact ⟨hid.trans (lt_trans (by decide) hlt), trivial⟩
  | redirectSpi id target => exact ⟨hallowed.2, trivial⟩
  | updateInjStatus id state inInjection => exact hallowed.1
  | _ => trivial

theorem looks_start (c : Call) : Looks k c.start := by
  cases c <;> cases k <;> trivial

theorem awake_store {s : GicSys ι} {g : GicD} (hidle : s.task t = .idle)
    (hsame : s.shared.gic.SameAtomics g) (hwary : WakesNone s g) (k : Wake)
    (hk : Paid s.shared k ∨ OwesWake k t (s.task t)) :
    Paid { s.shared with gic := g } k ∨ OwesWake k t .idle ∨ OwedByOther s t k := by
  have hlooks : Looks k .idle := by cases k <;> trivial
  obtain hpaid | ⟨hself, -⟩ | hann := hk
  · by_cases hlook : Looks k (s.task (.vcpu k.cpu))
    · exact .inr ((owed_of_looks t hlook).imp_left fun h => .inl ⟨h.1, hlooks⟩)
    · refine .inl ?_
      cases k with
      | roundup w =>
          intro hstate
          rw [Signaled, hsame.irqSig]
          exact hpaid hstate
      | irq w x id =>
          intro hv hleads hx hid hcons
          rw [Signaled, hsame.irqSig]
          dsimp only at hv hleads hx hid hcons
          rw [hsame.numVcpus] at hv
          rw [hsame.pendingIrqs] at hx hid
          replace hleads := hleads.of_configuredIrqs hsame.configuredIrqs
          by_contra hunsig
          exact hunsig (hpaid hv hleads hx hid (hwary w hv x id hleads hx hid hunsig hlook hcons))
  · exact .inr (.inl (.inl ⟨hself, hlooks⟩))
  · rw [hidle] at hann
    cases k <;> exact hann.elim

/-- **A step keeps what holds in every state.** -/
theorem awakeInv_step [DecidableEq ι] {s s' : GicSys ι} {a : GicAct ι} (h : AwakeInv s)
    (hwary : Wary s a) (hstep : Step s a s') : AwakeInv s' := by
  -- a thread that is idle afterwards, and announced nothing before
  have hquiet {t : Party ι} {m' : Machine} {task' : Task} (hlooks : ∀ k, Looks k task')
      (hann : ∀ k, ¬Announces k (s.task t))
      (hcalm : ∀ v, Calmer v s.shared m' ∨ t.self = some v) : AllAwake (s.goOn t m' task') := by
    refine h.awake.goOn (KeepsWake.of_calmer (fun v => ?_) (fun k _ _ => .inl (hlooks k))
      fun k hk => absurd hk (hann k))
    exact (hcalm v).imp_right fun hself => ⟨hself, fun k _ => hlooks k⟩
  have hbound {t : Party ι} {m' : Machine} {task' : Task}
      (hconf : m'.gic.configuredIrqs = s.shared.gic.configuredIrqs)
      (htask : Bounded s.shared.gic.configuredIrqs task') (u : Party ι) :
      Bounded (s.goOn t m' task').shared.gic.configuredIrqs ((s.goOn t m' task').task u) := by
    rw [Threads.goOn_shared, hconf]
    by_cases hu : u = t
    · rw [hu, Threads.goOn_task_self]
      exact htask
    · rw [Threads.goOn_task_of_ne _ _ _ _ hu]
      exact h.bounded u
  cases a with
  | call t c =>
      obtain ⟨hidle, hallowed, rfl⟩ := hstep
      refine ⟨hquiet (fun k => looks_start c) (fun k => ?_) fun v => .inl (.refl v _),
        hbound rfl (bounded_start h.spiBase_lt hallowed), h.pendingBounded, h.spiBase_lt,
        h.le_maxIrqNoLpi⟩
      rw [hidle]
      cases k <;> exact False.elim
  | next t route =>
      obtain ⟨m', task', hnext, rfl⟩ := hstep
      have hconf := (Task.sizes_of_next hnext).2
      refine ⟨h.awake.goOn_or (keepsWake_next h.le_maxIrqNoLpi hwary hnext),
        hbound hconf (bounded_next h.pendingBounded (h.bounded t) hnext),
        pendingBounded_next h.pendingBounded (h.bounded t) hnext, ?_, ?_⟩
      · rw [Threads.goOn_shared, hconf]
        exact h.spiBase_lt
      · rw [Threads.goOn_shared, hconf]
        exact h.le_maxIrqNoLpi
  | store t g =>
      obtain ⟨hidle, hsame, rfl⟩ := hstep
      refine ⟨h.awake.goOn_or (awake_store hidle hsame hwary), hbound hsame.configuredIrqs trivial,
        fun v x hset => ?_, ?_, ?_⟩
      · rw [Threads.goOn_shared] at hset ⊢
        rw [hsame.pendingIrqs] at hset
        rw [hsame.configuredIrqs]
        exact h.pendingBounded v x hset
      · rw [Threads.goOn_shared, hsame.configuredIrqs]
        exact h.spiBase_lt
      · rw [Threads.goOn_shared, hsame.configuredIrqs]
        exact h.le_maxIrqNoLpi
  | timeout v =>
      obtain ⟨hblock, rfl⟩ := hstep
      refine ⟨hquiet (fun k => by cases k <;> trivial) (fun k => ?_) fun v => .inl (.refl v _),
        hbound rfl trivial, h.pendingBounded, h.spiBase_lt, h.le_maxIrqNoLpi⟩
      rw [hblock]
      cases k <;> exact False.elim
  | switch v state =>
      obtain ⟨hidle, -, rfl⟩ := hstep
      refine ⟨hquiet (fun k => by cases k <;> trivial) (fun k => ?_) fun w => ?_,
        hbound rfl trivial, h.pendingBounded, h.spiBase_lt, h.le_maxIrqNoLpi⟩
      · rw [hidle]
        cases k <;> exact False.elim
      · by_cases hw : w = v
        · exact .inr (congrArg some hw.symm)
        · exact .inl (calmer_cpuState fun heq => absurd heq hw)
  | requestDump v on =>
      obtain rfl := hstep
      refine ⟨fun k => (h.awake k).imp_left fun hpaid => ?_, h.bounded, h.pendingBounded,
        h.spiBase_lt, h.le_maxIrqNoLpi⟩
      cases k <;> exact hpaid

/-- A register write, the assertion of a line or a round-up is in progress. -/
def InProgress : Task → Prop
  | .assertPi _ _ _ | .deassertPi _ _ | .notify _ _ _ _ | .signal _ _ _ _ _ | .readState _ _
  | .casState _ _ _ | .unblock _ => True
  | .read u _ | .cas u _ _ =>
      match u with
      | .assertSgi _ _ _ _ | .deassertSgi _ _ _ | .redirectSpi _ _ => True
      | .pendingIrq _ | .updateInjStatus _ _ _ => False
  | _ => False

theorem not_announces_of_not_inProgress (h : ¬InProgress task) (k : Wake) :
    ¬Announces k task := by
  intro hann
  cases task with
  | notify owner id cpus task => exact h trivial
  | signal owner id cpu cpus task => exact h trivial
  | unblock cpu => exact h trivial
  | _ => cases k <;> exact hann.elim

/-- **No wake-up is lost** in a run in which every step is wary: when no operation is in progress,
and a vCPU blocks in `wait_for_interrupt` without its signal, then `highest_irq` finds no interrupt
for it and it is not rounded up. -/
theorem no_wakeup_lost [DecidableEq ι] {m : Machine} (hfresh : m.gic.Fresh)
    (hlt : spiBase < m.gic.configuredIrqs) (hle : m.gic.configuredIrqs ≤ maxIrqNoLpi)
    {as : List (GicAct ι)} {s : GicSys ι}
    (hrun : Run (fun s a s' => Step s a s' ∧ Wary s a) (start m) as s)
    (hquiet : ∀ t, ¬InProgress (s.task t)) {v : ℕ} (hv : v < s.shared.gic.numVcpus)
    {willTimeout : Bool} (hblock : s.task (.vcpu v) = .block willTimeout)
    (hsig : (s.shared.gic.bank v).irqSig.wait = none) :
    (s.shared.gic.highestIrq v false).1 = none ∧ s.shared.isRoundupPending v = false := by
  have hinv : AwakeInv s := hrun.invariant (fun _ _ _ h hstep => awakeInv_step h hstep.2 hstep.1)
    (awakeInv_start hfresh hlt hle)
  have hunsig : ¬Signaled s.shared v := by
    intro h
    rw [Signaled] at h
    rw [Signal.wait, if_pos h] at hsig
    cases hsig
  have hpaid (k : Wake) (hk : k.cpu = v) : Paid s.shared k := by
    refine hinv.awake.paid_of_not_owes fun t howes => ?_
    obtain ⟨hself, hlook⟩ | hann := howes
    · rw [Party.eq_of_self hself (u := .vcpu v) (congrArg some hk.symm), hblock] at hlook
      cases k <;> exact hlook.elim
    · exact not_announces_of_not_inProgress (hquiet t) k hann
  constructor
  · by_contra hsome
    obtain ⟨id, hid⟩ := Option.ne_none_iff_exists'.1 hsome
    obtain ⟨hmem, hcons⟩ := considers_of_highestIrq hid
    have hlast := hinv.pendingBounded v id (bit_of_mem_scanned hmem)
    obtain ⟨hset, hreach⟩ := (mem_scanned_iff hinv.le_maxIrqNoLpi hlast).1 hmem
    by_cases hmore : id + 1 < s.shared.gic.configuredIrqs
    · exact hunsig (hpaid (.irq v id id) rfl hv (.inl ⟨rfl, hmore⟩) hset hset hcons)
    · obtain ⟨x, hx, hxset⟩ := hreach.resolve_left hmore
      exact hunsig (hpaid (.irq v x id) rfl hv (.inr ⟨hx, by omega⟩) hxset hset hcons)
  · cases hround : s.shared.isRoundupPending v with
    | false => rfl
    | true => exact absurd (hpaid (.roundup v) rfl (beq_iff_eq.1 hround)) hunsig

theorem wary_of_waits {s : GicSys ι} {a : GicAct ι} (ha : Makes t a)
    (h : Task.Waits (s.task t)) : Wary s a := by
  obtain ⟨c, rfl⟩ | ⟨route, rfl⟩ := ha
  · trivial
  · cases htask : s.task t with
    | assertPi owner id target =>
        rw [htask] at h
        exact h.elim
    | cas u cur task =>
        rw [htask] at h
        exact h.elim
    | _ => simp only [Wary, htask]

/-- The points in `assert_pi` with a target. -/
def AssertsPi : Task → Prop
  | .idle => True
  | .assertPi _ _ target => target.isValid = true
  | .notify _ _ _ k => k = .idle
  | .signal _ _ _ _ k => k = .idle
  | _ => False

theorem AssertsPi.next {self : Option ℕ} {route : IrqTarget} {m m' : Machine} {task' : Task}
    (h : AssertsPi task) (hnext : task.next self route m = some (m', task')) : AssertsPi task' := by
  cases task with
  | idle => cases hnext
  | assertPi owner id target =>
      cases hnext
      rfl
  | notify owner id cpus k =>
      obtain rfl : k = .idle := h
      cases cpus <;> cases hnext <;> trivial
  | signal owner id cpu cpus k =>
      cases hnext
      exact h
  | _ => exact h.elim

theorem wary_of_assertsPi {s : GicSys ι} {a : GicAct ι} (ha : Makes t a)
    (h : AssertsPi (s.task t)) : Wary s a := by
  obtain ⟨c, rfl⟩ | ⟨route, rfl⟩ := ha
  · trivial
  · cases htask : s.task t with
    | assertPi owner id target =>
        rw [htask] at h
        simp only [Wary, htask]
        exact fun hinvalid => nomatch h.symm.trans hinvalid
    | cas u cur task =>
        rw [htask] at h
        exact h.elim
    | _ => simp only [Wary, htask]

/-- The distributor with group 0 enabled. -/
def lostCtlr : GicD := ((init .gicV3 2 64).mmioWrite 1 0x0 4 1).2

/-- SPI 32 has been asserted, which is not enabled. -/
def lostAsserted : GicD :=
  let target := lostCtlr.routeSpi (lostCtlr.irqObject 0 32) 0
  ((lostCtlr.setInfo 0 32 (.asserted target)).notifyTarget 32 target).2

/-- vCPU 0 has looked for it and taken its signal. -/
def lostWaited : GicD :=
  lostAsserted.modifyBank 0 ({ · with irqSig := { signaled := false } })

/-- It waits again. -/
def lostSys : GicSys Unit :=
  (((start { gic := init .gicV3 2 64 } : GicSys Unit).goOn (.vcpu 1) { gic := lostCtlr }
    .idle).goOn (.device ()) { gic := lostAsserted } .idle).goOn (.vcpu 0) { gic := lostWaited }
      (.block false)

theorem step_store [DecidableEq ι] {s : GicSys ι} {g : GicD} (hidle : s.task t = .idle)
    (hsame : s.shared.gic.SameAtomics g) :
    Step s (.store t g) (s.goOn t { s.shared with gic := g } .idle) := ⟨hidle, hsame, rfl⟩

/-- vCPU 1 enables group 0. A device asserts SPI 32, which is not enabled. vCPU 0 waits, is
signalled, finds nothing and waits again. -/
theorem run_lostSys : ∃ as : List (GicAct Unit),
    Run (fun s a s' => Step s a s' ∧ Wary s a) (start { gic := init .gicV3 2 64 }) as lostSys := by
  have hctlr := step_store (s := (start { gic := init .gicV3 2 64 } : GicSys Unit))
    (t := .vcpu 1) rfl (sameAtomics_writeCtlr _ 0 4 1 : (init .gicV3 2 64).SameAtomics lostCtlr)
  have hwary : Wary (start { gic := init .gicV3 2 64 } : GicSys Unit)
      (.store (.vcpu 1) lostCtlr) := by
    intro v _ x id _ hset
    exact nomatch hset.symm.trans ((fresh_init .gicV3 2 64).pendingIrqs v x)
  obtain ⟨as, hassert, -⟩ := exists_run_of_call_of (t := .device ()) (P := AssertsPi)
    (s := (start { gic := init .gicV3 2 64 } : GicSys Unit).goOn (.vcpu 1) { gic := lostCtlr }
      .idle)
    (c := .assertPi 0 32 (lostCtlr.routeSpi (lostCtlr.irqObject 0 32) 0))
    rfl ⟨by decide +kernel, fun h => absurd h (by decide)⟩ trivial
    (by decide +kernel : (lostCtlr.routeSpi (lostCtlr.irqObject 0 32) 0).isValid = true)
    AssertsPi.next (Task.alone_assertPi _ 0 32 _)
  obtain ⟨bs, hwait, -⟩ := exists_run_of_call_of (t := .vcpu 0) (P := Task.Waits)
    (s := ((start { gic := init .gicV3 2 64 } : GicSys Unit).goOn (.vcpu 1) { gic := lostCtlr }
      .idle).goOn (.device ()) { gic := lostAsserted } .idle)
    (c := .waitForInterrupt false) rfl ⟨0, by decide +kernel, rfl⟩ trivial trivial Task.Waits.next
    ((Task.alone_waitForInterrupt { gic := lostAsserted } (by decide +kernel) (by decide +kernel)
      false (by decide +kernel) (by decide +kernel) rfl rfl).trans
      (Task.alone_head .invalid rfl (Task.alone_waitForInterrupt { gic := lostWaited }
        (by decide +kernel) (by decide +kernel) false (by decide +kernel) (by decide +kernel) rfl
        rfl)))
  exact ⟨_, (Run.cons ⟨hctlr, hwary⟩
    (hassert.mono fun _ _ _ h => ⟨h.1, wary_of_assertsPi h.2.1 h.2.2⟩)).append
    (hwait.mono fun _ _ _ h => ⟨h.1, wary_of_waits h.2.1 h.2.2⟩)⟩

theorem forall_goOn_not_inProgress [DecidableEq ι] {s : GicSys ι}
    (h : ∀ u, ¬InProgress (s.task u)) (t : Party ι) (m : Machine) {task : Task}
    (htask : ¬InProgress task) (u : Party ι) : ¬InProgress ((s.goOn t m task).task u) :=
  Threads.forall_goOn (P := fun _ task => ¬InProgress task) h htask u

theorem not_inProgress_lostSys (t : Party Unit) : ¬InProgress (lostSys.task t) :=
  forall_goOn_not_inProgress (forall_goOn_not_inProgress (forall_goOn_not_inProgress
    (fun _ => id) _ _ id) _ _ id) _ _ id t

/-- SPI 32 is pending on vCPU 0, which waits without its signal, and nobody has enabled it. -/
theorem no_wakeup_lost_alone : ∃ (as : List (GicAct Unit)) (s : GicSys Unit),
    Run (fun s a s' => Step s a s' ∧ Wary s a) (start { gic := init .gicV3 2 64 }) as s ∧
      s.task (.vcpu 0) = .block false ∧ (s.shared.gic.bank 0).pendingIrqs 32 = true ∧
      (s.shared.gic.highestIrq 0 false).1 = none ∧ s.shared.isRoundupPending 0 = false := by
  obtain ⟨as, hrun⟩ := run_lostSys
  refine ⟨as, lostSys, hrun, Threads.goOn_task_self .., by decide +kernel, ?_⟩
  exact no_wakeup_lost (m := { gic := init .gicV3 2 64 }) (fresh_init ..) (by decide +kernel)
    (by decide +kernel) hrun not_inProgress_lostSys (by decide +kernel)
    (Threads.goOn_task_self ..) (by decide +kernel)

/-! ## A wake-up that is lost -/

/-- vCPU 1 has enabled it. -/
def lostEnabled : GicD := (lostWaited.mmioWrite 1 0x104 4 1).2

/-- vCPU 1 enables the interrupt that vCPU 0 has looked for, and nobody signals vCPU 0. -/
theorem wakeup_lost : ∃ (as : List (GicAct Unit)) (s : GicSys Unit),
    Run Step (start { gic := init .gicV3 2 64 }) as s ∧ (∀ t, ¬InProgress (s.task t)) ∧
      s.task (.vcpu 0) = .block false ∧ (s.shared.gic.bank 0).irqSig.wait = none ∧
        (s.shared.gic.highestIrq 0 false).1 = some 32 := by
  have henable := step_store (s := lostSys) (t := .vcpu 1) rfl
    (lostWaited.sameAtomics_mmioWrite_isenabler 1 1 : lostWaited.SameAtomics lostEnabled)
  obtain ⟨as, hrun⟩ := run_lostSys
  exact ⟨_, _, (hrun.mono fun _ _ _ h => h.1).append (.snoc .nil henable),
    forall_goOn_not_inProgress not_inProgress_lostSys _ _ id, rfl, by decide +kernel,
    by decide +kernel⟩

end GicSys

end Vml
