import Vml.GicScan
import Vml.GicThreads

/-!
# What a turn stores

A turn of a thread makes one access to what the threads share, so most turns only read, and the
others change one thing (`Access`). This says who can change what.

**Bits.** A bit in `pending_irqs` is set by those who announce an interrupt, and by the vCPU itself
(`Marks`). A bit in `in_injection_irqs` is cleared by the vCPU itself.

**Injection infos.** They change where they are stored, or compared and swapped (`Writes`).

Main results: `access_of_next`, `pendingIrqs_of_next`, `inInjectionIrqs_of_next`,
`injectionInfo_of_next`.
-/

namespace Vml

namespace Machine

/-- Apply a function to the GIC. -/
def mapGic (m : Machine) (f : GicD → GicD) : Machine := { m with gic := f m.gic }

end Machine

namespace GicD

theorem irqSig_field {α : Type} (g : GicD) (cpu : ℕ) (f : Banked → Signal) (p : Banked → α)
    (hp : ∀ (b : Banked) (irqSig : Signal), p { b with irqSig } = p b) (c : ℕ) :
    p ((g.modifyBank cpu fun b => { b with irqSig := f b }).bank c) = p (g.bank c) :=
  g.modifyBank_field cpu _ p (fun b => hp b _) c

end GicD

namespace Task

open GicD

/-- The turn sets the bit of the interrupt `id` in `pending_irqs` of the vCPU `cpu`. -/
def Marks (self : Option ℕ) (cpu id : ℕ) : Task → Prop
  | .notify _ x (c :: _) _ => c = cpu ∧ x = id
  | .setPending x => self = some cpu ∧ x = id
  | _ => False

/-- The turn may make the injection info of the interrupt `id` in the bank of `owner` to `info`. -/
def Writes (self : Option ℕ) (m : Machine) (owner id : ℕ) (info : IrqInjectionInfo) : Task → Prop
  | .assertPi o x target => o = owner ∧ x = id ∧ info = .asserted target
  | .deassertPi o x => o = owner ∧ x = id ∧ info = {}
  | .cas u cur _ => u.owner self = owner ∧ u.id = id ∧ u.desired self cur = some info ∧
      (m.gic.irqObject owner id).injectionInfo = cur
  | _ => False

/-- What a turn makes of the machine. -/
inductive Access (self : Option ℕ) (m : Machine) : Task → Machine → Prop
  | read {task : Task} : Access self m task m
  | setInfo {task : Task} {owner id : ℕ} {info : IrqInjectionInfo} :
      task.Writes self m owner id info → Access self m task (m.setInfo owner id info)
  | setPendingIrq {task : Task} {cpu id : ℕ} :
      task.Marks self cpu id → Access self m task (m.mapGic (·.setPendingIrq cpu id))
  | clrPendingIrq {v id : ℕ} : self = some v →
      Access self m (.clrPending id) (m.mapGic (·.clrPendingIrq v id))
  | setInInjection {v id : ℕ} : self = some v →
      Access self m (.setInInjection id) (m.mapGic (·.setInInjection v id))
  | clrInInjection {v id : ℕ} {state : IrqState} {inInjection : Bool} {g : GicD} {active : Bool} :
      self = some v → g = m.gic ∨ g = m.gic.clrInInjection v id →
      Access self m (.clrInInjection id state inInjection)
        { m with gic := g.modifyIrq v id ({ · with active }) }
  | notifyInterruptPending {task : Task} {cpu : ℕ} :
      Access self m task (m.mapGic (·.notifyInterruptPending cpu))
  | wait {v : ℕ} {willTimeout : Bool} {irqSig : Signal} : self = some v →
      (m.gic.bank v).irqSig.wait = some irqSig →
      Access self m (.block willTimeout) (m.mapGic (·.modifyBank v ({ · with irqSig })))
  | cpuState {sw : Switch} {cpu : ℕ} {cur state : CpuState} :
      Access self m (.casState sw cpu cur)
        { m with cpuState := Function.update m.cpuState cpu state }

variable {self : Option ℕ} {route : IrqTarget} {m m' : Machine} {task task' : Task}

/-- Where the test of `highest_irq` leads: behind the interrupt, though an SPI may be re-routed on
the way. -/
theorem eq_of_judge {v : ℕ} {s : Scan} {id : ℕ} {r : Option ℕ} {cur : IrqInjectionInfo}
    (h : (Task.judge s id r cur).nextOfVcpu v route m = some (m', task')) :
    m' = m ∧ ∃ r', task' = further m.gic s id r' ∨
      spiBase ≤ id ∧ task' = .read (.redirectSpi id route) (further m.gic s id r') := by
  cases s with
  | pendingIrq minPriority =>
      simp only [nextOfVcpu] at h
      by_cases hid : spiBase ≤ id
      · split_ifs at h <;> cases h
        all_goals first
          | exact ⟨rfl, _, .inl rfl⟩
          | exact ⟨rfl, _, .inr ⟨hid, rfl⟩⟩
      · simp only [hid, decide_false, Bool.and_false, Bool.false_and, Bool.false_eq_true,
          if_false] at h
        cases h
        exact ⟨rfl, _, .inl rfl⟩
  | waitForInterrupt willTimeout =>
      cases h
      exact ⟨rfl, _, .inl rfl⟩

theorem access_of_nextOfVcpu {v : ℕ} (hself : self = some v)
    (h : task.nextOfVcpu v route m = some (m', task')) : Access self m task m' := by
  cases task with
  | scan s start pos r =>
      simp only [nextOfVcpu] at h
      split_ifs at h <;> cases h <;> exact .read
  | look s id r =>
      cases h
      exact .read
  | judge s id r cur =>
      obtain ⟨rfl, -⟩ := eq_of_judge h
      exact .read
  | found s r =>
      cases s with
      | pendingIrq minPriority =>
          cases r with
          | none =>
              cases h
              exact .read
          | some id =>
              simp only [nextOfVcpu] at h
              split_ifs at h <;> cases h <;> exact .read
      | waitForInterrupt willTimeout => cases r <;> cases h <;> exact .read
  | setInInjection id =>
      cases h
      exact .setInInjection hself
  | clrPending id =>
      cases h
      exact .clrPendingIrq hself
  | clrInInjection id state inInjection =>
      cases h
      refine .clrInInjection hself ?_
      split_ifs
      · exact .inl rfl
      · exact .inr rfl
  | setPending id =>
      cases h
      exact .setPendingIrq ⟨hself, rfl⟩
  | block willTimeout =>
      simp only [nextOfVcpu] at h
      split at h
      · cases h
      · rename_i irqSig hwait
        cases h
        exact .wait hself hwait
  | checkPending id | checkInInjection w | checkRoundup w | checkDump w =>
      cases h
      exact .read
  | _ => cases h

/-- **A turn makes one access.** -/
theorem access_of_next (h : task.next self route m = some (m', task')) : Access self m task m' := by
  cases task with
  | idle => cases h
  | assertPi owner id target =>
      cases h
      exact .setInfo ⟨rfl, rfl, rfl⟩
  | deassertPi owner id =>
      cases h
      exact .setInfo ⟨rfl, rfl, rfl⟩
  | read u k =>
      cases h
      exact .read
  | cas u cur k =>
      simp only [next] at h
      split at h
      · cases h
      · rename_i desired hdesired
        split_ifs at h with hcur
        · cases h
          exact .setInfo ⟨rfl, rfl, hdesired, hcur⟩
        · cases h
          exact .read
  | notify owner id cpus k =>
      cases cpus with
      | nil =>
          cases h
          exact .read
      | cons cpu cpus =>
          cases h
          exact .setPendingIrq ⟨rfl, rfl⟩
  | signal owner id cpu cpus k =>
      cases h
      split_ifs
      · exact .notifyInterruptPending
      · exact .read
  | readState sw cpu =>
      cases h
      exact .read
  | casState sw cpu cur =>
      simp only [next] at h
      split at h
      · cases h
      · split_ifs at h
        · cases h
          exact .cpuState
        · cases h
          exact .read
  | unblock cpu =>
      cases h
      exact .notifyInterruptPending
  | _ =>
      obtain ⟨v, hself, hv⟩ := Option.bind_eq_some_iff.1 h
      exact access_of_nextOfVcpu hself hv

/-! ## What stays -/

theorem sizes_of_next (h : task.next self route m = some (m', task')) :
    m'.gic.numVcpus = m.gic.numVcpus ∧ m'.gic.configuredIrqs = m.gic.configuredIrqs := by
  cases access_of_next h with
  | setInfo => exact ⟨modifyIrq_numVcpus .., modifyIrq_configuredIrqs ..⟩
  | clrInInjection hself hg =>
      dsimp only
      rw [modifyIrq_numVcpus, modifyIrq_configuredIrqs]
      obtain rfl | rfl := hg <;> exact ⟨rfl, rfl⟩
  | _ => exact ⟨rfl, rfl⟩

/-! ## The bits -/

/-- **Who sets a bit in `pending_irqs`.** -/
theorem pendingIrqs_of_next (h : task.next self route m = some (m', task')) {c x : ℕ}
    (hset : (m'.gic.bank c).pendingIrqs x = true) :
    (m.gic.bank c).pendingIrqs x = true ∨ task.Marks self c x := by
  cases access_of_next h with
  | read => exact .inl hset
  | setInfo =>
      rw [Machine.setInfo, setInfo_field _ _ _ _ Banked.pendingIrqs fun _ _ => rfl] at hset
      exact .inl hset
  | @setPendingIrq _ cpu id hmarks =>
      rw [Machine.mapGic, setPendingIrq_pendingIrqs] at hset
      split_ifs at hset with hcx
      · exact .inr (hcx.1 ▸ hcx.2 ▸ hmarks)
      · exact .inl hset
  | clrPendingIrq hself =>
      rw [Machine.mapGic, clrPendingIrq_pendingIrqs] at hset
      split_ifs at hset
      exact .inl hset
  | setInInjection hself =>
      rw [Machine.mapGic, setInInjection_field _ _ _ Banked.pendingIrqs fun _ _ => rfl] at hset
      exact .inl hset
  | @clrInInjection v id state inInjection g active hself hg =>
      rw [modifyIrq_field _ _ _ _ Banked.pendingIrqs fun _ _ => rfl] at hset
      obtain rfl | rfl := hg
      · exact .inl hset
      · rw [clrInInjection_field _ _ _ Banked.pendingIrqs fun _ _ => rfl] at hset
        exact .inl hset
  | notifyInterruptPending =>
      rw [Machine.mapGic, GicD.notifyInterruptPending,
        irqSig_field _ _ _ Banked.pendingIrqs fun _ _ => rfl] at hset
      exact .inl hset
  | wait hself hwait =>
      rw [Machine.mapGic, irqSig_field _ _ _ Banked.pendingIrqs fun _ _ => rfl] at hset
      exact .inl hset
  | cpuState => exact .inl hset

/-- **Who clears a bit in `in_injection_irqs`.** -/
theorem inInjectionIrqs_of_next (h : task.next self route m = some (m', task')) {c x : ℕ}
    (hset : (m.gic.bank c).inInjectionIrqs x = true) :
    (m'.gic.bank c).inInjectionIrqs x = true ∨ self = some c ∧
      ∃ state inInjection, task = .clrInInjection x state inInjection := by
  cases access_of_next h with
  | read => exact .inl hset
  | setInfo =>
      rw [Machine.setInfo, setInfo_field _ _ _ _ Banked.inInjectionIrqs fun _ _ => rfl]
      exact .inl hset
  | setPendingIrq hmarks =>
      rw [Machine.mapGic, setPendingIrq_field _ _ _ Banked.inInjectionIrqs fun _ _ => rfl]
      exact .inl hset
  | clrPendingIrq hself =>
      rw [Machine.mapGic, clrPendingIrq_field _ _ _ Banked.inInjectionIrqs fun _ _ => rfl]
      exact .inl hset
  | setInInjection hself =>
      rw [Machine.mapGic, setInInjection_inInjectionIrqs, hset, ite_self]
      exact .inl rfl
  | @clrInInjection v id state inInjection g active hself hg =>
      rw [modifyIrq_field _ _ _ _ Banked.inInjectionIrqs fun _ _ => rfl]
      obtain rfl | rfl := hg
      · exact .inl hset
      · rw [clrInInjection_inInjectionIrqs]
        split_ifs with hcx
        · obtain ⟨rfl, rfl⟩ := hcx
          exact .inr ⟨hself, state, inInjection, rfl⟩
        · exact .inl hset
  | notifyInterruptPending =>
      rw [Machine.mapGic, GicD.notifyInterruptPending,
        irqSig_field _ _ _ Banked.inInjectionIrqs fun _ _ => rfl]
      exact .inl hset
  | wait hself hwait =>
      rw [Machine.mapGic, irqSig_field _ _ _ Banked.inInjectionIrqs fun _ _ => rfl]
      exact .inl hset
  | cpuState => exact .inl hset

/-! ## The injection infos -/

/-- What a comparison and swap makes of an injection info: it is asserted, or it keeps its target
and is no more pending than before. -/
theorem desired_cases {u : Update} {cur desired : IrqInjectionInfo}
    (h : u.desired self cur = some desired) :
    (∃ sender target owner id, u = .assertSgi sender target owner id ∧
        desired = cur.sentBy sender target) ∨
      (∃ id target, u = .redirectSpi id target ∧ desired = .asserted target) ∨
      desired.target = cur.target ∧ desired.pendingBits ⊆ cur.pendingBits := by
  cases u with
  | assertSgi sender target owner id =>
      cases h
      exact .inl ⟨sender, target, owner, id, rfl, rfl⟩
  | deassertSgi sender owner id =>
      cases h
      exact .inr (.inr ⟨rfl, Finset.erase_subset ..⟩)
  | redirectSpi id target =>
      simp only [Update.desired, IrqInjectionInfo.redirected] at h
      split_ifs at h
      exact .inr (.inl ⟨id, target, rfl, (Option.some.inj h).symm⟩)
  | pendingIrq id =>
      obtain ⟨v, -, hinjected⟩ := Option.bind_eq_some_iff.1 h
      rw [IrqInjectionInfo.injected] at hinjected
      split_ifs at hinjected
      exact .inr (.inr (Option.some.inj hinjected ▸ ⟨rfl, Finset.Subset.refl _⟩))
  | updateInjStatus id state inInjection =>
      obtain ⟨v, -, hupdated⟩ := Option.bind_eq_some_iff.1 h
      have hlowers := IrqInjectionInfo.lowers_updated hupdated
      exact .inr (.inr ⟨hlowers.target, hlowers.pendingBits⟩)

/-- **Who changes an injection info.** -/
theorem injectionInfo_of_next (h : task.next self route m = some (m', task')) (c x : ℕ) :
    (m'.gic.irqObject c x).injectionInfo = (m.gic.irqObject c x).injectionInfo ∨
      ∃ owner info, task.Writes self m owner x info ∧ Shares x c owner ∧
        (m'.gic.irqObject c x).injectionInfo = info := by
  cases access_of_next h with
  | read => exact .inl rfl
  | @setInfo _ owner id info hwrites =>
      rw [Machine.setInfo, setInfo_injectionInfo]
      split_ifs with hobj
      · obtain ⟨rfl, hshares⟩ := hobj
        exact .inr ⟨owner, info, hwrites, hshares, rfl⟩
      · exact .inl rfl
  | setPendingIrq hmarks => exact .inl (by rw [Machine.mapGic, setPendingIrq_irqObject])
  | clrPendingIrq hself => exact .inl (by rw [Machine.mapGic, clrPendingIrq_irqObject])
  | setInInjection hself => exact .inl (by rw [Machine.mapGic, setInInjection_irqObject])
  | @clrInInjection v id state inInjection g active hself hg =>
      refine .inl ?_
      rw [modifyIrq_irqObject]
      obtain rfl | rfl := hg
      · split_ifs <;> rfl
      · rw [clrInInjection_irqObject]
        split_ifs <;> rfl
  | @notifyInterruptPending _ cpu =>
      refine .inl ?_
      rw [Machine.mapGic, (announced_notifyInterruptPending m.gic 0 cpu).irqObject]
  | @wait v willTimeout irqSig =>
      refine .inl (congrArg _ ?_)
      exact m.gic.modifyBank_irqObject v ({ · with irqSig }) (fun _ => rfl) c x
  | cpuState => exact .inl rfl

end Task

end Vml
