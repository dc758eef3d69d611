import Vml.GicRun
import Vml.GicTurns

/-!
# A pending interrupt stays visible

An interrupt that is pending in its injection info is found by a vCPU only if its bit is set in
`pending_irqs` of that vCPU. The info and the bits are separate: an assertion stores the info and
then sets the bits, an injection swaps the info, sets the bit in `in_injection_irqs` and then clears
the one in `pending_irqs`, and a completion clears the former, swaps the info and then looks whether
it has to set the latter.

**Debts.** In every run, for every vCPU that a pending interrupt targets, one of its two bits is
set, or a thread has yet to set it: the thread that asserts it has the vCPU among those it has yet
to notify, or the vCPU itself is about to look whether the interrupt is pending.

**Injection.** Where a vCPU clears the bit in `pending_irqs`, it has set the one in
`in_injection_irqs`, and nobody else clears that (`Guarded`).

Main result: `pending_visible`.
-/

namespace Vml

/-! ## Claims -/

namespace GicD

/-- If the interrupt that `v` sees as `id` is pending for `v`, one of its bits is set. -/
def Visible (g : GicD) (v id : ℕ) : Prop :=
  v < g.numVcpus → (g.irqObject v id).injectionInfo.pending = true →
    (g.irqObject v id).injectionInfo.target.isValid = true →
    (g.irqObject v id).injectionInfo.isTargetingCpu v = true →
    (g.bank v).pendingIrqs id = true ∨ (g.bank v).inInjectionIrqs id = true

/-- An interrupt that is no more pending than before, and has the bits it had, stays visible. -/
theorem Visible.mono {g g' : GicD} {v id : ℕ} (h : g.Visible v id)
    (hnum : g'.numVcpus = g.numVcpus)
    (hbits : (g.bank v).pendingIrqs id = true ∨ (g.bank v).inInjectionIrqs id = true →
      (g'.bank v).pendingIrqs id = true ∨ (g'.bank v).inInjectionIrqs id = true)
    (htarget : (g'.irqObject v id).injectionInfo.target = (g.irqObject v id).injectionInfo.target)
    (hpend : (g'.irqObject v id).injectionInfo.pending = true →
      (g.irqObject v id).injectionInfo.pending = true) : g'.Visible v id := by
  intro hv hp hvalid hcpu
  rw [IrqInjectionInfo.isTargetingCpu, htarget] at hcpu
  rw [htarget] at hvalid
  exact hbits (h (hnum ▸ hv) (hpend hp) hvalid hcpu)

end GicD

/-- An SGI is sent to the vCPU whose bank it is in, and an interrupt that is re-routed is not
private. -/
def Update.Own : Update → Prop
  | .assertSgi _ target owner _ => target = owner
  | .redirectSpi id _ => spiBase ≤ id
  | _ => True

namespace GicSys

open GicD

variable {ι : Type*}

/-- The thread is about to set a bit for the claim `(v, id)`: it has `v` to notify, or is `v` and
about to look whether the interrupt is pending. -/
def Owes (c : ℕ × ℕ) (t : Party ι) : Task → Prop
  | .notify owner id cpus _ | .signal owner id _ cpus _ =>
      id = c.2 ∧ Shares id c.1 owner ∧ c.1 ∈ cpus
  | .read (.updateInjStatus id _ _) _ | .cas (.updateInjStatus id _ _) _ _ | .checkPending id
  | .setPending id => t.self = some c.1 ∧ id = c.2
  | _ => False

/-- What a thread relies on: an interrupt that is private is asserted for the vCPU whose bank it is
in, an interrupt that is re-routed is not private, and a vCPU that is about to clear a bit in
`pending_irqs` has the interrupt in injection. -/
def Guarded (m : Machine) (t : Party ι) : Task → Prop
  | .assertPi owner id target => id < spiBase → target = .ofCpuId owner
  | .read u k | .cas u _ k => u.Own ∧ Guarded m t k
  | .notify _ _ _ k | .signal _ _ _ _ k => Guarded m t k
  | .clrPending id => ∀ v, t.self = some v → (m.gic.bank v).inInjectionIrqs id = true
  | _ => True

/-- Every claim is paid or owed. -/
abbrev AllVisible (s : GicSys ι) : Prop :=
  s.Settled (fun c (m : Machine) => m.gic.Visible c.1 c.2) Owes

/-- What a turn has to do for the claims: those that were paid, or owed by its thread, are so
afterwards. -/
def Keeps (m : Machine) (t : Party ι) (task : Task) (m' : Machine) (task' : Task) : Prop :=
  ∀ c, m.gic.Visible c.1 c.2 ∨ Owes c t task → m'.gic.Visible c.1 c.2 ∨ Owes c t task'

variable {t : Party ι} {m m' : Machine} {task task' : Task}

theorem Keeps.of_eq (hgic : m'.gic = m.gic) (howes : ∀ c, ¬Owes c t task) :
    Keeps m t task m' task' := by
  intro c hc
  rw [hgic]
  exact .inl (hc.resolve_right (howes c))

/-- An injection info that is stored where the claim is not about it, or where it is no more pending
than before. -/
theorem visible_setInfo {g : GicD} {v id : ℕ} (h : g.Visible v id) {cpu x : ℕ}
    {info : IrqInjectionInfo}
    (hinfo : id = x ∧ Shares x v cpu → (g.irqObject v id).injectionInfo.target = info.target ∧
      (info.pending = true → (g.irqObject v id).injectionInfo.pending = true)) :
    (g.setInfo cpu x info).Visible v id := by
  have hpend := g.setInfo_field cpu x info Banked.pendingIrqs (fun _ _ => rfl) v
  have hinj := g.setInfo_field cpu x info Banked.inInjectionIrqs (fun _ _ => rfl) v
  refine h.mono (g.setInfo_numVcpus ..) (by rw [hpend, hinj]; exact fun hb => hb) ?_ ?_
  · rw [setInfo_injectionInfo]
    split_ifs with hobj
    · exact (hinfo hobj).1.symm
    · rfl
  · rw [setInfo_injectionInfo]
    split_ifs with hobj
    · exact (hinfo hobj).2
    · exact fun hp => hp

theorem Keeps.announce (howes : ∀ c, ¬Owes c t task) (owner id : ℕ) (info : IrqInjectionInfo)
    (k : Task) : Keeps m t task (m.setInfo owner id info)
      (.notify owner id (m.gic.notified info.target) k) := by
  rintro ⟨v, x⟩ hc
  have hold := hc.resolve_right (howes (v, x))
  by_cases hobj : x = id ∧ Shares id v owner
  · by_cases hmem : v ∈ m.gic.notified info.target
    · exact .inr ⟨hobj.1.symm, hobj.1 ▸ hobj.2, hmem⟩
    · refine .inl fun hv _ hvalid hcpu => absurd (mem_notified ?_ ?_ ?_) hmem
      · exact (m.gic.setInfo_numVcpus ..) ▸ hv
      · rwa [Machine.setInfo, setInfo_injectionInfo, if_pos hobj] at hvalid
      · rwa [Machine.setInfo, setInfo_injectionInfo, if_pos hobj] at hcpu
  · exact .inl (visible_setInfo hold fun h => absurd h hobj)

theorem Keeps.lower (owner id : ℕ) {info : IrqInjectionInfo}
    (htarget : info.target = (m.gic.irqObject owner id).injectionInfo.target)
    (hpend : info.pending = true → (m.gic.irqObject owner id).injectionInfo.pending = true)
    (howes : ∀ c, Owes c t task → Owes c t task') :
    Keeps m t task (m.setInfo owner id info) task' := by
  rintro ⟨v, x⟩ hc
  refine hc.imp (fun h => visible_setInfo h ?_) (howes _)
  rintro ⟨rfl, hshares⟩
  rw [irqObject_eq_of_shares hshares]
  exact ⟨htarget.symm, hpend⟩

/-- A turn that touches the bits of one vCPU for one interrupt. -/
theorem Keeps.bits (hnum : m'.gic.numVcpus = m.gic.numVcpus)
    (hinfo : ∀ c x, (m'.gic.irqObject c x).injectionInfo = (m.gic.irqObject c x).injectionInfo)
    (hbits : ∀ c x, Owes (c, x) t task ∨ (m.gic.bank c).pendingIrqs x = true ∨
        (m.gic.bank c).inInjectionIrqs x = true →
      Owes (c, x) t task' ∨ (m'.gic.bank c).pendingIrqs x = true ∨
        (m'.gic.bank c).inInjectionIrqs x = true) :
    Keeps m t task m' task' := by
  rintro ⟨c, x⟩ hc
  by_cases howes : Owes (c, x) t task'
  · exact .inr howes
  · refine .inl fun hv hp hvalid hcpu => (hbits c x ?_).resolve_left howes
    rw [hinfo] at hp hvalid hcpu
    exact hc.symm.imp_right fun h => h (hnum ▸ hv) hp hvalid hcpu

/-- **A turn of a vCPU.** -/
theorem keeps_nextOfVcpu {v : ℕ} {route : IrqTarget} (hself : t.self = some v)
    (hguard : Guarded m t task) (h : task.nextOfVcpu v route m = some (m', task')) :
    Keeps m t task m' task' := by
  have hkept (howes : ∀ c, ¬Owes c t task) (hm : m' = m) : Keeps m t task m' task' :=
    .of_eq (by rw [hm]) howes
  cases task with
  | scan s start pos r =>
      simp only [Task.nextOfVcpu] at h
      split_ifs at h <;> cases h <;> exact hkept (fun _ => False.elim) rfl
  | look s id r =>
      cases h
      exact hkept (fun _ => False.elim) rfl
  | judge s id r cur =>
      exact hkept (fun _ => False.elim) (Task.eq_of_judge h).1
  | found s r =>
      cases s with
      | pendingIrq minPriority =>
          cases r with
          | none =>
              cases h
              exact hkept (fun _ => False.elim) rfl
          | some id =>
              simp only [Task.nextOfVcpu] at h
              split_ifs at h <;> cases h <;> exact hkept (fun _ => False.elim) rfl
      | waitForInterrupt willTimeout =>
          cases r <;> cases h <;> exact hkept (fun _ => False.elim) rfl
  | setInInjection id =>
      cases h
      refine .bits rfl (fun c x => by rw [setInInjection_irqObject]) fun c x hc => .inr ?_
      rw [setInInjection_inInjectionIrqs,
        setInInjection_field _ v id Banked.pendingIrqs fun _ _ => rfl]
      refine (hc.resolve_left False.elim).imp_right fun hset => ?_
      split_ifs
      · rfl
      · exact hset
  | clrPending id =>
      cases h
      refine .bits rfl (fun c x => by rw [clrPendingIrq_irqObject]) fun c x hc => .inr ?_
      rw [clrPendingIrq_pendingIrqs,
        clrPendingIrq_field _ v id Banked.inInjectionIrqs fun _ _ => rfl]
      split_ifs with hcx
      · rw [hcx.1, hcx.2]
        exact .inr (hguard v hself)
      · exact hc.resolve_left False.elim
  | clrInInjection id state inInjection =>
      cases h
      obtain ⟨g, hg⟩ : ∃ g, g = if inInjection then m.gic else m.gic.clrInInjection v id := ⟨_, rfl⟩
      have hclr : g.numVcpus = m.gic.numVcpus ∧ (∀ c x, g.irqObject c x = m.gic.irqObject c x) ∧
          (∀ c, (g.bank c).pendingIrqs = (m.gic.bank c).pendingIrqs) ∧
          ∀ c x, ¬(c = v ∧ x = id) →
            (g.bank c).inInjectionIrqs x = (m.gic.bank c).inInjectionIrqs x := by
        rw [hg]
        split_ifs
        · exact ⟨rfl, fun _ _ => rfl, fun _ => rfl, fun _ _ _ => rfl⟩
        · refine ⟨rfl, clrInInjection_irqObject _ v id,
            clrInInjection_field _ v id Banked.pendingIrqs fun _ _ => rfl, fun c x hcx => ?_⟩
          rw [clrInInjection_inInjectionIrqs, if_neg hcx]
      rw [← hg]
      obtain ⟨hnum, hobj, hpend, hinj⟩ := hclr
      refine .bits ((modifyIrq_numVcpus ..).trans hnum) (fun c x => ?_) fun c x hc => ?_
      · rw [modifyIrq_irqObject, hobj]
        split_ifs <;> rfl
      · rw [modifyIrq_field _ v id _ Banked.pendingIrqs fun _ _ => rfl,
          modifyIrq_field _ v id _ Banked.inInjectionIrqs fun _ _ => rfl, hpend]
        -- the bit of the claim may go, but then the vCPU is about to look
        by_cases hcx : c = v ∧ x = id
        · exact .inl ⟨hcx.1 ▸ hself, hcx.2.symm⟩
        · rw [hinj c x hcx]
          exact .inr (hc.resolve_left False.elim)
  | checkPending id =>
      cases h
      rintro ⟨c, x⟩ hc
      cases hpend : (m.gic.irqObject v id).pending with
      | true => exact hc.imp_right fun howes => howes
      | false =>
          refine .inl (hc.elim (fun h => h) fun howes => ?_)
          obtain ⟨hcv, rfl⟩ := howes
          cases hself.symm.trans hcv
          intro _ hp
          rw [Irq.pending, hp, Bool.or_true] at hpend
          cases hpend
  | setPending id =>
      cases h
      refine .bits rfl (fun c x => by rw [setPendingIrq_irqObject]) fun c x hc => .inr ?_
      rw [setPendingIrq_pendingIrqs,
        setPendingIrq_field _ v id Banked.inInjectionIrqs fun _ _ => rfl]
      split_ifs with hcx
      · exact .inl rfl
      · refine hc.resolve_left fun howes => hcx ?_
        exact ⟨Option.some.inj (howes.1.symm.trans hself), howes.2.symm⟩
  | checkInInjection w =>
      cases h
      exact hkept (fun _ => False.elim) rfl
  | checkRoundup w =>
      cases h
      exact hkept (fun _ => False.elim) rfl
  | checkDump w =>
      cases h
      exact hkept (fun _ => False.elim) rfl
  | block w =>
      simp only [Task.nextOfVcpu] at h
      split at h
      · cases h
      · rename_i irqSig _
        cases h
        have hobj := m.gic.modifyBank_irqObject v ({ · with irqSig }) fun _ => rfl
        refine .bits rfl (fun c x => congrArg _ (hobj c x)) fun c x hc => .inr ?_
        have hpend := m.gic.modifyBank_field v ({ · with irqSig }) Banked.pendingIrqs
          (fun _ => rfl) c
        have hinj := m.gic.modifyBank_field v ({ · with irqSig }) Banked.inInjectionIrqs
          (fun _ => rfl) c
        dsimp only
        rw [hpend, hinj]
        exact hc.resolve_left False.elim
  | _ => cases h

theorem Keeps.signal {cpu : ℕ} (hgic : m'.gic = m.gic.notifyInterruptPending cpu)
    (howes : ∀ c, Owes c t task → Owes c t task') : Keeps m t task m' task' := by
  have hann := announced_notifyInterruptPending m.gic 0 cpu
  rw [← hgic] at hann
  refine .bits hann.numVcpus (fun c x => by rw [hann.irqObject]) fun c x hc => ?_
  have hpend := m.gic.modifyBank_field cpu (fun b => { b with irqSig := b.irqSig.sig })
    Banked.pendingIrqs (fun _ => rfl) c
  rw [hann.inInjectionIrqs, hgic, notifyInterruptPending, hpend]
  exact hc.imp_left (howes _)

theorem keeps_cas {u : Update} {cur desired : IrqInjectionInfo} {k : Task}
    (hdesired : u.desired t.self cur = some desired)
    (hcur : (m.gic.irqObject (u.owner t.self) u.id).injectionInfo = cur) :
    Keeps m t (.cas u cur k) (m.setInfo (u.owner t.self) u.id desired) (u.done m.gic k) := by
  obtain ⟨sender, target, owner, id, rfl, rfl⟩ | ⟨id, target, rfl, rfl⟩ | ⟨htarget, hbits⟩ :=
    Task.desired_cases hdesired
  · refine Keeps.announce ?_ owner id (cur.sentBy sender target) k
    exact fun _ => False.elim
  · refine Keeps.announce ?_ 0 id (.asserted target) k
    exact fun _ => False.elim
  · refine .lower _ _ (hcur ▸ htarget) (fun hp => ?_) fun c howes => ?_
    · rw [hcur]
      exact IrqInjectionInfo.pending_of_subset hbits hp
    · cases u with
      | updateInjStatus id state inInjection => exact howes
      | _ => exact howes.elim

/-- **A turn.** -/
theorem keeps_next {route : IrqTarget} (hguard : Guarded m t task)
    (h : task.next t.self route m = some (m', task')) : Keeps m t task m' task' := by
  cases task with
  | idle => cases h
  | assertPi owner id target =>
      cases h
      refine Keeps.announce ?_ owner id (.asserted target) .idle
      exact fun _ => False.elim
  | deassertPi owner id =>
      cases h
      rintro ⟨c, x⟩ hc
      have hold := hc.resolve_right False.elim
      refine .inl ?_
      by_cases hobj : x = id ∧ Shares id c owner
      · intro _ hp
        rw [Machine.setInfo, setInfo_injectionInfo, if_pos hobj] at hp
        cases hp
      · exact visible_setInfo hold fun h => absurd h hobj
  | read u k =>
      cases h
      rintro c hc
      refine hc.imp_right fun howes => ?_
      cases u with
      | updateInjStatus id state inInjection =>
          split_ifs
          · exact howes
          · exact howes
      | _ => exact howes.elim
  | cas u cur k =>
      simp only [Task.next] at h
      split at h
      · cases h
      · rename_i desired hdesired
        split_ifs at h with hcur
        · cases h
          exact keeps_cas hdesired hcur
        · cases h
          refine fun c hc => hc.imp_right fun howes => ?_
          cases u with
          | updateInjStatus id state inInjection => exact howes
          | _ => exact howes.elim
  | notify owner id cpus k =>
      cases cpus with
      | nil =>
          cases h
          exact .of_eq rfl fun c howes => absurd howes.2.2 List.not_mem_nil
      | cons cpu cpus =>
          cases h
          refine .bits rfl (fun c x => by rw [setPendingIrq_irqObject]) fun c x hc => ?_
          rw [setPendingIrq_pendingIrqs,
            setPendingIrq_field _ cpu id Banked.inInjectionIrqs fun _ _ => rfl]
          split_ifs with hcx
          · exact .inr (.inl rfl)
          · refine hc.imp_left fun howes => ⟨howes.1, howes.2.1, ?_⟩
            exact (List.mem_cons.1 howes.2.2).resolve_left fun heq => hcx ⟨heq, howes.1.symm⟩
  | signal owner id cpu cpus k =>
      cases h
      split_ifs
      · exact .signal rfl fun _ howes => howes
      · exact fun c hc => hc
  | readState sw cpu =>
      cases h
      exact .of_eq rfl fun _ => False.elim
  | casState sw cpu cur =>
      simp only [Task.next] at h
      split at h
      · cases h
      · split_ifs at h
        · cases h
          exact .of_eq rfl fun _ => False.elim
        · cases h
          exact .of_eq rfl fun _ => False.elim
  | unblock cpu =>
      cases h
      exact .signal rfl fun _ => False.elim
  | _ =>
      obtain ⟨v, hself, hv⟩ := Option.bind_eq_some_iff.1 h
      exact keeps_nextOfVcpu hself hguard hv

/-! ## What the threads rely on -/

theorem Guarded.mono (h : Guarded m t task) (hinj : ∀ v, t.self = some v → ∀ x,
    (m.gic.bank v).inInjectionIrqs x = true → (m'.gic.bank v).inInjectionIrqs x = true) :
    Guarded m' t task := by
  induction task with
  | clrPending id => exact fun v hv => hinj v hv id (h v hv)
  | read u k ih => exact h.imp_right ih
  | cas u cur k ih => exact h.imp_right ih
  | notify owner id cpus k ih => exact ih h
  | signal owner id cpu cpus k ih => exact ih h
  | assertPi owner id target => exact h
  | _ => trivial

theorem Guarded.left {u : Update} {k : Task} (h : Guarded m t (.read u k)) :
    Guarded m t (u.left k) := by
  cases u with
  | updateInjStatus id state inInjection => trivial
  | _ => exact h.2

theorem Guarded.done {u : Update} {cur : IrqInjectionInfo} {k : Task}
    (h : Guarded m t (.cas u cur k)) (g : GicD) : Guarded m t (u.done g k) := by
  cases u with
  | pendingIrq id => trivial
  | updateInjStatus id state inInjection => trivial
  | _ => exact h.2

theorem guarded_further {g : GicD} {s : Scan} {id : ℕ} {r : Option ℕ} :
    Guarded m t (Task.further g s id r) := by
  rw [Task.further]
  split_ifs <;> trivial

/-- A turn of a vCPU leads where it may rely on what it has to. -/
theorem guarded_nextOfVcpu {v : ℕ} {route : IrqTarget} (hself : t.self = some v)
    (h : task.nextOfVcpu v route m = some (m', task')) : Guarded m' t task' := by
  cases task with
  | scan s start pos r =>
      simp only [Task.nextOfVcpu] at h
      split_ifs at h <;> cases h <;> trivial
  | judge s id r cur =>
      obtain ⟨rfl, r', rfl | ⟨hid, rfl⟩⟩ := Task.eq_of_judge h
      · exact guarded_further
      · exact ⟨hid, guarded_further⟩
  | found s r =>
      cases s with
      | pendingIrq minPriority =>
          cases r with
          | none =>
              cases h
              trivial
          | some id =>
              simp only [Task.nextOfVcpu] at h
              split_ifs at h <;> cases h
              · trivial
              · exact ⟨trivial, trivial⟩
      | waitForInterrupt willTimeout => cases r <;> cases h <;> trivial
  | setInInjection id =>
      cases h
      intro w hw
      cases hself.symm.trans hw
      rw [setInInjection_inInjectionIrqs, if_pos ⟨rfl, rfl⟩]
  | clrInInjection id state inInjection =>
      cases h
      exact ⟨trivial, trivial⟩
  | block willTimeout =>
      simp only [Task.nextOfVcpu] at h
      split at h
      · cases h
      · cases h
        split_ifs <;> trivial
  | checkPending id | checkInInjection w | checkRoundup w | checkDump w =>
      cases h
      split_ifs <;> trivial
  | look s id r | clrPending id | setPending id =>
      cases h
      trivial
  | _ => cases h

/-- **A turn leads where its thread may rely on what it has to.** -/
theorem guarded_next {route : IrqTarget} (hguard : Guarded m t task)
    (h : task.next t.self route m = some (m', task')) : Guarded m' t task' := by
  have hkept (hclr : ∀ x state inInjection, task ≠ .clrInInjection x state inInjection) :
      Guarded m' t task := by
    refine hguard.mono fun v _ x hset => ?_
    obtain hbit | ⟨-, state, inInjection, htask⟩ := Task.inInjectionIrqs_of_next h hset
    · exact hbit
    · exact absurd htask (hclr x state inInjection)
  cases task with
  | idle => cases h
  | assertPi owner id target | deassertPi owner id =>
      cases h
      trivial
  | read u k =>
      have hguard' := hkept (by simp)
      cases h
      split_ifs
      · exact hguard'
      · exact hguard'.left
  | cas u cur k =>
      have hguard' := hkept (by simp)
      simp only [Task.next] at h
      split at h
      · cases h
      · split_ifs at h
        · cases h
          exact hguard'.done _
        · cases h
          exact hguard'
  | notify owner id cpus k =>
      have hguard' := hkept (by simp)
      cases cpus <;> cases h <;> exact hguard'
  | signal owner id cpu cpus k =>
      have hguard' := hkept (by simp)
      cases h
      exact hguard'
  | readState sw cpu =>
      cases h
      trivial
  | casState sw cpu cur =>
      simp only [Task.next] at h
      split at h
      · cases h
      · split_ifs at h <;> cases h
        · cases sw <;> trivial
        · trivial
  | unblock cpu =>
      cases h
      trivial
  | _ =>
      obtain ⟨v, hself, hv⟩ := Option.bind_eq_some_iff.1 h
      exact guarded_nextOfVcpu hself hv

/-! ## The targets of private interrupts -/

/-- A private interrupt that is pending is for the vCPU whose bank it is in. -/
def PrivateTargets (g : GicD) : Prop :=
  ∀ owner id, id < spiBase → (g.irqObject owner id).injectionInfo.pending = true →
    (g.irqObject owner id).injectionInfo.target = .ofCpuId owner

/-- **A turn keeps the targets of private interrupts.** -/
theorem privateTargets_next {route : IrqTarget} (hpriv : PrivateTargets m.gic)
    (hguard : Guarded m t task) (h : task.next t.self route m = some (m', task')) :
    PrivateTargets m'.gic := by
  intro c id hid hp
  obtain heq | ⟨owner, info, hwrites, hshares, hinfo⟩ := Task.injectionInfo_of_next h c id
  · rw [heq] at hp ⊢
    exact hpriv c id hid hp
  · obtain rfl : c = owner := hshares.resolve_left (Nat.not_le.2 hid)
    rw [hinfo] at hp ⊢
    cases task with
    | assertPi owner x target =>
        obtain ⟨rfl, rfl, rfl⟩ := hwrites
        exact hguard hid
    | deassertPi owner x =>
        obtain ⟨rfl, rfl, rfl⟩ := hwrites
        cases hp
    | cas u cur k =>
        obtain ⟨howner, hx, hdesired, hcur⟩ := hwrites
        have hown : u.Own := hguard.1
        obtain ⟨sender, target, owner, x, rfl, rfl⟩ | ⟨x, target, rfl, rfl⟩ | ⟨htarget, hbits⟩ :=
          Task.desired_cases hdesired
        · cases howner
          exact congrArg IrqTarget.ofCpuId hown
        · cases hx
          exact absurd hid (Nat.not_lt.2 hown)
        · subst hcur
          rw [htarget]
          exact hpriv c id hid (IrqInjectionInfo.pending_of_subset hbits hp)
    | _ => exact hwrites.elim

/-! ## Runs -/

/-- What holds in every state. -/
structure Inv (s : GicSys ι) : Prop where
  visible : AllVisible s
  guarded : s.Each Guarded
  privateTargets : PrivateTargets s.shared.gic

theorem inv_start {m : Machine} (h : m.gic.Fresh) : Inv (start m : GicSys ι) where
  visible c := .inl fun _ hp => by
    rw [start, h.injectionInfo] at hp
    cases hp
  guarded _ := trivial
  privateTargets owner id _ hp := by
    rw [start, h.injectionInfo] at hp
    cases hp

/-- An act that stores no injection info and no bit, of a thread that owes nothing and goes on where
it has nothing to rely on. -/
theorem Inv.goOn_of_same [DecidableEq ι] {s : GicSys ι} (h : Inv s) {t : Party ι} {m' : Machine}
    {p : Task} (hsame : s.shared.gic.SameAtomics m'.gic) (howes : ∀ c, ¬Owes c t (s.task t))
    (hown : Guarded m' t p) : Inv (s.goOn t m' p) where
  visible := h.visible.goOn fun c hc => by
    refine .inl ((hc.resolve_right (howes c)).mono hsame.numVcpus ?_ ?_ ?_)
    · rw [hsame.pendingIrqs, hsame.inInjectionIrqs]
      exact fun hb => hb
    · rw [hsame.injectionInfo]
    · rw [hsame.injectionInfo]
      exact fun hp => hp
  guarded := h.guarded.goOn hown fun u q _ hq => hq.mono fun v _ x hset => by
    rwa [hsame.inInjectionIrqs]
  privateTargets owner id := by
    rw [Threads.goOn_shared, hsame.injectionInfo]
    exact h.privateTargets owner id

/-- An SGI is asserted as `send_sgi` does it: for the vCPU whose bank it is in. -/
def SendsSgi : GicAct ι → Prop
  | .call _ (.assertSgi _ target owner _) => target = owner
  | _ => True

theorem guarded_start {c : Call} {g : GicD} (hallowed : c.Allowed g t.self)
    (hsend : SendsSgi (.call t c)) : Guarded m t c.start := by
  cases c with
  | assertPi owner id target => exact fun hid => (hallowed.2 hid).2
  | assertSgi sender target owner id => exact ⟨hsend, trivial⟩
  | redirectSpi id target => exact ⟨hallowed.1, trivial⟩
  | deassertSgi sender owner id => exact ⟨trivial, trivial⟩
  | _ => trivial

/-- **A step keeps what holds in every state.** -/
theorem inv_step [DecidableEq ι] {s s' : GicSys ι} {a : GicAct ι} (h : Inv s) (hsend : SendsSgi a)
    (hstep : Step s a s') : Inv s' := by
  cases a with
  | call t c =>
      obtain ⟨hidle, hallowed, rfl⟩ := hstep
      refine h.goOn_of_same (.refl _) (fun _ howes => ?_) (guarded_start hallowed hsend)
      rw [hidle] at howes
      exact howes
  | next t route =>
      obtain ⟨m', k, hnext, rfl⟩ := hstep
      have hguard := h.guarded t
      refine ⟨h.visible.goOn (keeps_next hguard hnext),
        h.guarded.goOn (guarded_next hguard hnext) ?_,
        privateTargets_next h.privateTargets hguard hnext⟩
      -- the interrupts that another vCPU has in injection are its own affair
      refine fun u q hne hq => hq.mono fun v hv x hset => ?_
      refine (Task.inInjectionIrqs_of_next hnext hset).resolve_right fun hclr => hne ?_
      exact Party.eq_of_self hv hclr.1
  | store t g =>
      obtain ⟨hidle, hsame, rfl⟩ := hstep
      refine h.goOn_of_same hsame (fun _ howes => ?_) trivial
      rw [hidle] at howes
      exact howes
  | timeout v =>
      obtain ⟨hblock, rfl⟩ := hstep
      refine h.goOn_of_same (.refl _) (fun _ howes => ?_) trivial
      rw [hblock] at howes
      exact howes
  | switch v state =>
      obtain ⟨hidle, -, rfl⟩ := hstep
      refine h.goOn_of_same (.refl _) (fun _ howes => ?_) trivial
      rw [hidle] at howes
      exact howes
  | requestDump v on =>
      obtain rfl := hstep
      exact ⟨h.visible, fun t => (h.guarded t).mono fun _ _ _ hset => hset, h.privateTargets⟩

/-- **A run keeps what holds in every state.** -/
theorem inv_run [DecidableEq ι] {m : Machine} (hfresh : m.gic.Fresh) {as : List (GicAct ι)}
    {s : GicSys ι} (hrun : Run Step (start m) as s) (hsend : ∀ a ∈ as, SendsSgi a) : Inv s :=
  (hrun.and_of_forall hsend).invariant (fun _ _ _ h hstep => inv_step h hstep.1 hstep.2)
    (inv_start hfresh)

/-- An operation on the interrupt `id` of the bank of `owner` is in progress. The scan of a vCPU,
which has not taken an interrupt yet, is none. -/
def On (self : Option ℕ) (owner id : ℕ) : Task → Prop
  | .assertPi o x _ | .deassertPi o x | .notify o x _ _ | .signal o x _ _ _ =>
      x = id ∧ Shares id owner o
  | .read u _ | .cas u _ _ => u.id = id ∧ Shares id owner (u.owner self)
  | .setInInjection x | .clrPending x | .clrInInjection x _ _ | .checkPending x | .setPending x =>
      x = id ∧ ∃ v, self = some v ∧ Shares id owner v
  | _ => False

/-- A thread that has to set a bit is on the interrupt. -/
theorem on_of_owes {v id : ℕ} (h : Owes (v, id) t task) : On t.self v id task := by
  cases task with
  | notify owner x cpus k | signal owner x cpu cpus k =>
      obtain ⟨hx, hshares, -⟩ := h
      cases hx
      exact ⟨rfl, hshares⟩
  | read u k | cas u cur k =>
      cases u with
      | updateInjStatus x state inInjection =>
          refine ⟨h.2, .inr ?_⟩
          rw [Update.owner, h.1]
          rfl
      | _ => exact h.elim
  | checkPending x | setPending x => exact ⟨h.2, v, h.1, .inr rfl⟩
  | _ => exact h.elim

theorem on_of_shares {self : Option ℕ} {v owner id : ℕ} (hshares : Shares id v owner)
    (h : On self v id task) : On self owner id task := by
  obtain hid | rfl := hshares
  · cases task with
    | assertPi o x target | deassertPi o x | notify o x cpus k | signal o x cpu cpus k =>
        exact ⟨h.1, .inl hid⟩
    | read u k | cas u cur k => exact ⟨h.1, .inl hid⟩
    | setInInjection x | clrPending x | clrInInjection x _ _ | checkPending x | setPending x =>
        obtain ⟨hx, w, hw, -⟩ := h
        exact ⟨hx, w, hw, .inl hid⟩
    | _ => exact h.elim
  · exact h

/-- **A pending interrupt stays visible.** Whatever calls the threads make at the same time: when no
operation on an interrupt is in progress, and it is pending with a valid target, then every vCPU
that it targets has its bit in `pending_irqs` or in `in_injection_irqs`. -/
theorem pending_visible [DecidableEq ι] {m : Machine} (hfresh : m.gic.Fresh)
    {as : List (GicAct ι)} {s : GicSys ι} (hrun : Run Step (start m) as s)
    (hsend : ∀ a ∈ as, SendsSgi a) (hnum : s.shared.gic.numVcpus ≤ 2 ^ 16) {owner id : ℕ}
    (howner : owner < s.shared.gic.numVcpus) (hquiet : ∀ t, ¬On t.self owner id (s.task t))
    (hpend : (s.shared.gic.irqObject owner id).injectionInfo.pending = true)
    (hvalid : (s.shared.gic.irqObject owner id).injectionInfo.target.isValid = true) :
    ∀ v < s.shared.gic.numVcpus,
      (s.shared.gic.irqObject owner id).injectionInfo.isTargetingCpu v = true →
        (s.shared.gic.bank v).pendingIrqs id = true ∨
          (s.shared.gic.bank v).inInjectionIrqs id = true := by
  intro v hv hcpu
  have hinv := inv_run hfresh hrun hsend
  -- a private interrupt is for its owner alone
  have hshares : Shares id v owner := by
    by_cases hid : spiBase ≤ id
    · exact .inl hid
    · rw [IrqInjectionInfo.isTargetingCpu,
        hinv.privateTargets owner id (Nat.not_le.1 hid) hpend, IrqTarget.ofCpuId,
        IrqTarget.isCpuTargeted, beq_iff_eq, Nat.mod_eq_of_lt (by omega)] at hcpu
      exact .inr hcpu.symm
  have hsettled := hinv.visible.paid_of_not_owes (k := (v, id)) fun t howes =>
    hquiet t (on_of_shares hshares (on_of_owes howes))
  rw [← irqObject_eq_of_shares hshares] at hpend hvalid hcpu
  exact hsettled hv hpend hvalid hcpu

end GicSys

end Vml
