import Mathlib.Logic.Relation
import Vml.GicMmio
import Vml.GicScan
import Vml.GicThreads

/-!
# Calls that nobody interrupts

A call is taken apart into turns. When its thread takes them one after another, they come to what
the function does in one go (`GicD`), and there is a run of the machine in which they do.

**Other stores.** A register write that only changes fields of interrupts, or `GICD_CTLR`, is a
`store` (`SameAtomics`).

Main results: `alone_assertPi`, `alone_highestIrq`, `alone_waitForInterrupt`, and
`exists_run_of_call`.
-/

namespace Vml

/-- `highest_irq` re-routes the interrupts that the vCPU cannot receive. -/
def Scan.redirects : Scan → Bool
  | .pendingIrq _ => true
  | .waitForInterrupt _ => false

namespace Task

open GicD

variable {self : Option ℕ} {m m' : Machine} {task task' : Task}

/-- The thread takes a turn. -/
def Turn (self : Option ℕ) (a b : Machine × Task) : Prop :=
  ∃ route, a.2.next self route a.1 = some b

/-- The thread gets from one point to another by its own turns. -/
abbrev Alone (self : Option ℕ) : Machine × Task → Machine × Task → Prop :=
  Relation.ReflTransGen (Turn self)

theorem alone_head {n : Machine} {t : Task} {b : Machine × Task} (route : IrqTarget)
    (h : task.next self route m = some (n, t)) (h' : Alone self (n, t) b) :
    Alone self (m, task) b := .head ⟨route, h⟩ h'

/-! ## Announcements and assertions -/

theorem alone_notify (m : Machine) (owner id : ℕ) (cpus : List ℕ) (k : Task) :
    Alone self (m, .notify owner id cpus k)
      ({ m with gic := cpus.foldl (fun g cpu => g.notifyCpu id cpu) m.gic }, k) := by
  induction cpus generalizing m with
  | nil => exact alone_head .invalid rfl .refl
  | cons cpu cpus ih =>
      refine alone_head .invalid rfl (alone_head .invalid rfl ?_)
      have hcpu : (if (m.gic.setPendingIrq cpu id).vcpuCanReceiveIrq cpu id then
            { m with gic := (m.gic.setPendingIrq cpu id).notifyInterruptPending cpu }
          else { m with gic := m.gic.setPendingIrq cpu id }) =
          { m with gic := m.gic.notifyCpu id cpu } := by
        rw [notifyCpu]
        split_ifs <;> rfl
      dsimp only
      rw [hcpu]
      exact ih _

theorem notified_setInfo (g : GicD) (owner id : ℕ) (info : IrqInjectionInfo) (target : IrqTarget) :
    (g.setInfo owner id info).notified target = g.notified target := by
  rw [notified.eq_def, notified.eq_def, setInfo_numVcpus]

theorem alone_assertPi (m : Machine) (owner id : ℕ) (target : IrqTarget) :
    Alone self (m, .assertPi owner id target)
      ({ m with gic :=
        ((m.gic.setInfo owner id (.asserted target)).notifyTarget id target).2 }, .idle) := by
  refine alone_head .invalid rfl ?_
  rw [← notified_setInfo m.gic owner id (.asserted target)]
  exact alone_notify (m.setInfo owner id (.asserted target)) owner id _ .idle

/-! ## Comparison and swap -/

theorem alone_swap (m : Machine) {u : Update} (k : Task) {info : IrqInjectionInfo}
    (h : u.desired self (m.gic.irqObject (u.owner self) u.id).injectionInfo = some info) :
    Alone self (m, .read u k) (m.setInfo (u.owner self) u.id info, u.done m.gic k) := by
  obtain ⟨cur, hcur⟩ : ∃ cur, cur = (m.gic.irqObject (u.owner self) u.id).injectionInfo := ⟨_, rfl⟩
  rw [← hcur] at h
  refine alone_head .invalid (n := m) (t := .cas u cur k) ?_ (alone_head .invalid ?_ .refl)
  · rw [next, ← hcur, h]
    rfl
  · rw [next, h]
    dsimp only
    rw [if_pos hcur.symm]

theorem alone_left (m : Machine) {u : Update} (k : Task)
    (h : u.desired self (m.gic.irqObject (u.owner self) u.id).injectionInfo = none) :
    Alone self (m, .read u k) (m, u.left k) := by
  refine alone_head .invalid (n := m) (t := u.left k) ?_ .refl
  rw [next, h]
  rfl

theorem alone_redirectSpi (m : Machine) (id hint : ℕ) (k : Task) :
    Alone self (m, .read (.redirectSpi id (m.gic.routeSpi (m.gic.irqObject 0 id) hint)) k)
      ({ m with gic := (m.gic.redirectSpi id hint).2 }, k) := by
  rw [GicD.redirectSpi]
  cases hinfo : (m.gic.irqObject 0 id).injectionInfo.redirected
      (m.gic.routeSpi (m.gic.irqObject 0 id) hint) with
  | none => exact alone_left (u := .redirectSpi id _) m k hinfo
  | some info =>
      refine (alone_swap (u := .redirectSpi id _) m k hinfo).trans ?_
      rw [Update.done, ← notified_setInfo m.gic 0 id info]
      exact alone_notify (m.setInfo 0 id info) 0 id _ k

/-! ## The scan -/

section Scan

variable {v : ℕ} {s : Scan}

/-- The bits from `pos` to the end of a window are read. -/
theorem alone_window (m : Machine) {start : ℕ} (r : Option ℕ) (n pos : ℕ)
    (hend : pos + n =
      min (start + if start < lpiBase then m.gic.configuredIrqs - 1 else maxIrq - 1) maxIrq) :
    Alone (some v) (m, .scan s start pos r)
      (m, match (List.range' pos n).find? (m.gic.bank v).pendingIrqs with
        | some id => .look s id r
        | none => if start < lpiBase then .scan s lpiBase lpiBase r else .found s r) := by
  induction n generalizing pos with
  | zero =>
      refine alone_head .invalid (n := m) ?_ .refl
      simp only [next, nextOfVcpu, Option.bind_some, ← hend, Nat.add_zero, Nat.lt_irrefl, if_false,
        List.range'_zero, List.find?_nil]
      split_ifs <;> rfl
  | succ n ih =>
      have hlt : pos < pos + (n + 1) := by omega
      rw [List.range'_succ, List.find?_cons]
      cases hbit : (m.gic.bank v).pendingIrqs pos with
      | true =>
          refine alone_head .invalid (n := m) ?_ .refl
          simp only [next, nextOfVcpu, Option.bind_some, ← hend, if_pos hlt, hbit, if_true]
      | false =>
          refine alone_head .invalid (n := m) (t := .scan s start (pos + 1) r) ?_ ?_
          · simp only [next, nextOfVcpu, Option.bind_some, ← hend, if_pos hlt, hbit,
              Bool.false_eq_true, if_false]
          · exact ih (pos + 1) (by omega)

theorem alone_getNextPendingIrq (m : Machine) (r : Option ℕ) (start : ℕ) (hstart : start ≤ maxIrq) :
    Alone (some v) (m, .scan s start start r)
      (m, match m.gic.getNextPendingIrq v start with
        | some id => .look s id r
        | none => .found s r) := by
  have hwindow (start : ℕ) (hstart : start ≤ maxIrq) :=
    @alone_window v s m start r (min (start + if start < lpiBase then m.gic.configuredIrqs - 1
      else maxIrq - 1) maxIrq - start) start (by omega)
  rw [getNextPendingIrq]
  have hfirst := hwindow start hstart
  have hlpi := hwindow lpiBase (by decide)
  by_cases hlow : start < lpiBase
  · simp only [if_pos hlow, firstSet] at hfirst ⊢
    cases hid : (List.range' start (min (start + (m.gic.configuredIrqs - 1)) maxIrq - start)).find?
        (m.gic.bank v).pendingIrqs with
    | some id =>
        rw [hid] at hfirst
        exact hfirst
    | none =>
        rw [hid] at hfirst
        refine hfirst.trans ?_
        simp only [Nat.lt_irrefl, if_false] at hlpi
        exact hlpi
  · simp only [if_neg hlow, firstSet] at hfirst ⊢
    cases hid : (List.range' start (min (start + (maxIrq - 1)) maxIrq - start)).find?
        (m.gic.bank v).pendingIrqs with
    | some id =>
        rw [hid] at hfirst
        exact hfirst
    | none =>
        rw [hid] at hfirst
        exact hfirst

theorem le_of_getNextPendingIrq {g : GicD} {start id : ℕ} (hstart : start ≤ lpiBase)
    (h : g.getNextPendingIrq v start = some id) : start ≤ id := by
  have hfirst {start len x : ℕ} (hx : firstSet (g.bank v).pendingIrqs start len = some x) :
      start ≤ x := by
    rw [firstSet, List.find?_range'_eq_some] at hx
    exact (List.mem_range'_1.1 hx.2.1).1
  simp only [getNextPendingIrq] at h
  split at h
  · rename_i x hx
    rw [← Option.some.inj h]
    split_ifs at hx
    · exact hfirst hx
    · exact hfirst hx
  · split_ifs at h
    exact hstart.trans (hfirst h)

/-- The test of `highest_irq`, and the re-routing behind it. -/
theorem alone_judge (m : Machine) (s : Scan) (id : ℕ) (r : Option ℕ) :
    let considered := m.gic.considers v id
    Alone (some v) (m, .judge s id r (m.gic.irqObject v id).injectionInfo)
      ({ m with gic :=
          if !considered && s.redirects && decide (spiBase ≤ id) && !m.gic.vcpuCanReceiveIrq v id
          then (m.gic.redirectSpi id (v + 1)).2 else m.gic },
        further m.gic s id (if considered && m.gic.supersedes v id r then some id else r)) := by
  intro considered
  cases s with
  | waitForInterrupt willTimeout =>
      rw [Scan.redirects, Bool.and_false, Bool.false_and, Bool.false_and, if_neg (by simp)]
      exact alone_head .invalid rfl .refl
  | pendingIrq minPriority =>
      rw [Scan.redirects, Bool.and_true]
      by_cases hredirect : (!considered && decide (spiBase ≤ id) &&
          !m.gic.vcpuCanReceiveIrq v id) = true
      · rw [if_pos hredirect]
        exact alone_head _ (if_pos hredirect) (alone_redirectSpi m id (v + 1) _)
      · rw [if_neg hredirect]
        exact alone_head .invalid (if_neg hredirect) .refl

theorem redirectSpi_configuredIrqs (g : GicD) (id hint : ℕ) :
    (g.redirectSpi id hint).2.configuredIrqs = g.configuredIrqs := by
  rw [GicD.redirectSpi]
  split
  · rfl
  · exact (announced_notifyTarget ..).configuredIrqs.trans (setInfo_configuredIrqs ..)

theorem alone_highestIrqLoop (m : Machine) (hconf : m.gic.configuredIrqs ≤ maxIrqNoLpi) (s : Scan)
    (fuel irqId : ℕ) (r : Option ℕ) (hfuel : m.gic.configuredIrqs ≤ fuel + irqId)
    (hlt : irqId < m.gic.configuredIrqs) :
    Alone (some v) (m, .scan s irqId irqId r)
      ({ m with gic := (highestIrqLoop v s.redirects fuel m.gic irqId r).2 },
        .found s (highestIrqLoop v s.redirects fuel m.gic irqId r).1) := by
  have h1020 : maxIrqNoLpi = 1020 := rfl
  have h8192 : lpiBase = 8192 := rfl
  have h9216 : maxIrq = 9216 := rfl
  induction fuel generalizing m irqId r with
  | zero => omega
  | succ fuel ih =>
      refine (alone_getNextPendingIrq m r irqId (by omega)).trans ?_
      rw [highestIrqLoop]
      cases hid : m.gic.getNextPendingIrq v irqId with
      | none => exact .refl
      | some id =>
          have hle := le_of_getNextPendingIrq (by omega) hid
          refine alone_head .invalid rfl ((alone_judge m s id r).trans ?_)
          dsimp only
          obtain ⟨g, hg⟩ : ∃ g, g = if !m.gic.considers v id && s.redirects &&
              decide (spiBase ≤ id) && !m.gic.vcpuCanReceiveIrq v id
            then (m.gic.redirectSpi id (v + 1)).2 else m.gic := ⟨_, rfl⟩
          have hsame : g.configuredIrqs = m.gic.configuredIrqs := by
            rw [hg]
            split_ifs
            · exact redirectSpi_configuredIrqs ..
            · rfl
          rw [← hg, further, ← hsame]
          by_cases hmore : id + 1 < g.configuredIrqs
          · rw [if_pos hmore, if_pos hmore]
            exact ih { m with gic := g } (hsame.trans_le hconf) (id + 1) _
              (hsame.trans_le (by omega)) hmore
          · rw [if_neg hmore, if_neg hmore]

theorem highestIrqLoop_false_snd (fuel irqId : ℕ) (g : GicD) (r : Option ℕ) :
    (highestIrqLoop v false fuel g irqId r).2 = g := by
  induction fuel generalizing irqId r with
  | zero => rfl
  | succ fuel ih =>
      rw [highestIrqLoop]
      cases g.getNextPendingIrq v irqId with
      | none => rfl
      | some id =>
          simp only [Bool.and_false, Bool.false_and, Bool.false_eq_true, if_false]
          by_cases hmore : id + 1 < g.configuredIrqs
          · rw [if_pos hmore]
            exact ih ..
          · rw [if_neg hmore]

/-- **The scan of `wait_for_interrupt`.** -/
theorem alone_highestIrq (m : Machine) (hconf : m.gic.configuredIrqs ≤ maxIrqNoLpi)
    (hpos : 0 < m.gic.configuredIrqs) (willTimeout : Bool) :
    Alone (some v) (m, .scan (.waitForInterrupt willTimeout) 0 0 none)
      (m, .found (.waitForInterrupt willTimeout) (m.gic.highestIrq v false).1) := by
  have hloop := @alone_highestIrqLoop v m hconf (.waitForInterrupt willTimeout)
    m.gic.configuredIrqs 0 none (Nat.le_add_right _ _) hpos
  rwa [Scan.redirects, highestIrqLoop_false_snd] at hloop

theorem alone_inject (m : Machine) (id : ℕ) :
    Alone (some v) (m, .read (.pendingIrq id) .idle)
      ({ m with gic := (m.gic.inject v id).2 }, .idle) := by
  rw [inject]
  cases hinfo : (m.gic.irqObject v id).injectionInfo.injected v with
  | none => exact @alone_left (some v) m (.pendingIrq id) .idle hinfo
  | some info =>
      refine (@alone_swap (some v) m (.pendingIrq id) .idle info hinfo).trans ?_
      exact alone_head .invalid rfl (alone_head .invalid rfl .refl)

/-- **`pending_irq`.** -/
theorem alone_pendingIrq (m : Machine) (hconf : m.gic.configuredIrqs ≤ maxIrqNoLpi)
    (hpos : 0 < m.gic.configuredIrqs) (minPriority : UInt8) :
    Alone (some v) (m, .scan (.pendingIrq minPriority) 0 0 none)
      ({ m with gic := (m.gic.pendingIrq v minPriority).2 }, .idle) := by
  refine (alone_highestIrqLoop m hconf (.pendingIrq minPriority) m.gic.configuredIrqs 0 none
    (Nat.le_add_right _ _) hpos).trans ?_
  rw [Scan.redirects, GicD.pendingIrq, highestIrq]
  obtain ⟨r, hr⟩ : ∃ r, r = highestIrqLoop v true m.gic.configuredIrqs m.gic 0 none := ⟨_, rfl⟩
  rw [← hr]
  obtain ⟨found, g⟩ := r
  cases found with
  | none => exact alone_head .invalid rfl .refl
  | some id =>
      dsimp only
      split_ifs with hmin
      · exact alone_head .invalid (if_pos hmin) .refl
      · exact alone_head .invalid (if_neg hmin) (alone_inject { m with gic := g } id)

end Scan

/-! ## Completion -/

/-- The second half of `update_inj_status`: the injection info, and then the bit. -/
theorem alone_updated (m : Machine) (v id : ℕ) (state : IrqState) (inInjection : Bool) :
    Alone (some v) (m, .read (.updateInjStatus id state inInjection) .idle)
      ({ m with gic :=
          let g := match (m.gic.irqObject v id).injectionInfo.updated v state inInjection with
            | none => m.gic
            | some info => m.gic.setInfo v id info
          if (g.irqObject v id).pending then g.setPendingIrq v id else g }, .idle) := by
  have hcheck (g : GicD) : Alone (some v) ({ m with gic := g }, .checkPending id)
      ({ m with gic := if (g.irqObject v id).pending then g.setPendingIrq v id else g }, .idle) := by
    refine alone_head .invalid rfl ?_
    dsimp only
    split_ifs
    · exact alone_head .invalid rfl .refl
    · exact .refl
  cases hinfo : (m.gic.irqObject v id).injectionInfo.updated v state inInjection with
  | none =>
      refine (@alone_left (some v) m (.updateInjStatus id state inInjection) .idle hinfo).trans ?_
      exact hcheck m.gic
  | some info =>
      refine (@alone_swap (some v) m (.updateInjStatus id state inInjection) .idle info
        hinfo).trans ?_
      exact hcheck (m.gic.setInfo v id info)

/-- **`update_inj_status`.** -/
theorem alone_updateInjStatus (m : Machine) (v id : ℕ) (state : IrqState) (inInjection : Bool) :
    Alone (some v) (m, .clrInInjection id state inInjection)
      ({ m with gic := m.gic.updateInjStatus v id state inInjection }, .idle) :=
  alone_head .invalid rfl (alone_updated _ v id state inInjection)

/-! ## Waiting -/

section Wait

variable {v : ℕ}

/-- **`wait_for_interrupt`** blocks when it finds nothing. -/
theorem alone_waitForInterrupt (m : Machine) (hconf : m.gic.configuredIrqs ≤ maxIrqNoLpi)
    (hpos : 0 < m.gic.configuredIrqs) (willTimeout : Bool)
    (hinj : m.gic.hasIrqInInjection v = false) (hnone : (m.gic.highestIrq v false).1 = none)
    (hround : m.isRoundupPending v = false) (hdump : m.dumpRegs v = false) :
    Alone (some v) (m, .checkInInjection willTimeout) (m, .block willTimeout) := by
  refine alone_head .invalid (n := m) (t := .scan (.waitForInterrupt willTimeout) 0 0 none)
    ?_ ((alone_highestIrq m hconf hpos willTimeout).trans ?_)
  · simp only [next, nextOfVcpu, Option.bind_some, hinj, Bool.false_eq_true, if_false]
  · rw [hnone]
    refine alone_head .invalid rfl ?_
    refine alone_head .invalid (n := m) (t := .checkDump willTimeout) ?_ ?_
    · simp only [next, nextOfVcpu, Option.bind_some, hround, Bool.false_eq_true, if_false]
    · refine alone_head .invalid (n := m) ?_ .refl
      simp only [next, nextOfVcpu, Option.bind_some, hdump, Bool.false_eq_true, if_false]

/-- The points in `wait_for_interrupt`. -/
def Waits : Task → Prop
  | .idle | .checkInInjection _ | .scan (.waitForInterrupt _) _ _ _
  | .look (.waitForInterrupt _) _ _ | .judge (.waitForInterrupt _) _ _ _
  | .found (.waitForInterrupt _) _ | .checkRoundup _ | .checkDump _ | .block _ => True
  | _ => False

/-- A vCPU stays in `wait_for_interrupt` until it returns. -/
theorem Waits.next {route : IrqTarget} (h : Waits task)
    (hnext : task.next self route m = some (m', task')) : Waits task' := by
  cases task with
  | checkInInjection willTimeout | checkRoundup willTimeout | checkDump willTimeout =>
      obtain ⟨v, -, hv⟩ := Option.bind_eq_some_iff.1 hnext
      cases hv
      split_ifs <;> trivial
  | scan s start pos r =>
      cases s with
      | pendingIrq minPriority => exact h.elim
      | waitForInterrupt willTimeout =>
          obtain ⟨v, -, hv⟩ := Option.bind_eq_some_iff.1 hnext
          simp only [nextOfVcpu] at hv
          split_ifs at hv <;> cases hv <;> trivial
  | look s id r =>
      cases s with
      | pendingIrq minPriority => exact h.elim
      | waitForInterrupt willTimeout =>
          obtain ⟨v, -, hv⟩ := Option.bind_eq_some_iff.1 hnext
          cases hv
          trivial
  | judge s id r cur =>
      cases s with
      | pendingIrq minPriority => exact h.elim
      | waitForInterrupt willTimeout =>
          obtain ⟨v, -, hv⟩ := Option.bind_eq_some_iff.1 hnext
          cases hv
          rw [further]
          split_ifs <;> trivial
  | found s r =>
      cases s with
      | pendingIrq minPriority => exact h.elim
      | waitForInterrupt willTimeout =>
          obtain ⟨v, -, hv⟩ := Option.bind_eq_some_iff.1 hnext
          cases r <;> cases hv <;> trivial
  | block willTimeout =>
      obtain ⟨v, -, hv⟩ := Option.bind_eq_some_iff.1 hnext
      simp only [nextOfVcpu] at hv
      split at hv
      · cases hv
      · cases hv
        split_ifs <;> trivial
  | idle => cases hnext
  | _ => exact h.elim

end Wait

end Task

/-! ## Register writes -/

namespace GicD

theorem SameAtomics.trans {g g' g'' : GicD} (h : g.SameAtomics g') (h' : g'.SameAtomics g'') :
    g.SameAtomics g'' where
  numVcpus := h'.numVcpus.trans h.numVcpus
  configuredIrqs := h'.configuredIrqs.trans h.configuredIrqs
  injectionInfo c x := (h'.injectionInfo c x).trans (h.injectionInfo c x)
  pendingIrqs c := (h'.pendingIrqs c).trans (h.pendingIrqs c)
  inInjectionIrqs c := (h'.inInjectionIrqs c).trans (h.inInjectionIrqs c)
  irqSig c := (h'.irqSig c).trans (h.irqSig c)

theorem sameAtomics_modifyIrq (g : GicD) (cpu id : ℕ) {f : Irq → Irq}
    (hf : ∀ irq, (f irq).injectionInfo = irq.injectionInfo) :
    g.SameAtomics (g.modifyIrq cpu id f) where
  numVcpus := g.modifyIrq_numVcpus ..
  configuredIrqs := g.modifyIrq_configuredIrqs ..
  injectionInfo c x := by
    rw [modifyIrq_irqObject]
    split_ifs
    · exact hf _
    · rfl
  pendingIrqs := g.modifyIrq_field cpu id f Banked.pendingIrqs fun _ _ => rfl
  inInjectionIrqs := g.modifyIrq_field cpu id f Banked.inInjectionIrqs fun _ _ => rfl
  irqSig := g.modifyIrq_field cpu id f Banked.irqSig fun _ _ => rfl

theorem sameAtomics_write (g : GicD) (cpu : ℕ) (acc : IrqMmioAccess) (value : UInt64)
    {f : UInt8 → Irq → Irq} (hf : ∀ v irq, (f v irq).injectionInfo = irq.injectionInfo) :
    g.SameAtomics (g.write cpu acc value f).2 :=
  List.foldlRecOn (motive := fun g' => g.SameAtomics g') acc.irqs _ (.refl g)
    fun g' h p _ => h.trans (g'.sameAtomics_modifyIrq cpu p.2 (hf _))

theorem sameAtomics_writeCtlr (g : GicD) (offset : UInt64) (bytes : UInt8) (value : UInt64) :
    g.SameAtomics (g.writeCtlr offset bytes value).2 := by
  rw [writeCtlr]
  split
  · exact ⟨rfl, rfl, fun _ _ => rfl, fun _ => rfl, fun _ => rfl, fun _ => rfl⟩
  · exact .refl g

/-- The enable bits of the SPIs 32 to 63 are written. -/
theorem sameAtomics_mmioWrite_isenabler (g : GicD) (cpu : ℕ) (value : UInt64) :
    g.SameAtomics (g.mmioWrite cpu 0x104 4 value).2 := by
  have heq : g.mmioWrite cpu 0x104 4 value =
      if 0x10000 ≤ (0x104 : UInt64) ∨ 8 < (4 : UInt8) ∨ g.numVcpus ≤ cpu then (false, g)
      else g.write cpu { g.irqMmioAccess 0x104 4 .all with baseAbs := 0x100 } value
        fun v irq => if v != 0 then { irq with enable := true } else irq := rfl
  rw [heq]
  split
  · exact .refl g
  · refine sameAtomics_write _ _ _ _ fun v irq => ?_
    split <;> rfl

end GicD

/-! ## Runs -/

namespace GicSys

variable {ι : Type*} [DecidableEq ι]

/-- The thread makes a call, or takes a turn. -/
def Makes (t : Party ι) (a : GicAct ι) : Prop := (∃ c, a = .call t c) ∨ ∃ route, a = .next t route

/-- **There is a run** in which a thread takes its turns one after another, from points of which
something holds that its turns keep. -/
theorem exists_run_of_alone_of {P : Task → Prop} {s : GicSys ι} {t : Party ι} {m : Machine}
    {k : Task} (hP : P (s.task t))
    (hnext : ∀ {task route m m' task'}, P task → task.next t.self route m = some (m', task') →
      P task')
    (h : Task.Alone t.self (s.shared, s.task t) (m, k)) :
    ∃ as, Run (fun s a s' => Step s a s' ∧ Makes t a ∧ P (s.task t)) s as (s.goOn t m k) ∧
      ∀ a ∈ as, ∃ route, a = .next t route := by
  obtain ⟨b, hb⟩ : ∃ b, b = (m, k) := ⟨_, rfl⟩
  suffices hrun : P b.2 ∧ ∃ as,
      Run (fun s a s' => Step s a s' ∧ Makes t a ∧ P (s.task t)) s as (s.goOn t b.1 b.2) ∧
        ∀ a ∈ as, ∃ route, a = .next t route by
    rw [hb] at hrun
    exact hrun.2
  rw [← hb] at h
  clear hb
  induction h with
  | refl =>
      refine ⟨hP, [], ?_, nofun⟩
      rw [s.goOn_self t]
      exact .nil
  | @tail b c _ hturn ih =>
      obtain ⟨hb, as, hrun, has⟩ := ih
      obtain ⟨route, hroute⟩ := hturn
      have hstep : Step (s.goOn t b.1 b.2) (.next t route) (s.goOn t c.1 c.2) := by
        refine ⟨c.1, c.2, ?_, ?_⟩
        · rw [Threads.goOn_task_self]
          exact hroute
        · rw [Threads.goOn_goOn]
      refine ⟨hnext hb hroute, as ++ [.next t route], .snoc hrun ⟨hstep, .inr ⟨route, rfl⟩, ?_⟩,
        fun a ha => ?_⟩
      · rw [Threads.goOn_task_self]
        exact hb
      · obtain ha | ha := List.mem_append.1 ha
        · exact has a ha
        · exact ⟨route, List.mem_singleton.1 ha⟩

/-- A thread makes a call, and takes the turns of it one after another. -/
theorem exists_run_of_call_of {P : Task → Prop} {s : GicSys ι} {t : Party ι} {c : Call}
    {m : Machine} {k : Task} (hidle : s.task t = .idle) (hallowed : c.Allowed s.shared.gic t.self)
    (hP : P .idle) (hP' : P c.start)
    (hnext : ∀ {task route m m' task'}, P task → task.next t.self route m = some (m', task') →
      P task')
    (h : Task.Alone t.self (s.shared, c.start) (m, k)) :
    ∃ as, Run (fun s a s' => Step s a s' ∧ Makes t a ∧ P (s.task t)) s (.call t c :: as)
        (s.goOn t m k) ∧
      ∀ a ∈ as, ∃ route, a = .next t route := by
  have hcall : Step s (.call t c) (s.goOn t s.shared c.start) := ⟨hidle, hallowed, rfl⟩
  obtain ⟨as, hrun, has⟩ :=
    @exists_run_of_alone_of ι _ P (s.goOn t s.shared c.start) t m k (by
      rwa [Threads.goOn_task_self]) hnext (by
      rw [Threads.goOn_task_self]
      exact h)
  rw [Threads.goOn_goOn] at hrun
  exact ⟨as, .cons ⟨hcall, .inl ⟨c, rfl⟩, by rwa [hidle]⟩ hrun, has⟩

theorem exists_run_of_call {s : GicSys ι} {t : Party ι} {c : Call} {m : Machine} {k : Task}
    (hidle : s.task t = .idle) (hallowed : c.Allowed s.shared.gic t.self)
    (h : Task.Alone t.self (s.shared, c.start) (m, k)) :
    ∃ as, Run Step s (.call t c :: as) (s.goOn t m k) ∧ ∀ a ∈ as, ∃ route, a = .next t route := by
  obtain ⟨as, hrun, has⟩ := exists_run_of_call_of (P := fun _ => True) hidle hallowed trivial
    trivial (fun _ _ => trivial) h
  exact ⟨as, hrun.mono fun _ _ _ hstep => hstep.1, has⟩

end GicSys

end Vml
