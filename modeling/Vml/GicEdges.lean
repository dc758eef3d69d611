import Vml.GicUninterrupted
import Vml.GicVisible

/-!
# No edge is lost

An edge that is asserted makes the interrupt pending under the number of a sender, which for all but
SGIs without affinity routing is 0. It waits until a vCPU injects it: until then its sender is
pending and not injected, also while an earlier edge of the same sender is in injection, since an
assertion takes back that the sender is injected.

**Carriers.** Assertions of PPIs and SPIs, and a re-routing, store the info anew: the edges that
waited are merged into one of sender 0, which carries them on. No other turn changes the sender.

**Steps.** A turn takes the waiting edge of a sender only if it injects that sender itself, or
withdraws it (`Takes`). The completion of an earlier edge takes none.

**The scan.** So when no operation on the interrupt is in progress, its bit is set for every vCPU
that it targets. The scan of that vCPU still comes to it only if the interrupt is not the last line,
or has a bit set below it.

Main result: `edge_visible_iff`.
-/

namespace Vml

/-! ## Edges -/

namespace IrqInjectionInfo

/-- The edge of the sender waits to be injected. -/
def Waits (i : IrqInjectionInfo) (sender : ℕ) : Prop :=
  sender ∈ i.pendingBits ∧ sender ∉ i.injectedBits

variable {i i' : IrqInjectionInfo} {sender : ℕ}

instance : Decidable (i.Waits sender) := inferInstanceAs (Decidable (_ ∧ _))

theorem Waits.pending (h : i.Waits sender) : i.pending = true :=
  bne_iff_ne.2 (Finset.ne_empty_of_mem h.1)

theorem waits_asserted (target : IrqTarget) : (asserted target).Waits 0 :=
  ⟨Finset.mem_singleton_self 0, Finset.notMem_empty 0⟩

theorem Waits.unsetInjected (h : i.Waits sender) (other : ℕ) : (i.unsetInjected other).Waits sender :=
  ⟨h.1, fun hinj => h.2 (Finset.mem_of_mem_erase hinj)⟩

theorem Waits.unsetPending (h : i.Waits sender) {other : ℕ} (hne : other ≠ sender) :
    (i.unsetPending other).Waits sender := ⟨Finset.mem_erase.2 ⟨hne.symm, h.1⟩, h.2⟩

theorem waits_sentBy (i : IrqInjectionInfo) (sender target : ℕ) :
    (i.sentBy sender target).Waits sender :=
  ⟨Finset.mem_insert_self .., fun hinj => (Finset.mem_erase.1 hinj).1 rfl⟩

theorem Waits.sentBy (h : i.Waits sender) (other target : ℕ) :
    (i.sentBy other target).Waits sender :=
  ⟨Finset.mem_insert_of_mem h.1, fun hinj => h.2 (Finset.mem_of_mem_erase hinj)⟩

theorem Waits.injected {v : ℕ} (h : i.Waits sender) (hinjected : i.injected v = some i')
    (hne : i.getPendingSenderId ≠ sender) : i'.Waits sender := by
  rw [IrqInjectionInfo.injected] at hinjected
  split_ifs at hinjected
  rw [← Option.some.inj hinjected]
  refine ⟨h.1, fun hinj => ?_⟩
  obtain heq | hmem := Finset.mem_insert.1 hinj
  · exact hne heq.symm
  · exact h.2 hmem

theorem Waits.ne_of_injected {other : ℕ} (h : i.Waits sender)
    (hinjected : i.getInjectedSenderId = some other) : other ≠ sender := by
  have hmem := List.find?_some hinjected
  rw [decide_eq_true_iff] at hmem
  rintro rfl
  exact h.2 hmem

theorem Waits.completed {v : ℕ} (h : i.Waits sender) (hcompleted : i.completed v = some i') :
    i'.Waits sender := by
  rw [IrqInjectionInfo.completed] at hcompleted
  split at hcompleted
  · cases hcompleted
  · rename_i other hinjected
    split_ifs at hcompleted
    rw [← Option.some.inj hcompleted]
    exact (h.unsetInjected other).unsetPending (h.ne_of_injected hinjected)

theorem Waits.cameBack {v : ℕ} {state : IrqState} {inInjection : Bool} (h : i.Waits sender)
    (hback : i.cameBack v state inInjection = some i') : i'.Waits sender := by
  rw [IrqInjectionInfo.cameBack] at hback
  split at hback
  · cases hback
  · rename_i other hinjected
    have hkept : (if inInjection then i else i.unsetInjected other).Waits sender := by
      split_ifs
      · exact h
      · exact h.unsetInjected other
    by_cases htarget : (!i.isTargetingCpu v) = true
    · rw [if_pos htarget] at hback
      cases hback
    · rw [if_neg htarget] at hback
      rw [← Option.some.inj hback]
      by_cases hactive : state = .active
      · rw [if_pos hactive]
        exact hkept.unsetPending (h.ne_of_injected hinjected)
      · rw [if_neg hactive]
        exact hkept

theorem Waits.updated {v : ℕ} {state : IrqState} {inInjection : Bool} (h : i.Waits sender)
    (hupdated : i.updated v state inInjection = some i') : i'.Waits sender := by
  cases state with
  | inactive => exact h.completed hupdated
  | pending | active | activePending => exact h.cameBack hupdated

end IrqInjectionInfo

/-! ## What a turn does with an edge -/

namespace Task

open GicD

variable {self : Option ℕ} {route : IrqTarget} {m m' : Machine} {task task' : Task}
  {owner id sender : ℕ}

/-- The turn asserts an edge of the sender: it stores the info of `assert_pi`, or its comparison in
`assert_sgi` succeeds. -/
def Asserts (m : Machine) (owner id sender : ℕ) : Task → Prop
  | .assertPi o x _ => x = id ∧ Shares id owner o ∧ sender = 0
  | .cas (.assertSgi other _ o x) cur _ =>
      x = id ∧ Shares id owner o ∧ (m.gic.irqObject o x).injectionInfo = cur ∧ other = sender
  | _ => False

/-- The turn stores the info anew, and merges the edges into one. -/
def Merges (m : Machine) (owner id : ℕ) : Task → Prop
  | .assertPi o x _ => x = id ∧ Shares id owner o
  | .cas (.redirectSpi x target) cur _ =>
      x = id ∧ Shares id owner 0 ∧ (m.gic.irqObject 0 x).injectionInfo = cur ∧
        (cur.redirected target).isSome
  | _ => False

/-- The turn takes the waiting edge of the sender: `pending_irq` injects it, or `deassert_pi` or
`deassert_sgi` withdraws it. -/
def Takes (self : Option ℕ) (m : Machine) (owner id sender : ℕ) : Task → Prop
  | .deassertPi o x => x = id ∧ Shares id owner o
  | .cas (.deassertSgi other o x) cur _ =>
      x = id ∧ Shares id owner o ∧ (m.gic.irqObject o x).injectionInfo = cur ∧ other = sender
  | .cas (.pendingIrq x) cur _ =>
      ∃ v, self = some v ∧ x = id ∧ Shares id owner v ∧
        (m.gic.irqObject v x).injectionInfo = cur ∧ (cur.injected v).isSome ∧
        cur.getPendingSenderId = sender
  | _ => False

/-- What a turn stores as an injection info is what it becomes. -/
theorem injectionInfo_of_writes (h : task.next self route m = some (m', task')) {o : ℕ}
    {info : IrqInjectionInfo} (hwrites : task.Writes self m o id info)
    (hshares : Shares id owner o) : (m'.gic.irqObject owner id).injectionInfo = info := by
  have hstored {x : IrqInjectionInfo} :
      ((m.setInfo o id x).gic.irqObject owner id).injectionInfo = x := by
    rw [Machine.setInfo, setInfo_injectionInfo, if_pos ⟨rfl, hshares⟩]
  cases task with
  | assertPi o' x target =>
      obtain ⟨rfl, rfl, rfl⟩ := hwrites
      cases h
      exact hstored
  | deassertPi o' x =>
      obtain ⟨rfl, rfl, rfl⟩ := hwrites
      cases h
      exact hstored
  | cas u cur k =>
      obtain ⟨rfl, rfl, hdesired, hcur⟩ := hwrites
      simp only [next, hdesired, if_pos hcur] at h
      cases h
      exact hstored
  | _ => exact hwrites.elim

/-- **An edge that is asserted waits.** -/
theorem waits_of_asserts (h : task.next self route m = some (m', task'))
    (hasserts : task.Asserts m owner id sender) :
    (m'.gic.irqObject owner id).injectionInfo.Waits sender := by
  cases task with
  | assertPi o x target =>
      obtain ⟨rfl, hshares, rfl⟩ := hasserts
      rw [injectionInfo_of_writes h ⟨rfl, rfl, rfl⟩ hshares]
      exact IrqInjectionInfo.waits_asserted target
  | cas u cur k =>
      cases u with
      | assertSgi other target o x =>
          obtain ⟨rfl, hshares, hcur, rfl⟩ := hasserts
          have hinfo : (m'.gic.irqObject owner x).injectionInfo = cur.sentBy other target :=
            injectionInfo_of_writes h ⟨rfl, rfl, rfl, hcur⟩ hshares
          rw [hinfo]
          exact cur.waits_sentBy other target
      | _ => exact hasserts.elim
  | _ => exact hasserts.elim

/-- A turn that merges the edges leaves one of sender 0. -/
theorem waits_of_merges (h : task.next self route m = some (m', task'))
    (hmerges : task.Merges m owner id) :
    (m'.gic.irqObject owner id).injectionInfo.Waits 0 := by
  cases task with
  | assertPi o x target =>
      obtain ⟨rfl, hshares⟩ := hmerges
      rw [injectionInfo_of_writes h ⟨rfl, rfl, rfl⟩ hshares]
      exact IrqInjectionInfo.waits_asserted target
  | cas u cur k =>
      cases u with
      | redirectSpi x target =>
          obtain ⟨rfl, hshares, hcur, hsome⟩ := hmerges
          obtain ⟨info, hredirected⟩ := Option.isSome_iff_exists.1 hsome
          have hinfo : (m'.gic.irqObject owner x).injectionInfo = info :=
            injectionInfo_of_writes h ⟨rfl, rfl, hredirected, hcur⟩ hshares
          rw [IrqInjectionInfo.redirected] at hredirected
          split_ifs at hredirected
          rw [hinfo, ← Option.some.inj hredirected]
          exact IrqInjectionInfo.waits_asserted target
      | _ => exact hmerges.elim
  | _ => exact hmerges.elim

/-- **What a turn leaves waiting**: the edge of a sender, if the turn neither takes it nor merges the
edges. -/
theorem waits_of_next (h : task.next self route m = some (m', task'))
    (hwaits : (m.gic.irqObject owner id).injectionInfo.Waits sender)
    (htakes : ¬task.Takes self m owner id sender) (hmerges : ¬task.Merges m owner id) :
    (m'.gic.irqObject owner id).injectionInfo.Waits sender := by
  obtain heq | ⟨o, info, hwrites, hshares, hinfo⟩ := injectionInfo_of_next h owner id
  · rw [heq]
    exact hwaits
  rw [hinfo]
  rw [irqObject_eq_of_shares hshares] at hwaits
  cases task with
  | assertPi o' x target =>
      obtain ⟨rfl, rfl, rfl⟩ := hwrites
      exact absurd ⟨rfl, hshares⟩ hmerges
  | deassertPi o' x =>
      obtain ⟨rfl, rfl, rfl⟩ := hwrites
      exact absurd ⟨rfl, hshares⟩ htakes
  | cas u cur k =>
      obtain ⟨howner, hid, hdesired, hcur⟩ := hwrites
      rw [hcur] at hwaits
      cases u with
      | assertSgi other target o' x =>
          cases hdesired
          exact hwaits.sentBy other target
      | deassertSgi other o' x =>
          cases howner
          cases hid
          cases hdesired
          refine (hwaits.unsetInjected other).unsetPending fun hother => htakes ?_
          exact ⟨rfl, hshares, hcur, hother⟩
      | redirectSpi x target =>
          cases howner
          cases hid
          exact absurd ⟨rfl, hshares, hcur, Option.isSome_of_eq_some hdesired⟩ hmerges
      | pendingIrq x =>
          obtain ⟨v, hself, hinjected⟩ := Option.bind_eq_some_iff.1 hdesired
          obtain rfl : v = o := by
            rw [← howner, Update.owner, hself]
            rfl
          cases hid
          refine hwaits.injected hinjected fun hother => htakes ?_
          exact ⟨v, hself, rfl, hshares, hcur, Option.isSome_of_eq_some hinjected, hother⟩
      | updateInjStatus x state inInjection =>
          obtain ⟨v, -, hupdated⟩ := Option.bind_eq_some_iff.1 hdesired
          exact hwaits.updated hupdated
  | _ => exact hwrites.elim

end Task

/-! ## Runs -/

namespace GicSys

open GicD

variable {ι : Type*}

/-- The injection info of an interrupt. -/
def info (s : GicSys ι) (owner id : ℕ) : IrqInjectionInfo :=
  (s.shared.gic.irqObject owner id).injectionInfo

/-- The step takes the waiting edge of the sender. -/
def Takes (s : GicSys ι) (owner id sender : ℕ) : GicAct ι → Prop
  | .next t _ => (s.task t).Takes t.self s.shared owner id sender
  | _ => False

/-- The step merges the edges into one. -/
def Merges (s : GicSys ι) (owner id : ℕ) : GicAct ι → Prop
  | .next t _ => (s.task t).Merges s.shared owner id
  | _ => False

/-- A step that does not take the waiting edge of a sender, and the sender that carries it on. -/
structure EdgeStep [DecidableEq ι] (owner id : ℕ) (p : GicSys ι × ℕ) (a : GicAct ι)
    (p' : GicSys ι × ℕ) : Prop where
  step : Step p.1 a p'.1
  spared : ¬Takes p.1 owner id p.2 a
  merged : Merges p.1 owner id a → p'.2 = 0
  kept : ¬Merges p.1 owner id a → p'.2 = p.2

/-- **A step that does not take the edge** leaves it waiting. -/
theorem waits_step [DecidableEq ι] {owner id : ℕ} {p p' : GicSys ι × ℕ} {a : GicAct ι}
    (hwaits : (p.1.info owner id).Waits p.2) (h : EdgeStep owner id p a p') :
    (p'.1.info owner id).Waits p'.2 := by
  obtain ⟨hstep, hspared, hmerged, hkept⟩ := h
  obtain ⟨s, sender⟩ := p
  obtain ⟨s', sender'⟩ := p'
  cases a with
  | next t route =>
      obtain ⟨m', k, hnext, heq⟩ := hstep
      cases heq
      by_cases hmerges : (s.task t).Merges s.shared owner id
      · cases hmerged hmerges
        exact Task.waits_of_merges hnext hmerges
      · cases hkept hmerges
        exact Task.waits_of_next hnext hwaits hspared hmerges
  | call t c =>
      obtain ⟨-, -, heq⟩ := hstep
      cases heq
      cases hkept not_false
      exact hwaits
  | store t g =>
      obtain ⟨-, hsame, heq⟩ := hstep
      cases heq
      cases hkept not_false
      show (g.irqObject owner id).injectionInfo.Waits sender
      rw [hsame.injectionInfo]
      exact hwaits
  | timeout v =>
      obtain ⟨-, heq⟩ := hstep
      cases heq
      cases hkept not_false
      exact hwaits
  | switch v state =>
      obtain ⟨-, -, heq⟩ := hstep
      cases heq
      cases hkept not_false
      exact hwaits
  | requestDump v on =>
      cases hstep
      cases hkept not_false
      exact hwaits

/-- **A run whose steps do not take the edge** leaves it waiting. -/
theorem waits_run [DecidableEq ι] {owner id : ℕ} {p p' : GicSys ι × ℕ} {as : List (GicAct ι)}
    (hwaits : (p.1.info owner id).Waits p.2) (h : Run (EdgeStep owner id) p as p') :
    (p'.1.info owner id).Waits p'.2 :=
  @Run.invariant _ _ _ (fun p => (p.1.info owner id).Waits p.2) _ _ _
    (fun _ _ _ hp hstep => waits_step hp hstep) h hwaits

/-! ## What the scan sees -/

/-- No edge of the interrupt is lost. -/
structure KeepsEdges [DecidableEq ι] (s : GicSys ι) (owner id : ℕ) : Prop where
  /-- An edge waits when a turn has asserted it. -/
  asserted : ∀ t route s' sender, Step s (.next t route) s' →
    (s.task t).Asserts s.shared owner id sender → (s'.info owner id).Waits sender
  /-- An edge that waits does so until a step takes it. -/
  waiting : ∀ bs s' sender sender', (s.info owner id).Waits sender →
    Run (EdgeStep owner id) (s, sender) bs (s', sender') → (s'.info owner id).Waits sender'
  /-- When no operation is in progress, one of the bits is set for every vCPU that is targeted. -/
  bits : (∀ t, ¬On t.self owner id (s.task t)) → (s.info owner id).pending = true →
    (s.info owner id).target.isValid = true → ∀ v < s.shared.gic.numVcpus,
      (s.info owner id).isTargetingCpu v = true →
        (s.shared.gic.bank v).pendingIrqs id = true ∨
          (s.shared.gic.bank v).inInjectionIrqs id = true

/-- The scan of the vCPU comes to the line: it is not the last one, or has a bit set below it. -/
def Comes (g : GicD) (v id : ℕ) : Prop :=
  id + 1 < g.configuredIrqs ∨ ∃ x < id, (g.bank v).pendingIrqs x = true

/-- **An edge stays visible until it is injected** exactly if the scan comes to its line. In every
run, no edge is lost, and when no operation on the interrupt is in progress, and one of its edges
waits, then the scan of every vCPU that it targets sees it or the vCPU has it still in injection,
unless the line is the last one and has no bit set below it. -/
theorem edge_visible_iff [DecidableEq ι] {m : Machine} (hfresh : m.gic.Fresh)
    {as : List (GicAct ι)} {s : GicSys ι} (hrun : Run Step (start m) as s)
    (hsend : ∀ a ∈ as, SendsSgi a) (hnum : s.shared.gic.numVcpus ≤ 2 ^ 16)
    (hlimit : s.shared.gic.configuredIrqs ≤ maxIrqNoLpi) {owner id : ℕ}
    (howner : owner < s.shared.gic.numVcpus) (hid : id < s.shared.gic.configuredIrqs) :
    s.KeepsEdges owner id ∧
      ((∀ t, ¬On t.self owner id (s.task t)) → ∀ sender, (s.info owner id).Waits sender →
        (s.info owner id).target.isValid = true → ∀ v < s.shared.gic.numVcpus,
          (s.info owner id).isTargetingCpu v = true →
            ((s.shared.gic.bank v).inInjectionIrqs id = true ∨ id ∈ s.shared.gic.scanned v ↔
              (s.shared.gic.bank v).inInjectionIrqs id = true ∨ Comes s.shared.gic v id)) := by
  have hbits (hquiet : ∀ t, ¬On t.self owner id (s.task t)) :=
    pending_visible hfresh hrun hsend hnum howner hquiet
  refine ⟨⟨?_, fun bs s' sender sender' => waits_run (p := (s, sender)), hbits⟩, ?_⟩
  · rintro t route s' sender ⟨m', k, hnext, rfl⟩ hasserts
    exact Task.waits_of_asserts hnext hasserts
  · intro hquiet sender hwaits hvalid v hv hcpu
    rw [mem_scanned_iff hlimit hid, Comes]
    cases hinj : (s.shared.gic.bank v).inInjectionIrqs id with
    | true => exact iff_of_true (.inl rfl) (.inl rfl)
    | false =>
        have hset : (s.shared.gic.bank v).pendingIrqs id = true := by
          obtain hset | hinj' := hbits hquiet hwaits.pending hvalid v hv hcpu
          · exact hset
          · exact absurd (hinj.symm.trans hinj') Bool.false_ne_true
        rw [hset]
        simp only [true_and]

/-! ## Two lines of a small GIC -/

/-- Group 0 is enabled. -/
def ctlrGic : GicD := ((init .gicV3 2 64).mmioWrite 0 0x0 4 1).2

/-- The SPIs are enabled as well. -/
def spiGic : GicD := (ctlrGic.mmioWrite 0 0x104 4 0xffffffff).2

theorem sameAtomics_spiGic : (init .gicV3 2 64).SameAtomics spiGic :=
  (sameAtomics_writeCtlr _ 0 4 1 : (init .gicV3 2 64).SameAtomics ctlrGic).trans
    (ctlrGic.sameAtomics_mmioWrite_isenabler 0 0xffffffff)

/-- The machine after that. -/
def spiStart : GicSys Unit :=
  (start { gic := init .gicV3 2 64 }).goOn (.vcpu 0) { gic := spiGic } .idle

theorem run_spiStart :
    Run Step (start { gic := init .gicV3 2 64 }) [.store (.vcpu 0) spiGic] spiStart :=
  .snoc .nil ⟨rfl, sameAtomics_spiGic, rfl⟩

theorem quiet_goOn {s : GicSys Unit} {id : ℕ} (h : ∀ t, ¬On t.self 0 id (s.task t)) (t : Party Unit)
    (m : Machine) (u : Party Unit) : ¬On u.self 0 id ((s.goOn t m .idle).task u) :=
  Threads.forall_goOn (P := fun (t : Party Unit) task => ¬On t.self 0 id task) (p := .idle) h
    (fun hon => hon) u

theorem quiet_spiStart (id : ℕ) (t : Party Unit) : ¬On t.self 0 id (spiStart.task t) :=
  quiet_goOn (s := start { gic := init .gicV3 2 64 }) (fun _ hon => hon) (.vcpu 0) _ t

theorem forall_sendsSgi {t : Party Unit} {c : Call} {as : List (GicAct Unit)}
    (hc : SendsSgi (.call t c)) (has : ∀ a ∈ as, ∃ route, a = .next t route) :
    ∀ a ∈ .call t c :: as, SendsSgi a := by
  refine List.forall_mem_cons.2 ⟨hc, fun a ha => ?_⟩
  obtain ⟨route, rfl⟩ := has a ha
  trivial

/-- The SPI is asserted. -/
def raisedSpi (g : GicD) (id : ℕ) : GicD :=
  let target := g.routeSpi (g.irqObject 0 id) 0
  ((g.setInfo 0 id (.asserted target)).notifyTarget id target).2

theorem exists_run_raisedSpi {s : GicSys Unit} (id : ℕ) (hidle : s.task (.device ()) = .idle)
    (hid : id < s.shared.gic.configuredIrqs) (hspi : spiBase ≤ id) :
    ∃ as, Run Step s as
      (s.goOn (.device ()) { s.shared with gic := raisedSpi s.shared.gic id } .idle) ∧
      ∀ a ∈ as, SendsSgi a := by
  obtain ⟨as, hrun, has⟩ := exists_run_of_call (s := s) (t := .device ())
    (c := .assertPi 0 id (s.shared.gic.routeSpi (s.shared.gic.irqObject 0 id) 0)) hidle
    ⟨hid, fun hlt => absurd hspi (Nat.not_le.2 hlt)⟩ (Task.alone_assertPi _ 0 id _)
  exact ⟨_, hrun, forall_sendsSgi trivial has⟩

/-- Only the last line is pending. Its edge waits and its bit is set, and the scan passes it. -/
theorem last_line_unseen : ∃ (as : List (GicAct Unit)) (s : GicSys Unit),
    Run Step (start { gic := init .gicV3 2 64 }) as s ∧ (∀ a ∈ as, SendsSgi a) ∧
      (∀ t, ¬On t.self 0 63 (s.task t)) ∧ (s.info 0 63).Waits 0 ∧
        (s.info 0 63).target.isValid = true ∧ (s.info 0 63).isTargetingCpu 0 = true ∧
          (s.shared.gic.bank 0).pendingIrqs 63 = true ∧
            (s.shared.gic.bank 0).inInjectionIrqs 63 = false ∧ 63 ∉ s.shared.gic.scanned 0 ∧
              (s.shared.gic.highestIrq 0 false).1 = none := by
  obtain ⟨as, hrun, has⟩ := exists_run_raisedSpi (s := spiStart) 63 rfl
    (by decide +kernel) (by decide)
  refine ⟨_, _, run_spiStart.append hrun, ?_, ?_, by decide +kernel, by decide +kernel,
    by decide +kernel, by decide +kernel, by decide +kernel, by decide +kernel, by decide +kernel⟩
  · intro a ha
    obtain ha | ha := List.mem_append.1 ha
    · cases List.mem_singleton.1 ha
      trivial
    · exact has a ha
  · exact quiet_goOn (quiet_spiStart 63) _ _

/-- The points in `update_inj_status`. -/
def Completes : Task → Prop
  | .idle | .clrInInjection _ _ _ | .read (.updateInjStatus _ _ _) .idle
  | .cas (.updateInjStatus _ _ _) _ .idle | .checkPending _ | .setPending _ => True
  | _ => False

theorem Completes.next {self : Option ℕ} {route : IrqTarget} {m m' : Machine} {task task' : Task}
    (h : Completes task) (hnext : task.next self route m = some (m', task')) :
    Completes task' := by
  cases task with
  | clrInInjection id state inInjection =>
      obtain ⟨v, -, hv⟩ := Option.bind_eq_some_iff.1 hnext
      cases hv
      trivial
  | checkPending id =>
      obtain ⟨v, -, hv⟩ := Option.bind_eq_some_iff.1 hnext
      cases hv
      split_ifs <;> trivial
  | setPending id =>
      obtain ⟨v, -, hv⟩ := Option.bind_eq_some_iff.1 hnext
      cases hv
      trivial
  | read u k =>
      cases u with
      | updateInjStatus id state inInjection =>
          cases k with
          | idle =>
              cases hnext
              split_ifs <;> trivial
          | _ => exact h.elim
      | _ => exact h.elim
  | cas u cur k =>
      cases u with
      | updateInjStatus id state inInjection =>
          cases k with
          | idle =>
              simp only [Task.next] at hnext
              split at hnext
              · cases hnext
              · split_ifs at hnext <;> cases hnext <;> trivial
          | _ => exact h.elim
      | _ => exact h.elim
  | idle => cases hnext
  | _ => exact h.elim

theorem Completes.edgeStep {ι : Type*} [DecidableEq ι] {s s' : GicSys ι} {t : Party ι}
    {a : GicAct ι} (h : Completes (s.task t)) (ha : Makes t a) (hstep : Step s a s')
    (owner id sender : ℕ) : EdgeStep owner id (s, sender) a (s', sender) := by
  have hnot : ¬Takes s owner id sender a ∧ ¬Merges s owner id a := by
    obtain ⟨c, rfl⟩ | ⟨route, rfl⟩ := ha
    · exact ⟨not_false, not_false⟩
    · rw [Takes, Merges]
      generalize s.task t = task at h ⊢
      cases task with
      | assertPi o x target => exact h.elim
      | deassertPi o x => exact h.elim
      | cas u cur k =>
          cases u with
          | updateInjStatus x state inInjection => exact ⟨not_false, not_false⟩
          | _ => exact h.elim
      | _ => exact ⟨not_false, not_false⟩
  exact ⟨hstep, hnot.1, fun hmerges => absurd hmerges hnot.2, fun _ => rfl⟩

theorem exists_run_completed {s : GicSys Unit} (id : ℕ) (hidle : s.task (.vcpu 0) = .idle)
    (hid : id < s.shared.gic.configuredIrqs) (hnum : 0 < s.shared.gic.numVcpus) :
    ∃ as, Run (EdgeStep 0 id) (s, 0) as (s.goOn (.vcpu 0)
        { s.shared with gic := s.shared.gic.updateInjStatus 0 id .inactive false } .idle, 0) ∧
      Run Step s as (s.goOn (.vcpu 0)
        { s.shared with gic := s.shared.gic.updateInjStatus 0 id .inactive false } .idle) ∧
      ∀ a ∈ as, SendsSgi a := by
  obtain ⟨as, hrun, has⟩ := exists_run_of_call_of (P := Completes) (s := s) (t := .vcpu 0)
    (c := .updateInjStatus id .inactive false) hidle
    ⟨hid, fun _ => .inr rfl, 0, hnum, rfl⟩ trivial trivial Completes.next
    (Task.alone_updateInjStatus s.shared 0 id .inactive false)
  refine ⟨_, hrun.map (fun s => (s, 0)) fun _ _ _ hstep => ?_, hrun.mono fun _ _ _ h => h.1,
    forall_sendsSgi trivial has⟩
  exact hstep.2.2.edgeStep hstep.2.1 hstep.1 0 id 0

theorem exists_run_taken {s : GicSys Unit} (hidle : s.task (.vcpu 0) = .idle)
    (hconf : s.shared.gic.configuredIrqs ≤ maxIrqNoLpi) (hpos : 0 < s.shared.gic.configuredIrqs)
    (hnum : 0 < s.shared.gic.numVcpus) :
    ∃ as, Run Step s as (s.goOn (.vcpu 0)
        { s.shared with gic := (s.shared.gic.pendingIrq 0 0xff).2 } .idle) ∧
      ∀ a ∈ as, SendsSgi a := by
  obtain ⟨as, hrun, has⟩ := exists_run_of_call (s := s) (t := .vcpu 0) (c := .pendingIrq 0xff) hidle
    ⟨0, hnum, rfl⟩ (Task.alone_pendingIrq s.shared hconf hpos 0xff)
  exact ⟨_, hrun, forall_sendsSgi trivial has⟩

/-! ## An edge that comes while another one is in injection -/

/-- SPI 32 is asserted. -/
def spiRaised : GicSys Unit := spiStart.goOn (.device ()) { gic := raisedSpi spiGic 32 } .idle

/-- vCPU 0 has taken it. -/
def spiTaken : GicSys Unit :=
  spiRaised.goOn (.vcpu 0) { gic := ((raisedSpi spiGic 32).pendingIrq 0 0xff).2 } .idle

/-- It is asserted again. -/
def spiRaisedAgain : GicSys Unit :=
  spiTaken.goOn (.device ()) { gic := raisedSpi spiTaken.shared.gic 32 } .idle

/-- vCPU 0 has completed the first. -/
def spiCompleted : GicSys Unit :=
  spiRaisedAgain.goOn (.vcpu 0)
    { gic := spiRaisedAgain.shared.gic.updateInjStatus 0 32 .inactive false } .idle

theorem exists_run_spiRaisedAgain : ∃ as, Run Step (start { gic := init .gicV3 2 64 }) as
    spiRaisedAgain ∧ ∀ a ∈ as, SendsSgi a := by
  obtain ⟨as, hassert, hsend₀⟩ := exists_run_raisedSpi (s := spiStart) 32 rfl
    (by decide +kernel) (by decide)
  obtain ⟨bs, htake, hsend₁⟩ := exists_run_taken (s := spiRaised) rfl (by decide +kernel)
    (by decide +kernel) (by decide +kernel)
  obtain ⟨cs, hagain, hsend₂⟩ := exists_run_raisedSpi (s := spiTaken) 32 rfl (by decide +kernel)
    (by decide)
  refine ⟨_, ((run_spiStart.append hassert).append htake).append hagain, ?_⟩
  simp only [List.mem_append, List.mem_singleton]
  rintro a (((rfl | ha) | ha) | ha)
  · trivial
  · exact hsend₀ a ha
  · exact hsend₁ a ha
  · exact hsend₂ a ha

theorem quiet_spiCompleted (t : Party Unit) : ¬On t.self 0 32 (spiCompleted.task t) :=
  quiet_goOn (quiet_goOn (quiet_goOn (quiet_goOn (quiet_spiStart 32) _ _) _ _) _ _) _ _ t

/-- SPI 32 is asserted, vCPU 0 takes it, it is asserted again and vCPU 0 completes the first: the
second edge has waited, and the scan sees it. -/
theorem edge_visible_spi : ∃ (as bs : List (GicAct Unit)) (s s' : GicSys Unit),
    Run Step (start { gic := init .gicV3 2 64 }) as s ∧
      (s.shared.gic.bank 0).inInjectionIrqs 32 = true ∧ (s.info 0 32).Waits 0 ∧
        Run (EdgeStep 0 32) (s, 0) bs (s', 0) ∧ (s'.info 0 32).Waits 0 ∧
          (s'.shared.gic.bank 0).inInjectionIrqs 32 = false ∧ 32 ∈ s'.shared.gic.scanned 0 := by
  obtain ⟨as, hrun, hsend⟩ := exists_run_spiRaisedAgain
  obtain ⟨bs, hedge, hcomplete, hsend'⟩ := exists_run_completed (s := spiRaisedAgain) 32 rfl
    (by decide +kernel) (by decide +kernel)
  have hrun' : Run Step (start { gic := init .gicV3 2 64 }) (as ++ bs) spiCompleted :=
    hrun.append hcomplete
  have hsends : ∀ a ∈ as ++ bs, SendsSgi a := fun a ha =>
    (List.mem_append.1 ha).elim (hsend a) (hsend' a)
  have hwaits : (spiCompleted.info 0 32).Waits 0 :=
    (@edge_visible_iff Unit _ _ (fresh_init ..) _ _ hrun hsend (by decide +kernel)
      (by decide +kernel) 0 32 (by decide +kernel) (by decide +kernel)).1.waiting bs spiCompleted 0
      0 (by decide +kernel) hedge
  have hscan := (@edge_visible_iff Unit _ _ (fresh_init ..) _ _ hrun' hsends (by decide +kernel)
    (by decide +kernel) 0 32 (by decide +kernel) (by decide +kernel)).2 quiet_spiCompleted 0 hwaits
    (by decide +kernel) 0 (by decide +kernel) (by decide +kernel)
  refine ⟨as, bs, spiRaisedAgain, spiCompleted, hrun, by decide +kernel, by decide +kernel, hedge,
    hwaits, by decide +kernel, ?_⟩
  exact (hscan.2 (.inr (.inl (by decide +kernel)))).resolve_left (by decide +kernel)

end GicSys

end Vml
