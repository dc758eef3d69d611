import Vml.GicRun
import Vml.GicScan

/-!
# Level-triggered interrupts

Whether an interrupt is pending is kept in three places: the line, the bit that the guest sets, and
the injection info. When the guest is done with a level-triggered interrupt,
`update_inj_status_inactive` takes the pending bit out of the injection info, and sets the bit in
`pending_irqs` again if the interrupt is pending in any of the three. `highest_irq` looks at the
injection info only.

So an interrupt whose line stays asserted is not delivered again, unless the line has been asserted
once more since the interrupt was injected: then the injection info is new, and the completion
leaves it alone (`AssertedSince`).

**Senders.** The injection info of an interrupt other than an SGI has no other sender than 0
(`SenderZero`). This is what makes its pending bit go with its injected bit.

Main results: `level_redelivered_iff` and `level_forgotten`.
-/

namespace Vml

/-! ## Senders -/

/-- There is no other sender than 0. -/
structure IrqInjectionInfo.SenderZero (i : IrqInjectionInfo) : Prop where
  pendingBits : i.pendingBits ⊆ {0}
  injectedBits : i.injectedBits ⊆ {0}

namespace IrqInjectionInfo

variable {i : IrqInjectionInfo}

theorem SenderZero.empty : SenderZero {} := ⟨Finset.empty_subset _, Finset.empty_subset _⟩

theorem SenderZero.asserted (target : IrqTarget) : (IrqInjectionInfo.asserted target).SenderZero :=
  ⟨Finset.Subset.refl _, Finset.empty_subset _⟩

theorem SenderZero.getPendingSenderId (h : i.SenderZero) : i.getPendingSenderId = 0 := by
  rw [IrqInjectionInfo.getPendingSenderId]
  cases hfind : (List.range gicv2MaxCpus).find? (· ∈ i.pendingBits) with
  | none => rfl
  | some s =>
      have hs := List.find?_some hfind
      rw [decide_eq_true_eq] at hs
      exact Finset.mem_singleton.1 (h.pendingBits hs)

theorem SenderZero.getInjectedSenderId (h : i.SenderZero) :
    i.getInjectedSenderId = if i.isInjected 0 then some 0 else none := by
  rw [IrqInjectionInfo.getInjectedSenderId, isInjected]
  by_cases h0 : 0 ∈ i.injectedBits
  · have hrange : List.range gicv2MaxCpus = 0 :: [1, 2, 3, 4, 5, 6, 7] := by decide
    have hdec : decide (0 ∈ i.injectedBits) = true := decide_eq_true h0
    rw [hrange, if_pos hdec, List.find?_cons_of_pos (p := (decide <| · ∈ i.injectedBits)) hdec]
  · rw [if_neg (by simpa using h0), List.find?_eq_none]
    intro s _ hs
    rw [decide_eq_true_eq] at hs
    rw [Finset.mem_singleton.1 (h.injectedBits hs)] at hs
    exact h0 hs

theorem SenderZero.injected (h : i.SenderZero) {cpu : ℕ} {i' : IrqInjectionInfo}
    (hi : i.injected cpu = some i') : i'.SenderZero := by
  rw [IrqInjectionInfo.injected] at hi
  split_ifs at hi
  rw [← Option.some.inj hi, setInjected, h.getPendingSenderId]
  exact ⟨h.pendingBits, Finset.insert_subset (Finset.mem_singleton_self 0) h.injectedBits⟩

theorem SenderZero.updated (h : i.SenderZero) {cpu : ℕ} {state : IrqState} {inInjection : Bool}
    {i' : IrqInjectionInfo} (hi : i.updated cpu state inInjection = some i') : i'.SenderZero :=
  ⟨(lowers_updated hi).pendingBits.trans h.pendingBits,
    (lowers_updated hi).injectedBits.trans h.injectedBits⟩

/-- What is not injected into `cpu` stays as it is, and what is injected is no longer pending. -/
theorem SenderZero.completed_getD (h : i.SenderZero) (cpu : ℕ) :
    if i.isInjected 0 = true ∧ i.isTargetingCpu cpu = true then
      ((i.completed cpu).getD i).pending = false
    else (i.completed cpu).getD i = i := by
  simp only [IrqInjectionInfo.completed, h.getInjectedSenderId]
  by_cases hinj : i.isInjected 0 = true
  · by_cases htarget : i.isTargetingCpu cpu = true
    · rw [if_pos ⟨hinj, htarget⟩, if_pos hinj]
      have hgone : i.pendingBits.erase 0 = ∅ := by
        rw [Finset.erase_eq_empty_iff]
        exact Finset.subset_singleton_iff.1 h.pendingBits
      simp [htarget, IrqInjectionInfo.pending, IrqInjectionInfo.unsetPending,
        IrqInjectionInfo.unsetInjected, hgone]
    · rw [if_neg fun h => htarget h.2, if_pos hinj]
      simp [htarget]
  · rw [if_neg fun h => hinj h.1, if_neg hinj]
    rfl

end IrqInjectionInfo

namespace GicD

/-- No interrupt but the SGIs has another sender than 0. -/
def SenderZero (g : GicD) : Prop :=
  ∀ cpu id, ppiBase ≤ id → (g.irqObject cpu id).injectionInfo.SenderZero

section Rule

variable {g g' : GicD} (h : g.SenderZero)

include h

theorem SenderZero.of_eq (heq : ∀ cpu id, (g'.irqObject cpu id).injectionInfo =
    (g.irqObject cpu id).injectionInfo) : g'.SenderZero := by
  intro cpu id hid
  rw [heq]
  exact h cpu id hid

theorem SenderZero.setInfo (cpu id : ℕ) {info : IrqInjectionInfo}
    (hinfo : ppiBase ≤ id → info.SenderZero) : (g.setInfo cpu id info).SenderZero := by
  intro c x hx
  rw [setInfo_irqObject]
  split_ifs with heq
  · exact hinfo (heq.1 ▸ hx)
  · exact h c x hx

theorem SenderZero.notifyTarget (id : ℕ) (target : IrqTarget) :
    (g.notifyTarget id target).2.SenderZero :=
  h.of_eq fun c x => by rw [(announced_notifyTarget g id target).irqObject]

theorem SenderZero.modifyIrq (cpu id : ℕ) {f : Irq → Irq}
    (hf : ∀ irq, (f irq).injectionInfo = irq.injectionInfo) :
    (g.modifyIrq cpu id f).SenderZero := by
  apply h.of_eq
  intro c x
  rw [modifyIrq_irqObject]
  split_ifs
  · exact hf _
  · rfl

theorem SenderZero.modifyBank (cpu : ℕ) {f : Banked → Banked} (hf : ∀ b, (f b).irq = b.irq) :
    (g.modifyBank cpu f).SenderZero :=
  h.of_eq fun c x => by rw [modifyBank_irqObject g cpu f hf]

theorem SenderZero.assertPi (cpuId owner id : ℕ) : (g.assertPi cpuId owner id).2.SenderZero := by
  have hbump : (if spiBase ≤ id then g.bumpHint else g).SenderZero := by
    split_ifs
    · exact h
    · exact h
  exact (hbump.setInfo owner id fun _ => .asserted _).notifyTarget id _

theorem SenderZero.deassertPi (owner id : ℕ) : (g.deassertPi owner id).2.SenderZero := by
  rw [GicD.deassertPi]
  exact keeps_ite (fun _ => h) fun _ => h.setInfo owner id fun _ => .empty

end Rule

@[simp] theorem modifyGicR_irqObject (g : GicD) (cpu : ℕ) (f : GicR → GicR) (c x : ℕ) :
    (g.modifyGicR cpu f).irqObject c x = g.irqObject c x :=
  g.modifyBank_irqObject cpu (fun b => { b with gicR := f b.gicR }) (fun _ => rfl) c x

/-- Register writes and lines bring no other sender than 0, except for SGIs. -/
theorem senderRule : CallRule SenderZero where
  store hg cpu id _ hf := hg.modifyIrq cpu id hf
  ctlr hg _ := hg
  propBaser hg _ := hg
  pendBaser hg _ := hg
  bumpHint hg := hg
  gicR hg cpu _ := hg.modifyBank cpu fun _ => rfl
  assertPi hg cpuId owner id := hg.assertPi cpuId owner id
  assertSgi hg sender target owner id hid := by
    rw [assertSgi]
    refine keeps_ite (fun _ => hg.assertPi target owner id) fun _ => ?_
    refine keeps_ite (fun _ => hg) fun _ => ?_
    exact (hg.setInfo owner id fun hle => absurd hid (Nat.not_lt.2 hle)).notifyTarget id _
  redirectSpi {g} hg id hint _ := by
    rw [redirectSpi]
    split
    · exact hg
    · rename_i info hinfo
      refine (hg.setInfo 0 id fun _ => ?_).notifyTarget id _
      rw [IrqInjectionInfo.redirected] at hinfo
      split_ifs at hinfo
      exact Option.some.inj hinfo ▸ .asserted _
  deassertPi hg owner id := hg.deassertPi owner id
  deassertSgi hg sender owner id hid := by
    rw [deassertSgi]
    refine keeps_ite (fun _ => hg.deassertPi owner id) fun _ => keeps_ite (fun _ => hg) fun _ => ?_
    exact hg.setInfo owner id fun hle => absurd hid (Nat.not_lt.2 hle)

theorem SenderZero.inject {g : GicD} (h : g.SenderZero) (v id : ℕ) :
    (g.inject v id).2.SenderZero := by
  rw [GicD.inject]
  split
  · exact h
  · rename_i info hinfo
    have hset := h.setInfo v id fun hid => (h v id hid).injected hinfo
    refine hset.of_eq fun c x => ?_
    rw [clrPendingIrq_irqObject, setInInjection_irqObject]

theorem reset_irqObject (g : GicD) (cpu : ℕ) {id : ℕ} (hid : ppiBase ≤ id) :
    g.reset.irqObject cpu id = g.irqObject cpu id ∨
      ∃ t, g.reset.irqObject cpu id = (g.irqObject cpu id).reset t := by
  simp only [irqObject, GicD.reset]
  split_ifs with hspi hcpu hshared
  · rw [resetBank]
    dsimp only
    rw [if_neg (Nat.not_lt.2 hid), if_pos hspi]
    exact .inr ⟨_, rfl⟩
  · exact .inl rfl
  · exact .inr ⟨1, rfl⟩
  · exact .inl rfl

theorem SenderZero.reset {g : GicD} (h : g.SenderZero) : g.reset.SenderZero := by
  intro cpu id hid
  obtain heq | ⟨t, heq⟩ := g.reset_irqObject cpu hid
  · rw [heq]
    exact h cpu id hid
  · rw [heq, Irq.reset]
    dsimp only
    split_ifs
    · exact h cpu id hid
    · exact .empty

theorem SenderZero.updateInjStatus {g : GicD} (h : g.SenderZero) (v id : ℕ) (state : IrqState)
    (inInjection : Bool) : (g.updateInjStatus v id state inInjection).SenderZero := by
  refine updateInjStatus_keeps h v id state inInjection ?_ ?_ ?_ ?_
  · exact h.modifyBank v fun _ => rfl
  · exact fun hg _ hf => hg.modifyIrq v id fun irq => (hf irq).1
  · exact fun hg hinfo => hg.setInfo v id fun hid => (hg v id hid).updated hinfo
  · exact fun hg => hg.modifyBank v fun _ => rfl

/-- **The senders after a call.** -/
theorem SenderZero.exec {g : GicD} (h : g.SenderZero) (op : GicOp) : (g.exec op).SenderZero := by
  refine exec_keeps senderRule h op ?_ ?_ ?_
  · exact fun v _ id _ _ hscan => hscan.inject v id
  · exact fun v id state inInjection _ => h.updateInjStatus v id state inInjection
  · exact fun _ => h.reset

/-- **The senders in a run.** -/
theorem senderZero_run {g t : GicD} {ops : List GicOp} (hg : g.Fresh)
    (h : Run (fun (g : GicD) op t => t = g.exec op) g ops t) : t.SenderZero := by
  refine @Run.invariant _ _ _ SenderZero _ _ _ ?_ h ?_
  · rintro g op _ hg rfl
    exact hg.exec op
  · intro cpu id _
    rw [hg.injectionInfo]
    exact .empty

/-! ## Completion -/

/-- The line of a level-triggered interrupt is asserted, and the guest lets the interrupt come. -/
structure LevelAsserted (g : GicD) (cpu id : ℕ) : Prop where
  hw : (g.irqObject cpu id).hw = false
  swEdge : (g.irqObject cpu id).swEdge = false
  lineAsserted : (g.irqObject cpu id).lineAsserted = true
  enable : (g.irqObject cpu id).enable = true
  groupEnabled : g.groupEnabled (g.irqObject cpu id) = true

/-- `highest_irq` considers the interrupt that `cpu` sees as `id`, on a vCPU it targets. -/
def Deliverable (g : GicD) (cpu id : ℕ) : Prop :=
  ∃ w < g.numVcpus, Shares id w cpu ∧ id ∈ g.scanned w ∧ g.considers w id = true

instance (g : GicD) (cpu id : ℕ) : Decidable (g.Deliverable cpu id) :=
  inferInstanceAs (Decidable (∃ w < g.numVcpus, _))

/-- The interrupt is pending apart from what `cpu` has been injected with, and one of its targets is
to find it: `cpu` itself, or a vCPU that still has the bit and not the interrupt. -/
def AssertedSince (g : GicD) (cpu id : ℕ) : Prop :=
  let info := (g.irqObject cpu id).injectionInfo
  info.pending = true ∧ ¬(info.isInjected 0 = true ∧ info.isTargetingCpu cpu = true) ∧
    ∃ w < g.numVcpus, Shares id w cpu ∧ info.isTargetingCpu w = true ∧
      g.vcpuCanReceiveIrq w id = true ∧
      (w = cpu ∨ (g.bank w).pendingIrqs id = true ∧ (g.bank w).inInjectionIrqs id = false) ∧
      (id + 1 < g.configuredIrqs ∨ ∃ x < id, (g.bank w).pendingIrqs x = true)

/-- What the injection info is after the completion. -/
def completedInfo (g : GicD) (cpu id : ℕ) : IrqInjectionInfo :=
  ((g.irqObject cpu id).injectionInfo.completed cpu).getD (g.irqObject cpu id).injectionInfo

/-- `g'` is `g` after `cpu` has completed the interrupt `id` of an asserted line. -/
structure Completed (g g' : GicD) (cpu id : ℕ) : Prop where
  ctlr : g'.ctlr = g.ctlr
  configuredIrqs : g'.configuredIrqs = g.configuredIrqs
  numVcpus : g'.numVcpus = g.numVcpus
  gicR : ∀ c, (g'.bank c).gicR = (g.bank c).gicR
  irqObject : ∀ c, Shares id c cpu → g'.irqObject c id =
    { g.irqObject cpu id with active := false, injectionInfo := g.completedInfo cpu id }
  pendingIrqs : ∀ c x, (g'.bank c).pendingIrqs x =
    if c = cpu ∧ x = id then true else (g.bank c).pendingIrqs x
  inInjectionIrqs : ∀ c x, (g'.bank c).inInjectionIrqs x =
    if c = cpu ∧ x = id then false else (g.bank c).inInjectionIrqs x

/-- Between clearing the bit of the interrupt in injection and setting its pending bit, only the
interrupt itself is touched. -/
theorem Completed.of_modifyIrq {g : GicD} {cpu id : ℕ} {f : Irq → Irq}
    (hf : f (g.irqObject cpu id) =
      { g.irqObject cpu id with active := false, injectionInfo := g.completedInfo cpu id }) :
    Completed g (((g.clrInInjection cpu id).modifyIrq cpu id f).setPendingIrq cpu id) cpu id where
  ctlr := (g.clrInInjection cpu id).modifyIrq_ctlr cpu id f
  configuredIrqs := (g.clrInInjection cpu id).modifyIrq_configuredIrqs cpu id f
  numVcpus := (g.clrInInjection cpu id).modifyIrq_numVcpus cpu id f
  gicR c := by
    rw [setPendingIrq_field _ cpu id Banked.gicR fun _ _ => rfl,
      modifyIrq_field _ cpu id f Banked.gicR fun _ _ => rfl,
      clrInInjection_field _ cpu id Banked.gicR fun _ _ => rfl]
  irqObject c hc := by
    rw [setPendingIrq_irqObject, modifyIrq_irqObject, if_pos ⟨rfl, hc⟩, clrInInjection_irqObject,
      irqObject_eq_of_shares hc, hf]
  pendingIrqs c x := by
    rw [setPendingIrq_pendingIrqs, modifyIrq_field _ cpu id f Banked.pendingIrqs fun _ _ => rfl,
      clrInInjection_field _ cpu id Banked.pendingIrqs fun _ _ => rfl]
  inInjectionIrqs c x := by
    rw [setPendingIrq_field _ cpu id Banked.inInjectionIrqs fun _ _ => rfl,
      modifyIrq_field _ cpu id f Banked.inInjectionIrqs fun _ _ => rfl,
      clrInInjection_inInjectionIrqs]

theorem modifyIrq_modifyIrq (g : GicD) (cpu id : ℕ) (e f : Irq → Irq) :
    (g.modifyIrq cpu id e).modifyIrq cpu id f = g.modifyIrq cpu id (f ∘ e) := by
  simp only [modifyIrq]
  split_ifs
  · simp only [modifyBank, Function.update_self, Function.update_idem, Function.comp]
  · simp only [Function.update_self, Function.update_idem, Function.comp]

/-- **What a completion does.** The line is still asserted, so the bit in `pending_irqs` is set. -/
theorem completed_updateInjStatus {g : GicD} {cpu id : ℕ} (hlevel : g.LevelAsserted cpu id) :
    Completed g (g.updateInjStatus cpu id .inactive false) cpu id := by
  have hobj (f : Irq → Irq) : ((g.clrInInjection cpu id).modifyIrq cpu id f).irqObject cpu id =
      f (g.irqObject cpu id) := by
    rw [modifyIrq_irqObject, if_pos ⟨rfl, .inr rfl⟩, clrInInjection_irqObject]
  have hpend (f : Irq → Irq) (hedge : (f (g.irqObject cpu id)).swEdge = (g.irqObject cpu id).swEdge)
      (hline : (f (g.irqObject cpu id)).lineAsserted = (g.irqObject cpu id).lineAsserted) :
      (((g.clrInInjection cpu id).modifyIrq cpu id f).irqObject cpu id).pending = true := by
    rw [hobj, Irq.pending, hedge, hline, hlevel.swEdge, hlevel.lineAsserted]
    rfl
  simp only [updateInjStatus, if_neg Bool.false_ne_true, IrqInjectionInfo.updated, hobj]
  cases hcomp : (g.irqObject cpu id).injectionInfo.completed cpu with
  | none =>
      dsimp only
      rw [if_pos (hpend _ rfl rfl)]
      refine .of_modifyIrq ?_
      rw [completedInfo, hcomp, Option.getD_none]
  | some info =>
      dsimp only
      simp only [setInfo, modifyIrq_modifyIrq]
      rw [if_pos (hpend _ rfl rfl)]
      refine .of_modifyIrq ?_
      rw [completedInfo, hcomp, Option.getD_some]
      rfl

theorem completedInfo_eq {g : GicD} (hsender : g.SenderZero) {cpu id : ℕ} (hid : ppiBase ≤ id) :
    let info := (g.irqObject cpu id).injectionInfo
    if info.isInjected 0 = true ∧ info.isTargetingCpu cpu = true then
      (g.completedInfo cpu id).pending = false
    else g.completedInfo cpu id = info :=
  (hsender cpu id hid).completed_getD cpu

/-- **A level-triggered interrupt comes again** exactly when its line has been asserted again since
it was injected. -/
theorem level_redelivered_iff {g₀ g : GicD} {ops : List GicOp} (hg₀ : g₀.Fresh)
    (h : Run (fun (g : GicD) op t => t = g.exec op) g₀ ops g)
    (hconf : g.configuredIrqs ≤ maxIrqNoLpi) {cpu id : ℕ} (hppi : ppiBase ≤ id)
    (hid : id < g.configuredIrqs) (hlevel : g.LevelAsserted cpu id) :
    (g.exec (.updateInjStatus cpu id .inactive false)).Deliverable cpu id ↔
      g.AssertedSince cpu id := by
  have hc : Completed g (g.exec (.updateInjStatus cpu id .inactive false)) cpu id :=
    completed_updateInjStatus hlevel
  have hinfo := @completedInfo_eq g (senderZero_run hg₀ h) cpu id hppi
  generalize g.exec (.updateInjStatus cpu id .inactive false) = g' at hc
  have hrecv (w : ℕ) : g'.vcpuCanReceiveIrq w id = g.vcpuCanReceiveIrq w id := by
    rw [GicD.vcpuCanReceiveIrq, GicD.vcpuCanReceiveIrq, affinityRouting, affinityRouting, hc.ctlr,
      hc.gicR]
  have hgroup (irq : Irq) : g'.groupEnabled irq = g.groupEnabled irq := by
    rw [GicD.groupEnabled, GicD.groupEnabled, group0Enabled, group0Enabled, group1Enabled,
      group1Enabled, hc.ctlr]
  -- what the scan on `w` asks of the interrupt
  have hcons {w : ℕ} (hw : Shares id w cpu) : g'.considers w id = true ↔
      (g.completedInfo cpu id).isTargetingCpu w = true ∧
        (g.completedInfo cpu id).pending = true ∧
        (w = cpu ∨ (g.bank w).inInjectionIrqs id = false) ∧ g.vcpuCanReceiveIrq w id = true := by
    have hg : g.groupEnabled { g.irqObject cpu id with
        active := false, injectionInfo := g.completedInfo cpu id } = true := hlevel.groupEnabled
    rw [considers, hc.irqObject w hw, hgroup, hg, hc.inInjectionIrqs, hrecv]
    dsimp only
    rw [hlevel.enable]
    by_cases hself : w = cpu
    · simp [hself, and_assoc]
    · simp [hself, and_assoc]
  have hscan {w : ℕ} : id ∈ g'.scanned w ↔ (w = cpu ∨ (g.bank w).pendingIrqs id = true) ∧
      (id + 1 < g.configuredIrqs ∨ ∃ x < id, (g.bank w).pendingIrqs x = true) := by
    rw [mem_scanned_iff (hc.configuredIrqs ▸ hconf) (hc.configuredIrqs ▸ hid), hc.configuredIrqs]
    have hbelow : (∃ x < id, (g'.bank w).pendingIrqs x = true) ↔
        ∃ x < id, (g.bank w).pendingIrqs x = true := by
      refine exists_congr fun x => and_congr_right fun hx => ?_
      rw [hc.pendingIrqs, if_neg fun heq => absurd heq.2 (Nat.ne_of_lt hx)]
    rw [hbelow, hc.pendingIrqs]
    by_cases hself : w = cpu
    · simp [hself]
    · simp [hself]
  rw [Deliverable, hc.numVcpus]
  constructor
  · rintro ⟨w, hw, hshares, hmem, hcond⟩
    obtain ⟨htarget, hpend, hfree, hr⟩ := (hcons hshares).1 hcond
    obtain ⟨hbit, hreach⟩ := hscan.1 hmem
    dsimp only at hinfo
    split_ifs at hinfo with hinj
    · rw [hpend] at hinfo
      cases hinfo
    · rw [hinfo] at htarget hpend
      refine ⟨hpend, hinj, w, hw, hshares, htarget, hr, ?_, hreach⟩
      by_cases hself : w = cpu
      · exact .inl hself
      · exact .inr ⟨hbit.resolve_left hself, hfree.resolve_left hself⟩
  · rintro ⟨hpend, hinj, w, hw, hshares, htarget, hr, hkept, hreach⟩
    dsimp only at hinfo
    rw [if_neg hinj] at hinfo
    refine ⟨w, hw, hshares, hscan.2 ⟨hkept.imp_right And.left, hreach⟩, (hcons hshares).2 ?_⟩
    rw [hinfo]
    exact ⟨htarget, hpend, hkept.imp_right And.right, hr⟩

/-! ## A line that stays asserted -/

/-- The SPI 32 is configured as level, enabled, and routed to vCPU 0. Its line is asserted, and
vCPU 0 takes the interrupt. -/
def levelRun : List GicOp :=
  [.configIrq 0 32 false 0 false, .mmioWrite 0 0x0 4 1, .mmioWrite 0 0x104 4 1,
    .mmioWrite 0 0x820 1 0b01, .assertGlobalLine 32, .pendingIrq 0 255]

/-- The guest is done with the interrupt, the line is still asserted, and no vCPU gets the
interrupt again. -/
theorem level_forgotten :
    let g := levelRun.foldl exec (init .gicV2 2 64)
    (g.irqObject 0 32).hw = false ∧ (g.irqObject 0 32).swEdge = false ∧
      (g.irqObject 0 32).lineAsserted = true ∧ (g.irqObject 0 32).enable = true ∧
      g.groupEnabled (g.irqObject 0 32) = true ∧
      (g.irqObject 0 32).injectionInfo.target.isValid = true ∧
      ¬(g.exec (.updateInjStatus 0 32 .inactive false)).Deliverable 0 32 := by
  decide +kernel

/-- The line is asserted once more before the guest is done, and the interrupt comes again. -/
theorem level_redelivered_again :
    (((levelRun ++ [GicOp.assertGlobalLine 32]).foldl exec (init .gicV2 2 64)).exec
      (.updateInjStatus 0 32 .inactive false)).Deliverable 0 32 := by
  refine (level_redelivered_iff (fresh_init .gicV2 2 64) (run_exec _ _) (by decide +kernel)
    (by decide) (by decide +kernel) ?_).2 ?_
  · exact ⟨by decide +kernel, by decide +kernel, by decide +kernel, by decide +kernel,
      by decide +kernel⟩
  · exact ⟨by decide +kernel, by decide +kernel, 0, by decide +kernel, by decide +kernel,
      by decide +kernel, by decide +kernel, .inl rfl, .inl (by decide +kernel)⟩

end GicD

end Vml
