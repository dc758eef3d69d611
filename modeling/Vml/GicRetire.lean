import Vml.GicLevel
import Vml.MmioRead

/-!
# Interrupts that are no longer pending

When the line of a level-triggered interrupt is lowered, or the guest is done with an interrupt, the
interrupt is to be pending no longer: the guest reads 0 from ISPENDR, and no vCPU is injected with
it until it is asserted again (`Retired`).

**Lowering a line.** `deassert_global_line` calls `deassert_line`, which takes no other interrupts
than private ones. So the line of an SPI stays asserted.

**Completion.** `update_inj_status_inactive` takes the pending bit out of the injection info. The
bit that the guest has set with ISPENDR is kept elsewhere and stays.

**Until it is asserted again.** A run in which no call asserts the interrupt (`QuietStep`) does not
make it pending, so there is no injection in it.

Main results: `lowered_iff` and `completed_iff`.
-/

namespace Vml.GicD

/-! ## Runs that do not assert an interrupt -/

/-- The interrupt `x` of `owner` is another one than the interrupt `id` that `c` sees. -/
def Other (c id owner x : ℕ) : Prop := ¬(x = id ∧ Shares id owner c)

/-- A call is made that does not assert the interrupt `id` that `c` sees. -/
def QuietStep (c id : ℕ) (g : GicD) (op : GicOp) (t : GicD) : Prop :=
  (∀ p ∈ g.assertedBy op, Other c id p.1 p.2) ∧ t = g.exec op

/-- `pending_irq` puts the interrupt `id` into a list register. -/
def Injects (g : GicD) (v : ℕ) (minPriority : UInt8) (id : ℕ) : Prop :=
  (g.highestIrq v true).1 = some id ∧
    ¬minPriority < ((g.highestIrq v true).2.irqObject v id).prio

/-- The bit of the interrupt that `c` sees as `id` is 0 in every word of ISPENDR that a vCPU reads,
at the distributor or at its redistributor. -/
def ReadsZero (g : GicD) (c id : ℕ) : Prop :=
  ∀ w, Shares id w c → ∀ (offset value : UInt64) (bytes : UInt8) (aff : UInt32) (last : Bool),
    (within offset 0x200 0x27f = true → g.mmioRead w offset bytes = .shows value →
      ∀ p ∈ { g.irqMmioAccess offset bytes .all with baseAbs := 0x200 }.irqs, p.2 = id →
        value.toNat.testBit p.1 = false) ∧
    (within offset 0x10200 0x10203 = true → g.gicRMmioRead w aff last offset bytes = .shows value →
      ∀ p ∈ { g.irqMmioAccess offset bytes .privateOnly with baseAbs := 0x10200 }.irqs, p.2 = id →
        value.toNat.testBit p.1 = false)

/-- The interrupt is not pending, and is not injected until it is asserted. -/
structure Retired (g : GicD) (c id : ℕ) : Prop where
  pending : (g.irqObject c id).pending = false
  readsZero : g.ReadsZero c id
  notInjected : ∀ ops t, Run (QuietStep c id) g ops t → ∀ v minPriority, Shares id v c →
    ¬t.Injects v minPriority id

theorem Other.ne {c id owner x : ℕ} (h : Other c id owner x) : ¬(id = x ∧ Shares x c owner) := by
  rintro ⟨rfl, hshares⟩
  exact h ⟨rfl, hshares.imp_right Eq.symm⟩

/-! ## A property of one interrupt -/

/-- Whatever a call does to the interrupt `id`, unless it completes it or hands it back, keeps `Q`.
Of the interrupts in `A` only those may be asserted that keep it. -/
structure IrqRule (A : ℕ → ℕ → Prop) (c id : ℕ) (Q : Irq → Prop) : Prop where
  store : ∀ {irq f}, Q irq → Stores f → Q (f irq)
  raiseLine : ∀ {irq}, Q irq → Q (raiseLine irq)
  lowerLine : ∀ {irq}, id < spiBase → Q irq → Q { irq with lineAsserted := false }
  asserted : ∀ {irq owner x}, A owner x → id = x ∧ Shares x c owner → Q irq → ∀ target,
    Q { irq with injectionInfo := .asserted target }
  redirected : ∀ {irq target info}, Q irq → irq.injectionInfo.redirected target = some info →
    Q { irq with injectionInfo := info }
  cleared : ∀ {irq}, Q irq → Q { irq with injectionInfo := {} }
  injected : ∀ {irq v info}, Q irq → irq.injectionInfo.injected v = some info →
    Q { irq with injectionInfo := info }
  reset : ∀ {irq}, Q irq → ∀ t, Q (irq.reset t)

namespace IrqRule

variable {A : ℕ → ℕ → Prop} {c id : ℕ} {Q : Irq → Prop} {g : GicD}

theorem of_modifyIrq (hg : Q (g.irqObject c id)) (cpu x : ℕ) {f : Irq → Irq}
    (hf : id = x ∧ Shares x c cpu → Q (g.irqObject c id) → Q (f (g.irqObject c id))) :
    Q ((g.modifyIrq cpu x f).irqObject c id) := by
  rw [modifyIrq_irqObject]
  split_ifs with heq
  · exact hf heq hg
  · exact hg

theorem of_setInfo (hg : Q (g.irqObject c id)) (cpu x : ℕ) {info : IrqInjectionInfo}
    (hinfo : id = x ∧ Shares x c cpu → Q (g.irqObject c id) →
      Q { g.irqObject c id with injectionInfo := info }) :
    Q ((g.setInfo cpu x info).irqObject c id) := of_modifyIrq hg cpu x hinfo

theorem of_notifyTarget (hg : Q (g.irqObject c id)) (x : ℕ) (target : IrqTarget) :
    Q ((g.notifyTarget x target).2.irqObject c id) := by
  rw [(announced_notifyTarget g x target).irqObject]
  exact hg

theorem irqObject_eq {cpu x : ℕ} (h : id = x ∧ Shares x c cpu) :
    g.irqObject cpu x = g.irqObject c id := by
  obtain ⟨rfl, hshares⟩ := h
  exact (irqObject_eq_of_shares hshares).symm

variable (h : IrqRule A c id Q)

include h

theorem assertPi (hg : Q (g.irqObject c id)) (cpuId : ℕ) {owner x : ℕ}
    (hA : id = x ∧ Shares x c owner → A owner x) :
    Q ((g.assertPi cpuId owner x).2.irqObject c id) := by
  have hbump : Q ((if spiBase ≤ x then g.bumpHint else g).irqObject c id) := by
    split_ifs
    · exact hg
    · exact hg
  refine of_notifyTarget (of_setInfo hbump owner x fun heq hirq => ?_) x _
  exact h.asserted (hA heq) heq hirq _

theorem deassertPi (hg : Q (g.irqObject c id)) (owner x : ℕ) :
    Q ((g.deassertPi owner x).2.irqObject c id) := by
  rw [GicD.deassertPi]
  split_ifs
  · exact hg
  · exact of_setInfo hg owner x fun _ => h.cleared

theorem redirectSpi (hg : Q (g.irqObject c id)) (x hint : ℕ) :
    Q ((g.redirectSpi x hint).2.irqObject c id) := by
  rw [GicD.redirectSpi]
  split
  · exact hg
  · rename_i info hinfo
    refine of_notifyTarget (of_setInfo hg 0 x fun heq hirq => ?_) x _
    rw [irqObject_eq heq] at hinfo
    exact h.redirected hirq hinfo

/-- **What a call consists of** keeps `Q`. -/
theorem assertRule (hid : ppiBase ≤ id) : AssertRule A fun g => Q (g.irqObject c id) where
  store hg cpu x _ hf := of_modifyIrq hg cpu x fun _ hirq => h.store hirq hf
  raiseLine hg cpu x _ := of_modifyIrq hg cpu x fun _ => h.raiseLine
  lowerLine hg cpu x hx := of_modifyIrq hg cpu x fun heq => h.lowerLine (heq.1 ▸ hx)
  ctlr hg _ := hg
  propBaser hg _ := hg
  pendBaser hg _ := hg
  bumpHint hg := hg
  gicR hg _ _ := by rwa [modifyGicR_irqObject]
  assertPi hg cpuId owner x hA := h.assertPi hg cpuId fun _ => hA
  assertSgi {g} hg sender target owner x hx := by
    have hne (hid' : id = x) : False := absurd hx (Nat.not_lt.2 (hid' ▸ hid))
    rw [assertSgi]
    split_ifs
    · exact h.assertPi hg target fun heq => (hne heq.1).elim
    · exact hg
    · exact of_notifyTarget (of_setInfo hg owner x fun heq => (hne heq.1).elim) x _
  redirectSpi hg x hint _ := h.redirectSpi hg x hint
  deassertPi hg owner x := h.deassertPi hg owner x
  deassertSgi {g} hg sender owner x hx := by
    rw [deassertSgi]
    split_ifs
    · exact h.deassertPi hg owner x
    · exact hg
    · exact of_setInfo hg owner x fun heq => absurd hx (Nat.not_lt.2 (heq.1 ▸ hid))

theorem inject (hg : Q (g.irqObject c id)) (v x : ℕ) : Q ((g.inject v x).2.irqObject c id) := by
  rw [GicD.inject]
  split
  · exact hg
  · rename_i info hinfo
    rw [clrPendingIrq_irqObject, setInInjection_irqObject]
    refine of_setInfo hg v x fun heq hirq => ?_
    rw [irqObject_eq heq] at hinfo
    exact h.injected hirq hinfo

/-- **One call** keeps `Q`, if it does so where it completes the interrupt or hands it back. -/
theorem exec (hid : ppiBase ≤ id) (hg : Q (g.irqObject c id)) {op : GicOp}
    (hA : ∀ p ∈ g.assertedBy op, A p.1 p.2)
    (hupdated : ∀ {irq w x state inInjection info}, op = .updateInjStatus w x state inInjection →
      id = x ∧ Shares x c w → Q irq →
      irq.injectionInfo.updated w state inInjection = some info →
      Q { irq with injectionInfo := info }) : Q ((g.exec op).irqObject c id) := by
  refine exec_keeps_of (P := fun g => Q (g.irqObject c id)) (h.assertRule hid) hg op hA ?_ ?_ ?_
  · exact fun v _ x _ _ hscan => h.inject hscan v x
  · intro w x state inInjection hop
    refine updateInjStatus_keeps (P := fun g => Q (g.irqObject c id)) hg w x state inInjection
      ?_ ?_ ?_ ?_
    · rwa [clrInInjection_irqObject]
    · exact fun hg _ hf => of_modifyIrq hg w x fun _ hirq => h.store hirq hf
    · intro g info hg hinfo
      refine of_setInfo hg w x fun heq hirq => ?_
      rw [irqObject_eq heq] at hinfo
      exact hupdated hop heq hirq hinfo
    · exact fun hg => by rwa [setPendingIrq_irqObject]
  · intro _
    obtain heq | ⟨t, heq⟩ := g.reset_irqObject c hid
    · rw [heq]
      exact hg
    · rw [heq]
      exact h.reset hg t

end IrqRule

/-! ## Interrupts that are not pending -/

/-- What does not assert an interrupt does not make it pending. -/
theorem unpendedRule (c id : ℕ) :
    IrqRule (Other c id) c id fun irq => irq.injectionInfo.pending = false where
  store h hf := by rw [(hf _).1]; exact h
  raiseLine h := by rw [GicD.raiseLine]; split_ifs <;> exact h
  lowerLine _ h := h
  asserted hother heq _ _ := absurd heq hother.ne
  redirected h hinfo := by
    rw [IrqInjectionInfo.redirected, h] at hinfo
    cases hinfo
  cleared _ := rfl
  injected h hinfo := by
    rw [IrqInjectionInfo.injected, h] at hinfo
    cases hinfo
  reset h t := by
    rw [Irq.reset]
    dsimp only
    split_ifs
    · exact h
    · rfl

/-- **A run that does not assert an interrupt** does not make it pending. -/
theorem unpended_run {c id : ℕ} (hid : ppiBase ≤ id) {g t : GicD}
    (h : (g.irqObject c id).injectionInfo.pending = false) {ops : List GicOp}
    (hrun : Run (QuietStep c id) g ops t) : (t.irqObject c id).injectionInfo.pending = false := by
  refine @Run.invariant _ _ _ (fun g => (g.irqObject c id).injectionInfo.pending = false) _ _ _
    (fun u op w hu hstep => ?_) hrun h
  obtain ⟨hquiet, rfl⟩ := hstep
  refine (unpendedRule c id).exec hid hu hquiet ?_
  intro irq _ _ _ _ info _ _ hirq hinfo
  rw [← Bool.not_eq_true] at hirq ⊢
  exact mt (IrqInjectionInfo.pending_of_subset (IrqInjectionInfo.lowers_updated hinfo).pendingBits)
    hirq

/-! ## What the guest reads -/

section Reads

variable {g : GicD} {cpu : ℕ} {offset value : UInt64} {bytes : UInt8}

/-- A bit of a word with one bit for every interrupt is 0 when its interrupt is not pending. -/
theorem testBit_read_pending {acc : IrqMmioAccess} (hper : acc.irqPerBytes = 8)
    (hread : g.read cpu acc (·.pending.toUInt64) = .shows value)
    (hnum : ∀ q ∈ acc.irqs, q.1 < 64) {p : ℕ × ℕ} (hp : p ∈ acc.irqs)
    (hpend : (g.irqObject cpu p.2).pending = false) : value.toNat.testBit p.1 = false := by
  have hbits : acc.bits = 1 := by rw [IrqMmioAccess.bits, if_pos hper]
  -- a bit belongs to one interrupt
  have hsame : ∀ q ∈ acc.irqs, q.1 = p.1 → q.2 = p.2 := by
    intro q hq heq
    rw [IrqMmioAccess.irqs] at hp hq
    split_ifs at hp hq
    · obtain ⟨i, -, rfl⟩ := List.mem_map.1 hp
      obtain ⟨j, -, rfl⟩ := List.mem_map.1 hq
      dsimp only at heq ⊢
      rw [heq]
    · exact absurd hp List.not_mem_nil
  rw [read] at hread
  split_ifs at hread
  injection hread with hvalue
  rw [← hvalue]
  refine List.foldlRecOn (motive := fun v : UInt64 => v.toNat.testBit p.1 = false) acc.irqs _ ?_
    fun v hv q hq => ?_
  · exact Nat.zero_testBit _
  · rw [hbits, Nat.mul_one, testBit_or_shiftLeft v _ (hnum q hq), hv, Bool.false_or]
    by_cases heq : q.1 = p.1
    · rw [hsame q hq heq, hpend, Bool.false_and]
    · rw [decide_eq_false heq, Bool.and_false]

theorem mmioRead_ispendr (hoff : within offset 0x200 0x27f = true)
    (h : g.mmioRead cpu offset bytes = .shows value) : bytes ≤ 4 ∧
      g.read cpu { g.irqMmioAccess offset bytes .all with baseAbs := 0x200 }
        (·.pending.toUInt64) = .shows value := by
  have hnot {first last : UInt64} (hdisjoint : 0x27f < first ∨ last < 0x200) :
      ¬within offset first last = true :=
    Bool.not_eq_true _ ▸ within_of_disjoint hoff hdisjoint
  rw [mmioRead] at h
  split_ifs at h with hfail hrouter hgap hbytes
  · exact absurd hrouter (hnot (by decide))
  · exact absurd hgap (hnot (by decide))
  · refine ⟨UInt8.not_lt.1 hbytes, ?_⟩
    rw [mmioRead32OrLess] at h
    dsimp only at h
    have hacc : (g.irqMmioAccess offset bytes .all).offset = offset := rfl
    rwa [hacc, if_neg (hnot (by decide)), if_neg (hnot (by decide)), if_neg (hnot (by decide)),
      if_neg (hnot (by decide)), if_neg (hnot (by decide)), if_neg (hnot (by decide)),
      if_pos hoff] at h

theorem gicRMmioRead_ispendr {aff : UInt32} {last : Bool}
    (hoff : within offset 0x10200 0x10203 = true)
    (h : g.gicRMmioRead cpu aff last offset bytes = .shows value) :
    g.read cpu { g.irqMmioAccess offset bytes .privateOnly with baseAbs := 0x10200 }
      (·.pending.toUInt64) = .shows value := by
  have hnot {first last : UInt64} (hdisjoint : 0x10203 < first ∨ last < 0x10200) :
      ¬within offset first last = true :=
    Bool.not_eq_true _ ▸ within_of_disjoint hoff hdisjoint
  have hin : ¬0x20000 ≤ offset :=
    UInt64.not_le.2 (UInt64.lt_of_le_of_lt (of_decide_eq_true hoff).2 (by decide))
  have hraz : ¬(within offset 0x10d00 0x10d03 || within offset 0x10e00 0x10e03) = true := by
    rw [Bool.or_eq_true]
    exact not_or.2 ⟨hnot (by decide), hnot (by decide)⟩
  rw [gicRMmioRead] at h
  dsimp only at h
  rwa [if_neg hin, if_neg (hnot (by decide)), if_neg (hnot (by decide)), if_neg (hnot (by decide)),
    if_neg (hnot (by decide)), if_neg (hnot (by decide)), if_neg (hnot (by decide)),
    if_neg (hnot (by decide)), if_neg hraz, if_neg (hnot (by decide)), if_neg (hnot (by decide)),
    if_neg (hnot (by decide)), if_neg (hnot (by decide)), if_pos hoff] at h

end Reads

/-- **An interrupt that is not pending** is read as 0. -/
theorem readsZero_of_not_pending {g : GicD} {c id : ℕ} (h : (g.irqObject c id).pending = false) :
    g.ReadsZero c id := by
  intro w hw offset value bytes aff last
  have hpend : (g.irqObject w id).pending = false := by rw [irqObject_eq_of_shares hw, h]
  constructor
  · rintro hoff hread p hp rfl
    obtain ⟨hbytes, hread⟩ := mmioRead_ispendr hoff hread
    refine testBit_read_pending rfl hread (fun q hq => ?_) hp hpend
    have hlt := IrqMmioAccess.lt_of_mem_irqs hq
    have hle := UInt8.le_iff_toNat_le.1 hbytes
    exact hlt.trans_le (Nat.mul_le_mul hle (Nat.le_refl 8) |>.trans (by decide))
  · rintro hoff hread p hp rfl
    refine testBit_read_pending rfl (gicRMmioRead_ispendr hoff hread) (fun q hq => ?_) hp hpend
    have hlt := lt_irqMax_of_mem_irqs (show (8 : UInt8) ≤ 8 by decide)
      (show (32 : UInt16) ≤ 32768 by decide) hq
    rw [IrqMmioAccess.irqs] at hq
    split_ifs at hq
    · obtain ⟨i, -, rfl⟩ := List.mem_map.1 hq
      exact Nat.lt_of_le_of_lt (Nat.le_add_left i _)
        (hlt.trans (show (32 : UInt16).toNat < 64 by decide))
    · exact absurd hq List.not_mem_nil

/-- **An interrupt that is not pending** is retired. -/
theorem retired_iff {g : GicD} {c id : ℕ} (hid : ppiBase ≤ id) :
    g.Retired c id ↔ (g.irqObject c id).pending = false := by
  refine ⟨Retired.pending, fun h => ⟨h, readsZero_of_not_pending h, ?_⟩⟩
  intro ops t hrun v minPriority hv hinj
  rw [Irq.pending, Bool.or_eq_false_iff] at h
  have hlater := unpended_run hid h.2 hrun
  have hcons := (considers_of_highestIrq hinj.1).2
  simp only [considers, Bool.and_eq_true] at hcons
  have hpend := hcons.1.1.1.2
  rw [irqObject_eq_of_shares hv, hlater] at hpend
  cases hpend

/-! ## Lowering a line -/

section Line

variable {id : ℕ}

theorem lineRule (hid : spiBase ≤ id) :
    IrqRule (fun _ _ => True) 0 id fun irq => irq.lineAsserted = true where
  store h hf := by rw [(hf _).2]; exact h
  raiseLine h := by
    rw [GicD.raiseLine]
    split_ifs
    · exact h
    · rfl
  lowerLine hlt _ := absurd hlt (Nat.not_lt.2 hid)
  asserted _ _ h _ := h
  redirected h _ := h
  cleared h := h
  injected h _ := h
  reset h _ := h

/-- **The line of an SPI stays asserted.** -/
theorem line_exec {g : GicD} (hid : spiBase ≤ id) (h : (g.irqObject 0 id).lineAsserted = true)
    (op : GicOp) : ((g.exec op).irqObject 0 id).lineAsserted = true :=
  (lineRule hid).exec (Nat.le_trans (by decide) hid) h (fun _ _ => trivial)
    fun _ _ hirq _ => hirq

/-- The device raises the line of an interrupt: a PPI of the vCPU `c`, or an SPI. -/
def raiseOp (c id : ℕ) : GicOp := if id < spiBase then .assertPpi c id else .assertGlobalLine id

/-- The device lowers it, through the call of the same kind. -/
def lowerOp (c id : ℕ) : GicOp :=
  if id < spiBase then .deassertLinePpi c id else .deassertGlobalLine id

/-- The line is low, and the interrupt is retired. -/
structure Lowered (g : GicD) (c id : ℕ) : Prop extends g.Retired c id where
  line : (g.irqObject c id).lineAsserted = false

/-- A PPI whose line is lowered is not pending, if the guest has not made it pending. -/
theorem lowered_deassertLine {g : GicD} {c : ℕ} (hc : c < g.numVcpus) (hppi : ppiBase ≤ id)
    (hid : id < spiBase) (hlevel : (g.irqObject c id).swEdge = false)
    (hhw : (g.irqObject c id).hw = false) (hsw : (g.irqObject c id).swAsserted = false) :
    (g.deassertLine c id).Lowered c id := by
  have hobj : (g.deassertLine c id).irqObject c id =
      { g.irqObject c id with lineAsserted := false, injectionInfo := {} } := by
    have hself (g : GicD) (f : Irq → Irq) : (g.modifyIrq c id f).irqObject c id =
        f (g.irqObject c id) := by
      rw [modifyIrq_irqObject, if_pos ⟨rfl, .inr rfl⟩]
    rw [deassertLine, if_neg (Nat.not_le.2 hc), if_neg (Nat.not_le.2 hid)]
    simp only [hself, hlevel, hsw, deassertPi, hhw, setInfo, Bool.not_false, Bool.and_self, if_true,
      Bool.false_eq_true, if_false]
  have hline : ((g.deassertLine c id).irqObject c id).lineAsserted = false := by rw [hobj]
  refine { toRetired := (retired_iff hppi).2 ?_, line := hline }
  rw [Irq.pending, hline, hobj, hsw, Bool.and_false]
  rfl

end Line

/-- **Lowering a line takes the interrupt back** exactly when it is a private one. -/
theorem lowered_iff {g g' : GicD} {c id : ℕ} {ops : List GicOp} (hppi : ppiBase ≤ id)
    (hid : id < g.configuredIrqs) (hedge : (g.irqObject c id).hwEdge = false)
    (hrun : Run (QuietStep c id) (g.exec (raiseOp c id)) ops g') (hc : c < g'.numVcpus)
    (hlevel : (g'.irqObject c id).swEdge = false) (hhw : (g'.irqObject c id).hw = false)
    (hsw : (g'.irqObject c id).swAsserted = false) :
    (g'.exec (lowerOp c id)).Lowered c id ↔ id < spiBase := by
  by_cases hspi : id < spiBase
  · rw [lowerOp, if_pos hspi]
    exact iff_of_true (lowered_deassertLine hc hppi hspi hlevel hhw hsw) hspi
  · refine iff_of_false (fun hlow => ?_) hspi
    have hspi := Nat.not_lt.1 hspi
    have hraised : ((g.exec (raiseOp c id)).irqObject 0 id).lineAsserted = true := by
      have hstore : ((g.modifyIrq 0 id raiseLine).irqObject 0 id).lineAsserted = true := by
        rw [modifyIrq_irqObject, if_pos ⟨rfl, .inr rfl⟩, raiseLine,
          ← irqObject_eq_of_shares (.inl hspi : Shares id c 0), hedge]
        rfl
      rw [raiseOp, if_neg (Nat.not_lt.2 hspi), GicD.exec, assertGlobalLine,
        if_neg (Nat.not_le.2 hid), if_neg (Nat.not_lt.2 hspi)]
      exact (lineRule hspi).assertPi hstore 0 fun _ => trivial
    have hlater : (g'.irqObject 0 id).lineAsserted = true := by
      refine @Run.invariant _ _ _ (fun g => (g.irqObject 0 id).lineAsserted = true) _ _ _
        (fun u op t hu hstep => ?_) hrun hraised
      rw [hstep.2]
      exact line_exec hspi hu op
    have hline := line_exec hspi hlater (lowerOp c id)
    rw [← irqObject_eq_of_shares (.inl hspi : Shares id c 0), hlow.line] at hline
    cases hline

/-- A GIC with one level-triggered interrupt. -/
def levelGic (id : ℕ) : GicD := (init .gicV2 1 64).exec (.configIrq 0 id false 0 false)

/-- An SPI whose line has been lowered is still pending. -/
theorem spi_line_stuck : ∃ (g g' : GicD) (c id : ℕ) (ops : List GicOp), ppiBase ≤ id ∧
    id < g.configuredIrqs ∧ (g.irqObject c id).hwEdge = false ∧
      Run (QuietStep c id) (g.exec (raiseOp c id)) ops g' ∧ c < g'.numVcpus ∧
      (g'.irqObject c id).swEdge = false ∧ (g'.irqObject c id).hw = false ∧
      (g'.irqObject c id).swAsserted = false ∧ ¬(g'.exec (lowerOp c id)).Lowered c id := by
  refine ⟨levelGic 40, _, 0, 40, [], by decide, by decide +kernel, by decide +kernel, .nil,
    by decide +kernel, by decide +kernel, by decide +kernel, by decide +kernel, fun hlow => ?_⟩
  have hline : ((((levelGic 40).exec (raiseOp 0 40)).exec (lowerOp 0 40)).irqObject 0
      40).lineAsserted = true := by decide +kernel
  rw [hlow.line] at hline
  cases hline

/-- A PPI whose line has been lowered is not. -/
theorem ppi_line_lowered :
    (((levelGic 20).exec (raiseOp 0 20)).exec (lowerOp 0 20)).Lowered 0 20 := by
  have hiff := @lowered_iff (levelGic 20) _ 0 20 [] (by decide) (by decide +kernel)
    (by decide +kernel) .nil (by decide +kernel) (by decide +kernel) (by decide +kernel)
    (by decide +kernel)
  exact hiff.2 (by decide)

/-! ## Completion -/

/-- What the completion of an interrupt makes of it. -/
theorem irqObject_completed (g : GicD) (v id : ℕ) :
    (g.updateInjStatus v id .inactive false).irqObject v id =
      { g.irqObject v id with active := false, injectionInfo := g.completedInfo v id } := by
  have hobj (f : Irq → Irq) : ((g.clrInInjection v id).modifyIrq v id f).irqObject v id =
      f (g.irqObject v id) := by
    rw [modifyIrq_irqObject, if_pos ⟨rfl, .inr rfl⟩, clrInInjection_irqObject]
  have hbit (g' : GicD) (b : Bool) :
      (if b = true then g'.setPendingIrq v id else g').irqObject v id = g'.irqObject v id := by
    split_ifs
    · exact setPendingIrq_irqObject ..
    · rfl
  simp only [updateInjStatus, if_neg Bool.false_ne_true, IrqInjectionInfo.updated, hbit]
  rw [completedInfo, hobj]
  cases (g.irqObject v id).injectionInfo.completed v with
  | none => exact hobj _
  | some info =>
      dsimp only
      rw [setInfo, modifyIrq_modifyIrq, hobj]
      rfl

/-- If the interrupt is pending on its own account, it is what `v` has been injected with. -/
def StillInjected (g : GicD) (v id : ℕ) : Prop :=
  (g.irqObject v id).injectionInfo.pending = true →
    (g.irqObject v id).injectionInfo.isInjected 0 = true ∧
      (g.irqObject v id).injectionInfo.isTargetingCpu v = true

/-- The call hands the interrupt back that `v` sees as `id`: it is out of the list register of a
vCPU, and not completed. -/
def HandsBack (v id : ℕ) : GicOp → Prop
  | .updateInjStatus cpuId irqId state inInjection =>
      irqId = id ∧ Shares id cpuId v ∧ state ≠ .inactive ∧ inInjection = false
  | _ => False

/-- Whether an interrupt is pending after its completion. -/
theorem pending_completed_iff {g : GicD} (hsender : g.SenderZero) {v id : ℕ} (hppi : ppiBase ≤ id)
    (hlow : (g.irqObject v id).swEdge = true ∨ (g.irqObject v id).lineAsserted = false) :
    ((g.updateInjStatus v id .inactive false).irqObject v id).pending = false ↔
      (g.irqObject v id).swAsserted = false ∧ g.StillInjected v id := by
  have hinfo := @completedInfo_eq g hsender v id hppi
  have hline : (!(g.irqObject v id).swEdge && (g.irqObject v id).lineAsserted) = false := by
    rcases hlow with h | h
    · rw [h]; rfl
    · rw [h, Bool.and_false]
  rw [irqObject_completed, Irq.pending]
  dsimp only
  rw [hline, Bool.false_or, Bool.or_eq_false_iff]
  refine and_congr_right fun _ => ?_
  dsimp only at hinfo
  rw [StillInjected]
  split_ifs at hinfo with hinj
  · exact iff_of_true hinfo fun _ => hinj
  · rw [hinfo]
    constructor
    · intro hnot hpend
      rw [hnot] at hpend
      cases hpend
    · intro h
      rw [← Bool.not_eq_true]
      exact fun hpend => hinj (h hpend)

section StillInjected

variable {v id : ℕ}

/-- The interrupt has no other sender than 0, and is still injected into `v` if it is pending. -/
def KeptBy (v : ℕ) (irq : Irq) : Prop :=
  irq.injectionInfo.SenderZero ∧ (irq.injectionInfo.pending = true →
    irq.injectionInfo.isInjected 0 = true ∧ irq.injectionInfo.isTargetingCpu v = true)

/-- What does not assert the interrupt leaves it with the vCPU that has been injected with it. -/
theorem keptRule (v id : ℕ) : IrqRule (Other v id) v id (KeptBy v) where
  store h hf := by rw [KeptBy, (hf _).1]; exact h
  raiseLine h := by rw [GicD.raiseLine]; split_ifs <;> exact h
  lowerLine _ h := h
  asserted hother heq _ _ := absurd heq hother.ne
  redirected h hinfo := by
    rw [IrqInjectionInfo.redirected] at hinfo
    split_ifs at hinfo with hkeep
    -- an interrupt that is injected is not re-routed
    rw [Bool.or_eq_true, not_or, Bool.not_eq_true', Bool.not_eq_false] at hkeep
    exact absurd (h.2 hkeep.1).1 hkeep.2
  cleared _ := ⟨.empty, by rintro ⟨⟩⟩
  injected {irq w info} h hinfo := by
    refine ⟨h.1.injected hinfo, fun hpend => ?_⟩
    rw [IrqInjectionInfo.injected] at hinfo
    split_ifs at hinfo with hnot
    dsimp only at hpend ⊢
    rw [← Option.some.inj hinfo] at hpend ⊢
    obtain ⟨hinj, htarget⟩ := h.2 hpend
    refine ⟨?_, htarget⟩
    rw [IrqInjectionInfo.isInjected, decide_eq_true_eq] at hinj ⊢
    exact Finset.mem_insert_of_mem hinj
  reset h t := by
    rw [KeptBy, Irq.reset]
    dsimp only
    split_ifs
    · exact h
    · exact ⟨.empty, by rintro ⟨⟩⟩

/-- What comes back, and is not handed back, is still injected if it is pending. -/
theorem stillInjected_updated {info info' : IrqInjectionInfo} (hzero : info.SenderZero) {w : ℕ}
    {state : IrqState} {inInjection : Bool} (hback : state = .inactive ∨ inInjection = true)
    (hinfo : info.updated w state inInjection = some info')
    (h : info.pending = true → info.isInjected 0 = true ∧ info.isTargetingCpu v = true)
    (hpend : info'.pending = true) :
    info'.isInjected 0 = true ∧ info'.isTargetingCpu v = true := by
  have hlow := IrqInjectionInfo.lowers_updated hinfo
  obtain ⟨hinj, htarget⟩ := h (IrqInjectionInfo.pending_of_subset hlow.pendingBits hpend)
  have hkept : info'.isTargetingCpu v = true := by
    rw [IrqInjectionInfo.isTargetingCpu, hlow.target]
    exact htarget
  refine ⟨?_, hkept⟩
  have hback' (hcame : info.cameBack w state true = some info') : info'.isInjected 0 = true := by
    rw [IrqInjectionInfo.cameBack] at hcame
    split at hcame
    · cases hcame
    · simp only [if_true] at hcame
      split_ifs at hcame
      · rw [← Option.some.inj hcame]
        exact hinj
      · rw [← Option.some.inj hcame]
        exact hinj
  cases state with
  | inactive =>
      rw [IrqInjectionInfo.updated, IrqInjectionInfo.completed, hzero.getInjectedSenderId,
        if_pos hinj] at hinfo
      dsimp only at hinfo
      split_ifs at hinfo
      have hgone : info.pendingBits.erase 0 = ∅ := by
        rw [Finset.erase_eq_empty_iff]
        exact Finset.subset_singleton_iff.1 hzero.pendingBits
      rw [← Option.some.inj hinfo] at hpend
      simp [IrqInjectionInfo.pending, IrqInjectionInfo.unsetPending,
        IrqInjectionInfo.unsetInjected, hgone] at hpend
  | pending => exact hback' (hback.resolve_left (by simp) ▸ hinfo)
  | active => exact hback' (hback.resolve_left (by simp) ▸ hinfo)
  | activePending => exact hback' (hback.resolve_left (by simp) ▸ hinfo)

/-- **One call** that neither asserts nor hands back the interrupt. -/
theorem kept_exec {g : GicD} (hppi : ppiBase ≤ id) (h : KeptBy v (g.irqObject v id)) {op : GicOp}
    (hquiet : ∀ p ∈ g.assertedBy op, Other v id p.1 p.2) (hback : ¬HandsBack v id op) :
    KeptBy v ((g.exec op).irqObject v id) := by
  refine (keptRule v id).exec hppi h hquiet ?_
  rintro irq w x state inInjection info rfl heq hirq hinfo
  refine ⟨hirq.1.updated hinfo, stillInjected_updated hirq.1 ?_ hinfo hirq.2⟩
  by_cases hstate : state = .inactive
  · exact .inl hstate
  · right
    rw [← Bool.not_eq_false]
    exact fun hinj => hback ⟨heq.1.symm, heq.1 ▸ heq.2.imp_right Eq.symm, hstate, hinj⟩

theorem stillInjected_of_injects {g : GicD} (hppi : ppiBase ≤ id) (hsender : g.SenderZero)
    {minPriority : UInt8} (hinj : g.Injects v minPriority id) :
    (g.exec (.pendingIrq v minPriority)).StillInjected v id := by
  obtain ⟨hchosen, hprio⟩ := hinj
  have hcons := (considers_of_highestIrq hchosen).2
  have hobj := (sameScan_highestIrq g v true).irqObject id hcons
  simp only [considers, Bool.and_eq_true] at hcons
  have hpend := hcons.1.1.1.2
  have htarget := hcons.1.1.1.1.2
  have hinfo : (g.irqObject v id).injectionInfo.injected v =
      some ((g.irqObject v id).injectionInfo.setInjected 0) := by
    rw [IrqInjectionInfo.injected, hpend, htarget, (hsender v id hppi).getPendingSenderId]
    rfl
  simp only [exec, pendingIrq, hchosen]
  rw [if_neg hprio, inject, hobj, hinfo]
  intro _
  rw [clrPendingIrq_irqObject, setInInjection_irqObject, setInfo_injectionInfo,
    if_pos ⟨rfl, .inr rfl⟩]
  refine ⟨decide_eq_true (Finset.mem_insert_self 0 _), htarget⟩

end StillInjected

/-- **A completed interrupt is retired** exactly when the guest has not set it pending, and what is
still pending of it is what the vCPU was injected with, which it is unless a vCPU has handed it
back. -/
theorem completed_iff {g₀ g g' : GicD} {ops ops' : List GicOp} (hg₀ : g₀.Fresh)
    (h : Run (fun (g : GicD) op t => t = g.exec op) g₀ ops g) {v id : ℕ} (hppi : ppiBase ≤ id)
    {minPriority : UInt8} (hinj : g.Injects v minPriority id)
    (hrun : Run (QuietStep v id) (g.exec (.pendingIrq v minPriority)) ops' g')
    (hlow : (g'.irqObject v id).swEdge = true ∨ (g'.irqObject v id).lineAsserted = false) :
    ((g'.exec (.updateInjStatus v id .inactive false)).Retired v id ↔
        (g'.irqObject v id).swAsserted = false ∧ g'.StillInjected v id) ∧
      ((∀ op ∈ ops', ¬HandsBack v id op) → g'.StillInjected v id) := by
  have hsender := senderZero_run hg₀ h
  have hsender' : g'.SenderZero := by
    refine hrun.invariant (fun u op t hu hstep => ?_) (hsender.exec _)
    rw [hstep.2]
    exact hu.exec op
  refine ⟨(retired_iff hppi).trans (pending_completed_iff hsender' hppi hlow), fun hback => ?_⟩
  have hkept : KeptBy v (g'.irqObject v id) := by
    clear hlow hsender'
    induction hrun with
    | nil => exact ⟨hsender.exec _ v id hppi, stillInjected_of_injects hppi hsender hinj⟩
    | snoc _ hlast ih =>
        rw [List.forall_mem_append] at hback
        obtain ⟨hquiet, rfl⟩ := hlast
        exact kept_exec hppi (ih hback.1) hquiet (hback.2 _ (List.mem_singleton_self _))
  exact hkept.2

/-- A GIC where SPI 40 has been enabled, and is made pending by the call. -/
def pendingGic (op : GicOp) : GicD :=
  [.mmioWrite 0 0x0 4 1, .mmioWrite 0 0x104 4 0x100, op].foldl exec (init .gicV2 1 64)

theorem injects_pendingGic {op : GicOp}
    (h : ((pendingGic op).highestIrq 0 true).1 = some 40) : (pendingGic op).Injects 0 0xff 40 :=
  ⟨h, UInt8.not_lt.2 (UInt8.le_iff_toNat_le.2 (Nat.le_of_lt_succ (UInt8.toNat_lt _)))⟩

/-- An interrupt that the guest has set pending stays pending when it has been completed. -/
theorem sw_pending_stuck : ∃ (g₀ g g' : GicD) (ops ops' : List GicOp) (v id : ℕ)
    (minPriority : UInt8), g₀.Fresh ∧ Run (fun (g : GicD) op t => t = g.exec op) g₀ ops g ∧
      ppiBase ≤ id ∧ g.Injects v minPriority id ∧
      Run (QuietStep v id) (g.exec (.pendingIrq v minPriority)) ops' g' ∧
      (g'.irqObject v id).hw = false ∧
      ((g'.irqObject v id).swEdge = true ∨ (g'.irqObject v id).lineAsserted = false) ∧
      ¬(g'.exec (.updateInjStatus v id .inactive false)).Retired v id := by
  refine ⟨_, pendingGic (.mmioWrite 0 0x204 4 0x100), _, _, [], 0, 40, 0xff,
    fresh_init .gicV2 1 64, run_exec _ _, by decide, injects_pendingGic (by decide +kernel), .nil,
    by decide +kernel, .inl (by decide +kernel), fun hretired => ?_⟩
  have hpend : ((((pendingGic (.mmioWrite 0 0x204 4 0x100)).exec (.pendingIrq 0 0xff)).exec
      (.updateInjStatus 0 40 .inactive false)).irqObject 0 40).pending = true := by decide +kernel
  rw [hretired.pending] at hpend
  cases hpend

/-- One that a device has asserted does not. -/
theorem edge_retired : (((pendingGic (.assertGlobalLine 40)).exec (.pendingIrq 0 0xff)).exec
    (.updateInjStatus 0 40 .inactive false)).Retired 0 40 := by
  have hboth := @completed_iff (init .gicV2 1 64) (pendingGic (.assertGlobalLine 40)) _ _ []
    (fresh_init .gicV2 1 64) (run_exec _ _) 0 40 (by decide) 0xff
    (injects_pendingGic (by decide +kernel)) .nil (.inl (by decide +kernel))
  exact hboth.1.2 ⟨by decide +kernel, hboth.2 (fun _ h => absurd h List.not_mem_nil)⟩

end Vml.GicD
