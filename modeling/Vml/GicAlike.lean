import Vml.GicLevel
import Vml.GicRead
import Vml.Gits

/-!
# Distributors that behave alike

Two distributors can differ in what they hold and still answer every call alike.

**LPIs.** The guest does not see the priority of an LPI, nor its injection info. `assert_lpi` stores
both before it announces the LPI, so as long as the LPI is not pending they do not matter. **The
hint.** An interrupt for any vCPU is offered to the one whose number is the remainder of
`_vcpu_global_hint` first. Hints with one remainder stay so, if they wrap around together. A GICv2
does not use its hint.

Main results: what each call makes of distributors that are alike, from `Alike.mmioWrite` to
`Alike.reset`.
-/

namespace Vml

/-- The interrupts `id` of two distributors are the same, or LPIs that are not pending and differ in
nothing else than their priority and their injection info. -/
def Irq.Alike (id : ℕ) (irq irq' : Irq) : Prop :=
  irq' = irq ∨
    lpiBase ≤ id ∧ irq.injectionInfo.pending = false ∧ irq'.injectionInfo.pending = false ∧
      irq' = { irq with prio := irq'.prio, injectionInfo := irq'.injectionInfo }

namespace Irq.Alike

variable {id : ℕ} {irq irq' : Irq}

theorem refl (id : ℕ) (irq : Irq) : Irq.Alike id irq irq := .inl rfl

theorem eq_of_lt (h : Irq.Alike id irq irq') (hid : id < lpiBase) : irq' = irq := by
  obtain heq | ⟨hle, -⟩ := h
  · exact heq
  · exact absurd hle (Nat.not_le.2 hid)

theorem eq_of_pending (h : Irq.Alike id irq irq') (hp : irq.injectionInfo.pending = true) :
    irq' = irq := by
  obtain heq | ⟨-, hidle, -⟩ := h
  · exact heq
  · rw [hidle] at hp
    cases hp

theorem fields (h : Irq.Alike id irq irq') : irq'.target = irq.target ∧
    irq'.routing = irq.routing ∧ irq'.hw = irq.hw ∧ irq'.hwEdge = irq.hwEdge ∧
    irq'.swEdge = irq.swEdge ∧ irq'.swAsserted = irq.swAsserted ∧ irq'.enable = irq.enable ∧
    irq'.group1 = irq.group1 ∧ irq'.active = irq.active ∧
    irq'.injectionInfo.pending = irq.injectionInfo.pending ∧ irq'.pending = irq.pending := by
  obtain rfl | ⟨-, hidle, hidle', heq⟩ := h
  · simp
  · rw [heq]
    simp [Irq.pending, hidle, hidle']

theorem store (h : Irq.Alike id irq irq') {f : Irq → Irq}
    (hf : ∀ (irq : Irq) p i, f { irq with prio := p, injectionInfo := i } =
      { f irq with prio := p, injectionInfo := i }) : Irq.Alike id (f irq) (f irq') := by
  have hinfo (irq : Irq) : (f irq).injectionInfo = irq.injectionInfo :=
    (congrArg Irq.injectionInfo (hf irq irq.prio irq.injectionInfo) :)
  obtain rfl | ⟨hid, hidle, hidle', heq⟩ := h
  · exact .refl _ _
  · refine .inr ⟨hid, by rwa [hinfo], by rwa [hinfo], ?_⟩
    rw [heq, hf]

theorem info (h : Irq.Alike id irq irq') {f : IrqInjectionInfo → IrqInjectionInfo}
    (hf : ∀ i, i.pending = false → (f i).pending = false) :
    Irq.Alike id { irq with injectionInfo := f irq.injectionInfo }
      { irq' with injectionInfo := f irq'.injectionInfo } := by
  obtain rfl | ⟨hid, hidle, hidle', heq⟩ := h
  · exact .refl _ _
  · refine .inr ⟨hid, hf _ hidle, hf _ hidle', ?_⟩
    rw [heq]

theorem reset (h : Irq.Alike id irq irq') (t : UInt8) :
    Irq.Alike id (irq.reset t) (irq'.reset t) := by
  obtain rfl | ⟨hid, hidle, hidle', heq⟩ := h
  · exact .refl _ _
  · refine .inr ⟨hid, ?_, ?_, ?_⟩
    · rw [Irq.reset]
      split_ifs
      · exact hidle
      · rfl
    · rw [Irq.reset]
      split_ifs
      · exact hidle'
      · rfl
    · rw [heq]
      rfl

end Irq.Alike

namespace GicD

/-- What a step makes of the hints of two distributors with `n` vCPUs is the same. -/
def HintsAlike (n : ℕ) (hint hint' : UInt16) : Prop :=
  hint' = hint ∨ n ∣ 65536 ∧ hint'.toNat % n = hint.toNat % n

/-- The distributors differ in nothing that a call brings to light. They have no more lines than
`compute_irq_lines` allows. -/
structure Alike (g g' : GicD) : Prop where
  rest : g' = { g with irq := g'.irq, vcpuGlobalHint := g'.vcpuGlobalHint }
  irq : ∀ id, Irq.Alike id (g.irq id) (g'.irq id)
  hint : g.version = .gicV2 ∧ g.affinityRouting = false ∨
    HintsAlike g.numVcpus g.vcpuGlobalHint g'.vcpuGlobalHint
  lines : g.configuredIrqs ≤ maxIrqNoLpi

/-- Two outcomes with one result, and distributors that are alike. -/
def AlikeOut {β : Type} (r r' : β × GicD) : Prop := r'.1 = r.1 ∧ Alike r.2 r'.2

theorem AlikeOut.ite {β : Type} {c : Prop} [Decidable c] {a b a' b' : β × GicD}
    (ha : c → AlikeOut a a') (hb : ¬c → AlikeOut b b') :
    AlikeOut (if c then a else b) (if c then a' else b') := by
  split_ifs with hc
  · exact ha hc
  · exact hb hc

theorem Alike.ite {c : Prop} [Decidable c] {a b a' b' : GicD} (ha : c → Alike a a')
    (hb : ¬c → Alike b b') : Alike (if c then a else b) (if c then a' else b') := by
  split_ifs with hc
  · exact ha hc
  · exact hb hc

namespace Alike

variable {g g' : GicD}

/-! ## What they have in common -/

theorem exists_eq (h : Alike g g') :
    ∃ irq hint, g' = { g with irq := irq, vcpuGlobalHint := hint } := ⟨_, _, h.rest⟩

theorem version (h : Alike g g') : g'.version = g.version := by rw [h.rest]

theorem numVcpus (h : Alike g g') : g'.numVcpus = g.numVcpus := by rw [h.rest]

theorem configuredIrqs (h : Alike g g') : g'.configuredIrqs = g.configuredIrqs := by rw [h.rest]

theorem lpiSupported (h : Alike g g') : g'.lpiSupported = g.lpiSupported := by rw [h.rest]

theorem clusters (h : Alike g g') : g'.clusters = g.clusters := by rw [h.rest]

theorem ctlr (h : Alike g g') : g'.ctlr = g.ctlr := by rw [h.rest]

theorem bank (h : Alike g g') : g'.bank = g.bank := by rw [h.rest]

theorem propBaser (h : Alike g g') : g'.propBaser = g.propBaser := by rw [h.rest]

theorem pendBaser (h : Alike g g') : g'.pendBaser = g.pendBaser := by rw [h.rest]

theorem affinityRouting (h : Alike g g') : g'.affinityRouting = g.affinityRouting := by
  rw [GicD.affinityRouting, h.ctlr, GicD.affinityRouting]

theorem irqObject (h : Alike g g') (cpu id : ℕ) :
    Irq.Alike id (g.irqObject cpu id) (g'.irqObject cpu id) := by
  rw [GicD.irqObject, GicD.irqObject, h.bank]
  split_ifs
  · exact .refl _ _
  · exact h.irq id

theorem foldl {α : Type} (l : List α) {f f' : GicD → α → GicD} (h : Alike g g')
    (hf : ∀ a ∈ l, ∀ g g', Alike g g' → Alike (f g a) (f' g' a)) :
    Alike (l.foldl f g) (l.foldl f' g') := by
  induction l generalizing g g' with
  | nil => exact h
  | cons a l ih =>
      have hhead := hf a List.mem_cons_self g g' h
      exact ih hhead fun b hb => hf b (List.mem_cons_of_mem a hb)

/-! ## Stores -/

theorem modifyBank (h : Alike g g') (cpu : ℕ) (f : Banked → Banked) :
    Alike (g.modifyBank cpu f) (g'.modifyBank cpu f) := by
  obtain ⟨irq, hint, rfl⟩ := h.exists_eq
  exact ⟨rfl, h.irq, h.hint, h.lines⟩

theorem modifyIrq (h : Alike g g') (cpu id : ℕ) {f f' : Irq → Irq}
    (hf : Irq.Alike id (f (g.irqObject cpu id)) (f' (g'.irqObject cpu id))) :
    Alike (g.modifyIrq cpu id f) (g'.modifyIrq cpu id f') := by
  simp only [GicD.irqObject, h.bank] at hf
  simp only [GicD.modifyIrq]
  split_ifs at hf ⊢ with hid
  · have heq : f' ((g.bank cpu).irq id) = f ((g.bank cpu).irq id) :=
      hf.eq_of_lt (Nat.lt_trans hid (by decide))
    have hbank := h.modifyBank cpu fun b =>
      { b with irq := Function.update b.irq id (f' (b.irq id)) }
    refine Eq.mp ?_ hbank
    simp only [GicD.modifyBank, heq]
  · obtain ⟨irq, hint, rfl⟩ := h.exists_eq
    refine ⟨rfl, fun x => ?_, h.hint, h.lines⟩
    obtain rfl | hx := eq_or_ne x id
    · simpa only [Function.update_self] using hf
    · simpa only [Function.update_of_ne hx] using h.irq x

theorem storeIrq (h : Alike g g') (cpu id : ℕ) {f : Irq → Irq}
    (hf : ∀ (irq : Irq) p i, f { irq with prio := p, injectionInfo := i } =
      { f irq with prio := p, injectionInfo := i }) :
    Alike (g.modifyIrq cpu id f) (g'.modifyIrq cpu id f) :=
  h.modifyIrq cpu id ((h.irqObject cpu id).store hf)

theorem modifyIrq_of_lt (h : Alike g g') (cpu : ℕ) {id : ℕ} (hid : id < lpiBase) (f : Irq → Irq) :
    Alike (g.modifyIrq cpu id f) (g'.modifyIrq cpu id f) := by
  refine h.modifyIrq cpu id ?_
  rw [(h.irqObject cpu id).eq_of_lt hid]
  exact .refl _ _

theorem setInfo (h : Alike g g') (cpu : ℕ) {id : ℕ} (hid : id < lpiBase)
    (info : IrqInjectionInfo) : Alike (g.setInfo cpu id info) (g'.setInfo cpu id info) :=
  h.modifyIrq_of_lt cpu hid _

theorem setPendingIrq (h : Alike g g') (cpu id : ℕ) :
    Alike (g.setPendingIrq cpu id) (g'.setPendingIrq cpu id) := h.modifyBank cpu _

theorem clrPendingIrq (h : Alike g g') (cpu id : ℕ) :
    Alike (g.clrPendingIrq cpu id) (g'.clrPendingIrq cpu id) := h.modifyBank cpu _

theorem setInInjection (h : Alike g g') (cpu id : ℕ) :
    Alike (g.setInInjection cpu id) (g'.setInInjection cpu id) := h.modifyBank cpu _

theorem clrInInjection (h : Alike g g') (cpu id : ℕ) :
    Alike (g.clrInInjection cpu id) (g'.clrInInjection cpu id) := h.modifyBank cpu _

theorem notifyInterruptPending (h : Alike g g') (cpu : ℕ) :
    Alike (g.notifyInterruptPending cpu) (g'.notifyInterruptPending cpu) := h.modifyBank cpu _

theorem modifyGicR (h : Alike g g') (cpu : ℕ) (f : GicR → GicR) :
    Alike (g.modifyGicR cpu f) (g'.modifyGicR cpu f) := h.modifyBank cpu _

theorem setPropBaser (h : Alike g g') (v : UInt64) :
    Alike { g with propBaser := v } { g' with propBaser := v } := by
  obtain ⟨irq, hint, rfl⟩ := h.exists_eq
  exact ⟨rfl, h.irq, h.hint, h.lines⟩

theorem setPendBaser (h : Alike g g') (v : UInt64) :
    Alike { g with pendBaser := v } { g' with pendBaser := v } := by
  obtain ⟨irq, hint, rfl⟩ := h.exists_eq
  exact ⟨rfl, h.irq, h.hint, h.lines⟩

/-- The control register of a GICv2 does not take the bit for affinity routing. -/
theorem setCtlr (h : Alike g g') (v : UInt32) (hv : g.version = .gicV2 → v &&& 16 = 0) :
    Alike { g with ctlr := v } { g' with ctlr := v } := by
  obtain ⟨irq, hint, rfl⟩ := h.exists_eq
  refine ⟨rfl, h.irq, ?_, h.lines⟩
  obtain ⟨hversion, -⟩ | halike := h.hint
  · refine .inl ⟨hversion, ?_⟩
    simp [GicD.affinityRouting, hv hversion]
  · exact .inr halike

/-! ## Routing -/

theorem hintsAlike_succ {n : ℕ} {hint hint' : UInt16} (h : HintsAlike n hint hint') :
    HintsAlike n (hint + 1) (hint' + 1) := by
  obtain rfl | ⟨hdvd, hmod⟩ := h
  · exact .inl rfl
  · refine .inr ⟨hdvd, ?_⟩
    have hstep (x : UInt16) : (x + 1).toNat % n = (x.toNat + 1) % n := by
      rw [UInt16.toNat_add]
      exact Nat.mod_mod_of_dvd _ hdvd
    rw [hstep, hstep, Nat.add_mod, hmod, ← Nat.add_mod]

theorem bumpHint (h : Alike g g') : Alike g.bumpHint g'.bumpHint := by
  obtain ⟨irq, hint, rfl⟩ := h.exists_eq
  exact ⟨rfl, h.irq, h.hint.imp id hintsAlike_succ, h.lines⟩

theorem routing_hint (h : Alike g g') : g.affinityRouting = false ∨
    g'.vcpuGlobalHint.toNat % g.numVcpus = g.vcpuGlobalHint.toNat % g.numVcpus := by
  obtain ⟨-, hoff⟩ | heq | ⟨-, hmod⟩ := h.hint
  · exact .inl hoff
  · exact .inr (by rw [heq])
  · exact .inr hmod

theorem routeSpi (h : Alike g g') {id : ℕ} {irq irq' : Irq} (hirq : Irq.Alike id irq irq')
    {hint hint' : ℕ}
    (hhint : g.affinityRouting = false ∨ hint' % g.numVcpus = hint % g.numVcpus) :
    g'.routeSpi irq' hint' = g.routeSpi irq hint := by
  obtain ⟨htarget, hrouting, -⟩ := hirq.fields
  have hsame : g'.routeSpi irq' hint' = g.routeSpi irq hint' := by
    obtain ⟨_, _, rfl⟩ := h.exists_eq
    have hform (irq : Irq) : g.routeSpi irq hint' =
      g.routeSpi { target := irq.target, routing := irq.routing } hint' := rfl
    show g.routeSpi irq' hint' = g.routeSpi irq hint'
    rw [hform irq', htarget, hrouting, ← hform irq]
  rw [hsame]
  obtain hoff | hmod := hhint
  · simp only [GicD.routeSpi, hoff, Bool.not_false, if_true]
  · simp only [GicD.routeSpi, hmod]

theorem vcpuCanReceiveIrq (h : Alike g g') (cpu id : ℕ) :
    g'.vcpuCanReceiveIrq cpu id = g.vcpuCanReceiveIrq cpu id := by
  rw [GicD.vcpuCanReceiveIrq, GicD.vcpuCanReceiveIrq, h.affinityRouting, h.bank]

theorem notifyCpu (h : Alike g g') (id cpu : ℕ) :
    Alike (g.notifyCpu id cpu) (g'.notifyCpu id cpu) := by
  have hset := h.setPendingIrq cpu id
  simp only [GicD.notifyCpu, hset.vcpuCanReceiveIrq]
  exact .ite (fun _ => hset.notifyInterruptPending cpu) fun _ => hset

theorem notifyTarget (h : Alike g g') (id : ℕ) (target : IrqTarget) :
    AlikeOut (g.notifyTarget id target) (g'.notifyTarget id target) := by
  have hnotified : g'.notified target = g.notified target := by
    simp only [GicD.notified, h.numVcpus]
  refine ⟨rfl, ?_⟩
  simp only [GicD.notifyTarget, hnotified]
  exact h.foldl _ fun cpu _ _ _ h => h.notifyCpu id cpu

/-! ## Assertion -/

/-- An info is stored to interrupts that are the same, and the targets are notified. -/
theorem setInfo_notifyTarget (h : Alike g g') (cpu : ℕ) {id : ℕ}
    (hirq : g'.irqObject cpu id = g.irqObject cpu id) (info : IrqInjectionInfo)
    (target : IrqTarget) :
    AlikeOut ((g.setInfo cpu id info).notifyTarget id target)
      ((g'.setInfo cpu id info).notifyTarget id target) := by
  refine notifyTarget (h.modifyIrq cpu id ?_) id target
  rw [hirq]
  exact .refl _ _

theorem redirectSpi (h : Alike g g') (id : ℕ) {hint hint' : ℕ}
    (hhint : g.affinityRouting = false ∨ hint' % g.numVcpus = hint % g.numVcpus) :
    AlikeOut (g.redirectSpi id hint) (g'.redirectSpi id hint') := by
  have hirq := h.irqObject 0 id
  simp only [GicD.redirectSpi, h.routeSpi hirq hhint]
  generalize g.routeSpi (g.irqObject 0 id) hint = target
  by_cases hp : (g.irqObject 0 id).injectionInfo.pending = true
  · rw [hirq.eq_of_pending hp]
    cases (g.irqObject 0 id).injectionInfo.redirected target with
    | none => exact ⟨rfl, h⟩
    | some info => exact h.setInfo_notifyTarget 0 (hirq.eq_of_pending hp) info target
  · have hp' : (g'.irqObject 0 id).injectionInfo.pending = false := by
      rw [hirq.fields.2.2.2.2.2.2.2.2.2.1]
      exact Bool.eq_false_iff.2 hp
    rw [IrqInjectionInfo.redirected, IrqInjectionInfo.redirected, hp', Bool.eq_false_iff.2 hp]
    exact ⟨rfl, h⟩

theorem assertPi (h : Alike g g') (cpuId owner : ℕ) {id : ℕ} (hid : id < lpiBase) :
    AlikeOut (g.assertPi cpuId owner id) (g'.assertPi cpuId owner id) := by
  have hbump : Alike (if spiBase ≤ id then g.bumpHint else g)
      (if spiBase ≤ id then g'.bumpHint else g') := .ite (fun _ => h.bumpHint) fun _ => h
  simp only [GicD.assertPi]
  generalize (if spiBase ≤ id then g.bumpHint else g) = e at hbump ⊢
  generalize (if spiBase ≤ id then g'.bumpHint else g') = e' at hbump ⊢
  have hirq := hbump.irqObject owner id
  rw [hbump.routeSpi hirq hbump.routing_hint]
  exact hbump.setInfo_notifyTarget owner (hirq.eq_of_lt hid) _ _

theorem assertPiSw (h : Alike g g') (cpuId owner : ℕ) {id : ℕ} (hid : id < lpiBase) :
    AlikeOut (g.assertPiSw cpuId owner id) (g'.assertPiSw cpuId owner id) :=
  (h.modifyIrq_of_lt owner hid _).assertPi cpuId owner hid

theorem assertSgi (h : Alike g g') (sender target owner : ℕ) {id : ℕ} (hid : id < maxSgi) :
    AlikeOut (g.assertSgi sender target owner id) (g'.assertSgi sender target owner id) := by
  have hlpi : id < lpiBase := Nat.lt_trans hid (by decide)
  have hirq := (h.irqObject owner id).eq_of_lt hlpi
  simp only [GicD.assertSgi, h.affinityRouting, hirq]
  refine .ite (fun _ => h.assertPi target owner hlpi) fun _ => ?_
  exact .ite (fun _ => ⟨rfl, h⟩) fun _ => h.setInfo_notifyTarget owner hirq _ _

theorem deassertPi (h : Alike g g') (owner : ℕ) {id : ℕ} (hid : id < lpiBase) :
    AlikeOut (g.deassertPi owner id) (g'.deassertPi owner id) := by
  simp only [GicD.deassertPi, (h.irqObject owner id).eq_of_lt hid]
  exact .ite (fun _ => ⟨rfl, h⟩) fun _ => ⟨rfl, h.setInfo owner hid _⟩

theorem deassertPiSw (h : Alike g g') (owner : ℕ) {id : ℕ} (hid : id < lpiBase) :
    AlikeOut (g.deassertPiSw owner id) (g'.deassertPiSw owner id) :=
  (h.modifyIrq_of_lt owner hid _).deassertPi owner hid

theorem deassertSgi (h : Alike g g') (sender owner : ℕ) {id : ℕ} (hid : id < maxSgi) :
    AlikeOut (g.deassertSgi sender owner id) (g'.deassertSgi sender owner id) := by
  have hlpi : id < lpiBase := Nat.lt_trans hid (by decide)
  simp only [GicD.deassertSgi, h.affinityRouting, (h.irqObject owner id).eq_of_lt hlpi]
  refine .ite (fun _ => h.deassertPi owner hlpi) fun _ => ?_
  exact .ite (fun _ => ⟨rfl, h⟩) fun _ => ⟨rfl, h.setInfo owner hlpi _⟩

theorem raiseLine_assertPi (h : Alike g g') (cpuId owner : ℕ) {id : ℕ} (hid : id < lpiBase)
    (f : Irq → Irq) : AlikeOut ((g.modifyIrq owner id f).assertPi cpuId owner id)
      ((g'.modifyIrq owner id f).assertPi cpuId owner id) :=
  (h.modifyIrq_of_lt owner hid f).assertPi cpuId owner hid

theorem assertPpi (h : Alike g g') (cpuId irqId : ℕ) :
    AlikeOut (g.assertPpi cpuId irqId) (g'.assertPpi cpuId irqId) := by
  simp only [GicD.assertPpi, h.numVcpus]
  refine .ite (fun _ => ⟨rfl, h⟩) fun _ => .ite (fun _ => ⟨rfl, h⟩) fun hid => ?_
  exact h.raiseLine_assertPi cpuId cpuId (Nat.lt_trans (Nat.not_le.1 hid) (by decide)) _

theorem assertGlobalLine (h : Alike g g') (irqId : ℕ) :
    AlikeOut (g.assertGlobalLine irqId) (g'.assertGlobalLine irqId) := by
  simp only [GicD.assertGlobalLine, h.configuredIrqs]
  refine .ite (fun _ => ⟨rfl, h⟩) fun hid => .ite (fun _ => ⟨rfl, h⟩) fun _ => ?_
  have hlt : irqId < lpiBase := (Nat.not_le.1 hid).trans_le (h.lines.trans (by decide))
  exact h.raiseLine_assertPi 0 0 hlt _

theorem deassertLine (h : Alike g g') (cpuId irqId : ℕ) :
    Alike (g.deassertLine cpuId irqId) (g'.deassertLine cpuId irqId) := by
  simp only [GicD.deassertLine, h.numVcpus]
  refine .ite (fun _ => h) fun _ => .ite (fun _ => h) fun hid => ?_
  have hlt : irqId < lpiBase := Nat.lt_trans (Nat.not_le.1 hid) (by decide)
  have hlower := h.modifyIrq_of_lt cpuId hlt ({ · with lineAsserted := false })
  rw [(hlower.irqObject cpuId irqId).eq_of_lt hlt]
  exact .ite (fun _ => (hlower.deassertPi cpuId hlt).2) fun _ => hlower

theorem configIrq (h : Alike g g') (cpuId irqId : ℕ) (hw : Bool) (pintid : UInt16) (edge : Bool) :
    AlikeOut (g.configIrq cpuId irqId hw pintid edge)
      (g'.configIrq cpuId irqId hw pintid edge) := by
  simp only [GicD.configIrq, h.configuredIrqs, h.numVcpus]
  refine .ite (fun _ => ⟨rfl, h⟩) fun _ => .ite (fun _ => ⟨rfl, h⟩) fun _ => ⟨rfl, ?_⟩
  exact h.storeIrq cpuId irqId (f := (·.configureHw hw pintid edge)) fun _ _ _ => rfl

/-! ## Register writes -/

theorem lt_lpiBase_of_mem_irqs {acc : IrqMmioAccess} {p : ℕ × ℕ} (hp : p ∈ acc.irqs) :
    p.2 < lpiBase := by
  rw [IrqMmioAccess.irqs] at hp
  split_ifs at hp with hvalid
  · obtain ⟨i, hi, rfl⟩ := List.mem_map.1 hp
    have hi := List.mem_range.1 hi
    simp only [IrqMmioAccess.isValid, decide_eq_true_eq] at hvalid
    simp only [lpiBase, maxSpi, maxPpi, maxSgi] at hvalid ⊢
    omega
  · exact absurd hp List.not_mem_nil

theorem write (h : Alike g g') (cpu : ℕ) (acc : IrqMmioAccess) (value : UInt64)
    (f : UInt8 → Irq → Irq) :
    AlikeOut (g.write cpu acc value f) (g'.write cpu acc value f) :=
  ⟨rfl, h.foldl _ fun _ hp _ _ h => h.modifyIrq_of_lt cpu (lt_lpiBase_of_mem_irqs hp) _⟩

theorem reroute (h : Alike g g') (cpu id : ℕ) :
    Alike
      (if (g.irqObject cpu id).pending then
        (g.bumpHint.redirectSpi id g.bumpHint.vcpuGlobalHint.toNat).2 else g)
      (if (g'.irqObject cpu id).pending then
        (g'.bumpHint.redirectSpi id g'.bumpHint.vcpuGlobalHint.toNat).2 else g') := by
  rw [(h.irqObject cpu id).fields.2.2.2.2.2.2.2.2.2.2]
  exact .ite (fun _ => (h.bumpHint.redirectSpi id h.bumpHint.routing_hint).2) fun _ => h

theorem changeTarget (h : Alike g g') (cpu : ℕ) (acc : IrqMmioAccess) (value : UInt64) :
    AlikeOut (g.changeTarget cpu acc value) (g'.changeTarget cpu acc value) := by
  refine ⟨rfl, h.foldl _ fun p hp _ _ h => ?_⟩
  exact (h.modifyIrq_of_lt cpu (lt_lpiBase_of_mem_irqs hp) _).reroute cpu p.2

theorem mmioAssert (h : Alike g g') (acc : IrqMmioAccess) (value : UInt64) {f : GicD → ℕ → GicD}
    (hf : ∀ {g g'}, Alike g g' → ∀ id < lpiBase, Alike (f g id) (f g' id)) :
    AlikeOut (g.mmioAssert acc value f) (g'.mmioAssert acc value f) := by
  refine ⟨rfl, h.foldl _ fun p hp _ _ h => ?_⟩
  exact .ite (fun _ => hf h p.2 (lt_lpiBase_of_mem_irqs hp)) fun _ => h

theorem mmioAssertSgi (h : Alike g g') {acc : IrqMmioAccess} (value : UInt64)
    {f : GicD → ℕ → ℕ → GicD} (hacc : ∀ p ∈ acc.irqs, p.2 < maxSgi)
    (hf : ∀ {g g'}, Alike g g' → ∀ j, ∀ id < maxSgi, Alike (f g j id) (f g' j id)) :
    AlikeOut (g.mmioAssertSgi acc value f) (g'.mmioAssertSgi acc value f) := by
  refine ⟨rfl, h.foldl _ fun p hp _ _ h => h.foldl _ fun j _ _ _ h => ?_⟩
  exact .ite (fun _ => hf h j p.2 (hacc p hp)) fun _ => h

theorem writeRegister_v2 {offset value : UInt64} {bytes : UInt8} {result v : UInt32}
    (hv : writeRegister offset 0 3 bytes value result (~~~(1 ||| 2)) 64 = some v) :
    v &&& 16 = 0 := by
  have hbit (x : UInt32) : (x &&& (1 ||| 2) ||| 64) &&& 16 = 0 := by
    refine UInt32.toBitVec_inj.1 ?_
    simp [BitVec.and_or_distrib_right, BitVec.and_assoc]
  rw [writeRegister] at hv
  split_ifs at hv
  all_goals
    rw [← Option.some.inj hv, UInt32.not_not]
    exact hbit _

theorem writeCtlr (h : Alike g g') (offset : UInt64) (bytes : UInt8) (value : UInt64) :
    AlikeOut (g.writeCtlr offset bytes value) (g'.writeCtlr offset bytes value) := by
  obtain ⟨_, _, rfl⟩ := h.exists_eq
  simp only [GicD.writeCtlr]
  cases hv : writeRegister offset 0 3 bytes value g.ctlr
      (if g.version = .gicV3 then ~~~(16 ||| 1 ||| 2) else ~~~(1 ||| 2)) 64 with
  | none => exact ⟨rfl, h⟩
  | some v =>
      refine ⟨rfl, h.setCtlr v fun hversion => ?_⟩
      rw [hversion] at hv
      exact writeRegister_v2 hv

theorem writeIrouter (h : Alike g g') (cpu : ℕ) (offset : UInt64) (bytes : UInt8)
    (value : UInt64) : Alike (g.writeIrouter cpu offset bytes value)
      (g'.writeIrouter cpu offset bytes value) := by
  simp only [GicD.writeIrouter, h.affinityRouting, h.configuredIrqs]
  refine .ite (fun _ => h) fun _ => .ite (fun _ => h) fun _ => .ite (fun _ => h) fun _ => ?_
  have hstore := h.storeIrq cpu (spiBase + ((offset - 0x6100) / 8).toNat)
    (f := ({ · with routing := value })) fun _ _ _ => rfl
  exact hstore.reroute cpu _

theorem sendSgi (h : Alike g g') (sender target : ℕ) {sgiId : ℕ} (hid : sgiId < maxSgi) :
    Alike (g.sendSgi sender target sgiId) (g'.sendSgi sender target sgiId) :=
  (h.assertSgi sender target target hid).2

theorem writeSgir (h : Alike g g') (cpuId : ℕ) (value : UInt64) :
    Alike (g.writeSgir cpuId value) (g'.writeSgir cpuId value) := by
  have hid := toNat_and_lt_maxSgi value
  simp only [GicD.writeSgir]
  refine .ite (fun _ => h.foldl _ fun tcpu _ _ _ h => ?_) fun _ =>
    .ite (fun _ => h.foldl _ fun tcpu _ _ _ h => ?_) fun _ =>
    .ite (fun _ => h.sendSgi cpuId cpuId hid) fun _ => h
  · exact .ite (fun _ => h.sendSgi cpuId tcpu hid) fun _ => h
  · exact .ite (fun _ => h) fun _ => h.sendSgi cpuId tcpu hid

theorem mmioWrite32OrLess (h : Alike g g') (cpuId : ℕ) {acc : IrqMmioAccess}
    (value : UInt64) :
    AlikeOut (g.mmioWrite32OrLess cpuId acc value) (g'.mmioWrite32OrLess cpuId acc value) := by
  have hoff : g'.affinityRouting = g.affinityRouting := h.affinityRouting
  simp only [GicD.mmioWrite32OrLess, hoff]
  refine .ite (fun _ => h.writeCtlr _ _ _) fun _ => ?_
  refine .ite (fun _ => h.write _ _ _ _) fun _ => ?_
  refine .ite (fun _ => h.write _ _ _ _) fun _ => ?_
  refine .ite (fun _ => h.write _ _ _ _) fun _ => ?_
  refine .ite (fun _ => h.mmioAssert _ _ fun h _ hid => (h.assertPiSw _ _ hid).2) fun _ => ?_
  refine .ite (fun _ => h.mmioAssert _ _ fun h _ hid => (h.deassertPiSw _ hid).2) fun _ => ?_
  refine .ite (fun _ => h.write _ _ _ _) fun _ => ?_
  refine .ite (fun _ => h.write _ _ _ _) fun _ => ?_
  refine .ite (fun _ => h.write _ _ _ _) fun _ => ?_
  refine .ite (fun _ => h.changeTarget _ _ _) fun _ => ?_
  refine .ite (fun _ => h.write _ _ _ _) fun _ => ?_
  refine .ite (fun _ => h.write _ _ _ _) fun _ => ?_
  refine .ite (fun _ => ⟨rfl, h.writeSgir _ _⟩) fun _ => ?_
  refine .ite (fun _ => .ite (fun _ => ⟨rfl, h⟩) fun _ => ?_) fun _ =>
    .ite (fun _ => .ite (fun _ => ⟨rfl, h⟩) fun _ => ?_) fun _ => ⟨rfl, h⟩
  · exact h.mmioAssertSgi _ (fun _ hp => lt_maxSgi_of_mem_irqs rfl rfl hp)
      fun h _ _ hid => (h.deassertSgi _ _ hid).2
  · exact h.mmioAssertSgi _ (fun _ hp => lt_maxSgi_of_mem_irqs rfl rfl hp)
      fun h _ _ hid => (h.assertSgi _ _ _ hid).2

theorem irqMmioAccess (h : Alike g g') (offset : UInt64) (bytes : UInt8) (type : AccessType) :
    g'.irqMmioAccess offset bytes type = g.irqMmioAccess offset bytes type := by
  rw [GicD.irqMmioAccess, GicD.irqMmioAccess, h.configuredIrqs]

theorem mmioWrite (h : Alike g g') (cpuId : ℕ) (offset : UInt64) (bytes : UInt8)
    (value : UInt64) :
    AlikeOut (g.mmioWrite cpuId offset bytes value) (g'.mmioWrite cpuId offset bytes value) := by
  simp only [GicD.mmioWrite, h.numVcpus, h.irqMmioAccess]
  refine .ite (fun _ => ⟨rfl, h⟩) fun _ => ?_
  refine .ite (fun _ => ⟨rfl, h.writeIrouter _ _ _ _⟩) fun _ => ?_
  refine .ite (fun _ => ⟨rfl, h⟩) fun _ => .ite (fun _ => ⟨rfl, h⟩) fun _ => ?_
  exact h.mmioWrite32OrLess cpuId value

theorem iccSgi1rEl1 (h : Alike g g') (value : UInt64) (self : ℕ) :
    Alike (g.iccSgi1rEl1 value self) (g'.iccSgi1rEl1 value self) := by
  have hid : (value >>> 24 &&& 0xf).toNat < maxSgi := toNat_and_lt_maxSgi _
  simp only [GicD.iccSgi1rEl1, h.numVcpus, h.clusters]
  refine .ite (fun _ => h.foldl _ fun _ _ _ _ h => ?_) fun _ => ?_
  · exact .ite (fun _ => h) fun _ => h.sendSgi _ _ hid
  · split
    · exact h
    · refine h.foldl _ fun tcpu _ _ _ h => .ite (fun _ => ?_) fun _ => h
      split
      · exact h
      · exact h.sendSgi _ _ hid

/-! ## Delivery -/

theorem prio_redirectSpi (g : GicD) (id hint c x : ℕ) :
    ((g.redirectSpi id hint).2.irqObject c x).prio = (g.irqObject c x).prio := by
  rw [GicD.redirectSpi]
  split
  · rfl
  · rw [(announced_notifyTarget _ id _).irqObject, setInfo_irqObject]
    split_ifs with heq
    · rfl
    · rfl

theorem groupEnabled (h : Alike g g') {id : ℕ} {irq irq' : Irq} (hirq : Irq.Alike id irq irq') :
    g'.groupEnabled irq' = g.groupEnabled irq := by
  simp only [GicD.groupEnabled, GicD.group0Enabled, GicD.group1Enabled, h.ctlr,
    hirq.fields.2.2.2.2.2.2.2.1]

theorem considers (h : Alike g g') (cpuId id : ℕ) :
    g'.considers cpuId id = g.considers cpuId id := by
  have hgroup := h.groupEnabled (h.irqObject cpuId id)
  obtain heq | ⟨-, hidle, hidle', -⟩ := h.irqObject cpuId id
  · rw [heq] at hgroup
    simp only [GicD.considers, hgroup, heq, h.bank, h.vcpuCanReceiveIrq]
  · simp only [GicD.considers, hidle, hidle', Bool.and_false, Bool.false_and]

theorem prio_of_considers (h : Alike g g') {cpuId id : ℕ} (hc : g.considers cpuId id = true) :
    (g'.irqObject cpuId id).prio = (g.irqObject cpuId id).prio := by
  simp only [GicD.considers, Bool.and_eq_true] at hc
  rw [(h.irqObject cpuId id).eq_of_pending hc.1.1.1.2]

theorem getNextPendingIrq (h : Alike g g') (cpuId next : ℕ) :
    g'.getNextPendingIrq cpuId next = g.getNextPendingIrq cpuId next := by
  simp only [GicD.getNextPendingIrq, h.bank, h.configuredIrqs]

/-- What a scan has found so far has the same priority. -/
def SamePrio (g g' : GicD) (cpuId : ℕ) (r : Option ℕ) : Prop :=
  ∀ x ∈ r, (g'.irqObject cpuId x).prio = (g.irqObject cpuId x).prio

theorem highestIrqLoop (h : Alike g g') (cpuId : ℕ) (redirectIrq : Bool) (fuel irqId : ℕ)
    {r : Option ℕ} (hr : SamePrio g g' cpuId r) :
    AlikeOut (GicD.highestIrqLoop cpuId redirectIrq fuel g irqId r)
        (GicD.highestIrqLoop cpuId redirectIrq fuel g' irqId r) ∧
      SamePrio (GicD.highestIrqLoop cpuId redirectIrq fuel g irqId r).2
        (GicD.highestIrqLoop cpuId redirectIrq fuel g' irqId r).2 cpuId
        (GicD.highestIrqLoop cpuId redirectIrq fuel g irqId r).1 := by
  induction fuel generalizing g g' irqId r with
  | zero => exact ⟨⟨rfl, h⟩, hr⟩
  | succ fuel ih =>
      rw [GicD.highestIrqLoop, GicD.highestIrqLoop, h.getNextPendingIrq]
      cases g.getNextPendingIrq cpuId irqId with
      | none => exact ⟨⟨rfl, h⟩, hr⟩
      | some id =>
          have hsupersedes : (g.considers cpuId id && g'.supersedes cpuId id r) =
              (g.considers cpuId id && g.supersedes cpuId id r) := by
            cases hc : g.considers cpuId id with
            | false => rfl
            | true =>
                cases r with
                | none => rfl
                | some x =>
                    rw [GicD.supersedes, GicD.supersedes, hr x rfl, h.prio_of_considers hc]
          simp only [h.considers, hsupersedes, h.vcpuCanReceiveIrq]
          generalize hr' : (if (g.considers cpuId id && g.supersedes cpuId id r) = true then some id
            else r) = r'
          have hfound : SamePrio g g' cpuId r' := by
            rw [← hr']
            split_ifs with hc
            · simp only [Bool.and_eq_true] at hc
              rintro x ⟨⟩
              exact h.prio_of_considers hc.1
            · exact hr
          generalize (!g.considers cpuId id && redirectIrq && decide (spiBase ≤ id) &&
            !g.vcpuCanReceiveIrq cpuId id) = moves
          have hnext : Alike (if moves = true then (g.redirectSpi id (cpuId + 1)).2 else g)
              (if moves = true then (g'.redirectSpi id (cpuId + 1)).2 else g') :=
            .ite (fun _ => (h.redirectSpi id (.inr rfl)).2) fun _ => h
          have hprio : SamePrio (if moves = true then (g.redirectSpi id (cpuId + 1)).2 else g)
              (if moves = true then (g'.redirectSpi id (cpuId + 1)).2 else g') cpuId r' := by
            intro x hx
            split_ifs
            · rw [prio_redirectSpi, prio_redirectSpi, hfound x hx]
            · exact hfound x hx
          generalize (if moves = true then (g.redirectSpi id (cpuId + 1)).2 else g) = e
            at hnext hprio ⊢
          generalize (if moves = true then (g'.redirectSpi id (cpuId + 1)).2 else g') = e'
            at hnext hprio ⊢
          rw [hnext.configuredIrqs]
          split_ifs
          · exact ih hnext _ hprio
          · exact ⟨⟨rfl, hnext⟩, hprio⟩

theorem highestIrq (h : Alike g g') (cpuId : ℕ) (redirectIrq : Bool) :
    AlikeOut (g.highestIrq cpuId redirectIrq) (g'.highestIrq cpuId redirectIrq) ∧
      SamePrio (g.highestIrq cpuId redirectIrq).2 (g'.highestIrq cpuId redirectIrq).2 cpuId
        (g.highestIrq cpuId redirectIrq).1 := by
  rw [GicD.highestIrq, GicD.highestIrq, h.configuredIrqs]
  refine h.highestIrqLoop cpuId redirectIrq _ 0 ?_
  rintro x ⟨⟩

theorem inject (h : Alike g g') (cpuId id : ℕ) :
    AlikeOut (g.inject cpuId id) (g'.inject cpuId id) := by
  have hirq := h.irqObject cpuId id
  by_cases hp : (g.irqObject cpuId id).injectionInfo.pending = true
  · have heq := hirq.eq_of_pending hp
    simp only [GicD.inject, heq]
    cases (g.irqObject cpuId id).injectionInfo.injected cpuId with
    | none => exact ⟨rfl, h⟩
    | some info =>
        have hset : Alike (g.setInfo cpuId id info) (g'.setInfo cpuId id info) :=
          h.modifyIrq cpuId id (.inl (by rw [heq]))
        exact ⟨rfl, (hset.setInInjection cpuId id).clrPendingIrq cpuId id⟩
  · have hp := Bool.eq_false_iff.2 hp
    have hp' : (g'.irqObject cpuId id).injectionInfo.pending = false := by
      rw [hirq.fields.2.2.2.2.2.2.2.2.2.1, hp]
    simp only [GicD.inject, IrqInjectionInfo.injected, hp, hp', Bool.not_false, Bool.true_or,
      if_true]
    exact ⟨rfl, h⟩

theorem pendingIrq (h : Alike g g') (cpuId : ℕ) (minPriority : UInt8) :
    AlikeOut (g.pendingIrq cpuId minPriority) (g'.pendingIrq cpuId minPriority) := by
  obtain ⟨⟨hfound, hscan⟩, hprio⟩ := h.highestIrq cpuId true
  simp only [GicD.pendingIrq, hfound]
  cases hid : (g.highestIrq cpuId true).1 with
  | none => exact ⟨rfl, hscan⟩
  | some id =>
      simp only [hprio id hid]
      refine .ite (fun _ => ⟨rfl, hscan⟩) fun _ => ?_
      obtain ⟨hlr, hinject⟩ := hscan.inject cpuId id
      exact ⟨congrArg some hlr, hinject⟩

theorem hasIrqInInjection (h : Alike g g') (cpuId : ℕ) :
    g'.hasIrqInInjection cpuId = g.hasIrqInInjection cpuId := by
  simp only [GicD.hasIrqInInjection, h.bank, h.configuredIrqs]

theorem intPending (h : Alike g g') (cpuId : ℕ) : g'.intPending cpuId = g.intPending cpuId := by
  rw [GicD.intPending, GicD.intPending, h.hasIrqInInjection, GicD.hasIrqToInject,
    GicD.hasIrqToInject, (h.highestIrq cpuId false).1.1]

theorem setInfo_self (g : GicD) (cpu id : ℕ) :
    g.setInfo cpu id (g.irqObject cpu id).injectionInfo = g := by
  simp only [GicD.setInfo, GicD.modifyIrq, GicD.modifyBank, GicD.irqObject]
  split_ifs
  · simp only [Function.update_eq_self]
  · simp only [Function.update_eq_self]

theorem setInfo_idle (h : Alike g g') {cpu id : ℕ} (hid : lpiBase ≤ id)
    (heq : g'.irqObject cpu id = { g.irqObject cpu id with
      prio := (g'.irqObject cpu id).prio
      injectionInfo := (g'.irqObject cpu id).injectionInfo })
    {info info' : IrqInjectionInfo} (hinfo : info.pending = false)
    (hinfo' : info'.pending = false) :
    Alike (g.setInfo cpu id info) (g'.setInfo cpu id info') := by
  refine h.modifyIrq cpu id (.inr ⟨hid, hinfo, hinfo', ?_⟩)
  rw [heq]

theorem remind (h : Alike g g') (cpu id : ℕ) :
    Alike (if (g.irqObject cpu id).pending then g.setPendingIrq cpu id else g)
      (if (g'.irqObject cpu id).pending then g'.setPendingIrq cpu id else g') := by
  rw [(h.irqObject cpu id).fields.2.2.2.2.2.2.2.2.2.2]
  exact .ite (fun _ => h.setPendingIrq cpu id) fun _ => h

/-- What comes back with an interrupt takes bits away from its info, so an LPI that is not pending
stays so. -/
theorem setUpdated (h : Alike g g') (cpuId irqId : ℕ) (state : IrqState) (inInjection : Bool) :
    Alike
      (match (g.irqObject cpuId irqId).injectionInfo.updated cpuId state inInjection with
        | none => g
        | some info => g.setInfo cpuId irqId info)
      (match (g'.irqObject cpuId irqId).injectionInfo.updated cpuId state inInjection with
        | none => g'
        | some info => g'.setInfo cpuId irqId info) := by
  obtain heq | ⟨hid, hidle, hidle', heq⟩ := h.irqObject cpuId irqId
  · -- the info changes in the same way
    rw [heq]
    cases (g.irqObject cpuId irqId).injectionInfo.updated cpuId state inInjection with
    | none => exact h
    | some info => exact h.modifyIrq cpuId irqId (.inl (by rw [heq]))
  · have hkept {i i' : IrqInjectionInfo} (hi : i.pending = false)
        (hup : i.updated cpuId state inInjection = some i') : i'.pending = false := by
      refine Bool.eq_false_iff.2 fun hp => ?_
      have hsub := (IrqInjectionInfo.lowers_updated hup).pendingBits
      rw [IrqInjectionInfo.pending_of_subset hsub hp] at hi
      cases hi
    cases hup : (g.irqObject cpuId irqId).injectionInfo.updated cpuId state inInjection with
    | none =>
        cases hup' : (g'.irqObject cpuId irqId).injectionInfo.updated cpuId state inInjection with
        | none => exact h
        | some info' =>
            have hset := h.setInfo_idle hid heq hidle (hkept hidle' hup')
            rwa [setInfo_self] at hset
    | some info =>
        cases hup' : (g'.irqObject cpuId irqId).injectionInfo.updated cpuId state inInjection with
        | none =>
            have hset := h.setInfo_idle hid heq (hkept hidle hup) hidle'
            rwa [setInfo_self] at hset
        | some info' => exact h.setInfo_idle hid heq (hkept hidle hup) (hkept hidle' hup')

theorem updateInjStatus (h : Alike g g') (cpuId irqId : ℕ) (state : IrqState)
    (inInjection : Bool) :
    Alike (g.updateInjStatus cpuId irqId state inInjection)
      (g'.updateInjStatus cpuId irqId state inInjection) := by
  have hclr : Alike (if inInjection then g else g.clrInInjection cpuId irqId)
      (if inInjection then g' else g'.clrInInjection cpuId irqId) :=
    .ite (fun _ => h) fun _ => h.clrInInjection cpuId irqId
  simp only [GicD.updateInjStatus]
  refine remind (setUpdated ?_ cpuId irqId state inInjection) cpuId irqId
  exact hclr.storeIrq cpuId irqId fun _ _ _ => rfl

/-! ## The redistributor -/

theorem writeWaker (h : Alike g g') (cpu : ℕ) (offset : UInt64) (bytes : UInt8)
    (value : UInt64) :
    AlikeOut (g.writeWaker cpu offset bytes value) (g'.writeWaker cpu offset bytes value) := by
  have hscan {r r' : Bool × GicD} (hr : AlikeOut r r') (sleeping : Bool) :
      AlikeOut (if sleeping then (r.1, (r.2.highestIrq cpu true).2) else r)
        (if sleeping then (r'.1, (r'.2.highestIrq cpu true).2) else r') :=
    .ite (fun _ => ⟨hr.1, (hr.2.highestIrq cpu true).1.2⟩) fun _ => hr
  simp only [GicD.writeWaker, h.bank]
  refine hscan ?_ _
  cases writeRegister offset 0x14 0x17 bytes _ (g.bank cpu).gicR.waker (~~~(2 ||| 4)) 0 with
  | none => exact ⟨rfl, h⟩
  | some v => exact ⟨rfl, h.modifyGicR cpu ({ · with waker := v })⟩

theorem gicRMmioWrite (h : Alike g g') (cpu : ℕ) (offset : UInt64) (bytes : UInt8)
    (value : UInt64) :
    AlikeOut (g.gicRMmioWrite cpu offset bytes value)
      (g'.gicRMmioWrite cpu offset bytes value) := by
  have hprop := h.setPropBaser value
  have hpend := h.setPendBaser value
  simp only [h.lpiSupported, h.bank] at hprop hpend
  simp only [GicD.gicRMmioWrite, h.irqMmioAccess, h.lpiSupported, h.bank, h.affinityRouting]
  refine .ite (fun _ => ⟨rfl, h⟩) fun _ => ?_
  refine .ite (fun _ => ⟨rfl, h.modifyGicR cpu ({ · with ctlr := _ })⟩) fun _ => ?_
  refine .ite (fun _ => ⟨rfl, .ite (fun _ => hprop) fun _ => h⟩) fun _ => ?_
  refine .ite (fun _ => ⟨rfl, .ite (fun _ => hpend) fun _ => h⟩) fun _ => ?_
  refine .ite (fun _ => h.writeWaker _ _ _ _) fun _ => ?_
  refine .ite (fun _ => h.write _ _ _ _) fun _ => ?_
  refine .ite (fun _ => h.write _ _ _ _) fun _ => ?_
  refine .ite (fun _ => h.write _ _ _ _) fun _ => ?_
  refine .ite (fun _ => h.write _ _ _ _) fun _ => ?_
  refine .ite (fun _ => h.write _ _ _ _) fun _ => ?_
  refine .ite (fun _ => h.write _ _ _ _) fun _ => ?_
  refine .ite (fun _ => .ite (fun _ => ⟨rfl, h⟩) fun _ =>
    h.mmioAssert _ _ fun h _ hid => (h.assertPiSw _ _ hid).2) fun _ => ?_
  refine .ite (fun _ => .ite (fun _ => ⟨rfl, h⟩) fun _ =>
    h.mmioAssert _ _ fun h _ hid => (h.deassertPiSw _ hid).2) fun _ => ?_
  refine .ite (fun _ => h.write _ _ _ _) fun _ => ?_
  exact .ite (fun _ => h.write _ _ _ _) fun _ => ⟨rfl, h⟩

/-! ## LPIs and the reset -/

/-- The priority and the injection info of an LPI that is asserted are stored, so what they were
does not matter. -/
theorem raiseLpi (h : Alike g g') (pintid targetCpu : ℕ) (prop : UInt8) :
    Alike (g.raiseLpi pintid targetCpu prop) (g'.raiseLpi pintid targetCpu prop) := by
  let store : Irq → Irq := fun irq => { irq with
    prio := prop &&& 0xFC, injectionInfo := .asserted (.ofCpuId targetCpu) }
  have hstore : Alike (g.modifyIrq 0 pintid store) (g'.modifyIrq 0 pintid store) := by
    refine h.modifyIrq 0 pintid ?_
    obtain heq | ⟨-, -, -, heq⟩ := h.irqObject 0 pintid
    · exact .inl (by rw [heq])
    · exact .inl (by rw [heq])
  simp only [GicD.raiseLpi, GicD.setInfo, modifyIrq_modifyIrq]
  exact (hstore.notifyTarget pintid _).2

theorem assertLpi (h : Alike g g') (bus : GuestBus) (pintid targetCpu : ℕ) :
    Option.Rel Alike (g.assertLpi bus pintid targetCpu) (g'.assertLpi bus pintid targetCpu) := by
  have hprop : g'.lpiProp bus pintid = g.lpiProp bus pintid := by
    rw [lpiProp, lpiProp, h.propBaser]
  simp only [GicD.assertLpi, hprop, h.propBaser,
    (h.irqObject 0 pintid).fields.2.2.2.2.2.2.2.2.2.2]
  split_ifs
  · exact .none
  · exact .some h
  · exact .none
  · cases g.lpiProp bus pintid with
    | none => exact .some h
    | some prop =>
        dsimp only
        split_ifs
        · exact .some h
        · exact .some (h.raiseLpi pintid targetCpu prop)

theorem resetBank (h : Alike g g') (cpu : ℕ) : g'.resetBank cpu = g.resetBank cpu := by
  have hhw (id : ℕ) : (g'.irqObject cpu id).hw = (g.irqObject cpu id).hw :=
    (h.irqObject cpu id).fields.2.2.1
  simp only [GicD.resetBank, h.bank, h.version, h.configuredIrqs, hhw]

theorem reset (h : Alike g g') : Alike g.reset g'.reset := by
  have hbank : g'.reset.bank = g.reset.bank := by
    funext cpu
    simp only [GicD.reset, h.numVcpus, h.bank, h.resetBank]
  refine ⟨?_, fun id => ?_, ?_, h.lines⟩
  · obtain ⟨_, _, rfl⟩ := h.exists_eq
    rw [← hbank]
    rfl
  · simp only [GicD.reset, h.configuredIrqs]
    split_ifs
    · exact (h.irq id).reset 1
    · exact h.irq id
  · obtain ⟨hversion, -⟩ | hhint := h.hint
    · exact .inl ⟨hversion, by simp [GicD.affinityRouting, GicD.reset]⟩
    · exact .inr hhint

/-! ## Register reads -/

theorem read (h : Alike g g') (cpu : ℕ) (acc : IrqMmioAccess) (f : Irq → UInt64) :
    g'.read cpu acc f = g.read cpu acc f := by
  rw [GicD.read, GicD.read]
  split_ifs
  · refine congrArg ReadEffect.shows (List.foldl_ext _ _ _ fun value p hp => ?_)
    rw [(h.irqObject cpu p.2).eq_of_lt (lt_lpiBase_of_mem_irqs hp)]
  · rfl

theorem readPending (h : Alike g g') (cpu : ℕ) (acc : IrqMmioAccess) (baseOffset : UInt64) :
    g'.readPending cpu acc baseOffset = g.readPending cpu acc baseOffset := by
  rw [GicD.readPending, GicD.readPending, h.affinityRouting, h.read]

theorem getTyper (h : Alike g g') : g'.getTyper = g.getTyper := by
  simp only [GicD.getTyper, h.configuredIrqs, h.lpiSupported, h.numVcpus]

theorem pidr (h : Alike g g') (offset : UInt64) : g'.pidr offset = g.pidr offset := by
  simp only [GicD.pidr, h.version]

theorem readIrouter (h : Alike g g') (cpu : ℕ) (offset : UInt64) (bytes : UInt8) :
    g'.readIrouter cpu offset bytes = g.readIrouter cpu offset bytes := by
  simp only [GicD.readIrouter, h.configuredIrqs, h.affinityRouting,
    (h.irqObject cpu _).fields.2.1]

theorem mmioRead (h : Alike g g') (cpuId : ℕ) (offset : UInt64) (bytes : UInt8) :
    g'.mmioRead cpuId offset bytes = g.mmioRead cpuId offset bytes := by
  simp only [GicD.mmioRead, GicD.mmioRead32OrLess, h.numVcpus, h.irqMmioAccess, h.readIrouter,
    h.ctlr, h.getTyper, h.read, h.readPending, h.pidr]

theorem gicRMmioRead (h : Alike g g') (cpu : ℕ) (aff : UInt32) (last : Bool) (offset : UInt64)
    (bytes : UInt8) :
    g'.gicRMmioRead cpu aff last offset bytes = g.gicRMmioRead cpu aff last offset bytes := by
  simp only [GicD.gicRMmioRead, GicD.gicRTyper, h.irqMmioAccess, h.lpiSupported, h.bank,
    h.propBaser, h.pendBaser, h.read]

end Alike

end GicD

end Vml
