import Vml.GicD

/-!
# What the delivery scan finds

`highest_irq` walks through the bits of `pending_irqs` of a vCPU and takes the interrupt with the
greatest priority value among those that pass its test.

**The interrupts it looks at** (`scanned`). Every turn searches `configured_irqs() - 1` bits from
where it stands, so the walk from the first interrupt on does not reach the last one, unless a bit
before it is set.

**Re-routing on the way.** `pending_irq` lets the scan re-route the SPIs that the vCPU cannot
receive. None of these passes the test, before or after, so the scan finds what it would find
without (`SameScan`).

Main results: `mem_scanned_iff`, `highestIrq_eq_none_iff`, `highestIrq_fst_eq`, and
`considers_of_highestIrq`.
-/

namespace Vml.GicD

/-! ## What the updates leave alone -/

section Updates

variable (g : GicD) (cpu id : ℕ) (f : Banked → Banked) (e : Irq → Irq)

@[simp] theorem modifyBank_ctlr : (g.modifyBank cpu f).ctlr = g.ctlr := rfl

@[simp] theorem modifyBank_irq : (g.modifyBank cpu f).irq = g.irq := rfl

@[simp] theorem modifyBank_configuredIrqs :
    (g.modifyBank cpu f).configuredIrqs = g.configuredIrqs := rfl

@[simp] theorem modifyBank_numVcpus : (g.modifyBank cpu f).numVcpus = g.numVcpus := rfl

@[simp] theorem modifyBank_bank_self : (g.modifyBank cpu f).bank cpu = f (g.bank cpu) :=
  Function.update_self ..

theorem modifyBank_bank (c : ℕ) :
    (g.modifyBank cpu f).bank c = if c = cpu then f (g.bank cpu) else g.bank c :=
  Function.update_apply ..

theorem modifyBank_field {α : Type} (p : Banked → α) (hf : ∀ b, p (f b) = p b) (c : ℕ) :
    p ((g.modifyBank cpu f).bank c) = p (g.bank c) := by
  rw [modifyBank_bank]
  split_ifs with h
  · rw [hf, h]
  · rfl

theorem modifyBank_irqObject (hf : ∀ b, (f b).irq = b.irq) (c x : ℕ) :
    (g.modifyBank cpu f).irqObject c x = g.irqObject c x := by
  simp only [irqObject, modifyBank_irq, modifyBank_field g cpu f Banked.irq hf]

theorem modifyIrq_field {α : Type} (p : Banked → α)
    (hp : ∀ (b : Banked) (irq : ℕ → Irq), p { b with irq } = p b) (c : ℕ) :
    p ((g.modifyIrq cpu id e).bank c) = p (g.bank c) := by
  rw [modifyIrq]
  split_ifs
  · exact modifyBank_field g cpu _ p (fun b => hp b _) c
  · rfl

@[simp] theorem modifyIrq_ctlr : (g.modifyIrq cpu id e).ctlr = g.ctlr := by
  rw [modifyIrq]; split_ifs <;> rfl

@[simp] theorem modifyIrq_configuredIrqs :
    (g.modifyIrq cpu id e).configuredIrqs = g.configuredIrqs := by
  rw [modifyIrq]; split_ifs <;> rfl

@[simp] theorem modifyIrq_numVcpus : (g.modifyIrq cpu id e).numVcpus = g.numVcpus := by
  rw [modifyIrq]; split_ifs <;> rfl

/-- The vCPUs `c` and `cpu` see one interrupt: it is shared, or they are one. -/
def Shares (id c cpu : ℕ) : Prop := spiBase ≤ id ∨ c = cpu

instance (c : ℕ) : Decidable (Shares id c cpu) := inferInstanceAs (Decidable (_ ∨ _))

theorem irqObject_eq_of_shares {g : GicD} {id c cpu : ℕ} (h : Shares id c cpu) :
    g.irqObject c id = g.irqObject cpu id := by
  rcases h with hid | rfl
  · rw [irqObject, irqObject, if_neg (Nat.not_lt.2 hid), if_neg (Nat.not_lt.2 hid)]
  · rfl

/-- A change of an interrupt is seen where the interrupt is. -/
theorem modifyIrq_irqObject (c x : ℕ) : (g.modifyIrq cpu id e).irqObject c x =
    if x = id ∧ Shares id c cpu then e (g.irqObject c x) else g.irqObject c x := by
  by_cases hid : id < spiBase
  · rw [modifyIrq, if_pos hid]
    by_cases hc : c = cpu
    · subst hc
      simp only [irqObject, modifyBank_bank_self, modifyBank_irq, Function.update_apply, Shares]
      split_ifs <;> simp_all
    · have hother : ¬(x = id ∧ Shares id c cpu) := by
        rintro ⟨-, hle | heq⟩
        · exact absurd hid (Nat.not_lt.2 hle)
        · exact hc heq
      rw [if_neg hother]
      simp only [irqObject, modifyBank_bank, if_neg hc, modifyBank_irq]
  · rw [modifyIrq, if_neg hid]
    simp only [irqObject, Function.update_apply, Shares]
    split_ifs <;> first | rfl | omega | simp_all

theorem setInfo_irqObject (info : IrqInjectionInfo) (c x : ℕ) :
    (g.setInfo cpu id info).irqObject c x =
      if x = id ∧ Shares id c cpu then { g.irqObject c x with injectionInfo := info }
      else g.irqObject c x := g.modifyIrq_irqObject cpu id _ c x

@[simp] theorem setInfo_ctlr (info : IrqInjectionInfo) : (g.setInfo cpu id info).ctlr = g.ctlr :=
  g.modifyIrq_ctlr ..

@[simp] theorem setInfo_configuredIrqs (info : IrqInjectionInfo) :
    (g.setInfo cpu id info).configuredIrqs = g.configuredIrqs := g.modifyIrq_configuredIrqs ..

@[simp] theorem setInfo_numVcpus (info : IrqInjectionInfo) :
    (g.setInfo cpu id info).numVcpus = g.numVcpus := g.modifyIrq_numVcpus ..

theorem setInfo_injectionInfo (info : IrqInjectionInfo) (c x : ℕ) :
    ((g.setInfo cpu id info).irqObject c x).injectionInfo =
      if x = id ∧ Shares id c cpu then info else (g.irqObject c x).injectionInfo := by
  rw [setInfo_irqObject]
  split_ifs <;> rfl

theorem setInfo_field {α : Type} (info : IrqInjectionInfo) (p : Banked → α)
    (hp : ∀ (b : Banked) (irq : ℕ → Irq), p { b with irq } = p b) (c : ℕ) :
    p ((g.setInfo cpu id info).bank c) = p (g.bank c) := g.modifyIrq_field cpu id _ p hp c

end Updates

/-! ## The bits of a vCPU -/

section Bits

variable (g : GicD) (cpu id : ℕ)

theorem setPendingIrq_pendingIrqs (c x : ℕ) : ((g.setPendingIrq cpu id).bank c).pendingIrqs x =
    if c = cpu ∧ x = id then true else (g.bank c).pendingIrqs x := by
  rw [setPendingIrq, modifyBank_bank]
  by_cases hc : c = cpu
  · subst hc
    simp only [if_true, true_and, Function.update_apply]
  · simp only [hc, false_and, if_false]

theorem clrPendingIrq_pendingIrqs (c x : ℕ) : ((g.clrPendingIrq cpu id).bank c).pendingIrqs x =
    if c = cpu ∧ x = id then false else (g.bank c).pendingIrqs x := by
  rw [clrPendingIrq, modifyBank_bank]
  by_cases hc : c = cpu
  · subst hc
    simp only [if_true, true_and, Function.update_apply]
  · simp only [hc, false_and, if_false]

theorem setInInjection_inInjectionIrqs (c x : ℕ) :
    ((g.setInInjection cpu id).bank c).inInjectionIrqs x =
      if c = cpu ∧ x = id then true else (g.bank c).inInjectionIrqs x := by
  rw [setInInjection, modifyBank_bank]
  by_cases hc : c = cpu
  · subst hc
    simp only [if_true, true_and, Function.update_apply]
  · simp only [hc, false_and, if_false]

theorem clrInInjection_inInjectionIrqs (c x : ℕ) :
    ((g.clrInInjection cpu id).bank c).inInjectionIrqs x =
      if c = cpu ∧ x = id then false else (g.bank c).inInjectionIrqs x := by
  rw [clrInInjection, modifyBank_bank]
  by_cases hc : c = cpu
  · subst hc
    simp only [if_true, true_and, Function.update_apply]
  · simp only [hc, false_and, if_false]

@[simp] theorem setPendingIrq_irqObject (c x : ℕ) :
    (g.setPendingIrq cpu id).irqObject c x = g.irqObject c x := by
  rw [setPendingIrq, modifyBank_irqObject]
  exact fun _ => rfl

@[simp] theorem clrPendingIrq_irqObject (c x : ℕ) :
    (g.clrPendingIrq cpu id).irqObject c x = g.irqObject c x := by
  rw [clrPendingIrq, modifyBank_irqObject]
  exact fun _ => rfl

@[simp] theorem setInInjection_irqObject (c x : ℕ) :
    (g.setInInjection cpu id).irqObject c x = g.irqObject c x := by
  rw [setInInjection, modifyBank_irqObject]
  exact fun _ => rfl

@[simp] theorem clrInInjection_irqObject (c x : ℕ) :
    (g.clrInInjection cpu id).irqObject c x = g.irqObject c x := by
  rw [clrInInjection, modifyBank_irqObject]
  exact fun _ => rfl

theorem setPendingIrq_field {α : Type} (p : Banked → α)
    (hp : ∀ (b : Banked) (pendingIrqs : ℕ → Bool), p { b with pendingIrqs } = p b) (c : ℕ) :
    p ((g.setPendingIrq cpu id).bank c) = p (g.bank c) :=
  g.modifyBank_field cpu _ p (fun b => hp b _) c

theorem clrPendingIrq_field {α : Type} (p : Banked → α)
    (hp : ∀ (b : Banked) (pendingIrqs : ℕ → Bool), p { b with pendingIrqs } = p b) (c : ℕ) :
    p ((g.clrPendingIrq cpu id).bank c) = p (g.bank c) :=
  g.modifyBank_field cpu _ p (fun b => hp b _) c

theorem setInInjection_field {α : Type} (p : Banked → α)
    (hp : ∀ (b : Banked) (inInjectionIrqs : ℕ → Bool), p { b with inInjectionIrqs } = p b) (c : ℕ) :
    p ((g.setInInjection cpu id).bank c) = p (g.bank c) :=
  g.modifyBank_field cpu _ p (fun b => hp b _) c

theorem clrInInjection_field {α : Type} (p : Banked → α)
    (hp : ∀ (b : Banked) (inInjectionIrqs : ℕ → Bool), p { b with inInjectionIrqs } = p b) (c : ℕ) :
    p ((g.clrInInjection cpu id).bank c) = p (g.bank c) :=
  g.modifyBank_field cpu _ p (fun b => hp b _) c

end Bits

/-! ## What an announcement does -/

/-- `g'` differs from `g` by announcements of the interrupt `id`: by its bits in `pending_irqs`, and
by signals. -/
structure Announced (g g' : GicD) (id : ℕ) : Prop where
  ctlr : g'.ctlr = g.ctlr
  configuredIrqs : g'.configuredIrqs = g.configuredIrqs
  numVcpus : g'.numVcpus = g.numVcpus
  irqObject : ∀ c x, g'.irqObject c x = g.irqObject c x
  gicR : ∀ c, (g'.bank c).gicR = (g.bank c).gicR
  inInjectionIrqs : ∀ c, (g'.bank c).inInjectionIrqs = (g.bank c).inInjectionIrqs
  pendingIrqs : ∀ c x, (g'.bank c).pendingIrqs x = (g.bank c).pendingIrqs x ∨
    x = id ∧ (g'.bank c).pendingIrqs x = true

theorem Announced.refl (g : GicD) (id : ℕ) : Announced g g id :=
  ⟨rfl, rfl, rfl, fun _ _ => rfl, fun _ => rfl, fun _ => rfl, fun _ _ => .inl rfl⟩

theorem Announced.trans {g g' g'' : GicD} {id : ℕ} (h : Announced g g' id)
    (h' : Announced g' g'' id) : Announced g g'' id where
  ctlr := h'.ctlr.trans h.ctlr
  configuredIrqs := h'.configuredIrqs.trans h.configuredIrqs
  numVcpus := h'.numVcpus.trans h.numVcpus
  irqObject c x := (h'.irqObject c x).trans (h.irqObject c x)
  gicR c := (h'.gicR c).trans (h.gicR c)
  inInjectionIrqs c := (h'.inInjectionIrqs c).trans (h.inInjectionIrqs c)
  pendingIrqs c x := by
    rcases h'.pendingIrqs c x with heq | hset
    · rw [heq]
      exact h.pendingIrqs c x
    · exact .inr hset

theorem announced_notifyInterruptPending (g : GicD) (id cpu : ℕ) :
    Announced g (g.notifyInterruptPending cpu) id where
  ctlr := rfl
  configuredIrqs := rfl
  numVcpus := rfl
  irqObject := g.modifyBank_irqObject cpu _ fun _ => rfl
  gicR := g.modifyBank_field cpu _ Banked.gicR fun _ => rfl
  inInjectionIrqs := g.modifyBank_field cpu _ Banked.inInjectionIrqs fun _ => rfl
  pendingIrqs c x := .inl <| congrFun
    (g.modifyBank_field cpu ({ · with irqSig := (g.bank cpu).irqSig.sig }) Banked.pendingIrqs
      (fun _ => rfl) c) x

theorem announced_notifyCpu (g : GicD) (id cpu : ℕ) : Announced g (g.notifyCpu id cpu) id := by
  have hset : Announced g (g.setPendingIrq cpu id) id :=
    { ctlr := rfl
      configuredIrqs := rfl
      numVcpus := rfl
      irqObject := g.modifyBank_irqObject cpu _ fun _ => rfl
      gicR := g.modifyBank_field cpu _ Banked.gicR fun _ => rfl
      inInjectionIrqs := g.modifyBank_field cpu _ Banked.inInjectionIrqs fun _ => rfl
      pendingIrqs := fun c x => by
        rw [setPendingIrq, modifyBank_bank]
        split_ifs with hc
        · subst hc
          by_cases hx : x = id
          · subst hx
            exact .inr ⟨rfl, Function.update_self ..⟩
          · exact .inl (Function.update_of_ne hx ..)
        · exact .inl rfl }
  rw [notifyCpu]
  split_ifs
  · exact hset.trans (announced_notifyInterruptPending _ id cpu)
  · exact hset

/-- **What `notify_target` does.** -/
theorem announced_notifyTarget (g : GicD) (id : ℕ) (target : IrqTarget) :
    Announced g (g.notifyTarget id target).2 id :=
  List.foldlRecOn (motive := fun g' => Announced g g' id) (g.notified target) _
    (Announced.refl g id) fun g' h cpu _ => h.trans (announced_notifyCpu g' id cpu)

theorem notifyCpu_pendingIrqs (g : GicD) (id cpu c x : ℕ) :
    ((g.notifyCpu id cpu).bank c).pendingIrqs x =
      if c = cpu ∧ x = id then true else (g.bank c).pendingIrqs x := by
  have hsignal (g : GicD) : ((g.notifyInterruptPending cpu).bank c).pendingIrqs =
      (g.bank c).pendingIrqs :=
    g.modifyBank_field cpu (fun b => { b with irqSig := b.irqSig.sig }) Banked.pendingIrqs
      (fun _ => rfl) c
  rw [notifyCpu, apply_ite (fun g : GicD => (g.bank c).pendingIrqs x), hsignal, ite_self,
    setPendingIrq_pendingIrqs]

/-- **The bits that an announcement sets**: that of the interrupt, of each vCPU that is notified. -/
theorem notifyTarget_pendingIrqs (g : GicD) (id : ℕ) (target : IrqTarget) (c x : ℕ) :
    ((g.notifyTarget id target).2.bank c).pendingIrqs x =
      if c ∈ g.notified target ∧ x = id then true else (g.bank c).pendingIrqs x := by
  have hfold (l : List ℕ) (g : GicD) :
      ((l.foldl (fun g cpu => g.notifyCpu id cpu) g).bank c).pendingIrqs x =
        if c ∈ l ∧ x = id then true else (g.bank c).pendingIrqs x := by
    induction l generalizing g with
    | nil => simp
    | cons cpu l ih =>
        rw [List.foldl_cons, ih, notifyCpu_pendingIrqs]
        by_cases hx : x = id <;> by_cases hl : c ∈ l <;> by_cases hc : c = cpu <;> simp [hx, hl, hc]
  exact hfold _ g

theorem mem_notified {g : GicD} {target : IrqTarget} {v : ℕ} (hv : v < g.numVcpus)
    (hvalid : target.isValid = true) (hcpu : target.isCpuTargeted v = true) :
    v ∈ g.notified target := by
  rw [notified.eq_def, hvalid]
  cases target with
  | cpuId cpu =>
      rw [IrqTarget.isCpuTargeted, beq_iff_eq] at hcpu
      simp [hcpu]
  | cpuSet mask =>
      have hlt : v < gicv2MaxCpus := by
        rw [IrqTarget.isCpuTargeted, Bool.and_eq_true, decide_eq_true_eq] at hcpu
        exact hcpu.1
      simp only [Bool.not_true, if_neg Bool.false_ne_true]
      exact List.mem_filter.2 ⟨List.mem_range.2 (lt_min hv hlt), hcpu⟩

/-! ## The interrupts the scan looks at -/

/-- The interrupts that the loop of `highest_irq` looks at from `irqId` on. -/
def lookedAt (g : GicD) (cpuId : ℕ) : ℕ → ℕ → List ℕ
  | 0, _ => []
  | fuel + 1, irqId =>
      match g.getNextPendingIrq cpuId irqId with
      | none => []
      | some id => id :: if id + 1 < g.configuredIrqs then lookedAt g cpuId fuel (id + 1) else []

/-- The interrupts that `highest_irq` looks at. -/
def scanned (g : GicD) (cpuId : ℕ) : List ℕ := g.lookedAt cpuId g.configuredIrqs 0

/-- How `highest_irq` goes on with an interrupt it looks at. -/
def better (g : GicD) (cpuId : ℕ) (r : Option ℕ) (id : ℕ) : Option ℕ :=
  if g.considers cpuId id && g.supersedes cpuId id r then some id else r

theorem firstSet_eq_some_iff {bits : ℕ → Bool} {start len id : ℕ} (hlen : start + len ≤ maxIrq) :
    firstSet bits start len = some id ↔
      bits id = true ∧ (start ≤ id ∧ id < start + len) ∧
        ∀ x, start ≤ x → x < id → bits x = false := by
  rw [firstSet, List.find?_range'_eq_some, List.mem_range'_1, Nat.min_eq_left hlen,
    Nat.add_sub_cancel_left]
  simp only [Bool.not_eq_true']

theorem firstSet_eq_none_iff {bits : ℕ → Bool} {start len : ℕ} (hlen : start + len ≤ maxIrq) :
    firstSet bits start len = none ↔ ∀ x, start ≤ x → x < start + len → bits x = false := by
  rw [firstSet, List.find?_range'_eq_none, Nat.min_eq_left hlen, Nat.add_sub_cancel_left]
  simp only [Bool.not_eq_true']

theorem lpiBase_le_of_firstSet {bits : ℕ → Bool} {len id : ℕ}
    (h : firstSet bits lpiBase len = some id) : lpiBase ≤ id := by
  rw [firstSet, List.find?_range'_eq_some] at h
  exact (List.mem_range'_1.1 h.2.1).1

/-- The walk from `irqId` on looks at every interrupt whose bit is set, and at the last one of all
unless it is the only one, on a walk from the start. -/
theorem mem_lookedAt_iff {g : GicD} {v : ℕ} (hconf : g.configuredIrqs ≤ maxIrqNoLpi) {id : ℕ}
    (hid : id < g.configuredIrqs) (fuel irqId : ℕ) (hfuel : g.configuredIrqs ≤ fuel + irqId)
    (hlt : irqId < g.configuredIrqs) :
    id ∈ g.lookedAt v fuel irqId ↔ irqId ≤ id ∧ (g.bank v).pendingIrqs id = true ∧
      (id + 1 < g.configuredIrqs ∨ 0 < irqId ∨ ∃ x < id, (g.bank v).pendingIrqs x = true) := by
  have h1020 : maxIrqNoLpi = 1020 := rfl
  have h8192 : lpiBase = 8192 := rfl
  have h9216 : maxIrq = 9216 := rfl
  induction fuel generalizing irqId with
  | zero => omega
  | succ fuel ih =>
      have hlen : irqId + (g.configuredIrqs - 1) ≤ maxIrq := by omega
      have hlpi : irqId < lpiBase := by omega
      rw [lookedAt, getNextPendingIrq]
      simp only [if_pos hlpi]
      cases hfirst : firstSet (g.bank v).pendingIrqs irqId (g.configuredIrqs - 1) with
      | some id₀ =>
          obtain ⟨hbit, hwin, hmin⟩ := (firstSet_eq_some_iff hlen).1 hfirst
          dsimp only
          by_cases hmore : id₀ + 1 < g.configuredIrqs
          · have htail := ih (id₀ + 1) (by omega) hmore
            rw [if_pos hmore, List.mem_cons]
            refine (or_congr_right htail).trans ?_
            constructor
            · rintro (rfl | ⟨hle, hset, -⟩)
              · exact ⟨hwin.1, hbit, .inl hmore⟩
              · exact ⟨by omega, hset, .inr (.inr ⟨id₀, by omega, hbit⟩)⟩
            · rintro ⟨hle, hset, -⟩
              have hge : id₀ ≤ id := by
                by_contra hbelow
                rw [hmin id hle (by omega)] at hset
                cases hset
              by_cases heq : id = id₀
              · exact .inl heq
              · exact .inr ⟨by omega, hset, .inr (.inl (Nat.succ_pos id₀))⟩
          · rw [if_neg hmore, List.mem_singleton]
            constructor
            · rintro rfl
              exact ⟨hwin.1, hbit, .inr (.inl (by omega))⟩
            · rintro ⟨hle, hset, -⟩
              by_contra hne
              rw [hmin id hle (by omega)] at hset
              cases hset
      | none =>
          have hnone := (firstSet_eq_none_iff hlen).1 hfirst
          have hright : ¬(irqId ≤ id ∧ (g.bank v).pendingIrqs id = true ∧
              (id + 1 < g.configuredIrqs ∨ 0 < irqId ∨
                ∃ x < id, (g.bank v).pendingIrqs x = true)) := by
            rintro ⟨hle, hset, hreach⟩
            -- only the last one is out of the window, and only when the walk starts at 0
            by_cases hwin : id < irqId + (g.configuredIrqs - 1)
            · rw [hnone id hle hwin] at hset
              cases hset
            · obtain hmore | hpos | ⟨x, hx, hbit⟩ := hreach
              · omega
              · omega
              · rw [hnone x (by omega) (by omega)] at hbit
                cases hbit
          refine iff_of_false ?_ hright
          cases hlast : firstSet (g.bank v).pendingIrqs lpiBase (maxIrq - 1) with
          | none => exact List.not_mem_nil
          | some id₀ =>
              have hge := lpiBase_le_of_firstSet hlast
              dsimp only
              rw [if_neg (by omega), List.mem_singleton]
              omega

/-- **What the scan looks at.** -/
theorem mem_scanned_iff {g : GicD} {v : ℕ} (hconf : g.configuredIrqs ≤ maxIrqNoLpi) {id : ℕ}
    (hid : id < g.configuredIrqs) :
    id ∈ g.scanned v ↔ (g.bank v).pendingIrqs id = true ∧
      (id + 1 < g.configuredIrqs ∨ ∃ x < id, (g.bank v).pendingIrqs x = true) := by
  rw [scanned, mem_lookedAt_iff hconf hid _ 0 (Nat.le_add_right _ _) (Nat.zero_lt_of_lt hid)]
  simp only [Nat.zero_le, true_and, Nat.lt_irrefl, false_or]

theorem getNextPendingIrq_bit {g : GicD} {v irqId id : ℕ}
    (h : g.getNextPendingIrq v irqId = some id) : (g.bank v).pendingIrqs id = true := by
  have hfirst {start len x : ℕ} (hx : firstSet (g.bank v).pendingIrqs start len = some x) :
      (g.bank v).pendingIrqs x = true := List.find?_some hx
  simp only [getNextPendingIrq] at h
  split at h
  · rename_i x hx
    rw [← Option.some.inj h]
    split_ifs at hx
    · exact hfirst hx
    · exact hfirst hx
  · split_ifs at h
    exact hfirst h

theorem bit_of_mem_lookedAt {g : GicD} {v : ℕ} {id : ℕ} (fuel irqId : ℕ)
    (h : id ∈ g.lookedAt v fuel irqId) : (g.bank v).pendingIrqs id = true := by
  induction fuel generalizing irqId with
  | zero => exact absurd h List.not_mem_nil
  | succ fuel ih =>
      rw [lookedAt] at h
      split at h
      · exact absurd h List.not_mem_nil
      · rename_i id₀ hnext
        rcases List.mem_cons.1 h with rfl | htail
        · exact getNextPendingIrq_bit hnext
        · split_ifs at htail
          · exact ih _ htail
          · exact absurd htail List.not_mem_nil

theorem bit_of_mem_scanned {g : GicD} {v id : ℕ} (h : id ∈ g.scanned v) :
    (g.bank v).pendingIrqs id = true := bit_of_mem_lookedAt _ _ h

/-! ## Re-routing on the way -/

/-- The scan on vCPU `v` makes no difference between `g` and `g'`. -/
structure SameScan (v : ℕ) (g g' : GicD) : Prop where
  configuredIrqs : g'.configuredIrqs = g.configuredIrqs
  pendingIrqs : (g'.bank v).pendingIrqs = (g.bank v).pendingIrqs
  considers : ∀ id, g'.considers v id = g.considers v id
  irqObject : ∀ id, g.considers v id = true → g'.irqObject v id = g.irqObject v id
  vcpuCanReceiveIrq : ∀ id, g'.vcpuCanReceiveIrq v id = g.vcpuCanReceiveIrq v id

theorem SameScan.refl (v : ℕ) (g : GicD) : SameScan v g g :=
  ⟨rfl, rfl, fun _ => rfl, fun _ _ => rfl, fun _ => rfl⟩

theorem SameScan.trans {v : ℕ} {g g' g'' : GicD} (h : SameScan v g g') (h' : SameScan v g' g'') :
    SameScan v g g'' where
  configuredIrqs := h'.configuredIrqs.trans h.configuredIrqs
  pendingIrqs := h'.pendingIrqs.trans h.pendingIrqs
  considers id := (h'.considers id).trans (h.considers id)
  irqObject id hid := (h'.irqObject id ((h.considers id).trans hid)).trans (h.irqObject id hid)
  vcpuCanReceiveIrq id := (h'.vcpuCanReceiveIrq id).trans (h.vcpuCanReceiveIrq id)

/-- Re-routing an interrupt that `v` cannot receive makes no difference. -/
theorem sameScan_redirectSpi {v : ℕ} {g : GicD} {id : ℕ} (hbit : (g.bank v).pendingIrqs id = true)
    (hrecv : g.vcpuCanReceiveIrq v id = false) (hint : ℕ) :
    SameScan v g (g.redirectSpi id hint).2 := by
  rw [redirectSpi]
  split
  · exact .refl v g
  · rename_i info hinfo
    have hann := announced_notifyTarget (g.setInfo 0 id info) id
      (g.routeSpi (g.irqObject 0 id) hint)
    generalize ((g.setInfo 0 id info).notifyTarget id
      (g.routeSpi (g.irqObject 0 id) hint)).2 = g' at hann ⊢
    have hctlr : g'.ctlr = g.ctlr := hann.ctlr.trans (g.modifyIrq_ctlr ..)
    have hgicR : (g'.bank v).gicR = (g.bank v).gicR :=
      (hann.gicR v).trans (g.setInfo_field 0 id info Banked.gicR (fun _ _ => rfl) v)
    have hinj : (g'.bank v).inInjectionIrqs = (g.bank v).inInjectionIrqs :=
      (hann.inInjectionIrqs v).trans
        (g.setInfo_field 0 id info Banked.inInjectionIrqs (fun _ _ => rfl) v)
    have hrecvs : ∀ x, g'.vcpuCanReceiveIrq v x = g.vcpuCanReceiveIrq v x := by
      intro x
      rw [GicD.vcpuCanReceiveIrq, GicD.vcpuCanReceiveIrq, affinityRouting, affinityRouting, hctlr,
        hgicR]
    have hirq : ∀ x, x ≠ id → g'.irqObject v x = g.irqObject v x := by
      intro x hx
      rw [hann.irqObject, setInfo_irqObject, if_neg fun h => hx h.1]
    have hcons : ∀ x, g'.considers v x = g.considers v x := by
      intro x
      by_cases hx : x = id
      · subst hx
        simp only [GicD.considers, hrecvs, hrecv, Bool.and_false]
      · simp only [GicD.considers, groupEnabled, group0Enabled, group1Enabled, hrecvs, hctlr, hinj,
          hirq x hx]
    refine ⟨hann.configuredIrqs.trans (g.modifyIrq_configuredIrqs ..), ?_, hcons, ?_, hrecvs⟩
    · funext x
      have hpend := congrFun (g.setInfo_field 0 id info Banked.pendingIrqs (fun _ _ => rfl) v) x
      rcases hann.pendingIrqs v x with heq | ⟨rfl, hset⟩
      · exact heq.trans hpend
      · rw [hset, hbit]
    · intro x hx
      refine hirq x ?_
      rintro rfl
      simp only [GicD.considers, hrecv, Bool.and_false] at hx
      cases hx

/-- The loop with re-routing goes through the interrupts that the loop without looks at. -/
theorem highestIrqLoop_eq {v : ℕ} {g g' : GicD} (redirect : Bool) (fuel irqId : ℕ) (r : Option ℕ)
    (hs : SameScan v g g') (hr : ∀ x ∈ r, g.considers v x = true) :
    (highestIrqLoop v redirect fuel g' irqId r).1 =
        (g.lookedAt v fuel irqId).foldl (g.better v) r ∧
      SameScan v g (highestIrqLoop v redirect fuel g' irqId r).2 := by
  induction fuel generalizing g' irqId r with
  | zero => exact ⟨rfl, hs⟩
  | succ fuel ih =>
      have hnext : g'.getNextPendingIrq v irqId = g.getNextPendingIrq v irqId := by
        simp only [getNextPendingIrq, hs.pendingIrqs, hs.configuredIrqs]
      rw [highestIrqLoop, lookedAt, hnext]
      cases hid : g.getNextPendingIrq v irqId with
      | none => exact ⟨rfl, hs⟩
      | some id =>
          have hbetter : (if g'.considers v id && g'.supersedes v id r then some id else r) =
              g.better v r id := by
            rw [better, hs.considers]
            cases hc : g.considers v id with
            | false => rfl
            | true =>
                cases r with
                | none => rfl
                | some x =>
                    rw [supersedes, supersedes, hs.irqObject id hc, hs.irqObject x (hr x rfl)]
          have hr' : ∀ x ∈ g.better v r id, g.considers v x = true := by
            intro x hx
            rw [better] at hx
            split_ifs at hx with hc
            · rw [← Option.mem_some.1 hx]
              exact (Bool.and_eq_true _ _ ▸ hc).1
            · exact hr x hx
          have hs' : SameScan v g (if !g'.considers v id && redirect && decide (spiBase ≤ id) &&
              !g'.vcpuCanReceiveIrq v id then (g'.redirectSpi id (v + 1)).2 else g') := by
            split_ifs with hredirect
            · simp only [Bool.and_eq_true, Bool.not_eq_true'] at hredirect
              refine hs.trans (sameScan_redirectSpi ?_ hredirect.2 (v + 1))
              exact getNextPendingIrq_bit (hnext.trans hid)
            · exact hs
          dsimp only
          generalize (if !g'.considers v id && redirect && decide (spiBase ≤ id) &&
              !g'.vcpuCanReceiveIrq v id then (g'.redirectSpi id (v + 1)).2 else g') = t at hs' ⊢
          rw [hbetter, hs'.configuredIrqs, List.foldl_cons]
          split_ifs
          · exact ih _ _ hs' hr'
          · exact ⟨rfl, hs'⟩

/-! ## What it finds -/

/-- **The scan takes the best of what it looks at**, with re-routing or without. -/
theorem highestIrq_fst_eq (g : GicD) (v : ℕ) (redirect : Bool) :
    (g.highestIrq v redirect).1 = (g.scanned v).foldl (g.better v) none :=
  (highestIrqLoop_eq redirect _ 0 none (.refl v g) nofun).1

theorem sameScan_highestIrq (g : GicD) (v : ℕ) (redirect : Bool) :
    SameScan v g (g.highestIrq v redirect).2 :=
  (highestIrqLoop_eq redirect _ 0 none (.refl v g) nofun).2

theorem considers_of_highestIrq {g : GicD} {v id : ℕ} {redirect : Bool}
    (h : (g.highestIrq v redirect).1 = some id) :
    id ∈ g.scanned v ∧ g.considers v id = true := by
  rw [highestIrq_fst_eq] at h
  refine List.foldlRecOn (motive := fun r => ∀ x ∈ r, x ∈ g.scanned v ∧ g.considers v x = true)
    (g.scanned v) (g.better v) (fun _ hx => absurd hx (Option.not_mem_none _))
    (fun r hr x hx y hy => ?_) id h
  rw [better] at hy
  split_ifs at hy with hc
  · rw [← Option.mem_some.1 hy]
    exact ⟨hx, (Bool.and_eq_true _ _ ▸ hc).1⟩
  · exact hr y hy

end Vml.GicD
