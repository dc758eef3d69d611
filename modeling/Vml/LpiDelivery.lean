import Vml.GicHighest
import Vml.GicRetire

/-!
# LPIs between two injections

A device that has signalled an LPI signals it again. `assert_lpi` drops the second MSI if the LPI is
still pending. The pending bit stays set while the LPI is in a list register, until the guest has
acknowledged it, and goes with the completion. So an MSI that arrives in between is lost.

**What an MSI is owed** (`Owed`). From the MSI on to the next injection, the LPI is pending for its
vCPU and not injected, so it can be delivered whenever it is out of the list register. No call but
the injection takes this away.

Main result: `msi_kept_iff`.
-/

namespace Vml.GicD

/-! ## The calls -/

/-- The tables of the guest say that the event is the LPI `id` for the vCPU `v`, and that the LPI is
enabled. -/
structure MappedTo (s : ItsSys) (eventId devId : UInt32) (id v : ℕ) : Prop where
  translate : s.its.translate s.bus eventId devId = some (id, v)
  enabled : ∃ prop, s.gic.lpiProp s.bus id = some prop ∧ prop &&& 1 ≠ 0

/-- What happens to an LPI: an MSI, an INT command, and what its vCPU does. Each MSI and each
command comes with the ITS and the memory of the guest as they are then. -/
inductive LpiOp
  | msi (its : Gits) (bus : GuestBus) (eventId devId : UInt32)
  | int (its : Gits) (bus : GuestBus) (q0 q1 q2 : UInt64)
  | pendingIrq (minPriority : UInt8)
  | updateInjStatus (irqId : ℕ) (state : IrqState) (inInjection : Bool)

namespace LpiOp

/-- The call signals the LPI. -/
def Signals : LpiOp → Prop
  | msi .. | int .. => True
  | _ => False

/-- The call puts the LPI `id` into a list register of `v`. -/
def Injects (v id : ℕ) (g : GicD) : LpiOp → Prop
  | pendingIrq minPriority => g.Injects v minPriority id
  | _ => False

end LpiOp

/-- One of these calls, for the LPI `id` and its vCPU `v`. -/
def LpiStep (v id : ℕ) (g : GicD) : LpiOp → GicD → Prop
  | .msi its bus eventId devId, t => MappedTo ⟨g, its, bus⟩ eventId devId id v ∧
      (ItsSys.handleMsi ⟨g, its, bus⟩ eventId devId).map ItsSys.gic = some t
  | .int its bus q0 q1 q2, t => q0 &&& 0xf = 3 ∧
      MappedTo ⟨g, its, bus⟩ q1.toUInt32 (q0 >>> 32).toUInt32 id v ∧
      (ItsSys.handleCommand ⟨g, its, bus⟩ q0 q1 q2).map ItsSys.gic = some t
  | .pendingIrq minPriority, t => t = (g.pendingIrq v minPriority).2
  | .updateInjStatus irqId state inInjection, t =>
      t = g.updateInjStatus v irqId state inInjection

/-- Until it is injected, the LPI can be delivered to `v`, and has its bit, whenever it is not in a
list register. -/
def InjectedAgain (v id : ℕ) (g : GicD) : Prop :=
  ∀ ops t, Run (fun g op t => LpiStep v id g op t ∧ ¬op.Injects v id g) g ops t →
    (t.bank v).inInjectionIrqs id = false → t.Candidate v id ∧ (t.bank v).pendingIrqs id = true

/-! ## Frames -/

/-- Nothing that matters to the interrupt `id` on `v` differs. -/
structure SameFor (v id : ℕ) (g g' : GicD) : Prop where
  ctlr : g'.ctlr = g.ctlr
  gicR : (g'.bank v).gicR = (g.bank v).gicR
  irqObject : g'.irqObject v id = g.irqObject v id
  pendingIrqs : (g'.bank v).pendingIrqs id = (g.bank v).pendingIrqs id
  inInjectionIrqs : (g'.bank v).inInjectionIrqs id = (g.bank v).inInjectionIrqs id

section Frames

variable {v id : ℕ} {g g' : GicD}

theorem SameFor.refl (v id : ℕ) (g : GicD) : SameFor v id g g := ⟨rfl, rfl, rfl, rfl, rfl⟩

theorem SameFor.trans {g'' : GicD} (h : SameFor v id g g') (h' : SameFor v id g' g'') :
    SameFor v id g g'' where
  ctlr := h'.ctlr.trans h.ctlr
  gicR := h'.gicR.trans h.gicR
  irqObject := h'.irqObject.trans h.irqObject
  pendingIrqs := h'.pendingIrqs.trans h.pendingIrqs
  inInjectionIrqs := h'.inInjectionIrqs.trans h.inInjectionIrqs

theorem SameFor.vcpuCanReceiveIrq (h : SameFor v id g g') :
    g'.vcpuCanReceiveIrq v id = g.vcpuCanReceiveIrq v id := by
  rw [GicD.vcpuCanReceiveIrq, GicD.vcpuCanReceiveIrq, affinityRouting, affinityRouting, h.ctlr,
    h.gicR]

theorem groupEnabled_of_ctlr (h : g'.ctlr = g.ctlr) (irq : Irq) :
    g'.groupEnabled irq = g.groupEnabled irq := by
  rw [groupEnabled, groupEnabled, group0Enabled, group0Enabled, group1Enabled, group1Enabled, h]

theorem sameFor_modifyIrq {cpu x : ℕ} (hx : x ≠ id) (f : Irq → Irq) :
    SameFor v id g (g.modifyIrq cpu x f) where
  ctlr := modifyIrq_ctlr ..
  gicR := modifyIrq_field g cpu x f Banked.gicR (fun _ _ => rfl) v
  irqObject := by rw [modifyIrq_irqObject, if_neg fun heq => hx heq.1.symm]
  pendingIrqs := congrFun (modifyIrq_field g cpu x f Banked.pendingIrqs (fun _ _ => rfl) v) id
  inInjectionIrqs :=
    congrFun (modifyIrq_field g cpu x f Banked.inInjectionIrqs (fun _ _ => rfl) v) id

theorem sameFor_notifyTarget {x : ℕ} (hx : x ≠ id) (target : IrqTarget) :
    SameFor v id g (g.notifyTarget x target).2 := by
  have hann := announced_notifyTarget g x target
  refine ⟨hann.ctlr, hann.gicR v, hann.irqObject v id, ?_, congrFun (hann.inInjectionIrqs v) id⟩
  rcases hann.pendingIrqs v id with heq | ⟨rfl, -⟩
  · exact heq
  · exact absurd rfl hx

theorem sameFor_redirectSpi {x : ℕ} (hx : x ≠ id) (hint : ℕ) :
    SameFor v id g (g.redirectSpi x hint).2 := by
  rw [redirectSpi]
  split
  · exact .refl v id g
  · exact (sameFor_modifyIrq hx _).trans (sameFor_notifyTarget hx _)

/-- The scan re-routes no interrupt that `v` can receive. -/
theorem sameFor_highestIrqLoop (hrecv : g.vcpuCanReceiveIrq v id = true) (redirect : Bool)
    (fuel irqId : ℕ) (r : Option ℕ) (h : SameFor v id g g') :
    SameFor v id g (highestIrqLoop v redirect fuel g' irqId r).2 := by
  induction fuel generalizing g' irqId r with
  | zero => exact h
  | succ fuel ih =>
      rw [highestIrqLoop]
      cases hnext : g'.getNextPendingIrq v irqId with
      | none => exact h
      | some x =>
          have h' : SameFor v id g (if !g'.considers v x && redirect && decide (spiBase ≤ x) &&
              !g'.vcpuCanReceiveIrq v x then (g'.redirectSpi x (v + 1)).2 else g') := by
            split_ifs with hredirect
            · refine h.trans (sameFor_redirectSpi ?_ (v + 1))
              rintro rfl
              rw [h.vcpuCanReceiveIrq, hrecv] at hredirect
              simp at hredirect
            · exact h
          exact keeps_ite (P := SameFor v id g) (fun _ => ih _ _ h') fun _ => h'

theorem sameFor_highestIrq (hrecv : g.vcpuCanReceiveIrq v id = true) (redirect : Bool) :
    SameFor v id g (g.highestIrq v redirect).2 :=
  sameFor_highestIrqLoop hrecv redirect _ 0 none (.refl v id g)

theorem sameFor_setPendingIrq {x : ℕ} (hx : x ≠ id) : SameFor v id g (g.setPendingIrq v x) where
  ctlr := rfl
  gicR := setPendingIrq_field g v x Banked.gicR (fun _ _ => rfl) v
  irqObject := setPendingIrq_irqObject ..
  pendingIrqs := by rw [setPendingIrq_pendingIrqs, if_neg fun heq => hx heq.2.symm]
  inInjectionIrqs :=
    congrFun (setPendingIrq_field g v x Banked.inInjectionIrqs (fun _ _ => rfl) v) id

theorem sameFor_clrPendingIrq {x : ℕ} (hx : x ≠ id) : SameFor v id g (g.clrPendingIrq v x) where
  ctlr := rfl
  gicR := clrPendingIrq_field g v x Banked.gicR (fun _ _ => rfl) v
  irqObject := clrPendingIrq_irqObject ..
  pendingIrqs := by rw [clrPendingIrq_pendingIrqs, if_neg fun heq => hx heq.2.symm]
  inInjectionIrqs :=
    congrFun (clrPendingIrq_field g v x Banked.inInjectionIrqs (fun _ _ => rfl) v) id

theorem sameFor_setInInjection {x : ℕ} (hx : x ≠ id) : SameFor v id g (g.setInInjection v x) where
  ctlr := rfl
  gicR := setInInjection_field g v x Banked.gicR (fun _ _ => rfl) v
  irqObject := setInInjection_irqObject ..
  pendingIrqs := congrFun (setInInjection_field g v x Banked.pendingIrqs (fun _ _ => rfl) v) id
  inInjectionIrqs := by rw [setInInjection_inInjectionIrqs, if_neg fun heq => hx heq.2.symm]

theorem sameFor_clrInInjection {x : ℕ} (hx : x ≠ id) : SameFor v id g (g.clrInInjection v x) where
  ctlr := rfl
  gicR := clrInInjection_field g v x Banked.gicR (fun _ _ => rfl) v
  irqObject := clrInInjection_irqObject ..
  pendingIrqs := congrFun (clrInInjection_field g v x Banked.pendingIrqs (fun _ _ => rfl) v) id
  inInjectionIrqs := by rw [clrInInjection_inInjectionIrqs, if_neg fun heq => hx heq.2.symm]

theorem sameFor_inject {x : ℕ} (hx : x ≠ id) : SameFor v id g (g.inject v x).2 := by
  rw [inject]
  split
  · exact .refl v id g
  · exact ((sameFor_modifyIrq hx _).trans (sameFor_setInInjection hx)).trans
      (sameFor_clrPendingIrq hx)

theorem sameFor_updateInjStatus {x : ℕ} (hx : x ≠ id) (state : IrqState) (inInjection : Bool) :
    SameFor v id g (g.updateInjStatus v x state inInjection) := by
  refine updateInjStatus_keeps (P := SameFor v id g) (.refl v id g) v x state inInjection
    ?_ ?_ ?_ ?_
  · exact sameFor_clrInInjection hx
  · exact fun h _ _ => h.trans (sameFor_modifyIrq hx _)
  · exact fun h _ => h.trans (sameFor_modifyIrq hx _)
  · exact fun h => h.trans (sameFor_setPendingIrq hx)

end Frames

/-! ## What the calls do to the LPI -/

section Effects

variable {v id : ℕ} {g : GicD}

/-- The LPI `id` of `g` has become `irq`; its bits on `v` are `bit` and `inInjection`. -/
structure Became (v id : ℕ) (g g' : GicD) (irq : Irq) (bit inInjection : Bool) : Prop where
  ctlr : g'.ctlr = g.ctlr
  gicR : (g'.bank v).gicR = (g.bank v).gicR
  irqObject : g'.irqObject v id = irq
  pendingIrqs : (g'.bank v).pendingIrqs id = bit
  inInjectionIrqs : (g'.bank v).inInjectionIrqs id = inInjection

theorem Became.modifyIrq {g' : GicD} {irq : Irq} {bit inInjection : Bool}
    (h : Became v id g g' irq bit inInjection) {cpu : ℕ} (hcpu : Shares id v cpu) (f : Irq → Irq) :
    Became v id g (g'.modifyIrq cpu id f) (f irq) bit inInjection where
  ctlr := (modifyIrq_ctlr ..).trans h.ctlr
  gicR := (modifyIrq_field g' cpu id f Banked.gicR (fun _ _ => rfl) v).trans h.gicR
  irqObject := by rw [modifyIrq_irqObject, if_pos ⟨rfl, hcpu⟩, h.irqObject]
  pendingIrqs := by
    rw [modifyIrq_field g' cpu id f Banked.pendingIrqs fun _ _ => rfl, h.pendingIrqs]
  inInjectionIrqs := by
    rw [modifyIrq_field g' cpu id f Banked.inInjectionIrqs fun _ _ => rfl, h.inInjectionIrqs]

theorem Became.setPendingIrq {g' : GicD} {irq : Irq} {bit inInjection : Bool}
    (h : Became v id g g' irq bit inInjection) :
    Became v id g (g'.setPendingIrq v id) irq true inInjection where
  ctlr := h.ctlr
  gicR := (setPendingIrq_field g' v id Banked.gicR (fun _ _ => rfl) v).trans h.gicR
  irqObject := (setPendingIrq_irqObject ..).trans h.irqObject
  pendingIrqs := by rw [setPendingIrq_pendingIrqs, if_pos ⟨rfl, rfl⟩]
  inInjectionIrqs := by
    rw [setPendingIrq_field g' v id Banked.inInjectionIrqs fun _ _ => rfl, h.inInjectionIrqs]

theorem Became.signal {g' : GicD} {irq : Irq} {bit inInjection : Bool}
    (h : Became v id g g' irq bit inInjection) {cpu : ℕ} :
    Became v id g (g'.notifyInterruptPending cpu) irq bit inInjection := by
  have hsame {α : Type} (p : Banked → α) (hp : ∀ (b : Banked) irqSig, p { b with irqSig } = p b) :
      p ((g'.notifyInterruptPending cpu).bank v) = p (g'.bank v) :=
    modifyBank_field g' cpu _ p (fun b => hp b _) v
  refine ⟨h.ctlr, (hsame Banked.gicR fun _ _ => rfl).trans h.gicR, ?_, ?_, ?_⟩
  · rw [(announced_notifyInterruptPending g' id cpu).irqObject, h.irqObject]
  · rw [hsame Banked.pendingIrqs fun _ _ => rfl, h.pendingIrqs]
  · rw [hsame Banked.inInjectionIrqs fun _ _ => rfl, h.inInjectionIrqs]

/-- **Injection.** -/
theorem became_inject {info : IrqInjectionInfo}
    (hinfo : (g.irqObject v id).injectionInfo.injected v = some info) :
    Became v id g (g.inject v id).2 { g.irqObject v id with injectionInfo := info } false true := by
  rw [inject, hinfo]
  refine ⟨setInfo_ctlr .., ?_, ?_, ?_, ?_⟩
  · rw [clrPendingIrq_field _ v id Banked.gicR fun _ _ => rfl,
      setInInjection_field _ v id Banked.gicR fun _ _ => rfl,
      setInfo_field _ v id info Banked.gicR fun _ _ => rfl]
  · rw [clrPendingIrq_irqObject, setInInjection_irqObject, setInfo_irqObject,
      if_pos ⟨rfl, .inr rfl⟩]
  · rw [clrPendingIrq_pendingIrqs, if_pos ⟨rfl, rfl⟩]
  · rw [clrPendingIrq_field _ v id Banked.inInjectionIrqs fun _ _ => rfl,
      setInInjection_inInjectionIrqs, if_pos ⟨rfl, rfl⟩]

/-- **A call of `update_inj_status`.** A pending interrupt has its bit afterwards. -/
theorem became_updateInjStatus (g : GicD) (v id : ℕ) (state : IrqState) (inInjection : Bool) :
    ∃ irq bit, Became v id g (g.updateInjStatus v id state inInjection) irq bit
        (inInjection && (g.bank v).inInjectionIrqs id) ∧
      irq.injectionInfo = ((g.irqObject v id).injectionInfo.updated v state inInjection).getD
        (g.irqObject v id).injectionInfo ∧
      irq.enable = (g.irqObject v id).enable ∧ irq.group1 = (g.irqObject v id).group1 ∧
      (irq.pending = true → bit = true) := by
  have hstart : Became v id g (if inInjection then g else g.clrInInjection v id)
      (g.irqObject v id) ((g.bank v).pendingIrqs id)
      (inInjection && (g.bank v).inInjectionIrqs id) := by
    split_ifs with hin
    · rw [hin, Bool.true_and]
      exact ⟨rfl, rfl, rfl, rfl, rfl⟩
    · rw [Bool.not_eq_true] at hin
      rw [hin, Bool.false_and]
      refine ⟨rfl, clrInInjection_field g v id Banked.gicR (fun _ _ => rfl) v,
        clrInInjection_irqObject .., ?_, ?_⟩
      · rw [clrInInjection_field g v id Banked.pendingIrqs fun _ _ => rfl]
      · rw [clrInInjection_inInjectionIrqs, if_pos ⟨rfl, rfl⟩]
  simp only [updateInjStatus]
  generalize (if inInjection then g else g.clrInInjection v id) = g₁ at hstart ⊢
  generalize hg₂ : g₁.modifyIrq v id _ = g₂
  obtain ⟨active, hact⟩ : ∃ active, Became v id g g₂ { g.irqObject v id with active }
      ((g.bank v).pendingIrqs id) (inInjection && (g.bank v).inInjectionIrqs id) :=
    hg₂ ▸ ⟨_, hstart.modifyIrq (.inr rfl) _⟩
  -- the bit is set if the interrupt is pending once its injection info has been stored
  have hfinish {g₃ : GicD} {irq : Irq} (hirq : Became v id g g₃ irq ((g.bank v).pendingIrqs id)
      (inInjection && (g.bank v).inInjectionIrqs id)) :
      ∃ bit, Became v id g (if (g₃.irqObject v id).pending then g₃.setPendingIrq v id else g₃) irq
        bit (inInjection && (g.bank v).inInjectionIrqs id) ∧ (irq.pending = true → bit = true) := by
    rw [hirq.irqObject]
    split_ifs with hpend
    · exact ⟨true, hirq.setPendingIrq, fun _ => rfl⟩
    · exact ⟨_, hirq, fun h => absurd h hpend⟩
  have hobj := hact.irqObject
  rw [hobj]
  cases (g.irqObject v id).injectionInfo.updated v state inInjection with
  | none =>
      obtain ⟨bit, hbit, hset⟩ := hfinish hact
      exact ⟨_, bit, hbit, rfl, rfl, rfl, hset⟩
  | some info =>
      obtain ⟨bit, hbit, hset⟩ :=
        hfinish (hact.modifyIrq (.inr rfl) ({ · with injectionInfo := info }))
      exact ⟨_, bit, hbit, rfl, rfl, rfl, hset⟩

/-- **An LPI that is raised** for `v`. -/
theorem became_raiseLpi (g : GicD) {v id : ℕ} (hv : v < 256) (hid : lpiBase ≤ id) (prop : UInt8) :
    Became v id g (g.raiseLpi id v prop) { g.irqObject v id with
      prio := prop &&& 0xFC, injectionInfo := .asserted (.cpuId v) } true
      ((g.bank v).inInjectionIrqs id) := by
  have hshares : Shares id v 0 := .inl (Nat.le_trans (by decide) hid)
  have htarget : IrqTarget.ofCpuId v = .cpuId v := by
    rw [IrqTarget.ofCpuId, Nat.mod_eq_of_lt (hv.trans (by decide))]
  have hvalid : (IrqTarget.cpuId v).isValid = true := rfl
  have hstart : Became v id g g (g.irqObject v id) ((g.bank v).pendingIrqs id)
      ((g.bank v).inInjectionIrqs id) := ⟨rfl, rfl, rfl, rfl, rfl⟩
  have hset := (hstart.modifyIrq hshares ({ · with prio := prop &&& 0xFC })).modifyIrq hshares
    ({ · with injectionInfo := .asserted (.cpuId v) })
  rw [raiseLpi, htarget]
  dsimp only
  rw [notifyTarget, notified, hvalid]
  have hbit := hset.setPendingIrq
  simp only [Bool.not_true, Bool.false_eq_true, if_false, List.foldl_cons, List.foldl_nil]
  rw [notifyCpu]
  split_ifs
  · exact hbit.signal
  · exact hbit

end Effects

/-! ## MSIs -/

theorem lt_of_translate {its : Gits} {bus : GuestBus} {eventId devId : UInt32} {id v : ℕ}
    (h : its.translate bus eventId devId = some (id, v)) : v < 256 := by
  simp only [Gits.translate] at h
  split_ifs at h
  rw [Option.some.injEq, Prod.mk.injEq] at h
  rw [← h.2]
  exact UInt8.toNat_lt _

/-- **What an MSI does**: nothing while the LPI is pending, and otherwise it makes it pending. -/
theorem signal_step {g t : GicD} {v id : ℕ} {op : LpiOp} (hop : op.Signals)
    (h : LpiStep v id g op t) : (lpiBase ≤ id ∧ id < maxIrq ∧ v < 256) ∧
      (((g.irqObject 0 id).pending = true ∧ t = g) ∨
        (g.irqObject 0 id).pending = false ∧ ∃ prop, t = g.raiseLpi id v prop) := by
  -- both kinds of signal come to `handle_msi`
  obtain ⟨its, bus, eventId, devId, hmap, hmsi⟩ : ∃ its bus eventId devId,
      MappedTo ⟨g, its, bus⟩ eventId devId id v ∧
        (ItsSys.handleMsi ⟨g, its, bus⟩ eventId devId).map ItsSys.gic = some t := by
    cases op with
    | msi its bus eventId devId => exact ⟨its, bus, eventId, devId, h⟩
    | int its bus q0 q1 q2 =>
        obtain ⟨hcmd, hmap, hint⟩ := h
        refine ⟨its, bus, _, _, hmap, ?_⟩
        have h1 : ¬(3 : UInt64) = 1 := by decide
        simp only [ItsSys.handleCommand, hcmd, if_neg h1, if_true] at hint
        exact hint
    | pendingIrq => exact hop.elim
    | updateInjStatus => exact hop.elim
  obtain ⟨prop, hprop, henabled⟩ := hmap.enabled
  rw [ItsSys.handleMsi, hmap.translate] at hmsi
  dsimp only at hmsi
  rw [Option.map_map, Option.map_eq_some_iff] at hmsi
  obtain ⟨t', hassert, rfl⟩ := hmsi
  rw [assertLpi] at hassert
  split_ifs at hassert with hrange hpend
  · rw [not_or, Nat.not_le, Nat.not_lt] at hrange
    exact ⟨⟨hrange.2, hrange.1, lt_of_translate hmap.translate⟩,
      .inl ⟨hpend, (Option.some.inj hassert).symm⟩⟩
  · rw [not_or, Nat.not_le, Nat.not_lt] at hrange
    rw [hprop] at hassert
    dsimp only at hassert
    rw [if_neg henabled] at hassert
    refine ⟨⟨hrange.2, hrange.1, lt_of_translate hmap.translate⟩, .inr ⟨?_, prop, ?_⟩⟩
    · rwa [Bool.not_eq_true] at hpend
    · exact (Option.some.inj hassert).symm

/-! ## From one injection to the next -/

/-- The LPI has been injected into `v` before, and no other calls than for it and of `v` have been
made since. -/
structure Tracked (v id : ℕ) (g : GicD) : Prop where
  enable : (g.irqObject v id).enable = true
  group : g.groupEnabled (g.irqObject v id) = true
  receive : g.vcpuCanReceiveIrq v id = true
  senderZero : (g.irqObject v id).injectionInfo.SenderZero
  target : (g.irqObject v id).injectionInfo.pending = true →
    (g.irqObject v id).injectionInfo.isTargetingCpu v = true
  bit : (g.irqObject v id).injectionInfo.pending = true →
    (g.irqObject v id).injectionInfo.isInjected 0 = false → (g.bank v).pendingIrqs id = true

/-- The LPI is to be injected: it is pending, and not injected. -/
structure Owed (v id : ℕ) (g : GicD) : Prop extends Tracked v id g where
  pending : (g.irqObject v id).injectionInfo.pending = true
  notInjected : (g.irqObject v id).injectionInfo.isInjected 0 = false

section Tracked

variable {v id : ℕ} {g t : GicD}

theorem Tracked.of_became (h : Tracked v id g) {irq : Irq} {bit inInjection : Bool}
    (hb : Became v id g t irq bit inInjection) (henable : irq.enable = (g.irqObject v id).enable)
    (hgroup : irq.group1 = (g.irqObject v id).group1) (hzero : irq.injectionInfo.SenderZero)
    (htarget : irq.injectionInfo.pending = true → irq.injectionInfo.isTargetingCpu v = true)
    (hbit : irq.injectionInfo.pending = true → irq.injectionInfo.isInjected 0 = false →
      bit = true) : Tracked v id t where
  enable := by rw [hb.irqObject, henable, h.enable]
  group := by
    rw [groupEnabled_of_ctlr hb.ctlr, hb.irqObject, groupEnabled, hgroup]
    exact h.group
  receive := by
    rw [GicD.vcpuCanReceiveIrq, affinityRouting, hb.ctlr, hb.gicR]
    exact h.receive
  senderZero := by rw [hb.irqObject]; exact hzero
  target := by rw [hb.irqObject]; exact htarget
  bit := by rw [hb.irqObject, hb.pendingIrqs]; exact hbit

theorem SameFor.became (h : SameFor v id g t) : Became v id g t (g.irqObject v id)
    ((g.bank v).pendingIrqs id) ((g.bank v).inInjectionIrqs id) :=
  ⟨h.ctlr, h.gicR, h.irqObject, h.pendingIrqs, h.inInjectionIrqs⟩

theorem Tracked.of_same (h : Tracked v id g) (hs : SameFor v id g t) : Tracked v id t :=
  h.of_became hs.became rfl rfl h.senderZero h.target h.bit

theorem Owed.of_same (h : Owed v id g) (hs : SameFor v id g t) : Owed v id t where
  toTracked := h.toTracked.of_same hs
  pending := by rw [hs.irqObject]; exact h.pending
  notInjected := by rw [hs.irqObject]; exact h.notInjected

/-- **An LPI that has just been injected** is tracked from there on. -/
theorem tracked_injected (hzero : (g.irqObject v id).injectionInfo.SenderZero)
    {minPriority : UInt8} (hinj : g.Injects v minPriority id) :
    Tracked v id (g.pendingIrq v minPriority).2 := by
  obtain ⟨hchosen, hprio⟩ := hinj
  have hconsiders := (considers_of_highestIrq hchosen).2
  have hcons := hconsiders
  simp only [considers, Bool.and_eq_true, Bool.not_eq_true'] at hcons
  obtain ⟨⟨⟨⟨⟨hgroup, htarget⟩, hpend⟩, henable⟩, -⟩, hrecv⟩ := hcons
  have hsame : SameFor v id g (g.highestIrq v true).2 := sameFor_highestIrq hrecv true
  have hinfo : ((g.highestIrq v true).2.irqObject v id).injectionInfo.injected v =
      some ((g.irqObject v id).injectionInfo.setInjected 0) := by
    rw [hsame.irqObject, IrqInjectionInfo.injected, hpend, htarget, hzero.getPendingSenderId]
    rfl
  have hb := became_inject hinfo
  rw [pendingIrq, hchosen]
  dsimp only
  rw [if_neg hprio]
  dsimp only
  have hobj := hsame.irqObject
  refine ⟨?_, ?_, ?_, ?_, ?_, ?_⟩
  · rw [hb.irqObject, hobj]
    exact henable
  · rw [groupEnabled_of_ctlr (hb.ctlr.trans hsame.ctlr), hb.irqObject, hobj]
    exact hgroup
  · rw [GicD.vcpuCanReceiveIrq, affinityRouting, hb.ctlr, hb.gicR, hsame.ctlr, hsame.gicR]
    exact hrecv
  · rw [hb.irqObject]
    exact ⟨hzero.pendingBits, Finset.insert_subset (Finset.mem_singleton_self 0) hzero.injectedBits⟩
  · rw [hb.irqObject]
    exact fun _ => htarget
  · intro _ hnot
    rw [hb.irqObject] at hnot
    exact absurd (Finset.mem_insert_self 0 _) (of_decide_eq_false hnot)

theorem pendingIrq_cases (hrecv : g.vcpuCanReceiveIrq v id = true) (minPriority : UInt8) :
    SameFor v id g (g.pendingIrq v minPriority).2 ∨ g.Injects v minPriority id := by
  have hsame : SameFor v id g (g.highestIrq v true).2 := sameFor_highestIrq hrecv true
  rw [pendingIrq]
  cases hchosen : (g.highestIrq v true).1 with
  | none => exact .inl hsame
  | some x =>
      dsimp only
      by_cases hprio : minPriority < ((g.highestIrq v true).2.irqObject v x).prio
      · rw [if_pos hprio]
        exact .inl hsame
      · rw [if_neg hprio]
        by_cases hx : x = id
        · exact .inr ⟨hx ▸ hchosen, hx ▸ hprio⟩
        · exact .inl (hsame.trans (sameFor_inject hx))

theorem lowers_getD_updated (info : IrqInjectionInfo) (state : IrqState) (inInjection : Bool) :
    info.Lowers ((info.updated v state inInjection).getD info) := by
  cases hinfo : info.updated v state inInjection with
  | none => exact .refl info
  | some info' => exact IrqInjectionInfo.lowers_updated hinfo

theorem updated_of_notInjected {info : IrqInjectionInfo} (hzero : info.SenderZero)
    (hnot : info.isInjected 0 = false) (state : IrqState) (inInjection : Bool) :
    info.updated v state inInjection = none := by
  have hnone : info.getInjectedSenderId = none := by
    rw [hzero.getInjectedSenderId, hnot]
    rfl
  cases state with
  | inactive => rw [IrqInjectionInfo.updated, IrqInjectionInfo.completed, hnone]
  | pending => rw [IrqInjectionInfo.updated, IrqInjectionInfo.cameBack, hnone]; simp
  | active => rw [IrqInjectionInfo.updated, IrqInjectionInfo.cameBack, hnone]; simp
  | activePending => rw [IrqInjectionInfo.updated, IrqInjectionInfo.cameBack, hnone]; simp

theorem pending_of_injectionInfo {irq : Irq} (h : irq.injectionInfo.pending = true) :
    irq.pending = true := by
  rw [Irq.pending, h, Bool.or_true]

theorem Tracked.updateInjStatus (h : Tracked v id g) (x : ℕ) (state : IrqState)
    (inInjection : Bool) : Tracked v id (g.updateInjStatus v x state inInjection) := by
  by_cases hx : x = id
  · subst hx
    obtain ⟨irq, bit, hb, hinfo, henable, hgroup, hbit⟩ :=
      became_updateInjStatus g v x state inInjection
    have hlow := @lowers_getD_updated v (g.irqObject v x).injectionInfo state inInjection
    rw [← hinfo] at hlow
    refine h.of_became hb henable hgroup ?_ (fun hpend => ?_) fun hpend _ => ?_
    · exact ⟨hlow.pendingBits.trans h.senderZero.pendingBits,
        hlow.injectedBits.trans h.senderZero.injectedBits⟩
    · rw [IrqInjectionInfo.isTargetingCpu, hlow.target]
      exact h.target (IrqInjectionInfo.pending_of_subset hlow.pendingBits hpend)
    · exact hbit (pending_of_injectionInfo hpend)
  · exact h.of_same (sameFor_updateInjStatus hx state inInjection)

theorem Tracked.raiseLpi (h : Tracked v id g) (hid : lpiBase ≤ id) (hv : v < 256) (prop : UInt8) :
    Owed v id (g.raiseLpi id v prop) := by
  have hb := became_raiseLpi g hv hid prop
  have htarget : (IrqInjectionInfo.asserted (.cpuId v)).isTargetingCpu v = true :=
    beq_self_eq_true v
  refine { toTracked := h.of_became hb rfl rfl (.asserted _) (fun _ => htarget) fun _ _ => rfl,
           pending := ?_, notInjected := ?_ }
  · rw [hb.irqObject]
    rfl
  · rw [hb.irqObject]
    rfl

/-- **One call** after the injection. -/
theorem Tracked.step (h : Tracked v id g) {op : LpiOp} (hstep : LpiStep v id g op t) :
    Tracked v id t := by
  have hsignal (hop : op.Signals) : Tracked v id t := by
    obtain ⟨⟨hid, -, hv⟩, ⟨-, rfl⟩ | ⟨-, prop, rfl⟩⟩ := signal_step hop hstep
    · exact h
    · exact (h.raiseLpi hid hv prop).toTracked
  cases op with
  | msi => exact hsignal trivial
  | int => exact hsignal trivial
  | pendingIrq minPriority =>
      rw [show t = _ from hstep]
      rcases pendingIrq_cases h.receive minPriority with hsame | hinj
      · exact h.of_same hsame
      · exact tracked_injected h.senderZero hinj
  | updateInjStatus irqId state inInjection =>
      rw [show t = _ from hstep]
      exact h.updateInjStatus irqId state inInjection

/-- **One call** that does not inject the LPI leaves it owed. -/
theorem Owed.step (h : Owed v id g) {op : LpiOp} (hstep : LpiStep v id g op t)
    (hinj : ¬op.Injects v id g) : Owed v id t := by
  have hsignal (hop : op.Signals) : Owed v id t := by
    obtain ⟨⟨hid, -, -⟩, ⟨-, rfl⟩ | ⟨hnot, -⟩⟩ := signal_step hop hstep
    · exact h
    · have hpend := pending_of_injectionInfo h.pending
      have hshares : Shares id v 0 := .inl (Nat.le_trans (by decide) hid)
      rw [irqObject_eq_of_shares hshares, hnot] at hpend
      cases hpend
  cases op with
  | msi => exact hsignal trivial
  | int => exact hsignal trivial
  | pendingIrq minPriority =>
      rw [show t = _ from hstep]
      exact h.of_same ((pendingIrq_cases h.receive minPriority).resolve_right hinj)
  | updateInjStatus x state inInjection =>
      rw [show t = _ from hstep]
      by_cases hx : x = id
      · subst hx
        obtain ⟨irq, bit, hb, hinfo, -⟩ := became_updateInjStatus g v x state inInjection
        rw [updated_of_notInjected h.senderZero h.notInjected, Option.getD_none] at hinfo
        refine { toTracked := h.updateInjStatus x state inInjection, pending := ?_,
                 notInjected := ?_ }
        · rw [hb.irqObject, hinfo, h.pending]
        · rw [hb.irqObject, hinfo, h.notInjected]
      · exact h.of_same (sameFor_updateInjStatus hx state inInjection)

theorem Owed.candidate (h : Owed v id g) (hirq : g.HasIrq id)
    (hfree : (g.bank v).inInjectionIrqs id = false) :
    g.Candidate v id ∧ (g.bank v).pendingIrqs id = true :=
  ⟨⟨hirq, h.enable, h.group, h.pending, h.target h.pending, hfree, h.receive⟩,
    h.bit h.pending h.notInjected⟩

/-- **The calls up to the next injection** leave the LPI owed. -/
theorem Owed.injectedAgain (h : Owed v id g) (hid : lpiBase ≤ id ∧ id < maxIrq) :
    InjectedAgain v id g := by
  intro ops t hrun hfree
  have howed : Owed v id t :=
    hrun.invariant (fun _ _ _ hu hstep => hu.step hstep.1 hstep.2) h
  exact howed.candidate (.inr hid) hfree

/-- After a completion, the LPI is not pending if it was injected. -/
theorem not_injectedAgain (h : Tracked v id g)
    (hlost : (g.irqObject v id).injectionInfo.pending = true →
      (g.irqObject v id).injectionInfo.isInjected 0 = true) : ¬InjectedAgain v id g := by
  intro hagain
  obtain ⟨irq, bit, hb, hinfo, -⟩ := became_updateInjStatus g v id .inactive false
  have hrun : Run (fun g op t => LpiStep v id g op t ∧ ¬op.Injects v id g) g
      [.updateInjStatus id .inactive false] (g.updateInjStatus v id .inactive false) :=
    .cons ⟨rfl, fun hinj => hinj⟩ .nil
  obtain ⟨hcandidate, -⟩ := hagain _ _ hrun (by rw [hb.inInjectionIrqs, Bool.false_and])
  have hpend := hcandidate.pending
  have hcompleted := h.senderZero.completed_getD v
  rw [hb.irqObject, hinfo] at hpend
  rw [IrqInjectionInfo.updated] at hpend
  split_ifs at hcompleted with hinj
  · rw [hcompleted] at hpend
    cases hpend
  · rw [hcompleted] at hpend
    exact hinj ⟨hlost hpend, h.target hpend⟩

end Tracked

/-! ## Senders -/

theorem SenderZero.assertLpi {g t : GicD} (h : g.SenderZero) {bus : GuestBus}
    {pintid targetCpu : ℕ} (hstep : g.assertLpi bus pintid targetCpu = some t) : t.SenderZero := by
  rw [GicD.assertLpi] at hstep
  split_ifs at hstep
  · exact Option.some.inj hstep ▸ h
  · have hraise (prop : UInt8) : (g.raiseLpi pintid targetCpu prop).SenderZero := by
      have hprio := h.modifyIrq 0 pintid (f := ({ · with prio := prop &&& 0xFC })) fun _ => rfl
      exact (hprio.setInfo 0 pintid fun _ => .asserted _).notifyTarget pintid _
    split at hstep
    · split_ifs at hstep
      · exact Option.some.inj hstep ▸ h
      · exact Option.some.inj hstep ▸ hraise _
    · exact Option.some.inj hstep ▸ h

/-- **The senders in a run** with LPIs. -/
theorem senderZero_steps {g₀ g : GicD} (h₀ : g₀.SetUp) {ops : List DistrOp}
    (h : Run Step g₀ ops g) : g.SenderZero := by
  refine h.invariant ?_ fun cpu id _ => ?_
  · intro u op t hu hstep
    cases op with
    | assertLpi bus pintid targetCpu => exact hu.assertLpi hstep
    | call op =>
        obtain ⟨-, rfl⟩ := hstep
        exact hu.exec op
  · rw [h₀.injectionInfo]
    exact .empty

/-! ## The result -/

/-- **An MSI after an injection is not lost** exactly when the LPI is not pending at all, or is
pending without being injected. -/
theorem msi_kept_iff {g₀ h g t : GicD} {ops₀ : List DistrOp} (h₀ : g₀.SetUp)
    (hbefore : Run Step g₀ ops₀ h) {v id : ℕ} (hid : lpiBase ≤ id) {minPriority : UInt8}
    (hinj : h.Injects v minPriority id) {ops : List LpiOp}
    (hrun : Run (LpiStep v id) (h.exec (.pendingIrq v minPriority)) ops g) {op : LpiOp}
    (hop : op.Signals) (hmsi : LpiStep v id g op t) :
    InjectedAgain v id t ↔ (g.irqObject v id).pending = false ∨
      (g.irqObject v id).injectionInfo.pending = true ∧
        (g.irqObject v id).injectionInfo.isInjected 0 = false := by
  have htracked : Tracked v id g := by
    refine hrun.invariant (fun _ _ _ hu hstep => hu.step hstep) ?_
    refine tracked_injected ?_ hinj
    exact senderZero_steps h₀ hbefore v id (Nat.le_trans (by decide) hid)
  have hobj : g.irqObject 0 id = g.irqObject v id :=
    (irqObject_eq_of_shares (.inl (Nat.le_trans (by decide) hid))).symm
  obtain ⟨⟨-, hlt, hv⟩, hcases⟩ := signal_step hop hmsi
  rw [hobj] at hcases
  rcases hcases with ⟨hpend, rfl⟩ | ⟨hnot, prop, rfl⟩
  · -- the MSI is dropped
    constructor
    · intro hagain
      right
      by_contra hlost
      refine not_injectedAgain htracked (fun hinfo => ?_) hagain
      rw [← Bool.not_eq_false]
      exact fun hinj => hlost ⟨hinfo, hinj⟩
    · rintro (hnot | ⟨hinfo, hinj⟩)
      · rw [hpend] at hnot
        cases hnot
      · exact Owed.injectedAgain ⟨htracked, hinfo, hinj⟩ ⟨hid, hlt⟩
  · exact iff_of_true ((htracked.raiseLpi hid hv prop).injectedAgain ⟨hid, hlt⟩) (.inl hnot)

/-! ## One LPI -/

/-- Event 0 of device 0 is LPI 8192 of the collection 0, which is the vCPU 0. The LPI is enabled. -/
def lpiBus : GuestBus where
  mem a :=
    if a = 0x10002 then 3
    else if a = 0x30001 then 0x20
    else if a = 0x40000 then 0xa1
    else 0
  readable _ _ := true
  writable _ _ := true

/-- The ITS that finds its tables there. -/
def lpiIts : Gits :=
  { Gits.init with
    baser := fun i => if i.val = 0 then 0x10000 else if i.val = 1 then 0x20000 else 0 }

/-- The guest enables group 1, tells where the LPIs are configured, and wakes up its vCPU. -/
def lpiCalls : List GicOp :=
  [.mmioWrite 0 0x0 4 0x12, .gicRMmioWrite 0 0x70 8 0x40000, .gicRMmioWrite 0 0x14 4 0]

/-- The state after that. -/
def lpiGic : GicD := lpiCalls.foldl exec (init .gicV3 1 64).initLpis

/-- The LPI is asserted. -/
def assertedLpi (g : GicD) : GicD := (g.assertLpi lpiBus 8192 0).getD g

/-- The LPI is injected. -/
def injectedLpi : GicD := (assertedLpi lpiGic).exec (.pendingIrq 0 0xff)

theorem setUp_initLpis : (init .gicV3 1 64).initLpis.SetUp where
  pendingIrqs := (fresh_init .gicV3 1 64).pendingIrqs
  inInjectionIrqs := (fresh_init .gicV3 1 64).inInjectionIrqs
  injectionInfo cpu id := by
    rw [← (fresh_init .gicV3 1 64).injectionInfo cpu id, irqObject, irqObject, initLpis]
    dsimp only
    split_ifs <;> rfl
  lines := by decide
  limit := by decide

theorem run_assertedLpi : Run Step (init .gicV3 1 64).initLpis
    (lpiCalls.map .call ++ [.assertLpi lpiBus 8192 0]) (assertedLpi lpiGic) := by
  have hcalls : ∀ op ∈ lpiCalls, ∀ g : GicD, g.Admits op := by
    simp only [lpiCalls, List.forall_mem_cons, Admits]
    exact ⟨fun _ => trivial, fun _ => trivial, fun _ => trivial, nofun⟩
  refine .snoc (run_calls hcalls _) ?_
  exact (Option.some_get (by decide +kernel)).symm

theorem injects_assertedLpi : (assertedLpi lpiGic).Injects 0 0xff 8192 :=
  ⟨by decide +kernel,
    UInt8.not_lt.2 (UInt8.le_iff_toNat_le.2 (Nat.le_of_lt_succ (UInt8.toNat_lt _)))⟩

theorem lpiStep_msi {g : GicD} (hprop : g.lpiProp lpiBus 8192 = some 0xa1)
    (hsome : (g.assertLpi lpiBus 8192 0).isSome = true) :
    LpiStep 0 8192 g (.msi lpiIts lpiBus 0 0) (assertedLpi g) := by
  have htranslate : lpiIts.translate lpiBus 0 0 = some (8192, 0) := by decide +kernel
  refine ⟨⟨htranslate, 0xa1, hprop, by decide⟩, ?_⟩
  obtain ⟨t, ht⟩ := Option.isSome_iff_exists.1 hsome
  rw [ItsSys.handleMsi, htranslate, assertedLpi]
  dsimp only
  rw [ht]
  rfl

/-- An MSI that arrives while the LPI is in the list register is lost with the completion. -/
theorem msi_lost : ∃ (g₀ h g t : GicD) (ops₀ : List DistrOp) (v id : ℕ) (minPriority : UInt8)
    (ops : List LpiOp) (op : LpiOp), g₀.SetUp ∧ Run Step g₀ ops₀ h ∧ lpiBase ≤ id ∧
      h.Injects v minPriority id ∧ Run (LpiStep v id) (h.exec (.pendingIrq v minPriority)) ops g ∧
      op.Signals ∧ LpiStep v id g op t ∧ ¬InjectedAgain v id t := by
  refine ⟨_, _, injectedLpi, assertedLpi injectedLpi, _, 0, 8192, 0xff, [],
    .msi lpiIts lpiBus 0 0, setUp_initLpis, run_assertedLpi, by decide, injects_assertedLpi, .nil,
    trivial, lpiStep_msi (by decide +kernel) (by decide +kernel), fun hagain => ?_⟩
  have hrun : Run (fun g op t => LpiStep 0 8192 g op t ∧ ¬op.Injects 0 8192 g)
      (assertedLpi injectedLpi) [.updateInjStatus 8192 .inactive false]
      ((assertedLpi injectedLpi).updateInjStatus 0 8192 .inactive false) :=
    .cons ⟨rfl, fun hinj => hinj⟩ .nil
  have hpend := (hagain _ _ hrun (by decide +kernel)).1.pending
  have hnot : (((assertedLpi injectedLpi).updateInjStatus 0 8192 .inactive false).irqObject 0
      8192).injectionInfo.pending = false := by decide +kernel
  rw [hnot] at hpend
  cases hpend

/-- One that arrives after the completion is not. -/
theorem msi_kept : InjectedAgain 0 8192
    (assertedLpi (injectedLpi.updateInjStatus 0 8192 .inactive false)) := by
  have hcompleted : Run (LpiStep 0 8192) injectedLpi [.updateInjStatus 8192 .inactive false]
      (injectedLpi.updateInjStatus 0 8192 .inactive false) := .cons rfl .nil
  have hsignals : (LpiOp.msi lpiIts lpiBus 0 0).Signals := trivial
  have hmsi := @lpiStep_msi (injectedLpi.updateInjStatus 0 8192 .inactive false)
    (by decide +kernel) (by decide +kernel)
  refine (msi_kept_iff setUp_initLpis run_assertedLpi (by decide) injects_assertedLpi hcompleted
    hsignals hmsi).2 ?_
  exact .inl (by decide +kernel)

end Vml.GicD
