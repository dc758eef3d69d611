import Vml.GicFlags
import Vml.GicIndices

/-!
# Re-routing SPIs

A guest chooses where an SPI goes by writing IROUTER, with affinity routing, or ITARGETSR, without.
An SPI that is pending at that moment is routed again (`redirect_spi`): its target is replaced, and
its bit is set in `pending_irqs` of the vCPUs that the new target names. Their bits are all that is
changed there, so the vCPUs that it was sent to before keep theirs, and what keeps them from
delivering it is that the target does not name them any more.

**The invalid target.** When no vCPU has the affinity, `route_spi` returns `IrqTarget()`, the "empty
target", all of whose bits are set. Read as a set of vCPUs it names every vCPU, so the SPI stays
deliverable where its bit is left (`isCpuTargeted_invalid`).

**Sets of vCPUs** have eight members at most, and `is_cpu_targeted` asserts that it is asked for one
of them. A vCPU beyond that asks as soon as it has the bit of an SPI whose target is a set.

Main results: `GicD.rerouted_iff`, `GicD.empty_target_delivers`.
-/

namespace Vml

namespace GicD

variable {g g' : GicD} {cpu id : ℕ} {irq : Irq} {f : Irq → Irq}

/-! ## What the routing of an SPI says -/

/-- The vCPU that is registered for the affinity of an SPI. -/
def named (g : GicD) (irq : Irq) : Option ℕ :=
  (g.clusters (irq.routingAffinity &&& ~~~0xff)).bind fun vcpuId =>
    vcpuId (irq.routingAffinity &&& 0xff).toNat

/-- The vCPU exists, and takes interrupts. -/
def Exists (g : GicD) (v : ℕ) : Prop := v < g.numVcpus ∧ (g.bank v).notify = true

/-- **What the routing of an SPI designates**: without affinity routing the vCPUs of its mask that
exist, and with it one vCPU if any will do, or the one that has the affinity. -/
def Designated (g : GicD) (irq : Irq) (vs : Set ℕ) : Prop :=
  if g.affinityRouting = false then
    vs = {v | g.Exists v ∧ v < gicv2MaxCpus ∧ irq.target &&& 1 <<< UInt8.ofNat v ≠ 0}
  else if irq.routingAny = true then ∃ v < g.numVcpus, vs = {v}
  else vs = {v | g.Exists v ∧ g.named irq = some v}

/-- **Where an SPI can be delivered**: it targets the vCPU, which has its bit in `pending_irqs`. -/
def deliverable (g : GicD) (id : ℕ) : Set ℕ :=
  {v | v < g.numVcpus ∧ (g.irqObject v id).injectionInfo.isTargetingCpu v = true ∧
    (g.bank v).pendingIrqs id = true}

/-- The assertion of `is_cpu_targeted` holds when a vCPU looks at the SPI. -/
def SetsAsked (g : GicD) (id : ℕ) : Prop :=
  ∀ v < g.numVcpus, (g.bank v).pendingIrqs id = true →
    ∀ mask, (g.irqObject v id).injectionInfo.target = .cpuSet mask → v < gicv2MaxCpus

/-! ## The two registers -/

/-- A write that chooses where SPIs go. -/
inductive RouteWrite
  | irouter (id : ℕ) (value : UInt64)
  | itargetsr (k : ℕ) (bytes : UInt8) (value : UInt64)

namespace RouteWrite

/-- The offset of the write. -/
def offset : RouteWrite → UInt64
  | irouter id _ => 0x6100 + UInt64.ofNat (8 * (id - spiBase))
  | itargetsr k _ _ => 0x820 + UInt64.ofNat k

/-- Its width. -/
def bytes : RouteWrite → UInt8
  | irouter _ _ => 8
  | itargetsr _ bytes _ => bytes

/-- Its value. -/
def value : RouteWrite → UInt64
  | irouter _ value => value
  | itargetsr _ _ value => value

/-- The write is to the SPI: to its IROUTER, with affinity routing, or to its byte of ITARGETSR,
without. -/
def To (w : RouteWrite) (g : GicD) (id : ℕ) : Prop :=
  spiBase ≤ id ∧ id < g.configuredIrqs ∧
    match w with
    | irouter id' _ => g.affinityRouting = true ∧ id' = id
    | itargetsr k bytes _ => g.affinityRouting = false ∧ bytes ≤ 4 ∧
        spiBase + k ≤ id ∧ id < spiBase + k + bytes.toNat

/-- What the write stores to the SPI. -/
def store (w : RouteWrite) (id : ℕ) (irq : Irq) : Irq :=
  match w with
  | irouter _ value => { irq with routing := value }
  | itargetsr k _ value =>
      { irq with target := (value >>> UInt64.ofNat (8 * (id - spiBase - k))).toUInt8 }

end RouteWrite

/-- What the distributor is after a write. -/
def routeWrite (g : GicD) (cpu : ℕ) (w : RouteWrite) : GicD :=
  (g.mmioWrite cpu w.offset w.bytes w.value).2

/-- **The SPI is re-routed** by a write: it is deliverable on exactly the vCPUs that the new routing
designates, and no vCPU asks for more than a set of vCPUs has. -/
structure Rerouted (g : GicD) (cpu : ℕ) (w : RouteWrite) (id : ℕ) : Prop where
  exact : g.Designated (w.store id (g.irqObject cpu id)) ((g.routeWrite cpu w).deliverable id)
  asked : (g.routeWrite cpu w).SetsAsked id

/-- No vCPU beyond the eight of a set has the bit of the SPI, without affinity routing; and with it,
any vCPU will do, or one that exists has the affinity, or none has the bit. An SPI that is pending
by its line or by software alone, and so is not routed again, is deliverable where it should be. -/
def RouteSpared (g : GicD) (cpu : ℕ) (w : RouteWrite) (id : ℕ) : Prop :=
  if (g.irqObject cpu id).injectionInfo.pending = true then
    if g.affinityRouting = false then
      ∀ v < g.numVcpus, (g.bank v).pendingIrqs id = true → v < gicv2MaxCpus
    else
      (w.store id (g.irqObject cpu id)).routingAny = true ∨
        (∃ v, g.Exists v ∧ g.named (w.store id (g.irqObject cpu id)) = some v) ∨
        ∀ v < g.numVcpus, (g.bank v).pendingIrqs id = false
  else
    g.Designated (w.store id (g.irqObject cpu id)) (g.deliverable id) ∧ g.SetsAsked id

/-! ## Where `route_spi` sends an SPI -/

theorem routeSpiNoAffinity_spec (g : GicD) (irq : Irq) :
    ∃ mask, g.routeSpiNoAffinity irq = .cpuSet mask ∧ ∀ v, mask.testBit v = true ↔
      g.Exists v ∧ v < gicv2MaxCpus ∧ irq.target &&& 1 <<< UInt8.ofNat v ≠ 0 := by
  have hfold (n : ℕ) : ∃ mask, (List.range n).foldl (fun res i =>
      if !(g.bank i).notify then res
      else if irq.target &&& 1 <<< UInt8.ofNat i != 0 then res.addTargetToSet i
      else res) (IrqTarget.cpuSet 0) = .cpuSet mask ∧ ∀ v, mask.testBit v = true ↔
        v < n ∧ (g.bank v).notify = true ∧ irq.target &&& 1 <<< UInt8.ofNat v ≠ 0 := by
    induction n with
    | zero => exact ⟨0, rfl, fun v => by simp⟩
    | succ n ih =>
        obtain ⟨mask, hmask, hbits⟩ := ih
        rw [List.range_succ, List.foldl_append, hmask, List.foldl_cons, List.foldl_nil]
        by_cases hadd : (g.bank n).notify = true ∧ irq.target &&& 1 <<< UInt8.ofNat n ≠ 0
        · refine ⟨mask ||| 1 <<< n, by simp [hadd, IrqTarget.addTargetToSet], fun v => ?_⟩
          rw [Nat.testBit_or, Bool.or_eq_true, hbits, Nat.one_shiftLeft, Nat.testBit_two_pow,
            decide_eq_true_iff, Nat.lt_succ_iff_lt_or_eq]
          constructor
          · rintro (⟨hlt, hv⟩ | rfl)
            · exact ⟨.inl hlt, hv⟩
            · exact ⟨.inr rfl, hadd⟩
          · rintro ⟨hlt | rfl, hv⟩
            · exact .inl ⟨hlt, hv⟩
            · exact .inr rfl
        · refine ⟨mask, ?_, fun v => ?_⟩
          · by_cases hnotify : (g.bank n).notify = true
            · have hzero : irq.target &&& 1 <<< UInt8.ofNat n = 0 := by
                by_contra hne
                exact hadd ⟨hnotify, hne⟩
              simp [hnotify, hzero]
            · simp [hnotify]
          · rw [hbits, Nat.lt_succ_iff_lt_or_eq]
            constructor
            · rintro ⟨hlt, hv⟩
              exact ⟨.inl hlt, hv⟩
            · rintro ⟨hlt | rfl, hv⟩
              · exact ⟨hlt, hv⟩
              · exact absurd hv hadd
  obtain ⟨mask, hmask, hbits⟩ := hfold (min g.numVcpus gicv2MaxCpus)
  refine ⟨mask, hmask, fun v => (hbits v).trans ?_⟩
  rw [Exists, Nat.lt_min]
  tauto

/-- What a target that is valid names, among the vCPUs. -/
def names (g : GicD) (target : IrqTarget) : Set ℕ :=
  {v | v < g.numVcpus ∧ target.isCpuTargeted v = true}

theorem names_ofCpuId (hnum : g.numVcpus < 2 ^ 16) {v : ℕ} (hv : v < g.numVcpus) :
    g.names (.ofCpuId v) = {v} := by
  have hsmall : v % 2 ^ 31 = v := Nat.mod_eq_of_lt (by omega)
  ext x
  simp only [names, IrqTarget.ofCpuId, IrqTarget.isCpuTargeted, beq_iff_eq, hsmall,
    Set.mem_ofPred_eq, Set.mem_singleton_iff]
  constructor
  · rintro ⟨-, rfl⟩
    rfl
  · rintro rfl
    exact ⟨hv, rfl⟩

/-- **The invalid target names every vCPU** of a set. -/
theorem isCpuTargeted_invalid {v : ℕ} (hv : v < gicv2MaxCpus) :
    IrqTarget.invalid.isCpuTargeted v = true := by
  rw [IrqTarget.invalid, IrqTarget.isCpuTargeted, Nat.testBit_two_pow_sub_one, decide_eq_true hv,
    Bool.true_and, decide_eq_true_iff]
  exact hv.trans (by decide)

/-- The route leads nowhere: no vCPU that exists has the affinity. -/
def NowhereToGo (g : GicD) (irq : Irq) : Prop :=
  g.affinityRouting = true ∧ irq.routingAny = false ∧ ∀ v, g.named irq = some v → ¬g.Exists v

/-- **`route_spi` sends an SPI where its routing says**, or nowhere. -/
theorem routeSpi_spec (hnum : g.numVcpus < 2 ^ 16) (hpos : 0 < g.numVcpus) (irq : Irq) (hint : ℕ) :
    (¬g.NowhereToGo irq ∧ (g.routeSpi irq hint).isValid = true ∧
        g.Designated irq (g.names (g.routeSpi irq hint)) ∧
        (g.affinityRouting = true → ∃ v, g.routeSpi irq hint = .ofCpuId v)) ∨
      g.NowhereToGo irq ∧ g.routeSpi irq hint = .invalid := by
  by_cases hoff : g.affinityRouting = false
  · left
    refine ⟨fun h => Bool.false_ne_true (hoff.symm.trans h.1), ?_⟩
    obtain ⟨mask, hmask, hbits⟩ := g.routeSpiNoAffinity_spec irq
    have hroute : g.routeSpi irq hint = .cpuSet mask := by
      rw [routeSpi, hoff]
      exact hmask
    rw [hroute]
    refine ⟨?_, ?_, fun hon => absurd (hoff.symm.trans hon) Bool.false_ne_true⟩
    · -- The bits of a mask are below 8, and the target that is not valid has more.
      refine bne_iff_ne.2 fun heq => ?_
      have hbit : mask.testBit 30 = true := by
        rw [IrqTarget.cpuSet.inj heq]
        decide
      exact absurd ((hbits 30).1 hbit).2.1 (by decide)
    · rw [Designated, if_pos hoff]
      ext v
      simp only [names, IrqTarget.isCpuTargeted, Bool.and_eq_true, decide_eq_true_iff, hbits,
        Set.mem_ofPred_eq]
      constructor
      · rintro ⟨-, -, h⟩
        exact h
      · intro h
        exact ⟨h.1.1, h.2.1, h⟩
  have hon : g.affinityRouting = true := Bool.not_eq_false _ ▸ hoff
  by_cases hany : irq.routingAny = true
  · left
    refine ⟨fun h => Bool.false_ne_true (h.2.1.symm.trans hany), ?_⟩
    obtain ⟨v, hv, hroute⟩ : ∃ v < g.numVcpus, g.routeSpi irq hint = .ofCpuId v := by
      rw [routeSpi, hon, hany, Bool.not_true, if_neg Bool.false_ne_true, if_pos rfl]
      dsimp only
      split
      · exact ⟨_, Nat.mod_lt _ hpos, rfl⟩
      · exact ⟨_, Nat.mod_lt _ hpos, rfl⟩
    rw [hroute, names_ofCpuId hnum hv, Designated, if_neg hoff, if_pos hany]
    exact ⟨rfl, ⟨v, hv, rfl⟩, fun _ => ⟨v, rfl⟩⟩
  -- The SPI goes to the vCPU that has its affinity.
  have hnone (h : ∀ v, g.named irq = some v → ¬g.Exists v) : g.NowhereToGo irq :=
    ⟨hon, Bool.eq_false_iff.2 hany, h⟩
  have hroute : g.routeSpi irq hint = (g.named irq).elim .invalid fun v =>
      if g.numVcpus ≤ v then .invalid else if (g.bank v).notify then .ofCpuId v else .invalid := by
    rw [routeSpi, hon, Bool.not_true, if_neg Bool.false_ne_true, if_neg hany, named]
    dsimp only
    cases g.clusters (irq.routingAffinity &&& ~~~0xff) with
    | none => rfl
    | some vcpuId =>
        dsimp only [Option.bind_some]
        cases vcpuId (irq.routingAffinity &&& 0xff).toNat with
        | none => rfl
        | some v => rfl
  cases hnamed : g.named irq with
  | none =>
      right
      rw [hroute, hnamed]
      refine ⟨hnone fun v hv => ?_, rfl⟩
      rw [hnamed] at hv
      cases hv
  | some v =>
      rw [hroute, hnamed, Option.elim_some]
      by_cases hex : g.Exists v
      · left
        rw [if_neg (Nat.not_le.2 hex.1), if_pos hex.2, names_ofCpuId hnum hex.1, Designated,
          if_neg hoff, if_neg hany, hnamed]
        refine ⟨fun h => h.2.2 v hnamed hex, rfl, ?_, fun _ => ⟨v, rfl⟩⟩
        ext x
        simp only [Set.mem_singleton_iff, Set.mem_ofPred_eq, Option.some_inj]
        constructor
        · rintro rfl
          exact ⟨hex, rfl⟩
        · rintro ⟨-, rfl⟩
          rfl
      · right
        refine ⟨hnone fun x hx => ?_, ?_⟩
        · rw [hnamed] at hx
          cases hx
          exact hex
        · split_ifs with hle hnotify
          · rfl
          · exact absurd ⟨Nat.not_le.1 hle, hnotify⟩ hex
          · rfl

/-! ## One SPI is stored to and routed again -/

/-- What `change_target` and `write_irouter` do with an SPI. -/
def storeAndReroute (g : GicD) (cpu id : ℕ) (f : Irq → Irq) : GicD :=
  let g := g.modifyIrq cpu id f
  if (g.irqObject cpu id).pending then
    (g.bumpHint.redirectSpi id g.bumpHint.vcpuGlobalHint.toNat).2
  else g

theorem changeTarget_eq (acc : IrqMmioAccess) (value : UInt64) :
    g.changeTarget cpu acc value = (acc.isValid, acc.irqs.foldl (fun g p =>
      g.storeAndReroute cpu p.2 ({ · with target := acc.field value p.1 })) g) := rfl

/-- What is looked at when an SPI is routed and delivered is the same. -/
structure SameSpi (id : ℕ) (g g' : GicD) : Prop where
  ctlr : g'.ctlr = g.ctlr
  numVcpus : g'.numVcpus = g.numVcpus
  notify : ∀ c, (g'.bank c).notify = (g.bank c).notify
  irqObject : ∀ c, g'.irqObject c id = g.irqObject c id
  pendingIrqs : ∀ c, (g'.bank c).pendingIrqs id = (g.bank c).pendingIrqs id

theorem SameSpi.refl (id : ℕ) (g : GicD) : SameSpi id g g :=
  ⟨rfl, rfl, fun _ => rfl, fun _ => rfl, fun _ => rfl⟩

theorem SameSpi.trans {g'' : GicD} (h : SameSpi id g g') (h' : SameSpi id g' g'') :
    SameSpi id g g'' where
  ctlr := h'.ctlr.trans h.ctlr
  numVcpus := h'.numVcpus.trans h.numVcpus
  notify c := (h'.notify c).trans (h.notify c)
  irqObject c := (h'.irqObject c).trans (h.irqObject c)
  pendingIrqs c := (h'.pendingIrqs c).trans (h.pendingIrqs c)

theorem notify_notifyTarget (g : GicD) (id : ℕ) (target : IrqTarget) (c : ℕ) :
    ((g.notifyTarget id target).2.bank c).notify = (g.bank c).notify := by
  refine List.foldlRecOn (motive := fun g' : GicD => (g'.bank c).notify = (g.bank c).notify)
    (g.notified target) _ rfl fun g' h cpu _ => Eq.trans ?_ h
  have hset := g'.setPendingIrq_field cpu id Banked.notify (fun _ _ => rfl) c
  rw [notifyCpu]
  split_ifs
  · exact ((g'.setPendingIrq cpu id).modifyBank_field cpu
      (fun b => { b with irqSig := b.irqSig.sig }) Banked.notify (fun _ => rfl) c).trans hset
  · exact hset

theorem lt_of_mem_notified_set {mask v : ℕ} (hv : v ∈ g.notified (.cpuSet mask)) :
    v < gicv2MaxCpus := by
  rw [notified.eq_def] at hv
  split_ifs at hv
  · exact absurd hv List.not_mem_nil
  · exact (List.mem_range.1 (List.mem_filter.1 hv).1).trans_le (Nat.min_le_right ..)

theorem notified_congr (h : g'.numVcpus = g.numVcpus) (target : IrqTarget) :
    g'.notified target = g.notified target := by
  simp only [notified.eq_def, h]

theorem modifyIrq_spi (hid : spiBase ≤ id) : g.modifyIrq cpu id f =
    { g with irq := Function.update g.irq id (f (g.irq id)) } := if_neg (Nat.not_lt.2 hid)

theorem irqObject_spi (hid : spiBase ≤ id) (c : ℕ) : g.irqObject c id = g.irq id :=
  if_neg (Nat.not_lt.2 hid)

/-- Re-routing an SPI makes no difference to the others. -/
theorem sameSpi_redirectSpi {x : ℕ} (hx : x ≠ id) (hint : ℕ) :
    SameSpi x g (g.redirectSpi id hint).2 := by
  rw [redirectSpi]
  split
  · exact .refl x g
  · rename_i info _
    generalize g.routeSpi (g.irqObject 0 id) hint = target
    have hann := announced_notifyTarget (g.setInfo 0 id info) id target
    exact {
      ctlr := hann.ctlr.trans (g.setInfo_ctlr ..)
      numVcpus := hann.numVcpus.trans (g.setInfo_numVcpus ..)
      notify := fun c => (notify_notifyTarget ..).trans
        (g.setInfo_field 0 id info Banked.notify (fun _ _ => rfl) c)
      irqObject := fun c => by
        rw [hann.irqObject, setInfo_irqObject, if_neg fun h => hx h.1]
      pendingIrqs := fun c => by
        rw [notifyTarget_pendingIrqs, if_neg fun h => hx h.2,
          g.setInfo_field 0 id info Banked.pendingIrqs (fun _ _ => rfl) c] }

theorem sameSpi_storeAndReroute {x : ℕ} (hx : x ≠ id) :
    SameSpi x g (g.storeAndReroute cpu id f) := by
  have hstore : SameSpi x g (g.modifyIrq cpu id f) :=
    { ctlr := g.modifyIrq_ctlr ..
      numVcpus := g.modifyIrq_numVcpus ..
      notify := g.modifyIrq_field cpu id f Banked.notify fun _ _ => rfl
      irqObject := fun c => by rw [modifyIrq_irqObject, if_neg fun h => hx h.1]
      pendingIrqs := fun c => congrFun
        (g.modifyIrq_field cpu id f Banked.pendingIrqs (fun _ _ => rfl) c) x }
  rw [storeAndReroute]
  split_ifs
  · have hbump : SameSpi x (g.modifyIrq cpu id f) (g.modifyIrq cpu id f).bumpHint :=
      ⟨rfl, rfl, fun _ => rfl, fun _ => rfl, fun _ => rfl⟩
    exact hstore.trans (hbump.trans (sameSpi_redirectSpi hx _))
  · exact hstore

/-- **What becomes of the SPI**: it is stored to, and if its info says that it is pending and not
injected, its target is replaced and announced. -/
theorem storeAndReroute_spec (hid : spiBase ≤ id)
    (hstore : (f (g.irqObject cpu id)).pending = (g.irqObject cpu id).pending ∧
      (f (g.irqObject cpu id)).injectionInfo = (g.irqObject cpu id).injectionInfo)
    (hpending : (g.irqObject cpu id).pending = true)
    (hinjected : (g.irqObject cpu id).injectionInfo.isInjected 0 = false) :
    if (g.irqObject cpu id).injectionInfo.pending = true then
      ∃ hint, (∀ c, (g.storeAndReroute cpu id f).irqObject c id =
          { f (g.irqObject cpu id) with
            injectionInfo := .asserted (g.routeSpi (f (g.irqObject cpu id)) hint) }) ∧
        ∀ c, ((g.storeAndReroute cpu id f).bank c).pendingIrqs id =
          (decide (c ∈ g.notified (g.routeSpi (f (g.irqObject cpu id)) hint)) ||
            (g.bank c).pendingIrqs id)
    else g.storeAndReroute cpu id f = (g.modifyIrq cpu id f).bumpHint := by
  rw [irqObject_spi hid] at hstore hpending hinjected ⊢
  have hself : (g.modifyIrq cpu id f).irqObject cpu id = f (g.irq id) := by
    rw [modifyIrq_spi hid, irqObject_spi hid]
    exact Function.update_self ..
  have hreroute : g.storeAndReroute cpu id f =
      ((g.modifyIrq cpu id f).bumpHint.redirectSpi id
        (g.modifyIrq cpu id f).bumpHint.vcpuGlobalHint.toNat).2 := by
    rw [storeAndReroute]
    exact if_pos (by rw [hself, hstore.1, hpending])
  have hnum : (g.modifyIrq cpu id f).bumpHint.numVcpus = g.numVcpus := g.modifyIrq_numVcpus cpu id f
  have hbits (c : ℕ) : ((g.modifyIrq cpu id f).bumpHint.bank c).pendingIrqs =
      (g.bank c).pendingIrqs := g.modifyIrq_field cpu id f Banked.pendingIrqs (fun _ _ => rfl) c
  have hirq (c : ℕ) : (g.modifyIrq cpu id f).bumpHint.irqObject c id = f (g.irq id) := by
    rw [irqObject_spi hid, ← hself, irqObject_spi hid]
    rfl
  have hroute (hint : ℕ) : (g.modifyIrq cpu id f).bumpHint.routeSpi (f (g.irq id)) hint =
      g.routeSpi (f (g.irq id)) hint := by
    rw [modifyIrq_spi hid]
    rfl
  rw [hreroute]
  generalize (g.modifyIrq cpu id f).bumpHint = g' at hnum hbits hirq hroute ⊢
  generalize g'.vcpuGlobalHint.toNat = hint
  rw [redirectSpi, hirq, hroute, IrqInjectionInfo.redirected, hstore.2, hinjected, Bool.or_false]
  by_cases hp : (g.irq id).injectionInfo.pending = true
  · rw [if_pos hp, hp, Bool.not_true, if_neg Bool.false_ne_true]
    refine ⟨hint, fun c => ?_, fun c => ?_⟩
    · rw [(announced_notifyTarget ..).irqObject, setInfo_irqObject, if_pos ⟨rfl, .inl hid⟩, hirq]
    · rw [notifyTarget_pendingIrqs, notified_congr ((setInfo_numVcpus ..).trans hnum),
        g'.setInfo_field 0 id _ Banked.pendingIrqs (fun _ _ => rfl) c, hbits]
      by_cases hc : c ∈ g.notified (g.routeSpi (f (g.irq id)) hint) <;> simp [hc]
  · rw [if_neg hp, Bool.eq_false_iff.2 hp, Bool.not_false, if_pos rfl]

/-! ## Where it is deliverable -/

theorem SameSpi.deliverable (h : SameSpi id g g') : g'.deliverable id = g.deliverable id := by
  simp only [GicD.deliverable, h.numVcpus, h.irqObject, h.pendingIrqs]

theorem SameSpi.setsAsked (h : SameSpi id g g') : g'.SetsAsked id ↔ g.SetsAsked id := by
  simp only [GicD.SetsAsked, h.numVcpus, h.irqObject, h.pendingIrqs]

/-- **When an SPI that is pending has been routed again**, it is deliverable where it should be,
unless it has nowhere to go and is left where it was. -/
theorem storeAndReroute_iff (hnum : g.numVcpus < 2 ^ 16) (hpos : 0 < g.numVcpus)
    (hid : spiBase ≤ id)
    (hstore : (f (g.irqObject cpu id)).pending = (g.irqObject cpu id).pending ∧
      (f (g.irqObject cpu id)).injectionInfo = (g.irqObject cpu id).injectionInfo)
    (hpending : (g.irqObject cpu id).pending = true)
    (hinjected : (g.irqObject cpu id).injectionInfo.isInjected 0 = false) :
    g.Designated (f (g.irqObject cpu id)) ((g.storeAndReroute cpu id f).deliverable id) ∧
        (g.storeAndReroute cpu id f).SetsAsked id ↔
      if (g.irqObject cpu id).injectionInfo.pending = true then
        if g.affinityRouting = false then
          ∀ v < g.numVcpus, (g.bank v).pendingIrqs id = true → v < gicv2MaxCpus
        else
          (f (g.irqObject cpu id)).routingAny = true ∨
            (∃ v, g.Exists v ∧ g.named (f (g.irqObject cpu id)) = some v) ∨
            ∀ v < g.numVcpus, (g.bank v).pendingIrqs id = false
      else g.Designated (f (g.irqObject cpu id)) (g.deliverable id) ∧ g.SetsAsked id := by
  have hspec := storeAndReroute_spec hid hstore hpending hinjected
  have hnumVcpus : (g.storeAndReroute cpu id f).numVcpus = g.numVcpus :=
    (sameSpi_storeAndReroute (Nat.succ_ne_self id)).numVcpus
  generalize g.storeAndReroute cpu id f = g' at hspec hnumVcpus ⊢
  generalize hirq : f (g.irqObject cpu id) = irq at hspec hstore ⊢
  by_cases hp : (g.irqObject cpu id).injectionInfo.pending = true
  case neg =>
    rw [if_neg hp] at hspec ⊢
    subst hspec
    have hinfo (c : ℕ) : ((g.modifyIrq cpu id f).bumpHint.irqObject c id).injectionInfo =
        (g.irqObject c id).injectionInfo := by
      rw [irqObject_spi hid] at hstore hirq
      rw [irqObject_spi hid, irqObject_spi hid, modifyIrq_spi hid, ← hstore.2, ← hirq]
      exact congrArg Irq.injectionInfo (Function.update_self ..)
    have hbits (c : ℕ) : ((g.modifyIrq cpu id f).bumpHint.bank c).pendingIrqs =
        (g.bank c).pendingIrqs := g.modifyIrq_field cpu id f Banked.pendingIrqs (fun _ _ => rfl) c
    simp only [deliverable, SetsAsked, hnumVcpus, hinfo, hbits]
  case pos =>
    rw [if_pos hp] at hspec ⊢
    obtain ⟨hint, hobject, hbits⟩ := hspec
    have hdeliverable : g'.deliverable id = {v | v ∈ g.names (g.routeSpi irq hint) ∧
        (v ∈ g.notified (g.routeSpi irq hint) ∨ (g.bank v).pendingIrqs id = true)} := by
      ext v
      simp only [deliverable, names, hnumVcpus, hobject, hbits, Set.mem_ofPred_eq, Bool.or_eq_true,
        decide_eq_true_iff, and_assoc]
      rfl
    have hasked : g'.SetsAsked id ↔ ∀ v < g.numVcpus, v ∈ g.notified (g.routeSpi irq hint) ∨
        (g.bank v).pendingIrqs id = true → ∀ mask, g.routeSpi irq hint = .cpuSet mask →
          v < gicv2MaxCpus := by
      simp only [SetsAsked, hnumVcpus, hobject, hbits, Bool.or_eq_true, decide_eq_true_iff]
      rfl
    rw [hdeliverable, hasked]
    rcases routeSpi_spec hnum hpos irq hint with ⟨hsome, hvalid, hdesignated, hon⟩ | ⟨hnone, heq⟩
    · have hset : {v | v ∈ g.names (g.routeSpi irq hint) ∧
          (v ∈ g.notified (g.routeSpi irq hint) ∨ (g.bank v).pendingIrqs id = true)} =
            g.names (g.routeSpi irq hint) := by
        ext v
        exact and_iff_left_of_imp fun hv => .inl (mem_notified hv.1 hvalid hv.2)
      rw [hset, and_iff_right hdesignated]
      by_cases hoff : g.affinityRouting = false
      · rw [if_pos hoff]
        obtain ⟨mask, hmask, -⟩ := g.routeSpiNoAffinity_spec irq
        have hroute : g.routeSpi irq hint = .cpuSet mask := by
          rw [routeSpi, hoff]
          exact hmask
        rw [hroute]
        constructor
        · intro h v hv hbit
          exact h v hv (.inr hbit) mask rfl
        · rintro h v hv (hnotified | hbit) - -
          · exact lt_of_mem_notified_set hnotified
          · exact h v hv hbit
      · rw [if_neg hoff]
        have hon' : g.affinityRouting = true := Bool.not_eq_false _ ▸ hoff
        obtain ⟨v, hroute⟩ := hon hon'
        refine iff_of_true (fun _ _ _ mask heq => ?_) ?_
        · rw [hroute] at heq
          cases heq
        · by_contra hnot
          obtain ⟨hany, hnot⟩ := not_or.1 hnot
          refine hsome ⟨hon', Bool.eq_false_iff.2 hany, fun x hx hex => ?_⟩
          exact (not_or.1 hnot).1 ⟨x, hex, hx⟩
    · -- The target names every vCPU of a set, and none has been told.
      have hoff : ¬g.affinityRouting = false := by simp [hnone.1]
      have hany : ¬irq.routingAny = true := Bool.eq_false_iff.1 hnone.2.1
      have hexists : ¬∃ v, g.Exists v ∧ g.named irq = some v := by
        rintro ⟨v, hex, hv⟩
        exact hnone.2.2 v hv hex
      have hempty : {v | g.Exists v ∧ g.named irq = some v} = (∅ : Set ℕ) := by
        ext v
        exact iff_of_false (fun hv => hexists ⟨v, hv⟩) (Set.notMem_empty v)
      have hnotified (v : ℕ) : ¬v ∈ g.notified .invalid := by
        rw [notified.eq_def]
        exact List.not_mem_nil
      rw [heq, if_neg hoff, Designated, if_neg hoff, if_neg hany, hempty,
        Set.eq_empty_iff_forall_notMem, or_iff_right hany, or_iff_right hexists]
      constructor
      · rintro ⟨hdeliv, hask⟩ v hv
        rw [Bool.eq_false_iff]
        intro hbit
        have hlt : v < gicv2MaxCpus := hask v hv (.inr hbit) _ rfl
        exact hdeliv v ⟨⟨hv, isCpuTargeted_invalid hlt⟩, .inr hbit⟩
      · intro hbits
        refine ⟨fun v hv => ?_, fun v hv htold mask _ => ?_⟩
        · rcases hv.2 with htold | hbit
          · exact hnotified v htold
          · exact Bool.false_ne_true ((hbits v hv.1.1).symm.trans hbit)
        · rcases htold with htold | hbit
          · exact absurd htold (hnotified v)
          · exact absurd ((hbits v hv).symm.trans hbit) Bool.false_ne_true

/-! ## What the registers do -/

/-- A list of SPIs, each at one place: the others make no difference to the one at `p`. -/
theorem foldl_storeAndReroute {store : ℕ × ℕ → Irq → Irq} {l : List (ℕ × ℕ)} {p : ℕ × ℕ}
    (hp : p ∈ l) (hl : (l.map Prod.snd).Nodup) (g : GicD) :
    ∃ g₁, SameSpi p.2 g g₁ ∧ SameSpi p.2 (g₁.storeAndReroute cpu p.2 (store p))
      (l.foldl (fun g q => g.storeAndReroute cpu q.2 (store q)) g) := by
  have hframe (l : List (ℕ × ℕ)) (hnot : ∀ q ∈ l, p.2 ≠ q.2) (g : GicD) :
      SameSpi p.2 g (l.foldl (fun g q => g.storeAndReroute cpu q.2 (store q)) g) :=
    List.foldlRecOn (motive := fun g' => SameSpi p.2 g g') l _ (.refl _ g)
      fun _ h q hq => h.trans (sameSpi_storeAndReroute (hnot q hq))
  obtain ⟨before, after, rfl⟩ := List.append_of_mem hp
  rw [List.map_append, List.map_cons, List.nodup_append'] at hl
  obtain ⟨-, hafter, hdisjoint⟩ := hl
  rw [List.foldl_append, List.foldl_cons]
  refine ⟨_, hframe before (fun q hq heq => ?_) g, hframe after (fun q hq heq => ?_) _⟩
  · exact hdisjoint (List.mem_map_of_mem hq) (heq ▸ List.mem_cons_self)
  · exact (List.nodup_cons.1 hafter).1 (heq ▸ List.mem_map_of_mem hq)

/-- The access to ITARGETSR. -/
def targetAccess (g : GicD) (k : ℕ) (bytes : UInt8) : IrqMmioAccess :=
  { g.irqMmioAccess (0x820 + UInt64.ofNat k) bytes .all with
    baseAbs := 0x820, irqPerBytes := 1 }.configureAccess .spi

theorem begins_targetAccess {k : ℕ} {bytes : UInt8} (hconf : g.configuredIrqs ≤ maxIrqNoLpi)
    (hk : k < 0x3e0) (hbytes : bytes ≤ 4) :
    (g.targetAccess k bytes).Begins k ∧
      (g.targetAccess k bytes).irqMax.toNat = g.configuredIrqs := by
  have h1020 : maxIrqNoLpi = 1020 := rfl
  have hmax : (g.targetAccess k bytes).irqMax.toNat = g.configuredIrqs := by
    show (32 + UInt16.ofNat g.configuredIrqs - 16 - 16).toNat = g.configuredIrqs
    have hconf' : (UInt16.ofNat g.configuredIrqs).toNat = g.configuredIrqs :=
      UInt16.toNat_ofNat_of_lt' (Nat.lt_of_le_of_lt hconf (by decide))
    have hcancel (n : UInt16) : 32 + n - 16 - 16 = n := by grind
    rw [hcancel, hconf']
  refine ⟨{
    offset := ?_
    bytes := hbytes
    irqPerBytes := show (1 : UInt8) ≤ 8 by decide
    le := by omega
    irqBase := show (32 : UInt16) ≤ 32 by decide
    irqMax := by
      rw [UInt16.le_iff_toNat_le, hmax]
      exact hconf.trans (by decide) }, hmax⟩
  have hsum := toNat_window 0x820 (by decide) (show k < 1024 by omega)
  show (0x820 + UInt64.ofNat k - 0x820).toNat = k
  rw [UInt64.toNat_sub_of_le _ _ (UInt64.le_iff_toNat_le.2 (by omega)), hsum]
  omega

theorem targetAccess_field {k : ℕ} {bytes : UInt8} (value : UInt64) (i : ℕ) :
    (g.targetAccess k bytes).field value i = (value >>> UInt64.ofNat (8 * i)).toUInt8 := by
  have hbits : (g.targetAccess k bytes).bits = 8 := rfl
  rw [IrqMmioAccess.field, hbits, Nat.mul_comm]
  have hmask : (1 <<< UInt64.ofNat 8 - 1 : UInt64).toNat = 2 ^ 8 - 1 := rfl
  rw [← UInt8.toNat_inj, UInt64.toNat_toUInt8, UInt64.toNat_toUInt8, UInt64.toNat_and, hmask,
    Nat.and_two_pow_sub_one_eq_mod, Nat.mod_mod]

theorem mmioWrite32OrLess_target {acc : IrqMmioAccess} {value : UInt64}
    (h : within acc.offset 0x820 0xbff = true) : g.mmioWrite32OrLess cpu acc value =
      g.changeTarget cpu ({ acc with baseAbs := 0x820, irqPerBytes := 1 }.configureAccess .spi)
        value := by
  have hnot {first last : UInt64} (hdisjoint : 0xbff < first ∨ last < 0x820) :
      ¬within acc.offset first last = true :=
    Bool.not_eq_true _ ▸ within_of_disjoint h hdisjoint
  rw [mmioWrite32OrLess]
  dsimp only
  rw [if_neg (hnot (by decide)), if_neg (hnot (by decide)), if_neg (hnot (by decide)),
    if_neg (hnot (by decide)), if_neg (hnot (by decide)), if_neg (hnot (by decide)),
    if_neg (hnot (by decide)), if_neg (hnot (by decide)), if_neg (hnot (by decide)), if_pos h]

/-- **A write to IROUTER** stores to the SPI and routes it again. -/
theorem routeWrite_irouter {value : UInt64} (hto : (RouteWrite.irouter id value).To g id)
    (hconf : g.configuredIrqs ≤ maxIrqNoLpi) (hcpu : cpu < g.numVcpus) :
    g.routeWrite cpu (.irouter id value) =
      g.storeAndReroute cpu id ((RouteWrite.irouter id value).store id) := by
  obtain ⟨hid, hlt, hon, -⟩ := hto
  have h32 : spiBase = 32 := rfl
  have h1020 : maxIrqNoLpi = 1020 := rfl
  have hsize : UInt64.size = 18446744073709551616 := rfl
  have hword : (UInt64.ofNat (8 * (id - spiBase))).toNat = 8 * (id - spiBase) :=
    UInt64.toNat_ofNat_of_lt' (by omega)
  have hbase : (0x6100 : UInt64).toNat = 0x6100 := rfl
  have hoffset : (0x6100 + UInt64.ofNat (8 * (id - spiBase))).toNat =
      0x6100 + 8 * (id - spiBase) := by
    rw [UInt64.toNat_add, hword, hbase, Nat.mod_eq_of_lt (by omega)]
  have hin : within (0x6100 + UInt64.ofNat (8 * (id - spiBase))) 0x6100 0x7fdf = true := by
    rw [within, decide_eq_true_iff, UInt64.le_iff_toNat_le, UInt64.le_iff_toNat_le, hoffset]
    have hlast : (0x7fdf : UInt64).toNat = 0x7fdf := rfl
    omega
  have hsmall : ¬(0x10000 ≤ 0x6100 + UInt64.ofNat (8 * (id - spiBase)) ∨ (8 : UInt8) < 8 ∨
      g.numVcpus ≤ cpu) := by
    refine not_or.2 ⟨?_, not_or.2 ⟨by decide, Nat.not_le.2 hcpu⟩⟩
    rw [UInt64.le_iff_toNat_le, hoffset]
    have hend : (0x10000 : UInt64).toNat = 0x10000 := rfl
    omega
  have hirq : spiBase + ((0x6100 + UInt64.ofNat (8 * (id - spiBase)) - 0x6100) / 8).toNat = id := by
    have h8 : (8 : UInt64).toNat = 8 := rfl
    rw [UInt64.toNat_div, UInt64.toNat_sub_of_le _ _ (UInt64.le_iff_toNat_le.2 (by omega)), hoffset,
      h8, hbase]
    omega
  have haligned : (0x6100 + UInt64.ofNat (8 * (id - spiBase))) % 8 = 0 := by
    have h8 : (8 : UInt64).toNat = 8 := rfl
    rw [← UInt64.toNat_inj, UInt64.toNat_mod, hoffset, h8, UInt64.toNat_zero]
    omega
  rw [routeWrite]
  dsimp only [RouteWrite.offset, RouteWrite.bytes, RouteWrite.value]
  rw [mmioWrite, if_neg hsmall, if_pos hin, writeIrouter]
  dsimp only
  rw [hirq, haligned, hon]
  have hrange : ¬(id < spiBase ∨ g.configuredIrqs ≤ id) := by omega
  simp only [Bool.not_true, Bool.false_eq_true, if_false, bne_self_eq_false, Bool.or_self, hrange]
  rfl

/-- **A write to ITARGETSR** stores to the SPI and routes it again, and makes no difference to it
before and after. -/
theorem routeWrite_itargetsr {k : ℕ} {bytes : UInt8} {value : UInt64}
    (hto : (RouteWrite.itargetsr k bytes value).To g id) (hconf : g.configuredIrqs ≤ maxIrqNoLpi)
    (hcpu : cpu < g.numVcpus) :
    ∃ g₁, SameSpi id g g₁ ∧
      SameSpi id (g₁.storeAndReroute cpu id ((RouteWrite.itargetsr k bytes value).store id))
        (g.routeWrite cpu (.itargetsr k bytes value)) := by
  obtain ⟨hid, hlt, -, hbytes, hle, hbelow⟩ := hto
  have h32 : spiBase = 32 := rfl
  have h1020 : maxIrqNoLpi = 1020 := rfl
  have hk : k < 0x3e0 := by omega
  have hsum := toNat_window 0x820 (by decide) (show k < 1024 by omega)
  have hbase : (0x820 : UInt64).toNat = 0x820 := rfl
  have hin : within (0x820 + UInt64.ofNat k) 0x820 0xbff = true := by
    rw [within, decide_eq_true_iff, UInt64.le_iff_toNat_le, UInt64.le_iff_toNat_le, hsum]
    have hlast : (0xbff : UInt64).toNat = 0xbff := rfl
    omega
  have hpage : within (0x820 + UInt64.ofNat k) 0x0 0xfff = true := by
    rw [within, decide_eq_true_iff, UInt64.le_iff_toNat_le, UInt64.le_iff_toNat_le, hsum]
    have hlast : (0xfff : UInt64).toNat = 0xfff := rfl
    have hzero : (0 : UInt64).toNat = 0 := rfl
    omega
  have hwrite : g.routeWrite cpu (.itargetsr k bytes value) =
      (g.changeTarget cpu (g.targetAccess k bytes) value).2 := by
    rw [routeWrite]
    dsimp only [RouteWrite.offset, RouteWrite.bytes, RouteWrite.value]
    rw [mmioWrite_eq hcpu hbytes hpage, mmioWrite32OrLess_target hin]
    rfl
  obtain ⟨hbegins, hmax⟩ := @begins_targetAccess g k bytes hconf hk hbytes
  have hfirst : (g.targetAccess k bytes).first k = k + spiBase :=
    congrArg (· + spiBase) (Nat.mul_one k)
  have hroom : (g.targetAccess k bytes).room = bytes.toNat := Nat.mul_one _
  have hmem : (id - spiBase - k, id) ∈ (g.targetAccess k bytes).irqs := by
    rw [hbegins.mem_irqs_iff, hmax, hfirst, hroom]
    dsimp only
    omega
  have hnodup : ((g.targetAccess k bytes).irqs.map Prod.snd).Nodup := by
    rw [hbegins.irqs, List.map_map]
    refine List.Nodup.map (fun i j h => ?_) List.nodup_range
    dsimp only [Function.comp] at h
    omega
  obtain ⟨g₁, hbefore, hafter⟩ := @foldl_storeAndReroute cpu
    (fun p irq => { irq with target := (g.targetAccess k bytes).field value p.1 }) _ _ hmem hnodup g
  refine ⟨g₁, hbefore, ?_⟩
  rw [hwrite, changeTarget_eq]
  rw [targetAccess_field] at hafter
  exact hafter

/-! ## Re-routing -/

theorem store_spec (w : RouteWrite) (irq : Irq) :
    (w.store id irq).pending = irq.pending ∧
      (w.store id irq).injectionInfo = irq.injectionInfo := by
  cases w with
  | irouter => exact ⟨rfl, rfl⟩
  | itargetsr => exact ⟨rfl, rfl⟩

theorem SameSpi.affinityRouting (h : SameSpi id g g') : g'.affinityRouting = g.affinityRouting := by
  rw [GicD.affinityRouting, GicD.affinityRouting, h.ctlr]

theorem SameSpi.designated (h : SameSpi id g g') (hoff : g.affinityRouting = false) {vs : Set ℕ} :
    g'.Designated irq vs ↔ g.Designated irq vs := by
  rw [Designated, Designated, if_pos hoff, if_pos (h.affinityRouting.trans hoff)]
  simp only [Exists, h.numVcpus, h.notify]

/-- **An SPI that is pending and not injected is deliverable on exactly the vCPUs that its new
routing designates**, unless it is left on a vCPU that is not in a set, or has nowhere to go and is
left where it was; or is not routed again, and is not where it should be. -/
theorem rerouted_iff {w : RouteWrite} (hto : w.To g id) (hconf : g.configuredIrqs ≤ maxIrqNoLpi)
    (hnum : g.numVcpus < 2 ^ 16) (hcpu : cpu < g.numVcpus)
    (hpending : (g.irqObject cpu id).pending = true)
    (hinjected : (g.irqObject cpu id).injectionInfo.isInjected 0 = false) :
    g.Rerouted cpu w id ↔ g.RouteSpared cpu w id := by
  have hsplit : g.Rerouted cpu w id ↔
      g.Designated (w.store id (g.irqObject cpu id)) ((g.routeWrite cpu w).deliverable id) ∧
        (g.routeWrite cpu w).SetsAsked id := ⟨fun h => ⟨h.exact, h.asked⟩, fun h => ⟨h.1, h.2⟩⟩
  rw [hsplit, RouteSpared]
  cases w with
  | irouter id' value =>
      obtain rfl : id' = id := hto.2.2.2
      rw [routeWrite_irouter hto hconf hcpu]
      exact storeAndReroute_iff hnum (Nat.zero_lt_of_lt hcpu) hto.1 (store_spec _ _) hpending
        hinjected
  | itargetsr k bytes value =>
      have hoff : g.affinityRouting = false := hto.2.2.1
      obtain ⟨g₁, hbefore, hafter⟩ := routeWrite_itargetsr hto hconf hcpu
      have hnum₁ : g₁.numVcpus < 2 ^ 16 := hbefore.numVcpus ▸ hnum
      have hpos₁ : 0 < g₁.numVcpus := hbefore.numVcpus ▸ Nat.zero_lt_of_lt hcpu
      rw [← hbefore.irqObject cpu] at hpending hinjected
      have hstep := storeAndReroute_iff hnum₁ hpos₁ hto.1
        (@store_spec id (.itargetsr k bytes value) (g₁.irqObject cpu id)) hpending hinjected
      simp only [hbefore.irqObject, hbefore.affinityRouting, hoff, if_true, hbefore.numVcpus,
        hbefore.pendingIrqs, hbefore.deliverable, hbefore.setsAsked,
        hbefore.designated hoff] at hstep
      rw [hafter.deliverable, hafter.setsAsked, hstep]
      simp only [hoff, if_true]

/-- A vCPU with affinity routing, for which SPI 32 is pending: any vCPU would do for it. -/
def anyPending : GicD :=
  let g := ((init .gicV3 1 64).mmioWrite 0 0x0 4 16).2
  ((g.mmioWrite 0 0x6100 8 0x80000000).2.assertGlobalLine 32).2

/-- **An SPI that has nowhere to go is delivered where it was**: no vCPU has the affinity that is
written, and SPI 32 stays deliverable on vCPU 0. -/
theorem empty_target_delivers : ¬anyPending.Rerouted 0 (.irouter 32 1) 32 ∧
    0 ∈ (anyPending.routeWrite 0 (.irouter 32 1)).deliverable 32 := by
  have hleft : 0 ∈ (anyPending.routeWrite 0 (.irouter 32 1)).deliverable 32 := by
    refine ⟨?_, ?_, ?_⟩
    · decide +kernel
    · decide +kernel
    · decide +kernel
  refine ⟨fun hrerouted => ?_, hleft⟩
  have hexact := hrerouted.exact
  rw [Designated, if_neg (by decide +kernel), if_neg (by decide +kernel)] at hexact
  rw [hexact] at hleft
  exact absurd hleft.2 (by decide +kernel)

/-- Four vCPUs, and SPI 33 is pending for vCPU 0. -/
def fourPending : GicD :=
  let g := ((init .gicV2 4 64).mmioWrite 0 0x0 4 1).2
  let g := (g.mmioWrite 0 0x104 4 2).2
  ((g.mmioWrite 0 0x821 1 1).2.assertGlobalLine 33).2

/-- It is routed to vCPUs 1 and 3 instead, with three others that are not pending. -/
theorem spi_rerouted : 0 ∈ fourPending.deliverable 33 ∧
    fourPending.Rerouted 0 (.itargetsr 0 4 0x01020a04) 33 ∧
    0 ∉ (fourPending.routeWrite 0 (.itargetsr 0 4 0x01020a04)).deliverable 33 ∧
    3 ∈ (fourPending.routeWrite 0 (.itargetsr 0 4 0x01020a04)).deliverable 33 := by
  have hto : (RouteWrite.itargetsr 0 4 0x01020a04).To fourPending 33 :=
    ⟨by decide, by decide +kernel, by decide +kernel, by decide, by decide, by decide⟩
  refine ⟨⟨by decide +kernel, by decide +kernel, by decide +kernel⟩,
    (rerouted_iff hto (by decide +kernel) (by decide +kernel) (by decide +kernel)
      (by decide +kernel) (by decide +kernel)).2 ?_,
    fun h => absurd h.2 (by decide +kernel), by decide +kernel, by decide +kernel,
    by decide +kernel⟩
  rw [RouteSpared, if_pos (by decide +kernel), if_pos (by decide +kernel)]
  decide +kernel

end GicD

end Vml
