import Vml.GicReroute
import Vml.Lib.Run

/-!
# Sleeping redistributors

With affinity routing a vCPU goes to sleep by setting ProcessorSleep in its GICR_WAKER, and the SPIs
that any vCPU may have (1-of-N) are routed to one that is awake (`WakerSys`).

**The bits of the register.** `SLEEP_BIT` and `CHILDREN_ASLEEP_BIT` are masks, and the write
shifts by them. What it stores for a vCPU that goes to sleep is ChildrenAsleep alone
(`GicD.writeRegister_waker`): `Waker::sleeping` looks at ProcessorSleep, so the vCPU counts as
awake, and SPIs are routed to it as before.

Main results: `WakerSys.sleep_respected_iff`, `WakerSys.sleeper_not_asleep`.
-/

namespace Vml

/-- The distributor, and which vCPUs have last written ProcessorSleep. -/
structure WakerSys where
  g : GicD
  asleep : ℕ → Bool

/-- A write to the byte `k` of GICR_WAKER, or the assertion of an SPI. -/
inductive WakerOp
  | writeWaker (cpu : ℕ) (k : Fin 4) (bytes : UInt8) (value : UInt64)
  | assertSpi (id : ℕ)

namespace WakerOp

/-- The offset of a byte of GICR_WAKER. -/
def offset (k : Fin 4) : UInt64 := 0x14 + UInt64.ofNat k

/-- The operation writes ProcessorSleep: it is a write to the first byte, and not too wide. -/
def Writes (k : Fin 4) (bytes : UInt8) : Prop := k = 0 ∧ 1 ≤ bytes ∧ bytes ≤ 4

instance (k : Fin 4) (bytes : UInt8) : Decidable (Writes k bytes) :=
  inferInstanceAs (Decidable (_ ∧ _))

/-- The operation sets ProcessorSleep. -/
def Sleeps : WakerOp → Prop
  | writeWaker _ k bytes value => Writes k bytes ∧ GicR.sleeping value.toUInt32 = true
  | assertSpi _ => False

end WakerOp

namespace GicD

variable {g g' : GicD} {cpu : ℕ}

/-! ## What the routing of SPIs asks for -/

/-- Affinity routing, the vCPUs and their redistributors are the same. -/
structure SameSleepers (g g' : GicD) : Prop where
  ctlr : g'.ctlr = g.ctlr
  numVcpus : g'.numVcpus = g.numVcpus
  gicR : ∀ c, (g'.bank c).gicR = (g.bank c).gicR

theorem SameSleepers.refl (g : GicD) : SameSleepers g g := ⟨rfl, rfl, fun _ => rfl⟩

theorem SameSleepers.trans {g'' : GicD} (h : SameSleepers g g') (h' : SameSleepers g' g'') :
    SameSleepers g g'' :=
  ⟨h'.ctlr.trans h.ctlr, h'.numVcpus.trans h.numVcpus, fun c => (h'.gicR c).trans (h.gicR c)⟩

theorem sameSleepers_modifyIrq (g : GicD) (cpu id : ℕ) (f : Irq → Irq) :
    SameSleepers g (g.modifyIrq cpu id f) :=
  ⟨g.modifyIrq_ctlr .., g.modifyIrq_numVcpus ..,
    g.modifyIrq_field cpu id f Banked.gicR fun _ _ => rfl⟩

theorem sameSleepers_notifyTarget (g : GicD) (id : ℕ) (target : IrqTarget) :
    SameSleepers g (g.notifyTarget id target).2 :=
  have h := announced_notifyTarget g id target
  ⟨h.ctlr, h.numVcpus, h.gicR⟩

theorem sameSleepers_redirectSpi (g : GicD) (id hint : ℕ) :
    SameSleepers g (g.redirectSpi id hint).2 := by
  rw [redirectSpi]
  split
  · exact .refl g
  · exact (sameSleepers_modifyIrq ..).trans (sameSleepers_notifyTarget ..)

theorem sameSleepers_highestIrq (g : GicD) (cpu : ℕ) (redirect : Bool) :
    SameSleepers g (g.highestIrq cpu redirect).2 :=
  highestIrqLoop_keeps (P := SameSleepers g)
    (fun h id hint _ => h.trans (sameSleepers_redirectSpi _ id hint)) cpu redirect _ (.refl g) 0
    none

theorem sameSleepers_assertGlobalLine (g : GicD) (id : ℕ) :
    SameSleepers g (g.assertGlobalLine id).2 := by
  have hassert (g : GicD) : SameSleepers g (g.assertPi 0 0 id).2 := by
    have hbump : SameSleepers g (if spiBase ≤ id then g.bumpHint else g) := by
      split_ifs
      · exact ⟨rfl, rfl, fun _ => rfl⟩
      · exact .refl g
    rw [assertPi]
    exact hbump.trans ((sameSleepers_modifyIrq ..).trans (sameSleepers_notifyTarget ..))
  rw [assertGlobalLine]
  split_ifs
  · exact .refl g
  · exact .refl g
  · exact (sameSleepers_modifyIrq ..).trans (hassert _)

/-! ## What a write stores -/

/-- What the register becomes: ProcessorSleep is never stored. -/
theorem writeRegister_waker (k : Fin 4) (bytes : UInt8) (sleep : Bool) {waker : UInt32}
    (hwaker : waker = 6 ∨ waker = 0) :
    (writeRegister (WakerOp.offset k) 0x14 0x17 bytes
      (sleep.toUInt64 <<< 4 ||| sleep.toUInt64 <<< 2) waker (~~~(2 ||| 4)) 0).getD waker =
        if WakerOp.Writes k bytes then (if sleep then 4 else 0) else waker := by
  by_cases hbytes : bytes = 0 ∨ 4 < bytes
  · have hnot : ¬WakerOp.Writes k bytes := by
      rintro ⟨-, hpos, hle⟩
      rcases hbytes with rfl | hlt
      · exact absurd hpos (by decide)
      · exact UInt8.not_lt.2 hle hlt
    rw [if_neg hnot, writeRegister, if_pos (or_assoc.1 (.inl hbytes))]
    rfl
  · have hfew : bytes = 1 ∨ bytes = 2 ∨ bytes = 3 ∨ bytes = 4 := by
      obtain ⟨hne, hle⟩ := not_or.1 hbytes
      rw [UInt8.not_lt, UInt8.le_iff_toNat_le] at hle
      simp only [← UInt8.toNat_inj] at hne ⊢
      have h4 : (4 : UInt8).toNat = 4 := rfl
      have h3 : (3 : UInt8).toNat = 3 := rfl
      have h2 : (2 : UInt8).toNat = 2 := rfl
      have h1 : (1 : UInt8).toNat = 1 := rfl
      rw [UInt8.toNat_zero] at hne
      omega
    revert k sleep
    rcases hwaker with rfl | rfl <;> rcases hfew with rfl | rfl | rfl | rfl <;> decide

theorem waker_modifyGicR (v : UInt32) (c : ℕ) :
    ((g.modifyGicR cpu ({ · with waker := v })).bank c).gicR.waker =
      if c = cpu then v else (g.bank c).gicR.waker := by
  rw [modifyGicR, modifyBank_bank]
  split_ifs
  · rfl
  · rfl

/-- **What a write to GICR_WAKER does**: no redistributor changes but that of the vCPU. -/
theorem waker_writeWaker (k : Fin 4) (bytes : UInt8) (value : UInt64)
    (hwaker : (g.bank cpu).gicR.waker = 6 ∨ (g.bank cpu).gicR.waker = 0) :
    (g.writeWaker cpu (WakerOp.offset k) bytes value).2.ctlr = g.ctlr ∧
      (g.writeWaker cpu (WakerOp.offset k) bytes value).2.numVcpus = g.numVcpus ∧
      ∀ c, ((g.writeWaker cpu (WakerOp.offset k) bytes value).2.bank c).gicR.waker =
        if c = cpu ∧ WakerOp.Writes k bytes then (if GicR.sleeping value.toUInt32 then 4 else 0)
        else (g.bank c).gicR.waker := by
  have hstored := writeRegister_waker k bytes (GicR.sleeping value.toUInt32) hwaker
  -- The scan that follows changes no redistributor.
  have hscan (r : Bool × GicD) :
      SameSleepers r.2 (if GicR.sleeping value.toUInt32 then (r.1, (r.2.highestIrq cpu true).2)
        else r).2 := by
    split_ifs
    · exact sameSleepers_highestIrq r.2 cpu true
    · exact .refl r.2
  rw [writeWaker]
  generalize writeRegister (WakerOp.offset k) 0x14 0x17 bytes _ (g.bank cpu).gicR.waker _ 0 =
    stored at hstored ⊢
  have hfinal (r : Bool × GicD) (hctlr : r.2.ctlr = g.ctlr) (hnum : r.2.numVcpus = g.numVcpus)
      (hr : ∀ c, (r.2.bank c).gicR.waker =
        if c = cpu then stored.getD (g.bank cpu).gicR.waker else (g.bank c).gicR.waker) :
      (if GicR.sleeping value.toUInt32 then (r.1, (r.2.highestIrq cpu true).2) else r).2.ctlr =
          g.ctlr ∧
        (if GicR.sleeping value.toUInt32 then (r.1, (r.2.highestIrq cpu true).2)
            else r).2.numVcpus = g.numVcpus ∧
        ∀ c, ((if GicR.sleeping value.toUInt32 then (r.1, (r.2.highestIrq cpu true).2)
            else r).2.bank c).gicR.waker =
          if c = cpu ∧ WakerOp.Writes k bytes then (if GicR.sleeping value.toUInt32 then 4 else 0)
          else (g.bank c).gicR.waker := by
    have hsame := hscan r
    refine ⟨hsame.ctlr.trans hctlr, hsame.numVcpus.trans hnum, fun c => ?_⟩
    rw [hsame.gicR, hr]
    by_cases hc : c = cpu
    · subst hc
      simp only [if_true, true_and]
      exact hstored
    · rw [if_neg hc, if_neg fun h => hc h.1]
  cases stored with
  | none =>
      refine hfinal (false, g) rfl rfl fun c => ?_
      split_ifs with hc
      · rw [hc]
        rfl
      · rfl
  | some v =>
      exact hfinal (true, g.modifyGicR cpu ({ · with waker := v })) rfl rfl (waker_modifyGicR v)

/-- A write to GICR_WAKER is one to the redistributor. -/
theorem gicRMmioWrite_waker (k : Fin 4) (bytes : UInt8) (value : UInt64) :
    g.gicRMmioWrite cpu (WakerOp.offset k) bytes value =
      g.writeWaker cpu (WakerOp.offset k) bytes value := by
  have hin : within (WakerOp.offset k) 0x14 0x17 = true := by
    revert k
    decide
  have hnot {first last : UInt64} (hdisjoint : 0x17 < first ∨ last < 0x14) :
      ¬within (WakerOp.offset k) first last = true :=
    Bool.not_eq_true _ ▸ within_of_disjoint hin hdisjoint
  have hsmall : ¬0x20000 ≤ WakerOp.offset k := UInt64.not_le.2 (lt_of_within hin (by decide))
  rw [gicRMmioWrite]
  dsimp only
  rw [if_neg hsmall, if_neg (hnot (by decide)), if_neg (hnot (by decide)),
    if_neg (hnot (by decide)), if_pos hin]

/-! ## Where an SPI goes that any vCPU may have -/

/-- **A vCPU that is asleep is chosen when all are.** -/
theorem routeSpi_any (hnum : g.numVcpus < 2 ^ 16) (hon : g.affinityRouting = true) {irq : Irq}
    (hany : irq.routingAny = true) {hint v : ℕ} (hv : v < g.numVcpus)
    (hroute : g.routeSpi irq hint = .ofCpuId v) (hasleep : (g.bank v).gicR.canReceiveIrq = false)
    {w : ℕ} (hw : w < g.numVcpus) : (g.bank w).gicR.canReceiveIrq = false := by
  have hpos : 0 < g.numVcpus := Nat.zero_lt_of_lt hv
  rw [routeSpi, hon, hany, Bool.not_true, if_neg Bool.false_ne_true, if_pos rfl] at hroute
  dsimp only at hroute
  split at hroute
  · rename_i k hfind
    have hreceives := List.find?_some hfind
    have hlt := Nat.mod_lt (hint % g.numVcpus + k) hpos
    generalize (hint % g.numVcpus + k) % g.numVcpus = x at hroute hreceives hlt
    simp only [IrqTarget.ofCpuId, IrqTarget.cpuId.injEq] at hroute
    rw [Nat.mod_eq_of_lt (by omega), Nat.mod_eq_of_lt (by omega)] at hroute
    rw [hroute, hasleep] at hreceives
    cases hreceives
  · rename_i hnone
    rw [List.find?_eq_none] at hnone
    have hstart := Nat.mod_lt hint hpos
    -- The walk comes by every vCPU.
    have hreach : (hint % g.numVcpus + (w + g.numVcpus - hint % g.numVcpus) % g.numVcpus) %
        g.numVcpus = w := by
      rw [Nat.add_mod_mod]
      have hsum : hint % g.numVcpus + (w + g.numVcpus - hint % g.numVcpus) = w + g.numVcpus := by
        omega
      rw [hsum, Nat.add_mod_right, Nat.mod_eq_of_lt hw]
    have hx := hnone ((w + g.numVcpus - hint % g.numVcpus) % g.numVcpus)
      (List.mem_range.2 (Nat.mod_lt _ hpos))
    rw [hreach] at hx
    exact Bool.eq_false_iff.2 hx

end GicD

namespace WakerSys

open WakerOp

variable {s : WakerSys} {op : WakerOp}

/-- One step. -/
def next (s : WakerSys) : WakerOp → WakerSys
  | writeWaker cpu k bytes value =>
      { g := (s.g.gicRMmioWrite cpu (offset k) bytes value).2
        asleep :=
          if Writes k bytes then Function.update s.asleep cpu (GicR.sleeping value.toUInt32)
          else s.asleep }
  | assertSpi id => { s with g := (s.g.assertGlobalLine id).2 }

/-- The SPI is parked on the vCPU: any vCPU may have it, and this one is its target. It is pending
there, and not injected. -/
def Parked (g : GicD) (cpu id : ℕ) : Prop :=
  spiBase ≤ id ∧ id < g.configuredIrqs ∧ (g.irqObject 0 id).routingAny = true ∧
    (g.irqObject 0 id).injectionInfo.target = .ofCpuId cpu ∧
    (g.irqObject 0 id).injectionInfo.pending = true ∧
    (g.irqObject 0 id).injectionInfo.isInjected 0 = false ∧ (g.bank cpu).pendingIrqs id = true

/-- **A step respects sleep**: after it GICR_WAKER shows ProcessorSleep as it was last written, and
ChildrenAsleep like it; a vCPU that sleeps is chosen for no SPI that any vCPU may have, unless all
sleep; and if a vCPU goes to sleep by it, the SPIs that were parked there are parked on one that is
awake, if any is. -/
structure Respects (s : WakerSys) (op : WakerOp) : Prop where
  readback : ∀ cpu aff last, (s.next op).g.gicRMmioRead cpu aff last 0x14 4 =
    .shows (if (s.next op).asleep cpu then 6 else 0)
  awakeFirst : ∀ irq hint, irq.routingAny = true → ∀ v < s.g.numVcpus,
    (s.next op).g.routeSpi irq hint = .ofCpuId v → (s.next op).asleep v = true →
      ∀ w < s.g.numVcpus, (s.next op).asleep w = true
  moved : ∀ cpu k bytes value, op = writeWaker cpu k bytes value → op.Sleeps → ∀ id,
    Parked s.g cpu id → (∃ v < s.g.numVcpus, (s.next op).asleep v = false) →
      ∃ v < s.g.numVcpus, (s.next op).asleep v = false ∧ Parked (s.next op).g v id

/-- Affinity routing is on, and every GICR_WAKER holds what was last written. -/
structure InStep (s : WakerSys) : Prop where
  affinity : s.g.affinityRouting = true
  numVcpus : s.g.numVcpus < 2 ^ 16
  waker : ∀ cpu, (s.g.bank cpu).gicR.waker = if s.asleep cpu then 6 else 0

/-! ## Steps -/

theorem InStep.waker_cases (h : s.InStep) (cpu : ℕ) :
    (s.g.bank cpu).gicR.waker = 6 ∨ (s.g.bank cpu).gicR.waker = 0 := by
  rw [h.waker]
  cases s.asleep cpu with
  | true => exact .inl rfl
  | false => exact .inr rfl

theorem InStep.canReceiveIrq (h : s.InStep) (cpu : ℕ) :
    (s.g.bank cpu).gicR.canReceiveIrq = !s.asleep cpu := by
  rw [GicR.canReceiveIrq, h.waker]
  cases s.asleep cpu with
  | true => rfl
  | false => rfl

theorem numVcpus_next (h : s.InStep) : (s.next op).g.numVcpus = s.g.numVcpus := by
  cases op with
  | writeWaker cpu k bytes value =>
      rw [next, GicD.gicRMmioWrite_waker]
      exact (GicD.waker_writeWaker k bytes value (h.waker_cases cpu)).2.1
  | assertSpi id => exact (GicD.sameSleepers_assertGlobalLine s.g id).numVcpus

theorem asleep_writeWaker (cpu : ℕ) (k : Fin 4) (bytes : UInt8) (value : UInt64) (c : ℕ) :
    (s.next (.writeWaker cpu k bytes value)).asleep c =
      if c = cpu ∧ Writes k bytes then GicR.sleeping value.toUInt32 else s.asleep c := by
  rw [WakerSys.next]
  by_cases hwrites : Writes k bytes
  · simp only [hwrites, if_true, and_true, Function.update_apply]
  · simp only [hwrites, if_false, and_false]

/-- **A step by which nobody goes to sleep** keeps every register as it was last written. -/
theorem InStep.next (h : s.InStep) (hop : ¬op.Sleeps) : (s.next op).InStep := by
  have hnum : (s.next op).g.numVcpus < 2 ^ 16 := (numVcpus_next h).trans_lt h.numVcpus
  cases op with
  | assertSpi id =>
      have hsame := GicD.sameSleepers_assertGlobalLine s.g id
      refine ⟨?_, hnum, fun c => (congrArg GicR.waker (hsame.gicR c)).trans (h.waker c)⟩
      have hctlr : (s.next (.assertSpi id)).g.ctlr = s.g.ctlr := hsame.ctlr
      rw [GicD.affinityRouting, hctlr]
      exact h.affinity
  | writeWaker cpu k bytes value =>
      obtain ⟨hctlr, -, hwaker⟩ := GicD.waker_writeWaker k bytes value (h.waker_cases cpu)
      rw [← GicD.gicRMmioWrite_waker] at hctlr hwaker
      replace hctlr : (s.next (.writeWaker cpu k bytes value)).g.ctlr = s.g.ctlr := hctlr
      refine ⟨?_, hnum, fun c => (hwaker c).trans ?_⟩
      · rw [GicD.affinityRouting, hctlr]
        exact h.affinity
      · rw [asleep_writeWaker]
        by_cases hc : c = cpu ∧ Writes k bytes
        · have hawake : GicR.sleeping value.toUInt32 = false :=
            Bool.eq_false_iff.2 fun hsleep => hop ⟨hc.2, hsleep⟩
          rw [if_pos hc, if_pos hc, hawake]
          rfl
        · rw [if_neg hc, if_neg hc]
          exact h.waker c

theorem gicRMmioRead_waker (g : GicD) (cpu : ℕ) (aff : UInt32) (last : Bool) {waker : UInt32}
    (hwaker : (g.bank cpu).gicR.waker = waker) (hfew : waker = 6 ∨ waker = 4 ∨ waker = 0) :
    g.gicRMmioRead cpu aff last 0x14 4 = .shows waker.toUInt64 := by
  rw [GicD.gicRMmioRead, hwaker]
  rcases hfew with rfl | rfl | rfl
  · rfl
  · rfl
  · rfl

/-- **A step respects sleep exactly when nobody goes to sleep by it.** -/
theorem respects_iff (h : s.InStep) : s.Respects op ↔ ¬op.Sleeps := by
  constructor
  · intro hrespects hsleeps
    cases op with
    | assertSpi id => exact hsleeps
    | writeWaker cpu k bytes value =>
        obtain ⟨hwrites, hsleep⟩ := hsleeps
        have hstored := (GicD.waker_writeWaker k bytes value (h.waker_cases cpu)).2.2 cpu
        rw [← GicD.gicRMmioWrite_waker, if_pos ⟨rfl, hwrites⟩, hsleep, if_pos rfl] at hstored
        have hshows := hrespects.readback cpu 0 false
        have hasleep : (s.next (.writeWaker cpu k bytes value)).asleep cpu = true := by
          rw [asleep_writeWaker, if_pos ⟨rfl, hwrites⟩, hsleep]
        have hshown := gicRMmioRead_waker (s.next (.writeWaker cpu k bytes value)).g cpu 0 false
          hstored (.inr (.inl rfl))
        rw [hshown, hasleep, if_pos rfl] at hshows
        exact absurd hshows (by decide)
  · intro hop
    have h' := h.next hop
    refine ⟨fun cpu aff last => ?_, fun irq hint hany v hv hroute hasleep w hw => ?_,
      fun _ _ _ _ _ hsleeps => absurd hsleeps hop⟩
    · have hwaker := h'.waker cpu
      cases hasleep : (s.next op).asleep cpu with
      | true =>
          rw [hasleep] at hwaker
          exact gicRMmioRead_waker _ cpu aff last hwaker (.inl rfl)
      | false =>
          rw [hasleep] at hwaker
          exact gicRMmioRead_waker _ cpu aff last hwaker (.inr (.inr rfl))
    · rw [← @numVcpus_next s op h] at hv hw
      have hdeaf : ((s.next op).g.bank v).gicR.canReceiveIrq = false := by
        rw [h'.canReceiveIrq, hasleep]
        rfl
      have hall := GicD.routeSpi_any h'.numVcpus h'.affinity hany hv hroute hdeaf hw
      rw [h'.canReceiveIrq] at hall
      simpa using hall

/-! ## Runs -/

/-- **Sleep is respected in a run exactly when nobody goes to sleep in it.** -/
theorem sleep_respected_iff (h : s.InStep) (ops : List WakerOp) :
    AllOk next Respects s ops ↔ ∀ op ∈ ops, ¬op.Sleeps := by
  have hsteps : AllOk WakerSys.next (fun _ op => ¬op.Sleeps) s ops ↔
      AllOk WakerSys.next Respects s ops :=
    allOk_congr (fun _ _ (h : InStep _) hop => h.next hop) (fun _ _ h => (respects_iff h).symm) h
  rw [← hsteps]
  clear hsteps h
  induction ops generalizing s with
  | nil => simp [AllOk]
  | cons op ops ih =>
      rw [AllOk, List.forall_mem_cons]
      exact and_congr_right fun _ => ih

/-- Two vCPUs with affinity routing, as they start: both are asleep. -/
def twoSleepers : WakerSys where
  g := ((GicD.init .gicV3 2 64).mmioWrite 0 0x0 4 16).2
  asleep _ := true

theorem inStep_twoSleepers : twoSleepers.InStep where
  affinity := by decide +kernel
  numVcpus := by decide +kernel
  waker cpu := by
    have hbank : twoSleepers.g.bank = (GicD.init .gicV3 2 64).bank := by rfl
    have hasleep : twoSleepers.asleep cpu = true := rfl
    rw [hbank, hasleep, if_pos rfl, GicD.init, GicD.reset]
    dsimp only
    split_ifs
    · rfl
    · rfl

/-- vCPU 0 and vCPU 1 wake up, and vCPU 0 goes to sleep again. -/
def backToSleep : List WakerOp :=
  [.writeWaker 0 0 4 0, .writeWaker 1 0 4 0, .writeWaker 0 0 4 2]

/-- **A vCPU that goes to sleep is not asleep**: the register shows ChildrenAsleep alone, and the
redistributor still takes SPIs. -/
theorem sleeper_not_asleep : ¬AllOk next Respects twoSleepers backToSleep ∧
    ((backToSleep.foldl next twoSleepers).g.bank 0).gicR = { ctlr := 2, waker := 4 } ∧
      ((backToSleep.foldl next twoSleepers).g.bank 0).gicR.canReceiveIrq = true := by
  refine ⟨fun hall => ?_, by decide +kernel, by decide +kernel⟩
  have hshows := hall.2.2.1.readback 0 0 false
  revert hshows
  decide +kernel

/-- Both wake up, and an SPI is asserted. -/
theorem wakeups_respected : AllOk next Respects twoSleepers
    [.writeWaker 0 0 4 0, .writeWaker 1 0 1 0, .assertSpi 32] := by
  refine (sleep_respected_iff inStep_twoSleepers _).2 ?_
  have hawake (cpu : ℕ) (bytes : UInt8) : ¬(WakerOp.writeWaker cpu 0 bytes 0).Sleeps :=
    fun hsleeps => absurd hsleeps.2 (by decide)
  simp only [List.forall_mem_cons]
  exact ⟨hawake 0 4, hawake 1 1, id, fun _ hmem => absurd hmem List.not_mem_nil⟩

end WakerSys

end Vml
