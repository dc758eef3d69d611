import Vml.GicRun
import Vml.GicScan

/-!
# The vCPU numbers that index the banks

The distributor has one bank for every vCPU (`_local`), and a register write reaches those of other
vCPUs: where it routes an interrupt, where it announces one, and where it sends an SGI. Beside each
function that does this stands the list of the vCPU numbers that it uses as an index, or passes on
as the target of an SGI.

**What the guest names.** Routing asks for vCPUs that exist. An SGI goes where the guest says: the
list of targets in `GICD_SGIR` has eight bits, `GICD_SGIR` for all others goes through the eight
vCPUs of a GICv2, and `GICD_SPENDSGIR` has a byte for every SGI. With fewer than eight vCPUs these
reach beyond the banks.

Main results: `mmioWriteCpus_lt_iff`, and `sgi_beyond_banks`.
-/

namespace Vml

/-! ## Along a loop -/

/-- What a loop visits whose turns are `f`, and where the turn with `a` visits `u s a`. -/
def visited {σ α β : Type*} (f : σ → α → σ) (u : σ → α → List β) : σ → List α → List β
  | _, [] => []
  | s, a :: as => u s a ++ visited f u (f s a) as

theorem forall_visited_iff {σ α β : Type*} {f : σ → α → σ} {u : σ → α → List β} {Inv : σ → Prop}
    {Q : β → Prop} {ok : α → Prop} {as : List α} {s : σ} (hs : Inv s)
    (hf : ∀ s, ∀ a ∈ as, Inv s → Inv (f s a))
    (hu : ∀ s, ∀ a ∈ as, Inv s → ((∀ b ∈ u s a, Q b) ↔ ok a)) :
    (∀ b ∈ visited f u s as, Q b) ↔ ∀ a ∈ as, ok a := by
  induction as generalizing s with
  | nil => simp [visited]
  | cons a as ih =>
      have hmem {x : α} (hx : x ∈ as) : x ∈ a :: as := List.mem_cons_of_mem a hx
      rw [visited, List.forall_mem_append, List.forall_mem_cons, hu s a List.mem_cons_self hs,
        ih (hf s a List.mem_cons_self hs) (fun s x hx => hf s x (hmem hx))
          fun s x hx => hu s x (hmem hx)]

namespace GicD

/-! ## What each function uses -/

/-- `route_spi`. -/
def routeSpiCpus (g : GicD) (irq : Irq) (vcpuHintStart : ℕ) : List ℕ :=
  if !g.affinityRouting then List.range (min g.numVcpus gicv2MaxCpus)
  else if irq.routingAny then
    let hint := vcpuHintStart % g.numVcpus
    let tried := match (List.range g.numVcpus).find? fun k =>
        (g.bank ((hint + k) % g.numVcpus)).gicR.canReceiveIrq with
      | some k => k + 1
      | none => g.numVcpus
    (List.range tried).map fun k => (hint + k) % g.numVcpus
  else
    let affinity := irq.routingAffinity
    match g.clusters (affinity &&& ~~~0xff) with
    | none => []
    | some vcpuId =>
        match vcpuId (affinity &&& 0xff).toNat with
        | none => []
        | some id => if g.numVcpus ≤ id then [] else [id]

/-- `redirect_spi`. -/
def redirectSpiCpus (g : GicD) (id vcpuHintStart : ℕ) : List ℕ :=
  let irq := g.irqObject 0 id
  let target := g.routeSpi irq vcpuHintStart
  g.routeSpiCpus irq vcpuHintStart ++
    if (irq.injectionInfo.redirected target).isSome then g.notified target else []

/-- `assert_pi`. -/
def assertPiCpus (g : GicD) (cpuId owner id : ℕ) : List ℕ :=
  if spiBase ≤ id then
    let g := g.bumpHint
    let irq := g.irqObject owner id
    let hint := g.vcpuGlobalHint.toNat
    g.routeSpiCpus irq hint ++ g.notified (g.routeSpi irq hint)
  else g.notified (.ofCpuId cpuId)

/-- `assert_pi_sw`. -/
def assertPiSwCpus (g : GicD) (cpuId owner id : ℕ) : List ℕ :=
  (g.modifyIrq owner id ({ · with swAsserted := true })).assertPiCpus cpuId owner id

/-- `assert_sgi`, with the target that is passed. -/
def assertSgiCpus (g : GicD) (sender target owner id : ℕ) : List ℕ :=
  target ::
    if g.affinityRouting then g.assertPiCpus target owner id
    else if gicv2MaxCpus ≤ sender then []
    else g.notified (.ofCpuId target)

/-- `send_sgi`, with the target that is passed. -/
def sendSgiCpus (g : GicD) (sender target sgiId : ℕ) : List ℕ :=
  target :: g.assertSgiCpus sender target target sgiId

/-- What follows on a write to a register that routes an interrupt. -/
def rerouteCpus (g : GicD) (cpu id : ℕ) : List ℕ :=
  if (g.irqObject cpu id).pending then g.bumpHint.redirectSpiCpus id g.bumpHint.vcpuGlobalHint.toNat
  else []

/-- `change_target`. -/
def changeTargetCpus (g : GicD) (cpu : ℕ) (acc : IrqMmioAccess) (value : UInt64) : List ℕ :=
  visited (fun g p =>
    let g := g.modifyIrq cpu p.2 ({ · with target := acc.field value p.1 })
    if (g.irqObject cpu p.2).pending then
      (g.bumpHint.redirectSpi p.2 g.bumpHint.vcpuGlobalHint.toNat).2
    else g)
    (fun g p =>
      (g.modifyIrq cpu p.2 ({ · with target := acc.field value p.1 })).rerouteCpus cpu p.2)
    g acc.irqs

/-- `write_irouter`. -/
def writeIrouterCpus (g : GicD) (cpu : ℕ) (offset : UInt64) (bytes : UInt8) (value : UInt64) :
    List ℕ :=
  let irqId := spiBase + ((offset - 0x6100) / 8).toNat
  if !g.affinityRouting then []
  else if bytes != 8 || offset % 8 != 0 then []
  else if irqId < spiBase ∨ g.configuredIrqs ≤ irqId then []
  else (g.modifyIrq cpu irqId ({ · with routing := value })).rerouteCpus cpu irqId

/-- `mmio_assert` with `assert_pi_sw`. -/
def mmioAssertCpus (g : GicD) (cpuId : ℕ) (acc : IrqMmioAccess) (value : UInt64) : List ℕ :=
  visited (fun g p =>
    if value >>> UInt64.ofNat p.1 &&& 1 != 0 then (g.assertPiSw cpuId cpuId p.2).2 else g)
    (fun g p => if value >>> UInt64.ofNat p.1 &&& 1 != 0 then g.assertPiSwCpus cpuId cpuId p.2
      else [])
    g acc.irqs

/-- The bit of `j` in the byte of `GICD_SPENDSGIR` for the `i`-th interrupt of an access. -/
def sendsTo (value : UInt64) (i j : ℕ) : Bool :=
  (value >>> UInt64.ofNat (i * gicv2MaxCpus)).toUInt8 >>> UInt8.ofNat j &&& 1 != 0

/-- `mmio_assert_sgi` with `assert_sgi`. -/
def mmioAssertSgiCpus (g : GicD) (cpuId : ℕ) (acc : IrqMmioAccess) (value : UInt64) : List ℕ :=
  let turn := fun (g : GicD) (p : ℕ × ℕ) j =>
    if sendsTo value p.1 j then (g.assertSgi cpuId j cpuId p.2).2 else g
  visited (fun g p => (List.range gicv2MaxCpus).foldl (turn · p) g)
    (fun g p => visited (turn · p)
      (fun g j => if sendsTo value p.1 j then g.assertSgiCpus cpuId j cpuId p.2 else [])
      g (List.range gicv2MaxCpus))
    g acc.irqs

/-- The bit of `tcpu` in the list of targets in `GICD_SGIR`. -/
def sgirTarget (value : UInt64) (tcpu : ℕ) : Bool :=
  (value >>> 16 &&& 0xff).toUInt8 &&& 1 <<< UInt8.ofNat tcpu != 0

/-- `filter` of `GICD_SGIR`. -/
def sgirFilter (value : UInt64) : UInt64 := value >>> 24 &&& 3

/-- `write_sgir`. -/
def writeSgirCpus (g : GicD) (cpuId : ℕ) (value : UInt64) : List ℕ :=
  let sgi := (value &&& 0xf).toNat
  if sgirFilter value = 0 then
    visited (fun g tcpu => if sgirTarget value tcpu then g.sendSgi cpuId tcpu sgi else g)
      (fun g tcpu => if sgirTarget value tcpu then g.sendSgiCpus cpuId tcpu sgi else [])
      g (List.range gicv2MaxCpus)
  else if sgirFilter value = 1 then
    visited (fun g tcpu => if tcpu = cpuId then g else g.sendSgi cpuId tcpu sgi)
      (fun g tcpu => if tcpu = cpuId then [] else g.sendSgiCpus cpuId tcpu sgi)
      g (List.range gicv2MaxCpus)
  else if sgirFilter value = 2 then g.sendSgiCpus cpuId cpuId sgi
  else []

/-- The access to `GICD_SPENDSGIR`. -/
def spendSgirAccess (g : GicD) (offset : UInt64) (bytes : UInt8) : IrqMmioAccess :=
  { g.irqMmioAccess offset bytes .all with baseAbs := 0xf20, irqPerBytes := 1 }.configureAccess .sgi

/-- `mmio_write_32_or_less`. The registers that are not here use the bank of the writer only. -/
def mmioWrite32OrLessCpus (g : GicD) (cpuId : ℕ) (offset : UInt64) (bytes : UInt8)
    (value : UInt64) : List ℕ :=
  let acc := g.irqMmioAccess offset bytes .all
  if within offset 0x200 0x27f then
    g.mmioAssertCpus cpuId { acc with baseAbs := 0x200 } (stripSgis offset 0x200 value)
  else if within offset 0x820 0xbff then
    g.changeTargetCpus cpuId
      ({ acc with baseAbs := 0x820, irqPerBytes := 1 }.configureAccess .spi) value
  else if within offset 0xf00 0xf03 then g.writeSgirCpus cpuId value
  else if within offset 0xf20 0xf2f then
    if g.affinityRouting then []
    else g.mmioAssertSgiCpus cpuId (g.spendSgirAccess offset bytes) value
  else []

/-- `GicD::mmio_write`. -/
def mmioWriteCpus (g : GicD) (cpuId : ℕ) (offset : UInt64) (bytes : UInt8) (value : UInt64) :
    List ℕ :=
  if 0x10000 ≤ offset ∨ 8 < bytes ∨ g.numVcpus ≤ cpuId then []
  else
    cpuId ::
      if within offset 0x6100 0x7fdf then g.writeIrouterCpus cpuId offset bytes value
      else if within offset 0x8000 0x9fff then []
      else if 4 < bytes then []
      else g.mmioWrite32OrLessCpus cpuId offset bytes value

/-! ## Routing asks for vCPUs that exist -/

section Routing

variable {g : GicD}

theorem numVcpus_assertPi (g : GicD) (cpuId owner id : ℕ) :
    (g.assertPi cpuId owner id).2.numVcpus = g.numVcpus := by
  rw [assertPi]
  refine ((announced_notifyTarget ..).numVcpus.trans (setInfo_numVcpus ..)).trans ?_
  split_ifs <;> rfl

theorem callRule_numVcpus (n : ℕ) : CallRule fun g => g.numVcpus = n where
  store hg cpu id _ _ := (modifyIrq_numVcpus ..).trans hg
  ctlr hg _ := hg
  propBaser hg _ := hg
  pendBaser hg _ := hg
  bumpHint hg := hg
  gicR hg _ _ := hg
  assertPi hg cpuId owner id := (numVcpus_assertPi ..).trans hg
  assertSgi {g} hg sender target owner id _ := by
    rw [assertSgi]
    split_ifs
    · exact (numVcpus_assertPi ..).trans hg
    · exact hg
    · exact ((announced_notifyTarget ..).numVcpus.trans (setInfo_numVcpus ..)).trans hg
  redirectSpi {g} hg id hint _ := by
    rw [redirectSpi]
    split
    · exact hg
    · exact ((announced_notifyTarget ..).numVcpus.trans (setInfo_numVcpus ..)).trans hg
  deassertPi hg owner id := by
    rw [deassertPi]
    split_ifs
    · exact hg
    · exact (setInfo_numVcpus ..).trans hg
  deassertSgi hg sender owner id _ := by
    rw [deassertSgi, deassertPi]
    split_ifs
    · exact hg
    · exact (setInfo_numVcpus ..).trans hg
    · exact hg
    · exact (setInfo_numVcpus ..).trans hg

theorem lt_of_mem_routeSpiCpus (hpos : 0 < g.numVcpus) {irq : Irq} {hint c : ℕ}
    (hc : c ∈ g.routeSpiCpus irq hint) : c < g.numVcpus := by
  rw [routeSpiCpus] at hc
  split_ifs at hc
  · exact (List.mem_range.1 hc).trans_le (Nat.min_le_left ..)
  · obtain ⟨k, -, rfl⟩ := List.mem_map.1 hc
    exact Nat.mod_lt _ hpos
  · dsimp only at hc
    split at hc
    · exact absurd hc List.not_mem_nil
    · split at hc
      · exact absurd hc List.not_mem_nil
      · split_ifs at hc with hle
        · exact absurd hc List.not_mem_nil
        · rw [List.mem_singleton.1 hc]
          exact Nat.not_le.1 hle

theorem notified_ofCpuId (g : GicD) (target : ℕ) :
    g.notified (.ofCpuId target) = [target % 2 ^ 31] := by
  rw [notified.eq_def]
  rfl

theorem lt_of_mem_notified_ofCpuId {target : ℕ} (ht : target < g.numVcpus) {c : ℕ}
    (hc : c ∈ g.notified (.ofCpuId target)) : c < g.numVcpus := by
  rw [notified_ofCpuId, List.mem_singleton] at hc
  rw [hc]
  exact (Nat.mod_le ..).trans_lt ht

theorem lt_of_mem_notified_cpuSet {mask c : ℕ} (hc : c ∈ g.notified (.cpuSet mask)) :
    c < g.numVcpus := by
  rw [notified.eq_def] at hc
  split_ifs at hc
  · exact absurd hc List.not_mem_nil
  · exact (List.mem_range.1 (List.mem_filter.1 hc).1).trans_le (Nat.min_le_left ..)

theorem routeSpiNoAffinity_eq (g : GicD) (irq : Irq) :
    ∃ mask, g.routeSpiNoAffinity irq = .cpuSet mask := by
  refine List.foldlRecOn (motive := fun t => ∃ mask, t = IrqTarget.cpuSet mask) _ _ ⟨0, rfl⟩ ?_
  rintro t ⟨mask, rfl⟩ i -
  split_ifs
  · exact ⟨mask, rfl⟩
  · exact ⟨_, rfl⟩
  · exact ⟨mask, rfl⟩

/-- **An SPI is announced to vCPUs that exist.** -/
theorem lt_of_mem_notified_routeSpi (hpos : 0 < g.numVcpus) {irq : Irq} {hint c : ℕ}
    (hc : c ∈ g.notified (g.routeSpi irq hint)) : c < g.numVcpus := by
  rw [routeSpi] at hc
  have hinvalid : ¬c ∈ g.notified .invalid := by
    rw [notified.eq_def]
    exact List.not_mem_nil
  split_ifs at hc
  · obtain ⟨mask, hmask⟩ := g.routeSpiNoAffinity_eq irq
    rw [hmask] at hc
    exact lt_of_mem_notified_cpuSet hc
  · dsimp only at hc
    split at hc
    · exact lt_of_mem_notified_ofCpuId (Nat.mod_lt _ hpos) hc
    · exact lt_of_mem_notified_ofCpuId (Nat.mod_lt _ hpos) hc
  · dsimp only at hc
    split at hc
    · exact absurd hc hinvalid
    · split at hc
      · exact absurd hc hinvalid
      · split_ifs at hc with hle
        · exact absurd hc hinvalid
        · exact lt_of_mem_notified_ofCpuId (Nat.not_le.1 hle) hc
        · exact absurd hc hinvalid

theorem lt_of_mem_redirectSpiCpus (hpos : 0 < g.numVcpus) {id hint c : ℕ}
    (hc : c ∈ g.redirectSpiCpus id hint) : c < g.numVcpus := by
  obtain hroute | hnotified := List.mem_append.1 hc
  · exact lt_of_mem_routeSpiCpus hpos hroute
  · split_ifs at hnotified
    · exact lt_of_mem_notified_routeSpi hpos hnotified
    · exact absurd hnotified List.not_mem_nil

theorem lt_of_mem_assertPiCpus {cpuId owner id c : ℕ} (hcpu : cpuId < g.numVcpus)
    (hc : c ∈ g.assertPiCpus cpuId owner id) : c < g.numVcpus := by
  have hpos : 0 < g.bumpHint.numVcpus := Nat.zero_lt_of_lt hcpu
  rw [assertPiCpus] at hc
  split_ifs at hc
  · obtain hroute | hnotified := List.mem_append.1 hc
    · exact lt_of_mem_routeSpiCpus hpos hroute
    · exact lt_of_mem_notified_routeSpi (g := g.bumpHint) hpos hnotified
  · exact lt_of_mem_notified_ofCpuId hcpu hc

theorem lt_of_mem_rerouteCpus (hpos : 0 < g.numVcpus) {cpu id c : ℕ}
    (hc : c ∈ g.rerouteCpus cpu id) : c < g.numVcpus := by
  rw [rerouteCpus] at hc
  split_ifs at hc
  · exact lt_of_mem_redirectSpiCpus (g := g.bumpHint) hpos hc
  · exact absurd hc List.not_mem_nil

end Routing

/-! ## An SGI goes where the guest says -/

/-- **The vCPUs of an SGI exist** exactly when its target does. -/
theorem assertSgiCpus_lt_iff {g : GicD} {sender target owner id : ℕ} :
    (∀ c ∈ g.assertSgiCpus sender target owner id, c < g.numVcpus) ↔ target < g.numVcpus := by
  constructor
  · exact fun h => h target List.mem_cons_self
  · intro ht c hc
    obtain rfl | hc := List.mem_cons.1 hc
    · exact ht
    · split_ifs at hc
      · exact lt_of_mem_assertPiCpus ht hc
      · exact absurd hc List.not_mem_nil
      · exact lt_of_mem_notified_ofCpuId ht hc

theorem sendSgiCpus_lt_iff {g : GicD} {sender target sgiId : ℕ} :
    (∀ c ∈ g.sendSgiCpus sender target sgiId, c < g.numVcpus) ↔ target < g.numVcpus := by
  rw [sendSgiCpus, List.forall_mem_cons, assertSgiCpus_lt_iff, and_self_iff]

/-- The vCPUs that a write to `GICD_SGIR` names exist. -/
def SgirTargetsExist (g : GicD) (value : UInt64) : Prop :=
  (sgirFilter value = 0 → ∀ tcpu < gicv2MaxCpus, sgirTarget value tcpu = true → tcpu < g.numVcpus) ∧
    (sgirFilter value = 1 → gicv2MaxCpus ≤ g.numVcpus)

/-- The vCPUs that a write to `GICD_SPENDSGIR` names exist. -/
def SpendSgirTargetsExist (g : GicD) (offset : UInt64) (bytes : UInt8) (value : UInt64) : Prop :=
  ∀ p ∈ (g.spendSgirAccess offset bytes).irqs, ∀ j < gicv2MaxCpus,
    sendsTo value p.1 j = true → j < g.numVcpus

/-- The vCPUs that a register write names as targets of SGIs exist. -/
def TargetsExist (g : GicD) (cpuId : ℕ) (offset : UInt64) (bytes : UInt8) (value : UInt64) : Prop :=
  bytes ≤ 4 → cpuId < g.numVcpus →
    (within offset 0xf00 0xf03 = true → g.SgirTargetsExist value) ∧
      (within offset 0xf20 0xf2f = true → g.affinityRouting = false →
        g.SpendSgirTargetsExist offset bytes value)

variable {g : GicD} {cpuId : ℕ}

theorem visitedCpus_lt_iff {α : Type*} {n : ℕ} (ok : α → Prop) {f : GicD → α → GicD}
    {u : GicD → α → List ℕ} {as : List α} (hg : g.numVcpus = n)
    (hf : ∀ g : GicD, ∀ a ∈ as, g.numVcpus = n → (f g a).numVcpus = n)
    (hu : ∀ g : GicD, ∀ a ∈ as, g.numVcpus = n → ((∀ c ∈ u g a, c < n) ↔ ok a)) :
    (∀ c ∈ visited f u g as, c < n) ↔ ∀ a ∈ as, ok a := forall_visited_iff hg hf hu

theorem writeSgirCpus_lt_iff {value : UInt64} (hcpu : cpuId < g.numVcpus) :
    (∀ c ∈ g.writeSgirCpus cpuId value, c < g.numVcpus) ↔ g.SgirTargetsExist value := by
  have hrule := callRule_numVcpus g.numVcpus
  have hsgi := toNat_and_lt_maxSgi value
  rw [writeSgirCpus, SgirTargetsExist]
  split_ifs with h0 h1 h2
  · refine (visitedCpus_lt_iff (fun tcpu => sgirTarget value tcpu = true → tcpu < g.numVcpus) rfl
      (fun s tcpu _ hs => ?_) fun s tcpu _ hs => ?_).trans ?_
    · split_ifs
      · exact hrule.sendSgi hs cpuId tcpu hsgi
      · exact hs
    · split_ifs with hbit
      · rw [← hs, sendSgiCpus_lt_iff, imp_iff_right hbit]
      · simp [hbit]
    · have h01 : ¬(0 : UInt64) = 1 := by decide
      simp only [List.mem_range, h0, h01, true_imp_iff, false_imp_iff, and_true]
  · refine (visitedCpus_lt_iff (fun tcpu => tcpu ≠ cpuId → tcpu < g.numVcpus) rfl
      (fun s tcpu _ hs => ?_) fun s tcpu _ hs => ?_).trans ?_
    · split_ifs
      · exact hs
      · exact hrule.sendSgi hs cpuId tcpu hsgi
    · split_ifs with heq
      · simp [heq]
      · rw [← hs, sendSgiCpus_lt_iff, imp_iff_right heq]
    · have h10 : ¬(1 : UInt64) = 0 := by decide
      simp only [List.mem_range, h1, h10, false_imp_iff, true_and, true_imp_iff]
      constructor
      · -- the number of vCPUs itself is one that does not exist, and not that of the writer
        intro h
        by_contra hlt
        have hself := h g.numVcpus (Nat.not_le.1 hlt) hcpu.ne'
        exact Nat.lt_irrefl _ hself
      · exact fun hle tcpu htcpu _ => htcpu.trans_le hle
  · rw [sendSgiCpus_lt_iff]
    simp only [h0, h1, false_imp_iff, and_self, hcpu]
  · simp [h0, h1]

theorem mmioAssertSgiCpus_lt_iff {offset value : UInt64} {bytes : UInt8} :
    (∀ c ∈ g.mmioAssertSgiCpus cpuId (g.spendSgirAccess offset bytes) value, c < g.numVcpus) ↔
      g.SpendSgirTargetsExist offset bytes value := by
  have hrule := callRule_numVcpus g.numVcpus
  have hsgi {p : ℕ × ℕ} (hp : p ∈ (g.spendSgirAccess offset bytes).irqs) : p.2 < maxSgi :=
    lt_maxSgi_of_mem_irqs rfl rfl hp
  rw [SpendSgirTargetsExist]
  generalize g.spendSgirAccess offset bytes = acc at hsgi ⊢
  obtain ⟨turn, hturn⟩ : ∃ turn : GicD → ℕ × ℕ → ℕ → GicD, turn = fun g p j =>
    if sendsTo value p.1 j then (g.assertSgi cpuId j cpuId p.2).2 else g := ⟨_, rfl⟩
  have hkeeps (s : GicD) (p : ℕ × ℕ) (j : ℕ) (hp : p ∈ acc.irqs) (hs : s.numVcpus = g.numVcpus) :
      (turn s p j).numVcpus = g.numVcpus := by
    rw [hturn]
    dsimp only
    split_ifs
    · exact hrule.assertSgi hs cpuId j cpuId p.2 (hsgi hp)
    · exact hs
  have hloop := @visitedCpus_lt_iff g (ℕ × ℕ) g.numVcpus
    (fun p => ∀ j < gicv2MaxCpus, sendsTo value p.1 j = true → j < g.numVcpus)
    (fun g p => (List.range gicv2MaxCpus).foldl (turn · p) g)
    (fun g p => visited (turn · p)
      (fun g j => if sendsTo value p.1 j then g.assertSgiCpus cpuId j cpuId p.2 else [])
      g (List.range gicv2MaxCpus))
    acc.irqs rfl (fun s p hp hs => ?_) fun s p hp hs => ?_
  · rw [mmioAssertSgiCpus]
    rw [hturn] at hloop
    exact hloop
  · exact List.foldlRecOn (motive := fun s => s.numVcpus = g.numVcpus) _ _ hs
      fun s hs j _ => hkeeps s p j hp hs
  · refine (visitedCpus_lt_iff (fun j => sendsTo value p.1 j = true → j < g.numVcpus) hs
      (fun s j _ hs => hkeeps s p j hp hs) fun s j _ hs => ?_).trans ?_
    · split_ifs with hbit
      · rw [← hs, assertSgiCpus_lt_iff, imp_iff_right hbit]
      · simp [hbit]
    · simp only [List.mem_range]

theorem mmioAssertCpus_lt {acc : IrqMmioAccess} {value : UInt64} (hcpu : cpuId < g.numVcpus) :
    ∀ c ∈ g.mmioAssertCpus cpuId acc value, c < g.numVcpus := by
  have hrule := callRule_numVcpus g.numVcpus
  refine (visitedCpus_lt_iff (fun _ => True) rfl (fun s p _ hs => ?_) fun s p _ hs => ?_).2
    fun _ _ => trivial
  · split_ifs
    · exact hrule.assertPiSw hs cpuId cpuId p.2
    · exact hs
  · rw [iff_true]
    intro c hc
    split_ifs at hc
    · have hstore := hrule.store hs cpuId p.2 (f := ({ · with swAsserted := true })) fun _ => rfl
      exact hstore ▸ lt_of_mem_assertPiCpus (hstore.symm ▸ hcpu) hc
    · exact absurd hc List.not_mem_nil

theorem changeTargetCpus_lt {acc : IrqMmioAccess} {value : UInt64} (hpos : 0 < g.numVcpus)
    (hacc : ∀ p ∈ acc.irqs, spiBase ≤ p.2) :
    ∀ c ∈ g.changeTargetCpus cpuId acc value, c < g.numVcpus := by
  have hrule := callRule_numVcpus g.numVcpus
  refine (visitedCpus_lt_iff (fun _ => True) rfl (fun s p hp hs => ?_) fun s p _ hs => ?_).2
    fun _ _ => trivial
  · exact hrule.reroute hs cpuId (hacc p hp) fun _ => ⟨rfl, rfl⟩
  · rw [iff_true]
    intro c hc
    have hstore := hrule.store hs cpuId p.2
      (f := ({ · with target := acc.field value p.1 })) fun _ => rfl
    exact hstore ▸ lt_of_mem_rerouteCpus (hstore.symm ▸ hpos) hc

theorem writeIrouterCpus_lt {offset value : UInt64} {bytes : UInt8} (hpos : 0 < g.numVcpus) :
    ∀ c ∈ g.writeIrouterCpus cpuId offset bytes value, c < g.numVcpus := by
  intro c hc
  rw [writeIrouterCpus] at hc
  split_ifs at hc
  · exact absurd hc List.not_mem_nil
  · exact absurd hc List.not_mem_nil
  · exact absurd hc List.not_mem_nil
  · have hstore := (callRule_numVcpus g.numVcpus).store (g := g) rfl cpuId
      (spiBase + ((offset - 0x6100) / 8).toNat) (f := ({ · with routing := value })) fun _ => rfl
    exact hstore ▸ lt_of_mem_rerouteCpus (hstore.symm ▸ hpos) hc

theorem within_eq_false {offset first last first' last' : UInt64} (h : within offset first last)
    (hlt : last < first' ∨ last' < first) : within offset first' last' = false := by
  rw [within, decide_eq_true_eq] at h
  rw [within, decide_eq_false_iff_not]
  rintro ⟨hfirst, hlast⟩
  obtain hlt | hlt := hlt
  · exact UInt64.not_lt.2 hfirst (UInt64.lt_of_le_of_lt h.2 hlt)
  · exact UInt64.not_lt.2 h.1 (UInt64.lt_of_le_of_lt hlast hlt)

theorem targetsExist_of_within {offset first last value : UInt64} {bytes : UInt8}
    (h : within offset first last) (hsgir : last < 0xf00 ∨ 0xf2f < first) :
    g.TargetsExist cpuId offset bytes value := by
  intro _ _
  have hsgir' : last < 0xf00 ∨ (0xf03 : UInt64) < first := hsgir.imp_right fun h =>
    UInt64.lt_trans (by decide) h
  have hspend : last < 0xf20 ∨ (0xf2f : UInt64) < first := hsgir.imp_left fun h =>
    UInt64.lt_trans h (by decide)
  rw [within_eq_false h hsgir', within_eq_false h hspend]
  exact ⟨nofun, nofun⟩

theorem mmioWrite32OrLessCpus_lt_iff {offset value : UInt64} {bytes : UInt8} (hbytes : bytes ≤ 4)
    (hcpu : cpuId < g.numVcpus) :
    (∀ c ∈ g.mmioWrite32OrLessCpus cpuId offset bytes value, c < g.numVcpus) ↔
      g.TargetsExist cpuId offset bytes value := by
  rw [mmioWrite32OrLessCpus]
  split_ifs with hpend htarget hsgir hspend haff
  · exact iff_of_true (mmioAssertCpus_lt hcpu) (targetsExist_of_within hpend (.inl (by decide)))
  · refine iff_of_true (changeTargetCpus_lt (Nat.zero_lt_of_lt hcpu) fun p hp => ?_)
      (targetsExist_of_within htarget (.inl (by decide)))
    rw [within, decide_eq_true_eq] at htarget
    exact spiBase_le_of_mem_irqs rfl rfl htarget hp
  · rw [writeSgirCpus_lt_iff hcpu, TargetsExist, imp_iff_right hbytes, imp_iff_right hcpu,
      imp_iff_right hsgir, within_eq_false hsgir (.inl (by decide))]
    simp
  · refine iff_of_true (by simp) fun _ _ => ⟨fun h => absurd h hsgir, fun _ h => ?_⟩
    rw [haff] at h
    cases h
  · rw [mmioAssertSgiCpus_lt_iff, TargetsExist, imp_iff_right hbytes, imp_iff_right hcpu,
      imp_iff_right hspend, imp_iff_right (Bool.eq_false_of_not_eq_true haff)]
    exact (and_iff_right fun h => absurd h hsgir).symm
  · exact iff_of_true (by simp) fun _ _ => ⟨fun h => absurd h hsgir, fun h => absurd h hspend⟩

/-- **The vCPU numbers of a register write** are those of vCPUs that exist exactly when the guest
names such vCPUs as targets of SGIs. -/
theorem mmioWriteCpus_lt_iff (g : GicD) (cpuId : ℕ) (offset : UInt64) (bytes : UInt8)
    (value : UInt64) :
    (∀ c ∈ g.mmioWriteCpus cpuId offset bytes value, c < g.numVcpus) ↔
      g.TargetsExist cpuId offset bytes value := by
  rw [mmioWriteCpus]
  split_ifs with hfail hroute hext hbytes
  · refine iff_of_true nofun fun hle hcpu => ?_
    obtain hoff | h8 | hnum := hfail
    · -- the registers of SGIs are below the end
      have hout {last : UInt64} (hlast : last < 0x10000) {first : UInt64} :
          ¬within offset first last = true := by
        rw [within, decide_eq_true_eq]
        exact fun h => UInt64.not_lt.2 hoff (UInt64.lt_of_le_of_lt h.2 hlast)
      exact ⟨fun h => absurd h (hout (by decide)), fun h => absurd h (hout (by decide))⟩
    · exact absurd (UInt8.lt_of_lt_of_le h8 hle) (by decide)
    · exact absurd hcpu (Nat.not_lt.2 hnum)
  all_goals
    have hcpu : cpuId < g.numVcpus := Nat.not_le.1 fun h => hfail (.inr (.inr h))
    rw [List.forall_mem_cons, and_iff_right hcpu]
  · exact iff_of_true (writeIrouterCpus_lt (Nat.zero_lt_of_lt hcpu))
      (targetsExist_of_within hroute (.inr (by decide)))
  · exact iff_of_true nofun (targetsExist_of_within hext (.inr (by decide)))
  · exact iff_of_true nofun fun hle => absurd hle (UInt8.not_le.2 hbytes)
  · exact mmioWrite32OrLessCpus_lt_iff (UInt8.not_lt.1 hbytes) hcpu

/-- A guest with one vCPU sends SGI 0 to vCPU 1. -/
theorem sgi_beyond_banks : ¬∀ (version : IrqCtlrVersion) (numVcpus : ℕ) (offset : UInt64)
    (bytes : UInt8) (value : UInt64),
    ∀ c ∈ (init version numVcpus 64).mmioWriteCpus 0 offset bytes value, c < numVcpus := by
  intro h
  have hmem : 1 ∈ (init .gicV2 1 64).mmioWriteCpus 0 0xf00 4 0x20000 := by decide +kernel
  exact absurd (h .gicV2 1 0xf00 4 0x20000 1 hmem) (Nat.lt_irrefl 1)

end GicD

end Vml
