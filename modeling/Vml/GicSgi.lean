import Mathlib.Data.Nat.Bitwise
import Vml.CpuAffinity
import Vml.GicRun
import Vml.GicScan

/-!
# Software generated interrupts

`GicD::icc_sgi1r_el1` with affinity routing (`gicd.cpp`). The value names an SGI, and either all
vCPUs but the sender or some of the 16 of a cluster, which is looked up under its affinity.

**What a vCPU receives** is in `Banked.receiveSgi`: the SGI becomes pending for it, with its bit and
the signal. `Received` says that some vCPUs have received it, and that nothing else has changed.

**Who is to receive it** is in `SgiTarget`, in terms of the registrations alone.

Main result: `GicD.sgi_received`.
-/

namespace Vml

open ClustersMap

/-- What a vCPU becomes that receives an SGI. -/
def Banked.receiveSgi (b : Banked) (v intid : ℕ) : Banked :=
  { b with
    irq := Function.update b.irq intid
      { b.irq intid with injectionInfo := .asserted (.cpuId v) }
    pendingIrqs := Function.update b.pendingIrqs intid true
    irqSig := b.irqSig.sig }

namespace GicD

/-- The vCPUs `targets` have received the SGI `intid`, and nothing else has changed. -/
structure Received (g t : GicD) (intid : ℕ) (targets : ℕ → Prop) : Prop where
  rest : { t with bank := g.bank } = g
  received : ∀ v, targets v → t.bank v = (g.bank v).receiveSgi v intid
  others : ∀ v, ¬targets v → t.bank v = g.bank v

/-- The vCPUs that a value names. With the routing mode bit all but the sender, and else those that
are registered under an affinity of the cluster with the bit of their place set. -/
def SgiTarget (rs : List Registration) (numVcpus : ℕ) (value : UInt64) (self v : ℕ) : Prop :=
  if value.toNat.testBit 40 then v < numVcpus ∧ v ≠ self
  else ∃ a, lastRegistered rs a = some v ∧
    (a.aff1 = (value >>> 16).toUInt8 ∧ a.aff2 = (value >>> 32).toUInt8 ∧
      a.aff3 = (value >>> 48).toUInt8) ∧
    a.aff0.toNat < 16 ∧ value.toNat.testBit a.aff0.toNat = true

/-! ## One vCPU -/

theorem receiveSgi_receiveSgi (b : Banked) (v intid : ℕ) :
    (b.receiveSgi v intid).receiveSgi v intid = b.receiveSgi v intid := by
  unfold Banked.receiveSgi
  simp only [Function.update_idem, Function.update_self]
  rfl

theorem modifyBank_modifyBank (g : GicD) (cpu : ℕ) (f f' : Banked → Banked) :
    (g.modifyBank cpu f).modifyBank cpu f' = g.modifyBank cpu (f' ∘ f) := by
  unfold modifyBank
  dsimp only
  rw [Function.update_idem, Function.update_self]
  rfl

theorem vcpuCanReceiveIrq_sgi (g : GicD) (v : ℕ) {intid : ℕ} (hid : intid < maxSgi) :
    g.vcpuCanReceiveIrq v intid = true := by
  have hspi : intid < spiBase := Nat.lt_trans hid (by decide)
  rw [vcpuCanReceiveIrq, if_pos hspi, ite_self]

theorem sendSgi_eq {g : GicD} (hrouting : g.affinityRouting = true) (self : ℕ) {v intid : ℕ}
    (hv : v < 2 ^ 31) (hid : intid < maxSgi) :
    g.sendSgi self v intid = g.modifyBank v (Banked.receiveSgi · v intid) := by
  have hspi : ¬spiBase ≤ intid := Nat.not_le.2 (Nat.lt_trans hid (by decide))
  have htarget : IrqTarget.ofCpuId v = .cpuId v := by
    rw [IrqTarget.ofCpuId, Nat.mod_eq_of_lt hv]
  have hvalid : (IrqTarget.cpuId v).isValid = true := rfl
  have hset : g.setInfo v intid (.asserted (.cpuId v)) = g.modifyBank v fun b =>
      { b with
        irq := Function.update b.irq intid
          { b.irq intid with injectionInfo := .asserted (.cpuId v) } } :=
    if_pos (Nat.not_le.1 hspi)
  rw [sendSgi, assertSgi, if_pos hrouting, assertPi]
  simp only [if_neg hspi, htarget]
  rw [notifyTarget, notified, hvalid, hset]
  simp only [Bool.not_true, Bool.false_eq_true, if_false, List.foldl_cons, List.foldl_nil]
  rw [notifyCpu, if_pos (vcpuCanReceiveIrq_sgi _ v hid), notifyInterruptPending, setPendingIrq,
    modifyBank_modifyBank, modifyBank_modifyBank]
  rfl

/-! ## Several vCPUs -/

namespace Received

variable {g t : GicD} {intid : ℕ} {targets targets' : ℕ → Prop}

theorem refl (g : GicD) (intid : ℕ) (h : ∀ v, ¬targets v) : Received g g intid targets where
  rest := rfl
  received v hv := absurd hv (h v)
  others _ _ := rfl

theorem congr (h : Received g t intid targets) (hiff : ∀ v, targets v ↔ targets' v) :
    Received g t intid targets' where
  rest := h.rest
  received v hv := h.received v ((hiff v).2 hv)
  others v hv := h.others v fun hv' => hv ((hiff v).1 hv')

theorem sendSgi (h : Received g t intid targets) (hrouting : g.affinityRouting = true)
    (self : ℕ) {v : ℕ} (hv : v < 2 ^ 31) (hid : intid < maxSgi) :
    Received g (t.sendSgi self v intid) intid fun u => targets u ∨ u = v := by
  have hctlr : t.ctlr = g.ctlr := by
    rw [← h.rest]
  have hrouting' : t.affinityRouting = true := by rwa [affinityRouting, hctlr]
  rw [sendSgi_eq hrouting' self hv hid]
  refine ⟨h.rest, ?_, ?_⟩
  · intro u hu
    rw [modifyBank_bank]
    split_ifs with huv
    · subst huv
      by_cases hbefore : targets u
      · rw [h.received u hbefore, receiveSgi_receiveSgi]
      · rw [h.others u hbefore]
    · exact h.received u (hu.resolve_right huv)
  · intro u hu
    rw [not_or] at hu
    rw [modifyBank_bank, if_neg hu.2]
    exact h.others u hu.1

theorem foldl_sendSgi (hrouting : g.affinityRouting = true) (self : ℕ) (hid : intid < maxSgi)
    {target : ℕ → Option ℕ} {send : GicD → ℕ → GicD}
    (hnone : ∀ t i, target i = none → send t i = t)
    (hsome : ∀ t i v, target i = some v → send t i = t.sendSgi self v intid) {ts : List ℕ}
    (htarget : ∀ i ∈ ts, ∀ v, target i = some v → v < 2 ^ 31) :
    Received g (ts.foldl send g) intid fun v => ∃ i ∈ ts, target i = some v := by
  induction ts using List.reverseRecOn with
  | nil =>
    apply refl
    rintro v ⟨i, hi, -⟩
    cases hi
  | append_singleton ts i ih =>
    have ih := ih fun j hj => htarget j (List.mem_append_left _ hj)
    rw [List.foldl_append, List.foldl_cons, List.foldl_nil]
    cases hi : target i with
    | none =>
      rw [hnone _ i hi]
      apply ih.congr
      intro v
      simp [hi]
    | some v =>
      rw [hsome _ i v hi]
      have hv := htarget i (List.mem_append_right _ List.mem_cons_self) v hi
      apply (ih.sendSgi hrouting self hv hid).congr
      intro u
      simp [hi, eq_comm]

end Received

/-! ## The fields of the value -/

section Fields

variable (value : UInt64)

/-- `cluster_affinity`. -/
def clusterAffinity : UInt32 :=
  (((value >>> 16 &&& 0xff) <<< 8) ||| ((value >>> 32 &&& 0xff) <<< 16) |||
    ((value >>> 48 &&& 0xff) <<< 24)).toUInt32

theorem toNat_field (n : UInt64) (hn : n.toNat < 64) :
    (value >>> n &&& 0xff).toNat = value.toNat / 2 ^ n.toNat % 256 := by
  have hmask : (0xff : UInt64).toNat = 2 ^ 8 - 1 := rfl
  rw [UInt64.toNat_and, UInt64.toNat_shiftRight, hmask, Nat.and_two_pow_sub_one_eq_mod,
    Nat.shiftRight_eq_div_pow, Nat.mod_eq_of_lt hn]

theorem toNat_toUInt8_shiftRight (n : UInt64) (hn : n.toNat < 64) :
    (value >>> n).toUInt8.toNat = value.toNat / 2 ^ n.toNat % 256 := by
  rw [UInt64.toNat_toUInt8, UInt64.toNat_shiftRight, Nat.shiftRight_eq_div_pow,
    Nat.mod_eq_of_lt hn]

/-- The affinity of the cluster has the three fields of the value. -/
theorem clusterAffinity_toNat : (clusterAffinity value).toNat =
    value.toNat / 2 ^ 48 % 256 * 2 ^ 24 + (value.toNat / 2 ^ 32 % 256 * 2 ^ 16 +
      value.toNat / 2 ^ 16 % 256 * 2 ^ 8) := by
  have h1 := toNat_field value 16 (by decide)
  have h2 := toNat_field value 32 (by decide)
  have h3 := toNat_field value 48 (by decide)
  have h16 : (16 : UInt64).toNat = 16 := rfl
  have h32 : (32 : UInt64).toNat = 32 := rfl
  have h48 : (48 : UInt64).toNat = 48 := rfl
  rw [h16] at h1
  rw [h32] at h2
  rw [h48] at h3
  have hlt1 : value.toNat / 2 ^ 16 % 256 < 256 := Nat.mod_lt _ (by decide)
  have hlt2 : value.toNat / 2 ^ 32 % 256 < 256 := Nat.mod_lt _ (by decide)
  have hlt3 : value.toNat / 2 ^ 48 % 256 < 256 := Nat.mod_lt _ (by decide)
  generalize value.toNat / 2 ^ 16 % 256 = aff1 at *
  generalize value.toNat / 2 ^ 32 % 256 = aff2 at *
  generalize value.toNat / 2 ^ 48 % 256 = aff3 at *
  have hshift1 : ((value >>> 16 &&& 0xff) <<< 8).toNat = aff1 <<< 8 := by
    rw [UInt64.toNat_shiftLeft, h1, Nat.shiftLeft_eq, Nat.shiftLeft_eq]
    exact Nat.mod_eq_of_lt (by change aff1 * 2 ^ 8 < 2 ^ 64; omega)
  have hshift2 : ((value >>> 32 &&& 0xff) <<< 16).toNat = aff2 <<< 16 := by
    rw [UInt64.toNat_shiftLeft, h2, Nat.shiftLeft_eq, Nat.shiftLeft_eq]
    exact Nat.mod_eq_of_lt (by change aff2 * 2 ^ 16 < 2 ^ 64; omega)
  have hshift3 : ((value >>> 48 &&& 0xff) <<< 24).toNat = aff3 <<< 24 := by
    rw [UInt64.toNat_shiftLeft, h3, Nat.shiftLeft_eq, Nat.shiftLeft_eq]
    exact Nat.mod_eq_of_lt (by change aff3 * 2 ^ 24 < 2 ^ 64; omega)
  have hlow : aff1 <<< 8 < 2 ^ 16 := by rw [Nat.shiftLeft_eq]; omega
  have hmid : aff2 <<< 16 + aff1 <<< 8 < 2 ^ 24 := by
    rw [Nat.shiftLeft_eq, Nat.shiftLeft_eq]
    omega
  rw [clusterAffinity, UInt64.toNat_toUInt32, UInt64.toNat_or, UInt64.toNat_or, hshift1, hshift2,
    hshift3, Nat.or_comm, Nat.or_comm (aff1 <<< 8), ← Nat.shiftLeft_add_eq_or_of_lt hlow,
    ← Nat.shiftLeft_add_eq_or_of_lt hmid, Nat.shiftLeft_eq, Nat.shiftLeft_eq, Nat.shiftLeft_eq]
  omega

/-- An affinity is in the cluster that the value names if it has the fields of the value. -/
theorem clusterRange_clusterAffinity_iff (a : CpuAffinity) :
    clusterRange a = clusterRange ⟨clusterAffinity value⟩ ↔
      a.aff1 = (value >>> 16).toUInt8 ∧ a.aff2 = (value >>> 32).toUInt8 ∧
        a.aff3 = (value >>> 48).toUInt8 := by
  have h1 := toNat_toUInt8_shiftRight value 16 (by decide)
  have h2 := toNat_toUInt8_shiftRight value 32 (by decide)
  have h3 := toNat_toUInt8_shiftRight value 48 (by decide)
  have h16 : (16 : UInt64).toNat = 16 := rfl
  have h32 : (32 : UInt64).toNat = 32 := rfl
  have h48 : (48 : UInt64).toNat = 48 := rfl
  rw [h16] at h1
  rw [h32] at h2
  rw [h48] at h3
  -- the fields of the affinity are those of what is left of it without the place
  have hshift : ∀ n : UInt32, n.toNat < 32 → (a.aff >>> n).toNat = a.aff.toNat / 2 ^ n.toNat := by
    intro n hn
    rw [UInt32.toNat_shiftRight, Nat.shiftRight_eq_div_pow, Nat.mod_eq_of_lt hn]
  have ha1 : a.aff1.toNat = a.aff.toNat / 256 % 256 := by
    rw [CpuAffinity.aff1, UInt32.toNat_toUInt8, hshift 8 (by decide)]
    rfl
  have ha2 : a.aff2.toNat = a.aff.toNat / 256 / 256 % 256 := by
    rw [CpuAffinity.aff2, UInt32.toNat_toUInt8, hshift 16 (by decide), Nat.div_div_eq_div_mul]
    rfl
  have ha3 : a.aff3.toNat = a.aff.toNat / 256 / 65536 % 256 := by
    rw [CpuAffinity.aff3, UInt32.toNat_toUInt8, hshift 24 (by decide), Nat.div_div_eq_div_mul]
    rfl
  have hlt : a.aff.toNat / 256 < 2 ^ 24 := by
    have := a.aff.toNat_lt
    omega
  rw [clusterRange_inj, clusterAffinity_toNat, ← UInt8.toNat_inj, ← UInt8.toNat_inj,
    ← UInt8.toNat_inj, h1, h2, h3, ha1, ha2, ha3]
  generalize a.aff.toNat / 256 = cluster at hlt ⊢
  have hlt1 : value.toNat / 2 ^ 16 % 256 < 256 := Nat.mod_lt _ (by decide)
  have hlt2 : value.toNat / 2 ^ 32 % 256 < 256 := Nat.mod_lt _ (by decide)
  have hlt3 : value.toNat / 2 ^ 48 % 256 < 256 := Nat.mod_lt _ (by decide)
  generalize value.toNat / 2 ^ 16 % 256 = aff1 at hlt1 ⊢
  generalize value.toNat / 2 ^ 32 % 256 = aff2 at hlt2 ⊢
  generalize value.toNat / 2 ^ 48 % 256 = aff3 at hlt3 ⊢
  omega

theorem exists_aff (c : CpuAffinity) {i : ℕ} (hi : i < 256) :
    ∃ a, clusterRange a = clusterRange c ∧ a.aff0.toNat = i := by
  have hlt := c.aff.toNat_lt
  have hnat : (UInt32.ofNat (c.aff.toNat / 256 * 256 + i)).toNat =
      c.aff.toNat / 256 * 256 + i := UInt32.toNat_ofNat_of_lt' (by change _ < 2 ^ 32; omega)
  refine ⟨⟨UInt32.ofNat (c.aff.toNat / 256 * 256 + i)⟩, ?_, ?_⟩
  · rw [clusterRange_inj, hnat]
    omega
  · rw [CpuAffinity.aff0, UInt32.toNat_toUInt8, hnat]
    omega

theorem targets_bit {i : ℕ} (hi : i < 16) :
    ((value &&& 0xffff).toUInt16 &&& 1 <<< UInt16.ofNat i != 0) = value.toNat.testBit i := by
  have hmask : (0xffff : UInt64).toNat = 2 ^ 16 - 1 := rfl
  have hone : (1 : UInt16).toNat = 1 := rfl
  have hplace : (UInt16.ofNat i).toNat = i :=
    UInt16.toNat_ofNat_of_lt' (by change i < 2 ^ 16; omega)
  have hpow : 2 ^ i < 2 ^ 16 := Nat.pow_lt_pow_right (by decide) hi
  have hbit : (1 <<< UInt16.ofNat i : UInt16).toNat = 2 ^ i := by
    rw [UInt16.toNat_shiftLeft, hone, hplace, Nat.mod_eq_of_lt hi, Nat.one_shiftLeft,
      Nat.mod_eq_of_lt hpow]
  rw [Bool.eq_iff_iff, bne_iff_ne, ne_eq, ← UInt16.toNat_inj, UInt16.toNat_and, hbit,
    UInt64.toNat_toUInt16, UInt64.toNat_and, hmask, Nat.and_two_pow_sub_one_eq_mod,
    Nat.mod_mod, Nat.and_two_pow, Nat.testBit_mod_two_pow]
  cases value.toNat.testBit i <;> simp [hi]

theorem irm_bit : (value >>> 40 &&& 1 != 0) = value.toNat.testBit 40 := by
  have hmask : (1 : UInt64).toNat = 2 ^ 1 - 1 := rfl
  have h40 : (40 : UInt64).toNat % 64 = 40 := rfl
  rw [Bool.eq_iff_iff, bne_iff_ne, ne_eq, ← UInt64.toNat_inj, UInt64.toNat_and,
    UInt64.toNat_shiftRight, h40, hmask, Nat.and_two_pow_sub_one_eq_mod, UInt64.toNat_zero,
    Nat.testBit_eq_decide_div_mod_eq, decide_eq_true_iff, Nat.shiftRight_eq_div_pow]
  omega

end Fields

/-! ## The system register -/

section

variable {rs : List Registration} {m : ClustersMap} {g : GicD}

theorem vcpuId_eq_lastRegistered (hrun : Run Registers {} rs m) {c a : CpuAffinity}
    {ptr : CpuClusterPtr} (hptr : m.getClusterAt c = some ptr)
    (hsame : clusterRange a = clusterRange c) :
    ptr.cluster.vcpuId a.aff0.toNat = lastRegistered rs a := by
  rw [← (lookup_registered hrun).2, cpuAffinityToId, getClusterAt, hsame, ← getClusterAt, hptr]
  rfl

/-- With the routing mode bit the SGI is sent to all vCPUs but the sender. -/
theorem received_all (hrouting : g.affinityRouting = true) (hnum : g.numVcpus < 2 ^ 16)
    {value : UInt64} (hirm : value.toNat.testBit 40 = true) (self : ℕ) :
    Received g (g.iccSgi1rEl1 value self) (value >>> 24 &&& 0xf).toNat
      (SgiTarget rs g.numVcpus value self) := by
  have hid := toNat_and_lt_maxSgi (value >>> 24)
  rw [iccSgi1rEl1, if_pos ((irm_bit value).trans hirm)]
  have hsome : ∀ i v, (if i = self then none else some i) = some v ↔ i ≠ self ∧ i = v := by
    intro i v
    split_ifs with hi <;> simp [hi]
  refine Received.congr (@Received.foldl_sendSgi g _ hrouting self hid
    (fun i => if i = self then none else some i) _ ?_ ?_ (List.range g.numVcpus) ?_) ?_
  · intro t i hi
    split_ifs at hi with hself
    exact if_pos hself
  · intro t i v hi
    obtain ⟨hself, rfl⟩ := (hsome i v).1 hi
    exact if_neg hself
  · intro i hi v hv
    obtain ⟨-, rfl⟩ := (hsome i v).1 hv
    have hlt := List.mem_range.1 hi
    omega
  · intro v
    rw [SgiTarget, if_pos hirm]
    simp only [List.mem_range, hsome]
    constructor
    · rintro ⟨i, hi, hself, rfl⟩
      exact ⟨hi, hself⟩
    · rintro ⟨hv, hself⟩
      exact ⟨v, hv, hself, rfl⟩

/-- Without it the SGI is sent to the vCPUs of the cluster that are in the target list. -/
theorem received_listed (hrun : Run Registers {} rs m)
    (hclusters : g.clusters = m.cpuAffinityToCluster) (hrouting : g.affinityRouting = true)
    (hnum : g.numVcpus < 2 ^ 16) (hids : ∀ r ∈ rs, r.id < g.numVcpus)
    {value : UInt64} (hirm : value.toNat.testBit 40 = false) (self : ℕ) :
    Received g (g.iccSgi1rEl1 value self) (value >>> 24 &&& 0xf).toNat
      (SgiTarget rs g.numVcpus value self) := by
  have hid := toNat_and_lt_maxSgi (value >>> 24)
  have hirm' : ¬(value >>> 40 &&& 1 != 0) = true := by
    rw [irm_bit, hirm]
    exact Bool.false_ne_true
  have hcluster : g.clusters ((value >>> 16 &&& 0xff) <<< 8 ||| (value >>> 32 &&& 0xff) <<< 16 |||
      (value >>> 48 &&& 0xff) <<< 24).toUInt32 =
      (m.getClusterAt ⟨clusterAffinity value⟩).map fun ptr => ptr.cluster.vcpuId := by
    rw [hclusters, cpuAffinityToCluster, ← clusterAffinity]
  have htarget : ∀ v, SgiTarget rs g.numVcpus value self v ↔
      ∃ a, lastRegistered rs a = some v ∧ clusterRange a = clusterRange ⟨clusterAffinity value⟩ ∧
        a.aff0.toNat < 16 ∧ value.toNat.testBit a.aff0.toNat = true := by
    intro v
    rw [SgiTarget, hirm, if_neg Bool.false_ne_true]
    simp only [clusterRange_clusterAffinity_iff]
  rw [iccSgi1rEl1, if_neg hirm']
  rw [hcluster]
  cases hptr : m.getClusterAt ⟨clusterAffinity value⟩ with
  | none =>
    apply Received.refl
    intro v hv
    obtain ⟨a, ha, hsame, -⟩ := (htarget v).1 hv
    rw [← (lookup_registered hrun).2, cpuAffinityToId, getClusterAt, hsame, ← getClusterAt,
      hptr] at ha
    cases ha
  | some ptr =>
    have hplace : ∀ i < 16, ∀ v,
        (if (value &&& 0xffff).toUInt16 &&& 1 <<< UInt16.ofNat i != 0 then
          ptr.cluster.vcpuId i else none) = some v ↔
        ∃ a, lastRegistered rs a = some v ∧
          clusterRange a = clusterRange ⟨clusterAffinity value⟩ ∧ a.aff0.toNat = i ∧
          value.toNat.testBit i = true := by
      intro i hi v
      rw [targets_bit value hi]
      constructor
      · intro hv
        split_ifs at hv with hbit
        obtain ⟨a, hsame, rfl⟩ := exists_aff ⟨clusterAffinity value⟩ (Nat.lt_trans hi (by decide))
        rw [vcpuId_eq_lastRegistered hrun hptr hsame] at hv
        exact ⟨a, hv, hsame, rfl, hbit⟩
      · rintro ⟨a, ha, hsame, rfl, hbit⟩
        rw [if_pos hbit, vcpuId_eq_lastRegistered hrun hptr hsame, ha]
    refine Received.congr (@Received.foldl_sendSgi g _ hrouting self hid
      (fun i => if (value &&& 0xffff).toUInt16 &&& 1 <<< UInt16.ofNat i != 0 then
        ptr.cluster.vcpuId i else none) _ ?_ ?_ (List.range 16) ?_) ?_
    · intro t i hi
      dsimp only
      split_ifs at hi ⊢ with hbit
      · rw [hi]
      · rfl
    · intro t i v hi
      dsimp only
      split_ifs at hi ⊢ with hbit
      rw [hi]
    · intro i hi v hv
      obtain ⟨a, ha, -⟩ := (hplace i (List.mem_range.1 hi) v).1 hv
      obtain ⟨r, hr, rfl⟩ := lastRegistered_mem ha
      have hlt := hids r hr
      omega
    · intro v
      rw [htarget]
      constructor
      · rintro ⟨i, hi, hv⟩
        obtain ⟨a, ha, hsame, rfl, hbit⟩ := (hplace i (List.mem_range.1 hi) v).1 hv
        exact ⟨a, ha, hsame, List.mem_range.1 hi, hbit⟩
      · rintro ⟨a, ha, hsame, hi, hbit⟩
        exact ⟨_, List.mem_range.2 hi, (hplace _ hi v).2 ⟨a, ha, hsame, rfl, hbit⟩⟩

/-- **Exactly the vCPUs that the value names receive the SGI**, nothing else changes, and a search
for an affinity returns the vCPU that was last registered under it. -/
theorem sgi_received (hrun : Run Registers {} rs m)
    (hclusters : g.clusters = m.cpuAffinityToCluster) (hrouting : g.affinityRouting = true)
    (hnum : g.numVcpus < 2 ^ 16) (hids : ∀ r ∈ rs, r.id < g.numVcpus) (value : UInt64)
    (self : ℕ) :
    Received g (g.iccSgi1rEl1 value self) (value >>> 24 &&& 0xf).toNat
        (SgiTarget rs g.numVcpus value self) ∧
      ∀ a, m.cpuAffinityToId a = lastRegistered rs a := by
  refine ⟨?_, (lookup_registered hrun).2⟩
  cases hirm : value.toNat.testBit 40 with
  | false => exact received_listed hrun hclusters hrouting hnum hids hirm self
  | true => exact received_all hrouting hnum hirm self

end

/-! ## Two vCPUs -/

/-- Two vCPUs in a cluster, the second under two affinities. -/
def twoRegistrations : List Registration := [⟨0, ⟨0x100⟩⟩, ⟨1, ⟨0x101⟩⟩, ⟨1, ⟨0x103⟩⟩]

/-- The cluster that is made for them. -/
def twoClusters : ClustersMap :=
  twoRegistrations.foldl (fun m r => (m.addCpuWithAffinity r.id r.aff true).1) {}

/-- The distributor that finds them there, with affinity routing. -/
def twoRegistered : GicD :=
  { init .gicV3 2 64 with ctlr := 0x12, clusters := twoClusters.cpuAffinityToCluster }

theorem run_twoClusters : Run Registers {} twoRegistrations twoClusters := by
  refine .cons ⟨true, Prod.ext rfl ?_⟩ (.cons ⟨true, Prod.ext rfl ?_⟩
    (.cons ⟨true, Prod.ext rfl ?_⟩ .nil))
  · decide +kernel
  · decide +kernel
  · decide +kernel

/-- SGI 1 to the places 0, 2 and 3 of the cluster is received by the vCPU at place 3. -/
theorem sgi_received_listed : ((twoRegistered.iccSgi1rEl1 0x101000d 0).bank 1) =
    (twoRegistered.bank 1).receiveSgi 1 1 := by
  have hsent := (sgi_received run_twoClusters rfl (by decide) (by decide) (by decide)
    0x101000d 0 : Received twoRegistered _ _ _ ∧ _).1
  refine hsent.received 1 ?_
  rw [SgiTarget, if_neg (by decide)]
  exact ⟨⟨0x103⟩, by decide, by decide, by decide, by decide⟩

end GicD

end Vml
