import Vml.GicFlags
import Vml.GicIndices

/-!
# The pending registers of the distributor

ISPENDR and ICPENDR: a guest makes interrupts pending by writing ones to the first, and takes them
back by writing ones to the second (`mmioWrite_pend`). SGIs are to be left alone: they have
registers of their own.

**The stripped word.** `gicd.cpp` strips the SGIs from the value of a write to the first byte of a
register. A write that begins at the second byte keeps the bits of SGIs 8 to 15, so these become
pending, or stop being it, and `assert_pi_sw` is entered for an SGI, which it asserts it is not.

Main results: `GicD.sgis_ignored_iff`, `GicD.second_byte_pends`.
-/

namespace Vml

/-! ## Calls one after another -/

/-- What is seen after a list of calls, each of which does `e` to it or leaves it alone: `e` has
been done, and once is as good as often, if one of them does. -/
theorem view_foldl {σ α β : Type*} (view : σ → α) (hits : β → Prop) [DecidablePred hits]
    {P : σ → Prop} {f : σ → β → σ} {e : α → α} (he : ∀ a, e (e a) = e a)
    (hP : ∀ s b, P s → P (f s b))
    (hf : ∀ s b, P s → view (f s b) = if hits b then e (view s) else view s)
    (l : List β) {s : σ} (hs : P s) :
    view (l.foldl f s) = if ∃ b ∈ l, hits b then e (view s) else view s := by
  induction l generalizing s with
  | nil => simp
  | cons b l ih =>
      rw [List.foldl_cons, ih (hP s b hs), hf s b hs]
      by_cases hb : hits b <;> by_cases hl : ∃ b' ∈ l, hits b' <;> simp [hb, hl, he]

namespace GicD

variable {g : GicD} {cpu k : ℕ} {set : Bool} {bytes : UInt8} {value : UInt64}

/-! ## The calls of a write -/

/-- The interrupts that `mmio_assert` makes its call for. -/
def marked (acc : IrqMmioAccess) (value : UInt64) : List ℕ :=
  (acc.irqs.filter fun p => bitAt value p.1).map Prod.snd

theorem mmioAssert_eq (acc : IrqMmioAccess) (f : GicD → ℕ → GicD) :
    g.mmioAssert acc value f = (acc.isValid, (marked acc value).foldl f g) := by
  rw [mmioAssert, marked, List.foldl_map, List.foldl_filter]
  rfl

theorem mem_marked_iff {acc : IrqMmioAccess} {id : ℕ} :
    id ∈ marked acc value ↔ ∃ p ∈ acc.irqs, p.2 = id ∧ bitAt value p.1 = true := by
  rw [marked, List.mem_map]
  constructor
  · rintro ⟨p, hp, rfl⟩
    exact ⟨p, (List.mem_filter.1 hp).1, rfl, (List.mem_filter.1 hp).2⟩
  · rintro ⟨p, hp, rfl, hbit⟩
    exact ⟨p, List.mem_filter.2 ⟨hp, hbit⟩, rfl⟩

/-- Where ISPENDR begins, or ICPENDR. -/
def pendBase : Bool → UInt64
  | true => 0x200
  | false => 0x280

/-- The access that a write to the byte `k` of the register starts. -/
def pendAccess (g : GicD) (set : Bool) (k : ℕ) (bytes : UInt8) : IrqMmioAccess :=
  { g.irqMmioAccess (pendBase set + UInt64.ofNat k) bytes .all with baseAbs := pendBase set }

/-- What the write calls for an interrupt: `assert_pi_sw`, or `deassert_pi_sw`. -/
def pendCall (cpu : ℕ) : Bool → GicD → ℕ → GicD
  | true, g, id => (g.assertPiSw cpu cpu id).2
  | false, g, id => (g.deassertPiSw cpu id).2

/-- The interrupts that it calls it for. -/
def pendCalls (g : GicD) (set : Bool) (k : ℕ) (bytes : UInt8) (value : UInt64) : List ℕ :=
  marked (g.pendAccess set k bytes)
    (stripSgis (pendBase set + UInt64.ofNat k) (pendBase set) value)

/-- What makes an interrupt pending on a vCPU. -/
structure PendingState where
  lineAsserted : Bool
  swAsserted : Bool
  pendingBits : Finset ℕ
  announced : Bool
  deriving DecidableEq

/-- The pending state of the interrupt `id`, as the vCPU `c` sees it. -/
def pendingState (g : GicD) (c id : ℕ) : PendingState where
  lineAsserted := (g.irqObject c id).lineAsserted
  swAsserted := (g.irqObject c id).swAsserted
  pendingBits := (g.irqObject c id).injectionInfo.pendingBits
  announced := (g.bank c).pendingIrqs id

/-- **SGIs are ignored** by a write: each has the pending state that it had, on every vCPU, and
without affinity routing no call is made for one, as the assertions of the calls ask. -/
structure SgisIgnored (g : GicD) (cpu : ℕ) (set : Bool) (k : ℕ) (bytes : UInt8) (value : UInt64) :
    Prop where
  kept : ∀ c id, id < maxSgi →
    (g.mmioWrite cpu (pendBase set + UInt64.ofNat k) bytes value).2.pendingState c id =
      g.pendingState c id
  notEntered : g.affinityRouting = false → ∀ id ∈ g.pendCalls set k bytes value, ppiBase ≤ id

/-- The interrupt has the pending state that the call gives it. -/
def PendedAlready (g : GicD) (cpu id : ℕ) : Bool → Prop
  | true => (g.irqObject cpu id).swAsserted = true ∧
      (g.irqObject cpu id).injectionInfo.pendingBits = {0} ∧ (g.bank cpu).pendingIrqs id = true
  | false => (g.irqObject cpu id).swAsserted = false ∧
      ((g.irqObject cpu id).hw = true ∨ (g.irqObject cpu id).injectionInfo.pendingBits = ∅)

/-- A write that begins at the second byte marks no SGI; or affinity routing is on, and those that
it marks have the pending state that it gives them. -/
def SgisSpared (g : GicD) (cpu : ℕ) (set : Bool) (k : ℕ) (bytes : UInt8) (value : UInt64) : Prop :=
  k = 1 → ∀ id < maxSgi, g.Marked k bytes.toNat value id →
    g.affinityRouting = true ∧ g.PendedAlready cpu id set

/-! ## What the registers do -/

theorem toNat_pendBase_le (set : Bool) : (pendBase set).toNat ≤ 0x380 := by
  cases set <;> decide

theorem within_pend (hk : k < 128) :
    within (pendBase set + UInt64.ofNat k) (pendBase set) (pendBase set + 0x7f) = true := by
  refine within_window _ _ _ ((toNat_pendBase_le set).trans (by decide)) (by omega)
    (Nat.le_add_right _ k) ?_
  have hlast : (pendBase set + 0x7f).toNat = (pendBase set).toNat + 0x7f := by
    cases set <;> rfl
  omega

theorem mmioWrite32OrLess_pend {acc : IrqMmioAccess}
    (h : within acc.offset (pendBase set) (pendBase set + 0x7f) = true) :
    g.mmioWrite32OrLess cpu acc value = g.mmioAssert { acc with baseAbs := pendBase set }
      (stripSgis acc.offset (pendBase set) value) (pendCall cpu set) := by
  have hnot {first last : UInt64} (hdisjoint : pendBase set + 0x7f < first ∨ last < pendBase set) :
      ¬within acc.offset first last = true :=
    Bool.not_eq_true _ ▸ within_of_disjoint h hdisjoint
  rw [mmioWrite32OrLess]
  dsimp only
  cases set with
  | true =>
      rw [if_neg (hnot (by decide)), if_neg (hnot (by decide)), if_neg (hnot (by decide)),
        if_neg (hnot (by decide))]
      exact if_pos h
  | false =>
      rw [if_neg (hnot (by decide)), if_neg (hnot (by decide)), if_neg (hnot (by decide)),
        if_neg (hnot (by decide)), if_neg (hnot (by decide))]
      exact if_pos h

/-- **A write makes its call for one interrupt after another.** -/
theorem mmioWrite_pend (hcpu : cpu < g.numVcpus) (hk : k < 128) (hbytes : bytes ≤ 4) :
    (g.mmioWrite cpu (pendBase set + UInt64.ofNat k) bytes value).2 =
      (g.pendCalls set k bytes value).foldl (pendCall cpu set) g := by
  rw [mmioWrite_eq hcpu hbytes (within_low _ (toNat_pendBase_le set) hk),
    mmioWrite32OrLess_pend (within_pend hk), mmioAssert_eq]
  rfl

theorem testBit_stripSgis (offset : UInt64) {i : ℕ} (hi : i < maxSgi) :
    (stripSgis offset offset value).toNat.testBit i = false := by
  have hmask : (~~~0xffff : UInt64).toNat = 2 ^ 64 - (2 ^ 16 - 1 + 1) := rfl
  rw [stripSgis, if_pos rfl, UInt64.toNat_and, Nat.testBit_and, hmask,
    Nat.testBit_two_pow_sub_succ (by decide), Nat.testBit_two_pow_sub_one, decide_eq_true hi,
    Bool.not_true, Bool.and_false, Bool.and_false]

/-- **The SGIs that a write makes its call for** are those that a write to the second byte marks. -/
theorem mem_pendCalls_iff (hconf : g.configuredIrqs ≤ maxIrqNoLpi) (hk : k < 128)
    (hbytes : bytes ≤ 4) {id : ℕ} (hid : id < maxSgi) :
    id ∈ g.pendCalls set k bytes value ↔ k = 1 ∧ g.Marked k bytes.toNat value id := by
  have hbase := (toNat_pendBase_le set).trans (show 0x380 ≤ 0xffff by decide)
  have hacc : g.Bitwise (g.pendAccess set k bytes) k := bitwise_window _ hbase hconf hk hbytes
  rw [pendCalls, mem_marked_iff, hacc.exists_mem_irqs_iff]
  have h16 : maxSgi = 16 := rfl
  by_cases hzero : k = 0
  · subst hzero
    have hfirst : pendBase set + UInt64.ofNat 0 = pendBase set := by cases set <;> rfl
    rw [hfirst]
    refine iff_of_false ?_ fun h => absurd h.1 Nat.zero_ne_one
    rintro ⟨-, -, -, hbit⟩
    rw [Nat.mul_zero, Nat.sub_zero, testBit_stripSgis _ hid] at hbit
    cases hbit
  · have hother : pendBase set + UInt64.ofNat k ≠ pendBase set := by
      intro heq
      have hsum := toNat_window (pendBase set) hbase (show k < 1024 by omega)
      rw [heq] at hsum
      omega
    rw [stripSgis, if_neg hother]
    refine ⟨fun hmarked => ⟨?_, hmarked⟩, fun h => h.2⟩
    have hlow := hmarked.2.1
    omega

/-! ## What the calls do to an SGI -/

/-- What there is to see of an interrupt on a vCPU: its state, and its bit in `pending_irqs`. -/
def seenAt (g : GicD) (c id : ℕ) : Irq × Bool := (g.irqObject c id, (g.bank c).pendingIrqs id)

/-- What the call makes of that. -/
def afterPend (cpu : ℕ) : Bool → Irq × Bool → Irq × Bool
  | true, s =>
      ({ s.1 with swAsserted := true, injectionInfo := .asserted (.ofCpuId cpu) }, true)
  | false, s =>
      ({ s.1 with
        swAsserted := false
        injectionInfo := if s.1.hw then s.1.injectionInfo else {} }, s.2)

theorem afterPend_afterPend (set : Bool) (s : Irq × Bool) :
    afterPend cpu set (afterPend cpu set s) = afterPend cpu set s := by
  cases set with
  | true => rfl
  | false =>
      rw [afterPend, afterPend]
      dsimp only
      split_ifs <;> rfl

/-- What `assert_pi` does to an SGI of the vCPU that it is called for, and to the others. -/
theorem seenAt_assertPi (hcpu : cpu < 2 ^ 31) (id : ℕ) {n : ℕ} (hn : n < maxSgi) (c : ℕ) :
    (g.assertPi cpu cpu id).2.seenAt c n =
      if c = cpu ∧ n = id then
        ({ g.irqObject c n with injectionInfo := .asserted (.ofCpuId cpu) }, true)
      else g.seenAt c n := by
  have h16 : maxSgi = 16 := rfl
  have h32 : spiBase = 32 := rfl
  have hbump (g' : GicD) (heq : g' = if spiBase ≤ id then g.bumpHint else g) :
      g'.irqObject c n = g.irqObject c n ∧ g'.bank = g.bank := by
    rw [heq]
    split_ifs
    · exact ⟨rfl, rfl⟩
    · exact ⟨rfl, rfl⟩
  rw [assertPi]
  dsimp only
  generalize hg' : (if spiBase ≤ id then g.bumpHint else g) = g'
  obtain ⟨hirq, hbank⟩ := hbump g' hg'.symm
  generalize htarget : (if spiBase ≤ id then
    g'.routeSpi (g'.irqObject cpu id) g'.vcpuGlobalHint.toNat else .ofCpuId cpu) = target
  have hpend := (g'.setInfo_field cpu id (.asserted target) Banked.pendingIrqs
    (fun _ _ => rfl) c).trans (congrArg (fun b => (b c).pendingIrqs) hbank)
  rw [seenAt, notifyTarget_pendingIrqs, (announced_notifyTarget ..).irqObject, setInfo_irqObject,
    hirq, hpend]
  by_cases hid : n = id
  · subst hid
    rw [if_neg (by omega)] at htarget
    rw [← htarget, notified_ofCpuId, Nat.mod_eq_of_lt hcpu]
    have hshares : Shares n c cpu ↔ c = cpu := or_iff_right (by omega)
    simp only [true_and, and_true, hshares, List.mem_singleton]
    split_ifs
    · rfl
    · rfl
  · rw [if_neg fun h => hid h.1, if_neg fun h => hid h.2, if_neg fun h => hid h.2]
    rfl

/-- **What the calls do to SGIs.** -/
theorem seenAt_pendCall (hcpu : cpu < 2 ^ 31) (id : ℕ) {n : ℕ} (hn : n < maxSgi) (c : ℕ) :
    (pendCall cpu set g id).seenAt c n =
      if c = cpu ∧ n = id then afterPend cpu set (g.seenAt c n) else g.seenAt c n := by
  have h16 : maxSgi = 16 := rfl
  have h32 : spiBase = 32 := rfl
  cases set with
  | true =>
      rw [pendCall, assertPiSw, seenAt_assertPi hcpu id hn, seenAt, modifyIrq_irqObject,
        g.modifyIrq_field cpu id _ Banked.pendingIrqs fun _ _ => rfl]
      by_cases hid : n = id
      · subst hid
        have hshares : Shares n c cpu ↔ c = cpu := or_iff_right (by omega)
        simp only [true_and, and_true, hshares]
        split_ifs
        · rfl
        · rfl
      · rw [if_neg fun h => hid h.2, if_neg fun h => hid h.1, if_neg fun h => hid h.2]
        rfl
  | false =>
      have hsw := g.modifyIrq_irqObject cpu id ({ · with swAsserted := false })
      have hpend := g.modifyIrq_field cpu id ({ · with swAsserted := false }) Banked.pendingIrqs
        (fun _ _ => rfl) c
      rw [pendCall, deassertPiSw]
      generalize g.modifyIrq cpu id ({ · with swAsserted := false }) = g' at hsw hpend ⊢
      have hself : (g'.irqObject cpu id).hw = (g.irqObject cpu id).hw := by
        rw [hsw, if_pos ⟨rfl, .inr rfl⟩]
      have hpend' : ((g'.deassertPi cpu id).2.bank c).pendingIrqs = (g.bank c).pendingIrqs := by
        rw [deassertPi, ← hpend]
        split_ifs
        · rfl
        · exact g'.setInfo_field cpu id {} Banked.pendingIrqs (fun _ _ => rfl) c
      have hirq : (g'.deassertPi cpu id).2.irqObject c n =
          if n = id ∧ Shares id c cpu ∧ (g.irqObject cpu id).hw = false then
            { g'.irqObject c n with injectionInfo := {} }
          else g'.irqObject c n := by
        rw [deassertPi, hself]
        cases hhw : (g.irqObject cpu id).hw with
        | true => simp
        | false => simp [setInfo_irqObject]
      rw [seenAt, hpend', hirq, hsw]
      by_cases hid : n = id
      · subst hid
        have hshares : Shares n c cpu ↔ c = cpu := or_iff_right (by omega)
        by_cases hc : c = cpu
        · subst hc
          cases hhw : (g.irqObject c n).hw with
          | true => simp [hshares, afterPend, seenAt, hhw]
          | false => simp [hshares, afterPend, seenAt, hhw]
        · simp [hshares, hc, seenAt]
      · simp [hid, seenAt]

/-- **What a write does to SGIs**: its call, to those that it makes it for. -/
theorem seenAt_mmioWrite (hconf : g.configuredIrqs ≤ maxIrqNoLpi) (hnum : g.numVcpus < 2 ^ 16)
    (hcpu : cpu < g.numVcpus) (hk : k < 128) (hbytes : bytes ≤ 4) (c : ℕ) {n : ℕ}
    (hn : n < maxSgi) :
    (g.mmioWrite cpu (pendBase set + UInt64.ofNat k) bytes value).2.seenAt c n =
      if c = cpu ∧ k = 1 ∧ g.Marked k bytes.toNat value n then afterPend cpu set (g.seenAt c n)
      else g.seenAt c n := by
  have hfold := view_foldl (fun g : GicD => g.seenAt c n) (fun id => c = cpu ∧ n = id)
    (P := fun _ => True) (f := pendCall cpu set) (afterPend_afterPend set) (fun _ _ _ => trivial)
    (fun g id _ => seenAt_pendCall (show cpu < 2 ^ 31 by omega) id hn c)
    (g.pendCalls set k bytes value) (s := g) trivial
  rw [mmioWrite_pend hcpu hk hbytes, hfold]
  refine if_congr ?_ rfl rfl
  rw [← @mem_pendCalls_iff g k set bytes value hconf hk hbytes n hn]
  constructor
  · rintro ⟨id, hid, rfl, rfl⟩
    exact ⟨rfl, hid⟩
  · rintro ⟨rfl, hid⟩
    exact ⟨n, hid, rfl, rfl⟩

/-! ## SGIs are ignored -/

theorem pendingState_eq_of_seenAt {g' : GicD} {c id : ℕ} (h : g'.seenAt c id = g.seenAt c id) :
    g'.pendingState c id = g.pendingState c id := by
  have hirq : g'.irqObject c id = g.irqObject c id := congrArg Prod.fst h
  have hpend : (g'.bank c).pendingIrqs id = (g.bank c).pendingIrqs id := congrArg Prod.snd h
  rw [pendingState, pendingState, hirq, hpend]

/-- The call leaves the pending state alone when the interrupt has it already. -/
theorem pendingState_eq_iff {g' : GicD} {id : ℕ}
    (h : g'.seenAt cpu id = afterPend cpu set (g.seenAt cpu id)) :
    g'.pendingState cpu id = g.pendingState cpu id ↔ g.PendedAlready cpu id set := by
  have hirq := congrArg Prod.fst h
  have hpend : (g'.bank cpu).pendingIrqs id = _ := congrArg Prod.snd h
  replace hirq : g'.irqObject cpu id = _ := hirq
  rw [pendingState, pendingState, hirq, hpend, PendingState.mk.injEq]
  cases set with
  | true =>
      simp only [afterPend, seenAt, PendedAlready, IrqInjectionInfo.asserted, true_and]
      exact and_congr eq_comm (and_congr eq_comm eq_comm)
  | false =>
      have hsame : (g.seenAt cpu id).2 = (g.bank cpu).pendingIrqs id := rfl
      simp only [afterPend, PendedAlready, hsame, and_true]
      by_cases hhw : (g.seenAt cpu id).1.hw = true
      · rw [if_pos hhw]
        exact (and_iff_right rfl).trans (and_congr eq_comm (iff_of_true rfl (.inl hhw)))
      · rw [if_neg hhw]
        exact (and_iff_right rfl).trans
          (and_congr eq_comm (eq_comm.trans (or_iff_right hhw).symm))

/-- **SGIs are ignored** in ISPENDR and ICPENDR, unless the write begins at the second byte and marks
one, and affinity routing is off or the mark changes its pending state. -/
theorem sgis_ignored_iff (hconf : g.configuredIrqs ≤ maxIrqNoLpi) (hnum : g.numVcpus < 2 ^ 16)
    (hcpu : cpu < g.numVcpus) (hk : k < 128) (hbytes : bytes ≤ 4) :
    g.SgisIgnored cpu set k bytes value ↔ g.SgisSpared cpu set k bytes value := by
  have hseen {id : ℕ} (hid : id < maxSgi) (c : ℕ) :=
    @seenAt_mmioWrite g cpu k set bytes value hconf hnum hcpu hk hbytes c id hid
  constructor
  · rintro ⟨hkept, hnot⟩ hone id hid hmarked
    constructor
    · -- The call is made for the SGI, so affinity routing is on.
      have hcall : id ∈ g.pendCalls set k bytes value :=
        (mem_pendCalls_iff hconf hk hbytes hid).2 ⟨hone, hmarked⟩
      by_contra hoff
      exact absurd (hnot (Bool.eq_false_iff.2 hoff) id hcall) (Nat.not_le.2 hid)
    · have hstep := hseen hid cpu
      rw [if_pos ⟨rfl, hone, hmarked⟩] at hstep
      exact (pendingState_eq_iff hstep).1 (hkept cpu id hid)
  · intro hspared
    refine ⟨fun c id hid => ?_, fun hoff id hcall => ?_⟩
    · have hstep := hseen hid c
      split_ifs at hstep with hhit
      · obtain ⟨rfl, hone, hmarked⟩ := hhit
        exact (pendingState_eq_iff hstep).2 (hspared hone id hid hmarked).2
      · exact pendingState_eq_of_seenAt hstep
    · by_contra hlow
      have hid : id < maxSgi := Nat.not_le.1 hlow
      obtain ⟨hone, hmarked⟩ := (mem_pendCalls_iff hconf hk hbytes hid).1 hcall
      rw [(hspared hone id hid hmarked).1] at hoff
      cases hoff

/-- Two vCPUs, without affinity routing. -/
def twoVcpus : GicD := init .gicV2 2 64

/-- **SGI 8 becomes pending** by a write of a byte to `0x201`. -/
theorem second_byte_pends : ¬twoVcpus.SgisIgnored 0 true 1 1 1 ∧
    8 ∈ twoVcpus.pendCalls true 1 1 1 ∧
      ((twoVcpus.mmioWrite 0 0x201 1 1).2.irqObject 0 8).pending = true := by
  have hcall : 8 ∈ twoVcpus.pendCalls true 1 1 1 := by decide +kernel
  refine ⟨fun hignored => ?_, hcall, by decide +kernel⟩
  exact absurd (hignored.notEntered (by decide) 8 hcall) (by decide)

/-- A write of a word to the beginning of the register leaves the SGIs alone. -/
theorem first_word_ignored : twoVcpus.SgisIgnored 0 true 0 4 0xffffffff :=
  (sgis_ignored_iff (by decide) (by decide) (by decide) (by decide) (by decide)).2
    fun hone => absurd hone Nat.zero_ne_one

end GicD

end Vml
