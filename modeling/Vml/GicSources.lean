import Vml.GicPending

/-!
# The source registers of SGIs

SPENDSGIR and CPENDSGIR: without affinity routing, a byte of these registers belongs to an SGI and
a bit of the byte to the vCPU that sends it. A guest adds senders by writing ones to the first and
takes them away by writing ones to the second, and reads the senders from either.

**Sender and target.** `mmio_assert_sgi` calls `assert_sgi` with the vCPU that writes, and then with
the number of the bit. The parameters of `assert_sgi` are the sender, and then the target, so
whatever the bits are, the sender that is added or taken away is the vCPU that writes
(`pendingBits_sgiCall`).

**The bits of a byte.** `read_pending` reads each byte as a `bool`, so that it shows whether the SGI
is pending, and not which vCPUs have sent it (`showsSources_iff`).

Main results: `GicD.sources_exact_iff`, `GicD.sender_is_writer`.
-/

namespace Vml

namespace GicD

variable {g : GicD} {cpu k : ℕ} {set : Bool} {bytes : UInt8} {value : UInt64}

/-! ## The registers -/

/-- Where SPENDSGIR begins, or CPENDSGIR. -/
def sourceBase : Bool → UInt64
  | true => 0xf20
  | false => 0xf10

/-- The access that a write or a read of the byte `k` of the register starts. -/
def sourceAccess (g : GicD) (set : Bool) (k : ℕ) (bytes : UInt8) : IrqMmioAccess :=
  { g.irqMmioAccess (sourceBase set + UInt64.ofNat k) bytes .all with
    irqPerBytes := 1, irqMax := 16, baseAbs := sourceBase set }

/-- The senders whose bits are set in the byte of the value that belongs to the SGI `n`, if a write
that begins at the byte `k` has one for it. -/
def sourcesOf (k n : ℕ) (bytes : UInt8) (value : UInt64) : Finset ℕ :=
  (Finset.range gicv2MaxCpus).filter fun j =>
    k ≤ n ∧ n < k + bytes.toNat ∧ value.toNat.testBit (8 * (n - k) + j) = true

theorem sourcesOf_eq_empty {n : ℕ} (hout : ¬(k ≤ n ∧ n < k + bytes.toNat)) :
    sourcesOf k n bytes value = ∅ :=
  Finset.filter_eq_empty_iff.2 fun _ _ hj => hout ⟨hj.1, hj.2.1⟩

/-- The vCPUs whose SGI `n` is pending on `c`. -/
def sources (g : GicD) (c n : ℕ) : Finset ℕ := (g.irqObject c n).injectionInfo.pendingBits

/-- What should become of them: the senders of the write are added, or taken away. -/
def sourcesWanted (g : GicD) (cpu : ℕ) (set : Bool) (k : ℕ) (bytes : UInt8) (value : UInt64)
    (n : ℕ) : Finset ℕ :=
  if set then g.sources cpu n ∪ sourcesOf k n bytes value
  else g.sources cpu n \ sourcesOf k n bytes value

/-- **What a read should show**: in the byte of every SGI its senders. -/
def ShowsSources (g : GicD) (cpu : ℕ) (set : Bool) (k : ℕ) (bytes : UInt8) : Prop :=
  ∃ v, g.mmioRead cpu (sourceBase set + UInt64.ofNat k) bytes = .shows v ∧
    ∀ n < maxSgi, k ≤ n → n < k + bytes.toNat → ∀ j < gicv2MaxCpus,
      v.toNat.testBit (8 * (n - k) + j) = decide (j ∈ g.sources cpu n)

/-- **A write is exact**: it adds or takes away the senders of its bytes, and nothing else becomes
pending or stops being it; and what is read next are the senders. -/
structure SourcesExact (g : GicD) (cpu : ℕ) (set : Bool) (k : ℕ) (bytes : UInt8) (value : UInt64) :
    Prop where
  addressed : ∀ n < maxSgi, k ≤ n → n < k + bytes.toNat →
    (g.mmioWrite cpu (sourceBase set + UInt64.ofNat k) bytes value).2.sources cpu n =
      g.sourcesWanted cpu set k bytes value n
  others : ∀ c, ∀ n < maxSgi, ¬(c = cpu ∧ k ≤ n ∧ n < k + bytes.toNat) →
    (g.mmioWrite cpu (sourceBase set + UInt64.ofNat k) bytes value).2.pendingState c n =
      g.pendingState c n
  reads : ∀ set', ∀ k' < maxSgi, ∀ bytes' ≤ 4,
    (g.mmioWrite cpu (sourceBase set + UInt64.ofNat k) bytes value).2.ShowsSources cpu set' k'
      bytes'

/-- The interrupt is pending without a sender. -/
def raised (irq : Irq) : Bool := (!irq.swEdge && irq.lineAsserted) || irq.swAsserted

/-- Of every SGI of the vCPU, vCPU 0 is the only sender that there should be afterwards, and if it
is not one, the SGI is not pending otherwise. If the write has senders for the SGI, then vCPU 0
writes, or what it writes is so already; or it takes away the vCPU that writes and no other sender
that there is. -/
def SourcesSpared (g : GicD) (cpu : ℕ) (set : Bool) (k : ℕ) (bytes : UInt8) (value : UInt64) :
    Prop :=
  ∀ n < maxSgi, g.sourcesWanted cpu set k bytes value n ⊆ {0} ∧
    (g.sourcesWanted cpu set k bytes value n = ∅ → raised (g.irqObject cpu n) = false) ∧
    (sourcesOf k n bytes value ≠ ∅ →
      if set then cpu = 0 ∨ gicv2MaxCpus ≤ cpu ∧ 0 ∈ g.sources cpu n
      else ∀ s ∈ g.sources cpu n,
        s ∈ sourcesOf k n bytes value ↔ cpu < gicv2MaxCpus ∧ s = cpu)

/-! ## The calls of a write -/

/-- What the write calls for a sender and an SGI: `assert_sgi`, or `deassert_sgi`. -/
def sgiCall (cpu : ℕ) : Bool → GicD → ℕ × ℕ → GicD
  | true, g, p => (g.assertSgi cpu p.1 cpu p.2).2
  | false, g, p => (g.deassertSgi cpu cpu p.2).2

/-- The bits that `mmio_assert_sgi` makes its call for, each with its SGI. -/
def sgiCalls (acc : IrqMmioAccess) (value : UInt64) : List (ℕ × ℕ) :=
  acc.irqs.flatMap fun p =>
    ((List.range gicv2MaxCpus).filter (sendsTo value p.1)).map fun j => (j, p.2)

theorem mmioAssertSgi_eq (acc : IrqMmioAccess) (f : GicD → ℕ → ℕ → GicD) :
    g.mmioAssertSgi acc value f =
      (acc.isValid, (sgiCalls acc value).foldl (fun g p => f g p.1 p.2) g) := by
  rw [mmioAssertSgi, sgiCalls, List.foldl_flatMap]
  simp only [List.foldl_map, List.foldl_filter]
  rfl

theorem sendsTo_eq_testBit (value : UInt64) {i j : ℕ} (hi : i < 4) (hj : j < gicv2MaxCpus) :
    sendsTo value i j = value.toNat.testBit (8 * i + j) := by
  replace hj : j < 8 := hj
  have hshift : (UInt64.ofNat (i * gicv2MaxCpus)).toNat % 64 = 8 * i := by
    have h8 : i * gicv2MaxCpus = 8 * i := Nat.mul_comm i 8
    have hsize : 8 * i < UInt64.size := Nat.lt_trans (show 8 * i < 64 by omega) (by decide)
    rw [h8, UInt64.toNat_ofNat_of_lt' hsize, Nat.mod_eq_of_lt (by omega)]
  have hshift' : (UInt8.ofNat j).toNat % 8 = j := by
    rw [UInt8.toNat_ofNat_of_lt' (Nat.lt_trans hj (by decide)), Nat.mod_eq_of_lt hj]
  have hone : (1 : UInt8).toNat = 1 := rfl
  have hbit (x : ℕ) : x % 2 = 0 ↔ x.testBit 0 = false := by
    rw [Nat.testBit_zero, decide_eq_false_iff_not]
    omega
  have hiff : ((value >>> UInt64.ofNat (i * gicv2MaxCpus)).toUInt8 >>> UInt8.ofNat j &&& 1 = 0) ↔
      value.toNat.testBit (8 * i + j) = false := by
    rw [← UInt8.toNat_inj, UInt8.toNat_and, UInt8.toNat_shiftRight, UInt64.toNat_toUInt8,
      UInt64.toNat_shiftRight, hshift, hshift', hone, UInt8.toNat_zero, Nat.and_one_is_mod, hbit,
      Nat.testBit_shiftRight, Nat.add_zero, Nat.testBit_mod_two_pow (j := 8), decide_eq_true hj,
      Bool.true_and, Nat.testBit_shiftRight]
  rw [sendsTo, Bool.eq_iff_iff, bne_iff_ne, ne_eq, hiff, Bool.not_eq_false]

theorem begins_sourceAccess (hk : k < maxSgi) (hbytes : bytes ≤ 4) :
    (g.sourceAccess set k bytes).Begins k where
  offset := by
    have hbase : (sourceBase set).toNat ≤ 0xffff := by cases set <;> decide
    have h16 : maxSgi = 16 := rfl
    have hsum := toNat_window (sourceBase set) hbase (show k < 1024 by omega)
    show (sourceBase set + UInt64.ofNat k - sourceBase set).toNat = k
    rw [UInt64.toNat_sub_of_le _ _ (UInt64.le_iff_toNat_le.2 (by omega)), hsum]
    omega
  bytes := hbytes
  irqPerBytes := show (1 : UInt8) ≤ 8 by decide
  le := hk.le.trans (by decide)
  irqBase := show (0 : UInt16) ≤ 32 by decide
  irqMax := show (16 : UInt16) ≤ 1024 by decide

theorem first_sourceAccess : (g.sourceAccess set k bytes).first k = k := Nat.mul_one k

theorem room_sourceAccess : (g.sourceAccess set k bytes).room = bytes.toNat := Nat.mul_one _

/-- **What a write makes its call for**: the senders of the SGIs that it has bytes for. -/
theorem mem_sgiCalls_iff (hk : k < maxSgi) (hbytes : bytes ≤ 4) {j n : ℕ} :
    (j, n) ∈ sgiCalls (g.sourceAccess set k bytes) value ↔
      n < maxSgi ∧ j ∈ sourcesOf k n bytes value := by
  have hbegins := @begins_sourceAccess g k set bytes hk hbytes
  have hbytes' : bytes.toNat ≤ 4 := UInt8.le_iff_toNat_le.1 hbytes
  have hmax : (g.sourceAccess set k bytes).irqMax.toNat = maxSgi := rfl
  rw [sgiCalls, List.mem_flatMap, sourcesOf, Finset.mem_filter, Finset.mem_range]
  constructor
  · rintro ⟨p, hp, hcall⟩
    rw [hbegins.mem_irqs_iff, first_sourceAccess, room_sourceAccess, hmax] at hp
    obtain ⟨j', hj', heq⟩ := List.mem_map.1 hcall
    obtain ⟨rfl, rfl⟩ := Prod.mk.inj heq
    obtain ⟨hlt, hbit⟩ := List.mem_filter.1 hj'
    rw [List.mem_range] at hlt
    rw [sendsTo_eq_testBit value (by omega) hlt] at hbit
    have hsub : p.2 - k = p.1 := by omega
    exact ⟨hp.2.1, hlt, by omega, by omega, hsub ▸ hbit⟩
  · rintro ⟨hn, hj, hle, hlt, hbit⟩
    refine ⟨(n - k, n), ?_, List.mem_map.2 ⟨j, List.mem_filter.2 ⟨List.mem_range.2 hj, ?_⟩, rfl⟩⟩
    · rw [hbegins.mem_irqs_iff, first_sourceAccess, room_sourceAccess, hmax]
      dsimp only
      omega
    · rwa [sendsTo_eq_testBit value (by omega) hj]

theorem within_source (hk : k < maxSgi) :
    within (sourceBase set + UInt64.ofNat k) (sourceBase set) (sourceBase set + 0xf) = true := by
  have h16 : maxSgi = 16 := rfl
  have hlast : (sourceBase set + 0xf).toNat = (sourceBase set).toNat + 0xf := by
    cases set <;> rfl
  exact within_window _ _ _ (by cases set <;> decide) (by omega) (Nat.le_add_right _ k) (by omega)

theorem within_sourcePage (hk : k < maxSgi) :
    within (sourceBase set + UInt64.ofNat k) 0x0 0xfff = true := by
  have h16 : maxSgi = 16 := rfl
  refine within_window _ _ _ (by cases set <;> decide) (by omega) (Nat.zero_le _) ?_
  have hle : (sourceBase set).toNat ≤ 0xf20 := by cases set <;> decide
  have hlast : (0xfff : UInt64).toNat = 0xfff := rfl
  omega

theorem mmioWrite32OrLess_source {acc : IrqMmioAccess} (hoff : g.affinityRouting = false)
    (h : within acc.offset (sourceBase set) (sourceBase set + 0xf) = true) :
    (g.mmioWrite32OrLess cpu acc value).2 =
      (sgiCalls { acc with irqPerBytes := 1, irqBase := 0, irqMax := 16, baseAbs := sourceBase set }
        value).foldl (sgiCall cpu set) g := by
  have hnot {first last : UInt64}
      (hdisjoint : sourceBase set + 0xf < first ∨ last < sourceBase set) :
      ¬within acc.offset first last = true :=
    Bool.not_eq_true _ ▸ within_of_disjoint h hdisjoint
  rw [mmioWrite32OrLess]
  dsimp only
  cases set with
  | true =>
      rw [if_neg (hnot (by decide)), if_neg (hnot (by decide)), if_neg (hnot (by decide)),
        if_neg (hnot (by decide)), if_neg (hnot (by decide)), if_neg (hnot (by decide)),
        if_neg (hnot (by decide)), if_neg (hnot (by decide)), if_neg (hnot (by decide)),
        if_neg (hnot (by decide)), if_neg (hnot (by decide)), if_neg (hnot (by decide)),
        if_neg (hnot (by decide)), if_neg (hnot (by decide)),
        if_pos (show within acc.offset 0xf20 0xf2f = true from h),
        if_neg (Bool.eq_false_iff.1 hoff), mmioAssertSgi_eq]
      rfl
  | false =>
      rw [if_neg (hnot (by decide)), if_neg (hnot (by decide)), if_neg (hnot (by decide)),
        if_neg (hnot (by decide)), if_neg (hnot (by decide)), if_neg (hnot (by decide)),
        if_neg (hnot (by decide)), if_neg (hnot (by decide)), if_neg (hnot (by decide)),
        if_neg (hnot (by decide)), if_neg (hnot (by decide)), if_neg (hnot (by decide)),
        if_neg (hnot (by decide)), if_pos (show within acc.offset 0xf10 0xf1f = true from h),
        if_neg (Bool.eq_false_iff.1 hoff), mmioAssertSgi_eq]
      rfl

theorem mmioRead32OrLess_source {acc : IrqMmioAccess} (hoff : g.affinityRouting = false)
    (h : within acc.offset (sourceBase set) (sourceBase set + 0xf) = true) :
    g.mmioRead32OrLess cpu acc =
      g.read cpu { acc with irqPerBytes := 1, irqMax := 16, baseAbs := sourceBase set }
        (·.pending.toUInt64) := by
  have hnot {first last : UInt64}
      (hdisjoint : sourceBase set + 0xf < first ∨ last < sourceBase set) :
      within acc.offset first last = false := within_of_disjoint h hdisjoint
  have hpidr : g.pidr acc.offset = none := by
    cases set with
    | true =>
        rw [pidr, hnot (by decide), hnot (by decide), hnot (by decide), hnot (by decide),
          hnot (by decide), hnot (by decide)]
        rfl
    | false =>
        rw [pidr, hnot (by decide), hnot (by decide), hnot (by decide), hnot (by decide),
          hnot (by decide), hnot (by decide)]
        rfl
  rw [mmioRead32OrLess]
  dsimp only
  cases set with
  | true =>
      rw [hpidr, hnot (by decide), hnot (by decide), hnot (by decide), hnot (by decide),
        hnot (by decide), hnot (by decide), hnot (by decide), hnot (by decide), hnot (by decide),
        hnot (by decide), hnot (by decide), hnot (by decide), hnot (by decide), hnot (by decide),
        hnot (by decide), hnot (by decide), hnot (by decide)]
      simp only [Bool.false_eq_true, if_false]
      rw [readPending, hoff]
      exact if_pos h
  | false =>
      rw [hpidr, hnot (by decide), hnot (by decide), hnot (by decide), hnot (by decide),
        hnot (by decide), hnot (by decide), hnot (by decide), hnot (by decide), hnot (by decide),
        hnot (by decide), hnot (by decide), hnot (by decide), hnot (by decide), hnot (by decide),
        hnot (by decide), hnot (by decide)]
      simp only [Bool.false_eq_true, if_false]
      rw [readPending, hoff]
      exact if_pos h

/-- **A write makes its call for one sender after another.** -/
theorem mmioWrite_source (hoff : g.affinityRouting = false) (hcpu : cpu < g.numVcpus)
    (hk : k < maxSgi) (hbytes : bytes ≤ 4) :
    (g.mmioWrite cpu (sourceBase set + UInt64.ofNat k) bytes value).2 =
      (sgiCalls (g.sourceAccess set k bytes) value).foldl (sgiCall cpu set) g := by
  rw [mmioWrite_eq hcpu hbytes (within_sourcePage hk),
    mmioWrite32OrLess_source hoff (within_source hk)]
  rfl

/-- A word with a bit in the lowest place of its bytes. -/
theorem testBit_foldl_bytes (b : ℕ → Bool) {n : ℕ} (hn : n ≤ 8) (i : ℕ) {j : ℕ}
    (hj : j < gicv2MaxCpus) :
    ((List.range n).foldl (fun value i => value ||| (b i).toUInt64 <<< UInt64.ofNat (i * 8))
      (0 : UInt64)).toNat.testBit (8 * i + j) = (decide (i < n) && (decide (j = 0) && b i)) := by
  replace hj : j < 8 := hj
  induction n with
  | zero => simp
  | succ n ih =>
      rw [List.range_succ, List.foldl_append, List.foldl_cons, List.foldl_nil,
        testBit_or_shiftLeft _ _ (by omega), ih (by omega)]
      rcases Nat.lt_trichotomy i n with hlt | rfl | hlt
      · have hne : ¬n * 8 = 8 * i + j := by omega
        simp [hlt, Nat.lt_succ_of_lt hlt, hne]
      · have heq : i * 8 = 8 * i + j ↔ j = 0 := by omega
        simp [heq, Bool.and_comm]
      · have hne : ¬n * 8 = 8 * i + j := by omega
        simp [Nat.not_lt.2 hlt.le, Nat.not_lt.2 (Nat.succ_le_of_lt hlt), hne]

/-- **A read shows which SGIs are pending**, each in the lowest bit of its byte. -/
theorem mmioRead_source (hoff : g.affinityRouting = false) (hcpu : cpu < g.numVcpus)
    (hk : k < maxSgi) (hbytes : bytes ≤ 4) :
    ∃ v, g.mmioRead cpu (sourceBase set + UInt64.ofNat k) bytes = .shows v ∧
      ∀ n < maxSgi, k ≤ n → n < k + bytes.toNat → ∀ j < gicv2MaxCpus,
        v.toNat.testBit (8 * (n - k) + j) = (decide (j = 0) && (g.irqObject cpu n).pending) := by
  have hbegins := @begins_sourceAccess g k set bytes hk hbytes
  have hvalid : (g.sourceAccess set k bytes).isValid = true :=
    hbegins.isValid (by rw [first_sourceAccess]; exact hk.le.trans (by decide))
  refine ⟨_, by
    rw [mmioRead_eq hcpu hbytes (within_sourcePage hk),
      mmioRead32OrLess_source hoff (within_source hk)]
    exact if_pos hvalid, fun n hn hle hlt j hj => ?_⟩
  have hbytes' : bytes.toNat ≤ 4 := UInt8.le_iff_toNat_le.1 hbytes
  have hmax : (g.sourceAccess set k bytes).irqMax.toNat = maxSgi := rfl
  have hbits : (g.sourceAccess set k bytes).bits = 8 := rfl
  have hirqs := hbegins.irqs
  rw [first_sourceAccess, room_sourceAccess, hmax] at hirqs
  have hback : k + (n - k) = n := by omega
  have hin : n - k < min bytes.toNat (maxSgi - k) := by omega
  have hword := testBit_foldl_bytes (fun i => (g.irqObject cpu (k + i)).pending)
    (show min bytes.toNat (maxSgi - k) ≤ 8 by omega) (n - k) hj
  rw [hback, decide_eq_true hin, Bool.true_and] at hword
  rw [← hword]
  refine congrArg (fun v : UInt64 => v.toNat.testBit (8 * (n - k) + j)) ?_
  show List.foldl _ 0 (g.sourceAccess set k bytes).irqs = _
  rw [hirqs, List.foldl_map]
  rfl

/-! ## What the calls do -/

/-- What the call makes of the senders of the SGI. -/
def afterSgi (cpu : ℕ) (set : Bool) (senders : Finset ℕ) : Finset ℕ :=
  if set then insert cpu senders else senders.erase cpu

theorem afterSgi_afterSgi (senders : Finset ℕ) :
    afterSgi cpu set (afterSgi cpu set senders) = afterSgi cpu set senders := by
  cases set with
  | true => exact Finset.insert_idem ..
  | false => exact Finset.erase_idem

theorem affinityRouting_sgiCall (hoff : g.affinityRouting = false) (p : ℕ × ℕ) :
    (sgiCall cpu set g p).affinityRouting = false := by
  have hctlr : (sgiCall cpu set g p).ctlr = g.ctlr := by
    cases set with
    | true =>
        rw [sgiCall, assertSgi, if_neg (Bool.eq_false_iff.1 hoff)]
        split_ifs
        · rfl
        · exact (announced_notifyTarget ..).ctlr.trans (g.setInfo_ctlr ..)
    | false =>
        rw [sgiCall, deassertSgi, if_neg (Bool.eq_false_iff.1 hoff)]
        split_ifs
        · rfl
        · exact g.setInfo_ctlr ..
  rw [affinityRouting, hctlr]
  exact hoff

/-- **The sender of a call is the vCPU that writes**, and the vCPU that is told is the one whose bit
is set. -/
theorem pendingState_sgiCall (hoff : g.affinityRouting = false) (p : ℕ × ℕ) {n : ℕ}
    (hn : n < maxSgi) (c : ℕ) :
    (sgiCall cpu set g p).pendingState c n =
      if cpu < gicv2MaxCpus ∧ n = p.2 then
        { g.pendingState c n with
          pendingBits := if c = cpu then afterSgi cpu set (g.sources c n) else g.sources c n
          announced := (g.bank c).pendingIrqs n || (set && decide (c = p.1 % 2 ^ 31)) }
      else g.pendingState c n := by
  have h16 : maxSgi = 16 := rfl
  have h32 : spiBase = 32 := rfl
  obtain ⟨j, id⟩ := p
  dsimp only
  have hstores (info : IrqInjectionInfo) := g.setInfo_irqObject cpu id info c n
  have hbits (info : IrqInjectionInfo) :=
    g.setInfo_field cpu id info Banked.pendingIrqs (fun _ _ => rfl) c
  by_cases hbeyond : gicv2MaxCpus ≤ cpu
  case pos =>
    rw [if_neg fun h => absurd h.1 (Nat.not_lt.2 hbeyond)]
    cases set with
    | true => rw [sgiCall, assertSgi, if_neg (Bool.eq_false_iff.1 hoff), if_pos hbeyond]
    | false => rw [sgiCall, deassertSgi, if_neg (Bool.eq_false_iff.1 hoff), if_pos hbeyond]
  case neg =>
    have hcond : cpu < gicv2MaxCpus ∧ n = id ↔ n = id := and_iff_right (Nat.not_le.1 hbeyond)
    simp only [hcond]
    cases set with
    | true =>
        rw [sgiCall, assertSgi, if_neg (Bool.eq_false_iff.1 hoff), if_neg hbeyond, pendingState,
          notifyTarget_pendingIrqs, (announced_notifyTarget ..).irqObject, hstores, hbits,
          notified_ofCpuId]
        generalize j % 2 ^ 31 = told
        by_cases hid : n = id
        · subst hid
          have htold (old : Bool) : (if c ∈ [told] ∧ n = n then true else old) =
              (old || (true && decide (c = told))) := by
            by_cases hj : c = told <;> simp [hj]
          rw [htold]
          by_cases hc : c = cpu
          · subst hc
            have hself : Shares n c c := .inr rfl
            simp [hself, pendingState, sources, afterSgi, IrqInjectionInfo.sentBy,
              IrqInjectionInfo.setPending, IrqInjectionInfo.unsetInjected]
          · have hother : ¬Shares n c cpu := not_or.2 ⟨by omega, hc⟩
            simp [hother, hc, pendingState, sources]
        · simp [hid, pendingState]
    | false =>
        rw [sgiCall, deassertSgi, if_neg (Bool.eq_false_iff.1 hoff), if_neg hbeyond, pendingState,
          hstores, hbits]
        by_cases hid : n = id
        · subst hid
          by_cases hc : c = cpu
          · subst hc
            have hself : Shares n c c := .inr rfl
            simp [hself, pendingState, sources, afterSgi, IrqInjectionInfo.unsetPending,
              IrqInjectionInfo.unsetInjected]
          · have hother : ¬Shares n c cpu := not_or.2 ⟨by omega, hc⟩
            simp [hother, hc, pendingState, sources]
        · simp [hid, pendingState]

theorem sources_sgiCall (hoff : g.affinityRouting = false) (p : ℕ × ℕ) {n : ℕ} (hn : n < maxSgi) :
    (sgiCall cpu set g p).sources cpu n =
      if cpu < gicv2MaxCpus ∧ n = p.2 then afterSgi cpu set (g.sources cpu n)
      else g.sources cpu n := by
  have hstate := congrArg PendingState.pendingBits (@pendingState_sgiCall g cpu set hoff p n hn cpu)
  refine hstate.trans ((apply_ite PendingState.pendingBits ..).trans ?_)
  rw [if_pos rfl]
  rfl

/-- A call leaves alone what makes an SGI pending without a sender. -/
theorem raised_sgiCall (p : ℕ × ℕ) (hoff : g.affinityRouting = false) (c n : ℕ) :
    raised ((sgiCall cpu set g p).irqObject c n) = raised (g.irqObject c n) := by
  have hstore (info : IrqInjectionInfo) :
      raised ((g.setInfo cpu p.2 info).irqObject c n) = raised (g.irqObject c n) := by
    rw [setInfo_irqObject]
    split_ifs
    · rfl
    · rfl
  cases set with
  | true =>
      rw [sgiCall, assertSgi, if_neg (Bool.eq_false_iff.1 hoff)]
      split_ifs
      · rfl
      · rw [(announced_notifyTarget ..).irqObject]
        exact hstore _
  | false =>
      rw [sgiCall, deassertSgi, if_neg (Bool.eq_false_iff.1 hoff)]
      split_ifs
      · rfl
      · exact hstore _

section Write

variable (hoff : g.affinityRouting = false) (hcpu : cpu < g.numVcpus) (hk : k < maxSgi)
  (hbytes : bytes ≤ 4)

include hoff hcpu hk hbytes

/-- **What becomes of the senders**: the vCPU that writes is added or taken away, if the byte of the
SGI has any bit. -/
theorem sources_mmioWrite {n : ℕ} (hn : n < maxSgi) :
    (g.mmioWrite cpu (sourceBase set + UInt64.ofNat k) bytes value).2.sources cpu n =
      if cpu < gicv2MaxCpus ∧ sourcesOf k n bytes value ≠ ∅ then afterSgi cpu set (g.sources cpu n)
      else g.sources cpu n := by
  have hfold := view_foldl (fun g : GicD => g.sources cpu n)
    (fun p : ℕ × ℕ => cpu < gicv2MaxCpus ∧ n = p.2) (P := fun g => g.affinityRouting = false)
    (f := sgiCall cpu set) afterSgi_afterSgi (fun g p h => affinityRouting_sgiCall h p)
    (fun g p h => sources_sgiCall h p hn) (sgiCalls (g.sourceAccess set k bytes) value) hoff
  rw [mmioWrite_source hoff hcpu hk hbytes, hfold]
  refine if_congr ?_ rfl rfl
  rw [← Finset.nonempty_iff_ne_empty]
  constructor
  · rintro ⟨⟨j, id⟩, hp, hlt, rfl⟩
    exact ⟨hlt, j, ((mem_sgiCalls_iff hk hbytes).1 hp).2⟩
  · rintro ⟨hlt, j, hj⟩
    exact ⟨(j, n), (mem_sgiCalls_iff hk hbytes).2 ⟨hn, hj⟩, hlt, rfl⟩

theorem kept_mmioWrite (c n : ℕ) :
    (g.mmioWrite cpu (sourceBase set + UInt64.ofNat k) bytes value).2.affinityRouting = false ∧
      (g.mmioWrite cpu (sourceBase set + UInt64.ofNat k) bytes value).2.numVcpus = g.numVcpus ∧
      raised ((g.mmioWrite cpu (sourceBase set + UInt64.ofNat k) bytes value).2.irqObject c n) =
        raised (g.irqObject c n) := by
  rw [mmioWrite_source hoff hcpu hk hbytes]
  refine List.foldlRecOn (motive := fun g' : GicD => g'.affinityRouting = false ∧
    g'.numVcpus = g.numVcpus ∧ raised (g'.irqObject c n) = raised (g.irqObject c n)) _ _
    ⟨hoff, rfl, rfl⟩ fun g' h p hp => ?_
  have hsgi : p.2 < maxSgi := ((mem_sgiCalls_iff hk hbytes).1 hp).1
  refine ⟨affinityRouting_sgiCall h.1 p, ?_, (raised_sgiCall p h.1 c n).trans h.2.2⟩
  cases set with
  | true => exact (callRule_numVcpus g.numVcpus).assertSgi h.2.1 cpu p.1 cpu p.2 hsgi
  | false => exact (callRule_numVcpus g.numVcpus).deassertSgi h.2.1 cpu cpu p.2 hsgi

theorem sources_subset_mmioWrite
    (height : ∀ n < maxSgi, g.sources cpu n ⊆ Finset.range gicv2MaxCpus) {n : ℕ} (hn : n < maxSgi) :
    (g.mmioWrite cpu (sourceBase set + UInt64.ofNat k) bytes value).2.sources cpu n ⊆
      Finset.range gicv2MaxCpus := by
  rw [sources_mmioWrite hoff hcpu hk hbytes hn]
  split_ifs with hcall
  · cases set with
    | true => exact Finset.insert_subset (Finset.mem_range.2 hcall.1) (height n hn)
    | false => exact (Finset.erase_subset ..).trans (height n hn)
  · exact height n hn

/-- **The other SGIs**, and those of the other vCPUs, are left alone by a write to CPENDSGIR, and by
one to SPENDSGIR that has no other sender than the vCPU that writes. -/
theorem pendingState_mmioWrite
    (hsenders : set = true → cpu < gicv2MaxCpus → ∀ n < maxSgi, ∀ j ∈ sourcesOf k n bytes value,
      j = cpu) {c n : ℕ} (hn : n < maxSgi)
    (hout : ¬(c = cpu ∧ k ≤ n ∧ n < k + bytes.toNat)) :
    (g.mmioWrite cpu (sourceBase set + UInt64.ofNat k) bytes value).2.pendingState c n =
      g.pendingState c n := by
  rw [mmioWrite_source hoff hcpu hk hbytes]
  refine (List.foldlRecOn (motive := fun g' : GicD => g'.affinityRouting = false ∧
    g'.pendingState c n = g.pendingState c n) _ _ ⟨hoff, rfl⟩ fun g' h p hp => ?_).2
  obtain ⟨hsgi, hj⟩ := (mem_sgiCalls_iff hk hbytes).1 hp
  refine ⟨affinityRouting_sgiCall h.1 p, ?_⟩
  rw [pendingState_sgiCall h.1 p hn c]
  split_ifs with hcall hc
  · -- The SGI is one of those that the write has bytes for.
    obtain ⟨-, rfl⟩ := hcall
    have hin := (Finset.mem_filter.1 hj).2
    exact absurd ⟨hc, hin.1, hin.2.1⟩ hout
  · obtain ⟨hlt, rfl⟩ := hcall
    have htold : (set && decide (c = p.1 % 2 ^ 31)) = false := by
      cases set with
      | false => rfl
      | true =>
          have hwriter := hsenders rfl hlt p.2 hsgi p.1 hj
          have hsmall : cpu % 2 ^ 31 = cpu :=
            Nat.mod_eq_of_lt (Nat.lt_trans hlt (by decide))
          rw [hwriter, hsmall, decide_eq_false hc, Bool.and_false]
    rw [htold, Bool.or_false]
    exact h.2
  · exact h.2

end Write

/-! ## What a read shows -/

/-- The byte that says whether an interrupt is pending says who has sent it, if vCPU 0 has and no
other vCPU, or none has and it is not pending. -/
theorem byte_shows_iff {irq : Irq}
    (height : irq.injectionInfo.pendingBits ⊆ Finset.range gicv2MaxCpus) :
    (∀ j < gicv2MaxCpus,
      (decide (j = 0) && irq.pending) = decide (j ∈ irq.injectionInfo.pendingBits)) ↔
      irq.injectionInfo.pendingBits ⊆ {0} ∧
        (irq.injectionInfo.pendingBits = ∅ → raised irq = false) := by
  have hpending : irq.pending = (raised irq || irq.injectionInfo.pendingBits != ∅) := rfl
  constructor
  · intro hshows
    have hsub : irq.injectionInfo.pendingBits ⊆ {0} := by
      intro j hj
      have hbyte := hshows j (Finset.mem_range.1 (height hj))
      rw [decide_eq_true hj, Bool.and_eq_true, decide_eq_true_iff] at hbyte
      exact Finset.mem_singleton.2 hbyte.1
    refine ⟨hsub, fun hempty => ?_⟩
    have hbyte := hshows 0 (by decide)
    rw [hpending, hempty] at hbyte
    simpa using hbyte
  · rintro ⟨hsub, hraised⟩ j -
    rw [hpending]
    rcases Finset.subset_singleton_iff.1 hsub with hempty | hzero
    · rw [hraised hempty, hempty]
      simp
    · have hsent : ({0} : Finset ℕ) != ∅ := by decide
      rw [hzero, hsent, Bool.or_true, Bool.and_true, decide_eq_decide, Finset.mem_singleton]

theorem showsSources_iff (hoff : g.affinityRouting = false) (hcpu : cpu < g.numVcpus)
    (height : ∀ n < maxSgi, g.sources cpu n ⊆ Finset.range gicv2MaxCpus) (hk : k < maxSgi)
    (hbytes : bytes ≤ 4) :
    g.ShowsSources cpu set k bytes ↔ ∀ n < maxSgi, k ≤ n → n < k + bytes.toNat →
      g.sources cpu n ⊆ {0} ∧ (g.sources cpu n = ∅ → raised (g.irqObject cpu n) = false) := by
  obtain ⟨v, hv, hbits⟩ := @mmioRead_source g cpu k set bytes hoff hcpu hk hbytes
  constructor
  · rintro ⟨v', hv', hshows⟩ n hn hle hlt
    rw [hv] at hv'
    cases hv'
    refine (byte_shows_iff (height n hn)).1 fun j hj => ?_
    rw [← hbits n hn hle hlt j hj]
    exact hshows n hn hle hlt j hj
  · intro hall
    refine ⟨v, hv, fun n hn hle hlt j hj => ?_⟩
    rw [hbits n hn hle hlt j hj]
    exact (byte_shows_iff (height n hn)).2 (hall n hn hle hlt) j hj

/-! ## The registers are exact -/

/-- What the call makes of the senders is what should become of them. -/
theorem stored_eq_wanted_iff {senders mask : Finset ℕ} (hmask : mask ≠ ∅)
    (hwanted : (if set then senders ∪ mask else senders \ mask) ⊆ {0}) :
    (if cpu < gicv2MaxCpus ∧ mask ≠ ∅ then afterSgi cpu set senders else senders) =
        (if set then senders ∪ mask else senders \ mask) ↔
      if set then cpu = 0 ∨ gicv2MaxCpus ≤ cpu ∧ 0 ∈ senders
      else ∀ s ∈ senders, s ∈ mask ↔ cpu < gicv2MaxCpus ∧ s = cpu := by
  simp only [hmask, ne_eq, not_false_eq_true, and_true]
  cases set with
  | true =>
      obtain ⟨hsenders, hzero⟩ := Finset.union_subset_iff.1 hwanted
      obtain rfl := (Finset.subset_singleton_iff.1 hzero).resolve_left hmask
      simp only [if_true, Finset.union_eq_right.2 hsenders, afterSgi]
      by_cases hlt : cpu < gicv2MaxCpus
      · rw [if_pos hlt]
        constructor
        · intro heq
          exact .inl (Finset.mem_singleton.1 (heq ▸ Finset.mem_insert_self cpu senders))
        · rintro (rfl | ⟨hle, -⟩)
          · refine (Finset.subset_singleton_iff.1 ?_).resolve_left (Finset.insert_ne_empty _ _)
            exact Finset.insert_subset (Finset.mem_singleton_self 0) hsenders
          · exact absurd hlt (Nat.not_lt.2 hle)
      · rw [if_neg hlt]
        constructor
        · rintro rfl
          exact .inr ⟨Nat.not_lt.1 hlt, Finset.mem_singleton_self 0⟩
        · rintro (rfl | ⟨-, hmem⟩)
          · exact absurd (show 0 < gicv2MaxCpus by decide) hlt
          · have hne := Finset.ne_empty_of_mem hmem
            exact (Finset.subset_singleton_iff.1 hsenders).resolve_left hne
  | false =>
      simp only [Bool.false_eq_true, if_false, afterSgi]
      by_cases hlt : cpu < gicv2MaxCpus
      · rw [if_pos hlt, Finset.ext_iff]
        refine forall_congr' fun s => ?_
        rw [Finset.mem_erase, Finset.mem_sdiff]
        tauto
      · rw [if_neg hlt, eq_comm, Finset.sdiff_eq_self_iff_disjoint, Finset.disjoint_left]
        refine forall_congr' fun s => ?_
        tauto

/-- **The registers add, take away and show exactly the senders** when vCPU 0 is the only one that
is left, and the bits of the write are those of the vCPU that writes, as far as they change
anything. -/
theorem sources_exact_iff (hoff : g.affinityRouting = false)
    (height : ∀ n < maxSgi, g.sources cpu n ⊆ Finset.range gicv2MaxCpus)
    (hcpu : cpu < g.numVcpus) (hk : k < maxSgi) (hbytes : bytes ≤ 4) :
    g.SourcesExact cpu set k bytes value ↔ g.SourcesSpared cpu set k bytes value := by
  have hstored {n : ℕ} (hn : n < maxSgi) :=
    @sources_mmioWrite g cpu k set bytes value hoff hcpu hk hbytes n hn
  have hkept (n : ℕ) := @kept_mmioWrite g cpu k set bytes value hoff hcpu hk hbytes cpu n
  have height' (n : ℕ) (hn : n < maxSgi) :=
    @sources_subset_mmioWrite g cpu k set bytes value hoff hcpu hk hbytes height n hn
  have hcpu' := hcpu.trans_eq (hkept 0).2.1.symm
  constructor
  · rintro ⟨haddressed, -, hreads⟩ n hn
    have hwanted : (g.mmioWrite cpu (sourceBase set + UInt64.ofNat k) bytes value).2.sources cpu n =
        g.sourcesWanted cpu set k bytes value n := by
      by_cases hin : k ≤ n ∧ n < k + bytes.toNat
      · exact haddressed n hn hin.1 hin.2
      · rw [hstored hn, sourcesWanted, sourcesOf_eq_empty hin]
        simp
    have hshows := (showsSources_iff (hkept n).1 hcpu' height' hn (by decide)).1
      (hreads true n hn 1 (by decide)) n hn le_rfl (Nat.lt_succ_self n)
    rw [hwanted, (hkept n).2.2] at hshows
    refine ⟨hshows.1, hshows.2, fun hmask => ?_⟩
    rw [hstored hn] at hwanted
    exact (stored_eq_wanted_iff hmask hshows.1).1 hwanted
  · intro hspared
    have hwanted {n : ℕ} (hn : n < maxSgi) :
        (g.mmioWrite cpu (sourceBase set + UInt64.ofNat k) bytes value).2.sources cpu n =
          g.sourcesWanted cpu set k bytes value n := by
      rw [hstored hn]
      by_cases hmask : sourcesOf k n bytes value = ∅
      · rw [sourcesWanted, hmask]
        simp
      · exact (stored_eq_wanted_iff hmask (hspared n hn).1).2 ((hspared n hn).2.2 hmask)
    refine ⟨fun n hn _ _ => hwanted hn, fun c n hn hout => ?_, fun set' k' hk' bytes' hbytes' => ?_⟩
    · refine pendingState_mmioWrite hoff hcpu hk hbytes (fun hset hlt m hm j hj => ?_) hn hout
      subst hset
      obtain ⟨hsub, -, hwriter⟩ := hspared m hm
      have hzero : j = 0 :=
        Finset.mem_singleton.1 (hsub (Finset.mem_union_right _ hj))
      rw [if_pos rfl] at hwriter
      rcases hwriter (Finset.ne_empty_of_mem hj) with hcpu0 | ⟨hle, -⟩
      · rw [hzero, hcpu0]
      · exact absurd hlt (Nat.not_lt.2 hle)
    · refine (showsSources_iff (hkept 0).1 hcpu' height' hk' hbytes').2 fun n hn _ _ => ?_
      rw [hwanted hn, (hkept n).2.2]
      exact ⟨(hspared n hn).1, (hspared n hn).2.1⟩

/-- **vCPU 0 becomes a sender of its own SGI**: its byte of SPENDSGIR says that vCPU 1 sends. -/
theorem sender_is_writer : ¬twoVcpus.SourcesExact 0 true 0 1 2 ∧
    (twoVcpus.mmioWrite 0 0xf20 1 2).2.sources 0 0 = {0} ∧
      twoVcpus.sourcesWanted 0 true 0 1 2 0 = {1} := by
  have hstored : (twoVcpus.mmioWrite 0 0xf20 1 2).2.sources 0 0 = {0} := by decide +kernel
  have hwanted : twoVcpus.sourcesWanted 0 true 0 1 2 0 = {1} := by decide +kernel
  refine ⟨fun hexact => ?_, hstored, hwanted⟩
  have hsame := hexact.addressed 0 (by decide) (by decide) (by decide)
  rw [hwanted] at hsame
  exact absurd (hstored.symm.trans hsame) (by decide)

/-- vCPU 0 sends all SGIs of a word to itself. -/
theorem self_sent_exact : twoVcpus.SourcesExact 0 true 4 4 0x01010101 := by
  refine (sources_exact_iff (by decide) (by decide +kernel) (by decide) (by decide)
    (by decide)).2 ?_
  unfold SourcesSpared
  decide +kernel

end GicD

end Vml
