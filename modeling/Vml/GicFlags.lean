import Vml.GicWindow

/-!
# The set and clear registers of the distributor

ISENABLER and ICENABLER, and ISACTIVER and ICACTIVER: a guest sets the flags of some interrupts by
writing ones to the first register of a pair and clears them by writing ones to the second, and
reads the flags from either (`FlagPair`).

**The last registers.** The window of ISACTIVER ends at `0x379` in `gicd.cpp`, six bytes before it
ends in the architecture and in the windows of its siblings. An access to these bytes is ignored,
so the interrupts from 976 on cannot be made active there, and read as if they were not active.

Main results: `GicD.flags_exact_iff`, `GicD.last_register_ignored`.
-/

namespace Vml

/-- Two registers that set and clear a flag. -/
inductive FlagPair
  | enable
  | active
  deriving DecidableEq, Repr

namespace FlagPair

/-- Where the register that sets the flags begins, or the one that clears them. -/
def base : FlagPair → Bool → UInt64
  | enable, true => 0x100
  | enable, false => 0x180
  | active, true => 0x300
  | active, false => 0x380

/-- Where it ends: `GICD_ISENABLER_END` and its siblings. -/
def last : FlagPair → Bool → UInt64
  | enable, true => 0x17f
  | enable, false => 0x1ff
  | active, true => 0x379
  | active, false => 0x3ff

/-- The flag of an interrupt. -/
def flag : FlagPair → Irq → Bool
  | enable, irq => irq.enable
  | active, irq => irq.active

/-- The flag is set or cleared. -/
def put : FlagPair → Bool → Irq → Irq
  | enable, b, irq => { irq with enable := b }
  | active, b, irq => { irq with active := b }

theorem put_put (pair : FlagPair) (b : Bool) (irq : Irq) :
    pair.put b (pair.put b irq) = pair.put b irq := by
  cases pair <;> rfl

/-- The offset of the byte `k` of a register of the pair. -/
def byteAt (pair : FlagPair) (set : Bool) (k : ℕ) : UInt64 := pair.base set + UInt64.ofNat k

end FlagPair

namespace GicD

variable {g : GicD} {cpu k : ℕ} {pair : FlagPair} {set : Bool} {bytes : UInt8} {value : UInt64}

/-- The access that the registers of the pair are written and read with. -/
def flagAccess (g : GicD) (pair : FlagPair) (set : Bool) (k : ℕ) (bytes : UInt8) : IrqMmioAccess :=
  { g.irqMmioAccess (pair.byteAt set k) bytes .all with baseAbs := pair.base set }

/-- **What a write should do**: the flag is set or cleared of the interrupts that are configured and
whose bit is 1, and everything else is left alone. -/
def WritesFlags (g : GicD) (cpu : ℕ) (pair : FlagPair) (set : Bool) (k : ℕ) (bytes : UInt8)
    (value : UInt64) : Prop :=
  g.mmioWrite cpu (pair.byteAt set k) bytes value =
    (true, g.mapIrqs cpu (g.Marked k bytes.toNat value) (pair.put set))

/-- **What a read should show**: the flags of the interrupts that are configured, and zeros. -/
def ReadsFlags (g : GicD) (cpu : ℕ) (pair : FlagPair) (set : Bool) (k : ℕ) (bytes : UInt8) : Prop :=
  ∃ v, g.mmioRead cpu (pair.byteAt set k) bytes = .shows v ∧ ∀ j, v.toNat.testBit j =
    (decide (j < 8 * bytes.toNat ∧ 8 * k + j < g.configuredIrqs) &&
      pair.flag (g.irqObject cpu (8 * k + j)))

/-- The write does what it should, both registers of the pair show the flags, and no interrupt is
accessed that is not configured. -/
structure FlagsExact (g : GicD) (cpu : ℕ) (pair : FlagPair) (set : Bool) (k : ℕ) (bytes : UInt8)
    (value : UInt64) : Prop where
  writes : g.WritesFlags cpu pair set k bytes value
  reads : ∀ set', g.ReadsFlags cpu pair set' k bytes
  configured : ∀ set', ∀ p ∈ (g.flagAccess pair set' k bytes).irqs, p.2 < g.configuredIrqs

/-- The access is not to the last six bytes of ISACTIVER or ICACTIVER; or no interrupt there is
active, or is to be. -/
def FlagsReached (g : GicD) (cpu : ℕ) (pair : FlagPair) (set : Bool) (k : ℕ) (bytes : UInt8)
    (value : UInt64) : Prop :=
  pair = .active → 0x7a ≤ k → ∀ id < g.configuredIrqs, 8 * k ≤ id → id < 8 * (k + bytes.toNat) →
    (g.irqObject cpu id).active = false ∧ (set = true → value.toNat.testBit (id - 8 * k) = false)

/-! ## The windows -/

theorem toNat_window (base : UInt64) {k : ℕ} (hbase : base.toNat ≤ 0xffff) (hk : k < 1024) :
    (base + UInt64.ofNat k).toNat = base.toNat + k := by
  rw [UInt64.toNat_add, UInt64.toNat_ofNat_of_lt' (hk.trans (by decide)),
    Nat.mod_eq_of_lt (by omega)]

theorem within_window (base first last : UInt64) {k : ℕ} (hbase : base.toNat ≤ 0xffff)
    (hk : k < 1024) (hfirst : first.toNat ≤ base.toNat + k) (hlast : base.toNat + k ≤ last.toNat) :
    within (base + UInt64.ofNat k) first last = true := by
  rw [within, decide_eq_true_iff, UInt64.le_iff_toNat_le, UInt64.le_iff_toNat_le,
    toNat_window base hbase hk]
  exact ⟨hfirst, hlast⟩

/-- The accesses of a window with a bit for every interrupt, wherever it begins. -/
theorem bitwise_window (base : UInt64) (hbase : base.toNat ≤ 0xffff)
    (hconf : g.configuredIrqs ≤ maxIrqNoLpi) (hk : k < 128) (hbytes : bytes ≤ 4) :
    g.Bitwise { g.irqMmioAccess (base + UInt64.ofNat k) bytes .all with baseAbs := base } k where
  offset := by
    have hsum := toNat_window base hbase (show k < 1024 by omega)
    show (base + UInt64.ofNat k - base).toNat = k
    rw [UInt64.toNat_sub_of_le _ _ (UInt64.le_iff_toNat_le.2 (by omega)), hsum]
    omega
  bytes := hbytes
  irqPerBytes := show (8 : UInt8) ≤ 8 by decide
  le := by omega
  irqBase := show (0 : UInt16) ≤ 32 by decide
  irqMax := by
    show UInt16.ofNat g.configuredIrqs ≤ 1024
    rw [UInt16.le_iff_toNat_le, UInt16.toNat_ofNat_of_lt' (Nat.lt_of_le_of_lt hconf (by decide))]
    exact hconf.trans (by decide)
  perEight := rfl
  baseZero := rfl
  upTo := UInt16.toNat_ofNat_of_lt' (Nat.lt_of_le_of_lt hconf (by decide))

theorem bitwise_flagAccess (hconf : g.configuredIrqs ≤ maxIrqNoLpi) (hk : k < 128)
    (hbytes : bytes ≤ 4) : g.Bitwise (g.flagAccess pair set k bytes) k :=
  bitwise_window (pair.base set) (by cases pair <;> cases set <;> decide) hconf hk hbytes

/-- A write of at most four bytes below the page of the registers with one word for every SPI. -/
theorem mmioWrite_eq {offset : UInt64} (hcpu : cpu < g.numVcpus) (hbytes : bytes ≤ 4)
    (hoff : within offset 0x0 0xfff = true) : g.mmioWrite cpu offset bytes value =
      g.mmioWrite32OrLess cpu (g.irqMmioAccess offset bytes .all) value := by
  have hlt : ¬(0x10000 ≤ offset ∨ 8 < bytes ∨ g.numVcpus ≤ cpu) := by
    refine not_or.2 ⟨UInt64.not_le.2 (lt_of_within hoff (by decide)), not_or.2 ⟨?_, ?_⟩⟩
    · exact UInt8.not_lt.2 (UInt8.le_trans hbytes (by decide))
    · exact Nat.not_le.2 hcpu
  rw [mmioWrite, if_neg hlt, within_of_disjoint hoff (.inl (by decide)),
    within_of_disjoint hoff (.inl (by decide)), if_neg (UInt8.not_lt.2 hbytes)]
  rfl

theorem mmioRead_eq {offset : UInt64} (hcpu : cpu < g.numVcpus) (hbytes : bytes ≤ 4)
    (hoff : within offset 0x0 0xfff = true) : g.mmioRead cpu offset bytes =
      g.mmioRead32OrLess cpu (g.irqMmioAccess offset bytes .all) := by
  have hlt : ¬(0x10000 ≤ offset ∨ 8 < bytes ∨ g.numVcpus ≤ cpu) := by
    refine not_or.2 ⟨UInt64.not_le.2 (lt_of_within hoff (by decide)), not_or.2 ⟨?_, ?_⟩⟩
    · exact UInt8.not_lt.2 (UInt8.le_trans hbytes (by decide))
    · exact Nat.not_le.2 hcpu
  rw [mmioRead, if_neg hlt, within_of_disjoint hoff (.inl (by decide)),
    within_of_disjoint hoff (.inl (by decide)), if_neg (UInt8.not_lt.2 hbytes)]
  rfl

/-! ## What the registers do -/

theorem within_low (base : UInt64) {k : ℕ} (hbase : base.toNat ≤ 0x380) (hk : k < 128) :
    within (base + UInt64.ofNat k) 0x0 0xfff = true :=
  within_window base 0x0 0xfff (hbase.trans (by decide)) (by omega) (Nat.zero_le _) (by
    have hlast : (0xfff : UInt64).toNat = 0xfff := rfl
    omega)

/-- The bytes of the registers, less what ISACTIVER lacks. -/
theorem within_register (hk : k < 128) (hlast : pair = .active → set = true → k < 0x7a) :
    within (pair.byteAt set k) (pair.base set) (pair.last set) = true := by
  refine within_window _ _ _ ?_ (by omega) (Nat.le_add_right _ k) ?_
  · cases pair <;> cases set <;> decide
  · cases pair with
    | enable => cases set <;> simp [FlagPair.base, FlagPair.last] <;> omega
    | active =>
        cases set with
        | false => simp [FlagPair.base, FlagPair.last]; omega
        | true =>
            have hlt := hlast rfl rfl
            simp [FlagPair.base, FlagPair.last]
            omega

theorem mmioWrite32OrLess_flag {acc : IrqMmioAccess}
    (h : within acc.offset (pair.base set) (pair.last set) = true) :
    g.mmioWrite32OrLess cpu acc value = g.write cpu { acc with baseAbs := pair.base set } value
      fun v irq => if v != 0 then pair.put set irq else irq := by
  have hnot {first last : UInt64} (hdisjoint : pair.last set < first ∨ last < pair.base set) :
      ¬within acc.offset first last = true :=
    Bool.not_eq_true _ ▸ within_of_disjoint h hdisjoint
  rw [mmioWrite32OrLess]
  dsimp only
  cases pair with
  | enable =>
      cases set with
      | true =>
          rw [if_neg (hnot (by decide)), if_neg (hnot (by decide))]
          exact if_pos h
      | false =>
          rw [if_neg (hnot (by decide)), if_neg (hnot (by decide)), if_neg (hnot (by decide))]
          exact if_pos h
  | active =>
      cases set with
      | true =>
          rw [if_neg (hnot (by decide)), if_neg (hnot (by decide)), if_neg (hnot (by decide)),
            if_neg (hnot (by decide)), if_neg (hnot (by decide)), if_neg (hnot (by decide))]
          exact if_pos h
      | false =>
          rw [if_neg (hnot (by decide)), if_neg (hnot (by decide)), if_neg (hnot (by decide)),
            if_neg (hnot (by decide)), if_neg (hnot (by decide)), if_neg (hnot (by decide)),
            if_neg (hnot (by decide))]
          exact if_pos h

theorem mmioRead32OrLess_flag {acc : IrqMmioAccess}
    (h : within acc.offset (pair.base set) (pair.last set) = true) :
    g.mmioRead32OrLess cpu acc = g.read cpu { acc with baseAbs := pair.base set }
      fun irq => (pair.flag irq).toUInt64 := by
  have hnot {first last : UInt64} (hdisjoint : pair.last set < first ∨ last < pair.base set) :
      ¬within acc.offset first last = true :=
    Bool.not_eq_true _ ▸ within_of_disjoint h hdisjoint
  rw [mmioRead32OrLess]
  dsimp only
  cases pair with
  | enable =>
      cases set with
      | true =>
          rw [if_neg (hnot (by decide)), if_neg (hnot (by decide)), if_neg (hnot (by decide)),
            if_neg (hnot (by decide))]
          exact if_pos h
      | false =>
          rw [if_neg (hnot (by decide)), if_neg (hnot (by decide)), if_neg (hnot (by decide)),
            if_neg (hnot (by decide)), if_neg (hnot (by decide))]
          exact if_pos h
  | active =>
      cases set with
      | true =>
          rw [if_neg (hnot (by decide)), if_neg (hnot (by decide)), if_neg (hnot (by decide)),
            if_neg (hnot (by decide)), if_neg (hnot (by decide)), if_neg (hnot (by decide)),
            if_neg (hnot (by decide)), if_neg (hnot (by decide))]
          exact if_pos h
      | false =>
          rw [if_neg (hnot (by decide)), if_neg (hnot (by decide)), if_neg (hnot (by decide)),
            if_neg (hnot (by decide)), if_neg (hnot (by decide)), if_neg (hnot (by decide)),
            if_neg (hnot (by decide)), if_neg (hnot (by decide)), if_neg (hnot (by decide))]
          exact if_pos h

theorem mmioWrite32OrLess_gap {acc : IrqMmioAccess} (h : within acc.offset 0x37a 0x37f = true) :
    g.mmioWrite32OrLess cpu acc value = (true, g) := by
  have hnot {first last : UInt64} (hdisjoint : 0x37f < first ∨ last < 0x37a) :
      within acc.offset first last = false := within_of_disjoint h hdisjoint
  rw [mmioWrite32OrLess]
  dsimp only
  rw [hnot (by decide), hnot (by decide), hnot (by decide), hnot (by decide), hnot (by decide),
    hnot (by decide), hnot (by decide), hnot (by decide), hnot (by decide), hnot (by decide),
    hnot (by decide), hnot (by decide), hnot (by decide), hnot (by decide), hnot (by decide)]
  rfl

theorem mmioRead32OrLess_gap {acc : IrqMmioAccess} (h : within acc.offset 0x37a 0x37f = true) :
    g.mmioRead32OrLess cpu acc = .shows 0 := by
  have hnot {first last : UInt64} (hdisjoint : 0x37f < first ∨ last < 0x37a) :
      within acc.offset first last = false := within_of_disjoint h hdisjoint
  have hpidr : g.pidr acc.offset = none := by
    rw [pidr, hnot (by decide), hnot (by decide), hnot (by decide), hnot (by decide),
      hnot (by decide), hnot (by decide)]
    rfl
  rw [mmioRead32OrLess]
  dsimp only
  rw [hpidr, hnot (by decide), hnot (by decide), hnot (by decide), hnot (by decide),
    hnot (by decide), hnot (by decide), hnot (by decide), hnot (by decide), hnot (by decide),
    hnot (by decide), hnot (by decide), hnot (by decide), hnot (by decide), hnot (by decide),
    hnot (by decide), hnot (by decide), hnot (by decide), hnot (by decide)]
  rfl

section Accesses

variable (hconf : g.configuredIrqs ≤ maxIrqNoLpi) (hcpu : cpu < g.numVcpus) (hk : k < 128)
  (hbytes : bytes ≤ 4)

include hk in
theorem within_page : within (pair.byteAt set k) 0x0 0xfff = true :=
  within_low (pair.base set) (by cases pair <;> cases set <;> decide) hk

include hconf hcpu hk hbytes

/-- **Writes** do what they should, but for the bytes that ISACTIVER lacks. -/
theorem writesFlags (hlast : pair = .active → set = true → k < 0x7a) :
    g.WritesFlags cpu pair set k bytes value := by
  have hacc := @bitwise_flagAccess g k pair set bytes hconf hk hbytes
  rw [WritesFlags, mmioWrite_eq hcpu hbytes (within_page hk),
    mmioWrite32OrLess_flag (within_register hk hlast)]
  exact hacc.write hk (pair.put_put set)

/-- **Reads** show the flags, but for the bytes that ISACTIVER lacks. -/
theorem readsFlags (hlast : pair = .active → set = true → k < 0x7a) :
    g.ReadsFlags cpu pair set k bytes := by
  have hacc := @bitwise_flagAccess g k pair set bytes hconf hk hbytes
  rw [ReadsFlags, mmioRead_eq hcpu hbytes (within_page hk),
    mmioRead32OrLess_flag (within_register hk hlast)]
  exact hacc.read hk pair.flag

omit hconf in
/-- **The bytes that ISACTIVER lacks** are ignored, and read as zeros. -/
theorem mmioWrite_gap (hgap : 0x7a ≤ k) :
    g.mmioWrite cpu (FlagPair.active.byteAt true k) bytes value = (true, g) ∧
      g.mmioRead cpu (FlagPair.active.byteAt true k) bytes = .shows 0 := by
  have hin : within (FlagPair.active.byteAt true k) 0x37a 0x37f = true := by
    refine within_window _ _ _ (by decide) (by omega) ?_ ?_
    · show 0x37a ≤ 0x300 + k
      omega
    · show 0x300 + k ≤ 0x37f
      omega
  rw [mmioWrite_eq hcpu hbytes (within_page hk), mmioRead_eq hcpu hbytes (within_page hk)]
  exact ⟨mmioWrite32OrLess_gap hin, mmioRead32OrLess_gap hin⟩

omit hcpu in
theorem lt_of_mem_flagAccess {p : ℕ × ℕ} (hp : p ∈ (g.flagAccess pair set k bytes).irqs) :
    p.2 < g.configuredIrqs :=
  ((bitwise_flagAccess hconf hk hbytes).mem_irqs_iff.1 hp).2.1

/-- **The registers set, clear and show exactly the flags of the interrupts they are accessed for**,
unless the access is to the bytes that ISACTIVER lacks and an interrupt there is active or is to
be. -/
theorem flags_exact_iff :
    g.FlagsExact cpu pair set k bytes value ↔ g.FlagsReached cpu pair set k bytes value := by
  have hconfigured (set' : Bool) : ∀ p ∈ (g.flagAccess pair set' k bytes).irqs,
      p.2 < g.configuredIrqs := fun p hp => lt_of_mem_flagAccess hconf hk hbytes hp
  by_cases hgap : pair = .active ∧ 0x7a ≤ k
  case neg =>
    have hlast (set' : Bool) : pair = .active → set' = true → k < 0x7a := fun hpair _ => by
      rw [← Nat.not_le]
      exact fun hle => hgap ⟨hpair, hle⟩
    refine iff_of_true ⟨writesFlags hconf hcpu hk hbytes (hlast set), fun set' => ?_, hconfigured⟩
      fun hpair hle => absurd ⟨hpair, hle⟩ hgap
    exact readsFlags hconf hcpu hk hbytes (hlast set')
  case pos =>
    obtain ⟨rfl, hle⟩ := hgap
    obtain ⟨hwrite, hread⟩ := @mmioWrite_gap g cpu k bytes value hcpu hk hbytes hle
    constructor
    · rintro ⟨hwrites, hreads, -⟩ - - id hid hlow hhigh
      have hinactive : (g.irqObject cpu id).active = false := by
        obtain ⟨v, hv, hbits⟩ := hreads true
        rw [hread] at hv
        cases hv
        have hbit := hbits (id - 8 * k)
        have hback : 8 * k + (id - 8 * k) = id := by omega
        have hin : id - 8 * k < 8 * bytes.toNat ∧ id < g.configuredIrqs := ⟨by omega, hid⟩
        rw [hback, decide_eq_true hin, Bool.true_and, UInt64.toNat_zero, Nat.zero_testBit] at hbit
        exact hbit.symm
      refine ⟨hinactive, fun hset => ?_⟩
      subst hset
      -- An interrupt that the value marks would have become active.
      rw [WritesFlags, hwrite] at hwrites
      have hsame := congrArg (fun r : Bool × GicD => (r.2.irqObject cpu id).active) hwrites
      dsimp only at hsame
      rw [mapIrqs_irqObject, hinactive] at hsame
      cases hbit : value.toNat.testBit (id - 8 * k) with
      | false => rfl
      | true =>
          rw [if_pos ⟨⟨hid, hlow, hhigh, hbit⟩, .inr rfl⟩] at hsame
          cases hsame
    · intro hreached
      have hreached := hreached rfl hle
      refine ⟨?_, fun set' => ?_, hconfigured⟩
      · cases set with
        | false => exact writesFlags hconf hcpu hk hbytes fun _ hset => by cases hset
        | true =>
            rw [WritesFlags, hwrite]
            refine congrArg (Prod.mk true) (mapIrqs_of_forall_not fun id hmarked => ?_).symm
            obtain ⟨hid, hlow, hhigh, hbit⟩ := hmarked
            rw [(hreached id hid hlow hhigh).2 rfl] at hbit
            cases hbit
      · cases set' with
        | false => exact readsFlags hconf hcpu hk hbytes fun _ hset => by cases hset
        | true =>
            refine ⟨0, hread, fun j => ?_⟩
            rw [UInt64.toNat_zero, Nat.zero_testBit]
            by_cases hj : j < 8 * bytes.toNat ∧ 8 * k + j < g.configuredIrqs
            · have hinactive := (hreached (8 * k + j) hj.2 (by omega) (by omega)).1
              rw [FlagPair.flag, hinactive, Bool.and_false]
            · rw [decide_eq_false hj, Bool.false_and]

end Accesses

/-- The default number of interrupts, less the LPIs. -/
def allLines : GicD := init .gicV3 1 1020

/-- **Interrupt 992 is not made active**: its byte of ISACTIVER is ignored. -/
theorem last_register_ignored :
    ¬allLines.FlagsExact 0 .active true 0x7c 4 1 ∧
      (allLines.mmioWrite 0 0x37c 4 1).1 = true ∧
      ((allLines.mmioWrite 0 0x37c 4 1).2.irqObject 0 992).active = false := by
  refine ⟨fun hexact => ?_, by decide +kernel, by decide +kernel⟩
  have hset := congrArg (fun r : Bool × GicD => (r.2.irqObject 0 992).active) hexact.writes
  revert hset
  decide +kernel

/-- Interrupts 32 to 63 are enabled by one write. -/
theorem second_register_exact : allLines.FlagsExact 0 .enable true 4 4 0xffffffff :=
  flags_exact_iff (by decide) (by decide) (by decide) (by decide) |>.2 nofun

end GicD

end Vml
