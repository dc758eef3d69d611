import Mathlib.Data.Nat.Bitwise
import Vml.GicRead
import Vml.Pl011

/-!
# What a read returns to the guest

A device that is read over MMIO gets the buffer of its caller by reference. What is in it afterwards
goes to a register of the guest: it should be what the device shows, and no longer than the read.

Most reads either fail or store one value to the buffer (`ReadEffect`), which is masked, or put
together from the fields of as many interrupts as the access has room for. The exceptions are reads
that succeed without a store, the copy of some bytes of a configuration space, and registers that
are stored as a whole.

Main result: `reads_sound_iff`: which reads are sound, for every state of the distributor, of a
redistributor, of the virtio transport and of the UART.
-/

namespace Vml

/-- **A sound read** of `bytes` bytes. A successful one returns the same whatever was in the buffer,
and no more than it was asked for. -/
structure ReadSound (read : UInt64 → Bool × UInt64) (bytes : UInt8) : Prop where
  independent : ∀ buffer buffer', (read buffer).1 = true → read buffer' = read buffer
  bounded : ∀ buffer, (read buffer).1 = true → (read buffer).2.toNat < 2 ^ (8 * bytes.toNat)

/-! ## Values of so many bytes -/

/-- The value has at most so many bytes. -/
def HasBytes (bytes : UInt8) (value : UInt64) : Prop := value.toNat < 2 ^ (8 * bytes.toNat)

section HasBytes

variable {bytes : UInt8} {value : UInt64}

theorem hasBytes_zero : HasBytes bytes 0 := Nat.two_pow_pos _

theorem hasBytes_of_le {n : ℕ} (h : value.toNat < 2 ^ n) (hn : n ≤ 8 * bytes.toNat) :
    HasBytes bytes value := Nat.lt_of_lt_of_le h (Nat.pow_le_pow_right (by decide) hn)

theorem hasBytes_of_eight_le (h : 8 ≤ bytes.toNat) : HasBytes bytes value :=
  hasBytes_of_le value.toNat_lt (by omega)

theorem hasBytes_byte_iff (hpos : 0 < value.toNat) (hlt : value.toNat < 256) :
    HasBytes bytes value ↔ bytes ≠ 0 := by
  constructor
  · rintro h rfl
    exact absurd (Nat.lt_one_iff.1 h) (Nat.ne_of_gt hpos)
  · intro hbytes
    have hone : 1 ≤ bytes.toNat := Nat.one_le_iff_ne_zero.2 fun h => hbytes (UInt8.toNat_inj.1 h)
    exact hasBytes_of_le (show value.toNat < 2 ^ 8 from hlt) (by omega)

theorem hasBytes_or {a b : UInt64} (ha : HasBytes bytes a) (hb : HasBytes bytes b) :
    HasBytes bytes (a ||| b) := by
  rw [HasBytes, UInt64.toNat_or]
  exact Nat.or_lt_two_pow ha hb

theorem hasBytes_and_byteMask : HasBytes bytes (value &&& byteMask bytes) := by
  by_cases h : 8 ≤ bytes.toNat
  · exact hasBytes_of_eight_le h
  · rw [HasBytes, UInt64.toNat_and, byteMask_toNat (Nat.not_le.1 h),
      Nat.and_two_pow_sub_one_eq_mod]
    exact Nat.mod_lt _ (Nat.two_pow_pos _)

theorem hasBytes_shiftLeft {i n : ℕ} (h : value.toNat < 2 ^ n)
    (hroom : i * n + n ≤ 8 * bytes.toNat) : HasBytes bytes (value <<< UInt64.ofNat (i * n)) := by
  by_cases h8 : 8 ≤ bytes.toNat
  · exact hasBytes_of_eight_le h8
  · refine hasBytes_of_le ?_ hroom
    have hshift : (UInt64.ofNat (i * n)).toNat = i * n :=
      UInt64.toNat_ofNat_of_lt' (show i * n < 2 ^ 64 by omega)
    rw [UInt64.toNat_shiftLeft, hshift, Nat.shiftLeft_eq,
      Nat.mod_eq_of_lt (show i * n < 64 by omega)]
    refine Nat.lt_of_le_of_lt (Nat.mod_le _ _) ?_
    rw [Nat.pow_add, Nat.mul_comm]
    exact Nat.mul_lt_mul_of_pos_left h (Nat.two_pow_pos _)

end HasBytes

/-! ## Effects -/

namespace ReadEffect

/-- The read fails, or stores a value of so many bytes. -/
def Sound (bytes : UInt8) : ReadEffect → Prop
  | fails => True
  | shows value => HasBytes bytes value
  | ignored => False

theorem readSound_run_iff {e : ReadEffect} {bytes : UInt8} :
    ReadSound e.run bytes ↔ e.Sound bytes := by
  cases e with
  | fails => exact iff_of_true ⟨fun _ _ => nofun, fun _ => nofun⟩ trivial
  | shows value => exact ⟨fun h => h.bounded 0 rfl, fun h => ⟨fun _ _ _ => rfl, fun _ _ => h⟩⟩
  | ignored =>
      refine iff_of_false (fun h => ?_) id
      have hbuffer : (true, (1 : UInt64)) = (true, 0) := h.independent 0 1 rfl
      cases hbuffer

theorem sound_ite_iff {c P : Prop} [Decidable c] {e e' : ReadEffect} {bytes : UInt8}
    (he : c → (e.Sound bytes ↔ P)) (he' : ¬c → (e'.Sound bytes ↔ P)) :
    (if c then e else e').Sound bytes ↔ P := by
  split_ifs with hc
  · exact he hc
  · exact he' hc

end ReadEffect

/-! ## The interrupt fields of an access -/

namespace IrqMmioAccess

variable {acc : IrqMmioAccess}

/-- An access is to no more interrupts than its bytes have room for. -/
theorem numIrqs_le : acc.numIrqs.toNat ≤ acc.bytes.toNat * acc.irqPerBytes.toNat := by
  have hn : (acc.bytes.toUInt16 * acc.irqPerBytes.toUInt16).toNat =
      acc.bytes.toNat * acc.irqPerBytes.toNat := by
    have hb := acc.bytes.toNat_lt
    have hper := acc.irqPerBytes.toNat_lt
    have hmul : acc.bytes.toNat * acc.irqPerBytes.toNat ≤ 255 * 255 :=
      Nat.mul_le_mul (by omega) (by omega)
    rw [UInt16.toNat_mul, UInt8.toNat_toUInt16, UInt8.toNat_toUInt16]
    exact Nat.mod_eq_of_lt (by omega)
  rw [numIrqs]
  split_ifs with hmax
  · exact Nat.zero_le _
  · rw [← hn]
    dsimp only
    generalize acc.bytes.toUInt16 * acc.irqPerBytes.toUInt16 = n
    split_ifs with hover
    · have hfirst := UInt16.lt_iff_toNat_lt.1 (UInt16.not_le.1 hmax)
      have habs := UInt16.lt_iff_toNat_lt.1 hover
      rw [UInt16.toNat_add] at habs
      rw [UInt16.toNat_sub, UInt16.toNat_sub, UInt16.toNat_add]
      have := n.toNat_lt
      have := acc.firstIrqAccessed.toNat_lt
      have := acc.irqMax.toNat_lt
      omega
    · rw [UInt16.sub_zero]

theorem lt_of_mem_irqs {p : ℕ × ℕ} (h : p ∈ acc.irqs) :
    p.1 < acc.bytes.toNat * acc.irqPerBytes.toNat := by
  rw [irqs] at h
  split_ifs at h with hvalid
  · obtain ⟨i, hi, rfl⟩ := List.mem_map.1 h
    exact Nat.lt_of_lt_of_le (List.mem_range.1 hi) numIrqs_le
  · cases h

@[simp] theorem bytes_configureAccess (type : AccessType) :
    (acc.configureAccess type).bytes = acc.bytes := by
  cases type <;> rfl

@[simp] theorem irqPerBytes_configureAccess (type : AccessType) :
    (acc.configureAccess type).irqPerBytes = acc.irqPerBytes := by
  cases type <;> rfl

end IrqMmioAccess

/-! ## The GIC -/

namespace GicD

open ReadEffect

variable {g : GicD} {cpu : ℕ} {acc : IrqMmioAccess} {offset : UInt64} {bytes : UInt8}

theorem testBit_or_shiftLeft (value : UInt64) (b : Bool) {n : ℕ} (hn : n < 64) (j : ℕ) :
    (value ||| b.toUInt64 <<< UInt64.ofNat n).toNat.testBit j =
      (value.toNat.testBit j || (b && decide (n = j))) := by
  have hshift : (UInt64.ofNat n).toNat % 64 = n := by
    rw [UInt64.toNat_ofNat_of_lt' (hn.trans (by decide)), Nat.mod_eq_of_lt hn]
  rw [UInt64.toNat_or, Nat.testBit_or, UInt64.toNat_shiftLeft, hshift]
  cases b with
  | false =>
      have hzero : false.toUInt64.toNat = 0 := rfl
      rw [hzero, Nat.zero_shiftLeft, Nat.zero_mod, Nat.zero_testBit, Bool.false_and]
  | true =>
      have hlt : 2 ^ n < 2 ^ 64 := Nat.pow_lt_pow_right (by decide) hn
      have hone : true.toUInt64.toNat = 1 := rfl
      rw [hone, Nat.one_shiftLeft, Nat.mod_eq_of_lt hlt, Nat.testBit_two_pow, Bool.true_and]

theorem lt_of_within {first last limit : UInt64} (h : within offset first last = true)
    (hlast : last < limit) : offset < limit :=
  UInt64.lt_of_le_of_lt (of_decide_eq_true h).2 hlast

theorem sound_readRegister (baseReg baseMax value : UInt64) :
    (readRegister offset baseReg baseMax bytes value).Sound bytes := by
  rw [readRegister, Reg.read]
  split_ifs
  · trivial
  · exact hasBytes_and_byteMask

/-- **A read of the fields of some interrupts**, which are as wide as the access says. -/
theorem sound_read {f : Irq → UInt64} (hper : acc.irqPerBytes.toNat * acc.bits = 8)
    (hf : ∀ irq, (f irq).toNat < 2 ^ acc.bits) : (g.read cpu acc f).Sound acc.bytes := by
  have hfold (l : List (ℕ × ℕ)) (v : UInt64) (hv : HasBytes acc.bytes v)
      (hl : ∀ p ∈ l, p.1 < acc.bytes.toNat * acc.irqPerBytes.toNat) :
      HasBytes acc.bytes (l.foldl (fun value p =>
        value ||| f (g.irqObject cpu p.2) <<< UInt64.ofNat (p.1 * acc.bits)) v) := by
    induction l generalizing v with
    | nil => exact hv
    | cons p l ih =>
        refine ih _ (hasBytes_or hv (hasBytes_shiftLeft (hf _) ?_)) fun q hq =>
          hl q (List.mem_cons_of_mem p hq)
        calc p.1 * acc.bits + acc.bits = (p.1 + 1) * acc.bits := (Nat.succ_mul ..).symm
          _ ≤ acc.bytes.toNat * acc.irqPerBytes.toNat * acc.bits :=
              Nat.mul_le_mul_right _ (hl p List.mem_cons_self)
          _ = 8 * acc.bytes.toNat := by rw [Nat.mul_assoc, hper, Nat.mul_comm]
  rw [read]
  split_ifs
  · exact hfold acc.irqs 0 hasBytes_zero fun p => IrqMmioAccess.lt_of_mem_irqs
  · trivial

theorem sound_read_bool {f : Irq → Bool} (hper : acc.irqPerBytes = 8 ∨ acc.irqPerBytes = 1) :
    (g.read cpu acc fun irq => (f irq).toUInt64).Sound acc.bytes := by
  have hbit (b : Bool) : b.toUInt64.toNat < 2 := by cases b <;> decide
  obtain hper | hper := hper
  · have hbits : acc.bits = 1 := by rw [IrqMmioAccess.bits, if_pos hper]
    exact sound_read (by rw [hper, hbits]; rfl) fun irq => by rw [hbits]; exact hbit _
  · have hbits : acc.bits = 8 := by rw [IrqMmioAccess.bits, hper]; rfl
    refine sound_read (by rw [hper, hbits]; rfl) fun irq => ?_
    rw [hbits]
    exact Nat.lt_trans (hbit _) (by decide)

theorem sound_read_byte {f : Irq → UInt8} (hbytes : acc.bytes = bytes)
    (hper : acc.irqPerBytes = 1) : (g.read cpu acc fun irq => (f irq).toUInt64).Sound bytes := by
  have hbits : acc.bits = 8 := by rw [IrqMmioAccess.bits, hper]; rfl
  refine hbytes ▸ sound_read (by rw [hper, hbits]; rfl) fun irq => ?_
  rw [hbits, UInt8.toNat_toUInt64]
  exact (f irq).toNat_lt

theorem sound_read_edge (hbytes : acc.bytes = bytes) (hper : acc.irqPerBytes = 4) :
    (g.read cpu acc fun irq => irq.edgeEncoded.toUInt64).Sound bytes := by
  have hbits : acc.bits = 2 := by rw [IrqMmioAccess.bits, hper]; rfl
  refine hbytes ▸ sound_read (by rw [hper, hbits]; rfl) fun irq => ?_
  rw [hbits, Irq.edgeEncoded]
  cases irq.swEdge <;> decide

theorem sound_readPending (base : UInt64) (hbytes : acc.bytes = bytes) :
    (g.readPending cpu acc base).Sound bytes := by
  rw [readPending]
  split_ifs
  · exact hasBytes_zero
  · exact hbytes ▸ sound_read_bool (.inr rfl)

/-- `GICD_PIDR4`, `GICD_PIDR0`, `GICD_PIDR1` or `GICD_PIDR2`, which do not show zero. -/
def isPidr (offset : UInt64) : Bool :=
  within offset 0xffd0 0xffd3 || within offset 0xffe0 0xffe3 || within offset 0xffe4 0xffe7 ||
    within offset 0xffe8 0xffeb

theorem within_of_disjoint {first last first' last' : UInt64} (h : within offset first last = true)
    (hdisjoint : last < first' ∨ last' < first) : within offset first' last' = false := by
  refine decide_eq_false fun hin => ?_
  have h := of_decide_eq_true h
  obtain hlt | hlt := hdisjoint
  · exact UInt64.not_lt.2 (UInt64.le_trans hin.1 h.2) hlt
  · exact UInt64.not_lt.2 (UInt64.le_trans h.1 hin.2) hlt

theorem not_isPidr {first last : UInt64} (h : within offset first last = true)
    (hlow : last < 0xffd0 ∨ 0xffd3 < first) (hhigh : last < 0xffe0 ∨ 0xffeb < first) :
    isPidr offset = false := by
  have hle {limit : UInt64} (hlimit : limit ≤ 0xffeb) (hfirst : (0xffe0 : UInt64) ≤ limit) :
      last < limit ∨ 0xffeb < first := hhigh.imp_left fun hlt => UInt64.lt_of_lt_of_le hlt hfirst
  rw [isPidr, within_of_disjoint h hlow,
    within_of_disjoint h (hhigh.imp_right (UInt64.lt_trans (by decide))),
    within_of_disjoint h ((hle (by decide) (by decide)).imp_right (UInt64.lt_trans (by decide))),
    within_of_disjoint h (hle (by decide) (by decide))]
  rfl

theorem hasBytes_pidr_iff {value : UInt64} (h : g.pidr offset = some value) :
    HasBytes bytes value ↔ (bytes = 0 → isPidr offset = false) := by
  have hshown (hpidr : isPidr offset = true) (hpos : 0 < value.toNat) (hlt : value.toNat < 256) :
      HasBytes bytes value ↔ (bytes = 0 → isPidr offset = false) := by
    rw [hasBytes_byte_iff hpos hlt, hpidr]
    exact ⟨fun hne hzero => absurd hzero hne, fun himp hzero => nomatch himp hzero⟩
  rw [pidr] at h
  -- the version decides only which of two values is shown
  generalize hversion : (if g.version = .gicV3 then 3 else 2 : UInt64) = version at h
  split_ifs at h with h4 h5 h0 h1 h2
  · cases h
    exact hshown (by rw [isPidr, h4]; rfl) (by decide) (by decide)
  · cases h
    refine iff_of_true hasBytes_zero fun _ => ?_
    obtain h5 | h3 := Bool.or_eq_true_iff.1 h5
    · exact not_isPidr h5 (.inr (by decide)) (.inl (by decide))
    · exact not_isPidr h3 (.inr (by decide)) (.inr (by decide))
  · cases h
    exact hshown (by rw [isPidr, h0, Bool.or_true]; rfl) (by decide) (by decide)
  · cases h
    exact hshown (by rw [isPidr, h1, Bool.or_true]; rfl) (by decide) (by decide)
  · cases h
    refine hshown (by rw [isPidr, h2, Bool.or_true]) ?_ ?_ <;> rw [← hversion] <;>
      split_ifs <;> decide

theorem not_isPidr_of_pidr (h : g.pidr offset = none) : isPidr offset = false := by
  rw [pidr] at h
  split_ifs at h with h4 h5 h0 h1 h2
  rw [isPidr, Bool.eq_false_iff.2 h4, Bool.eq_false_iff.2 h0, Bool.eq_false_iff.2 h1,
    Bool.eq_false_iff.2 h2]
  rfl

/-- **Reads of the distributor** of at most four bytes. -/
theorem sound_mmioRead32OrLess_iff (hper : acc.irqPerBytes = 8) :
    (g.mmioRead32OrLess cpu acc).Sound acc.bytes ↔
      (acc.bytes = 0 → isPidr acc.offset = false) := by
  have hlow {first last : UInt64} {e : ReadEffect} (h : within acc.offset first last = true)
      (hlast : last < 0xffd0) (he : e.Sound acc.bytes) :
      e.Sound acc.bytes ↔ (acc.bytes = 0 → isPidr acc.offset = false) :=
    iff_of_true he fun _ =>
      not_isPidr h (.inl hlast) (.inl (UInt64.lt_trans hlast (by decide)))
  have hbytewise (base : UInt64) (type : AccessType) {f : Irq → UInt8} :
      (g.read cpu ({ acc with baseAbs := base, irqPerBytes := 1 }.configureAccess type)
        fun irq => (f irq).toUInt64).Sound acc.bytes :=
    sound_read_byte (IrqMmioAccess.bytes_configureAccess type)
      (IrqMmioAccess.irqPerBytes_configureAccess type)
  have hicfgr (base : UInt64) (type : AccessType) :
      (g.read cpu ({ acc with baseAbs := base, irqPerBytes := 4 }.configureAccess type)
        fun irq => irq.edgeEncoded.toUInt64).Sound acc.bytes :=
    sound_read_edge (IrqMmioAccess.bytes_configureAccess type)
      (IrqMmioAccess.irqPerBytes_configureAccess type)
  rw [mmioRead32OrLess]
  dsimp only
  refine sound_ite_iff (fun h => hlow h (by decide) (sound_readRegister ..)) fun _ => ?_
  refine sound_ite_iff (fun h => hlow h (by decide) (sound_readRegister ..)) fun _ => ?_
  refine sound_ite_iff (fun h => hlow h (by decide) (sound_readRegister ..)) fun _ => ?_
  refine sound_ite_iff (fun h => hlow h (by decide) (sound_read_bool (.inl hper))) fun _ => ?_
  refine sound_ite_iff (fun h => hlow h (by decide) (sound_read_bool (.inl hper))) fun _ => ?_
  refine sound_ite_iff (fun h => hlow h (by decide) (sound_read_bool (.inl hper))) fun _ => ?_
  refine sound_ite_iff (fun h => hlow h (by decide) (sound_read_bool (.inl hper))) fun _ => ?_
  refine sound_ite_iff (fun h => hlow h (by decide) (sound_read_bool (.inl hper))) fun _ => ?_
  refine sound_ite_iff (fun h => hlow h (by decide) (sound_read_bool (.inl hper))) fun _ => ?_
  refine sound_ite_iff (fun h => hlow h (by decide) (sound_read_bool (.inl hper))) fun _ => ?_
  refine sound_ite_iff (fun h => hlow h (by decide) (sound_read_byte rfl rfl)) fun _ => ?_
  refine sound_ite_iff (fun h => hlow h (by decide) (hbytewise 0x800 .privateOnly)) fun _ => ?_
  refine sound_ite_iff (fun h => hlow h (by decide) (hbytewise 0x820 .spi)) fun _ => ?_
  refine sound_ite_iff (fun h => hlow h (by decide) (hicfgr 0xc00 .sgi)) fun _ => ?_
  refine sound_ite_iff (fun h => hlow h (by decide) (hicfgr 0xc04 .ppi)) fun _ => ?_
  refine sound_ite_iff (fun h => hlow h (by decide) (hicfgr 0xc08 .spi)) fun _ => ?_
  cases hpidr : g.pidr acc.offset with
  | some value => exact hasBytes_pidr_iff hpidr
  | none =>
      refine sound_ite_iff (fun h => hlow h (by decide) (sound_readPending _ rfl)) fun _ => ?_
      refine sound_ite_iff (fun h => hlow h (by decide) (sound_readPending _ rfl)) fun _ => ?_
      exact iff_of_true hasBytes_zero fun _ => not_isPidr_of_pidr hpidr

theorem hasBytes_readIrouter : HasBytes bytes (g.readIrouter cpu offset bytes) := by
  rw [readIrouter]
  split_ifs with hbytes
  · exact hasBytes_zero
  · exact hasBytes_zero
  · exact hasBytes_zero
  · rw [Bool.or_eq_true, not_or, bne_iff_ne, not_not] at hbytes
    rw [hbytes.1]
    exact hasBytes_of_eight_le (Nat.le_refl 8)

/-- **Reads of the distributor** are sound but for those of no bytes. -/
theorem sound_mmioRead_iff : (g.mmioRead cpu offset bytes).Sound bytes ↔
    ¬(bytes = 0 ∧ cpu < g.numVcpus ∧ isPidr offset = true) := by
  rw [mmioRead]
  refine sound_ite_iff (fun h => iff_of_true trivial ?_) fun h => ?_
  · rintro ⟨rfl, hcpu, hpidr⟩
    obtain hoffset | hbytes | hnum := h
    · rw [isPidr] at hpidr
      simp only [Bool.or_eq_true] at hpidr
      obtain ((h | h) | h) | h := hpidr <;>
        exact UInt64.not_lt.2 hoffset (lt_of_within h (by decide))
    · exact absurd hbytes (by decide)
    · exact absurd hcpu (Nat.not_lt.2 hnum)
  · have hcpu : cpu < g.numVcpus := Nat.lt_of_not_le fun hle => h (.inr (.inr hle))
    have hnot (hpidr : isPidr offset = false) :
        ¬(bytes = 0 ∧ cpu < g.numVcpus ∧ isPidr offset = true) := by
      rintro ⟨-, -, htrue⟩
      exact absurd (htrue.symm.trans hpidr) nofun
    refine sound_ite_iff (fun hin => iff_of_true hasBytes_readIrouter (hnot ?_)) fun _ => ?_
    · exact not_isPidr hin (.inl (by decide)) (.inl (by decide))
    refine sound_ite_iff (fun hin => iff_of_true hasBytes_zero (hnot ?_)) fun _ => ?_
    · exact not_isPidr hin (.inl (by decide)) (.inl (by decide))
    refine sound_ite_iff (fun hlt => iff_of_true trivial ?_) fun _ => ?_
    · rintro ⟨rfl, -⟩
      exact absurd hlt (by decide)
    have hper : (g.irqMmioAccess offset bytes .all).irqPerBytes = 8 := rfl
    refine (sound_mmioRead32OrLess_iff hper).trans ?_
    constructor
    · rintro h ⟨hzero, -, hpidr⟩
      exact absurd (hpidr.symm.trans (h hzero)) nofun
    · intro h hzero
      exact Bool.eq_false_iff.2 fun hpidr => h ⟨hzero, hcpu, hpidr⟩

/-- The registers of a redistributor that can be read. -/
def gicRRegisters : List (UInt64 × UInt64) :=
  [(0x0, 0x3), (0x4, 0x7), (0x8, 0xf), (0x14, 0x17), (0x70, 0x77), (0x78, 0x7f), (0xffe8, 0xffeb),
    (0x10080, 0x10083), (0x10100, 0x10103), (0x10180, 0x10183), (0x10200, 0x10203),
    (0x10280, 0x10283), (0x10300, 0x10303), (0x10380, 0x10383), (0x10400, 0x1041f),
    (0x10c00, 0x10c03), (0x10c04, 0x10c07), (0x10d00, 0x10d03), (0x10e00, 0x10e03)]

/-- **The condition** on the read of a redistributor: it is to a register, and the base of a table
is read with as many bytes as it has. -/
structure GicRReadOk (g : GicD) (offset : UInt64) (bytes : UInt8) : Prop where
  register : ∃ r ∈ gicRRegisters, within offset r.1 r.2 = true
  propBaser : within offset 0x70 0x77 = true → HasBytes bytes g.propBaser
  pendBaser : within offset 0x78 0x7f = true → HasBytes bytes g.pendBaser

/-- **Reads of a redistributor.** -/
theorem sound_gicRMmioRead_iff {aff : UInt32} {last : Bool} :
    (g.gicRMmioRead cpu aff last offset bytes).Sound bytes ↔
      (offset < 0x20000 → g.GicRReadOk offset bytes) := by
  have hshown {first last : UInt64} {e : ReadEffect} (h : within offset first last = true)
      (hmem : (first, last) ∈ gicRRegisters) (hbase : last < 0x70 ∨ 0x7f < first)
      (he : e.Sound bytes) : e.Sound bytes ↔ (offset < 0x20000 → g.GicRReadOk offset bytes) := by
    refine iff_of_true he fun _ => ⟨⟨_, hmem, h⟩, fun hprop => ?_, fun hpend => ?_⟩
    · rw [within_of_disjoint h (hbase.imp_right (UInt64.lt_trans (by decide)))] at hprop
      cases hprop
    · rw [within_of_disjoint h (hbase.imp_left (UInt64.lt_trans · (by decide)))] at hpend
      cases hpend
  have hper : (g.irqMmioAccess offset bytes .privateOnly).irqPerBytes = 8 := rfl
  rw [gicRMmioRead]
  dsimp only
  refine sound_ite_iff (fun h => iff_of_true trivial fun hlt => ?_) fun h => ?_
  · exact absurd hlt (UInt64.not_lt.2 h)
  have hin : offset < 0x20000 := UInt64.not_le.1 h
  iterate 5
    refine sound_ite_iff (fun h => hshown h (by decide) (by decide) (sound_readRegister ..))
      fun _ => ?_
  refine sound_ite_iff (fun h => ?_) fun _ => ?_
  · refine ⟨fun hprop _ => ⟨⟨(0x70, 0x77), by decide, h⟩, fun _ => hprop, fun hpend => ?_⟩,
      fun hok => (hok hin).propBaser h⟩
    rw [within_of_disjoint h (.inl (by decide))] at hpend
    cases hpend
  refine sound_ite_iff (fun h => ?_) fun _ => ?_
  · refine ⟨fun hpend _ => ⟨⟨(0x78, 0x7f), by decide, h⟩, fun hprop => ?_, fun _ => hpend⟩,
      fun hok => (hok hin).pendBaser h⟩
    rw [within_of_disjoint h (.inr (by decide))] at hprop
    cases hprop
  refine sound_ite_iff (fun h => ?_) fun hraz => ?_
  · obtain h | h := Bool.or_eq_true_iff.1 h
    · exact hshown h (by decide) (by decide) hasBytes_zero
    · exact hshown h (by decide) (by decide) hasBytes_zero
  obtain ⟨higrpmodr, hnsacr⟩ := not_or.1 (mt Bool.or_eq_true_iff.2 hraz)
  iterate 7
    refine sound_ite_iff (fun h => hshown h (by decide) (by decide) (sound_read_bool (.inl hper)))
      fun _ => ?_
  refine sound_ite_iff (fun h => hshown h (by decide) (by decide) (sound_read_edge rfl rfl))
    fun _ => ?_
  refine sound_ite_iff (fun h => hshown h (by decide) (by decide) (sound_read_edge rfl rfl))
    fun _ => ?_
  refine sound_ite_iff (fun h => hshown h (by decide) (by decide) (sound_read_byte rfl rfl))
    fun _ => ?_
  -- no register has this offset
  refine iff_of_false id fun hok => ?_
  obtain ⟨r, hr, hwithin⟩ := (hok hin).register
  simp only [gicRRegisters, List.mem_cons, List.not_mem_nil, or_false] at hr
  rcases hr with rfl | rfl | rfl | rfl | rfl | rfl | rfl | rfl | rfl | rfl | rfl | rfl | rfl |
    rfl | rfl | rfl | rfl | rfl | rfl <;> exact absurd hwithin (by assumption)

end GicD

/-! ## The virtio transport -/

namespace DeviceState

variable {s : DeviceState} {offset : UInt64} {bytes : UInt8}

/-- The read is to the configuration space, and succeeds. -/
structure ReadsConfig (s : DeviceState) (offset : UInt64) (bytes : UInt8) : Prop where
  size : bytes ≤ 4
  config : rwConfig.contains offset = true
  window : offset + bytes.toUInt64 ≤ rwConfig.last
  space : offset - rwConfig.base + bytes.toUInt64 ≤ s.configSize.toUInt64

theorem lt_of_registerValue {p : Reg × UInt64} (h : s.registerValue offset = some p) :
    offset < 0x100 := by
  have hlow {r : Reg} (hin : r.contains offset = true) (hlast : r.last < 0x100) :
      offset < 0x100 := UInt64.lt_of_le_of_lt (of_decide_eq_true hin).2 hlast
  have hcase {c : Prop} [Decidable c] {q : Reg × UInt64} {e : Option (Reg × UInt64)}
      (h : (if c then some q else e) = some p) : c ∨ e = some p := by
    by_cases hc : c
    · exact .inl hc
    · exact .inr ((if_neg hc).symm.trans h)
  rw [registerValue] at h
  iterate 12
    obtain hin | h := hcase h
    · exact hlow hin (by decide)
  cases h

/-- A copy of at most four bytes leaves the top of the buffer as it is. -/
theorem msb_loadBytes {m : ℕ → UInt8} {off n : ℕ} {buffer : UInt64} (hn : n ≤ 4) :
    (loadBytes m off n buffer).toBitVec.msb = buffer.toBitVec.msb := by
  induction n with
  | zero => rfl
  | succ n ih =>
      rw [loadBytes, List.range_succ, List.foldl_append]
      have ih := ih (by omega)
      rw [loadBytes] at ih
      generalize (List.range n).foldl _ _ = v at ih ⊢
      rw [← ih, List.foldl_cons, List.foldl_nil]
      generalize m (off + n) = b
      have hn : n < 4 := hn
      have hmask : (~~~((0xFF : UInt64) <<< (8 * UInt64.ofNat n))).toBitVec.msb = true := by
        interval_cases n <;> rfl
      have hbyte : (b.toUInt64 <<< (8 * UInt64.ofNat n)).toBitVec.msb = false := by
        interval_cases n <;> simp [BitVec.msb_eq_getLsbD_last]
      rw [UInt64.toBitVec_or, UInt64.toBitVec_and, BitVec.msb_or, BitVec.msb_and, hmask, hbyte,
        Bool.and_true, Bool.or_false]

/-- **Reads of the virtio transport** are sound but for those of the configuration space. -/
theorem readSound_mmioRead_iff :
    ReadSound (s.mmioRead offset bytes) bytes ↔ ¬s.ReadsConfig offset bytes := by
  have hfails {read : UInt64 → Bool × UInt64} (h : ∀ buffer, read buffer = (false, buffer)) :
      ReadSound read bytes := by
    obtain rfl : read = ReadEffect.fails.run := funext h
    exact ReadEffect.readSound_run_iff.2 trivial
  by_cases hsize : 4 < bytes
  · refine iff_of_true (hfails fun buffer => ?_) fun h => UInt8.not_lt.2 h.size hsize
    rw [mmioRead, if_pos hsize]
  cases hvalue : s.registerValue offset with
  | some p =>
      have hnot : ¬s.ReadsConfig offset bytes := fun h =>
        UInt64.not_lt.2 (of_decide_eq_true h.config).1 (lt_of_registerValue hvalue)
      refine iff_of_true ?_ hnot
      cases hread : p.1.read offset bytes p.2 with
      | none =>
          refine hfails fun buffer => ?_
          rw [mmioRead, if_neg hsize, hvalue]
          dsimp only
          rw [hread]
      | some v =>
          have hshows : s.mmioRead offset bytes = (ReadEffect.shows v).run := by
            funext buffer
            rw [mmioRead, if_neg hsize, hvalue]
            dsimp only
            rw [hread]
            rfl
          rw [hshows, ReadEffect.readSound_run_iff]
          rw [Reg.read] at hread
          split_ifs at hread
          cases hread
          exact hasBytes_and_byteMask
  | none =>
      by_cases hconfig : s.ReadsConfig offset bytes
      · refine iff_of_false (fun h => ?_) (not_not.2 hconfig)
        have hread (buffer : UInt64) : s.mmioRead offset bytes buffer = (true, loadBytes
            s.configSpace (offset - rwConfig.base).toNat bytes.toNat buffer) := by
          rw [mmioRead, if_neg hsize, hvalue]
          dsimp only
          rw [if_pos hconfig.config, if_neg (UInt64.not_lt.2 hconfig.window), configSpaceRead]
          exact if_neg (UInt64.not_lt.2 hconfig.space)
        have hsame := h.independent 0 0x8000000000000000 (by rw [hread])
        rw [hread, hread, Prod.mk.injEq] at hsame
        have hmsb := congrArg (·.toBitVec.msb) hsame.2
        dsimp only at hmsb
        have hle : bytes.toNat ≤ 4 := UInt8.le_iff_toNat_le.1 (UInt8.not_lt.1 hsize)
        rw [msb_loadBytes hle, msb_loadBytes hle] at hmsb
        cases hmsb
      · refine iff_of_true (hfails fun buffer => ?_) hconfig
        rw [mmioRead, if_neg hsize, hvalue]
        dsimp only
        split_ifs with hin hwindow
        · rfl
        · rw [configSpaceRead]
          refine if_pos (UInt64.not_le.1 fun hspace => hconfig ?_)
          exact ⟨UInt8.not_lt.1 hsize, hin, UInt64.not_lt.1 hwindow, hspace⟩
        · rfl

end DeviceState

/-! ## The UART -/

namespace Pl011

variable {u : Pl011} {offset : UInt64} {size : UInt8}

/-- A read, without the state it leaves. -/
def readBuffer (u : Pl011) (offset buffer : UInt64) : Bool × UInt64 :=
  ((u.mmioRead offset buffer).1, (u.mmioRead offset buffer).2.1)

/-- **The condition** on the read of a register: it is not that of `UARTICR`, and what the register
holds has no more bytes than are read. -/
def ReadOk (u : Pl011) (size : UInt8) : UartReg → Prop
  | .icr => False
  | .rsr | .periphId3 => True
  | .fr | .periphId0 | .periphId1 | .periphId2 | .pcellId0 | .pcellId1 | .pcellId2 | .pcellId3 =>
      size ≠ 0
  | .dr => u.takes = true → HasBytes size u.rxFifo.dequeue.1.toUInt64
  | .ilpr => HasBytes size u.ilpr.toUInt64
  | .ibrd => HasBytes size u.ibrd.toUInt64
  | .fbrd => HasBytes size u.fbrd.toUInt64
  | .lcrH => HasBytes size u.lcrh.toUInt64
  | .cr => HasBytes size u.cr.toUInt64
  | .ifls => HasBytes size u.ifls.toUInt64
  | .imsc => HasBytes size u.imsc.toUInt64
  | .ris => HasBytes size u.ris.toUInt64
  | .mis => HasBytes size (u.ris &&& u.imsc).toUInt64
  | .dmacr => HasBytes size u.dmacr.toUInt64

/-- **Reads of the UART.** -/
theorem readSound_readBuffer_iff : ReadSound (u.readBuffer offset) size ↔
    ∀ reg, UartReg.ofOffset offset = some reg → u.ReadOk size reg := by
  cases hreg : UartReg.ofOffset offset with
  | none =>
      have hread : u.readBuffer offset = ReadEffect.fails.run := by
        funext buffer
        rw [readBuffer, mmioRead, hreg]
        rfl
      rw [hread, ReadEffect.readSound_run_iff]
      exact iff_of_true trivial fun _ => (by simp)
  | some reg =>
      have hone : (∀ reg', some reg = some reg' → u.ReadOk size reg') ↔ u.ReadOk size reg :=
        ⟨fun h => h reg rfl, fun h reg' heq => Option.some.inj heq ▸ h⟩
      have heffect {e : ReadEffect} (he : ∀ buffer, u.readBuffer offset buffer = e.run buffer) :
          ReadSound (u.readBuffer offset) size ↔ e.Sound size := by
        rw [funext he, ReadEffect.readSound_run_iff]
      have hshows (value : UInt64) (hv : ∀ buffer, u.readBuffer offset buffer = (true, value)) :
          ReadSound (u.readBuffer offset) size ↔ HasBytes size value :=
        heffect (e := .shows value) hv
      have hbyte (value : UInt64) (hpos : 0 < value.toNat) (hlt : value.toNat < 256)
          (hv : ∀ buffer, u.readBuffer offset buffer = (true, value)) :
          ReadSound (u.readBuffer offset) size ↔ size ≠ 0 :=
        (hshows value hv).trans (hasBytes_byte_iff hpos hlt)
      have hzero (hv : ∀ buffer, u.readBuffer offset buffer = (true, 0)) :
          ReadSound (u.readBuffer offset) size ↔ True :=
        (hshows 0 hv).trans (iff_of_true hasBytes_zero trivial)
      rw [hone]
      have hread (buffer : UInt64) : u.readBuffer offset buffer =
          ((u.mmioRead offset buffer).1, (u.mmioRead offset buffer).2.1) := rfl
      simp only [mmioRead, hreg] at hread
      cases reg with
      | icr => exact heffect (e := .ignored) hread
      | dr =>
          refine (hshows _ hread).trans ?_
          rw [mmioReadDr, ReadOk]
          split_ifs with htakes
          · exact ⟨fun h _ => h, fun h => h htakes⟩
          · exact iff_of_true hasBytes_zero fun h => absurd h htakes
      | rsr => exact hzero hread
      | periphId3 => exact hzero hread
      | fr => exact hbyte _ (by split_ifs <;> decide) (by split_ifs <;> decide) hread
      | periphId0 => exact hbyte _ (by decide) (by decide) hread
      | periphId1 => exact hbyte _ (by decide) (by decide) hread
      | periphId2 => exact hbyte _ (by decide) (by decide) hread
      | pcellId0 => exact hbyte _ (by decide) (by decide) hread
      | pcellId1 => exact hbyte _ (by decide) (by decide) hread
      | pcellId2 => exact hbyte _ (by decide) (by decide) hread
      | pcellId3 => exact hbyte _ (by decide) (by decide) hread
      | _ => exact hshows _ hread

end Pl011

/-! ## Every device -/

/-- **Which reads are sound**, for every state of every device, and every offset and size: those of
the distributor, of no bytes apart; of a redistributor those of a register, where the base of a
table is read as a whole; all of the virtio transport but those of the configuration space; and of
the UART those of a register other than `UARTICR` that holds no more than is read. -/
theorem reads_sound_iff (g : GicD) (cpu : ℕ) (aff : UInt32) (last : Bool) (s : DeviceState)
    (u : Pl011) (offset : UInt64) (bytes : UInt8) :
    (ReadSound (g.mmioRead cpu offset bytes).run bytes ↔
      ¬(bytes = 0 ∧ cpu < g.numVcpus ∧ GicD.isPidr offset = true)) ∧
    (ReadSound (g.gicRMmioRead cpu aff last offset bytes).run bytes ↔
      (offset < 0x20000 → g.GicRReadOk offset bytes)) ∧
    (ReadSound (s.mmioRead offset bytes) bytes ↔ ¬s.ReadsConfig offset bytes) ∧
    (ReadSound (u.readBuffer offset) bytes ↔
      ∀ reg, UartReg.ofOffset offset = some reg → u.ReadOk bytes reg) := by
  refine ⟨?_, ?_, DeviceState.readSound_mmioRead_iff, Pl011.readSound_readBuffer_iff⟩
  · exact ReadEffect.readSound_run_iff.trans GicD.sound_mmioRead_iff
  · exact ReadEffect.readSound_run_iff.trans GicD.sound_gicRMmioRead_iff

/-- A GIC whose guest has stored the base of its pending table. -/
def pendBaserGic : GicD :=
  { version := .gicV3, numVcpus := 1, configuredIrqs := 64, pendBaser := 0x100010000 }

/-- A device with a configuration space of eight bytes. -/
def eightByteConfig : DeviceState := { queueNumMax := 16, deviceId := 3, configSize := 8 }

/-- The read of `GICR_STATUSR`, of the configuration space and of `UARTICR` return what the caller
had in its buffer, and that of four bytes of `GICR_PENDBASER` and of one of `UARTCR` return more. -/
theorem reads_unsound :
    ¬ReadSound (pendBaserGic.gicRMmioRead 0 0 true 0x10 4).run 4 ∧
      ¬ReadSound (eightByteConfig.mmioRead 0x100 1) 1 ∧
      ¬ReadSound ((Pl011.init true).readBuffer 0x44) 4 ∧
      ¬ReadSound (pendBaserGic.gicRMmioRead 0 0 true 0x78 4).run 4 ∧
      ¬ReadSound ((Pl011.init true).readBuffer 0x30) 1 := by
  refine ⟨fun h => ?_, fun h => ?_, fun h => ?_, fun h => ?_, fun h => ?_⟩
  · exact absurd (h.independent 0 0xdeadbeef (by decide)) (by decide)
  · exact absurd (h.independent 0 0xdeadbeef (by decide)) (by decide)
  · exact absurd (h.independent 0 0xdeadbeef (by decide)) (by decide)
  · exact absurd (h.bounded 0 (by decide)) (by decide)
  · exact absurd (h.bounded 0 (by decide)) (by decide)

end Vml
