import Vml.CpuAffinity
import Vml.GicRead
import Vml.GitsQueue
import Vml.LpiDelivery

/-!
# The vCPU of an MSI

A redistributor says in GICR_TYPER which number its vCPU has. The guest gives the number to the ITS
with MAPC, for a collection, and an event to the collection with MAPTI. The number goes through a
field of the command and the table of the collections in the memory of the guest, and back to a vCPU
(`gicr.cpp`, `gits.cpp`, `cpu_affinity.hpp`).

**The number** is Aff1 and Aff0 (`processorNumber_gicRTyper`). The ITS keeps all of it, but takes its
low byte for the vCPU, which is Aff0 alone (`translate_mapped`). By `from_vcpu_id` that is the vCPU
in the first 16, and another vCPU beyond.

Main result: `ItsSys.msi_asserted_iff`.
-/

namespace Vml

/-! ## The number of a redistributor -/

/-- The field of GICR_TYPER with the number, bits 23 to 8. -/
def processorNumber (typer : UInt64) : UInt16 := (typer >>> 8).toUInt16

/-! ## The commands of the guest -/

/-- The words of a command. -/
abbrev ItsCommand := UInt64 × UInt64 × UInt64

/-- MAPC, which maps a collection to a number. -/
def mapcCommand (icid number : UInt16) : ItsCommand :=
  (0x09, 0, (1 : UInt64) <<< 63 ||| number.toUInt64 <<< 16 ||| icid.toUInt64)

/-- MAPTI, which maps an event of a device to an LPI of a collection. -/
def maptiCommand (devId eventId pintid : UInt32) (icid : UInt16) : ItsCommand :=
  (devId.toUInt64 <<< 32 ||| 0x0a, pintid.toUInt64 <<< 32 ||| eventId.toUInt64, icid.toUInt64)

/-- The eight bytes of an entry can be read and written. -/
def GuestBus.Accessible (b : GuestBus) (addr : UInt64) : Prop :=
  b.readable addr 8 = true ∧ b.writable addr 8 = true

namespace ItsSys

/-- `handle_command` of the words of a command. -/
def execCommand (s : ItsSys) (q : ItsCommand) : Option ItsSys := s.handleCommand q.1 q.2.1 q.2.2

/-- The entry of the collection is what a MAPC has written. -/
def MapsCollection (s : ItsSys) (icid number : UInt16) : Prop :=
  ∃ s₀ s₁ : ItsSys, s₀.bus.Accessible (s₀.its.collectionEntryAddr icid) ∧
    s₀.execCommand (mapcCommand icid number) = some s₁ ∧
    s.its.readCollectionTable s.bus icid = s₁.its.readCollectionTable s₁.bus icid

/-- The device has a translation table, and its entry of the event is what a MAPTI has written. -/
def MapsEvent (s : ItsSys) (devId eventId pintid : UInt32) (icid : UInt16) : Prop :=
  ∃ (s₀ s₁ : ItsSys) (itt : UInt64), itt ≠ 0 ∧ s₀.its.readDeviceTable s₀.bus devId = itt ∧
    s₀.bus.Accessible (Gits.ittEntryAddr itt eventId) ∧
    s₀.execCommand (maptiCommand devId eventId pintid icid) = some s₁ ∧
    s.its.readDeviceTable s.bus devId = itt ∧
    Gits.readTranslationTable s.bus itt eventId = Gits.readTranslationTable s₁.bus itt eventId

/-- The LPI can be asserted: it is not pending, and enabled in the table of the guest. -/
structure LpiReady (s : ItsSys) (pintid : ℕ) : Prop where
  range : lpiBase ≤ pintid ∧ pintid < maxIrq
  idle : (s.gic.irqObject 0 pintid).pending = false
  configured : s.gic.propBaser ≠ 0
  enabled : ∃ prop, s.gic.lpiProp s.bus pintid = some prop ∧ prop &&& 1 ≠ 0

end ItsSys

/-- The LPI has been asserted on `v`, and on no other vCPU. -/
structure GicD.AssertedOn (g t : GicD) (pintid v : ℕ) : Prop where
  info : (t.irqObject 0 pintid).injectionInfo = .asserted (.ofCpuId v)
  bit : (t.bank v).pendingIrqs pintid = true
  others : ∀ u, u ≠ v → (t.bank u).pendingIrqs pintid = (g.bank u).pendingIrqs pintid

/-! ## Entries of the tables -/

namespace GuestBus

theorem shift_toNat {i : ℕ} (hi : i < 8) (value : UInt64) :
    (value >>> (8 * UInt64.ofNat i)).toNat = value.toNat / 2 ^ (8 * i) := by
  have hplace : (UInt64.ofNat i).toNat = i :=
    UInt64.toNat_ofNat_of_lt' (by change i < 2 ^ 64; omega)
  have hdist : (8 * UInt64.ofNat i).toNat = 8 * i := by
    have h8 : (8 : UInt64).toNat = 8 := rfl
    rw [UInt64.toNat_mul, hplace, h8, Nat.mod_eq_of_lt (by omega)]
  rw [UInt64.toNat_shiftRight, hdist, Nat.mod_eq_of_lt (by omega), Nat.shiftRight_eq_div_pow]

/-- The bytes of a number, the lowest first, are those of the number. -/
theorem fromBytes_bytes {n : ℕ} (hn : n ≤ 8) (value : UInt64) :
    (fromBytes ((List.range n).map fun i => (value >>> (8 * UInt64.ofNat i)).toUInt8)).toNat =
      value.toNat % 2 ^ (8 * n) := by
  induction n generalizing value with
  | zero =>
    rw [Nat.mul_zero, pow_zero, Nat.mod_one]
    rfl
  | succ n ih =>
    have h8 : (8 : UInt64).toNat % 64 = 8 := rfl
    have hshift : (value >>> 8).toNat = value.toNat / 2 ^ 8 := by
      rw [UInt64.toNat_shiftRight, h8, Nat.shiftRight_eq_div_pow]
    -- the bytes above the lowest are those of the number without it
    have htail : (List.range n).map ((fun i => (value >>> (8 * UInt64.ofNat i)).toUInt8) ∘
        Nat.succ) =
        (List.range n).map fun i => ((value >>> 8) >>> (8 * UInt64.ofNat i)).toUInt8 := by
      apply List.map_congr_left
      intro i hi
      have hlt := List.mem_range.1 hi
      have hpow : 8 * i.succ = 8 + 8 * i := by omega
      rw [Function.comp_apply, ← UInt8.toNat_inj, UInt64.toNat_toUInt8, UInt64.toNat_toUInt8,
        shift_toNat (by omega), shift_toNat (by omega), hshift, Nat.div_div_eq_div_mul, hpow,
        pow_add]
    have hhead : (value >>> (8 * UInt64.ofNat 0)).toUInt8.toUInt64.toNat = value.toNat % 2 ^ 8 := by
      rw [UInt8.toNat_toUInt64, UInt64.toNat_toUInt8, shift_toNat (by decide), Nat.mul_zero,
        pow_zero, Nat.div_one]
    have hlow : value.toNat % 2 ^ 8 < 2 ^ 8 := Nat.mod_lt _ (by decide)
    have hhigh : value.toNat / 2 ^ 8 % 2 ^ (8 * n) * 2 ^ 8 < 2 ^ 64 := by
      have hlt := Nat.mod_lt (value.toNat / 2 ^ 8) (Nat.two_pow_pos (8 * n))
      have hle : 2 ^ (8 * n) ≤ 2 ^ 56 := Nat.pow_le_pow_right (by decide) (by omega)
      omega
    have hpow : 2 ^ (8 * (n + 1)) = 2 ^ 8 * 2 ^ (8 * n) := by
      rw [← pow_add]
      congr 1
      omega
    rw [List.range_succ_eq_map, List.map_cons, List.map_map, htail, fromBytes, List.foldr_cons,
      ← fromBytes, UInt64.toNat_or, UInt64.toNat_shiftLeft, ih (by omega), hhead, hshift, h8,
      Nat.shiftLeft_eq, Nat.mod_eq_of_lt hhigh, ← Nat.shiftLeft_eq,
      ← Nat.shiftLeft_add_eq_or_of_lt hlow, Nat.shiftLeft_eq, hpow, Nat.mod_mul]
    omega

theorem read64_write64 {b : GuestBus} {addr : UInt64} (h : b.Accessible addr) (value : UInt64) :
    (b.write64 addr value).read64 addr = some value := by
  have hread : (b.write64 addr value).readable addr 8 = true := by
    rw [write64, if_pos h.2]
    exact h.1
  have hbytes : ((List.range 8).map fun i => (b.write64 addr value).mem (addr + UInt64.ofNat i)) =
      (List.range 8).map fun i => (value >>> (8 * UInt64.ofNat i)).toUInt8 := by
    apply List.map_congr_left
    intro i hi
    have hlt := List.mem_range.1 hi
    have hoff : addr + UInt64.ofNat i - addr = UInt64.ofNat i := by
      rw [UInt64.add_comm, UInt64.add_sub_cancel]
    have hsmall : UInt64.ofNat i < 8 := by
      have hplace : (UInt64.ofNat i).toNat = i :=
        UInt64.toNat_ofNat_of_lt' (by change i < 2 ^ 64; omega)
      rw [UInt64.lt_iff_toNat_lt, hplace]
      exact hlt
    rw [write64, if_pos h.2]
    dsimp only
    rw [hoff, if_pos hsmall]
  have hvalue := fromBytes_bytes (Nat.le_refl 8) value
  rw [Nat.mod_eq_of_lt value.toNat_lt, UInt64.toNat_inj] at hvalue
  rw [read64, readBus, if_pos hread, hbytes, Option.map_some, hvalue]

end GuestBus

/-! ## Fields -/

theorem toNat_shiftLeft_or {x y : UInt64} {n : UInt64} (hn : n.toNat < 64)
    (hx : x.toNat * 2 ^ n.toNat < 2 ^ 64) (hy : y.toNat < 2 ^ n.toNat) :
    (x <<< n ||| y).toNat = x.toNat * 2 ^ n.toNat + y.toNat := by
  rw [UInt64.toNat_or, UInt64.toNat_shiftLeft, Nat.mod_eq_of_lt hn, Nat.shiftLeft_eq,
    Nat.mod_eq_of_lt hx, ← Nat.shiftLeft_eq, ← Nat.shiftLeft_add_eq_or_of_lt hy]

theorem toNat_words (high low : UInt32) :
    (high.toUInt64 <<< 32 ||| low.toUInt64).toNat = high.toNat * 2 ^ 32 + low.toNat := by
  have h32 : (32 : UInt64).toNat = 32 := rfl
  have hhigh := high.toNat_lt
  have hlow := low.toNat_lt
  rw [toNat_shiftLeft_or (by decide), UInt32.toNat_toUInt64, UInt32.toNat_toUInt64, h32]
  · rw [UInt32.toNat_toUInt64, h32]
    omega
  · rw [UInt32.toNat_toUInt64, h32]
    exact hlow

theorem toUInt32_words (high low : UInt32) :
    (high.toUInt64 <<< 32 ||| low.toUInt64).toUInt32 = low := by
  have hlow := low.toNat_lt
  rw [← UInt32.toNat_inj, UInt64.toNat_toUInt32, toNat_words]
  omega

theorem shiftRight_words (high low : UInt32) :
    ((high.toUInt64 <<< 32 ||| low.toUInt64) >>> 32).toUInt32 = high := by
  have h32 : (32 : UInt64).toNat % 64 = 32 := rfl
  have hhigh := high.toNat_lt
  have hlow := low.toNat_lt
  rw [← UInt32.toNat_inj, UInt64.toNat_toUInt32, UInt64.toNat_shiftRight, h32, toNat_words,
    Nat.shiftRight_eq_div_pow]
  omega

theorem testBit_byte (b : UInt8) {n : UInt64} (hn : n.toNat < 64) {j : ℕ} (hj : j < 64) :
    (b.toUInt64 <<< n).toNat.testBit j =
      (decide (n.toNat ≤ j) && b.toNat.testBit (j - n.toNat)) := by
  rw [UInt64.toNat_shiftLeft, Nat.mod_eq_of_lt hn, UInt8.toNat_toUInt64,
    Nat.testBit_mod_two_pow, Nat.testBit_shiftLeft, decide_eq_true hj, Bool.true_and]

theorem toUInt64_and_byte (x : UInt32) : (x &&& 0xff).toUInt64 = x.toUInt8.toUInt64 := by
  have h : (0xff : UInt32).toNat = 2 ^ 8 - 1 := rfl
  rw [← UInt64.toNat_inj, UInt32.toNat_toUInt64, UInt8.toNat_toUInt64, UInt32.toNat_and, h,
    Nat.and_two_pow_sub_one_eq_mod, UInt32.toNat_toUInt8]

theorem gicRTyper_eq (g : GicD) (aff : CpuAffinity) (last : Bool) :
    g.gicRTyper aff.aff last =
      let ret := (aff.aff3.toUInt64 <<< 56 ||| aff.aff2.toUInt64 <<< 48 |||
        aff.aff1.toUInt64 <<< 40 ||| aff.aff0.toUInt64 <<< 32) |||
        (aff.aff1.toUInt64 <<< 16 ||| aff.aff0.toUInt64 <<< 8) |||
          (if last then (1 : UInt64) else 0) <<< 4
      if g.lpiSupported then ret ||| 1 else ret := by
  have hlast : last.toUInt64 = if last then (1 : UInt64) else 0 := by cases last <;> rfl
  have hfirst : aff.aff >>> (8 * 0) = aff.aff := by
    rw [show (8 : UInt32) * 0 = 0 from rfl, UInt32.shiftRight_zero]
  rw [GicD.gicRTyper]
  simp only [toUInt64_and_byte, hfirst, hlast]
  rfl

/-- The bits of GICR_TYPER from bit 8 on, up to bit 23. -/
theorem testBit_gicRTyper (g : GicD) (aff : CpuAffinity) (last : Bool) {i : ℕ} (hi : i < 16) :
    (g.gicRTyper aff.aff last).toNat.testBit (8 + i) =
      ((aff.aff1.toNat <<< 8).testBit i || aff.aff0.toNat.testBit i) := by
  have hhigh : ∀ (b : UInt8) (n : UInt64), n.toNat < 64 → 24 ≤ n.toNat →
      (b.toUInt64 <<< n).toNat.testBit (8 + i) = false := by
    intro b n hn hle
    rw [testBit_byte b hn (by omega), decide_eq_false (by omega), Bool.false_and]
  have hsmall : ∀ m : ℕ, m < 2 ^ 8 → m.testBit (8 + i) = false := by
    intro m hm
    exact Nat.testBit_lt_two_pow (Nat.lt_of_lt_of_le hm
      (Nat.pow_le_pow_right (by decide) (Nat.le_add_right 8 i)))
  have hlast : ((if last then (1 : UInt64) else 0) <<< 4).toNat.testBit (8 + i) = false := by
    apply hsmall
    cases last <;> decide
  have hlpi : (1 : UInt64).toNat.testBit (8 + i) = false := hsmall 1 (by decide)
  -- the number is at bits 16 and 8
  have hlow : 8 + i - (8 : UInt64).toNat = i := Nat.add_sub_cancel_left 8 i
  have hmid : 8 + i - (16 : UInt64).toNat = i - 8 := by
    change 8 + i - 16 = i - 8
    omega
  have hle : decide ((8 : UInt64).toNat ≤ 8 + i) = true := decide_eq_true (Nat.le_add_right 8 i)
  have hle' : decide ((16 : UInt64).toNat ≤ 8 + i) = decide (8 ≤ i) := by
    apply decide_eq_decide.2
    change 16 ≤ 8 + i ↔ 8 ≤ i
    omega
  have hfields : ((aff.aff3.toUInt64 <<< 56 ||| aff.aff2.toUInt64 <<< 48 |||
      aff.aff1.toUInt64 <<< 40 ||| aff.aff0.toUInt64 <<< 32) |||
      (aff.aff1.toUInt64 <<< 16 ||| aff.aff0.toUInt64 <<< 8) |||
        (if last then (1 : UInt64) else 0) <<< 4).toNat.testBit (8 + i) =
      ((aff.aff1.toNat <<< 8).testBit i || aff.aff0.toNat.testBit i) := by
    simp only [UInt64.toNat_or, Nat.testBit_or]
    rw [hhigh _ 56 (by decide) (by decide), hhigh _ 48 (by decide) (by decide),
      hhigh _ 40 (by decide) (by decide), hhigh _ 32 (by decide) (by decide), hlast,
      testBit_byte _ (by decide) (by omega), testBit_byte _ (by decide) (by omega),
      Nat.testBit_shiftLeft, hlow, hmid, hle, hle', Bool.true_and, Bool.or_false, Bool.or_self,
      Bool.or_self, Bool.or_self, Bool.false_or]
  rw [gicRTyper_eq]
  by_cases hsupported : g.lpiSupported = true
  · rw [if_pos hsupported, UInt64.toNat_or, Nat.testBit_or, hfields, hlpi, Bool.or_false]
  · rw [if_neg hsupported]
    exact hfields

/-- **GICR_TYPER** has Aff1 and Aff0 for the number. -/
theorem processorNumber_gicRTyper (g : GicD) (aff : CpuAffinity) (last : Bool) :
    (processorNumber (g.gicRTyper aff.aff last)).toNat =
      aff.aff1.toNat * 2 ^ 8 + aff.aff0.toNat := by
  have h8 : (8 : UInt64).toNat % 64 = 8 := rfl
  have hlow := aff.aff0.toNat_lt
  have hhigh := aff.aff1.toNat_lt
  rw [processorNumber, UInt64.toNat_toUInt16, UInt64.toNat_shiftRight, h8,
    ← Nat.shiftLeft_eq, Nat.shiftLeft_add_eq_or_of_lt hlow]
  apply Nat.eq_of_testBit_eq
  intro i
  rw [Nat.testBit_mod_two_pow, Nat.testBit_shiftRight, Nat.testBit_or]
  by_cases hi : i < 16
  · rw [testBit_gicRTyper g aff last hi, decide_eq_true hi, Bool.true_and]
  · rw [decide_eq_false hi, Bool.false_and, ← Nat.testBit_or, ← Nat.shiftLeft_add_eq_or_of_lt hlow,
      Nat.shiftLeft_eq]
    refine (Nat.testBit_lt_two_pow (Nat.lt_of_lt_of_le ?_ (Nat.pow_le_pow_right (by decide)
      (Nat.le_of_not_lt hi)))).symm
    omega

/-- By `from_vcpu_id` Aff0 is the place of the vCPU among 16. -/
theorem aff0_fromVcpuId {v : ℕ} (hv : v < 2 ^ 16) :
    (CpuAffinity.fromVcpuId (UInt64.ofNat v)).aff0.toNat = v % 16 := by
  have h16 : (16 : UInt64).toNat = 16 := rfl
  have h8 : (8 : UInt64).toNat = 8 := rfl
  have hvcpu : (UInt64.ofNat v).toNat = v := UInt64.toNat_ofNat_of_lt' (by change v < 2 ^ 64; omega)
  have hdiv : (UInt64.ofNat v / 16).toNat = v / 16 := by rw [UInt64.toNat_div, hvcpu, h16]
  have hmod : (UInt64.ofNat v % 16).toNat = v % 16 := by rw [UInt64.toNat_mod, hvcpu, h16]
  rw [CpuAffinity.fromVcpuId, CpuAffinity.aff0, UInt32.toNat_toUInt8, UInt64.toNat_toUInt32,
    toNat_shiftLeft_or (by decide), hdiv, hmod, h8]
  · omega
  · rw [hdiv, h8]
    omega
  · rw [hmod, h8]
    omega

namespace ItsSys

variable {s : ItsSys}

/-! ## What the commands leave in the tables -/

theorem execCommand_mapc (icid number : UInt16) :
    s.execCommand (mapcCommand icid number) = some (s.handleMapc true number.toUInt32 icid) := by
  have h16 : (16 : UInt64).toNat = 16 := rfl
  have h63 : (63 : UInt64).toNat = 63 := rfl
  have h16' : (16 : UInt64).toNat % 64 = 16 := rfl
  have h63' : (63 : UInt64).toNat % 64 = 63 := rfl
  have hone : (1 : UInt64).toNat = 1 := rfl
  have hnumber := number.toNat_lt
  have hicid := icid.toNat_lt
  have hlow : (number.toUInt64 <<< 16 ||| icid.toUInt64).toNat =
      number.toNat * 2 ^ 16 + icid.toNat := by
    rw [toNat_shiftLeft_or (by decide), UInt16.toNat_toUInt64, UInt16.toNat_toUInt64, h16]
    · rw [UInt16.toNat_toUInt64, h16]
      omega
    · rw [UInt16.toNat_toUInt64, h16]
      exact hicid
  have hword : ((1 : UInt64) <<< 63 ||| number.toUInt64 <<< 16 ||| icid.toUInt64).toNat =
      2 ^ 63 + (number.toNat * 2 ^ 16 + icid.toNat) := by
    rw [UInt64.or_assoc, toNat_shiftLeft_or (by decide), hlow, hone, h63, Nat.one_mul]
    · rw [hone, h63]
      decide
    · rw [hlow, h63]
      omega
  have hfield : ((1 : UInt64) <<< 63 ||| number.toUInt64 <<< 16 ||| icid.toUInt64).toUInt16 =
      icid := by
    rw [← UInt16.toNat_inj, UInt64.toNat_toUInt16, hword]
    omega
  have hrdBase : (((1 : UInt64) <<< 63 ||| number.toUInt64 <<< 16 ||| icid.toUInt64) >>>
      16).toUInt32 = number.toUInt32 := by
    rw [← UInt32.toNat_inj, UInt64.toNat_toUInt32, UInt64.toNat_shiftRight, hword, h16',
      UInt16.toNat_toUInt32, Nat.shiftRight_eq_div_pow]
    omega
  have hvalid : (((1 : UInt64) <<< 63 ||| number.toUInt64 <<< 16 ||| icid.toUInt64) >>> 63 != 0) =
      true := by
    rw [bne_iff_ne, ne_eq, ← UInt64.toNat_inj, UInt64.toNat_shiftRight, hword, h63',
      Nat.shiftRight_eq_div_pow, UInt64.toNat_zero]
    omega
  rw [execCommand, mapcCommand, handleCommand]
  dsimp only
  rw [hfield, hrdBase, hvalid, if_neg (by decide), if_neg (by decide), if_neg (by decide),
    if_pos (by decide)]

theorem execCommand_mapti (devId eventId pintid : UInt32) (icid : UInt16) :
    s.execCommand (maptiCommand devId eventId pintid icid) =
      some (s.handleMapti devId eventId pintid icid) := by
  have hcommand : (devId.toUInt64 <<< 32 ||| 0x0a) &&& 0xf = 0x0a := by
    have hword := toNat_words devId 0x0a
    have hten : (0x0a : UInt32).toUInt64 = 0x0a := rfl
    have hten' : (0x0a : UInt32).toNat = 10 := rfl
    have hmask : (0xf : UInt64).toNat = 2 ^ 4 - 1 := rfl
    have hres : (0x0a : UInt64).toNat = 10 := rfl
    rw [hten, hten'] at hword
    rw [← UInt64.toNat_inj, UInt64.toNat_and, hword, hmask, Nat.and_two_pow_sub_one_eq_mod, hres]
    omega
  have hicid : icid.toUInt64.toUInt16 = icid := by
    rw [← UInt16.toNat_inj, UInt64.toNat_toUInt16, UInt16.toNat_toUInt64,
      Nat.mod_eq_of_lt icid.toNat_lt]
  have hdev : ((devId.toUInt64 <<< 32 ||| 0x0a) >>> 32).toUInt32 = devId :=
    shiftRight_words devId 0x0a
  rw [execCommand, maptiCommand, handleCommand]
  dsimp only
  rw [hcommand, hicid, hdev, shiftRight_words, toUInt32_words, if_neg (by decide),
    if_neg (by decide), if_neg (by decide), if_neg (by decide), if_pos rfl]

theorem MapsCollection.entry {icid number : UInt16} (h : s.MapsCollection icid number) :
    s.its.readCollectionTable s.bus icid = number.toUInt32.toUInt64 := by
  obtain ⟨s₀, s₁, haccess, hexec, hentry⟩ := h
  rw [execCommand_mapc] at hexec
  cases hexec
  rw [hentry, Gits.readCollectionTable, handleMapc, if_pos rfl]
  exact congrArg (Option.getD · (-1)) (GuestBus.read64_write64 haccess _)

theorem MapsEvent.entry {devId eventId pintid : UInt32} {icid : UInt16}
    (h : s.MapsEvent devId eventId pintid icid) :
    s.its.readDeviceTable s.bus devId ≠ 0 ∧
      Gits.readTranslationTable s.bus (s.its.readDeviceTable s.bus devId) eventId =
        Gits.ittEntry icid pintid := by
  obtain ⟨s₀, s₁, itt, hitt, hdevice, haccess, hexec, hdevice', hentry⟩ := h
  rw [execCommand_mapti] at hexec
  cases hexec
  rw [hdevice']
  refine ⟨hitt, ?_⟩
  rw [hentry, Gits.readTranslationTable, handleMapti, hdevice, if_neg hitt]
  exact congrArg (Option.getD · 0) (GuestBus.read64_write64 haccess _)

theorem ittEntry_toNat (icid : UInt16) (pintid : UInt32) :
    (Gits.ittEntry icid pintid).toNat = icid.toNat * 2 ^ 32 + pintid.toNat := by
  have hicid : icid.toUInt64 = icid.toUInt32.toUInt64 := rfl
  rw [Gits.ittEntry, hicid, toNat_words]
  rfl

theorem icidOf_ittEntry (icid : UInt16) (pintid : UInt32) :
    Gits.icidOf (Gits.ittEntry icid pintid) = icid := by
  have hbound := icid.toNat_lt
  have hbound' := pintid.toNat_lt
  have h32 : (32 : UInt64).toNat % 64 = 32 := rfl
  rw [Gits.icidOf, ← UInt16.toNat_inj, UInt64.toNat_toUInt16, UInt64.toNat_shiftRight,
    ittEntry_toNat, h32, Nat.shiftRight_eq_div_pow]
  omega

theorem pintidOf_ittEntry (icid : UInt16) (pintid : UInt32) :
    Gits.pintidOf (Gits.ittEntry icid pintid) = pintid := by
  have hbound' := pintid.toNat_lt
  rw [Gits.pintidOf, ← UInt32.toNat_inj, UInt64.toNat_toUInt32, ittEntry_toNat]
  omega

theorem rdBase_ne (rdBase : UInt32) : rdBase.toUInt64 ≠ -1 := by
  have hminus : (-1 : UInt64).toNat = 2 ^ 64 - 1 := rfl
  have hbound := rdBase.toNat_lt
  rw [ne_eq, ← UInt64.toNat_inj, UInt32.toNat_toUInt64, hminus]
  omega

/-- **The vCPU of an event** is the low byte of the number that its collection is mapped to. -/
theorem translate_mapped {devId eventId pintid : UInt32} {icid number : UInt16}
    (hcollection : s.MapsCollection icid number) (hevent : s.MapsEvent devId eventId pintid icid)
    (hpintid : pintid ≠ 0) :
    s.its.translate s.bus eventId devId = some (pintid.toNat, number.toNat % 256) := by
  obtain ⟨hdevice, hentry⟩ := hevent.entry
  have hword := ittEntry_toNat icid pintid
  have hpintid' : pintid.toNat ≠ 0 := fun hzero => hpintid (UInt32.toNat_inj.1 hzero)
  have hne : Gits.ittEntry icid pintid ≠ 0 := by
    rw [ne_eq, ← UInt64.toNat_inj, hword, UInt64.toNat_zero]
    omega
  have hentry' : number.toUInt32.toUInt64.toNat = number.toNat := by
    rw [UInt32.toNat_toUInt64, UInt16.toNat_toUInt32]
  rw [Gits.translate, if_neg hdevice, hentry, if_neg hne, icidOf_ittEntry, hcollection.entry,
    if_neg (rdBase_ne number.toUInt32), pintidOf_ittEntry, UInt64.toNat_toUInt8, hentry']

/-! ## The LPI of an MSI -/

theorem raiseLpi_pendingIrqs (g : GicD) {id target : ℕ} (htarget : target < 256) (prop : UInt8)
    (u : ℕ) : ((g.raiseLpi id target prop).bank u).pendingIrqs id =
      if u = target then true else (g.bank u).pendingIrqs id := by
  have hcpu : IrqTarget.ofCpuId target = .cpuId target := by
    rw [IrqTarget.ofCpuId, Nat.mod_eq_of_lt (htarget.trans (by decide))]
  have hmem : ∀ g : GicD, u ∈ g.notified (.cpuId target) ↔ u = target := by
    intro g
    exact List.mem_singleton
  rw [GicD.raiseLpi, hcpu, GicD.notifyTarget_pendingIrqs,
    GicD.setInfo_field _ 0 id _ Banked.pendingIrqs fun _ _ => rfl,
    GicD.modifyIrq_field _ 0 id _ Banked.pendingIrqs fun _ _ => rfl]
  simp only [hmem, and_true]

/-- **An MSI** asserts the LPI on the low byte of the number of its collection. -/
theorem handleMsi_mapped {devId eventId pintid : UInt32} {icid number : UInt16}
    (hcollection : s.MapsCollection icid number) (hevent : s.MapsEvent devId eventId pintid icid)
    (hready : s.LpiReady pintid.toNat) :
    ∃ t, s.handleMsi eventId devId = some t ∧
      ∀ v < 2 ^ 16, GicD.AssertedOn s.gic t.gic pintid.toNat v ↔ number.toNat % 256 = v := by
  obtain ⟨⟨hlow, hhigh⟩, hidle, hconfigured, prop, hprop, hon⟩ := hready
  have hpintid : pintid ≠ 0 := by
    rintro rfl
    exact absurd hlow (by decide)
  have hrange : ¬(maxIrq ≤ pintid.toNat ∨ pintid.toNat < lpiBase) := by omega
  have hpending : ¬(s.gic.irqObject 0 pintid.toNat).pending = true := by
    rw [hidle]
    exact Bool.false_ne_true
  have htarget : number.toNat % 256 < 256 := Nat.mod_lt _ (by decide)
  have hassert : s.gic.assertLpi s.bus pintid.toNat (number.toNat % 256) =
      some (s.gic.raiseLpi pintid.toNat (number.toNat % 256) prop) := by
    rw [GicD.assertLpi, if_neg hrange, if_neg hpending, if_neg hconfigured, hprop]
    exact if_neg hon
  refine ⟨{ s with gic := s.gic.raiseLpi pintid.toNat (number.toNat % 256) prop }, ?_, ?_⟩
  · rw [handleMsi, translate_mapped hcollection hevent hpintid]
    dsimp only
    rw [hassert]
    rfl
  · intro v hv
    have hinfo : ((s.gic.raiseLpi pintid.toNat (number.toNat % 256) prop).irqObject 0
        pintid.toNat).injectionInfo = .asserted (.cpuId (number.toNat % 256)) := by
      have hshares := GicD.irqObject_eq_of_shares (g := s.gic.raiseLpi pintid.toNat
        (number.toNat % 256) prop) (.inl (Nat.le_trans (by decide) hlow) :
          GicD.Shares pintid.toNat 0 (number.toNat % 256))
      rw [hshares, (GicD.became_raiseLpi s.gic htarget hlow prop).irqObject]
    constructor
    · intro h
      have heq := h.info
      rw [hinfo, IrqTarget.ofCpuId, Nat.mod_eq_of_lt (hv.trans (by decide))] at heq
      injection heq with heq
      injection heq
    · rintro rfl
      refine ⟨?_, ?_, ?_⟩
      · rw [hinfo, IrqTarget.ofCpuId, Nat.mod_eq_of_lt (hv.trans (by decide))]
      · rw [raiseLpi_pendingIrqs s.gic htarget, if_pos rfl]
      · intro u hu
        rw [raiseLpi_pendingIrqs s.gic htarget, if_neg hu]

/-- **An MSI is asserted on the vCPU that advertises the number of its collection, and on no other,
if and only if** the vCPU is one of the first 16. -/
theorem msi_asserted_iff {devId eventId pintid : UInt32} {icid : UInt16} {v : ℕ}
    (hnum : s.gic.numVcpus < 2 ^ 16) (hv : v < s.gic.numVcpus) (g : GicD) (last : Bool)
    (hcollection : s.MapsCollection icid (processorNumber
      (g.gicRTyper (CpuAffinity.fromVcpuId (UInt64.ofNat v)).aff last)))
    (hevent : s.MapsEvent devId eventId pintid icid) (hready : s.LpiReady pintid.toNat) :
    (∃ t, s.handleMsi eventId devId = some t ∧ GicD.AssertedOn s.gic t.gic pintid.toNat v) ↔
      v < 16 := by
  obtain ⟨t, ht, hasserted⟩ := handleMsi_mapped hcollection hevent hready
  have haff := aff0_fromVcpuId (hv.trans hnum)
  have hnumber := processorNumber_gicRTyper g (.fromVcpuId (UInt64.ofNat v)) last
  have hplace : v % 16 < 16 := Nat.mod_lt _ (by decide)
  have hiff := hasserted v (hv.trans hnum)
  rw [hnumber, haff] at hiff
  constructor
  · rintro ⟨t', ht', h⟩
    rw [ht] at ht'
    cases ht'
    have heq := hiff.1 h
    omega
  · intro hlt
    refine ⟨t, ht, hiff.2 ?_⟩
    omega

/-! ## One event -/

/-- The guest has told where its LPIs are configured. -/
def msiStart (numVcpus : ℕ) : ItsSys where
  gic := { (GicD.init .gicV3 numVcpus 64).initLpis with propBaser := 0x40000 }
  its := GicD.lpiIts
  bus := GicD.lpiBus

/-- The number that the redistributor of a vCPU advertises. -/
def advertised (v : ℕ) : UInt16 :=
  processorNumber ((msiStart (v + 1)).gic.gicRTyper
    (CpuAffinity.fromVcpuId (UInt64.ofNat v)).aff true)

/-- Collection 5 is mapped to the number of the vCPU. -/
def msiCollection (v : ℕ) : ItsSys :=
  (msiStart (v + 1)).handleMapc true (advertised v).toUInt32 5

/-- Event 0 of device 0 is mapped to LPI 8192 of the collection. -/
def msiMapped (v : ℕ) : ItsSys := (msiCollection v).handleMapti 0 0 8192 5

theorem msiMapped_mapsCollection {v : ℕ}
    (hentry : (msiMapped v).its.readCollectionTable (msiMapped v).bus 5 =
      (msiCollection v).its.readCollectionTable (msiCollection v).bus 5) :
    (msiMapped v).MapsCollection 5 (advertised v) :=
  ⟨msiStart (v + 1), msiCollection v, ⟨rfl, rfl⟩, execCommand_mapc 5 (advertised v), hentry⟩

theorem msiMapped_mapsEvent {v : ℕ}
    (hdevice : (msiCollection v).its.readDeviceTable (msiCollection v).bus 0 = 0x30000)
    (hdevice' : (msiMapped v).its.readDeviceTable (msiMapped v).bus 0 = 0x30000)
    (hreadable : (msiCollection v).bus.Accessible (Gits.ittEntryAddr 0x30000 0)) :
    (msiMapped v).MapsEvent 0 0 8192 5 :=
  ⟨msiCollection v, msiMapped v, 0x30000, by decide, hdevice, hreadable,
    execCommand_mapti 0 0 8192 5, hdevice', rfl⟩

/-- The MSI of an event of vCPU 1 is asserted on it. -/
theorem msi_of_vcpu_one : ∃ t, (msiMapped 1).handleMsi 0 0 = some t ∧
    GicD.AssertedOn (msiMapped 1).gic t.gic 8192 1 := by
  have hready : (msiMapped 1).LpiReady 8192 :=
    ⟨by decide, by decide +kernel, by decide +kernel, 0xa1, by decide +kernel, by decide⟩
  exact (@msi_asserted_iff (msiMapped 1) 0 0 8192 5 1 (by decide +kernel) (by decide +kernel)
    (msiStart 2).gic true (msiMapped_mapsCollection (by decide +kernel))
    (msiMapped_mapsEvent (by decide +kernel) (by decide +kernel) ⟨by decide +kernel,
      by decide +kernel⟩) hready).2 (by decide)

/-- That of an event of vCPU 16 is not: its number is 256, and the MSI goes to vCPU 0. -/
theorem msi_of_vcpu_sixteen : (msiMapped 16).gic.numVcpus = 17 ∧
    (msiMapped 16).MapsCollection 5 (advertised 16) ∧ (msiMapped 16).MapsEvent 0 0 8192 5 ∧
    (msiMapped 16).LpiReady 8192 ∧ ∃ t, (msiMapped 16).handleMsi 0 0 = some t ∧
      GicD.AssertedOn (msiMapped 16).gic t.gic 8192 0 ∧
      ¬GicD.AssertedOn (msiMapped 16).gic t.gic 8192 16 := by
  have hcollection : (msiMapped 16).MapsCollection 5 (advertised 16) :=
    msiMapped_mapsCollection (by decide +kernel)
  have hevent : (msiMapped 16).MapsEvent 0 0 8192 5 :=
    msiMapped_mapsEvent (by decide +kernel) (by decide +kernel) ⟨by decide +kernel,
      by decide +kernel⟩
  have hready : (msiMapped 16).LpiReady 8192 :=
    ⟨by decide, by decide +kernel, by decide +kernel, 0xa1, by decide +kernel, by decide⟩
  obtain ⟨t, ht, hasserted⟩ := @handleMsi_mapped (msiMapped 16) 0 0 8192 5 _ hcollection hevent
    hready
  have hnumber : (advertised 16).toNat % 256 = 0 := by decide
  refine ⟨by decide +kernel, hcollection, hevent, hready, t, ht, ?_, ?_⟩
  · exact (hasserted 0 (by decide)).2 hnumber
  · intro h
    have heq := (hasserted 16 (by decide)).1 h
    rw [hnumber] at heq
    exact absurd heq (by decide)

end ItsSys

end Vml
