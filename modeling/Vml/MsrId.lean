import Mathlib.Data.UInt
import Mathlib.Tactic.IntervalCases
import Vml.MsrBus

/-!
# The ids of system registers

`msr_id.hpp` packs the five fields of a system register into one number, `esr.hpp` takes them out of
the syndrome of a trapped `MSR` or `MRS`, and `msr_access.hpp` puts the two together.

**The packing.** `crn` has four bits from bit 7 on and `op1` three from bit 10 on, so that the two
meet in bit 10: the last bit of `crn` and the first one of `op1` are seen only together.

Main result: `MsrMrs.same_register_iff`: when the bus takes two trapped instructions to one register
object.
-/

namespace Vml

namespace Msr

/-- `build_msr_id`. -/
def buildMsrId (op0 crn op1 crm op2 : UInt8) : UInt32 :=
  ((crm.toUInt32 &&& 0xf) <<< 3) ||| ((crn.toUInt32 &&& 0xf) <<< 7) |||
    ((op1.toUInt32 &&& 0x7) <<< 10) ||| ((op2.toUInt32 &&& 0x7) <<< 13) |||
    ((op0.toUInt32 &&& 0xff) <<< 16)

/-- `Msr::Access`. -/
structure RegAccess where
  write : Bool
  target : UInt8
  secondTarget : UInt8 := 0xff
  id : UInt32
  deriving DecidableEq, Repr

end Msr

/-! ## The syndrome of a trapped access -/

/-- `Esr::MsrMrs`. -/
structure MsrMrs where
  esr : UInt64

namespace MsrMrs

variable (e : MsrMrs)

/-- `write`. -/
def write : Bool := e.esr &&& 0x1 == 0

/-- `crm`. -/
def crm : UInt8 := ((e.esr >>> 1) &&& 0xf).toUInt8

/-- `rt`. -/
def rt : UInt8 := ((e.esr >>> 5) &&& 0x1f).toUInt8

/-- `crn`. -/
def crn : UInt8 := ((e.esr >>> 10) &&& 0xf).toUInt8

/-- `op1`. -/
def op1 : UInt8 := ((e.esr >>> 14) &&& 0x7).toUInt8

/-- `op2`. -/
def op2 : UInt8 := ((e.esr >>> 17) &&& 0x7).toUInt8

/-- `op0`. -/
def op0 : UInt8 := ((e.esr >>> 20) &&& 0x3).toUInt8

/-- `system_register`. -/
def systemRegister : Msr.RegAccess where
  write := e.write
  target := e.rt
  id := Msr.buildMsrId e.op0 e.crn e.op1 e.crm e.op2

end MsrMrs

/-! ## The number -/

namespace Msr

theorem or_eq_add {a b n : ℕ} (hb : b < 2 ^ n) : a * 2 ^ n ||| b = a * 2 ^ n + b := by
  rw [← Nat.shiftLeft_eq, Nat.shiftLeft_add_eq_or_of_lt hb]

theorem toNat_field (x : UInt8) {m k : UInt32} {n : ℕ} (hm : m.toNat = 2 ^ n - 1)
    (hk : k.toNat ≤ 16) : ((x.toUInt32 &&& m) <<< k).toNat = x.toNat % 2 ^ n * 2 ^ k.toNat := by
  have hx : x.toNat % 2 ^ n < 2 ^ 8 := lt_of_le_of_lt (Nat.mod_le _ _) (UInt8.toNat_lt x)
  have hpow : 2 ^ k.toNat ≤ 2 ^ 16 := Nat.pow_le_pow_right (by omega) hk
  rw [UInt32.toNat_shiftLeft, UInt32.toNat_and, UInt8.toNat_toUInt32, hm,
    Nat.and_two_pow_sub_one_eq_mod, Nat.mod_eq_of_lt (a := k.toNat) (by omega), Nat.shiftLeft_eq]
  refine Nat.mod_eq_of_lt ?_
  calc x.toNat % 2 ^ n * 2 ^ k.toNat ≤ (2 ^ 8 - 1) * 2 ^ 16 := Nat.mul_le_mul (by omega) hpow
    _ < 2 ^ 32 := by decide

/-- What the last bit of `crn` and the first one of `op1` become. -/
def shared (crn op1 : UInt8) : ℕ := crn.toNat / 8 % 2 ||| op1.toNat % 2

theorem shared_lt (crn op1 : UInt8) : shared crn op1 < 2 :=
  Nat.or_lt_two_pow (n := 1) (Nat.mod_lt _ Nat.two_pos) (Nat.mod_lt _ Nat.two_pos)

theorem crn_or_op1 (crn op1 : UInt8) :
    crn.toNat % 16 * 2 ^ 7 ||| op1.toNat % 8 * 2 ^ 10 =
      (op1.toNat / 2 % 4 * 2 + shared crn op1) * 2 ^ 10 + crn.toNat % 8 * 2 ^ 7 := by
  have hcrn : crn.toNat % 16 = crn.toNat / 8 % 2 * 8 + crn.toNat % 8 := by omega
  have hop1 : op1.toNat % 8 = op1.toNat / 2 % 4 * 2 + op1.toNat % 2 := by omega
  have hlow : crn.toNat % 8 < 8 := Nat.mod_lt _ (by omega)
  have hhigh : op1.toNat / 2 % 4 < 4 := Nat.mod_lt _ (by omega)
  have hbit : crn.toNat / 8 % 2 < 2 := Nat.mod_lt _ (by omega)
  have hbit' : op1.toNat % 2 < 2 := Nat.mod_lt _ (by omega)
  rw [hcrn, hop1, shared]
  generalize crn.toNat / 8 % 2 = b at *
  generalize crn.toNat % 8 = l at *
  generalize op1.toNat / 2 % 4 = h at *
  generalize op1.toNat % 2 = b' at *
  interval_cases b <;> interval_cases b' <;> interval_cases h <;> interval_cases l <;> rfl

/-- **The id as a number.** The last bit of `crn` and the first one of `op1` are one digit of it. -/
theorem toNat_buildMsrId (op0 crn op1 crm op2 : UInt8) :
    (buildMsrId op0 crn op1 crm op2).toNat =
      op0.toNat * 2 ^ 16 + op2.toNat % 8 * 2 ^ 13 + op1.toNat / 2 % 4 * 2 ^ 11 +
        shared crn op1 * 2 ^ 10 + crn.toNat % 8 * 2 ^ 7 + crm.toNat % 16 * 2 ^ 3 := by
  have hop0 := UInt8.toNat_lt op0
  have hcrm : crm.toNat % 16 < 16 := Nat.mod_lt _ (by omega)
  have hcrn : crn.toNat % 8 < 8 := Nat.mod_lt _ (by omega)
  have hop1 : op1.toNat / 2 % 4 < 4 := Nat.mod_lt _ (by omega)
  have hop2 : op2.toNat % 8 < 8 := Nat.mod_lt _ (by omega)
  have hshared := shared_lt crn op1
  rw [buildMsrId, UInt32.toNat_or, UInt32.toNat_or, UInt32.toNat_or, UInt32.toNat_or,
    toNat_field crm (n := 4) rfl (by decide), toNat_field crn (n := 4) rfl (by decide),
    toNat_field op1 (n := 3) rfl (by decide), toNat_field op2 (n := 3) rfl (by decide),
    toNat_field op0 (n := 8) rfl (by decide)]
  change crm.toNat % 16 * 2 ^ 3 ||| crn.toNat % 16 * 2 ^ 7 ||| op1.toNat % 8 * 2 ^ 10 |||
    op2.toNat % 8 * 2 ^ 13 ||| op0.toNat % 256 * 2 ^ 16 = _
  -- from the low end on, each field is below the next one
  have hlow : crn.toNat % 8 * 2 ^ 7 ||| crm.toNat % 16 * 2 ^ 3 =
      crn.toNat % 8 * 2 ^ 7 + crm.toNat % 16 * 2 ^ 3 := or_eq_add (by omega)
  rw [Nat.or_assoc (crm.toNat % 16 * 2 ^ 3), crn_or_op1,
    ← or_eq_add (n := 10) (b := crn.toNat % 8 * 2 ^ 7) (by omega), Nat.or_comm (_ * 2 ^ 3),
    Nat.or_assoc _ (_ * 2 ^ 7), hlow, or_eq_add (n := 10) (by omega),
    Nat.or_comm _ (_ * 2 ^ 13), or_eq_add (n := 13) (by omega), Nat.or_comm _ (_ * 2 ^ 16),
    or_eq_add (n := 16) (by omega)]
  omega

/-- **When two registers have one id.** -/
theorem buildMsrId_eq_iff (op0 crn op1 crm op2 op0' crn' op1' crm' op2' : UInt8) :
    buildMsrId op0 crn op1 crm op2 = buildMsrId op0' crn' op1' crm' op2' ↔
      op0.toNat = op0'.toNat ∧ op2.toNat % 8 = op2'.toNat % 8 ∧
        crm.toNat % 16 = crm'.toNat % 16 ∧ crn.toNat % 8 = crn'.toNat % 8 ∧
        op1.toNat / 2 % 4 = op1'.toNat / 2 % 4 ∧ shared crn op1 = shared crn' op1' := by
  have hshared := shared_lt crn op1
  have hshared' := shared_lt crn' op1'
  rw [← UInt32.toNat_inj, toNat_buildMsrId, toNat_buildMsrId]
  omega

theorem shared_eq_one_iff {crn op1 : UInt8} (hcrn : crn.toNat < 16) :
    shared crn op1 = 1 ↔ 8 ≤ crn.toNat ∨ op1.toNat % 2 = 1 := by
  have hbit : crn.toNat / 8 % 2 < 2 := Nat.mod_lt _ (by omega)
  have hbit' : op1.toNat % 2 < 2 := Nat.mod_lt _ (by omega)
  have hcrn8 : 8 ≤ crn.toNat ↔ crn.toNat / 8 % 2 = 1 := by omega
  rw [hcrn8, shared]
  generalize crn.toNat / 8 % 2 = b at *
  generalize op1.toNat % 2 = b' at *
  interval_cases b <;> interval_cases b' <;> decide

end Msr

/-! ## Registers that one cannot tell apart -/

namespace MsrMrs

theorem toNat_field_lt (esr shift : UInt64) {mask : UInt64} {n : ℕ} (hmask : mask.toNat < n) :
    (((esr >>> shift) &&& mask).toUInt8).toNat < n := by
  rw [UInt64.toNat_toUInt8, UInt64.toNat_and]
  calc ((esr >>> shift).toNat &&& mask.toNat) % 2 ^ 8
      ≤ (esr >>> shift).toNat &&& mask.toNat := Nat.mod_le _ _
    _ ≤ mask.toNat := Nat.and_le_right
    _ < n := hmask

/-- **When two trapped instructions have one id**: their fields are the same, up to the last bit of
`crn` and the first one of `op1`, of which it matters only whether one of them is set. -/
theorem systemRegister_id_eq_iff (e e' : MsrMrs) : e.systemRegister.id = e'.systemRegister.id ↔
    e.op0 = e'.op0 ∧ e.op2 = e'.op2 ∧ e.crm = e'.crm ∧
      e.crn.toNat % 8 = e'.crn.toNat % 8 ∧ e.op1.toNat / 2 = e'.op1.toNat / 2 ∧
      ((8 ≤ e.crn.toNat ∨ e.op1.toNat % 2 = 1) ↔
        (8 ≤ e'.crn.toNat ∨ e'.op1.toNat % 2 = 1)) := by
  have hcrm (e : MsrMrs) : e.crm.toNat < 16 := toNat_field_lt _ _ (by decide)
  have hcrn (e : MsrMrs) : e.crn.toNat < 16 := toNat_field_lt _ _ (by decide)
  have hop1 (e : MsrMrs) : e.op1.toNat < 8 := toNat_field_lt _ _ (by decide)
  have hop2 (e : MsrMrs) : e.op2.toNat < 8 := toNat_field_lt _ _ (by decide)
  have hshared : Msr.shared e.crn e.op1 = Msr.shared e'.crn e'.op1 ↔
      (Msr.shared e.crn e.op1 = 1 ↔ Msr.shared e'.crn e'.op1 = 1) := by
    have := Msr.shared_lt e.crn e.op1
    have := Msr.shared_lt e'.crn e'.op1
    omega
  rw [systemRegister, systemRegister, Msr.buildMsrId_eq_iff, hshared,
    Msr.shared_eq_one_iff (hcrn e), Msr.shared_eq_one_iff (hcrn e'), UInt8.toNat_inj,
    Nat.mod_eq_of_lt (hop2 e), Nat.mod_eq_of_lt (hop2 e'), UInt8.toNat_inj,
    Nat.mod_eq_of_lt (hcrm e), Nat.mod_eq_of_lt (hcrm e'), UInt8.toNat_inj,
    Nat.mod_eq_of_lt (a := e.op1.toNat / 2) (by have := hop1 e; omega),
    Nat.mod_eq_of_lt (a := e'.op1.toNat / 2) (by have := hop1 e'; omega)]

variable {ρ : Type*} [LinearOrder ρ]

/-- The bus takes the trapped instruction to this register object. -/
def Reaches (b : Msr.BaseBus ρ) (e : MsrMrs) (r : ρ) : Prop :=
  let access : Vbus.Access := if e.write then .write else .read
  ∀ val, (b.access access e.systemRegister.id.toUInt64 val).1 = .register r access val

theorem reaches_iff {b : Msr.BaseBus ρ} {e : MsrMrs} {r : ρ} :
    Reaches b e r ↔ b.devices.get e.systemRegister.id.toUInt64 = some r := by
  have haccess : (if e.write then Vbus.Access.write else .read) ≠ .exec := by
    split_ifs <;> decide
  simp only [Reaches, Msr.BaseBus.access, if_neg haccess]
  cases b.devices.get e.systemRegister.id.toUInt64 with
  | none =>
      constructor
      · intro h
        cases h 0
      · intro h
        cases h
  | some r' =>
      constructor
      · intro h
        exact congrArg some (Msr.Dispatch.register.inj (h 0)).1
      · intro h val
        rw [Option.some.inj h]

theorem key_of_reaches {b : Msr.BaseBus ρ} {e : MsrMrs} {r : ρ} (h : Reaches b e r) :
    b.devices.key r = e.systemRegister.id.toUInt64 := by
  have hget := reaches_iff.1 h
  rw [MapKV.get] at hget
  exact of_decide_eq_true (List.find?_some hget :)

/-- **When two trapped instructions reach one register object**, on any bus: the first one reaches
an object, and their fields are the same, up to the last bit of `crn` and the first one of `op1`, of
which it matters only whether one of them is set. -/
theorem same_register_iff (b : Msr.BaseBus ρ) (e e' : MsrMrs) :
    (∃ r, Reaches b e r ∧ Reaches b e' r) ↔
      (∃ r, Reaches b e r) ∧ e.op0 = e'.op0 ∧ e.op2 = e'.op2 ∧ e.crm = e'.crm ∧
        e.crn.toNat % 8 = e'.crn.toNat % 8 ∧ e.op1.toNat / 2 = e'.op1.toNat / 2 ∧
        ((8 ≤ e.crn.toNat ∨ e.op1.toNat % 2 = 1) ↔
          (8 ≤ e'.crn.toNat ∨ e'.op1.toNat % 2 = 1)) := by
  rw [← systemRegister_id_eq_iff]
  constructor
  · rintro ⟨r, hr, hr'⟩
    have hkeys := (key_of_reaches hr).symm.trans (key_of_reaches hr')
    have hid : e.systemRegister.id.toNat = e'.systemRegister.id.toNat := by
      rw [← UInt32.toNat_toUInt64, hkeys, UInt32.toNat_toUInt64]
    exact ⟨⟨r, hr⟩, UInt32.toNat_inj.1 hid⟩
  · rintro ⟨⟨r, hr⟩, hid⟩
    refine ⟨r, hr, ?_⟩
    rw [reaches_iff, ← hid]
    exact reaches_iff.1 hr

end MsrMrs

end Vml
