import Vml.MsrBus
import Vml.MsrId
import Vml.Timer

/-!
# The system registers of a guest

`msr.hpp` and `aarch64/msr.cpp`: the register objects of an AArch64 guest, and the functions that
allocate them and put them on the bus. What a register holds at first comes from the features of the
host (`PlatformInfo`), less those that are not to be seen.

`SysRegs` is a bus with its objects, and `registerAll` puts some on it one after another. The
program is aborted (`none`) if nothing can be allocated or if the bus refuses an object.

**The heap.** The bus looks an id up among the objects in the order of their addresses, and does not
refuse an id that it has already. What a guest finds must not depend on where the objects are.

Main result: `SysRegs.setUp_view`.
-/

namespace Vml

namespace Msr

/-! ## The ids -/

namespace RegisterId

def ctrA64 : UInt32 := buildMsrId 0b11 0b0 0b11 0b0 0b1
def dciswA64 : UInt32 := buildMsrId 0b01 0b0111 0b000 0b0110 0b010
def dccswA64 : UInt32 := buildMsrId 0b01 0b0111 0b000 0b1010 0b010
def dcciswA64 : UInt32 := buildMsrId 0b01 0b0111 0b000 0b1110 0b010
def mvfr0 : UInt32 := buildMsrId 3 0 0 3 0
def mvfr1 : UInt32 := buildMsrId 3 0 0 3 1
def mvfr2 : UInt32 := buildMsrId 3 0 0 3 2
def contextidrEl1 : UInt32 := buildMsrId 3 0xd 0 0 1
def sctlrEl1 : UInt32 := buildMsrId 3 1 0 0 0
def ttbr0El1 : UInt32 := buildMsrId 3 2 0 0 0
def ttbr1El1 : UInt32 := buildMsrId 3 2 0 0 1
def tcrEl1 : UInt32 := buildMsrId 3 2 0 0 2
def afsr0El1 : UInt32 := buildMsrId 3 5 0 1 0
def afsr1El1 : UInt32 := buildMsrId 3 5 0 1 1
def esrEl1 : UInt32 := buildMsrId 3 5 0 2 0
def farEl1 : UInt32 := buildMsrId 3 6 0 0 0
def mairEl1 : UInt32 := buildMsrId 3 0xa 0 2 0
def amairEl1 : UInt32 := buildMsrId 3 0xa 0 3 0
def cntpctEl0 : UInt32 := buildMsrId 3 0xe 3 0 1
def cntpCvalEl0 : UInt32 := buildMsrId 3 0xe 3 2 2
def cntpCtlEl0 : UInt32 := buildMsrId 3 0xe 3 2 1
def cntpTvalEl0 : UInt32 := buildMsrId 3 0xe 3 2 0
def idAa64mmfr0El1 : UInt32 := buildMsrId 3 0 0 7 0
def idAa64pfr0El1 : UInt32 := buildMsrId 3 0 0 4 0
def idAa64smfr0El1 : UInt32 := buildMsrId 3 0 0 4 5
def ccsidrEl1 : UInt32 := buildMsrId 3 0 1 0 0
def idPfr0El1 : UInt32 := buildMsrId 3 0 0 1 0
def idPfr1El1 : UInt32 := buildMsrId 3 0 0 1 1
def idAa64dfr0El1 : UInt32 := buildMsrId 3 0 0 5 0
def idAa64dfr1El1 : UInt32 := buildMsrId 3 0 0 5 1
def mdscrEl1 : UInt32 := buildMsrId 2 0 0 2 2
def mdrarEl1 : UInt32 := buildMsrId 2 1 0 0 0
def idDfr0El1 : UInt32 := buildMsrId 3 0 0 1 2
def idDfr1El1 : UInt32 := buildMsrId 3 0 0 3 5
def dbgdidr : UInt32 := buildMsrId 2 0 0 0 0
def idAa64pfr1El1 : UInt32 := buildMsrId 3 0 0 4 1
def idAa64pfr2El1 : UInt32 := buildMsrId 3 0 0 4 2
def idAa64zfr0El1 : UInt32 := buildMsrId 3 0 0 4 4
def idAa64fpfr0El1 : UInt32 := buildMsrId 3 0 0 4 7
def idAa64isar0El1 : UInt32 := buildMsrId 3 0 0 6 0
def idAa64isar1El1 : UInt32 := buildMsrId 3 0 0 6 1
def idAa64isar2El1 : UInt32 := buildMsrId 3 0 0 6 2
def idAa64isar3El1 : UInt32 := buildMsrId 3 0 0 6 3
def idAa64afr0El1 : UInt32 := buildMsrId 3 0 0 5 4
def idAa64afr1El1 : UInt32 := buildMsrId 3 0 0 5 5
def idPfr2El1 : UInt32 := buildMsrId 3 0 0 3 4
def idIsar0El1 : UInt32 := buildMsrId 3 0 0 2 0
def idIsar1El1 : UInt32 := buildMsrId 3 0 0 2 1
def idIsar2El1 : UInt32 := buildMsrId 3 0 0 2 2
def idIsar3El1 : UInt32 := buildMsrId 3 0 0 2 3
def idIsar4El1 : UInt32 := buildMsrId 3 0 0 2 4
def idIsar5El1 : UInt32 := buildMsrId 3 0 0 2 5
def idIsar6El1 : UInt32 := buildMsrId 3 0 0 2 7
def idAa64mmfr1El1 : UInt32 := buildMsrId 3 0 0 7 1
def idAa64mmfr2El1 : UInt32 := buildMsrId 3 0 0 7 2
def idAa64mmfr3El1 : UInt32 := buildMsrId 3 0 0 7 3
def idAa64mmfr4El1 : UInt32 := buildMsrId 3 0 0 7 4
def idMmfr0El1 : UInt32 := buildMsrId 3 0 0 1 4
def idMmfr1El1 : UInt32 := buildMsrId 3 0 0 1 5
def idMmfr2El1 : UInt32 := buildMsrId 3 0 0 1 6
def idMmfr3El1 : UInt32 := buildMsrId 3 0 0 1 7
def idMmfr4El1 : UInt32 := buildMsrId 3 0 0 2 6
def idMmfr5El1 : UInt32 := buildMsrId 3 0 0 3 6
def clidrEl1 : UInt32 := buildMsrId 3 0 1 0 1
def csselrEl1 : UInt32 := buildMsrId 3 0 2 0 0
def aidrEl1 : UInt32 := buildMsrId 3 0 1 0 7
def revidrEl1 : UInt32 := buildMsrId 3 0 0 0 6
def osdlrEl1 : UInt32 := buildMsrId 2 1 0 3 4
def oslarEl1 : UInt32 := buildMsrId 2 1 0 0 4
def oslsrEl1 : UInt32 := buildMsrId 2 1 0 1 4
def idAfr0El1 : UInt32 := buildMsrId 3 0 0 1 3
def iccSgi1rEl1 : UInt32 := buildMsrId 3 0xc 0x0 0xb 5
def erridrEl1 : UInt32 := buildMsrId 3 5 0 3 0
def errselrEl1 : UInt32 := buildMsrId 3 5 0 3 1
def erxaddrEl1 : UInt32 := buildMsrId 3 5 0 4 3
def erxctlrEl1 : UInt32 := buildMsrId 3 5 0 4 1
def erxfrEl1 : UInt32 := buildMsrId 3 5 0 4 0
def erxmisc0El1 : UInt32 := buildMsrId 3 5 0 5 0
def erxmisc1El1 : UInt32 := buildMsrId 3 5 0 5 1
def erxstatusEl1 : UInt32 := buildMsrId 3 5 0 4 2
def pmscrEl1 : UInt32 := buildMsrId 3 9 0 9 0
def pmsevfrEl1 : UInt32 := buildMsrId 3 9 0 9 5
def pmsicrEl1 : UInt32 := buildMsrId 3 9 0 4 2
def pmsidrEl1 : UInt32 := buildMsrId 3 9 0 4 7
def pmsirrEl1 : UInt32 := buildMsrId 3 9 0 5 3
def pmslatfrEl1 : UInt32 := buildMsrId 3 5 0 5 6
def pmcrEl0 : UInt32 := buildMsrId 3 9 3 12 0
def pmcntensetEl0 : UInt32 := buildMsrId 3 9 3 12 1
def pmcntenclrEl0 : UInt32 := buildMsrId 3 9 3 12 2
def pmovsclrEl0 : UInt32 := buildMsrId 3 9 3 12 3
def pmswincEl0 : UInt32 := buildMsrId 3 9 3 12 4
def pmselrEl0 : UInt32 := buildMsrId 3 9 3 12 5
def pmceid0El0 : UInt32 := buildMsrId 3 9 3 12 6
def pmceid1El0 : UInt32 := buildMsrId 3 9 3 12 7
def pmccntrEl0 : UInt32 := buildMsrId 3 9 3 13 0
def pmxevtyperEl0 : UInt32 := buildMsrId 3 9 3 13 1
def pmxevcntrEl0 : UInt32 := buildMsrId 3 9 3 13 2
def pmuserenrEl0 : UInt32 := buildMsrId 3 9 3 14 0
def pmovssetEl0 : UInt32 := buildMsrId 3 9 3 14 3
def pmccfiltrEl0 : UInt32 := buildMsrId 3 14 3 15 7
def pmintensetEl1 : UInt32 := buildMsrId 3 9 0 14 1
def pmintenclrEl1 : UInt32 := buildMsrId 3 9 0 14 2
def fpsid : UInt32 := buildMsrId 0xff 0 0 3 0
def dacr : UInt32 := buildMsrId 0xff 0b0011 0b000 0b0000 0b000
def mair1A32 : UInt32 := buildMsrId 3 0xa 0 2 1
def ifsr : UInt32 := buildMsrId 0xff 0b0101 0b000 0b0000 0b001
def jidr : UInt32 := buildMsrId 0xff 0b0000 0b111 0b0000 0b000
def fcseidr : UInt32 := buildMsrId 0xff 0b1101 0b000 0b0000 0b000
def tcmtr : UInt32 := buildMsrId 0xff 0b0000 0b000 0b0000 0b010
def tlbtr : UInt32 := buildMsrId 0xff 0b0000 0b000 0b0000 0b011

/-- `DBGBVR_EL1`. -/
def dbgbvrEl1 (i : ℕ) : UInt32 := buildMsrId 2 0 0 (.ofNat i) 4

/-- `DBGBCR_EL1`. -/
def dbgbcrEl1 (i : ℕ) : UInt32 := buildMsrId 2 0 0 (.ofNat i) 5

/-- `DBGWVR_EL1`. -/
def dbgwvrEl1 (i : ℕ) : UInt32 := buildMsrId 2 0 0 (.ofNat i) 6

/-- `DBGWCR_EL1`. -/
def dbgwcrEl1 (i : ℕ) : UInt32 := buildMsrId 2 0 0 (.ofNat i) 7

/-- `pmevcntrn_el0`. -/
def pmevcntrnEl0 (id : UInt8) : UInt32 :=
  buildMsrId 3 14 3 (((0b10 : UInt8) <<< 2) ||| ((id >>> 3) &&& 0b11)) (id &&& 0b111)

/-- `pmevtypern_el0`. -/
def pmevtypernEl0 (id : UInt8) : UInt32 :=
  buildMsrId 3 14 3 (((0b11 : UInt8) <<< 2) ||| ((id >>> 3) &&& 0b11)) (id &&& 0b111)

end RegisterId

/-! ## The objects -/

/-- `Msr::Register`. -/
structure Register where
  value : UInt64
  resetValue : UInt64
  writeMask : UInt64
  writable : Bool
  errOnWriteReserved : Bool
  deriving DecidableEq, Repr

/-- The constructor of `Msr::Register`. -/
def Register.new (writable : Bool) (resetValue : UInt64) (mask : UInt64 := ~~~0)
    (errOnWriteReserved : Bool := false) : Register :=
  ⟨resetValue, resetValue, mask, writable, errOnWriteReserved⟩

/-- A register object of the bus, by its class. `IdAa64pfr0`, `IdPfr0`, `IdPfr1` and `MdscrEl1` are
a `Register` with other values. -/
inductive RegObj (ρ : Type*)
  | register (r : Register)
  | setWayFlush (r : Register)
  /-- Of level `l`, the data cache is `ccsidr (2 * l)`, and the instruction cache comes after it. -/
  | ccsidr (csselr : ρ) (clidr : UInt64) (ccsidr : ℕ → UInt64)
  | iccSgi1r
  | wtrapped
  | sctlr
  | cntpct
  | cntpTval (r : Register)
  | cntpCtl (r : Register)
  | cntpCval (r : Register)

/-- A bus, the objects that have been allocated and how many they are. -/
structure SysRegs (ρ : Type*) where
  bus : BaseBus ρ
  obj : ρ → RegObj ρ
  count : ℕ := 0

/-! ## What the host has -/

/-- `AA64PlatformInfo`. -/
structure AA64PlatformInfo where
  idAa64pfr0El1 : UInt64 := 0
  idAa64pfr1El1 : UInt64 := 0
  idAa64dfr0El1 : UInt64 := 0
  idAa64dfr1El1 : UInt64 := 0
  idAa64isar0El1 : UInt64 := 0
  idAa64isar1El1 : UInt64 := 0
  idAa64isar2El1 : UInt64 := 0
  idAa64mmfr0El1 : UInt64 := 0
  idAa64mmfr1El1 : UInt64 := 0
  idAa64mmfr2El1 : UInt64 := 0
  idAa64zfr0El1 : UInt64 := 0
  midrEl1 : UInt64 := 0

/-- `AA32PlatformInfo`, less what is replaced before it is used. -/
structure AA32PlatformInfo where
  idPfr0El1 : UInt32 := 0
  idPfr1El1 : UInt32 := 0
  idDfr0El1 : UInt32 := 0
  idIsar0El1 : UInt32 := 0
  idIsar1El1 : UInt32 := 0
  idIsar2El1 : UInt32 := 0
  idIsar3El1 : UInt32 := 0
  idIsar4El1 : UInt32 := 0
  idIsar5El1 : UInt32 := 0
  idMmfr0El1 : UInt32 := 0
  idMmfr1El1 : UInt32 := 0
  idMmfr2El1 : UInt32 := 0
  idMmfr3El1 : UInt32 := 0
  idMmfr4El1 : UInt32 := 0
  idMmfr5El1 : UInt32 := 0
  mvfr0El1 : UInt32 := 0
  mvfr1El1 : UInt32 := 0
  mvfr2El1 : UInt32 := 0

/-- `PlatformInfo`. -/
structure PlatformInfo where
  aa64 : AA64PlatformInfo := {}
  aa32 : AA32PlatformInfo := {}

/-- `CacheTopo`. -/
structure CacheTopo where
  ctrEl0 : UInt64 := 0
  clidrEl1 : UInt64 := 0
  ccsidrEl1 : ℕ → UInt64 := fun _ => 0

/-! ## Set-up -/

/-- An object and its id, before it has a place on the heap. -/
abbrev NewReg (ρ : Type*) := UInt32 × RegObj ρ

/-- A `Msr::Register`. -/
def newRegister {ρ : Type*} (id : UInt32) (writable : Bool) (resetValue : UInt64)
    (mask : UInt64 := ~~~0) : NewReg ρ := (id, .register (.new writable resetValue mask))

namespace SysRegs

section Entries

variable {ρ : Type*}

open RegisterId

/-- `setup_aarch64_debug`. -/
def aarch64Debug (_idAa64dfr0El1 _idAa64dfr1El1 : UInt64) : List (NewReg ρ) :=
  [newRegister idAa64dfr0El1 false 0x6, newRegister idAa64dfr1El1 false 0,
    newRegister mdscrEl1 true 0] ++
  (List.range 16).flatMap (fun i =>
    [newRegister (dbgbvrEl1 i) true 0 0, newRegister (dbgbcrEl1 i) true 0 0,
      newRegister (dbgwvrEl1 i) true 0 0, newRegister (dbgwcrEl1 i) true 0 0]) ++
  [newRegister mdrarEl1 true 0]

/-- `setup_aarch32_debug`. -/
def aarch32Debug (_idAa64dfr0El1 : UInt64) (_idDfr0El1 : UInt32) : List (NewReg ρ) :=
  [newRegister idDfr0El1 false 0, newRegister idDfr1El1 false 0, newRegister dbgdidr false 0]

/-- `value &= ~(ones << shift)`. -/
def clear (value ones shift : UInt64) : UInt64 := value &&& ~~~(ones <<< shift)

/-- `IdAa64pfr0::_reset_value`: no SVE, no MPAM, no AMU. -/
def idAa64pfr0ResetValue (value : UInt64) : UInt64 :=
  clear (clear (clear value 0xf 32) 0xf 40) 0xf 44

/-- `BHV_SIG`: the bytes of "BHV.". -/
def bhvSig : UInt64 := 0x2e564842

/-- `setup_aarch64_features`. -/
def aarch64Features (aa64 : AA64PlatformInfo) : List (NewReg ρ) :=
  [newRegister idAa64pfr0El1 false (idAa64pfr0ResetValue aa64.idAa64pfr0El1),
    newRegister idAa64pfr1El1 false 0,
    newRegister idAa64pfr2El1 false 0,
    newRegister idAa64smfr0El1 false 0,
    newRegister idAa64zfr0El1 false 0,
    newRegister idAa64fpfr0El1 false 0,
    newRegister idAa64isar0El1 false aa64.idAa64isar0El1,
    -- `PAuth`: APA and API, GPA and GPI
    newRegister idAa64isar1El1 false
      (clear (clear aa64.idAa64isar1El1 0xff 4) 0xff 24),
    newRegister idAa64isar2El1 false aa64.idAa64isar2El1,
    newRegister idAa64isar3El1 false 0,
    newRegister idAa64afr0El1 false bhvSig,
    newRegister idAa64afr1El1 false 0]

/-- `setup_aarch64_ras`. -/
def aarch64Ras : List (NewReg ρ) :=
  [newRegister erridrEl1 false 0, newRegister errselrEl1 true 0, newRegister erxaddrEl1 true 0,
    newRegister erxctlrEl1 true 0, newRegister erxfrEl1 false 0, newRegister erxstatusEl1 true 0,
    newRegister erxmisc0El1 true 0, newRegister erxmisc1El1 true 0]

/-- `setup_aarch64_pms`. -/
def aarch64Pms : List (NewReg ρ) :=
  [newRegister pmsidrEl1 false 0x26007,
    newRegister pmscrEl1 true 0,
    -- writes are ignored
    newRegister pmsevfrEl1 true 0 0,
    newRegister pmsicrEl1 true 0, newRegister pmsirrEl1 true 0, newRegister pmslatfrEl1 true 0]

/-- `setup_aarch64_pm`. -/
def aarch64Pm : List (NewReg ρ) :=
  [newRegister pmcrEl0 true 0, newRegister pmcntensetEl0 true 0, newRegister pmcntenclrEl0 true 0,
    newRegister pmovsclrEl0 true 0, newRegister pmswincEl0 true 0, newRegister pmselrEl0 true 0,
    newRegister pmceid0El0 false 0, newRegister pmceid1El0 false 0, newRegister pmccntrEl0 true 0,
    newRegister pmxevtyperEl0 true 0, newRegister pmxevcntrEl0 true 0,
    newRegister pmuserenrEl0 true 0, newRegister pmovssetEl0 true 0,
    newRegister pmccfiltrEl0 true 0, newRegister pmintensetEl1 true 0,
    newRegister pmintenclrEl1 true 0] ++
  (List.range 31).map (fun i => newRegister (pmevcntrnEl0 (.ofNat i)) true 0) ++
  (List.range 31).map (fun i => newRegister (pmevtypernEl0 (.ofNat i)) true 0)

/-- `setup_aarch32_features`. -/
def aarch32Features (aa32 : AA32PlatformInfo) : List (NewReg ρ) :=
  [newRegister idPfr0El1 false (aa32.idPfr0El1.toUInt64 &&& 0xffff),
    -- no `ProgMod`, no security, no virtualization
    newRegister idPfr1El1 false (clear (clear (clear aa32.idPfr1El1.toUInt64 0xf 0) 0xf 4) 0xf 12),
    newRegister idPfr2El1 false 0,
    newRegister idIsar0El1 false aa32.idIsar0El1.toUInt64,
    newRegister idIsar1El1 false aa32.idIsar1El1.toUInt64,
    newRegister idIsar2El1 false aa32.idIsar2El1.toUInt64,
    newRegister idIsar3El1 false aa32.idIsar3El1.toUInt64,
    newRegister idIsar4El1 false (aa32.idIsar4El1 &&& ~~~(0xf000 : UInt32)).toUInt64,
    newRegister idIsar5El1 false (aa32.idIsar5El1 &&& 0xfffff).toUInt64,
    newRegister idIsar6El1 false 0]

/-- `setup_aarch64_memory_model`. -/
def aarch64MemoryModel (idAa64mmfr0 idAa64mmfr1 idAa64mmfr2 : UInt64) : List (NewReg ρ) :=
  -- no enhanced counter, no host extension, no LORegions, no nesting, no enhanced traps
  [newRegister idAa64mmfr0El1 false (clear idAa64mmfr0 0xf 60),
    newRegister idAa64mmfr1El1 false (clear (clear idAa64mmfr1 0xf 8) 0xf 16),
    newRegister idAa64mmfr2El1 false (clear (clear idAa64mmfr2 0xf 24) 0xf 56),
    newRegister idAa64mmfr3El1 false 0,
    newRegister idAa64mmfr4El1 false 0]

/-- `setup_aarch32_memory_model`. -/
def aarch32MemoryModel (aa32 : AA32PlatformInfo) : List (NewReg ρ) :=
  [newRegister idMmfr0El1 false aa32.idMmfr0El1.toUInt64,
    newRegister idMmfr1El1 false aa32.idMmfr1El1.toUInt64,
    newRegister idMmfr2El1 false aa32.idMmfr2El1.toUInt64,
    newRegister idMmfr3El1 false aa32.idMmfr3El1.toUInt64,
    newRegister idMmfr4El1 false 0,
    newRegister idMmfr5El1 false aa32.idMmfr5El1.toUInt64]

/-- `SetWayFlushReg`. -/
def newSetWayFlush (id : UInt32) : NewReg ρ := (id, .setWayFlush (.new true 0 0x00000000fffffffe))

/-- `setup_aarch64_setway_flushes`. -/
def aarch64SetwayFlushes : List (NewReg ρ) :=
  [newSetWayFlush dciswA64, newSetWayFlush dccswA64, newSetWayFlush dcciswA64]

/-- `setup_aarch32_media_vfp`. -/
def aarch32MediaVfp (aa32 : AA32PlatformInfo) (midrEl1 : UInt64) : List (NewReg ρ) :=
  [newRegister fpsid true ((midrEl1.toUInt32 &&& 0xf0000000) ||| 0x30000).toUInt64,
    newRegister mvfr0 false aa32.mvfr0El1.toUInt64,
    newRegister mvfr1 false aa32.mvfr1El1.toUInt64,
    newRegister mvfr2 false aa32.mvfr2El1.toUInt64]

/-- `setup_page_table_regs`. -/
def pageTableRegs : List (NewReg ρ) :=
  [(tcrEl1, .wtrapped), (ttbr0El1, .wtrapped), (ttbr1El1, .wtrapped), (sctlrEl1, .sctlr)]

/-- `setup_tvm`. -/
def tvmRegs : List (NewReg ρ) :=
  [afsr0El1, afsr1El1, esrEl1, farEl1, mairEl1, mair1A32, amairEl1, dacr, ifsr,
    contextidrEl1].map (fun id => (id, .wtrapped)) ++ pageTableRegs

/-- `setup_gic_registers`. -/
def gicRegisters : List (NewReg ρ) := [(iccSgi1rEl1, .iccSgi1r)]

/-- `setup_aarch32_msr`. -/
def aarch32Msr (info : PlatformInfo) : List (NewReg ρ) :=
  aarch32Features info.aa32 ++ aarch32MemoryModel info.aa32 ++
  aarch32MediaVfp info.aa32 info.aa64.midrEl1 ++
  aarch32Debug info.aa64.idAa64dfr0El1 info.aa32.idDfr0El1 ++
  [newRegister jidr false 0, newRegister fcseidr true 0 0, newRegister tcmtr true 0 0,
    newRegister tlbtr true 0 0, newRegister idAfr0El1 false 0]

/-- `get_supported_mode`, of EL1 or EL0, is `AA64_AA32`. -/
def supportsAa32 (idAa64pfr0 : UInt64) : Bool :=
  ((idAa64pfr0 >>> 4) &&& 0xf) == 0b0010 || (idAa64pfr0 &&& 0xf) == 0b0010

/-- `setup_arch_msr`. -/
def archMsr (info : PlatformInfo) (gicV3 : Bool) : List (NewReg ρ) :=
  aarch64Features info.aa64 ++
  aarch64MemoryModel info.aa64.idAa64mmfr0El1 info.aa64.idAa64mmfr1El1 info.aa64.idAa64mmfr2El1 ++
  aarch64SetwayFlushes ++
  aarch64Debug info.aa64.idAa64dfr0El1 info.aa64.idAa64dfr1El1 ++
  tvmRegs ++ aarch64Ras ++ aarch64Pm ++ aarch64Pms ++
  [newRegister aidrEl1 false 0, newRegister revidrEl1 false 0, newRegister osdlrEl1 true 0,
    newRegister oslarEl1 true 0, newRegister oslsrEl1 false 0] ++
  (if gicV3 then gicRegisters else []) ++
  (if supportsAa32 info.aa64.idAa64pfr0El1 then aarch32Msr info else [])

/-- `setup_aarch64_caching_info`, where the object of `CSSELR_EL1` is at `csselr`. -/
def aarch64CachingInfo (topo : CacheTopo) (csselr : ρ) : List (NewReg ρ) :=
  [newRegister clidrEl1 false topo.clidrEl1, newRegister csselrEl1 true 0,
    newRegister ctrA64 false topo.ctrEl0, (ccsidrEl1, .ccsidr csselr topo.clidrEl1 topo.ccsidrEl1)]

/-- `setup_aarch64_physical_timer`. -/
def aarch64PhysicalTimer : List (NewReg ρ) :=
  [(cntpTvalEl0, .cntpTval (.new true 0 0xffffffff)), (cntpCtlEl0, .cntpCtl (.new true 0 0b11)),
    (cntpCvalEl0, .cntpCval (.new true 0)), (cntpctEl0, .cntpct)]

end Entries

variable {ρ : Type*} [LinearOrder ρ]

/-- `register_system_reg (new (nothrow) …)`. The heap has a place for each object, or none. -/
def registerSystemReg (heap : ℕ → Option ρ) (s : SysRegs ρ) (reg : NewReg ρ) :
    Option (SysRegs ρ) :=
  match heap s.count with
  | none => none
  | some r =>
      let (ok, bus) := s.bus.registerDevice r reg.1.toUInt64
      if ok then some ⟨bus, Function.update s.obj r reg.2, s.count + 1⟩ else none

/-- Objects that are registered in turn. -/
def registerAll (heap : ℕ → Option ρ) (s : SysRegs ρ) (regs : List (NewReg ρ)) :
    Option (SysRegs ρ) := regs.foldlM (registerSystemReg heap) s

/-- What a platform calls to set its registers up. -/
inductive SetUpCall
  | archMsr (info : PlatformInfo) (gicV3 : Bool)
  | cachingInfo (topo : CacheTopo)
  | physicalTimer

/-- Which function it is. -/
inductive SetUpKind
  | archMsr
  | cachingInfo
  | physicalTimer
  deriving DecidableEq, Repr

/-- Which function a call is of. -/
def SetUpCall.kind : SetUpCall → SetUpKind
  | archMsr _ _ => .archMsr
  | cachingInfo _ => .cachingInfo
  | physicalTimer => .physicalTimer

/-- The objects of a call, where that of `CSSELR_EL1` is at `csselr`. -/
def SetUpCall.regs {ρ : Type*} (csselr : ρ) : SetUpCall → List (NewReg ρ)
  | archMsr info gicV3 => SysRegs.archMsr info gicV3
  | cachingInfo topo => aarch64CachingInfo topo csselr
  | physicalTimer => aarch64PhysicalTimer

/-- A call of the set-up. -/
def setUp (heap : ℕ → Option ρ) (s : SysRegs ρ) (c : SetUpCall) : Option (SysRegs ρ) :=
  match c with
  | .cachingInfo topo =>
      -- `CSSELR_EL1` is the second object that this allocates
      match heap (s.count + 1) with
      | none => none
      | some csselr => s.registerAll heap (aarch64CachingInfo topo csselr)
  | .archMsr info gicV3 => s.registerAll heap (archMsr info gicV3)
  | .physicalTimer => s.registerAll heap aarch64PhysicalTimer

/-- A bus before anything is put on it, with whatever the heap holds. -/
def empty (key : ρ → UInt64) (obj : ρ → RegObj ρ) : SysRegs ρ :=
  ⟨{ devices := { key := key } }, obj, 0⟩

end SysRegs

/-! ## The ids of a set-up -/

namespace SysRegs

/-- All the registers that a function can set up: those of a GICv3 and of AArch32 too. -/
def SetUpKind.allIds : SetUpKind → List UInt32
  | archMsr => (SysRegs.archMsr (ρ := ℕ) { aa64 := { idAa64pfr0El1 := 0x2 } } true).map Prod.fst
  | cachingInfo => (aarch64CachingInfo {} 0).map Prod.fst
  | physicalTimer => (aarch64PhysicalTimer (ρ := ℕ)).map Prod.fst

set_option maxRecDepth 10000 in
/-- **No two registers have one id.** -/
theorem allIds_nodup : ((SetUpKind.allIds .archMsr ++ SetUpKind.allIds .cachingInfo ++
    SetUpKind.allIds .physicalTimer).map UInt32.toNat).Nodup := by
  decide +kernel

theorem allIds_kind_nodup (k : SetUpKind) : k.allIds.Nodup := by
  have h := allIds_nodup.of_map
  rw [List.nodup_append, List.nodup_append] at h
  cases k with
  | archMsr => exact h.1.1
  | cachingInfo => exact h.1.2.1
  | physicalTimer => exact h.2.1

theorem allIds_disjoint {k k' : SetUpKind} (hne : k ≠ k') : k.allIds.Disjoint k'.allIds := by
  have h := allIds_nodup.of_map
  rw [List.nodup_append', List.nodup_append', List.disjoint_append_left] at h
  obtain ⟨⟨-, -, hac⟩, -, hat, hct⟩ := h
  cases k <;> cases k' <;> first
    | exact absurd rfl hne
    | assumption
    | exact List.Disjoint.symm (by assumption)

theorem regs_sublist {ρ : Type*} {csselr : ρ} (c : SetUpCall) :
    ((c.regs csselr).map Prod.fst).Sublist c.kind.allIds := by
  cases c with
  | archMsr info gicV3 =>
      have hcommon (a b : List (NewReg ρ)) (a' b' : List (NewReg ℕ))
          (ha : (a.map Prod.fst).Sublist (a'.map Prod.fst))
          (hb : (b.map Prod.fst).Sublist (b'.map Prod.fst)) :
          ((a ++ b).map Prod.fst).Sublist ((a' ++ b').map Prod.fst) := by
        rw [List.map_append, List.map_append]
        exact ha.append hb
      refine hcommon _ _ _ _ (hcommon _ _ _ _ ?_ ?_) ?_
      · exact List.Sublist.refl _
      · cases gicV3 with
        | true => exact List.Sublist.refl _
        | false => exact List.nil_sublist _
      · rw [if_pos (show supportsAa32 0x2 = true from rfl)]
        split_ifs
        · exact List.Sublist.refl _
        · exact List.nil_sublist _
  | cachingInfo topo => exact List.Sublist.refl _
  | physicalTimer => exact List.Sublist.refl _

variable {ρ : Type*} {place : ℕ → ρ}

/-- The id of an object, as the bus has it. -/
abbrev idOf {ρ : Type*} (reg : NewReg ρ) : UInt64 := reg.1.toUInt64

/-- What calls register, the first of them with the `n`-th object of the heap. -/
def layout (place : ℕ → ρ) (n : ℕ) : List SetUpCall → List (NewReg ρ)
  | [] => []
  | c :: calls =>
      let regs := c.regs (place (n + 1))
      regs ++ layout place (n + regs.length) calls

theorem toUInt64_injective : Function.Injective UInt32.toUInt64 := fun x y hxy => by
  rw [← UInt32.toNat_inj, ← UInt32.toNat_toUInt64, hxy, UInt32.toNat_toUInt64]

theorem mem_layout {n : ℕ} {calls : List SetUpCall} {reg : NewReg ρ}
    (h : reg ∈ layout place n calls) : ∃ c ∈ calls, reg.1 ∈ c.kind.allIds := by
  induction calls generalizing n with
  | nil => exact absurd h List.not_mem_nil
  | cons c calls ih =>
      obtain hmem | hmem := List.mem_append.1 h
      · exact ⟨c, List.mem_cons_self, (regs_sublist c).subset (List.mem_map_of_mem hmem)⟩
      · obtain ⟨c', hc', hid⟩ := ih hmem
        exact ⟨c', List.mem_cons_of_mem _ hc', hid⟩

/-- Calls of different functions register objects of different ids. -/
theorem layout_ids_nodup (n : ℕ) {calls : List SetUpCall}
    (hcalls : (calls.map SetUpCall.kind).Nodup) : ((layout place n calls).map idOf).Nodup := by
  have hids : ((layout place n calls).map Prod.fst).Nodup := by
    induction calls generalizing n with
    | nil => exact List.nodup_nil
    | cons c calls ih =>
        rw [List.map_cons, List.nodup_cons] at hcalls
        rw [layout, List.map_append, List.nodup_append']
        refine ⟨(allIds_kind_nodup c.kind).sublist (regs_sublist c), ih _ hcalls.2, ?_⟩
        intro id hid hid'
        obtain ⟨reg, hreg, rfl⟩ := List.mem_map.1 hid'
        obtain ⟨c', hc', hmem⟩ := mem_layout hreg
        have hne : c.kind ≠ c'.kind := fun heq => hcalls.1 (heq ▸ List.mem_map_of_mem hc')
        exact allIds_disjoint hne ((regs_sublist c).subset hid) hmem
  have hmap : (layout place n calls).map idOf =
      ((layout place n calls).map Prod.fst).map UInt32.toUInt64 := by
    rw [List.map_map]
    rfl
  rw [hmap]
  exact hids.map toUInt64_injective

end SysRegs

/-! ## What is registered -/

/-- An object whose pointers are named otherwise. -/
def RegObj.map {ρ σ : Type*} (f : ρ → σ) : RegObj ρ → RegObj σ
  | register r => .register r
  | setWayFlush r => .setWayFlush r
  | ccsidr csselr clidr sizes => .ccsidr (f csselr) clidr sizes
  | iccSgi1r => .iccSgi1r
  | wtrapped => .wtrapped
  | sctlr => .sctlr
  | cntpct => .cntpct
  | cntpTval r => .cntpTval r
  | cntpCtl r => .cntpCtl r
  | cntpCval r => .cntpCval r

/-- An object and its id, the pointers of the object named otherwise. -/
def NewReg.map {ρ σ : Type*} (f : ρ → σ) (reg : NewReg ρ) : NewReg σ := (reg.1, reg.2.map f)

namespace SysRegs

variable {ρ : Type*} [LinearOrder ρ] {s : SysRegs ρ} {place : ℕ → ρ} {regs more : List (NewReg ρ)}

/-- The id that leads to an object. -/
def name (s : SysRegs ρ) (r : ρ) : Option UInt64 :=
  let id := s.bus.devices.key r
  if s.bus.getDeviceAt id = some r then some id else none

/-- The object that an id leads to, its pointers replaced by the ids of what they point to. -/
def view (s : SysRegs ρ) (id : UInt64) : Option (RegObj (Option UInt64)) :=
  (s.bus.getDeviceAt id).map fun r => (s.obj r).map s.name

/-- The first objects of the heap are those of a list, and the bus has these and no others. -/
structure Holds (place : ℕ → ρ) (s : SysRegs ρ) (regs : List (NewReg ρ)) : Prop where
  sound : s.bus.devices.Sound
  count : s.count = regs.length
  found : ∀ i (hi : i < regs.length), s.bus.getDeviceAt (idOf regs[i]) = some (place i)
  obj : ∀ i (hi : i < regs.length), s.obj (place i) = regs[i].2
  free : ∀ id, id ∉ regs.map idOf → s.bus.getDeviceAt id = none

theorem holds_empty (key : ρ → UInt64) (obj : ρ → RegObj ρ) : Holds place (empty key obj) [] where
  sound := ⟨SearchSet.ordered_nil, nofun⟩
  count := rfl
  found _ hi := absurd hi (Nat.not_lt_zero _)
  obj _ hi := absurd hi (Nat.not_lt_zero _)
  free _ _ := rfl

theorem Holds.mem (h : Holds place s regs) {r : ρ} (hr : r ∈ s.bus.devices.set) :
    ∃ i, i < regs.length ∧ r = place i := by
  have hget : s.bus.getDeviceAt (s.bus.devices.key r) = some r :=
    h.sound.get_eq_some_iff.2 ⟨hr, rfl⟩
  by_cases hin : s.bus.devices.key r ∈ regs.map idOf
  · obtain ⟨reg, hreg, hkey⟩ := List.mem_map.1 hin
    obtain ⟨i, hi, rfl⟩ := List.mem_iff_getElem.1 hreg
    rw [← hkey, h.found i hi, Option.some.injEq] at hget
    exact ⟨i, hi, hget.symm⟩
  · rw [h.free _ hin] at hget
    exact absurd hget nofun

/-- **A registration** with an id that is free. -/
theorem Holds.registerSystemReg (h : Holds place s regs) (hplace : Function.Injective place)
    {reg : NewReg ρ} (hreg : idOf reg ∉ regs.map idOf) :
    ∃ s', s.registerSystemReg (fun i => some (place i)) reg = some s' ∧
      Holds place s' (regs ++ [reg]) := by
  have hnew : place s.count ∉ s.bus.devices.set := by
    intro hmem
    obtain ⟨i, hi, heq⟩ := h.mem hmem
    have := hplace heq
    have := h.count
    omega
  obtain ⟨hins, hsound, hget⟩ := h.sound.insert_new hnew (h.free _ hreg)
  refine ⟨⟨{ s.bus with devices := (s.bus.devices.insert (idOf reg) (place s.count)).1 },
    Function.update s.obj (place s.count) reg.2, s.count + 1⟩, ?_, ?_⟩
  · simp only [SysRegs.registerSystemReg, BaseBus.registerDevice_of_not_mem h.sound.inOrder hnew,
      if_true]
  have hlookup (id : UInt64) : (s.bus.devices.insert (idOf reg) (place s.count)).1.get id =
      if id = idOf reg then some (place s.count) else s.bus.devices.get id := by
    rw [hget, Function.update_apply]
  refine ⟨hsound, ?_, fun i hi => ?_, fun i hi => ?_, fun id hid => ?_⟩
  · rw [List.length_append, List.length_singleton, ← h.count]
  · refine (hlookup _).trans ?_
    by_cases hlt : i < regs.length
    · have hne : idOf regs[i] ≠ idOf reg := fun heq =>
        hreg (heq ▸ List.mem_map_of_mem (List.getElem_mem hlt))
      rw [List.getElem_append_left hlt, if_neg hne]
      exact h.found i hlt
    · obtain rfl : i = regs.length := by
        rw [List.length_append, List.length_singleton] at hi
        omega
      rw [List.getElem_append_right (Nat.le_refl _), h.count]
      simp
  · change Function.update s.obj (place s.count) reg.2 (place i) = _
    by_cases hlt : i < regs.length
    · have hne : place i ≠ place s.count := fun heq => by
        have := hplace heq
        have := h.count
        omega
      rw [List.getElem_append_left hlt, Function.update_of_ne hne, h.obj i hlt]
    · obtain rfl : i = regs.length := by
        rw [List.length_append, List.length_singleton] at hi
        omega
      rw [List.getElem_append_right (Nat.le_refl _), h.count, Function.update_self]
      simp
  · rw [List.map_append, List.mem_append, not_or, List.map_singleton, List.mem_singleton] at hid
    refine (hlookup id).trans ?_
    rw [if_neg hid.2]
    exact h.free id hid.1

/-- **Registrations** whose ids are free and differ. -/
theorem Holds.registerAll (h : Holds place s regs) (hplace : Function.Injective place)
    (hnodup : ((regs ++ more).map idOf).Nodup) :
    ∃ s', s.registerAll (fun i => some (place i)) more = some s' ∧
      Holds place s' (regs ++ more) := by
  induction more generalizing s regs with
  | nil => exact ⟨s, rfl, by rwa [List.append_nil]⟩
  | cons reg more ih =>
      rw [List.append_cons] at hnodup ⊢
      have hfree : idOf reg ∉ regs.map idOf := by
        intro hmem
        rw [List.append_assoc, List.map_append, List.nodup_append] at hnodup
        exact hnodup.2.2 _ hmem _ List.mem_cons_self rfl
      obtain ⟨s', hs', hholds⟩ := h.registerSystemReg hplace hfree
      obtain ⟨s'', hs'', hholds'⟩ := ih hholds hnodup
      exact ⟨s'', by rw [SysRegs.registerAll, List.foldlM_cons, hs']; exact hs'', hholds'⟩

/-! ## The set-up of a platform -/

/-- **A call** with whose ids nothing has been registered. -/
theorem Holds.setUp (h : Holds place s regs) (hplace : Function.Injective place) (c : SetUpCall)
    (hnodup : ((regs ++ c.regs (place (regs.length + 1))).map idOf).Nodup) :
    ∃ s', s.setUp (fun i => some (place i)) c = some s' ∧
      Holds place s' (regs ++ c.regs (place (regs.length + 1))) := by
  have hall := h.registerAll hplace hnodup
  cases c with
  | archMsr info gicV3 => exact hall
  | cachingInfo topo =>
      rw [← h.count] at hall ⊢
      exact hall
  | physicalTimer => exact hall

theorem Holds.setUpAll (h : Holds place s regs) (hplace : Function.Injective place)
    {calls : List SetUpCall}
    (hnodup : ((regs ++ layout place regs.length calls).map idOf).Nodup) :
    ∃ s', calls.foldlM (SysRegs.setUp fun i => some (place i)) s = some s' ∧
      Holds place s' (regs ++ layout place regs.length calls) := by
  induction calls generalizing s regs with
  | nil => exact ⟨s, rfl, by rwa [layout, List.append_nil]⟩
  | cons c calls ih =>
      rw [layout, ← List.append_assoc] at hnodup ⊢
      have hfirst : ((regs ++ c.regs (place (regs.length + 1))).map idOf).Nodup := by
        rw [List.map_append] at hnodup
        exact hnodup.of_append_left
      obtain ⟨s', hs', hholds⟩ := h.setUp hplace c hfirst
      rw [← List.length_append] at hnodup ⊢
      obtain ⟨s'', hs'', hholds'⟩ := ih hholds hnodup
      exact ⟨s'', by rw [List.foldlM_cons, hs']; exact hs'', hholds'⟩

/-! ## What the guest finds -/

theorem regs_map {σ τ : Type*} (f : σ → τ) (x : σ) (c : SetUpCall) :
    (c.regs x).map (NewReg.map f) = c.regs (f x) := by
  cases c with
  | archMsr info gicV3 =>
      simp only [SetUpCall.regs, archMsr, List.map_append, apply_ite (List.map (NewReg.map f))]
      rfl
  | cachingInfo topo => rfl
  | physicalTimer => rfl

theorem regs_eq {σ : Type*} (x y : σ) {c : SetUpCall} (hc : c.kind ≠ .cachingInfo) :
    c.regs x = c.regs y := by
  cases c with
  | archMsr info gicV3 => rfl
  | cachingInfo topo => exact absurd rfl hc
  | physicalTimer => rfl

omit [LinearOrder ρ] in
/-- Pointers replaced by ids, what calls register does not depend on the heap. -/
theorem layout_map {name : ρ → Option UInt64} {pre : List (NewReg ρ)} {calls : List SetUpCall}
    (hname : ∀ i (hi : i < (pre ++ layout place pre.length calls).length),
      name (place i) = some (idOf (pre ++ layout place pre.length calls)[i])) :
    (layout place pre.length calls).map (NewReg.map name) =
      calls.flatMap (SetUpCall.regs (some RegisterId.csselrEl1.toUInt64)) := by
  induction calls generalizing pre with
  | nil => rfl
  | cons c calls ih =>
      have hassoc : pre ++ layout place pre.length (c :: calls) =
          pre ++ c.regs (place (pre.length + 1)) ++
            layout place (pre ++ c.regs (place (pre.length + 1))).length calls := by
        rw [layout, List.append_assoc, List.length_append]
      have hrest := @ih (pre ++ c.regs (place (pre.length + 1))) fun i hi => by
        have := hname i (by rwa [hassoc])
        simpa only [hassoc] using this
      rw [List.length_append] at hrest
      rw [layout, List.map_append, List.flatMap_cons, hrest, regs_map]
      congr 1
      by_cases hc : c.kind = .cachingInfo
      · cases c with
        | archMsr info gicV3 => exact absurd hc nofun
        | physicalTimer => exact absurd hc nofun
        | cachingInfo topo =>
            have hcsselr := hname (pre.length + 1) (by
              simp [layout, SetUpCall.regs, aarch64CachingInfo])
            rw [hcsselr]
            simp [layout, SetUpCall.regs, aarch64CachingInfo, idOf, newRegister]
      · exact regs_eq _ _ hc

/-- What a list has for an id. -/
def lookup {σ : Type*} (regs : List (NewReg σ)) (id : UInt64) : Option (RegObj σ) :=
  (regs.find? fun reg => idOf reg = id).map Prod.snd

/-- **What is registered is found**, and nothing else is. -/
theorem Holds.view_eq (h : Holds place s regs) (id : UInt64) :
    s.view id = lookup (regs.map (NewReg.map s.name)) id := by
  rw [lookup]
  cases hfind : (regs.map (NewReg.map s.name)).find? fun reg => idOf reg = id with
  | none =>
      have hfree : s.bus.getDeviceAt id = none := by
        refine h.free id fun hid => ?_
        obtain ⟨reg, hreg, hidOf⟩ := List.mem_map.1 hid
        have := List.find?_eq_none.1 hfind _ (List.mem_map_of_mem hreg)
        exact this (decide_eq_true hidOf)
      rw [view, hfree]
      rfl
  | some reg =>
      have hid : idOf reg = id :=
        of_decide_eq_true (List.find?_some (p := fun reg => decide (idOf reg = id)) hfind)
      obtain ⟨reg', hreg', rfl⟩ := List.mem_map.1 (List.mem_of_find?_eq_some hfind)
      obtain ⟨i, hi, rfl⟩ := List.mem_iff_getElem.1 hreg'
      have hfound : s.bus.getDeviceAt id = some (place i) := by
        rw [← hid]
        exact h.found i hi
      rw [view, hfound, Option.map_some, h.obj i hi]
      rfl

theorem holds_setUp (hplace : Function.Injective place) (key : ρ → UInt64) (obj : ρ → RegObj ρ)
    {calls : List SetUpCall} (hcalls : (calls.map SetUpCall.kind).Nodup) :
    ∃ s, calls.foldlM (setUp fun i => some (place i)) (empty key obj) = some s ∧
      Holds place s (layout place 0 calls) := by
  have hnodup : (([] ++ layout place 0 calls).map idOf).Nodup := layout_ids_nodup 0 hcalls
  exact (holds_empty key obj).setUpAll hplace hnodup

theorem Holds.view_layout {calls : List SetUpCall} (h : Holds place s (layout place 0 calls))
    (id : UInt64) : s.view id =
      lookup (calls.flatMap (SetUpCall.regs (some RegisterId.csselrEl1.toUInt64))) id := by
  rw [h.view_eq, ← @layout_map ρ place s.name [] calls fun i hi => ?_]
  · rfl
  · have hkey := (h.sound.get_eq_some_iff.1 (h.found i hi)).2
    rw [name, hkey, if_pos (h.found i hi)]
    rfl

/-- **The set-up of the system registers succeeds**, whatever the host has and in whatever order it
is made, if no function is called twice. The guest then finds the registers of these calls, wherever
the heap has placed them. -/
theorem setUp_view (hplace : Function.Injective place) (key : ρ → UInt64) (obj : ρ → RegObj ρ)
    {calls : List SetUpCall} (hcalls : (calls.map SetUpCall.kind).Nodup) :
    ∃ s, calls.foldlM (setUp fun i => some (place i)) (empty key obj) = some s ∧
      s.bus.devices.Sound ∧ ∀ id, s.view id =
        lookup (calls.flatMap (SetUpCall.regs (some RegisterId.csselrEl1.toUInt64))) id := by
  obtain ⟨s, hs, hholds⟩ := holds_setUp hplace key obj hcalls
  exact ⟨s, hs, hholds.sound, hholds.view_layout⟩

/-- A heap that grows downwards, and the timer set up first. -/
theorem setUp_view_downwards : ∃ s : SysRegs ℤ,
    [.physicalTimer, .archMsr {} false, .cachingInfo {}].foldlM
        (setUp fun i => some (-(i : ℤ))) (empty (fun _ => 0) fun _ => .wtrapped) = some s ∧
      s.view RegisterId.cntpctEl0.toUInt64 = some .cntpct := by
  have hplace : Function.Injective fun i : ℕ => -(i : ℤ) := fun i j h => by simpa using h
  have hkinds : (([.physicalTimer, .archMsr {} false, .cachingInfo {}] : List SetUpCall).map
      SetUpCall.kind).Nodup := by
    change [SetUpKind.physicalTimer, .archMsr, .cachingInfo].Nodup
    decide
  obtain ⟨s, hs, -, hview⟩ := setUp_view hplace (fun _ => 0) (fun _ => .wtrapped) hkinds
  exact ⟨s, hs, (hview _).trans rfl⟩

end SysRegs

end Msr

end Vml
