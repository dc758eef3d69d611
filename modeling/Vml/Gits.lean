import Vml.GicRun

/-!
# The interrupt translation service

The ITS of the GIC (`gits.cpp`) and the LPIs that it asserts (`GicD::assert_lpi`). A device names an
event. The tables in the memory of the guest say which LPI the event stands for and which vCPU is to
have it.

**The tables.** An entry of the device table is the address of a translation table, an entry of
which is the number of an LPI and a collection, and an entry of the collection table is a vCPU. All
are eight bytes long. A read of the memory bus that fails makes a device or an event unknown.

**Assertions.** A function that can fail an `ASSERT` has no result then.
-/

namespace Vml

/-! ## The memory of the guest -/

/-- What the ITS sees of the memory bus: the bytes, and the accesses that succeed. -/
structure GuestBus where
  mem : UInt64 → UInt8
  readable : UInt64 → ℕ → Bool
  writable : UInt64 → ℕ → Bool

namespace GuestBus

/-- `SimpleAS::read_bus`. -/
def readBus (b : GuestBus) (addr : UInt64) (n : ℕ) : Option (List UInt8) :=
  if b.readable addr n then some ((List.range n).map fun i => b.mem (addr + UInt64.ofNat i))
  else none

/-- The bytes of a number, the lowest first. -/
def fromBytes (bytes : List UInt8) : UInt64 :=
  bytes.foldr (fun byte value => value <<< 8 ||| byte.toUInt64) 0

/-- `SimpleAS::read_bus` into a 64-bit variable. -/
def read64 (b : GuestBus) (addr : UInt64) : Option UInt64 := (b.readBus addr 8).map fromBytes

/-- `SimpleAS::read_bus` into an 8-bit variable. -/
def read8 (b : GuestBus) (addr : UInt64) : Option UInt8 :=
  (b.readBus addr 1).map fun bytes => bytes.headD 0

/-- `SimpleAS::write_bus` from a 64-bit variable. What fails leaves the memory alone. -/
def write64 (b : GuestBus) (addr value : UInt64) : GuestBus :=
  if b.writable addr 8 then
    { b with mem := fun a =>
        if (a - addr) < 8 then (value >>> (8 * (a - addr))).toUInt8 else b.mem a }
  else b

end GuestBus

/-! ## LPIs -/

namespace GicD

/-- The LPIs as `GicD::init` sets them up. -/
def initLpis (g : GicD) : GicD :=
  { g with irq := fun id =>
      if lpiBase ≤ id then
        { g.irq id with enable := true, group1 := true, prio := 0xff }.configureHw false 0 true
      else g.irq id }

/-- The entry of an LPI in the configuration table of the guest. -/
def lpiProp (g : GicD) (bus : GuestBus) (pintid : ℕ) : Option UInt8 :=
  bus.read8 ((g.propBaser &&& 0xFFFFFFFFF000) + UInt64.ofNat (pintid - lpiBase))

/-- The LPI is made pending for the target, with the priority of its entry. -/
def raiseLpi (g : GicD) (pintid targetCpu : ℕ) (lpiProp : UInt8) : GicD :=
  let g := g.modifyIrq 0 pintid ({ · with prio := lpiProp &&& 0xFC })
  let target := IrqTarget.ofCpuId targetCpu
  ((g.setInfo 0 pintid (.asserted target)).notifyTarget pintid target).2

/-- `assert_lpi`. -/
def assertLpi (g : GicD) (bus : GuestBus) (pintid targetCpu : ℕ) : Option GicD :=
  if maxIrq ≤ pintid ∨ pintid < lpiBase then none
  else if (g.irqObject 0 pintid).pending then some g
  else if g.propBaser = 0 then none
  else
    match g.lpiProp bus pintid with
    | some prop => if prop &&& 1 = 0 then some g else some (g.raiseLpi pintid targetCpu prop)
    | none => some g

end GicD

/-! ## The ITS -/

/-- `Gits`. -/
structure Gits where
  ctlr : UInt32 := 0x80000000
  baser : Fin 8 → UInt64 := fun i =>
    if i = 0 then (1 : UInt64) <<< 56 ||| (7 : UInt64) <<< 48
    else if i = 1 then (4 : UInt64) <<< 56 ||| (7 : UInt64) <<< 48
    else 0
  cbaser : UInt64 := 0
  cwriter : UInt64 := 0
  creadr : UInt64 := 0

/-- `Gits` as it is constructed. -/
def Gits.init : Gits := {}

/-- An ITS with the distributor it asserts LPIs at, and the memory it reads its tables from. -/
structure ItsSys where
  gic : GicD
  its : Gits
  bus : GuestBus

namespace Gits

/-- `enabled`. -/
def enabled (its : Gits) : Bool := its.ctlr &&& 1 != 0

/-- `ENTRY_SIZE`. -/
def entrySize : UInt64 := 8

/-- Where the entry of a device is. -/
def deviceEntryAddr (its : Gits) (devId : UInt32) : UInt64 :=
  (its.baser 0 &&& 0xFFFFFFFFF000) + devId.toUInt64 * entrySize

/-- Where the entry of an event is. -/
def ittEntryAddr (ittBase : UInt64) (eventId : UInt32) : UInt64 :=
  ittBase + eventId.toUInt64 * entrySize

/-- Where the entry of a collection is. -/
def collectionEntryAddr (its : Gits) (icid : UInt16) : UInt64 :=
  (its.baser 1 &&& 0xFFFFFFFFF000) + icid.toUInt64 * entrySize

/-- `read_device_table`. -/
def readDeviceTable (its : Gits) (bus : GuestBus) (devId : UInt32) : UInt64 :=
  (bus.read64 (its.deviceEntryAddr devId)).getD 0

/-- `read_translation_table`. -/
def readTranslationTable (bus : GuestBus) (ittBase : UInt64) (eventId : UInt32) : UInt64 :=
  (bus.read64 (ittEntryAddr ittBase eventId)).getD 0

/-- `read_collection_table`. -/
def readCollectionTable (its : Gits) (bus : GuestBus) (icid : UInt16) : UInt64 :=
  (bus.read64 (its.collectionEntryAddr icid)).getD (-1)

/-- The collection in an entry of a translation table. -/
def icidOf (entryValue : UInt64) : UInt16 := (entryValue >>> 32).toUInt16

/-- The interrupt in an entry of a translation table. -/
def pintidOf (entryValue : UInt64) : UInt32 := entryValue.toUInt32

/-- An entry of a translation table. -/
def ittEntry (icid : UInt16) (pintid : UInt32) : UInt64 :=
  icid.toUInt64 <<< 32 ||| pintid.toUInt64

/-- What the tables make of an event: the LPI and the vCPU, if it is mapped. -/
def translate (its : Gits) (bus : GuestBus) (eventId devId : UInt32) : Option (ℕ × ℕ) :=
  let deviceTableEntry := its.readDeviceTable bus devId
  if deviceTableEntry = 0 then none
  else
    let entryValue := readTranslationTable bus deviceTableEntry eventId
    if entryValue = 0 then none
    else
      let icEntry := its.readCollectionTable bus (icidOf entryValue)
      if icEntry = -1 then none
      else some ((pintidOf entryValue).toNat, icEntry.toUInt8.toNat)

end Gits

namespace ItsSys

/-- `handle_msi`. -/
def handleMsi (s : ItsSys) (eventId devId : UInt32) : Option ItsSys :=
  match s.its.translate s.bus eventId devId with
  | none => some s
  | some (pintid, targetCpu) => (s.gic.assertLpi s.bus pintid targetCpu).map ({ s with gic := · })

/-- `handle_movi`. -/
def handleMovi (s : ItsSys) (devId eventId : UInt32) (icid : UInt16) : ItsSys :=
  let deviceTableEntry := s.its.readDeviceTable s.bus devId
  if deviceTableEntry = 0 then s
  else
    let entryValue := Gits.readTranslationTable s.bus deviceTableEntry eventId
    if entryValue = 0 then s
    else if s.its.readCollectionTable s.bus (Gits.icidOf entryValue) !=
        s.its.readCollectionTable s.bus icid then
      { s with
        bus := s.bus.write64 (Gits.ittEntryAddr deviceTableEntry eventId)
          (Gits.ittEntry icid (Gits.pintidOf entryValue)) }
    else s

/-- `handle_mapd`. -/
def handleMapd (s : ItsSys) (valid : Bool) (devId : UInt32) (ittAddr : UInt64) (ittSize : UInt8) :
    Option ItsSys :=
  if ittSize ≠ 0 ∨ 0x10000 ≤ devId then none
  else
    some { s with
      bus := s.bus.write64 (s.its.deviceEntryAddr devId) (if valid then ittAddr else 0) }

/-- `handle_mapc`. -/
def handleMapc (s : ItsSys) (valid : Bool) (rdBase : UInt32) (icid : UInt16) : ItsSys :=
  { s with
    bus := s.bus.write64 (s.its.collectionEntryAddr icid)
      (if valid then rdBase.toUInt64 else -1) }

/-- `handle_mapti`. -/
def handleMapti (s : ItsSys) (devId eventId pintid : UInt32) (icid : UInt16) : ItsSys :=
  let deviceTableEntry := s.its.readDeviceTable s.bus devId
  if deviceTableEntry = 0 then s
  else
    { s with
      bus := s.bus.write64 (Gits.ittEntryAddr deviceTableEntry eventId)
        (Gits.ittEntry icid pintid) }

/-- `handle_command`. The commands that are not implemented fail an assertion. -/
def handleCommand (s : ItsSys) (q0 q1 q2 : UInt64) : Option ItsSys :=
  let cmdType := q0 &&& 0xf
  let devId := (q0 >>> 32).toUInt32
  let mapdSize := (q1 &&& 0x1f).toUInt8
  let eventId := q1.toUInt32
  let pintid := (q1 >>> 32).toUInt32
  let icid := q2.toUInt16
  let rdBase := (q2 >>> 16).toUInt32
  let ittAddr := q2 &&& 0xFFFFFFFFFFF00
  let valid := q2 >>> 63 != 0
  if cmdType = 0x01 then some (s.handleMovi devId eventId icid)
  else if cmdType = 0x03 then s.handleMsi eventId devId
  else if cmdType = 0x08 then s.handleMapd valid devId ittAddr mapdSize
  else if cmdType = 0x09 then some (s.handleMapc valid rdBase icid)
  else if cmdType = 0x0a then some (s.handleMapti devId eventId pintid icid)
  else if cmdType = 0x05 ∨ cmdType = 0x0c ∨ cmdType = 0x0d then some s
  else none

end ItsSys

end Vml
