import Vml.GicMmio
import Vml.VirtioMmio

/-!
# Register reads of the GIC

What the guest reads from the registers of the distributor (`GicD::mmio_read`) and of its
redistributor (`GicR::mmio_read`). A read has the caller's buffer for its result, and either fails,
stores a value to the buffer, or succeeds and leaves the buffer as it is.
-/

namespace Vml

/-- What a read does with the buffer of its caller. -/
inductive ReadEffect
  /-- It fails. -/
  | fails
  /-- It stores this value. -/
  | shows (value : UInt64)
  /-- It succeeds, and stores nothing. -/
  | ignored
  deriving DecidableEq, Repr

/-- Whether the read succeeds, and what is in the buffer afterwards. -/
def ReadEffect.run : ReadEffect → UInt64 → Bool × UInt64
  | fails, buffer => (false, buffer)
  | shows value, _ => (true, value)
  | ignored, buffer => (true, buffer)

/-- `edge_encoded`. -/
def Irq.edgeEncoded (irq : Irq) : UInt8 := if irq.swEdge then 2 else 0

namespace GicD

/-! ## The distributor -/

/-- `read_register`. -/
def readRegister (offset baseReg baseMax : UInt64) (bytes : UInt8) (value : UInt64) : ReadEffect :=
  match Reg.read ⟨baseReg, baseMax⟩ offset bytes value with
  | some v => .shows v
  | none => .fails

/-- `read`: a field of every interrupt of the access. -/
def read (g : GicD) (cpu : ℕ) (acc : IrqMmioAccess) (f : Irq → UInt64) : ReadEffect :=
  if acc.isValid then
    .shows (acc.irqs.foldl (fun value p =>
      value ||| f (g.irqObject cpu p.2) <<< UInt64.ofNat (p.1 * acc.bits)) 0)
  else .fails

/-- `get_typer`. -/
def getTyper (g : GicD) : UInt64 :=
  let itl : UInt64 :=
    if g.configuredIrqs = maxIrq then 31 else UInt64.ofNat (g.configuredIrqs / 32) - 1
  let itl := if g.lpiSupported then itl ||| (1 : UInt64) <<< 17 else itl
  itl ||| (UInt64.ofNat (min g.numVcpus 8) - 1) <<< 5 ||| (9 : UInt64) <<< 19 |||
    (1 : UInt64) <<< 24

/-- `read_pending`. -/
def readPending (g : GicD) (cpu : ℕ) (acc : IrqMmioAccess) (baseOffset : UInt64) : ReadEffect :=
  if g.affinityRouting then .shows 0
  else
    g.read cpu { acc with irqPerBytes := 1, irqMax := 16, baseAbs := baseOffset }
      (·.pending.toUInt64)

/-- The registers that identify the distributor, `GICD_PIDR0` to `GICD_PIDR7`. -/
def pidr (g : GicD) (offset : UInt64) : Option UInt64 :=
  if within offset 0xffd0 0xffd3 then some 0x44
  else if within offset 0xffd4 0xffdf || within offset 0xffec 0xffef then some 0
  else if within offset 0xffe0 0xffe3 then some 0x92
  else if within offset 0xffe4 0xffe7 then some 0xb4
  else if within offset 0xffe8 0xffeb then
    some ((if g.version = .gicV3 then 3 else 2) <<< (4 : UInt64) ||| 0xb)
  else none

/-- `mmio_read_32_or_less`. -/
def mmioRead32OrLess (g : GicD) (cpuId : ℕ) (acc : IrqMmioAccess) : ReadEffect :=
  let based (base : UInt64) : IrqMmioAccess := { acc with baseAbs := base }
  let bytewise (base : UInt64) (type : AccessType) : IrqMmioAccess :=
    { acc with baseAbs := base, irqPerBytes := 1 }.configureAccess type
  let icfgr (base : UInt64) (type : AccessType) : IrqMmioAccess :=
    { acc with baseAbs := base, irqPerBytes := 4 }.configureAccess type
  if within acc.offset 0x0 0x3 then readRegister acc.offset 0x0 0x3 acc.bytes g.ctlr.toUInt64
  else if within acc.offset 0x4 0x7 then readRegister acc.offset 0x4 0x7 acc.bytes g.getTyper
  else if within acc.offset 0x8 0xb then readRegister acc.offset 0x8 0xb acc.bytes 0x123
  else if within acc.offset 0x80 0xff then g.read cpuId (based 0x80) (·.group1.toUInt64)
  else if within acc.offset 0x100 0x17f then g.read cpuId (based 0x100) (·.enable.toUInt64)
  else if within acc.offset 0x180 0x1ff then g.read cpuId (based 0x180) (·.enable.toUInt64)
  else if within acc.offset 0x200 0x27f then g.read cpuId (based 0x200) (·.pending.toUInt64)
  else if within acc.offset 0x280 0x2ff then g.read cpuId (based 0x280) (·.pending.toUInt64)
  else if within acc.offset 0x300 0x379 then g.read cpuId (based 0x300) (·.active.toUInt64)
  else if within acc.offset 0x380 0x3ff then g.read cpuId (based 0x380) (·.active.toUInt64)
  else if within acc.offset 0x400 0x7ff then
    g.read cpuId { acc with baseAbs := 0x400, irqPerBytes := 1 } (·.prio.toUInt64)
  else if within acc.offset 0x800 0x81f then
    g.read cpuId (bytewise 0x800 .privateOnly) (·.target.toUInt64)
  else if within acc.offset 0x820 0xbff then g.read cpuId (bytewise 0x820 .spi) (·.target.toUInt64)
  else if within acc.offset 0xc00 0xc03 then
    g.read cpuId (icfgr 0xc00 .sgi) (·.edgeEncoded.toUInt64)
  else if within acc.offset 0xc04 0xc07 then
    g.read cpuId (icfgr 0xc04 .ppi) (·.edgeEncoded.toUInt64)
  else if within acc.offset 0xc08 0xcff then
    g.read cpuId (icfgr 0xc08 .spi) (·.edgeEncoded.toUInt64)
  else
    match g.pidr acc.offset with
    | some value => .shows value
    | none =>
        if within acc.offset 0xf10 0xf1f then g.readPending cpuId acc 0xf10
        else if within acc.offset 0xf20 0xf2f then g.readPending cpuId acc 0xf20
        else .shows 0

/-- The read of `GICD_IROUTER`. -/
def readIrouter (g : GicD) (cpu : ℕ) (offset : UInt64) (bytes : UInt8) : UInt64 :=
  let irqId := spiBase + ((offset - 0x6100) / 8).toNat
  if bytes != 8 || offset % 8 != 0 then 0
  else if irqId < spiBase ∨ g.configuredIrqs ≤ irqId then 0
  else if !g.affinityRouting then 0
  else (g.irqObject cpu irqId).routing

/-- `GicD::mmio_read`. -/
def mmioRead (g : GicD) (cpuId : ℕ) (offset : UInt64) (bytes : UInt8) : ReadEffect :=
  if 0x10000 ≤ offset ∨ 8 < bytes ∨ g.numVcpus ≤ cpuId then .fails
  else if within offset 0x6100 0x7fdf then .shows (g.readIrouter cpuId offset bytes)
  else if within offset 0x8000 0x9fff then .shows 0
  else if 4 < bytes then .fails
  else g.mmioRead32OrLess cpuId (g.irqMmioAccess offset bytes .all)

/-! ## The redistributor of a vCPU -/

/-- What `GICR_TYPER` shows, for the affinity of the vCPU, and whether it is the last. -/
def gicRTyper (g : GicD) (aff : UInt32) (last : Bool) : UInt64 :=
  let field (i : UInt32) : UInt64 := (aff >>> (8 * i) &&& 0xff).toUInt64
  let ret := field 3 <<< 56 ||| field 2 <<< 48 ||| field 1 <<< 40 ||| field 0 <<< 32
  let ret := ret ||| (field 1 <<< 16 ||| field 0 <<< 8)
  let ret := ret ||| last.toUInt64 <<< 4
  if g.lpiSupported then ret ||| 1 else ret

/-- `GicR::mmio_read`, of the redistributor of `cpu`. -/
def gicRMmioRead (g : GicD) (cpu : ℕ) (aff : UInt32) (last : Bool) (offset : UInt64)
    (bytes : UInt8) : ReadEffect :=
  let acc := g.irqMmioAccess offset bytes .privateOnly
  let based (base : UInt64) : IrqMmioAccess := { acc with baseAbs := base }
  let icfgr (base : UInt64) (type : AccessType) : IrqMmioAccess :=
    { acc.configureAccess type with baseAbs := base, irqPerBytes := 4 }
  let gicR := (g.bank cpu).gicR
  if 0x20000 ≤ offset then .fails
  else if within offset 0x8 0xf then readRegister offset 0x8 0xf bytes (g.gicRTyper aff last)
  else if within offset 0x14 0x17 then readRegister offset 0x14 0x17 bytes gicR.waker.toUInt64
  else if within offset 0x0 0x3 then
    readRegister offset 0x0 0x3 bytes (if g.lpiSupported then gicR.ctlr.toUInt64 else 0)
  else if within offset 0x4 0x7 then readRegister offset 0x4 0x7 bytes 0x43b
  else if within offset 0xffe8 0xffeb then
    readRegister offset 0xffe8 0xffeb bytes ((3 : UInt64) <<< 4)
  else if within offset 0x70 0x77 then .shows g.propBaser
  else if within offset 0x78 0x7f then .shows g.pendBaser
  else if within offset 0x10d00 0x10d03 || within offset 0x10e00 0x10e03 then .shows 0
  else if within offset 0x10100 0x10103 then g.read cpu (based 0x10100) (·.enable.toUInt64)
  else if within offset 0x10180 0x10183 then g.read cpu (based 0x10180) (·.enable.toUInt64)
  else if within offset 0x10300 0x10303 then g.read cpu (based 0x10300) (·.active.toUInt64)
  else if within offset 0x10380 0x10383 then g.read cpu (based 0x10380) (·.active.toUInt64)
  else if within offset 0x10200 0x10203 then g.read cpu (based 0x10200) (·.pending.toUInt64)
  else if within offset 0x10280 0x10283 then g.read cpu (based 0x10280) (·.pending.toUInt64)
  else if within offset 0x10080 0x10083 then g.read cpu (based 0x10080) (·.group1.toUInt64)
  else if within offset 0x10c00 0x10c03 then
    g.read cpu (icfgr 0x10c00 .sgi) (·.edgeEncoded.toUInt64)
  else if within offset 0x10c04 0x10c07 then
    g.read cpu (icfgr 0x10c04 .ppi) (·.edgeEncoded.toUInt64)
  else if within offset 0x10400 0x1041f then
    g.read cpu { acc with baseAbs := 0x10400, irqPerBytes := 1 } (·.prio.toUInt64)
  else .ignored

end GicD

end Vml
