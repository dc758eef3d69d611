import Vml.GicD

/-!
# Register writes to the GIC

What the guest does to the GIC by writing registers: those of the distributor (`GicD::mmio_write`),
those of its redistributor (`GicR::mmio_write`), and the system register that generates SGIs
(`icc_sgi1r_el1`).

Most registers hold a few bits of every interrupt. An access to one of them is an `IrqMmioAccess`,
which says which interrupts its bytes belong to.
-/

namespace Vml

/-! ## Accesses -/

/-- `IrqMmioAccess`. -/
structure IrqMmioAccess where
  baseAbs : UInt64 := 0
  irqBase : UInt16 := 0
  irqMax : UInt16
  offset : UInt64
  bytes : UInt8
  irqPerBytes : UInt8 := 8
  configuredIrqs : UInt16
  deriving Repr

/-- `AccessType`. -/
inductive AccessType
  | sgi
  | ppi
  | privateOnly
  | spi
  | all
  deriving DecidableEq, Repr

namespace IrqMmioAccess

/-- `first_irq_accessed`. -/
def firstIrqAccessed (acc : IrqMmioAccess) : UInt16 :=
  ((acc.offset - acc.baseAbs) * acc.irqPerBytes.toUInt64 + acc.irqBase.toUInt64).toUInt16

/-- `num_irqs`. -/
def numIrqs (acc : IrqMmioAccess) : UInt16 :=
  if acc.irqMax ≤ acc.firstIrqAccessed then 0
  else
    let n := acc.bytes.toUInt16 * acc.irqPerBytes.toUInt16
    let abs := acc.firstIrqAccessed + n
    let overflow := if acc.irqMax < abs then abs - acc.irqMax else 0
    n - overflow

/-- `is_valid`. -/
def isValid (acc : IrqMmioAccess) : Bool :=
  let first : ℤ := acc.firstIrqAccessed.toNat
  let num : ℤ := acc.numIrqs.toNat
  let max : ℤ := maxSpi + maxPpi + maxSgi
  decide (first - acc.irqBase.toNat + num ≤ max ∧ first + num ≤ max)

/-- `configure_access`. -/
def configureAccess (acc : IrqMmioAccess) : AccessType → IrqMmioAccess
  | .all => { acc with irqBase := 0, irqMax := acc.configuredIrqs }
  | .sgi => { acc with irqBase := 0, irqMax := 16 }
  | .ppi => { acc with irqBase := 16, irqMax := 32 }
  | .spi => { acc with irqBase := 32, irqMax := 32 + acc.configuredIrqs - 16 - 16 }
  | .privateOnly => { acc with irqBase := 0, irqMax := 32 }

/-- The interrupts the access is to. -/
def irqs (acc : IrqMmioAccess) : List (ℕ × ℕ) :=
  if acc.isValid then
    (List.range acc.numIrqs.toNat).map fun i => (i, acc.firstIrqAccessed.toNat + i)
  else []

/-- `irq_per_bytes_to_bits`. -/
def bits (acc : IrqMmioAccess) : ℕ :=
  if acc.irqPerBytes = 8 then 1 else if acc.irqPerBytes = 4 then 2 else 8

/-- What an access brings for the `i`-th of its interrupts, masked by `irq_per_bytes_to_mask`. -/
def field (acc : IrqMmioAccess) (value : UInt64) (i : ℕ) : UInt8 :=
  (value >>> UInt64.ofNat (i * acc.bits) &&& (1 <<< UInt64.ofNat acc.bits - 1)).toUInt8

end IrqMmioAccess

namespace GicD

/-- `write_register` to a 32-bit register at `baseReg`, with `none` for failure. -/
def writeRegister (offset baseReg baseMax : UInt64) (bytes : UInt8) (value : UInt64)
    (result fixedClear fixedSet : UInt32) : Option UInt32 :=
  if bytes = 0 ∨ 4 < bytes ∨ baseMax + 1 < offset + bytes.toUInt64 then none
  else
    let shift := ((offset - baseReg) * 8).toUInt32
    let mask : UInt32 := if 4 ≤ bytes then 0xFFFFFFFF else (1 <<< (bytes.toUInt32 * 8)) - 1
    let kept := if 4 ≤ bytes then 0 else result &&& ~~~(mask <<< shift)
    some ((kept ||| (value.toUInt32 &&& mask) <<< shift) &&& ~~~fixedClear ||| fixedSet)

/-! ## Writes that go to every interrupt of an access -/

/-- `write`: store to a field of every interrupt. -/
def write (g : GicD) (cpu : ℕ) (acc : IrqMmioAccess) (value : UInt64) (f : UInt8 → Irq → Irq) :
    Bool × GicD :=
  (acc.isValid, acc.irqs.foldl (fun g p => g.modifyIrq cpu p.2 (f (acc.field value p.1))) g)

/-- `change_target`. -/
def changeTarget (g : GicD) (cpu : ℕ) (acc : IrqMmioAccess) (value : UInt64) : Bool × GicD :=
  (acc.isValid, acc.irqs.foldl (fun g p =>
    let g := g.modifyIrq cpu p.2 ({ · with target := acc.field value p.1 })
    if (g.irqObject cpu p.2).pending then
      (g.bumpHint.redirectSpi p.2 g.bumpHint.vcpuGlobalHint.toNat).2
    else g) g)

/-- `mmio_assert`. -/
def mmioAssert (g : GicD) (acc : IrqMmioAccess) (value : UInt64) (f : GicD → ℕ → GicD) :
    Bool × GicD :=
  (acc.isValid, acc.irqs.foldl (fun g p =>
    if value >>> UInt64.ofNat p.1 &&& 1 != 0 then f g p.2 else g) g)

/-- `mmio_assert_sgi`. -/
def mmioAssertSgi (g : GicD) (acc : IrqMmioAccess) (value : UInt64) (f : GicD → ℕ → ℕ → GicD) :
    Bool × GicD :=
  (acc.isValid, acc.irqs.foldl (fun g p =>
    let senderBitfield := (value >>> UInt64.ofNat (p.1 * gicv2MaxCpus)).toUInt8
    (List.range gicv2MaxCpus).foldl (fun g j =>
      if senderBitfield >>> UInt8.ofNat j &&& 1 != 0 then f g j p.2 else g) g) g)

/-! ## The distributor -/

/-- `write_ctlr`. -/
def writeCtlr (g : GicD) (offset : UInt64) (bytes : UInt8) (value : UInt64) : Bool × GicD :=
  let enforceZero : UInt32 := if g.version = .gicV3 then ~~~(16 ||| 1 ||| 2) else ~~~(1 ||| 2)
  match writeRegister offset 0 3 bytes value g.ctlr enforceZero 64 with
  | some v => (true, { g with ctlr := v })
  | none => (false, g)

/-- `write_irouter`. -/
def writeIrouter (g : GicD) (cpu : ℕ) (offset : UInt64) (bytes : UInt8) (value : UInt64) : GicD :=
  let irqId := spiBase + ((offset - 0x6100) / 8).toNat
  if !g.affinityRouting then g
  else if bytes != 8 || offset % 8 != 0 then g
  else if irqId < spiBase ∨ g.configuredIrqs ≤ irqId then g
  else
    let g := g.modifyIrq cpu irqId ({ · with routing := value })
    if (g.irqObject cpu irqId).pending then
      (g.bumpHint.redirectSpi irqId g.bumpHint.vcpuGlobalHint.toNat).2
    else g

/-- `write_sgir`. -/
def writeSgir (g : GicD) (cpuId : ℕ) (value : UInt64) : GicD :=
  let sgi := (value &&& 0xf).toNat
  let targets := (value >>> 16 &&& 0xff).toUInt8
  let filter := value >>> 24 &&& 3
  let send := fun (g : GicD) tcpu => g.sendSgi cpuId tcpu sgi
  if filter = 0 then
    (List.range gicv2MaxCpus).foldl (fun g tcpu =>
      if targets &&& 1 <<< UInt8.ofNat tcpu != 0 then send g tcpu else g) g
  else if filter = 1 then
    (List.range gicv2MaxCpus).foldl (fun g tcpu => if tcpu = cpuId then g else send g tcpu) g
  else if filter = 2 then send g cpuId
  else g

/-- The offset lies between the two. -/
def within (offset first last : UInt64) : Bool := decide (first ≤ offset ∧ offset ≤ last)

/-- A value for the first word of ISPENDR or ICPENDR is stripped of its SGIs. -/
def stripSgis (offset first value : UInt64) : UInt64 :=
  if offset = first then value &&& ~~~0xffff else value

/-- `mmio_write_32_or_less`. -/
def mmioWrite32OrLess (g : GicD) (cpuId : ℕ) (acc : IrqMmioAccess) (value : UInt64) :
    Bool × GicD :=
  let based (base : UInt64) : IrqMmioAccess := { acc with baseAbs := base }
  let bytewise (base : UInt64) (type : AccessType) : IrqMmioAccess :=
    { acc with baseAbs := base, irqPerBytes := 1 }.configureAccess type
  if within acc.offset 0x0 0x3 then g.writeCtlr acc.offset acc.bytes value
  else if within acc.offset 0x80 0xff then
    g.write cpuId (based 0x80) value fun v irq => { irq with group1 := v != 0 }
  else if within acc.offset 0x100 0x17f then
    g.write cpuId (based 0x100) value
      fun v irq => if v != 0 then { irq with enable := true } else irq
  else if within acc.offset 0x180 0x1ff then
    g.write cpuId (based 0x180) value
      fun v irq => if v != 0 then { irq with enable := false } else irq
  else if within acc.offset 0x200 0x27f then
    g.mmioAssert (based 0x200) (stripSgis acc.offset 0x200 value)
      fun g id => (g.assertPiSw cpuId cpuId id).2
  else if within acc.offset 0x280 0x2ff then
    g.mmioAssert (based 0x280) (stripSgis acc.offset 0x280 value)
      fun g id => (g.deassertPiSw cpuId id).2
  else if within acc.offset 0x300 0x379 then
    g.write cpuId (based 0x300) value
      fun v irq => if v != 0 then { irq with active := true } else irq
  else if within acc.offset 0x380 0x3ff then
    g.write cpuId (based 0x380) value
      fun v irq => if v != 0 then { irq with active := false } else irq
  else if within acc.offset 0x400 0x7ff then
    g.write cpuId { acc with baseAbs := 0x400, irqPerBytes := 1 } value
      fun v irq => { irq with prio := v }
  else if within acc.offset 0x820 0xbff then g.changeTarget cpuId (bytewise 0x820 .spi) value
  else if within acc.offset 0xc04 0xc07 then
    g.write cpuId ({ acc with baseAbs := 0xc04, irqPerBytes := 4 }.configureAccess .ppi) value
      fun v irq => irq.setEncodedEdge v
  else if within acc.offset 0xc08 0xcff then
    g.write cpuId ({ acc with baseAbs := 0xc08, irqPerBytes := 4 }.configureAccess .spi) value
      fun v irq => irq.setEncodedEdge v
  else if within acc.offset 0xf00 0xf03 then (true, g.writeSgir cpuId value)
  else if within acc.offset 0xf10 0xf1f then
    if g.affinityRouting then (true, g)
    else
      g.mmioAssertSgi (bytewise 0xf10 .sgi) value fun g _ id => (g.deassertSgi cpuId cpuId id).2
  else if within acc.offset 0xf20 0xf2f then
    if g.affinityRouting then (true, g)
    else
      g.mmioAssertSgi (bytewise 0xf20 .sgi) value fun g j id => (g.assertSgi cpuId j cpuId id).2
  else (true, g)

/-- The access that `mmio_write` starts from. -/
def irqMmioAccess (g : GicD) (offset : UInt64) (bytes : UInt8) (type : AccessType) :
    IrqMmioAccess :=
  let acc : IrqMmioAccess :=
    { irqMax := 1024, offset, bytes, configuredIrqs := UInt16.ofNat g.configuredIrqs }
  acc.configureAccess type

/-- `GicD::mmio_write`. -/
def mmioWrite (g : GicD) (cpuId : ℕ) (offset : UInt64) (bytes : UInt8) (value : UInt64) :
    Bool × GicD :=
  if 0x10000 ≤ offset ∨ 8 < bytes ∨ g.numVcpus ≤ cpuId then (false, g)
  else if within offset 0x6100 0x7fdf then (true, g.writeIrouter cpuId offset bytes value)
  else if within offset 0x8000 0x9fff then (true, g)
  else if 4 < bytes then (false, g)
  else g.mmioWrite32OrLess cpuId (g.irqMmioAccess offset bytes .all) value

/-! ## The redistributor of a vCPU -/

/-- Change the redistributor of a vCPU. -/
def modifyGicR (g : GicD) (cpu : ℕ) (f : GicR → GicR) : GicD :=
  g.modifyBank cpu fun b => { b with gicR := f b.gicR }

/-- The write to GICR_WAKER. The source shifts by the masks of the two bits. -/
def writeWaker (g : GicD) (cpu : ℕ) (offset : UInt64) (bytes : UInt8) (value : UInt64) :
    Bool × GicD :=
  let sleeping := GicR.sleeping value.toUInt32
  let newW : UInt64 := sleeping.toUInt64 <<< 4 ||| sleeping.toUInt64 <<< 2
  let waker := (g.bank cpu).gicR.waker
  let r : Bool × GicD := match writeRegister offset 0x14 0x17 bytes newW waker (~~~(2 ||| 4)) 0 with
    | some v => (true, g.modifyGicR cpu ({ · with waker := v }))
    | none => (false, g)
  if sleeping then (r.1, (r.2.highestIrq cpu true).2) else r

/-- `GicR::mmio_write`, of the redistributor of `cpu`. -/
def gicRMmioWrite (g : GicD) (cpu : ℕ) (offset : UInt64) (bytes : UInt8) (value : UInt64) :
    Bool × GicD :=
  let acc := g.irqMmioAccess offset bytes .privateOnly
  let based (base : UInt64) : IrqMmioAccess := { acc with baseAbs := base }
  let gicR := (g.bank cpu).gicR
  if 0x20000 ≤ offset then (false, g)
  else if within offset 0x0 0x3 then
    (true, g.modifyGicR cpu ({ · with
      ctlr := if g.lpiSupported then 2 ||| value.toUInt32 &&& 1 else 0 }))
  else if within offset 0x70 0x77 then
    (true, if gicR.ctlr &&& 1 = 0 then { g with propBaser := value } else g)
  else if within offset 0x78 0x7f then
    (true, if gicR.ctlr &&& 1 = 0 then { g with pendBaser := value } else g)
  else if within offset 0x14 0x17 then g.writeWaker cpu offset bytes value
  else if within offset 0x10080 0x10083 then
    g.write cpu (based 0x10080) value fun v irq => { irq with group1 := v != 0 }
  else if within offset 0x10100 0x10103 then
    g.write cpu (based 0x10100) value
      fun v irq => if v != 0 then { irq with enable := true } else irq
  else if within offset 0x10180 0x10183 then
    g.write cpu (based 0x10180) value
      fun v irq => if v != 0 then { irq with enable := false } else irq
  else if within offset 0x10300 0x10303 then
    g.write cpu (based 0x10300) value
      fun v irq => if v != 0 then { irq with active := true } else irq
  else if within offset 0x10380 0x10383 then
    g.write cpu (based 0x10380) value
      fun v irq => if v != 0 then { irq with active := false } else irq
  else if within offset 0x10400 0x1041f then
    g.write cpu { acc with baseAbs := 0x10400, irqPerBytes := 1 } value
      fun v irq => { irq with prio := v }
  else if within offset 0x10200 0x10203 then
    if !g.affinityRouting then (false, g)
    else g.mmioAssert (based 0x10200) value fun g id => (g.assertPiSw cpu cpu id).2
  else if within offset 0x10280 0x10283 then
    if !g.affinityRouting then (false, g)
    else g.mmioAssert (based 0x10280) value fun g id => (g.deassertPiSw cpu id).2
  else if within offset 0x10c00 0x10c03 then
    g.write cpu { acc.configureAccess .sgi with baseAbs := 0x10c00, irqPerBytes := 4 } value
      fun v irq => irq.setEncodedEdge v
  else if within offset 0x10c04 0x10c07 then
    g.write cpu { acc.configureAccess .ppi with baseAbs := 0x10c04, irqPerBytes := 4 } value
      fun v irq => irq.setEncodedEdge v
  else (true, g)

/-! ## The system register -/

/-- `icc_sgi1r_el1`. -/
def iccSgi1rEl1 (g : GicD) (value : UInt64) (self : ℕ) : GicD :=
  let targets := (value &&& 0xffff).toUInt16
  let intid := (value >>> 24 &&& 0xf).toNat
  let irm := value >>> 40 &&& 1
  let clusterAffinity : UInt32 := (((value >>> 16 &&& 0xff) <<< 8) |||
    ((value >>> 32 &&& 0xff) <<< 16) ||| ((value >>> 48 &&& 0xff) <<< 24)).toUInt32
  if irm != 0 then
    (List.range g.numVcpus).foldl (fun g tcpu =>
      if tcpu = self then g else g.sendSgi self tcpu intid) g
  else
    match g.clusters clusterAffinity with
    | none => g
    | some vcpuId =>
        (List.range 16).foldl (fun g tcpu =>
          if targets &&& 1 <<< UInt16.ofNat tcpu != 0 then
            match vcpuId tcpu with
            | none => g
            | some vid => g.sendSgi self vid intid
          else g) g

end GicD

end Vml
