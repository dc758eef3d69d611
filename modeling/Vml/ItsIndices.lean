import Vml.GicIndices
import Vml.GitsQueue
import Vml.LpiDelivery

/-!
# The indices that the tables of the guest lead to

An MSI or an INT command takes the number of an LPI and that of a vCPU from tables in the memory of
the guest (`gits.cpp`), and `assert_lpi` uses them as indices of `_lpi` and `_local`. The list of
the MSIs that a run handles stands beside the run, each with the state that it is handled in.

**LPIs.** `assert_lpi` asserts that the number is in range before it uses it. **vCPUs.** The low byte
of the entry of the collection is used as it is.

Main result: `ItsSys.indices_inBounds_iff`.
-/

namespace Vml

/-- An index of an array of the distributor. -/
inductive GicIndex
  /-- Of `_lpi`. -/
  | lpi (i : ℕ)
  /-- Of `_local`. -/
  | vcpu (c : ℕ)
  deriving DecidableEq

/-- The index is below the size of the array. -/
def GicIndex.InBounds (numVcpus : ℕ) : GicIndex → Prop
  | lpi i => i < maxIrq - lpiBase
  | vcpu c => c < numVcpus

/-- `assert_lpi`: the indices that it uses. -/
def GicD.assertLpiIndices (g : GicD) (bus : GuestBus) (pintid targetCpu : ℕ) : List GicIndex :=
  if maxIrq ≤ pintid ∨ pintid < lpiBase then []
  else .lpi (pintid - lpiBase) ::
    if (g.irqObject 0 pintid).pending then []
    else if g.propBaser = 0 then []
    else
      match g.lpiProp bus pintid with
      | some prop => if prop &&& 1 = 0 then [] else (g.notified (.ofCpuId targetCpu)).map .vcpu
      | none => []

/-! ## Registers -/

namespace Gits

/-- `BASER_RO_MASK`. -/
def baserRoMask : UInt64 := (7 : UInt64) <<< 56 ||| (0x1F : UInt64) <<< 48

/-- `write_ctlr`. -/
def writeCtlr (its : Gits) (offset : UInt64) (bytes : UInt8) (value : UInt64) : Option Gits :=
  if offset ≠ 0 ∨ bytes ≠ 4 then none
  else if value &&& 1 ≠ 0 ∧ its.enabled = false then some { its with ctlr := 1 }
  else some its

/-- `write_baser`. -/
def writeBaser (its : Gits) (index : ℕ) (value : UInt64) : Gits :=
  { its with baser := fun i =>
      if i.val = index then (value &&& ~~~baserRoMask) ||| (its.baser i &&& baserRoMask)
      else its.baser i }

end Gits

namespace ItsSys

/-- `Gits::mmio_write`. -/
def mmioWrite (s : ItsSys) (offset : UInt64) (bytes : UInt8) (value : UInt64) : Option ItsSys :=
  if GicD.within offset 0x0 0x3 then
    (s.its.writeCtlr offset bytes value).map ({ s with its := · })
  else if GicD.within offset 0x80 0x87 then if bytes ≠ 8 then none else some (s.writeCbaser value)
  else if GicD.within offset 0x88 0x8F then (s.writeCwriter value).2
  else if GicD.within offset 0x100 0x13f then
    if bytes ≠ 8 then none
    else some { s with its := s.its.writeBaser ((offset - 0x100) / 8).toNat value }
  else none

end ItsSys

/-- What happens to an ITS. -/
inductive ItsAct
  /-- A register is written. -/
  | write (offset : UInt64) (bytes : UInt8) (value : UInt64)
  /-- A device sends an MSI. -/
  | msi (eventId devId : UInt32)
  /-- The guest writes to its memory. -/
  | guest (mem : UInt64 → UInt8)

/-- An event with the state that it is handled in. -/
structure HandledMsi where
  sys : ItsSys
  eventId : UInt32
  devId : UInt32

/-- `handle_msi`: the indices that it uses. -/
def HandledMsi.indices (m : HandledMsi) : List GicIndex :=
  match m.sys.its.translate m.sys.bus m.eventId m.devId with
  | none => []
  | some (pintid, targetCpu) => m.sys.gic.assertLpiIndices m.sys.bus pintid targetCpu

/-- **The condition**: the vCPU of the collection exists, if the LPI is in range, idle and enabled
in the configuration table. -/
def HandledMsi.TargetExists (m : HandledMsi) : Prop :=
  ∀ pintid targetCpu prop, m.sys.its.translate m.sys.bus m.eventId m.devId = some (pintid, targetCpu) →
    lpiBase ≤ pintid ∧ pintid < maxIrq → (m.sys.gic.irqObject 0 pintid).pending = false →
    m.sys.gic.propBaser ≠ 0 → m.sys.gic.lpiProp m.sys.bus pintid = some prop → prop &&& 1 ≠ 0 →
    targetCpu < m.sys.gic.numVcpus

namespace ItsSys

/-! ## What a run handles -/

/-- `handle_command`. -/
def handleCommandMsis (s : ItsSys) (q0 q1 : UInt64) : List HandledMsi :=
  if q0 &&& 0xf = 0x03 then [⟨s, q1.toUInt32, (q0 >>> 32).toUInt32⟩] else []

/-- The loop of `fetch_commands`. -/
def fetchLoopMsis (cbaserSize : UInt64) : ℕ → ItsSys → List HandledMsi
  | 0, _ => []
  | maxIterations + 1, s =>
    if s.its.cwriter = s.its.creadr then []
    else
      match s.bus.readCommand (s.its.queueBase + s.its.creadr) with
      | none => []
      | some (q0, q1, q2, _) =>
        s.handleCommandMsis q0 q1 ++
          match s.handleCommand q0 q1 q2 with
          | none => []
          | some t =>
            fetchLoopMsis cbaserSize maxIterations
              (t.atCommand (nextCommand cbaserSize t.its.creadr))

/-- `fetch_commands`. -/
def fetchCommandsMsis (s : ItsSys) : List HandledMsi :=
  if s.its.cbaser >>> 63 = 0 then []
  else fetchLoopMsis s.its.cbaserSize (s.its.cbaserSize / Gits.commandSize).toNat s

/-- `mmio_write`. Only that of CWRITER fetches commands. -/
def mmioWriteMsis (s : ItsSys) (offset value : UInt64) : List HandledMsi :=
  if GicD.within offset 0x0 0x3 then []
  else if GicD.within offset 0x80 0x87 then []
  else if GicD.within offset 0x88 0x8F then
    if value &&& 1 ≠ 0 then []
    else
      let s := s.withCwriter (value &&& 0xFFFE0)
      if s.its.enabled then s.fetchCommandsMsis else []
  else []

/-- One step of a run. It has no result if it fails an assertion. -/
def act (s : ItsSys) : ItsAct → Option ItsSys
  | .write offset bytes value => s.mmioWrite offset bytes value
  | .msi eventId devId => s.handleMsi eventId devId
  | .guest mem => some { s with bus := { s.bus with mem := mem } }

/-- What it handles. -/
def actMsis (s : ItsSys) : ItsAct → List HandledMsi
  | .write offset _ value => s.mmioWriteMsis offset value
  | .msi eventId devId => [⟨s, eventId, devId⟩]
  | .guest _ => []

/-- What a run handles, up to an assertion that fails. -/
def runMsis : ItsSys → List ItsAct → List HandledMsi
  | _, [] => []
  | s, a :: as =>
      s.actMsis a ++
        match s.act a with
        | none => []
        | some t => runMsis t as

/-- The indices that a run uses. -/
def runIndices (s : ItsSys) (acts : List ItsAct) : List GicIndex :=
  (s.runMsis acts).flatMap HandledMsi.indices

end ItsSys

/-! ## One MSI -/

theorem Gits.translate_lt {its : Gits} {bus : GuestBus} {eventId devId : UInt32}
    {pintid targetCpu : ℕ} (h : its.translate bus eventId devId = some (pintid, targetCpu)) :
    targetCpu < 256 := by
  rw [Gits.translate] at h
  dsimp only at h
  split_ifs at h
  cases h
  exact UInt8.toNat_lt _

/-- **An MSI** uses indices in bounds exactly if the vCPU exists. -/
theorem HandledMsi.indices_iff (m : HandledMsi) :
    (∀ i ∈ m.indices, i.InBounds m.sys.gic.numVcpus) ↔ m.TargetExists := by
  rw [HandledMsi.indices, HandledMsi.TargetExists]
  cases htranslate : m.sys.its.translate m.sys.bus m.eventId m.devId with
  | none =>
      refine iff_of_true (by simp) ?_
      intro pintid targetCpu prop h
      cases h
  | some found =>
      obtain ⟨pintid, targetCpu⟩ := found
      have hnotified : m.sys.gic.notified (.ofCpuId targetCpu) = [targetCpu] := by
        have hbyte := Gits.translate_lt htranslate
        rw [GicD.notified_ofCpuId, Nat.mod_eq_of_lt (by omega)]
      dsimp only
      rw [GicD.assertLpiIndices]
      by_cases hrange : maxIrq ≤ pintid ∨ pintid < lpiBase
      · rw [if_pos hrange]
        refine iff_of_true (by simp) ?_
        rintro _ _ _ ⟨⟩ hin
        omega
      have hlpi : (GicIndex.lpi (pintid - lpiBase)).InBounds m.sys.gic.numVcpus := by
        show pintid - lpiBase < maxIrq - lpiBase
        omega
      rw [if_neg hrange, List.forall_mem_cons, and_iff_right hlpi]
      split_ifs with hpending hconfigured
      · refine iff_of_true (by simp) ?_
        rintro _ _ _ ⟨⟩ - hidle
        rw [hpending] at hidle
        cases hidle
      · refine iff_of_true (by simp) ?_
        rintro _ _ _ ⟨⟩ - - hset
        exact absurd hconfigured hset
      · cases hprop : m.sys.gic.lpiProp m.sys.bus pintid with
        | none =>
            refine iff_of_true (by simp) ?_
            rintro _ _ _ ⟨⟩ - - - hread
            rw [hprop] at hread
            cases hread
        | some prop =>
            dsimp only
            split_ifs with hdisabled
            · refine iff_of_true (by simp) ?_
              rintro _ _ _ ⟨⟩ - - - hread henabled
              rw [hprop] at hread
              cases hread
              exact absurd hdisabled henabled
            · rw [hnotified, List.map_singleton, List.forall_mem_singleton]
              constructor
              · rintro hlt _ _ _ ⟨⟩ - - - - -
                exact hlt
              · intro hexists
                have hidle : (m.sys.gic.irqObject 0 pintid).pending = false :=
                  Bool.eq_false_iff.2 hpending
                exact hexists _ _ prop rfl ⟨by omega, by omega⟩ hidle hconfigured hprop hdisabled

/-! ## The vCPUs stay as many as they are -/

theorem GicD.numVcpus_assertLpi {g g' : GicD} {bus : GuestBus} {pintid targetCpu : ℕ}
    (h : g.assertLpi bus pintid targetCpu = some g') : g'.numVcpus = g.numVcpus := by
  rw [assertLpi] at h
  split_ifs at h
  · cases h
    rfl
  · split at h
    · split_ifs at h
      · cases h
        rfl
      · cases h
        rw [raiseLpi]
        exact (announced_notifyTarget ..).numVcpus.trans
          ((setInfo_numVcpus ..).trans (modifyIrq_numVcpus ..))
    · cases h
      rfl

namespace ItsSys

variable {s t : ItsSys}

theorem numVcpus_handleMsi {eventId devId : UInt32} (h : s.handleMsi eventId devId = some t) :
    t.gic.numVcpus = s.gic.numVcpus := by
  rw [handleMsi] at h
  split at h
  · cases h
    rfl
  · obtain ⟨g, hg, rfl⟩ := Option.map_eq_some_iff.1 h
    exact GicD.numVcpus_assertLpi hg

/-- No other command has to do with the distributor. -/
theorem numVcpus_handleCommand {q0 q1 q2 : UInt64} (h : s.handleCommand q0 q1 q2 = some t) :
    t.gic.numVcpus = s.gic.numVcpus := by
  unfold handleCommand at h
  dsimp only at h
  split_ifs at h
  · cases h
    unfold handleMovi
    dsimp only
    split_ifs <;> rfl
  · exact numVcpus_handleMsi h
  · unfold handleMapd at h
    split_ifs at h
    · cases h
      rfl
    · cases h
      rfl
  · cases h
    rfl
  · cases h
    unfold handleMapti
    dsimp only
    split_ifs <;> rfl
  · cases h
    rfl

theorem numVcpus_fetchLoop {cbaserSize : UInt64} {n : ℕ}
    (h : (fetchLoop cbaserSize n s).2 = some t) : t.gic.numVcpus = s.gic.numVcpus := by
  induction n generalizing s with
  | zero =>
      cases h
      rfl
  | succ n ih =>
      rw [fetchLoop] at h
      split_ifs at h
      · cases h
        rfl
      · split at h
        · cases h
          rfl
        · split at h
          · cases h
          · rename_i u hcommand
            have hnum := numVcpus_handleCommand hcommand
            exact (ih h).trans hnum

theorem numVcpus_fetchLoopMsis {cbaserSize : UInt64} {n : ℕ} {m : HandledMsi}
    (hm : m ∈ fetchLoopMsis cbaserSize n s) : m.sys.gic.numVcpus = s.gic.numVcpus := by
  induction n generalizing s with
  | zero => cases hm
  | succ n ih =>
      rw [fetchLoopMsis] at hm
      split_ifs at hm
      · cases hm
      · split at hm
        · cases hm
        · rename_i q0 q1 q2 _ _
          obtain hhead | htail := List.mem_append.1 hm
          · rw [handleCommandMsis] at hhead
            split_ifs at hhead
            · rw [List.mem_singleton.1 hhead]
            · cases hhead
          · split at htail
            · cases htail
            · rename_i u hcommand
              have hnum := numVcpus_handleCommand hcommand
              exact (ih htail).trans hnum

theorem numVcpus_writeCwriter {value : UInt64} (h : (s.writeCwriter value).2 = some t) :
    t.gic.numVcpus = s.gic.numVcpus := by
  rw [writeCwriter] at h
  dsimp only at h
  split_ifs at h
  · rw [fetchCommands] at h
    split_ifs at h
    · cases h
      rfl
    · have hnum := numVcpus_fetchLoop h
      exact hnum
  · cases h
    rfl

/-- **A step** leaves the number of vCPUs as it is. -/
theorem numVcpus_act {a : ItsAct} (h : s.act a = some t) : t.gic.numVcpus = s.gic.numVcpus := by
  cases a with
  | guest mem =>
      cases h
      rfl
  | msi eventId devId => exact numVcpus_handleMsi h
  | write offset bytes value =>
      rw [act, mmioWrite] at h
      split_ifs at h
      · obtain ⟨its, -, rfl⟩ := Option.map_eq_some_iff.1 h
        rfl
      · cases h
        rfl
      · exact numVcpus_writeCwriter h
      · cases h
        rfl

theorem numVcpus_actMsis {a : ItsAct} {m : HandledMsi} (hm : m ∈ s.actMsis a) :
    m.sys.gic.numVcpus = s.gic.numVcpus := by
  cases a with
  | guest mem => cases hm
  | msi eventId devId => rw [List.mem_singleton.1 hm]
  | write offset bytes value =>
      rw [actMsis, mmioWriteMsis] at hm
      dsimp only at hm
      split_ifs at hm
      · cases hm
      · cases hm
      · cases hm
      · rw [fetchCommandsMsis] at hm
        split_ifs at hm
        · cases hm
        · have hnum := numVcpus_fetchLoopMsis hm
          exact hnum
      · cases hm
      · cases hm

theorem numVcpus_runMsis {acts : List ItsAct} {m : HandledMsi} (hm : m ∈ s.runMsis acts) :
    m.sys.gic.numVcpus = s.gic.numVcpus := by
  induction acts generalizing s with
  | nil => cases hm
  | cons a as ih =>
      rw [runMsis] at hm
      obtain hhead | htail := List.mem_append.1 hm
      · exact numVcpus_actMsis hhead
      · split at htail
        · cases htail
        · rename_i u hact
          exact (ih htail).trans (numVcpus_act hact)

/-! ## Runs -/

/-- **Every index is in bounds**, whatever is in the memory of the guest and whatever it writes to
the registers, exactly if at every MSI the vCPU exists. -/
theorem indices_inBounds_iff (s : ItsSys) (acts : List ItsAct) :
    (∀ i ∈ s.runIndices acts, i.InBounds s.gic.numVcpus) ↔
      ∀ m ∈ s.runMsis acts, m.TargetExists := by
  constructor
  · intro h m hm
    rw [← m.indices_iff, numVcpus_runMsis hm]
    exact fun i hi => h i (List.mem_flatMap.2 ⟨m, hm, hi⟩)
  · intro h i hi
    obtain ⟨m, hm, hi⟩ := List.mem_flatMap.1 hi
    have hin := m.indices_iff.2 (h m hm) i hi
    rwa [numVcpus_runMsis hm] at hin

/-- The guest has mapped event 0 of device 0 to LPI 8192 of collection 5, and collection 5 to a
number, with one vCPU. -/
def mappedTo (rdBase : UInt32) : ItsSys :=
  (({
    gic := { (GicD.init .gicV3 1 64).initLpis with propBaser := 0x40000 }
    its := GicD.lpiIts
    bus := GicD.lpiBus } : ItsSys).handleMapc true rdBase 5).handleMapti 0 0 8192 5

/-- The MSI of an event whose collection is mapped to vCPU 1, which does not exist. -/
theorem msi_beyond_banks : ¬∀ (s : ItsSys) (acts : List ItsAct),
    ∀ i ∈ s.runIndices acts, i.InBounds s.gic.numVcpus := by
  intro hall
  have hmem : GicIndex.vcpu 1 ∈ (mappedTo 1).runIndices [.msi 0 0] := by decide +kernel
  exact absurd (hall (mappedTo 1) [.msi 0 0] (.vcpu 1) hmem) (Nat.lt_irrefl 1)

end ItsSys

end Vml
