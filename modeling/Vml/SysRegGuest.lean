import Vml.SysRegRun

/-!
# What a guest sees of the system registers

The two parts put together: a platform sets its registers up (`SysRegs.setUp_view`), and then runs
(`RegSys.register_read`).

* `RegSys.hidden_features`: whatever the host has, and whatever is done, no guest reads a feature
  that is not implemented.
* `RegSys.registers_restored`: after a reset the guest reads what it could read at first, except of the
  timer, whose control byte and compare value are not in the registers.
* `RegSys.ccsidr_read`: the cache size that the guest reads is that of the level it has selected
  last.
-/

namespace Vml

namespace Msr

open Vbus (Access)

open SysRegs RegisterId

/-! ## What has been set up -/

namespace SysRegs

variable {ρ : Type*} [LinearOrder ρ] {s : SysRegs ρ} {place : ℕ → ρ} {calls : List SetUpCall}

/-- A platform has made these calls, on a heap that gives every object a place of its own. -/
def SetUpBy (calls : List SetUpCall) (s : SysRegs ρ) : Prop :=
  (calls.map SetUpCall.kind).Nodup ∧ ∃ (place : ℕ → ρ) (key : ρ → UInt64) (obj : ρ → RegObj ρ),
    Function.Injective place ∧ calls.foldlM (setUp fun i => some (place i)) (empty key obj) = some s

/-- The id of `CSSELR_EL1`, which takes the place of its object. -/
abbrev csselrId : Option UInt64 := some csselrEl1.toUInt64

theorem SetUpBy.holds (h : SetUpBy calls s) : ∃ place, Holds place s (layout place 0 calls) := by
  obtain ⟨hcalls, place, key, obj, hplace, hs⟩ := h
  obtain ⟨t, ht, hholds⟩ := holds_setUp hplace key obj hcalls
  obtain rfl : t = s := Option.some.inj (ht.symm.trans hs)
  exact ⟨place, hholds⟩

theorem exists_setUpBy (hcalls : (calls.map SetUpCall.kind).Nodup) :
    ∃ s : SysRegs ℕ, SetUpBy calls s := by
  obtain ⟨s, hs, -⟩ := holds_setUp (ρ := ℕ) Function.injective_id (fun _ => 0)
    (fun _ => .wtrapped) hcalls
  exact ⟨s, hcalls, id, _, _, Function.injective_id, hs⟩

theorem SetUpBy.sound (h : SetUpBy calls s) : s.bus.devices.Sound := by
  obtain ⟨place, hholds⟩ := h.holds
  exact hholds.sound

theorem SetUpBy.view (h : SetUpBy calls s) (id : UInt64) :
    s.view id = lookup (calls.flatMap (SetUpCall.regs csselrId)) id := by
  obtain ⟨place, hholds⟩ := h.holds
  exact hholds.view_layout id

theorem layout_const {σ : Type*} (x : σ) (n : ℕ) (calls : List SetUpCall) :
    layout (fun _ => x) n calls = calls.flatMap (SetUpCall.regs x) := by
  induction calls generalizing n with
  | nil => rfl
  | cons c calls ih => rw [layout, List.flatMap_cons, ih]

/-- An object that a call registers is found by its id. -/
theorem SetUpBy.view_of_mem (h : SetUpBy calls s) {c : SetUpCall} (hc : c ∈ calls)
    {reg : NewReg (Option UInt64)} (hreg : reg ∈ c.regs csselrId) :
    s.view (idOf reg) = some reg.2 := by
  have hmem : reg ∈ calls.flatMap (SetUpCall.regs csselrId) := List.mem_flatMap.2 ⟨c, hc, hreg⟩
  have hnodup : ((calls.flatMap (SetUpCall.regs csselrId)).map idOf).Nodup := by
    rw [← layout_const csselrId 0 calls]
    exact layout_ids_nodup 0 h.1
  rw [h.view, lookup]
  cases hfind : (calls.flatMap (SetUpCall.regs csselrId)).find? fun r => idOf r = idOf reg with
  | none =>
      exact absurd (decide_eq_true rfl) (List.find?_eq_none.1 hfind reg hmem)
  | some reg' =>
      have hid : idOf reg' = idOf reg :=
        of_decide_eq_true (List.find?_some (p := fun r => decide (idOf r = idOf reg)) hfind)
      rw [List.inj_on_of_nodup_map hnodup (List.mem_of_find?_eq_some hfind) hmem hid]
      rfl

theorem SetUpBy.mem_of_view (h : SetUpBy calls s) {id : UInt64} {o : RegObj (Option UInt64)}
    (hview : s.view id = some o) :
    ∃ c ∈ calls, ∃ reg ∈ c.regs csselrId, idOf reg = id ∧ reg.2 = o := by
  rw [h.view, lookup, Option.map_eq_some_iff] at hview
  obtain ⟨reg, hfind, ho⟩ := hview
  obtain ⟨c, hc, hreg⟩ := List.mem_flatMap.1 (List.mem_of_find?_eq_some hfind)
  exact ⟨c, hc, reg, hreg,
    of_decide_eq_true (List.find?_some (p := fun r => decide (idOf r = id)) hfind), ho⟩

theorem view_eq_register {id : UInt64} {reg : Register} :
    s.view id = some (.register reg) ↔
      ∃ r, s.bus.getDeviceAt id = some r ∧ s.obj r = .register reg := by
  rw [SysRegs.view, Option.map_eq_some_iff]
  refine exists_congr fun r => and_congr_right fun _ => ?_
  cases s.obj r <;> simp [RegObj.map]

theorem regs_reset {σ : Type*} (x : σ) (c : SetUpCall) :
    (c.regs x).map (fun reg => (reg.1, reg.2.reset)) = c.regs x := by
  cases c with
  | archMsr info gicV3 =>
      simp only [SetUpCall.regs, archMsr, List.map_append,
        apply_ite (List.map fun reg : NewReg σ => (reg.1, reg.2.reset))]
      rfl
  | cachingInfo topo => rfl
  | physicalTimer => rfl

theorem SetUpBy.reset_eq (h : SetUpBy calls s) {r : ρ} (hr : r ∈ s.bus.devices.set) :
    (s.obj r).reset = s.obj r := by
  have hview : s.view (s.bus.devices.key r) = some ((s.obj r).map s.name) := by
    rw [SysRegs.view, BaseBus.getDeviceAt, h.sound.get_eq_some_iff.2 ⟨hr, rfl⟩]
    rfl
  obtain ⟨c, -, reg, hreg, -, ho⟩ := h.mem_of_view hview
  have hfresh : ∀ reg ∈ c.regs csselrId, reg.2.reset = reg.2 := by
    have hmap := (regs_reset csselrId c).trans (List.map_id _).symm
    exact fun reg hreg => congrArg Prod.snd (List.map_inj_left.1 hmap reg hreg)
  have := hfresh reg hreg
  rw [ho] at this
  revert this
  cases s.obj r <;> simp [RegObj.map, RegObj.reset]

end SysRegs

/-! ## What is hidden -/

theorem clear_and_self (value ones shift : UInt64) :
    clear value ones shift &&& (ones <<< shift) = 0 := by
  refine UInt64.toBitVec_inj.1 (BitVec.eq_of_getElem_eq fun i hi => ?_)
  simp only [clear, UInt64.toBitVec_and, UInt64.toBitVec_not, BitVec.getElem_and,
    BitVec.getElem_not, UInt64.toBitVec_zero, BitVec.getElem_zero]
  cases (ones <<< shift).toBitVec[i] <;> simp

theorem clear_and_of {value fields : UInt64} (h : value &&& fields = 0) (ones shift : UInt64) :
    clear value ones shift &&& fields = 0 := by
  rw [clear, UInt64.and_assoc, UInt64.and_comm (~~~_), ← UInt64.and_assoc, h, UInt64.zero_and]

namespace SysRegs

/-- The feature registers of what is not implemented at all. -/
def absentFeatures : List UInt32 :=
  [idAa64pfr1El1, idAa64pfr2El1, idAa64smfr0El1, idAa64zfr0El1, idAa64fpfr0El1, idAa64isar3El1,
    idAa64afr1El1, idAa64mmfr3El1, idAa64mmfr4El1, idAa64dfr1El1]

/-- The fields of the other ones that the guest is not to see: the id, the ones of the field and its
shift. -/
def hiddenFields : List (UInt32 × UInt64 × UInt64) :=
  -- SVE, MPAM and AMU
  [(idAa64pfr0El1, 0xf, 32), (idAa64pfr0El1, 0xf, 40), (idAa64pfr0El1, 0xf, 44),
    -- PAuth
    (idAa64isar1El1, 0xff, 4), (idAa64isar1El1, 0xff, 24),
    -- the enhanced counter, the host extension, LORegions, nesting and enhanced traps
    (idAa64mmfr0El1, 0xf, 60), (idAa64mmfr1El1, 0xf, 8), (idAa64mmfr1El1, 0xf, 16),
    (idAa64mmfr2El1, 0xf, 24), (idAa64mmfr2El1, 0xf, 56)]

variable {ρ : Type*} {info : PlatformInfo} {gicV3 : Bool}

theorem mem_archMsr_of_features {reg : NewReg ρ} (h : reg ∈ aarch64Features info.aa64) :
    reg ∈ archMsr info gicV3 := by
  simp only [archMsr, List.mem_append]
  tauto

theorem mem_archMsr_of_memoryModel {reg : NewReg ρ}
    (h : reg ∈ aarch64MemoryModel info.aa64.idAa64mmfr0El1 info.aa64.idAa64mmfr1El1
      info.aa64.idAa64mmfr2El1) : reg ∈ archMsr info gicV3 := by
  simp only [archMsr, List.mem_append]
  tauto

theorem mem_archMsr_of_debug {reg : NewReg ρ}
    (h : reg ∈ aarch64Debug info.aa64.idAa64dfr0El1 info.aa64.idAa64dfr1El1) :
    reg ∈ archMsr info gicV3 := by
  simp only [archMsr, List.mem_append]
  tauto

theorem mem_of_absent {id : UInt32} (h : id ∈ absentFeatures) :
    newRegister (ρ := ρ) id false 0 ∈ archMsr info gicV3 := by
  simp only [absentFeatures, List.mem_cons, List.not_mem_nil, or_false] at h
  rcases h with rfl | rfl | rfl | rfl | rfl | rfl | rfl | rfl | rfl | rfl
  iterate 7 exact mem_archMsr_of_features (by simp [aarch64Features])
  iterate 2 exact mem_archMsr_of_memoryModel (by simp [aarch64MemoryModel])
  exact mem_archMsr_of_debug (by simp [aarch64Debug])

/-- **The fields are zero** in the registers that are set up. -/
theorem exists_hidden {id : UInt32} {ones shift : UInt64} (h : (id, ones, shift) ∈ hiddenFields) :
    ∃ value, newRegister (ρ := ρ) id false value ∈ archMsr info gicV3 ∧
      value &&& (ones <<< shift) = 0 := by
  have hpfr0 : newRegister (ρ := ρ) idAa64pfr0El1 false
      (idAa64pfr0ResetValue info.aa64.idAa64pfr0El1) ∈ archMsr info gicV3 :=
    mem_archMsr_of_features (by simp [aarch64Features])
  have hisar1 : newRegister (ρ := ρ) idAa64isar1El1 false
      (clear (clear info.aa64.idAa64isar1El1 0xff 4) 0xff 24) ∈ archMsr info gicV3 :=
    mem_archMsr_of_features (by simp [aarch64Features])
  have hmmfr0 : newRegister (ρ := ρ) idAa64mmfr0El1 false
      (clear info.aa64.idAa64mmfr0El1 0xf 60) ∈ archMsr info gicV3 :=
    mem_archMsr_of_memoryModel (by simp [aarch64MemoryModel])
  have hmmfr1 : newRegister (ρ := ρ) idAa64mmfr1El1 false
      (clear (clear info.aa64.idAa64mmfr1El1 0xf 8) 0xf 16) ∈ archMsr info gicV3 :=
    mem_archMsr_of_memoryModel (by simp [aarch64MemoryModel])
  have hmmfr2 : newRegister (ρ := ρ) idAa64mmfr2El1 false
      (clear (clear info.aa64.idAa64mmfr2El1 0xf 24) 0xf 56) ∈ archMsr info gicV3 :=
    mem_archMsr_of_memoryModel (by simp [aarch64MemoryModel])
  simp only [hiddenFields, List.mem_cons, List.not_mem_nil, or_false, Prod.mk.injEq] at h
  rcases h with ⟨rfl, rfl, rfl⟩ | ⟨rfl, rfl, rfl⟩ | ⟨rfl, rfl, rfl⟩ | ⟨rfl, rfl, rfl⟩ |
    ⟨rfl, rfl, rfl⟩ | ⟨rfl, rfl, rfl⟩ | ⟨rfl, rfl, rfl⟩ | ⟨rfl, rfl, rfl⟩ | ⟨rfl, rfl, rfl⟩ |
    ⟨rfl, rfl, rfl⟩
  · exact ⟨_, hpfr0, clear_and_of (clear_and_of (clear_and_self ..) ..) ..⟩
  · exact ⟨_, hpfr0, clear_and_of (clear_and_self ..) ..⟩
  · exact ⟨_, hpfr0, clear_and_self ..⟩
  · exact ⟨_, hisar1, clear_and_of (clear_and_self ..) ..⟩
  · exact ⟨_, hisar1, clear_and_self ..⟩
  · exact ⟨_, hmmfr0, clear_and_self ..⟩
  · exact ⟨_, hmmfr1, clear_and_of (clear_and_self ..) ..⟩
  · exact ⟨_, hmmfr1, clear_and_self ..⟩
  · exact ⟨_, hmmfr2, clear_and_of (clear_and_self ..) ..⟩
  · exact ⟨_, hmmfr2, clear_and_self ..⟩

end SysRegs

/-! ## Reads -/

namespace RegSys

variable {ρ : Type*} [LinearOrder ρ] {s s' : RegSys ρ} {calls : List SetUpCall}
  {acts : List RegAct} {c : SetUpCall}

/-- What an access returns, and the value. -/
def answer (s : RegSys ρ) (vcpu : ℕ) (a : Access) (id val : UInt64) : Option (Err × UInt64) :=
  (s.access vcpu a id val).map fun res => (res.1, res.2.1)

theorem exists_write_csselr (hsetUp : SetUpBy calls s.regs) {topo : CacheTopo}
    (hc : SetUpCall.cachingInfo topo ∈ calls) (vcpu : ℕ) (val : UInt64) :
    ∃ s', s.next (.access vcpu .write csselrEl1.toUInt64 val) = some s' := by
  have hmem : newRegister csselrEl1 true 0 ∈ (SetUpCall.cachingInfo topo).regs csselrId := by
    simp [SetUpCall.regs, aarch64CachingInfo]
  obtain ⟨r, hk, hobj⟩ := view_eq_register.1 (hsetUp.view_of_mem hc hmem)
  exact next_register_write hk hobj vcpu val

/-- **A register of the set-up** is read. -/
theorem read_of_mem (hsetUp : SetUpBy calls s.regs) (hrun : acts.foldlM next s = some s')
    (hc : c ∈ calls) {id : UInt32} {writable : Bool} {resetValue mask : UInt64}
    (hreg : newRegister id writable resetValue mask ∈ c.regs csselrId) (vcpu : ℕ) (val : UInt64) :
    s'.answer vcpu .read id.toUInt64 val = some (.ok,
      (Register.new writable resetValue mask).contents
        ((Register.new writable resetValue mask).lastWrite id.toUInt64 acts)) := by
  obtain ⟨r, hk, hobj⟩ := view_eq_register.1 (hsetUp.view_of_mem hc hreg)
  have hobj' := run_register hsetUp.sound hk hobj hrun
  rw [Register.foldl_step rfl] at hobj'
  obtain ⟨t, ht⟩ := access_register ((run_getDeviceAt hrun _).trans hk) hobj' vcpu val
  exact congrArg (Option.map fun res => (res.1, res.2.1)) ht

theorem lastWrite_eq_none {reg : Register} (h : reg.writable = false) (k : UInt64)
    (acts : List RegAct) : reg.lastWrite k acts = none := by
  have haccepts (val : UInt64) : reg.accepts val = false := by rw [Register.accepts, h]; rfl
  induction acts using List.reverseRecOn with
  | nil => rfl
  | append_singleton acts act ih =>
      rw [Register.lastWrite, List.foldl_append, List.foldl_cons, List.foldl_nil,
        ← Register.lastWrite, ih]
      cases act with
      | access vcpu a id val =>
          rw [Register.writeStep, haccepts, if_neg fun hacc => Bool.false_ne_true hacc.2.2]
      | reset => rfl
      | vmiTvm vcpu enable regs => rfl
      | clean vcpu => rfl
      | setSctlr vcpu value => rfl
      | setCntvoff vcpu value => rfl
      | tick clock => rfl
      | timerStatus set => rfl

/-- **A register that cannot be written** reads as it was set up. -/
theorem read_only (hsetUp : SetUpBy calls s.regs) (hrun : acts.foldlM next s = some s')
    (hc : c ∈ calls) {id : UInt32} {resetValue : UInt64}
    (hreg : newRegister id false resetValue ∈ c.regs csselrId) (vcpu : ℕ) (val : UInt64) :
    s'.answer vcpu .read id.toUInt64 val = some (.ok, resetValue) := by
  rw [read_of_mem hsetUp hrun hc hreg, lastWrite_eq_none rfl]
  rfl

/-- **No guest sees a feature that is not implemented**, whatever the host has: the registers of
those that are absent read as zero, and so do the fields of the others that are to be hidden. No
write and no reset changes that. -/
theorem hidden_features (hsetUp : SetUpBy calls s.regs) {info : PlatformInfo} {gicV3 : Bool}
    (hc : SetUpCall.archMsr info gicV3 ∈ calls) (hrun : acts.foldlM next s = some s') (vcpu : ℕ)
    (val : UInt64) :
    (∀ id ∈ absentFeatures, s'.answer vcpu .read id.toUInt64 val = some (.ok, 0)) ∧
      ∀ id ones shift, (id, ones, shift) ∈ hiddenFields →
        ∃ value, s'.answer vcpu .read id.toUInt64 val = some (.ok, value) ∧
          value &&& (ones <<< shift) = 0 := by
  refine ⟨fun id hid => ?_, fun id ones shift hid => ?_⟩
  · exact read_only hsetUp hrun hc (mem_of_absent hid) vcpu val
  · obtain ⟨value, hreg, hzero⟩ := exists_hidden hid
    exact ⟨value, read_only hsetUp hrun hc hreg vcpu val, hzero⟩

/-- A host with SVE, BTI, PAuth and the host extension. -/
def fullHost : PlatformInfo where
  aa64 := {
    idAa64pfr0El1 := 0x100000022
    idAa64pfr1El1 := 0x1
    idAa64isar1El1 := 0x11000110
    idAa64mmfr1El1 := 0x100 }

/-- A guest writes a register, which is reset, and looks for the features of its host. -/
theorem hidden_features_after_reset : ∃ s s' : RegSys ℕ,
    SetUpBy [.archMsr fullHost true, .cachingInfo {}, .physicalTimer] s.regs ∧
      [.access 1 .write csselrEl1.toUInt64 2, .tick 7, .reset].foldlM next s = some s' ∧
      s'.answer 0 .read idAa64pfr1El1.toUInt64 5 = some (.ok, 0) ∧
      (∃ value, s'.answer 0 .read idAa64pfr0El1.toUInt64 5 = some (.ok, value) ∧
        value &&& ((0xf : UInt64) <<< 32) = 0) ∧
      (∃ value, s'.answer 0 .read idAa64isar1El1.toUInt64 5 = some (.ok, value) ∧
        value &&& ((0xff : UInt64) <<< 4) = 0) ∧
      ∃ value, s'.answer 0 .read idAa64mmfr1El1.toUInt64 5 = some (.ok, value) ∧
        value &&& ((0xf : UInt64) <<< 8) = 0 := by
  have hkinds : ([.archMsr fullHost true, .cachingInfo {}, .physicalTimer] : List SetUpCall).map
      SetUpCall.kind = [.archMsr, .cachingInfo, .physicalTimer] := rfl
  have hnodup : (([.archMsr fullHost true, .cachingInfo {}, .physicalTimer] :
      List SetUpCall).map SetUpCall.kind).Nodup := by
    rw [hkinds]
    decide
  obtain ⟨t, hsetUp⟩ := exists_setUpBy hnodup
  obtain ⟨s, hs⟩ := exists_write_csselr (s := { regs := t }) hsetUp
    (List.mem_cons_of_mem _ List.mem_cons_self) 1 2
  have hrun : [.access 1 .write csselrEl1.toUInt64 2, .tick 7, .reset].foldlM next
      ({ regs := t } : RegSys ℕ) = some ({ s with clock := 7 } : RegSys ℕ).reset := by
    rw [List.foldlM_cons, hs]
    rfl
  have h := hidden_features hsetUp List.mem_cons_self hrun 0 5
  exact ⟨_, _, hsetUp, hrun, h.1 _ List.mem_cons_self, h.2 idAa64pfr0El1 0xf 32 (by decide),
    h.2 idAa64isar1El1 0xff 4 (by decide), h.2 idAa64mmfr1El1 0xf 8 (by decide)⟩

/-! ## The cache size -/

theorem obj_of_ccsidr {t : SysRegs ρ} {id : UInt64} {clidr : UInt64} {sizes : ℕ → UInt64}
    (h : t.view id = some (.ccsidr csselrId clidr sizes)) :
    ∃ r csselr, t.bus.getDeviceAt id = some r ∧ t.obj r = .ccsidr csselr clidr sizes ∧
      t.bus.getDeviceAt csselrEl1.toUInt64 = some csselr := by
  rw [SysRegs.view, Option.map_eq_some_iff] at h
  obtain ⟨r, hr, hobj⟩ := h
  cases hcase : t.obj r with
  | ccsidr csselr clidr' sizes' =>
      rw [hcase, RegObj.map, RegObj.ccsidr.injEq] at hobj
      obtain ⟨hname, rfl, rfl⟩ := hobj
      refine ⟨r, csselr, hr, hcase, ?_⟩
      rw [name] at hname
      split_ifs at hname with hget
      · rwa [Option.some.inj hname] at hget
  | _ => simp [hcase, RegObj.map] at hobj

/-- **The cache size that the guest reads** is that of the level and the kind of cache that it has
selected last, whatever else has been done; of level 7 there is none, and the read fails. -/
theorem ccsidr_read (hsetUp : SetUpBy calls s.regs) {topo : CacheTopo}
    (hc : SetUpCall.cachingInfo topo ∈ calls) (hrun : acts.foldlM next s = some s') (vcpu : ℕ)
    (val : UInt64) :
    s'.answer vcpu .read ccsidrEl1.toUInt64 val = some
      ((ccsidrValue topo.clidrEl1 topo.ccsidrEl1
        (((Register.new true 0).lastWrite csselrEl1.toUInt64 acts).getD 0)).elim
          (.accessErr, val) fun value => (.ok, value)) := by
  have hmem : (ccsidrEl1, RegObj.ccsidr csselrId topo.clidrEl1 topo.ccsidrEl1) ∈
      (SetUpCall.cachingInfo topo).regs csselrId := by
    simp [SetUpCall.regs, aarch64CachingInfo]
  have hmemSel : newRegister csselrEl1 true 0 ∈ (SetUpCall.cachingInfo topo).regs csselrId := by
    simp [SetUpCall.regs, aarch64CachingInfo]
  obtain ⟨r, csselr, hr, hobj, hsel⟩ := obj_of_ccsidr (hsetUp.view_of_mem hc hmem)
  obtain ⟨r', hr', hobj'⟩ := view_eq_register.1 (hsetUp.view_of_mem hc hmemSel)
  obtain rfl : csselr = r' := Option.some.inj (hsel.symm.trans hr')
  have hframe := run_frame hrun
  have hreg := run_register hsetUp.sound hsel hobj' hrun
  rw [Register.foldl_step rfl] at hreg
  -- the object itself never changes
  have hccsidr : s'.regs.obj r = .ccsidr csselr topo.clidrEl1 topo.ccsidrEl1 := by
    have hreset := hframe.2 r
    rw [hobj] at hreset
    revert hreset
    cases s'.regs.obj r <;> simp [RegObj.reset]
  have hget : s'.regs.bus.getDeviceAt ccsidrEl1.toUInt64 = some r := by
    rw [BaseBus.getDeviceAt, hframe.1]
    exact hr
  have hcontents (last : Option UInt64) :
      (Register.new true 0).contents last = last.getD 0 := by
    cases last with
    | none => rfl
    | some value => simp [Register.contents, Register.new]
  obtain ⟨bus, -, hacc⟩ := access_found (s := s') (a := .read) (by decide) hget
  rw [answer, hacc, accessObj_ccsidr (s := s'.withBus bus) hccsidr hreg (by decide), hcontents]
  cases ccsidrValue topo.clidrEl1 topo.ccsidrEl1
    (((Register.new true 0).lastWrite csselrEl1.toUInt64 acts).getD 0) <;> rfl

/-- The data cache of level 2 is selected, of a host that has one for data and instructions. -/
theorem ccsidr_read_selected : ∃ s s' : RegSys ℕ,
    SetUpBy [.cachingInfo { clidrEl1 := 0x20, ccsidrEl1 := fun i => if i = 2 then 0x700 else 0 }]
      s.regs ∧ [.access 1 .write csselrEl1.toUInt64 2].foldlM next s = some s' ∧
      s'.answer 0 .read ccsidrEl1.toUInt64 0 = some (.ok, 0x700) := by
  obtain ⟨t, hsetUp⟩ : ∃ t : SysRegs ℕ, SetUpBy [.cachingInfo
      { clidrEl1 := 0x20, ccsidrEl1 := fun i => if i = 2 then 0x700 else 0 }] t :=
    exists_setUpBy (List.nodup_singleton _)
  obtain ⟨s', hs'⟩ := exists_write_csselr (s := { regs := t }) hsetUp List.mem_cons_self 1 2
  have hrun : [.access 1 .write csselrEl1.toUInt64 2].foldlM next ({ regs := t } : RegSys ℕ) =
      some s' := by
    rw [List.foldlM_cons, hs']
    rfl
  have hselected : ccsidrValue 0x20 (fun i => if i = 2 then 0x700 else 0)
      (((Register.new true 0).lastWrite csselrEl1.toUInt64
        [.access 1 .write csselrEl1.toUInt64 2]).getD 0) = some 0x700 := by
    decide +kernel
  refine ⟨_, s', hsetUp, hrun, ?_⟩
  rw [ccsidr_read hsetUp List.mem_cons_self hrun, hselected]
  rfl

end RegSys

/-! ## Resets -/

/-- The objects that answer for the timer. -/
def RegObj.ofTimer {ρ : Type*} : RegObj ρ → Bool
  | cntpct => true
  | cntpTval _ => true
  | cntpCtl _ => true
  | cntpCval _ => true
  | _ => false

/-- The object that an object points to. -/
def RegObj.pointer {ρ : Type*} : RegObj ρ → Option ρ
  | ccsidr csselr _ _ => some csselr
  | _ => none

namespace SysRegs

/-- The registers of the timer. -/
def timerIds : List UInt32 := [cntpTvalEl0, cntpCtlEl0, cntpCvalEl0, cntpctEl0]

variable {ρ : Type*} [LinearOrder ρ] {s : SysRegs ρ} {calls : List SetUpCall}

theorem archMsr_plain {σ : Type*} (info : PlatformInfo) (gicV3 : Bool) {reg : NewReg σ}
    (h : reg ∈ archMsr info gicV3) : reg.2.ofTimer = false ∧ reg.2.pointer = none := by
  have hall : (archMsr (ρ := σ) info gicV3).all
      (fun reg => !reg.2.ofTimer && reg.2.pointer.isNone) = true := by
    rw [archMsr]
    simp only [List.all_append, Bool.and_eq_true]
    refine ⟨⟨⟨⟨⟨⟨⟨⟨⟨⟨rfl, rfl⟩, rfl⟩, rfl⟩, rfl⟩, rfl⟩, rfl⟩, rfl⟩, rfl⟩, ?_⟩, ?_⟩
    · cases gicV3 <;> rfl
    · split_ifs <;> rfl
  have := List.all_eq_true.1 hall reg h
  simpa using this

/-- The timer's registers, and no others, answer for the timer, and only `CSSELR_EL1` is pointed
to. -/
theorem regs_plain {σ : Type*} {x : σ} {c : SetUpCall} {reg : NewReg σ} (h : reg ∈ c.regs x) :
    (reg.2.ofTimer = true ↔ reg.1 ∈ timerIds) ∧ ∀ y, reg.2.pointer = some y → y = x := by
  have hid : reg.1 ∈ c.kind.allIds := (regs_sublist c).subset (List.mem_map_of_mem h)
  have hother (hc : c.kind ≠ .physicalTimer) : reg.1 ∉ timerIds := fun hmem =>
    allIds_disjoint hc hid hmem
  cases c with
  | archMsr info gicV3 =>
      obtain ⟨htimer, hpointer⟩ := archMsr_plain info gicV3 h
      have hnot := hother (by simp [SetUpCall.kind])
      exact ⟨by simp [htimer, hnot], by simp [hpointer]⟩
  | cachingInfo topo =>
      have htimer : reg.2.ofTimer = false ∧ ∀ y, reg.2.pointer = some y → y = x := by
        simp only [SetUpCall.regs, aarch64CachingInfo, List.mem_cons, List.not_mem_nil,
          or_false] at h
        rcases h with rfl | rfl | rfl | rfl
        · exact ⟨rfl, by simp [newRegister, RegObj.pointer]⟩
        · exact ⟨rfl, by simp [newRegister, RegObj.pointer]⟩
        · exact ⟨rfl, by simp [newRegister, RegObj.pointer]⟩
        · exact ⟨rfl, fun y hy => (Option.some.inj hy).symm⟩
      have hnot := hother (by simp [SetUpCall.kind])
      exact ⟨by simp [htimer.1, hnot], htimer.2⟩
  | physicalTimer =>
      simp only [SetUpCall.regs, aarch64PhysicalTimer, List.mem_cons, List.not_mem_nil,
        or_false] at h
      rcases h with rfl | rfl | rfl | rfl <;> simp [RegObj.ofTimer, RegObj.pointer, timerIds]

/-- What an object of the set-up points to is on the bus. -/
theorem SetUpBy.pointer (h : SetUpBy calls s) {r csselr : ρ} (hr : r ∈ s.bus.devices.set)
    (hobj : (s.obj r).pointer = some csselr) : csselr ∈ s.bus.devices.set := by
  have hview : s.view (s.bus.devices.key r) = some ((s.obj r).map s.name) := by
    rw [SysRegs.view, BaseBus.getDeviceAt, h.sound.get_eq_some_iff.2 ⟨hr, rfl⟩]
    rfl
  obtain ⟨c, -, reg, hreg, -, ho⟩ := h.mem_of_view hview
  have hname : s.name csselr = csselrId := by
    refine (regs_plain hreg).2 _ ?_
    rw [ho]
    revert hobj
    cases s.obj r <;> simp [RegObj.map, RegObj.pointer]
    intro hp
    rw [hp]
  rw [name] at hname
  split_ifs at hname with hget
  exact (h.sound.get_eq_some_iff.1 hget).1

end SysRegs

namespace RegSys

variable {ρ : Type*} [LinearOrder ρ] {s s' t : RegSys ρ} {calls : List SetUpCall}
  {acts : List RegAct} {r : ρ}

/-- A read depends on the object, and on the one that it points to. -/
theorem read_congr (hobj : t.regs.obj r = s.regs.obj r)
    (hpointer : ∀ x, (s.regs.obj r).pointer = some x → t.regs.obj x = s.regs.obj x)
    (htimer : (s.regs.obj r).ofTimer = false) (vcpu : ℕ) (val : UInt64) :
    (t.accessObj r vcpu .read val).map (fun res => (res.1, res.2.1)) =
      (s.accessObj r vcpu .read val).map fun res => (res.1, res.2.1) := by
  cases hcase : s.regs.obj r with
  | register reg =>
      rw [accessObj_register (hobj.trans hcase), accessObj_register hcase]
      rfl
  | setWayFlush reg =>
      rw [accessObj_setWayFlush (hobj.trans hcase), accessObj_setWayFlush hcase]
      rfl
  | ccsidr csselr clidr sizes =>
      rw [hcase] at hpointer
      have hsel := hpointer csselr rfl
      cases hcsselr : s.regs.obj csselr with
      | register c =>
          rw [accessObj_ccsidr (hobj.trans hcase) (hsel.trans hcsselr) (by decide),
            accessObj_ccsidr hcase hcsselr (by decide)]
          cases ccsidrValue clidr sizes c.value <;> rfl
      | _ => simp [accessObj, hobj, hcase, hsel, hcsselr]
  | iccSgi1r | wtrapped | sctlr => simp [accessObj, hobj, hcase]
  | cntpct | cntpTval _ | cntpCtl _ | cntpCval _ =>
      simp [hcase, RegObj.ofTimer] at htimer

/-- A read of the timer does not depend on what the registers hold. -/
theorem timer_read_congr (hobj : t.regs.obj r = (s.regs.obj r).reset)
    (htimer : (s.regs.obj r).ofTimer = true) (hctl : t.ctl = s.ctl) (hcval : t.cval = s.cval)
    (hclock : t.clock = s.clock) (hcntvoff : t.cntvoff = s.cntvoff) (vcpu : ℕ) (val : UInt64) :
    (t.accessObj r vcpu .read val).map (fun res => (res.1, res.2.1)) =
      (s.accessObj r vcpu .read val).map fun res => (res.1, res.2.1) := by
  cases hcase : s.regs.obj r with
  | cntpct | cntpTval _ =>
      rw [hcase] at hobj
      simp [accessObj, hobj, RegObj.reset, hcase, hcval, hclock, hcntvoff]
  | cntpCtl reg =>
      rw [hcase] at hobj
      rw [accessObj_cntpCtl hobj, accessObj_cntpCtl hcase, hctl]
      rfl
  | cntpCval reg =>
      rw [hcase] at hobj
      rw [accessObj_cntpCval hobj, accessObj_cntpCval hcase, hcval]
      rfl
  | _ =>
      simp [hcase, RegObj.ofTimer] at htimer

/-- The answers of two buses with the same registrations. -/
theorem answer_congr {id : UInt64} {vcpu : ℕ} {val : UInt64}
    (hdevices : t.regs.bus.devices = s.regs.bus.devices)
    (h : ∀ r, s.regs.bus.getDeviceAt id = some r → ∀ bus bus' : BaseBus ρ,
      ((t.withBus bus).accessObj r vcpu .read val).map (fun res => (res.1, res.2.1)) =
        ((s.withBus bus').accessObj r vcpu .read val).map fun res => (res.1, res.2.1)) :
    t.answer vcpu .read id val = s.answer vcpu .read id val := by
  cases hget : s.regs.bus.getDeviceAt id with
  | none =>
      have hget' : t.regs.bus.getDeviceAt id = none := by
        rw [BaseBus.getDeviceAt, hdevices]
        exact hget
      rw [answer, answer, RegSys.access, RegSys.access, BaseBus.access, BaseBus.access,
        if_neg (by decide), if_neg (by decide), show t.regs.bus.devices.get id = none from hget',
        show s.regs.bus.devices.get id = none from hget]
      rfl
  | some r =>
      have hget' : t.regs.bus.getDeviceAt id = some r := by
        rw [BaseBus.getDeviceAt, hdevices]
        exact hget
      obtain ⟨bus, -, hacc⟩ := access_found (a := .read) (by decide) hget'
      obtain ⟨bus', -, hacc'⟩ := access_found (a := .read) (by decide) hget
      rw [answer, answer, hacc, hacc']
      exact h r hget bus bus'

/-- **A reset restores what the guest can read**, after whatever it has done, except of the timer:
that reads as it did before the reset. -/
theorem registers_restored (hsetUp : SetUpBy calls s.regs) (hrun : acts.foldlM next s = some s')
    (id : UInt64) (vcpu : ℕ) (val : UInt64) :
    s'.reset.answer vcpu .read id val =
      if id ∈ timerIds.map UInt32.toUInt64 then s'.answer vcpu .read id val
      else s.answer vcpu .read id val := by
  obtain ⟨hdevices, hreset⟩ := run_frame hrun
  have hrestored (r : ρ) (hr : r ∈ s.regs.bus.devices.set) :
      s'.reset.regs.obj r = s.regs.obj r := by
    rw [obj_reset, hdevices, if_pos hr, hreset, hsetUp.reset_eq hr]
  have htimer (r : ρ) (hr : s.regs.bus.getDeviceAt id = some r) :
      (s.regs.obj r).ofTimer = true ↔ id ∈ timerIds.map UInt32.toUInt64 := by
    have hview : s.regs.view id = some ((s.regs.obj r).map s.regs.name) := by
      rw [SysRegs.view, hr]
      rfl
    obtain ⟨c, -, reg, hreg, rfl, ho⟩ := hsetUp.mem_of_view hview
    have hplain := (regs_plain hreg).1
    rw [ho] at hplain
    rw [show idOf reg = UInt32.toUInt64 reg.1 from rfl,
      List.mem_map_of_injective toUInt64_injective, ← hplain]
    cases s.regs.obj r <;> rfl
  split_ifs with hid
  · refine answer_congr rfl fun r hr bus bus' => ?_
    rw [BaseBus.getDeviceAt, hdevices] at hr
    have hmem := (hsetUp.sound.get_eq_some_iff.1 hr).1
    have hobj : (s'.reset.withBus bus).regs.obj r = ((s'.withBus bus').regs.obj r).reset := by
      change s'.reset.regs.obj r = (s'.regs.obj r).reset
      rw [obj_reset, hdevices, if_pos hmem]
    refine timer_read_congr hobj ?_ rfl rfl rfl rfl vcpu val
    have hof := (htimer r hr).2 hid
    have hsame := hreset r
    change (s'.regs.obj r).ofTimer = true
    revert hof hsame
    cases s.regs.obj r <;> cases s'.regs.obj r <;> simp [RegObj.ofTimer, RegObj.reset]
  · refine answer_congr hdevices fun r hr bus bus' => ?_
    have hmem := (hsetUp.sound.get_eq_some_iff.1 hr).1
    refine read_congr (s := s.withBus bus') (t := s'.reset.withBus bus) (hrestored r hmem)
      (fun x hx => ?_) ?_ vcpu val
    · exact hrestored x (hsetUp.pointer hmem hx)
    · rw [← Bool.not_eq_true]
      exact fun hof => hid ((htimer r hr).1 hof)

/-- The selection of a cache is forgotten. -/
theorem registers_restored_csselr : ∃ s s' : RegSys ℕ, SetUpBy [.cachingInfo {}] s.regs ∧
    [.access 1 .write csselrEl1.toUInt64 5].foldlM next s = some s' ∧
      s'.reset.answer 0 .read csselrEl1.toUInt64 0 = s.answer 0 .read csselrEl1.toUInt64 0 := by
  obtain ⟨t, hsetUp⟩ : ∃ t : SysRegs ℕ, SetUpBy [.cachingInfo {}] t :=
    exists_setUpBy (List.nodup_singleton _)
  obtain ⟨s', hs'⟩ := exists_write_csselr (s := { regs := t }) hsetUp List.mem_cons_self 1 5
  have hrun : [.access 1 .write csselrEl1.toUInt64 5].foldlM next ({ regs := t } : RegSys ℕ) =
      some s' := by
    rw [List.foldlM_cons, hs']
    rfl
  have hid : csselrEl1.toUInt64 ∉ timerIds.map UInt32.toUInt64 := by decide
  exact ⟨_, s', hsetUp, hrun, (registers_restored hsetUp hrun _ 0 0).trans (if_neg hid)⟩

end RegSys

end Msr

end Vml
