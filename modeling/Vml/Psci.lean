import Vml.CpuAffinity
import Vml.CpuStart

/-!
# PSCI

`psci.cpp`: the guest's calls to have vCPUs turned on and off. Every vCPU makes one call after
another, while it is on, and what a call reads and writes of the power of the vCPUs is a turn of its
own: `SYSTEM_SUSPEND` asks for each other vCPU in turn whether it is off, and suspends the system if
all of them were, while others are turned on and turn themselves off.

**What a scan has seen** (`Seen`) was off when it was seen. A vCPU that is in a call is on, and
stays on until it returns, so that of two vCPUs that scan or are suspended not both have seen the
other one. A vCPU that was seen may have been turned on since (`Late`), by one that was still on.

Main results: `PsciSys.suspended_unique` and `PsciSys.suspended_alone`.
-/

namespace Vml

/-! ## Calls -/

/-- The constructor of `CpuAffinity` from an `MPIDR`. -/
def CpuAffinity.ofMpidr (mpidr : UInt64) : CpuAffinity :=
  ⟨((mpidr >>> 8) &&& 0xff000000).toUInt32 ||| (mpidr &&& 0xffffff).toUInt32⟩

namespace Psci

/-- `FunctionId`, where the functions of 32 and 64 bits are one. -/
inductive Function
  | smcccVersion
  | smcccArchFeatures
  | version
  | features
  | cpuSuspend
  | cpuOff
  | affinityInfo
  | migrateInfoType
  | cpuOn
  | systemOff
  | systemReset
  | systemSuspend
  deriving DecidableEq, Repr

/-- The numbers of `FunctionId`. -/
def functionIds : List (UInt32 × Function) :=
  [(0x80000000, .smcccVersion), (0x80000001, .smcccArchFeatures), (0x84000000, .version),
    (0x8400000a, .features), (0x84000001, .cpuSuspend), (0xc4000001, .cpuSuspend),
    (0x84000002, .cpuOff), (0x84000004, .affinityInfo), (0xc4000004, .affinityInfo),
    (0x84000006, .migrateInfoType), (0x84000003, .cpuOn), (0xc4000003, .cpuOn),
    (0x84000008, .systemOff), (0x84000009, .systemReset), (0x8400000e, .systemSuspend),
    (0xc400000e, .systemSuspend)]

/-- What the `switch` of `smc_call_service` takes a number for. It has the low 32 bits only. -/
def functionOf (functionId : UInt64) : Option Function :=
  (functionIds.find? fun e => e.1 = functionId.toUInt32).map Prod.snd

/-- `PsciResult`, as it is returned. -/
inductive Result
  | success
  | notSupported
  | invalidParameters
  | denied
  | alreadyOn
  | invalidAddress
  deriving DecidableEq, Repr

/-- The word of a result. -/
def Result.toUInt64 : Result → UInt64
  | success => 0
  | notSupported => 0 - 1
  | invalidParameters => 0 - 2
  | denied => 0 - 3
  | alreadyOn => 0 - 4
  | invalidAddress => 0 - 9

/-- What `FEATURES` answers. It has all the bits of the number. -/
def features (feature : UInt64) : UInt64 :=
  if feature = 0xc4000001 ∨ feature = 0x84000001 then 0
  else if feature = 0x84000000 ∨ feature = 0x84000003 ∨ feature = 0xc4000003 ∨
      feature = 0xc4000004 ∨ feature = 0x84000004 ∨ feature = 0x84000002 ∨
      feature = 0x8400000e ∨ feature = 0xc400000e ∨ feature = 0x84000008 ∨
      feature = 0x84000009 ∨ feature = 0x80000000 then 0
  else Result.notSupported.toUInt64

/-- What a call finds in the registers. -/
structure Regs where
  x1 : UInt64 := 0
  x2 : UInt64 := 0
  x3 : UInt64 := 0
  cntvoff : UInt64 := 0
  spsr : UInt64 := 0
  deriving DecidableEq, Repr

/-- The boot configuration that `start_cpu` makes of them. -/
def bootConfig (r : Regs) : BootConfig where
  bootAddr := if r.spsr &&& 0x10 ≠ 0 ∧ r.x2 &&& 1 ≠ 0 then r.x2 &&& ~~~1 else r.x2
  bootArgs i := if i.val = 0 then r.x3 else 0
  timerOffset := r.cntvoff
  startMode :=
    if r.spsr &&& 0x10 ≠ 0 then (if r.x2 &&& 1 ≠ 0 then .t32 else .bits32) else .bits64

end Psci

open Psci

/-! ## The vCPUs -/

/-- What a platform has: its vCPUs, the affinities they are registered under, and the bus. -/
structure Board where
  numVcpus : ℕ
  clusters : ClustersMap
  bus : MemBus

/-- Where a vCPU is. -/
inductive PsciTask
  /-- In the guest, or off. -/
  | guest
  /-- `start_cpu`: whether the vCPU is on. -/
  | cpuOnCheck (vid : ℕ) (c : BootConfig)
  /-- `get_device_at`. -/
  | cpuOnLookup (vid : ℕ) (c : BootConfig)
  /-- `set_reset_parameters`. -/
  | cpuOnConfig (vid : ℕ) (c : BootConfig)
  /-- `ctrl_feature_off`. -/
  | cpuOnPower (vid : ℕ)
  /-- `AFFINITY_INFO` asks whether the vCPU is on. -/
  | affinityInfo (vid : ℕ)
  | cpuOff
  /-- The loop of `system_suspend`. -/
  | scan (id : ℕ) (allOthersOff : Bool)
  /-- The call has returned `WFI`. -/
  | wfi (suspended : Bool)
  deriving DecidableEq

/-- What a call has returned, where `none` leaves the register as it was. -/
structure PsciRet where
  vcpu : ℕ
  res : Option UInt64
  deriving DecidableEq, Repr

/-- The vCPUs: whether the guest has them on, and what they do. `log` is a history variable. -/
structure PsciSys where
  on : ℕ → Bool
  task : ℕ → PsciTask := fun _ => .guest
  config : ℕ → BootConfig := fun _ => {}
  resets : ℕ := 0
  log : List PsciRet := []

/-- What happens. -/
inductive PsciAct
  /-- A vCPU calls. -/
  | smc (v : ℕ) (functionId : UInt64) (r : Psci.Regs)
  /-- A vCPU goes on in its call. -/
  | turn (v : ℕ)
  /-- A vCPU has been woken up. -/
  | wake (v : ℕ)
  deriving DecidableEq

namespace PsciSys

variable (b : Board)

/-- `is_cpu_turned_on_by_guest`. -/
def isCpuTurnedOnByGuest (s : PsciSys) (id : ℕ) : Bool := decide (id < b.numVcpus) && s.on id

/-- A vCPU goes on. -/
def goOn (s : PsciSys) (v : ℕ) (p : PsciTask) : PsciSys :=
  { s with task := Function.update s.task v p }

/-- A call returns. -/
def ret (s : PsciSys) (v : ℕ) (res : Option UInt64) : PsciSys :=
  { s.goOn v .guest with log := s.log ++ [⟨v, res⟩] }

/-- A call returns, and the vCPU waits for an interrupt. -/
def retWfi (s : PsciSys) (v : ℕ) (suspended : Bool) : PsciSys :=
  { s.goOn v (.wfi suspended) with log := s.log ++ [⟨v, some Result.success.toUInt64⟩] }

/-- `smc_call_service`, up to the first turn. -/
def smcCallService (s : PsciSys) (v : ℕ) (functionId : UInt64) (r : Psci.Regs) : PsciSys :=
  match functionOf functionId with
  | some .smcccVersion => s.ret v (some 0x10001)
  | some .smcccArchFeatures => s.ret v (some Result.notSupported.toUInt64)
  | some .version => s.ret v (some 0x10001)
  | some .features => s.ret v (some (Psci.features r.x1))
  | some .migrateInfoType => s.ret v (some 2)
  | some .cpuOn =>
      match b.clusters.cpuAffinityToId (.ofMpidr r.x1) with
      | none => s.ret v (some Result.invalidParameters.toUInt64)
      | some vid => s.goOn v (.cpuOnCheck vid (bootConfig r))
  -- a power-down request is downgraded to a wait for an interrupt
  | some .cpuSuspend => s.retWfi v false
  | some .affinityInfo =>
      if r.x2 ≠ 0 then s.ret v (some Result.invalidParameters.toUInt64)
      else
        match b.clusters.cpuAffinityToId (.ofMpidr r.x1) with
        | none => s.ret v (some Result.invalidParameters.toUInt64)
        | some vid =>
            if b.numVcpus < vid then s.ret v (some Result.invalidParameters.toUInt64)
            else s.goOn v (.affinityInfo vid)
  | some .cpuOff => s.goOn v .cpuOff
  | some .systemOff => s.ret v none
  | some .systemReset => { s.ret v none with resets := s.resets + 1 }
  | some .systemSuspend => s.goOn v (.scan 0 true)
  | none => s.ret v (some Result.notSupported.toUInt64)

/-- A turn of a call. -/
def callTurn (s : PsciSys) (v : ℕ) : Option PsciSys :=
  match s.task v with
  | .guest => none
  | .cpuOnCheck vid c =>
      if s.isCpuTurnedOnByGuest b vid then some (s.ret v (some Result.alreadyOn.toUInt64))
      else some (s.goOn v (.cpuOnLookup vid c))
  | .cpuOnLookup vid c =>
      if (MemBus.getAsDeviceAt b.bus c.bootAddr 1).isNone then
        some (s.ret v (some Result.invalidAddress.toUInt64))
      -- `reset_cpu`
      else if b.numVcpus ≤ vid then some (s.ret v (some Result.invalidParameters.toUInt64))
      else some (s.goOn v (.cpuOnConfig vid c))
  | .cpuOnConfig vid c =>
      some { s.goOn v (.cpuOnPower vid) with config := Function.update s.config vid c }
  | .cpuOnPower vid =>
      some { s.ret v (some Result.success.toUInt64) with on := Function.update s.on vid true }
  | .affinityInfo vid => some (s.ret v (some (if s.isCpuTurnedOnByGuest b vid then 0 else 1)))
  | .cpuOff =>
      some { s.ret v (some Result.success.toUInt64) with on := Function.update s.on v false }
  | .scan id allOthersOff =>
      if id < b.numVcpus then
        some (s.goOn v (.scan (id + 1)
          (if id = v then allOthersOff else allOthersOff && !s.isCpuTurnedOnByGuest b id)))
      else if allOthersOff then some (s.retWfi v true)
      else some (s.ret v (some Result.denied.toUInt64))
  | .wfi _ => none

/-- What comes after an act, if it can be. -/
def next (s : PsciSys) : PsciAct → Option PsciSys
  | .smc v functionId r =>
      if v < b.numVcpus ∧ s.on v = true ∧ s.task v = .guest then
        some (s.smcCallService b v functionId r)
      else none
  | .turn v => s.callTurn b v
  | .wake v =>
      match s.task v with
      | .wfi _ => some (s.goOn v .guest)
      | _ => none

/-! ## What a turn does -/

/-- The vCPUs that a scan has passed, while it finds all of them off, or that it has passed before
the system was suspended. -/
def Seen : PsciTask → ℕ → Prop
  | .scan id true, w => w < id
  | .wfi true, w => w < b.numVcpus
  | _, _ => False

variable {b : Board} {s s' : PsciSys} {v w : ℕ} {a : PsciAct} {p : PsciTask}

@[simp] theorem on_goOn : (s.goOn v p).on = s.on := rfl

@[simp] theorem task_goOn_self : (s.goOn v p).task v = p := Function.update_self ..

theorem task_goOn_of_ne (h : w ≠ v) : (s.goOn v p).task w = s.task w := Function.update_of_ne h ..

/-- A step of a vCPU. -/
structure Turn (b : Board) (v : ℕ) (s s' : PsciSys) : Prop where
  others : ∀ w, w ≠ v → s'.task w = s.task w
  busy : s'.task v ≠ .guest → s.on v = true
  turnedOff : ∀ w, s.on w = true → s'.on w = true ∨ w = v ∧ s'.task v = .guest
  turnedOn : ∀ w, s'.on w = true →
    s.on w = true ∨ s.task v = .cpuOnPower w ∧ s'.task v = .guest
  seen : ∀ w, w ≠ v → Seen b (s'.task v) w → Seen b (s.task v) w ∨ s.on w = false

theorem Turn.of_goOn (hon : s'.on = s.on) (htask : s'.task = (s.goOn v p).task)
    (hbusy : s.on v = true)
    (hseen : ∀ w, w ≠ v → Seen b p w → Seen b (s.task v) w ∨ s.on w = false) : Turn b v s s' where
  others w hw := by rw [htask, task_goOn_of_ne hw]
  busy _ := hbusy
  turnedOff w hw := .inl (by rw [hon]; exact hw)
  turnedOn w hw := .inl (by rw [← hon]; exact hw)
  seen w hw h := by
    rw [htask, task_goOn_self] at h
    exact hseen w hw h

theorem not_seen_guest : ¬Seen b .guest w := id

theorem turn_smcCallService (functionId : UInt64) (r : Psci.Regs) (hon : s.on v = true) :
    Turn b v s (s.smcCallService b v functionId r) := by
  have hret (res : Option UInt64) : Turn b v s (s.ret v res) :=
    .of_goOn rfl rfl hon fun w _ h => absurd h not_seen_guest
  have hgoOn {p : PsciTask} (hp : ∀ w, ¬Seen b p w) : Turn b v s (s.goOn v p) :=
    .of_goOn rfl rfl hon fun w _ h => absurd h (hp w)
  rw [smcCallService]
  cases functionOf functionId with
  | none => exact hret _
  | some f =>
      cases f with
      | smcccVersion => exact hret _
      | smcccArchFeatures => exact hret _
      | version => exact hret _
      | features => exact hret _
      | cpuSuspend => exact .of_goOn (p := .wfi false) rfl rfl hon fun w _ h => absurd h id
      | cpuOff => exact hgoOn fun w => id
      | affinityInfo =>
          dsimp only
          split_ifs
          · exact hret _
          · cases b.clusters.cpuAffinityToId (.ofMpidr r.x1) with
            | none => exact hret _
            | some vid =>
                dsimp only
                split_ifs
                · exact hret _
                · exact hgoOn fun w => id
      | migrateInfoType => exact hret _
      | cpuOn =>
          dsimp only
          cases b.clusters.cpuAffinityToId (.ofMpidr r.x1) with
          | none => exact hret _
          | some vid => exact hgoOn fun w => id
      | systemOff => exact hret _
      | systemReset =>
          exact .of_goOn (p := .guest) rfl rfl hon fun w _ h => absurd h not_seen_guest
      | systemSuspend => exact hgoOn fun w => Nat.not_lt_zero w

theorem seen_scan {id : ℕ} {allOthersOff : Bool} (hlt : id < b.numVcpus) (hw : w ≠ v)
    (h : Seen b (.scan (id + 1) (if id = v then allOthersOff
      else allOthersOff && !s.isCpuTurnedOnByGuest b id)) w) :
    Seen b (.scan id allOthersOff) w ∨ s.on w = false := by
  cases allOthersOff with
  | false =>
      have hfalse : (if id = v then false else false && !s.isCpuTurnedOnByGuest b id) = false := by
        split_ifs <;> rfl
      rw [hfalse] at h
      exact absurd h fun h => h
  | true =>
      by_cases hid : w = id
      · subst hid
        rw [if_neg hw] at h
        cases hon : s.on w with
        | false => exact .inr rfl
        | true =>
            simp only [isCpuTurnedOnByGuest, hlt, hon, decide_true, Bool.and_self,
              Bool.not_true] at h
            exact absurd h fun h => h
      · have hseen : w < id + 1 := by
          revert h
          cases (if id = v then true else true && !s.isCpuTurnedOnByGuest b id) with
          | false => exact fun h => absurd h fun h => h
          | true => exact fun h => h
        exact .inl (show w < id by omega)

theorem turn_callTurn (h : s.callTurn b v = some s') (hon : s.on v = true) : Turn b v s s' := by
  have hret (res : Option UInt64) : Turn b v s (s.ret v res) :=
    .of_goOn rfl rfl hon fun w _ h => absurd h not_seen_guest
  have hgoOn {p : PsciTask} (hp : ∀ w, ¬Seen b p w) : Turn b v s (s.goOn v p) :=
    .of_goOn rfl rfl hon fun w _ h => absurd h (hp w)
  rw [callTurn] at h
  cases htask : s.task v with
  | guest => rw [htask] at h; exact absurd h nofun
  | cpuOnCheck vid c =>
      simp only [htask] at h
      split_ifs at h <;> cases h
      · exact hret _
      · exact hgoOn fun w => id
  | cpuOnLookup vid c =>
      simp only [htask] at h
      split_ifs at h <;> cases h
      · exact hret _
      · exact hret _
      · exact hgoOn fun w => id
  | cpuOnConfig vid c =>
      simp only [htask] at h
      cases h
      exact .of_goOn (p := .cpuOnPower vid) rfl rfl hon fun w _ h => absurd h id
  | cpuOnPower vid =>
      simp only [htask] at h
      cases h
      refine ⟨fun w hw => task_goOn_of_ne hw, fun _ => hon, fun w hw => .inl ?_, fun w hw => ?_,
        fun w _ h => ?_⟩
      · by_cases heq : w = vid
        · rw [heq]
          exact Function.update_self ..
        · exact (Function.update_of_ne heq ..).trans hw
      · by_cases heq : w = vid
        · exact .inr ⟨by rw [htask, heq], task_goOn_self⟩
        · exact .inl ((Function.update_of_ne heq ..).symm.trans hw)
      · exact absurd ((task_goOn_self (s := s) (p := .guest)) ▸ h) not_seen_guest
  | affinityInfo vid =>
      simp only [htask] at h
      cases h
      exact hret _
  | cpuOff =>
      simp only [htask] at h
      cases h
      refine ⟨fun w hw => task_goOn_of_ne hw, fun _ => hon, fun w hw => ?_, fun w hw => .inl ?_,
        fun w _ h => ?_⟩
      · by_cases heq : w = v
        · exact .inr ⟨heq, task_goOn_self⟩
        · exact .inl ((Function.update_of_ne heq ..).trans hw)
      · by_cases heq : w = v
        · rw [heq]
          exact hon
        · exact (Function.update_of_ne heq ..).symm.trans hw
      · exact absurd ((task_goOn_self (s := s) (p := .guest)) ▸ h) not_seen_guest
  | scan id allOthersOff =>
      simp only [htask] at h
      by_cases hlt : id < b.numVcpus
      · rw [if_pos hlt] at h
        cases h
        refine .of_goOn rfl rfl hon fun w hw hseen => ?_
        rw [htask]
        exact seen_scan hlt hw hseen
      · rw [if_neg hlt] at h
        split_ifs at h with hall <;> cases h
        · refine .of_goOn (p := .wfi true) rfl rfl hon fun w hw hseen => .inl ?_
          rw [htask, hall]
          exact lt_of_lt_of_le hseen (Nat.not_lt.1 hlt)
        · exact hret _
  | wfi suspended => rw [htask] at h; exact absurd h nofun

/-! ## Runs -/

/-- What holds of the vCPUs at any time. -/
structure Sound (b : Board) (s : PsciSys) : Prop where
  powered : ∀ v, s.task v ≠ .guest → s.on v = true ∧ v < b.numVcpus
  apart : ∀ v w, v ≠ w → Seen b (s.task v) w → ¬Seen b (s.task w) v

theorem sound_init (on : ℕ → Bool) (config : ℕ → BootConfig) :
    Sound b { on := on, config := config } :=
  ⟨fun _ h => absurd rfl h, fun _ _ _ h => absurd h not_seen_guest⟩

/-- **Every step** is one of a vCPU of the platform. -/
theorem Sound.turn (hs : Sound b s) (h : s.next b a = some s') :
    ∃ v, v < b.numVcpus ∧ Turn b v s s' ∧ ∀ w, s.task v = .cpuOnPower w → a = .turn v := by
  cases a with
  | smc v functionId r =>
      rw [next] at h
      split_ifs at h with hguard
      cases h
      refine ⟨v, hguard.1, turn_smcCallService functionId r hguard.2.1, fun w htask => ?_⟩
      rw [hguard.2.2] at htask
      exact absurd htask nofun
  | turn v =>
      have hbusy : s.task v ≠ .guest := fun hguest => by
        rw [next, callTurn, hguest] at h
        exact absurd h nofun
      exact ⟨v, (hs.powered v hbusy).2, turn_callTurn h (hs.powered v hbusy).1, fun _ _ => rfl⟩
  | wake v =>
      rw [next] at h
      cases htask : s.task v with
      | wfi suspended =>
          simp only [htask] at h
          cases h
          have hbusy := hs.powered v (by rw [htask]; exact nofun)
          refine ⟨v, hbusy.2, .of_goOn rfl rfl hbusy.1 fun w _ h => absurd h not_seen_guest,
            fun w hpower => ?_⟩
          rw [htask] at hpower
          exact absurd hpower nofun
      | _ =>
          simp only [htask] at h
          exact absurd h nofun

theorem Sound.not_seen_of_off (hs : Sound b s) (hoff : s.on w = false) : ¬Seen b (s.task w) v := by
  by_cases hguest : s.task w = .guest
  · rw [hguest]
    exact not_seen_guest
  · rw [(hs.powered w hguest).1] at hoff
    exact absurd hoff nofun

theorem Sound.next (hs : Sound b s) (h : s.next b a = some s') : Sound b s' := by
  obtain ⟨v, hv, hturn, -⟩ := hs.turn h
  -- the vCPU of the step sees somebody
  have hsees (w : ℕ) (hw : v ≠ w) (hseen : Seen b (s'.task v) w) : ¬Seen b (s'.task w) v := by
    rw [hturn.others w hw.symm]
    obtain hseen | hoff := hturn.seen w hw.symm hseen
    · exact hs.apart v w hw hseen
    · exact hs.not_seen_of_off hoff
  refine ⟨fun w hw => ?_, fun u w huw hseen hseen' => ?_⟩
  · by_cases hwv : w = v
    · subst hwv
      obtain hon | ⟨-, hguest⟩ := hturn.turnedOff w (hturn.busy hw)
      · exact ⟨hon, hv⟩
      · exact absurd hguest hw
    · rw [hturn.others w hwv] at hw
      obtain hon | ⟨heq, -⟩ := hturn.turnedOff w (hs.powered w hw).1
      · exact ⟨hon, (hs.powered w hw).2⟩
      · exact absurd heq hwv
  · by_cases huv : u = v
    · subst huv
      exact hsees w huw hseen hseen'
    · by_cases hwv : w = v
      · subst hwv
        exact hsees u huw.symm hseen' hseen
      · rw [hturn.others u huv] at hseen
        rw [hturn.others w hwv] at hseen'
        exact hs.apart u w huw hseen hseen'

theorem sound_run {on : ℕ → Bool} {config : ℕ → BootConfig} {acts : List PsciAct}
    (hrun : acts.foldlM (PsciSys.next b) { on := on, config := config } = some s) : Sound b s :=
  @Run.invariant _ _ (fun u a v => next b u a = some v) (Sound b) _ _ _
    (fun _ _ _ hs h => Sound.next hs h) (Run.of_foldlM hrun) (sound_init on config)

/-- **At most one vCPU has suspended the system**, in whatever order the calls of all vCPUs take
their turns. -/
theorem suspended_unique {on : ℕ → Bool} {config : ℕ → BootConfig} {acts : List PsciAct}
    (hrun : acts.foldlM (next b) { on := on, config := config } = some s)
    (hv : s.task v = .wfi true) (hw : s.task w = .wfi true) : v = w := by
  have hs := sound_run hrun
  by_contra hne
  have hvlt := (hs.powered v (by rw [hv]; exact nofun)).2
  have hwlt := (hs.powered w (by rw [hw]; exact nofun)).2
  refine hs.apart v w hne ?_ ?_
  · rw [hv]
    exact hwlt
  · rw [hw]
    exact hvlt

/-- Two vCPUs. -/
def twoVcpus : Board where
  numVcpus := 2
  clusters := {}
  bus := {}

/-- Both suspend the system. The second one is denied and turns itself off, and then the scan of the
first one gets to it. -/
def suspendActs : List PsciAct :=
  [.smc 0 0xc400000e {}, .smc 1 0xc400000e {}, .turn 0, .turn 1, .turn 1, .turn 1,
    .smc 1 0x84000002 {}, .turn 1, .turn 0, .turn 0]

theorem suspended_unique_denied : ∃ s, suspendActs.foldlM (next twoVcpus)
    { on := fun _ => true, config := fun _ => {} } = some s ∧ s.task 0 = .wfi true ∧
      s.log = [⟨1, some Result.denied.toUInt64⟩, ⟨1, some Result.success.toUInt64⟩,
        ⟨0, some Result.success.toUInt64⟩] ∧ ∀ v, s.task v = .wfi true → v = 0 := by
  obtain ⟨s, hrun, htask, hlog⟩ : ∃ s, suspendActs.foldlM (next twoVcpus)
      { on := fun _ => true, config := fun _ => {} } = some s ∧ s.task 0 = .wfi true ∧
        s.log = [⟨1, some Result.denied.toUInt64⟩, ⟨1, some Result.success.toUInt64⟩,
          ⟨0, some Result.success.toUInt64⟩] := ⟨_, rfl, rfl, rfl⟩
  exact ⟨s, hrun, htask, hlog, fun v hv => suspended_unique hrun hv htask⟩

/-! ## Late calls -/

/-- `CPU_ON` turns a vCPU on that the scan of another one has passed. -/
def Late (b : Board) (v : ℕ) (s : PsciSys) (a : PsciAct) : Prop :=
  ∃ u w, a = .turn u ∧ s.task u = .cpuOnPower w ∧ w ≠ v ∧ Seen b (s.task v) w

/-- What a scan has seen is off. -/
def SeenOff (b : Board) (v : ℕ) (s : PsciSys) : Prop :=
  ∀ w, w ≠ v → Seen b (s.task v) w → s.on w = false

theorem SeenOff.next (hoff : SeenOff b v s) (hs : Sound b s) (h : s.next b a = some s')
    (hlate : ¬Late b v s a) : SeenOff b v s' := by
  obtain ⟨u, -, hturn, hpower⟩ := hs.turn h
  -- what is off and has been seen stays off
  have hstays (w : ℕ) (hw : w ≠ v) (hseen : Seen b (s.task v) w) : s'.on w = false := by
    by_contra hon
    rw [Bool.not_eq_false] at hon
    obtain hon | ⟨hcall, -⟩ := hturn.turnedOn w hon
    · rw [hoff w hw hseen] at hon
      exact absurd hon nofun
    · exact hlate ⟨u, w, hpower w hcall, hcall, hw, hseen⟩
  intro w hw hseen
  by_cases hvu : v = u
  · subst hvu
    obtain hseen | hoff' := hturn.seen w hw hseen
    · exact hstays w hw hseen
    · by_contra hon
      rw [Bool.not_eq_false] at hon
      obtain hon | ⟨-, hguest⟩ := hturn.turnedOn w hon
      · rw [hoff'] at hon
        exact absurd hon nofun
      · -- a scan does not turn anybody on
        rw [hguest] at hseen
        exact not_seen_guest hseen
  · rw [hturn.others v hvu] at hseen
    exact hstays w hw hseen

theorem seenOff_run {on : ℕ → Bool} {config : ℕ → BootConfig} {acts : List PsciAct}
    (hrun : Run (fun u a u' => u.next b a = some u' ∧ ¬Late b v u a)
      { on := on, config := config } acts s) : Sound b s ∧ SeenOff b v s :=
  @Run.invariant _ _ (fun u a u' => next b u a = some u' ∧ ¬Late b v u a)
    (fun u => Sound b u ∧ SeenOff b v u) _ _ _
    (fun _ _ _ hu h => ⟨hu.1.next h.1, hu.2.next hu.1 h.1 h.2⟩) hrun
    ⟨sound_init on config, fun _ _ h => absurd h not_seen_guest⟩

/-- **When the system is suspended, nobody else is on**, if no vCPU has been turned on after the
scan of the one that suspends had passed it. Nothing can then be done but to wake that one up. -/
theorem suspended_alone {on : ℕ → Bool} {config : ℕ → BootConfig} {acts : List PsciAct}
    (hrun : Run (fun u a u' => u.next b a = some u' ∧ ¬Late b v u a)
      { on := on, config := config } acts s)
    (hv : s.task v = .wfi true) :
    (∀ w < b.numVcpus, w ≠ v → s.on w = false) ∧ ∀ a, s.next b a ≠ none ↔ a = .wake v := by
  obtain ⟨hs, hseen⟩ := seenOff_run hrun
  have hoff (w : ℕ) (hlt : w < b.numVcpus) (hw : w ≠ v) : s.on w = false := by
    refine hseen w hw ?_
    rw [hv]
    exact hlt
  have hguest (w : ℕ) (hw : w ≠ v) : s.task w = .guest := by
    by_contra hbusy
    obtain ⟨hon, hlt⟩ := hs.powered w hbusy
    rw [hoff w hlt hw] at hon
    exact absurd hon nofun
  refine ⟨hoff, fun a => ⟨fun ha => ?_, fun ha => ?_⟩⟩
  · cases a with
    | smc w functionId r =>
        refine absurd (if_neg fun hguard => ?_) ha
        by_cases hw : w = v
        · rw [hw, hv] at hguard
          exact absurd hguard.2.2 nofun
        · rw [hoff w hguard.1 hw] at hguard
          exact absurd hguard.2.1 nofun
    | turn w =>
        refine absurd ?_ ha
        rw [PsciSys.next, callTurn]
        by_cases hw : w = v
        · rw [hw, hv]
        · rw [hguest w hw]
    | wake w =>
        by_cases hw : w = v
        · rw [hw]
        · refine absurd ?_ ha
          rw [PsciSys.next, hguest w hw]
  · rw [ha, PsciSys.next, hv]
    exact nofun

/-- No vCPU is turned on by this step. -/
def powersNone (s : PsciSys) : PsciAct → Bool
  | .turn u =>
      match s.task u with
      | .cpuOnPower _ => false
      | _ => true
  | _ => true

theorem not_late_of_powersNone (h : s.powersNone a = true) : ¬Late b v s a := by
  rintro ⟨u, w, rfl, htask, -⟩
  rw [powersNone, htask] at h
  exact absurd h nofun

/-- The second vCPU turns itself off while the first one scans. -/
theorem suspended_alone_off : ∃ s, Run (fun u a u' => u.next twoVcpus a = some u' ∧
    ¬Late twoVcpus 0 u a) { on := fun _ => true, config := fun _ => {} }
      [.smc 0 0xc400000e {}, .smc 1 0x84000002 {}, .turn 0, .turn 1, .turn 0, .turn 0] s ∧
    ∀ w < 2, w ≠ 0 → s.on w = false := by
  have hrun : Run (fun u a u' => u.next twoVcpus a = some u' ∧ ¬Late twoVcpus 0 u a)
      { on := fun _ => true, config := fun _ => {} }
      [.smc 0 0xc400000e {}, .smc 1 0x84000002 {}, .turn 0, .turn 1, .turn 0, .turn 0] _ :=
    .cons ⟨rfl, not_late_of_powersNone rfl⟩ <| .cons ⟨rfl, not_late_of_powersNone rfl⟩ <|
    .cons ⟨rfl, not_late_of_powersNone rfl⟩ <| .cons ⟨rfl, not_late_of_powersNone rfl⟩ <|
    .cons ⟨rfl, not_late_of_powersNone rfl⟩ <| .cons ⟨rfl, not_late_of_powersNone rfl⟩ .nil
  exact ⟨_, hrun, (suspended_alone hrun rfl).1⟩

/-- Three vCPUs, registered under their affinities. -/
def threeVcpus : Board where
  numVcpus := 3
  clusters := (List.range 3).foldl (fun m id =>
    (m.addCpuWithAffinity id (.fromVcpuId (.ofNat id)) true).1) {}
  bus := StartSys.bootBus

/-- The third vCPU turns the second one on, which the scan has passed, and then itself off. -/
def lateActs : List PsciAct :=
  [.smc 0 0xc400000e {}, .turn 0, .turn 0,
    .smc 2 0xc4000003 { x1 := 1, x2 := 0x10000000 }, .turn 2, .turn 2, .turn 2, .turn 2,
    .smc 2 0x84000002 {}, .turn 2, .turn 0, .turn 0]

example : (lateActs.foldlM (next threeVcpus) { on := fun v => v = 0 ∨ v = 2 }).map
    (fun s => (s.task 0, s.on 1)) = some (.wfi true, true) := by
  decide +kernel

end PsciSys

end Vml
