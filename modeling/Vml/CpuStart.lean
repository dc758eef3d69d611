import Vml.CpuFeature
import Vml.SimpleAS

/-!
# Starting a vCPU

`Cpu::start_cpu`: any number of callers turn the same vCPU on. A call asks whether the vCPU is on,
looks for memory at the boot address, stores the boot configuration, requests a reset and takes back
the request to pause. All of these are turns of their own, as are the loads and stores of the
vCPU. The boot configuration is stored and copied under a mutex, so that each is one turn.

**The loop of a vCPU** is the platform's own, and a parameter (`OwnLoop`): it calls
`wait_if_exec_paused`, asks for the reset with `check_clean_read`, copies the boot configuration and
enters the guest. `OwnLoop.Ordered` is what it is relied on for: it has waited before it asks for
the reset, it copies the configuration exactly if the reset is requested and new, and it has asked
before it enters the guest.

**The power of a vCPU** is `Power`: a vCPU that is off is turned on by one call, starts once and
with the configuration of that call, and is turned off by itself.

Main result: `StartSys.start_exclusive`: in every run in which a call stores its configuration only
while the vCPU is off and no other call is between its store and its un-pause, what happens is what
`Power` says. `StartSys.start_twice` has two calls that both find the vCPU off.
-/

namespace Vml

/-- `Cpu::Mode`. -/
inductive CpuMode
  | bits64
  | bits32
  | bits16
  | t32
  deriving DecidableEq, Repr

/-- The boot configuration of a vCPU. -/
structure BootConfig where
  bootAddr : UInt64 := 0
  bootArgs : Fin 4 → UInt64 := fun _ => 0
  timerOffset : UInt64 := 0
  startMode : CpuMode := .bits64
  deriving DecidableEq

/-- `StartErr`. `INVALID_PARAMETERS` is for a vCPU that is not configured. -/
inductive StartErr
  | success
  | alreadyOn
  | invalidAddress
  deriving DecidableEq, Repr

/-- Where a caller is in `start_cpu`. -/
inductive StartTask
  | idle
  /-- `is_cpu_turned_on_by_guest`. -/
  | check (c : BootConfig)
  /-- `get_device_at`. -/
  | lookup (c : BootConfig)
  | setResetParameters (c : BootConfig)
  /-- `ctrl_feature_reset`: the two turns of the request. -/
  | resetStore (c : BootConfig)
  | resetForce (c : BootConfig)
  /-- `ctrl_feature_off`: the two turns of the request, and the signal. -/
  | offStore (c : BootConfig)
  | offForce (c : BootConfig)
  | switchOn (c : BootConfig)
  | done (c : BootConfig) (err : StartErr)
  deriving DecidableEq

/-- What the vCPU's own loop does at one of its places, and where it goes from there. -/
inductive OwnTurn (ν : Type)
  | waitIfExecPaused (p : ν)
  /-- `check_clean_read` of the reset: what it returns, and what it says of `enabled`. -/
  | checkReset (go : Bool → Bool → ν)
  /-- The boot configuration is copied. -/
  | boot (p : ν)
  | enter
  /-- Something that has no part in the start. -/
  | other (p : ν)

/-- The loop of the platform's subclass, which begins, and comes back from the guest, at `entry`. -/
structure OwnLoop (ν : Type) where
  turn : ν → OwnTurn ν
  entry : ν

/-- What the loop has to do next. -/
inductive OwnPhase
  | wait
  | check
  | boot
  | enter
  deriving DecidableEq, Repr

/-- **What the loop is relied on for**, by the phase of each of its places. -/
structure OwnLoop.Ordered {ν : Type} (loop : OwnLoop ν) (phase : ν → OwnPhase) : Prop where
  entry : phase loop.entry = .wait
  waits : ∀ p q, loop.turn p = .waitIfExecPaused q → phase p ≠ .boot ∧ phase q = .check
  checks : ∀ p go, loop.turn p = .checkReset go → phase p = .check ∧
    ∀ changed enabled, phase (go changed enabled) = if changed && enabled then .boot else .enter
  boots : ∀ p q, loop.turn p = .boot q → phase p = .boot ∧ phase q = .enter
  enters : ∀ p, loop.turn p = .enter → phase p = .enter
  others : ∀ p q, loop.turn p = .other q → phase q = phase p

/-- Where the vCPU is. -/
inductive VcpuTask (ν : Type)
  /-- `wait_if_exec_paused` asks whether the vCPU is to be paused. -/
  | waitIfExecPaused (back : ν)
  /-- `wait_for_switch_on`. -/
  | waitForSwitchOn (back : ν)
  | own (p : ν)
  | running
  /-- `CPU_OFF` has requested the pause and is to mark it. -/
  | offForce

/-- What the callers do, and what happens to the vCPU. -/
inductive PowerEvent
  | called (t : ℕ) (c : BootConfig)
  | returned (t : ℕ) (err : StartErr)
  /-- The caller has taken the pause back. -/
  | turnedOn (t : ℕ) (c : BootConfig)
  /-- The vCPU starts with a boot configuration. -/
  | started (c : BootConfig)
  /-- The vCPU enters the guest. -/
  | entered
  | turnedOff
  deriving DecidableEq

/-- A vCPU and its callers. `log` is a history variable. -/
structure StartSys (ν : Type) where
  executionPaused : CpuFlag := ⟨1⟩
  reset : CpuFlag := {}
  offSm : Signal := {}
  config : BootConfig := {}
  call : ℕ → StartTask := fun _ => .idle
  vcpu : VcpuTask ν
  log : List PowerEvent := []

/-- A call, or a turn of a caller or of the vCPU. -/
inductive StartAct
  | startCpu (t : ℕ) (c : BootConfig)
  | caller (t : ℕ)
  | vcpu
  /-- The running vCPU exits to the VMM. -/
  | exit
  /-- The running vCPU calls `CPU_OFF`. -/
  | cpuOff
  /-- The introspection pauses the vCPU, or takes that back. -/
  | vmiRequest (enable : Bool)
  | vmiSwitchOn
  deriving DecidableEq

namespace StartSys

variable {ν : Type}

/-- The vCPU is off, and at the beginning of its loop. -/
def init (loop : OwnLoop ν) (config : BootConfig) : StartSys ν :=
  { config := config, vcpu := .own loop.entry }

/-- `is_turned_on_by_guest`. -/
def isTurnedOnByGuest (s : StartSys ν) : Bool := !s.executionPaused.isRequestedBy .vmm

/-- The caller goes on. -/
def goOn (s : StartSys ν) (t : ℕ) (p : StartTask) : StartSys ν :=
  { s with call := Function.update s.call t p }

/-- A turn of a caller. -/
def callTurn (bus : MemBus) (s : StartSys ν) (t : ℕ) : Option (StartSys ν) :=
  match s.call t with
  | .idle => none
  | .check c =>
      if s.isTurnedOnByGuest then some (s.goOn t (.done c .alreadyOn))
      else some (s.goOn t (.lookup c))
  | .lookup c =>
      if (MemBus.getAsDeviceAt bus c.bootAddr 1).isNone then
        some (s.goOn t (.done c .invalidAddress))
      else some (s.goOn t (.setResetParameters c))
  | .setResetParameters c => some { s.goOn t (.resetStore c) with config := c }
  | .resetStore c => some { s.goOn t (.resetForce c) with reset := s.reset.store .vmm true }
  | .resetForce c => some { s.goOn t (.offStore c) with reset := s.reset.forceReconfiguration }
  | .offStore c => some { s.goOn t (.offForce c) with
      executionPaused := s.executionPaused.store .vmm false
      log := s.log ++ [.turnedOn t c] }
  | .offForce c => some { s.goOn t (.switchOn c) with
      executionPaused := s.executionPaused.forceReconfiguration }
  | .switchOn c => some { s.goOn t (.done c .success) with offSm := s.offSm.sig }
  | .done _ err => some { s.goOn t .idle with log := s.log ++ [.returned t err] }

/-- A turn of the vCPU's own loop. -/
def ownTurn (s : StartSys ν) : OwnTurn ν → StartSys ν
  | .waitIfExecPaused p => { s with vcpu := .waitIfExecPaused p }
  | .checkReset go => { s with
      reset := s.reset.clean
      vcpu := .own (go s.reset.needsReconfiguration s.reset.isRequested) }
  | .boot p => { s with vcpu := .own p, log := s.log ++ [.started s.config] }
  | .enter => { s with vcpu := .running, log := s.log ++ [.entered] }
  | .other p => { s with vcpu := .own p }

/-- A turn of the vCPU. -/
def vcpuTurn (loop : OwnLoop ν) (s : StartSys ν) : Option (StartSys ν) :=
  match s.vcpu with
  | .waitIfExecPaused p =>
      if s.executionPaused.isRequested then some { s with vcpu := .waitForSwitchOn p }
      else some { s with vcpu := .own p }
  | .waitForSwitchOn p => s.offSm.wait.map fun sm =>
      { s with offSm := sm, vcpu := .waitIfExecPaused p }
  | .own p => some (s.ownTurn (loop.turn p))
  | .running => none
  | .offForce => some { s with
      executionPaused := s.executionPaused.forceReconfiguration
      vcpu := .own loop.entry }

/-- The call, or the turn. -/
def next (loop : OwnLoop ν) (bus : MemBus) (s : StartSys ν) : StartAct → Option (StartSys ν)
  | .startCpu t c =>
      if s.call t = .idle then
        some { s.goOn t (.check c) with log := s.log ++ [.called t c] }
      else none
  | .caller t => s.callTurn bus t
  | .vcpu => s.vcpuTurn loop
  | .exit => match s.vcpu with
      | .running => some { s with vcpu := .own loop.entry }
      | _ => none
  | .cpuOff => match s.vcpu with
      | .running => some { s with
          executionPaused := s.executionPaused.store .vmm true
          vcpu := .offForce
          log := s.log ++ [.turnedOff] }
      | _ => none
  | .vmiRequest enable => some { s with executionPaused := s.executionPaused.store .vmi enable }
  | .vmiSwitchOn => some { s with offSm := s.offSm.sig }

end StartSys

/-! ## What starting is for -/

/-- A vCPU is off, or a call has turned it on, and it has started since or not. -/
inductive Power
  | off
  | on (c : BootConfig) (started : Bool)
  deriving DecidableEq

/-- **What may happen to a vCPU.** -/
def Power.next : Power → PowerEvent → Option Power
  | .off, .turnedOn _ c => some (.on c false)
  | .on c false, .started c' => if c' = c then some (.on c true) else none
  | .on c true, .entered => some (.on c true)
  | .on _ true, .turnedOff => some .off
  | power, .called _ _ => some power
  | power, .returned _ _ => some power
  | _, _ => none

/-- The power of a vCPU after these events, if they may happen. -/
def powerAfter (log : List PowerEvent) : Option Power := log.foldlM Power.next .off

/-- A caller has not called, is calling, or has turned the vCPU on. -/
inductive CallState
  | idle
  | calling (c : BootConfig)
  | succeeded
  deriving DecidableEq

/-- **What a caller may do**: a call returns `SUCCESS` exactly if it has turned the vCPU on. -/
def CallState.next (t : ℕ) (p : CallState) : PowerEvent → Option CallState
  | .called u c => if u = t then (if p = .idle then some (.calling c) else none) else some p
  | .turnedOn u c => if u = t then (if p = .calling c then some .succeeded else none) else some p
  | .returned u err =>
      if u = t then
        (if err = .success then (if p = .succeeded then some .idle else none)
        else if p = .idle ∨ p = .succeeded then none else some .idle)
      else some p
  | _ => some p

/-- Where a caller is after these events, if they may happen. -/
def callAfter (t : ℕ) (log : List PowerEvent) : Option CallState :=
  log.foldlM (CallState.next t) .idle

namespace StartSys

variable {ν : Type}

/-- The caller has stored its configuration and not yet taken the pause back. -/
def Storing : StartTask → Prop
  | .resetStore _ => True
  | .resetForce _ => True
  | .offStore _ => True
  | _ => False

/-- A call stores its configuration only while the vCPU is off, and no other call is between its
store and its un-pause. -/
def Exclusive (s : StartSys ν) : StartAct → Prop
  | .caller t => ∀ c, s.call t = .setResetParameters c →
      s.isTurnedOnByGuest = false ∧ ∀ u, ¬Storing (s.call u)
  | _ => True

/-- The configuration of a call is stored, and its reset requested as far as it has got. -/
def Stored (s : StartSys ν) : StartTask → Prop
  | .resetStore c => s.config = c
  | .resetForce c => s.config = c ∧ s.reset.isRequestedBy .vmm = true
  | .offStore c => s.config = c ∧ s.reset.isRequestedBy .vmm = true ∧
      s.reset.needsReconfiguration = true
  | _ => True

/-- What the vCPU has to do next: where it waits, and on its way there, to wait. -/
def phaseOf (phase : ν → OwnPhase) : VcpuTask ν → OwnPhase
  | .waitIfExecPaused _ => .wait
  | .waitForSwitchOn _ => .wait
  | .own p => phase p
  | .running => .enter
  | .offForce => .wait

/-- Where it waits, it asks for the reset when it comes back. -/
def ChecksNext (phase : ν → OwnPhase) : VcpuTask ν → Prop
  | .waitIfExecPaused back => phase back = .check
  | .waitForSwitchOn back => phase back = .check
  | _ => True

/-- What the power says of the state. A vCPU that is off stays where it waits, while a call stores
its configuration. One that is on has the configuration of the call that turned it on, and until it
has started the reset is requested. -/
def PowerOk (phase : ν → OwnPhase) (s : StartSys ν) : Power → Prop
  | .off => s.isTurnedOnByGuest = false ∧ phaseOf phase s.vcpu = .wait ∧ ∀ t, s.Stored (s.call t)
  | .on c false => s.isTurnedOnByGuest = true ∧ (∀ t, ¬Storing (s.call t)) ∧ s.config = c ∧
      (phaseOf phase s.vcpu = .boot ∧ s.reset.needsReconfiguration = false ∨
        (phaseOf phase s.vcpu = .wait ∨ phaseOf phase s.vcpu = .check) ∧
          s.reset.isRequestedBy .vmm = true ∧ s.reset.needsReconfiguration = true)
  | .on c true => s.isTurnedOnByGuest = true ∧ (∀ t, ¬Storing (s.call t)) ∧ s.config = c ∧
      phaseOf phase s.vcpu ≠ .boot ∧ s.reset.needsReconfiguration = false

/-- Where the caller is, as its events say. -/
def callState : StartTask → CallState
  | .idle => .idle
  | .check c => .calling c
  | .lookup c => .calling c
  | .setResetParameters c => .calling c
  | .resetStore c => .calling c
  | .resetForce c => .calling c
  | .offStore c => .calling c
  | .offForce _ => .succeeded
  | .switchOn _ => .succeeded
  | .done c err => if err = .success then .succeeded else .calling c

/-- The events may happen, the state is as they say, and at most one call stores. -/
structure Sound (phase : ν → OwnPhase) (s : StartSys ν) : Prop where
  power : ∃ power, powerAfter s.log = some power ∧ s.PowerOk phase power
  back : ChecksNext phase s.vcpu
  storing : ∀ t u, Storing (s.call t) → Storing (s.call u) → t = u
  calls : ∀ t, callAfter t s.log = some (callState (s.call t))

variable {phase : ν → OwnPhase} {s s' : StartSys ν} {t : ℕ} {c : BootConfig} {p : StartTask}
  {power : Power}

theorem powerAfter_snoc {log : List PowerEvent} {e : PowerEvent} (h : powerAfter log = some power) :
    powerAfter (log ++ [e]) = power.next e := by
  rw [powerAfter] at h ⊢
  rw [List.foldlM_append, h]
  show (power.next e >>= pure) = power.next e
  exact bind_pure _

/-- An event that says nothing of the power. -/
theorem powerAfter_snoc_eq {log : List PowerEvent} {e : PowerEvent}
    (he : ∀ power : Power, power.next e = some power) (h : powerAfter log = some power) :
    powerAfter (log ++ [e]) = powerAfter log := by
  rw [powerAfter_snoc h, he, h]

theorem power_next_called (power : Power) : power.next (.called t c) = some power := by
  cases power with
  | off => rfl
  | on c started => cases started <;> rfl

theorem power_next_returned (power : Power) (err : StartErr) :
    power.next (.returned t err) = some power := by
  cases power with
  | off => rfl
  | on c started => cases started <;> rfl

theorem callAfter_snoc {log : List PowerEvent} {e : PowerEvent} {q : CallState}
    (h : callAfter t log = some q) : callAfter t (log ++ [e]) = CallState.next t q e := by
  rw [callAfter] at h ⊢
  rw [List.foldlM_append, h]
  show (CallState.next t q e >>= pure) = CallState.next t q e
  exact bind_pure _

/-- The event is not one of this caller. -/
def NotOf (t : ℕ) (e : PowerEvent) : Prop := ∀ q, CallState.next t q e = some q

theorem notOf_called {u : ℕ} (h : t ≠ u) : NotOf u (.called t c) := fun _ => if_neg h

theorem notOf_turnedOn {u : ℕ} (h : t ≠ u) : NotOf u (.turnedOn t c) := fun _ => if_neg h

theorem notOf_returned {u : ℕ} {err : StartErr} (h : t ≠ u) : NotOf u (.returned t err) :=
  fun _ => if_neg h

theorem stored_of_not_storing (h : ¬Storing p) : s.Stored p := by
  cases p with
  | resetStore c => exact absurd trivial h
  | resetForce c => exact absurd trivial h
  | offStore c => exact absurd trivial h
  | _ => trivial

/-- The power says the same of a state that is the same but for the callers and the place of the
vCPU, if the vCPU has the same to do next. -/
theorem PowerOk.congr (h : s.PowerOk phase power)
    (hon : s'.isTurnedOnByGuest = s.isTurnedOnByGuest)
    (hvcpu : phaseOf phase s'.vcpu = phaseOf phase s.vcpu) (hreset : s'.reset = s.reset)
    (hconfig : s'.config = s.config)
    (hstoring : ∀ t, Storing (s'.call t) → s'.call t = s.call t) : s'.PowerOk phase power := by
  have hnot (hnone : ∀ t, ¬Storing (s.call t)) (t : ℕ) : ¬Storing (s'.call t) := fun ht =>
    hnone t (hstoring t ht ▸ ht)
  match power with
  | .off =>
      refine ⟨hon.trans h.1, hvcpu.trans h.2.1, fun t => ?_⟩
      by_cases ht : Storing (s'.call t)
      · have hstored := h.2.2 t
        rw [← hstoring t ht] at hstored
        revert hstored
        cases s'.call t <;> simp only [Stored, hconfig, hreset] <;> exact fun hs => hs
      · exact stored_of_not_storing ht
  | .on c false =>
      rw [PowerOk, hon, hvcpu, hreset, hconfig]
      exact ⟨h.1, hnot h.2.1, h.2.2⟩
  | .on c true =>
      rw [PowerOk, hon, hvcpu, hreset, hconfig]
      exact ⟨h.1, hnot h.2.1, h.2.2⟩

theorem goOn_call_of_ne {u : ℕ} (h : u ≠ t) : (s.goOn t p).call u = s.call u :=
  Function.update_of_ne h ..

@[simp] theorem goOn_call_self : (s.goOn t p).call t = p := Function.update_self ..

theorem Sound.calls_goOn (h : s.Sound phase) (hp : callState p = callState (s.call t)) (u : ℕ) :
    callAfter u s.log = some (callState ((s.goOn t p).call u)) := by
  rw [h.calls u]
  by_cases hut : u = t
  · subst hut
    rw [goOn_call_self, hp]
  · rw [goOn_call_of_ne hut]

theorem Sound.calls_snoc (h : s.Sound phase) {e : PowerEvent} (hother : ∀ u, t ≠ u → NotOf u e)
    (hself : CallState.next t (callState (s.call t)) e = some (callState p)) (u : ℕ) :
    callAfter u (s.log ++ [e]) = some (callState ((s.goOn t p).call u)) := by
  rw [callAfter_snoc (h.calls u)]
  by_cases hut : u = t
  · subst hut
    rw [goOn_call_self, hself]
  · rw [goOn_call_of_ne hut]
    exact hother u (Ne.symm hut) _

theorem call_of_storing_goOn (hp : ¬Storing p) (u : ℕ) (hu : Storing ((s.goOn t p).call u)) :
    (s.goOn t p).call u = s.call u := by
  by_cases hut : u = t
  · subst hut
    rw [goOn_call_self] at hu
    exact absurd hu hp
  · exact goOn_call_of_ne hut

theorem Sound.goOn_log (h : s.Sound phase) (hp : ¬Storing p) {log : List PowerEvent}
    (hlog : powerAfter log = powerAfter s.log)
    (hcalls : ∀ u, callAfter u log = some (callState ((s.goOn t p).call u))) :
    ({ s.goOn t p with log := log } : StartSys ν).Sound phase := by
  have hstoring := @call_of_storing_goOn ν s t p hp
  obtain ⟨power, hafter, hok⟩ := h.power
  refine ⟨⟨power, hlog.trans hafter, hok.congr rfl rfl rfl rfl hstoring⟩, h.back,
    fun u v hu hv => ?_, hcalls⟩
  exact h.storing u v (hstoring u hu ▸ hu) (hstoring v hv ▸ hv)

theorem Sound.goOn (h : s.Sound phase) (hp : ¬Storing p)
    (hcall : callState p = callState (s.call t)) : (s.goOn t p).Sound phase :=
  h.goOn_log hp rfl (h.calls_goOn hcall)

theorem Sound.of_executionPaused (h : s.Sound phase) {f : CpuFlag} {sm : Signal}
    (hf : f.isRequestedBy .vmm = s.executionPaused.isRequestedBy .vmm) :
    ({ s with executionPaused := f, offSm := sm } : StartSys ν).Sound phase := by
  obtain ⟨power, hafter, hok⟩ := h.power
  exact ⟨⟨power, hafter, hok.congr (congrArg Bool.not hf) rfl rfl rfl fun _ _ => rfl⟩, h.back,
    h.storing, h.calls⟩

theorem Sound.off_of_storing (h : s.Sound phase) (ht : Storing (s.call t)) :
    powerAfter s.log = some .off ∧ s.PowerOk phase .off := by
  obtain ⟨power, hafter, hok⟩ := h.power
  match power with
  | .off => exact ⟨hafter, hok⟩
  | .on c false => exact absurd ht (hok.2.1 t)
  | .on c true => exact absurd ht (hok.2.1 t)

/-- While a call stores, the vCPU is off, and what the call has stored is there. -/
theorem Sound.stored_of_storing (h : s.Sound phase) (htask : s.call t = p) (hp : Storing p) :
    powerAfter s.log = some .off ∧ s.PowerOk phase .off ∧ s.Stored p := by
  subst htask
  obtain ⟨hafter, hoff⟩ := h.off_of_storing hp
  exact ⟨hafter, hoff, hoff.2.2 t⟩

theorem Sound.not_storing_of_ne (h : s.Sound phase) (ht : Storing (s.call t)) {u : ℕ} (hu : u ≠ t) :
    ¬Storing (s.call u) := fun hs => hu (h.storing u t hs ht)

/-- A caller that goes on storing, alone, leaves the vCPU off. -/
theorem Sound.goOn_storing (h : s.Sound phase) (hcall : callState p = callState (s.call t))
    (hoff : s.PowerOk phase .off) (hafter : powerAfter s.log = some .off)
    (hothers : ∀ u, u ≠ t → ¬Storing (s.call u))
    {config : BootConfig} {reset : CpuFlag}
    (hstored : ({ s.goOn t p with config := config, reset := reset } : StartSys ν).Stored p) :
    ({ s.goOn t p with config := config, reset := reset } : StartSys ν).Sound phase := by
  have hself (u : ℕ) (hu : Storing ((s.goOn t p).call u)) : u = t := by
    by_contra hut
    rw [goOn_call_of_ne hut] at hu
    exact hothers u hut hu
  refine ⟨⟨.off, hafter, hoff.1, hoff.2.1, fun u => ?_⟩, h.back, fun u v hu hv => ?_,
    h.calls_goOn hcall⟩
  · by_cases hu : Storing ((s.goOn t p).call u)
    · obtain rfl := hself u hu
      show StartSys.Stored _ ((s.goOn u p).call u)
      rw [goOn_call_self]
      exact hstored
    · exact stored_of_not_storing hu
  · exact (hself u hu).trans (hself v hv).symm

/-- **A turn of a caller.** -/
theorem Sound.callTurn {bus : MemBus} (h : s.Sound phase) (hexclusive : s.Exclusive (.caller t))
    (hturn : s.callTurn bus t = some s') : s'.Sound phase := by
  rw [StartSys.callTurn] at hturn
  cases htask : s.call t with
  | idle =>
      rw [htask] at hturn
      cases hturn
  | check c =>
      rw [htask] at hturn
      dsimp only at hturn
      split_ifs at hturn
      · obtain rfl := Option.some.inj hturn
        exact h.goOn (fun hp => hp) (congrArg callState htask).symm
      · obtain rfl := Option.some.inj hturn
        exact h.goOn (fun hp => hp) (congrArg callState htask).symm
  | lookup c =>
      rw [htask] at hturn
      dsimp only at hturn
      split_ifs at hturn
      · obtain rfl := Option.some.inj hturn
        exact h.goOn (fun hp => hp) (congrArg callState htask).symm
      · obtain rfl := Option.some.inj hturn
        exact h.goOn (fun hp => hp) (congrArg callState htask).symm
  | setResetParameters c =>
      rw [htask] at hturn
      obtain rfl := Option.some.inj hturn
      obtain ⟨hon, hnone⟩ := hexclusive c htask
      obtain ⟨power, hafter, hok⟩ := h.power
      have hoff : power = .off := by
        match power with
        | .off => rfl
        | .on c false => exact absurd (hon.symm.trans hok.1) nofun
        | .on c true => exact absurd (hon.symm.trans hok.1) nofun
      subst hoff
      exact @Sound.goOn_storing ν phase s t (.resetStore c) h (congrArg callState htask).symm hok
        hafter (fun u _ => hnone u) c _ rfl
  | resetStore c =>
      rw [htask] at hturn
      obtain rfl := Option.some.inj hturn
      have hstoring : Storing (s.call t) := htask ▸ trivial
      obtain ⟨hafter, hoff, hstored⟩ := h.stored_of_storing htask trivial
      refine @Sound.goOn_storing ν phase s t (.resetForce c) h (congrArg callState htask).symm hoff
        hafter (fun u => h.not_storing_of_ne hstoring) _ _ ⟨hstored, ?_⟩
      exact CpuFlag.isRequestedBy_store s.reset .vmm .vmm true
  | resetForce c =>
      rw [htask] at hturn
      obtain rfl := Option.some.inj hturn
      have hstoring : Storing (s.call t) := htask ▸ trivial
      obtain ⟨hafter, hoff, hstored⟩ := h.stored_of_storing htask trivial
      refine @Sound.goOn_storing ν phase s t (.offStore c) h (congrArg callState htask).symm hoff
        hafter (fun u => h.not_storing_of_ne hstoring) _ _ ⟨hstored.1, ?_, ?_⟩
      · exact (CpuFlag.isRequestedBy_forceReconfiguration s.reset .vmm).trans hstored.2
      · exact CpuFlag.needsReconfiguration_forceReconfiguration s.reset
  | offStore c =>
      rw [htask] at hturn
      obtain rfl := Option.some.inj hturn
      have hstoring : Storing (s.call t) := htask ▸ trivial
      obtain ⟨hafter, hoff, hstored⟩ := h.stored_of_storing htask trivial
      -- the one that stored is done with it
      have hnone (u : ℕ) : ¬Storing ((s.goOn t (.offForce c)).call u) := by
        by_cases hut : u = t
        · subst hut
          rw [goOn_call_self]
          exact fun hp => hp
        · rw [goOn_call_of_ne hut]
          exact h.not_storing_of_ne hstoring hut
      have hon : (s.executionPaused.store .vmm false).isRequestedBy .vmm = false :=
        CpuFlag.isRequestedBy_store s.executionPaused .vmm .vmm false
      refine ⟨⟨.on c false, powerAfter_snoc hafter, congrArg Bool.not hon, hnone, hstored.1,
        .inr ⟨.inl hoff.2.1, hstored.2⟩⟩, h.back, fun u v hu => absurd hu (hnone u), ?_⟩
      refine h.calls_snoc (fun u => notOf_turnedOn) ?_
      rw [htask, CallState.next, if_pos rfl, callState, if_pos rfl]
      rfl
  | offForce c =>
      rw [htask] at hturn
      obtain rfl := Option.some.inj hturn
      have hgo : (s.goOn t (.switchOn c)).Sound phase := h.goOn (fun hp => hp)
        (congrArg callState htask).symm
      exact hgo.of_executionPaused (CpuFlag.isRequestedBy_forceReconfiguration ..)
  | switchOn c =>
      rw [htask] at hturn
      obtain rfl := Option.some.inj hturn
      have hgo : (s.goOn t (.done c .success)).Sound phase := h.goOn (fun hp => hp)
        (congrArg callState htask).symm
      exact hgo.of_executionPaused rfl
  | done c err =>
      rw [htask] at hturn
      obtain rfl := Option.some.inj hturn
      obtain ⟨power, hafter, -⟩ := h.power
      refine @Sound.goOn_log ν phase s t .idle h (fun hp => hp) _
        (powerAfter_snoc_eq (fun power => power_next_returned power err) hafter)
        (h.calls_snoc (fun u => notOf_returned) ?_)
      rw [htask, CallState.next, if_pos rfl, callState]
      cases err <;> rfl

theorem Sound.power_of_phase (h : s.Sound phase) (hvcpu : phaseOf phase s.vcpu ≠ .wait) :
    ∃ c started, powerAfter s.log = some (.on c started) ∧ s.PowerOk phase (.on c started) := by
  obtain ⟨power, hafter, hok⟩ := h.power
  match power with
  | .off => exact absurd hok.2.1 hvcpu
  | .on c started => exact ⟨c, started, hafter, hok⟩

theorem Sound.power_of_enter (h : s.Sound phase) (hvcpu : phaseOf phase s.vcpu = .enter) :
    ∃ c, powerAfter s.log = some (.on c true) ∧ s.PowerOk phase (.on c true) := by
  obtain ⟨c, started, hafter, hok⟩ := h.power_of_phase (by rw [hvcpu]; nofun)
  match started with
  | false =>
      obtain ⟨-, -, -, ⟨hboot, -⟩ | ⟨hwait | hcheck, -⟩⟩ := hok
      · exact absurd (hvcpu.symm.trans hboot) nofun
      · exact absurd (hvcpu.symm.trans hwait) nofun
      · exact absurd (hvcpu.symm.trans hcheck) nofun
  | true => exact ⟨c, hafter, hok⟩

theorem Sound.vcpu_of_powerOk (h : s.Sound phase) {f reset : CpuFlag} {sm : Signal}
    {v : VcpuTask ν} {log : List PowerEvent} (hlog : ∀ t, callAfter t log = callAfter t s.log)
    (hback : ChecksNext phase v)
    (hpower : ∃ power, powerAfter log = some power ∧ ({ s with
      executionPaused := f, reset := reset, offSm := sm, vcpu := v, log := log } :
        StartSys ν).PowerOk phase power) :
    ({ s with executionPaused := f, reset := reset, offSm := sm, vcpu := v, log := log } :
      StartSys ν).Sound phase :=
  ⟨hpower, hback, h.storing, fun t => (hlog t).trans (h.calls t)⟩

theorem Sound.vcpu_of_phase (h : s.Sound phase) {f : CpuFlag} {sm : Signal} {v : VcpuTask ν}
    (hf : f.isRequestedBy .vmm = s.executionPaused.isRequestedBy .vmm)
    (hback : ChecksNext phase v) (hv : phaseOf phase v = phaseOf phase s.vcpu) :
    ({ s with executionPaused := f, offSm := sm, vcpu := v } : StartSys ν).Sound phase := by
  obtain ⟨power, hafter, hok⟩ := h.power
  exact h.vcpu_of_powerOk (fun _ => rfl) hback
    ⟨power, hafter, hok.congr (congrArg Bool.not hf) hv rfl rfl fun _ _ => rfl⟩

theorem Sound.callAfter_vcpu (h : s.Sound phase) {e : PowerEvent} (he : ∀ t, NotOf t e) (t : ℕ) :
    callAfter t (s.log ++ [e]) = callAfter t s.log := by
  rw [callAfter_snoc (h.calls t), he t, h.calls t]

/-- The vCPU leaves `wait_if_exec_paused` only if it is on. -/
theorem Sound.leavesWait (h : s.Sound phase) {back : ν}
    (hvcpu : s.vcpu = .waitIfExecPaused back) (hpaused : s.executionPaused.isRequested = false) :
    ({ s with vcpu := .own back } : StartSys ν).Sound phase := by
  have hback : phase back = .check := by
    have hback := h.back
    rw [hvcpu] at hback
    exact hback
  obtain ⟨power, hafter, hok⟩ := h.power
  refine h.vcpu_of_powerOk (fun _ => rfl) trivial ⟨power, hafter, ?_⟩
  match power with
  | .off =>
      have hbit := hok.1
      rw [CpuFlag.isRequested_eq, Bool.or_eq_false_iff] at hpaused
      rw [isTurnedOnByGuest, hpaused.1] at hbit
      cases hbit
  | .on c false =>
      obtain ⟨hon, hnone, hconfig, hboot | hreset⟩ := hok
      · rw [hvcpu] at hboot
        exact absurd hboot.1 nofun
      · exact ⟨hon, hnone, hconfig, .inr ⟨.inr hback, hreset.2⟩⟩
  | .on c true =>
      refine ⟨hok.1, hok.2.1, hok.2.2.1, ?_, hok.2.2.2.2⟩
      rw [phaseOf, hback]
      nofun

/-- The vCPU asks for the reset, and finds it new exactly if it has not started. -/
theorem Sound.checkReset (h : s.Sound phase) {go : Bool → Bool → ν}
    (hvcpu : phaseOf phase s.vcpu = .check)
    (hgo : ∀ changed enabled, phase (go changed enabled) =
      if changed && enabled then .boot else .enter) :
    (s.ownTurn (.checkReset go)).Sound phase := by
  obtain ⟨c, started, hafter, hok⟩ := h.power_of_phase (by rw [hvcpu]; nofun)
  refine h.vcpu_of_powerOk (fun _ => rfl) trivial ⟨.on c started, hafter, ?_⟩
  have hclean := CpuFlag.needsReconfiguration_clean s.reset
  match started with
  | false =>
      obtain ⟨hon, hnone, hconfig, hboot | ⟨-, hrequested, hnew⟩⟩ := hok
      · exact absurd (hvcpu.symm.trans hboot.1) nofun
      · refine ⟨hon, hnone, hconfig, .inl ⟨?_, hclean⟩⟩
        rw [phaseOf, hgo, CpuFlag.isRequested_eq, hrequested, hnew]
        rfl
  | true =>
      obtain ⟨hon, hnone, hconfig, -, hold⟩ := hok
      refine ⟨hon, hnone, hconfig, ?_, hclean⟩
      rw [phaseOf, hgo, hold]
      nofun

/-- The vCPU boots once, and with the configuration of the call that turned it on. -/
theorem Sound.boot (h : s.Sound phase) {p : ν} (hvcpu : phaseOf phase s.vcpu = .boot)
    (hp : phase p = .enter) : (s.ownTurn (.boot p)).Sound phase := by
  obtain ⟨c, started, hafter, hok⟩ := h.power_of_phase (by rw [hvcpu]; nofun)
  refine h.vcpu_of_powerOk (h.callAfter_vcpu fun _ _ => rfl) trivial ⟨.on c true, ?_⟩
  match started with
  | false =>
      obtain ⟨hon, hnone, hconfig, ⟨-, hclean⟩ | ⟨hwait | hcheck, -⟩⟩ := hok
      · refine ⟨(powerAfter_snoc hafter).trans ?_, hon, hnone, hconfig, ?_, hclean⟩
        · rw [Power.next, if_pos hconfig]
        · rw [phaseOf, hp]
          nofun
      · exact absurd (hvcpu.symm.trans hwait) nofun
      · exact absurd (hvcpu.symm.trans hcheck) nofun
  | true => exact absurd hvcpu hok.2.2.2.1

variable {loop : OwnLoop ν}

/-- **A turn of the loop.** -/
theorem Sound.ownTurn (h : s.Sound phase) (hloop : loop.Ordered phase) {p : ν}
    (hvcpu : s.vcpu = .own p) : (s.ownTurn (loop.turn p)).Sound phase := by
  have hphase : phaseOf phase s.vcpu = phase p := by rw [hvcpu, phaseOf]
  cases hturn : loop.turn p with
  | waitIfExecPaused back =>
      obtain ⟨hp, hback⟩ := hloop.waits p back hturn
      rw [← hphase] at hp
      obtain ⟨power, hafter, hok⟩ := h.power
      refine h.vcpu_of_powerOk (fun _ => rfl) hback ⟨power, hafter, ?_⟩
      match power with
      | .off => exact ⟨hok.1, rfl, hok.2.2⟩
      | .on c false =>
          obtain ⟨hon, hnone, hconfig, hboot | hreset⟩ := hok
          · exact absurd hboot.1 hp
          · exact ⟨hon, hnone, hconfig, .inr ⟨.inl rfl, hreset.2⟩⟩
      | .on c true => exact ⟨hok.1, hok.2.1, hok.2.2.1, nofun, hok.2.2.2.2⟩
  | checkReset go =>
      obtain ⟨hp, hgo⟩ := hloop.checks p go hturn
      exact h.checkReset (hphase.trans hp) hgo
  | boot q =>
      obtain ⟨hp, hq⟩ := hloop.boots p q hturn
      exact h.boot (hphase.trans hp) hq
  | enter =>
      obtain ⟨c, hafter, hok⟩ := h.power_of_enter (hphase.trans (hloop.enters p hturn))
      exact h.vcpu_of_powerOk (h.callAfter_vcpu fun _ _ => rfl) trivial
        ⟨.on c true, powerAfter_snoc hafter, hok.1, hok.2.1, hok.2.2.1, nofun, hok.2.2.2.2⟩
  | other q => exact h.vcpu_of_phase rfl trivial ((hloop.others p q hturn).trans hphase.symm)

/-- **A turn of the vCPU.** -/
theorem Sound.vcpuTurn (h : s.Sound phase) (hloop : loop.Ordered phase)
    (hturn : s.vcpuTurn loop = some s') : s'.Sound phase := by
  rw [StartSys.vcpuTurn] at hturn
  cases hvcpu : s.vcpu with
  | waitIfExecPaused back =>
      rw [hvcpu] at hturn
      dsimp only at hturn
      split_ifs at hturn with hpaused
      · obtain rfl := Option.some.inj hturn
        have hback := h.back
        rw [hvcpu] at hback
        exact h.vcpu_of_phase rfl hback (by rw [hvcpu, phaseOf, phaseOf])
      · obtain rfl := Option.some.inj hturn
        exact h.leavesWait hvcpu (Bool.eq_false_iff.2 hpaused)
  | waitForSwitchOn back =>
      rw [hvcpu] at hturn
      obtain ⟨sm, -, rfl⟩ := Option.map_eq_some_iff.1 hturn
      have hback := h.back
      rw [hvcpu] at hback
      exact h.vcpu_of_phase rfl hback (by rw [hvcpu, phaseOf, phaseOf])
  | own p =>
      rw [hvcpu] at hturn
      obtain rfl := Option.some.inj hturn
      exact h.ownTurn hloop hvcpu
  | running =>
      rw [hvcpu] at hturn
      cases hturn
  | offForce =>
      rw [hvcpu] at hturn
      obtain rfl := Option.some.inj hturn
      exact h.vcpu_of_phase (CpuFlag.isRequestedBy_forceReconfiguration s.executionPaused .vmm)
        trivial (by rw [hvcpu, phaseOf, phaseOf, hloop.entry])

/-- **A call or a turn.** -/
theorem Sound.next {bus : MemBus} {a : StartAct} (h : s.Sound phase) (hloop : loop.Ordered phase)
    (hexclusive : s.Exclusive a) (hnext : s.next loop bus a = some s') : s'.Sound phase := by
  cases a with
  | startCpu t c =>
      rw [StartSys.next] at hnext
      split_ifs at hnext with hidle
      obtain rfl := Option.some.inj hnext
      obtain ⟨power, hafter, -⟩ := h.power
      refine @Sound.goOn_log ν phase s t (.check c) h (fun hp => hp) _
        (powerAfter_snoc_eq power_next_called hafter)
        (h.calls_snoc (fun u => notOf_called) ?_)
      rw [hidle, CallState.next, if_pos rfl]
      rfl
  | caller t => exact h.callTurn hexclusive hnext
  | vcpu => exact h.vcpuTurn hloop hnext
  | exit =>
      rw [StartSys.next] at hnext
      cases hvcpu : s.vcpu with
      | running =>
          rw [hvcpu] at hnext
          obtain rfl := Option.some.inj hnext
          obtain ⟨c, hafter, hok⟩ := h.power_of_enter (by rw [hvcpu, phaseOf])
          refine h.vcpu_of_powerOk (fun _ => rfl) trivial
            ⟨.on c true, hafter, hok.1, hok.2.1, hok.2.2.1, ?_, hok.2.2.2.2⟩
          rw [phaseOf, hloop.entry]
          nofun
      | _ =>
          rw [hvcpu] at hnext
          cases hnext
  | cpuOff =>
      rw [StartSys.next] at hnext
      cases hvcpu : s.vcpu with
      | running =>
          rw [hvcpu] at hnext
          obtain rfl := Option.some.inj hnext
          obtain ⟨c, hafter, hok⟩ := h.power_of_enter (by rw [hvcpu, phaseOf])
          have hbit : (s.executionPaused.store .vmm true).isRequestedBy .vmm = true :=
            CpuFlag.isRequestedBy_store s.executionPaused .vmm .vmm true
          exact h.vcpu_of_powerOk (h.callAfter_vcpu fun _ _ => rfl) trivial
            ⟨.off, powerAfter_snoc hafter, congrArg Bool.not hbit, rfl,
              fun t => stored_of_not_storing (hok.2.1 t)⟩
      | _ =>
          rw [hvcpu] at hnext
          cases hnext
  | vmiRequest enable =>
      obtain rfl := Option.some.inj hnext
      exact h.of_executionPaused (CpuFlag.isRequestedBy_store s.executionPaused .vmi .vmm enable)
  | vmiSwitchOn =>
      obtain rfl := Option.some.inj hnext
      exact h.of_executionPaused rfl

theorem sound_init (hloop : loop.Ordered phase) (c : BootConfig) :
    (init loop c).Sound phase where
  power := by
    refine ⟨.off, rfl, ?_, hloop.entry, fun _ => trivial⟩
    show (!(⟨1⟩ : CpuFlag).isRequestedBy .vmm) = false
    decide
  back := trivial
  storing _ _ ht := absurd ht fun ht => ht
  calls _ := rfl

/-- **Starting is exclusive.** Whatever the loop of the vCPU is, if it keeps the order: in every run
in which a call stores its configuration only while the vCPU is off and no other call is between its
store and its un-pause, the vCPU is turned on by one call until it is turned off again, starts once
and with the configuration of that call before it enters the guest, and a call returns `SUCCESS`
exactly if it has turned the vCPU on. -/
theorem start_exclusive (loop : OwnLoop ν) (phase : ν → OwnPhase) (hloop : loop.Ordered phase)
    (bus : MemBus) (config : BootConfig) (acts : List StartAct) (s : StartSys ν)
    (h : Run (fun s a s' => Exclusive s a ∧ s.next loop bus a = some s') (init loop config) acts
      s) :
    powerAfter s.log ≠ none ∧ ∀ t, callAfter t s.log ≠ none := by
  have hsound : s.Sound phase :=
    h.invariant (fun _ _ _ hs hstep => hs.next hloop hstep.1 hstep.2) (sound_init hloop config)
  obtain ⟨power, hafter, -⟩ := hsound.power
  exact ⟨by rw [hafter]; nofun, fun t => by rw [hsound.calls t]; nofun⟩

/-- A loop that does nothing else. -/
def plainLoop : OwnLoop OwnPhase where
  turn
    | .wait => .waitIfExecPaused .check
    | .check => .checkReset fun changed enabled => if changed && enabled then .boot else .enter
    | .boot => .boot .enter
    | .enter => .enter
  entry := .wait

theorem plainLoop_ordered : plainLoop.Ordered fun p => p where
  entry := rfl
  waits p q h := by
    cases p with
    | wait => exact ⟨nofun, (OwnTurn.waitIfExecPaused.inj h).symm⟩
    | _ => cases h
  checks p go h := by
    cases p with
    | check => exact ⟨rfl, fun changed enabled => by rw [← OwnTurn.checkReset.inj h]⟩
    | _ => cases h
  boots p q h := by
    cases p with
    | boot => exact ⟨rfl, (OwnTurn.boot.inj h).symm⟩
    | _ => cases h
  enters p h := by
    cases p with
    | enter => rfl
    | _ => cases h
  others p q h := by cases p <;> cases h

/-- A page of memory at `0x10000000`. -/
def bootBus : MemBus := .setUp .allMem false MemBus.pageCalls

/-- The boot configurations of two calls. -/
def firstBoot : BootConfig := { bootAddr := 0x10000000, startMode := .bits32 }

def secondBoot : BootConfig := { bootAddr := 0x10000800 }

/-- The caller stores its configuration now. -/
def stores (s : StartSys ν) : StartAct → Bool
  | .caller t => match s.call t with
    | .setResetParameters _ => true
    | _ => false
  | _ => false

theorem exclusive_of_not_stores {a : StartAct} (h : s.stores a = false) : s.Exclusive a := by
  cases a with
  | caller t =>
      intro c hc
      rw [stores, hc] at h
      cases h
  | _ => trivial

/-- The step, if it does not store. -/
def nextUnstored (loop : OwnLoop ν) (s : StartSys ν) (a : StartAct) : Option (StartSys ν) :=
  if s.stores a then none else s.next loop bootBus a

theorem run_of_nextUnstored {acts : List StartAct}
    (h : acts.foldlM (nextUnstored loop) s = some s') :
    Run (fun s a s' => Exclusive s a ∧ s.next loop bootBus a = some s') s acts s' := by
  refine (Run.of_foldlM h).mono fun u a v hstep => ?_
  rw [nextUnstored] at hstep
  split_ifs at hstep with hstores
  exact ⟨exclusive_of_not_stores (Bool.eq_false_iff.2 hstores), hstep⟩

/-- Two calls come in. The first stores its configuration, alone, and turns the vCPU on; the second
finds it on. The vCPU starts, exits, enters the guest again and turns itself off. -/
def startAlone : List StartAct :=
  [.startCpu 0 firstBoot, .caller 0, .startCpu 1 secondBoot, .vcpu, .caller 0] ++ [.caller 0] ++
  [.caller 0, .caller 0, .vcpu, .caller 0, .caller 1, .caller 1, .caller 0, .caller 0, .vcpu,
    .vcpu, .vcpu, .vcpu, .vcpu, .caller 0, .exit, .vcpu, .vcpu, .vcpu, .vcpu, .cpuOff]

theorem start_exclusive_alone : ∃ s : StartSys OwnPhase,
    Run (fun s a s' => Exclusive s a ∧ s.next plainLoop bootBus a = some s') (init plainLoop {})
      startAlone s ∧
    s.log = [.called 0 firstBoot, .called 1 secondBoot, .turnedOn 0 firstBoot,
      .returned 1 .alreadyOn, .started firstBoot, .entered, .returned 0 .success, .entered,
      .turnedOff] ∧
    powerAfter s.log ≠ none ∧ ∀ t, callAfter t s.log ≠ none := by
  obtain ⟨s₁, s₂, s, h₁, h₂, hcall, hon, h₃, hlog⟩ : ∃ s₁ s₂ s,
      [.startCpu 0 firstBoot, .caller 0, .startCpu 1 secondBoot, .vcpu, .caller 0].foldlM
        (nextUnstored plainLoop) (init plainLoop {}) = some s₁ ∧
      s₁.next plainLoop bootBus (.caller 0) = some s₂ ∧
      s₁.call = Function.update (Function.update (Function.update _ 0 _) 1 (.check secondBoot)) 0
        (.setResetParameters firstBoot) ∧
      s₁.isTurnedOnByGuest = false ∧
      [.caller 0, .caller 0, .vcpu, .caller 0, .caller 1, .caller 1, .caller 0, .caller 0, .vcpu,
        .vcpu, .vcpu, .vcpu, .vcpu, .caller 0, .exit, .vcpu, .vcpu, .vcpu, .vcpu, .cpuOff].foldlM
        (nextUnstored plainLoop) s₂ = some s ∧
      s.log = [.called 0 firstBoot, .called 1 secondBoot, .turnedOn 0 firstBoot,
        .returned 1 .alreadyOn, .started firstBoot, .entered, .returned 0 .success, .entered,
        .turnedOff] := ⟨_, _, _, rfl, rfl, rfl, rfl, rfl, rfl⟩
  have hexclusive : Exclusive s₁ (.caller 0) := by
    refine fun c _ => ⟨hon, fun u hu => ?_⟩
    rw [hcall] at hu
    match u with
    | 0 => exact hu
    | 1 => exact hu
    | u + 2 => exact hu
  have hs := ((run_of_nextUnstored h₁).append (.snoc .nil ⟨hexclusive, h₂⟩)).append
    (run_of_nextUnstored h₃)
  exact ⟨s, hs, hlog,
    start_exclusive plainLoop (fun p => p) plainLoop_ordered bootBus {} startAlone s hs⟩

/-- Two callers find the vCPU off, and both store. -/
def startTwice : List StartAct :=
  [.startCpu 0 firstBoot, .startCpu 1 secondBoot, .caller 0, .caller 1, .caller 0, .caller 1,
    .caller 0, .caller 0, .caller 0, .caller 0, .caller 0, .caller 0, .caller 0,
    .caller 1, .caller 1, .caller 1, .caller 1, .caller 1, .caller 1, .caller 1,
    .vcpu, .vcpu, .vcpu, .vcpu, .vcpu]

/-- **Two calls succeed**, and the vCPU starts with the configuration of the second. -/
theorem start_twice : ∃ s : StartSys OwnPhase,
    Run (fun s a s' => s.next plainLoop bootBus a = some s') (init plainLoop {}) startTwice s ∧
    s.log = [.called 0 firstBoot, .called 1 secondBoot, .turnedOn 0 firstBoot, .returned 0 .success,
      .turnedOn 1 secondBoot, .returned 1 .success, .started secondBoot, .entered] ∧
    powerAfter s.log = none := by
  obtain ⟨s, hs, hlog⟩ : ∃ s,
      startTwice.foldlM (StartSys.next plainLoop bootBus) (init plainLoop {}) = some s ∧
      s.log = [.called 0 firstBoot, .called 1 secondBoot, .turnedOn 0 firstBoot,
        .returned 0 .success, .turnedOn 1 secondBoot, .returned 1 .success,
        .started secondBoot, .entered] := ⟨_, rfl, rfl⟩
  exact ⟨s, Run.of_foldlM hs, hlog, by rw [hlog]; decide⟩

end StartSys

end Vml
