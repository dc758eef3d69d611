import Vml.CpuState
import Vml.Lib.Run
import Vml.Lib.Threads
import Vml.Platform

/-!
# Round-ups

The round-up stops every vCPU of the machine: a vCPU that is off or on is stopped by a recall, and
one that emulates is waited for. Any number of threads call `roundup` and `resume`, and vCPUs that
emulate call `roundup_from_vcpu` and `resume_from_vcpu`, or `roundup_parallel` and
`resume_parallel`, while all vCPUs begin and end emulations, are paused and go on.

Every access to a state, a counter, a signal, a semaphore or the mutex is a turn of its own
(`RoundupSys.next`). The points of the program are those of the switches of a vCPU (`SwitchPoint`),
of a round-up (`CallPoint`) and of a parallel round-up (`ParallelPoint`).

**Counters** are natural numbers, as none gets beyond the number of vCPUs, which has 16 bits. A
count of a semaphore is the list of its releases, each with the round of who released it.
-/

namespace Vml

/-- Who takes turns: the vCPUs, and threads that are none. -/
inductive RoundupThread (n : ℕ)
  | vcpu (i : Fin n)
  | external (e : ℕ)
  deriving DecidableEq

/-- `roundup`, `roundup_from_vcpu`, or the one that `roundup_parallel` makes. -/
inductive RoundupCall
  | external
  | fromVcpu
  | parallel
  deriving DecidableEq, Repr

/-- Who calls `yield`: `roundup_from_vcpu`, or the first or a later call of `roundup_parallel`. -/
inductive Yielder
  | fromVcpu
  | leader
  | follower
  deriving DecidableEq, Repr

/-- Why a vCPU calls `switch_state_to_on`. -/
inductive OnCause
  | startup
  | unpaused
  | emulated
  deriving DecidableEq, Repr

/-- Who calls `vcpu_notify_done_progressing`. -/
inductive Notifier
  | emulated
  | yielded (y : Yielder)
  /-- `roundup_impl` of the vCPU `k`. -/
  | roundedup (c : RoundupCall) (k : ℕ)
  deriving DecidableEq, Repr

/-- Where a vCPU is that switches its state. -/
inductive SwitchPoint
  /-- In the guest, or in the VMM without emulating. -/
  | running
  /-- `wait_if_exec_paused`. -/
  | waitIfExecPaused
  /-- `switch_state_to_off`. -/
  | offLoad
  | offCas (cur : CpuState)
  | waitForSwitchOn
  /-- `switch_state_to_on`. -/
  | onLoad (cause : OnCause)
  | onCas (cause : OnCause) (cur : CpuState)
  /-- `switch_state_to_emulating`. -/
  | emulatingLoad
  | emulatingCas (cur : CpuState)
  | waitForResume
  | emulating
  deriving DecidableEq, Repr

/-- Where a thread is that calls a round-up. -/
inductive CallPoint
  /-- A thread that is no vCPU is in no call. -/
  | away
  /-- `yield`. -/
  | yield (y : Yielder)
  /-- `vcpu_notify_done_progressing`. -/
  | notify (a : Notifier)
  | signalEmulationEnd (a : Notifier)
  /-- `_waiter_mutex.enter`. -/
  | enter (c : RoundupCall)
  /-- `roundup_all`. -/
  | roundupLoad (c : RoundupCall) (k : ℕ)
  | roundupCas (c : RoundupCall) (k : ℕ) (cur : CpuState)
  /-- `do_roundup`. -/
  | checkProgressing (c : RoundupCall)
  | waitForEmulationEnd (c : RoundupCall)
  /-- The round-up has returned. -/
  | roundedup (c : RoundupCall)
  /-- `end_roundup`. -/
  | unyield (c : RoundupCall)
  | loadWaiters (c : RoundupCall)
  | storeProgressing (c : RoundupCall) (numWaiters : ℕ)
  /-- `resume_all`. -/
  | resumeLoad (c : RoundupCall) (k : ℕ)
  | resumeCas (c : RoundupCall) (k : ℕ) (cur : CpuState)
  | resumeVcpu (c : RoundupCall) (k : ℕ)
  /-- `_waiter_mutex.exit`. -/
  | exit (c : RoundupCall)
  deriving DecidableEq, Repr

/-- Where a vCPU is that calls a parallel round-up. -/
inductive ParallelPoint
  /-- `roundup_parallel`. -/
  | addCount
  | loadCount
  | storeNumWaiters (parallelCallers : ℕ)
  | releaseCount (parallelCallers : ℕ)
  | acquireCount
  | unyield
  /-- The parallel round-up has returned. -/
  | roundedup
  /-- `resume_parallel`. -/
  | subCount
  | acquireResumeWaiter
  | releaseResumeWaiter
  | decNumWaiters
  deriving DecidableEq, Repr

/-- Where a thread is. -/
inductive RoundupPoint
  | switch (p : SwitchPoint)
  | call (p : CallPoint)
  | parallel (p : ParallelPoint)
  deriving DecidableEq, Repr

/-- What the threads share. The last three are history variables: the number of rounds of parallel
calls, the one in which a vCPU has called last, and how often a round has been resumed. -/
structure RoundupInfo (n : ℕ) where
  state : Fin n → CpuState := fun _ => .off
  executionPaused : Fin n → Bool := fun _ => true
  offSm : Fin n → Signal := fun _ => {}
  resumeSig : Fin n → Signal := fun _ => {}
  vcpusProgressing : ℕ := n
  vcpuWaiters : ℕ := 0
  waiterMutex : Bool := false
  sigEmulating : Signal := {}
  count : ℕ := 0
  numWaiters : ℕ := 0
  countSem : List ℕ := []
  resumeWaiterSem : List ℕ := []
  /-- An `ABORT_WITH` or an `ASSERT` has been reached. -/
  failed : Bool := false
  round : ℕ := 0
  roundOf : Fin n → ℕ := fun _ => 0
  resumes : ℕ → ℕ := fun _ => 0

/-- The threads of a machine with `n` vCPUs. -/
abbrev RoundupSys (n : ℕ) := Threads (RoundupInfo n) (RoundupThread n) RoundupPoint

/-- A call, a turn, or the guest and the introspection that pause a vCPU and switch it on. -/
inductive RoundupAct (n : ℕ)
  | beginEmulation (i : Fin n)
  | endEmulation (i : Fin n)
  | roundup (e : ℕ)
  | resume (e : ℕ)
  | roundupFromVcpu (i : Fin n)
  | resumeFromVcpu (i : Fin n)
  | roundupParallel (i : Fin n)
  | resumeParallel (i : Fin n)
  | turn (t : RoundupThread n)
  | pause (i : Fin n) (paused : Bool)
  | switchOn (i : Fin n)
  deriving DecidableEq

/-- Where a vCPU goes on after `switch_state_to_on`. -/
def OnCause.after : OnCause → SwitchPoint
  | startup => .running
  | unpaused => .waitIfExecPaused
  | emulated => .running

/-- Where a thread goes on after `vcpu_notify_done_progressing`. -/
def Notifier.after : Notifier → RoundupPoint
  | emulated => .switch .running
  | yielded .fromVcpu => .call (.enter .fromVcpu)
  | yielded .leader => .call (.enter .parallel)
  | yielded .follower => .parallel .acquireCount
  | roundedup c k => .call (.roundupLoad c (k + 1))

/-- Where `do_roundup` returns to. -/
def RoundupCall.afterRoundup : RoundupCall → RoundupPoint
  | parallel => .parallel .loadCount
  | c => .call (.roundedup c)

/-- Where a thread goes on after the mutex. -/
def RoundupCall.afterResume : RoundupCall → RoundupPoint
  | external => .call .away
  | fromVcpu => .switch .emulating
  | parallel => .parallel .releaseResumeWaiter

/-- The vCPUs of a machine with two. -/
abbrev vcpuZero : Fin 2 := ⟨0, Nat.two_pos⟩

/-- The second of them. -/
abbrev vcpuOne : Fin 2 := ⟨1, Nat.one_lt_two⟩

namespace RoundupSys

variable {n : ℕ}

/-- All vCPUs are off, and are to be switched on. -/
def init : RoundupSys n where
  shared := {}
  task
    | .vcpu _ => .switch (.onLoad .startup)
    | .external _ => .call .away

/-- An `ABORT_WITH` or an `ASSERT`. -/
def fail (s : RoundupSys n) : RoundupSys n := { s with shared := { s.shared with failed := true } }

/-- Store the state of a vCPU. -/
def setState (s : RoundupSys n) (i : Fin n) (state : CpuState) : RoundupInfo n :=
  { s.shared with state := Function.update s.shared.state i state }

/-- A turn of a vCPU that switches its state. -/
def switchTurn (s : RoundupSys n) (i : Fin n) : SwitchPoint → Option (RoundupSys n)
  | .running => none
  | .waitIfExecPaused =>
      if s.shared.executionPaused i then some (s.goOn (.vcpu i) s.shared (.switch .offLoad))
      else some (s.goOn (.vcpu i) s.shared (.switch .emulatingLoad))
  | .offLoad => some (s.goOn (.vcpu i) s.shared (.switch (.offCas (s.shared.state i))))
  | .offCas cur =>
      match cur.switchedOff with
      | none => some s.fail
      | some state =>
          if s.shared.state i = cur then
            some (s.goOn (.vcpu i) (s.setState i state) (.switch .waitForSwitchOn))
          else some (s.goOn (.vcpu i) s.shared (.switch (.offCas (s.shared.state i))))
  | .waitForSwitchOn => (s.shared.offSm i).wait.map fun sm =>
      s.goOn (.vcpu i) { s.shared with offSm := Function.update s.shared.offSm i sm }
        (.switch (.onLoad .unpaused))
  | .onLoad cause => some (s.goOn (.vcpu i) s.shared (.switch (.onCas cause (s.shared.state i))))
  | .onCas cause cur =>
      match cur.switchedOn with
      | none => some s.fail
      | some state =>
          if s.shared.state i = cur then
            if cur = .emulateRoundedup then
              some (s.goOn (.vcpu i) (s.setState i state) (.call (.notify .emulated)))
            else some (s.goOn (.vcpu i) (s.setState i state) (.switch cause.after))
          else some (s.goOn (.vcpu i) s.shared (.switch (.onCas cause (s.shared.state i))))
  | .emulatingLoad =>
      match s.shared.state i with
      | .onRoundedup => some (s.goOn (.vcpu i) s.shared (.switch .waitForResume))
      | .on => some (s.goOn (.vcpu i) s.shared (.switch (.emulatingCas .on)))
      | _ => some s.fail
  | .emulatingCas cur =>
      if s.shared.state i = cur then
        some (s.goOn (.vcpu i) (s.setState i .emulate) (.switch .emulating))
      else if s.shared.state i = .onRoundedup then
        some (s.goOn (.vcpu i) s.shared (.switch .waitForResume))
      else some s.fail
  | .waitForResume => (s.shared.resumeSig i).wait.map fun sm =>
      s.goOn (.vcpu i) { s.shared with resumeSig := Function.update s.shared.resumeSig i sm }
        (.switch .waitIfExecPaused)
  | .emulating => none

/-- A turn of a thread that calls a round-up. -/
def callTurn (s : RoundupSys n) (t : RoundupThread n) : CallPoint → Option (RoundupSys n)
  | .away => none
  | .yield y => some (s.goOn t { s.shared with vcpuWaiters := s.shared.vcpuWaiters + 1 }
      (.call (.notify (.yielded y))))
  | .notify a =>
      if s.shared.vcpusProgressing = 0 then some s.fail
      else some (s.goOn t { s.shared with vcpusProgressing := s.shared.vcpusProgressing - 1 }
        (if s.shared.vcpusProgressing = 1 then .call (.signalEmulationEnd a) else a.after))
  | .signalEmulationEnd a =>
      some (s.goOn t { s.shared with sigEmulating := s.shared.sigEmulating.sig } a.after)
  | .enter c =>
      if s.shared.waiterMutex then none
      else some (s.goOn t { s.shared with waiterMutex := true } (.call (.roundupLoad c 0)))
  | .roundupLoad c k =>
      if h : k < n then some (s.goOn t s.shared (.call (.roundupCas c k (s.shared.state ⟨k, h⟩))))
      else some (s.goOn t s.shared (.call (.checkProgressing c)))
  | .roundupCas c k cur =>
      if h : k < n then
        match cur.roundedup with
        | none => some s.fail
        | some state =>
            if s.shared.state ⟨k, h⟩ = cur then
              some (s.goOn t (s.setState ⟨k, h⟩ state)
                (if cur = .emulate then .call (.roundupLoad c (k + 1))
                else .call (.notify (.roundedup c k))))
            else some (s.goOn t s.shared (.call (.roundupCas c k (s.shared.state ⟨k, h⟩))))
      else none
  | .checkProgressing c =>
      if s.shared.vcpusProgressing = 0 then some (s.goOn t s.shared c.afterRoundup)
      else some (s.goOn t s.shared (.call (.waitForEmulationEnd c)))
  | .waitForEmulationEnd c => s.shared.sigEmulating.wait.map fun sm =>
      s.goOn t { s.shared with sigEmulating := sm } (.call (.checkProgressing c))
  | .roundedup _ => none
  | .unyield c =>
      if s.shared.vcpuWaiters = 0 then some s.fail
      else some (s.goOn t { s.shared with vcpuWaiters := s.shared.vcpuWaiters - 1 }
        (.call (.loadWaiters c)))
  | .loadWaiters c =>
      if s.shared.vcpuWaiters ≤ n then
        some (s.goOn t s.shared (.call (.storeProgressing c s.shared.vcpuWaiters)))
      else some s.fail
  | .storeProgressing c numWaiters =>
      some (s.goOn t { s.shared with vcpusProgressing := n - numWaiters } (.call (.resumeLoad c 0)))
  | .resumeLoad c k =>
      if h : k < n then some (s.goOn t s.shared (.call (.resumeCas c k (s.shared.state ⟨k, h⟩))))
      else some (s.goOn t s.shared (.call (.exit c)))
  | .resumeCas c k cur =>
      if h : k < n then
        match cur.resumed with
        | none => some s.fail
        | some state =>
            if s.shared.state ⟨k, h⟩ = cur then
              some (s.goOn t (s.setState ⟨k, h⟩ state) (.call (.resumeVcpu c k)))
            else some (s.goOn t s.shared (.call (.resumeCas c k (s.shared.state ⟨k, h⟩))))
      else none
  | .resumeVcpu c k =>
      if h : k < n then
        some (s.goOn t { s.shared with
          resumeSig := Function.update s.shared.resumeSig ⟨k, h⟩ (s.shared.resumeSig ⟨k, h⟩).sig }
            (.call (.resumeLoad c (k + 1))))
      else none
  | .exit c => some (s.goOn t { s.shared with waiterMutex := false } c.afterResume)

/-- A turn of a vCPU that calls a parallel round-up. The first call begins a round. -/
def parallelTurn (s : RoundupSys n) (i : Fin n) : ParallelPoint → Option (RoundupSys n)
  | .addCount =>
      if s.shared.count = 0 then
        some (s.goOn (.vcpu i) { s.shared with
          count := s.shared.count + 1
          round := s.shared.round + 1
          roundOf := Function.update s.shared.roundOf i (s.shared.round + 1) }
            (.call (.yield .leader)))
      else some (s.goOn (.vcpu i) { s.shared with
        count := s.shared.count + 1
        roundOf := Function.update s.shared.roundOf i s.shared.round } (.call (.yield .follower)))
  | .loadCount =>
      some (s.goOn (.vcpu i) s.shared (.parallel (.storeNumWaiters (s.shared.count - 1))))
  | .storeNumWaiters parallelCallers =>
      some (s.goOn (.vcpu i) { s.shared with numWaiters := parallelCallers }
        (.parallel (.releaseCount parallelCallers)))
  | .releaseCount 0 => some (s.goOn (.vcpu i) s.shared (.parallel .roundedup))
  | .releaseCount (parallelCallers + 1) =>
      some (s.goOn (.vcpu i) { s.shared with
        countSem := s.shared.countSem ++ [s.shared.roundOf i] }
          (.parallel (.releaseCount parallelCallers)))
  | .acquireCount =>
      match s.shared.countSem with
      | [] => none
      | _ :: countSem => some (s.goOn (.vcpu i) { s.shared with countSem } (.parallel .unyield))
  | .unyield =>
      if s.shared.vcpuWaiters = 0 then some s.fail
      else some (s.goOn (.vcpu i) { s.shared with vcpuWaiters := s.shared.vcpuWaiters - 1 }
        (.parallel .roundedup))
  | .roundedup => none
  | .subCount =>
      if s.shared.count - 1 = 0 then
        some (s.goOn (.vcpu i) { s.shared with
          count := s.shared.count - 1
          resumes := Function.update s.shared.resumes (s.shared.roundOf i)
            (s.shared.resumes (s.shared.roundOf i) + 1) } (.call (.unyield .parallel)))
      else some (s.goOn (.vcpu i) { s.shared with count := s.shared.count - 1 }
        (.parallel .acquireResumeWaiter))
  | .acquireResumeWaiter =>
      match s.shared.resumeWaiterSem with
      | [] => none
      | _ :: resumeWaiterSem =>
          some (s.goOn (.vcpu i) { s.shared with resumeWaiterSem } (.switch .emulating))
  | .releaseResumeWaiter =>
      if 0 < s.shared.numWaiters then
        some (s.goOn (.vcpu i) { s.shared with
          resumeWaiterSem := s.shared.resumeWaiterSem ++ [s.shared.roundOf i] }
            (.parallel .decNumWaiters))
      else some (s.goOn (.vcpu i) s.shared (.switch .emulating))
  | .decNumWaiters => some (s.goOn (.vcpu i) { s.shared with numWaiters := s.shared.numWaiters - 1 }
      (.parallel .releaseResumeWaiter))

/-- A turn. -/
def turn (s : RoundupSys n) (t : RoundupThread n) : Option (RoundupSys n) :=
  match s.task t, t with
  | .switch p, .vcpu i => s.switchTurn i p
  | .call p, t => s.callTurn t p
  | .parallel p, .vcpu i => s.parallelTurn i p
  | _, _ => none

/-- A thread that is at this point goes on at that one. -/
def leave (s : RoundupSys n) (t : RoundupThread n) (p p' : RoundupPoint) : Option (RoundupSys n) :=
  if s.task t = p then some (s.goOn t s.shared p') else none

/-- The call, or the turn. -/
def next (s : RoundupSys n) : RoundupAct n → Option (RoundupSys n)
  | .beginEmulation i => s.leave (.vcpu i) (.switch .running) (.switch .waitIfExecPaused)
  | .endEmulation i => s.leave (.vcpu i) (.switch .emulating) (.switch (.onLoad .emulated))
  | .roundup e => s.leave (.external e) (.call .away) (.call (.enter .external))
  | .resume e =>
      s.leave (.external e) (.call (.roundedup .external)) (.call (.loadWaiters .external))
  | .roundupFromVcpu i => s.leave (.vcpu i) (.switch .emulating) (.call (.yield .fromVcpu))
  | .resumeFromVcpu i =>
      s.leave (.vcpu i) (.call (.roundedup .fromVcpu)) (.call (.unyield .fromVcpu))
  | .roundupParallel i => s.leave (.vcpu i) (.switch .emulating) (.parallel .addCount)
  | .resumeParallel i =>
      if s.shared.count = 0 then
        (s.leave (.vcpu i) (.parallel .roundedup) (.parallel .roundedup)).map fail
      else s.leave (.vcpu i) (.parallel .roundedup) (.parallel .subCount)
  | .turn t => s.turn t
  | .pause i paused => some { s with shared := { s.shared with
      executionPaused := Function.update s.shared.executionPaused i paused } }
  | .switchOn i => some { s with shared := { s.shared with
      offSm := Function.update s.shared.offSm i (s.shared.offSm i).sig } }

end RoundupSys

end Vml
