import Vml.CpuFeature
import Vml.Roundup

/-!
# No vCPU sleeps through its resume

A vCPU sleeps in `wait_for_resume` when it has found a round-up in its way, and in
`wait_for_switch_on` when it has found that a requestor asks for a pause (`cpu.hpp`,
`cpu_model.cpp`). What it sleeps on is a signal, which a resumption sends after it has changed the
state, and `ctrl_feature_off` after it has changed the request.

**The system** is that of the round-ups, in which all the vCPUs of a machine begin and end
emulations and any number of threads round them up and resume them, with requestors that call
`ctrl_feature_off` (`PauseSys`). Each access to the flag of the requests is a turn of its own.

**The wake-up.** A vCPU that is asleep, or has made up its mind to sleep, is woken up, as its signal
is pending; or it still has to sleep; or some thread is about to send the signal (`Wakeup`,
`RoundupSys.Settles`). A signal of an earlier round may wake it up early, and it looks again.

Main result: `PauseSys.never_sleeps_through`.
-/

namespace Vml

/-! ## Requests for a pause -/

/-- Where a requestor is in `ctrl_feature_off`. -/
inductive PausePoint (n : ℕ)
  | idle
  /-- The `fetch_or` or the `fetch_and` of `request`. -/
  | store (i : Fin n) (enable : Bool) (r : Requestor)
  /-- `force_reconfiguration`. -/
  | force (i : Fin n) (enable : Bool)
  | switchOn (i : Fin n)
  | recallVcpu (i : Fin n)
  deriving DecidableEq

/-- The machine, `_execution_paused` of each vCPU, and the threads of the requestors. -/
structure PauseSys (n : ℕ) where
  machine : RoundupSys n
  flag : Fin n → CpuFlag := fun _ => {}
  request : ℕ → PausePoint n := fun _ => .idle

/-- A call or a turn of the machine, or of the thread `e` of a requestor. -/
inductive PauseAct (n : ℕ)
  | machine (a : RoundupAct n)
  | ctrlFeatureOff (e : ℕ) (i : Fin n) (enable : Bool) (r : Requestor)
  | requestor (e : ℕ)
  deriving DecidableEq

/-- The act is one of the machine, and not what the requestors make of it. -/
def RoundupAct.isOwn {n : ℕ} : RoundupAct n → Bool
  | .pause _ _ => false
  | .switchOn _ => false
  | _ => true

namespace PauseSys

variable {n : ℕ}

/-- All vCPUs are off, and none is asked to pause. -/
def init : PauseSys n where
  machine := { RoundupSys.init with shared := { executionPaused := fun _ => false } }

/-- The requestor goes on. -/
def goAt (s : PauseSys n) (e : ℕ) (p : PausePoint n) : PauseSys n :=
  { s with request := Function.update s.request e p }

/-- A turn of a requestor. -/
def requestTurn (s : PauseSys n) (e : ℕ) : PausePoint n → Option (PauseSys n)
  | .idle => none
  | .store i enable r =>
      let flag := (s.flag i).store r enable
      (s.machine.next (.pause i flag.isRequested)).map fun machine =>
        { machine, flag := Function.update s.flag i flag,
          request := Function.update s.request e (.force i enable) }
  | .force i enable =>
      some { s with
        flag := Function.update s.flag i (s.flag i).forceReconfiguration
        request := Function.update s.request e (if enable then .recallVcpu i else .switchOn i) }
  | .switchOn i =>
      (s.machine.next (.switchOn i)).map fun machine => { s.goAt e .idle with machine }
  | .recallVcpu _ => some (s.goAt e .idle)

/-- The call, or the turn. -/
def next (s : PauseSys n) : PauseAct n → Option (PauseSys n)
  | .machine a =>
      if a.isOwn then (s.machine.next a).map fun machine => { s with machine } else none
  | .ctrlFeatureOff e i enable r =>
      if s.request e = .idle then some (s.goAt e (.store i enable r)) else none
  | .requestor e => s.requestTurn e (s.request e)

end PauseSys

/-! ## Sleeping -/

/-- `OFF_ROUNDEDUP`, `ON_ROUNDEDUP` or `EMULATE_ROUNDEDUP`. -/
def CpuState.isRoundedup : CpuState → Bool
  | offRoundedup => true
  | onRoundedup => true
  | emulateRoundedup => true
  | _ => false

/-- The thread is in `resume_all`. -/
def RoundupPoint.inResumeAll : RoundupPoint → Bool
  | .call (.resumeLoad _ _) => true
  | .call (.resumeCas _ _ _) => true
  | .call (.resumeVcpu _ _) => true
  | _ => false

namespace PauseSys

variable {n : ℕ}

/-- No thread resumes the vCPUs, and no requestor is in a call. -/
def Quiet (s : PauseSys n) : Prop :=
  (∀ t, (s.machine.task t).inResumeAll = false) ∧ ∀ e, s.request e = .idle

/-- The vCPU is blocked although it has been resumed, or nobody asks it to pause any more. -/
def SleepsThrough (s : PauseSys n) (i : Fin n) : Prop :=
  s.machine.task (.vcpu i) = .switch .waitForResume ∧
      (s.machine.shared.resumeSig i).signaled = false ∧
      (s.machine.shared.state i).isRoundedup = false ∨
    s.machine.task (.vcpu i) = .switch .waitForSwitchOn ∧
      (s.machine.shared.offSm i).signaled = false ∧
      ∀ r, (s.flag i).isRequestedBy r = false

end PauseSys

/-! ## Wake-ups -/

/-- What a vCPU sleeps for. -/
inductive Wakeup
  | resume
  | switchOn

namespace Wakeup

variable {n : ℕ}

/-- The vCPU is to be asleep, or its signal is pending. -/
def Paid (i : Fin n) (info : RoundupInfo n) : Wakeup → Prop
  | resume => (info.resumeSig i).signaled = true ∨ (info.state i).isRoundedup = true
  | switchOn => (info.offSm i).signaled = true ∨ info.executionPaused i = true

/-- The vCPU is asleep, or has made up its mind to sleep. -/
def asleep : Wakeup → RoundupPoint → Bool
  | resume, .switch .waitForResume => true
  | switchOn, .switch .offLoad => true
  | switchOn, .switch (.offCas _) => true
  | switchOn, .switch .waitForSwitchOn => true
  | _, _ => false

/-- The thread is about to send the signal, or is the vCPU and not asleep. -/
def Owes (i : Fin n) (t : RoundupThread n) (p : RoundupPoint) (w : Wakeup) : Prop :=
  t = .vcpu i ∧ w.asleep p = false ∨ ∃ c, w = resume ∧ p = .call (.resumeVcpu c i)

end Wakeup

namespace RoundupSys

variable {n : ℕ}

/-- The vCPU is to be asleep, or its signal is pending, or some thread is about to send it. -/
def Settles (i : Fin n) (s : RoundupSys n) (w : Wakeup) : Prop :=
  w.Paid i s.shared ∨ ∃ t, w.Owes i t (s.task t)

/-- What a turn of `t` does to the wake-ups. -/
structure TurnKeeps (s : RoundupSys n) (t : RoundupThread n) (info : RoundupInfo n)
    (p : RoundupPoint) : Prop where
  executionPaused : info.executionPaused = s.shared.executionPaused
  paid : ∀ i (w : Wakeup), w.Paid i s.shared → w.Paid i info ∨ w.Owes i t p
  owes : ∀ i (w : Wakeup), w.Owes i t (s.task t) → w.Paid i info ∨ w.Owes i t p

/-- A step is a turn of some thread that keeps the wake-ups. -/
def StepKeeps (s s' : RoundupSys n) : Prop :=
  ∃ t info p, s' = s.goOn t info p ∧ TurnKeeps s t info p

variable {s s' : RoundupSys n} {t : RoundupThread n} {info : RoundupInfo n} {p q : RoundupPoint}

/-! ## Turns that leave the signals alone -/

/-- What changes neither the signals nor the states nor the requests. -/
structure SameSignals (s : RoundupSys n) (info : RoundupInfo n) : Prop where
  resumeSig : info.resumeSig = s.shared.resumeSig
  state : info.state = s.shared.state
  offSm : info.offSm = s.shared.offSm
  executionPaused : info.executionPaused = s.shared.executionPaused

theorem SameSignals.paid (h : SameSignals s info) {i : Fin n} {w : Wakeup}
    (hpaid : w.Paid i s.shared) : w.Paid i info := by
  cases w with
  | resume =>
    rw [Wakeup.Paid, h.resumeSig, h.state]
    exact hpaid
  | switchOn =>
    rw [Wakeup.Paid, h.offSm, h.executionPaused]
    exact hpaid

/-- The point is no place to sleep, nor one to send the signal from. -/
def Restless (p : RoundupPoint) : Prop := ∀ w : Wakeup, w.asleep p = false

theorem restless_call (p : CallPoint) : Restless (.call p) := by
  intro w
  cases w <;> rfl

theorem restless_parallel (p : ParallelPoint) : Restless (.parallel p) := by
  intro w
  cases w <;> rfl

theorem restless_onLoad (cause : OnCause) : Restless (.switch (.onLoad cause)) := by
  intro w
  cases w <;> rfl

theorem restless_after (cause : OnCause) : Restless (.switch cause.after) := by
  intro w
  cases w <;> cases cause <;> rfl

theorem restless_emulating : Restless (.switch .emulating) := by
  intro w
  cases w <;> rfl

theorem restless_notifier (a : Notifier) : Restless a.after := by
  cases a with
  | emulated => exact restless_after .emulated
  | yielded y => cases y <;> first | exact restless_call _ | exact restless_parallel _
  | roundedup c k => exact restless_call _

theorem restless_afterRoundup (c : RoundupCall) : Restless c.afterRoundup := by
  cases c <;> first | exact restless_call _ | exact restless_parallel _

theorem restless_afterResume (c : RoundupCall) : Restless c.afterResume := by
  cases c with
  | external => exact restless_call _
  | fromVcpu => exact restless_emulating
  | parallel => exact restless_parallel _

/-- A turn to such a point keeps the wake-ups if it pays what it takes back, and pays what its
thread was about to. -/
theorem stepKeeps_of_restless (htask : s.task t = q) (hp : Restless p)
    (hpaused : info.executionPaused = s.shared.executionPaused)
    (hpaid : ∀ i (w : Wakeup), w.Paid i s.shared → w.Paid i info ∨ w.Owes i t p)
    (hsig : ∀ c (i : Fin n), q = .call (.resumeVcpu c i) → Wakeup.resume.Paid i info) :
    StepKeeps s (s.goOn t info p) := by
  refine ⟨t, info, p, rfl, hpaused, hpaid, ?_⟩
  intro i w howes
  rw [htask] at howes
  rcases howes with ⟨ht, -⟩ | ⟨c, hw, hc⟩
  · exact .inr (.inl ⟨ht, hp w⟩)
  · rw [hw]
    exact .inl (hsig c i hc)

/-- A turn that leaves the signals alone, and does not put its thread to sleep. -/
theorem stepKeeps_of_same (htask : s.task t = q) (hq : ∀ c k, q ≠ .call (.resumeVcpu c k))
    (hinfo : SameSignals s info) (hp : Restless p) : StepKeeps s (s.goOn t info p) := by
  refine stepKeeps_of_restless htask hp hinfo.executionPaused ?_ ?_
  · intro i w hpaid
    exact .inl (hinfo.paid hpaid)
  · intro c i hc
    exact absurd hc (hq c i)

theorem stepKeeps_fail (s : RoundupSys n) : StepKeeps s s.fail := by
  have hfail : s.fail = s.goOn (.external 0) { s.shared with failed := true }
      (s.task (.external 0)) := by
    rw [Threads.goOn, Function.update_eq_self, fail]
  refine ⟨_, _, _, hfail, rfl, ?_, ?_⟩
  · intro i w hpaid
    exact .inl (SameSignals.paid ⟨rfl, rfl, rfl, rfl⟩ hpaid)
  · intro i w howes
    exact .inr howes

/-! ## The turns -/

theorem parallelTurn_keeps {i : Fin n} {p : ParallelPoint}
    (htask : s.task (.vcpu i) = .parallel p) (h : s.parallelTurn i p = some s') :
    StepKeeps s s' := by
  have hq : ∀ c k, RoundupPoint.parallel p ≠ .call (.resumeVcpu c k) := by
    intro c k heq
    cases heq
  have hcall : ∀ {info : RoundupInfo n} (p' : CallPoint), SameSignals s info →
      StepKeeps s (s.goOn (.vcpu i) info (.call p')) :=
    fun p' hinfo => stepKeeps_of_same htask hq hinfo (restless_call p')
  have hparallel : ∀ {info : RoundupInfo n} (p' : ParallelPoint), SameSignals s info →
      StepKeeps s (s.goOn (.vcpu i) info (.parallel p')) :=
    fun p' hinfo => stepKeeps_of_same htask hq hinfo (restless_parallel p')
  have hemulating : ∀ {info : RoundupInfo n}, SameSignals s info →
      StepKeeps s (s.goOn (.vcpu i) info (.switch .emulating)) :=
    fun hinfo => stepKeeps_of_same htask hq hinfo restless_emulating
  cases p with
  | addCount =>
    rw [parallelTurn] at h
    split_ifs at h
    · cases h
      exact hcall _ ⟨rfl, rfl, rfl, rfl⟩
    · cases h
      exact hcall _ ⟨rfl, rfl, rfl, rfl⟩
  | loadCount =>
    cases h
    exact hparallel _ ⟨rfl, rfl, rfl, rfl⟩
  | storeNumWaiters parallelCallers =>
    cases h
    exact hparallel _ ⟨rfl, rfl, rfl, rfl⟩
  | releaseCount parallelCallers =>
    cases parallelCallers with
    | zero =>
      cases h
      exact hparallel _ ⟨rfl, rfl, rfl, rfl⟩
    | succ parallelCallers =>
      cases h
      exact hparallel _ ⟨rfl, rfl, rfl, rfl⟩
  | acquireCount =>
    rw [parallelTurn] at h
    split at h
    · cases h
    · cases h
      exact hparallel _ ⟨rfl, rfl, rfl, rfl⟩
  | unyield =>
    rw [parallelTurn] at h
    split_ifs at h
    · cases h
      exact stepKeeps_fail s
    · cases h
      exact hparallel _ ⟨rfl, rfl, rfl, rfl⟩
  | roundedup => cases h
  | subCount =>
    rw [parallelTurn] at h
    split_ifs at h
    · cases h
      exact hcall _ ⟨rfl, rfl, rfl, rfl⟩
    · cases h
      exact hparallel _ ⟨rfl, rfl, rfl, rfl⟩
  | acquireResumeWaiter =>
    rw [parallelTurn] at h
    split at h
    · cases h
    · cases h
      exact hemulating ⟨rfl, rfl, rfl, rfl⟩
  | releaseResumeWaiter =>
    rw [parallelTurn] at h
    split_ifs at h
    · cases h
      exact hparallel _ ⟨rfl, rfl, rfl, rfl⟩
    · cases h
      exact hemulating ⟨rfl, rfl, rfl, rfl⟩
  | decNumWaiters =>
    cases h
    exact hparallel _ ⟨rfl, rfl, rfl, rfl⟩

/-- What changes only the signals and the state of the vCPU `i`. -/
structure OthersSame (s : RoundupSys n) (i : Fin n) (info : RoundupInfo n) : Prop where
  resumeSig : ∀ j, j ≠ i → info.resumeSig j = s.shared.resumeSig j
  state : ∀ j, j ≠ i → info.state j = s.shared.state j
  offSm : ∀ j, j ≠ i → info.offSm j = s.shared.offSm j
  executionPaused : info.executionPaused = s.shared.executionPaused

theorem OthersSame.paid {i j : Fin n} {w : Wakeup} (h : OthersSame s i info) (hj : j ≠ i)
    (hpaid : w.Paid j s.shared) : w.Paid j info := by
  cases w with
  | resume =>
    rw [Wakeup.Paid, h.resumeSig j hj, h.state j hj]
    exact hpaid
  | switchOn =>
    rw [Wakeup.Paid, h.offSm j hj, h.executionPaused]
    exact hpaid

theorem othersSame_self (s : RoundupSys n) (i : Fin n) : OthersSame s i s.shared :=
  ⟨fun _ _ => rfl, fun _ _ => rfl, fun _ _ => rfl, rfl⟩

theorem othersSame_setState (s : RoundupSys n) (i : Fin n) (state : CpuState) :
    OthersSame s i (s.setState i state) :=
  ⟨fun _ _ => rfl, fun _ hj => Function.update_of_ne hj .., fun _ _ => rfl, rfl⟩

theorem othersSame_offSm (s : RoundupSys n) (i : Fin n) (sm : Signal) :
    OthersSame s i { s.shared with offSm := Function.update s.shared.offSm i sm } :=
  ⟨fun _ _ => rfl, fun _ _ => rfl, fun _ hj => Function.update_of_ne hj .., rfl⟩

theorem othersSame_resumeSig (s : RoundupSys n) (i : Fin n) (sm : Signal) :
    OthersSame s i { s.shared with resumeSig := Function.update s.shared.resumeSig i sm } :=
  ⟨fun _ hj => Function.update_of_ne hj .., fun _ _ => rfl, fun _ _ => rfl, rfl⟩

section Switches

variable {i : Fin n} {q' : SwitchPoint}

theorem stepKeeps_awake (htask : s.task (.vcpu i) = .switch q') (hinfo : OthersSame s i info)
    (hp : Restless p) : StepKeeps s (s.goOn (.vcpu i) info p) := by
  refine stepKeeps_of_restless htask hp hinfo.executionPaused ?_ ?_
  · intro j w hpaid
    by_cases hj : j = i
    · exact .inr (.inl ⟨by rw [hj], hp w⟩)
    · exact .inl (hinfo.paid hj hpaid)
  · intro c j hc
    cases hc

/-- A vCPU that goes to sleep, or goes on to. It is to sleep. -/
theorem stepKeeps_asleep (htask : s.task (.vcpu i) = .switch q') (hinfo : OthersSame s i info)
    (hsleep : ∀ w : Wakeup, w.asleep p = true → w.Paid i info ∨
      w.asleep (.switch q') = true ∧ (w.Paid i s.shared → w.Paid i info)) :
    StepKeeps s (s.goOn (.vcpu i) info p) := by
  refine ⟨_, _, _, rfl, hinfo.executionPaused, ?_, ?_⟩
  · intro j w hpaid
    by_cases hj : j = i
    · subst hj
      cases hasleep : w.asleep p with
      | false => exact .inr (.inl ⟨rfl, hasleep⟩)
      | true => exact .inl ((hsleep w hasleep).elim id fun hkept => hkept.2 hpaid)
    · exact .inl (hinfo.paid hj hpaid)
  · intro j w howes
    rw [htask] at howes
    rcases howes with ⟨ht, hawake⟩ | ⟨c, -, hc⟩
    · cases ht
      cases hasleep : w.asleep p with
      | false => exact .inr (.inl ⟨rfl, hasleep⟩)
      | true =>
        rcases hsleep w hasleep with hpaid | ⟨hasleep', -⟩
        · exact .inl hpaid
        · rw [hawake] at hasleep'
          cases hasleep'
    · cases hc

/-- It has made up its mind to wait for `switch_on`, and changes at most its state. -/
theorem stepKeeps_off (htask : s.task (.vcpu i) = .switch q') (hinfo : OthersSame s i info)
    (hq' : Wakeup.switchOn.asleep (.switch q') = true)
    (hp : Wakeup.resume.asleep p = false) (hoff : info.offSm = s.shared.offSm) :
    StepKeeps s (s.goOn (.vcpu i) info p) := by
  refine stepKeeps_asleep htask hinfo ?_
  intro w hasleep
  cases w with
  | resume =>
    rw [hp] at hasleep
    cases hasleep
  | switchOn =>
    refine .inr ⟨hq', ?_⟩
    rw [Wakeup.Paid, Wakeup.Paid, hoff, hinfo.executionPaused]
    exact id

theorem stepKeeps_waitForResume (htask : s.task (.vcpu i) = .switch q')
    (hstate : s.shared.state i = .onRoundedup) :
    StepKeeps s (s.goOn (.vcpu i) s.shared (.switch .waitForResume)) := by
  refine stepKeeps_asleep htask (othersSame_self s i) ?_
  intro w hasleep
  cases w with
  | resume =>
    refine .inl (.inr ?_)
    rw [hstate]
    rfl
  | switchOn => cases hasleep

theorem switchTurn_keeps {p : SwitchPoint} (htask : s.task (.vcpu i) = .switch p)
    (h : s.switchTurn i p = some s') : StepKeeps s s' := by
  have hself := othersSame_self s i
  cases p with
  | running => cases h
  | waitIfExecPaused =>
    rw [switchTurn] at h
    split_ifs at h with hpaused
    · cases h
      refine stepKeeps_asleep htask hself ?_
      intro w hasleep
      cases w with
      | resume => cases hasleep
      | switchOn => exact .inl (.inr hpaused)
    · cases h
      refine stepKeeps_awake htask hself ?_
      intro w
      cases w <;> rfl
  | offLoad =>
    cases h
    exact stepKeeps_off htask hself rfl rfl rfl
  | offCas cur =>
    rw [switchTurn] at h
    split at h
    · cases h
      exact stepKeeps_fail s
    · split_ifs at h
      · cases h
        exact stepKeeps_off htask (othersSame_setState s i _) rfl rfl rfl
      · cases h
        exact stepKeeps_off htask hself rfl rfl rfl
  | waitForSwitchOn =>
    obtain ⟨sm, -, rfl⟩ := Option.map_eq_some_iff.mp h
    exact stepKeeps_awake htask (othersSame_offSm s i sm) (restless_onLoad .unpaused)
  | onLoad cause =>
    cases h
    refine stepKeeps_awake htask hself ?_
    intro w
    cases w <;> rfl
  | onCas cause cur =>
    rw [switchTurn] at h
    split at h
    · cases h
      exact stepKeeps_fail s
    · split_ifs at h
      · cases h
        exact stepKeeps_awake htask (othersSame_setState s i _) (restless_call _)
      · cases h
        exact stepKeeps_awake htask (othersSame_setState s i _) (restless_after cause)
      · cases h
        refine stepKeeps_awake htask hself ?_
        intro w
        cases w <;> rfl
  | emulatingLoad =>
    rw [switchTurn] at h
    split at h
    · next hstate =>
      cases h
      exact stepKeeps_waitForResume htask hstate
    · cases h
      refine stepKeeps_awake htask hself ?_
      intro w
      cases w <;> rfl
    · cases h
      exact stepKeeps_fail s
  | emulatingCas cur =>
    rw [switchTurn] at h
    split_ifs at h with _ hstate
    · cases h
      exact stepKeeps_awake htask (othersSame_setState s i _) restless_emulating
    · cases h
      exact stepKeeps_waitForResume htask hstate
    · cases h
      exact stepKeeps_fail s
  | waitForResume =>
    obtain ⟨sm, -, rfl⟩ := Option.map_eq_some_iff.mp h
    refine stepKeeps_awake htask (othersSame_resumeSig s i sm) ?_
    intro w
    cases w <;> rfl
  | emulating => cases h

end Switches

theorem isRoundedup_of_roundedup {cur state : CpuState} (h : cur.roundedup = some state) :
    state.isRoundedup = true := by
  cases cur <;> cases h <;> rfl

theorem paid_setState_of_roundedup {i j : Fin n} {w : Wakeup} {state : CpuState}
    (hstate : state.isRoundedup = true) (hpaid : w.Paid j s.shared) :
    w.Paid j (s.setState i state) := by
  cases w with
  | resume =>
    by_cases hj : j = i
    · have hown : (s.setState i state).state i = state := Function.update_self ..
      refine .inr ?_
      rw [hj, hown]
      exact hstate
    · exact (othersSame_setState s i state).paid hj hpaid
  | switchOn => exact hpaid

theorem callTurn_keeps {p : CallPoint} (htask : s.task t = .call p)
    (h : s.callTurn t p = some s') : StepKeeps s s' := by
  have hsame : ∀ {info : RoundupInfo n} {p' : RoundupPoint},
      (∀ c k, RoundupPoint.call p ≠ .call (.resumeVcpu c k)) → SameSignals s info → Restless p' →
      StepKeeps s (s.goOn t info p') :=
    fun hq hinfo hp => stepKeeps_of_same htask hq hinfo hp
  cases p with
  | away => cases h
  | yield y =>
    cases h
    exact hsame (by simp) ⟨rfl, rfl, rfl, rfl⟩ (restless_call _)
  | notify a =>
    rw [callTurn] at h
    split_ifs at h
    · cases h
      exact stepKeeps_fail s
    · cases h
      exact hsame (by simp) ⟨rfl, rfl, rfl, rfl⟩ (restless_call _)
    · cases h
      exact hsame (by simp) ⟨rfl, rfl, rfl, rfl⟩ (restless_notifier a)
  | signalEmulationEnd a =>
    cases h
    exact hsame (by simp) ⟨rfl, rfl, rfl, rfl⟩ (restless_notifier a)
  | enter c =>
    rw [callTurn] at h
    split_ifs at h
    cases h
    exact hsame (by simp) ⟨rfl, rfl, rfl, rfl⟩ (restless_call _)
  | roundupLoad c k =>
    rw [callTurn] at h
    split_ifs at h
    · cases h
      exact hsame (by simp) ⟨rfl, rfl, rfl, rfl⟩ (restless_call _)
    · cases h
      exact hsame (by simp) ⟨rfl, rfl, rfl, rfl⟩ (restless_call _)
  | roundupCas c k cur =>
    have hk : k < n := by
      by_contra hk
      rw [callTurn, dif_neg hk] at h
      cases h
    rw [callTurn, dif_pos hk] at h
    split at h
    · cases h
      exact stepKeeps_fail s
    · next state hstate =>
      have hpaid := fun i (w : Wakeup) (hpaid : w.Paid i s.shared) =>
        @paid_setState_of_roundedup _ _ ⟨k, hk⟩ i w _ (isRoundedup_of_roundedup hstate) hpaid
      split_ifs at h
      · cases h
        exact stepKeeps_of_restless htask (restless_call _) rfl
          (fun i w hi => .inl (hpaid i w hi)) (by simp)
      · cases h
        exact stepKeeps_of_restless htask (restless_call _) rfl
          (fun i w hi => .inl (hpaid i w hi)) (by simp)
      · cases h
        exact hsame (by simp) ⟨rfl, rfl, rfl, rfl⟩ (restless_call _)
  | checkProgressing c =>
    rw [callTurn] at h
    split_ifs at h
    · cases h
      exact hsame (by simp) ⟨rfl, rfl, rfl, rfl⟩ (restless_afterRoundup c)
    · cases h
      exact hsame (by simp) ⟨rfl, rfl, rfl, rfl⟩ (restless_call _)
  | waitForEmulationEnd c =>
    obtain ⟨sm, -, rfl⟩ := Option.map_eq_some_iff.mp h
    exact hsame (by simp) ⟨rfl, rfl, rfl, rfl⟩ (restless_call _)
  | roundedup c => cases h
  | unyield c =>
    rw [callTurn] at h
    split_ifs at h
    · cases h
      exact stepKeeps_fail s
    · cases h
      exact hsame (by simp) ⟨rfl, rfl, rfl, rfl⟩ (restless_call _)
  | loadWaiters c =>
    rw [callTurn] at h
    split_ifs at h
    · cases h
      exact hsame (by simp) ⟨rfl, rfl, rfl, rfl⟩ (restless_call _)
    · cases h
      exact stepKeeps_fail s
  | storeProgressing c numWaiters =>
    cases h
    exact hsame (by simp) ⟨rfl, rfl, rfl, rfl⟩ (restless_call _)
  | resumeLoad c k =>
    rw [callTurn] at h
    split_ifs at h
    · cases h
      exact hsame (by simp) ⟨rfl, rfl, rfl, rfl⟩ (restless_call _)
    · cases h
      exact hsame (by simp) ⟨rfl, rfl, rfl, rfl⟩ (restless_call _)
  | resumeCas c k cur =>
    have hk : k < n := by
      by_contra hk
      rw [callTurn, dif_neg hk] at h
      cases h
    rw [callTurn, dif_pos hk] at h
    split at h
    · cases h
      exact stepKeeps_fail s
    · split_ifs at h
      · cases h
        refine stepKeeps_of_restless htask (restless_call _) rfl ?_ (by simp)
        intro i w hpaid
        -- the state of the vCPU is no rounded-up one any more, and its signal is still to come
        by_cases hi : i = ⟨k, hk⟩
        · cases w with
          | resume => exact .inr (.inr ⟨c, rfl, by rw [hi]⟩)
          | switchOn => exact .inl hpaid
        · exact .inl ((othersSame_setState s _ _).paid hi hpaid)
      · cases h
        exact hsame (by simp) ⟨rfl, rfl, rfl, rfl⟩ (restless_call _)
  | resumeVcpu c k =>
    rw [callTurn] at h
    split_ifs at h with hk
    cases h
    have hsig : Wakeup.resume.Paid (⟨k, hk⟩ : Fin n) { s.shared with
        resumeSig := Function.update s.shared.resumeSig ⟨k, hk⟩
          (s.shared.resumeSig ⟨k, hk⟩).sig } :=
      .inl (congrArg Signal.signaled (Function.update_self ..))
    refine stepKeeps_of_restless htask (restless_call _) rfl ?_ ?_
    · intro i w hpaid
      by_cases hi : i = ⟨k, hk⟩
      · cases w with
        | resume =>
          rw [hi]
          exact .inl hsig
        | switchOn => exact .inl hpaid
      · exact .inl ((othersSame_resumeSig s _ _).paid hi hpaid)
    · intro c' i hc
      cases hc
      exact hsig
  | exit c =>
    cases h
    exact hsame (by simp) ⟨rfl, rfl, rfl, rfl⟩ (restless_afterResume c)

theorem turn_keeps (h : s.turn t = some s') : StepKeeps s s' := by
  unfold turn at h
  split at h
  · next htask => exact switchTurn_keeps htask h
  · next htask => exact callTurn_keeps htask h
  · next htask => exact parallelTurn_keeps htask h
  · cases h

theorem leave_keeps (hq : ∀ c k, q ≠ .call (.resumeVcpu c k)) (hp : Restless p)
    (h : s.leave t q p = some s') : StepKeeps s s' := by
  rw [leave] at h
  split_ifs at h with htask
  cases h
  exact stepKeeps_of_same htask hq ⟨rfl, rfl, rfl, rfl⟩ hp

/-- **Every step of the machine** keeps the wake-ups. -/
theorem next_keeps {a : RoundupAct n} (ha : a.isOwn = true) (h : s.next a = some s') :
    StepKeeps s s' := by
  cases a with
  | beginEmulation i =>
    refine leave_keeps (by simp) ?_ h
    intro w
    cases w <;> rfl
  | endEmulation i => exact leave_keeps (by simp) (restless_onLoad .emulated) h
  | roundup e => exact leave_keeps (by simp) (restless_call _) h
  | resume e => exact leave_keeps (by simp) (restless_call _) h
  | roundupFromVcpu i => exact leave_keeps (by simp) (restless_call _) h
  | resumeFromVcpu i => exact leave_keeps (by simp) (restless_call _) h
  | roundupParallel i => exact leave_keeps (by simp) (restless_parallel _) h
  | resumeParallel i =>
    rw [next] at h
    split_ifs at h
    · obtain ⟨s₁, hs₁, rfl⟩ := Option.map_eq_some_iff.mp h
      rw [leave] at hs₁
      split_ifs at hs₁ with htask
      cases hs₁
      rw [← htask, Threads.goOn_self]
      exact stepKeeps_fail s
    · exact leave_keeps (by simp) (restless_parallel _) h
  | turn t => exact turn_keeps h
  | pause i paused => cases ha
  | switchOn i => cases ha

theorem Settles.step {i : Fin n} {w : Wakeup} (h : Settles i s w) (hstep : StepKeeps s s') :
    Settles i s' w := by
  obtain ⟨t, info, p, rfl, hkeeps⟩ := hstep
  have hsettled : Threads.Settled (fun _ : Unit => w.Paid i) (fun _ => w.Owes i) s := fun _ => h
  exact hsettled.goOn (fun _ hk => hk.elim (hkeeps.paid i w) (hkeeps.owes i w)) ()

theorem Settles.mono {i : Fin n} {w : Wakeup} (h : Settles i s w) (htask : s'.task = s.task)
    (hpaid : w.Paid i s.shared → w.Paid i s'.shared) : Settles i s' w := by
  rw [Settles, htask]
  exact h.imp_left hpaid

theorem StepKeeps.executionPaused (h : StepKeeps s s') :
    s'.shared.executionPaused = s.shared.executionPaused := by
  obtain ⟨t, info, p, rfl, hkeeps⟩ := h
  exact hkeeps.executionPaused

end RoundupSys

/-! ## Every run -/

namespace PauseSys

variable {n : ℕ} {s s' : PauseSys n} {e : ℕ} {i : Fin n}

/-- A requestor is about to send the vCPU the signal to go on. -/
def Announced (s : PauseSys n) (i : Fin n) : Prop :=
  ∃ e, s.request e = .force i false ∨ s.request e = .switchOn i

/-- What the vCPU reads is the flag of the requests, and the wake-ups are settled. -/
structure Inv (s : PauseSys n) : Prop where
  paused : ∀ i, s.machine.shared.executionPaused i = (s.flag i).isRequested
  resume : ∀ i, s.machine.Settles i .resume
  switchOn : ∀ i, s.machine.Settles i .switchOn ∨ s.Announced i

theorem inv_init : (init : PauseSys n).Inv where
  paused _ := (by decide : false = ({} : CpuFlag).isRequested)
  resume i := .inr ⟨.vcpu i, .inl ⟨rfl, rfl⟩⟩
  switchOn i := .inl (.inr ⟨.vcpu i, .inl ⟨rfl, rfl⟩⟩)

/-- A requestor whose turn does not send the signal goes on being about to. -/
theorem Announced.update {machine : RoundupSys n} {flag : Fin n → CpuFlag} {p : PausePoint n}
    (h : s.Announced i) (hown : s.request e = .force i false ∨ s.request e = .switchOn i →
      p = .force i false ∨ p = .switchOn i) :
    Announced { machine, flag, request := Function.update s.request e p } i := by
  obtain ⟨e', he'⟩ := h
  by_cases heq : e' = e
  · subst heq
    refine ⟨e', ?_⟩
    dsimp only
    rw [Function.update_self]
    exact hown he'
  · refine ⟨e', ?_⟩
    dsimp only
    rw [Function.update_of_ne heq]
    exact he'

theorem isRequested_forceReconfiguration (f : CpuFlag) :
    f.forceReconfiguration.isRequested = f.isRequested := by
  rw [CpuFlag.isRequested_eq, CpuFlag.isRequested_eq, CpuFlag.isRequestedBy_forceReconfiguration,
    CpuFlag.isRequestedBy_forceReconfiguration]

theorem isRequested_store_true (f : CpuFlag) (r : Requestor) :
    (f.store r true).isRequested = true := by
  have hr : (f.store r true).isRequestedBy r = true := by
    rw [CpuFlag.isRequestedBy_store, if_pos rfl]
  rw [CpuFlag.isRequested_eq, Bool.or_eq_true]
  cases r with
  | vmm => exact .inl hr
  | vmi => exact .inr hr

/-- **A request.** Where the last one is taken back, the signal is announced. -/
theorem Inv.store (h : s.Inv) {enable : Bool} {r : Requestor}
    (hturn : s.requestTurn e (.store i enable r) = some s')
    (hrequest : s.request e = .store i enable r) : s'.Inv := by
  rw [requestTurn] at hturn
  obtain ⟨machine, hmachine, rfl⟩ := Option.map_eq_some_iff.mp hturn
  cases hmachine
  refine ⟨?_, ?_, ?_⟩
  · intro j
    by_cases hj : j = i
    · rw [hj]
      dsimp only
      rw [Function.update_self, Function.update_self]
    · dsimp only
      rw [Function.update_of_ne hj, Function.update_of_ne hj]
      exact h.paused j
  · intro j
    exact (h.resume j).mono rfl id
  · intro j
    by_cases hj : j = i
    · subst hj
      cases enable with
      | true =>
        refine .inl (.inl (.inr ?_))
        exact (Function.update_self ..).trans (isRequested_store_true _ r)
      | false => exact .inr ⟨e, .inl (Function.update_self ..)⟩
    · refine (h.switchOn j).imp (fun hsettles => hsettles.mono rfl ?_) fun hannounced =>
        hannounced.update ?_
      · intro hpaid
        refine hpaid.imp_right fun hpaused => ?_
        exact (Function.update_of_ne hj ..).trans hpaused
      · rw [hrequest]
        rintro (heq | heq) <;> cases heq

theorem Inv.force (h : s.Inv) {enable : Bool} (hturn : s.requestTurn e (.force i enable) = some s')
    (hrequest : s.request e = .force i enable) : s'.Inv := by
  cases hturn
  refine ⟨?_, h.resume, ?_⟩
  · intro j
    rw [h.paused]
    by_cases hj : j = i
    · rw [hj]
      dsimp only
      rw [Function.update_self, isRequested_forceReconfiguration]
    · dsimp only
      rw [Function.update_of_ne hj]
  · intro j
    refine (h.switchOn j).imp_right fun hannounced => hannounced.update ?_
    rw [hrequest]
    rintro (heq | heq)
    · cases heq
      exact .inr rfl
    · cases heq

/-- **`switch_on`** sends the signal. -/
theorem Inv.switchOnTurn (h : s.Inv) (hturn : s.requestTurn e (.switchOn i) = some s')
    (hrequest : s.request e = .switchOn i) : s'.Inv := by
  rw [requestTurn] at hturn
  obtain ⟨machine, hmachine, rfl⟩ := Option.map_eq_some_iff.mp hturn
  cases hmachine
  refine ⟨h.paused, ?_, ?_⟩
  · intro j
    exact (h.resume j).mono rfl id
  · intro j
    by_cases hj : j = i
    · subst hj
      refine .inl (.inl (.inl ?_))
      exact congrArg Signal.signaled (Function.update_self ..)
    · refine (h.switchOn j).imp (fun hsettles => hsettles.mono rfl ?_) fun hannounced =>
        hannounced.update ?_
      · intro hpaid
        refine hpaid.imp_left fun hsignaled => ?_
        exact (congrArg Signal.signaled (Function.update_of_ne hj ..)).trans hsignaled
      · rw [hrequest]
        rintro (heq | heq)
        · cases heq
        · cases heq
          exact absurd rfl hj

theorem Inv.goAt (h : s.Inv) {p : PausePoint n}
    (hown : ∀ i, s.request e ≠ .force i false ∧ s.request e ≠ .switchOn i) :
    (s.goAt e p).Inv := by
  refine ⟨h.paused, h.resume, fun j => ?_⟩
  refine (h.switchOn j).imp_right fun hannounced => hannounced.update ?_
  rintro (heq | heq)
  · exact absurd heq (hown j).1
  · exact absurd heq (hown j).2

/-- **Every step** keeps the wake-ups settled. -/
theorem Inv.next (h : s.Inv) {a : PauseAct n} (hnext : s.next a = some s') : s'.Inv := by
  cases a with
  | machine a =>
    rw [PauseSys.next] at hnext
    split_ifs at hnext with ha
    obtain ⟨machine, hmachine, rfl⟩ := Option.map_eq_some_iff.mp hnext
    have hkeeps := RoundupSys.next_keeps ha hmachine
    refine ⟨?_, fun j => (h.resume j).step hkeeps, fun j => ?_⟩
    · intro j
      exact (congrFun hkeeps.executionPaused j).trans (h.paused j)
    · exact (h.switchOn j).imp_left fun hsettles => hsettles.step hkeeps
  | ctrlFeatureOff e i enable r =>
    rw [PauseSys.next] at hnext
    split_ifs at hnext with hidle
    cases hnext
    refine h.goAt ?_
    rw [hidle]
    simp
  | requestor e =>
    rw [PauseSys.next] at hnext
    cases hrequest : s.request e with
    | idle =>
      rw [hrequest] at hnext
      cases hnext
    | store i enable r =>
      rw [hrequest] at hnext
      exact h.store hnext hrequest
    | force i enable =>
      rw [hrequest] at hnext
      exact h.force hnext hrequest
    | switchOn i =>
      rw [hrequest] at hnext
      exact h.switchOnTurn hnext hrequest
    | recallVcpu i =>
      rw [hrequest] at hnext
      cases hnext
      refine h.goAt ?_
      rw [hrequest]
      simp

theorem inv_run {acts : List (PauseAct n)}
    (h : Run (fun s a s' => PauseSys.next s a = some s') init acts s) : s.Inv :=
  h.invariant (fun _ _ _ hs hnext => hs.next hnext) inv_init

/-- A thread that does not resume the vCPUs owes no wake-up, nor does a vCPU that is asleep. -/
theorem not_owes {w : Wakeup} {t : RoundupThread n}
    (hresumes : (s.machine.task t).inResumeAll = false)
    (hasleep : w.asleep (s.machine.task (.vcpu i)) = true) :
    ¬w.Owes i t (s.machine.task t) := by
  rintro (⟨ht, hawake⟩ | ⟨c, -, hc⟩)
  · rw [ht, hasleep] at hawake
    cases hawake
  · rw [hc] at hresumes
    cases hresumes

/-- **No vCPU sleeps through its resume.** In every run, when no thread resumes the vCPUs and no
requestor is in a call, no vCPU is blocked that has been resumed or is not asked to pause. -/
theorem never_sleeps_through {acts : List (PauseAct n)}
    (h : Run (fun s a s' => PauseSys.next s a = some s') init acts s) (hquiet : s.Quiet)
    (i : Fin n) : ¬s.SleepsThrough i := by
  have hinv := inv_run h
  rintro (⟨htask, hsignaled, hstate⟩ | ⟨htask, hsignaled, hrequested⟩)
  · have hasleep : Wakeup.resume.asleep (s.machine.task (.vcpu i)) = true := by
      rw [htask]
      rfl
    rcases hinv.resume i with (hpaid | hpaid) | ⟨t, howes⟩
    · rw [hsignaled] at hpaid
      cases hpaid
    · rw [hstate] at hpaid
      cases hpaid
    · exact not_owes (hquiet.1 t) hasleep howes
  · have hasleep : Wakeup.switchOn.asleep (s.machine.task (.vcpu i)) = true := by
      rw [htask]
      rfl
    rcases hinv.switchOn i with ((hpaid | hpaid) | ⟨t, howes⟩) | ⟨e, hannounced⟩
    · rw [hsignaled] at hpaid
      cases hpaid
    · rw [hinv.paused i, CpuFlag.isRequested_eq, hrequested, hrequested] at hpaid
      cases hpaid
    · exact not_owes (hquiet.1 t) hasleep howes
    · rw [hquiet.2 e] at hannounced
      rcases hannounced with heq | heq <;> cases heq

/-- The only vCPU. -/
abbrev onlyVcpu : Fin 1 := ⟨0, Nat.one_pos⟩

/-- The VMM pauses a vCPU, which goes to sleep where it is to emulate, and takes the request back. -/
def pauseAndSwitchOn : List (PauseAct 1) :=
  [.machine (.turn (.vcpu onlyVcpu)), .machine (.turn (.vcpu onlyVcpu)),
    .ctrlFeatureOff 0 onlyVcpu true .vmm, .requestor 0, .requestor 0, .requestor 0,
    .machine (.beginEmulation onlyVcpu), .machine (.turn (.vcpu onlyVcpu)),
    .machine (.turn (.vcpu onlyVcpu)), .machine (.turn (.vcpu onlyVcpu)),
    .ctrlFeatureOff 0 onlyVcpu false .vmm, .requestor 0, .requestor 0, .requestor 0]

theorem switched_on_while_asleep :
    ∃ s, Run (fun s a s' => PauseSys.next s a = some s') init pauseAndSwitchOn s ∧
      s.machine.task (.vcpu onlyVcpu) = .switch .waitForSwitchOn ∧ ¬s.SleepsThrough onlyVcpu := by
  obtain ⟨s, hs, htask, hexternal, hfirst, hother⟩ : ∃ s : PauseSys 1,
      pauseAndSwitchOn.foldlM PauseSys.next init = some s ∧
      s.machine.task (.vcpu onlyVcpu) = .switch .waitForSwitchOn ∧
      (∀ e, s.machine.task (.external e) = .call .away) ∧
      s.request 0 = .idle ∧ ∀ e, s.request (e + 1) = .idle :=
    ⟨_, rfl, rfl, fun _ => rfl, rfl, fun _ => rfl⟩
  have hquiet : s.Quiet := by
    refine ⟨fun t => ?_, fun e => ?_⟩
    · cases t with
      | vcpu i =>
        obtain rfl : i = onlyVcpu := Subsingleton.elim ..
        rw [htask]
        rfl
      | external e =>
        rw [hexternal]
        rfl
    · cases e with
      | zero => exact hfirst
      | succ e => exact hother e
  exact ⟨s, Run.of_foldlM hs, htask, never_sleeps_through (Run.of_foldlM hs) hquiet onlyVcpu⟩

end PauseSys

end Vml
