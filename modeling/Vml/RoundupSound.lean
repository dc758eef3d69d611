import Vml.Lib.Tally
import Vml.Roundup

/-!
# The invariant of round-ups

**Stages.** What a round-up has done so far is its `RoundupStage`: how many vCPUs it has rounded up, of how
many of these it has given notice, whether all have stopped, how many it has resumed, and which
thread it is that does so. The callers of a parallel round-up share it between the turn in which the
first one returns and the turn in which the last one resumes.

**Weights.** What a thread at a point of its program stands for in the counters is a table,
`RoundupPoint.weights`. A vCPU is counted as stopped (`RoundupStage.counted`) since it has yielded or, if it
does not emulate, since notice of it has been given.

Main results: `SoundAt.switchTurn`, `SoundAt.callTurn`, `SoundAt.parallelTurn`: a turn keeps the
invariant `SoundAt`, at the same stage or at the next.
-/

namespace Vml

/-! ## What a point stands for -/

/-- What a vCPU at a point is doing, and what it stands for in the counters. -/
structure RoundupWeights where
  kind : CpuKind := .emulate
  /-- It does not emulate, and does not have to give notice of that. -/
  stopped : ℕ := 0
  /-- It goes on with no round-up to wait for. -/
  moves : ℕ := 0
  /-- It is between `yield` and `unyield`. -/
  yielding : ℕ := 0
  /-- And has given notice of it. -/
  yielded : ℕ := 0
  /-- It is counted by `count`. -/
  joined : ℕ := 0
  /-- It is the first of its round, and has not returned. -/
  leads : ℕ := 0
  /-- It is to acquire `count_sem`. -/
  follows : ℕ := 0
  /-- It is to acquire `resume_waiter_sem`. -/
  resumeWaits : ℕ := 0
  /-- It resumes a parallel round-up. -/
  resumes : ℕ := 0
  /-- It has released `resume_waiter_sem`, and not yet counted that. -/
  decs : ℕ := 0

/-- Apart from whether the vCPU moves. -/
def RoundupWeights.still (w : RoundupWeights) : RoundupWeights := { w with moves := 0 }

/-- What a vCPU is doing that calls `switch_state_to_on`. -/
def OnCause.kind : OnCause → CpuKind
  | startup => .off
  | unpaused => .off
  | emulated => .emulate

/-- What a vCPU is doing that switches its state. -/
def SwitchPoint.kind : SwitchPoint → CpuKind
  | waitForSwitchOn => .off
  | onLoad cause => cause.kind
  | onCas cause _ => cause.kind
  | emulating => .emulate
  | _ => .on

/-- A vCPU that does this, and calls no round-up. -/
def CpuKind.weights (kind : CpuKind) : RoundupWeights :=
  { kind := kind
    stopped := if kind = .emulate then 0 else 1
    moves := if kind = .emulate then 1 else 0 }

namespace Yielder

def joined : Yielder → ℕ
  | fromVcpu => 0
  | _ => 1

theorem joined_le_one (y : Yielder) : y.joined ≤ 1 := by
  cases y <;> decide

def leads : Yielder → ℕ
  | leader => 1
  | _ => 0

def follows : Yielder → ℕ
  | follower => 1
  | _ => 0

end Yielder

namespace RoundupCall

def parallels : RoundupCall → ℕ
  | parallel => 1
  | _ => 0

theorem parallels_le_one (c : RoundupCall) : c.parallels ≤ 1 := by
  cases c <;> decide

/-- A vCPU that rounds up, from when it has yielded. -/
def yielded (c : RoundupCall) : RoundupWeights :=
  { yielding := 1, yielded := 1, joined := c.parallels, leads := c.parallels }

end RoundupCall

/-- The weights of a vCPU that calls a round-up. -/
def CallPoint.weights : CallPoint → RoundupWeights
  | away => {}
  | yield y => { moves := 1, joined := y.joined, leads := y.leads }
  | notify .emulated => { kind := .on, moves := 1 }
  | notify (.yielded y) => { moves := 1, yielding := 1, joined := y.joined, leads := y.leads }
  | notify (.roundedup c _) => c.yielded
  | signalEmulationEnd .emulated => { kind := .on, stopped := 1 }
  | signalEmulationEnd (.yielded y) =>
      { yielding := 1, yielded := 1, joined := y.joined, leads := y.leads, follows := y.follows }
  | signalEmulationEnd (.roundedup c _) => c.yielded
  | enter c => c.yielded
  | roundupLoad c _ => c.yielded
  | roundupCas c _ _ => c.yielded
  | checkProgressing c => c.yielded
  | waitForEmulationEnd c => c.yielded
  | roundedup c => c.yielded
  | unyield c => { yielding := 1, yielded := 1, resumes := c.parallels }
  | loadWaiters c => { resumes := c.parallels }
  | storeProgressing c _ => { resumes := c.parallels }
  | resumeLoad c _ => { resumes := c.parallels }
  | resumeCas c _ _ => { resumes := c.parallels }
  | resumeVcpu c _ => { resumes := c.parallels }
  | exit c => { resumes := c.parallels }

/-- The weights of a vCPU that calls a parallel round-up. -/
def ParallelPoint.weights : ParallelPoint → RoundupWeights
  | addCount => { moves := 1 }
  | loadCount => RoundupCall.parallel.yielded
  | storeNumWaiters _ => RoundupCall.parallel.yielded
  | releaseCount _ => RoundupCall.parallel.yielded
  | acquireCount => { yielding := 1, yielded := 1, joined := 1, follows := 1 }
  | unyield => { yielding := 1, yielded := 1, joined := 1 }
  | roundedup => { joined := 1 }
  | subCount => { joined := 1 }
  | acquireResumeWaiter => { resumeWaits := 1 }
  | releaseResumeWaiter => { moves := 1, resumes := 1 }
  | decNumWaiters => { moves := 1, resumes := 1, decs := 1 }

/-- The weights of a vCPU. -/
def RoundupPoint.weights : RoundupPoint → RoundupWeights
  | switch p => p.kind.weights
  | call p => p.weights
  | parallel p => p.weights

/-- The vCPU takes part in a parallel round-up that has returned to one. -/
def RoundupPoint.shares : RoundupPoint → Bool
  | .parallel .unyield => true
  | .parallel .roundedup => true
  | .parallel .subCount => true
  | _ => false

/-- **What the table says** of a point. -/
structure RoundupPoint.Weighed (p : RoundupPoint) : Prop where
  le_one : p.weights.yielded + p.weights.stopped ≤ 1
  moves : p.weights.yielded + p.weights.stopped = 1 → p.weights.moves = 0
  resumeWaits : p.weights.yielded + p.weights.stopped = 1 → p.weights.resumeWaits = 0
  decs : p.weights.yielded + p.weights.stopped = 1 → p.weights.decs = 0
  joined : p.weights.yielded + p.weights.stopped = 1 → p.shares = false →
    p.weights.joined = p.weights.leads + p.weights.follows
  yielding : p.weights.moves = 0 → p.weights.yielding = p.weights.yielded
  leads : p.weights.leads + p.weights.follows ≤ p.weights.joined
  decs_le : p.weights.decs ≤ p.weights.moves
  kind : p.weights.stopped = 1 ↔ p.weights.kind ≠ .emulate ∧ p ≠ .call (.notify .emulated)

namespace RoundupPoint

theorem weighed_switch (p : SwitchPoint) : (switch p).Weighed := by
  have hweights : (switch p).weights = p.kind.weights := rfl
  constructor <;> rw [hweights] <;> cases p.kind <;> simp [CpuKind.weights]

theorem weighed_notify (a : Notifier) : (call (.notify a)).Weighed := by
  match a with
  | .emulated => constructor <;> decide
  | .yielded y =>
      constructor <;> cases y <;>
        simp [weights, CallPoint.weights, Yielder.joined, Yielder.leads]
  | .roundedup c k =>
      constructor <;> simp [weights, CallPoint.weights, RoundupCall.yielded]

theorem weighed_signalEmulationEnd (a : Notifier) : (call (.signalEmulationEnd a)).Weighed := by
  match a with
  | .emulated => constructor <;> decide
  | .yielded y =>
      constructor <;> cases y <;>
        simp [weights, CallPoint.weights, Yielder.joined, Yielder.leads, Yielder.follows]
  | .roundedup c k =>
      constructor <;> simp [weights, CallPoint.weights, RoundupCall.yielded]

theorem weighed_call (p : CallPoint) : (call p).Weighed := by
  cases p with
  | notify a => exact weighed_notify a
  | signalEmulationEnd a => exact weighed_signalEmulationEnd a
  | yield y =>
      constructor <;> cases y <;>
        simp [weights, CallPoint.weights, Yielder.joined, Yielder.leads]
  | _ => constructor <;> simp [weights, CallPoint.weights, RoundupCall.yielded]

theorem weighed (p : RoundupPoint) : p.Weighed := by
  cases p with
  | switch p => exact weighed_switch p
  | call p => exact weighed_call p
  | parallel p =>
      cases p <;> constructor <;>
        simp [weights, ParallelPoint.weights, RoundupCall.yielded, shares, RoundupCall.parallels]

theorem yielding_le_one (p : RoundupPoint) : p.weights.yielding ≤ 1 := by
  cases p with
  | switch p => exact Nat.zero_le 1
  | call p =>
      cases p with
      | notify a => cases a <;> simp [weights, CallPoint.weights, RoundupCall.yielded]
      | signalEmulationEnd a => cases a <;> simp [weights, CallPoint.weights, RoundupCall.yielded]
      | _ => simp [weights, CallPoint.weights, RoundupCall.yielded]
  | parallel p => cases p <;> simp [weights, ParallelPoint.weights, RoundupCall.yielded]

theorem decs_le_resumes (p : RoundupPoint) : p.weights.decs ≤ p.weights.resumes := by
  match p with
  | .switch _ => exact Nat.le_refl 0
  | .call p =>
      cases p with
      | notify a => cases a <;> exact Nat.le_refl 0
      | signalEmulationEnd a => cases a <;> exact Nat.le_refl 0
      | _ => exact Nat.zero_le _
  | .parallel .decNumWaiters => exact Nat.le_refl 1
  | .parallel p => cases p <;> simp [weights, ParallelPoint.weights, RoundupCall.yielded]

theorem joined_le_one (p : RoundupPoint) : p.weights.joined ≤ 1 := by
  cases p with
  | switch p => exact Nat.zero_le 1
  | call p =>
      match p with
      | .yield y => exact y.joined_le_one
      | .notify .emulated => exact Nat.zero_le 1
      | .notify (.yielded y) => exact y.joined_le_one
      | .notify (.roundedup c _) => exact c.parallels_le_one
      | .signalEmulationEnd .emulated => exact Nat.zero_le 1
      | .signalEmulationEnd (.yielded y) => exact y.joined_le_one
      | .signalEmulationEnd (.roundedup c _) => exact c.parallels_le_one
      | .enter c => exact c.parallels_le_one
      | .roundupLoad c _ => exact c.parallels_le_one
      | .roundupCas c _ _ => exact c.parallels_le_one
      | .checkProgressing c => exact c.parallels_le_one
      | .waitForEmulationEnd c => exact c.parallels_le_one
      | .roundedup c => exact c.parallels_le_one
      | .away => exact Nat.zero_le 1
      | .unyield _ => exact Nat.zero_le 1
      | .loadWaiters _ => exact Nat.zero_le 1
      | .storeProgressing _ _ => exact Nat.zero_le 1
      | .resumeLoad _ _ => exact Nat.zero_le 1
      | .resumeCas _ _ _ => exact Nat.zero_le 1
      | .resumeVcpu _ _ => exact Nat.zero_le 1
      | .exit _ => exact Nat.zero_le 1
  | parallel p => cases p <;> simp [weights, ParallelPoint.weights, RoundupCall.yielded,
      RoundupCall.parallels_le_one]

end RoundupPoint

/-! ## Stages -/

/-- What a round-up has done so far. -/
inductive RoundupStage (n : ℕ)
  | free
  /-- The vCPUs below `k` have been rounded up, and it has dealt with the notices of those below
  `j`. -/
  | rounding (t : RoundupThread n) (k j : ℕ)
  /-- All vCPUs have stopped for this thread and its round-up. -/
  | held (t : RoundupThread n) (c : RoundupCall)
  /-- All vCPUs have stopped for a parallel round-up, which this thread has not told the others. -/
  | gathered (t : RoundupThread n)
  /-- It is to tell that many of them. -/
  | sharing (t : RoundupThread n) (parallelCallers : ℕ)
  /-- It has told them. -/
  | shared
  /-- The vCPUs below `k` have been resumed. -/
  | resuming (t : RoundupThread n) (k : ℕ)

namespace RoundupStage

variable {n : ℕ}

/-- The mutex has been entered. -/
def entered : RoundupStage n → Bool
  | free => false
  | _ => true

/-- The vCPU has been rounded up. -/
def isRounded (r : RoundupStage n) (i : ℕ) : Bool :=
  match r with
  | free => false
  | rounding _ k _ => decide (i < k)
  | resuming _ k => decide (k ≤ i)
  | _ => true

/-- The vCPU has stopped and has not been resumed. -/
def halts (r : RoundupStage n) (i : ℕ) : Bool :=
  match r with
  | free => false
  | rounding _ _ _ => false
  | resuming _ k => decide (k ≤ i)
  | _ => true

/-- All vCPUs have stopped, and the mutex has not been left. -/
def stopped : RoundupStage n → Bool
  | free => false
  | rounding _ _ _ => false
  | _ => true

/-- Some caller of a parallel round-up may know that all vCPUs have stopped. -/
def shares : RoundupStage n → Bool
  | sharing _ _ => true
  | shared => true
  | _ => false

/-- How many callers the first one is to tell. -/
def toTell : RoundupStage n → ℕ
  | sharing _ c => c
  | _ => 0

/-- The first caller of a parallel round-up has returned without `unyield`. -/
def debt : RoundupStage n → ℕ
  | shared => 1
  | _ => 0

/-- The thread that rounds up, or has. -/
def owner : RoundupStage n → Option (RoundupThread n)
  | rounding t _ _ => some t
  | held t _ => some t
  | gathered t => some t
  | sharing t _ => some t
  | resuming t _ => some t
  | _ => none

/-- All vCPUs have stopped, and none counts as progressing again. -/
def full : RoundupStage n → Bool
  | held _ _ => true
  | gathered _ => true
  | sharing _ _ => true
  | shared => true
  | _ => false

/-- Notice of the vCPU has been given, unless it is to do so itself. -/
def noticed (r : RoundupStage n) (i : ℕ) : Bool :=
  match r with
  | rounding _ _ j => decide (i < j)
  | _ => false

/-- Whether `vcpus_progressing` has been lowered for the vCPU. -/
def counted (r : RoundupStage n) (i : ℕ) (w : RoundupWeights) : ℕ :=
  if r.full then 1 else w.yielded + if r.noticed i then w.stopped else 0

/-- The stage is that of a thread at this point. -/
def Pinned (r : RoundupStage n) (t : RoundupThread n) : RoundupPoint → Prop
  | .switch (.offCas cur) => ∃ rounded, cur = .of .on rounded
  | .switch (.onCas cause cur) => ∃ rounded, cur = .of cause.kind rounded
  | .switch (.emulatingCas cur) => cur = .on
  | .switch _ => True
  | .call (.notify .emulated) => ∃ i : Fin n, t = .vcpu i ∧ ∃ u k j, r = .rounding u k j ∧ i.val < j
  | .call (.notify (.roundedup _ k)) => r = .rounding t (k + 1) k ∧ k < n
  | .call (.notify (.yielded _)) => True
  | .call (.signalEmulationEnd (.roundedup _ k)) => r = .rounding t (k + 1) (k + 1) ∧ k < n
  | .call (.signalEmulationEnd _) => True
  | .call .away => True
  | .call (.yield _) => True
  | .call (.enter _) => True
  | .call (.roundupLoad _ k) => r = .rounding t k k ∧ k ≤ n
  | .call (.roundupCas _ k cur) => r = .rounding t k k ∧ k < n ∧ ∃ kind, cur = .of kind false
  | .call (.checkProgressing _) => r = .rounding t n n
  | .call (.waitForEmulationEnd _) => r = .rounding t n n
  | .call (.roundedup c) => r = .held t c ∧ c ≠ .parallel
  | .call (.unyield c) => r = .held t c ∧ c ≠ .external
  | .call (.loadWaiters c) => r = .held t c
  | .call (.storeProgressing c _) => r = .held t c
  | .call (.resumeLoad _ k) => r = .resuming t k ∧ k ≤ n
  | .call (.resumeCas _ k cur) => r = .resuming t k ∧ k < n ∧ ∃ kind, cur = .of kind true
  | .call (.resumeVcpu _ k) => r = .resuming t (k + 1) ∧ k < n
  | .call (.exit _) => r = .resuming t n
  | .parallel .addCount => True
  | .parallel .loadCount => r = .gathered t
  | .parallel (.storeNumWaiters _) => r = .gathered t
  | .parallel (.releaseCount parallelCallers) => r = .sharing t parallelCallers
  | .parallel .acquireCount => True
  | .parallel .acquireResumeWaiter => True
  | .parallel .releaseResumeWaiter => r.stopped = false
  | .parallel .decNumWaiters => r.stopped = false
  | .parallel _ => r.shares = true

end RoundupStage

/-- The round-up that a thread at this point makes. -/
def CallPoint.roundupCall : CallPoint → Option RoundupCall
  | away => some .external
  | yield _ => none
  | notify (.roundedup c _) => some c
  | notify _ => none
  | signalEmulationEnd (.roundedup c _) => some c
  | signalEmulationEnd _ => none
  | enter c => some c
  | roundupLoad c _ => some c
  | roundupCas c _ _ => some c
  | checkProgressing c => some c
  | waitForEmulationEnd c => some c
  | roundedup c => some c
  | unyield c => some c
  | loadWaiters c => some c
  | storeProgressing c _ => some c
  | resumeLoad c _ => some c
  | resumeCas c _ _ => some c
  | resumeVcpu c _ => some c
  | exit c => some c

/-- The point is one of a thread that is no vCPU. -/
def RoundupPoint.isExternal : RoundupPoint → Bool
  | call p => decide (p.roundupCall = some .external)
  | _ => false

/-- A thread that is no vCPU, and only that, makes an external round-up. -/
def RoundupThread.isExternal {n : ℕ} : RoundupThread n → Bool
  | vcpu _ => false
  | external _ => true

namespace RoundupSys

variable {n : ℕ}

/-- What the vCPUs stand for together. -/
structure Totals where
  counted : ℕ
  yielding : ℕ
  joined : ℕ
  leads : ℕ
  follows : ℕ
  resumeWaits : ℕ
  decs : ℕ

/-- With one vCPU more. -/
def Totals.add (T : Totals) (counted : ℕ) (w : RoundupWeights) : Totals where
  counted := T.counted + counted
  yielding := T.yielding + w.yielding
  joined := T.joined + w.joined
  leads := T.leads + w.leads
  follows := T.follows + w.follows
  resumeWaits := T.resumeWaits + w.resumeWaits
  decs := T.decs + w.decs

/-- The sum of the weights of the vCPUs. -/
def number (s : RoundupSys n) (w : Fin n → RoundupPoint → ℕ) : ℕ :=
  s.tally RoundupThread.vcpu w

/-- What the vCPUs stand for together at a stage. -/
def totals (r : RoundupStage n) (s : RoundupSys n) : Totals where
  counted := s.number fun i p => r.counted i p.weights
  yielding := s.number fun _ p => p.weights.yielding
  joined := s.number fun _ p => p.weights.joined
  leads := s.number fun _ p => p.weights.leads
  follows := s.number fun _ p => p.weights.follows
  resumeWaits := s.number fun _ p => p.weights.resumeWaits
  decs := s.number fun _ p => p.weights.decs

/-- What the thread has read is still so. -/
def HasRead (info : RoundupInfo n) : RoundupPoint → Prop
  | .call (.storeProgressing _ numWaiters) => numWaiters = info.vcpuWaiters
  | .parallel (.storeNumWaiters parallelCallers) => parallelCallers + 1 = info.count
  | .parallel .decNumWaiters => 0 < info.numWaiters
  | _ => True

/-- The semaphores and `num_waiters` are for those that wait. -/
def Semaphores (r : RoundupStage n) (info : RoundupInfo n) (T : Totals) : Prop :=
  match r with
  | .gathered _ => info.countSem.length = 0 ∧ info.resumeWaiterSem.length = 0 ∧
      info.numWaiters = 0 ∧ T.resumeWaits = 0 ∧ T.follows + 1 = info.count
  | .sharing _ c => info.resumeWaiterSem.length = 0 ∧ T.follows = info.countSem.length + c ∧
      info.numWaiters + 1 = info.count + T.resumeWaits
  | .shared => info.resumeWaiterSem.length = 0 ∧ T.follows = info.countSem.length ∧
      info.numWaiters + 1 = info.count + T.resumeWaits
  | .held _ c => info.countSem.length = 0 ∧ info.resumeWaiterSem.length = 0 ∧
      info.numWaiters = T.resumeWaits + T.decs ∧ (c ≠ .parallel → T.resumeWaits = 0)
  | _ => info.countSem.length = 0 ∧
      info.resumeWaiterSem.length + info.numWaiters = T.resumeWaits + T.decs ∧
      (r.stopped = true → info.resumeWaiterSem.length = 0)

/-- The counters are what the vCPUs stand for. -/
structure Balanced (r : RoundupStage n) (info : RoundupInfo n) (T : Totals) : Prop where
  progressing : info.vcpusProgressing + T.counted = n
  waiters : info.vcpuWaiters = T.yielding + r.debt
  count : info.count = T.joined
  leads : T.leads + r.debt = min info.count 1
  semaphores : Semaphores r info T

/-- **The invariant of round-ups** at a stage. -/
structure SoundAt (r : RoundupStage n) (s : RoundupSys n) : Prop where
  ok : s.shared.failed = false
  state : ∀ i, s.shared.state i = .of (s.task (.vcpu i)).weights.kind (r.isRounded i)
  suits : ∀ t, (s.task t).isExternal = t.isExternal
  pinned : ∀ t, r.Pinned t (s.task t)
  read : ∀ t, HasRead s.shared (s.task t)
  halted : ∀ i : Fin n, r.halts i = true → (s.task (.vcpu i)).weights.moves = 0
  noticed : ∀ t k j, r = .rounding t k j → j ≤ k ∧ k ≤ j + 1 ∧ k ≤ n ∧
    ∀ i : Fin n, i.val = j → j < k → (s.task (.vcpu i)).weights.stopped = 1
  entered : s.shared.waiterMutex = r.entered
  balanced : Balanced r s.shared (s.totals r)
  resumer : ∀ i j, (s.task (.vcpu i)).weights.resumes = 1 →
    (s.task (.vcpu j)).weights.resumes = 1 → i = j

variable {r r' : RoundupStage n} {s s' : RoundupSys n} {t u : RoundupThread n} {i j : Fin n}
  {p p' : RoundupPoint} {info : RoundupInfo n}

/-! ## Turns -/

theorem goOn_task_of_ne' (h : u ≠ t) : (s.goOn t info p).task u = s.task u :=
  Threads.goOn_task_of_ne s t info p h

theorem vcpu_injective : Function.Injective (RoundupThread.vcpu : Fin n → RoundupThread n) :=
  fun _ _ h => by injection h

/-- What the other vCPUs stand for together. -/
def others (r : RoundupStage n) (i : Fin n) (s : RoundupSys n) : Totals where
  counted := s.tallyOthers RoundupThread.vcpu (fun i p => r.counted i p.weights) i
  yielding := s.tallyOthers RoundupThread.vcpu (fun _ p => p.weights.yielding) i
  joined := s.tallyOthers RoundupThread.vcpu (fun _ p => p.weights.joined) i
  leads := s.tallyOthers RoundupThread.vcpu (fun _ p => p.weights.leads) i
  follows := s.tallyOthers RoundupThread.vcpu (fun _ p => p.weights.follows) i
  resumeWaits := s.tallyOthers RoundupThread.vcpu (fun _ p => p.weights.resumeWaits) i
  decs := s.tallyOthers RoundupThread.vcpu (fun _ p => p.weights.decs) i

theorem totals_eq_add (r : RoundupStage n) (s : RoundupSys n) (i : Fin n) :
    s.totals r = (s.others r i).add (r.counted i (s.task (.vcpu i)).weights)
      (s.task (.vcpu i)).weights := by
  simp only [totals, number, Threads.tally_eq_tallyOthers i]
  rfl

theorem totals_goOn_vcpu : totals r (s.goOn (.vcpu i) info p) =
    (s.others r i).add (r.counted i p.weights) p.weights := by
  simp only [totals, number, Threads.tally_goOn vcpu_injective]
  rfl

theorem totals_goOn_external {e : ℕ} : totals r (s.goOn (.external e) info p) = s.totals r := by
  have hne (i : Fin n) : RoundupThread.vcpu i ≠ .external e := nofun
  simp only [totals, number, Threads.tally_goOn_of_ne hne]

theorem totals_goOn_same (h : ∀ i, t = .vcpu i → p.weights.still = (s.task t).weights.still) :
    totals r (s.goOn t info p) = s.totals r := by
  cases t with
  | vcpu i =>
      rw [totals_goOn_vcpu, totals_eq_add r s i]
      show (s.others r i).add (r.counted i p.weights.still) p.weights.still =
        (s.others r i).add (r.counted i (s.task (.vcpu i)).weights.still)
          (s.task (.vcpu i)).weights.still
      rw [h i rfl]
  | external e => exact totals_goOn_external

theorem weights_goOn_same (hw : ∀ i, t = .vcpu i → p.weights.still = (s.task t).weights.still)
    (i : Fin n) : ((s.goOn t info p).task (.vcpu i)).weights.still =
      (s.task (.vcpu i)).weights.still := by
  by_cases hi : RoundupThread.vcpu i = t
  · rw [← hi, Threads.goOn_task_self, hw i hi.symm, hi]
  · rw [goOn_task_of_ne' hi]

/-- **A turn to a next stage** of a thread that stands for the same as before, but may move. -/
theorem SoundAt.goOn_stage (h : SoundAt r s)
    (hw : ∀ i, t = .vcpu i → p.weights.still = (s.task t).weights.still)
    (hexternal : p.isExternal = (s.task t).isExternal) (hok : info.failed = s.shared.failed)
    (hstate : ∀ i, info.state i = .of (s.task (.vcpu i)).weights.kind (r'.isRounded i))
    (hpinned : r'.Pinned t p) (hpins : ∀ u, u ≠ t → r'.Pinned u (s.task u))
    (hread : HasRead info p) (hreads : ∀ u, u ≠ t → HasRead info (s.task u))
    (hhalted : ∀ i : Fin n, r'.halts i = true →
      ((s.goOn t info p).task (.vcpu i)).weights.moves = 0)
    (hnoticed : ∀ t k j, r' = .rounding t k j → j ≤ k ∧ k ≤ j + 1 ∧ k ≤ n ∧
      ∀ i : Fin n, i.val = j → j < k → (s.task (.vcpu i)).weights.stopped = 1)
    (hentered : info.waiterMutex = r'.entered) (hbalanced : Balanced r' info (s.totals r')) :
    SoundAt r' (s.goOn t info p) := by
  have hstill := @weights_goOn_same n s t p info hw
  have hkind (i : Fin n) := congrArg RoundupWeights.kind (hstill i)
  have hstopped (i : Fin n) := congrArg RoundupWeights.stopped (hstill i)
  have hresumes (i : Fin n) := congrArg RoundupWeights.resumes (hstill i)
  refine ⟨hok.trans h.ok, fun i => ?_, fun u => ?_, fun u => ?_, fun u => ?_, hhalted,
    fun u k j hr => ?_, hentered, ?_, fun i j hi hj => ?_⟩
  · exact (hstate i).trans (congrArg (CpuState.of · _) (hkind i).symm)
  · by_cases hu : u = t
    · subst hu
      rw [Threads.goOn_task_self, hexternal, h.suits]
    · rw [goOn_task_of_ne' hu, h.suits]
  · by_cases hu : u = t
    · subst hu
      rwa [Threads.goOn_task_self]
    · rw [goOn_task_of_ne' hu]
      exact hpins u hu
  · by_cases hu : u = t
    · subst hu
      rwa [Threads.goOn_task_self]
    · rw [goOn_task_of_ne' hu]
      exact hreads u hu
  · obtain ⟨hjk, hkj, hkn, hpending⟩ := hnoticed u k j hr
    exact ⟨hjk, hkj, hkn, fun i hi hlt => (hstopped i).trans (hpending i hi hlt)⟩
  · rwa [totals_goOn_same hw]
  · exact h.resumer i j ((hresumes i).symm.trans hi) ((hresumes j).symm.trans hj)

theorem moves_goOn (hp : ∀ i, t = .vcpu i → p.weights.moves = (s.task t).weights.moves) {i : Fin n}
    (hi : (s.task (.vcpu i)).weights.moves = 0) :
    ((s.goOn t info p).task (.vcpu i)).weights.moves = 0 := by
  by_cases hit : RoundupThread.vcpu i = t
  · rw [← hit, Threads.goOn_task_self, hp i hit.symm, ← hit, hi]
  · rwa [goOn_task_of_ne' hit]

/-- **A turn** at a stage, of a thread that stands for the same as before and stores nothing. -/
theorem SoundAt.goOn_same (h : SoundAt r s) (hw : ∀ i, t = .vcpu i → p.weights = (s.task t).weights)
    (hexternal : p.isExternal = (s.task t).isExternal) (hpinned : r.Pinned t p)
    (hread : HasRead s.shared p) : SoundAt r (s.goOn t s.shared p) :=
  h.goOn_stage (fun i hi => congrArg RoundupWeights.still (hw i hi)) hexternal rfl h.state hpinned
    (fun u _ => h.pinned u) hread (fun u _ => h.read u)
    (fun i hi => moves_goOn (fun i hi => congrArg RoundupWeights.moves (hw i hi)) (h.halted i hi))
    h.noticed h.entered h.balanced

/-- **A turn of a vCPU** to a stage at which the same vCPUs have been rounded up and stopped. -/
theorem SoundAt.goOn_vcpu_stage (h : SoundAt r s) (hrounded : ∀ j, r'.isRounded j = r.isRounded j)
    (hhalts : ∀ j, r'.halts j = r.halts j) (hentered' : r'.entered = r.entered)
    (hnoticed : ∀ t k j, r' = .rounding t k j → r = .rounding t k j)
    (hok : info.failed = s.shared.failed)
    (hself : info.state i = .of p.weights.kind (r.isRounded i))
    (hstate : ∀ j, j ≠ i → info.state j = s.shared.state j) (hexternal : p.isExternal = false)
    (hpinned : r'.Pinned (.vcpu i) p) (hpins : ∀ u, u ≠ .vcpu i → r'.Pinned u (s.task u))
    (hread : HasRead info p) (hreads : ∀ u, u ≠ .vcpu i → HasRead info (s.task u))
    (hhalted : r.halts i = true → p.weights.moves = 0)
    (hstopped : r.isRounded i = true → (s.task (.vcpu i)).weights.stopped = 1 →
      p.weights.stopped = 1)
    (hentered : info.waiterMutex = s.shared.waiterMutex)
    (hbalanced : Balanced r' info ((s.others r' i).add (r'.counted i p.weights) p.weights))
    (hresumer : p.weights.resumes = 1 → (s.task (.vcpu i)).weights.resumes = 1 ∨
      ∀ j, j ≠ i → (s.task (.vcpu j)).weights.resumes ≠ 1) :
    SoundAt r' (s.goOn (.vcpu i) info p) := by
  have htask (j : Fin n) (hj : j ≠ i) :
      (s.goOn (.vcpu i) info p).task (.vcpu j) = s.task (.vcpu j) :=
    goOn_task_of_ne' fun hji => hj (vcpu_injective hji)
  refine ⟨hok.trans h.ok, fun j => ?_, fun u => ?_, fun u => ?_, fun u => ?_, fun j hj => ?_,
    fun u k j hr => ?_, (hentered.trans h.entered).trans hentered'.symm, ?_, fun j k hj hk => ?_⟩
  · rw [hrounded]
    by_cases hj : j = i
    · subst hj
      rwa [Threads.goOn_task_self]
    · rw [htask j hj, Threads.goOn_shared, hstate j hj, h.state]
  · by_cases hu : u = .vcpu i
    · subst hu
      rwa [Threads.goOn_task_self]
    · rw [goOn_task_of_ne' hu, h.suits]
  · by_cases hu : u = .vcpu i
    · subst hu
      rwa [Threads.goOn_task_self]
    · rw [goOn_task_of_ne' hu]
      exact hpins u hu
  · by_cases hu : u = .vcpu i
    · subst hu
      rwa [Threads.goOn_task_self]
    · rw [goOn_task_of_ne' hu]
      exact hreads u hu
  · rw [hhalts] at hj
    by_cases hji : j = i
    · subst hji
      rw [Threads.goOn_task_self]
      exact hhalted hj
    · rw [htask j hji]
      exact h.halted j hj
  · have hr' := hnoticed u k j hr
    obtain ⟨hjk, hkj, hkn, hpending⟩ := h.noticed u k j hr'
    refine ⟨hjk, hkj, hkn, fun l hl hlt => ?_⟩
    by_cases hli : l = i
    · subst hli
      rw [Threads.goOn_task_self]
      refine hstopped ?_ (hpending l hl hlt)
      rw [hr']
      exact decide_eq_true (hl ▸ hlt)
    · rw [htask l hli]
      exact hpending l hl hlt
  · rwa [totals_goOn_vcpu]
  · have hmine (l : Fin n) (hl : ((s.goOn (.vcpu i) info p).task (.vcpu l)).weights.resumes = 1) :
        (s.task (.vcpu l)).weights.resumes = 1 ∨
          l = i ∧ ∀ j, j ≠ i → (s.task (.vcpu j)).weights.resumes ≠ 1 := by
      by_cases hli : l = i
      · subst hli
        rw [Threads.goOn_task_self] at hl
        exact (hresumer hl).imp_right fun hnone => ⟨rfl, hnone⟩
      · rw [htask l hli] at hl
        exact .inl hl
    obtain hj' | ⟨rfl, hnone⟩ := hmine j hj <;> obtain hk' | ⟨rfl, hnone'⟩ := hmine k hk
    · exact h.resumer j k hj' hk'
    · by_contra hjk
      exact hnone' j hjk hj'
    · by_contra hjk
      exact hnone k (Ne.symm hjk) hk'
    · rfl

/-- **A turn of a vCPU** at a stage. -/
theorem SoundAt.goOn_vcpu (h : SoundAt r s) (hok : info.failed = s.shared.failed)
    (hself : info.state i = .of p.weights.kind (r.isRounded i))
    (hstate : ∀ j, j ≠ i → info.state j = s.shared.state j) (hexternal : p.isExternal = false)
    (hpinned : r.Pinned (.vcpu i) p) (hread : HasRead info p)
    (hreads : ∀ u, u ≠ .vcpu i → HasRead info (s.task u))
    (hhalted : r.halts i = true → p.weights.moves = 0)
    (hstopped : r.isRounded i = true → (s.task (.vcpu i)).weights.stopped = 1 →
      p.weights.stopped = 1)
    (hentered : info.waiterMutex = s.shared.waiterMutex)
    (hbalanced : Balanced r info ((s.others r i).add (r.counted i p.weights) p.weights))
    (hresumer : p.weights.resumes = 1 → (s.task (.vcpu i)).weights.resumes = 1) :
    SoundAt r (s.goOn (.vcpu i) info p) :=
  h.goOn_vcpu_stage (fun _ => rfl) (fun _ => rfl) rfl (fun _ _ _ hr => hr) hok hself hstate
    hexternal hpinned (fun u _ => h.pinned u) hread hreads hhalted hstopped hentered hbalanced
    fun hresumes => .inl (hresumer hresumes)

theorem SoundAt.of_signals (h : SoundAt r s) (executionPaused : Fin n → Bool)
    (offSm resumeSig : Fin n → Signal) (sigEmulating : Signal) :
    SoundAt r { s with shared := { s.shared with
      executionPaused := executionPaused, offSm := offSm, resumeSig := resumeSig,
      sigEmulating := sigEmulating } } where
  __ := h
  balanced := ⟨h.balanced.progressing, h.balanced.waiters, h.balanced.count, h.balanced.leads,
    h.balanced.semaphores⟩

end RoundupSys

end Vml
