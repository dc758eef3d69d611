import Vml.ParallelTurns

/-!
# Round-ups are safe

**What a round-up is for.** From when it has returned until it is resumed, no vCPU emulates but the
one that has called it and those that wait for a round-up of their own, and no other round-up goes
on.

Main result: `RoundupSys.roundup_safe`: so it is in every run of any number of vCPUs and other
threads, and no `ABORT_WITH` and no `ASSERT` is reached.
-/

namespace Vml

/-- A vCPU waits in `roundup_from_vcpu` or `roundup_parallel`, and has given notice of that. -/
def RoundupPoint.waits : RoundupPoint → Bool
  | .call (.signalEmulationEnd (.yielded _)) => true
  | .call (.enter _) => true
  | .parallel .acquireCount => true
  | _ => false

/-- A round-up has entered the mutex and not left it. -/
def CallPoint.active : CallPoint → Bool
  | .away => false
  | .yield _ => false
  | .notify (.roundedup _ _) => true
  | .notify _ => false
  | .signalEmulationEnd (.roundedup _ _) => true
  | .signalEmulationEnd _ => false
  | .enter _ => false
  | _ => true

namespace RoundupSys

variable {n : ℕ} {r : RoundupStage n} {s : RoundupSys n} {t u : RoundupThread n} {i : Fin n}

/-- **One round-up at a time.** The stage is that of the thread that rounds up. -/
theorem SoundAt.owner_of_active (h : SoundAt r s) {p : CallPoint} (htask : s.task t = .call p)
    (hactive : p.active = true) : r.owner = some t := by
  have hpinned := h.pinned t
  rw [htask] at hpinned
  match p with
  | .notify (.roundedup _ _) => exact congrArg RoundupStage.owner hpinned.1
  | .signalEmulationEnd (.roundedup _ _) => exact congrArg RoundupStage.owner hpinned.1
  | .roundupLoad _ _ => exact congrArg RoundupStage.owner hpinned.1
  | .roundupCas _ _ _ => exact congrArg RoundupStage.owner hpinned.1
  | .checkProgressing _ => exact congrArg RoundupStage.owner hpinned
  | .waitForEmulationEnd _ => exact congrArg RoundupStage.owner hpinned
  | .roundedup _ => exact congrArg RoundupStage.owner hpinned.1
  | .unyield _ => exact congrArg RoundupStage.owner hpinned.1
  | .loadWaiters _ => exact congrArg RoundupStage.owner hpinned
  | .storeProgressing _ _ => exact congrArg RoundupStage.owner hpinned
  | .resumeLoad _ _ => exact congrArg RoundupStage.owner hpinned.1
  | .resumeCas _ _ _ => exact congrArg RoundupStage.owner hpinned.1
  | .resumeVcpu _ _ => exact congrArg RoundupStage.owner hpinned.1
  | .exit _ => exact congrArg RoundupStage.owner hpinned

/-- While a round-up holds the vCPUs for one thread, nobody waits to be resumed by an earlier one. -/
theorem SoundAt.resumeWaits_of_held {c : RoundupCall} (h : SoundAt (.held t c) s)
    (hc : c ≠ .parallel) : (s.task (.vcpu i)).weights.resumeWaits = 0 := by
  have hzero := h.balanced.semaphores.2.2.2 hc
  have hle : (s.task (.vcpu i)).weights.resumeWaits ≤ (s.totals (.held t c)).resumeWaits :=
    Threads.le_tally (v := RoundupThread.vcpu)
      (w := fun (_ : Fin n) (p : RoundupPoint) => p.weights.resumeWaits) i
  omega

/-- **A vCPU that emulates while a round-up holds the vCPUs** is the caller, or waits for a round-up
itself. -/
theorem SoundAt.waits_of_held {c : RoundupCall} (h : SoundAt (.held t c) s) (hc : c ≠ .parallel)
    (hkind : (s.task (.vcpu i)).weights.kind = .emulate) :
    t = .vcpu i ∨ (s.task (.vcpu i)).waits = true := by
  have hmoves := h.halted i rfl
  have hresumeWaits := h.resumeWaits_of_held (i := i) hc
  have hpinned := h.pinned (.vcpu i)
  have hsuits := h.suits (.vcpu i)
  have howner {c' : RoundupCall} (hr : RoundupStage.held t c = .held (.vcpu i) c') : t = .vcpu i := by
    injection hr
  generalize s.task (.vcpu i) = p at *
  match p with
  | .switch p =>
      have hp : p.kind = .emulate := hkind
      have hzero : (if p.kind = .emulate then 1 else 0) = 0 := hmoves
      rw [if_pos hp] at hzero
      cases hzero
  | .call (.signalEmulationEnd (.yielded _)) => exact .inr rfl
  | .call (.enter _) => exact .inr rfl
  | .parallel .acquireCount => exact .inr rfl
  | .call (.roundedup _) => exact .inl (howner hpinned.1)
  | .call (.unyield _) => exact .inl (howner hpinned.1)
  | .call (.loadWaiters _) => exact .inl (howner hpinned)
  | .call (.storeProgressing _ _) => exact .inl (howner hpinned)
  -- the other points are those of another stage, or of a vCPU that goes on
  | .call (.notify (.roundedup _ _)) => exact absurd hpinned.1 nofun
  | .call (.signalEmulationEnd (.roundedup _ _)) => exact absurd hpinned.1 nofun
  | .call (.roundupLoad _ _) => exact absurd hpinned.1 nofun
  | .call (.roundupCas _ _ _) => exact absurd hpinned.1 nofun
  | .call (.checkProgressing _) => exact absurd hpinned nofun
  | .call (.waitForEmulationEnd _) => exact absurd hpinned nofun
  | .call (.resumeLoad _ _) => exact absurd hpinned.1 nofun
  | .call (.resumeCas _ _ _) => exact absurd hpinned.1 nofun
  | .call (.resumeVcpu _ _) => exact absurd hpinned.1 nofun
  | .call (.exit _) => exact absurd hpinned nofun
  | .parallel .loadCount => exact absurd hpinned nofun
  | .parallel (.storeNumWaiters _) => exact absurd hpinned nofun
  | .parallel (.releaseCount _) => exact absurd hpinned nofun
  | .parallel .unyield => exact absurd hpinned nofun
  | .parallel .roundedup => exact absurd hpinned nofun
  | .parallel .subCount => exact absurd hpinned nofun

/-- **Round-ups are safe.** In every run of `n` vCPUs and any other threads: while a round-up has
returned and is not resumed, no vCPU is in the state `EMULATE`, and one in the state
`EMULATE_ROUNDEDUP` is the caller or waits for a round-up itself; at most one thread is between the
two ends of the mutex; `vcpus_progressing` is not 0 when it is lowered, and never more than `n`; and
no `ABORT_WITH` and no `ASSERT` is reached. -/
theorem roundup_safe (acts : List (RoundupAct n)) (s : RoundupSys n)
    (h : Run (fun s a s' => RoundupSys.next s a = some s') init acts s) :
    (∀ t c i, s.task t = .call (.roundedup c) → s.shared.state i ≠ .emulate ∧
      (s.shared.state i = .emulateRoundedup → t = .vcpu i ∨ (s.task (.vcpu i)).waits = true)) ∧
    (∀ t u p q, s.task t = .call p → s.task u = .call q → p.active = true → q.active = true →
      t = u) ∧
    (∀ t a, s.task t = .call (.notify a) → 0 < s.shared.vcpusProgressing) ∧
    s.shared.vcpusProgressing ≤ n ∧ s.shared.failed = false := by
  obtain ⟨r, hr⟩ := sound_run h
  refine ⟨fun t c i ht => ?_, fun t u p q ht hu hp hq => ?_, fun t a ht => (hr.notify ht).1, ?_,
    hr.ok⟩
  · have hpinned := hr.pinned t
    rw [ht] at hpinned
    obtain ⟨rfl, hc⟩ := hpinned
    have hstate : s.shared.state i = .of (s.task (.vcpu i)).weights.kind true := hr.state i
    rw [hstate]
    exact ⟨fun hi => absurd (CpuState.of_eq_emulate.1 hi).2 nofun,
      fun hi => hr.waits_of_held hc (CpuState.of_eq_emulateRoundedup.1 hi).1⟩
  · exact Option.some.inj ((hr.owner_of_active ht hp).symm.trans (hr.owner_of_active hu hq))
  · have hsum := hr.balanced.progressing
    omega

/-- A vCPU begins an emulation and rounds the other one up, which has not been switched on. -/
def roundupWhileEmulating : List (RoundupAct 2) :=
  [.turn (.vcpu vcpuZero), .turn (.vcpu vcpuZero), .pause vcpuZero false, .beginEmulation vcpuZero,
    .turn (.vcpu vcpuZero), .turn (.vcpu vcpuZero), .turn (.vcpu vcpuZero), .roundup 0,
    .roundupFromVcpu vcpuZero, .turn (.vcpu vcpuZero), .turn (.vcpu vcpuZero),
    .turn (.vcpu vcpuZero), .turn (.vcpu vcpuZero), .turn (.vcpu vcpuZero), .turn (.vcpu vcpuZero),
    .turn (.vcpu vcpuZero), .turn (.vcpu vcpuZero), .turn (.vcpu vcpuZero), .turn (.vcpu vcpuZero),
    .turn (.vcpu vcpuZero)]

theorem roundup_safe_emulating : ∃ s : RoundupSys 2,
    Run (fun s a s' => RoundupSys.next s a = some s') init roundupWhileEmulating s ∧
    s.task (.vcpu 0) = .call (.roundedup .fromVcpu) ∧ s.shared.state 0 = .emulateRoundedup ∧
    s.shared.state 1 = .offRoundedup ∧ s.shared.state 1 ≠ .emulate ∧
    s.shared.failed = false := by
  obtain ⟨s, hs, htask, hself, hother⟩ : ∃ s : RoundupSys 2,
      roundupWhileEmulating.foldlM RoundupSys.next init = some s ∧
      s.task (.vcpu 0) = .call (.roundedup .fromVcpu) ∧ s.shared.state 0 = .emulateRoundedup ∧
      s.shared.state 1 = .offRoundedup := ⟨_, rfl, rfl, rfl, rfl⟩
  have hsafe := roundup_safe roundupWhileEmulating s (Run.of_foldlM hs)
  exact ⟨s, Run.of_foldlM hs, htask, hself, hother, (hsafe.1 _ _ 1 htask).1, hsafe.2.2.2.2⟩

end RoundupSys

end Vml
