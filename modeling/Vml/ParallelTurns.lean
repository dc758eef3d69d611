import Vml.RoundupTurns

/-!
# The turns of a parallel round-up

Main results: `SoundAt.parallelTurn`, and from it and those of the other turns `Sound.next`: every
call and every turn keeps the invariant, and `sound_run`: it holds in every run.
-/

namespace Vml

namespace RoundupSys

variable {n : ℕ} {r r' : RoundupStage n} {s s' : RoundupSys n} {t u : RoundupThread n} {i j : Fin n}
  {p p' : RoundupPoint} {info : RoundupInfo n}

/-! ## What the stage says of the others -/

theorem HasRead.of_count (h : HasRead s.shared p) {count round : ℕ} {roundOf : Fin n → ℕ}
    {resumes : ℕ → ℕ} (hp : ∀ parallelCallers, p ≠ .parallel (.storeNumWaiters parallelCallers)) :
    HasRead { s.shared with
      count := count, round := round, roundOf := roundOf, resumes := resumes } p := by
  cases p with
  | switch p => trivial
  | call p => cases p <;> exact h
  | parallel p =>
      cases p with
      | storeNumWaiters parallelCallers => exact absurd rfl (hp parallelCallers)
      | _ => exact h

theorem HasRead.of_numWaiters (h : HasRead s.shared p) {numWaiters : ℕ}
    (hp : p ≠ .parallel .decNumWaiters) :
    HasRead { s.shared with numWaiters := numWaiters } p := by
  cases p with
  | switch p => trivial
  | call p => cases p <;> exact h
  | parallel p =>
      cases p with
      | decNumWaiters => exact absurd rfl hp
      | _ => exact h

theorem SoundAt.not_storeNumWaiters (h : SoundAt r s) (hr : ∀ u, r ≠ .gathered u)
    (u : RoundupThread n) (parallelCallers : ℕ) :
    s.task u ≠ .parallel (.storeNumWaiters parallelCallers) := fun hstore => by
  have hpinned := h.pinned u
  rw [hstore] at hpinned
  exact hr u hpinned

theorem SoundAt.count_pos (h : SoundAt r s) (hi : (s.task (.vcpu i)).weights.joined = 1) :
    0 < s.shared.count := by
  have hcount : s.shared.count =
      (s.others r i).joined + (s.task (.vcpu i)).weights.joined :=
    (h.balanced_vcpu (i := i) rfl).count
  omega

/-- The semaphore of the callers has been released only in a round-up that is shared. -/
theorem SoundAt.shares_of_countSem (h : SoundAt r s) (hsem : 0 < s.shared.countSem.length) :
    r.shares = true := by
  have hsemaphores := h.balanced.semaphores
  cases r with
  | sharing u c => rfl
  | shared => rfl
  | _ => exact absurd hsemaphores.1 (Nat.ne_of_gt hsem)

theorem SoundAt.stopped_of_resumeWaiterSem (h : SoundAt r s)
    (hsem : 0 < s.shared.resumeWaiterSem.length) : r.stopped = false := by
  have hsemaphores := h.balanced.semaphores
  cases r with
  | free => rfl
  | rounding u k j => rfl
  | gathered u => exact absurd hsemaphores.2.1 (Nat.ne_of_gt hsem)
  | sharing u c => exact absurd hsemaphores.1 (Nat.ne_of_gt hsem)
  | shared => exact absurd hsemaphores.1 (Nat.ne_of_gt hsem)
  | held u c => exact absurd hsemaphores.2.1 (Nat.ne_of_gt hsem)
  | resuming u k => exact absurd (hsemaphores.2.2 rfl) (Nat.ne_of_gt hsem)

theorem semaphores_of_going {T : Totals} (hr : r.stopped = false) : Semaphores r info T ↔
    info.countSem.length = 0 ∧
      info.resumeWaiterSem.length + info.numWaiters = T.resumeWaits + T.decs := by
  cases r with
  | free => exact ⟨fun h => ⟨h.1, h.2.1⟩, fun h => ⟨h.1, h.2, nofun⟩⟩
  | rounding u k j => exact ⟨fun h => ⟨h.1, h.2.1⟩, fun h => ⟨h.1, h.2, nofun⟩⟩
  | _ => cases hr

theorem semaphores_of_shares {T : Totals} (hr : r.shares = true) : Semaphores r info T ↔
    info.resumeWaiterSem.length = 0 ∧ T.follows = info.countSem.length + r.toTell ∧
      info.numWaiters + 1 = info.count + T.resumeWaits := by
  cases r with
  | sharing u c => exact Iff.rfl
  | shared => exact Iff.rfl
  | _ => cases hr

theorem full_of_shares (hr : r.shares = true) : r.full = true := by
  cases r with
  | sharing u c => rfl
  | shared => rfl
  | _ => cases hr

theorem not_halts_of_going (hr : r.stopped = false) (i : ℕ) : r.halts i = false := by
  cases r with
  | free => rfl
  | rounding _ _ _ => rfl
  | _ => cases hr

theorem counted_of_full (hr : r.full = true) (i : ℕ) (w : RoundupWeights) : r.counted i w = 1 :=
  if_pos hr

/-! ## `roundup_parallel` -/

theorem SoundAt.addCount (h : SoundAt r s) {round : ℕ} {roundOf : Fin n → ℕ}
    (htask : s.task (.vcpu i) = .parallel .addCount) {y : Yielder}
    (hy : y = if s.shared.count = 0 then .leader else .follower) :
    SoundAt r (s.goOn (.vcpu i) { s.shared with
      count := s.shared.count + 1, round := round, roundOf := roundOf } (.call (.yield y))) := by
  have hhalts := h.not_halts (i := i) (by rw [htask]; rfl)
  have hstate := h.state i
  have hbalanced := h.balanced_vcpu (congrArg RoundupPoint.weights htask)
  have hfull : ∀ u, r ≠ .gathered u := fun u hr => by
    rw [hr] at hhalts
    cases hhalts
  rw [htask] at hstate
  have hcount : s.shared.count = (s.others r i).joined + 0 := hbalanced.count
  have hleads : (s.others r i).leads + 0 + r.debt = min s.shared.count 1 := hbalanced.leads
  refine h.goOn_vcpu rfl hstate (fun _ _ => rfl) rfl trivial trivial
    (fun u _ => (h.read u).of_count (h.not_storeNumWaiters hfull u))
    (fun hi => absurd (hhalts.symm.trans hi) nofun) (fun _ hstopped => ?_) rfl
    ⟨hbalanced.progressing, hbalanced.waiters, ?_, ?_, ?_⟩ nofun
  · rw [htask] at hstopped
    cases hstopped
  · show s.shared.count + 1 = (s.others r i).joined + y.joined
    have hjoined : y.joined = 1 := by
      rw [hy]
      split_ifs <;> rfl
    omega
  · show (s.others r i).leads + y.leads + r.debt = min (s.shared.count + 1) 1
    rw [hy]
    split_ifs with hzero
    · show (s.others r i).leads + 1 + r.debt = min (s.shared.count + 1) 1
      omega
    · show (s.others r i).leads + 0 + r.debt = min (s.shared.count + 1) 1
      omega
  · cases r with
    | free => exact hbalanced.semaphores
    | rounding _ _ _ => exact hbalanced.semaphores
    | resuming _ _ => exact hbalanced.semaphores
    | _ => cases hhalts

/-- The first caller is to tell the others, of which there are that many. -/
theorem SoundAt.storeNumWaiters (h : SoundAt r s) {c : ℕ}
    (htask : s.task (.vcpu i) = .parallel (.storeNumWaiters c)) : SoundAt (.sharing (.vcpu i) c)
      (s.goOn (.vcpu i) { s.shared with numWaiters := c } (.parallel (.releaseCount c))) := by
  have hpinned := h.pinned (.vcpu i)
  have hread := h.read (.vcpu i)
  rw [htask] at hpinned hread
  obtain rfl : r = .gathered (.vcpu i) := hpinned
  have hread' : c + 1 = s.shared.count := hread
  have hbalanced := h.balanced
  obtain ⟨hcountSem, hsem, -, hresumeWaits, hfollows⟩ := hbalanced.semaphores
  refine h.goOn_stage (fun _ _ => by rw [htask]; rfl) (by rw [htask]; rfl) rfl h.state rfl
    (fun u hu => ?_) trivial (fun u hu => (h.read u).of_numWaiters fun hdec => ?_)
    (fun j hj => moves_goOn (fun _ _ => by rw [htask]; rfl) (h.halted j hj)) nofun h.entered
    ⟨hbalanced.progressing, hbalanced.waiters, hbalanced.count, hbalanced.leads, hsem, ?_, ?_⟩
  · exact (h.pinned u).of_not_owner (fun hu' => hu (Option.some.inj hu').symm) nofun fun hmoves =>
      (h.pinned u).of_moves hmoves nofun nofun
  · have hpinned := h.pinned u
    rw [hdec] at hpinned
    cases hpinned
  · show (s.totals (.gathered (.vcpu i))).follows = s.shared.countSem.length + c
    omega
  · show c + 1 = s.shared.count + (s.totals (.gathered (.vcpu i))).resumeWaits
    omega

theorem SoundAt.releaseCount (h : SoundAt r s) {c : ℕ} (round : ℕ)
    (htask : s.task (.vcpu i) = .parallel (.releaseCount (c + 1))) :
    SoundAt (.sharing (.vcpu i) c)
      (s.goOn (.vcpu i) { s.shared with countSem := s.shared.countSem ++ [round] }
        (.parallel (.releaseCount c))) := by
  have hpinned := h.pinned (.vcpu i)
  rw [htask] at hpinned
  obtain rfl : r = .sharing (.vcpu i) (c + 1) := hpinned
  have hbalanced := h.balanced
  obtain ⟨hsem, hfollows, hnumWaiters⟩ := hbalanced.semaphores
  refine h.goOn_stage (fun _ _ => by rw [htask]; rfl) (by rw [htask]; rfl) rfl h.state rfl
    (fun u hu => ?_) trivial (fun u _ => h.read u)
    (fun j hj => moves_goOn (fun _ _ => by rw [htask]; rfl) (h.halted j hj)) nofun h.entered
    ⟨hbalanced.progressing, hbalanced.waiters, hbalanced.count, hbalanced.leads, hsem, ?_,
      hnumWaiters⟩
  · exact (h.pinned u).of_not_owner (fun hu' => hu (Option.some.inj hu').symm) (fun _ _ => rfl)
      fun hmoves => (h.pinned u).of_moves hmoves nofun nofun
  · show (s.totals (.sharing (.vcpu i) (c + 1))).follows = (s.shared.countSem ++ [round]).length + c
    rw [List.length_append, List.length_singleton]
    omega

/-- The first caller has told the others, and returns without `unyield`. -/
theorem SoundAt.releasedCount (h : SoundAt r s)
    (htask : s.task (.vcpu i) = .parallel (.releaseCount 0)) :
    SoundAt .shared (s.goOn (.vcpu i) s.shared (.parallel .roundedup)) := by
  have hpinned := h.pinned (.vcpu i)
  rw [htask] at hpinned
  obtain rfl : r = .sharing (.vcpu i) 0 := hpinned
  have hstate := h.state i
  have hbalanced := h.balanced_vcpu (congrArg RoundupPoint.weights htask)
  rw [htask] at hstate
  have hwaiters : s.shared.vcpuWaiters = (s.others .shared i).yielding + 1 + 0 := hbalanced.waiters
  have hleads : (s.others .shared i).leads + 1 + 0 = min s.shared.count 1 := hbalanced.leads
  refine h.goOn_vcpu_stage (fun _ => rfl) (fun _ => rfl) rfl nofun rfl hstate (fun _ _ => rfl) rfl rfl
    (fun u hu => ?_) trivial (fun u _ => h.read u) (fun _ => rfl) (fun _ hstopped => ?_) rfl
    ⟨hbalanced.progressing, ?_, hbalanced.count, ?_, hbalanced.semaphores⟩ nofun
  · exact (h.pinned u).of_not_owner (fun hu' => hu (Option.some.inj hu').symm) (fun _ _ => rfl)
      fun hmoves => (h.pinned u).of_moves hmoves nofun nofun
  · rw [htask] at hstopped
    cases hstopped
  · show s.shared.vcpuWaiters = (s.others .shared i).yielding + 0 + 1
    omega
  · show (s.others .shared i).leads + 0 + 1 = min s.shared.count 1
    omega

theorem SoundAt.acquireCount (h : SoundAt r s) {round : ℕ} {countSem : List ℕ}
    (htask : s.task (.vcpu i) = .parallel .acquireCount)
    (hsem : s.shared.countSem = round :: countSem) :
    SoundAt r (s.goOn (.vcpu i) { s.shared with countSem := countSem } (.parallel .unyield)) := by
  have hlength : s.shared.countSem.length = countSem.length + 1 := congrArg List.length hsem
  have hshares := h.shares_of_countSem (by omega)
  have hstate := h.state i
  have hbalanced := h.balanced_vcpu (congrArg RoundupPoint.weights htask)
  rw [htask] at hstate
  refine h.goOn_vcpu rfl hstate (fun _ _ => rfl) rfl hshares trivial (fun u _ => h.read u)
    (fun _ => rfl) (fun _ hstopped => ?_) rfl
    ⟨hbalanced.progressing, hbalanced.waiters, hbalanced.count, hbalanced.leads, ?_⟩ nofun
  · rw [htask] at hstopped
    cases hstopped
  · obtain ⟨hresume, hfollows, hnumWaiters⟩ :=
      (semaphores_of_shares hshares).1 hbalanced.semaphores
    change (s.others r i).follows + 1 = s.shared.countSem.length + r.toTell at hfollows
    refine (semaphores_of_shares hshares).2 ⟨hresume, ?_, hnumWaiters⟩
    show (s.others r i).follows + 0 = countSem.length + r.toTell
    omega

/-- **`unyield`** of a caller that has been told. -/
theorem SoundAt.unyieldCaller (h : SoundAt r s) (htask : s.task (.vcpu i) = .parallel .unyield) :
    0 < s.shared.vcpuWaiters ∧ SoundAt r
      (s.goOn (.vcpu i) { s.shared with vcpuWaiters := s.shared.vcpuWaiters - 1 }
        (.parallel .roundedup)) := by
  have hshares := h.pinned (.vcpu i)
  rw [htask] at hshares
  have hshares' : r.shares = true := hshares
  have hstate := h.state i
  have hbalanced := h.balanced_vcpu (congrArg RoundupPoint.weights htask)
  have hpos := h.waiters_pos (i := i) (by rw [htask]; rfl)
  rw [htask] at hstate
  refine ⟨hpos, h.goOn_vcpu rfl hstate (fun _ _ => rfl) rfl hshares trivial
    (fun u _ => (h.read u).of_vcpuWaiters fun c numWaiters hstore => ?_) (fun _ => rfl)
    (fun _ hstopped => ?_) rfl ⟨?_, ?_, hbalanced.count, hbalanced.leads, hbalanced.semaphores⟩
    nofun⟩
  · have hpinned := h.pinned u
    rw [hstore] at hpinned
    obtain rfl : r = .held u c := hpinned
    cases hshares'
  · rw [htask] at hstopped
    cases hstopped
  · have hsum := hbalanced.progressing
    rw [counted_of_full (full_of_shares hshares)] at hsum ⊢
    exact hsum
  · have hwaiters : s.shared.vcpuWaiters = (s.others r i).yielding + 1 + r.debt :=
      hbalanced.waiters
    show s.shared.vcpuWaiters - 1 = (s.others r i).yielding + 0 + r.debt
    omega

/-! ## `resume_parallel` -/

theorem joined_of_shares (h : p.shares = true) : p.weights.joined = 1 := by
  match p with
  | .parallel .unyield => rfl
  | .parallel .roundedup => rfl
  | .parallel .subCount => rfl

theorem SoundAt.subCount (h : SoundAt r s) (htask : s.task (.vcpu i) = .parallel .subCount)
    (hcount : s.shared.count - 1 ≠ 0) :
    SoundAt r (s.goOn (.vcpu i) { s.shared with count := s.shared.count - 1 }
      (.parallel .acquireResumeWaiter)) := by
  have hshares := h.pinned (.vcpu i)
  rw [htask] at hshares
  have hshares' : r.shares = true := hshares
  have hstate := h.state i
  have hbalanced := h.balanced_vcpu (congrArg RoundupPoint.weights htask)
  rw [htask] at hstate
  have hjoined : s.shared.count = (s.others r i).joined + 1 := hbalanced.count
  have hleads : (s.others r i).leads + 0 + r.debt = min s.shared.count 1 := hbalanced.leads
  have hnot (u : RoundupThread n) : r ≠ .gathered u := fun hr => by
    rw [hr] at hshares'
    cases hshares'
  refine h.goOn_vcpu rfl hstate (fun _ _ => rfl) rfl trivial trivial
    (fun u _ => (h.read u).of_count (h.not_storeNumWaiters hnot u)) (fun _ => rfl)
    (fun _ hstopped => ?_) rfl ⟨?_, hbalanced.waiters, ?_, ?_, ?_⟩ nofun
  · rw [htask] at hstopped
    cases hstopped
  · have hsum := hbalanced.progressing
    rw [counted_of_full (full_of_shares hshares)] at hsum ⊢
    exact hsum
  · show s.shared.count - 1 = (s.others r i).joined + 0
    omega
  · show (s.others r i).leads + 0 + r.debt = min (s.shared.count - 1) 1
    omega
  · obtain ⟨hresume, hfollows, hnumWaiters⟩ :=
      (semaphores_of_shares hshares).1 hbalanced.semaphores
    change s.shared.numWaiters + 1 =
      s.shared.count + ((s.others r i).resumeWaits + 0) at hnumWaiters
    refine (semaphores_of_shares hshares).2 ⟨hresume, hfollows, ?_⟩
    show s.shared.numWaiters + 1 = s.shared.count - 1 + ((s.others r i).resumeWaits + 1)
    omega

/-- A vCPU that resumes a parallel round-up is at a stage of its own, or the vCPUs go on. -/
theorem not_shares_of_resumes (h : r.Pinned t p) (hp : p.weights.resumes = 1) :
    r.shares = false := by
  have hgoing (hr : r.stopped = false) : r.shares = false := by
    cases r with
    | free => rfl
    | rounding _ _ _ => rfl
    | _ => cases hr
  match p with
  | .call (.notify a) => cases a <;> cases hp
  | .call (.signalEmulationEnd a) => cases a <;> cases hp
  | .call (.unyield c) => rw [h.1]; rfl
  | .call (.loadWaiters c) => rw [h]; rfl
  | .call (.storeProgressing c _) => rw [h]; rfl
  | .call (.resumeLoad c _) => rw [h.1]; rfl
  | .call (.resumeCas c _ _) => rw [h.1]; rfl
  | .call (.resumeVcpu c _) => rw [h.1]; rfl
  | .call (.exit c) => rw [h]; rfl
  | .parallel .releaseResumeWaiter => exact hgoing h
  | .parallel .decNumWaiters => exact hgoing h

/-- When the last caller resumes, no other is in the round. -/
theorem SoundAt.last_of_subCount (h : SoundAt r s) (htask : s.task (.vcpu i) = .parallel .subCount)
    (hcount : s.shared.count - 1 = 0) : r = .shared ∧ s.shared.count = 1 ∧
      (s.others r i).joined = 0 ∧ (s.others r i).leads = 0 ∧ (s.others r i).follows = 0 := by
  have hshares := h.pinned (.vcpu i)
  rw [htask] at hshares
  have hshares' : r.shares = true := hshares
  have hbalanced := h.balanced_vcpu (congrArg RoundupPoint.weights htask)
  have hjoined : s.shared.count = (s.others r i).joined + 1 := hbalanced.count
  have hleads : (s.others r i).leads + 0 + r.debt = min s.shared.count 1 := hbalanced.leads
  have hleads_le : (s.others r i).leads ≤ (s.others r i).joined := by
    show s.tallyOthers _ (fun _ p => p.weights.leads) i ≤
      s.tallyOthers _ (fun _ p => p.weights.joined) i
    exact Threads.tallyOthers_le fun j => (Nat.le_add_right ..).trans (RoundupPoint.weighed _).leads
  have hfollows_le : (s.others r i).follows ≤ (s.others r i).joined := by
    show s.tallyOthers _ (fun _ p => p.weights.follows) i ≤
      s.tallyOthers _ (fun _ p => p.weights.joined) i
    exact Threads.tallyOthers_le fun j => (Nat.le_add_left ..).trans (RoundupPoint.weighed _).leads
  refine ⟨?_, by omega, by omega, by omega, by omega⟩
  cases r with
  | shared => rfl
  | sharing u c =>
      change (s.others (.sharing u c) i).leads + 0 + 0 = min s.shared.count 1 at hleads
      omega
  | _ => cases hshares'

theorem SoundAt.lastSubCount (h : SoundAt r s) {resumes : ℕ → ℕ}
    (htask : s.task (.vcpu i) = .parallel .subCount) (hcount : s.shared.count - 1 = 0) :
    SoundAt (.held (.vcpu i) .parallel) (s.goOn (.vcpu i) { s.shared with
      count := s.shared.count - 1, resumes := resumes } (.call (.unyield .parallel))) := by
  obtain ⟨rfl, hone, hjoined, hleads, hfollows⟩ := h.last_of_subCount htask hcount
  have hstate := h.state i
  have hbalanced := h.balanced_vcpu (congrArg RoundupPoint.weights htask)
  rw [htask] at hstate
  have hwaiters : s.shared.vcpuWaiters = (s.others .shared i).yielding + 0 + 1 := hbalanced.waiters
  obtain ⟨hsem, htold, hwaiting⟩ := hbalanced.semaphores
  change (s.others .shared i).follows + 0 = s.shared.countSem.length at htold
  change s.shared.numWaiters + 1 =
    s.shared.count + ((s.others .shared i).resumeWaits + 0) at hwaiting
  have hdecs : (s.others .shared i).decs = 0 := by
    show s.tallyOthers _ (fun _ p => p.weights.decs) i = 0
    exact Threads.tallyOthers_eq_zero fun j =>
      Nat.le_zero.1 ((RoundupPoint.weighed _).decs_le.trans_eq (h.halted j rfl))
  refine h.goOn_vcpu_stage (fun _ => rfl) (fun _ => rfl) rfl nofun rfl hstate (fun _ _ => rfl) rfl
    ⟨rfl, nofun⟩ (fun u hu => ?_) trivial
    (fun u _ => (h.read u).of_count (h.not_storeNumWaiters nofun u)) (fun _ => rfl)
    (fun _ hstopped => ?_) rfl ⟨hbalanced.progressing, ?_, ?_, ?_, ?_⟩
    fun _ => .inr fun j _ hj => nomatch not_shares_of_resumes (h.pinned (.vcpu j)) hj
  · refine (h.pinned u).of_not_owner nofun (fun hshares _ => ?_) fun hmoves =>
      (h.pinned u).of_moves hmoves nofun nofun
    cases u with
    | vcpu j =>
        have hj : j ≠ i := fun hj => hu (congrArg _ hj)
        change s.tallyOthers RoundupThread.vcpu (fun _ p => p.weights.joined) i = 0 at hjoined
        have hzero := Threads.eq_zero_of_tallyOthers hjoined hj
        exact absurd ((joined_of_shares hshares).symm.trans hzero) nofun
    | external e =>
        have hsuits := h.suits (.external e)
        generalize s.task (.external e) = p at hsuits hshares
        match p with
        | .call _ => cases hshares
  · rw [htask] at hstopped
    cases hstopped
  · show s.shared.vcpuWaiters = (s.others .shared i).yielding + 1 + 0
    omega
  · show s.shared.count - 1 = (s.others .shared i).joined + 0
    omega
  · show (s.others .shared i).leads + 0 + 0 = min (s.shared.count - 1) 1
    omega
  · refine ⟨?_, hsem, ?_, fun hparallel => absurd rfl hparallel⟩
    · show s.shared.countSem.length = 0
      omega
    · show s.shared.numWaiters =
        (s.others .shared i).resumeWaits + 0 + ((s.others .shared i).decs + 0)
      omega

theorem SoundAt.acquireResumeWaiter (h : SoundAt r s) {round : ℕ} {resumeWaiterSem : List ℕ}
    (htask : s.task (.vcpu i) = .parallel .acquireResumeWaiter)
    (hsem : s.shared.resumeWaiterSem = round :: resumeWaiterSem) :
    SoundAt r (s.goOn (.vcpu i) { s.shared with resumeWaiterSem := resumeWaiterSem }
      (.switch .emulating)) := by
  have hlength : s.shared.resumeWaiterSem.length = resumeWaiterSem.length + 1 :=
    congrArg List.length hsem
  have hgoing := h.stopped_of_resumeWaiterSem (by omega)
  have hstate := h.state i
  have hbalanced := h.balanced_vcpu (congrArg RoundupPoint.weights htask)
  rw [htask] at hstate
  have hhalts := not_halts_of_going hgoing i
  refine h.goOn_vcpu rfl hstate (fun _ _ => rfl) rfl trivial trivial (fun u _ => h.read u)
    (fun hi => absurd (hhalts.symm.trans hi) nofun) (fun _ hstopped => ?_) rfl
    ⟨hbalanced.progressing, hbalanced.waiters, hbalanced.count, hbalanced.leads, ?_⟩ nofun
  · rw [htask] at hstopped
    cases hstopped
  · obtain ⟨hcountSem, hwaiting⟩ := (semaphores_of_going hgoing).1 hbalanced.semaphores
    change s.shared.resumeWaiterSem.length + s.shared.numWaiters =
      (s.others r i).resumeWaits + 1 + ((s.others r i).decs + 0) at hwaiting
    refine (semaphores_of_going hgoing).2 ⟨hcountSem, ?_⟩
    show resumeWaiterSem.length + s.shared.numWaiters =
      (s.others r i).resumeWaits + 0 + ((s.others r i).decs + 0)
    omega

theorem SoundAt.releaseResumeWaiter (h : SoundAt r s) (round : ℕ)
    (htask : s.task (.vcpu i) = .parallel .releaseResumeWaiter) (hpos : 0 < s.shared.numWaiters) :
    SoundAt r (s.goOn (.vcpu i) { s.shared with
      resumeWaiterSem := s.shared.resumeWaiterSem ++ [round] } (.parallel .decNumWaiters)) := by
  have hgoing := h.pinned (.vcpu i)
  rw [htask] at hgoing
  have hgoing' : r.stopped = false := hgoing
  have hhalts := not_halts_of_going hgoing i
  have hstate := h.state i
  have hbalanced := h.balanced_vcpu (congrArg RoundupPoint.weights htask)
  rw [htask] at hstate
  refine h.goOn_vcpu rfl hstate (fun _ _ => rfl) rfl hgoing hpos (fun u _ => h.read u)
    (fun hi => absurd (hhalts.symm.trans hi) nofun) (fun _ hstopped => ?_) rfl
    ⟨hbalanced.progressing, hbalanced.waiters, hbalanced.count, hbalanced.leads, ?_⟩
    fun _ => by rw [htask]; rfl
  · rw [htask] at hstopped
    cases hstopped
  · obtain ⟨hcountSem, hwaiting⟩ := (semaphores_of_going hgoing').1 hbalanced.semaphores
    change s.shared.resumeWaiterSem.length + s.shared.numWaiters =
      (s.others r i).resumeWaits + 0 + ((s.others r i).decs + 0) at hwaiting
    refine (semaphores_of_going hgoing').2 ⟨hcountSem, ?_⟩
    show (s.shared.resumeWaiterSem ++ [round]).length + s.shared.numWaiters =
      (s.others r i).resumeWaits + 0 + ((s.others r i).decs + 1)
    rw [List.length_append, List.length_singleton]
    omega

/-- The last caller has released all waiters, and goes on. -/
theorem SoundAt.releasedResumeWaiters (h : SoundAt r s)
    (htask : s.task (.vcpu i) = .parallel .releaseResumeWaiter) :
    SoundAt r (s.goOn (.vcpu i) s.shared (.switch .emulating)) := by
  have hgoing := h.pinned (.vcpu i)
  rw [htask] at hgoing
  have hhalts := not_halts_of_going hgoing i
  have hstate := h.state i
  have hbalanced := h.balanced_vcpu (congrArg RoundupPoint.weights htask)
  rw [htask] at hstate
  refine h.goOn_vcpu rfl hstate (fun _ _ => rfl) rfl trivial trivial (fun u _ => h.read u)
    (fun hi => absurd (hhalts.symm.trans hi) nofun) (fun _ hstopped => ?_) rfl hbalanced nofun
  rw [htask] at hstopped
  cases hstopped

/-- The last caller has counted the release of one of the waiters. -/
theorem SoundAt.decNumWaiters (h : SoundAt r s)
    (htask : s.task (.vcpu i) = .parallel .decNumWaiters) :
    SoundAt r (s.goOn (.vcpu i) { s.shared with numWaiters := s.shared.numWaiters - 1 }
      (.parallel .releaseResumeWaiter)) := by
  have hgoing := h.pinned (.vcpu i)
  have hread := h.read (.vcpu i)
  rw [htask] at hgoing hread
  have hgoing' : r.stopped = false := hgoing
  have hpos : 0 < s.shared.numWaiters := hread
  have hhalts := not_halts_of_going hgoing i
  have hstate := h.state i
  have hbalanced := h.balanced_vcpu (congrArg RoundupPoint.weights htask)
  rw [htask] at hstate
  refine h.goOn_vcpu rfl hstate (fun _ _ => rfl) rfl hgoing trivial
    (fun u hu => (h.read u).of_numWaiters fun hdec => ?_)
    (fun hi => absurd (hhalts.symm.trans hi) nofun) (fun _ hstopped => ?_) rfl
    ⟨hbalanced.progressing, hbalanced.waiters, hbalanced.count, hbalanced.leads, ?_⟩
    fun _ => by rw [htask]; rfl
  · obtain ⟨j, rfl⟩ := h.exists_vcpu (t := u) (by rw [hdec]; rfl)
    exact hu (congrArg _ (h.resumer j i (by rw [hdec]; rfl) (by rw [htask]; rfl)))
  · rw [htask] at hstopped
    cases hstopped
  · obtain ⟨hcountSem, hwaiting⟩ := (semaphores_of_going hgoing').1 hbalanced.semaphores
    change s.shared.resumeWaiterSem.length + s.shared.numWaiters =
      (s.others r i).resumeWaits + 0 + ((s.others r i).decs + 1) at hwaiting
    refine (semaphores_of_going hgoing').2 ⟨hcountSem, ?_⟩
    show s.shared.resumeWaiterSem.length + (s.shared.numWaiters - 1) =
      (s.others r i).resumeWaits + 0 + ((s.others r i).decs + 0)
    omega

/-- **A turn of a vCPU that calls a parallel round-up.** -/
theorem SoundAt.parallelTurn (h : SoundAt r s) {p : ParallelPoint}
    (htask : s.task (.vcpu i) = .parallel p) (hturn : s.parallelTurn i p = some s') :
    ∃ r', SoundAt r' s' := by
  cases p with
  | addCount =>
      rw [RoundupSys.parallelTurn] at hturn
      split_ifs at hturn with hzero
      · obtain rfl := Option.some.inj hturn
        exact ⟨_, h.addCount htask (if_pos hzero).symm⟩
      · obtain rfl := Option.some.inj hturn
        exact ⟨_, h.addCount htask (if_neg hzero).symm⟩
  | loadCount =>
      obtain rfl := Option.some.inj hturn
      have hpinned := h.pinned (.vcpu i)
      have hpos := h.count_pos (i := i) (by rw [htask]; rfl)
      rw [htask] at hpinned
      exact ⟨_, h.goOn_same (fun _ _ => by rw [htask]; rfl) (by rw [htask]; rfl) hpinned
        (Nat.sub_add_cancel hpos)⟩
  | storeNumWaiters c =>
      obtain rfl := Option.some.inj hturn
      exact ⟨_, h.storeNumWaiters htask⟩
  | releaseCount c =>
      cases c with
      | zero =>
          obtain rfl := Option.some.inj hturn
          exact ⟨_, h.releasedCount htask⟩
      | succ c =>
          obtain rfl := Option.some.inj hturn
          exact ⟨_, h.releaseCount _ htask⟩
  | acquireCount =>
      rw [RoundupSys.parallelTurn] at hturn
      split at hturn
      · cases hturn
      · rename_i hsem
        obtain rfl := Option.some.inj hturn
        exact ⟨_, h.acquireCount htask hsem⟩
  | unyield =>
      obtain ⟨hpos, hunyield⟩ := h.unyieldCaller htask
      rw [RoundupSys.parallelTurn, if_neg (Nat.ne_of_gt hpos)] at hturn
      obtain rfl := Option.some.inj hturn
      exact ⟨_, hunyield⟩
  | roundedup => cases hturn
  | subCount =>
      rw [RoundupSys.parallelTurn] at hturn
      split_ifs at hturn with hlast
      · obtain rfl := Option.some.inj hturn
        exact ⟨_, h.lastSubCount htask hlast⟩
      · obtain rfl := Option.some.inj hturn
        exact ⟨_, h.subCount htask hlast⟩
  | acquireResumeWaiter =>
      rw [RoundupSys.parallelTurn] at hturn
      split at hturn
      · cases hturn
      · rename_i hsem
        obtain rfl := Option.some.inj hturn
        exact ⟨_, h.acquireResumeWaiter htask hsem⟩
  | releaseResumeWaiter =>
      rw [RoundupSys.parallelTurn] at hturn
      split_ifs at hturn with hpos
      · obtain rfl := Option.some.inj hturn
        exact ⟨_, h.releaseResumeWaiter _ htask hpos⟩
      · obtain rfl := Option.some.inj hturn
        exact ⟨_, h.releasedResumeWaiters htask⟩
  | decNumWaiters =>
      obtain rfl := Option.some.inj hturn
      exact ⟨_, h.decNumWaiters htask⟩

/-! ## Runs -/

/-- **The invariant of round-ups.** -/
def Sound (s : RoundupSys n) : Prop := ∃ r, SoundAt r s

theorem Sound.turn (h : Sound s) (hturn : s.turn t = some s') : Sound s' := by
  obtain ⟨r, h⟩ := h
  unfold RoundupSys.turn at hturn
  cases htask : s.task t with
  | switch p =>
      obtain ⟨i, rfl⟩ := h.exists_vcpu (t := t) (by rw [htask]; rfl)
      rw [htask] at hturn
      exact ⟨r, h.switchTurn htask hturn⟩
  | call p =>
      rw [htask] at hturn
      exact h.callTurn htask hturn
  | parallel p =>
      obtain ⟨i, rfl⟩ := h.exists_vcpu (t := t) (by rw [htask]; rfl)
      rw [htask] at hturn
      exact h.parallelTurn htask hturn

theorem Sound.leave (h : Sound s) (hleave : s.leave t p p' = some s')
    (hw : ∀ i, t = .vcpu i → p'.weights = p.weights) (hexternal : p'.isExternal = p.isExternal)
    (hpinned : ∀ r : RoundupStage n, r.Pinned t p → r.Pinned t p')
    (hread : ∀ info : RoundupInfo n, HasRead info p') : Sound s' := by
  obtain ⟨r, h⟩ := h
  rw [RoundupSys.leave] at hleave
  split_ifs at hleave with htask
  obtain rfl := Option.some.inj hleave
  have hpin := h.pinned t
  rw [htask] at hpin
  exact ⟨r, h.goOn_same (fun i hi => by rw [htask, hw i hi]) (by rw [htask, hexternal])
    (hpinned r hpin) (hread _)⟩

/-- **Every call and every turn keeps the invariant.** -/
theorem Sound.next {a : RoundupAct n} (h : Sound s) (hnext : s.next a = some s') : Sound s' := by
  cases a with
  | beginEmulation i =>
      rw [RoundupSys.next] at hnext
      exact h.leave hnext (fun _ _ => rfl) rfl (fun _ _ => trivial) fun _ => trivial
  | endEmulation i =>
      rw [RoundupSys.next] at hnext
      exact h.leave hnext (fun _ _ => rfl) rfl (fun _ _ => trivial) fun _ => trivial
  | roundup e =>
      rw [RoundupSys.next] at hnext
      exact h.leave hnext (fun _ => nofun) rfl (fun _ _ => trivial) fun _ => trivial
  | resume e =>
      rw [RoundupSys.next] at hnext
      exact h.leave hnext (fun _ => nofun) rfl (fun _ hr => hr.1) fun _ => trivial
  | roundupFromVcpu i =>
      rw [RoundupSys.next] at hnext
      exact h.leave hnext (fun _ _ => rfl) rfl (fun _ _ => trivial) fun _ => trivial
  | resumeFromVcpu i =>
      rw [RoundupSys.next] at hnext
      exact h.leave hnext (fun _ _ => rfl) rfl (fun _ hr => ⟨hr.1, nofun⟩) fun _ => trivial
  | roundupParallel i =>
      rw [RoundupSys.next] at hnext
      exact h.leave hnext (fun _ _ => rfl) rfl (fun _ _ => trivial) fun _ => trivial
  | resumeParallel i =>
      rw [RoundupSys.next] at hnext
      split_ifs at hnext with hzero
      · -- a vCPU that has joined the round is counted
        obtain ⟨_, hleave, rfl⟩ := Option.map_eq_some_iff.1 hnext
        rw [RoundupSys.leave] at hleave
        split_ifs at hleave with htask
        obtain ⟨r, h⟩ := h
        have hpos := h.count_pos (i := i) (by rw [htask]; rfl)
        omega
      · exact h.leave hnext (fun _ _ => rfl) rfl (fun _ hr => hr) fun _ => trivial
  | turn t => exact h.turn hnext
  | pause i paused =>
      obtain rfl := Option.some.inj hnext
      obtain ⟨r, h⟩ := h
      exact ⟨r, h.of_signals _ _ _ _⟩
  | switchOn i =>
      obtain rfl := Option.some.inj hnext
      obtain ⟨r, h⟩ := h
      exact ⟨r, h.of_signals _ _ _ _⟩

theorem sound_init : Sound (init : RoundupSys n) := by
  have hzero (w : Fin n → RoundupPoint → ℕ) (hw : ∀ i, w i (.switch (.onLoad .startup)) = 0) :
      number init w = 0 := Threads.tally_eq_zero hw
  refine ⟨.free, rfl, fun _ => rfl, fun t => ?_, fun t => ?_, fun t => ?_, nofun, nofun, rfl,
    ⟨?_, ?_, ?_, ?_, rfl, ?_, nofun⟩, nofun⟩
  · cases t <;> rfl
  · cases t <;> trivial
  · cases t <;> trivial
  · show n + number init (fun _ p => p.weights.yielded + 0) = n
    rw [hzero _ fun _ => rfl, Nat.add_zero]
  · show 0 = number init (fun _ p => p.weights.yielding) + 0
    rw [hzero _ fun _ => rfl]
  · show 0 = number init (fun _ p => p.weights.joined)
    rw [hzero _ fun _ => rfl]
  · show number init (fun _ p => p.weights.leads) + 0 = 0
    rw [hzero _ fun _ => rfl]
  · show 0 = number init (fun _ p => p.weights.resumeWaits) + number init (fun _ p => p.weights.decs)
    rw [hzero _ fun _ => rfl, hzero _ fun _ => rfl]

/-- **In every run** of any threads the invariant holds. -/
theorem sound_run {acts : List (RoundupAct n)}
    (h : Run (fun s a s' => RoundupSys.next s a = some s') init acts s) : Sound s :=
  h.invariant (fun _ _ _ hs hnext => hs.next hnext) sound_init

end RoundupSys

end Vml
