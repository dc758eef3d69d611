import Vml.RoundupSafety

/-!
# Rounds of parallel calls

**Rounds.** A round begins with the call of `roundup_parallel` that finds `count` to be 0, and the
callers of a round are those that have called since and not returned from `resume_parallel`. The next
round may begin while the callers of the last one are still being released.

**Labels.** `Labelled`: what the history variables say of who is where, of the releases of the
semaphores, and of how often a round has been resumed. Most turns change nothing of it (`Quiet`).

Main result: `RoundupSys.parallel_roundup_safe`.
-/

namespace Vml

/-- The vCPU takes part in a parallel round-up for which all vCPUs have stopped. -/
def RoundupPoint.knows : RoundupPoint → Bool
  | .parallel .loadCount => true
  | .parallel (.storeNumWaiters _) => true
  | .parallel (.releaseCount _) => true
  | .parallel .unyield => true
  | .parallel .roundedup => true
  | .parallel .subCount => true
  | _ => false

/-- The vCPU has called `resume_parallel` and not returned. -/
def RoundupPoint.resumes (p : RoundupPoint) : Prop :=
  p.weights.resumeWaits = 1 ∨ p.weights.resumes = 1

/-- In which part of a round a vCPU is. -/
def RoundupWeights.roles (w : RoundupWeights) : ℕ × ℕ × ℕ := (w.joined, w.resumeWaits, w.resumes)

namespace RoundupSys

variable {n : ℕ} {r r' : RoundupStage n} {s s' : RoundupSys n} {t u : RoundupThread n} {i j : Fin n}
  {p p' : RoundupPoint} {info : RoundupInfo n}

/-- Some vCPU knows that all have stopped, or is to be told so. -/
def Known (s : RoundupSys n) : Prop :=
  (∃ i, (s.task (.vcpu i)).knows = true) ∨ s.shared.countSem ≠ []

/-- **What the labels say.** -/
structure Labelled (s : RoundupSys n) : Prop where
  le_round : ∀ i, s.shared.roundOf i ≤ s.shared.round
  joined : ∀ i, (s.task (.vcpu i)).weights.joined = 1 → s.shared.roundOf i = s.shared.round
  /-- Those that resume are of one round. -/
  resumes : ∀ i j, (s.task (.vcpu i)).resumes → (s.task (.vcpu j)).resumes →
    s.shared.roundOf i = s.shared.roundOf j
  /-- Which is not that of a vCPU that has joined one while another resumes it. -/
  resumed : ∀ i j, (s.task (.vcpu i)).weights.resumes = 1 →
    (s.task (.vcpu j)).weights.joined = 1 → s.shared.roundOf i ≠ s.shared.roundOf j
  countSem : ∀ round ∈ s.shared.countSem, round = s.shared.round
  resumeWaiterSem : ∀ round ∈ s.shared.resumeWaiterSem, ∀ i, (s.task (.vcpu i)).resumes →
    round = s.shared.roundOf i
  /-- Once all vCPUs have stopped, those that wait to be resumed are of this round. -/
  knows : Known s → ∀ j, (s.task (.vcpu j)).weights.resumeWaits = 1 →
    s.shared.roundOf j = s.shared.round
  begun : s.shared.count ≠ 0 → 1 ≤ s.shared.round
  history : ∀ round, s.shared.resumes round =
    if 1 ≤ round ∧ (round < s.shared.round ∨ round = s.shared.round ∧ s.shared.count = 0) then 1
    else 0

/-- What the labels are about is the same. -/
structure SameRounds (info info' : RoundupInfo n) : Prop where
  round : info'.round = info.round
  roundOf : info'.roundOf = info.roundOf
  resumes : info'.resumes = info.resumes
  count : info'.count = info.count
  countSem : info'.countSem = info.countSem
  resumeWaiterSem : info'.resumeWaiterSem = info.resumeWaiterSem

/-- The turn has nothing to do with rounds. -/
structure Quiet (s s' : RoundupSys n) : Prop extends SameRounds s.shared s'.shared where
  roles : ∀ i, (s'.task (.vcpu i)).weights.roles = (s.task (.vcpu i)).weights.roles
  knows : ∀ i, (s'.task (.vcpu i)).knows = true → (s.task (.vcpu i)).knows = true ∨
    s'.task (.vcpu i) = .parallel .loadCount

theorem SoundAt.resumeWaits_of_loadCount (h : SoundAt r s)
    (htask : s.task (.vcpu i) = .parallel .loadCount) :
    (s.task (.vcpu j)).weights.resumeWaits = 0 := by
  have hpinned := h.pinned (.vcpu i)
  rw [htask] at hpinned
  obtain rfl : r = .gathered (.vcpu i) := hpinned
  have hzero := h.balanced.semaphores.2.2.2.1
  have hle : (s.task (.vcpu j)).weights.resumeWaits ≤
      (s.totals (.gathered (.vcpu i))).resumeWaits :=
    Threads.le_tally (v := RoundupThread.vcpu)
      (w := fun (_ : Fin n) (p : RoundupPoint) => p.weights.resumeWaits) j
  omega

/-- **Quiet turns keep the labels.** -/
theorem Labelled.quiet (h : Labelled s) (hsound : Sound s') (hquiet : Quiet s s') :
    Labelled s' := by
  have hjoined (i : Fin n) : (s'.task (.vcpu i)).weights.joined =
      (s.task (.vcpu i)).weights.joined := congrArg (·.1) (hquiet.roles i)
  have hwaits (i : Fin n) : (s'.task (.vcpu i)).weights.resumeWaits =
      (s.task (.vcpu i)).weights.resumeWaits := congrArg (·.2.1) (hquiet.roles i)
  have hresumes (i : Fin n) : (s'.task (.vcpu i)).weights.resumes =
      (s.task (.vcpu i)).weights.resumes := congrArg (·.2.2) (hquiet.roles i)
  have hin (i : Fin n) : (s'.task (.vcpu i)).resumes ↔ (s.task (.vcpu i)).resumes := by
    rw [RoundupPoint.resumes, RoundupPoint.resumes, hwaits, hresumes]
  obtain ⟨r', hr'⟩ := hsound
  constructor
  · rw [hquiet.round, hquiet.roundOf]
    exact h.le_round
  · intro i hi
    rw [hjoined] at hi
    rw [hquiet.round, hquiet.roundOf]
    exact h.joined i hi
  · intro i j hi hj
    rw [hquiet.roundOf]
    exact h.resumes i j ((hin i).1 hi) ((hin j).1 hj)
  · intro i j hi hj
    rw [hresumes] at hi
    rw [hjoined] at hj
    rw [hquiet.roundOf]
    exact h.resumed i j hi hj
  · rw [hquiet.countSem, hquiet.round]
    exact h.countSem
  · rw [hquiet.resumeWaiterSem, hquiet.roundOf]
    exact fun round hround i hi => h.resumeWaiterSem round hround i ((hin i).1 hi)
  · intro hknows j hj
    rw [Known, hquiet.countSem] at hknows
    rw [hquiet.round, hquiet.roundOf]
    obtain ⟨i, hi⟩ | hsem := hknows
    · obtain hi | hload := hquiet.knows i hi
      · exact h.knows (.inl ⟨i, hi⟩) j (hwaits j ▸ hj)
      · have hzero := hr'.resumeWaits_of_loadCount (j := j) hload
        omega
    · exact h.knows (.inr hsem) j (hwaits j ▸ hj)
  · rw [hquiet.count, hquiet.round]
    exact h.begun
  · rw [hquiet.resumes, hquiet.round, hquiet.count]
    exact h.history

/-- A thread that goes on in the same part of a round. -/
theorem quiet_goOn (hroles : ∀ i, t = .vcpu i → p.weights.roles = (s.task t).weights.roles)
    (hknows : p.knows = true → (s.task t).knows = true ∨ p = .parallel .loadCount)
    (hrounds : SameRounds s.shared info) : Quiet s (s.goOn t info p) := by
  refine ⟨hrounds, fun i => ?_, fun i hi => ?_⟩
  · by_cases hit : RoundupThread.vcpu i = t
    · rw [← hit, Threads.goOn_task_self, hroles i hit.symm, hit]
    · rw [goOn_task_of_ne' hit]
  · by_cases hit : RoundupThread.vcpu i = t
    · rw [← hit, Threads.goOn_task_self] at hi ⊢
      rw [hit]
      exact hknows hi
    · rw [goOn_task_of_ne' hit] at hi
      exact .inl hi

theorem quiet_fail : Quiet s s.fail :=
  ⟨⟨rfl, rfl, rfl, rfl, rfl, rfl⟩, fun _ => rfl, fun _ hi => .inl hi⟩

theorem quiet_switchTurn {p : SwitchPoint} (htask : s.task (.vcpu i) = .switch p)
    (hturn : s.switchTurn i p = some s') : Quiet s s' := by
  have hswitch (q : SwitchPoint) (info : RoundupInfo n) (hrounds : SameRounds s.shared info) :
      Quiet s (s.goOn (.vcpu i) info (.switch q)) :=
    quiet_goOn (fun _ _ => by rw [htask]; rfl) (by rintro ⟨⟩) hrounds
  cases p with
  | running => cases hturn
  | emulating => cases hturn
  | waitIfExecPaused =>
      rw [switchTurn] at hturn
      split_ifs at hturn <;> obtain rfl := Option.some.inj hturn
      · exact hswitch _ _ ⟨rfl, rfl, rfl, rfl, rfl, rfl⟩
      · exact hswitch _ _ ⟨rfl, rfl, rfl, rfl, rfl, rfl⟩
  | offLoad =>
      obtain rfl := Option.some.inj hturn
      exact hswitch _ _ ⟨rfl, rfl, rfl, rfl, rfl, rfl⟩
  | offCas cur =>
      rw [switchTurn] at hturn
      split at hturn
      · obtain rfl := Option.some.inj hturn
        exact quiet_fail
      · split_ifs at hturn <;> obtain rfl := Option.some.inj hturn
        · exact hswitch _ _ ⟨rfl, rfl, rfl, rfl, rfl, rfl⟩
        · exact hswitch _ _ ⟨rfl, rfl, rfl, rfl, rfl, rfl⟩
  | waitForSwitchOn =>
      obtain ⟨sm, -, rfl⟩ := Option.map_eq_some_iff.1 hturn
      exact hswitch _ _ ⟨rfl, rfl, rfl, rfl, rfl, rfl⟩
  | onLoad cause =>
      obtain rfl := Option.some.inj hturn
      exact hswitch _ _ ⟨rfl, rfl, rfl, rfl, rfl, rfl⟩
  | onCas cause cur =>
      rw [switchTurn] at hturn
      split at hturn
      · obtain rfl := Option.some.inj hturn
        exact quiet_fail
      · split_ifs at hturn <;> obtain rfl := Option.some.inj hturn
        · exact quiet_goOn (fun _ _ => by rw [htask]; rfl) (by rintro ⟨⟩) ⟨rfl, rfl, rfl, rfl, rfl, rfl⟩
        · exact hswitch _ _ ⟨rfl, rfl, rfl, rfl, rfl, rfl⟩
        · exact hswitch _ _ ⟨rfl, rfl, rfl, rfl, rfl, rfl⟩
  | emulatingLoad =>
      rw [switchTurn] at hturn
      split at hturn <;> obtain rfl := Option.some.inj hturn
      · exact hswitch _ _ ⟨rfl, rfl, rfl, rfl, rfl, rfl⟩
      · exact hswitch _ _ ⟨rfl, rfl, rfl, rfl, rfl, rfl⟩
      · exact quiet_fail
  | emulatingCas cur =>
      rw [switchTurn] at hturn
      split_ifs at hturn <;> obtain rfl := Option.some.inj hturn
      · exact hswitch _ _ ⟨rfl, rfl, rfl, rfl, rfl, rfl⟩
      · exact hswitch _ _ ⟨rfl, rfl, rfl, rfl, rfl, rfl⟩
      · exact quiet_fail
  | waitForResume =>
      obtain ⟨sm, -, rfl⟩ := Option.map_eq_some_iff.1 hturn
      exact hswitch _ _ ⟨rfl, rfl, rfl, rfl, rfl, rfl⟩

theorem not_knows_after (a : Notifier) : a.after.knows = false := by
  match a with
  | .emulated => rfl
  | .yielded .fromVcpu => rfl
  | .yielded .leader => rfl
  | .yielded .follower => rfl
  | .roundedup _ _ => rfl

theorem roles_after (a : Notifier) :
    a.after.weights.roles = (RoundupPoint.call (.notify a)).weights.roles := by
  match a with
  | .emulated => rfl
  | .yielded .fromVcpu => rfl
  | .yielded .leader => rfl
  | .yielded .follower => rfl
  | .roundedup _ _ => rfl

theorem quiet_callTurn {p : CallPoint} (htask : s.task t = .call p)
    (hturn : s.callTurn t p = some s') : Quiet s s' := by
  have hcall (q : RoundupPoint) (info : RoundupInfo n)
      (hroles : q.weights.roles = (RoundupPoint.call p).weights.roles)
      (hknows : q.knows = true → q = .parallel .loadCount) (hrounds : SameRounds s.shared info) :
      Quiet s (s.goOn t info q) :=
    quiet_goOn (fun _ _ => by rw [htask]; exact hroles) (fun hq => .inr (hknows hq)) hrounds
  cases p with
  | away => cases hturn
  | yield y =>
      obtain rfl := Option.some.inj hturn
      exact hcall _ _ rfl (by rintro ⟨⟩) ⟨rfl, rfl, rfl, rfl, rfl, rfl⟩
  | notify a =>
      rw [callTurn] at hturn
      split_ifs at hturn <;> obtain rfl := Option.some.inj hturn
      · exact quiet_fail
      · refine hcall _ _ ?_ (by rintro ⟨⟩) ⟨rfl, rfl, rfl, rfl, rfl, rfl⟩
        cases a <;> rfl
      · refine hcall _ _ (roles_after a) (fun hq => ?_) ⟨rfl, rfl, rfl, rfl, rfl, rfl⟩
        exact absurd ((not_knows_after a).symm.trans hq) (by simp)
  | signalEmulationEnd a =>
      obtain rfl := Option.some.inj hturn
      refine hcall _ _ ?_ (fun hq => ?_) ⟨rfl, rfl, rfl, rfl, rfl, rfl⟩
      · exact (roles_after a).trans (by cases a <;> rfl)
      · exact absurd ((not_knows_after a).symm.trans hq) (by simp)
  | enter c =>
      rw [callTurn] at hturn
      split_ifs at hturn
      obtain rfl := Option.some.inj hturn
      exact hcall _ _ rfl (by rintro ⟨⟩) ⟨rfl, rfl, rfl, rfl, rfl, rfl⟩
  | roundupLoad c k =>
      rw [callTurn] at hturn
      split_ifs at hturn <;> obtain rfl := Option.some.inj hturn
      · exact hcall _ _ rfl (by rintro ⟨⟩) ⟨rfl, rfl, rfl, rfl, rfl, rfl⟩
      · exact hcall _ _ rfl (by rintro ⟨⟩) ⟨rfl, rfl, rfl, rfl, rfl, rfl⟩
  | roundupCas c k cur =>
      have hk : k < n := by
        by_contra hk
        rw [callTurn, dif_neg hk] at hturn
        cases hturn
      rw [callTurn, dif_pos hk] at hturn
      split at hturn
      · obtain rfl := Option.some.inj hturn
        exact quiet_fail
      · split_ifs at hturn <;> obtain rfl := Option.some.inj hturn
        · exact hcall _ _ rfl (by rintro ⟨⟩) ⟨rfl, rfl, rfl, rfl, rfl, rfl⟩
        · exact hcall _ _ rfl (by rintro ⟨⟩) ⟨rfl, rfl, rfl, rfl, rfl, rfl⟩
        · exact hcall _ _ rfl (by rintro ⟨⟩) ⟨rfl, rfl, rfl, rfl, rfl, rfl⟩
  | checkProgressing c =>
      rw [callTurn] at hturn
      split_ifs at hturn <;> obtain rfl := Option.some.inj hturn
      · cases c with
        | external => exact hcall _ _ rfl (by rintro ⟨⟩) ⟨rfl, rfl, rfl, rfl, rfl, rfl⟩
        | fromVcpu => exact hcall _ _ rfl (by rintro ⟨⟩) ⟨rfl, rfl, rfl, rfl, rfl, rfl⟩
        | parallel => exact hcall _ _ rfl (fun _ => rfl) ⟨rfl, rfl, rfl, rfl, rfl, rfl⟩
      · exact hcall _ _ rfl (by rintro ⟨⟩) ⟨rfl, rfl, rfl, rfl, rfl, rfl⟩
  | waitForEmulationEnd c =>
      obtain ⟨sm, -, rfl⟩ := Option.map_eq_some_iff.1 hturn
      exact hcall _ _ rfl (by rintro ⟨⟩) ⟨rfl, rfl, rfl, rfl, rfl, rfl⟩
  | roundedup c => cases hturn
  | unyield c =>
      rw [callTurn] at hturn
      split_ifs at hturn <;> obtain rfl := Option.some.inj hturn
      · exact quiet_fail
      · exact hcall _ _ rfl (by rintro ⟨⟩) ⟨rfl, rfl, rfl, rfl, rfl, rfl⟩
  | loadWaiters c =>
      rw [callTurn] at hturn
      split_ifs at hturn <;> obtain rfl := Option.some.inj hturn
      · exact hcall _ _ rfl (by rintro ⟨⟩) ⟨rfl, rfl, rfl, rfl, rfl, rfl⟩
      · exact quiet_fail
  | storeProgressing c numWaiters =>
      obtain rfl := Option.some.inj hturn
      exact hcall _ _ rfl (by rintro ⟨⟩) ⟨rfl, rfl, rfl, rfl, rfl, rfl⟩
  | resumeLoad c k =>
      rw [callTurn] at hturn
      split_ifs at hturn <;> obtain rfl := Option.some.inj hturn
      · exact hcall _ _ rfl (by rintro ⟨⟩) ⟨rfl, rfl, rfl, rfl, rfl, rfl⟩
      · exact hcall _ _ rfl (by rintro ⟨⟩) ⟨rfl, rfl, rfl, rfl, rfl, rfl⟩
  | resumeCas c k cur =>
      have hk : k < n := by
        by_contra hk
        rw [callTurn, dif_neg hk] at hturn
        cases hturn
      rw [callTurn, dif_pos hk] at hturn
      split at hturn
      · obtain rfl := Option.some.inj hturn
        exact quiet_fail
      · split_ifs at hturn <;> obtain rfl := Option.some.inj hturn
        · exact hcall _ _ rfl (by rintro ⟨⟩) ⟨rfl, rfl, rfl, rfl, rfl, rfl⟩
        · exact hcall _ _ rfl (by rintro ⟨⟩) ⟨rfl, rfl, rfl, rfl, rfl, rfl⟩
  | resumeVcpu c k =>
      rw [callTurn] at hturn
      split_ifs at hturn
      obtain rfl := Option.some.inj hturn
      exact hcall _ _ rfl (by rintro ⟨⟩) ⟨rfl, rfl, rfl, rfl, rfl, rfl⟩
  | exit c =>
      obtain rfl := Option.some.inj hturn
      cases c with
      | external => exact hcall _ _ rfl (by rintro ⟨⟩) ⟨rfl, rfl, rfl, rfl, rfl, rfl⟩
      | fromVcpu => exact hcall _ _ rfl (by rintro ⟨⟩) ⟨rfl, rfl, rfl, rfl, rfl, rfl⟩
      | parallel => exact hcall _ _ rfl (by rintro ⟨⟩) ⟨rfl, rfl, rfl, rfl, rfl, rfl⟩

/-! ## The turns of a parallel round-up -/

theorem task_goOn_vcpu (j : Fin n) : (s.goOn (.vcpu i) info p).task (.vcpu j) =
    if j = i then p else s.task (.vcpu j) := by
  split_ifs with hj
  · subst hj
    exact Threads.goOn_task_self ..
  · exact goOn_task_of_ne' fun hji => hj (vcpu_injective hji)

/-- **A turn of a vCPU** that does not join a round and does not begin to resume one. -/
theorem Labelled.goOn (h : Labelled s) (hround : info.round = s.shared.round)
    (hroundOf : info.roundOf = s.shared.roundOf) (hhistory : info.resumes = s.shared.resumes)
    (hcount : info.count = s.shared.count)
    (hjoined : p.weights.joined = 1 → (s.task (.vcpu i)).weights.joined = 1)
    (hwaits : p.weights.resumeWaits = 1 → (s.task (.vcpu i)).weights.resumeWaits = 1)
    (hresumes : p.weights.resumes = 1 → (s.task (.vcpu i)).weights.resumes = 1)
    (hknown : p.knows = true ∨ info.countSem ≠ [] → Known s)
    (hcountSem : ∀ round ∈ info.countSem, round = s.shared.round)
    (hsem : ∀ round ∈ info.resumeWaiterSem, round ∈ s.shared.resumeWaiterSem ∨
      round = s.shared.roundOf i ∧ (s.task (.vcpu i)).resumes) :
    Labelled (s.goOn (.vcpu i) info p) := by
  have hjoined' (j : Fin n)
      (hj : ((s.goOn (.vcpu i) info p).task (.vcpu j)).weights.joined = 1) :
      (s.task (.vcpu j)).weights.joined = 1 := by
    rw [task_goOn_vcpu] at hj
    split_ifs at hj with hji
    · exact hji ▸ hjoined hj
    · exact hj
  have hwaits' (j : Fin n)
      (hj : ((s.goOn (.vcpu i) info p).task (.vcpu j)).weights.resumeWaits = 1) :
      (s.task (.vcpu j)).weights.resumeWaits = 1 := by
    rw [task_goOn_vcpu] at hj
    split_ifs at hj with hji
    · exact hji ▸ hwaits hj
    · exact hj
  have hresumes' (j : Fin n)
      (hj : ((s.goOn (.vcpu i) info p).task (.vcpu j)).weights.resumes = 1) :
      (s.task (.vcpu j)).weights.resumes = 1 := by
    rw [task_goOn_vcpu] at hj
    split_ifs at hj with hji
    · exact hji ▸ hresumes hj
    · exact hj
  have hin (j : Fin n) (hj : ((s.goOn (.vcpu i) info p).task (.vcpu j)).resumes) :
      (s.task (.vcpu j)).resumes := hj.imp (hwaits' j) (hresumes' j)
  have hknown' (hk : Known (s.goOn (.vcpu i) info p)) : Known s := by
    obtain ⟨j, hj⟩ | hk := hk
    · rw [task_goOn_vcpu] at hj
      split_ifs at hj with hji
      · exact hknown (.inl hj)
      · exact .inl ⟨j, hj⟩
    · exact hknown (.inr hk)
  constructor <;> rw [Threads.goOn_shared]
  · rw [hround, hroundOf]
    exact h.le_round
  · rw [hround, hroundOf]
    exact fun j hj => h.joined j (hjoined' j hj)
  · rw [hroundOf]
    exact fun j k hj hk => h.resumes j k (hin j hj) (hin k hk)
  · rw [hroundOf]
    exact fun j k hj hk => h.resumed j k (hresumes' j hj) (hjoined' k hk)
  · rw [hround]
    exact hcountSem
  · rw [hroundOf]
    intro round hr j hj
    obtain hr | ⟨rfl, hi⟩ := hsem round hr
    · exact h.resumeWaiterSem round hr j (hin j hj)
    · exact h.resumes i j hi (hin j hj)
  · rw [hround, hroundOf]
    exact fun hk j hj => h.knows (hknown' hk) j (hwaits' j hj)
  · rw [hcount, hround]
    exact h.begun
  · rw [hhistory, hround, hcount]
    exact h.history

/-- While a vCPU goes on, no round has been told that all have stopped. -/
theorem SoundAt.not_known (h : SoundAt r s) (hr : r.full = false) : ¬Known s := by
  rintro (⟨j, hj⟩ | hsem)
  · have hpinned := h.pinned (.vcpu j)
    generalize s.task (.vcpu j) = q at hj hpinned
    match q with
    | .parallel .loadCount => exact absurd (hpinned ▸ hr) nofun
    | .parallel (.storeNumWaiters _) => exact absurd (hpinned ▸ hr) nofun
    | .parallel (.releaseCount _) => exact absurd (hpinned ▸ hr) nofun
    | .parallel .unyield => exact absurd ((full_of_shares hpinned).symm.trans hr) nofun
    | .parallel .roundedup => exact absurd ((full_of_shares hpinned).symm.trans hr) nofun
    | .parallel .subCount => exact absurd ((full_of_shares hpinned).symm.trans hr) nofun
  · have hshares := h.shares_of_countSem (List.length_pos_of_ne_nil hsem)
    exact absurd ((full_of_shares hshares).symm.trans hr) nofun

theorem SoundAt.exists_joined (h : SoundAt r s) (hcount : s.shared.count ≠ 0) :
    ∃ j, (s.task (.vcpu j)).weights.joined = 1 := by
  by_contra hnone
  refine hcount (h.balanced.count.trans ?_)
  refine Threads.tally_eq_zero (v := RoundupThread.vcpu)
    (w := fun (_ : Fin n) (p : RoundupPoint) => p.weights.joined) fun j => ?_
  have hle := RoundupPoint.joined_le_one (s.task (.vcpu j))
  have hne : (s.task (.vcpu j)).weights.joined ≠ 1 := fun hj => hnone ⟨j, hj⟩
  show (s.task (.vcpu j)).weights.joined = 0
  omega

theorem SoundAt.resumeWaits_of_shares (h : SoundAt r s) (hr : r.shares = true)
    (hj : (s.task (.vcpu j)).resumes) : (s.task (.vcpu j)).weights.resumeWaits = 1 := by
  obtain hj | hj := hj
  · exact hj
  · exact absurd (hr.symm.trans (not_shares_of_resumes (h.pinned (.vcpu j)) hj)) nofun

theorem Labelled.addCount (h : Labelled s) (hs : SoundAt r s) {y : Yielder} {round : ℕ}
    (htask : s.task (.vcpu i) = .parallel .addCount)
    (hround : round = if s.shared.count = 0 then s.shared.round + 1 else s.shared.round) :
    Labelled (s.goOn (.vcpu i) { s.shared with
      count := s.shared.count + 1
      round := round
      roundOf := Function.update s.shared.roundOf i round } (.call (.yield y))) := by
  have hhalts := hs.not_halts (i := i) (by rw [htask]; rfl)
  have hfull : r.full = false := by
    cases r with
    | free => rfl
    | rounding _ _ _ => rfl
    | resuming _ _ => rfl
    | _ => cases hhalts
  have hknown := hs.not_known hfull
  have hle : s.shared.round ≤ round := by
    rw [hround]
    split_ifs <;> omega
  -- a round in which nobody is resumed
  have hnew (j : Fin n) (hj : (s.task (.vcpu j)).weights.resumes = 1) :
      s.shared.roundOf j ≠ round := by
    rw [hround]
    split_ifs with hzero
    · have := h.le_round j
      omega
    · obtain ⟨k, hk⟩ := hs.exists_joined hzero
      exact h.joined k hk ▸ h.resumed j k hj hk
  constructor <;> rw [Threads.goOn_shared]
  · intro j
    show Function.update s.shared.roundOf i round j ≤ round
    by_cases hji : j = i
    · rw [hji, Function.update_self]
    · rw [Function.update_of_ne hji]
      exact (h.le_round j).trans hle
  · intro j hj
    show Function.update s.shared.roundOf i round j = round
    by_cases hji : j = i
    · rw [hji, Function.update_self]
    · rw [task_goOn_vcpu, if_neg hji] at hj
      have hcount := hs.count_pos hj
      rw [Function.update_of_ne hji, h.joined j hj, hround, if_neg (Nat.ne_of_gt hcount)]
  · intro j k hj hk
    show Function.update s.shared.roundOf i round j = Function.update s.shared.roundOf i round k
    rw [task_goOn_vcpu] at hj hk
    split_ifs at hj with hji
    · cases hj <;> contradiction
    split_ifs at hk with hki
    · cases hk <;> contradiction
    rw [Function.update_of_ne hji, Function.update_of_ne hki]
    exact h.resumes j k hj hk
  · intro j k hj hk
    show Function.update s.shared.roundOf i round j ≠ Function.update s.shared.roundOf i round k
    rw [task_goOn_vcpu] at hj hk
    split_ifs at hj with hji
    · cases hj
    rw [Function.update_of_ne hji]
    split_ifs at hk with hki
    · rw [hki, Function.update_self]
      exact hnew j hj
    · rw [Function.update_of_ne hki]
      exact h.resumed j k hj hk
  · intro round' hr
    exact absurd (.inr (List.ne_nil_of_mem hr)) hknown
  · intro round' hr j hj
    show round' = Function.update s.shared.roundOf i round j
    rw [task_goOn_vcpu] at hj
    split_ifs at hj with hji
    · cases hj <;> contradiction
    rw [Function.update_of_ne hji]
    exact h.resumeWaiterSem round' hr j hj
  · rintro (⟨j, hj⟩ | hsem)
    · rw [task_goOn_vcpu] at hj
      split_ifs at hj with hji
      · cases hj
      · exact absurd (.inl ⟨j, hj⟩) hknown
    · exact absurd (.inr hsem) hknown
  · intro _
    show 1 ≤ round
    rw [hround]
    split_ifs with hzero
    · omega
    · exact h.begun hzero
  · intro round'
    show s.shared.resumes round' =
      if 1 ≤ round' ∧ (round' < round ∨ round' = round ∧ s.shared.count + 1 = 0) then 1 else 0
    rw [h.history]
    refine if_congr (and_congr_right fun _ => ?_) rfl rfl
    split_ifs at hround with hzero <;> omega

theorem Labelled.releaseCount (h : Labelled s) {c : ℕ}
    (htask : s.task (.vcpu i) = .parallel (.releaseCount (c + 1))) :
    Labelled (s.goOn (.vcpu i) { s.shared with
      countSem := s.shared.countSem ++ [s.shared.roundOf i] } (.parallel (.releaseCount c))) := by
  have hround := h.joined i (by rw [htask]; rfl)
  refine h.goOn rfl rfl rfl rfl (fun _ => by rw [htask]; rfl) nofun nofun
    (fun _ => .inl ⟨i, by rw [htask]; rfl⟩) (fun round hr => ?_) fun round hr => .inl hr
  obtain hr | hr := List.mem_append.1 hr
  · exact h.countSem round hr
  · exact (List.mem_singleton.1 hr).trans hround

theorem Labelled.acquireCount (h : Labelled s) {round : ℕ} {countSem : List ℕ}
    (htask : s.task (.vcpu i) = .parallel .acquireCount)
    (hsem : s.shared.countSem = round :: countSem) :
    Labelled (s.goOn (.vcpu i) { s.shared with countSem := countSem } (.parallel .unyield)) :=
  h.goOn rfl rfl rfl rfl (fun _ => by rw [htask]; rfl) nofun nofun
    (fun _ => .inr (hsem ▸ List.cons_ne_nil round countSem))
    (fun round' hr => h.countSem round' (by rw [hsem]; exact List.mem_cons_of_mem _ hr))
    fun round' hr => .inl hr

theorem Labelled.subCount (h : Labelled s) (hs : SoundAt r s)
    (htask : s.task (.vcpu i) = .parallel .subCount) (hcount : s.shared.count - 1 ≠ 0) :
    Labelled (s.goOn (.vcpu i) { s.shared with count := s.shared.count - 1 }
      (.parallel .acquireResumeWaiter)) := by
  have hshares := hs.pinned (.vcpu i)
  rw [htask] at hshares
  have hshares' : r.shares = true := hshares
  have hround := h.joined i (by rw [htask]; rfl)
  have hknown : Known s := .inl ⟨i, by rw [htask]; rfl⟩
  have hsem : s.shared.resumeWaiterSem = [] :=
    List.length_eq_zero_iff.1 ((semaphores_of_shares hshares').1 hs.balanced.semaphores).1
  have hresumes (j : Fin n) (hj : ((s.goOn (.vcpu i) { s.shared with count := s.shared.count - 1 }
      (.parallel .acquireResumeWaiter)).task (.vcpu j)).resumes) :
      s.shared.roundOf j = s.shared.round := by
    rw [task_goOn_vcpu] at hj
    split_ifs at hj with hji
    · rw [hji, hround]
    · exact h.knows hknown j (hs.resumeWaits_of_shares hshares' hj)
  constructor <;> rw [Threads.goOn_shared]
  · exact h.le_round
  · intro j hj
    rw [task_goOn_vcpu] at hj
    split_ifs at hj with hji
    · cases hj
    · exact h.joined j hj
  · exact fun j k hj hk => (hresumes j hj).trans (hresumes k hk).symm
  · intro j k hj
    rw [task_goOn_vcpu] at hj
    split_ifs at hj with hji
    · cases hj
    · exact absurd (hshares'.symm.trans (not_shares_of_resumes (hs.pinned (.vcpu j)) hj)) nofun
  · exact h.countSem
  · intro round hr
    exact absurd (hsem ▸ hr) List.not_mem_nil
  · exact fun _ j hj => hresumes j (.inl hj)
  · exact fun _ => h.begun (by omega)
  · intro round
    show s.shared.resumes round =
      if 1 ≤ round ∧ (round < s.shared.round ∨ round = s.shared.round ∧ s.shared.count - 1 = 0)
        then 1 else 0
    rw [h.history]
    exact if_congr (and_congr_right fun _ => by omega) rfl rfl

theorem Labelled.lastSubCount (h : Labelled s) (hs : SoundAt r s)
    (htask : s.task (.vcpu i) = .parallel .subCount) (hcount : s.shared.count - 1 = 0) :
    Labelled (s.goOn (.vcpu i) { s.shared with
      count := s.shared.count - 1
      resumes := Function.update s.shared.resumes (s.shared.roundOf i)
        (s.shared.resumes (s.shared.roundOf i) + 1) } (.call (.unyield .parallel))) := by
  have hshares := hs.pinned (.vcpu i)
  rw [htask] at hshares
  have hshares' : r.shares = true := hshares
  have hround := h.joined i (by rw [htask]; rfl)
  have hknown : Known s := .inl ⟨i, by rw [htask]; rfl⟩
  obtain ⟨-, hone, hjoined, -, -⟩ := hs.last_of_subCount htask hcount
  change s.tallyOthers RoundupThread.vcpu (fun _ p => p.weights.joined) i = 0 at hjoined
  have hsem : s.shared.resumeWaiterSem = [] :=
    List.length_eq_zero_iff.1 ((semaphores_of_shares hshares').1 hs.balanced.semaphores).1
  have hnone (info : RoundupInfo n) (j : Fin n) : ((s.goOn (.vcpu i) info
      (.call (.unyield .parallel))).task (.vcpu j)).weights.joined ≠ 1 := fun hj => by
    rw [task_goOn_vcpu] at hj
    split_ifs at hj with hji
    · cases hj
    · exact absurd (hj.symm.trans (Threads.eq_zero_of_tallyOthers hjoined hji)) nofun
  have hresumes (info : RoundupInfo n) (j : Fin n) (hj : ((s.goOn (.vcpu i) info
      (.call (.unyield .parallel))).task (.vcpu j)).resumes) :
      s.shared.roundOf j = s.shared.round := by
    rw [task_goOn_vcpu] at hj
    split_ifs at hj with hji
    · rw [hji, hround]
    · exact h.knows hknown j (hs.resumeWaits_of_shares hshares' hj)
  constructor <;> rw [Threads.goOn_shared]
  · exact h.le_round
  · exact fun j hj => absurd hj (hnone _ j)
  · exact fun j k hj hk => (hresumes _ j hj).trans (hresumes _ k hk).symm
  · exact fun j k _ hk => absurd hk (hnone _ k)
  · exact h.countSem
  · intro round hr
    exact absurd (hsem ▸ hr) List.not_mem_nil
  · exact fun _ j hj => hresumes _ j (.inl hj)
  · exact fun _ => h.begun (by omega)
  · intro round
    show Function.update s.shared.resumes (s.shared.roundOf i)
        (s.shared.resumes (s.shared.roundOf i) + 1) round =
      if 1 ≤ round ∧ (round < s.shared.round ∨ round = s.shared.round ∧ s.shared.count - 1 = 0)
        then 1 else 0
    have hbegun := h.begun (by omega)
    by_cases hr : round = s.shared.round
    · rw [hround, hr, Function.update_self, h.history, if_neg (by omega), if_pos (by omega)]
    · rw [hround, Function.update_of_ne hr, h.history]
      exact if_congr (and_congr_right fun _ => by omega) rfl rfl

theorem Labelled.acquireResumeWaiter (h : Labelled s) {round : ℕ} {resumeWaiterSem : List ℕ}
    (hsem : s.shared.resumeWaiterSem = round :: resumeWaiterSem) :
    Labelled (s.goOn (.vcpu i) { s.shared with resumeWaiterSem := resumeWaiterSem }
      (.switch .emulating)) :=
  h.goOn rfl rfl rfl rfl nofun nofun nofun (fun hk => .inr (hk.resolve_left nofun)) h.countSem
    fun round' hr => .inl (by rw [hsem]; exact List.mem_cons_of_mem _ hr)

theorem Labelled.releaseResumeWaiter (h : Labelled s)
    (htask : s.task (.vcpu i) = .parallel .releaseResumeWaiter) :
    Labelled (s.goOn (.vcpu i) { s.shared with
      resumeWaiterSem := s.shared.resumeWaiterSem ++ [s.shared.roundOf i] }
        (.parallel .decNumWaiters)) := by
  have hi : (s.task (.vcpu i)).weights.resumes = 1 := by rw [htask]; rfl
  refine h.goOn rfl rfl rfl rfl nofun nofun (fun _ => hi) (fun hk => .inr (hk.resolve_left nofun))
    h.countSem fun round hr => ?_
  obtain hr | hr := List.mem_append.1 hr
  · exact .inl hr
  · exact .inr ⟨List.mem_singleton.1 hr, .inr hi⟩

theorem Labelled.releasedResumeWaiters (h : Labelled s) :
    Labelled (s.goOn (.vcpu i) s.shared (.switch .emulating)) :=
  h.goOn rfl rfl rfl rfl nofun nofun nofun (fun hk => .inr (hk.resolve_left nofun)) h.countSem
    fun _ hr => .inl hr

/-- **A turn of a vCPU that calls a parallel round-up.** -/
theorem Labelled.parallelTurn (h : Labelled s) (hs : SoundAt r s) (hs' : Sound s')
    {p : ParallelPoint} (htask : s.task (.vcpu i) = .parallel p)
    (hturn : s.parallelTurn i p = some s') : Labelled s' := by
  have hquiet (q : RoundupPoint) (info : RoundupInfo n) (hrounds : SameRounds s.shared info)
      (hroles : q.weights.roles = (RoundupPoint.parallel p).weights.roles)
      (hknows : q.knows = true → (RoundupPoint.parallel p).knows = true) :
      Quiet s (s.goOn (.vcpu i) info q) :=
    quiet_goOn (fun _ _ => by rw [htask]; exact hroles)
      (fun hq => .inl (by rw [htask]; exact hknows hq)) hrounds
  cases p with
  | addCount =>
      rw [RoundupSys.parallelTurn] at hturn
      split_ifs at hturn with hzero
      · obtain rfl := Option.some.inj hturn
        exact h.addCount hs htask (if_pos hzero).symm
      · obtain rfl := Option.some.inj hturn
        exact h.addCount hs htask (if_neg hzero).symm
  | loadCount =>
      obtain rfl := Option.some.inj hturn
      exact h.quiet hs' (hquiet _ _ ⟨rfl, rfl, rfl, rfl, rfl, rfl⟩ rfl fun _ => rfl)
  | storeNumWaiters c =>
      obtain rfl := Option.some.inj hturn
      exact h.quiet hs' (hquiet _ _ ⟨rfl, rfl, rfl, rfl, rfl, rfl⟩ rfl fun _ => rfl)
  | releaseCount c =>
      cases c with
      | zero =>
          obtain rfl := Option.some.inj hturn
          exact h.quiet hs' (hquiet _ _ ⟨rfl, rfl, rfl, rfl, rfl, rfl⟩ rfl fun _ => rfl)
      | succ c =>
          obtain rfl := Option.some.inj hturn
          exact h.releaseCount htask
  | acquireCount =>
      rw [RoundupSys.parallelTurn] at hturn
      split at hturn
      · cases hturn
      · rename_i hsem
        obtain rfl := Option.some.inj hturn
        exact h.acquireCount htask hsem
  | unyield =>
      rw [RoundupSys.parallelTurn] at hturn
      split_ifs at hturn <;> obtain rfl := Option.some.inj hturn
      · exact h.quiet hs' quiet_fail
      · exact h.quiet hs' (hquiet _ _ ⟨rfl, rfl, rfl, rfl, rfl, rfl⟩ rfl fun _ => rfl)
  | roundedup => cases hturn
  | subCount =>
      rw [RoundupSys.parallelTurn] at hturn
      split_ifs at hturn with hlast
      · obtain rfl := Option.some.inj hturn
        exact h.lastSubCount hs htask hlast
      · obtain rfl := Option.some.inj hturn
        exact h.subCount hs htask hlast
  | acquireResumeWaiter =>
      rw [RoundupSys.parallelTurn] at hturn
      split at hturn
      · cases hturn
      · rename_i hsem
        obtain rfl := Option.some.inj hturn
        exact h.acquireResumeWaiter hsem
  | releaseResumeWaiter =>
      rw [RoundupSys.parallelTurn] at hturn
      split_ifs at hturn <;> obtain rfl := Option.some.inj hturn
      · exact h.releaseResumeWaiter htask
      · exact h.releasedResumeWaiters
  | decNumWaiters =>
      obtain rfl := Option.some.inj hturn
      exact h.quiet hs' (hquiet _ _ ⟨rfl, rfl, rfl, rfl, rfl, rfl⟩ rfl (by rintro ⟨⟩))

/-! ## Runs -/

theorem Labelled.turn (h : Labelled s) (hs : Sound s) (hturn : s.turn t = some s') :
    Labelled s' := by
  have hs' := hs.turn hturn
  obtain ⟨r, hs⟩ := hs
  unfold RoundupSys.turn at hturn
  cases htask : s.task t with
  | switch p =>
      obtain ⟨i, rfl⟩ := hs.exists_vcpu (t := t) (by rw [htask]; rfl)
      rw [htask] at hturn
      exact h.quiet hs' (quiet_switchTurn htask hturn)
  | call p =>
      rw [htask] at hturn
      exact h.quiet hs' (quiet_callTurn htask hturn)
  | parallel p =>
      obtain ⟨i, rfl⟩ := hs.exists_vcpu (t := t) (by rw [htask]; rfl)
      rw [htask] at hturn
      exact h.parallelTurn hs hs' htask hturn

theorem quiet_leave (hleave : s.leave t p p' = some s')
    (hroles : ∀ i, t = .vcpu i → p'.weights.roles = p.weights.roles)
    (hknows : p'.knows = true → p.knows = true) : Quiet s s' := by
  rw [RoundupSys.leave] at hleave
  split_ifs at hleave with htask
  obtain rfl := Option.some.inj hleave
  exact quiet_goOn (fun i hi => by rw [htask, hroles i hi])
    (fun hk => .inl (by rw [htask]; exact hknows hk)) ⟨rfl, rfl, rfl, rfl, rfl, rfl⟩

/-- **Every call and every turn keeps the labels.** -/
theorem Labelled.next {a : RoundupAct n} (h : Labelled s) (hs : Sound s)
    (hnext : s.next a = some s') : Labelled s' := by
  have hs' := hs.next hnext
  cases a with
  | beginEmulation i => exact h.quiet hs' (quiet_leave hnext (fun _ _ => rfl) nofun)
  | endEmulation i => exact h.quiet hs' (quiet_leave hnext (fun _ _ => rfl) nofun)
  | roundup e => exact h.quiet hs' (quiet_leave hnext (fun _ => nofun) nofun)
  | resume e => exact h.quiet hs' (quiet_leave hnext (fun _ => nofun) nofun)
  | roundupFromVcpu i => exact h.quiet hs' (quiet_leave hnext (fun _ _ => rfl) nofun)
  | resumeFromVcpu i => exact h.quiet hs' (quiet_leave hnext (fun _ _ => rfl) nofun)
  | roundupParallel i => exact h.quiet hs' (quiet_leave hnext (fun _ _ => rfl) nofun)
  | resumeParallel i =>
      rw [RoundupSys.next] at hnext
      split_ifs at hnext with hzero
      · obtain ⟨s'', hleave, rfl⟩ := Option.map_eq_some_iff.1 hnext
        rw [RoundupSys.leave] at hleave
        split_ifs at hleave with htask
        obtain ⟨r, hs⟩ := hs
        have hpos := hs.count_pos (i := i) (by rw [htask]; rfl)
        omega
      · exact h.quiet hs' (quiet_leave hnext (fun _ _ => rfl) fun _ => rfl)
  | turn t => exact h.turn hs hnext
  | pause i paused =>
      obtain rfl := Option.some.inj hnext
      exact h.quiet hs' ⟨⟨rfl, rfl, rfl, rfl, rfl, rfl⟩, fun _ => rfl, fun _ hk => .inl hk⟩
  | switchOn i =>
      obtain rfl := Option.some.inj hnext
      exact h.quiet hs' ⟨⟨rfl, rfl, rfl, rfl, rfl, rfl⟩, fun _ => rfl, fun _ hk => .inl hk⟩

theorem labelled_init : Labelled (init : RoundupSys n) where
  le_round _ := Nat.le_refl 0
  joined _ := nofun
  resumes _ _ _ _ := rfl
  resumed _ _ := nofun
  countSem _ := nofun
  resumeWaiterSem _ := nofun
  knows _ _ _ := rfl
  begun h := absurd rfl h
  history round := by
    refine (if_neg ?_).symm
    rintro ⟨hpos, hlt | ⟨rfl, -⟩⟩
    · exact Nat.not_lt_zero _ hlt
    · exact Nat.not_lt_zero _ hpos

/-- **In every run** of any threads the labels are right. -/
theorem labelled_run {acts : List (RoundupAct n)}
    (h : Run (fun s a s' => RoundupSys.next s a = some s') init acts s) : Sound s ∧ Labelled s := by
  refine @Run.invariant _ _ _ (fun u => Sound u ∧ Labelled u) _ _ _ ?_ h
    ⟨sound_init, labelled_init⟩
  intro u a v hu hnext
  exact ⟨hu.1.next hnext, hu.2.next hu.1 hnext⟩

/-! ## Parallel round-ups are safe -/

/-- The vCPU has joined the round, and not returned from `resume_parallel`. -/
def CallerOf (s : RoundupSys n) (round : ℕ) (j : Fin n) : Prop :=
  s.shared.roundOf j = round ∧
    ((s.task (.vcpu j)).weights.joined = 1 ∨ (s.task (.vcpu j)).resumes)

theorem halts_of_shares (hr : r.shares = true) (i : ℕ) : r.halts i = true := by
  cases r with
  | sharing _ _ => rfl
  | shared => rfl
  | _ => cases hr

/-- **A vCPU that emulates while callers share a round-up** is one of them, or waits for a round-up
itself. -/
theorem SoundAt.caller_of_shares (h : SoundAt r s) (hr : r.shares = true)
    (hkind : (s.task (.vcpu j)).weights.kind = .emulate) :
    (s.task (.vcpu j)).weights.joined = 1 ∨ (s.task (.vcpu j)).weights.resumeWaits = 1 ∨
      (s.task (.vcpu j)).waits = true := by
  have hmoves := h.halted j (halts_of_shares hr j)
  have hpinned := h.pinned (.vcpu j)
  have hsuits := h.suits (.vcpu j)
  generalize s.task (.vcpu j) = p at *
  match p with
  | .switch p =>
      have hp : p.kind = .emulate := hkind
      have hzero : (if p.kind = .emulate then 1 else 0) = 0 := hmoves
      rw [if_pos hp] at hzero
      cases hzero
  | .call (.signalEmulationEnd (.yielded _)) => exact .inr (.inr rfl)
  | .call (.enter _) => exact .inr (.inr rfl)
  | .parallel .acquireCount => exact .inl rfl
  | .parallel (.releaseCount _) => exact .inl rfl
  | .parallel .unyield => exact .inl rfl
  | .parallel .roundedup => exact .inl rfl
  | .parallel .subCount => exact .inl rfl
  | .parallel .acquireResumeWaiter => exact .inr (.inl rfl)
  -- the other points are those of another stage, or of a vCPU that goes on
  | .call (.notify (.roundedup _ _)) => exact absurd (hpinned.1 ▸ hr) nofun
  | .call (.signalEmulationEnd (.roundedup _ _)) => exact absurd (hpinned.1 ▸ hr) nofun
  | .call (.roundupLoad _ _) => exact absurd (hpinned.1 ▸ hr) nofun
  | .call (.roundupCas _ _ _) => exact absurd (hpinned.1 ▸ hr) nofun
  | .call (.checkProgressing _) => exact absurd (hpinned ▸ hr) nofun
  | .call (.waitForEmulationEnd _) => exact absurd (hpinned ▸ hr) nofun
  | .call (.roundedup _) => exact absurd (hpinned.1 ▸ hr) nofun
  | .call (.unyield _) => exact absurd (hpinned.1 ▸ hr) nofun
  | .call (.loadWaiters _) => exact absurd (hpinned ▸ hr) nofun
  | .call (.storeProgressing _ _) => exact absurd (hpinned ▸ hr) nofun
  | .call (.resumeLoad _ _) => exact absurd (hpinned.1 ▸ hr) nofun
  | .call (.resumeCas _ _ _) => exact absurd (hpinned.1 ▸ hr) nofun
  | .call (.resumeVcpu _ _) => exact absurd (hpinned.1 ▸ hr) nofun
  | .call (.exit _) => exact absurd (hpinned ▸ hr) nofun
  | .parallel .loadCount => exact absurd (hpinned ▸ hr) nofun
  | .parallel (.storeNumWaiters _) => exact absurd (hpinned ▸ hr) nofun

/-- While no vCPU is in a parallel call, nothing is left of the earlier ones. -/
theorem SoundAt.between_rounds (h : SoundAt r s)
    (hroles : ∀ i, (s.task (.vcpu i)).weights.roles = (0, 0, 0)) :
    s.shared.count = 0 ∧ s.shared.numWaiters = 0 ∧ s.shared.countSem = [] ∧
      s.shared.resumeWaiterSem = [] ∧
      ((∀ i, (s.task (.vcpu i)).weights.yielding = 0) → s.shared.vcpuWaiters = 0) := by
  have hzero (w : RoundupPoint → ℕ) (hw : ∀ i, w (s.task (.vcpu i)) = 0) :
      s.number (fun _ => w) = 0 := Threads.tally_eq_zero hw
  have hjoined : (s.totals r).joined = 0 :=
    hzero (·.weights.joined) fun i => congrArg (·.1) (hroles i)
  have hwaits : (s.totals r).resumeWaits = 0 :=
    hzero (·.weights.resumeWaits) fun i => congrArg (·.2.1) (hroles i)
  have hdecs : (s.totals r).decs = 0 := hzero (·.weights.decs) fun i =>
    Nat.le_zero.1 ((RoundupPoint.decs_le_resumes _).trans_eq (congrArg (·.2.2) (hroles i)))
  have hcount := h.balanced.count
  have hleads := h.balanced.leads
  have hwaiters := h.balanced.waiters
  have hsemaphores := h.balanced.semaphores
  have hdebt : r.debt = 0 := by omega
  have hsems : s.shared.countSem.length = 0 ∧ s.shared.resumeWaiterSem.length = 0 ∧
      s.shared.numWaiters = 0 := by
    cases r with
    | gathered u =>
        have := hsemaphores.2.2.2.2
        omega
    | sharing u c =>
        have := hsemaphores.2.2
        omega
    | shared => cases hdebt
    | held u c =>
        have := hsemaphores.2.2.1
        exact ⟨hsemaphores.1, hsemaphores.2.1, by omega⟩
    | _ =>
        have := hsemaphores.2.1
        exact ⟨hsemaphores.1, by omega, by omega⟩
  refine ⟨by omega, hsems.2.2, List.length_eq_zero_iff.1 hsems.1,
    List.length_eq_zero_iff.1 hsems.2.1, fun hyielding => ?_⟩
  have hnone : (s.totals r).yielding = 0 := hzero (·.weights.yielding) hyielding
  omega

/-- **Parallel round-ups are safe.** In every run of `n` vCPUs and any other threads, with rounds of
parallel calls and all other round-ups:

- while a parallel round-up has returned to a caller that has not called `resume_parallel`, every
  vCPU is in a rounded-up state, none in `EMULATE`, and one in `EMULATE_ROUNDEDUP` is a caller of
  the round or waits for a round-up itself;
- one vCPU at a time resumes a round, and then no vCPU of the round is counted by `count`;
- a round is resumed at most once, and exactly once when all of its callers have left it;
- whatever a caller may take from a semaphore has been released in its own round;
- when the first caller is to count the waiters, and when no vCPU is in a parallel call, the counts
  and the semaphores are zero. -/
theorem parallel_roundup_safe (acts : List (RoundupAct n)) (s : RoundupSys n)
    (h : Run (fun s a s' => RoundupSys.next s a = some s') init acts s) :
    (∀ i j, s.task (.vcpu i) = .parallel .roundedup →
      (∃ kind, s.shared.state j = .of kind true) ∧ s.shared.state j ≠ .emulate ∧
        (s.shared.state j = .emulateRoundedup →
          CallerOf s (s.shared.roundOf i) j ∨ (s.task (.vcpu j)).waits = true)) ∧
    (∀ i j, (s.task (.vcpu i)).weights.resumes = 1 →
      ((s.task (.vcpu j)).weights.resumes = 1 → i = j) ∧
      (s.shared.roundOf j = s.shared.roundOf i → (s.task (.vcpu j)).weights.joined ≠ 1)) ∧
    (∀ round, s.shared.resumes round ≤ 1 ∧ (1 ≤ round → round ≤ s.shared.round →
      (∀ j, s.shared.roundOf j = round → (s.task (.vcpu j)).weights.joined ≠ 1) →
      s.shared.resumes round = 1)) ∧
    (∀ i, s.task (.vcpu i) = .parallel .acquireCount →
      ∀ round ∈ s.shared.countSem, round = s.shared.roundOf i) ∧
    (∀ i, s.task (.vcpu i) = .parallel .acquireResumeWaiter →
      ∀ round ∈ s.shared.resumeWaiterSem, round = s.shared.roundOf i) ∧
    (∀ i, s.task (.vcpu i) = .parallel .loadCount → s.shared.numWaiters = 0 ∧
      s.shared.countSem = [] ∧ s.shared.resumeWaiterSem = []) ∧
    ((∀ i, (s.task (.vcpu i)).weights.roles = (0, 0, 0)) →
      s.shared.count = 0 ∧ s.shared.numWaiters = 0 ∧ s.shared.countSem = [] ∧
        s.shared.resumeWaiterSem = [] ∧
        ((∀ i, (s.task (.vcpu i)).weights.yielding = 0) → s.shared.vcpuWaiters = 0)) := by
  obtain ⟨⟨r, hr⟩, hl⟩ := labelled_run h
  refine ⟨fun i j hi => ?_, fun i j hi => ⟨fun hj => hr.resumer i j hi hj, fun hij hj => ?_⟩,
    fun round => ⟨?_, fun hpos hle hleft => ?_⟩, fun i hi round hround => ?_,
    fun i hi round hround => ?_, fun i hi => ?_, hr.between_rounds⟩
  · have hshares := hr.pinned (.vcpu i)
    rw [hi] at hshares
    have hshares' : r.shares = true := hshares
    have hround := hl.joined i (by rw [hi]; rfl)
    have hrounded : r.isRounded j = true := by
      cases r with
      | sharing _ _ => rfl
      | shared => rfl
      | _ => cases hshares'
    have hstate := hr.state j
    rw [hrounded] at hstate
    rw [hstate]
    refine ⟨⟨_, rfl⟩, fun hj => ?_, fun hj => ?_⟩
    · cases (CpuState.of_eq_emulate.1 hj).2
    · obtain hjoined | hwaits | hwaits :=
        hr.caller_of_shares hshares' (CpuState.of_eq_emulateRoundedup.1 hj).1
      · exact .inl ⟨(hl.joined j hjoined).trans hround.symm, .inl hjoined⟩
      · have hknown : Known s := .inl ⟨i, by rw [hi]; rfl⟩
        exact .inl ⟨(hl.knows hknown j hwaits).trans hround.symm, .inr (.inl hwaits)⟩
      · exact .inr hwaits
  · exact hl.resumed i j hi hj hij.symm
  · rw [hl.history]
    split_ifs <;> omega
  · rw [hl.history, if_pos]
    refine ⟨hpos, ?_⟩
    by_contra hlast
    obtain ⟨j, hj⟩ := hr.exists_joined (show s.shared.count ≠ 0 by omega)
    have hround := hl.joined j hj
    exact hleft j (by omega) hj
  · rw [hl.countSem round hround, hl.joined i (by rw [hi]; rfl)]
  · exact hl.resumeWaiterSem round hround i (.inl (by rw [hi]; rfl))
  · have hpinned := hr.pinned (.vcpu i)
    rw [hi] at hpinned
    obtain rfl : r = .gathered (.vcpu i) := hpinned
    obtain ⟨hcountSem, hsem, hnumWaiters, -⟩ := hr.balanced.semaphores
    exact ⟨hnumWaiters, List.length_eq_zero_iff.1 hcountSem, List.length_eq_zero_iff.1 hsem⟩

/-- Two vCPUs that emulate round up together; the first one has returned and told the other. -/
def parallelRoundup : List (RoundupAct 2) :=
  [.turn (.vcpu vcpuZero), .turn (.vcpu vcpuZero), .pause vcpuZero false, .beginEmulation vcpuZero,
    .turn (.vcpu vcpuZero), .turn (.vcpu vcpuZero), .turn (.vcpu vcpuZero), .turn (.vcpu vcpuOne),
    .turn (.vcpu vcpuOne), .pause vcpuOne false, .beginEmulation vcpuOne, .turn (.vcpu vcpuOne),
    .turn (.vcpu vcpuOne), .turn (.vcpu vcpuOne), .roundupParallel vcpuZero, .turn (.vcpu vcpuZero),
    .roundupParallel vcpuOne, .turn (.vcpu vcpuOne), .turn (.vcpu vcpuZero), .turn (.vcpu vcpuZero),
    .turn (.vcpu vcpuZero), .turn (.vcpu vcpuZero), .turn (.vcpu vcpuZero), .turn (.vcpu vcpuZero),
    .turn (.vcpu vcpuZero), .turn (.vcpu vcpuZero), .turn (.vcpu vcpuOne), .turn (.vcpu vcpuOne),
    .turn (.vcpu vcpuOne), .turn (.vcpu vcpuZero), .turn (.vcpu vcpuZero), .turn (.vcpu vcpuZero),
    .turn (.vcpu vcpuZero), .turn (.vcpu vcpuZero)]

theorem parallel_roundup_safe_pair : ∃ s : RoundupSys 2,
    Run (fun s a s' => RoundupSys.next s a = some s') init parallelRoundup s ∧
    s.task (.vcpu 0) = .parallel .roundedup ∧ s.task (.vcpu 1) = .parallel .acquireCount ∧
    s.shared.state 1 ≠ .emulate ∧ s.shared.countSem = [1] ∧ 1 = s.shared.roundOf 1 := by
  obtain ⟨s, hs, hleader, hfollower, hsem⟩ : ∃ s : RoundupSys 2,
      parallelRoundup.foldlM RoundupSys.next init = some s ∧
      s.task (.vcpu 0) = .parallel .roundedup ∧ s.task (.vcpu 1) = .parallel .acquireCount ∧
      s.shared.countSem = [1] := ⟨_, rfl, rfl, rfl, rfl⟩
  have hsafe := parallel_roundup_safe parallelRoundup s (Run.of_foldlM hs)
  exact ⟨s, Run.of_foldlM hs, hleader, hfollower, (hsafe.1 0 1 hleader).2.1, hsem,
    hsafe.2.2.2.1 1 hfollower 1 (by rw [hsem]; exact List.mem_singleton_self 1)⟩

end RoundupSys

end Vml
