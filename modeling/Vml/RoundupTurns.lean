import Vml.RoundupSound

/-!
# The turns of a round-up

Main results: `SoundAt.switchTurn`, `SoundAt.callTurn`, `SoundAt.parallelTurn`: a turn keeps the
invariant, at the same stage or at the next.
-/

namespace Vml

namespace RoundupStage

variable {n : ℕ} {r : RoundupStage n} {i : ℕ}

theorem counted_of_not {w : RoundupWeights} (hfull : r.full = false) (hnoticed : r.noticed i = false) :
    r.counted i w = w.yielded := by
  rw [counted, hfull, hnoticed]
  rfl

theorem isRounded_of_halts (h : r.halts i = true) : r.isRounded i = true := by
  cases r with
  | free => cases h
  | rounding t k j => cases h
  | resuming t k => exact h
  | _ => rfl

theorem not_full_of_not_isRounded (h : r.isRounded i = false) : r.full = false := by
  cases r with
  | free => rfl
  | rounding t k j => rfl
  | resuming t k => rfl
  | _ => cases h

/-- **Threads that are not the one that rounds up** may be where they are at the next stage, too. -/
theorem Pinned.of_not_owner {r r' : RoundupStage n} {u : RoundupThread n} {p : RoundupPoint}
    (h : r.Pinned u p) (hu : r.owner ≠ some u)
    (hshares : p.shares = true → r.shares = true → r'.shares = true)
    (hmoves : p.weights.moves = 1 → r'.Pinned u p) : r'.Pinned u p := by
  match p with
  | .switch (.offCas _) => exact h
  | .switch (.onCas _ _) => exact h
  | .switch (.emulatingCas _) => exact h
  | .switch .running | .switch .waitIfExecPaused | .switch .offLoad | .switch .waitForSwitchOn
  | .switch (.onLoad _) | .switch .emulatingLoad | .switch .waitForResume
  | .switch .emulating => trivial
  | .call (.notify .emulated) => exact hmoves rfl
  | .call (.notify (.roundedup _ _)) => exact absurd (congrArg owner h.1) hu
  | .call (.signalEmulationEnd (.roundedup _ _)) => exact absurd (congrArg owner h.1) hu
  | .call (.notify (.yielded _)) | .call (.signalEmulationEnd .emulated)
  | .call (.signalEmulationEnd (.yielded _)) | .call .away | .call (.yield _)
  | .call (.enter _) => trivial
  | .call (.roundupLoad _ _) => exact absurd (congrArg owner h.1) hu
  | .call (.roundupCas _ _ _) => exact absurd (congrArg owner h.1) hu
  | .call (.checkProgressing _) => exact absurd (congrArg owner h) hu
  | .call (.waitForEmulationEnd _) => exact absurd (congrArg owner h) hu
  | .call (.roundedup _) => exact absurd (congrArg owner h.1) hu
  | .call (.unyield _) => exact absurd (congrArg owner h.1) hu
  | .call (.loadWaiters _) => exact absurd (congrArg owner h) hu
  | .call (.storeProgressing _ _) => exact absurd (congrArg owner h) hu
  | .call (.resumeLoad _ _) => exact absurd (congrArg owner h.1) hu
  | .call (.resumeCas _ _ _) => exact absurd (congrArg owner h.1) hu
  | .call (.resumeVcpu _ _) => exact absurd (congrArg owner h.1) hu
  | .call (.exit _) => exact absurd (congrArg owner h) hu
  | .parallel .loadCount => exact absurd (congrArg owner h) hu
  | .parallel (.storeNumWaiters _) => exact absurd (congrArg owner h) hu
  | .parallel (.releaseCount _) => exact absurd (congrArg owner h) hu
  | .parallel .addCount | .parallel .acquireCount | .parallel .acquireResumeWaiter => trivial
  | .parallel .releaseResumeWaiter => exact hmoves rfl
  | .parallel .decNumWaiters => exact hmoves rfl
  | .parallel .unyield => exact hshares rfl h
  | .parallel .roundedup => exact hshares rfl h
  | .parallel .subCount => exact hshares rfl h

/-- What a thread that moves relies on is that the vCPUs have not stopped. -/
theorem Pinned.of_moves {r r' : RoundupStage n} {u : RoundupThread n} {p : RoundupPoint}
    (h : r.Pinned u p) (hmoves : p.weights.moves = 1) (hstopped : r.stopped = false → r'.stopped = false)
    (hrounding : ∀ t k j, r = .rounding t k j → ∃ k' j', r' = .rounding t k' j' ∧ j ≤ j') :
    r'.Pinned u p := by
  match p with
  | .switch (.offCas _) => exact h
  | .switch (.onCas _ _) => exact h
  | .switch (.emulatingCas _) => exact h
  | .switch .running | .switch .waitIfExecPaused | .switch .offLoad | .switch .waitForSwitchOn
  | .switch (.onLoad _) | .switch .emulatingLoad | .switch .waitForResume
  | .switch .emulating => trivial
  | .call (.notify .emulated) =>
      obtain ⟨i, hu, t, k, j, hr, hij⟩ := h
      obtain ⟨k', j', hr', hjj⟩ := hrounding t k j hr
      exact ⟨i, hu, t, k', j', hr', hij.trans_le hjj⟩
  | .call (.notify (.yielded _)) => trivial
  | .call (.yield _) => trivial
  | .parallel .addCount => trivial
  | .parallel .releaseResumeWaiter => exact hstopped h
  | .parallel .decNumWaiters => exact hstopped h

end RoundupStage

namespace RoundupSys

variable {n : ℕ} {r r' : RoundupStage n} {s s' : RoundupSys n} {t u : RoundupThread n} {i j : Fin n}
  {p p' : RoundupPoint} {info : RoundupInfo n}

theorem SoundAt.balanced_vcpu (h : SoundAt r s) {w : RoundupWeights}
    (hweights : (s.task (.vcpu i)).weights = w) :
    Balanced r s.shared ((s.others r i).add (r.counted i w) w) := by
  have hbalanced := h.balanced
  rwa [totals_eq_add r s i, hweights] at hbalanced

theorem Balanced.setState {T : Totals} (h : Balanced r s.shared T) (state : CpuState) :
    Balanced r (s.setState i state) T :=
  ⟨h.progressing, h.waiters, h.count, h.leads, h.semaphores⟩

theorem HasRead.setState {state : CpuState} (h : HasRead s.shared p) :
    HasRead (s.setState i state) p := h

theorem setState_self {state : CpuState} : (s.setState i state).state i = state :=
  Function.update_self ..

theorem setState_of_ne {state : CpuState} (h : j ≠ i) :
    (s.setState i state).state j = s.shared.state j := Function.update_of_ne h ..

theorem SoundAt.not_noticed (h : SoundAt r s) (hi : r.isRounded i = false) :
    r.noticed i = false := by
  match r with
  | .free => rfl
  | .rounding t k j =>
      have hjk := (h.noticed t k j rfl).1
      have hik : ¬i.val < k := of_decide_eq_false hi
      exact decide_eq_false (by omega)
  | .resuming t k => rfl
  | .held t c => rfl
  | .gathered t => rfl
  | .sharing t c => rfl
  | .shared => rfl

/-- A vCPU that has been rounded up while it goes on is to give notice itself. -/
theorem SoundAt.rounding_of_moves (h : SoundAt r s) (hrounded : r.isRounded i = true)
    (hmoves : (s.task (.vcpu i)).weights.moves = 1) (hstopped : (s.task (.vcpu i)).weights.stopped = 0) :
    ∃ u k j, r = .rounding u k j ∧ i.val < j := by
  have hhalts (hi : r.halts i = true) : False := by
    have hmoves' := h.halted i hi
    omega
  match r with
  | .free => cases hrounded
  | .rounding u k j =>
      obtain ⟨hjk, hkj, hkn, hpending⟩ := h.noticed u k j rfl
      refine ⟨u, k, j, rfl, ?_⟩
      have hik : i.val < k := of_decide_eq_true hrounded
      by_contra hij
      have hstopped' := hpending i (by omega) (by omega)
      omega
  | .resuming t k => exact (hhalts hrounded).elim
  | .held t c => exact (hhalts rfl).elim
  | .gathered t => exact (hhalts rfl).elim
  | .sharing t c => exact (hhalts rfl).elim
  | .shared => exact (hhalts rfl).elim

/-! ## The switches of a vCPU -/

theorem SoundAt.goOn_switch (h : SoundAt r s) {p q : SwitchPoint}
    (htask : s.task (.vcpu i) = .switch p) (hkind : q.kind = p.kind)
    (hpinned : r.Pinned (.vcpu i) (.switch q)) :
    SoundAt r (s.goOn (.vcpu i) s.shared (.switch q)) := by
  refine h.goOn_same (fun _ _ => ?_) (by rw [htask]; rfl) hpinned trivial
  rw [htask]
  exact congrArg CpuKind.weights hkind

/-- A vCPU that has ended its emulation while it was rounded up is to give notice. -/
theorem SoundAt.switchedOn_roundedup (h : SoundAt r s) {cause : OnCause} {cur : CpuState}
    (htask : s.task (.vcpu i) = .switch (.onCas cause cur)) (hkind : cause.kind = .emulate)
    (hrounded : r.isRounded i = true) :
    SoundAt r (s.goOn (.vcpu i) (s.setState i (.of .on true)) (.call (.notify .emulated))) := by
  have hweights : (s.task (.vcpu i)).weights = CpuKind.emulate.weights := by
    rw [htask, ← hkind]
    rfl
  have hrounding := h.rounding_of_moves hrounded (by rw [hweights]; rfl) (by rw [hweights]; rfl)
  have hnot (hi : r.halts i = true) : False := by
    have hmoves := h.halted i hi
    rw [hweights] at hmoves
    cases hmoves
  refine h.goOn_vcpu rfl ?_ (fun j hj => setState_of_ne hj) rfl ⟨i, rfl, hrounding⟩ trivial
    (fun u _ => (h.read u).setState) (fun hi => (hnot hi).elim) (fun _ hstopped => ?_) rfl
    ((h.balanced_vcpu hweights).setState _) nofun
  · rw [setState_self, hrounded]
    rfl
  · rw [hweights] at hstopped
    cases hstopped

/-- A vCPU that has not been rounded up stands for the same in the counters, whatever it does. -/
theorem SoundAt.balanced_of_not_isRounded (h : SoundAt r s) (hrounded : r.isRounded i = false)
    {kind kind' : CpuKind} (hweights : (s.task (.vcpu i)).weights = kind.weights) :
    Balanced r s.shared ((s.others r i).add (r.counted i kind'.weights) kind'.weights) := by
  have hbalanced := h.balanced_vcpu hweights
  have hfull := RoundupStage.not_full_of_not_isRounded hrounded
  have hnoticed := h.not_noticed hrounded
  rw [RoundupStage.counted_of_not hfull hnoticed] at hbalanced ⊢
  exact hbalanced

theorem SoundAt.switchedOn (h : SoundAt r s) {cause : OnCause} {rounded : Bool}
    (htask : s.task (.vcpu i) = .switch (.onCas cause (.of cause.kind rounded)))
    (hrounded : r.isRounded i = rounded)
    (hemulate : CpuState.of cause.kind rounded ≠ .emulateRoundedup) :
    SoundAt r (s.goOn (.vcpu i) (s.setState i (.of .on rounded)) (.switch cause.after)) := by
  have hweights : (s.task (.vcpu i)).weights = cause.kind.weights := by
    rw [htask]
    rfl
  have hafter : (RoundupPoint.switch cause.after).weights = CpuKind.on.weights := by
    cases cause <;> rfl
  have hpinned : r.Pinned (.vcpu i) (.switch cause.after) := by cases cause <;> trivial
  have hbalanced : Balanced r s.shared
      ((s.others r i).add (r.counted i CpuKind.on.weights) CpuKind.on.weights) := by
    -- a vCPU that was off stands for the same when it is on
    have hsame := h.balanced_vcpu hweights
    cases cause with
    | startup => exact hsame
    | unpaused => exact hsame
    | emulated =>
        cases rounded with
        | false => exact h.balanced_of_not_isRounded hrounded hweights
        | true => exact absurd rfl hemulate
  refine h.goOn_vcpu rfl ?_ (fun j hj => setState_of_ne hj) rfl hpinned trivial
    (fun u _ => (h.read u).setState) (fun _ => ?_) (fun _ _ => ?_) rfl ?_ ?_
  · rw [setState_self, hrounded, hafter]
    rfl
  · rw [hafter]
    rfl
  · rw [hafter]
    rfl
  · rw [hafter]
    exact hbalanced.setState _
  · rw [hafter]
    nofun

theorem SoundAt.switchedEmulating (h : SoundAt r s) {cur : CpuState}
    (htask : s.task (.vcpu i) = .switch (.emulatingCas cur)) (hrounded : r.isRounded i = false) :
    SoundAt r (s.goOn (.vcpu i) (s.setState i .emulate) (.switch .emulating)) := by
  have hweights : (s.task (.vcpu i)).weights = CpuKind.on.weights := by rw [htask]; rfl
  refine h.goOn_vcpu rfl ?_ (fun j hj => setState_of_ne hj) rfl trivial trivial
    (fun u _ => (h.read u).setState) (fun hi => ?_) (fun hi => ?_) rfl
    ((h.balanced_of_not_isRounded hrounded hweights).setState _) nofun
  · rw [setState_self, hrounded]
    rfl
  · exact absurd (hrounded.symm.trans (RoundupStage.isRounded_of_halts hi)) nofun
  · exact absurd (hrounded.symm.trans hi) nofun

theorem SoundAt.switchTurn (h : SoundAt r s) {p : SwitchPoint}
    (htask : s.task (.vcpu i) = .switch p) (hturn : s.switchTurn i p = some s') : SoundAt r s' := by
  have hstate : s.shared.state i = .of p.kind (r.isRounded i) := by rw [h.state i, htask]; rfl
  have hpinned := h.pinned (.vcpu i)
  rw [htask] at hpinned
  cases p with
  | running => cases hturn
  | emulating => cases hturn
  | waitIfExecPaused =>
      rw [RoundupSys.switchTurn] at hturn
      split_ifs at hturn
      · obtain rfl := Option.some.inj hturn
        exact h.goOn_switch htask rfl trivial
      · obtain rfl := Option.some.inj hturn
        exact h.goOn_switch htask rfl trivial
  | offLoad =>
      obtain rfl := Option.some.inj hturn
      exact h.goOn_switch htask rfl ⟨_, hstate⟩
  | offCas cur =>
      obtain ⟨rounded, rfl⟩ := hpinned
      rw [RoundupSys.switchTurn, CpuState.switchedOff_of] at hturn
      dsimp only at hturn
      split_ifs at hturn with hcur
      · obtain rfl := Option.some.inj hturn
        obtain ⟨-, hrounded⟩ := CpuState.of_inj.1 (hstate.symm.trans hcur)
        refine h.goOn_vcpu rfl ?_ (fun j hj => setState_of_ne hj) rfl trivial trivial
          (fun u _ => (h.read u).setState) (fun _ => rfl) (fun _ _ => rfl) rfl
          ((h.balanced_vcpu (congrArg RoundupPoint.weights htask)).setState _) nofun
        rw [setState_self, hrounded]
        rfl
      · obtain rfl := Option.some.inj hturn
        exact h.goOn_switch htask rfl ⟨_, hstate⟩
  | waitForSwitchOn =>
      obtain ⟨sm, -, rfl⟩ := Option.map_eq_some_iff.1 hturn
      have hgo : SoundAt r (s.goOn (.vcpu i) s.shared (.switch (.onLoad .unpaused))) :=
        h.goOn_switch htask rfl trivial
      exact hgo.of_signals _ _ _ _
  | onLoad cause =>
      obtain rfl := Option.some.inj hturn
      exact h.goOn_switch htask rfl ⟨_, hstate⟩
  | onCas cause cur =>
      obtain ⟨rounded, rfl⟩ := hpinned
      have hnot : cause.kind ≠ .on := by cases cause <;> decide
      rw [RoundupSys.switchTurn, CpuState.switchedOn_of hnot] at hturn
      dsimp only at hturn
      split_ifs at hturn with hcur hemulate
      · obtain rfl := Option.some.inj hturn
        obtain ⟨-, hrounded⟩ := CpuState.of_inj.1 (hstate.symm.trans hcur)
        obtain ⟨hkind, rfl⟩ := CpuState.of_eq_emulateRoundedup.1 hemulate
        exact h.switchedOn_roundedup htask hkind hrounded
      · obtain rfl := Option.some.inj hturn
        exact h.switchedOn htask (CpuState.of_inj.1 (hstate.symm.trans hcur)).2 hemulate
      · obtain rfl := Option.some.inj hturn
        exact h.goOn_switch htask rfl ⟨_, hstate⟩
  | emulatingLoad =>
      rw [RoundupSys.switchTurn, hstate] at hturn
      cases hrounded : r.isRounded i with
      | false =>
          rw [hrounded] at hturn
          obtain rfl := Option.some.inj hturn
          exact h.goOn_switch htask rfl rfl
      | true =>
          rw [hrounded] at hturn
          obtain rfl := Option.some.inj hturn
          exact h.goOn_switch htask rfl trivial
  | emulatingCas cur =>
      obtain rfl : cur = .on := hpinned
      rw [RoundupSys.switchTurn, hstate] at hturn
      cases hrounded : r.isRounded i with
      | false =>
          rw [hrounded] at hturn
          obtain rfl := Option.some.inj hturn
          exact h.switchedEmulating htask hrounded
      | true =>
          rw [hrounded] at hturn
          obtain rfl := Option.some.inj hturn
          exact h.goOn_switch htask rfl trivial
  | waitForResume =>
      obtain ⟨sm, -, rfl⟩ := Option.map_eq_some_iff.1 hturn
      have hgo : SoundAt r (s.goOn (.vcpu i) s.shared (.switch .waitIfExecPaused)) :=
        h.goOn_switch htask rfl trivial
      exact hgo.of_signals _ _ _ _

/-! ## Round-ups -/

theorem moves_of_isExternal (h : p.isExternal = true) : p.weights.moves = 0 := by
  match p with
  | .call (.notify (.roundedup _ _)) => rfl
  | .call (.signalEmulationEnd (.roundedup _ _)) => rfl
  | .call .away | .call (.enter _) | .call (.roundupLoad _ _) | .call (.roundupCas _ _ _)
  | .call (.checkProgressing _) | .call (.waitForEmulationEnd _) | .call (.roundedup _)
  | .call (.unyield _) | .call (.loadWaiters _) | .call (.storeProgressing _ _)
  | .call (.resumeLoad _ _) | .call (.resumeCas _ _ _) | .call (.resumeVcpu _ _)
  | .call (.exit _) => rfl

theorem totals_congr (h : ∀ i : Fin n, r.counted i (s.task (.vcpu i)).weights =
    r'.counted i (s.task (.vcpu i)).weights) : s.totals r = s.totals r' := by
  have hcounted : s.number (fun i p => r.counted i p.weights) =
      s.number (fun i p => r'.counted i p.weights) := Threads.tally_congr h
  simp only [totals, hcounted]

theorem counted_le_one (r : RoundupStage n) (i : ℕ) (p : RoundupPoint) : r.counted i p.weights ≤ 1 := by
  have hle := p.weighed.le_one
  rw [RoundupStage.counted]
  split_ifs <;> omega

theorem SoundAt.progressing_pos (h : SoundAt r s)
    (hi : r.counted i (s.task (.vcpu i)).weights = 0) : 0 < s.shared.vcpusProgressing := by
  have hsum := h.balanced.progressing
  have hlt : (s.totals r).counted < Fintype.card (Fin n) :=
    Threads.tally_lt_card (w := fun (i : Fin n) (p : RoundupPoint) => r.counted i p.weights)
      (fun i => counted_le_one r i _) hi
  rw [Fintype.card_fin] at hlt
  omega

theorem SoundAt.counted_of_progressing (h : SoundAt r s) (hzero : s.shared.vcpusProgressing = 0)
    (i : Fin n) : r.counted i (s.task (.vcpu i)).weights = 1 := by
  have hle := counted_le_one r i (s.task (.vcpu i))
  by_contra hi
  have hpos := h.progressing_pos (i := i) (by omega)
  omega

theorem SoundAt.waiters_pos (h : SoundAt r s) (hi : (s.task (.vcpu i)).weights.yielding = 1) :
    0 < s.shared.vcpuWaiters := by
  have hbalanced := (h.balanced_vcpu (i := i) rfl).waiters
  have hadd : s.shared.vcpuWaiters =
      (s.others r i).yielding + (s.task (.vcpu i)).weights.yielding + r.debt := hbalanced
  omega

theorem SoundAt.waiters_le (h : SoundAt r s) (hdebt : r.debt = 0) : s.shared.vcpuWaiters ≤ n := by
  have hle : (s.totals r).yielding ≤ Fintype.card (Fin n) :=
    Threads.tally_le_card (w := fun (_ : Fin n) (p : RoundupPoint) => p.weights.yielding)
      fun i => (s.task (.vcpu i)).yielding_le_one
  have hwaiters := h.balanced.waiters
  rw [Fintype.card_fin] at hle
  omega

theorem SoundAt.enter (h : SoundAt r s) {c : RoundupCall} (htask : s.task t = .call (.enter c))
    (hentered : s.shared.waiterMutex = false) : SoundAt (.rounding t 0 0)
      (s.goOn t { s.shared with waiterMutex := true } (.call (.roundupLoad c 0))) := by
  obtain rfl : r = .free := by
    have hr := h.entered.symm.trans hentered
    cases r with
    | free => rfl
    | _ => cases hr
  have htotals : s.totals .free = s.totals (.rounding t 0 0) := totals_congr fun i => by
    rw [RoundupStage.counted_of_not rfl rfl, RoundupStage.counted_of_not rfl rfl]
  refine h.goOn_stage (fun _ _ => by rw [htask]; rfl) (by rw [htask]; rfl) rfl (fun i => ?_)
    ⟨rfl, Nat.zero_le n⟩ (fun u _ => ?_) trivial (fun u _ => h.read u) nofun ?_ rfl ?_
  · rw [h.state i]
    rfl
  · exact (h.pinned u).of_not_owner nofun nofun fun hmoves =>
      (h.pinned u).of_moves hmoves (fun _ => rfl) nofun
  · rintro _ _ _ ⟨⟩
    exact ⟨le_rfl, Nat.zero_le 1, Nat.zero_le n, fun _ _ => nofun⟩
  · have hbalanced := h.balanced
    rw [htotals] at hbalanced
    exact ⟨hbalanced.progressing, hbalanced.waiters, hbalanced.count, hbalanced.leads,
      hbalanced.semaphores⟩

theorem stopped_of_emulate (h : p.weights.kind = .emulate) : p.weights.stopped = 0 := by
  have hle := p.weighed.le_one
  have hnot : p.weights.stopped ≠ 1 := fun hstopped => (p.weighed.kind.1 hstopped).1 h
  omega

theorem SoundAt.state_setState (h : SoundAt r s) {k : ℕ} (hk : k < n) {kind : CpuKind}
    {rounded : Bool} (hkind : s.shared.state ⟨k, hk⟩ = .of kind rounded) {rounded' : Bool}
    (hself : r'.isRounded k = rounded') (hother : ∀ i, i ≠ k → r'.isRounded i = r.isRounded i)
    (i : Fin n) : (s.setState ⟨k, hk⟩ (.of kind rounded')).state i =
      .of (s.task (.vcpu i)).weights.kind (r'.isRounded i) := by
  by_cases hi : i = ⟨k, hk⟩
  · subst hi
    rw [setState_self, hself, (CpuState.of_inj.1 (hkind.symm.trans (h.state ⟨k, hk⟩))).1]
  · rw [setState_of_ne hi, h.state i, hother i fun hik => hi (Fin.ext hik)]

/-- A round-up has dealt with a vCPU that emulates, as the vCPU is to give notice itself. -/
theorem SoundAt.roundupCas_emulate (h : SoundAt r s) {c : RoundupCall} {k : ℕ}
    (htask : s.task t = .call (.roundupCas c k .emulate)) (hk : k < n)
    (hkind : s.shared.state ⟨k, hk⟩ = .of .emulate false) : SoundAt (.rounding t (k + 1) (k + 1))
      (s.goOn t (s.setState ⟨k, hk⟩ (.of .emulate true)) (.call (.roundupLoad c (k + 1)))) := by
  have hpinned := h.pinned t
  rw [htask] at hpinned
  obtain ⟨rfl, -⟩ := hpinned
  have hemulate := (CpuState.of_inj.1 ((h.state ⟨k, hk⟩).symm.trans hkind)).1
  have htotals : s.totals (.rounding t k k) = s.totals (.rounding t (k + 1) (k + 1)) := by
    refine totals_congr fun i => ?_
    show _ + (if decide (i.val < k) = true then _ else 0) =
      _ + (if decide (i.val < k + 1) = true then _ else 0)
    by_cases hi : i = ⟨k, hk⟩
    · rw [hi, stopped_of_emulate hemulate, ite_self, ite_self]
    · have hik : i.val ≠ k := fun hik => hi (Fin.ext hik)
      simp only [decide_eq_true_eq, show i.val < k + 1 ↔ i.val < k by omega]
  refine h.goOn_stage (fun _ _ => by rw [htask]; rfl) (by rw [htask]; rfl) rfl
    (h.state_setState hk hkind (decide_eq_true (Nat.lt_succ_self k)) fun i hi => ?_) ⟨rfl, hk⟩
    (fun u hu => ?_) trivial (fun u _ => (h.read u).setState) nofun ?_ h.entered ?_
  · exact decide_eq_decide.2 (by omega)
  · refine (h.pinned u).of_not_owner (fun hu' => hu (Option.some.inj hu').symm) nofun fun hmoves =>
      (h.pinned u).of_moves hmoves (fun _ => rfl) ?_
    rintro _ _ _ ⟨⟩
    exact ⟨_, _, rfl, Nat.le_succ k⟩
  · rintro _ _ _ ⟨⟩
    exact ⟨le_rfl, Nat.le_succ _, hk, fun _ _ hlt => absurd hlt (lt_irrefl _)⟩
  · have hbalanced := h.balanced.setState (i := ⟨k, hk⟩) (.of .emulate true)
    rw [htotals] at hbalanced
    exact ⟨hbalanced.progressing, hbalanced.waiters, hbalanced.count, hbalanced.leads,
      hbalanced.semaphores⟩

/-- A round-up is to give notice of a vCPU that does not emulate. -/
theorem SoundAt.roundupCas (h : SoundAt r s) {c : RoundupCall} {k : ℕ} {kind : CpuKind}
    (htask : s.task t = .call (.roundupCas c k (.of kind false))) (hk : k < n)
    (hkind : s.shared.state ⟨k, hk⟩ = .of kind false) (hemulate : kind ≠ .emulate) :
    SoundAt (.rounding t (k + 1) k)
      (s.goOn t (s.setState ⟨k, hk⟩ (.of kind true)) (.call (.notify (.roundedup c k)))) := by
  have hpinned := h.pinned t
  rw [htask] at hpinned
  obtain ⟨rfl, -⟩ := hpinned
  have hsame := (CpuState.of_inj.1 ((h.state ⟨k, hk⟩).symm.trans hkind)).1
  -- a vCPU that is to give notice itself has been rounded up
  have hnot : s.task (.vcpu ⟨k, hk⟩) ≠ .call (.notify .emulated) := fun hnotify => by
    have hended := h.pinned (.vcpu ⟨k, hk⟩)
    rw [hnotify] at hended
    obtain ⟨i, hi, _, _, _, ⟨⟩, hlt⟩ := hended
    cases hi
    exact absurd hlt (lt_irrefl k)
  refine h.goOn_stage (fun _ _ => by rw [htask]; rfl) (by rw [htask]; rfl) rfl
    (h.state_setState hk hkind (decide_eq_true (Nat.lt_succ_self k)) fun i hi => ?_) ⟨rfl, hk⟩
    (fun u hu => ?_) trivial (fun u _ => (h.read u).setState) nofun ?_ h.entered ?_
  · exact decide_eq_decide.2 (by omega)
  · refine (h.pinned u).of_not_owner (fun hu' => hu (Option.some.inj hu').symm) nofun fun hmoves =>
      (h.pinned u).of_moves hmoves (fun _ => rfl) ?_
    rintro _ _ _ ⟨⟩
    exact ⟨_, _, rfl, le_rfl⟩
  · rintro _ _ _ ⟨⟩
    refine ⟨Nat.le_succ k, le_rfl, hk, fun i hi _ => ?_⟩
    obtain rfl : i = ⟨k, hk⟩ := Fin.ext hi
    exact (RoundupPoint.weighed _).kind.2 ⟨hsame ▸ hemulate, hnot⟩
  · have hbalanced := h.balanced.setState (i := ⟨k, hk⟩) (.of kind true)
    exact ⟨hbalanced.progressing, hbalanced.waiters, hbalanced.count, hbalanced.leads,
      hbalanced.semaphores⟩

theorem SoundAt.notify_roundedup (h : SoundAt r s) {c : RoundupCall} {k : ℕ}
    (htask : s.task t = .call (.notify (.roundedup c k))) : 0 < s.shared.vcpusProgressing ∧
      ∀ p, p = .call (.signalEmulationEnd (.roundedup c k)) ∨ p = .call (.roundupLoad c (k + 1)) →
        SoundAt (.rounding t (k + 1) (k + 1))
          (s.goOn t { s.shared with vcpusProgressing := s.shared.vcpusProgressing - 1 } p) := by
  have hpinned := h.pinned t
  rw [htask] at hpinned
  obtain ⟨rfl, hk⟩ := hpinned
  have hstopped := (h.noticed t (k + 1) k rfl).2.2.2 ⟨k, hk⟩ rfl (Nat.lt_succ_self k)
  have hle := (s.task (.vcpu ⟨k, hk⟩)).weighed.le_one
  have hbefore : (RoundupStage.rounding t (k + 1) k).counted k (s.task (.vcpu ⟨k, hk⟩)).weights = 0 := by
    show _ + (if decide (k < k) = true then _ else 0) = 0
    rw [if_neg (by simp)]
    omega
  have hafter : (RoundupStage.rounding t (k + 1) (k + 1)).counted k
      (s.task (.vcpu ⟨k, hk⟩)).weights = 1 := by
    show _ + (if decide (k < k + 1) = true then _ else 0) = 1
    rw [if_pos (by simp)]
    omega
  have hpos := h.progressing_pos (i := ⟨k, hk⟩) hbefore
  refine ⟨hpos, fun p hp => ?_⟩
  have hothers : s.others (.rounding t (k + 1) k) ⟨k, hk⟩ =
      s.others (.rounding t (k + 1) (k + 1)) ⟨k, hk⟩ := by
    have hcounted := @Threads.tallyOthers_congr _ _ _ _ _ RoundupThread.vcpu
      (fun i p => (RoundupStage.rounding t (k + 1) k).counted i.val p.weights)
      (fun i p => (RoundupStage.rounding t (k + 1) (k + 1)).counted i.val p.weights) s _ ⟨k, hk⟩
      fun i hi => by
        have hik : i.val ≠ k := fun hik => hi (Fin.ext hik)
        show _ + (if decide (i.val < k) = true then _ else 0) =
          _ + (if decide (i.val < k + 1) = true then _ else 0)
        simp only [decide_eq_true_eq, show i.val < k + 1 ↔ i.val < k by omega]
    simp only [others, hcounted]
  have hbalanced := h.balanced_vcpu (i := ⟨k, hk⟩) rfl
  rw [hbefore, hothers] at hbalanced
  have hweights : p.weights = (s.task t).weights := by
    rw [htask]
    obtain rfl | rfl := hp <;> rfl
  have hexternal : p.isExternal = (s.task t).isExternal := by
    rw [htask]
    obtain rfl | rfl := hp <;> rfl
  refine h.goOn_stage (fun _ _ => congrArg _ hweights) hexternal rfl h.state ?_ (fun u hu => ?_) ?_
    (fun u _ => h.read u) (by rintro _ ⟨⟩) ?_ h.entered ?_
  · obtain rfl | rfl := hp
    · exact ⟨rfl, hk⟩
    · exact ⟨rfl, hk⟩
  · refine (h.pinned u).of_not_owner (fun hu' => hu (Option.some.inj hu').symm) (by rintro - ⟨⟩)
      fun hmoves => (h.pinned u).of_moves hmoves (fun _ => rfl) ?_
    rintro _ _ _ ⟨⟩
    exact ⟨_, _, rfl, Nat.le_succ k⟩
  · obtain rfl | rfl := hp <;> trivial
  · rintro _ _ _ ⟨⟩
    exact ⟨le_rfl, Nat.le_succ _, hk, fun _ _ hlt => absurd hlt (lt_irrefl _)⟩
  · rw [totals_eq_add _ s ⟨k, hk⟩, hafter]
    refine ⟨?_, hbalanced.waiters, hbalanced.count, hbalanced.leads, hbalanced.semaphores⟩
    have hsum := hbalanced.progressing
    show s.shared.vcpusProgressing - 1 + (_ + 1) = n
    simp only [Totals.add] at hsum
    omega

theorem SoundAt.stopped_or_yielded (h : SoundAt (.rounding t n n) s)
    (hzero : s.shared.vcpusProgressing = 0) (i : Fin n) :
    (s.task (.vcpu i)).weights.yielded + (s.task (.vcpu i)).weights.stopped = 1 := by
  have hcounted := h.counted_of_progressing hzero i
  rwa [RoundupStage.counted, RoundupStage.noticed, if_pos (decide_eq_true i.isLt)] at hcounted

theorem shares_of_pinned (h : r.Pinned u p) (hp : p.shares = true) : r.shares = true := by
  match p with
  | .parallel .unyield => exact h
  | .parallel .roundedup => exact h
  | .parallel .subCount => exact h

/-- All vCPUs have stopped: nobody is left of an earlier parallel round-up, and those that have
called one since wait for it. -/
theorem SoundAt.balanced_stopped (h : SoundAt (.rounding t n n) s)
    (hzero : s.shared.vcpusProgressing = 0) (c : RoundupCall) :
    Balanced (.held t c) s.shared (s.totals (.held t c)) ∧
      (0 < (s.totals (.held t c)).leads →
        Balanced (.gathered t) s.shared (s.totals (.gathered t))) := by
  have hone := h.stopped_or_yielded hzero
  have hresumeWaits : (s.totals (.rounding t n n)).resumeWaits = 0 := by
    show s.number (fun _ p => p.weights.resumeWaits) = 0
    exact Threads.tally_eq_zero fun i => (s.task (.vcpu i)).weighed.resumeWaits (hone i)
  have hdecs : (s.totals (.rounding t n n)).decs = 0 := by
    show s.number (fun _ p => p.weights.decs) = 0
    exact Threads.tally_eq_zero fun i => (s.task (.vcpu i)).weighed.decs (hone i)
  have hjoined : (s.totals (.rounding t n n)).joined =
      (s.totals (.rounding t n n)).leads + (s.totals (.rounding t n n)).follows := by
    show s.number (fun _ p => p.weights.joined) =
      s.number (fun _ p => p.weights.leads) + s.number (fun _ p => p.weights.follows)
    exact Threads.tally_add fun i => (s.task (.vcpu i)).weighed.joined (hone i) <|
      Bool.eq_false_iff.2 fun hshares => nomatch shares_of_pinned (h.pinned (.vcpu i)) hshares
  have hheld : s.totals (.rounding t n n) = s.totals (.held t c) :=
    totals_congr fun i => h.counted_of_progressing hzero i
  have hgathered : s.totals (.gathered t) = s.totals (.held t c) := rfl
  have hbalanced := h.balanced
  obtain ⟨hcountSem, hsem, -⟩ := hbalanced.semaphores
  rw [hheld] at hbalanced hresumeWaits hdecs hjoined hsem
  refine ⟨⟨hbalanced.progressing, hbalanced.waiters, hbalanced.count, hbalanced.leads, hcountSem,
    by omega, by omega, fun _ => hresumeWaits⟩, fun hleads => ?_⟩
  rw [hgathered]
  refine ⟨hbalanced.progressing, hbalanced.waiters, hbalanced.count, hbalanced.leads, hcountSem,
    by omega, by omega, hresumeWaits, ?_⟩
  have hmin := hbalanced.leads
  have hcount := hbalanced.count
  have hdebt : (s.totals (.held t c)).leads + 0 = min s.shared.count 1 := hmin
  omega

theorem SoundAt.checkProgressing (h : SoundAt r s) {c : RoundupCall}
    (htask : s.task t = .call (.checkProgressing c)) (hzero : s.shared.vcpusProgressing = 0) :
    ∃ r', SoundAt r' (s.goOn t s.shared c.afterRoundup) := by
  have hpinned := h.pinned t
  rw [htask] at hpinned
  obtain rfl := hpinned
  have hmoves (i : Fin n) : (s.task (.vcpu i)).weights.moves = 0 :=
    (s.task (.vcpu i)).weighed.moves (h.stopped_or_yielded hzero i)
  have hpins (r' : RoundupStage n) (u : RoundupThread n) (hu : u ≠ t) : r'.Pinned u (s.task u) := by
    refine (h.pinned u).of_not_owner (fun hu' => hu (Option.some.inj hu').symm) nofun fun hu1 => ?_
    cases u with
    | vcpu i => exact absurd ((hmoves i).symm.trans hu1) nofun
    | external e => exact absurd ((moves_of_isExternal (h.suits (.external e))).symm.trans hu1) nofun
  have hheld (hc : c ≠ .parallel) :
      SoundAt (.held t c) (s.goOn t s.shared (.call (.roundedup c))) :=
    h.goOn_stage (fun _ _ => by rw [htask]; rfl) (by rw [htask]; rfl) rfl
      (fun i => (h.state i).trans (congrArg _ (decide_eq_true i.isLt))) ⟨rfl, hc⟩
      (hpins (.held t c)) trivial (fun u _ => h.read u)
      (fun i _ => moves_goOn (fun _ _ => by rw [htask]; rfl) (hmoves i)) nofun h.entered
      (h.balanced_stopped hzero c).1
  cases c with
  | external => exact ⟨_, hheld nofun⟩
  | fromVcpu => exact ⟨_, hheld nofun⟩
  | parallel =>
      have hleads : 0 < (s.totals (.held t .parallel)).leads := by
        cases t with
        | vcpu i =>
            have hle := Threads.le_tally (v := RoundupThread.vcpu)
              (w := fun (_ : Fin n) (p : RoundupPoint) => p.weights.leads) (s := s) i
            rw [htask] at hle
            exact hle
        | external e =>
            have hsuits := h.suits (.external e)
            rw [htask] at hsuits
            cases hsuits
      exact ⟨.gathered t, h.goOn_stage (fun _ _ => by rw [htask]; rfl) (by rw [htask]; rfl) rfl
        (fun i => (h.state i).trans (congrArg _ (decide_eq_true i.isLt))) rfl
        (hpins (.gathered t)) trivial (fun u _ => h.read u)
        (fun i _ => moves_goOn (fun _ _ => by rw [htask]; rfl) (hmoves i)) nofun h.entered
        ((h.balanced_stopped hzero .parallel).2 hleads)⟩

/-- All vCPUs but those that have yielded count as progressing again. -/
theorem SoundAt.storeProgressing (h : SoundAt r s) {c : RoundupCall} {numWaiters : ℕ}
    (htask : s.task t = .call (.storeProgressing c numWaiters)) : SoundAt (.resuming t 0)
      (s.goOn t { s.shared with vcpusProgressing := n - numWaiters } (.call (.resumeLoad c 0))) := by
  have hpinned := h.pinned t
  have hread := h.read t
  rw [htask] at hpinned hread
  obtain rfl := hpinned
  obtain rfl := hread
  have hmoves (i : Fin n) : (s.task (.vcpu i)).weights.moves = 0 := h.halted i rfl
  obtain ⟨hcountSem, hsem, hwaiting, -⟩ := h.balanced.semaphores
  have hyielded : (s.totals (.resuming t 0)).counted = (s.totals (.held t c)).yielding := by
    show s.number (fun i p => (RoundupStage.resuming t 0).counted i p.weights) =
      s.number (fun _ p => p.weights.yielding)
    refine Threads.tally_congr fun i => ?_
    rw [RoundupStage.counted_of_not rfl rfl, (s.task (.vcpu i)).weighed.yielding (hmoves i)]
  have hbalanced := h.balanced
  refine h.goOn_stage (fun _ _ => by rw [htask]; rfl) (by rw [htask]; rfl) rfl
    (fun i => (h.state i).trans (congrArg _ (decide_eq_true i.val.zero_le).symm))
    ⟨rfl, Nat.zero_le n⟩ (fun u hu => ?_) trivial (fun u _ => h.read u)
    (fun i _ => moves_goOn (fun _ _ => by rw [htask]; rfl) (hmoves i)) nofun h.entered
    ⟨?_, hbalanced.waiters, hbalanced.count, hbalanced.leads, hcountSem, ?_, fun _ => hsem⟩
  · exact (h.pinned u).of_not_owner (fun hu' => hu (Option.some.inj hu').symm) nofun fun hmoves =>
      (h.pinned u).of_moves hmoves nofun nofun
  · have hwaiters : s.shared.vcpuWaiters = (s.totals (.held t c)).yielding + 0 := hbalanced.waiters
    have hle := h.waiters_le rfl
    rw [hyielded]
    show n - s.shared.vcpuWaiters + _ = n
    omega
  · show s.shared.resumeWaiterSem.length + s.shared.numWaiters =
      (s.totals (.held t c)).resumeWaits + (s.totals (.held t c)).decs
    omega

theorem SoundAt.resumeCas (h : SoundAt r s) {c : RoundupCall} {k : ℕ} {kind : CpuKind}
    (htask : s.task t = .call (.resumeCas c k (.of kind true))) (hk : k < n)
    (hkind : s.shared.state ⟨k, hk⟩ = .of kind true) : SoundAt (.resuming t (k + 1))
      (s.goOn t (s.setState ⟨k, hk⟩ (.of kind false)) (.call (.resumeVcpu c k))) := by
  have hpinned := h.pinned t
  rw [htask] at hpinned
  obtain ⟨rfl, -⟩ := hpinned
  have htotals : s.totals (.resuming t k) = s.totals (.resuming t (k + 1)) :=
    totals_congr fun _ => rfl
  refine h.goOn_stage (fun _ _ => by rw [htask]; rfl) (by rw [htask]; rfl) rfl
    (h.state_setState hk hkind (decide_eq_false (Nat.not_succ_le_self k)) fun i hi => ?_) ⟨rfl, hk⟩
    (fun u hu => ?_) trivial (fun u _ => (h.read u).setState) (fun i hi => ?_) nofun h.entered ?_
  · exact decide_eq_decide.2 (by omega)
  · exact (h.pinned u).of_not_owner (fun hu' => hu (Option.some.inj hu').symm) nofun fun hmoves =>
      (h.pinned u).of_moves hmoves nofun nofun
  · exact moves_goOn (fun _ _ => by rw [htask]; rfl)
      (h.halted i (decide_eq_true (Nat.le_of_succ_le (of_decide_eq_true hi))))
  · have hbalanced := h.balanced.setState (i := ⟨k, hk⟩) (.of kind false)
    rw [htotals] at hbalanced
    exact ⟨hbalanced.progressing, hbalanced.waiters, hbalanced.count, hbalanced.leads,
      hbalanced.semaphores⟩

theorem SoundAt.exit (h : SoundAt r s) {c : RoundupCall} (htask : s.task t = .call (.exit c)) :
    SoundAt .free (s.goOn t { s.shared with waiterMutex := false } c.afterResume) := by
  have hpinned := h.pinned t
  rw [htask] at hpinned
  obtain rfl := hpinned
  have htotals : s.totals (.resuming t n) = s.totals .free := totals_congr fun _ => rfl
  have hbalanced := h.balanced
  rw [htotals] at hbalanced
  obtain ⟨hcountSem, hsem, -⟩ := hbalanced.semaphores
  refine h.goOn_stage (fun i hi => ?_) ?_ rfl (fun i => ?_) ?_ (fun u hu => ?_) ?_
    (fun u _ => h.read u) nofun nofun rfl
    ⟨hbalanced.progressing, hbalanced.waiters, hbalanced.count, hbalanced.leads, hcountSem, hsem, nofun⟩
  · rw [htask]
    cases c with
    | external =>
        have hsuits := h.suits t
        rw [htask, hi] at hsuits
        cases hsuits
    | fromVcpu => rfl
    | parallel => rfl
  · rw [htask]
    cases c <;> rfl
  · exact (h.state i).trans (congrArg _ (decide_eq_false (Nat.not_le.2 i.isLt)))
  · cases c <;> trivial
  · exact (h.pinned u).of_not_owner (fun hu' => hu (Option.some.inj hu').symm) nofun fun hmoves =>
      (h.pinned u).of_moves hmoves nofun nofun
  · cases c <;> trivial

/-- Where a thread goes on after notice has been given, with the signal or without. -/
theorem weights_after (a : Notifier) :
    a.after.weights = (RoundupPoint.call (.signalEmulationEnd a)).weights := by
  match a with
  | .emulated => rfl
  | .yielded .fromVcpu => rfl
  | .yielded .leader => rfl
  | .yielded .follower => rfl
  | .roundedup _ _ => rfl

theorem not_isExternal_after (a : Notifier) : a.after.isExternal =
    (RoundupPoint.call (.signalEmulationEnd a)).isExternal := by
  match a with
  | .emulated => rfl
  | .yielded .fromVcpu => rfl
  | .yielded .leader => rfl
  | .yielded .follower => rfl
  | .roundedup _ _ => rfl

theorem SoundAt.exists_vcpu (h : SoundAt r s) (ht : (s.task t).isExternal = false) :
    ∃ i, t = .vcpu i := by
  rw [h.suits t] at ht
  cases t with
  | vcpu i => exact ⟨i, rfl⟩
  | external e => cases ht

theorem SoundAt.not_halts (h : SoundAt r s) (hmoves : (s.task (.vcpu i)).weights.moves = 1) :
    r.halts i = false := by
  refine Bool.eq_false_iff.2 fun hhalts => ?_
  have hzero := h.halted i hhalts
  omega

theorem HasRead.of_vcpuWaiters (h : HasRead s.shared p) {vcpuWaiters : ℕ}
    (hp : ∀ c numWaiters, p ≠ .call (.storeProgressing c numWaiters)) :
    HasRead { s.shared with vcpuWaiters := vcpuWaiters } p := by
  cases p with
  | switch p => trivial
  | call p =>
      cases p with
      | storeProgressing c numWaiters => exact absurd rfl (hp c numWaiters)
      | _ => trivial
  | parallel p => cases p <;> exact h

/-- **`yield`**, up to its notice. -/
theorem SoundAt.yield (h : SoundAt r s) {y : Yielder} (htask : s.task t = .call (.yield y)) :
    SoundAt r (s.goOn t { s.shared with vcpuWaiters := s.shared.vcpuWaiters + 1 }
      (.call (.notify (.yielded y)))) := by
  obtain ⟨i, rfl⟩ := h.exists_vcpu (t := t) (by rw [htask]; rfl)
  have hhalts := h.not_halts (i := i) (by rw [htask]; rfl)
  have hstate := h.state i
  have hbalanced := h.balanced_vcpu (congrArg RoundupPoint.weights htask)
  rw [htask] at hstate
  refine h.goOn_vcpu rfl hstate (fun _ _ => rfl) rfl trivial trivial
    (fun u hu => (h.read u).of_vcpuWaiters fun c numWaiters hstore => ?_)
    (fun hi => absurd (hhalts.symm.trans hi) nofun) (fun _ hstopped => ?_) rfl
    ⟨hbalanced.progressing, ?_, hbalanced.count, hbalanced.leads, hbalanced.semaphores⟩ nofun
  · -- all vCPUs have stopped while a thread has read the number of waiters
    have hpinned := h.pinned u
    rw [hstore] at hpinned
    obtain rfl : r = .held u c := hpinned
    cases hhalts
  · rw [htask] at hstopped
    cases hstopped
  · have hwaiters : s.shared.vcpuWaiters = (s.others r i).yielding + 0 + r.debt :=
      hbalanced.waiters
    show s.shared.vcpuWaiters + 1 = (s.others r i).yielding + 1 + r.debt
    omega

/-- **`unyield`** of a vCPU that resumes. -/
theorem SoundAt.unyield (h : SoundAt r s) {c : RoundupCall} (htask : s.task t = .call (.unyield c)) :
    0 < s.shared.vcpuWaiters ∧ SoundAt r
      (s.goOn t { s.shared with vcpuWaiters := s.shared.vcpuWaiters - 1 }
        (.call (.loadWaiters c))) := by
  have hpinned := h.pinned t
  rw [htask] at hpinned
  obtain ⟨rfl, hc⟩ := hpinned
  obtain ⟨i, rfl⟩ := h.exists_vcpu (t := t) (by
    rw [htask]
    cases c with
    | external => exact absurd rfl hc
    | _ => rfl)
  have hstate := h.state i
  have hbalanced := h.balanced_vcpu (congrArg RoundupPoint.weights htask)
  have hpos := h.waiters_pos (i := i) (by rw [htask]; rfl)
  rw [htask] at hstate
  refine ⟨hpos, h.goOn_vcpu rfl hstate (fun _ _ => rfl) ?_ rfl trivial
    (fun u hu => (h.read u).of_vcpuWaiters fun c' numWaiters hstore => ?_) (fun _ => rfl)
    (fun _ hstopped => ?_) rfl
    ⟨hbalanced.progressing, ?_, hbalanced.count, hbalanced.leads, hbalanced.semaphores⟩
    fun hresumes => ?_⟩
  · cases c with
    | external => exact absurd rfl hc
    | _ => rfl
  · have hpinned := h.pinned u
    rw [hstore] at hpinned
    injection hpinned with hu'
    exact hu hu'.symm
  · rw [htask] at hstopped
    cases hstopped
  · have hwaiters : s.shared.vcpuWaiters = (s.others (.held (.vcpu i) c) i).yielding + 1 + 0 :=
      hbalanced.waiters
    show s.shared.vcpuWaiters - 1 = (s.others (.held (.vcpu i) c) i).yielding + 0 + 0
    omega
  · rw [htask]
    exact hresumes

/-- **`vcpu_notify_done_progressing`** of a vCPU that has ended its emulation. -/
theorem SoundAt.notify_emulated (h : SoundAt r s) (htask : s.task t = .call (.notify .emulated)) :
    0 < s.shared.vcpusProgressing ∧
      ∀ p, p = .call (.signalEmulationEnd .emulated) ∨ p = .switch .running → SoundAt r
        (s.goOn t { s.shared with vcpusProgressing := s.shared.vcpusProgressing - 1 } p) := by
  have hpinned := h.pinned t
  rw [htask] at hpinned
  obtain ⟨i, rfl, u, k, j, rfl, hij⟩ := hpinned
  have hstate := h.state i
  have hbalanced := h.balanced_vcpu (congrArg RoundupPoint.weights htask)
  have hpos := h.progressing_pos (i := i) (by
    rw [htask]
    show 0 + (if decide (i.val < j) = true then 0 else 0) = 0
    rw [ite_self])
  rw [htask] at hstate
  refine ⟨hpos, fun p hp => ?_⟩
  have hweights : p.weights = CpuKind.on.weights := by obtain rfl | rfl := hp <;> rfl
  have hnew : (RoundupStage.rounding u k j).counted i CpuKind.on.weights = 1 := by
    show 0 + (if decide (i.val < j) = true then 1 else 0) = 1
    rw [if_pos (decide_eq_true hij)]
  refine h.goOn_vcpu rfl ?_ (fun _ _ => rfl) ?_ ?_ ?_ (fun u _ => h.read u) nofun
    (fun _ _ => ?_) rfl ?_ ?_
  · rw [hweights]
    exact hstate
  · obtain rfl | rfl := hp <;> rfl
  · obtain rfl | rfl := hp <;> trivial
  · obtain rfl | rfl := hp <;> trivial
  · rw [hweights]
    rfl
  · rw [hweights, hnew]
    refine ⟨?_, hbalanced.waiters, hbalanced.count, hbalanced.leads, hbalanced.semaphores⟩
    have hsum := hbalanced.progressing
    show s.shared.vcpusProgressing - 1 + (_ + 1) = n
    change s.shared.vcpusProgressing + (_ + (0 + if decide (i.val < j) = true then 0 else 0)) = n
      at hsum
    rw [ite_self] at hsum
    omega
  · rw [hweights]
    nofun

/-- **`vcpu_notify_done_progressing`** of a vCPU that has yielded. -/
theorem SoundAt.notify_yielded (h : SoundAt r s) {y : Yielder}
    (htask : s.task t = .call (.notify (.yielded y))) : 0 < s.shared.vcpusProgressing ∧
      ∀ p, p = .call (.signalEmulationEnd (.yielded y)) ∨ p = (Notifier.yielded y).after → SoundAt r
        (s.goOn t { s.shared with vcpusProgressing := s.shared.vcpusProgressing - 1 } p) := by
  obtain ⟨i, rfl⟩ := h.exists_vcpu (t := t) (by rw [htask]; rfl)
  have hmoves : (s.task (.vcpu i)).weights.moves = 1 := by rw [htask]; rfl
  have hhalts := h.not_halts hmoves
  have hfull : r.full = false := by
    cases r with
    | free => rfl
    | rounding _ _ _ => rfl
    | resuming _ _ => rfl
    | _ => cases hhalts
  have hcounted {w : RoundupWeights} (hw : w.stopped = 0) : r.counted i w = w.yielded := by
    rw [RoundupStage.counted, hfull, hw, ite_self]
    rfl
  have hstate := h.state i
  have hbalanced := h.balanced_vcpu (congrArg RoundupPoint.weights htask)
  rw [hcounted rfl] at hbalanced
  have hpos := h.progressing_pos (i := i) (by rw [htask, hcounted rfl]; rfl)
  rw [htask] at hstate
  refine ⟨hpos, fun p hp => ?_⟩
  have hweights : p.weights = (RoundupPoint.call (.signalEmulationEnd (.yielded y))).weights := by
    obtain rfl | rfl := hp
    · rfl
    · exact weights_after _
  have hexternal : p.isExternal = false := by
    obtain rfl | rfl := hp
    · rfl
    · exact not_isExternal_after _
  refine h.goOn_vcpu rfl ?_ (fun _ _ => rfl) hexternal ?_ ?_ (fun u _ => h.read u)
    (fun hi => absurd (hhalts.symm.trans hi) nofun) (fun _ hstopped => ?_) rfl ?_ ?_
  · rw [hweights]
    exact hstate
  · obtain rfl | rfl := hp
    · trivial
    · cases y <;> trivial
  · obtain rfl | rfl := hp
    · trivial
    · cases y <;> trivial
  · rw [htask] at hstopped
    cases hstopped
  · rw [hweights, hcounted rfl]
    refine ⟨?_, hbalanced.waiters, hbalanced.count, hbalanced.leads, ?_⟩
    · have hsum := hbalanced.progressing
      show s.shared.vcpusProgressing - 1 + (_ + 1) = n
      change s.shared.vcpusProgressing + (_ + 0) = n at hsum
      omega
    · cases r with
      | free => exact hbalanced.semaphores
      | rounding _ _ _ => exact hbalanced.semaphores
      | resuming _ _ => exact hbalanced.semaphores
      | _ => cases hfull
  · rw [hweights]
    nofun

/-- **`vcpu_notify_done_progressing`.** -/
theorem SoundAt.notify (h : SoundAt r s) {a : Notifier} (htask : s.task t = .call (.notify a)) :
    0 < s.shared.vcpusProgressing ∧
      ∀ p, p = .call (.signalEmulationEnd a) ∨ p = a.after → ∃ r', SoundAt r'
        (s.goOn t { s.shared with vcpusProgressing := s.shared.vcpusProgressing - 1 } p) := by
  cases a with
  | emulated =>
      obtain ⟨hpos, hnext⟩ := h.notify_emulated htask
      exact ⟨hpos, fun p hp => ⟨_, hnext p hp⟩⟩
  | yielded y =>
      obtain ⟨hpos, hnext⟩ := h.notify_yielded htask
      exact ⟨hpos, fun p hp => ⟨_, hnext p hp⟩⟩
  | roundedup c k =>
      obtain ⟨hpos, hnext⟩ := h.notify_roundedup htask
      exact ⟨hpos, fun p hp => ⟨_, hnext p hp⟩⟩

/-- **A turn of a thread that calls a round-up.** -/
theorem SoundAt.callTurn (h : SoundAt r s) {p : CallPoint} (htask : s.task t = .call p)
    (hturn : s.callTurn t p = some s') : ∃ r', SoundAt r' s' := by
  have hpinned := h.pinned t
  rw [htask] at hpinned
  cases p with
  | away => cases hturn
  | yield y =>
      obtain rfl := Option.some.inj hturn
      exact ⟨_, h.yield htask⟩
  | notify a =>
      obtain ⟨hpos, hnotify⟩ := h.notify htask
      rw [RoundupSys.callTurn, if_neg (Nat.ne_of_gt hpos)] at hturn
      obtain rfl := Option.some.inj hturn
      refine hnotify _ ?_
      split_ifs
      · exact .inl rfl
      · exact .inr rfl
  | signalEmulationEnd a =>
      obtain rfl := Option.some.inj hturn
      have hgo : SoundAt r (s.goOn t s.shared a.after) := by
        refine h.goOn_same (fun _ _ => by rw [htask]; exact weights_after a)
          (by rw [htask]; exact not_isExternal_after a) ?_ ?_
        · match a with
          | .emulated => trivial
          | .yielded .fromVcpu => trivial
          | .yielded .leader => trivial
          | .yielded .follower => trivial
          | .roundedup _ _ => exact hpinned
        · match a with
          | .emulated => trivial
          | .yielded .fromVcpu => trivial
          | .yielded .leader => trivial
          | .yielded .follower => trivial
          | .roundedup _ _ => trivial
      exact ⟨_, hgo.of_signals _ _ _ _⟩
  | enter c =>
      rw [RoundupSys.callTurn] at hturn
      split_ifs at hturn with hentered
      obtain rfl := Option.some.inj hturn
      exact ⟨_, h.enter htask (Bool.eq_false_iff.2 hentered)⟩
  | roundupLoad c k =>
      obtain ⟨rfl, hk⟩ := hpinned
      rw [RoundupSys.callTurn] at hturn
      split_ifs at hturn with hlt
      · obtain rfl := Option.some.inj hturn
        refine ⟨_, h.goOn_same (fun _ _ => by rw [htask]; rfl) (by rw [htask]; rfl)
          ⟨rfl, hlt, _, (h.state ⟨k, hlt⟩).trans (congrArg _ (decide_eq_false (lt_irrefl k)))⟩
          trivial⟩
      · obtain rfl := Option.some.inj hturn
        obtain rfl : k = n := by omega
        exact ⟨_, h.goOn_same (fun _ _ => by rw [htask]; rfl) (by rw [htask]; rfl) rfl trivial⟩
  | roundupCas c k cur =>
      obtain ⟨rfl, hk, kind, rfl⟩ := hpinned
      rw [RoundupSys.callTurn, dif_pos hk, CpuState.roundedup_of] at hturn
      dsimp only at hturn
      split_ifs at hturn with hcur hemulate
      · obtain rfl := Option.some.inj hturn
        obtain ⟨rfl, -⟩ := CpuState.of_eq_emulate.1 hemulate
        exact ⟨_, h.roundupCas_emulate htask hk hcur⟩
      · obtain rfl := Option.some.inj hturn
        exact ⟨_, h.roundupCas htask hk hcur fun hkind =>
          hemulate (CpuState.of_eq_emulate.2 ⟨hkind, rfl⟩)⟩
      · obtain rfl := Option.some.inj hturn
        exact ⟨_, h.goOn_same (fun _ _ => by rw [htask]; rfl) (by rw [htask]; rfl)
          ⟨rfl, hk, _, (h.state ⟨k, hk⟩).trans (congrArg _ (decide_eq_false (lt_irrefl k)))⟩
          trivial⟩
  | checkProgressing c =>
      rw [RoundupSys.callTurn] at hturn
      split_ifs at hturn with hzero
      · obtain rfl := Option.some.inj hturn
        exact h.checkProgressing htask hzero
      · obtain rfl := Option.some.inj hturn
        exact ⟨_, h.goOn_same (fun _ _ => by rw [htask]; rfl) (by rw [htask]; rfl) hpinned trivial⟩
  | waitForEmulationEnd c =>
      obtain ⟨sm, -, rfl⟩ := Option.map_eq_some_iff.1 hturn
      have hgo : SoundAt r (s.goOn t s.shared (.call (.checkProgressing c))) :=
        h.goOn_same (fun _ _ => by rw [htask]; rfl) (by rw [htask]; rfl) hpinned trivial
      exact ⟨_, hgo.of_signals _ _ _ _⟩
  | roundedup c => cases hturn
  | unyield c =>
      obtain ⟨hpos, hunyield⟩ := h.unyield htask
      rw [RoundupSys.callTurn, if_neg (Nat.ne_of_gt hpos)] at hturn
      obtain rfl := Option.some.inj hturn
      exact ⟨_, hunyield⟩
  | loadWaiters c =>
      obtain rfl : r = .held t c := hpinned
      rw [RoundupSys.callTurn, if_pos (h.waiters_le rfl)] at hturn
      obtain rfl := Option.some.inj hturn
      exact ⟨_, h.goOn_same (fun _ _ => by rw [htask]; rfl) (by rw [htask]; rfl) rfl rfl⟩
  | storeProgressing c numWaiters =>
      obtain rfl := Option.some.inj hturn
      exact ⟨_, h.storeProgressing htask⟩
  | resumeLoad c k =>
      obtain ⟨rfl, hk⟩ := hpinned
      rw [RoundupSys.callTurn] at hturn
      split_ifs at hturn with hlt
      · obtain rfl := Option.some.inj hturn
        exact ⟨_, h.goOn_same (fun _ _ => by rw [htask]; rfl) (by rw [htask]; rfl)
          ⟨rfl, hlt, _, (h.state ⟨k, hlt⟩).trans (congrArg _ (decide_eq_true le_rfl))⟩ trivial⟩
      · obtain rfl := Option.some.inj hturn
        obtain rfl : k = n := by omega
        exact ⟨_, h.goOn_same (fun _ _ => by rw [htask]; rfl) (by rw [htask]; rfl) rfl trivial⟩
  | resumeCas c k cur =>
      obtain ⟨rfl, hk, kind, rfl⟩ := hpinned
      rw [RoundupSys.callTurn, dif_pos hk, CpuState.resumed_of] at hturn
      dsimp only at hturn
      split_ifs at hturn with hcur
      · obtain rfl := Option.some.inj hturn
        exact ⟨_, h.resumeCas htask hk hcur⟩
      · obtain rfl := Option.some.inj hturn
        exact ⟨_, h.goOn_same (fun _ _ => by rw [htask]; rfl) (by rw [htask]; rfl)
          ⟨rfl, hk, _, (h.state ⟨k, hk⟩).trans (congrArg _ (decide_eq_true le_rfl))⟩ trivial⟩
  | resumeVcpu c k =>
      obtain ⟨rfl, hk⟩ := hpinned
      rw [RoundupSys.callTurn, dif_pos hk] at hturn
      obtain rfl := Option.some.inj hturn
      have hgo : SoundAt (.resuming t (k + 1)) (s.goOn t s.shared (.call (.resumeLoad c (k + 1)))) :=
        h.goOn_same (fun _ _ => by rw [htask]; rfl) (by rw [htask]; rfl) ⟨rfl, hk⟩ trivial
      exact ⟨_, hgo.of_signals _ _ _ _⟩
  | exit c =>
      obtain rfl := Option.some.inj hturn
      exact ⟨_, h.exit htask⟩

end RoundupSys

end Vml
