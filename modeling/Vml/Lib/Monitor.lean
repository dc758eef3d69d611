import Mathlib.Data.List.Induction
import Vml.Lib.Run
import Vml.Lib.Tally

/-!
# Monitors

Threads that wait with a mutex and a condition variable until there is something to take, and others
that give something and notify one of those that wait. A thread checks under the mutex whether there
is something, and sleeps if there is not; it is woken up by a notification, or for no reason, and
checks again. It may wait with a deadline, and be told that this has passed, which the condition
variable may do even if it has been notified (`expireNotified`).

**Notifications.** Where somebody sleeps, there is no more to take than threads have been woken up
and are still to check (`Trace.attended`), but for what has been left behind by those that were
notified and then told of their deadline. A thread that waits alone misses nothing in any case
(`Trace.alone`).
-/

namespace Vml

/-- What a monitor guards: how much there is to take, what is left when one is taken, and what a
giver does, which may have nothing to notify of. -/
structure Guarded (σ : Type*) where
  avail : σ → ℕ
  take : σ → σ
  give : σ → σ
  notifies : σ → Bool
  avail_take : ∀ s, 0 < avail s → avail (take s) < avail s
  avail_give : ∀ s, avail (give s) ≤ avail s + (notifies s).toNat

/-- Where a thread is, that may have a deadline. -/
inductive WaitPoint
  | idle
  /-- It is to get the mutex. -/
  | enter (timed : Bool)
  | asleep (timed : Bool)
  /-- It has been woken up, and is to get the mutex again. -/
  | woken (timed : Bool)
  deriving DecidableEq, Repr

namespace WaitPoint

/-- It sleeps. -/
def isAsleep : WaitPoint → Bool
  | asleep _ => true
  | _ => false

/-- It has been woken up. -/
def isWoken : WaitPoint → Bool
  | woken _ => true
  | _ => false

end WaitPoint

/-- What happens. -/
inductive MonitorAct (τ : Type*)
  | call (t : τ) (timed : Bool)
  /-- A thread has the mutex: it takes, or sleeps. -/
  | turn (t : τ)
  /-- Somebody gives. A notification is for one of the threads that sleep, if there are any. -/
  | give (notified : Option τ)
  | spurious (t : τ)
  | expire (t : τ)
  /-- The deadline of a thread has passed that has been notified. -/
  | expireNotified (t : τ)
  deriving DecidableEq, Repr

/-- A thread is told of its deadline although it has been notified. -/
def MonitorAct.isLate {τ : Type*} : MonitorAct τ → Bool
  | expireNotified _ => true
  | _ => false

/-- What is done. -/
inductive MonitorEvent (τ : Type*)
  | gave
  | took (t : τ)
  | timedOut (t : τ)
  deriving DecidableEq, Repr

namespace MonitorEvent

variable {τ : Type*}

def isGave : MonitorEvent τ → Bool
  | gave => true
  | _ => false

def isTook : MonitorEvent τ → Bool
  | took _ => true
  | _ => false

end MonitorEvent

/-- A monitor and its threads. -/
abbrev Monitor (σ τ : Type*) := Threads σ τ WaitPoint

namespace Guarded

variable {σ τ : Type*} [DecidableEq τ] (g : Guarded σ)

/-- Who may be notified. -/
def Notifies (s : Monitor σ τ) : Option τ → Prop
  | some t => g.notifies s.shared = true ∧ (s.task t).isAsleep = true
  | none => g.notifies s.shared = true → ∀ t, (s.task t).isAsleep = false

/-- A step, and what is done by it. -/
inductive Step (s : Monitor σ τ) : MonitorAct τ → Option (MonitorEvent τ) → Monitor σ τ → Prop
  | call {t : τ} (timed : Bool) (h : s.task t = .idle) :
      Step s (.call t timed) none (s.goOn t s.shared (.enter timed))
  | takes {t : τ} {timed : Bool} (h : s.task t = .enter timed ∨ s.task t = .woken timed)
      (ha : 0 < g.avail s.shared) :
      Step s (.turn t) (some (.took t)) (s.goOn t (g.take s.shared) .idle)
  | sleeps {t : τ} {timed : Bool} (h : s.task t = .enter timed ∨ s.task t = .woken timed)
      (ha : g.avail s.shared = 0) :
      Step s (.turn t) none (s.goOn t s.shared (.asleep timed))
  | give (h : g.Notifies s none) :
      Step s (.give none) (some .gave) { s with shared := g.give s.shared }
  | notify {t : τ} {timed : Bool} (h : g.Notifies s (some t)) (ht : s.task t = .asleep timed) :
      Step s (.give (some t)) (some .gave) (s.goOn t (g.give s.shared) (.woken timed))
  | spurious {t : τ} {timed : Bool} (h : s.task t = .asleep timed) :
      Step s (.spurious t) none (s.goOn t s.shared (.woken timed))
  | expire {t : τ} (h : s.task t = .asleep true) :
      Step s (.expire t) (some (.timedOut t)) (s.goOn t s.shared .idle)
  | expireNotified {t : τ} (h : s.task t = .woken true) :
      Step s (.expireNotified t) (some (.timedOut t)) (s.goOn t s.shared .idle)

/-- A run, and what is done in it. -/
inductive Trace (s : Monitor σ τ) :
    List (MonitorAct τ) → List (MonitorEvent τ) → Monitor σ τ → Prop
  | nil : Trace s [] [] s
  | snoc {u v : Monitor σ τ} {as : List (MonitorAct τ)} {es : List (MonitorEvent τ)}
      {a : MonitorAct τ} {e : Option (MonitorEvent τ)} (h : Trace s as es u)
      (hstep : g.Step u a e v) :
      Trace s (as ++ [a]) (es ++ e.toList) v

/-! ## What is taken has been given -/

/-- What is guarded, after something has been done. There is no result if nothing can be taken. -/
def next (s : σ) : MonitorEvent τ → Option σ
  | .gave => some (g.give s)
  | .took _ => if 0 < g.avail s then some (g.take s) else none
  | .timedOut _ => some s

variable {g} {s u v : Monitor σ τ} {a : MonitorAct τ} {e : Option (MonitorEvent τ)}
  {as : List (MonitorAct τ)} {es : List (MonitorEvent τ)} {w : τ}

theorem Step.refines (h : g.Step u a e v) : e.toList.foldlM g.next u.shared = some v.shared := by
  cases h with
  | takes _ ha => simp [next, ha]
  | call _ _ | sleeps _ _ | spurious _ => rfl
  | give _ | notify _ _ | expire _ | expireNotified _ => simp [next]

/-- **A run** does what the guarded state allows, one thing after another. -/
theorem Trace.refines (h : g.Trace s as es u) : es.foldlM g.next s.shared = some u.shared := by
  induction h with
  | nil => rfl
  | snoc _ hstep ih => rw [List.foldlM_append, ih]; exact hstep.refines

/-! ## No notification is lost -/

/-- How many threads have been woken up and are still to check. -/
def awake [Fintype τ] (s : Monitor σ τ) : ℕ :=
  Threads.tally id (fun _ p => p.isWoken.toNat) s

/-- Nobody sleeps without need: there is no more to take than threads are awake, but for `late`. -/
def Attended [Fintype τ] (g : Guarded σ) (s : Monitor σ τ) (late : ℕ) : Prop :=
  ∀ t, (s.task t).isAsleep = true → g.avail s.shared ≤ awake s + late

/-- Whoever sleeps after a turn slept before it, or is the one whose turn it was. -/
theorem isAsleep_goOn {t x : τ} {σ' : σ} {p : WaitPoint}
    (h : ((s.goOn t σ' p).task x).isAsleep = true) :
    (s.task x).isAsleep = true ∨ p.isAsleep = true := by
  by_cases hx : x = t
  · subst hx
    rw [Threads.goOn_task_self] at h
    exact .inr h
  · rw [Threads.goOn_task_of_ne _ _ _ _ hx] at h
    exact .inl h

section Awake

variable [Fintype τ] {late : ℕ}

theorem awake_goOn (t : τ) (σ' : σ) (p : WaitPoint) :
    awake (s.goOn t σ' p) + (s.task t).isWoken.toNat = awake s + p.isWoken.toNat := by
  have hafter : awake (s.goOn t σ' p) = _ := Threads.tally_goOn Function.injective_id t σ' p
  have hbefore : awake s = _ := Threads.tally_eq_tallyOthers t
  rw [hafter, hbefore]
  exact Nat.add_right_comm ..

theorem Attended.goOn (h : g.Attended s late) {t : τ} {σ' : σ} {p : WaitPoint} {late' : ℕ}
    (hp : p.isAsleep = false)
    (hle : g.avail s.shared ≤ awake s + late → g.avail σ' + (s.task t).isWoken.toNat ≤
      awake s + p.isWoken.toNat + late') : g.Attended (s.goOn t σ' p) late' := by
  intro x hx
  have hasleep := (isAsleep_goOn hx).resolve_right (by simp [hp])
  have hawake := awake_goOn (s := s) t σ' p
  have hcount := hle (h x hasleep)
  rw [Threads.goOn_shared]
  omega

theorem Step.attended (h : g.Step u a e v) (hu : g.Attended u late) :
    g.Attended v (late + a.isLate.toNat) := by
  cases h with
  | call timed hidle =>
    refine hu.goOn rfl fun hle => ?_
    simpa [hidle, WaitPoint.isWoken, MonitorAct.isLate] using hle
  | @takes t _ _ ha =>
    refine hu.goOn rfl fun hle => ?_
    have htake := g.avail_take _ ha
    have hwoken := Bool.toNat_le (u.task t).isWoken
    omega
  | sleeps _ ha =>
    intro x _
    rw [Threads.goOn_shared, ha]
    exact Nat.zero_le _
  | give hnobody =>
    intro x hx
    have hgive := g.avail_give u.shared
    have hle := hu x hx
    have hquiet : g.notifies u.shared = false := by
      by_contra hnotifies
      exact Bool.false_ne_true ((hnobody (by simpa using hnotifies) x).symm.trans hx)
    rw [hquiet, Bool.toNat_false, Nat.add_zero] at hgive
    exact hgive.trans hle
  | notify _ hasleep =>
    refine hu.goOn rfl fun hle => ?_
    have hgive := g.avail_give u.shared
    have hnotified := Bool.toNat_le (g.notifies u.shared)
    simp only [hasleep, WaitPoint.isWoken, MonitorAct.isLate, Bool.toNat_false, Bool.toNat_true]
    omega
  | spurious hasleep =>
    refine hu.goOn rfl fun hle => ?_
    simp only [hasleep, WaitPoint.isWoken, MonitorAct.isLate, Bool.toNat_false, Bool.toNat_true]
    omega
  | expire hasleep =>
    refine hu.goOn rfl fun hle => ?_
    simpa [hasleep, WaitPoint.isWoken, MonitorAct.isLate] using hle
  | expireNotified hwoken =>
    refine hu.goOn rfl fun hle => ?_
    simp only [hwoken, WaitPoint.isWoken, MonitorAct.isLate, Bool.toNat_false, Bool.toNat_true]
    omega

/-- **No notification is lost**, but for those of threads that are told of their deadline. -/
theorem Trace.attended (h : g.Trace s as es u) (hs : g.Attended s 0) :
    g.Attended u (as.countP MonitorAct.isLate) := by
  induction h with
  | nil => exact hs
  | @snoc _ _ _ _ a _ _ hstep ih =>
    have hcount : [a].countP MonitorAct.isLate = a.isLate.toNat := by
      cases ha : a.isLate <;> simp [ha]
    rw [List.countP_append, hcount]
    exact hstep.attended ih

omit [DecidableEq τ] in
theorem exists_isWoken (h : 0 < awake s) : ∃ t, (s.task t).isWoken = true := by
  by_contra hnone
  have hzero : awake s = 0 := Threads.tally_eq_zero fun t => by
    simpa using fun ht => hnone ⟨t, ht⟩
  omega

/-- **Progress**: where somebody sleeps although there is something to take, another thread has been
woken up and takes it when it has its turn. -/
theorem Trace.exists_takes (h : g.Trace s as es u) (hs : g.Attended s 0)
    (hlate : ∀ a ∈ as, a.isLate = false) (hsleep : (u.task w).isAsleep = true)
    (ha : 0 < g.avail u.shared) :
    ∃ t v, (u.task t).isWoken = true ∧ g.Step u (.turn t) (some (.took t)) v := by
  have hle := h.attended hs w hsleep
  have hnone : as.countP MonitorAct.isLate = 0 :=
    List.countP_eq_zero.2 fun a ha => by simp [hlate a ha]
  rw [hnone] at hle
  obtain ⟨t, ht⟩ := exists_isWoken (ha.trans_le hle)
  have hpoint : ∃ timed, u.task t = .woken timed := by
    cases htask : u.task t with
    | woken timed => exact ⟨timed, rfl⟩
    | idle | enter _ | asleep _ => simp [htask, WaitPoint.isWoken] at ht
  obtain ⟨timed, htask⟩ := hpoint
  exact ⟨t, _, ht, .takes (.inr htask) ha⟩

end Awake

/-! ## A thread that waits alone -/

/-- Nobody waits but `w`, and it sleeps only while there is nothing to take. -/
structure Alone (g : Guarded σ) (w : τ) (s : Monitor σ τ) : Prop where
  idle : ∀ t, t ≠ w → s.task t = .idle
  avail : (s.task w).isAsleep = true → g.avail s.shared = 0

theorem Alone.goOn (h : g.Alone w s) {t : τ} {σ' : σ} {p : WaitPoint}
    (ht : s.task t ≠ .idle ∨ t = w) (hp : p.isAsleep = true → g.avail σ' = 0) :
    g.Alone w (s.goOn t σ' p) := by
  have htw : t = w := ht.elim (fun hne => by_contra fun htw => hne (h.idle t htw)) id
  subst htw
  constructor
  · intro x hx
    rw [Threads.goOn_task_of_ne _ _ _ _ hx]
    exact h.idle x hx
  · rwa [Threads.goOn_task_self]

theorem Step.alone (h : g.Step u a e v) (hu : g.Alone w u)
    (hcall : ∀ t timed, a = .call t timed → t = w) : g.Alone w v := by
  cases h with
  | call timed hidle => exact hu.goOn (.inr (hcall _ _ rfl)) (by simp [WaitPoint.isAsleep])
  | takes hpoint ha =>
    refine hu.goOn (.inl ?_) (by simp [WaitPoint.isAsleep])
    rcases hpoint with hpoint | hpoint <;> simp [hpoint]
  | sleeps hpoint ha =>
    refine hu.goOn (.inl ?_) fun _ => ha
    rcases hpoint with hpoint | hpoint <;> simp [hpoint]
  | give hnobody =>
    refine ⟨hu.idle, fun hsleep => ?_⟩
    have hquiet : g.notifies u.shared = false := by
      by_contra hnotifies
      exact Bool.false_ne_true ((hnobody (by simpa using hnotifies) w).symm.trans hsleep)
    have hgive := g.avail_give u.shared
    rw [hu.avail hsleep, hquiet] at hgive
    exact Nat.le_zero.1 hgive
  | notify _ hasleep =>
    exact hu.goOn (.inl (by simp [hasleep])) (by simp [WaitPoint.isAsleep])
  | spurious hasleep =>
    exact hu.goOn (.inl (by simp [hasleep])) (by simp [WaitPoint.isAsleep])
  | expire hasleep =>
    exact hu.goOn (.inl (by simp [hasleep])) (by simp [WaitPoint.isAsleep])
  | expireNotified hwoken =>
    exact hu.goOn (.inl (by simp [hwoken])) (by simp [WaitPoint.isAsleep])

/-- **A thread that waits alone** sleeps only while there is nothing to take, also if it is told of
its deadline when it has been notified. -/
theorem Trace.alone (h : g.Trace s as es u) (hs : g.Alone w s)
    (hcall : ∀ t timed, .call t timed ∈ as → t = w) : g.Alone w u := by
  induction h with
  | nil => exact hs
  | snoc _ hstep ih =>
    refine hstep.alone (ih fun t timed ht => hcall t timed (List.mem_append_left _ ht)) ?_
    intro t timed ha
    exact hcall t timed (List.mem_append_right _ (by simp [ha]))

end Guarded

end Vml
