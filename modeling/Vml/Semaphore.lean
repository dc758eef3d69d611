import Vml.Lib.Monitor
import Vml.Platform

/-!
# Semaphore and signal with a mutex and a condition variable

`Platform::Semaphore` and `Platform::Signal`: `acquire` and `wait` look at the count, or at the
flag, under the mutex, and go to sleep on the condition variable while it is 0; `release` and `sig`
notify one that sleeps. What else is in this development takes the two for atomic: a count that is
raised, and lowered when it is not 0.

**Deadlines.** `try_acquire_until` and `wait(abs_ticks)` give up as soon as `wait_until` says that
the deadline has passed. It compares the time when the thread runs again, and so says it of a thread
that has been notified as well. That notification reaches nobody else.

Main results: `Semaphore.conserved`, `Semaphore.no_release_lost`, `Signal.waits_alone`.
-/

namespace Vml

open Guarded

variable {τ : Type*}

/-! ## The semaphore -/

/-- `Platform::Semaphore`. -/
structure Semaphore where
  count : UInt64 := 0
  deriving DecidableEq, Repr

namespace Semaphore

/-- `init`. -/
def init (count : UInt64) : Semaphore := { count }

/-- `release`. The count may wrap. -/
def release (s : Semaphore) : Semaphore := { count := s.count + 1 }

/-- `acquire`, which has no result while it blocks. -/
def acquire (s : Semaphore) : Option Semaphore :=
  if s.count = 0 then none else some { count := s.count - 1 }

/-- What a call that has returned did. `try_acquire_until` leaves the count as it is when it gives
up. -/
def apply (s : Semaphore) : MonitorEvent τ → Option Semaphore
  | .gave => some s.release
  | .took _ => s.acquire
  | .timedOut _ => some s

theorem toNat_pred {n : UInt64} (h : n ≠ 0) : (n - 1).toNat + 1 = n.toNat := by
  have hnat : n.toNat ≠ 0 := fun hzero => h (UInt64.toNat_inj.1 hzero)
  have hle : (1 : UInt64) ≤ n := UInt64.le_iff_toNat_le.2 (Nat.one_le_iff_ne_zero.2 hnat)
  rw [UInt64.toNat_sub_of_le _ _ hle]
  exact Nat.sub_add_cancel (Nat.one_le_iff_ne_zero.2 hnat)

theorem count_ne_zero {s : Semaphore} : 0 < s.count.toNat ↔ s.count ≠ 0 := by
  rw [Nat.pos_iff_ne_zero, ne_eq, ne_eq, ← UInt64.toNat_inj]
  rfl

/-- The semaphore as what its mutex guards. `release` always notifies. -/
def guarded : Guarded Semaphore where
  avail s := s.count.toNat
  take s := { count := s.count - 1 }
  give := release
  notifies _ := true
  avail_take s h := by
    have hpred := toNat_pred (count_ne_zero.1 h)
    change (s.count - 1).toNat < s.count.toNat
    omega
  avail_give s := by
    simp only [release, UInt64.toNat_add]
    exact Nat.mod_le ..

theorem next_guarded : (guarded.next : Semaphore → MonitorEvent τ → _) = apply := by
  funext s e
  cases e with
  | gave | timedOut _ => rfl
  | took t =>
    unfold apply acquire
    by_cases hzero : s.count = 0
    · rw [if_pos hzero]
      exact if_neg fun hpos => count_ne_zero.1 hpos hzero
    · rw [if_neg hzero]
      exact if_pos (count_ne_zero.2 hzero)

variable {s s' : Semaphore}

theorem acquire_count (h : s.acquire = some s') : s'.count.toNat + 1 = s.count.toNat := by
  unfold acquire at h
  split_ifs at h with hzero
  cases h
  exact toNat_pred hzero

theorem release_count (s : Semaphore) :
    ∃ wraps, s.release.count.toNat + wraps * 2 ^ 64 = s.count.toNat + 1 := by
  refine ⟨(s.count.toNat + 1) / 2 ^ 64, ?_⟩
  simp only [release, UInt64.toNat_add]
  exact Nat.mod_add_div' ..

/-- What is left and what was acquired is what there was and what was released, but for what has
been lost by wrapping. -/
theorem count_foldlM {es : List (MonitorEvent τ)} (h : es.foldlM apply s = some s') :
    ∃ wraps, s'.count.toNat + es.countP MonitorEvent.isTook + wraps * 2 ^ 64 =
      s.count.toNat + es.countP MonitorEvent.isGave := by
  induction es generalizing s with
  | nil =>
    cases h
    exact ⟨0, rfl⟩
  | cons e es ih =>
    rw [List.foldlM_cons] at h
    obtain ⟨s₁, hstep, hrest⟩ := Option.bind_eq_some_iff.1 h
    obtain ⟨wraps, hwraps⟩ := ih hrest
    rw [List.countP_cons, List.countP_cons]
    cases e with
    | gave =>
      cases hstep
      obtain ⟨more, hmore⟩ := s.release_count
      refine ⟨wraps + more, ?_⟩
      rw [Nat.add_mul]
      simp only [MonitorEvent.isGave, MonitorEvent.isTook, Bool.false_eq_true, if_true, if_false]
      linarith
    | took t =>
      have hacquire := acquire_count hstep
      refine ⟨wraps, ?_⟩
      simp only [MonitorEvent.isGave, MonitorEvent.isTook, Bool.false_eq_true, if_true, if_false]
      omega
    | timedOut t =>
      cases hstep
      exact ⟨wraps, hwraps⟩

variable [DecidableEq τ] {m u : Monitor Semaphore τ} {as : List (MonitorAct τ)}
  {es : List (MonitorEvent τ)}

theorem refines (h : guarded.Trace m as es u) : es.foldlM apply m.shared = some u.shared := by
  have hrun := h.refines
  rwa [next_guarded] at hrun

/-- **Nobody acquires what was not released**, and while the count does not wrap nothing that was
released is lost. -/
theorem conserved (h : guarded.Trace m as es u) :
    u.shared.count.toNat + es.countP MonitorEvent.isTook ≤
      m.shared.count.toNat + es.countP MonitorEvent.isGave ∧
    (m.shared.count.toNat + es.countP MonitorEvent.isGave < 2 ^ 64 →
      u.shared.count.toNat + es.countP MonitorEvent.isTook =
        m.shared.count.toNat + es.countP MonitorEvent.isGave) := by
  obtain ⟨wraps, hwraps⟩ := count_foldlM (refines h)
  constructor
  · omega
  · intro hlt
    omega

theorem exists_notified : ∃ u : Monitor Semaphore Bool,
    guarded.Trace { shared := {}, task := fun _ => .idle }
      [.call true true, .turn true, .call false false, .turn false, .give (some false)] [.gave] u ∧
    (u.task true).isAsleep = true ∧ u.shared = { count := 1 } := by
  have hidle : guarded.Trace { shared := {}, task := fun _ : Bool => .idle } [] [] _ := .nil
  have hfirst := (hidle.snoc (.call (t := true) true rfl)).snoc
    (.sleeps (t := true) (.inl rfl) rfl)
  have hsecond := (hfirst.snoc (.call (t := false) false rfl)).snoc
    (.sleeps (t := false) (.inl rfl) rfl)
  exact ⟨_, hsecond.snoc (.notify (t := false) ⟨rfl, rfl⟩ rfl), rfl, rfl⟩

/-- One acquires what has been released, and the other is notified twice. -/
theorem conserved_acquired : ∃ u : Monitor Semaphore Bool,
    guarded.Trace { shared := {}, task := fun _ => .idle }
      [.call true true, .turn true, .call false false, .turn false, .give (some false),
        .turn false, .give (some true), .give none] [.gave, .took false, .gave, .gave] u ∧
    u.shared.count.toNat + 1 ≤ 0 + 3 ∧ (0 + 3 < 2 ^ 64 → u.shared.count.toNat + 1 = 0 + 3) := by
  have hidle : guarded.Trace { shared := {}, task := fun _ : Bool => .idle } [] [] _ := .nil
  have hfirst := (hidle.snoc (.call (t := true) true rfl)).snoc
    (.sleeps (t := true) (.inl rfl) rfl)
  have hsecond := (hfirst.snoc (.call (t := false) false rfl)).snoc
    (.sleeps (t := false) (.inl rfl) rfl)
  have htaken := (hsecond.snoc (.notify (t := false) ⟨rfl, rfl⟩ rfl)).snoc
    (.takes (t := false) (.inr rfl) (by decide))
  have hnotified := htaken.snoc (.notify (t := true) ⟨rfl, rfl⟩ rfl)
  have h := hnotified.snoc (.give fun _ t => by cases t <;> rfl)
  exact ⟨_, h, conserved h⟩

/-- **No release is lost**: where all have begun outside, the count is not more than there are
threads that have been woken up and are still to check, and those that gave up after they had been
notified, as long as somebody sleeps. Where nobody gave up so, one of those that are awake acquires
when it has its turn. -/
theorem no_release_lost [Fintype τ] (h : guarded.Trace m as es u) (hm : ∀ t, m.task t = .idle)
    {w : τ} (hsleep : (u.task w).isAsleep = true) :
    u.shared.count.toNat ≤ awake u + as.countP MonitorAct.isLate ∧
    ((∀ a ∈ as, a.isLate = false) → u.shared.count ≠ 0 →
      ∃ t v, (u.task t).isWoken = true ∧ guarded.Step u (.turn t) (some (.took t)) v) := by
  have hidle : guarded.Attended m 0 := by
    intro t ht
    simp [hm t, WaitPoint.isAsleep] at ht
  constructor
  · exact h.attended hidle w hsleep
  · intro hlate hcount
    exact h.exists_takes hidle hlate hsleep (count_ne_zero.2 hcount)

theorem no_release_lost_notified : ∃ u : Monitor Semaphore Bool,
    u.shared.count.toNat ≤ awake u + 0 ∧
    ((∀ a ∈ ([.call true true, .turn true, .call false false, .turn false, .give (some false)] :
      List (MonitorAct Bool)), a.isLate = false) → u.shared.count ≠ 0 →
      ∃ t v, (u.task t).isWoken = true ∧ guarded.Step u (.turn t) (some (.took t)) v) := by
  obtain ⟨u, h, hsleep, -⟩ := exists_notified
  exact ⟨u, no_release_lost h (fun _ => rfl) hsleep⟩

end Semaphore

/-! ## The signal -/

namespace Signal

/-- What a call that has returned did. `wait(abs_ticks)` leaves the flag as it is when it gives
up. -/
def apply (s : Signal) : MonitorEvent τ → Option Signal
  | .gave => some s.sig
  | .took _ => s.wait
  | .timedOut _ => some s

/-- The signal as what its mutex guards. `sig` returns at once if the flag is set. -/
def guarded : Guarded Signal where
  avail s := s.signaled.toNat
  take _ := { signaled := false }
  give s := if s.signaled then s else { signaled := true }
  notifies s := !s.signaled
  avail_take s h := h
  avail_give s := by cases hs : s.signaled <;> simp [hs]

theorem next_guarded : (guarded.next : Signal → MonitorEvent τ → _) = apply := by
  funext s e
  obtain ⟨_ | _⟩ := s <;> cases e <;> rfl

variable [DecidableEq τ] {m u : Monitor Signal τ} {as : List (MonitorAct τ)}
  {es : List (MonitorEvent τ)} {w : τ}

/-- **One thread waits**: the flag is what `sig` and `wait` make of it, one after another, and the
thread does not sleep while it is set, whatever deadlines it is told of. -/
theorem waits_alone (h : guarded.Trace m as es u) (hm : ∀ t, m.task t = .idle)
    (hcall : ∀ t timed, .call t timed ∈ as → t = w) :
    es.foldlM apply m.shared = some u.shared ∧
    ((u.task w).isAsleep = true → u.shared.signaled = false) := by
  constructor
  · have hrun := h.refines
    rwa [next_guarded] at hrun
  · intro hsleep
    have halone : guarded.Alone w m := by
      refine ⟨fun t _ => hm t, fun hw => ?_⟩
      simp [hm w, WaitPoint.isAsleep] at hw
    have hzero := (h.alone halone hcall).avail hsleep
    exact Bool.toNat_eq_zero.1 hzero

/-- The thread is told of its deadline after it has been notified, waits again, and once more. -/
theorem waits_alone_late : ∃ u : Monitor Signal Unit,
    [.gave, .timedOut (), .took ()].foldlM apply {} = some u.shared ∧
    ((u.task ()).isAsleep = true → u.shared.signaled = false) := by
  have hidle : guarded.Trace { shared := {}, task := fun _ : Unit => .idle } [] [] _ := .nil
  have hsleep := (hidle.snoc (.call (t := ()) true rfl)).snoc (.sleeps (t := ()) (.inl rfl) rfl)
  have hlate := (hsleep.snoc (.notify (t := ()) ⟨rfl, rfl⟩ rfl)).snoc
    (.expireNotified (t := ()) rfl)
  have htakes := (hlate.snoc (.call (t := ()) false rfl)).snoc
    (.takes (t := ()) (.inl rfl) Nat.one_pos)
  have hagain := (htakes.snoc (.call (t := ()) false rfl)).snoc
    (.sleeps (t := ()) (.inl rfl) rfl)
  exact ⟨_, waits_alone hagain (fun _ => rfl) fun _ _ _ => rfl⟩

end Signal

end Vml
