import Vml.Lib.Owner
import Vml.Lib.Run

/-!
# The read-write lock

`Platform::RWLock`: a turnstile `_rq` that a writer holds from `wenter` to `wexit` and a reader only
while it enters, a word `_rw` that counts the readers in its upper bits and has the bit 0 set for a
writer, and the flag `_rwlock_signal`, which the last reader to leave raises for a waiting writer
under the mutex `_m`, and the writer takes back outside it.

**Turns.** Each operation on a mutex, on `_rw`, on the flag or on the condition variable is a turn
of its own. The condition variable is the set of threads asleep on it that nobody has notified
(`asleep`); a thread may also wake for no reason.

**Counting.** `_rw` is a natural number here: it is never more than twice the number of threads
plus one (`rwlock_safe`), which is below `2 ^ 64` for threads that are in memory.

**Why it works.** From the turnstile on, no reader comes in. So after a writer has set its bit the
readers can only go, and one of them, the last, finds the word to be 1. The flag and the thread that
is to raise it together are 1 while a writer waits that no reader is in the way of, and 0 otherwise
(`Balanced.signal`).

Main result: `RwSys.rwlock_safe`: in every run of any number of threads a writer that has returned
from `wenter` is alone, a signal is taken by the writer it was raised for, and no writer is left
waiting.
-/

namespace Vml

variable {τ : Type*}

/-! ## The lock and its threads -/

/-- What the threads share. `signalledFor` is history: the writer for which the flag was raised
last. -/
structure RWLock (τ : Type*) where
  rq : Option τ
  m : Option τ
  rw : ℕ
  rwlockSignal : Bool
  asleep : τ → Bool
  signalledFor : Option τ

/-- Where a thread is: what its next turn does. -/
inductive RwPoint (τ : Type*)
  | idle
  /-- `renter`: `_rq.enter()`. -/
  | renterEnter
  /-- `renter`: `_rw += 2`. -/
  | renterAdd
  /-- `renter`: `_rq.exit()`. -/
  | renterExit
  /-- `renter` has returned. -/
  | reading
  /-- `rexit`: `_rw -= 2`, and compare with 1. -/
  | rexitSub
  /-- `rexit`: lock `_m`. The writer that waits is remembered as history. -/
  | rexitLock (writer : Option τ)
  /-- `rexit`: `_rwlock_signal = true`. -/
  | rexitSignal (writer : Option τ)
  /-- `rexit`: `_wq.notify_all()`. -/
  | rexitNotify
  /-- `rexit`: unlock `_m`. -/
  | rexitUnlock
  /-- `wenter`: `_rq.enter()`. -/
  | wenterEnter
  /-- `wenter`: `_rw |= 1`, and compare the number of readers with 0. -/
  | wenterOr
  /-- `wenter`: lock `_m`, at first or again in `_wq.wait`. -/
  | wenterLock
  /-- `wenter`: `_wq.wait` loads the flag. -/
  | wenterCheck
  /-- `wenter`: `_wq.wait` unlocks `_m` and goes to sleep. -/
  | wenterWait
  /-- `wenter`: asleep in `_wq.wait`. -/
  | wenterAsleep
  /-- `wenter`: unlock `_m`. -/
  | wenterUnlock
  /-- `wenter`: `_rwlock_signal = false`. -/
  | wenterClear
  /-- `wenter` has returned. -/
  | writing
  /-- `wexit`: `_rw = 0`. -/
  | wexitStore
  /-- `wexit`: `_rq.exit()`. -/
  | wexitExit
  deriving DecidableEq

/-- A lock and the threads that use it. -/
abbrev RwSys (τ : Type*) := Threads (RWLock τ) τ (RwPoint τ)

/-- What happens next: a thread calls a function of the lock, or takes its turn in one, or wakes up
for no reason. -/
inductive RwAct (τ : Type*)
  | renter (t : τ)
  | rexit (t : τ)
  | wenter (t : τ)
  | wexit (t : τ)
  | turn (t : τ)
  | wake (t : τ)

namespace RWLock

/-- A turn of the thread `t` at a point: what it does to the lock and where it goes, with `none` if
it has to wait. -/
def next [DecidableEq τ] (l : RWLock τ) (t : τ) : RwPoint τ → Option (RWLock τ × RwPoint τ)
  | .idle | .reading | .writing => none
  | .renterEnter => if l.rq = none then some ({ l with rq := some t }, .renterAdd) else none
  | .renterAdd => some ({ l with rw := l.rw + 2 }, .renterExit)
  | .renterExit => some ({ l with rq := none }, .reading)
  | .rexitSub =>
      some ({ l with rw := l.rw - 2 }, if l.rw - 2 = 1 then .rexitLock l.rq else .idle)
  | .rexitLock writer =>
      if l.m = none then some ({ l with m := some t }, .rexitSignal writer) else none
  | .rexitSignal writer =>
      some ({ l with rwlockSignal := true, signalledFor := writer }, .rexitNotify)
  | .rexitNotify => some ({ l with asleep := fun _ => false }, .rexitUnlock)
  | .rexitUnlock => some ({ l with m := none }, .idle)
  | .wenterEnter => if l.rq = none then some ({ l with rq := some t }, .wenterOr) else none
  | .wenterOr =>
      some ({ l with rw := l.rw ||| 1 },
        if (l.rw ||| 1) >>> 1 ≠ 0 then .wenterLock else .writing)
  | .wenterLock => if l.m = none then some ({ l with m := some t }, .wenterCheck) else none
  | .wenterCheck => some (l, if l.rwlockSignal then .wenterUnlock else .wenterWait)
  | .wenterWait =>
      some ({ l with m := none, asleep := Function.update l.asleep t true }, .wenterAsleep)
  | .wenterAsleep => if l.asleep t then none else some (l, .wenterLock)
  | .wenterUnlock => some ({ l with m := none }, .wenterClear)
  | .wenterClear => some ({ l with rwlockSignal := false }, .writing)
  | .wexitStore => some ({ l with rw := 0 }, .wexitExit)
  | .wexitExit => some ({ l with rq := none }, .idle)

end RWLock

namespace RwSys

/-- The lock as it is constructed, and nobody uses it. -/
def init : RwSys τ :=
  { shared :=
      { rq := none, m := none, rw := 0, rwlockSignal := false, asleep := fun _ => false,
        signalledFor := none }
    task := fun _ => .idle }

variable [DecidableEq τ]

/-- The step function. -/
def next (s : RwSys τ) : RwAct τ → Option (RwSys τ)
  | .renter t => if s.task t = .idle then some (s.goOn t s.shared .renterEnter) else none
  | .rexit t => if s.task t = .reading then some (s.goOn t s.shared .rexitSub) else none
  | .wenter t => if s.task t = .idle then some (s.goOn t s.shared .wenterEnter) else none
  | .wexit t => if s.task t = .writing then some (s.goOn t s.shared .wexitStore) else none
  | .turn t => (s.shared.next t (s.task t)).map fun r => s.goOn t r.1 r.2
  | .wake t =>
      if s.shared.asleep t then
        some (s.goOn t { s.shared with asleep := Function.update s.shared.asleep t false }
          (s.task t))
      else none

end RwSys

/-! ## What the points say -/

namespace RwPoint

/-- The thread holds the turnstile. -/
def holdsRq : RwPoint τ → Bool
  | renterAdd | renterExit | wenterOr | wenterLock | wenterCheck | wenterWait | wenterAsleep
  | wenterUnlock | wenterClear | writing | wexitStore | wexitExit => true
  | _ => false

/-- The thread holds the mutex of the condition variable. -/
def holdsM : RwPoint τ → Bool
  | rexitSignal _ | rexitNotify | rexitUnlock | wenterCheck | wenterWait | wenterUnlock => true
  | _ => false

/-- The thread counts as a reader in `_rw`. -/
def reads : RwPoint τ → ℕ
  | renterExit | reading | rexitSub => 1
  | _ => 0

/-- The thread is to raise the flag. -/
def raises : RwPoint τ → ℕ
  | rexitLock _ | rexitSignal _ => 1
  | _ => 0

/-- The thread has set the writer's bit, and waits for the flag or has yet to take it back. -/
def waits : RwPoint τ → ℕ
  | wenterLock | wenterCheck | wenterWait | wenterAsleep | wenterUnlock | wenterClear => 1
  | _ => 0

/-- The thread is the writer. -/
def writes : RwPoint τ → ℕ
  | writing | wexitStore => 1
  | _ => 0

theorem waits_of_not_holdsRq {p : RwPoint τ} (h : p.holdsRq = false) : p.waits = 0 := by
  cases p <;> first | rfl | cases h

theorem writes_of_not_holdsRq {p : RwPoint τ} (h : p.holdsRq = false) : p.writes = 0 := by
  cases p <;> first | rfl | cases h

theorem waits_add_writes_le (p : RwPoint τ) : p.waits + p.writes ≤ 1 := by
  cases p <;> simp [waits, writes]

theorem reads_le (p : RwPoint τ) : p.reads ≤ 1 := by
  cases p <;> simp [reads]

theorem raises_le (p : RwPoint τ) : p.raises ≤ 1 := by
  cases p <;> simp [raises]

/-- A reader holds the lock: it has returned from `renter`, and not yet left. -/
def holdsShared : RwPoint τ → Bool
  | reading | rexitSub => true
  | _ => false

/-- A writer holds the lock: it has returned from `wenter`, and not yet left. -/
def holdsExclusive : RwPoint τ → Bool
  | writing | wexitStore => true
  | _ => false

theorem reads_of_holdsShared {p : RwPoint τ} (h : p.holdsShared = true) : p.reads = 1 := by
  cases p <;> first | rfl | cases h

theorem holdsShared_of_reads {p : RwPoint τ} (h : 0 < p.reads) :
    p.holdsShared = true ∨ p = renterExit := by
  cases p <;> first | exact .inl rfl | exact .inr rfl | cases h

theorem writes_of_holdsExclusive {p : RwPoint τ} (h : p.holdsExclusive = true) :
    p.writes = 1 := by
  cases p <;> first | rfl | cases h

end RwPoint

namespace RWLock

variable [DecidableEq τ] {l l' : RWLock τ} {t : τ} {p p' : RwPoint τ}

/-- **What a turn does to the turnstile.** -/
theorem rq_of_next (h : l.next t p = some (l', p')) :
    (l'.rq = l.rq ∧ p'.holdsRq = p.holdsRq) ∨
    (l.rq = none ∧ l'.rq = some t ∧ p'.holdsRq = true) ∨
    (p.holdsRq = true ∧ p.waits = 0 ∧ l'.rq = none ∧ p'.holdsRq = false) := by
  cases p with
  | idle | reading | writing => cases h
  | renterEnter | wenterEnter =>
      obtain ⟨hfree, heq⟩ := Option.ite_none_right_eq_some.1 h
      cases heq
      exact .inr (.inl ⟨hfree, rfl, rfl⟩)
  | rexitLock | wenterLock =>
      obtain ⟨-, heq⟩ := Option.ite_none_right_eq_some.1 h
      cases heq
      exact .inl ⟨rfl, rfl⟩
  | wenterAsleep =>
      obtain ⟨-, heq⟩ := Option.ite_none_left_eq_some.1 h
      cases heq
      exact .inl ⟨rfl, rfl⟩
  | renterExit | wexitExit =>
      cases h
      exact .inr (.inr ⟨rfl, rfl, rfl, rfl⟩)
  | rexitSub | wenterOr | wenterCheck =>
      cases h
      refine .inl ⟨rfl, ?_⟩
      split <;> rfl
  | _ =>
      cases h
      exact .inl ⟨rfl, rfl⟩

/-- **What a turn does to the mutex.** -/
theorem m_of_next (h : l.next t p = some (l', p')) :
    (l'.m = l.m ∧ p'.holdsM = p.holdsM) ∨
    (l.m = none ∧ l'.m = some t ∧ p'.holdsM = true) ∨
    (p.holdsM = true ∧ l'.m = none ∧ p'.holdsM = false) := by
  cases p with
  | idle | reading | writing => cases h
  | rexitLock | wenterLock =>
      obtain ⟨hfree, heq⟩ := Option.ite_none_right_eq_some.1 h
      cases heq
      exact .inr (.inl ⟨hfree, rfl, rfl⟩)
  | renterEnter | wenterEnter =>
      obtain ⟨-, heq⟩ := Option.ite_none_right_eq_some.1 h
      cases heq
      exact .inl ⟨rfl, rfl⟩
  | wenterAsleep =>
      obtain ⟨-, heq⟩ := Option.ite_none_left_eq_some.1 h
      cases heq
      exact .inl ⟨rfl, rfl⟩
  | rexitUnlock | wenterWait | wenterUnlock =>
      cases h
      exact .inr (.inr ⟨rfl, rfl, rfl⟩)
  | rexitSub | wenterOr | wenterCheck =>
      cases h
      refine .inl ⟨rfl, ?_⟩
      split <;> rfl
  | _ =>
      cases h
      exact .inl ⟨rfl, rfl⟩

/-- **What a turn does to the flag.** -/
theorem signal_of_next (h : l.next t p = some (l', p')) :
    (l'.rwlockSignal = l.rwlockSignal ∧ l'.signalledFor = l.signalledFor) ∨
    (∃ writer, p = .rexitSignal writer ∧ p' = .rexitNotify ∧ l'.rwlockSignal = true ∧
      l'.signalledFor = writer) ∨
    (p = .wenterClear ∧ l'.rwlockSignal = false) := by
  cases p with
  | idle | reading | writing => cases h
  | renterEnter | wenterEnter | rexitLock | wenterLock =>
      obtain ⟨-, heq⟩ := Option.ite_none_right_eq_some.1 h
      cases heq
      exact .inl ⟨rfl, rfl⟩
  | wenterAsleep =>
      obtain ⟨-, heq⟩ := Option.ite_none_left_eq_some.1 h
      cases heq
      exact .inl ⟨rfl, rfl⟩
  | rexitSignal writer =>
      cases h
      exact .inr (.inl ⟨writer, rfl, rfl, rfl, rfl⟩)
  | wenterClear =>
      cases h
      exact .inr (.inr ⟨rfl, rfl⟩)
  | _ =>
      cases h
      exact .inl ⟨rfl, rfl⟩

/-- **What a turn does to the threads asleep.** -/
theorem asleep_of_next (h : l.next t p = some (l', p')) :
    p ≠ .rexitNotify ∧ l'.asleep = l.asleep ∨ p = .wenterWait ∧ l'.rwlockSignal = l.rwlockSignal ∨
      p = .rexitNotify ∧ l'.asleep = fun _ => false := by
  cases p with
  | idle | reading | writing => cases h
  | renterEnter | wenterEnter | rexitLock | wenterLock =>
      obtain ⟨-, heq⟩ := Option.ite_none_right_eq_some.1 h
      cases heq
      exact .inl ⟨nofun, rfl⟩
  | wenterAsleep =>
      obtain ⟨-, heq⟩ := Option.ite_none_left_eq_some.1 h
      cases heq
      exact .inl ⟨nofun, rfl⟩
  | wenterWait =>
      cases h
      exact .inr (.inl ⟨rfl, rfl⟩)
  | rexitNotify =>
      cases h
      exact .inr (.inr ⟨rfl, rfl⟩)
  | _ =>
      cases h
      exact .inl ⟨nofun, rfl⟩

end RWLock

/-! ## The invariant -/

namespace RwSys

/-- What a thread relies on at its point. -/
def Relies (l : RWLock τ) (_ : τ) : RwPoint τ → Prop
  | .rexitLock writer | .rexitSignal writer => writer = l.rq
  | .wenterWait => l.rwlockSignal = false
  | .wenterUnlock | .wenterClear => l.rwlockSignal = true
  | _ => True

/-- How the word and the flag go with the numbers of threads. -/
structure Balanced (l : RWLock τ) (reads raises waits writes : ℕ) : Prop where
  rw : l.rw = 2 * reads + waits + writes
  signal : raises + l.rwlockSignal.toNat = if reads = 0 then waits else 0
  alone : writes = 0 ∨ reads = 0

/-- What holds after each turn. -/
structure Sound [Fintype τ] (s : RwSys τ) : Prop where
  rq : s.Owned RWLock.rq RwPoint.holdsRq
  m : s.Owned RWLock.m RwPoint.holdsM
  balanced : Balanced s.shared (s.total RwPoint.reads) (s.total RwPoint.raises)
    (s.total RwPoint.waits) (s.total RwPoint.writes)
  relies : s.Each Relies
  signalledFor : s.shared.rwlockSignal = true → s.shared.signalledFor = s.shared.rq
  notified : s.Settled (fun t l => l.rwlockSignal = false ∨ l.asleep t = false)
    fun _ _ p => p = .rexitNotify

theorem relies_of_next [DecidableEq τ] {l l' : RWLock τ} {t : τ} {p p' : RwPoint τ}
    (hrely : Relies l t p) (hnext : l.next t p = some (l', p')) : Relies l' t p' := by
  cases p with
  | idle | reading | writing => cases hnext
  | rexitLock =>
      obtain ⟨-, heq⟩ := Option.ite_none_right_eq_some.1 hnext
      cases heq
      exact hrely
  | wenterUnlock =>
      cases hnext
      exact hrely
  | rexitSub =>
      cases hnext
      split <;> trivial
  | wenterOr =>
      cases hnext
      split <;> trivial
  | wenterCheck =>
      cases hnext
      split
      next hup => exact hup
      next hdown => exact Bool.eq_false_iff.2 hdown
  | renterEnter | wenterEnter | wenterLock =>
      obtain ⟨-, heq⟩ := Option.ite_none_right_eq_some.1 hnext
      cases heq
      trivial
  | wenterAsleep =>
      obtain ⟨-, heq⟩ := Option.ite_none_left_eq_some.1 hnext
      cases heq
      trivial
  | _ =>
      cases hnext
      trivial

/-- A turn that leaves the word and the flag alone, and does not count. -/
theorem Balanced.keep {l l' : RWLock τ} {q p : RwPoint τ}
    {reads raises waits writes reads' raises' waits' writes' : ℕ}
    (h : Balanced l reads raises waits writes) (hrw : l'.rw = l.rw)
    (hsignal : l'.rwlockSignal = l.rwlockSignal) (hp : p.reads = q.reads ∧ p.raises = q.raises ∧
      p.waits = q.waits ∧ p.writes = q.writes)
    (hreads : reads' + q.reads = reads + p.reads) (hraises : raises' + q.raises = raises + p.raises)
    (hwaits : waits' + q.waits = waits + p.waits)
    (hwrites : writes' + q.writes = writes + p.writes) :
    Balanced l' reads' raises' waits' writes' := by
  obtain ⟨hpr, hpk, hpw, hpx⟩ := hp
  obtain rfl : reads' = reads := by omega
  obtain rfl : raises' = raises := by omega
  obtain rfl : waits' = waits := by omega
  obtain rfl : writes' = writes := by omega
  exact ⟨hrw.trans h.rw, hsignal ▸ h.signal, h.alone⟩

/-- **The word and the flag after a turn.** The holder of the turnstile is the only thread that
can wait or write. -/
theorem Balanced.next [DecidableEq τ] {l l' : RWLock τ} {t : τ} {q p : RwPoint τ}
    {reads raises waits writes reads' raises' waits' writes' : ℕ}
    (h : Balanced l reads raises waits writes) (hle : waits + writes ≤ 1)
    (hrq : q.holdsRq = true → waits = q.waits ∧ writes = q.writes) (hrely : Relies l t q)
    (hnext : l.next t q = some (l', p)) (hreads : reads' + q.reads = reads + p.reads)
    (hraises : raises' + q.raises = raises + p.raises)
    (hwaits : waits' + q.waits = waits + p.waits)
    (hwrites : writes' + q.writes = writes + p.writes) :
    Balanced l' reads' raises' waits' writes' := by
  have hkeep := @h.keep τ l l' q p reads raises waits writes reads' raises' waits' writes'
  obtain ⟨hrw, hsignal, halone⟩ := h
  cases q with
  | idle | reading | writing => cases hnext
  | renterAdd =>
      cases hnext
      obtain ⟨hw, hx⟩ := hrq rfl
      simp only [RwPoint.reads, RwPoint.raises, RwPoint.waits, RwPoint.writes] at *
      rw [hw, ite_self] at hsignal
      refine ⟨?_, ?_, .inl (by omega)⟩
      · show l.rw + 2 = _
        omega
      · show raises' + l.rwlockSignal.toNat = _
        rw [if_neg (by omega)]
        omega
  | rexitSub =>
      -- the reader is one of those that are counted, so no writer writes
      cases hnext
      split at hreads
      next hlast =>
        rw [if_pos hlast] at hraises hwaits hwrites
        simp only [RwPoint.reads, RwPoint.raises, RwPoint.waits, RwPoint.writes] at *
        rw [if_neg (by omega)] at hsignal
        refine ⟨?_, ?_, .inr (by omega)⟩
        · show l.rw - 2 = _
          omega
        · show raises' + l.rwlockSignal.toNat = _
          rw [if_pos (by omega)]
          omega
      next hlast =>
        rw [if_neg hlast] at hraises hwaits hwrites
        simp only [RwPoint.reads, RwPoint.raises, RwPoint.waits, RwPoint.writes] at *
        rw [if_neg (by omega)] at hsignal
        refine ⟨?_, ?_, .inl (by omega)⟩
        · show l.rw - 2 = _
          omega
        · show raises' + l.rwlockSignal.toNat = _
          split <;> omega
  | rexitSignal =>
      cases hnext
      simp only [RwPoint.reads, RwPoint.raises, RwPoint.waits, RwPoint.writes] at *
      have hfree : reads = 0 := by
        by_contra hreads
        rw [if_neg hreads] at hsignal
        omega
      rw [if_pos hfree] at hsignal
      refine ⟨?_, ?_, by omega⟩
      · show l.rw = _
        omega
      · show raises' + 1 = _
        rw [if_pos (by omega)]
        omega
  | wenterOr =>
      cases hnext
      obtain ⟨hw, hx⟩ := hrq rfl
      have hor : l.rw ||| 1 = 2 * reads + 1 := by
        rw [hrw, hw, hx]
        exact (Nat.two_pow_add_eq_or_of_lt (i := 1) (by decide : 1 < 2 ^ 1) reads).symm
      have hreaders : (l.rw ||| 1) >>> 1 = reads := by
        rw [hor, Nat.shiftRight_one]
        omega
      simp only [hreaders] at hreads hraises hwaits hwrites
      rw [show waits = 0 from hw, ite_self] at hsignal
      split at hreads
      next hreaders =>
        rw [if_pos hreaders] at hraises hwaits hwrites
        simp only [RwPoint.reads, RwPoint.raises, RwPoint.waits, RwPoint.writes] at *
        refine ⟨?_, ?_, .inl (by omega)⟩
        · show l.rw ||| 1 = _
          omega
        · show raises' + l.rwlockSignal.toNat = _
          rw [if_neg (by omega)]
          omega
      next hreaders =>
        rw [if_neg hreaders] at hraises hwaits hwrites
        simp only [RwPoint.reads, RwPoint.raises, RwPoint.waits, RwPoint.writes] at *
        refine ⟨?_, ?_, .inr (by omega)⟩
        · show l.rw ||| 1 = _
          omega
        · show raises' + l.rwlockSignal.toNat = _
          rw [if_pos (by omega)]
          omega
  | wenterClear =>
      cases hnext
      simp only [RwPoint.reads, RwPoint.raises, RwPoint.waits, RwPoint.writes] at *
      obtain ⟨hw, hx⟩ := hrq rfl
      have hraised : l.rwlockSignal = true := hrely
      rw [hraised, Bool.toNat_true] at hsignal
      have hfree : reads = 0 := by
        by_contra hreads
        rw [if_neg hreads] at hsignal
        omega
      rw [if_pos hfree] at hsignal
      refine ⟨?_, ?_, .inr (by omega)⟩
      · show l.rw = _
        omega
      · show raises' + 0 = _
        rw [if_pos (by omega)]
        omega
  | wexitStore =>
      cases hnext
      simp only [RwPoint.reads, RwPoint.raises, RwPoint.waits, RwPoint.writes] at *
      obtain ⟨hw, hx⟩ := hrq rfl
      have hfree : reads = 0 := by omega
      refine ⟨?_, ?_, .inr (by omega)⟩
      · show 0 = _
        omega
      · show raises' + l.rwlockSignal.toNat = _
        rw [if_pos hfree] at hsignal
        rw [if_pos (by omega)]
        omega
  | rexitLock | wenterLock | renterEnter | wenterEnter =>
      obtain ⟨-, heq⟩ := Option.ite_none_right_eq_some.1 hnext
      cases heq
      exact hkeep rfl rfl ⟨rfl, rfl, rfl, rfl⟩ hreads hraises hwaits hwrites
  | wenterAsleep =>
      obtain ⟨-, heq⟩ := Option.ite_none_left_eq_some.1 hnext
      cases heq
      exact hkeep rfl rfl ⟨rfl, rfl, rfl, rfl⟩ hreads hraises hwaits hwrites
  | wenterCheck =>
      cases hnext
      refine hkeep rfl rfl ?_ hreads hraises hwaits hwrites
      split <;> exact ⟨rfl, rfl, rfl, rfl⟩
  | _ =>
      cases hnext
      exact hkeep rfl rfl ⟨rfl, rfl, rfl, rfl⟩ hreads hraises hwaits hwrites

variable [Fintype τ] {s : RwSys τ} {t u : τ} {l : RWLock τ} {p : RwPoint τ}

theorem sound_init : Sound (init : RwSys τ) where
  rq := fun _ => iff_of_false nofun nofun
  m := fun _ => iff_of_false nofun nofun
  balanced := by
    have hzero (w : RwPoint τ → ℕ) (hw : w .idle = 0) : Threads.total w init = 0 :=
      Threads.tally_eq_zero fun _ => hw
    rw [hzero _ rfl, hzero _ rfl, hzero _ rfl, hzero _ rfl]
    exact ⟨rfl, rfl, .inl rfl⟩
  relies := fun _ => trivial
  signalledFor := nofun
  notified := fun _ => .inl (.inl rfl)

namespace Sound

theorem total_waits (h : Sound s) (ht : (s.task t).holdsRq = true) :
    s.total RwPoint.waits = (s.task t).waits :=
  h.rq.total_eq (fun _ => RwPoint.waits_of_not_holdsRq) ht

theorem total_writes (h : Sound s) (ht : (s.task t).holdsRq = true) :
    s.total RwPoint.writes = (s.task t).writes :=
  h.rq.total_eq (fun _ => RwPoint.writes_of_not_holdsRq) ht

theorem total_le (h : Sound s) : s.total RwPoint.waits + s.total RwPoint.writes ≤ 1 := by
  cases hrq : s.shared.rq with
  | none =>
      have hwaits : s.total RwPoint.waits = 0 :=
        h.rq.total_eq_zero (fun _ => RwPoint.waits_of_not_holdsRq) hrq
      have hwrites : s.total RwPoint.writes = 0 :=
        h.rq.total_eq_zero (fun _ => RwPoint.writes_of_not_holdsRq) hrq
      omega
  | some t =>
      have ht := (h.rq t).1 hrq
      rw [h.total_waits ht, h.total_writes ht]
      exact RwPoint.waits_add_writes_le _

/-- When the flag is raised, or somebody is to raise it, the holder of the turnstile waits. -/
theorem waits_of_raised (h : Sound s)
    (hraised : 0 < s.total RwPoint.raises + s.shared.rwlockSignal.toNat) :
    ∃ u, s.shared.rq = some u ∧ (s.task u).waits = 1 := by
  have hsignal := h.balanced.signal
  cases hrq : s.shared.rq with
  | none =>
      have hwaits : s.total RwPoint.waits = 0 :=
        h.rq.total_eq_zero (fun _ => RwPoint.waits_of_not_holdsRq) hrq
      rw [hwaits, ite_self] at hsignal
      omega
  | some u =>
      have hle := RwPoint.waits_add_writes_le (s.task u)
      rw [h.total_waits ((h.rq u).1 hrq)] at hsignal
      refine ⟨u, rfl, ?_⟩
      split at hsignal <;> omega

theorem raised_of_signal (hsignal : s.shared.rwlockSignal = true) :
    0 < s.total RwPoint.raises + s.shared.rwlockSignal.toNat := by
  rw [hsignal]
  exact Nat.succ_pos _

theorem raised_of_raises (ht : (s.task t).raises = 1) :
    0 < s.total RwPoint.raises + s.shared.rwlockSignal.toNat := by
  have hle : (s.task t).raises ≤ s.total RwPoint.raises := Threads.le_total t
  omega

/-! ## A turn keeps the invariant -/

variable [DecidableEq τ]

theorem rq_next (h : Sound s) (hnext : s.shared.next t (s.task t) = some (l, p)) :
    (s.goOn t l p).Owned RWLock.rq RwPoint.holdsRq := by
  obtain ⟨hrq, hp⟩ | ⟨hfree, hrq, hp⟩ | ⟨ht, -, hrq, hp⟩ := RWLock.rq_of_next hnext
  · exact h.rq.keep hrq hp
  · exact h.rq.enter hfree hrq hp
  · exact h.rq.exit ht hrq hp

theorem m_next (h : Sound s) (hnext : s.shared.next t (s.task t) = some (l, p)) :
    (s.goOn t l p).Owned RWLock.m RwPoint.holdsM := by
  obtain ⟨hm, hp⟩ | ⟨hfree, hm, hp⟩ | ⟨ht, hm, hp⟩ := RWLock.m_of_next hnext
  · exact h.m.keep hm hp
  · exact h.m.enter hfree hm hp
  · exact h.m.exit ht hm hp

theorem balanced_next (h : Sound s) (hnext : s.shared.next t (s.task t) = some (l, p)) :
    Balanced l ((s.goOn t l p).total RwPoint.reads) ((s.goOn t l p).total RwPoint.raises)
      ((s.goOn t l p).total RwPoint.waits) ((s.goOn t l p).total RwPoint.writes) :=
  h.balanced.next h.total_le (fun ht => ⟨h.total_waits ht, h.total_writes ht⟩) (h.relies t) hnext
    (Threads.total_goOn t l p) (Threads.total_goOn t l p) (Threads.total_goOn t l p)
    (Threads.total_goOn t l p)

theorem rq_of_raised (h : Sound s) (hnext : s.shared.next t (s.task t) = some (l, p))
    (hraised : 0 < s.total RwPoint.raises + s.shared.rwlockSignal.toNat) :
    l.rq = s.shared.rq := by
  obtain ⟨u, hu, hwaits⟩ := h.waits_of_raised hraised
  obtain ⟨hrq, -⟩ | ⟨hfree, -⟩ | ⟨ht, hidle, -⟩ := RWLock.rq_of_next hnext
  · exact hrq
  · rw [hfree] at hu
    cases hu
  · obtain rfl : t = u := h.rq.eq ht ((h.rq u).1 hu)
    omega

theorem relies_other (h : Sound s) (hnext : s.shared.next t (s.task t) = some (l, p)) (hu : u ≠ t) :
    Relies l u (s.task u) := by
  have hrely := h.relies u
  have hrq (hraises : (s.task u).raises = 1) : l.rq = s.shared.rq :=
    h.rq_of_raised hnext (raised_of_raises hraises)
  have hraise (hm : (s.task u).holdsM = true) (hdown : s.shared.rwlockSignal = false) :
      l.rwlockSignal = false := by
    obtain ⟨hsame, -⟩ | ⟨writer, ht, -⟩ | ⟨-, hclear⟩ := RWLock.signal_of_next hnext
    · rw [hsame, hdown]
    · exact absurd (h.m.eq hm (by rw [ht]; rfl)) hu
    · exact hclear
  have hlower (hturnstile : (s.task u).holdsRq = true) (hup : s.shared.rwlockSignal = true) :
      l.rwlockSignal = true := by
    obtain ⟨hsame, -⟩ | ⟨writer, -, -, hraise, -⟩ | ⟨ht, -⟩ := RWLock.signal_of_next hnext
    · rw [hsame, hup]
    · exact hraise
    · exact absurd (h.rq.eq hturnstile (by rw [ht]; rfl)) hu
  cases hq : s.task u with
  | rexitLock | rexitSignal =>
      rw [hq] at hrely hrq
      exact hrely.trans (hrq rfl).symm
  | wenterWait =>
      rw [hq] at hrely hraise
      exact hraise rfl hrely
  | wenterUnlock | wenterClear =>
      rw [hq] at hrely hlower
      exact hlower rfl hrely
  | _ => trivial

theorem relies_next (h : Sound s) (hnext : s.shared.next t (s.task t) = some (l, p)) :
    (s.goOn t l p).Each Relies := by
  intro u
  by_cases hu : u = t
  · subst hu
    rw [Threads.goOn_shared, Threads.goOn_task_self]
    exact relies_of_next (h.relies u) hnext
  · rw [Threads.goOn_shared, Threads.goOn_task_of_ne s t l p hu]
    exact h.relies_other hnext hu

theorem signalledFor_next (h : Sound s) (hnext : s.shared.next t (s.task t) = some (l, p)) :
    l.rwlockSignal = true → l.signalledFor = l.rq := by
  intro hup
  obtain ⟨hsame, hfor⟩ | ⟨writer, ht, -, -, hfor⟩ | ⟨-, hdown⟩ := RWLock.signal_of_next hnext
  · rw [hsame] at hup
    rw [hfor, h.signalledFor hup, h.rq_of_raised hnext (raised_of_signal hup)]
  · have hrely := h.relies t
    rw [ht] at hrely
    rw [hfor, h.rq_of_raised hnext (raised_of_raises (by rw [ht]; rfl))]
    exact hrely
  · rw [hdown] at hup
    cases hup

theorem notified_next (h : Sound s) (hnext : s.shared.next t (s.task t) = some (l, p)) :
    (s.goOn t l p).Settled (fun t l => l.rwlockSignal = false ∨ l.asleep t = false)
      fun _ _ p => p = .rexitNotify := by
  refine h.notified.goOn fun u hu => ?_
  have hrely := h.relies t
  obtain ⟨ht, hsame⟩ | ⟨ht, hsame⟩ | ⟨-, hnone⟩ := RWLock.asleep_of_next hnext
  · rw [hsame]
    obtain ⟨hsignal, -⟩ | ⟨writer, -, hp, -⟩ | ⟨-, hdown⟩ := RWLock.signal_of_next hnext
    · rw [hsignal]
      exact .inl (hu.resolve_right ht)
    · exact .inr hp
    · exact .inl (.inl hdown)
  · rw [ht] at hrely
    exact .inl (.inl (hsame.trans hrely))
  · exact .inl (.inr (congrFun hnone u))

theorem turn (h : Sound s) (hnext : s.shared.next t (s.task t) = some (l, p)) :
    Sound (s.goOn t l p) where
  rq := h.rq_next hnext
  m := h.m_next hnext
  balanced := h.balanced_next hnext
  relies := h.relies_next hnext
  signalledFor := h.signalledFor_next hnext
  notified := h.notified_next hnext

/-- A thread moves to a point that says the same, and others may be woken. -/
theorem move (h : Sound s) {asleep : τ → Bool}
    (hasleep : ∀ u, s.shared.asleep u = false → asleep u = false)
    (hrq : p.holdsRq = (s.task t).holdsRq) (hm : p.holdsM = (s.task t).holdsM)
    (hp : p.reads = (s.task t).reads ∧ p.raises = (s.task t).raises ∧
      p.waits = (s.task t).waits ∧ p.writes = (s.task t).writes)
    (hrely : Relies s.shared t p) (hnotify : s.task t = .rexitNotify → p = .rexitNotify) :
    Sound (s.goOn t { s.shared with asleep } p) where
  rq := h.rq.keep rfl hrq
  m := h.m.keep rfl hm
  balanced := h.balanced.keep rfl rfl hp (Threads.total_goOn t _ p) (Threads.total_goOn t _ p)
    (Threads.total_goOn t _ p) (Threads.total_goOn t _ p)
  relies := by
    have hsame (u : τ) (q : RwPoint τ) :
        Relies s.shared u q → Relies { s.shared with asleep } u q := by
      cases q <;> exact id
    exact h.relies.goOn (hsame t p hrely) fun u q _ => hsame u q
  signalledFor := h.signalledFor
  notified := h.notified.goOn fun u hu => by
    obtain (hdown | hawake) | ht := hu
    · exact .inl (.inl hdown)
    · exact .inl (.inr (hasleep u hawake))
    · exact .inr (hnotify ht)

end Sound

/-- **Every step keeps the invariant.** -/
theorem Sound.next [DecidableEq τ] (h : Sound s) {a : RwAct τ} {s' : RwSys τ}
    (hnext : RwSys.next s a = some s') : Sound s' := by
  have hawake (u : τ) (hu : s.shared.asleep u = false) : s.shared.asleep u = false := hu
  cases a with
  | renter t | rexit t | wenter t | wexit t =>
      obtain ⟨ht, heq⟩ := Option.ite_none_right_eq_some.1 hnext
      cases heq
      refine h.move hawake ?_ ?_ ?_ trivial ?_
      · rw [ht]; rfl
      · rw [ht]; rfl
      · rw [ht]; exact ⟨rfl, rfl, rfl, rfl⟩
      · rw [ht]; nofun
  | turn t =>
      obtain ⟨⟨l, p⟩, hturn, rfl⟩ := Option.map_eq_some_iff.1 hnext
      exact h.turn hturn
  | wake t =>
      obtain ⟨-, heq⟩ := Option.ite_none_right_eq_some.1 hnext
      cases heq
      refine h.move (fun u hu => ?_) rfl rfl ⟨rfl, rfl, rfl, rfl⟩ (h.relies t) id
      by_cases hut : u = t
      · rw [hut, Function.update_self]
      · rw [Function.update_of_ne hut, hu]

/-- **The invariant holds in every run.** -/
theorem sound_run [DecidableEq τ] {acts : List (RwAct τ)}
    (h : Run (fun s a s' => RwSys.next s a = some s') init acts s) : Sound s :=
  h.invariant (fun _ _ _ hs hnext => hs.next hnext) sound_init

/-! ## The lock is safe -/

namespace Sound

theorem writer_alone (h : Sound s) (ht : (s.task t).writes = 1) :
    s.total RwPoint.reads = 0 ∧ ∀ u, (s.task u).writes = 1 → u = t := by
  have hpos : (s.task t).writes ≤ s.total RwPoint.writes := Threads.le_total t
  have halone := h.balanced.alone
  refine ⟨by omega, fun u hu => h.rq.eq ?_ ?_⟩
  · by_contra hholds
    have hzero := RwPoint.writes_of_not_holdsRq (Bool.eq_false_iff.2 hholds)
    omega
  · by_contra hholds
    have hzero := RwPoint.writes_of_not_holdsRq (Bool.eq_false_iff.2 hholds)
    omega

theorem signalledFor_of_waits (h : Sound s) (hup : s.shared.rwlockSignal = true)
    (ht : (s.task t).waits = 1) : s.shared.signalledFor = some t := by
  rw [h.signalledFor hup, h.rq t]
  by_contra hholds
  have hzero := RwPoint.waits_of_not_holdsRq (Bool.eq_false_iff.2 hholds)
  omega

/-- A writer that waits for a flag that is down waits for a reader. -/
theorem not_stranded (h : Sound s) (hdown : s.shared.rwlockSignal = false)
    (ht : (s.task t).waits = 1) :
    ∃ u, (s.task u).holdsShared = true ∨ (s.task u).raises = 1 := by
  have hsignal := h.balanced.signal
  have hwaits : (s.task t).waits ≤ s.total RwPoint.waits := Threads.le_total t
  have hturnstile : (s.task t).holdsRq = true := by
    by_contra hholds
    have hzero := RwPoint.waits_of_not_holdsRq (Bool.eq_false_iff.2 hholds)
    omega
  rw [hdown, Bool.toNat_false, Nat.add_zero] at hsignal
  by_cases hreads : s.total RwPoint.reads = 0
  · rw [if_pos hreads] at hsignal
    obtain ⟨u, hu⟩ := Threads.exists_of_total_pos (s := s) (w := RwPoint.raises) (by omega)
    exact ⟨u, .inr (le_antisymm (RwPoint.raises_le _) hu)⟩
  · obtain ⟨u, hu⟩ := Threads.exists_of_total_pos (Nat.pos_of_ne_zero hreads)
    refine ⟨u, .inl ((RwPoint.holdsShared_of_reads hu).resolve_right fun hq => ?_)⟩
    -- a reader in `renter` still has the turnstile, which is the writer's
    obtain rfl : u = t := h.rq.eq (by rw [hq]; rfl) hturnstile
    rw [hq] at ht
    cases ht

end Sound

/-- **The read-write lock is safe.** In every run of any number of threads that call `renter`,
`rexit`, `wenter` and `wexit`: a writer that has returned from `wenter` excludes readers and other
writers; the flag is raised for a writer that waits, and the one that finds it raised and takes it
back is that writer; a writer that waits while the flag is down waits for a thread that reads or is
in `rexit` and has yet to raise it; a writer asleep while the flag is raised has yet to be notified
by a thread in `rexit`; and the word is at most twice the number of threads plus one. -/
theorem rwlock_safe [DecidableEq τ] (acts : List (RwAct τ)) (s : RwSys τ)
    (h : Run (fun s a s' => RwSys.next s a = some s') init acts s) :
    (∀ t u, (s.task t).holdsExclusive = true →
      (s.task u).holdsShared = false ∧ ((s.task u).holdsExclusive = true → u = t)) ∧
    (∀ t writer, s.task t = .rexitLock writer ∨ s.task t = .rexitSignal writer →
      ∃ u, writer = some u ∧ (s.task u).waits = 1) ∧
    (∀ t, s.task t = .wenterCheck ∧ s.shared.rwlockSignal = true ∨ s.task t = .wenterUnlock ∨
      s.task t = .wenterClear → s.shared.signalledFor = some t) ∧
    (∀ t, (s.task t).waits = 1 → s.shared.rwlockSignal = false →
      ∃ u, (s.task u).holdsShared = true ∨ (s.task u).raises = 1) ∧
    (∀ t, s.shared.asleep t = true → s.shared.rwlockSignal = true →
      ∃ u, s.task u = .rexitNotify) ∧
    s.shared.rw ≤ 2 * Fintype.card τ + 1 := by
  have hs := sound_run h
  refine ⟨fun t u ht => ?_, fun t writer ht => ?_, fun t ht => ?_, fun t ht hdown => ?_,
    fun t ht hup => ?_, ?_⟩
  · obtain ⟨hreads, hwriters⟩ := hs.writer_alone (RwPoint.writes_of_holdsExclusive ht)
    refine ⟨?_, fun hu => hwriters u (RwPoint.writes_of_holdsExclusive hu)⟩
    by_contra hu
    have hone := RwPoint.reads_of_holdsShared (Bool.of_not_eq_false hu)
    have hle : (s.task u).reads ≤ s.total RwPoint.reads := Threads.le_total u
    omega
  · have hrely := hs.relies t
    obtain ⟨u, hu, hwaits⟩ := hs.waits_of_raised (Sound.raised_of_raises (t := t)
      (by obtain ht | ht := ht <;> rw [ht] <;> rfl))
    refine ⟨u, ?_, hwaits⟩
    obtain ht | ht := ht <;> rw [ht] at hrely <;> exact Eq.trans hrely hu
  · have hrely := hs.relies t
    obtain ⟨ht, hup⟩ | ht | ht := ht
    · exact hs.signalledFor_of_waits hup (by rw [ht]; rfl)
    · rw [ht] at hrely
      exact hs.signalledFor_of_waits hrely (by rw [ht]; rfl)
    · rw [ht] at hrely
      exact hs.signalledFor_of_waits hrely (by rw [ht]; rfl)
  · exact hs.not_stranded hdown ht
  · obtain (hdown | hawake) | hnotify := hs.notified t
    · rw [hdown] at hup
      cases hup
    · rw [hawake] at ht
      cases ht
    · exact hnotify
  · have hrw := hs.balanced.rw
    have hle := hs.total_le
    have hcard : s.total RwPoint.reads ≤ Fintype.card τ := Threads.total_le_card RwPoint.reads_le
    omega

/-- A reader comes in, a writer has to wait for it and goes to sleep, and the reader leaves, raises
the flag and wakes the writer, which takes the flag back and writes. -/
def writeAfterRead : List (RwAct (Fin 2)) :=
  [.renter 0, .turn 0, .turn 0, .turn 0, .wenter 1, .turn 1, .turn 1, .turn 1, .turn 1, .turn 1,
    .rexit 0, .turn 0, .turn 0, .turn 0, .turn 0, .turn 0, .turn 1, .turn 1, .turn 1, .turn 1,
    .turn 1]

theorem rwlock_safe_writeAfterRead :
    ∃ s : RwSys (Fin 2), s.task 1 = .writing ∧ s.shared.signalledFor = some 1 ∧
      (∀ u, (s.task u).holdsShared = false ∧ ((s.task u).holdsExclusive = true → u = 1)) :=
  ⟨_, rfl, rfl, fun u => (rwlock_safe writeAfterRead _ (Run.of_foldlM rfl)).1 1 u rfl⟩

end RwSys

end Vml
