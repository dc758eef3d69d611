import Mathlib.Logic.Function.Basic
import Mathlib.Tactic.TypeStar

/-!
# Threads over a shared state

Threads `τ` that each are somewhere in a program, at a point of type `π`, and take turns on a shared
state `σ`. A turn changes the shared state and moves one thread on (`goOn`).

**Points.** `Each I`: at its point, every thread may rely on `I`. A turn has to establish it for the
thread whose turn it is, and must not take it from the others.

**Debts.** `Settled paid owes`: everything on a list of claims is paid, in the shared state, or some
thread still owes it. A turn may take back what was paid if its thread then owes it, and a thread
may forget what it owes once it is paid. When no thread owes a claim it is paid.
-/

namespace Vml

/-- A shared state, and where each thread is in its program. -/
structure Threads (σ τ π : Type*) where
  shared : σ
  task : τ → π

namespace Threads

variable {σ τ π κ : Type*}

section Turns

variable [DecidableEq τ]

/-- The thread `t` leaves the shared state `σ'` and goes on at `p`. -/
def goOn (s : Threads σ τ π) (t : τ) (σ' : σ) (p : π) : Threads σ τ π :=
  { shared := σ', task := Function.update s.task t p }

variable (s : Threads σ τ π) (t : τ) (σ' : σ) (p : π)

@[simp] theorem goOn_shared : (s.goOn t σ' p).shared = σ' := rfl

@[simp] theorem goOn_task_self : (s.goOn t σ' p).task t = p := Function.update_self ..

theorem goOn_task_of_ne {u : τ} (h : u ≠ t) : (s.goOn t σ' p).task u = s.task u :=
  Function.update_of_ne h ..

theorem goOn_self : s.goOn t s.shared (s.task t) = s := by
  rw [goOn, Function.update_eq_self]

theorem goOn_goOn (σ'' : σ) (q : π) : (s.goOn t σ' p).goOn t σ'' q = s.goOn t σ'' q := by
  rw [goOn, goOn, Function.update_idem, goOn]

/-- What holds of every thread at its point, and of the one that goes on where it goes. -/
theorem forall_goOn {P : τ → π → Prop} {s : Threads σ τ π} (h : ∀ u, P u (s.task u)) {t : τ}
    {σ' : σ} {p : π} (hp : P t p) (u : τ) : P u ((s.goOn t σ' p).task u) := by
  by_cases hu : u = t
  · subst hu
    rwa [goOn_task_self]
  · rw [goOn_task_of_ne s t σ' p hu]
    exact h u

end Turns

/-! ## Points -/

/-- What each thread relies on at its point. -/
def Each (I : σ → τ → π → Prop) (s : Threads σ τ π) : Prop := ∀ t, I s.shared t (s.task t)

/-- **A turn keeps what every thread relies on** if its thread may rely on it afterwards, and it
leaves the others alone. -/
theorem Each.goOn [DecidableEq τ] {I : σ → τ → π → Prop} {s : Threads σ τ π} (h : Each I s) {t : τ}
    {σ' : σ} {p : π} (hown : I σ' t p) (hother : ∀ u q, u ≠ t → I s.shared u q → I σ' u q) :
    Each I (s.goOn t σ' p) := by
  intro u
  by_cases hu : u = t
  · subst hu
    rw [goOn_shared, goOn_task_self]
    exact hown
  · rw [goOn_shared, goOn_task_of_ne s t σ' p hu]
    exact hother u _ hu (h u)

/-! ## Debts -/

/-- Every claim is paid, or some thread owes it. -/
def Settled (paid : κ → σ → Prop) (owes : κ → τ → π → Prop) (s : Threads σ τ π) : Prop :=
  ∀ k, paid k s.shared ∨ ∃ t, owes k t (s.task t)

variable {paid : κ → σ → Prop} {owes : κ → τ → π → Prop} {s : Threads σ τ π}

/-- **A turn settles** if a claim that was paid, or owed by its thread, is so afterwards, or is owed
by another thread. -/
theorem Settled.goOn_or [DecidableEq τ] (h : Settled paid owes s) {t : τ} {σ' : σ} {p : π}
    (hown : ∀ k, paid k s.shared ∨ owes k t (s.task t) →
      paid k σ' ∨ owes k t p ∨ ∃ u, u ≠ t ∧ owes k u (s.task u)) :
    Settled paid owes (s.goOn t σ' p) := by
  intro k
  have hother {u : τ} (hu : u ≠ t) (howes : owes k u (s.task u)) :
      ∃ u, owes k u ((s.goOn t σ' p).task u) := by
    refine ⟨u, ?_⟩
    rwa [goOn_task_of_ne s t σ' p hu]
  have hturn (hk : paid k s.shared ∨ owes k t (s.task t)) :
      paid k (s.goOn t σ' p).shared ∨ ∃ u, owes k u ((s.goOn t σ' p).task u) := by
    obtain hpaid | howes | ⟨u, hu, howes⟩ := hown k hk
    · exact .inl hpaid
    · refine .inr ⟨t, ?_⟩
      rwa [goOn_task_self]
    · exact .inr (hother hu howes)
  obtain hpaid | ⟨u, hu⟩ := h k
  · exact hturn (.inl hpaid)
  · by_cases hut : u = t
    · exact hturn (.inr (hut ▸ hu))
    · exact .inr (hother hut hu)

theorem Settled.goOn [DecidableEq τ] (h : Settled paid owes s) {t : τ} {σ' : σ} {p : π}
    (hown : ∀ k, paid k s.shared ∨ owes k t (s.task t) → paid k σ' ∨ owes k t p) :
    Settled paid owes (s.goOn t σ' p) :=
  h.goOn_or fun k hk => (hown k hk).imp_right .inl

theorem Settled.paid_of_not_owes (h : Settled paid owes s) {k : κ}
    (hk : ∀ t, ¬owes k t (s.task t)) : paid k s.shared :=
  (h k).resolve_right fun ⟨t, ht⟩ => hk t ht

end Threads

end Vml
