import Vml.Lib.Tally

/-!
# Owners

A lock is a part of the shared state that names its owner, if there is one, and the owner can be
told from where it is in its program (`Owned`). A turn keeps that if it leaves both alone, or takes
the free lock, or gives up the lock it holds. In the sum of what the threads weigh at their points
(`total`), what only the owner can weigh is what the owner weighs.
-/

namespace Vml

namespace Threads

variable {σ τ π : Type*}

/-- What all threads weigh at their points. -/
def total [Fintype τ] (w : π → ℕ) (s : Threads σ τ π) : ℕ := tally id (fun _ => w) s

theorem total_goOn [DecidableEq τ] [Fintype τ] {s : Threads σ τ π} {w : π → ℕ} (t : τ) (σ' : σ)
    (p : π) : (s.goOn t σ' p).total w + w (s.task t) = s.total w + w p := by
  have hafter := tally_goOn (s := s) (w := fun _ => w) Function.injective_id t σ' p
  have hbefore := tally_eq_tallyOthers (s := s) (v := id) (w := fun _ => w) t
  simp only [id] at hafter hbefore
  rw [total, total]
  omega

theorem le_total [Fintype τ] {s : Threads σ τ π} {w : π → ℕ} (t : τ) : w (s.task t) ≤ s.total w :=
  le_tally (v := id) (w := fun _ => w) t

theorem exists_of_total_pos [Fintype τ] {s : Threads σ τ π} {w : π → ℕ} (h : 0 < s.total w) :
    ∃ t, 0 < w (s.task t) := by
  by_contra hnone
  push Not at hnone
  exact absurd (tally_eq_zero fun t => Nat.le_zero.1 (hnone t)) (Nat.ne_of_gt h)

theorem total_le_card [Fintype τ] {s : Threads σ τ π} {w : π → ℕ} (hw : ∀ p, w p ≤ 1) :
    s.total w ≤ Fintype.card τ :=
  tally_le_card fun _ => hw _

/-- The lock `get` is held by exactly the thread at a point that `holds` it. -/
def Owned (get : σ → Option τ) (holds : π → Bool) (s : Threads σ τ π) : Prop :=
  ∀ t, get s.shared = some t ↔ holds (s.task t) = true

variable {get : σ → Option τ} {holds : π → Bool} {s : Threads σ τ π} {t u : τ} {σ' : σ} {p : π}

namespace Owned

theorem eq (h : Owned get holds s) (ht : holds (s.task t) = true)
    (hu : holds (s.task u) = true) : t = u :=
  Option.some.inj (((h t).2 ht).symm.trans ((h u).2 hu))

theorem not_holds (h : Owned get holds s) (hget : get s.shared = none) (t : τ) :
    holds (s.task t) = false := by
  rw [← Bool.not_eq_true, ← h t, hget]
  nofun

theorem not_holds_of_ne (h : Owned get holds s) (ht : holds (s.task t) = true) (hu : u ≠ t) :
    holds (s.task u) = false := by
  rw [← Bool.not_eq_true]
  exact fun hholds => hu (h.eq hholds ht)

section Turns

variable [DecidableEq τ]

theorem keep (h : Owned get holds s) (hget : get σ' = get s.shared)
    (hp : holds p = holds (s.task t)) : Owned get holds (s.goOn t σ' p) := by
  intro u
  rw [goOn_shared, hget, h u]
  by_cases hu : u = t
  · subst hu
    rw [goOn_task_self, hp]
  · rw [goOn_task_of_ne s t σ' p hu]

theorem enter (h : Owned get holds s) (hfree : get s.shared = none) (hget : get σ' = some t)
    (hp : holds p = true) : Owned get holds (s.goOn t σ' p) := by
  intro u
  rw [goOn_shared, hget, Option.some.injEq]
  by_cases hu : u = t
  · subst hu
    rw [goOn_task_self, hp, eq_self, eq_self]
  · rw [goOn_task_of_ne s t σ' p hu, h.not_holds hfree u]
    exact iff_of_false (Ne.symm hu) nofun

theorem exit (h : Owned get holds s) (ht : holds (s.task t) = true) (hget : get σ' = none)
    (hp : holds p = false) : Owned get holds (s.goOn t σ' p) := by
  intro u
  rw [goOn_shared, hget]
  by_cases hu : u = t
  · subst hu
    rw [goOn_task_self, hp]
    exact iff_of_false nofun nofun
  · rw [goOn_task_of_ne s t σ' p hu, h.not_holds_of_ne ht hu]
    exact iff_of_false nofun nofun

end Turns

variable [Fintype τ] {w : π → ℕ}

/-- **What only the owner can weigh weighs what the owner weighs.** -/
theorem total_eq (h : Owned get holds s) (hw : ∀ p, holds p = false → w p = 0)
    (ht : holds (s.task t) = true) : s.total w = w (s.task t) :=
  Fintype.sum_eq_single t fun _ hu => hw _ (h.not_holds_of_ne ht hu)

theorem total_eq_zero (h : Owned get holds s) (hw : ∀ p, holds p = false → w p = 0)
    (hfree : get s.shared = none) : s.total w = 0 :=
  tally_eq_zero fun u => hw _ (h.not_holds hfree u)

end Owned

end Threads

end Vml
