import Mathlib.Algebra.Order.BigOperators.Group.Finset
import Mathlib.Data.Fintype.BigOperators
import Vml.Lib.Threads

/-!
# Tallies of threads

Finitely many of the threads, `v i` for `i : ι`, are weighed by where they are in their program. A
counter that threads raise and lower as they go on is the sum of the weights (`tally`), which a turn
changes by what it changes for its thread.
-/

namespace Vml

namespace Threads

variable {σ τ π ι : Type*} [Fintype ι]

/-- The sum of the weights of the threads `v i`. -/
def tally (v : ι → τ) (w : ι → π → ℕ) (s : Threads σ τ π) : ℕ := ∑ i, w i (s.task (v i))

/-- The sum of the weights of the others. -/
def tallyOthers [DecidableEq ι] (v : ι → τ) (w : ι → π → ℕ) (i : ι) (s : Threads σ τ π) : ℕ :=
  ∑ j ∈ Finset.univ.erase i, w j (s.task (v j))

variable {v : ι → τ} {w w' w'' : ι → π → ℕ} {s : Threads σ τ π}

theorem tally_eq_tallyOthers [DecidableEq ι] (i : ι) :
    tally v w s = tallyOthers v w i s + w i (s.task (v i)) :=
  (Finset.sum_erase_add _ _ (Finset.mem_univ i)).symm

theorem tallyOthers_goOn [DecidableEq τ] [DecidableEq ι] (hv : Function.Injective v) (i : ι)
    (σ' : σ) (p : π) : tallyOthers v w i (s.goOn (v i) σ' p) = tallyOthers v w i s :=
  Finset.sum_congr rfl fun j hj => by
    rw [goOn_task_of_ne _ _ _ _ (hv.ne (Finset.ne_of_mem_erase hj))]

/-- **A turn changes the tally by what it changes for its thread.** -/
theorem tally_goOn [DecidableEq τ] [DecidableEq ι] (hv : Function.Injective v) (i : ι) (σ' : σ)
    (p : π) : tally v w (s.goOn (v i) σ' p) = tallyOthers v w i s + w i p := by
  rw [tally_eq_tallyOthers i, tallyOthers_goOn hv, goOn_task_self]

theorem tally_goOn_of_ne [DecidableEq τ] {t : τ} (ht : ∀ i, v i ≠ t) (σ' : σ) (p : π) :
    tally v w (s.goOn t σ' p) = tally v w s :=
  Finset.sum_congr rfl fun i _ => by rw [goOn_task_of_ne _ _ _ _ (ht i)]

theorem tally_congr (h : ∀ i, w i (s.task (v i)) = w' i (s.task (v i))) :
    tally v w s = tally v w' s :=
  Finset.sum_congr rfl fun i _ => h i

theorem tallyOthers_congr [DecidableEq ι] {i : ι}
    (h : ∀ j, j ≠ i → w j (s.task (v j)) = w' j (s.task (v j))) :
    tallyOthers v w i s = tallyOthers v w' i s :=
  Finset.sum_congr rfl fun j hj => h j (Finset.ne_of_mem_erase hj)

theorem tallyOthers_le [DecidableEq ι] {i : ι}
    (h : ∀ j, w j (s.task (v j)) ≤ w' j (s.task (v j))) :
    tallyOthers v w i s ≤ tallyOthers v w' i s :=
  Finset.sum_le_sum fun j _ => h j

theorem eq_zero_of_tallyOthers [DecidableEq ι] {i j : ι} (h : tallyOthers v w i s = 0)
    (hj : j ≠ i) : w j (s.task (v j)) = 0 :=
  Finset.sum_eq_zero_iff.1 h j (Finset.mem_erase.2 ⟨hj, Finset.mem_univ j⟩)

theorem tallyOthers_eq_zero [DecidableEq ι] {i : ι} (h : ∀ j, w j (s.task (v j)) = 0) :
    tallyOthers v w i s = 0 :=
  Finset.sum_eq_zero fun j _ => h j

theorem tally_add (h : ∀ i, w i (s.task (v i)) = w' i (s.task (v i)) + w'' i (s.task (v i))) :
    tally v w s = tally v w' s + tally v w'' s := by
  rw [tally, tally, tally, ← Finset.sum_add_distrib]
  exact Finset.sum_congr rfl fun i _ => h i

theorem tally_eq_zero (h : ∀ i, w i (s.task (v i)) = 0) : tally v w s = 0 :=
  Finset.sum_eq_zero fun i _ => h i

theorem le_tally (i : ι) : w i (s.task (v i)) ≤ tally v w s :=
  Finset.single_le_sum (f := fun i => w i (s.task (v i))) (fun _ _ => Nat.zero_le _)
    (Finset.mem_univ i)

theorem tally_le_card (h : ∀ i, w i (s.task (v i)) ≤ 1) : tally v w s ≤ Fintype.card ι := by
  rw [← Finset.card_univ, Finset.card_eq_sum_ones]
  exact Finset.sum_le_sum fun i _ => h i

theorem tally_lt_card (h : ∀ i, w i (s.task (v i)) ≤ 1) {i : ι} (hi : w i (s.task (v i)) = 0) :
    tally v w s < Fintype.card ι := by
  rw [← Finset.card_univ, Finset.card_eq_sum_ones]
  exact Finset.sum_lt_sum (fun i _ => h i) ⟨i, Finset.mem_univ i, by rw [hi]; exact Nat.one_pos⟩

end Threads

end Vml
