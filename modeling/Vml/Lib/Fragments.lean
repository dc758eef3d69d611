import Mathlib.Algebra.BigOperators.Group.Finset.Basic
import Mathlib.Algebra.Order.BigOperators.Group.Finset
import Mathlib.Tactic

/-!
# Fragmented ranges

A range of `offsetOf len n` positions cut into `n` consecutive fragments, fragment `i` being
`len i` positions long. `offsetOf len i` is where fragment `i` starts.
-/

namespace Vml

/-- The number of positions before fragment `i`. -/
def offsetOf (len : ℕ → ℕ) (i : ℕ) : ℕ := ∑ j ∈ Finset.range i, len j

section

variable {len len' : ℕ → ℕ} {i j n off : ℕ}

@[simp] theorem offsetOf_zero (len : ℕ → ℕ) : offsetOf len 0 = 0 := rfl

@[simp] theorem offsetOf_succ (len : ℕ → ℕ) (i : ℕ) :
    offsetOf len (i + 1) = offsetOf len i + len i := Finset.sum_range_succ _ _

theorem offsetOf_mono (len : ℕ → ℕ) : Monotone (offsetOf len) :=
  monotone_nat_of_le_succ fun i => by simp

theorem offsetOf_congr (h : ∀ j < i, len j = len' j) : offsetOf len i = offsetOf len' i :=
  Finset.sum_congr rfl fun j hj => h j (Finset.mem_range.1 hj)

theorem offsetOf_add_le (h : i < n) : offsetOf len i + len i ≤ offsetOf len n := by
  rw [← offsetOf_succ]
  exact offsetOf_mono len h

theorem offsetOf_update_of_le {v : ℕ} (h : i ≤ j) :
    offsetOf (Function.update len j v) i = offsetOf len i :=
  offsetOf_congr fun k hk => Function.update_of_ne (by omega) _ _

theorem offsetOf_update_of_lt {v : ℕ} (h : j < i) :
    offsetOf (Function.update len j v) i + len j = offsetOf len i + v := by
  induction i with
  | zero => omega
  | succ i ih =>
      rcases Nat.lt_succ_iff_lt_or_eq.1 h with hlt | rfl
      · have := ih hlt
        rw [offsetOf_succ, offsetOf_succ, Function.update_of_ne (by omega)]
        omega
      · rw [offsetOf_succ, offsetOf_succ, Function.update_self, offsetOf_update_of_le le_rfl]
        omega

end

end Vml
