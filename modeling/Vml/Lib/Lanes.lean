import Mathlib.Tactic.IntervalCases
import Mathlib.Tactic.Positivity
import Mathlib.Tactic.Ring

/-!
# Byte lanes

Writing `n` bytes over a number from byte `k` on leaves the bytes below and above as they are.
`mergeLanes` says so with quotients and remainders, `testBit_mergeLanes` bit by bit.
-/

namespace Vml

/-- The number `old` with bytes `k`, …, `k + n - 1` replaced by the low bytes of `v`. -/
def mergeLanes (old v k n : ℕ) : ℕ :=
  2 ^ (8 * (k + n)) * (old / 2 ^ (8 * (k + n))) +
    (2 ^ (8 * k) * (v % 2 ^ (8 * n)) + old % 2 ^ (8 * k))

variable {old v k n : ℕ}

theorem mergeLanes_low_lt :
    2 ^ (8 * k) * (v % 2 ^ (8 * n)) + old % 2 ^ (8 * k) < 2 ^ (8 * (k + n)) := by
  have hv : v % 2 ^ (8 * n) < 2 ^ (8 * n) := Nat.mod_lt _ (by positivity)
  have hold : old % 2 ^ (8 * k) < 2 ^ (8 * k) := Nat.mod_lt _ (by positivity)
  calc
    2 ^ (8 * k) * (v % 2 ^ (8 * n)) + old % 2 ^ (8 * k)
      < 2 ^ (8 * k) * (v % 2 ^ (8 * n)) + 2 ^ (8 * k) := by omega
    _ = 2 ^ (8 * k) * (v % 2 ^ (8 * n) + 1) := by ring
    _ ≤ 2 ^ (8 * k) * 2 ^ (8 * n) := Nat.mul_le_mul_left _ hv
    _ = 2 ^ (8 * (k + n)) := by ring

/-- Bit by bit: the bits of the lanes that are written come from `v`, the others from `old`. -/
theorem testBit_mergeLanes (j : ℕ) : (mergeLanes old v k n).testBit j =
    if 8 * k ≤ j ∧ j < 8 * (k + n) then v.testBit (j - 8 * k) else old.testBit j := by
  rw [mergeLanes, Nat.testBit_two_pow_mul_add _ mergeLanes_low_lt]
  by_cases habove : j < 8 * (k + n)
  · rw [if_pos habove, Nat.testBit_two_pow_mul_add _ (Nat.mod_lt _ (by positivity))]
    by_cases hbelow : j < 8 * k
    · rw [if_pos hbelow, if_neg (by omega), Nat.testBit_mod_two_pow, decide_eq_true hbelow,
        Bool.true_and]
    · rw [if_neg hbelow, if_pos ⟨by omega, habove⟩, Nat.testBit_mod_two_pow,
        decide_eq_true (by omega), Bool.true_and]
  · rw [if_neg habove, if_neg (by omega), Nat.testBit_div_two_pow]
    congr 1
    omega

theorem mergeLanes_eq_self : mergeLanes old v k n = old ↔
    v % 2 ^ (8 * n) = old / 2 ^ (8 * k) % 2 ^ (8 * n) := by
  have hsplit : old = 2 ^ (8 * (k + n)) * (old / 2 ^ (8 * (k + n))) +
      (2 ^ (8 * k) * (old / 2 ^ (8 * k) % 2 ^ (8 * n)) + old % 2 ^ (8 * k)) := by
    have hmod : old % 2 ^ (8 * (k + n)) =
        2 ^ (8 * k) * (old / 2 ^ (8 * k) % 2 ^ (8 * n)) + old % 2 ^ (8 * k) := by
      rw [Nat.mul_add, pow_add, Nat.mod_mul, Nat.add_comm]
    rw [← hmod, Nat.div_add_mod]
  rw [mergeLanes]
  conv => lhs; rhs; rw [hsplit]
  rw [Nat.add_left_cancel_iff, Nat.add_right_cancel_iff]
  exact Nat.mul_right_inj (by positivity)

theorem mergeLanes_zero (hold : old < 2 ^ (8 * n)) :
    mergeLanes old v 0 n = v % 2 ^ (8 * n) := by
  rw [mergeLanes, Nat.zero_add, Nat.div_eq_of_lt hold]
  simp [Nat.mod_one]

/-! ## A bound of two bytes -/

/-- `n` bytes of `v` can be written from byte `k` on over a number up to `max` without exceeding
`max`, both of them having two bytes: by comparing bytes, the high one first. -/
def LanesLe (old v k n max : ℕ) : Prop :=
  k = 0 ∧ 2 ≤ n ∨
  k = 0 ∧ n = 1 ∧ (old / 2 ^ 8 < max / 2 ^ 8 ∨ v % 2 ^ 8 ≤ max % 2 ^ 8) ∨
  k = 1 ∧ (v % 2 ^ (8 * n) < max / 2 ^ 8 ∨
    v % 2 ^ (8 * n) = max / 2 ^ 8 ∧ old % 2 ^ 8 ≤ max % 2 ^ 8) ∨
  2 ≤ k ∧ v % 2 ^ (8 * n) = 0

instance {max : ℕ} : Decidable (LanesLe old v k n max) := inferInstanceAs (Decidable (_ ∨ _))

theorem mergeLanes_le {max : ℕ} (hmax : max < 2 ^ 16) (hold : old ≤ max) (hv : v ≤ max)
    (hpos : 0 < n) (hle : k + n ≤ 4) : mergeLanes old v k n ≤ max ↔ LanesLe old v k n max := by
  have hcases : k < 4 ∧ n < 5 := by omega
  obtain ⟨hk, hn⟩ := hcases
  interval_cases k <;> interval_cases n <;> simp [mergeLanes, LanesLe] at * <;> omega

end Vml
