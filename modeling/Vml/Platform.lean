import Mathlib.Tactic

/-!
# What the platform layer provides

The error codes of `platform/errno.hpp`, the integer limits the sources compare against, and the
signal of `platform/signal.hpp`. Fields and locals of a fixed-width type are the corresponding
`UIntN`; `size_t` values and host pointers are natural numbers, reduced modulo `2 ^ 64` where the
source relies on or could reach the wrap.
-/

namespace Vml

/-- `enum class Errno`. -/
inductive Errno
  | none
  | perm
  | noent
  | again
  | nomem
  | rbusy
  | exist
  | inval
  | badr
  | notrecoverable
  deriving DecidableEq, Repr

/-- `Platform::Signal`. -/
structure Signal where
  signaled : Bool := false
  deriving DecidableEq, Repr

namespace Signal

/-- `sig`. -/
def sig (_ : Signal) : Signal := { signaled := true }

/-- `wait`, which has no result while it blocks. -/
def wait (s : Signal) : Option Signal := if s.signaled then some { signaled := false } else none

end Signal

/-- `UINT16_MAX`. -/
abbrev uint16Max : UInt16 := 0xFFFF

/-- `UINT32_MAX`. -/
abbrev uint32Max : UInt32 := 0xFFFFFFFF

/-- `size_t` addition. -/
def sizeAdd (a b : ℕ) : ℕ := (a + b) % 2 ^ 64

/-- `size_t` subtraction. -/
def sizeSub (a b : ℕ) : ℕ := (a + (2 ^ 64 - b)) % 2 ^ 64

theorem sizeAdd_of_lt {a b : ℕ} (h : a + b < 2 ^ 64) : sizeAdd a b = a + b :=
  Nat.mod_eq_of_lt h

theorem sizeSub_of_le {a b : ℕ} (hle : b ≤ a) (hlt : a < 2 ^ 64) : sizeSub a b = a - b := by
  have hab : a + (2 ^ 64 - b) = (a - b) + 2 ^ 64 := by omega
  rw [sizeSub, hab, Nat.add_mod_right, Nat.mod_eq_of_lt (by omega)]

theorem toNat_succ16 {a b : UInt16} (h : a.toNat < b.toNat) : (a + 1).toNat = a.toNat + 1 := by
  have := b.toNat_lt
  rw [UInt16.toNat_add, UInt16.toNat_one, Nat.mod_eq_of_lt (by omega)]

end Vml
