import Mathlib.Data.Nat.Digits.Lemmas
import Vml.Lib.ByteCopy

/-!
# Little-endian numbers

The number that some bytes stand for, the lowest first (`leNat`), and the bytes of a number
(`leByte`). The bytes of a number stand for its remainder (`leNat_leByte`), and what stands after
the first bytes is a multiple of a power (`leNat_append`).
-/

namespace Vml

/-- The number that the bytes stand for. -/
def leNat (bytes : List UInt8) : ℕ := Nat.ofDigits 256 (bytes.map UInt8.toNat)

/-- The byte of a number at a place. -/
def leByte (v i : ℕ) : UInt8 := UInt8.ofNat (v / 256 ^ i)

variable {bytes bytes' : List UInt8} {v n : ℕ}

theorem leNat_append : leNat (bytes ++ bytes') = leNat bytes + 256 ^ bytes.length * leNat bytes' := by
  rw [leNat, List.map_append, Nat.ofDigits_append, List.length_map]
  rfl

theorem leNat_lt (bytes : List UInt8) : leNat bytes < 256 ^ bytes.length := by
  have hlt : ∀ d ∈ bytes.map UInt8.toNat, d < 256 := by
    intro d hd
    obtain ⟨byte, -, rfl⟩ := List.mem_map.1 hd
    exact byte.toNat_lt
  have hbound := Nat.ofDigits_lt_base_pow_length (by decide : 1 < 256) hlt
  rwa [List.length_map] at hbound

theorem toNat_leByte (v i : ℕ) : (leByte v i).toNat = v / 256 ^ i % 256 := UInt8.toNat_ofNat ..

/-- **The bytes of a number** stand for what they can hold of it. -/
theorem leNat_leByte (v n : ℕ) : leNat ((List.range n).map (leByte v)) = v % 256 ^ n := by
  induction n with
  | zero => rw [pow_zero, Nat.mod_one]; rfl
  | succ n ih =>
    have hlast : leNat [leByte v n] = v / 256 ^ n % 256 := by
      rw [leNat, List.map_singleton, Nat.ofDigits_singleton, toNat_leByte]
    rw [List.range_succ, List.map_append, List.map_singleton, leNat_append, ih, hlast,
      List.length_map, List.length_range, Nat.mod_pow_succ]

/-! ## In a memory -/

/-- The number in `n` bytes of a memory from an address on. -/
def loadLe (m : Mem) (a n : ℕ) : ℕ := leNat (bytesAt m (a + ·) n)

/-- The memory with `n` bytes from an address on replaced by those of a number. -/
def storeLe (m : Mem) (a n v : ℕ) : Mem := fun b =>
  if a ≤ b ∧ b < a + n then leByte v (b - a) else m b

variable {m : Mem} {a : ℕ}

theorem loadLe_lt (m : Mem) (a n : ℕ) : loadLe m a n < 256 ^ n := by
  have hlt := leNat_lt (bytesAt m (a + ·) n)
  rwa [length_bytesAt] at hlt

theorem loadLe_add (m : Mem) (a n k : ℕ) :
    loadLe m a (n + k) = loadLe m a n + 256 ^ n * loadLe m (a + n) k := by
  have hloc : (fun i => a + (n + i)) = (a + n + ·) := funext fun i => (Nat.add_assoc a n i).symm
  rw [loadLe, bytesAt_add, leNat_append, length_bytesAt, hloc]
  rfl

theorem loadLe_congr {m' : Mem} {b : ℕ} (h : ∀ i < n, m' (b + i) = m (a + i)) :
    loadLe m' b n = loadLe m a n := by
  have hbytes : bytesAt m' (b + ·) n = bytesAt m (a + ·) n :=
    List.map_congr_left fun i hi => h i (List.mem_range.1 hi)
  rw [loadLe, hbytes]
  rfl

/-- **What is stored is loaded**, as far as it fits. -/
theorem loadLe_storeLe (m : Mem) (a n v : ℕ) : loadLe (storeLe m a n v) a n = v % 256 ^ n := by
  have hbytes : bytesAt (storeLe m a n v) (a + ·) n = (List.range n).map (leByte v) := by
    apply List.map_congr_left
    intro i hi
    have hlt := List.mem_range.1 hi
    rw [storeLe, if_pos ⟨Nat.le_add_right a i, Nat.add_lt_add_left hlt a⟩, Nat.add_sub_cancel_left]
  rw [loadLe, hbytes, leNat_leByte]

theorem storeLe_of_outside {b : ℕ} (h : b < a ∨ a + n ≤ b) : storeLe m a n v b = m b := by
  refine if_neg ?_
  omega

end Vml
