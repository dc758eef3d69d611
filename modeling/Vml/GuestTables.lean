import Mathlib
import Vml.MsiTarget

/-!
# Tables in the memory of the guest

The guest keeps the tables of the ITS in its memory, entries of eight bytes one after another. An
entry is written by its eight bytes (`SimpleAS::write_bus`), and what the other entries read is as
before: those of the same table because they are at other places of it, and those of another table
because the two have no byte in common.

The bytes of a table are a set of addresses. Addresses wrap around, so no table is too high.
-/

namespace Vml

namespace GuestBus

variable {b b' : GuestBus} {addr addr' base : UInt64} {n : ℕ}

/-- The bytes of a table of `n` entries. -/
def table (base : UInt64) (n : ℕ) : Set UInt64 := {x | (x - base).toNat < 8 * n}

/-- The bytes of an entry. -/
def word (addr : UInt64) : Set UInt64 := table addr 1

theorem add_mem_word (addr : UInt64) {i : ℕ} (hi : i < 8) : addr + UInt64.ofNat i ∈ word addr := by
  have hplace : (UInt64.ofNat i).toNat = i :=
    UInt64.toNat_ofNat_of_lt' (by change i < 2 ^ 64; omega)
  have hoff : addr + UInt64.ofNat i - addr = UInt64.ofNat i := by
    rw [UInt64.add_comm, UInt64.add_sub_cancel]
  change (addr + UInt64.ofNat i - addr).toNat < 8 * 1
  rw [hoff, hplace]
  exact hi

/-! ## The entries of a table -/

/-- A byte of an entry is as far into the table as the entries before it and the bytes before it
in the entry. -/
theorem sub_base_of_mem_word {i x : UInt64} (hi : i.toNat < 2 ^ 60)
    (hx : x ∈ word (base + i * 8)) :
    (x - base).toNat = 8 * i.toNat + (x - (base + i * 8)).toNat := by
  have hlt : (x - (base + i * 8)).toNat < 8 * 1 := hx
  have hoff : (i * 8).toNat = 8 * i.toNat := by
    have h8 : (8 : UInt64).toNat = 8 := rfl
    rw [UInt64.toNat_mul, h8, Nat.mod_eq_of_lt (by omega), Nat.mul_comm]
  have hsum : x - base = i * 8 + (x - (base + i * 8)) := by grind
  rw [hsum, UInt64.toNat_add, hoff, Nat.mod_eq_of_lt (by omega)]

theorem word_subset_table {i : UInt64} (hi : i.toNat < n) (hn : n ≤ 2 ^ 60) :
    word (base + i * 8) ⊆ table base n := by
  intro x hx
  have hlt : (x - (base + i * 8)).toNat < 8 * 1 := hx
  change (x - base).toNat < 8 * n
  rw [sub_base_of_mem_word (Nat.lt_of_lt_of_le hi hn) hx]
  omega

theorem disjoint_words {i j : UInt64} (hi : i.toNat < 2 ^ 60) (hj : j.toNat < 2 ^ 60)
    (hne : i ≠ j) : Disjoint (word (base + i * 8)) (word (base + j * 8)) := by
  refine Set.disjoint_left.2 fun x hx hx' => hne ?_
  have hlt : (x - (base + i * 8)).toNat < 8 * 1 := hx
  have hlt' : (x - (base + j * 8)).toNat < 8 * 1 := hx'
  have heq := (sub_base_of_mem_word hi hx).symm.trans (sub_base_of_mem_word hj hx')
  rw [← UInt64.toNat_inj]
  omega

theorem disjoint_table_of_le {base' : UInt64} {n' : ℕ} (hle : base.toNat + 8 * n ≤ base'.toNat)
    (hfits : base'.toNat + 8 * n' ≤ 2 ^ 64) : Disjoint (table base n) (table base' n') := by
  refine Set.disjoint_left.2 fun x hx hx' => ?_
  have hlt : (x - base).toNat < 8 * n := hx
  have hlt' : (x - base').toNat < 8 * n' := hx'
  have hbound := x.toNat_lt
  have hbound' := base'.toNat_lt
  rw [UInt64.toNat_sub] at hlt hlt'
  omega

/-! ## Writes -/

theorem read64_congr (hreadable : b'.readable addr 8 = b.readable addr 8)
    (hmem : ∀ x ∈ word addr, b'.mem x = b.mem x) : b'.read64 addr = b.read64 addr := by
  have hbytes : (List.range 8).map (fun i => b'.mem (addr + UInt64.ofNat i)) =
      (List.range 8).map fun i => b.mem (addr + UInt64.ofNat i) := by
    apply List.map_congr_left
    intro i hi
    exact hmem _ (add_mem_word addr (List.mem_range.1 hi))
  rw [read64, read64, readBus, readBus, hreadable, hbytes]

theorem readable_write64 (b : GuestBus) (addr value : UInt64) :
    (b.write64 addr value).readable = b.readable := by
  rw [write64]
  split <;> rfl

theorem writable_write64 (b : GuestBus) (addr value : UInt64) :
    (b.write64 addr value).writable = b.writable := by
  rw [write64]
  split <;> rfl

theorem accessible_write64 {value : UInt64} :
    (b.write64 addr' value).Accessible addr ↔ b.Accessible addr := by
  rw [Accessible, Accessible, readable_write64, writable_write64]

/-- **The frame.** An entry that has no byte in common with the one that is written is as it was. -/
theorem read64_write64_of_disjoint (h : Disjoint (word addr) (word addr')) (value : UInt64) :
    (b.write64 addr' value).read64 addr = b.read64 addr := by
  refine read64_congr (by rw [readable_write64]) fun x hx => ?_
  have hout : ¬x - addr' < 8 := by
    intro hlt
    rw [UInt64.lt_iff_toNat_lt] at hlt
    exact Set.disjoint_left.1 h hx hlt
  rw [write64]
  split
  · dsimp only
    rw [if_neg hout]
  · rfl

theorem read64_write64_entry {i j : UInt64} (hi : i.toNat < 2 ^ 60) (hj : j.toNat < 2 ^ 60)
    (hne : i ≠ j) (value : UInt64) :
    (b.write64 (base + j * 8) value).read64 (base + i * 8) = b.read64 (base + i * 8) :=
  read64_write64_of_disjoint (disjoint_words hi hj hne) value

end GuestBus

end Vml
