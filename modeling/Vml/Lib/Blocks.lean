import Mathlib.Data.List.Basic
import Mathlib.Tactic.TypeStar

/-!
# Tables of blocks

Blocks of entries are put into a table where it has nothing, and taken out again, in any order. What
is in the table is what has been there at first and the blocks that are held (`Holding`): a block
that is put in takes the place of nothing (`Holding.put`), and one that is taken out leaves the
others as they are (`Holding.clear`).
-/

namespace Vml

/-- Entries in a row. -/
structure Block (α : Type*) where
  start : ℕ
  size : ℕ
  entry : ℕ → α

/-- The table without the entries of a range. -/
def clearRange {α : Type*} (start size : ℕ) (t : ℕ → Option α) : ℕ → Option α := fun q =>
  if start ≤ q ∧ q < start + size then none else t q

namespace Block

variable {α : Type*}

def Covers (b : Block α) (q : ℕ) : Prop := b.start ≤ q ∧ q < b.start + b.size

instance (b : Block α) (q : ℕ) : Decidable (b.Covers q) := inferInstanceAs (Decidable (_ ∧ _))

/-- The table with the entries of the block. -/
def put (b : Block α) (t : ℕ → Option α) : ℕ → Option α := fun q =>
  if b.Covers q then some (b.entry (q - b.start)) else t q

end Block

variable {α : Type*} {base t : ℕ → Option α} {b : Block α} {bs l₁ l₂ : List (Block α)} {q : ℕ}

theorem clearRange_of_covers (h : b.Covers q) : clearRange b.start b.size t q = none := if_pos h

theorem clearRange_of_not_covers (h : ¬b.Covers q) : clearRange b.start b.size t q = t q := if_neg h

theorem clearRange_put (hfree : ∀ q, b.Covers q → t q = none) :
    clearRange b.start b.size (b.put t) = t := by
  funext q
  by_cases hcovers : b.Covers q
  · rw [clearRange_of_covers hcovers, hfree q hcovers]
  · rw [clearRange_of_not_covers hcovers, Block.put, if_neg hcovers]

/-- The table is what it was at first, and has the blocks where there was nothing. -/
structure Holding (base t : ℕ → Option α) (bs : List (Block α)) : Prop where
  free : ∀ b ∈ bs, ∀ q, b.Covers q → base q = none
  held : ∀ b ∈ bs, ∀ q, b.Covers q → t q = some (b.entry (q - b.start))
  apart : bs.Pairwise fun b c => ∀ q, b.Covers q → ¬c.Covers q
  rest : ∀ q, (∀ b ∈ bs, ¬b.Covers q) → t q = base q

namespace Holding

theorem nil (base : ℕ → Option α) : Holding base base [] := by
  constructor <;> simp

theorem eq_base (h : Holding base t []) : t = base := by
  funext q
  exact h.rest q (by simp)

theorem of_base (h : Holding base t bs) {x : α} (hq : base q = some x) : t q = some x := by
  rw [h.rest q, hq]
  intro b hb hcovers
  rw [h.free b hb q hcovers] at hq
  cases hq

theorem put (h : Holding base t bs) (hfree : ∀ q, b.Covers q → t q = none) :
    Holding base (b.put t) (b :: bs) := by
  have hapart : ∀ c ∈ bs, ∀ q, b.Covers q → ¬c.Covers q := by
    intro c hc q hb hcovers
    have hheld := h.held c hc q hcovers
    rw [hfree q hb] at hheld
    cases hheld
  constructor
  · intro c hc q hcovers
    rcases List.mem_cons.1 hc with rfl | hc
    · rw [← h.rest q fun c' hc' => hapart c' hc' q hcovers]
      exact hfree q hcovers
    · exact h.free c hc q hcovers
  · intro c hc q hcovers
    rcases List.mem_cons.1 hc with rfl | hc
    · exact if_pos hcovers
    · rw [Block.put, if_neg fun hb => hapart c hc q hb hcovers]
      exact h.held c hc q hcovers
  · exact List.pairwise_cons.2 ⟨hapart, h.apart⟩
  · intro q hq
    rw [Block.put, if_neg (hq b List.mem_cons_self)]
    exact h.rest q fun c hc => hq c (List.mem_cons_of_mem b hc)

/-- **A block is taken out**, and the others stay as they are. -/
theorem clear (h : Holding base t (l₁ ++ b :: l₂)) :
    Holding base (clearRange b.start b.size t) (l₁ ++ l₂) := by
  have hapart : ∀ c ∈ l₁ ++ l₂, ∀ q, c.Covers q → ¬b.Covers q := by
    intro c hc q hcovers hb
    obtain ⟨-, htail, hbetween⟩ := List.pairwise_append.1 h.apart
    rcases List.mem_append.1 hc with hc | hc
    · exact hbetween c hc b List.mem_cons_self q hcovers hb
    · exact (List.pairwise_cons.1 htail).1 c hc q hb hcovers
  have hmem : ∀ c ∈ l₁ ++ l₂, c ∈ l₁ ++ b :: l₂ := by
    intro c hc
    rcases List.mem_append.1 hc with hc | hc
    · exact List.mem_append_left _ hc
    · exact List.mem_append_right _ (List.mem_cons_of_mem b hc)
  constructor
  · exact fun c hc => h.free c (hmem c hc)
  · intro c hc q hcovers
    rw [clearRange_of_not_covers (hapart c hc q hcovers)]
    exact h.held c (hmem c hc) q hcovers
  · exact h.apart.sublist ((List.Sublist.refl l₁).append (List.sublist_cons_self b l₂))
  · intro q hq
    by_cases hb : b.Covers q
    · rw [clearRange_of_covers hb]
      exact (h.free b (List.mem_append_right l₁ List.mem_cons_self) q hb).symm
    · rw [clearRange_of_not_covers hb]
      refine h.rest q fun c hc => ?_
      rcases List.mem_append.1 hc with hc | hc
      · exact hq c (List.mem_append_left l₂ hc)
      · rcases List.mem_cons.1 hc with rfl | hc
        · exact hb
        · exact hq c (List.mem_append_right l₁ hc)

end Holding

end Vml
