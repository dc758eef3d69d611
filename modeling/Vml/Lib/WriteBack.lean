import Mathlib.Data.List.Basic
import Mathlib.Logic.Function.Basic
import Mathlib.Logic.Nontrivial.Defs

/-!
# Write-back caches

What the processors see of a memory (`view`), and what has reached it (`ram`). A store changes the
view, and the memory follows when the line is cleaned, because somebody has asked for it or because
the cache has run out of space.

**What has been cleaned** stays in the memory until it is stored to, whatever else the cache does
(`ram_run`), and nothing but cleaning its line gets it there (`ram_run_iff`).
-/

namespace Vml

/-- A memory with a cache. -/
structure WriteBack (α β : Type*) where
  ram : α → β
  view : α → β

namespace WriteBack

variable {α β ι : Type*}

/-- What happens to a memory with a cache. -/
inductive Event (α β ι : Type*)
  | store (a : α) (b : β)
  | clean (line : ι)

/-- Nothing is stored at an address. -/
def Spares (a : α) (es : List (Event α β ι)) : Prop := ∀ b, .store a b ∉ es

variable [DecidableEq α] [DecidableEq ι] {line : α → ι}

/-- What comes after an event. -/
def next (line : α → ι) (s : WriteBack α β) : Event α β ι → WriteBack α β
  | .store a b => { s with view := Function.update s.view a b }
  | .clean l => { s with ram := fun a => if line a = l then s.view a else s.ram a }

/-- What comes after events. -/
def run (line : α → ι) (s : WriteBack α β) (es : List (Event α β ι)) : WriteBack α β :=
  es.foldl (next line) s

variable {s : WriteBack α β} {a : α} {e : Event α β ι} {es : List (Event α β ι)}

omit [DecidableEq α] [DecidableEq ι] in
theorem spares_cons : Spares a (e :: es) ↔ (∀ b, e ≠ .store a b) ∧ Spares a es := by
  simp only [Spares, List.mem_cons, not_or, forall_and, ne_comm (a := e), ne_eq]

theorem view_next (h : ∀ b, e ≠ .store a b) : (s.next line e).view a = s.view a := by
  cases e with
  | store a' b =>
      have hne : a ≠ a' := fun heq => h b (heq ▸ rfl)
      exact Function.update_of_ne hne ..
  | clean l => rfl

theorem ram_run_of_eq (heq : s.ram a = s.view a) (h : Spares a es) :
    (s.run line es).ram a = s.view a := by
  induction es generalizing s with
  | nil => exact heq
  | cons e es ih =>
      rw [spares_cons] at h
      have hview : (s.next line e).view a = s.view a := view_next h.1
      have hram : (s.next line e).ram a = s.view a := by
        cases e with
        | store a' b => exact heq
        | clean l =>
            simp only [next, heq]
            split_ifs <;> rfl
      exact (ih (hram.trans hview.symm) h.2).trans hview

/-- **A line that is cleaned** reaches the memory. -/
theorem ram_run (hclean : .clean (line a) ∈ es) (h : Spares a es) :
    (s.run line es).ram a = s.view a := by
  induction es generalizing s with
  | nil => exact absurd hclean List.not_mem_nil
  | cons e es ih =>
      rw [spares_cons] at h
      have hview : (s.next line e).view a = s.view a := view_next h.1
      obtain rfl | hmem := List.mem_cons.1 hclean
      · refine (ram_run_of_eq (s := s.next line (.clean (line a))) ?_ h.2).trans hview
        exact if_pos rfl
      · exact (ih hmem h.2).trans hview

theorem ram_run_of_not_mem (hclean : .clean (line a) ∉ es) : (s.run line es).ram a = s.ram a := by
  induction es generalizing s with
  | nil => rfl
  | cons e es ih =>
      rw [List.mem_cons, not_or] at hclean
      refine (ih hclean.2).trans ?_
      cases e with
      | store a' b => rfl
      | clean l => exact if_neg fun heq => hclean.1 (congrArg Event.clean heq)

/-- **What reaches the memory** of a cache that nothing is known of. -/
theorem ram_run_iff [Nontrivial β] (lines : List ι) (a : α) :
    (∀ s : WriteBack α β, (s.run line (lines.map .clean)).ram a = s.view a) ↔ line a ∈ lines := by
  refine ⟨fun h => ?_, fun h s => ram_run (List.mem_map_of_mem h) fun b hb => ?_⟩
  · by_contra hnot
    obtain ⟨x, y, hxy⟩ := exists_pair_ne β
    have hclean : Event.clean (line a) ∉ lines.map (Event.clean (α := α) (β := β)) := fun hmem => by
      obtain ⟨l, hl, heq⟩ := List.mem_map.1 hmem
      exact hnot (Event.clean.inj heq ▸ hl)
    have hstale := h ⟨fun _ => x, fun _ => y⟩
    rw [ram_run_of_not_mem hclean] at hstale
    exact hxy hstale
  · obtain ⟨l, -, heq⟩ := List.mem_map.1 hb
    exact absurd heq nofun

end WriteBack

end Vml
