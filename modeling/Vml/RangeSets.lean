import Mathlib
import Vml.Lib.Run
import Vml.RangeMap

/-!
# Ranges as sets of integers

What a `RangeMap` is for: it keeps ranges that have no integer in common, and finds one that has an
integer in common with a given range. The comparator compares the ends of the ranges as they are
computed, so this holds of ranges that are not empty and end below the top of the address space.

**Own range.** A node is found under its own range exactly if the end of the range, as computed, is
above its beginning (`lt_endAddr_of_lookup`). A node that is not is lost once it is in the map.

**Refusals.** A range that wraps is refused, and rightly, if a node ends above its beginning and
begins below its end as computed.

Main results: `RangeMap.disjoint_ranges_iff`, `RangeMap.top_page_twice`.
-/

namespace Vml

/-- The integers of a range. -/
def Range.ints (r : Range) : Set ℕ := Set.Ico r.begin.toNat (r.begin.toNat + r.size.toNat)

/-- A `RangeNode` with nothing but its range. -/
instance : RangeNode Range := ⟨fun r => r⟩

/-- A call to a `RangeMap`. -/
inductive RangeOp (ν : Type*)
  | insert (entry : ν)
  | lookup (r : Range)
  | remove (r : Range)
  | clear

namespace RangeMap

variable {ν : Type*} [RangeNode ν] {m : RangeMap ν} {r : Range} {e : ν}

/-- The map after the call. -/
def exec (m : RangeMap ν) : RangeOp ν → RangeMap ν
  | .insert entry => (m.insert entry).1
  | .lookup _ => m
  | .remove r => (m.remove r).1
  | .clear => m.clear

/-- A node has an integer in common with the range. -/
def Common (r : Range) (e : ν) : Prop := ¬Disjoint (RangeNode.range e).ints r.ints

/-- What is returned is a node that has an integer in common with the range, if there is one. -/
def Finds (m : RangeMap ν) (r : Range) : Option ν → Prop
  | some e => e ∈ m.set ∧ Common r e
  | none => ∀ e ∈ m.set, ¬Common r e

/-- The call returns what it should, and the nodes that it neither adds nor takes out stay. -/
def Answers (m : RangeMap ν) : RangeOp ν → Prop
  | .insert entry =>
      ((m.insert entry).2 = true ↔ ∀ e ∈ m.set, ¬Common (RangeNode.range entry) e) ∧
        (m.insert entry).1.set.Perm (if (m.insert entry).2 then entry :: m.set else m.set)
  | .lookup r => m.Finds r (m.lookup r)
  | .remove r => m.Finds r (m.remove r).2 ∧
      m.set.Perm ((m.remove r).2.toList ++ (m.remove r).1.set)
  | .clear => m.clear.set = []

/-- The nodes have no integer in common, and each is found under its range. -/
structure Kept (m : RangeMap ν) : Prop where
  disjoint : m.set.Pairwise fun a b => Disjoint (RangeNode.range a).ints (RangeNode.range b).ints
  reachable : ∀ e ∈ m.set, m.lookup (RangeNode.range e) = some e

/-- The call is answered, and leaves nodes that have no integer in common and are found. -/
def Sound (m : RangeMap ν) (op : RangeOp ν) : Prop := m.Answers op ∧ (m.exec op).Kept

/-- The range is not empty and ends below the top; or it is empty and lies within no node; or it
wraps, and no node ends above its beginning unless one also begins below its end as computed. -/
def Searchable (m : RangeMap ν) (r : Range) : Prop :=
  (r.size = 0 → ∀ e ∈ m.set, Meets r e = false) ∧
    (¬r.Bounded → ∀ e ∈ m.set, r.begin.toNat < (RangeNode.range e).endAddr.toNat →
      ∃ b ∈ m.set, Meets r b = true)

/-- The range of a node is not empty, and ends below the top or meets a node that is there. -/
def Admissible (m : RangeMap ν) : RangeOp ν → Prop
  | .insert entry => 0 < (RangeNode.range entry).size.toNat ∧
      ((RangeNode.range entry).Bounded ∨ ∃ b ∈ m.set, Meets (RangeNode.range entry) b = true)
  | .lookup r => m.Searchable r
  | .remove r => m.Searchable r
  | .clear => True

/-- The nodes are in order, and none is empty. -/
structure Filled (m : RangeMap ν) : Prop where
  inOrder : m.InOrder
  pos : ∀ e ∈ m.set, 0 < (RangeNode.range e).size.toNat

/-! ## Integers in common -/

theorem common_iff : Common r e ↔
    (0 < r.size.toNat ∧ 0 < (RangeNode.range e).size.toNat) ∧
      r.begin.toNat < (RangeNode.range e).begin.toNat + (RangeNode.range e).size.toNat ∧
      (RangeNode.range e).begin.toNat < r.begin.toNat + r.size.toNat := by
  rw [Common, Range.ints, Range.ints, Set.Ico_disjoint_Ico]
  omega

theorem Filled.common_of_meets (h : m.Filled) (he : e ∈ m.set) (hr : 0 < r.size.toNat)
    (hmeets : Meets r e = true) : Common r e := by
  rw [Meets, decide_eq_true_iff, Range.toNat_endAddr (h.inOrder.bounded e he)] at hmeets
  have hend : r.endAddr.toNat ≤ r.begin.toNat + r.size.toNat := by
    rw [Range.endAddr, UInt64.toNat_add]
    exact Nat.mod_le _ _
  have hpos := h.pos e he
  rw [common_iff]
  omega

theorem Filled.meets_of_common (h : m.Filled) (he : e ∈ m.set) (hr : r.Bounded)
    (hcommon : Common r e) : Meets r e = true := by
  rw [common_iff] at hcommon
  rw [Meets, decide_eq_true_iff, Range.toNat_endAddr (h.inOrder.bounded e he),
    Range.toNat_endAddr hr]
  exact hcommon.2

/-! ## Searching -/

/-- **A search finds what it should exactly if the range is searchable.** -/
theorem Filled.finds_iff (h : m.Filled) : m.Finds r (m.lookup r) ↔ m.Searchable r := by
  rw [h.inOrder.lookup_eq]
  constructor
  · intro hfinds
    refine ⟨fun hempty e he => ?_, fun hwraps e he hlt => ?_⟩
    · -- An empty range has no integer in common with any node, so nothing was found.
      have hnot : ∀ b : ν, ¬Common r b := by
        intro b hb
        rw [common_iff, hempty] at hb
        exact absurd hb.1.1 (by decide)
      cases hfound : m.set.find? (Meets r) with
      | none => simpa using List.find?_eq_none.1 hfound e he
      | some b =>
          rw [hfound] at hfinds
          exact absurd hfinds.2 (hnot b)
    · have hcommon : Common r e := by
        rw [Range.toNat_endAddr (h.inOrder.bounded e he)] at hlt
        rw [Range.Bounded] at hwraps
        have hpos := h.pos e he
        have hb := (RangeNode.range e).begin.toNat_lt
        have hr := r.begin.toNat_lt
        rw [common_iff]
        omega
      cases hfound : m.set.find? (Meets r) with
      | none =>
          rw [hfound] at hfinds
          exact absurd hcommon (hfinds e he)
      | some b => exact ⟨b, List.mem_of_find?_eq_some hfound, List.find?_some hfound⟩
  · rintro ⟨hempty, hwraps⟩
    cases hfound : m.set.find? (Meets r) with
    | none =>
        have hnone := List.find?_eq_none.1 hfound
        intro e he hcommon
        by_cases hr : r.Bounded
        · exact hnone e he (h.meets_of_common he hr hcommon)
        · have hlt := (common_iff.1 hcommon).2.1
          rw [← Range.toNat_endAddr (h.inOrder.bounded e he)] at hlt
          obtain ⟨b, hb, hmeets⟩ := hwraps hr e he hlt
          exact hnone b hb hmeets
    | some e =>
        have he := List.mem_of_find?_eq_some hfound
        have hmeets := List.find?_some hfound
        have hr : 0 < r.size.toNat := by
          rw [Nat.pos_iff_ne_zero]
          intro hzero
          have hnot := hempty (UInt64.toNat_inj.1 hzero) e he
          rw [hmeets] at hnot
          exact absurd hnot (by decide)
        exact ⟨he, h.common_of_meets he hr hmeets⟩

/-- A node that is found under its own range ends above its beginning, as computed. -/
theorem lt_endAddr_of_lookup (h : m.lookup (RangeNode.range e) = some e) :
    (RangeNode.range e).begin < (RangeNode.range e).endAddr := by
  rw [lookup, SearchSet.find] at h
  cases hfirst : m.set.find? fun b => !rangeCompare (RangeNode.range b) (RangeNode.range e) with
  | none =>
      rw [hfirst] at h
      cases h
  | some b =>
      rw [hfirst] at h
      dsimp only at h
      split_ifs at h
      cases h
      have hbelow := List.find?_some hfirst
      rw [Bool.not_eq_true', rangeCompare_eq_false_iff] at hbelow
      rwa [UInt64.lt_iff_toNat_lt]

/-- The nodes have no integer in common, and each is found under its range. -/
theorem Filled.kept (h : m.Filled) : m.Kept where
  disjoint := by
    refine h.inOrder.pairwise.imp_of_mem fun {a b} ha _ hab => ?_
    rw [Range.toNat_endAddr (h.inOrder.bounded a ha)] at hab
    rw [Range.ints, Range.ints, Set.Ico_disjoint_Ico]
    omega
  reachable := by
    intro e he
    have hbounded := h.inOrder.bounded e he
    have hcommon : Common (RangeNode.range e) e := by
      have hpos := h.pos e he
      rw [common_iff]
      omega
    have hsearch : m.Searchable (RangeNode.range e) := by
      refine ⟨fun hempty => ?_, fun hwraps => absurd hbounded hwraps⟩
      have hpos := h.pos e he
      rw [hempty] at hpos
      exact absurd hpos (by decide)
    have hfinds := h.finds_iff.2 hsearch
    cases hfound : m.lookup (RangeNode.range e) with
    | none =>
        rw [hfound] at hfinds
        exact absurd hcommon (hfinds e he)
    | some b =>
        rw [hfound] at hfinds
        obtain ⟨hb, hboth⟩ := hfinds
        have hapart := h.inOrder.apart hb he
        rw [common_iff] at hboth
        rw [Apart, Range.toNat_endAddr hbounded,
          Range.toNat_endAddr (h.inOrder.bounded b hb)] at hapart
        rw [hapart.resolve_right (by omega)]

/-! ## Calls -/

theorem meets_eq_false_of_between {pre post : List ν} (hset : m.set = pre ++ post)
    (hpre : ∀ b ∈ pre, (RangeNode.range b).endAddr.toNat ≤ (RangeNode.range e).begin.toNat)
    (hpost : ∀ b ∈ post, (RangeNode.range e).endAddr.toNat ≤ (RangeNode.range b).begin.toNat) :
    ∀ b ∈ m.set, Meets (RangeNode.range e) b = false := by
  intro b hb
  rw [hset, List.mem_append] at hb
  rw [Meets, decide_eq_false_iff_not]
  rcases hb with hb | hb
  · have hle := hpre b hb
    omega
  · have hle := hpost b hb
    omega

/-- A node that is not empty and ends below the top leaves such nodes, in order. -/
theorem Filled.insert (h : m.Filled) (hpos : 0 < (RangeNode.range e).size.toNat)
    (hbounded : (RangeNode.range e).Bounded) : (m.insert e).1.Filled := by
  refine ⟨h.inOrder.insert hbounded, fun b hb => ?_⟩
  rcases h.inOrder.insert_cases e with ⟨pre, post, hset, heq, -, -⟩ | ⟨-, heq⟩
  · rw [heq] at hb
    rcases List.mem_append.1 hb with hb | hb
    · exact h.pos b (by rw [hset]; exact List.mem_append_left _ hb)
    · rcases List.mem_cons.1 hb with rfl | hb
      · exact hpos
      · exact h.pos b (by rw [hset]; exact List.mem_append_right _ hb)
  · rw [heq] at hb
    exact h.pos b hb

/-- **An insertion is answered exactly if the node is admissible.** -/
theorem Filled.sound_insert_iff (h : m.Filled) :
    m.Sound (.insert e) ↔ m.Admissible (.insert e) := by
  rcases h.inOrder.insert_cases e with ⟨pre, post, hset, heq, hpre, hpost⟩ | ⟨⟨b, hb, hmeets⟩, heq⟩
  · -- The node is put between the others.
    have hapart := meets_eq_false_of_between hset hpre hpost
    constructor
    · rintro ⟨-, hkept⟩
      have hmem : e ∈ (m.exec (.insert e)).set := by
        rw [exec, heq]
        simp
      obtain ⟨hbounded, hpos⟩ := Range.lt_endAddr_iff.1
        (lt_endAddr_of_lookup (hkept.reachable e hmem))
      exact ⟨hpos, .inl hbounded⟩
    · rintro ⟨hpos, hbounded⟩
      have hbounded : (RangeNode.range e).Bounded := by
        refine hbounded.resolve_right ?_
        rintro ⟨b, hb, hmeets⟩
        rw [hapart b hb] at hmeets
        exact absurd hmeets (by decide)
      have hnone : ∀ b ∈ m.set, ¬Common (RangeNode.range e) b := by
        intro b hb hcommon
        have hmeets := h.meets_of_common hb hbounded hcommon
        rw [hapart b hb] at hmeets
        exact absurd hmeets (by decide)
      refine ⟨⟨?_, ?_⟩, (h.insert hpos hbounded).kept⟩
      · rw [heq]
        exact iff_of_true rfl hnone
      · rw [heq, hset]
        exact List.perm_middle
  · -- It is refused, and the map stays.
    have hsound : m.Sound (.insert e) ↔ ¬∀ b ∈ m.set, ¬Common (RangeNode.range e) b := by
      rw [Sound, Answers, exec, heq]
      simp [h.kept]
    rw [hsound]
    constructor
    · intro hall
      push Not at hall
      obtain ⟨c, -, hcommon⟩ := hall
      exact ⟨(common_iff.1 hcommon).1.1, .inr ⟨b, hb, hmeets⟩⟩
    · rintro ⟨hpos, -⟩ hnone
      exact hnone b hb (h.common_of_meets hb hpos hmeets)

theorem Filled.remove (h : m.Filled) (r : Range) : (m.remove r).1.Filled := by
  refine ⟨h.inOrder.remove r, fun e he => ?_⟩
  rcases m.remove_cases r with ⟨-, heq⟩ | ⟨b, pre, post, -, hset, heq⟩
  · rw [heq] at he
    exact h.pos e he
  · rw [heq] at he
    refine h.pos e ?_
    rw [hset]
    rcases List.mem_append.1 he with he | he
    · exact List.mem_append_left _ he
    · exact List.mem_append_right _ (List.mem_cons_of_mem _ he)

theorem perm_remove (m : RangeMap ν) (r : Range) :
    m.set.Perm ((m.remove r).2.toList ++ (m.remove r).1.set) := by
  rcases m.remove_cases r with ⟨hnone, heq⟩ | ⟨e, pre, post, hsome, hset, heq⟩
  · rw [heq, show (m.remove r).2 = none from hnone]
    exact .refl _
  · rw [heq, show (m.remove r).2 = some e from hsome, hset]
    exact List.perm_middle

/-- **A call is answered exactly if it is admissible.** -/
theorem Filled.sound_iff (h : m.Filled) (op : RangeOp ν) : m.Sound op ↔ m.Admissible op := by
  cases op with
  | insert e => exact h.sound_insert_iff
  | lookup r => exact (and_iff_left h.kept).trans h.finds_iff
  | remove r =>
      have hkept : (m.exec (.remove r)).Kept := (h.remove r).kept
      exact (and_iff_left hkept).trans ((and_iff_left (m.perm_remove r)).trans h.finds_iff)
  | clear => exact iff_of_true ⟨rfl, ⟨.nil, nofun⟩⟩ trivial

/-- Admissible calls leave nodes that are in order and not empty. -/
theorem Filled.exec (h : m.Filled) {op : RangeOp ν} (hop : m.Admissible op) :
    (m.exec op).Filled := by
  cases op with
  | lookup r => exact h
  | remove r => exact h.remove r
  | clear => exact ⟨inOrder_clear, nofun⟩
  | insert e =>
      obtain ⟨hpos, hbounded⟩ := hop
      rcases hbounded with hbounded | ⟨b, hb, hmeets⟩
      · exact h.insert hpos hbounded
      · -- The node meets one, so it is refused.
        rw [RangeMap.exec]
        rcases h.inOrder.insert_cases e with ⟨pre, post, hset, -, hpre, hpost⟩ | ⟨-, heq⟩
        · rw [meets_eq_false_of_between hset hpre hpost b hb] at hmeets
          exact absurd hmeets (by decide)
        · rw [heq]
          exact h

/-- **The ranges of a map stay disjoint, and every call is answered**, exactly if every call is
admissible. -/
theorem disjoint_ranges_iff (ops : List (RangeOp ν)) :
    AllOk exec Sound (⟨[]⟩ : RangeMap ν) ops ↔ AllOk exec Admissible ⟨[]⟩ ops :=
  allOk_congr (fun _ _ (h : Filled _) hop => h.exec ((h.sound_iff _).1 hop))
    (fun _ op h => h.sound_iff op) ⟨inOrder_clear, nofun⟩

/-- The last page of the address space. -/
def topPage : Range := ⟨0xFFFFFFFFFFFFF000, 0x1000⟩

/-- **The last page is inserted twice**, and found neither time. -/
theorem top_page_twice :
    let m : RangeMap Range := ([.insert topPage, .insert topPage].foldl exec ⟨[]⟩)
    m.set = [topPage, topPage] ∧ ¬Disjoint topPage.ints topPage.ints ∧
      m.lookup topPage = none ∧
      ¬AllOk exec Sound (⟨[]⟩ : RangeMap Range) [.insert topPage, .insert topPage] := by
  refine ⟨by decide +kernel, ?_, by decide +kernel, fun hall => ?_⟩
  · rw [Range.ints, Set.Ico_disjoint_Ico]
    decide +kernel
  · have hfirst := (disjoint_ranges_iff _).1 hall
    obtain hbounded | ⟨b, hb, -⟩ := hfirst.1.2
    · exact absurd hbounded (by decide)
    · cases hb

end RangeMap

end Vml
