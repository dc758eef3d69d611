import Vml.Lib.SearchSet
import Vml.Platform

/-!
# Maps from ranges of addresses

`rangemap.hpp`: a `std::set` of nodes with a comparator that takes ranges which intersect for
equivalent, so that a search for a range finds a node that it overlaps. The type of the addresses is
`uint64`, and the end of a range is computed in it.

* `rangeCompare_eq_true_iff`: one range is before another if its end, as computed, is not above the
  other's beginning.
* `RangeMap.InOrder`: the ranges of the nodes end below the top of the address space, and each ends
  where the next begins or before.
-/

namespace Vml

/-- `Range<uint64>`. -/
structure Range where
  begin : UInt64
  size : UInt64
  deriving DecidableEq, Repr

namespace Range

/-- `end`. -/
def endAddr (r : Range) : UInt64 := r.begin + r.size

/-- `empty`. -/
def empty (r : Range) : Bool := r.size == 0

/-- `intersect`. -/
def intersect (r r' : Range) : Bool :=
  !r.empty && !r'.empty && decide (r'.begin < r.endAddr) && decide (r.begin < r'.endAddr)

/-- `operator<`. -/
def before (r r' : Range) : Bool := decide (r.endAddr ≤ r'.begin)

/-- `last`. -/
def last (r : Range) : UInt64 := if r.empty then r.begin else r.begin + r.size - 1

/-- `contains`, of a value. -/
def containsVal (r : Range) (val : UInt64) : Bool :=
  if r.empty then false else decide (r.begin ≤ val) && decide (val < r.endAddr)

/-- `contains`, of a range. -/
def contains (r r' : Range) : Bool :=
  !r'.empty && r.containsVal r'.begin && r.containsVal r'.last

end Range

/-- `Range_compare`. -/
def rangeCompare (a b : Range) : Bool := if a.intersect b then false else a.before b

/-- Something that is stored under a range. -/
class RangeNode (ν : Type*) where
  range : ν → Range

/-- `RangeMap`: the nodes of the set, in order. -/
structure RangeMap (ν : Type*) where
  set : List ν := []
  deriving DecidableEq, Repr

namespace RangeMap

variable {ν : Type*} [RangeNode ν]

/-- `insert`. -/
def insert (m : RangeMap ν) (entry : ν) : RangeMap ν × Bool :=
  let r := SearchSet.insert RangeNode.range rangeCompare m.set entry
  (⟨r.1⟩, r.2)

/-- `lookup`. -/
def lookup (m : RangeMap ν) (r : Range) : Option ν :=
  SearchSet.find RangeNode.range rangeCompare m.set r

/-- `remove`. -/
def remove (m : RangeMap ν) (r : Range) : RangeMap ν × Option ν :=
  (⟨SearchSet.remove RangeNode.range rangeCompare m.set r⟩, m.lookup r)

/-- `clear`. -/
def clear (_ : RangeMap ν) : RangeMap ν := ⟨[]⟩

/-- What a search for the range finds does not depend on the shape of the tree. -/
def Determined (m : RangeMap ν) (r : Range) : Prop :=
  SearchSet.Partitioned RangeNode.range rangeCompare m.set r

end RangeMap

/-! ## The comparator -/

namespace Range

/-- The range ends below the top of the address space. -/
def Bounded (r : Range) : Prop := r.begin.toNat + r.size.toNat < 2 ^ 64

instance (r : Range) : Decidable r.Bounded := inferInstanceAs (Decidable (_ < _))

variable {r r' : Range}

theorem toNat_endAddr (h : r.Bounded) : r.endAddr.toNat = r.begin.toNat + r.size.toNat := by
  rw [endAddr, UInt64.toNat_add, Nat.mod_eq_of_lt h]

theorem lt_endAddr_iff : r.begin < r.endAddr ↔ r.Bounded ∧ 0 < r.size.toNat := by
  have hb := r.begin.toNat_lt
  have hs := r.size.toNat_lt
  rw [UInt64.lt_iff_toNat_lt, endAddr, UInt64.toNat_add, Bounded]
  omega

/-- The range holds all the addresses from `a` up to `a + n`. -/
def Encloses (r : Range) (a n : ℕ) : Prop :=
  r.begin.toNat ≤ a ∧ a + n ≤ r.begin.toNat + r.size.toNat

/-- The range holds one of the addresses from `a` up to `a + n`. -/
def Overlaps (r : Range) (a n : ℕ) : Prop :=
  a < r.begin.toNat + r.size.toNat ∧ r.begin.toNat < a + n

instance (r : Range) (a n : ℕ) : Decidable (r.Encloses a n) := inferInstanceAs (Decidable (_ ∧ _))

instance (r : Range) (a n : ℕ) : Decidable (r.Overlaps a n) := inferInstanceAs (Decidable (_ ∧ _))

theorem Encloses.overlaps {a n : ℕ} (h : r.Encloses a n) (hn : 0 < n) : r.Overlaps a n := by
  obtain ⟨hle, hend⟩ := h
  exact ⟨by omega, by omega⟩

theorem empty_eq_false_iff : r.empty = false ↔ 0 < r.size.toNat := by
  rw [empty, beq_eq_false_iff_ne, ne_eq, ← UInt64.toNat_inj, UInt64.toNat_zero]
  omega

theorem containsVal_iff (h : r.Bounded) {val : UInt64} :
    r.containsVal val = true ↔
      r.begin.toNat ≤ val.toNat ∧ val.toNat < r.begin.toNat + r.size.toNat := by
  rw [containsVal]
  split_ifs with hempty
  · have hsize : ¬0 < r.size.toNat := by
      rw [← empty_eq_false_iff, hempty]
      decide
    refine iff_of_false nofun ?_
    omega
  · rw [Bool.and_eq_true, decide_eq_true_iff, decide_eq_true_iff, UInt64.le_iff_toNat_le,
      UInt64.lt_iff_toNat_lt, toNat_endAddr h]

/-- Of a range that is not empty and does not wrap, it is enough to look at the first address and
the last. -/
theorem contains_iff (h : r.Bounded) (h' : r'.Bounded) (hsize : 0 < r'.size.toNat) :
    r.contains r' = true ↔ r.Encloses r'.begin.toNat r'.size.toNat := by
  have hempty := empty_eq_false_iff.2 hsize
  have h1 : (1 : UInt64).toNat = 1 := rfl
  have hend : (r'.begin + r'.size).toNat = r'.begin.toNat + r'.size.toNat := toNat_endAddr h'
  have hlast : r'.last.toNat = r'.begin.toNat + r'.size.toNat - 1 := by
    rw [last, hempty, if_neg nofun, UInt64.toNat_sub_of_le, hend, h1]
    rw [UInt64.le_iff_toNat_le, hend, h1]
    omega
  rw [contains, hempty, Bool.not_false, Bool.true_and, Bool.and_eq_true, containsVal_iff h,
    containsVal_iff h, hlast, Encloses]
  omega

end Range

/-- Ranges that intersect are not before one another, so it is `operator<` that decides. -/
theorem rangeCompare_eq_true_iff {a b : Range} :
    rangeCompare a b = true ↔ a.endAddr.toNat ≤ b.begin.toNat := by
  rw [rangeCompare, Range.before]
  split_ifs with h
  · rw [Range.intersect] at h
    simp only [Bool.and_eq_true, decide_eq_true_eq] at h
    have hlt := UInt64.lt_iff_toNat_lt.1 h.1.2
    exact iff_of_false nofun (Nat.not_le.2 hlt)
  · rw [decide_eq_true_iff, UInt64.le_iff_toNat_le]

theorem rangeCompare_eq_false_iff {a b : Range} :
    rangeCompare a b = false ↔ b.begin.toNat < a.endAddr.toNat := by
  rw [← Bool.not_eq_true, rangeCompare_eq_true_iff, Nat.not_le]

theorem rangeCompare_trans {b : Range} (hb : b.Bounded) (a c : Range)
    (hab : rangeCompare a b = true) (hbc : rangeCompare b c = true) : rangeCompare a c = true := by
  rw [rangeCompare_eq_true_iff] at hab hbc ⊢
  rw [Range.toNat_endAddr hb] at hbc
  omega

/-! ## Maps in order -/

namespace RangeMap

variable {ν : Type*} [RangeNode ν] {m : RangeMap ν} {r : Range} {e : ν}

/-- The nodes end below the top, and none begins before the one before it ends. -/
structure InOrder (m : RangeMap ν) : Prop where
  bounded : ∀ e ∈ m.set, (RangeNode.range e).Bounded
  pairwise : m.set.Pairwise fun a b =>
    (RangeNode.range a).endAddr.toNat ≤ (RangeNode.range b).begin.toNat

theorem inOrder_clear : InOrder (⟨[]⟩ : RangeMap ν) := ⟨nofun, .nil⟩

theorem InOrder.ordered (h : m.InOrder) : SearchSet.Ordered RangeNode.range rangeCompare m.set where
  pairwise := h.pairwise.imp rangeCompare_eq_true_iff.2
  trans b hb k k' := rangeCompare_trans (h.bounded b hb) k k'

theorem inOrder_of_ordered (h : SearchSet.Ordered RangeNode.range rangeCompare m.set)
    (hb : ∀ e ∈ m.set, (RangeNode.range e).Bounded) : m.InOrder :=
  ⟨hb, h.pairwise.imp rangeCompare_eq_true_iff.1⟩

theorem InOrder.determined (h : m.InOrder) (r : Range) : m.Determined r :=
  h.ordered.partitioned r

/-- The range ends above where the node begins, and begins below where it ends. -/
def Meets (r : Range) (e : ν) : Bool :=
  decide (r.begin.toNat < (RangeNode.range e).endAddr.toNat ∧
    (RangeNode.range e).begin.toNat < r.endAddr.toNat)

theorem meets_iff :
    SearchSet.Meets RangeNode.range rangeCompare r e ↔ Meets r e = true := by
  rw [SearchSet.Meets, rangeCompare_eq_false_iff, rangeCompare_eq_false_iff, Meets,
    decide_eq_true_iff]

/-- **A search finds the first node that the range meets.** -/
theorem InOrder.lookup_eq (h : m.InOrder) (r : Range) : m.lookup r = m.set.find? (Meets r) := by
  rw [lookup, SearchSet.find_eq_find? h.ordered]
  congr 1
  funext e
  have hiff := @meets_iff ν _ r e
  rw [SearchSet.Meets] at hiff
  rw [Bool.eq_iff_iff, ← hiff]
  simp

/-- Of the nodes that the range meets it is the first. -/
theorem InOrder.first_of_lookup (h : m.InOrder) (hf : m.lookup r = some e) :
    e ∈ m.set ∧ Meets r e = true ∧ ∀ b ∈ m.set, Meets r b = true → b = e ∨
      (RangeNode.range e).endAddr.toNat ≤ (RangeNode.range b).begin.toNat := by
  rw [h.lookup_eq, List.find?_eq_some_iff_append] at hf
  obtain ⟨hmeets, pre, post, hset, hpre⟩ := hf
  have hpair := h.pairwise
  rw [hset] at hpair ⊢
  refine ⟨by simp, hmeets, fun b hb hmb => ?_⟩
  rcases List.mem_append.1 hb with hb | hb
  · have hnot := hpre b hb
    rw [hmb] at hnot
    exact absurd hnot nofun
  · rcases List.mem_cons.1 hb with rfl | hb
    · exact .inl rfl
    · exact .inr ((List.pairwise_cons.1 (List.pairwise_append.1 hpair).2.1).1 b hb)

/-- The nodes are the same, or one ends where the other begins or before. -/
def Apart (a b : ν) : Prop :=
  a = b ∨ (RangeNode.range a).endAddr.toNat ≤ (RangeNode.range b).begin.toNat ∨
    (RangeNode.range b).endAddr.toNat ≤ (RangeNode.range a).begin.toNat

theorem InOrder.apart (h : m.InOrder) {a b : ν} (ha : a ∈ m.set) (hb : b ∈ m.set) : Apart a b := by
  have : Std.Symm (@Apart ν _) := ⟨fun _ _ hab => hab.imp Eq.symm Or.symm⟩
  have hpair : m.set.Pairwise Apart := h.pairwise.imp fun hab => .inr (.inl hab)
  exact hpair.forall_of_forall (fun _ _ => .inl rfl) ha hb

theorem InOrder.meets_iff_overlaps (h : m.InOrder) (he : e ∈ m.set) (hr : r.Bounded) :
    Meets r e = true ↔ (RangeNode.range e).Overlaps r.begin.toNat r.size.toNat := by
  rw [Meets, decide_eq_true_iff, Range.toNat_endAddr (h.bounded e he), Range.toNat_endAddr hr,
    Range.Overlaps]

theorem InOrder.eq_of_encloses (h : m.InOrder) {a b : ν} (ha : a ∈ m.set) (hb : b ∈ m.set)
    {x n : ℕ} (henc : (RangeNode.range a).Encloses x n)
    (hover : (RangeNode.range b).Overlaps x n) : a = b := by
  obtain ⟨hle, hend⟩ := henc
  obtain ⟨hlt, hlt'⟩ := hover
  have hdisjoint := h.apart ha hb
  rw [Apart, Range.toNat_endAddr (h.bounded a ha),
    Range.toNat_endAddr (h.bounded b hb)] at hdisjoint
  exact hdisjoint.resolve_right (by omega)

/-- **Insertion**: the node is put where it belongs, or it meets one and the map stays. -/
theorem InOrder.insert_cases (h : m.InOrder) (e : ν) :
    (∃ pre post, m.set = pre ++ post ∧ m.insert e = (⟨pre ++ e :: post⟩, true) ∧
      (∀ b ∈ pre, (RangeNode.range b).endAddr.toNat ≤ (RangeNode.range e).begin.toNat) ∧
      ∀ b ∈ post, (RangeNode.range e).endAddr.toNat ≤ (RangeNode.range b).begin.toNat) ∨
    (∃ b ∈ m.set, Meets (RangeNode.range e) b = true) ∧ m.insert e = (m, false) := by
  rcases SearchSet.insert_cases h.ordered e with ⟨pre, post, hset, heq, hpre, hpost⟩ | ⟨hmeets, heq⟩
  · refine .inl ⟨pre, post, hset, ?_, fun b hb => rangeCompare_eq_true_iff.1 (hpre b hb),
      fun b hb => rangeCompare_eq_true_iff.1 (hpost b hb)⟩
    rw [insert, heq]
  · obtain ⟨b, hb, hmeets⟩ := hmeets
    refine .inr ⟨⟨b, hb, meets_iff.1 hmeets⟩, ?_⟩
    rw [insert, heq]

/-- **Insertion keeps a map in order**, if the node ends below the top. -/
theorem InOrder.insert (h : m.InOrder) (he : (RangeNode.range e).Bounded) :
    (m.insert e).1.InOrder := by
  rcases h.insert_cases e with ⟨pre, post, hset, heq, hpre, hpost⟩ | ⟨-, heq⟩
  · rw [heq]
    have hordered := h.ordered
    rw [hset] at hordered
    refine inOrder_of_ordered (hordered.insert
      (fun b hb => rangeCompare_eq_true_iff.2 (hpre b hb))
      (fun b hb => rangeCompare_eq_true_iff.2 (hpost b hb)) (rangeCompare_trans he)) fun b hb => ?_
    rcases List.mem_append.1 hb with hb | hb
    · exact h.bounded b (by rw [hset]; exact List.mem_append_left _ hb)
    · rcases List.mem_cons.1 hb with rfl | hb
      · exact he
      · exact h.bounded b (by rw [hset]; exact List.mem_append_right _ hb)
  · rw [heq]
    exact h

/-- **Removal** takes out the first node that the range meets. -/
theorem remove_cases (m : RangeMap ν) (r : Range) :
    (m.lookup r = none ∧ (m.remove r).1 = m) ∨
    ∃ e pre post, m.lookup r = some e ∧ m.set = pre ++ e :: post ∧
      (m.remove r).1 = ⟨pre ++ post⟩ := by
  cases hf : m.lookup r with
  | none => exact .inl ⟨rfl, congrArg RangeMap.mk (SearchSet.remove_of_find_eq_none hf)⟩
  | some e =>
      obtain ⟨pre, post, hset, heq, -⟩ := SearchSet.remove_of_find hf
      exact .inr ⟨e, pre, post, rfl, hset, congrArg RangeMap.mk heq⟩

theorem InOrder.remove (h : m.InOrder) (r : Range) : (m.remove r).1.InOrder := by
  rcases m.remove_cases r with ⟨-, heq⟩ | ⟨e, pre, post, -, hset, heq⟩
  · rw [heq]
    exact h
  · rw [heq]
    have hsub : (pre ++ post).Sublist m.set := by
      rw [hset]
      exact List.Sublist.append_left (List.sublist_cons_self e post) pre
    exact inOrder_of_ordered (h.ordered.sublist hsub) fun b hb => h.bounded b (hsub.subset hb)

end RangeMap

end Vml
