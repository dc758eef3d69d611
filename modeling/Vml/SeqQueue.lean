import Mathlib.Tactic

/-!
# Queues of a bounded size

`vuart/seq_queue.hpp`: a circular buffer whose capacity can be changed by a reset. It is empty when
the read index is the capacity, and full when the indices are equal.

Main results: `contents_enqueue`, `contents_dequeue`, `curSize_eq`: the queue is a list of at most
`currentCapacity` elements.
-/

namespace Vml

/-- `SeqQueue`. An index is at most the capacity, so that no sum of two wraps. -/
structure SeqQueue (α : Type*) where
  widx : ℕ := 0
  data : ℕ → α
  currentCapacity : ℕ := 1
  ridx : ℕ := currentCapacity

namespace SeqQueue

variable {α : Type*}

/-- `is_empty`. -/
def isEmpty (q : SeqQueue α) : Bool := q.ridx == q.currentCapacity

/-- `is_full`. -/
def isFull (q : SeqQueue α) : Bool := q.widx == q.ridx

/-- `cur_size`. -/
def curSize (q : SeqQueue α) : ℕ :=
  if q.isEmpty then 0
  else if q.isFull then q.currentCapacity
  else ((q.widx + q.currentCapacity) - q.ridx) % q.currentCapacity

/-- `enqueue`. -/
def enqueue (q : SeqQueue α) (c : α) : Bool × SeqQueue α :=
  if q.isFull then (false, q)
  else
    (true, { q with
      data := Function.update q.data q.widx c
      widx := (q.widx + 1) % q.currentCapacity
      ridx := if q.ridx = q.currentCapacity then 0 else q.ridx })

/-- `dequeue`. -/
def dequeue (q : SeqQueue α) : α × SeqQueue α :=
  let ridx := (q.ridx + 1) % q.currentCapacity
  (q.data q.ridx,
    if ridx = q.widx then { q with widx := 0, ridx := q.currentCapacity }
    else { q with ridx := ridx })

/-- `reset`. -/
def reset (q : SeqQueue α) (newCap : ℕ) : SeqQueue α :=
  { q with currentCapacity := newCap, widx := 0, ridx := newCap }

/-- `dequeue`, that many times. -/
def dequeueMany : ℕ → SeqQueue α → List α × SeqQueue α
  | 0, q => ([], q)
  | n + 1, q => (q.dequeue.1 :: (dequeueMany n q.dequeue.2).1, (dequeueMany n q.dequeue.2).2)

/-! ## What is in the queue -/

/-- The indices are in the buffer, and an empty queue begins at 0. -/
structure Sound (q : SeqQueue α) : Prop where
  capacity_pos : 0 < q.currentCapacity
  widx_lt : q.widx < q.currentCapacity
  ridx_le : q.ridx ≤ q.currentCapacity
  empty : q.ridx = q.currentCapacity → q.widx = 0

/-- The elements, from the oldest. -/
def contents (q : SeqQueue α) : List α :=
  (List.range q.curSize).map fun k => q.data ((q.ridx + k) % q.currentCapacity)

variable {q : SeqQueue α} {c : α}

theorem length_contents : q.contents.length = q.curSize := by
  rw [contents, List.length_map, List.length_range]

theorem Sound.curSize_le (h : q.Sound) : q.curSize ≤ q.currentCapacity := by
  rw [curSize]
  split_ifs
  · exact Nat.zero_le _
  · exact Nat.le_refl _
  · exact (Nat.mod_lt _ h.capacity_pos).le

theorem isEmpty_iff_ridx : q.isEmpty = true ↔ q.ridx = q.currentCapacity := beq_iff_eq

theorem isFull_iff_widx : q.isFull = true ↔ q.widx = q.ridx := beq_iff_eq

theorem Sound.widx_eq (h : q.Sound) (hne : q.ridx ≠ q.currentCapacity) :
    q.widx = (q.ridx + q.curSize) % q.currentCapacity := by
  have hlt := h.widx_lt
  have hle := h.ridx_le
  rw [curSize, if_neg (mt isEmpty_iff_ridx.1 hne)]
  split_ifs with hfull
  · rw [Nat.add_mod_right, Nat.mod_eq_of_lt (by omega)]
    exact isFull_iff_widx.1 hfull
  · rw [Nat.add_mod_mod]
    have hsum : q.ridx + (q.widx + q.currentCapacity - q.ridx) = q.widx + q.currentCapacity := by
      omega
    rw [hsum, Nat.add_mod_right, Nat.mod_eq_of_lt hlt]

/-- **Empty** is without elements. -/
theorem Sound.isEmpty_iff (h : q.Sound) : q.isEmpty = true ↔ q.curSize = 0 := by
  have hlt := h.widx_lt
  have hle := h.ridx_le
  refine ⟨fun hempty => by rw [curSize, if_pos hempty], fun hsize => ?_⟩
  by_contra hne
  rw [curSize, if_neg hne] at hsize
  split_ifs at hsize with hfull
  · exact absurd hsize (Nat.ne_of_gt h.capacity_pos)
  · rw [isEmpty_iff_ridx] at hne
    have hw := h.widx_eq hne
    rw [curSize, if_neg (mt isEmpty_iff_ridx.1 hne), if_neg hfull, hsize, Nat.add_zero,
      Nat.mod_eq_of_lt (by omega)] at hw
    exact hfull (isFull_iff_widx.2 hw)

/-- **Full** is with as many elements as the capacity. -/
theorem Sound.isFull_iff (h : q.Sound) : q.isFull = true ↔ q.curSize = q.currentCapacity := by
  have hpos := h.capacity_pos
  constructor
  · intro hfull
    have hne : ¬q.isEmpty = true := fun hempty => by
      have hr := isEmpty_iff_ridx.1 hempty
      have hw := isFull_iff_widx.1 hfull
      have := h.widx_lt
      omega
    rw [curSize, if_neg hne, if_pos hfull]
  · intro hsize
    by_contra hfull
    rw [curSize, if_neg hfull] at hsize
    split_ifs at hsize
    · omega
    · exact absurd hsize (Nat.ne_of_lt (Nat.mod_lt _ hpos))

theorem contents_of_empty (h : q.isEmpty = true) : q.contents = [] := by
  rw [contents, curSize, if_pos h]
  rfl

/-! ## Operations -/

theorem sound_reset {n : ℕ} (hn : 0 < n) : (q.reset n).Sound :=
  ⟨hn, hn, Nat.le_refl n, fun _ => rfl⟩

theorem isEmpty_reset (n : ℕ) : (q.reset n).isEmpty = true := beq_self_eq_true n

theorem contents_reset (n : ℕ) : (q.reset n).contents = [] := contents_of_empty (isEmpty_reset n)

theorem isFull_reset {n : ℕ} (hn : 0 < n) : (q.reset n).isFull = false :=
  beq_eq_false_iff_ne.2 (Nat.ne_of_lt hn)

theorem capacity_enqueue : (q.enqueue c).2.currentCapacity = q.currentCapacity := by
  rw [enqueue]
  split_ifs <;> rfl

theorem enqueue_of_full (h : q.isFull = true) : q.enqueue c = (false, q) := if_pos h

theorem curSize_of_widx {k : ℕ} (hr : q.ridx < q.currentCapacity) (hk : 0 < k)
    (hle : k ≤ q.currentCapacity) (hw : q.widx = (q.ridx + k) % q.currentCapacity) :
    q.curSize = k := by
  have hne : ¬q.isEmpty = true := fun hempty => by
    have := isEmpty_iff_ridx.1 hempty
    omega
  rw [curSize, if_neg hne]
  by_cases hwrap : q.ridx + k < q.currentCapacity
  · rw [Nat.mod_eq_of_lt hwrap] at hw
    have hnf : ¬q.isFull = true := fun hfull => by
      have := isFull_iff_widx.1 hfull
      omega
    have hsum : q.widx + q.currentCapacity - q.ridx = k + q.currentCapacity := by omega
    rw [if_neg hnf, hsum, Nat.add_mod_right, Nat.mod_eq_of_lt (by omega)]
  · have hsub : q.ridx + k - q.currentCapacity < q.currentCapacity := by omega
    rw [Nat.mod_eq_sub_mod (by omega), Nat.mod_eq_of_lt hsub] at hw
    by_cases hfull : q.isFull = true
    · have := isFull_iff_widx.1 hfull
      rw [if_pos hfull]
      omega
    · have hne' := mt isFull_iff_widx.2 hfull
      have hsum : q.widx + q.currentCapacity - q.ridx = k := by omega
      rw [if_neg hfull, hsum, Nat.mod_eq_of_lt (by omega)]

theorem Sound.enqueue (h : q.Sound) : (q.enqueue c).2.Sound := by
  have hpos := h.capacity_pos
  have hle := h.ridx_le
  rw [SeqQueue.enqueue]
  split_ifs with hfull hempty
  · exact h
  · exact ⟨hpos, Nat.mod_lt _ hpos, Nat.zero_le _, fun hr => absurd hr (Nat.ne_of_lt hpos)⟩
  · exact ⟨hpos, Nat.mod_lt _ hpos, hle, fun hr => absurd hr hempty⟩

theorem eq_of_add_mod {r k l n : ℕ} (h : (r + k) % n = (r + l) % n) (hk : k < n) (hl : l < n) :
    k = l :=
  Nat.ModEq.eq_of_lt_of_lt (Nat.ModEq.add_left_cancel' r h) hk hl

/-- **An element is added** at the end of a queue that is not full. -/
theorem Sound.contents_enqueue (h : q.Sound) (hfull : q.isFull = false) :
    (q.enqueue c).1 = true ∧ (q.enqueue c).2.contents = q.contents ++ [c] := by
  have hpos := h.capacity_pos
  have hnf : ¬q.isFull = true := by rw [hfull]; exact nofun
  have hsize : q.curSize < q.currentCapacity :=
    lt_of_le_of_ne h.curSize_le fun heq => hnf (h.isFull_iff.2 heq)
  -- where the elements begin
  obtain ⟨r, hr⟩ : ∃ r, r = if q.ridx = q.currentCapacity then 0 else q.ridx := ⟨_, rfl⟩
  have hr_lt : r < q.currentCapacity := by
    have := h.ridx_le
    rw [hr]
    split_ifs <;> omega
  have hw : q.widx = (r + q.curSize) % q.currentCapacity := by
    rw [hr]
    split_ifs with hempty
    · rw [h.empty hempty, h.isEmpty_iff.1 (isEmpty_iff_ridx.2 hempty)]
      exact (Nat.zero_mod _).symm
    · exact h.widx_eq hempty
  have hold : q.contents =
      (List.range q.curSize).map fun k => q.data ((r + k) % q.currentCapacity) := by
    rw [hr]
    split_ifs with hempty
    · rw [contents_of_empty (isEmpty_iff_ridx.2 hempty),
        h.isEmpty_iff.1 (isEmpty_iff_ridx.2 hempty)]
      rfl
    · rfl
  have heq : q.enqueue c = (true, { q with
      data := Function.update q.data q.widx c
      widx := (q.widx + 1) % q.currentCapacity
      ridx := r }) := by
    rw [SeqQueue.enqueue, if_neg hnf, hr]
  have hsize' : (q.enqueue c).2.curSize = q.curSize + 1 := by
    rw [heq]
    refine curSize_of_widx hr_lt (Nat.succ_pos _) hsize ?_
    show (q.widx + 1) % q.currentCapacity = (r + (q.curSize + 1)) % q.currentCapacity
    rw [hw, Nat.mod_add_mod, Nat.add_assoc]
  refine ⟨by rw [heq], ?_⟩
  rw [contents, hsize', heq, List.range_succ, List.map_append, hold, List.map_singleton]
  congr 1
  · refine List.map_congr_left fun k hk => ?_
    have hk' := List.mem_range.1 hk
    refine Function.update_of_ne (fun hsame => ?_) ..
    have hsame' : (r + k) % q.currentCapacity = (r + q.curSize) % q.currentCapacity :=
      hsame.trans hw
    exact absurd (eq_of_add_mod hsame' (hk'.trans hsize) hsize) (Nat.ne_of_lt hk')
  · show [Function.update q.data q.widx c ((r + q.curSize) % q.currentCapacity)] = [c]
    rw [← hw, Function.update_self]

theorem curSize_enqueue (h : q.Sound) (hfull : q.isFull = false) :
    (q.enqueue c).2.curSize = q.curSize + 1 := by
  rw [← length_contents, (h.contents_enqueue hfull).2, List.length_append, length_contents,
    List.length_singleton]

/-- After the oldest element has been taken, the indices are one apart less. -/
theorem Sound.dequeue_cases (h : q.Sound) (hempty : q.isEmpty = false) :
    q.ridx < q.currentCapacity ∧ (q.curSize = 1 ∧
        q.dequeue.2 = { q with widx := 0, ridx := q.currentCapacity } ∨
      1 < q.curSize ∧ q.dequeue.2.curSize = q.curSize - 1 ∧
        q.dequeue.2 = { q with ridx := (q.ridx + 1) % q.currentCapacity }) := by
  have hpos := h.capacity_pos
  have hle := h.curSize_le
  have hne : q.ridx ≠ q.currentCapacity := fun hr => by
    rw [isEmpty_iff_ridx.2 hr] at hempty
    cases hempty
  have hsize : 0 < q.curSize := Nat.pos_of_ne_zero fun hzero => by
    rw [h.isEmpty_iff.2 hzero] at hempty
    cases hempty
  have hw := h.widx_eq hne
  refine ⟨lt_of_le_of_ne h.ridx_le hne, ?_⟩
  by_cases hlast : (q.ridx + 1) % q.currentCapacity = q.widx
  · refine .inl ⟨?_, if_pos hlast⟩
    have hmod : (q.ridx + 1 + 0) % q.currentCapacity =
        (q.ridx + 1 + (q.curSize - 1)) % q.currentCapacity := by
      have hsum : q.ridx + 1 + (q.curSize - 1) = q.ridx + q.curSize := by omega
      rw [hsum, Nat.add_zero, ← hw, hlast]
    have := eq_of_add_mod hmod hpos (by omega)
    omega
  · have hmany : 1 < q.curSize := by
      by_contra hone
      have hone' : q.curSize = 1 := by omega
      rw [hone'] at hw
      exact hlast hw.symm
    have heq : q.dequeue.2 = { q with ridx := (q.ridx + 1) % q.currentCapacity } := if_neg hlast
    refine .inr ⟨hmany, ?_, heq⟩
    rw [heq]
    refine curSize_of_widx (Nat.mod_lt _ hpos) (by omega) (by show _ ≤ q.currentCapacity; omega) ?_
    show q.widx = ((q.ridx + 1) % q.currentCapacity + (q.curSize - 1)) % q.currentCapacity
    have hsum : q.ridx + 1 + (q.curSize - 1) = q.ridx + q.curSize := by omega
    rw [Nat.mod_add_mod, hsum]
    exact hw

/-- **The oldest element is taken** from a queue that is not empty. -/
theorem Sound.contents_dequeue (h : q.Sound) (hempty : q.isEmpty = false) :
    q.contents = q.dequeue.1 :: q.dequeue.2.contents := by
  obtain ⟨hr, ⟨hone, heq⟩ | ⟨hmany, hsize, heq⟩⟩ := h.dequeue_cases hempty
  · have hdone : q.dequeue.2.isEmpty = true := by
      rw [heq]
      exact beq_self_eq_true _
    rw [contents_of_empty hdone, contents, hone]
    show [q.data ((q.ridx + 0) % q.currentCapacity)] = [q.data q.ridx]
    rw [Nat.add_zero, Nat.mod_eq_of_lt hr]
  · obtain ⟨k, hk⟩ : ∃ k, q.curSize = k + 1 := ⟨q.curSize - 1, by omega⟩
    rw [contents, contents, hsize, heq, hk, List.range_succ_eq_map, List.map_cons, List.map_map]
    congr 1
    · show q.data ((q.ridx + 0) % q.currentCapacity) = q.data q.ridx
      rw [Nat.add_zero, Nat.mod_eq_of_lt hr]
    · refine List.map_congr_left fun l _ => ?_
      show q.data ((q.ridx + (l + 1)) % q.currentCapacity) =
        q.data (((q.ridx + 1) % q.currentCapacity + l) % q.currentCapacity)
      rw [Nat.mod_add_mod, Nat.add_assoc, Nat.add_comm 1 l]

theorem Sound.dequeue (h : q.Sound) (hempty : q.isEmpty = false) : q.dequeue.2.Sound := by
  have hpos := h.capacity_pos
  obtain ⟨-, ⟨-, heq⟩ | ⟨-, -, heq⟩⟩ := h.dequeue_cases hempty <;> rw [heq]
  · exact ⟨hpos, hpos, Nat.le_refl _, fun _ => rfl⟩
  · have hlt : (q.ridx + 1) % q.currentCapacity < q.currentCapacity := Nat.mod_lt _ hpos
    exact ⟨hpos, h.widx_lt, hlt.le, fun hr => absurd hr (Nat.ne_of_lt hlt)⟩

theorem capacity_dequeue : q.dequeue.2.currentCapacity = q.currentCapacity := by
  rw [SeqQueue.dequeue]
  dsimp only
  split_ifs <;> rfl

theorem curSize_dequeue (h : q.Sound) (hempty : q.isEmpty = false) :
    q.dequeue.2.curSize = q.curSize - 1 := by
  rw [← length_contents, ← length_contents, h.contents_dequeue hempty]
  rfl

/-- **All elements are taken**, from the oldest. -/
theorem dequeueMany_curSize {n : ℕ} (h : q.Sound) (hn : q.curSize = n) :
    (dequeueMany n q).1 = q.contents ∧ (dequeueMany n q).2.Sound ∧
      (dequeueMany n q).2.isEmpty = true ∧
      (dequeueMany n q).2.currentCapacity = q.currentCapacity := by
  induction n generalizing q with
  | zero =>
      have hempty := h.isEmpty_iff.2 hn
      exact ⟨(contents_of_empty hempty).symm, h, hempty, rfl⟩
  | succ n ih =>
      have hempty : q.isEmpty = false := by
        cases hq : q.isEmpty with
        | false => rfl
        | true =>
            rw [h.isEmpty_iff.1 hq] at hn
            cases hn
      have hsize := curSize_dequeue h hempty
      obtain ⟨hall, hsound, hdone, hcapacity⟩ := ih (h.dequeue hempty) (by omega)
      refine ⟨?_, hsound, hdone, hcapacity.trans capacity_dequeue⟩
      rw [dequeueMany, hall, h.contents_dequeue hempty]

end SeqQueue

end Vml
