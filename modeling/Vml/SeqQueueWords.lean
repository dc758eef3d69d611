import Vml.SeqQueue

/-!
# The bounded queue, in words

`SeqQueue<T, FIFO_MAX_SIZE>` with its array and its indices of 32 bits. An access of the array that
is out of bounds has no result here.

**What it is for** is `Fifo`: a list of at most so many elements. **In between** is the queue of
`SeqQueue`, whose indices are numbers: as long as the array has at most `2 ^ 31` elements no sum
wraps, and the words are those numbers (`Rep`).

Main result: `SeqQueueWords.refines_fifo`.
-/

namespace Vml

/-! ## A list of a bounded length -/

/-- What is done to a queue. -/
inductive QueueOp (α : Type*)
  | enqueue (c : α)
  | dequeue
  | reset (newCap : UInt32)
  | resetMaximizeCapacity

/-- What it returns. -/
inductive QueueOut (α : Type*)
  | enqueued (ok : Bool)
  | dequeued (c : α)
  | reset
  deriving DecidableEq

/-- A list of at most so many elements, the oldest first. -/
structure Fifo (α : Type*) where
  capacity : ℕ
  elems : List α
  length_le : elems.length ≤ capacity

namespace Fifo

variable {α : Type*}

/-- At first there is place for one. -/
def init : Fifo α := ⟨1, [], Nat.zero_le 1⟩

/-- An element is appended if there is place for it. -/
def enqueue (f : Fifo α) (c : α) : QueueOut α × Fifo α :=
  if h : f.elems.length < f.capacity then
    (.enqueued true, ⟨f.capacity, f.elems ++ [c], by rw [List.length_append]; exact h⟩)
  else (.enqueued false, f)

/-- The oldest is removed. -/
def dequeue (f : Fifo α) (hne : f.elems ≠ []) : QueueOut α × Fifo α :=
  (.dequeued (f.elems.head hne),
    ⟨f.capacity, f.elems.tail, (List.tail_sublist f.elems).length_le.trans f.length_le⟩)

/-- All are removed. -/
def reset (capacity : ℕ) : QueueOut α × Fifo α := (.reset, ⟨capacity, [], Nat.zero_le capacity⟩)

/-- **One operation** on a queue of at most `maxSize` elements: nothing is taken from an empty one,
and the capacity is one of those that there are. -/
inductive Step (maxSize : UInt32) : Fifo α → QueueOp α → QueueOut α × Fifo α → Prop
  | enqueue (f : Fifo α) (c : α) : Step maxSize f (.enqueue c) (f.enqueue c)
  | dequeue (f : Fifo α) (hne : f.elems ≠ []) : Step maxSize f .dequeue (f.dequeue hne)
  | reset (f : Fifo α) (newCap : UInt32) (hpos : 1 ≤ newCap) (hle : newCap ≤ maxSize) :
      Step maxSize f (.reset newCap) (Fifo.reset newCap.toNat)
  | resetMaximizeCapacity (f : Fifo α) :
      Step maxSize f .resetMaximizeCapacity (Fifo.reset maxSize.toNat)

/-- A sequence of operations and what they return. -/
inductive Steps (maxSize : UInt32) : Fifo α → List (QueueOp α) → List (QueueOut α) → Fifo α → Prop
  | nil (f : Fifo α) : Steps maxSize f [] [] f
  | cons {f f' f'' : Fifo α} {op : QueueOp α} {ops : List (QueueOp α)} {out : QueueOut α}
      {outs : List (QueueOut α)} (hstep : Step maxSize f op (out, f'))
      (hsteps : Steps maxSize f' ops outs f'') : Steps maxSize f (op :: ops) (out :: outs) f''

end Fifo

/-! ## The queue -/

/-- `SeqQueue`. -/
structure SeqQueueWords (α : Type*) (fifoMaxSize : UInt32) where
  widx : UInt32 := 0
  data : Vector α fifoMaxSize.toNat
  currentCapacity : UInt32 := 1
  ridx : UInt32 := currentCapacity

namespace SeqQueueWords

variable {α : Type*} {fifoMaxSize : UInt32}

/-- `is_empty`. -/
def isEmpty (q : SeqQueueWords α fifoMaxSize) : Bool := q.ridx == q.currentCapacity

/-- `is_full`. -/
def isFull (q : SeqQueueWords α fifoMaxSize) : Bool := q.widx == q.ridx

/-- `cur_size`. -/
def curSize (q : SeqQueueWords α fifoMaxSize) : UInt32 :=
  if q.isEmpty then 0
  else if q.isFull then q.currentCapacity
  else ((q.widx + q.currentCapacity) - q.ridx) % q.currentCapacity

/-- `enqueue`. -/
def enqueue (q : SeqQueueWords α fifoMaxSize) (c : α) :
    Option (QueueOut α × SeqQueueWords α fifoMaxSize) :=
  if q.isFull then some (.enqueued false, q)
  else if h : q.widx.toNat < fifoMaxSize.toNat then
    some (.enqueued true, { q with
      data := q.data.set q.widx.toNat c h
      widx := (q.widx + 1) % q.currentCapacity
      ridx := if q.ridx = q.currentCapacity then 0 else q.ridx })
  else none

/-- `dequeue`. -/
def dequeue (q : SeqQueueWords α fifoMaxSize) :
    Option (QueueOut α × SeqQueueWords α fifoMaxSize) :=
  if h : q.ridx.toNat < fifoMaxSize.toNat then
    let value := q.data[q.ridx.toNat]
    let ridx := (q.ridx + 1) % q.currentCapacity
    some (.dequeued value,
      if ridx = q.widx then { q with widx := 0, ridx := q.currentCapacity }
      else { q with ridx := ridx })
  else none

/-- `reset`. -/
def reset (q : SeqQueueWords α fifoMaxSize) (newCap : UInt32) : SeqQueueWords α fifoMaxSize :=
  { q with currentCapacity := newCap, widx := 0, ridx := newCap }

/-- `reset_maximize_capacity`. -/
def resetMaximizeCapacity (q : SeqQueueWords α fifoMaxSize) : SeqQueueWords α fifoMaxSize :=
  q.reset fifoMaxSize

/-- One operation, if all accesses of the array are in bounds. -/
def step (q : SeqQueueWords α fifoMaxSize) :
    QueueOp α → Option (QueueOut α × SeqQueueWords α fifoMaxSize)
  | .enqueue c => q.enqueue c
  | .dequeue => q.dequeue
  | .reset newCap => some (.reset, q.reset newCap)
  | .resetMaximizeCapacity => some (.reset, q.resetMaximizeCapacity)

/-- A sequence of operations and what they return. -/
def run (q : SeqQueueWords α fifoMaxSize) :
    List (QueueOp α) → Option (List (QueueOut α) × SeqQueueWords α fifoMaxSize)
  | [] => some ([], q)
  | op :: ops => do
      let (out, q') ← q.step op
      let (outs, q'') ← q'.run ops
      some (out :: outs, q'')

/-- The queue and the list look alike. -/
structure Matches (q : SeqQueueWords α fifoMaxSize) (f : Fifo α) : Prop where
  capacity : q.currentCapacity.toNat = f.capacity
  isEmpty : q.isEmpty = true ↔ f.elems = []
  isFull : q.isFull = true ↔ f.elems.length = f.capacity
  curSize : q.curSize.toNat = f.elems.length

/-! ## Words and numbers -/

/-- The words are the numbers of a queue. -/
structure Rep (q : SeqQueueWords α fifoMaxSize) (s : SeqQueue α) : Prop where
  sound : s.Sound
  widx : q.widx.toNat = s.widx
  ridx : q.ridx.toNat = s.ridx
  capacity : q.currentCapacity.toNat = s.currentCapacity
  capacity_le : s.currentCapacity ≤ fifoMaxSize.toNat
  data : ∀ i (h : i < fifoMaxSize.toNat), q.data[i] = s.data i

variable {q : SeqQueueWords α fifoMaxSize} {s : SeqQueue α} {f : Fifo α}

theorem Rep.isEmpty_eq (h : q.Rep s) : q.isEmpty = s.isEmpty := by
  rw [Bool.eq_iff_iff, isEmpty, beq_iff_eq, ← UInt32.toNat_inj, h.ridx, h.capacity,
    SeqQueue.isEmpty_iff_ridx]

theorem Rep.isFull_eq (h : q.Rep s) : q.isFull = s.isFull := by
  rw [Bool.eq_iff_iff, isFull, beq_iff_eq, ← UInt32.toNat_inj, h.widx, h.ridx,
    SeqQueue.isFull_iff_widx]

/-- **No sum wraps** in an array of at most `2 ^ 31` elements. -/
theorem Rep.curSize_eq (h : q.Rep s) (hmax : fifoMaxSize.toNat ≤ 2 ^ 31) :
    q.curSize.toNat = s.curSize := by
  have hwidx := h.sound.widx_lt
  have hridx := h.sound.ridx_le
  have hle := h.capacity_le
  rw [curSize, SeqQueue.curSize, h.isEmpty_eq, h.isFull_eq]
  split_ifs
  · rfl
  · exact h.capacity
  · have hsum : (q.widx + q.currentCapacity).toNat = s.widx + s.currentCapacity := by
      rw [UInt32.toNat_add, h.widx, h.capacity, Nat.mod_eq_of_lt (by omega)]
    have hdiff : q.ridx ≤ q.widx + q.currentCapacity := by
      rw [UInt32.le_iff_toNat_le, hsum, h.ridx]
      omega
    rw [UInt32.toNat_mod, UInt32.toNat_sub_of_le _ _ hdiff, hsum, h.ridx, h.capacity]

theorem Rep.next_index (h : q.Rep s) (hmax : fifoMaxSize.toNat ≤ 2 ^ 31) {i : UInt32}
    (hi : i.toNat ≤ s.currentCapacity) :
    ((i + 1) % q.currentCapacity).toNat = (i.toNat + 1) % s.currentCapacity := by
  have hle := h.capacity_le
  have hsum : (i + 1).toNat = i.toNat + 1 := by
    rw [UInt32.toNat_add, UInt32.toNat_one, Nat.mod_eq_of_lt (by omega)]
  rw [UInt32.toNat_mod, hsum, h.capacity]

/-! ## Operations -/

/-- **An element is written** in bounds, and the words stay the numbers. -/
theorem Rep.enqueue (h : q.Rep s) (hmax : fifoMaxSize.toNat ≤ 2 ^ 31) (c : α) :
    ∃ q', q.enqueue c = some (.enqueued (s.enqueue c).1, q') ∧ q'.Rep (s.enqueue c).2 := by
  have hwidx := h.sound.widx_lt
  have hle := h.capacity_le
  have hsound : (s.enqueue c).2.Sound := h.sound.enqueue
  cases hfull : s.isFull with
  | true =>
      rw [SeqQueue.enqueue_of_full hfull, SeqQueueWords.enqueue, if_pos (h.isFull_eq.trans hfull)]
      exact ⟨q, rfl, h⟩
  | false =>
      have hbound : q.widx.toNat < fifoMaxSize.toNat := by
        rw [h.widx]
        exact hwidx.trans_le hle
      have heq : s.enqueue c = (true, { s with
          data := Function.update s.data s.widx c
          widx := (s.widx + 1) % s.currentCapacity
          ridx := if s.ridx = s.currentCapacity then 0 else s.ridx }) := if_neg (by simp [hfull])
      rw [heq] at hsound
      rw [heq, SeqQueueWords.enqueue, if_neg (by simp [h.isFull_eq, hfull]), dif_pos hbound]
      refine ⟨_, rfl, hsound, ?_, ?_, h.capacity, hle, ?_⟩
      · rw [h.next_index hmax (by rw [h.widx]; exact hwidx.le), h.widx]
      · have hempty : q.ridx = q.currentCapacity ↔ s.ridx = s.currentCapacity := by
          rw [← UInt32.toNat_inj, h.ridx, h.capacity]
        by_cases hridx : s.ridx = s.currentCapacity
        · rw [if_pos (hempty.2 hridx), if_pos hridx]
          rfl
        · rw [if_neg (mt hempty.1 hridx), if_neg hridx]
          exact h.ridx
      · intro i hi
        show (q.data.set q.widx.toNat c hbound)[i] = Function.update s.data s.widx c i
        rw [Vector.getElem_set, Function.update_apply, h.widx, h.data i hi]
        by_cases hsame : s.widx = i
        · rw [if_pos hsame, if_pos hsame.symm]
        · rw [if_neg hsame, if_neg (Ne.symm hsame)]

/-- **The oldest element is read** in bounds. -/
theorem Rep.dequeue (h : q.Rep s) (hmax : fifoMaxSize.toNat ≤ 2 ^ 31) (hne : s.isEmpty = false) :
    ∃ q', q.dequeue = some (.dequeued s.dequeue.1, q') ∧ q'.Rep s.dequeue.2 := by
  have hridx : s.ridx < s.currentCapacity := (h.sound.dequeue_cases hne).1
  have hle := h.capacity_le
  have hsound : s.dequeue.2.Sound := h.sound.dequeue hne
  have hbound : q.ridx.toNat < fifoMaxSize.toNat := by
    rw [h.ridx]
    exact hridx.trans_le hle
  have hnext : ((q.ridx + 1) % q.currentCapacity).toNat = (s.ridx + 1) % s.currentCapacity := by
    rw [h.next_index hmax (by rw [h.ridx]; exact hridx.le), h.ridx]
  have hlast : (q.ridx + 1) % q.currentCapacity = q.widx ↔
      (s.ridx + 1) % s.currentCapacity = s.widx := by
    rw [← UInt32.toNat_inj, hnext, h.widx]
  have hvalue : q.data[q.ridx.toNat] = s.dequeue.1 := (h.data _ hbound).trans (by rw [h.ridx]; rfl)
  rw [SeqQueueWords.dequeue, dif_pos hbound]
  dsimp only
  rw [hvalue]
  refine ⟨_, rfl, ?_⟩
  rw [SeqQueue.dequeue] at hsound ⊢
  dsimp only at hsound ⊢
  by_cases hdone : (s.ridx + 1) % s.currentCapacity = s.widx
  · rw [if_pos hdone] at hsound ⊢
    rw [if_pos (hlast.2 hdone)]
    exact ⟨hsound, rfl, h.capacity, h.capacity, hle, h.data⟩
  · rw [if_neg hdone] at hsound ⊢
    rw [if_neg (mt hlast.1 hdone)]
    exact ⟨hsound, h.widx, hnext, h.capacity, hle, h.data⟩

theorem Rep.reset (h : q.Rep s) {newCap : UInt32} (hpos : 1 ≤ newCap) (hle : newCap ≤ fifoMaxSize) :
    (q.reset newCap).Rep (s.reset newCap.toNat) where
  sound := SeqQueue.sound_reset (UInt32.le_iff_toNat_le.1 hpos)
  widx := rfl
  ridx := rfl
  capacity := rfl
  capacity_le := UInt32.le_iff_toNat_le.1 hle
  data := h.data

/-! ## The queue is a list -/

/-- The queue holds the elements of the list. -/
def Refines (q : SeqQueueWords α fifoMaxSize) (f : Fifo α) : Prop :=
  ∃ s, q.Rep s ∧ s.contents = f.elems ∧ s.currentCapacity = f.capacity

theorem Refines.matches (h : q.Refines f) (hmax : fifoMaxSize.toNat ≤ 2 ^ 31) : q.Matches f := by
  obtain ⟨s, hrep, helems, hcapacity⟩ := h
  have hsize : s.curSize = f.elems.length := by rw [← SeqQueue.length_contents, helems]
  refine ⟨hrep.capacity.trans hcapacity, ?_, ?_, (hrep.curSize_eq hmax).trans hsize⟩
  · rw [hrep.isEmpty_eq, hrep.sound.isEmpty_iff, hsize, List.length_eq_zero_iff]
  · rw [hrep.isFull_eq, hrep.sound.isFull_iff, hsize, hcapacity]

/-- **An operation** returns what it does on the list. -/
theorem Refines.step (h : q.Refines f) (hmax : fifoMaxSize.toNat ≤ 2 ^ 31) (hpos : 1 ≤ fifoMaxSize)
    {op : QueueOp α} {out : QueueOut α} {f' : Fifo α} (hstep : Fifo.Step fifoMaxSize f op (out, f')) :
    ∃ q', q.step op = some (out, q') ∧ q'.Refines f' := by
  obtain ⟨s, hrep, helems, hcapacity⟩ := h
  have hsize : s.curSize = f.elems.length := by rw [← SeqQueue.length_contents, helems]
  generalize hr : (out, f') = r at hstep
  cases hstep with
  | enqueue c =>
      obtain ⟨q', heq, hrep'⟩ := hrep.enqueue hmax c
      rw [Fifo.enqueue] at hr
      split_ifs at hr with hroom
      · cases hr
        have hfull : s.isFull = false := by
          rw [Bool.eq_false_iff, Ne, hrep.sound.isFull_iff, hsize, hcapacity]
          exact Nat.ne_of_lt hroom
        obtain ⟨hok, hcontents⟩ := hrep.sound.contents_enqueue hfull
        rw [hok] at heq
        refine ⟨q', heq, _, hrep', ?_, SeqQueue.capacity_enqueue.trans hcapacity⟩
        rw [hcontents, helems]
      · cases hr
        have hfull : s.isFull = true := by
          rw [hrep.sound.isFull_iff, hsize, hcapacity]
          exact Nat.le_antisymm f.length_le (Nat.le_of_not_lt hroom)
        rw [SeqQueue.enqueue_of_full hfull] at heq hrep'
        exact ⟨q', heq, s, hrep', helems, hcapacity⟩
  | dequeue hne =>
      cases hr
      have hempty : s.isEmpty = false := by
        rw [Bool.eq_false_iff, Ne, hrep.sound.isEmpty_iff, hsize, List.length_eq_zero_iff]
        exact hne
      obtain ⟨q', heq, hrep'⟩ := hrep.dequeue hmax hempty
      have hcontents := hrep.sound.contents_dequeue hempty
      rw [helems] at hcontents
      have hhead : f.elems.head hne = s.dequeue.1 := by simp [hcontents]
      have htail : s.dequeue.2.contents = f.elems.tail := by rw [hcontents, List.tail_cons]
      rw [hhead]
      exact ⟨q', heq, _, hrep', htail, SeqQueue.capacity_dequeue.trans hcapacity⟩
  | reset newCap hone hle =>
      cases hr
      exact ⟨_, rfl, _, hrep.reset hone hle, SeqQueue.contents_reset _, rfl⟩
  | resetMaximizeCapacity =>
      cases hr
      exact ⟨_, rfl, _, hrep.reset hpos (UInt32.le_refl _), SeqQueue.contents_reset _, rfl⟩

/-- A sequence of operations returns what it does on the list. -/
theorem Refines.run (h : q.Refines f) (hmax : fifoMaxSize.toNat ≤ 2 ^ 31) (hpos : 1 ≤ fifoMaxSize)
    {ops : List (QueueOp α)} {outs : List (QueueOut α)} {f' : Fifo α}
    (hsteps : Fifo.Steps fifoMaxSize f ops outs f') :
    ∃ q', q.run ops = some (outs, q') ∧ q'.Refines f' := by
  induction hsteps generalizing q with
  | nil f => exact ⟨q, rfl, h⟩
  | cons hstep _ ih =>
      obtain ⟨q', hq', h'⟩ := h.step hmax hpos hstep
      obtain ⟨q'', hq'', h''⟩ := ih h'
      refine ⟨q'', ?_, h''⟩
      rw [SeqQueueWords.run, hq']
      dsimp only [Option.bind_eq_bind, Option.bind_some]
      rw [hq'']
      rfl

theorem refines_init (data : Vector α fifoMaxSize.toNat) (hpos : 1 ≤ fifoMaxSize) :
    ({ data := data } : SeqQueueWords α fifoMaxSize).Refines Fifo.init := by
  have hpos' : 0 < fifoMaxSize.toNat := UInt32.le_iff_toNat_le.1 hpos
  obtain ⟨elems, helems⟩ : ∃ elems : ℕ → α, ∀ i (h : i < fifoMaxSize.toNat), data[i] = elems i :=
    ⟨fun i => if h : i < fifoMaxSize.toNat then data[i] else data[0], fun i h => (dif_pos h).symm⟩
  have hempty : ({ data := elems } : SeqQueue α).isEmpty = true := rfl
  refine ⟨{ data := elems }, ⟨⟨Nat.one_pos, Nat.one_pos, Nat.le_refl 1, fun _ => rfl⟩, rfl, rfl, rfl,
    hpos', helems⟩, SeqQueue.contents_of_empty hempty, rfl⟩

/-- **The queue refines a bounded list**: whatever is done that is allowed, no access of the array
is out of bounds, everything returned is what the list returns, and the two look alike. -/
theorem refines_fifo (data : Vector α fifoMaxSize.toNat) (hpos : 1 ≤ fifoMaxSize)
    (hmax : fifoMaxSize ≤ 0x80000000) {ops : List (QueueOp α)} {outs : List (QueueOut α)} {f : Fifo α}
    (hsteps : Fifo.Steps fifoMaxSize Fifo.init ops outs f) :
    ∃ q, ({ data := data } : SeqQueueWords α fifoMaxSize).run ops = some (outs, q) ∧
      q.Matches f := by
  have hmax' : fifoMaxSize.toNat ≤ 2 ^ 31 := UInt32.le_iff_toNat_le.1 hmax
  obtain ⟨q, hrun, hrefines⟩ := (refines_init data hpos).run hmax' hpos hsteps
  exact ⟨q, hrun, hrefines.matches hmax'⟩

/-- Two elements go in, the oldest comes out, and the queue is emptied. -/
theorem refines_fifo_two :
    ∃ q : SeqQueueWords Bool 32, ({ data := .replicate _ false } : SeqQueueWords Bool 32).run
      [.resetMaximizeCapacity, .enqueue true, .enqueue false, .dequeue, .reset 1] =
        some ([.reset, .enqueued true, .enqueued true, .dequeued true, .reset], q) ∧
      q.Matches ⟨1, [], Nat.zero_le 1⟩ :=
  refines_fifo _ (by decide) (by decide)
    (.cons (.resetMaximizeCapacity _) (.cons (.enqueue _ true) (.cons (.enqueue _ false)
      (.cons (.dequeue _ (List.cons_ne_nil true [false])) (.cons (.reset _ 1 (by decide) (by decide))
        (.nil _))))))

end SeqQueueWords

end Vml
