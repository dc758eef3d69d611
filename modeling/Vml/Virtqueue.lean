import Vml.Platform

/-!
# Virtqueues

The shared memory of a split virtqueue and the two queue classes that run over it, following
`virtqueue.hpp` and `virtqueue.cpp`. A queue is three regions the driver and the device both
map: the descriptor table, the available ring (written by the driver) and the used ring (written
by the device).

A side of the queue keeps four 16-bit counters of its own (`Queue`). `DeviceQueue.send` and
`DeviceQueue.recv` are given here the way a device runs them against a guest it does not trust:
every load is answered by an oracle `Guest`, so the guest may change anything between two loads,
and the stores the device makes are recorded as events. `Vml.VirtqueueRing` runs the same
operations against a driver, one load or store at a time.
-/

namespace Vml

/-! ## Shared memory -/

/-- `VIRTQ_DESC_CONT_NEXT`. -/
abbrev virtqDescContNext : UInt16 := 0x1

/-- `VIRTQ_DESC_WRITE_ONLY`. -/
abbrev virtqDescWriteOnly : UInt16 := 0x2

/-- An entry of the descriptor table. -/
structure Descriptor where
  address : UInt64 := 0
  length : UInt32 := 0
  flags : UInt16 := 0
  next : UInt16 := 0
  deriving DecidableEq, Repr

/-- The descriptor continues with the one its `next` field names. -/
def contNext (flags : UInt16) : Bool := flags &&& virtqDescContNext != 0

/-- The device may only read the descriptor's bytes. -/
def isReadable (flags : UInt16) : Bool := flags &&& virtqDescWriteOnly == 0

/-- The available ring. -/
structure Available where
  flags : UInt16 := 0
  index : UInt16 := 0
  ring : ℕ → UInt16 := fun _ => 0
  /-- The field after the ring. The source reads it as `avail_event`; it is the driver's
  `used_event`. -/
  availEvent : UInt16 := 0

/-- An element of the used ring. -/
structure UsedEntry where
  id : UInt32 := 0
  length : UInt32 := 0
  deriving DecidableEq, Repr

/-- The used ring. -/
structure Used where
  flags : UInt16 := 0
  index : UInt16 := 0
  ring : ℕ → UsedEntry := fun _ => {}
  availEvent : UInt16 := 0

/-- The memory the driver and the device share. -/
structure Shared where
  table : UInt16 → Descriptor := fun _ => {}
  avail : Available := {}
  used : Used := {}

/-- What the shared memory holds when the device makes its `n`-th load. -/
abbrev Guest := ℕ → Shared

/-! ## Running indices -/

/-- The size and the counters one side of a queue keeps. -/
structure Queue where
  size : UInt16 := 0
  /-- How far this side has read the ring the other side drives. -/
  idx : UInt16 := 0
  /-- The previous value of `drivenIdx`. -/
  prev : UInt16 := 0
  /-- How far this side has written the ring it drives. -/
  drivenIdx : UInt16 := 0
  deriving DecidableEq, Repr

/-- `Queue::is_size_valid`. -/
def isSizeValid (sz : UInt16) : Bool :=
  sz != 0 && decide (sz ≤ 32768) && sz &&& (sz - 1) == 0

namespace Queue

/-- `_prev = _driven_idx++`. -/
def bumpDrivenIdx (q : Queue) : Queue :=
  { q with prev := q.drivenIdx, drivenIdx := q.drivenIdx + 1 }

/-- `_idx++`. -/
def bumpIdx (q : Queue) : Queue := { q with idx := q.idx + 1 }

/-- The slot `_prev % _size` of the ring this side drives. -/
def drivenSlot (q : Queue) : ℕ := (q.prev % q.size).toNat

/-- The slot `_idx % _size` of the ring the other side drives. -/
def readSlot (q : Queue) : ℕ := (q.idx % q.size).toNat

/-- How many elements the other side has published and this side has not read. -/
def countAvailable (q : Queue) (idx : UInt16) : UInt16 :=
  if q.idx ≤ idx then idx - q.idx else (uint16Max - q.idx) + 1 + idx

/-- `count_free`. -/
def countFree (q : Queue) (idx : UInt16) : UInt16 := q.size - q.countAvailable idx

end Queue

/-! ## The device side -/

/-- What a device does to its queue that the outside can see. -/
inductive QueueEvent
  /-- A queue of this size is put in place. -/
  | construct (size : UInt16)
  /-- The queue is torn down. -/
  | destruct
  /-- `recv` returned this head. -/
  | recv (head : UInt16)
  /-- `recv` wrote this index to the used ring's `avail_event`. -/
  | availEvent (index : UInt16)
  /-- `send` on a queue of size `size` stored `(id, len)` in this slot and then the index. -/
  | send (size : UInt16) (slot : ℕ) (id : UInt32) (len : UInt32) (index : UInt16)
  deriving DecidableEq, Repr

/-- A `Virtio::DeviceQueue`. `log` is a history variable: the queue's events so far, oldest
first. No computation reads it. -/
structure DeviceQueue extends Queue where
  log : List QueueEvent := []
  deriving DecidableEq, Repr

namespace DeviceQueue

/-- Record an event. -/
def emit (q : DeviceQueue) (e : QueueEvent) : DeviceQueue := { q with log := q.log ++ [e] }

/-- `DeviceQueue::send`: hand descriptor chain `desc` back with used length `len`. -/
def send (q : DeviceQueue) (desc : UInt16) (len : UInt32) : DeviceQueue :=
  let q' := q.toQueue.bumpDrivenIdx
  { toQueue := q',
    log := q.log ++ [.send q.size q'.drivenSlot desc.toUInt32 len q'.drivenIdx] }

/-- What `DeviceQueue::recv` returns: the head, unless the error code says otherwise. -/
structure RecvResult where
  err : Errno
  desc : UInt16
  queue : DeviceQueue
  /-- The number of the next load. -/
  time : ℕ

/-- `DeviceQueue::recv`: take the next head from the available ring. The index is loaded at
`time` and the ring entry after it; without a head the descriptor is the null one. -/
def recv (q : DeviceQueue) (g : Guest) (time : ℕ) : RecvResult :=
  let availIdx := (g time).avail.index
  if q.countAvailable availIdx = 0 then ⟨.noent, uint16Max, q, time + 1⟩
  else
    let head := (g (time + 1)).avail.ring q.readSlot
    let q' := { (q.emit (.availEvent availIdx)) with toQueue := q.toQueue.bumpIdx }
    if q.size ≤ head then ⟨.notrecoverable, uint16Max, q', time + 2⟩
    else ⟨.none, head, q'.emit (.recv head), time + 2⟩

/-- `DeviceQueue::get_free`. -/
def getFree (q : DeviceQueue) (m : Shared) : UInt16 := q.countFree m.avail.index

end DeviceQueue

/-! ## The history of a queue -/

/-- The heads received. -/
def received (log : List QueueEvent) : List UInt16 :=
  log.filterMap fun | .recv head => some head | _ => none

/-- The elements published in the used ring. -/
def published (log : List QueueEvent) : List (UInt32 × UInt32) :=
  log.filterMap fun | .send _ _ id len _ => some (id, len) | _ => none

namespace DeviceQueue

variable (q : DeviceQueue)

@[simp] theorem received_send (desc : UInt16) (len : UInt32) :
    received (q.send desc len).log = received q.log := by
  simp [send, received]

@[simp] theorem published_send (desc : UInt16) (len : UInt32) :
    published (q.send desc len).log = published q.log ++ [(desc.toUInt32, len)] := by
  simp [send, published]

@[simp] theorem size_send (desc : UInt16) (len : UInt32) : (q.send desc len).size = q.size := rfl

theorem recv_cases (g : Guest) (t : ℕ) :
    ((q.recv g t).err = .noent ∧ q.countAvailable (g t).avail.index = 0 ∧
      (q.recv g t).queue = q ∧ (q.recv g t).time = t + 1) ∨
    ((q.recv g t).err = .notrecoverable ∧ q.countAvailable (g t).avail.index ≠ 0 ∧
      q.size ≤ (g (t + 1)).avail.ring q.readSlot ∧
      (q.recv g t).queue = { (q.emit (.availEvent (g t).avail.index)) with
        toQueue := q.toQueue.bumpIdx } ∧ (q.recv g t).time = t + 2) ∨
    ((q.recv g t).err = .none ∧ q.countAvailable (g t).avail.index ≠ 0 ∧
      (q.recv g t).desc = (g (t + 1)).avail.ring q.readSlot ∧ (q.recv g t).desc < q.size ∧
      (q.recv g t).queue = { q with
        toQueue := q.toQueue.bumpIdx
        log := q.log ++ [.availEvent (g t).avail.index] ++ [.recv (q.recv g t).desc] } ∧
      (q.recv g t).time = t + 2) := by
  rw [recv]
  dsimp only
  split_ifs with h0 hsize
  · exact .inl ⟨rfl, h0, rfl, rfl⟩
  · exact .inr (.inl ⟨rfl, h0, hsize, rfl, rfl⟩)
  · exact .inr (.inr ⟨rfl, h0, rfl, UInt16.not_le.1 hsize, rfl, rfl⟩)

@[simp] theorem size_recv (g : Guest) (t : ℕ) : (q.recv g t).queue.size = q.size := by
  rcases q.recv_cases g t with h | h | h
  · rw [h.2.2.1]
  · rw [h.2.2.2.1]
    rfl
  · rw [h.2.2.2.2.1]
    rfl

theorem recv_desc_lt {g : Guest} {t : ℕ} (h : (q.recv g t).err = .none) :
    (q.recv g t).desc < q.size := by
  rcases q.recv_cases g t with hr | hr | hr
  · exact absurd (h.symm.trans hr.1) (by decide)
  · exact absurd (h.symm.trans hr.1) (by decide)
  · exact hr.2.2.2.1

@[simp] theorem published_recv (g : Guest) (t : ℕ) :
    published (q.recv g t).queue.log = published q.log := by
  rcases q.recv_cases g t with h | h | h
  · rw [h.2.2.1]
  · rw [h.2.2.2.1]
    simp [published, emit]
  · rw [h.2.2.2.2.1]
    simp [published]

theorem received_recv (g : Guest) (t : ℕ) :
    received (q.recv g t).queue.log =
      received q.log ++ if (q.recv g t).err = .none then [(q.recv g t).desc] else [] := by
  rcases q.recv_cases g t with h | h | h
  · rw [h.2.2.1, h.1]
    simp
  · rw [h.2.2.2.1, h.1]
    simp [received, emit]
  · rw [h.2.2.2.2.1, h.1]
    simp [received]

end DeviceQueue

/-! ## Queue sizes -/

/-- A valid size is a power of two, so it divides the range of the 16-bit counters. -/
theorem isSizeValid_dvd {sz : UInt16} (h : isSizeValid sz = true) : sz.toNat ∣ 2 ^ 16 := by
  simp only [isSizeValid, Bool.and_eq_true, bne_iff_ne, ne_eq, decide_eq_true_eq, beq_iff_eq] at h
  obtain ⟨⟨hne, hle⟩, hand⟩ := h
  have hpos : sz.toNat ≠ 0 := fun h0 => hne (UInt16.toNat_inj.1 h0)
  have hsub : (sz - 1).toNat = sz.toNat - 1 :=
    UInt16.toNat_sub_of_le _ _ (UInt16.le_iff_toNat_le.2 (Nat.one_le_iff_ne_zero.2 hpos))
  have hpow : sz.toNat &&& (sz.toNat - 1) = 0 := by
    rw [← hsub, ← UInt16.toNat_and, hand]
    rfl
  obtain ⟨k, hk⟩ := (Nat.and_sub_one_eq_zero_iff_isPowerOfTwo hpos).1 hpow
  have hle' : sz.toNat ≤ 2 ^ 15 := UInt16.le_iff_toNat_le.1 hle
  have hk15 : k ≤ 15 := (Nat.pow_le_pow_iff_right (by norm_num)).1 (hk ▸ hle')
  exact hk ▸ Nat.pow_dvd_pow 2 (by omega)

theorem isSizeValid_pos {sz : UInt16} (h : isSizeValid sz = true) : 0 < sz.toNat := by
  simp only [isSizeValid, Bool.and_eq_true, bne_iff_ne, ne_eq] at h
  exact Nat.pos_of_ne_zero fun h0 => h.1.1 (UInt16.toNat_inj.1 h0)

theorem isSizeValid_le {sz : UInt16} (h : isSizeValid sz = true) : sz.toNat ≤ 32768 := by
  simp only [isSizeValid, Bool.and_eq_true, decide_eq_true_eq] at h
  exact UInt16.le_iff_toNat_le.1 h.1.2

/-- `count_available` is the difference of the counters modulo `2 ^ 16`, whichever is larger. -/
theorem Queue.toNat_countAvailable (q : Queue) (i : UInt16) :
    (q.countAvailable i).toNat = (i.toNat + 2 ^ 16 - q.idx.toNat) % 2 ^ 16 := by
  have hi := i.toNat_lt
  have hq := q.idx.toNat_lt
  unfold countAvailable
  split_ifs with h
  · have hle := UInt16.le_iff_toNat_le.1 h
    rw [UInt16.toNat_sub_of_le _ _ h]
    omega
  · have hlt : i.toNat < q.idx.toNat := Nat.lt_of_not_le fun hc => h (UInt16.le_iff_toNat_le.2 hc)
    have hsub : (uint16Max - q.idx).toNat = 65535 - q.idx.toNat :=
      UInt16.toNat_sub_of_le _ _ (UInt16.le_iff_toNat_le.2 (Nat.le_of_lt_succ hq))
    rw [UInt16.toNat_add, UInt16.toNat_add, hsub, UInt16.toNat_one]
    omega

theorem Queue.toNat_countAvailable_sub {q : Queue} {i : UInt16} {taken posted : ℕ}
    (hidx : q.idx.toNat = taken % 2 ^ 16) (hi : i.toNat = posted % 2 ^ 16) (hle : taken ≤ posted)
    (hroom : posted < taken + 2 ^ 16) : (q.countAvailable i).toNat = posted - taken := by
  rw [Queue.toNat_countAvailable, hidx, hi]
  omega

theorem Queue.readSlot_mod {q : Queue} {taken : ℕ} (hvalid : isSizeValid q.size = true)
    (hidx : q.idx.toNat = taken % 2 ^ 16) : q.readSlot = taken % q.size.toNat := by
  rw [Queue.readSlot, UInt16.toNat_mod, hidx]
  exact Nat.mod_mod_of_dvd _ (isSizeValid_dvd hvalid)

end Vml
