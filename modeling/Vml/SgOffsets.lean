import Vml.SgWritten

/-!
# Offsets into a payload

Three functions of `virtio_sg.cpp` and `virtio_sg.hpp` add up the lengths of descriptors: `find`
until it is past an offset, `descriptor_offset` until an index, and `first_writable_byte` until the
first writable descriptor. At most `2 ^ 16` lengths of 32 bits are added, so that no sum wraps.

**What they agree on** is where a descriptor starts (`Buffer.descOffset`). A place in the payload is
a descriptor and an offset in it (`Buffer.IsPlace`), and every offset has exactly one.

Main result: `Buffer.offsets_agree`.
-/

namespace Vml

namespace Buffer

/-- The loop of `descriptor_offset`, from the descriptor that the iterator is at. -/
def descriptorOffsetLoop (b : Buffer) : (descriptorChainIdx it off : ℕ) → Except Errno ℕ
  | 0, _, off => .ok off
  | idx + 1, it, off =>
      if it = b.active then .error .inval
      else descriptorOffsetLoop b idx (it + 1) (off + b.len it)

/-- `descriptor_offset`. -/
def descriptorOffset (b : Buffer) (descriptorChainIdx : ℕ) : Except Errno ℕ :=
  b.descriptorOffsetLoop descriptorChainIdx 0 0

/-- `first_writable_desc`. -/
def tryFirstWritableDesc (b : Buffer) : Except Errno UInt16 :=
  if b.isWritable then .ok b.firstWritableDesc else .error .perm

/-- The loop of `first_writable_byte`: so many descriptors are left, from `idx` on. -/
def firstWritableByteLoop (b : Buffer) : (left idx byteOffset : ℕ) → ℕ
  | 0, _, byteOffset => byteOffset
  | left + 1, idx, byteOffset => firstWritableByteLoop b left (idx + 1) (byteOffset + b.len idx)

/-- `first_writable_byte`. -/
def tryFirstWritableByte (b : Buffer) : Except Errno ℕ :=
  b.tryFirstWritableDesc.map fun idx => b.firstWritableByteLoop idx.toNat 0 0

/-- No descriptor is empty, the size is that of all, and the first writable one is one of them. -/
structure Payload (b : Buffer) : Prop where
  len_pos : ∀ i < b.active, 0 < b.len i
  size_eq : b.sizeBytes = ∑ i ∈ Finset.range b.active, b.len i
  first_lt : b.seenWritableDesc = true → b.firstWritableDesc.toNat < b.active

/-- A descriptor and an offset in it, at an offset of the payload. -/
def IsPlace (b : Buffer) (off : ℕ) (c : ℕ × ℕ) : Prop :=
  c.1 < b.active ∧ c.2 < b.len c.1 ∧
    ∃ start, b.descriptorOffset c.1 = .ok start ∧ start + c.2 = off

variable {b : Buffer} {off : ℕ}

theorem WellFormed.payload (h : b.WellFormed) : b.Payload := ⟨h.len_pos, h.size_eq, h.first_lt⟩

/-! ## The loops -/

/-- **The loop of `descriptor_offset`** fails past the last descriptor, and stops at the start of
one otherwise. -/
theorem descriptorOffsetLoop_eq {idx it : ℕ} (hit : it ≤ b.active) :
    b.descriptorOffsetLoop idx it (b.descOffset it) =
      if b.active < it + idx then .error .inval else .ok (b.descOffset (it + idx)) := by
  induction idx generalizing it with
  | zero => rw [descriptorOffsetLoop, if_neg (by omega), Nat.add_zero]
  | succ idx ih =>
      rw [descriptorOffsetLoop]
      by_cases hend : it = b.active
      · rw [if_pos hend, if_pos (by omega)]
      · have hnext : b.descOffset it + b.len it = b.descOffset (it + 1) := (offsetOf_succ ..).symm
        have hsum : it + 1 + idx = it + (idx + 1) := by omega
        rw [if_neg hend, hnext, ih (by omega), hsum]

theorem descriptorOffset_eq (b : Buffer) (idx : ℕ) :
    b.descriptorOffset idx =
      if b.active < idx then .error .inval else .ok (b.descOffset idx) := by
  have hloop := @descriptorOffsetLoop_eq b idx 0 (Nat.zero_le _)
  rwa [Nat.zero_add] at hloop

theorem firstWritableByteLoop_eq (b : Buffer) (left idx : ℕ) :
    b.firstWritableByteLoop left idx (b.descOffset idx) = b.descOffset (idx + left) := by
  induction left generalizing idx with
  | zero => rfl
  | succ left ih =>
      have hnext : b.descOffset idx + b.len idx = b.descOffset (idx + 1) := (offsetOf_succ ..).symm
      have hsum : idx + 1 + left = idx + (left + 1) := by omega
      rw [firstWritableByteLoop, hnext, ih, hsum]

theorem tryFirstWritableByte_eq (h : b.isWritable = true) :
    b.tryFirstWritableByte = .ok b.firstWritableByte := by
  have hloop := b.firstWritableByteLoop_eq b.firstWritableDesc.toNat 0
  rw [Nat.zero_add] at hloop
  rw [tryFirstWritableByte, tryFirstWritableDesc, if_pos h]
  exact congrArg Except.ok hloop

theorem findLoop_end {left it cur : ℕ} (hleft : it + left = b.active) (hcur : cur = b.descOffset it)
    (hoff : b.descOffset b.active ≤ off) : b.findLoop off left it cur = (b.active, off) := by
  induction left generalizing it cur with
  | zero =>
      obtain rfl : it = b.active := by omega
      rfl
  | succ left ih =>
      have hlt : it < b.active := by omega
      have hle : b.descOffset it + b.len it ≤ b.descOffset b.active := offsetOf_add_le hlt
      rw [findLoop, if_neg (by omega)]
      refine ih (by omega) ?_
      rw [hcur, descOffset, descOffset, offsetOf_succ]

/-! ## Places -/

theorem isPlace_iff {c : ℕ × ℕ} :
    b.IsPlace off c ↔ c.1 < b.active ∧ c.2 < b.len c.1 ∧ b.descOffset c.1 + c.2 = off := by
  rw [IsPlace, descriptorOffset_eq]
  constructor
  · rintro ⟨hlt, hlen, start, hstart, hsum⟩
    rw [if_neg (by omega)] at hstart
    cases hstart
    exact ⟨hlt, hlen, hsum⟩
  · rintro ⟨hlt, hlen, hsum⟩
    exact ⟨hlt, hlen, _, if_neg (by omega), hsum⟩

/-- **No offset has two places**: a descriptor ends before the next one starts. -/
theorem IsPlace.unique {c c' : ℕ × ℕ} (h : b.IsPlace off c) (h' : b.IsPlace off c') : c' = c := by
  obtain ⟨-, hlen, hsum⟩ := isPlace_iff.1 h
  obtain ⟨-, hlen', hsum'⟩ := isPlace_iff.1 h'
  have hnot {i j : ℕ} (hij : i < j) : b.descOffset i + b.len i ≤ b.descOffset j :=
    offsetOf_add_le hij
  obtain hlt | heq | hlt := Nat.lt_trichotomy c.1 c'.1
  · have := hnot hlt
    omega
  · refine Prod.ext heq.symm ?_
    rw [← heq] at hsum'
    omega
  · have := hnot hlt
    omega

/-- **`find`** finds the place of an offset in the payload. -/
theorem Payload.isPlace_find (h : b.Payload) (hoff : off < b.sizeBytes) :
    b.IsPlace off (b.find off) := by
  have hsize : b.sizeBytes = b.descOffset b.active := h.size_eq
  by_cases hzero : off = 0
  · have hactive : 0 < b.active := by
      refine Nat.pos_of_ne_zero fun hnone => ?_
      rw [hsize, hnone, descOffset, offsetOf_zero] at hoff
      exact absurd hoff (Nat.not_lt_zero _)
    have hfind : b.find off = (0, 0) := by
      rw [find, if_neg (by omega), if_pos hzero]
    rw [hfind]
    exact isPlace_iff.2 ⟨hactive, h.len_pos 0 hactive, hzero.symm⟩
  · obtain ⟨hat, hlt⟩ := at_findLoop (Nat.zero_add b.active) rfl (Nat.zero_le off)
      (hsize ▸ hoff)
    rw [find, if_neg (by omega), if_neg hzero]
    exact isPlace_iff.2 ⟨hlt, hat.lt hlt, hat.pos⟩

theorem Payload.find_end (h : b.Payload) (hpos : 0 < b.sizeBytes) (hoff : b.sizeBytes ≤ off) :
    b.find off = (b.active, off) := by
  have hsize : b.sizeBytes = b.descOffset b.active := h.size_eq
  rw [find]
  split_ifs with hpast hzero
  · rfl
  · omega
  · exact findLoop_end (Nat.zero_add _) rfl (hsize ▸ hoff)

/-- **The offsets agree**: `find` finds the only place of every offset in the payload, and the end
past it; `descriptor_offset` fails for indices past the last descriptor; and the first writable byte
is where the first writable descriptor starts. -/
theorem offsets_agree (h : b.Payload) :
    (∀ off < b.sizeBytes, b.IsPlace off (b.find off) ∧ ∀ c, b.IsPlace off c → c = b.find off) ∧
      (∀ off, 0 < b.sizeBytes → b.sizeBytes ≤ off → (b.find off).1 = b.active) ∧
      (∀ idx, (∃ e, b.descriptorOffset idx = .error e) ↔ b.active < idx) ∧
      (b.isWritable = true → ∃ start, b.tryFirstWritableByte = .ok start ∧
        b.descriptorOffset b.firstWritableDesc.toNat = .ok start) := by
  refine ⟨fun off hoff => ⟨h.isPlace_find hoff, fun c hc => (h.isPlace_find hoff).unique hc⟩, ?_, ?_,
    ?_⟩
  · intro off hpos hoff
    rw [h.find_end hpos hoff]
  · intro idx
    rw [descriptorOffset_eq]
    constructor
    · rintro ⟨e, he⟩
      by_contra hle
      rw [if_neg hle] at he
      cases he
    · intro hlt
      exact ⟨_, if_pos hlt⟩
  · intro hwritable
    have hlt := h.first_lt hwritable
    refine ⟨_, tryFirstWritableByte_eq hwritable, ?_⟩
    rw [descriptorOffset_eq, if_neg (by omega)]
    rfl

/-- Four bytes that the device reads and eight that it writes. -/
def twoDescs : Buffer where
  maxChainLength := 2
  activeChainLength := 2
  sizeBytes := 12
  seenReadableDesc := true
  seenWritableDesc := true
  firstWritableDesc := 1
  descChain := fun i => if i = 0 then { length := 4 } else { length := 8, flags := 2 }

theorem payload_twoDescs : twoDescs.Payload := ⟨by decide, by decide, by decide⟩

/-- Byte five is the second of the second descriptor, and byte twelve is past the end. -/
theorem offsets_agree_twoDescs :
    twoDescs.IsPlace 5 (twoDescs.find 5) ∧ twoDescs.find 5 = (1, 1) ∧
      (twoDescs.find 12).1 = twoDescs.active :=
  ⟨((offsets_agree payload_twoDescs).1 5 (by decide)).1, by decide,
    (offsets_agree payload_twoDescs).2.1 12 (by decide) (by decide)⟩

end Buffer

end Vml
