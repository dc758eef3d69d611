import Vml.Lib.Run
import Vml.SgTrack
import Vml.SgWalkProof

/-!
# The length a device reports

`conclude_chain_use` publishes a length that the guest takes for a lower bound on the bytes written
from the first writable byte on. It is computed from one recorded prefix per descriptor. A chunk
that starts inside a recorded prefix and ends before the end of it makes the prefix `UINT32_MAX`,
where the source means to handle an overflow (`DescMetadata.prefix_heuristicallyTrack`).

A prefix is therefore `Truthful`, or it is `Overrun`. An overrun prefix of a later descriptor does
no harm: adding it to the sum takes one off, modulo `2 ^ 32`. An overrun prefix of the *first*
writable descriptor is reported as it stands.

* `usedLength_iff`: after any sequence of completed copies the reported length is a lower bound if
  and only if no copy has rewritten a part of the first writable descriptor's prefix, or the chain
  has `2 ^ 32 - 1` writable bytes and all of them have been written.
* `usedLength_overrun`: two copies after which 4294967295 bytes are reported for 16.
-/

namespace Vml

/-! ## Copies into a buffer -/

/-- A copy into a buffer, with the memory it is performed in. -/
inductive FillOp
  | fromLinear (src : Option ℕ) (accessor : ChainAccessor) (sizeBytes dOff : ℕ)
      (copier : Option BulkCopier) (m : Mem)
  | fromSg (src : Buffer) (wellFormed : src.WellFormed) (dstAccessor srcAccessor : ChainAccessor)
      (sizeBytes dOff sOff : ℕ) (copier : Option BulkCopier) (m : Mem)

namespace FillOp

/-- Where in the destination's payload the copy goes. -/
def dOff : FillOp → ℕ
  | .fromLinear _ _ _ dOff _ _ => dOff
  | .fromSg _ _ _ _ _ dOff _ _ _ => dOff

/-- How many bytes it copies. -/
def sizeBytes : FillOp → ℕ
  | .fromLinear _ _ sizeBytes _ _ _ => sizeBytes
  | .fromSg _ _ _ _ sizeBytes _ _ _ _ => sizeBytes

/-- The copy, once completed, has written position `p` of the payload. -/
def Writes (op : FillOp) (p : ℕ) : Prop := op.dOff ≤ p ∧ p < op.dOff + op.sizeBytes

end FillOp

/-- Some copy has written position `p`. -/
def Written (ops : List FillOp) (p : ℕ) : Prop := ∃ op ∈ ops, op.Writes p

/-! ## One prefix -/

/-- What a chunk of `k` bytes at offset `s` makes of a prefix. -/
theorem DescMetadata.prefix_heuristicallyTrack (m : DescMetadata) {s k : ℕ}
    (h : s + k ≤ uint32Max.toNat) :
    (m.heuristicallyTrackWrittenBytes s k).prefixWrittenBytes.toNat =
      if m.prefixWrittenBytes.toNat < s then m.prefixWrittenBytes.toNat
      else if s + k < m.prefixWrittenBytes.toNat then uint32Max.toNat else s + k := by
  have hmax : uint32Max.toNat = 2 ^ 32 - 1 := rfl
  have hadd : sizeAdd s k = s + k := sizeAdd_of_lt (by omega)
  unfold heuristicallyTrackWrittenBytes
  rw [hadd]
  by_cases hs : m.prefixWrittenBytes.toNat < s
  · rw [if_neg (Nat.not_le.2 hs), if_pos hs]
  · rw [if_pos (Nat.not_lt.1 hs), if_neg hs]
    dsimp only
    by_cases hover : s + k < m.prefixWrittenBytes.toNat
    · rw [if_pos (.inl hover), if_pos hover]
      rfl
    · rw [if_neg (by omega), if_neg hover, UInt32.toNat_ofNat']
      exact Nat.mod_eq_of_lt (by omega)

namespace Buffer

/-- Perform a copy. The source of a `copy_to_sg` is another buffer. -/
def fill (b : Buffer) : FillOp → Errno × Buffer
  | .fromLinear src accessor sizeBytes dOff copier m =>
      let r := b.copyFromLinear src accessor sizeBytes dOff copier m
      (r.err, r.state)
  | .fromSg src _ dstAccessor srcAccessor sizeBytes dOff sOff copier m =>
      let h : Heap := fun i => if i = 0 then src else b
      let r := h.copyToSg 0 1 dstAccessor srcAccessor sizeBytes dOff sOff copier m
      (r.err, r.state 1)

/-- The buffer after a copy. -/
def afterFill (b : Buffer) (op : FillOp) : Buffer := (b.fill op).2

/-- The copy completes. -/
def Completes (b : Buffer) (op : FillOp) : Prop := (b.fill op).1 = .none

/-- The offset of the first writable byte. -/
def firstWritableByte (b : Buffer) : ℕ := b.descOffset b.firstWritableDesc.toNat

/-- The number of writable bytes. -/
def writableSize (b : Buffer) : ℕ :=
  offsetOf (fun i => if b.writableAt i then b.len i else 0) b.active

variable {b b' : Buffer} {op : FillOp} {i p n off : ℕ} {w : ℕ → Prop}

theorem completes_spec (hb : b.WellFormed) (h : b.Completes op) :
    op.dOff + op.sizeBytes ≤ b.sizeBytes ∧ b.afterFill op =
      (b.heuristicallyTrackWrittenBytes op.dOff op.sizeBytes).modifyCookie
        AsyncCopyCookie.reset := by
  cases op with
  | fromLinear src accessor sizeBytes dOff copier m => exact copyFromLinear_completed hb h
  | fromSg src hsrc dstAccessor srcAccessor sizeBytes dOff sOff copier m =>
      exact @Heap.copyToSg_completed (fun i => if i = 0 then src else b) 0 1 dstAccessor
        srcAccessor sizeBytes dOff sOff copier m (by decide) hb hsrc h

/-! ## The prefix of one descriptor -/

/-- The recorded prefix of descriptor `i`. -/
def prefixOf (b : Buffer) (i : ℕ) : ℕ := (b.descChainMetadata i).prefixWrittenBytes.toNat

/-- The prefix fits the descriptor, and the positions it covers have been written. -/
def Truthful (b : Buffer) (w : ℕ → Prop) (i : ℕ) : Prop :=
  b.prefixOf i ≤ b.len i ∧ ∀ j < b.prefixOf i, w (b.descOffset i + j)

/-- The prefix is `UINT32_MAX`. -/
def Overrun (b : Buffer) (i : ℕ) : Prop := b.prefixOf i = uint32Max.toNat

/-- The request `[p, p + n)` writes to descriptor `i`, and ends there inside the recorded
prefix. -/
def Rewrites (b : Buffer) (p n i : ℕ) : Prop :=
  max p (b.descOffset i) < min (p + n) (b.descOffset i + b.len i) ∧
    min (p + n) (b.descOffset i + b.len i) - b.descOffset i < b.prefixOf i

theorem desc_trackedMeta (b : Buffer) (p n i : ℕ) :
    (b.trackedMeta p n i).desc = (b.descChainMetadata i).desc := by
  rw [trackedMeta]
  split_ifs
  · exact DescMetadata.desc_heuristicallyTrack _ _ _
  · rfl

section OnePrefix

variable (hb : b.WellFormed) (hle : off + n ≤ b.sizeBytes) (hi : i < b.active)

include hb hle hi

/-- What a request makes of the prefix of descriptor `i`. -/
theorem prefixOf_heuristicallyTrack :
    (b.heuristicallyTrackWrittenBytes off n).prefixOf i =
      if max off (b.descOffset i) < min (off + n) (b.descOffset i + b.len i) ∧
          off ≤ b.descOffset i + b.prefixOf i then
        if min (off + n) (b.descOffset i + b.len i) - b.descOffset i < b.prefixOf i then
          uint32Max.toNat
        else min (off + n) (b.descOffset i + b.len i) - b.descOffset i
      else b.prefixOf i := by
  have hlen := hb.len_le_size hi
  have hsize := hb.size_le
  rw [prefixOf, metadata_heuristicallyTrack hb hle hi, trackedMeta]
  by_cases hchunk : max off (b.descOffset i) < min (off + n) (b.descOffset i + b.len i)
  · rw [if_pos hchunk, DescMetadata.prefix_heuristicallyTrack _ (by omega), ← prefixOf]
    by_cases hstart : off ≤ b.descOffset i + b.prefixOf i
    · have hend : max off (b.descOffset i) - b.descOffset i +
          (min (off + n) (b.descOffset i + b.len i) - max off (b.descOffset i)) =
            min (off + n) (b.descOffset i + b.len i) - b.descOffset i := by
        omega
      rw [hend, if_neg (show ¬b.prefixOf i < max off (b.descOffset i) - b.descOffset i by omega),
        if_pos (show _ ∧ off ≤ b.descOffset i + b.prefixOf i from ⟨hchunk, hstart⟩)]
    · rw [if_pos (show b.prefixOf i < max off (b.descOffset i) - b.descOffset i by omega),
        if_neg fun h => hstart h.2]
  · rw [if_neg hchunk, if_neg fun h => hchunk h.1]
    rfl

/-- **A request that does not rewrite a truthful prefix keeps it truthful.** -/
theorem truthful_heuristicallyTrack (h : b.Truthful w i) (hno : ¬b.Rewrites off n i) :
    (b.heuristicallyTrackWrittenBytes off n).Truthful (fun p => w p ∨ off ≤ p ∧ p < off + n) i := by
  obtain ⟨hfit, hw⟩ := h
  have hspan := prefixOf_heuristicallyTrack hb hle hi
  have hlen : (b.heuristicallyTrackWrittenBytes off n).len i = b.len i := by
    rw [heuristicallyTrack_frame]
    rfl
  have hoffset : (b.heuristicallyTrackWrittenBytes off n).descOffset i = b.descOffset i := by
    rw [heuristicallyTrack_frame]
    rfl
  rw [Truthful, hlen, hoffset, hspan]
  split_ifs with hchunk hover
  · exact absurd ⟨hchunk.1, hover⟩ hno
  · refine ⟨by omega, fun j hj => ?_⟩
    by_cases hold : j < b.prefixOf i
    · exact .inl (hw j hold)
    · exact .inr (by omega)
  · exact ⟨hfit, fun j hj => .inl (hw j hj)⟩

/-- **A request that rewrites a prefix overruns it.** -/
theorem overrun_of_rewrites (h : b.Rewrites off n i) :
    (b.heuristicallyTrackWrittenBytes off n).Overrun i := by
  obtain ⟨hchunk, hover⟩ := h
  rw [Overrun, prefixOf_heuristicallyTrack hb hle hi, if_pos ⟨hchunk, by omega⟩, if_pos hover]

/-- **An overrun prefix stays overrun.** -/
theorem overrun_heuristicallyTrack (h : b.Overrun i) :
    (b.heuristicallyTrackWrittenBytes off n).Overrun i := by
  have hlen := hb.len_le_size hi
  have hsize := hb.size_le
  rw [Overrun] at h
  rw [Overrun, prefixOf_heuristicallyTrack hb hle hi, h]
  split_ifs with hchunk hover
  · rfl
  · omega
  · rfl

end OnePrefix

/-! ## A sequence of copies -/

/-- The copy does not rewrite a part of the first writable descriptor's prefix. -/
def NoRewrite (b : Buffer) (op : FillOp) : Prop :=
  b.seenWritableDesc = true → ¬b.Rewrites op.dOff op.sizeBytes b.firstWritableDesc.toNat

/-- What copies into `b₀` that have written the positions `w` make of it: only the prefixes and the
cookie differ, and no prefix is wrong unless it is overrun. -/
structure Filled (b₀ b : Buffer) (w : ℕ → Prop) : Prop where
  frame : b = { b₀ with
    descChainMetadata := b.descChainMetadata
    asyncCopyCookie := b.asyncCopyCookie }
  desc : ∀ i < b₀.active, (b.descChainMetadata i).desc = (b₀.descChainMetadata i).desc
  prefixes : ∀ i < b₀.active, b.Truthful w i ∨ b.Overrun i

theorem truthful_of_prefix_zero (h : (b.descChainMetadata i).prefixWrittenBytes = 0) :
    b.Truthful w i := by
  have h0 : b.prefixOf i = 0 := by
    rw [prefixOf, h]
    rfl
  exact ⟨h0 ▸ Nat.zero_le _, fun j hj => by omega⟩

theorem Truthful.mono {w' : ℕ → Prop} (h : b.Truthful w i) (hw : ∀ p, w p → w' p) :
    b.Truthful w' i := ⟨h.1, fun j hj => hw _ (h.2 j hj)⟩

namespace Filled

variable {b₀ : Buffer} {ops : List FillOp}

theorem mono {w' : ℕ → Prop} (h : Filled b₀ b w) (hw : ∀ p, w p → w' p) : Filled b₀ b w' :=
  { h with prefixes := fun i hi => (h.prefixes i hi).imp_left fun ht => ht.mono hw }

theorem wellFormed (h : Filled b₀ b w) (hb₀ : b₀.WellFormed) : b.WellFormed := by
  rw [h.frame]
  exact ⟨⟨hb₀.active_le, hb₀.size_eq, hb₀.size_le, hb₀.first_lt, hb₀.writable_iff⟩, hb₀.len_pos⟩

theorem active (h : Filled b₀ b w) : b.active = b₀.active := by
  rw [h.frame]
  rfl

theorem prefix_step (h : Filled b₀ b w) (hb₀ : b₀.WellFormed) (hop : b.Completes op)
    (hi : i < b₀.active) :
    (b.Truthful w i → ¬b.Rewrites op.dOff op.sizeBytes i →
      (b.afterFill op).Truthful (fun p => w p ∨ op.Writes p) i) ∧
    (b.Overrun i ∨ b.Rewrites op.dOff op.sizeBytes i → (b.afterFill op).Overrun i) := by
  have hb := h.wellFormed hb₀
  have hi : i < b.active := h.active ▸ hi
  obtain ⟨hle, heq⟩ := completes_spec hb hop
  rw [heq]
  refine ⟨fun ht hno => truthful_heuristicallyTrack hb hle hi ht hno, ?_⟩
  rintro (hover | hre)
  · exact overrun_heuristicallyTrack hb hle hi hover
  · exact overrun_of_rewrites hb hle hi hre

/-- **A completed copy keeps the buffer filled.** -/
theorem afterFill (h : Filled b₀ b w) (hb₀ : b₀.WellFormed) (hop : b.Completes op) :
    Filled b₀ (b.afterFill op) (fun p => w p ∨ op.Writes p) := by
  have hb := h.wellFormed hb₀
  obtain ⟨hle, heq⟩ := completes_spec hb hop
  refine ⟨?_, fun i hi => ?_, fun i hi => ?_⟩
  · rw [heq, heuristicallyTrack_frame, h.frame]
    rfl
  · rw [heq, ← h.desc i hi, ← desc_trackedMeta b op.dOff op.sizeBytes i,
      ← metadata_heuristicallyTrack hb hle (h.active ▸ hi)]
    rfl
  · obtain ⟨hkeep, hover⟩ := h.prefix_step hb₀ hop hi
    by_cases hre : b.Rewrites op.dOff op.sizeBytes i
    · exact .inr (hover (.inr hre))
    · exact (h.prefixes i hi).imp (fun ht => hkeep ht hre) fun ho => hover (.inl ho)

/-- **A sequence of completed copies keeps the buffer filled.** -/
theorem foldl (h : Filled b₀ b w) (hb₀ : b₀.WellFormed)
    (hops : AllOk Buffer.afterFill Completes b ops) :
    Filled b₀ (ops.foldl Buffer.afterFill b) (fun p => w p ∨ Written ops p) := by
  induction ops generalizing b w with
  | nil => exact h.mono fun p hp => .inl hp
  | cons op ops ih =>
      refine (ih (h.afterFill hb₀ hops.1) hops.2).mono fun p hp => ?_
      rw [Written, List.exists_mem_cons_iff, ← Written, ← or_assoc]
      exact hp

theorem seenWritableDesc (h : Filled b₀ b w) : b.seenWritableDesc = b₀.seenWritableDesc := by
  rw [h.frame]

theorem firstWritableDesc (h : Filled b₀ b w) : b.firstWritableDesc = b₀.firstWritableDesc := by
  rw [h.frame]

theorem allOk_noRewrite (h : Filled b₀ b w) (hb₀ : b₀.WellFormed)
    (hops : AllOk Buffer.afterFill Completes b ops) (hseen : b₀.seenWritableDesc ≠ true) :
    AllOk Buffer.afterFill NoRewrite b ops := by
  induction ops generalizing b w with
  | nil => trivial
  | cons op ops ih =>
      exact ⟨fun hs => absurd (h.seenWritableDesc ▸ hs) hseen,
        ih (h.afterFill hb₀ hops.1) hops.2⟩

section FirstWritable

variable (h : Filled b₀ b w) (hb₀ : b₀.WellFormed) (hseen : b₀.seenWritableDesc = true)
  (hops : AllOk Buffer.afterFill Completes b ops)

include h hb₀ hseen hops

theorem overrun_foldl (hover : b.Overrun b₀.firstWritableDesc.toNat) :
    (ops.foldl Buffer.afterFill b).Overrun b₀.firstWritableDesc.toNat := by
  induction ops generalizing b w with
  | nil => exact hover
  | cons op ops ih =>
      have hfirst := hb₀.first_lt hseen
      exact ih (h.afterFill hb₀ hops.1) hops.2
        ((h.prefix_step hb₀ hops.1 hfirst).2 (.inl hover))

/-- **The first writable prefix stays truthful through a run that rewrites none of it, and is
overrun after any other.** -/
theorem firstWritable_foldl (ht : b.Truthful w b₀.firstWritableDesc.toNat) :
    (AllOk Buffer.afterFill NoRewrite b ops →
      (ops.foldl Buffer.afterFill b).Truthful (fun p => w p ∨ Written ops p)
        b₀.firstWritableDesc.toNat) ∧
    (¬AllOk Buffer.afterFill NoRewrite b ops →
      (ops.foldl Buffer.afterFill b).Overrun b₀.firstWritableDesc.toNat) := by
  induction ops generalizing b w with
  | nil => exact ⟨fun _ => ht.mono fun p hp => .inl hp, fun hno => absurd trivial hno⟩
  | cons op ops ih =>
      have hfirst := hb₀.first_lt hseen
      have hnext := h.afterFill hb₀ hops.1
      obtain ⟨hkeep, hover⟩ := h.prefix_step hb₀ hops.1 hfirst
      have hok : b.NoRewrite op ↔ ¬b.Rewrites op.dOff op.sizeBytes b₀.firstWritableDesc.toNat := by
        rw [NoRewrite, h.seenWritableDesc, h.firstWritableDesc]
        exact ⟨fun hno => hno hseen, fun hno _ => hno⟩
      by_cases hre : b.Rewrites op.dOff op.sizeBytes b₀.firstWritableDesc.toNat
      · exact ⟨fun hall => absurd hre (hok.1 hall.1),
          fun _ => hnext.overrun_foldl hb₀ hseen hops.2 (hover (.inr hre))⟩
      · obtain ⟨hyes, hno⟩ := ih hnext hops.2 (hkeep ht hre)
        refine ⟨fun hall => (hyes hall.2).mono fun p hp => ?_, fun hnot => hno fun hall => ?_⟩
        · rw [Written, List.exists_mem_cons_iff, ← Written, ← or_assoc]
          exact hp
        · exact hnot ⟨hok.2 hre, hall⟩

end FirstWritable

end Filled

/-! ## The reported length -/

/-- **The sum over truthful prefixes is a lower bound.** The loop has summed `lb` bytes, all of
them written, when it comes to descriptor `idx`. -/
theorem lowerboundLoop_written (hb : b.WellFormed) {base left idx : ℕ} {lb : UInt32}
    (hleft : idx + left = b.active) (hsum : base + lb.toNat = b.descOffset idx)
    (hw : ∀ j < lb.toNat, w (base + j))
    (hspan : ∀ i < b.active, b.Truthful w i ∨ b.Overrun i)
    (hidx : b.Truthful w idx ∨ 0 < lb.toNat) :
    (∀ j < (b.lowerboundLoop left idx lb).toNat, w (base + j)) ∧
      base + (b.lowerboundLoop left idx lb).toNat ≤ b.sizeBytes := by
  have hmax : uint32Max.toNat = 2 ^ 32 - 1 := rfl
  have hsize := hb.size_le
  induction left generalizing idx lb with
  | zero =>
      have hend : idx = b.active := by omega
      refine ⟨hw, ?_⟩
      rw [lowerboundLoop, hsum, hend, hb.size_eq]
  | succ left ih =>
      have hi : idx < b.active := by omega
      have hlen : b.descOffset idx + b.len idx ≤ b.sizeBytes := by
        rw [hb.size_eq]
        exact offsetOf_add_le hi
      rw [lowerboundLoop]
      by_cases ht : b.Truthful w idx
      · obtain ⟨hfit, hwritten⟩ := ht
        have hadd : (lb + (b.descChainMetadata idx).prefixWrittenBytes).toNat =
            lb.toNat + b.prefixOf idx := by
          rw [UInt32.toNat_add]
          exact Nat.mod_eq_of_lt (show lb.toNat + b.prefixOf idx < 2 ^ 32 by omega)
        have hw' : ∀ j < lb.toNat + b.prefixOf idx, w (base + j) := by
          intro j hj
          by_cases hold : j < lb.toNat
          · exact hw j hold
          · have := hwritten (j - lb.toNat) (by omega)
            rwa [← hsum, show base + lb.toNat + (j - lb.toNat) = base + j by omega] at this
        split_ifs with hfull
        · rw [hadd]
          exact ⟨hw', by omega⟩
        · have hpre : b.prefixOf idx = b.len idx := by
            rw [prefixOf, not_not.1 hfull]
            rfl
          have hpos := hb.len_pos idx hi
          refine ih (by omega) ?_ (hadd ▸ hw') (.inr (by omega))
          rw [hadd, descOffset, offsetOf_succ, ← descOffset]
          omega
      · -- An overrun prefix after the first: adding `UINT32_MAX` takes one off the sum.
        have hover : b.prefixOf idx = uint32Max.toNat := (hspan idx hi).resolve_left ht
        have hpos : 0 < lb.toNat := hidx.resolve_left ht
        have hne : (b.descChainMetadata idx).prefixWrittenBytes ≠ (b.descChain idx).length := by
          intro heq
          have : b.prefixOf idx = b.len idx := by
            rw [prefixOf, heq]
            rfl
          omega
        have hadd : (lb + (b.descChainMetadata idx).prefixWrittenBytes).toNat = lb.toNat - 1 := by
          rw [UInt32.toNat_add, ← prefixOf, hover]
          omega
        rw [if_pos hne, hadd]
        exact ⟨fun j hj => hw j (by omega), by omega⟩

/-- **An overrun first prefix is reported as it stands.** -/
theorem writtenBytesLowerbound_overrun (hb : b.WellFormed) (hseen : b.seenWritableDesc = true)
    (hover : b.Overrun b.firstWritableDesc.toNat) :
    b.writtenBytesLowerboundHeuristic = uint32Max := by
  have hfirst := hb.first_lt hseen
  have hmax : uint32Max.toNat = 2 ^ 32 - 1 := rfl
  have hsize := hb.size_le
  have hword : (b.descChainMetadata b.firstWritableDesc.toNat).prefixWrittenBytes = uint32Max :=
    UInt32.toNat_inj.1 hover
  obtain ⟨left, hleft⟩ : ∃ left, b.active - b.firstWritableDesc.toNat = left + 1 :=
    ⟨_, (Nat.succ_pred_eq_of_pos (by omega)).symm⟩
  rw [writtenBytesLowerboundHeuristic, isWritable, if_pos hseen, hleft, lowerboundLoop, hword,
    UInt32.zero_add]
  split_ifs with hfull
  · rfl
  · -- The descriptor is `UINT32_MAX` long, so it is the only one.
    have hlen : b.len b.firstWritableDesc.toNat = uint32Max.toNat := by
      rw [len, ← not_not.1 hfull]
    have hlast : left = 0 := by
      by_contra hne
      have hnext := hb.len_pos (b.firstWritableDesc.toNat + 1) (by omega)
      have hadd := @offsetOf_add_le b.len (b.firstWritableDesc.toNat + 1) b.active (by omega)
      rw [offsetOf_succ, ← descOffset, ← descOffset, ← hb.size_eq] at hadd
      omega
    rw [hlast]
    rfl

/-- The writable bytes are the ones from the first writable byte on. -/
theorem writableSize_eq (hb : b.WellFormed) (hseen : b.seenWritableDesc = true) :
    b.firstWritableByte + b.writableSize = b.sizeBytes := by
  have hfirst := hb.first_lt hseen
  have hcut : ∀ k ≤ b.active, b.descOffset (min k b.firstWritableDesc.toNat) +
      offsetOf (fun i => if b.writableAt i then b.len i else 0) k = b.descOffset k := by
    intro k hk
    induction k with
    | zero => simp [descOffset]
    | succ k ih =>
        have ih := ih (by omega)
        have hw := hb.writable_iff k (by omega)
        by_cases hlt : k < b.firstWritableDesc.toNat
        · rw [Nat.min_eq_left (by omega)] at ih ⊢
          have hro : b.writableAt k ≠ true := fun h => by
            have := (hw.1 h).2
            omega
          rw [offsetOf_succ, if_neg hro, descOffset, offsetOf_succ, ← descOffset]
          omega
        · rw [Nat.min_eq_right (by omega)] at ih ⊢
          rw [offsetOf_succ, if_pos (hw.2 ⟨hseen, by omega⟩), descOffset, descOffset,
            offsetOf_succ, ← descOffset, ← descOffset]
          omega
  have hall := hcut b.active le_rfl
  rwa [Nat.min_eq_right hfirst.le, ← hb.size_eq] at hall

/-- The guest may take `len` bytes for written: so many have been, one after the other from the
first writable byte on, and the chain has so many. -/
def IsLowerBound (b : Buffer) (ops : List FillOp) (len : ℕ) : Prop :=
  (∀ j < len, Written ops (b.firstWritableByte + j)) ∧ len ≤ b.writableSize

/-- The length reported for a chain `b₀` after completed copies `ops`. -/
theorem isLowerBound_iff {b₀ : Buffer} {ops : List FillOp} (hb₀ : b₀.WellFormed)
    (hzero : ∀ i < b₀.active, (b₀.descChainMetadata i).prefixWrittenBytes = 0)
    (hops : AllOk afterFill Completes b₀ ops) :
    b₀.IsLowerBound ops
        ((ops.foldl afterFill b₀).writtenBytesLowerboundHeuristic).toNat ↔
      AllOk afterFill NoRewrite b₀ ops ∨
        b₀.writableSize = uint32Max.toNat ∧ ∀ j < b₀.writableSize,
          Written ops (b₀.firstWritableByte + j) := by
  have hstart : Filled b₀ b₀ (fun _ => False) :=
    ⟨rfl, fun _ _ => rfl, fun i hi => .inl (truthful_of_prefix_zero (hzero i hi))⟩
  have hend := hstart.foldl hb₀ hops
  simp only [false_or] at hend
  have hwf := hend.wellFormed hb₀
  by_cases hseen : b₀.seenWritableDesc = true
  · have hfirst := hb₀.first_lt hseen
    have hsize := hb₀.size_le
    have hwritable := writableSize_eq hb₀ hseen
    obtain ⟨hyes, hno⟩ := hstart.firstWritable_foldl hb₀ hseen hops
      (truthful_of_prefix_zero (hzero _ hfirst))
    simp only [false_or] at hyes
    by_cases hok : AllOk afterFill NoRewrite b₀ ops
    · obtain ⟨hw, hle⟩ := @lowerboundLoop_written _ (Written ops) hwf b₀.firstWritableByte
        (b₀.active - b₀.firstWritableDesc.toNat) b₀.firstWritableDesc.toNat 0
        (by rw [hend.active]; omega) (by rw [hend.frame]; rfl) nofun
        (hend.active ▸ hend.prefixes) (.inl (hyes hok))
      rw [writtenBytesLowerboundHeuristic, isWritable, if_pos (hend.seenWritableDesc ▸ hseen),
        hend.firstWritableDesc, hend.active]
      have hsame : (ops.foldl afterFill b₀).sizeBytes = b₀.sizeBytes := by
        rw [hend.frame]
      exact ⟨fun _ => .inl hok, fun _ => ⟨hw, by omega⟩⟩
    · rw [writtenBytesLowerbound_overrun hwf (hend.seenWritableDesc ▸ hseen)
        (hend.firstWritableDesc ▸ hno hok)]
      constructor
      · rintro ⟨hw, hle⟩
        have hall : b₀.writableSize = uint32Max.toNat := by omega
        exact .inr ⟨hall, hall ▸ hw⟩
      · rintro (h | ⟨hall, hw⟩)
        · exact absurd h hok
        · exact ⟨hall ▸ hw, hall.ge⟩
  · rw [writtenBytesLowerboundHeuristic, isWritable, if_neg (hend.seenWritableDesc ▸ hseen)]
    exact ⟨fun _ => .inl (hstart.allOk_noRewrite hb₀ hops hseen),
      fun _ => ⟨nofun, Nat.zero_le _⟩⟩

/-- **When the length a device reports is a lower bound.** The device takes a chain off the queue,
performs any copies into it, all of which complete, and concludes it. -/
theorem usedLength_iff {b : Buffer} (hb : b.IsReset) {vq : DeviceQueue} {g : Guest} {t : ℕ}
    {r : WalkResult} (hwalk : b.walkChain vq g t = some r) (hr : r.err = .none)
    {ops : List FillOp} (hops : AllOk afterFill Completes r.buffer ops) (vq' : DeviceQueue) :
    ∃ len : UInt32,
      published ((ops.foldl afterFill r.buffer).concludeChainUse vq').2.log =
        published vq'.log ++ [((vq.recv g t).desc.toUInt32, len)] ∧
      (r.buffer.IsLowerBound ops len.toNat ↔
        AllOk afterFill NoRewrite r.buffer ops ∨
          r.buffer.writableSize = uint32Max.toNat ∧ ∀ j < r.buffer.writableSize,
            Written ops (r.buffer.firstWritableByte + j)) := by
  rcases @walkChain_cases b vq g t hb with ⟨herr, heq⟩ | ⟨-, r', heq, hout⟩
  · obtain rfl := Option.some.inj (hwalk.symm.trans heq)
    exact absurd hr herr
  · obtain rfl := Option.some.inj (hwalk.symm.trans heq)
    have hrec := hout.recorded hr
    have hstart : Filled r.buffer r.buffer (fun _ => False) :=
      ⟨rfl, fun _ _ => rfl, fun i hi => .inl (truthful_of_prefix_zero (hrec.prefix_zero i hi))⟩
    have hend := hstart.foldl hrec.wellFormed hops
    have hcomplete : (ops.foldl afterFill r.buffer).completeChain = true := by
      rw [hend.frame]
      exact hrec.completeChain
    refine ⟨_, ?_, isLowerBound_iff hrec.wellFormed hrec.prefix_zero hops⟩
    rw [concludeChainUse, concludeChainUseWith, shouldSendHeadDescriptor, hcomplete, Bool.true_or,
      if_pos rfl, DeviceQueue.published_send, hend.desc 0 hrec.active_pos, hrec.head_eq]

/-- One writable descriptor of 16 bytes. -/
def sixteenBytes : Guest := fun _ =>
  { table := fun _ => ⟨0x1000, 16, 2, 0⟩, avail := { index := 1, ring := fun _ => 0 } }

/-- Eight bytes, and then four, from linear memory to the start of the chain. -/
def twice : List FillOp :=
  [.fromLinear (some 0) identityAccessor 8 0 none fun _ => 0,
    .fromLinear (some 0) identityAccessor 4 0 none fun _ => 0]

/-- After the first of them the length reported is right. -/
theorem usedLength_sixteenBytes :
    ∃ r, ({ maxChainLength := 4 } : Buffer).walkChain { size := 4 } sixteenBytes 0 = some r ∧
      ∃ len : UInt32,
        published (((twice.take 1).foldl afterFill r.buffer).concludeChainUse r.queue).2.log =
          published r.queue.log ++ [(0, len)] ∧
        r.buffer.IsLowerBound (twice.take 1) len.toNat := by
  refine ⟨_, rfl, ?_⟩
  obtain ⟨len, hlen, hiff⟩ := usedLength_iff (isReset_mk 4)
    (show ({ maxChainLength := 4 } : Buffer).walkChain { size := 4 } sixteenBytes 0 = some _ from
      rfl) rfl (show AllOk afterFill Completes _ (twice.take 1) from ⟨rfl, trivial⟩) _
  refine ⟨len, hlen, hiff.2 (.inl ⟨fun _ h => ?_, trivial⟩)⟩
  have hover := h.2
  revert hover
  decide

/-- **The second copy makes the device report 4294967295 bytes** for a chain of 16, of which eight
have been written. -/
theorem usedLength_overrun :
    ∃ r, ({ maxChainLength := 4 } : Buffer).walkChain { size := 4 } sixteenBytes 0 = some r ∧
      r.err = .none ∧ AllOk afterFill Completes r.buffer twice ∧
      published ((twice.foldl afterFill r.buffer).concludeChainUse r.queue).2.log =
        [(0, 4294967295)] ∧
      r.buffer.writableSize = 16 ∧ ¬r.buffer.IsLowerBound twice 4294967295 := by
  refine ⟨_, rfl, rfl, ⟨rfl, rfl, trivial⟩, by decide, by decide, fun h => ?_⟩
  have hle := h.2
  revert hle
  decide

end Buffer

end Vml
