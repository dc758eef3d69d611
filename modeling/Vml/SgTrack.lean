import Vml.SgCopyProof

/-!
# What a completed copy leaves in the destination

A copy into a buffer reports its bytes to the buffer's written-prefix bookkeeping.
`heuristically_track_written_bytes` hands every descriptor the part of the request that falls into
it (`metadata_heuristicallyTrack`) and changes nothing else (`heuristicallyTrack_frame`).

A copy that returns `NONE` has copied all it was asked for, whatever the address translation and
the copier do, so the destination it leaves is the one with the whole request tracked
(`copyFromLinear_completed`, `copyToSg_completed`).
-/

namespace Vml

namespace Buffer

/-! ## Tracking a request -/

section Track

variable {b : Buffer} {p n off : ℕ}

/-- What the request `[p, p + n)` makes of the metadata of descriptor `i`: it tracks the part that
falls into the descriptor, if any does. -/
def trackedMeta (b : Buffer) (p n i : ℕ) : DescMetadata :=
  let lo := max p (b.descOffset i)
  let hi := min (p + n) (b.descOffset i + b.len i)
  if lo < hi then
    (b.descChainMetadata i).heuristicallyTrackWrittenBytes (lo - b.descOffset i) (hi - lo)
  else b.descChainMetadata i

theorem trackedMeta_of_le {i : ℕ}
    (h : min (p + n) (b.descOffset i + b.len i) ≤ max p (b.descOffset i)) :
    b.trackedMeta p n i = b.descChainMetadata i := if_neg (by omega)

theorem metadata_trackLoop {left : ℕ} {c : ℕ × ℕ} (hpos : ∀ i < b.active, 0 < b.len i)
    (hat : b.At p c) (hleft : left = b.active - c.1) (hle : p + n ≤ b.descOffset b.active) {i : ℕ}
    (hi : i < b.active) :
    (b.trackLoop left c.1 c.2 n).descChainMetadata i = b.trackedMeta p n i := by
  induction left generalizing b p n c with
  | zero =>
      have hp := hat.pos
      have hc : c.1 = b.active := by
        have := hat.le
        omega
      rw [hc] at hp
      exact (trackedMeta_of_le (by omega)).symm
  | succ left ih =>
      have hp := hat.pos
      have hc : c.1 < b.active := by omega
      have hlt := hat.lt hc
      have hbefore : i < c.1 → b.descOffset i + b.len i ≤ b.descOffset c.1 := fun h =>
        offsetOf_add_le h
      have hafter : c.1 < i → b.descOffset c.1 + b.len c.1 ≤ b.descOffset i := fun h =>
        offsetOf_add_le h
      rw [trackLoop]
      dsimp only
      split_ifs with h0 hwhole
      · exact (trackedMeta_of_le (by omega)).symm
      · -- the request goes on after this descriptor
        obtain ⟨b', hb'⟩ : ∃ b', b' = b.setMeta c.1 ((b.descChainMetadata
          c.1).heuristicallyTrackWrittenBytes c.2 (b.len c.1 - c.2)) := ⟨_, rfl⟩
        have hoffset : b'.descOffset = b.descOffset := by rw [hb']; rfl
        have hlen : b'.len = b.len := by rw [hb']; rfl
        have hactive : b'.active = b.active := by rw [hb']; rfl
        have hnext : b.descOffset (c.1 + 1) = b.descOffset c.1 + b.len c.1 := offsetOf_succ _ _
        have hat' : b'.At (b.descOffset c.1 + b.len c.1) (c.1 + 1, 0) := by
          refine ⟨?_, fun h => ?_, ?_⟩
          · rw [hoffset, hnext]
            rfl
          · rw [hlen]
            exact hpos _ (hactive ▸ h)
          · rw [hactive]
            exact hc
        have hmeta : b'.descChainMetadata i = if i = c.1 then (b.descChainMetadata
            c.1).heuristicallyTrackWrittenBytes c.2 (b.len c.1 - c.2)
            else b.descChainMetadata i := by
          rw [hb', descChainMetadata_setMeta, Function.update_apply]
        have hrest := @ih b' (b.descOffset c.1 + b.len c.1) (n - (b.len c.1 - c.2)) (c.1 + 1, 0)
          (by rw [hactive, hlen]; exact hpos) hat' (by rw [hactive]; dsimp only; omega)
          (by rw [hoffset, hactive]; omega) (by rw [hactive]; exact hi)
        rw [← hb', hrest, trackedMeta, trackedMeta, hoffset, hlen, hmeta]
        rcases lt_trichotomy i c.1 with hlt' | rfl | hgt
        · have := hbefore hlt'
          rw [if_neg (by omega), if_neg (by omega), if_neg (by omega)]
        · rw [if_neg (by omega), if_pos rfl, if_pos (by omega)]
          congr 1 <;> omega
        · have := hafter hgt
          rw [if_neg (show ¬i = c.1 by omega),
            show max (b.descOffset c.1 + b.len c.1) (b.descOffset i) = max p (b.descOffset i) by
              omega,
            show b.descOffset c.1 + b.len c.1 + (n - (b.len c.1 - c.2)) = p + n by omega]
      · -- the request ends in this descriptor
        rw [descChainMetadata_setMeta, Function.update_apply, trackedMeta]
        rcases lt_trichotomy i c.1 with hlt' | rfl | hgt
        · have := hbefore hlt'
          rw [if_neg (by omega), if_neg (by omega)]
        · rw [if_pos rfl, if_pos (by omega)]
          congr 1 <;> omega
        · have := hafter hgt
          rw [if_neg (by omega), if_neg (by omega)]

/-- **Tracking hands every descriptor its part of the request.** -/
theorem metadata_heuristicallyTrack (hb : b.WellFormed) (hle : off + n ≤ b.sizeBytes) {i : ℕ}
    (hi : i < b.active) :
    (b.heuristicallyTrackWrittenBytes off n).descChainMetadata i = b.trackedMeta off n i := by
  rcases Nat.eq_zero_or_pos n with rfl | hn
  · rw [heuristicallyTrackWrittenBytes, trackLoop_zero_bytes]
    exact (trackedMeta_of_le (by omega)).symm
  · obtain ⟨hat, hlt⟩ := at_find hb (show off < b.sizeBytes by omega)
    exact metadata_trackLoop hb.len_pos hat rfl (hb.size_eq ▸ hle) hi

end Track

/-! ## Copies that return `NONE` -/

section Completed

variable {b dst src : Buffer} {acc dAcc sAcc : ChainAccessor} {copier : BulkCopier} {m : Mem}
  {n off : ℕ}

/-- The checks pass on a request inside the payload only. -/
theorem checkCopyConfiguration_none (hb : b.WellFormed)
    (h : (b.checkCopyConfiguration n off).1 = .none) :
    off + n ≤ b.sizeBytes ∧ b.At off (b.checkCopyConfiguration n off).2 := by
  have hsize := hb.size_le
  have hmax : uint32Max.toNat = 2 ^ 32 - 1 := rfl
  revert h
  rw [checkCopyConfiguration]
  dsimp only
  split_ifs with h1 h2 h3 h4
  · simp
  · simp
  · simp
  · simp
  · intro _
    rw [sizeAdd_of_lt (by omega)] at h3
    exact ⟨by omega, (at_find hb (by omega)).1⟩

/-- Whatever translation and copier do, a loop that reports success has done it all. -/
theorem copySgLoop_bytes (hdst : dst.WellFormed) (hsrc : src.WellFormed)
    {fuel rem pd ps bytesCopied : ℕ} {d s : ℕ × ℕ} (hatd : dst.At pd d) (hats : src.At ps s)
    (hdle : pd + rem ≤ dst.sizeBytes) (hsle : ps + rem ≤ src.sizeBytes)
    (hfuel : rem ≠ 0 → (dst.active - d.1) + (src.active - s.1) ≤ fuel)
    (h : (copySgLoop dst src dAcc sAcc copier fuel rem d s bytesCopied m).err = .none) :
    (copySgLoop dst src dAcc sAcc copier fuel rem d s bytesCopied m).bytesCopied =
      bytesCopied + rem := by
  induction fuel generalizing rem pd ps d s bytesCopied m with
  | zero =>
      have hrem : rem = 0 := by
        by_contra h0
        have hlt := hatd.lt_active hdst.toRecorded (by omega)
        have := hfuel h0
        omega
      rw [hrem]
      rfl
  | succ fuel ih =>
      revert h
      rw [copySgLoop]
      by_cases h0 : rem = 0
      · rw [if_pos (.inl h0), h0]
        exact fun _ => rfl
      have hdlt := hatd.lt_active hdst.toRecorded (by omega)
      have hslt := hats.lt_active hsrc.toRecorded (by omega)
      have hdoff := hatd.lt hdlt
      have hsoff := hats.lt hslt
      rw [if_neg (by omega)]
      dsimp only
      obtain ⟨k, hk⟩ : ∃ k, k = min rem (min (src.len s.1 - s.2) (dst.len d.1 - d.2)) := ⟨_, rfl⟩
      rw [← hk]
      split_ifs with hperm hcopy
      · simp
      · simp
      · intro h
        have hrest := ih (hatd.advance hdst hdlt (by omega : d.2 + k ≤ dst.len d.1))
          (hats.advance hsrc hslt (by omega : s.2 + k ≤ src.len s.1)) (by omega) (by omega)
          (fun hne => by
            have := hfuel h0
            rw [advance_fst, advance_fst]
            split_ifs <;> omega) h
        rw [hrest]
        omega

theorem copyLinearLoop_bytes {linearToSg : Bool} (hb : b.WellFormed)
    {left it sgOff rem l p bytesCopied : ℕ} (hat : b.At p (it, sgOff)) (hleft : left = b.active - it)
    (hle : p + rem ≤ b.sizeBytes)
    (h : (copyLinearLoop linearToSg b acc copier left it sgOff rem l bytesCopied m).err = .none) :
    (copyLinearLoop linearToSg b acc copier left it sgOff rem l bytesCopied m).bytesCopied =
      bytesCopied + rem := by
  induction left generalizing it sgOff rem l p bytesCopied m with
  | zero =>
      have h0 : rem = 0 := by
        by_contra h0
        have hlt := hat.lt_active hb.toRecorded (by omega)
        dsimp only at hlt
        omega
      rw [h0]
      rfl
  | succ left ih =>
      revert h
      rw [copyLinearLoop]
      by_cases h0 : rem = 0
      · rw [if_pos h0, h0]
        exact fun _ => rfl
      have hlt : it < b.active := hat.lt_active hb.toRecorded (by omega)
      have hoff : sgOff < b.len it := hat.lt hlt
      rw [if_neg h0]
      dsimp only
      obtain ⟨k, hk⟩ : ∃ k, k = min (b.len it - sgOff) rem := ⟨_, rfl⟩
      rw [← hk]
      have hin : sgOff + k ≤ b.len it := by omega
      generalize (if linearToSg = true then
        acc.copyToVqa (some copier) ((b.descChain it).address + UInt64.ofNat sgOff) l k m
        else acc.copyFromVqa (some copier) l ((b.descChain it).address + UInt64.ofNat sgOff) k m) = r
      split_ifs with hperm hcopy
      · simp
      · simp
      · intro h
        by_cases hend : sgOff + k = b.len it
        · have hat' := hat.advance hb hlt hin
          rw [advance, if_pos hend] at hat'
          rw [ih hat' (by omega) (by omega) h]
          omega
        · rw [show rem - k = 0 by omega, copyLinearLoop_zero]
          dsimp only
          omega

/-- A request that the base class performs lies inside the payloads, and all of it is copied. -/
theorem tryEndCopyToSgImpl_none (hdst : dst.WellFormed) (hsrc : src.WellFormed)
    (h : (tryEndCopyToSgImpl dAcc sAcc copier src dst m).err = .none) :
    (tryEndCopyToSgImpl dAcc sAcc copier src dst m).bytesCopied = dst.asyncCopyCookie.reqSz ∧
      dst.asyncCopyCookie.reqDOff + dst.asyncCopyCookie.reqSz ≤ dst.sizeBytes := by
  revert h
  rw [tryEndCopyToSgImpl]
  dsimp only
  split_ifs with hd hs
  · exact fun h => absurd h hd
  · exact fun h => absurd h hs
  · intro h
    obtain ⟨hdle, hatd⟩ := checkCopyConfiguration_none hdst (by simpa using hd)
    obtain ⟨hsle, hats⟩ := checkCopyConfiguration_none hsrc (by simpa using hs)
    refine ⟨?_, hdle⟩
    rw [copySgLoop_bytes hdst hsrc hatd hats hdle hsle (fun _ => le_rfl) h, Nat.zero_add]

theorem copyFromtoLinearImpl_none {linearToSg : Bool} {l : ℕ} (hb : b.WellFormed)
    (h : (copyFromtoLinearImpl linearToSg acc l copier b m).err = .none) :
    (copyFromtoLinearImpl linearToSg acc l copier b m).bytesCopied = b.asyncCopyCookie.reqSz ∧
      (if linearToSg then b.asyncCopyCookie.reqDOff else b.asyncCopyCookie.reqSOff) +
        b.asyncCopyCookie.reqSz ≤ b.sizeBytes := by
  revert h
  rw [copyFromtoLinearImpl]
  generalize (if linearToSg = true then b.asyncCopyCookie.reqDOff else b.asyncCopyCookie.reqSOff) =
    off
  split_ifs with hc
  · exact fun h => absurd h hc
  · intro h
    obtain ⟨hle, hat⟩ := checkCopyConfiguration_none hb (by simpa using hc)
    refine ⟨?_, hle⟩
    rw [copyLinearLoop_bytes hb hat rfl hle h, Nat.zero_add]

end Completed

end Buffer

theorem requestResult_none {impl : CopyResult} {m : Mem} {size n off : ℕ} {inBounds : Prop}
    [Decidable inBounds] (hin : inBounds → off ≤ size)
    (himpl : impl.err = .none → impl.bytesCopied = n ∧ off + n ≤ size)
    (h : (requestResult n inBounds impl m).err = .none) :
    (requestResult n inBounds impl m).bytesCopied = n ∧ off + n ≤ size := by
  revert h
  rw [requestResult]
  split_ifs with hn hle
  · exact himpl
  · intro _
    have := hin hle
    refine ⟨?_, by omega⟩
    dsimp only
    omega
  · simp

section Linear

variable {b : Buffer} {acc : ChainAccessor} {m : Mem} {n off l : ℕ} {copier : Option BulkCopier}

theorem Buffer.fromLinearResult_none (hb : b.WellFormed)
    (h : (b.fromLinearResult l acc n off copier m).err = .none) :
    (b.fromLinearResult l acc n off copier m).bytesCopied = n ∧ off + n ≤ b.sizeBytes :=
  requestResult_none id (fun himpl => copyFromtoLinearImpl_none hb.modifyCookie himpl) h

theorem Buffer.toLinearResult_none (hb : b.WellFormed)
    (h : (b.toLinearResult l acc n off copier m).err = .none) :
    (b.toLinearResult l acc n off copier m).bytesCopied = n ∧ off + n ≤ b.sizeBytes :=
  requestResult_none id (fun himpl => copyFromtoLinearImpl_none hb.modifyCookie himpl) h

/-- **A completed `copy_from_linear`** leaves the buffer with the request tracked. -/
theorem Buffer.copyFromLinear_completed {l : Option ℕ} (hb : b.WellFormed)
    (h : (b.copyFromLinear l acc n off copier m).err = .none) :
    off + n ≤ b.sizeBytes ∧ (b.copyFromLinear l acc n off copier m).state =
      (b.heuristicallyTrackWrittenBytes off n).modifyCookie AsyncCopyCookie.reset := by
  cases l with
  | none => exact absurd h nofun
  | some l =>
      by_cases hbusy : b.asyncCopyCookie.isDst = true
      · rw [copyFromLinear_busy hbusy] at h
        exact absurd h nofun
      · rw [copyFromLinear_run (by simpa using hbusy)] at h ⊢
        obtain ⟨hbytes, hle⟩ := fromLinearResult_none hb h
        exact ⟨hle, by rw [hbytes]⟩

end Linear

/-- **A completed `copy_to_sg`** leaves the destination with the request tracked. -/
theorem Heap.copyToSg_completed {h : Heap} {src dst : BufId} {dAcc sAcc : ChainAccessor}
    {n dOff sOff : ℕ} {copier : Option BulkCopier} {m : Mem} (hne : src ≠ dst)
    (hdst : (h dst).WellFormed) (hsrc : (h src).WellFormed)
    (herr : (h.copyToSg src dst dAcc sAcc n dOff sOff copier m).err = .none) :
    dOff + n ≤ (h dst).sizeBytes ∧ (h.copyToSg src dst dAcc sAcc n dOff sOff copier m).state dst =
      ((h dst).heuristicallyTrackWrittenBytes dOff n).modifyCookie AsyncCopyCookie.reset := by
  by_cases hbusy : ((h src).asyncCopyCookie.isDst || (h dst).asyncCopyCookie.inUse) = true
  · rw [copyToSg, startCopyToSg, if_pos hbusy] at herr
    exact absurd herr (by rintro ⟨⟩)
  · rw [Bool.or_eq_true, not_or, Bool.not_eq_true, Bool.not_eq_true] at hbusy
    obtain ⟨h'', hrun, hstate⟩ := @copyToSg_run h src dst dAcc sAcc copier n dOff sOff m hne
      hbusy.1 hbusy.2
    rw [hrun] at herr ⊢
    obtain ⟨hbytes, hle⟩ : (h.toSgResult src dst dAcc sAcc n dOff sOff copier m).bytesCopied = n ∧
        dOff + n ≤ (h dst).sizeBytes :=
      requestResult_none And.left
        (fun himpl => Buffer.tryEndCopyToSgImpl_none hdst.modifyCookie hsrc.modifyCookie himpl) herr
    exact ⟨hle, hstate.trans (by rw [hbytes])⟩

end Vml
