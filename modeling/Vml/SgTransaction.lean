import Vml.SgCopy

/-!
# A synchronous copy is one transaction

The base class never returns `AGAIN`, so the retry loop of a synchronous copy runs once: the copy
starts a transaction, performs the request, tracks the bytes it has written and clears the cookies,
whether the request succeeds or not.

* `copyToLinear_run`, `copyFromLinear_run`, `Heap.copyToSg_run`: a copy that finds its buffers idle,
  in terms of the result of its request.
-/

namespace Vml

@[simp] theorem DescMetadata.desc_heuristicallyTrack (m : DescMetadata) (s k : ℕ) :
    (m.heuristicallyTrackWrittenBytes s k).desc = m.desc := by
  unfold heuristicallyTrackWrittenBytes
  split_ifs <;> rfl

namespace Buffer

/-! ## Tracking touches the prefixes only -/

section Track

variable {b : Buffer} {n off : ℕ} {f : AsyncCopyCookie → AsyncCopyCookie}

theorem descChainMetadata_setMeta (b : Buffer) (i : ℕ) (m : DescMetadata) :
    (b.setMeta i m).descChainMetadata = Function.update b.descChainMetadata i m := rfl

@[simp] theorem trackLoop_zero_bytes (b : Buffer) (left it off : ℕ) :
    b.trackLoop left it off 0 = b := by
  cases left <;> rfl

theorem trackLoop_frame (b : Buffer) (left it off n : ℕ) :
    b.trackLoop left it off n =
      { b with descChainMetadata := (b.trackLoop left it off n).descChainMetadata } := by
  induction left generalizing b it off n with
  | zero => rfl
  | succ left ih =>
      rw [trackLoop]
      dsimp only
      split_ifs
      · rfl
      · rw [ih]
        rfl
      · rfl

theorem heuristicallyTrack_frame (b : Buffer) (off n : ℕ) :
    b.heuristicallyTrackWrittenBytes off n = { b with
      descChainMetadata := (b.heuristicallyTrackWrittenBytes off n).descChainMetadata } :=
  trackLoop_frame ..

@[simp] theorem cookie_heuristicallyTrack :
    (b.heuristicallyTrackWrittenBytes off n).asyncCopyCookie = b.asyncCopyCookie := by
  rw [heuristicallyTrack_frame]

theorem desc_trackLoop (b : Buffer) (left it off n i : ℕ) :
    ((b.trackLoop left it off n).descChainMetadata i).desc = (b.descChainMetadata i).desc := by
  have hset : ∀ (b : Buffer) (j : ℕ) (s k : ℕ), ((b.setMeta j
      ((b.descChainMetadata j).heuristicallyTrackWrittenBytes s k)).descChainMetadata i).desc =
        (b.descChainMetadata i).desc := by
    intro b j s k
    rw [descChainMetadata_setMeta, Function.update_apply]
    split_ifs with hij
    · rw [hij, DescMetadata.desc_heuristicallyTrack]
    · rfl
  induction left generalizing b it off n with
  | zero => rfl
  | succ left ih =>
      rw [trackLoop]
      dsimp only
      split_ifs
      · rfl
      · rw [ih, hset]
      · exact hset ..

theorem desc_heuristicallyTrack (b : Buffer) (off n i : ℕ) :
    ((b.heuristicallyTrackWrittenBytes off n).descChainMetadata i).desc =
      (b.descChainMetadata i).desc := desc_trackLoop ..

/-! The cookie has no part in this. -/

theorem findLoop_modifyCookie (left it cur : ℕ) :
    (b.modifyCookie f).findLoop off left it cur = b.findLoop off left it cur := by
  induction left generalizing it cur with
  | zero => rfl
  | succ left ih =>
      rw [findLoop, findLoop, ih]
      rfl

theorem trackLoop_modifyCookie (left it off n : ℕ) :
    (b.modifyCookie f).trackLoop left it off n = (b.trackLoop left it off n).modifyCookie f := by
  induction left generalizing b it off n with
  | zero => rfl
  | succ left ih =>
      rw [trackLoop, trackLoop]
      by_cases h0 : n = 0
      · rw [if_pos h0, if_pos h0]
      · rw [if_neg h0, if_neg h0]
        have hlen : (b.modifyCookie f).len it = b.len it := rfl
        dsimp only
        rw [hlen]
        by_cases hle : b.len it - off ≤ n
        · rw [if_pos hle, if_pos hle]
          exact @ih (b.setMeta it ((b.descChainMetadata it).heuristicallyTrackWrittenBytes off
            (b.len it - off))) (it + 1) 0 (n - (b.len it - off))
        · rw [if_neg hle, if_neg hle]
          rfl

theorem heuristicallyTrack_modifyCookie :
    (b.modifyCookie f).heuristicallyTrackWrittenBytes off n =
      (b.heuristicallyTrackWrittenBytes off n).modifyCookie f := by
  have hfind : (b.modifyCookie f).find off = b.find off := by
    rw [find, find, findLoop_modifyCookie]
    rfl
  rw [heuristicallyTrackWrittenBytes, hfind, trackLoop_modifyCookie]
  rfl

end Track

section Cookies

variable {b : Buffer} {f : AsyncCopyCookie → AsyncCopyCookie}

@[simp] theorem asyncCopyCookie_modifyCookie :
    (b.modifyCookie f).asyncCopyCookie = f b.asyncCopyCookie := rfl

theorem WellFormed.modifyCookie (h : b.WellFormed) : (b.modifyCookie f).WellFormed :=
  ⟨⟨h.active_le, h.size_eq, h.size_le, h.first_lt, h.writable_iff⟩, h.len_pos⟩

end Cookies

/-! ## No retries -/

section Again

variable {b dst src : Buffer} {acc dAcc sAcc : ChainAccessor} {copier : BulkCopier} {m : Mem}
  {n off : ℕ}

theorem copySgLoop_err_ne_again {fuel rem bytesCopied : ℕ} {d s : ℕ × ℕ} :
    (copySgLoop dst src dAcc sAcc copier fuel rem d s bytesCopied m).err ≠ .again := by
  induction fuel generalizing rem d s bytesCopied m with
  | zero => exact nofun
  | succ fuel ih =>
      rw [copySgLoop]
      dsimp only
      split_ifs
      · exact nofun
      · exact nofun
      · exact nofun
      · exact ih

theorem copyLinearLoop_err_ne_again {linearToSg : Bool} {left it sgOff rem l bytesCopied : ℕ} :
    (copyLinearLoop linearToSg b acc copier left it sgOff rem l bytesCopied m).err ≠ .again := by
  induction left generalizing it sgOff rem l bytesCopied m with
  | zero => exact nofun
  | succ left ih =>
      rw [copyLinearLoop]
      dsimp only
      split_ifs
      · exact nofun
      · exact nofun
      · exact nofun
      · exact ih
      · exact nofun
      · exact ih

theorem checkCopyConfiguration_err_ne_again :
    (b.checkCopyConfiguration n off).1 ≠ .again := by
  rw [checkCopyConfiguration]
  dsimp only
  split_ifs <;> exact nofun

theorem tryEndCopyToSgImpl_err_ne_again :
    (tryEndCopyToSgImpl dAcc sAcc copier src dst m).err ≠ .again := by
  rw [tryEndCopyToSgImpl]
  dsimp only
  split_ifs
  · exact checkCopyConfiguration_err_ne_again
  · exact checkCopyConfiguration_err_ne_again
  · exact copySgLoop_err_ne_again

theorem copyFromtoLinearImpl_err_ne_again {linearToSg : Bool} {l : ℕ} :
    (copyFromtoLinearImpl linearToSg acc l copier b m).err ≠ .again := by
  rw [copyFromtoLinearImpl]
  generalize (if linearToSg = true then b.asyncCopyCookie.reqDOff else b.asyncCopyCookie.reqSOff) =
    off
  split_ifs
  · exact checkCopyConfiguration_err_ne_again
  · exact copyLinearLoop_err_ne_again

end Again

end Buffer

theorem copySync_of_ne_again {σ : Type} {started : Errno × ℕ × σ} {tryEnd : σ → Mem → CopyEnd σ}
    {conclude : σ → σ} {m : Mem} (hstart : started.1 = .none)
    (hend : (tryEnd started.2.2 m).err ≠ .again) :
    copySync started tryEnd conclude m = tryEnd started.2.2 m := by
  rw [copySync, if_neg (by simp [hstart])]
  simp only [retryLoop, if_neg hend, Nat.zero_add]

/-- What a `try_end_copy_*` makes of a request of `n` bytes: an empty one only has to start inside
the payloads. -/
def requestResult (n : ℕ) (inBounds : Prop) [Decidable inBounds] (impl : CopyResult) (m : Mem) :
    CopyResult :=
  if 0 < n then impl else ⟨if inBounds then .none else .noent, 0, m⟩

theorem requestResult_err_ne_again {n : ℕ} {inBounds : Prop} [Decidable inBounds]
    {impl : CopyResult} {m : Mem} (h : impl.err ≠ .again) :
    (requestResult n inBounds impl m).err ≠ .again := by
  rw [requestResult]
  split_ifs
  · exact h
  · exact nofun
  · exact nofun

/-! ## Whole copies -/

namespace Buffer

variable {b : Buffer} {acc : ChainAccessor} {copier : Option BulkCopier} {l n off : ℕ} {m : Mem}

/-- The result of the request of a `copy_to_linear`. -/
def toLinearResult (b : Buffer) (l : ℕ) (acc : ChainAccessor) (n off : ℕ)
    (copier : Option BulkCopier) (m : Mem) : CopyResult :=
  requestResult n (off ≤ b.sizeBytes) (tryEndCopyToLinearImpl acc (copier.getD bulkCopierDefault)
    (b.modifyCookie fun c => c.initSgSrcToLinearDst l n off) m) m

/-- The result of the request of a `copy_from_linear`. -/
def fromLinearResult (b : Buffer) (l : ℕ) (acc : ChainAccessor) (n off : ℕ)
    (copier : Option BulkCopier) (m : Mem) : CopyResult :=
  requestResult n (off ≤ b.sizeBytes) (tryEndCopyFromLinearImpl acc (copier.getD bulkCopierDefault)
    (b.modifyCookie fun c => c.initSgDstFromLinearSrc l n off) m) m

/-- **A `copy_to_linear`** leaves the buffer as it was but for the cookie. -/
theorem copyToLinear_run (hidle : b.asyncCopyCookie.isDst = false) :
    b.copyToLinear (some l) acc n off copier m =
      ⟨(b.toLinearResult l acc n off copier m).err, (b.toLinearResult l acc n off copier m).bytesCopied,
        b.modifyCookie AsyncCopyCookie.reset, (b.toLinearResult l acc n off copier m).mem⟩ := by
  have hstart : b.startCopyToLinear (some l) n off .none =
      (.none, 0, b.modifyCookie fun c => c.initSgSrcToLinearDst l n off) := by
    rw [startCopyToLinear, startLinear]
    dsimp only
    rw [hidle]
    rfl
  have hresult : (b.toLinearResult l acc n off copier m).err ≠ .again :=
    requestResult_err_ne_again copyFromtoLinearImpl_err_ne_again
  have htry : (b.modifyCookie fun c => c.initSgSrcToLinearDst l n off).tryEndCopyToLinear
      (tryEndCopyToLinearImpl acc (copier.getD bulkCopierDefault)) m =
        ⟨(b.toLinearResult l acc n off copier m).err,
          (b.toLinearResult l acc n off copier m).bytesCopied,
          b.modifyCookie AsyncCopyCookie.reset, (b.toLinearResult l acc n off copier m).mem⟩ :=
    if_pos hresult
  rw [copyToLinear, hstart]
  refine (copySync_of_ne_again rfl ?_).trans htry
  rw [htry]
  exact hresult

/-- **A `copy_from_linear`** leaves the buffer with the bytes it has copied tracked. -/
theorem copyFromLinear_run (hidle : b.asyncCopyCookie.isDst = false) :
    b.copyFromLinear (some l) acc n off copier m =
      ⟨(b.fromLinearResult l acc n off copier m).err,
        (b.fromLinearResult l acc n off copier m).bytesCopied,
        (b.heuristicallyTrackWrittenBytes off
          (b.fromLinearResult l acc n off copier m).bytesCopied).modifyCookie AsyncCopyCookie.reset,
        (b.fromLinearResult l acc n off copier m).mem⟩ := by
  have hstart : b.startCopyFromLinear (some l) n off .none =
      (.none, 0, b.modifyCookie fun c => c.initSgDstFromLinearSrc l n off) := by
    rw [startCopyFromLinear, startLinear]
    dsimp only
    rw [hidle]
    rfl
  have hresult : (b.fromLinearResult l acc n off copier m).err ≠ .again :=
    requestResult_err_ne_again copyFromtoLinearImpl_err_ne_again
  have htry : (b.modifyCookie fun c => c.initSgDstFromLinearSrc l n off).tryEndCopyFromLinear
      (tryEndCopyFromLinearImpl acc (copier.getD bulkCopierDefault)) m =
        ⟨(b.fromLinearResult l acc n off copier m).err,
          (b.fromLinearResult l acc n off copier m).bytesCopied,
          (b.heuristicallyTrackWrittenBytes off
            (b.fromLinearResult l acc n off copier m).bytesCopied).modifyCookie AsyncCopyCookie.reset,
          (b.fromLinearResult l acc n off copier m).mem⟩ := by
    refine (if_pos hresult).trans ?_
    rw [heuristicallyTrack_modifyCookie]
    rfl
  rw [copyFromLinear, hstart]
  refine (copySync_of_ne_again rfl ?_).trans htry
  rw [htry]
  exact hresult

theorem copyFromLinear_busy (h : b.asyncCopyCookie.isDst = true) :
    (b.copyFromLinear (some l) acc n off copier m).err = .rbusy := by
  rw [copyFromLinear, startCopyFromLinear, startLinear]
  dsimp only
  rw [if_pos h]
  rfl

end Buffer

namespace Heap

variable {h : Heap} {src dst : BufId} {dAcc sAcc : ChainAccessor} {copier : Option BulkCopier}
  {n dOff sOff : ℕ} {m : Mem}

/-- The result of the request of a `copy_to_sg`. -/
def toSgResult (h : Heap) (src dst : BufId) (dAcc sAcc : ChainAccessor) (n dOff sOff : ℕ)
    (copier : Option BulkCopier) (m : Mem) : CopyResult :=
  requestResult n (dOff ≤ (h dst).sizeBytes ∧ sOff ≤ (h src).sizeBytes)
    (Buffer.tryEndCopyToSgImpl dAcc sAcc (copier.getD bulkCopierDefault)
      ((h src).modifyCookie AsyncCopyCookie.initSgSrcToSgDst)
      ((h dst).modifyCookie fun c => c.initSgDstFromSgSrc src n dOff sOff) m) m

/-- **A `copy_to_sg`** leaves the destination with the bytes it has copied tracked. -/
theorem copyToSg_run (hne : src ≠ dst) (hsrc : (h src).asyncCopyCookie.isDst = false)
    (hdst : (h dst).asyncCopyCookie.inUse = false) :
    ∃ h'' : Heap, h.copyToSg src dst dAcc sAcc n dOff sOff copier m =
      ⟨(h.toSgResult src dst dAcc sAcc n dOff sOff copier m).err,
        (h.toSgResult src dst dAcc sAcc n dOff sOff copier m).bytesCopied, h'',
        (h.toSgResult src dst dAcc sAcc n dOff sOff copier m).mem⟩ ∧
      h'' dst = ((h dst).heuristicallyTrackWrittenBytes dOff
        (h.toSgResult src dst dAcc sAcc n dOff sOff copier m).bytesCopied).modifyCookie
          AsyncCopyCookie.reset := by
  obtain ⟨h', hh'⟩ : ∃ h' : Heap,
      h' = (h.modifyCookie src AsyncCopyCookie.initSgSrcToSgDst).modifyCookie dst
        fun c => c.initSgDstFromSgSrc src n dOff sOff := ⟨_, rfl⟩
  have hstart : h.startCopyToSg src dst n dOff sOff .none = (.none, 0, h') := by
    rw [startCopyToSg, hsrc, hdst, hh']
    rfl
  have hsrc' : h' src = (h src).modifyCookie AsyncCopyCookie.initSgSrcToSgDst := by
    rw [hh', modifyCookie, Function.update_of_ne hne, modifyCookie, Function.update_self]
  have hdst' : h' dst = (h dst).modifyCookie fun c => c.initSgDstFromSgSrc src n dOff sOff := by
    rw [hh', modifyCookie, Function.update_self, modifyCookie, Function.update_of_ne hne.symm]
  -- a start that was honoured always matches
  have hmatch : (h' dst).asyncCopyCookie.isDstFromMatchingCookie src
      (h' src).asyncCopyCookie = true := by
    rw [hsrc', hdst']
    simp [AsyncCopyCookie.isDstFromMatchingCookie, AsyncCopyCookie.isDstFromSg,
      AsyncCopyCookie.isSrcToSg, AsyncCopyCookie.inUse, AsyncCopyCookie.initSgDstFromSgSrc,
      AsyncCopyCookie.initSgSrcToSgDst, AsyncCopyCookie.initMetadata, AsyncCopyCookie.initStatus]
  obtain ⟨r, hr⟩ : ∃ r, r = h.toSgResult src dst dAcc sAcc n dOff sOff copier m := ⟨_, rfl⟩
  have hresult : r.err ≠ .again :=
    hr ▸ requestResult_err_ne_again Buffer.tryEndCopyToSgImpl_err_ne_again
  have htry : h'.tryEndCopyToSg src dst
      (Buffer.tryEndCopyToSgImpl dAcc sAcc (copier.getD bulkCopierDefault)) m =
        ⟨r.err, r.bytesCopied, concludeBoth
          (Function.update h' dst ((h' dst).heuristicallyTrackWrittenBytes dOff r.bytesCopied))
          src dst, r.mem⟩ := by
    rw [tryEndCopyToSg]
    dsimp only
    rw [hmatch, if_neg (by decide), hsrc', hdst']
    refine (if_pos ?_).trans ?_
    · exact requestResult_err_ne_again Buffer.tryEndCopyToSgImpl_err_ne_again
    · rw [hr]
      rfl
  rw [← hr]
  refine ⟨concludeBoth (Function.update h' dst
    ((h' dst).heuristicallyTrackWrittenBytes dOff r.bytesCopied)) src dst, ?_, ?_⟩
  · rw [copyToSg, hstart]
    refine (copySync_of_ne_again rfl ?_).trans htry
    rw [htry]
    exact hresult
  · rw [concludeBoth, modifyCookie, Function.update_of_ne hne.symm, modifyCookie,
      Function.update_self, Function.update_self, hdst', Buffer.heuristicallyTrack_modifyCookie]
    rfl

end Heap

end Vml
