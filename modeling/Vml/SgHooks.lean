import Vml.SgTransaction

/-!
# Copies call hooks

A `ChainAccessor` is an object with virtual functions, and what they return, and do, may change from
call to call. Here a copy is taken through a world that the hooks may change, and every call of a
hook or of the bulk copier is recorded. The copies are those of `Vml.SgCopy`, whose accessors always
give the same answers.

**Chunks.** Which chunks a request is cut into depends on the buffers only (`sgChunks`,
`linearChunks`). A loop takes them one after the other and stops at the first that fails
(`runChunks`).

Main results: `copySgLoop_eq_runChunks`, `copyLinearLoop_eq_runChunks`, and
`tryEndCopyToSgImpl_ofAccessor`, `copyFromtoLinearImpl_ofAccessor`: with hooks that always give the
same answers the copies are those of `Vml.SgCopy`.
-/

namespace Vml

/-! ## Hooks -/

/-- The parity of a translation: for reading or for writing. -/
inductive Parity
  | read
  | write
  deriving DecidableEq, Repr

/-- A call, with its arguments and what it returned. -/
inductive HookCall
  /-- `vq_addr_to_r_hva` or `vq_addr_to_w_hva`. -/
  | toHva (parity : Parity) (vqa : UInt64) (sizeBytes : ℕ) (err : Errno) (hva : ℕ)
  /-- `bulk_copy`. -/
  | bulkCopy (dst src sizeBytes : ℕ)
  /-- `vq_addr_to_r_hva_post` or `vq_addr_to_w_hva_post`. -/
  | post (parity : Parity) (vqa : UInt64) (sizeBytes hva : ℕ) (err : Errno)
  deriving DecidableEq, Repr

/-- A `ChainAccessor` in a world of type `ω`: what each hook returns, and the world after it. -/
structure ChainHooks (ω : Type) where
  vqAddrToRHva : UInt64 → ℕ → ω → (Errno × ℕ) × ω
  vqAddrToWHva : UInt64 → ℕ → ω → (Errno × ℕ) × ω := vqAddrToRHva
  vqAddrToRHvaPost : UInt64 → ℕ → ℕ → ω → Errno × ω := fun _ _ _ x => (.none, x)
  vqAddrToWHvaPost : UInt64 → ℕ → ℕ → ω → Errno × ω := vqAddrToRHvaPost

/-- The memory, the world of the hooks, and the calls so far. -/
structure CopyWorld (ω : Type) where
  mem : Mem
  ext : ω
  calls : List HookCall := []

/-- The world after some calls. -/
abbrev CopyWorld.after {ω : Type} (w : CopyWorld ω) (mem : Mem) (ext : ω)
    (calls : List HookCall) : CopyWorld ω :=
  ⟨mem, ext, w.calls ++ calls⟩

namespace ChainHooks

variable {ω : Type}

/-- `vq_addr_to_r_hva` and `vq_addr_to_w_hva`. -/
def toHva (hooks : ChainHooks ω) : Parity → UInt64 → ℕ → ω → (Errno × ℕ) × ω
  | .read => hooks.vqAddrToRHva
  | .write => hooks.vqAddrToWHva

/-- `vq_addr_to_r_hva_post` and `vq_addr_to_w_hva_post`. -/
def post (hooks : ChainHooks ω) : Parity → UInt64 → ℕ → ℕ → ω → Errno × ω
  | .read => hooks.vqAddrToRHvaPost
  | .write => hooks.vqAddrToWHvaPost

/-- Call the hook that translates. -/
def callToHva (hooks : ChainHooks ω) (parity : Parity) (vqa : UInt64) (sizeBytes : ℕ)
    (w : CopyWorld ω) : (Errno × ℕ) × CopyWorld ω :=
  let r := hooks.toHva parity vqa sizeBytes w.ext
  (r.1, { w with ext := r.2, calls := w.calls ++ [.toHva parity vqa sizeBytes r.1.1 r.1.2] })

/-- Call the hook after the access. -/
def callPost (hooks : ChainHooks ω) (parity : Parity) (vqa : UInt64) (sizeBytes hva : ℕ)
    (w : CopyWorld ω) : Errno × CopyWorld ω :=
  let r := hooks.post parity vqa sizeBytes hva w.ext
  (r.1, { w with ext := r.2, calls := w.calls ++ [.post parity vqa sizeBytes hva r.1] })

end ChainHooks

/-- Call the bulk copier. -/
def CopyWorld.bulkCopy {ω : Type} (w : CopyWorld ω) (copier : BulkCopier)
    (dst src sizeBytes : ℕ) : CopyWorld ω :=
  { w with
    mem := copier w.mem dst src sizeBytes
    calls := w.calls ++ [.bulkCopy dst src sizeBytes] }

namespace ChainHooks

variable {ω : Type}

/-- `copy_between_vqa`. What `handle_translation_failure` does is left out here and below: nothing
is called after it. -/
def copyBetweenVqa (copier : Option BulkCopier) (dstHooks srcHooks : ChainHooks ω)
    (dstVqa srcVqa : UInt64) (sizeBytes : ℕ) (w : CopyWorld ω) : Errno × CopyWorld ω :=
  match copier with
  | none => (.inval, w)
  | some copier =>
      let d := dstHooks.callToHva .write dstVqa sizeBytes w
      if d.1.1 ≠ .none then (d.1.1, d.2)
      else
        let s := srcHooks.callToHva .read srcVqa sizeBytes d.2
        if s.1.1 ≠ .none then (s.1.1, s.2)
        else
          let w := s.2.bulkCopy copier d.1.2 s.1.2 sizeBytes
          let r := srcHooks.callPost .read srcVqa sizeBytes s.1.2 w
          if r.1 ≠ .none then r else dstHooks.callPost .write dstVqa sizeBytes d.1.2 r.2

/-- `copy_from_vqa`. -/
def copyFromVqa (hooks : ChainHooks ω) (copier : Option BulkCopier) (dstHva : ℕ)
    (srcVqa : UInt64) (sizeBytes : ℕ) (w : CopyWorld ω) : Errno × CopyWorld ω :=
  match copier with
  | none => (.inval, w)
  | some copier =>
      let s := hooks.callToHva .read srcVqa sizeBytes w
      if s.1.1 ≠ .none then (s.1.1, s.2)
      else hooks.callPost .read srcVqa sizeBytes s.1.2 (s.2.bulkCopy copier dstHva s.1.2 sizeBytes)

/-- `copy_to_vqa`. -/
def copyToVqa (hooks : ChainHooks ω) (copier : Option BulkCopier) (dstVqa : UInt64)
    (srcHva : ℕ) (sizeBytes : ℕ) (w : CopyWorld ω) : Errno × CopyWorld ω :=
  match copier with
  | none => (.inval, w)
  | some copier =>
      let d := hooks.callToHva .write dstVqa sizeBytes w
      if d.1.1 ≠ .none then (d.1.1, d.2)
      else hooks.callPost .write dstVqa sizeBytes d.1.2 (d.2.bulkCopy copier d.1.2 srcHva sizeBytes)

end ChainHooks

/-! ## The copy loops -/

/-- The result of a `try_end_copy_*_impl`, with the world it leaves. -/
structure HookedResult (ω : Type) where
  err : Errno
  bytesCopied : ℕ
  world : CopyWorld ω

namespace Hooked

variable {ω : Type}

/-- The loop of `try_end_copy_to_sg_impl`. -/
def copySgLoop (dst src : Buffer) (dstHooks srcHooks : ChainHooks ω) (copier : BulkCopier) :
    (fuel rem : ℕ) → (d s : ℕ × ℕ) → (bytesCopied : ℕ) → CopyWorld ω → HookedResult ω
  | 0, _, _, _, bytesCopied, w => ⟨.none, bytesCopied, w⟩
  | fuel + 1, rem, d, s, bytesCopied, w =>
      if rem = 0 ∨ d.1 = dst.active ∨ s.1 = src.active then ⟨.none, bytesCopied, w⟩
      else
        let dDesc := dst.descChain d.1
        let sDesc := src.descChain s.1
        let nCopy := min rem (min (src.len s.1 - s.2) (dst.len d.1 - d.2))
        if dst.shouldOnlyRead dDesc.flags then ⟨.perm, bytesCopied, w⟩
        else
          let r := ChainHooks.copyBetweenVqa (some copier) dstHooks srcHooks
            (dDesc.address + UInt64.ofNat d.2) (sDesc.address + UInt64.ofNat s.2) nCopy w
          if r.1 ≠ .none then ⟨.badr, bytesCopied, r.2⟩
          else
            copySgLoop dst src dstHooks srcHooks copier fuel (rem - nCopy)
              (dst.advance d.1 d.2 nCopy) (src.advance s.1 s.2 nCopy) (bytesCopied + nCopy) r.2

/-- `try_end_copy_to_sg_impl`. -/
def tryEndCopyToSgImpl (dstHooks srcHooks : ChainHooks ω) (copier : BulkCopier)
    (src dst : Buffer) (w : CopyWorld ω) : HookedResult ω :=
  let rem := dst.asyncCopyCookie.reqSz
  let d := dst.checkCopyConfiguration rem dst.asyncCopyCookie.reqDOff
  if d.1 ≠ .none then ⟨d.1, 0, w⟩
  else
    let s := src.checkCopyConfiguration rem dst.asyncCopyCookie.reqSOff
    if s.1 ≠ .none then ⟨s.1, 0, w⟩
    else copySgLoop dst src dstHooks srcHooks copier
      ((dst.active - d.2.1) + (src.active - s.2.1)) rem d.2 s.2 0 w

/-- The loop of `copy_fromto_linear_impl`. -/
def copyLinearLoop (linearToSg : Bool) (b : Buffer) (hooks : ChainHooks ω) (copier : BulkCopier) :
    (left it sgOff rem l bytesCopied : ℕ) → CopyWorld ω → HookedResult ω
  | 0, _, _, _, _, bytesCopied, w => ⟨.none, bytesCopied, w⟩
  | left + 1, it, sgOff, rem, l, bytesCopied, w =>
      if rem = 0 then ⟨.none, bytesCopied, w⟩
      else
        let desc := b.descChain it
        let nCopy := min (b.len it - sgOff) rem
        if linearToSg && b.shouldOnlyRead desc.flags then ⟨.perm, bytesCopied, w⟩
        else
          let vqa := desc.address + UInt64.ofNat sgOff
          let r :=
            if linearToSg then hooks.copyToVqa (some copier) vqa l nCopy w
            else hooks.copyFromVqa (some copier) l vqa nCopy w
          if r.1 ≠ .none then ⟨.badr, bytesCopied, r.2⟩
          else copyLinearLoop linearToSg b hooks copier left (it + 1) 0 (rem - nCopy)
            (l + nCopy) (bytesCopied + nCopy) r.2

/-- `copy_fromto_linear_impl`, for linear memory at `l`. -/
def copyFromtoLinearImpl (linearToSg : Bool) (hooks : ChainHooks ω) (l : ℕ) (copier : BulkCopier)
    (b : Buffer) (w : CopyWorld ω) : HookedResult ω :=
  let c := b.asyncCopyCookie
  let it := b.checkCopyConfiguration c.reqSz (if linearToSg then c.reqDOff else c.reqSOff)
  if it.1 ≠ .none then ⟨it.1, 0, w⟩
  else copyLinearLoop linearToSg b hooks copier (b.active - it.2.1) it.2.1 it.2.2 c.reqSz l 0 w

/-! ## Transactions -/

/-- `src.try_end_copy_to_sg(dst, ..)`. The memory of a result is that of its world. -/
def tryEndCopyToSg (h : Heap) (src dst : BufId)
    (impl : Buffer → Buffer → CopyWorld ω → HookedResult ω) (w : CopyWorld ω) :
    CopyEnd (Heap × CopyWorld ω) :=
  let c := (h dst).asyncCopyCookie
  if !c.isDstFromMatchingCookie src (h src).asyncCopyCookie then ⟨.exist, 0, (h, w), w.mem⟩
  else
    let inBounds := c.reqDOff ≤ (h dst).sizeBytes ∧ c.reqSOff ≤ (h src).sizeBytes
    let r : HookedResult ω :=
      if 0 < c.reqSz then impl (h src) (h dst) w
      else ⟨if inBounds then .none else .noent, 0, w⟩
    let h : Heap :=
      Function.update h dst ((h dst).heuristicallyTrackWrittenBytes c.reqDOff r.bytesCopied)
    if r.err ≠ .again then
      ⟨r.err, r.bytesCopied, (h.concludeBoth src dst, r.world), r.world.mem⟩
    else
      ⟨r.err, r.bytesCopied, (h.modifyCookie dst (·.recordBytesCopied r.bytesCopied), r.world),
        r.world.mem⟩

/-- `src.copy_to_sg(dst, ..)`. -/
def copyToSg (h : Heap) (src dst : BufId) (dstHooks srcHooks : ChainHooks ω)
    (sizeBytes dOff sOff : ℕ) (copier : Option BulkCopier) (w : CopyWorld ω) :
    CopyEnd (Heap × CopyWorld ω) :=
  let impl := tryEndCopyToSgImpl dstHooks srcHooks (copier.getD bulkCopierDefault)
  let started := h.startCopyToSg src dst sizeBytes dOff sOff .none
  copySync (started.1, started.2.1, started.2.2, w)
    (fun s _ => tryEndCopyToSg s.1 src dst impl s.2)
    (fun s => (s.1.concludeBoth src dst, s.2)) w.mem

/-- `try_end_copy_to_linear`. -/
def tryEndCopyToLinear (b : Buffer) (impl : Buffer → CopyWorld ω → HookedResult ω)
    (w : CopyWorld ω) : CopyEnd (Buffer × CopyWorld ω) :=
  let c := b.asyncCopyCookie
  if !c.isSrcToLinear then ⟨.exist, 0, (b, w), w.mem⟩
  else
    let r : HookedResult ω :=
      if 0 < c.reqSz then impl b w
      else ⟨if c.reqSOff ≤ b.sizeBytes then .none else .noent, 0, w⟩
    if r.err ≠ .again then
      ⟨r.err, r.bytesCopied, (b.modifyCookie AsyncCopyCookie.concludeSrc, r.world), r.world.mem⟩
    else
      ⟨r.err, r.bytesCopied, (b.modifyCookie (·.recordBytesCopied r.bytesCopied), r.world),
        r.world.mem⟩

/-- `try_end_copy_from_linear`. -/
def tryEndCopyFromLinear (b : Buffer) (impl : Buffer → CopyWorld ω → HookedResult ω)
    (w : CopyWorld ω) : CopyEnd (Buffer × CopyWorld ω) :=
  let c := b.asyncCopyCookie
  if !c.isDstFromLinear then ⟨.exist, 0, (b, w), w.mem⟩
  else
    let r : HookedResult ω :=
      if 0 < c.reqSz then impl b w
      else ⟨if c.reqDOff ≤ b.sizeBytes then .none else .noent, 0, w⟩
    let b := b.heuristicallyTrackWrittenBytes c.reqDOff r.bytesCopied
    if r.err ≠ .again then
      ⟨r.err, r.bytesCopied, (b.modifyCookie AsyncCopyCookie.concludeDst, r.world), r.world.mem⟩
    else
      ⟨r.err, r.bytesCopied, (b.modifyCookie (·.recordBytesCopied r.bytesCopied), r.world),
        r.world.mem⟩

/-- `copy_to_linear`. -/
def copyToLinear (b : Buffer) (dst : Option ℕ) (srcHooks : ChainHooks ω) (sizeBytes sOff : ℕ)
    (copier : Option BulkCopier) (w : CopyWorld ω) : CopyEnd (Buffer × CopyWorld ω) :=
  let impl (b : Buffer) := copyFromtoLinearImpl false srcHooks
    (b.asyncCopyCookie.linearDst.getD 0 + b.asyncCopyCookie.reqDOff)
    (copier.getD bulkCopierDefault) b
  let started := b.startCopyToLinear dst sizeBytes sOff .none
  copySync (started.1, started.2.1, started.2.2, w) (fun s _ => tryEndCopyToLinear s.1 impl s.2)
    (fun s => (s.1.modifyCookie AsyncCopyCookie.concludeSrc, s.2)) w.mem

/-- `copy_from_linear`. -/
def copyFromLinear (b : Buffer) (src : Option ℕ) (dstHooks : ChainHooks ω) (sizeBytes dOff : ℕ)
    (copier : Option BulkCopier) (w : CopyWorld ω) : CopyEnd (Buffer × CopyWorld ω) :=
  let impl (b : Buffer) := copyFromtoLinearImpl true dstHooks
    (b.asyncCopyCookie.linearSrc.getD 0 + b.asyncCopyCookie.reqSOff)
    (copier.getD bulkCopierDefault) b
  let started := b.startCopyFromLinear src sizeBytes dOff .none
  copySync (started.1, started.2.1, started.2.2, w) (fun s _ => tryEndCopyFromLinear s.1 impl s.2)
    (fun s => (s.1.modifyCookie AsyncCopyCookie.concludeDst, s.2)) w.mem

/-! ## Chunks -/

/-- A chunk of a copy between buffers: the cursors it starts from, and its size. -/
structure SgChunk where
  dst : ℕ × ℕ
  src : ℕ × ℕ
  size : ℕ

/-- A chunk of a copy between a buffer and linear memory: the cursor and the linear address it
starts from, and its size. -/
structure LinearChunk where
  sg : ℕ × ℕ
  linear : ℕ
  size : ℕ

/-- The guest address at a cursor. -/
def vqaAt (b : Buffer) (c : ℕ × ℕ) : UInt64 := (b.descChain c.1).address + UInt64.ofNat c.2

/-- The chunks `try_end_copy_to_sg_impl` goes through. -/
def sgChunks (dst src : Buffer) : (fuel rem : ℕ) → (d s : ℕ × ℕ) → List SgChunk
  | 0, _, _, _ => []
  | fuel + 1, rem, d, s =>
      if rem = 0 ∨ d.1 = dst.active ∨ s.1 = src.active then []
      else
        let nCopy := min rem (min (src.len s.1 - s.2) (dst.len d.1 - d.2))
        ⟨d, s, nCopy⟩ :: sgChunks dst src fuel (rem - nCopy) (dst.advance d.1 d.2 nCopy)
          (src.advance s.1 s.2 nCopy)

/-- The chunks `copy_fromto_linear_impl` goes through. -/
def linearChunks (b : Buffer) : (left it sgOff rem l : ℕ) → List LinearChunk
  | 0, _, _, _, _ => []
  | left + 1, it, sgOff, rem, l =>
      if rem = 0 then []
      else
        let nCopy := min (b.len it - sgOff) rem
        ⟨(it, sgOff), l, nCopy⟩ :: linearChunks b left (it + 1) 0 (rem - nCopy) (l + nCopy)

/-- Copy chunks one after the other: one that must not be written ends the copy with `PERM`, one
whose copy fails with `BADR`. -/
def runChunks {χ : Type} (size : χ → ℕ) (readOnly : χ → Bool)
    (copy : χ → CopyWorld ω → Errno × CopyWorld ω) :
    List χ → (bytesCopied : ℕ) → CopyWorld ω → HookedResult ω
  | [], bytesCopied, w => ⟨.none, bytesCopied, w⟩
  | c :: cs, bytesCopied, w =>
      if readOnly c then ⟨.perm, bytesCopied, w⟩
      else
        let r := copy c w
        if r.1 ≠ .none then ⟨.badr, bytesCopied, r.2⟩
        else runChunks size readOnly copy cs (bytesCopied + size c) r.2

/-- A chunk between buffers. -/
def copySgChunk (dst src : Buffer) (dstHooks srcHooks : ChainHooks ω) (copier : BulkCopier)
    (c : SgChunk) (w : CopyWorld ω) : Errno × CopyWorld ω :=
  ChainHooks.copyBetweenVqa (some copier) dstHooks srcHooks (vqaAt dst c.dst) (vqaAt src c.src)
    c.size w

/-- A chunk between a buffer and linear memory. -/
def copyLinearChunk (linearToSg : Bool) (b : Buffer) (hooks : ChainHooks ω) (copier : BulkCopier)
    (c : LinearChunk) (w : CopyWorld ω) : Errno × CopyWorld ω :=
  if linearToSg then hooks.copyToVqa (some copier) (vqaAt b c.sg) c.linear c.size w
  else hooks.copyFromVqa (some copier) c.linear (vqaAt b c.sg) c.size w

/-- Copy chunks between buffers. -/
def runSgChunks (dst src : Buffer) (dstHooks srcHooks : ChainHooks ω) (copier : BulkCopier) :
    List SgChunk → ℕ → CopyWorld ω → HookedResult ω :=
  runChunks SgChunk.size (fun c => dst.shouldOnlyRead (dst.descChain c.dst.1).flags)
    (copySgChunk dst src dstHooks srcHooks copier)

/-- Copy chunks between a buffer and linear memory. -/
def runLinearChunks (linearToSg : Bool) (b : Buffer) (hooks : ChainHooks ω) (copier : BulkCopier) :
    List LinearChunk → ℕ → CopyWorld ω → HookedResult ω :=
  runChunks LinearChunk.size (fun c => linearToSg && b.shouldOnlyRead (b.descChain c.sg.1).flags)
    (copyLinearChunk linearToSg b hooks copier)

variable {b dst src : Buffer} {hooks dHooks sHooks : ChainHooks ω} {copier : BulkCopier}
  {w : CopyWorld ω}

/-- **How a chunk between buffers ends**: the destination's translation fails, the source's does,
the source's post hook does, or all four hooks are called. -/
theorem copyBetweenVqa_cases {dVqa sVqa : UInt64} {n : ℕ} {d s : (Errno × ℕ) × ω} {r e : Errno × ω}
    (hd : dHooks.vqAddrToWHva dVqa n w.ext = d) (hs : sHooks.vqAddrToRHva sVqa n d.2 = s)
    (hr : sHooks.vqAddrToRHvaPost sVqa n s.1.2 s.2 = r)
    (he : dHooks.vqAddrToWHvaPost dVqa n d.1.2 r.2 = e) :
    (d.1.1 ≠ .none ∧ ChainHooks.copyBetweenVqa (some copier) dHooks sHooks dVqa sVqa n w =
      (d.1.1, w.after w.mem d.2 [.toHva .write dVqa n d.1.1 d.1.2])) ∨
    (d.1.1 = .none ∧ s.1.1 ≠ .none ∧
      ChainHooks.copyBetweenVqa (some copier) dHooks sHooks dVqa sVqa n w =
        (s.1.1, w.after w.mem s.2
          [.toHva .write dVqa n .none d.1.2, .toHva .read sVqa n s.1.1 s.1.2])) ∨
    (d.1.1 = .none ∧ s.1.1 = .none ∧ r.1 ≠ .none ∧
      ChainHooks.copyBetweenVqa (some copier) dHooks sHooks dVqa sVqa n w =
        (r.1, w.after (copier w.mem d.1.2 s.1.2 n) r.2
          [.toHva .write dVqa n .none d.1.2, .toHva .read sVqa n .none s.1.2,
            .bulkCopy d.1.2 s.1.2 n, .post .read sVqa n s.1.2 r.1])) ∨
    (d.1.1 = .none ∧ s.1.1 = .none ∧ r.1 = .none ∧
      ChainHooks.copyBetweenVqa (some copier) dHooks sHooks dVqa sVqa n w =
        (e.1, w.after (copier w.mem d.1.2 s.1.2 n) e.2
          [.toHva .write dVqa n .none d.1.2, .toHva .read sVqa n .none s.1.2,
            .bulkCopy d.1.2 s.1.2 n, .post .read sVqa n s.1.2 .none,
            .post .write dVqa n d.1.2 e.1])) := by
  subst hd hs hr he
  simp only [ChainHooks.copyBetweenVqa, ChainHooks.callToHva, ChainHooks.callPost,
    ChainHooks.toHva, ChainHooks.post, CopyWorld.bulkCopy, List.append_assoc, List.cons_append,
    List.nil_append]
  split_ifs with hd hs hr
  · exact .inl ⟨hd, rfl⟩
  · rw [not_not] at hd
    refine .inr (.inl ⟨hd, hs, ?_⟩)
    rw [hd]
  · rw [not_not] at hd hs
    refine .inr (.inr (.inl ⟨hd, hs, hr, ?_⟩))
    rw [hd, hs]
  · rw [not_not] at hd hs hr
    refine .inr (.inr (.inr ⟨hd, hs, hr, ?_⟩))
    rw [hd, hs, hr]

/-- **How a chunk into or out of linear memory ends**: the translation fails, or both hooks are
called. -/
theorem copyLinearChunk_cases (linearToSg : Bool) {c : LinearChunk} {a : Parity} {dst src : ℕ}
    {t : (Errno × ℕ) × ω} {e : Errno × ω}
    (ha : a = if linearToSg then .write else .read)
    (ht : hooks.toHva a (vqaAt b c.sg) c.size w.ext = t)
    (he : hooks.post a (vqaAt b c.sg) c.size t.1.2 t.2 = e)
    (hdst : dst = if linearToSg then t.1.2 else c.linear)
    (hsrc : src = if linearToSg then c.linear else t.1.2) :
    (t.1.1 ≠ .none ∧ copyLinearChunk linearToSg b hooks copier c w =
      (t.1.1, w.after w.mem t.2 [.toHva a (vqaAt b c.sg) c.size t.1.1 t.1.2])) ∨
    (t.1.1 = .none ∧ copyLinearChunk linearToSg b hooks copier c w =
      (e.1, w.after (copier w.mem dst src c.size) e.2
        [.toHva a (vqaAt b c.sg) c.size .none t.1.2, .bulkCopy dst src c.size,
          .post a (vqaAt b c.sg) c.size t.1.2 e.1])) := by
  subst ha ht he hdst hsrc
  cases linearToSg with
  | true =>
      simp only [copyLinearChunk, if_true, ChainHooks.copyToVqa, ChainHooks.callToHva,
        ChainHooks.callPost, CopyWorld.bulkCopy, List.append_assoc, List.cons_append,
        List.nil_append]
      split_ifs with ht
      · exact .inl ⟨ht, rfl⟩
      · rw [not_not] at ht
        refine .inr ⟨ht, ?_⟩
        rw [ht]
  | false =>
      simp only [copyLinearChunk, Bool.false_eq_true, if_false, ChainHooks.copyFromVqa,
        ChainHooks.callToHva, ChainHooks.callPost, CopyWorld.bulkCopy, List.append_assoc,
        List.cons_append, List.nil_append]
      split_ifs with ht
      · exact .inl ⟨ht, rfl⟩
      · rw [not_not] at ht
        refine .inr ⟨ht, ?_⟩
        rw [ht]

/-- **The loop between buffers takes the chunks of the request in turn.** -/
theorem copySgLoop_eq_runChunks (fuel rem : ℕ) (d s : ℕ × ℕ) (bytesCopied : ℕ)
    (w : CopyWorld ω) :
    copySgLoop dst src dHooks sHooks copier fuel rem d s bytesCopied w =
      runSgChunks dst src dHooks sHooks copier (sgChunks dst src fuel rem d s) bytesCopied w := by
  induction fuel generalizing rem d s bytesCopied w with
  | zero => rfl
  | succ fuel ih =>
      rw [copySgLoop, sgChunks]
      by_cases hend : rem = 0 ∨ d.1 = dst.active ∨ s.1 = src.active
      · rw [if_pos hend, if_pos hend]
        rfl
      · rw [if_neg hend, if_neg hend]
        dsimp only
        rw [runSgChunks, runChunks, ← runSgChunks]
        by_cases hread : dst.shouldOnlyRead (dst.descChain d.1).flags = true
        · rw [if_pos hread, if_pos hread]
        · rw [if_neg hread, if_neg hread]
          dsimp only
          rw [ih]
          rfl

/-- **The loop to or from linear memory takes the chunks of the request in turn.** -/
theorem copyLinearLoop_eq_runChunks (linearToSg : Bool) (left it sgOff rem l bytesCopied : ℕ)
    (w : CopyWorld ω) :
    copyLinearLoop linearToSg b hooks copier left it sgOff rem l bytesCopied w =
      runLinearChunks linearToSg b hooks copier (linearChunks b left it sgOff rem l) bytesCopied
        w := by
  induction left generalizing it sgOff rem l bytesCopied w with
  | zero => rfl
  | succ left ih =>
      rw [copyLinearLoop, linearChunks]
      by_cases hend : rem = 0
      · rw [if_pos hend, if_pos hend]
        rfl
      · rw [if_neg hend, if_neg hend]
        dsimp only
        rw [runLinearChunks, runChunks, ← runLinearChunks]
        by_cases hread : (linearToSg && b.shouldOnlyRead (b.descChain it).flags) = true
        · rw [if_pos hread, if_pos hread]
        · rw [if_neg hread, if_neg hread]
          dsimp only
          rw [ih]
          rfl

/-! ## Requests -/

/-- The chunks of a request between buffers, if it fits them. -/
def sgRequest (dst src : Buffer) (sizeBytes dOff sOff : ℕ) : List SgChunk :=
  let d := dst.checkCopyConfiguration sizeBytes dOff
  let s := src.checkCopyConfiguration sizeBytes sOff
  if d.1 ≠ .none ∨ s.1 ≠ .none then []
  else sgChunks dst src ((dst.active - d.2.1) + (src.active - s.2.1)) sizeBytes d.2 s.2

/-- The chunks of a `copy_to_sg`, if it is not refused. A buffer is never copied to itself. -/
def toSgPlan (h : Heap) (src dst : BufId) (sizeBytes dOff sOff : ℕ) : List SgChunk :=
  if (h src).asyncCopyCookie.isDst || (h dst).asyncCopyCookie.inUse || src == dst then []
  else sgRequest (h dst) (h src) sizeBytes dOff sOff

/-- The chunks of a request to or from linear memory, if it fits the buffer. -/
def linearRequest (b : Buffer) (sizeBytes off l : ℕ) : List LinearChunk :=
  let it := b.checkCopyConfiguration sizeBytes off
  if it.1 ≠ .none then [] else linearChunks b (b.active - it.2.1) it.2.1 it.2.2 sizeBytes l

/-- The chunks of a `copy_to_linear` or `copy_from_linear`, if it is not refused. -/
def linearPlan (b : Buffer) (sizeBytes off l : ℕ) : List LinearChunk :=
  if b.asyncCopyCookie.isDst then [] else linearRequest b sizeBytes off l

/-- A copy leaves the world as `r` does, and if it fails for a descriptor or a hook it is because
`r` does. -/
structure Follows {σ : Type} (e : CopyEnd (σ × CopyWorld ω)) (r : HookedResult ω) : Prop where
  world : e.state.2 = r.world
  mem : e.mem = r.world.mem
  failed : e.err = .perm ∨ e.err = .badr → e.err = r.err ∧ e.bytesCopied = r.bytesCopied

section Follows

variable {σ : Type}

theorem Follows.of_refused {s : σ} {err : Errno} {n : ℕ} (h : err ≠ .perm ∧ err ≠ .badr) :
    Follows (⟨err, n, (s, w), w.mem⟩ : CopyEnd (σ × CopyWorld ω)) ⟨.none, 0, w⟩ where
  world := rfl
  mem := rfl
  failed := fun hfail => absurd hfail (not_or.2 h)

theorem Follows.of_result {s : σ} {r : HookedResult ω} :
    Follows (⟨r.err, r.bytesCopied, (s, r.world), r.world.mem⟩ : CopyEnd (σ × CopyWorld ω)) r where
  world := rfl
  mem := rfl
  failed := fun _ => ⟨rfl, rfl⟩

end Follows

theorem sgChunks_zero (fuel : ℕ) (d s : ℕ × ℕ) : sgChunks dst src fuel 0 d s = [] := by
  cases fuel with
  | zero => rfl
  | succ fuel => rw [sgChunks, if_pos (.inl rfl)]

theorem linearChunks_zero (left it sgOff l : ℕ) : linearChunks b left it sgOff 0 l = [] := by
  cases left with
  | zero => rfl
  | succ left => rw [linearChunks, if_pos rfl]

theorem sgRequest_zero (dOff sOff : ℕ) : sgRequest dst src 0 dOff sOff = [] := by
  rw [sgRequest, sgChunks_zero, ite_self]

theorem linearRequest_zero (off l : ℕ) : linearRequest b 0 off l = [] := by
  rw [linearRequest, linearChunks_zero, ite_self]

theorem runChunks_err_ne_again {χ : Type} {size : χ → ℕ} {readOnly : χ → Bool}
    {copy : χ → CopyWorld ω → Errno × CopyWorld ω} (cs : List χ) (n : ℕ) (w : CopyWorld ω) :
    (runChunks size readOnly copy cs n w).err ≠ .again := by
  induction cs generalizing n w with
  | nil => exact nofun
  | cons c cs ih =>
      rw [runChunks]
      dsimp only
      split_ifs
      · exact nofun
      · exact nofun
      · exact ih _ _

theorem checkCopyConfiguration_modifyCookie {f : AsyncCopyCookie → AsyncCopyCookie} (n off : ℕ) :
    (b.modifyCookie f).checkCopyConfiguration n off = b.checkCopyConfiguration n off := by
  have hfind : (b.modifyCookie f).find off = b.find off := by
    rw [Buffer.find, Buffer.find, Buffer.findLoop_modifyCookie]
    rfl
  rw [Buffer.checkCopyConfiguration, hfind]
  rfl

theorem sgChunks_modifyCookie {f g : AsyncCopyCookie → AsyncCopyCookie} (fuel rem : ℕ)
    (d s : ℕ × ℕ) :
    sgChunks (dst.modifyCookie f) (src.modifyCookie g) fuel rem d s =
      sgChunks dst src fuel rem d s := by
  induction fuel generalizing rem d s with
  | zero => rfl
  | succ fuel ih =>
      rw [sgChunks, sgChunks]
      dsimp only
      rw [ih]
      rfl

theorem linearChunks_modifyCookie {f : AsyncCopyCookie → AsyncCopyCookie}
    (left it sgOff rem l : ℕ) :
    linearChunks (b.modifyCookie f) left it sgOff rem l = linearChunks b left it sgOff rem l := by
  induction left generalizing it sgOff rem l with
  | zero => rfl
  | succ left ih =>
      rw [linearChunks, linearChunks]
      dsimp only
      rw [ih]
      rfl

theorem checkCopyConfiguration_err (n off : ℕ) :
    (b.checkCopyConfiguration n off).1 ≠ .perm ∧ (b.checkCopyConfiguration n off).1 ≠ .badr := by
  rw [Buffer.checkCopyConfiguration]
  dsimp only
  split_ifs <;> exact ⟨(by simp), (by simp)⟩

/-- What a `try_end_copy_*` makes of a request of `n` bytes. -/
def requestResult (n : ℕ) (inBounds : Prop) [Decidable inBounds] (impl : HookedResult ω)
    (w : CopyWorld ω) : HookedResult ω :=
  if 0 < n then impl else ⟨if inBounds then .none else .noent, 0, w⟩

/-- An ended request follows the chunks if the implementation does. There are none if it is
empty. -/
theorem Follows.of_request {σ : Type} {t : σ} {n : ℕ} {inBounds : Prop} [Decidable inBounds]
    {impl r : HookedResult ω} (hagain : impl.err ≠ .again)
    (himpl : Follows (⟨impl.err, impl.bytesCopied, (t, impl.world), impl.world.mem⟩ :
      CopyEnd (σ × CopyWorld ω)) r) (hempty : n = 0 → r = ⟨.none, 0, w⟩) :
    let e := requestResult n inBounds impl w
    e.err ≠ .again ∧
      Follows (⟨e.err, e.bytesCopied, (t, e.world), e.world.mem⟩ : CopyEnd (σ × CopyWorld ω))
        r := by
  dsimp only
  rw [requestResult]
  by_cases hn : 0 < n
  · rw [if_pos hn]
    exact ⟨hagain, himpl⟩
  · rw [if_neg hn, hempty (by omega)]
    dsimp only
    split_ifs
    · exact ⟨nofun, .of_refused ⟨nofun, nofun⟩⟩
    · exact ⟨nofun, .of_refused ⟨nofun, nofun⟩⟩

theorem tryEndCopyToSg_eq {h : Heap} {i j : BufId}
    {impl : Buffer → Buffer → CopyWorld ω → HookedResult ω}
    (hmatch : (h j).asyncCopyCookie.isDstFromMatchingCookie i (h i).asyncCopyCookie = true) :
    ∃ t, tryEndCopyToSg h i j impl w =
      let c := (h j).asyncCopyCookie
      let r := requestResult c.reqSz (c.reqDOff ≤ (h j).sizeBytes ∧ c.reqSOff ≤ (h i).sizeBytes)
        (impl (h i) (h j) w) w
      ⟨r.err, r.bytesCopied, (t, r.world), r.world.mem⟩ := by
  rw [tryEndCopyToSg, hmatch]
  dsimp only
  rw [if_neg (by decide)]
  by_cases hagain : (requestResult (h j).asyncCopyCookie.reqSz
      ((h j).asyncCopyCookie.reqDOff ≤ (h j).sizeBytes ∧
        (h j).asyncCopyCookie.reqSOff ≤ (h i).sizeBytes) (impl (h i) (h j) w) w).err ≠ .again
  · exact ⟨_, if_pos hagain⟩
  · exact ⟨_, if_neg hagain⟩

/-- What `try_end_copy_to_sg_impl` does for the request that the destination's cookie holds. -/
theorem Follows.of_sgImpl {σ : Type} {t : σ} {copier : BulkCopier}
    {f g : AsyncCopyCookie → AsyncCopyCookie} :
    let c := f dst.asyncCopyCookie
    let r := tryEndCopyToSgImpl dHooks sHooks copier (src.modifyCookie g) (dst.modifyCookie f) w
    r.err ≠ .again ∧
    Follows (⟨r.err, r.bytesCopied, (t, r.world), r.world.mem⟩ : CopyEnd (σ × CopyWorld ω))
      (runSgChunks dst src dHooks sHooks copier (sgRequest dst src c.reqSz c.reqDOff c.reqSOff) 0
        w) := by
  dsimp only
  rw [tryEndCopyToSgImpl, sgRequest]
  simp only [Buffer.asyncCopyCookie_modifyCookie, checkCopyConfiguration_modifyCookie]
  by_cases hd : (dst.checkCopyConfiguration (f dst.asyncCopyCookie).reqSz
      (f dst.asyncCopyCookie).reqDOff).1 ≠ .none
  · rw [if_pos hd, if_pos (.inl hd)]
    exact ⟨Buffer.checkCopyConfiguration_err_ne_again, .of_refused (checkCopyConfiguration_err ..)⟩
  · by_cases hs : (src.checkCopyConfiguration (f dst.asyncCopyCookie).reqSz
        (f dst.asyncCopyCookie).reqSOff).1 ≠ .none
    · rw [if_neg hd, if_pos hs, if_pos (.inr hs)]
      exact ⟨Buffer.checkCopyConfiguration_err_ne_again,
        .of_refused (checkCopyConfiguration_err ..)⟩
    · rw [if_neg hd, if_neg hs, if_neg (not_or.2 ⟨hd, hs⟩), copySgLoop_eq_runChunks,
        sgChunks_modifyCookie]
      exact ⟨runChunks_err_ne_again _ _ _, .of_result⟩

/-- **A `copy_to_sg` goes through the chunks of its plan.** -/
theorem copyToSg_follows {h : Heap} {i j : BufId} {copier : Option BulkCopier} {n dOff sOff : ℕ} :
    Follows (copyToSg h i j dHooks sHooks n dOff sOff copier w)
      (runSgChunks (h j) (h i) dHooks sHooks (copier.getD bulkCopierDefault)
        (toSgPlan h i j n dOff sOff) 0 w) := by
  by_cases hbusy : ((h i).asyncCopyCookie.isDst || (h j).asyncCopyCookie.inUse) = true
  · have hplan : toSgPlan h i j n dOff sOff = [] := if_pos (by rw [hbusy, Bool.true_or])
    have hstart : h.startCopyToSg i j n dOff sOff .none = (.rbusy, n, h) := if_pos hbusy
    rw [hplan, copyToSg, hstart]
    exact .of_refused ⟨(by simp), (by simp)⟩
  obtain ⟨hi, hj⟩ := Bool.or_eq_false_iff.1 (Bool.eq_false_iff.2 hbusy)
  obtain ⟨h', hh'⟩ : ∃ h' : Heap,
      h' = (h.modifyCookie i AsyncCopyCookie.initSgSrcToSgDst).modifyCookie j
        fun c => c.initSgDstFromSgSrc i n dOff sOff := ⟨_, rfl⟩
  have hstart : h.startCopyToSg i j n dOff sOff .none = (.none, 0, h') := by
    rw [Heap.startCopyToSg, hi, hj, hh']
    rfl
  rw [copyToSg, hstart]
  by_cases hij : i = j
  · -- the one cookie is that of a destination, and does not match
    subst hij
    have hplan : toSgPlan h i i n dOff sOff = [] := if_pos (by rw [beq_self_eq_true, Bool.or_true])
    have hmatch : (h' i).asyncCopyCookie.isDstFromMatchingCookie i (h' i).asyncCopyCookie =
        false := by
      rw [hh', Heap.modifyCookie, Function.update_self]
      simp [AsyncCopyCookie.isDstFromMatchingCookie, AsyncCopyCookie.isSrcToSg,
        AsyncCopyCookie.initSgDstFromSgSrc, AsyncCopyCookie.initMetadata,
        AsyncCopyCookie.initStatus]
    have hend (impl : Buffer → Buffer → CopyWorld ω → HookedResult ω) :
        tryEndCopyToSg h' i i impl w = ⟨.exist, 0, (h', w), w.mem⟩ := by
      rw [tryEndCopyToSg, hmatch]
      rfl
    rw [hplan, copySync_of_ne_again rfl (by simp only [hend]; exact (by simp))]
    simp only [hend]
    exact .of_refused ⟨(by simp), (by simp)⟩
  · have hi' : h' i = (h i).modifyCookie AsyncCopyCookie.initSgSrcToSgDst := by
      rw [hh', Heap.modifyCookie, Function.update_of_ne hij, Heap.modifyCookie,
        Function.update_self]
    have hj' : h' j = (h j).modifyCookie fun c => c.initSgDstFromSgSrc i n dOff sOff := by
      rw [hh', Heap.modifyCookie, Function.update_self, Heap.modifyCookie,
        Function.update_of_ne (Ne.symm hij)]
    have hmatch : (h' j).asyncCopyCookie.isDstFromMatchingCookie i (h' i).asyncCopyCookie =
        true := by
      rw [hi', hj']
      simp [AsyncCopyCookie.isDstFromMatchingCookie, AsyncCopyCookie.isDstFromSg,
        AsyncCopyCookie.isSrcToSg, AsyncCopyCookie.inUse, AsyncCopyCookie.initSgDstFromSgSrc,
        AsyncCopyCookie.initSgSrcToSgDst, AsyncCopyCookie.initMetadata, AsyncCopyCookie.initStatus]
    have hplan : toSgPlan h i j n dOff sOff = sgRequest (h j) (h i) n dOff sOff := by
      rw [toSgPlan, hi, hj, beq_eq_false_iff_ne.2 hij]
      rfl
    obtain ⟨t, ht⟩ := @tryEndCopyToSg_eq ω w h' i j
      (tryEndCopyToSgImpl dHooks sHooks (copier.getD bulkCopierDefault)) hmatch
    rw [hi', hj'] at ht
    obtain ⟨hagain, himpl⟩ := @Follows.of_sgImpl ω (h j) (h i) dHooks sHooks w Heap t
      (copier.getD bulkCopierDefault) (fun c => c.initSgDstFromSgSrc i n dOff sOff)
      AsyncCopyCookie.initSgSrcToSgDst
    have hend := @Follows.of_request ω w Heap t n
      (dOff ≤ (h j).sizeBytes ∧ sOff ≤ (h i).sizeBytes) _ _ _ hagain himpl fun hn => by
        show runSgChunks (h j) (h i) dHooks sHooks (copier.getD bulkCopierDefault)
          (sgRequest (h j) (h i) n dOff sOff) 0 w = _
        rw [hn, sgRequest_zero]
        rfl
    rw [hplan, copySync_of_ne_again rfl (by simp only [ht]; exact hend.1)]
    simp only [ht]
    exact hend.2

/-- What `copy_fromto_linear_impl` does for the request that the cookie holds. -/
theorem Follows.of_linearImpl {σ : Type} {t : σ} {copier : BulkCopier} (linearToSg : Bool)
    (l : ℕ) {f : AsyncCopyCookie → AsyncCopyCookie} :
    let c := f b.asyncCopyCookie
    let r := copyFromtoLinearImpl linearToSg hooks l copier (b.modifyCookie f) w
    r.err ≠ .again ∧
    Follows (⟨r.err, r.bytesCopied, (t, r.world), r.world.mem⟩ : CopyEnd (σ × CopyWorld ω))
      (runLinearChunks linearToSg b hooks copier
        (linearRequest b c.reqSz (if linearToSg then c.reqDOff else c.reqSOff) l) 0 w) := by
  dsimp only
  rw [copyFromtoLinearImpl, linearRequest]
  simp only [Buffer.asyncCopyCookie_modifyCookie, checkCopyConfiguration_modifyCookie]
  generalize (if linearToSg = true then (f b.asyncCopyCookie).reqDOff
    else (f b.asyncCopyCookie).reqSOff) = off
  by_cases hit : (b.checkCopyConfiguration (f b.asyncCopyCookie).reqSz off).1 ≠ .none
  · rw [if_pos hit, if_pos hit]
    exact ⟨Buffer.checkCopyConfiguration_err_ne_again, .of_refused (checkCopyConfiguration_err ..)⟩
  · rw [if_neg hit, if_neg hit, copyLinearLoop_eq_runChunks, linearChunks_modifyCookie]
    exact ⟨runChunks_err_ne_again _ _ _, .of_result⟩

theorem tryEndCopyToLinear_eq {impl : Buffer → CopyWorld ω → HookedResult ω}
    (hsrc : b.asyncCopyCookie.isSrcToLinear = true) :
    ∃ t, tryEndCopyToLinear b impl w =
      let c := b.asyncCopyCookie
      let r := requestResult c.reqSz (c.reqSOff ≤ b.sizeBytes) (impl b w) w
      ⟨r.err, r.bytesCopied, (t, r.world), r.world.mem⟩ := by
  rw [tryEndCopyToLinear, hsrc]
  dsimp only
  rw [if_neg (by decide)]
  by_cases hagain : (requestResult b.asyncCopyCookie.reqSz
      (b.asyncCopyCookie.reqSOff ≤ b.sizeBytes) (impl b w) w).err ≠ .again
  · exact ⟨_, if_pos hagain⟩
  · exact ⟨_, if_neg hagain⟩

theorem tryEndCopyFromLinear_eq {impl : Buffer → CopyWorld ω → HookedResult ω}
    (hdst : b.asyncCopyCookie.isDstFromLinear = true) :
    ∃ t, tryEndCopyFromLinear b impl w =
      let c := b.asyncCopyCookie
      let r := requestResult c.reqSz (c.reqDOff ≤ b.sizeBytes) (impl b w) w
      ⟨r.err, r.bytesCopied, (t, r.world), r.world.mem⟩ := by
  rw [tryEndCopyFromLinear, hdst]
  dsimp only
  rw [if_neg (by decide)]
  by_cases hagain : (requestResult b.asyncCopyCookie.reqSz
      (b.asyncCopyCookie.reqDOff ≤ b.sizeBytes) (impl b w) w).err ≠ .again
  · exact ⟨_, if_pos hagain⟩
  · exact ⟨_, if_neg hagain⟩

/-- **A `copy_to_linear` goes through the chunks of its plan.** -/
theorem copyToLinear_follows {copier : Option BulkCopier} {l n sOff : ℕ} :
    Follows (copyToLinear b (some l) hooks n sOff copier w)
      (runLinearChunks false b hooks (copier.getD bulkCopierDefault) (linearPlan b n sOff l) 0
        w) := by
  by_cases hbusy : b.asyncCopyCookie.isDst = true
  · have hplan : linearPlan b n sOff l = [] := if_pos hbusy
    have hstart : b.startCopyToLinear (some l) n sOff .none = (.rbusy, n, b) := if_pos hbusy
    rw [hplan, copyToLinear, hstart]
    exact .of_refused ⟨nofun, nofun⟩
  have hplan : linearPlan b n sOff l = linearRequest b n sOff l := if_neg hbusy
  have hstart : b.startCopyToLinear (some l) n sOff .none =
      (.none, 0, b.modifyCookie fun c => c.initSgSrcToLinearDst l n sOff) := by
    rw [Buffer.startCopyToLinear, Buffer.startLinear]
    dsimp only
    rw [if_neg hbusy]
    rfl
  obtain ⟨t, ht⟩ := @tryEndCopyToLinear_eq ω
    (b.modifyCookie fun c => c.initSgSrcToLinearDst l n sOff) w
    (fun b => copyFromtoLinearImpl false hooks
      (b.asyncCopyCookie.linearDst.getD 0 + b.asyncCopyCookie.reqDOff)
      (copier.getD bulkCopierDefault) b) rfl
  obtain ⟨hagain, himpl⟩ := @Follows.of_linearImpl ω b hooks w Buffer t
    (copier.getD bulkCopierDefault) false l fun c => c.initSgSrcToLinearDst l n sOff
  have hend := @Follows.of_request ω w Buffer t n (sOff ≤ b.sizeBytes) _ _ _ hagain himpl
    fun hn => by
      show runLinearChunks false b hooks (copier.getD bulkCopierDefault)
        (linearRequest b n sOff l) 0 w = _
      rw [hn, linearRequest_zero]
      rfl
  rw [hplan, copyToLinear, hstart, copySync_of_ne_again rfl (by simp only [ht]; exact hend.1)]
  simp only [ht]
  exact hend.2

/-- **A `copy_from_linear` goes through the chunks of its plan.** -/
theorem copyFromLinear_follows {copier : Option BulkCopier} {l n dOff : ℕ} :
    Follows (copyFromLinear b (some l) hooks n dOff copier w)
      (runLinearChunks true b hooks (copier.getD bulkCopierDefault) (linearPlan b n dOff l) 0
        w) := by
  by_cases hbusy : b.asyncCopyCookie.isDst = true
  · have hplan : linearPlan b n dOff l = [] := if_pos hbusy
    have hstart : b.startCopyFromLinear (some l) n dOff .none = (.rbusy, n, b) := if_pos hbusy
    rw [hplan, copyFromLinear, hstart]
    exact .of_refused ⟨nofun, nofun⟩
  have hplan : linearPlan b n dOff l = linearRequest b n dOff l := if_neg hbusy
  have hstart : b.startCopyFromLinear (some l) n dOff .none =
      (.none, 0, b.modifyCookie fun c => c.initSgDstFromLinearSrc l n dOff) := by
    rw [Buffer.startCopyFromLinear, Buffer.startLinear]
    dsimp only
    rw [if_neg hbusy]
    rfl
  obtain ⟨t, ht⟩ := @tryEndCopyFromLinear_eq ω
    (b.modifyCookie fun c => c.initSgDstFromLinearSrc l n dOff) w
    (fun b => copyFromtoLinearImpl true hooks
      (b.asyncCopyCookie.linearSrc.getD 0 + b.asyncCopyCookie.reqSOff)
      (copier.getD bulkCopierDefault) b) rfl
  obtain ⟨hagain, himpl⟩ := @Follows.of_linearImpl ω b hooks w Buffer t
    (copier.getD bulkCopierDefault) true l fun c => c.initSgDstFromLinearSrc l n dOff
  have hend := @Follows.of_request ω w Buffer t n (dOff ≤ b.sizeBytes) _ _ _ hagain himpl
    fun hn => by
      show runLinearChunks true b hooks (copier.getD bulkCopierDefault)
        (linearRequest b n dOff l) 0 w = _
      rw [hn, linearRequest_zero]
      rfl
  rw [hplan, copyFromLinear, hstart, copySync_of_ne_again rfl (by simp only [ht]; exact hend.1)]
  simp only [ht]
  exact hend.2

end Hooked

/-! ## Hooks that always answer the same -/

/-- What an accessor returns, as an error code and an address. -/
def translation : Except Errno ℕ → Errno × ℕ
  | .ok hva => (.none, hva)
  | .error err => (err, 0)

/-- An accessor, as hooks that do nothing to their world. -/
def ChainHooks.ofAccessor (acc : ChainAccessor) : ChainHooks Unit where
  vqAddrToRHva vqa sizeBytes x := (translation (acc.vqAddrToRHva vqa sizeBytes), x)
  vqAddrToWHva vqa sizeBytes x := (translation (acc.vqAddrToWHva vqa sizeBytes), x)
  vqAddrToRHvaPost vqa sizeBytes hva x := (acc.vqAddrToRHvaPost vqa sizeBytes hva, x)
  vqAddrToWHvaPost vqa sizeBytes hva x := (acc.vqAddrToWHvaPost vqa sizeBytes hva, x)

/-- An accessor that fails returns an error. -/
structure ChainAccessor.Fails (acc : ChainAccessor) : Prop where
  read : ∀ vqa sizeBytes, acc.vqAddrToRHva vqa sizeBytes ≠ .error .none
  write : ∀ vqa sizeBytes, acc.vqAddrToWHva vqa sizeBytes ≠ .error .none

/-- Addresses below 256 are mapped where they are, and nothing else is. -/
def ChainHooks.lowMemory : ChainHooks Unit where
  vqAddrToRHva vqa _ x := (if vqa < 256 then (.none, vqa.toNat) else (.perm, 0), x)

/-- The result without its record of calls. -/
def HookedResult.toCopyResult {ω : Type} (r : HookedResult ω) : CopyResult :=
  ⟨r.err, r.bytesCopied, r.world.mem⟩

namespace Hooked

section OfAccessor

variable {b dst src : Buffer} {acc dAcc sAcc : ChainAccessor} {copier : BulkCopier}
  {w : CopyWorld Unit} {vqa dVqa sVqa : UInt64} {n l : ℕ}

theorem copyBetweenVqa_ofAccessor (hd : dAcc.Fails) (hs : sAcc.Fails) :
    let r := ChainHooks.copyBetweenVqa (some copier) (.ofAccessor dAcc) (.ofAccessor sAcc) dVqa
      sVqa n w
    (r.1, r.2.mem) =
      ChainAccessor.copyBetweenVqa (some copier) dAcc sAcc dVqa sVqa n w.mem := by
  have hdst := hd.write dVqa n
  have hsrc := hs.read sVqa n
  cases hdhva : dAcc.vqAddrToWHva dVqa n with
  | error err =>
      have herr : err ≠ .none := fun h => hdst (by rw [hdhva, h])
      simp [ChainHooks.copyBetweenVqa, ChainAccessor.copyBetweenVqa, ChainHooks.callToHva,
        ChainHooks.toHva, ChainHooks.ofAccessor, hdhva, translation, herr]
  | ok dHva =>
      cases hshva : sAcc.vqAddrToRHva sVqa n with
      | error err =>
          have herr : err ≠ .none := fun h => hsrc (by rw [hshva, h])
          simp [ChainHooks.copyBetweenVqa, ChainAccessor.copyBetweenVqa, ChainHooks.callToHva,
            ChainHooks.toHva, ChainHooks.ofAccessor, hdhva, hshva, translation, herr]
      | ok sHva =>
          simp only [ChainHooks.copyBetweenVqa, ChainAccessor.copyBetweenVqa,
            ChainHooks.callToHva, ChainHooks.callPost, ChainHooks.toHva, ChainHooks.post,
            ChainHooks.ofAccessor, hdhva, hshva, translation, ne_eq, not_true_eq_false, if_false,
            CopyWorld.bulkCopy]
          split_ifs <;> rfl

theorem copyFromVqa_ofAccessor (hacc : acc.Fails) :
    let r := (ChainHooks.ofAccessor acc).copyFromVqa (some copier) l vqa n w
    (r.1, r.2.mem) = acc.copyFromVqa (some copier) l vqa n w.mem := by
  have hsrc := hacc.read vqa n
  cases hhva : acc.vqAddrToRHva vqa n with
  | error err =>
      have herr : err ≠ .none := fun h => hsrc (by rw [hhva, h])
      simp [ChainHooks.copyFromVqa, ChainAccessor.copyFromVqa, ChainHooks.callToHva,
        ChainHooks.toHva, ChainHooks.ofAccessor, hhva, translation, herr]
  | ok hva =>
      simp [ChainHooks.copyFromVqa, ChainAccessor.copyFromVqa, ChainHooks.callToHva,
        ChainHooks.callPost, ChainHooks.toHva, ChainHooks.post, ChainHooks.ofAccessor, hhva,
        translation, CopyWorld.bulkCopy]

theorem copyToVqa_ofAccessor (hacc : acc.Fails) :
    let r := (ChainHooks.ofAccessor acc).copyToVqa (some copier) vqa l n w
    (r.1, r.2.mem) = acc.copyToVqa (some copier) vqa l n w.mem := by
  have hdst := hacc.write vqa n
  cases hhva : acc.vqAddrToWHva vqa n with
  | error err =>
      have herr : err ≠ .none := fun h => hdst (by rw [hhva, h])
      simp [ChainHooks.copyToVqa, ChainAccessor.copyToVqa, ChainHooks.callToHva,
        ChainHooks.toHva, ChainHooks.ofAccessor, hhva, translation, herr]
  | ok hva =>
      simp [ChainHooks.copyToVqa, ChainAccessor.copyToVqa, ChainHooks.callToHva,
        ChainHooks.callPost, ChainHooks.toHva, ChainHooks.post, ChainHooks.ofAccessor, hhva,
        translation, CopyWorld.bulkCopy]

theorem copySgLoop_ofAccessor (hd : dAcc.Fails) (hs : sAcc.Fails) (fuel rem : ℕ) (d s : ℕ × ℕ)
    (bytesCopied : ℕ) (w : CopyWorld Unit) :
    (copySgLoop dst src (.ofAccessor dAcc) (.ofAccessor sAcc) copier fuel rem d s bytesCopied
      w).toCopyResult =
      Buffer.copySgLoop dst src dAcc sAcc copier fuel rem d s bytesCopied w.mem := by
  induction fuel generalizing rem d s bytesCopied w with
  | zero => rfl
  | succ fuel ih =>
      rw [copySgLoop, Buffer.copySgLoop]
      dsimp only
      rw [← copyBetweenVqa_ofAccessor hd hs]
      dsimp only
      rw [← ih]
      split_ifs <;> rfl

theorem copyLinearLoop_ofAccessor (hacc : acc.Fails) (linearToSg : Bool)
    (left it sgOff rem l bytesCopied : ℕ) (w : CopyWorld Unit) :
    (copyLinearLoop linearToSg b (.ofAccessor acc) copier left it sgOff rem l bytesCopied
      w).toCopyResult =
      Buffer.copyLinearLoop linearToSg b acc copier left it sgOff rem l bytesCopied w.mem := by
  induction left generalizing it sgOff rem l bytesCopied w with
  | zero => rfl
  | succ left ih =>
      rw [copyLinearLoop, Buffer.copyLinearLoop]
      dsimp only
      rw [← copyToVqa_ofAccessor hacc, ← copyFromVqa_ofAccessor hacc]
      cases linearToSg with
      | true =>
          simp only [if_true]
          rw [← ih]
          split_ifs <;> rfl
      | false =>
          simp only [Bool.false_eq_true, if_false]
          rw [← ih]
          split_ifs <;> rfl

/-- **With hooks that always answer the same the copy between buffers is `tryEndCopyToSgImpl`.** -/
theorem tryEndCopyToSgImpl_ofAccessor (hd : dAcc.Fails) (hs : sAcc.Fails) :
    (tryEndCopyToSgImpl (.ofAccessor dAcc) (.ofAccessor sAcc) copier src dst w).toCopyResult =
      Buffer.tryEndCopyToSgImpl dAcc sAcc copier src dst w.mem := by
  rw [tryEndCopyToSgImpl, Buffer.tryEndCopyToSgImpl]
  dsimp only
  rw [← copySgLoop_ofAccessor hd hs]
  split_ifs <;> rfl

/-- **So are the copies to and from linear memory `copyFromtoLinearImpl`.** -/
theorem copyFromtoLinearImpl_ofAccessor (hacc : acc.Fails) (linearToSg : Bool) :
    (copyFromtoLinearImpl linearToSg (.ofAccessor acc) l copier b w).toCopyResult =
      Buffer.copyFromtoLinearImpl linearToSg acc l copier b w.mem := by
  rw [copyFromtoLinearImpl, Buffer.copyFromtoLinearImpl, ← copyLinearLoop_ofAccessor hacc]
  split_ifs <;> rfl

end OfAccessor

end Hooked

end Vml
