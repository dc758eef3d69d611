import Vml.Lib.ByteCopy
import Vml.SgBuffer

/-!
# Copying payload

The copies of `Sg::Buffer`: between two buffers (`copy_to_sg`), and between a buffer and linear
memory (`copy_to_linear`, `copy_from_linear`). Each is a transaction: `start_copy_*` writes the
request into the cookies, `try_end_copy_*` performs it and clears them, and `copy_*` runs the two
with a bounded number of retries.

What a derived class may override is a parameter here: the result of `start_copy_*_impl`, the
function `try_end_copy_*_impl`, the address translation and the bulk copier. The base class'
implementations are `tryEndCopyToSgImpl` and `copyFromtoLinearImpl`. A result says how many bytes
were copied and what memory and the buffers look like afterwards.

Buffers are kept in a heap, because the two buffers of a `copy_to_sg` may share a cookie with other
transactions, or be the same buffer.
-/

namespace Vml

/-! ## Address translation -/

/-- A `ChainAccessor`: translation from addresses the guest uses to host addresses, with the hooks
that run after the access. The defaults are those of `AddressTranslator`. -/
structure ChainAccessor where
  vqAddrToRHva : UInt64 → ℕ → Except Errno ℕ
  vqAddrToWHva : UInt64 → ℕ → Except Errno ℕ := vqAddrToRHva
  vqAddrToRHvaPost : UInt64 → ℕ → ℕ → Errno := fun _ _ _ => .none
  vqAddrToWHvaPost : UInt64 → ℕ → ℕ → Errno := vqAddrToRHvaPost

/-- A `BulkCopier`. -/
abbrev BulkCopier := Mem → (dst src sizeBytes : ℕ) → Mem

/-- `BulkCopierDefault`. -/
def bulkCopierDefault : BulkCopier := memcpy

namespace ChainAccessor

/-- `copy_between_vqa`. -/
def copyBetweenVqa (copier : Option BulkCopier) (dstAccessor srcAccessor : ChainAccessor)
    (dstVqa srcVqa : UInt64) (sizeBytes : ℕ) (m : Mem) : Errno × Mem :=
  match copier with
  | none => (.inval, m)
  | some bulkCopy =>
      match dstAccessor.vqAddrToWHva dstVqa sizeBytes with
      | .error err => (err, m)
      | .ok dstHva =>
          match srcAccessor.vqAddrToRHva srcVqa sizeBytes with
          | .error err => (err, m)
          | .ok srcHva =>
              let m := bulkCopy m dstHva srcHva sizeBytes
              let err := srcAccessor.vqAddrToRHvaPost srcVqa sizeBytes srcHva
              if err ≠ .none then (err, m)
              else (dstAccessor.vqAddrToWHvaPost dstVqa sizeBytes dstHva, m)

/-- `copy_from_vqa`. -/
def copyFromVqa (accessor : ChainAccessor) (copier : Option BulkCopier) (dstHva : ℕ)
    (srcVqa : UInt64) (sizeBytes : ℕ) (m : Mem) : Errno × Mem :=
  match copier with
  | none => (.inval, m)
  | some bulkCopy =>
      match accessor.vqAddrToRHva srcVqa sizeBytes with
      | .error err => (err, m)
      | .ok srcHva =>
          (accessor.vqAddrToRHvaPost srcVqa sizeBytes srcHva, bulkCopy m dstHva srcHva sizeBytes)

/-- `copy_to_vqa`. -/
def copyToVqa (accessor : ChainAccessor) (copier : Option BulkCopier) (dstVqa : UInt64)
    (srcHva : ℕ) (sizeBytes : ℕ) (m : Mem) : Errno × Mem :=
  match copier with
  | none => (.inval, m)
  | some bulkCopy =>
      match accessor.vqAddrToWHva dstVqa sizeBytes with
      | .error err => (err, m)
      | .ok dstHva =>
          (accessor.vqAddrToWHvaPost dstVqa sizeBytes dstHva, bulkCopy m dstHva srcHva sizeBytes)

end ChainAccessor

/-! ## The copy loops -/

/-- The result of a `try_end_copy_*_impl`. -/
structure CopyResult where
  err : Errno
  bytesCopied : ℕ
  mem : Mem

namespace Buffer

/-- `check_copy_configuration`, with the iterator and the offset that `find` returns. -/
def checkCopyConfiguration (b : Buffer) (sizeBytes off : ℕ) : Errno × ℕ × ℕ :=
  if b.sizeBytes ≤ off then (.noent, b.active, off)
  else if b.sizeBytes < sizeBytes then (.nomem, b.active, off)
  else if b.sizeBytes < sizeAdd off sizeBytes then (.nomem, b.active, off)
  else
    let p := b.find off
    if p.1 = b.active then (.noent, p) else (.none, p)

/-- Move `n` bytes on from offset `off` of descriptor `it`, to the next descriptor at the end of
this one. -/
def advance (b : Buffer) (it off n : ℕ) : ℕ × ℕ :=
  if off + n = b.len it then (it + 1, 0) else (it, off + n)

/-- The loop of `try_end_copy_to_sg_impl`. Every turn ends the request or finishes a descriptor of
one of the two buffers, so as many turns as there are descriptors are enough. -/
def copySgLoop (dst src : Buffer) (dstAccessor srcAccessor : ChainAccessor) (copier : BulkCopier) :
    (fuel rem : ℕ) → (d s : ℕ × ℕ) → (bytesCopied : ℕ) → Mem → CopyResult
  | 0, _, _, _, bytesCopied, m => ⟨.none, bytesCopied, m⟩
  | fuel + 1, rem, d, s, bytesCopied, m =>
      if rem = 0 ∨ d.1 = dst.active ∨ s.1 = src.active then ⟨.none, bytesCopied, m⟩
      else
        let dDesc := dst.descChain d.1
        let sDesc := src.descChain s.1
        let nCopy := min rem (min (src.len s.1 - s.2) (dst.len d.1 - d.2))
        if dst.shouldOnlyRead dDesc.flags then ⟨.perm, bytesCopied, m⟩
        else
          let r := ChainAccessor.copyBetweenVqa (some copier) dstAccessor srcAccessor
            (dDesc.address + UInt64.ofNat d.2) (sDesc.address + UInt64.ofNat s.2) nCopy m
          if r.1 ≠ .none then ⟨.badr, bytesCopied, r.2⟩
          else
            copySgLoop dst src dstAccessor srcAccessor copier fuel (rem - nCopy)
              (dst.advance d.1 d.2 nCopy) (src.advance s.1 s.2 nCopy) (bytesCopied + nCopy) r.2

/-- `try_end_copy_to_sg_impl`. The destination's cookie holds the request. -/
def tryEndCopyToSgImpl (dstAccessor srcAccessor : ChainAccessor) (copier : BulkCopier)
    (src dst : Buffer) (m : Mem) : CopyResult :=
  let rem := dst.asyncCopyCookie.reqSz
  let d := dst.checkCopyConfiguration rem dst.asyncCopyCookie.reqDOff
  if d.1 ≠ .none then ⟨d.1, 0, m⟩
  else
    let s := src.checkCopyConfiguration rem dst.asyncCopyCookie.reqSOff
    if s.1 ≠ .none then ⟨s.1, 0, m⟩
    else copySgLoop dst src dstAccessor srcAccessor copier
      ((dst.active - d.2.1) + (src.active - s.2.1)) rem d.2 s.2 0 m

/-- The loop of `copy_fromto_linear_impl`: `left` descriptors remain from `it` on. -/
def copyLinearLoop (linearToSg : Bool) (b : Buffer) (accessor : ChainAccessor)
    (copier : BulkCopier) : (left it sgOff rem l bytesCopied : ℕ) → Mem → CopyResult
  | 0, _, _, _, _, bytesCopied, m => ⟨.none, bytesCopied, m⟩
  | left + 1, it, sgOff, rem, l, bytesCopied, m =>
      if rem = 0 then ⟨.none, bytesCopied, m⟩
      else
        let desc := b.descChain it
        let nCopy := min (b.len it - sgOff) rem
        if linearToSg && b.shouldOnlyRead desc.flags then ⟨.perm, bytesCopied, m⟩
        else
          let vqa := desc.address + UInt64.ofNat sgOff
          let r :=
            if linearToSg then accessor.copyToVqa (some copier) vqa l nCopy m
            else accessor.copyFromVqa (some copier) l vqa nCopy m
          if r.1 ≠ .none then ⟨.badr, bytesCopied, r.2⟩
          else copyLinearLoop linearToSg b accessor copier left (it + 1) 0 (rem - nCopy)
            (l + nCopy) (bytesCopied + nCopy) r.2

/-- `copy_fromto_linear_impl`, for linear memory at `l`. -/
def copyFromtoLinearImpl (linearToSg : Bool) (accessor : ChainAccessor) (l : ℕ)
    (copier : BulkCopier) (b : Buffer) (m : Mem) : CopyResult :=
  let c := b.asyncCopyCookie
  let it := b.checkCopyConfiguration c.reqSz (if linearToSg then c.reqDOff else c.reqSOff)
  if it.1 ≠ .none then ⟨it.1, 0, m⟩
  else copyLinearLoop linearToSg b accessor copier (b.active - it.2.1) it.2.1 it.2.2 c.reqSz l 0 m

end Buffer

/-! ## Transactions -/

/-- The result of a `try_end_copy_*` or a `copy_*` on state `σ`: one buffer, or a heap of them. -/
structure CopyEnd (σ : Type) where
  err : Errno
  bytesCopied : ℕ
  state : σ
  mem : Mem

/-- The retry loop of the synchronous copies. `try_end` runs once more than there are retries. -/
def retryLoop {σ : Type} (tryEnd : σ → Mem → CopyEnd σ) :
    (retries : ℕ) → σ → Mem → (sizeBytes : ℕ) → CopyEnd σ
  | 0, s, m, sizeBytes =>
      let r := tryEnd s m
      { r with bytesCopied := sizeBytes + r.bytesCopied }
  | retries + 1, s, m, sizeBytes =>
      let r := tryEnd s m
      if r.err = .again then
        retryLoop tryEnd retries r.state r.mem (sizeBytes + r.bytesCopied)
      else { r with bytesCopied := sizeBytes + r.bytesCopied }

/-- What the three `copy_*` have in common, after their `start_copy_*`. -/
def copySync {σ : Type} (started : Errno × ℕ × σ) (tryEnd : σ → Mem → CopyEnd σ)
    (conclude : σ → σ) (m : Mem) : CopyEnd σ :=
  if started.1 ≠ .none then ⟨started.1, started.2.1, started.2.2, m⟩
  else
    let r := retryLoop tryEnd 10 started.2.2 m 0
    if r.err = .again then { r with state := conclude r.state } else r

/-- Change the cookie. -/
def Buffer.modifyCookie (b : Buffer) (f : AsyncCopyCookie → AsyncCopyCookie) : Buffer :=
  { b with asyncCopyCookie := f b.asyncCopyCookie }

/-! ### From buffer to buffer -/

/-- The buffers. -/
abbrev Heap := BufId → Buffer

namespace Heap

/-- Change the cookie of buffer `i`. -/
def modifyCookie (h : Heap) (i : BufId) (f : AsyncCopyCookie → AsyncCopyCookie) : Heap :=
  Function.update h i ((h i).modifyCookie f)

/-- `conclude_dst` on one cookie, then `conclude_src` on the other. -/
def concludeBoth (h : Heap) (src dst : BufId) : Heap :=
  (h.modifyCookie dst AsyncCopyCookie.concludeDst).modifyCookie src AsyncCopyCookie.concludeSrc

/-- `src.start_copy_to_sg(dst, ..)`, with the size that comes back. -/
def startCopyToSg (h : Heap) (src dst : BufId) (sizeBytes dOff sOff : ℕ) (impl : Errno) :
    Errno × ℕ × Heap :=
  if (h src).asyncCopyCookie.isDst || (h dst).asyncCopyCookie.inUse then (.rbusy, sizeBytes, h)
  else
    let h := h.modifyCookie src AsyncCopyCookie.initSgSrcToSgDst
    let h := h.modifyCookie dst fun c => c.initSgDstFromSgSrc src sizeBytes dOff sOff
    if impl ≠ .none then (impl, 0, h.concludeBoth src dst) else (.none, 0, h)

/-- `src.try_end_copy_to_sg(dst, ..)`. -/
def tryEndCopyToSg (h : Heap) (src dst : BufId) (impl : Buffer → Buffer → Mem → CopyResult)
    (m : Mem) : CopyEnd Heap :=
  let c := (h dst).asyncCopyCookie
  if !c.isDstFromMatchingCookie src (h src).asyncCopyCookie then ⟨.exist, 0, h, m⟩
  else
    let inBounds := c.reqDOff ≤ (h dst).sizeBytes ∧ c.reqSOff ≤ (h src).sizeBytes
    let r : CopyResult :=
      if 0 < c.reqSz then impl (h src) (h dst) m
      else ⟨if inBounds then .none else .noent, 0, m⟩
    let h : Heap :=
      Function.update h dst ((h dst).heuristicallyTrackWrittenBytes c.reqDOff r.bytesCopied)
    if r.err ≠ .again then ⟨r.err, r.bytesCopied, h.concludeBoth src dst, r.mem⟩
    else ⟨r.err, r.bytesCopied, h.modifyCookie dst (·.recordBytesCopied r.bytesCopied), r.mem⟩

/-- `src.copy_to_sg(dst, ..)`. -/
def copyToSg (h : Heap) (src dst : BufId) (dstAccessor srcAccessor : ChainAccessor)
    (sizeBytes dOff sOff : ℕ) (copier : Option BulkCopier) (m : Mem) : CopyEnd Heap :=
  let impl := Buffer.tryEndCopyToSgImpl dstAccessor srcAccessor (copier.getD bulkCopierDefault)
  copySync (h.startCopyToSg src dst sizeBytes dOff sOff .none)
    (fun h m => h.tryEndCopyToSg src dst impl m) (·.concludeBoth src dst) m

end Heap

/-! ### To and from linear memory -/

namespace Buffer

/-- The `start_copy_*_linear` with linear memory at `l`: `init` writes the request into the cookie
and `conclude` clears it again. -/
def startLinear (b : Buffer) (l : Option ℕ) (sizeBytes : ℕ)
    (init : AsyncCopyCookie → ℕ → AsyncCopyCookie) (conclude : AsyncCopyCookie → AsyncCopyCookie)
    (impl : Errno) : Errno × ℕ × Buffer :=
  match l with
  | none => (.badr, sizeBytes, b)
  | some l =>
      if b.asyncCopyCookie.isDst then (.rbusy, sizeBytes, b)
      else
        let b := b.modifyCookie (init · l)
        if impl ≠ .none then (impl, 0, b.modifyCookie conclude) else (.none, 0, b)

/-- `start_copy_to_linear`. -/
def startCopyToLinear (b : Buffer) (dst : Option ℕ) (sizeBytes sOff : ℕ) (impl : Errno) :
    Errno × ℕ × Buffer :=
  b.startLinear dst sizeBytes (fun c l => c.initSgSrcToLinearDst l sizeBytes sOff)
    AsyncCopyCookie.concludeSrc impl

/-- `start_copy_from_linear`. -/
def startCopyFromLinear (b : Buffer) (src : Option ℕ) (sizeBytes dOff : ℕ) (impl : Errno) :
    Errno × ℕ × Buffer :=
  b.startLinear src sizeBytes (fun c l => c.initSgDstFromLinearSrc l sizeBytes dOff)
    AsyncCopyCookie.concludeDst impl

/-- `try_end_copy_to_linear`. -/
def tryEndCopyToLinear (b : Buffer) (impl : Buffer → Mem → CopyResult) (m : Mem) :
    CopyEnd Buffer :=
  let c := b.asyncCopyCookie
  if !c.isSrcToLinear then ⟨.exist, 0, b, m⟩
  else
    let r : CopyResult :=
      if 0 < c.reqSz then impl b m
      else ⟨if c.reqSOff ≤ b.sizeBytes then .none else .noent, 0, m⟩
    if r.err ≠ .again then
      ⟨r.err, r.bytesCopied, b.modifyCookie AsyncCopyCookie.concludeSrc, r.mem⟩
    else ⟨r.err, r.bytesCopied, b.modifyCookie (·.recordBytesCopied r.bytesCopied), r.mem⟩

/-- `try_end_copy_from_linear`. Here the buffer is written to, so its prefixes are tracked. -/
def tryEndCopyFromLinear (b : Buffer) (impl : Buffer → Mem → CopyResult) (m : Mem) :
    CopyEnd Buffer :=
  let c := b.asyncCopyCookie
  if !c.isDstFromLinear then ⟨.exist, 0, b, m⟩
  else
    let r : CopyResult :=
      if 0 < c.reqSz then impl b m
      else ⟨if c.reqDOff ≤ b.sizeBytes then .none else .noent, 0, m⟩
    let b := b.heuristicallyTrackWrittenBytes c.reqDOff r.bytesCopied
    if r.err ≠ .again then
      ⟨r.err, r.bytesCopied, b.modifyCookie AsyncCopyCookie.concludeDst, r.mem⟩
    else ⟨r.err, r.bytesCopied, b.modifyCookie (·.recordBytesCopied r.bytesCopied), r.mem⟩

/-- `try_end_copy_to_linear_impl`. `is_src_to_linear` has ensured that there is a destination. -/
def tryEndCopyToLinearImpl (srcAccessor : ChainAccessor) (copier : BulkCopier) (b : Buffer)
    (m : Mem) : CopyResult :=
  let c := b.asyncCopyCookie
  copyFromtoLinearImpl false srcAccessor (c.linearDst.getD 0 + c.reqDOff) copier b m

/-- `try_end_copy_from_linear_impl`. `is_dst_from_linear` has ensured that there is a source. -/
def tryEndCopyFromLinearImpl (dstAccessor : ChainAccessor) (copier : BulkCopier) (b : Buffer)
    (m : Mem) : CopyResult :=
  let c := b.asyncCopyCookie
  copyFromtoLinearImpl true dstAccessor (c.linearSrc.getD 0 + c.reqSOff) copier b m

/-- `copy_to_linear`. -/
def copyToLinear (b : Buffer) (dst : Option ℕ) (srcAccessor : ChainAccessor) (sizeBytes sOff : ℕ)
    (copier : Option BulkCopier) (m : Mem) : CopyEnd Buffer :=
  let impl := tryEndCopyToLinearImpl srcAccessor (copier.getD bulkCopierDefault)
  copySync (b.startCopyToLinear dst sizeBytes sOff .none)
    (fun b m => b.tryEndCopyToLinear impl m) (·.modifyCookie AsyncCopyCookie.concludeSrc) m

/-- `copy_from_linear`. -/
def copyFromLinear (b : Buffer) (src : Option ℕ) (dstAccessor : ChainAccessor)
    (sizeBytes dOff : ℕ) (copier : Option BulkCopier) (m : Mem) : CopyEnd Buffer :=
  let impl := tryEndCopyFromLinearImpl dstAccessor (copier.getD bulkCopierDefault)
  copySync (b.startCopyFromLinear src sizeBytes dOff .none)
    (fun b m => b.tryEndCopyFromLinear impl m) (·.modifyCookie AsyncCopyCookie.concludeDst) m

end Buffer

end Vml
