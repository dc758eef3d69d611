import Vml.Lib.Fragments
import Vml.Virtqueue

/-!
# Scatter-gather buffers

The state of a `Virtio::Sg::Buffer` and the operations on it that do not touch payload memory,
following `virtio_sg.hpp` and `virtio_sg.cpp`: the asynchronous-copy cookie, the builder
(`reset`, `add_link`, `add_final_link`, `modify_link`), the written-prefix bookkeeping, and
`conclude_chain_use`.

The two arrays a buffer owns are functions of the index. Nothing in the class checks an index
against `_max_chain_length`, so staying below it is a property to prove, not one the types give.
-/

namespace Vml

/-- Buffers are named by numbers. A buffer owns one cookie for its whole life, so the name of the
buffer stands for the address of its cookie as well. -/
abbrev BufId := ℕ

/-- The descriptor table of a queue. -/
abbrev Table := UInt16 → Descriptor

/-! ## The asynchronous-copy cookie -/

/-- `Sg::Buffer::AsyncCopyCookie`. Pointers are `Option`; `none` is `nullptr`. -/
structure AsyncCopyCookie where
  copyStarted : Bool := false
  otherIsSg : Bool := false
  copyIsSrc : Bool := false
  pendingDsts : ℕ := 0
  reqSz : ℕ := 2 ^ 64 - 1
  reqDOff : ℕ := 2 ^ 64 - 1
  reqSOff : ℕ := 2 ^ 64 - 1
  cookieSrc : Option BufId := none
  linearSrc : Option ℕ := none
  linearDst : Option ℕ := none
  deriving DecidableEq, Repr

namespace AsyncCopyCookie

/-- `reset`. -/
def reset (_ : AsyncCopyCookie) : AsyncCopyCookie := {}

/-- `init_status`. A source counts its destinations, with one linear destination at a time. -/
def initStatus (c : AsyncCopyCookie) (isSrc otherSg : Bool) : AsyncCopyCookie :=
  { c with
    copyStarted := true
    otherIsSg := otherSg
    copyIsSrc := isSrc
    pendingDsts := if isSrc then (if otherSg then c.pendingDsts + 1 else 1) else 0 }

/-- `init_metadata`. -/
def initMetadata (c : AsyncCopyCookie) (isSrc otherSg : Bool) (sz dOff sOff : ℕ) :
    AsyncCopyCookie :=
  { c.initStatus isSrc otherSg with reqSz := sz, reqDOff := dOff, reqSOff := sOff }

/-- `init_sg_dst_from_sg_src`. -/
def initSgDstFromSgSrc (c : AsyncCopyCookie) (src : BufId) (sz dOff sOff : ℕ) : AsyncCopyCookie :=
  { c.initMetadata false true sz dOff sOff with cookieSrc := some src }

/-- `init_sg_src_to_sg_dst`. The destination tracks the metadata. -/
def initSgSrcToSgDst (c : AsyncCopyCookie) : AsyncCopyCookie := c.initStatus true true

/-- `init_sg_src_to_linear_dst`. -/
def initSgSrcToLinearDst (c : AsyncCopyCookie) (dst : ℕ) (sz sOff : ℕ) : AsyncCopyCookie :=
  { c.initMetadata true false sz 0 sOff with linearDst := some dst }

/-- `init_sg_dst_from_linear_src`. -/
def initSgDstFromLinearSrc (c : AsyncCopyCookie) (src : ℕ) (sz dOff : ℕ) : AsyncCopyCookie :=
  { c.initMetadata false false sz dOff 0 with linearSrc := some src }

/-- `record_bytes_copied`. -/
def recordBytesCopied (c : AsyncCopyCookie) (bytesCopied : ℕ) : AsyncCopyCookie :=
  { c with
    reqSz := sizeSub c.reqSz bytesCopied
    reqDOff := sizeAdd c.reqDOff bytesCopied
    reqSOff := sizeAdd c.reqSOff bytesCopied }

/-- `conclude_dst`. -/
def concludeDst (c : AsyncCopyCookie) : AsyncCopyCookie := c.reset

/-- `conclude_src`: reset once every destination has been serviced. The count is of distinct
buffers, so it never reaches the top of its range; taking one from zero does wrap. -/
def concludeSrc (c : AsyncCopyCookie) : AsyncCopyCookie :=
  let pendingDsts := if c.pendingDsts = 0 then 2 ^ 64 - 1 else c.pendingDsts - 1
  if pendingDsts = 0 then c.reset else { c with pendingDsts }

/-- `in_use`. -/
def inUse (c : AsyncCopyCookie) : Bool := c.copyStarted

/-- `is_dst_from_sg`. -/
def isDstFromSg (c : AsyncCopyCookie) : Bool := c.inUse && !c.copyIsSrc && c.otherIsSg

/-- `is_dst_from_linear`. -/
def isDstFromLinear (c : AsyncCopyCookie) : Bool :=
  c.inUse && !c.copyIsSrc && !c.otherIsSg && c.linearSrc.isSome

/-- `is_dst`. -/
def isDst (c : AsyncCopyCookie) : Bool := c.isDstFromSg || c.isDstFromLinear

/-- `is_src_to_sg`. -/
def isSrcToSg (c : AsyncCopyCookie) : Bool :=
  c.inUse && c.copyIsSrc && c.otherIsSg && decide (0 < c.pendingDsts)

/-- `is_src_to_linear`. -/
def isSrcToLinear (c : AsyncCopyCookie) : Bool :=
  c.inUse && c.copyIsSrc && !c.otherIsSg && c.linearDst.isSome && decide (0 < c.pendingDsts)

/-- `is_src`. -/
def isSrc (c : AsyncCopyCookie) : Bool := c.isSrcToSg || c.isSrcToLinear

/-- `is_dst_from_matching_cookie`: `c` is the destination cookie, and `src` names the buffer whose
cookie is `srcCookie`. -/
def isDstFromMatchingCookie (c : AsyncCopyCookie) (src : BufId) (srcCookie : AsyncCopyCookie) :
    Bool :=
  c.isDstFromSg && srcCookie.isSrcToSg && c.cookieSrc == some src

end AsyncCopyCookie

/-! ## Buffers -/

/-- `Sg::LinearizedDesc`. -/
structure LinearizedDesc where
  address : UInt64 := 0
  length : UInt32 := 0
  flags : UInt16 := 0
  linearNext : UInt16 := 0
  deriving DecidableEq, Repr

/-- `Sg::DescMetadata`. `desc` is the index of the descriptor the entry owns. -/
structure DescMetadata where
  desc : UInt16 := uint16Max
  originalNext : UInt16 := 0
  prefixWrittenBytes : UInt32 := 0
  deriving DecidableEq, Repr

/-- `DescMetadata::heuristically_track_written_bytes`. -/
def DescMetadata.heuristicallyTrackWrittenBytes (m : DescMetadata) (off sizeBytes : ℕ) :
    DescMetadata :=
  if off ≤ m.prefixWrittenBytes.toNat then
    let localPrefix := sizeAdd off sizeBytes
    let localPrefix :=
      if localPrefix < m.prefixWrittenBytes.toNat ∨ uint32Max.toNat < localPrefix then
        uint32Max.toNat
      else localPrefix
    { m with prefixWrittenBytes := UInt32.ofNat localPrefix }
  else m

/-- `Virtio::Sg::Buffer`. -/
structure Buffer where
  maxChainLength : UInt16
  activeChainLength : UInt16 := 0
  sizeBytes : ℕ := 0
  completeChain : Bool := false
  chainForDevice : Bool := false
  seenReadableDesc : Bool := false
  seenWritableDesc : Bool := false
  firstWritableDesc : UInt16 := uint16Max
  descChain : ℕ → LinearizedDesc := fun _ => {}
  descChainMetadata : ℕ → DescMetadata := fun _ => {}
  asyncCopyCookie : AsyncCopyCookie := {}

namespace Buffer

/-- The number of active descriptors. -/
def active (b : Buffer) : ℕ := b.activeChainLength.toNat

/-- The length of descriptor `i`. -/
def len (b : Buffer) (i : ℕ) : ℕ := (b.descChain i).length.toNat

/-- Descriptor `i` is writable. -/
def writableAt (b : Buffer) (i : ℕ) : Bool := !isReadable (b.descChain i).flags

/-- `is_writable`. -/
def isWritable (b : Buffer) : Bool := b.seenWritableDesc

/-- `should_only_read`. -/
def shouldOnlyRead (b : Buffer) (flags : UInt16) : Bool := b.chainForDevice && isReadable flags

/-- `reset`. -/
def reset (b : Buffer) : Buffer :=
  { b with
    activeChainLength := 0
    sizeBytes := 0
    completeChain := false
    chainForDevice := false
    seenReadableDesc := false
    seenWritableDesc := false
    firstWritableDesc := uint16Max
    asyncCopyCookie := b.asyncCopyCookie.reset }

/-- The state `reset` leaves a buffer in. -/
structure IsReset (b : Buffer) : Prop where
  activeChainLength : b.activeChainLength = 0
  sizeBytes : b.sizeBytes = 0
  completeChain : b.completeChain = false
  chainForDevice : b.chainForDevice = false
  seenReadableDesc : b.seenReadableDesc = false
  seenWritableDesc : b.seenWritableDesc = false
  firstWritableDesc : b.firstWritableDesc = uint16Max
  asyncCopyCookie : b.asyncCopyCookie = {}

theorem isReset_reset (b : Buffer) : b.reset.IsReset := ⟨rfl, rfl, rfl, rfl, rfl, rfl, rfl, rfl⟩

theorem isReset_mk (n : UInt16) : IsReset { maxChainLength := n } :=
  ⟨rfl, rfl, rfl, rfl, rfl, rfl, rfl, rfl⟩

@[simp] theorem reset_maxChainLength (b : Buffer) : b.reset.maxChainLength = b.maxChainLength := rfl

/-! ### Recorded chains -/

/-- Where the payload of descriptor `i` starts. -/
def descOffset (b : Buffer) (i : ℕ) : ℕ := offsetOf b.len i

/-- The bookkeeping agrees with the descriptors recorded: how many there are, how long they are
together, and where the writable ones begin. -/
structure Recorded (b : Buffer) : Prop where
  active_le : b.active ≤ b.maxChainLength.toNat
  size_eq : b.sizeBytes = b.descOffset b.active
  size_le : b.sizeBytes ≤ uint32Max.toNat
  first_lt : b.seenWritableDesc = true → b.firstWritableDesc.toNat < b.active
  writable_iff : ∀ i < b.active,
    b.writableAt i = true ↔ b.seenWritableDesc = true ∧ b.firstWritableDesc.toNat ≤ i

/-- A recorded chain none of whose descriptors is empty. -/
structure WellFormed (b : Buffer) : Prop extends b.Recorded where
  len_pos : ∀ i < b.active, 0 < b.len i

theorem IsReset.active {b : Buffer} (h : b.IsReset) : b.active = 0 := by
  rw [Buffer.active, h.activeChainLength]
  rfl

theorem IsReset.wellFormed {b : Buffer} (h : b.IsReset) : b.WellFormed where
  active_le := by simp [h.active]
  size_eq := by simp [h.active, h.sizeBytes, descOffset]
  size_le := by simp [h.sizeBytes]
  first_lt := by simp [h.seenWritableDesc]
  writable_iff := by simp [h.active]
  len_pos := by simp [h.active]

theorem WellFormed.setCompleteChain {b : Buffer} (h : b.WellFormed) (c : Bool) :
    { b with completeChain := c : Buffer }.WellFormed :=
  ⟨⟨h.active_le, h.size_eq, h.size_le, h.first_lt, h.writable_iff⟩, h.len_pos⟩

/-- `b'` is `b` with one more descriptor recorded. -/
structure Extends (b b' : Buffer) : Prop where
  maxChainLength : b'.maxChainLength = b.maxChainLength
  active : b'.active = b.active + 1
  descChain : ∀ i < b.active, b'.descChain i = b.descChain i
  sizeBytes : b'.sizeBytes = b.sizeBytes + b'.len b.active
  seen : b'.seenWritableDesc = (b.seenWritableDesc || b'.writableAt b.active)
  first : b'.firstWritableDesc =
    if b'.writableAt b.active && !b.seenWritableDesc then b.activeChainLength
    else b.firstWritableDesc
  ordered : b.seenWritableDesc = true → b'.writableAt b.active = true

/-- Recording one more descriptor where there is room for it, within the limit on the total. -/
theorem WellFormed.extend {b b' : Buffer} (h : b.WellFormed) (he : Extends b b')
    (hroom : b.active < b.maxChainLength.toNat) (hpos : 0 < b'.len b.active)
    (hsize : b'.sizeBytes ≤ uint32Max.toNat) : b'.WellFormed where
  active_le := by
    rw [he.active, he.maxChainLength]
    exact hroom
  size_eq := by
    have hpre : b'.descOffset b.active = b.descOffset b.active :=
      offsetOf_congr fun i hi => by rw [len, len, he.descChain i hi]
    rw [he.sizeBytes, he.active, descOffset, offsetOf_succ, ← descOffset, hpre, h.size_eq]
  size_le := hsize
  first_lt := by
    intro hseen
    rw [he.active, he.first]
    split_ifs with hw
    · exact Nat.lt_succ_self _
    · have hb : b.seenWritableDesc = true := by
        rw [he.seen] at hseen
        grind
      exact (h.first_lt hb).trans (Nat.lt_succ_self _)
  writable_iff := by
    intro i hi
    rw [he.active] at hi
    rw [he.seen, he.first]
    rcases Nat.lt_succ_iff_lt_or_eq.1 hi with hlt | rfl
    · have hold : b'.writableAt i = b.writableAt i := by
        rw [writableAt, writableAt, he.descChain i hlt]
      rw [hold, h.writable_iff i hlt]
      by_cases hs : b.seenWritableDesc = true
      · simp [hs]
      · have hlt' : ¬b.activeChainLength.toNat ≤ i := Nat.not_le.2 hlt
        split_ifs <;> simp_all
    · by_cases hs : b.seenWritableDesc = true
      · simp [hs, he.ordered hs, (h.first_lt hs).le]
      · by_cases hw : b'.writableAt b.active = true
        · have hact : b.activeChainLength.toNat = b.active := rfl
          simp [hs, hw, hact]
        · simp [hs, hw]
  len_pos := by
    intro i hi
    rw [he.active] at hi
    rcases Nat.lt_succ_iff_lt_or_eq.1 hi with hlt | rfl
    · rw [len, he.descChain i hlt]
      exact h.len_pos i hlt
    · exact hpos

theorem Recorded.writable_mono {b : Buffer} (h : b.Recorded) {i j : ℕ} (hij : i ≤ j)
    (hj : j < b.active) (hi : b.writableAt i = true) : b.writableAt j = true := by
  obtain ⟨hseen, hle⟩ := (h.writable_iff i (hij.trans_lt hj)).1 hi
  exact (h.writable_iff j hj).2 ⟨hseen, hle.trans hij⟩

theorem Recorded.len_le_size {b : Buffer} (h : b.Recorded) {i : ℕ} (hi : i < b.active) :
    b.len i ≤ b.sizeBytes := by
  have := @offsetOf_add_le b.len _ _ hi
  rw [h.size_eq, descOffset]
  omega

/-! ### Finding an offset -/

/-- The loop of `find`: `left` descriptors remain from `it` on, which starts at `curOff`. -/
def findLoop (b : Buffer) (off : ℕ) : (left it curOff : ℕ) → ℕ × ℕ
  | 0, it, _ => (it, off)
  | left + 1, it, curOff =>
      if off < curOff + b.len it then (it, off - curOff)
      else findLoop b off left (it + 1) (curOff + b.len it)

/-- `find`: the descriptor that holds payload offset `off` and the offset within it. Iterators
are array indices, with `active` for `end()`. -/
def find (b : Buffer) (off : ℕ) : ℕ × ℕ :=
  if b.sizeBytes < off then (b.active, off)
  else if off = 0 then (0, 0)
  else b.findLoop off b.active 0 0

/-! ### Written prefixes -/

/-- Replace the metadata of entry `i`. -/
def setMeta (b : Buffer) (i : ℕ) (m : DescMetadata) : Buffer :=
  { b with descChainMetadata := Function.update b.descChainMetadata i m }

/-- The loop of `heuristically_track_written_bytes` from descriptor `it` on. Each turn ends the
request or uses up a descriptor; callers leave at least the request's bytes after `it`. -/
def trackLoop (b : Buffer) : (left it off sizeBytes : ℕ) → Buffer
  | 0, _, _, _ => b
  | left + 1, it, off, sizeBytes =>
      if sizeBytes = 0 then b
      else
        let m := b.descChainMetadata it
        let descCopySz := b.len it - off
        if descCopySz ≤ sizeBytes then
          trackLoop (b.setMeta it (m.heuristicallyTrackWrittenBytes off descCopySz)) left (it + 1) 0
            (sizeBytes - descCopySz)
        else b.setMeta it (m.heuristicallyTrackWrittenBytes off sizeBytes)

/-- `Buffer::heuristically_track_written_bytes`. -/
def heuristicallyTrackWrittenBytes (b : Buffer) (off sizeBytes : ℕ) : Buffer :=
  let p := b.find off
  b.trackLoop (b.active - p.1) p.1 p.2 sizeBytes

/-- The loop of `written_bytes_lowerbound_heuristic`: `left` descriptors remain from `idx` on. -/
def lowerboundLoop (b : Buffer) : (left idx : ℕ) → UInt32 → UInt32
  | 0, _, lb => lb
  | left + 1, idx, lb =>
      let written := (b.descChainMetadata idx).prefixWrittenBytes
      if written ≠ (b.descChain idx).length then lb + written
      else lowerboundLoop b left (idx + 1) (lb + written)

/-- `written_bytes_lowerbound_heuristic`. -/
def writtenBytesLowerboundHeuristic (b : Buffer) : UInt32 :=
  if b.isWritable then
    b.lowerboundLoop (b.active - b.firstWritableDesc.toNat) b.firstWritableDesc.toNat 0
  else 0

/-- `should_send_head_descriptor`. -/
def shouldSendHeadDescriptor (b : Buffer) (sendIncomplete : Bool) : Bool :=
  b.completeChain || sendIncomplete

/-- `conclude_chain_use(vq, send_incomplete)`. -/
def concludeChainUseWith (b : Buffer) (vq : DeviceQueue) (sendIncomplete : Bool) :
    Buffer × DeviceQueue :=
  if b.shouldSendHeadDescriptor sendIncomplete then
    (b.reset, vq.send (b.descChainMetadata 0).desc b.writtenBytesLowerboundHeuristic)
  else (b.reset, vq)

/-- The public `conclude_chain_use(vq)`. -/
def concludeChainUse (b : Buffer) (vq : DeviceQueue) : Buffer × DeviceQueue :=
  b.concludeChainUseWith vq false

/-! ### The builder -/

/-- What `add_descriptor` does to the buffer once its checks have passed. -/
def appendDescriptor (b : Buffer) (newDesc : UInt16) (address : UInt64) (length : UInt32)
    (flags next : UInt16) : Buffer :=
  { b with
    sizeBytes := sizeAdd b.sizeBytes length.toNat
    seenReadableDesc := b.seenReadableDesc || isReadable flags
    firstWritableDesc :=
      if !isReadable flags && !b.seenWritableDesc then b.activeChainLength
      else b.firstWritableDesc
    seenWritableDesc := b.seenWritableDesc || !isReadable flags
    activeChainLength := b.activeChainLength + 1
    descChain := Function.update b.descChain b.active
      { address, length, flags, linearNext := b.activeChainLength + 1 }
    descChainMetadata := Function.update b.descChainMetadata b.active
      { b.descChainMetadata b.active with desc := newDesc, originalNext := next } }

/-- `add_descriptor`. It looks at the length, the total and the order of readable and writable
descriptors, but neither at how many there are nor at whether the chain is complete. -/
def addDescriptor (b : Buffer) (table : Table) (newDesc : UInt16) (address : UInt64)
    (length : UInt32) (flags next : UInt16) : Errno × Buffer × Table :=
  if length = 0 then (.badr, b, table)
  else if uint32Max.toNat < b.sizeBytes ∨ uint32Max.toNat < sizeAdd b.sizeBytes length.toNat then
    (.badr, b, table)
  else if b.seenWritableDesc ∧ isReadable flags then (.perm, b, table)
  else
    (.none, b.appendDescriptor newDesc address length flags next,
      Function.update table newDesc { address, length, flags, next })

/-- `add_link`. -/
def addLink (b : Buffer) (table : Table) (desc : UInt16) (address : UInt64) (length : UInt32)
    (flags next : UInt16) : Errno × Buffer × Table :=
  if contNext flags then b.addDescriptor table desc address length flags next
  else (.perm, b, table)

/-- `add_final_link`. -/
def addFinalLink (b : Buffer) (table : Table) (desc : UInt16) (address : UInt64) (length : UInt32)
    (flags : UInt16) : Errno × Buffer × Table :=
  if contNext flags then (.perm, b, table)
  else
    let (err, b', table') := b.addDescriptor table desc address length flags 0
    if err = .none then (err, { b' with completeChain := true }, table') else (err, b', table')

/-- `modify_link`. The old length is subtracted before the new total is checked, and a failed
check returns without putting it back. -/
def modifyLink (b : Buffer) (table : Table) (chainIdx : ℕ) (address : UInt64) (length : UInt32) :
    Errno × Buffer × Table :=
  if b.active ≤ chainIdx then (.noent, b, table)
  else if length = 0 then (.badr, b, table)
  else
    let sizeBytes := sizeSub b.sizeBytes (b.len chainIdx)
    if uint32Max.toNat < sizeBytes ∨ uint32Max.toNat < sizeAdd sizeBytes length.toNat then
      (.badr, { b with sizeBytes }, table)
    else
      let desc := (b.descChainMetadata chainIdx).desc
      (.none,
        { b with
          sizeBytes := sizeAdd sizeBytes length.toNat
          descChain := Function.update b.descChain chainIdx
            { b.descChain chainIdx with address, length } },
        Function.update table desc { table desc with address, length })

end Buffer

end Vml
