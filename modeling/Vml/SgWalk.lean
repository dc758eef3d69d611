import Vml.SgBuffer

/-!
# Walking a chain

`Sg::Buffer::walk_chain_callback` reads a descriptor chain out of guest memory into a buffer. The
guest is not trusted: it may have put anything in the descriptor table, and it may change a field
between two loads. Every load is therefore answered by the oracle `Guest`, in the order the source
performs them: for each descriptor its address, its length, its flags, and its `next` field when
the flags continue the chain.

The loop is given fuel; `Vml.SgWalkProof` shows that one more turn than the buffer has entries is
enough. A walk also returns its history: the descriptors it read, the array entries it stored to,
and the arguments of the callback.
-/

namespace Vml

/-! ## The next descriptor -/

/-- What `next_in_chain` returns, with the number of the next load. -/
structure NextInChain where
  err : Errno
  flags : UInt16
  nextEn : Bool
  next : UInt16
  time : ℕ

/-- `Queue::next_in_chain` for descriptor `desc`. `next` comes back unchanged at the end of a
chain. -/
def Queue.nextInChain (q : Queue) (g : Guest) (time : ℕ) (desc next : UInt16) : NextInChain :=
  let flags := ((g time).table desc).flags
  if contNext flags then
    let next := ((g (time + 1)).table desc).next
    if q.size ≤ next then ⟨.notrecoverable, flags, true, next, time + 2⟩
    else ⟨.none, flags, true, next, time + 2⟩
  else ⟨.none, flags, false, next, time + 1⟩

/-! ## The walk -/

/-- The arguments of `chain_walking_cb`. -/
structure ChainWalkingCb where
  err : Errno
  address : UInt64
  length : UInt32
  flags : UInt16
  next : UInt16
  deriving DecidableEq, Repr

/-- The history of a walk. -/
structure WalkTrace where
  /-- The index of every descriptor read, in order. -/
  loads : List UInt16 := []
  /-- Every entry of the two arrays stored to. -/
  stores : List ℕ := []
  callbacks : List ChainWalkingCb := []
  deriving DecidableEq, Repr

/-- How a walk ends. -/
structure WalkResult where
  err : Errno
  buffer : Buffer
  queue : DeviceQueue
  time : ℕ
  trace : WalkTrace

/-- One turn of the loop, up to the callback. -/
structure Visit where
  err : Errno
  nextEn : Bool
  next : UInt16
  time : ℕ
  buffer : Buffer

namespace Buffer

/-- The body of the loop: record descriptor `tmpDesc` in the next entry and check it. The checks
come after the stores, so a rejected descriptor has been recorded too. -/
def visit (b : Buffer) (q : Queue) (g : Guest) (tmpDesc : UInt16) (time : ℕ) : Visit :=
  let i := b.active
  let address := ((g time).table tmpDesc).address
  let length := ((g (time + 1)).table tmpDesc).length
  let sizeBytes := sizeAdd b.sizeBytes length.toNat
  let n := q.nextInChain g (time + 2) tmpDesc (b.descChainMetadata i).originalNext
  let descReadable := isReadable n.flags
  let ok := n.err == .none
  let err := if ok && descReadable && b.seenWritableDesc then .notrecoverable else n.err
  { err := if length = 0 ∨ uint32Max.toNat < sizeBytes then .notrecoverable else err
    nextEn := n.nextEn
    next := n.next
    time := n.time
    buffer := { b with
      activeChainLength := b.activeChainLength + 1
      sizeBytes
      seenReadableDesc := b.seenReadableDesc || (ok && descReadable && !b.seenWritableDesc)
      firstWritableDesc :=
        if ok && !descReadable && !b.seenWritableDesc then b.activeChainLength
        else b.firstWritableDesc
      seenWritableDesc := b.seenWritableDesc || (ok && !descReadable)
      descChain := Function.update b.descChain i
        { address, length, flags := n.flags, linearNext := b.activeChainLength + 1 }
      descChainMetadata := Function.update b.descChainMetadata i
        { desc := tmpDesc, originalNext := n.next, prefixWrittenBytes := 0 } } }

/-- The arguments of the callback for entry `i`. -/
def callbackArgs (b : Buffer) (err : Errno) (i : ℕ) : ChainWalkingCb :=
  ⟨err, (b.descChain i).address, (b.descChain i).length, (b.descChain i).flags,
    (b.descChainMetadata i).originalNext⟩

/-- The loop. A full buffer means that the chain has a cycle. -/
def walkLoop (vq : DeviceQueue) (g : Guest) :
    (fuel : ℕ) → Buffer → (tmpDesc : UInt16) → (time : ℕ) → WalkTrace → Option WalkResult
  | 0, _, _, _, _ => none
  | fuel + 1, b, tmpDesc, time, trace =>
      if b.activeChainLength = b.maxChainLength then
        let cb := b.callbackArgs .notrecoverable (b.maxChainLength.toNat - 1)
        let r := b.concludeChainUseWith vq true
        some ⟨.notrecoverable, r.1, r.2, time,
          { trace with callbacks := trace.callbacks ++ [cb] }⟩
      else
        let v := b.visit vq.toQueue g tmpDesc time
        let trace : WalkTrace :=
          { loads := trace.loads ++ [tmpDesc]
            stores := trace.stores ++ [b.active]
            callbacks := trace.callbacks ++ [v.buffer.callbackArgs v.err b.active] }
        if v.err ≠ .none then
          let r := v.buffer.concludeChainUseWith vq true
          some ⟨v.err, r.1, r.2, v.time, trace⟩
        else if v.nextEn then walkLoop vq g fuel v.buffer v.next v.time trace
        else some ⟨.none, { v.buffer with completeChain := true }, vq, v.time, trace⟩

/-- `walk_chain_callback(vq, root_desc, ..)`. -/
def walkChainFrom (b : Buffer) (vq : DeviceQueue) (g : Guest) (rootDesc : UInt16) (time : ℕ) :
    Option WalkResult :=
  if b.maxChainLength < vq.size then
    some ⟨.nomem, b, vq.send rootDesc 0, time, { callbacks := [⟨.nomem, 0, 0, 0, 0⟩] }⟩
  else
    walkLoop vq g (b.maxChainLength.toNat + 1) { b with chainForDevice := true } rootDesc time {}

/-- `walk_chain_callback(vq, ..)`, which takes the head from the queue; `walk_chain(vq)` is the
same with a callback that does nothing. -/
def walkChain (b : Buffer) (vq : DeviceQueue) (g : Guest) (time : ℕ) : Option WalkResult :=
  let r := vq.recv g time
  if r.err ≠ .none then some ⟨r.err, b, r.queue, r.time, {}⟩
  else b.walkChainFrom r.queue g r.desc r.time

/-! ## The chain the guest presents -/

/-- A descriptor as it was loaded. -/
structure ChainEntry where
  index : UInt16
  address : UInt64
  length : UInt32
  flags : UInt16
  deriving DecidableEq, Repr

/-- What the guest answers when descriptor `idx` is loaded from time `t` on. -/
def loaded (g : Guest) (t : ℕ) (idx : UInt16) : ChainEntry :=
  ⟨idx, ((g t).table idx).address, ((g (t + 1)).table idx).length, ((g (t + 2)).table idx).flags⟩

/-- Following `next` from descriptor `idx`, with the first load at time `t`, gives these
descriptors. -/
inductive Follows (g : Guest) : ℕ → UInt16 → List ChainEntry → Prop
  | last {t : ℕ} {idx : UInt16} :
      contNext (loaded g t idx).flags = false → Follows g t idx [loaded g t idx]
  | next {t : ℕ} {idx : UInt16} {es : List ChainEntry} :
      contNext (loaded g t idx).flags = true →
      Follows g (t + 4) ((g (t + 3)).table idx).next es →
      Follows g t idx (loaded g t idx :: es)

/-- Entry `i` of the buffer. -/
def entry (b : Buffer) (i : ℕ) : ChainEntry :=
  ⟨(b.descChainMetadata i).desc, (b.descChain i).address, (b.descChain i).length,
    (b.descChain i).flags⟩

/-- The descriptors a buffer has recorded. -/
def entries (b : Buffer) : List ChainEntry := (List.range b.active).map b.entry

end Buffer

end Vml
