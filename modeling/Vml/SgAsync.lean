import Vml.Lib.Run
import Vml.SgCopy

/-!
# Transactions in flight

A transaction is started by a `start_copy_*` that returns `NONE` and stays pending until a matching
`try_end_copy_*` concludes it. The state of all of them is spread over the cookies of the buffers
they touch: a destination's cookie holds the request, and a source's cookie counts the destinations
it still has to serve.

The comment at `_copy_is_src` says which transactions a buffer may take part in at a time: one as a
destination, one as the source of a linear destination, or any number as the source of other
buffers. That is `Txn.Compatible`, and `AsyncSys.Good` is what a caller relies on: pending
transactions can be concluded, sources count them, and a start that is not compatible with what is
pending is refused.

`start_copy_to_linear` and `start_copy_from_linear` do not look whether the buffer is a source
already, and `start_copy_to_sg` neither whether the source serves a linear destination nor whether
source and destination are the same buffer. `AsyncSys.StepOk` says that a start runs into none of
the three; `Vml.SgAsyncProof` shows that it is exactly when the system is good.
-/

namespace Vml

/-! ## Transactions -/

/-- A transaction, named by the buffers whose cookies it uses. -/
inductive Txn
  | toSg (src dst : BufId)
  | toLinear (src : BufId)
  | fromLinear (dst : BufId)
  deriving DecidableEq, Repr

namespace Txn

/-- The buffer that is the source. -/
def source : Txn → Option BufId
  | .toSg src _ => some src
  | .toLinear src => some src
  | .fromLinear _ => none

/-- The buffer that is the destination. -/
def dest : Txn → Option BufId
  | .toSg _ dst => some dst
  | .toLinear _ => none
  | .fromLinear dst => some dst

@[simp] theorem source_toSg (src dst : BufId) : (toSg src dst).source = some src := rfl
@[simp] theorem source_toLinear (src : BufId) : (toLinear src).source = some src := rfl
@[simp] theorem source_fromLinear (dst : BufId) : (fromLinear dst).source = none := rfl

/-- The transaction uses the cookie of buffer `i`. -/
def Touches (t : Txn) (i : BufId) : Prop := t.source = some i ∨ t.dest = some i

instance (t : Txn) (i : BufId) : Decidable (t.Touches i) :=
  inferInstanceAs (Decidable (t.source = some i ∨ t.dest = some i))

theorem touches_toLinear {src i : BufId} : (toLinear src).Touches i ↔ src = i := by
  simp [Touches, source, dest]

theorem touches_fromLinear {dst i : BufId} : (fromLinear dst).Touches i ↔ dst = i := by
  simp [Touches, source, dest]

/-- Two transactions may be pending at a time: they use different cookies, or one source serves two
buffers. -/
def Compatible (t t' : Txn) : Prop :=
  (∀ i, t.Touches i → ¬t'.Touches i) ∨
    ∃ src dst dst', dst ≠ dst' ∧ t = .toSg src dst ∧ t' = .toSg src dst'

theorem not_compatible {t t' : Txn} {i : BufId} (ht : t.Touches i) (ht' : t'.Touches i)
    (hsg : ∀ src dst dst', t = .toSg src dst → t' ≠ .toSg src dst') : ¬t.Compatible t' := by
  rintro (hdisjoint | ⟨src, dst, dst', -, h, h'⟩)
  · exact hdisjoint i ht ht'
  · exact hsg src dst dst' h h'

end Txn

/-- The state of the buffers, with the transactions that are pending. -/
structure AsyncSys where
  heap : Heap
  pending : List Txn := []

/-- A call, with what a derived class' implementation does in it. -/
inductive AsyncOp
  | startToSg (src dst : BufId) (sizeBytes dOff sOff : ℕ) (impl : Errno)
  | startToLinear (src : BufId) (dst : Option ℕ) (sizeBytes sOff : ℕ) (impl : Errno)
  | startFromLinear (dst : BufId) (src : Option ℕ) (sizeBytes dOff : ℕ) (impl : Errno)
  | tryEndToSg (src dst : BufId) (impl : Buffer → Buffer → Mem → CopyResult) (m : Mem)
  | tryEndToLinear (src : BufId) (impl : Buffer → Mem → CopyResult) (m : Mem)
  | tryEndFromLinear (dst : BufId) (impl : Buffer → Mem → CopyResult) (m : Mem)

namespace AsyncOp

/-- The transaction a start is for, unless the linear buffer is null. -/
def starts : AsyncOp → Option Txn
  | .startToSg src dst _ _ _ _ => some (.toSg src dst)
  | .startToLinear src (some _) _ _ _ => some (.toLinear src)
  | .startFromLinear dst (some _) _ _ _ => some (.fromLinear dst)
  | _ => none

/-- The transaction a try_end is for. -/
def ends : AsyncOp → Option Txn
  | .tryEndToSg src dst _ _ => some (.toSg src dst)
  | .tryEndToLinear src _ _ => some (.toLinear src)
  | .tryEndFromLinear dst _ _ => some (.fromLinear dst)
  | _ => none

/-- The implementation leaves `EXIST` to the check of the cookies. -/
def ImplNotExist : AsyncOp → Prop
  | .tryEndToSg _ _ impl _ => ∀ src dst m, (impl src dst m).err ≠ .exist
  | .tryEndToLinear _ impl _ => ∀ src m, (impl src m).err ≠ .exist
  | .tryEndFromLinear _ impl _ => ∀ dst m, (impl dst m).err ≠ .exist
  | _ => True

end AsyncOp

/-! ## Calls -/

namespace AsyncSys

/-- The cookie of buffer `i`. -/
def cookie (s : AsyncSys) (i : BufId) : AsyncCopyCookie := (s.heap i).asyncCopyCookie

/-- What a call returns and makes of the buffers. -/
def call (s : AsyncSys) : AsyncOp → Errno × Heap
  | .startToSg src dst sizeBytes dOff sOff impl =>
      let r := s.heap.startCopyToSg src dst sizeBytes dOff sOff impl
      (r.1, r.2.2)
  | .startToLinear src dst sizeBytes sOff impl =>
      let r := (s.heap src).startCopyToLinear dst sizeBytes sOff impl
      (r.1, Function.update s.heap src r.2.2)
  | .startFromLinear dst src sizeBytes dOff impl =>
      let r := (s.heap dst).startCopyFromLinear src sizeBytes dOff impl
      (r.1, Function.update s.heap dst r.2.2)
  | .tryEndToSg src dst impl m =>
      let r := s.heap.tryEndCopyToSg src dst impl m
      (r.err, r.state)
  | .tryEndToLinear src impl m =>
      let r := (s.heap src).tryEndCopyToLinear impl m
      (r.err, Function.update s.heap src r.state)
  | .tryEndFromLinear dst impl m =>
      let r := (s.heap dst).tryEndCopyFromLinear impl m
      (r.err, Function.update s.heap dst r.state)

/-- The error code a call returns. -/
def result (s : AsyncSys) (op : AsyncOp) : Errno := (s.call op).1

/-- The cookies are those of transaction `t`: the check that a `try_end_copy_*` begins with. -/
def matching (s : AsyncSys) : Txn → Bool
  | .toSg src dst => (s.cookie dst).isDstFromMatchingCookie src (s.cookie src)
  | .toLinear src => (s.cookie src).isSrcToLinear
  | .fromLinear dst => (s.cookie dst).isDstFromLinear

/-- What is pending after a call: a start adds its transaction if it returns `NONE`, and a try_end
takes its transaction away unless it is refused or returns `AGAIN`. -/
def pendingAfter (s : AsyncSys) (op : AsyncOp) : List Txn :=
  match op.starts, op.ends with
  | some t, _ => if s.result op = .none then t :: s.pending else s.pending
  | none, some t =>
      if s.matching t ∧ s.result op ≠ .again then s.pending.erase t else s.pending
  | none, none => s.pending

/-- A call. -/
def step (s : AsyncSys) (op : AsyncOp) : AsyncSys := ⟨(s.call op).2, s.pendingAfter op⟩

/-! ## What a caller relies on -/

/-- No pending transaction is refused by its try_end, and every cookie counts the unfinished
transactions its buffer is the source of. -/
structure Sound (s : AsyncSys) : Prop where
  notRefused : ∀ op t, op.ends = some t → t ∈ s.pending → op.ImplNotExist → s.result op ≠ .exist
  pendingDsts : ∀ i, (s.cookie i).pendingDsts = s.pending.countP (·.source = some i)

/-- Honouring a start of `t` would disturb a pending transaction. -/
def Conflicts (s : AsyncSys) (t : Txn) : Prop := ∃ t' ∈ s.pending, ¬t.Compatible t'

/-- A call leaves a sound system, and a start that conflicts returns `RBUSY` and changes nothing. -/
def Good (s : AsyncSys) (op : AsyncOp) : Prop :=
  (s.step op).Sound ∧
    ∀ t, op.starts = some t → s.Conflicts t → s.result op = .rbusy ∧ s.step op = s

/-- The call is not a start that gets past the checks of the code although the buffer is a source
already, the source serves a linear destination, or source and destination are the same. -/
def StepOk (s : AsyncSys) : AsyncOp → Prop
  | .startToSg src dst _ _ _ _ =>
      (s.cookie src).isDst = false → (s.cookie dst).inUse = false →
        src ≠ dst ∧ (s.cookie src).isSrcToLinear = false
  | .startToLinear src (some _) _ _ _ =>
      (s.cookie src).isDst = false → (s.cookie src).isSrc = false
  | .startFromLinear dst (some _) _ _ _ =>
      (s.cookie dst).isDst = false → (s.cookie dst).isSrc = false
  | _ => True

end AsyncSys

end Vml
