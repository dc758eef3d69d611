import Vml.SgAsyncProof
import Vml.SgTransaction

/-!
# What a synchronous copy leaves in the cookies

A `copy_*` starts a transaction, tries to end it and concludes it, all in one call. Here the
implementations are those of any derived class: `start_copy_*_impl` returns whatever it likes, and
`try_end_copy_*_impl` may do something else at each of its calls. So a copy may fail at its start,
at any of its rounds, or run out of retries.

**The rule.** `copyRounds_ends`: what the start establishes, each round keeps and each way out turns
into the postcondition, holds after the call.

**Cookies.** `Heap.Tidy` is what all calls keep: a cookie that is not in use counts nothing, one of
a source counts something, and one that is in use otherwise is a destination's.

**Two ways out of step.** A `copy_to_sg` of a buffer to itself overwrites the cookie of the source
with that of the destination, so its `try_end` never matches and the cookie stays in use. And
`start_copy_to_linear` and `start_copy_from_linear` do not look whether the buffer is a source
already, so a copy with linear memory ends with a cookie that has been reset under the pending
transactions.

Main result: `neutral_iff`.
-/

namespace Vml

open AsyncCopyCookie

/-! ## Copies of a derived class -/

section Rounds

variable {σ : Type}

/-- The calls of a `try_end` are numbered, as what a derived class does may depend on the earlier
ones. -/
def rounds (tryEnd : ℕ → σ → Mem → CopyEnd σ) (s : σ × ℕ) (m : Mem) : CopyEnd (σ × ℕ) :=
  let r := tryEnd s.2 s.1 m
  ⟨r.err, r.bytesCopied, (r.state, s.2 + 1), r.mem⟩

/-- A synchronous copy whose rounds are `tryEnd 0`, `tryEnd 1` and so on. -/
def copyRounds (started : Errno × ℕ × σ) (tryEnd : ℕ → σ → Mem → CopyEnd σ) (conclude : σ → σ)
    (m : Mem) : CopyEnd σ :=
  let r := copySync (started.1, started.2.1, started.2.2, 0) (rounds tryEnd)
    (fun s => (conclude s.1, s.2)) m
  ⟨r.err, r.bytesCopied, r.state.1, r.mem⟩

/-- A loop whose rounds keep `P` while they return `AGAIN`, and otherwise establish `Q`. -/
theorem retryLoop_ends {tryEnd : ℕ → σ → Mem → CopyEnd σ} {P Q : σ → Prop}
    (hagain : ∀ k s m, P s → (tryEnd k s m).err = .again → P (tryEnd k s m).state)
    (hend : ∀ k s m, P s → (tryEnd k s m).err ≠ .again → Q (tryEnd k s m).state)
    (retries : ℕ) (s : σ × ℕ) (m : Mem) (n : ℕ) (hs : P s.1) :
    ((retryLoop (rounds tryEnd) retries s m n).err = .again →
        P (retryLoop (rounds tryEnd) retries s m n).state.1) ∧
      ((retryLoop (rounds tryEnd) retries s m n).err ≠ .again →
        Q (retryLoop (rounds tryEnd) retries s m n).state.1) := by
  induction retries generalizing s m n with
  | zero => exact ⟨hagain s.2 s.1 m hs, hend s.2 s.1 m hs⟩
  | succ retries ih =>
      rw [retryLoop]
      split_ifs with hr
      · exact ih _ _ _ (hagain s.2 s.1 m hs hr)
      · exact ⟨fun h => absurd h hr, fun _ => hend s.2 s.1 m hs hr⟩

/-- **The rule for synchronous copies.** -/
theorem copyRounds_ends {started : Errno × ℕ × σ} {tryEnd : ℕ → σ → Mem → CopyEnd σ}
    {conclude : σ → σ} {m : Mem} {P Q : σ → Prop} (hrefused : started.1 ≠ .none → Q started.2.2)
    (hstarted : started.1 = .none → P started.2.2)
    (hagain : ∀ k s m, P s → (tryEnd k s m).err = .again → P (tryEnd k s m).state)
    (hend : ∀ k s m, P s → (tryEnd k s m).err ≠ .again → Q (tryEnd k s m).state)
    (hconclude : ∀ s, P s → Q (conclude s)) :
    Q (copyRounds started tryEnd conclude m).state := by
  rw [copyRounds, copySync]
  dsimp only
  by_cases hs : started.1 = .none
  · rw [if_neg (not_not.2 hs)]
    obtain ⟨hP, hQ⟩ := retryLoop_ends hagain hend 10 (started.2.2, 0) m 0 (hstarted hs)
    split_ifs with hr
    · exact hconclude _ (hP hr)
    · exact hQ hr
  · rw [if_pos hs]
    exact hrefused hs

theorem copyRounds_refused {started : Errno × ℕ × σ} {tryEnd : ℕ → σ → Mem → CopyEnd σ}
    {conclude : σ → σ} {m : Mem} (h : started.1 ≠ .none) :
    copyRounds started tryEnd conclude m = ⟨started.1, started.2.1, started.2.2, m⟩ := by
  rw [copyRounds, copySync, if_pos h]

theorem retryLoop_rounds (tryEnd : σ → Mem → CopyEnd σ) (retries : ℕ) (s : σ × ℕ) (m : Mem)
    (n : ℕ) :
    let r := retryLoop (rounds fun _ => tryEnd) retries s m n
    retryLoop tryEnd retries s.1 m n = ⟨r.err, r.bytesCopied, r.state.1, r.mem⟩ := by
  induction retries generalizing s m n with
  | zero => rfl
  | succ retries ih =>
      rw [retryLoop, retryLoop]
      have herr : (rounds (fun _ => tryEnd) s m).err = (tryEnd s.1 m).err := rfl
      dsimp only
      rw [herr]
      split_ifs
      · exact ih ((tryEnd s.1 m).state, s.2 + 1) _ _
      · rfl

theorem copyRounds_const (started : Errno × ℕ × σ) (tryEnd : σ → Mem → CopyEnd σ)
    (conclude : σ → σ) (m : Mem) :
    copyRounds started (fun _ => tryEnd) conclude m = copySync started tryEnd conclude m := by
  rw [copyRounds, copySync, copySync]
  by_cases hs : started.1 = .none
  · have hloop := retryLoop_rounds tryEnd 10 (started.2.2, 0) m 0
    dsimp only at hloop
    rw [if_neg (not_not.2 hs), if_neg (not_not.2 hs), hloop]
    dsimp only
    split_ifs <;> rfl
  · rw [if_pos hs, if_pos hs]

end Rounds

/-- `src.copy_to_sg(dst, ..)`: `impl` is what `start_copy_to_sg_impl` returns, and `backend k` is
`try_end_copy_to_sg_impl` at its call number `k`. -/
def Heap.copyToSgBy (h : Heap) (src dst : BufId) (sizeBytes dOff sOff : ℕ) (impl : Errno)
    (backend : ℕ → Buffer → Buffer → Mem → CopyResult) (m : Mem) : CopyEnd Heap :=
  copyRounds (h.startCopyToSg src dst sizeBytes dOff sOff impl)
    (fun k h m => h.tryEndCopyToSg src dst (backend k) m) (·.concludeBoth src dst) m

/-- `copy_to_linear`. -/
def Buffer.copyToLinearBy (b : Buffer) (dst : Option ℕ) (sizeBytes sOff : ℕ) (impl : Errno)
    (backend : ℕ → Buffer → Mem → CopyResult) (m : Mem) : CopyEnd Buffer :=
  copyRounds (b.startCopyToLinear dst sizeBytes sOff impl)
    (fun k b m => b.tryEndCopyToLinear (backend k) m)
    (·.modifyCookie AsyncCopyCookie.concludeSrc) m

/-- `copy_from_linear`. -/
def Buffer.copyFromLinearBy (b : Buffer) (src : Option ℕ) (sizeBytes dOff : ℕ) (impl : Errno)
    (backend : ℕ → Buffer → Mem → CopyResult) (m : Mem) : CopyEnd Buffer :=
  copyRounds (b.startCopyFromLinear src sizeBytes dOff impl)
    (fun k b m => b.tryEndCopyFromLinear (backend k) m)
    (·.modifyCookie AsyncCopyCookie.concludeDst) m

theorem Heap.copyToSg_eq (h : Heap) (src dst : BufId) (dAcc sAcc : ChainAccessor) (n dOff sOff : ℕ)
    (copier : Option BulkCopier) (m : Mem) :
    h.copyToSg src dst dAcc sAcc n dOff sOff copier m =
      h.copyToSgBy src dst n dOff sOff .none
        (fun _ => Buffer.tryEndCopyToSgImpl dAcc sAcc (copier.getD bulkCopierDefault)) m  := by
  rw [copyToSgBy, copyRounds_const]
  rfl

theorem Buffer.copyToLinear_eq (b : Buffer) (l : Option ℕ) (acc : ChainAccessor) (n off : ℕ)
    (copier : Option BulkCopier) (m : Mem) :
    b.copyToLinear l acc n off copier m =
      b.copyToLinearBy l n off .none
        (fun _ => tryEndCopyToLinearImpl acc (copier.getD bulkCopierDefault)) m  := by
  rw [copyToLinearBy, copyRounds_const]
  rfl

theorem Buffer.copyFromLinear_eq (b : Buffer) (l : Option ℕ) (acc : ChainAccessor) (n off : ℕ)
    (copier : Option BulkCopier) (m : Mem) :
    b.copyFromLinear l acc n off copier m =
      b.copyFromLinearBy l n off .none
        (fun _ => tryEndCopyFromLinearImpl acc (copier.getD bulkCopierDefault)) m  := by
  rw [copyFromLinearBy, copyRounds_const]
  rfl

/-! ## The calls -/

/-- A synchronous copy, with what the implementation does in it. -/
inductive SyncOp
  | toSg (src dst : BufId) (sizeBytes dOff sOff : ℕ) (impl : Errno)
      (backend : ℕ → Buffer → Buffer → Mem → CopyResult) (m : Mem)
  | toLinear (src : BufId) (dst : Option ℕ) (sizeBytes sOff : ℕ) (impl : Errno)
      (backend : ℕ → Buffer → Mem → CopyResult) (m : Mem)
  | fromLinear (dst : BufId) (src : Option ℕ) (sizeBytes dOff : ℕ) (impl : Errno)
      (backend : ℕ → Buffer → Mem → CopyResult) (m : Mem)

namespace SyncOp

/-- The call. -/
def exec (h : Heap) : SyncOp → CopyEnd Heap
  | .toSg src dst sizeBytes dOff sOff impl backend m =>
      h.copyToSgBy src dst sizeBytes dOff sOff impl backend m
  | .toLinear src dst sizeBytes sOff impl backend m =>
      let r := (h src).copyToLinearBy dst sizeBytes sOff impl backend m
      ⟨r.err, r.bytesCopied, Function.update h src r.state, r.mem⟩
  | .fromLinear dst src sizeBytes dOff impl backend m =>
      let r := (h dst).copyFromLinearBy src sizeBytes dOff impl backend m
      ⟨r.err, r.bytesCopied, Function.update h dst r.state, r.mem⟩

end SyncOp

/-- `start_copy_to_sg` gets past its checks. -/
def Heap.Honoured (h : Heap) (src dst : BufId) : Prop :=
  (h src).asyncCopyCookie.isDst = false ∧ (h dst).asyncCopyCookie.inUse = false

/-- A start between two buffers returns. If its implementation fails then `conclude_dst` resets the
destination's cookie, and if that is the source's cookie too then `conclude_src` asserts. -/
def Heap.StartReturns (h : Heap) (src dst : BufId) (impl : Errno) : Prop :=
  h.Honoured src dst → impl ≠ .none → src ≠ dst

/-- Anything that is done with the buffers: `edit` is a call that leaves the cookies alone. -/
inductive CopyOp
  | async (op : AsyncOp)
  | sync (op : SyncOp)
  | reset (i : BufId)
  | edit (i : BufId) (b : Buffer)

/-- The call returns. -/
def SyncOp.Returns (h : Heap) : SyncOp → Prop
  | .toSg src dst _ _ _ impl _ _ => h.StartReturns src dst impl
  | _ => True

namespace CopyOp

/-- What a call makes of the buffers. -/
def apply (h : Heap) : CopyOp → Heap
  | .async op => (AsyncSys.call ⟨h, []⟩ op).2
  | .sync op => (op.exec h).state
  | .reset i => Function.update h i (h i).reset
  | .edit i b => Function.update h i { b with asyncCopyCookie := (h i).asyncCopyCookie }

/-- The call returns. -/
def Returns (h : Heap) : CopyOp → Prop
  | .async (.startToSg src dst _ _ _ impl) => h.StartReturns src dst impl
  | .sync op => op.Returns h
  | _ => True

/-- A call that returns. -/
def Step (h : Heap) (op : CopyOp) (h' : Heap) : Prop := op.Returns h ∧ h' = op.apply h

end CopyOp

/-- No cookie differs in whether it is in use, nor in what it counts. -/
def Heap.Neutral (h h' : Heap) : Prop :=
  ∀ i, (h' i).asyncCopyCookie.inUse = (h i).asyncCopyCookie.inUse ∧
    (h' i).asyncCopyCookie.pendingDsts = (h i).asyncCopyCookie.pendingDsts

/-- The call does not get past the checks of its start for a buffer that is in use already, nor
for a copy of a buffer to itself. -/
def SyncOp.Harmless (h : Heap) : SyncOp → Prop
  | .toSg src dst _ _ _ _ _ _ => h.Honoured src dst → src ≠ dst
  | .toLinear i (some _) _ _ _ _ _ | .fromLinear i (some _) _ _ _ _ _ =>
      (h i).asyncCopyCookie.isDst = false → (h i).asyncCopyCookie.inUse = false
  | _ => True

/-! ## Tidy cookies -/

/-- A cookie that is not in use counts nothing, one of a source counts something, and one that is in
use otherwise is a destination's. -/
structure AsyncCopyCookie.Tidy (c : AsyncCopyCookie) : Prop where
  idle : c.inUse = false → c.pendingDsts = 0
  src : c.inUse = true → c.copyIsSrc = true → 0 < c.pendingDsts
  dst : c.inUse = true → c.copyIsSrc = false → c.isDst = true ∧ c.pendingDsts = 0

namespace AsyncCopyCookie

variable {c : AsyncCopyCookie}

theorem tidy_empty : Tidy {} := ⟨fun _ => rfl, nofun, nofun⟩

theorem tidy_initSgDst (c : AsyncCopyCookie) (src : BufId) (sz dOff sOff : ℕ) :
    (c.initSgDstFromSgSrc src sz dOff sOff).Tidy := ⟨nofun, nofun, fun _ _ => ⟨rfl, rfl⟩⟩

theorem tidy_initSgSrc (c : AsyncCopyCookie) : c.initSgSrcToSgDst.Tidy :=
  ⟨nofun, fun _ _ => Nat.succ_pos _, nofun⟩

theorem tidy_initToLinear (c : AsyncCopyCookie) (l sz sOff : ℕ) :
    (c.initSgSrcToLinearDst l sz sOff).Tidy := ⟨nofun, fun _ _ => Nat.one_pos, nofun⟩

theorem tidy_initFromLinear (c : AsyncCopyCookie) (l sz dOff : ℕ) :
    (c.initSgDstFromLinearSrc l sz dOff).Tidy := ⟨nofun, nofun, fun _ _ => ⟨rfl, rfl⟩⟩

theorem Tidy.recordBytesCopied (h : c.Tidy) (n : ℕ) : (c.recordBytesCopied n).Tidy :=
  ⟨h.idle, h.src, h.dst⟩

/-- A source that has served one of its destinations. -/
theorem Tidy.concludeSrc (h : c.Tidy) (hsrc : c.isSrc = true) : c.concludeSrc.Tidy := by
  obtain ⟨-, huse, hpos⟩ := (cookie_exclusive c).2.1 hsrc
  by_cases hlast : c.pendingDsts = 1
  · rw [concludeSrc_last hlast]
    exact tidy_empty
  · have hcopyIsSrc : c.copyIsSrc = true := by
      by_contra hno
      have := (h.dst huse (by simpa using hno)).2
      omega
    rw [concludeSrc_more (by omega)]
    refine ⟨fun hidle => absurd (huse.symm.trans hidle) (by decide), fun _ _ => ?_,
      fun _ hdst => ?_⟩
    · show 0 < c.pendingDsts - 1
      omega
    · exact absurd (hcopyIsSrc.symm.trans hdst) (by decide)

theorem Tidy.inUse_eq (h : c.Tidy) (hdst : c.isDst = false) :
    c.inUse = decide (0 < c.pendingDsts) := by
  by_cases huse : c.inUse = true
  · by_cases hsrc : c.copyIsSrc = true
    · rw [huse, eq_comm, decide_eq_true_iff]
      exact h.src huse hsrc
    · exact absurd ((h.dst huse (by simpa using hsrc)).1.symm.trans hdst) (by decide)
  · have hidle : c.inUse = false := by simpa using huse
    simp [hidle, h.idle hidle]

theorem Tidy.concludeSrc_initSgSrc (h : c.Tidy) (hdst : c.isDst = false) :
    c.initSgSrcToSgDst.concludeSrc.inUse = c.inUse ∧
      c.initSgSrcToSgDst.concludeSrc.pendingDsts = c.pendingDsts := by
  have hcount : c.initSgSrcToSgDst.pendingDsts = c.pendingDsts + 1 := rfl
  rw [h.inUse_eq hdst]
  by_cases hzero : c.pendingDsts = 0
  · rw [concludeSrc_last (by omega), hzero]
    exact ⟨rfl, rfl⟩
  · rw [concludeSrc_more (by omega)]
    exact ⟨(decide_eq_true (Nat.pos_of_ne_zero hzero)).symm, rfl⟩

end AsyncCopyCookie

/-- All cookies are tidy. -/
def Heap.Tidy (h : Heap) : Prop := ∀ i, (h i).asyncCopyCookie.Tidy

/-! ## A copy between two buffers -/

namespace Heap

variable {h s : Heap} {src dst : BufId} {n dOff sOff : ℕ} {impl : Errno}
  {backend : ℕ → Buffer → Buffer → Mem → CopyResult} {m : Mem}

/-- The transaction of the copy is pending. -/
structure Serving (h s : Heap) (src dst : BufId) : Prop where
  dstCookie : (s dst).asyncCopyCookie.isDstFromSg = true ∧
    (s dst).asyncCopyCookie.cookieSrc = some src
  srcCookie : (s src).asyncCopyCookie = (h src).asyncCopyCookie.initSgSrcToSgDst
  others : ∀ i, i ≠ dst → i ≠ src → (s i).asyncCopyCookie = (h i).asyncCopyCookie

/-- It has been concluded. -/
def Served (h s : Heap) (src dst : BufId) : Prop :=
  ∀ i, (s i).asyncCopyCookie =
    if i = dst then {}
    else if i = src then (h src).asyncCopyCookie.initSgSrcToSgDst.concludeSrc
    else (h i).asyncCopyCookie

theorem Serving.matching (hs : Serving h s src dst) :
    AsyncSys.matching ⟨s, []⟩ (.toSg src dst) = true := by
  show (s dst).asyncCopyCookie.isDstFromMatchingCookie src (s src).asyncCopyCookie = true
  rw [isDstFromMatchingCookie, hs.dstCookie.1, hs.dstCookie.2, hs.srcCookie]
  simp [isSrcToSg, inUse, initSgSrcToSgDst, initStatus]

theorem Serving.concludeBoth (hs : Serving h s src dst) (hne : src ≠ dst) :
    Served h (s.concludeBoth src dst) src dst := by
  intro i
  rw [Heap.concludeBoth, cookie_modifyCookie, cookie_modifyCookie, cookie_modifyCookie, if_neg hne,
    hs.srcCookie]
  by_cases hd : i = dst
  · rw [if_pos hd, if_pos hd, if_neg (hd ▸ hne.symm)]
    rfl
  · rw [if_neg hd, if_neg hd]
    by_cases hi : i = src
    · rw [if_pos hi, if_pos hi]
    · rw [if_neg hi, if_neg hi]
      exact hs.others i hd hi

theorem serving_start (hpass : h.Honoured src dst) (hne : src ≠ dst) (himpl : impl = .none) :
    Serving h (h.startCopyToSg src dst n dOff sOff impl).2.2 src dst := by
  obtain ⟨-, hcookie⟩ :=
    @AsyncSys.startToSg_spec ⟨h, []⟩ src dst n dOff sOff impl hpass.1 hpass.2 hne
  refine ⟨?_, ?_, fun i hd hi => ?_⟩
  · have hdst := hcookie dst
    rw [if_pos rfl, if_pos himpl] at hdst
    exact ⟨(congrArg isDstFromSg hdst).trans rfl, (congrArg cookieSrc hdst).trans rfl⟩
  · refine (hcookie src).trans ?_
    rw [if_neg hne, if_pos rfl, if_pos himpl]
    rfl
  · refine (hcookie i).trans ?_
    rw [if_neg hd, if_neg hi]
    rfl

/-- **A copy between two buffers that gets past its checks** serves the destination and no more,
wherever it fails. -/
theorem copyToSgBy_served (hpass : h.Honoured src dst) (hne : src ≠ dst) :
    Served h (h.copyToSgBy src dst n dOff sOff impl backend m).state src dst := by
  obtain ⟨hresult, hcookie⟩ :=
    @AsyncSys.startToSg_spec ⟨h, []⟩ src dst n dOff sOff impl hpass.1 hpass.2 hne
  refine @copyRounds_ends _ _ _ _ m (fun s => Serving h s src dst) (fun s => Served h s src dst)
    (fun hrefused i => ?_) (fun hstarted => ?_) (fun k s m hs hagain => ?_)
    (fun k s m hs hend => ?_) (fun s hs => hs.concludeBoth hne)
  · have himpl : impl ≠ .none := fun himpl => hrefused (hresult.trans himpl)
    refine (hcookie i).trans ?_
    rw [if_neg himpl, if_neg himpl]
    rfl
  · exact serving_start hpass hne (hresult.symm.trans hstarted)
  · obtain ⟨-, j, hround⟩ := @AsyncSys.tryEndToSg_spec ⟨s, []⟩ src dst (backend k) m hne hs.matching
    have hround : ∀ i, ((s.tryEndCopyToSg src dst (backend k) m).state i).asyncCopyCookie =
        if i = dst then (s dst).asyncCopyCookie.recordBytesCopied j else (s i).asyncCopyCookie :=
      fun i => (hround i).trans (if_pos hagain)
    refine ⟨?_, ?_, fun i hd hi => ?_⟩
    · rw [hround, if_pos rfl]
      exact hs.dstCookie
    · rw [hround, if_neg hne]
      exact hs.srcCookie
    · rw [hround, if_neg hd]
      exact hs.others i hd hi
  · obtain ⟨-, j, hround⟩ := @AsyncSys.tryEndToSg_spec ⟨s, []⟩ src dst (backend k) m hne hs.matching
    intro i
    refine ((hround i).trans (if_neg hend)).trans ?_
    split_ifs with hd hi
    · rfl
    · exact congrArg AsyncCopyCookie.concludeSrc hs.srcCookie
    · exact hs.others i hd hi

theorem copyToSgBy_refused (h' : ¬h.Honoured src dst) :
    (h.copyToSgBy src dst n dOff sOff impl backend m).state = h := by
  have hno : (h src).asyncCopyCookie.isDst = true ∨ (h dst).asyncCopyCookie.inUse = true := by
    rw [Honoured] at h'
    grind
  have hstart : h.startCopyToSg src dst n dOff sOff impl = (.rbusy, n, h) :=
    if_pos (by simpa using hno)
  rw [copyToSgBy, hstart, copyRounds_refused (by exact nofun)]

/-- Started from a buffer to itself, the destination's request overwrites the source's cookie. -/
theorem startCopyToSg_self (hpass : h.Honoured src src) (himpl : impl = .none) :
    ∃ h', h.startCopyToSg src src n dOff sOff impl = (.none, 0, h') ∧
      ∀ i, (h' i).asyncCopyCookie = if i = src then
        (h src).asyncCopyCookie.initSgSrcToSgDst.initSgDstFromSgSrc src n dOff sOff
      else (h i).asyncCopyCookie := by
  have hno : ¬((h src).asyncCopyCookie.isDst || (h src).asyncCopyCookie.inUse) = true := by
    simp [hpass.1, hpass.2]
  refine ⟨(h.modifyCookie src initSgSrcToSgDst).modifyCookie src
    (fun c => c.initSgDstFromSgSrc src n dOff sOff), ?_, fun i => ?_⟩
  · rw [startCopyToSg, if_neg hno, himpl]
    rfl
  · rw [cookie_modifyCookie, cookie_modifyCookie, cookie_modifyCookie, if_pos rfl]
    split_ifs <;> rfl

/-- **A copy of a buffer to itself.** Its only round returns `EXIST`, and the cookie is left as the
destination's. -/
theorem copyToSgBy_self (hpass : h.Honoured src src) (himpl : impl = .none) (i : BufId) :
    ((h.copyToSgBy src src n dOff sOff impl backend m).state i).asyncCopyCookie =
      if i = src then
        (h src).asyncCopyCookie.initSgSrcToSgDst.initSgDstFromSgSrc src n dOff sOff
      else (h i).asyncCopyCookie := by
  obtain ⟨h', hstart, hcookie⟩ := @startCopyToSg_self h src n dOff sOff impl hpass himpl
  -- The cookie is a destination's, so that it cannot match as a source's.
  have hround : ∀ k m, h'.tryEndCopyToSg src src (backend k) m = ⟨.exist, 0, h', m⟩ := by
    intro k m
    refine if_pos ?_
    rw [hcookie, if_pos rfl, isDstFromMatchingCookie]
    simp [isSrcToSg, initSgDstFromSgSrc, initMetadata, initStatus]
  rw [copyToSgBy, hstart]
  have hsame : (copyRounds (.none, 0, h')
      (fun k h m => h.tryEndCopyToSg src src (backend k) m) (·.concludeBoth src src) m).state =
        h' := by
    rw [copyRounds, copySync, if_neg (not_not.2 rfl)]
    have hloop : retryLoop (rounds fun k h m => h.tryEndCopyToSg src src (backend k) m) 10
        (h', 0) m 0 = ⟨.exist, 0, (h', 1), m⟩ := by
      rw [retryLoop, rounds]
      dsimp only
      rw [hround]
      rfl
    rw [hloop, if_neg (by simp)]
  rw [hsame]
  exact hcookie i

end Heap

/-! ## A copy with linear memory -/

namespace Buffer

variable {b : Buffer} {l n off : ℕ} {impl : Errno} {backend : ℕ → Buffer → Mem → CopyResult}
  {m : Mem}

theorem cookie_tryEndCopyToLinear (impl : Buffer → Mem → CopyResult) (m : Mem)
    (h : b.asyncCopyCookie.isSrcToLinear = true) :
    ∃ k, (b.tryEndCopyToLinear impl m).state.asyncCopyCookie =
      if (b.tryEndCopyToLinear impl m).err = .again then b.asyncCopyCookie.recordBytesCopied k
      else b.asyncCopyCookie.concludeSrc := by
  obtain ⟨-, k, hcookie⟩ := @AsyncSys.tryEndToLinear_spec ⟨fun _ => b, []⟩ 0 impl m h
  have hzero := hcookie 0
  simp only [AsyncSys.cookie, AsyncSys.step, AsyncSys.call, AsyncSys.result, Function.update_self,
    if_true] at hzero
  exact ⟨k, hzero⟩

theorem cookie_tryEndCopyFromLinear (impl : Buffer → Mem → CopyResult) (m : Mem)
    (h : b.asyncCopyCookie.isDstFromLinear = true) :
    ∃ k, (b.tryEndCopyFromLinear impl m).state.asyncCopyCookie =
      if (b.tryEndCopyFromLinear impl m).err = .again then b.asyncCopyCookie.recordBytesCopied k
      else {} := by
  obtain ⟨-, k, hcookie⟩ := @AsyncSys.tryEndFromLinear_spec ⟨fun _ => b, []⟩ 0 impl m h
  have hzero := hcookie 0
  simp only [AsyncSys.cookie, AsyncSys.step, AsyncSys.call, AsyncSys.result, Function.update_self,
    if_true] at hzero
  exact ⟨k, hzero⟩

/-- **A copy to linear memory that gets past its check** leaves the cookie reset, whatever was in it
before. -/
theorem cookie_copyToLinearBy (hdst : b.asyncCopyCookie.isDst = false) :
    (b.copyToLinearBy (some l) n off impl backend m).state.asyncCopyCookie = {} := by
  obtain ⟨hresult, hcookie⟩ := @startLinear_spec b l n impl
    (fun c l => c.initSgSrcToLinearDst l n off) AsyncCopyCookie.concludeSrc hdst
  refine @copyRounds_ends _ _ _ _ m
    (fun b : Buffer => b.asyncCopyCookie.isSrcToLinear = true ∧ b.asyncCopyCookie.pendingDsts = 1)
    (fun b : Buffer => b.asyncCopyCookie = {}) (fun hrefused => ?_) (fun hstarted => ?_)
    (fun k b m hb hagain => ?_) (fun k b m hb hend => ?_) (fun b hb => concludeSrc_last hb.2)
  · exact (hcookie.trans (if_neg fun himpl => hrefused (hresult.trans himpl))).trans
      (concludeSrc_last rfl)
  · have hinit := hcookie.trans (if_pos (hresult.symm.trans hstarted))
    exact ⟨(congrArg isSrcToLinear hinit).trans rfl, (congrArg pendingDsts hinit).trans rfl⟩
  · obtain ⟨j, hround⟩ := cookie_tryEndCopyToLinear (backend k) m hb.1
    rw [if_pos hagain] at hround
    rw [hround]
    exact hb
  · obtain ⟨j, hround⟩ := cookie_tryEndCopyToLinear (backend k) m hb.1
    rw [if_neg hend] at hround
    exact hround.trans (concludeSrc_last hb.2)

/-- **So does a copy from linear memory.** -/
theorem cookie_copyFromLinearBy (hdst : b.asyncCopyCookie.isDst = false) :
    (b.copyFromLinearBy (some l) n off impl backend m).state.asyncCopyCookie = {} := by
  obtain ⟨hresult, hcookie⟩ := @startLinear_spec b l n impl
    (fun c l => c.initSgDstFromLinearSrc l n off) AsyncCopyCookie.concludeDst hdst
  refine @copyRounds_ends _ _ _ _ m (fun b : Buffer => b.asyncCopyCookie.isDstFromLinear = true)
    (fun b : Buffer => b.asyncCopyCookie = {}) (fun hrefused => ?_) (fun hstarted => ?_)
    (fun k b m hb hagain => ?_) (fun k b m hb hend => ?_) (fun b hb => rfl)
  · exact hcookie.trans (if_neg fun himpl => hrefused (hresult.trans himpl))
  · have hinit := hcookie.trans (if_pos (hresult.symm.trans hstarted))
    exact (congrArg isDstFromLinear hinit).trans rfl
  · obtain ⟨j, hround⟩ := cookie_tryEndCopyFromLinear (backend k) m hb
    rw [if_pos hagain] at hround
    rw [hround]
    exact hb
  · obtain ⟨j, hround⟩ := cookie_tryEndCopyFromLinear (backend k) m hb
    rwa [if_neg hend] at hround

theorem copyLinearBy_refused {l : Option ℕ} (h : ∀ j, l = some j → b.asyncCopyCookie.isDst = true) :
    (b.copyToLinearBy l n off impl backend m).state = b ∧
      (b.copyFromLinearBy l n off impl backend m).state = b := by
  rw [copyToLinearBy, copyFromLinearBy, startCopyToLinear, startCopyFromLinear]
  cases l with
  | none => exact ⟨rfl, rfl⟩
  | some j =>
      rw [startLinear_refused (h j rfl), startLinear_refused (h j rfl)]
      exact ⟨rfl, rfl⟩

end Buffer

/-! ## All cookies stay tidy -/

namespace Heap

variable {h h' : Heap} {i : BufId} {c : AsyncCopyCookie}

theorem Tidy.of_cookie (h₀ : h.Tidy) (hc : c.Tidy)
    (hcookie : ∀ j, (h' j).asyncCopyCookie = if j = i then c else (h j).asyncCopyCookie) :
    h'.Tidy := by
  intro j
  rw [hcookie]
  split_ifs
  · exact hc
  · exact h₀ j

theorem cookie_update (h : Heap) (i j : BufId) (b : Buffer) :
    (Function.update h i b j).asyncCopyCookie =
      if j = i then b.asyncCopyCookie else (h j).asyncCopyCookie := by
  rw [Function.update_apply]
  split_ifs <;> rfl

theorem isSrc_initSgSrc (c : AsyncCopyCookie) : c.initSgSrcToSgDst.isSrc = true := by
  simp [isSrc, isSrcToSg, inUse, initSgSrcToSgDst, initStatus]

theorem Tidy.startToSg (h₀ : h.Tidy) {src dst : BufId} {n dOff sOff : ℕ} {impl : Errno}
    (hret : h.StartReturns src dst impl) :
    (h.startCopyToSg src dst n dOff sOff impl).2.2.Tidy := by
  by_cases hpass : h.Honoured src dst
  · by_cases hne : src = dst
    · obtain rfl := hne
      have himpl : impl = .none := by
        by_contra himpl
        exact hret hpass himpl rfl
      obtain ⟨h', hstart, hcookie⟩ := @startCopyToSg_self h src n dOff sOff impl hpass himpl
      rw [hstart]
      exact h₀.of_cookie (tidy_initSgDst ..) hcookie
    · obtain ⟨-, hcookie⟩ :=
        @AsyncSys.startToSg_spec ⟨h, []⟩ src dst n dOff sOff impl hpass.1 hpass.2 hne
      intro i
      have hstart : ((h.startCopyToSg src dst n dOff sOff impl).2.2 i).asyncCopyCookie = _ :=
        hcookie i
      rw [hstart]
      split_ifs with hd himpl hi himpl
      · exact tidy_initSgDst ..
      · exact tidy_empty
      · exact tidy_initSgSrc _
      · exact (tidy_initSgSrc _).concludeSrc (isSrc_initSgSrc _)
      · exact h₀ i
  · have hno : (h src).asyncCopyCookie.isDst = true ∨ (h dst).asyncCopyCookie.inUse = true := by
      rw [Honoured] at hpass
      grind
    have hcall := @AsyncSys.startToSg_refused ⟨h, []⟩ src dst n dOff sOff impl hno
    exact (congrArg Prod.snd hcall).symm ▸ h₀

/-- **A transaction step that returns keeps the cookies tidy.** -/
theorem Tidy.async (h₀ : h.Tidy) {op : AsyncOp} (hret : (CopyOp.async op).Returns h) :
    ((CopyOp.async op).apply h).Tidy := by
  have hsame : (CopyOp.async op).apply h = h → ((CopyOp.async op).apply h).Tidy := by
    intro heq
    rwa [heq]
  have hskip : ∀ t, op.ends = some t → AsyncSys.matching ⟨h, []⟩ t = false →
      ((CopyOp.async op).apply h).Tidy := by
    intro t hends hmatch
    exact hsame (congrArg Prod.snd (AsyncSys.call_of_not_matching hends hmatch))
  cases op with
  | startToSg src dst n dOff sOff impl => exact h₀.startToSg hret
  | startToLinear src dst n sOff impl =>
      cases dst with
      | none => exact hsame (congrArg AsyncSys.heap (AsyncSys.step_null ⟨h, []⟩ src n sOff impl).1)
      | some l =>
          by_cases hdst : (h src).asyncCopyCookie.isDst = true
          · exact hsame (congrArg Prod.snd
              (@AsyncSys.startLinear_refused ⟨h, []⟩ src n l impl sOff hdst).1)
          · have hdst : (h src).asyncCopyCookie.isDst = false := by simpa using hdst
            obtain ⟨-, hcookie⟩ :=
              @AsyncSys.startToLinear_spec ⟨h, []⟩ src n sOff l impl hdst
            refine h₀.of_cookie ?_ hcookie
            split_ifs
            · exact tidy_initToLinear ..
            · exact tidy_empty
  | startFromLinear dst src n dOff impl =>
      cases src with
      | none => exact hsame (congrArg AsyncSys.heap (AsyncSys.step_null ⟨h, []⟩ dst n dOff impl).2)
      | some l =>
          by_cases hdst : (h dst).asyncCopyCookie.isDst = true
          · exact hsame (congrArg Prod.snd
              (@AsyncSys.startLinear_refused ⟨h, []⟩ dst n l impl dOff hdst).2)
          · have hdst : (h dst).asyncCopyCookie.isDst = false := by simpa using hdst
            obtain ⟨-, hcookie⟩ :=
              @AsyncSys.startFromLinear_spec ⟨h, []⟩ dst n dOff l impl hdst
            refine h₀.of_cookie ?_ hcookie
            split_ifs
            · exact tidy_initFromLinear ..
            · exact tidy_empty
  | tryEndToSg src dst impl m =>
      by_cases hmatch : AsyncSys.matching ⟨h, []⟩ (.toSg src dst) = true
      · obtain ⟨hdst, hsrc⟩ : (h dst).asyncCopyCookie.isDst = true ∧
            (h src).asyncCopyCookie.isSrc = true := by
          rw [AsyncSys.matching, isDstFromMatchingCookie] at hmatch
          simp only [AsyncSys.cookie, Bool.and_eq_true] at hmatch
          simp [isDst, isSrc, hmatch.1.1, hmatch.1.2]
        have hne : src ≠ dst := by
          rintro rfl
          exact absurd (((cookie_exclusive _).1 hdst).1.symm.trans hsrc) (by decide)
        obtain ⟨-, k, hcookie⟩ := @AsyncSys.tryEndToSg_spec ⟨h, []⟩ src dst impl m hne hmatch
        intro i
        have hround :
            (((CopyOp.async (.tryEndToSg src dst impl m)).apply h) i).asyncCopyCookie = _ :=
          hcookie i
        rw [hround]
        split_ifs
        · exact (h₀ dst).recordBytesCopied k
        · exact h₀ i
        · exact tidy_empty
        · exact (h₀ src).concludeSrc hsrc
        · exact h₀ i
      · exact hskip _ rfl (by simpa using hmatch)
  | tryEndToLinear src impl m =>
      by_cases hmatch : AsyncSys.matching ⟨h, []⟩ (.toLinear src) = true
      · have hsrc : (h src).asyncCopyCookie.isSrc = true := by
          rw [AsyncSys.matching] at hmatch
          simp [isSrc, show (h src).asyncCopyCookie.isSrcToLinear = true from hmatch]
        obtain ⟨-, k, hcookie⟩ := @AsyncSys.tryEndToLinear_spec ⟨h, []⟩ src impl m hmatch
        refine h₀.of_cookie ?_ hcookie
        split_ifs
        · exact (h₀ src).recordBytesCopied k
        · exact (h₀ src).concludeSrc hsrc
      · exact hskip _ rfl (by simpa using hmatch)
  | tryEndFromLinear dst impl m =>
      by_cases hmatch : AsyncSys.matching ⟨h, []⟩ (.fromLinear dst) = true
      · obtain ⟨-, k, hcookie⟩ := @AsyncSys.tryEndFromLinear_spec ⟨h, []⟩ dst impl m hmatch
        refine h₀.of_cookie ?_ hcookie
        split_ifs
        · exact (h₀ dst).recordBytesCopied k
        · exact tidy_empty
      · exact hskip _ rfl (by simpa using hmatch)

theorem tidy_copyLinearBy {b : Buffer} (hb : b.asyncCopyCookie.Tidy) (l : Option ℕ) (n off : ℕ)
    (impl : Errno) (backend : ℕ → Buffer → Mem → CopyResult) (m : Mem) :
    (b.copyToLinearBy l n off impl backend m).state.asyncCopyCookie.Tidy ∧
      (b.copyFromLinearBy l n off impl backend m).state.asyncCopyCookie.Tidy := by
  by_cases hpass : ∃ j, l = some j ∧ b.asyncCopyCookie.isDst = false
  · obtain ⟨j, rfl, hdst⟩ := hpass
    rw [Buffer.cookie_copyToLinearBy hdst, Buffer.cookie_copyFromLinearBy hdst]
    exact ⟨tidy_empty, tidy_empty⟩
  · obtain ⟨hto, hfrom⟩ := @Buffer.copyLinearBy_refused b n off impl backend m l fun j hj => by
      by_contra hdst
      exact hpass ⟨j, hj, by simpa using hdst⟩
    rw [hto, hfrom]
    exact ⟨hb, hb⟩

/-- **A synchronous copy that returns keeps the cookies tidy.** -/
theorem Tidy.sync (h₀ : h.Tidy) {op : SyncOp} (hret : op.Returns h) : (op.exec h).state.Tidy := by
  cases op with
  | toSg src dst n dOff sOff impl backend m =>
      rw [SyncOp.exec]
      by_cases hpass : h.Honoured src dst
      · by_cases hne : src = dst
        · obtain rfl := hne
          have himpl : impl = .none := by
            by_contra himpl
            exact hret hpass himpl rfl
          exact h₀.of_cookie (tidy_initSgDst ..) fun i => copyToSgBy_self hpass himpl i
        · intro i
          rw [copyToSgBy_served hpass hne i]
          split_ifs
          · exact tidy_empty
          · exact (tidy_initSgSrc _).concludeSrc (isSrc_initSgSrc _)
          · exact h₀ i
      · rw [copyToSgBy_refused hpass]
        exact h₀
  | toLinear src dst n sOff impl backend m =>
      exact h₀.of_cookie (tidy_copyLinearBy (h₀ src) dst n sOff impl backend m).1
        fun j => cookie_update ..
  | fromLinear dst src n dOff impl backend m =>
      exact h₀.of_cookie (tidy_copyLinearBy (h₀ dst) src n dOff impl backend m).2
        fun j => cookie_update ..

/-- **Cookies that have not been used stay tidy.** -/
theorem tidy_run {h₀ : Heap} {ops : List CopyOp} (hfresh : ∀ i, (h₀ i).asyncCopyCookie = {})
    (hrun : Run CopyOp.Step h₀ ops h) : h.Tidy := by
  refine Run.invariant (fun h op h' htidy hstep => ?_) hrun fun i => (hfresh i).symm ▸ tidy_empty
  obtain ⟨hret, rfl⟩ := hstep
  cases op with
  | async op => exact htidy.async hret
  | sync op => exact htidy.sync hret
  | reset i => exact htidy.of_cookie tidy_empty fun j => cookie_update ..
  | edit i b => exact htidy.of_cookie (htidy i) fun j => cookie_update ..

end Heap

/-! ## Which copies are neutral -/

namespace Heap

variable {h h' : Heap} {i : BufId} {b : Buffer}

/-- A change of one cookie is neutral if the cookie is as good as before. -/
theorem neutral_update_iff :
    h.Neutral (Function.update h i b) ↔
      b.asyncCopyCookie.inUse = (h i).asyncCopyCookie.inUse ∧
        b.asyncCopyCookie.pendingDsts = (h i).asyncCopyCookie.pendingDsts := by
  constructor
  · intro hsame
    have hi := hsame i
    rwa [Function.update_self] at hi
  · intro hi j
    rw [cookie_update]
    split_ifs with hj
    · rw [hj]
      exact hi
    · exact ⟨rfl, rfl⟩

/-- A cookie that has been reset where the check has passed. -/
theorem Tidy.neutral_reset_iff (h₀ : h.Tidy) {l : Option ℕ}
    (hreset : ∀ j, l = some j → (h i).asyncCopyCookie.isDst = false → b.asyncCopyCookie = {})
    (hkeep : (∀ j, l = some j → (h i).asyncCopyCookie.isDst = true) → b = h i) :
    h.Neutral (Function.update h i b) ↔ ∀ j, l = some j →
      (h i).asyncCopyCookie.isDst = false → (h i).asyncCopyCookie.inUse = false := by
  rw [neutral_update_iff]
  by_cases hpass : ∃ j, l = some j ∧ (h i).asyncCopyCookie.isDst = false
  · obtain ⟨j, rfl, hdst⟩ := hpass
    rw [hreset j rfl hdst]
    constructor
    · exact fun hsame _ _ _ => hsame.1.symm
    · intro hidle
      have huse := hidle j rfl hdst
      exact ⟨huse.symm, ((h₀ i).idle huse).symm⟩
  · have hdst : ∀ j, l = some j → (h i).asyncCopyCookie.isDst = true := by
      intro j hj
      by_contra hdst
      exact hpass ⟨j, hj, by simpa using hdst⟩
    rw [hkeep hdst]
    exact ⟨fun _ j hj hno => absurd ((hdst j hj).symm.trans hno) (by decide), fun _ => ⟨rfl, rfl⟩⟩

theorem Tidy.neutral_toSg_iff (h₀ : h.Tidy) {src dst : BufId} {n dOff sOff : ℕ} {impl : Errno}
    {backend : ℕ → Buffer → Buffer → Mem → CopyResult} {m : Mem}
    (hret : h.StartReturns src dst impl) :
    h.Neutral (h.copyToSgBy src dst n dOff sOff impl backend m).state ↔
      (h.Honoured src dst → src ≠ dst) := by
  by_cases hpass : h.Honoured src dst
  · by_cases hne : src = dst
    · obtain rfl := hne
      have himpl : impl = .none := by
        by_contra himpl
        exact hret hpass himpl rfl
      refine ⟨fun hsame => ?_, fun hno => absurd rfl (hno hpass)⟩
      -- The cookie was idle, and is now a destination's.
      have huse := (hsame src).1
      rw [copyToSgBy_self hpass himpl, if_pos rfl, hpass.2] at huse
      exact absurd huse (by exact nofun)
    · refine ⟨fun _ _ => hne, fun _ i => ?_⟩
      rw [copyToSgBy_served hpass hne i]
      split_ifs with hd hi
      · rw [hd]
        exact ⟨hpass.2.symm, ((h₀ dst).idle hpass.2).symm⟩
      · rw [hi]
        exact (h₀ src).concludeSrc_initSgSrc hpass.1
      · exact ⟨rfl, rfl⟩
  · rw [copyToSgBy_refused hpass]
    exact ⟨fun _ hno => absurd hno hpass, fun _ i => ⟨rfl, rfl⟩⟩

end Heap

/-- **Which synchronous copies leave the transactions as they were.** After any calls from cookies
that have not been used, a synchronous copy that returns leaves every cookie in use as it was, and
counting what it did, if and only if it is `Harmless`: wherever the copy fails or succeeds. -/
theorem neutral_iff {h₀ h : Heap} {ops : List CopyOp} (hfresh : ∀ i, (h₀ i).asyncCopyCookie = {})
    (hrun : Run CopyOp.Step h₀ ops h) {op : SyncOp} (hret : op.Returns h) :
    h.Neutral (op.exec h).state ↔ op.Harmless h := by
  have htidy := Heap.tidy_run hfresh hrun
  cases op with
  | toSg src dst n dOff sOff impl backend m => exact htidy.neutral_toSg_iff hret
  | toLinear src dst n sOff impl backend m =>
      refine (@Heap.Tidy.neutral_reset_iff h src _ htidy dst ?_ ?_).trans ?_
      · rintro j rfl hdst
        exact Buffer.cookie_copyToLinearBy hdst
      · exact fun hdst => (Buffer.copyLinearBy_refused hdst).1
      · cases dst <;> simp [SyncOp.Harmless]
  | fromLinear dst src n dOff impl backend m =>
      refine (@Heap.Tidy.neutral_reset_iff h dst _ htidy src ?_ ?_).trans ?_
      · rintro j rfl hdst
        exact Buffer.cookie_copyFromLinearBy hdst
      · exact fun hdst => (Buffer.copyLinearBy_refused hdst).2
      · cases src <;> simp [SyncOp.Harmless]

/-- A copy from buffer 0 to buffer 1 is pending. -/
def pendingHeap : Heap := CopyOp.apply AsyncSys.freshHeap (.async (.startToSg 0 1 8 0 0 .none))

theorem run_pendingHeap :
    Run CopyOp.Step AsyncSys.freshHeap [.async (.startToSg 0 1 8 0 0 .none)] pendingHeap :=
  .snoc .nil ⟨fun _ hno => absurd rfl hno, rfl⟩

/-- While it is, a copy from buffer 0 to buffer 2 fails in its second round. -/
theorem neutral_secondCopy :
    pendingHeap.Neutral (SyncOp.exec pendingHeap (.toSg 0 2 8 0 0 .none
      (fun k _ _ m => if k = 0 then ⟨.again, 4, m⟩ else ⟨.badr, 0, m⟩) UInt8.ofNat)).state := by
  refine (neutral_iff (fun _ => rfl) run_pendingHeap ?_).2 ?_
  · exact fun _ hno => absurd rfl hno
  · exact fun _ => by decide

/-- **Two copies that are not neutral.** A buffer that has just been initialised is copied to
itself: the copy returns `EXIST` and the cookie stays in use. And buffer 0 is copied to linear
memory while the copy to buffer 1 is pending: it returns `NONE`, and the cookie of buffer 0 is no
longer in use. -/
theorem not_neutral :
    (let op : SyncOp := .toSg 0 0 8 0 0 .none (fun _ _ _ m => ⟨.none, 8, m⟩) UInt8.ofNat
    op.Returns AsyncSys.freshHeap ∧ (op.exec AsyncSys.freshHeap).err = .exist ∧
      (AsyncSys.freshHeap 0).asyncCopyCookie.inUse = false ∧
      ((op.exec AsyncSys.freshHeap).state 0).asyncCopyCookie.inUse = true ∧
      ¬AsyncSys.freshHeap.Neutral (op.exec AsyncSys.freshHeap).state) ∧
    let op : SyncOp := .toLinear 0 (some 4096) 8 0 .none (fun _ _ m => ⟨.none, 8, m⟩) UInt8.ofNat
    Run CopyOp.Step AsyncSys.freshHeap [.async (.startToSg 0 1 8 0 0 .none)] pendingHeap ∧
      op.Returns pendingHeap ∧ (op.exec pendingHeap).err = .none ∧
      (pendingHeap 0).asyncCopyCookie.pendingDsts = 1 ∧
      ((op.exec pendingHeap).state 0).asyncCopyCookie.pendingDsts = 0 ∧
      ¬pendingHeap.Neutral (op.exec pendingHeap).state := by
  refine ⟨⟨fun _ hno => absurd rfl hno, rfl, rfl, rfl, fun h => ?_⟩, run_pendingHeap, trivial, rfl,
    rfl, rfl, fun h => ?_⟩
  · exact absurd (h 0).1 (by decide)
  · exact absurd (h 0).2 (by decide)

end Vml
