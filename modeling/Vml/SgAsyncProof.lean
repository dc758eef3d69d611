import Vml.SgAsync
import Vml.SgTrack

/-!
# Transactions in flight: correctness

* `Tells`: what the cookie of one buffer says about the pending transactions. Every lemma about a
  cookie is about this relation, and a transaction matters only to the buffers it touches
  (`Tells.cons`, `Tells.erase`).
* `inv_step`: a call that is `StepOk` keeps every cookie in that relation.
* `async_iff`: the calls of a run are all good if and only if they are all `StepOk`.
-/

namespace Vml

open AsyncCopyCookie

/-! ## One cookie -/

/-- What the cookie `c` of buffer `i` says about the pending transactions. -/
structure Tells (c : AsyncCopyCookie) (i : BufId) (pending : List Txn) : Prop where
  toLinear : c.isSrcToLinear = true ↔ .toLinear i ∈ pending
  fromLinear : c.isDstFromLinear = true ↔ .fromLinear i ∈ pending
  fromSg : ∀ j, c.isDstFromSg = true ∧ c.cookieSrc = some j ↔ .toSg j i ∈ pending
  toSg : ∀ j, .toSg i j ∈ pending → c.isSrcToSg = true
  pendingDsts : c.pendingDsts = pending.countP (·.source = some i)

/-- No pending transaction uses the cookie of buffer `i`. -/
def Untouched (i : BufId) (pending : List Txn) : Prop := ∀ t ∈ pending, ¬t.Touches i

theorem cookie_exclusive (c : AsyncCopyCookie) :
    (c.isDst = true → c.isSrc = false ∧ c.inUse = true) ∧
      (c.isSrc = true → c.isDst = false ∧ c.inUse = true ∧ 0 < c.pendingDsts) ∧
      (c.isSrcToLinear = true → c.isSrcToSg = false) ∧
      (c.isDstFromLinear = true → c.isDstFromSg = false) := by
  simp only [isDst, isSrc, isDstFromSg, isDstFromLinear, isSrcToSg, isSrcToLinear, inUse]
  grind

theorem Untouched.notMem {i : BufId} {pending : List Txn} (h : Untouched i pending) :
    .toLinear i ∉ pending ∧ .fromLinear i ∉ pending ∧ (∀ j, .toSg i j ∉ pending) ∧
      (∀ j, .toSg j i ∉ pending) ∧ pending.countP (·.source = some i) = 0 := by
  refine ⟨fun hm => h _ hm (.inl rfl), fun hm => h _ hm (.inr rfl),
    fun j hm => h _ hm (.inl rfl), fun j hm => h _ hm (.inr rfl), ?_⟩
  exact List.countP_eq_zero.2 fun t ht hsrc => h t ht (.inl (of_decide_eq_true hsrc))

theorem concludeSrc_last {c : AsyncCopyCookie} (h : c.pendingDsts = 1) : c.concludeSrc = {} := by
  simp [concludeSrc, h, reset]

theorem concludeSrc_more {c : AsyncCopyCookie} (h : 1 < c.pendingDsts) :
    c.concludeSrc = { c with pendingDsts := c.pendingDsts - 1 } := by
  rw [concludeSrc, if_neg (show c.pendingDsts ≠ 0 by omega), if_neg (show c.pendingDsts - 1 ≠ 0 by omega)]

theorem cookie_idle {c : AsyncCopyCookie} (h : c.inUse = false) :
    c.isDst = false ∧ c.isSrc = false := by
  simp [isDst, isSrc, isDstFromSg, isDstFromLinear, isSrcToSg, isSrcToLinear, h]

namespace Tells

variable {c : AsyncCopyCookie} {i j : BufId} {pending pending' : List Txn} {t : Txn}

theorem congr (h : Tells c i pending) (hmem : ∀ t : Txn, t.Touches i → (t ∈ pending' ↔ t ∈ pending))
    (hcount : pending'.countP (·.source = some i) = pending.countP (·.source = some i)) :
    Tells c i pending' where
  toLinear := h.toLinear.trans (hmem _ (.inl rfl)).symm
  fromLinear := h.fromLinear.trans (hmem _ (.inr rfl)).symm
  fromSg := fun j => (h.fromSg j).trans (hmem _ (.inr rfl)).symm
  toSg := fun j hj => h.toSg j ((hmem _ (.inl rfl)).1 hj)
  pendingDsts := h.pendingDsts.trans hcount.symm

theorem cons (h : Tells c i pending) (ht : ¬t.Touches i) : Tells c i (t :: pending) := by
  refine h.congr (fun t' ht' => ?_) (List.countP_cons_of_neg ?_)
  · rw [List.mem_cons, or_iff_right]
    rintro rfl
    exact ht ht'
  · simpa using fun hsrc => ht (.inl hsrc)

theorem erase (h : Tells c i pending) (ht : ¬t.Touches i) : Tells c i (pending.erase t) := by
  refine h.congr (fun t' ht' => List.mem_erase_of_ne ?_) ?_
  · rintro rfl
    exact ht ht'
  · rw [List.countP_erase, if_neg, Nat.sub_zero]
    simpa using fun _ hsrc => ht (.inl hsrc)

theorem of_untouched (h : Untouched i pending) : Tells {} i pending := by
  obtain ⟨hto, hfrom, hsrc, hdst, hcount⟩ := h.notMem
  exact ⟨⟨nofun, fun hm => absurd hm hto⟩, ⟨nofun, fun hm => absurd hm hfrom⟩,
    fun j => ⟨nofun, fun hm => absurd hm (hdst j)⟩, fun j hm => absurd hm (hsrc j), hcount.symm⟩

/-- The part in which a transaction uses the cookie. -/
theorem part (h : Tells c i pending) (hmem : t ∈ pending) (ht : t.Touches i) :
    (c.isSrcToSg = true ∧ ∃ j, t = .toSg i j) ∨ (c.isSrcToLinear = true ∧ t = .toLinear i) ∨
      (c.isDstFromLinear = true ∧ t = .fromLinear i) ∨
      (c.isDstFromSg = true ∧ ∃ j, c.cookieSrc = some j ∧ t = .toSg j i) := by
  cases t with
  | toSg src dst =>
      rcases ht with hsrc | hdst
      · obtain rfl := Option.some.inj hsrc
        exact .inl ⟨h.toSg _ hmem, _, rfl⟩
      · obtain rfl := Option.some.inj hdst
        obtain ⟨hpart, hsrc⟩ := (h.fromSg src).2 hmem
        exact .inr (.inr (.inr ⟨hpart, _, hsrc, rfl⟩))
  | toLinear src =>
      rcases ht with hsrc | hdst
      · obtain rfl := Option.some.inj hsrc
        exact .inr (.inl ⟨h.toLinear.2 hmem, rfl⟩)
      · cases hdst
  | fromLinear dst =>
      rcases ht with hsrc | hdst
      · cases hsrc
      · obtain rfl := Option.some.inj hdst
        exact .inr (.inr (.inl ⟨h.fromLinear.2 hmem, rfl⟩))

theorem touched (h : Tells c i pending) (hmem : t ∈ pending) (ht : t.Touches i) :
    c.isDst = true ∨ c.isSrc = true := by
  rcases h.part hmem ht with ⟨hp, -⟩ | ⟨hp, -⟩ | ⟨hp, -⟩ | ⟨hp, -⟩ <;> simp [isDst, isSrc, hp]

theorem untouched (h : Tells c i pending) (hdst : c.isDst = false) (hsrc : c.isSrc = false) :
    Untouched i pending := by
  intro t hmem ht
  rcases h.touched hmem ht with hd | hs
  · exact Bool.false_ne_true (hdst.symm.trans hd)
  · exact Bool.false_ne_true (hsrc.symm.trans hs)

/-! ### Starting -/

theorem start_fromSg (h : Untouched i pending) (hne : j ≠ i) (sz dOff sOff : ℕ) :
    Tells (c.initSgDstFromSgSrc j sz dOff sOff) i (.toSg j i :: pending) := by
  obtain ⟨hto, hfrom, hsrc, hdst, hcount⟩ := h.notMem
  refine ⟨?_, ?_, fun k => ?_, fun k => ?_, ?_⟩
  case refine_3 =>
    simp [initSgDstFromSgSrc, initMetadata, initStatus, isDstFromSg, inUse, hdst, eq_comm]
  all_goals
    simp [initSgDstFromSgSrc, initMetadata, initStatus, isSrcToLinear, isDstFromLinear, isSrcToSg,
      inUse, hto, hfrom, hsrc, hcount, hne, hne.symm]

/-- A buffer that is no destination, nor the source of linear memory, becomes the source of another
one. -/
theorem start_toSg (h : Tells c i pending) (hdst : c.isDst = false)
    (hlin : c.isSrcToLinear = false) (hne : i ≠ j) :
    Tells c.initSgSrcToSgDst i (.toSg i j :: pending) := by
  have hfrom : c.isDstFromLinear = false := by
    simp_all [isDst]
  have hsg : c.isDstFromSg = false := by
    simp_all [isDst]
  have hto : .toLinear i ∉ pending := fun hm => Bool.false_ne_true (hlin.symm.trans (h.toLinear.2 hm))
  have hlinear : .fromLinear i ∉ pending := fun hm =>
    Bool.false_ne_true (hfrom.symm.trans (h.fromLinear.2 hm))
  have hdst : ∀ k, .toSg k i ∉ pending := fun k hm =>
    Bool.false_ne_true (hsg.symm.trans ((h.fromSg k).2 hm).1)
  constructor <;>
    simp [initSgSrcToSgDst, initStatus, isSrcToLinear, isDstFromLinear, isDstFromSg, isSrcToSg,
      inUse, hto, hlinear, hdst, h.pendingDsts, hne]

theorem start_toLinear (h : Untouched i pending) (l sz sOff : ℕ) :
    Tells (c.initSgSrcToLinearDst l sz sOff) i (.toLinear i :: pending) := by
  obtain ⟨hto, hfrom, hsrc, hdst, hcount⟩ := h.notMem
  constructor <;>
    simp [initSgSrcToLinearDst, initMetadata, initStatus, isSrcToLinear, isDstFromLinear,
      isDstFromSg, isSrcToSg, inUse, hto, hfrom, hsrc, hdst, hcount]

theorem start_fromLinear (h : Untouched i pending) (l sz dOff : ℕ) :
    Tells (c.initSgDstFromLinearSrc l sz dOff) i (.fromLinear i :: pending) := by
  obtain ⟨hto, hfrom, hsrc, hdst, hcount⟩ := h.notMem
  constructor <;>
    simp [initSgDstFromLinearSrc, initMetadata, initStatus, isSrcToLinear, isDstFromLinear,
      isDstFromSg, isSrcToSg, inUse, hto, hfrom, hsrc, hdst, hcount]

/-! ### Concluding -/

theorem untouched_erase (h : Tells c i pending) (hnodup : pending.Nodup) (hmem : t ∈ pending)
    (ht : t.Touches i) (hsg : c.isSrcToSg = false) : Untouched i (pending.erase t) := by
  intro t' herase ht'
  obtain ⟨hne, hmem'⟩ := hnodup.mem_erase_iff.1 herase
  obtain ⟨hdst, -, -, hlin⟩ := cookie_exclusive c
  rcases h.part hmem ht with ⟨hp, -⟩ | ⟨hp, rfl⟩ | ⟨hp, rfl⟩ | ⟨hp, a, ha, rfl⟩ <;>
    rcases h.part hmem' ht' with ⟨hp', -⟩ | ⟨hp', rfl⟩ | ⟨hp', rfl⟩ | ⟨hp', a', ha', rfl⟩ <;>
    simp_all [isDst, isSrc]

theorem conclude_toSg (h : Tells c i pending) (hmem : .toSg i j ∈ pending) :
    Tells c.concludeSrc i (pending.erase (.toSg i j)) := by
  obtain ⟨hdst, hsrc, hlin, -⟩ := cookie_exclusive c
  have hsg := h.toSg j hmem
  obtain ⟨hnotdst, -, hpos⟩ := hsrc (by simp [isSrc, hsg])
  have hnotlin : c.isSrcToLinear = false := by
    by_contra hl
    simp [hlin (by simpa using hl)] at hsg
  have hcount : (pending.erase (.toSg i j)).countP (·.source = some i) = c.pendingDsts - 1 := by
    rw [List.countP_erase, if_pos (by simpa using hmem), h.pendingDsts]
  by_cases hlast : c.pendingDsts = 1
  · rw [concludeSrc_last hlast]
    refine of_untouched fun t ht htouch => ?_
    rcases h.part (List.mem_of_mem_erase ht) htouch with ⟨-, k, rfl⟩ | ⟨hp, -⟩ | ⟨hp, -⟩ | ⟨hp, -⟩
    · have : 0 < (pending.erase (.toSg i j)).countP (·.source = some i) :=
        List.countP_pos_iff.2 ⟨_, ht, by simp⟩
      omega
    · exact Bool.false_ne_true (hnotlin.symm.trans hp)
    all_goals simp [isDst, hp] at hnotdst
  · have hnotfrom : c.isDstFromLinear = false ∧ c.isDstFromSg = false := by
      simpa [isDst, and_comm] using hnotdst
    rw [concludeSrc_more (by omega)]
    have hsame : { c with pendingDsts := c.pendingDsts - 1 : AsyncCopyCookie }.isSrcToLinear = false ∧
        { c with pendingDsts := c.pendingDsts - 1 : AsyncCopyCookie }.isSrcToSg = true := by
      have hmore : 0 < c.pendingDsts - 1 := by omega
      simp only [isSrcToSg, isSrcToLinear, inUse] at hsg ⊢
      simp_all
    have hmem' : ∀ t ∈ pending.erase (.toSg i j), t ∈ pending := fun t => List.mem_of_mem_erase
    refine ⟨⟨fun hp => ?_, fun hm => ?_⟩, ⟨fun hp => ?_, fun hm => ?_⟩,
      fun k => ⟨fun hp => ?_, fun hm => ?_⟩, fun k hm => hsame.2, hcount.symm⟩
    · exact absurd (hsame.1.symm.trans hp) Bool.false_ne_true
    · exact absurd (hnotlin.symm.trans (h.toLinear.2 (hmem' _ hm))) Bool.false_ne_true
    · exact absurd (hnotfrom.1.symm.trans hp) Bool.false_ne_true
    · exact absurd (hnotfrom.1.symm.trans (h.fromLinear.2 (hmem' _ hm))) Bool.false_ne_true
    · exact absurd (hnotfrom.2.symm.trans hp.1) Bool.false_ne_true
    · exact absurd (hnotfrom.2.symm.trans ((h.fromSg k).2 (hmem' _ hm)).1) Bool.false_ne_true

theorem conclude_toLinear (h : Tells c i pending) (hnodup : pending.Nodup)
    (hmem : .toLinear i ∈ pending) : c.concludeSrc = {} := by
  have hsg := (cookie_exclusive c).2.2.1 (h.toLinear.2 hmem)
  have hcount := (h.untouched_erase hnodup hmem (.inl rfl) hsg).notMem.2.2.2.2
  have hpos : 0 < pending.countP (·.source = some i) := List.countP_pos_iff.2 ⟨_, hmem, by simp⟩
  rw [List.countP_erase, if_pos (by simpa using hmem)] at hcount
  exact concludeSrc_last (h.pendingDsts.trans (by omega))

theorem recordBytesCopied (h : Tells c i pending) (n : ℕ) :
    Tells (c.recordBytesCopied n) i pending :=
  ⟨h.toLinear, h.fromLinear, h.fromSg, h.toSg, h.pendingDsts⟩

end Tells

/-! ## The calls, cookie by cookie -/

theorem Heap.cookie_modifyCookie (h : Heap) (i j : BufId) (f : AsyncCopyCookie → AsyncCopyCookie) :
    ((h.modifyCookie i f) j).asyncCopyCookie =
      if j = i then f (h i).asyncCopyCookie else (h j).asyncCopyCookie := by
  rw [modifyCookie, Function.update_apply]
  split_ifs <;> rfl

namespace Buffer

variable {b : Buffer} {l sizeBytes n off : ℕ} {impl : Errno} {m : Mem}

theorem startLinear_spec {init : AsyncCopyCookie → ℕ → AsyncCopyCookie}
    {conclude : AsyncCopyCookie → AsyncCopyCookie} (hdst : b.asyncCopyCookie.isDst = false) :
    (b.startLinear (some l) sizeBytes init conclude impl).1 = impl ∧
      (b.startLinear (some l) sizeBytes init conclude impl).2.2.asyncCopyCookie =
        if impl = .none then init b.asyncCopyCookie l else conclude (init b.asyncCopyCookie l) := by
  rw [startLinear]
  dsimp only
  rw [if_neg (by simp [hdst])]
  by_cases himpl : impl = .none <;> simp [himpl, modifyCookie]

theorem startLinear_refused {init : AsyncCopyCookie → ℕ → AsyncCopyCookie}
    {conclude : AsyncCopyCookie → AsyncCopyCookie} (hdst : b.asyncCopyCookie.isDst = true) :
    b.startLinear (some l) sizeBytes init conclude impl = (.rbusy, sizeBytes, b) := if_pos hdst

end Buffer

namespace AsyncSys

variable {s : AsyncSys} {src dst i : BufId} {sizeBytes dOff sOff l : ℕ} {impl : Errno} {op : AsyncOp}
  {t : Txn}

/-- A start between two buffers that passes the checks. -/
theorem startToSg_spec (hdst : (s.cookie src).isDst = false) (huse : (s.cookie dst).inUse = false)
    (hne : src ≠ dst) :
    s.result (.startToSg src dst sizeBytes dOff sOff impl) = impl ∧
    ∀ i, (s.step (.startToSg src dst sizeBytes dOff sOff impl)).cookie i =
      if i = dst then
        if impl = .none then (s.cookie dst).initSgDstFromSgSrc src sizeBytes dOff sOff else {}
      else if i = src then
        if impl = .none then (s.cookie src).initSgSrcToSgDst
        else (s.cookie src).initSgSrcToSgDst.concludeSrc
      else s.cookie i := by
  have hpass : ¬((s.heap src).asyncCopyCookie.isDst || (s.heap dst).asyncCopyCookie.inUse) = true := by
    rw [cookie] at hdst huse
    simp [hdst, huse]
  rw [result, step]
  simp only [cookie, call, Heap.startCopyToSg, if_neg hpass]
  by_cases himpl : impl = .none
  · simp [himpl, Heap.cookie_modifyCookie, hne.symm]
  · simp only [himpl, Heap.cookie_modifyCookie, Heap.concludeBoth, hne, hne.symm, concludeDst, reset,
      ne_eq, not_false_eq_true, if_true, if_false, true_and]
    intro i
    split_ifs <;> simp_all

theorem startToSg_refused (h : (s.cookie src).isDst = true ∨ (s.cookie dst).inUse = true) :
    s.call (.startToSg src dst sizeBytes dOff sOff impl) = (.rbusy, s.heap) := by
  rw [cookie, cookie] at h
  rw [call, Heap.startCopyToSg, if_pos (by simpa using h)]

theorem call_of_not_matching (hends : op.ends = some t) (h : s.matching t = false) :
    s.call op = (.exist, s.heap) := by
  cases op with
  | tryEndToSg src dst impl m =>
      obtain rfl := Option.some.inj hends
      rw [matching, cookie, cookie] at h
      rw [call, Heap.tryEndCopyToSg, if_pos (by simp [h])]
  | tryEndToLinear src impl m =>
      obtain rfl := Option.some.inj hends
      rw [matching, cookie] at h
      rw [call, Buffer.tryEndCopyToLinear, if_pos (by simp [h])]
      exact congrArg _ (Function.update_eq_self _ _)
  | tryEndFromLinear dst impl m =>
      obtain rfl := Option.some.inj hends
      rw [matching, cookie] at h
      rw [call, Buffer.tryEndCopyFromLinear, if_pos (by simp [h])]
      exact congrArg _ (Function.update_eq_self _ _)
  | _ => cases hends

theorem request_ne_exist {r : CopyResult} {m : Mem} {sz : ℕ} {p : Prop} [Decidable p]
    (hr : r.err ≠ .exist) :
    (if 0 < sz then r else ⟨if p then .none else .noent, 0, m⟩ : CopyResult).err ≠ .exist := by
  split_ifs
  · exact hr
  · exact nofun
  · exact nofun

/-- A try_end between two buffers whose cookies match. -/
theorem tryEndToSg_spec {impl : Buffer → Buffer → Mem → CopyResult} {m : Mem} (hne : src ≠ dst)
    (h : s.matching (.toSg src dst) = true) :
    ((∀ b b' m, (impl b b' m).err ≠ .exist) → s.result (.tryEndToSg src dst impl m) ≠ .exist) ∧
    ∃ n, ∀ i, (s.step (.tryEndToSg src dst impl m)).cookie i =
      if s.result (.tryEndToSg src dst impl m) = .again then
        if i = dst then (s.cookie dst).recordBytesCopied n else s.cookie i
      else if i = dst then {}
      else if i = src then (s.cookie src).concludeSrc
      else s.cookie i := by
  rw [matching, cookie, cookie] at h
  have hpass : ¬(!(s.heap dst).asyncCopyCookie.isDstFromMatchingCookie src
      (s.heap src).asyncCopyCookie) = true := by
    simp [h]
  simp only [result, step, cookie, call, Heap.tryEndCopyToSg, if_neg hpass]
  have hexist := fun hr => @request_ne_exist (impl (s.heap src) (s.heap dst) m) m
    (s.heap dst).asyncCopyCookie.reqSz
    ((s.heap dst).asyncCopyCookie.reqDOff ≤ (s.heap dst).sizeBytes ∧
      (s.heap dst).asyncCopyCookie.reqSOff ≤ (s.heap src).sizeBytes) _ hr
  revert hexist
  generalize (if 0 < (s.heap dst).asyncCopyCookie.reqSz then _ else _ : CopyResult) = r
  intro hexist
  by_cases hagain : r.err = .again
  · rw [if_neg (not_not.2 hagain)]
    refine ⟨fun himpl => hexist (himpl _ _ _), r.bytesCopied, fun i => ?_⟩
    dsimp only
    rw [if_pos hagain, Heap.cookie_modifyCookie, Function.update_self, Buffer.cookie_heuristicallyTrack]
    split_ifs with hi
    · rfl
    · rw [Function.update_of_ne hi]
  · rw [if_pos hagain]
    refine ⟨fun himpl => hexist (himpl _ _ _), 0, fun i => ?_⟩
    dsimp only
    rw [if_neg hagain, Heap.concludeBoth, Heap.cookie_modifyCookie, Heap.cookie_modifyCookie,
      Heap.cookie_modifyCookie, if_neg hne, Function.update_of_ne hne]
    by_cases hi : i = dst
    · rw [if_pos hi, if_pos hi, if_neg (hi ▸ hne.symm)]
      rfl
    · rw [if_neg hi, if_neg hi, Function.update_of_ne hi]

/-- A try_end from a buffer to linear memory whose cookie matches. -/
theorem tryEndToLinear_spec {impl : Buffer → Mem → CopyResult} {m : Mem}
    (h : s.matching (.toLinear src) = true) :
    ((∀ b m, (impl b m).err ≠ .exist) → s.result (.tryEndToLinear src impl m) ≠ .exist) ∧
    ∃ n, ∀ i, (s.step (.tryEndToLinear src impl m)).cookie i =
      if i = src then
        if s.result (.tryEndToLinear src impl m) = .again then (s.cookie src).recordBytesCopied n
        else (s.cookie src).concludeSrc
      else s.cookie i := by
  rw [matching, cookie] at h
  simp only [result, step, cookie, call, Buffer.tryEndCopyToLinear, h, Bool.not_true,
    Bool.false_eq_true, if_false]
  have hexist := fun hr => @request_ne_exist (impl (s.heap src) m) m
    (s.heap src).asyncCopyCookie.reqSz
    ((s.heap src).asyncCopyCookie.reqSOff ≤ (s.heap src).sizeBytes) _ hr
  revert hexist
  generalize (if 0 < (s.heap src).asyncCopyCookie.reqSz then _ else _ : CopyResult) = r
  intro hexist
  by_cases hagain : r.err = .again
  · rw [if_neg (not_not.2 hagain)]
    refine ⟨fun himpl => hexist (himpl _ _), r.bytesCopied, fun i => ?_⟩
    rw [Function.update_apply, if_pos hagain]
    split_ifs <;> rfl
  · rw [if_pos hagain]
    refine ⟨fun himpl => hexist (himpl _ _), 0, fun i => ?_⟩
    rw [Function.update_apply, if_neg hagain]
    split_ifs <;> rfl

/-- A try_end from linear memory to a buffer whose cookie matches. -/
theorem tryEndFromLinear_spec {impl : Buffer → Mem → CopyResult} {m : Mem}
    (h : s.matching (.fromLinear dst) = true) :
    ((∀ b m, (impl b m).err ≠ .exist) → s.result (.tryEndFromLinear dst impl m) ≠ .exist) ∧
    ∃ n, ∀ i, (s.step (.tryEndFromLinear dst impl m)).cookie i =
      if i = dst then
        if s.result (.tryEndFromLinear dst impl m) = .again then (s.cookie dst).recordBytesCopied n
        else {}
      else s.cookie i := by
  rw [matching, cookie] at h
  simp only [result, step, cookie, call, Buffer.tryEndCopyFromLinear, h, Bool.not_true,
    Bool.false_eq_true, if_false]
  have hexist := fun hr => @request_ne_exist (impl (s.heap dst) m) m
    (s.heap dst).asyncCopyCookie.reqSz
    ((s.heap dst).asyncCopyCookie.reqDOff ≤ (s.heap dst).sizeBytes) _ hr
  revert hexist
  generalize (if 0 < (s.heap dst).asyncCopyCookie.reqSz then _ else _ : CopyResult) = r
  intro hexist
  by_cases hagain : r.err = .again
  · rw [if_neg (not_not.2 hagain)]
    refine ⟨fun himpl => hexist (himpl _ _), r.bytesCopied, fun i => ?_⟩
    rw [Function.update_apply, if_pos hagain]
    split_ifs
    · exact congrArg (recordBytesCopied · _) Buffer.cookie_heuristicallyTrack
    · rfl
  · rw [if_pos hagain]
    refine ⟨fun himpl => hexist (himpl _ _), 0, fun i => ?_⟩
    rw [Function.update_apply, if_neg hagain]
    split_ifs <;> rfl

/-! ## What is pending afterwards -/

theorem pending_start (hstarts : op.starts = some t) :
    (s.step op).pending = if s.result op = .none then t :: s.pending else s.pending := by
  rw [step, pendingAfter, hstarts]

theorem pending_end (hends : op.ends = some t) :
    (s.step op).pending =
      if s.matching t = true ∧ s.result op ≠ .again then s.pending.erase t else s.pending := by
  cases op <;> cases hends <;> rfl

theorem step_eq_self_of_start {err : Errno} (hstarts : op.starts = some t)
    (hcall : s.call op = (err, s.heap)) (herr : err ≠ .none) : s.step op = s := by
  rw [step, pendingAfter, hstarts, result, hcall]
  dsimp only
  rw [if_neg herr]

theorem step_eq_self_of_end (hends : op.ends = some t) (h : s.matching t = false) :
    s.step op = s := by
  have hpending := @pending_end s op t hends
  rw [if_neg (by simp [h])] at hpending
  rw [step] at hpending ⊢
  dsimp only at hpending
  rw [hpending, call_of_not_matching hends h]

/-! ## All cookies -/

/-- Every cookie says what is pending. -/
structure Inv (s : AsyncSys) : Prop where
  nodup : s.pending.Nodup
  tells : ∀ i, Tells (s.cookie i) i s.pending

theorem inv_init {h : Heap} (hh : ∀ i, (h i).asyncCopyCookie = {}) : Inv ⟨h, []⟩ where
  nodup := List.nodup_nil
  tells := fun i => by
    rw [cookie, hh]
    exact Tells.of_untouched nofun

namespace Inv

theorem matching_iff (h : Inv s) (t : Txn) : s.matching t = true ↔ t ∈ s.pending := by
  cases t with
  | toSg src dst =>
      rw [matching, isDstFromMatchingCookie, Bool.and_eq_true, Bool.and_eq_true, beq_iff_eq]
      constructor
      · rintro ⟨⟨hdst, -⟩, hsrc⟩
        exact ((h.tells dst).fromSg src).1 ⟨hdst, hsrc⟩
      · intro hmem
        obtain ⟨hdst, hsrc⟩ := ((h.tells dst).fromSg src).2 hmem
        exact ⟨⟨hdst, (h.tells src).toSg dst hmem⟩, hsrc⟩
  | toLinear src => exact (h.tells src).toLinear
  | fromLinear dst => exact (h.tells dst).fromLinear

theorem ne_of_mem (h : Inv s) (hmem : .toSg src dst ∈ s.pending) : src ≠ dst := by
  rintro rfl
  have hdst := (((h.tells src).fromSg src).2 hmem).1
  have hsrc := (h.tells src).toSg src hmem
  have hex := ((cookie_exclusive (s.cookie src)).1 (by simp [isDst, hdst])).1
  simp [isSrc, hsrc] at hex

/-- **What a caller relies on follows from the invariant.** -/
theorem sound (h : Inv s) : s.Sound where
  notRefused := by
    intro op t hends hmem himpl
    have hmatch := (h.matching_iff t).2 hmem
    cases op with
    | tryEndToSg src dst impl m =>
        obtain rfl := Option.some.inj hends
        exact (tryEndToSg_spec (h.ne_of_mem hmem) hmatch).1 himpl
    | tryEndToLinear src impl m =>
        obtain rfl := Option.some.inj hends
        exact (tryEndToLinear_spec hmatch).1 himpl
    | tryEndFromLinear dst impl m =>
        obtain rfl := Option.some.inj hends
        exact (tryEndFromLinear_spec hmatch).1 himpl
    | _ => cases hends
  pendingDsts := fun i => (h.tells i).pendingDsts

theorem startToSg (h : Inv s) (hok : s.StepOk (.startToSg src dst sizeBytes dOff sOff impl)) :
    Inv (s.step (.startToSg src dst sizeBytes dOff sOff impl)) := by
  by_cases hpass : (s.cookie src).isDst = false ∧ (s.cookie dst).inUse = false
  · obtain ⟨hdst, huse⟩ := hpass
    obtain ⟨hne, hlin⟩ := hok hdst huse
    obtain ⟨hresult, hcookie⟩ := @startToSg_spec s src dst sizeBytes dOff sOff impl hdst huse hne
    have hfree : Untouched dst s.pending :=
      (h.tells dst).untouched (cookie_idle huse).1 (cookie_idle huse).2
    have hsrc := (h.tells src).start_toSg hdst hlin hne
    have hother : ∀ i, i ≠ dst → i ≠ src → ¬(Txn.toSg src dst).Touches i := by
      rintro i hid his (hs | hd)
      · exact his (Option.some.inj hs).symm
      · exact hid (Option.some.inj hd).symm
    have hpending := @pending_start s (.startToSg src dst sizeBytes dOff sOff impl) _ rfl
    rw [hresult] at hpending
    by_cases himpl : impl = .none
    · rw [if_pos himpl] at hpending
      refine ⟨?_, fun i => ?_⟩
      · rw [hpending]
        exact List.nodup_cons.2 ⟨fun hmem => hfree _ hmem (.inr rfl), h.nodup⟩
      · rw [hpending, hcookie, if_pos himpl, if_pos himpl]
        split_ifs with hid his
        · rw [hid]
          exact Tells.start_fromSg hfree hne ..
        · rw [his]
          exact hsrc
        · exact (h.tells i).cons (hother i hid his)
    · rw [if_neg himpl] at hpending
      refine ⟨hpending ▸ h.nodup, fun i => ?_⟩
      rw [hpending, hcookie, if_neg himpl, if_neg himpl]
      split_ifs with hid his
      · rw [hid]
        exact Tells.of_untouched hfree
      · have hback := hsrc.conclude_toSg List.mem_cons_self
        rw [List.erase_cons_head] at hback
        rw [his]
        exact hback
      · exact h.tells i
  · rw [step_eq_self_of_start rfl (startToSg_refused ?_) nofun]
    · exact h
    · by_contra hno
      simp at hno
      exact hpass hno

/-- A start with linear memory: the buffer is free, and only its cookie changes. -/
theorem startLinear (h : Inv s) (hstarts : op.starts = some t)
    (ht : ∀ j, t.Touches j → j = i) (hfree : Untouched i s.pending) (htouch : t.Touches i)
    {c : AsyncCopyCookie} (hc : Tells c i (t :: s.pending))
    (hresult : s.result op = impl)
    (hcookie : ∀ j, (s.step op).cookie j = if j = i then if impl = .none then c else {}
      else s.cookie j) : Inv (s.step op) := by
  have hpending := @pending_start s op t hstarts
  rw [hresult] at hpending
  by_cases himpl : impl = .none
  · rw [if_pos himpl] at hpending
    refine ⟨?_, fun j => ?_⟩
    · rw [hpending]
      exact List.nodup_cons.2 ⟨fun hmem => hfree _ hmem htouch, h.nodup⟩
    · rw [hpending, hcookie, if_pos himpl]
      split_ifs with hj
      · rw [hj]
        exact hc
      · exact (h.tells j).cons fun htj => hj (ht j htj)
  · rw [if_neg himpl] at hpending
    refine ⟨hpending ▸ h.nodup, fun j => ?_⟩
    rw [hpending, hcookie, if_neg himpl]
    split_ifs with hj
    · rw [hj]
      exact Tells.of_untouched hfree
    · exact h.tells j

/-- A try_end of a pending transaction between two buffers. -/
theorem tryEndToSg (h : Inv s) {impl : Buffer → Buffer → Mem → CopyResult} {m : Mem}
    (hmem : .toSg src dst ∈ s.pending) : Inv (s.step (.tryEndToSg src dst impl m)) := by
  have hne := h.ne_of_mem hmem
  have hmatch := (h.matching_iff _).2 hmem
  obtain ⟨-, n, hcookie⟩ := @tryEndToSg_spec s src dst impl m hne hmatch
  have hpending := @pending_end s (.tryEndToSg src dst impl m) _ rfl
  have hnotsg : (s.cookie dst).isSrcToSg = false := by
    have hdst := (((h.tells dst).fromSg src).2 hmem).1
    have hex := ((cookie_exclusive (s.cookie dst)).1 (by simp [isDst, hdst])).1
    simp_all [isSrc]
  by_cases hagain : s.result (.tryEndToSg src dst impl m) = .again
  · rw [if_neg (by simp [hagain])] at hpending
    refine ⟨hpending ▸ h.nodup, fun i => ?_⟩
    rw [hpending, hcookie, if_pos hagain]
    split_ifs with hi
    · rw [hi]
      exact (h.tells dst).recordBytesCopied n
    · exact h.tells i
  · rw [if_pos ⟨hmatch, hagain⟩] at hpending
    refine ⟨hpending ▸ h.nodup.erase _, fun i => ?_⟩
    rw [hpending, hcookie, if_neg hagain]
    split_ifs with hid his
    · rw [hid]
      exact Tells.of_untouched ((h.tells dst).untouched_erase h.nodup hmem (.inr rfl) hnotsg)
    · rw [his]
      exact (h.tells src).conclude_toSg hmem
    · refine (h.tells i).erase ?_
      rintro (hs | hd)
      · exact his (Option.some.inj hs).symm
      · exact hid (Option.some.inj hd).symm

/-- A try_end of a pending transaction with linear memory. -/
theorem tryEndLinear (h : Inv s) (hends : op.ends = some t) (hmem : t ∈ s.pending)
    (ht : ∀ j, t.Touches j → j = i) (htouch : t.Touches i)
    (hnotsg : (s.cookie i).isSrcToSg = false) {n : ℕ}
    (hcookie : ∀ j, (s.step op).cookie j = if j = i then
      if s.result op = .again then (s.cookie i).recordBytesCopied n else {} else s.cookie j) :
    Inv (s.step op) := by
  have hpending := @pending_end s op t hends
  by_cases hagain : s.result op = .again
  · rw [if_neg (by simp [hagain])] at hpending
    refine ⟨hpending ▸ h.nodup, fun j => ?_⟩
    rw [hpending, hcookie, if_pos hagain]
    split_ifs with hj
    · rw [hj]
      exact (h.tells i).recordBytesCopied n
    · exact h.tells j
  · rw [if_pos ⟨(h.matching_iff t).2 hmem, hagain⟩] at hpending
    refine ⟨hpending ▸ h.nodup.erase _, fun j => ?_⟩
    rw [hpending, hcookie, if_neg hagain]
    split_ifs with hj
    · rw [hj]
      exact Tells.of_untouched ((h.tells i).untouched_erase h.nodup hmem htouch hnotsg)
    · exact (h.tells j).erase fun htj => hj (ht j htj)

end Inv

theorem step_null (s : AsyncSys) (i : BufId) (n off : ℕ) (impl : Errno) :
    s.step (.startToLinear i none n off impl) = s ∧
      s.step (.startFromLinear i none n off impl) = s := by
  have hsame : Function.update s.heap i (s.heap i) = s.heap := Function.update_eq_self _ _
  simp only [step, call, pendingAfter, AsyncOp.starts, AsyncOp.ends, Buffer.startCopyToLinear,
    Buffer.startCopyFromLinear, Buffer.startLinear, hsame, and_self]

theorem startToLinear_spec (hdst : (s.cookie src).isDst = false) :
    s.result (.startToLinear src (some l) sizeBytes sOff impl) = impl ∧
    ∀ i, (s.step (.startToLinear src (some l) sizeBytes sOff impl)).cookie i =
      if i = src then
        if impl = .none then (s.cookie src).initSgSrcToLinearDst l sizeBytes sOff else {}
      else s.cookie i := by
  obtain ⟨hresult, hcookie⟩ := @Buffer.startLinear_spec (s.heap src) l sizeBytes impl
    (fun c l => c.initSgSrcToLinearDst l sizeBytes sOff) concludeSrc hdst
  refine ⟨hresult, fun i => ?_⟩
  have hlast : ((s.cookie src).initSgSrcToLinearDst l sizeBytes sOff).concludeSrc = {} :=
    concludeSrc_last rfl
  rw [cookie, step, call]
  dsimp only
  rw [Function.update_apply]
  split_ifs with hi himpl
  · exact hcookie.trans (if_pos himpl)
  · exact hcookie.trans ((if_neg himpl).trans hlast)
  · rfl

/-- A start from linear memory that passes the check. -/
theorem startFromLinear_spec (hdst : (s.cookie dst).isDst = false) :
    s.result (.startFromLinear dst (some l) sizeBytes dOff impl) = impl ∧
    ∀ i, (s.step (.startFromLinear dst (some l) sizeBytes dOff impl)).cookie i =
      if i = dst then
        if impl = .none then (s.cookie dst).initSgDstFromLinearSrc l sizeBytes dOff else {}
      else s.cookie i := by
  obtain ⟨hresult, hcookie⟩ := @Buffer.startLinear_spec (s.heap dst) l sizeBytes impl
    (fun c l => c.initSgDstFromLinearSrc l sizeBytes dOff) concludeDst hdst
  refine ⟨hresult, fun i => ?_⟩
  rw [cookie, step, call]
  dsimp only
  rw [Function.update_apply]
  split_ifs with hi himpl
  · exact hcookie.trans (if_pos himpl)
  · exact hcookie.trans (if_neg himpl)
  · rfl

theorem startLinear_refused {off : ℕ} (h : (s.cookie i).isDst = true) :
    s.call (.startToLinear i (some l) sizeBytes off impl) = (.rbusy, s.heap) ∧
      s.call (.startFromLinear i (some l) sizeBytes off impl) = (.rbusy, s.heap) := by
  rw [cookie] at h
  have hsame : Function.update s.heap i (s.heap i) = s.heap := Function.update_eq_self _ _
  rw [call, call, Buffer.startCopyToLinear, Buffer.startCopyFromLinear,
    Buffer.startLinear_refused h, Buffer.startLinear_refused h, hsame]
  exact ⟨rfl, rfl⟩

/-- **A call that is `StepOk` keeps every cookie saying what is pending.** -/
theorem inv_step (h : Inv s) (hok : s.StepOk op) : Inv (s.step op) := by
  have hskip : ∀ t, op.ends = some t → t ∉ s.pending → Inv (s.step op) := by
    intro t hends hmem
    rw [step_eq_self_of_end hends (by simpa using mt (h.matching_iff t).1 hmem)]
    exact h
  cases op with
  | startToSg src dst sizeBytes dOff sOff impl => exact h.startToSg hok
  | startToLinear src dst sizeBytes sOff impl =>
      cases dst with
      | none => rwa [(step_null s src sizeBytes sOff impl).1]
      | some l =>
          by_cases hdst : (s.cookie src).isDst = true
          · rwa [step_eq_self_of_start rfl (startLinear_refused hdst).1 nofun]
          · have hdst : (s.cookie src).isDst = false := by simpa using hdst
            have hfree := (h.tells src).untouched hdst (hok hdst)
            obtain ⟨hresult, hcookie⟩ := @startToLinear_spec s src sizeBytes sOff l impl hdst
            exact h.startLinear rfl (fun j hj => (Txn.touches_toLinear.1 hj).symm) hfree (.inl rfl)
              (Tells.start_toLinear hfree ..) hresult hcookie
  | startFromLinear dst src sizeBytes dOff impl =>
      cases src with
      | none => rwa [(step_null s dst sizeBytes dOff impl).2]
      | some l =>
          by_cases hdst : (s.cookie dst).isDst = true
          · rwa [step_eq_self_of_start rfl (startLinear_refused hdst).2 nofun]
          · have hdst : (s.cookie dst).isDst = false := by simpa using hdst
            have hfree := (h.tells dst).untouched hdst (hok hdst)
            obtain ⟨hresult, hcookie⟩ := @startFromLinear_spec s dst sizeBytes dOff l impl hdst
            exact h.startLinear rfl (fun j hj => (Txn.touches_fromLinear.1 hj).symm) hfree
              (.inr rfl) (Tells.start_fromLinear hfree ..) hresult hcookie
  | tryEndToSg src dst impl m =>
      by_cases hmem : .toSg src dst ∈ s.pending
      · exact h.tryEndToSg hmem
      · exact hskip _ rfl hmem
  | tryEndToLinear src impl m =>
      by_cases hmem : .toLinear src ∈ s.pending
      · obtain ⟨-, n, hcookie⟩ := @tryEndToLinear_spec s src impl m ((h.matching_iff _).2 hmem)
        rw [(h.tells src).conclude_toLinear h.nodup hmem] at hcookie
        exact h.tryEndLinear rfl hmem (fun j hj => (Txn.touches_toLinear.1 hj).symm) (.inl rfl)
          ((cookie_exclusive _).2.2.1 ((h.tells src).toLinear.2 hmem)) hcookie
      · exact hskip _ rfl hmem
  | tryEndFromLinear dst impl m =>
      by_cases hmem : .fromLinear dst ∈ s.pending
      · obtain ⟨-, n, hcookie⟩ := @tryEndFromLinear_spec s dst impl m ((h.matching_iff _).2 hmem)
        have hsrc := ((cookie_exclusive (s.cookie dst)).1
          (by simp [isDst, (h.tells dst).fromLinear.2 hmem])).1
        exact h.tryEndLinear rfl hmem (fun j hj => (Txn.touches_fromLinear.1 hj).symm) (.inr rfl)
          (by simp_all [isSrc]) hcookie
      · exact hskip _ rfl hmem

/-! ## Starts that conflict -/

theorem not_conflicts_of_untouched (h : ∀ i, t.Touches i → Untouched i s.pending) :
    ¬s.Conflicts t := by
  rintro ⟨t', hmem, hno⟩
  exact hno (.inl fun i hi => h i hi t' hmem)

/-- **A `StepOk` start that would disturb a pending transaction is refused.** -/
theorem refused_of_conflicts (h : Inv s) (hok : s.StepOk op) (hstarts : op.starts = some t)
    (hconf : s.Conflicts t) : s.call op = (.rbusy, s.heap) := by
  cases op with
  | startToSg src dst sizeBytes dOff sOff impl =>
      obtain rfl := Option.some.inj hstarts
      by_contra hpass
      have hpass := mt (@startToSg_refused s src dst sizeBytes dOff sOff impl) hpass
      push Not at hpass
      obtain ⟨hdst, huse⟩ := hpass
      have hdst : (s.cookie src).isDst = false := by simpa using hdst
      have huse : (s.cookie dst).inUse = false := by simpa using huse
      obtain ⟨hne, hlin⟩ := hok hdst huse
      have hfree : Untouched dst s.pending :=
        (h.tells dst).untouched (cookie_idle huse).1 (cookie_idle huse).2
      obtain ⟨t', hmem, hno⟩ := hconf
      -- A pending transaction that uses the source's cookie serves another buffer from it.
      refine hno ?_
      by_cases htouch : t'.Touches src
      · rcases (h.tells src).part hmem htouch with ⟨-, j, rfl⟩ | ⟨hp, -⟩ | ⟨hp, -⟩ | ⟨hp, -⟩
        · refine .inr ⟨src, dst, j, ?_, rfl, rfl⟩
          rintro rfl
          exact hfree _ hmem (.inr rfl)
        · exact absurd (hlin.symm.trans hp) Bool.false_ne_true
        all_goals simp [isDst, hp] at hdst
      · refine .inl ?_
        rintro i (hs | hd)
        · obtain rfl := Option.some.inj hs
          exact htouch
        · obtain rfl := Option.some.inj hd
          exact hfree t' hmem
  | startToLinear src dst sizeBytes sOff impl =>
      cases dst with
      | none => cases hstarts
      | some l =>
          obtain rfl := Option.some.inj hstarts
          by_cases hdst : (s.cookie src).isDst = true
          · exact (startLinear_refused hdst).1
          · have hdst : (s.cookie src).isDst = false := by simpa using hdst
            refine absurd hconf (not_conflicts_of_untouched fun i hi => ?_)
            obtain rfl := Txn.touches_toLinear.1 hi
            exact (h.tells src).untouched hdst (hok hdst)
  | startFromLinear dst src sizeBytes dOff impl =>
      cases src with
      | none => cases hstarts
      | some l =>
          obtain rfl := Option.some.inj hstarts
          by_cases hdst : (s.cookie dst).isDst = true
          · exact (startLinear_refused hdst).2
          · have hdst : (s.cookie dst).isDst = false := by simpa using hdst
            refine absurd hconf (not_conflicts_of_untouched fun i hi => ?_)
            obtain rfl := Txn.touches_fromLinear.1 hi
            exact (h.tells dst).untouched hdst (hok hdst)
  | _ => cases hstarts

/-- **A call that is `StepOk` is good.** -/
theorem good_of_stepOk (h : Inv s) (hok : s.StepOk op) : s.Good op := by
  refine ⟨(inv_step h hok).sound, fun t hstarts hconf => ?_⟩
  have hcall := refused_of_conflicts h hok hstarts hconf
  exact ⟨congrArg Prod.fst hcall, step_eq_self_of_start hstarts hcall nofun⟩

/-! ## Starts that are not `StepOk` -/

theorem Inv.exists_of_isSrc (h : Inv s) (hsrc : (s.cookie i).isSrc = true) :
    ∃ t ∈ s.pending, t.source = some i := by
  have hpos := ((cookie_exclusive _).2.1 hsrc).2.2
  rw [(h.tells i).pendingDsts, List.countP_pos_iff] at hpos
  simpa using hpos

/-- Starting a copy from a buffer to itself spoils its count. -/
theorem not_good_startToSg_self (h : Inv s) (huse : (s.cookie src).inUse = false) :
    ¬s.Good (.startToSg src src sizeBytes dOff sOff impl) := by
  rintro ⟨hsound, -⟩
  have hcount := hsound.pendingDsts src
  have hpending := @pending_start s (.startToSg src src sizeBytes dOff sOff impl) _ rfl
  have hfree := (h.tells src).untouched (cookie_idle huse).1 (cookie_idle huse).2
  have hpass : ¬((s.heap src).asyncCopyCookie.isDst || (s.heap src).asyncCopyCookie.inUse) = true := by
    have := (cookie_idle huse).1
    rw [cookie] at this huse
    simp [this, huse]
  rw [hpending] at hcount
  by_cases himpl : impl = .none
  · simp [step, call, result, cookie, Heap.startCopyToSg, hpass, himpl, Heap.cookie_modifyCookie,
      initSgDstFromSgSrc, initMetadata, initStatus] at hcount
  · simp [step, call, result, cookie, Heap.startCopyToSg, hpass, himpl, Heap.cookie_modifyCookie,
      Heap.concludeBoth, concludeDst, concludeSrc, reset, hfree.notMem] at hcount

/-- **A good call is `StepOk`.** -/
theorem stepOk_of_good (h : Inv s) (hgood : s.Good op) : s.StepOk op := by
  cases op with
  | startToSg src dst sizeBytes dOff sOff impl =>
      intro hdst huse
      have hne : src ≠ dst := by
        rintro rfl
        exact not_good_startToSg_self h huse hgood
      refine ⟨hne, ?_⟩
      by_contra hlin
      have hlin : (s.cookie src).isSrcToLinear = true := by simpa using hlin
      obtain ⟨hrbusy, hsame⟩ := hgood.2 _ rfl ⟨_, (h.tells src).toLinear.1 hlin,
        Txn.not_compatible (.inl rfl) (.inl rfl) (by simp)⟩
      obtain ⟨hresult, hcookie⟩ := @startToSg_spec s src dst sizeBytes dOff sOff impl hdst huse hne
      -- The start has turned the source's cookie to buffers, whatever the implementation said.
      have hsrc := hcookie src
      rw [hsame, if_neg hne, if_pos rfl, if_neg (by rw [← hresult, hrbusy]; exact (by simp))] at hsrc
      have hpos := ((cookie_exclusive (s.cookie src)).2.1 (by simp [isSrc, hlin])).2.2
      have hmore : 1 < (s.cookie src).initSgSrcToSgDst.pendingDsts := Nat.succ_lt_succ hpos
      rw [concludeSrc_more hmore] at hsrc
      rw [hsrc] at hlin
      simp [isSrcToLinear, initSgSrcToSgDst, initStatus] at hlin
  | startToLinear src dst sizeBytes sOff impl =>
      cases dst with
      | none => trivial
      | some l =>
          intro hdst
          by_contra hsrc
          obtain ⟨t, hmem, ht⟩ := h.exists_of_isSrc (by simpa using hsrc)
          obtain ⟨hrbusy, hsame⟩ := hgood.2 _ rfl
            ⟨t, hmem, Txn.not_compatible (.inl rfl) (.inl ht) (by simp)⟩
          obtain ⟨hresult, hcookie⟩ := @startToLinear_spec s src sizeBytes sOff l impl hdst
          have hreset := hcookie src
          rw [hsame, if_pos rfl, if_neg (by rw [← hresult, hrbusy]; exact (by simp))] at hreset
          exact hsrc (hreset ▸ rfl)
  | startFromLinear dst src sizeBytes dOff impl =>
      cases src with
      | none => trivial
      | some l =>
          intro hdst
          by_contra hsrc
          obtain ⟨t, hmem, ht⟩ := h.exists_of_isSrc (by simpa using hsrc)
          obtain ⟨hrbusy, hsame⟩ := hgood.2 _ rfl
            ⟨t, hmem, Txn.not_compatible (.inr rfl) (.inl ht) (by simp)⟩
          obtain ⟨hresult, hcookie⟩ := @startFromLinear_spec s dst sizeBytes dOff l impl hdst
          have hreset := hcookie dst
          rw [hsame, if_pos rfl, if_neg (by rw [← hresult, hrbusy]; exact (by simp))] at hreset
          exact hsrc (hreset ▸ rfl)
  | _ => trivial

/-! ## Runs -/

/-- **When the transactions of a run can rely on each other.** From cookies that have not been used,
the calls of a run are all good if and only if they are all `StepOk`. -/
theorem async_iff {h : Heap} (hh : ∀ i, (h i).asyncCopyCookie = {}) (ops : List AsyncOp) :
    AllOk step Good ⟨h, []⟩ ops ↔ AllOk step StepOk ⟨h, []⟩ ops :=
  (@allOk_congr _ _ step StepOk Good Inv (fun _ _ => inv_step)
    (fun _ _ hs => ⟨good_of_stepOk hs, stepOk_of_good hs⟩) ops _ (inv_init hh)).symm

/-- Buffers that have just been initialised. -/
def freshHeap : Heap := fun _ => { maxChainLength := 4 }

/-- Two copies from buffer 0 to other buffers, one of which ends. -/
theorem async_twoDsts :
    AllOk step Good ⟨freshHeap, []⟩
      [.startToSg 0 1 8 0 0 .none, .startToSg 0 2 8 0 0 .none,
        .tryEndToSg 0 1 (fun _ _ m => ⟨.none, 8, m⟩) UInt8.ofNat] :=
  (async_iff (fun _ => rfl) _).2
    ⟨fun _ _ => ⟨by decide, rfl⟩, fun _ _ => ⟨by decide, rfl⟩, trivial, trivial⟩

/-- **A copy from buffer 0 to linear memory is started while one to buffer 1 is pending.** Both
starts return `NONE`, and the first copy can no longer be concluded. -/
theorem async_broken :
    ¬AllOk step Good ⟨freshHeap, []⟩
      [.startToSg 0 1 8 0 0 .none, .startToLinear 0 (some 4096) 8 0 .none] ∧
    let s := step ⟨freshHeap, []⟩ (.startToSg 0 1 8 0 0 .none)
    let s' := step s (.startToLinear 0 (some 4096) 8 0 .none)
    s.result (.startToLinear 0 (some 4096) 8 0 .none) = .none ∧
      s'.pending = [.toLinear 0, .toSg 0 1] ∧
      (s'.cookie 0).pendingDsts = 1 ∧
      s'.result (.tryEndToSg 0 1 (fun _ _ m => ⟨.none, 8, m⟩) UInt8.ofNat) = .exist := by
  refine ⟨fun hall => ?_, rfl, rfl, rfl, rfl⟩
  have hcount := hall.2.1.1.pendingDsts 0
  revert hcount
  decide

end AsyncSys

end Vml
