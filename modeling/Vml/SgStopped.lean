import Vml.SgHooks

/-!
# Copies that stop early

A copy stops with `PERM` at a descriptor it must not write, and with `BADR` when a hook fails. What
has been copied until then is a list of pieces, one for each call of the bulk copier (`Piece`). They
follow one another from the start of the request (`Tiles`), each lies inside one descriptor on
either side, and its host addresses are what the translations of that descriptor returned.

**The last piece.** When a post hook fails the bytes of its chunk are copied but not counted. They
too belong to the request.

Main result: `Hooked.stopped_soundly`: for any buffers, requests and hooks the count is at most the
size of the request, and the bytes counted are copied to where they belong, no byte outside the
request is, and no descriptor that is read-only for the device is written.
-/

namespace Vml

/-! ## Pieces -/

/-- A call of the bulk copier: `size` bytes from position `pos` of the request on, to the host
address `dst` from the host address `src`. -/
structure Piece where
  pos : ℕ
  size : ℕ
  dst : ℕ
  src : ℕ

/-- The pieces follow one another from position `p` to position `q`. -/
def Tiles : List Piece → ℕ → ℕ → Prop
  | [], p, q => p = q
  | c :: cs, p, q => c.pos = p ∧ Tiles cs (p + c.size) q

/-- What the pieces make of the memory. -/
def copyPieces (copier : BulkCopier) (pieces : List Piece) (m : Mem) : Mem :=
  pieces.foldl (fun m c => copier m c.dst c.src c.size) m

/-- No byte of memory is the destination of two pieces, or the destination of one and the source of
one. -/
def Apart (pieces : List Piece) : Prop :=
  pieces.Pairwise (fun c c' => ∀ i < c.size, ∀ j < c'.size, c.dst + i ≠ c'.dst + j) ∧
  ∀ c ∈ pieces, ∀ c' ∈ pieces, ∀ i < c.size, ∀ j < c'.size, c.dst + i ≠ c'.src + j

theorem copyPieces_frame {pieces : List Piece} {m : Mem} {a : ℕ}
    (h : ∀ c ∈ pieces, ∀ j < c.size, c.dst + j ≠ a) :
    copyPieces memcpy pieces m a = m a := by
  induction pieces generalizing m with
  | nil => rfl
  | cons c cs ih =>
      have hrest : copyPieces memcpy cs (memcpy m c.dst c.src c.size) a =
          memcpy m c.dst c.src c.size a := ih fun c' hc' => h c' (List.mem_cons_of_mem _ hc')
      refine hrest.trans (if_neg fun hin => h c List.mem_cons_self (a - c.dst) (by omega) ?_)
      omega

/-- **Pieces that are apart are copied.** -/
theorem copyPieces_copied {pieces : List Piece} {m : Mem} (h : Apart pieces) {c : Piece}
    (hc : c ∈ pieces) {j : ℕ} (hj : j < c.size) :
    copyPieces memcpy pieces m (c.dst + j) = m (c.src + j) := by
  induction pieces generalizing m with
  | nil => cases hc
  | cons first cs ih =>
      obtain ⟨hpairwise, hsrc⟩ := h
      obtain ⟨hfirst, hrest⟩ := List.pairwise_cons.1 hpairwise
      have hapart : Apart cs := ⟨hrest, fun c hc c' hc' =>
        hsrc c (List.mem_cons_of_mem _ hc) c' (List.mem_cons_of_mem _ hc')⟩
      show copyPieces memcpy cs (memcpy m first.dst first.src first.size) (c.dst + j) = _
      rcases List.mem_cons.1 hc with rfl | hmem
      · -- no later piece is copied over this one
        rw [copyPieces_frame fun c' hc' i hi heq => hfirst c' hc' j hj i hi heq.symm, memcpy,
          if_pos (by omega), Nat.add_sub_cancel_left]
      · rw [ih hapart hmem]
        refine if_neg fun hin => hsrc first List.mem_cons_self c hc (c.src + j - first.dst)
          (by omega) j hj ?_
        omega

/-! ## Cursors -/

namespace Buffer

/-- The cursor `c`, unless it is at the end, is at position `p` of the payload. -/
structure Reaches (b : Buffer) (p : ℕ) (c : ℕ × ℕ) : Prop where
  le : c.1 ≤ b.active
  pos : c.1 < b.active → b.descOffset c.1 + c.2 = p ∧ c.2 ≤ b.len c.1

variable {b : Buffer} {p n off : ℕ} {c : ℕ × ℕ}

theorem Reaches.advance (h : b.Reaches p c) (hc : c.1 < b.active) (hn : c.2 + n ≤ b.len c.1) :
    b.Reaches (p + n) (b.advance c.1 c.2 n) := by
  obtain ⟨hpos, -⟩ := h.pos hc
  unfold Buffer.advance
  split_ifs with hend
  · refine ⟨hc, fun _ => ⟨?_, Nat.zero_le _⟩⟩
    rw [descOffset, offsetOf_succ, ← descOffset]
    omega
  · refine ⟨h.le, fun _ => ⟨?_, hn⟩⟩
    show b.descOffset c.1 + (c.2 + n) = p + n
    omega

theorem reaches_findLoop {left it cur : ℕ} (hleft : it + left = b.active)
    (hcur : cur = b.descOffset it) (hle : cur ≤ off) :
    (b.findLoop off left it cur).1 = b.active ∨ b.Reaches off (b.findLoop off left it cur) := by
  induction left generalizing it cur with
  | zero => exact .inl (by rw [findLoop]; omega)
  | succ left ih =>
      rw [findLoop]
      split_ifs with hin
      · refine .inr ⟨by show it ≤ b.active; omega, fun _ => ⟨?_, ?_⟩⟩
        · show b.descOffset it + (off - cur) = off
          omega
        · show off - cur ≤ b.len it
          omega
      · refine ih (by omega) ?_ (by omega)
        rw [hcur, descOffset, descOffset, offsetOf_succ]

/-- **Where a request starts that passes the checks**, whatever the buffer. -/
theorem reaches_checkCopyConfiguration (h : (b.checkCopyConfiguration n off).1 = .none) :
    b.Reaches off (b.checkCopyConfiguration n off).2 := by
  rw [checkCopyConfiguration] at h ⊢
  dsimp only at h ⊢
  split_ifs at h ⊢ with hoff hsize hsum hend
  rw [find] at hend ⊢
  split_ifs at hend ⊢ with hlt hzero
  · exact absurd rfl hend
  · subst hzero
    exact ⟨Nat.zero_le _, fun _ => ⟨rfl, Nat.zero_le _⟩⟩
  · exact (reaches_findLoop (Nat.zero_add _) rfl (Nat.zero_le _)).resolve_left hend

end Buffer

namespace Hooked

variable {ω χ : Type} {b dst src : Buffer} {hooks dHooks sHooks : ChainHooks ω}
  {copier : BulkCopier} {w : CopyWorld ω}

/-! ## Chunks -/

/-- The chunks follow one another from position `p` of the request, where they should, and do not go
beyond position `n`. -/
def Fits (size : χ → ℕ) (isAt : χ → ℕ → Prop) : List χ → (p n : ℕ) → Prop
  | [], p, n => p ≤ n
  | c :: cs, p, n => isAt c p ∧ Fits size isAt cs (p + size c) n

theorem Fits.le {size : χ → ℕ} {isAt : χ → ℕ → Prop} {cs : List χ} {p n : ℕ}
    (h : Fits size isAt cs p n) : p ≤ n := by
  induction cs generalizing p with
  | nil => exact h
  | cons c cs ih => exact (Nat.le_add_right _ _).trans (ih h.2)

/-- The cursor `c` is at position `p` of the payload, with `n` bytes of its descriptor before it. -/
structure ChunkAt (b : Buffer) (p : ℕ) (c : ℕ × ℕ) (n : ℕ) : Prop where
  lt : c.1 < b.active
  pos : b.descOffset c.1 + c.2 = p
  le : c.2 + n ≤ b.len c.1

/-- The chunks between buffers are where they should be. -/
theorem fits_sgChunks {dOff sOff : ℕ} {fuel rem p n : ℕ} {d s : ℕ × ℕ}
    (hd : dst.Reaches (dOff + p) d) (hs : src.Reaches (sOff + p) s) (hn : p + rem ≤ n) :
    Fits SgChunk.size (fun c p => ChunkAt dst (dOff + p) c.dst c.size ∧
      ChunkAt src (sOff + p) c.src c.size) (sgChunks dst src fuel rem d s) p n := by
  induction fuel generalizing rem p d s with
  | zero => exact (Nat.le_add_right _ _).trans hn
  | succ fuel ih =>
      rw [sgChunks]
      split_ifs with hend
      · exact (Nat.le_add_right _ _).trans hn
      · push Not at hend
        obtain ⟨-, hdend, hsend⟩ := hend
        have hdlt : d.1 < dst.active := lt_of_le_of_ne hd.le hdend
        have hslt : s.1 < src.active := lt_of_le_of_ne hs.le hsend
        obtain ⟨hdpos, hdle⟩ := hd.pos hdlt
        obtain ⟨hspos, hsle⟩ := hs.pos hslt
        obtain ⟨k, hk⟩ : ∃ k, k = min rem (min (src.len s.1 - s.2) (dst.len d.1 - d.2)) := ⟨_, rfl⟩
        have hdk : d.2 + k ≤ dst.len d.1 := by omega
        have hsk : s.2 + k ≤ src.len s.1 := by omega
        dsimp only
        rw [← hk]
        refine ⟨⟨⟨hdlt, hdpos, hdk⟩, ⟨hslt, hspos, hsk⟩⟩, ih ?_ ?_ ?_⟩
        · exact Nat.add_assoc dOff p k ▸ hd.advance hdlt hdk
        · exact Nat.add_assoc sOff p k ▸ hs.advance hslt hsk
        · show p + k + (rem - k) ≤ n
          omega

/-- The chunks to or from linear memory are where they should be. -/
theorem fits_linearChunks {off l : ℕ} {left it sgOff rem p n : ℕ} (hleft : it + left = b.active)
    (hit : rem ≠ 0 → b.Reaches (off + p) (it, sgOff)) (hn : p + rem ≤ n) :
    Fits LinearChunk.size (fun c p => ChunkAt b (off + p) c.sg c.size ∧ c.linear = l + p)
      (linearChunks b left it sgOff rem (l + p)) p n := by
  induction left generalizing it sgOff rem p with
  | zero => exact (Nat.le_add_right _ _).trans hn
  | succ left ih =>
      rw [linearChunks]
      split_ifs with hend
      · exact (Nat.le_add_right _ _).trans hn
      · have hlt : it < b.active := by omega
        obtain ⟨hpos, hle⟩ := (hit hend).pos hlt
        dsimp only at hpos hle
        obtain ⟨k, hk⟩ : ∃ k, k = min (b.len it - sgOff) rem := ⟨_, rfl⟩
        dsimp only
        rw [← hk]
        refine ⟨⟨⟨hlt, hpos, ?_⟩, rfl⟩, ?_⟩
        · show sgOff + k ≤ b.len it
          omega
        · rw [Nat.add_assoc]
          refine ih (by omega) (fun hrem => ⟨by show it + 1 ≤ b.active; omega, fun _ => ?_⟩) ?_
          · dsimp only
            rw [Buffer.descOffset, offsetOf_succ, ← Buffer.descOffset]
            refine ⟨?_, Nat.zero_le _⟩
            have hlen : offsetOf b.len it = b.descOffset it := rfl
            show b.descOffset it + b.len it + 0 = off + (p + k)
            omega
          · show p + k + (rem - k) ≤ n
            omega

/-- **What a run of chunks has copied when it ends**, wherever it ends: pieces from where it starts,
of which one may not be counted. -/
theorem pieces_of_runChunks {size : χ → ℕ} {readOnly : χ → Bool}
    {copy : χ → CopyWorld ω → Errno × CopyWorld ω} {isAt : χ → ℕ → Prop}
    {good : Piece → List HookCall → Prop} (hmono : ∀ c s t, good c s → good c (s ++ t))
    (hcopy : ∀ c p w, isAt c p → readOnly c = false → ∃ t, (copy c w).2.calls = w.calls ++ t ∧
      ((copy c w).1 ≠ .none ∧ (copy c w).2.mem = w.mem ∨
        ∃ d s, (copy c w).2.mem = copier w.mem d s (size c) ∧
          good ⟨p, size c, d, s⟩ (w.calls ++ t)))
    {cs : List χ} {p n : ℕ} (w : CopyWorld ω) (h : Fits size isAt cs p n) :
    let r := runChunks size readOnly copy cs p w
    ∃ t pieces total, r.world.calls = w.calls ++ t ∧ Tiles pieces p total ∧
      r.bytesCopied ≤ total ∧ total ≤ n ∧ (∀ c ∈ pieces, good c r.world.calls) ∧
      r.world.mem = copyPieces copier pieces w.mem := by
  induction cs generalizing p w with
  | nil => exact ⟨[], [], p, (List.append_nil _).symm, rfl, le_rfl, h, nofun, rfl⟩
  | cons c cs ih =>
      obtain ⟨hat, hrest⟩ := h
      have hle := hrest.le
      dsimp only
      rw [runChunks]
      by_cases hread : readOnly c = true
      · rw [if_pos hread]
        exact ⟨[], [], p, (List.append_nil _).symm, rfl, le_rfl, by omega, nofun, rfl⟩
      rw [if_neg hread]
      obtain ⟨t, ht, hmem⟩ := hcopy c p w hat (Bool.eq_false_iff.2 hread)
      by_cases herr : (copy c w).1 = .none
      · -- the chunk is counted, and the run goes on
        dsimp only
        rw [if_neg (not_not.2 herr)]
        obtain ⟨d, s, hmem, hgood⟩ := hmem.resolve_left fun hfail => hfail.1 herr
        obtain ⟨t', pieces, total, hcalls, htiles, hcount, htotal, hpieces, hmem'⟩ :=
          ih (copy c w).2 hrest
        refine ⟨t ++ t', ⟨p, size c, d, s⟩ :: pieces, total, ?_, ⟨rfl, htiles⟩, hcount, htotal,
          fun c' hc' => ?_, ?_⟩
        · rw [hcalls, ht, List.append_assoc]
        · rcases List.mem_cons.1 hc' with rfl | hc'
          · rw [hcalls, ht]
            exact hmono _ _ _ hgood
          · exact hpieces c' hc'
        · rw [hmem', hmem]
          rfl
      · dsimp only
        rw [if_pos herr]
        obtain ⟨-, hmem⟩ | ⟨d, s, hmem, hgood⟩ := hmem
        · exact ⟨t, [], p, ht, rfl, le_rfl, by omega, nofun, hmem⟩
        · -- the post hook has failed, and the bytes of the chunk are not counted
          refine ⟨t, [⟨p, size c, d, s⟩], p + size c, ht, ⟨rfl, rfl⟩, Nat.le_add_right _ _, hle,
            fun c' hc' => ?_, hmem⟩
          obtain rfl := List.mem_singleton.1 hc'
          rw [ht]
          exact hgood

end Hooked

/-! ## Pieces of a buffer -/

/-- The piece is translated from inside one descriptor, at position `off` of the payload and its
own position in the request. -/
def Piece.Translated (c : Piece) (parity : Parity) (b : Buffer) (off hva : ℕ)
    (calls : List HookCall) : Prop :=
  ∃ it, Hooked.ChunkAt b (off + c.pos) it c.size ∧
    (parity = .write → b.shouldOnlyRead (b.descChain it.1).flags = false) ∧
    .toHva parity (Hooked.vqaAt b it) c.size .none hva ∈ calls

/-- The piece is written where it should be: into one descriptor of the buffer, from position `off`
of the payload on, which the device may write. -/
def Piece.IntoSg (c : Piece) (b : Buffer) (off : ℕ) (calls : List HookCall) : Prop :=
  c.Translated .write b off c.dst calls

/-- The piece is read where it should be. -/
def Piece.OutOfSg (c : Piece) (b : Buffer) (off : ℕ) (calls : List HookCall) : Prop :=
  c.Translated .read b off c.src calls

theorem Piece.Translated.append {c : Piece} {parity : Parity} {b : Buffer} {off hva : ℕ}
    {s t : List HookCall} (h : c.Translated parity b off hva s) :
    c.Translated parity b off hva (s ++ t) := by
  obtain ⟨it, hat, hwrite, hcall⟩ := h
  exact ⟨it, hat, hwrite, List.mem_append_left _ hcall⟩

/-- A copy of `n` bytes has counted `k` of them. What it has copied are pieces that follow one
another from the start of the request, past the bytes that are counted but not past the request;
each of them is `good`. -/
def PartialCopy (copier : BulkCopier) (good : Piece → Prop) (n k : ℕ) (m m' : Mem) : Prop :=
  ∃ pieces total, Tiles pieces 0 total ∧ k ≤ total ∧ total ≤ n ∧ (∀ c ∈ pieces, good c) ∧
    m' = copyPieces copier pieces m ∧
    (copier = memcpy →
      (∀ a, (∀ c ∈ pieces, ∀ j < c.size, c.dst + j ≠ a) → m' a = m a) ∧
      (Apart pieces → ∀ c ∈ pieces, ∀ j < c.size, m' (c.dst + j) = m (c.src + j)))

namespace Hooked

variable {ω χ : Type} {b dst src : Buffer} {hooks dHooks sHooks : ChainHooks ω}
  {copier : BulkCopier}

/-- A run of chunks is a partial copy of the request. -/
theorem partialCopy_of_runChunks {size : χ → ℕ} {readOnly : χ → Bool}
    {copy : χ → CopyWorld ω → Errno × CopyWorld ω} {isAt : χ → ℕ → Prop}
    {good : Piece → List HookCall → Prop} (hmono : ∀ c s t, good c s → good c (s ++ t))
    (hcopy : ∀ c p w, isAt c p → readOnly c = false → ∃ t, (copy c w).2.calls = w.calls ++ t ∧
      ((copy c w).1 ≠ .none ∧ (copy c w).2.mem = w.mem ∨
        ∃ d s, (copy c w).2.mem = copier w.mem d s (size c) ∧
          good ⟨p, size c, d, s⟩ (w.calls ++ t)))
    {cs : List χ} {n : ℕ} (w : CopyWorld ω) (h : Fits size isAt cs 0 n) :
    let r := runChunks size readOnly copy cs 0 w
    r.bytesCopied ≤ n ∧
      PartialCopy copier (fun c => good c r.world.calls) n r.bytesCopied w.mem r.world.mem := by
  obtain ⟨t, pieces, total, -, htiles, hcount, htotal, hgood, hmem⟩ :=
    pieces_of_runChunks hmono hcopy w h
  refine ⟨hcount.trans htotal, pieces, total, htiles, hcount, htotal, hgood, hmem, ?_⟩
  rintro rfl
  rw [hmem]
  exact ⟨fun a ha => copyPieces_frame ha, fun hapart c hc j hj => copyPieces_copied hapart hc hj⟩

theorem partialCopy_sg {dOff sOff n : ℕ} {cs : List SgChunk} {w : CopyWorld ω}
    (h : Fits SgChunk.size (fun c p => ChunkAt dst (dOff + p) c.dst c.size ∧
      ChunkAt src (sOff + p) c.src c.size) cs 0 n) :
    let r := runSgChunks dst src dHooks sHooks copier cs 0 w
    r.bytesCopied ≤ n ∧ PartialCopy copier
      (fun c => c.IntoSg dst dOff r.world.calls ∧ c.OutOfSg src sOff r.world.calls) n r.bytesCopied
      w.mem r.world.mem := by
  refine @partialCopy_of_runChunks ω SgChunk copier _ _ _ _
    (fun c calls => c.IntoSg dst dOff calls ∧ c.OutOfSg src sOff calls)
    (fun c s t hgood => ⟨hgood.1.append, hgood.2.append⟩) (fun c p w hat hwrite => ?_) cs n w h
  obtain ⟨hd', heq⟩ | ⟨hd', hs', heq⟩ | ⟨hd', hs', hr', heq⟩ | ⟨hd', hs', hr', heq⟩ :=
    @copyBetweenVqa_cases ω dHooks sHooks copier w (vqaAt dst c.dst) (vqaAt src c.src) c.size
      _ _ _ _ rfl rfl rfl rfl
  · rw [copySgChunk, heq]
    exact ⟨_, rfl, .inl ⟨hd', rfl⟩⟩
  · rw [copySgChunk, heq]
    exact ⟨_, rfl, .inl ⟨hs', rfl⟩⟩
  · rw [copySgChunk, heq]
    refine ⟨_, rfl, .inr ⟨_, _, rfl, ⟨c.dst, hat.1, fun _ => hwrite, ?_⟩,
      ⟨c.src, hat.2, nofun, ?_⟩⟩⟩
    · exact List.mem_append_right _ List.mem_cons_self
    · exact List.mem_append_right _ (List.mem_cons_of_mem _ List.mem_cons_self)
  · rw [copySgChunk, heq]
    refine ⟨_, rfl, .inr ⟨_, _, rfl, ⟨c.dst, hat.1, fun _ => hwrite, ?_⟩,
      ⟨c.src, hat.2, nofun, ?_⟩⟩⟩
    · exact List.mem_append_right _ List.mem_cons_self
    · exact List.mem_append_right _ (List.mem_cons_of_mem _ List.mem_cons_self)

theorem partialCopy_toLinear {off l n : ℕ} {cs : List LinearChunk} {w : CopyWorld ω}
    (h : Fits LinearChunk.size (fun c p => ChunkAt b (off + p) c.sg c.size ∧ c.linear = l + p) cs 0
      n) :
    let r := runLinearChunks false b hooks copier cs 0 w
    r.bytesCopied ≤ n ∧ PartialCopy copier
      (fun c => c.dst = l + c.pos ∧ c.OutOfSg b off r.world.calls) n r.bytesCopied w.mem
      r.world.mem := by
  refine @partialCopy_of_runChunks ω LinearChunk copier _ _ _ _
    (fun c calls => c.dst = l + c.pos ∧ c.OutOfSg b off calls)
    (fun c s t hgood => ⟨hgood.1, hgood.2.append⟩) (fun c p w hat _ => ?_) cs n w h
  obtain ⟨ht, heq⟩ | ⟨ht, heq⟩ :=
    @copyLinearChunk_cases ω b hooks copier w false c .read _ _ _ _ rfl rfl rfl rfl rfl
  · rw [heq]
    exact ⟨_, rfl, .inl ⟨ht, rfl⟩⟩
  · rw [heq]
    refine ⟨_, rfl, .inr ⟨_, _, rfl, hat.2, ⟨c.sg, hat.1, nofun, ?_⟩⟩⟩
    exact List.mem_append_right _ List.mem_cons_self

theorem partialCopy_fromLinear {off l n : ℕ} {cs : List LinearChunk} {w : CopyWorld ω}
    (h : Fits LinearChunk.size (fun c p => ChunkAt b (off + p) c.sg c.size ∧ c.linear = l + p) cs 0
      n) :
    let r := runLinearChunks true b hooks copier cs 0 w
    r.bytesCopied ≤ n ∧ PartialCopy copier
      (fun c => c.IntoSg b off r.world.calls ∧ c.src = l + c.pos) n r.bytesCopied w.mem
      r.world.mem := by
  refine @partialCopy_of_runChunks ω LinearChunk copier _ _ _ _
    (fun c calls => c.IntoSg b off calls ∧ c.src = l + c.pos)
    (fun c s t hgood => ⟨hgood.1.append, hgood.2⟩) (fun c p w hat hwrite => ?_) cs n w h
  obtain ⟨ht, heq⟩ | ⟨ht, heq⟩ :=
    @copyLinearChunk_cases ω b hooks copier w true c .write _ _ _ _ rfl rfl rfl rfl rfl
  · rw [heq]
    exact ⟨_, rfl, .inl ⟨ht, rfl⟩⟩
  · rw [heq]
    refine ⟨_, rfl, .inr ⟨_, _, rfl, ⟨c.sg, hat.1, fun _ => hwrite, ?_⟩, hat.2⟩⟩
    exact List.mem_append_right _ List.mem_cons_self

/-! ## Whole copies -/

theorem fits_toSgPlan (h : Heap) (i j : BufId) (n dOff sOff : ℕ) :
    Fits SgChunk.size (fun c p => ChunkAt (h j) (dOff + p) c.dst c.size ∧
      ChunkAt (h i) (sOff + p) c.src c.size) (toSgPlan h i j n dOff sOff) 0 n := by
  rw [toSgPlan, sgRequest]
  split_ifs with hbusy hcheck
  · exact Nat.zero_le n
  · exact Nat.zero_le n
  · push Not at hcheck
    exact fits_sgChunks (Buffer.reaches_checkCopyConfiguration hcheck.1)
      (Buffer.reaches_checkCopyConfiguration hcheck.2) (Nat.zero_add n).le

theorem fits_linearPlan (b : Buffer) (n off l : ℕ) :
    Fits LinearChunk.size (fun c p => ChunkAt b (off + p) c.sg c.size ∧ c.linear = l + p)
      (linearPlan b n off l) 0 n := by
  rw [linearPlan, linearRequest]
  split_ifs with hbusy hcheck
  · exact Nat.zero_le n
  · exact Nat.zero_le n
  · rw [not_not] at hcheck
    have hreach := Buffer.reaches_checkCopyConfiguration hcheck
    exact fits_linearChunks (l := l) (p := 0) (Nat.add_sub_cancel' hreach.le) (fun _ => hreach)
      (Nat.zero_add n).le

/-- **A copy that stops early has stopped soundly.** For any buffers, requests, copiers and hooks,
if a copy stops with `PERM` or `BADR`: the count is at most the size of the request; what has been
copied are pieces that cover the bytes counted, each from and to the translated address of its
position in the payload (or the linear address of its position in the request), none of them past
the request, and none into a descriptor that is read-only for the device. With the default copier
no other byte of memory changes, and if the pieces are apart the bytes are those of the source. -/
theorem stopped_soundly (h : Heap) (i j : BufId) (b : Buffer) (dHooks sHooks : ChainHooks ω)
    (n dOff sOff l : ℕ) (copier : Option BulkCopier) (m : Mem) (x : ω) :
    (let r := copyToSg h i j dHooks sHooks n dOff sOff copier ⟨m, x, []⟩
     r.err = .perm ∨ r.err = .badr → r.bytesCopied ≤ n ∧
      PartialCopy (copier.getD bulkCopierDefault) (fun c => c.IntoSg (h j) dOff r.state.2.calls ∧
        c.OutOfSg (h i) sOff r.state.2.calls) n r.bytesCopied m r.mem) ∧
    (let r := copyToLinear b (some l) sHooks n sOff copier ⟨m, x, []⟩
     r.err = .perm ∨ r.err = .badr → r.bytesCopied ≤ n ∧
      PartialCopy (copier.getD bulkCopierDefault) (fun c => c.dst = l + c.pos ∧
        c.OutOfSg b sOff r.state.2.calls) n r.bytesCopied m r.mem) ∧
    (let r := copyFromLinear b (some l) dHooks n dOff copier ⟨m, x, []⟩
     r.err = .perm ∨ r.err = .badr → r.bytesCopied ≤ n ∧
      PartialCopy (copier.getD bulkCopierDefault) (fun c => c.IntoSg b dOff r.state.2.calls ∧
        c.src = l + c.pos) n r.bytesCopied m r.mem) := by
  refine ⟨fun herr => ?_, fun herr => ?_, fun herr => ?_⟩
  · have hfollows := @copyToSg_follows ω dHooks sHooks ⟨m, x, []⟩ h i j copier n dOff sOff
    rw [hfollows.world, hfollows.mem, (hfollows.failed herr).2]
    exact partialCopy_sg (w := ⟨m, x, []⟩) (fits_toSgPlan h i j n dOff sOff)
  · have hfollows := @copyToLinear_follows ω b sHooks ⟨m, x, []⟩ copier l n sOff
    rw [hfollows.world, hfollows.mem, (hfollows.failed herr).2]
    exact partialCopy_toLinear (w := ⟨m, x, []⟩) (fits_linearPlan b n sOff l)
  · have hfollows := @copyFromLinear_follows ω b dHooks ⟨m, x, []⟩ copier l n dOff
    rw [hfollows.world, hfollows.mem, (hfollows.failed herr).2]
    exact partialCopy_fromLinear (w := ⟨m, x, []⟩) (fits_linearPlan b n dOff l)

/-- Four bytes at 16 and four at 4096, which a device may write. The latter are not mapped. -/
def fourAndFour : Buffer where
  maxChainLength := 2
  activeChainLength := 2
  sizeBytes := 8
  completeChain := true
  chainForDevice := true
  seenWritableDesc := true
  firstWritableDesc := 0
  descChain i := if i = 0 then ⟨16, 4, 3, 1⟩ else ⟨4096, 4, 2, 2⟩

/-- Six bytes from linear memory: the first four are copied before the second translation fails. -/
theorem stopped_soundly_fourAndFour :
    ∃ calls m', copyFromLinear fourAndFour (some 64) .lowMemory 6 0 none
        ⟨UInt8.ofNat, (), []⟩ =
      ⟨.badr, 4, (fourAndFour.heuristicallyTrackWrittenBytes 0 4, ⟨m', (), calls⟩), m'⟩ ∧
    PartialCopy memcpy (fun c => c.IntoSg fourAndFour 0 calls ∧ c.src = 64 + c.pos) 6 4
      UInt8.ofNat m' :=
  ⟨_, _, rfl, ((stopped_soundly (fun _ => fourAndFour) 0 1 fourAndFour .lowMemory .lowMemory 6 0 0
    64 none UInt8.ofNat ()).2.2 (.inr rfl)).2⟩

end Hooked

end Vml
