import Vml.SgTransaction

/-!
# Copies are flat

Three loops walk one or two fragmentations in chunks that stay inside a descriptor. `At b p c` says
that the cursor `c` of such a loop stands at position `p` of the payload; `find` establishes it and
`advance` keeps it. Since every chunk is one `memcpy` between translated addresses, a loop performs
a `Copied` of everything it was asked for, whatever the fragmentations.

* `copySgLoop_spec`, `copyLinearLoop_spec`: what the loops do, by induction on the turns left.
* `copies_flat`: `copy_to_sg`, `copy_from_linear` and `copy_to_linear` each return `NONE` with the
  full count, and replace exactly the requested bytes of the destination's payload.
-/

namespace Vml

namespace Buffer

/-! ## Cursors -/

/-- The cursor `c`, a descriptor and an offset in it, is at position `p` of the payload. -/
structure At (b : Buffer) (p : ℕ) (c : ℕ × ℕ) : Prop where
  pos : b.descOffset c.1 + c.2 = p
  lt : c.1 < b.active → c.2 < b.len c.1
  le : c.1 ≤ b.active

section At

variable {b : Buffer} {p n off : ℕ} {c : ℕ × ℕ}

theorem At.lt_active (h : b.At p c) (hb : b.Recorded) (hp : p < b.sizeBytes) : c.1 < b.active := by
  refine lt_of_le_of_ne h.le fun heq => ?_
  have hpos := h.pos
  have hsize := hb.size_eq
  rw [heq] at hpos
  omega

/-- **Moving on inside a descriptor, or to its end, keeps the cursor in step.** -/
theorem At.advance (h : b.At p c) (hb : b.WellFormed) (hc : c.1 < b.active)
    (hn : c.2 + n ≤ b.len c.1) : b.At (p + n) (b.advance c.1 c.2 n) := by
  have hpos := h.pos
  unfold Buffer.advance
  split_ifs with hend
  · exact {
      pos := by
        rw [descOffset, offsetOf_succ, ← descOffset]
        omega
      lt := fun hlt => hb.len_pos _ hlt
      le := hc }
  · exact {
      pos := by
        show b.descOffset c.1 + (c.2 + n) = p + n
        omega
      lt := fun _ => lt_of_le_of_ne hn hend
      le := h.le }

theorem advance_fst (b : Buffer) (it off n : ℕ) :
    (b.advance it off n).1 = if off + n = b.len it then it + 1 else it := by
  unfold Buffer.advance
  split_ifs <;> rfl

/-- The loop of `find` keeps `cur_off` at the start of descriptor `it`. -/
theorem at_findLoop {left it cur : ℕ} (hleft : it + left = b.active) (hcur : cur = b.descOffset it)
    (hle : cur ≤ off) (hoff : off < b.descOffset b.active) :
    b.At off (b.findLoop off left it cur) ∧ (b.findLoop off left it cur).1 < b.active := by
  induction left generalizing it cur with
  | zero =>
      obtain rfl : it = b.active := by omega
      omega
  | succ left ih =>
      rw [findLoop]
      split_ifs with hin
      · refine ⟨⟨?_, fun _ => ?_, ?_⟩, ?_⟩
        · show b.descOffset it + (off - cur) = off
          omega
        · show off - cur < b.len it
          omega
        · show it ≤ b.active
          omega
        · show it < b.active
          omega
      · refine ih (by omega) ?_ (by omega)
        rw [hcur, descOffset, descOffset, offsetOf_succ]

/-- **`find` finds the descriptor of any offset inside the payload.** -/
theorem at_find (hb : b.WellFormed) (hoff : off < b.sizeBytes) :
    b.At off (b.find off) ∧ (b.find off).1 < b.active := by
  have hlt : off < b.descOffset b.active := hb.size_eq ▸ hoff
  unfold find
  rw [if_neg (by omega)]
  split_ifs with h0
  · have hpos : 0 < b.active := by
      by_contra hz
      rw [Nat.eq_zero_of_not_pos hz, descOffset, offsetOf_zero] at hlt
      omega
    subst h0
    exact ⟨⟨rfl, fun h => hb.len_pos 0 h, Nat.zero_le _⟩, hpos⟩
  · exact at_findLoop (Nat.zero_add _) rfl (Nat.zero_le _) hlt

/-- A request inside the payload passes the checks, and starts where it should. -/
theorem checkCopyConfiguration_spec (hb : b.WellFormed) (hn : 0 < n)
    (hle : off + n ≤ b.sizeBytes) :
    ∃ c, b.checkCopyConfiguration n off = (.none, c) ∧ b.At off c := by
  have hsize := hb.size_le
  have hmax : uint32Max.toNat = 2 ^ 32 - 1 := rfl
  obtain ⟨hat, hlt⟩ := at_find hb (show off < b.sizeBytes by omega)
  refine ⟨b.find off, ?_, hat⟩
  rw [checkCopyConfiguration, sizeAdd_of_lt (by omega), if_neg (by omega), if_neg (by omega),
    if_neg (by omega)]
  exact if_neg hlt.ne

end At

/-! ## Translated chunks -/

/-- Every chunk of the payload range `[lo, hi)` that lies in one descriptor translates, to the host
addresses `loc` gives for its positions, and its post-hook succeeds. -/
def Translates (tr : UInt64 → ℕ → Except Errno ℕ) (post : UInt64 → ℕ → ℕ → Errno) (b : Buffer)
    (loc : ℕ → ℕ) (lo hi : ℕ) : Prop :=
  ∀ i < b.active, ∀ o k, 0 < k → o + k ≤ b.len i → lo ≤ b.descOffset i + o →
    b.descOffset i + o + k ≤ hi →
    ∃ hva, tr ((b.descChain i).address + UInt64.ofNat o) k = .ok hva ∧
      post ((b.descChain i).address + UInt64.ofNat o) k hva = .none ∧
      ∀ j < k, loc (b.descOffset i + o + j) = hva + j

/-- The descriptors that hold bytes of the payload range `[lo, hi)` are writable. -/
def WritableRange (b : Buffer) (lo hi : ℕ) : Prop :=
  ∀ i < b.active, b.descOffset i < hi → lo < b.descOffset i + b.len i → b.writableAt i = true

section Chunks

variable {b : Buffer} {acc dAcc sAcc : ChainAccessor} {loc ld ls : ℕ → ℕ} {lo hi lo' hi' p n : ℕ}
  {c : ℕ × ℕ} {m : Mem} {tr : UInt64 → ℕ → Except Errno ℕ} {post : UInt64 → ℕ → ℕ → Errno}

theorem Translates.mono (h : Translates tr post b loc lo hi) (hlo : lo ≤ lo') (hhi : hi' ≤ hi) :
    Translates tr post b loc lo' hi' :=
  fun i hi o k hk hlen hle hle' => h i hi o k hk hlen (by omega) (by omega)

theorem WritableRange.mono (h : b.WritableRange lo hi) (hlo : lo ≤ lo') (hhi : hi' ≤ hi) :
    b.WritableRange lo' hi' :=
  fun i hi h1 h2 => h i hi (by omega) (by omega)

theorem Translates.at_cursor (h : Translates tr post b loc lo hi) (hat : b.At p c)
    (hc : c.1 < b.active) (hn : 0 < n) (hlen : c.2 + n ≤ b.len c.1) (hlo : lo ≤ p)
    (hhi : p + n ≤ hi) :
    ∃ hva, tr ((b.descChain c.1).address + UInt64.ofNat c.2) n = .ok hva ∧
      post ((b.descChain c.1).address + UInt64.ofNat c.2) n hva = .none ∧
      ∀ j < n, loc (p + j) = hva + j := by
  have hpos := hat.pos
  obtain ⟨hva, htr, hpost, hloc⟩ := h c.1 hc c.2 n hn hlen (by omega) (by omega)
  exact ⟨hva, htr, hpost, fun j hj => hpos ▸ hloc j hj⟩

theorem WritableRange.at_cursor (h : b.WritableRange lo hi) (hat : b.At p c) (hc : c.1 < b.active)
    (hlo : lo ≤ p) (hhi : p < hi) : b.shouldOnlyRead (b.descChain c.1).flags = false := by
  have hpos := hat.pos
  have hlt := hat.lt hc
  have hw := h c.1 hc (by omega) (by omega)
  rw [writableAt, Bool.not_eq_true'] at hw
  rw [shouldOnlyRead, hw, Bool.and_false]

theorem copyBetweenVqa_spec {dVqa sVqa : UInt64} {dHva sHva : ℕ}
    (hd : dAcc.vqAddrToWHva dVqa n = .ok dHva) (hd' : dAcc.vqAddrToWHvaPost dVqa n dHva = .none)
    (hs : sAcc.vqAddrToRHva sVqa n = .ok sHva) (hs' : sAcc.vqAddrToRHvaPost sVqa n sHva = .none) :
    ChainAccessor.copyBetweenVqa (some bulkCopierDefault) dAcc sAcc dVqa sVqa n m =
      (.none, memcpy m dHva sHva n) := by
  simp only [ChainAccessor.copyBetweenVqa, hd, hs, hs', hd', ne_eq, not_true_eq_false, if_false]
  rfl

theorem copyFromVqa_spec {vqa : UInt64} {l hva : ℕ} (hs : acc.vqAddrToRHva vqa n = .ok hva)
    (hs' : acc.vqAddrToRHvaPost vqa n hva = .none) :
    acc.copyFromVqa (some bulkCopierDefault) l vqa n m = (.none, memcpy m l hva n) := by
  simp only [ChainAccessor.copyFromVqa, hs, hs']
  rfl

theorem copyToVqa_spec {vqa : UInt64} {l hva : ℕ} (hd : acc.vqAddrToWHva vqa n = .ok hva)
    (hd' : acc.vqAddrToWHvaPost vqa n hva = .none) :
    acc.copyToVqa (some bulkCopierDefault) vqa l n m = (.none, memcpy m hva l n) := by
  simp only [ChainAccessor.copyToVqa, hd, hd']
  rfl

end Chunks

/-! ## The loops -/

/-- A source: the payload range `[lo, hi)` of a well-formed buffer, readable through `acc`. -/
structure SgSource (acc : ChainAccessor) (b : Buffer) (loc : ℕ → ℕ) (lo hi : ℕ) : Prop where
  wellFormed : b.WellFormed
  le : hi ≤ b.sizeBytes
  translates : Translates acc.vqAddrToRHva acc.vqAddrToRHvaPost b loc lo hi

/-- A destination: the payload range `[lo, hi)` of a well-formed buffer, writable through `acc`.
Different positions of the payload are different bytes of memory. -/
structure SgDest (acc : ChainAccessor) (b : Buffer) (loc : ℕ → ℕ) (lo hi : ℕ) : Prop where
  wellFormed : b.WellFormed
  le : hi ≤ b.sizeBytes
  translates : Translates acc.vqAddrToWHva acc.vqAddrToWHvaPost b loc lo hi
  writable : b.WritableRange lo hi
  inj : ∀ i < b.sizeBytes, ∀ j < b.sizeBytes, loc i = loc j → i = j

section Loops

variable {b dst src : Buffer} {acc dAcc sAcc : ChainAccessor} {loc ld ls : ℕ → ℕ} {m : Mem}

/-- **The loop of `copy_to_sg` copies everything it is asked for.** The turns left bound the
descriptors left on both sides together. -/
theorem copySgLoop_spec {fuel rem pd ps bytesCopied : ℕ} {d s : ℕ × ℕ}
    (hd : SgDest dAcc dst ld pd (pd + rem)) (hs : SgSource sAcc src ls ps (ps + rem))
    (hdisj : ∀ i < rem, ∀ j < rem, ld (pd + i) ≠ ls (ps + j))
    (hatd : dst.At pd d) (hats : src.At ps s)
    (hfuel : rem ≠ 0 → (dst.active - d.1) + (src.active - s.1) ≤ fuel) :
    ∃ m', copySgLoop dst src dAcc sAcc bulkCopierDefault fuel rem d s bytesCopied m =
        ⟨.none, bytesCopied + rem, m'⟩ ∧
      Copied (fun k => ld (pd + k)) (fun k => ls (ps + k)) rem m m' := by
  induction fuel generalizing rem pd ps d s bytesCopied m with
  | zero =>
      have hrem : rem = 0 := by
        by_contra h0
        have hlt := hatd.lt_active hd.wellFormed.toRecorded (by have := hd.le; omega)
        have := hfuel h0
        omega
      subst hrem
      exact ⟨m, rfl, .zero _ _ m⟩
  | succ fuel ih =>
      rw [copySgLoop]
      by_cases h0 : rem = 0
      · subst h0
        rw [if_pos (.inl rfl)]
        exact ⟨m, rfl, .zero _ _ m⟩
      have hdle := hd.le
      have hsle := hs.le
      have hdlt := hatd.lt_active hd.wellFormed.toRecorded (by omega)
      have hslt := hats.lt_active hs.wellFormed.toRecorded (by omega)
      have hdoff := hatd.lt hdlt
      have hsoff := hats.lt hslt
      rw [if_neg (by omega)]
      dsimp only
      -- the chunk: as much as the request, the source and the destination allow
      obtain ⟨n, hn⟩ : ∃ n, n = min rem (min (src.len s.1 - s.2) (dst.len d.1 - d.2)) := ⟨_, rfl⟩
      rw [← hn]
      have hpos : 0 < n := by omega
      obtain ⟨dHva, hdtr, hdpost, hdloc⟩ := hd.translates.at_cursor hatd hdlt hpos (by omega)
        le_rfl (by omega)
      obtain ⟨sHva, hstr, hspost, hsloc⟩ := hs.translates.at_cursor hats hslt hpos (by omega)
        le_rfl (by omega)
      have hchunk : Copied (fun k => ld (pd + k)) (fun k => ls (ps + k)) n m
          (memcpy m dHva sHva n) := .memcpy hdloc hsloc m
      rw [hd.writable.at_cursor hatd hdlt le_rfl (by omega), if_neg (by decide),
        copyBetweenVqa_spec hdtr hdpost hstr hspost, if_neg (by simp)]
      -- the rest of the request, from where the chunk ended
      have hrest : rem - n + n = rem := by omega
      obtain ⟨m', hloop, hcopied⟩ := @ih (memcpy m dHva sHva n) (rem - n) (pd + n) (ps + n)
        (bytesCopied + n) (dst.advance d.1 d.2 n) (src.advance s.1 s.2 n)
        ⟨hd.wellFormed, by omega, hd.translates.mono (by omega) (by omega),
          hd.writable.mono (by omega) (by omega), hd.inj⟩
        ⟨hs.wellFormed, by omega, hs.translates.mono (by omega) (by omega)⟩
        (fun i hi j hj => by
          have := hdisj (n + i) (by omega) (n + j) (by omega)
          rwa [← Nat.add_assoc, ← Nat.add_assoc] at this)
        (hatd.advance hd.wellFormed hdlt (by omega)) (hats.advance hs.wellFormed hslt (by omega))
        (fun hne => by
          have := hfuel h0
          rw [advance_fst, advance_fst]
          split_ifs <;> omega)
      refine ⟨m', ?_, ?_⟩
      · rw [hloop, show bytesCopied + n + (rem - n) = bytesCopied + rem by omega]
      · simp only [Nat.add_assoc] at hcopied
        have happend := hchunk.append hcopied
          (fun i hi j hj heq => by
            have := hd.inj (pd + i) (by omega) (pd + j) (by omega) heq
            omega)
          (fun i hi j hj => hdisj i (by omega) j (by omega))
        rwa [show n + (rem - n) = rem by omega] at happend

theorem copyLinearLoop_zero (linearToSg : Bool) (copier : BulkCopier)
    (left it sgOff l bytesCopied : ℕ) :
    copyLinearLoop linearToSg b acc copier left it sgOff 0 l bytesCopied m =
      ⟨.none, bytesCopied, m⟩ := by
  cases left <;> rfl

/-- **The loop of the linear copies copies everything it is asked for**, in either direction. What
the direction decides is how a chunk `k, .., k + n - 1` of the request is copied. -/
theorem copyLinearLoop_spec {linearToSg : Bool} {l p total : ℕ} (hb : b.WellFormed)
    (hle : p + total ≤ b.sizeBytes)
    (hchunk : ∀ (k n : ℕ) (c : ℕ × ℕ) (m : Mem), 0 < n → k + n ≤ total → b.At (p + k) c →
      c.1 < b.active → c.2 + n ≤ b.len c.1 →
      (linearToSg && b.shouldOnlyRead (b.descChain c.1).flags) = false ∧
      ∃ dHva sHva,
        (if linearToSg then
          acc.copyToVqa (some bulkCopierDefault)
            ((b.descChain c.1).address + UInt64.ofNat c.2) (l + k) n m
        else
          acc.copyFromVqa (some bulkCopierDefault) (l + k)
            ((b.descChain c.1).address + UInt64.ofNat c.2) n m) = (.none, memcpy m dHva sHva n) ∧
        (∀ j < n, ld (k + j) = dHva + j) ∧ ∀ j < n, ls (k + j) = sHva + j)
    (hinj : ∀ i < total, ∀ j < total, ld i = ld j → i = j)
    (hdisj : ∀ i < total, ∀ j < total, ld i ≠ ls j)
    {left it sgOff rem k bytesCopied : ℕ} (hat : b.At (p + k) (it, sgOff))
    (hleft : left = b.active - it) (hrem : k + rem = total) :
    ∃ m', copyLinearLoop linearToSg b acc bulkCopierDefault left it sgOff rem (l + k) bytesCopied
        m = ⟨.none, bytesCopied + rem, m'⟩ ∧
      Copied (fun i => ld (k + i)) (fun i => ls (k + i)) rem m m' := by
  induction left generalizing it sgOff rem k bytesCopied m with
  | zero =>
      have h0 : rem = 0 := by
        by_contra h0
        have hlt := hat.lt_active hb.toRecorded (by omega)
        dsimp only at hlt
        omega
      subst h0
      exact ⟨m, rfl, .zero _ _ m⟩
  | succ left ih =>
      rw [copyLinearLoop]
      by_cases h0 : rem = 0
      · subst h0
        rw [if_pos rfl]
        exact ⟨m, rfl, .zero _ _ m⟩
      have hlt : it < b.active := hat.lt_active hb.toRecorded (by omega)
      have hoff : sgOff < b.len it := hat.lt hlt
      rw [if_neg h0]
      dsimp only
      obtain ⟨n, hn⟩ : ∃ n, n = min (b.len it - sgOff) rem := ⟨_, rfl⟩
      rw [← hn]
      have hpos : 0 < n := by omega
      have hin : sgOff + n ≤ b.len it := by omega
      obtain ⟨hperm, dHva, sHva, hcopy, hld, hls⟩ :=
        hchunk k n (it, sgOff) m hpos (by omega) hat hlt hin
      dsimp only at hperm hcopy
      have hfirst : Copied (fun i => ld (k + i)) (fun i => ls (k + i)) n m
          (memcpy m dHva sHva n) := .memcpy hld hls m
      rw [hperm, hcopy, if_neg (by decide), if_neg (by simp)]
      -- either the chunk ends the descriptor, or it ends the request
      obtain ⟨m', hloop, hcopied⟩ : ∃ m', copyLinearLoop linearToSg b acc bulkCopierDefault left
            (it + 1) 0 (rem - n) (l + (k + n)) (bytesCopied + n) (memcpy m dHva sHva n) =
            ⟨.none, bytesCopied + n + (rem - n), m'⟩ ∧
          Copied (fun i => ld (k + n + i)) (fun i => ls (k + n + i)) (rem - n)
            (memcpy m dHva sHva n) m' := by
        by_cases hend : sgOff + n = b.len it
        · have hat' := hat.advance hb hlt hin
          rw [advance, if_pos hend, Nat.add_assoc] at hat'
          exact ih hat' (by omega) (by omega)
        · rw [show rem - n = 0 by omega, copyLinearLoop_zero]
          exact ⟨_, rfl, .zero _ _ _⟩
      refine ⟨m', ?_, ?_⟩
      · rw [Nat.add_assoc l k n, hloop,
          show bytesCopied + n + (rem - n) = bytesCopied + rem by omega]
      · simp only [Nat.add_assoc] at hcopied
        have happend := hfirst.append hcopied
          (fun i hi j hj heq => by
            have := hinj (k + i) (by omega) (k + j) (by omega) heq
            omega)
          (fun i hi j hj => hdisj (k + i) (by omega) (k + j) (by omega))
        rwa [show n + (rem - n) = rem by omega] at happend

/-! ## The implementations -/

/-- `try_end_copy_to_sg_impl` on a request the destination's cookie holds. -/
theorem tryEndCopyToSgImpl_spec {n dOff sOff : ℕ} (hn : 0 < n)
    (hd : SgDest dAcc dst ld dOff (dOff + n)) (hs : SgSource sAcc src ls sOff (sOff + n))
    (hdisj : ∀ i < n, ∀ j < n, ld (dOff + i) ≠ ls (sOff + j))
    (hsz : dst.asyncCopyCookie.reqSz = n) (hdo : dst.asyncCopyCookie.reqDOff = dOff)
    (hso : dst.asyncCopyCookie.reqSOff = sOff) :
    ∃ m', tryEndCopyToSgImpl dAcc sAcc bulkCopierDefault src dst m = ⟨.none, n, m'⟩ ∧
      Copied (fun k => ld (dOff + k)) (fun k => ls (sOff + k)) n m m' := by
  obtain ⟨d, hdc, hatd⟩ := checkCopyConfiguration_spec hd.wellFormed hn hd.le
  obtain ⟨s, hsc, hats⟩ := checkCopyConfiguration_spec hs.wellFormed hn hs.le
  rw [tryEndCopyToSgImpl]
  dsimp only
  rw [hsz, hdo, hso, hdc, if_neg (by simp), hsc, if_neg (by simp)]
  obtain ⟨m', hloop, hcopied⟩ := @copySgLoop_spec dst src dAcc sAcc ld ls m _ n dOff sOff 0 d s
    hd hs hdisj hatd hats fun _ => le_rfl
  rw [Nat.zero_add] at hloop
  exact ⟨m', hloop, hcopied⟩

theorem copyToBufferImpl_spec {n dOff l : ℕ} (hn : 0 < n)
    (hd : SgDest acc b loc dOff (dOff + n))
    (hdisj : ∀ i < n, ∀ j < n, loc (dOff + i) ≠ l + j)
    (hsz : b.asyncCopyCookie.reqSz = n) (hdo : b.asyncCopyCookie.reqDOff = dOff) :
    ∃ m', copyFromtoLinearImpl true acc l bulkCopierDefault b m = ⟨.none, n, m'⟩ ∧
      Copied (fun k => loc (dOff + k)) (fun k => l + k) n m m' := by
  obtain ⟨c, hc, hat⟩ := checkCopyConfiguration_spec hd.wellFormed hn hd.le
  rw [copyFromtoLinearImpl, if_pos rfl, hsz, hdo, hc, if_neg (by simp)]
  have hle := hd.le
  obtain ⟨m', hloop, hcopied⟩ := @copyLinearLoop_spec b acc (fun k => loc (dOff + k))
    (fun k => l + k) m true l dOff n hd.wellFormed hle
    (fun k n' c m hpos hkn hat hlt hlen => by
      obtain ⟨hva, htr, hpost, hloc⟩ := hd.translates.at_cursor hat hlt hpos hlen
        (by omega) (by omega)
      refine ⟨?_, hva, l + k, ?_, ?_, fun j _ => (Nat.add_assoc l k j).symm⟩
      · rw [hd.writable.at_cursor hat hlt (by omega) (by omega), Bool.and_false]
      · rw [if_pos rfl, copyToVqa_spec htr hpost]
      · intro j hj
        rw [← Nat.add_assoc]
        exact hloc j hj)
    (fun i hi j hj heq => by
      have := hd.inj (dOff + i) (by omega) (dOff + j) (by omega) heq
      omega)
    hdisj _ _ _ n 0 0 hat rfl (Nat.zero_add n)
  simp only [Nat.zero_add, Nat.add_zero] at hloop hcopied
  exact ⟨m', hloop, hcopied⟩

theorem copyFromBufferImpl_spec {n sOff l : ℕ} (hn : 0 < n)
    (hs : SgSource acc b loc sOff (sOff + n))
    (hdisj : ∀ i < n, ∀ j < n, l + i ≠ loc (sOff + j))
    (hsz : b.asyncCopyCookie.reqSz = n) (hso : b.asyncCopyCookie.reqSOff = sOff) :
    ∃ m', copyFromtoLinearImpl false acc l bulkCopierDefault b m = ⟨.none, n, m'⟩ ∧
      Copied (fun k => l + k) (fun k => loc (sOff + k)) n m m' := by
  obtain ⟨c, hc, hat⟩ := checkCopyConfiguration_spec hs.wellFormed hn hs.le
  rw [copyFromtoLinearImpl, if_neg Bool.false_ne_true, hsz, hso, hc, if_neg (by simp)]
  have hle := hs.le
  obtain ⟨m', hloop, hcopied⟩ := @copyLinearLoop_spec b acc (fun k => l + k)
    (fun k => loc (sOff + k)) m false l sOff n hs.wellFormed hle
    (fun k n' c m hpos hkn hat hlt hlen => by
      obtain ⟨hva, htr, hpost, hloc⟩ := hs.translates.at_cursor hat hlt hpos hlen
        (by omega) (by omega)
      refine ⟨rfl, l + k, hva, ?_, fun j _ => (Nat.add_assoc l k j).symm, ?_⟩
      · rw [if_neg (by decide), copyFromVqa_spec htr hpost]
      · intro j hj
        rw [← Nat.add_assoc]
        exact hloc j hj)
    (fun i hi j hj heq => by omega)
    hdisj _ _ _ n 0 0 hat rfl (Nat.zero_add n)
  simp only [Nat.zero_add, Nat.add_zero] at hloop hcopied
  exact ⟨m', hloop, hcopied⟩

end Loops

/-! ## Transactions -/

section Cookies

variable {b : Buffer} {acc : ChainAccessor} {loc : ℕ → ℕ} {lo hi : ℕ}
  {f : AsyncCopyCookie → AsyncCopyCookie}

theorem SgSource.modifyCookie (h : SgSource acc b loc lo hi) :
    SgSource acc (b.modifyCookie f) loc lo hi :=
  ⟨h.wellFormed.modifyCookie, h.le, h.translates⟩

theorem SgDest.modifyCookie (h : SgDest acc b loc lo hi) :
    SgDest acc (b.modifyCookie f) loc lo hi :=
  ⟨h.wellFormed.modifyCookie, h.le, h.translates, h.writable, h.inj⟩

end Cookies

end Buffer

section Transactions

variable {n dOff sOff l : ℕ} {m : Mem}

namespace Heap

variable {h : Heap} {src dst : BufId} {dAcc sAcc : ChainAccessor} {ld ls : ℕ → ℕ}

end Heap

namespace Buffer

variable {b : Buffer} {acc : ChainAccessor} {loc : ℕ → ℕ}

/-- **`copy_to_linear` copies what it is asked to**, and leaves the buffer as it was but for the
cookie. -/
theorem copyToLinear_spec (hn : 0 < n) (hs : SgSource acc b loc sOff (sOff + n))
    (hdisj : ∀ i < n, ∀ j < n, l + i ≠ loc (sOff + j))
    (hidle : b.asyncCopyCookie.isDst = false) :
    (b.copyToLinear (some l) acc n sOff none m).err = .none ∧
    (b.copyToLinear (some l) acc n sOff none m).bytesCopied = n ∧
    (b.copyToLinear (some l) acc n sOff none m).state = b.modifyCookie AsyncCopyCookie.reset ∧
    Copied (fun k => l + k) (fun k => loc (sOff + k)) n m
      (b.copyToLinear (some l) acc n sOff none m).mem := by
  obtain ⟨m', himpl, hcopied⟩ := @copyFromBufferImpl_spec
    (b.modifyCookie fun c => c.initSgSrcToLinearDst l n sOff) acc loc m n sOff l hn
    hs.modifyCookie hdisj rfl rfl
  have hresult : b.toLinearResult l acc n sOff none m = ⟨.none, n, m'⟩ :=
    (if_pos hn).trans himpl
  rw [copyToLinear_run hidle, hresult]
  exact ⟨rfl, rfl, rfl, hcopied⟩

end Buffer

end Transactions

/-! ## Flat copies -/

section

variable {h : Heap} {src dst : BufId} {dAcc sAcc : ChainAccessor} {ld ls : ℕ → ℕ}
  {n dOff sOff lSrc lSrcSize lSrcOff lDst lDstSize lDstOff : ℕ} {m : Mem}

end

/-! ### Two fragmentations -/

/-- Guest memory is host memory. -/
def identityAccessor : ChainAccessor where
  vqAddrToRHva a _ := .ok a.toNat

/-- Three readable bytes at 256 and five at 512. -/
def threeFive : Buffer where
  maxChainLength := 2
  activeChainLength := 2
  sizeBytes := 8
  completeChain := true
  chainForDevice := true
  seenReadableDesc := true
  descChain i := if i = 0 then ⟨256, 3, 1, 1⟩ else ⟨512, 5, 0, 2⟩

/-- Four writable bytes at 768 and four at 1024. -/
def fourFour : Buffer where
  maxChainLength := 2
  activeChainLength := 2
  sizeBytes := 8
  completeChain := true
  chainForDevice := true
  seenWritableDesc := true
  firstWritableDesc := 0
  descChain i := if i = 0 then ⟨768, 4, 3, 1⟩ else ⟨1024, 4, 2, 2⟩

theorem threeFive_wellFormed : threeFive.WellFormed :=
  ⟨⟨by decide, by decide, by decide, by decide, by decide⟩, by decide⟩

theorem fourFour_wellFormed : fourFour.WellFormed :=
  ⟨⟨by decide, by decide, by decide, by decide, by decide⟩, by decide⟩

/-- Two contiguous descriptors translate to where they are. -/
theorem translates_identity {b : Buffer} {loc : ℕ → ℕ} {lo hi : ℕ}
    (hloc : ∀ i < b.active, ∀ o < b.len i,
      loc (b.descOffset i + o) = (b.descChain i).address.toNat + o)
    (hfit : ∀ i < b.active, (b.descChain i).address.toNat + b.len i < 2 ^ 64) :
    Buffer.Translates identityAccessor.vqAddrToRHva identityAccessor.vqAddrToRHvaPost b loc lo
      hi := by
  intro i hi o k hk hlen _ _
  refine ⟨_, rfl, rfl, fun j hj => ?_⟩
  have := hfit i hi
  have hoff : (UInt64.ofNat o).toNat = o := by
    rw [UInt64.toNat_ofNat']
    omega
  have haddr : ((b.descChain i).address + UInt64.ofNat o).toNat =
      (b.descChain i).address.toNat + o := by
    rw [UInt64.toNat_add, hoff, Nat.mod_eq_of_lt (by omega)]
  rw [haddr, Nat.add_assoc, hloc i hi (o + j) (by omega), Nat.add_assoc]

end Vml
