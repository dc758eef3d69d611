import Vml.SgNeutral
import Vml.SgWritten

/-!
# Copies that take several rounds

A derived class may perform a copy in rounds: each `try_end_copy_*_impl` but the last copies some
first bytes of what remains and returns `AGAIN`, and the caller goes on calling `try_end_copy_*`.
What remains is in the cookie: its size and both offsets, which `record_bytes_copied` moves on.

**Rounds.** `ResumableCopy` is what the three kinds of copy have in common: what an implementation
does in a round, the `try_end` around it, and the request in the cookie. `Splits` says of a run that
each round copies a prefix of the request it finds there.

**Prefixes.** Tracking two rounds is tracking both at once (`prefixAfter_add`), unless the first
ends inside a prefix that has been recorded earlier. Then the prefix becomes `UINT32_MAX`, and the
next round cannot put that right.

Main result: `resumed_iff`.
-/

namespace Vml

/-! ## Tracking rounds -/

/-- What a request of `n` bytes at `off` makes of the prefix `w` of a descriptor whose `len` bytes
start at `lo`. -/
def prefixAfter (w lo len off n : ℕ) : ℕ :=
  if max off lo < min (off + n) (lo + len) ∧ off ≤ lo + w then
    if min (off + n) (lo + len) - lo < w then uint32Max.toNat else min (off + n) (lo + len) - lo
  else w

/-- Where one round ends and the next begins. -/
def splitPoints (off : ℕ) : List ℕ → List ℕ
  | [] => []
  | c :: cuts => (off + c) :: splitPoints (off + c) cuts

section Prefix

variable {w lo len off n c x : ℕ} {cuts : List ℕ}

theorem le_of_mem_splitPoints (h : x ∈ splitPoints off cuts) : off ≤ x := by
  induction cuts generalizing off with
  | nil => cases h
  | cons c cuts ih =>
      rcases List.mem_cons.1 h with rfl | h
      · exact Nat.le_add_right off c
      · exact (Nat.le_add_right off c).trans (ih h)

theorem prefixAfter_apart
    (h : ¬(max off lo < min (off + n) (lo + len) ∧ off ≤ lo + w)) :
    prefixAfter w lo len off n = w := if_neg h

theorem prefixAfter_inside (h : max off lo < min (off + n) (lo + len) ∧ off ≤ lo + w)
    (hin : min (off + n) (lo + len) - lo < w) :
    prefixAfter w lo len off n = uint32Max.toNat := (if_pos h).trans (if_pos hin)

theorem prefixAfter_beyond (h : max off lo < min (off + n) (lo + len) ∧ off ≤ lo + w)
    (hout : w ≤ min (off + n) (lo + len) - lo) :
    prefixAfter w lo len off n = min (off + n) (lo + len) - lo :=
  (if_pos h).trans (if_neg (Nat.not_lt.2 hout))

theorem prefixAfter_max (hoff : off + n ≤ uint32Max.toNat) :
    prefixAfter uint32Max.toNat lo len off n = uint32Max.toNat := by
  unfold prefixAfter
  split_ifs <;> omega

/-- **Two rounds.** They make of a prefix what one request does, unless the first ends inside it. -/
theorem prefixAfter_add (hc : c ≤ n) (hoff : off + n ≤ uint32Max.toNat) :
    prefixAfter (prefixAfter w lo len off c) lo len (off + c) (n - c) =
      if max off lo < off + c ∧ off + c < min (min (off + n) (lo + len)) (lo + w) then
        uint32Max.toNat
      else prefixAfter w lo len off n := by
  have hsum : off + c + (n - c) = off + n := by omega
  by_cases hfirst : max off lo < min (off + c) (lo + len) ∧ off ≤ lo + w
  · by_cases hin : min (off + c) (lo + len) - lo < w
    · rw [prefixAfter_inside hfirst hin, prefixAfter_max (by omega)]
      split_ifs with hcut
      · rfl
      · exact (prefixAfter_inside (by omega) (by omega)).symm
    · have hone : prefixAfter w lo len off n = min (off + n) (lo + len) - lo :=
        prefixAfter_beyond (by omega) (by omega)
      rw [prefixAfter_beyond hfirst (Nat.not_lt.1 hin), if_neg (by omega), hone]
      by_cases hmore : off + c < min (off + n) (lo + len)
      · rw [prefixAfter_beyond (by omega) (by omega), hsum]
      · rw [prefixAfter_apart (by omega)]
        omega
  · rw [prefixAfter_apart hfirst, if_neg (by omega)]
    by_cases hafter : max (off + c) lo < min (off + n) (lo + len) ∧ off + c ≤ lo + w
    · have hone : max off lo < min (off + n) (lo + len) ∧ off ≤ lo + w := by omega
      unfold prefixAfter
      rw [hsum, if_pos hafter, if_pos hone]
    · rw [prefixAfter_apart (by omega), prefixAfter_apart (by omega)]

theorem cut_prefixAfter_iff (hc : c ≤ n) (hx : off + c ≤ x)
    (hno : ¬(max off lo < off + c ∧ off + c < min (min (off + n) (lo + len)) (lo + w))) :
    (max (off + c) lo < x ∧
        x < min (min (off + c + (n - c)) (lo + len)) (lo + prefixAfter w lo len off c)) ↔
      max off lo < x ∧ x < min (min (off + n) (lo + len)) (lo + w) := by
  by_cases hfirst : max off lo < min (off + c) (lo + len) ∧ off ≤ lo + w
  · by_cases hin : min (off + c) (lo + len) - lo < w
    · rw [prefixAfter_inside hfirst hin]
      omega
    · rw [prefixAfter_beyond hfirst (Nat.not_lt.1 hin)]
      omega
  · rw [prefixAfter_apart hfirst]
    omega

end Prefix

namespace Buffer

/-- Track the rounds of a request of `n` bytes at `off`: `cuts` has the bytes of all but the last
one. -/
def trackRounds (b : Buffer) (off n : ℕ) : List ℕ → Buffer
  | [] => b.heuristicallyTrackWrittenBytes off n
  | c :: cuts => trackRounds (b.heuristicallyTrackWrittenBytes off c) (off + c) (n - c) cuts

/-- A round ends inside the recorded prefix of descriptor `i`, and the request goes on at least to
the end of the prefix. It does not fill a descriptor of `2 ^ 32 - 1` bytes, whose prefix is
`UINT32_MAX` either way. -/
def CutsPrefix (b : Buffer) (off n : ℕ) (cuts : List ℕ) (i : ℕ) : Prop :=
  ∃ x ∈ splitPoints off cuts, max off (b.descOffset i) < x ∧ x < b.descOffset i + b.prefixOf i ∧
    b.descOffset i + b.prefixOf i ≤ min (off + n) (b.descOffset i + b.len i) ∧
    min (off + n) (b.descOffset i + b.len i) - b.descOffset i ≠ uint32Max.toNat

instance (b : Buffer) (off n : ℕ) (cuts : List ℕ) (i : ℕ) : Decidable (b.CutsPrefix off n cuts i) :=
  inferInstanceAs (Decidable (∃ x ∈ splitPoints off cuts, _))

section

variable {b : Buffer} {off n i : ℕ} {cuts : List ℕ}

theorem WellFormed.heuristicallyTrack (hb : b.WellFormed) (off n : ℕ) :
    (b.heuristicallyTrackWrittenBytes off n).WellFormed := by
  rw [heuristicallyTrack_frame]
  exact ⟨⟨hb.active_le, hb.size_eq, hb.size_le, hb.first_lt, hb.writable_iff⟩, hb.len_pos⟩

theorem prefixOf_track (hb : b.WellFormed) (hle : off + n ≤ b.sizeBytes) (hi : i < b.active) :
    (b.heuristicallyTrackWrittenBytes off n).prefixOf i =
      prefixAfter (b.prefixOf i) (b.descOffset i) (b.len i) off n :=
  prefixOf_heuristicallyTrack hb hle hi

/-- **The prefix after the rounds of a request.** -/
theorem prefixOf_trackRounds (hb : b.WellFormed) (hle : off + n ≤ b.sizeBytes)
    (hsum : cuts.sum ≤ n) (hi : i < b.active) :
    (b.trackRounds off n cuts).prefixOf i =
      if ∃ x ∈ splitPoints off cuts, max off (b.descOffset i) < x ∧
          x < min (min (off + n) (b.descOffset i + b.len i)) (b.descOffset i + b.prefixOf i) then
        uint32Max.toNat
      else prefixAfter (b.prefixOf i) (b.descOffset i) (b.len i) off n := by
  induction cuts generalizing b off n with
  | nil =>
      rw [trackRounds, prefixOf_track hb hle hi, if_neg]
      rintro ⟨x, hx, -⟩
      cases hx
  | cons c cuts ih =>
      rw [List.sum_cons] at hsum
      obtain ⟨b', hb'⟩ : ∃ b', b' = b.heuristicallyTrackWrittenBytes off c := ⟨_, rfl⟩
      have hframe := heuristicallyTrack_frame b off c
      rw [← hb'] at hframe
      have hactive : b'.active = b.active := by rw [hframe]; rfl
      have hsize : b'.sizeBytes = b.sizeBytes := by rw [hframe]
      have hlen : b'.len i = b.len i := by rw [hframe]; rfl
      have hlo : b'.descOffset i = b.descOffset i := by rw [hframe]; rfl
      have hw : b'.prefixOf i = prefixAfter (b.prefixOf i) (b.descOffset i) (b.len i) off c := by
        rw [hb', prefixOf_track hb (by omega) hi]
      have hmax := hb.size_le
      rw [trackRounds, ← hb', ih (hb' ▸ hb.heuristicallyTrack off c) (by omega) (by omega)
        (hactive ▸ hi), hlen, hlo, hw, prefixAfter_add (by omega) (by omega), splitPoints]
      by_cases hcut : max off (b.descOffset i) < off + c ∧
          off + c < min (min (off + n) (b.descOffset i + b.len i)) (b.descOffset i + b.prefixOf i)
      · rw [if_pos hcut, ite_self, if_pos ⟨_, List.mem_cons_self, hcut⟩]
      · rw [if_neg hcut]
        refine if_congr ?_ rfl rfl
        simp only [List.mem_cons, exists_eq_or_imp, hcut, false_or]
        refine exists_congr fun x => and_congr_right fun hx => ?_
        exact cut_prefixAfter_iff (by omega) (le_of_mem_splitPoints hx) hcut

/-- **When rounds leave the prefix a single request leaves.** -/
theorem prefixOf_trackRounds_eq_iff (hb : b.WellFormed) (hle : off + n ≤ b.sizeBytes)
    (hsum : cuts.sum ≤ n) (hi : i < b.active) :
    (b.trackRounds off n cuts).prefixOf i = (b.heuristicallyTrackWrittenBytes off n).prefixOf i ↔
      ¬b.CutsPrefix off n cuts i := by
  rw [prefixOf_trackRounds hb hle hsum hi, prefixOf_track hb hle hi]
  split_ifs with hcut
  · obtain ⟨x, hx, hlo, hhi⟩ := hcut
    have hoff := le_of_mem_splitPoints hx
    have hchunk : max off (b.descOffset i) < min (off + n) (b.descOffset i + b.len i) ∧
        off ≤ b.descOffset i + b.prefixOf i := by omega
    by_cases hin : min (off + n) (b.descOffset i + b.len i) - b.descOffset i < b.prefixOf i
    · rw [prefixAfter_inside hchunk hin]
      refine ⟨fun _ ⟨y, _, _, _, hend, _⟩ => ?_, fun _ => rfl⟩
      omega
    · rw [prefixAfter_beyond hchunk (Nat.not_lt.1 hin)]
      constructor
      · exact fun heq ⟨y, _, _, _, _, hmax⟩ => hmax heq.symm
      · intro hno
        by_contra hne
        exact hno ⟨x, hx, hlo, by omega, by omega, fun heq => hne heq.symm⟩
  · refine ⟨fun _ ⟨x, hx, hlo, hin, hend, _⟩ => hcut ⟨x, hx, hlo, by omega⟩, fun _ => rfl⟩

end

end Buffer

/-! ## Rounds -/

/-- What remains of a request: how many bytes, and where each of them goes and comes from. -/
structure Request where
  rem : ℕ
  dst : ℕ → ℕ
  src : ℕ → ℕ

/-- A copy that may take several rounds: what the implementation does when it is called in round
`k`, the `try_end` that calls it, and what the cookies say remains. -/
structure ResumableCopy (σ : Type) where
  result : ℕ → σ → Mem → CopyResult
  tryEnd : ℕ → σ → Mem → CopyEnd σ
  request : σ → Request

namespace ResumableCopy

variable {σ : Type}

/-- The implementation copies the first bytes of what remains. -/
def CopiesPrefix (c : ResumableCopy σ) (s : σ × ℕ) (m : Mem) : Prop :=
  (c.result s.2 s.1 m).bytesCopied ≤ (c.request s.1).rem ∧
    Copied (c.request s.1).dst (c.request s.1).src (c.result s.2 s.1 m).bytesCopied m
      (c.result s.2 s.1 m).mem

/-- Every round copies a prefix of what remains: the bytes that `cuts` says, returning `AGAIN`, and
last all of it, returning `NONE`. `try_end` calls the implementation only while something
remains. -/
def Splits (c : ResumableCopy σ) : (cuts : List ℕ) → σ × ℕ → Mem → Prop
  | [], s, m => 0 < (c.request s.1).rem →
      c.CopiesPrefix s m ∧ (c.result s.2 s.1 m).err = .none ∧
        (c.result s.2 s.1 m).bytesCopied = (c.request s.1).rem
  | k :: cuts, s, m => 0 < (c.request s.1).rem ∧
      c.CopiesPrefix s m ∧ (c.result s.2 s.1 m).err = .again ∧
        (c.result s.2 s.1 m).bytesCopied = k ∧
        c.Splits cuts (rounds c.tryEnd s m).state (rounds c.tryEnd s m).mem

/-- The bytes that the rounds copy, one after the other: where each goes and comes from. -/
def moves (c : ResumableCopy σ) : (cuts : List ℕ) → σ × ℕ → Mem → List (ℕ × ℕ)
  | [], s, _ => (List.range (c.request s.1).rem).map
      fun j => ((c.request s.1).dst j, (c.request s.1).src j)
  | k :: cuts, s, m =>
      ((List.range k).map fun j => ((c.request s.1).dst j, (c.request s.1).src j)) ++
        c.moves cuts (rounds c.tryEnd s m).state (rounds c.tryEnd s m).mem

/-- The calls of `try_end`, until one does not return `AGAIN`. -/
def run (c : ResumableCopy σ) (retries : ℕ) (s : σ) (m : Mem) : CopyEnd (σ × ℕ) :=
  retryLoop (rounds c.tryEnd) retries (s, 0) m 0

/-- The rounds do what the single copy `r` does: they succeed, copy every byte of the request once
and to its place, report all of them, and leave the memory and the prefixes that `r` leaves. -/
structure AgreesWith (c : ResumableCopy σ) (cuts : List ℕ) (retries : ℕ) (s : σ) (m : Mem)
    (r : CopyEnd σ) (buffer : σ → Buffer) (n : ℕ) (ld ls : ℕ → ℕ) : Prop where
  err : (c.run retries s m).err = .none ∧ r.err = .none
  bytesCopied : (c.run retries s m).bytesCopied = n ∧ r.bytesCopied = n
  moves : c.moves cuts (s, 0) m = (List.range n).map fun j => (ld j, ls j)
  copied : Copied ld ls n m (c.run retries s m).mem
  mem : (c.run retries s m).mem = r.mem
  prefixes : ∀ i < (buffer r.state).active,
    (buffer (c.run retries s m).state.1).prefixOf i = (buffer r.state).prefixOf i

/-! ### Following the request -/

/-- Track the rounds of a request, of which `done` bytes are tracked in `b` and `n` remain. -/
def trackFrom (track : Buffer → ℕ → ℕ → Buffer) (b : Buffer) (done n : ℕ) : List ℕ → Buffer
  | [] => track b done n
  | k :: cuts => trackFrom track (track b done k) (done + k) (n - k) cuts

/-- The cookies follow the request for `n` bytes from `ls` to `ld`. `Inv done b s`: the first `done`
bytes have been copied, and tracked in `b`. -/
structure Follows (c : ResumableCopy σ) (n : ℕ) (ld ls : ℕ → ℕ) (track : Buffer → ℕ → ℕ → Buffer)
    (Inv : ℕ → Buffer → σ → Prop) (Final : Buffer → σ → Prop) : Prop where
  request : ∀ done b s, Inv done b s →
    c.request s = ⟨n - done, fun j => ld (done + j), fun j => ls (done + j)⟩
  again : ∀ done b s k m, Inv done b s → 0 < n - done → (c.result k s m).err = .again →
    (c.result k s m).bytesCopied ≤ n - done →
    ∃ s', c.tryEnd k s m = ⟨.again, (c.result k s m).bytesCopied, s', (c.result k s m).mem⟩ ∧
      Inv (done + (c.result k s m).bytesCopied) (track b done (c.result k s m).bytesCopied) s'
  last : ∀ done b s k m, Inv done b s →
    (0 < n - done → (c.result k s m).err = .none ∧ (c.result k s m).bytesCopied = n - done) →
    ∃ s', c.tryEnd k s m =
        ⟨.none, n - done, s', if 0 < n - done then (c.result k s m).mem else m⟩ ∧
      Final (track b done (n - done)) s'

/-- **The rounds of a copy that follows the request.** -/
theorem Follows.retryLoop {c : ResumableCopy σ} {n : ℕ} {ld ls : ℕ → ℕ}
    {track : Buffer → ℕ → ℕ → Buffer} {Inv : ℕ → Buffer → σ → Prop} {Final : Buffer → σ → Prop}
    (hf : c.Follows n ld ls track Inv Final)
    (hinj : ∀ i < n, ∀ j < n, ld i = ld j → i = j) (hdisj : ∀ i < n, ∀ j < n, ld i ≠ ls j)
    {cuts : List ℕ} {done retries acc : ℕ} {b : Buffer} {s : σ × ℕ} {m : Mem} (hdone : done ≤ n)
    (hinv : Inv done b s.1) (hsplit : c.Splits cuts s m) (hretries : cuts.length ≤ retries) :
    ∃ s' m', Vml.retryLoop (rounds c.tryEnd) retries s m acc = ⟨.none, acc + (n - done), s', m'⟩ ∧
      c.moves cuts s m = (List.range (n - done)).map (fun j => (ld (done + j), ls (done + j))) ∧
      Copied (fun j => ld (done + j)) (fun j => ls (done + j)) (n - done) m m' ∧
      cuts.sum ≤ n - done ∧ Final (trackFrom track b done (n - done) cuts) s'.1 := by
  induction cuts generalizing done retries acc b s m with
  | nil =>
      have hreq := hf.request done b s.1 hinv
      rw [Splits, CopiesPrefix, hreq] at hsplit
      obtain ⟨s', hend, hfinal⟩ := hf.last done b s.1 s.2 m hinv fun hpos => (hsplit hpos).2
      have hround : rounds c.tryEnd s m = ⟨.none, n - done, (s', s.2 + 1),
          if 0 < n - done then (c.result s.2 s.1 m).mem else m⟩ := by
        rw [rounds, hend]
      refine ⟨(s', s.2 + 1), if 0 < n - done then (c.result s.2 s.1 m).mem else m, ?_, ?_, ?_,
        Nat.zero_le _, hfinal⟩
      · cases retries with
        | zero => rw [Vml.retryLoop, hround]
        | succ retries => rw [Vml.retryLoop, hround, if_neg (by simp)]
      · rw [moves, hreq]
      · split_ifs with hpos
        · obtain ⟨⟨-, hcopied⟩, -, hall⟩ := hsplit hpos
          rwa [hall] at hcopied
        · rw [show n - done = 0 by omega]
          exact .zero _ _ m
  | cons k cuts ih =>
      have hreq := hf.request done b s.1 hinv
      rw [Splits, CopiesPrefix, hreq] at hsplit
      obtain ⟨hpos, ⟨hle, hcopied⟩, hagain, rfl, hrest⟩ := hsplit
      dsimp only at hpos hle hcopied
      obtain ⟨s', hend, hinv'⟩ := hf.again done b s.1 s.2 m hinv hpos hagain hle
      obtain ⟨r, hr⟩ : ∃ r, r = c.result s.2 s.1 m := ⟨_, rfl⟩
      rw [← hr] at hle hcopied hend hinv' ⊢
      have hround : rounds c.tryEnd s m = ⟨.again, r.bytesCopied, (s', s.2 + 1), r.mem⟩ := by
        rw [rounds, hend]
      rw [hround] at hrest
      obtain ⟨retries, rfl⟩ : ∃ k, retries = k + 1 := Nat.exists_eq_add_one.2 (by
        rw [List.length_cons] at hretries
        omega)
      obtain ⟨s'', m', hloop, hmoves, hcopied', hsum, hfinal⟩ := @ih (done + r.bytesCopied) retries
        (acc + r.bytesCopied) _ (s', s.2 + 1) r.mem (by omega) hinv' hrest
        (Nat.le_of_succ_le_succ hretries)
      have hleft : n - (done + r.bytesCopied) = n - done - r.bytesCopied := by omega
      have hwhole : r.bytesCopied + (n - done - r.bytesCopied) = n - done := by omega
      rw [hleft] at hloop hmoves hcopied' hsum hfinal
      refine ⟨s'', m', ?_, ?_, ?_, ?_, hfinal⟩
      · rw [Vml.retryLoop, hround, if_pos rfl, hloop, Nat.add_assoc, hwhole]
      · have hrange : List.range (n - done) = List.range r.bytesCopied ++
            (List.range (n - done - r.bytesCopied)).map (r.bytesCopied + ·) := by
          rw [← List.range_add, hwhole]
        rw [moves, hround, hmoves, hreq, hrange, List.map_append, List.map_map]
        refine congrArg _ (List.map_congr_left fun j _ => ?_)
        simp only [Function.comp, Nat.add_assoc]
      · simp only [Nat.add_assoc] at hcopied'
        have happend := hcopied.append hcopied'
          (fun i hi j hj heq => by
            have := hinj (done + i) (by omega) (done + j) (by omega) heq
            omega)
          (fun i hi j hj => hdisj (done + i) (by omega) (done + j) (by omega))
        rwa [hwhole] at happend
      · rw [List.sum_cons]
        omega

end ResumableCopy

/-! ## The three kinds of copy -/

/-- A copy between two buffers. The payload of the destination is at `ld` and that of the source at
`ls`. -/
def toSgRounds (src dst : BufId) (backend : ℕ → Buffer → Buffer → Mem → CopyResult)
    (ld ls : ℕ → ℕ) : ResumableCopy Heap where
  result k h m := backend k (h src) (h dst) m
  tryEnd k h m := h.tryEndCopyToSg src dst (backend k) m
  request h :=
    let c := (h dst).asyncCopyCookie
    ⟨c.reqSz, fun j => ld (c.reqDOff + j), fun j => ls (c.reqSOff + j)⟩

/-- A copy to linear memory. `req_linear_dst` adds the offset to the pointer. -/
def toLinearRounds (backend : ℕ → Buffer → Mem → CopyResult) (ls : ℕ → ℕ) :
    ResumableCopy Buffer where
  result k b m := backend k b m
  tryEnd k b m := b.tryEndCopyToLinear (backend k) m
  request b :=
    let c := b.asyncCopyCookie
    ⟨c.reqSz, fun j => c.linearDst.getD 0 + c.reqDOff + j, fun j => ls (c.reqSOff + j)⟩

/-- A copy from linear memory, with `req_linear_src`. -/
def fromLinearRounds (backend : ℕ → Buffer → Mem → CopyResult) (ld : ℕ → ℕ) :
    ResumableCopy Buffer where
  result k b m := backend k b m
  tryEnd k b m := b.tryEndCopyFromLinear (backend k) m
  request b :=
    let c := b.asyncCopyCookie
    ⟨c.reqSz, fun j => ld (c.reqDOff + j), fun j => c.linearSrc.getD 0 + c.reqSOff + j⟩

/-- The request in the cookie. -/
structure AsyncCopyCookie.Remains (c : AsyncCopyCookie) (sz dOff sOff : ℕ) : Prop where
  reqSz : c.reqSz = sz
  reqDOff : c.reqDOff = dOff
  reqSOff : c.reqSOff = sOff

theorem AsyncCopyCookie.Remains.recordBytesCopied {c : AsyncCopyCookie}
    {n done dOff sOff k : ℕ} (h : c.Remains (n - done) (dOff + done) (sOff + done))
    (hk : k ≤ n - done) (hdone : done ≤ n) (hd : dOff + n < 2 ^ 64) (hs : sOff + n < 2 ^ 64) :
    (c.recordBytesCopied k).Remains (n - (done + k)) (dOff + (done + k)) (sOff + (done + k)) where
  reqSz := by
    show sizeSub c.reqSz k = _
    rw [h.reqSz, sizeSub_of_le hk (by omega)]
    omega
  reqDOff := by
    show sizeAdd c.reqDOff k = _
    rw [h.reqDOff, sizeAdd_of_lt (by omega)]
    omega
  reqSOff := by
    show sizeAdd c.reqSOff k = _
    rw [h.reqSOff, sizeAdd_of_lt (by omega)]
    omega

theorem requestResult_pos {n : ℕ} {inBounds : Prop} [Decidable inBounds] {r : CopyResult} {m : Mem}
    (h : 0 < n) : requestResult n inBounds r m = r := if_pos h

theorem requestResult_done {n : ℕ} {inBounds : Prop} [Decidable inBounds] {r : CopyResult} {m : Mem}
    (hin : inBounds) (h : 0 < n → r.err = .none ∧ r.bytesCopied = n) :
    requestResult n inBounds r m = ⟨.none, n, if 0 < n then r.mem else m⟩ := by
  rw [requestResult]
  split_ifs with hpos
  · obtain ⟨herr, hbytes⟩ := h hpos
    rw [← herr, ← hbytes]
  · rw [Nat.eq_zero_of_not_pos hpos]

section ToSg

variable {h s : Heap} {src dst : BufId} {n dOff sOff : ℕ} {ld ls : ℕ → ℕ} {m : Mem}
  {backend : ℕ → Buffer → Buffer → Mem → CopyResult}

theorem Heap.Serving.tryEndCopyToSg (hs : h.Serving s src dst)
    (impl : Buffer → Buffer → Mem → CopyResult) {r : CopyResult}
    (hr : requestResult (s dst).asyncCopyCookie.reqSz
      ((s dst).asyncCopyCookie.reqDOff ≤ (s dst).sizeBytes ∧
        (s dst).asyncCopyCookie.reqSOff ≤ (s src).sizeBytes) (impl (s src) (s dst) m) m = r)
    {t : Heap} (ht : Function.update s dst ((s dst).heuristicallyTrackWrittenBytes
      (s dst).asyncCopyCookie.reqDOff r.bytesCopied) = t) :
    s.tryEndCopyToSg src dst impl m =
      if r.err ≠ .again then ⟨r.err, r.bytesCopied, t.concludeBoth src dst, r.mem⟩
      else
        ⟨r.err, r.bytesCopied, t.modifyCookie dst (·.recordBytesCopied r.bytesCopied), r.mem⟩ := by
  have hmatch : (s dst).asyncCopyCookie.isDstFromMatchingCookie src
      (s src).asyncCopyCookie = true := hs.matching
  rw [← ht, ← hr]
  exact if_neg (by simp [hmatch])

/-- A copy between two buffers of which the first `done` bytes have been tracked in `b`. -/
structure Heap.Resumable (h : Heap) (src dst : BufId) (n dOff sOff done : ℕ) (b : Buffer)
    (s : Heap) : Prop where
  serving : h.Serving s src dst
  remains : (s dst).asyncCopyCookie.Remains (n - done) (dOff + done) (sOff + done)
  dstBuffer : s dst = b.modifyCookie fun _ => (s dst).asyncCopyCookie
  dstSize : b.sizeBytes = (h dst).sizeBytes
  srcSize : (s src).sizeBytes = (h src).sizeBytes
  done_le : done ≤ n

/-- **A copy between two buffers follows its request.** -/
theorem follows_toSg (hne : src ≠ dst) (hd : dOff + n ≤ (h dst).sizeBytes)
    (hs : sOff + n ≤ (h src).sizeBytes) (hd' : dOff + n < 2 ^ 64) (hs' : sOff + n < 2 ^ 64) :
    (toSgRounds src dst backend ld ls).Follows n (fun j => ld (dOff + j)) (fun j => ls (sOff + j))
      (fun b done k => b.heuristicallyTrackWrittenBytes (dOff + done) k)
      (h.Resumable src dst n dOff sOff)
      (fun b s => (s dst).descChainMetadata = b.descChainMetadata) where
  request done b s hinv := by
    simp only [toSgRounds, hinv.remains.reqSz, hinv.remains.reqDOff, hinv.remains.reqSOff,
      Nat.add_assoc]
  again done b s k m hinv hpos hagain hle := by
    obtain ⟨r, hr⟩ : ∃ r, r = backend k (s src) (s dst) m := ⟨_, rfl⟩
    have hresult : (toSgRounds src dst backend ld ls).result k s m = r := hr.symm
    rw [hresult] at hagain hle ⊢
    obtain ⟨t, ht⟩ : ∃ t : Heap, Function.update s dst ((s dst).heuristicallyTrackWrittenBytes
      (s dst).asyncCopyCookie.reqDOff r.bytesCopied) = t := ⟨_, rfl⟩
    have hround := hinv.serving.tryEndCopyToSg (backend k) ((requestResult_pos
      (hinv.remains.reqSz.symm ▸ hpos)).trans hr.symm) ht
    rw [if_neg (not_not.2 hagain), hagain] at hround
    refine ⟨_, hround, ?_⟩
    have htdst : t dst = (s dst).heuristicallyTrackWrittenBytes (dOff + done) r.bytesCopied := by
      rw [← ht, Function.update_self, hinv.remains.reqDOff]
    have htother : ∀ i, i ≠ dst → t i = s i := fun i hi => by
      rw [← ht, Function.update_of_ne hi]
    have hcookie : ((t.modifyCookie dst (·.recordBytesCopied r.bytesCopied)) dst).asyncCopyCookie =
        (s dst).asyncCopyCookie.recordBytesCopied r.bytesCopied := by
      rw [Heap.cookie_modifyCookie, if_pos rfl, htdst, Buffer.cookie_heuristicallyTrack]
    have hother : ∀ i, i ≠ dst → t.modifyCookie dst (·.recordBytesCopied r.bytesCopied) i = s i :=
      fun i hi => by rw [Heap.modifyCookie, Function.update_of_ne hi, htother i hi]
    refine ⟨⟨?_, ?_, fun i hid his => ?_⟩, ?_, ?_, ?_, ?_, ?_⟩
    · rw [hcookie]
      exact hinv.serving.dstCookie
    · rw [hother src hne]
      exact hinv.serving.srcCookie
    · rw [hother i hid]
      exact hinv.serving.others i hid his
    · rw [hcookie]
      exact hinv.remains.recordBytesCopied hle hinv.done_le hd' hs'
    · rw [hcookie, Heap.modifyCookie, Function.update_self, htdst]
      nth_rewrite 1 [hinv.dstBuffer]
      rw [Buffer.heuristicallyTrack_modifyCookie]
      rfl
    · rw [Buffer.heuristicallyTrack_frame]
      exact hinv.dstSize
    · rw [hother src hne]
      exact hinv.srcSize
    · have := hinv.done_le
      omega
  last done b s k m hinv hall := by
    have hdone := hinv.done_le
    have hsize : (s dst).sizeBytes = (h dst).sizeBytes := by
      rw [hinv.dstBuffer]
      exact hinv.dstSize
    have hremains := hinv.remains
    obtain ⟨t, ht⟩ : ∃ t : Heap, Function.update s dst ((s dst).heuristicallyTrackWrittenBytes
      (s dst).asyncCopyCookie.reqDOff (n - done)) = t := ⟨_, rfl⟩
    have hround := hinv.serving.tryEndCopyToSg (backend k) (requestResult_done ⟨?_, ?_⟩
      (hremains.reqSz.symm ▸ hall)) (hremains.reqSz.symm ▸ ht)
    · rw [if_pos (by simp), hremains.reqSz] at hround
      refine ⟨_, hround, ?_⟩
      have htdst : t dst = (s dst).heuristicallyTrackWrittenBytes (dOff + done) (n - done) := by
        rw [← ht, Function.update_self, hremains.reqDOff]
      rw [Heap.concludeBoth, Heap.modifyCookie, Function.update_of_ne hne.symm, Heap.modifyCookie,
        Function.update_self, htdst, hinv.dstBuffer, Buffer.heuristicallyTrack_modifyCookie]
      rfl
    · rw [hremains.reqDOff, hsize]
      omega
    · rw [hremains.reqSOff, hinv.srcSize]
      omega

end ToSg

section Linear

variable {b₀ s : Buffer} {n off l : ℕ} {loc : ℕ → ℕ} {m : Mem} {r : CopyResult}
  {backend : ℕ → Buffer → Mem → CopyResult}

theorem Buffer.tryEndCopyToLinear_honoured (hpart : s.asyncCopyCookie.isSrcToLinear = true)
    (impl : Buffer → Mem → CopyResult)
    (hr : requestResult s.asyncCopyCookie.reqSz (s.asyncCopyCookie.reqSOff ≤ s.sizeBytes) (impl s m)
      m = r) :
    s.tryEndCopyToLinear impl m =
      if r.err ≠ .again then
        ⟨r.err, r.bytesCopied, s.modifyCookie AsyncCopyCookie.concludeSrc, r.mem⟩
      else ⟨r.err, r.bytesCopied, s.modifyCookie (·.recordBytesCopied r.bytesCopied), r.mem⟩ := by
  rw [← hr]
  exact if_neg (by simp [hpart])

theorem Buffer.tryEndCopyFromLinear_honoured (hpart : s.asyncCopyCookie.isDstFromLinear = true)
    (impl : Buffer → Mem → CopyResult)
    (hr : requestResult s.asyncCopyCookie.reqSz (s.asyncCopyCookie.reqDOff ≤ s.sizeBytes) (impl s m)
      m = r) {t : Buffer}
    (ht : s.heuristicallyTrackWrittenBytes s.asyncCopyCookie.reqDOff r.bytesCopied = t) :
    s.tryEndCopyFromLinear impl m =
      if r.err ≠ .again then
        ⟨r.err, r.bytesCopied, t.modifyCookie AsyncCopyCookie.concludeDst, r.mem⟩
      else ⟨r.err, r.bytesCopied, t.modifyCookie (·.recordBytesCopied r.bytesCopied), r.mem⟩ := by
  rw [← ht, ← hr]
  exact if_neg (by simp [hpart])

/-- A copy with linear memory at `l`, of which the first `done` bytes have been tracked in `b`.
`part` says that the copy is to, or from, linear memory. -/
structure Buffer.Resumable (part : AsyncCopyCookie → Bool) (pointer : AsyncCopyCookie → Option ℕ)
    (b₀ : Buffer) (l n dOff sOff done : ℕ) (b s : Buffer) : Prop where
  part : part s.asyncCopyCookie = true
  pointer : pointer s.asyncCopyCookie = some l
  remains : s.asyncCopyCookie.Remains (n - done) (dOff + done) (sOff + done)
  buffer : s = b.modifyCookie fun _ => s.asyncCopyCookie
  size : b.sizeBytes = b₀.sizeBytes
  done_le : done ≤ n

/-- **A copy to linear memory follows its request.** -/
theorem follows_toLinear (hs : off + n ≤ b₀.sizeBytes) (hs' : off + n < 2 ^ 64) :
    (toLinearRounds backend loc).Follows n (fun j => l + j) (fun j => loc (off + j))
      (fun b _ _ => b)
      (b₀.Resumable AsyncCopyCookie.isSrcToLinear AsyncCopyCookie.linearDst l n 0 off)
      (fun b s => s.descChainMetadata = b.descChainMetadata) where
  request done b s hinv := by
    simp only [toLinearRounds, hinv.remains.reqSz, hinv.remains.reqDOff, hinv.remains.reqSOff,
      hinv.pointer, Option.getD_some, Nat.zero_add, Nat.add_assoc]
  again done b s k m hinv hpos hagain hle := by
    have hagain : (backend k s m).err = .again := hagain
    have hdone := hinv.done_le
    have hround := s.tryEndCopyToLinear_honoured hinv.part (backend k)
      (requestResult_pos (hinv.remains.reqSz.symm ▸ hpos) (m := m))
    rw [if_neg (not_not.2 hagain)] at hround
    refine ⟨_, hround.trans (congrArg (CopyEnd.mk · _ _ _) hagain), hinv.part, hinv.pointer,
      hinv.remains.recordBytesCopied hle hdone (by omega) hs', ?_, hinv.size, by omega⟩
    nth_rewrite 1 [hinv.buffer]
    rfl
  last done b s k m hinv hall := by
    have hdone := hinv.done_le
    have hsize : s.sizeBytes = b₀.sizeBytes := by
      rw [hinv.buffer]
      exact hinv.size
    have hround := s.tryEndCopyToLinear_honoured hinv.part (backend k) (requestResult_done
      (by rw [hinv.remains.reqSOff, hsize]; omega) (hinv.remains.reqSz.symm ▸ hall))
    rw [if_pos (by exact nofun), hinv.remains.reqSz] at hround
    refine ⟨_, hround, ?_⟩
    rw [hinv.buffer]
    rfl

/-- **A copy from linear memory follows its request.** -/
theorem follows_fromLinear (hd : off + n ≤ b₀.sizeBytes) (hd' : off + n < 2 ^ 64) :
    (fromLinearRounds backend loc).Follows n (fun j => loc (off + j)) (fun j => l + j)
      (fun b done k => b.heuristicallyTrackWrittenBytes (off + done) k)
      (b₀.Resumable AsyncCopyCookie.isDstFromLinear AsyncCopyCookie.linearSrc l n off 0)
      (fun b s => s.descChainMetadata = b.descChainMetadata) where
  request done b s hinv := by
    simp only [fromLinearRounds, hinv.remains.reqSz, hinv.remains.reqDOff, hinv.remains.reqSOff,
      hinv.pointer, Option.getD_some, Nat.zero_add, Nat.add_assoc]
  again done b s k m hinv hpos hagain hle := by
    have hagain : (backend k s m).err = .again := hagain
    have hdone := hinv.done_le
    have hround := s.tryEndCopyFromLinear_honoured hinv.part (backend k)
      (requestResult_pos (hinv.remains.reqSz.symm ▸ hpos) (m := m)) rfl
    rw [if_neg (not_not.2 hagain), hinv.remains.reqDOff] at hround
    have hcookie : (s.heuristicallyTrackWrittenBytes (off + done)
        (backend k s m).bytesCopied).asyncCopyCookie = s.asyncCopyCookie :=
      Buffer.cookie_heuristicallyTrack
    refine ⟨_, hround.trans (congrArg (CopyEnd.mk · _ _ _) hagain), ?_, ?_, ?_, ?_, ?_, ?_⟩
    · rw [Buffer.asyncCopyCookie_modifyCookie, hcookie]
      exact hinv.part
    · rw [Buffer.asyncCopyCookie_modifyCookie, hcookie]
      exact hinv.pointer
    · rw [Buffer.asyncCopyCookie_modifyCookie, hcookie]
      exact hinv.remains.recordBytesCopied hle hdone hd' (by omega)
    · rw [Buffer.asyncCopyCookie_modifyCookie, hcookie]
      nth_rewrite 1 [hinv.buffer]
      rw [Buffer.heuristicallyTrack_modifyCookie]
      rfl
    · rw [Buffer.heuristicallyTrack_frame]
      exact hinv.size
    · have hle : (backend k s m).bytesCopied ≤ n - done := hle
      show done + (backend k s m).bytesCopied ≤ n
      omega
  last done b s k m hinv hall := by
    have hdone := hinv.done_le
    have hsize : s.sizeBytes = b₀.sizeBytes := by
      rw [hinv.buffer]
      exact hinv.size
    have hround := s.tryEndCopyFromLinear_honoured hinv.part (backend k) (requestResult_done
      (by rw [hinv.remains.reqDOff, hsize]; omega) (hinv.remains.reqSz.symm ▸ hall)) rfl
    rw [if_pos (by exact nofun), hinv.remains.reqSz, hinv.remains.reqDOff] at hround
    refine ⟨_, hround, ?_⟩
    rw [hinv.buffer, Buffer.heuristicallyTrack_modifyCookie]
    rfl

end Linear

/-! ## Rounds and single copies -/

namespace ResumableCopy

theorem trackFrom_heuristically (b : Buffer) (off done n : ℕ) (cuts : List ℕ) :
    trackFrom (fun b done k => b.heuristicallyTrackWrittenBytes (off + done) k) b done n cuts =
      b.trackRounds (off + done) n cuts := by
  induction cuts generalizing b done n with
  | nil => rfl
  | cons k cuts ih => rw [trackFrom, ih, Buffer.trackRounds, Nat.add_assoc]

theorem trackFrom_id (b : Buffer) (done n : ℕ) (cuts : List ℕ) :
    trackFrom (fun b _ _ => b) b done n cuts = b := by
  induction cuts generalizing done n with
  | nil => rfl
  | cons k cuts ih => rw [trackFrom, ih]

/-- **A copy that follows its request**, from its start, differs from a single copy in the prefixes
only. -/
theorem Follows.agreesWith_iff {σ : Type} {c : ResumableCopy σ} {n : ℕ} {ld ls : ℕ → ℕ}
    {track : Buffer → ℕ → ℕ → Buffer} {Inv : ℕ → Buffer → σ → Prop} {buffer : σ → Buffer}
    (hf : c.Follows n ld ls track Inv
      (fun b s => (buffer s).descChainMetadata = b.descChainMetadata))
    (hinj : ∀ i < n, ∀ j < n, ld i = ld j → i = j) (hdisj : ∀ i < n, ∀ j < n, ld i ≠ ls j)
    {cuts : List ℕ} {retries : ℕ} {b b' : Buffer} {s : σ} {m : Mem} {r : CopyEnd σ}
    (hinv : Inv 0 b s) (hsplit : c.Splits cuts (s, 0) m) (hretries : cuts.length ≤ retries)
    (herr : r.err = .none) (hbytes : r.bytesCopied = n) (hcopied : Copied ld ls n m r.mem)
    (hb' : (buffer r.state).descChainMetadata = b'.descChainMetadata) :
    (c.AgreesWith cuts retries s m r buffer n ld ls ↔ ∀ i < (buffer r.state).active,
      (trackFrom track b 0 n cuts).prefixOf i = b'.prefixOf i) ∧ cuts.sum ≤ n := by
  obtain ⟨s', m', hloop, hmoves, hcopied', hsum, hfinal⟩ := @Follows.retryLoop _ _ _ _ _ _ _ _ hf
    hinj hdisj cuts 0 retries 0 b (s, 0) m (Nat.zero_le n) hinv hsplit hretries
  simp only [Nat.zero_add, Nat.sub_zero] at hloop hmoves hcopied' hsum hfinal
  have hrun : c.run retries s m = ⟨.none, n, s', m'⟩ := hloop
  have hrounds : ∀ i, (buffer (c.run retries s m).state.1).prefixOf i =
      (trackFrom track b 0 n cuts).prefixOf i := by
    intro i
    rw [hrun, Buffer.prefixOf, Buffer.prefixOf, hfinal]
  have honce : ∀ i, (buffer r.state).prefixOf i = b'.prefixOf i := by
    intro i
    rw [Buffer.prefixOf, Buffer.prefixOf, hb']
  refine ⟨⟨fun hsame i hi => ?_, fun hsame => ?_⟩, hsum⟩
  · rw [← hrounds, ← honce, hsame.prefixes i hi]
  · refine ⟨⟨by rw [hrun], herr⟩, ⟨by rw [hrun], hbytes⟩, hmoves, ?_, ?_, fun i hi => ?_⟩
    · rw [hrun]
      exact hcopied'
    · rw [hrun]
      exact hcopied'.unique hcopied
    · rw [hrounds, honce, hsame i hi]

end ResumableCopy

/-! ### A request that is performed at once -/

theorem requestResult_copied {n : ℕ} {ld ls : ℕ → ℕ} {inBounds : Prop} [Decidable inBounds]
    {r : CopyResult} {m : Mem} (hin : inBounds)
    (h : 0 < n → ∃ m', r = ⟨.none, n, m'⟩ ∧ Copied ld ls n m m') :
    ∃ m', requestResult n inBounds r m = ⟨.none, n, m'⟩ ∧ Copied ld ls n m m' := by
  by_cases hpos : 0 < n
  · rw [requestResult_pos hpos]
    exact h hpos
  · obtain rfl := Nat.eq_zero_of_not_pos hpos
    refine ⟨m, ?_, .zero _ _ m⟩
    rw [requestResult, if_neg hpos, if_pos hin]

section OneShot

variable {h : Heap} {src dst : BufId} {dAcc sAcc : ChainAccessor} {ld ls : ℕ → ℕ}
  {n dOff sOff l : ℕ} {m : Mem}

theorem Heap.toSgResult_copied (hd : Buffer.SgDest dAcc (h dst) ld dOff (dOff + n))
    (hs : Buffer.SgSource sAcc (h src) ls sOff (sOff + n))
    (hdisj : ∀ i < n, ∀ j < n, ld (dOff + i) ≠ ls (sOff + j)) :
    ∃ m', h.toSgResult src dst dAcc sAcc n dOff sOff none m = ⟨.none, n, m'⟩ ∧
      Copied (fun k => ld (dOff + k)) (fun k => ls (sOff + k)) n m m' := by
  have hdle := hd.le
  have hsle := hs.le
  exact requestResult_copied ⟨by omega, by omega⟩ fun hn => Buffer.tryEndCopyToSgImpl_spec hn
    hd.modifyCookie hs.modifyCookie hdisj rfl rfl rfl

theorem Buffer.fromLinearResult_copied {b : Buffer} (hd : SgDest dAcc b ld dOff (dOff + n))
    (hdisj : ∀ i < n, ∀ j < n, ld (dOff + i) ≠ l + j) :
    ∃ m', b.fromLinearResult l dAcc n dOff none m = ⟨.none, n, m'⟩ ∧
      Copied (fun k => ld (dOff + k)) (fun k => l + k) n m m' := by
  have hle := hd.le
  exact requestResult_copied (by omega) fun hn =>
    copyToBufferImpl_spec hn hd.modifyCookie hdisj rfl rfl

theorem Buffer.toLinearResult_copied {b : Buffer} (hs : SgSource sAcc b ls sOff (sOff + n))
    (hdisj : ∀ i < n, ∀ j < n, l + i ≠ ls (sOff + j)) :
    ∃ m', b.toLinearResult l sAcc n sOff none m = ⟨.none, n, m'⟩ ∧
      Copied (fun k => l + k) (fun k => ls (sOff + k)) n m m' := by
  have hle := hs.le
  exact requestResult_copied (by omega) fun hn =>
    copyFromBufferImpl_spec hn hs.modifyCookie hdisj rfl rfl

theorem resumed_toSg_iff (hne : src ≠ dst) (hd : Buffer.SgDest dAcc (h dst) ld dOff (dOff + n))
    (hs : Buffer.SgSource sAcc (h src) ls sOff (sOff + n))
    (hdisj : ∀ i < n, ∀ j < n, ld (dOff + i) ≠ ls (sOff + j)) (hpass : h.Honoured src dst)
    {backend : ℕ → Buffer → Buffer → Mem → CopyResult} {cuts : List ℕ} {retries : ℕ}
    (hretries : cuts.length ≤ retries)
    (hsplit : (toSgRounds src dst backend ld ls).Splits cuts
      ((h.startCopyToSg src dst n dOff sOff .none).2.2, 0) m) :
    (toSgRounds src dst backend ld ls).AgreesWith cuts retries
        (h.startCopyToSg src dst n dOff sOff .none).2.2 m
        (h.copyToSg src dst dAcc sAcc n dOff sOff none m) (· dst) n (fun j => ld (dOff + j))
        (fun j => ls (sOff + j)) ↔
      ∀ i < (h dst).active, ¬(h dst).CutsPrefix dOff n cuts i := by
  have hdle := hd.le
  have hsle := hs.le
  have hdmax := hd.wellFormed.size_le
  have hsmax := hs.wellFormed.size_le
  have hmax : uint32Max.toNat = 2 ^ 32 - 1 := rfl
  have hstart : (h.startCopyToSg src dst n dOff sOff .none).2.2 =
      (h.modifyCookie src AsyncCopyCookie.initSgSrcToSgDst).modifyCookie dst
        fun c => c.initSgDstFromSgSrc src n dOff sOff := by
    rw [Heap.startCopyToSg, if_neg (by simp [hpass.1, hpass.2])]
    rfl
  have hstartDst : (h.startCopyToSg src dst n dOff sOff .none).2.2 dst =
      (h dst).modifyCookie fun c => c.initSgDstFromSgSrc src n dOff sOff := by
    rw [hstart, Heap.modifyCookie, Function.update_self, Heap.modifyCookie,
      Function.update_of_ne hne.symm]
  have hinv : h.Resumable src dst n dOff sOff 0 (h dst)
      (h.startCopyToSg src dst n dOff sOff .none).2.2 := by
    refine ⟨Heap.serving_start hpass hne rfl, ?_, ?_, rfl, ?_, Nat.zero_le n⟩
    · rw [hstartDst]
      exact ⟨rfl, rfl, rfl⟩
    · rw [hstartDst]
      rfl
    · rw [hstart, Heap.modifyCookie, Function.update_of_ne hne, Heap.modifyCookie,
        Function.update_self]
      rfl
  obtain ⟨h'', hrun, hend⟩ :=
    @Heap.copyToSg_run h src dst dAcc sAcc none n dOff sOff m hne hpass.1 hpass.2
  obtain ⟨m', hresult, hcopied⟩ := @Heap.toSgResult_copied h src dst dAcc sAcc ld ls n dOff sOff m
    hd hs hdisj
  rw [hresult] at hrun hend
  have hfollows := @follows_toSg h src dst n dOff sOff ld ls backend hne hdle hsle (by omega)
    (by omega)
  obtain ⟨hiff, hsum⟩ := @ResumableCopy.Follows.agreesWith_iff _ _ _ _ _ _ _ (· dst) hfollows
    (fun i hi j hj heq => by
      have := hd.inj (dOff + i) (by omega) (dOff + j) (by omega) heq
      omega)
    hdisj cuts retries (h dst) ((h dst).heuristicallyTrackWrittenBytes dOff n) _ m
    (h.copyToSg src dst dAcc sAcc n dOff sOff none m) hinv hsplit hretries (by rw [hrun])
    (by rw [hrun]) (by rw [hrun]; exact hcopied) (by rw [hrun]; dsimp only; rw [hend]; rfl)
  have hactive : ((h.copyToSg src dst dAcc sAcc n dOff sOff none m).state dst).active =
      (h dst).active := by
    rw [hrun]
    dsimp only
    rw [hend, Buffer.heuristicallyTrack_frame]
    rfl
  refine hiff.trans ?_
  rw [hactive, ResumableCopy.trackFrom_heuristically]
  exact forall₂_congr fun i hi =>
    Buffer.prefixOf_trackRounds_eq_iff hd.wellFormed hdle hsum hi

theorem resumed_fromLinear_iff {b : Buffer} (hd : Buffer.SgDest dAcc b ld dOff (dOff + n))
    (hdisj : ∀ i < n, ∀ j < n, ld (dOff + i) ≠ l + j) (hidle : b.asyncCopyCookie.isDst = false)
    {backend : ℕ → Buffer → Mem → CopyResult} {cuts : List ℕ} {retries : ℕ}
    (hretries : cuts.length ≤ retries)
    (hsplit : (fromLinearRounds backend ld).Splits cuts
      ((b.startCopyFromLinear (some l) n dOff .none).2.2, 0) m) :
    (fromLinearRounds backend ld).AgreesWith cuts retries
        (b.startCopyFromLinear (some l) n dOff .none).2.2 m
        (b.copyFromLinear (some l) dAcc n dOff none m) id n (fun j => ld (dOff + j))
        (fun j => l + j) ↔
      ∀ i < b.active, ¬b.CutsPrefix dOff n cuts i := by
  have hdle := hd.le
  have hdmax := hd.wellFormed.size_le
  have hmax : uint32Max.toNat = 2 ^ 32 - 1 := rfl
  have hstart : (b.startCopyFromLinear (some l) n dOff .none).2.2 =
      b.modifyCookie fun c => c.initSgDstFromLinearSrc l n dOff := by
    rw [Buffer.startCopyFromLinear, Buffer.startLinear]
    dsimp only
    rw [if_neg (by simp [hidle])]
    rfl
  have hinv : b.Resumable AsyncCopyCookie.isDstFromLinear AsyncCopyCookie.linearSrc l n dOff 0 0 b
      (b.startCopyFromLinear (some l) n dOff .none).2.2 := by
    rw [hstart]
    exact ⟨rfl, rfl, ⟨rfl, rfl, rfl⟩, rfl, rfl, Nat.zero_le n⟩
  obtain ⟨m', hresult, hcopied⟩ := @Buffer.fromLinearResult_copied dAcc ld n dOff l m b hd hdisj
  have hrun := @Buffer.copyFromLinear_run b dAcc none l n dOff m hidle
  rw [hresult] at hrun
  have hfollows := @follows_fromLinear b n dOff l ld backend hdle (by omega)
  obtain ⟨hiff, hsum⟩ := @ResumableCopy.Follows.agreesWith_iff _ _ _ _ _ _ _ id hfollows
    (fun i hi j hj heq => by
      have := hd.inj (dOff + i) (by omega) (dOff + j) (by omega) heq
      omega)
    hdisj cuts retries b (b.heuristicallyTrackWrittenBytes dOff n) _ m
    (b.copyFromLinear (some l) dAcc n dOff none m) hinv hsplit hretries (by rw [hrun])
    (by rw [hrun]) (by rw [hrun]; exact hcopied) (by rw [hrun]; rfl)
  have hactive : (id (b.copyFromLinear (some l) dAcc n dOff none m).state).active = b.active := by
    rw [hrun, Buffer.heuristicallyTrack_frame]
    rfl
  refine hiff.trans ?_
  rw [hactive, ResumableCopy.trackFrom_heuristically]
  exact forall₂_congr fun i hi =>
    Buffer.prefixOf_trackRounds_eq_iff hd.wellFormed hdle hsum hi

/-- The rounds of a copy to linear memory. The buffer is only read, and nothing is tracked. -/
theorem resumed_toLinear {b : Buffer} (hs : Buffer.SgSource sAcc b ls sOff (sOff + n))
    (hdisj : ∀ i < n, ∀ j < n, l + i ≠ ls (sOff + j)) (hidle : b.asyncCopyCookie.isDst = false)
    {backend : ℕ → Buffer → Mem → CopyResult} {cuts : List ℕ} {retries : ℕ}
    (hretries : cuts.length ≤ retries)
    (hsplit : (toLinearRounds backend ls).Splits cuts
      ((b.startCopyToLinear (some l) n sOff .none).2.2, 0) m) :
    (toLinearRounds backend ls).AgreesWith cuts retries
      (b.startCopyToLinear (some l) n sOff .none).2.2 m
      (b.copyToLinear (some l) sAcc n sOff none m) id n (fun j => l + j)
      (fun j => ls (sOff + j)) := by
  have hsle := hs.le
  have hsmax := hs.wellFormed.size_le
  have hmax : uint32Max.toNat = 2 ^ 32 - 1 := rfl
  have hstart : (b.startCopyToLinear (some l) n sOff .none).2.2 =
      b.modifyCookie fun c => c.initSgSrcToLinearDst l n sOff := by
    rw [Buffer.startCopyToLinear, Buffer.startLinear]
    dsimp only
    rw [if_neg (by simp [hidle])]
    rfl
  have hinv : b.Resumable AsyncCopyCookie.isSrcToLinear AsyncCopyCookie.linearDst l n 0 sOff 0 b
      (b.startCopyToLinear (some l) n sOff .none).2.2 := by
    rw [hstart]
    exact ⟨rfl, rfl, ⟨rfl, rfl, rfl⟩, rfl, rfl, Nat.zero_le n⟩
  obtain ⟨m', hresult, hcopied⟩ := @Buffer.toLinearResult_copied sAcc ls n sOff l m b hs hdisj
  have hrun := @Buffer.copyToLinear_run b sAcc none l n sOff m hidle
  rw [hresult] at hrun
  have hfollows := @follows_toLinear b n sOff l ls backend hsle (by omega)
  obtain ⟨hiff, -⟩ := @ResumableCopy.Follows.agreesWith_iff _ _ _ _ _ _ _ id hfollows
    (fun i hi j hj heq => by omega) hdisj cuts retries b b _ m
    (b.copyToLinear (some l) sAcc n sOff none m) hinv hsplit hretries (by rw [hrun])
    (by rw [hrun]) (by rw [hrun]; exact hcopied) (by rw [hrun]; rfl)
  exact hiff.2 fun i _ => by rw [ResumableCopy.trackFrom_id]

end OneShot

/-- **When a copy in rounds is as good as a single copy.** Every backend, and every way in which it
splits a well-formed request into rounds: the calls of `try_end` copy every byte of the request once
and to its place, report all of them and leave the memory that a single copy of the base class
leaves. To linear memory nothing else is recorded. To a buffer the recorded prefixes are those of
the single copy, too, if and only if no round ends inside a prefix of the destination
(`CutsPrefix`). -/
theorem resumed_iff {h : Heap} {src dst : BufId} {dAcc sAcc : ChainAccessor} {ld ls : ℕ → ℕ}
    {n dOff sOff lSrc lDst : ℕ} {m : Mem} (hne : src ≠ dst)
    (hd : Buffer.SgDest dAcc (h dst) ld dOff (dOff + n))
    (hs : Buffer.SgSource sAcc (h src) ls sOff (sOff + n))
    (hdisj : ∀ i < n, ∀ j < n, ld (dOff + i) ≠ ls (sOff + j))
    (hdisjSrc : ∀ i < n, ∀ j < n, ld (dOff + i) ≠ lSrc + j)
    (hdisjDst : ∀ i < n, ∀ j < n, lDst + i ≠ ls (sOff + j))
    (hsrc : (h src).asyncCopyCookie.isDst = false)
    (hdst : (h dst).asyncCopyCookie.inUse = false) :
    (∀ backend cuts retries, cuts.length ≤ retries →
      (toSgRounds src dst backend ld ls).Splits cuts
        ((h.startCopyToSg src dst n dOff sOff .none).2.2, 0) m →
      ((toSgRounds src dst backend ld ls).AgreesWith cuts retries
          (h.startCopyToSg src dst n dOff sOff .none).2.2 m
          (h.copyToSg src dst dAcc sAcc n dOff sOff none m) (· dst) n (fun j => ld (dOff + j))
          (fun j => ls (sOff + j)) ↔
        ∀ i < (h dst).active, ¬(h dst).CutsPrefix dOff n cuts i)) ∧
    (∀ backend cuts retries, cuts.length ≤ retries →
      (fromLinearRounds backend ld).Splits cuts
        (((h dst).startCopyFromLinear (some lSrc) n dOff .none).2.2, 0) m →
      ((fromLinearRounds backend ld).AgreesWith cuts retries
          ((h dst).startCopyFromLinear (some lSrc) n dOff .none).2.2 m
          ((h dst).copyFromLinear (some lSrc) dAcc n dOff none m) id n (fun j => ld (dOff + j))
          (fun j => lSrc + j) ↔
        ∀ i < (h dst).active, ¬(h dst).CutsPrefix dOff n cuts i)) ∧
    ∀ backend cuts retries, cuts.length ≤ retries →
      (toLinearRounds backend ls).Splits cuts
        (((h src).startCopyToLinear (some lDst) n sOff .none).2.2, 0) m →
      (toLinearRounds backend ls).AgreesWith cuts retries
        ((h src).startCopyToLinear (some lDst) n sOff .none).2.2 m
        ((h src).copyToLinear (some lDst) sAcc n sOff none m) id n (fun j => lDst + j)
        (fun j => ls (sOff + j)) :=
  ⟨fun _ _ _ => resumed_toSg_iff hne hd hs hdisj ⟨hsrc, hdst⟩,
    fun _ _ _ => resumed_fromLinear_iff hd hdisjSrc (cookie_idle hdst).1,
    fun _ _ _ => resumed_toLinear hs hdisjDst hsrc⟩

/-! ### Two rounds -/

/-- Where the payload of `threeFive` is. -/
def threeFiveAt (p : ℕ) : ℕ := if p < 3 then 256 + p else 509 + p

/-- Where the payload of `fourFour` is. -/
def fourFourAt (p : ℕ) : ℕ := if p < 4 then 768 + p else 1020 + p

theorem fourFourAt_inj {i j : ℕ} (h : fourFourAt i = fourFourAt j) : i = j := by
  unfold fourFourAt at h
  split_ifs at h <;> omega

/-- `threeFive` and `fourFour`. -/
def twoBuffers : Heap := fun i => if i = 0 then threeFive else fourFour

/-- Two bytes and then four, from offset 1 of `threeFive` to offset 2 of `fourFour`. -/
def twoThenFour (k : ℕ) (_ _ : Buffer) (m : Mem) : CopyResult :=
  if k = 0 then ⟨.again, 2, memcpy m 770 257 2⟩ else ⟨.none, 4, memcpy m 1024 512 4⟩

theorem twoThenFour_splits :
    (toSgRounds 0 1 twoThenFour fourFourAt threeFiveAt).Splits [2]
      ((twoBuffers.startCopyToSg 0 1 6 2 1 .none).2.2, 0) UInt8.ofNat := by
  refine ⟨by decide, ⟨by decide, ?_⟩, rfl, rfl, fun _ => ⟨⟨by decide, ?_⟩, rfl, rfl⟩⟩
  · exact .memcpy (by decide) (by decide) _
  · exact .memcpy (by decide) (by decide) _

/-- Nothing has been recorded of `fourFour`, so two rounds are as good as one. -/
theorem resumed_twoThenFour :
    (toSgRounds 0 1 twoThenFour fourFourAt threeFiveAt).AgreesWith [2] 1
      (twoBuffers.startCopyToSg 0 1 6 2 1 .none).2.2 UInt8.ofNat
      (twoBuffers.copyToSg 0 1 identityAccessor identityAccessor 6 2 1 none UInt8.ofNat) (· 1) 6
      (fun j => fourFourAt (2 + j)) (fun j => threeFiveAt (1 + j)) := by
  refine ((@resumed_iff twoBuffers 0 1 identityAccessor identityAccessor fourFourAt threeFiveAt 6 2
    1 4096 8192 UInt8.ofNat (by decide)
    ⟨fourFour_wellFormed, by decide, translates_identity (by decide) (by decide),
      by unfold Buffer.WritableRange; decide, fun i _ j _ => fourFourAt_inj⟩
    ⟨threeFive_wellFormed, by decide, translates_identity (by decide) (by decide)⟩
    (by decide) (by decide) (by decide) (by decide) (by decide)).1 twoThenFour [2] 1 le_rfl
    twoThenFour_splits).2 ?_
  decide

/-- `fourFour` after a copy of three bytes to its start. -/
def threeRecorded : Buffer :=
  (fourFour.copyFromLinear (some 4096) identityAccessor 3 0 none UInt8.ofNat).state

/-- Two bytes and then two, from linear memory to the start of `fourFour`. -/
def twoThenTwo (k : ℕ) (_ : Buffer) (m : Mem) : CopyResult :=
  if k = 0 then ⟨.again, 2, memcpy m 768 4096 2⟩ else ⟨.none, 2, memcpy m 770 4098 2⟩

/-- **Two rounds that leave another prefix.** Three bytes of the first descriptor are recorded, and
now four bytes are copied there. At once they make the prefix 4. In two rounds of two bytes the
first ends inside the prefix and makes it 4294967295, where it stays. -/
theorem resumed_overrun :
    Buffer.SgDest identityAccessor threeRecorded fourFourAt 0 (0 + 4) ∧
    threeRecorded.asyncCopyCookie.inUse = false ∧
    (fromLinearRounds twoThenTwo fourFourAt).Splits [2]
      ((threeRecorded.startCopyFromLinear (some 4096) 4 0 .none).2.2, 0) UInt8.ofNat ∧
    ((fromLinearRounds twoThenTwo fourFourAt).run 1
      (threeRecorded.startCopyFromLinear (some 4096) 4 0 .none).2.2
      UInt8.ofNat).state.1.prefixOf 0 = 4294967295 ∧
    (threeRecorded.copyFromLinear (some 4096) identityAccessor 4 0 none
      UInt8.ofNat).state.prefixOf 0 = 4 ∧
    ¬(fromLinearRounds twoThenTwo fourFourAt).AgreesWith [2] 1
      (threeRecorded.startCopyFromLinear (some 4096) 4 0 .none).2.2 UInt8.ofNat
      (threeRecorded.copyFromLinear (some 4096) identityAccessor 4 0 none UInt8.ofNat) id 4
      (fun j => fourFourAt (0 + j)) (fun j => 4096 + j) := by
  have hwf : threeRecorded.WellFormed :=
    ⟨⟨by decide, by decide, by decide, by decide, by decide⟩, by decide⟩
  refine ⟨⟨hwf, by decide, translates_identity (by decide) (by decide),
    by unfold Buffer.WritableRange; decide, fun i _ j _ => fourFourAt_inj⟩, rfl, ?_, by decide,
    by decide, fun hsame => ?_⟩
  · refine ⟨by decide, ⟨by decide, ?_⟩, rfl, rfl, fun _ => ⟨⟨by decide, ?_⟩, rfl, rfl⟩⟩
    · exact .memcpy (by decide) (by decide) _
    · exact .memcpy (by decide) (by decide) _
  · exact absurd (hsame.prefixes 0 (by decide)) (by decide)

end Vml
