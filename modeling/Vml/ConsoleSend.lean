import Vml.ConsoleLifecycle
import Vml.SgWalkAccept
import Vml.SgWritten

/-!
# Sending to the guest

`to_guest` cuts a byte string into the chains that the guest has posted on the RX queue. Each chain
takes as much as fits, and is published before the next one is taken. The length that is published
comes from the written prefixes of the descriptors, not from the loop.

**Where the bytes are.** The accessor says where a descriptor is in host memory (`locate`). Nothing
is asked of what it says: the descriptors may overlap, and a later byte replaces an earlier one.

**When a send fails.** A send that has begun (`Begins`) has published bytes before it finds that the
chains run out, or that a descriptor cannot be written. The caller learns only that it has failed.

Main results: `toGuest_delivers` and `failed_sends_iff`.
-/

namespace Vml

open Buffer (ChainEntry Follows)

/-! ## Where a payload is -/

/-- The host addresses of the first `n` bytes of some descriptors. Each descriptor is translated as
far as it is used. -/
def locate (acc : ChainAccessor) : List ChainEntry → ℕ → Option (List ℕ)
  | _, 0 => some []
  | [], _ + 1 => none
  | e :: es, n + 1 =>
      let k := min e.length.toNat (n + 1)
      match acc.vqAddrToWHva e.address k with
      | .error _ => none
      | .ok hva => (locate acc es (n + 1 - k)).map ((List.range k).map (hva + ·) ++ ·)

/-- A translation for writing that fails has an error code, and one that does not ends in the
guest's memory. -/
structure ChainAccessor.WritesTo (acc : ChainAccessor) (guestMem : Set ℕ) : Prop where
  error : ∀ vqa k, acc.vqAddrToWHva vqa k ≠ .error .none
  mem : ∀ vqa k hva, acc.vqAddrToWHva vqa k = .ok hva → ∀ j < k, hva + j ∈ guestMem

section Locate

variable {acc : ChainAccessor} {guestMem : Set ℕ} {es : List ChainEntry} {n : ℕ} {locs : List ℕ}

/-- There is an address for each byte, in the guest's memory. -/
theorem locate_spec (h : locate acc es n = some locs) :
    locs.length = n ∧ (acc.WritesTo guestMem → ∀ a ∈ locs, a ∈ guestMem) := by
  induction es generalizing n locs with
  | nil =>
      cases n with
      | zero =>
          rw [locate, Option.some.injEq] at h
          exact h ▸ ⟨rfl, fun _ => nofun⟩
      | succ n => exact absurd h nofun
  | cons e es ih =>
      cases n with
      | zero =>
          rw [locate, Option.some.injEq] at h
          exact h ▸ ⟨rfl, fun _ => nofun⟩
      | succ n =>
          rw [locate] at h
          obtain ⟨k, hk⟩ : ∃ k, k = min e.length.toNat (n + 1) := ⟨_, rfl⟩
          rw [← hk] at h
          cases htr : acc.vqAddrToWHva e.address k with
          | error err =>
              rw [htr] at h
              exact absurd h nofun
          | ok hva =>
              rw [htr] at h
              obtain ⟨rest, hrest, rfl⟩ := Option.map_eq_some_iff.1 h
              obtain ⟨hlen, hmem⟩ := ih hrest
              refine ⟨?_, fun hacc a ha => ?_⟩
              · rw [List.length_append, List.length_map, List.length_range, hlen]
                omega
              · rcases List.mem_append.1 ha with hfirst | hrest
                · obtain ⟨j, hj, rfl⟩ := List.mem_map.1 hfirst
                  exact hacc.mem _ _ _ htr j (List.mem_range.1 hj)
                · exact hmem hacc a hrest

end Locate

namespace Buffer

/-! ## The copy -/

section Linear

variable {b : Buffer} {acc : ChainAccessor} {guestMem : Set ℕ} {it left rem l n : ℕ} {m : Mem}

/-- The first `k` bytes of a descriptor can be written. -/
def CanWrite (b : Buffer) (acc : ChainAccessor) (it k : ℕ) : Prop :=
  b.shouldOnlyRead (b.descChain it).flags = false ∧
    ∃ hva, acc.vqAddrToWHva (b.descChain it).address k = .ok hva ∧
      acc.vqAddrToWHvaPost (b.descChain it).address k hva = .none

/-- A turn of the loop copies the start of a descriptor. -/
theorem copyLinearLoop_canWrite (hrem : rem ≠ 0) {k : ℕ} (hk : k = min (b.len it) rem)
    (h : b.CanWrite acc it k) :
    ∃ hva, acc.vqAddrToWHva (b.descChain it).address k = .ok hva ∧
      copyLinearLoop true b acc bulkCopierDefault (left + 1) it 0 rem l n m =
        copyLinearLoop true b acc bulkCopierDefault left (it + 1) 0 (rem - k) (l + k) (n + k)
          (memcpy m hva l k) := by
  obtain ⟨hflags, hva, hok, hpost⟩ := h
  refine ⟨hva, hok, ?_⟩
  have hzero : (b.descChain it).address + UInt64.ofNat 0 = (b.descChain it).address :=
    UInt64.add_zero _
  rw [copyLinearLoop, if_neg hrem]
  dsimp only
  rw [Nat.sub_zero, ← hk, Bool.true_and, hflags, if_neg Bool.false_ne_true, if_pos rfl, hzero,
    copyToVqa_spec hok hpost, if_neg (not_not.2 rfl)]

/-- It copies nothing that it would count if this descriptor cannot be written. -/
theorem copyLinearLoop_cannotWrite (hacc : acc.WritesTo guestMem) (hrem : rem ≠ 0) {k : ℕ}
    (hk : k = min (b.len it) rem) (h : ¬b.CanWrite acc it k) :
    (copyLinearLoop true b acc bulkCopierDefault (left + 1) it 0 rem l n m).err ≠ .none ∧
      (copyLinearLoop true b acc bulkCopierDefault (left + 1) it 0 rem l n m).bytesCopied = n := by
  have hzero : (b.descChain it).address + UInt64.ofNat 0 = (b.descChain it).address :=
    UInt64.add_zero _
  rw [copyLinearLoop, if_neg hrem]
  dsimp only
  rw [Nat.sub_zero, ← hk, Bool.true_and, hzero, if_pos rfl]
  by_cases hflags : b.shouldOnlyRead (b.descChain it).flags = true
  · rw [if_pos hflags]
    exact ⟨(by simp), rfl⟩
  · rw [if_neg hflags, if_pos]
    · exact ⟨(by simp), rfl⟩
    · rw [Bool.not_eq_true] at hflags
      intro hnone
      rw [ChainAccessor.copyToVqa] at hnone
      cases hok : acc.vqAddrToWHva (b.descChain it).address k with
      | error err =>
          rw [hok] at hnone
          exact hacc.error _ _ (hok.trans (congrArg _ hnone))
      | ok hva =>
          rw [hok] at hnone
          exact h ⟨hflags, hva, hok, hnone⟩

theorem copyLinearLoop_bounds (hacc : acc.WritesTo guestMem) :
    n ≤ (copyLinearLoop true b acc bulkCopierDefault left it 0 rem l n m).bytesCopied ∧
      (copyLinearLoop true b acc bulkCopierDefault left it 0 rem l n m).bytesCopied ≤ n + rem := by
  induction left generalizing it rem l n m with
  | zero => exact ⟨le_rfl, Nat.le_add_right _ _⟩
  | succ left ih =>
      by_cases hrem : rem = 0
      · rw [hrem, copyLinearLoop_zero]
        exact ⟨le_rfl, le_rfl⟩
      · by_cases hcan : b.CanWrite acc it (min (b.len it) rem)
        · obtain ⟨hva, -, heq⟩ := copyLinearLoop_canWrite hrem rfl hcan
          rw [heq]
          obtain ⟨hlow, hhigh⟩ := @ih (it + 1) (rem - min (b.len it) rem)
            (l + min (b.len it) rem) (n + min (b.len it) rem)
            (memcpy m hva l (min (b.len it) rem))
          omega
        · rw [(copyLinearLoop_cannotWrite hacc hrem rfl hcan).2]
          omega

theorem entries_drop (h : it < b.active) :
    b.entries.drop it = b.entry it :: b.entries.drop (it + 1) := by
  have hlen : it < b.entries.length := by rwa [length_entries]
  rw [List.drop_eq_getElem_cons hlen]
  simp [entries]

/-- **A copy that succeeds** has stored the bytes where the descriptors are. -/
theorem copyLinearLoop_stored (hacc : acc.WritesTo guestMem) (hleft : it + left = b.active)
    (hfit : b.descOffset it + rem ≤ b.descOffset b.active) (hsrc : ∀ j < rem, l + j ∉ guestMem)
    (h : (copyLinearLoop true b acc bulkCopierDefault left it 0 rem l n m).err = .none) :
    ∃ locs, locate acc (b.entries.drop it) rem = some locs ∧
      (copyLinearLoop true b acc bulkCopierDefault left it 0 rem l n m).mem =
        stored m locs (bytesAt m (l + ·) rem) := by
  induction left generalizing it rem l n m with
  | zero =>
      have hrem : rem = 0 := by
        have hend : it = b.active := hleft
        rw [hend] at hfit
        omega
      subst hrem
      exact ⟨[], by rw [locate], rfl⟩
  | succ left ih =>
      obtain rfl | ⟨rem, rfl⟩ : rem = 0 ∨ ∃ r, rem = r + 1 := by
        cases rem
        · exact .inl rfl
        · exact .inr ⟨_, rfl⟩
      · rw [copyLinearLoop_zero]
        exact ⟨[], by rw [locate], rfl⟩
      · obtain ⟨k, hk⟩ : ∃ k, k = min (b.len it) (rem + 1) := ⟨_, rfl⟩
        have hcan : b.CanWrite acc it k := by
          by_contra hcan
          exact (copyLinearLoop_cannotWrite hacc (Nat.succ_ne_zero rem) hk hcan).1 h
        obtain ⟨hva, hok, heq⟩ := copyLinearLoop_canWrite (Nat.succ_ne_zero rem) hk hcan
        rw [heq] at h ⊢
        have hmem : ∀ j < k, hva + j ∈ guestMem := hacc.mem _ _ _ hok
        have hit : it < b.active := by omega
        have hnext : b.descOffset (it + 1) = b.descOffset it + b.len it := offsetOf_succ ..
        have hinside : b.descOffset it + b.len it ≤ b.descOffset b.active := offsetOf_add_le hit
        -- the source is not where the guest's memory is, so the first chunk leaves it alone
        have hkeep : bytesAt (memcpy m hva l k) (l + k + ·) (rem + 1 - k) =
            bytesAt m (l + k + ·) (rem + 1 - k) := by
          refine bytesAt_congr fun j hj => if_neg fun hin => ?_
          have hbad := hsrc (k + j) (by omega)
          have hgood := hmem (l + k + j - hva) (by omega)
          rw [Nat.add_sub_cancel' hin.1, Nat.add_assoc] at hgood
          exact hbad hgood
        obtain ⟨locs, hloc, hstored⟩ := @ih (it + 1) (rem + 1 - k) (l + k) (n + k)
          (memcpy m hva l k) (by omega) (by omega)
          (fun j hj => Nat.add_assoc l k j ▸ hsrc (k + j) (by omega)) h
        refine ⟨(List.range k).map (hva + ·) ++ locs, ?_, ?_⟩
        · rw [entries_drop hit, locate]
          rw [show (b.entry it).length.toNat = b.len it from rfl, ← hk,
            show (b.entry it).address = (b.descChain it).address from rfl, hok]
          dsimp only
          rw [hloc, Option.map_some]
        · rw [hstored, hkeep, memcpy_eq_stored, ← stored_append (by simp)]
          congr 1
          rw [show rem + 1 = k + (rem + 1 - k) by omega, bytesAt_add, Nat.add_sub_cancel_left]
          simp only [Nat.add_assoc]

theorem copyLinearLoop_modifyCookie {linearToSg : Bool} {copier : BulkCopier} {sgOff : ℕ}
    {f : AsyncCopyCookie → AsyncCopyCookie} :
    copyLinearLoop linearToSg (b.modifyCookie f) acc copier left it sgOff rem l n m =
      copyLinearLoop linearToSg b acc copier left it sgOff rem l n m := by
  induction left generalizing it sgOff rem l n m with
  | zero => rfl
  | succ left ih =>
      rw [copyLinearLoop, copyLinearLoop]
      simp only [ih]
      rfl

theorem checkCopyConfiguration_start (hb : b.WellFormed) (hn : 0 < n) (hle : n ≤ b.sizeBytes) :
    b.checkCopyConfiguration n 0 = (.none, 0, 0) := by
  obtain ⟨c, hcheck, hat⟩ := checkCopyConfiguration_spec hb hn (show 0 + n ≤ b.sizeBytes by omega)
  have hactive := hat.lt_active hb.toRecorded (by omega)
  have hpos := hat.pos
  have hfirst : c.1 = 0 := by
    by_contra hne
    have hlen := hb.len_pos 0 (by omega)
    have hin : b.descOffset 0 + b.len 0 ≤ b.descOffset c.1 := offsetOf_add_le (by omega)
    omega
  have hoff : c.2 = 0 := by omega
  rw [hcheck, show c = (0, 0) from Prod.ext hfirst hoff]

/-- **A `copy_from_linear` to the start of a chain** is the loop over all of its descriptors. -/
theorem copyFromLinear_start (hidle : b.asyncCopyCookie.isDst = false) (hb : b.WellFormed)
    (hn : 0 < n) (hle : n ≤ b.sizeBytes) {r : CopyResult}
    (hr : r = copyLinearLoop true b acc bulkCopierDefault b.active 0 0 n l 0 m) :
    b.copyFromLinear (some l) acc n 0 none m = ⟨r.err, r.bytesCopied,
      (b.heuristicallyTrackWrittenBytes 0 r.bytesCopied).modifyCookie AsyncCopyCookie.reset,
        r.mem⟩ := by
  have hresult : b.fromLinearResult l acc n 0 none m = r := by
    obtain ⟨f, hf⟩ : ∃ f : AsyncCopyCookie → AsyncCopyCookie,
      f = fun c => c.initSgDstFromLinearSrc l n 0 := ⟨_, rfl⟩
    have hcheck : (b.modifyCookie f).checkCopyConfiguration n 0 = (.none, 0, 0) :=
      checkCopyConfiguration_start hb.modifyCookie hn hle
    rw [fromLinearResult, requestResult, if_pos hn, ← hf, tryEndCopyFromLinearImpl,
      copyFromtoLinearImpl, if_pos rfl,
      show (b.modifyCookie f).asyncCopyCookie.reqDOff = 0 by rw [hf]; rfl,
      show (b.modifyCookie f).asyncCopyCookie.reqSz = n by rw [hf]; rfl, hcheck,
      if_neg (not_not.2 rfl), copyLinearLoop_modifyCookie,
      show (b.modifyCookie f).asyncCopyCookie.linearSrc.getD 0 = l by rw [hf]; rfl,
      show (b.modifyCookie f).asyncCopyCookie.reqSOff = 0 by rw [hf]; rfl, hr]
    rfl
  rw [copyFromLinear_run hidle, hresult]

end Linear

/-! ## The length -/

section Length

variable {b b₀ : Buffer} {k : ℕ}

/-- **The sum over the prefixes**, when the first `k` bytes of the chain have been written. The loop
comes to descriptor `idx` with all that is before it written. -/
theorem lowerboundLoop_start (hsize : b.descOffset b.active ≤ uint32Max.toNat)
    (hk : k ≤ b.descOffset b.active)
    (hprefixes : ∀ i < b.active, b.prefixOf i = min (b.len i) (k - b.descOffset i)) {left idx : ℕ}
    (hleft : idx + left = b.active) (hidx : b.descOffset idx ≤ k) {lb : UInt32}
    (hlb : lb.toNat = b.descOffset idx) : (b.lowerboundLoop left idx lb).toNat = k := by
  have hmax : uint32Max.toNat = 2 ^ 32 - 1 := rfl
  induction left generalizing idx lb with
  | zero =>
      have hend : idx = b.active := hleft
      rw [lowerboundLoop, hlb, hend]
      exact le_antisymm (hend ▸ hidx) hk
  | succ left ih =>
      have hi : idx < b.active := by omega
      have hspan := hprefixes idx hi
      have hnext : b.descOffset (idx + 1) = b.descOffset idx + b.len idx := offsetOf_succ ..
      have hadd : (lb + (b.descChainMetadata idx).prefixWrittenBytes).toNat =
          b.descOffset idx + b.prefixOf idx := by
        rw [UInt32.toNat_add, hlb]
        exact Nat.mod_eq_of_lt (show b.descOffset idx + b.prefixOf idx < 2 ^ 32 by omega)
      rw [lowerboundLoop]
      split_ifs with hfull
      · have hne : b.prefixOf idx ≠ b.len idx := fun heq => hfull (UInt32.toNat_inj.1 heq)
        omega
      · have heq : b.prefixOf idx = b.len idx := by
          rw [prefixOf, not_not.1 hfull]
          rfl
        exact ih (by omega) (by omega) (by omega)

/-- **The length reported** for a chain whose first bytes have been written is their number, if they
are in writable descriptors. -/
theorem writtenBytesLowerbound_start (hb : b.WellFormed)
    (hzero : ∀ i < b.active, (b.descChainMetadata i).prefixWrittenBytes = 0)
    (hk : k ≤ b.sizeBytes) (hwritable : 0 < k → b.writableAt 0 = true) :
    ((b.heuristicallyTrackWrittenBytes 0 k).writtenBytesLowerboundHeuristic).toNat = k := by
  rcases Nat.eq_zero_or_pos k with rfl | hpos
  · rw [heuristicallyTrackWrittenBytes, trackLoop_zero_bytes,
      writtenBytesLowerboundHeuristic_eq_zero hzero]
    rfl
  · have hsize := hb.size_eq
    have hactive : 0 < b.active := by
      by_contra hnone
      rw [Nat.eq_zero_of_not_pos hnone, descOffset, offsetOf_zero] at hsize
      omega
    obtain ⟨hseen, hfirst⟩ := (hb.writable_iff 0 hactive).1 (hwritable hpos)
    have hframe := heuristicallyTrack_frame b 0 k
    have hprefixes : ∀ i < b.active,
        (b.heuristicallyTrackWrittenBytes 0 k).prefixOf i = min (b.len i) (k - b.descOffset i) := by
      intro i hi
      have hlen := hb.len_pos i hi
      have hnone : b.prefixOf i = 0 := by
        rw [prefixOf, hzero i hi]
        rfl
      rw [prefixOf_heuristicallyTrack hb (by omega) hi, hnone]
      split_ifs <;> omega
    generalize b.heuristicallyTrackWrittenBytes 0 k = b' at hframe hprefixes
    have hlen : b'.len = b.len := by rw [hframe]; rfl
    have hact : b'.active = b.active := by rw [hframe]; rfl
    have hdesc (i : ℕ) : b'.descOffset i = b.descOffset i := by rw [descOffset, hlen, descOffset]
    rw [writtenBytesLowerboundHeuristic, isWritable,
      show b'.seenWritableDesc = b.seenWritableDesc by rw [hframe], if_pos hseen,
      show b'.firstWritableDesc = b.firstWritableDesc by rw [hframe], Nat.le_zero.1 hfirst]
    refine lowerboundLoop_start ?_ ?_ ?_ (by omega) (Nat.zero_le _) rfl
    · rw [hact, hdesc, ← hsize]
      exact hb.size_le
    · rw [hact, hdesc, ← hsize]
      exact hk
    · intro i hi
      rw [hlen, hdesc]
      exact hprefixes i (hact ▸ hi)

theorem writtenBytesLowerbound_modifyCookie (b : Buffer) (f : AsyncCopyCookie → AsyncCopyCookie) :
    (b.modifyCookie f).writtenBytesLowerboundHeuristic = b.writtenBytesLowerboundHeuristic := by
  have hloop (left idx : ℕ) (lb : UInt32) :
      (b.modifyCookie f).lowerboundLoop left idx lb = b.lowerboundLoop left idx lb := by
    induction left generalizing idx lb with
    | zero => rfl
    | succ left ih =>
        rw [lowerboundLoop, lowerboundLoop]
        simp only [ih]
        rfl
  rw [writtenBytesLowerboundHeuristic, writtenBytesLowerboundHeuristic, hloop]
  rfl

end Length

/-! ## A chain that has been walked -/

section Walked

variable {b : Buffer} {acc : ChainAccessor} {guestMem : Set ℕ} {l n : ℕ} {m : Mem} {r : CopyResult}

/-- What the loop counts: nothing exactly when the first descriptor cannot be written, and all of it
when it succeeds. -/
theorem copyLinearLoop_first (hacc : acc.WritesTo guestMem) (hb : b.WellFormed) (hn : 0 < n)
    (hle : n ≤ b.sizeBytes)
    (hr : r = copyLinearLoop true b acc bulkCopierDefault b.active 0 0 n l 0 m) :
    (r.bytesCopied = 0 ↔ ¬b.CanWrite acc 0 (min (b.len 0) n)) ∧
      (r.err = .none → r.bytesCopied = n) ∧ r.bytesCopied ≤ n := by
  have hsize := hb.size_eq
  obtain ⟨left, hleft⟩ : ∃ left, b.active = left + 1 := by
    refine Nat.exists_eq_succ_of_ne_zero fun hnone => ?_
    rw [hnone, descOffset, offsetOf_zero] at hsize
    omega
  refine ⟨?_, fun herr => ?_, ?_⟩
  · have hlen := hb.len_pos 0 (by omega)
    by_cases hcan : b.CanWrite acc 0 (min (b.len 0) n)
    · obtain ⟨hva, -, heq⟩ := @copyLinearLoop_canWrite b acc 0 left n l 0 m hn.ne' _ rfl hcan
      rw [hr, hleft, heq]
      obtain ⟨hlow, -⟩ := @copyLinearLoop_bounds b acc guestMem (0 + 1) left
        (n - min (b.len 0) n) (l + min (b.len 0) n) (0 + min (b.len 0) n)
        (memcpy m hva l (min (b.len 0) n)) hacc
      exact iff_of_false (by omega) (not_not.2 hcan)
    · rw [hr, hleft]
      exact iff_of_true (copyLinearLoop_cannotWrite hacc hn.ne' rfl hcan).2 hcan
  · have hat : b.At 0 (0, 0) := ⟨rfl, fun h => hb.len_pos 0 h, Nat.zero_le _⟩
    rw [hr] at herr ⊢
    rw [copyLinearLoop_bytes hb hat (Nat.sub_zero _).symm (by omega) herr, Nat.zero_add]
  · rw [hr]
    have hbounds := @copyLinearLoop_bounds b acc guestMem 0 b.active n l 0 m hacc
    omega

theorem CanWrite.writableAt {k : ℕ} (h : b.CanWrite acc 0 k) (hdev : b.chainForDevice = true) :
    b.writableAt 0 = true := by
  have hflags := h.1
  rw [shouldOnlyRead, hdev, Bool.true_and] at hflags
  rw [Buffer.writableAt, hflags]
  rfl

/-- **A copy to the start of a chain that has been walked** leaves it with the first `k` bytes
tracked, where `k` is 0 exactly when the first descriptor cannot be written. -/
theorem copyFromLinear_walked {q : DeviceQueue} {g : Guest} {t : ℕ} {head : UInt16}
    {w : WalkResult} (hrec : WalkRecorded q g t head w) (hacc : acc.WritesTo guestMem) (hn : 0 < n)
    (hle : n ≤ w.buffer.sizeBytes) (src : Option ℕ) {e : CopyEnd Buffer}
    (he : e = w.buffer.copyFromLinear src acc n 0 none m) :
    ∃ k ≤ n, e.state =
        (w.buffer.heuristicallyTrackWrittenBytes 0 k).modifyCookie AsyncCopyCookie.reset ∧
      (k ≠ 0 ↔ src.isSome = true ∧ w.buffer.CanWrite acc 0 (min (w.buffer.len 0) n)) ∧
      (e.err = .none → e.bytesCopied = n ∧ k = n) := by
  cases src with
  | none =>
      refine ⟨0, hn.le, ?_, iff_of_false (not_not.2 rfl) nofun, he ▸ nofun⟩
      have hsame : w.buffer.modifyCookie AsyncCopyCookie.reset = w.buffer := by
        show { w.buffer with asyncCopyCookie := {} } = w.buffer
        rw [← hrec.asyncCopyCookie]
      rw [heuristicallyTrackWrittenBytes, trackLoop_zero_bytes, hsame, he]
      rfl
  | some l =>
      have hidle : w.buffer.asyncCopyCookie.isDst = false := by
        rw [hrec.asyncCopyCookie]
        rfl
      obtain ⟨r, hr⟩ : ∃ r, r = copyLinearLoop true w.buffer acc bulkCopierDefault w.buffer.active
        0 0 n l 0 m := ⟨_, rfl⟩
      obtain ⟨hfirst, hall, hbytes⟩ := copyLinearLoop_first hacc hrec.wellFormed hn hle hr
      rw [copyFromLinear_start hidle hrec.wellFormed hn hle hr] at he
      refine ⟨r.bytesCopied, hbytes, by rw [he], ?_, fun herr => ?_⟩
      · rw [Ne, hfirst, not_not]
        exact (and_iff_right rfl).symm
      · rw [he] at herr ⊢
        exact ⟨hall herr, hall herr⟩

/-- **Concluding a chain** of which the first `k` bytes have been written. -/
theorem concludeChainUse_walked {q : DeviceQueue} {g : Guest} {t k : ℕ} {head : UInt16}
    {w : WalkResult} (hrec : WalkRecorded q g t head w) (hk : k ≤ w.buffer.sizeBytes)
    (hwritable : k ≠ 0 → w.buffer.writableAt 0 = true) :
    ∃ b len, ((w.buffer.heuristicallyTrackWrittenBytes 0 k).modifyCookie
        AsyncCopyCookie.reset).concludeChainUse w.queue = (b, q.send head len) ∧
      b.IsReset ∧ len.toNat = k := by
  have hlen := writtenBytesLowerbound_start hrec.wellFormed hrec.prefix_zero hk
    fun hpos => hwritable hpos.ne'
  have hframe := heuristicallyTrack_frame w.buffer 0 k
  have hdesc := desc_heuristicallyTrack w.buffer 0 k 0
  generalize w.buffer.heuristicallyTrackWrittenBytes 0 k = b at hlen hframe hdesc
  have hcomplete : (b.modifyCookie AsyncCopyCookie.reset).completeChain = true := by
    rw [hframe]
    exact hrec.completeChain
  refine ⟨_, _, ?_, (b.modifyCookie AsyncCopyCookie.reset).isReset_reset, hlen⟩
  rw [concludeChainUse, concludeChainUseWith, shouldSendHeadDescriptor, hcomplete, Bool.true_or,
    if_pos rfl, writtenBytesLowerbound_modifyCookie, ← hrec.head_eq, ← hdesc, hrec.queue]
  rfl

end Walked

theorem isReset_concludeChainUse (b : Buffer) (q : DeviceQueue) :
    (b.concludeChainUse q).1.IsReset := by
  rw [concludeChainUse, concludeChainUseWith]
  split_ifs
  · exact b.isReset_reset
  · exact b.isReset_reset

end Buffer

/-! ## A turn of `to_guest` -/

/-- A chain of the RX queue that has been published: its head, its descriptors, the length, and the
host addresses of so many bytes of its writable payload. -/
structure RxChain where
  head : UInt16
  entries : List ChainEntry
  len : UInt32
  locs : List ℕ

namespace RxChain

/-- The writable descriptors. -/
def writable (ch : RxChain) : List ChainEntry := ch.entries.filter fun e => !isReadable e.flags

/-- The size of the writable payload. -/
def writableSize (ch : RxChain) : ℕ := (ch.writable.map fun e => e.length.toNat).sum

/-- The writable payload, cut to the length published. -/
def payload (ch : RxChain) (m : Mem) : List UInt8 := ch.locs.map m

/-- The element of the used ring. -/
def element (ch : RxChain) : UInt32 × UInt32 := (ch.head.toUInt32, ch.len)

/-- The guest has posted such a chain, the device has translated it so far, and it is so long. -/
structure Filled (env : CallEnv) (ch : RxChain) : Prop where
  follows : ∃ t, Follows env.guest t ch.head ch.entries
  locate : ∃ t, locate (env.accessor t) ch.writable ch.len.toNat = some ch.locs
  len_le : ch.len.toNat ≤ ch.writableSize

end RxChain

namespace VirtioConsole

variable {c c' : VirtioConsole} {env : CallEnv} {m m' : Mem} {buff : Option ℕ}
  {bufIdx sizeBytes time : ℕ}

/-- The heads the device has taken from the RX queue. -/
def rxTaken (c : VirtioConsole) : List UInt16 := received (c.deviceQueue rxQueue).log

/-- What the device has published in the RX queue. -/
def rxPublished (c : VirtioConsole) : List (UInt32 × UInt32) :=
  published (c.deviceQueue rxQueue).log

theorem deviceQueue_putRx (b : Buffer) (q : DeviceQueue) :
    (c.putRx b q).assertIrq.deviceQueue rxQueue = q := by
  rw [deviceQueue, queue_assertIrq]
  show ((c.setDeviceQueue rxQueue q).queue rxQueue).deviceQueue = q
  rw [queue_setDeviceQueue, if_pos rfl]

theorem rxBuff_putRx (b : Buffer) (q : DeviceQueue) : (c.putRx b q).assertIrq.rxBuff = b := by
  rw [assertIrq]
  split_ifs <;> rfl

/-- **A turn** walks a chain, copies into it and concludes it. -/
theorem toGuestTurn_eq {w : WalkResult}
    (hw : c.rxBuff.walkChain (c.deviceQueue rxQueue) env.guest time = some w) {r : CopyEnd Buffer}
    (hr : r = w.buffer.copyFromLinear (buff.map (· + bufIdx)) (env.accessor w.time)
      (min sizeBytes w.buffer.sizeBytes) 0 none m) {p : Buffer × DeviceQueue}
    (hp : p = r.state.concludeChainUse w.queue) :
    c.toGuestTurn env buff bufIdx sizeBytes time m = some (
      if w.err ≠ .none then
        ⟨false, (c.putRx w.buffer w.queue).assertIrq, bufIdx, sizeBytes, w.time, m⟩
      else if r.err ≠ .none then
        ⟨false, (c.putRx p.1 p.2).assertIrq, bufIdx, sizeBytes, w.time, r.mem⟩
      else ⟨true, (c.putRx p.1 p.2).assertIrq, bufIdx + r.bytesCopied, sizeBytes - r.bytesCopied,
        w.time, r.mem⟩) := by
  have hwalk : c.walkRx env time = some (w.err, c.putRx w.buffer w.queue, w.time) := by
    rw [walkRx, hw]
    rfl
  have hrx : (c.putRx w.buffer w.queue).rxBuff = w.buffer := rfl
  rw [toGuestTurn, hwalk]
  dsimp only [Option.bind_eq_bind, Option.bind_some]
  rw [hrx, ← hr, show { c.putRx w.buffer w.queue with rxBuff := r.state } =
    c.putRx r.state w.queue from rfl, concludeRx_putRx, ← hp]
  split_ifs <;> rfl

theorem isReset_toGuestTurn (hreset : c.rxBuff.IsReset) {r : RxTurn}
    (h : c.toGuestTurn env buff bufIdx sizeBytes time m = some r) : r.console.rxBuff.IsReset := by
  have hfailed {w : WalkResult} (herr : w.err ≠ .none) (hb : w.buffer.IsReset)
      (hw : c.rxBuff.walkChain (c.deviceQueue rxQueue) env.guest time = some w) :
      r.console.rxBuff.IsReset := by
    rw [toGuestTurn_eq hw rfl rfl, if_pos herr] at h
    obtain rfl := (Option.some.inj h).symm
    rw [rxBuff_putRx]
    exact hb
  rcases @Buffer.walkChain_cases c.rxBuff (c.deviceQueue rxQueue) env.guest time hreset with
    ⟨herr, hw⟩ | ⟨-, w, hw, hout⟩
  · exact hfailed herr hreset hw
  · by_cases herr : w.err = .none
    · rw [toGuestTurn_eq hw rfl rfl, if_neg (not_not.2 herr)] at h
      obtain rfl := (Option.some.inj h).symm
      split_ifs
      · rw [rxBuff_putRx]
        exact Buffer.isReset_concludeChainUse ..
      · rw [rxBuff_putRx]
        exact Buffer.isReset_concludeChainUse ..
    · exact hfailed herr (hout.returned herr).1 hw

/-- **A turn with a chain** publishes it, with the number of bytes that have been written. -/
theorem toGuestTurn_walked {guestMem : Set ℕ} (hmem : ∀ t, (env.accessor t).WritesTo guestMem)
    (hsize : sizeBytes ≠ 0) {w : WalkResult}
    (hw : c.rxBuff.walkChain (c.deviceQueue rxQueue) env.guest time = some w)
    (herr : w.err = .none) {q : DeviceQueue} {t : ℕ} {head : UInt16}
    (hrec : Buffer.WalkRecorded q env.guest t head w) {e : CopyEnd Buffer}
    (he : e = w.buffer.copyFromLinear (buff.map (· + bufIdx)) (env.accessor w.time)
      (min sizeBytes w.buffer.sizeBytes) 0 none m) {r : RxTurn}
    (h : c.toGuestTurn env buff bufIdx sizeBytes time m = some r) :
    ∃ len, r.console.deviceQueue rxQueue = q.send head len ∧
      (len.toNat ≠ 0 ↔ buff.isSome = true ∧
        w.buffer.CanWrite (env.accessor w.time) 0 (min (w.buffer.len 0) sizeBytes)) ∧
      (r.ok = true → e.err = .none ∧ len.toNat = min sizeBytes w.buffer.sizeBytes ∧
        r.bufIdx = bufIdx + len.toNat ∧ r.sizeBytes = sizeBytes - len.toNat ∧ r.mem = e.mem) := by
  have hlen := hrec.wellFormed.len_le_size hrec.active_pos
  have hpos := hrec.wellFormed.len_pos 0 hrec.active_pos
  obtain ⟨k, hk, hstate, hfirst, hall⟩ := Buffer.copyFromLinear_walked hrec (hmem w.time)
    (by omega) (by omega) (buff.map (· + bufIdx)) he
  rw [Option.isSome_map, show min (w.buffer.len 0) (min sizeBytes w.buffer.sizeBytes) =
    min (w.buffer.len 0) sizeBytes by omega] at hfirst
  obtain ⟨b, len, hconclude, -, rfl⟩ := Buffer.concludeChainUse_walked hrec (by omega)
    fun hne => (hfirst.1 hne).2.writableAt hrec.chainForDevice
  rw [toGuestTurn_eq hw he rfl, if_neg (not_not.2 herr), hstate, hconclude] at h
  obtain rfl := (Option.some.inj h).symm
  split_ifs with hfail
  · exact ⟨len, deviceQueue_putRx .., hfirst, nofun⟩
  · obtain ⟨hbytes, hlen⟩ := hall (not_not.1 hfail)
    refine ⟨len, deviceQueue_putRx .., hfirst, fun _ => ?_⟩
    exact ⟨not_not.1 hfail, hlen, by rw [hlen, hbytes], by rw [hlen, hbytes], rfl⟩

/-- A chain has been posted, and its first descriptor can be written. -/
def Begins (c : VirtioConsole) (env : CallEnv) (buff : Option ℕ) (sizeBytes time : ℕ) : Prop :=
  ∃ w, c.rxBuff.walkChain (c.deviceQueue rxQueue) env.guest time = some w ∧ w.err = .none ∧
    buff.isSome = true ∧
    w.buffer.CanWrite (env.accessor w.time) 0 (min (w.buffer.len 0) sizeBytes)

/-- **What a turn publishes.** -/
theorem toGuestTurn_published (hreset : c.rxBuff.IsReset) {guestMem : Set ℕ}
    (hmem : ∀ t, (env.accessor t).WritesTo guestMem) (hsize : sizeBytes ≠ 0) {r : RxTurn}
    (h : c.toGuestTurn env buff bufIdx sizeBytes time m = some r) :
    ∃ new, r.console.rxPublished = c.rxPublished ++ new ∧
      ((∃ p ∈ new, p.2 ≠ 0) ↔ c.Begins env buff sizeBytes time) ∧
      (r.ok = true → c.Begins env buff sizeBytes time) := by
  have hno {w : WalkResult} (hw : c.rxBuff.walkChain (c.deviceQueue rxQueue) env.guest time =
      some w) (herr : w.err ≠ .none) : ¬c.Begins env buff sizeBytes time := by
    rintro ⟨w', hw', hnone, -⟩
    rw [hw, Option.some.injEq] at hw'
    exact herr (hw' ▸ hnone)
  rcases @Buffer.walkChain_cases c.rxBuff (c.deviceQueue rxQueue) env.guest time hreset with
    ⟨herr, hw⟩ | ⟨hrecv, w, hw, hout⟩
  · -- there is no chain
    have hnot := hno hw herr
    rw [toGuestTurn_eq hw rfl rfl, if_pos herr] at h
    obtain rfl := (Option.some.inj h).symm
    refine ⟨[], ?_, iff_of_false nofun hnot, nofun⟩
    rw [rxPublished, deviceQueue_putRx, DeviceQueue.published_recv, List.append_nil]
    rfl
  · by_cases herr : w.err = .none
    · have hrec := hout.recorded herr
      obtain ⟨len, hqueue, hfirst, hok⟩ := toGuestTurn_walked hmem hsize hw herr hrec rfl h
      have hbegins : c.Begins env buff sizeBytes time ↔ len.toNat ≠ 0 := by
        rw [hfirst]
        constructor
        · rintro ⟨w', hw', -, hsome, hcan⟩
          rw [hw, Option.some.injEq] at hw'
          exact hw' ▸ ⟨hsome, hcan⟩
        · rintro ⟨hsome, hcan⟩
          exact ⟨w, hw, herr, hsome, hcan⟩
      have hzero : len ≠ 0 ↔ len.toNat ≠ 0 := not_congr UInt32.toNat_inj.symm
      refine ⟨[(((c.deviceQueue rxQueue).recv env.guest time).desc.toUInt32, len)], ?_, ?_,
        fun hr => ?_⟩
      · rw [rxPublished, hqueue, DeviceQueue.published_send, DeviceQueue.published_recv]
        rfl
      · rw [hbegins, ← hzero]
        simp
      · have hsize' := hrec.wellFormed.len_pos 0 hrec.active_pos
        have hle := hrec.wellFormed.len_le_size hrec.active_pos
        rw [hbegins, (hok hr).2.1]
        omega
    · -- the chain is given back
      have hnot := hno hw herr
      obtain ⟨-, hqueue⟩ := hout.returned herr
      rw [toGuestTurn_eq hw rfl rfl, if_pos herr] at h
      obtain rfl := (Option.some.inj h).symm
      refine ⟨[(((c.deviceQueue rxQueue).recv env.guest time).desc.toUInt32, 0)], ?_,
        iff_of_false ?_ hnot, nofun⟩
      · rw [rxPublished, deviceQueue_putRx, hqueue, DeviceQueue.published_send,
          DeviceQueue.published_recv]
        rfl
      · simp

/-! ## What is delivered -/

/-- From `c` to `c'` the device has taken some chains, and published them in this order, with these
bytes in them, from the first chain to the last. -/
structure Delivered (env : CallEnv) (c c' : VirtioConsole) (m m' : Mem) (chs : List RxChain)
    (bytes : List UInt8) : Prop where
  taken : c'.rxTaken = c.rxTaken ++ chs.map RxChain.head
  published : c'.rxPublished = c.rxPublished ++ chs.map RxChain.element
  filled : ∀ ch ∈ chs, ch.Filled env
  sum : (chs.map fun ch => ch.len.toNat).sum = bytes.length
  mem : m' = stored m (chs.flatMap RxChain.locs) bytes

section Delivered

variable {c₁ : VirtioConsole} {m₁ : Mem} {chs chs' : List RxChain} {bytes bytes' : List UInt8}

theorem Delivered.length_locs (h : Delivered env c c' m m' chs bytes) :
    (chs.flatMap RxChain.locs).length = bytes.length := by
  rw [← h.sum, List.length_flatMap]
  refine congrArg List.sum (List.map_congr_left fun ch hch => ?_)
  obtain ⟨t, hlocate⟩ := (h.filled ch hch).locate
  exact (@locate_spec _ ∅ _ _ _ hlocate).1

theorem Delivered.append (h : Delivered env c c₁ m m₁ chs bytes)
    (h' : Delivered env c₁ c' m₁ m' chs' bytes') :
    Delivered env c c' m m' (chs ++ chs') (bytes ++ bytes') where
  taken := by rw [h'.taken, h.taken, List.map_append, List.append_assoc]
  published := by rw [h'.published, h.published, List.map_append, List.append_assoc]
  filled := List.forall_mem_append.2 ⟨h.filled, h'.filled⟩
  sum := by rw [List.map_append, List.sum_append, h.sum, h'.sum, List.length_append]
  mem := by rw [h'.mem, h.mem, List.flatMap_append, stored_append h.length_locs]

/-- **The payloads** are the bytes, if no two parts of them are in the same place. -/
theorem Delivered.payload (h : Delivered env c c' m m' chs bytes)
    (hnodup : (chs.flatMap RxChain.locs).Nodup) :
    (chs.flatMap fun ch => ch.payload m') = bytes := by
  have hmap : (chs.flatMap fun ch => ch.payload m') = (chs.flatMap RxChain.locs).map m' := by
    rw [List.map_flatMap]
    rfl
  rw [hmap, h.mem, map_stored h.length_locs hnodup]

end Delivered

/-- **A turn that succeeds** delivers the next bytes in one chain. -/
theorem toGuestTurn_delivered (hreset : c.rxBuff.IsReset) {guestMem : Set ℕ}
    (hmem : ∀ t, (env.accessor t).WritesTo guestMem) {l : ℕ}
    (hbuff : ∀ j < sizeBytes, l + bufIdx + j ∉ guestMem) (hsize : sizeBytes ≠ 0) {r : RxTurn}
    (h : c.toGuestTurn env (some l) bufIdx sizeBytes time m = some r) (hok : r.ok = true) :
    ∃ (ch : RxChain) (k : ℕ), 0 < k ∧ k ≤ sizeBytes ∧
      Delivered env c r.console m r.mem [ch] (bytesAt m (l + bufIdx + ·) k) ∧
      r.bufIdx = bufIdx + k ∧ r.sizeBytes = sizeBytes - k := by
  have hfailed {w : WalkResult} (herr : w.err ≠ .none)
      (hw : c.rxBuff.walkChain (c.deviceQueue rxQueue) env.guest time = some w) : False := by
    rw [toGuestTurn_eq hw rfl rfl, if_pos herr] at h
    obtain rfl := (Option.some.inj h).symm
    cases hok
  rcases @Buffer.walkChain_cases c.rxBuff (c.deviceQueue rxQueue) env.guest time hreset with
    ⟨herr, hw⟩ | ⟨hrecv, w, hw, hout⟩
  · exact (hfailed herr hw).elim
  · by_cases herr : w.err = .none
    · have hrec := hout.recorded herr
      have hb := hrec.wellFormed
      obtain ⟨len, hqueue, hfirst, hturn⟩ := toGuestTurn_walked hmem hsize hw herr hrec rfl h
      obtain ⟨hnone, hlen, hidx, hrest, hr⟩ := hturn hok
      have hpos := hb.len_pos 0 hrec.active_pos
      have hle := hb.len_le_size hrec.active_pos
      have hcan := (hfirst.1 (by omega)).2
      -- all of the chain is writable
      have hwritable :
          w.buffer.entries.filter (fun e => !isReadable e.flags) = w.buffer.entries := by
        refine List.filter_eq_self.2 fun e he => ?_
        obtain ⟨i, hi, rfl⟩ := List.mem_map.1 he
        exact hb.writable_mono (Nat.zero_le i) (List.mem_range.1 hi)
          (hcan.writableAt hrec.chainForDevice)
      have hidle : w.buffer.asyncCopyCookie.isDst = false := by
        rw [hrec.asyncCopyCookie]
        rfl
      have hstart := @Buffer.copyFromLinear_start w.buffer (env.accessor w.time) (l + bufIdx)
        (min sizeBytes w.buffer.sizeBytes) m hidle hb (by omega) (by omega) _ rfl
      rw [Option.map_some, hstart] at hnone hr
      obtain ⟨locs, hlocate, hstored⟩ := Buffer.copyLinearLoop_stored (hmem w.time)
        (Nat.zero_add _) (by rw [← hb.size_eq]; exact (Nat.zero_add _).trans_le (by omega))
        (fun j hj => hbuff j (by omega)) hnone
      rw [List.drop_zero, ← hlen] at hlocate
      refine ⟨⟨(((c.deviceQueue rxQueue).recv env.guest time).desc), w.buffer.entries, len, locs⟩,
        len.toNat, by omega, by omega, ⟨?_, ?_, ?_, ?_, ?_⟩, hidx, hrest⟩
      · rw [rxTaken, hqueue, DeviceQueue.received_send, DeviceQueue.received_recv, if_pos hrecv]
        rfl
      · rw [rxPublished, hqueue, DeviceQueue.published_send, DeviceQueue.published_recv]
        rfl
      · refine fun ch hch => List.mem_singleton.1 hch ▸ ⟨⟨_, hrec.follows⟩, ⟨w.time, ?_⟩, ?_⟩
        · rw [RxChain.writable, hwritable]
          exact hlocate
        · rw [RxChain.writableSize, RxChain.writable, hwritable, ← hb.sizeBytes_eq]
          show len.toNat ≤ _
          omega
      · rw [length_bytesAt]
        rfl
      · rw [List.flatMap_singleton, hlen]
        exact hr.trans hstored
    · exact (hfailed herr hw).elim

/-- **The loop** delivers all of the bytes if it succeeds. -/
theorem toGuestLoop_delivered {guestMem : Set ℕ} (hmem : ∀ t, (env.accessor t).WritesTo guestMem)
    {l fuel : ℕ} (hreset : c.rxBuff.IsReset) (hbuff : ∀ j < sizeBytes, l + bufIdx + j ∉ guestMem)
    (h : toGuestLoop env (some l) fuel c bufIdx sizeBytes time m = some (true, c', m')) :
    ∃ chs, Delivered env c c' m m' chs (bytesAt m (l + bufIdx + ·) sizeBytes) := by
  induction fuel generalizing c bufIdx sizeBytes time m with
  | zero => cases h
  | succ fuel ih =>
      rw [toGuestLoop] at h
      split_ifs at h with hsize
      · rw [Option.some.injEq, Prod.mk.injEq, Prod.mk.injEq] at h
        obtain ⟨-, rfl, rfl⟩ := h
        subst hsize
        exact ⟨[], (List.append_nil _).symm, (List.append_nil _).symm, (by simp), rfl, rfl⟩
      · obtain ⟨r, hr, hrest⟩ := Option.bind_eq_some_iff.1 h
        split_ifs at hrest with hok
        · obtain ⟨ch, k, hpos, hk, hturn, hidx, hleft⟩ :=
            toGuestTurn_delivered hreset hmem hbuff hsize hr hok
          -- the bytes that are left have not changed
          have hkeep : bytesAt r.mem (l + r.bufIdx + ·) r.sizeBytes =
              bytesAt m (l + bufIdx + k + ·) (sizeBytes - k) := by
            rw [hidx, hleft, ← Nat.add_assoc]
            refine bytesAt_congr fun j hj => ?_
            rw [hturn.mem]
            refine stored_of_notMem fun hin => ?_
            obtain ⟨ch', hch', ha⟩ := List.mem_flatMap.1 hin
            obtain ⟨t, hlocate⟩ := (hturn.filled ch' hch').locate
            refine hbuff (k + j) (by omega) ?_
            rw [← Nat.add_assoc]
            exact (locate_spec hlocate).2 (hmem t) _ ha
          obtain ⟨chs, hchs⟩ := ih (isReset_toGuestTurn hreset hr) (fun j hj => by
            have hnot := hbuff (k + j) (by omega)
            rwa [hidx, show l + (bufIdx + k) + j = l + bufIdx + (k + j) by omega]) hrest
          rw [hkeep] at hchs
          refine ⟨ch :: chs, ?_⟩
          have hall := hturn.append hchs
          rw [show sizeBytes = k + (sizeBytes - k) by omega, bytesAt_add]
          simpa only [Nat.add_assoc, List.singleton_append] using hall
        · rw [Option.some.injEq, Prod.mk.injEq] at hrest
          exact absurd hrest.1 (by simp)

/-- The loop publishes after what has been published before. -/
theorem toGuestLoop_appends {guestMem : Set ℕ} (hmem : ∀ t, (env.accessor t).WritesTo guestMem)
    {fuel : ℕ} {ok : Bool} (hreset : c.rxBuff.IsReset)
    (h : toGuestLoop env buff fuel c bufIdx sizeBytes time m = some (ok, c', m')) :
    ∃ new, c'.rxPublished = c.rxPublished ++ new := by
  induction fuel generalizing c bufIdx sizeBytes time m with
  | zero => exact absurd h nofun
  | succ fuel ih =>
      rw [toGuestLoop] at h
      split_ifs at h with hsize
      · rw [Option.some.injEq, Prod.mk.injEq, Prod.mk.injEq] at h
        exact ⟨[], by rw [h.2.1, List.append_nil]⟩
      · obtain ⟨r, hr, hrest⟩ := Option.bind_eq_some_iff.1 h
        obtain ⟨new, hnew, -⟩ := toGuestTurn_published hreset hmem hsize hr
        split_ifs at hrest
        · obtain ⟨new', hnew'⟩ := ih (isReset_toGuestTurn hreset hr) hrest
          exact ⟨new ++ new', by rw [hnew', hnew, List.append_assoc]⟩
        · rw [Option.some.injEq, Prod.mk.injEq, Prod.mk.injEq] at hrest
          exact ⟨new, by rw [← hrest.2.1, hnew]⟩

/-- **What the loop publishes**: bytes if the first turn does. -/
theorem toGuestLoop_published {guestMem : Set ℕ} (hmem : ∀ t, (env.accessor t).WritesTo guestMem)
    {fuel : ℕ} {ok : Bool} (hreset : c.rxBuff.IsReset) (hsize : sizeBytes ≠ 0)
    (h : toGuestLoop env buff fuel c bufIdx sizeBytes time m = some (ok, c', m')) :
    ∃ new, c'.rxPublished = c.rxPublished ++ new ∧
      ((∃ p ∈ new, p.2 ≠ 0) ↔ c.Begins env buff sizeBytes time) ∧
      (ok = true → c.Begins env buff sizeBytes time) := by
  cases fuel with
  | zero => cases h
  | succ fuel =>
      rw [toGuestLoop, if_neg hsize] at h
      obtain ⟨r, hr, hrest⟩ := Option.bind_eq_some_iff.1 h
      obtain ⟨new, hnew, hbytes, hbegins⟩ := toGuestTurn_published hreset hmem hsize hr
      split_ifs at hrest with hok
      · obtain ⟨new', hnew'⟩ := toGuestLoop_appends hmem (isReset_toGuestTurn hreset hr) hrest
        have hfirst := hbegins hok
        obtain ⟨p, hp, hne⟩ := hbytes.2 hfirst
        exact ⟨new ++ new', by rw [hnew', hnew, List.append_assoc],
          iff_of_true ⟨p, List.mem_append_left _ hp, hne⟩ hfirst, fun _ => hfirst⟩
      · rw [Option.some.injEq, Prod.mk.injEq, Prod.mk.injEq] at hrest
        obtain ⟨rfl, rfl, -⟩ := hrest
        exact ⟨new, hnew, hbytes, (by simp)⟩

/-! ## Between two calls -/

/-- An access stays within the two arrays. -/
def Defined (c : VirtioConsole) : ConsoleOp → Prop
  | .access a offset size value _ _ => c.devState.InBounds a offset size value
  | _ => True

/-- The console gets there by such calls. -/
def Reached (c : VirtioConsole) : Prop :=
  ∃ n ops, Run (fun c op c' => c.Defined op ∧ c.Step op c') (new n) ops c

theorem rxBuff_access (a : Access) (offset : UInt64) (size : UInt8) (value : UInt64) (p : Platform)
    (shared : Shared) : (c.access a offset size value p shared).2.2.rxBuff = c.rxBuff := by
  have hconstruct (c : VirtioConsole) : (c.handleConstruct p).rxBuff = c.rxBuff := by
    rw [handleConstruct]
    split_ifs <;> rfl
  have hstatus (c : VirtioConsole) : c.handleStatus.rxBuff = c.rxBuff := by
    rw [handleStatus]
    dsimp only
    split_ifs <;> rfl
  have hack (c : VirtioConsole) : c.handleIrqAck.rxBuff = c.rxBuff := by
    rw [handleIrqAck]
    split_ifs <;> rfl
  have hnotify (c : VirtioConsole) : (c.handleNotify shared).rxBuff = c.rxBuff := by
    rw [handleNotify, VirtioConsole.notify]
    dsimp only
    split_ifs <;> rfl
  rw [access]
  dsimp only
  split_ifs
  · rw [handleEvents, hnotify, hack, hstatus, hconstruct]
  · rfl

theorem rxBuff_fetchTx {err : Errno} {time' : ℕ}
    (h : c.fetchTx env time = some (err, c', time')) : c'.rxBuff = c.rxBuff := by
  rw [fetchTx] at h
  split_ifs at h
  · obtain ⟨w, -, heq⟩ := Option.map_eq_some_iff.1 h
    rw [Prod.mk.injEq, Prod.mk.injEq] at heq
    rw [← heq.2.1]
    rfl
  · rw [Option.some.injEq, Prod.mk.injEq, Prod.mk.injEq] at h
    rw [h.2.1]

theorem rxBuff_fromGuestTurn {outBuf : Option ℕ} {wasRead : ℕ} {r : TxTurn}
    (h : c.fromGuestTurn env outBuf sizeBytes wasRead time m = some r) :
    r.console.rxBuff = c.rxBuff := by
  obtain ⟨⟨err, c₁, time₁⟩, hfetch, hrest⟩ := Option.bind_eq_some_iff.1 h
  have hcopy (n : ℕ) : (c₁.copyTx env (outBuf.map (· + wasRead)) n time₁ m).2.2.1.rxBuff =
      c₁.rxBuff := by
    rw [copyTx]
    split_ifs <;> rfl
  have hirq (c : VirtioConsole) : c.assertIrq.rxBuff = c.rxBuff := by
    rw [assertIrq]
    split_ifs <;> rfl
  dsimp only at hrest
  rw [← rxBuff_fetchTx hfetch]
  split_ifs at hrest
  · rw [← Option.some.inj hrest]
  · rw [← Option.some.inj hrest, hirq]
    exact hcopy _
  · rw [← Option.some.inj hrest]
    exact hcopy _

theorem rxBuff_fromGuestLoop {outBuf : Option ℕ} {fuel wasRead n : ℕ}
    (h : fromGuestLoop env outBuf fuel c sizeBytes wasRead time m = some (n, c', m')) :
    c'.rxBuff = c.rxBuff := by
  induction fuel generalizing c sizeBytes wasRead time m with
  | zero => exact absurd h nofun
  | succ fuel ih =>
      rw [fromGuestLoop] at h
      split_ifs at h
      · rw [Option.some.injEq, Prod.mk.injEq, Prod.mk.injEq] at h
        rw [h.2.1]
      · obtain ⟨r, hr, hrest⟩ := Option.bind_eq_some_iff.1 h
        split_ifs at hrest
        · rw [Option.some.injEq, Prod.mk.injEq, Prod.mk.injEq] at hrest
          rw [← hrest.2.1, rxBuff_fromGuestTurn hr]
        · rw [ih hrest, rxBuff_fromGuestTurn hr]

theorem isReset_toGuestLoop {fuel : ℕ} {ok : Bool} (hreset : c.rxBuff.IsReset)
    (h : toGuestLoop env buff fuel c bufIdx sizeBytes time m = some (ok, c', m')) :
    c'.rxBuff.IsReset := by
  induction fuel generalizing c bufIdx sizeBytes time m with
  | zero => exact absurd h nofun
  | succ fuel ih =>
      rw [toGuestLoop] at h
      split_ifs at h
      · rw [Option.some.injEq, Prod.mk.injEq, Prod.mk.injEq] at h
        exact h.2.1 ▸ hreset
      · obtain ⟨r, hr, hrest⟩ := Option.bind_eq_some_iff.1 h
        split_ifs at hrest
        · exact ih (isReset_toGuestTurn hreset hr) hrest
        · rw [Option.some.injEq, Prod.mk.injEq, Prod.mk.injEq] at hrest
          exact hrest.2.1 ▸ isReset_toGuestTurn hreset hr

/-- **The RX buffer holds nothing** between two calls. -/
theorem Reached.isReset (h : c.Reached) : c.rxBuff.IsReset := by
  obtain ⟨n, ops, hrun⟩ := h
  refine @Run.invariant _ _ _ (fun c : VirtioConsole => c.rxBuff.IsReset) _ _ _
    (fun u op t hu hstep => ?_) hrun (Buffer.isReset_mk n)
  obtain ⟨hdef, hstep⟩ := hstep
  cases op with
  | access a offset size value p shared =>
      rw [hstep hdef, rxBuff_access]
      exact hu
  | toGuest env buff sizeBytes m =>
      obtain ⟨ok, m', hcall⟩ := hstep
      rw [toGuest] at hcall
      split_ifs at hcall
      · rw [Option.some.injEq, Prod.mk.injEq, Prod.mk.injEq] at hcall
        exact hcall.2.1 ▸ hu
      · exact isReset_toGuestLoop hu hcall
  | fromGuest env outBuf sizeBytes m =>
      obtain ⟨n, m', hcall⟩ := hstep
      rw [fromGuest] at hcall
      split_ifs at hcall
      · rw [Option.some.injEq, Prod.mk.injEq, Prod.mk.injEq] at hcall
        exact hcall.2.1 ▸ hu
      · rw [rxBuff_fromGuestLoop hcall]
        exact hu
  | reset =>
      rw [hstep]
      exact Buffer.isReset_concludeChainUse ..

end VirtioConsole

/-! ## Calls -/

/-- A call of `to_guest` that returns. The console has got there by other calls, the string is not
in the guest's memory, and everything that the accessor translates for writing is. -/
structure Send (buff : Option ℕ) (sizeBytes : ℕ) where
  before : VirtioConsole
  env : CallEnv
  mem : Mem
  ok : Bool
  after : VirtioConsole
  memAfter : Mem
  guestMem : Set ℕ
  reached : before.Reached
  accessor : ∀ t, (env.accessor t).WritesTo guestMem
  outside : ∀ l, buff = some l → ∀ j < sizeBytes, l + j ∉ guestMem
  returns : before.toGuest env buff sizeBytes mem = some (ok, after, memAfter)

namespace Send

variable {buff : Option ℕ} {sizeBytes : ℕ}

/-- The byte string. -/
def string (s : Send buff sizeBytes) : List UInt8 :=
  buff.elim [] fun l => bytesAt s.mem (l + ·) sizeBytes

/-- What the call has published. -/
def handed (s : Send buff sizeBytes) : List (UInt32 × UInt32) :=
  s.after.rxPublished.drop s.before.rxPublished.length

/-- The call begins to send: the queue is set up, a chain has been posted, and its first descriptor
can be written. -/
def Begins (s : Send buff sizeBytes) : Prop :=
  s.before.usable rxQueue = true ∧ s.before.Begins s.env buff sizeBytes 0

/-- The call is the loop if the queue is set up, and it is if the call succeeds. -/
theorem toGuestLoop_eq (s : Send buff sizeBytes)
    (h : s.ok = true ∨ s.before.usable rxQueue = true) :
    VirtioConsole.toGuestLoop s.env buff (sizeBytes + 1) s.before 0 sizeBytes 0 s.mem =
      some (s.ok, s.after, s.memAfter) := by
  have hret := s.returns
  rw [VirtioConsole.toGuest] at hret
  split_ifs at hret with husable
  · rw [Bool.not_eq_true'] at husable
    rw [Option.some.injEq, Prod.mk.injEq] at hret
    rw [← hret.1, husable] at h
    rcases h with h | h <;> cases h
  · exact hret

/-- **The chains of a call that succeeds.** -/
theorem delivered (s : Send buff sizeBytes) (hok : s.ok = true) :
    ∃ chs, VirtioConsole.Delivered s.env s.before s.after s.mem s.memAfter chs s.string ∧
      s.string.length = sizeBytes := by
  have hloop := s.toGuestLoop_eq (.inl hok)
  rw [hok] at hloop
  obtain ⟨l, rfl⟩ | ⟨rfl, rfl⟩ : (∃ l, buff = some l) ∨ buff = none ∧ sizeBytes = 0 := by
    cases buff with
    | some l => exact .inl ⟨l, rfl⟩
    | none =>
        refine .inr ⟨rfl, ?_⟩
        by_contra hsize
        obtain ⟨-, -, -, hbegins⟩ :=
          VirtioConsole.toGuestLoop_published s.accessor s.reached.isReset hsize hloop
        obtain ⟨w, -, -, hsome, -⟩ := hbegins rfl
        cases hsome
  · obtain ⟨chs, hchs⟩ := VirtioConsole.toGuestLoop_delivered s.accessor s.reached.isReset
      (fun j hj => s.outside l rfl j hj) hloop
    exact ⟨chs, hchs, length_bytesAt⟩
  · rw [VirtioConsole.toGuestLoop, if_pos rfl, Option.some.injEq, Prod.mk.injEq,
      Prod.mk.injEq] at hloop
    obtain ⟨-, hafter, hmem⟩ := hloop
    refine ⟨[], ⟨?_, ?_, (by simp), rfl, hmem.symm⟩, rfl⟩
    · rw [hafter, List.map_nil, List.append_nil]
    · rw [hafter, List.map_nil, List.append_nil]

/-- The bytes that the call has handed to the guest. -/
def bytes (s : Send buff sizeBytes) : ℕ := (s.handed.map fun p => p.2.toNat).sum

theorem handed_eq (s : Send buff sizeBytes) {new : List (UInt32 × UInt32)}
    (h : s.after.rxPublished = s.before.rxPublished ++ new) : s.handed = new := by
  rw [handed, h, List.drop_left]

theorem bytes_eq (s : Send buff sizeBytes) (hok : s.ok = true) : s.bytes = sizeBytes := by
  obtain ⟨chs, hchs, hlen⟩ := s.delivered hok
  rw [bytes, s.handed_eq hchs.published, List.map_map, ← hlen, ← hchs.sum]
  rfl

theorem bytes_eq_zero_iff (s : Send buff sizeBytes) : s.bytes = 0 ↔ ∀ p ∈ s.handed, p.2 = 0 := by
  rw [bytes, List.sum_eq_zero_iff, List.forall_mem_map]
  exact forall₂_congr fun p _ => UInt32.toNat_inj (b := 0)

/-- **A call that fails** hands bytes to the guest exactly when it has begun. -/
theorem handed_iff (s : Send buff sizeBytes) (hok : s.ok = false) :
    (∃ p ∈ s.handed, p.2 ≠ 0) ↔ s.Begins := by
  by_cases husable : s.before.usable rxQueue = true
  · have hloop := s.toGuestLoop_eq (.inr husable)
    have hsize : sizeBytes ≠ 0 := by
      rintro rfl
      rw [VirtioConsole.toGuestLoop, if_pos rfl, Option.some.injEq, Prod.mk.injEq, hok] at hloop
      cases hloop.1
    obtain ⟨new, hnew, hbytes, -⟩ :=
      VirtioConsole.toGuestLoop_published s.accessor s.reached.isReset hsize hloop
    rw [s.handed_eq hnew, hbytes]
    exact (and_iff_right husable).symm
  · have hret := s.returns
    rw [VirtioConsole.toGuest, if_pos (by simpa using husable), Option.some.injEq, Prod.mk.injEq,
      Prod.mk.injEq] at hret
    rw [s.handed_eq (by rw [hret.2.1, List.append_nil])]
    exact iff_of_false (by simp) fun h => husable h.1

end Send

namespace VirtioConsole

variable {buff : Option ℕ} {sizeBytes : ℕ}

/-- **A send that succeeds** delivers the whole string: the chains it has published are filled with
it one after the other, each as far as the length published says. -/
theorem toGuest_delivers (s : Send buff sizeBytes) (hok : s.ok = true) :
    ∃ chs, Delivered s.env s.before s.after s.mem s.memAfter chs s.string ∧
      s.string.length = sizeBytes ∧ ((chs.flatMap RxChain.locs).Nodup →
        (chs.flatMap fun ch => ch.payload s.memAfter) = s.string) := by
  obtain ⟨chs, hchs, hlen⟩ := s.delivered hok
  exact ⟨chs, hchs, hlen, hchs.payload⟩

/-- **Sends that fail** hand nothing to the guest exactly when none of them has begun. And only then
has the guest got as many bytes as the string has, when the send that succeeds has been made. -/
theorem failed_sends_iff (failed : List (Send buff sizeBytes))
    (hfailed : ∀ s ∈ failed, s.ok = false) :
    ((∀ s ∈ failed, ∀ p ∈ s.handed, p.2 = 0) ↔ ∀ s ∈ failed, ¬s.Begins) ∧
      ∀ last : Send buff sizeBytes, last.ok = true →
        (((failed ++ [last]).map Send.bytes).sum = sizeBytes ↔ ∀ s ∈ failed, ¬s.Begins) := by
  have hiff (s : Send buff sizeBytes) (hs : s ∈ failed) :
      (∀ p ∈ s.handed, p.2 = 0) ↔ ¬s.Begins := by
    rw [← s.handed_iff (hfailed s hs)]
    push Not
    rfl
  refine ⟨forall₂_congr hiff, fun last hlast => ?_⟩
  rw [List.map_append, List.sum_append, List.map_singleton, List.sum_singleton,
    last.bytes_eq hlast, Nat.add_eq_right, List.sum_eq_zero_iff, List.forall_mem_map]
  exact forall₂_congr fun s hs => s.bytes_eq_zero_iff.trans (hiff s hs)

/-! ### Two calls -/

theorem reached_of_exec {c : VirtioConsole} {n : UInt16} {ops : List ConsoleOp}
    (h : ops.foldlM exec (new n) = some c) : c.Reached := by
  refine ⟨n, ops, (Run.of_foldlM h).mono fun u op v hstep => ⟨?_, step_of_exec hstep⟩⟩
  cases op with
  | access a offset size value p shared =>
      rw [exec] at hstep
      split_ifs at hstep with hin
      exact hin
  | toGuest => trivial
  | fromGuest => trivial
  | reset => trivial

/-- `n` chains have been posted in all, one descriptor each, of `k` writable bytes at these
addresses. Host memory is the guest's below 4096. -/
def postedChains (n : UInt16) (k : UInt32) (place : UInt16 → UInt64) : CallEnv where
  guest _ := {
    table := fun i => ⟨place i, k, 2, 0⟩, avail := { index := n, ring := fun i => .ofNat i } }
  accessor _ := {
    vqAddrToRHva := fun a k => if a.toNat + k ≤ 4096 then .ok a.toNat else .error .badr }

/-- `to_guest`, of eight bytes at 4096. -/
def sendEight (n : UInt16) (k : UInt32) (place : UInt16 → UInt64) : ConsoleOp :=
  .toGuest (postedChains n k place) (some 4096) 8 UInt8.ofNat

/-- The driver sets the RX queue up, and these calls are made. -/
def rxConsole (ops : List ConsoleOp) : VirtioConsole :=
  (([write 0x44 1, write 0x70 4] ++ ops).foldlM exec (new 4)).getD (new 4)

theorem reached_rxConsole (ops : List ConsoleOp) : (rxConsole ops).Reached := by
  rw [rxConsole]
  cases h : ([write 0x44 1, write 0x70 4] ++ ops).foldlM exec (new 4) with
  | none => exact ⟨4, [], .nil⟩
  | some c => exact reached_of_exec h

theorem writesTo_postedChains (n : UInt16) (k : UInt32) (place : UInt16 → UInt64) (t : ℕ) :
    ((postedChains n k place).accessor t).WritesTo {a | a < 4096} where
  error vqa k := by
    dsimp only [postedChains]
    split_ifs
    · nofun
    · nofun
  mem vqa k hva h j hj := by
    dsimp only [postedChains] at h
    split_ifs at h with hin
    rw [← Except.ok.inj h, Set.mem_ofPred_eq]
    omega

/-- A call after these. -/
def sendCall (ops : List ConsoleOp) (n : UInt16) (k : UInt32) (place : UInt16 → UInt64) (ok : Bool)
    (h : ((rxConsole ops).toGuest (postedChains n k place) (some 4096) 8 UInt8.ofNat).map (·.1) =
      some ok) : Send (some 4096) 8 where
  before := rxConsole ops
  env := postedChains n k place
  mem := UInt8.ofNat
  ok
  after := (((rxConsole ops).toGuest (postedChains n k place) (some 4096) 8 UInt8.ofNat).map
    (·.2.1)).getD (new 4)
  memAfter := (((rxConsole ops).toGuest (postedChains n k place) (some 4096) 8 UInt8.ofNat).map
    (·.2.2)).getD UInt8.ofNat
  guestMem := {a | a < 4096}
  reached := reached_rxConsole ops
  accessor := writesTo_postedChains n k place
  outside l hl j _ := by
    rw [← Option.some.inj hl, Set.mem_ofPred_eq]
    omega
  returns := by
    obtain ⟨⟨ok', c, m⟩, heq, rfl⟩ := Option.map_eq_some_iff.1 h
    rw [heq]
    rfl

theorem locs_of_filled {n : UInt16} {k : UInt32} {place : UInt16 → UInt64} {ch : RxChain}
    (h : ch.Filled (postedChains n k place)) :
    ch.locs = (List.range ch.len.toNat).map ((place ch.head).toNat + ·) := by
  obtain ⟨head, entries, len, locs⟩ := ch
  obtain ⟨⟨t, hfollows⟩, ⟨t', hlocate⟩, hlen⟩ := h
  have hentries : entries = [⟨head, place head, k, 2⟩] := by
    change Follows _ t head entries at hfollows
    cases hfollows with
    | last => rfl
    | next hnext _ => exact absurd (show contNext 2 = true from hnext) (by decide)
  have hwritable (l : UInt32) (locs : List ℕ) :
      (⟨head, entries, l, locs⟩ : RxChain).writable = [⟨head, place head, k, 2⟩] := by
    have hflags : (!isReadable 2) = true := by decide
    rw [RxChain.writable, hentries]
    exact @List.filter_cons_of_pos ChainEntry (fun e => !isReadable e.flags) _ [] hflags
  rw [RxChain.writableSize, hwritable, List.map_singleton, List.sum_singleton] at hlen
  rw [hwritable] at hlocate
  dsimp only at hlen hlocate ⊢
  cases hn : len.toNat with
  | zero =>
      rw [hn, locate] at hlocate
      exact (Option.some.inj hlocate).symm
  | succ l =>
      rw [hn] at hlen hlocate
      rw [locate, Nat.min_eq_right hlen, Nat.sub_self, locate.eq_1] at hlocate
      split at hlocate
      · cases hlocate
      · rename_i hva htranslate
        have hplace : hva = (place head).toNat := by
          dsimp only [postedChains, ChainAccessor.vqAddrToWHva] at htranslate
          split_ifs at htranslate
          exact (Except.ok.inj htranslate).symm
        rw [hplace] at hlocate
        rw [← Option.some.inj hlocate]
        exact List.append_nil _

/-- Where the bytes of a call are that has handed out two chains. -/
theorem locs_of_two {s : Send (some 4096) 8} {n : UInt16} {k a b : UInt32}
    {place : UInt16 → UInt64} {chs : List RxChain} (henv : s.env = postedChains n k place)
    (hhanded : s.handed = [(0, a), (1, b)])
    (h : Delivered s.env s.before s.after s.mem s.memAfter chs s.string) :
    chs.flatMap RxChain.locs = (List.range a.toNat).map ((place 0).toNat + ·) ++
      (List.range b.toNat).map ((place 1).toNat + ·) := by
  have hfilled := h.filled
  have helements := (s.handed_eq h.published).symm.trans hhanded
  rw [henv] at hfilled
  obtain ⟨c, rest, rfl, hc, hrest⟩ := List.map_eq_cons_iff.1 helements
  obtain ⟨d, rest, rfl, hd, hrest⟩ := List.map_eq_cons_iff.1 hrest
  obtain rfl := List.map_eq_nil_iff.1 hrest
  have hhead {ch : RxChain} {i : UInt16} {l : UInt32} (hel : ch.element = (i.toUInt32, l)) :
      ch.head = i ∧ ch.len = l := by
    obtain ⟨hhead, hlen⟩ := Prod.mk.inj hel
    exact ⟨UInt16.toUInt32_inj.1 hhead, hlen⟩
  obtain ⟨hc₀, hcl⟩ := hhead (i := 0) hc
  obtain ⟨hd₁, hdl⟩ := hhead (i := 1) hd
  rw [List.flatMap_cons, List.flatMap_singleton, locs_of_filled (hfilled c (by simp)),
    locs_of_filled (hfilled d (by simp)), hc₀, hcl, hd₁, hdl]

/-- Two chains of five bytes at 256 and 512. -/
def sendApart : Send (some 4096) 8 :=
  sendCall [] 2 5 (fun i => 256 * (i.toUInt64 + 1)) true (by decide +kernel)

/-- A string of eight bytes goes into them, five and three. -/
theorem eight_delivered : ∃ chs,
    Delivered sendApart.env sendApart.before sendApart.after sendApart.mem sendApart.memAfter chs
      sendApart.string ∧ sendApart.handed = [(0, 5), (1, 3)] ∧
        (chs.flatMap fun ch => ch.payload sendApart.memAfter) = [0, 1, 2, 3, 4, 5, 6, 7] := by
  obtain ⟨chs, hchs, -, hpayload⟩ := toGuest_delivers sendApart rfl
  have hhanded : sendApart.handed = [(0, 5), (1, 3)] := by decide +kernel
  refine ⟨chs, hchs, hhanded, (hpayload ?_).trans (by decide +kernel)⟩
  rw [locs_of_two rfl hhanded hchs]
  decide +kernel

/-- Two chains of five bytes at 256 and 258, which overlap. -/
def sendOverlapping : Send (some 4096) 8 :=
  sendCall [] 2 5 (fun i => 256 + 2 * i.toUInt64) true (by decide +kernel)

/-- The first five bytes of the string are in one, and then the other three are written over them. -/
theorem overlapping_payloads : sendOverlapping.ok = true ∧
    sendOverlapping.string = [0, 1, 2, 3, 4, 5, 6, 7] ∧
      sendOverlapping.handed = [(0, 5), (1, 3)] ∧
        ∃ chs, Delivered sendOverlapping.env sendOverlapping.before sendOverlapping.after
          sendOverlapping.mem sendOverlapping.memAfter chs sendOverlapping.string ∧
            (chs.flatMap fun ch => ch.payload sendOverlapping.memAfter) =
              [0, 1, 5, 6, 7, 5, 6, 7] := by
  have hhanded : sendOverlapping.handed = [(0, 5), (1, 3)] := by decide +kernel
  obtain ⟨chs, hchs, -⟩ := sendOverlapping.delivered rfl
  refine ⟨rfl, by decide +kernel, hhanded, chs, hchs, ?_⟩
  have hmap : (chs.flatMap fun ch => ch.payload sendOverlapping.memAfter) =
      (chs.flatMap RxChain.locs).map sendOverlapping.memAfter := by
    rw [List.map_flatMap]
    rfl
  rw [hmap, locs_of_two rfl hhanded hchs]
  decide +kernel

/-- There is one chain of four bytes for a string of eight. The send fails with half of the string
delivered, and when it is repeated the guest has got twelve bytes. -/
theorem half_delivered : ∃ s last : Send (some 4096) 8, s.ok = false ∧ last.ok = true ∧
    last.before = s.after ∧ (∃ p ∈ s.handed, p.2 ≠ 0) ∧ s.bytes + last.bytes = 12 := by
  refine ⟨sendCall [] 1 4 (fun _ => 256) false (by decide +kernel),
    sendCall [sendEight 1 4 fun _ => 256] 2 16 (fun _ => 256) true (by decide +kernel), rfl, rfl,
    rfl, ⟨(0, 4), by decide +kernel, by decide⟩, by decide +kernel⟩

/-- Two sends that fail: there is no chain, and then there is one outside of the guest's memory. -/
def failedSends : List (Send (some 4096) 8) :=
  [sendCall [] 0 4 (fun _ => 256) false (by decide +kernel),
    sendCall [sendEight 0 4 fun _ => 256] 1 4 (fun _ => 4096) false (by decide +kernel)]

/-- They hand no byte to the guest, though the second gives the chain back. The next send finds two
chains, and the guest has got the string once. -/
theorem nothing_delivered : ∃ last : Send (some 4096) 8, last.ok = true ∧
    last.before = rxConsole [sendEight 0 4 fun _ => 256, sendEight 1 4 fun _ => 4096] ∧
      failedSends.map Send.handed = [[], [(0, 0)]] ∧
        ((failedSends ++ [last]).map Send.bytes).sum = 8 := by
  have hhanded : failedSends.map Send.handed = [[], [(0, 0)]] := by decide +kernel
  refine ⟨sendCall [sendEight 0 4 fun _ => 256, sendEight 1 4 fun _ => 4096] 3 5
    (fun i => 256 * (i.toUInt64 + 1)) true (by decide +kernel), rfl, rfl, hhanded, ?_⟩
  have hfailed : ∀ s ∈ failedSends, s.ok = false :=
    List.forall_mem_cons.2 ⟨rfl, List.forall_mem_singleton.2 rfl⟩
  refine ((failed_sends_iff failedSends hfailed).2 _ rfl).2 ?_
  intro s hs hbegins
  obtain ⟨p, hp, hne⟩ := (s.handed_iff (hfailed s hs)).2 hbegins
  have hmem := List.mem_map_of_mem (f := Send.handed) hs
  rw [hhanded] at hmem
  obtain hnil | hone := List.mem_pair.1 hmem
  · rw [hnil] at hp
    cases hp
  · rw [hone, List.mem_singleton] at hp
    exact hne (hp ▸ rfl)

end VirtioConsole

end Vml
