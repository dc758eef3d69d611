import Mathlib.Data.UInt
import Vml.Lib.WriteBack

/-!
# Cache maintenance

`arch/mem_util.hpp`: the VMM has a range of addresses cleaned, because a guest with its caches off
would not see what has been written there. On AArch64 the loop of `dcache_op_range` goes over the
lines of the range, which it aligns at both ends, and the size of a line is in `CTR_EL0`. On x86
`dcache_clean_range` goes on from the address it is given in steps of a line.

**Which lines.** Both loops compute with words. The end of a range in the last line of the address
space is aligned to zero, and the steps from an address that is not aligned can leave out the last
line of a range.

Main result: `Arch.cleaned_iff`.
-/

namespace Vml

/-- `align_dn`. -/
def alignDn (addr align : UInt64) : UInt64 := addr &&& ~~~(align - 1)

/-- `align_up`. -/
def alignUp (addr align : UInt64) : UInt64 := alignDn (addr + (align - 1)) align

/-- What `for (; va < va_end; va += step)` goes over, if it comes to an end. -/
def strides (va vaEnd step : UInt64) : (fuel : ℕ) → Option (List UInt64)
  | 0 => none
  | fuel + 1 => if va < vaEnd then (strides (va + step) vaEnd step fuel).map (va :: ·) else some []

namespace Ctr

/-- `dcache_line_size`. -/
def dcacheLineSize (ctr : UInt64) : UInt64 := (4 : UInt64) <<< ((ctr >>> 16) &&& 0xf)

end Ctr

/-- The instructions that are executed, less the barriers between them. -/
inductive CacheOp
  /-- Clean a line of the data cache, down to the memory. -/
  | dcCvac (va : UInt64)
  /-- The same, and invalidate it. -/
  | dcCivac (va : UInt64)
  | clflush (va : UInt64)
  deriving DecidableEq, Repr

/-- What the VMM is built for. AArch64 has a `CTR_EL0`. -/
inductive Arch
  | aarch64 (ctr : UInt64)
  | x86
  deriving DecidableEq, Repr

namespace Arch

/-- What a loop over the lines of a range goes over, on AArch64. -/
def lineRange (lineSize vaStart size : UInt64) (fuel : ℕ) : Option (List UInt64) :=
  strides (alignDn vaStart lineSize) (alignUp (vaStart + size) lineSize) lineSize fuel

/-- `dcache_op_range`. -/
def dcacheOpRange (cacheOp : UInt64 → CacheOp) (ctr vaStart size : UInt64) (fuel : ℕ) :
    Option (List CacheOp) :=
  (lineRange (Ctr.dcacheLineSize ctr) vaStart size fuel).map fun lines => lines.map cacheOp

/-- `dcache_clean_range`. -/
def dcacheCleanRange (arch : Arch) (start size : UInt64) (fuel : ℕ) : Option (List CacheOp) :=
  match arch with
  | aarch64 ctr => dcacheOpRange .dcCvac ctr start size fuel
  | x86 => (strides 0 size 64 fuel).map fun offsets => offsets.map fun i => .clflush (start + i)

/-- `dcache_clean_invalidate_range`. -/
def dcacheCleanInvalidateRange (arch : Arch) (start size : UInt64) (fuel : ℕ) :
    Option (List CacheOp) :=
  match arch with
  | aarch64 ctr => dcacheOpRange .dcCivac ctr start size fuel
  | x86 => dcacheCleanRange x86 start size fuel

/-- The bytes of a line of the data cache. -/
def lineSize : Arch → UInt64
  | aarch64 ctr => Ctr.dcacheLineSize ctr
  | x86 => 64

/-- The line of an address. -/
def line (arch : Arch) (a : UInt64) : ℕ := a.toNat / arch.lineSize.toNat

end Arch

/-- The address that a line is cleaned at, down to the memory. -/
def CacheOp.va : CacheOp → UInt64
  | dcCvac va => va
  | dcCivac va => va
  | clflush va => va

/-! ## Alignment -/

section Align

variable {a : UInt64} {m : ℕ} {align : UInt64}

theorem toNat_alignDn (hm : m < 64) (halign : align.toNat = 2 ^ m) (a : UInt64) :
    (alignDn a align).toNat = a.toNat / 2 ^ m * 2 ^ m := by
  have hpos : 0 < 2 ^ m := Nat.two_pow_pos m
  have hlt : 2 ^ m < 2 ^ 64 := Nat.pow_lt_pow_right (by decide) hm
  have hmask : (align - 1).toNat = 2 ^ m - 1 := by
    rw [UInt64.toNat_sub_of_le _ _ (by rw [UInt64.le_iff_toNat_le, halign]; exact hpos), halign]
    rfl
  refine Nat.eq_of_testBit_eq fun i => ?_
  have hnot : (~~~(align - 1)).toNat = 2 ^ 64 - (2 ^ m - 1 + 1) := by
    have hsize : UInt64.size = 2 ^ 64 := rfl
    rw [UInt64.toNat_not, hmask, hsize]
    omega
  rw [alignDn, UInt64.toNat_and, hnot, Nat.testBit_and, Nat.testBit_two_pow_sub_succ (by omega),
    Nat.testBit_two_pow_sub_one, Nat.testBit_mul_two_pow, Nat.testBit_div_two_pow]
  by_cases hi : i < m
  · simp [hi, Nat.not_le.2 hi]
  · by_cases h64 : i < 64
    · simp [hi, h64, Nat.not_lt.1 hi]
    · have hbit : a.toNat.testBit i = false :=
        Nat.testBit_lt_two_pow (lt_of_lt_of_le a.toNat_lt
          (Nat.pow_le_pow_right (by decide) (Nat.not_lt.1 h64)))
      simp [hi, Nat.not_lt.1 hi, hbit]

theorem toNat_alignUp (hm : m < 64) (halign : align.toNat = 2 ^ m) (a : UInt64) :
    (alignUp a align).toNat = (a.toNat + (2 ^ m - 1)) % 2 ^ 64 / 2 ^ m * 2 ^ m := by
  have hpos : 0 < 2 ^ m := Nat.two_pow_pos m
  have hmask : (align - 1).toNat = 2 ^ m - 1 := by
    rw [UInt64.toNat_sub_of_le _ _ (by rw [UInt64.le_iff_toNat_le, halign]; exact hpos), halign]
    rfl
  rw [alignUp, toNat_alignDn hm halign, UInt64.toNat_add, hmask]

end Align

/-! ## Loops -/

section Strides

variable {va vaEnd step : UInt64} {k fuel fuel' : ℕ} {l l' : List UInt64}

theorem add_stride (va step : UInt64) (i : ℕ) :
    va + step + UInt64.ofNat i * step = va + UInt64.ofNat (i + 1) * step := by
  have hone : UInt64.ofNat 1 * step = step := UInt64.one_mul step
  rw [UInt64.ofNat_add, UInt64.add_mul, hone, UInt64.add_assoc, UInt64.add_comm step]

/-- **A loop** of `k` steps, if the address does not wrap. -/
theorem strides_eq (hlast : vaEnd.toNat ≤ va.toNat + k * step.toNat)
    (hsteps : ∀ i < k, va.toNat + i * step.toNat < vaEnd.toNat)
    (hwrap : va.toNat + k * step.toNat < 2 ^ 64) (hfuel : k < fuel) :
    strides va vaEnd step fuel =
      some ((List.range k).map fun i => va + UInt64.ofNat i * step) := by
  induction k generalizing va fuel with
  | zero =>
      obtain ⟨fuel, rfl⟩ := Nat.exists_eq_succ_of_ne_zero hfuel.ne'
      rw [strides, if_neg]
      · rfl
      · rw [UInt64.lt_iff_toNat_lt]
        omega
  | succ k ih =>
      obtain ⟨fuel, rfl⟩ := Nat.exists_eq_succ_of_ne_zero (Nat.ne_zero_of_lt hfuel)
      have hmul : (k + 1) * step.toNat = k * step.toNat + step.toNat := Nat.succ_mul ..
      have hva : (va + step).toNat = va.toNat + step.toNat := by
        rw [UInt64.toNat_add, Nat.mod_eq_of_lt]
        omega
      have hfirst : va < vaEnd := by
        have := hsteps 0 (Nat.succ_pos k)
        rw [UInt64.lt_iff_toNat_lt]
        omega
      have hrest := @ih (va + step) fuel (by omega) (fun i hi => ?_) (by omega) (by omega)
      · rw [strides, if_pos hfirst, hrest, Option.map_some, List.range_succ_eq_map, List.map_cons,
          List.map_map]
        refine congrArg some (List.cons_eq_cons.2 ⟨by simp, List.map_congr_left fun i _ => ?_⟩)
        exact add_stride va step i
      · have := hsteps (i + 1) (by omega)
        rw [Nat.succ_mul] at this
        rw [hva]
        omega

theorem strides_mono (h : strides va vaEnd step fuel = some l) (hle : fuel ≤ fuel') :
    strides va vaEnd step fuel' = some l := by
  induction fuel generalizing va fuel' l with
  | zero => exact absurd h nofun
  | succ fuel ih =>
      obtain ⟨fuel', rfl⟩ := Nat.exists_eq_succ_of_ne_zero (Nat.ne_zero_of_lt hle)
      rw [strides] at h ⊢
      split_ifs at h ⊢ with hlt
      · obtain ⟨rest, hrest, rfl⟩ := Option.map_eq_some_iff.1 h
        rw [ih hrest (Nat.le_of_succ_le_succ hle)]
        rfl
      · exact h

theorem strides_unique (h : strides va vaEnd step fuel = some l)
    (h' : strides va vaEnd step fuel' = some l') : l = l' := by
  have hmax := strides_mono h (Nat.le_max_left fuel fuel')
  have hmax' := strides_mono h' (Nat.le_max_right fuel fuel')
  exact Option.some.inj (hmax.symm.trans hmax')

theorem strides_eq_none (hstep : ∀ i : ℕ, va + UInt64.ofNat i * step < vaEnd) (fuel : ℕ) :
    strides va vaEnd step fuel = none := by
  induction fuel generalizing va with
  | zero => rfl
  | succ fuel ih =>
      have hfirst : va < vaEnd := by simpa using hstep 0
      rw [strides, if_pos hfirst, ih fun i => ?_]
      · rfl
      · rw [add_stride]
        exact hstep (i + 1)

theorem toNat_stride (h : va.toNat + k * step.toNat < 2 ^ 64) :
    (va + UInt64.ofNat k * step).toNat = va.toNat + k * step.toNat := by
  rw [UInt64.toNat_add, UInt64.toNat_mul, UInt64.toNat_ofNat', Nat.add_mod, Nat.mod_mod,
    Nat.mod_mul_mod, ← Nat.add_mod, Nat.mod_eq_of_lt h]

end Strides

namespace Arch

/-! ## What is cleaned -/

/-- The lines that are cleaned, down to the memory. -/
def lines (arch : Arch) (ops : List CacheOp) : List ℕ :=
  (ops.map CacheOp.va).map arch.line

/-- A function cleans a range: it returns, and what was in the caches has reached the memory. -/
def Cleans (arch : Arch) (start size : UInt64) (f : ℕ → Option (List CacheOp)) : Prop :=
  ∃ fuel ops, f fuel = some ops ∧ ∀ (s : WriteBack UInt64 UInt8) (i : UInt64), i < size →
    (s.run arch.line ((arch.lines ops).map .clean)).ram (start + i) = s.view (start + i)

/-- The range is one that the loop gets through. -/
def Fits (arch : Arch) (start size : UInt64) : Prop :=
  match arch with
  -- the end can be aligned
  | aarch64 ctr => start.toNat + size.toNat + ((aarch64 ctr).lineSize.toNat - 1) < 2 ^ 64
  -- the offsets get past the end, and the last step is into the last line
  | x86 => size.toNat ≤ 2 ^ 64 - 64 ∧ start.toNat % 64 + (size.toNat - 1) % 64 < 64

variable {arch : Arch} {start size : UInt64} {ctr : UInt64} {fuel : ℕ}

/-- The lines of a range are among those of some addresses. -/
def Covers (arch : Arch) (start size : UInt64) (vas : List UInt64) : Prop :=
  ∀ i < size, ∃ va ∈ vas, arch.line va = arch.line (start + i)

theorem cleans_iff {f : ℕ → Option (List CacheOp)} :
    arch.Cleans start size f ↔
      ∃ fuel ops, f fuel = some ops ∧ arch.Covers start size (ops.map CacheOp.va) := by
  have : Nontrivial UInt8 := ⟨0, 1, by decide⟩
  refine exists_congr fun fuel => exists_congr fun ops => and_congr_right fun _ => ?_
  rw [forall_comm]
  refine forall_congr' fun i => ?_
  rw [forall_comm]
  refine forall_congr' fun _ => (WriteBack.ram_run_iff ..).trans ?_
  rw [lines, List.mem_map]

theorem map_va {cacheOp : UInt64 → CacheOp} (h : ∀ va, (cacheOp va).va = va)
    (vas : List UInt64) : (vas.map cacheOp).map CacheOp.va = vas := by
  rw [List.map_map]
  exact List.map_id'' h vas

/-! ## AArch64 -/

theorem lineSize_aarch64 (ctr : UInt64) :
    ∃ m, m ≤ 17 ∧ 0 < m ∧ (aarch64 ctr).lineSize.toNat = 2 ^ m := by
  have hfield : ((ctr >>> 16) &&& 0xf).toNat ≤ 15 := by
    rw [UInt64.toNat_and]
    exact Nat.and_le_right
  refine ⟨((ctr >>> 16) &&& 0xf).toNat + 2, by omega, by omega, ?_⟩
  have hmod : ((ctr >>> 16) &&& 0xf).toNat % 64 = ((ctr >>> 16) &&& 0xf).toNat :=
    Nat.mod_eq_of_lt (by omega)
  rw [lineSize, Ctr.dcacheLineSize, UInt64.toNat_shiftLeft, hmod, Nat.shiftLeft_eq, Nat.mul_comm,
    pow_add]
  refine Nat.mod_eq_of_lt ?_
  calc 2 ^ ((ctr >>> 16) &&& 0xf).toNat * 4
      ≤ 2 ^ 15 * 4 := Nat.mul_le_mul_right _ (Nat.pow_le_pow_right (by decide) hfield)
    _ < 2 ^ 64 := by decide

section LineRange

variable {n : UInt64} {m : ℕ} {l : List UInt64}

theorem lineRange_eq (hm : m < 64) (hn : n.toNat = 2 ^ m) {e k : ℕ}
    (hend : (alignUp (start + size) n).toNat = e * 2 ^ m) (hlast : e ≤ start.toNat / 2 ^ m + k)
    (hfirst : k = 0 ∨ start.toNat / 2 ^ m + k ≤ e) :
    lineRange n start size (k + 1) =
      some ((List.range k).map fun i => alignDn start n + UInt64.ofNat i * n) := by
  have hva := toNat_alignDn hm hn start
  refine strides_eq ?_ (fun i hi => ?_) ?_ (Nat.lt_succ_self k)
  · rw [hva, hend, hn, ← Nat.add_mul]
    exact Nat.mul_le_mul_right _ hlast
  · rw [hva, hend, hn, ← Nat.add_mul]
    exact Nat.mul_lt_mul_of_pos_right (by omega) (Nat.two_pow_pos m)
  · rw [hn]
    obtain rfl | hle := hfirst
    · rw [Nat.zero_mul, Nat.add_zero]
      exact UInt64.toNat_lt _
    · rw [hva, ← Nat.add_mul]
      calc (start.toNat / 2 ^ m + k) * 2 ^ m ≤ e * 2 ^ m := Nat.mul_le_mul_right _ hle
        _ < 2 ^ 64 := hend ▸ UInt64.toNat_lt _

/-- **The lines of a range** whose end can be aligned. -/
theorem lineRange_of_fits (hm : m < 64) (hn : n.toNat = 2 ^ m)
    (hfits : start.toNat + size.toNat + (2 ^ m - 1) < 2 ^ 64) :
    ∃ fuel l, lineRange n start size fuel = some l ∧
      ∀ i < size, ∃ va ∈ l, va.toNat / 2 ^ m = (start + i).toNat / 2 ^ m := by
  have hpos : 0 < 2 ^ m := Nat.two_pow_pos m
  have hva := toNat_alignDn hm hn start
  have hend : (alignUp (start + size) n).toNat =
      (start.toNat + size.toNat + (2 ^ m - 1)) / 2 ^ m * 2 ^ m := by
    rw [toNat_alignUp hm hn, UInt64.toNat_add,
      Nat.mod_eq_of_lt (a := start.toNat + size.toNat) (by omega), Nat.mod_eq_of_lt hfits]
  generalize hq : start.toNat / 2 ^ m = q at hva
  generalize hp : (start.toNat + size.toNat + (2 ^ m - 1)) / 2 ^ m = p at hend
  have hqp : q ≤ p := by
    rw [← hq, ← hp]
    exact Nat.div_le_div_right (by omega)
  have hpn : p * 2 ^ m < 2 ^ 64 := hend ▸ UInt64.toNat_lt _
  have heq := lineRange_eq hm hn hend (k := p - q) (by omega) (.inr (by omega))
  refine ⟨_, _, heq, fun i hi => ?_⟩
  rw [UInt64.lt_iff_toNat_lt] at hi
  have hsum : (start + i).toNat = start.toNat + i.toNat := by
    rw [UInt64.toNat_add, Nat.mod_eq_of_lt (by omega)]
  have hlow : q ≤ (start.toNat + i.toNat) / 2 ^ m := by
    rw [← hq]
    exact Nat.div_le_div_right (by omega)
  have hhigh : (start.toNat + i.toNat) / 2 ^ m < p := by
    rw [← hp, Nat.lt_iff_add_one_le, ← Nat.add_div_right _ hpos]
    exact Nat.div_le_div_right (by omega)
  -- the line is reached in as many steps as it is above the first one
  have hstep : q * 2 ^ m + ((start.toNat + i.toNat) / 2 ^ m - q) * 2 ^ m =
      (start.toNat + i.toNat) / 2 ^ m * 2 ^ m := by
    rw [← Nat.add_mul, Nat.add_sub_cancel' hlow]
  refine ⟨_, List.mem_map_of_mem (List.mem_range.2 (Nat.sub_lt_sub_right hlow hhigh)), ?_⟩
  rw [toNat_stride, hva, hn, hstep, Nat.mul_div_cancel _ hpos, hsum]
  rw [hva, hn, hstep]
  exact lt_trans (Nat.mul_lt_mul_of_pos_right hhigh hpos) hpn

theorem lineRange_zero (hm : m < 64) (hn : n.toNat = 2 ^ m) :
    ∃ fuel l, lineRange n start 0 fuel = some l := by
  by_cases hfits : start.toNat + (0 : UInt64).toNat + (2 ^ m - 1) < 2 ^ 64
  · obtain ⟨fuel, l, hl, -⟩ := lineRange_of_fits hm hn hfits
    exact ⟨fuel, l, hl⟩
  · have hzero : (0 : UInt64).toNat = 0 := rfl
    have hpow : 2 ^ m < 2 ^ 64 := Nat.pow_lt_pow_right (by decide) hm
    have hstart := start.toNat_lt
    have hlow : (start.toNat + (2 ^ m - 1)) % 2 ^ 64 < 2 ^ m := by omega
    have hend : (alignUp (start + 0) n).toNat = 0 * 2 ^ m := by
      rw [toNat_alignUp hm hn, UInt64.add_zero, Nat.div_eq_of_lt hlow]
    exact ⟨_, _, lineRange_eq hm hn hend (k := 0) (Nat.zero_le _) (.inl rfl)⟩

theorem fits_of_lineRange (hm : 0 < m) (hm' : m ≤ 17) (hn : n.toNat = 2 ^ m) (hsize : size ≠ 0)
    (hl : lineRange n start size fuel = some l)
    (hcovers : ∀ i < size, ∃ va ∈ l, va.toNat / 2 ^ m = (start + i).toNat / 2 ^ m) :
    start.toNat + size.toNat + (2 ^ m - 1) < 2 ^ 64 := by
  by_contra hwrap
  have hpos : 0 < 2 ^ m := Nat.two_pow_pos m
  have htwo : 2 ≤ 2 ^ m := by
    calc 2 = 2 ^ 1 := rfl
      _ ≤ 2 ^ m := Nat.pow_le_pow_right (by decide) hm
  have hsmall : 2 ^ m ≤ 2 ^ 17 := Nat.pow_le_pow_right (by decide) hm'
  have hstart := start.toNat_lt
  have hsizelt := size.toNat_lt
  have hsizepos : 0 < size.toNat :=
    Nat.pos_of_ne_zero fun h => hsize (UInt64.toNat_inj.1 (h.trans rfl))
  have hva := toNat_alignDn (by omega) hn start
  have hend := toNat_alignUp (by omega) hn (start + size)
  rw [UInt64.toNat_add] at hend
  generalize hT : ((start.toNat + size.toNat) % 2 ^ 64 + (2 ^ m - 1)) % 2 ^ 64 = T at hend
  have hTlt : T + 2 ≤ start.toNat + 2 ^ m := by omega
  have hdiv : start.toNat / 2 ^ m * 2 ^ m + start.toNat % 2 ^ m = start.toNat :=
    Nat.div_add_mod' ..
  have hmod : start.toNat % 2 ^ m < 2 ^ m := Nat.mod_lt _ hpos
  have hone : T / 2 ^ m ≤ start.toNat / 2 ^ m + 1 := by
    rw [← Nat.add_div_right _ hpos]
    exact Nat.div_le_div_right (by omega)
  -- there is no line, or the first one only
  obtain ⟨va, hmem, -⟩ := hcovers 0 (by rw [UInt64.lt_iff_toNat_lt]; exact hsizepos)
  generalize hq : start.toNat / 2 ^ m = q at hva hdiv hone
  by_cases hle : T / 2 ^ m ≤ q
  · have hnone := lineRange_eq (by omega) hn hend (k := 0) (by omega) (.inl rfl)
    rw [strides_unique hl hnone] at hmem
    exact absurd hmem List.not_mem_nil
  · have hnext : (q + 1) * 2 ^ m = q * 2 ^ m + 2 ^ m := Nat.succ_mul ..
    have hTle : (q + 1) * 2 ^ m ≤ T :=
      (Nat.mul_le_mul_right _ (by omega)).trans (Nat.div_mul_le_self T (2 ^ m))
    have honly := lineRange_eq (by omega) hn hend (k := 1) (by omega) (.inr (by omega))
    have hfirst : ∀ va ∈ l, va.toNat / 2 ^ m = q := by
      intro va hva'
      rw [strides_unique hl honly, List.range_one, List.map_singleton, List.mem_singleton] at hva'
      have hzero : UInt64.ofNat 0 * n = 0 := UInt64.zero_mul
      rw [hva', hzero, UInt64.add_zero, hva, Nat.mul_div_cancel _ hpos]
    -- the range is about the whole address space, and goes on in the next line
    obtain ⟨va', hmem', hline⟩ := hcovers n (by rw [UInt64.lt_iff_toNat_lt, hn]; omega)
    rw [hfirst va' hmem', UInt64.toNat_add, hn] at hline
    by_cases hover : start.toNat + 2 ^ m < 2 ^ 64
    · rw [Nat.mod_eq_of_lt hover, Nat.add_div_right _ hpos, hq] at hline
      omega
    · have hlow : (start.toNat + 2 ^ m) % 2 ^ 64 < 2 ^ m := by omega
      rw [Nat.div_eq_of_lt hlow] at hline
      rw [hline] at hdiv
      omega

end LineRange

/-- `dcache_op_range`, of an instruction that cleans a line. -/
theorem dcacheOpRange_iff {cacheOp : UInt64 → CacheOp}
    (h : ∀ va, (cacheOp va).va = va) :
    (aarch64 ctr).Cleans start size (dcacheOpRange cacheOp ctr start size) ↔
      size = 0 ∨ (aarch64 ctr).Fits start size := by
  obtain ⟨m, hm, hm', hn⟩ := lineSize_aarch64 ctr
  have hcovers (l : List UInt64) : (aarch64 ctr).Covers start size l ↔
      ∀ i < size, ∃ va ∈ l, va.toNat / 2 ^ m = (start + i).toNat / 2 ^ m := by
    rw [Covers, ← hn]
    rfl
  have hfitsIff : (aarch64 ctr).Fits start size ↔
      start.toNat + size.toNat + (2 ^ m - 1) < 2 ^ 64 := by
    rw [Fits, hn]
  rw [cleans_iff, hfitsIff]
  constructor
  · rintro ⟨fuel, ops, hops, hall⟩
    obtain ⟨l, hl, rfl⟩ := Option.map_eq_some_iff.1 hops
    rw [map_va h, hcovers] at hall
    by_cases hsize : size = 0
    · exact .inl hsize
    · exact .inr (fits_of_lineRange hm' hm hn hsize hl hall)
  · intro hfits
    have hreturns {fuel : ℕ} {l : List UInt64}
        (hl : lineRange (Ctr.dcacheLineSize ctr) start size fuel = some l) :
        dcacheOpRange cacheOp ctr start size fuel = some (l.map cacheOp) := by
      rw [dcacheOpRange, hl]
      rfl
    obtain hzero | hfits := hfits
    · subst hzero
      obtain ⟨fuel, l, hl⟩ := @lineRange_zero start _ m (by omega) hn
      refine ⟨fuel, _, hreturns hl, fun i hi => ?_⟩
      exact absurd hi (by simp)
    · obtain ⟨fuel, l, hl, hall⟩ := lineRange_of_fits (by omega) hn hfits
      refine ⟨fuel, _, hreturns hl, ?_⟩
      rw [map_va h, hcovers]
      exact hall

/-! ## x86 -/

theorem strides_x86 (hsize : size.toNat ≤ 2 ^ 64 - 64) :
    strides 0 size 64 ((size.toNat + 63) / 64 + 1) =
      some ((List.range ((size.toNat + 63) / 64)).map fun i => 0 + UInt64.ofNat i * 64) := by
  have hstep : (64 : UInt64).toNat = 64 := rfl
  have hzero : (0 : UInt64).toNat = 0 := rfl
  refine strides_eq ?_ (fun i hi => ?_) ?_ (Nat.lt_succ_self _)
  · rw [hstep, hzero]
    omega
  · rw [hstep, hzero]
    omega
  · rw [hstep, hzero]
    omega

theorem strides_x86_none (hsize : ¬size.toNat ≤ 2 ^ 64 - 64) (fuel : ℕ) :
    strides 0 size 64 fuel = none := by
  refine strides_eq_none (fun i => ?_) fuel
  have hstep : (64 : UInt64).toNat = 64 := rfl
  rw [UInt64.zero_add, UInt64.lt_iff_toNat_lt, UInt64.toNat_mul, hstep]
  omega

theorem covers_x86 (hsize : size.toNat ≤ 2 ^ 64 - 64) (hpos : size ≠ 0) :
    x86.Covers start size
        ((List.range ((size.toNat + 63) / 64)).map fun i => start + (0 + UInt64.ofNat i * 64)) ↔
      start.toNat % 64 + (size.toNat - 1) % 64 < 64 := by
  have hsizepos : 0 < size.toNat :=
    Nat.pos_of_ne_zero fun h => hpos (UInt64.toNat_inj.1 (h.trans rfl))
  have hstep : (64 : UInt64).toNat = 64 := rfl
  have hline (a : UInt64) : x86.line a = a.toNat / 64 := rfl
  have hva (i : ℕ) (hi : i < (size.toNat + 63) / 64) :
      x86.line (start + (0 + UInt64.ofNat i * 64)) = (start.toNat + i * 64) % 2 ^ 64 / 64 := by
    have hlt : i * 64 < 2 ^ 64 := by omega
    rw [hline, UInt64.zero_add, UInt64.toNat_add, UInt64.toNat_mul, UInt64.toNat_ofNat', hstep,
      Nat.mod_mul_mod, Nat.mod_eq_of_lt hlt]
  constructor
  · intro hcovers
    obtain ⟨va, hmem, heq⟩ := hcovers (size - 1) (by
      rw [UInt64.lt_iff_toNat_lt, UInt64.toNat_sub_of_le _ _ (by
        rw [UInt64.le_iff_toNat_le]; exact hsizepos)]
      exact Nat.sub_lt hsizepos (by decide))
    obtain ⟨i, hi, rfl⟩ := List.mem_map.1 hmem
    rw [List.mem_range] at hi
    rw [hva i hi, hline, UInt64.toNat_add, UInt64.toNat_sub_of_le _ _ (by
      rw [UInt64.le_iff_toNat_le]; exact hsizepos)] at heq
    have hone : (1 : UInt64).toNat = 1 := rfl
    rw [hone] at heq
    have := start.toNat_lt
    omega
  · intro hlast i hi
    rw [UInt64.lt_iff_toNat_lt] at hi
    have hsum : x86.line (start + i) = (start.toNat + i.toNat) % 2 ^ 64 / 64 := by
      rw [hline, UInt64.toNat_add]
    have := start.toNat_lt
    by_cases hsame : start.toNat % 64 + i.toNat % 64 < 64
    · have hk : i.toNat / 64 < (size.toNat + 63) / 64 := by omega
      refine ⟨_, List.mem_map_of_mem (List.mem_range.2 hk), ?_⟩
      rw [hva _ hk, hsum]
      omega
    · have hk : i.toNat / 64 + 1 < (size.toNat + 63) / 64 := by omega
      refine ⟨_, List.mem_map_of_mem (List.mem_range.2 hk), ?_⟩
      rw [hva _ hk, hsum]
      omega

theorem x86_iff : x86.Cleans start size (x86.dcacheCleanRange start size) ↔
    size = 0 ∨ x86.Fits start size := by
  have hops (offsets : List UInt64) :
      (offsets.map fun i => CacheOp.clflush (start + i)).map CacheOp.va =
        offsets.map fun i => start + i := by
    rw [List.map_map]
    rfl
  rw [cleans_iff, Fits]
  by_cases hsize : size.toNat ≤ 2 ^ 64 - 64
  · have hreturns (fuel : ℕ) {ops : List CacheOp}
        (h : x86.dcacheCleanRange start size fuel = some ops) : ops.map CacheOp.va =
          (List.range ((size.toNat + 63) / 64)).map
            fun i => start + (0 + UInt64.ofNat i * 64) := by
      obtain ⟨offsets, hoffsets, rfl⟩ := Option.map_eq_some_iff.1 h
      rw [hops, strides_unique hoffsets (strides_x86 hsize), List.map_map]
      rfl
    obtain ⟨ops, hex⟩ : ∃ ops,
        x86.dcacheCleanRange start size ((size.toNat + 63) / 64 + 1) = some ops := by
      rw [dcacheCleanRange, strides_x86 hsize]
      exact ⟨_, rfl⟩
    by_cases hzero : size = 0
    · refine ⟨fun _ => .inl hzero, fun _ => ⟨_, _, hex, fun i hi => ?_⟩⟩
      subst hzero
      exact absurd hi (by simp)
    · constructor
      · rintro ⟨fuel, ops, h, hcovers⟩
        rw [hreturns fuel h] at hcovers
        exact .inr ⟨hsize, (covers_x86 hsize hzero).1 hcovers⟩
      · rintro (h | ⟨-, hlast⟩)
        · exact absurd h hzero
        · refine ⟨_, _, hex, ?_⟩
          rw [hreturns _ hex]
          exact (covers_x86 hsize hzero).2 hlast
  · have hne : size ≠ 0 := fun h => hsize (by rw [h]; decide)
    constructor
    · rintro ⟨fuel, ops, h, -⟩
      rw [dcacheCleanRange, strides_x86_none hsize] at h
      exact absurd h nofun
    · rintro (h | ⟨h, -⟩)
      · exact absurd h hne
      · exact absurd h hsize

/-! ## Both -/

theorem dcacheCleanInvalidateRange_iff (arch : Arch) (start size : UInt64) :
    arch.Cleans start size (arch.dcacheCleanInvalidateRange start size) ↔
      size = 0 ∨ arch.Fits start size := by
  cases arch with
  | aarch64 ctr => exact dcacheOpRange_iff fun _ => rfl
  | x86 => exact x86_iff

theorem dcacheCleanInvalidateRange_mono {ops : List CacheOp} {fuel' : ℕ}
    (h : arch.dcacheCleanInvalidateRange start size fuel = some ops) (hle : fuel ≤ fuel') :
    arch.dcacheCleanInvalidateRange start size fuel' = some ops := by
  cases arch with
  | aarch64 ctr =>
      obtain ⟨l, hl, rfl⟩ := Option.map_eq_some_iff.1 h
      exact Option.map_eq_some_iff.2 ⟨l, strides_mono hl hle, rfl⟩
  | x86 =>
      obtain ⟨l, hl, rfl⟩ := Option.map_eq_some_iff.1 h
      exact Option.map_eq_some_iff.2 ⟨l, strides_mono hl hle, rfl⟩

/-- **When a range is cleaned**: on AArch64 if its end can be aligned to a line, on x86 if the steps
from its start go into its last line and past its end. -/
theorem cleaned_iff (arch : Arch) (start size : UInt64) :
    (arch.Cleans start size (arch.dcacheCleanRange start size) ↔ size = 0 ∨ arch.Fits start size) ∧
      (arch.Cleans start size (arch.dcacheCleanInvalidateRange start size) ↔
        size = 0 ∨ arch.Fits start size) := by
  refine ⟨?_, dcacheCleanInvalidateRange_iff arch start size⟩
  cases arch with
  | aarch64 ctr => exact dcacheOpRange_iff fun _ => rfl
  | x86 => exact x86_iff

/-- A range from the beginning of a page on, below the last lines of the address space. -/
theorem fits_of_page (hpage : start.toNat % 4096 = 0)
    (hlow : start.toNat + size.toNat + 2 ^ 17 ≤ 2 ^ 64) : arch.Fits start size := by
  cases arch with
  | aarch64 ctr =>
      obtain ⟨m, hm, -, hn⟩ := lineSize_aarch64 ctr
      have hsmall : 2 ^ m ≤ 2 ^ 17 := Nat.pow_le_pow_right (by decide) hm
      have hpos : 0 < 2 ^ m := Nat.two_pow_pos m
      rw [Fits, hn]
      omega
  | x86 =>
      refine ⟨by omega, ?_⟩
      omega

end Arch

end Vml
