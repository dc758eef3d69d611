import Vml.CacheLines
import Vml.Lib.Blocks

/-!
# Mappings of the host

`platform/memory.hpp`: `map_mem` has the operating system map a part of a memory object, and
`unmap_mem` gives the mapping back. The operating system maps whole pages, so `align_mmap` extends
what is asked for to the pages it is in, and `map_mem` returns a pointer into the first of them.
`unmap_mem` has but this pointer and the size to find the pages again.

**The operating system** puts the pages wherever nothing is mapped, or refuses to (`Kernel`).

Main result: `HostMaps.maps_run`: whatever is mapped, and given back in whatever order, all mappings
that are held lead to their parts of the objects, and can be given back, and after the last one
nothing is left behind.
-/

namespace Vml

/-- `getpagesize()`. -/
structure PageSize where
  bits : ℕ
  bits_lt : bits < 64

namespace PageSize

def bytes (p : PageSize) : ℕ := 2 ^ p.bits

def word (p : PageSize) : UInt64 := UInt64.ofNat p.bytes

end PageSize

/-- `align_mmap`: the offset and the size of the pages, and the offset in the first one. -/
def alignMmap (p : PageSize) (offset size : UInt64) : UInt64 × UInt64 × UInt64 :=
  let alignedOff := alignDn offset p.word
  let offsetInPage := offset - alignedOff
  (alignedOff, alignUp (size + offsetInPage) p.word, offsetInPage)

/-- What a page of the address space is: a page of an object, which may be written or not. -/
structure HostPage where
  fd : UInt32
  page : ℕ
  write : Bool
  deriving DecidableEq, Repr

/-- The address space of the VMM, and what is in the memory objects. -/
structure HostMem where
  pages : ℕ → Option HostPage
  objects : UInt32 → ℕ → UInt8

/-- Where the operating system puts pages. It may refuse to. -/
structure Kernel (p : PageSize) where
  place : (pages : ℕ → Option HostPage) → (n : ℕ) → Option ℕ
  free : ∀ {pages n q}, place pages n = some q → ∀ i, q ≤ i ∧ i < q + n → pages i = none
  inSpace : ∀ {pages n q}, place pages n = some q → 0 < q ∧ (q + n) * p.bytes ≤ 2 ^ 64

namespace HostMem

variable {p : PageSize}

/-- `mmap(nullptr, len, ..., MAP_SHARED, fd, offset)`. -/
def mmap (k : Kernel p) (s : HostMem) (fd : UInt32) (offset len : UInt64) (write : Bool) :
    Option (UInt64 × HostMem) :=
  if len = 0 then none
  else (k.place s.pages (len.toNat / p.bytes)).map fun q =>
    let block : Block HostPage :=
      ⟨q, len.toNat / p.bytes, fun i => ⟨fd, offset.toNat / p.bytes + i, write⟩⟩
    (UInt64.ofNat (q * p.bytes), { s with pages := block.put s.pages })

/-- `munmap`. -/
def munmap (p : PageSize) (s : HostMem) (addr len : UInt64) : Option HostMem :=
  if addr.toNat % p.bytes ≠ 0 ∨ len = 0 then none
  else some { s with pages := clearRange (addr.toNat / p.bytes) (len.toNat / p.bytes) s.pages }

/-- `map_mem`. The file descriptor is an `int`. -/
def mapMem (k : Kernel p) (s : HostMem) (msel offset size : UInt64) (write : Bool) :
    Option (UInt64 × HostMem) :=
  let pages := alignMmap p offset size
  (s.mmap k msel.toUInt32 pages.1 pages.2.1 write).map fun r => (r.1 + pages.2.2, r.2)

/-- `unmap_mem`, which fails if `munmap` does. -/
def unmapMem (p : PageSize) (s : HostMem) (addr size : UInt64) : Option HostMem :=
  let pages := alignMmap p addr size
  s.munmap p pages.1 pages.2.1

/-- The byte at an address, if something is mapped there. -/
def load (p : PageSize) (s : HostMem) (a : ℕ) : Option UInt8 :=
  (s.pages (a / p.bytes)).map fun page => s.objects page.fd (page.page * p.bytes + a % p.bytes)

end HostMem

/-- A mapping that is held. -/
structure Mapping where
  msel : UInt64
  offset : UInt64
  size : UInt64
  write : Bool
  va : UInt64
  deriving DecidableEq, Repr

namespace Mapping

/-- The pages of a mapping. -/
def block (p : PageSize) (m : Mapping) : Block HostPage where
  start := m.va.toNat / p.bytes
  size := (alignMmap p m.offset m.size).2.1.toNat / p.bytes
  entry i := ⟨m.msel.toUInt32, m.offset.toNat / p.bytes + i, m.write⟩

/-- What is asked for does not wrap, from the page where it begins. -/
def Fits (p : PageSize) (m : Mapping) : Prop :=
  m.offset.toNat % p.bytes + m.size.toNat < 2 ^ 64

/-- The mapping is as `map_mem` returns it. -/
structure Ok (p : PageSize) (m : Mapping) : Prop where
  sameOffset : m.va.toNat % p.bytes = m.offset.toNat % p.bytes
  len : (alignMmap p m.offset m.size).2.1 ≠ 0
  inSpace : (m.va.toNat / p.bytes + (m.block p).size) * p.bytes ≤ 2 ^ 64

end Mapping

/-! ## Pages -/

section Pages

variable {p : PageSize} {offset offset' size : UInt64}

theorem PageSize.bytes_pos (p : PageSize) : 0 < p.bytes := Nat.two_pow_pos _

theorem PageSize.bytes_lt (p : PageSize) : p.bytes < 2 ^ 64 :=
  Nat.pow_lt_pow_right (by decide) p.bits_lt

theorem PageSize.toNat_word (p : PageSize) : p.word.toNat = p.bytes := by
  rw [word, UInt64.toNat_ofNat', Nat.mod_eq_of_lt p.bytes_lt]

theorem toNat_pageDn (a : UInt64) : (alignDn a p.word).toNat = a.toNat / p.bytes * p.bytes :=
  toNat_alignDn p.bits_lt p.toNat_word a

theorem toNat_alignMmap_offset :
    (alignMmap p offset size).1.toNat = offset.toNat / p.bytes * p.bytes :=
  toNat_pageDn offset

theorem toNat_alignMmap_inPage :
    (alignMmap p offset size).2.2.toNat = offset.toNat % p.bytes := by
  have hle : alignDn offset p.word ≤ offset := by
    rw [UInt64.le_iff_toNat_le, toNat_pageDn]
    exact Nat.div_mul_le_self ..
  have hsplit := Nat.div_add_mod' offset.toNat p.bytes
  change (offset - alignDn offset p.word).toNat = _
  rw [UInt64.toNat_sub_of_le _ _ hle, toNat_pageDn]
  omega

theorem alignMmap_len_congr (h : offset.toNat % p.bytes = offset'.toNat % p.bytes) :
    (alignMmap p offset size).2.1 = (alignMmap p offset' size).2.1 := by
  have hinPage : (alignMmap p offset size).2.2 = (alignMmap p offset' size).2.2 := by
    rw [← UInt64.toNat_inj, toNat_alignMmap_inPage, toNat_alignMmap_inPage, h]
  change alignUp (size + (alignMmap p offset size).2.2) p.word = _
  rw [hinPage]
  rfl

theorem bytes_dvd_alignMmap_len : p.bytes ∣ (alignMmap p offset size).2.1.toNat := by
  change p.bytes ∣ (alignUp _ p.word).toNat
  rw [toNat_alignUp p.bits_lt p.toNat_word]
  exact Dvd.intro_left _ rfl

/-- All bytes of the part are in the pages, if there are any. -/
theorem le_alignMmap_len (hfits : offset.toNat % p.bytes + size.toNat < 2 ^ 64)
    (hlen : (alignMmap p offset size).2.1 ≠ 0) :
    offset.toNat % p.bytes + size.toNat ≤ (alignMmap p offset size).2.1.toNat := by
  have hsum : (size + (alignMmap p offset size).2.2).toNat =
      offset.toNat % p.bytes + size.toNat := by
    rw [UInt64.toNat_add, toNat_alignMmap_inPage, Nat.add_comm, Nat.mod_eq_of_lt hfits]
  have hup : (alignMmap p offset size).2.1.toNat =
      (offset.toNat % p.bytes + size.toNat + (p.bytes - 1)) % 2 ^ 64 / p.bytes * p.bytes := by
    rw [← hsum]
    exact toNat_alignUp p.bits_lt p.toNat_word _
  have hpos := p.bytes_pos
  have hlt := p.bytes_lt
  generalize offset.toNat % p.bytes + size.toNat = total at hfits hup ⊢
  by_cases hwraps : total + (p.bytes - 1) < 2 ^ 64
  · rw [Nat.mod_eq_of_lt hwraps] at hup
    have hsplit := Nat.div_add_mod' (total + (p.bytes - 1)) p.bytes
    have hmod := Nat.mod_lt (total + (p.bytes - 1)) hpos
    omega
  · -- past the last page the size wraps to nothing, which the operating system refuses
    have hsmall : (total + (p.bytes - 1)) % 2 ^ 64 < p.bytes := by
      rw [Nat.mod_eq_sub_mod (Nat.not_lt.1 hwraps), Nat.mod_eq_of_lt (by omega)]
      omega
    rw [Nat.div_eq_of_lt hsmall, Nat.zero_mul] at hup
    exact absurd (UInt64.toNat_inj.1 hup) hlen

end Pages

/-! ## One mapping -/

section OneMapping

variable {p : PageSize} {k : Kernel p} {s s' : HostMem} {m : Mapping} {msel offset size va : UInt64}
  {write : Bool}

theorem Mapping.size_mul_bytes (m : Mapping) :
    (m.block p).size * p.bytes = (alignMmap p m.offset m.size).2.1.toNat :=
  Nat.div_mul_cancel bytes_dvd_alignMmap_len

theorem mapMem_eq_some (h : s.mapMem k msel offset size write = some (va, s')) :
    let m : Mapping := ⟨msel, offset, size, write, va⟩
    m.Ok p ∧ s' = { s with pages := (m.block p).put s.pages } ∧
      ∀ q, (m.block p).Covers q → s.pages q = none := by
  intro m
  obtain ⟨⟨res, s₁⟩, hmmap, heq⟩ := Option.map_eq_some_iff.1 h
  obtain ⟨rfl, rfl⟩ := Prod.mk.inj heq
  unfold HostMem.mmap at hmmap
  split_ifs at hmmap with hlen
  obtain ⟨q, hplace, heq⟩ := Option.map_eq_some_iff.1 hmmap
  obtain ⟨rfl, rfl⟩ := Prod.mk.inj heq
  obtain ⟨-, hspace⟩ := k.inSpace hplace
  have hbytes := p.bytes_pos
  have hmul := m.size_mul_bytes (p := p)
  have hlenPos : 0 < (alignMmap p offset size).2.1.toNat :=
    Nat.pos_of_ne_zero fun hzero => hlen (UInt64.toNat_inj.1 hzero)
  change (q + (m.block p).size) * p.bytes ≤ 2 ^ 64 at hspace
  have hmod := Nat.mod_lt offset.toNat hbytes
  have hroom : q * p.bytes + p.bytes ≤ 2 ^ 64 := by
    have hone : 1 ≤ (m.block p).size := by
      refine Nat.one_le_iff_ne_zero.2 fun hzero => ?_
      rw [hzero, Nat.zero_mul] at hmul
      exact hlenPos.ne hmul
    calc q * p.bytes + p.bytes = (q + 1) * p.bytes := (Nat.succ_mul q p.bytes).symm
      _ ≤ (q + (m.block p).size) * p.bytes := Nat.mul_le_mul_right _ (by omega)
      _ ≤ 2 ^ 64 := hspace
  have hva : m.va.toNat = offset.toNat % p.bytes + p.bytes * q := by
    change (UInt64.ofNat (q * p.bytes) + (alignMmap p offset size).2.2).toNat = _
    rw [UInt64.toNat_add, UInt64.toNat_ofNat', toNat_alignMmap_inPage,
      Nat.mod_eq_of_lt (a := q * p.bytes) (by omega), Nat.mod_eq_of_lt (by omega), Nat.add_comm,
      Nat.mul_comm]
  have hstart : m.va.toNat / p.bytes = q := by
    rw [hva, Nat.add_mul_div_left _ _ hbytes, Nat.div_eq_of_lt hmod, Nat.zero_add]
  refine ⟨⟨?_, hlen, ?_⟩, ?_, ?_⟩
  · rw [hva, Nat.add_mul_mod_self_left, Nat.mod_mod]
  · rwa [hstart]
  · have hblock : m.block p = ⟨q, (m.block p).size, (m.block p).entry⟩ := by
      rw [← hstart]
      rfl
    rw [hblock]
    change _ = HostMem.mk (Block.put ⟨q, _, fun i => ⟨_, offset.toNat / p.bytes + i, _⟩⟩ _) _
    have hpage : (alignMmap p offset size).1.toNat / p.bytes = offset.toNat / p.bytes := by
      rw [toNat_alignMmap_offset, Nat.mul_div_cancel _ hbytes]
    rw [hpage]
    rfl
  · intro i hcovers
    refine k.free hplace i ?_
    rw [← hstart]
    exact hcovers

theorem Mapping.Ok.unmapMem (hm : m.Ok p) (s : HostMem) : s.unmapMem p m.va m.size =
    some { s with pages := clearRange (m.block p).start (m.block p).size s.pages } := by
  have hlen : (alignMmap p m.va m.size).2.1 = (alignMmap p m.offset m.size).2.1 :=
    alignMmap_len_congr hm.sameOffset
  have haddr : (alignMmap p m.va m.size).1.toNat = m.va.toNat / p.bytes * p.bytes :=
    toNat_alignMmap_offset
  have hnot : ¬((alignMmap p m.va m.size).1.toNat % p.bytes ≠ 0 ∨
      (alignMmap p m.va m.size).2.1 = 0) := by
    rw [haddr, Nat.mul_mod_left, hlen]
    exact not_or.2 ⟨fun hne => hne rfl, hm.len⟩
  refine (if_neg hnot).trans ?_
  rw [haddr, Nat.mul_div_cancel _ p.bytes_pos, hlen]
  rfl

theorem Mapping.Ok.page (hm : m.Ok p) (hfits : m.Fits p) {i : ℕ} (hi : i < m.size.toNat) :
    (m.block p).Covers ((m.va.toNat + i) / p.bytes) ∧
      (m.offset.toNat / p.bytes + ((m.va.toNat + i) / p.bytes - m.va.toNat / p.bytes)) * p.bytes +
        (m.va.toNat + i) % p.bytes = m.offset.toNat + i := by
  have hbytes := p.bytes_pos
  have hle := le_alignMmap_len hfits hm.len
  rw [← m.size_mul_bytes] at hle
  have hsplit := Nat.div_add_mod' m.va.toNat p.bytes
  rw [hm.sameOffset] at hsplit
  have hoffset := Nat.div_add_mod' m.offset.toNat p.bytes
  have hva : m.va.toNat + i =
      m.offset.toNat % p.bytes + i + p.bytes * (m.va.toNat / p.bytes) := by
    rw [Nat.mul_comm]
    omega
  have hdiv : (m.va.toNat + i) / p.bytes =
      (m.offset.toNat % p.bytes + i) / p.bytes + m.va.toNat / p.bytes := by
    rw [hva, Nat.add_mul_div_left _ _ hbytes]
  have hmod : (m.va.toNat + i) % p.bytes = (m.offset.toNat % p.bytes + i) % p.bytes := by
    rw [hva, Nat.add_mul_mod_self_left]
  have hlt : (m.offset.toNat % p.bytes + i) / p.bytes < (m.block p).size :=
    (Nat.div_lt_iff_lt_mul hbytes).2 (by omega)
  constructor
  · change m.va.toNat / p.bytes ≤ _ ∧ _ < m.va.toNat / p.bytes + _
    rw [hdiv, Nat.add_comm]
    exact ⟨Nat.le_add_right .., Nat.add_lt_add_left hlt _⟩
  · rw [hmod, hdiv, Nat.add_sub_cancel, Nat.add_mul, Nat.add_assoc,
      Nat.div_add_mod' (m.offset.toNat % p.bytes + i)]
    omega

theorem Mapping.Ok.load (hm : m.Ok p) (hfits : m.Fits p)
    (hheld : ∀ q, (m.block p).Covers q →
      s.pages q = some ((m.block p).entry (q - (m.block p).start)))
    {i : ℕ} (hi : i < m.size.toNat) :
    s.load p (m.va.toNat + i) = some (s.objects m.msel.toUInt32 (m.offset.toNat + i)) := by
  obtain ⟨hcovers, hbyte⟩ := hm.page hfits hi
  rw [HostMem.load, hheld _ hcovers]
  exact congrArg (fun b => some (s.objects m.msel.toUInt32 b)) hbyte

end OneMapping

/-! ## Runs -/

/-- The host, and the mappings that are held. -/
structure HostMaps where
  mem : HostMem
  held : List Mapping

/-- What the VMM does. What it gives back it holds. -/
inductive MapAct (p : PageSize)
  | map (k : Kernel p) (msel offset size : UInt64) (write : Bool)
  | unmap (m : Mapping)

namespace HostMaps

variable {p : PageSize}

/-- There is no result if something is given back that is not held, or cannot be given back. -/
def next (s : HostMaps) : MapAct p → Option HostMaps
  | .map k msel offset size write =>
      some (match s.mem.mapMem k msel offset size write with
        | none => s
        | some (va, mem) => ⟨mem, ⟨msel, offset, size, write, va⟩ :: s.held⟩)
  | .unmap m =>
      if m ∈ s.held then
        (s.mem.unmapMem p m.va m.size).map fun mem => ⟨mem, s.held.erase m⟩
      else none

/-- The mappings that are held are all there is, but for what has been there at first. -/
structure Inv (p : PageSize) (base : HostMem) (s : HostMaps) : Prop where
  objects : s.mem.objects = base.objects
  ok : ∀ m ∈ s.held, m.Ok p
  holding : Holding base.pages s.mem.pages (s.held.map (Mapping.block p))

variable {base : HostMem} {s t : HostMaps}

theorem Inv.next (h : Inv p base s) {a : MapAct p} (ha : s.next a = some t) : Inv p base t := by
  cases a with
  | map k msel offset size write =>
    obtain rfl := Option.some.inj ha
    cases hmap : s.mem.mapMem k msel offset size write with
    | none => exact h
    | some r =>
      obtain ⟨va, mem⟩ := r
      obtain ⟨hok, rfl, hfree⟩ := mapMem_eq_some hmap
      exact ⟨h.objects, List.forall_mem_cons.2 ⟨hok, h.ok⟩, h.holding.put hfree⟩
  | unmap m =>
    rw [HostMaps.next] at ha
    split_ifs at ha with hmem
    rw [(h.ok m hmem).unmapMem, Option.map_some] at ha
    cases ha
    obtain ⟨l₁, l₂, -, hheld, herase⟩ := List.exists_erase_eq hmem
    have hholding := h.holding
    rw [hheld, List.map_append, List.map_cons] at hholding
    refine ⟨h.objects, fun c hc => h.ok c (List.mem_of_mem_erase hc), ?_⟩
    rw [herase, List.map_append]
    exact hholding.clear

theorem inv_run (acts : List (MapAct p)) (hs : Inv p base s)
    (h : acts.foldlM HostMaps.next s = some t) : Inv p base t := by
  induction acts generalizing s with
  | nil =>
    cases h
    exact hs
  | cons a acts ih =>
    rw [List.foldlM_cons] at h
    obtain ⟨u, hstep, hrest⟩ := Option.bind_eq_some_iff.1 h
    exact ih (hs.next hstep) hrest

/-- **Whatever is mapped and given back**, the mappings that are held lead to their parts of the
objects and can be given back, and when none is held the host is as it was. -/
theorem maps_run (acts : List (MapAct p)) (h : acts.foldlM HostMaps.next ⟨base, []⟩ = some t) :
    (∀ m ∈ t.held, t.next (.unmap m : MapAct p) ≠ none ∧ (m.Fits p → ∀ i, i < m.size.toNat →
      t.mem.load p (m.va.toNat + i) =
        some (base.objects m.msel.toUInt32 (m.offset.toNat + i)))) ∧
    (t.held = [] → t.mem = base) := by
  have hinv : Inv p base t := inv_run acts ⟨rfl, by simp, .nil _⟩ h
  constructor
  · intro m hm
    constructor
    · rw [HostMaps.next, if_pos hm, (hinv.ok m hm).unmapMem]
      simp
    · intro hfits i hi
      rw [← hinv.objects]
      exact (hinv.ok m hm).load hfits (hinv.holding.held _ (List.mem_map_of_mem hm)) hi
  · intro hnone
    have hholding := hinv.holding
    rw [hnone] at hholding
    have hpages := hholding.eq_base
    have hobjects := hinv.objects
    obtain ⟨⟨pages, objects⟩, held⟩ := t
    cases hpages
    cases hobjects
    rfl

/-- Pages of 4096 bytes. -/
def fourKiB : PageSize := ⟨12, by decide⟩

/-- Puts one or two pages at the second page, if there is nothing. -/
def secondPage : Kernel fourKiB where
  place pages n := if n ≤ 2 ∧ pages 1 = none ∧ pages 2 = none then some 1 else none
  free {pages n q} h i hi := by
    split_ifs at h with hnone
    cases h
    obtain ⟨hn, hfirst, hsecond⟩ := hnone
    rcases (by omega : i = 1 ∨ i = 2) with rfl | rfl
    · exact hfirst
    · exact hsecond
  inSpace {pages n q} h := by
    split_ifs at h with hnone
    cases h
    have hbytes : fourKiB.bytes = 4096 := rfl
    rw [hbytes]
    omega

/-- A part that is not aligned, in two pages. -/
theorem maps_run_twoPages : ∃ t : HostMaps, t.held = [⟨7, 100, 5000, true, 4196⟩] ∧
    t.mem.load fourKiB (4196 + 4999) = some (UInt8.ofNat (100 + 4999)) := by
  let base : HostMem := { pages := fun _ => none, objects := fun _ a => UInt8.ofNat a }
  have hpages : alignMmap fourKiB 100 5000 = (0, 8192, 100) := by decide +kernel
  obtain ⟨t, hrun, hheld⟩ : ∃ t, [MapAct.map secondPage 7 100 5000 true].foldlM HostMaps.next
      ⟨base, []⟩ = some t ∧ t.held = [⟨7, 100, 5000, true, 4196⟩] := by
    refine ⟨_, rfl, ?_⟩
    rw [HostMem.mapMem, hpages]
    rfl
  have hmem : (⟨7, 100, 5000, true, 4196⟩ : Mapping) ∈ t.held := by
    rw [hheld]
    exact List.mem_cons_self
  have hfits : Mapping.Fits fourKiB ⟨7, 100, 5000, true, 4196⟩ := by
    change 100 % 4096 + 5000 < 2 ^ 64
    decide
  have hload := ((maps_run _ hrun).1 _ hmem).2 hfits 4999 (by decide)
  have hva : (4196 : UInt64).toNat = 4196 := rfl
  have hoffset : (100 : UInt64).toNat = 100 := rfl
  rw [hva, hoffset] at hload
  exact ⟨t, hheld, hload⟩

end HostMaps

end Vml
