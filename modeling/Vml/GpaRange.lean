import Vml.SimpleAS

/-!
# Whether a guest address is in an address space

`is_gpa_valid` looks at the first address of an access and at the last, and computes the last
address and the end of the space in 64 bits. An access that is so large that it wraps may have its
last address in the space again, and a space that reaches the top of the addresses has an end below
its beginning, so that no access is in it.

**Four functions** of an address space trust the answer: `read`, `write`, `demand_map` and
`clean_invalidate`. What they use of the memory object is within it where the answer is right.

Main result: `SimpleAS.isGpaValid_holds_iff`.
-/

namespace Vml

/-- A function of `SimpleAS` that turns a guest address into an offset. -/
inductive GpaAccess
  | read
  | write
  | demandMap (write : Bool)
  | cleanInvalidate
  deriving DecidableEq, Repr

namespace SimpleAS

/-- `clean_invalidate`: the part of the object whose caches are cleaned. -/
def cleanInvalidate (h : Host) (as : SimpleAS) (gpa size : UInt64) :
    Outcome (Except Errno HostRegion) :=
  if !as.isGpaValid gpa size then .ret (.error .inval)
  else
    let offset := gpa - as.asRange.begin
    match as.regionAt h offset size true with
    | none => .ret (.error .nomem)
    | some r => as.demandUnmap h r

/-- The part of the object that is used by a call that succeeds. -/
def used (h : Host) (as : SimpleAS) (gpa size : UInt64) : GpaAccess → Option HostRegion
  | .read =>
      match as.read h size gpa with
      | .ret (.ok r) => some r
      | _ => none
  | .write =>
      match as.write h gpa size with
      | .ret (.ok r) => some r
      | _ => none
  | .demandMap write =>
      match as.demandMap h gpa size write with
      | .ok r => some r
      | .error _ => none
  | .cleanInvalidate =>
      match as.cleanInvalidate h gpa size with
      | .ret (.ok r) => some r
      | _ => none

/-- There is an address, and each is in the space. -/
def Holds (as : SimpleAS) (addr sz : UInt64) : Prop :=
  0 < sz.toNat ∧ ∀ i < sz.toNat, as.asRange.begin.toNat ≤ addr.toNat + i ∧
    addr.toNat + i < as.asRange.begin.toNat + as.asRange.size.toNat

/-- What is used of the object is within it. -/
def UsesMapped (as : SimpleAS) (addr sz : UInt64) : Prop :=
  ∀ (h : Host) (a : GpaAccess) (r : HostRegion), as.used h addr sz a = some r →
    r.off.toNat + r.size.toNat ≤ as.asRange.size.toNat

/-- The space ends below the top, and the access does not begin in it and wrap up to or beyond its
beginning; or the space reaches the top, and the access is empty or is not in it. -/
def Unwrapped (as : SimpleAS) (addr sz : UInt64) : Prop :=
  if as.asRange.Bounded then
    as.asRange.begin.toNat ≤ addr.toNat →
      addr.toNat < as.asRange.begin.toNat + as.asRange.size.toNat →
        addr.toNat + sz.toNat ≤ 2 ^ 64 + as.asRange.begin.toNat
  else sz.toNat = 0 ∨ ¬as.asRange.Encloses addr.toNat sz.toNat

variable {h : Host} {as : SimpleAS} {addr sz : UInt64} {r : HostRegion}

theorem holds_iff : as.Holds addr sz ↔
    0 < sz.toNat ∧ as.asRange.Encloses addr.toNat sz.toNat := by
  rw [Holds, Range.Encloses]
  constructor
  · rintro ⟨hpos, hall⟩
    have hfirst := hall 0 hpos
    have hlast := hall (sz.toNat - 1) (by omega)
    omega
  · rintro ⟨hpos, hbegin, hend⟩
    refine ⟨hpos, ?_⟩
    intro i hi
    omega

/-! ## The answer -/

theorem toNat_last (hpos : 0 < sz.toNat) : (Range.last ⟨addr, sz⟩).toNat =
    (addr.toNat + sz.toNat - 1) % 2 ^ 64 := by
  have hempty : (⟨addr, sz⟩ : Range).empty = false := Range.empty_eq_false_iff.2 hpos
  have h1 : (1 : UInt64).toNat = 1 := rfl
  rw [Range.last, hempty, if_neg Bool.false_ne_true, UInt64.toNat_sub, UInt64.toNat_add, h1]
  dsimp only
  omega

/-- A space that reaches the top is taken for one without addresses. -/
theorem isGpaValid_of_not_bounded (hb : ¬as.asRange.Bounded) : as.isGpaValid addr sz = false := by
  have hbegin := as.asRange.begin.toNat_lt
  have hsize := as.asRange.size.toNat_lt
  have hval : ∀ val, as.asRange.containsVal val = false := by
    intro val
    rw [Range.containsVal]
    split_ifs with hempty
    · rfl
    · rw [Bool.and_eq_false_iff, decide_eq_false_iff_not, decide_eq_false_iff_not,
        UInt64.le_iff_toNat_le, UInt64.lt_iff_toNat_lt, Range.endAddr, UInt64.toNat_add]
      rw [Range.Bounded] at hb
      omega
  rw [isGpaValid, Range.contains, hval, Bool.and_false, Bool.false_and]

/-- Of a space that ends below the top, the first address and the last one as computed are. -/
theorem isGpaValid_iff (hb : as.asRange.Bounded) : as.isGpaValid addr sz = true ↔
    0 < sz.toNat ∧ as.asRange.begin.toNat ≤ addr.toNat ∧
      addr.toNat < as.asRange.begin.toNat + as.asRange.size.toNat ∧
      as.asRange.begin.toNat ≤ (addr.toNat + sz.toNat - 1) % 2 ^ 64 ∧
      (addr.toNat + sz.toNat - 1) % 2 ^ 64 < as.asRange.begin.toNat + as.asRange.size.toNat := by
  rw [isGpaValid, Range.contains, Bool.and_eq_true, Bool.and_eq_true, Bool.not_eq_true',
    Range.empty_eq_false_iff, Range.containsVal_iff hb, Range.containsVal_iff hb]
  constructor
  · rintro ⟨⟨hpos, hfirst⟩, hlast⟩
    rw [toNat_last hpos] at hlast
    exact ⟨hpos, hfirst.1, hfirst.2, hlast.1, hlast.2⟩
  · rintro ⟨hpos, hfirst, hfirst', hlast⟩
    rw [toNat_last hpos]
    exact ⟨⟨hpos, hfirst, hfirst'⟩, hlast⟩

/-- **The answer is right** exactly if nothing wraps. -/
theorem isGpaValid_iff_holds_iff :
    (as.isGpaValid addr sz = true ↔ as.Holds addr sz) ↔ as.Unwrapped addr sz := by
  have haddr := addr.toNat_lt
  have hsz := sz.toNat_lt
  rw [holds_iff, Unwrapped]
  split_ifs with hb
  · rw [isGpaValid_iff hb, Range.Encloses]
    rw [Range.Bounded] at hb
    constructor
    · intro hiff hbegin hend
      by_contra hwrap
      have hanswer := hiff.1 (by omega)
      omega
    · intro hunwrapped
      constructor
      · rintro ⟨hpos, hbegin, hend, hlast, hlast'⟩
        have := hunwrapped hbegin hend
        omega
      · rintro ⟨hpos, hbegin, hend⟩
        omega
  · rw [isGpaValid_of_not_bounded hb]
    constructor
    · intro hiff
      by_contra hne
      rw [not_or, not_not] at hne
      exact Bool.false_ne_true (hiff.2 ⟨Nat.pos_of_ne_zero hne.1, hne.2⟩)
    · rintro (hzero | hout)
      · exact iff_of_false Bool.false_ne_true fun hholds => Nat.ne_of_gt hholds.1 hzero
      · exact iff_of_false Bool.false_ne_true fun hholds => hout hholds.2

/-! ## What is used -/

theorem cleanInvalidate_eq_ok (heq : as.cleanInvalidate h addr sz = .ret (.ok r)) :
    as.isGpaValid addr sz = true ∧ ∃ va, r = ⟨as.msel, addr - as.asRange.begin, sz, va⟩ := by
  rw [cleanInvalidate] at heq
  split_ifs at heq with hvalid
  · cases heq
  · refine ⟨by simpa using hvalid, ?_⟩
    dsimp only at heq
    cases hregion : as.regionAt h (addr - as.asRange.begin) sz true with
    | none =>
      rw [hregion] at heq
      cases heq
    | some r' =>
      rw [hregion] at heq
      rw [Except.ok.inj (demandUnmap_eq_ret heq)]
      exact regionAt_eq_some hregion

/-- **What is used** begins at the address less that of the space, and has been asked about. -/
theorem used_eq_some {a : GpaAccess} (hused : as.used h addr sz a = some r) :
    as.isGpaValid addr sz = true ∧ ∃ va, r = ⟨as.msel, addr - as.asRange.begin, sz, va⟩ := by
  cases a with
  | read =>
    rw [used] at hused
    split at hused
    · next hread =>
      cases hused
      exact read_eq_ok hread
    · cases hused
  | write =>
    rw [used] at hused
    split at hused
    · next hwrite =>
      cases hused
      exact demandMap_eq_ok (write_eq_ok hwrite)
    · cases hused
  | demandMap write =>
    rw [used] at hused
    split at hused
    · next hmap =>
      cases hused
      exact demandMap_eq_ok hmap
    · cases hused
  | cleanInvalidate =>
    rw [used] at hused
    split at hused
    · next hclean =>
      cases hused
      exact cleanInvalidate_eq_ok hclean
    · cases hused

theorem usesMapped_of_holds (hvalid : as.isGpaValid addr sz = true → as.Holds addr sz) :
    as.UsesMapped addr sz := by
  intro h a r hused
  obtain ⟨hanswer, va, rfl⟩ := used_eq_some hused
  obtain ⟨-, hbegin, hend⟩ := holds_iff.1 (hvalid hanswer)
  have hoff : (addr - as.asRange.begin).toNat = addr.toNat - as.asRange.begin.toNat :=
    UInt64.toNat_sub_of_le _ _ (UInt64.le_iff_toNat_le.2 hbegin)
  dsimp only
  rw [hoff]
  omega

/-- **`is_gpa_valid` says whether the addresses are in the space**, and what is used of the object
is within it, exactly if nothing wraps. -/
theorem isGpaValid_holds_iff (as : SimpleAS) (addr sz : UInt64) :
    ((as.isGpaValid addr sz = true ↔ as.Holds addr sz) ∧ as.UsesMapped addr sz) ↔
      as.Unwrapped addr sz := by
  constructor
  · rintro ⟨hanswer, -⟩
    exact isGpaValid_iff_holds_iff.1 hanswer
  · intro hunwrapped
    have hanswer := isGpaValid_iff_holds_iff.2 hunwrapped
    exact ⟨hanswer, usesMapped_of_holds hanswer.1⟩

/-- An address space of a page. -/
def onePage : SimpleAS := { asRange := ⟨0x1000, 0x1000⟩, msel := 0, vmmView := some 0 }

/-- Nearly all addresses from the middle of the page on are taken for addresses of the page, and so
nearly all of them are read. -/
theorem wrapped_access_valid : ¬∀ (as : SimpleAS) (addr sz : UInt64),
    (as.isGpaValid addr sz = true ↔ as.Holds addr sz) ∧ as.UsesMapped addr sz := by
  intro hall
  have hused := (hall onePage 0x1800 0xFFFFFFFFFFFFFF00).2 ⟨fun _ _ _ _ => none, fun _ _ => true⟩
    .read ⟨0, 0x800, 0xFFFFFFFFFFFFFF00, 0x800⟩ (by decide)
  exact absurd hused (by decide)

end SimpleAS

end Vml
