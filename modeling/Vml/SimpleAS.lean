import Vml.QueueMappings
import Vml.Vbus

/-!
# Guest memory

`simple_as.cpp`: guest memory is a device on the bus, with a range of guest addresses and a memory
object behind it that is mapped on the host, as a whole (`map_host`) or piece by piece as it is
accessed. `read_bus`, `write_bus`, `demand_map_bus` and `map_guest_mem` find it by a search of the
bus, and turn a guest address into an offset in the object.

* `MemBus.inPlace_setUp`: whatever is called, a bus has its memory where that says it is.
* `MemBus.InPlace.contained_iff`: an access stays within one address space exactly if it is not a
  `map_guest_mem` that straddles the lowest range it overlaps while that can be mapped.
* `MemBus.setUp_contained_iff`: so do the rings of a queue that is constructed.
-/

namespace Vml

open Vbus

/-- `SimpleAS`. Its view is where the whole object is mapped, if it is. -/
structure SimpleAS where
  asRange : Range
  msel : UInt64
  guestCredWrite : Bool := true
  mobjectCredWrite : Bool := true
  vmmView : Option ℕ := none
  deriving DecidableEq, Repr

/-- What is plugged into a bus. -/
inductive MemDevice
  | device
  | irqController
  /-- Of type `GUEST_PHYSICAL_STATIC_MEMORY` or `GUEST_PHYSICAL_DYNAMIC_MEMORY`. -/
  | memory (as : SimpleAS)
  deriving DecidableEq, Repr

/-- The mappings of the host: `map_mem` of an object, from an offset and for a size, to be written
or not, and `unmap_mem`. -/
structure Host where
  mapMem : (sel offset size : UInt64) → (write : Bool) → Option ℕ
  unmapMem : (va : ℕ) → (size : UInt64) → Bool

/-- A part of a memory object, and where it is found on the host. -/
structure HostRegion where
  sel : UInt64
  off : UInt64
  size : UInt64
  va : ℕ
  deriving DecidableEq, Repr

/-- What a function does: it returns, or the program is aborted. -/
inductive Outcome (α : Type*)
  | abort
  | ret (a : α)
  deriving DecidableEq, Repr

namespace SimpleAS

/-- `is_gpa_valid`. -/
def isGpaValid (as : SimpleAS) (addr sz : UInt64) : Bool := as.asRange.contains ⟨addr, sz⟩

/-- `is_read_only`. -/
def isReadOnly (as : SimpleAS) : Bool := !as.guestCredWrite

/-- The part of the object at an offset, in the view or mapped for this. -/
def regionAt (h : Host) (as : SimpleAS) (offset size : UInt64) (write : Bool) :
    Option HostRegion :=
  match as.vmmView with
  | some view => some ⟨as.msel, offset, size, view + offset.toNat⟩
  | none => (h.mapMem as.msel offset size write).map fun va => ⟨as.msel, offset, size, va⟩

/-- `demand_unmap`, and `demand_unmap_clean`, which also cleans the caches. -/
def demandUnmap (h : Host) (as : SimpleAS) (r : HostRegion) : Outcome (Except Errno HostRegion) :=
  if as.vmmView.isNone && !h.unmapMem r.va r.size then .abort else .ret (.ok r)

/-- `read`: the part of the object that is copied. -/
def read (h : Host) (as : SimpleAS) (size addr : UInt64) : Outcome (Except Errno HostRegion) :=
  if !as.isGpaValid addr size then .ret (.error .inval)
  else
    let offset := addr - as.asRange.begin
    match as.regionAt h offset size false with
    | none => .ret (.error .nomem)
    | some r => as.demandUnmap h r

/-- `demand_map`: the part of the object that is mapped. -/
def demandMap (h : Host) (as : SimpleAS) (gpa sizeBytes : UInt64) (write : Bool) :
    Except Errno HostRegion :=
  if !as.isGpaValid gpa sizeBytes then .error .inval
  else if write && as.isReadOnly && !as.mobjectCredWrite then .error .perm
  else
    let offset := gpa - as.asRange.begin
    match as.regionAt h offset sizeBytes write with
    | none => .error .nomem
    | some r => .ok r

/-- `write`: the part of the object that is copied to. -/
def write (h : Host) (as : SimpleAS) (gpa size : UInt64) : Outcome (Except Errno HostRegion) :=
  match as.demandMap h gpa size true with
  | .error err => .ret (.error err)
  | .ok r => as.demandUnmap h r

/-- `map_view`. -/
def mapView (h : Host) (as : SimpleAS) (offset size : UInt64) (write : Bool) :
    Outcome (Option HostRegion) :=
  if as.isReadOnly && write && !as.mobjectCredWrite then .ret none
  else
    match h.mapMem as.msel offset size write with
    | none => .abort
    | some va => .ret (some ⟨as.msel, offset, size, va⟩)

end SimpleAS

/-- A bus that memory is plugged into. -/
abbrev MemBus := Bus MemDevice

namespace MemBus

/-- `get_as_device_at`. -/
def getAsDeviceAt (bus : MemBus) (addr sz : UInt64) : Option SimpleAS :=
  match bus.getDeviceAt addr sz with
  | some (.memory as) => some as
  | _ => none

/-- `read_bus`. -/
def readBus (h : Host) (bus : MemBus) (addr sz : UInt64) : Outcome (Except Errno HostRegion) :=
  match getAsDeviceAt bus addr sz with
  | none => .ret (.error .inval)
  | some tgt => tgt.read h sz addr

/-- `write_bus`. -/
def writeBus (h : Host) (bus : MemBus) (addr sz : UInt64) : Outcome (Except Errno HostRegion) :=
  match getAsDeviceAt bus addr sz with
  | none => .ret (.error .inval)
  | some tgt => tgt.write h addr sz

/-- `demand_map_bus`. -/
def demandMapBus (h : Host) (bus : MemBus) (gpa sizeBytes : UInt64) (write : Bool) :
    Except Errno HostRegion :=
  match getAsDeviceAt bus gpa sizeBytes with
  | none => .error .inval
  | some tgt => tgt.demandMap h gpa sizeBytes write

/-- `map_guest_mem`, with `none` for `nullptr`. -/
def mapGuestMem (h : Host) (bus : MemBus) (gpa sz : UInt64) (write : Bool) :
    Outcome (Option HostRegion) :=
  match getAsDeviceAt bus gpa sz with
  | none => .ret none
  | some tgt =>
      if write && tgt.isReadOnly then .ret none
      else tgt.mapView h (gpa - tgt.asRange.begin) sz write

end MemBus

/-- One of the four ways to guest memory. -/
inductive MemAccess
  | readBus
  | writeBus
  | demandMapBus (write : Bool)
  | mapGuestMem (write : Bool)
  deriving DecidableEq, Repr

namespace MemBus

/-- The part of the object that is used by an access that succeeds. -/
def used (h : Host) (bus : MemBus) (gpa sz : UInt64) : MemAccess → Option HostRegion
  | .readBus =>
      match readBus h bus gpa sz with
      | .ret (.ok r) => some r
      | _ => none
  | .writeBus =>
      match writeBus h bus gpa sz with
      | .ret (.ok r) => some r
      | _ => none
  | .demandMapBus write =>
      match demandMapBus h bus gpa sz write with
      | .ok r => some r
      | .error _ => none
  | .mapGuestMem write =>
      match mapGuestMem h bus gpa sz write with
      | .ret r => r
      | .abort => none

/-- The address space is plugged in. -/
def Has (bus : MemBus) (as : SimpleAS) : Prop := (.memory as, as.asRange) ∈ bus.registered

/-- The addresses lie in one address space, and the part of its object is theirs. -/
def Within (bus : MemBus) (gpa sz : UInt64) (r : HostRegion) : Prop :=
  ∃ as, Has bus as ∧ as.asRange.Encloses gpa.toNat sz.toNat ∧ r.sel = as.msel ∧ r.size = sz ∧
    r.off.toNat = gpa.toNat - as.asRange.begin.toNat ∧
    r.off.toNat + r.size.toNat ≤ as.asRange.size.toNat

/-- An access that succeeds uses a part of one address space. -/
def Contained (h : Host) (bus : MemBus) (gpa sz : UInt64) (a : MemAccess) : Prop :=
  ∀ r, used h bus gpa sz a = some r → Within bus gpa sz r

/-- The lowest range that the addresses overlap does not enclose them, and is that of an address
space that can be mapped so. -/
def MapsBeyond (h : Host) (bus : MemBus) (gpa sz : UInt64) (write : Bool) : Prop :=
  gpa.toNat + sz.toNat < 2 ^ 64 ∧ ∃ as, Has bus as ∧
    bus.registered.Lowest gpa sz (.memory as, as.asRange) ∧
    ¬as.asRange.Encloses gpa.toNat sz.toNat ∧ ¬(write && as.isReadOnly) = true ∧
    h.mapMem as.msel (gpa - as.asRange.begin) sz write ≠ none

/-- What an access must be for it to be contained. -/
def Suits (h : Host) (bus : MemBus) (gpa sz : UInt64) : MemAccess → Prop
  | .mapGuestMem write => ¬MapsBeyond h bus gpa sz write
  | _ => True

/-- A call that plugs memory in plugs it in at its range. -/
def AtItsRange : Vbus.Call MemDevice → Prop
  | .registerDevice (.memory as) addr bytes _ => as.asRange = ⟨addr, bytes⟩
  | _ => True

/-- The calls with which a bus is set up. -/
abbrev SetUp := List {c : Vbus.Call MemDevice // AtItsRange c}

/-- The bus that is set up by these calls. -/
def setUp (space : Space) (trace : Bool) (calls : SetUp) : MemBus :=
  (calls.map Subtype.val).foldl Bus.next { space := space, trace := trace }

/-! ## Memory that is plugged in -/

/-- The ranges of the bus are in order, and its memory is at the ranges it says. -/
structure InPlace (bus : MemBus) : Prop extends Bus.InPlace bus where
  atItsRange : ∀ e ∈ bus.devices.set, ∀ as, e.device = .memory as → e.range = as.asRange

variable {h : Host} {bus : MemBus} {gpa sz : UInt64} {as : SimpleAS} {r : HostRegion}

theorem InPlace.next (hbus : InPlace bus) {c : Vbus.Call MemDevice} (hc : AtItsRange c) :
    InPlace (bus.next c) := by
  refine ⟨hbus.toInPlace.next c, fun e he as has => ?_⟩
  rcases hbus.toInPlace.mem_next he with he | ⟨d, addr, bytes, allocated, rfl, rfl, hrange⟩
  · exact hbus.atItsRange e he as has
  · rw [has] at hc
    exact hrange.trans hc.symm

/-- **A bus that is set up** has its memory at the ranges it says. -/
theorem inPlace_setUp (space : Space) (trace : Bool) (calls : SetUp) :
    InPlace (setUp space trace calls) := by
  rw [setUp, List.foldl_map]
  exact List.foldlRecOn calls _ ⟨(Bus.sound_init space trace).toInPlace, nofun⟩
    fun _ hbus c _ => hbus.next c.2

theorem InPlace.has (hbus : InPlace bus) {e : DeviceEntry MemDevice} (he : e ∈ bus.devices.set)
    (hdevice : e.device = .memory as) : Has bus as :=
  ⟨e, he, Prod.ext hdevice (hbus.atItsRange e he as hdevice)⟩

/-- An address space that is found is plugged in, and the addresses do not wrap. -/
theorem InPlace.lookup_of_getAsDeviceAt (hbus : InPlace bus)
    (hfound : getAsDeviceAt bus gpa sz = some as) :
    (gpa.toNat + sz.toNat < 2 ^ 64 ∧ 0 < sz.toNat) ∧ ∃ e ∈ bus.devices.set,
      bus.devices.lookup ⟨gpa, sz⟩ = some e ∧ e.device = .memory as ∧ e.range = as.asRange := by
  rw [getAsDeviceAt, Bus.getDeviceAt] at hfound
  have hdevice : (bus.lookup gpa sz).map DeviceEntry.device = some (.memory as) := by
    generalize (bus.lookup gpa sz).map DeviceEntry.device = found at hfound
    cases found with
    | none => cases hfound
    | some d =>
        cases d with
        | memory as' => rw [Option.some.inj hfound]
        | _ => cases hfound
  obtain ⟨e, hlookup, hdevice⟩ := Option.map_eq_some_iff.1 hdevice
  by_cases hwraps : gpa + sz ≤ gpa
  · rw [Bus.lookup, if_pos hwraps] at hlookup
    cases hlookup
  · rw [Bus.lookup, if_neg hwraps] at hlookup
    obtain ⟨he, -, -⟩ := hbus.inOrder.first_of_lookup hlookup
    exact ⟨Bus.not_wraps_iff.1 hwraps, e, he, hlookup, hdevice, hbus.atItsRange e he as hdevice⟩

theorem InPlace.has_of_getAsDeviceAt (hbus : InPlace bus)
    (hfound : getAsDeviceAt bus gpa sz = some as) : Has bus as := by
  obtain ⟨-, e, he, -, hdevice, -⟩ := hbus.lookup_of_getAsDeviceAt hfound
  exact hbus.has he hdevice

theorem within_of_encloses (has : Has bus as)
    (henc : as.asRange.Encloses gpa.toNat sz.toNat) {va : ℕ} :
    Within bus gpa sz ⟨as.msel, gpa - as.asRange.begin, sz, va⟩ := by
  have hoff : (gpa - as.asRange.begin).toNat = gpa.toNat - as.asRange.begin.toNat :=
    UInt64.toNat_sub_of_le _ _ (UInt64.le_iff_toNat_le.2 henc.1)
  refine ⟨as, has, henc, rfl, rfl, hoff, ?_⟩
  dsimp only
  rw [hoff]
  obtain ⟨hle, hend⟩ := henc
  omega

/-! ## Accesses that ask whether the addresses are valid -/

theorem InPlace.bounded (hbus : InPlace bus) (has : Has bus as) : as.asRange.Bounded := by
  obtain ⟨e, he, heq⟩ := has
  rw [← (Prod.mk.inj heq).2]
  exact hbus.inOrder.bounded e he

/-- **The addresses of a valid request** that does not wrap lie in the address space. -/
theorem InPlace.encloses_of_isGpaValid (hbus : InPlace bus)
    (hfound : getAsDeviceAt bus gpa sz = some as) (hvalid : as.isGpaValid gpa sz = true) :
    as.asRange.Encloses gpa.toNat sz.toNat := by
  obtain ⟨⟨hlt, hpos⟩, -⟩ := hbus.lookup_of_getAsDeviceAt hfound
  have hbounded : (⟨gpa, sz⟩ : Range).Bounded := hlt
  exact (Range.contains_iff (hbus.bounded (hbus.has_of_getAsDeviceAt hfound)) hbounded hpos).1
    hvalid

end MemBus

namespace SimpleAS

variable {h : Host} {as : SimpleAS} {off size gpa : UInt64} {write : Bool} {r : HostRegion}

theorem regionAt_eq_some (hregion : as.regionAt h off size write = some r) :
    ∃ va, r = ⟨as.msel, off, size, va⟩ := by
  rw [regionAt] at hregion
  cases hview : as.vmmView with
  | some view =>
      rw [hview] at hregion
      exact ⟨_, (Option.some.inj hregion).symm⟩
  | none =>
      rw [hview] at hregion
      obtain ⟨va, -, heq⟩ := Option.map_eq_some_iff.1 hregion
      exact ⟨va, heq.symm⟩

theorem demandUnmap_eq_ret {e : Except Errno HostRegion} (heq : as.demandUnmap h r = .ret e) :
    e = .ok r := by
  rw [demandUnmap] at heq
  split_ifs at heq
  exact (Outcome.ret.inj heq).symm

theorem read_eq_ok (heq : as.read h size gpa = .ret (.ok r)) :
    as.isGpaValid gpa size = true ∧ ∃ va, r = ⟨as.msel, gpa - as.asRange.begin, size, va⟩ := by
  rw [read] at heq
  split_ifs at heq with hvalid
  · cases heq
  · refine ⟨by simpa using hvalid, ?_⟩
    dsimp only at heq
    cases hregion : as.regionAt h (gpa - as.asRange.begin) size false with
    | none =>
        rw [hregion] at heq
        cases heq
    | some r' =>
        rw [hregion] at heq
        rw [Except.ok.inj (demandUnmap_eq_ret heq)]
        exact regionAt_eq_some hregion

theorem demandMap_eq_ok (heq : as.demandMap h gpa size write = .ok r) :
    as.isGpaValid gpa size = true ∧ ∃ va, r = ⟨as.msel, gpa - as.asRange.begin, size, va⟩ := by
  rw [demandMap] at heq
  split_ifs at heq with hvalid hperm
  refine ⟨by simpa using hvalid, ?_⟩
  dsimp only at heq
  cases hregion : as.regionAt h (gpa - as.asRange.begin) size write with
  | none =>
      rw [hregion] at heq
      cases heq
  | some r' =>
      rw [hregion] at heq
      rw [← Except.ok.inj heq]
      exact regionAt_eq_some hregion

theorem write_eq_ok (heq : as.write h gpa size = .ret (.ok r)) :
    as.demandMap h gpa size true = .ok r := by
  rw [write] at heq
  cases hmap : as.demandMap h gpa size true with
  | error err =>
      rw [hmap] at heq
      cases heq
  | ok r' =>
      rw [hmap] at heq
      rw [Except.ok.inj (demandUnmap_eq_ret heq)]

/-- `map_view` fails on memory that may not be written, unless only the guest may not. -/
theorem mapView_of_not_readOnly (hperm : ¬(write && as.isReadOnly) = true) :
    as.mapView h off size write = match h.mapMem as.msel off size write with
      | none => .abort
      | some va => .ret (some ⟨as.msel, off, size, va⟩) := by
  rw [mapView, if_neg]
  intro hfail
  simp only [Bool.and_eq_true] at hfail hperm
  exact hperm ⟨hfail.1.2, hfail.1.1⟩

end SimpleAS

namespace MemBus

variable {h : Host} {bus : MemBus} {gpa sz : UInt64} {as : SimpleAS} {r : HostRegion}
  {write : Bool}

/-- An access that asks whether the addresses are valid stays within one address space. -/
theorem InPlace.within_of_valid (hbus : InPlace bus)
    (hfound : getAsDeviceAt bus gpa sz = some as)
    (hused : as.isGpaValid gpa sz = true ∧
      ∃ va, r = ⟨as.msel, gpa - as.asRange.begin, sz, va⟩) :
    Within bus gpa sz r := by
  obtain ⟨hvalid, va, rfl⟩ := hused
  exact within_of_encloses (hbus.has_of_getAsDeviceAt hfound)
    (hbus.encloses_of_isGpaValid hfound hvalid)

theorem InPlace.contained_readBus (hbus : InPlace bus) : Contained h bus gpa sz .readBus := by
  intro r hused
  rw [used, readBus] at hused
  cases hfound : getAsDeviceAt bus gpa sz with
  | none =>
      rw [hfound] at hused
      cases hused
  | some as =>
      rw [hfound] at hused
      dsimp only at hused
      split at hused
      · next r' hread =>
          obtain rfl := Option.some.inj hused
          exact hbus.within_of_valid hfound (SimpleAS.read_eq_ok hread)
      · cases hused

theorem InPlace.contained_demandMapBus (hbus : InPlace bus) :
    Contained h bus gpa sz (.demandMapBus write) := by
  intro r hused
  rw [used, demandMapBus] at hused
  cases hfound : getAsDeviceAt bus gpa sz with
  | none =>
      rw [hfound] at hused
      cases hused
  | some as =>
      rw [hfound] at hused
      dsimp only at hused
      split at hused
      · next r' hmap =>
          obtain rfl := Option.some.inj hused
          exact hbus.within_of_valid hfound (SimpleAS.demandMap_eq_ok hmap)
      · cases hused

theorem InPlace.contained_writeBus (hbus : InPlace bus) : Contained h bus gpa sz .writeBus := by
  intro r hused
  rw [used, writeBus] at hused
  cases hfound : getAsDeviceAt bus gpa sz with
  | none =>
      rw [hfound] at hused
      cases hused
  | some as =>
      rw [hfound] at hused
      dsimp only at hused
      split at hused
      · next r' hwrite =>
          obtain rfl := Option.some.inj hused
          exact hbus.within_of_valid hfound
            (SimpleAS.demandMap_eq_ok (SimpleAS.write_eq_ok hwrite))
      · cases hused

/-! ## `map_guest_mem` -/

theorem mapGuestMem_eq_some_iff : mapGuestMem h bus gpa sz write = .ret (some r) ↔
    ∃ as, getAsDeviceAt bus gpa sz = some as ∧ ¬(write && as.isReadOnly) = true ∧
      ∃ va, h.mapMem as.msel (gpa - as.asRange.begin) sz write = some va ∧
        r = ⟨as.msel, gpa - as.asRange.begin, sz, va⟩ := by
  rw [mapGuestMem]
  cases hfound : getAsDeviceAt bus gpa sz with
  | none => simp
  | some as =>
      dsimp only
      by_cases hperm : (write && as.isReadOnly) = true
      · rw [if_pos hperm]
        refine iff_of_false nofun ?_
        rintro ⟨as', heq, hnot, -⟩
        exact hnot (Option.some.inj heq ▸ hperm)
      · rw [if_neg hperm, SimpleAS.mapView_of_not_readOnly hperm]
        constructor
        · intro heq
          cases hmap : h.mapMem as.msel (gpa - as.asRange.begin) sz write with
          | none =>
              rw [hmap] at heq
              cases heq
          | some va =>
              rw [hmap] at heq
              exact ⟨as, rfl, hperm, va, hmap, (Option.some.inj (Outcome.ret.inj heq)).symm⟩
        · rintro ⟨as', heq, -, va, hmap, rfl⟩
          obtain rfl := Option.some.inj heq
          rw [hmap]

/-- The lowest range that the addresses overlap is that of the address space that is found. -/
theorem InPlace.lowest_iff_getAsDeviceAt (hbus : InPlace bus) (hsz : 0 < sz.toNat) :
    (gpa.toNat + sz.toNat < 2 ^ 64 ∧ Has bus as ∧
      bus.registered.Lowest gpa sz (.memory as, as.asRange)) ↔
      getAsDeviceAt bus gpa sz = some as := by
  constructor
  · rintro ⟨hlt, ⟨e, he, heq⟩, hlowest⟩
    have hwraps : ¬gpa + sz ≤ gpa := Bus.not_wraps_iff.2 ⟨hlt, hsz⟩
    rw [← heq] at hlowest
    cases hlookup : bus.devices.lookup ⟨gpa, sz⟩ with
    | none =>
        rw [hbus.inOrder.lookup_eq, List.find?_eq_none] at hlookup
        exact absurd ((hbus.meets_iff he).2 hlowest.1) (hlookup e he)
    | some f =>
        obtain rfl := (hbus.lowest_iff he hlookup).1 hlowest
        rw [getAsDeviceAt, Bus.getDeviceAt, Bus.lookup, if_neg hwraps, hlookup, Option.map_some,
          (Prod.mk.inj heq).1]
  · intro hfound
    obtain ⟨⟨hlt, -⟩, e, he, hlookup, hdevice, hrange⟩ := hbus.lookup_of_getAsDeviceAt hfound
    refine ⟨hlt, hbus.has he hdevice, ?_⟩
    rw [← hdevice, ← hrange]
    exact (hbus.lowest_iff he hlookup).2 rfl

theorem overlaps_of_lowest (hlt : gpa.toNat + sz.toNat < 2 ^ 64) {d : MemDevice} {range : Range}
    (hlowest : bus.registered.Lowest gpa sz (d, range)) :
    range.Overlaps gpa.toNat sz.toNat := by
  obtain ⟨⟨hbegin, hend⟩, -⟩ := hlowest
  rw [UInt64.toNat_add, Nat.mod_eq_of_lt hlt] at hbegin
  exact ⟨hend, hbegin⟩

theorem InPlace.encloses_of_lowest (hbus : InPlace bus) (hlt : gpa.toNat + sz.toNat < 2 ^ 64)
    (has : Has bus as) (hlowest : bus.registered.Lowest gpa sz (.memory as, as.asRange))
    {as' : SimpleAS} (has' : Has bus as') (henc : as'.asRange.Encloses gpa.toNat sz.toNat) :
    as.asRange.Encloses gpa.toNat sz.toNat := by
  obtain ⟨e, he, heq⟩ := has
  obtain ⟨e', he', heq'⟩ := has'
  have hrange : e.range = as.asRange := (Prod.mk.inj heq).2
  have hrange' : e'.range = as'.asRange := (Prod.mk.inj heq').2
  have hsame : e' = e := hbus.inOrder.eq_of_encloses he' he
    (show e'.range.Encloses _ _ from hrange' ▸ henc)
    (show e.range.Overlaps _ _ from hrange ▸ overlaps_of_lowest hlt hlowest)
  rwa [← hrange, ← hsame, hrange']

theorem used_mapGuestMem_iff : used h bus gpa sz (.mapGuestMem write) = some r ↔
    mapGuestMem h bus gpa sz write = .ret (some r) := by
  rw [used]
  cases mapGuestMem h bus gpa sz write with
  | abort => exact iff_of_false nofun nofun
  | ret r' => exact ⟨congrArg Outcome.ret, Outcome.ret.inj⟩

/-- **`map_guest_mem` stays within one address space** exactly if what is found encloses the
addresses, or cannot be mapped. -/
theorem InPlace.contained_mapGuestMem_iff (hbus : InPlace bus) (hsz : 0 < sz.toNat) :
    Contained h bus gpa sz (.mapGuestMem write) ↔ ¬MapsBeyond h bus gpa sz write := by
  constructor
  · rintro hcontained ⟨hlt, as, has, hlowest, hnot, hperm, hmap⟩
    have hfound := (hbus.lowest_iff_getAsDeviceAt hsz).1 ⟨hlt, has, hlowest⟩
    obtain ⟨va, hva⟩ := Option.ne_none_iff_exists'.1 hmap
    obtain ⟨as', has', henc, -⟩ := hcontained _
      (used_mapGuestMem_iff.2 (mapGuestMem_eq_some_iff.2 ⟨as, hfound, hperm, va, hva, rfl⟩))
    exact hnot (hbus.encloses_of_lowest hlt has hlowest has' henc)
  · intro hmaps r hused
    obtain ⟨as, hfound, hperm, va, hva, rfl⟩ :=
      mapGuestMem_eq_some_iff.1 (used_mapGuestMem_iff.1 hused)
    obtain ⟨hlt, has, hlowest⟩ := (hbus.lowest_iff_getAsDeviceAt hsz).2 hfound
    refine within_of_encloses has (of_not_not fun hnot => hmaps ?_)
    exact ⟨hlt, as, has, hlowest, hnot, hperm, by rw [hva]; nofun⟩

/-! ## All accesses -/

/-- **An access stays within one address space** exactly if it suits. -/
theorem InPlace.contained_iff (hbus : InPlace bus) (hsz : 0 < sz.toNat) (a : MemAccess) :
    Contained h bus gpa sz a ↔ Suits h bus gpa sz a := by
  cases a with
  | readBus => exact iff_of_true hbus.contained_readBus trivial
  | writeBus => exact iff_of_true hbus.contained_writeBus trivial
  | demandMapBus write => exact iff_of_true hbus.contained_demandMapBus trivial
  | mapGuestMem write => exact hbus.contained_mapGuestMem_iff hsz

/-! ## Queues -/

/-- The platform of a device whose guest memory is on the bus. An abort maps nothing. -/
def platform (h : Host) (bus : MemBus) (p : Platform) : Platform :=
  { p with mapGuestMem := fun gpa sizeBytes =>
      (used h bus gpa (.ofNat sizeBytes) (.mapGuestMem true)).map HostRegion.va }

/-- The ring is in one address space. -/
def RingWithin (bus : MemBus) (p : Platform) (useIoTranslation : Bool) (addr : UInt64)
    (sizeBytes : ℕ) : Prop :=
  ∃ as, Has bus as ∧
    as.asRange.Encloses (QueueState.convert p useIoTranslation addr sizeBytes).toNat sizeBytes

/-- The ring suits `map_guest_mem`. -/
def RingSuits (h : Host) (bus : MemBus) (p : Platform) (useIoTranslation : Bool) (addr : UInt64)
    (sizeBytes : ℕ) : Prop :=
  Suits h bus (QueueState.convert p useIoTranslation addr sizeBytes) (.ofNat sizeBytes)
    (.mapGuestMem true)

variable {p : Platform} {use : Bool} {addr : UInt64} {sizeBytes : ℕ}

/-- **A ring that is mapped** is in one address space exactly if it suits. -/
theorem InPlace.ringWithin_iff (hbus : InPlace bus) (hpos : 0 < sizeBytes)
    (hlt : sizeBytes < 2 ^ 64)
    (hmapped : QueueState.ringAddr (platform h bus p) use addr sizeBytes ≠ none) :
    RingWithin bus p use addr sizeBytes ↔ RingSuits h bus p use addr sizeBytes := by
  have hsize : (UInt64.ofNat sizeBytes).toNat = sizeBytes := by
    rw [UInt64.toNat_ofNat', Nat.mod_eq_of_lt hlt]
  rw [QueueState.ringAddr] at hmapped
  split_ifs at hmapped with hinvalid
  · exact absurd rfl hmapped
  · obtain ⟨va, hva⟩ := Option.ne_none_iff_exists'.1 hmapped
    obtain ⟨r, hused, -⟩ := Option.map_eq_some_iff.1 hva
    have hiff : Contained h bus (QueueState.convert p use addr sizeBytes) (.ofNat sizeBytes)
        (.mapGuestMem true) ↔ RingSuits h bus p use addr sizeBytes :=
      hbus.contained_iff (hsize.symm ▸ hpos) (.mapGuestMem true)
    constructor
    · rintro ⟨as', has', henc⟩ ⟨hsum, as, has, hlowest, hnot, -⟩
      exact hnot (hbus.encloses_of_lowest hsum has hlowest has' (hsize.symm ▸ henc))
    · intro hsuits
      obtain ⟨as, has, henc, -⟩ := hiff.2 hsuits r hused
      rw [hsize] at henc
      exact ⟨as, has, henc⟩

/-- What holds of the three rings of a queue. -/
def OfRings (holds : UInt64 → ℕ → Prop) (d : QueueData) : Prop :=
  holds d.descr (descriptorRegionSizeBytes d.num.toUInt16) ∧
    holds d.driver (availableRegionSizeBytes d.num.toUInt16) ∧
    holds d.device (usedRegionSizeBytes d.num.toUInt16)

/-- **The rings of a queue that is constructed** are in address spaces exactly if they suit. -/
theorem InPlace.ofRings_within_iff (hbus : InPlace bus) {q : QueueState} (hq : q.Unmapped)
    {d : QueueData} (hconstructed : (q.construct d (platform h bus p) use).constructed = true) :
    OfRings (RingWithin bus p use) d ↔ OfRings (RingSuits h bus p use) d := by
  have hn := d.num.toUInt16.toNat_lt
  rcases QueueState.construct_cases hq d (platform h bus p) use with ⟨hcan, -⟩ | ⟨-, hunmapped⟩
  · have hnum : 0 < d.num.toUInt16.toNat := by
      refine Nat.pos_of_ne_zero fun hzero => ?_
      have hvalid := hcan.isSizeValid
      rw [isSizeValid, UInt16.toNat_inj.1 (hzero.trans UInt16.toNat_zero.symm)] at hvalid
      exact absurd hvalid (by decide)
    refine and_congr (hbus.ringWithin_iff ?_ ?_ hcan.desc)
      (and_congr (hbus.ringWithin_iff ?_ ?_ hcan.avail) (hbus.ringWithin_iff ?_ ?_ hcan.used))
    all_goals
      simp only [descriptorRegionSizeBytes, availableRegionSizeBytes, usedRegionSizeBytes]
      omega
  · rw [hunmapped.constructed] at hconstructed
    cases hconstructed

/-- **On a bus that is set up**, an access stays within one address space exactly if it suits, and
the rings of a queue that is constructed are in address spaces exactly if they suit. -/
theorem setUp_contained_iff (space : Space) (trace : Bool) (calls : SetUp) (h : Host) :
    (∀ gpa sz a, 0 < sz → (Contained h (setUp space trace calls) gpa sz a ↔
      Suits h (setUp space trace calls) gpa sz a)) ∧
    ∀ (q : QueueState) d p use, q.Unmapped →
      (q.construct d (platform h (setUp space trace calls) p) use).constructed = true →
        (OfRings (RingWithin (setUp space trace calls) p use) d ↔
          OfRings (RingSuits h (setUp space trace calls) p use) d) := by
  have hbus := inPlace_setUp space trace calls
  exact ⟨fun gpa sz a hsz => hbus.contained_iff (UInt64.lt_iff_toNat_lt.1 hsz) a,
    fun q d p use hq hconstructed => hbus.ofRings_within_iff hq hconstructed⟩

/-- A page of memory. -/
def page : SimpleAS := { asRange := ⟨0x10000000, 0x1000⟩, msel := 3 }

/-- It is plugged in. -/
def pageCalls : SetUp := [⟨.registerDevice (.memory page) 0x10000000 0x1000 true, rfl⟩]

/-- A host that maps what it is asked to. -/
def anyHost : Host := ⟨fun _ offset _ _ => some offset.toNat, fun _ _ => true⟩

/-- A device that addresses guest memory directly. -/
def direct : Platform := ⟨false, fun addr _ => addr, fun _ _ => none⟩

/-- A queue of four descriptors whose rings are in the page, but for the first, which is where it is
said to be. -/
def ringsAt (descr : UInt32) : QueueData :=
  { descrLow := descr, driverLow := 0x10000100, deviceLow := 0x10000200, num := 4 }

theorem setUp_contained_page :
    (Contained anyHost (setUp .allMem false pageCalls) 0x10000000 8 (.mapGuestMem true) ↔
      Suits anyHost (setUp .allMem false pageCalls) 0x10000000 8 (.mapGuestMem true)) ∧
    (OfRings (RingWithin (setUp .allMem false pageCalls) direct false) (ringsAt 0x10000000) ↔
      OfRings (RingSuits anyHost (setUp .allMem false pageCalls) direct false)
        (ringsAt 0x10000000)) :=
  ⟨(setUp_contained_iff .allMem false pageCalls anyHost).1 _ _ _ (by decide),
    (setUp_contained_iff .allMem false pageCalls anyHost).2 {} _ _ _
      ⟨rfl, rfl, rfl, rfl, rfl⟩ (by decide)⟩

theorem has_page {as : SimpleAS} (has : Has (setUp .allMem false pageCalls) as) : as = page := by
  obtain ⟨e, he, heq⟩ := has
  have hset : (setUp .allMem false pageCalls).devices.set =
    [⟨.memory page, ⟨0x10000000, 0x1000⟩, 0⟩] := by decide
  rw [hset, List.mem_singleton] at he
  rw [he] at heq
  exact (MemDevice.memory.inj (Prod.mk.inj heq).1).symm

/-- Sixteen bytes are mapped of which the last eight are behind the page. And a queue is constructed
whose first ring ends there. -/
theorem mapped_beyond_page :
    mapGuestMem anyHost (setUp .allMem false pageCalls) 0x10000ff8 16 true =
        .ret (some ⟨3, 0xff8, 16, 0xff8⟩) ∧
      ¬Contained anyHost (setUp .allMem false pageCalls) 0x10000ff8 16 (.mapGuestMem true) ∧
      (({} : QueueState).construct (ringsAt 0x10000ff0)
        (platform anyHost (setUp .allMem false pageCalls) direct) false).constructed = true ∧
      ¬OfRings (RingWithin (setUp .allMem false pageCalls) direct false) (ringsAt 0x10000ff0) := by
  refine ⟨by decide, fun hcontained => ?_, by decide, ?_⟩
  · obtain ⟨as, has, henc, -⟩ := hcontained ⟨3, 0xff8, 16, 0xff8⟩ (by decide)
    rw [has_page has] at henc
    exact absurd henc (by decide)
  · rintro ⟨⟨as, has, henc⟩, -⟩
    rw [has_page has] at henc
    exact absurd henc (by decide)

end MemBus

end Vml
