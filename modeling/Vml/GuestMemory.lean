import Vml.HostMaps
import Vml.Lib.ByteCopy
import Vml.SimpleAS

/-!
# Guest memory as a flat memory

The VMM reads and writes guest memory in several ways: `read_bus` and `write_bus` copy bytes, and
`demand_map_bus` returns a pointer to load from and to store to, until `demand_unmap_bus`. Each
finds the address space on the bus, and reaches its object in the view that `map_host` has left, or
through a mapping of its own.

**Flat memory** (`Represents`). A byte for each guest address, which is the byte of the object
behind the address space that has the address. The objects of two address spaces are two objects.

**Mappings** (`Inv`). What the host has mapped is what it has had at first, the views among it, and
what is held, so that each access leaves the host as it was.

Main results: `GuestSys.flat_run` and `GuestSys.never_aborts`: a run of accesses of all kinds reads
and writes one flat memory, and none of them is aborted.
-/

namespace Vml

/-! ## Copies -/

namespace HostMem

/-- `memcpy` from the address. There is no result if something is not mapped. -/
def copyOut (p : PageSize) (s : HostMem) : (a n : ℕ) → Option (List UInt8)
  | _, 0 => some []
  | a, n + 1 => do
      let byte ← s.load p a
      let bytes ← s.copyOut p (a + 1) n
      return byte :: bytes

/-- The host with other bytes in one object. -/
def withObject (s : HostMem) (fd : UInt32) (bytes : Mem) : HostMem :=
  { s with objects := Function.update s.objects fd bytes }

/-- A store. There is no result if nothing is mapped that may be written. -/
def store (p : PageSize) (s : HostMem) (a : ℕ) (byte : UInt8) : Option HostMem :=
  match s.pages (a / p.bytes) with
  | none => none
  | some page =>
      if page.write then
        some (s.withObject page.fd
          (Function.update (s.objects page.fd) (page.page * p.bytes + a % p.bytes) byte))
      else none

/-- `memcpy` to the address. -/
def copyIn (p : PageSize) (s : HostMem) : (a : ℕ) → List UInt8 → Option HostMem
  | _, [] => some s
  | a, byte :: bytes => (s.store p a byte).bind fun s => s.copyIn p (a + 1) bytes

end HostMem

/-!
## The accesses

The functions of `SimpleAS`, with the bytes that they copy and the state that they leave the host
in.
-/

namespace GuestMem

variable {p : PageSize}

/-- Where the part of the object is: in the view, or mapped for this. -/
def regionAt (k : Kernel p) (s : HostMem) (as : SimpleAS) (offset size : UInt64) (write : Bool) :
    Option (UInt64 × HostMem) :=
  match as.vmmView with
  | some view => some (UInt64.ofNat view + offset, s)
  | none => s.mapMem k as.msel offset size write

/-- `demand_unmap`. -/
def demandUnmap (p : PageSize) (s : HostMem) (as : SimpleAS) (sizeBytes va : UInt64) :
    Outcome HostMem :=
  match as.vmmView with
  | some _ => .ret s
  | none =>
      match s.unmapMem p va sizeBytes with
      | none => .abort
      | some s => .ret s

/-- `read`. -/
def read (k : Kernel p) (s : HostMem) (as : SimpleAS) (size addr : UInt64) :
    Outcome (Except Errno (List UInt8) × HostMem) :=
  if !as.isGpaValid addr size then .ret (.error .inval, s)
  else
    match regionAt k s as (addr - as.asRange.begin) size false with
    | none => .ret (.error .nomem, s)
    | some (src, s) =>
        match s.copyOut p src.toNat size.toNat with
        | none => .abort
        | some bytes =>
            match demandUnmap p s as size src with
            | .abort => .abort
            | .ret s => .ret (.ok bytes, s)

/-- `demand_map`. -/
def demandMap (k : Kernel p) (s : HostMem) (as : SimpleAS) (gpa sizeBytes : UInt64) (write : Bool) :
    Except Errno UInt64 × HostMem :=
  if !as.isGpaValid gpa sizeBytes then (.error .inval, s)
  else if write && as.isReadOnly && !as.mobjectCredWrite then (.error .perm, s)
  else
    match regionAt k s as (gpa - as.asRange.begin) sizeBytes write with
    | none => (.error .nomem, s)
    | some (va, s) => (.ok va, s)

/-- `write`. -/
def write (k : Kernel p) (s : HostMem) (as : SimpleAS) (gpa size : UInt64) (src : List UInt8) :
    Outcome (Except Errno Unit × HostMem) :=
  match demandMap k s as gpa size true with
  | (.error err, s) => .ret (.error err, s)
  | (.ok dst, s) =>
      match s.copyIn p dst.toNat src with
      | none => .abort
      | some s =>
          match demandUnmap p s as size dst with
          | .abort => .abort
          | .ret s => .ret (.ok (), s)

variable (bus : MemBus)

/-- `read_bus`. -/
def readBus (k : Kernel p) (s : HostMem) (addr sz : UInt64) :
    Outcome (Except Errno (List UInt8) × HostMem) :=
  match MemBus.getAsDeviceAt bus addr sz with
  | none => .ret (.error .inval, s)
  | some tgt => read k s tgt sz addr

/-- `write_bus`. -/
def writeBus (k : Kernel p) (s : HostMem) (addr sz : UInt64) (src : List UInt8) :
    Outcome (Except Errno Unit × HostMem) :=
  match MemBus.getAsDeviceAt bus addr sz with
  | none => .ret (.error .inval, s)
  | some tgt => write k s tgt addr sz src

/-- `demand_map_bus`. -/
def demandMapBus (k : Kernel p) (s : HostMem) (gpa sizeBytes : UInt64) (write : Bool) :
    Except Errno UInt64 × HostMem :=
  match MemBus.getAsDeviceAt bus gpa sizeBytes with
  | none => (.error .inval, s)
  | some tgt => demandMap k s tgt gpa sizeBytes write

/-- `demand_unmap_bus`, and `demand_unmap_bus_clean`, which also cleans the caches. -/
def demandUnmapBus (p : PageSize) (s : HostMem) (gpa sizeBytes va : UInt64) :
    Outcome (Errno × HostMem) :=
  match MemBus.getAsDeviceAt bus gpa sizeBytes with
  | none => .ret (.inval, s)
  | some tgt =>
      match demandUnmap p s tgt sizeBytes va with
      | .abort => .abort
      | .ret s => .ret (.none, s)

end GuestMem

/-! ## Where a pointer leads -/

/-- The pointer leads to the part of the object, and may be stored to if it says so. -/
def Leads (p : PageSize) (pages : ℕ → Option HostPage) (va : ℕ) (fd : UInt32) (off n : ℕ)
    (write : Bool) : Prop :=
  ∀ i, i < n → ∃ page, pages ((va + i) / p.bytes) = some page ∧ page.fd = fd ∧
    page.page * p.bytes + (va + i) % p.bytes = off + i ∧ (write = true → page.write = true)

section Leads

variable {p : PageSize} {s : HostMem} {va off n : ℕ} {fd : UInt32} {write : Bool}
  {pages : ℕ → Option HostPage}

theorem Leads.tail (h : Leads p pages va fd off (n + 1) write) :
    Leads p pages (va + 1) fd (off + 1) n write := by
  intro i hi
  have hnext := h (i + 1) (Nat.succ_lt_succ hi)
  rwa [← Nat.add_assoc, ← Nat.add_assoc, Nat.add_right_comm va, Nat.add_right_comm off] at hnext

theorem Leads.copyOut (h : Leads p s.pages va fd off n write) :
    s.copyOut p va n = some (bytesAt (s.objects fd) (off + ·) n) := by
  induction n generalizing va off with
  | zero => rfl
  | succ n ih =>
    obtain ⟨page, hpage, rfl, hbyte, -⟩ := h 0 n.succ_pos
    rw [Nat.add_zero, Nat.add_zero] at hbyte
    have hload : s.load p va = some (s.objects page.fd off) := by
      rw [HostMem.load, ← Nat.add_zero (va / p.bytes), ← hbyte]
      rw [Nat.add_zero] at hpage ⊢
      rw [hpage]
      rfl
    have hbytes : bytesAt (s.objects page.fd) (off + ·) (n + 1) =
        s.objects page.fd off :: bytesAt (s.objects page.fd) (off + 1 + ·) n := by
      rw [Nat.add_comm n, bytesAt_add]
      simp [bytesAt, Nat.add_assoc]
    rw [HostMem.copyOut, hload, ih h.tail, hbytes]
    rfl

theorem Leads.copyIn {bytes : List UInt8} (h : Leads p s.pages va fd off bytes.length true) :
    s.copyIn p va bytes =
      some (s.withObject fd (stored (s.objects fd) (List.range' off bytes.length) bytes)) := by
  induction bytes generalizing va off s with
  | nil =>
    rw [List.length_nil, List.range'_zero, stored_nil, HostMem.withObject,
      Function.update_eq_self]
    rfl
  | cons byte bytes ih =>
    obtain ⟨page, hpage, rfl, hbyte, hwrite⟩ := h 0 bytes.length.succ_pos
    rw [Nat.add_zero, Nat.add_zero] at hbyte
    rw [Nat.add_zero] at hpage
    have hstore : s.store p va byte =
        some (s.withObject page.fd (Function.update (s.objects page.fd) off byte)) := by
      rw [HostMem.store, hpage]
      dsimp only
      rw [if_pos (hwrite rfl), hbyte]
    have htail : Leads p (s.withObject page.fd
        (Function.update (s.objects page.fd) off byte)).pages (va + 1) page.fd (off + 1)
        bytes.length true := h.tail
    rw [HostMem.copyIn, hstore, Option.bind_some, ih htail, List.length_cons, List.range'_succ,
      stored_cons]
    simp [HostMem.withObject]

theorem Mapping.Ok.leads {m : Mapping} (hm : m.Ok p) (hfits : m.Fits p)
    (hheld : ∀ q, (m.block p).Covers q →
      pages q = some ((m.block p).entry (q - (m.block p).start))) :
    Leads p pages m.va.toNat m.msel.toUInt32 m.offset.toNat m.size.toNat m.write := by
  intro i hi
  obtain ⟨hcovers, hbyte⟩ := hm.page hfits hi
  exact ⟨_, hheld _ hcovers, rfl, hbyte, id⟩

theorem Mapping.Ok.leads_put {m : Mapping} (hm : m.Ok p) (hfits : m.Fits p) :
    Leads p ((m.block p).put pages) m.va.toNat m.msel.toUInt32 m.offset.toNat m.size.toNat
      m.write :=
  hm.leads hfits fun _ hq => if_pos hq

end Leads

/-! ## An access to an address space -/

namespace GuestMem

variable {p : PageSize} {k : Kernel p} {s s₁ : HostMem} {as : SimpleAS} {off size va gpa : UInt64}
  {write : Bool}

/-- The view, if there is one, leads to the whole object. -/
def Viewed (p : PageSize) (pages : ℕ → Option HostPage) (as : SimpleAS) : Prop :=
  ∀ view, as.vmmView = some view → view + as.asRange.size.toNat ≤ 2 ^ 64 ∧
    Leads p pages view as.msel.toUInt32 0 as.asRange.size.toNat as.mobjectCredWrite

/-- The part is in the address space. -/
def Inside (as : SimpleAS) (off size : UInt64) : Prop :=
  0 < size.toNat ∧ off.toNat + size.toNat ≤ as.asRange.size.toNat

/-- What may be stored to: what has been mapped for this, and a view of what may be written. -/
def storable (as : SimpleAS) (write : Bool) : Bool :=
  match as.vmmView with
  | some _ => as.mobjectCredWrite
  | none => write

theorem Viewed.leads {pages : ℕ → Option HostPage} (h : Viewed p pages as)
    (hinside : Inside as off size) {view : ℕ} (hview : as.vmmView = some view) :
    Leads p pages (UInt64.ofNat view + off).toNat as.msel.toUInt32 off.toNat size.toNat
      as.mobjectCredWrite := by
  obtain ⟨hpos, hle⟩ := hinside
  obtain ⟨hspace, hleads⟩ := h view hview
  have hva : (UInt64.ofNat view + off).toNat = view + off.toNat := by
    rw [UInt64.toNat_add, UInt64.toNat_ofNat', Nat.mod_eq_of_lt (a := view) (by omega),
      Nat.mod_eq_of_lt (by omega)]
  intro i hi
  rw [hva, Nat.add_assoc]
  have hbyte := hleads (off.toNat + i) (by omega)
  rwa [Nat.zero_add] at hbyte

theorem Inside.fits (h : Inside as off size) : Mapping.Fits p ⟨as.msel, off, size, write, va⟩ := by
  have hmod := Nat.mod_le off.toNat p.bytes
  have hlt := as.asRange.size.toNat_lt
  have hle := h.2
  change off.toNat % p.bytes + size.toNat < 2 ^ 64
  omega

/-- Where the part of an object is, and that the host is as it was once the pointer is given back,
whatever has been stored. -/
theorem regionAt_leads (hview : Viewed p s.pages as) (hinside : Inside as off size)
    (h : regionAt k s as off size write = some (va, s₁)) :
    s₁.objects = s.objects ∧
      Leads p s₁.pages va.toNat as.msel.toUInt32 off.toNat size.toNat (storable as write) ∧
      ∀ fd bytes, demandUnmap p (s₁.withObject fd bytes) as size va =
        .ret (s.withObject fd bytes) := by
  unfold regionAt at h
  unfold storable demandUnmap
  cases hv : as.vmmView with
  | some view =>
    rw [hv] at h
    obtain ⟨rfl, rfl⟩ := Prod.mk.inj (Option.some.inj h)
    exact ⟨rfl, hview.leads hinside hv, fun _ _ => rfl⟩
  | none =>
    rw [hv] at h
    obtain ⟨hok, rfl, hfree⟩ := mapMem_eq_some h
    refine ⟨rfl, hok.leads_put hinside.fits, fun fd bytes => ?_⟩
    have hunmap := hok.unmapMem (HostMem.withObject
      { s with pages := Block.put (Mapping.block p ⟨as.msel, off, size, write, va⟩) s.pages }
      fd bytes)
    dsimp only at hunmap ⊢
    rw [hunmap]
    dsimp only
    rw [HostMem.withObject, clearRange_put hfree]
    rfl

/-- `demand_map` fails and changes nothing, or maps the part. -/
theorem demandMap_cases (k : Kernel p) (s : HostMem) (gpa size : UInt64) (write : Bool)
    (hcred : as.mobjectCredWrite = true) :
    (∃ err, demandMap k s as gpa size write = (.error err, s)) ∨
      ∃ va s₁, as.isGpaValid gpa size = true ∧ demandMap k s as gpa size write = (.ok va, s₁) ∧
        regionAt k s as (gpa - as.asRange.begin) size write = some (va, s₁) := by
  unfold demandMap
  cases hvalid : as.isGpaValid gpa size with
  | false => exact .inl ⟨_, rfl⟩
  | true =>
    rw [hcred, Bool.not_true, Bool.and_false]
    cases hregion : regionAt k s as (gpa - as.asRange.begin) size write with
    | none => exact .inl ⟨_, rfl⟩
    | some r => exact .inr ⟨r.1, r.2, rfl, rfl, rfl⟩

/-- `read` fails or returns the bytes of the object, and the host is as it was. -/
theorem read_cases (hview : Viewed p s.pages as)
    (hinside : as.isGpaValid gpa size = true → Inside as (gpa - as.asRange.begin) size) :
    (∃ err, read k s as size gpa = .ret (.error err, s)) ∨
      as.isGpaValid gpa size = true ∧ read k s as size gpa = .ret (.ok (bytesAt
        (s.objects as.msel.toUInt32) ((gpa - as.asRange.begin).toNat + ·) size.toNat), s) := by
  unfold read
  cases hvalid : as.isGpaValid gpa size with
  | false => exact .inl ⟨_, rfl⟩
  | true =>
    cases hregion : regionAt k s as (gpa - as.asRange.begin) size false with
    | none => exact .inl ⟨_, rfl⟩
    | some r =>
      obtain ⟨va, s₁⟩ := r
      obtain ⟨hobjects, hleads, hunmap⟩ := regionAt_leads hview (hinside hvalid) hregion
      have hback := hunmap as.msel.toUInt32 (s₁.objects as.msel.toUInt32)
      have hsame : s₁.withObject as.msel.toUInt32 (s₁.objects as.msel.toUInt32) = s₁ := by
        rw [HostMem.withObject, Function.update_eq_self]
      have hsame' : s.withObject as.msel.toUInt32 (s₁.objects as.msel.toUInt32) = s := by
        rw [hobjects, HostMem.withObject, Function.update_eq_self]
      rw [hsame, hsame'] at hback
      refine .inr ⟨rfl, ?_⟩
      dsimp only
      rw [Bool.not_true, if_neg Bool.false_ne_true, hleads.copyOut]
      dsimp only
      rw [hback, hobjects]

/-- `write` fails and changes nothing, or stores the bytes in the object. -/
theorem write_cases (hview : Viewed p s.pages as) (hcred : as.mobjectCredWrite = true)
    (hinside : as.isGpaValid gpa size = true → Inside as (gpa - as.asRange.begin) size)
    {bytes : List UInt8} (hlength : bytes.length = size.toNat) :
    (∃ err, GuestMem.write k s as gpa size bytes = .ret (.error err, s)) ∨
      as.isGpaValid gpa size = true ∧ GuestMem.write k s as gpa size bytes =
        .ret (.ok (), s.withObject as.msel.toUInt32 (stored (s.objects as.msel.toUInt32)
          (List.range' (gpa - as.asRange.begin).toNat bytes.length) bytes)) := by
  unfold GuestMem.write
  rcases demandMap_cases k s gpa size true hcred with
    ⟨err, hmap⟩ | ⟨va, s₁, hvalid, hmap, hregion⟩
  · rw [hmap]
    exact .inl ⟨err, rfl⟩
  · obtain ⟨hobjects, hleads, hunmap⟩ := regionAt_leads hview (hinside hvalid) hregion
    have hstorable : storable as true = true := by
      unfold storable
      cases as.vmmView <;> simp [hcred]
    rw [hstorable, ← hlength] at hleads
    refine .inr ⟨hvalid, ?_⟩
    rw [hmap]
    dsimp only
    rw [hleads.copyIn]
    dsimp only
    rw [hunmap, hobjects]

end GuestMem

/-! ## Flat memory -/

namespace MemBus

variable {bus : MemBus} {as as' : SimpleAS} {objects : UInt32 → Mem} {f : Mem}

/-- The objects of two address spaces are two objects, and may be written. -/
structure OwnObjects (bus : MemBus) : Prop where
  own : ∀ {as as'}, Has bus as → Has bus as' → as.msel.toUInt32 = as'.msel.toUInt32 → as = as'
  writable : ∀ {as}, Has bus as → as.mobjectCredWrite = true

/-- The flat memory has the bytes that are in the objects of the address spaces. -/
def Represents (bus : MemBus) (objects : UInt32 → Mem) (f : Mem) : Prop :=
  ∀ as, Has bus as → ∀ a, as.asRange.Encloses a 1 →
    objects as.msel.toUInt32 (a - as.asRange.begin.toNat) = f a

theorem InPlace.eq_of_has (hbus : InPlace bus) (has : Has bus as) (has' : Has bus as') {a : ℕ}
    (ha : as.asRange.Encloses a 1) (ha' : as'.asRange.Encloses a 1) : as = as' := by
  obtain ⟨e, he, heq⟩ := has
  obtain ⟨e', he', heq'⟩ := has'
  obtain ⟨hdevice, hrange⟩ := Prod.mk.inj heq
  obtain ⟨hdevice', hrange'⟩ := Prod.mk.inj heq'
  have hover : e'.range.Overlaps a 1 := by
    obtain ⟨hle, hend⟩ := ha'
    rw [hrange']
    exact ⟨by omega, by omega⟩
  have hsame : e = e' := hbus.inOrder.eq_of_encloses he he'
    (show e.range.Encloses _ _ from hrange ▸ ha) hover
  rw [hsame, hdevice'] at hdevice
  exact (MemDevice.memory.inj hdevice).symm

theorem InPlace.exists_represents (hbus : InPlace bus) (objects : UInt32 → Mem) :
    ∃ f, Represents bus objects f := by
  classical
  refine ⟨fun a => if h : ∃ as, Has bus as ∧ as.asRange.Encloses a 1 then
    objects h.choose.msel.toUInt32 (a - h.choose.asRange.begin.toNat) else 0, ?_⟩
  intro as has a ha
  have hex : ∃ as, Has bus as ∧ as.asRange.Encloses a 1 := ⟨as, has, ha⟩
  dsimp only
  rw [dif_pos hex, hbus.eq_of_has hex.choose_spec.1 has hex.choose_spec.2 ha]

theorem stored_range' {m : Mem} {off o : ℕ} {bytes : List UInt8} :
    stored m (List.range' off bytes.length) bytes o =
      if off ≤ o ∧ o < off + bytes.length then bytes.getD (o - off) 0 else m o := by
  induction bytes generalizing m off with
  | nil => simp
  | cons byte bytes ih =>
    rw [List.length_cons, List.range'_succ, stored_cons, ih]
    by_cases ho : o = off
    · subst ho
      simp
    · rw [Function.update_of_ne ho]
      by_cases hin : off + 1 ≤ o ∧ o < off + 1 + bytes.length
      · rw [if_pos hin, if_pos (by omega), show o - off = o - (off + 1) + 1 by omega,
          List.getD_cons_succ]
      · rw [if_neg hin, if_neg (by omega)]

variable {gpa n : ℕ} {bytes : List UInt8}

theorem Represents.bytesAt_eq (h : Represents bus objects f) (has : Has bus as)
    (henc : as.asRange.Encloses gpa n) :
    bytesAt (objects as.msel.toUInt32) (gpa - as.asRange.begin.toNat + ·) n =
      bytesAt f (gpa + ·) n := by
  refine List.map_congr_left fun i hi => ?_
  obtain ⟨hle, hend⟩ := henc
  have hi := List.mem_range.1 hi
  rw [← h as has (gpa + i) ⟨by omega, by omega⟩, Nat.sub_add_comm hle]

/-- **Bytes that are stored** in the object are stored in the flat memory. -/
theorem Represents.stored (h : Represents bus objects f) (hbus : InPlace bus)
    (howns : OwnObjects bus) (has : Has bus as) (henc : as.asRange.Encloses gpa bytes.length) :
    Represents bus (Function.update objects as.msel.toUInt32
      (stored (objects as.msel.toUInt32)
        (List.range' (gpa - as.asRange.begin.toNat) bytes.length) bytes))
      (stored f (List.range' gpa bytes.length) bytes) := by
  intro as' has' a ha
  obtain ⟨hle, hend⟩ := henc
  rw [stored_range']
  by_cases hsame : as' = as
  · subst hsame
    have hbegin := ha.1
    rw [Function.update_self, stored_range', h as' has' a ha]
    by_cases hin : gpa ≤ a ∧ a < gpa + bytes.length
    · rw [if_pos (by omega), if_pos hin]
      congr 1
      omega
    · rw [if_neg (by omega), if_neg hin]
  · rw [Function.update_of_ne fun heq => hsame (howns.own has' has heq), h as' has' a ha, if_neg]
    rintro ⟨hlo, hhi⟩
    exact hsame (hbus.eq_of_has has' has ha ⟨by omega, by omega⟩)

end MemBus

/-! ## Runs -/

/-- A pointer from `demand_map_bus` that is held, and the address space it is for. -/
structure GuestMapping where
  as : SimpleAS
  gpa : UInt64
  size : UInt64
  write : Bool
  va : UInt64
  deriving DecidableEq

/-- The mapping behind it, if the address space has no view. -/
def GuestMapping.mapping (g : GuestMapping) : Option Mapping :=
  match g.as.vmmView with
  | some _ => none
  | none => some ⟨g.as.msel, g.gpa - g.as.asRange.begin, g.size, g.write, g.va⟩

/-- The host, and the pointers that are held. -/
structure GuestSys where
  mem : HostMem
  held : List GuestMapping

/-- What the VMM does. -/
inductive GuestAct (p : PageSize)
  | readBus (k : Kernel p) (addr sz : UInt64)
  | writeBus (k : Kernel p) (addr : UInt64) (src : List UInt8) (hlength : src.length < 2 ^ 64)
  | demandMapBus (k : Kernel p) (gpa sizeBytes : UInt64) (write : Bool)
  | demandUnmapBus (g : GuestMapping)
  /-- Load a byte through a pointer that is held. -/
  | load (g : GuestMapping) (i : ℕ)
  /-- Store a byte, through one that is mapped to be written. -/
  | store (g : GuestMapping) (i : ℕ) (byte : UInt8)

/-- What has been read and written, by guest addresses. -/
inductive GuestEvent
  | read (a : ℕ) (bytes : List UInt8)
  | wrote (a : ℕ) (bytes : List UInt8)
  deriving DecidableEq

/-- What a flat memory does. There is no result if something else has been read than it has. -/
def GuestEvent.apply (f : Mem) : GuestEvent → Option Mem
  | .read a bytes => if bytesAt f (a + ·) bytes.length = bytes then some f else none
  | .wrote a bytes => some (stored f (List.range' a bytes.length) bytes)

namespace GuestSys

variable {p : PageSize} {bus : MemBus}

/-- There is no result if the program is aborted, or uses a pointer that it does not hold. -/
def next (bus : MemBus) (s : GuestSys) : GuestAct p → Option (List GuestEvent × GuestSys)
  | .readBus k addr sz =>
      match GuestMem.readBus bus k s.mem addr sz with
      | .abort => none
      | .ret (.error _, mem) => some ([], { s with mem })
      | .ret (.ok bytes, mem) => some ([.read addr.toNat bytes], { s with mem })
  | .writeBus k addr src _ =>
      match GuestMem.writeBus bus k s.mem addr (.ofNat src.length) src with
      | .abort => none
      | .ret (.error _, mem) => some ([], { s with mem })
      | .ret (.ok (), mem) => some ([.wrote addr.toNat src], { s with mem })
  | .demandMapBus k gpa sizeBytes write =>
      match MemBus.getAsDeviceAt bus gpa sizeBytes,
          GuestMem.demandMapBus bus k s.mem gpa sizeBytes write with
      | some as, (.ok va, mem) => some ([], ⟨mem, ⟨as, gpa, sizeBytes, write, va⟩ :: s.held⟩)
      | _, (_, mem) => some ([], { s with mem })
  | .demandUnmapBus g =>
      if g ∈ s.held then
        match GuestMem.demandUnmapBus bus p s.mem g.gpa g.size g.va with
        | .ret (.none, mem) => some ([], ⟨mem, s.held.erase g⟩)
        | _ => none
      else none
  | .load g i =>
      if g ∈ s.held ∧ i < g.size.toNat then
        (s.mem.load p (g.va.toNat + i)).map fun byte => ([.read (g.gpa.toNat + i) [byte]], s)
      else none
  | .store g i byte =>
      if g ∈ s.held ∧ i < g.size.toNat ∧ g.write = true then
        (s.mem.store p (g.va.toNat + i) byte).map fun mem =>
          ([.wrote (g.gpa.toNat + i) [byte]], { s with mem })
      else none

/-- A run, and what has been read and written in it. -/
def run (bus : MemBus) (s : GuestSys) : List (GuestAct p) → Option (List GuestEvent × GuestSys)
  | [] => some ([], s)
  | a :: acts => do
      let r ← s.next bus a
      let r' ← r.2.run bus acts
      return (r.1 ++ r'.1, r'.2)

/-- The host has mapped what it has had at first and what is held, and the pointers lead where they
say. -/
structure Inv (p : PageSize) (bus : MemBus) (base : ℕ → Option HostPage) (s : GuestSys) : Prop where
  found : ∀ g ∈ s.held, MemBus.getAsDeviceAt bus g.gpa g.size = some g.as
  valid : ∀ g ∈ s.held, g.as.isGpaValid g.gpa g.size = true
  ok : ∀ m ∈ s.held.filterMap GuestMapping.mapping, m.Ok p
  va : ∀ g ∈ s.held, ∀ view, g.as.vmmView = some view →
    g.va = UInt64.ofNat view + (g.gpa - g.as.asRange.begin)
  holding : Holding base s.mem.pages
    ((s.held.filterMap GuestMapping.mapping).map (Mapping.block p))

/-- A bus that is set up, with the views that the host has mapped for it. -/
structure Ready (p : PageSize) (bus : MemBus) (base : ℕ → Option HostPage) : Prop where
  inPlace : MemBus.InPlace bus
  ownObjects : MemBus.OwnObjects bus
  viewed : ∀ as, MemBus.Has bus as → GuestMem.Viewed p base as

variable {base : ℕ → Option HostPage} {s t : GuestSys} {as : SimpleAS} {gpa sz : UInt64} {f : Mem}

theorem Ready.inside (hready : Ready p bus base)
    (hfound : MemBus.getAsDeviceAt bus gpa sz = some as)
    (hvalid : as.isGpaValid gpa sz = true) : MemBus.Has bus as ∧
      as.asRange.Encloses gpa.toNat sz.toNat ∧ GuestMem.Inside as (gpa - as.asRange.begin) sz ∧
      (gpa - as.asRange.begin).toNat = gpa.toNat - as.asRange.begin.toNat := by
  have hbus := hready.inPlace
  obtain ⟨⟨-, hpos⟩, -⟩ := hbus.lookup_of_getAsDeviceAt hfound
  have henc := hbus.encloses_of_isGpaValid hfound hvalid
  have hoff : (gpa - as.asRange.begin).toNat = gpa.toNat - as.asRange.begin.toNat :=
    UInt64.toNat_sub_of_le _ _ (UInt64.le_iff_toNat_le.2 henc.1)
  refine ⟨hbus.has_of_getAsDeviceAt hfound, henc, ⟨hpos, ?_⟩, hoff⟩
  obtain ⟨hle, hend⟩ := henc
  omega

theorem Inv.viewed (h : Inv p bus base s) (hready : Ready p bus base) (has : MemBus.Has bus as) :
    GuestMem.Viewed p s.mem.pages as := by
  intro view hview
  obtain ⟨hspace, hleads⟩ := hready.viewed as has view hview
  refine ⟨hspace, fun i hi => ?_⟩
  obtain ⟨page, hpage, hrest⟩ := hleads i hi
  exact ⟨page, h.holding.of_base hpage, hrest⟩

/-- A pointer that is held leads to the part of the object that it is for. -/
theorem Inv.leads (h : Inv p bus base s) (hready : Ready p bus base) {g : GuestMapping}
    (hg : g ∈ s.held) : Leads p s.mem.pages g.va.toNat g.as.msel.toUInt32
      (g.gpa - g.as.asRange.begin).toNat g.size.toNat (GuestMem.storable g.as g.write) := by
  obtain ⟨has, -, hinside, -⟩ := hready.inside (h.found g hg) (h.valid g hg)
  unfold GuestMem.storable
  cases hview : g.as.vmmView with
  | some view =>
    rw [h.va g hg view hview]
    exact (h.viewed hready has).leads hinside hview
  | none =>
    have hmapping : g.mapping =
        some ⟨g.as.msel, g.gpa - g.as.asRange.begin, g.size, g.write, g.va⟩ := by
      unfold GuestMapping.mapping
      rw [hview]
    have hmem := List.mem_filterMap.2 ⟨g, hg, hmapping⟩
    exact (h.ok _ hmem).leads hinside.fits (h.holding.held _ (List.mem_map_of_mem hmem))

/-! ### Each access -/

theorem Inv.readBus (h : Inv p bus base s) (hready : Ready p bus base)
    (hf : MemBus.Represents bus s.mem.objects f) (k : Kernel p) (addr sz : UInt64) :
    (∃ err, GuestMem.readBus bus k s.mem addr sz = .ret (.error err, s.mem)) ∨
      GuestMem.readBus bus k s.mem addr sz =
        .ret (.ok (bytesAt f (addr.toNat + ·) sz.toNat), s.mem) := by
  unfold GuestMem.readBus
  cases hfound : MemBus.getAsDeviceAt bus addr sz with
  | none => exact .inl ⟨_, rfl⟩
  | some as =>
    have hinside := hready.inside hfound
    have has := hready.inPlace.has_of_getAsDeviceAt hfound
    rcases GuestMem.read_cases (k := k) (h.viewed hready has) fun hv => (hinside hv).2.2.1 with
      herror | ⟨hvalid, hread⟩
    · exact .inl herror
    · obtain ⟨-, henc, -, hoff⟩ := hinside hvalid
      refine .inr (hread.trans ?_)
      rw [hoff, hf.bytesAt_eq has henc]

theorem Inv.writeBus (h : Inv p bus base s) (hready : Ready p bus base)
    (hf : MemBus.Represents bus s.mem.objects f) (k : Kernel p) (addr : UInt64) {src : List UInt8}
    (hlength : src.length < 2 ^ 64) :
    (∃ err, GuestMem.writeBus bus k s.mem addr (.ofNat src.length) src =
        .ret (.error err, s.mem)) ∨
      ∃ fd bytes, GuestMem.writeBus bus k s.mem addr (.ofNat src.length) src =
          .ret (.ok (), s.mem.withObject fd bytes) ∧
        MemBus.Represents bus (s.mem.withObject fd bytes).objects
          (stored f (List.range' addr.toNat src.length) src) := by
  unfold GuestMem.writeBus
  cases hfound : MemBus.getAsDeviceAt bus addr (.ofNat src.length) with
  | none => exact .inl ⟨_, rfl⟩
  | some as =>
    have hinside := hready.inside hfound
    have has := hready.inPlace.has_of_getAsDeviceAt hfound
    have hsize : src.length = (UInt64.ofNat src.length).toNat := by
      rw [UInt64.toNat_ofNat', Nat.mod_eq_of_lt hlength]
    rcases GuestMem.write_cases (k := k) (h.viewed hready has) (hready.ownObjects.writable has)
      (fun hv => (hinside hv).2.2.1) hsize with herror | ⟨hvalid, hwrite⟩
    · exact .inl herror
    · obtain ⟨-, henc, -, hoff⟩ := hinside hvalid
      refine .inr ⟨_, _, hwrite, ?_⟩
      rw [hoff]
      rw [← hsize] at henc
      exact hf.stored hready.inPlace hready.ownObjects has henc

theorem Inv.load (h : Inv p bus base s) (hready : Ready p bus base)
    (hf : MemBus.Represents bus s.mem.objects f) {g : GuestMapping} (hg : g ∈ s.held) {i : ℕ}
    (hi : i < g.size.toNat) :
    s.mem.load p (g.va.toNat + i) = some (f (g.gpa.toNat + i)) := by
  obtain ⟨has, ⟨hle, hend⟩, -, hoff⟩ := hready.inside (h.found g hg) (h.valid g hg)
  obtain ⟨page, hpage, hfd, hbyte, -⟩ := h.leads hready hg i hi
  rw [HostMem.load, hpage, Option.map_some, hbyte, hfd, hoff,
    ← hf g.as has (g.gpa.toNat + i) ⟨by omega, by omega⟩, Nat.sub_add_comm hle]

theorem Inv.store (h : Inv p bus base s) (hready : Ready p bus base)
    (hf : MemBus.Represents bus s.mem.objects f) {g : GuestMapping} (hg : g ∈ s.held) {i : ℕ}
    (hi : i < g.size.toNat) (hwrite : g.write = true) (byte : UInt8) :
    ∃ fd bytes, s.mem.store p (g.va.toNat + i) byte = some (s.mem.withObject fd bytes) ∧
      MemBus.Represents bus (s.mem.withObject fd bytes).objects
        (stored f (List.range' (g.gpa.toNat + i) 1) [byte]) := by
  obtain ⟨has, ⟨hle, hend⟩, -, hoff⟩ := hready.inside (h.found g hg) (h.valid g hg)
  obtain ⟨page, hpage, hfd, hbyte, hstorable⟩ := h.leads hready hg i hi
  have hcan : page.write = true := by
    refine hstorable ?_
    unfold GuestMem.storable
    cases g.as.vmmView <;> simp [hwrite, hready.ownObjects.writable has]
  have hstore : s.mem.store p (g.va.toNat + i) byte = some (s.mem.withObject page.fd
      (Function.update (s.mem.objects page.fd)
        (page.page * p.bytes + (g.va.toNat + i) % p.bytes) byte)) := by
    unfold HostMem.store
    rw [hpage]
    exact if_pos hcan
  have henc : g.as.asRange.Encloses (g.gpa.toNat + i) [byte].length := by
    rw [List.length_singleton]
    exact ⟨by omega, by omega⟩
  have hplace : g.gpa.toNat + i - g.as.asRange.begin.toNat =
      page.page * p.bytes + (g.va.toNat + i) % p.bytes := by
    rw [hbyte, hoff, Nat.sub_add_comm hle]
  have hstored := hf.stored hready.inPlace hready.ownObjects has henc
  rw [hplace, ← hfd] at hstored
  exact ⟨_, _, hstore, hstored⟩

theorem Inv.demandMapBus (h : Inv p bus base s) (hready : Ready p bus base) {k : Kernel p}
    {write : Bool} {es : List GuestEvent}
    (hnext : s.next bus (.demandMapBus k gpa sz write) = some (es, t)) :
    es = [] ∧ t.mem.objects = s.mem.objects ∧ Inv p bus base t := by
  rw [GuestSys.next, GuestMem.demandMapBus] at hnext
  cases hfound : MemBus.getAsDeviceAt bus gpa sz with
  | none =>
    rw [hfound] at hnext
    cases hnext
    exact ⟨rfl, rfl, h⟩
  | some as =>
    rw [hfound] at hnext
    dsimp only at hnext
    have hinside := hready.inside hfound
    have has := hready.inPlace.has_of_getAsDeviceAt hfound
    rcases GuestMem.demandMap_cases k s.mem gpa sz write (hready.ownObjects.writable has) with
      ⟨err, hmap⟩ | ⟨va, mem, hvalid, hmap, hregion⟩
    · rw [hmap] at hnext
      cases hnext
      exact ⟨rfl, rfl, h⟩
    · rw [hmap] at hnext
      cases hnext
      have hobjects :=
        (GuestMem.regionAt_leads (h.viewed hready has) (hinside hvalid).2.2.1 hregion).1
      refine ⟨rfl, hobjects, ?_⟩
      unfold GuestMem.regionAt at hregion
      cases hview : as.vmmView with
      | some view =>
        rw [hview] at hregion
        obtain ⟨rfl, rfl⟩ := Prod.mk.inj (Option.some.inj hregion)
        have hmappings : List.filterMap GuestMapping.mapping (⟨as, gpa, sz, write,
            UInt64.ofNat view + (gpa - as.asRange.begin)⟩ :: s.held) =
            s.held.filterMap GuestMapping.mapping := by
          refine List.filterMap_cons_none ?_
          unfold GuestMapping.mapping
          rw [hview]
        refine ⟨List.forall_mem_cons.2 ⟨hfound, h.found⟩, List.forall_mem_cons.2 ⟨hvalid, h.valid⟩,
          hmappings ▸ h.ok, List.forall_mem_cons.2 ⟨fun view' hview' => ?_, h.va⟩,
          hmappings ▸ h.holding⟩
        rw [Option.some.inj (hview.symm.trans hview')]
      | none =>
        rw [hview] at hregion
        obtain ⟨hok, rfl, hfree⟩ := mapMem_eq_some hregion
        have hmappings : List.filterMap GuestMapping.mapping (⟨as, gpa, sz, write, va⟩ :: s.held) =
            ⟨as.msel, gpa - as.asRange.begin, sz, write, va⟩ ::
              s.held.filterMap GuestMapping.mapping := by
          refine List.filterMap_cons_some ?_
          unfold GuestMapping.mapping
          rw [hview]
        refine ⟨List.forall_mem_cons.2 ⟨hfound, h.found⟩, List.forall_mem_cons.2 ⟨hvalid, h.valid⟩,
          ?_, List.forall_mem_cons.2 ⟨fun view' hview' => ?_, h.va⟩, ?_⟩
        · rw [hmappings]
          exact List.forall_mem_cons.2 ⟨hok, h.ok⟩
        · rw [hview] at hview'
          cases hview'
        · rw [hmappings]
          exact h.holding.put hfree

theorem Inv.demandUnmapBus (h : Inv p bus base s) {g : GuestMapping} (hg : g ∈ s.held) :
    ∃ mem, GuestMem.demandUnmapBus bus p s.mem g.gpa g.size g.va = .ret (.none, mem) ∧
      mem.objects = s.mem.objects ∧ Inv p bus base ⟨mem, s.held.erase g⟩ := by
  obtain ⟨l₁, l₂, -, hheld, herase⟩ := List.exists_erase_eq hg
  have hholding := h.holding
  rw [hheld, List.filterMap_append] at hholding
  have hsubset : ∀ g' ∈ s.held.erase g, g' ∈ s.held := fun g' => List.mem_of_mem_erase
  have hok : ∀ m ∈ (s.held.erase g).filterMap GuestMapping.mapping, m.Ok p := by
    intro m hm
    obtain ⟨g', hg', hmapping⟩ := List.mem_filterMap.1 hm
    exact h.ok m (List.mem_filterMap.2 ⟨g', hsubset g' hg', hmapping⟩)
  unfold GuestMem.demandUnmapBus GuestMem.demandUnmap
  rw [h.found g hg]
  dsimp only
  cases hview : g.as.vmmView with
  | some view =>
    have hmapping : g.mapping = none := by
      unfold GuestMapping.mapping
      rw [hview]
    refine ⟨s.mem, rfl, rfl, fun g' hg' => h.found g' (hsubset g' hg'),
      fun g' hg' => h.valid g' (hsubset g' hg'), hok, fun g' hg' => h.va g' (hsubset g' hg'), ?_⟩
    rw [herase, List.filterMap_append]
    rwa [List.filterMap_cons_none hmapping] at hholding
  | none =>
    have hmapping : g.mapping =
        some ⟨g.as.msel, g.gpa - g.as.asRange.begin, g.size, g.write, g.va⟩ := by
      unfold GuestMapping.mapping
      rw [hview]
    have hunmap := (h.ok _ (List.mem_filterMap.2 ⟨g, hg, hmapping⟩)).unmapMem s.mem
    dsimp only at hunmap ⊢
    rw [hunmap]
    refine ⟨_, rfl, rfl, fun g' hg' => h.found g' (hsubset g' hg'),
      fun g' hg' => h.valid g' (hsubset g' hg'), hok, fun g' hg' => h.va g' (hsubset g' hg'), ?_⟩
    rw [herase, List.filterMap_append, List.map_append]
    rw [List.filterMap_cons_some hmapping, List.map_append, List.map_cons] at hholding
    exact hholding.clear

/-! ### All accesses -/

/-- **An access** does what the flat memory does. -/
theorem Inv.next (h : Inv p bus base s) (hready : Ready p bus base)
    (hf : MemBus.Represents bus s.mem.objects f) {a : GuestAct p} {es : List GuestEvent}
    (hnext : s.next bus a = some (es, t)) :
    Inv p bus base t ∧ ∃ f', es.foldlM GuestEvent.apply f = some f' ∧
      MemBus.Represents bus t.mem.objects f' := by
  cases a with
  | readBus k addr sz =>
    rw [GuestSys.next] at hnext
    rcases h.readBus hready hf k addr sz with ⟨err, hread⟩ | hread
    · rw [hread] at hnext
      cases hnext
      exact ⟨h, f, rfl, hf⟩
    · rw [hread] at hnext
      cases hnext
      refine ⟨h, f, ?_, hf⟩
      simp [GuestEvent.apply]
  | writeBus k addr src hlength =>
    rw [GuestSys.next] at hnext
    rcases h.writeBus hready hf k addr hlength with ⟨err, hwrite⟩ | ⟨fd, bytes, hwrite, hf'⟩
    · rw [hwrite] at hnext
      cases hnext
      exact ⟨h, f, rfl, hf⟩
    · rw [hwrite] at hnext
      cases hnext
      exact ⟨⟨h.found, h.valid, h.ok, h.va, h.holding⟩, _, rfl, hf'⟩
  | demandMapBus k gpa sizeBytes write =>
    obtain ⟨rfl, hobjects, ht⟩ := h.demandMapBus hready hnext
    exact ⟨ht, f, rfl, hobjects ▸ hf⟩
  | demandUnmapBus g =>
    rw [GuestSys.next] at hnext
    split_ifs at hnext with hg
    obtain ⟨mem, hunmap, hobjects, ht⟩ := h.demandUnmapBus hg
    rw [hunmap] at hnext
    cases hnext
    exact ⟨ht, f, rfl, hobjects ▸ hf⟩
  | load g i =>
    rw [GuestSys.next] at hnext
    split_ifs at hnext with hg
    rw [h.load hready hf hg.1 hg.2] at hnext
    cases hnext
    refine ⟨h, f, ?_, hf⟩
    simp [GuestEvent.apply, bytesAt]
  | store g i byte =>
    rw [GuestSys.next] at hnext
    split_ifs at hnext with hg
    obtain ⟨fd, bytes, hstore, hf'⟩ := h.store hready hf hg.1 hg.2.1 hg.2.2 byte
    rw [hstore] at hnext
    cases hnext
    exact ⟨⟨h.found, h.valid, h.ok, h.va, h.holding⟩, _, rfl, hf'⟩

theorem Inv.run (hready : Ready p bus base) {acts : List (GuestAct p)} {es : List GuestEvent}
    (h : Inv p bus base s) (hf : MemBus.Represents bus s.mem.objects f)
    (hrun : s.run bus acts = some (es, t)) : Inv p bus base t ∧
      ∃ f', es.foldlM GuestEvent.apply f = some f' ∧ MemBus.Represents bus t.mem.objects f' := by
  induction acts generalizing s f es with
  | nil =>
    cases hrun
    exact ⟨h, f, rfl, hf⟩
  | cons a acts ih =>
    obtain ⟨⟨es₁, u⟩, hnext, hrest⟩ := Option.bind_eq_some_iff.1 hrun
    obtain ⟨⟨es₂, t'⟩, htail, heq⟩ := Option.bind_eq_some_iff.1 hrest
    cases heq
    obtain ⟨hu, f₁, hes₁, hf₁⟩ := h.next hready hf hnext
    obtain ⟨ht, f₂, hes₂, hf₂⟩ := ih hu hf₁ htail
    refine ⟨ht, f₂, ?_, hf₂⟩
    rw [List.foldlM_append, hes₁]
    exact hes₂

theorem inv_start (mem : HostMem) : Inv p bus mem.pages ⟨mem, []⟩ := by
  constructor
  · simp
  · simp
  · simp
  · simp
  · exact .nil _

/-- **The accesses of a run**, of all kinds, read and write one flat memory, and the host is as it
was once no pointer is held. -/
theorem flat_run {mem : HostMem} (hready : Ready p bus mem.pages)
    (hf : MemBus.Represents bus mem.objects f) {acts : List (GuestAct p)} {es : List GuestEvent}
    (hrun : GuestSys.run bus ⟨mem, []⟩ acts = some (es, t)) :
    (∃ f', es.foldlM GuestEvent.apply f = some f' ∧ MemBus.Represents bus t.mem.objects f') ∧
      (t.held = [] → t.mem.pages = mem.pages) := by
  obtain ⟨ht, hes⟩ := (inv_start mem).run hready hf hrun
  refine ⟨hes, fun hnone => ?_⟩
  have hholding := ht.holding
  rw [hnone] at hholding
  exact hholding.eq_base

/-- **No access is aborted** or faults: in every state that a run leads to, an access to the bus
returns, and a pointer that is held can be loaded from, stored to if it is to be written, and given
back. -/
theorem never_aborts {mem : HostMem} (hready : Ready p bus mem.pages) {acts : List (GuestAct p)}
    {es : List GuestEvent} (hrun : GuestSys.run bus ⟨mem, []⟩ acts = some (es, t)) :
    (∀ k addr sz, t.next bus (.readBus k addr sz : GuestAct p) ≠ none) ∧
    (∀ k addr src hlength, t.next bus (.writeBus k addr src hlength : GuestAct p) ≠ none) ∧
    ∀ g ∈ t.held, t.next bus (.demandUnmapBus g : GuestAct p) ≠ none ∧
      ∀ i, i < g.size.toNat → t.next bus (.load g i : GuestAct p) ≠ none ∧
        (g.write = true → ∀ byte, t.next bus (.store g i byte : GuestAct p) ≠ none) := by
  obtain ⟨f, hf⟩ := hready.inPlace.exists_represents mem.objects
  obtain ⟨ht, f', -, hf'⟩ := (inv_start mem).run hready hf hrun
  refine ⟨fun k addr sz => ?_, fun k addr src hlength => ?_, fun g hg => ⟨?_, fun i hi => ⟨?_,
    fun hwrite byte => ?_⟩⟩⟩
  · rw [GuestSys.next]
    rcases ht.readBus hready hf' k addr sz with ⟨err, hread⟩ | hread <;> simp [hread]
  · rw [GuestSys.next]
    rcases ht.writeBus hready hf' k addr hlength with ⟨err, hwrite⟩ | ⟨fd, bytes, hwrite, -⟩ <;>
      simp [hwrite]
  · obtain ⟨mem', hunmap, -⟩ := ht.demandUnmapBus hg
    rw [GuestSys.next, if_pos hg, hunmap]
    simp
  · rw [GuestSys.next, if_pos ⟨hg, hi⟩, ht.load hready hf' hg hi]
    simp
  · obtain ⟨fd, bytes, hstore, -⟩ := ht.store hready hf' hg hi hwrite byte
    rw [GuestSys.next, if_pos ⟨hg, hi, hwrite⟩, hstore]
    simp

/-- Bytes are written, and one of them is loaded through a pointer while they are read. -/
def pageActs : List (GuestAct HostMaps.fourKiB) :=
  [.writeBus HostMaps.secondPage 0x10000010 [1, 2, 3] (by decide),
    .demandMapBus HostMaps.secondPage 0x10000011 2 true,
    .store ⟨MemBus.page, 0x10000011, 2, true, 0x1011⟩ 0 7,
    .load ⟨MemBus.page, 0x10000011, 2, true, 0x1011⟩ 1,
    .demandUnmapBus ⟨MemBus.page, 0x10000011, 2, true, 0x1011⟩,
    .readBus HostMaps.secondPage 0x1000000f 4]

/-- A host that has mapped nothing, with empty objects. -/
def emptyMem : HostMem := { pages := fun _ => none, objects := fun _ _ => 0 }

abbrev pageBus : MemBus := MemBus.setUp .allMem false MemBus.pageCalls

theorem ready_page : Ready HostMaps.fourKiB pageBus emptyMem.pages := by
  refine ⟨MemBus.inPlace_setUp .allMem false MemBus.pageCalls, ⟨?_, ?_⟩, ?_⟩
  · intro as as' has has' _
    rw [MemBus.has_page has, MemBus.has_page has']
  · intro as has
    rw [MemBus.has_page has]
    rfl
  · intro as has view hview
    rw [MemBus.has_page has] at hview
    cases hview

theorem run_page : ∃ t, GuestSys.run pageBus ⟨emptyMem, []⟩ pageActs = some
    ([.wrote 0x10000010 [1, 2, 3], .wrote 0x10000011 [7], .read 0x10000012 [3],
      .read 0x1000000f [0, 1, 7, 3]], t) := by
  have hevents : (GuestSys.run pageBus ⟨emptyMem, []⟩ pageActs).map Prod.fst = some
      [.wrote 0x10000010 [1, 2, 3], .wrote 0x10000011 [7], .read 0x10000012 [3],
        .read 0x1000000f [0, 1, 7, 3]] := by
    decide +kernel
  obtain ⟨⟨es, t⟩, hrun, rfl⟩ := Option.map_eq_some_iff.1 hevents
  exact ⟨t, hrun⟩

theorem flat_run_page : ∃ t : GuestSys, (∃ f', [.wrote 0x10000010 [1, 2, 3],
      .wrote 0x10000011 [7], .read 0x10000012 [3], .read 0x1000000f [0, 1, 7, 3]].foldlM
        GuestEvent.apply (fun _ => 0) = some f' ∧ MemBus.Represents pageBus t.mem.objects f') ∧
    (t.held = [] → t.mem.pages = emptyMem.pages) := by
  obtain ⟨t, hrun⟩ := run_page
  exact ⟨t, flat_run ready_page (fun _ _ _ _ => rfl) hrun⟩

theorem never_aborts_page : ∃ t : GuestSys, ∀ k addr sz,
    t.next pageBus (.readBus k addr sz : GuestAct HostMaps.fourKiB) ≠ none := by
  obtain ⟨t, hrun⟩ := run_page
  exact ⟨t, (never_aborts ready_page hrun).1⟩

end GuestSys

end Vml
