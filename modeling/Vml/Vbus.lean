import Vml.Lib.Run
import Vml.RangeMap

/-!
# The bus

`vbus.cpp`: devices are registered at ranges of addresses, and an access goes to the device that a
search of the `RangeMap` finds, or to the one of the last access if that contains it.

**What it is for** is `AddressSpace`: devices at disjoint ranges, where an access goes to the device
whose range encloses it.

Main result: `Bus.refines_iff`, a run of calls refines the address space exactly if no access
overlaps a range that does not enclose it and the bus is not cleared while it has a last access.
-/

namespace Vml

namespace Vbus

/-- `Vbus::Space`. -/
inductive Space
  | mmio
  | regularMemory
  | allMem
  | ioPort
  | modelSpecificRegister
  | systemRegister
  | affinity
  deriving DecidableEq, Repr

/-- `Vbus::Access`. -/
inductive Access
  | read
  | write
  | readWrite
  | execUser
  | execSupervisor
  | exec
  deriving DecidableEq, Repr

/-- `DeviceEntry`, with the place on the heap that it is allocated at. -/
structure DeviceEntry (δ : Type*) where
  device : δ
  range : Range
  ptr : ℕ
  deriving DecidableEq, Repr

instance {δ : Type*} : RangeNode (DeviceEntry δ) := ⟨DeviceEntry.range⟩

/-- What `access_with_dev` passes to a device. -/
structure DeviceAccess (δ : Type*) where
  device : δ
  access : Access
  space : Space
  off : UInt64
  bytes : UInt8
  val : UInt64
  deriving DecidableEq, Repr

/-- `Vbus::Bus`. What has been allocated for entries is below `heap`. -/
structure Bus (δ : Type*) where
  devices : RangeMap (DeviceEntry δ) := {}
  space : Space := .allMem
  trace : Bool := false
  absoluteAccess : Bool := false
  lastAccess : Option (DeviceEntry δ) := none
  heap : ℕ := 0
  deriving Repr

namespace Bus

variable {δ : Type*}

/-- `lookup`. -/
def lookup (b : Bus δ) (addr bytes : UInt64) : Option (DeviceEntry δ) :=
  if addr + bytes ≤ addr then none else b.devices.lookup ⟨addr, bytes⟩

/-- The entry that `access` takes: the last one, if it contains the target. -/
def findEntry (b : Bus δ) (addr bytes : UInt64) : Option (DeviceEntry δ) :=
  match b.lastAccess with
  | none => b.lookup addr bytes
  | some entry => if entry.range.contains ⟨addr, bytes⟩ then some entry else b.lookup addr bytes

/-- What `access` passes to the device of an entry. -/
def deviceAccess (b : Bus δ) (entry : DeviceEntry δ) (access : Access) (addr : UInt64)
    (bytes : UInt8) (val : UInt64) : DeviceAccess δ where
  device := entry.device
  access := access
  space := b.space
  off := if b.absoluteAccess then addr else addr - entry.range.begin
  bytes := bytes
  -- initialized to zero for logging purposes
  val := if b.trace && access == .read then 0 else val

/-- `access`, up to the call of the device. Where there is no call it returns `NO_DEVICE`. -/
def access (b : Bus δ) (access : Access) (addr : UInt64) (bytes : UInt8) (val : UInt64) :
    Option (DeviceAccess δ) × Bus δ :=
  if addr + bytes.toUInt64 ≤ addr then (none, b)
  else
    match b.findEntry addr bytes.toUInt64 with
    | none => (none, b)
    | some entry =>
        (some (b.deviceAccess entry access addr bytes val), { b with lastAccess := some entry })

/-- `get_device_at`. -/
def getDeviceAt (b : Bus δ) (addr size : UInt64) : Option δ :=
  (b.lookup addr size).map DeviceEntry.device

/-- `register_device`, whose entry may not be allocated. -/
def registerDevice (b : Bus δ) (d : δ) (addr bytes : UInt64) (allocated : Bool) : Bool × Bus δ :=
  if addr + bytes ≤ addr then (false, b)
  else if !allocated then (false, b)
  else
    let status := b.devices.insert ⟨d, ⟨addr, bytes⟩, b.heap⟩
    (status.2, { b with devices := status.1, heap := b.heap + 1 })

/-- `unregister_device`. A last access is forgotten if its entry is the one that is deleted. -/
def unregisterDevice (b : Bus δ) (addr bytes : UInt64) : Bus δ :=
  let rmDev := b.devices.remove ⟨addr, bytes⟩
  { b with
    devices := rmDev.1
    lastAccess :=
      if rmDev.2.map DeviceEntry.ptr = b.lastAccess.map DeviceEntry.ptr then none
      else b.lastAccess }

/-- `deinit`, with the devices that are told. Their entries are not deleted. -/
def deinit (b : Bus δ) : List δ × Bus δ :=
  (b.devices.set.map DeviceEntry.device, { b with devices := b.devices.clear })

end Bus

/-! ## Runs -/

/-- A call of the bus. -/
inductive Call (δ : Type*)
  | registerDevice (d : δ) (addr bytes : UInt64) (allocated : Bool)
  | unregisterDevice (addr bytes : UInt64)
  | deinit
  | access (access : Access) (addr : UInt64) (bytes : UInt8) (val : UInt64)
  | getDeviceAt (addr size : UInt64)

/-- What a call returns. -/
inductive Answer (δ : Type*)
  | none
  | registered (ok : Bool)
  | access (call : Option (DeviceAccess δ))
  | device (d : Option δ)
  deriving DecidableEq, Repr

namespace Bus

variable {δ : Type*}

/-- A call. -/
def exec (b : Bus δ) : Call δ → Answer δ × Bus δ
  | .registerDevice d addr bytes allocated =>
      let r := b.registerDevice d addr bytes allocated
      (.registered r.1, r.2)
  | .unregisterDevice addr bytes => (.none, b.unregisterDevice addr bytes)
  | .deinit => (.none, b.deinit.2)
  | .access access addr bytes val =>
      let r := b.access access addr bytes val
      (.access r.1, r.2)
  | .getDeviceAt addr size => (.device (b.getDeviceAt addr size), b)

/-- The state after a call. -/
abbrev next (b : Bus δ) (c : Call δ) : Bus δ := (b.exec c).2

end Bus

/-! ## What the bus is for -/

/-- Devices at ranges of addresses. -/
abbrev AddressSpace (δ : Type*) := Set (δ × Range)

namespace AddressSpace

variable {δ : Type*}

/-- The device is at a range that encloses the addresses from `a` up to `a + n`, the first of which
is `off` above its start. -/
def Serves (s : AddressSpace δ) (a n : ℕ) (d : δ) (off : ℕ) : Prop :=
  ∃ r, (d, r) ∈ s ∧ r.Encloses a n ∧ a = r.begin.toNat + off ∧ off + n ≤ r.size.toNat

/-- The range is at one of the addresses from `a` up to `a + n`, where these do not wrap. -/
def Taken (s : AddressSpace δ) (addr bytes : UInt64) : Prop :=
  ∃ p ∈ s, p.2.begin.toNat < (addr + bytes).toNat ∧ addr.toNat < p.2.begin.toNat + p.2.size.toNat

/-- Of the ranges that the request meets this is the lowest. -/
def Lowest (s : AddressSpace δ) (addr bytes : UInt64) (p : δ × Range) : Prop :=
  (p.2.begin.toNat < (addr + bytes).toNat ∧ addr.toNat < p.2.begin.toNat + p.2.size.toNat) ∧
    ∀ p' ∈ s, p'.2.begin.toNat < (addr + bytes).toNat ∧
      addr.toNat < p'.2.begin.toNat + p'.2.size.toNat → p.2.begin.toNat ≤ p'.2.begin.toNat

/-- The devices after a call that gave the answer. -/
def after (s : AddressSpace δ) (c : Call δ) (ans : Answer δ) : AddressSpace δ :=
  match c, ans with
  | .registerDevice d addr bytes _, .registered true => insert (d, ⟨addr, bytes⟩) s
  | .unregisterDevice addr bytes, _ => {p ∈ s | ¬s.Lowest addr bytes p}
  | .deinit, _ => ∅
  | _, _ => s

/-- The answer to a call: a device is registered where there is room, and an access goes to the
device that serves its addresses. -/
def Answers (s : AddressSpace δ) : Call δ → Answer δ → Prop
  | .registerDevice _ addr bytes allocated, ans =>
      ans = .registered true ∧ addr < addr + bytes ∧ allocated = true ∧ ¬s.Taken addr bytes ∨
        ans = .registered false ∧ (addr < addr + bytes → allocated = true → s.Taken addr bytes)
  | .access _ addr bytes _, ans =>
      0 < bytes → ∃ call, ans = .access call ∧
        (∀ d off, (∃ x, call = some x ∧ x.device = d ∧ x.off.toNat = off ∧ x.bytes = bytes) ↔
          s.Serves addr.toNat bytes.toNat d off) ∧
        (call = none ↔ ∀ d off, ¬s.Serves addr.toNat bytes.toNat d off)
  | .getDeviceAt addr size, ans =>
      0 < size → ∃ found, ans = .device found ∧
        (∀ d, found = some d ↔ ∃ off, s.Serves addr.toNat size.toNat d off) ∧
        (found = none ↔ ∀ d off, ¬s.Serves addr.toNat size.toNat d off)
  | _, ans => ans = .none

end AddressSpace

namespace Bus

variable {δ : Type*}

/-- The devices that are registered. -/
def registered (b : Bus δ) : AddressSpace δ := {p | ∃ e ∈ b.devices.set, (e.device, e.range) = p}

/-- The last access, if there is one, is to an entry that is registered. -/
def CacheRegistered (b : Bus δ) : Prop := ∀ e, b.lastAccess = some e → e ∈ b.devices.set

/-- The call does what it does to the address space, gives the answer that it would give without a
last access, and leaves a last access to an entry that is registered. -/
structure Refines (b : Bus δ) (c : Call δ) : Prop where
  answers : b.registered.Answers c (b.exec c).1
  after : (b.next c).registered = b.registered.after c (b.exec c).1
  uncached : (b.exec c).1 = ({ b with lastAccess := none }.exec c).1
  cacheRegistered : (b.next c).CacheRegistered

/-- The addresses do not wrap, overlap a registered range, and are not enclosed by it. -/
def Straddles (b : Bus δ) (a n : ℕ) : Prop :=
  a + n < 2 ^ 64 ∧ ∃ p ∈ b.registered, p.2.Overlaps a n ∧ ¬p.2.Encloses a n

/-- What a call must be for the bus to refine the address space. -/
def Suits (b : Bus δ) : Call δ → Prop
  | .deinit => b.lastAccess = none
  | .access _ addr bytes _ => ¬b.Straddles addr.toNat bytes.toNat
  | .getDeviceAt addr size => ¬b.Straddles addr.toNat size.toNat
  | _ => True

/-! ## The entries -/

/-- The ranges are in order, and none is empty. -/
structure InPlace (b : Bus δ) : Prop where
  inOrder : b.devices.InOrder
  size_pos : ∀ e ∈ b.devices.set, 0 < e.range.size.toNat
  relative : b.absoluteAccess = false

variable {b : Bus δ} {addr bytes : UInt64} {e : DeviceEntry δ} {c : Call δ}

theorem not_wraps_iff :
    ¬addr + bytes ≤ addr ↔ addr.toNat + bytes.toNat < 2 ^ 64 ∧ 0 < bytes.toNat := by
  rw [UInt64.not_le]
  exact @Range.lt_endAddr_iff ⟨addr, bytes⟩

theorem InPlace.registerDevice (h : b.InPlace) (d : δ) (allocated : Bool) :
    (b.registerDevice d addr bytes allocated).2.InPlace := by
  rw [Bus.registerDevice]
  split_ifs with hwraps halloc
  · exact h
  · exact h
  · obtain ⟨hbounded, hpos⟩ := not_wraps_iff.1 hwraps
    refine ⟨h.inOrder.insert hbounded, fun e he => ?_, h.relative⟩
    rcases h.inOrder.insert_cases ⟨d, ⟨addr, bytes⟩, b.heap⟩ with
      ⟨pre, post, hset, heq, -⟩ | ⟨-, heq⟩
    · simp only [heq, List.mem_append, List.mem_cons] at he
      rcases he with he | rfl | he
      · exact h.size_pos e (by rw [hset]; exact List.mem_append_left _ he)
      · exact hpos
      · exact h.size_pos e (by rw [hset]; exact List.mem_append_right _ he)
    · rw [heq] at he
      exact h.size_pos e he

theorem InPlace.unregisterDevice (h : b.InPlace) : (b.unregisterDevice addr bytes).InPlace := by
  refine ⟨h.inOrder.remove _, fun e he => ?_, h.relative⟩
  rcases b.devices.remove_cases ⟨addr, bytes⟩ with ⟨-, heq⟩ | ⟨f, pre, post, -, hset, heq⟩
  · exact h.size_pos e (heq ▸ he)
  · refine h.size_pos e ?_
    have he : e ∈ (b.devices.remove ⟨addr, bytes⟩).1.set := he
    rw [heq] at he
    rw [hset]
    exact List.Sublist.subset (List.Sublist.append_left (List.sublist_cons_self f post) pre) he

theorem access_eq (b : Bus δ) (access : Access) (bytes : UInt8) (val : UInt64) :
    (b.access access addr bytes val).2 = b ∨ ∃ entry,
      b.findEntry addr bytes.toUInt64 = some entry ∧
        (b.access access addr bytes val).2 = { b with lastAccess := some entry } := by
  rw [Bus.access]
  split_ifs
  · exact .inl rfl
  · cases hentry : b.findEntry addr bytes.toUInt64 with
    | none => exact .inl rfl
    | some entry => exact .inr ⟨entry, rfl, rfl⟩

/-- **A call** keeps the ranges in order. -/
theorem InPlace.next (h : b.InPlace) (c : Call δ) : (b.next c).InPlace := by
  cases c with
  | registerDevice d addr bytes allocated => exact h.registerDevice d allocated
  | unregisterDevice addr bytes => exact h.unregisterDevice
  | deinit => exact ⟨RangeMap.inOrder_clear, nofun, h.relative⟩
  | access access addr bytes val =>
      rcases b.access_eq access bytes val with heq | ⟨entry, -, heq⟩
      · exact Eq.mpr (congrArg InPlace heq) h
      · exact Eq.mpr (congrArg InPlace heq) ⟨h.inOrder, h.size_pos, h.relative⟩
  | getDeviceAt addr size => exact h

/-- **What is registered after a call** was registered before, or is by the call. -/
theorem InPlace.mem_next (h : b.InPlace) (he : e ∈ (b.next c).devices.set) :
    e ∈ b.devices.set ∨ ∃ d addr bytes allocated, c = .registerDevice d addr bytes allocated ∧
      e.device = d ∧ e.range = ⟨addr, bytes⟩ := by
  cases c with
  | registerDevice d addr bytes allocated =>
      dsimp only [Bus.next, exec, Bus.registerDevice] at he
      split_ifs at he
      · exact .inl he
      · exact .inl he
      · rcases h.inOrder.insert_cases ⟨d, ⟨addr, bytes⟩, b.heap⟩ with
          ⟨pre, post, hset, heq, -⟩ | ⟨-, heq⟩
        · simp only [heq, List.mem_append, List.mem_cons] at he
          rw [hset, List.mem_append]
          rcases he with he | rfl | he
          · exact .inl (.inl he)
          · exact .inr ⟨d, addr, bytes, allocated, rfl, rfl, rfl⟩
          · exact .inl (.inr he)
        · rw [heq] at he
          exact .inl he
  | unregisterDevice addr bytes =>
      have he : e ∈ (b.devices.remove ⟨addr, bytes⟩).1.set := he
      rcases b.devices.remove_cases ⟨addr, bytes⟩ with ⟨-, heq⟩ | ⟨f, pre, post, -, hset, heq⟩
      · rw [heq] at he
        exact .inl he
      · rw [heq] at he
        rw [hset]
        exact .inl (List.Sublist.subset
          (List.Sublist.append_left (List.sublist_cons_self f post) pre) he)
  | deinit => cases he
  | access access addr bytes val =>
      rcases b.access_eq access bytes val with heq | ⟨entry, -, heq⟩
      · exact .inl (congrArg (fun b : Bus δ => e ∈ b.devices.set) heq ▸ he)
      · exact .inl (congrArg (fun b : Bus δ => e ∈ b.devices.set) heq ▸ he)
  | getDeviceAt addr size => exact .inl he

/-! ## Searching -/

/-- A request that does not wrap finds an entry whose range it overlaps. -/
theorem InPlace.lookup_cases (h : b.InPlace) (hwraps : ¬addr + bytes ≤ addr) :
    (b.lookup addr bytes = none ∧
      ∀ e ∈ b.devices.set, ¬e.range.Overlaps addr.toNat bytes.toNat) ∨
    ∃ e ∈ b.devices.set, b.lookup addr bytes = some e ∧
      e.range.Overlaps addr.toNat bytes.toNat := by
  have hbounded : (⟨addr, bytes⟩ : Range).Bounded := (not_wraps_iff.1 hwraps).1
  rw [lookup, if_neg hwraps]
  cases hfound : b.devices.lookup ⟨addr, bytes⟩ with
  | none =>
      refine .inl ⟨rfl, fun e he hover => ?_⟩
      rw [h.inOrder.lookup_eq, List.find?_eq_none] at hfound
      exact hfound e he ((h.inOrder.meets_iff_overlaps he hbounded).2 hover)
  | some e =>
      obtain ⟨he, hmeets, -⟩ := h.inOrder.first_of_lookup hfound
      exact .inr ⟨e, he, rfl, (h.inOrder.meets_iff_overlaps he hbounded).1 hmeets⟩

/-- **A request finds the entry that encloses it**, if there is one. -/
theorem InPlace.lookup_of_encloses (h : b.InPlace) (he : e ∈ b.devices.set)
    (hpos : 0 < bytes.toNat) (henc : e.range.Encloses addr.toNat bytes.toNat) :
    b.lookup addr bytes = some e := by
  have hbounded : e.range.begin.toNat + e.range.size.toNat < 2 ^ 64 := h.inOrder.bounded e he
  have hwraps : ¬addr + bytes ≤ addr := not_wraps_iff.2 ⟨by obtain ⟨-, hend⟩ := henc; omega, hpos⟩
  rcases h.lookup_cases hwraps with ⟨-, hnone⟩ | ⟨f, hf, hlookup, hover⟩
  · exact absurd (henc.overlaps hpos) (hnone e he)
  · rw [hlookup, h.inOrder.eq_of_encloses he hf henc hover]

theorem mem_registered (he : e ∈ b.devices.set) : (e.device, e.range) ∈ b.registered :=
  ⟨e, he, rfl⟩

/-- What does not straddle a range finds an entry exactly if that encloses it. -/
theorem InPlace.lookup_eq_some_iff (h : b.InPlace) (hpos : 0 < bytes.toNat)
    (hstraddles : ¬b.Straddles addr.toNat bytes.toNat) :
    b.lookup addr bytes = some e ↔
      e ∈ b.devices.set ∧ e.range.Encloses addr.toNat bytes.toNat := by
  constructor
  · intro hlookup
    have hwraps : ¬addr + bytes ≤ addr := by
      intro hwraps
      rw [lookup, if_pos hwraps] at hlookup
      cases hlookup
    rcases h.lookup_cases hwraps with ⟨hnone, -⟩ | ⟨f, hf, hsome, hover⟩
    · rw [hnone] at hlookup
      cases hlookup
    · obtain rfl : f = e := Option.some.inj (hsome.symm.trans hlookup)
      refine ⟨hf, ?_⟩
      by_contra henc
      exact hstraddles ⟨(not_wraps_iff.1 hwraps).1, _, mem_registered hf, hover, henc⟩
  · exact fun ⟨he, henc⟩ => h.lookup_of_encloses he hpos henc

theorem InPlace.lookup_of_straddles (h : b.InPlace) (hpos : 0 < bytes.toNat)
    (hstraddles : b.Straddles addr.toNat bytes.toNat) :
    (∃ e, b.lookup addr bytes = some e) ∧
      ∀ e ∈ b.devices.set, ¬e.range.Encloses addr.toNat bytes.toNat := by
  obtain ⟨hlt, -, ⟨f, hf, rfl⟩, hover, henc⟩ := hstraddles
  constructor
  · rcases h.lookup_cases (not_wraps_iff.2 ⟨hlt, hpos⟩) with ⟨-, hnone⟩ | ⟨e, -, hlookup, -⟩
    · exact absurd hover (hnone f hf)
    · exact ⟨e, hlookup⟩
  · intro e he hencloses
    rw [h.inOrder.eq_of_encloses he hf hencloses hover] at hencloses
    exact henc hencloses

/-- **The last access is transparent**: what it finds is what a search finds. -/
theorem InPlace.findEntry_eq (h : b.InPlace) (hcache : b.CacheRegistered)
    (hwraps : ¬addr + bytes ≤ addr) : b.findEntry addr bytes = b.lookup addr bytes := by
  obtain ⟨hlt, hpos⟩ := not_wraps_iff.1 hwraps
  have hbounded : (⟨addr, bytes⟩ : Range).Bounded := hlt
  rw [findEntry]
  cases hlast : b.lastAccess with
  | none => rfl
  | some entry =>
      have hmem := hcache entry hlast
      dsimp only
      split_ifs with hcontains
      · have henc := (Range.contains_iff (h.inOrder.bounded entry hmem) hbounded hpos).1 hcontains
        exact (h.lookup_of_encloses hmem hpos henc).symm
      · rfl

theorem InPlace.access_fst (h : b.InPlace) (hcache : b.CacheRegistered) (access : Access)
    (n : UInt8) (val : UInt64) : (b.access access addr n val).1 =
      (b.lookup addr n.toUInt64).map fun e => b.deviceAccess e access addr n val := by
  rw [Bus.access]
  by_cases hwraps : addr + n.toUInt64 ≤ addr
  · rw [if_pos hwraps, lookup, if_pos hwraps]
    rfl
  · rw [if_neg hwraps, h.findEntry_eq hcache hwraps]
    cases b.lookup addr n.toUInt64 <;> rfl

/-! ## Serving -/

theorem serves_iff {a n off : ℕ} {d : δ} : b.registered.Serves a n d off ↔
    ∃ e ∈ b.devices.set, e.device = d ∧ e.range.Encloses a n ∧ a = e.range.begin.toNat + off := by
  constructor
  · rintro ⟨r, ⟨e, he, heq⟩, henc, hoff, -⟩
    obtain ⟨rfl, rfl⟩ := Prod.mk.inj heq
    exact ⟨e, he, rfl, henc, hoff⟩
  · rintro ⟨e, he, rfl, henc, hoff⟩
    exact ⟨e.range, mem_registered he, henc, hoff, by obtain ⟨-, hend⟩ := henc; omega⟩

theorem not_serves_iff {a n : ℕ} : (∀ d off, ¬b.registered.Serves a n d off) ↔
    ∀ e ∈ b.devices.set, ¬e.range.Encloses a n := by
  simp only [serves_iff]
  constructor
  · intro h e he henc
    have hle := henc.1
    exact h e.device (a - e.range.begin.toNat) ⟨e, he, rfl, henc, by omega⟩
  · exact fun h d off ⟨e, he, _, henc, _⟩ => h e he henc

theorem InPlace.lookup_eq_none_iff (h : b.InPlace) (hpos : 0 < bytes.toNat)
    (hstraddles : ¬b.Straddles addr.toNat bytes.toNat) :
    b.lookup addr bytes = none ↔ ∀ d off, ¬b.registered.Serves addr.toNat bytes.toNat d off := by
  rw [not_serves_iff, Option.eq_none_iff_forall_ne_some]
  simp only [ne_eq, h.lookup_eq_some_iff hpos hstraddles, not_and]

theorem InPlace.not_none_iff_of_straddles (h : b.InPlace) (hpos : 0 < bytes.toNat)
    (hstraddles : b.Straddles addr.toNat bytes.toNat) : ¬(b.lookup addr bytes = none ↔
      ∀ d off, ¬b.registered.Serves addr.toNat bytes.toNat d off) := by
  obtain ⟨⟨e, hlookup⟩, hnone⟩ := h.lookup_of_straddles hpos hstraddles
  rw [not_serves_iff, hlookup]
  exact fun hiff => nomatch hiff.2 hnone

theorem not_straddles_zero {a : ℕ} : ¬b.Straddles a 0 := by
  rintro ⟨-, p, -, ⟨hlt, hlt'⟩, henc⟩
  exact henc ⟨by omega, by omega⟩

theorem toNat_toUInt64 (n : UInt8) : n.toUInt64.toNat = n.toNat := rfl

/-- An access is answered exactly if it straddles no range. -/
theorem InPlace.answers_access_iff (h : b.InPlace) (hcache : b.CacheRegistered) (access : Access)
    (n : UInt8) (val : UInt64) :
    b.registered.Answers (.access access addr n val) (.access (b.access access addr n val).1) ↔
      ¬b.Straddles addr.toNat n.toNat := by
  rw [h.access_fst hcache]
  rcases Nat.eq_zero_or_pos n.toNat with hzero | hpos
  · rw [hzero]
    refine iff_of_true (fun hlt => ?_) not_straddles_zero
    have hlt := UInt8.lt_iff_toNat_lt.1 hlt
    omega
  rw [← toNat_toUInt64] at hpos ⊢
  constructor
  · intro hanswers hstraddles
    obtain ⟨call, hcall, -, hnone⟩ := hanswers (UInt8.lt_iff_toNat_lt.2 hpos)
    rw [← Answer.access.inj hcall, Option.map_eq_none_iff] at hnone
    exact h.not_none_iff_of_straddles hpos hstraddles hnone
  · intro hstraddles _
    refine ⟨_, rfl, fun d off => ?_, ?_⟩
    · rw [← toNat_toUInt64, serves_iff]
      constructor
      · rintro ⟨x, hx, rfl, rfl, -⟩
        obtain ⟨e, hlookup, rfl⟩ := Option.map_eq_some_iff.1 hx
        obtain ⟨he, henc⟩ := (h.lookup_eq_some_iff hpos hstraddles).1 hlookup
        refine ⟨e, he, rfl, henc, ?_⟩
        have hle := henc.1
        rw [deviceAccess, h.relative, if_neg nofun,
          UInt64.toNat_sub_of_le _ _ (UInt64.le_iff_toNat_le.2 hle)]
        omega
      · rintro ⟨e, he, rfl, henc, hoff⟩
        have hlookup := (h.lookup_eq_some_iff hpos hstraddles).2 ⟨he, henc⟩
        refine ⟨_, Option.map_eq_some_iff.2 ⟨e, hlookup, rfl⟩, rfl, ?_, rfl⟩
        rw [deviceAccess, h.relative, if_neg nofun,
          UInt64.toNat_sub_of_le _ _ (UInt64.le_iff_toNat_le.2 henc.1)]
        omega
    · rw [Option.map_eq_none_iff]
      exact h.lookup_eq_none_iff hpos hstraddles

theorem InPlace.answers_getDeviceAt_iff (h : b.InPlace) :
    b.registered.Answers (.getDeviceAt addr bytes) (.device (b.getDeviceAt addr bytes)) ↔
      ¬b.Straddles addr.toNat bytes.toNat := by
  rw [getDeviceAt]
  rcases Nat.eq_zero_or_pos bytes.toNat with hzero | hpos
  · rw [hzero]
    refine iff_of_true (fun hlt => ?_) not_straddles_zero
    have hlt := UInt64.lt_iff_toNat_lt.1 hlt
    omega
  constructor
  · intro hanswers hstraddles
    obtain ⟨found, hfound, -, hnone⟩ := hanswers (UInt64.lt_iff_toNat_lt.2 hpos)
    rw [← Answer.device.inj hfound, Option.map_eq_none_iff] at hnone
    exact h.not_none_iff_of_straddles hpos hstraddles hnone
  · intro hstraddles _
    refine ⟨_, rfl, fun d => ?_, ?_⟩
    · simp only [Option.map_eq_some_iff, h.lookup_eq_some_iff hpos hstraddles, serves_iff]
      constructor
      · rintro ⟨e, ⟨he, henc⟩, rfl⟩
        have hle := henc.1
        exact ⟨addr.toNat - e.range.begin.toNat, e, he, rfl, henc, by omega⟩
      · rintro ⟨off, e, he, rfl, henc, -⟩
        exact ⟨e, ⟨he, henc⟩, rfl⟩
    · rw [Option.map_eq_none_iff]
      exact h.lookup_eq_none_iff hpos hstraddles

/-! ## Registering -/

theorem mem_registered_iff {p : δ × Range} :
    p ∈ b.registered ↔ ∃ e ∈ b.devices.set, (e.device, e.range) = p := Iff.rfl

theorem InPlace.meets_iff (h : b.InPlace) (he : e ∈ b.devices.set) :
    RangeMap.Meets ⟨addr, bytes⟩ e = true ↔ e.range.begin.toNat < (addr + bytes).toNat ∧
      addr.toNat < e.range.begin.toNat + e.range.size.toNat := by
  have hend : (RangeNode.range e).endAddr.toNat = e.range.begin.toNat + e.range.size.toNat :=
    Range.toNat_endAddr (h.inOrder.bounded e he)
  rw [RangeMap.Meets, decide_eq_true_iff, hend]
  exact and_comm

theorem InPlace.taken_iff (h : b.InPlace) : b.registered.Taken addr bytes ↔
    ∃ e ∈ b.devices.set, RangeMap.Meets ⟨addr, bytes⟩ e = true := by
  constructor
  · rintro ⟨p, ⟨e, he, heq⟩, htaken⟩
    rw [← heq] at htaken
    exact ⟨e, he, (h.meets_iff he).2 htaken⟩
  · rintro ⟨e, he, hmeets⟩
    exact ⟨_, mem_registered he, (h.meets_iff he).1 hmeets⟩

/-- **A device is registered exactly if there is room for it.** -/
theorem InPlace.refines_registerDevice (h : b.InPlace) (hcache : b.CacheRegistered) (d : δ)
    (allocated : Bool) : b.Refines (.registerDevice d addr bytes allocated) := by
  by_cases hwraps : addr + bytes ≤ addr
  · have heq : b.registerDevice d addr bytes allocated = (false, b) := if_pos hwraps
    refine ⟨.inr ?_, ?_, ?_, ?_⟩
    · exact ⟨by rw [exec, heq], fun hlt => absurd hwraps (UInt64.not_le.2 hlt)⟩
    · rw [Bus.next, exec, heq]
      rfl
    · rw [exec, heq, exec, Bus.registerDevice, if_pos hwraps]
    · rw [Bus.next, exec, heq]
      exact hcache
  cases allocated with
  | false =>
      have heq : b.registerDevice d addr bytes false = (false, b) := by
        rw [Bus.registerDevice, if_neg hwraps]
        rfl
      refine ⟨.inr ?_, ?_, ?_, ?_⟩
      · exact ⟨by rw [exec, heq], nofun⟩
      · rw [Bus.next, exec, heq]
        rfl
      · rw [exec, heq, exec, Bus.registerDevice, if_neg hwraps]
        rfl
      · rw [Bus.next, exec, heq]
        exact hcache
  | true =>
      obtain ⟨entry, hentry⟩ : ∃ entry : DeviceEntry δ, entry = ⟨d, ⟨addr, bytes⟩, b.heap⟩ :=
        ⟨_, rfl⟩
      have heq : b.registerDevice d addr bytes true = ((b.devices.insert entry).2,
          { b with devices := (b.devices.insert entry).1, heap := b.heap + 1 }) := by
        rw [Bus.registerDevice, if_neg hwraps, hentry]
        rfl
      have huncached : (b.exec (.registerDevice d addr bytes true)).1 =
          ({ b with lastAccess := none }.exec (.registerDevice d addr bytes true)).1 := by
        rw [exec, heq, exec, Bus.registerDevice, if_neg hwraps, hentry]
        rfl
      have hrange : RangeNode.range entry = ⟨addr, bytes⟩ := by rw [hentry]; rfl
      rcases h.inOrder.insert_cases entry with ⟨pre, post, hset, hins, hpre, hpost⟩ | ⟨hmeets, hins⟩
      · rw [hins] at heq
        refine ⟨.inl ⟨by rw [exec, heq], UInt64.not_le.1 hwraps, rfl, fun htaken => ?_⟩, ?_,
          huncached, ?_⟩
        · -- the set lies before the range and behind it
          obtain ⟨e, he, hmeets⟩ := h.taken_iff.1 htaken
          rw [RangeMap.Meets, decide_eq_true_iff, ← hrange] at hmeets
          rw [hset] at he
          rcases List.mem_append.1 he with he | he
          · exact absurd hmeets.1 (Nat.not_lt.2 (hpre e he))
          · exact absurd hmeets.2 (Nat.not_lt.2 (hpost e he))
        · rw [Bus.next, exec, heq]
          ext p
          simp only [mem_registered_iff, AddressSpace.after, Set.mem_insert_iff, hset,
            List.mem_append, List.mem_cons, or_and_right, exists_or, exists_eq_left, hentry]
          rw [@eq_comm _ p]
          exact or_left_comm
        · intro e he
          rw [Bus.next, exec, heq] at he ⊢
          have hmem := hcache e he
          rw [hset] at hmem
          rcases List.mem_append.1 hmem with hmem | hmem
          · exact List.mem_append_left _ hmem
          · exact List.mem_append_right _ (List.mem_cons_of_mem _ hmem)
      · rw [hins] at heq
        rw [hrange] at hmeets
        refine ⟨.inr ⟨by rw [exec, heq], fun _ _ => h.taken_iff.2 hmeets⟩, ?_, huncached, ?_⟩
        · rw [Bus.next, exec, heq]
          rfl
        · rw [Bus.next, exec, heq]
          exact hcache

/-- An entry that is taken out is not left elsewhere in the set. -/
theorem InPlace.mem_rest_iff (h : b.InPlace) {pre post : List (DeviceEntry δ)}
    {f : DeviceEntry δ} (hset : b.devices.set = pre ++ f :: post) :
    e ∈ pre ++ post ↔ e ∈ b.devices.set ∧ e ≠ f := by
  have hf : f ∈ b.devices.set := by rw [hset]; simp
  have hlt : (RangeNode.range f).begin.toNat < (RangeNode.range f).endAddr.toNat := by
    rw [Range.toNat_endAddr (h.inOrder.bounded f hf)]
    exact Nat.lt_add_of_pos_right (h.size_pos f hf)
  have hpair := h.inOrder.pairwise
  rw [hset, List.pairwise_append] at hpair
  have hpre : f ∉ pre := fun hmem =>
    absurd (hpair.2.2 f hmem f List.mem_cons_self) (Nat.not_le.2 hlt)
  have hpost : f ∉ post := fun hmem =>
    absurd ((List.pairwise_cons.1 hpair.2.1).1 f hmem) (Nat.not_le.2 hlt)
  rw [hset, List.mem_append, List.mem_append, List.mem_cons]
  constructor
  · rintro (he | he)
    · exact ⟨.inl he, fun heq => hpre (heq ▸ he)⟩
    · exact ⟨.inr (.inr he), fun heq => hpost (heq ▸ he)⟩
  · rintro ⟨he | he | he, hne⟩
    · exact .inl he
    · exact absurd he hne
    · exact .inr he

/-- The entry that is taken out is at the lowest range that the request meets. -/
theorem InPlace.lowest_iff (h : b.InPlace) {f : DeviceEntry δ} (he : e ∈ b.devices.set)
    (hf : b.devices.lookup ⟨addr, bytes⟩ = some f) :
    b.registered.Lowest addr bytes (e.device, e.range) ↔ e = f := by
  obtain ⟨hmem, hmeets, hfirst⟩ := h.inOrder.first_of_lookup hf
  have hlt : f.range.begin.toNat < (RangeNode.range f).endAddr.toNat := by
    rw [Range.toNat_endAddr (h.inOrder.bounded f hmem)]
    exact Nat.lt_add_of_pos_right (h.size_pos f hmem)
  constructor
  · rintro ⟨hmeets', hlowest⟩
    rcases hfirst e he ((h.meets_iff he).2 hmeets') with heq | hle
    · exact heq
    · have hle : _ ≤ e.range.begin.toNat := hle
      have := hlowest _ (mem_registered hmem) ((h.meets_iff hmem).1 hmeets)
      dsimp only at this
      omega
  · rintro rfl
    refine ⟨(h.meets_iff he).1 hmeets, ?_⟩
    rintro p ⟨x, hx, rfl⟩ hmeets'
    rcases hfirst x hx ((h.meets_iff hx).2 hmeets') with rfl | hle
    · exact Nat.le_refl _
    · exact Nat.le_trans (Nat.le_of_lt hlt) hle

/-- **A device is unregistered** with the lowest range that the request meets. -/
theorem InPlace.refines_unregisterDevice (h : b.InPlace) (hcache : b.CacheRegistered) :
    b.Refines (.unregisterDevice addr bytes) := by
  rcases b.devices.remove_cases ⟨addr, bytes⟩ with ⟨hnone, heq⟩ | ⟨f, pre, post, hf, hset, heq⟩
  · refine ⟨rfl, ?_, rfl, ?_⟩
    · ext p
      have hregistered : (b.next (.unregisterDevice addr bytes)).registered = b.registered := by
        rw [Bus.next, exec, Bus.unregisterDevice, registered, heq]
        rfl
      rw [hregistered]
      refine (and_iff_left_of_imp ?_).symm
      rintro ⟨e, he, rfl⟩ ⟨hmeets, -⟩
      rw [h.inOrder.lookup_eq, List.find?_eq_none] at hnone
      exact hnone e he ((h.meets_iff he).2 hmeets)
    · intro e he
      rw [Bus.next, exec, Bus.unregisterDevice, heq]
      dsimp only [Bus.next, exec, Bus.unregisterDevice] at he
      split_ifs at he
      exact hcache e he
  · have hdevices : (b.next (.unregisterDevice addr bytes)).devices.set = pre ++ post := by
      rw [Bus.next, exec, Bus.unregisterDevice, heq]
    refine ⟨rfl, ?_, rfl, ?_⟩
    · ext p
      rw [mem_registered_iff, hdevices]
      constructor
      · rintro ⟨e, he, rfl⟩
        obtain ⟨he, hne⟩ := (h.mem_rest_iff hset).1 he
        exact ⟨mem_registered he, fun hlowest => hne ((h.lowest_iff he hf).1 hlowest)⟩
      · rintro ⟨⟨e, he, rfl⟩, hlowest⟩
        refine ⟨e, (h.mem_rest_iff hset).2 ⟨he, fun heq => hlowest ?_⟩, rfl⟩
        exact (h.lowest_iff he hf).2 heq
    · intro e he
      rw [hdevices, h.mem_rest_iff hset]
      have hremoved : (b.devices.remove ⟨addr, bytes⟩).2 = some f := hf
      dsimp only [Bus.next, exec, Bus.unregisterDevice] at he
      rw [hremoved] at he
      split_ifs at he with hptr
      refine ⟨hcache e he, fun heq => hptr ?_⟩
      rw [he, heq]

/-! ## Refinement -/

/-- The ranges are in order, and the last access is to an entry that is registered. -/
structure Sound (b : Bus δ) : Prop extends b.InPlace where
  cacheRegistered : b.CacheRegistered

/-- An access leaves the last access at an entry that it found. -/
theorem Sound.access (h : b.Sound) (access : Access) (n : UInt8) (val : UInt64) :
    (b.access access addr n val).2.devices = b.devices ∧
      (b.access access addr n val).2.CacheRegistered := by
  rw [Bus.access]
  by_cases hwraps : addr + n.toUInt64 ≤ addr
  · rw [if_pos hwraps]
    exact ⟨rfl, h.cacheRegistered⟩
  rw [if_neg hwraps, h.findEntry_eq h.cacheRegistered hwraps]
  rcases h.lookup_cases hwraps with ⟨hnone, -⟩ | ⟨e, he, hsome, -⟩
  · rw [hnone]
    exact ⟨rfl, h.cacheRegistered⟩
  · rw [hsome]
    exact ⟨rfl, fun x hx => Option.some.inj hx ▸ he⟩

/-- **A call refines the address space exactly if it suits.** -/
theorem Sound.refines_iff_suits (h : b.Sound) (c : Call δ) : b.Refines c ↔ b.Suits c := by
  cases c with
  | registerDevice d addr bytes allocated =>
      exact iff_of_true (h.refines_registerDevice h.cacheRegistered d allocated) trivial
  | unregisterDevice addr bytes =>
      exact iff_of_true (h.refines_unregisterDevice h.cacheRegistered) trivial
  | deinit =>
      constructor
      · intro hrefines
        rw [Suits, Option.eq_none_iff_forall_ne_some]
        exact fun e he => nomatch hrefines.cacheRegistered e he
      · intro hnone
        refine ⟨rfl, ?_, rfl, fun e he => absurd (hnone.symm.trans he) nofun⟩
        ext p
        exact iff_of_false nofun nofun
  | access access addr n val =>
      refine ⟨fun hrefines => (h.answers_access_iff h.cacheRegistered access n val).1
        hrefines.answers, fun hsuits => ?_⟩
      obtain ⟨hdevices, hcache⟩ := @Sound.access δ b addr h access n val
      refine ⟨(h.answers_access_iff h.cacheRegistered access n val).2 hsuits, ?_, ?_, hcache⟩
      · rw [registered, Bus.next, exec, hdevices]
        rfl
      · have hempty : ({ b with lastAccess := none } : Bus δ).InPlace :=
          ⟨h.inOrder, h.size_pos, h.relative⟩
        rw [exec, exec, h.access_fst h.cacheRegistered, hempty.access_fst nofun]
        rfl
  | getDeviceAt addr size =>
      refine ⟨fun hrefines => h.answers_getDeviceAt_iff.1 hrefines.answers, fun hsuits => ?_⟩
      exact ⟨h.answers_getDeviceAt_iff.2 hsuits, rfl, rfl, h.cacheRegistered⟩

theorem Sound.next (h : b.Sound) (c : Call δ) (hsuits : b.Suits c) : (b.next c).Sound :=
  ⟨h.toInPlace.next c, ((h.refines_iff_suits c).2 hsuits).cacheRegistered⟩

theorem sound_init (space : Space) (trace : Bool) :
    ({ space := space, trace := trace } : Bus δ).Sound :=
  ⟨⟨RangeMap.inOrder_clear, nofun, rfl⟩, nofun⟩

/-- **A run of calls refines the address space** exactly if every call suits: no access straddles a
range that is registered, and the bus is not cleared while it has a last access. -/
theorem refines_iff (space : Space) (trace : Bool) (calls : List (Call δ)) :
    AllOk Bus.next Refines { space := space, trace := trace } calls ↔
      AllOk Bus.next Suits { space := space, trace := trace } calls :=
  (@allOk_congr _ _ Bus.next Suits Refines Sound (fun _ c h => h.next c)
    (fun _ c h => (h.refines_iff_suits c).symm) _ _ (sound_init space trace)).symm

/-- A device is registered at the page from `0x1000` and accessed, and the bus is cleared. -/
def accessAndClear : List (Call ℕ) :=
  [.registerDevice 7 0x1000 0x1000 true, .access .read 0x1004 4 0, .deinit]

/-- Two devices are registered at the pages from `0x1000` and from `0x2000`. -/
def twoDevices : List (Call ℕ) :=
  [.registerDevice 7 0x1000 0x1000 true, .registerDevice 8 0x2000 0x1000 true]

/-- The access after that goes to the device, though nothing is registered. And an access that
begins in one page and ends in the next goes to the device of the first. -/
theorem stale_and_straddling :
    ((accessAndClear.foldl Bus.next {}).exec (.access .read 0x1004 4 0)).1 =
        .access (some ⟨7, .read, .allMem, 4, 4, 0⟩) ∧
      (accessAndClear.foldl Bus.next {}).devices.set = [] ∧
      ((twoDevices.foldl Bus.next {}).exec (.access .read 0x1ffe 4 0)).1 =
        .access (some ⟨7, .read, .allMem, 0xffe, 4, 0⟩) ∧
      ¬AllOk Bus.next Refines {} accessAndClear ∧
      ¬AllOk Bus.next Refines {} (twoDevices ++ [.access .read 0x1ffe 4 0]) := by
  refine ⟨by decide, by decide, by decide, fun h => ?_, fun h => ?_⟩
  · have hcache := h.2.2.1.cacheRegistered ⟨7, ⟨0x1000, 0x1000⟩, 0⟩ (by decide)
    exact absurd hcache (by decide)
  · obtain ⟨call, hcall, hserves, -⟩ := h.2.2.1.answers (by decide)
    obtain ⟨r, ⟨e, he, heq⟩, -, hoff, hsize⟩ := (hserves 7 0xffe).1
      ⟨⟨7, .read, .allMem, 0xffe, 4, 0⟩, (Answer.access.inj hcall).symm.trans (by decide),
        rfl, rfl, rfl⟩
    have hset : (twoDevices.foldl Bus.next {}).devices.set =
        [⟨7, ⟨0x1000, 0x1000⟩, 0⟩, ⟨8, ⟨0x2000, 0x1000⟩, 1⟩] := by decide
    obtain ⟨-, rfl⟩ := Prod.mk.inj heq
    rcases List.mem_pair.1 (hset ▸ he) with rfl | rfl
    · exact absurd hsize (by decide)
    · exact absurd hoff (by decide)

end Bus

end Vbus

end Vml
