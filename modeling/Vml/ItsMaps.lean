import Vml.GuestTables

/-!
# The maps of the ITS

MAPD, MAPC, MAPTI and MOVI are there to keep two maps: one from the events of the devices to LPIs
and collections, and one from collections to redistributors (`AbstractIts`). The ITS keeps them in
three tables in the memory of the guest (`gits.cpp`), and puts the tables together when an MSI
arrives.

**The tables** are those of the guest: they can be read and written and have no byte in common, and
the identifiers of a command are in them (`ItsSys.Given`).

**The relation** (`Represents`) says how the tables stand for the maps. The entry of an event may
name another collection than its map does. This is so after a MOVI between two collections that are
mapped to the same redistributor, for which `handle_movi` leaves the entry alone. As long as the two
are mapped to the same redistributor nothing is to be seen of it.

**The condition** (`ItsSys.Follows`) under which a command keeps the relation is, for MAPC, that no
event that was left behind has its collection mapped away from the one of its entry. The others are
about what stands for nothing in a table: a translation table at the address 0 or one that is not of
zeros, an entry of 0, and a collection whose entry was never written. The number of a redistributor
has to fit into a byte.

Main results: `ItsSys.msi_follows_maps` and `ItsSys.movi_left_behind`.
-/

namespace Vml

/-! ## The commands -/

/-- A command that changes the tables. -/
inductive TableCommand
  | movi (devId eventId : UInt32) (icid : UInt16)
  | mapd (valid : Bool) (devId : UInt32) (ittAddr : UInt64) (ittSize : UInt8)
  | mapc (valid : Bool) (rdBase : UInt32) (icid : UInt16)
  | mapti (devId eventId pintid : UInt32) (icid : UInt16)

/-- The command in the words of the queue, if it is one of them. -/
def TableCommand.ofWords (q0 q1 q2 : UInt64) : Option TableCommand :=
  let cmdType := q0 &&& 0xf
  let devId := (q0 >>> 32).toUInt32
  let mapdSize := (q1 &&& 0x1f).toUInt8
  let eventId := q1.toUInt32
  let pintid := (q1 >>> 32).toUInt32
  let icid := q2.toUInt16
  let rdBase := (q2 >>> 16).toUInt32
  let ittAddr := q2 &&& 0xFFFFFFFFFFF00
  let valid := q2 >>> 63 != 0
  if cmdType = 0x01 then some (.movi devId eventId icid)
  else if cmdType = 0x08 then some (.mapd valid devId ittAddr mapdSize)
  else if cmdType = 0x09 then some (.mapc valid rdBase icid)
  else if cmdType = 0x0a then some (.mapti devId eventId pintid icid)
  else none

namespace ItsSys

/-- What the ITS does for the command. -/
def execTable (s : ItsSys) : TableCommand → Option ItsSys
  | .movi devId eventId icid => some (s.handleMovi devId eventId icid)
  | .mapd valid devId ittAddr ittSize => s.handleMapd valid devId ittAddr ittSize
  | .mapc valid rdBase icid => some (s.handleMapc valid rdBase icid)
  | .mapti devId eventId pintid icid => some (s.handleMapti devId eventId pintid icid)

theorem handleCommand_ofWords (s : ItsSys) {q0 q1 q2 : UInt64} {c : TableCommand}
    (h : TableCommand.ofWords q0 q1 q2 = some c) : s.handleCommand q0 q1 q2 = s.execTable c := by
  rw [TableCommand.ofWords] at h
  rw [handleCommand]
  by_cases hmovi : q0 &&& 0xf = 0x01
  · rw [if_pos hmovi, Option.some.injEq] at h
    rw [if_pos hmovi, ← h]
    rfl
  rw [if_neg hmovi] at h
  rw [if_neg hmovi]
  by_cases hmapd : q0 &&& 0xf = 0x08
  · rw [if_pos hmapd, Option.some.injEq] at h
    rw [if_neg (by rw [hmapd]; decide), if_pos hmapd, ← h]
    rfl
  rw [if_neg hmapd] at h
  by_cases hmapc : q0 &&& 0xf = 0x09
  · rw [if_pos hmapc, Option.some.injEq] at h
    rw [if_neg (by rw [hmapc]; decide), if_neg hmapd, if_pos hmapc, ← h]
    rfl
  rw [if_neg hmapc] at h
  by_cases hmapti : q0 &&& 0xf = 0x0a
  · rw [if_pos hmapti, Option.some.injEq] at h
    rw [if_neg (by rw [hmapti]; decide), if_neg hmapd, if_neg hmapc, if_pos hmapti, ← h]
    rfl
  · rw [if_neg hmapti] at h
    cases h

end ItsSys

/-! ## What the commands are for -/

/-- The maps. -/
structure AbstractIts where
  /-- The events of a device, if it is mapped: the LPI and the collection of an event. -/
  events : UInt32 → Option (UInt32 → Option (UInt32 × UInt16))
  /-- The redistributor of a collection. -/
  collections : UInt16 → Option UInt32

namespace AbstractIts

/-- Nothing is mapped. -/
def empty : AbstractIts := ⟨fun _ => none, fun _ => none⟩

/-- The LPI and the collection of an event. -/
def lookup (a : AbstractIts) (devId eventId : UInt32) : Option (UInt32 × UInt16) :=
  (a.events devId).bind fun events => events eventId

/-- The LPI and the redistributor of an event. -/
def route (a : AbstractIts) (devId eventId : UInt32) : Option (ℕ × ℕ) :=
  (a.lookup devId eventId).bind fun p =>
    (a.collections p.2).map fun rdBase => (p.1.toNat, rdBase.toNat)

/-- The events of a device that is mapped change. -/
def modifyEvents (a : AbstractIts) (devId : UInt32)
    (f : (UInt32 → Option (UInt32 × UInt16)) → UInt32 → Option (UInt32 × UInt16)) : AbstractIts :=
  { a with events := Function.update a.events devId ((a.events devId).map f) }

/-- MAPD gives a device a table without events, or takes it away. MAPC maps a collection, or does
away with it. MAPTI maps an event, and MOVI moves one that is mapped to another collection. -/
def step (a : AbstractIts) : TableCommand → AbstractIts
  | .movi devId eventId icid => a.modifyEvents devId fun events =>
      Function.update events eventId ((events eventId).map fun p => (p.1, icid))
  | .mapd valid devId _ _ =>
      { a with events :=
          Function.update a.events devId (if valid then some fun _ => none else none) }
  | .mapc valid rdBase icid =>
      { a with collections :=
          Function.update a.collections icid (if valid then some rdBase else none) }
  | .mapti devId eventId pintid icid => a.modifyEvents devId fun events =>
      Function.update events eventId (some (pintid, icid))

/-- An MSI asserts the LPI on the redistributor that the maps give for the event. There is nothing
to do if they give none. -/
def deliver (a : AbstractIts) (s : ItsSys) (devId eventId : UInt32) : Option ItsSys :=
  match a.route devId eventId with
  | none => some s
  | some (pintid, targetCpu) => (s.gic.assertLpi s.bus pintid targetCpu).map ({ s with gic := · })

end AbstractIts

/-! ## The tables of the guest -/

/-- How many entries the tables have. The identifiers of a command are below them. -/
structure TableExtents where
  devices : ℕ
  collections : ℕ
  events : ℕ
  devices_le : devices ≤ 2 ^ 32
  collections_le : collections ≤ 2 ^ 16
  events_le : events ≤ 2 ^ 32

namespace ItsSys

/-- The entry of a device. -/
def deviceEntry (s : ItsSys) (devId : UInt32) : UInt64 := s.its.readDeviceTable s.bus devId

/-- The entry of a collection. -/
def collectionEntry (s : ItsSys) (icid : UInt16) : UInt64 := s.its.readCollectionTable s.bus icid

/-- The entry of an event in a translation table. -/
def ittEntryAt (s : ItsSys) (ittBase : UInt64) (eventId : UInt32) : UInt64 :=
  Gits.readTranslationTable s.bus ittBase eventId

/-- The entry of an event of a device. -/
def eventEntry (s : ItsSys) (devId eventId : UInt32) : UInt64 :=
  s.ittEntryAt (s.deviceEntry devId) eventId

/-- The bytes of the device table, which begins with the entry of device 0. -/
def deviceTable (s : ItsSys) (x : TableExtents) : Set UInt64 :=
  GuestBus.table (s.its.deviceEntryAddr 0) x.devices

/-- The bytes of the collection table. -/
def collectionTable (s : ItsSys) (x : TableExtents) : Set UInt64 :=
  GuestBus.table (s.its.collectionEntryAddr 0) x.collections

/-- The device table and the collection table can be read and written, and are disjoint. -/
structure Tables (s : ItsSys) (x : TableExtents) : Prop where
  devices : ∀ devId : UInt32, devId.toNat < x.devices →
    s.bus.Accessible (s.its.deviceEntryAddr devId)
  collections : ∀ icid : UInt16, icid.toNat < x.collections →
    s.bus.Accessible (s.its.collectionEntryAddr icid)
  disjoint : Disjoint (s.deviceTable x) (s.collectionTable x)

/-- A translation table can be read and written, and is disjoint from the two. -/
structure Translation (s : ItsSys) (x : TableExtents) (ittBase : UInt64) : Prop where
  events : ∀ eventId : UInt32, eventId.toNat < x.events →
    s.bus.Accessible (Gits.ittEntryAddr ittBase eventId)
  devices : Disjoint (GuestBus.table ittBase x.events) (s.deviceTable x)
  collections : Disjoint (GuestBus.table ittBase x.events) (s.collectionTable x)

/-- A translation table that can be handed over for a device: it is disjoint from those of the
other devices. -/
structure HandedOver (s : ItsSys) (x : TableExtents) (devId : UInt32) (ittAddr : UInt64) :
    Prop where
  translation : s.Translation x ittAddr
  disjoint : ∀ other : UInt32, other.toNat < x.devices → other ≠ devId → s.deviceEntry other ≠ 0 →
    Disjoint (GuestBus.table ittAddr x.events) (GuestBus.table (s.deviceEntry other) x.events)

/-- The command is one for the tables of the guest. -/
def Given (s : ItsSys) (x : TableExtents) : TableCommand → Prop
  | .movi devId eventId icid | .mapti devId eventId _ icid =>
      devId.toNat < x.devices ∧ eventId.toNat < x.events ∧ icid.toNat < x.collections
  | .mapd valid devId ittAddr _ =>
      devId.toNat < x.devices ∧ (valid = true → s.HandedOver x devId ittAddr)
  | .mapc _ _ icid => icid.toNat < x.collections

/-! ## The condition -/

/-- Where the table sends the events of a collection is where the map does: the collection is
mapped to a number of a byte, or its entry says that it is not mapped. -/
def Sends (s : ItsSys) (a : AbstractIts) (icid : UInt16) : Prop :=
  (∃ rdBase, a.collections icid = some rdBase ∧ rdBase.toNat < 256) ∨
    a.collections icid = none ∧ s.collectionEntry icid = -1

/-- The condition under which a command does to the tables what it does to the maps.

The table that is handed over with MAPD has no event, and is not at the address 0. A MAPC may not
change the redistributor of a collection that an event is in by one of the two, the map and the
table, and not by the other. -/
def Follows (s : ItsSys) (x : TableExtents) (a : AbstractIts) : TableCommand → Prop
  | .mapd valid _ ittAddr _ => valid = true → ittAddr ≠ 0 ∧
      ∀ eventId : UInt32, eventId.toNat < x.events → s.ittEntryAt ittAddr eventId = 0
  | .mapc valid rdBase icid => ∀ devId eventId : UInt32, devId.toNat < x.devices →
      eventId.toNat < x.events → ∀ pintid own, a.lookup devId eventId = some (pintid, own) →
      icid = own ∨ icid = Gits.icidOf (s.eventEntry devId eventId) →
      (valid = true → rdBase.toNat < 256) ∧
        (own ≠ Gits.icidOf (s.eventEntry devId eventId) →
          (if valid then some rdBase else none) = a.collections own)
  | .mapti devId _ pintid icid => a.events devId ≠ none →
      Gits.ittEntry icid pintid ≠ 0 ∧ s.Sends a icid
  | .movi devId eventId icid => ∀ pintid own, a.lookup devId eventId = some (pintid, own) →
      Gits.ittEntry icid pintid ≠ 0 ∧ s.Sends a icid

/-! ## The relation -/

/-- The vCPU that the entry of a collection sends an event to. -/
def target (s : ItsSys) (icid : UInt16) : Option ℕ :=
  if s.collectionEntry icid = -1 then none else some (s.collectionEntry icid).toUInt8.toNat

/-- The entry stands for what is known of the event. -/
def EntryOf (s : ItsSys) (x : TableExtents) (a : AbstractIts) (entry : UInt64) :
    Option (UInt32 × UInt16) → Prop
  | none => entry = 0
  | some (pintid, icid) => entry ≠ 0 ∧ Gits.pintidOf entry = pintid ∧ icid.toNat < x.collections ∧
      (Gits.icidOf entry).toNat < x.collections ∧
      s.target (Gits.icidOf entry) = (a.collections icid).map UInt32.toNat

/-- The tables stand for the maps. -/
structure Represents (s : ItsSys) (x : TableExtents) (a : AbstractIts) : Prop where
  tables : s.Tables x
  unmapped : ∀ devId : UInt32, devId.toNat < x.devices → a.events devId = none →
    s.deviceEntry devId = 0
  mapped : ∀ devId : UInt32, devId.toNat < x.devices → a.events devId ≠ none →
    s.deviceEntry devId ≠ 0 ∧ s.Translation x (s.deviceEntry devId)
  disjoint : ∀ devId other : UInt32, devId.toNat < x.devices → other.toNat < x.devices →
    devId ≠ other → s.deviceEntry devId ≠ 0 → s.deviceEntry other ≠ 0 →
    Disjoint (GuestBus.table (s.deviceEntry devId) x.events)
      (GuestBus.table (s.deviceEntry other) x.events)
  event : ∀ devId : UInt32, devId.toNat < x.devices → ∀ events, a.events devId = some events →
    ∀ eventId : UInt32, eventId.toNat < x.events →
      s.EntryOf x a (s.eventEntry devId eventId) (events eventId)
  collection : ∀ icid : UInt16, icid.toNat < x.collections → ∀ rdBase,
    a.collections icid = some rdBase → s.collectionEntry icid = rdBase.toUInt64

/-! ## An entry is written -/

variable {s t : ItsSys} {x : TableExtents} {a : AbstractIts}

/-- An entry of a table is written. -/
def writeEntry (s : ItsSys) (addr value : UInt64) : ItsSys :=
  { s with bus := s.bus.write64 addr value }

theorem Tables.writeEntry (h : s.Tables x) (addr value : UInt64) :
    (s.writeEntry addr value).Tables x where
  devices devId hdev := GuestBus.accessible_write64.2 (h.devices devId hdev)
  collections icid hicid := GuestBus.accessible_write64.2 (h.collections icid hicid)
  disjoint := h.disjoint

theorem Translation.writeEntry {ittBase : UInt64} (h : s.Translation x ittBase)
    (addr value : UInt64) : (s.writeEntry addr value).Translation x ittBase where
  events eventId hev := GuestBus.accessible_write64.2 (h.events eventId hev)
  devices := h.devices
  collections := h.collections

theorem id32_lt (i : UInt32) : i.toUInt64.toNat < 2 ^ 60 := by
  rw [UInt32.toNat_toUInt64]
  exact i.toNat_lt.trans (by decide)

theorem id16_lt (i : UInt16) : i.toUInt64.toNat < 2 ^ 60 := by
  rw [UInt16.toNat_toUInt64]
  exact i.toNat_lt.trans (by decide)

/-! ### The bytes of the entries -/

theorem word_device (its : Gits) {devId : UInt32} {n : ℕ} (hdev : devId.toNat < n)
    (hn : n ≤ 2 ^ 32) :
    GuestBus.word (its.deviceEntryAddr devId) ⊆ GuestBus.table (its.deviceEntryAddr 0) n := by
  have haddr : its.deviceEntryAddr devId = its.deviceEntryAddr 0 + devId.toUInt64 * 8 := by
    have hzero : (0 : UInt32).toUInt64 * Gits.entrySize = 0 := rfl
    rw [Gits.deviceEntryAddr, Gits.deviceEntryAddr, hzero, UInt64.add_zero]
    rfl
  rw [haddr]
  exact GuestBus.word_subset_table (by rwa [UInt32.toNat_toUInt64]) (hn.trans (by decide))

theorem word_collection (its : Gits) {icid : UInt16} {n : ℕ} (hicid : icid.toNat < n)
    (hn : n ≤ 2 ^ 16) :
    GuestBus.word (its.collectionEntryAddr icid) ⊆
      GuestBus.table (its.collectionEntryAddr 0) n := by
  have haddr : its.collectionEntryAddr icid = its.collectionEntryAddr 0 + icid.toUInt64 * 8 := by
    have hzero : (0 : UInt16).toUInt64 * Gits.entrySize = 0 := rfl
    rw [Gits.collectionEntryAddr, Gits.collectionEntryAddr, hzero, UInt64.add_zero]
    rfl
  rw [haddr]
  exact GuestBus.word_subset_table (by rwa [UInt16.toNat_toUInt64]) (hn.trans (by decide))

theorem word_event (ittBase : UInt64) {eventId : UInt32} {n : ℕ} (hev : eventId.toNat < n)
    (hn : n ≤ 2 ^ 32) :
    GuestBus.word (Gits.ittEntryAddr ittBase eventId) ⊆ GuestBus.table ittBase n :=
  GuestBus.word_subset_table (by rwa [UInt32.toNat_toUInt64]) (hn.trans (by decide))

/-! ### The device table -/

section Device

variable {devId : UInt32} (value : UInt64)

theorem deviceEntry_device (h : s.Tables x) (hdev : devId.toNat < x.devices) :
    (s.writeEntry (s.its.deviceEntryAddr devId) value).deviceEntry devId = value :=
  congrArg (Option.getD · 0) (GuestBus.read64_write64 (h.devices devId hdev) value)

theorem deviceEntry_device_of_ne {other : UInt32} (hne : other ≠ devId) :
    (s.writeEntry (s.its.deviceEntryAddr devId) value).deviceEntry other = s.deviceEntry other :=
  congrArg (Option.getD · 0) (GuestBus.read64_write64_entry (id32_lt other) (id32_lt devId)
    (fun heq => hne (UInt32.toUInt64_inj.1 heq)) value)

theorem collectionEntry_device (h : s.Tables x) (hdev : devId.toNat < x.devices) {icid : UInt16}
    (hicid : icid.toNat < x.collections) :
    (s.writeEntry (s.its.deviceEntryAddr devId) value).collectionEntry icid =
      s.collectionEntry icid :=
  congrArg (Option.getD · (-1)) (GuestBus.read64_write64_of_disjoint (h.disjoint.symm.mono
    (word_collection _ hicid x.collections_le) (word_device _ hdev x.devices_le)) value)

theorem ittEntryAt_device {ittBase : UInt64} (h : s.Translation x ittBase)
    (hdev : devId.toNat < x.devices) {eventId : UInt32} (hev : eventId.toNat < x.events) :
    (s.writeEntry (s.its.deviceEntryAddr devId) value).ittEntryAt ittBase eventId =
      s.ittEntryAt ittBase eventId :=
  congrArg (Option.getD · 0) (GuestBus.read64_write64_of_disjoint (h.devices.mono
    (word_event _ hev x.events_le) (word_device _ hdev x.devices_le)) value)

end Device

/-! ### The collection table -/

section Collection

variable {icid : UInt16} (value : UInt64)

theorem collectionEntry_collection (h : s.Tables x) (hicid : icid.toNat < x.collections) :
    (s.writeEntry (s.its.collectionEntryAddr icid) value).collectionEntry icid = value :=
  congrArg (Option.getD · (-1)) (GuestBus.read64_write64 (h.collections icid hicid) value)

theorem collectionEntry_collection_of_ne {other : UInt16} (hne : other ≠ icid) :
    (s.writeEntry (s.its.collectionEntryAddr icid) value).collectionEntry other =
      s.collectionEntry other :=
  congrArg (Option.getD · (-1)) (GuestBus.read64_write64_entry (id16_lt other) (id16_lt icid)
    (fun heq => hne (UInt16.toUInt64_inj.1 heq)) value)

theorem deviceEntry_collection (h : s.Tables x) (hicid : icid.toNat < x.collections)
    {devId : UInt32} (hdev : devId.toNat < x.devices) :
    (s.writeEntry (s.its.collectionEntryAddr icid) value).deviceEntry devId =
      s.deviceEntry devId :=
  congrArg (Option.getD · 0) (GuestBus.read64_write64_of_disjoint (h.disjoint.mono
    (word_device _ hdev x.devices_le) (word_collection _ hicid x.collections_le)) value)

theorem ittEntryAt_collection {ittBase : UInt64} (h : s.Translation x ittBase)
    (hicid : icid.toNat < x.collections) {eventId : UInt32} (hev : eventId.toNat < x.events) :
    (s.writeEntry (s.its.collectionEntryAddr icid) value).ittEntryAt ittBase eventId =
      s.ittEntryAt ittBase eventId :=
  congrArg (Option.getD · 0) (GuestBus.read64_write64_of_disjoint (h.collections.mono
    (word_event _ hev x.events_le) (word_collection _ hicid x.collections_le)) value)

end Collection

/-! ### The translation tables -/

section Event

variable {ittBase : UInt64} {eventId : UInt32} (value : UInt64)

theorem ittEntryAt_event (h : s.Translation x ittBase) (hev : eventId.toNat < x.events) :
    (s.writeEntry (Gits.ittEntryAddr ittBase eventId) value).ittEntryAt ittBase eventId = value :=
  congrArg (Option.getD · 0) (GuestBus.read64_write64 (h.events eventId hev) value)

theorem ittEntryAt_event_of_ne {other : UInt32} (hne : other ≠ eventId) :
    (s.writeEntry (Gits.ittEntryAddr ittBase eventId) value).ittEntryAt ittBase other =
      s.ittEntryAt ittBase other :=
  congrArg (Option.getD · 0) (GuestBus.read64_write64_entry (id32_lt other) (id32_lt eventId)
    (fun heq => hne (UInt32.toUInt64_inj.1 heq)) value)

theorem ittEntryAt_event_table {ittBase' : UInt64}
    (h : Disjoint (GuestBus.table ittBase' x.events) (GuestBus.table ittBase x.events))
    (hev : eventId.toNat < x.events) {other : UInt32} (hother : other.toNat < x.events) :
    (s.writeEntry (Gits.ittEntryAddr ittBase eventId) value).ittEntryAt ittBase' other =
      s.ittEntryAt ittBase' other :=
  congrArg (Option.getD · 0) (GuestBus.read64_write64_of_disjoint (h.mono
    (word_event _ hother x.events_le) (word_event _ hev x.events_le)) value)

theorem deviceEntry_event (h : s.Translation x ittBase) (hev : eventId.toNat < x.events)
    {devId : UInt32} (hdev : devId.toNat < x.devices) :
    (s.writeEntry (Gits.ittEntryAddr ittBase eventId) value).deviceEntry devId =
      s.deviceEntry devId :=
  congrArg (Option.getD · 0) (GuestBus.read64_write64_of_disjoint (h.devices.symm.mono
    (word_device _ hdev x.devices_le) (word_event _ hev x.events_le)) value)

theorem collectionEntry_event (h : s.Translation x ittBase) (hev : eventId.toNat < x.events)
    {icid : UInt16} (hicid : icid.toNat < x.collections) :
    (s.writeEntry (Gits.ittEntryAddr ittBase eventId) value).collectionEntry icid =
      s.collectionEntry icid :=
  congrArg (Option.getD · (-1)) (GuestBus.read64_write64_of_disjoint (h.collections.symm.mono
    (word_collection _ hicid x.collections_le) (word_event _ hev x.events_le)) value)

end Event

/-! ## What a command preserves -/

theorem EntryOf.congr {a' : AbstractIts} {entry : UInt64} {o : Option (UInt32 × UInt16)}
    (h : s.EntryOf x a entry o) (hmaps : a'.collections = a.collections)
    (hcollection : ∀ icid : UInt16, icid.toNat < x.collections →
      t.collectionEntry icid = s.collectionEntry icid) : t.EntryOf x a' entry o := by
  cases o with
  | none => exact h
  | some p =>
      obtain ⟨hne, hpintid, hown, hicid, htarget⟩ := h
      refine ⟨hne, hpintid, hown, hicid, ?_⟩
      rw [target, hcollection _ hicid, hmaps]
      exact htarget

theorem Represents.target_eq (h : s.Represents x a) {icid : UInt16}
    (hicid : icid.toNat < x.collections) (hsends : s.Sends a icid) :
    s.target icid = (a.collections icid).map UInt32.toNat := by
  obtain ⟨rdBase, hmap, hbyte⟩ | ⟨hmap, hentry⟩ := hsends
  · rw [target, h.collection icid hicid rdBase hmap, if_neg (rdBase_ne rdBase), hmap,
      Option.map_some, UInt64.toNat_toUInt8, UInt32.toNat_toUInt64, Nat.mod_eq_of_lt hbyte]
  · rw [target, if_pos hentry, hmap]
    rfl

theorem Represents.mapd (h : s.Represents x a) {valid : Bool} {devId : UInt32} {ittAddr : UInt64}
    {ittSize : UInt8} (hgiven : s.Given x (.mapd valid devId ittAddr ittSize))
    (hfollows : s.Follows x a (.mapd valid devId ittAddr ittSize)) :
    (s.writeEntry (s.its.deviceEntryAddr devId) (if valid then ittAddr else 0)).Represents x
      (a.step (.mapd valid devId ittAddr ittSize)) := by
  obtain ⟨hdev, hover⟩ := hgiven
  have hself := deviceEntry_device (if valid then ittAddr else 0) h.tables hdev
  have hothers {d : UInt32} (hne : d ≠ devId) :=
    deviceEntry_device_of_ne (s := s) (if valid then ittAddr else 0) hne
  have hcollection {icid : UInt16} (hicid : icid.toNat < x.collections) :=
    collectionEntry_device (if valid then ittAddr else 0) h.tables hdev hicid
  have hitt {itt : UInt64} (ht : s.Translation x itt) {eventId : UInt32}
      (hev : eventId.toNat < x.events) :=
    ittEntryAt_device (if valid then ittAddr else 0) ht hdev hev
  have hvalid (hne : (if valid then ittAddr else 0) ≠ 0) : valid = true := by
    cases valid with
    | true => rfl
    | false => exact absurd rfl hne
  have hevents : (a.step (.mapd valid devId ittAddr ittSize)).events devId =
      if valid then some fun _ => none else none := Function.update_self ..
  have heventsOf {d : UInt32} (hne : d ≠ devId) :
      (a.step (.mapd valid devId ittAddr ittSize)).events d = a.events d :=
    Function.update_of_ne hne ..
  refine ⟨h.tables.writeEntry _ _, ?_, ?_, ?_, ?_, ?_⟩
  · intro d hd hnone
    by_cases hdd : d = devId
    · subst hdd
      rw [hevents] at hnone
      cases valid with
      | true => cases hnone
      | false => exact hself
    · rw [hothers hdd]
      exact h.unmapped d hd ((heventsOf hdd).symm.trans hnone)
  · intro d hd hsome
    by_cases hdd : d = devId
    · subst hdd
      rw [hevents] at hsome
      rw [hself]
      cases valid with
      | true => exact ⟨(hfollows rfl).1, (hover rfl).translation.writeEntry _ _⟩
      | false => exact absurd rfl hsome
    · rw [hothers hdd]
      obtain ⟨hne, htrans⟩ := h.mapped d hd ((heventsOf hdd).symm.trans_ne hsome)
      exact ⟨hne, htrans.writeEntry _ _⟩
  · intro d other hd hother hne hentry hentry'
    by_cases hdd : d = devId
    · subst hdd
      rw [hself] at hentry ⊢
      rw [hothers hne.symm] at hentry' ⊢
      rw [if_pos (hvalid hentry)]
      exact (hover (hvalid hentry)).disjoint other hother hne.symm hentry'
    · rw [hothers hdd] at hentry ⊢
      by_cases hoo : other = devId
      · subst hoo
        rw [hself] at hentry' ⊢
        rw [if_pos (hvalid hentry')]
        exact ((hover (hvalid hentry')).disjoint d hd hne hentry).symm
      · rw [hothers hoo] at hentry' ⊢
        exact h.disjoint d other hd hother hne hentry hentry'
  · intro d hd events hsome eventId hev
    by_cases hdd : d = devId
    · subst hdd
      rw [hevents] at hsome
      cases valid with
      | true =>
          cases hsome
          rw [eventEntry, hself]
          exact (hitt (hover rfl).translation hev).trans ((hfollows rfl).2 eventId hev)
      | false => cases hsome
    · rw [heventsOf hdd] at hsome
      obtain ⟨-, htrans⟩ := h.mapped d hd (by rw [hsome]; exact Option.some_ne_none events)
      rw [eventEntry, hothers hdd, hitt htrans hev]
      exact (h.event d hd events hsome eventId hev).congr rfl fun icid hicid => hcollection hicid
  · intro icid hicid rdBase hmap
    rw [hcollection hicid]
    exact h.collection icid hicid rdBase hmap

/-- Where the table sends the events of a collection once a MAPC has written its entry. -/
theorem target_mapc (h : s.Tables x) {valid : Bool} {rdBase : UInt32} {icid : UInt16}
    (hicid : icid.toNat < x.collections) (hbyte : valid = true → rdBase.toNat < 256) :
    (s.writeEntry (s.its.collectionEntryAddr icid)
      (if valid then rdBase.toUInt64 else -1)).target icid =
        (if valid then some rdBase else none).map UInt32.toNat := by
  rw [target, collectionEntry_collection _ h hicid]
  cases valid with
  | true =>
      rw [if_pos rfl, if_neg (rdBase_ne rdBase), UInt64.toNat_toUInt8, UInt32.toNat_toUInt64,
        Nat.mod_eq_of_lt (hbyte rfl)]
      rfl
  | false => rfl

/-- The entry of an event still stands for it, as long as a MAPC that maps one of its two
collections maps it to where the other one is mapped to. -/
theorem EntryOf.mapc (htables : s.Tables x) {valid : Bool} {rdBase : UInt32} {icid : UInt16}
    (hicid : icid.toNat < x.collections) {entry : UInt64} {o : Option (UInt32 × UInt16)}
    (h : s.EntryOf x a entry o)
    (hsame : ∀ pintid own, o = some (pintid, own) → icid = own ∨ icid = Gits.icidOf entry →
      (valid = true → rdBase.toNat < 256) ∧
        (own ≠ Gits.icidOf entry → (if valid then some rdBase else none) = a.collections own)) :
    (s.writeEntry (s.its.collectionEntryAddr icid)
      (if valid then rdBase.toUInt64 else -1)).EntryOf x (a.step (.mapc valid rdBase icid))
        entry o := by
  have hmap : (a.step (.mapc valid rdBase icid)).collections icid =
      if valid then some rdBase else none := Function.update_self ..
  have hmapOf {c : UInt16} (hne : c ≠ icid) :
      (a.step (.mapc valid rdBase icid)).collections c = a.collections c :=
    Function.update_of_ne hne ..
  cases o with
  | none => exact h
  | some p =>
      obtain ⟨pintid, own⟩ := p
      obtain ⟨hne, hpintid, hown, hlt, htarget⟩ := h
      refine ⟨hne, hpintid, hown, hlt, ?_⟩
      have hboth := hsame pintid own rfl
      generalize Gits.icidOf entry = named at *
      by_cases hname : named = icid
      · subst hname
        obtain ⟨hbyte, hagree⟩ := hboth (.inr rfl)
        rw [target_mapc htables hicid hbyte]
        by_cases hmoved : own = named
        · subst hmoved
          rw [hmap]
        · rw [hmapOf hmoved, hagree hmoved]
      · rw [target, collectionEntry_collection_of_ne _ hname, ← target, htarget]
        by_cases hmoved : own = icid
        · subst hmoved
          obtain ⟨-, hagree⟩ := hboth (.inl rfl)
          rw [hmap, hagree (Ne.symm hname)]
        · rw [hmapOf hmoved]

theorem Represents.mapc (h : s.Represents x a) {valid : Bool} {rdBase : UInt32} {icid : UInt16}
    (hicid : icid.toNat < x.collections) (hfollows : s.Follows x a (.mapc valid rdBase icid)) :
    (s.writeEntry (s.its.collectionEntryAddr icid)
      (if valid then rdBase.toUInt64 else -1)).Represents x (a.step (.mapc valid rdBase icid)) := by
  have hdevice {devId : UInt32} (hdev : devId.toNat < x.devices) :=
    deviceEntry_collection (if valid then rdBase.toUInt64 else -1) h.tables hicid hdev
  refine ⟨h.tables.writeEntry _ _, ?_, ?_, ?_, ?_, ?_⟩
  · intro d hd hnone
    rw [hdevice hd]
    exact h.unmapped d hd hnone
  · intro d hd hsome
    rw [hdevice hd]
    obtain ⟨hne, htrans⟩ := h.mapped d hd hsome
    exact ⟨hne, htrans.writeEntry _ _⟩
  · intro d other hd hother hne hentry hentry'
    rw [hdevice hd] at hentry ⊢
    rw [hdevice hother] at hentry' ⊢
    exact h.disjoint d other hd hother hne hentry hentry'
  · intro d hd events hsome eventId hev
    change a.events d = some events at hsome
    obtain ⟨-, htrans⟩ := h.mapped d hd (by rw [hsome]; exact Option.some_ne_none events)
    rw [eventEntry, hdevice hd, ittEntryAt_collection _ htrans hicid hev, ← eventEntry]
    refine (h.event d hd events hsome eventId hev).mapc h.tables hicid fun pintid own hevent => ?_
    refine hfollows d eventId hd hev pintid own ?_
    rw [AbstractIts.lookup, hsome]
    exact hevent
  · intro c hc rdBase' hsome
    by_cases hcc : c = icid
    · subst hcc
      have hmap : (a.step (.mapc valid rdBase c)).collections c =
          if valid then some rdBase else none := Function.update_self ..
      rw [hmap] at hsome
      rw [collectionEntry_collection _ h.tables hicid]
      cases valid with
      | true =>
          cases hsome
          rfl
      | false => cases hsome
    · rw [collectionEntry_collection_of_ne _ hcc]
      exact h.collection c hc rdBase' ((Function.update_of_ne hcc ..).symm.trans hsome)

/-- `t` is `s` but for the entry of one event. -/
structure SameButEvent (s t : ItsSys) (x : TableExtents) (a : AbstractIts)
    (devId eventId : UInt32) : Prop where
  tables : t.Tables x
  translation : ∀ ittBase, s.Translation x ittBase → t.Translation x ittBase
  device : ∀ d : UInt32, d.toNat < x.devices → t.deviceEntry d = s.deviceEntry d
  collection : ∀ icid : UInt16, icid.toNat < x.collections →
    t.collectionEntry icid = s.collectionEntry icid
  event : ∀ d : UInt32, d.toNat < x.devices → a.events d ≠ none →
    ∀ e : UInt32, e.toNat < x.events → d ≠ devId ∨ e ≠ eventId →
      t.eventEntry d e = s.eventEntry d e

theorem SameButEvent.refl (h : s.Tables x) (devId eventId : UInt32) :
    s.SameButEvent s x a devId eventId :=
  ⟨h, fun _ h => h, fun _ _ => rfl, fun _ _ => rfl, fun _ _ _ _ _ _ => rfl⟩

/-- The entry of an event of a device that is mapped is written. -/
theorem Represents.writeEvent (h : s.Represents x a) {devId eventId : UInt32}
    (hdev : devId.toNat < x.devices) (hmapped : a.events devId ≠ none)
    (hev : eventId.toNat < x.events) (value : UInt64) :
    s.SameButEvent (s.writeEntry (Gits.ittEntryAddr (s.deviceEntry devId) eventId) value) x a
      devId eventId := by
  obtain ⟨hne, htrans⟩ := h.mapped devId hdev hmapped
  have hdevice {d : UInt32} (hd : d.toNat < x.devices) := deviceEntry_event value htrans hev hd
  refine ⟨h.tables.writeEntry _ _, fun _ ht => ht.writeEntry _ _, fun d hd => hdevice hd,
    fun icid hicid => collectionEntry_event value htrans hev hicid, ?_⟩
  intro d hd hsome e he hother
  rw [eventEntry, hdevice hd, eventEntry]
  by_cases hdd : d = devId
  · subst hdd
    exact ittEntryAt_event_of_ne value (hother.resolve_left fun hfalse => hfalse rfl)
  · obtain ⟨hne', -⟩ := h.mapped d hd hsome
    exact ittEntryAt_event_table value (h.disjoint d devId hd hdev hdd hne' hne) hev he

theorem Represents.modifyEvents (h : s.Represents x a) {devId eventId : UInt32}
    (hdev : devId.toNat < x.devices) {events : UInt32 → Option (UInt32 × UInt16)}
    (hmapped : a.events devId = some events) (ht : s.SameButEvent t x a devId eventId)
    {f : (UInt32 → Option (UInt32 × UInt16)) → UInt32 → Option (UInt32 × UInt16)}
    {o : Option (UInt32 × UInt16)} (hf : f events = Function.update events eventId o)
    (hentry : t.EntryOf x a (t.eventEntry devId eventId) o) :
    t.Represents x (a.modifyEvents devId f) := by
  have hself : (a.modifyEvents devId f).events devId = some (Function.update events eventId o) := by
    rw [← hf, ← Option.map_some, ← hmapped]
    exact Function.update_self ..
  have hothers {d : UInt32} (hne : d ≠ devId) : (a.modifyEvents devId f).events d = a.events d :=
    Function.update_of_ne hne ..
  have hnone {d : UInt32} : (a.modifyEvents devId f).events d = none ↔ a.events d = none := by
    by_cases hdd : d = devId
    · subst hdd
      rw [hself, hmapped]
      exact iff_of_false (Option.some_ne_none _) (Option.some_ne_none _)
    · rw [hothers hdd]
  refine ⟨ht.tables, ?_, ?_, ?_, ?_, ?_⟩
  · intro d hd hunmapped
    rw [ht.device d hd]
    exact h.unmapped d hd (hnone.1 hunmapped)
  · intro d hd hsome
    rw [ht.device d hd]
    obtain ⟨hne, htrans⟩ := h.mapped d hd fun heq => hsome (hnone.2 heq)
    exact ⟨hne, ht.translation _ htrans⟩
  · intro d other hd hother hne hentry hentry'
    rw [ht.device d hd] at hentry ⊢
    rw [ht.device other hother] at hentry' ⊢
    exact h.disjoint d other hd hother hne hentry hentry'
  · intro d hd events' hsome e he
    by_cases hdd : d = devId
    · subst hdd
      cases hself.symm.trans hsome
      by_cases hee : e = eventId
      · subst hee
        rw [Function.update_self]
        exact hentry.congr rfl fun _ _ => rfl
      · rw [Function.update_of_ne hee, ht.event d hd (by rw [hmapped]; exact Option.some_ne_none _)
          e he (.inr hee)]
        exact (h.event d hd events hmapped e he).congr rfl ht.collection
    · rw [hothers hdd] at hsome
      rw [ht.event d hd (by rw [hsome]; exact Option.some_ne_none _) e he (.inl hdd)]
      exact (h.event d hd events' hsome e he).congr rfl ht.collection
  · intro icid hicid rdBase hmap
    rw [ht.collection icid hicid]
    exact h.collection icid hicid rdBase hmap

/-- The entry that MAPTI and MOVI write stands for the event. -/
theorem Represents.entryOf_ittEntry (h : s.Represents x a) {devId eventId pintid : UInt32}
    {icid : UInt16} (hdev : devId.toNat < x.devices) (hmapped : a.events devId ≠ none)
    (hev : eventId.toNat < x.events) (hicid : icid.toNat < x.collections)
    (hne : Gits.ittEntry icid pintid ≠ 0) (hsends : s.Sends a icid) :
    (s.writeEntry (Gits.ittEntryAddr (s.deviceEntry devId) eventId)
      (Gits.ittEntry icid pintid)).EntryOf x a
        ((s.writeEntry (Gits.ittEntryAddr (s.deviceEntry devId) eventId)
          (Gits.ittEntry icid pintid)).eventEntry devId eventId) (some (pintid, icid)) := by
  obtain ⟨-, htrans⟩ := h.mapped devId hdev hmapped
  rw [eventEntry, deviceEntry_event _ htrans hev hdev, ittEntryAt_event _ htrans hev]
  refine ⟨hne, pintidOf_ittEntry icid pintid, hicid, ?_, ?_⟩
  · rwa [icidOf_ittEntry]
  · rw [icidOf_ittEntry, target, collectionEntry_event _ htrans hev hicid]
    exact h.target_eq hicid hsends

theorem modifyEvents_of_none {devId : UInt32} (h : a.events devId = none)
    (f : (UInt32 → Option (UInt32 × UInt16)) → UInt32 → Option (UInt32 × UInt16)) :
    a.modifyEvents devId f = a := by
  rw [AbstractIts.modifyEvents, h, Option.map_none, ← h, Function.update_eq_self]

theorem Represents.mapti (h : s.Represents x a) {devId eventId pintid : UInt32} {icid : UInt16}
    (hgiven : s.Given x (.mapti devId eventId pintid icid))
    (hfollows : s.Follows x a (.mapti devId eventId pintid icid)) :
    (s.handleMapti devId eventId pintid icid).Represents x
      (a.step (.mapti devId eventId pintid icid)) := by
  obtain ⟨hdev, hev, hicid⟩ := hgiven
  cases hmapped : a.events devId with
  | none =>
      have hentry := h.unmapped devId hdev hmapped
      rw [handleMapti, ← deviceEntry, if_pos hentry, AbstractIts.step,
        modifyEvents_of_none hmapped]
      exact h
  | some events =>
      have hsome : a.events devId ≠ none := by
        rw [hmapped]
        exact Option.some_ne_none events
      obtain ⟨hne, hsends⟩ := hfollows hsome
      obtain ⟨hentry, -⟩ := h.mapped devId hdev hsome
      rw [handleMapti, ← deviceEntry, if_neg hentry]
      exact h.modifyEvents hdev hmapped (h.writeEvent hdev hsome hev _) rfl
        (h.entryOf_ittEntry hdev hsome hev hicid hne hsends)

/-- **MOVI**: the entry is written, or the two collections send the event to the same vCPU. -/
theorem Represents.movi (h : s.Represents x a) {devId eventId : UInt32} {icid : UInt16}
    (hgiven : s.Given x (.movi devId eventId icid))
    (hfollows : s.Follows x a (.movi devId eventId icid)) :
    (s.handleMovi devId eventId icid).Represents x (a.step (.movi devId eventId icid)) := by
  obtain ⟨hdev, hev, hicid⟩ := hgiven
  cases hmapped : a.events devId with
  | none =>
      have hentry := h.unmapped devId hdev hmapped
      rw [handleMovi, ← deviceEntry, if_pos hentry, AbstractIts.step,
        modifyEvents_of_none hmapped]
      exact h
  | some events =>
      have hsome : a.events devId ≠ none := by
        rw [hmapped]
        exact Option.some_ne_none events
      obtain ⟨hentry, -⟩ := h.mapped devId hdev hsome
      have hold := h.event devId hdev events hmapped eventId hev
      rw [handleMovi, ← deviceEntry, if_neg hentry, ← ittEntryAt, ← eventEntry]
      dsimp only
      rw [← collectionEntry, ← collectionEntry]
      have hsame := SameButEvent.refl (a := a) h.tables devId eventId
      cases hevent : events eventId with
      | none =>
          rw [hevent] at hold
          have hzero : s.eventEntry devId eventId = 0 := hold
          have hupdate : (events eventId).map (fun p => (p.1, icid)) = none := by
            rw [hevent]
            rfl
          rw [if_pos hzero]
          exact h.modifyEvents hdev hmapped hsame (congrArg _ hupdate) hold
      | some p =>
          obtain ⟨pintid, own⟩ := p
          rw [hevent] at hold
          obtain ⟨hne, hpintid, -, hlt, htarget⟩ := hold
          have hlookup : a.lookup devId eventId = some (pintid, own) := by
            rw [AbstractIts.lookup, hmapped]
            exact hevent
          obtain ⟨hnew, hsends⟩ := hfollows pintid own hlookup
          have hupdate : (events eventId).map (fun p => (p.1, icid)) = some (pintid, icid) := by
            rw [hevent]
            rfl
          rw [if_neg hne, hpintid]
          by_cases hmove : s.collectionEntry (Gits.icidOf (s.eventEntry devId eventId)) =
              s.collectionEntry icid
          · -- the entry is left alone, with its collection
            rw [if_neg (by rw [bne_iff_ne, not_not]; exact hmove)]
            refine h.modifyEvents hdev hmapped hsame (congrArg _ hupdate)
              ⟨hne, hpintid, hicid, hlt, ?_⟩
            rw [target, hmove]
            exact h.target_eq hicid hsends
          · rw [if_pos (bne_iff_ne.2 hmove)]
            exact h.modifyEvents hdev hmapped (h.writeEvent hdev hsome hev _)
              (congrArg _ hupdate) (h.entryOf_ittEntry hdev hsome hev hicid hnew hsends)

/-- **A step.** What the command does to the tables stands for what it does to the maps. -/
theorem Represents.step (h : s.Represents x a) {c : TableCommand} (hgiven : s.Given x c)
    (hfollows : s.Follows x a c) (hexec : s.execTable c = some t) :
    t.Represents x (a.step c) := by
  cases c with
  | movi devId eventId icid =>
      cases hexec
      exact h.movi hgiven hfollows
  | mapd valid devId ittAddr ittSize =>
      rw [execTable, handleMapd] at hexec
      split at hexec
      · cases hexec
      · cases hexec
        exact h.mapd hgiven hfollows
  | mapc valid rdBase icid =>
      cases hexec
      exact h.mapc hgiven hfollows
  | mapti devId eventId pintid icid =>
      cases hexec
      exact h.mapti hgiven hfollows

/-! ## MSIs -/

theorem Represents.translate (h : s.Represents x a) {devId eventId : UInt32}
    (hdev : devId.toNat < x.devices) (hev : eventId.toNat < x.events) :
    s.its.translate s.bus eventId devId = a.route devId eventId := by
  rw [Gits.translate, ← deviceEntry, AbstractIts.route, AbstractIts.lookup]
  cases hmapped : a.events devId with
  | none =>
      rw [if_pos (h.unmapped devId hdev hmapped)]
      rfl
  | some events =>
      obtain ⟨hne, -⟩ := h.mapped devId hdev (by rw [hmapped]; exact Option.some_ne_none events)
      have hentry := h.event devId hdev events hmapped eventId hev
      rw [if_neg hne, ← ittEntryAt, ← eventEntry, Option.bind_some]
      dsimp only
      cases hevent : events eventId with
      | none =>
          rw [hevent] at hentry
          have hzero : s.eventEntry devId eventId = 0 := hentry
          rw [if_pos hzero]
          rfl
      | some p =>
          obtain ⟨pintid, own⟩ := p
          rw [hevent] at hentry
          obtain ⟨hne', hpintid, -, -, htarget⟩ := hentry
          rw [if_neg hne', ← collectionEntry, hpintid, Option.bind_some]
          rw [target] at htarget
          cases hmap : a.collections own with
          | none =>
              rw [hmap, Option.map_none] at htarget
              split at htarget
              · rename_i hminus
                rw [if_pos hminus]
                rfl
              · cases htarget
          | some rdBase =>
              rw [hmap, Option.map_some] at htarget
              split at htarget
              · cases htarget
              · rename_i hvalid
                rw [if_neg hvalid, Option.some.inj htarget]
                rfl

theorem Represents.empty (htables : s.Tables x)
    (hempty : ∀ devId : UInt32, devId.toNat < x.devices → s.deviceEntry devId = 0) :
    s.Represents x .empty where
  tables := htables
  unmapped devId hdev _ := hempty devId hdev
  mapped _ _ hsome := absurd rfl hsome
  disjoint devId _ hdev _ _ hentry _ := absurd (hempty devId hdev) hentry
  event _ _ _ hsome := by cases hsome
  collection _ _ _ hmap := by cases hmap

/-- The ITS and the maps take a command. -/
def TableStep (p : ItsSys × AbstractIts) (c : TableCommand) (q : ItsSys × AbstractIts) : Prop :=
  p.1.execTable c = some q.1 ∧ q.2 = p.2.step c

/-- **An MSI asserts the LPI on the redistributor that the maps give**, and nothing if they give
none, after every run of commands that follow the maps. -/
theorem msi_follows_maps {cs : List TableCommand} (htables : s.Tables x)
    (hempty : ∀ devId : UInt32, devId.toNat < x.devices → s.deviceEntry devId = 0)
    (hrun : Run (fun p c q => p.1.Given x c ∧ p.1.Follows x p.2 c ∧ TableStep p c q)
      (s, .empty) cs (t, a))
    {devId eventId : UInt32} (hdev : devId.toNat < x.devices) (hev : eventId.toNat < x.events) :
    t.handleMsi eventId devId = a.deliver t devId eventId := by
  have hstep (p : ItsSys × AbstractIts) (c : TableCommand) (q : ItsSys × AbstractIts)
      (hp : p.1.Represents x p.2)
      (hc : p.1.Given x c ∧ p.1.Follows x p.2 c ∧ TableStep p c q) : q.1.Represents x q.2 := by
    obtain ⟨hgiven, hfollows, hexec, hmaps⟩ := hc
    rw [hmaps]
    exact hp.step hgiven hfollows hexec
  have hrep : t.Represents x a :=
    @Run.invariant _ _ _ (fun p => p.1.Represents x p.2) _ _ _ hstep hrun (.empty htables hempty)
  have htranslate := hrep.translate hdev hev
  cases hroute : a.route devId eventId with
  | none =>
      rw [hroute] at htranslate
      rw [handleMsi, AbstractIts.deliver, htranslate, hroute]
  | some p =>
      rw [hroute] at htranslate
      rw [handleMsi, AbstractIts.deliver, htranslate, hroute]

/-! ## One event -/

/-- Two vCPUs, and memory of zeros, but that LPI 8192 is enabled. -/
def mapsStart : ItsSys where
  gic := { (GicD.init .gicV3 2 64).initLpis with propBaser := 0x40000 }
  its := GicD.lpiIts
  bus :=
    { mem := fun a => if a = 0x40000 then 0xa1 else 0
      readable := fun _ _ => true
      writable := fun _ _ => true }

/-- One device with one event, and three collections. -/
def mapsExtents : TableExtents where
  devices := 1
  collections := 3
  events := 1
  devices_le := by decide
  collections_le := by decide
  events_le := by decide

/-- The ITS and the maps after a command. -/
def mapsStep (p : ItsSys × AbstractIts) (c : TableCommand) : ItsSys × AbstractIts :=
  ((p.1.execTable c).getD p.1, p.2.step c)

/-- The ITS and the maps after the commands. -/
def mapsAfter (cs : List TableCommand) : ItsSys × AbstractIts :=
  cs.foldl mapsStep (mapsStart, .empty)

theorem run_mapsAfter {ok : ItsSys × AbstractIts → TableCommand → Prop} {cs : List TableCommand}
    (hok : AllOk mapsStep ok (mapsStart, .empty) cs)
    (hsome : AllOk mapsStep (fun p c => (p.1.execTable c).isSome = true) (mapsStart, .empty) cs) :
    Run (fun p c q => ok p c ∧ TableStep p c q) (mapsStart, .empty) cs (mapsAfter cs) := by
  refine (hok.and hsome).run.mono fun p c q hstep => ?_
  obtain ⟨⟨hp, hsome⟩, rfl⟩ := hstep
  obtain ⟨t, ht⟩ := Option.isSome_iff_exists.1 hsome
  refine ⟨hp, ?_, rfl⟩
  rw [mapsStep, ht]
  rfl

theorem mapsStart_tables : mapsStart.Tables mapsExtents where
  devices _ _ := ⟨rfl, rfl⟩
  collections _ _ := ⟨rfl, rfl⟩
  disjoint := GuestBus.disjoint_table_of_le (by decide) (by decide)

theorem eq_zero_of_lt_one {i : UInt32} (h : i.toNat < 1) : i = 0 := by
  rw [← UInt32.toNat_inj, UInt32.toNat_zero]
  omega

theorem mapsStart_deviceEntry (devId : UInt32) (h : devId.toNat < mapsExtents.devices) :
    mapsStart.deviceEntry devId = 0 := by
  rw [eq_zero_of_lt_one h]
  decide +kernel

theorem handedOver_device (hits : s.its = GicD.lpiIts)
    (hbus : ∀ addr, s.bus.Accessible addr) : s.HandedOver mapsExtents 0 0x30000 where
  translation :=
    { events := fun _ _ => hbus _
      devices := by
        rw [deviceTable, hits]
        exact (GuestBus.disjoint_table_of_le (by decide) (by decide)).symm
      collections := by
        rw [collectionTable, hits]
        exact (GuestBus.disjoint_table_of_le (by decide) (by decide)).symm }
  disjoint _ hother hne _ := absurd (eq_zero_of_lt_one hother) hne

/-- Event 0 of device 0 is mapped to collection 1, which is mapped to vCPU 0, and is moved to
collection 2, which is mapped to `rdBase`. -/
def movedCommands (rdBase : UInt32) : List TableCommand :=
  [.mapc true 0 1, .mapc true rdBase 2, .mapd true 0 0x30000 0, .mapti 0 0 8192 1, .movi 0 0 2]

theorem movedCommands_isSome (rdBase rdBase' : UInt32) :
    AllOk mapsStep (fun p c => (p.1.execTable c).isSome = true) (mapsStart, .empty)
      (movedCommands rdBase ++ [.mapc true rdBase' 2]) := by
  simp only [movedCommands, List.cons_append, List.nil_append, AllOk]
  exact ⟨rfl, rfl, rfl, rfl, rfl, rfl, trivial⟩

theorem movedCommands_given (rdBase rdBase' : UInt32) :
    AllOk mapsStep (fun p c => p.1.Given mapsExtents c) (mapsStart, .empty)
      (movedCommands rdBase ++ [.mapc true rdBase' 2]) := by
  have hmapc (s : ItsSys) (valid : Bool) (rdBase : UInt32) {icid : UInt16} (h : icid.toNat < 3) :
      s.Given mapsExtents (.mapc valid rdBase icid) := h
  simp only [movedCommands, List.cons_append, List.nil_append, AllOk]
  refine ⟨hmapc _ _ _ (by decide), hmapc _ _ _ (by decide), ⟨by decide, fun _ => ?_⟩,
    ⟨by decide, by decide, by decide⟩, ⟨by decide, by decide, by decide⟩,
    hmapc _ _ _ (by decide), trivial⟩
  exact handedOver_device rfl fun _ => ⟨rfl, rfl⟩

/-- Where the collections are mapped to different vCPUs, the event follows the one it has been moved
to: it is mapped to vCPU 0 after the MOVI. -/
theorem moved_followed :
    (mapsAfter (movedCommands 1 ++ [.mapc true 0 2])).2.route 0 0 = some (8192, 0) ∧
      (mapsAfter (movedCommands 1 ++ [.mapc true 0 2])).1.handleMsi 0 0 =
        (mapsAfter (movedCommands 1 ++ [.mapc true 0 2])).2.deliver
          (mapsAfter (movedCommands 1 ++ [.mapc true 0 2])).1 0 0 := by
  have hfollows : AllOk mapsStep (fun p c => p.1.Follows mapsExtents p.2 c) (mapsStart, .empty)
      (movedCommands 1 ++ [.mapc true 0 2]) := by
    simp only [movedCommands, List.cons_append, List.nil_append, AllOk]
    refine ⟨?_, ?_, fun _ => ⟨by decide, fun e he => ?_⟩,
      fun _ => ⟨by decide, .inl ⟨0, rfl, by decide⟩⟩, ?_, ?_, trivial⟩
    · intro _ _ _ _ _ _ hlookup
      cases hlookup
    · intro _ _ _ _ _ _ hlookup
      cases hlookup
    · cases eq_zero_of_lt_one he
      decide +kernel
    · intro pintid own hlookup
      have hevent : (mapsAfter [.mapc true 0 1, .mapc true 1 2, .mapd true 0 0x30000 0,
          .mapti 0 0 8192 1]).2.lookup 0 0 = some (8192, 1) := by decide
      cases hevent.symm.trans hlookup
      exact ⟨by decide, .inl ⟨1, rfl, by decide⟩⟩
    · intro d e hd he pintid own hlookup _
      cases eq_zero_of_lt_one hd
      cases eq_zero_of_lt_one he
      have hevent : (mapsAfter (movedCommands 1)).2.lookup 0 0 = some (8192, 2) := by decide
      have hentry : Gits.icidOf ((mapsAfter (movedCommands 1)).1.eventEntry 0 0) = 2 := by
        decide +kernel
      cases hevent.symm.trans hlookup
      exact ⟨fun _ => by decide, fun hne => absurd hentry.symm hne⟩
  have hrun := run_mapsAfter ((movedCommands_given 1 0).and hfollows)
    (movedCommands_isSome 1 0)
  exact ⟨by decide, msi_follows_maps mapsStart_tables mapsStart_deviceEntry
    (hrun.mono fun _ _ _ h => ⟨h.1.1, h.1.2, h.2⟩) (by decide) (by decide)⟩

/-- MOVI leaves the entry of an event alone if the two collections are mapped to the same vCPU. The
event does not follow its collection when it is mapped to another vCPU then. -/
theorem movi_left_behind : ∃ (x : TableExtents) (s t : ItsSys) (a : AbstractIts)
    (cs : List TableCommand), s.Tables x ∧
      (∀ devId : UInt32, devId.toNat < x.devices → s.deviceEntry devId = 0) ∧
      Run (fun p c q => p.1.Given x c ∧ TableStep p c q) (s, .empty) cs (t, a) ∧
      ∃ devId eventId : UInt32, devId.toNat < x.devices ∧ eventId.toNat < x.events ∧
        t.handleMsi eventId devId ≠ a.deliver t devId eventId := by
  refine ⟨mapsExtents, mapsStart, _, _, _, mapsStart_tables, mapsStart_deviceEntry,
    run_mapsAfter (movedCommands_given 0 1) (movedCommands_isSome 0 1), 0, 0,
    by decide, by decide, fun heq => ?_⟩
  have hpending := congrArg (Option.map fun t : ItsSys => (t.gic.bank 1).pendingIrqs 8192) heq
  revert hpending
  decide +kernel

end ItsSys

end Vml
