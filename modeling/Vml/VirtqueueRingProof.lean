import Vml.VirtqueueRing
import Mathlib.Data.List.Count
import Mathlib.Data.List.Perm.Subperm

/-!
# The rings are FIFO channels

The two rings of a virtqueue are two channels in the sense of `Vml.Lib.Ring`: the driver produces
on the available ring, the device on the used ring. `Inv` says so, together with what the 16-bit
counters stand for and who holds which descriptor.

The one global fact is that a ring never fills beyond its size. It has no local reason: a
descriptor is outstanding at most once and there are `size` of them, so the driver can be at most
`size` entries ahead of what it has got back (`Inv.sent_le`), and everything between is ordered
by `reclaimed ≤ returned ≤ received ≤ sent`.

* `Inv.step` — one load or store keeps the invariant.
* `fifo` — hence every run, of any length and over any number of wraps of the counters.
-/

namespace Vml

/-! ## The machine's channels -/

/-- The producer stage the driver's program counter stands for. -/
def DriverPc.stage : DriverPc → Stage
  | .sendRing _ => .filling
  | .sendIndex => .filled
  | .idle | .recvIndex | .recvEvent _ | .recvRing => .done

/-- The producer stage the device's program counter stands for. -/
def DevicePc.stage : DevicePc → Stage
  | .sendId _ _ | .sendLength _ => .filling
  | .sendIndex => .filled
  | .idle | .recvIndex | .recvEvent _ | .recvRing => .done

/-- The driver has seen a non-empty used ring and not read it yet. -/
def DriverPc.reading : DriverPc → Bool
  | .recvEvent _ | .recvRing => true
  | .idle | .sendRing _ | .sendIndex | .recvIndex => false

/-- The device has seen a non-empty available ring and not read it yet. -/
def DevicePc.reading : DevicePc → Bool
  | .recvEvent _ | .recvRing => true
  | .idle | .sendId _ _ | .sendLength _ | .sendIndex | .recvIndex => false

namespace RingSys

/-- The used ring entry for a descriptor sent back with a length. -/
def usedEntry (p : UInt16 × UInt32) : UsedEntry := ⟨p.1.toUInt32, p.2⟩

/-- The available ring as a channel from the driver to the device. -/
def availChan (s : RingSys) : Chan UInt16 :=
  ⟨s.shared.avail.ring, s.sent, s.availPublished, s.received.length, s.driverPc.stage⟩

/-- The used ring as a channel from the device to the driver. -/
def usedChan (s : RingSys) : Chan UsedEntry :=
  ⟨s.shared.used.ring, s.returned.map usedEntry, s.usedPublished, s.reclaimed.length,
    s.devicePc.stage⟩

/-- What the device's program counter knows about the entry it is writing. -/
def DeviceKnows (s : RingSys) (slot : ℕ) : Prop :=
  match s.devicePc with
  | .sendId desc len => s.returned[s.usedPublished]? = some (desc, len)
  | .sendLength len => ∃ desc, s.returned[s.usedPublished]? = some (desc, len) ∧
      (s.shared.used.ring slot).id = desc.toUInt32
  | .idle | .sendIndex | .recvIndex | .recvEvent _ | .recvRing => True

/-- The invariant of the two sides over rings of size `size`. -/
structure Inv (size : UInt16) (s : RingSys) : Prop where
  driverSize : s.driver.size = size
  deviceSize : s.device.size = size
  -- What the counters stand for.
  driverDriven : s.driver.drivenIdx = UInt16.ofNat s.sent.length
  driverPrev : s.driverPc.stage ≠ .done → s.driver.prev = UInt16.ofNat s.availPublished
  driverIdx : s.driver.idx = UInt16.ofNat s.reclaimed.length
  deviceDriven : s.device.drivenIdx = UInt16.ofNat s.returned.length
  devicePrev : s.devicePc.stage ≠ .done → s.device.prev = UInt16.ofNat s.usedPublished
  deviceIdx : s.device.idx = UInt16.ofNat s.received.length
  availIndex : s.shared.avail.index = UInt16.ofNat s.availPublished
  usedIndex : s.shared.used.index = UInt16.ofNat s.usedPublished
  -- The channels.
  avail : s.availChan.Ok size.toNat
  used : s.usedChan.Ok size.toNat
  received_prefix : s.received <+: s.sent
  reclaimed_prefix : s.reclaimed <+: s.returned
  -- What the program counters know.
  driverFills : ∀ desc, s.driverPc = .sendRing desc → s.sent[s.availPublished]? = some desc
  driverReads : s.driverPc.reading = true → s.reclaimed.length < s.usedPublished
  deviceKnows : s.DeviceKnows (s.usedPublished % size.toNat)
  deviceReads : s.devicePc.reading = true → s.received.length < s.availPublished
  -- Who holds which descriptor.
  sent_lt : ∀ desc ∈ s.sent, desc < size
  sent_count : ∀ desc, s.sent.count desc ≤ (s.reclaimed.map Prod.fst).count desc + 1
  returned_count : ∀ desc, (s.returned.map Prod.fst).count desc ≤ s.received.count desc
  -- What the sides have reported.
  empties_eq : ∀ e ∈ s.empties, e.1 = e.2
  rejected_eq : s.rejected = 0

/-! ## Counters -/

variable {size : UInt16} {s t : RingSys}

theorem slot_ofNat (hdvd : size.toNat ∣ 2 ^ 16) (n : ℕ) :
    (UInt16.ofNat n % size).toNat = n % size.toNat := by
  rw [UInt16.toNat_mod, UInt16.toNat_ofNat', Nat.mod_mod_of_dvd _ hdvd]

/-- A side's `count_available` is zero exactly when it has read all that is published. -/
theorem countAvailable_eq_zero {q : Queue} {i : UInt16} {read published : ℕ}
    (hq : q.idx = UInt16.ofNat read) (hi : i = UInt16.ofNat published)
    (hle : read ≤ published) (hlt : published - read < 2 ^ 16) :
    q.countAvailable i = 0 ↔ published = read := by
  have hcount : (q.countAvailable i).toNat = published - read := by
    rw [Queue.toNat_countAvailable, hq, hi, UInt16.toNat_ofNat', UInt16.toNat_ofNat']
    exact counter_sub hle hlt
  rw [← UInt16.toNat_inj, hcount, UInt16.toNat_zero]
  omega

theorem usedDesc_toUInt32 {desc : UInt16} (h : desc < size) :
    usedDesc size desc.toUInt32 = desc := by
  have hlt := UInt16.lt_iff_toNat_lt.1 h
  have hmod : (desc.toUInt32 % size.toUInt32).toNat = desc.toNat := by
    rw [UInt32.toNat_mod, UInt16.toNat_toUInt32, UInt16.toNat_toUInt32, Nat.mod_eq_of_lt hlt]
  apply UInt16.toNat_inj.1
  rw [usedDesc, UInt32.toNat_toUInt16, hmod]
  exact Nat.mod_eq_of_lt desc.toNat_lt

/-! ## The order of the four histories -/

/-- Descriptors of the queue that occur in `xs` at most once more than in `ys` make `xs` at most
a queue size longer. -/
theorem length_le_of_count {xs ys : List UInt16} (hlt : ∀ d ∈ xs, d < size)
    (hcount : ∀ d, xs.count d ≤ ys.count d + 1) : xs.length ≤ ys.length + size.toNat := by
  have hsub : List.Subperm xs (ys ++ (List.range size.toNat).map UInt16.ofNat) := by
    refine List.subperm_ext_iff.2 fun d hd => ?_
    have hmem : d ∈ (List.range size.toNat).map UInt16.ofNat :=
      List.mem_map.2 ⟨d.toNat, List.mem_range.2 (UInt16.lt_iff_toNat_lt.1 (hlt d hd)), by simp⟩
    have hone := List.one_le_count_iff.2 hmem
    have hd := hcount d
    rw [List.count_append]
    omega
  simpa using hsub.length_le

namespace Inv

theorem returned_le (h : Inv size s) : s.returned.length ≤ s.received.length := by
  have hsub : List.Subperm (s.returned.map Prod.fst) s.received :=
    List.subperm_ext_iff.2 fun desc _ => h.returned_count desc
  simpa using hsub.length_le

theorem reclaimed_le (h : Inv size s) : s.reclaimed.length ≤ s.returned.length :=
  h.reclaimed_prefix.length_le

theorem sent_le (h : Inv size s) : s.sent.length ≤ s.reclaimed.length + size.toNat := by
  simpa using length_le_of_count h.sent_lt h.sent_count

theorem received_lt (h : Inv size s) {desc : UInt16} (hd : desc ∈ s.received) : desc < size :=
  h.sent_lt desc (h.received_prefix.subset hd)

theorem returned_lt (h : Inv size s) {p : UInt16 × UInt32} (hp : p ∈ s.returned) :
    p.1 < size := by
  have hmem : p.1 ∈ s.returned.map Prod.fst := List.mem_map_of_mem hp
  have hcount := h.returned_count p.1
  have hone := List.one_le_count_iff.2 hmem
  exact h.received_lt (List.one_le_count_iff.1 (by omega))

/-- Sending a descriptor that is not outstanding keeps each one outstanding at most once. -/
theorem sent_count_append (h : Inv size s) {desc : UInt16} (hfree : ¬ s.outstanding desc) (d : UInt16) :
    (s.sent ++ [desc]).count d ≤ (s.reclaimed.map Prod.fst).count d + 1 := by
  rw [List.count_append, List.count_singleton]
  by_cases hd : desc = d
  · subst hd
    have hle : s.sent.count desc ≤ (s.reclaimed.map Prod.fst).count desc := Nat.le_of_not_lt hfree
    simpa using hle
  · simpa [hd] using h.sent_count d

theorem sent_lt_room (h : Inv size s) {desc : UInt16} (hdesc : desc < size)
    (hfree : ¬ s.outstanding desc) : s.sent.length < s.received.length + size.toNat := by
  have hlt : ∀ d ∈ s.sent ++ [desc], d < size := by
    simpa [or_imp, forall_and] using And.intro h.sent_lt hdesc
  have hlen := length_le_of_count hlt (h.sent_count_append hfree)
  have := h.returned_le
  have := h.reclaimed_le
  simp only [List.length_append, List.length_map, List.length_singleton] at hlen
  omega

/-- A head the device holds finds room in the used ring. -/
theorem returned_lt_room (h : Inv size s) {desc : UInt16} (hheld : s.held desc) :
    s.returned.length < s.reclaimed.length + size.toNat := by
  have hsub : List.Subperm (s.returned.map Prod.fst ++ [desc]) s.received := by
    refine List.subperm_ext_iff.2 fun d _ => ?_
    rw [List.count_append, List.count_singleton]
    by_cases hd : desc = d
    · subst hd
      have hlt : (s.returned.map Prod.fst).count desc < s.received.count desc := hheld
      simpa using hlt
    · simpa [hd] using h.returned_count d
  have hlen := hsub.length_le
  have := h.received_prefix.length_le
  have := h.sent_le
  simp only [List.length_append, List.length_map, List.length_singleton] at hlen
  omega

end Inv

theorem inv_initial (size : UInt16) (m : Shared) : Inv size (initial size m) where
  driverSize := rfl
  deviceSize := rfl
  driverDriven := rfl
  driverPrev := fun h => absurd rfl h
  driverIdx := rfl
  deviceDriven := rfl
  devicePrev := fun h => absurd rfl h
  deviceIdx := rfl
  availIndex := rfl
  usedIndex := rfl
  avail := Chan.Ok.empty _ _
  used := Chan.Ok.empty _ _
  received_prefix := List.prefix_rfl
  reclaimed_prefix := List.prefix_rfl
  driverFills := fun _ h => nomatch h
  driverReads := fun h => nomatch h
  deviceKnows := trivial
  deviceReads := fun h => nomatch h
  sent_lt := fun _ h => nomatch h
  sent_count := fun _ => Nat.zero_le _
  returned_count := fun _ => le_rfl
  empties_eq := fun _ h => nomatch h
  rejected_eq := rfl

/-! ## Calls -/

theorem Inv.driverSend (h : Inv size s) {desc : UInt16} (hpc : s.driverPc = .idle)
    (hdesc : desc < size) (hfree : ¬ s.outstanding desc) :
    Inv size { s with
      driver := s.driver.bumpDrivenIdx, sent := s.sent ++ [desc], driverPc := .sendRing desc } := by
  have hdone : s.availChan.stage = .done := by simp [availChan, hpc, DriverPc.stage]
  have hlen : s.sent.length = s.availPublished := by
    simpa [availChan, hpc, DriverPc.stage, Stage.pending] using h.avail.length
  exact { h with
    driverSize := h.driverSize
    driverDriven := by simp [Queue.bumpDrivenIdx, h.driverDriven, UInt16.ofNat_add]
    driverPrev := fun _ => by rw [← hlen]; exact h.driverDriven
    avail := h.avail.start hdone (h.sent_lt_room hdesc hfree) desc
    received_prefix := h.received_prefix.trans (List.prefix_append _ _)
    driverFills := fun d hd => by
      cases hd
      simp [← hlen]
    driverReads := fun hr => by cases hr
    sent_lt := by simpa [or_imp, forall_and] using And.intro h.sent_lt hdesc
    sent_count := h.sent_count_append hfree }

theorem Inv.driverRecv (h : Inv size s) (hpc : s.driverPc = .idle) :
    Inv size { s with driverPc := .recvIndex } := by
  have havail := h.avail
  rw [availChan, hpc] at havail
  exact { h with
    driverPrev := fun hd => absurd rfl hd
    avail := havail
    driverFills := fun _ hd => nomatch hd
    driverReads := fun hr => nomatch hr }

theorem Inv.deviceSend (h : Inv size s) {desc : UInt16} (len : UInt32) (hpc : s.devicePc = .idle)
    (hheld : s.held desc) :
    Inv size { s with
      device := s.device.bumpDrivenIdx, returned := s.returned ++ [(desc, len)],
      devicePc := .sendId desc len } := by
  have hdone : s.usedChan.stage = .done := by simp [usedChan, hpc, DevicePc.stage]
  have hlen : s.returned.length = s.usedPublished := by
    simpa [usedChan, hpc, DevicePc.stage, Stage.pending] using h.used.length
  have hroom : s.usedChan.hist.length < s.usedChan.consumed + size.toNat := by
    simpa [usedChan] using h.returned_lt_room hheld
  have hused := h.used.start hdone hroom (usedEntry (desc, len))
  exact { h with
    deviceSize := h.deviceSize
    deviceDriven := by simp [Queue.bumpDrivenIdx, h.deviceDriven, UInt16.ofNat_add]
    devicePrev := fun _ => by rw [← hlen]; exact h.deviceDriven
    used := by
      simpa only [usedChan, Chan.start, List.map_append, List.map_cons, List.map_nil,
        DevicePc.stage] using hused
    reclaimed_prefix := h.reclaimed_prefix.trans (List.prefix_append _ _)
    deviceKnows := by simp [DeviceKnows, ← hlen]
    deviceReads := fun hr => by cases hr
    returned_count := fun d => by
      rw [List.map_append, List.count_append, List.map_singleton, List.count_singleton]
      by_cases hd : desc = d
      · subst hd
        have hlt : (s.returned.map Prod.fst).count desc < s.received.count desc := hheld
        simpa using hlt
      · simpa [hd] using h.returned_count d }

theorem Inv.deviceRecv (h : Inv size s) (hpc : s.devicePc = .idle) :
    Inv size { s with devicePc := .recvIndex } := by
  have hused := h.used
  rw [usedChan, hpc] at hused
  exact { h with
    devicePrev := fun hd => absurd rfl hd
    used := hused
    deviceKnows := trivial
    deviceReads := fun hr => nomatch hr }

/-! ## The driver's loads and stores -/

theorem Inv.stepDriver (hsize : isSizeValid size = true) (h : Inv size s)
    (hstep : s.stepDriver = some t) : Inv size t := by
  have hdvd := isSizeValid_dvd hsize
  have hsz := isSizeValid_le hsize
  have havail := h.avail
  unfold RingSys.stepDriver at hstep
  cases hpc : s.driverPc with
  | idle => simp [hpc] at hstep
  | sendRing desc =>
    simp only [hpc, Option.some.injEq] at hstep
    subst hstep
    have hfill : s.availChan.stage = .filling := by simp [availChan, hpc, DriverPc.stage]
    have hslot : s.driver.drivenSlot = s.availPublished % size.toNat := by
      rw [Queue.drivenSlot, h.driverSize, h.driverPrev (by simp [hpc, DriverPc.stage]),
        slot_ofNat hdvd]
    rw [hslot]
    exact { h with
      driverPrev := fun _ => h.driverPrev (by simp [hpc, DriverPc.stage])
      avail := (havail.store hfill desc).fill hfill (by
        simpa [Chan.store, availChan] using h.driverFills desc hpc)
      driverFills := fun _ hd => by cases hd
      driverReads := fun hr => by cases hr }
  | sendIndex =>
    simp only [hpc, Option.some.injEq] at hstep
    subst hstep
    have hfilled : s.availChan.stage = .filled := by simp [availChan, hpc, DriverPc.stage]
    have hlen : s.sent.length = s.availPublished + 1 :=
      havail.published_lt (by simp [hfilled])
    exact { h with
      driverPrev := fun hd => absurd rfl hd
      availIndex := by
        show s.driver.drivenIdx = _
        rw [h.driverDriven, hlen]
      avail := havail.publish hfilled
      driverFills := fun _ hd => by cases hd
      driverReads := fun hr => by cases hr
      deviceReads := fun hr => Nat.lt_succ_of_lt (h.deviceReads hr) }
  | recvIndex =>
    rw [availChan, hpc] at havail
    have hzero := countAvailable_eq_zero h.driverIdx h.usedIndex h.used.consumed_le
      (Nat.lt_of_le_of_lt h.used.unread_le (by omega))
    simp only [hpc] at hstep
    split at hstep
    · rename_i hempty
      simp only [Option.some.injEq] at hstep
      subst hstep
      exact { h with
        driverPrev := fun hd => absurd rfl hd
        avail := havail
        driverFills := fun _ hd => by cases hd
        driverReads := fun hr => by cases hr
        empties_eq := by
          simpa [or_imp, forall_and] using And.intro h.empties_eq (hzero.1 hempty) }
    · rename_i hne
      simp only [Option.some.injEq] at hstep
      subst hstep
      exact { h with
        driverPrev := fun hd => absurd rfl hd
        avail := havail
        driverFills := fun _ hd => by cases hd
        driverReads := fun _ =>
          Nat.lt_of_le_of_ne h.used.consumed_le fun heq => hne (hzero.2 heq.symm) }
  | recvEvent usedIdx =>
    rw [availChan, hpc] at havail
    simp only [hpc, Option.some.injEq] at hstep
    subst hstep
    exact { h with
      driverPrev := fun hd => absurd rfl hd
      avail := havail
      driverFills := fun _ hd => by cases hd
      driverReads := fun _ => h.driverReads (by simp [hpc, DriverPc.reading]) }
  | recvRing =>
    rw [availChan, hpc] at havail
    simp only [hpc, Option.some.injEq] at hstep
    subst hstep
    have hlt : s.reclaimed.length < s.usedPublished :=
      h.driverReads (by simp [hpc, DriverPc.reading])
    have hslot : s.driver.readSlot = s.reclaimed.length % size.toNat := by
      rw [Queue.readSlot, h.driverSize, h.driverIdx, slot_ofNat hdvd]
    -- The entry in the slot is the next one the device sent back.
    have hnext := h.used.next hlt
    simp only [usedChan, List.getElem?_map, Option.map_eq_some_iff] at hnext
    obtain ⟨p, hp, hentry⟩ := hnext
    have hpair : (usedDesc s.driver.size (s.shared.used.ring s.driver.readSlot).id,
        (s.shared.used.ring s.driver.readSlot).length) = p := by
      have hplt := h.returned_lt (List.mem_of_getElem? hp)
      rw [hslot, ← hentry, usedEntry, h.driverSize, usedDesc_toUInt32 hplt]
    rw [hpair]
    exact { h with
      driverSize := h.driverSize
      driverDriven := h.driverDriven
      driverPrev := fun hd => absurd rfl hd
      driverIdx := by simp [Queue.bumpIdx, h.driverIdx, UInt16.ofNat_add]
      avail := havail
      used := by simpa [usedChan, Chan.consume] using h.used.consume hlt
      reclaimed_prefix := prefix_snoc h.reclaimed_prefix hp
      driverFills := fun _ hd => by cases hd
      driverReads := fun hr => by cases hr
      sent_count := fun d => by
        show s.sent.count d ≤ _
        rw [List.map_append, List.count_append]
        exact (h.sent_count d).trans (Nat.add_le_add_right (Nat.le_add_right _ _) 1) }

/-! ## The device's loads and stores -/

theorem Inv.stepDevice (hsize : isSizeValid size = true) (h : Inv size s)
    (hstep : s.stepDevice = some t) : Inv size t := by
  have hdvd := isSizeValid_dvd hsize
  have hsz := isSizeValid_le hsize
  have hused := h.used
  have hknows := h.deviceKnows
  have hsendSlot (hstage : s.devicePc.stage ≠ .done) :
      s.device.drivenSlot = s.usedPublished % size.toNat := by
    rw [Queue.drivenSlot, h.deviceSize, h.devicePrev hstage, slot_ofNat hdvd]
  unfold RingSys.stepDevice at hstep
  cases hpc : s.devicePc with
  | idle => simp [hpc] at hstep
  | sendId desc len =>
    simp only [hpc, Option.some.injEq] at hstep
    subst hstep
    have hfill : s.usedChan.stage = .filling := by simp [usedChan, hpc, DevicePc.stage]
    simp only [DeviceKnows, hpc] at hknows
    rw [hsendSlot (by simp [hpc, DevicePc.stage])]
    have hstore := hused.store hfill
      { s.shared.used.ring (s.usedPublished % size.toNat) with id := desc.toUInt32 }
    simp only [Chan.store, usedChan, hpc, DevicePc.stage] at hstore
    exact { h with
      devicePrev := fun _ => h.devicePrev (by simp [hpc, DevicePc.stage])
      used := hstore
      deviceKnows := ⟨desc, hknows, by simp [setUsedRing]⟩
      deviceReads := fun hr => by cases hr }
  | sendLength len =>
    simp only [hpc, Option.some.injEq] at hstep
    subst hstep
    have hfill : s.usedChan.stage = .filling := by simp [usedChan, hpc, DevicePc.stage]
    simp only [DeviceKnows, hpc] at hknows
    obtain ⟨desc, hdesc, hid⟩ := hknows
    rw [hsendSlot (by simp [hpc, DevicePc.stage])]
    -- With the length stored, the slot holds the whole entry.
    have hstore := hused.store hfill
      { s.shared.used.ring (s.usedPublished % size.toNat) with length := len }
    exact { h with
      devicePrev := fun _ => h.devicePrev (by simp [hpc, DevicePc.stage])
      used := hstore.fill hfill (by
        simp [Chan.store, usedChan, hdesc, usedEntry, hid])
      deviceKnows := trivial
      deviceReads := fun hr => by cases hr }
  | sendIndex =>
    simp only [hpc, Option.some.injEq] at hstep
    subst hstep
    have hfilled : s.usedChan.stage = .filled := by simp [usedChan, hpc, DevicePc.stage]
    have hlen : s.returned.length = s.usedPublished + 1 := by
      simpa [usedChan] using hused.published_lt (by simp [hfilled])
    exact { h with
      devicePrev := fun hd => absurd rfl hd
      usedIndex := by
        show s.device.drivenIdx = _
        rw [h.deviceDriven, hlen]
      used := hused.publish hfilled
      deviceKnows := trivial
      deviceReads := fun hr => by cases hr
      driverReads := fun hr => Nat.lt_succ_of_lt (h.driverReads hr) }
  | recvIndex =>
    rw [usedChan, hpc] at hused
    have hzero := countAvailable_eq_zero h.deviceIdx h.availIndex h.avail.consumed_le
      (Nat.lt_of_le_of_lt h.avail.unread_le (by omega))
    simp only [hpc] at hstep
    split at hstep
    · rename_i hempty
      simp only [Option.some.injEq] at hstep
      subst hstep
      exact { h with
        devicePrev := fun hd => absurd rfl hd
        used := hused
        deviceKnows := trivial
        deviceReads := fun hr => by cases hr
        empties_eq := by
          simpa [or_imp, forall_and] using And.intro h.empties_eq (hzero.1 hempty) }
    · rename_i hne
      simp only [Option.some.injEq] at hstep
      subst hstep
      exact { h with
        devicePrev := fun hd => absurd rfl hd
        used := hused
        deviceKnows := trivial
        deviceReads := fun _ =>
          Nat.lt_of_le_of_ne h.avail.consumed_le fun heq => hne (hzero.2 heq.symm) }
  | recvEvent availIdx =>
    rw [usedChan, hpc] at hused
    simp only [hpc, Option.some.injEq] at hstep
    subst hstep
    exact { h with
      devicePrev := fun hd => absurd rfl hd
      used := hused
      deviceKnows := trivial
      deviceReads := fun _ => h.deviceReads (by simp [hpc, DevicePc.reading]) }
  | recvRing =>
    rw [usedChan, hpc] at hused
    have hlt : s.received.length < s.availPublished :=
      h.deviceReads (by simp [hpc, DevicePc.reading])
    have hslot : s.device.readSlot = s.received.length % size.toNat := by
      rw [Queue.readSlot, h.deviceSize, h.deviceIdx, slot_ofNat hdvd]
    have hnext : s.sent[s.received.length]? = some (s.shared.avail.ring s.device.readSlot) := by
      rw [hslot]
      exact h.avail.next hlt
    -- The head is a descriptor the driver sent, so it is never rejected.
    have hhead := UInt16.lt_iff_toNat_lt.1 (h.sent_lt _ (List.mem_of_getElem? hnext))
    have hok : ¬ s.device.size ≤ s.shared.avail.ring s.device.readSlot := by
      rw [h.deviceSize, UInt16.le_iff_toNat_le]
      omega
    simp only [hpc, hok, if_false, Option.some.injEq] at hstep
    subst hstep
    exact { h with
      deviceSize := h.deviceSize
      deviceDriven := h.deviceDriven
      devicePrev := fun hd => absurd rfl hd
      deviceIdx := by simp [Queue.bumpIdx, h.deviceIdx, UInt16.ofNat_add]
      avail := by simpa [availChan, Chan.consume] using h.avail.consume hlt
      used := hused
      received_prefix := prefix_snoc h.received_prefix hnext
      deviceKnows := trivial
      deviceReads := fun hr => by cases hr
      returned_count := fun d => by
        show (s.returned.map Prod.fst).count d ≤ _
        rw [List.count_append]
        exact (h.returned_count d).trans (Nat.le_add_right _ _) }

/-! ## Every run -/

theorem Inv.step (hsize : isSizeValid size = true) (h : Inv size s) {a : Act}
    (hstep : s.step a = some t) : Inv size t := by
  cases a with
  | driverSend desc =>
    simp only [RingSys.step, Option.ite_none_right_eq_some, Option.some.injEq] at hstep
    obtain ⟨⟨hpc, hdesc, hfree⟩, rfl⟩ := hstep
    exact h.driverSend hpc (h.driverSize ▸ hdesc) hfree
  | driverRecv =>
    simp only [RingSys.step, Option.ite_none_right_eq_some, Option.some.injEq] at hstep
    obtain ⟨hpc, rfl⟩ := hstep
    exact h.driverRecv hpc
  | driver => exact h.stepDriver hsize hstep
  | deviceSend desc len =>
    simp only [RingSys.step, Option.ite_none_right_eq_some, Option.some.injEq] at hstep
    obtain ⟨⟨hpc, hheld⟩, rfl⟩ := hstep
    exact h.deviceSend len hpc hheld
  | deviceRecv =>
    simp only [RingSys.step, Option.ite_none_right_eq_some, Option.some.injEq] at hstep
    obtain ⟨hpc, rfl⟩ := hstep
    exact h.deviceRecv hpc
  | device => exact h.stepDevice hsize hstep

theorem inv_of_runs (hsize : isSizeValid size = true) {m : Shared} {as : List Act}
    (h : Runs size m as s) : Inv size s :=
  h.invariant (fun _ _ _ hinv hstep => hinv.step hsize hstep) (inv_initial size m)

/-- **The virtqueue is a pair of FIFO channels.** In every run, whatever the interleaving and
however often the counters wrap: each side gets what the other sent, in order and whole; a `recv`
that reports an empty ring had read everything published when it loaded the index; and no head is
refused. The length the used ring holds when the driver reads an entry is the one sent with it. -/
theorem fifo (hsize : isSizeValid size = true) {m : Shared} {as : List Act}
    (h : Runs size m as s) :
    s.received <+: s.sent ∧ s.reclaimed <+: s.returned ∧
      s.received.length ≤ s.availPublished ∧ s.reclaimed.length ≤ s.usedPublished ∧
      (∀ e ∈ s.empties, e.2 = e.1) ∧ s.rejected = 0 := by
  have hinv := inv_of_runs hsize h
  exact ⟨hinv.received_prefix, hinv.reclaimed_prefix, hinv.avail.consumed_le,
    hinv.used.consumed_le, fun e he => (hinv.empties_eq e he).symm, hinv.rejected_eq⟩

/-- Over a ring of four the driver sends three heads while the device receives. The device returns
the second before the first, while the driver reclaims, and finds the ring empty in the end. -/
def interleaved : List Act :=
  [.driverSend 2, .driver, .driver, .driverSend 0, .deviceRecv, .driver, .device, .driver, .device,
    .device, .driverSend 3, .deviceRecv, .device, .driver, .device, .device, .deviceSend 0 5,
    .driver, .device, .device, .device, .driverRecv, .deviceSend 2 9, .driver, .device, .driver,
    .device, .driver, .device, .deviceRecv, .driverRecv, .device, .driver, .device, .driver,
    .device, .driver, .deviceRecv, .device]

theorem fifo_interleaved : ∃ s, Runs 4 {} interleaved s ∧ s.received = [2, 0, 3] ∧
    s.reclaimed = [(0, 5), (2, 9)] ∧ s.empties = [(3, 3)] ∧ s.received <+: s.sent ∧
    s.reclaimed <+: s.returned ∧ ∀ e ∈ s.empties, e.2 = e.1 := by
  have hexec : ∃ s, interleaved.foldlM step (initial 4 {}) = some s ∧ s.received = [2, 0, 3] ∧
      s.reclaimed = [(0, 5), (2, 9)] ∧ s.empties = [(3, 3)] := ⟨_, rfl, rfl, rfl, rfl⟩
  obtain ⟨s, hs, hreceived, hreclaimed, hempties⟩ := hexec
  have hrun := Run.of_foldlM hs
  have h := fifo (by decide) hrun
  exact ⟨s, hrun, hreceived, hreclaimed, hempties, h.1, h.2.1, h.2.2.2.2.1⟩

/-! ## The sequential operations

Left alone, the steps of the device are `DeviceQueue.send` and `DeviceQueue.recv`. -/

/-- An uninterrupted `send` moves the counters as `DeviceQueue.send` does and leaves the used ring
with the entry in its slot and the new index. -/
theorem deviceSend_uninterrupted (s : RingSys) {desc : UInt16} (len : UInt32)
    (log : List QueueEvent) (hpc : s.devicePc = .idle) (hheld : s.held desc) :
    [Act.deviceSend desc len, .device, .device, .device].foldlM RingSys.step s =
      some { s with
        device := (DeviceQueue.send ⟨s.device, log⟩ desc len).toQueue
        shared := { s.shared with used := { s.shared.used with
          ring := Function.update s.shared.used.ring s.device.bumpDrivenIdx.drivenSlot
            ⟨desc.toUInt32, len⟩
          index := s.device.bumpDrivenIdx.drivenIdx } }
        returned := s.returned ++ [(desc, len)]
        usedPublished := s.usedPublished + 1
        devicePc := .idle } := by
  simp [RingSys.step, RingSys.stepDevice, hpc, hheld, setUsedRing, DeviceQueue.send]

/-- An uninterrupted `recv` of a non-empty ring moves the counters and returns the head as
`DeviceQueue.recv` does against memory that does not change. -/
theorem deviceRecv_uninterrupted (s : RingSys) (log : List QueueEvent) (hpc : s.devicePc = .idle)
    (hne : s.device.countAvailable s.shared.avail.index ≠ 0) :
    ∃ t, [Act.deviceRecv, .device, .device, .device].foldlM RingSys.step s = some t ∧
      let r := DeviceQueue.recv ⟨s.device, log⟩ (fun _ => s.shared) 0
      t.device = r.queue.toQueue ∧
        (r.err = .none ∧ t.received = s.received ++ [r.desc] ∧ t.rejected = s.rejected ∨
          r.err = .notrecoverable ∧ t.received = s.received ∧ t.rejected = s.rejected + 1) := by
  by_cases hhead : s.device.size ≤ s.shared.avail.ring s.device.readSlot
  · simp [RingSys.step, RingSys.stepDevice, hpc, hne, hhead, DeviceQueue.recv, DeviceQueue.emit]
  · simp [RingSys.step, RingSys.stepDevice, hpc, hne, hhead, DeviceQueue.recv, DeviceQueue.emit]

end RingSys

end Vml
