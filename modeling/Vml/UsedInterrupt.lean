import Vml.UsedEvent
import Vml.VirtqueueRingProof

/-!
# Interrupts for used chains

A device that hands a chain back asks `used_event_notify` whether the driver wants an interrupt for
it, and a driver that takes a chain from the used ring stores the used index that it has seen in
`used_event` (`DriverQueue::recv`). Here both do so over one queue, whose loads and stores
interleave in any order (`RingSys`), with a device that asks once after every chain.

**No interrupt is lost.** Once a `recv` of the driver has found the ring empty, the index in
`used_event` is the number of chains the driver has taken. The next chain moves the used index past
it, whenever the store comes, and is notified.

**Few are raised.** Every interrupt is for another value of `used_event`. Until the driver takes a
chain there is one at most, however many chains are handed back.

Main results: `NotifySys.no_interrupt_lost`, and `NotifySys.raised_le`.
-/

namespace Vml

/-! ## The two sides -/

/-- `DriverQueue::create_driver_queue`: the regions are zeroed, if there is memory for the three of
them. -/
def createDriverQueue (numEntries : UInt16) (alloc : ℕ → Bool) : Except Errno (Queue × Shared) :=
  if !isSizeValid numEntries then .error .inval
  else if alloc 0 && alloc 1 && alloc 2 then .ok ({ size := numEntries }, {})
  else .error .nomem

/-- The queue, with what the device has done about interrupts. -/
structure NotifySys where
  ring : RingSys
  /-- The device has begun to hand a chain back and has not asked since. -/
  untested : Bool := false
  /-- How many interrupts the device has raised. -/
  raised : ℕ := 0
  /-- The last `recv` of the driver has found the ring empty: how many interrupts there had been.
  A history variable. -/
  drained : Option ℕ := none

namespace NotifySys

open RingSys (usedChan)

/-- What happens: a step of the queue, or the device asks. -/
inductive Act
  | ring (act : RingSys.Act)
  | test
  deriving DecidableEq, Repr

/-- The driver is about to find the ring empty. -/
def findsEmpty (s : RingSys) : Bool :=
  s.driverPc = .recvIndex ∧ s.driver.countAvailable s.shared.used.index = 0

/-- The device asks after the chain that it has handed back, and raises an interrupt. -/
def test (s : NotifySys) : NotifySys :=
  { s with
    untested := false
    raised := if DeviceQueue.usedEventNotify { toQueue := s.ring.device } s.ring.shared then
      s.raised + 1 else s.raised }

/-- What comes after an act, if it can happen. -/
def step (s : NotifySys) : Act → Option NotifySys
  | .ring (.deviceSend desc len) =>
      if s.untested then none
      else (s.ring.step (.deviceSend desc len)).map fun ring => { s with ring, untested := true }
  | .ring .driverRecv =>
      (s.ring.step .driverRecv).map fun ring => { s with ring, drained := none }
  | .ring .driver =>
      (s.ring.step .driver).map fun ring =>
        { s with ring, drained := if findsEmpty s.ring then some s.raised else s.drained }
  | .ring act => (s.ring.step act).map fun ring => { s with ring }
  | .test => if s.untested ∧ s.ring.devicePc = .idle then some s.test else none

/-- Both sides of a queue that has been created. -/
def start (created : Queue × Shared) : NotifySys :=
  { ring := RingSys.initial created.1.size created.2 }

/-- The runs from there. -/
abbrev Runs (created : Queue × Shared) : List Act → NotifySys → Prop :=
  Run (fun s a t => s.step a = some t) (start created)

/-- How often the driver has stored `used_event`: for every chain that it has taken, and for the
one it is about to take. -/
def stored (s : RingSys) : ℕ := s.reclaimed.length + if s.driverPc = .recvRing then 1 else 0

/-! ## The invariant -/

variable {size : UInt16} {s t : NotifySys} {r : RingSys} {seen loaded : ℕ}

/-- The chain that has moved the used index past `used_event` has not been asked about. -/
def Asks (s : NotifySys) (seen : ℕ) : Prop :=
  s.ring.usedPublished = seen + 1 ∧ s.untested = true ∧ s.ring.devicePc.stage = .done

/-- The state of the queue with the value of `used_event` and the index the driver has loaded, both
without the reduction modulo `2 ^ 16`. -/
structure Inv (size : UInt16) (seen loaded : ℕ) (s : NotifySys) : Prop where
  ring : RingSys.Inv size s.ring
  event : s.ring.shared.avail.availEvent = UInt16.ofNat seen
  reclaimed_le : s.ring.reclaimed.length ≤ seen
  seen_le : seen ≤ s.ring.usedPublished
  loads : ∀ usedIdx, s.ring.driverPc = .recvEvent usedIdx →
    usedIdx = UInt16.ofNat loaded ∧ s.ring.reclaimed.length < loaded ∧
      loaded ≤ s.ring.usedPublished
  takes : s.ring.driverPc = .recvRing → s.ring.reclaimed.length < seen
  -- What the device knows.
  sends : s.ring.devicePc.stage ≠ .done → s.untested = true
  prev : s.untested = true → s.ring.device.drivenIdx = s.ring.device.prev + 1
  -- What the driver is owed.
  receives : s.drained ≠ none → s.ring.driverPc ≠ .recvIndex ∧ s.ring.driverPc.reading = false
  drained : ∀ k, s.drained = some k → seen = s.ring.reclaimed.length ∧ k ≤ s.raised ∧
    (s.ring.usedPublished = seen ∨ k < s.raised ∨ s.Asks seen)
  -- How many interrupts there have been.
  raised : s.raised ≤ stored s.ring + 1
  fresh : s.ring.usedPublished = seen ∨ s.Asks seen → s.raised ≤ stored s.ring

theorem inv_start {numEntries : UInt16} {alloc : ℕ → Bool} {created : Queue × Shared}
    (h : createDriverQueue numEntries alloc = .ok created) :
    isSizeValid numEntries = true ∧ Inv numEntries 0 0 (start created) := by
  unfold createDriverQueue at h
  split_ifs at h with hsize halloc
  cases h
  refine ⟨by simpa using hsize, ?_⟩
  exact {
    ring := RingSys.inv_initial numEntries {}
    event := rfl
    reclaimed_le := le_rfl
    seen_le := le_rfl
    loads := fun _ hpc => by cases hpc
    takes := fun hpc => by cases hpc
    sends := fun hstage => absurd rfl hstage
    prev := fun huntested => by cases huntested
    receives := fun hdrained => absurd rfl hdrained
    drained := fun _ hk => by cases hk
    raised := Nat.zero_le _
    fresh := fun _ => Nat.zero_le _ }

/-! ## Steps that do not matter -/

/-- What the invariant is about is the same, up to where the driver is in its `send`. -/
structure Quiet (r r' : RingSys) : Prop where
  reclaimed : r'.reclaimed = r.reclaimed
  usedPublished : r'.usedPublished = r.usedPublished
  event : r'.shared.avail.availEvent = r.shared.avail.availEvent
  stage : r'.devicePc.stage = .done ↔ r.devicePc.stage = .done
  drivenIdx : r'.device.drivenIdx = r.device.drivenIdx
  prev : r'.device.prev = r.device.prev
  driverPc : r'.driverPc = r.driverPc ∨
    r.driverPc.reading = false ∧ r'.driverPc ≠ .recvIndex ∧ r'.driverPc.reading = false

theorem Quiet.stored (h : Quiet s.ring r) : stored r = stored s.ring := by
  rw [NotifySys.stored, NotifySys.stored, h.reclaimed]
  rcases h.driverPc with hpc | ⟨hpc, -, hpc'⟩
  · rw [hpc]
  · have hne : s.ring.driverPc ≠ .recvRing := fun heq => by
      rw [heq] at hpc
      cases hpc
    have hne' : r.driverPc ≠ .recvRing := fun heq => by
      rw [heq] at hpc'
      cases hpc'
    rw [if_neg hne, if_neg hne']

theorem Quiet.asks_iff (h : Quiet s.ring r) : Asks { s with ring := r } seen ↔ s.Asks seen := by
  simp only [Asks, h.usedPublished, h.stage]

theorem Inv.quiet (h : Inv size seen loaded s) (hring : RingSys.Inv size r) (hq : Quiet s.ring r) :
    Inv size seen loaded { s with ring := r } where
  ring := hring
  event := hq.event.trans h.event
  reclaimed_le := by
    dsimp only
    rw [hq.reclaimed]
    exact h.reclaimed_le
  seen_le := hq.usedPublished.symm ▸ h.seen_le
  loads usedIdx hpc := by
    dsimp only at hpc ⊢
    rw [hq.reclaimed, hq.usedPublished]
    rcases hq.driverPc with heq | ⟨-, -, hread⟩
    · exact h.loads usedIdx (heq.symm.trans hpc)
    · rw [hpc] at hread
      cases hread
  takes hpc := by
    dsimp only at hpc ⊢
    rw [hq.reclaimed]
    rcases hq.driverPc with heq | ⟨-, -, hread⟩
    · exact h.takes (heq.symm.trans hpc)
    · rw [hpc] at hread
      cases hread
  sends hstage := h.sends (mt hq.stage.2 hstage)
  prev huntested := by
    dsimp only
    rw [hq.drivenIdx, hq.prev]
    exact h.prev huntested
  receives hdrained := by
    rcases hq.driverPc with heq | ⟨-, hpc⟩
    · dsimp only
      rw [heq]
      exact h.receives hdrained
    · exact hpc
  drained k hk := by
    rw [hq.asks_iff]
    dsimp only
    rw [hq.reclaimed, hq.usedPublished]
    exact h.drained k hk
  raised := by
    dsimp only
    rw [hq.stored]
    exact h.raised
  fresh hfresh := by
    rw [hq.asks_iff] at hfresh
    dsimp only at hfresh ⊢
    rw [hq.usedPublished] at hfresh
    rw [hq.stored]
    exact h.fresh hfresh

theorem quiet_driverSend {desc : UInt16} (hstep : s.ring.step (.driverSend desc) = some r) :
    Quiet s.ring r := by
  simp only [RingSys.step, Option.ite_none_right_eq_some, Option.some.injEq] at hstep
  obtain ⟨⟨hpc, -⟩, rfl⟩ := hstep
  exact ⟨rfl, rfl, rfl, Iff.rfl, rfl, rfl, .inr ⟨by rw [hpc]; rfl, by simp, rfl⟩⟩

theorem quiet_driver
    (hpc : (∃ desc, s.ring.driverPc = .sendRing desc) ∨ s.ring.driverPc = .sendIndex)
    (hstep : s.ring.step .driver = some r) : Quiet s.ring r := by
  rw [RingSys.step, RingSys.stepDriver] at hstep
  rcases hpc with ⟨desc, hpc⟩ | hpc
  · simp only [hpc, Option.some.injEq] at hstep
    subst hstep
    exact ⟨rfl, rfl, rfl, Iff.rfl, rfl, rfl, .inr ⟨by rw [hpc]; rfl, by simp, rfl⟩⟩
  · simp only [hpc, Option.some.injEq] at hstep
    subst hstep
    exact ⟨rfl, rfl, rfl, Iff.rfl, rfl, rfl, .inr ⟨by rw [hpc]; rfl, by simp, rfl⟩⟩

theorem quiet_deviceRecv (hstep : s.ring.step .deviceRecv = some r) : Quiet s.ring r := by
  simp only [RingSys.step, Option.ite_none_right_eq_some, Option.some.injEq] at hstep
  obtain ⟨hpc, rfl⟩ := hstep
  exact ⟨rfl, rfl, rfl, by simp [hpc, DevicePc.stage], rfl, rfl, .inl rfl⟩

/-- The steps of the device that do not publish a chain. -/
theorem quiet_device (hpc : s.ring.devicePc ≠ .sendIndex) (hstep : s.ring.step .device = some r) :
    Quiet s.ring r := by
  rw [RingSys.step, RingSys.stepDevice] at hstep
  cases hat : s.ring.devicePc with
  | idle =>
      simp only [hat] at hstep
      cases hstep
  | sendIndex => exact absurd hat hpc
  | sendId desc len | sendLength len | recvEvent availIdx =>
      simp only [hat, Option.some.injEq] at hstep
      subst hstep
      exact ⟨rfl, rfl, rfl, by simp [hat, DevicePc.stage], rfl, rfl, .inl rfl⟩
  | recvIndex | recvRing =>
      simp only [hat] at hstep
      split at hstep
      all_goals
        simp only [Option.some.injEq] at hstep
        subst hstep
        exact ⟨rfl, rfl, rfl, by simp [hat, DevicePc.stage], rfl, rfl, .inl rfl⟩

/-! ## The device -/

section Steps

variable (hsize : isSizeValid size = true) (h : Inv size seen loaded s)

include h

theorem Inv.returned_length (hpc : s.ring.devicePc = .idle) :
    s.ring.returned.length = s.ring.usedPublished := by
  have hlen := h.ring.used.length
  rw [RingSys.usedChan, hpc] at hlen
  simpa [DevicePc.stage, Stage.pending] using hlen

theorem Inv.published_le : s.ring.usedPublished ≤ s.ring.reclaimed.length + size.toNat := by
  have hunread := h.ring.used.unread_le
  have hle := h.ring.used.consumed_le
  dsimp only [RingSys.usedChan] at hunread hle
  omega

/-- **The device is answered exactly**: it is to notify if the chain that it asks after has moved
the used index past `used_event`. -/
theorem Inv.notify_iff (hsize : isSizeValid size = true) (huntested : s.untested = true)
    (hpc : s.ring.devicePc = .idle) :
    DeviceQueue.usedEventNotify { toQueue := s.ring.device } s.ring.shared = true ↔
      s.ring.usedPublished = seen + 1 := by
  have hprev := h.prev huntested
  have hdriven := h.ring.deviceDriven
  rw [h.returned_length hpc] at hdriven
  have hone : s.ring.device.drivenIdx - s.ring.device.prev = 1 := by
    rw [hprev, UInt16.add_comm]
    exact UInt16.add_sub_cancel ..
  -- The event is the index before the chain, in the counters of the queue ...
  have hcounters : DeviceQueue.usedEventNotify { toQueue := s.ring.device } s.ring.shared = true ↔
      UInt16.ofNat seen + 1 = UInt16.ofNat s.ring.usedPublished := by
    rw [DeviceQueue.usedEventNotify, decide_eq_true_eq, needsEvent_iff, hone, h.event, ← hdriven,
      hprev, UInt16.lt_iff_toNat_lt, UInt16.toNat_one, Nat.lt_one_iff]
    constructor
    · intro hzero
      have hsub : UInt16.ofNat seen - s.ring.device.prev = 0 := UInt16.toNat_inj.1 hzero
      rw [← UInt16.sub_add_cancel (UInt16.ofNat seen) s.ring.device.prev, hsub, UInt16.zero_add]
    · intro heq
      have hseen : UInt16.ofNat seen = s.ring.device.prev := (UInt16.add_left_inj 1).1 heq
      rw [hseen, UInt16.sub_self]
      rfl
  -- ... and without the reduction, as they are less than the range of the counters apart.
  have hle := h.reclaimed_le
  have hseen := h.seen_le
  have hroom := h.published_le
  have hmax := isSizeValid_le hsize
  rw [hcounters, ← UInt16.toNat_inj, UInt16.toNat_add, UInt16.toNat_ofNat', UInt16.toNat_ofNat',
    UInt16.toNat_one]
  omega

theorem Inv.test (hsize : isSizeValid size = true) (huntested : s.untested = true)
    (hpc : s.ring.devicePc = .idle) : Inv size seen loaded s.test := by
  have hnotify := h.notify_iff hsize huntested hpc
  have hseen := h.seen_le
  have hasks : s.ring.usedPublished = seen + 1 → s.Asks seen := fun heq =>
    ⟨heq, huntested, by rw [hpc]; rfl⟩
  have hraised : s.raised ≤ s.test.raised := by
    simp only [NotifySys.test]
    split_ifs
    · exact Nat.le_succ _
    · exact le_rfl
  exact { h with
    sends := fun hstage => absurd (by rw [NotifySys.test, hpc]; rfl) hstage
    prev := fun hfalse => by cases hfalse
    drained := by
      intro k hk
      obtain ⟨heq, hle, howed⟩ := h.drained k hk
      refine ⟨heq, hle.trans hraised, ?_⟩
      rcases howed with hnone | hlt | hask
      · exact .inl hnone
      · exact .inr (.inl (Nat.lt_of_lt_of_le hlt hraised))
      · refine .inr (.inl (Nat.lt_succ_of_le hle |>.trans_eq ?_))
        simp only [NotifySys.test, hnotify.2 hask.1, if_true]
    raised := by
      show s.test.raised ≤ stored s.ring + 1
      simp only [NotifySys.test]
      split_ifs with hyes
      · exact Nat.succ_le_succ (h.fresh (.inr (hasks (hnotify.1 hyes))))
      · exact h.raised
    fresh := by
      rintro (heq | hask)
      · have hno : ¬DeviceQueue.usedEventNotify { toQueue := s.ring.device } s.ring.shared = true :=
          fun hyes => by
            have hnext := hnotify.1 hyes
            have hsame : s.ring.usedPublished = seen := heq
            omega
        show s.test.raised ≤ stored s.ring
        simp only [NotifySys.test, if_neg hno]
        exact h.fresh (.inl heq)
      · exact absurd hask.2.1 Bool.false_ne_true }

theorem Inv.deviceSend {desc : UInt16} {len : UInt32} (hring : RingSys.Inv size r)
    (huntested : s.untested = false) (hstep : s.ring.step (.deviceSend desc len) = some r) :
    Inv size seen loaded { s with ring := r, untested := true } := by
  simp only [RingSys.step, Option.ite_none_right_eq_some, Option.some.injEq] at hstep
  obtain ⟨-, rfl⟩ := hstep
  have hnot {m : ℕ} : ¬s.Asks m := fun hask => by
    have hasked := hask.2.1
    rw [huntested] at hasked
    cases hasked
  exact { h with
    ring := hring
    sends := fun _ => rfl
    prev := fun _ => rfl
    drained := by
      intro k hk
      obtain ⟨heq, hle, howed⟩ := h.drained k hk
      refine ⟨heq, hle, ?_⟩
      rcases howed with hnone | hlt | hask
      · exact .inl hnone
      · exact .inr (.inl hlt)
      · exact absurd hask hnot
    fresh := by
      rintro (heq | hask)
      · exact h.fresh (.inl heq)
      · cases hask.2.2 }

theorem Inv.publish (hring : RingSys.Inv size r) (hpc : s.ring.devicePc = .sendIndex)
    (hstep : s.ring.step .device = some r) : Inv size seen loaded { s with ring := r } := by
  have huntested := h.sends (by rw [hpc]; exact fun hdone => by cases hdone)
  have hnot {m : ℕ} : ¬s.Asks m := fun hask => by
    have hdone := hask.2.2
    rw [hpc] at hdone
    cases hdone
  have hseen := h.seen_le
  simp only [RingSys.step, RingSys.stepDevice, hpc, Option.some.injEq] at hstep
  subst hstep
  exact { h with
    ring := hring
    seen_le := Nat.le_succ_of_le h.seen_le
    loads := by
      intro usedIdx hload
      obtain ⟨heq, hlt, hle⟩ := h.loads usedIdx hload
      exact ⟨heq, hlt, Nat.le_succ_of_le hle⟩
    sends := fun _ => huntested
    drained := by
      intro k hk
      obtain ⟨heq, hle, howed⟩ := h.drained k hk
      refine ⟨heq, hle, ?_⟩
      rcases howed with hnone | hlt | hask
      · -- the chain moves the index past the event
        exact .inr (.inr ⟨congrArg (· + 1) hnone, huntested, rfl⟩)
      · exact .inr (.inl hlt)
      · exact absurd hask hnot
    fresh := by
      rintro (heq | hask)
      · have hsame : s.ring.usedPublished + 1 = seen := heq
        omega
      · exact h.fresh (.inl (Nat.succ_inj.1 hask.1)) }

/-! ## The driver -/

theorem Inv.raised_congr (hsame : stored r = stored s.ring) : s.raised ≤ stored r + 1 ∧
    (s.ring.usedPublished = seen ∨ s.Asks seen → s.raised ≤ stored r) := by
  rw [hsame]
  exact ⟨h.raised, h.fresh⟩

theorem Inv.driverRecv (hring : RingSys.Inv size r) (hstep : s.ring.step .driverRecv = some r) :
    Inv size seen loaded { s with ring := r, drained := none } := by
  simp only [RingSys.step, Option.ite_none_right_eq_some, Option.some.injEq] at hstep
  obtain ⟨hpc, rfl⟩ := hstep
  have hsame : stored { s.ring with driverPc := .recvIndex } = stored s.ring := by
    simp [stored, hpc]
  exact { h with
    ring := hring
    loads := fun _ hload => by cases hload
    takes := fun htake => by cases htake
    receives := fun hdrained => absurd rfl hdrained
    drained := fun _ hk => by cases hk
    raised := (h.raised_congr hsame).1
    fresh := (h.raised_congr hsame).2 }

theorem Inv.awake (hpc : s.ring.driverPc = .recvIndex ∨ s.ring.driverPc.reading = true) :
    s.drained = none := by
  by_contra hdrained
  obtain ⟨hindex, hreading⟩ := h.receives hdrained
  rcases hpc with heq | heq
  · exact hindex heq
  · rw [heq] at hreading
    cases hreading

/-- **The driver finds the ring empty**: it has taken every chain that is published, and
`used_event` is the number of them. -/
theorem Inv.findEmpty (hsize : isSizeValid size = true) (hring : RingSys.Inv size r)
    (hpc : s.ring.driverPc = .recvIndex)
    (hempty : s.ring.driver.countAvailable s.ring.shared.used.index = 0)
    (hstep : s.ring.step .driver = some r) :
    Inv size seen loaded { s with ring := r, drained := some s.raised } := by
  have hzero := RingSys.countAvailable_eq_zero h.ring.driverIdx h.ring.usedIndex
    (h.reclaimed_le.trans h.seen_le) (by
      have hroom := h.published_le
      have hmax := isSizeValid_le hsize
      omega)
  have hall := hzero.1 hempty
  have hseen : seen = s.ring.reclaimed.length :=
    Nat.le_antisymm (h.seen_le.trans_eq hall) h.reclaimed_le
  simp only [RingSys.step, RingSys.stepDriver, hpc, hempty, if_true, Option.some.injEq] at hstep
  have hsame : stored r = stored s.ring := by
    rw [← hstep]
    simp [stored, hpc]
  subst hstep
  exact { h with
    ring := hring
    loads := fun _ hload => by cases hload
    takes := fun htake => by cases htake
    receives := fun _ => ⟨by simp, rfl⟩
    drained := by
      intro k hk
      cases hk
      exact ⟨hseen, le_rfl, .inl (hall.trans hseen.symm)⟩
    raised := (h.raised_congr hsame).1
    fresh := (h.raised_congr hsame).2 }

theorem Inv.findChain (hsize : isSizeValid size = true) (hring : RingSys.Inv size r)
    (hpc : s.ring.driverPc = .recvIndex)
    (hfound : s.ring.driver.countAvailable s.ring.shared.used.index ≠ 0)
    (hstep : s.ring.step .driver = some r) :
    Inv size seen s.ring.usedPublished { s with ring := r } := by
  have hle := h.reclaimed_le.trans h.seen_le
  have hzero := RingSys.countAvailable_eq_zero h.ring.driverIdx h.ring.usedIndex hle (by
      have hroom := h.published_le
      have hmax := isSizeValid_le hsize
      omega)
  have hlt : s.ring.reclaimed.length < s.ring.usedPublished :=
    Nat.lt_of_le_of_ne hle fun heq => hfound (hzero.2 heq.symm)
  have hawake := h.awake (.inl hpc)
  simp only [RingSys.step, RingSys.stepDriver, hpc, hfound, if_false, Option.some.injEq] at hstep
  have hsame : stored r = stored s.ring := by
    rw [← hstep]
    simp [stored, hpc]
  subst hstep
  exact { h with
    ring := hring
    loads := by
      intro usedIdx hload
      cases hload
      exact ⟨h.ring.usedIndex, hlt, le_rfl⟩
    takes := fun htake => by cases htake
    receives := fun hdrained => absurd hawake hdrained
    drained := fun k hk => by simp [hawake] at hk
    raised := (h.raised_congr hsame).1
    fresh := (h.raised_congr hsame).2 }

theorem Inv.storeEvent {usedIdx : UInt16} (hring : RingSys.Inv size r)
    (hpc : s.ring.driverPc = .recvEvent usedIdx) (hstep : s.ring.step .driver = some r) :
    Inv size loaded loaded { s with ring := r } := by
  obtain ⟨hidx, hlt, hle⟩ := h.loads usedIdx hpc
  have hawake := h.awake (.inr (by rw [hpc]; rfl))
  have hraised := h.raised
  simp only [RingSys.step, RingSys.stepDriver, hpc, Option.some.injEq] at hstep
  subst hstep
  have hstored : stored s.ring = s.ring.reclaimed.length := by simp [stored, hpc]
  rw [hstored] at hraised
  exact { h with
    ring := hring
    event := hidx
    reclaimed_le := hlt.le
    seen_le := hle
    loads := fun _ hload => by cases hload
    takes := fun _ => hlt
    receives := fun hdrained => absurd hawake hdrained
    drained := fun k hk => by simp [hawake] at hk
    raised := by
      show s.raised ≤ s.ring.reclaimed.length + 1 + 1
      exact Nat.le_succ_of_le hraised
    fresh := fun _ => hraised }

theorem Inv.take (hring : RingSys.Inv size r) (hpc : s.ring.driverPc = .recvRing)
    (hstep : s.ring.step .driver = some r) : Inv size seen loaded { s with ring := r } := by
  have hlt := h.takes hpc
  have hawake := h.awake (.inr (by rw [hpc]; rfl))
  simp only [RingSys.step, RingSys.stepDriver, hpc, Option.some.injEq] at hstep
  have hsame : stored r = stored s.ring := by
    rw [← hstep]
    simp [stored, hpc]
  subst hstep
  exact { h with
    ring := hring
    reclaimed_le := by
      rw [List.length_append]
      exact hlt
    loads := fun _ hload => by cases hload
    takes := fun htake => by cases htake
    receives := fun hdrained => absurd hawake hdrained
    drained := fun k hk => by simp [hawake] at hk
    raised := (h.raised_congr hsame).1
    fresh := (h.raised_congr hsame).2 }

end Steps

/-! ## Every run -/

/-- **A step of the driver** that it takes on its own. -/
theorem Inv.stepDriver (hsize : isSizeValid size = true) (h : Inv size seen loaded s)
    (hstep : s.ring.step .driver = some r) :
    ∃ seen loaded, Inv size seen loaded
      { s with ring := r, drained := if findsEmpty s.ring then some s.raised else s.drained } := by
  have hring := h.ring.step hsize hstep
  have hnot (hpc : s.ring.driverPc ≠ .recvIndex) : findsEmpty s.ring = false := by
    simp [findsEmpty, hpc]
  cases hpc : s.ring.driverPc with
  | idle =>
      simp only [RingSys.step, RingSys.stepDriver, hpc] at hstep
      cases hstep
  | sendRing desc =>
      rw [hnot (by simp [hpc])]
      exact ⟨seen, loaded, h.quiet hring (quiet_driver (.inl ⟨desc, hpc⟩) hstep)⟩
  | sendIndex =>
      rw [hnot (by simp [hpc])]
      exact ⟨seen, loaded, h.quiet hring (quiet_driver (.inr hpc) hstep)⟩
  | recvIndex =>
      by_cases hempty : s.ring.driver.countAvailable s.ring.shared.used.index = 0
      · have hfinds : findsEmpty s.ring = true := by simp [findsEmpty, hpc, hempty]
        rw [hfinds]
        exact ⟨seen, loaded, h.findEmpty hsize hring hpc hempty hstep⟩
      · have hfinds : findsEmpty s.ring = false := by simp [findsEmpty, hempty]
        rw [hfinds]
        exact ⟨seen, s.ring.usedPublished, h.findChain hsize hring hpc hempty hstep⟩
  | recvEvent usedIdx =>
      rw [hnot (by simp [hpc])]
      exact ⟨loaded, loaded, h.storeEvent hring hpc hstep⟩
  | recvRing =>
      rw [hnot (by simp [hpc])]
      exact ⟨seen, loaded, h.take hring hpc hstep⟩

/-- **The step lemma.** -/
theorem Inv.step (hsize : isSizeValid size = true) (h : Inv size seen loaded s) {act : Act}
    (hstep : s.step act = some t) : ∃ seen loaded, Inv size seen loaded t := by
  unfold NotifySys.step at hstep
  cases act with
  | test =>
      simp only [Option.ite_none_right_eq_some, Option.some.injEq] at hstep
      obtain ⟨⟨huntested, hpc⟩, rfl⟩ := hstep
      exact ⟨seen, loaded, h.test hsize huntested hpc⟩
  | ring act =>
      cases act with
      | deviceSend desc len =>
          simp only [Option.ite_none_left_eq_some, Option.map_eq_some_iff] at hstep
          obtain ⟨huntested, r, hr, rfl⟩ := hstep
          exact ⟨seen, loaded, h.deviceSend (h.ring.step hsize hr) (by simpa using huntested) hr⟩
      | driverRecv =>
          simp only [Option.map_eq_some_iff] at hstep
          obtain ⟨r, hr, rfl⟩ := hstep
          exact ⟨seen, loaded, h.driverRecv (h.ring.step hsize hr) hr⟩
      | driver =>
          simp only [Option.map_eq_some_iff] at hstep
          obtain ⟨r, hr, rfl⟩ := hstep
          exact h.stepDriver hsize hr
      | driverSend desc =>
          simp only [Option.map_eq_some_iff] at hstep
          obtain ⟨r, hr, rfl⟩ := hstep
          exact ⟨seen, loaded, h.quiet (h.ring.step hsize hr) (quiet_driverSend hr)⟩
      | deviceRecv =>
          simp only [Option.map_eq_some_iff] at hstep
          obtain ⟨r, hr, rfl⟩ := hstep
          exact ⟨seen, loaded, h.quiet (h.ring.step hsize hr) (quiet_deviceRecv hr)⟩
      | device =>
          simp only [Option.map_eq_some_iff] at hstep
          obtain ⟨r, hr, rfl⟩ := hstep
          have hring := h.ring.step hsize hr
          by_cases hpc : s.ring.devicePc = .sendIndex
          · exact ⟨seen, loaded, h.publish hring hpc hr⟩
          · exact ⟨seen, loaded, h.quiet hring (quiet_device hpc hr)⟩

section Runs

variable {numEntries : UInt16} {alloc : ℕ → Bool} {created : Queue × Shared} {acts : List Act}

/-- **In every run** the invariant holds. -/
theorem inv_run (hcreated : createDriverQueue numEntries alloc = .ok created)
    (h : Runs created acts s) : ∃ seen loaded, Inv numEntries seen loaded s := by
  obtain ⟨hsize, hstart⟩ := inv_start hcreated
  refine @Run.invariant _ _ _ (fun s => ∃ seen loaded, Inv numEntries seen loaded s) _ _ _ ?_ h
    ⟨0, 0, hstart⟩
  intro u act v hu hstep
  obtain ⟨seen, loaded, hinv⟩ := hu
  exact hinv.step hsize hstep

/-- **No interrupt is lost.** If the last `recv` of the driver has found the ring empty, and the
device is done with what it has handed back, then the driver has taken all of it, or there has been
an interrupt since. -/
theorem no_interrupt_lost (hcreated : createDriverQueue numEntries alloc = .ok created)
    (h : Runs created acts s) {k : ℕ} (hdrained : s.drained = some k)
    (htested : s.untested = false) :
    s.ring.reclaimed = s.ring.returned ∨ k < s.raised := by
  obtain ⟨seen, loaded, hinv⟩ := inv_run hcreated h
  have hdone : s.ring.devicePc.stage = .done := by
    by_contra hstage
    rw [hinv.sends hstage] at htested
    cases htested
  have hlen : s.ring.returned.length = s.ring.usedPublished := by
    simpa [RingSys.usedChan, hdone, Stage.pending] using hinv.ring.used.length
  obtain ⟨hseen, -, hnone | hlt | hask⟩ := hinv.drained k hdrained
  · refine .inl (hinv.ring.reclaimed_prefix.eq_of_length ?_)
    rw [hlen, hnone, hseen]
  · exact .inr hlt
  · have huntested := hask.2.1
    rw [htested] at huntested
    cases huntested

/-- **Few interrupts are raised**: one at most for every chain that the driver takes, and one before
the first. -/
theorem raised_le (hcreated : createDriverQueue numEntries alloc = .ok created)
    (h : Runs created acts s) (hidle : s.ring.driverPc = .idle) :
    s.raised ≤ s.ring.reclaimed.length + 1 := by
  obtain ⟨seen, loaded, hinv⟩ := inv_run hcreated h
  have hraised := hinv.raised
  simpa [stored, hidle] using hraised

end Runs

/-! ## Two chains over a queue of two -/

/-- Two chains are sent, and the driver finds nothing yet. Then both are handed back. -/
def twoChains : List Act :=
  [.ring (.driverSend 0), .ring .driver, .ring .driver, .ring (.driverSend 1), .ring .driver,
    .ring .driver, .ring .driverRecv, .ring .driver,
    .ring .deviceRecv, .ring .device, .ring .device, .ring .device, .ring .deviceRecv,
    .ring .device, .ring .device, .ring .device,
    .ring (.deviceSend 0 16), .ring .device, .ring .device, .ring .device, .test,
    .ring (.deviceSend 1 16), .ring .device, .ring .device, .ring .device, .test]

theorem run_twoChains : ∃ s, Runs ({ size := 2 }, {}) twoChains s ∧ s.drained = some 0 ∧
    s.untested = false ∧ s.ring.driverPc = .idle ∧ s.ring.returned.length = 2 := by
  have hexec : (twoChains.foldlM step (start ({ size := 2 }, {}))).map (fun s =>
      (s.drained, s.untested, s.ring.driverPc, s.ring.returned.length)) =
        some (some 0, false, .idle, 2) := by decide +kernel
  obtain ⟨s, hs, hend⟩ := Option.map_eq_some_iff.1 hexec
  simp only [Prod.mk.injEq] at hend
  exact ⟨s, Run.of_foldlM hs, hend⟩

/-- The first chain is notified. -/
theorem no_interrupt_lost_twoChains : ∃ created s,
    createDriverQueue 2 (fun _ => true) = .ok created ∧ Runs created twoChains s ∧
      s.drained = some 0 ∧ (s.ring.reclaimed = s.ring.returned ∨ 0 < s.raised) := by
  obtain ⟨s, hrun, hdrained, htested, -⟩ := run_twoChains
  have hcreated : createDriverQueue 2 (fun _ => true) = .ok ({ size := 2 }, {}) := rfl
  exact ⟨_, s, hcreated, hrun, hdrained, no_interrupt_lost hcreated hrun hdrained htested⟩

/-- And the second one is not. -/
theorem raised_le_twoChains : ∃ created s,
    createDriverQueue 2 (fun _ => true) = .ok created ∧ Runs created twoChains s ∧
      s.ring.returned.length = 2 ∧ s.raised ≤ s.ring.reclaimed.length + 1 := by
  obtain ⟨s, hrun, -, -, hidle, hreturned⟩ := run_twoChains
  have hcreated : createDriverQueue 2 (fun _ => true) = .ok ({ size := 2 }, {}) := rfl
  exact ⟨_, s, hcreated, hrun, hreturned, raised_le hcreated hrun hidle⟩

end NotifySys

end Vml
