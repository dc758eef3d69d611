import Vml.Lib.Run
import Vml.Virtqueue

/-!
# Notification at a used event

A driver that does not want an interrupt for every chain stores in `used_event` the value of the
used index behind which it wants one. The device asks `used_event_notify` now and then, after any
number of sends, whether the used index has moved past it.

**The window.** The test compares distances modulo `2 ^ 16`, and it is exact for the indices from
`_prev` up to the current one (`needsEvent_iff`), across the wrap of the counters too. But `send`
stores to `_prev` each time, so that the window is that of the last send only, and not that of all
sends since the test was made before.

Main results: `notified_iff`, and `event_missed`.
-/

namespace Vml

/-- `used_event_notify`, which loads `used_event` from `m`. -/
def DeviceQueue.usedEventNotify (q : DeviceQueue) (m : Shared) : Bool :=
  let usedEvt := m.avail.availEvent
  let usedIdx := q.drivenIdx
  decide (usedIdx - usedEvt - 1 < usedIdx - q.prev)

/-- **The test is exact**: an event lies in the window from the old index up to the new one when
its distance from the old index is less than that of the new one. -/
theorem needsEvent_iff (old new event : UInt16) :
    new - event - 1 < new - old ↔ event - old < new - old := by
  have hold := old.toNat_lt
  have hnew := new.toNat_lt
  have hevent := event.toNat_lt
  have h1 : (1 : UInt16).toNat = 1 := rfl
  rw [UInt16.lt_iff_toNat_lt, UInt16.lt_iff_toNat_lt]
  simp only [UInt16.toNat_sub, h1]
  omega

/-! ## The system -/

/-- The queue. `before` is a history variable: the used index before each of the sends since
`used_event_notify` was last called, the oldest first. -/
structure EventSys where
  queue : DeviceQueue
  before : List UInt16 := []

/-- What the device does: it takes a chain, hands one back, or asks whether to notify. The memory is
what it loads from, so that the driver may store another `used_event` at any time. -/
inductive EventOp
  | recv (guest : Guest) (time : ℕ)
  | send (desc : UInt16) (len : UInt32)
  | usedEventNotify (m : Shared)

namespace EventSys

variable {s : EventSys}

/-- One operation. -/
def next (s : EventSys) : EventOp → EventSys
  | .recv guest time => { s with queue := (s.queue.recv guest time).queue }
  | .send desc len =>
      { queue := s.queue.send desc len, before := s.before ++ [s.queue.drivenIdx] }
  | .usedEventNotify _ => { s with before := [] }

/-- Some send since the previous test has moved the used index from `used_event` to the value
behind it. -/
def Crossed (s : EventSys) (m : Shared) : Prop := m.avail.availEvent ∈ s.before

instance (s : EventSys) (m : Shared) : Decidable (s.Crossed m) :=
  inferInstanceAs (Decidable (_ ∈ _))

/-- The last send is the one that has done so. -/
def LastCrossed (s : EventSys) (m : Shared) : Prop := s.before.getLast? = some m.avail.availEvent

/-! ## What the counters stand for -/

/-- `_prev` is the index before the last send. -/
structure Inv (s : EventSys) : Prop where
  prev : ∀ idx, s.before.getLast? = some idx → s.queue.prev = idx
  drivenIdx : s.before ≠ [] → s.queue.drivenIdx = s.queue.prev + 1

theorem inv_start (q : DeviceQueue) : Inv { queue := q } := ⟨nofun, fun h => absurd rfl h⟩

theorem recv_counters (q : DeviceQueue) (guest : Guest) (time : ℕ) :
    (q.recv guest time).queue.prev = q.prev ∧
      (q.recv guest time).queue.drivenIdx = q.drivenIdx := by
  rcases q.recv_cases guest time with h | h | h
  · rw [h.2.2.1]
    exact ⟨rfl, rfl⟩
  · rw [h.2.2.2.1]
    exact ⟨rfl, rfl⟩
  · rw [h.2.2.2.2.1]
    exact ⟨rfl, rfl⟩

/-- **The step lemma.** -/
theorem Inv.next (h : Inv s) (op : EventOp) : Inv (s.next op) := by
  cases op with
  | recv guest time =>
      obtain ⟨hprev, hdriven⟩ := recv_counters s.queue guest time
      refine ⟨?_, ?_⟩
      · intro idx hlast
        exact hprev.trans (h.prev idx hlast)
      · intro hne
        exact hdriven.trans ((h.drivenIdx hne).trans (by rw [EventSys.next, hprev]))
  | send desc len =>
      refine ⟨?_, fun _ => rfl⟩
      intro idx hlast
      simp only [EventSys.next, List.getLast?_concat, Option.some.injEq] at hlast
      exact hlast
  | usedEventNotify m => exact ⟨nofun, fun hne => absurd rfl hne⟩

/-- **In every run** `_prev` is the index before the last send. -/
theorem inv_run {ops : List EventOp} {q : DeviceQueue}
    (h : Run (fun s op s' => s' = EventSys.next s op) { queue := q } ops s) : Inv s := by
  refine h.invariant ?_ (inv_start q)
  rintro s op _ hs rfl
  exact hs.next op

/-! ## The test -/

/-- **After a send the test looks at that send only.** -/
theorem Inv.usedEventNotify_iff (h : Inv s) (hne : s.before ≠ []) (m : Shared) :
    s.queue.usedEventNotify m = true ↔ s.LastCrossed m := by
  obtain ⟨idx, hidx⟩ := Option.ne_none_iff_exists'.1 (mt List.getLast?_eq_none_iff.1 hne)
  have hdriven := h.drivenIdx hne
  have hprev := h.prev idx hidx
  have hone : s.queue.drivenIdx - s.queue.prev = 1 := by
    rw [hdriven, UInt16.add_comm]
    exact UInt16.add_sub_cancel ..
  rw [DeviceQueue.usedEventNotify, decide_eq_true_eq, needsEvent_iff, hone, LastCrossed, hidx, hprev, UInt16.lt_iff_toNat_lt,
    Option.some.injEq, UInt16.toNat_one, Nat.lt_one_iff]
  constructor
  · intro hzero
    have hsub : m.avail.availEvent - idx = 0 := UInt16.toNat_inj.1 hzero
    rw [← UInt16.sub_add_cancel m.avail.availEvent idx, hsub, UInt16.zero_add]
  · intro heq
    rw [heq, UInt16.sub_self]
    rfl

/-- **No event is missed** exactly when the send that has moved the used index past `used_event` is
the last one before the test. -/
theorem notified_iff {ops : List EventOp} {q : DeviceQueue}
    (h : Run (fun s op s' => s' = EventSys.next s op) { queue := q } ops s) (m : Shared) :
    (s.Crossed m → s.queue.usedEventNotify m = true) ↔ (s.Crossed m → s.LastCrossed m) := by
  refine forall_congr' fun hcrossed => ?_
  exact (inv_run h).usedEventNotify_iff (List.ne_nil_of_mem hcrossed) m

/-! ## Two sends between two tests -/

/-- The driver of a queue of four wants to be told of the first chain. -/
def firstChain : Shared := { avail := { availEvent := 0 } }

/-- The chain is handed back, and the test finds it. -/
theorem notified_first : ∃ s, Run (fun s op s' => s' = EventSys.next s op)
    { queue := { size := 4 } } [.send 0 16] s ∧ s.Crossed firstChain ∧
      s.queue.usedEventNotify firstChain = true := by
  have hrun : Run (fun s op s' => s' = EventSys.next s op) { queue := { size := 4 } } [.send 0 16]
    _ := .cons rfl .nil
  exact ⟨_, hrun, by decide, (notified_iff hrun firstChain).2 (fun _ => rfl) (by decide)⟩

/-- Two chains are handed back before the test, which looks at the second one only. -/
theorem event_missed : ∃ s, Run (fun s op s' => s' = EventSys.next s op)
    { queue := { size := 4 } } [.send 0 16, .send 1 16] s ∧ s.Crossed firstChain ∧
      s.queue.usedEventNotify firstChain = false :=
  ⟨_, .cons rfl (.cons rfl .nil), by decide, by decide⟩

end EventSys

end Vml
