import Vml.ConsoleLifecycle
import Vml.SgWalkAccept

/-!
# Waiting for a buffer to fill

A backend that has something for the guest calls `to_guest` until it succeeds, and
`wait_for_available_buffer` after each failure. The guest posts chains on the RX queue and writes
the notify register; `notify` signals the backend if `get_free` finds room in the queue.

`get_free` is the size of the queue less the chains available, so it is 0 when the guest has filled
the queue. Nobody is signalled then: a backend that waits for its first chain waits for ever. It
also waits if `to_guest` fails on a chain it could not use, however many there are behind it.

The system interleaves the steps of the guest, the two halves of a notification (the decision, and
the signal), and the turns of the loop of `to_guest`.

* `WakeSys.Lost`: the backend waits without a signal, and a notification has been handled that was
  issued after a chain that is still there.
* `lost_wakeups`: both happen.
* `no_lost_wakeup`: it does not happen as long as no notification finds the queue full, and no chain
  that has another behind it fails, while the backend is not signalled.
-/

namespace Vml

open Buffer (ChainEntry Follows InOrder)

/-! ## A copy into a chain that can be written -/

namespace Buffer

variable {b : Buffer} {q : DeviceQueue} {acc : ChainAccessor} {l n : ℕ} {m : Mem}

/-- Every part of the descriptors translates for writing. -/
def WritableBy (es : List ChainEntry) (acc : ChainAccessor) : Prop :=
  ∀ e ∈ es, isReadable e.flags = false ∧ ∀ o k, 0 < k → o + k ≤ e.length.toNat →
    ∃ hva, acc.vqAddrToWHva (e.address + UInt64.ofNat o) k = .ok hva ∧
      acc.vqAddrToWHvaPost (e.address + UInt64.ofNat o) k hva = .none

/-- The loop of a copy into such a chain raises no error. -/
theorem copyLinearLoop_writable (hb : b.WellFormed) (hw : WritableBy b.entries acc)
    {left it sgOff rem bytesCopied : ℕ} (hleft : it + left = b.active)
    (hoff : it < b.active → sgOff < b.len it) :
    (copyLinearLoop true b acc bulkCopierDefault left it sgOff rem l bytesCopied m).err =
      .none := by
  induction left generalizing it sgOff rem l bytesCopied m with
  | zero => rfl
  | succ left ih =>
      have hit : it < b.active := by omega
      have hlt := hoff hit
      rw [copyLinearLoop]
      by_cases h0 : rem = 0
      · rw [if_pos h0]
      · obtain ⟨hwritable, htranslate⟩ := hw _ (List.mem_map_of_mem (List.mem_range.2 hit))
        have hflags : b.shouldOnlyRead (b.descChain it).flags = false := by
          rw [shouldOnlyRead, show isReadable (b.descChain it).flags = false from hwritable,
            Bool.and_false]
        obtain ⟨k, hk⟩ : ∃ k, k = min (b.len it - sgOff) rem := ⟨_, rfl⟩
        have hin : sgOff + k ≤ b.len it := by omega
        obtain ⟨hva, hok, hpost⟩ := htranslate sgOff k (by omega) hin
        have hchunk : acc.copyToVqa (some bulkCopierDefault) ((b.descChain it).address +
            UInt64.ofNat sgOff) l k m = (.none, memcpy m hva l k) := copyToVqa_spec hok hpost
        rw [if_neg h0]
        dsimp only
        rw [← hk, Bool.true_and, hflags, if_neg Bool.false_ne_true, if_pos rfl, hchunk,
          if_neg (not_not.2 rfl)]
        exact ih (by omega) fun hnext => hb.len_pos _ hnext

/-- **A `copy_from_linear` into a chain that can be written** succeeds. -/
theorem Holds.copyFromLinear_writable (h : b.Holds q) (hw : WritableBy b.entries acc) (hn : 0 < n)
    (hle : n ≤ b.sizeBytes) : (b.copyFromLinear (some l) acc n 0 none m).err = .none := by
  obtain ⟨b', hb'⟩ : ∃ b', b' = b.modifyCookie fun c => c.initSgDstFromLinearSrc l n 0 := ⟨_, rfl⟩
  have hwf : b'.WellFormed := hb' ▸ h.wellFormed.modifyCookie
  obtain ⟨c, hcheck, hat⟩ := @checkCopyConfiguration_spec b' n 0 hwf hn (by
    rw [hb']
    show 0 + n ≤ b.sizeBytes
    omega)
  rw [copyFromLinear_run h.idle]
  show (requestResult n _ (tryEndCopyFromLinearImpl _ _ _ m) m).err = .none
  rw [← hb', requestResult, if_pos hn, tryEndCopyFromLinearImpl, copyFromtoLinearImpl, if_pos rfl,
    show b'.asyncCopyCookie.reqDOff = 0 by rw [hb']; rfl,
    show b'.asyncCopyCookie.reqSz = n by rw [hb']; rfl, hcheck, if_neg (not_not.2 rfl)]
  have hentries : b'.entries = b.entries := by rw [hb']; rfl
  have hle : c.1 ≤ b'.active := hat.le
  exact copyLinearLoop_writable hwf (hentries ▸ hw)
    (show c.1 + (b'.active - c.1) = b'.active by omega) hat.lt

end Buffer

/-! ## The heads a device has drawn -/

/-- How many heads the device has taken from the available ring, those out of range included. -/
def drawn (log : List QueueEvent) : ℕ := log.countP fun | .availEvent _ => true | _ => false

@[simp] theorem DeviceQueue.drawn_send (q : DeviceQueue) (desc : UInt16) (len : UInt32) :
    drawn (q.send desc len).log = drawn q.log := by
  simp [send, drawn]

/-- `q'` is `q` after one more head has been drawn. -/
structure DeviceQueue.Drew (q q' : DeviceQueue) : Prop where
  size : q'.size = q.size
  idx : q'.idx = q.idx + 1
  drawn : drawn q'.log = drawn q.log + 1

theorem DeviceQueue.Drew.send {q q' : DeviceQueue} (h : q.Drew q') (desc : UInt16)
    (len : UInt32) : q.Drew (q'.send desc len) :=
  ⟨h.size, h.idx, (q'.drawn_send desc len).trans h.drawn⟩

theorem DeviceQueue.drew_recv {q : DeviceQueue} {g : Guest} {t : ℕ}
    (hcount : q.countAvailable (g t).avail.index ≠ 0) : q.Drew (q.recv g t).queue := by
  rcases q.recv_cases g t with h | h | h
  · exact absurd h.2.1 hcount
  · rw [h.2.2.2.1]
    exact ⟨rfl, rfl, by simp [Vml.drawn, emit]⟩
  · rw [h.2.2.2.2.1]
    exact ⟨rfl, rfl, by simp [Vml.drawn]⟩

theorem Buffer.walkChain_drew {b : Buffer} {q : DeviceQueue} {g : Guest} {t : ℕ} (hb : b.IsReset)
    (hcount : q.countAvailable (g t).avail.index ≠ 0) :
    ∃ w, b.walkChain q g t = some w ∧ q.Drew w.queue ∧
      w.buffer.maxChainLength = b.maxChainLength := by
  have hdrew := DeviceQueue.drew_recv hcount
  rcases @walkChain_cases b q g t hb with ⟨-, hw⟩ | ⟨-, w, hw, hout⟩
  · exact ⟨_, hw, hdrew, rfl⟩
  · refine ⟨w, hw, ?_, hout.maxChainLength⟩
    by_cases hnone : w.err = .none
    · rw [(hout.recorded hnone).queue]
      exact hdrew
    · rw [(hout.returned hnone).2]
      exact hdrew.send _ _

namespace VirtioConsole

/-! ## `notify` in two steps -/

/-- The decision to signal the backend. -/
def notifyWanted (c : VirtioConsole) (m : Shared) : Bool :=
  c.usable rxQueue && (c.deviceQueue rxQueue).getFree m != 0

/-- And the signal. -/
def sigEmptySpace (c : VirtioConsole) : VirtioConsole :=
  { c with sigNotifyEmptySpace := c.sigNotifyEmptySpace.sig }

theorem notify_eq (c : VirtioConsole) (m : Shared) :
    c.notify m = if c.notifyWanted m then
      { c with sigNotifyEvent := c.sigNotifyEvent.sig }.sigEmptySpace
    else { c with sigNotifyEvent := c.sigNotifyEvent.sig } := by
  obtain ⟨c', hc'⟩ : ∃ c' : VirtioConsole, c' = { c with
    sigNotifyEvent := c.sigNotifyEvent.sig } := ⟨_, rfl⟩
  rw [notify, ← hc']
  show (if (!c'.usable rxQueue) = true then c' else if (c'.deviceQueue rxQueue).getFree m ≠ 0 then
    c'.sigEmptySpace else c') = _
  have hwanted : c.notifyWanted m = c'.notifyWanted m := by
    rw [hc']
    rfl
  rw [hwanted, notifyWanted]
  cases c'.usable rxQueue with
  | false => rfl
  | true => by_cases hfree : (c'.deviceQueue rxQueue).getFree m = 0 <;> simp [hfree]

@[simp] theorem sigNotifyEmptySpace_assertIrq (c : VirtioConsole) :
    c.assertIrq.sigNotifyEmptySpace = c.sigNotifyEmptySpace := by
  rw [assertIrq]
  split_ifs <;> rfl

/-! ## A turn of `to_guest` -/

variable {c : VirtioConsole} {shared : Shared} {acc : ChainAccessor}
  {buff bufIdx sizeBytes time : ℕ} {m : Mem}

theorem toGuestTurn_empty
    (hcount : (c.deviceQueue rxQueue).countAvailable shared.avail.index = 0) :
    ∃ time', c.toGuestTurn ⟨fun _ => shared, fun _ => acc⟩ (some buff) bufIdx sizeBytes time m =
      some ⟨false, c.assertIrq, bufIdx, sizeBytes, time', m⟩ := by
  obtain ⟨time', hw⟩ := @Buffer.walkChain_empty c.rxBuff (c.deviceQueue rxQueue) shared time hcount
  have hput : c.putRx c.rxBuff (c.deviceQueue rxQueue) = c := putRx_deviceQueue
  refine ⟨time', ?_⟩
  rw [toGuestTurn, walkRx, hw]
  dsimp only [Option.map_some, Option.bind_eq_bind, Option.bind_some]
  rw [hput]
  rfl

/-- The chain at the head of the RX queue can be used: it is in order and can be written. -/
def NextUsable (c : VirtioConsole) (shared : Shared) (acc : ChainAccessor) : Prop :=
  ∃ es, InOrder (c.deviceQueue rxQueue).size es ∧
    Follows (fun _ => shared) 0 (shared.avail.ring (c.deviceQueue rxQueue).readSlot) es ∧
    Buffer.WritableBy es acc

/-- **There is a chain to take**: the turn takes it, and succeeds if it can be used. -/
theorem toGuestTurn_drew (h : c.Lifecycle) (hup : (c.queue rxQueue).constructed = true)
    (hfits : (c.deviceQueue rxQueue).size ≤ c.rxBuff.maxChainLength) (hsize : sizeBytes ≠ 0)
    (hcount : (c.deviceQueue rxQueue).countAvailable shared.avail.index ≠ 0) :
    ∃ r b q, c.toGuestTurn ⟨fun _ => shared, fun _ => acc⟩ (some buff) bufIdx sizeBytes time m =
        some r ∧ r.console = (c.putRx b q).assertIrq ∧ (c.deviceQueue rxQueue).Drew q ∧
      b.maxChainLength = c.rxBuff.maxChainLength ∧ (c.NextUsable shared acc → r.ok = true) := by
  obtain ⟨w, hw, hdrew, hmax⟩ := @Buffer.walkChain_drew c.rxBuff (c.deviceQueue rxQueue)
    (fun _ => shared) time h.rxBuff hcount
  obtain ⟨w', hw', -, hheld, -⟩ :=
    Buffer.walkChain_inPlace h.rxBuff (h.inPlace hup) (fun _ => shared) time
  obtain rfl : w = w' := Option.some.inj (hw.symm.trans hw')
  have hwalk : c.walkRx ⟨fun _ => shared, fun _ => acc⟩ time =
      some (w.err, c.putRx w.buffer w.queue, w.time) := by
    rw [walkRx, hw]
    rfl
  -- what a chain that can be used does
  have hused : c.NextUsable shared acc →
      w.err = .none ∧ Buffer.WritableBy w.buffer.entries acc := by
    rintro ⟨es, horder, hfollows, hwritable⟩
    obtain ⟨w', t₀, hw', herr, -, hentries, -⟩ := @Buffer.walkChain_accepts c.rxBuff
      (c.deviceQueue rxQueue) _ _ _ shared time h.rxBuff hfits hcount rfl hfollows horder
    obtain rfl : w = w' := Option.some.inj (hw.symm.trans hw')
    exact ⟨herr, hentries ▸ hwritable⟩
  rw [toGuestTurn, hwalk]
  dsimp only [Option.bind_eq_bind, Option.bind_some]
  by_cases herr : w.err = .none
  · have hheld := hheld herr
    obtain ⟨n, hn⟩ : ∃ n, n = min sizeBytes w.buffer.sizeBytes := ⟨_, rfl⟩
    obtain ⟨r, hr⟩ : ∃ r, r = w.buffer.copyFromLinear (some (buff + bufIdx)) acc n 0 none m :=
      ⟨_, rfl⟩
    have hcopied : c.NextUsable shared acc → r.err = .none := fun hnext =>
      hr ▸ hheld.copyFromLinear_writable (hused hnext).2 (by have := hheld.sizeBytes_pos; omega)
        (by omega)
    have hstate : r.state.completeChain = true ∧
        r.state.maxChainLength = w.buffer.maxChainLength := by
      rw [hr, Buffer.copyFromLinear_run hheld.idle, Buffer.heuristicallyTrack_frame]
      exact ⟨hheld.completeChain, rfl⟩
    have hconclude : r.state.concludeChainUse w.queue = (r.state.reset, w.queue.send
        (r.state.descChainMetadata 0).desc r.state.writtenBytesLowerboundHeuristic) := by
      rw [Buffer.concludeChainUse, Buffer.concludeChainUseWith, Buffer.shouldSendHeadDescriptor,
        hstate.1, Bool.true_or, if_pos rfl]
    have hrx : (c.putRx w.buffer w.queue).rxBuff = w.buffer := rfl
    rw [if_neg (not_not.2 herr), Option.map_some, hrx, ← hn, ← hr,
      show { c.putRx w.buffer w.queue with rxBuff := r.state } = c.putRx r.state w.queue from rfl,
      concludeRx_putRx, hconclude]
    split_ifs with hfail
    · exact ⟨_, _, _, rfl, rfl, hdrew.send _ _, hstate.2.trans hmax,
        fun hnext => absurd (hcopied hnext) hfail⟩
    · exact ⟨_, _, _, rfl, rfl, hdrew.send _ _, hstate.2.trans hmax, fun _ => rfl⟩
  · rw [if_pos herr]
    exact ⟨_, _, _, rfl, rfl, hdrew, hmax, fun hnext => absurd (hused hnext).1 herr⟩

end VirtioConsole

/-! ## The system -/

/-- A call of `to_guest` between two turns of its loop. -/
structure ToGuestCall where
  buff : ℕ
  sizeBytes : ℕ
  bufIdx : ℕ := 0
  /-- The number of the next load. -/
  time : ℕ := 0
  deriving DecidableEq

/-- What the backend is doing. It waits after `to_guest` has failed. -/
inductive Backend
  | idle
  | running (call : ToGuestCall)
  | waiting
  deriving DecidableEq

/-- A notification that is being handled: whether it will signal the backend, and how many chains
had been posted when it was issued. -/
structure Notification where
  wanted : Bool
  posted : ℕ
  deriving DecidableEq

/-- The console, what it shares with the guest, the backend, and the notifications that are being
handled. `posted` and `handled` are history variables: the number of chains posted so far, and how
many of them had been posted when a notification was issued that has been handled. -/
structure WakeSys where
  console : VirtioConsole
  shared : Shared := {}
  mem : Mem
  backend : Backend := .idle
  handling : List Notification := []
  posted : ℕ := 0
  handled : ℕ := 0

/-- The guest posts chains and notifies; the device decides, and ends the notification; the backend
starts a call, takes a turn of it, and returns from its wait into the next call. -/
inductive WakeOp
  | guest (shared : Shared) (mem : Mem) (chains : ℕ)
  | notify
  | notified (n : Notification)
  | start (buff sizeBytes : ℕ)
  | turn (accessor : ChainAccessor)
  | wake (buff sizeBytes : ℕ)

namespace WakeSys

/-- The RX queue. -/
def rxq (s : WakeSys) : DeviceQueue := s.console.deviceQueue rxQueue

/-- The number of chains the device has taken. -/
def taken (s : WakeSys) : ℕ := drawn s.rxq.log

/-- The backend's signal is pending. -/
def signaled (s : WakeSys) : Bool := s.console.sigNotifyEmptySpace.signaled

/-- A call of `to_guest` begins. -/
def call (s : WakeSys) (buff sizeBytes : ℕ) : WakeSys :=
  { s with
    backend := if s.console.usable rxQueue then .running { buff, sizeBytes } else .waiting }

/-- The next turn of a call. -/
def turn (s : WakeSys) (accessor : ChainAccessor) (call : ToGuestCall) : Option WakeSys :=
  if call.sizeBytes = 0 then some { s with backend := .idle }
  else
    (s.console.toGuestTurn ⟨fun _ => s.shared, fun _ => accessor⟩ (some call.buff) call.bufIdx
      call.sizeBytes call.time s.mem).map fun r =>
        { s with
          console := r.console
          mem := r.mem
          backend :=
            if r.ok then
              .running { call with sizeBytes := r.sizeBytes, bufIdx := r.bufIdx, time := r.time }
            else .waiting }

/-- A step, if it can be taken. At most `size` chains are available at a time. -/
def step (size : UInt16) (s : WakeSys) : WakeOp → Option WakeSys
  | .guest shared mem chains =>
      if shared.avail.index.toNat = (s.posted + chains) % 2 ^ 16 ∧
          s.posted + chains ≤ s.taken + size.toNat then
        some { s with shared, mem, posted := s.posted + chains }
      else none
  | .notify =>
      some { s with
        console := { s.console with sigNotifyEvent := s.console.sigNotifyEvent.sig }
        handling := ⟨s.console.notifyWanted s.shared, s.posted⟩ :: s.handling }
  | .notified n =>
      if n ∈ s.handling then
        some { s with
          console := if n.wanted then s.console.sigEmptySpace else s.console
          handling := s.handling.erase n
          handled := max s.handled n.posted }
      else none
  | .start buff sizeBytes =>
      match s.backend with
      | .idle => some (s.call buff sizeBytes)
      | _ => none
  | .turn accessor =>
      match s.backend with
      | .running call => s.turn accessor call
      | _ => none
  | .wake buff sizeBytes =>
      match s.backend with
      | .waiting => s.console.sigNotifyEmptySpace.wait.map fun sig =>
          ({ s with console := { s.console with sigNotifyEmptySpace := sig } } : WakeSys).call buff
            sizeBytes
      | _ => none

/-- The backend is blocked, with a chain to take that it has been told of. -/
def Lost (s : WakeSys) : Prop :=
  s.backend = .waiting ∧ s.signaled = false ∧ s.taken < s.handled

/-- No notification finds the queue full, and no chain that has another behind it fails, while
the backend is not signalled. -/
def StepOk (s : WakeSys) : WakeOp → Prop
  | .notify => s.backend = .waiting → s.signaled = false → s.rxq.getFree s.shared ≠ 0
  | .turn accessor =>
      s.signaled = false → s.taken + 1 < s.posted → s.console.NextUsable s.shared accessor
  | _ => True

/-- The driver has set up an RX queue of `size` descriptors, and nothing has been posted yet. -/
structure Start (size : UInt16) (s : WakeSys) : Prop where
  valid : isSizeValid size = true
  lifecycle : s.console.Lifecycle
  usable : s.console.usable rxQueue = true
  rxq : s.rxq = { size, log := [.construct size] }
  fits : size ≤ s.console.rxBuff.maxChainLength
  index : s.shared.avail.index = 0
  backend : s.backend = .idle
  handling : s.handling = []
  posted : s.posted = 0
  handled : s.handled = 0

/-! ## The invariant -/

/-- If `n` chains had been posted when the backend was last told and it waits with one of them to
take, then it will be told again. -/
def Told (s : WakeSys) (n : ℕ) (wanted : Bool) : Prop :=
  n ≤ s.posted ∧ (s.taken < n → s.backend = .waiting → wanted = true ∨ s.signaled = true)

/-- What holds between two steps. -/
structure Inv (size : UInt16) (s : WakeSys) : Prop where
  valid : isSizeValid size = true
  lifecycle : s.console.Lifecycle
  usable : s.console.usable rxQueue = true
  size_eq : s.rxq.size = size
  fits : size ≤ s.console.rxBuff.maxChainLength
  idx : s.rxq.idx.toNat = s.taken % 2 ^ 16
  taken_le : s.taken ≤ s.posted
  posted_le : s.posted ≤ s.taken + size.toNat
  index : s.shared.avail.index.toNat = s.posted % 2 ^ 16
  handling : ∀ n ∈ s.handling, s.Told n.posted n.wanted
  handled : s.Told s.handled false

variable {size : UInt16} {s s' : WakeSys}

theorem Start.inv (h : Start size s) : Inv size s where
  valid := h.valid
  lifecycle := h.lifecycle
  usable := h.usable
  size_eq := by rw [h.rxq]
  fits := h.fits
  idx := by
    rw [taken, h.rxq]
    rfl
  taken_le := by
    rw [taken, h.rxq]
    exact Nat.zero_le _
  posted_le := by
    rw [h.posted]
    exact Nat.zero_le _
  index := by
    rw [h.index, h.posted]
    rfl
  handling := by simp [h.handling]
  handled := by
    rw [h.handled]
    exact ⟨Nat.zero_le _, fun hlt => absurd hlt (Nat.not_lt_zero _)⟩

theorem Told.congr {n : ℕ} {wanted : Bool} (h : s.Told n wanted) (hposted : s.posted ≤ s'.posted)
    (htaken : s.taken ≤ s'.taken) (hwait : s'.backend = .waiting → s.backend = .waiting)
    (hsig : s'.backend = .waiting → s.signaled = true → s'.signaled = true) : s'.Told n wanted :=
  ⟨h.1.trans hposted, fun hlt hb => (h.2 (by omega) (hwait hb)).imp id (hsig hb)⟩

theorem Told.of_ne {n : ℕ} {wanted : Bool} (h : s.Told n wanted) (hposted : s.posted ≤ s'.posted)
    (hb : s'.backend ≠ .waiting) : s'.Told n wanted :=
  ⟨h.1.trans hposted, fun _ hb' => absurd hb' hb⟩

theorem Told.max {n k : ℕ} (h : s.Told n false) (h' : s.Told k false) : s.Told (max n k) false := by
  refine ⟨max_le h.1 h'.1, fun hlt hb => ?_⟩
  rcases lt_max_iff.1 hlt with hlt | hlt
  · exact h.2 hlt hb
  · exact h'.2 hlt hb

theorem Inv.constructed (h : Inv size s) : (s.console.queue rxQueue).constructed = true := by
  have husable := h.usable
  rw [VirtioConsole.usable, Bool.and_eq_true] at husable
  exact husable.1

theorem Inv.toNat_countAvailable (h : Inv size s) :
    (s.rxq.countAvailable s.shared.avail.index).toNat = s.posted - s.taken := by
  have hsize := isSizeValid_le h.valid
  have hle := h.posted_le
  exact Queue.toNat_countAvailable_sub h.idx h.index h.taken_le (by omega)

/-- A step that leaves the device and the counters alone. -/
theorem Inv.congr (h : Inv size s) (hlife : s'.console.Lifecycle)
    (husable : s'.console.usable rxQueue = s.console.usable rxQueue) (hrxq : s'.rxq = s.rxq)
    (hmax : s'.console.rxBuff.maxChainLength = s.console.rxBuff.maxChainLength)
    (hshared : s'.shared = s.shared) (hposted : s'.posted = s.posted)
    (hhandling : ∀ n ∈ s'.handling, s'.Told n.posted n.wanted)
    (hhandled : s'.Told s'.handled false) : Inv size s' where
  valid := h.valid
  lifecycle := hlife
  usable := husable.trans h.usable
  size_eq := by rw [hrxq, h.size_eq]
  fits := hmax ▸ h.fits
  idx := by rw [taken, hrxq, h.idx, taken]
  taken_le := by
    rw [taken, hrxq, hposted]
    exact h.taken_le
  posted_le := by
    rw [taken, hrxq, hposted]
    exact h.posted_le
  index := by rw [hshared, hposted, h.index]
  handling := hhandling
  handled := hhandled

/-! ### The turns of `to_guest` -/

/-- **A turn keeps the invariant.** When it makes the backend wait, no chain is left, unless the
signal is pending. -/
theorem Inv.turn (h : Inv size s) {acc : ChainAccessor} {call : ToGuestCall}
    (hok : s.StepOk (.turn acc)) (hstep : s.turn acc call = some s') : Inv size s' := by
  rw [WakeSys.turn] at hstep
  by_cases hsize : call.sizeBytes = 0
  · rw [if_pos hsize, Option.some.injEq] at hstep
    rw [← hstep]
    exact { h with
      handling := fun n hn => (h.handling n hn).of_ne le_rfl nofun
      handled := h.handled.of_ne le_rfl nofun }
  rw [if_neg hsize] at hstep
  have hcountEq := h.toNat_countAvailable
  by_cases hcount : s.rxq.countAvailable s.shared.avail.index = 0
  · obtain ⟨time', hturn⟩ := @VirtioConsole.toGuestTurn_empty s.console s.shared acc call.buff
      call.bufIdx call.sizeBytes call.time s.mem hcount
    rw [hturn, Option.map_some, Option.some.injEq] at hstep
    have hrxq : s'.rxq = s.rxq := by
      rw [← hstep]
      exact VirtioConsole.deviceQueue_assertIrq ..
    have hall : s'.taken = s.posted := by
      have hle := h.taken_le
      have h0 : (0 : UInt16).toNat = 0 := rfl
      rw [hcount] at hcountEq
      rw [taken, hrxq, ← taken]
      omega
    have hposted : s'.posted = s.posted := by rw [← hstep]
    have htold : ∀ n wanted, s.Told n wanted → s'.Told n wanted := fun n wanted ht => by
      rw [Told, hposted, hall]
      exact ⟨ht.1, fun hlt => absurd ht.1 (by omega)⟩
    refine h.congr ?_ ?_ hrxq ?_ ?_ hposted ?_ ?_
    · rw [← hstep]
      exact h.lifecycle.assertIrq
    · rw [← hstep]
      exact VirtioConsole.usable_assertIrq ..
    · rw [← hstep, VirtioConsole.rxBuff_assertIrq]
    · rw [← hstep]
    · exact fun n hn => htold _ _ (h.handling n (by rwa [← hstep] at hn))
    · rw [← hstep] at htold ⊢
      exact htold _ _ h.handled
  · obtain ⟨r, b, q, hturn, hconsole, hdrew, hmax, hnext⟩ := @VirtioConsole.toGuestTurn_drew
      s.console s.shared acc call.buff call.bufIdx call.sizeBytes call.time s.mem h.lifecycle
      h.constructed (h.size_eq.symm ▸ h.fits) hsize hcount
    obtain ⟨r', hturn', hlife, -, -⟩ := VirtioConsole.toGuestTurn_lifecycle h.lifecycle
      h.constructed hsize
    obtain rfl : r = r' := Option.some.inj (hturn.symm.trans hturn')
    rw [hturn, Option.map_some, Option.some.injEq] at hstep
    have hconsole' : s'.console = (s.console.putRx b q).assertIrq := by rw [← hstep, ← hconsole]
    have hrxq : s'.rxq = q := by
      rw [rxq, hconsole', VirtioConsole.deviceQueue_assertIrq]
      rfl
    have htaken : s'.taken = s.taken + 1 := by
      rw [taken, hrxq, hdrew.drawn]
      rfl
    have hshared : s'.shared = s.shared := by rw [← hstep]
    have hposted : s'.posted = s.posted := by rw [← hstep]
    have hsig : s'.signaled = s.signaled := by
      rw [signaled, hconsole', VirtioConsole.sigNotifyEmptySpace_assertIrq]
      rfl
    have hlt : s.taken < s.posted := by
      have hpos : (s.rxq.countAvailable s.shared.avail.index).toNat ≠ 0 := fun h0 =>
        hcount (UInt16.toNat_inj.1 h0)
      omega
    have htold : ∀ n wanted, s.Told n wanted → s'.Told n wanted := fun n wanted ht => by
      rw [Told, hposted, htaken]
      refine ⟨ht.1, fun hn hb => .inr ?_⟩
      by_contra hquiet
      have hquiet : s.signaled = false := by rwa [hsig, Bool.not_eq_true] at hquiet
      have hrok := hnext (hok hquiet (by have := ht.1; omega))
      rw [← hstep, hrok] at hb
      exact absurd hb nofun
    exact {
      valid := h.valid
      lifecycle := by
        rw [← hstep]
        exact hlife
      usable := by
        rw [hconsole', VirtioConsole.usable_assertIrq]
        exact h.usable
      size_eq := by rw [hrxq, hdrew.size, ← h.size_eq, rxq]
      fits := by
        rw [hconsole', VirtioConsole.rxBuff_assertIrq]
        exact hmax ▸ h.fits
      idx := by
        have hidx := h.idx
        rw [hrxq, htaken, hdrew.idx, ← rxq, UInt16.toNat_add, hidx]
        show (s.taken % 2 ^ 16 + 1) % 2 ^ 16 = (s.taken + 1) % 2 ^ 16
        omega
      taken_le := by
        rw [htaken, hposted]
        exact hlt
      posted_le := by
        have := h.posted_le
        rw [htaken, hposted]
        omega
      index := by rw [hshared, hposted, h.index]
      handling := fun n hn => htold _ _ (h.handling n (by rwa [← hstep] at hn))
      handled := by
        rw [← hstep] at htold ⊢
        exact htold _ _ h.handled }

/-! ### The other steps -/

theorem Inv.guest (h : Inv size s) {shared : Shared} {mem : Mem} {chains : ℕ}
    (hindex : shared.avail.index.toNat = (s.posted + chains) % 2 ^ 16)
    (hle : s.posted + chains ≤ s.taken + size.toNat) :
    Inv size { s with shared, mem, posted := s.posted + chains } where
  valid := h.valid
  lifecycle := h.lifecycle
  usable := h.usable
  size_eq := h.size_eq
  fits := h.fits
  idx := h.idx
  taken_le := h.taken_le.trans (Nat.le_add_right _ _)
  posted_le := hle
  index := hindex
  handling n hn := (h.handling n hn).congr (Nat.le_add_right _ _) le_rfl id fun _ => id
  handled := h.handled.congr (Nat.le_add_right _ _) le_rfl id fun _ => id

/-- The decision is to signal unless the backend need not be told. -/
theorem Inv.notify (h : Inv size s) (hok : s.StepOk .notify)
    (hstep : s.step size .notify = some s') : Inv size s' := by
  rw [step, Option.some.injEq] at hstep
  have htold : ∀ n wanted, s.Told n wanted → s'.Told n wanted := fun n wanted ht => by
    rw [← hstep]
    exact ht.congr le_rfl le_rfl id fun _ => id
  have hnew : s'.Told s.posted (s.console.notifyWanted s.shared) := by
    rw [← hstep]
    refine ⟨le_rfl, fun _ hb => ?_⟩
    by_cases hsig : s.signaled = true
    · exact .inr hsig
    · refine .inl ?_
      rw [VirtioConsole.notifyWanted, h.usable, Bool.true_and, bne_iff_ne]
      exact hok hb (by simpa using hsig)
  refine h.congr ?_ ?_ ?_ ?_ ?_ ?_ ?_ ?_
  · rw [← hstep]
    exact h.lifecycle.congr rfl rfl rfl rfl
  · rw [← hstep]
    rfl
  · rw [← hstep]
    rfl
  · rw [← hstep]
  · rw [← hstep]
  · rw [← hstep]
  · intro n hn
    rw [← hstep] at hn
    rcases List.mem_cons.1 hn with rfl | hn
    · exact hnew
    · exact htold _ _ (h.handling n hn)
  · rw [← hstep] at htold ⊢
    exact htold _ _ h.handled

/-- When the handling of a notification ends, the backend has been told if it waits. -/
theorem Inv.notified (h : Inv size s) {n : Notification}
    (hstep : s.step size (.notified n) = some s') : Inv size s' := by
  rw [step] at hstep
  by_cases hn : n ∈ s.handling
  · rw [if_pos hn, Option.some.injEq] at hstep
    obtain ⟨c, hc⟩ : ∃ c, c = if n.wanted then s.console.sigEmptySpace else s.console := ⟨_, rfl⟩
    have hlife : c.Lifecycle ∧ c.usable rxQueue = s.console.usable rxQueue ∧
        c.deviceQueue rxQueue = s.rxq ∧ c.rxBuff = s.console.rxBuff := by
      rw [hc]
      split_ifs
      · exact ⟨h.lifecycle.congr rfl rfl rfl rfl, rfl, rfl, rfl⟩
      · exact ⟨h.lifecycle, rfl, rfl, rfl⟩
    have hsig : c.sigNotifyEmptySpace.signaled = (n.wanted || s.signaled) := by
      rw [hc]
      cases n.wanted <;> rfl
    rw [← hc] at hstep
    have htaken : s'.taken = s.taken := by rw [taken, rxq, ← hstep, hlife.2.2.1, ← taken]
    have hback : s'.backend = s.backend := by rw [← hstep]
    have hposted : s'.posted = s.posted := by rw [← hstep]
    have hsig' : s'.signaled = (n.wanted || s.signaled) := by rw [signaled, ← hstep, hsig]
    have htold : ∀ k wanted, s.Told k wanted → s'.Told k wanted := fun k wanted ht =>
      ht.congr hposted.ge htaken.ge (fun hb => hback ▸ hb) fun _ hs => by
        rw [hsig', hs, Bool.or_true]
    have hover : s'.Told n.posted false := by
      obtain ⟨hle, ht⟩ := h.handling n hn
      refine ⟨hle.trans hposted.ge, fun hlt hb => .inr ?_⟩
      rw [hsig', Bool.or_eq_true]
      exact ht (htaken ▸ hlt) (hback ▸ hb)
    refine h.congr ?_ ?_ ?_ ?_ ?_ hposted ?_ ?_
    · rw [← hstep]
      exact hlife.1
    · rw [← hstep]
      exact hlife.2.1
    · rw [← hstep]
      exact hlife.2.2.1
    · rw [← hstep, hlife.2.2.2]
    · rw [← hstep]
    · intro k hk
      rw [← hstep] at hk
      exact htold _ _ (h.handling k (List.mem_of_mem_erase hk))
    · rw [← hstep] at htold hover ⊢
      exact (htold _ _ h.handled).max hover
  · rw [if_neg hn] at hstep
    exact absurd hstep nofun

/-- A backend that starts a call does not wait, whatever has become of the signal. -/
theorem Inv.call (h : Inv size s) (sig : Signal) (buff sizeBytes : ℕ) :
    Inv size (({ s with console := { s.console with sigNotifyEmptySpace := sig } } : WakeSys).call
      buff sizeBytes) := by
  obtain ⟨t, ht⟩ : ∃ t : WakeSys, t = { s with
    console := { s.console with sigNotifyEmptySpace := sig } } := ⟨_, rfl⟩
  have husable : t.console.usable rxQueue = true := by
    rw [ht]
    exact h.usable
  rw [← ht, WakeSys.call, if_pos husable]
  have hposted : s.posted ≤ t.posted := by rw [ht]
  refine h.congr ?_ (husable.trans h.usable.symm) ?_ ?_ ?_ ?_ (fun n hn => ?_) ?_
  · rw [ht]
    exact h.lifecycle.congr rfl rfl rfl rfl
  · rw [ht]
    rfl
  · rw [ht]
  · rw [ht]
  · rw [ht]
  · exact (h.handling n (by rwa [ht] at hn)).of_ne hposted nofun
  · have htold : t.handled = s.handled := by rw [ht]
    rw [htold]
    exact h.handled.of_ne hposted nofun

/-- **Every step keeps the invariant.** -/
theorem Inv.step {op : WakeOp} (h : Inv size s) (hok : s.StepOk op)
    (hstep : s.step size op = some s') : Inv size s' := by
  cases op with
  | guest shared mem chains =>
      rw [WakeSys.step] at hstep
      split_ifs at hstep with hposts
      rw [← Option.some.inj hstep]
      exact h.guest hposts.1 hposts.2
  | notify => exact h.notify hok hstep
  | notified n => exact h.notified hstep
  | start buff sizeBytes =>
      rw [WakeSys.step] at hstep
      cases hb : s.backend with
      | idle =>
          rw [hb] at hstep
          rw [← Option.some.inj hstep]
          exact h.call s.console.sigNotifyEmptySpace buff sizeBytes
      | running call =>
          rw [hb] at hstep
          exact absurd hstep nofun
      | waiting =>
          rw [hb] at hstep
          exact absurd hstep nofun
  | turn accessor =>
      rw [WakeSys.step] at hstep
      cases hb : s.backend with
      | running call =>
          rw [hb] at hstep
          exact h.turn hok hstep
      | idle =>
          rw [hb] at hstep
          exact absurd hstep nofun
      | waiting =>
          rw [hb] at hstep
          exact absurd hstep nofun
  | wake buff sizeBytes =>
      rw [WakeSys.step] at hstep
      cases hb : s.backend with
      | waiting =>
          rw [hb] at hstep
          obtain ⟨sig, -, hs'⟩ := Option.map_eq_some_iff.1 hstep
          rw [← hs']
          exact h.call sig buff sizeBytes
      | idle =>
          rw [hb] at hstep
          exact absurd hstep nofun
      | running call =>
          rw [hb] at hstep
          exact absurd hstep nofun

/-- **No wake-up is lost** as long as no notification finds the queue full, and no chain that has
another behind it fails, while the backend is not signalled. -/
theorem no_lost_wakeup {ops : List WakeOp} {s₀ : WakeSys} (hstart : Start size s₀)
    (h : Run (fun s op s' => s.StepOk op ∧ s.step size op = some s') s₀ ops s) : ¬s.Lost := by
  have hinv := h.invariant (fun _ _ _ hinv hstep => hinv.step hstep.1 hstep.2) hstart.inv
  rintro ⟨hwait, hquiet, hlt⟩
  rcases hinv.handled.2 hlt hwait with hf | hsig
  · exact absurd hf Bool.false_ne_true
  · exact absurd (hquiet.symm.trans hsig) Bool.false_ne_true

/-! ### Three runs -/

/-- A write of four bytes by the driver. -/
def driverWrite (c : VirtioConsole) (offset value : UInt64) : VirtioConsole :=
  (c.access .write offset 4 value VirtioConsole.flatPlatform {}).2.2

/-- A console of four entries whose driver has set up the RX queue. -/
def started : WakeSys where
  console := driverWrite (driverWrite (.new 4) 0x44 1) 0x70 4
  mem := UInt8.ofNat

theorem start_started : Start 4 started where
  valid := by decide
  lifecycle := by
    have hwrite : ∀ (c : VirtioConsole) (offset value : UInt64), c.Lifecycle →
        c.txBuff.sizeBytes = 0 → (driverWrite c offset value).Lifecycle :=
      fun c offset value hc hzero => hc.access (fun _ => hzero) _ _
    have h := hwrite (.new 4) 0x44 1 (VirtioConsole.lifecycle_new 4) rfl
    exact hwrite (driverWrite (.new 4) 0x44 1) 0x70 4 h (by decide)
  usable := (by decide : started.console.usable rxQueue = true)
  rxq := (by decide : started.rxq = { size := 4, log := [.construct 4] })
  fits := (by decide : 4 ≤ started.console.rxBuff.maxChainLength)
  index := rfl
  backend := rfl
  handling := rfl
  posted := rfl
  handled := rfl

/-- The guest posts `n` chains. Each is one writable descriptor of 16 bytes, but for that of head 0,
which has no bytes. -/
def posts (n : ℕ) (heads : ℕ → UInt16) : WakeOp :=
  .guest { table := fun i => ⟨256, if i = 0 then 0 else 16, 2, 0⟩,
           avail := { index := UInt16.ofNat n, ring := heads } } UInt8.ofNat n

/-- The queue is filled, or the first of two chains has no bytes. -/
theorem lost_wakeups :
    (∃ ops s, Run (fun s op s' => s.step 4 op = some s') started ops s ∧ s.Lost ∧
      s.taken = 0 ∧ s.posted = 4) ∧
    ∃ ops s, Run (fun s op s' => s.step 4 op = some s') started ops s ∧ s.Lost ∧
      s.taken = 1 ∧ s.posted = 2 := by
  have hlost : ∀ ops taken posted, ((ops : List WakeOp).foldlM (step 4) started).map (fun s =>
      (s.backend, s.signaled, s.taken, s.posted, s.handled)) =
        some (.waiting, false, taken, posted, posted) → taken < posted →
      ∃ ops s, Run (fun s op s' => s.step 4 op = some s') started ops s ∧ s.Lost ∧
        s.taken = taken ∧ s.posted = posted := by
    intro ops taken posted hexec hlt
    obtain ⟨s, hs, heq⟩ := Option.map_eq_some_iff.1 hexec
    simp only [Prod.mk.injEq] at heq
    obtain ⟨hwait, hquiet, htaken, hposted, hhandled⟩ := heq
    exact ⟨ops, s, Run.of_foldlM hs, ⟨hwait, hquiet, by omega⟩, htaken, hposted⟩
  constructor
  · exact hlost [.start 4096 16, .turn identityAccessor, posts 4 (fun _ => 1), .notify,
      .notified ⟨false, 4⟩] 0 4 (by decide) (by decide)
  · exact hlost [.start 4096 16, .turn identityAccessor, posts 2 UInt16.ofNat, .notify,
      .notified ⟨true, 2⟩, .wake 4096 16, .turn identityAccessor] 1 2 (by decide) (by decide)

/-- A step whose condition holds because the queue has room, or the backend is signalled or takes
the last chain. -/
def execQuiet (s : WakeSys) (op : WakeOp) : Option WakeSys :=
  match op with
  | .notify => if s.rxq.getFree s.shared ≠ 0 then s.step 4 op else none
  | .turn _ => if s.signaled = true ∨ s.posted ≤ s.taken + 1 then s.step 4 op else none
  | _ => s.step 4 op

theorem stepOk_of_execQuiet {s s' : WakeSys} {op : WakeOp} (h : s.execQuiet op = some s') :
    s.StepOk op ∧ s.step 4 op = some s' := by
  cases op with
  | notify =>
      rw [execQuiet] at h
      split_ifs at h with hroom
      exact ⟨fun _ _ => hroom, h⟩
  | turn accessor =>
      rw [execQuiet] at h
      split_ifs at h with hlast
      refine ⟨fun hquiet hlt => ?_, h⟩
      rcases hlast with hsig | hle
      · exact absurd (hquiet.symm.trans hsig) Bool.false_ne_true
      · omega
  | guest shared mem chains => exact ⟨trivial, h⟩
  | notified n => exact ⟨trivial, h⟩
  | start buff sizeBytes => exact ⟨trivial, h⟩
  | wake buff sizeBytes => exact ⟨trivial, h⟩

/-- Two chains of 16 bytes, and a call that needs more than they have. The backend waits when it has
used both. -/
theorem no_lost_wakeup_two :
    ∃ ops s, Run (fun s op s' => s.StepOk op ∧ s.step 4 op = some s') started ops s ∧
      s.backend = .waiting ∧ s.signaled = false ∧ ¬s.Lost := by
  obtain ⟨s₁, h₁⟩ : ∃ s₁, [WakeOp.start 4096 32, .turn identityAccessor, posts 2 (fun _ => 1),
    .notify, .notified ⟨true, 2⟩, .wake 4096 40].foldlM execQuiet started = some s₁ := ⟨_, rfl⟩
  have hturn : s₁.console.NextUsable s₁.shared identityAccessor := by
    obtain rfl := Option.some.inj h₁
    refine ⟨[⟨1, 256, 16, 2⟩], ⟨by decide, by decide, by decide, by decide, by decide⟩,
      .last rfl, ?_⟩
    intro e he
    obtain rfl := List.mem_singleton.1 he
    exact ⟨rfl, fun o k _ _ => ⟨_, rfl, rfl⟩⟩
  obtain ⟨s₂, h₂⟩ : ∃ s₂, s₁.step 4 (.turn identityAccessor) = some s₂ := by
    obtain rfl := Option.some.inj h₁
    exact ⟨_, rfl⟩
  obtain ⟨s₃, h₃⟩ : ∃ s₃, [WakeOp.turn identityAccessor, .turn identityAccessor].foldlM execQuiet
      s₂ = some s₃ := by
    obtain rfl := Option.some.inj h₁
    obtain rfl := Option.some.inj h₂
    exact ⟨_, rfl⟩
  have hend : s₃.backend = .waiting ∧ s₃.signaled = false := by
    obtain rfl := Option.some.inj h₁
    obtain rfl := Option.some.inj h₂
    obtain rfl := Option.some.inj h₃
    exact ⟨rfl, rfl⟩
  have hrun := ((Run.of_foldlM h₁).mono fun _ _ _ => stepOk_of_execQuiet).append
    (.cons ⟨show s₁.StepOk (.turn identityAccessor) from fun _ _ => hturn, h₂⟩
      ((Run.of_foldlM h₃).mono fun _ _ _ => stepOk_of_execQuiet))
  exact ⟨_, s₃, hrun, hend.1, hend.2, no_lost_wakeup start_started hrun⟩
end WakeSys

end Vml
