import Vml.Lib.Run
import Vml.QueueLifecycle
import Vml.VirtioConsole

/-!
# The console and the life of its queues

The RX buffer holds a chain only while `to_guest` runs. The TX buffer may hold one between two
calls, and the guest may write 0 to the status register in between: `handle_events` then tears the
queues down and leaves the buffer as it is. What the buffer holds is a chain of a queue that is no
more; whichever of `from_guest` and `reset` comes next sends its head on what has taken the place of
that queue.

* `Lifecycle`: what holds between two calls if that has never happened. Every queue is in order, and
  a chain in the TX buffer is one that the present TX queue has handed out.
* `lifecycle_toGuest`, `lifecycle_fromGuest`, `Lifecycle.access`, `Lifecycle.reset`: each call keeps
  it. The loops of the first two end.
* `queues_disciplined`: then every queue is in order after any calls in any order.
-/

namespace Vml

/-! ## Copies of a chain that is held -/

namespace Buffer.Holds

variable {b : Buffer} {q : DeviceQueue} {acc : ChainAccessor} {copier : Option BulkCopier}
  {l : Option ℕ} {n off : ℕ} {m : Mem}

theorem idle (h : b.Holds q) : b.asyncCopyCookie.isDst = false := by
  rw [h.asyncCopyCookie]
  rfl

theorem state_copyToLinear (h : b.Holds q) :
    (b.copyToLinear l acc n off copier m).state = b := by
  cases l with
  | none => rfl
  | some l =>
      rw [copyToLinear_run h.idle]
      show { b with asyncCopyCookie := {} } = b
      rw [← h.asyncCopyCookie]

theorem bytesCopied_copyToLinear (h : b.Holds q)
    (herr : (b.copyToLinear l acc n off copier m).err = .none) :
    (b.copyToLinear l acc n off copier m).bytesCopied = n := by
  cases l with
  | none => exact absurd herr nofun
  | some l =>
      rw [copyToLinear_run h.idle] at herr ⊢
      exact (toLinearResult_none h.wellFormed herr).1

theorem copyFromLinear (h : b.Holds q) :
    (b.copyFromLinear l acc n off copier m).state.Holds q := by
  cases l with
  | none => exact h
  | some l =>
      rw [copyFromLinear_run h.idle]
      generalize (b.fromLinearResult l acc n off copier m).bytesCopied = k
      have hhead := h.head_mem
      rw [← b.desc_heuristicallyTrack off k 0] at hhead
      have hwf := h.wellFormed
      rw [heuristicallyTrack_frame]
      exact {
        wellFormed := ⟨⟨hwf.active_le, hwf.size_eq, hwf.size_le, hwf.first_lt, hwf.writable_iff⟩,
          hwf.len_pos⟩
        completeChain := h.completeChain
        asyncCopyCookie := rfl
        active_pos := h.active_pos
        head_mem := hhead }

theorem bytesCopied_copyFromLinear (h : b.Holds q)
    (herr : (b.copyFromLinear l acc n off copier m).err = .none) :
    (b.copyFromLinear l acc n off copier m).bytesCopied = n := by
  cases l with
  | none => exact absurd herr nofun
  | some l =>
      rw [copyFromLinear_run h.idle] at herr ⊢
      exact (fromLinearResult_none h.wellFormed herr).1

end Buffer.Holds

namespace VirtioConsole

variable {c c' : VirtioConsole} {b b' : Buffer} {q q' : DeviceQueue} {env : CallEnv} {m : Mem}
  {time : ℕ}

/-! ## Queues and buffers of the console -/

theorem queue_setDeviceQueue (c : VirtioConsole) (i j : ℕ) (q : DeviceQueue) :
    (c.setDeviceQueue i q).queue j =
      if j = i then { c.queue i with deviceQueue := q } else c.queue j := by
  show Function.update c.devState.queue i _ j = _
  rw [Function.update_apply]
  rfl

@[simp] theorem putRx_putRx : (c.putRx b q).putRx b' q' = c.putRx b' q' := by
  simp [putRx, setDeviceQueue, queue]

theorem concludeRx_putRx : (c.putRx b q).concludeRx =
    c.putRx (b.concludeChainUse q).1 (b.concludeChainUse q).2 := by
  rw [concludeRx]
  exact putRx_putRx

@[simp] theorem queue_assertIrq (c : VirtioConsole) (i : ℕ) : c.assertIrq.queue i = c.queue i := by
  rw [assertIrq]
  split_ifs <;> rfl

@[simp] theorem deviceQueue_assertIrq (c : VirtioConsole) (i : ℕ) :
    c.assertIrq.deviceQueue i = c.deviceQueue i := by
  rw [deviceQueue, queue_assertIrq, deviceQueue]

@[simp] theorem rxBuff_assertIrq (c : VirtioConsole) : c.assertIrq.rxBuff = c.rxBuff := by
  rw [assertIrq]
  split_ifs <;> rfl

@[simp] theorem txBuff_assertIrq (c : VirtioConsole) : c.assertIrq.txBuff = c.txBuff := by
  rw [assertIrq]
  split_ifs <;> rfl

@[simp] theorem driverInitialized_assertIrq (c : VirtioConsole) :
    c.assertIrq.driverInitialized = c.driverInitialized := by
  rw [assertIrq]
  split_ifs <;> rfl

@[simp] theorem usable_assertIrq (c : VirtioConsole) (i : ℕ) :
    c.assertIrq.usable i = c.usable i := by
  rw [usable, queue_assertIrq, driverInitialized_assertIrq, usable]

/-! ## The invariant -/

/-- The TX buffer holds a chain that the present TX queue has handed out. -/
structure TxHeld (c : VirtioConsole) : Prop where
  constructed : (c.queue txQueue).constructed = true
  holds : c.txBuff.Holds (c.deviceQueue txQueue)
  progress_le : c.txBuffProgress ≤ c.txBuff.sizeBytes

/-- What holds between two calls. -/
structure Lifecycle (c : VirtioConsole) : Prop where
  queueOk : ∀ i, (c.queue i).QueueOk
  rxBuff : c.rxBuff.IsReset
  txBuff : c.txBuff.IsReset ∨ c.TxHeld

theorem lifecycle_new (n : UInt16) : (new n).Lifecycle where
  queueOk _ := ⟨disciplined_nil, rfl, nofun⟩
  rxBuff := Buffer.isReset_mk n
  txBuff := .inl (Buffer.isReset_mk n)

namespace Lifecycle

/-- Only the queues, the buffers and the position in the TX buffer matter. -/
theorem congr (h : c.Lifecycle) (hqueue : c'.queue = c.queue) (hrx : c'.rxBuff = c.rxBuff)
    (htx : c'.txBuff = c.txBuff) (hprogress : c'.txBuffProgress = c.txBuffProgress) :
    c'.Lifecycle where
  queueOk i := hqueue ▸ h.queueOk i
  rxBuff := hrx ▸ h.rxBuff
  txBuff := by
    rw [htx]
    refine h.txBuff.imp_right fun ht => ⟨?_, ?_, ?_⟩
    · rw [hqueue]
      exact ht.constructed
    · rw [htx, deviceQueue, hqueue]
      exact ht.holds
    · rw [htx, hprogress]
      exact ht.progress_le

theorem assertIrq (h : c.Lifecycle) : c.assertIrq.Lifecycle := by
  rw [VirtioConsole.assertIrq]
  split_ifs
  · exact h
  · exact h.congr rfl rfl rfl rfl

theorem inPlace (h : c.Lifecycle) {i : ℕ} (hup : (c.queue i).constructed = true) :
    (c.deviceQueue i).InPlace := (h.queueOk i).inPlace hup

theorem isReset_of_sizeBytes (h : c.Lifecycle) (hsize : c.txBuff.sizeBytes = 0) :
    c.txBuff.IsReset := by
  refine h.txBuff.resolve_right fun ht => ?_
  have := ht.holds.sizeBytes_pos
  omega

theorem txHeld_of_sizeBytes (h : c.Lifecycle) (hsize : c.txBuff.sizeBytes ≠ 0) : c.TxHeld :=
  h.txBuff.resolve_left fun hb => hsize hb.sizeBytes

theorem queueOk_setDeviceQueue (h : c.Lifecycle) {i : ℕ} (hup : (c.queue i).constructed = true)
    (hq : q.InPlace) (j : ℕ) : ((c.setDeviceQueue i q).queue j).QueueOk := by
  rw [queue_setDeviceQueue]
  split_ifs
  · exact .setDeviceQueue hup hq
  · exact h.queueOk j

theorem putRx (h : c.Lifecycle) (hup : (c.queue rxQueue).constructed = true) (hb : b.IsReset)
    (hq : q.InPlace) : (c.putRx b q).Lifecycle where
  queueOk := h.queueOk_setDeviceQueue hup hq
  rxBuff := hb
  txBuff := h.txBuff.imp_right fun ht => ⟨ht.constructed, ht.holds, ht.progress_le⟩

theorem putTx (h : c.Lifecycle) (hup : (c.queue txQueue).constructed = true) (hq : q.InPlace)
    (hb : b.IsReset ∨ b.Holds q ∧ c.txBuffProgress ≤ b.sizeBytes) : (c.putTx b q).Lifecycle where
  queueOk := h.queueOk_setDeviceQueue hup hq
  rxBuff := h.rxBuff
  txBuff := hb.imp_right fun hb => ⟨hup, hb.1, hb.2⟩

end Lifecycle

/-! ## `to_guest` -/

/-- A turn of `to_guest` takes a chain and gives it back, and makes progress if it succeeds. -/
theorem toGuestTurn_lifecycle (h : c.Lifecycle) (hup : (c.queue rxQueue).constructed = true)
    {buff : Option ℕ} {bufIdx sizeBytes : ℕ} (hsize : sizeBytes ≠ 0) :
    ∃ r, c.toGuestTurn env buff bufIdx sizeBytes time m = some r ∧ r.console.Lifecycle ∧
      (r.console.queue rxQueue).constructed = true ∧ (r.ok = true → r.sizeBytes < sizeBytes) := by
  obtain ⟨w, hw, hq, hheld, hreset⟩ :=
    Buffer.walkChain_inPlace h.rxBuff (h.inPlace hup) env.guest time
  have hwalk : c.walkRx env time = some (w.err, c.putRx w.buffer w.queue, w.time) := by
    rw [walkRx, hw]
    rfl
  rw [toGuestTurn, hwalk]
  dsimp only [Option.bind_eq_bind, Option.bind_some]
  by_cases herr : w.err = .none
  · rw [if_neg (not_not.2 herr)]
    have hheld := hheld herr
    obtain ⟨r, hr⟩ : ∃ r, r = w.buffer.copyFromLinear (buff.map (· + bufIdx)) (env.accessor w.time)
      (min sizeBytes w.buffer.sizeBytes) 0 none m := ⟨_, rfl⟩
    have hbytes : r.err = .none → r.bytesCopied = min sizeBytes w.buffer.sizeBytes :=
      fun hnone => hr ▸ hheld.bytesCopied_copyFromLinear (hr ▸ hnone)
    have hcopied : r.state.Holds w.queue := hr ▸ hheld.copyFromLinear
    obtain ⟨hb, hq⟩ := Buffer.concludeChainUse_inPlace hcopied hq
    have hlife := (h.putRx hup hb hq).assertIrq
    have hrx : (c.putRx w.buffer w.queue).rxBuff = w.buffer := rfl
    rw [hrx, ← hr, show { c.putRx w.buffer w.queue with rxBuff := r.state } =
      c.putRx r.state w.queue from rfl, concludeRx_putRx]
    split_ifs with hfail
    · exact ⟨_, rfl, hlife, (queue_assertIrq _ _).symm ▸ hup, nofun⟩
    · refine ⟨_, rfl, hlife, (queue_assertIrq _ _).symm ▸ hup, fun _ => ?_⟩
      have hpos := hheld.sizeBytes_pos
      dsimp only
      rw [hbytes (by simpa using hfail)]
      omega
  · rw [if_pos herr]
    exact ⟨_, rfl, (h.putRx hup (hreset herr) hq).assertIrq, (queue_assertIrq _ _).symm ▸ hup,
      nofun⟩

theorem lifecycle_toGuestLoop {buff : Option ℕ} {fuel bufIdx sizeBytes : ℕ} (h : c.Lifecycle)
    (hup : (c.queue rxQueue).constructed = true) (hfuel : sizeBytes < fuel) :
    ∃ ok c' m', toGuestLoop env buff fuel c bufIdx sizeBytes time m = some (ok, c', m') ∧
      c'.Lifecycle := by
  induction fuel generalizing c bufIdx sizeBytes time m with
  | zero => exact absurd hfuel (Nat.not_lt_zero _)
  | succ fuel ih =>
      rw [toGuestLoop]
      by_cases hsize : sizeBytes = 0
      · exact ⟨true, c, m, if_pos hsize, h⟩
      · obtain ⟨r, hr, hlife, hup, hless⟩ :=
          @toGuestTurn_lifecycle c env m time h hup buff bufIdx sizeBytes hsize
        rw [if_neg hsize, hr]
        dsimp only [Option.bind_eq_bind, Option.bind_some]
        by_cases hok : r.ok = true
        · rw [if_pos hok]
          have := hless hok
          exact ih hlife hup (by omega)
        · exact ⟨false, r.console, r.mem, if_neg hok, hlife⟩

theorem lifecycle_toGuest (h : c.Lifecycle) (env : CallEnv) (buff : Option ℕ) (sizeBytes : ℕ)
    (m : Mem) : ∃ ok c' m', c.toGuest env buff sizeBytes m = some (ok, c', m') ∧ c'.Lifecycle := by
  rw [toGuest]
  split_ifs with husable
  · exact ⟨false, c, m, rfl, h⟩
  · rw [usable] at husable
    exact lifecycle_toGuestLoop h (by simp_all) (Nat.lt_succ_self _)

/-! ## `from_guest` -/

theorem fetchTx_of_walk (hsize : c.txBuff.sizeBytes = 0) {w : WalkResult}
    (hw : c.txBuff.walkChain (c.deviceQueue txQueue) env.guest time = some w) :
    c.fetchTx env time =
      some (w.err, { c with txBuffProgress := 0 }.putTx w.buffer w.queue, w.time) := by
  rw [fetchTx, if_pos hsize, walkTx]
  show (c.txBuff.walkChain (c.deviceQueue txQueue) env.guest time).map _ = _
  rw [hw]
  rfl

theorem fetchTx_lifecycle (h : c.Lifecycle) (hup : (c.queue txQueue).constructed = true)
    (env : CallEnv) (time : ℕ) :
    ∃ err c' time', c.fetchTx env time = some (err, c', time') ∧ c'.Lifecycle ∧
      (c'.queue txQueue).constructed = true ∧ (err = .none → c'.TxHeld ∧
        (c'.txBuffProgress = c'.txBuff.sizeBytes → c' = c)) := by
  by_cases hsize : c.txBuff.sizeBytes = 0
  · obtain ⟨w, hw, hq, hheld, hreset⟩ :=
      Buffer.walkChain_inPlace (h.isReset_of_sizeBytes hsize) (h.inPlace hup) env.guest time
    have hzero : { c with txBuffProgress := 0 }.Lifecycle :=
      ⟨h.queueOk, h.rxBuff, .inl (h.isReset_of_sizeBytes hsize)⟩
    refine ⟨_, _, _, fetchTx_of_walk hsize hw, hzero.putTx hup hq ?_, hup,
      fun herr => ⟨⟨hup, hheld herr, Nat.zero_le _⟩, fun heq => ?_⟩⟩
    · by_cases herr : w.err = .none
      · exact .inr ⟨hheld herr, Nat.zero_le _⟩
      · exact .inl (hreset herr)
    · exact absurd heq (hheld herr).sizeBytes_pos.ne
  · rw [fetchTx, if_neg hsize]
    exact ⟨_, _, _, rfl, h, hup, fun _ => ⟨h.txHeld_of_sizeBytes hsize, fun _ => rfl⟩⟩

/-- The copy leaves the device as it is, and copies what it is asked to unless it fails. -/
theorem copyTx_held (h : c.TxHeld) (env : CallEnv) (outBuf : Option ℕ) (nCopy time : ℕ) (m : Mem) :
    ∃ err n m', c.copyTx env outBuf nCopy time m = (err, n, c, m') ∧ (err = .none → n = nCopy) := by
  obtain ⟨r, hr⟩ : ∃ r, r = c.txBuff.copyToLinear outBuf (env.accessor time) nCopy
    c.txBuffProgress none m := ⟨_, rfl⟩
  have hstate : r.state = c.txBuff := hr ▸ h.holds.state_copyToLinear
  have hbytes : r.err = .none → r.bytesCopied = nCopy :=
    fun herr => hr ▸ h.holds.bytesCopied_copyToLinear (hr ▸ herr)
  rw [copyTx, ← hr]
  split_ifs
  · refine ⟨r.err, r.bytesCopied, r.mem, ?_, hbytes⟩
    dsimp only
    rw [hstate]
  · exact ⟨.none, nCopy, m, rfl, fun _ => rfl⟩

theorem concludeTx_lifecycle (h : c.Lifecycle) (ht : c.TxHeld) :
    c.concludeTx.Lifecycle ∧ c.concludeTx.txBuff.sizeBytes = 0 ∧
      (c.concludeTx.queue txQueue).constructed = true := by
  obtain ⟨hb, hq⟩ := Buffer.concludeChainUse_inPlace ht.holds (h.inPlace ht.constructed)
  exact ⟨h.putTx ht.constructed hq (.inl hb), hb.sizeBytes, ht.constructed⟩

/-- The turns that a call of `sizeBytes` bytes may take: two for each byte, and one more where the
first does nothing but conclude a chain that has been read to its end. -/
def turnsLeft (c : VirtioConsole) (sizeBytes : ℕ) : ℕ :=
  if c.txBuff.sizeBytes ≠ 0 ∧ c.txBuffProgress = c.txBuff.sizeBytes then 2 * sizeBytes + 1
  else 2 * sizeBytes

/-- **A turn of `from_guest`** keeps the invariant, and takes one of the turns left. -/
theorem fromGuestTurn_lifecycle (h : c.Lifecycle) (hup : (c.queue txQueue).constructed = true)
    {outBuf : Option ℕ} {sizeBytes wasRead : ℕ} (hsize : sizeBytes ≠ 0) :
    ∃ r, c.fromGuestTurn env outBuf sizeBytes wasRead time m = some r ∧ r.console.Lifecycle ∧
      (r.console.queue txQueue).constructed = true ∧ (r.done = false →
        r.console.turnsLeft r.sizeBytes < c.turnsLeft sizeBytes) := by
  obtain ⟨err, c₁, time₁, hfetch, hlife, hup, hheld⟩ := fetchTx_lifecycle h hup env time
  rw [fromGuestTurn, hfetch]
  dsimp only [Option.bind_eq_bind, Option.bind_some]
  by_cases herr : err = .none
  · obtain ⟨hheld, hsame⟩ := hheld herr
    obtain ⟨k, hk⟩ : ∃ k, k = min sizeBytes (sizeSub c₁.txBuff.sizeBytes c₁.txBuffProgress) :=
      ⟨_, rfl⟩
    obtain ⟨err, n, m', hcopy, hn⟩ :=
      copyTx_held hheld env (outBuf.map (· + wasRead)) k time₁ m
    obtain ⟨hconclude, hzero, hup'⟩ := concludeTx_lifecycle hlife hheld
    have hsub : sizeSub c₁.txBuff.sizeBytes c₁.txBuffProgress =
        c₁.txBuff.sizeBytes - c₁.txBuffProgress :=
      sizeSub_of_le hheld.progress_le (lt_of_le_of_lt hheld.holds.wellFormed.size_le (by decide))
    have hprogress := hheld.progress_le
    rw [if_neg (not_not.2 herr), ← hk, hcopy]
    dsimp only
    by_cases hstop : err ≠ .none ∨ n = 0
    · rw [if_pos hstop]
      refine ⟨_, rfl, hconclude.assertIrq, (queue_assertIrq _ _).symm ▸ hup', fun hdone => ?_⟩
      -- nothing was left to copy, so the chain was there before the turn and has been read
      have herr : err = .none := by simpa using hdone
      have hk0 : k = 0 := (hn herr).symm.trans (hstop.resolve_left (not_not.2 herr))
      have hc : c₁ = c := hsame (by omega)
      have hread : c.txBuff.sizeBytes ≠ 0 ∧ c.txBuffProgress = c.txBuff.sizeBytes := by
        have := hheld.holds.sizeBytes_pos
        rw [← hc]
        omega
      have htx : c₁.concludeTx.assertIrq.txBuff.sizeBytes = 0 := by
        rw [txBuff_assertIrq]
        exact hzero
      rw [turnsLeft, turnsLeft, if_neg (fun h => h.1 htx), if_pos hread]
      exact Nat.lt_succ_self _
    · rw [if_neg hstop]
      rw [not_or, not_not] at hstop
      have hn := hn hstop.1
      have hheld' : { c₁ with txBuffProgress := c₁.txBuffProgress + n }.TxHeld :=
        ⟨hheld.constructed, hheld.holds, by
          show c₁.txBuffProgress + n ≤ c₁.txBuff.sizeBytes
          omega⟩
      refine ⟨_, rfl, ⟨hlife.queueOk, hlife.rxBuff, .inr hheld'⟩, hup, fun _ => ?_⟩
      rw [turnsLeft, turnsLeft]
      have := hstop.2
      split_ifs <;> dsimp only <;> omega
  · rw [if_pos herr]
    exact ⟨_, rfl, hlife, hup, nofun⟩

theorem lifecycle_fromGuestLoop {outBuf : Option ℕ} {fuel sizeBytes wasRead : ℕ} (h : c.Lifecycle)
    (hup : (c.queue txQueue).constructed = true) (hfuel : c.turnsLeft sizeBytes < fuel) :
    ∃ n c' m', fromGuestLoop env outBuf fuel c sizeBytes wasRead time m = some (n, c', m') ∧
      c'.Lifecycle := by
  induction fuel generalizing c sizeBytes wasRead time m with
  | zero => exact absurd hfuel (Nat.not_lt_zero _)
  | succ fuel ih =>
      rw [fromGuestLoop]
      by_cases hsize : sizeBytes = 0
      · exact ⟨wasRead, c, m, if_pos hsize, h⟩
      · obtain ⟨r, hr, hlife, hup, hless⟩ :=
          @fromGuestTurn_lifecycle c env m time h hup outBuf sizeBytes wasRead hsize
        rw [if_neg hsize, hr]
        dsimp only [Option.bind_eq_bind, Option.bind_some]
        by_cases hdone : r.done = true
        · exact ⟨r.wasRead, r.console, r.mem, if_pos hdone, hlife⟩
        · rw [if_neg hdone]
          have := hless (by simpa using hdone)
          exact ih hlife hup (by omega)

theorem lifecycle_fromGuest (h : c.Lifecycle) (env : CallEnv) (outBuf : Option ℕ) (sizeBytes : ℕ)
    (m : Mem) : ∃ n c' m', c.fromGuest env outBuf sizeBytes m = some (n, c', m') ∧
      c'.Lifecycle := by
  rw [fromGuest]
  split_ifs with husable
  · exact ⟨0, c, m, rfl, h⟩
  · rw [usable] at husable
    refine lifecycle_fromGuestLoop h (by simp_all) ?_
    rw [turnsLeft]
    split_ifs <;> omega

/-! ## Accesses and resets -/

theorem Lifecycle.resetState (h : c.Lifecycle) (htx : c.txBuff.IsReset) :
    { c with devState := c.devState.reset }.Lifecycle where
  queueOk i := by
    show QueueState.QueueOk (if i < queuesMax then (c.queue i).destruct else c.queue i)
    split_ifs
    · exact .destruct (h.queueOk i).disciplined
    · exact h.queueOk i
  rxBuff := h.rxBuff
  txBuff := .inl htx

theorem putRx_deviceQueue : c.putRx b (c.deviceQueue rxQueue) = { c with rxBuff := b } := by
  have hqueue : Function.update c.devState.queue rxQueue (c.queue rxQueue) = c.devState.queue :=
    Function.update_eq_self ..
  show { c with
    devState := { c.devState with
      queue := Function.update c.devState.queue rxQueue (c.queue rxQueue) }
    rxBuff := b } = _
  rw [hqueue]

theorem putTx_deviceQueue : c.putTx b (c.deviceQueue txQueue) = { c with txBuff := b } := by
  have hqueue : Function.update c.devState.queue txQueue (c.queue txQueue) = c.devState.queue :=
    Function.update_eq_self ..
  show { c with
    devState := { c.devState with
      queue := Function.update c.devState.queue txQueue (c.queue txQueue) }
    txBuff := b } = _
  rw [hqueue]

/-- **`reset` keeps the invariant**: it concludes the chain before it tears the queues down. -/
theorem Lifecycle.reset (h : c.Lifecycle) : c.reset.Lifecycle := by
  have hrx : c.concludeRx.Lifecycle := by
    obtain ⟨hb, hq⟩ := @Buffer.concludeChainUse_of_isReset _ (c.deviceQueue rxQueue) h.rxBuff
    rw [concludeRx, hq, putRx_deviceQueue]
    exact ⟨h.queueOk, hb, h.txBuff.imp_right fun ht => ⟨ht.constructed, ht.holds, ht.progress_le⟩⟩
  have htx : c.concludeRx.concludeTx.Lifecycle ∧ c.concludeRx.concludeTx.txBuff.IsReset := by
    rcases hrx.txBuff with hreset | hheld
    · obtain ⟨hb, hq⟩ :=
        @Buffer.concludeChainUse_of_isReset _ (c.concludeRx.deviceQueue txQueue) hreset
      rw [concludeTx, hq, putTx_deviceQueue]
      exact ⟨⟨hrx.queueOk, hrx.rxBuff, .inl hb⟩, hb⟩
    · obtain ⟨hlife, hsize, -⟩ := concludeTx_lifecycle hrx hheld
      exact ⟨hlife, hlife.isReset_of_sizeBytes hsize⟩
  exact (htx.1.resetState htx.2).congr rfl rfl rfl rfl

/-- The first event constructs a queue that nothing is held of. -/
theorem Lifecycle.handleConstruct (h : c.Lifecycle) (p : Platform) :
    (c.handleConstruct p).Lifecycle := by
  rw [VirtioConsole.handleConstruct]
  split_ifs
  · rw [DeviceState.constructSelected]
    dsimp only
    split_ifs with hup
    · exact h.congr rfl rfl rfl rfl
    · refine ⟨fun i => ?_, h.rxBuff, h.txBuff.imp_right fun ht => ?_⟩
      · show QueueState.QueueOk (Function.update c.devState.queue _ _ i)
        rw [Function.update_apply]
        split_ifs
        · exact (h.queueOk _).construct _ _ _
        · exact h.queueOk i
      · have hne : txQueue ≠ c.devState.selQueue.toNat := fun heq => hup (heq ▸ ht.constructed)
        refine ⟨?_, ?_, ht.progress_le⟩
        · show (Function.update c.devState.queue _ _ txQueue).constructed = true
          rw [Function.update_of_ne hne]
          exact ht.constructed
        · show Buffer.Holds _ (Function.update c.devState.queue _ _ txQueue).deviceQueue
          rw [Function.update_of_ne hne]
          exact ht.holds
  · exact h

theorem txBuff_handleConstruct (p : Platform) : (c.handleConstruct p).txBuff = c.txBuff := by
  rw [handleConstruct]
  split_ifs <;> rfl

theorem status_handleConstruct (p : Platform) :
    (c.handleConstruct p).devState.statusChanged = c.devState.statusChanged ∧
      (c.handleConstruct p).devState.status = c.devState.status := by
  rw [handleConstruct, DeviceState.constructSelected]
  dsimp only
  split_ifs <;> exact ⟨rfl, rfl⟩

/-- The second event tears the queues down if the status has become 0. -/
theorem Lifecycle.handleStatus (h : c.Lifecycle)
    (hok : c.devState.statusChanged = true → c.devState.status = 0 → c.txBuff.sizeBytes = 0) :
    c.handleStatus.Lifecycle := by
  rw [VirtioConsole.handleStatus]
  split_ifs with hchanged
  · dsimp only
    split_ifs with hstatus
    · have hc : { c with devState := { c.devState with statusChanged := false } }.Lifecycle :=
        h.congr rfl rfl rfl rfl
      exact hc.resetState (h.isReset_of_sizeBytes (hok hchanged hstatus))
    · exact h.congr rfl rfl rfl rfl
    · exact h.congr rfl rfl rfl rfl
  · exact h

theorem Lifecycle.handleIrqAck (h : c.Lifecycle) : c.handleIrqAck.Lifecycle := by
  rw [VirtioConsole.handleIrqAck]
  split_ifs
  · exact h.congr rfl rfl rfl rfl
  · exact h

theorem Lifecycle.notify (h : c.Lifecycle) (m : Shared) : (c.notify m).Lifecycle := by
  rw [VirtioConsole.notify]
  dsimp only
  split_ifs <;> exact h.congr rfl rfl rfl rfl

theorem Lifecycle.handleNotify (h : c.Lifecycle) (m : Shared) : (c.handleNotify m).Lifecycle := by
  rw [VirtioConsole.handleNotify]
  split_ifs
  · apply Lifecycle.notify
    exact h.congr rfl rfl rfl rfl
  · exact h

/-- The access succeeds and makes `handle_events` tear the queues down. -/
def TearsDown (c : VirtioConsole) (a : Access) (offset : UInt64) (size : UInt8) (value : UInt64) :
    Prop :=
  (c.devState.mmioAccess a offset size value).1 = true ∧
    (c.devState.mmioAccess a offset size value).2.2.statusChanged = true ∧
    (c.devState.mmioAccess a offset size value).2.2.status = 0

/-- **An access keeps the invariant** unless it tears the queues down under a chain. -/
theorem Lifecycle.access (h : c.Lifecycle) {a : Access} {offset value : UInt64} {size : UInt8}
    (hok : c.TearsDown a offset size value → c.txBuff.sizeBytes = 0) (p : Platform) (m : Shared) :
    (c.access a offset size value p m).2.2.Lifecycle := by
  have hc : { c with devState := (c.devState.mmioAccess a offset size value).2.2 }.Lifecycle :=
    h.congr (DeviceState.queue_mmioAccess a) rfl rfl rfl
  rw [VirtioConsole.access]
  dsimp only
  split_ifs with hsucc
  · refine (Lifecycle.handleStatus (hc.handleConstruct p) ?_).handleIrqAck.handleNotify m
    rw [(status_handleConstruct p).1, (status_handleConstruct p).2, txBuff_handleConstruct]
    exact fun hchanged hstatus => hok ⟨hsucc, hchanged, hstatus⟩
  · exact hc

instance (c : VirtioConsole) (a : Access) (offset : UInt64) (size : UInt8) (value : UInt64) :
    Decidable (c.TearsDown a offset size value) :=
  inferInstanceAs (Decidable (_ ∧ _))

end VirtioConsole

/-! ## Runs -/

/-- A call: an access of the guest, a call of the backend, or a reset by the platform. -/
inductive ConsoleOp
  | access (a : Access) (offset : UInt64) (size : UInt8) (value : UInt64) (p : Platform)
      (m : Shared)
  | toGuest (env : CallEnv) (buff : Option ℕ) (sizeBytes : ℕ) (m : Mem)
  | fromGuest (env : CallEnv) (outBuf : Option ℕ) (sizeBytes : ℕ) (m : Mem)
  | reset

namespace VirtioConsole

variable {c c' : VirtioConsole} {op : ConsoleOp}

/-- What a call makes of the console. Anything may follow an access outside the two arrays. -/
def Step (c : VirtioConsole) : ConsoleOp → VirtioConsole → Prop
  | .access a offset size value p m, c' =>
      c.devState.InBounds a offset size value → c' = (c.access a offset size value p m).2.2
  | .toGuest env buff sizeBytes m, c' =>
      ∃ ok m', c.toGuest env buff sizeBytes m = some (ok, c', m')
  | .fromGuest env outBuf sizeBytes m, c' =>
      ∃ n m', c.fromGuest env outBuf sizeBytes m = some (n, c', m')
  | .reset, c' => c' = c.reset

/-- An access stays within the two arrays, and does not tear the queues down under a chain. -/
def StepOk (c : VirtioConsole) : ConsoleOp → Prop
  | .access a offset size value _ _ => c.devState.InBounds a offset size value ∧
      (c.TearsDown a offset size value → c.txBuff.sizeBytes = 0)
  | _ => True

instance (c : VirtioConsole) (op : ConsoleOp) : Decidable (c.StepOk op) :=
  match op with
  | .access .. => inferInstanceAs (Decidable (_ ∧ (_ → _)))
  | .toGuest .. => inferInstanceAs (Decidable True)
  | .fromGuest .. => inferInstanceAs (Decidable True)
  | .reset => inferInstanceAs (Decidable True)

/-- **The step lemma.** -/
theorem lifecycle_step (h : c.Lifecycle) (hok : c.StepOk op) (hstep : c.Step op c') :
    c'.Lifecycle := by
  cases op with
  | access a offset size value p m =>
      rw [hstep hok.1]
      exact h.access hok.2 p m
  | toGuest env buff sizeBytes m =>
      obtain ⟨ok, m', hrun⟩ := hstep
      obtain ⟨ok₁, c₁, m₁, hrun₁, hlife⟩ := lifecycle_toGuest h env buff sizeBytes m
      rw [hrun, Option.some.injEq, Prod.mk.injEq, Prod.mk.injEq] at hrun₁
      exact hrun₁.2.1 ▸ hlife
  | fromGuest env outBuf sizeBytes m =>
      obtain ⟨n, m', hrun⟩ := hstep
      obtain ⟨n₁, c₁, m₁, hrun₁, hlife⟩ := lifecycle_fromGuest h env outBuf sizeBytes m
      rw [hrun, Option.some.injEq, Prod.mk.injEq, Prod.mk.injEq] at hrun₁
      exact hrun₁.2.1 ▸ hlife
  | reset => exact hstep ▸ h.reset

theorem exists_step (h : c.Lifecycle) (op : ConsoleOp) : ∃ c', c.Step op c' := by
  cases op with
  | access a offset size value p m => exact ⟨_, fun _ => rfl⟩
  | toGuest env buff sizeBytes m =>
      obtain ⟨ok, c', m', hrun, -⟩ := lifecycle_toGuest h env buff sizeBytes m
      exact ⟨c', ok, m', hrun⟩
  | fromGuest env outBuf sizeBytes m =>
      obtain ⟨n, c', m', hrun, -⟩ := lifecycle_fromGuest h env outBuf sizeBytes m
      exact ⟨c', n, m', hrun⟩
  | reset => exact ⟨_, rfl⟩

/-- **As long as the queues are not torn down under a chain**, nothing is sent on a queue that is
not constructed, and every element sent returns a head that this incarnation of the queue has handed
out and not got back. -/
theorem queues_disciplined {n : UInt16} {ops : List ConsoleOp}
    (h : Run (fun c op c' => c.StepOk op ∧ c.Step op c') (new n) ops c) :
    (∀ i, Disciplined (c.deviceQueue i).log) ∧ ∀ op, ∃ c', c.Step op c' := by
  have hlife : c.Lifecycle :=
    h.invariant (fun _ _ _ hc hstep => lifecycle_step hc hstep.1 hstep.2) (lifecycle_new n)
  exact ⟨fun i => (hlife.queueOk i).disciplined, exists_step hlife⟩

/-! ### Two runs -/

/-- Calls that are defined, executed. -/
def exec (c : VirtioConsole) : ConsoleOp → Option VirtioConsole
  | .access a offset size value p m =>
      if c.devState.InBounds a offset size value then some (c.access a offset size value p m).2.2
      else none
  | .toGuest env buff sizeBytes m => (c.toGuest env buff sizeBytes m).map (·.2.1)
  | .fromGuest env outBuf sizeBytes m => (c.fromGuest env outBuf sizeBytes m).map (·.2.1)
  | .reset => some c.reset

theorem step_of_exec (h : c.exec op = some c') : c.Step op c' := by
  cases op with
  | access a offset size value p m =>
      intro hin
      rw [exec, if_pos hin] at h
      exact (Option.some.inj h).symm
  | toGuest env buff sizeBytes m =>
      rw [exec, Option.map_eq_some_iff] at h
      obtain ⟨⟨ok, c₁, m'⟩, hrun, rfl⟩ := h
      exact ⟨ok, m', hrun⟩
  | fromGuest env outBuf sizeBytes m =>
      rw [exec, Option.map_eq_some_iff] at h
      obtain ⟨⟨n, c₁, m'⟩, hrun, rfl⟩ := h
      exact ⟨n, m', hrun⟩
  | reset => exact (Option.some.inj h).symm

/-- Guest memory is host memory. -/
def flatPlatform : Platform := ⟨false, fun a _ => a, fun a _ => some a.toNat⟩

/-- A write of four bytes. -/
def write (offset value : UInt64) : ConsoleOp := .access .write offset 4 value flatPlatform {}

/-- One readable chain of 16 bytes at 256, with head 1. -/
def sixteenBytes : CallEnv where
  guest _ := { table := fun _ => ⟨256, 16, 0, 0⟩, avail := { index := 1, ring := fun _ => 1 } }
  accessor _ := { vqAddrToRHva := fun a _ => .ok a.toNat }

/-- The driver sets the TX queue up. -/
def setUp : List ConsoleOp := [write 0x30 1, write 0x44 1, write 0x70 4]

/-- `from_guest`, of `n` bytes to 4096. -/
def readBytes (n : ℕ) : ConsoleOp := .fromGuest sixteenBytes (some 4096) n UInt8.ofNat

theorem run_of_exec {ops : List ConsoleOp} {n : UInt16} {log : List QueueEvent}
    (h : (ops.foldlM exec (new n)).map (fun c => (c.deviceQueue txQueue).log) = some log) :
    ∃ c, Run Step (new n) ops c ∧ (c.deviceQueue txQueue).log = log := by
  obtain ⟨c, hc, hlog⟩ := Option.map_eq_some_iff.1 h
  exact ⟨c, (Run.of_foldlM hc).mono fun _ _ _ => step_of_exec, hlog⟩

/-- Half of a chain is read, the queues are torn down, and then either the driver sets the TX queue
up again and the rest is read, or the platform resets the device. -/
theorem stale_chain :
    (∃ c, Run Step (new 4) (setUp ++ [readBytes 8, write 0x70 0, write 0x44 1, readBytes 16]) c ∧
      ¬Disciplined (c.deviceQueue txQueue).log) ∧
    ∃ c, Run Step (new 4) (setUp ++ [readBytes 8, write 0x70 0, .reset]) c ∧
      ¬Disciplined (c.deviceQueue txQueue).log := by
  constructor
  · obtain ⟨c, hrun, hlog⟩ := @run_of_exec (setUp ++ [readBytes 8, write 0x70 0, write 0x44 1,
      readBytes 16]) 4 [.construct 4, .availEvent 1, .recv 1, .destruct, .construct 4,
        .send 4 0 1 0 1, .availEvent 1, .recv 1] (by decide)
    refine ⟨c, hrun, fun hdis => ?_⟩
    rw [hlog] at hdis
    obtain ⟨-, -, head, hmem, -⟩ := hdis
      [.construct 4, .availEvent 1, .recv 1, .destruct, .construct 4] 4 0 1 0 1
      [.availEvent 1, .recv 1] rfl
    exact absurd hmem List.not_mem_nil
  · obtain ⟨c, hrun, hlog⟩ := @run_of_exec (setUp ++ [readBytes 8, write 0x70 0, .reset]) 4
      [.construct 4, .availEvent 1, .recv 1, .destruct, .send 0 0 1 0 1, .destruct] (by decide)
    refine ⟨c, hrun, fun hdis => ?_⟩
    rw [hlog] at hdis
    obtain ⟨hup, -⟩ := hdis [.construct 4, .availEvent 1, .recv 1, .destruct] 0 0 1 0 1
      [.destruct] rfl
    exact absurd hup (by decide)

/-- The chain is read to its end before the queues are torn down, and again on the queue that is
set up next. -/
theorem queues_disciplined_sixteenBytes :
    ∃ c, Run (fun c op c' => c.StepOk op ∧ c.Step op c') (new 4) (setUp ++ [readBytes 17,
      write 0x70 0, write 0x44 1, readBytes 8, .reset]) c ∧
      published (c.deviceQueue txQueue).log = [(1, 0), (1, 0)] ∧
      ∀ i, Disciplined (c.deviceQueue i).log := by
  have hrun : ((setUp ++ [readBytes 17, write 0x70 0, write 0x44 1, readBytes 8,
      ConsoleOp.reset]).foldlM (fun (c : VirtioConsole) op => if c.StepOk op then c.exec op
        else none) (new 4)).map (fun c => published (c.deviceQueue txQueue).log) =
      some [(1, 0), (1, 0)] := by decide
  obtain ⟨c, hc, hlog⟩ := Option.map_eq_some_iff.1 hrun
  have hok : Run (fun c op c' => c.StepOk op ∧ c.Step op c') (new 4) (setUp ++ [readBytes 17,
      write 0x70 0, write 0x44 1, readBytes 8, .reset]) c :=
    (Run.of_foldlM hc).mono fun _ _ _ hexec => by
      split_ifs at hexec with hok
      exact ⟨hok, step_of_exec hexec⟩
  exact ⟨c, hok, hlog, (queues_disciplined hok).1⟩

end VirtioConsole

end Vml
