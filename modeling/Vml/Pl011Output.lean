import Vml.Pl011

/-!
# What the UART hands to the backend

**History.** `TxSys` numbers the characters that the guest writes to `UARTDR`, and keeps the numbers
of those that are in the transmit queue and of those that have been handed over, the latter with how
many had been written before the last reset at that time.

Main result: `TxSys.output_in_order_iff`: what is handed over is what has been written, in this
order, each character once, with every one that was written while the transmitter was enabled, and
none from before a reset, exactly if no queue that is drained holds a character from before a reset.
-/

namespace Vml

/-- A character that has been handed over: its number, and how many had been written before the last
reset. -/
structure Handed where
  write : ℕ
  lastReset : ℕ
  deriving DecidableEq, Repr

/-- The UART, with what has been written: the characters, and whether the transmitter was enabled. -/
structure TxSys where
  uart : Pl011
  written : List (UInt8 × Bool) := []
  lastReset : ℕ := 0
  queued : List ℕ := []
  handed : List Handed := []

namespace TxSys

/-- The UART, after an operation. -/
def next (s : TxSys) (op : UartOp) : TxSys :=
  match op.kind with
  | .writeDr value =>
      { s with
        uart := s.uart.next op
        written := s.written ++ [(value.toUInt8, s.uart.canTx)]
        queued :=
          if s.uart.uartEnabled && !s.uart.canTx && !s.uart.txFifo.isFull then
            s.queued ++ [s.written.length]
          else s.queued
        handed :=
          if s.uart.canTx then s.handed ++ [⟨s.written.length, s.lastReset⟩] else s.handed }
  | .writeCr value =>
      { s with
        uart := s.uart.next op
        queued := if s.uart.startsTx value then [] else s.queued
        handed :=
          if s.uart.startsTx value then
            s.handed ++ s.queued.map fun write => ⟨write, s.lastReset⟩
          else s.handed }
  | .writeLcrH _ => { s with uart := s.uart.next op, queued := [] }
  | .reset => { s with uart := s.uart.next op, lastReset := s.written.length }
  | _ => { s with uart := s.uart.next op }

/-- The UART that is initialized. -/
def init (sbsaUart : Bool) : TxSys := { uart := Pl011.init sbsaUart }

/-- The character of this number. -/
def charOf (s : TxSys) (write : ℕ) : UInt8 := (s.written[write]?.map Prod.fst).getD 0

/-- **The output is in order.** -/
structure OutputInOrder (s : TxSys) : Prop where
  sent : s.uart.sent = s.handed.map fun h => s.charOf h.write
  written : ∀ h ∈ s.handed, h.write < s.written.length
  /-- In the order of the writes, and none twice. -/
  order : (s.handed.map Handed.write).Pairwise (· < ·)
  sublist : s.uart.sent.Sublist (s.written.map Prod.fst)
  /-- Whatever was written while the transmitter was enabled. -/
  enabled : ∀ write c, s.written[write]? = some (c, true) → write ∈ s.handed.map Handed.write
  /-- Nothing from before a reset. -/
  reset : ∀ h ∈ s.handed, h.lastReset ≤ h.write

/-- **The condition**: when the transmitter is enabled, no character in its queue is from before the
last reset. -/
def DrainsOwn (s : TxSys) (op : UartOp) : Prop :=
  match op.kind with
  | .writeCr value => s.uart.startsTx value = true → ∀ write ∈ s.queued, s.lastReset ≤ write
  | _ => True

/-! ## The invariant -/

/-- What is in the queue, and what is not from before the last reset. -/
structure Tracked (s : TxSys) : Prop extends OutputInOrder s where
  sound : s.uart.Sound
  contents : s.uart.txFifo.contents = s.queued.map fun write => (s.charOf write).toUInt16
  queuedOrder : s.queued.Pairwise (· < ·)
  queued : ∀ write ∈ s.queued, write < s.written.length
  lastReset : s.lastReset ≤ s.written.length
  /-- Whatever is queued since then comes after all that have been handed over. -/
  fresh : ∀ write ∈ s.queued, s.lastReset ≤ write → ∀ h ∈ s.handed, h.write < write
  /-- While the transmitter is enabled nothing is queued. -/
  stale : s.uart.canTx = true → ∀ write ∈ s.queued, write < s.lastReset

variable {s s' : TxSys} {value : UInt64}

theorem sublist_of_order {α : Type*} {l : List α} {is : List ℕ} {f : ℕ → α}
    (horder : is.Pairwise (· < ·)) (hlt : ∀ i ∈ is, i < l.length)
    (hf : ∀ (i : ℕ) (hi : i < l.length), f i = l[i]) : (is.map f).Sublist l := by
  have hfin : (is.pmap Fin.mk hlt).Pairwise (· < ·) := by
    rw [List.pairwise_pmap]
    exact horder.imp fun hab _ _ => hab
  have hmap : (is.pmap Fin.mk hlt).map (l[·]) = is.map f := by
    rw [List.map_pmap, ← List.pmap_eq_map hlt]
    exact List.pmap_congr_left is fun i _ hi _ => (hf i hi).symm
  exact hmap ▸ List.map_getElem_sublist hfin

theorem charOf_of_lt {write : ℕ} (h : write < (s.written.map Prod.fst).length) :
    s.charOf write = (s.written.map Prod.fst)[write] := by
  rw [List.length_map] at h
  rw [charOf, List.getElem?_eq_getElem h, List.getElem_map]
  rfl

theorem sublist_of_sent (hsent : s.uart.sent = s.handed.map fun h => s.charOf h.write)
    (hwritten : ∀ h ∈ s.handed, h.write < s.written.length)
    (horder : (s.handed.map Handed.write).Pairwise (· < ·)) :
    s.uart.sent.Sublist (s.written.map Prod.fst) := by
  have hmap : s.uart.sent = (s.handed.map Handed.write).map s.charOf := by
    rw [hsent, List.map_map]
    rfl
  rw [hmap]
  refine sublist_of_order horder (fun write hwrite => ?_) fun _ => charOf_of_lt
  obtain ⟨h, hh, rfl⟩ := List.mem_map.1 hwrite
  rw [List.length_map]
  exact hwritten h hh

theorem charOf_append {write : ℕ} {p : UInt8 × Bool} (h : write < s.written.length)
    (hs' : s'.written = s.written ++ [p]) : s'.charOf write = s.charOf write := by
  rw [charOf, charOf, hs', List.getElem?_append_left h]

theorem charOf_congr (hs' : s'.written = s.written) : s'.charOf = s.charOf := by
  funext write
  rw [charOf, charOf, hs']

theorem canTx_congr {u v : Pl011} (h : v.cr = u.cr) : v.canTx = u.canTx := by
  rw [Pl011.canTx, Pl011.canTx, Pl011.uartEnabled, Pl011.uartEnabled, h]

theorem uart_next (s : TxSys) (op : UartOp) : (s.next op).uart = s.uart.next op := by
  unfold next
  cases op.kind <;> rfl

/-- **Operations that do not transmit** and write nothing. -/
theorem Tracked.of_same (h : s.Tracked) (hsound : s'.uart.Sound) (hcr : s'.uart.cr = s.uart.cr)
    (htx : s'.uart.txFifo = s.uart.txFifo) (hsent : s'.uart.sent = s.uart.sent)
    (hwritten : s'.written = s.written) (hlast : s'.lastReset = s.lastReset)
    (hqueued : s'.queued = s.queued) (hhanded : s'.handed = s.handed) : s'.Tracked where
  sent := by rw [hsent, hhanded, charOf_congr hwritten]; exact h.sent
  written := by rw [hhanded, hwritten]; exact h.written
  order := by rw [hhanded]; exact h.order
  sublist := by rw [hsent, hwritten]; exact h.sublist
  enabled := by rw [hwritten, hhanded]; exact h.enabled
  reset := by rw [hhanded]; exact h.reset
  sound := hsound
  contents := by rw [htx, hqueued, charOf_congr hwritten]; exact h.contents
  queuedOrder := by rw [hqueued]; exact h.queuedOrder
  queued := by rw [hqueued, hwritten]; exact h.queued
  lastReset := by rw [hlast, hwritten]; exact h.lastReset
  fresh := by rw [hqueued, hlast, hhanded]; exact h.fresh
  stale := by rw [canTx_congr hcr, hqueued, hlast]; exact h.stale

/-! ## Writes of `UARTDR` -/

theorem charOf_last {p : UInt8 × Bool} (hs' : s'.written = s.written ++ [p]) :
    s'.charOf s.written.length = p.1 := by
  rw [charOf, hs', List.getElem?_append_right (Nat.le_refl _), Nat.sub_self]
  rfl

/-- **A character is handed over at once.** -/
theorem Tracked.handOver (h : s.Tracked) {c : UInt8} {v : Pl011} (hsound : v.Sound)
    (htx : v.txFifo = s.uart.txFifo)
    (hsent : v.sent = s.uart.sent ++ [c]) (hcan : s.uart.canTx = true) :
    Tracked { s with
      uart := v
      written := s.written ++ [(c, true)]
      handed := s.handed ++ [⟨s.written.length, s.lastReset⟩] } := by
  obtain ⟨s', hs'⟩ : ∃ s', s' = ({ s with
      uart := v
      written := s.written ++ [(c, true)]
      handed := s.handed ++ [⟨s.written.length, s.lastReset⟩] } : TxSys) := ⟨_, rfl⟩
  have hwritten : s'.written = s.written ++ [(c, true)] := by rw [hs']
  have hlength : s'.written.length = s.written.length + 1 := by rw [hwritten, List.length_append]; rfl
  have hhanded : s'.handed = s.handed ++ [⟨s.written.length, s.lastReset⟩] := by rw [hs']
  have hsent' : s'.uart.sent = s'.handed.map fun h => s'.charOf h.write := by
    have hold : (s.handed.map fun h => s'.charOf h.write) = s.handed.map fun h => s.charOf h.write :=
      List.map_congr_left fun h' hh' => charOf_append (h.written h' hh') hwritten
    rw [hhanded, List.map_append, hold, List.map_singleton, charOf_last hwritten, ← h.sent, hs', hsent]
  have hlt : ∀ h' ∈ s'.handed, h'.write < s'.written.length := by
    rw [hhanded, hlength]
    intro h' hh'
    obtain hh' | hh' := List.mem_append.1 hh'
    · exact Nat.lt_succ_of_lt (h.written h' hh')
    · rw [List.mem_singleton.1 hh']
      exact Nat.lt_succ_self _
  have horder : (s'.handed.map Handed.write).Pairwise (· < ·) := by
    rw [hhanded, List.map_append, List.pairwise_append]
    refine ⟨h.order, List.pairwise_singleton .., fun a ha b hb => ?_⟩
    obtain ⟨h', hh', rfl⟩ := List.mem_map.1 ha
    rw [List.map_singleton, List.mem_singleton] at hb
    rw [hb]
    exact h.written h' hh'
  rw [← hs']
  refine ⟨⟨hsent', hlt, horder, sublist_of_sent hsent' hlt horder, ?_, ?_⟩, by rw [hs']; exact hsound,
    ?_, by rw [hs']; exact h.queuedOrder, ?_, ?_, ?_, ?_⟩
  · intro write c' hc'
    rw [hhanded, List.map_append, List.mem_append]
    rw [hwritten, List.getElem?_append] at hc'
    split_ifs at hc' with hwrite
    · exact .inl (h.enabled write c' hc')
    · have hzero : write - s.written.length = 0 := by
        by_contra hne
        rw [List.getElem?_eq_none (by rw [List.length_singleton]; omega)] at hc'
        cases hc'
      have hlast : write = s.written.length := by omega
      exact .inr (List.mem_singleton.2 hlast)
  · rw [hhanded]
    intro h' hh'
    obtain hh' | hh' := List.mem_append.1 hh'
    · exact h.reset h' hh'
    · rw [List.mem_singleton.1 hh']
      exact h.lastReset
  · have hqueued : (s.queued.map fun write => (s'.charOf write).toUInt16) =
        s.queued.map fun write => (s.charOf write).toUInt16 :=
      List.map_congr_left fun write hwrite =>
        congrArg _ (charOf_append (h.queued write hwrite) hwritten)
    have hfifo : s'.uart.txFifo.contents = s.uart.txFifo.contents := by rw [hs', htx]
    have hsame : s'.queued = s.queued := by rw [hs']
    rw [hfifo, hsame, hqueued]
    exact h.contents
  · rw [hlength]
    have hsame : s'.queued = s.queued := by rw [hs']
    rw [hsame]
    exact fun write hwrite => Nat.lt_succ_of_lt (h.queued write hwrite)
  · rw [hlength, hs']
    exact Nat.le_succ_of_le h.lastReset
  · -- all that is queued is from before the last reset
    intro write hwrite hle
    rw [hs'] at hwrite hle
    exact absurd hle (Nat.not_le.2 (h.stale hcan write hwrite))
  · intro hcan' write hwrite
    rw [hs'] at hwrite ⊢
    exact h.stale hcan write hwrite

/-- **A character is queued**, or dropped, while the transmitter is not enabled. -/
theorem Tracked.queue (h : s.Tracked) {c : UInt8} {v : Pl011} {queued : List ℕ} (hsound : v.Sound)
    (hcr : v.cr = s.uart.cr) (hsent : v.sent = s.uart.sent) (hcan : s.uart.canTx = false)
    (hqueued : queued = s.queued ∧ v.txFifo.contents = s.uart.txFifo.contents ∨
      queued = s.queued ++ [s.written.length] ∧
        v.txFifo.contents = s.uart.txFifo.contents ++ [c.toUInt16]) :
    Tracked { s with uart := v, written := s.written ++ [(c, false)], queued := queued } := by
  obtain ⟨s', hs'⟩ : ∃ s', s' = ({ s with
      uart := v, written := s.written ++ [(c, false)], queued := queued } : TxSys) := ⟨_, rfl⟩
  have hwritten : s'.written = s.written ++ [(c, false)] := by rw [hs']
  have hlength : s'.written.length = s.written.length + 1 := by rw [hwritten, List.length_append]; rfl
  have hhanded : s'.handed = s.handed := by rw [hs']
  have hqueue : s'.queued = queued := by rw [hs']
  have huart : s'.uart = v := by rw [hs']
  have hsent' : s'.uart.sent = s'.handed.map fun h => s'.charOf h.write := by
    have hold : (s.handed.map fun h => s'.charOf h.write) = s.handed.map fun h => s.charOf h.write :=
      List.map_congr_left fun h' hh' => charOf_append (h.written h' hh') hwritten
    rw [hhanded, hold, ← h.sent, huart, hsent]
  have hlt : ∀ h' ∈ s'.handed, h'.write < s'.written.length := by
    rw [hhanded, hlength]
    exact fun h' hh' => Nat.lt_succ_of_lt (h.written h' hh')
  have horder : (s'.handed.map Handed.write).Pairwise (· < ·) := by
    rw [hhanded]
    exact h.order
  have hold : (s.queued.map fun write => (s'.charOf write).toUInt16) =
      s.queued.map fun write => (s.charOf write).toUInt16 :=
    List.map_congr_left fun write hwrite =>
      congrArg _ (charOf_append (h.queued write hwrite) hwritten)
  -- what is queued: as before, and perhaps the new character
  have hmem : ∀ write ∈ queued, write ∈ s.queued ∨ write = s.written.length := by
    obtain ⟨rfl, -⟩ | ⟨rfl, -⟩ := hqueued
    · exact fun write hwrite => .inl hwrite
    · exact fun write hwrite => (List.mem_append.1 hwrite).imp_right List.mem_singleton.1
  rw [← hs']
  refine ⟨⟨hsent', hlt, horder, sublist_of_sent hsent' hlt horder, ?_, ?_⟩,
    by rw [huart]; exact hsound, ?_, ?_, ?_, ?_, ?_, ?_⟩
  · intro write c' hc'
    rw [hhanded]
    rw [hwritten, List.getElem?_append] at hc'
    split_ifs at hc' with hwrite
    · exact h.enabled write c' hc'
    · have hin := List.mem_of_getElem? hc'
      rw [List.mem_singleton] at hin
      cases hin
  · rw [hhanded]
    exact h.reset
  · rw [huart, hqueue]
    obtain ⟨rfl, htx⟩ | ⟨rfl, htx⟩ := hqueued
    · rw [htx, hold]
      exact h.contents
    · rw [htx, List.map_append, hold, List.map_singleton, charOf_last hwritten, ← h.contents]
  · rw [hqueue]
    obtain ⟨rfl, -⟩ | ⟨rfl, -⟩ := hqueued
    · exact h.queuedOrder
    · rw [List.pairwise_append]
      refine ⟨h.queuedOrder, List.pairwise_singleton .., fun a ha b hb => ?_⟩
      rw [List.mem_singleton.1 hb]
      exact h.queued a ha
  · rw [hqueue, hlength]
    intro write hwrite
    obtain hold | rfl := hmem write hwrite
    · exact Nat.lt_succ_of_lt (h.queued write hold)
    · exact Nat.lt_succ_self _
  · rw [hlength, hs']
    exact Nat.le_succ_of_le h.lastReset
  · rw [hqueue, hhanded]
    intro write hwrite hle h' hh'
    obtain hold | rfl := hmem write hwrite
    · rw [hs'] at hle
      exact h.fresh write hold hle h' hh'
    · exact h.written h' hh'
  · rw [huart, canTx_congr hcr, hcan]
    exact nofun

/-- **A write of `UARTDR`.** -/
theorem Tracked.writeDr (h : s.Tracked) {op : UartOp} (hkind : op.kind = .writeDr value) :
    (s.next op).Tracked := by
  have hdoes := Pl011.does_next s.uart op
  rw [hkind] at hdoes
  have huart : s.uart.next op = s.uart.mmioWriteDr value := hdoes
  have hsound := h.sound.next op
  have hwritten := Pl011.drWritten s.uart value
  rw [next, hkind]
  dsimp only
  rw [huart] at hsound ⊢
  cases hcan : s.uart.canTx with
  | true =>
      have hnot : (s.uart.uartEnabled && !true && !s.uart.txFifo.isFull) = false := by
        rw [Bool.not_true, Bool.and_false, Bool.false_and]
      have htx := hwritten.txFifo
      have hsent := hwritten.sent
      rw [hcan, Bool.not_true, Bool.and_false, if_neg nofun] at htx
      rw [hcan, if_pos rfl] at hsent
      rw [hnot]
      exact h.handOver hsound htx hsent hcan
  | false =>
      have htx := hwritten.txFifo
      have hsent := hwritten.sent
      rw [hcan, if_neg nofun] at hsent
      refine h.queue hsound hwritten.cr hsent hcan ?_
      rw [htx, hcan, Bool.not_false, Bool.and_true]
      cases hen : s.uart.uartEnabled with
      | false => exact .inl ⟨rfl, rfl⟩
      | true =>
          rw [if_pos rfl, Bool.true_and]
          cases hfull : s.uart.txFifo.isFull with
          | true =>
              rw [SeqQueue.enqueue_of_full hfull]
              exact .inl ⟨rfl, rfl⟩
          | false => exact .inr ⟨rfl, (h.sound.txFifo.contents_enqueue hfull).2⟩

/-! ## The other operations -/

/-- **The transmitter is enabled** when nothing from before the last reset is queued. -/
theorem Tracked.drain (h : s.Tracked) {v : Pl011} (hsound : v.Sound)
    (hempty : v.txFifo.contents = [])
    (hsent : v.sent = s.uart.sent ++ s.uart.txFifo.contents.map UInt16.toUInt8)
    (hown : ∀ write ∈ s.queued, s.lastReset ≤ write) :
    Tracked { s with
      uart := v
      queued := []
      handed := s.handed ++ s.queued.map fun write => ⟨write, s.lastReset⟩ } := by
  have hqueued : s.uart.txFifo.contents.map UInt16.toUInt8 = s.queued.map s.charOf := by
    rw [h.contents, List.map_map]
    exact List.map_congr_left fun write _ => UInt8.toUInt8_toUInt16 (s.charOf write)
  have hsent' : v.sent = (s.handed ++ s.queued.map fun write =>
      (⟨write, s.lastReset⟩ : Handed)).map fun h => s.charOf h.write := by
    rw [List.map_append, List.map_map, ← h.sent, hsent, hqueued]
    rfl
  have hlt : ∀ h' ∈ s.handed ++ s.queued.map fun write => (⟨write, s.lastReset⟩ : Handed),
      h'.write < s.written.length := by
    intro h' hh'
    obtain hh' | hh' := List.mem_append.1 hh'
    · exact h.written h' hh'
    · obtain ⟨write, hwrite, rfl⟩ := List.mem_map.1 hh'
      exact h.queued write hwrite
  have hwrites : (s.queued.map fun write => (⟨write, s.lastReset⟩ : Handed)).map Handed.write =
      s.queued := by
    rw [List.map_map]
    exact List.map_id _
  have horder : ((s.handed ++ s.queued.map fun write => (⟨write, s.lastReset⟩ : Handed)).map
      Handed.write).Pairwise (· < ·) := by
    rw [List.map_append, hwrites, List.pairwise_append]
    refine ⟨h.order, h.queuedOrder, fun a ha b hb => ?_⟩
    obtain ⟨h', hh', rfl⟩ := List.mem_map.1 ha
    exact h.fresh b hb (hown b hb) h' hh'
  refine ⟨⟨hsent', hlt, horder, ?_, fun write c hc => ?_, ?_⟩, hsound, hempty, .nil, nofun,
    h.lastReset, nofun, fun _ => nofun⟩
  · exact sublist_of_sent (s := { s with
      uart := v
      queued := []
      handed := s.handed ++ s.queued.map fun write => ⟨write, s.lastReset⟩ }) hsent' hlt horder
  · rw [List.map_append]
    exact List.mem_append_left _ (h.enabled write c hc)
  · intro h' hh'
    obtain hh' | hh' := List.mem_append.1 hh'
    · exact h.reset h' hh'
    · obtain ⟨write, hwrite, rfl⟩ := List.mem_map.1 hh'
      exact hown write hwrite

theorem canTx_of_not_startsTx {u v : Pl011} (hcr : v.cr = value.toUInt16)
    (hstarts : u.startsTx value = false) (hcan : v.canTx = true) : u.canTx = true := by
  have hset : ({ u with cr := value.toUInt16 } : Pl011).canTx = true :=
    (canTx_congr (u := v) (v := { u with cr := value.toUInt16 }) hcr.symm).trans hcan
  simpa [Pl011.startsTx, hset] using hstarts

/-- **A write of `UARTCR`** that meets the condition. -/
theorem Tracked.writeCr (h : s.Tracked) {op : UartOp} (hkind : op.kind = .writeCr value)
    (hown : s.uart.startsTx value = true → ∀ write ∈ s.queued, s.lastReset ≤ write) :
    (s.next op).Tracked := by
  have hdoes := Pl011.does_next s.uart op
  rw [hkind] at hdoes
  have huart : s.uart.next op = s.uart.mmioWriteCr value := hdoes
  have hsound := h.sound.next op
  have hwritten := Pl011.crWritten s.uart value
  rw [next, hkind]
  dsimp only
  rw [huart] at hsound ⊢
  have htx := hwritten.txFifo
  have hsent := hwritten.sent
  cases hstarts : s.uart.startsTx value with
  | true =>
      obtain ⟨hall, -, hdone, -⟩ := SeqQueue.dequeueMany_curSize h.sound.txFifo rfl
      rw [hstarts, if_pos rfl] at htx hsent
      rw [hall] at hsent
      refine h.drain hsound ?_ hsent (hown hstarts)
      rw [htx]
      exact SeqQueue.contents_of_empty hdone
  | false =>
      rw [hstarts, if_neg nofun] at htx hsent
      refine ⟨⟨by rw [hsent]; exact h.sent, h.written, h.order, by rw [hsent]; exact h.sublist,
        h.enabled, h.reset⟩, hsound, by rw [htx]; exact h.contents, h.queuedOrder, h.queued,
        h.lastReset, h.fresh, fun hcan => h.stale ?_⟩
      exact canTx_of_not_startsTx hwritten.cr hstarts hcan

/-- **A write of `UARTLCR_H`** flushes the queue. -/
theorem Tracked.writeLcrH (h : s.Tracked) {op : UartOp} (hkind : op.kind = .writeLcrH value) :
    (s.next op).Tracked := by
  have hdoes := Pl011.does_next s.uart op
  rw [hkind] at hdoes
  have huart : s.uart.next op = s.uart.mmioWriteLcrH value := hdoes
  rw [next, hkind]
  dsimp only
  rw [huart]
  exact ⟨⟨h.sent, h.written, h.order, h.sublist, h.enabled, h.reset⟩,
    Pl011.sound_mmioWriteLcrH s.uart value, SeqQueue.contents_reset _, .nil, nofun, h.lastReset,
    nofun, fun _ => nofun⟩

/-- **A reset** leaves what is queued to the time before it. -/
theorem Tracked.reset_next (h : s.Tracked) {op : UartOp} (hkind : op.kind = .reset) :
    (s.next op).Tracked := by
  have hdoes := Pl011.does_next s.uart op
  rw [hkind] at hdoes
  have huart : s.uart.next op = s.uart.reset := hdoes
  have hsound := h.sound.next op
  rw [next, hkind]
  dsimp only
  rw [huart] at hsound ⊢
  exact ⟨⟨h.sent, h.written, h.order, h.sublist, h.enabled, h.reset⟩, hsound, h.contents,
    h.queuedOrder, h.queued, Nat.le_refl _,
    fun write hwrite hle => absurd hle (Nat.not_le.2 (h.queued write hwrite)),
    fun _ => h.queued⟩

/-- **An operation that meets the condition** keeps the output in order. -/
theorem Tracked.next (h : s.Tracked) (op : UartOp) (hok : s.DrainsOwn op) : (s.next op).Tracked := by
  have hsound : (s.next op).uart.Sound := (s.uart_next op).symm ▸ h.sound.next op
  have hdoes := Pl011.does_next s.uart op
  rw [DrainsOwn] at hok
  cases hkind : op.kind with
  | writeDr value => exact h.writeDr hkind
  | writeCr value =>
      rw [hkind] at hok
      exact h.writeCr hkind hok
  | writeLcrH value => exact h.writeLcrH hkind
  | reset => exact h.reset_next hkind
  | readDr =>
      rw [hkind] at hdoes
      have huart : s.uart.next op = s.uart.mmioReadDr.2 := hdoes
      have hread := Pl011.drRead s.uart
      rw [TxSys.next, hkind] at hsound ⊢
      dsimp only at hsound ⊢
      rw [huart] at hsound ⊢
      exact h.of_same hsound hread.cr hread.txFifo hread.sent rfl rfl rfl rfl
  | receive c =>
      rw [hkind] at hdoes
      have huart : s.uart.next op = (s.uart.writeToRxQueue c).2 := hdoes
      have hreceived := Pl011.received s.uart c
      rw [TxSys.next, hkind] at hsound ⊢
      dsimp only at hsound ⊢
      rw [huart] at hsound ⊢
      exact h.of_same hsound hreceived.cr hreceived.txFifo hreceived.sent rfl rfl rfl rfl
  | aside =>
      rw [hkind] at hdoes
      have haside : Pl011.Aside s.uart (s.uart.next op) := hdoes
      rw [TxSys.next, hkind] at hsound ⊢
      exact h.of_same hsound haside.cr haside.txFifo haside.sent rfl rfl rfl rfl

/-- An operation that does not meet it hands over a character from before a reset. -/
theorem not_outputInOrder_of_not_drainsOwn {op : UartOp} (hbreak : ¬s.DrainsOwn op) :
    ¬(s.next op).OutputInOrder := fun hin => hbreak (by
  rw [DrainsOwn]
  cases hkind : op.kind with
  | writeCr value =>
      intro hstarts write hwrite
      have hreset := hin.reset ⟨write, s.lastReset⟩
      rw [next, hkind] at hreset
      dsimp only at hreset
      rw [hstarts, if_pos rfl] at hreset
      exact hreset (List.mem_append_right _ (List.mem_map_of_mem hwrite))
  | _ => trivial)

theorem tracked_init (sbsaUart : Bool) : (init sbsaUart).Tracked where
  sent := rfl
  written := nofun
  order := .nil
  sublist := .slnil
  enabled write c h := by
    rw [show (init sbsaUart).written = [] from rfl, List.getElem?_nil] at h
    cases h
  reset := nofun
  sound := Pl011.sound_init sbsaUart
  contents := SeqQueue.contents_of_empty rfl
  queuedOrder := .nil
  queued := nofun
  lastReset := Nat.le_refl 0
  fresh := nofun
  stale _ := nofun

/-- **The output is in order** after every operation of a run exactly if no queue that is drained
holds a character from before a reset. -/
theorem output_in_order_iff (sbsaUart : Bool) (ops : List UartOp) :
    (∀ s ∈ ops.scanl TxSys.next (init sbsaUart), s.OutputInOrder) ↔
      AllOk TxSys.next DrainsOwn (init sbsaUart) ops :=
  forall_scanl_iff_allOk (fun _ op h hok => Tracked.next h op hok)
    (fun _ _ _ hbreak => not_outputInOrder_of_not_drainsOwn hbreak)
    (fun _ h => h.toOutputInOrder) ops _ (tracked_init sbsaUart)

/-- The transmitter is disabled and `A` is written; after a reset `B` is written, and the transmitter
is disabled and enabled again. -/
def queuedAcrossReset : List UartOp :=
  [.access .write 0x30 2 0x001, .access .write 0x00 1 65, .reset, .access .write 0x00 1 66,
    .access .write 0x30 2 0x001, .access .write 0x30 2 0x101]

/-- `A`, from before the reset, is handed over after `B`. -/
theorem handed_after_reset :
    (queuedAcrossReset.foldl next (init true)).uart.sent = [66, 65] ∧
      (queuedAcrossReset.foldl next (init true)).written.map Prod.fst = [65, 66] ∧
      (queuedAcrossReset.foldl next (init true)).handed = [⟨1, 1⟩, ⟨0, 1⟩] ∧
      ¬(queuedAcrossReset.foldl next (init true)).OutputInOrder := by
  refine ⟨by decide, by decide, by decide, fun h => ?_⟩
  exact absurd (h.reset ⟨0, 1⟩ (by decide)) (by decide)

end TxSys

end Vml
