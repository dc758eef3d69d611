import Vml.ConsoleLifecycle
import Vml.SgWalkAccept

/-!
# The bytes that come out of the console

The guest posts chains on the TX queue while a backend calls `from_guest`. A call may end in the
middle of a chain, at its end, or after several chains, and the guest may do something between any
two turns of its loop. Within a turn it may as well stand still: the available index is loaded once,
and what the turn reads after it the guest has promised to leave alone.

The guest keeps its side of the protocol (`Presents`): the chains it has posted and not got back are
in order, in the table, in the ring, and in its memory as they were when they were posted. Host
memory is divided into the guest's memory and the rest, and the buffers of the callers are in the
rest.

* `StreamSys.Inv`: the bytes handed out so far are those of the chains returned, and of the chain
  that is held up to the position in it.
* `delivered_prefix`: in every run, the bytes delivered are a prefix of the bytes posted, the chains
  are returned in order and not before all their bytes have been handed out, and a call that
  returns short has left nothing behind.
-/

namespace Vml

open Buffer (ChainEntry Follows InOrder Translates)

/-! ## Chains of the TX queue -/

/-- A chain: its head and its descriptors, the host address of every byte of its payload, and what
these bytes were when it was posted. -/
structure TxChain where
  head : UInt16
  entries : List ChainEntry
  loc : ℕ → ℕ
  bytes : List UInt8

namespace TxChain

/-- The size of the payload. -/
def sizeBytes (ch : TxChain) : ℕ := (ch.entries.map fun e => e.length.toNat).sum

/-- A chain of readable descriptors, with its payload in the guest's memory. -/
structure Ok (size : UInt16) (guestMem : Set ℕ) (ch : TxChain) : Prop where
  inOrder : InOrder size ch.entries
  readable : ∀ e ∈ ch.entries, isReadable e.flags = true
  length_bytes : ch.bytes.length = ch.sizeBytes
  loc_mem : ∀ p < ch.sizeBytes, ch.loc p ∈ guestMem

/-- The chain is in the table, and its payload is what it was. -/
structure InMemory (ch : TxChain) (shared : Shared) (m : Mem) : Prop where
  follows : Follows (fun _ => shared) 0 ch.head ch.entries
  payload : bytesAt m ch.loc ch.sizeBytes = ch.bytes

/-- Every part of the chain can be translated for reading. -/
def TranslatedBy (ch : TxChain) (acc : ChainAccessor) : Prop :=
  ∀ b : Buffer, b.entries = ch.entries →
    Translates acc.vqAddrToRHva acc.vqAddrToRHvaPost b ch.loc 0 ch.sizeBytes

end TxChain

/-- The bytes of some chains. -/
def payloads (chs : List TxChain) : List UInt8 := (chs.map TxChain.bytes).flatten

theorem payloads_take_succ {chs : List TxChain} {k : ℕ} {ch : TxChain} (h : chs[k]? = some ch) :
    payloads (chs.take (k + 1)) = payloads (chs.take k) ++ ch.bytes := by
  rw [List.take_add_one, h]
  simp [payloads]

theorem isPrefix_payloads_take (chs : List TxChain) (k : ℕ) :
    payloads (chs.take k) <+: payloads chs := by
  refine ⟨payloads (chs.drop k), ?_⟩
  rw [payloads, payloads, payloads, ← List.flatten_append, ← List.map_append, List.take_append_drop]

/-! ## The system -/

/-- A call of `from_guest` between two turns of its loop. -/
structure FromGuestCall where
  outBuf : ℕ
  sizeBytes : ℕ
  wasRead : ℕ := 0
  /-- The number of the next load. -/
  time : ℕ := 0

/-- The console, the memory it shares with the guest, and the call that is in progress. `posted`
and `delivered` are history variables: the chains the guest has posted so far, and the bytes that
the calls have returned so far. -/
structure StreamSys where
  console : VirtioConsole
  shared : Shared := {}
  mem : Mem
  call : Option FromGuestCall := none
  posted : List TxChain := []
  delivered : List UInt8 := []

/-- A step of the guest, the start of a call, or the next turn of the call that is in progress. -/
inductive StreamOp
  | guest (shared : Shared) (mem : Mem) (new : List TxChain)
  | fromGuest (outBuf sizeBytes : ℕ)
  | turn (accessor : ChainAccessor)

namespace StreamSys

/-- The TX queue. -/
def txq (s : StreamSys) : DeviceQueue := s.console.deviceQueue txQueue

/-- The number of chains the device has taken. -/
def taken (s : StreamSys) : ℕ := (received s.txq.log).length

/-- The number of chains the device has returned. -/
def returned (s : StreamSys) : ℕ := (published s.txq.log).length

/-- The bytes handed out: those delivered, and those in the buffer of the call in progress. -/
def got (s : StreamSys) : List UInt8 :=
  match s.call with
  | none => s.delivered
  | some call => s.delivered ++ bytesAt s.mem (call.outBuf + ·) call.wasRead

/-- What the guest promises about the chains it has posted. -/
structure Presents (size : UInt16) (guestMem : Set ℕ) (s : StreamSys) : Prop where
  ok : ∀ ch ∈ s.posted, ch.Ok size guestMem
  index : s.shared.avail.index.toNat = s.posted.length % 2 ^ 16
  posted_le : s.posted.length ≤ s.returned + size.toNat
  outstanding : ∀ k ch, s.returned ≤ k → s.posted[k]? = some ch →
    s.shared.avail.ring (k % size.toNat) = ch.head ∧ ch.InMemory s.shared s.mem

/-- The call in progress returns. -/
def ret (s : StreamSys) : StreamSys := { s with delivered := s.got, call := none }

/-- The next turn of a call. -/
def turn (s : StreamSys) (accessor : ChainAccessor) (call : FromGuestCall) : Option StreamSys :=
  if call.sizeBytes = 0 then some s.ret
  else
    (s.console.fromGuestTurn ⟨fun _ => s.shared, fun _ => accessor⟩ (some call.outBuf)
      call.sizeBytes call.wasRead call.time s.mem).map fun r =>
        let s' : StreamSys := { s with
          console := r.console
          mem := r.mem
          call := some { call with
            sizeBytes := r.sizeBytes
            wasRead := r.wasRead
            time := r.time } }
        if r.done then s'.ret else s'

/-- The steps. -/
def Step (size : UInt16) (guestMem : Set ℕ) (s : StreamSys) : StreamOp → StreamSys → Prop
  | .guest shared mem new, s' =>
      s' = { s with shared, mem, posted := s.posted ++ new } ∧ s'.Presents size guestMem ∧
        ∀ a ∉ guestMem, mem a = s.mem a
  | .fromGuest outBuf sizeBytes, s' =>
      s.call = none ∧ (∀ j < sizeBytes, outBuf + j ∉ guestMem) ∧
        s' = if s.console.usable txQueue then { s with call := some { outBuf, sizeBytes } } else s
  | .turn accessor, s' =>
      (∀ k ch, s.returned ≤ k → s.posted[k]? = some ch → ch.TranslatedBy accessor) ∧
        ∃ call, s.call = some call ∧ s.turn accessor call = some s'

/-- The driver has set up a TX queue of `size` descriptors, and nothing has been posted yet. -/
structure Start (size : UInt16) (s : StreamSys) : Prop where
  valid : isSizeValid size = true
  lifecycle : s.console.Lifecycle
  constructed : (s.console.queue txQueue).constructed = true
  driverInitialized : s.console.driverInitialized = true
  txq : s.txq = { size, log := [.construct size] }
  isReset : s.console.txBuff.IsReset
  fits : size ≤ s.console.txBuff.maxChainLength
  index : s.shared.avail.index = 0
  posted : s.posted = []
  call : s.call = none
  delivered : s.delivered = []

/-! ## The invariant -/

/-- The TX buffer holds chain `ch`, the next one to be returned, and has been read up to the
position. -/
structure Holding (s : StreamSys) (ch : TxChain) : Prop where
  held : s.console.TxHeld
  chain : s.posted[s.returned]? = some ch
  entries : s.console.txBuff.entries = ch.entries
  head : (s.console.txBuff.descChainMetadata 0).desc = ch.head
  taken : s.taken = s.returned + 1
  got : s.got = payloads (s.posted.take s.returned) ++ ch.bytes.take s.console.txBuffProgress

/-- The TX buffer holds nothing. -/
structure Idle (s : StreamSys) : Prop where
  isReset : s.console.txBuff.IsReset
  returned_le : s.returned ≤ s.posted.length
  taken : s.taken = s.returned
  got : s.got = payloads (s.posted.take s.returned)

/-- What holds between two steps. -/
structure Inv (size : UInt16) (guestMem : Set ℕ) (s : StreamSys) : Prop where
  valid : isSizeValid size = true
  lifecycle : s.console.Lifecycle
  constructed : (s.console.queue txQueue).constructed = true
  driverInitialized : s.console.driverInitialized = true
  size_eq : s.txq.size = size
  fits : size ≤ s.console.txBuff.maxChainLength
  presents : s.Presents size guestMem
  idx : s.txq.idx.toNat = s.taken % 2 ^ 16
  heads : (published s.txq.log).map Prod.fst =
    (s.posted.take s.returned).map fun ch => ch.head.toUInt32
  position : s.Idle ∨ ∃ ch, s.Holding ch
  outside : ∀ call, s.call = some call →
    ∀ j < call.wasRead + call.sizeBytes, call.outBuf + j ∉ guestMem

/-! ### The start -/

variable {size : UInt16} {guestMem : Set ℕ} {s s' : StreamSys} {ch : TxChain} {env : CallEnv}

theorem Start.inv (h : Start size s) : Inv size guestMem s where
  valid := h.valid
  lifecycle := h.lifecycle
  constructed := h.constructed
  driverInitialized := h.driverInitialized
  size_eq := by rw [h.txq]
  fits := h.fits
  presents := {
    ok := by simp [h.posted]
    index := by
      rw [h.index, h.posted]
      rfl
    posted_le := by simp [h.posted]
    outstanding := by simp [h.posted] }
  idx := by
    rw [taken, h.txq]
    rfl
  heads := by
    rw [returned, h.txq, h.posted]
    rfl
  position := .inl {
    isReset := h.isReset
    returned_le := by
      rw [returned, h.txq]
      exact Nat.zero_le _
    taken := by
      rw [taken, returned, h.txq]
      rfl
    got := by
      rw [got, h.call, h.delivered, h.posted, List.take_nil]
      rfl }
  outside := by simp [h.call]

/-! ### Steps of the guest -/

/-- What is outside the guest's memory stays, and so does what has been handed out. -/
theorem got_congr (hconsole : s'.call = s.call) (hdelivered : s'.delivered = s.delivered)
    (hout : ∀ call, s.call = some call → ∀ j < call.wasRead,
      s'.mem (call.outBuf + j) = s.mem (call.outBuf + j)) : s'.got = s.got := by
  rw [got, got, hconsole, hdelivered]
  cases hcall : s.call with
  | none => rfl
  | some call =>
      dsimp only
      rw [bytesAt_congr (hout call hcall)]

/-- More chains at the end change nothing about those before. -/
theorem Inv.guest (h : Inv size guestMem s) {shared : Shared} {mem : Mem} {new : List TxChain}
    (hpresents : ({ s with shared, mem, posted := s.posted ++ new } : StreamSys).Presents size
      guestMem) (hmem : ∀ a ∉ guestMem, mem a = s.mem a) :
    Inv size guestMem { s with shared, mem, posted := s.posted ++ new } := by
  obtain ⟨s', hs'⟩ : ∃ s' : StreamSys, s' = { s with shared, mem, posted := s.posted ++ new } :=
    ⟨_, rfl⟩
  have hposted : s'.posted = s.posted ++ new := by rw [hs']
  have hreturned : s'.returned = s.returned := by rw [hs']; rfl
  have htaken : s'.taken = s.taken := by rw [hs']; rfl
  have hconsole : s'.console = s.console := by rw [hs']
  have hgot : s'.got = s.got := by
    refine got_congr (by rw [hs']) (by rw [hs']) fun call hcall j hj => ?_
    rw [hs']
    exact hmem _ (h.outside call hcall j (by omega))
  have hle : s.returned ≤ s.posted.length := by
    rcases h.position with hidle | ⟨ch, hhold⟩
    · exact hidle.returned_le
    · exact (List.getElem?_eq_some_iff.1 hhold.chain).1.le
  have htake : s'.posted.take s'.returned = s.posted.take s.returned := by
    rw [hposted, hreturned, List.take_append_of_le_length hle]
  rw [← hs'] at hpresents ⊢
  exact {
    valid := h.valid
    lifecycle := hconsole ▸ h.lifecycle
    constructed := hconsole ▸ h.constructed
    driverInitialized := hconsole ▸ h.driverInitialized
    size_eq := by
      rw [txq, hconsole]
      exact h.size_eq
    fits := hconsole ▸ h.fits
    presents := hpresents
    idx := by
      rw [txq, hconsole, htaken]
      exact h.idx
    heads := by
      rw [htake, txq, hconsole]
      exact h.heads
    position := by
      rcases h.position with hidle | ⟨ch, hhold⟩
      · refine .inl ⟨hconsole ▸ hidle.isReset, ?_, ?_, ?_⟩
        · rw [hreturned, hposted, List.length_append]
          omega
        · rw [htaken, hreturned, hidle.taken]
        · rw [hgot, htake, hidle.got]
      · refine .inr ⟨ch, hconsole ▸ hhold.held, ?_, hconsole ▸ hhold.entries,
          hconsole ▸ hhold.head, ?_, ?_⟩
        · rw [hposted, hreturned, List.getElem?_append_left (List.getElem?_eq_some_iff.1
            hhold.chain).1]
          exact hhold.chain
        · rw [htaken, hreturned, hhold.taken]
        · rw [hgot, htake, hconsole, hhold.got]
    outside := by
      rw [hs']
      exact h.outside }

/-! ### Taking a chain -/

/-- Memory outside the guest's, and what has been returned, are no part of the promise. -/
theorem Presents.congr (h : s.Presents size guestMem) (hshared : s'.shared = s.shared)
    (hposted : s'.posted = s.posted) (hreturned : s.returned ≤ s'.returned)
    (hmem : ∀ a ∈ guestMem, s'.mem a = s.mem a) : s'.Presents size guestMem where
  ok := hposted ▸ h.ok
  index := by
    rw [hshared, hposted]
    exact h.index
  posted_le := by
    have := h.posted_le
    rw [hposted]
    omega
  outstanding k ch hk hch := by
    rw [hposted] at hch
    obtain ⟨hring, hfollows, hpayload⟩ := h.outstanding k ch (hreturned.trans hk) hch
    have hok := h.ok ch (List.mem_of_getElem? hch)
    rw [hshared]
    refine ⟨hring, hfollows, ?_⟩
    rw [← hpayload]
    exact bytesAt_congr fun p hp => hmem _ (hok.loc_mem p hp)

theorem Inv.toNat_countAvailable (h : Inv size guestMem s) (hidle : s.Idle) :
    (s.txq.countAvailable s.shared.avail.index).toNat = s.posted.length - s.taken := by
  have hsize := isSizeValid_le h.valid
  have hle := hidle.returned_le
  have hposted := h.presents.posted_le
  have htaken := hidle.taken
  exact Queue.toNat_countAvailable_sub h.idx h.presents.index (by omega) (by omega)

theorem Inv.readSlot (h : Inv size guestMem s) : s.txq.readSlot = s.taken % size.toNat := by
  rw [Queue.readSlot_mod (h.size_eq.symm ▸ h.valid) h.idx, h.size_eq]

theorem Inv.exists_next (h : Inv size guestMem s) (hidle : s.Idle)
    (hcount : s.txq.countAvailable s.shared.avail.index ≠ 0) :
    ∃ ch, s.posted[s.returned]? = some ch ∧ ch.Ok size guestMem ∧
      s.shared.avail.ring s.txq.readSlot = ch.head ∧ ch.InMemory s.shared s.mem := by
  have hcountEq := h.toNat_countAvailable hidle
  have hpos : (s.txq.countAvailable s.shared.avail.index).toNat ≠ 0 := fun h0 =>
    hcount (UInt16.toNat_inj.1 h0)
  have htaken := hidle.taken
  have hlt : s.returned < s.posted.length := by omega
  have hch : s.posted[s.returned]? = some s.posted[s.returned] := List.getElem?_eq_getElem hlt
  obtain ⟨hring, hmem⟩ := h.presents.outstanding _ _ le_rfl hch
  refine ⟨_, hch, h.presents.ok _ (List.mem_of_getElem? hch), ?_, hmem⟩
  rw [h.readSlot, htaken]
  exact hring

variable {acc : ℕ → ChainAccessor} {time : ℕ}

theorem Inv.fetch_none (h : Inv size guestMem s) (hidle : s.Idle)
    (hcount : s.txq.countAvailable s.shared.avail.index = 0) :
    ∃ err c' time', s.console.fetchTx ⟨fun _ => s.shared, acc⟩ time = some (err, c', time') ∧
      err ≠ .none ∧ Inv size guestMem { s with console := c' } ∧
      ({ s with console := c' } : StreamSys).returned = s.returned ∧
      ({ s with console := c' } : StreamSys).Idle ∧
      ({ s with console := c' } : StreamSys).returned = s.posted.length := by
  have hreset := hidle.isReset
  have hall : s.returned = s.posted.length := by
    have hcountEq := h.toNat_countAvailable hidle
    have hle := hidle.returned_le
    have htaken := hidle.taken
    have h0 : (0 : UInt16).toNat = 0 := rfl
    rw [hcount] at hcountEq
    omega
  obtain ⟨time', hw⟩ := @Buffer.walkChain_empty s.console.txBuff s.txq s.shared time hcount
  have hput : ({ s.console with txBuffProgress := 0 } : VirtioConsole).putTx s.console.txBuff s.txq =
      { s.console with txBuffProgress := 0 } := VirtioConsole.putTx_deviceQueue
  have hfetch := @VirtioConsole.fetchTx_of_walk s.console ⟨fun _ => s.shared, acc⟩ time
    hreset.sizeBytes _ hw
  rw [hput] at hfetch
  have hidle' : ({ s with console := { s.console with txBuffProgress := 0 } } : StreamSys).Idle :=
    ⟨hreset, hidle.returned_le, hidle.taken, hidle.got⟩
  refine ⟨_, _, _, hfetch, nofun, { h with
    lifecycle := ⟨h.lifecycle.queueOk, h.lifecycle.rxBuff, .inl hreset⟩
    presents := h.presents.congr rfl rfl le_rfl fun _ _ => rfl
    position := .inl hidle' }, rfl, hidle', hall⟩

theorem Inv.fetch_next (h : Inv size guestMem s) (hidle : s.Idle)
    (hcount : s.txq.countAvailable s.shared.avail.index ≠ 0) :
    ∃ c' time', s.console.fetchTx ⟨fun _ => s.shared, acc⟩ time = some (.none, c', time') ∧
      Inv size guestMem { s with console := c' } ∧
      ({ s with console := c' } : StreamSys).returned = s.returned ∧
      ∃ ch, ({ s with console := c' } : StreamSys).Holding ch := by
  have hreset := hidle.isReset
  obtain ⟨ch, hch, hok, hring, hmem⟩ := h.exists_next hidle hcount
  have hsizeq := h.size_eq
  obtain ⟨w, t₀, hwalk, hnone, hmax, hentries, hrec, herr, hidx⟩ := @Buffer.walkChain_accepts
    s.console.txBuff s.txq _ _ _ s.shared time hreset (hsizeq.symm ▸ h.fits) hcount hring
    hmem.follows (hsizeq.symm ▸ hok.inOrder)
  have hfetch := @VirtioConsole.fetchTx_of_walk s.console ⟨fun _ => s.shared, acc⟩ time
    hreset.sizeBytes _ hwalk
  rw [hnone] at hfetch
  obtain ⟨_, _, _, hfetch', hlife, hup, hheld⟩ :=
    VirtioConsole.fetchTx_lifecycle h.lifecycle h.constructed ⟨fun _ => s.shared, acc⟩ time
  obtain ⟨rfl, rfl, rfl⟩ : _ ∧ _ ∧ _ := by simpa using hfetch'.symm.trans hfetch
  obtain ⟨s', hs'⟩ : ∃ s' : StreamSys, s' = { s with
    console := ({ s.console with txBuffProgress := 0 } : VirtioConsole).putTx w.buffer w.queue } :=
    ⟨_, rfl⟩
  have htxq : s'.txq = (s.txq.recv (fun _ => s.shared) time).queue := by
    rw [hs', ← hrec.queue]
    rfl
  have hreturned : s'.returned = s.returned := by
    rw [returned, htxq, DeviceQueue.published_recv]
    rfl
  have htaken : s'.taken = s.taken + 1 := by
    rw [taken, htxq, DeviceQueue.received_recv, if_pos herr, List.length_append]
    rfl
  have hhold : s'.Holding ch := {
    held := hs' ▸ (hheld rfl).1
    chain := by
      rw [hreturned, hs']
      exact hch
    entries := by
      rw [hs']
      exact hentries
    head := by
      rw [hs']
      exact hrec.head_eq
    taken := by
      rw [htaken, hreturned, hidle.taken]
    got := by
      have hprogress : s'.console.txBuffProgress = 0 := by
        rw [hs']
        rfl
      rw [hreturned, hprogress, List.take_zero, List.append_nil, hs']
      exact hidle.got }
  refine ⟨_, _, hfetch, ?_, hs' ▸ hreturned, ch, hs' ▸ hhold⟩
  rw [← hs']
  exact { h with
    lifecycle := hs' ▸ hlife
    constructed := hs' ▸ hup
    driverInitialized := by
      rw [hs']
      exact h.driverInitialized
    size_eq := by
      rw [htxq, DeviceQueue.size_recv]
      exact h.size_eq
    fits := by
      rw [hs']
      exact hmax.symm ▸ h.fits
    presents := h.presents.congr (by rw [hs']) (by rw [hs']) hreturned.ge fun a _ => by rw [hs']
    idx := by
      rw [htxq, hidx, htaken, UInt16.toNat_add, h.idx, UInt16.toNat_one]
      omega
    heads := by
      rw [htxq, DeviceQueue.published_recv, hreturned, hs']
      exact h.heads
    position := .inr ⟨ch, hhold⟩
    outside := by
      rw [hs']
      exact h.outside }

/-- **Taking a chain**, if none is held: the next one, if there is one. -/
theorem Inv.fetch (h : Inv size guestMem s) (acc : ℕ → ChainAccessor) (time : ℕ) :
    ∃ err c' time', s.console.fetchTx ⟨fun _ => s.shared, acc⟩ time = some (err, c', time') ∧
      Inv size guestMem { s with console := c' } ∧
      ({ s with console := c' } : StreamSys).returned = s.returned ∧
      (err = .none → ∃ ch, ({ s with console := c' } : StreamSys).Holding ch) ∧
      (err ≠ .none → ({ s with console := c' } : StreamSys).Idle ∧
        ({ s with console := c' } : StreamSys).returned = s.posted.length) := by
  rcases h.position with hidle | ⟨ch, hhold⟩
  · by_cases hcount : s.txq.countAvailable s.shared.avail.index = 0
    · obtain ⟨err, c', time', hfetch, herr, hinv, hreturned, hidle, hall⟩ :=
        h.fetch_none hidle hcount
      exact ⟨err, c', time', hfetch, hinv, hreturned, fun hnone => absurd hnone herr,
        fun _ => ⟨hidle, hall⟩⟩
    · obtain ⟨c', time', hfetch, hinv, hreturned, hhold⟩ := h.fetch_next hidle hcount
      exact ⟨_, c', time', hfetch, hinv, hreturned, fun _ => hhold, fun hne => absurd rfl hne⟩
  · have hpos := hhold.held.holds.sizeBytes_pos
    have hfetch : s.console.fetchTx ⟨fun _ => s.shared, acc⟩ time =
        some (.none, s.console, time) := by
      rw [VirtioConsole.fetchTx, if_neg (by omega)]
    exact ⟨_, _, _, hfetch, h, rfl, fun _ => ⟨ch, hhold⟩, fun hne => absurd rfl hne⟩

/-! ### Returning a chain -/

theorem Holding.sizeBytes_eq (h : s.Holding ch) : s.console.txBuff.sizeBytes = ch.sizeBytes := by
  rw [h.held.holds.wellFormed.sizeBytes_eq, h.entries]
  rfl

theorem Holding.returned_lt (h : s.Holding ch) : s.returned < s.posted.length :=
  (List.getElem?_eq_some_iff.1 h.chain).1

theorem Holding.ok (h : s.Holding ch) (hp : s.Presents size guestMem) : ch.Ok size guestMem :=
  hp.ok ch (List.mem_of_getElem? h.chain)

/-- **Returning a chain** that has been read to its end. -/
theorem Inv.conclude (h : Inv size guestMem s) (hhold : s.Holding ch)
    (hread : s.console.txBuffProgress = s.console.txBuff.sizeBytes) :
    Inv size guestMem { s with console := s.console.concludeTx.assertIrq } := by
  obtain ⟨s', hs'⟩ : ∃ s' : StreamSys, s' = { s with
    console := s.console.concludeTx.assertIrq } := ⟨_, rfl⟩
  obtain ⟨hlife, hzero, hup⟩ := VirtioConsole.concludeTx_lifecycle h.lifecycle hhold.held
  have hreset := hlife.isReset_of_sizeBytes hzero
  have htx : s'.console.txBuff = s.console.concludeTx.txBuff := by
    rw [hs', VirtioConsole.txBuff_assertIrq]
  have hconclude : s.console.txBuff.concludeChainUse s.txq =
      (s.console.txBuff.reset,
        s.txq.send ch.head s.console.txBuff.writtenBytesLowerboundHeuristic) := by
    rw [Buffer.concludeChainUse, Buffer.concludeChainUseWith, Buffer.shouldSendHeadDescriptor,
      hhold.held.holds.completeChain, Bool.true_or, if_pos rfl, hhold.head]
  have htxq : s'.txq =
      s.txq.send ch.head s.console.txBuff.writtenBytesLowerboundHeuristic := by
    rw [txq, hs', VirtioConsole.deviceQueue, VirtioConsole.queue_assertIrq]
    exact congrArg Prod.snd hconclude
  have hposted : s'.posted = s.posted := by rw [hs']
  have hreturned : s'.returned = s.returned + 1 := by
    rw [returned, htxq, DeviceQueue.published_send, List.length_append]
    rfl
  have htaken : s'.taken = s.taken := by
    rw [taken, htxq, DeviceQueue.received_send]
    rfl
  rw [← hs']
  exact { h with
    lifecycle := by
      rw [hs']
      exact hlife.assertIrq
    constructed := by
      rw [hs', VirtioConsole.queue_assertIrq]
      exact hup
    driverInitialized := by
      rw [hs', VirtioConsole.driverInitialized_assertIrq]
      exact h.driverInitialized
    size_eq := by
      rw [htxq]
      exact h.size_eq
    fits := by
      rw [htx]
      show size ≤ (s.console.txBuff.concludeChainUse s.txq).1.maxChainLength
      rw [hconclude]
      exact h.fits
    presents := h.presents.congr (by rw [hs']) hposted (by omega) fun a _ => by rw [hs']
    idx := by
      rw [htaken, htxq]
      exact h.idx
    heads := by
      rw [htxq, DeviceQueue.published_send, hreturned, hposted, List.take_add_one, hhold.chain,
        List.map_append, List.map_append, h.heads]
      rfl
    position := .inl {
      isReset := htx ▸ hreset
      returned_le := by
        have := hhold.returned_lt
        rw [hreturned, hposted]
        omega
      taken := by rw [htaken, hreturned, hhold.taken]
      got := by
        have hall : ch.bytes.take s.console.txBuffProgress = ch.bytes := by
          apply List.take_of_length_le
          rw [hread, hhold.sizeBytes_eq, (hhold.ok h.presents).length_bytes]
        rw [hreturned, hposted, payloads_take_succ hhold.chain, hs']
        exact hhold.got.trans (by rw [hall]) }
    outside := by
      rw [hs']
      exact h.outside }

/-! ### Copying a part of a chain -/

theorem Inv.copyTx (h : Inv size guestMem s) (hhold : s.Holding ch) {call : FromGuestCall}
    (hcall : s.call = some call) {acc : ChainAccessor} (hacc : ch.TranslatedBy acc) {n : ℕ}
    (hn : 0 < n) (hroom : n ≤ call.sizeBytes)
    (hleft : s.console.txBuffProgress + n ≤ s.console.txBuff.sizeBytes) (time : ℕ) :
    ∃ m', s.console.copyTx ⟨fun _ => s.shared, fun _ => acc⟩ (some (call.outBuf + call.wasRead)) n
        time s.mem = (.none, n, s.console, m') ∧
      Copied (fun k => call.outBuf + call.wasRead + k)
        (fun k => ch.loc (s.console.txBuffProgress + k)) n s.mem m' := by
  have hok := hhold.ok h.presents
  have hsize := hhold.sizeBytes_eq
  have hsource : Buffer.SgSource acc s.console.txBuff ch.loc s.console.txBuffProgress
      (s.console.txBuffProgress + n) :=
    ⟨hhold.held.holds.wellFormed, hleft,
      (hacc _ hhold.entries).mono (Nat.zero_le _) (hsize ▸ hleft)⟩
  have hdisj : ∀ i < n, ∀ j < n,
      call.outBuf + call.wasRead + i ≠ ch.loc (s.console.txBuffProgress + j) := by
    intro i hi j hj heq
    have hout := h.outside call hcall (call.wasRead + i) (by omega)
    rw [← Nat.add_assoc, heq] at hout
    exact hout (hok.loc_mem _ (by omega))
  obtain ⟨r, hr⟩ : ∃ r, r = s.console.txBuff.copyToLinear (some (call.outBuf + call.wasRead)) acc n
    s.console.txBuffProgress none s.mem := ⟨_, rfl⟩
  obtain ⟨herr, hbytes, -, hcopied⟩ :=
    Buffer.copyToLinear_spec (m := s.mem) hn hsource hdisj hhold.held.holds.idle
  have hstate : r.state = s.console.txBuff := hr ▸ hhold.held.holds.state_copyToLinear
  rw [← hr] at herr hbytes hcopied
  refine ⟨r.mem, ?_, hcopied⟩
  rw [VirtioConsole.copyTx, if_pos hn]
  dsimp only
  rw [← hr, herr, hbytes, hstate]

/-- **Copying a part of a chain** hands out the next bytes. -/
theorem Inv.copy (h : Inv size guestMem s) (hhold : s.Holding ch) {call : FromGuestCall}
    (hcall : s.call = some call) {n time : ℕ} {m' : Mem} (hroom : n ≤ call.sizeBytes)
    (hleft : s.console.txBuffProgress + n ≤ s.console.txBuff.sizeBytes)
    (hcopied : Copied (fun k => call.outBuf + call.wasRead + k)
      (fun k => ch.loc (s.console.txBuffProgress + k)) n s.mem m') :
    Inv size guestMem { s with
      console := { s.console with txBuffProgress := s.console.txBuffProgress + n }
      mem := m'
      call := some { call with
        sizeBytes := call.sizeBytes - n
        wasRead := call.wasRead + n
        time } } := by
  obtain ⟨s', hs'⟩ : ∃ s' : StreamSys, s' = { s with
      console := { s.console with txBuffProgress := s.console.txBuffProgress + n }
      mem := m'
      call := some { call with
        sizeBytes := call.sizeBytes - n
        wasRead := call.wasRead + n
        time } } := ⟨_, rfl⟩
  have hok := hhold.ok h.presents
  have hsize := hhold.sizeBytes_eq
  have hmem : ∀ a ∈ guestMem, m' a = s.mem a := fun a ha => hcopied.frame a fun k hk heq => by
    have hout := h.outside call hcall (call.wasRead + k) (by omega)
    rw [← Nat.add_assoc, heq] at hout
    exact hout ha
  have hheld : s'.console.TxHeld := by
    rw [hs']
    exact ⟨hhold.held.constructed, hhold.held.holds, hleft⟩
  -- the bytes before these stay in the caller's buffer, and these follow them
  have hgot : s'.got = s.got ++ (ch.bytes.drop s.console.txBuffProgress).take n := by
    have hbefore : bytesAt m' (call.outBuf + ·) call.wasRead =
        bytesAt s.mem (call.outBuf + ·) call.wasRead :=
      hcopied.bytesAt_of_disjoint fun i _ j hj heq => by omega
    have hnew : bytesAt m' (fun k => call.outBuf + (call.wasRead + k)) n =
        (ch.bytes.drop s.console.txBuffProgress).take n := by
      obtain ⟨-, hmemory⟩ := h.presents.outstanding _ ch le_rfl hhold.chain
      rw [← hmemory.payload, drop_bytesAt (by omega), take_bytesAt (by omega)]
      refine List.map_congr_left fun k hk => ?_
      dsimp only
      rw [← Nat.add_assoc]
      exact hcopied.copied k (List.mem_range.1 hk)
    have hnow : s'.got = s.delivered ++ bytesAt m' (call.outBuf + ·) (call.wasRead + n) := by
      rw [hs']
      rfl
    have hthen : s.got = s.delivered ++ bytesAt s.mem (call.outBuf + ·) call.wasRead := by
      rw [got, hcall]
    rw [hnow, hthen, bytesAt_add, hbefore, hnew, List.append_assoc]
  have hhold' : s'.Holding ch := {
    held := hheld
    chain := by
      rw [hs']
      exact hhold.chain
    entries := by
      rw [hs']
      exact hhold.entries
    head := by
      rw [hs']
      exact hhold.head
    taken := by
      rw [hs']
      exact hhold.taken
    got := by
      have hprogress : s'.console.txBuffProgress = s.console.txBuffProgress + n := by rw [hs']
      have hsame : payloads (s'.posted.take s'.returned) = payloads (s.posted.take s.returned) := by
        rw [hs']
        rfl
      rw [hgot, hhold.got, hprogress, hsame, List.append_assoc, ← List.take_add] }
  rw [← hs']
  exact { h with
    lifecycle := by
      rw [hs']
      exact ⟨h.lifecycle.queueOk, h.lifecycle.rxBuff, .inr (hs' ▸ hheld)⟩
    constructed := by
      rw [hs']
      exact h.constructed
    driverInitialized := by
      rw [hs']
      exact h.driverInitialized
    size_eq := by
      rw [hs']
      exact h.size_eq
    fits := by
      rw [hs']
      exact h.fits
    presents := h.presents.congr (by rw [hs']) (by rw [hs']) (by rw [hs']; rfl) fun a ha => by
      rw [hs']
      exact hmem a ha
    idx := by
      rw [hs']
      exact h.idx
    heads := by
      rw [hs']
      exact h.heads
    position := .inr ⟨ch, hhold'⟩
    outside := fun call' hcall' j hj => by
      rw [hs', Option.some.injEq] at hcall'
      rw [← hcall'] at hj ⊢
      exact h.outside call hcall j (by dsimp only at hj; omega) }

/-! ### Turns and runs -/

theorem Inv.ret (h : Inv size guestMem s) : Inv size guestMem s.ret :=
  { h with
    presents := h.presents.congr rfl rfl le_rfl fun _ _ => rfl
    position := h.position.imp (fun hidle => ⟨hidle.isReset, hidle.returned_le, hidle.taken,
      hidle.got⟩) fun ⟨ch, hhold⟩ => ⟨ch, hhold.held, hhold.chain, hhold.entries, hhold.head,
        hhold.taken, hhold.got⟩
    outside := nofun }

theorem Inv.tick (h : Inv size guestMem s) {call : FromGuestCall} (hcall : s.call = some call)
    (time : ℕ) : Inv size guestMem { s with call := some { call with time } } := by
  have hgot : ({ s with call := some { call with time } } : StreamSys).got = s.got := by
    rw [got, got, hcall]
  exact { h with
    presents := h.presents.congr rfl rfl le_rfl fun _ _ => rfl
    position := h.position.imp (fun hidle => ⟨hidle.isReset, hidle.returned_le, hidle.taken,
      hgot.trans hidle.got⟩) fun ⟨ch, hhold⟩ => ⟨ch, hhold.held, hhold.chain, hhold.entries,
        hhold.head, hhold.taken, hgot.trans hhold.got⟩
    outside := fun call' hcall' => by
      rw [Option.some.injEq] at hcall'
      rw [← hcall']
      exact h.outside call hcall }

/-- Everything posted so far has been delivered and returned. -/
def Drained (s : StreamSys) : Prop :=
  s.delivered = payloads s.posted ∧ s.returned = s.posted.length

/-- **A turn keeps the invariant.** If the call returns in it before it has filled its buffer,
nothing is left. -/
theorem Inv.turn (h : Inv size guestMem s) {call : FromGuestCall} (hcall : s.call = some call)
    {acc : ChainAccessor}
    (hacc : ∀ k ch, s.returned ≤ k → s.posted[k]? = some ch → ch.TranslatedBy acc) :
    ∃ s', s.turn acc call = some s' ∧ Inv size guestMem s' ∧
      (call.sizeBytes ≠ 0 → s'.call = none → s'.Drained) := by
  rw [StreamSys.turn]
  by_cases hsize : call.sizeBytes = 0
  · exact ⟨s.ret, if_pos hsize, h.ret, fun hne => absurd hsize hne⟩
  rw [if_neg hsize]
  obtain ⟨err, c, time, hfetch, hinv, hreturned, hheld, hdone⟩ := h.fetch (fun _ => acc) call.time
  rw [VirtioConsole.fromGuestTurn, hfetch]
  dsimp only [Option.bind_eq_bind, Option.bind_some]
  have hcall₁ : ({ s with console := c } : StreamSys).call = some call := hcall
  by_cases herr : err = .none
  · obtain ⟨ch, hhold⟩ := hheld herr
    have hprogress : c.txBuffProgress ≤ c.txBuff.sizeBytes := hhold.held.progress_le
    have hsub : sizeSub c.txBuff.sizeBytes c.txBuffProgress =
        c.txBuff.sizeBytes - c.txBuffProgress :=
      sizeSub_of_le hprogress (lt_of_le_of_lt hhold.held.holds.wellFormed.size_le (by decide))
    rw [if_neg (not_not.2 herr), hsub]
    by_cases hleft : c.txBuffProgress = c.txBuff.sizeBytes
    · -- the chain has been read to its end
      have hcopy : c.copyTx ⟨fun _ => s.shared, fun _ => acc⟩ ((some call.outBuf).map
          (· + call.wasRead)) 0 time s.mem = (.none, 0, c, s.mem) := rfl
      rw [show min call.sizeBytes (c.txBuff.sizeBytes - c.txBuffProgress) = 0 by omega, hcopy]
      exact ⟨_, rfl, (hinv.conclude hhold hleft).tick hcall₁ time, fun _ hnone => absurd hnone (by simp)⟩
    · obtain ⟨n, hn⟩ : ∃ n, n = min call.sizeBytes (c.txBuff.sizeBytes - c.txBuffProgress) :=
        ⟨_, rfl⟩
      have hroom : n ≤ call.sizeBytes := by omega
      have hfit : c.txBuffProgress + n ≤ c.txBuff.sizeBytes := by omega
      have hpos : 0 < n := by omega
      obtain ⟨m', hcopy, hcopied⟩ := hinv.copyTx hhold hcall₁
        (hacc _ ch hreturned.ge hhold.chain) hpos hroom hfit time
      rw [← hn, Option.map_some, hcopy]
      dsimp only
      rw [if_neg (by rintro (hne | h0); exacts [hne rfl, hpos.ne' h0])]
      exact ⟨_, rfl, hinv.copy hhold hcall₁ hroom hfit hcopied, fun _ hnone => absurd hnone (by simp)⟩
  · -- there is no chain left
    obtain ⟨hidle, hall⟩ := hdone herr
    have htick := hinv.tick hcall₁ time
    rw [if_pos herr]
    refine ⟨_, rfl, htick.ret, fun _ _ => ⟨?_, hall⟩⟩
    have hgot := hidle.got
    rw [hall, List.take_length] at hgot
    rw [got, hcall₁] at hgot
    exact hgot

/-- **The step lemma.** -/
theorem Inv.step (h : Inv size guestMem s) {op : StreamOp} (hstep : Step size guestMem s op s') :
    Inv size guestMem s' := by
  cases op with
  | guest shared mem new =>
      obtain ⟨rfl, hpresents, hmem⟩ := hstep
      exact h.guest hpresents hmem
  | fromGuest outBuf sizeBytes =>
      obtain ⟨hnone, hout, rfl⟩ := hstep
      split_ifs
      · have hgot : ({ s with call := some { outBuf, sizeBytes } } : StreamSys).got = s.got := by
          rw [got, got, hnone]
          exact List.append_nil _
        exact { h with
          presents := h.presents.congr rfl rfl le_rfl fun _ _ => rfl
          position := h.position.imp (fun hidle => ⟨hidle.isReset, hidle.returned_le, hidle.taken,
            hgot.trans hidle.got⟩) fun ⟨ch, hhold⟩ => ⟨ch, hhold.held, hhold.chain, hhold.entries,
              hhold.head, hhold.taken, hgot.trans hhold.got⟩
          outside := fun call hcall j hj => by
            rw [Option.some.injEq] at hcall
            rw [← hcall] at hj ⊢
            exact hout j (by dsimp only at hj; omega) }
      · exact h
  | turn accessor =>
      obtain ⟨hacc, call, hcall, hturn⟩ := hstep
      obtain ⟨s₁, hturn₁, hinv, -⟩ := h.turn hcall hacc
      rw [hturn, Option.some.injEq] at hturn₁
      exact hturn₁ ▸ hinv

theorem Inv.got_prefix (h : Inv size guestMem s) :
    s.got <+: payloads s.posted ∧ payloads (s.posted.take s.returned) <+: s.got := by
  rcases h.position with hidle | ⟨ch, hhold⟩
  · rw [hidle.got]
    exact ⟨isPrefix_payloads_take .., List.prefix_rfl⟩
  · rw [hhold.got]
    refine ⟨?_, List.prefix_append ..⟩
    refine List.IsPrefix.trans ?_ (isPrefix_payloads_take s.posted (s.returned + 1))
    rw [payloads_take_succ hhold.chain]
    exact (List.prefix_append_right_inj _).2 (List.take_prefix ..)

/-- **The console delivers the bytes of the chains posted**: none is lost, none comes twice, and
none out of order. A chain is returned once, in its turn, and after its bytes; and a call that
returns short has left nothing behind. -/
theorem delivered_prefix {s₀ : StreamSys} {ops : List StreamOp} (hstart : Start size s₀)
    (h : Run (Step size guestMem) s₀ ops s) :
    s.delivered <+: payloads s.posted ∧ s.got <+: payloads s.posted ∧
    (published s.txq.log).map Prod.fst =
      (s.posted.take s.returned).map (fun ch => ch.head.toUInt32) ∧
    payloads (s.posted.take s.returned) <+: s.got ∧
    ∀ call, s.call = some call → call.sizeBytes ≠ 0 → ∀ acc s',
      Step size guestMem s (.turn acc) s' → s'.call = none → s'.Drained := by
  have hinv : Inv size guestMem s := h.invariant (fun _ _ _ hi hstep => hi.step hstep) hstart.inv
  obtain ⟨hgot, hreturned⟩ := hinv.got_prefix
  have hdelivered : s.delivered <+: s.got := by
    rw [got]
    cases s.call with
    | none => exact List.prefix_rfl
    | some call => exact List.prefix_append ..
  refine ⟨hdelivered.trans hgot, hgot, hinv.heads, hreturned, fun call hcall hsize acc s' hstep => ?_⟩
  obtain ⟨hacc, call', hcall', hturn⟩ := hstep
  obtain rfl : call = call' := by simpa using hcall.symm.trans hcall'
  obtain ⟨s₁, hturn₁, -, hdrained⟩ := hinv.turn hcall hacc
  rw [hturn, Option.some.injEq] at hturn₁
  exact hturn₁ ▸ hdrained hsize

/-! ### Calls without interruption -/

/-- The turns of a call during which the guest stands still are the loop of `from_guest`. -/
theorem Inv.run_fromGuestLoop (h : Inv size guestMem s) {call : FromGuestCall}
    (hcall : s.call = some call) {acc : ChainAccessor}
    (hacc : ∀ ch ∈ s.posted, ch.TranslatedBy acc) {fuel n : ℕ} {c' : VirtioConsole} {m' : Mem}
    (hloop : VirtioConsole.fromGuestLoop ⟨fun _ => s.shared, fun _ => acc⟩ (some call.outBuf) fuel
      s.console call.sizeBytes call.wasRead call.time s.mem = some (n, c', m')) :
    ∃ ops, Run (Step size guestMem) s ops { s with
      console := c'
      mem := m'
      call := none
      delivered := s.delivered ++ bytesAt m' (call.outBuf + ·) n } := by
  induction fuel generalizing s call with
  | zero => exact absurd hloop nofun
  | succ fuel ih =>
      have hturn : ∀ s', s.turn acc call = some s' → Step size guestMem s (.turn acc) s' :=
        fun s' heq => ⟨fun k ch _ hch => hacc ch (List.mem_of_getElem? hch), call, hcall, heq⟩
      rw [VirtioConsole.fromGuestLoop] at hloop
      by_cases hsize : call.sizeBytes = 0
      · rw [if_pos hsize, Option.some.injEq, Prod.mk.injEq, Prod.mk.injEq] at hloop
        obtain ⟨rfl, rfl, rfl⟩ := hloop
        refine ⟨[.turn acc], .snoc .nil (hturn _ ?_)⟩
        rw [StreamSys.turn, if_pos hsize, StreamSys.ret, got, hcall]
      · rw [if_neg hsize, Option.bind_eq_bind, Option.bind_eq_some_iff] at hloop
        obtain ⟨r, hr, hloop⟩ := hloop
        by_cases hdone : r.done = true
        · rw [if_pos hdone, Option.some.injEq, Prod.mk.injEq, Prod.mk.injEq] at hloop
          obtain ⟨rfl, rfl, rfl⟩ := hloop
          refine ⟨[.turn acc], .snoc .nil (hturn _ ?_)⟩
          rw [StreamSys.turn, if_neg hsize, hr, Option.map_some, if_pos hdone]
          rfl
        · rw [if_neg hdone] at hloop
          obtain ⟨s₁, hs₁⟩ : ∃ s₁ : StreamSys, s₁ = { s with
            console := r.console
            mem := r.mem
            call := some { call with
              sizeBytes := r.sizeBytes
              wasRead := r.wasRead
              time := r.time } } := ⟨_, rfl⟩
          have hfirst : Step size guestMem s (.turn acc) s₁ := hturn _ (by
            rw [StreamSys.turn, if_neg hsize, hr, Option.map_some, if_neg hdone, hs₁])
          obtain ⟨ops, hrun⟩ := @ih s₁ (h.step hfirst) { call with
            sizeBytes := r.sizeBytes
            wasRead := r.wasRead
            time := r.time } (by rw [hs₁]) (by rw [hs₁]; exact hacc) (by rw [hs₁]; exact hloop)
          refine ⟨.turn acc :: ops, .cons hfirst ?_⟩
          rw [hs₁] at hrun ⊢
          exact hrun

/-- **A call during which the guest stands still is `from_guest`.** It returns, and what it returns
is what the system delivers. -/
theorem Inv.run_fromGuest (h : Inv size guestMem s) (hcall : s.call = none) {acc : ChainAccessor}
    (hacc : ∀ ch ∈ s.posted, ch.TranslatedBy acc) {outBuf sizeBytes : ℕ}
    (hout : ∀ j < sizeBytes, outBuf + j ∉ guestMem) :
    ∃ n c' m' ops, s.console.fromGuest ⟨fun _ => s.shared, fun _ => acc⟩ (some outBuf) sizeBytes
        s.mem = some (n, c', m') ∧
      Run (Step size guestMem) s ops { s with
        console := c'
        mem := m'
        call := none
        delivered := s.delivered ++ bytesAt m' (outBuf + ·) n } := by
  obtain ⟨n, c', m', hrun, -⟩ := VirtioConsole.lifecycle_fromGuest h.lifecycle
    ⟨fun _ => s.shared, fun _ => acc⟩ (some outBuf) sizeBytes s.mem
  have husable : s.console.usable txQueue = true := by
    rw [VirtioConsole.usable, h.constructed, h.driverInitialized]
    rfl
  have hfirst : Step size guestMem s (.fromGuest outBuf sizeBytes)
      { s with call := some { outBuf, sizeBytes } } := ⟨hcall, hout, by rw [if_pos husable]⟩
  have hloop := hrun
  rw [VirtioConsole.fromGuest, husable] at hloop
  obtain ⟨ops, hrest⟩ :=
    @run_fromGuestLoop _ _ _ (h.step hfirst) { outBuf, sizeBytes } rfl _ hacc _ _ _ _ hloop
  exact ⟨n, c', m', .fromGuest outBuf sizeBytes :: ops, hrun, .cons hfirst hrest⟩

/-! ### One chain -/

/-- A write of four bytes by the driver. -/
def driverWrite (c : VirtioConsole) (offset value : UInt64) : VirtioConsole :=
  (c.access .write offset 4 value VirtioConsole.flatPlatform {}).2.2

/-- A console of four entries whose driver has set up the TX queue. -/
def started : VirtioConsole :=
  driverWrite (driverWrite (driverWrite (.new 4) 0x30 1) 0x44 1) 0x70 4

theorem start_started (m : Mem) : Start 4 { console := started, mem := m } where
  valid := by decide
  lifecycle := by
    have hwrite : ∀ (c : VirtioConsole) (offset value : UInt64), c.Lifecycle →
        c.txBuff.sizeBytes = 0 → (driverWrite c offset value).Lifecycle :=
      fun c offset value hc hzero => hc.access (fun _ => hzero) _ _
    have h₁ := hwrite (.new 4) 0x30 1 (VirtioConsole.lifecycle_new 4) rfl
    have h₂ := hwrite (driverWrite (.new 4) 0x30 1) 0x44 1 h₁ (by decide)
    exact hwrite (driverWrite (driverWrite (.new 4) 0x30 1) 0x44 1) 0x70 4 h₂ (by decide)
  constructed := (by decide : (started.queue txQueue).constructed = true)
  driverInitialized := (by decide : started.driverInitialized = true)
  txq := (by decide : started.deviceQueue txQueue = { size := 4, log := [.construct 4] })
  isReset := Buffer.isReset_mk 4
  fits := (by decide : 4 ≤ started.txBuff.maxChainLength)
  index := rfl
  posted := rfl
  call := rfl
  delivered := rfl

/-- The table: three readable bytes at 256, continued by five at 512, and two at 768. -/
def streamTable (idx : UInt16) : Descriptor :=
  if idx = 1 then ⟨256, 3, 1, 2⟩ else if idx = 2 then ⟨512, 5, 0, 0⟩ else ⟨768, 2, 0, 0⟩

/-- The queue with the first `n` of two chains. -/
def streamShared (n : UInt16) : Shared where
  table := streamTable
  avail := { index := n, ring := fun slot => if slot = 0 then 1 else 3 }

/-- The memory of the guest, with `m` elsewhere. -/
def streamMem (m : Mem) : Mem := fun a =>
  if a < 4096 then UInt8.ofNat (a / 256 * 16 + a % 256) else m a

/-- The chain of two descriptors. -/
def eightBytes : TxChain where
  head := 1
  entries := [⟨1, 256, 3, 1⟩, ⟨2, 512, 5, 0⟩]
  loc p := if p < 3 then 256 + p else 512 + (p - 3)
  bytes := [16, 17, 18, 32, 33, 34, 35, 36]

/-- The chain of one. -/
def twoBytes : TxChain where
  head := 3
  entries := [⟨3, 768, 2, 0⟩]
  loc p := 768 + p
  bytes := [48, 49]

theorem eightBytes_ok : eightBytes.Ok 4 {a | a < 4096} where
  inOrder := ⟨by decide, by decide, by decide, by decide, by decide⟩
  readable := by decide
  length_bytes := rfl
  loc_mem p hp := by
    have hsize : eightBytes.sizeBytes = 8 := rfl
    show (if p < 3 then 256 + p else 512 + (p - 3)) < 4096
    split_ifs <;> omega

theorem twoBytes_ok : twoBytes.Ok 4 {a | a < 4096} where
  inOrder := ⟨by decide, by decide, by decide, by decide, by decide⟩
  readable := by decide
  length_bytes := rfl
  loc_mem p hp := by
    have hsize : twoBytes.sizeBytes = 2 := rfl
    show 768 + p < 4096
    omega

theorem descriptor_of_entries {b : Buffer} {es : List ChainEntry} (hb : b.entries = es) {i : ℕ}
    {e : ChainEntry} (he : es[i]? = some e) : (b.descChain i).address = e.address ∧
      b.len i = e.length.toNat := by
  subst hb
  rw [Buffer.entries, List.getElem?_map, Option.map_eq_some_iff] at he
  obtain ⟨k, hk, rfl⟩ := he
  obtain rfl : i = k := by
    rw [List.getElem?_range] at hk
    · exact Option.some.inj hk
    · exact (List.length_range (n := b.active)) ▸ (List.getElem?_eq_some_iff.1 hk).1
  exact ⟨rfl, rfl⟩

theorem eightBytes_translatedBy : eightBytes.TranslatedBy identityAccessor := by
  intro b hb
  have hactive : b.active = 2 := by
    rw [← Buffer.length_entries, hb]
    rfl
  obtain ⟨haddr₀, hlen₀⟩ : (b.descChain 0).address = 256 ∧ b.len 0 = 3 :=
    descriptor_of_entries (e := ⟨1, 256, 3, 1⟩) hb rfl
  obtain ⟨haddr₁, hlen₁⟩ : (b.descChain 1).address = 512 ∧ b.len 1 = 5 :=
    descriptor_of_entries (e := ⟨2, 512, 5, 0⟩) hb rfl
  refine translates_identity (fun i hi o ho => ?_) fun i hi => ?_
  · obtain rfl | rfl : i = 0 ∨ i = 1 := by omega
    · rw [haddr₀, Buffer.descOffset, offsetOf_zero, Nat.zero_add]
      rw [hlen₀] at ho
      exact if_pos ho
    · rw [haddr₁, Buffer.descOffset, offsetOf_succ, offsetOf_zero, Nat.zero_add, hlen₀]
      exact (if_neg (by omega)).trans (by rw [Nat.add_sub_cancel_left]; rfl)
  · obtain rfl | rfl : i = 0 ∨ i = 1 := by omega
    · rw [haddr₀, hlen₀]
      decide
    · rw [haddr₁, hlen₁]
      decide

theorem twoBytes_translatedBy : twoBytes.TranslatedBy identityAccessor := by
  intro b hb
  have hactive : b.active = 1 := by
    rw [← Buffer.length_entries, hb]
    rfl
  obtain ⟨haddr, hlen⟩ : (b.descChain 0).address = 768 ∧ b.len 0 = 2 :=
    descriptor_of_entries (e := ⟨3, 768, 2, 0⟩) hb rfl
  refine translates_identity (fun i hi o ho => ?_) fun i hi => ?_
  · obtain rfl : i = 0 := by omega
    rw [haddr, Buffer.descOffset, offsetOf_zero, Nat.zero_add]
    rfl
  · obtain rfl : i = 0 := by omega
    rw [haddr, hlen]
    decide

/-- The guest has posted the chain of two descriptors, or both. -/
theorem presents_stream {s : StreamSys} {n : ℕ} {m : Mem} (hn : n = 1 ∨ n = 2)
    (hs : s.shared = streamShared (UInt16.ofNat n)) (hm : s.mem = streamMem m)
    (hposted : s.posted = [eightBytes, twoBytes].take n) : s.Presents 4 {a | a < 4096} where
  ok ch hch := by
    rw [hposted] at hch
    obtain rfl | rfl : ch = eightBytes ∨ ch = twoBytes := by
      simpa using List.mem_of_mem_take hch
    · exact eightBytes_ok
    · exact twoBytes_ok
  index := by
    rw [hs, hposted]
    rcases hn with rfl | rfl <;> rfl
  posted_le := by
    rw [hposted]
    rcases hn with rfl | rfl
    · exact le_trans (by decide) (Nat.le_add_left ..)
    · exact le_trans (by decide) (Nat.le_add_left ..)
  outstanding k ch _ hch := by
    have hcont (i : UInt16) (t : ℕ) :
        contNext (Buffer.loaded (fun _ => streamShared (UInt16.ofNat n)) t i).flags =
          contNext (streamTable i).flags := rfl
    rw [hposted, List.getElem?_take] at hch
    split_ifs at hch with hk
    rw [hs, hm]
    match k with
    | 0 =>
        obtain rfl := Option.some.inj hch
        exact ⟨rfl, .next ((hcont 1 0).trans (by decide)) (.last ((hcont 2 4).trans (by decide))),
          rfl⟩
    | 1 =>
        obtain rfl := Option.some.inj hch
        exact ⟨rfl, .last ((hcont 3 0).trans (by decide)), rfl⟩
    | k + 2 => omega

/-- The driver posts a chain of eight bytes. A call takes four of them. It posts one of two bytes,
and a second call asks for more than is left. -/
theorem delivered_prefix_twice :
    ∃ ops s, Run (Step 4 {a | a < 4096}) { console := started, mem := streamMem fun _ => 0 } ops s ∧
      s.posted = [eightBytes, twoBytes] ∧
      s.delivered = [16, 17, 18, 32, 33, 34, 35, 36, 48, 49] ∧
      s.delivered <+: payloads s.posted ∧
      payloads (s.posted.take s.returned) <+: s.got := by
  obtain ⟨s₁, hs₁⟩ : ∃ s : StreamSys, s = {
    console := started
    shared := streamShared 1
    mem := streamMem fun _ => 0
    posted := [eightBytes] } := ⟨_, rfl⟩
  have hguest₁ : Step 4 {a | a < 4096} { console := started, mem := streamMem fun _ => 0 }
      (.guest (streamShared 1) (streamMem fun _ => 0) [eightBytes]) s₁ :=
    ⟨hs₁, presents_stream (.inl rfl) (by rw [hs₁]; rfl) (by rw [hs₁])
      (by rw [hs₁]; rfl), fun _ _ => rfl⟩
  have hinv₁ := (start_started (streamMem fun _ => 0)).inv.step hguest₁
  obtain ⟨n₁, c₁, m₁, ops₁, hcall₁, hrun₁⟩ := @Inv.run_fromGuest _ _ _ hinv₁ (by rw [hs₁])
    identityAccessor (by rw [hs₁]; simpa using eightBytes_translatedBy) 4096 4 fun j _ => by simp
  rw [hs₁] at hcall₁ hrun₁
  have hinv₂ := hrun₁.invariant (fun _ _ _ hi hstep => hi.step hstep) (hs₁ ▸ hinv₁)
  obtain ⟨s₂, hs₂⟩ : ∃ s : StreamSys, s = {
    console := c₁
    shared := streamShared 2
    mem := streamMem m₁
    posted := [eightBytes, twoBytes]
    delivered := bytesAt m₁ (4096 + ·) n₁ } := ⟨_, rfl⟩
  have hpresents₂ : s₂.Presents 4 {a | a < 4096} :=
    presents_stream (.inr rfl) (by rw [hs₂]; rfl) (by rw [hs₂]) (by rw [hs₂]; rfl)
  have hstep₂ : Step 4 {a | a < 4096} {
      console := c₁
      shared := streamShared 1
      mem := m₁
      posted := [eightBytes]
      delivered := bytesAt m₁ (4096 + ·) n₁ }
      (.guest (streamShared 2) (streamMem m₁) [twoBytes]) s₂ :=
    ⟨hs₂, hpresents₂, fun a ha => if_neg ha⟩
  have hinv₃ := hinv₂.step hstep₂
  obtain ⟨n₂, c₂, m₂, ops₂, hcall₂, hrun₂⟩ := @Inv.run_fromGuest _ _ _ hinv₃ (by rw [hs₂])
    identityAccessor (by
      rw [hs₂]
      simpa using ⟨eightBytes_translatedBy, twoBytes_translatedBy⟩) 8192 20 fun j _ => by
        show ¬8192 + j < 4096
        omega
  rw [hs₂] at hcall₂
  -- what the calls return, evaluated
  have hbytes : ((started.fromGuest ⟨fun _ => streamShared 1, fun _ => identityAccessor⟩
      (some 4096) 4 (streamMem fun _ => 0)).bind fun r =>
        (r.2.1.fromGuest ⟨fun _ => streamShared 2, fun _ => identityAccessor⟩ (some 8192) 20
          (streamMem r.2.2)).map fun r' =>
            bytesAt r.2.2 (4096 + ·) r.1 ++ bytesAt r'.2.2 (8192 + ·) r'.1) =
      some [16, 17, 18, 32, 33, 34, 35, 36, 48, 49] := by decide +kernel
  rw [hcall₁, Option.bind_some, hcall₂, Option.map_some, Option.some.injEq] at hbytes
  have hall := ((Run.cons (hs₁ ▸ hguest₁) hrun₁).append (.cons hstep₂ hrun₂))
  have h := delivered_prefix (start_started _) hall
  exact ⟨_, _, hall, by rw [hs₂], by rw [hs₂]; exact hbytes, h.1, h.2.2.2.1⟩

end StreamSys

end Vml
