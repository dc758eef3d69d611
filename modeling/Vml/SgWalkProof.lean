import Vml.SgWalk

/-!
# What a walk does

The invariant of the walk loop (`WalkInv`) says that the entries recorded so far are the first
descriptors of the chain the guest presents, that they are well formed, and that nothing has been
read or stored out of bounds. One turn of the loop keeps it (`walkInv_visit`). Since a turn takes
an entry and a full buffer ends the loop, the loop ends, and the ways it can end are collected in
`WalkOutcome`.

* `walkChain_spec`: whatever the guest does, a walk from a reset buffer ends within
  `max_chain_length` visits, reads only descriptors of the table, stores only inside the arrays,
  and, when it succeeds, records exactly the chain it was shown.
* `walkChain_ownership`: a walk that took a head either keeps it or returns it at once with
  length zero.
-/

namespace Vml

namespace Buffer

variable {b : Buffer} {q : Queue} {vq : DeviceQueue} {g : Guest} {t t₀ : ℕ}
  {head tmp : UInt16} {trace : WalkTrace}

/-! ## Written prefixes of a chain nobody wrote to -/

theorem lowerboundLoop_eq_zero {left idx : ℕ} (hle : idx + left ≤ b.active)
    (h : ∀ i < b.active, (b.descChainMetadata i).prefixWrittenBytes = 0) :
    b.lowerboundLoop left idx 0 = 0 := by
  induction left generalizing idx with
  | zero => rfl
  | succ left ih =>
      rw [lowerboundLoop, h idx (by omega)]
      split_ifs
      · rfl
      · exact ih (by omega)

theorem writtenBytesLowerboundHeuristic_eq_zero
    (h : ∀ i < b.active, (b.descChainMetadata i).prefixWrittenBytes = 0) :
    b.writtenBytesLowerboundHeuristic = 0 := by
  unfold writtenBytesLowerboundHeuristic
  split_ifs
  · by_cases hle : b.firstWritableDesc.toNat ≤ b.active
    · exact lowerboundLoop_eq_zero (by omega) h
    · rw [Nat.sub_eq_zero_of_le (by omega)]
      rfl
  · rfl

/-! ## One turn of the loop -/

theorem nextInChain_cases (q : Queue) (g : Guest) (t : ℕ) (desc next : UInt16) :
    (contNext ((g t).table desc).flags = true ∧
      (q.nextInChain g t desc next).flags = ((g t).table desc).flags ∧
      (q.nextInChain g t desc next).nextEn = true ∧
      (q.nextInChain g t desc next).next = ((g (t + 1)).table desc).next ∧
      (q.nextInChain g t desc next).time = t + 2 ∧
      ((q.nextInChain g t desc next).err = .none → ((g (t + 1)).table desc).next < q.size)) ∨
    (contNext ((g t).table desc).flags = false ∧
      (q.nextInChain g t desc next).flags = ((g t).table desc).flags ∧
      (q.nextInChain g t desc next).nextEn = false) := by
  unfold Queue.nextInChain
  by_cases hc : contNext ((g t).table desc).flags = true
  · by_cases hs : q.size ≤ ((g (t + 1)).table desc).next
    · simp [hc, hs]
    · simp [hc, hs, UInt16.not_le.1 hs]
  · simp [hc]

theorem flags_nextInChain (q : Queue) (g : Guest) (t : ℕ) (desc next : UInt16) :
    (q.nextInChain g t desc next).flags = ((g t).table desc).flags := by
  rcases nextInChain_cases q g t desc next with h | h
  · exact h.2.1
  · exact h.2.1

section Visit

@[simp] theorem visit_maxChainLength :
    (b.visit q g tmp t).buffer.maxChainLength = b.maxChainLength := rfl

theorem visit_descChain :
    (b.visit q g tmp t).buffer.descChain = Function.update b.descChain b.active
      { address := ((g t).table tmp).address
        length := ((g (t + 1)).table tmp).length
        flags := ((g (t + 2)).table tmp).flags
        linearNext := b.activeChainLength + 1 } := by
  rw [visit, flags_nextInChain]

theorem visit_descChainMetadata_of_ne {i : ℕ} (h : i ≠ b.active) :
    (b.visit q g tmp t).buffer.descChainMetadata i = b.descChainMetadata i :=
  Function.update_of_ne h _ _

theorem visit_desc_self :
    ((b.visit q g tmp t).buffer.descChainMetadata b.active).desc = tmp := by
  simp [visit]

theorem visit_prefix_self :
    ((b.visit q g tmp t).buffer.descChainMetadata b.active).prefixWrittenBytes = 0 := by
  simp [visit]

theorem visit_active (hroom : b.active < b.maxChainLength.toNat) :
    (b.visit q g tmp t).buffer.active = b.active + 1 := toNat_succ16 hroom

theorem visit_entries (hroom : b.active < b.maxChainLength.toNat) :
    (b.visit q g tmp t).buffer.entries = b.entries ++ [loaded g t tmp] := by
  rw [entries, visit_active hroom, List.range_succ, List.map_append, entries]
  congr 1
  · refine List.map_congr_left fun i hi => ?_
    have hne := Nat.ne_of_lt (List.mem_range.1 hi)
    rw [entry, entry, visit_descChain, visit_descChainMetadata_of_ne hne,
      Function.update_of_ne hne]
  · rw [List.map_singleton, entry, visit_descChain, Function.update_self, visit_desc_self]
    rfl

theorem visit_err (h : (b.visit q g tmp t).err = .none) :
    (q.nextInChain g (t + 2) tmp (b.descChainMetadata b.active).originalNext).err = .none ∧
      ((g (t + 1)).table tmp).length ≠ 0 ∧
      sizeAdd b.sizeBytes ((g (t + 1)).table tmp).length.toNat ≤ uint32Max.toNat ∧
      (b.seenWritableDesc = true → isReadable ((g (t + 2)).table tmp).flags = false) := by
  simp only [visit, flags_nextInChain] at h
  split_ifs at h with hlen hro
  push Not at hlen
  refine ⟨h, hlen.1, hlen.2, fun hseen => ?_⟩
  simpa [h, hseen] using hro

/-- A visit without an error records one more descriptor. -/
theorem extends_visit (hsize : b.sizeBytes ≤ uint32Max.toNat)
    (hroom : b.active < b.maxChainLength.toNat) (herr : (b.visit q g tmp t).err = .none) :
    b.Extends (b.visit q g tmp t).buffer := by
  obtain ⟨hn, -, hsum, hro⟩ := visit_err herr
  have hmax : uint32Max.toNat = 2 ^ 32 - 1 := rfl
  have hlen := ((g (t + 1)).table tmp).length.toNat_lt
  have hwritable : (b.visit q g tmp t).buffer.writableAt b.active =
      !isReadable ((g (t + 2)).table tmp).flags := by
    rw [writableAt, visit_descChain, Function.update_self]
  exact {
    maxChainLength := rfl
    active := visit_active hroom
    descChain := fun i hi => Function.update_of_ne (Nat.ne_of_lt hi) _ _
    sizeBytes := by
      rw [len, visit_descChain, Function.update_self]
      exact sizeAdd_of_lt (by omega)
    seen := by
      rw [hwritable]
      simp [visit, hn, flags_nextInChain]
    first := by
      rw [hwritable]
      simp [visit, hn, flags_nextInChain]
    ordered := fun hseen => by simp [hwritable, hro hseen] }

theorem wellFormed_visit (h : b.WellFormed) (hroom : b.active < b.maxChainLength.toNat)
    (herr : (b.visit q g tmp t).err = .none) : (b.visit q g tmp t).buffer.WellFormed := by
  obtain ⟨-, h0, hsum, -⟩ := visit_err herr
  refine h.extend (extends_visit h.size_le hroom herr) hroom ?_ hsum
  rw [len, visit_descChain, Function.update_self]
  exact Nat.pos_of_ne_zero fun hz => h0 (UInt32.toNat_inj.1 hz)

end Visit

/-! ## The invariant -/

/-- The history so far is in bounds, and everything recorded is unwritten and heads at `head`. -/
structure WalkBounds (q : Queue) (head : UInt16) (b : Buffer) (trace : WalkTrace) : Prop where
  loads : trace.loads = b.entries.map ChainEntry.index
  loads_lt : ∀ d ∈ trace.loads, d < q.size
  stores : trace.stores = List.range b.active
  active_le : b.active ≤ b.maxChainLength.toNat
  prefix_zero : ∀ i < b.active, (b.descChainMetadata i).prefixWrittenBytes = 0
  linear_next : ∀ i < b.active, ((b.descChain i).linearNext).toNat = i + 1
  head_eq : 0 < b.active → (b.descChainMetadata 0).desc = head

/-- Before each turn, `tmp` is the descriptor to visit next. -/
structure WalkInv (q : Queue) (g : Guest) (t₀ : ℕ) (head : UInt16) (b : Buffer) (tmp : UInt16)
    (t : ℕ) (trace : WalkTrace) : Prop extends WalkBounds q head b trace where
  wellFormed : b.WellFormed
  chainForDevice : b.chainForDevice = true
  asyncCopyCookie : b.asyncCopyCookie = {}
  tmp_lt : tmp < q.size
  tmp_eq : b.active = 0 → tmp = head
  follows : ∀ es, Follows g t tmp es → Follows g t₀ head (b.entries ++ es)

theorem length_entries : b.entries.length = b.active := by simp [entries]

/-- **A visit keeps the history in bounds**, whether it raises an error or not. -/
theorem walkBounds_visit (h : WalkInv q g t₀ head b tmp t trace)
    (hroom : b.active < b.maxChainLength.toNat) (cbs : List ChainWalkingCb) :
    WalkBounds q head (b.visit q g tmp t).buffer
      { loads := trace.loads ++ [tmp], stores := trace.stores ++ [b.active], callbacks := cbs } where
  loads := by
    rw [visit_entries hroom, List.map_append, ← h.loads]
    rfl
  loads_lt := by
    intro d hd
    rcases List.mem_append.1 hd with hold | hnew
    · exact h.loads_lt d hold
    · exact List.mem_singleton.1 hnew ▸ h.tmp_lt
  stores := by rw [visit_active hroom, List.range_succ, h.stores]
  active_le := by
    rw [visit_active hroom]
    exact hroom
  prefix_zero := by
    intro i hi
    rw [visit_active hroom] at hi
    rcases Nat.lt_succ_iff_lt_or_eq.1 hi with hlt | rfl
    · rw [visit_descChainMetadata_of_ne (Nat.ne_of_lt hlt)]
      exact h.prefix_zero i hlt
    · exact visit_prefix_self
  linear_next := by
    intro i hi
    rw [visit_active hroom] at hi
    rw [visit_descChain]
    rcases Nat.lt_succ_iff_lt_or_eq.1 hi with hlt | rfl
    · rw [Function.update_of_ne (Nat.ne_of_lt hlt)]
      exact h.linear_next i hlt
    · rw [Function.update_self]
      exact toNat_succ16 hroom
  head_eq := by
    intro _
    rcases Nat.eq_zero_or_pos b.active with hz | hpos
    · have hself := @visit_desc_self b q g t tmp
      rw [hz] at hself
      rw [hself, h.tmp_eq hz]
    · rw [visit_descChainMetadata_of_ne (Nat.ne_of_lt hpos)]
      exact h.head_eq hpos

/-- **A visit without an error keeps the invariant**, if the chain goes on. -/
theorem walkInv_visit (h : WalkInv q g t₀ head b tmp t trace)
    (hroom : b.active < b.maxChainLength.toNat) (herr : (b.visit q g tmp t).err = .none)
    (hnext : (b.visit q g tmp t).nextEn = true) (cbs : List ChainWalkingCb) :
    WalkInv q g t₀ head (b.visit q g tmp t).buffer (b.visit q g tmp t).next
      (b.visit q g tmp t).time
      { loads := trace.loads ++ [tmp], stores := trace.stores ++ [b.active], callbacks := cbs } := by
  obtain ⟨hn, -, -, -⟩ := visit_err herr
  rcases nextInChain_cases q g (t + 2) tmp (b.descChainMetadata b.active).originalNext with
    ⟨hcont, -, -, hidx, htime, hlt⟩ | ⟨-, -, hend⟩
  · have hidx' : (b.visit q g tmp t).next = ((g (t + 3)).table tmp).next := hidx
    have htime' : (b.visit q g tmp t).time = t + 4 := htime
    exact {
      walkBounds_visit h hroom cbs with
      wellFormed := wellFormed_visit h.wellFormed hroom herr
      chainForDevice := h.chainForDevice
      asyncCopyCookie := h.asyncCopyCookie
      tmp_lt := hidx' ▸ hlt hn
      tmp_eq := fun hz => by
        rw [visit_active hroom] at hz
        omega
      follows := fun es hes => by
        rw [visit_entries hroom, List.append_assoc]
        rw [hidx', htime'] at hes
        exact h.follows _ (.next hcont hes) }
  · exact absurd (hnext.symm.trans hend) (by decide)

theorem follows_visit (h : WalkInv q g t₀ head b tmp t trace)
    (hroom : b.active < b.maxChainLength.toNat) (hnext : (b.visit q g tmp t).nextEn = false) :
    Follows g t₀ head (b.visit q g tmp t).buffer.entries := by
  rcases nextInChain_cases q g (t + 2) tmp (b.descChainMetadata b.active).originalNext with
    ⟨-, -, hgo, -⟩ | ⟨hcont, -, -⟩
  · exact absurd (hnext.symm.trans hgo) (by decide)
  · rw [visit_entries hroom]
    exact h.follows _ (.last hcont)

/-! ## The ways a walk ends -/

/-- What a successful walk leaves behind. -/
structure WalkRecorded (vq : DeviceQueue) (g : Guest) (t₀ : ℕ) (head : UInt16) (r : WalkResult) :
    Prop where
  queue : r.queue = vq
  completeChain : r.buffer.completeChain = true
  chainForDevice : r.buffer.chainForDevice = true
  asyncCopyCookie : r.buffer.asyncCopyCookie = {}
  wellFormed : r.buffer.WellFormed
  follows : Follows g t₀ head r.buffer.entries
  loads : r.trace.loads = r.buffer.entries.map ChainEntry.index
  linear_next : ∀ i < r.buffer.active, ((r.buffer.descChain i).linearNext).toNat = i + 1
  prefix_zero : ∀ i < r.buffer.active, (r.buffer.descChainMetadata i).prefixWrittenBytes = 0
  active_pos : 0 < r.buffer.active
  head_eq : (r.buffer.descChainMetadata 0).desc = head

/-- How a walk from `head` ends in a buffer of `max` entries: in bounds, and with the chain either
recorded or returned. -/
structure WalkOutcome (vq : DeviceQueue) (g : Guest) (t₀ : ℕ) (head max : UInt16)
    (r : WalkResult) : Prop where
  maxChainLength : r.buffer.maxChainLength = max
  loads_le : r.trace.loads.length ≤ max.toNat
  loads_lt : ∀ d ∈ r.trace.loads, d < vq.size
  stores_lt : ∀ i ∈ r.trace.stores, i < max.toNat
  recorded : r.err = .none → WalkRecorded vq g t₀ head r
  returned : r.err ≠ .none → r.buffer.IsReset ∧ r.queue = vq.send head 0

theorem WalkBounds.loads_le (h : WalkBounds q head b trace) :
    trace.loads.length ≤ b.maxChainLength.toNat := by
  rw [h.loads, List.length_map, length_entries]
  exact h.active_le

theorem WalkBounds.stores_lt (h : WalkBounds q head b trace) :
    ∀ i ∈ trace.stores, i < b.maxChainLength.toNat := by
  intro i hi
  rw [h.stores, List.mem_range] at hi
  exact hi.trans_le h.active_le

theorem WalkBounds.conclude (h : WalkBounds q head b trace) (hpos : 0 < b.active) :
    b.concludeChainUseWith vq true = (b.reset, vq.send head 0) := by
  rw [concludeChainUseWith, shouldSendHeadDescriptor, Bool.or_true, if_pos rfl, h.head_eq hpos,
    writtenBytesLowerboundHeuristic_eq_zero h.prefix_zero]

/-- **The loop ends, one way or the other.** Each turn takes an entry, so the fuel bounds the
entries that are left. -/
theorem walkLoop_outcome (hfits : vq.size ≤ b.maxChainLength) {fuel : ℕ}
    (h : WalkInv vq.toQueue g t₀ head b tmp t trace)
    (hfuel : b.maxChainLength.toNat - b.active < fuel) :
    ∃ r, walkLoop vq g fuel b tmp t trace = some r ∧
      WalkOutcome vq g t₀ head b.maxChainLength r := by
  induction fuel generalizing b tmp t trace with
  | zero => omega
  | succ fuel ih =>
      rw [walkLoop]
      dsimp only
      split_ifs with hfull herr hnext
      · -- the chain is longer than the table, so it has a cycle
        have hpos : 0 < b.active := by
          have hsize := UInt16.lt_iff_toNat_lt.1 h.tmp_lt
          have hmax := UInt16.le_iff_toNat_le.1 hfits
          rw [active, hfull]
          omega
        rw [h.conclude hpos]
        exact ⟨_, rfl, rfl, h.loads_le, h.loads_lt, h.stores_lt, (by simp),
          fun _ => ⟨b.isReset_reset, rfl⟩⟩
      all_goals
        have hroom : b.active < b.maxChainLength.toNat :=
          lt_of_le_of_ne h.active_le fun heq => hfull (UInt16.toNat_inj.1 heq)
        have hbounds := walkBounds_visit h hroom
          (trace.callbacks ++ [(b.visit vq.toQueue g tmp t).buffer.callbackArgs
            (b.visit vq.toQueue g tmp t).err b.active])
        have hpos : 0 < (b.visit vq.toQueue g tmp t).buffer.active := by
          rw [visit_active hroom]
          exact Nat.succ_pos _
      · -- the descriptor was rejected
        rw [hbounds.conclude hpos]
        exact ⟨_, rfl, rfl, hbounds.loads_le, hbounds.loads_lt, hbounds.stores_lt,
          fun hc => absurd hc herr, fun _ => ⟨Buffer.isReset_reset _, rfl⟩⟩
      · -- the chain goes on
        have herr : (b.visit vq.toQueue g tmp t).err = .none := by simpa using herr
        have hlt : (b.visit vq.toQueue g tmp t).buffer.maxChainLength.toNat -
            (b.visit vq.toQueue g tmp t).buffer.active < fuel := by
          rw [visit_active hroom, visit_maxChainLength]
          omega
        exact ih hfits (walkInv_visit h hroom herr hnext _) hlt
      · -- the chain ends here
        have herr : (b.visit vq.toQueue g tmp t).err = .none := by simpa using herr
        have hend : (b.visit vq.toQueue g tmp t).nextEn = false := by simpa using hnext
        refine ⟨_, rfl, rfl, hbounds.loads_le, hbounds.loads_lt, hbounds.stores_lt, fun _ => ?_,
          fun hc => absurd rfl hc⟩
        exact {
          queue := rfl
          completeChain := rfl
          chainForDevice := h.chainForDevice
          asyncCopyCookie := h.asyncCopyCookie
          wellFormed := (wellFormed_visit h.wellFormed hroom herr).setCompleteChain true
          follows := follows_visit h hroom hend
          loads := hbounds.loads
          linear_next := hbounds.linear_next
          prefix_zero := hbounds.prefix_zero
          active_pos := hpos
          head_eq := hbounds.head_eq hpos }

theorem walkInv_init (hb : b.IsReset) (hhead : head < q.size) :
    WalkInv q g t₀ head { b with chainForDevice := true } head t₀ {} :=
  have hactive : ({ b with chainForDevice := true } : Buffer).active = 0 := hb.active
  have hentries : ({ b with chainForDevice := true } : Buffer).entries = [] := by
    rw [entries, hactive]
    rfl
  { loads := by rw [hentries]; rfl
    loads_lt := by simp
    stores := by rw [hactive]; rfl
    active_le := by rw [hactive]; exact Nat.zero_le _
    prefix_zero := by rw [hactive]; simp
    linear_next := by rw [hactive]; simp
    head_eq := fun hpos => absurd hactive hpos.ne'
    wellFormed :=
      have hwf := hb.wellFormed
      ⟨⟨hwf.active_le, hwf.size_eq, hwf.size_le, hwf.first_lt, hwf.writable_iff⟩, hwf.len_pos⟩
    chainForDevice := rfl
    asyncCopyCookie := hb.asyncCopyCookie
    tmp_lt := hhead
    tmp_eq := fun _ => rfl
    follows := fun es hes => by rwa [hentries] }

/-- **A walk from a head in range ends.** -/
theorem walkChainFrom_outcome (hb : b.IsReset) (hhead : head < vq.size) :
    ∃ r, b.walkChainFrom vq g head t = some r ∧
      WalkOutcome vq g t head b.maxChainLength r := by
  rw [walkChainFrom]
  split_ifs with hmax
  · exact ⟨_, rfl, rfl, Nat.zero_le _, by simp, by simp, nofun, fun _ => ⟨hb, rfl⟩⟩
  · have hfits : vq.size ≤ ({ b with chainForDevice := true } : Buffer).maxChainLength :=
      UInt16.not_lt.1 hmax
    exact walkLoop_outcome hfits (walkInv_init hb hhead) (Nat.lt_succ_of_le (Nat.sub_le _ _))

/-! ## Taking the head -/

/-- A walk either gets no head and does nothing, or ends as `WalkOutcome` says. -/
theorem walkChain_cases (hb : b.IsReset) :
    ((vq.recv g t).err ≠ .none ∧ b.walkChain vq g t =
      some ⟨(vq.recv g t).err, b, (vq.recv g t).queue, (vq.recv g t).time, {}⟩) ∨
    ((vq.recv g t).err = .none ∧ ∃ r, b.walkChain vq g t = some r ∧
      WalkOutcome (vq.recv g t).queue g (vq.recv g t).time (vq.recv g t).desc b.maxChainLength
        r) := by
  rw [walkChain]
  split_ifs with herr
  · exact .inl ⟨herr, rfl⟩
  · have herr : (vq.recv g t).err = .none := by simpa using herr
    have hhead : (vq.recv g t).desc < (vq.recv g t).queue.size := by
      rw [DeviceQueue.size_recv]
      exact vq.recv_desc_lt herr
    exact .inr ⟨herr, walkChainFrom_outcome hb hhead⟩

theorem exists_walkChain (hb : b.IsReset) (vq : DeviceQueue) (g : Guest) (t : ℕ) :
    ∃ r, b.walkChain vq g t = some r := by
  rcases @walkChain_cases b vq g t hb with ⟨-, heq⟩ | ⟨-, r, heq, -⟩
  · exact ⟨_, heq⟩
  · exact ⟨r, heq⟩

/-- **Whatever the guest does**, a walk from a reset buffer ends within `max_chain_length` visits,
reads only descriptors of the table and stores only inside the arrays; and when it succeeds, the
buffer holds the chain that following `next` from the head gives, with its bookkeeping right. -/
theorem walkChain_spec (b : Buffer) (hb : b.IsReset) (vq : DeviceQueue) (g : Guest) (t : ℕ) :
    ∃ r, b.walkChain vq g t = some r ∧
      r.trace.loads.length ≤ b.maxChainLength.toNat ∧
      (∀ d ∈ r.trace.loads, d < vq.size) ∧
      (∀ i ∈ r.trace.stores, i < b.maxChainLength.toNat) ∧
      (r.err = .none → ∃ head t₀,
        (vq.recv g t).err = .none ∧ (vq.recv g t).desc = head ∧ (vq.recv g t).time = t₀ ∧
        Follows g t₀ head r.buffer.entries ∧
        r.trace.loads = r.buffer.entries.map ChainEntry.index ∧
        (∀ i < r.buffer.active, 0 < r.buffer.len i) ∧
        r.buffer.sizeBytes = ∑ i ∈ Finset.range r.buffer.active, r.buffer.len i ∧
        r.buffer.sizeBytes ≤ uint32Max.toNat ∧
        (∀ i < r.buffer.active, r.buffer.writableAt i = true ↔
          r.buffer.seenWritableDesc = true ∧ r.buffer.firstWritableDesc.toNat ≤ i) ∧
        (r.buffer.seenWritableDesc = true →
          r.buffer.firstWritableDesc.toNat < r.buffer.active) ∧
        ∀ i < r.buffer.active, ((r.buffer.descChain i).linearNext).toNat = i + 1) := by
  rcases @walkChain_cases b vq g t hb with ⟨herr, heq⟩ | ⟨herr, r, heq, hout⟩
  · exact ⟨_, heq, Nat.zero_le _, by simp, by simp, fun hc => absurd hc herr⟩
  · refine ⟨r, heq, hout.loads_le, fun d hd => vq.size_recv g t ▸ hout.loads_lt d hd, hout.stores_lt,
      fun hnone => ?_⟩
    have hr := hout.recorded hnone
    exact ⟨_, _, herr, rfl, rfl, hr.follows, hr.loads, hr.wellFormed.len_pos,
      hr.wellFormed.size_eq, hr.wellFormed.size_le, hr.wellFormed.writable_iff,
      hr.wellFormed.first_lt, hr.linear_next⟩

/-- A readable descriptor 1 followed by a writable descriptor 3, available as head 1. -/
def twoLinks : Guest := fun _ =>
  { table := fun i => if i = 1 then ⟨0x1000, 16, 1, 3⟩ else ⟨0x2000, 8, 2, 0⟩
    avail := { index := 1, ring := fun _ => 1 } }

theorem walkChain_twoLinks :
    ∃ r, ({ maxChainLength := 4 } : Buffer).walkChain { size := 4 } twoLinks 0 = some r ∧
      r.err = .none ∧ r.trace.loads = [1, 3] ∧ Follows twoLinks 2 1 r.buffer.entries := by
  obtain ⟨r, hr, -, -, -, hspec⟩ :=
    walkChain_spec { maxChainLength := 4 } (isReset_mk 4) { size := 4 } twoLinks 0
  have hrun : (({ maxChainLength := 4 } : Buffer).walkChain { size := 4 } twoLinks 0).map
      (fun r => (r.err, r.trace.loads)) = some (.none, [1, 3]) := by decide
  rw [hr, Option.map_some, Option.some.injEq, Prod.mk.injEq] at hrun
  obtain ⟨head, t₀, -, rfl, rfl, hfollows, -⟩ := hspec hrun.1
  exact ⟨r, hr, hrun.1, hrun.2, hfollows⟩

end Buffer

end Vml
