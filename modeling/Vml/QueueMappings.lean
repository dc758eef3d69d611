import Vml.Lib.Ledger
import Vml.Lib.Run
import Vml.VirtioDevice

/-!
# The guest memory that the queues have mapped

A write to QueueReady constructs the selected queue, which maps its three rings, and a reset
destructs all queues. `maps` records what has been mapped and unmapped since the device was built.

* `openMaps`: what is mapped, if every region was unmapped as it had been mapped.
* `QueueState.construct_cases`: construction maps the three rings, or leaves none mapped.
* `MapSys`: a device and what its guest has written to QueueReady since the last reset.
* `MapSys.ok_exec_iff`: after a write to QueueReady all is in order exactly if it did not write zero
  to a queue that is then constructed, and the size fits in 16 bits.
* `MapSys.queues_ok`: all is in order in every run of such writes.
-/

namespace Vml

/-! ## The record of the mappings -/

/-- What is mapped after an event. There is no answer if a region is unmapped that is not mapped at
this address and with this size. -/
def openMap (live : Multiset (ℕ × ℕ)) : MapEvent → Option (Multiset (ℕ × ℕ))
  | .map addr sizeBytes => some ((addr, sizeBytes) ::ₘ live)
  | .unmap addr sizeBytes =>
      if (addr, sizeBytes) ∈ live then some (live.erase (addr, sizeBytes)) else none

/-- What is mapped after these events. -/
def openMaps (maps : List MapEvent) : Option (Multiset (ℕ × ℕ)) := maps.foldlM openMap 0

section OpenMaps

variable {maps : List MapEvent} {live : Multiset (ℕ × ℕ)} {addr n : ℕ}

theorem openMaps_snoc {e : MapEvent} :
    openMaps (maps ++ [e]) = (openMaps maps).bind (openMap · e) := by
  rw [openMaps, List.foldlM_append, ← openMaps]
  cases openMaps maps with
  | none => rfl
  | some live =>
      show (openMap live e >>= pure) = openMap live e
      exact bind_pure _

theorem openMaps_map (h : openMaps maps = some live) :
    openMaps (maps ++ [.map addr n]) = some ((addr, n) ::ₘ live) := by
  rw [openMaps_snoc, h]
  rfl

theorem openMaps_unmap (h : openMaps maps = some ((addr, n) ::ₘ live)) :
    openMaps (maps ++ [.unmap addr n]) = some live := by
  rw [openMaps_snoc, h]
  show (if (addr, n) ∈ (addr, n) ::ₘ live then some (((addr, n) ::ₘ live).erase (addr, n))
    else none) = some live
  rw [if_pos (Multiset.mem_cons_self ..), Multiset.erase_cons_head]

/-- A region that is mapped is held until it is unmapped. -/
def mapEntry : MapEvent → Entry (ℕ × ℕ)
  | .map addr sizeBytes => .take (addr, sizeBytes)
  | .unmap addr sizeBytes => .give (addr, sizeBytes)

theorem mapEntry_injective : Function.Injective mapEntry := by
  intro e e' h
  cases e <;> cases e' <;> cases h <;> rfl

theorem openMaps_eq_held (maps : List MapEvent) : openMaps maps = held mapEntry maps := by
  have hstep : openMap = fun live e => (mapEntry e).next live := by
    funext live e
    cases e <;> rfl
  rw [openMaps, hstep]
  rfl

/-- **Every region has been unmapped once**, but for those that are mapped. -/
theorem count_openMaps (addr n : ℕ) (h : openMaps maps = some live) :
    maps.count (.map addr n) = maps.count (.unmap addr n) + live.count (addr, n) := by
  rw [openMaps_eq_held] at h
  have hcount := count_held h (addr, n)
  have htake := List.count_map_of_injective maps mapEntry mapEntry_injective (.map addr n)
  have hgive := List.count_map_of_injective maps mapEntry mapEntry_injective (.unmap addr n)
  rw [← htake, ← hgive]
  exact hcount

end OpenMaps

/-! ## Queues -/

namespace QueueState

/-- A region that may be mapped. -/
def region (addr : Option ℕ) (sizeBytes : ℕ) : Multiset (ℕ × ℕ) :=
  match addr with
  | none => 0
  | some a => {(a, sizeBytes)}

/-- The regions a queue holds. -/
def live (q : QueueState) : Multiset (ℕ × ℕ) :=
  region q.descAddr (descriptorRegionSizeBytes q.queueSzNumDescs) +
    (region q.availAddr (availableRegionSizeBytes q.queueSzNumDescs) +
      region q.usedAddr (usedRegionSizeBytes q.queueSzNumDescs))

/-- The queue holds what it has mapped, and has unmapped the rest. -/
def Balanced (q : QueueState) : Prop := openMaps q.maps = some q.live

/-- Nothing is mapped. -/
structure Unmapped (q : QueueState) : Prop where
  constructed : q.constructed = false
  descAddr : q.descAddr = none
  availAddr : q.availAddr = none
  usedAddr : q.usedAddr = none
  balanced : q.Balanced

/-- Where a ring is mapped, unless it cannot be translated or mapped. -/
def ringAddr (p : Platform) (useIoTranslation : Bool) (addr : UInt64) (sizeBytes : ℕ) : Option ℕ :=
  let a := convert p useIoTranslation addr sizeBytes
  if a = invalidGpa then none else p.mapGuestMem a sizeBytes

/-- The data names a size, and three rings that can be mapped. -/
structure CanConstruct (d : QueueData) (p : Platform) (use : Bool) : Prop where
  isSizeValid : isSizeValid d.num.toUInt16 = true
  desc : ringAddr p use d.descr (descriptorRegionSizeBytes d.num.toUInt16) ≠ none
  avail : ringAddr p use d.driver (availableRegionSizeBytes d.num.toUInt16) ≠ none
  used : ringAddr p use d.device (usedRegionSizeBytes d.num.toUInt16) ≠ none

/-- The queue is constructed from this data: its size and its three rings. -/
structure Mapped (q : QueueState) (d : QueueData) (p : Platform) (use : Bool) : Prop where
  constructed : q.constructed = true
  canConstruct : CanConstruct d p use
  size : q.deviceQueue.size = d.num.toUInt16
  queueSzNumDescs : q.queueSzNumDescs = d.num.toUInt16
  desc : q.descAddr = ringAddr p use d.descr (descriptorRegionSizeBytes d.num.toUInt16)
  avail : q.availAddr = ringAddr p use d.driver (availableRegionSizeBytes d.num.toUInt16)
  used : q.usedAddr = ringAddr p use d.device (usedRegionSizeBytes d.num.toUInt16)
  balanced : q.Balanced

variable {q : QueueState} {d : QueueData} {p : Platform} {use : Bool}

theorem openMaps_unmap_region {maps : List MapEvent} {n : ℕ} {addr : Option ℕ}
    {rest : Multiset (ℕ × ℕ)} (h : openMaps maps = some (region addr n + rest)) :
    openMaps (maps ++ unmap addr n) = some rest := by
  cases addr with
  | none =>
      rw [region, zero_add] at h
      rwa [unmap, List.append_nil]
  | some a =>
      rw [region, Multiset.singleton_add] at h
      exact openMaps_unmap h

/-- **Destruction** unmaps what the queue holds, each region once and as it was mapped. -/
theorem unmapped_destruct (h : q.Balanced) : q.destruct.Unmapped := by
  refine ⟨rfl, rfl, rfl, rfl, ?_⟩
  have hdesc := openMaps_unmap_region h
  have havail := openMaps_unmap_region hdesc
  rw [← add_zero (region q.usedAddr _)] at havail
  exact openMaps_unmap_region havail

theorem ringAddr_of_ne {addr : UInt64} {sizeBytes : ℕ}
    (h : convert p use addr sizeBytes ≠ invalidGpa) :
    p.mapGuestMem (convert p use addr sizeBytes) sizeBytes = ringAddr p use addr sizeBytes := by
  rw [ringAddr]
  exact (if_neg h).symm

theorem ne_of_ringAddr {addr : UInt64} {sizeBytes : ℕ} (h : ringAddr p use addr sizeBytes ≠ none) :
    convert p use addr sizeBytes ≠ invalidGpa := by
  intro heq
  rw [ringAddr] at h
  exact h (if_pos heq)

/-- **Construction** maps the three rings if they can be mapped, and otherwise leaves nothing
mapped. -/
theorem construct_cases (h : q.Unmapped) (d : QueueData) (p : Platform) (use : Bool) :
    (CanConstruct d p use ∧ (q.construct d p use).Mapped d p use) ∨
      (¬CanConstruct d p use ∧ (q.construct d p use).Unmapped) := by
  obtain ⟨hconstructed, hdescAddr, havailAddr, husedAddr, hbalanced⟩ := h
  have hnone : openMaps q.maps = some 0 := by
    rwa [Balanced, live, hdescAddr, havailAddr, husedAddr] at hbalanced
  rw [construct]
  dsimp only
  by_cases hsize : Vml.isSizeValid d.num.toUInt16 = true
  swap
  · rw [if_pos (by simpa using hsize)]
    exact .inr ⟨fun hc => hsize hc.isSizeValid, hconstructed, hdescAddr, havailAddr, husedAddr,
      hbalanced⟩
  rw [if_neg (by simp [hsize])]
  by_cases hvalid : convert p use d.descr (descriptorRegionSizeBytes d.num.toUInt16) = invalidGpa ∨
      convert p use d.driver (availableRegionSizeBytes d.num.toUInt16) = invalidGpa ∨
      convert p use d.device (usedRegionSizeBytes d.num.toUInt16) = invalidGpa
  · rw [if_pos hvalid]
    refine .inr ⟨fun hc => ?_, unmapped_destruct ?_⟩
    · rcases hvalid with hv | hv | hv
      · exact ne_of_ringAddr hc.desc hv
      · exact ne_of_ringAddr hc.avail hv
      · exact ne_of_ringAddr hc.used hv
    · rw [Balanced, live, hdescAddr, havailAddr, husedAddr]
      exact hnone
  rw [if_neg hvalid]
  push Not at hvalid
  rw [ringAddr_of_ne hvalid.1, ringAddr_of_ne hvalid.2.1, ringAddr_of_ne hvalid.2.2]
  -- One ring after another; what has been mapped before one that fails is unmapped again.
  cases hdesc : ringAddr p use d.descr (descriptorRegionSizeBytes d.num.toUInt16) with
  | none =>
      refine .inr ⟨fun hc => hc.desc hdesc, unmapped_destruct ?_⟩
      rw [Balanced, live, havailAddr, husedAddr]
      exact hnone
  | some desc =>
  have hone := @openMaps_map q.maps 0 desc (descriptorRegionSizeBytes d.num.toUInt16) hnone
  cases havail : ringAddr p use d.driver (availableRegionSizeBytes d.num.toUInt16) with
  | none =>
      refine .inr ⟨fun hc => hc.avail havail, unmapped_destruct ?_⟩
      rw [Balanced, live, husedAddr]
      exact hone
  | some avail =>
  have htwo := @openMaps_map _ _ avail (availableRegionSizeBytes d.num.toUInt16) hone
  cases hused : ringAddr p use d.device (usedRegionSizeBytes d.num.toUInt16) with
  | none =>
      refine .inr ⟨fun hc => hc.used hused, unmapped_destruct ?_⟩
      rw [Balanced, live]
      refine htwo.trans (congrArg some ?_)
      rw [Multiset.cons_swap]
      rfl
  | some used =>
      have hthree := @openMaps_map _ _ used (usedRegionSizeBytes d.num.toUInt16) htwo
      have hcan : CanConstruct d p use := by
        refine ⟨hsize, ?_, ?_, ?_⟩
        · rw [hdesc]
          nofun
        · rw [havail]
          nofun
        · rw [hused]
          nofun
      refine .inl ⟨hcan, rfl, hcan, rfl, rfl, hdesc.symm, havail.symm, hused.symm, ?_⟩
      rw [Balanced, live]
      refine hthree.trans (congrArg some ?_)
      rw [Multiset.cons_swap, Multiset.cons_swap (used, _), Multiset.cons_swap]
      rfl

end QueueState

/-! ## What an access does to the queues -/

namespace DeviceState

variable {s : DeviceState} {offset value : UInt64} {bytes : UInt8}

theorem mmioWrite_queueReady (hc : rwQueueReady.contains offset = true) (hle : ¬4 < bytes) :
    s.mmioWrite offset bytes value =
      s.writeField rwQueueReady offset bytes value s.selectedQueueData.ready fun v =>
        { s.modifySelected ({ · with ready := v }) with constructQueue := true } := by
  rw [mmioWrite, if_neg hle]
  rcases Reg.contains_cases (by decide) hc with rfl | rfl | rfl | rfl <;> rfl

/-- No other write touches the queues, or has one constructed. -/
theorem queue_write_of_not_ready
    (h : ¬(rwQueueReady.contains offset = true ∧ rwQueueReady.Fits offset bytes)) :
    (s.mmioWrite offset bytes value).2.queue = s.queue ∧
      (s.mmioWrite offset bytes value).2.constructQueue = s.constructQueue := by
  have heffect := writeEffect_mmioWrite s offset bytes value
  generalize s.mmioWrite offset bytes value = r at heffect
  cases heffect with
  | other hsame hconstruct => exact ⟨hsame.queue, hconstruct⟩
  | queueReady hc hw => exact absurd ⟨hc, Reg.fits_of_write (by decide) hc hw⟩ h
  | queueSel => exact ⟨rfl, rfl⟩
  | queueField => exact ⟨rfl, rfl⟩
  | status => exact ⟨rfl, rfl⟩
  | featureLower => exact ⟨rfl, rfl⟩
  | featureUpper => exact ⟨rfl, rfl⟩

theorem constructQueue_handleEvents (s : DeviceState) (p : Platform) :
    (s.handleEvents p).constructQueue = false := by
  have hconstruct : (s.handleConstruct p).constructQueue = false := by
    rw [handleConstruct]
    by_cases h : s.constructQueue = true
    · rw [if_pos h, constructSelected]
      split_ifs <;> rfl
    · rw [if_neg h]
      simpa using h
  have hstatus : ∀ t : DeviceState, t.handleStatus.constructQueue = t.constructQueue := by
    intro t
    rw [handleStatus]
    dsimp only
    split_ifs <;> rfl
  rw [← hstatus] at hconstruct
  rw [handleEvents, handleIrqAck]
  split_ifs <;> exact hconstruct

theorem queue_reset (s : DeviceState) {i : ℕ} (hi : i < queuesMax) :
    s.reset.queue i = (s.queue i).destruct := if_pos hi

/-- `construct_selected` is a matter of the selected queue. -/
theorem queue_constructSelected (s : DeviceState) (p : Platform) (i : ℕ) :
    (s.constructSelected p).queue i =
      if i = s.selQueue.toNat ∧ (s.queue i).constructed = false then
        (s.queue i).construct s.selectedQueueData p
          (p.ioMappings && s.platformSpecificAccessEnabled)
      else s.queue i := by
  rw [constructSelected]
  by_cases hi : i = s.selQueue.toNat
  · rw [← hi]
    by_cases h : (s.queue i).constructed = true
    · rw [if_pos h, if_neg fun hn => Bool.false_ne_true (hn.2.symm.trans h)]
    · rw [if_neg h, if_pos ⟨rfl, by simpa using h⟩]
      exact Function.update_self ..
  · rw [if_neg (fun hn : i = s.selQueue.toNat ∧ _ => hi hn.1)]
    by_cases h : (s.queue s.selQueue.toNat).constructed = true
    · rw [if_pos h]
    · rw [if_neg h]
      exact Function.update_of_ne hi ..

/-- The operation is a write to QueueReady that the register takes. -/
def MakesReady : DeviceOp → Prop
  | .access .write offset size _ _ =>
      rwQueueReady.contains offset = true ∧ rwQueueReady.Fits offset size
  | .access .read _ _ _ _ => False
  | .access .other _ _ _ _ => False
  | .reset => False

instance : DecidablePred MakesReady
  | .access .write _ _ _ _ => inferInstanceAs (Decidable (_ ∧ _))
  | .access .read _ _ _ _ => .isFalse id
  | .access .other _ _ _ _ => .isFalse id
  | .reset => .isFalse id

/-- The operation resets the device. -/
def Resets (s : DeviceState) : DeviceOp → Prop
  | .access a offset size value _ =>
      (s.mmioAccess a offset size value).1 = true ∧
        (s.mmioAccess a offset size value).2.2.ResetPending
  | .reset => True

instance (s : DeviceState) : DecidablePred (Resets s)
  | .access _ _ _ _ _ => inferInstanceAs (Decidable (_ ∧ _))
  | .reset => .isTrue trivial

/-- What a queue is constructed from. -/
structure Setting where
  data : QueueData
  platform : Platform
  useIoTranslation : Bool

/-- What the selected queue would be constructed from. -/
def setting (s : DeviceState) (p : Platform) : Setting :=
  ⟨s.selectedQueueData, p, p.ioMappings && s.platformSpecificAccessEnabled⟩

/-- A queue after the construction, if the operation has it constructed. -/
def built (s : DeviceState) (op : DeviceOp) (i : ℕ) : QueueState :=
  match op with
  | .access _ _ _ _ p =>
      if MakesReady op ∧ i = s.selQueue.toNat ∧ (s.queue i).constructed = false then
        (s.queue i).construct s.selectedQueueData p
          (p.ioMappings && s.platformSpecificAccessEnabled)
      else s.queue i
  | .reset => s.queue i

variable {op : DeviceOp}

theorem mmioWrite_makesReady {p : Platform} (h : MakesReady (.access .write offset bytes value p)) :
    ∃ v, s.mmioWrite offset bytes value =
      (true, { s.modifySelected ({ · with ready := v }) with constructQueue := true }) := by
  obtain ⟨hc, hfits⟩ := h
  rcases @Reg.write_cases rwQueueReady offset value bytes s.selectedQueueData.ready (by decide) hc
    with ⟨hno, -⟩ | ⟨-, v, hw, -⟩
  · exact absurd hfits hno
  · refine ⟨v, ?_⟩
    rw [mmioWrite_queueReady hc hfits.not_lt, writeField, hw]

/-- A write to QueueReady that the register takes raises the event, and nothing else does. -/
theorem mmioAccess_cases (hidle : s.constructQueue = false) (a : Access) (p : Platform) :
    (MakesReady (.access a offset bytes value p) ∧
      ∃ v, s.mmioAccess a offset bytes value =
        (true, value, { s.modifySelected ({ · with ready := v }) with constructQueue := true })) ∨
    (¬MakesReady (.access a offset bytes value p) ∧
      (s.mmioAccess a offset bytes value).2.2.queue = s.queue ∧
      (s.mmioAccess a offset bytes value).2.2.constructQueue = false) := by
  cases a with
  | read => exact .inr ⟨id, rfl, hidle⟩
  | other => exact .inr ⟨id, rfl, hidle⟩
  | write =>
      rw [mmioAccess]
      by_cases h : MakesReady (.access .write offset bytes value p)
      · obtain ⟨v, hv⟩ := mmioWrite_makesReady h
        refine .inl ⟨h, v, ?_⟩
        rw [hv]
      · obtain ⟨hqueue, hconstruct⟩ := @queue_write_of_not_ready s offset value bytes h
        exact .inr ⟨h, hqueue, hconstruct.trans hidle⟩

theorem queue_handleConstruct (hidle : s.constructQueue = false) (a : Access) (p : Platform)
    (i : ℕ) : ((s.mmioAccess a offset bytes value).2.2.handleConstruct p).queue i =
      s.built (.access a offset bytes value p) i := by
  rcases s.mmioAccess_cases hidle a p with ⟨hready, v, hv⟩ | ⟨hready, hqueue, hconstruct⟩
  · obtain ⟨t, ht⟩ : ∃ t : DeviceState,
        t = { s.modifySelected ({ · with ready := v }) with constructQueue := false } := ⟨_, rfl⟩
    have hevent : (s.mmioAccess a offset bytes value).2.2.handleConstruct p =
        t.constructSelected p := by
      rw [hv, ht]
      rfl
    have hqueue : t.queue = s.queue := by rw [ht, modifySelected]
    have hsel : t.selQueue = s.selQueue := by rw [ht, modifySelected]
    have henabled : t.platformSpecificAccessEnabled = s.platformSpecificAccessEnabled := by
      rw [ht]
      rfl
    have hdata : t.selectedQueueData = { s.selectedQueueData with ready := v } := by
      rw [ht]
      exact Function.update_self ..
    rw [hevent, queue_constructSelected, hqueue, hsel, hdata, henabled, built]
    by_cases hi : i = s.selQueue.toNat ∧ (s.queue i).constructed = false
    · rw [if_pos hi, if_pos ⟨hready, hi⟩]
      rfl
    · rw [if_neg hi, if_neg fun h => hi h.2]
  · rw [handleConstruct, if_neg (by simp [hconstruct]), hqueue, built,
      if_neg fun h : MakesReady _ ∧ _ => hready h.1]

/-- **What an operation does to the queues**: construction and then the reset. -/
theorem queue_exec (hidle : s.constructQueue = false) {i : ℕ} (hi : i < queuesMax) :
    (s.exec op).queue i = if s.Resets op then (s.built op i).destruct else s.built op i := by
  cases op with
  | reset =>
      rw [if_pos (show s.Resets .reset from trivial)]
      exact queue_reset s hi
  | access a offset size value p =>
      have hconstruct := @queue_handleConstruct s offset value size hidle a p i
      rw [exec, access]
      dsimp only
      by_cases hok : (s.mmioAccess a offset size value).1 = true
      · rw [if_pos hok, (sameSetup_handleEvents _ p).queue]
        by_cases hreset : (s.mmioAccess a offset size value).2.2.ResetPending
        · rw [if_pos hreset, if_pos, queue_reset _ hi, hconstruct]
          exact ⟨hok, hreset⟩
        · rw [if_neg hreset, if_neg, hconstruct]
          exact fun h => hreset h.2
      · rw [if_neg hok, if_neg, built]
        · rcases s.mmioAccess_cases hidle a p with ⟨-, v, hv⟩ | ⟨hready, hqueue, -⟩
          · exact absurd (congrArg Prod.fst hv) hok
          · rw [if_neg (fun h : MakesReady _ ∧ _ => hready h.1), hqueue]
        · exact fun h => hok h.1

theorem constructQueue_exec (hidle : s.constructQueue = false) :
    (s.exec op).constructQueue = false := by
  cases op with
  | reset => exact hidle
  | access a offset size value p =>
      rw [exec, access]
      dsimp only
      by_cases hok : (s.mmioAccess a offset size value).1 = true
      · rw [if_pos hok]
        exact constructQueue_handleEvents _ p
      · rw [if_neg hok]
        rcases s.mmioAccess_cases hidle a p with ⟨-, v, hv⟩ | ⟨-, -, hconstruct⟩
        · exact absurd (congrArg Prod.fst hv) hok
        · exact hconstruct

end DeviceState

/-! ## A device and what its guest has written to QueueReady -/

open DeviceState QueueState

/-- A device. `lastReady` and `madeReady` are history variables: since the last reset, what the
last write to the QueueReady register of a queue brought, and what there was when a queue was made
ready that was not constructed. -/
structure MapSys where
  devState : DeviceState
  lastReady : ℕ → Option ℕ := fun _ => none
  madeReady : ℕ → Option Setting := fun _ => none

namespace MapSys

/-- The bytes that a write brings. -/
def brought (size : UInt8) (value : UInt64) : ℕ := value.toNat % 2 ^ (8 * size.toNat)

/-- The state after an operation. -/
def exec (t : MapSys) (op : DeviceOp) : MapSys :=
  let s := t.devState
  let i := s.selQueue.toNat
  match op with
  | .reset => { devState := s.exec op }
  | .access _ _ size value p =>
      if s.Resets op then { devState := s.exec op }
      else if MakesReady op then
        { devState := s.exec op
          lastReady := Function.update t.lastReady i (some (brought size value))
          madeReady := if (s.queue i).constructed then t.madeReady
            else Function.update t.madeReady i (some (s.setting p)) }
      else { t with devState := s.exec op }

/-- A queue is constructed only if the last write to its QueueReady was not of zero, and then from
what there was when it was made ready. A queue that is not constructed has nothing mapped. In both
cases what it has mapped is what it holds. -/
structure InOrder (t : MapSys) (i : ℕ) : Prop where
  lastReady : (t.devState.queue i).constructed = true → ∃ v, t.lastReady i = some v ∧ v ≠ 0
  mapped : (t.devState.queue i).constructed = true → ∃ m, t.madeReady i = some m ∧
    (t.devState.queue i).Mapped m.data m.platform m.useIoTranslation ∧
    (t.devState.queue i).deviceQueue.size.toNat = m.data.num.toNat
  unmapped : (t.devState.queue i).constructed = false → (t.devState.queue i).Unmapped

/-- A write to QueueReady does not bring zero to a queue that is constructed or can be, and the size
of one that can be constructed fits in 16 bits; unless the device is about to be reset. -/
def Sound (t : MapSys) (op : DeviceOp) : Prop :=
  let s := t.devState
  match op with
  | .reset => True
  | .access _ _ size value p => MakesReady op → ¬s.Resets op →
      let q := s.queue s.selQueue.toNat
      let can := q.constructed = false ∧ CanConstruct s.selectedQueueData p
        (p.ioMappings && s.platformSpecificAccessEnabled)
      (q.constructed = true ∨ can → brought size value ≠ 0) ∧
        (can → s.selectedQueueData.num.toNat < 2 ^ 16)

/-- What holds between two operations. -/
structure Inv (t : MapSys) : Prop where
  inOrder : ∀ i < queuesMax, t.InOrder i
  idle : t.devState.constructQueue = false

variable {t t' : MapSys} {op : DeviceOp} {i : ℕ}

theorem inOrder_of_unmapped (h : (t.devState.queue i).Unmapped) : t.InOrder i where
  lastReady hup := absurd (h.constructed.symm.trans hup) Bool.false_ne_true
  mapped hup := absurd (h.constructed.symm.trans hup) Bool.false_ne_true
  unmapped _ := h

theorem InOrder.balanced (h : t.InOrder i) : (t.devState.queue i).Balanced := by
  cases hup : (t.devState.queue i).constructed with
  | false => exact (h.unmapped hup).balanced
  | true =>
      obtain ⟨m, -, hm, -⟩ := h.mapped hup
      exact hm.balanced

theorem InOrder.balanced_built (h : t.InOrder i) (op : DeviceOp) :
    (t.devState.built op i).Balanced := by
  rw [built.eq_def]
  cases op with
  | reset => exact h.balanced
  | access a offset size value p =>
      dsimp only
      split_ifs with hbuilt
      · rcases construct_cases (h.unmapped hbuilt.2.2) t.devState.selectedQueueData p
          (p.ioMappings && t.devState.platformSpecificAccessEnabled) with ⟨-, hm⟩ | ⟨-, hu⟩
        · exact hm.balanced
        · exact hu.balanced
      · exact h.balanced

theorem InOrder.unmapped_exec (h : t.InOrder i) (hi : i < queuesMax)
    (hidle : t.devState.constructQueue = false) (hreset : t.devState.Resets op) :
    ((t.devState.exec op).queue i).Unmapped := by
  rw [queue_exec hidle hi, if_pos hreset]
  exact unmapped_destruct (h.balanced_built op)

theorem InOrder.congr (h : t.InOrder i) (hqueue : t'.devState.queue i = t.devState.queue i)
    (hlast : t'.lastReady i = t.lastReady i) (hmade : t'.madeReady i = t.madeReady i) :
    t'.InOrder i := by
  obtain ⟨hready, hmapped, hunmapped⟩ := h
  rw [← hqueue] at hready hmapped hunmapped
  rw [← hlast] at hready
  rw [← hmade] at hmapped
  exact ⟨hready, hmapped, hunmapped⟩

theorem exec_access {a : Access} {offset value : UInt64} {size : UInt8} {p : Platform}
    (hreset : ¬t.devState.Resets (.access a offset size value p)) :
    t.exec (.access a offset size value p) =
      if MakesReady (.access a offset size value p) then
        { devState := t.devState.exec (.access a offset size value p)
          lastReady := Function.update t.lastReady t.devState.selQueue.toNat
            (some (brought size value))
          madeReady := if (t.devState.queue t.devState.selQueue.toNat).constructed then t.madeReady
            else Function.update t.madeReady t.devState.selQueue.toNat
              (some (t.devState.setting p)) }
      else { t with devState := t.devState.exec (.access a offset size value p) } :=
  if_neg hreset

/-- The queue that a write to QueueReady makes ready. -/
theorem inOrder_makesReady (h : t.Inv) {a : Access} {offset value : UInt64} {size : UInt8}
    {p : Platform} (hsel : t.devState.selQueue.toNat < queuesMax)
    (hreset : ¬t.devState.Resets (.access a offset size value p))
    (hready : MakesReady (.access a offset size value p)) :
    (t.exec (.access a offset size value p)).InOrder t.devState.selQueue.toNat ↔
      t.Sound (.access a offset size value p) := by
  obtain ⟨i, hi⟩ : ∃ i, i = t.devState.selQueue.toNat := ⟨_, rfl⟩
  obtain ⟨op, hop⟩ : ∃ op : DeviceOp, op = .access a offset size value p := ⟨_, rfl⟩
  have hord := h.inOrder i (hi ▸ hsel)
  have hqueue := @queue_exec t.devState op h.idle i (hi ▸ hsel)
  have hexec := t.exec_access hreset
  have hlast : (t.exec op).lastReady i = some (brought size value) := by
    rw [hop, hexec, if_pos hready, hi]
    exact Function.update_self ..
  have hmade : (t.exec op).madeReady i = if (t.devState.queue i).constructed then t.madeReady i
      else some (t.devState.setting p) := by
    rw [hop, hexec, if_pos hready, hi]
    dsimp only
    split_ifs
    · rfl
    · exact Function.update_self ..
  have hstate : (t.exec op).devState = t.devState.exec op := by
    rw [hop, hexec, if_pos hready]
  have hsound : t.Sound op ↔
      ((t.devState.queue i).constructed = true ∨ (t.devState.queue i).constructed = false ∧
        CanConstruct t.devState.selectedQueueData p
          (p.ioMappings && t.devState.platformSpecificAccessEnabled) → brought size value ≠ 0) ∧
      ((t.devState.queue i).constructed = false ∧
        CanConstruct t.devState.selectedQueueData p
          (p.ioMappings && t.devState.platformSpecificAccessEnabled) →
            t.devState.selectedQueueData.num.toNat < 2 ^ 16) := by
    rw [hop, Sound, hi]
    exact ⟨fun hs => hs hready hreset, fun hs _ _ => hs⟩
  rw [if_neg (hop ▸ hreset), hop, built, ← hi, ← hop, ← hstate] at hqueue
  rw [← hop, ← hi, hsound]
  cases hup : (t.devState.queue i).constructed with
  | true =>
      rw [if_neg fun hb => Bool.false_ne_true (hb.2.2.symm.trans hup)] at hqueue
      rw [hup, if_pos rfl] at hmade
      constructor
      · intro hin
        obtain ⟨v, hv, hne⟩ := hin.lastReady (hqueue ▸ hup)
        obtain rfl : brought size value = v := Option.some.inj (hlast.symm.trans hv)
        exact ⟨fun _ => hne, fun hc => absurd hc.1.symm Bool.false_ne_true⟩
      · rintro ⟨hne, -⟩
        refine ⟨fun _ => ⟨_, hlast, hne (.inl rfl)⟩, fun _ => ?_, fun hdown => ?_⟩
        · rw [hqueue, hmade]
          exact hord.mapped hup
        · rw [hqueue, hup] at hdown
          exact absurd hdown.symm Bool.false_ne_true
  | false =>
      rw [hop, if_pos ⟨hready, rfl, hup⟩, ← hop] at hqueue
      rw [hup, if_neg Bool.false_ne_true] at hmade
      rcases construct_cases (hord.unmapped hup) t.devState.selectedQueueData p
        (p.ioMappings && t.devState.platformSpecificAccessEnabled) with ⟨hcan, hm⟩ | ⟨hcan, hu⟩
      · rw [← hqueue] at hm
        have hsize : ((t.exec op).devState.queue i).deviceQueue.size.toNat =
            t.devState.selectedQueueData.num.toNat % 2 ^ 16 := by
          rw [hm.size]
          exact UInt32.toNat_toUInt16 _
        constructor
        · intro hin
          obtain ⟨v, hv, hne⟩ := hin.lastReady hm.constructed
          obtain rfl : brought size value = v := Option.some.inj (hlast.symm.trans hv)
          obtain ⟨m, hmade', -, hnum⟩ := hin.mapped hm.constructed
          obtain rfl : t.devState.setting p = m := Option.some.inj (hmade.symm.trans hmade')
          have hnum : _ = t.devState.selectedQueueData.num.toNat := hnum
          exact ⟨fun _ => hne, fun _ => by omega⟩
        · rintro ⟨hne, hlt⟩
          have hlt := hlt ⟨rfl, hcan⟩
          refine ⟨fun _ => ⟨_, hlast, hne (.inr ⟨rfl, hcan⟩)⟩, fun _ => ⟨_, hmade, hm, ?_⟩,
            fun hdown => absurd (hdown.symm.trans hm.constructed) Bool.false_ne_true⟩
          exact hsize.trans (Nat.mod_eq_of_lt hlt)
      · rw [← hqueue] at hu
        refine iff_of_true (inOrder_of_unmapped hu) ⟨fun hc => ?_, fun hc => absurd hc.2 hcan⟩
        exact absurd (hc.resolve_left Bool.false_ne_true).2 hcan

/-- **A queue after a sound operation.** -/
theorem Inv.inOrder_exec (h : t.Inv) (hok : t.Sound op) (hi : i < queuesMax) :
    (t.exec op).InOrder i := by
  have hord := h.inOrder i hi
  cases op with
  | reset =>
      have hunmapped := @InOrder.unmapped_exec t .reset i hord hi h.idle trivial
      exact inOrder_of_unmapped hunmapped
  | access a offset size value p =>
      by_cases hreset : t.devState.Resets (.access a offset size value p)
      · have hunmapped := hord.unmapped_exec hi h.idle hreset
        rw [exec, if_pos hreset]
        exact inOrder_of_unmapped hunmapped
      by_cases hsel : i = t.devState.selQueue.toNat ∧ MakesReady (.access a offset size value p)
      · obtain ⟨rfl, hready⟩ := hsel
        exact (inOrder_makesReady h hi hreset hready).2 hok
      have hqueue := @queue_exec t.devState (.access a offset size value p) h.idle i hi
      rw [if_neg hreset, built, if_neg fun hb => hsel ⟨hb.2.1, hb.1⟩] at hqueue
      rw [exec_access hreset]
      split_ifs with hready hup
      · exact hord.congr hqueue (Function.update_of_ne (fun heq => hsel ⟨heq, hready⟩) ..) rfl
      · exact hord.congr hqueue (Function.update_of_ne (fun heq => hsel ⟨heq, hready⟩) ..)
          (Function.update_of_ne (fun heq => hsel ⟨heq, hready⟩) ..)
      · exact hord.congr hqueue rfl rfl

theorem Inv.exec (h : t.Inv) (hok : t.Sound op) : (t.exec op).Inv where
  inOrder _ hi := h.inOrder_exec hok hi
  idle := by
    have hidle := @constructQueue_exec t.devState op h.idle
    rw [MapSys.exec.eq_def]
    cases op with
    | reset => exact hidle
    | access a offset size value p =>
        dsimp only
        split_ifs <;> exact hidle

/-! ## Runs -/

/-- A step. What an access outside the arrays does is undefined. -/
def Step (t : MapSys) (op : DeviceOp) (t' : MapSys) : Prop :=
  match op with
  | .access a offset size value _ =>
      t.devState.InBounds a offset size value → t' = t.exec op
  | .reset => t' = t.exec op

/-- The operation is sound, and stays within the arrays. -/
def StepOk (t : MapSys) (op : DeviceOp) : Prop :=
  t.Sound op ∧
    match op with
    | .access a offset size value _ => t.devState.InBounds a offset size value
    | .reset => True

theorem selQueue_lt {a : Access} {offset value : UInt64} {size : UInt8} {p : Platform}
    (hin : t.devState.InBounds a offset size value)
    (hready : MakesReady (.access a offset size value p)) :
    t.devState.selQueue.toNat < queuesMax := by
  cases a with
  | read => exact hready.elim
  | other => exact hready.elim
  | write =>
      refine hin ?_
      have hle : size ≤ 4 := UInt8.not_lt.1 hready.2.not_lt
      rw [usesSelected]
      simp [hle, hready.1]

/-- **A step within the arrays leaves the queues in order exactly if it is sound.** -/
theorem inOrder_exec_iff (h : t.Inv) {a : Access} {offset value : UInt64} {size : UInt8}
    {p : Platform} (hin : t.devState.InBounds a offset size value) :
    (∀ i < queuesMax, (t.exec (.access a offset size value p)).InOrder i) ↔
      t.Sound (.access a offset size value p) := by
  refine ⟨fun hall hready hreset => ?_, fun hok i hi => h.inOrder_exec hok hi⟩
  have hsel := selQueue_lt hin hready
  exact (inOrder_makesReady h hsel hreset hready).1 (hall _ hsel) hready hreset

theorem inv_new (queueNumMax : UInt16) (deviceId configSize featureLower featureUpper : UInt32)
    (configSpace : ℕ → UInt8) :
    Inv { devState :=
      .new queueNumMax deviceId configSize featureLower featureUpper configSpace } where
  inOrder _ _ := inOrder_of_unmapped ⟨rfl, rfl, rfl, rfl, rfl⟩
  idle := rfl

/-- **In every run of sound steps all queues are in order**, from a device that has not been
used. -/
theorem queues_ok {queueNumMax : UInt16} {deviceId configSize featureLower featureUpper : UInt32}
    {configSpace : ℕ → UInt8} {ops : List DeviceOp}
    (h : Run (fun (t : MapSys) op t' => t.StepOk op ∧ t.Step op t')
      { devState := .new queueNumMax deviceId configSize featureLower featureUpper configSpace }
      ops t) : ∀ i < queuesMax, t.InOrder i := by
  have hstep : ∀ (t : MapSys) (op : DeviceOp) (t' : MapSys), t.Inv →
      t.StepOk op ∧ t.Step op t' → t'.Inv := by
    intro t op t' ht ⟨⟨hok, hin⟩, hstep⟩
    have heq : t' = t.exec op := by
      cases op with
      | reset => exact hstep
      | access a offset size value p => exact hstep hin
    rw [heq]
    exact ht.exec hok
  exact (h.invariant hstep (inv_new ..)).inOrder

/-- A device with queues of up to four entries. -/
def unused : DeviceState := .new 4 3 0 0 0 fun _ => 0

/-- A write of four bytes by the driver. -/
def write (offset value : UInt64) : DeviceOp :=
  .access .write offset 4 value ⟨false, fun a _ => a, fun a _ => some a.toNat⟩

/-- A write of zero to QueueReady constructs the queue. -/
theorem zero_constructs :
    (([write 0x44 0].foldl exec { devState := unused }).devState.queue 0).constructed = true ∧
      ([write 0x44 0].foldl exec { devState := unused }).lastReady 0 = some 0 := by
  decide

/-- A queue is made ready, and then the device is reset through its status. -/
theorem queues_ok_reset : ∃ t, Run (fun (t : MapSys) op t' => t.StepOk op ∧ t.Step op t')
    { devState := unused } [write 0x44 1, write 0x70 0] t ∧ ∀ i < queuesMax, t.InOrder i := by
  have hrun : Run (fun (t : MapSys) op t' => t.StepOk op ∧ t.Step op t') { devState := unused }
      [write 0x44 1, write 0x70 0] ([write 0x44 1, write 0x70 0].foldl exec
        { devState := unused }) := by
    refine .snoc (.snoc .nil (a := write 0x44 1) ⟨⟨fun _ _ => ?_, ?_⟩, fun _ => rfl⟩)
      ⟨⟨fun hready => absurd hready (by decide), ?_⟩, fun _ => rfl⟩
    · exact (by decide : (unused.exec (write 0x44 1)).InBounds .write 0x70 4 0)
    · exact ⟨fun _ => by decide, fun _ => by decide⟩
    · exact (by decide : unused.InBounds .write 0x44 4 1)
  exact ⟨_, hrun, queues_ok hrun⟩

end MapSys

end Vml
