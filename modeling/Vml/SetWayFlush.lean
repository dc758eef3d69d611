import Vml.SysRegGuest

/-!
# Set/way instructions and the caches

A guest that turns its caches off or on cleans them by set and way, which the VMM must not do for it.
`SetWayFlushReg` has the virtual memory registers of the vCPU trapped instead, and at the writes of
`SCTLR_EL1` that turn the cache off or on `flush_on_cache_toggle` flushes all of the guest's memory,
until the cache is on.

**Whose trap it is.** The introspection asks for the same trap, at any time, and other vCPUs have
their own. `CacheWatch` is what one vCPU has done with its caches. It knows nothing of all that, and
tells how often the memory is flushed.

Main result: `RegSys.flushes_eq`.
-/

namespace Vml

/-! ## The request -/

namespace CpuFeature

theorem word_requested (enable : Bool) (regs : UInt64) :
    (word enable regs &&& enableMask != 0) = enable := by
  cases enable with
  | false => simp [word]
  | true =>
      have hand : word true regs &&& enableMask = enableMask := by
        refine UInt64.toBitVec_inj.1 (BitVec.eq_of_getElem_eq fun i hi => ?_)
        simp only [word, if_true, UInt64.toBitVec_and, UInt64.toBitVec_or, BitVec.getElem_and,
          BitVec.getElem_or]
        cases (enableMask.toBitVec)[i] <;> simp
      rw [hand]
      rfl

/-- **A request** is one requestor's own. -/
theorem isRequestedBy_request (f : CpuFeature) (enable : Bool) (r r' : Requestor) (regs : UInt64) :
    (f.request enable r regs).isRequestedBy r' =
      if r' = r then enable else f.isRequestedBy r' := by
  rw [isRequestedBy, request, forceReconfiguration, store]
  by_cases hr : r' = r
  · subst hr
    rw [if_pos rfl]
    simp only [Function.update_self]
    exact word_requested enable regs
  · rw [if_neg hr]
    simp only [Function.update_of_ne hr]
    rfl

end CpuFeature

namespace Msr

open Vbus (Access)

open SysRegs RegisterId

/-! ## Which registers matter -/

/-- The instructions that clean or invalidate the data cache by set and way. -/
def setwayIds : List UInt64 := [dciswA64, dccswA64, dcciswA64].map UInt32.toUInt64

namespace RegObj

variable {ρ σ : Type*}

/-- A `SetWayFlushReg`. -/
def isSetWay : RegObj ρ → Bool
  | setWayFlush _ => true
  | _ => false

/-- A `SctlrEl1`. -/
def isSctlr : RegObj ρ → Bool
  | sctlr => true
  | _ => false

@[simp] theorem isSetWay_map (f : ρ → σ) (o : RegObj ρ) : (o.map f).isSetWay = o.isSetWay := by
  cases o <;> rfl

@[simp] theorem isSctlr_map (f : ρ → σ) (o : RegObj ρ) : (o.map f).isSctlr = o.isSctlr := by
  cases o <;> rfl

theorem isSetWay_reset (o : RegObj ρ) : o.reset.isSetWay = o.isSetWay := by cases o <;> rfl

theorem isSctlr_reset (o : RegObj ρ) : o.reset.isSctlr = o.isSctlr := by cases o <;> rfl

end RegObj

namespace SysRegs

/-- Only the set/way instructions have an object of that class, and only `SCTLR_EL1` has its. -/
theorem regs_cache {σ : Type*} {x : σ} {c : SetUpCall} {reg : NewReg σ} (h : reg ∈ c.regs x) :
    (reg.2.isSetWay = true → idOf reg ∈ setwayIds) ∧
      (reg.2.isSctlr = true → idOf reg = sctlrEl1.toUInt64) := by
  have hplain {regs : List (NewReg σ)}
      (hall : regs.all (fun reg => !reg.2.isSetWay && !reg.2.isSctlr) = true) (hreg : reg ∈ regs) :
      reg.2.isSetWay = false ∧ reg.2.isSctlr = false := by
    simpa using List.all_eq_true.1 hall reg hreg
  have hneither (hnot : reg.2.isSetWay = false ∧ reg.2.isSctlr = false) :
      (reg.2.isSetWay = true → idOf reg ∈ setwayIds) ∧
        (reg.2.isSctlr = true → idOf reg = sctlrEl1.toUInt64) := by
    simp [hnot.1, hnot.2]
  cases c with
  | archMsr info gicV3 =>
      simp only [SetUpCall.regs, archMsr, List.mem_append] at h
      rcases h with ((((((((((h | h) | h) | h) | h) | h) | h) | h) | h) | h) | h)
      · exact hneither (hplain rfl h)
      · exact hneither (hplain rfl h)
      · simp only [aarch64SetwayFlushes, List.mem_cons, List.not_mem_nil, or_false] at h
        rcases h with rfl | rfl | rfl
        · exact ⟨fun _ => List.mem_cons_self, by simp [newSetWayFlush, RegObj.isSctlr]⟩
        · exact ⟨fun _ => List.mem_cons_of_mem _ List.mem_cons_self,
            by simp [newSetWayFlush, RegObj.isSctlr]⟩
        · exact ⟨fun _ => List.mem_cons_of_mem _ (List.mem_cons_of_mem _ List.mem_cons_self),
            by simp [newSetWayFlush, RegObj.isSctlr]⟩
      · exact hneither (hplain rfl h)
      · rw [tvmRegs, List.mem_append] at h
        obtain h | h := h
        · exact hneither (hplain rfl h)
        · simp only [pageTableRegs, List.mem_cons, List.not_mem_nil, or_false] at h
          rcases h with rfl | rfl | rfl | rfl
          · simp [RegObj.isSetWay, RegObj.isSctlr]
          · simp [RegObj.isSetWay, RegObj.isSctlr]
          · simp [RegObj.isSetWay, RegObj.isSctlr]
          · exact ⟨by simp [RegObj.isSetWay], fun _ => rfl⟩
      · exact hneither (hplain rfl h)
      · exact hneither (hplain rfl h)
      · exact hneither (hplain rfl h)
      · exact hneither (hplain rfl h)
      · refine hneither (hplain ?_ h)
        cases gicV3 <;> rfl
      · refine hneither (hplain ?_ h)
        split_ifs <;> rfl
  | cachingInfo topo => exact hneither (hplain rfl h)
  | physicalTimer => exact hneither (hplain rfl h)

variable {ρ : Type*} [LinearOrder ρ] {s : SysRegs ρ} {calls : List SetUpCall}

/-- The objects of a platform that has made its set-up, by the ids that lead to them. -/
theorem SetUpBy.cache_ids (h : SetUpBy calls s) {info : PlatformInfo} {gicV3 : Bool}
    (hc : SetUpCall.archMsr info gicV3 ∈ calls) (id : UInt64) :
    (id ∈ setwayIds ↔ ∃ r, s.bus.getDeviceAt id = some r ∧ (s.obj r).isSetWay = true) ∧
      (id = sctlrEl1.toUInt64 ↔ ∃ r, s.bus.getDeviceAt id = some r ∧
        (s.obj r).isSctlr = true) := by
  have hfound {reg : NewReg (Option UInt64)}
      (hreg : reg ∈ (SetUpCall.archMsr info gicV3).regs csselrId) :
      ∃ r, s.bus.getDeviceAt (idOf reg) = some r ∧ (s.obj r).map s.name = reg.2 :=
    Option.map_eq_some_iff.1 (h.view_of_mem hc hreg)
  have hback {r : ρ} (hr : s.bus.getDeviceAt id = some r) :
      ((s.obj r).isSetWay = true → id ∈ setwayIds) ∧
        ((s.obj r).isSctlr = true → id = sctlrEl1.toUInt64) := by
    obtain ⟨c, -, reg, hreg, rfl, ho⟩ := h.mem_of_view (Option.map_eq_some_iff.2 ⟨r, hr, rfl⟩)
    have hcache := regs_cache hreg
    rwa [ho, RegObj.isSetWay_map, RegObj.isSctlr_map] at hcache
  refine ⟨⟨fun hid => ?_, fun ⟨r, hr, hobj⟩ => (hback hr).1 hobj⟩,
    ⟨fun hid => ?_, fun ⟨r, hr, hobj⟩ => (hback hr).2 hobj⟩⟩
  · obtain ⟨id', hid', rfl⟩ := List.mem_map.1 hid
    have hmem : newSetWayFlush id' ∈ (SetUpCall.archMsr info gicV3).regs csselrId := by
      simp only [SetUpCall.regs, archMsr, List.mem_append]
      have : newSetWayFlush (ρ := Option UInt64) id' ∈ aarch64SetwayFlushes :=
        List.mem_map_of_mem (f := newSetWayFlush) hid'
      tauto
    obtain ⟨r, hr, ho⟩ := hfound hmem
    refine ⟨r, hr, ?_⟩
    rw [← RegObj.isSetWay_map s.name, ho]
    rfl
  · subst hid
    have hmem : (sctlrEl1, RegObj.sctlr) ∈ (SetUpCall.archMsr info gicV3).regs csselrId := by
      simp only [SetUpCall.regs, archMsr, List.mem_append]
      have : (sctlrEl1, RegObj.sctlr) ∈ tvmRegs (ρ := Option UInt64) :=
        List.mem_append_right _ (by simp [pageTableRegs])
      tauto
    obtain ⟨r, hr, ho⟩ := hfound hmem
    refine ⟨r, hr, ?_⟩
    rw [← RegObj.isSctlr_map s.name, ho]
    rfl

end SysRegs

/-! ## What a vCPU does with its caches -/

/-- What one vCPU has done: whether it has cleaned by set and way since it turned the cache on, what
its `SCTLR_EL1` is, and how often it has turned the cache off or on after it has cleaned. -/
structure CacheWatch where
  cleaned : Bool := false
  sctlr : UInt64 := 0
  toggles : ℕ := 0
  deriving DecidableEq, Repr

namespace CacheWatch

/-- A write of `SCTLR_EL1`. -/
def writeSctlr (w : CacheWatch) (value : UInt64) : CacheWatch :=
  { w with
    cleaned := w.cleaned && !cacheEnabled value
    toggles := w.toggles +
      if w.cleaned && cacheEnabled w.sctlr != cacheEnabled value then 1 else 0 }

/-- What the vCPU does. -/
def step (vcpu : ℕ) (w : CacheWatch) : RegAct → CacheWatch
  | .access v a id value =>
      if v = vcpu ∧ a = .write then
        if id ∈ setwayIds then { w with cleaned := true }
        else if id = sctlrEl1.toUInt64 then w.writeSctlr value
        else w
      else w
  | .setSctlr v value => if v = vcpu then { w with sctlr := value } else w
  | _ => w

end CacheWatch

namespace RegSys

variable {ρ : Type*} [LinearOrder ρ] {s s' t : RegSys ρ} {r : ρ} {vcpu v : ℕ} {a : Access}
  {id value value' : UInt64} {err : Err} {w : CacheWatch} {acts : List RegAct}
  {calls : List SetUpCall}

/-- The flushes of the guest's memory that a vCPU has caused. -/
def flushes (s : RegSys ρ) (vcpu : ℕ) : ℕ := s.done.count (.flushGuestAs vcpu)

/-- What a vCPU has done with its caches is what the registers have seen, where `n` flushes came
before. -/
structure Watched (vcpu n : ℕ) (w : CacheWatch) (s : RegSys ρ) : Prop where
  cleaned : (s.tvm vcpu).isRequestedBy .vmm = w.cleaned
  sctlr : s.sctlr vcpu = w.sctlr
  toggles : s.flushes vcpu = n + w.toggles

omit [LinearOrder ρ] in
theorem Watched.congr {n : ℕ} (h : Watched vcpu n w s)
    (htvm : (t.tvm vcpu).isRequestedBy .vmm = (s.tvm vcpu).isRequestedBy .vmm)
    (hsctlr : t.sctlr vcpu = s.sctlr vcpu) (hflushes : t.flushes vcpu = s.flushes vcpu) :
    Watched vcpu n w t :=
  ⟨htvm.trans h.cleaned, hsctlr.trans h.sctlr, hflushes.trans h.toggles⟩

omit [LinearOrder ρ] in
theorem Watched.flush {n : ℕ} (h : Watched vcpu n w s) :
    Watched vcpu n (if v = vcpu then { w with cleaned := true } else w) (s.flush v) := by
  unfold RegSys.flush
  by_cases hv : v = vcpu
  · subst hv
    rw [if_pos rfl]
    split_ifs with hreq
    · exact ⟨hreq, h.sctlr, h.toggles⟩
    · refine ⟨?_, h.sctlr, h.toggles⟩
      simp only [Function.update_self]
      rw [CpuFeature.isRequestedBy_request, if_pos rfl]
  · rw [if_neg hv]
    split_ifs
    · exact h
    · refine h.congr ?_ rfl rfl
      simp only [Function.update_of_ne (Ne.symm hv)]

omit [LinearOrder ρ] in
theorem flushes_append (vcpu : ℕ) (s : RegSys ρ) (e : RegEffect) :
    ({ s with done := s.done ++ [e] } : RegSys ρ).flushes vcpu =
      s.flushes vcpu + if e = .flushGuestAs vcpu then 1 else 0 := by
  simp only [flushes, List.count_append, List.count_singleton, beq_iff_eq]

omit [LinearOrder ρ] in
/-- **A trapped write of `SCTLR_EL1`.** -/
theorem Watched.flushOnCacheToggle {n : ℕ} (h : Watched vcpu n w s) :
    Watched vcpu n (if v = vcpu then w.writeSctlr value else w) (s.flushOnCacheToggle v value) := by
  have hother (hv : v ≠ vcpu) : Watched vcpu n w (s.flushOnCacheToggle v value) := by
    have hne : RegEffect.flushGuestAs v ≠ .flushGuestAs vcpu := by simpa using hv
    unfold RegSys.flushOnCacheToggle
    dsimp only
    split_ifs
    · exact h
    · refine h.congr ?_ rfl ?_
      · simp only [Function.update_of_ne (Ne.symm hv)]
      · exact (flushes_append _ s _).trans (by rw [if_neg hne, Nat.add_zero])
    · refine h.congr ?_ rfl rfl
      simp only [Function.update_of_ne (Ne.symm hv)]
    · exact h.congr rfl rfl ((flushes_append _ s _).trans (by rw [if_neg hne, Nat.add_zero]))
    · exact h
  by_cases hv : v = vcpu
  · subst hv
    rw [if_pos rfl]
    obtain ⟨hcleaned, hsctlr, htoggles⟩ := h
    have hrequest (f : CpuFeature) : (f.request false .vmm 0).isRequestedBy .vmm = false := by
      rw [CpuFeature.isRequestedBy_request, if_pos rfl]
    unfold RegSys.flushOnCacheToggle CacheWatch.writeSctlr
    rw [hcleaned, hsctlr]
    dsimp only
    cases hw : w.cleaned with
    | false => exact ⟨hcleaned.trans hw, hsctlr, htoggles⟩
    | true =>
        have hflush := (flushes_append v s (.flushGuestAs v)).trans
          (by rw [if_pos rfl, htoggles])
        cases hbefore : cacheEnabled w.sctlr <;> cases hafter : cacheEnabled value
        · exact ⟨hcleaned.trans hw, hsctlr, htoggles⟩
        · exact ⟨by simp [hrequest], hsctlr, hflush⟩
        · exact ⟨hcleaned.trans hw, hsctlr, hflush⟩
        · exact ⟨by simp [hrequest], hsctlr, htoggles⟩
  · rw [if_neg hv]
    exact hother hv

theorem accessObj_other (vcpu : ℕ) (h : s.accessObj r v a value = some (err, value', s'))
    (hsetway : (s.regs.obj r).isSetWay = false) (hsctlr : (s.regs.obj r).isSctlr = false) :
    s'.tvm = s.tvm ∧ s'.sctlr = s.sctlr ∧ s'.flushes vcpu = s.flushes vcpu := by
  cases hobj : s.regs.obj r with
  | register reg =>
      rw [accessObj_register hobj, Option.some.injEq, Prod.mk.injEq, Prod.mk.injEq] at h
      obtain ⟨-, -, rfl⟩ := h
      exact ⟨rfl, rfl, rfl⟩
  | setWayFlush reg =>
      simp [hobj, RegObj.isSetWay] at hsetway
  | ccsidr csselr clidr sizes =>
      simp only [accessObj, hobj] at h
      split_ifs at h with ha
      · cases h
        exact ⟨rfl, rfl, rfl⟩
      · split at h
        · split at h <;> cases h <;> exact ⟨rfl, rfl, rfl⟩
        · cases h
  | cntpCtl reg =>
      rw [accessObj_cntpCtl hobj, Option.some.injEq, Prod.mk.injEq, Prod.mk.injEq] at h
      obtain ⟨-, -, rfl⟩ := h
      split_ifs <;> exact ⟨rfl, rfl, rfl⟩
  | cntpCval reg =>
      rw [accessObj_cntpCval hobj, Option.some.injEq, Prod.mk.injEq, Prod.mk.injEq] at h
      obtain ⟨-, -, rfl⟩ := h
      split_ifs <;> exact ⟨rfl, rfl, rfl⟩
  | sctlr =>
      simp [hobj, RegObj.isSctlr] at hsctlr
  | iccSgi1r =>
      simp only [accessObj, hobj] at h
      split_ifs at h
      · cases h
        exact ⟨rfl, rfl, rfl⟩
      · cases h
        exact ⟨rfl, rfl, flushes_append _ s _⟩
  | wtrapped | cntpct | cntpTval reg =>
      simp only [accessObj, hobj] at h
      split_ifs at h <;> cases h <;> exact ⟨rfl, rfl, rfl⟩

/-- The access to an object, of which it is known what has to do with the caches. -/
theorem Watched.accessObj {n : ℕ} (h : Watched vcpu n w s)
    (hacc : s.accessObj r v a value = some (err, value', s'))
    (hsetway : id ∈ setwayIds ↔ (s.regs.obj r).isSetWay = true)
    (hsctlr : id = sctlrEl1.toUInt64 ↔ (s.regs.obj r).isSctlr = true) :
    Watched vcpu n (w.step vcpu (.access v a id value)) s' := by
  rw [CacheWatch.step]
  cases hway : (s.regs.obj r).isSetWay with
  | true =>
      rw [if_pos (hsetway.2 hway)]
      cases hobj : s.regs.obj r with
      | setWayFlush reg =>
          rw [accessObj_setWayFlush hobj, Option.some.injEq, Prod.mk.injEq, Prod.mk.injEq] at hacc
          obtain ⟨-, -, rfl⟩ := hacc
          have hset : Watched vcpu n w (s.setObj r (.setWayFlush (reg.access a value).2.2)) :=
            h.congr rfl rfl rfl
          by_cases ha : a = .write
          · simp only [ha, and_true, if_true]
            exact ha ▸ hset.flush
          · simp only [ha, and_false, if_false]
            exact hset
      | _ => simp [hobj, RegObj.isSetWay] at hway
  | false =>
      rw [hway] at hsetway
      rw [if_neg (fun hid => Bool.false_ne_true (hsetway.1 hid))]
      cases hsc : (s.regs.obj r).isSctlr with
      | true =>
          rw [if_pos (hsctlr.2 hsc)]
          cases hobj : s.regs.obj r with
          | sctlr =>
              simp only [RegSys.accessObj, hobj] at hacc
              split_ifs at hacc with ha
              cases hacc
              simp only [ha, and_true]
              exact h.flushOnCacheToggle
          | _ => simp [hobj, RegObj.isSctlr] at hsc
      | false =>
          rw [hsc] at hsctlr
          rw [if_neg (fun hid => Bool.false_ne_true (hsctlr.1 hid)), ite_self]
          obtain ⟨htvm, hreg, hflushes⟩ := accessObj_other vcpu hacc hway hsc
          exact h.congr (by rw [htvm]) (by rw [hreg]) hflushes

/-- The ids of the cache registers lead to them, in whatever state. -/
def CacheIds (s : RegSys ρ) : Prop :=
  ∀ id, (id ∈ setwayIds ↔
      ∃ r, s.regs.bus.getDeviceAt id = some r ∧ (s.regs.obj r).isSetWay = true) ∧
    (id = sctlrEl1.toUInt64 ↔
      ∃ r, s.regs.bus.getDeviceAt id = some r ∧ (s.regs.obj r).isSctlr = true)

theorem CacheIds.next {act : RegAct} (h : CacheIds s) (hstep : s.next act = some s') :
    CacheIds s' := by
  obtain ⟨hdevices, hreset⟩ := next_frame hstep
  have hway (r : ρ) : (s'.regs.obj r).isSetWay = (s.regs.obj r).isSetWay := by
    rw [← RegObj.isSetWay_reset, hreset, RegObj.isSetWay_reset]
  have hsctlr (r : ρ) : (s'.regs.obj r).isSctlr = (s.regs.obj r).isSctlr := by
    rw [← RegObj.isSctlr_reset, hreset, RegObj.isSctlr_reset]
  intro id
  simp only [BaseBus.getDeviceAt, hdevices, hway, hsctlr]
  exact h id

/-- **A step** is one of the vCPU, or does not matter. -/
theorem Watched.next {n : ℕ} {act : RegAct} (h : Watched vcpu n w s) (hids : CacheIds s)
    (hstep : s.next act = some s') : Watched vcpu n (w.step vcpu act) s' := by
  cases act with
  | access v a id val =>
      obtain ⟨⟨err, value, t⟩, hacc, rfl⟩ := Option.map_eq_some_iff.1 hstep
      obtain ⟨hnone, -, -, rfl⟩ | ⟨r, bus, hr, -, hobj⟩ := access_cases hacc
      · -- nothing is there
        have hway : id ∉ setwayIds := fun hid => by
          obtain ⟨r, hr, -⟩ := (hids id).1.1 hid
          rw [hnone] at hr
          exact absurd hr nofun
        have hsctlr : id ≠ sctlrEl1.toUInt64 := fun hid => by
          obtain ⟨r, hr, -⟩ := (hids id).2.1 hid
          rw [hnone] at hr
          exact absurd hr nofun
        rw [CacheWatch.step, if_neg hway, if_neg hsctlr, ite_self]
        exact h
      · have hbus : Watched vcpu n w (s.withBus bus) := h.congr rfl rfl rfl
        refine hbus.accessObj hobj ((hids id).1.trans ?_) ((hids id).2.trans ?_)
        · simp only [hr, Option.some.injEq, exists_eq_left']
          rfl
        · simp only [hr, Option.some.injEq, exists_eq_left']
          rfl
  | reset => cases hstep; exact h.congr rfl rfl rfl
  | vmiTvm v enable regs =>
      cases hstep
      refine h.congr ?_ rfl rfl
      by_cases hv : vcpu = v
      · subst hv
        simp only [Function.update_self]
        rw [CpuFeature.isRequestedBy_request, if_neg nofun]
      · simp only [Function.update_of_ne hv]
  | clean v =>
      cases hstep
      refine h.congr ?_ rfl rfl
      by_cases hv : vcpu = v
      · subst hv
        simp only [Function.update_self]
        rfl
      · simp only [Function.update_of_ne hv]
  | setSctlr v value =>
      cases hstep
      rw [CacheWatch.step]
      by_cases hv : v = vcpu
      · subst hv
        rw [if_pos rfl]
        exact ⟨h.cleaned, Function.update_self .., h.toggles⟩
      · rw [if_neg hv]
        exact h.congr rfl (Function.update_of_ne (Ne.symm hv) ..) rfl
  | setCntvoff v value => cases hstep; exact h.congr rfl rfl rfl
  | tick clock => cases hstep; exact h.congr rfl rfl rfl
  | timerStatus set => cases hstep; exact h.congr rfl rfl rfl

theorem CacheIds.write (h : CacheIds s) (hid : id ∈ setwayIds ∨ id = sctlrEl1.toUInt64) (v : ℕ)
    (value : UInt64) : ∃ s', s.next (.access v .write id value) = some s' ∧ CacheIds s' := by
  obtain ⟨r, hr, hobj⟩ : ∃ r, s.regs.bus.getDeviceAt id = some r ∧
      ((s.regs.obj r).isSetWay = true ∨ (s.regs.obj r).isSctlr = true) := by
    obtain hid | hid := hid
    · obtain ⟨r, hr, hway⟩ := (h id).1.1 hid
      exact ⟨r, hr, .inl hway⟩
    · obtain ⟨r, hr, hsctlr⟩ := (h id).2.1 hid
      exact ⟨r, hr, .inr hsctlr⟩
  obtain ⟨bus, -, hacc⟩ := access_found (a := .write) (by decide) hr
  have hsome : ∃ res, (s.withBus bus).accessObj r v .write value = some res := by
    cases hcase : s.regs.obj r with
    | setWayFlush reg => exact ⟨_, accessObj_setWayFlush (s := s.withBus bus) hcase⟩
    | sctlr =>
        simp only [RegSys.accessObj, show (s.withBus bus).regs.obj r = .sctlr from hcase]
        exact ⟨_, rfl⟩
    | _ => simp [hcase, RegObj.isSetWay, RegObj.isSctlr] at hobj
  obtain ⟨⟨err, value', t⟩, ht⟩ := hsome
  have hstep : s.next (.access v .write id value) = some t := by rw [RegSys.next, hacc, ht]; rfl
  exact ⟨t, hstep, h.next hstep⟩

theorem Watched.run {n : ℕ} (h : Watched vcpu n w s) (hids : CacheIds s)
    (hrun : acts.foldlM RegSys.next s = some s') :
    Watched vcpu n (acts.foldl (CacheWatch.step vcpu) w) s' := by
  induction acts generalizing s w with
  | nil => cases hrun; exact h
  | cons act acts ih =>
      rw [List.foldlM_cons, Option.bind_eq_bind, Option.bind_eq_some_iff] at hrun
      obtain ⟨t, hstep, hrest⟩ := hrun
      exact ih (h.next hids hstep) (hids.next hstep) hrest

/-- **The guest's memory is flushed when a vCPU turns its cache off or on** after it has cleaned by
set and way, since it turned the cache on last. What the introspection asks for, what other vCPUs
do, resets of the bus and accesses to other registers make no difference to how often. -/
theorem flushes_eq (hsetUp : SetUpBy calls s.regs) {info : PlatformInfo} {gicV3 : Bool}
    (hc : SetUpCall.archMsr info gicV3 ∈ calls) (hrun : acts.foldlM next s = some s') (vcpu : ℕ) :
    s'.flushes vcpu = s.flushes vcpu + (acts.foldl (CacheWatch.step vcpu)
      { cleaned := (s.tvm vcpu).isRequestedBy .vmm, sctlr := s.sctlr vcpu }).toggles := by
  have hstart : Watched vcpu (s.flushes vcpu)
      { cleaned := (s.tvm vcpu).isRequestedBy .vmm, sctlr := s.sctlr vcpu } s := ⟨rfl, rfl, rfl⟩
  exact (hstart.run (hsetUp.cache_ids hc) hrun).toggles

/-- A guest that cleans by set and way and turns its cache on. -/
theorem flushes_on_cache_toggle : ∃ s s' : RegSys ℕ, SetUpBy [.archMsr {} true] s.regs ∧
    [.access 0 .write dciswA64.toUInt64 2,
      .access 0 .write sctlrEl1.toUInt64 0x5].foldlM next s = some s' ∧ s'.flushes 0 = 1 := by
  have hkinds : ([.archMsr {} true] : List SetUpCall).map SetUpCall.kind = [.archMsr] := rfl
  have hnodup : (([.archMsr {} true] : List SetUpCall).map SetUpCall.kind).Nodup := by
    rw [hkinds]
    decide
  obtain ⟨t, hsetUp⟩ := exists_setUpBy hnodup
  have hids : CacheIds ({ regs := t } : RegSys ℕ) := hsetUp.cache_ids List.mem_cons_self
  obtain ⟨u, hu, hids⟩ := hids.write (.inl (List.mem_cons_self ..)) 0 2
  obtain ⟨s', hs', -⟩ := hids.write (.inr rfl) 0 0x5
  have hrun : [.access 0 .write dciswA64.toUInt64 2,
      .access 0 .write sctlrEl1.toUInt64 0x5].foldlM next ({ regs := t } : RegSys ℕ) = some s' := by
    rw [List.foldlM_cons, hu, Option.bind_eq_bind, Option.bind_some, List.foldlM_cons, hs']
    rfl
  refine ⟨_, s', hsetUp, hrun, ?_⟩
  have htoggles : ([.access 0 .write dciswA64.toUInt64 2,
      .access 0 .write sctlrEl1.toUInt64 0x5].foldl (CacheWatch.step 0)
        { cleaned := CpuFeature.isRequestedBy {} .vmm }).toggles = 1 := by
    decide +kernel
  rw [flushes_eq hsetUp List.mem_cons_self hrun 0]
  exact (Nat.zero_add _).trans htoggles

end RegSys

end Msr

end Vml
