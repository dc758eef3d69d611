import Vml.Lib.Run
import Vml.Platform

/-!
# The reconfiguration of a vCPU

`cpu_feature.hpp`: the VMM and the introspection (VMI) request features of a vCPU, which reads what
they request and applies it. A `CpuFeature` has a word for each requestor and a dirty bit, all of
them atomics of their own; a `CpuFlag` has the bits of the requestors and the dirty bit in one byte.

**Turns.** Every load and store of an atomic is a turn. A requestor makes one call after another,
and so does the vCPU, but their turns come in any order. What the vCPU has read and is told to be
new it applies; what it is told not to be new it may as well ignore.

**What has been read.** A word that the vCPU has read or applied is the requestor's word, unless the
dirty bit is up or the requestor is about to put it up (`Fresh`). A requestor that changes its word
owes the dirty bit, and the vCPU takes the bit down before it reads.

Main results: `FeatureSys.sound_run`, `FlagSys.sound_run` and `no_reconfiguration_lost`.
-/

namespace Vml

/-- `Request::Requestor`. -/
inductive Requestor
  | vmm
  | vmi
  deriving DecidableEq, Repr

/-- Whether a feature is on, and the registers it is to report. -/
structure Configuration where
  enabled : Bool := false
  regs : UInt64 := 0
  deriving DecidableEq, Repr

/-- `ENABLE_MASK`. -/
abbrev enableMask : UInt64 := 0x8000000000000000

/-- `CpuFeature`. -/
structure CpuFeature where
  requests : Requestor → UInt64 := fun _ => 0
  dirty : Bool := false

namespace CpuFeature

/-- The word of a request. -/
def word (enable : Bool) (regs : UInt64) : UInt64 := if enable then regs ||| enableMask else 0

/-- What `read` makes of the two words. -/
def decode (vmm vmi : UInt64) : Configuration :=
  let conf := vmm ||| vmi
  let enabled := conf &&& enableMask != 0
  { enabled := enabled
    -- force empty registers when the feature is disabled
    regs := if enabled then conf &&& ~~~enableMask else 0 }

/-- The store of `request`. -/
def store (f : CpuFeature) (r : Requestor) (enable : Bool) (regs : UInt64) : CpuFeature :=
  { f with requests := Function.update f.requests r (word enable regs) }

/-- `force_reconfiguration`. -/
def forceReconfiguration (f : CpuFeature) : CpuFeature := { f with dirty := true }

/-- `clean`, and the store of `check_clean`. -/
def clean (f : CpuFeature) : CpuFeature := { f with dirty := false }

/-- `needs_reconfiguration`. -/
def needsReconfiguration (f : CpuFeature) : Bool := f.dirty

end CpuFeature

namespace CpuFeature

theorem or_and_distrib (a b m : UInt64) : (a ||| b) &&& m = (a &&& m) ||| (b &&& m) := by
  rw [← UInt64.toBitVec_inj]
  exact BitVec.and_or_distrib_right

theorem and_not_of_and_eq_zero {a m : UInt64} (h : m &&& a = 0) : a &&& ~~~m = a := by
  rw [← UInt64.toBitVec_inj] at h ⊢
  refine BitVec.eq_of_getElem_eq fun i hi => ?_
  have hbit := congrArg (fun v : BitVec 64 => v[i]) h
  simp only [UInt64.toBitVec_and, UInt64.toBitVec_not, BitVec.getElem_and, BitVec.getElem_not,
    UInt64.toBitVec_zero, BitVec.getElem_zero] at hbit ⊢
  generalize m.toBitVec[i] = x at hbit ⊢
  generalize a.toBitVec[i] = y at hbit ⊢
  revert hbit
  cases x <;> cases y <;> decide

variable {regs : UInt64}

theorem word_and_enableMask (enable : Bool) (h : enableMask &&& regs = 0) :
    word enable regs &&& enableMask = if enable then enableMask else 0 := by
  cases enable with
  | false => exact UInt64.zero_and
  | true =>
      rw [word, if_pos rfl, or_and_distrib, UInt64.and_comm, h, UInt64.and_self, UInt64.zero_or]
      rfl

theorem word_and_not_enableMask (enable : Bool) (h : enableMask &&& regs = 0) :
    word enable regs &&& ~~~enableMask = if enable then regs else 0 := by
  cases enable with
  | false => exact UInt64.zero_and
  | true =>
      have hmask : enableMask &&& ~~~enableMask = 0 := by decide
      rw [word, if_pos rfl, or_and_distrib, and_not_of_and_eq_zero h, hmask, UInt64.or_zero]
      rfl

/-- **What is read** of two words is what they ask for together. -/
theorem decode_word (a b : Configuration) (ha : enableMask &&& a.regs = 0)
    (hb : enableMask &&& b.regs = 0) :
    decode (word a.enabled a.regs) (word b.enabled b.regs) =
      ⟨a.enabled || b.enabled,
        (if a.enabled then a.regs else 0) ||| (if b.enabled then b.regs else 0)⟩ := by
  have henabled : ((if a.enabled then enableMask else 0) ||| (if b.enabled then enableMask else 0)
      != 0) = (a.enabled || b.enabled) := by
    cases a.enabled <;> cases b.enabled <;> decide
  rw [decode, or_and_distrib, or_and_distrib, word_and_enableMask _ ha, word_and_enableMask _ hb,
    word_and_not_enableMask _ ha, word_and_not_enableMask _ hb]
  rw [henabled]
  cases a.enabled <;> cases b.enabled <;> simp

end CpuFeature

/-! ## A feature -/

/-- Where a requestor is in `request`. -/
inductive RequestTask
  | idle
  | store (enable : Bool) (regs : UInt64)
  | force
  deriving DecidableEq, Repr

/-- Where the vCPU is in `check_clean_read` or `clean_read`. -/
inductive ReadTask
  | idle
  /-- `check_clean` loads the dirty bit. -/
  | loadDirty (always : Bool)
  /-- The bit was up, or `clean_read` does not ask. -/
  | clean
  /-- `read` loads the word of the VMM. -/
  | loadVmm (dirty : Bool)
  /-- `read` loads the word of the VMI. -/
  | loadVmi (dirty : Bool) (vmm : UInt64)
  /-- The configuration has been read. -/
  | done (dirty : Bool) (conf : Configuration)
  deriving DecidableEq, Repr

/-- A feature, its requestors and its vCPU. `asked` is what each requestor last asked for, and
`applied` what the vCPU last applied. -/
structure FeatureSys where
  feature : CpuFeature := {}
  asked : Requestor → Configuration := fun _ => {}
  applied : Configuration := {}
  request : Requestor → RequestTask := fun _ => .idle
  vcpu : ReadTask := .idle

/-- A call, or a turn in one. -/
inductive FeatureAct
  | request (r : Requestor) (enable : Bool) (regs : UInt64)
  | requestor (r : Requestor)
  | checkCleanRead (always : Bool)
  | cleanRead
  | vcpu
  | apply
  | ignore
  deriving DecidableEq, Repr

namespace FeatureSys

/-- A turn of a requestor. -/
def requestTurn (s : FeatureSys) (r : Requestor) : Option FeatureSys :=
  match s.request r with
  | .idle => none
  | .store enable regs => some { s with
      feature := s.feature.store r enable regs
      asked := Function.update s.asked r { enabled := enable, regs := regs }
      request := Function.update s.request r .force }
  | .force => some { s with
      feature := s.feature.forceReconfiguration
      request := Function.update s.request r .idle }

/-- A turn of the vCPU. -/
def readTurn (s : FeatureSys) : Option FeatureSys :=
  match s.vcpu with
  | .idle => none
  | .loadDirty always =>
      if s.feature.dirty then some { s with vcpu := .clean }
      else if always then some { s with vcpu := .loadVmm false }
      else some { s with vcpu := .idle }
  | .clean => some { s with feature := s.feature.clean, vcpu := .loadVmm true }
  | .loadVmm dirty => some { s with vcpu := .loadVmi dirty (s.feature.requests .vmm) }
  | .loadVmi dirty vmm =>
      some { s with vcpu := .done dirty (CpuFeature.decode vmm (s.feature.requests .vmi)) }
  | .done _ _ => none

/-- The call, or the turn. A request for the register of the enable bit fails an assertion. -/
def next (s : FeatureSys) : FeatureAct → Option FeatureSys
  | .request r enable regs =>
      if s.request r = .idle ∧ enableMask &&& regs = 0 then
        some { s with request := Function.update s.request r (.store enable regs) }
      else none
  | .requestor r => s.requestTurn r
  | .checkCleanRead always =>
      if s.vcpu = .idle then some { s with vcpu := .loadDirty always } else none
  | .cleanRead => if s.vcpu = .idle then some { s with vcpu := .clean } else none
  | .vcpu => s.readTurn
  | .apply =>
      match s.vcpu with
      | .done _ conf => some { s with applied := conf, vcpu := .idle }
      | _ => none
  | .ignore =>
      match s.vcpu with
      | .done false _ => some { s with vcpu := .idle }
      | _ => none

/-- No call is in progress. -/
def Quiet (s : FeatureSys) : Prop := (∀ r, s.request r = .idle) ∧ s.vcpu = .idle

/-- What the requestors ask for together. -/
def union (s : FeatureSys) : Configuration where
  enabled := (s.asked .vmm).enabled || (s.asked .vmi).enabled
  regs := (if (s.asked .vmm).enabled then (s.asked .vmm).regs else 0) |||
    (if (s.asked .vmi).enabled then (s.asked .vmi).regs else 0)

/-! ## What has been read -/

/-- The word is the requestor's, unless the dirty bit is up or about to be put up. -/
def Fresh (s : FeatureSys) (r : Requestor) (v : UInt64) : Prop :=
  v = s.feature.requests r ∨ s.feature.dirty = true ∨ s.request r = .force

/-- The configuration is that of words that are fresh. -/
def FreshConf (s : FeatureSys) (conf : Configuration) : Prop :=
  ∃ vmm vmi, s.Fresh .vmm vmm ∧ s.Fresh .vmi vmi ∧ conf = CpuFeature.decode vmm vmi

/-- What the vCPU has read is fresh. What it has applied is fresh too, unless it has taken the dirty
bit down, or is about to, and will apply what it reads. -/
def ReadOk (s : FeatureSys) : ReadTask → Prop
  | .idle => s.FreshConf s.applied
  | .loadDirty _ => s.FreshConf s.applied
  | .clean => True
  | .loadVmm dirty => dirty = false → s.FreshConf s.applied
  | .loadVmi dirty vmm => s.Fresh .vmm vmm ∧ (dirty = false → s.FreshConf s.applied)
  | .done dirty conf => s.FreshConf conf ∧ (dirty = false → s.FreshConf s.applied)

/-- The words are those of what was last asked for, which is in registers that can be asked for. -/
structure Sound (s : FeatureSys) : Prop where
  requests : ∀ r, s.feature.requests r = CpuFeature.word (s.asked r).enabled (s.asked r).regs
  regs : ∀ r, enableMask &&& (s.asked r).regs = 0
  store : ∀ r enable regs, s.request r = .store enable regs → enableMask &&& regs = 0
  read : s.ReadOk s.vcpu

variable {s s' : FeatureSys} {conf : Configuration} {r : Requestor} {v : UInt64}

theorem FreshConf.mono (h : s.FreshConf conf) (hfresh : ∀ r v, s.Fresh r v → s'.Fresh r v) :
    s'.FreshConf conf := by
  obtain ⟨vmm, vmi, hvmm, hvmi, heq⟩ := h
  exact ⟨vmm, vmi, hfresh _ _ hvmm, hfresh _ _ hvmi, heq⟩

theorem ReadOk.mono {t : ReadTask} (h : s.ReadOk t) (hfresh : ∀ r v, s.Fresh r v → s'.Fresh r v)
    (happlied : s'.applied = s.applied) : s'.ReadOk t := by
  have hkept (h : s.FreshConf s.applied) : s'.FreshConf s'.applied := by
    rw [happlied]
    exact h.mono hfresh
  cases t with
  | idle => exact hkept h
  | loadDirty always => exact hkept h
  | clean => trivial
  | loadVmm dirty => exact fun hd => hkept (h hd)
  | loadVmi dirty vmm => exact ⟨hfresh _ _ h.1, fun hd => hkept (h.2 hd)⟩
  | done dirty conf => exact ⟨h.1.mono hfresh, fun hd => hkept (h.2 hd)⟩

/-- A requestor's word is fresh, whatever its value, while the requestor owes the dirty bit. -/
theorem fresh_update_force {feature : CpuFeature} {asked : Requestor → Configuration}
    (hother : ∀ q, q ≠ r → feature.requests q = s.feature.requests q)
    (hdirty : feature.dirty = s.feature.dirty) (q : Requestor) (v : UInt64) (h : s.Fresh q v) :
    ({ s with feature := feature, asked := asked,
              request := Function.update s.request r .force } : FeatureSys).Fresh q v := by
  by_cases hq : q = r
  · exact .inr (.inr (by rw [hq]; exact Function.update_self ..))
  · rcases h with h | h | h
    · exact .inl (h.trans (hother q hq).symm)
    · exact .inr (.inl (hdirty.trans h))
    · exact .inr (.inr ((Function.update_of_ne hq ..).trans h))

/-- **A requestor's turn** leaves fresh what is fresh. -/
theorem Sound.requestTurn (h : s.Sound) (hturn : s.requestTurn r = some s') : s'.Sound := by
  rw [FeatureSys.requestTurn] at hturn
  cases htask : s.request r with
  | idle =>
      rw [htask] at hturn
      cases hturn
  | store enable regs =>
      rw [htask] at hturn
      obtain rfl := Option.some.inj hturn
      refine ⟨fun q => ?_, fun q => ?_, fun q e g hq => ?_, ?_⟩
      · by_cases hq : q = r
        · subst hq
          simp [CpuFeature.store]
        · simpa [CpuFeature.store, Function.update_of_ne hq] using h.requests q
      · by_cases hq : q = r
        · subst hq
          simpa using h.store q enable regs htask
        · simpa [Function.update_of_ne hq] using h.regs q
      · by_cases hqr : q = r
        · subst hqr
          simp at hq
        · exact h.store q e g (by simpa [Function.update_of_ne hqr] using hq)
      · exact h.read.mono (fresh_update_force (fun q hq => Function.update_of_ne hq ..) rfl) rfl
  | force =>
      rw [htask] at hturn
      obtain rfl := Option.some.inj hturn
      refine ⟨h.requests, h.regs, fun q e g hq => ?_, ?_⟩
      · by_cases hqr : q = r
        · subst hqr
          simp at hq
        · exact h.store q e g (by simpa [Function.update_of_ne hqr] using hq)
      · exact h.read.mono (fun q v _ => .inr (.inl rfl)) rfl

/-- **A turn of the vCPU**: it reads words that are fresh. -/
theorem Sound.readTurn (h : s.Sound) (hturn : s.readTurn = some s') : s'.Sound := by
  have hread := h.read
  rw [FeatureSys.readTurn] at hturn
  cases htask : s.vcpu with
  | idle =>
      rw [htask] at hturn
      cases hturn
  | loadDirty always =>
      rw [htask] at hturn hread
      dsimp only at hturn
      split_ifs at hturn with hdirty halways
      · obtain rfl := Option.some.inj hturn
        exact ⟨h.requests, h.regs, h.store, trivial⟩
      · obtain rfl := Option.some.inj hturn
        exact ⟨h.requests, h.regs, h.store, fun _ => hread⟩
      · obtain rfl := Option.some.inj hturn
        exact ⟨h.requests, h.regs, h.store, hread⟩
  | clean =>
      rw [htask] at hturn
      obtain rfl := Option.some.inj hturn
      exact ⟨h.requests, h.regs, h.store, nofun⟩
  | loadVmm dirty =>
      rw [htask] at hturn hread
      obtain rfl := Option.some.inj hturn
      exact ⟨h.requests, h.regs, h.store, .inl rfl, hread⟩
  | loadVmi dirty vmm =>
      rw [htask] at hturn hread
      obtain rfl := Option.some.inj hturn
      exact ⟨h.requests, h.regs, h.store, ⟨vmm, _, hread.1, .inl rfl, rfl⟩, hread.2⟩
  | done dirty conf =>
      rw [htask] at hturn
      cases hturn

/-- **A call or a turn.** -/
theorem Sound.next (h : s.Sound) {a : FeatureAct} (hnext : s.next a = some s') : s'.Sound := by
  have hread := h.read
  cases a with
  | request r enable regs =>
      rw [FeatureSys.next] at hnext
      split_ifs at hnext with hcall
      obtain rfl := Option.some.inj hnext
      refine ⟨h.requests, h.regs, fun q e g hq => ?_, h.read.mono (fun q v hfresh => ?_) rfl⟩
      · by_cases hqr : q = r
        · subst hqr
          obtain ⟨rfl, rfl⟩ : enable = e ∧ regs = g := by simpa using hq
          exact hcall.2
        · exact h.store q e g (by simpa [Function.update_of_ne hqr] using hq)
      · rcases hfresh with hv | hdirty | hforce
        · exact .inl hv
        · exact .inr (.inl hdirty)
        · refine .inr (.inr ((Function.update_of_ne (fun heq => ?_) ..).trans hforce))
          rw [heq, hcall.1] at hforce
          cases hforce
  | requestor r => exact h.requestTurn hnext
  | checkCleanRead always =>
      rw [FeatureSys.next] at hnext
      split_ifs at hnext with hidle
      obtain rfl := Option.some.inj hnext
      rw [hidle] at hread
      exact ⟨h.requests, h.regs, h.store, hread⟩
  | cleanRead =>
      rw [FeatureSys.next] at hnext
      split_ifs at hnext with hidle
      obtain rfl := Option.some.inj hnext
      exact ⟨h.requests, h.regs, h.store, trivial⟩
  | vcpu => exact h.readTurn hnext
  | apply =>
      rw [FeatureSys.next] at hnext
      split at hnext
      · next dirty conf htask =>
          obtain rfl := Option.some.inj hnext
          rw [htask] at hread
          exact ⟨h.requests, h.regs, h.store, hread.1⟩
      · cases hnext
  | ignore =>
      rw [FeatureSys.next] at hnext
      split at hnext
      · next conf htask =>
          obtain rfl := Option.some.inj hnext
          rw [htask] at hread
          exact ⟨h.requests, h.regs, h.store, hread.2 rfl⟩
      · cases hnext

theorem sound_init : ({} : FeatureSys).Sound where
  requests _ := rfl
  regs _ := by
    show enableMask &&& 0 = 0
    decide
  store := nofun
  read := ⟨0, 0, .inl rfl, .inl rfl, rfl⟩

/-- **In every run** what the vCPU has read and applied is fresh. -/
theorem sound_run {acts : List FeatureAct}
    (h : Run (fun s a s' => FeatureSys.next s a = some s') {} acts s) : s.Sound :=
  h.invariant (fun _ _ _ hu hnext => hu.next hnext) sound_init

/-- **When no call is in progress** and no reconfiguration is needed, what has been applied is what
is asked for. -/
theorem Sound.applied_eq (h : s.Sound) (hquiet : s.Quiet)
    (hclean : s.feature.needsReconfiguration = false) : s.applied = s.union := by
  have hread := h.read
  rw [hquiet.2] at hread
  obtain ⟨vmm, vmi, hvmm, hvmi, happlied⟩ := hread
  have hfresh {r : Requestor} {v : UInt64} (hv : s.Fresh r v) :
      v = CpuFeature.word (s.asked r).enabled (s.asked r).regs := by
    rcases hv with hv | hdirty | hforce
    · exact hv.trans (h.requests r)
    · exact absurd (hclean.symm.trans hdirty) nofun
    · exact absurd ((hquiet.1 r).symm.trans hforce) nofun
  rw [happlied, hfresh hvmm, hfresh hvmi,
    CpuFeature.decode_word _ _ (h.regs .vmm) (h.regs .vmi)]
  rfl

end FeatureSys

/-! ## A flag -/

/-- `CpuFlag`, one byte. -/
structure CpuFlag where
  requests : UInt8 := 0
  deriving DecidableEq, Repr

namespace CpuFlag

/-- `DIRTY`. -/
abbrev dirty : UInt8 := 4

/-- `ONLY_DATA`. -/
abbrev onlyData : UInt8 := 3

/-- `requestor_bit`. -/
def requestorBit : Requestor → UInt8
  | .vmm => 1
  | .vmi => 2

/-- `is_requested_by`. -/
def isRequestedBy (f : CpuFlag) (r : Requestor) : Bool := f.requests &&& requestorBit r != 0

/-- `is_requested`, and what `read` reads. -/
def isRequested (f : CpuFlag) : Bool := f.requests &&& onlyData != 0

/-- `needs_reconfiguration`. -/
def needsReconfiguration (f : CpuFlag) : Bool := f.requests &&& dirty != 0

/-- The `fetch_or` or the `fetch_and` of `request`. -/
def store (f : CpuFlag) (r : Requestor) (enable : Bool) : CpuFlag :=
  if enable then ⟨f.requests ||| requestorBit r⟩ else ⟨f.requests &&& ~~~requestorBit r⟩

/-- `force_reconfiguration`. -/
def forceReconfiguration (f : CpuFlag) : CpuFlag := ⟨f.requests ||| dirty⟩

/-- `clean`, and the `fetch_and` of `check_clean_read` and the `and_fetch` of `clean_read`. -/
def clean (f : CpuFlag) : CpuFlag := ⟨f.requests &&& onlyData⟩

end CpuFlag

/-- Where a requestor is in `request`. -/
inductive FlagTask
  | idle
  | store (enable : Bool)
  | force
  deriving DecidableEq, Repr

/-- A flag, its requestors and its vCPU. The vCPU has read `enabled`, and been told whether it is
new. `asked` is what each requestor last asked for, and `applied` what the vCPU last applied. -/
structure FlagSys where
  flag : CpuFlag := {}
  asked : Requestor → Bool := fun _ => false
  applied : Bool := false
  request : Requestor → FlagTask := fun _ => .idle
  vcpu : Option (Bool × Bool) := none

/-- A call, or a turn in one. -/
inductive FlagAct
  | request (r : Requestor) (enable : Bool)
  | requestor (r : Requestor)
  | checkCleanRead
  | cleanRead
  | apply
  | ignore
  deriving DecidableEq, Repr

namespace FlagSys

/-- A turn of a requestor. -/
def requestTurn (s : FlagSys) (r : Requestor) : Option FlagSys :=
  match s.request r with
  | .idle => none
  | .store enable => some { s with
      flag := s.flag.store r enable
      asked := Function.update s.asked r enable
      request := Function.update s.request r .force }
  | .force => some { s with
      flag := s.flag.forceReconfiguration
      request := Function.update s.request r .idle }

/-- The call, or the turn. -/
def next (s : FlagSys) : FlagAct → Option FlagSys
  | .request r enable =>
      if s.request r = .idle then
        some { s with request := Function.update s.request r (.store enable) }
      else none
  | .requestor r => s.requestTurn r
  | .checkCleanRead =>
      if s.vcpu = none then some { s with
        flag := s.flag.clean
        vcpu := some (s.flag.isRequested, s.flag.needsReconfiguration) }
      else none
  | .cleanRead =>
      if s.vcpu = none then some { s with
        flag := s.flag.clean
        vcpu := some (s.flag.clean.requests != 0, true) }
      else none
  | .apply =>
      match s.vcpu with
      | some (enabled, _) => some { s with applied := enabled, vcpu := none }
      | none => none
  | .ignore =>
      match s.vcpu with
      | some (_, false) => some { s with vcpu := none }
      | _ => none

/-- No call is in progress. -/
def Quiet (s : FlagSys) : Prop := (∀ r, s.request r = .idle) ∧ s.vcpu = none

/-- What the requestors ask for together. -/
def union (s : FlagSys) : Bool := s.asked .vmm || s.asked .vmi

/-- The value is that of the flag, unless the dirty bit is up or about to be put up. -/
def Fresh (s : FlagSys) (enabled : Bool) : Prop :=
  enabled = s.flag.isRequested ∨ s.flag.needsReconfiguration = true ∨ ∃ r, s.request r = .force

/-- The bits are those of what was last asked for. What the vCPU has read is fresh, and what it has
applied is fresh unless it has read something new. -/
structure Sound (s : FlagSys) : Prop where
  requests : ∀ r, s.flag.isRequestedBy r = s.asked r
  applied : (∀ enabled, s.vcpu ≠ some (enabled, true)) → s.Fresh s.applied
  read : ∀ p, s.vcpu = some p → s.Fresh p.1

end FlagSys

namespace CpuFlag

/-- A bit of a mask is up. -/
def Up (x m : UInt8) : Prop := x &&& m ≠ 0

instance (x m : UInt8) : Decidable (Up x m) := inferInstanceAs (Decidable (_ ≠ _))

theorem up_or_iff {x y m : UInt8} : Up (x ||| y) m ↔ Up x m ∨ Up y m := by
  have hdistrib : (x ||| y) &&& m = (x &&& m) ||| (y &&& m) := by
    rw [← UInt8.toBitVec_inj]
    exact BitVec.and_or_distrib_right
  rw [Up, Up, Up, hdistrib, ne_eq, UInt8.or_eq_zero_iff, not_and_or]

theorem up_mask_or_iff {x m n : UInt8} : Up x (m ||| n) ↔ Up x m ∨ Up x n := by
  rw [Up, UInt8.and_comm, ← Up, up_or_iff, Up, Up, UInt8.and_comm, UInt8.and_comm n, Up, Up]

theorem up_and_of_subset {x y m : UInt8} (h : y &&& m = m) : Up (x &&& y) m ↔ Up x m := by
  rw [Up, UInt8.and_assoc, h, Up]

theorem not_up_and_of_disjoint {x y m : UInt8} (h : y &&& m = 0) : ¬Up (x &&& y) m := by
  rw [Up, UInt8.and_assoc, h, UInt8.and_zero]
  exact fun hne => hne rfl

variable (f : CpuFlag) (r q : Requestor) (enable : Bool)

theorem isRequestedBy_iff : f.isRequestedBy r = true ↔ Up f.requests (requestorBit r) :=
  bne_iff_ne

theorem needsReconfiguration_iff : f.needsReconfiguration = true ↔ Up f.requests dirty :=
  bne_iff_ne

theorem isRequested_iff : f.isRequested = true ↔ Up f.requests onlyData := bne_iff_ne

/-- **The requestors together.** -/
theorem isRequested_eq : f.isRequested = (f.isRequestedBy .vmm || f.isRequestedBy .vmi) := by
  rw [Bool.eq_iff_iff, isRequested_iff, Bool.or_eq_true, isRequestedBy_iff, isRequestedBy_iff,
    ← up_mask_or_iff]
  rfl

theorem isRequestedBy_store :
    (f.store r enable).isRequestedBy q = if q = r then enable else f.isRequestedBy q := by
  rw [Bool.eq_iff_iff, isRequestedBy_iff, store]
  cases enable with
  | true =>
      rw [if_pos rfl, up_or_iff]
      split_ifs with hq
      · subst hq
        exact iff_of_true (.inr (by cases q <;> decide)) rfl
      · rw [isRequestedBy_iff]
        refine or_iff_left ?_
        cases q <;> cases r <;> first | exact absurd rfl hq | decide
  | false =>
      rw [if_neg nofun]
      split_ifs with hq
      · subst hq
        exact iff_of_false (not_up_and_of_disjoint (by cases q <;> decide)) nofun
      · rw [isRequestedBy_iff]
        refine up_and_of_subset ?_
        cases q <;> cases r <;> first | exact absurd rfl hq | decide

theorem isRequestedBy_forceReconfiguration :
    f.forceReconfiguration.isRequestedBy r = f.isRequestedBy r := by
  rw [Bool.eq_iff_iff, isRequestedBy_iff, isRequestedBy_iff, forceReconfiguration, up_or_iff]
  exact or_iff_left (by cases r <;> decide)

theorem needsReconfiguration_forceReconfiguration :
    f.forceReconfiguration.needsReconfiguration = true := by
  rw [needsReconfiguration_iff, forceReconfiguration, up_or_iff]
  exact .inr (by decide)

theorem isRequestedBy_clean : f.clean.isRequestedBy r = f.isRequestedBy r := by
  rw [Bool.eq_iff_iff, isRequestedBy_iff, isRequestedBy_iff, clean]
  exact up_and_of_subset (by cases r <;> decide)

theorem needsReconfiguration_clean : f.clean.needsReconfiguration = false := by
  rw [← Bool.not_eq_true, needsReconfiguration_iff]
  exact not_up_and_of_disjoint (by decide)

end CpuFlag

namespace FlagSys

variable {s s' : FlagSys} {r : Requestor} {enabled : Bool}

/-- **A requestor's turn** leaves fresh what is fresh. -/
theorem Sound.requestTurn (h : s.Sound) (hturn : s.requestTurn r = some s') : s'.Sound := by
  rw [FlagSys.requestTurn] at hturn
  cases htask : s.request r with
  | idle =>
      rw [htask] at hturn
      cases hturn
  | store enable =>
      rw [htask] at hturn
      obtain rfl := Option.some.inj hturn
      have hforce : ∃ q, Function.update s.request r .force q = .force :=
        ⟨r, Function.update_self ..⟩
      refine ⟨fun q => ?_, fun _ => .inr (.inr hforce), fun _ _ => .inr (.inr hforce)⟩
      rw [CpuFlag.isRequestedBy_store, h.requests]
      exact (Function.update_apply ..).symm
  | force =>
      rw [htask] at hturn
      obtain rfl := Option.some.inj hturn
      have hdirty := s.flag.needsReconfiguration_forceReconfiguration
      refine ⟨fun q => ?_, fun _ => .inr (.inl hdirty), fun _ _ => .inr (.inl hdirty)⟩
      rw [CpuFlag.isRequestedBy_forceReconfiguration, h.requests]

theorem isRequested_clean (f : CpuFlag) : f.clean.isRequested = f.isRequested := by
  rw [CpuFlag.isRequested_eq, CpuFlag.isRequestedBy_clean, CpuFlag.isRequestedBy_clean,
    CpuFlag.isRequested_eq]

/-- **A call or a turn.** -/
theorem Sound.next (h : s.Sound) {a : FlagAct} (hnext : s.next a = some s') : s'.Sound := by
  cases a with
  | request r enable =>
      rw [FlagSys.next] at hnext
      split_ifs at hnext with hidle
      obtain rfl := Option.some.inj hnext
      have hfresh {enabled : Bool} (hf : s.Fresh enabled) : ({ s with
          request := Function.update s.request r (.store enable) } : FlagSys).Fresh enabled := by
        rcases hf with hf | hf | ⟨q, hq⟩
        · exact .inl hf
        · exact .inr (.inl hf)
        · refine .inr (.inr ⟨q, (Function.update_of_ne (fun heq => ?_) ..).trans hq⟩)
          rw [heq, hidle] at hq
          cases hq
      exact ⟨h.requests, fun hvcpu => hfresh (h.applied hvcpu), fun p hp => hfresh (h.read p hp)⟩
  | requestor r => exact h.requestTurn hnext
  | checkCleanRead =>
      rw [FlagSys.next] at hnext
      split_ifs at hnext with hidle
      obtain rfl := Option.some.inj hnext
      refine ⟨fun q => ?_, fun hvcpu => ?_, fun p hp => ?_⟩
      · rw [CpuFlag.isRequestedBy_clean, h.requests]
      · -- the dirty bit was down, so what was applied is what is read
        cases hdirty : s.flag.needsReconfiguration with
        | true =>
            rw [hdirty] at hvcpu
            exact absurd rfl (hvcpu _)
        | false =>
            rcases h.applied (by rw [hidle]; exact nofun) with hf | hf | hf
            · exact .inl (hf.trans (isRequested_clean s.flag).symm)
            · exact absurd (hdirty.symm.trans hf) nofun
            · exact .inr (.inr hf)
      · rw [← Option.some.inj hp]
        exact .inl (isRequested_clean s.flag).symm
  | cleanRead =>
      rw [FlagSys.next] at hnext
      split_ifs at hnext with hidle
      obtain rfl := Option.some.inj hnext
      refine ⟨fun q => ?_, fun hvcpu => absurd rfl (hvcpu _), fun p hp => ?_⟩
      · rw [CpuFlag.isRequestedBy_clean, h.requests]
      · rw [← Option.some.inj hp]
        exact .inl (isRequested_clean s.flag).symm
  | apply =>
      rw [FlagSys.next] at hnext
      split at hnext
      · next enabled dirty hvcpu =>
          obtain rfl := Option.some.inj hnext
          exact ⟨h.requests, fun _ => h.read _ hvcpu, nofun⟩
      · cases hnext
  | ignore =>
      rw [FlagSys.next] at hnext
      split at hnext
      · next enabled hvcpu =>
          obtain rfl := Option.some.inj hnext
          refine ⟨h.requests, fun _ => h.applied fun e heq => ?_, nofun⟩
          rw [hvcpu] at heq
          cases heq
      · cases hnext

theorem sound_init : ({} : FlagSys).Sound where
  requests r := by cases r <;> rfl
  applied _ := .inl rfl
  read := nofun

/-- **In every run** what the vCPU has read and applied is fresh. -/
theorem sound_run {acts : List FlagAct}
    (h : Run (fun s a s' => FlagSys.next s a = some s') {} acts s) : s.Sound :=
  h.invariant (fun _ _ _ hu hnext => hu.next hnext) sound_init

/-- **When no call is in progress** and no reconfiguration is needed, what has been applied is what
is asked for. -/
theorem Sound.applied_eq (h : s.Sound) (hquiet : s.Quiet)
    (hclean : s.flag.needsReconfiguration = false) : s.applied = s.union := by
  rcases h.applied (by rw [hquiet.2]; exact nofun) with happlied | hdirty | ⟨r, hforce⟩
  · rw [happlied, CpuFlag.isRequested_eq, h.requests, h.requests]
    rfl
  · exact absurd (hclean.symm.trans hdirty) nofun
  · exact absurd ((hquiet.1 r).symm.trans hforce) nofun

end FlagSys

/-! ## No reconfiguration is lost -/

/-- **No reconfiguration is lost.** In every run in which no call is in progress at the end, a
feature or a flag that needs no reconfiguration has been applied as it is asked for. -/
theorem no_reconfiguration_lost :
    (∀ acts s, Run (fun s a s' => FeatureSys.next s a = some s') {} acts s → s.Quiet →
      s.feature.needsReconfiguration = false → s.applied = s.union) ∧
    ∀ acts s, Run (fun s a s' => FlagSys.next s a = some s') {} acts s → s.Quiet →
      s.flag.needsReconfiguration = false → s.applied = s.union :=
  ⟨fun _ _ hrun => (FeatureSys.sound_run hrun).applied_eq,
    fun _ _ hrun => (FlagSys.sound_run hrun).applied_eq⟩

/-- The VMM requests while the vCPU reads. -/
def requestWhileReading : List FeatureAct :=
  [.request .vmm true 5, .requestor .vmm, .cleanRead, .vcpu, .vcpu, .requestor .vmm, .vcpu, .apply,
    .checkCleanRead false, .vcpu, .vcpu, .vcpu, .vcpu, .apply]

/-- The VMI requests a flag, and the vCPU reads it. -/
def requestAndRead : List FlagAct :=
  [.request .vmi true, .requestor .vmi, .requestor .vmi, .checkCleanRead, .apply]

theorem no_reconfiguration_lost_requests :
    (∃ s, Run (fun s a s' => FeatureSys.next s a = some s') {} requestWhileReading s ∧
      s.applied = ⟨true, 5⟩ ∧ s.applied = s.union) ∧
    ∃ s, Run (fun s a s' => FlagSys.next s a = some s') {} requestAndRead s ∧
      s.applied = true ∧ s.applied = s.union := by
  refine ⟨⟨_, Run.of_foldlM rfl, rfl, ?_⟩, ⟨_, Run.of_foldlM rfl, rfl, ?_⟩⟩
  · exact no_reconfiguration_lost.1 requestWhileReading _ (Run.of_foldlM rfl)
      ⟨fun r => by cases r <;> rfl, rfl⟩ rfl
  · exact no_reconfiguration_lost.2 requestAndRead _ (Run.of_foldlM rfl)
      ⟨fun r => by cases r <;> rfl, rfl⟩ rfl

end Vml
