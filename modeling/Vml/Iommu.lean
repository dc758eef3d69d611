import Vml.Lib.Run
import Vml.RangeMap

/-!
# The translation of I/O addresses

`iommu_interface.hpp`: a device that a virtual IOMMU manages keeps the mappings it has been given in
a `RangeMap`, and translates an address through the mapping it finds there.

* `translate_io_isolated_iff`: a request is translated byte by byte through one mapping if all that
  was mapped ends below the top and the first mapping that it meets contains it, and then only so.
* `map_unmap_refine_iff`: `map` and `unmap` are the updates of a partial function exactly if the
  request does not overlap a mapping that it does not replace.
-/

namespace Vml

/-- `IOMapping`. -/
structure IOMapping where
  va : UInt64
  pa : UInt64
  sz : UInt64
  flags : UInt32 := 0
  deriving DecidableEq, Repr

/-- `IOMappingNode`. -/
instance : RangeNode IOMapping := ⟨fun m => ⟨m.va, m.sz⟩⟩

/-- `IOMMUManagedDevice`. -/
structure IOMMUManagedDevice where
  iommuAvail : Bool := false
  attached : Bool := false
  ioMappings : RangeMap IOMapping := {}
  deriving DecidableEq, Repr

/-- What `translate_io` returns when it fails. -/
abbrev ioFault : UInt64 := 0xFFFFFFFFFFFFFFFF

namespace IOMMUManagedDevice

/-- `iommu_present`. -/
def iommuPresent (d : IOMMUManagedDevice) : IOMMUManagedDevice := { d with iommuAvail := true }

/-- `attach`. -/
def attach (d : IOMMUManagedDevice) : IOMMUManagedDevice := { d with attached := true }

/-- `remove_all_mappings`. -/
def removeAllMappings (d : IOMMUManagedDevice) : IOMMUManagedDevice :=
  { d with ioMappings := d.ioMappings.clear }

/-- `detach`. -/
def detach (d : IOMMUManagedDevice) : IOMMUManagedDevice :=
  { d.removeAllMappings with attached := false }

/-- `reset`. -/
def reset (d : IOMMUManagedDevice) : IOMMUManagedDevice :=
  { d.removeAllMappings with iommuAvail := false, attached := false }

/-- `map`, whose node may not be allocated. What `insert` returns is not looked at. -/
def map (d : IOMMUManagedDevice) (m : IOMapping) (allocated : Bool) : Errno × IOMMUManagedDevice :=
  if !allocated then (.nomem, d)
  else (.none, { d with ioMappings := (d.ioMappings.insert m).1 })

/-- `unmap`. -/
def unmap (d : IOMMUManagedDevice) (m : IOMapping) : Errno × IOMMUManagedDevice :=
  (.none, { d with ioMappings := (d.ioMappings.remove ⟨m.va, m.sz⟩).1 })

/-- `translate_io`. -/
def translateIo (d : IOMMUManagedDevice) (ioAddr sizeBytes : UInt64) : UInt64 :=
  match d.ioMappings.lookup ⟨ioAddr, sizeBytes⟩ with
  | none => ioFault
  | some n => ioAddr - n.va + n.pa

end IOMMUManagedDevice

/-! ## Runs -/

/-- A call from the IOMMU. -/
inductive IommuOp
  | iommuPresent
  | attach
  | detach
  | map (m : IOMapping) (allocated : Bool)
  | unmap (m : IOMapping)
  | reset

namespace IOMMUManagedDevice

/-- What the call returns, and the state after it. -/
def exec (d : IOMMUManagedDevice) : IommuOp → Errno × IOMMUManagedDevice
  | .iommuPresent => (.none, d.iommuPresent)
  | .attach => (.none, d.attach)
  | .detach => (.none, d.detach)
  | .map m allocated => d.map m allocated
  | .unmap m => d.unmap m
  | .reset => (.none, d.reset)

/-- A step. Where what the set does depends on the shape of its tree, it is not known. -/
def Step (d : IOMMUManagedDevice) (op : IommuOp) (d' : IOMMUManagedDevice) : Prop :=
  match op with
  | .map m _ => d.ioMappings.Determined ⟨m.va, m.sz⟩ → d' = (d.exec op).2
  | .unmap m => d.ioMappings.Determined ⟨m.va, m.sz⟩ → d' = (d.exec op).2
  | _ => d' = (d.exec op).2

/-- What is mapped ends below the top of the address space. -/
def Bounded : IommuOp → Prop
  | .map m _ => (RangeNode.range m).Bounded
  | _ => True

variable {d d' : IOMMUManagedDevice} {op : IommuOp} {ops : List IommuOp}

theorem inOrder_exec (h : d.ioMappings.InOrder) (hop : Bounded op) :
    (d.exec op).2.ioMappings.InOrder := by
  cases op with
  | iommuPresent => exact h
  | attach => exact h
  | detach => exact RangeMap.inOrder_clear
  | reset => exact RangeMap.inOrder_clear
  | unmap m => exact h.remove _
  | map m allocated =>
      rw [exec, map]
      split_ifs
      · exact h
      · exact h.insert hop

/-- **In every run of bounded calls** the mappings are in order. -/
theorem inOrder_run (h : Run (fun (d : IOMMUManagedDevice) op d' => Bounded op ∧ d.Step op d') {}
    ops d) : d.ioMappings.InOrder := by
  have hstep : ∀ (d : IOMMUManagedDevice) (op : IommuOp) (d' : IOMMUManagedDevice),
      d.ioMappings.InOrder → Bounded op ∧ d.Step op d' → d'.ioMappings.InOrder := by
    intro d op d' hd ⟨hop, hstep⟩
    have heq : d' = (d.exec op).2 := by
      cases op with
      | map m allocated => exact hstep (hd.determined _)
      | unmap m => exact hstep (hd.determined _)
      | _ => exact hstep
    rw [heq]
    exact inOrder_exec hd hop
  exact @Run.invariant _ _ _ (fun d => d.ioMappings.InOrder) _ _ _ hstep h RangeMap.inOrder_clear

/-! ## Isolation -/

/-- If a request is translated, all its bytes lie in one mapping, and each goes where the mapping
takes it. -/
def Isolated (d : IOMMUManagedDevice) (a n : UInt64) : Prop :=
  d.translateIo a n ≠ ioFault → ∃ m ∈ d.ioMappings.set, ∀ i < n.toNat,
    (m.va.toNat ≤ a.toNat + i ∧ a.toNat + i < m.va.toNat + m.sz.toNat) ∧
      (d.translateIo a n).toNat + i = m.pa.toNat + (a.toNat - m.va.toNat) + i ∧
      m.pa.toNat + (a.toNat - m.va.toNat) + i < 2 ^ 64

/-- The first mapping that the request meets contains it and maps it below the top, or maps it to
the address that stands for failure. -/
def ContainedInFirst (d : IOMMUManagedDevice) (a n : UInt64) : Prop :=
  ∀ m, d.ioMappings.set.find? (RangeMap.Meets ⟨a, n⟩) = some m →
    (m.va.toNat ≤ a.toNat ∧ a.toNat + n.toNat ≤ m.va.toNat + m.sz.toNat ∧
      m.pa.toNat + (a.toNat - m.va.toNat) + n.toNat ≤ 2 ^ 64) ∨ a - m.va + m.pa = ioFault

theorem toNat_offset {a va pa : UInt64} (hle : va.toNat ≤ a.toNat)
    (hlt : pa.toNat + (a.toNat - va.toNat) < 2 ^ 64) :
    (a - va + pa).toNat = pa.toNat + (a.toNat - va.toNat) := by
  rw [UInt64.toNat_add, UInt64.toNat_sub_of_le _ _ (UInt64.le_iff_toNat_le.2 hle),
    Nat.add_comm, Nat.mod_eq_of_lt hlt]

/-- **A request is isolated exactly if the first mapping it meets contains it.** -/
theorem isolated_iff (h : d.ioMappings.InOrder) {a n : UInt64} (hn : 0 < n) :
    d.Isolated a n ↔ d.ContainedInFirst a n := by
  have hn : 0 < n.toNat := UInt64.lt_iff_toNat_lt.1 hn
  constructor
  · intro hiso m hm
    rw [← h.lookup_eq] at hm
    have htranslate : d.translateIo a n = a - m.va + m.pa := by rw [translateIo, hm]
    by_cases hfault : a - m.va + m.pa = ioFault
    · exact .inr hfault
    obtain ⟨m', hm', hbytes⟩ := hiso (htranslate ▸ hfault)
    obtain ⟨hfirst, hlast⟩ := And.intro (hbytes 0 hn) (hbytes (n.toNat - 1) (by omega))
    have hend := Range.toNat_endAddr (h.bounded m' hm')
    have hbounded : m'.va.toNat + m'.sz.toNat < 2 ^ 64 := h.bounded m' hm'
    have hend' : (RangeNode.range m').endAddr.toNat = m'.va.toNat + m'.sz.toNat := hend
    obtain ⟨-, hmeets, hothers⟩ := h.first_of_lookup hm
    rw [RangeMap.Meets, decide_eq_true_iff] at hmeets
    have hmeets' : RangeMap.Meets ⟨a, n⟩ m' = true := by
      have hsum : (Range.endAddr ⟨a, n⟩).toNat = a.toNat + n.toNat :=
        Range.toNat_endAddr (show a.toNat + n.toNat < 2 ^ 64 by omega)
      rw [RangeMap.Meets, decide_eq_true_iff, hsum, hend']
      show a.toNat < _ ∧ m'.va.toNat < _
      omega
    -- The mapping that contains the request meets it, and so is the first that does.
    rcases hothers m' hm' hmeets' with rfl | hle
    · exact .inl (by omega)
    · have hle : _ ≤ m'.va.toNat := hle
      have hlt : a.toNat < _ := hmeets.1
      omega
  · intro hcontained htranslated
    rw [translateIo] at htranslated ⊢
    cases hm : d.ioMappings.lookup ⟨a, n⟩ with
    | none =>
        rw [hm] at htranslated
        exact absurd rfl htranslated
    | some m =>
        rw [hm] at htranslated
        obtain ⟨hmem, -⟩ := h.first_of_lookup hm
        rw [h.lookup_eq] at hm
        obtain ⟨hle, hend, hpa⟩ := (hcontained m hm).resolve_right htranslated
        refine ⟨m, hmem, fun i hi => ?_⟩
        dsimp only
        rw [toNat_offset hle (by omega)]
        omega

/-- All that the calls map ends below the top. -/
def AllBounded (ops : List IommuOp) : Prop := ∀ op ∈ ops, Bounded op

/-- **A request to a device that the IOMMU manages is isolated**, in every run, if all that was
mapped ends below the top and the first mapping that the request meets contains it. Where all that
was mapped does, the request is isolated only if that mapping contains it. -/
theorem translate_io_isolated_iff (h : Run Step {} ops d) {a n : UInt64} (hn : 0 < n) :
    (AllBounded ops ∧ d.ContainedInFirst a n → d.Isolated a n) ∧
      (AllBounded ops → d.Isolated a n → d.ContainedInFirst a n) := by
  have hiff (hops : AllBounded ops) : d.Isolated a n ↔ d.ContainedInFirst a n :=
    isolated_iff (inOrder_run (h.and_of_forall hops)) hn
  exact ⟨fun hcond => (hiff hcond.1).2 hcond.2, fun hops => (hiff hops).1⟩

/-- One page is mapped. -/
def onePage : IommuOp := .map { va := 0x1000, pa := 0x8000, sz := 0x1000 } true

/-- A request that begins in the page and ends behind it is translated. -/
theorem straddling_request :
    ((exec {} onePage).2.translateIo 0x1800 0x1000) = 0x8800 ∧
      ¬(exec {} onePage).2.Isolated 0x1800 0x1000 := by
  refine ⟨rfl, fun hiso => ?_⟩
  obtain ⟨m, hm, hbytes⟩ := hiso (by decide)
  obtain rfl : m = { va := 0x1000, pa := 0x8000, sz := 0x1000 } := List.mem_singleton.1 hm
  exact absurd (hbytes 0x800 (by decide)).1 (by decide)

theorem step_exec (d : IOMMUManagedDevice) (op : IommuOp) : d.Step op (d.exec op).2 := by
  cases op with
  | map m allocated => exact fun _ => rfl
  | unmap m => exact fun _ => rfl
  | _ => rfl

/-- Another page is mapped, and the first is unmapped. -/
def otherPage : List IommuOp :=
  [onePage, .map { va := 0x2000, pa := 0x20000, sz := 0x1000 } true,
    .unmap { va := 0x1000, pa := 0, sz := 0x1000 }]

/-- A request up to the end of the other page. -/
theorem translate_io_isolated_page : ∃ d, Run Step {} otherPage d ∧ d.Isolated 0x2800 0x800 ∧
    d.translateIo 0x2800 0x800 = 0x20800 := by
  have hrun : Run Step {} otherPage (otherPage.foldl (fun d op => (d.exec op).2) {}) :=
    .cons (step_exec ..) (.cons (step_exec ..) (.cons (step_exec ..) .nil))
  refine ⟨_, hrun, (translate_io_isolated_iff hrun (by decide)).1 ⟨?_, fun m hm => .inl ?_⟩,
    by decide⟩
  · refine List.forall_mem_cons.2 ⟨?_, List.forall_mem_cons.2 ⟨?_, List.forall_mem_singleton.2 ?_⟩⟩
    · exact (by decide : 0x1000 + 0x1000 < 2 ^ 64)
    · exact (by decide : 0x2000 + 0x1000 < 2 ^ 64)
    · trivial
  · obtain rfl : { va := 0x2000, pa := 0x20000, sz := 0x1000 } = m := Option.some.inj hm
    decide

/-! ## The mappings as a partial function -/

/-- The address lies in the mapping. -/
def Covers (m : IOMapping) (x : UInt64) : Prop :=
  m.va.toNat ≤ x.toNat ∧ x.toNat < m.va.toNat + m.sz.toNat

instance (m : IOMapping) (x : UInt64) : Decidable (Covers m x) :=
  inferInstanceAs (Decidable (_ ∧ _))

/-- Where an address goes. -/
def translate (d : IOMMUManagedDevice) (x : UInt64) : Option UInt64 :=
  (d.ioMappings.lookup ⟨x, 1⟩).map fun n => x - n.va + n.pa

variable {m e e' : IOMapping} {x : UInt64}

theorem meets_one_iff (hb : (RangeNode.range m).Bounded) :
    RangeMap.Meets ⟨x, 1⟩ m = true ↔ Covers m x := by
  have hend : (RangeNode.range m).endAddr.toNat = m.va.toNat + m.sz.toNat :=
    Range.toNat_endAddr hb
  have hb : m.va.toNat + m.sz.toNat < 2 ^ 64 := hb
  have hx := x.toNat_lt
  have hsucc : (Range.endAddr ⟨x, 1⟩).toNat = (x.toNat + 1) % 2 ^ 64 := UInt64.toNat_add ..
  rw [RangeMap.Meets, decide_eq_true_iff, hend, hsucc, Covers]
  show x.toNat < _ ∧ m.va.toNat < _ ↔ _
  omega

theorem eq_of_covers (h : d.ioMappings.InOrder) (he : e ∈ d.ioMappings.set)
    (he' : e' ∈ d.ioMappings.set) (hx : Covers e x) (hx' : Covers e' x) : e = e' := by
  have hmeets := (meets_one_iff (h.bounded e he)).2 hx
  have hmeets' := (meets_one_iff (h.bounded e' he')).2 hx'
  cases hf : d.ioMappings.lookup ⟨x, 1⟩ with
  | none =>
      rw [h.lookup_eq, List.find?_eq_none] at hf
      exact absurd hmeets (hf e he)
  | some f =>
      obtain ⟨hf, hmf, hothers⟩ := h.first_of_lookup hf
      rw [RangeMap.Meets, decide_eq_true_iff] at hmf
      have hfirst : ∀ b ∈ d.ioMappings.set, Covers b x → RangeMap.Meets ⟨x, 1⟩ b = true →
          b = f := by
        intro b hb hcovers hmb
        rcases hothers b hb hmb with rfl | hle
        · rfl
        · have hle : _ ≤ b.va.toNat := hle
          have hlt : x.toNat < _ := hmf.1
          have := hcovers.1
          omega
      exact (hfirst e he hx hmeets).trans (hfirst e' he' hx' hmeets').symm

/-- **An address goes where the mapping it lies in takes it.** -/
theorem translate_of_covers (h : d.ioMappings.InOrder) (hm : m ∈ d.ioMappings.set)
    (hx : Covers m x) : d.translate x = some (x - m.va + m.pa) := by
  rw [translate]
  cases hf : d.ioMappings.lookup ⟨x, 1⟩ with
  | none =>
      rw [h.lookup_eq, List.find?_eq_none] at hf
      exact absurd ((meets_one_iff (h.bounded m hm)).2 hx) (hf m hm)
  | some f =>
      obtain ⟨hf, hmf, -⟩ := h.first_of_lookup hf
      rw [eq_of_covers h hm hf hx ((meets_one_iff (h.bounded f hf)).1 hmf)]
      rfl

theorem translate_eq_none_iff (h : d.ioMappings.InOrder) :
    d.translate x = none ↔ ∀ m ∈ d.ioMappings.set, ¬Covers m x := by
  rw [translate, Option.map_eq_none_iff, h.lookup_eq, List.find?_eq_none]
  constructor
  · exact fun hnone m hm hx => hnone m hm ((meets_one_iff (h.bounded m hm)).2 hx)
  · exact fun hnone m hm hmeets => hnone m hm ((meets_one_iff (h.bounded m hm)).1 hmeets)

theorem translate_congr (h : d.ioMappings.InOrder) (h' : d'.ioMappings.InOrder)
    (hsame : ∀ m, Covers m x → (m ∈ d'.ioMappings.set ↔ m ∈ d.ioMappings.set)) :
    d'.translate x = d.translate x := by
  by_cases hcovered : ∃ m ∈ d.ioMappings.set, Covers m x
  · obtain ⟨m, hm, hx⟩ := hcovered
    rw [translate_of_covers h hm hx, translate_of_covers h' ((hsame m hx).2 hm) hx]
  · push Not at hcovered
    rw [(translate_eq_none_iff h).2 hcovered, (translate_eq_none_iff h').2]
    exact fun m hm hx => hcovered m ((hsame m hx).1 hm) hx

/-! ## What `map` and `unmap` do to it -/

/-- If `map` succeeds then the addresses of the request go where it takes them, and the others where
they went. If it fails then all do. -/
def MapRefines (d : IOMMUManagedDevice) (m : IOMapping) (allocated : Bool) : Prop :=
  let r := d.map m allocated
  if r.1 = .none then
    ∀ x, (Covers m x → r.2.translate x = some (x - m.va + m.pa)) ∧
      (¬Covers m x → r.2.translate x = d.translate x)
  else ∀ x, r.2.translate x = d.translate x

/-- If `unmap` succeeds then the addresses of the request go nowhere, and the others where they
went. If it fails then all do. -/
def UnmapRefines (d : IOMMUManagedDevice) (m : IOMapping) : Prop :=
  let r := d.unmap m
  if r.1 = .none then
    ∀ x, (Covers m x → r.2.translate x = none) ∧ (¬Covers m x → r.2.translate x = d.translate x)
  else ∀ x, r.2.translate x = d.translate x

/-- Allocation fails, or the request ends below the top and meets no mapping, unless all its
addresses go already where it takes them. -/
def MapFits (d : IOMMUManagedDevice) (m : IOMapping) (allocated : Bool) : Prop :=
  allocated = false ∨ (RangeNode.range m).Bounded ∧
    ((∀ e ∈ d.ioMappings.set, RangeMap.Meets (RangeNode.range m) e = false) ∨
      ∀ x, Covers m x → d.translate x = some (x - m.va + m.pa))

/-- The request overlaps no mapping but the first that it meets, and contains that one. -/
def UnmapFits (d : IOMMUManagedDevice) (m : IOMapping) : Prop :=
  let first := d.ioMappings.set.find? (RangeMap.Meets (RangeNode.range m))
  (∀ e ∈ d.ioMappings.set, ∀ x, Covers e x → Covers m x → first = some e) ∧
    ∀ e, first = some e → ∀ x, Covers e x → Covers m x

theorem translate_last (d : IOMMUManagedDevice) : d.translate 0xFFFFFFFFFFFFFFFF = none := by
  rw [translate, Option.map_eq_none_iff, RangeMap.lookup, SearchSet.find]
  cases d.ioMappings.set.find? fun e =>
      !rangeCompare (RangeNode.range e) ⟨0xFFFFFFFFFFFFFFFF, 1⟩ with
  | none => rfl
  | some e => exact if_pos (rangeCompare_eq_true_iff.2 (Nat.zero_le _))

/-- A mapping that is put among those that it does not meet. -/
theorem mapRefines_of_insert (h : d.ioMappings.InOrder) (hb : (RangeNode.range m).Bounded)
    {pre post : List IOMapping} (hset : d.ioMappings.set = pre ++ post)
    (heq : d.ioMappings.insert m = (⟨pre ++ m :: post⟩, true)) : d.MapRefines m true := by
  obtain ⟨d', hd'⟩ : ∃ d', d' = (d.map m true).2 := ⟨_, rfl⟩
  have hset' : d'.ioMappings.set = pre ++ m :: post := by
    rw [hd']
    show (d.ioMappings.insert m).1.set = _
    rw [heq]
  have h' : d'.ioMappings.InOrder := by
    rw [hd']
    exact h.insert hb
  have hmem : m ∈ d'.ioMappings.set := by
    rw [hset']
    exact List.mem_append_right _ List.mem_cons_self
  have hrefines : ∀ x, (Covers m x → d'.translate x = some (x - m.va + m.pa)) ∧
      (¬Covers m x → d'.translate x = d.translate x) := by
    intro x
    refine ⟨translate_of_covers h' hmem, fun hnot => translate_congr h h' fun e he => ?_⟩
    have hne : e ≠ m := by
      rintro rfl
      exact hnot he
    rw [hset', hset]
    simp [hne]
  rw [hd'] at hrefines
  exact hrefines

theorem mapRefines_iff (h : d.ioMappings.InOrder) (m : IOMapping) (allocated : Bool) :
    d.MapRefines m allocated ↔ d.MapFits m allocated := by
  cases allocated with
  | false => exact iff_of_true (fun x => rfl) (.inl rfl)
  | true =>
  by_cases hb : (RangeNode.range m).Bounded
  · rcases h.insert_cases m with ⟨pre, post, hset, heq, hpre, hpost⟩ | ⟨⟨e, he, hmeets⟩, heq⟩
    · refine iff_of_true (mapRefines_of_insert h hb hset heq) (.inr ⟨hb, .inl fun e he => ?_⟩)
      rw [hset] at he
      rw [RangeMap.Meets, decide_eq_false_iff_not]
      rcases List.mem_append.1 he with he | he
      · exact fun hm => absurd (hpre e he) (Nat.not_le.2 hm.1)
      · exact fun hm => absurd (hpost e he) (Nat.not_le.2 hm.2)
    · -- `insert` refuses the mapping, and the translations stay.
      have hstay : (d.map m true).2 = d := by
        show { d with ioMappings := (d.ioMappings.insert m).1 } = d
        rw [heq]
      have hrefines : d.MapRefines m true ↔
          ∀ x, Covers m x → d.translate x = some (x - m.va + m.pa) := by
        show (∀ x, (_ → (d.map m true).2.translate x = _) ∧
          (_ → (d.map m true).2.translate x = _)) ↔ _
        rw [hstay]
        exact ⟨fun hr x => (hr x).1, fun hr x => ⟨hr x, fun _ => rfl⟩⟩
      rw [hrefines]
      refine ⟨fun hr => .inr ⟨hb, .inr hr⟩, fun hfits => ?_⟩
      rcases hfits with hfail | ⟨-, hfree | hr⟩
      · exact absurd hfail (by simp)
      · exact absurd (hmeets.symm.trans (hfree e he)) (by simp)
      · exact hr
  · refine iff_of_false (fun hr => ?_) fun hfits => ?_
    · have hb : ¬m.va.toNat + m.sz.toNat < 2 ^ 64 := hb
      have hva := m.va.toNat_lt
      have hlast : (0xFFFFFFFFFFFFFFFF : UInt64).toNat = 2 ^ 64 - 1 := rfl
      have hcovers : Covers m 0xFFFFFFFFFFFFFFFF := by
        rw [Covers, hlast]
        omega
      have hsome := (hr 0xFFFFFFFFFFFFFFFF).1 hcovers
      rw [translate_last] at hsome
      exact absurd hsome (by simp)
    · exact hfits.elim (by simp) fun hf => hb hf.1

theorem unmapRefines_iff (h : d.ioMappings.InOrder) (m : IOMapping) :
    d.UnmapRefines m ↔ d.UnmapFits m := by
  obtain ⟨d', hd'⟩ : ∃ d', d' = (d.unmap m).2 := ⟨_, rfl⟩
  have hrefines : d.UnmapRefines m ↔ ∀ x, (Covers m x → d'.translate x = none) ∧
      (¬Covers m x → d'.translate x = d.translate x) := by
    rw [hd']
    exact .rfl
  have hmap : d'.ioMappings = (d.ioMappings.remove (RangeNode.range m)).1 := by rw [hd']; rfl
  have h' : d'.ioMappings.InOrder := by
    rw [hmap]
    exact h.remove _
  rw [hrefines, UnmapFits, ← h.lookup_eq]
  rcases d.ioMappings.remove_cases (RangeNode.range m) with
    ⟨hf, heq⟩ | ⟨e, pre, post, hf, hset, heq⟩
  · have hstay : ∀ x, d'.translate x = d.translate x := fun x => by
      rw [translate, hmap, heq, translate]
    rw [hf]
    constructor
    · refine fun hr => ⟨fun e he x hx hxm => ?_, nofun⟩
      have hnone := (hr x).1 hxm
      rw [hstay, translate_eq_none_iff h] at hnone
      exact absurd hx (hnone e he)
    · intro hfits x
      refine ⟨fun hxm => ?_, fun _ => hstay x⟩
      rw [hstay, translate_eq_none_iff h]
      exact fun e he hx => absurd (hfits.1 e he x hx hxm) nofun
  · have he : e ∈ d.ioMappings.set := by
      rw [hset]
      simp
    -- What the mapping covered goes nowhere, and the rest goes where it went.
    have hgone : ∀ x, Covers e x → d'.translate x = none := by
      intro x hx
      rw [translate_eq_none_iff h', hmap, heq]
      intro b hb hxb
      have hend : (RangeNode.range e).endAddr.toNat = e.va.toNat + e.sz.toNat :=
        Range.toNat_endAddr (h.bounded e he)
      have hne : ¬(RangeNode.range e).endAddr.toNat ≤ (RangeNode.range e).begin.toNat := by
        rw [hend]
        show ¬_ ≤ e.va.toNat
        have := hx.1
        have := hx.2
        omega
      have hpair := h.pairwise
      rw [hset, List.pairwise_append, List.pairwise_cons] at hpair
      have heq : b = e := by
        refine eq_of_covers h ?_ he hxb hx
        rw [hset]
        exact (List.Sublist.append_left (List.sublist_cons_self e post) pre).subset hb
      rw [heq] at hb
      rcases List.mem_append.1 hb with hb | hb
      · exact hne (hpair.2.2 e hb e List.mem_cons_self)
      · exact hne (hpair.2.1.1 e hb)
    have hrest : ∀ x, ¬Covers e x → d'.translate x = d.translate x := by
      intro x hx
      refine translate_congr h h' fun b hb => ?_
      have hne : b ≠ e := by
        rintro rfl
        exact hx hb
      rw [hmap, heq, hset]
      simp [hne]
    rw [hf]
    constructor
    · intro hr
      refine ⟨fun b hb x hx hxm => ?_, fun b hb x hx => ?_⟩
      · have hnone := (hr x).1 hxm
        by_cases hxe : Covers e x
        · rw [eq_of_covers h hb he hx hxe]
        · rw [hrest x hxe, translate_eq_none_iff h] at hnone
          exact absurd hx (hnone b hb)
      · obtain rfl : e = b := Option.some.inj hb
        by_contra hxm
        have hsame := (hr x).2 hxm
        rw [hgone x hx, translate_of_covers h he hx] at hsame
        exact absurd hsame nofun
    · intro hfits x
      refine ⟨fun hxm => ?_, fun hxm => hrest x fun hx => hxm (hfits.2 e rfl x hx)⟩
      by_cases hxe : Covers e x
      · exact hgone x hxe
      · rw [hrest x hxe, translate_eq_none_iff h]
        intro b hb hx
        obtain rfl : e = b := Option.some.inj (hfits.1 b hb x hx hxm)
        exact hxe hx

/-- **The calls are those of a partial function** exactly if the request does not overlap a mapping
that it does not replace. -/
theorem map_unmap_refine_iff (h : Run (fun (d : IOMMUManagedDevice) op d' =>
    Bounded op ∧ d.Step op d') {} ops d) (m : IOMapping) (allocated : Bool) :
    (d.MapRefines m allocated ↔ d.MapFits m allocated) ∧ (d.UnmapRefines m ↔ d.UnmapFits m) :=
  ⟨mapRefines_iff (inOrder_run h) m allocated, unmapRefines_iff (inOrder_run h) m⟩

/-- The page is mapped once more, to another place, and half of it is unmapped. -/
theorem overlapping_requests :
    ¬(exec {} onePage).2.MapRefines { va := 0x1000, pa := 0x20000, sz := 0x1000 } true ∧
      ¬(exec {} onePage).2.UnmapRefines { va := 0x1000, pa := 0, sz := 0x800 } := by
  refine ⟨fun hr => ?_, fun hr => ?_⟩
  · exact absurd ((hr 0x1000).1 (by decide)) (by decide)
  · exact absurd ((hr 0x1900).2 (by decide)) (by decide)

/-- The page is unmapped, and another one mapped. -/
theorem map_unmap_refine_page :
    ∃ d, Run (fun (d : IOMMUManagedDevice) op d' => Bounded op ∧ d.Step op d') {} [onePage] d ∧
      (d.MapRefines { va := 0x2000, pa := 0x9000, sz := 0x1000 } true ↔
        d.MapFits { va := 0x2000, pa := 0x9000, sz := 0x1000 } true) ∧
      (d.UnmapRefines { va := 0x2000, pa := 0x9000, sz := 0x1000 } ↔
        d.UnmapFits { va := 0x2000, pa := 0x9000, sz := 0x1000 }) := by
  have hrun : Run (fun (d : IOMMUManagedDevice) op d' => Bounded op ∧ d.Step op d') {} [onePage]
      (exec {} onePage).2 :=
    .snoc .nil ⟨(by decide : 0x1000 + 0x1000 < 2 ^ 64), fun _ => rfl⟩
  exact ⟨_, hrun, map_unmap_refine_iff hrun _ _⟩

end IOMMUManagedDevice

end Vml
