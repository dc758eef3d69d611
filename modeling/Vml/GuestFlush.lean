import Vml.CacheLines
import Vml.SimpleAS

/-!
# Flushing the guest's memory

A guest that turns its caches off or on is to find in the memory what is in the caches. For every
device of the bus `flush_callback` is called, and `flush_guest_as` maps the whole memory object, if
it is not mapped, and cleans the caches for the addresses that it has on the host.

**The host** maps an object at the beginning of a page, and not next to the end of the address
space, so that the loops get through the range on either architecture.

Main result: `flush_iff`.
-/

namespace Vml

open Vbus

/-- `SimpleAS`, with what it does for the caches. -/
structure FlushedAS extends SimpleAS where
  flushOnReset : Bool := true
  deriving DecidableEq, Repr

/-- What is plugged into a bus. -/
inductive FlushDevice
  | device
  | irqController
  /-- Of type `GUEST_PHYSICAL_STATIC_MEMORY` or `GUEST_PHYSICAL_DYNAMIC_MEMORY`. -/
  | memory (as : FlushedAS)
  deriving DecidableEq, Repr

namespace FlushedAS

/-- Whether `flush_guest_as` does anything. -/
def flushable (as : FlushedAS) : Bool :=
  !as.isReadOnly && as.flushOnReset && as.mobjectCredWrite

/-- `flush_guest_as`, which may not come to an end. -/
def flushGuestAs (arch : Arch) (h : Host) (as : FlushedAS) (fuel : ℕ) :
    Option (Outcome (List CacheOp)) :=
  if as.isReadOnly || !as.flushOnReset || !as.mobjectCredWrite then some (.ret [])
  else
    match as.regionAt h 0 as.asRange.size true with
    | none => some .abort
    | some r =>
        match arch.dcacheCleanInvalidateRange (UInt64.ofNat r.va) as.asRange.size fuel with
        | none => none
        | some ops =>
            match as.demandUnmap h r with
            | .abort => some .abort
            | .ret _ => some (.ret ops)

end FlushedAS

/-- `flush_callback`. -/
def flushCallback (arch : Arch) (h : Host) (fuel : ℕ) :
    FlushDevice → Option (Outcome (List CacheOp))
  | .memory as => as.flushGuestAs arch h fuel
  | _ => some (.ret [])

/-- `iter_devices`, of `flush_callback`. -/
def flushDevices (arch : Arch) (h : Host) (fuel : ℕ) :
    List (DeviceEntry FlushDevice) → Option (Outcome (List CacheOp))
  | [] => some (.ret [])
  | e :: es =>
      match flushCallback arch h fuel e.device with
      | some (.ret ops) =>
          match flushDevices arch h fuel es with
          | some (.ret rest) => some (.ret (ops ++ rest))
          | other => other
      | other => other

/-- The flush of a bus. -/
def flushBus (arch : Arch) (h : Host) (bus : Bus FlushDevice) (fuel : ℕ) :
    Option (Outcome (List CacheOp)) := flushDevices arch h fuel bus.devices.set

/-! ## What the host does -/

/-- A mapping is at the beginning of a page, and ends below the last lines of the address space. -/
structure Host.Maps (h : Host) : Prop where
  page : ∀ sel size write va, h.mapMem sel 0 size write = some va → va % 4096 = 0
  low : ∀ sel size write va, h.mapMem sel 0 size write = some va → va + size.toNat + 2 ^ 17 ≤ 2 ^ 64

/-- The view of an address space is where `map_host` has mapped its object. -/
def FlushedAS.ViewMapped (h : Host) (as : FlushedAS) : Prop :=
  ∀ view, as.vmmView = some view → ∃ write, h.mapMem as.msel 0 as.asRange.size write = some view

/-- The address space can be mapped as a whole, and unmapped again. -/
def FlushedAS.Mappable (h : Host) (as : FlushedAS) : Prop :=
  ∃ r, as.regionAt h 0 as.asRange.size true = some r ∧
    ∃ res, as.demandUnmap h r = .ret res

/-- The memory has what was in the caches of an address space, for whatever lines the caches write
back besides. -/
def FlushedAS.Reached (arch : Arch) (h : Host) (as : FlushedAS) (ops : List CacheOp) : Prop :=
  ∀ r, as.regionAt h 0 as.asRange.size true = some r →
    ∀ (s : WriteBack UInt64 UInt8) (es : List (WriteBack.Event UInt64 UInt8 ℕ)),
      (∀ l ∈ arch.lines ops, .clean l ∈ es) → ∀ i < as.asRange.size,
        WriteBack.Spares (UInt64.ofNat r.va + i) es →
          (s.run arch.line es).ram (UInt64.ofNat r.va + i) = s.view (UInt64.ofNat r.va + i)

/-! ## One address space -/

section One

variable {arch : Arch} {h : Host} {as : FlushedAS} {fuel fuel' : ℕ} {ops ops' : List CacheOp}

theorem Arch.lines_append (arch : Arch) (ops ops' : List CacheOp) :
    arch.lines (ops ++ ops') = arch.lines ops ++ arch.lines ops' := by
  rw [lines, List.map_append, List.map_append]
  rfl

theorem FlushedAS.Reached.mono (hreached : as.Reached arch h ops)
    (hsub : arch.lines ops ⊆ arch.lines ops') : as.Reached arch h ops' :=
  fun r hr s es hes i hi hspares => hreached r hr s es (fun l hl => hes l (hsub hl)) i hi hspares

theorem FlushedAS.flushGuestAs_of_flushable (hflush : as.flushable = true) :
    as.flushGuestAs arch h fuel =
      match as.regionAt h 0 as.asRange.size true with
      | none => some .abort
      | some r =>
          match arch.dcacheCleanInvalidateRange (UInt64.ofNat r.va) as.asRange.size fuel with
          | none => none
          | some ops =>
              match as.demandUnmap h r with
              | .abort => some .abort
              | .ret _ => some (.ret ops) := by
  rw [flushGuestAs, if_neg]
  simp only [flushable, Bool.and_eq_true, Bool.not_eq_true'] at hflush
  simp [hflush.1.1, hflush.1.2, hflush.2]

theorem Host.Maps.regionAt (hmaps : h.Maps) (hview : as.ViewMapped h) {r : HostRegion}
    (hr : as.regionAt h 0 as.asRange.size true = some r) :
    r.va % 4096 = 0 ∧ r.va + as.asRange.size.toNat + 2 ^ 17 ≤ 2 ^ 64 := by
  rw [SimpleAS.regionAt] at hr
  cases hcase : as.vmmView with
  | some view =>
      rw [hcase] at hr
      obtain rfl := Option.some.inj hr
      obtain ⟨write, hmap⟩ := hview view hcase
      exact ⟨hmaps.page _ _ _ _ hmap, hmaps.low _ _ _ _ hmap⟩
  | none =>
      rw [hcase] at hr
      obtain ⟨va, hmap, rfl⟩ := Option.map_eq_some_iff.1 hr
      exact ⟨hmaps.page _ _ _ _ hmap, hmaps.low _ _ _ _ hmap⟩

/-- **An address space that can be mapped** is flushed. -/
theorem FlushedAS.Mappable.flush (hmappable : as.Mappable h) (hmaps : h.Maps)
    (hview : as.ViewMapped h) (hflush : as.flushable = true) :
    ∃ fuel ops, as.flushGuestAs arch h fuel = some (.ret ops) ∧ as.Reached arch h ops := by
  obtain ⟨r, hr, res, hres⟩ := hmappable
  obtain ⟨hpage, hlow⟩ := hmaps.regionAt hview hr
  have hva : (UInt64.ofNat r.va).toNat = r.va := by
    rw [UInt64.toNat_ofNat']
    exact Nat.mod_eq_of_lt (by omega)
  have hfits : arch.Fits (UInt64.ofNat r.va) as.asRange.size :=
    Arch.fits_of_page (by rw [hva]; exact hpage) (by rw [hva]; exact hlow)
  obtain ⟨fuel, ops, hops, hcovers⟩ := Arch.cleans_iff.1
    ((arch.dcacheCleanInvalidateRange_iff _ _).2 (.inr hfits))
  refine ⟨fuel, ops, ?_, fun r' hr' s es hes i hi hspares => ?_⟩
  · rw [flushGuestAs_of_flushable hflush, hr]
    simp only [hops, hres]
  · obtain rfl : r = r' := Option.some.inj (hr.symm.trans hr')
    obtain ⟨va, hva, hline⟩ := hcovers i hi
    refine WriteBack.ram_run (hes _ ?_) hspares
    rw [← hline]
    exact List.mem_map_of_mem hva

theorem FlushedAS.mappable_of_flush (hret : as.flushGuestAs arch h fuel = some (.ret ops))
    (hflush : as.flushable = true) : as.Mappable h := by
  rw [flushGuestAs_of_flushable hflush] at hret
  cases hr : as.regionAt h 0 as.asRange.size true with
  | none =>
      rw [hr] at hret
      exact absurd hret nofun
  | some r =>
      simp only [hr] at hret
      cases hops : arch.dcacheCleanInvalidateRange (UInt64.ofNat r.va) as.asRange.size fuel with
      | none =>
          rw [hops] at hret
          exact absurd hret nofun
      | some ops' =>
          cases hunmap : as.demandUnmap h r with
          | abort =>
              simp only [hops, hunmap] at hret
              exact absurd hret nofun
          | ret res => exact ⟨r, hr, res, hunmap⟩

theorem FlushedAS.flushGuestAs_of_not_flushable (hflush : as.flushable = false) :
    as.flushGuestAs arch h fuel = some (.ret []) := by
  have hnot : (as.isReadOnly || !as.flushOnReset || !as.mobjectCredWrite) = !as.flushable := by
    simp [flushable, Bool.not_and]
  rw [flushGuestAs, if_pos (by rw [hnot, hflush]; rfl)]

theorem FlushedAS.flushGuestAs_mono {res : Outcome (List CacheOp)}
    (hres : as.flushGuestAs arch h fuel = some res) (hle : fuel ≤ fuel') :
    as.flushGuestAs arch h fuel' = some res := by
  cases hflush : as.flushable with
  | true =>
      rw [flushGuestAs_of_flushable hflush] at hres ⊢
      cases hr : as.regionAt h 0 as.asRange.size true with
      | none =>
          rw [hr] at hres
          exact hres
      | some r =>
          simp only [hr] at hres ⊢
          cases hops : arch.dcacheCleanInvalidateRange (UInt64.ofNat r.va) as.asRange.size fuel with
          | none =>
              rw [hops] at hres
              exact absurd hres nofun
          | some ops =>
              rw [Arch.dcacheCleanInvalidateRange_mono hops hle]
              rw [hops] at hres
              exact hres
  | false =>
      rw [flushGuestAs_of_not_flushable hflush] at hres ⊢
      exact hres

end One

/-! ## All devices -/

section Bus

variable {arch : Arch} {h : Host} {fuel fuel' : ℕ} {ops : List CacheOp}
  {es : List (DeviceEntry FlushDevice)}

/-- The memory that is to be flushed. -/
def Flushes (es : List (DeviceEntry FlushDevice)) (as : FlushedAS) : Prop :=
  ∃ e ∈ es, e.device = .memory as ∧ as.flushable = true

theorem flushes_cons {e : DeviceEntry FlushDevice} {as : FlushedAS} :
    Flushes (e :: es) as ↔ (e.device = .memory as ∧ as.flushable = true) ∨ Flushes es as := by
  simp only [Flushes, List.mem_cons, exists_eq_or_imp]

theorem flushDevices_cons {e : DeviceEntry FlushDevice} :
    flushDevices arch h fuel (e :: es) = some (.ret ops) ↔
      ∃ first rest, flushCallback arch h fuel e.device = some (.ret first) ∧
        flushDevices arch h fuel es = some (.ret rest) ∧ ops = first ++ rest := by
  rw [flushDevices]
  rcases hfirst : flushCallback arch h fuel e.device with _ | _ | first
  · simp
  · simp
  · rcases hrest : flushDevices arch h fuel es with _ | _ | rest
    · simp
    · simp
    · simp [eq_comm]

theorem flushCallback_mono {d : FlushDevice} {res : Outcome (List CacheOp)}
    (hres : flushCallback arch h fuel d = some res) (hle : fuel ≤ fuel') :
    flushCallback arch h fuel' d = some res := by
  cases d with
  | device => exact hres
  | irqController => exact hres
  | memory as => exact FlushedAS.flushGuestAs_mono hres hle

theorem flushDevices_mono (hret : flushDevices arch h fuel es = some (.ret ops))
    (hle : fuel ≤ fuel') : flushDevices arch h fuel' es = some (.ret ops) := by
  induction es generalizing ops with
  | nil => exact hret
  | cons e es ih =>
      obtain ⟨first, rest, hfirst, hrest, rfl⟩ := flushDevices_cons.1 hret
      exact flushDevices_cons.2 ⟨first, rest, flushCallback_mono hfirst hle, ih hrest, rfl⟩

theorem mappable_of_flushDevices (hret : flushDevices arch h fuel es = some (.ret ops))
    {as : FlushedAS} (has : Flushes es as) : as.Mappable h := by
  induction es generalizing ops with
  | nil => exact absurd has.choose_spec.1 List.not_mem_nil
  | cons e es ih =>
      obtain ⟨first, rest, hfirst, hrest, rfl⟩ := flushDevices_cons.1 hret
      obtain ⟨hdevice, hflush⟩ | has := flushes_cons.1 has
      · rw [hdevice] at hfirst
        exact FlushedAS.mappable_of_flush hfirst hflush
      · exact ih hrest has

theorem flushDevices_of_mappable (hmaps : h.Maps)
    (hviews : ∀ as, Flushes es as → as.ViewMapped h)
    (hmappable : ∀ as, Flushes es as → as.Mappable h) :
    ∃ fuel ops, flushDevices arch h fuel es = some (.ret ops) ∧
      ∀ as, Flushes es as → as.Reached arch h ops := by
  induction es with
  | nil => exact ⟨0, [], rfl, fun as has => absurd has.choose_spec.1 List.not_mem_nil⟩
  | cons e es ih =>
      obtain ⟨fuel, rest, hrest, hreached⟩ := ih
        (fun as has => hviews as (flushes_cons.2 (.inr has)))
        (fun as has => hmappable as (flushes_cons.2 (.inr has)))
      obtain ⟨fuel', first, hfirst, hreached'⟩ : ∃ fuel first,
          flushCallback arch h fuel e.device = some (.ret first) ∧
            ∀ as, e.device = .memory as → as.flushable = true → as.Reached arch h first := by
        cases hdevice : e.device with
        | device => exact ⟨0, [], rfl, nofun⟩
        | irqController => exact ⟨0, [], rfl, nofun⟩
        | memory as =>
            cases hflush : as.flushable with
            | true =>
                have has := (@flushes_cons es e as).2 (.inl ⟨hdevice, hflush⟩)
                obtain ⟨fuel, ops, hret, hreached⟩ :=
                  (hmappable as has).flush hmaps (hviews as has) hflush
                refine ⟨fuel, ops, hret, fun as' heq _ => ?_⟩
                rwa [← FlushDevice.memory.inj heq]
            | false =>
                refine ⟨0, [], ?_, fun as' heq hflush' => ?_⟩
                · exact FlushedAS.flushGuestAs_of_not_flushable hflush
                · rw [← FlushDevice.memory.inj heq, hflush] at hflush'
                  exact absurd hflush' nofun
      refine ⟨max fuel fuel', first ++ rest, flushDevices_cons.2 ⟨first, rest,
        flushCallback_mono hfirst (Nat.le_max_right ..),
        flushDevices_mono hrest (Nat.le_max_left ..), rfl⟩, fun as has => ?_⟩
      rw [flushes_cons] at has
      obtain ⟨hdevice, hflush⟩ | has := has
      · refine (hreached' as hdevice hflush).mono ?_
        rw [Arch.lines_append]
        exact List.subset_append_left ..
      · refine (hreached as has).mono ?_
        rw [Arch.lines_append]
        exact List.subset_append_right ..

/-- **A flush of the guest's memory** returns exactly if all of it that is to be flushed can be
mapped and unmapped. What was in the caches has then reached the memory, whatever lines the caches
write back meanwhile. -/
theorem flush_iff (hmaps : h.Maps) {bus : Bus FlushDevice}
    (hviews : ∀ as, Flushes bus.devices.set as → as.ViewMapped h) :
    (∃ fuel ops, flushBus arch h bus fuel = some (.ret ops) ∧
      ∀ as, Flushes bus.devices.set as → as.Reached arch h ops) ↔
      ∀ as, Flushes bus.devices.set as → as.Mappable h :=
  ⟨fun ⟨_, _, hret, _⟩ _ has => mappable_of_flushDevices hret has,
    flushDevices_of_mappable hmaps hviews⟩

/-- A host that maps everything at one address. -/
def flushHost : Host where
  mapMem _ _ size _ := if size ≤ 0x10000000 then some 0x10000 else none
  unmapMem _ _ := true

/-- A bus with two pages of memory. -/
def flushedBus : Bus FlushDevice :=
  (({} : Bus FlushDevice).registerDevice
    (.memory { asRange := ⟨0x80000000, 0x2000⟩, msel := 7 }) 0x80000000 0x2000 true).2

/-- Two pages are flushed. -/
theorem flush_two_pages : ∃ fuel ops,
    flushBus (.aarch64 0x00040000) flushHost flushedBus fuel = some (.ret ops) := by
  have hmaps : flushHost.Maps := by
    refine ⟨fun sel size write va h => ?_, fun sel size write va h => ?_⟩
    · simp only [flushHost, Option.ite_none_right_eq_some, Option.some.injEq] at h
      rw [← h.2]
    · simp only [flushHost, Option.ite_none_right_eq_some, Option.some.injEq] at h
      have hsize : size.toNat ≤ 0x10000000 := UInt64.le_iff_toNat_le.1 h.1
      omega
  have honly (as : FlushedAS) (has : Flushes flushedBus.devices.set as) :
      as = { asRange := ⟨0x80000000, 0x2000⟩, msel := 7 } := by
    obtain ⟨e, he, hdevice, -⟩ := has
    have hset : flushedBus.devices.set = [⟨.memory { asRange := ⟨0x80000000, 0x2000⟩, msel := 7 },
        ⟨0x80000000, 0x2000⟩, 0⟩] := rfl
    rw [hset, List.mem_singleton] at he
    rw [he] at hdevice
    exact (FlushDevice.memory.inj hdevice).symm
  obtain ⟨fuel, ops, hret, -⟩ := (@flush_iff (.aarch64 0x00040000) _ hmaps flushedBus
    fun as has view hview => by rw [honly as has] at hview; exact absurd hview nofun).2
    fun as has => by
      rw [honly as has]
      exact ⟨⟨7, 0, 0x2000, 0x10000⟩, rfl, _, rfl⟩
  exact ⟨fuel, ops, hret⟩

end Bus

end Vml
