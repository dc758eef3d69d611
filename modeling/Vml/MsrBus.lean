import Vml.Lib.Run
import Vml.Lib.SearchSet
import Vml.Vbus

/-!
# The bus of system registers

`msr_base.cpp` and `intrusive/map.hpp`: register objects are in a `std::set` that is ordered by
their addresses, and the id of each is in a field of its own (`MapKey::_key`).

**What it is for** is `Registers`: a partial map from ids to objects, each of which has one id.

* `BaseBus.registers_refined_iff`: a run of calls refines the partial map exactly if every object is
  registered with an id that is free, or once more with the id that it has.
-/

namespace Vml

/-- `MapKV<K, V>`, with the keys of all objects, also of those that are not in the set. -/
structure MapKV (κ ρ : Type*) where
  set : List ρ := []
  key : ρ → κ

namespace MapKV

variable {κ ρ : Type*} [LinearOrder ρ]

/-- The order of `std::set<V *>`. -/
def less (r r' : ρ) : Bool := decide (r < r')

variable [DecidableEq κ]

/-- `insert`. The object that it returns is read through an iterator that `erase` has invalidated;
this is the object that was there. -/
def insert (m : MapKV κ ρ) (key : κ) (value : ρ) : MapKV κ ρ × Option ρ :=
  let m : MapKV κ ρ := { m with key := Function.update m.key value key }
  match SearchSet.find id less m.set value with
  | some old =>
      let erased := SearchSet.remove id less m.set value
      ({ m with set := (SearchSet.insert id less erased value).1 }, some old)
  | none => ({ m with set := (SearchSet.insert id less m.set value).1 }, none)

/-- `remove_existing`. -/
def removeExisting (m : MapKV κ ρ) (r : ρ) : MapKV κ ρ :=
  { m with set := SearchSet.remove id less m.set r }

/-- `operator[]`. -/
def get (m : MapKV κ ρ) (key : κ) : Option ρ := m.set.find? fun r => decide (m.key r = key)

end MapKV

namespace Msr

open Vbus (Access)

/-- What the bus does with an access. -/
inductive Dispatch (ρ : Type*)
  | assertFails
  | noDevice
  | register (r : ρ) (access : Access) (val : UInt64)
  deriving DecidableEq, Repr

/-- `Msr::BaseBus`. -/
structure BaseBus (ρ : Type*) where
  devices : MapKV UInt64 ρ
  trace : Bool := false
  fold : Bool := true
  lastAccess : Option ρ := none
  numAccesses : ℕ := 0

namespace BaseBus

variable {ρ : Type*} [LinearOrder ρ]

/-- `register_device`. -/
def registerDevice (b : BaseBus ρ) (r : ρ) (id : UInt64) : Bool × BaseBus ρ :=
  match b.devices.insert id r with
  | (devices, some old) =>
      (false, { b with devices := ((devices.removeExisting r).insert id old).1 })
  | (devices, none) => (true, { b with devices := devices })

/-- `get_device_at`. -/
def getDeviceAt (b : BaseBus ρ) (id : UInt64) : Option ρ := b.devices.get id

/-- `log_trace_info`, but for the messages. -/
def logTraceInfo (b : BaseBus ρ) (reg : ρ) : BaseBus ρ :=
  if b.lastAccess ≠ some reg then { b with numAccesses := 0, lastAccess := some reg }
  else if b.fold then { b with numAccesses := b.numAccesses + 1 }
  else { b with numAccesses := 0, lastAccess := some reg }

/-- `access`, up to the call of the register. -/
def access (b : BaseBus ρ) (access : Access) (id val : UInt64) : Dispatch ρ × BaseBus ρ :=
  if access = .exec then (.assertFails, b)
  else
    match b.devices.get id with
    | none => (.noDevice, b)
    | some reg => (.register reg access val, if b.trace then b.logTraceInfo reg else b)

/-- `set_trace`. -/
def setTrace (b : BaseBus ρ) (enabled foldSuccessive : Bool) : BaseBus ρ :=
  { b with trace := enabled, fold := foldSuccessive }

/-- `reset`: the registers that are reset, in this order. -/
def reset (b : BaseBus ρ) : List ρ := b.devices.set

end BaseBus

/-! ## Runs -/

/-- A call of the bus. -/
inductive Call (ρ : Type*)
  | registerDevice (r : ρ) (id : UInt64)
  | access (access : Access) (id val : UInt64)
  | getDeviceAt (id : UInt64)
  | setTrace (enabled foldSuccessive : Bool)

/-- What a call returns. -/
inductive Answer (ρ : Type*)
  | registered (ok : Bool)
  | dispatched (d : Dispatch ρ)
  | found (r : Option ρ)
  | done
  deriving DecidableEq, Repr

namespace BaseBus

variable {ρ : Type*} [LinearOrder ρ]

/-- A call, with what it returns. -/
def exec (b : BaseBus ρ) : Call ρ → Answer ρ × BaseBus ρ
  | .registerDevice r id => (.registered (b.registerDevice r id).1, (b.registerDevice r id).2)
  | .access access id val => (.dispatched (b.access access id val).1, (b.access access id val).2)
  | .getDeviceAt id => (.found (b.getDeviceAt id), b)
  | .setTrace enabled foldSuccessive => (.done, b.setTrace enabled foldSuccessive)

/-- The bus after a call. -/
def next (b : BaseBus ρ) (c : Call ρ) : BaseBus ρ := (b.exec c).2

end BaseBus

/-! ## What the bus is for -/

/-- Which object is registered for an id. -/
abbrev Registers (ρ : Type*) := UInt64 → Option ρ

namespace Registers

variable {ρ : Type*} [DecidableEq ρ]

/-- The object has no id yet. -/
def Unregistered (R : Registers ρ) (r : ρ) : Prop := ∀ id, R id ≠ some r

open Classical in
/-- What a call returns, and the registers after it. -/
noncomputable def exec (R : Registers ρ) : Call ρ → Answer ρ × Registers ρ
  | .registerDevice r id =>
      if R id = none ∧ R.Unregistered r then (.registered true, Function.update R id (some r))
      else (.registered false, R)
  | .access access id val =>
      if access = .exec then (.dispatched .assertFails, R)
      else
        match R id with
        | none => (.dispatched .noDevice, R)
        | some r => (.dispatched (.register r access val), R)
  | .getDeviceAt id => (.found (R id), R)
  | .setTrace _ _ => (.done, R)

end Registers

end Msr

/-! ## The set of objects -/

namespace MapKV

variable {κ ρ : Type*} [LinearOrder ρ] {l : List ρ} {r r' : ρ}

/-- The pointers are in order. -/
abbrev InOrder (l : List ρ) : Prop := SearchSet.Ordered id less l

theorem meets_iff : SearchSet.Meets id less r r' ↔ r' = r := by
  simp only [SearchSet.Meets, less, id, decide_eq_false_iff_not, not_lt]
  exact ⟨fun h => le_antisymm h.2 h.1, fun h => ⟨h.ge, h.le⟩⟩

theorem find_of_mem (h : InOrder l) (hr : r ∈ l) :
    SearchSet.find id less l r = some r := by
  cases hf : SearchSet.find id less l r with
  | none => exact absurd (meets_iff.2 rfl) ((SearchSet.find_eq_none_iff h).1 hf r hr)
  | some e => rw [meets_iff.1 (SearchSet.mem_of_find h hf).2]

theorem find_of_not_mem (h : InOrder l) (hr : r ∉ l) :
    SearchSet.find id less l r = none :=
  (SearchSet.find_eq_none_iff h).2 fun _ he hmeets => hr (meets_iff.1 hmeets ▸ he)

theorem insert_of_not_mem (h : InOrder l) (hr : r ∉ l) :
    InOrder (SearchSet.insert id less l r).1 ∧
      ∀ x, x ∈ (SearchSet.insert id less l r).1 ↔ x = r ∨ x ∈ l := by
  rcases SearchSet.insert_cases h r with ⟨pre, post, rfl, hins, hpre, hpost⟩ | ⟨⟨e, he, hmeets⟩, -⟩
  · rw [hins]
    refine ⟨h.insert hpre hpost fun k k' hk hk' => ?_, fun x => ?_⟩
    · exact decide_eq_true (lt_trans (of_decide_eq_true hk) (of_decide_eq_true hk'))
    · simp only [List.mem_append, List.mem_cons]
      exact or_left_comm
  · obtain rfl : e = r := meets_iff.1 hmeets
    exact absurd he hr

/-- An object that is taken out of the set, which stays in order. -/
theorem remove_of_mem (h : InOrder l) (hr : r ∈ l) :
    InOrder (SearchSet.remove id less l r) ∧
      ∀ x, x ∈ SearchSet.remove id less l r ↔ x ≠ r ∧ x ∈ l := by
  obtain ⟨pre, post, rfl, hrem, -⟩ := SearchSet.remove_of_find (find_of_mem h hr)
  rw [hrem]
  have hpair := h.pairwise
  rw [List.pairwise_append] at hpair
  have hpre (x : ρ) (hx : x ∈ pre) : x ≠ r :=
    (of_decide_eq_true (hpair.2.2 x hx r List.mem_cons_self)).ne
  have hpost (x : ρ) (hx : x ∈ post) : x ≠ r :=
    (of_decide_eq_true ((List.pairwise_cons.1 hpair.2.1).1 x hx)).ne'
  refine ⟨h.sublist ((List.Sublist.refl pre).append (List.sublist_cons_self r post)), fun x => ?_⟩
  · simp only [List.mem_append, List.mem_cons]
    constructor
    · rintro (hx | hx)
      · exact ⟨hpre x hx, .inl hx⟩
      · exact ⟨hpost x hx, .inr (.inr hx)⟩
    · rintro ⟨hne, hx | hx | hx⟩
      · exact .inl hx
      · exact absurd hx hne
      · exact .inr hx

/-- The set is in order, and no two of its objects have one key. -/
structure Sound (m : MapKV κ ρ) : Prop where
  inOrder : InOrder m.set
  distinct : ∀ r ∈ m.set, ∀ r' ∈ m.set, m.key r = m.key r' → r = r'

variable {m m' : MapKV κ ρ} {k : κ}

theorem insert_of_mem (h : InOrder m.set) (hr : r ∈ m.set) :
    ∃ set, m.insert k r = (⟨set, Function.update m.key r k⟩, some r) ∧
      InOrder set ∧ ∀ x, x ∈ set ↔ x ∈ m.set := by
  obtain ⟨horder, hmem⟩ := remove_of_mem h hr
  obtain ⟨horder', hmem'⟩ := insert_of_not_mem horder fun hin => ((hmem r).1 hin).1 rfl
  refine ⟨_, ?_, horder', fun x => ?_⟩
  · rw [insert, find_of_mem h hr]
  · rw [hmem', hmem]
    constructor
    · rintro (rfl | ⟨-, hx⟩)
      · exact hr
      · exact hx
    · intro hx
      by_cases hxr : x = r
      · exact .inl hxr
      · exact .inr ⟨hxr, hx⟩

theorem insert_new (h : InOrder m.set) (hr : r ∉ m.set) :
    ∃ set, m.insert k r = (⟨set, Function.update m.key r k⟩, none) ∧
      InOrder set ∧ ∀ x, x ∈ set ↔ x = r ∨ x ∈ m.set := by
  obtain ⟨horder, hmem⟩ := insert_of_not_mem h hr
  exact ⟨_, by rw [insert, find_of_not_mem h hr], horder, hmem⟩

variable [DecidableEq κ]

/-- **Lookups** find the objects of the set by their keys. -/
theorem Sound.get_eq_some_iff (h : m.Sound) : m.get k = some r ↔ r ∈ m.set ∧ m.key r = k := by
  constructor
  · intro hget
    have hkey := List.find?_some (p := fun r => decide (m.key r = k)) hget
    exact ⟨List.mem_of_find?_eq_some hget, of_decide_eq_true hkey⟩
  · rintro ⟨hr, rfl⟩
    cases hget : m.get (m.key r) with
    | none => exact absurd (List.find?_eq_none.1 hget r hr) (by simp)
    | some r' =>
        have hkey := List.find?_some (p := fun x => decide (m.key x = m.key r)) hget
        rw [h.distinct r' (List.mem_of_find?_eq_some hget) r hr (of_decide_eq_true hkey)]

theorem Sound.get_eq_none_iff (h : m.Sound) : m.get k = none ↔ ∀ r ∈ m.set, m.key r ≠ k := by
  rw [Option.eq_none_iff_forall_ne_some]
  simp only [ne_eq, h.get_eq_some_iff, not_and]

theorem Sound.not_mem_iff (h : m.Sound) : r ∉ m.set ↔ ∀ k, m.get k ≠ some r := by
  simp only [ne_eq, h.get_eq_some_iff, not_and]
  exact ⟨fun hr _ hmem => absurd hmem hr, fun hr hmem => hr _ hmem rfl⟩

theorem Sound.get_congr (h : m.Sound) (h' : m'.Sound) (hset : ∀ x, x ∈ m'.set ↔ x ∈ m.set)
    (hkey : m'.key = m.key) : m'.get k = m.get k := by
  ext r
  rw [h.get_eq_some_iff, h'.get_eq_some_iff, hset, hkey]

/-- **An object with a free key** is found by that key. -/
theorem Sound.insert_new (h : m.Sound) (hr : r ∉ m.set) (hfree : m.get k = none) :
    (m.insert k r).2 = none ∧ (m.insert k r).1.Sound ∧
      (m.insert k r).1.get = Function.update m.get k (some r) := by
  obtain ⟨set, hins, horder, hmem⟩ := MapKV.insert_new (k := k) h.inOrder hr
  have hother (x : ρ) (hx : x ∈ m.set) : Function.update m.key r k x = m.key x :=
    Function.update_of_ne (ne_of_mem_of_not_mem hx hr) ..
  have hkey := h.get_eq_none_iff.1 hfree
  have hsound : (⟨set, Function.update m.key r k⟩ : MapKV κ ρ).Sound := by
    refine ⟨horder, fun x hx y hy hxy => ?_⟩
    change Function.update m.key r k x = Function.update m.key r k y at hxy
    obtain rfl | hxin := (hmem x).1 hx <;> obtain rfl | hyin := (hmem y).1 hy
    · rfl
    · rw [Function.update_self, hother y hyin] at hxy
      exact absurd hxy.symm (hkey y hyin)
    · rw [Function.update_self, hother x hxin] at hxy
      exact absurd hxy (hkey x hxin)
    · rw [hother x hxin, hother y hyin] at hxy
      exact h.distinct x hxin y hyin hxy
  rw [hins]
  refine ⟨rfl, hsound, ?_⟩
  funext k'
  ext x
  rw [hsound.get_eq_some_iff]
  by_cases hk : k' = k
  · subst hk
    rw [Function.update_self, Option.some.injEq]
    constructor
    · rintro ⟨hx, hxk⟩
      obtain rfl | hx := (hmem x).1 hx
      · rfl
      · exact absurd ((hother x hx).symm.trans hxk) (hkey x hx)
    · rintro rfl
      exact ⟨(hmem r).2 (.inl rfl), Function.update_self ..⟩
  · rw [Function.update_of_ne hk, h.get_eq_some_iff]
    constructor
    · rintro ⟨hx, hxk⟩
      change Function.update m.key r k x = k' at hxk
      obtain rfl | hx := (hmem x).1 hx
      · rw [Function.update_self] at hxk
        exact absurd hxk.symm hk
      · exact ⟨hx, (hother x hx).symm.trans hxk⟩
    · rintro ⟨hx, hxk⟩
      exact ⟨(hmem x).2 (.inr hx), (hother x hx).trans hxk⟩

end MapKV

/-! ## Registrations -/

namespace Msr

namespace BaseBus

variable {ρ : Type*} [LinearOrder ρ] {b : BaseBus ρ} {r : ρ} {i : UInt64}

/-- The registers that lookups find. -/
def registers (b : BaseBus ρ) : Registers ρ := b.devices.get

/-- The call returns what it is to return, and leaves the registers that it is to leave. -/
def Refines (b : BaseBus ρ) (c : Call ρ) : Prop :=
  (b.exec c).1 = (b.registers.exec c).1 ∧ (b.next c).registers = (b.registers.exec c).2

/-- **The condition**: an object is registered with an id that is free, or once more with the id
that it has. -/
def Suits (b : BaseBus ρ) : Call ρ → Prop
  | .registerDevice r i =>
      b.registers i = some r ∨ b.registers i = none ∧ b.registers.Unregistered r
  | _ => True

theorem devices_logTraceInfo : (b.logTraceInfo r).devices = b.devices := by
  rw [logTraceInfo]
  split_ifs <;> rfl

theorem devices_access (access : Vbus.Access) (val : UInt64) :
    (b.access access i val).2.devices = b.devices := by
  unfold BaseBus.access
  split
  · rfl
  · split
    · rfl
    · show (if b.trace = true then _ else b).devices = b.devices
      split_ifs
      · exact devices_logTraceInfo
      · rfl

/-- **An object that is registered** is not registered again, but has the id after that. -/
theorem registerDevice_of_mem (h : MapKV.InOrder b.devices.set) (hr : r ∈ b.devices.set) :
    (b.registerDevice r i).1 = false ∧
      (b.registerDevice r i).2.devices.key = Function.update b.devices.key r i ∧
      MapKV.InOrder (b.registerDevice r i).2.devices.set ∧
      ∀ x, x ∈ (b.registerDevice r i).2.devices.set ↔ x ∈ b.devices.set := by
  obtain ⟨set, hins, horder, hmem⟩ := MapKV.insert_of_mem (k := i) h hr
  obtain ⟨horder', hmem'⟩ := MapKV.remove_of_mem horder ((hmem r).2 hr)
  obtain ⟨set', hins', horder'', hmem''⟩ := MapKV.insert_new (k := i) (r := r)
    (m := ⟨SearchSet.remove id MapKV.less set r, Function.update b.devices.key r i⟩)
    horder' fun hin => ((hmem' r).1 hin).1 rfl
  have heq : b.registerDevice r i =
      (false, { b with devices := ⟨set', Function.update b.devices.key r i⟩ }) := by
    rw [registerDevice, hins]
    dsimp only [MapKV.removeExisting]
    rw [Function.update_idem] at hins'
    rw [hins']
  rw [heq]
  refine ⟨rfl, rfl, horder'', fun x => ?_⟩
  rw [hmem'', hmem', hmem]
  constructor
  · rintro (rfl | ⟨-, hx⟩)
    · exact hr
    · exact hx
  · intro hx
    by_cases hxr : x = r
    · exact .inl hxr
    · exact .inr ⟨hxr, hx⟩

theorem registerDevice_of_not_mem (h : MapKV.InOrder b.devices.set) (hr : r ∉ b.devices.set) :
    b.registerDevice r i = (true, { b with devices := (b.devices.insert i r).1 }) := by
  obtain ⟨set, hins, -⟩ := MapKV.insert_new (k := i) h hr
  rw [registerDevice, hins]

/-- **A registration refines** the partial map exactly if it suits. -/
theorem refines_registerDevice_iff (h : b.devices.Sound) :
    b.Refines (.registerDevice r i) ↔ b.Suits (.registerDevice r i) := by
  by_cases hr : r ∈ b.devices.set
  · obtain ⟨hanswer, hkey, horder, hmem⟩ := registerDevice_of_mem (i := i) h.inOrder hr
    have hregistered : ¬b.registers.Unregistered r := fun hun =>
      h.not_mem_iff.2 hun hr
    have hexec : b.registers.exec (.registerDevice r i) = (.registered false, b.registers) :=
      if_neg fun hand => hregistered hand.2
    rw [Refines, hexec, exec, hanswer, Suits, or_iff_left fun hand => hregistered hand.2]
    refine ⟨fun hrefines => ?_, fun hid => ⟨rfl, ?_⟩⟩
    · -- the object is still found at the id that it had
      have hold : b.registers (b.devices.key r) = some r := h.get_eq_some_iff.2 ⟨hr, rfl⟩
      have hkeeps : (b.next (.registerDevice r i)).registers = b.registers := hrefines.2
      rw [← hkeeps] at hold
      have hfound := List.find?_some
        (p := fun x => decide ((b.next (.registerDevice r i)).devices.key x = _)) hold
      have hsame := of_decide_eq_true hfound
      change (b.registerDevice r i).2.devices.key r = _ at hsame
      rw [hkey, Function.update_self] at hsame
      exact h.get_eq_some_iff.2 ⟨hr, hsame.symm⟩
    · have hsame : (b.registerDevice r i).2.devices.key = b.devices.key := by
        rw [hkey, ← (h.get_eq_some_iff.1 hid).2, Function.update_eq_self]
      have hsound : (b.registerDevice r i).2.devices.Sound := by
        refine ⟨horder, fun x hx y hy hxy => h.distinct x ((hmem x).1 hx) y ((hmem y).1 hy) ?_⟩
        rwa [hsame] at hxy
      funext j
      exact h.get_congr hsound hmem hsame
  · have hun : b.registers.Unregistered r := h.not_mem_iff.1 hr
    rw [Suits, or_iff_right fun hid => hun i hid, and_iff_left hun]
    have heq := registerDevice_of_not_mem (i := i) h.inOrder hr
    by_cases hid : b.registers i = none
    · obtain ⟨-, -, hget⟩ := h.insert_new hr hid
      have hexec : b.registers.exec (.registerDevice r i) =
          (.registered true, Function.update b.registers i (some r)) := if_pos ⟨hid, hun⟩
      refine iff_of_true ?_ hid
      rw [Refines, hexec, exec, next, exec, heq]
      exact ⟨rfl, hget⟩
    · have hexec : b.registers.exec (.registerDevice r i) = (.registered false, b.registers) :=
        if_neg fun hand => hid hand.1
      refine iff_of_false (fun hrefines => ?_) hid
      rw [Refines, hexec, exec, heq] at hrefines
      exact nomatch hrefines.1

/-- **A call refines the partial map** exactly if it suits. -/
theorem refines_iff_suits (h : b.devices.Sound) (c : Call ρ) : b.Refines c ↔ b.Suits c := by
  cases c with
  | registerDevice r i => exact refines_registerDevice_iff h
  | access access i val =>
      refine iff_of_true ⟨?_, ?_⟩ trivial
      · rw [exec, Registers.exec]
        unfold BaseBus.access registers
        by_cases hexec : access = .exec
        · rw [if_pos hexec, if_pos hexec]
        · rw [if_neg hexec, if_neg hexec]
          cases b.devices.get i <;> rfl
      · have hregisters : (b.next (.access access i val)).registers = b.registers :=
          congrArg MapKV.get (devices_access access val)
        rw [hregisters, Registers.exec]
        split_ifs
        · rfl
        · cases b.registers i <;> rfl
  | getDeviceAt i => exact iff_of_true ⟨rfl, rfl⟩ trivial
  | setTrace enabled foldSuccessive => exact iff_of_true ⟨rfl, rfl⟩ trivial

/-- A call that suits keeps the set in order and the ids apart. -/
theorem sound_next (h : b.devices.Sound) (c : Call ρ) (hsuits : b.Suits c) :
    (b.next c).devices.Sound := by
  cases c with
  | registerDevice r i =>
      obtain hid | ⟨hid, hun⟩ := hsuits
      · obtain ⟨hr, hkeyed⟩ := h.get_eq_some_iff.1 hid
        obtain ⟨-, hkey, horder, hmem⟩ := registerDevice_of_mem (i := i) h.inOrder hr
        refine ⟨horder, fun x hx y hy hxy => h.distinct x ((hmem x).1 hx) y ((hmem y).1 hy) ?_⟩
        change (b.registerDevice r i).2.devices.key x = (b.registerDevice r i).2.devices.key y at hxy
        rwa [hkey, ← hkeyed, Function.update_eq_self] at hxy
      · have hr := h.not_mem_iff.2 hun
        obtain ⟨-, hsound, -⟩ := h.insert_new hr hid
        rw [next, exec, registerDevice_of_not_mem h.inOrder hr]
        exact hsound
  | access access i val =>
      show (b.access access i val).2.devices.Sound
      rwa [devices_access]
  | getDeviceAt i => exact h
  | setTrace enabled foldSuccessive => exact h

/-- **A run of calls refines the partial map** exactly if every call suits. Whatever the keys of the
objects are before they are registered, lookups find each at its id. -/
theorem registers_refined_iff (key : ρ → UInt64) (calls : List (Call ρ)) :
    AllOk BaseBus.next Refines { devices := { key := key } } calls ↔
      AllOk BaseBus.next Suits { devices := { key := key } } calls :=
  (@allOk_congr _ _ BaseBus.next Suits Refines (fun b => b.devices.Sound)
    (fun _ c h => sound_next h c) (fun _ c h => (refines_iff_suits h c).symm) _ _
    ⟨SearchSet.ordered_nil, nofun⟩).symm

/-- Two registers at one id, and one register at two. -/
theorem registered_twice :
    let b : BaseBus ℕ := { devices := { key := fun _ => 0 } }
    let two := [Call.registerDevice 7 5, .registerDevice 8 5].foldl BaseBus.next b
    let moved := [Call.registerDevice 7 5, .registerDevice 7 6].foldl BaseBus.next b
    ((b.next (.registerDevice 7 5)).exec (.registerDevice 8 5)).1 = .registered true ∧
      (two.exec (.access .read 5 0)).1 = .dispatched (.register 7 .read 0) ∧
      ((b.next (.registerDevice 7 5)).exec (.registerDevice 7 6)).1 = .registered false ∧
      (moved.exec (.access .read 5 0)).1 = .dispatched .noDevice ∧
      ¬AllOk BaseBus.next Refines b [.registerDevice 7 5, .registerDevice 8 5] ∧
      ¬AllOk BaseBus.next Refines b [.registerDevice 7 5, .registerDevice 7 6] := by
  have hsound : ({ devices := { key := fun _ => 0 } } : BaseBus ℕ).devices.Sound :=
    ⟨SearchSet.ordered_nil, nofun⟩
  refine ⟨by decide, by decide, by decide, by decide, fun h => ?_, fun h => ?_⟩
  · have hnext := sound_next hsound _ ((refines_iff_suits hsound _).1 h.1)
    obtain hused | ⟨hfree, -⟩ := (refines_iff_suits hnext _).1 h.2.1
    · exact absurd hused (by decide)
    · exact absurd hfree (by decide)
  · have hnext := sound_next hsound _ ((refines_iff_suits hsound _).1 h.1)
    obtain hused | ⟨-, hun⟩ := (refines_iff_suits hnext _).1 h.2.1
    · exact absurd hused (by decide)
    · exact hun 5 (by decide)

end BaseBus

end Msr

end Vml
