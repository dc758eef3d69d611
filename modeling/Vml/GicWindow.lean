import Vml.GicRun
import Vml.GicScan
import Vml.MmioRead

/-!
# Windows of registers

Most registers of the distributor come in windows that hold a few bits of every interrupt. An access
that begins `k` bytes into a window is to the interrupts whose bits its bytes hold, as far as they
are configured (`IrqMmioAccess.irqs_eq`).

**Writes.** A write to a window that has a bit for every interrupt changes the interrupts whose bit
is set, and nothing else (`write_eq_mapIrqs`).

**Reads.** A read of such a window shows the bits of the interrupts (`testBit_read`).
-/

namespace Vml

namespace IrqMmioAccess

variable {acc : IrqMmioAccess} {k : ℕ}

/-- What is asked of an access that begins `k` bytes into its window. -/
structure Begins (acc : IrqMmioAccess) (k : ℕ) : Prop where
  offset : (acc.offset - acc.baseAbs).toNat = k
  bytes : acc.bytes ≤ 4
  irqPerBytes : acc.irqPerBytes ≤ 8
  le : k ≤ 1024
  irqBase : acc.irqBase ≤ 32
  irqMax : acc.irqMax ≤ 1024

/-- The first interrupt of the access. -/
def first (acc : IrqMmioAccess) (k : ℕ) : ℕ := k * acc.irqPerBytes.toNat + acc.irqBase.toNat

/-- How many bits, or bytes, the access brings. -/
def room (acc : IrqMmioAccess) : ℕ := acc.bytes.toNat * acc.irqPerBytes.toNat

theorem Begins.first_le (h : acc.Begins k) : acc.first k ≤ 1024 * 8 + 32 := by
  have hper : acc.irqPerBytes.toNat ≤ 8 := UInt8.le_iff_toNat_le.1 h.irqPerBytes
  have hbase : acc.irqBase.toNat ≤ 32 := UInt16.le_iff_toNat_le.1 h.irqBase
  exact Nat.add_le_add (Nat.mul_le_mul h.le hper) hbase

theorem Begins.room_le (h : acc.Begins k) : acc.room ≤ 4 * 8 :=
  Nat.mul_le_mul (UInt8.le_iff_toNat_le.1 h.bytes) (UInt8.le_iff_toNat_le.1 h.irqPerBytes)

theorem Begins.firstIrqAccessed (h : acc.Begins k) : acc.firstIrqAccessed.toNat = acc.first k := by
  have hle := h.first_le
  rw [first] at hle ⊢
  rw [IrqMmioAccess.firstIrqAccessed, UInt64.toNat_toUInt16, UInt64.toNat_add, UInt64.toNat_mul,
    h.offset, UInt8.toNat_toUInt64, UInt16.toNat_toUInt64]
  rw [Nat.mod_eq_of_lt (show k * acc.irqPerBytes.toNat < 2 ^ 64 by omega),
    Nat.mod_eq_of_lt (show _ < 2 ^ 64 by omega), Nat.mod_eq_of_lt (by omega)]

/-- The arithmetic of `num_irqs`, where it does not wrap: the access is cut off at the last
interrupt. -/
theorem numIrqs_eq {first n : ℕ} (hfirst : acc.firstIrqAccessed.toNat = first)
    (hn : (acc.bytes.toUInt16 * acc.irqPerBytes.toUInt16).toNat = n) (hlt : first + n < 2 ^ 16) :
    acc.numIrqs.toNat = min n (acc.irqMax.toNat - first) := by
  rw [IrqMmioAccess.numIrqs]
  dsimp only
  generalize acc.firstIrqAccessed = f at hfirst ⊢
  generalize acc.bytes.toUInt16 * acc.irqPerBytes.toUInt16 = m at hn ⊢
  have hsum : (f + m).toNat = first + n := by
    rw [UInt16.toNat_add, hfirst, hn, Nat.mod_eq_of_lt hlt]
  split_ifs with hover hcut
  · rw [UInt16.le_iff_toNat_le, hfirst] at hover
    rw [UInt16.toNat_zero]
    omega
  · rw [UInt16.le_iff_toNat_le, hfirst] at hover
    rw [UInt16.lt_iff_toNat_lt, hsum] at hcut
    have hsub : (f + m - acc.irqMax).toNat = first + n - acc.irqMax.toNat := by
      rw [UInt16.toNat_sub_of_le _ _ (UInt16.le_iff_toNat_le.2 (by omega)), hsum]
    rw [UInt16.toNat_sub_of_le _ _ (UInt16.le_iff_toNat_le.2 (by omega)), hsub, hn]
    omega
  · rw [UInt16.lt_iff_toNat_lt, hsum] at hcut
    rw [UInt16.sub_zero, hn]
    omega

theorem Begins.numIrqs (h : acc.Begins k) :
    acc.numIrqs.toNat = min acc.room (acc.irqMax.toNat - acc.first k) := by
  have hle := h.first_le
  have hroom := h.room_le
  refine numIrqs_eq h.firstIrqAccessed ?_ (by omega)
  rw [UInt16.toNat_mul, UInt8.toNat_toUInt16, UInt8.toNat_toUInt16]
  exact Nat.mod_eq_of_lt (by rw [room] at hroom; omega)

theorem Begins.isValid (h : acc.Begins k) (hfirst : acc.first k ≤ 1024) : acc.isValid = true := by
  have hnum := h.numIrqs
  have hmax := UInt16.le_iff_toNat_le.1 h.irqMax
  have h1024 : (1024 : UInt16).toNat = 1024 := rfl
  rw [IrqMmioAccess.isValid, h.firstIrqAccessed, decide_eq_true_iff]
  simp only [maxSpi, maxPpi, maxSgi]
  omega

/-- **The interrupts of an access**, each with its place in the access. -/
theorem Begins.irqs (h : acc.Begins k) : acc.irqs =
    (List.range (min acc.room (acc.irqMax.toNat - acc.first k))).map
      fun i => (i, acc.first k + i) := by
  rw [IrqMmioAccess.irqs, h.firstIrqAccessed, h.numIrqs]
  split_ifs with hvalid
  · rfl
  · -- An access that is not valid has no interrupts.
    have hmax := UInt16.le_iff_toNat_le.1 h.irqMax
    have h1024 : (1024 : UInt16).toNat = 1024 := rfl
    have hfirst : 1024 < acc.first k := by
      rw [← Nat.not_le]
      exact fun hle => hvalid (h.isValid hle)
    have hnone : acc.irqMax.toNat - acc.first k = 0 := by omega
    rw [hnone, Nat.min_zero, List.range_zero, List.map_nil]

theorem Begins.mem_irqs_iff (h : acc.Begins k) {p : ℕ × ℕ} : p ∈ acc.irqs ↔
    p.1 < acc.room ∧ p.2 < acc.irqMax.toNat ∧ p.2 = acc.first k + p.1 := by
  rw [h.irqs, List.mem_map]
  constructor
  · rintro ⟨i, hi, rfl⟩
    rw [List.mem_range] at hi
    dsimp only
    omega
  · rintro ⟨hroom, hmax, heq⟩
    refine ⟨p.1, List.mem_range.2 (by omega), ?_⟩
    rw [← heq]

end IrqMmioAccess

namespace GicD

/-! ## Changing a set of interrupts -/

/-- The interrupts in `S` that the vCPU sees are changed, and nothing else. -/
def mapIrqs (g : GicD) (cpu : ℕ) (S : ℕ → Prop) [DecidablePred S] (f : Irq → Irq) : GicD :=
  { g with
    bank := Function.update g.bank cpu { g.bank cpu with
      irq := fun id => if id < spiBase ∧ S id then f ((g.bank cpu).irq id)
        else (g.bank cpu).irq id }
    irq := fun id => if spiBase ≤ id ∧ S id then f (g.irq id) else g.irq id }

variable {g : GicD} {cpu : ℕ} {S T : ℕ → Prop} [DecidablePred S] [DecidablePred T] {f : Irq → Irq}

theorem mapIrqs_congr (h : ∀ id, S id ↔ T id) : g.mapIrqs cpu S f = g.mapIrqs cpu T f := by
  simp only [mapIrqs, h]

theorem mapIrqs_of_forall_not (h : ∀ id, ¬S id) : g.mapIrqs cpu S f = g := by
  simp only [mapIrqs, h, and_false, if_false, Function.update_eq_self]

/-- **What the change does** to the interrupts that a vCPU sees. -/
theorem mapIrqs_irqObject (c id : ℕ) : (g.mapIrqs cpu S f).irqObject c id =
    if S id ∧ Shares id c cpu then f (g.irqObject c id) else g.irqObject c id := by
  by_cases hid : id < spiBase
  · simp only [irqObject, if_pos hid, mapIrqs, Function.update_apply]
    by_cases hc : c = cpu
    · subst hc
      simp [hid, Shares]
    · have hnot : ¬Shares id c cpu := not_or.2 ⟨Nat.not_le.2 hid, hc⟩
      simp [hc, hnot]
  · simp only [irqObject, if_neg hid, mapIrqs]
    simp [Nat.not_lt.1 hid, Shares]

/-- One more interrupt is changed, or one that has been, if changing it again is the same. -/
theorem modifyIrq_mapIrqs (hf : ∀ irq, f (f irq) = f irq) (id : ℕ) :
    (g.mapIrqs cpu S f).modifyIrq cpu id f = g.mapIrqs cpu (fun x => S x ∨ x = id) f := by
  rw [modifyIrq]
  split_ifs with hid
  · simp only [modifyBank, mapIrqs, Function.update_self, Function.update_idem]
    congr 1
    · congr 2
      funext x
      by_cases hx : x = id
      · subst hx
        by_cases hS : S x <;> simp [hid, hS, hf]
      · simp [hx]
    · funext x
      by_cases hx : x = id
      · subst hx
        simp [Nat.not_le.2 hid]
      · simp [hx]
  · simp only [mapIrqs]
    congr 1
    · congr 2
      funext x
      by_cases hx : x = id
      · subst hx
        simp [hid]
      · simp [hx]
    · funext x
      by_cases hx : x = id
      · subst hx
        by_cases hS : S x <;> simp [Nat.not_lt.1 hid, hS, hf]
      · simp [hx]

theorem modifyIrq_id (g : GicD) (cpu id : ℕ) : g.modifyIrq cpu id (fun irq => irq) = g := by
  rw [modifyIrq]
  split_ifs
  · rw [modifyBank, Function.update_eq_self, Function.update_eq_self]
  · rw [Function.update_eq_self]

/-- Changing the interrupts on a list whose bit is set, one after another. -/
theorem foldl_modifyIrq (hf : ∀ irq, f (f irq) = f irq) (bit : ℕ × ℕ → Bool) (l : List (ℕ × ℕ)) :
    l.foldl (fun g p => g.modifyIrq cpu p.2 fun irq => if bit p then f irq else irq) g =
      g.mapIrqs cpu (fun id => ∃ p ∈ l, p.2 = id ∧ bit p = true) f := by
  induction l using List.reverseRecOn with
  | nil => exact (mapIrqs_of_forall_not (by simp)).symm
  | append_singleton l p ih =>
      rw [List.foldl_append, ih, List.foldl_cons, List.foldl_nil]
      cases hbit : bit p with
      | true =>
          simp only [if_true]
          rw [modifyIrq_mapIrqs hf]
          refine mapIrqs_congr fun id => ?_
          simp only [List.mem_append, List.mem_singleton]
          constructor
          · rintro (⟨q, hq, hqid, hqbit⟩ | rfl)
            · exact ⟨q, .inl hq, hqid, hqbit⟩
            · exact ⟨p, .inr rfl, rfl, hbit⟩
          · rintro ⟨q, hq | rfl, hqid, hqbit⟩
            · exact .inl ⟨q, hq, hqid, hqbit⟩
            · exact .inr hqid.symm
      | false =>
          simp only [Bool.false_eq_true, if_false]
          rw [modifyIrq_id]
          refine mapIrqs_congr fun id => ?_
          simp only [List.mem_append, List.mem_singleton]
          constructor
          · rintro ⟨q, hq, hqid, hqbit⟩
            exact ⟨q, .inl hq, hqid, hqbit⟩
          · rintro ⟨q, hq | rfl, hqid, hqbit⟩
            · exact ⟨q, hq, hqid, hqbit⟩
            · rw [hbit] at hqbit
              cases hqbit

/-! ## A bit for every interrupt -/

/-- A bit of the value that an access brings. -/
def bitAt (value : UInt64) (i : ℕ) : Bool := value >>> UInt64.ofNat i &&& 1 != 0

theorem bitAt_eq_testBit (value : UInt64) {i : ℕ} (hi : i < 64) :
    bitAt value i = value.toNat.testBit i := by
  have hshift : (UInt64.ofNat i).toNat % 64 = i := by
    rw [UInt64.toNat_ofNat_of_lt' (hi.trans (by decide)), Nat.mod_eq_of_lt hi]
  have hone : (1 : UInt64).toNat = 1 := rfl
  have hiff : (value >>> UInt64.ofNat i &&& 1 = 0) ↔ (value.toNat.testBit i = false) := by
    rw [← UInt64.toNat_inj, UInt64.toNat_and, UInt64.toNat_shiftRight, hshift, hone,
      UInt64.toNat_zero, Nat.and_one_is_mod, Nat.testBit_eq_decide_div_mod_eq,
      Nat.shiftRight_eq_div_pow, decide_eq_false_iff_not]
    omega
  rw [bitAt, Bool.eq_iff_iff, bne_iff_ne, ne_eq, hiff, Bool.not_eq_false]

/-- The interrupts of the window that begin `k` bytes into it, whose bit is set in the value. -/
def Marked (g : GicD) (k n : ℕ) (value : UInt64) (id : ℕ) : Prop :=
  id < g.configuredIrqs ∧ 8 * k ≤ id ∧ id < 8 * (k + n) ∧ value.toNat.testBit (id - 8 * k) = true

instance (k n : ℕ) (value : UInt64) : DecidablePred (g.Marked k n value) := fun _ =>
  inferInstanceAs (Decidable (_ ∧ _))

variable {acc : IrqMmioAccess} {k : ℕ} {value : UInt64}

/-- The access that a window with a bit for every interrupt is written and read with. -/
structure Bitwise (g : GicD) (acc : IrqMmioAccess) (k : ℕ) : Prop extends acc.Begins k where
  perEight : acc.irqPerBytes = 8
  baseZero : acc.irqBase = 0
  upTo : acc.irqMax.toNat = g.configuredIrqs

theorem Bitwise.field (h : g.Bitwise acc k) {i : ℕ} : (acc.field value i != 0) = bitAt value i := by
  have hbits : acc.bits = 1 := by rw [IrqMmioAccess.bits, if_pos h.perEight]
  have hmask : (1 <<< UInt64.ofNat 1 - 1 : UInt64) = 1 := rfl
  rw [IrqMmioAccess.field, hbits, Nat.mul_one, hmask, bitAt]
  have hlow : (value >>> UInt64.ofNat i &&& 1).toNat < 256 := by
    rw [UInt64.toNat_and]
    exact Nat.lt_of_le_of_lt Nat.and_le_right (by decide)
  rw [Bool.eq_iff_iff, bne_iff_ne, bne_iff_ne, ne_eq, ne_eq, ← UInt8.toNat_inj, ← UInt64.toNat_inj,
    UInt64.toNat_toUInt8, Nat.mod_eq_of_lt hlow]
  rfl

theorem Bitwise.first_eq (h : g.Bitwise acc k) : acc.first k = 8 * k := by
  rw [IrqMmioAccess.first, h.perEight, h.baseZero, Nat.mul_comm]
  rfl

theorem Bitwise.room_eq (h : g.Bitwise acc k) : acc.room = 8 * acc.bytes.toNat := by
  rw [IrqMmioAccess.room, h.perEight, Nat.mul_comm]
  rfl

theorem Bitwise.mem_irqs_iff (h : g.Bitwise acc k) {p : ℕ × ℕ} : p ∈ acc.irqs ↔
    p.1 < 8 * acc.bytes.toNat ∧ p.2 < g.configuredIrqs ∧ p.2 = 8 * k + p.1 := by
  rw [h.toBegins.mem_irqs_iff, h.upTo, h.first_eq, h.room_eq]

theorem Bitwise.lt_of_mem_irqs (h : g.Bitwise acc k) {p : ℕ × ℕ} (hp : p ∈ acc.irqs) :
    p.1 < 64 := by
  have hlt := (h.mem_irqs_iff.1 hp).1
  have hbytes : acc.bytes.toNat ≤ 4 := UInt8.le_iff_toNat_le.1 h.bytes
  omega

/-- The interrupts of an access whose bit is set are those that the value marks. -/
theorem Bitwise.exists_mem_irqs_iff (h : g.Bitwise acc k) (id : ℕ) :
    (∃ p ∈ acc.irqs, p.2 = id ∧ bitAt value p.1 = true) ↔
      g.Marked k acc.bytes.toNat value id := by
  constructor
  · rintro ⟨p, hp, rfl, hbit⟩
    rw [bitAt_eq_testBit value (h.lt_of_mem_irqs hp)] at hbit
    obtain ⟨hlt, hconf, heq⟩ := h.mem_irqs_iff.1 hp
    have hsub : p.2 - 8 * k = p.1 := by omega
    refine ⟨hconf, by omega, by omega, ?_⟩
    rwa [hsub]
  · rintro ⟨hconf, hle, hlt, hbit⟩
    have hp : (id - 8 * k, id) ∈ acc.irqs := by
      rw [h.mem_irqs_iff]
      dsimp only
      omega
    refine ⟨_, hp, rfl, ?_⟩
    rwa [bitAt_eq_testBit value (h.lt_of_mem_irqs hp)]

/-- **A write changes the interrupts that the value marks**, and nothing else. -/
theorem Bitwise.write (h : g.Bitwise acc k) (hk : k < 128) (hf : ∀ irq, f (f irq) = f irq) :
    g.write cpu acc value (fun v irq => if v != 0 then f irq else irq) =
      (true, g.mapIrqs cpu (g.Marked k acc.bytes.toNat value) f) := by
  have hvalid : acc.isValid = true := h.isValid (by rw [h.first_eq]; omega)
  rw [GicD.write, hvalid]
  simp only [h.field]
  rw [foldl_modifyIrq hf fun p => bitAt value p.1]
  exact congrArg (Prod.mk true) (mapIrqs_congr h.exists_mem_irqs_iff)

theorem testBit_foldl (b : ℕ → Bool) {n : ℕ} (hn : n ≤ 64) (j : ℕ) :
    ((List.range n).foldl (fun value i => value ||| (b i).toUInt64 <<< UInt64.ofNat i)
      (0 : UInt64)).toNat.testBit j = (decide (j < n) && b j) := by
  induction n with
  | zero => simp
  | succ n ih =>
      rw [List.range_succ, List.foldl_append, List.foldl_cons, List.foldl_nil,
        testBit_or_shiftLeft _ _ (by omega), ih (by omega)]
      rcases Nat.lt_trichotomy j n with hlt | rfl | hlt
      · simp [hlt, Nat.lt_succ_of_lt hlt, Nat.ne_of_gt hlt]
      · simp
      · simp [Nat.not_lt.2 hlt.le, Nat.not_lt.2 (Nat.succ_le_of_lt hlt), Nat.ne_of_lt hlt]

/-- **A read shows the bits of the interrupts** that are configured, and zeros. -/
theorem Bitwise.read (h : g.Bitwise acc k) (hk : k < 128) (b : Irq → Bool) :
    ∃ v, g.read cpu acc (fun irq => (b irq).toUInt64) = .shows v ∧ ∀ j, v.toNat.testBit j =
      (decide (j < 8 * acc.bytes.toNat ∧ 8 * k + j < g.configuredIrqs) &&
        b (g.irqObject cpu (8 * k + j))) := by
  have hvalid : acc.isValid = true := h.isValid (by rw [h.first_eq]; omega)
  have hbits : acc.bits = 1 := by rw [IrqMmioAccess.bits, if_pos h.perEight]
  have hbytes : acc.bytes.toNat ≤ 4 := UInt8.le_iff_toNat_le.1 h.bytes
  refine ⟨_, by rw [GicD.read, if_pos hvalid], fun j => ?_⟩
  rw [h.toBegins.irqs, List.foldl_map, hbits, h.room_eq, h.upTo, h.first_eq]
  simp only [Nat.mul_one]
  rw [testBit_foldl (fun i => b (g.irqObject cpu (8 * k + i))) (by omega)]
  congr 1
  rw [decide_eq_decide]
  omega

end GicD

end Vml
