import Vml.Lib.LittleEndian
import Vml.Platform

/-!
# Reads and writes of mapped memory

`single_mapped_read` and `single_mapped_write` (`simple_as.cpp`) access up to eight bytes of memory
that is mapped on the host, for an instruction of the guest that is emulated. They load and store a
word where the pointer is a multiple of the size, and copy bytes where it is not.

**The variable** that the read returns has no value before. A copy fills as many bytes of it as are
read, so that an access of less than eight bytes that is not aligned returns, above them, what is on
the stack (`loadLe_ret`).

Main result: `mappedAccess_iff`.
-/

namespace Vml

/-- `ret`, of which a `memcpy` has filled some bytes. -/
def retBytes (stack m : Mem) (ptr size : ℕ) : Mem := fun i =>
  if i < size then m (ptr + i) else stack i

/-- `single_mapped_read`, on a little-endian host that has these bytes on the stack for `ret`. -/
def singleMappedRead (stack m : Mem) (ptr : ℕ) (size : UInt8) : Option UInt64 :=
  if 8 < size ∨ size = 0 ∨ ptr = 0 then none
  else if ptr % size.toNat ≠ 0 then
    some (UInt64.ofNat (loadLe (retBytes stack m ptr size.toNat) 0 8))
  else if size = 1 then some (UInt64.ofNat (loadLe m ptr 1))
  else if size = 2 then some (UInt64.ofNat (loadLe m ptr 2))
  else if size = 4 then some (UInt64.ofNat (loadLe m ptr 4))
  else if size = 8 then some (UInt64.ofNat (loadLe m ptr 8))
  else none

/-- `single_mapped_write`, on a little-endian host. -/
def singleMappedWrite (m : Mem) (ptr : ℕ) (size : UInt8) (value : UInt64) : Option Mem :=
  if 8 < size ∨ size = 0 ∨ ptr = 0 then none
  else if ptr % size.toNat ≠ 0 then some (storeLe m ptr size.toNat value.toNat)
  else if size = 1 then some (storeLe m ptr 1 value.toUInt8.toNat)
  else if size = 2 then some (storeLe m ptr 2 value.toUInt16.toNat)
  else if size = 4 then some (storeLe m ptr 4 value.toUInt32.toNat)
  else if size = 8 then some (storeLe m ptr 8 value.toNat)
  else none

/-- The read returns the number in the bytes, whatever is on the stack. -/
def ReadsValue (m : Mem) (ptr : ℕ) (size : UInt8) : Prop :=
  ∀ stack, singleMappedRead stack m ptr size = some (UInt64.ofNat (loadLe m ptr size.toNat))

/-- A write of any value changes the bytes only, and a read returns what fits of it. -/
def WritesValue (m : Mem) (ptr : ℕ) (size : UInt8) : Prop :=
  ∀ value : UInt64, ∃ m', singleMappedWrite m ptr size value = some m' ∧
    (∀ stack, singleMappedRead stack m' ptr size =
      some (UInt64.ofNat (value.toNat % 2 ^ (8 * size.toNat)))) ∧
    ∀ a, a < ptr ∨ ptr + size.toNat ≤ a → m' a = m a

/-- The sizes of the accesses that are emulated. -/
def accessSizes : List UInt8 := [1, 2, 4, 8]

variable {m : Mem} {ptr : ℕ} {size : UInt8}

/-! ## The write -/

/-- A store of the low bytes of a number stores its bytes. -/
theorem storeLe_mod (m : Mem) (a n v : ℕ) : storeLe m a n (v % 256 ^ n) = storeLe m a n v := by
  funext b
  rw [storeLe, storeLe]
  split_ifs with hin
  · have hlt : b - a < n := by omega
    have hpow : 256 ^ n = 256 ^ (b - a) * 256 ^ (n - (b - a)) := by
      rw [← pow_add, Nat.add_sub_cancel' hlt.le]
    obtain ⟨k, hk⟩ : ∃ k, n - (b - a) = k + 1 := ⟨n - (b - a) - 1, by omega⟩
    have hdvd : 256 ∣ 256 ^ (n - (b - a)) := by
      rw [hk, pow_succ]
      exact Dvd.intro_left _ rfl
    rw [← UInt8.toNat_inj, toNat_leByte, toNat_leByte, hpow, Nat.mod_mul_right_div_self,
      Nat.mod_mod_of_dvd _ hdvd]
  · rfl

theorem ite_size {α : Type*} (hsize : size ∈ accessSizes) (f : ℕ → α) :
    (if size = 1 then some (f 1) else if size = 2 then some (f 2) else if size = 4 then some (f 4)
      else if size = 8 then some (f 8) else none) = some (f size.toNat) := by
  fin_cases hsize
  · rw [if_pos rfl]
    rfl
  · rw [if_neg (by decide), if_pos rfl]
    rfl
  · rw [if_neg (by decide), if_neg (by decide), if_pos rfl]
    rfl
  · rw [if_neg (by decide), if_neg (by decide), if_neg (by decide), if_pos rfl]
    rfl

theorem not_refused (hptr : ptr ≠ 0) (hsize : size ∈ accessSizes) :
    ¬(8 < size ∨ size = 0 ∨ ptr = 0) := by
  rintro (hlt | hzero | hnull)
  · fin_cases hsize <;> exact absurd hlt (by decide)
  · fin_cases hsize <;> exact absurd hzero (by decide)
  · exact hptr hnull

/-- **The write** stores the bytes of the value, aligned or not. -/
theorem singleMappedWrite_eq (hptr : ptr ≠ 0) (hsize : size ∈ accessSizes) (value : UInt64) :
    singleMappedWrite m ptr size value = some (storeLe m ptr size.toNat value.toNat) := by
  have h1 : storeLe m ptr 1 value.toUInt8.toNat = storeLe m ptr 1 value.toNat := by
    rw [UInt64.toNat_toUInt8]
    exact storeLe_mod m ptr 1 value.toNat
  have h2 : storeLe m ptr 2 value.toUInt16.toNat = storeLe m ptr 2 value.toNat := by
    rw [UInt64.toNat_toUInt16]
    exact storeLe_mod m ptr 2 value.toNat
  have h4 : storeLe m ptr 4 value.toUInt32.toNat = storeLe m ptr 4 value.toNat := by
    rw [UInt64.toNat_toUInt32]
    exact storeLe_mod m ptr 4 value.toNat
  rw [singleMappedWrite, if_neg (not_refused hptr hsize), h1, h2, h4]
  by_cases hunaligned : ptr % size.toNat ≠ 0
  · rw [if_pos hunaligned]
  · rw [if_neg hunaligned]
    exact ite_size hsize fun n => storeLe m ptr n value.toNat

/-! ## The read -/

theorem singleMappedRead_of_dvd (hptr : ptr ≠ 0) (hsize : size ∈ accessSizes)
    (hdvd : size.toNat ∣ ptr) : ReadsValue m ptr size := by
  intro stack
  have haligned : ¬ptr % size.toNat ≠ 0 := not_not.2 (Nat.mod_eq_zero_of_dvd hdvd)
  rw [singleMappedRead, if_neg (not_refused hptr hsize), if_neg haligned]
  exact ite_size hsize fun n => UInt64.ofNat (loadLe m ptr n)

/-- **The bytes that are not copied** stand above those that are. -/
theorem loadLe_ret (stack : Mem) {n : ℕ} (hn : n ≤ 8) :
    loadLe (retBytes stack m ptr n) 0 8 =
      loadLe m ptr n + 256 ^ n * loadLe stack n (8 - n) := by
  obtain ⟨k, hk⟩ := Nat.exists_eq_add_of_le hn
  have hcopied : loadLe (retBytes stack m ptr n) 0 n = loadLe m ptr n := by
    apply loadLe_congr
    intro i hi
    rw [retBytes, Nat.zero_add, if_pos hi]
  have hleft : loadLe (retBytes stack m ptr n) (0 + n) k = loadLe stack n k := by
    apply loadLe_congr
    intro i hi
    rw [retBytes, Nat.zero_add, if_neg (by omega)]
  rw [hk, loadLe_add, hcopied, hleft, Nat.add_sub_cancel_left]

theorem readsValue_eight (hptr : ptr ≠ 0) : ReadsValue m ptr 8 := by
  by_cases hdvd : (8 : UInt8).toNat ∣ ptr
  · exact singleMappedRead_of_dvd hptr (by decide) hdvd
  · intro stack
    have hunaligned : ptr % (8 : UInt8).toNat ≠ 0 := mt Nat.dvd_of_mod_eq_zero hdvd
    have h8 : (8 : UInt8).toNat = 8 := rfl
    have hnone : loadLe stack 8 0 = 0 := rfl
    rw [singleMappedRead, if_neg (not_refused hptr (by decide)), if_pos hunaligned, h8,
      loadLe_ret stack le_rfl, Nat.sub_self, hnone, Nat.mul_zero, Nat.add_zero]

theorem not_readsValue (hptr : ptr ≠ 0) (hsize : size ∈ accessSizes) (hdvd : ¬size.toNat ∣ ptr)
    (hlt : size.toNat < 8) : ¬ReadsValue m ptr size := by
  intro hreads
  have hunaligned : ptr % size.toNat ≠ 0 := mt Nat.dvd_of_mod_eq_zero hdvd
  -- a stack of ones
  have hread := hreads fun _ => 1
  rw [singleMappedRead, if_neg (not_refused hptr hsize), if_pos hunaligned,
    loadLe_ret _ hlt.le] at hread
  obtain ⟨k, hk⟩ : ∃ k, 8 - size.toNat = 1 + k := ⟨7 - size.toNat, by omega⟩
  have hones : loadLe (fun _ => 1) size.toNat (8 - size.toNat) =
      1 + 256 ^ 1 * loadLe (fun _ => 1) (size.toNat + 1) k := by
    rw [hk, loadLe_add]
    rfl
  have hread_lt := loadLe_lt m ptr size.toNat
  have hones_lt := loadLe_lt (fun _ => 1) size.toNat (8 - size.toNat)
  have hpow : 256 ^ size.toNat * 256 ^ (8 - size.toNat) = 2 ^ 64 := by
    rw [← pow_add, Nat.add_sub_cancel' hlt.le]
    rfl
  generalize loadLe (fun _ => 1) size.toNat (8 - size.toNat) = ones at *
  generalize loadLe (fun _ => 1) (size.toNat + 1) k = rest at *
  generalize loadLe m ptr size.toNat = value at *
  have hle : 256 ^ size.toNat * ones + 256 ^ size.toNat ≤ 2 ^ 64 := by
    rw [← hpow, ← Nat.mul_succ]
    exact Nat.mul_le_mul_left _ hones_lt
  have hpos : 256 ^ size.toNat ≤ 256 ^ size.toNat * ones :=
    Nat.le_mul_of_pos_right _ (by omega)
  have heq := congrArg UInt64.toNat (Option.some.inj hread)
  rw [UInt64.toNat_ofNat_of_lt' (by change _ < 2 ^ 64; omega),
    UInt64.toNat_ofNat_of_lt' (by change _ < 2 ^ 64; omega)] at heq
  omega

/-- What has been written is read as far as it fits, where reads return what is in the bytes. -/
theorem writesValue_of_reads (hptr : ptr ≠ 0) (hsize : size ∈ accessSizes)
    (hreads : ∀ m, ReadsValue m ptr size) : WritesValue m ptr size := by
  intro value
  refine ⟨_, singleMappedWrite_eq hptr hsize value, ?_, ?_⟩
  · intro stack
    have hpow : (2 : ℕ) ^ (8 * size.toNat) = 256 ^ size.toNat := pow_mul 2 8 size.toNat
    rw [hreads _ stack, loadLe_storeLe, hpow]
  · intro a ha
    exact storeLe_of_outside ha

/-- **Reads return the number in the bytes and writes store it**, exactly if the pointer is a
multiple of the size or the size is eight. -/
theorem mappedAccess_iff (m : Mem) (hptr : ptr ≠ 0) (hsize : size ∈ accessSizes) :
    ReadsValue m ptr size ∧ WritesValue m ptr size ↔ size.toNat ∣ ptr ∨ size = 8 := by
  constructor
  · rintro ⟨hreads, -⟩
    by_contra hne
    obtain ⟨hdvd, height⟩ := not_or.1 hne
    have hlt : size.toNat < 8 := by
      fin_cases hsize
      · decide
      · decide
      · decide
      · exact absurd rfl height
    exact not_readsValue hptr hsize hdvd hlt hreads
  · rintro (hdvd | rfl)
    · have hreads : ∀ m, ReadsValue m ptr size :=
        fun m => singleMappedRead_of_dvd hptr hsize hdvd
      exact ⟨hreads m, writesValue_of_reads hptr hsize hreads⟩
    · have hreads : ∀ m, ReadsValue m ptr 8 := fun m => readsValue_eight hptr
      exact ⟨hreads m, writesValue_of_reads hptr hsize hreads⟩

/-- Four bytes at a multiple of four. -/
theorem mappedAccess_aligned :
    ReadsValue (fun _ => 7) 4 4 ∧ WritesValue (fun _ => 7) 4 4 :=
  (mappedAccess_iff (fun _ => 7) (by decide) (by decide)).2 (.inl (by decide))

/-- Two bytes at an odd address are read with six bytes of the stack. -/
theorem unaligned_reads_stack : ¬∀ (m : Mem) (ptr : ℕ) (size : UInt8), ptr ≠ 0 →
    size ∈ accessSizes → ReadsValue m ptr size ∧ WritesValue m ptr size := by
  intro hall
  have hread := (hall (fun _ => 0) 1 2 (by decide) (by decide)).1 fun _ => 1
  exact absurd hread (by decide)

end Vml
