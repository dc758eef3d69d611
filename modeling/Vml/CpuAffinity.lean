import Vml.Lib.Run
import Vml.RangeMap

/-!
# The affinities of the vCPUs

`cpu_affinity.hpp` and `cpu_affinity.cpp`. A vCPU is registered under an affinity, four bytes. The
upper three name a cluster of 16 vCPUs, and the clusters are kept in a `RangeMap`, each under the 16
numbers from its own on. A cluster is made when its first vCPU is registered.

**The invariant** is `Clustered`: the ranges are in order, and each is the one of a cluster. The
clusters are then 256 numbers apart, so that a search finds the cluster it is for, or none.

Main result: `ClustersMap.lookup_registered`. A search returns what was last registered.
-/

namespace Vml

/-! ## Affinities -/

/-- `CpuAffinity`. -/
structure CpuAffinity where
  aff : UInt32
  deriving DecidableEq, Repr

namespace CpuAffinity

/-- `from_vcpu_id`. -/
def fromVcpuId (vcpuId : UInt64) : CpuAffinity :=
  ⟨((vcpuId / 16) <<< 8 ||| vcpuId % 16).toUInt32⟩

/-- `aff0`. -/
def aff0 (a : CpuAffinity) : UInt8 := a.aff.toUInt8

/-- `aff1`. -/
def aff1 (a : CpuAffinity) : UInt8 := (a.aff >>> 8).toUInt8

/-- `aff2`. -/
def aff2 (a : CpuAffinity) : UInt8 := (a.aff >>> 16).toUInt8

/-- `aff3`. -/
def aff3 (a : CpuAffinity) : UInt8 := (a.aff >>> 24).toUInt8

/-- `cluster`. -/
def cluster (a : CpuAffinity) : UInt32 := a.aff &&& ~~~0xFF

end CpuAffinity

/-! ## Clusters -/

/-- `MAX_VCPU_PER_CLUSTER`. -/
def maxVcpuPerCluster : ℕ := 16

/-- `CpuCluster`, with no value for `INVALID_VCPU_ID`. -/
structure CpuCluster where
  vcpus : ℕ → Option ℕ := fun _ => none

namespace CpuCluster

/-- `vcpu_id`. -/
def vcpuId (c : CpuCluster) (idInCluster : ℕ) : Option ℕ :=
  if maxVcpuPerCluster ≤ idInCluster then none else c.vcpus idInCluster

/-- `add_vcpu_id`. -/
def addVcpuId (c : CpuCluster) (idInCluster vid : ℕ) : Option CpuCluster :=
  if maxVcpuPerCluster ≤ idInCluster then none
  else some { vcpus := Function.update c.vcpus idInCluster (some vid) }

end CpuCluster

/-- `CpuClusterPtr`. -/
structure CpuClusterPtr where
  range : Range
  cluster : CpuCluster := {}

instance : RangeNode CpuClusterPtr := ⟨CpuClusterPtr.range⟩

/-- `clusters_map`. -/
abbrev ClustersMap := RangeMap CpuClusterPtr

namespace ClustersMap

/-- The range that a cluster is kept under. -/
def clusterRange (aff : CpuAffinity) : Range := ⟨aff.cluster.toUInt64, 16⟩

/-- `get_cluster_at`. -/
def getClusterAt (m : ClustersMap) (aff : CpuAffinity) : Option CpuClusterPtr :=
  RangeMap.lookup m (clusterRange aff)

/-- `cpu_affinity_to_id`. -/
def cpuAffinityToId (m : ClustersMap) (aff : CpuAffinity) : Option ℕ :=
  (m.getClusterAt aff).bind fun ptr => ptr.cluster.vcpuId aff.aff0.toNat

/-- `cpu_affinity_to_cluster`, and the vCPUs of the cluster. -/
def cpuAffinityToCluster (m : ClustersMap) (aff : UInt32) : Option (ℕ → Option ℕ) :=
  (m.getClusterAt ⟨aff⟩).map fun ptr => ptr.cluster.vcpuId

/-- The cluster that a pointer points at changes. -/
def setCluster (m : ClustersMap) (ptr : CpuClusterPtr) (cluster : CpuCluster) : ClustersMap :=
  ⟨m.set.map fun e => if e.range = ptr.range then { e with cluster } else e⟩

/-- `add_cpu_with_affinity`. A cluster can only be made if it can be `allocated`. -/
def addCpuWithAffinity (m : ClustersMap) (id : ℕ) (aff : CpuAffinity) (allocated : Bool) :
    ClustersMap × Bool :=
  match m.getClusterAt aff with
  | some ptr =>
    match ptr.cluster.addVcpuId aff.aff0.toNat id with
    | none => (m, false)
    | some cluster => (m.setCluster ptr cluster, true)
  | none =>
    if !allocated then (m, false)
    else
      match CpuCluster.addVcpuId {} aff.aff0.toNat id with
      | none => (m, false)
      | some cluster =>
        let r := RangeMap.insert m ⟨clusterRange aff, cluster⟩
        if !r.2 then (m, false) else r

/-! ## Registrations -/

/-- A vCPU and the affinity it is registered under. -/
structure Registration where
  id : ℕ
  aff : CpuAffinity

/-- A registration that succeeds. -/
def Registers (m : ClustersMap) (r : Registration) (m' : ClustersMap) : Prop :=
  ∃ allocated, m.addCpuWithAffinity r.id r.aff allocated = (m', true)

/-- The vCPU that was last registered under an affinity. -/
def lastRegistered (rs : List Registration) (aff : CpuAffinity) : Option ℕ :=
  (rs.reverse.find? fun r => decide (r.aff = aff)).map (·.id)

/-- The ranges are in order, and each is the one of a cluster. -/
structure Clustered (m : ClustersMap) : Prop where
  inOrder : RangeMap.InOrder m
  ranges : ∀ e ∈ m.set, ∃ aff, e.range = clusterRange aff

/-! ## The ranges of the clusters -/

theorem cluster_toNat (a : CpuAffinity) : a.cluster.toNat = a.aff.toNat / 256 * 256 := by
  have hmask : (~~~0xFF : UInt32).toNat = (2 ^ 24 - 1) <<< 8 := by decide
  have hshift : a.aff.toNat / 256 * 256 = a.aff.toNat >>> 8 <<< 8 := by
    rw [Nat.shiftLeft_eq, Nat.shiftRight_eq_div_pow]
  rw [CpuAffinity.cluster, UInt32.toNat_and, hmask, hshift]
  apply Nat.eq_of_testBit_eq
  intro i
  rw [Nat.testBit_and, Nat.testBit_shiftLeft, Nat.testBit_shiftLeft, Nat.testBit_shiftRight,
    Nat.testBit_two_pow_sub_one]
  by_cases hi : 8 ≤ i
  · have hi' : 8 + (i - 8) = i := by omega
    rw [hi']
    by_cases hlast : i < 32
    · simp [hi, show i - 8 < 24 by omega]
    · have hlt : a.aff.toNat < 2 ^ i :=
        Nat.lt_of_lt_of_le a.aff.toNat_lt (Nat.pow_le_pow_right (by decide) (by omega))
      rw [Nat.testBit_lt_two_pow hlt, Bool.false_and, Bool.and_false]
  · simp [hi]

theorem clusterRange_toNat (a : CpuAffinity) :
    (clusterRange a).begin.toNat = a.aff.toNat / 256 * 256 ∧ (clusterRange a).size.toNat = 16 :=
  ⟨(UInt32.toNat_toUInt64 _).trans (cluster_toNat a), rfl⟩

theorem bounded_clusterRange (a : CpuAffinity) : (clusterRange a).Bounded := by
  have hlt := a.aff.toNat_lt
  obtain ⟨hbegin, hsize⟩ := clusterRange_toNat a
  rw [Range.Bounded, hbegin, hsize]
  omega

theorem clusterRange_inj {a b : CpuAffinity} :
    clusterRange a = clusterRange b ↔ a.aff.toNat / 256 = b.aff.toNat / 256 := by
  constructor
  · intro heq
    have hbegin := congrArg (fun r : Range => r.begin.toNat) heq
    rw [(clusterRange_toNat a).1, (clusterRange_toNat b).1] at hbegin
    omega
  · intro heq
    have hbegin : (clusterRange a).begin = (clusterRange b).begin := by
      rw [← UInt64.toNat_inj, (clusterRange_toNat a).1, (clusterRange_toNat b).1, heq]
    exact congrArg (Range.mk · 16) hbegin

theorem aff_eq_iff {a b : CpuAffinity} :
    a = b ↔ clusterRange a = clusterRange b ∧ a.aff0.toNat = b.aff0.toNat := by
  have haff0 : ∀ a : CpuAffinity, a.aff0.toNat = a.aff.toNat % 256 := fun a =>
    UInt32.toNat_toUInt8 a.aff
  rw [clusterRange_inj, haff0, haff0]
  constructor
  · rintro rfl
    exact ⟨rfl, rfl⟩
  · rintro ⟨hdiv, hmod⟩
    have hnat : a.aff.toNat = b.aff.toNat := by omega
    have haff : a.aff = b.aff := UInt32.toNat_inj.1 hnat
    exact congrArg CpuAffinity.mk haff

theorem meets_clusterRange {a b : CpuAffinity} {e : CpuClusterPtr} (he : e.range = clusterRange b) :
    RangeMap.Meets (clusterRange a) e = decide (e.range = clusterRange a) := by
  have hbounds := Range.toNat_endAddr (bounded_clusterRange a)
  have hbounds' := Range.toNat_endAddr (bounded_clusterRange b)
  obtain ⟨ha, hasize⟩ := clusterRange_toNat a
  obtain ⟨hb, hbsize⟩ := clusterRange_toNat b
  have hrange : RangeNode.range e = clusterRange b := he
  rw [RangeMap.Meets, hrange, he, hbounds, hbounds', ha, hasize, hb, hbsize]
  apply decide_eq_decide.2
  rw [clusterRange_inj]
  omega

theorem Clustered.getClusterAt_eq {m : ClustersMap} (h : m.Clustered) (aff : CpuAffinity) :
    m.getClusterAt aff = m.set.find? fun e => decide (e.range = clusterRange aff) := by
  rw [getClusterAt, h.inOrder.lookup_eq]
  apply List.find?_congr
  intro e he
  obtain ⟨b, hb⟩ := h.ranges e he
  exact meets_clusterRange hb

/-! ## What a registration changes -/

theorem Clustered.mem_of_getClusterAt {m : ClustersMap} (h : m.Clustered) {aff : CpuAffinity}
    {ptr : CpuClusterPtr} (hptr : m.getClusterAt aff = some ptr) :
    ptr ∈ m.set ∧ ptr.range = clusterRange aff := by
  rw [h.getClusterAt_eq] at hptr
  have hrange := List.find?_some hptr
  rw [decide_eq_true_iff] at hrange
  exact ⟨List.mem_of_find?_eq_some hptr, hrange⟩

theorem clustered_setCluster {m : ClustersMap} (h : m.Clustered) (ptr : CpuClusterPtr)
    (cluster : CpuCluster) : (m.setCluster ptr cluster).Clustered := by
  have hrange : ∀ e : CpuClusterPtr,
      (if e.range = ptr.range then { e with cluster } else e).range = e.range := by
    intro e
    split_ifs <;> rfl
  refine ⟨⟨?_, ?_⟩, ?_⟩
  · intro e he
    obtain ⟨b, hb, rfl⟩ := List.mem_map.1 he
    have hbounded := h.inOrder.bounded b hb
    change Range.Bounded (CpuClusterPtr.range _)
    rw [hrange]
    exact hbounded
  · refine List.pairwise_map.2 (h.inOrder.pairwise.imp ?_)
    intro a b hab
    change (CpuClusterPtr.range _).endAddr.toNat ≤ (CpuClusterPtr.range _).begin.toNat
    rw [hrange, hrange]
    exact hab
  · intro e he
    obtain ⟨b, hb, rfl⟩ := List.mem_map.1 he
    rw [hrange]
    exact h.ranges b hb

theorem getClusterAt_setCluster {m : ClustersMap} (h : m.Clustered) (ptr : CpuClusterPtr)
    (cluster : CpuCluster) (aff : CpuAffinity) :
    (m.setCluster ptr cluster).getClusterAt aff =
      (m.getClusterAt aff).map fun e => if e.range = ptr.range then { e with cluster } else e := by
  rw [(clustered_setCluster h ptr cluster).getClusterAt_eq, h.getClusterAt_eq, setCluster,
    List.find?_map]
  congr 1
  apply List.find?_congr
  intro e _
  dsimp only [Function.comp_apply]
  split_ifs <;> rfl

theorem getClusterAt_insert {m m' : ClustersMap} (h : m.Clustered) {aff : CpuAffinity}
    {cluster : CpuCluster} (hnone : m.getClusterAt aff = none)
    (hinsert : RangeMap.insert m ⟨clusterRange aff, cluster⟩ = (m', true)) :
    m'.Clustered ∧ ∀ a, m'.getClusterAt a =
      if clusterRange aff = clusterRange a then some ⟨clusterRange aff, cluster⟩
      else m.getClusterAt a := by
  rcases h.inOrder.insert_cases ⟨clusterRange aff, cluster⟩ with
    ⟨pre, post, hset, heq, -, -⟩ | ⟨-, heq⟩
  · have hm' : m' = ⟨pre ++ ⟨clusterRange aff, cluster⟩ :: post⟩ := by
      rw [heq] at hinsert
      exact (congrArg Prod.fst hinsert).symm
    have hclustered : m'.Clustered := by
      constructor
      · have horder := h.inOrder.insert (e := ⟨clusterRange aff, cluster⟩)
          (bounded_clusterRange aff)
        rwa [hinsert] at horder
      · intro e he
        rw [hm'] at he
        rcases List.mem_append.1 he with he | he
        · exact h.ranges e (by rw [hset]; exact List.mem_append_left _ he)
        · rcases List.mem_cons.1 he with rfl | he
          · exact ⟨aff, rfl⟩
          · exact h.ranges e (by rw [hset]; exact List.mem_append_right _ he)
    refine ⟨hclustered, ?_⟩
    intro a
    rw [h.getClusterAt_eq, hset, List.find?_append, Option.or_eq_none_iff] at hnone
    rw [hclustered.getClusterAt_eq, h.getClusterAt_eq, hm', hset, List.find?_append,
      List.find?_append, List.find?_cons]
    split_ifs with hsame
    · rw [← hsame, hnone.1, decide_eq_true rfl]
      rfl
    · rw [decide_eq_false hsame]
  · rw [heq] at hinsert
    cases hinsert

theorem vcpuId_update {aff a : CpuAffinity} (hplace : ¬maxVcpuPerCluster ≤ aff.aff0.toNat)
    (hsame : clusterRange aff = clusterRange a) (vcpus : ℕ → Option ℕ) (id : ℕ) :
    CpuCluster.vcpuId { vcpus := Function.update vcpus aff.aff0.toNat (some id) } a.aff0.toNat =
      if aff = a then some id else CpuCluster.vcpuId ⟨vcpus⟩ a.aff0.toNat := by
  by_cases hplace' : aff.aff0.toNat = a.aff0.toNat
  · have heq : aff = a := aff_eq_iff.2 ⟨hsame, hplace'⟩
    rw [if_pos heq, CpuCluster.vcpuId, ← hplace', if_neg hplace]
    exact Function.update_self ..
  · have hne : aff ≠ a := fun heq => hplace' (aff_eq_iff.1 heq).2
    rw [if_neg hne, CpuCluster.vcpuId, CpuCluster.vcpuId]
    dsimp only
    rw [Function.update_of_ne (Ne.symm hplace')]

/-- **A registration** changes what a search for its affinity returns, and nothing else. -/
theorem Clustered.registers {m m' : ClustersMap} (h : m.Clustered) {r : Registration}
    (hr : m.Registers r m') : m'.Clustered ∧ r.aff.aff0.toNat < maxVcpuPerCluster ∧
      ∀ a, m'.cpuAffinityToId a = if r.aff = a then some r.id else m.cpuAffinityToId a := by
  obtain ⟨allocated, hadd⟩ := hr
  rw [addCpuWithAffinity] at hadd
  cases hptr : m.getClusterAt r.aff with
  | some ptr =>
    rw [hptr] at hadd
    dsimp only at hadd
    obtain ⟨-, hrange⟩ := h.mem_of_getClusterAt hptr
    by_cases hfull : maxVcpuPerCluster ≤ r.aff.aff0.toNat
    · rw [CpuCluster.addVcpuId, if_pos hfull] at hadd
      cases hadd
    · rw [CpuCluster.addVcpuId, if_neg hfull] at hadd
      cases hadd
      refine ⟨clustered_setCluster h _ _, Nat.lt_of_not_le hfull, ?_⟩
      intro a
      rw [cpuAffinityToId, cpuAffinityToId, getClusterAt_setCluster h]
      by_cases hsame : clusterRange r.aff = clusterRange a
      · have hptr' : m.getClusterAt a = some ptr := by
          rw [getClusterAt, ← hsame]
          exact hptr
        rw [hptr', Option.map_some, if_pos rfl, Option.bind_some, Option.bind_some]
        exact vcpuId_update hfull hsame _ _
      · rw [if_neg fun heq => hsame (aff_eq_iff.1 heq).1]
        cases hother : m.getClusterAt a with
        | none => rfl
        | some e =>
          obtain ⟨-, hrange'⟩ := h.mem_of_getClusterAt hother
          have hne : e.range ≠ ptr.range := by
            rw [hrange, hrange']
            exact fun heq => hsame heq.symm
          rw [Option.map_some, if_neg hne]
  | none =>
    rw [hptr] at hadd
    dsimp only at hadd
    by_cases hfull : maxVcpuPerCluster ≤ r.aff.aff0.toNat
    · rw [CpuCluster.addVcpuId, if_pos hfull] at hadd
      split_ifs at hadd <;> cases hadd
    · rw [CpuCluster.addVcpuId, if_neg hfull] at hadd
      dsimp only at hadd
      split_ifs at hadd with hallocated hfailed
      · cases hadd
      · cases hadd
      · obtain ⟨hclustered, hsearch⟩ := getClusterAt_insert h hptr hadd
        refine ⟨hclustered, Nat.lt_of_not_le hfull, ?_⟩
        intro a
        rw [cpuAffinityToId, cpuAffinityToId, hsearch]
        by_cases hsame : clusterRange r.aff = clusterRange a
        · have hptr' : m.getClusterAt a = none := by
            rw [getClusterAt, ← hsame]
            exact hptr
          have hempty : CpuCluster.vcpuId ⟨fun _ => none⟩ a.aff0.toNat = none := ite_self none
          have hupdate := vcpuId_update hfull hsame (fun _ => none) r.id
          rw [hempty] at hupdate
          rw [if_pos hsame, hptr', Option.bind_some, Option.bind_none]
          exact hupdate
        · rw [if_neg hsame, if_neg fun heq => hsame (aff_eq_iff.1 heq).1]

/-! ## Runs of registrations -/

theorem lastRegistered_append (rs : List Registration) (r : Registration) (a : CpuAffinity) :
    lastRegistered (rs ++ [r]) a = if r.aff = a then some r.id else lastRegistered rs a := by
  rw [lastRegistered, List.reverse_append, List.reverse_singleton, List.singleton_append,
    List.find?_cons]
  split_ifs with hsame
  · rw [decide_eq_true hsame]
    rfl
  · rw [decide_eq_false hsame]
    rfl

theorem clustered_empty : Clustered {} := by
  refine ⟨RangeMap.inOrder_clear, ?_⟩
  intro e he
  cases he

/-- **A search returns the vCPU that was last registered** under the affinity, or none. -/
theorem lookup_registered {rs : List Registration} {m : ClustersMap}
    (hrun : Run Registers {} rs m) :
    m.Clustered ∧ ∀ a, m.cpuAffinityToId a = lastRegistered rs a := by
  induction hrun with
  | nil => exact ⟨clustered_empty, fun a => rfl⟩
  | snoc _ hlast ih =>
    obtain ⟨hclustered, hsearch⟩ := ih
    obtain ⟨hclustered', -, hsearch'⟩ := hclustered.registers hlast
    refine ⟨hclustered', ?_⟩
    intro a
    rw [hsearch', hsearch, lastRegistered_append]

theorem lastRegistered_mem {rs : List Registration} {a : CpuAffinity} {v : ℕ}
    (h : lastRegistered rs a = some v) : ∃ r ∈ rs, r.id = v := by
  obtain ⟨r, hr, rfl⟩ := Option.map_eq_some_iff.1 h
  exact ⟨r, List.mem_reverse.1 (List.mem_of_find?_eq_some hr), rfl⟩

end ClustersMap

end Vml
