import Vml.Lib.Run
import Vml.SgWalkProof

/-!
# Who owns a head

A device that takes a head from its queue has to give it back exactly once. Between the two the
head belongs to the buffer that walked its chain, and the buffer's `complete_chain` flag is all
that says so. A run here is any sequence of `walk_chain(vq)` on reset buffers, with a guest of its
own for every walk, and of `conclude_chain_use(vq)` on any buffer, any number of times.

The invariant `Ownership` splits the walks that took a head into those whose head has been
returned, in the order of the used ring, and those whose head some buffer still holds.

* `heads_returned`: every head received is published exactly once, under its own id, and with
  length zero when the chain was malformed or too long; nothing else is published.
* `exists_step`: a walk on a reset buffer, and any `conclude_chain_use`, can always be performed.
-/

namespace Vml

/-- A walk that took a head from the queue, and how it ended. -/
structure Walk where
  head : UInt16
  err : Errno
  deriving DecidableEq, Repr

/-- A device with its queue and its buffers. `walks` is a history variable. -/
structure ChainDevice where
  vq : DeviceQueue
  buffers : BufId → Buffer
  walks : List Walk := []

/-- What the device does. Each walk names the guest that answers its loads. -/
inductive ChainOp
  | walkChain (i : BufId) (g : Guest)
  | concludeChainUse (i : BufId)

namespace ChainDevice

/-- The walk that is recorded when `recv` returns a head. -/
def walkOf (s : ChainDevice) (g : Guest) (err : Errno) : List Walk :=
  if (s.vq.recv g 0).err = .none then [⟨(s.vq.recv g 0).desc, err⟩] else []

/-- One operation. A walk needs its buffer in the reset state. -/
def step (s : ChainDevice) : ChainOp → ChainDevice → Prop
  | .walkChain i g, s' => (s.buffers i).IsReset ∧ ∃ r, (s.buffers i).walkChain s.vq g 0 = some r ∧
      s' = { vq := r.queue
             buffers := Function.update s.buffers i r.buffer
             walks := s.walks ++ s.walkOf g r.err }
  | .concludeChainUse i, s' =>
      let r := (s.buffers i).concludeChainUse s.vq
      s' = { s with vq := r.2, buffers := Function.update s.buffers i r.1 }

/-- Nothing has happened yet. -/
structure Fresh (s : ChainDevice) : Prop where
  buffers : ∀ i, (s.buffers i).IsReset
  log : s.vq.log = []
  walks : s.walks = []

/-- Buffer `i` has been walked and not concluded since. -/
def isOpen (i : BufId) : List ChainOp → Bool :=
  List.foldl (fun o op => match op with
    | .walkChain j _ => o || i == j
    | .concludeChainUse j => o && i != j) false

/-! ## The invariant -/

/-- A walk whose head has been returned, with the length it was returned with. -/
structure Returned where
  walk : Walk
  len : UInt32

/-- The used-ring element of a returned head. -/
def Returned.element (d : Returned) : UInt32 × UInt32 := (d.walk.head.toUInt32, d.len)

/-- The walk whose head buffer `i` holds. -/
def heldBy (s : ChainDevice) (i : BufId) : Walk := ⟨((s.buffers i).descChainMetadata 0).desc, .none⟩

/-- The walks are those of the buffers in `held`, and those `done` with. -/
structure Ownership (s : ChainDevice) (held : List BufId) (done : List Returned) : Prop where
  nodup : held.Nodup
  held_iff : ∀ i, i ∈ held ↔ (s.buffers i).completeChain = true
  reset : ∀ i, i ∉ held → (s.buffers i).IsReset
  received : Vml.received s.vq.log = s.walks.map Walk.head
  published : Vml.published s.vq.log = done.map Returned.element
  malformed : ∀ d ∈ done, d.walk.err ≠ .none → d.len = 0
  walks : s.walks.Perm (done.map Returned.walk ++ held.map s.heldBy)

/-- The invariant of a run. -/
def Owned (s : ChainDevice) : Prop := ∃ held done, s.Ownership held done

variable {s t : ChainDevice} {held : List BufId} {done : List Returned} {ops : List ChainOp}

theorem Fresh.ownership (h : s.Fresh) : s.Ownership [] [] where
  nodup := List.nodup_nil
  held_iff i := by simp [(h.buffers i).completeChain]
  reset i _ := h.buffers i
  received := by rw [h.log, h.walks]; rfl
  published := by rw [h.log]; rfl
  malformed := by simp
  walks := by rw [h.walks]; rfl

/-! ## Heads changing hands -/

section Transfer

variable {i : BufId} {b : Buffer}

theorem heldBy_update (hbuf : t.buffers = Function.update s.buffers i b) (hi : i ∉ held) :
    held.map t.heldBy = held.map s.heldBy := by
  refine List.map_congr_left fun j hj => ?_
  have hne : j ≠ i := fun heq => hi (heq ▸ hj)
  rw [heldBy, heldBy, hbuf, Function.update_of_ne hne]

theorem Ownership.hold (h : s.Ownership held done) (hi : i ∉ held) {head : UInt16}
    (hbuf : t.buffers = Function.update s.buffers i b) (hcomplete : b.completeChain = true)
    (hhead : (b.descChainMetadata 0).desc = head)
    (hrecv : Vml.received t.vq.log = Vml.received s.vq.log ++ [head])
    (hpub : Vml.published t.vq.log = Vml.published s.vq.log)
    (hwalks : t.walks = s.walks ++ [⟨head, .none⟩]) : t.Ownership (i :: held) done where
  nodup := List.nodup_cons.2 ⟨hi, h.nodup⟩
  held_iff j := by
    rcases eq_or_ne j i with rfl | hne
    · simp [hbuf, hcomplete]
    · rw [hbuf, Function.update_of_ne hne, ← h.held_iff j, List.mem_cons, or_iff_right hne]
  reset j hj := by
    rw [List.mem_cons, not_or] at hj
    rw [hbuf, Function.update_of_ne hj.1]
    exact h.reset j hj.2
  received := by
    rw [hrecv, h.received, hwalks, List.map_append]
    rfl
  published := by rw [hpub, h.published]
  malformed := h.malformed
  walks := by
    have hheld : t.heldBy i = ⟨head, .none⟩ := by
      rw [heldBy, hbuf, Function.update_self, hhead]
    rw [hwalks, List.map_cons, hheld, heldBy_update hbuf hi]
    refine (h.walks.append_right _).trans ?_
    rw [List.append_assoc]
    exact List.perm_append_comm.append_left _

theorem Ownership.keep (h : s.Ownership held done) (hi : i ∉ held)
    (hbuf : t.buffers = Function.update s.buffers i b) (hreset : b.IsReset)
    (hrecv : Vml.received t.vq.log = Vml.received s.vq.log)
    (hpub : Vml.published t.vq.log = Vml.published s.vq.log) (hwalks : t.walks = s.walks) :
    t.Ownership held done where
  nodup := h.nodup
  held_iff j := by
    rcases eq_or_ne j i with rfl | hne
    · simp [hbuf, hi, hreset.completeChain]
    · rw [hbuf, Function.update_of_ne hne, ← h.held_iff j]
  reset j hj := by
    rcases eq_or_ne j i with rfl | hne
    · rw [hbuf, Function.update_self]
      exact hreset
    · rw [hbuf, Function.update_of_ne hne]
      exact h.reset j hj
  received := by rw [hrecv, h.received, hwalks]
  published := by rw [hpub, h.published]
  malformed := h.malformed
  walks := by
    rw [heldBy_update hbuf hi, hwalks]
    exact h.walks

/-- A head is returned in the operation that took it. -/
theorem Ownership.giveBack (h : s.Ownership held done) (hi : i ∉ held) {w : Walk}
    (hbuf : t.buffers = Function.update s.buffers i b) (hreset : b.IsReset)
    (hrecv : Vml.received t.vq.log = Vml.received s.vq.log ++ [w.head])
    (hpub : Vml.published t.vq.log = Vml.published s.vq.log ++ [(w.head.toUInt32, 0)])
    (hwalks : t.walks = s.walks ++ [w]) : t.Ownership held (done ++ [⟨w, 0⟩]) where
  nodup := h.nodup
  held_iff j := by
    rcases eq_or_ne j i with rfl | hne
    · simp [hbuf, hi, hreset.completeChain]
    · rw [hbuf, Function.update_of_ne hne, ← h.held_iff j]
  reset j hj := by
    rcases eq_or_ne j i with rfl | hne
    · rw [hbuf, Function.update_self]
      exact hreset
    · rw [hbuf, Function.update_of_ne hne]
      exact h.reset j hj
  received := by
    rw [hrecv, h.received, hwalks, List.map_append]
    rfl
  published := by
    rw [hpub, h.published, List.map_append]
    rfl
  malformed := by
    intro d hd
    rcases List.mem_append.1 hd with hold | hnew
    · exact h.malformed d hold
    · rw [List.mem_singleton.1 hnew]
      exact fun _ => rfl
  walks := by
    rw [heldBy_update hbuf hi, hwalks, List.map_append, List.append_assoc]
    refine (h.walks.append_right _).trans ?_
    rw [List.append_assoc]
    exact List.perm_append_comm.append_left _

theorem Ownership.release (h : s.Ownership held done) (hi : i ∈ held) {len : UInt32}
    (hbuf : t.buffers = Function.update s.buffers i b) (hreset : b.IsReset)
    (hrecv : Vml.received t.vq.log = Vml.received s.vq.log)
    (hpub : Vml.published t.vq.log =
      Vml.published s.vq.log ++ [((s.heldBy i).head.toUInt32, len)])
    (hwalks : t.walks = s.walks) :
    t.Ownership (held.erase i) (done ++ [⟨s.heldBy i, len⟩]) where
  nodup := h.nodup.erase i
  held_iff j := by
    rw [h.nodup.mem_erase_iff]
    rcases eq_or_ne j i with rfl | hne
    · simp [hbuf, hreset.completeChain]
    · rw [hbuf, Function.update_of_ne hne, ← h.held_iff j, and_iff_right hne]
  reset j hj := by
    rcases eq_or_ne j i with rfl | hne
    · rw [hbuf, Function.update_self]
      exact hreset
    · rw [hbuf, Function.update_of_ne hne]
      exact h.reset j fun hmem => hj ((List.mem_erase_of_ne hne).2 hmem)
  received := by rw [hrecv, h.received, hwalks]
  published := by
    rw [hpub, h.published, List.map_append]
    rfl
  malformed := by
    intro d hd
    rcases List.mem_append.1 hd with hold | hnew
    · exact h.malformed d hold
    · rw [List.mem_singleton.1 hnew]
      exact fun hc => absurd rfl hc
  walks := by
    rw [heldBy_update hbuf h.nodup.not_mem_erase, hwalks, List.map_append, List.append_assoc]
    refine h.walks.trans (List.Perm.append_left _ ?_)
    exact (List.perm_cons_erase hi).map _

end Transfer

/-! ## One operation -/

/-- **A walk keeps the invariant**: it takes no head, holds the one it took, or returns it. -/
theorem ownership_walkChain (h : s.Ownership held done) {i : BufId} {g : Guest}
    (hstep : s.step (.walkChain i g) t) : t.Owned := by
  obtain ⟨hreset, r, hr, rfl⟩ := hstep
  have hnot : i ∉ held := fun hi => by
    have := (h.held_iff i).1 hi
    simp [hreset.completeChain] at this
  have hrecv := s.vq.received_recv g 0
  have hpub := s.vq.published_recv g 0
  rcases @Buffer.walkChain_cases (s.buffers i) s.vq g 0 hreset with
    ⟨herr, heq⟩ | ⟨herr, r', heq, hout⟩
  · rw [heq, Option.some.injEq] at hr
    subst hr
    rw [if_neg herr, List.append_nil] at hrecv
    rw [walkOf, if_neg herr, List.append_nil]
    exact ⟨held, done, h.keep hnot rfl hreset hrecv hpub rfl⟩
  · rw [heq, Option.some.injEq] at hr
    subst hr
    rw [if_pos herr] at hrecv
    rw [walkOf, if_pos herr]
    by_cases hnone : r'.err = .none
    · have hrec := hout.recorded hnone
      rw [hnone, hrec.queue]
      exact ⟨_, _, h.hold hnot rfl hrec.completeChain hrec.head_eq hrecv hpub rfl⟩
    · obtain ⟨hreset', hqueue⟩ := hout.returned hnone
      rw [hqueue]
      refine ⟨_, _, h.giveBack hnot rfl hreset' ?_ ?_ rfl⟩
      · rw [DeviceQueue.received_send, hrecv]
      · rw [DeviceQueue.published_send, hpub]

/-- **`conclude_chain_use` keeps the invariant**: it returns the head the buffer holds, if any. -/
theorem ownership_concludeChainUse (h : s.Ownership held done) {i : BufId}
    (hstep : s.step (.concludeChainUse i) t) : t.Owned := by
  simp only [step] at hstep
  subst hstep
  rw [Buffer.concludeChainUse, Buffer.concludeChainUseWith, Buffer.shouldSendHeadDescriptor,
    Bool.or_false]
  have hreset := (s.buffers i).isReset_reset
  split_ifs with hcomplete
  · have hi : i ∈ held := (h.held_iff i).2 hcomplete
    exact ⟨_, _, h.release hi rfl hreset (DeviceQueue.received_send ..)
      (DeviceQueue.published_send ..) rfl⟩
  · have hi : i ∉ held := fun hmem => hcomplete ((h.held_iff i).1 hmem)
    exact ⟨_, _, h.keep hi rfl hreset rfl rfl rfl⟩

/-! ## Every run -/

theorem owned_of_run (hrun : Run step s ops t) (hs : s.Fresh) : t.Owned := by
  have hinit : s.Owned := ⟨[], [], hs.ownership⟩
  refine hrun.invariant (fun u op v hu hstep => ?_) hinit
  obtain ⟨held, done, h⟩ := hu
  cases op with
  | walkChain i g => exact ownership_walkChain h hstep
  | concludeChainUse i => exact ownership_concludeChainUse h hstep

theorem isOpen_of_completeChain (hrun : Run step s ops t) (hs : s.Fresh) {i : BufId}
    (hi : (t.buffers i).completeChain = true) : isOpen i ops = true := by
  induction hrun with
  | nil => simp [(hs.buffers i).completeChain] at hi
  | snoc _ hstep ih =>
      rename_i op _
      rw [isOpen, List.foldl_append]
      cases op with
      | walkChain j g =>
          obtain ⟨-, r, -, rfl⟩ := hstep
          rcases eq_or_ne i j with rfl | hne
          · simp
          · have := ih (by simpa [Function.update_of_ne hne] using hi)
            rw [isOpen] at this
            simp [this]
      | concludeChainUse j =>
          simp only [step] at hstep
          subst hstep
          rcases eq_or_ne i j with rfl | hne
          · simp only [Function.update_self, Buffer.concludeChainUse,
              Buffer.concludeChainUseWith] at hi
            split_ifs at hi <;> simp [Buffer.reset] at hi
          · have := ih (by simpa [Function.update_of_ne hne] using hi)
            rw [isOpen] at this
            simp [this, hne]

/-- **Every head received is returned exactly once.** In every run, the elements of the used ring
are those of distinct walks that took a head, each under the head's own id, and of length zero
when the walk failed. Once every buffer that was walked has been concluded, they are all of the
walks. -/
theorem heads_returned (hrun : Run step s ops t) (hs : s.Fresh) :
    received t.vq.log = t.walks.map Walk.head ∧
    ∃ done : List Returned,
      published t.vq.log = done.map Returned.element ∧
      (∀ d ∈ done, d.walk.err ≠ .none → d.len = 0) ∧
      List.Subperm (done.map Returned.walk) t.walks ∧
      ((∀ i, isOpen i ops = false) → (done.map Returned.walk).Perm t.walks) := by
  obtain ⟨held, done, h⟩ := owned_of_run hrun hs
  refine ⟨h.received, done, h.published, h.malformed, ?_, fun hclosed => ?_⟩
  · exact (List.sublist_append_left _ _).subperm.trans h.walks.symm.subperm
  · have hnone : held = [] := List.eq_nil_iff_forall_not_mem.2 fun i hi => by
      have hopen := isOpen_of_completeChain hrun hs ((h.held_iff i).1 hi)
      rw [hclosed i] at hopen
      exact absurd hopen (by decide)
    have hperm := h.walks
    rw [hnone, List.map_nil, List.append_nil] at hperm
    exact hperm.symm

/-- A device that walks the chain of `Buffer.twoLinks` and concludes it. -/
theorem heads_returned_twoLinks :
    let s : ChainDevice := { vq := { size := 4 }, buffers := fun _ => { maxChainLength := 4 } }
    ∃ t, Run step s [.walkChain 0 Buffer.twoLinks, .concludeChainUse 0] t ∧
      t.walks.map Walk.head = [1] ∧ ∃ done : List Returned,
        published t.vq.log = done.map Returned.element ∧
        (done.map Returned.walk).Perm t.walks := by
  intro s
  have hfresh : s.Fresh := ⟨fun _ => Buffer.isReset_mk 4, rfl, rfl⟩
  obtain ⟨r, hr⟩ := Buffer.exists_walkChain (hfresh.buffers 0) s.vq Buffer.twoLinks 0
  have hrun := Run.snoc (Run.snoc (@Run.nil _ _ step s)
    (show step s (.walkChain 0 Buffer.twoLinks) _ from ⟨hfresh.buffers 0, r, hr, rfl⟩))
    (show step _ (.concludeChainUse 0) _ from rfl)
  have hclosed : ∀ i, isOpen i [.walkChain 0 Buffer.twoLinks, .concludeChainUse 0] = false := by
    intro i
    simp [isOpen]
  obtain ⟨-, done, hpub, -, -, hperm⟩ := heads_returned hrun hfresh
  refine ⟨_, hrun, ?_, done, hpub, hperm hclosed⟩
  have hdesc : (s.vq.recv Buffer.twoLinks 0).desc = 1 := by decide
  show (s.walkOf Buffer.twoLinks r.err).map Walk.head = [1]
  rw [walkOf, if_pos (by decide), hdesc]
  rfl

theorem exists_step (s : ChainDevice) (op : ChainOp)
    (hwalk : ∀ i g, op = .walkChain i g → (s.buffers i).IsReset) : ∃ t, s.step op t := by
  cases op with
  | walkChain i g =>
      have hreset := hwalk i g rfl
      obtain ⟨r, hr⟩ := Buffer.exists_walkChain hreset s.vq g 0
      exact ⟨_, hreset, r, hr, rfl⟩
  | concludeChainUse i => exact ⟨_, rfl⟩

end ChainDevice

end Vml
