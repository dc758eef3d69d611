import Vml.SgWalkProof
import Vml.SgTrack
import Vml.VirtioMmio

/-!
# The life of a queue

A device queue is constructed and destructed any number of times while the device lives. What its
log says of the present incarnation is whether it is constructed (`constructedBy`) and which heads
have been received and not returned (`outstanding`). A log is `Disciplined` if nothing has been sent
on a queue that was not constructed, and every element sent returns an outstanding head.

* `QueueOk`: a queue whose log is disciplined and which knows whether it is constructed.
  `construct`, `destruct`, `recv`, a walk and the conclusion of a chain keep it that way, as long as
  the chain concluded is one the queue has handed out (`Holds`).
-/

namespace Vml

/-! ## Reading a log -/

/-- The queue is constructed. -/
def constructedBy (log : List QueueEvent) : Bool :=
  log.foldl (fun up e => match e with
    | .construct _ => true
    | .destruct => false
    | _ => up) false

/-- The heads this incarnation of the queue has received and not returned. -/
def outstanding (log : List QueueEvent) : List UInt16 :=
  log.foldl (fun heads e => match e with
    | .construct _ => []
    | .destruct => []
    | .recv head => head :: heads
    | .send _ _ id _ _ => heads.erase id.toUInt16
    | .availEvent _ => heads) []

/-- Every `send` was on a constructed queue and returned an outstanding head. -/
def Disciplined (log : List QueueEvent) : Prop :=
  ∀ pre size slot id len index post, log = pre ++ .send size slot id len index :: post →
    constructedBy pre = true ∧ size ≠ 0 ∧ ∃ head ∈ outstanding pre, id = head.toUInt32

variable {log : List QueueEvent} {e : QueueEvent}

theorem disciplined_nil : Disciplined [] := fun _ _ _ _ _ _ _ h => by simp at h

theorem Disciplined.snoc (h : Disciplined log)
    (he : ∀ size slot id len index, e = .send size slot id len index →
      constructedBy log = true ∧ size ≠ 0 ∧ ∃ head ∈ outstanding log, id = head.toUInt32) :
    Disciplined (log ++ [e]) := by
  intro pre size slot id len index post heq
  rcases List.eq_nil_or_concat post with rfl | ⟨post, e', rfl⟩
  · obtain ⟨rfl, hlast⟩ := List.append_inj' heq rfl
    exact he _ _ _ _ _ (List.singleton_inj.1 hlast)
  · rw [List.concat_eq_append, ← List.cons_append, ← List.append_assoc] at heq
    exact h _ _ _ _ _ _ _ (List.append_inj' heq rfl).1

theorem Disciplined.snoc_of_ne (h : Disciplined log)
    (he : ∀ size slot id len index, e ≠ .send size slot id len index) : Disciplined (log ++ [e]) :=
  h.snoc fun _ _ _ _ _ heq => absurd heq (he _ _ _ _ _)

@[simp] theorem constructedBy_snoc : constructedBy (log ++ [e]) = match e with
    | .construct _ => true
    | .destruct => false
    | _ => constructedBy log := by
  rw [constructedBy, List.foldl_append]
  cases e <;> rfl

@[simp] theorem outstanding_snoc : outstanding (log ++ [e]) = match e with
    | .construct _ => []
    | .destruct => []
    | .recv head => head :: outstanding log
    | .send _ _ id _ _ => (outstanding log).erase id.toUInt16
    | .availEvent _ => outstanding log := by
  rw [outstanding, List.foldl_append]
  cases e <;> rfl

/-! ## Device queues -/

namespace DeviceQueue

variable {q : DeviceQueue} {g : Guest} {t : ℕ}

/-- The queue is constructed, and its log is disciplined. -/
structure InPlace (q : DeviceQueue) : Prop where
  constructed : constructedBy q.log = true
  size_ne : q.size ≠ 0
  disciplined : Disciplined q.log

theorem InPlace.emit (h : q.InPlace) (he : ∀ size slot id len index, e ≠ .send size slot id len index)
    (hup : constructedBy (q.log ++ [e]) = true) : (q.emit e).InPlace where
  constructed := hup
  size_ne := h.size_ne
  disciplined := h.disciplined.snoc_of_ne he

theorem InPlace.recv (h : q.InPlace) (g : Guest) (t : ℕ) :
    (q.recv g t).queue.InPlace ∧ ((q.recv g t).err = .none →
      (q.recv g t).desc ∈ outstanding (q.recv g t).queue.log) := by
  rcases q.recv_cases g t with ⟨herr, -, hq, -⟩ | ⟨herr, -, -, hq, -⟩ | ⟨herr, -, -, -, hq, -⟩
  · rw [hq, herr]
    exact ⟨h, nofun⟩
  · rw [hq, herr]
    have hemit := h.emit (e := .availEvent (g t).avail.index) nofun (by simpa using h.constructed)
    exact ⟨⟨hemit.constructed, hemit.size_ne, hemit.disciplined⟩, nofun⟩
  · have hevent := h.emit (e := .availEvent (g t).avail.index) nofun (by simpa using h.constructed)
    have hemit := hevent.emit (e := .recv (q.recv g t).desc) nofun
      (by simpa using hevent.constructed)
    rw [hq]
    refine ⟨⟨hemit.constructed, hemit.size_ne, hemit.disciplined⟩, fun _ => ?_⟩
    dsimp only
    rw [outstanding_snoc]
    exact List.mem_cons_self

/-- **Returning an outstanding head keeps the log disciplined.** -/
theorem InPlace.send (h : q.InPlace) {head : UInt16} (hmem : head ∈ outstanding q.log)
    (len : UInt32) : (q.send head len).InPlace where
  constructed := by
    rw [DeviceQueue.send]
    simpa using h.constructed
  size_ne := h.size_ne
  disciplined := h.disciplined.snoc fun size slot id len index heq => by
    obtain ⟨rfl, -, rfl, -, -⟩ := QueueEvent.send.inj heq
    exact ⟨h.constructed, h.size_ne, head, hmem, rfl⟩

end DeviceQueue

/-! ## Queues and the buffers that hold their chains -/

namespace Buffer

variable {b : Buffer} {q : DeviceQueue}

/-- The buffer holds a chain whose head the queue has handed out. -/
structure Holds (b : Buffer) (q : DeviceQueue) : Prop where
  wellFormed : b.WellFormed
  completeChain : b.completeChain = true
  asyncCopyCookie : b.asyncCopyCookie = {}
  active_pos : 0 < b.active
  head_mem : (b.descChainMetadata 0).desc ∈ outstanding q.log

theorem Holds.sizeBytes_pos (h : b.Holds q) : 0 < b.sizeBytes := by
  have hlen := h.wellFormed.len_pos 0 h.active_pos
  have := h.wellFormed.len_le_size h.active_pos
  omega

/-- **A walk** from a reset buffer ends with the chain held, or with nothing held. -/
theorem walkChain_inPlace (hb : b.IsReset) (hq : q.InPlace) (g : Guest) (t : ℕ) :
    ∃ r, b.walkChain q g t = some r ∧ r.queue.InPlace ∧
      (r.err = .none → r.buffer.Holds r.queue) ∧ (r.err ≠ .none → r.buffer.IsReset) := by
  obtain ⟨hrecv, hmem⟩ := hq.recv g t
  rcases @walkChain_cases b q g t hb with ⟨herr, heq⟩ | ⟨herr, r, heq, hout⟩
  · exact ⟨_, heq, hrecv, fun h => absurd h herr, fun _ => hb⟩
  · refine ⟨r, heq, ?_⟩
    by_cases hr : r.err = .none
    · have hrec := hout.recorded hr
      rw [hrec.queue]
      exact ⟨hrecv, fun _ => ⟨hrec.wellFormed, hrec.completeChain, hrec.asyncCopyCookie,
        hrec.active_pos, hrec.head_eq ▸ hmem herr⟩, fun h => absurd hr h⟩
    · obtain ⟨hreset, hqueue⟩ := hout.returned hr
      rw [hqueue]
      exact ⟨hrecv.send (hmem herr) 0, fun h => absurd h hr, fun _ => hreset⟩

/-- **Concluding** a chain that is held. -/
theorem concludeChainUse_inPlace (hb : b.Holds q) (hq : q.InPlace) :
    (b.concludeChainUse q).1.IsReset ∧ (b.concludeChainUse q).2.InPlace := by
  rw [concludeChainUse, concludeChainUseWith, shouldSendHeadDescriptor, hb.completeChain,
    Bool.true_or, if_pos rfl]
  exact ⟨b.isReset_reset, hq.send hb.head_mem _⟩

theorem concludeChainUse_of_isReset (hb : b.IsReset) :
    (b.concludeChainUse q).1.IsReset ∧ (b.concludeChainUse q).2 = q := by
  rw [concludeChainUse, concludeChainUseWith, shouldSendHeadDescriptor, hb.completeChain,
    Bool.false_or, if_neg Bool.false_ne_true]
  exact ⟨b.isReset_reset, rfl⟩

end Buffer

/-! ## Construction -/

namespace QueueState

variable {q : QueueState}

/-- The log is disciplined and agrees with the flag, and a constructed queue has a size. -/
structure QueueOk (q : QueueState) : Prop where
  disciplined : Disciplined q.deviceQueue.log
  constructed : constructedBy q.deviceQueue.log = q.constructed
  size_ne : q.constructed = true → q.deviceQueue.size ≠ 0

theorem QueueOk.inPlace (h : q.QueueOk) (hup : q.constructed = true) : q.deviceQueue.InPlace :=
  ⟨h.constructed.trans hup, h.size_ne hup, h.disciplined⟩

theorem QueueOk.setDeviceQueue (h : q.constructed = true) {dq : DeviceQueue} (hdq : dq.InPlace) :
    { q with deviceQueue := dq : QueueState }.QueueOk :=
  ⟨hdq.disciplined, hdq.constructed.trans h.symm, fun _ => hdq.size_ne⟩

theorem QueueOk.destruct (h : Disciplined q.deviceQueue.log) : q.destruct.QueueOk where
  disciplined := h.snoc_of_ne nofun
  constructed := by simp [QueueState.destruct]
  size_ne := nofun

/-- **Construction** ends in a constructed queue, or leaves none. -/
theorem QueueOk.construct (h : q.QueueOk) (d : QueueData) (p : Platform) (use : Bool) :
    (q.construct d p use).QueueOk := by
  rw [QueueState.construct]
  dsimp only
  by_cases hsize : isSizeValid d.num.toUInt16 = true
  · rw [if_neg (by simp [hsize])]
    split_ifs
    · exact QueueOk.destruct h.disciplined
    · cases p.mapGuestMem _ _ with
      | none => exact QueueOk.destruct h.disciplined
      | some desc =>
          cases p.mapGuestMem _ _ with
          | none => exact QueueOk.destruct h.disciplined
          | some avail =>
              cases p.mapGuestMem _ _ with
              | none => exact QueueOk.destruct h.disciplined
              | some used =>
                  refine ⟨h.disciplined.snoc_of_ne nofun, by simp, fun _ h0 => ?_⟩
                  have hpos := isSizeValid_pos hsize
                  have h0 : d.num.toUInt16 = 0 := h0
                  rw [h0] at hpos
                  exact absurd hpos (by decide)
  · rw [if_pos (by simpa using hsize)]
    exact h

end QueueState

end Vml
