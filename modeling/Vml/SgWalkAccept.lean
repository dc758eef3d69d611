import Vml.SgWalkProof

/-!
# The chains a walk accepts

`walkChain_spec` says what a walk that succeeds has recorded. Here is when it succeeds: on every
chain that fits the queue, has no empty descriptor and no readable descriptor after a writable one
(`InOrder`). The chain need not stand still, but every load has to find it.

* `walkChainFrom_accepts`, `walkChain_accepts`: the walk of such a chain succeeds, and records the
  chain.
-/

namespace Vml

namespace Buffer

/-- A chain that the driver of a queue of `size` descriptors may post. -/
structure InOrder (size : UInt16) (es : List ChainEntry) : Prop where
  length_le : es.length ≤ size.toNat
  index_lt : ∀ e ∈ es, e.index < size
  length_ne : ∀ e ∈ es, e.length ≠ 0
  size_le : (es.map fun e => e.length.toNat).sum ≤ uint32Max.toNat
  ordered : es.Pairwise fun e e' => isReadable e'.flags = true → isReadable e.flags = true

/-- The buffer can take the descriptors `es` after the ones it has. -/
structure CanTake (b : Buffer) (size : UInt16) (es : List ChainEntry) : Prop where
  room : b.active + es.length ≤ b.maxChainLength.toNat
  index_lt : ∀ e ∈ es, e.index < size
  length_ne : ∀ e ∈ es, e.length ≠ 0
  size_le : b.sizeBytes + (es.map fun e => e.length.toNat).sum ≤ uint32Max.toNat
  ordered : es.Pairwise fun e e' => isReadable e'.flags = true → isReadable e.flags = true
  writable : b.seenWritableDesc = true → ∀ e ∈ es, isReadable e.flags = false

variable {b : Buffer} {q : Queue} {vq : DeviceQueue} {g : Guest} {t t₀ fuel : ℕ}
  {head tmp idx : UInt16} {trace : WalkTrace} {e : ChainEntry} {es es' : List ChainEntry}
  {r : WalkResult}

/-! ## Following a chain -/

theorem Follows.exists_index (h : Follows g t idx es) : ∃ e ∈ es, e.index = idx := by
  cases h with
  | last => exact ⟨_, List.mem_singleton_self _, rfl⟩
  | next => exact ⟨_, List.mem_cons_self, rfl⟩

theorem Follows.unique (h : Follows g t idx es) (h' : Follows g t idx es') : es = es' := by
  induction h generalizing es' with
  | last hend =>
      cases h' with
      | last => rfl
      | next hcont => exact absurd (hend.symm.trans hcont) Bool.false_ne_true
  | next hcont _ ih =>
      cases h' with
      | last hend => exact absurd (hend.symm.trans hcont) Bool.false_ne_true
      | next _ hrest => rw [ih hrest]

/-! ## One more descriptor -/

theorem visit_err_none
    (hn : (q.nextInChain g (t + 2) tmp (b.descChainMetadata b.active).originalNext).err = .none)
    (hlen : (loaded g t tmp).length ≠ 0)
    (hsize : b.sizeBytes + (loaded g t tmp).length.toNat ≤ uint32Max.toNat)
    (hro : b.seenWritableDesc = true → isReadable (loaded g t tmp).flags = false) :
    (b.visit q g tmp t).err = .none := by
  have hmax : uint32Max.toNat = 2 ^ 32 - 1 := rfl
  have hadd := @sizeAdd_of_lt b.sizeBytes (loaded g t tmp).length.toNat (by omega)
  have hcheck : ¬(((g (t + 1)).table tmp).length = 0 ∨
      uint32Max.toNat < sizeAdd b.sizeBytes ((g (t + 1)).table tmp).length.toNat) :=
    not_or.2 ⟨hlen, by
      show ¬uint32Max.toNat < sizeAdd b.sizeBytes (loaded g t tmp).length.toNat
      omega⟩
  have hflags : isReadable ((g (t + 2)).table tmp).flags = true → b.seenWritableDesc = false := by
    intro hread
    by_contra hseen
    exact Bool.false_ne_true ((hro (by simpa using hseen)).symm.trans hread)
  rw [visit]
  dsimp only
  rw [if_neg hcheck, flags_nextInChain, hn]
  cases hread : isReadable ((g (t + 2)).table tmp).flags with
  | false => simp
  | true => simp [hflags hread]

/-- **A descriptor of an accepted chain** raises no error, and leaves the rest acceptable. -/
theorem CanTake.visit (h : b.CanTake q.size (loaded g t tmp :: es))
    (hnext : contNext (loaded g t tmp).flags = true → ((g (t + 3)).table tmp).next < q.size) :
    (b.visit q g tmp t).err = .none ∧ (b.visit q g tmp t).buffer.CanTake q.size es := by
  have hroom := h.room
  have hsize := h.size_le
  rw [List.length_cons] at hroom
  rw [List.map_cons, List.sum_cons] at hsize
  have hn : (q.nextInChain g (t + 2) tmp
      (b.descChainMetadata b.active).originalNext).err = .none := by
    rw [Queue.nextInChain]
    dsimp only
    by_cases hcont : contNext ((g (t + 2)).table tmp).flags = true
    · rw [if_pos hcont, if_neg (UInt16.not_le.2 (hnext hcont))]
    · rw [if_neg hcont]
  have herr := visit_err_none hn (h.length_ne _ List.mem_cons_self) (by omega)
    (fun hseen => h.writable hseen _ List.mem_cons_self)
  obtain ⟨hfirst, hrest⟩ := List.pairwise_cons.1 h.ordered
  have hext := extends_visit (g := g) (t := t) (by omega) (by omega) herr
  have hlen : (b.visit q g tmp t).buffer.len b.active = (loaded g t tmp).length.toNat := by
    rw [len, visit_descChain, Function.update_self]
    rfl
  have hwritable : (b.visit q g tmp t).buffer.writableAt b.active =
      !isReadable (loaded g t tmp).flags := by
    rw [writableAt, visit_descChain, Function.update_self]
    rfl
  refine ⟨herr, {
    room := by
      rw [hext.active, hext.maxChainLength]
      omega
    index_lt := fun e he => h.index_lt e (List.mem_cons_of_mem _ he)
    length_ne := fun e he => h.length_ne e (List.mem_cons_of_mem _ he)
    size_le := by
      rw [hext.sizeBytes, hlen]
      omega
    ordered := hrest
    writable := fun hseen e he => ?_ }⟩
  rw [hext.seen, hwritable, Bool.or_eq_true, Bool.not_eq_true'] at hseen
  rcases hseen with hseen | hseen
  · exact h.writable hseen e (List.mem_cons_of_mem _ he)
  · by_contra hread
    exact Bool.false_ne_true (hseen.symm.trans (hfirst e he (by simpa using hread)))

/-! ## The whole chain -/

theorem walkLoop_accepts (hes : Follows g t tmp es) (h : b.CanTake vq.size es)
    (hr : walkLoop vq g fuel b tmp t trace = some r) : r.err = .none := by
  induction hes generalizing b fuel trace with
  | @last t idx hend =>
      cases fuel with
      | zero => exact absurd hr nofun
      | succ fuel =>
          have hroom := h.room
          have hfull : b.activeChainLength ≠ b.maxChainLength := fun heq => by
            rw [active, heq, List.length_singleton] at hroom
            omega
          obtain ⟨herr, -⟩ := h.visit (q := vq.toQueue)
            fun hcont => absurd (hend.symm.trans hcont) Bool.false_ne_true
          have hlast : (b.visit vq.toQueue g idx t).nextEn = false := by
            rcases nextInChain_cases vq.toQueue g (t + 2) idx
              (b.descChainMetadata b.active).originalNext with hc | hc
            · exact absurd (hend.symm.trans hc.1) Bool.false_ne_true
            · exact hc.2.2
          rw [walkLoop, if_neg hfull] at hr
          dsimp only at hr
          rw [if_neg (not_not.2 herr), hlast, if_neg Bool.false_ne_true, Option.some.injEq] at hr
          rw [← hr]
  | @next t idx es hcont hrest ih =>
      cases fuel with
      | zero => exact absurd hr nofun
      | succ fuel =>
          have hroom := h.room
          have hfull : b.activeChainLength ≠ b.maxChainLength := fun heq => by
            rw [active, heq, List.length_cons] at hroom
            omega
          obtain ⟨e, he, hidx⟩ := hrest.exists_index
          have hlt : ((g (t + 3)).table idx).next < vq.size :=
            hidx ▸ h.index_lt e (List.mem_cons_of_mem _ he)
          obtain ⟨herr, htake⟩ := h.visit (q := vq.toQueue) fun _ => hlt
          rcases nextInChain_cases vq.toQueue g (t + 2) idx
            (b.descChainMetadata b.active).originalNext with ⟨-, -, hgo, hnext, htime, -⟩ | hc
          · have hgo : (b.visit vq.toQueue g idx t).nextEn = true := hgo
            have hnext : (b.visit vq.toQueue g idx t).next = ((g (t + 3)).table idx).next := hnext
            have htime : (b.visit vq.toQueue g idx t).time = t + 4 := htime
            rw [walkLoop, if_neg hfull] at hr
            dsimp only at hr
            rw [if_neg (not_not.2 herr), if_pos hgo, hnext, htime] at hr
            exact ih htake hr
          · exact absurd (hc.1.symm.trans hcont) Bool.false_ne_true

/-- **A walk accepts a chain that is in order**, and records it. -/
theorem walkChainFrom_accepts (hb : b.IsReset) (hfits : vq.size ≤ b.maxChainLength)
    (hes : Follows g t head es) (h : InOrder vq.size es) :
    ∃ r, b.walkChainFrom vq g head t = some r ∧ r.err = .none ∧
      r.buffer.maxChainLength = b.maxChainLength ∧ WalkRecorded vq g t head r ∧
      r.buffer.entries = es := by
  obtain ⟨e, he, hidx⟩ := hes.exists_index
  obtain ⟨r, hr, hout⟩ := walkChainFrom_outcome (g := g) (t := t) hb (hidx ▸ h.index_lt e he)
  have htake : ({ b with chainForDevice := true } : Buffer).CanTake vq.size es := by
    have hactive : ({ b with chainForDevice := true } : Buffer).active = 0 := hb.active
    have hsize : ({ b with chainForDevice := true } : Buffer).sizeBytes = 0 := hb.sizeBytes
    exact {
      room := by
        have := UInt16.le_iff_toNat_le.1 hfits
        have := h.length_le
        rw [hactive]
        show 0 + es.length ≤ b.maxChainLength.toNat
        omega
      index_lt := h.index_lt
      length_ne := h.length_ne
      size_le := by
        rw [hsize, Nat.zero_add]
        exact h.size_le
      ordered := h.ordered
      writable := fun hseen => absurd (hb.seenWritableDesc.symm.trans hseen) Bool.false_ne_true }
  have hloop := hr
  rw [walkChainFrom, if_neg (UInt16.not_lt.2 hfits)] at hloop
  have herr := walkLoop_accepts hes htake hloop
  have hrec := hout.recorded herr
  exact ⟨r, hr, herr, hout.maxChainLength, hrec, hrec.follows.unique hes⟩

/-! ## Taking a chain from a guest that stands still -/

section Still

variable {shared : Shared} {t' time : ℕ}

theorem Follows.const (h : Follows (fun _ => shared) t idx es) :
    Follows (fun _ => shared) t' idx es := by
  induction h generalizing t' with
  | last hend => exact .last hend
  | next hcont _ ih => exact .next hcont ih

theorem walkChain_empty (hcount : vq.countAvailable shared.avail.index = 0) :
    ∃ time', b.walkChain vq (fun _ => shared) time = some ⟨.noent, b, vq, time', {}⟩ := by
  obtain ⟨herr, -, hq, -⟩ := (vq.recv_cases (fun _ => shared) time).resolve_right fun hr =>
    hr.elim (fun hr => hr.2.1 hcount) fun hr => hr.2.1 hcount
  refine ⟨(vq.recv (fun _ => shared) time).time, ?_⟩
  rw [walkChain, herr, hq]
  rfl

/-- **The next chain is in order**: the walk takes it, and records it. -/
theorem walkChain_accepts (hb : b.IsReset) (hfits : vq.size ≤ b.maxChainLength)
    (hcount : vq.countAvailable shared.avail.index ≠ 0)
    (hring : shared.avail.ring vq.readSlot = head)
    (hes : Follows (fun _ => shared) t head es) (h : InOrder vq.size es) :
    ∃ w t₀, b.walkChain vq (fun _ => shared) time = some w ∧ w.err = .none ∧
      w.buffer.maxChainLength = b.maxChainLength ∧ w.buffer.entries = es ∧
      WalkRecorded (vq.recv (fun _ => shared) time).queue (fun _ => shared) t₀ head w ∧
      (vq.recv (fun _ => shared) time).err = .none ∧
      (vq.recv (fun _ => shared) time).queue.idx = vq.idx + 1 := by
  obtain ⟨e, he, hidx⟩ := hes.exists_index
  have hlt : head < vq.size := hidx ▸ h.index_lt e he
  obtain ⟨herr, -, hdesc, -, hq, -⟩ := ((vq.recv_cases (fun _ => shared)
    time).resolve_left fun hr => hcount hr.2.1).resolve_left fun hr => by
      have hle := hr.2.2.1
      rw [hring] at hle
      exact UInt16.not_lt.2 hle hlt
  rw [hring] at hdesc
  have hsize := vq.size_recv (fun _ => shared) time
  obtain ⟨w, hw, hnone, hmax, hrec, hentries⟩ := @walkChainFrom_accepts b
    (vq.recv (fun _ => shared) time).queue (fun _ => shared)
    (vq.recv (fun _ => shared) time).time _ _ hb (hsize.symm ▸ hfits) hes.const (hsize.symm ▸ h)
  refine ⟨w, _, ?_, hnone, hmax, hentries, hrec, herr, by rw [hq]; rfl⟩
  rw [walkChain, if_neg (not_not.2 herr), hdesc]
  exact hw

end Still

/-! ## What is recorded of the chain -/

theorem Recorded.sizeBytes_eq (h : b.Recorded) :
    b.sizeBytes = (b.entries.map fun e => e.length.toNat).sum := by
  have hsum : ∀ n, offsetOf b.len n = (((List.range n).map b.entry).map
      fun e => e.length.toNat).sum := by
    intro n
    induction n with
    | zero => rfl
    | succ n ih =>
        rw [offsetOf_succ, ih, List.range_succ, List.map_append, List.map_append, List.sum_append]
        simp [entry, len]
  rw [h.size_eq, descOffset, hsum, entries]

end Buffer

end Vml
