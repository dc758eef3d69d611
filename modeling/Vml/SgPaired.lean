import Vml.Lib.Ledger
import Vml.SgHooks

/-!
# Translations are paired with their post hooks

`vq_addr_to_r_hva` and `vq_addr_to_w_hva` may map guest memory, which the post hooks unmap. So a
copy has to call the post hook of every translation that succeeded, once, and no other. The calls of
a copy are a ledger of that (`HookCall.entry`).

**The copies to and from linear memory** translate one address at a time, and whatever the hooks
return they are paired.

**The copies between buffers** translate the destination, then the source. `copy_between_vqa`
returns at once when the source's translation or its post hook fails, and the destination's post
hook is not called. `SourceOk` says that this does not happen.

Main result: `Hooked.paired_iff`, with `Hooked.destination_left_mapped` for a destination that stays
mapped.
-/

namespace Vml

/-- What a call does to the ledger of translations: it makes one, or its post hook is called. -/
def HookCall.entry : HookCall → Entry (Parity × UInt64 × ℕ × ℕ)
  | .toHva parity vqa sizeBytes err hva =>
      if err = .none then .take (parity, vqa, sizeBytes, hva) else .pass
  | .bulkCopy _ _ _ => .pass
  | .post parity vqa sizeBytes hva _ => .give (parity, vqa, sizeBytes, hva)

namespace Hooked

variable {ω : Type} {b dst src : Buffer} {hooks dHooks sHooks : ChainHooks ω} {copier : BulkCopier}
  {w : CopyWorld ω} {vqa dVqa sVqa : UInt64} {n hva dHva sHva : ℕ} {err dErr sErr : Errno}

/-! ## One chunk -/

theorem paired_failed {parity : Parity} (herr : err ≠ .none) :
    Paired HookCall.entry [.toHva parity vqa n err hva] := by
  simp [Paired, held, heldFrom, HookCall.entry, Entry.next, herr]

theorem paired_one {parity : Parity} {dst src : ℕ} :
    Paired HookCall.entry
      [.toHva parity vqa n .none hva, .bulkCopy dst src n, .post parity vqa n hva err] := by
  simp [Paired, held, heldFrom, HookCall.entry, Entry.next]

theorem paired_two :
    Paired HookCall.entry
      [.toHva .write dVqa n .none dHva, .toHva .read sVqa n .none sHva, .bulkCopy dHva sHva n,
        .post .read sVqa n sHva sErr, .post .write dVqa n dHva dErr] := by
  simp [Paired, held, heldFrom, HookCall.entry, Entry.next]

theorem not_paired_translation (herr : err ≠ .none) :
    ¬Paired HookCall.entry
      [.toHva .write dVqa n .none dHva, .toHva .read sVqa n err sHva] := by
  simp [Paired, held, heldFrom, HookCall.entry, Entry.next, herr]

theorem not_paired_post :
    ¬Paired HookCall.entry
      [.toHva .write dVqa n .none dHva, .toHva .read sVqa n .none sHva, .bulkCopy dHva sHva n,
        .post .read sVqa n sHva sErr] := by
  simp [Paired, held, heldFrom, HookCall.entry, Entry.next]

/-- Of each chunk that is reached: once the destination is translated, so is the source, and its
post hook succeeds. The hooks are asked in the order of the copy, from the world `x` on. -/
def SourceOk (dst src : Buffer) (dstHooks srcHooks : ChainHooks ω) : List SgChunk → ω → Prop
  | [], _ => True
  | c :: cs, x =>
      let d := dstHooks.vqAddrToWHva (vqaAt dst c.dst) c.size x
      let s := srcHooks.vqAddrToRHva (vqaAt src c.src) c.size d.2
      let r := srcHooks.vqAddrToRHvaPost (vqaAt src c.src) c.size s.1.2 s.2
      let e := dstHooks.vqAddrToWHvaPost (vqaAt dst c.dst) c.size d.1.2 r.2
      dst.shouldOnlyRead (dst.descChain c.dst.1).flags = false → d.1.1 = .none →
        s.1.1 = .none ∧ r.1 = .none ∧ (e.1 = .none → SourceOk dst src dstHooks srcHooks cs e.2)

/-- **A copy between buffers is paired exactly if the source does not fail it** once a destination
is translated. -/
theorem paired_runSgChunks (cs : List SgChunk) (bytesCopied : ℕ) (w : CopyWorld ω)
    (hw : Paired HookCall.entry w.calls) :
    Paired HookCall.entry
        (runSgChunks dst src dHooks sHooks copier cs bytesCopied w).world.calls ↔
      SourceOk dst src dHooks sHooks cs w.ext := by
  induction cs generalizing bytesCopied w with
  | nil => exact iff_of_true hw trivial
  | cons c cs ih =>
      rw [runSgChunks, runChunks, ← runSgChunks, SourceOk]
      by_cases hread : dst.shouldOnlyRead (dst.descChain c.dst.1).flags = true
      · rw [if_pos hread]
        exact iff_of_true hw fun hwrite => absurd (hwrite.symm.trans hread) (by simp)
      rw [if_neg hread]
      have hwrite := Bool.eq_false_iff.2 hread
      obtain ⟨d, hd⟩ : ∃ d, dHooks.vqAddrToWHva (vqaAt dst c.dst) c.size w.ext = d := ⟨_, rfl⟩
      obtain ⟨s, hs⟩ : ∃ s, sHooks.vqAddrToRHva (vqaAt src c.src) c.size d.2 = s := ⟨_, rfl⟩
      obtain ⟨r, hr⟩ : ∃ r, sHooks.vqAddrToRHvaPost (vqaAt src c.src) c.size s.1.2 s.2 = r :=
        ⟨_, rfl⟩
      obtain ⟨e, he⟩ : ∃ e, dHooks.vqAddrToWHvaPost (vqaAt dst c.dst) c.size d.1.2 r.2 = e :=
        ⟨_, rfl⟩
      simp only [hd, hs, hr, he]
      obtain ⟨hd', heq⟩ | ⟨hd', hs', heq⟩ | ⟨hd', hs', hr', heq⟩ | ⟨hd', hs', hr', heq⟩ :=
        @copyBetweenVqa_cases ω dHooks sHooks copier w _ _ _ _ _ _ _ hd hs hr he
      · rw [copySgChunk, heq, if_pos hd']
        refine iff_of_true ?_ fun _ h => absurd h hd'
        exact hw.append_iff.2 (paired_failed hd')
      · rw [copySgChunk, heq, if_pos hs']
        refine iff_of_false ?_ fun h => hs' (h hwrite hd').1
        exact fun h => not_paired_translation hs' (hw.append_iff.1 h)
      · rw [copySgChunk, heq, if_pos hr']
        refine iff_of_false ?_ fun h => hr' (h hwrite hd').2.1
        exact fun h => not_paired_post (hw.append_iff.1 h)
      · rw [copySgChunk, heq]
        have hpaired : Paired HookCall.entry (w.calls ++
            [.toHva .write (vqaAt dst c.dst) c.size .none d.1.2,
              .toHva .read (vqaAt src c.src) c.size .none s.1.2, .bulkCopy d.1.2 s.1.2 c.size,
              .post .read (vqaAt src c.src) c.size s.1.2 .none,
              .post .write (vqaAt dst c.dst) c.size d.1.2 e.1]) := hw.append_iff.2 paired_two
        by_cases he' : e.1 = .none
        · rw [if_neg (not_not.2 he'), ih _ _ hpaired]
          exact ⟨fun h _ _ => ⟨hs', hr', fun _ => h⟩, fun h => (h hwrite hd').2.2 he'⟩
        · rw [if_pos he']
          exact iff_of_true hpaired fun _ _ => ⟨hs', hr', fun h => absurd h he'⟩

/-- **A copy to or from linear memory is paired**, whatever the hooks return. -/
theorem paired_runLinearChunks (linearToSg : Bool) (cs : List LinearChunk) (bytesCopied : ℕ)
    (w : CopyWorld ω) (hw : Paired HookCall.entry w.calls) :
    Paired HookCall.entry
      (runLinearChunks linearToSg b hooks copier cs bytesCopied w).world.calls := by
  induction cs generalizing bytesCopied w with
  | nil => exact hw
  | cons c cs ih =>
      rw [runLinearChunks, runChunks, ← runLinearChunks]
      by_cases hread : (linearToSg && b.shouldOnlyRead (b.descChain c.sg.1).flags) = true
      · rw [if_pos hread]
        exact hw
      rw [if_neg hread]
      obtain ⟨a, ha⟩ : ∃ a, a = if linearToSg then Parity.write else .read := ⟨_, rfl⟩
      obtain ⟨t, ht⟩ : ∃ t, hooks.toHva a (vqaAt b c.sg) c.size w.ext = t := ⟨_, rfl⟩
      obtain ⟨ht', heq⟩ | ⟨ht', heq⟩ :=
        @copyLinearChunk_cases ω b hooks copier w linearToSg c a _ _ t _ ha ht rfl rfl rfl
      · rw [heq, if_pos ht']
        exact hw.append_iff.2 (paired_failed ht')
      · rw [heq]
        by_cases he : (hooks.post a (vqaAt b c.sg) c.size t.1.2 t.2).1 = .none
        · rw [if_neg (not_not.2 he)]
          exact ih _ _ (hw.append_iff.2 paired_one)
        · rw [if_pos he]
          exact hw.append_iff.2 paired_one

/-! ## Whole copies -/

/-- **Translations are paired with their post hooks.** For any buffers, requests, copiers and hooks:
in a `copy_to_sg` every translation that succeeds is followed by one call of its post hook with the
same address, size and host address, and no other post hook is called, if and only if no chunk has a
destination that is translated and a source whose translation or post hook then fails; in a
`copy_to_linear` and a `copy_from_linear` it is always so. -/
theorem paired_iff (h : Heap) (i j : BufId) (b : Buffer) (dHooks sHooks : ChainHooks ω)
    (n dOff sOff : ℕ) (l : Option ℕ) (copier : Option BulkCopier) (m : Mem) (x : ω) :
    (Paired HookCall.entry
        (copyToSg h i j dHooks sHooks n dOff sOff copier ⟨m, x, []⟩).state.2.calls ↔
      SourceOk (h j) (h i) dHooks sHooks (toSgPlan h i j n dOff sOff) x) ∧
    Paired HookCall.entry (copyToLinear b l sHooks n sOff copier ⟨m, x, []⟩).state.2.calls ∧
    Paired HookCall.entry (copyFromLinear b l dHooks n dOff copier ⟨m, x, []⟩).state.2.calls := by
  refine ⟨?_, ?_, ?_⟩
  · rw [copyToSg_follows.world]
    exact paired_runSgChunks _ _ ⟨m, x, []⟩ paired_nil
  · cases l with
    | none => exact paired_nil
    | some l =>
        rw [copyToLinear_follows.world]
        exact paired_runLinearChunks _ _ _ ⟨m, x, []⟩ paired_nil
  · cases l with
    | none => exact paired_nil
    | some l =>
        rw [copyFromLinear_follows.world]
        exact paired_runLinearChunks _ _ _ ⟨m, x, []⟩ paired_nil

/-- A buffer of eight bytes at 16, which a device may write. -/
def eightAt16 : Buffer where
  maxChainLength := 1
  activeChainLength := 1
  sizeBytes := 8
  completeChain := true
  chainForDevice := true
  seenWritableDesc := true
  firstWritableDesc := 0
  descChain _ := ⟨16, 8, 2, 1⟩

/-- A buffer of eight bytes at 4096, which is not mapped. -/
def eightAt4096 : Buffer where
  maxChainLength := 1
  activeChainLength := 1
  sizeBytes := 8
  completeChain := true
  chainForDevice := true
  seenReadableDesc := true
  descChain _ := ⟨4096, 8, 0, 1⟩

/-- Four bytes from a source that is not mapped: the destination's are mapped, and the copy returns
without their post hook. -/
theorem destination_left_mapped :
    let r := copyToSg (fun i => if i = 0 then eightAt4096 else eightAt16) 0 1 .lowMemory .lowMemory
      4 0 0 none ⟨fun _ => 0, (), []⟩
    r.err = .badr ∧
    r.state.2.calls = [.toHva .write 16 4 .none 16, .toHva .read 4096 4 .perm 0] ∧
    ¬Paired HookCall.entry r.state.2.calls := by
  decide

end Hooked

end Vml
