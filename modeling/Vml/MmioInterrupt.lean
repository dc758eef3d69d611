import Vml.Lib.Run
import Vml.VirtioConsole

/-!
# Interrupts of the MMIO transport

A backend publishes used buffers and calls `assert_queue_interrupt`. A guest that is interrupted
reads the interrupt status, acknowledges, and then drains the used ring; the acknowledgement runs
`deassert_queue_interrupt`. The status and the line are updated one after the other on both sides,
so an assertion and an acknowledgement may interleave in any order.

Any number of backends and any number of guest CPUs take part, one atomic update at a time.

* `IrqSys.Inv`: as long as there is a buffer to see, the line is high, the status is set, or a round
  of the guest is under way that has yet to drain the ring.
* `no_lost_interrupt`: when the rounds are over, the line and the status are not both clear.
-/

namespace Vml

theorem or_one_and_one (x : UInt32) : (x ||| 1) &&& 1 ≠ 0 := by
  intro h
  have hbit : ((x ||| 1) &&& 1).toBitVec.getLsbD 0 = (0 : UInt32).toBitVec.getLsbD 0 := by rw [h]
  simp at hbit

/-! ## The system -/

/-- Where a backend is: the next step of its round. -/
inductive AssertPc
  /-- It has nothing to publish. -/
  | idle
  /-- It has published, and calls `assert_queue_interrupt`. -/
  | check
  | setStatus
  | raiseLine
  deriving DecidableEq

/-- Where a guest CPU is: the next step of its round. -/
inductive RoundPc
  | idle
  /-- It has read this interrupt status. -/
  | writeAck (status : UInt32)
  /-- The write has been recorded, and `handle_events` runs. -/
  | handle
  | lowerLine
  | clearStatus
  | drain
  deriving DecidableEq

/-- The interrupt status and the line, the backends `ι` and the guest CPUs `κ`. The counters are
history variables: how many buffers have been published, how many of them before an assertion that
is over, and how many the guest has seen. -/
structure IrqSys (ι κ : Type*) where
  devState : DeviceState
  line : Bool := false
  backend : ι → AssertPc := fun _ => .idle
  guest : κ → RoundPc := fun _ => .idle
  published : ℕ := 0
  asserted : ℕ := 0
  seen : ℕ := 0

/-- A backend publishes `n` buffers, a backend takes its next step, or a guest CPU does. -/
inductive IrqOp (ι κ : Type*)
  | publish (i : ι) (n : ℕ)
  | backend (i : ι)
  | guest (k : κ)

namespace IrqSys

variable {ι κ : Type*}

/-- Backend `i` goes on to `pc`. -/
def atBackend [DecidableEq ι] (s : IrqSys ι κ) (i : ι) (pc : AssertPc) : IrqSys ι κ :=
  { s with backend := Function.update s.backend i pc }

/-- Guest CPU `k` goes on to `pc`. -/
def atGuest [DecidableEq κ] (s : IrqSys ι κ) (k : κ) (pc : RoundPc) : IrqSys ι κ :=
  { s with guest := Function.update s.guest k pc }

/-- The end of `assert_queue_interrupt`. -/
def endAssert [DecidableEq ι] (s : IrqSys ι κ) (i : ι) : IrqSys ι κ :=
  { s.atBackend i .idle with asserted := s.published }

/-- The steps of `assert_queue_interrupt`. -/
def backendStep [DecidableEq ι] (s : IrqSys ι κ) (i : ι) : Option (IrqSys ι κ) :=
  match s.backend i with
  | .idle => none
  | .check =>
      if s.devState.irqStatus &&& 1 != 0 then some (s.endAssert i)
      else some (s.atBackend i .setStatus)
  | .setStatus =>
      some { s.atBackend i .raiseLine with
        devState := { s.devState with irqStatus := s.devState.irqStatus ||| 1 } }
  | .raiseLine => some { s.endAssert i with line := true }

/-- The steps of a round of the guest. The third and the two after it are those of
`handle_events` and `deassert_queue_interrupt`. -/
def guestStep [DecidableEq κ] (s : IrqSys ι κ) (k : κ) : IrqSys ι κ :=
  match s.guest k with
  | .idle => s.atGuest k (.writeAck s.devState.irqStatus)
  | .writeAck status =>
      { s.atGuest k .handle with
        devState := (s.devState.mmioAccess .write woIrqAck.base 4 status.toUInt64).2.2 }
  | .handle =>
      if s.devState.irqAcknowledged then
        { s.atGuest k .lowerLine with devState := { s.devState with irqAcknowledged := false } }
      else s.atGuest k .drain
  | .lowerLine => { s.atGuest k .clearStatus with line := false }
  | .clearStatus =>
      { s.atGuest k .drain with
        devState := { s.devState with irqStatus := s.devState.irqStatus &&& ~~~1 } }
  | .drain => { s.atGuest k .idle with seen := s.published }

/-- A step, if it can be taken. -/
def step [DecidableEq ι] [DecidableEq κ] (s : IrqSys ι κ) : IrqOp ι κ → Option (IrqSys ι κ)
  | .publish i n =>
      match s.backend i with
      | .idle => some { s.atBackend i .check with published := s.published + n }
      | _ => none
  | .backend i => s.backendStep i
  | .guest k => some (s.guestStep k)

/-! ### The steps and the calls -/

theorem assertIrq_eq (c : VirtioConsole) : c.assertIrq =
    let s : IrqSys Unit Unit :=
      { devState := c.devState, line := c.irqLine, backend := fun _ => .check }
    let s := (s.backendStep ()).getD s
    let s := (s.backendStep ()).getD s
    let s := (s.backendStep ()).getD s
    { c with devState := s.devState, irqLine := s.line } := by
  rw [VirtioConsole.assertIrq]
  by_cases hset : (c.devState.irqStatus &&& 1 != 0) = true
  · simp [backendStep, hset, endAssert, atBackend]
  · simp [backendStep, hset, endAssert, atBackend]

/-- The steps of an acknowledgement, one after the other, are those of `handle_events`. -/
theorem handleIrqAck_eq (c : VirtioConsole) : c.handleIrqAck =
    let s : IrqSys Unit Unit :=
      { devState := c.devState, line := c.irqLine, guest := fun _ => .handle }
    let s := s.guestStep ()
    let s := if s.guest () = .lowerLine then (s.guestStep ()).guestStep () else s
    { c with devState := s.devState, irqLine := s.line } := by
  rw [VirtioConsole.handleIrqAck]
  by_cases hack : c.devState.irqAcknowledged = true
  · simp [guestStep, hack, atGuest, VirtioConsole.deassertIrq]
  · simp [guestStep, hack, atGuest]

/-! ## Nothing is lost -/

/-- No assertion and no round of the guest is in progress. -/
def Quiescent (s : IrqSys ι κ) : Prop :=
  (∀ i, s.backend i = .idle ∨ s.backend i = .check) ∧ ∀ k, s.guest k = .idle

/-- All is quiet, and the guest has not seen a buffer that was published before an assertion ended
and does not know that it is there. -/
def Lost (s : IrqSys ι κ) : Prop :=
  s.Quiescent ∧ s.seen < s.asserted ∧ s.line = false ∧ s.devState.irqStatus &&& 1 = 0

/-- A buffer that has been asserted is announced, or will be seen. -/
structure Inv (s : IrqSys ι κ) : Prop where
  asserted_le : s.asserted ≤ s.published
  announced : s.seen < s.asserted →
    s.line = true ∨ s.devState.irqStatus &&& 1 ≠ 0 ∨ ∃ k, s.guest k ≠ .idle

variable {s s' : IrqSys ι κ}

theorem inv_start (d : DeviceState) : Inv ({ devState := d } : IrqSys ι κ) :=
  ⟨le_rfl, fun hlt => absurd hlt (Nat.lt_irrefl 0)⟩

/-- An assertion ends with the line high, or finds the status set. -/
theorem Inv.backendStep [DecidableEq ι] (h : s.Inv) {i : ι}
    (hstep : s.backendStep i = some s') : s'.Inv := by
  rw [IrqSys.backendStep] at hstep
  cases hpc : s.backend i with
  | idle =>
      rw [hpc] at hstep
      exact absurd hstep nofun
  | check =>
      rw [hpc] at hstep
      dsimp only at hstep
      by_cases hset : (s.devState.irqStatus &&& 1 != 0) = true
      · rw [if_pos hset] at hstep
        rw [← Option.some.inj hstep]
        exact ⟨le_rfl, fun _ => .inr (.inl (bne_iff_ne.1 hset))⟩
      · rw [if_neg hset] at hstep
        rw [← Option.some.inj hstep]
        exact ⟨h.asserted_le, h.announced⟩
  | setStatus =>
      rw [hpc] at hstep
      rw [← Option.some.inj hstep]
      refine ⟨h.asserted_le, fun _ => .inr (.inl ?_)⟩
      exact or_one_and_one s.devState.irqStatus
  | raiseLine =>
      rw [hpc] at hstep
      rw [← Option.some.inj hstep]
      exact ⟨le_rfl, fun _ => .inl rfl⟩

/-- A round of the guest has yet to drain the ring, until it does. -/
theorem Inv.guestStep [DecidableEq κ] (h : s.Inv) (k : κ) : (s.guestStep k).Inv := by
  have hround : ∀ {t : IrqSys ι κ} {pc : RoundPc}, t.guest = Function.update s.guest k pc →
      pc ≠ .idle → t.asserted = s.asserted → t.published = s.published → t.Inv := by
    intro t pc hguest hpc hasserted hpublished
    refine ⟨by rw [hasserted, hpublished]; exact h.asserted_le, fun _ => .inr (.inr ⟨k, ?_⟩)⟩
    rw [hguest, Function.update_self]
    exact hpc
  rw [IrqSys.guestStep]
  cases s.guest k with
  | idle => exact hround rfl nofun rfl rfl
  | writeAck status => exact hround rfl nofun rfl rfl
  | handle =>
      dsimp only
      split_ifs
      · exact hround rfl nofun rfl rfl
      · exact hround rfl nofun rfl rfl
  | lowerLine => exact hround rfl nofun rfl rfl
  | clearStatus => exact hround rfl nofun rfl rfl
  | drain => exact ⟨h.asserted_le, fun hlt => absurd h.asserted_le (Nat.not_le.2 hlt)⟩

/-- **Every step keeps the invariant.** -/
theorem Inv.step [DecidableEq ι] [DecidableEq κ] (h : s.Inv) {op : IrqOp ι κ}
    (hstep : s.step op = some s') : s'.Inv := by
  cases op with
  | publish i n =>
      rw [IrqSys.step] at hstep
      cases hpc : s.backend i with
      | idle =>
          rw [hpc] at hstep
          rw [← Option.some.inj hstep]
          exact ⟨h.asserted_le.trans (Nat.le_add_right _ _), h.announced⟩
      | check | setStatus | raiseLine =>
          rw [hpc] at hstep
          exact absurd hstep nofun
  | backend i => exact h.backendStep hstep
  | guest k =>
      rw [← Option.some.inj hstep]
      exact h.guestStep k

/-- **No interrupt is lost**, however the assertions and the rounds of the guest interleave. -/
theorem no_lost_interrupt [DecidableEq ι] [DecidableEq κ] {d : DeviceState}
    {ops : List (IrqOp ι κ)}
    (h : Run (fun s op s' => s.step op = some s') { devState := d } ops s) : ¬s.Lost := by
  rintro ⟨⟨-, hguest⟩, hunseen, hline, hstatus⟩
  have hinv : s.Inv := h.invariant (fun _ _ _ hs hstep => hs.step hstep) (inv_start d)
  rcases hinv.announced hunseen with hhigh | hset | ⟨k, hk⟩
  · exact absurd (hline.symm.trans hhigh) Bool.false_ne_true
  · exact hset hstatus
  · exact hk (hguest k)

/-- The second assertion finds the status set by the first, while the acknowledgement that clears
it is being handled. The guest sees both buffers. -/
theorem no_lost_interrupt_two :
    ∃ ops s, Run (fun (s : IrqSys Unit Unit) op s' => s.step op = some s')
        { devState := { queueNumMax := 4, deviceId := 3, configSize := 0 } } ops s ∧
      s.asserted = 2 ∧ s.seen = 2 ∧ s.line = false ∧ ¬s.Lost := by
  have hexec : ([.publish () 1, .backend (), .backend (), .backend (), .guest (), .guest (),
      .publish () 1, .guest (), .backend (), .guest (), .guest (), .guest ()].foldlM step
        ({ devState := { queueNumMax := 4, deviceId := 3, configSize := 0 } } :
          IrqSys Unit Unit)).map (fun s => (s.asserted, s.seen, s.line)) =
      some (2, 2, false) := by decide
  obtain ⟨s, hs, heq⟩ := Option.map_eq_some_iff.1 hexec
  simp only [Prod.mk.injEq] at heq
  have hrun := Run.of_foldlM hs
  exact ⟨_, s, hrun, heq.1, heq.2.1, heq.2.2, no_lost_interrupt hrun⟩

end IrqSys

end Vml
