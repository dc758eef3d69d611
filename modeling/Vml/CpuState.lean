import Mathlib.Data.Nat.Notation

/-!
# The state of a vCPU

`Cpu::State`: a vCPU is off, on or emulating, and a round-up asks it to stop. Each switch reads the
state and compares and swaps it. Here is what the switches make of a state that they read; a switch
aborts on a state that it does not expect.

**Parts.** A state is its kind, which only the vCPU changes, and whether the vCPU has been rounded
up, which only a round-up changes.
-/

namespace Vml

/-- `Cpu::State`. -/
inductive CpuState
  | off
  | offRoundedup
  | on
  | onRoundedup
  | emulate
  | emulateRoundedup
  deriving DecidableEq, Repr

namespace CpuState

/-- `switch_state_to_roundedup`, which aborts when the vCPU has been rounded up. -/
def roundedup : CpuState → Option CpuState
  | on => some onRoundedup
  | off => some offRoundedup
  | emulate => some emulateRoundedup
  | _ => none

/-- `resume`, which aborts unless the vCPU has been rounded up. -/
def resumed : CpuState → Option CpuState
  | onRoundedup => some on
  | offRoundedup => some off
  | emulateRoundedup => some emulate
  | _ => none

/-- What `switch_state_to_on`, `switch_state_to_off` and `switch_state_to_emulating` make of the
state. -/
def switched : CpuState → List CpuState
  | off => [on]
  | offRoundedup => [onRoundedup]
  | on => [off, emulate]
  | onRoundedup => [offRoundedup]
  | emulate => [on]
  | emulateRoundedup => [onRoundedup]

/-- `switch_state_to_on`, which aborts when the vCPU is on. -/
def switchedOn : CpuState → Option CpuState
  | offRoundedup => some onRoundedup
  | emulateRoundedup => some onRoundedup
  | off => some on
  | emulate => some on
  | _ => none

/-- `switch_state_to_off`, which aborts unless the vCPU is on. -/
def switchedOff : CpuState → Option CpuState
  | onRoundedup => some offRoundedup
  | on => some off
  | _ => none

end CpuState

/-- What a vCPU is doing. -/
inductive CpuKind
  | off
  | on
  | emulate
  deriving DecidableEq, Repr

/-- The state of a vCPU that does this and has been rounded up or not. -/
def CpuState.of : CpuKind → Bool → CpuState
  | .off, false => off
  | .off, true => offRoundedup
  | .on, false => on
  | .on, true => onRoundedup
  | .emulate, false => emulate
  | .emulate, true => emulateRoundedup

namespace CpuState

variable {kind kind' : CpuKind} {rounded rounded' : Bool}

theorem of_inj : of kind rounded = of kind' rounded' ↔ kind = kind' ∧ rounded = rounded' := by
  cases kind <;> cases rounded <;> cases kind' <;> cases rounded' <;> decide

theorem of_eq_emulate : of kind rounded = .emulate ↔ kind = .emulate ∧ rounded = false :=
  @of_inj kind .emulate rounded false

theorem of_eq_emulateRoundedup :
    of kind rounded = .emulateRoundedup ↔ kind = .emulate ∧ rounded = true :=
  @of_inj kind .emulate rounded true

theorem roundedup_of : (of kind false).roundedup = some (of kind true) := by
  cases kind <;> rfl

theorem resumed_of : (of kind true).resumed = some (of kind false) := by
  cases kind <;> rfl

theorem switchedOff_of : (of .on rounded).switchedOff = some (of .off rounded) := by
  cases rounded <;> rfl

theorem switchedOn_of (h : kind ≠ .on) : (of kind rounded).switchedOn = some (of .on rounded) := by
  cases kind with
  | on => exact absurd rfl h
  | _ => cases rounded <;> rfl

end CpuState

end Vml
