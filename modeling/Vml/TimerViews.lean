import Vml.Timer
import Vml.Vbus

/-!
# The views of a deadline

The guest sees the deadline of its timer in three ways: `CNTP_CVAL` is the value of the counter at
which it is reached, `CNTP_TVAL` how much of it is left, and the interrupt tells when it is over. The
counter that the guest reads (`CntpctEl0::access`) is behind the clock by `cntvoff`.

**Reads** of TVAL take the offset away from the clock (`CntpTval.access_read`). **Writes** do not, and
the timer loop, which takes the compare value for a time of the clock, does not add it.

Main result: `TimerSys.viewsAgree_iff`.
-/

namespace Vml

/-- `CntpctEl0::access`. Only reads are allowed. -/
def CntpctEl0.access (access : Vbus.Access) (clock cntvoff : UInt64) : Option UInt64 :=
  if access ≠ .read then none else some (clock - cntvoff)

namespace CntpTval

/-- `CNTP_TVAL_MASK`. -/
abbrev cntpTvalMask : UInt64 := 0xffffffff

/-- `CntpTval::access`: the value that a read returns, or the write that begins. -/
def access (access : Vbus.Access) (cval clock cntvoff value : UInt64) :
    Option (UInt64 ⊕ TimerWrite) :=
  match access with
  | .read =>
      let curr := clock - cntvoff
      some (.inl ((cval - curr) &&& cntpTvalMask))
  | .write => some (.inr (.tval value clock))
  | _ => none

end CntpTval

namespace TimerSys

/-- A turn, of any party, with which no write begins. -/
def TurnAfter (s : TimerSys) (t : TimerTurn) (s' : TimerSys) : Prop :=
  (∀ w, t ≠ .write w) ∧ s.step t = some s'

/-- The guest has written TVAL in the first state, at that time of the clock, and in the second the
write is over and no other has begun. -/
def AfterTval (cntvoff clock value : UInt64) (s s' : TimerSys) : Prop :=
  ∃ w u ts, CntpTval.access .write s.cval clock cntvoff value = some (.inr w) ∧
    s.step (.write w) = some u ∧ Run TurnAfter u ts s' ∧ s'.guest = .idle

/-- The loop is about to wait for that deadline. -/
def Computes (s : TimerSys) (timeout : UInt64) : Prop :=
  s.loop = .loadTimeout ∧ ∃ s', s.loopStep = some s' ∧ s'.loop = .waitingTimeout timeout

/-- The views of the deadline agree, after a write of `value` at a time of the clock. -/
structure ViewsAgree (cntvoff clock value : UInt64) (s : TimerSys) : Prop where
  /-- When it is written, the deadline is away from the counter by the low word, sign-extended. -/
  offset : ∀ counter, CntpctEl0.access .read clock cntvoff = some counter →
    (s.cval - counter).toInt64.toInt = Int.bmod value.toNat (2 ^ 32)
  /-- At any time the rest of it is read. -/
  read : ∀ clock' counter, CntpctEl0.access .read clock' cntvoff = some counter →
    ∀ v, ∃ left, CntpTval.access .read s.cval clock' cntvoff v = some (.inl left) ∧
      left.toNat = (s.cval - counter).toNat % 2 ^ 32
  /-- The loop waits until the counter reaches it. -/
  deadline : ∀ timeout, s.Computes timeout →
    ∀ clock' counter, CntpctEl0.access .read clock' cntvoff = some counter →
      (timeout ≤ clock' ↔ s.cval ≤ counter)

variable {s s' : TimerSys} {cntvoff clock value : UInt64}

/-! ## The accesses -/

theorem access_counter : CntpctEl0.access .read clock cntvoff = some (clock - cntvoff) := rfl

/-- **A read of TVAL** returns the low word of the difference from the counter. -/
theorem access_read (cval clock cntvoff v : UInt64) :
    ∃ left, CntpTval.access .read cval clock cntvoff v = some (.inl left) ∧
      left.toNat = (cval - (clock - cntvoff)).toNat % 2 ^ 32 := by
  refine ⟨_, rfl, ?_⟩
  rw [UInt64.toNat_and]
  exact Nat.and_two_pow_sub_one_eq_mod _ 32

theorem toInt_tvalOffset (value : UInt64) :
    (tvalOffset value).toInt64.toInt = Int.bmod value.toNat (2 ^ 32) := by
  have hword : value.toUInt32.toInt32.toInt = Int.bmod value.toUInt32.toNat (2 ^ 32) :=
    BitVec.toInt_eq_toNat_bmod _
  rw [tvalOffset, Int64.toInt64_toUInt64, Int32.toInt_toInt64, hword, UInt64.toNat_toUInt32,
    Int.natCast_mod]
  exact Int.emod_bmod ..

/-! ## After a write -/

/-- The compare value has been written, or is about to be. -/
def Written (cval : UInt64) (s : TimerSys) : Prop :=
  s.guest = .cvalStore cval ∨ s.cval = cval ∧ (s.guest = .cvalSig ∨ s.guest = .idle)

theorem loopStep_same (h : s.loopStep = some s') : s'.cval = s.cval ∧ s'.guest = s.guest := by
  rw [loopStep] at h
  split at h
  case h_13 => cases h
  case h_4 | h_9 =>
    obtain ⟨signal, -, rfl⟩ := Option.map_eq_some_iff.1 h
    exact ⟨rfl, rfl⟩
  all_goals
    cases h
    exact ⟨rfl, rfl⟩

theorem Written.of_same {cval : UInt64} (h : s.Written cval) (hcval : s'.cval = s.cval)
    (hguest : s'.guest = s.guest) : s'.Written cval := by
  rw [Written, hcval, hguest]
  exact h

/-- **A turn keeps what is written**, if no other write begins. -/
theorem Written.step {cval : UInt64} {t : TimerTurn} (h : s.Written cval)
    (hstep : TurnAfter s t s') : s'.Written cval := by
  obtain ⟨hno, hstep⟩ := hstep
  cases t with
  | loop =>
      obtain ⟨hcval, hguest⟩ := loopStep_same hstep
      exact h.of_same hcval hguest
  | timeout =>
      rw [TimerSys.step] at hstep
      split at hstep
      · cases hstep
        exact h
      · cases hstep
  | assertIrq ok =>
      rw [TimerSys.step] at hstep
      split at hstep
      · cases hstep
        exact h
      · cases hstep
  | write w => exact absurd rfl (hno w)
  | guest =>
      rw [TimerSys.step, guestStep] at hstep
      obtain hstore | ⟨hcval, hsig | hidle⟩ := h
      · rw [hstore] at hstep
        cases hstep
        exact .inr ⟨rfl, .inl rfl⟩
      · rw [hsig] at hstep
        cases hstep
        exact .inr ⟨hcval, .inr rfl⟩
      · rw [hidle] at hstep
        cases hstep

/-- After the write the compare value is away from the clock, not from the counter. -/
theorem AfterTval.cval_eq (h : AfterTval cntvoff clock value s s') :
    s'.cval = clock + tvalOffset value := by
  obtain ⟨w, u, ts, haccess, hstart, hrun, hidle⟩ := h
  cases haccess
  have hu : u.Written (clock + tvalOffset value) := by
    rw [step] at hstart
    split_ifs at hstart
    cases hstart
    exact .inl rfl
  obtain hstore | ⟨hcval, -⟩ := hrun.invariant (fun _ _ _ hv hstep => hv.step hstep) hu
  · rw [hidle] at hstore
    cases hstore
  · exact hcval

theorem exists_afterTval (hidle : s.guest = .idle) (cntvoff clock value : UInt64) :
    ∃ s', AfterTval cntvoff clock value s s' := by
  have hstart : s.step (.write (.tval value clock)) =
      some { s with guest := .cvalStore (clock + tvalOffset value) } := if_pos hidle
  have hturn : ∀ w, TimerTurn.guest ≠ .write w := by
    intro w h
    cases h
  exact ⟨_, _, _, _, rfl, hstart, .snoc (.snoc .nil ⟨hturn, rfl⟩) ⟨hturn, rfl⟩, rfl⟩

theorem Computes.eq_cval {timeout : UInt64} (h : s.Computes timeout) : timeout = s.cval := by
  obtain ⟨hloop, s', hstep, htimeout⟩ := h
  rw [loopStep, hloop] at hstep
  cases hstep
  cases htimeout
  rfl

/-- **The views agree after every write of TVAL** exactly if the counter is the clock. -/
theorem viewsAgree_iff (hidle : s.guest = .idle) (cntvoff clock value : UInt64) :
    (∀ s', AfterTval cntvoff clock value s s' → ViewsAgree cntvoff clock value s') ↔
      cntvoff = 0 := by
  constructor
  · intro hagree
    obtain ⟨s', hafter⟩ := exists_afterTval hidle cntvoff clock value
    have hoffset := (hagree s' hafter).offset _ access_counter
    rw [← toInt_tvalOffset, Int64.toInt_inj, hafter.cval_eq] at hoffset
    have hsame := congrArg Int64.toUInt64 hoffset
    rw [UInt64.toUInt64_toInt64, UInt64.toUInt64_toInt64] at hsame
    grind
  · rintro rfl s' hafter
    refine ⟨?_, ?_, ?_⟩
    · rintro counter ⟨⟩
      have heq : clock + tvalOffset value - (clock - 0) = tvalOffset value := by grind
      rw [hafter.cval_eq, heq]
      exact toInt_tvalOffset value
    · rintro clock' counter ⟨⟩ v
      exact access_read s'.cval clock' 0 v
    · rintro timeout hcomputes clock' counter ⟨⟩
      rw [hcomputes.eq_cval, UInt64.sub_zero]

/-- A timer that is enabled, at the top of its loop. -/
def enabledTimer : TimerSys := { cntvCtl := 1 }

/-- Without an offset they agree. The guest asks for 50 while the loop is on its way, and the loop is
about to wait until the clock, and so the counter, reaches 1050. -/
theorem viewsAgree_enabledTimer : ∃ s', AfterTval 0 1000 50 enabledTimer s' ∧
    ViewsAgree 0 1000 50 s' ∧ s'.Computes 1050 ∧
      ∀ clock' counter, CntpctEl0.access .read clock' 0 = some counter →
        (1050 ≤ clock' ↔ s'.cval ≤ counter) := by
  have hno {t : TimerTurn} (ht : t = .loop ∨ t = .guest) (w : TimerWrite) : t ≠ .write w := by
    rcases ht with rfl | rfl <;> nofun
  have hrun : Run TurnAfter { enabledTimer with guest := .cvalStore (1000 + tvalOffset 50) }
      [.loop, .guest, .loop, .guest, .loop] _ :=
    .cons ⟨hno (.inl rfl), rfl⟩ <| .cons ⟨hno (.inr rfl), rfl⟩ <| .cons ⟨hno (.inl rfl), rfl⟩ <|
      .cons ⟨hno (.inr rfl), rfl⟩ <| .cons ⟨hno (.inl rfl), rfl⟩ .nil
  have hafter : AfterTval 0 1000 50 enabledTimer _ := ⟨_, _, _, rfl, rfl, hrun, rfl⟩
  have hagree := (viewsAgree_iff rfl 0 1000 50).2 rfl _ hafter
  exact ⟨_, hafter, hagree, ⟨rfl, _, rfl, by decide⟩, hagree.deadline 1050 ⟨rfl, _, rfl, by decide⟩⟩

/-- With an offset of 100 the guest asks for 50 and gets 150. -/
theorem tval_written_late : ¬∀ (s : TimerSys) (cntvoff clock value : UInt64), s.guest = .idle →
    ∀ s', AfterTval cntvoff clock value s s' → ViewsAgree cntvoff clock value s' := by
  intro hall
  obtain ⟨s', hafter⟩ := exists_afterTval (s := init) rfl 100 1000 50
  have hoffset := (hall init 100 1000 50 rfl s' hafter).offset _ access_counter
  rw [hafter.cval_eq] at hoffset
  exact absurd hoffset (by decide)

end TimerSys

end Vml
