import Mathlib.Data.Multiset.AddSub
import Mathlib.Data.List.Induction

/-!
# Ledgers

Events take something, give something back, or do neither. A ledger holds what has been taken and
not yet given back, and there is none once something is given back that is not held (`held`). A
record of events is `Paired` if everything taken is given back afterwards, once, and nothing else.
-/

namespace Vml

variable {ε κ : Type*} [DecidableEq κ]

/-- What an event does to a ledger. -/
inductive Entry (κ : Type*)
  | take (k : κ)
  | give (k : κ)
  | pass
  deriving DecidableEq

/-- The ledger after an event. -/
def Entry.next (live : Multiset κ) : Entry κ → Option (Multiset κ)
  | .take k => some (k ::ₘ live)
  | .give k => if k ∈ live then some (live.erase k) else none
  | .pass => some live

variable (entry : ε → Entry κ)

/-- The ledger after these events, from `live` on. -/
def heldFrom (live : Multiset κ) (events : List ε) : Option (Multiset κ) :=
  events.foldlM (fun live e => (entry e).next live) live

/-- What is held after these events. -/
def held (events : List ε) : Option (Multiset κ) := heldFrom entry 0 events

/-- **Everything taken is given back afterwards, once, and nothing else.** -/
def Paired (events : List ε) : Prop := held entry events = some 0

instance (events : List ε) : Decidable (Paired entry events) :=
  inferInstanceAs (Decidable (_ = _))

variable {entry}

theorem heldFrom_append (live : Multiset κ) (s t : List ε) :
    heldFrom entry live (s ++ t) = (heldFrom entry live s).bind (heldFrom entry · t) := by
  rw [heldFrom, List.foldlM_append]
  rfl

theorem paired_nil : Paired entry [] := rfl

theorem Paired.append_iff {s t : List ε} (h : Paired entry s) :
    Paired entry (s ++ t) ↔ Paired entry t := by
  have hs : heldFrom entry 0 s = some 0 := h
  rw [Paired, held, heldFrom_append, hs]
  rfl

/-- **What is paired is even**: `k` is taken as often as it is given back. -/
theorem count_held {events : List ε} {live : Multiset κ} (h : held entry events = some live)
    (k : κ) :
    (events.map entry).count (.take k) = (events.map entry).count (.give k) + live.count k := by
  induction events using List.reverseRecOn generalizing live with
  | nil =>
      obtain rfl : (0 : Multiset κ) = live := Option.some.inj h
      rfl
  | append_singleton events e ih =>
      rw [held, heldFrom_append] at h
      obtain ⟨before, hbefore, hlast⟩ := Option.bind_eq_some_iff.1 h
      have ih := ih hbefore
      have hlast : (entry e).next before = some live := by
        rw [← hlast]
        show _ = ((entry e).next before >>= pure)
        rw [bind_pure]
      rw [List.map_append, List.count_append, List.count_append, ih, List.map_singleton,
        List.count_singleton, List.count_singleton]
      cases hentry : entry e with
      | take k' =>
          rw [hentry] at hlast
          obtain rfl : k' ::ₘ before = live := Option.some.inj hlast
          rw [Multiset.count_cons]
          by_cases hk : k = k'
          · subst hk
            simp
            omega
          · rw [if_neg hk]
            have hne : k' ≠ k := Ne.symm hk
            simp [hne]
      | give k' =>
          rw [hentry, Entry.next] at hlast
          split_ifs at hlast with hmem
          obtain rfl : before.erase k' = live := Option.some.inj hlast
          have hcons := congrArg (Multiset.count k) (Multiset.cons_erase hmem)
          rw [Multiset.count_cons] at hcons
          by_cases hk : k = k'
          · subst hk
            rw [if_pos rfl] at hcons
            simp
            omega
          · rw [if_neg hk] at hcons
            have hne : k' ≠ k := Ne.symm hk
            simp [hne]
            omega
      | pass =>
          rw [hentry] at hlast
          obtain rfl : before = live := Option.some.inj hlast
          simp

end Vml
