import Mathlib.Data.List.Induction
import Mathlib.Tactic.TypeStar

/-!
# Finite runs

A labelled transition system is a relation `step : σ → α → σ → Prop`, and a run is a finite list
of labels with the state it leads to. Everything proved about runs goes through one induction,
`Run.invariant`; `Run.mono` weakens the condition under which the steps were taken.

For a deterministic system `f : σ → α → σ` the states of a run are `List.scanl f`. There
`forall_scanl_iff_allOk` turns "the step is good exactly when `ok` holds" into "the whole run is
good exactly when every step is `ok`".
-/

namespace Vml

variable {σ α : Type*}

/-- A run, label by label. The last step is at the end, which is the form invariants use. -/
inductive Run (step : σ → α → σ → Prop) (s : σ) : List α → σ → Prop
  | nil : Run step s [] s
  | snoc {t u : σ} {as : List α} {a : α} :
      Run step s as t → step t a u → Run step s (as ++ [a]) u

namespace Run

variable {step step' : σ → α → σ → Prop}

/-- **The invariant rule.** What one step preserves, a run preserves. -/
theorem invariant {Inv : σ → Prop} {s t : σ} {as : List α}
    (hstep : ∀ u a v, Inv u → step u a v → Inv v) (h : Run step s as t) (hs : Inv s) : Inv t := by
  induction h with
  | nil => exact hs
  | snoc _ hlast ih => exact hstep _ _ _ ih hlast

/-- **A map that takes steps to steps takes runs to runs.** -/
theorem map {ρ : Type*} {next : ρ → α → ρ → Prop} (f : σ → ρ) {s t : σ} {as : List α}
    (hstep : ∀ u a v, step u a v → next (f u) a (f v)) (h : Run step s as t) :
    Run next (f s) as (f t) := by
  induction h with
  | nil => exact .nil
  | snoc _ hlast ih => exact .snoc ih (hstep _ _ _ hlast)

theorem mono {s t : σ} {as : List α} (hsub : ∀ u a v, step u a v → step' u a v)
    (h : Run step s as t) : Run step' s as t := h.map id hsub

theorem and_of_forall {p : α → Prop} {s t : σ} {as : List α} (h : Run step s as t)
    (hp : ∀ a ∈ as, p a) : Run (fun u a v => p a ∧ step u a v) s as t := by
  induction h with
  | nil => exact .nil
  | snoc _ hlast ih =>
      refine .snoc (ih fun a ha => hp a (List.mem_append_left _ ha)) ⟨hp _ ?_, hlast⟩
      exact List.mem_append_right _ (List.mem_singleton_self _)

theorem append {s t u : σ} {as bs : List α} (h : Run step s as t) (h' : Run step t bs u) :
    Run step s (as ++ bs) u := by
  induction h' with
  | nil => rwa [List.append_nil]
  | snoc _ hlast ih =>
      rw [← List.append_assoc]
      exact .snoc ih hlast

theorem cons {s t u : σ} {a : α} {as : List α} (hfirst : step s a t) (h : Run step t as u) :
    Run step s (a :: as) u := append (.snoc .nil hfirst) h

theorem of_foldlM {f : σ → α → Option σ} {s t : σ} {as : List α}
    (h : as.foldlM f s = some t) : Run (fun u a v => f u a = some v) s as t := by
  induction as using List.reverseRecOn generalizing t with
  | nil =>
      simp only [List.foldlM_nil, Option.pure_def, Option.some.injEq] at h
      exact h ▸ .nil
  | append_singleton as a ih =>
      simp only [List.foldlM_append, List.foldlM_cons, List.foldlM_nil, Option.bind_eq_bind,
        Option.pure_def, Option.bind_eq_some_iff] at h
      obtain ⟨u, hu, v, hv, hvt⟩ := h
      exact .snoc (ih hu) (by simp_all)

end Run

/-- Every step of the deterministic run meets `ok` in the state it is taken from. -/
def AllOk (f : σ → α → σ) (ok : σ → α → Prop) (s : σ) : List α → Prop
  | [] => True
  | a :: as => ok s a ∧ AllOk f ok (f s a) as

theorem AllOk.run {f : σ → α → σ} {ok : σ → α → Prop} {as : List α} {s : σ} (h : AllOk f ok s as) :
    Run (fun s a t => ok s a ∧ t = f s a) s as (as.foldl f s) := by
  induction as generalizing s with
  | nil => exact .nil
  | cons a as ih => exact .cons ⟨h.1, rfl⟩ (ih h.2)

/-- An `ok` step keeps the invariant, and a step that is not `ok` lands outside `P`, which the
invariant implies. Then every state of a run satisfies `P` exactly when every step is `ok`. -/
theorem forall_scanl_iff_allOk {f : σ → α → σ} {ok : σ → α → Prop} {Inv P : σ → Prop}
    (hkeep : ∀ s a, Inv s → ok s a → Inv (f s a)) (hbreak : ∀ s a, Inv s → ¬ok s a → ¬P (f s a))
    (himp : ∀ s, Inv s → P s) (as : List α) (s : σ) (hs : Inv s) :
    (∀ t ∈ as.scanl f s, P t) ↔ AllOk f ok s as := by
  induction as generalizing s with
  | nil => simpa [AllOk] using himp s hs
  | cons a as ih =>
      rw [List.scanl_cons, List.forall_mem_cons, AllOk]
      constructor
      · rintro ⟨-, htail⟩
        have hnext : P (f s a) := htail _ (by cases as <;> simp)
        have hok : ok s a := by
          by_contra hok
          exact hbreak s a hs hok hnext
        exact ⟨hok, (ih _ (hkeep s a hs hok)).1 htail⟩
      · rintro ⟨hok, hall⟩
        exact ⟨himp s hs, (ih _ (hkeep s a hs hok)).2 hall⟩

theorem AllOk.and {f : σ → α → σ} {ok ok' : σ → α → Prop} {as : List α} {s : σ}
    (h : AllOk f ok s as) (h' : AllOk f ok' s as) : AllOk f (fun s a => ok s a ∧ ok' s a) s as := by
  induction as generalizing s with
  | nil => trivial
  | cons a as ih => exact ⟨⟨h.1, h'.1⟩, ih h.2 h'.2⟩

theorem AllOk.imp {f : σ → α → σ} {ok ok' : σ → α → Prop} {Inv : σ → Prop}
    (hkeep : ∀ s a, Inv s → ok s a → Inv (f s a)) (himp : ∀ s a, Inv s → ok s a → ok' s a)
    {as : List α} {s : σ} (h : AllOk f ok s as) (hs : Inv s) : AllOk f ok' s as := by
  induction as generalizing s with
  | nil => trivial
  | cons a as ih => exact ⟨himp s a hs h.1, ih h.2 (hkeep s a hs h.1)⟩

theorem allOk_congr {f : σ → α → σ} {ok ok' : σ → α → Prop} {Inv : σ → Prop}
    (hkeep : ∀ s a, Inv s → ok s a → Inv (f s a)) (hiff : ∀ s a, Inv s → (ok s a ↔ ok' s a))
    {as : List α} {s : σ} (hs : Inv s) : AllOk f ok s as ↔ AllOk f ok' s as :=
  ⟨fun h => h.imp hkeep (fun s a hs => (hiff s a hs).1) hs,
    fun h => h.imp (fun s a hs ha => hkeep s a hs ((hiff s a hs).2 ha))
      (fun s a hs => (hiff s a hs).2) hs⟩

end Vml
