import Mathlib.Data.List.TakeWhile
import Mathlib.Tactic.TypeStar

/-!
# Sets that are searched by a comparator

A set keeps its elements in an order, and looks for a key by comparing it with elements: the first
element that is not below the key is the one that is found, unless it is above the key. The elements
and the keys need not be of one type, and the comparator need not be an order on all keys.

* `Partitioned`: the elements below a key come first, and those above it last. Then a search has one
  answer, in whatever order it makes its comparisons.
* `Ordered.partitioned`: a set that is in order is partitioned by every key.
* `Ordered.insert`, `Ordered.remove`: it stays in order.
-/

namespace Vml

namespace SearchSet

variable {α κ : Type*} (key : α → κ) (less : κ → κ → Bool)

/-- The element that a search for `k` finds. -/
def find (l : List α) (k : κ) : Option α :=
  match l.find? (fun e => !less (key e) k) with
  | some e => if less k (key e) then none else some e
  | none => none

/-- Add an element after those that its key is not below, unless one of them is not below it. -/
def insert (l : List α) (a : α) : List α × Bool :=
  match (l.takeWhile fun e => !less (key a) (key e)).getLast? with
  | some e =>
      if less (key e) (key a) then
        (l.takeWhile (fun e => !less (key a) (key e)) ++
          a :: l.dropWhile (fun e => !less (key a) (key e)), true)
      else (l, false)
  | none => (a :: l, true)

/-- Take out the element that a search for `k` finds. -/
def remove (l : List α) (k : κ) : List α :=
  match find key less l k with
  | some _ => l.takeWhile (fun e => less (key e) k) ++ (l.dropWhile fun e => less (key e) k).tail
  | none => l

/-- The elements below the key come first, and those above it last. -/
def Partitioned (l : List α) (k : κ) : Prop :=
  l.Pairwise fun a b =>
    (less (key b) k = true → less (key a) k = true) ∧
      (less k (key a) = true → less k (key b) = true)

/-- Every element is below the next, and what is below an element is below what that is below. -/
structure Ordered (l : List α) : Prop where
  pairwise : l.Pairwise fun a b => less (key a) (key b) = true
  trans : ∀ b ∈ l, ∀ k k', less k (key b) = true → less (key b) k' = true → less k k' = true

variable {key less} {l : List α} {k : κ} {a e : α}

theorem ordered_nil : Ordered key less [] := ⟨.nil, nofun⟩

theorem Ordered.partitioned (h : Ordered key less l) (k : κ) : Partitioned key less l k := by
  have hboth : ∀ a b, a ∈ l → b ∈ l → less (key a) (key b) = true →
      (less (key b) k = true → less (key a) k = true) ∧
        (less k (key a) = true → less k (key b) = true) := by
    intro a b ha hb hab
    exact ⟨fun hbk => h.trans b hb _ _ hab hbk, fun hka => h.trans a ha _ _ hka hab⟩
  exact h.pairwise.imp_of_mem fun ha hb hab => hboth _ _ ha hb hab

/-! ## Searching -/

/-- What is found: the first element that is neither below the key nor above it. -/
theorem find_eq_find? (h : Ordered key less l) (k : κ) :
    find key less l k = l.find? fun e => !less (key e) k && !less k (key e) := by
  have hpart := h.partitioned k
  clear h
  rw [find]
  induction l with
  | nil => rfl
  | cons a l ih =>
      obtain ⟨hhead, htail⟩ := List.pairwise_cons.1 hpart
      rw [List.find?_cons, List.find?_cons]
      cases hbelow : less (key a) k with
      | true => exact ih htail
      | false =>
          cases habove : less k (key a) with
          | false => simp [habove]
          | true =>
              -- All that follow are above the key too.
              have hall : ∀ b ∈ l, less k (key b) = true := fun b hb => (hhead b hb).2 habove
              have hnone : (l.find? fun e => !less (key e) k && !less k (key e)) = none := by
                rw [List.find?_eq_none]
                intro b hb
                simp [hall b hb]
              simp [habove, hnone]

/-- The key meets the element. -/
def Meets (key : α → κ) (less : κ → κ → Bool) (k : κ) (e : α) : Prop :=
  less (key e) k = false ∧ less k (key e) = false

theorem find_eq_none_iff (h : Ordered key less l) :
    find key less l k = none ↔ ∀ e ∈ l, ¬Meets key less k e := by
  rw [find_eq_find? h, List.find?_eq_none]
  simp [Meets]

theorem mem_of_find (h : Ordered key less l) (hf : find key less l k = some e) :
    e ∈ l ∧ Meets key less k e := by
  rw [find_eq_find? h] at hf
  refine ⟨List.mem_of_find?_eq_some hf, ?_⟩
  have hmeets := List.find?_some hf
  simpa [Meets] using hmeets

/-! ## Adding and taking out -/

/-- What follows the elements that the key is not below are elements that it is below. -/
theorem less_of_mem_dropWhile (h : Partitioned key less l k) :
    ∀ e ∈ l.dropWhile (fun e => !less k (key e)), less k (key e) = true := by
  induction l with
  | nil => exact nofun
  | cons a l ih =>
      obtain ⟨hhead, htail⟩ := List.pairwise_cons.1 h
      rw [List.dropWhile_cons]
      cases habove : less k (key a) with
      | false => exact ih htail
      | true =>
          intro e he
          rcases List.mem_cons.1 he with rfl | he
          · exact habove
          · exact (hhead e he).2 habove

/-- **Adding an element**: it is put between those below it and those above it, or it meets one. -/
theorem insert_cases (h : Ordered key less l) (a : α) :
    (∃ pre post, l = pre ++ post ∧ insert key less l a = (pre ++ a :: post, true) ∧
      (∀ e ∈ pre, less (key e) (key a) = true) ∧ ∀ e ∈ post, less (key a) (key e) = true) ∨
    (∃ e ∈ l, Meets key less (key a) e) ∧ insert key less l a = (l, false) := by
  have hsplit : l.takeWhile (fun e => !less (key a) (key e)) ++
      l.dropWhile (fun e => !less (key a) (key e)) = l := List.takeWhile_append_dropWhile
  have hpost := less_of_mem_dropWhile (h.partitioned (key a))
  have hpre : ∀ e ∈ l.takeWhile (fun e => !less (key a) (key e)), less (key a) (key e) = false := by
    intro e he
    simpa using List.mem_takeWhile_imp he
  rw [insert]
  generalize l.takeWhile (fun e => !less (key a) (key e)) = pre at *
  generalize l.dropWhile (fun e => !less (key a) (key e)) = post at *
  rcases List.eq_nil_or_concat pre with rfl | ⟨pre, e, rfl⟩
  · rw [List.nil_append] at hsplit
    exact .inl ⟨[], post, hsplit.symm, by rw [← hsplit]; rfl, nofun, hpost⟩
  · rw [List.concat_eq_append] at *
    rw [List.getLast?_concat]
    dsimp only
    cases hbelow : less (key e) (key a) with
    | true =>
        refine .inl ⟨_, post, hsplit.symm, if_pos rfl, fun e' he' => ?_, hpost⟩
        rcases List.mem_append.1 he' with he' | he'
        · have hpair := h.pairwise
          rw [← hsplit, List.append_assoc, List.pairwise_append] at hpair
          exact h.trans e (by rw [← hsplit]; simp) _ _ (hpair.2.2 e' he' e (by simp)) hbelow
        · rw [List.mem_singleton.1 he']
          exact hbelow
    | false =>
        refine .inr ⟨⟨e, by rw [← hsplit]; simp, hbelow, hpre e (by simp)⟩, if_neg nofun⟩

/-- A set to which an element has been added is in order. -/
theorem Ordered.insert {pre post : List α} (h : Ordered key less (pre ++ post))
    (hpre : ∀ e ∈ pre, less (key e) (key a) = true)
    (hpost : ∀ e ∈ post, less (key a) (key e) = true)
    (ha : ∀ k k', less k (key a) = true → less (key a) k' = true → less k k' = true) :
    Ordered key less (pre ++ a :: post) := by
  obtain ⟨hpair, htrans⟩ := h
  rw [List.pairwise_append] at hpair
  refine ⟨?_, fun b hb => ?_⟩
  · rw [List.pairwise_append, List.pairwise_cons]
    refine ⟨hpair.1, ⟨hpost, hpair.2.1⟩, fun e he b hb => ?_⟩
    rcases List.mem_cons.1 hb with rfl | hb
    · exact hpre e he
    · exact hpair.2.2 e he b hb
  · rcases List.mem_append.1 hb with hb | hb
    · exact htrans b (List.mem_append_left _ hb)
    · rcases List.mem_cons.1 hb with rfl | hb
      · exact ha
      · exact htrans b (List.mem_append_right _ hb)

/-- **Taking out** what is found leaves the others. -/
theorem remove_of_find (hf : find key less l k = some e) :
    ∃ pre post, l = pre ++ e :: post ∧ remove key less l k = pre ++ post ∧
      ∀ e' ∈ pre, less (key e') k = true := by
  have hsplit : l.takeWhile (fun e => less (key e) k) ++
      l.dropWhile (fun e => less (key e) k) = l := List.takeWhile_append_dropWhile
  rw [remove, hf]
  rw [find] at hf
  cases hfirst : l.find? (fun e => !less (key e) k) with
  | none =>
      rw [hfirst] at hf
      exact absurd hf nofun
  | some b =>
      rw [hfirst] at hf
      have hdrop : (l.dropWhile fun e => less (key e) k).head? = some b := by
        rw [← List.find?_not_eq_head?_dropWhile]
        exact hfirst
      dsimp only at hf ⊢
      split_ifs at hf with habove
      obtain rfl : b = e := Option.some.inj hf
      obtain ⟨rest, hrest⟩ := List.head?_eq_some_iff.1 hdrop
      rw [hrest] at hsplit ⊢
      refine ⟨_, rest, hsplit.symm, rfl, fun e' he' => ?_⟩
      have hbelow := List.mem_takeWhile_imp he'
      exact hbelow

theorem remove_of_find_eq_none (hf : find key less l k = none) : remove key less l k = l := by
  rw [remove, hf]

theorem Ordered.sublist {l' : List α} (h : Ordered key less l) (hsub : l'.Sublist l) :
    Ordered key less l' :=
  ⟨h.pairwise.sublist hsub, fun b hb => h.trans b (hsub.subset hb)⟩

end SearchSet

end Vml
