import Mathlib.Data.Nat.ModEq
import Mathlib.Logic.Function.Basic

/-!
# Rings driven by free-running counters

A producer appends to a history `xs` and stores entry `i` at slot `i % size` of a ring; a consumer
reads the entries in order. The counters they exchange are kept modulo some `M`. Two facts carry
every such protocol:

* `counter_sub` — a difference below `M` survives the reduction modulo `M`;
* `Window` — the live entries `lo ≤ i < hi` are in their slots, and a store outside the window
  (`Window.store`) does not disturb it while fewer than `size` entries are live.

`Chan` puts them together: a channel from one producer to one consumer, with the producer's
progress through its current entry, and one lemma for each thing either side can do.
-/

namespace Vml

/-- A difference below the modulus is recovered from the reduced counters. -/
theorem counter_sub {M a b : ℕ} (hle : b ≤ a) (hlt : a - b < M) :
    (a % M + M - b % M) % M = a - b := by
  have hM : 0 < M := by omega
  have hb : b % M < M := Nat.mod_lt b hM
  have hsum : a % M + M - b % M + b ≡ (a - b) + b [MOD M] := by
    have h1 : a % M + M - b % M + b % M = a % M + M := by omega
    calc a % M + M - b % M + b ≡ a % M + M - b % M + b % M [MOD M] :=
          Nat.ModEq.add_left _ (Nat.mod_modEq b M).symm
      _ = a % M + M := h1
      _ ≡ a [MOD M] := by simp [Nat.ModEq]
      _ = (a - b) + b := by omega
  have hcancel := Nat.ModEq.add_right_cancel' b hsum
  rw [hcancel, Nat.mod_eq_of_lt hlt]

theorem slot_ne {size i j : ℕ} (hij : i < j) (hlt : j < i + size) : i % size ≠ j % size := by
  intro h
  have hdvd : size ∣ j - i := (Nat.modEq_iff_dvd' hij.le).1 h
  have := Nat.le_of_dvd (by omega) hdvd
  omega

theorem prefix_snoc {α : Type*} {xs ys : List α} {y : α} (h : xs <+: ys)
    (hy : ys[xs.length]? = some y) : xs ++ [y] <+: ys := by
  obtain ⟨rest, rfl⟩ := h
  rw [List.getElem?_append_right le_rfl, Nat.sub_self] at hy
  cases rest with
  | nil => simp at hy
  | cons z rest =>
      simp only [List.getElem?_cons_zero, Option.some.injEq] at hy
      exact ⟨rest, by simp [hy]⟩

variable {α : Type*} {size lo hi n : ℕ} {ring : ℕ → α} {xs : List α} {x : α}

/-- Entries `lo ≤ i < hi` of the history are in their slots of the ring. -/
def Window (size : ℕ) (ring : ℕ → α) (xs : List α) (lo hi : ℕ) : Prop :=
  ∀ i, lo ≤ i → i < hi → xs[i]? = some (ring (i % size))

namespace Window

theorem empty (size : ℕ) (ring : ℕ → α) (xs : List α) (lo : ℕ) : Window size ring xs lo lo :=
  fun i hlo hhi => absurd hhi (by omega)

theorem drop (h : Window size ring xs lo hi) (n : ℕ) : Window size ring xs (lo + n) hi :=
  fun i hlo hhi => h i (by omega) hhi

theorem head (h : Window size ring xs lo hi) (hlt : lo < hi) :
    xs[lo]? = some (ring (lo % size)) :=
  h lo le_rfl hlt

theorem append (h : Window size ring xs lo hi) (ys : List α) :
    Window size ring (xs ++ ys) lo hi := by
  intro i hlo hhi
  have hi := h i hlo hhi
  have hlen : i < xs.length := (List.getElem?_eq_some_iff.1 hi).1
  rw [List.getElem?_append_left hlen, hi]

theorem store (h : Window size ring xs lo hi) (hfresh : hi ≤ n) (hroom : n < lo + size) (x : α) :
    Window size (Function.update ring (n % size) x) xs lo hi := by
  intro i hlo hhi
  rw [Function.update_of_ne (slot_ne (by omega) (by omega)), h i hlo hhi]

theorem extend (h : Window size ring xs lo hi) (hx : xs[hi]? = some (ring (hi % size))) :
    Window size ring xs lo (hi + 1) := by
  intro i hlo hhi
  rcases Nat.lt_or_eq_of_le (Nat.le_of_lt_succ hhi) with hlt | rfl
  · exact h i hlo hlt
  · exact hx

end Window

/-! ## Channels -/

/-- How far the producer is with the last entry of its history. -/
inductive Stage
  /-- Every entry of the history is published. -/
  | done
  /-- The last entry is being written to its slot. -/
  | filling
  /-- The last entry is in its slot and not published yet. -/
  | filled
  deriving DecidableEq, Repr

/-- The number of entries in the history that are not published. -/
def Stage.pending : Stage → ℕ
  | .done => 0
  | .filling | .filled => 1

/-- A one-producer, one-consumer channel over a ring. -/
structure Chan (α : Type*) where
  ring : ℕ → α
  /-- Everything the producer was asked to send, in order. -/
  hist : List α
  /-- How many entries the producer has published. -/
  published : ℕ
  /-- How many entries the consumer has read. -/
  consumed : ℕ
  stage : Stage

namespace Chan

variable {c : Chan α}

/-- The producer takes on one more entry. -/
def start (c : Chan α) (x : α) : Chan α := { c with hist := c.hist ++ [x], stage := .filling }

/-- The producer stores to the slot of the entry it is writing. -/
def store (size : ℕ) (c : Chan α) (x : α) : Chan α :=
  { c with ring := Function.update c.ring (c.published % size) x }

/-- The producer is done writing the slot. -/
def fill (c : Chan α) : Chan α := { c with stage := .filled }

/-- The producer publishes the entry. -/
def publish (c : Chan α) : Chan α := { c with published := c.published + 1, stage := .done }

/-- The consumer reads one entry. -/
def consume (c : Chan α) : Chan α := { c with consumed := c.consumed + 1 }

/-- The channel's invariant: at most a ring of unread entries, each published one in its slot. -/
structure Ok (size : ℕ) (c : Chan α) : Prop where
  length : c.hist.length = c.published + c.stage.pending
  consumed_le : c.consumed ≤ c.published
  room : c.hist.length ≤ c.consumed + size
  window : Window size c.ring c.hist c.consumed c.published
  filled : c.stage = .filled → c.hist[c.published]? = some (c.ring (c.published % size))

theorem Ok.empty (size : ℕ) (ring : ℕ → α) : Ok size ⟨ring, [], 0, 0, .done⟩ where
  length := rfl
  consumed_le := le_rfl
  room := Nat.zero_le _
  window := Window.empty size ring [] 0
  filled := fun h => nomatch h

theorem Ok.start (h : Ok size c) (hs : c.stage = .done) (hroom : c.hist.length < c.consumed + size)
    (x : α) : Ok size (c.start x) where
  length := by
    have := h.length
    rw [hs, Stage.pending] at this
    simp [Chan.start, Stage.pending, this]
  consumed_le := h.consumed_le
  room := by simpa [Chan.start] using Nat.succ_le_of_lt hroom
  window := h.window.append [x]
  filled := fun hf => nomatch hf

theorem Ok.store (h : Ok size c) (hs : c.stage = .filling) (x : α) : Ok size (c.store size x) where
  length := h.length
  consumed_le := h.consumed_le
  room := h.room
  window := by
    have hlen := h.length
    rw [hs, Stage.pending] at hlen
    exact h.window.store le_rfl (by have := h.room; omega) x
  filled := fun hf => absurd (hs.symm.trans hf) (by simp)

theorem Ok.fill (h : Ok size c) (hs : c.stage = .filling)
    (hx : c.hist[c.published]? = some (c.ring (c.published % size))) : Ok size c.fill where
  length := by simpa [hs, Stage.pending, Chan.fill] using h.length
  consumed_le := h.consumed_le
  room := h.room
  window := h.window
  filled := fun _ => hx

theorem Ok.publish (h : Ok size c) (hs : c.stage = .filled) : Ok size c.publish where
  length := by simpa [hs, Stage.pending, Chan.publish] using h.length
  consumed_le := Nat.le_succ_of_le h.consumed_le
  room := h.room
  window := h.window.extend (h.filled hs)
  filled := fun hf => nomatch hf

theorem Ok.consume (h : Ok size c) (hlt : c.consumed < c.published) : Ok size c.consume where
  length := h.length
  consumed_le := hlt
  room := Nat.le_trans h.room (Nat.add_le_add_right (Nat.le_succ _) _)
  window := h.window.drop 1
  filled := h.filled

theorem Ok.next (h : Ok size c) (hlt : c.consumed < c.published) :
    c.hist[c.consumed]? = some (c.ring (c.consumed % size)) :=
  h.window.head hlt

theorem Ok.published_lt (h : Ok size c) (hs : c.stage ≠ .done) :
    c.hist.length = c.published + 1 := by
  rw [h.length]
  cases hst : c.stage <;> simp_all [Stage.pending]

theorem Ok.unread_le (h : Ok size c) : c.published - c.consumed ≤ size := by
  have := h.length
  have := h.room
  omega

end Chan

end Vml
