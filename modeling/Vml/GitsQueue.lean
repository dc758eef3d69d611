import Vml.Gits

/-!
# The command queue of the ITS

`Gits::fetch_commands` and the two registers that lead to it (`gits.cpp`). The guest puts commands
of 32 bytes in a ring in its memory and moves CWRITER. The ITS executes what is between CREADR and
CWRITER.

**What a fetch does** is the commands it executes, by their place in the queue, and the state it
leaves, which there is none of when a command fails an `ASSERT`.

**What it is to do** is in `runSlots`: the commands that are stored from one place up to the other,
one after the other, up to one that cannot be read. `Fetches` compares the two but for the stall
indication, which is bit 0 of CREADR.

**The size of the queue** is in bits 7 to 0 of CBASER. The code takes bits 11 to 0, so that it goes
past the end of a queue with attributes in bits 11 to 8. It leaves the stall indication in the
address it reads from.

Main results: `fetches_iff` and `writeCwriter_eq`.
-/

namespace Vml

/-! ## The registers and the loop -/

namespace GuestBus

/-- `SimpleAS::read_bus` into the four words of a command. -/
def readCommand (b : GuestBus) (addr : UInt64) : Option (UInt64 × UInt64 × UInt64 × UInt64) :=
  (b.readBus addr 32).map fun bytes =>
    (fromBytes (bytes.take 8), fromBytes ((bytes.drop 8).take 8),
      fromBytes ((bytes.drop 16).take 8), fromBytes (bytes.drop 24))

end GuestBus

namespace Gits

/-- `COMMAND_SIZE`. -/
def commandSize : UInt64 := 32

/-- `cbaser_size`. -/
def cbaserSize (its : Gits) : UInt64 := ((its.cbaser &&& 0xFFF) + 1) * 4096

/-- Where the queue starts. -/
def queueBase (its : Gits) : UInt64 := its.cbaser &&& 0xFFFFFFFFFF000

end Gits

namespace ItsSys

/-- The ITS with another read pointer. -/
def atCommand (s : ItsSys) (creadr : UInt64) : ItsSys :=
  { s with its := { s.its with creadr := creadr } }

/-- The read pointer of the code after a command. -/
def nextCommand (cbaserSize creadr : UInt64) : UInt64 :=
  if cbaserSize ≤ creadr + Gits.commandSize then 0 else creadr + Gits.commandSize

/-- The loop of `fetch_commands`: the read pointers it executed a command at, and the state. -/
def fetchLoop (cbaserSize : UInt64) : ℕ → ItsSys → List ℕ × Option ItsSys
  | 0, s => ([], some s)
  | maxIterations + 1, s =>
    if s.its.cwriter = s.its.creadr then ([], some s)
    else
      match s.bus.readCommand (s.its.queueBase + s.its.creadr) with
      | none => ([], some (s.atCommand (s.its.creadr ||| 1)))
      | some (q0, q1, q2, _) =>
        match s.handleCommand q0 q1 q2 with
        | none => ([s.its.creadr.toNat], none)
        | some t =>
          let rest := fetchLoop cbaserSize maxIterations
            (t.atCommand (nextCommand cbaserSize t.its.creadr))
          (s.its.creadr.toNat :: rest.1, rest.2)

/-- `fetch_commands`. -/
def fetchCommands (s : ItsSys) : List ℕ × Option ItsSys :=
  if s.its.cbaser >>> 63 = 0 then ([], some s)
  else fetchLoop s.its.cbaserSize (s.its.cbaserSize / Gits.commandSize).toNat s

/-- `write_cbaser`. -/
def writeCbaser (s : ItsSys) (value : UInt64) : ItsSys :=
  { s with its := { s.its with cbaser := value } }

/-- The ITS with another write pointer. -/
def withCwriter (s : ItsSys) (cwriter : UInt64) : ItsSys :=
  { s with its := { s.its with cwriter := cwriter } }

/-- `mmio_write` of CWRITER. -/
def writeCwriter (s : ItsSys) (value : UInt64) : List ℕ × Option ItsSys :=
  if value &&& 1 ≠ 0 then ([], none)
  else
    let s := s.withCwriter (value &&& 0xFFFE0)
    if s.its.enabled then s.fetchCommands else ([], some s)

end ItsSys

/-! ## What a fetch is to do -/

/-- The bytes of the queue, by bits 7 to 0 of CBASER. -/
def Gits.queueSize (its : Gits) : ℕ := (its.cbaser.toNat % 256 + 1) * 4096

/-- A place for a command in a queue. -/
def Slot (size p : ℕ) : Prop := 32 ∣ p ∧ p < size

/-- Some places of a queue, one after the other. -/
def span (p k : ℕ) : List ℕ := (List.range k).map fun i => p + 32 * i

/-- The places from `p` up to but excluding `w`. -/
def slots (size p w : ℕ) : List ℕ :=
  if p ≤ w then span p ((w - p) / 32) else span p ((size - p) / 32) ++ span 0 (w / 32)

/-- How a run over a queue ends: by an `ASSERT`, at a command that cannot be read, or at the end. -/
inductive QueueEnd where
  | aborted
  | stalled (p : ℕ) (s : ItsSys)
  | done (s : ItsSys)

/-- The state to be left, with the read pointer at the first command not executed. -/
def QueueEnd.state (w : ℕ) : QueueEnd → Option ItsSys
  | aborted => none
  | stalled p s => some (s.atCommand (UInt64.ofNat p))
  | done s => some (s.atCommand (UInt64.ofNat w))

namespace ItsSys

/-- The commands stored at some places of the queue, executed one after the other. -/
def runSlots : List ℕ → ItsSys → List ℕ × QueueEnd
  | [], s => ([], .done s)
  | p :: ps, s =>
    match s.bus.readCommand (s.its.queueBase + UInt64.ofNat p) with
    | none => ([], .stalled p s)
    | some (q0, q1, q2, _) =>
      match s.handleCommand q0 q1 q2 with
      | none => ([p], .aborted)
      | some t => (p :: (runSlots ps t).1, (runSlots ps t).2)

/-- The ITS without the stall indication. -/
def unstalled (s : ItsSys) : ItsSys := s.atCommand (s.its.creadr &&& ~~~1)

/-- **The fetch executes the commands from `p` up to CWRITER**, and leaves CREADR at the first that
it did not execute. -/
def Fetches (s : ItsSys) (p : ℕ) : Prop :=
  let w := s.its.cwriter.toNat
  let want := runSlots (slots s.its.queueSize p w) s
  s.fetchCommands.1 = want.1 ∧ s.fetchCommands.2.map unstalled = want.2.state w

/-- The commands from `p` to the end of the queue are all executed. -/
def ReachesEnd (s : ItsSys) (p : ℕ) : Prop :=
  ∃ t, (runSlots (span p ((s.its.queueSize - p) / 32)) s).2 = .done t

/-- When a fetch does what it is to do. From a place in the queue the commands are to lie in one
piece, or bits 11 to 8 of CBASER are to be clear, or the end of the queue is not to be reached. From
a stall neither the command at `p` is to be readable, if there is one, nor the 32 bytes that the
read pointer with its stall indication points at. -/
def QueueKept (s : ItsSys) (p : ℕ) : Prop :=
  if s.its.creadr = UInt64.ofNat p then
    p ≤ s.its.cwriter.toNat ∨ s.its.cbaser >>> 8 &&& 0xF = 0 ∨ ¬s.ReachesEnd p
  else
    s.bus.readable (s.its.queueBase + s.its.creadr) 32 = false ∧
      (p = s.its.cwriter.toNat ∨
        s.bus.readable (s.its.queueBase + UInt64.ofNat p) 32 = false)

/-! ## Commands and the read pointer -/

theorem atCommand_creadr (s : ItsSys) : s.atCommand s.its.creadr = s := rfl

theorem creadr_atCommand (s : ItsSys) (c : UInt64) : (s.atCommand c).its.creadr = c := rfl

theorem its_handleMsi {s t : ItsSys} {eventId devId : UInt32}
    (h : s.handleMsi eventId devId = some t) : t.its = s.its := by
  unfold handleMsi at h
  split at h
  · cases h
    rfl
  · obtain ⟨g, -, rfl⟩ := Option.map_eq_some_iff.1 h
    rfl

theorem its_handleMapd {s t : ItsSys} {valid : Bool} {devId : UInt32} {ittAddr : UInt64}
    {ittSize : UInt8} (h : s.handleMapd valid devId ittAddr ittSize = some t) : t.its = s.its := by
  unfold handleMapd at h
  by_cases hbad : ittSize ≠ 0 ∨ 0x10000 ≤ devId
  · rw [if_pos hbad] at h
    cases h
  · rw [if_neg hbad] at h
    cases h
    rfl

theorem its_handleMovi (s : ItsSys) (devId eventId : UInt32) (icid : UInt16) :
    (s.handleMovi devId eventId icid).its = s.its := by
  unfold handleMovi
  dsimp only
  split_ifs <;> rfl

theorem its_handleMapti (s : ItsSys) (devId eventId pintid : UInt32) (icid : UInt16) :
    (s.handleMapti devId eventId pintid icid).its = s.its := by
  unfold handleMapti
  dsimp only
  split_ifs <;> rfl

/-- A command leaves the registers of the ITS alone. -/
theorem its_handleCommand {s t : ItsSys} {q0 q1 q2 : UInt64}
    (h : s.handleCommand q0 q1 q2 = some t) : t.its = s.its := by
  unfold handleCommand at h
  dsimp only at h
  split_ifs at h
  · cases h
    exact its_handleMovi _ _ _ _
  · exact its_handleMsi h
  · exact its_handleMapd h
  · cases h
    rfl
  · cases h
    exact its_handleMapti _ _ _ _ _
  · cases h
    rfl

section

variable (s : ItsSys) (c : UInt64)

theorem handleMsi_atCommand (eventId devId : UInt32) :
    (s.atCommand c).handleMsi eventId devId =
      (s.handleMsi eventId devId).map (·.atCommand c) := by
  have htranslate : (s.atCommand c).its.translate (s.atCommand c).bus eventId devId =
      s.its.translate s.bus eventId devId := rfl
  rw [handleMsi, handleMsi, htranslate]
  cases s.its.translate s.bus eventId devId with
  | none => rfl
  | some target =>
    dsimp only
    rw [Option.map_map]
    rfl

theorem handleMapd_atCommand (valid : Bool) (devId : UInt32) (ittAddr : UInt64)
    (ittSize : UInt8) :
    (s.atCommand c).handleMapd valid devId ittAddr ittSize =
      (s.handleMapd valid devId ittAddr ittSize).map (·.atCommand c) := by
  unfold handleMapd
  split_ifs <;> rfl

theorem handleMovi_atCommand (devId eventId : UInt32) (icid : UInt16) :
    (s.atCommand c).handleMovi devId eventId icid =
      (s.handleMovi devId eventId icid).atCommand c := by
  unfold handleMovi
  dsimp only
  rw [apply_ite (atCommand · c), apply_ite (atCommand · c), apply_ite (atCommand · c)]
  rfl

theorem handleMapti_atCommand (devId eventId pintid : UInt32) (icid : UInt16) :
    (s.atCommand c).handleMapti devId eventId pintid icid =
      (s.handleMapti devId eventId pintid icid).atCommand c := by
  unfold handleMapti
  dsimp only
  rw [apply_ite (atCommand · c)]
  rfl

theorem handleCommand_atCommand (q0 q1 q2 : UInt64) :
    (s.atCommand c).handleCommand q0 q1 q2 =
      (s.handleCommand q0 q1 q2).map (·.atCommand c) := by
  unfold handleCommand
  dsimp only
  rw [handleMsi_atCommand, handleMapd_atCommand, handleMovi_atCommand, handleMapti_atCommand]
  split_ifs <;> rfl

end

/-! ## Places in a queue -/

theorem span_zero (p : ℕ) : span p 0 = [] := rfl

theorem span_succ (p k : ℕ) : span p (k + 1) = p :: span (p + 32) k := by
  unfold span
  rw [List.range_succ_eq_map, List.map_cons, List.map_map, Nat.mul_zero, Nat.add_zero]
  congr 1
  apply List.map_congr_left
  intro i _
  dsimp only [Function.comp_apply]
  omega

theorem mem_span {p k q : ℕ} : q ∈ span p k ↔ ∃ i < k, q = p + 32 * i := by
  unfold span
  simp only [List.mem_map, List.mem_range, eq_comm]

/-- The places from one to the other are places in the queue. -/
theorem slot_of_mem_slots {size p w q : ℕ} (hsize : 32 ∣ size) (hp : Slot size p)
    (hw : Slot size w) (hq : q ∈ slots size p w) : Slot size q := by
  obtain ⟨a, rfl⟩ := hp.1
  obtain ⟨b, rfl⟩ := hw.1
  obtain ⟨c, rfl⟩ := hsize
  have hbounds := And.intro hp.2 hw.2
  unfold slots at hq
  split_ifs at hq with hle
  · obtain ⟨i, hi, rfl⟩ := mem_span.1 hq
    exact ⟨⟨a + i, by omega⟩, by omega⟩
  · rcases List.mem_append.1 hq with hq | hq
    · obtain ⟨i, hi, rfl⟩ := mem_span.1 hq
      exact ⟨⟨a + i, by omega⟩, by omega⟩
    · obtain ⟨i, hi, rfl⟩ := mem_span.1 hq
      exact ⟨⟨i, by omega⟩, by omega⟩

/-- What is not CWRITER is the first place to be executed. -/
theorem slots_eq_cons {size p w : ℕ} (hsize : 32 ∣ size) (hp : Slot size p) (hw : Slot size w)
    (hne : p ≠ w) : ∃ ps, slots size p w = p :: ps := by
  obtain ⟨a, rfl⟩ := hp.1
  obtain ⟨b, rfl⟩ := hw.1
  obtain ⟨c, rfl⟩ := hsize
  have hbounds := And.intro hp.2 hw.2
  unfold slots
  split_ifs with hle
  · have hk : (32 * b - 32 * a) / 32 = b - a - 1 + 1 := by omega
    refine ⟨span (32 * a + 32) (b - a - 1), ?_⟩
    rw [hk, span_succ]
  · have hk : (32 * c - 32 * a) / 32 = c - a - 1 + 1 := by omega
    refine ⟨span (32 * a + 32) (c - a - 1) ++ span 0 (32 * b / 32), ?_⟩
    rw [hk, span_succ, List.cons_append]

/-! ## Runs over places -/

theorem readCommand_eq_none {b : GuestBus} {addr : UInt64} :
    b.readCommand addr = none ↔ b.readable addr 32 = false := by
  rw [GuestBus.readCommand, Option.map_eq_none_iff, GuestBus.readBus]
  cases b.readable addr 32 <;> simp

/-- What the code makes of a run over some places from which it goes on with `next`. -/
def codeRun (run : List ℕ × QueueEnd) (next : ItsSys → List ℕ × Option ItsSys) :
    List ℕ × Option ItsSys :=
  match run.2 with
  | .aborted => (run.1, none)
  | .stalled p s => (run.1, some (s.atCommand (UInt64.ofNat p ||| 1)))
  | .done s => (run.1 ++ (next s).1, (next s).2)

theorem codeRun_cons (p : ℕ) (run : List ℕ × QueueEnd)
    (next : ItsSys → List ℕ × Option ItsSys) :
    codeRun (p :: run.1, run.2) next = (p :: (codeRun run next).1, (codeRun run next).2) := by
  obtain ⟨executed, ending⟩ := run
  cases ending <;> rfl

/-- A run, and another one from where it ends. -/
def andThen (run : List ℕ × QueueEnd) (next : ItsSys → List ℕ × QueueEnd) : List ℕ × QueueEnd :=
  match run.2 with
  | .done s => (run.1 ++ (next s).1, (next s).2)
  | _ => run

theorem runSlots_append (ps qs : List ℕ) (s : ItsSys) :
    runSlots (ps ++ qs) s = andThen (runSlots ps s) (runSlots qs) := by
  induction ps generalizing s with
  | nil => rfl
  | cons p ps ih =>
    rw [List.cons_append, runSlots, runSlots]
    cases s.bus.readCommand (s.its.queueBase + UInt64.ofNat p) with
    | none => rfl
    | some q =>
      dsimp only
      cases s.handleCommand q.1 q.2.1 q.2.2.1 with
      | none => rfl
      | some t =>
        dsimp only
        rw [ih t]
        generalize runSlots ps t = run
        obtain ⟨executed, ending⟩ := run
        cases ending <;> rfl

theorem codeRun_andThen (run : List ℕ × QueueEnd) (f : ItsSys → List ℕ × QueueEnd)
    (next : ItsSys → List ℕ × Option ItsSys) :
    codeRun (andThen run f) next = codeRun run fun t => codeRun (f t) next := by
  obtain ⟨executed, ending⟩ := run
  cases ending with
  | aborted => rfl
  | stalled p s => rfl
  | done t =>
    dsimp only [andThen, codeRun]
    generalize f t = rest
    obtain ⟨executed', ending'⟩ := rest
    cases ending' with
    | aborted => rfl
    | stalled p s => rfl
    | done u => exact Prod.ext (List.append_assoc _ _ _) rfl

theorem its_runSlots {ps : List ℕ} {s t : ItsSys} (h : (runSlots ps s).2 = .done t) :
    t.its = s.its := by
  induction ps generalizing s with
  | nil =>
    cases h
    rfl
  | cons p ps ih =>
    rw [runSlots] at h
    cases hread : s.bus.readCommand (s.its.queueBase + UInt64.ofNat p) with
    | none =>
      rw [hread] at h
      cases h
    | some q =>
      rw [hread] at h
      dsimp only at h
      cases hcommand : s.handleCommand q.1 q.2.1 q.2.2.1 with
      | none =>
        rw [hcommand] at h
        cases h
      | some u =>
        rw [hcommand] at h
        rw [ih h, its_handleCommand hcommand]

/-- A run executes and stalls at some of its places. -/
theorem runSlots_mem (ps : List ℕ) (s : ItsSys) :
    (∀ q ∈ (runSlots ps s).1, q ∈ ps) ∧ ∀ q t, (runSlots ps s).2 = .stalled q t → q ∈ ps := by
  induction ps generalizing s with
  | nil =>
    refine ⟨fun q hq => hq, ?_⟩
    intro q t h
    cases h
  | cons p ps ih =>
    rw [runSlots]
    cases s.bus.readCommand (s.its.queueBase + UInt64.ofNat p) with
    | none =>
      refine ⟨fun q hq => absurd hq List.not_mem_nil, ?_⟩
      intro q t h
      cases h
      exact List.mem_cons_self
    | some q =>
      dsimp only
      cases s.handleCommand q.1 q.2.1 q.2.2.1 with
      | none =>
        refine ⟨fun q hq => List.mem_cons.2 (.inl (List.mem_singleton.1 hq)), ?_⟩
        intro q t h
        cases h
      | some u =>
        obtain ⟨hexecuted, hstalled⟩ := ih u
        refine ⟨?_, fun q t h => List.mem_cons_of_mem _ (hstalled q t h)⟩
        intro q hq
        rcases List.mem_cons.1 hq with rfl | hq
        · exact List.mem_cons_self
        · exact List.mem_cons_of_mem _ (hexecuted q hq)

/-! ## The loop of the code -/

/-- The read pointer of the code for a place, which is the start again from the end on. -/
def wrapped (cbaserSize : UInt64) (p : ℕ) : UInt64 :=
  if cbaserSize.toNat ≤ p then 0 else UInt64.ofNat p

theorem wrapped_of_lt {cbaserSize : UInt64} {p : ℕ} (h : p < cbaserSize.toNat) :
    wrapped cbaserSize p = UInt64.ofNat p := if_neg (by omega)

theorem nextCommand_eq {cbaserSize : UInt64} {p : ℕ} (hp : p + 32 < 2 ^ 64) :
    nextCommand cbaserSize (UInt64.ofNat p) = wrapped cbaserSize (p + 32) := by
  have hnext : UInt64.ofNat p + Gits.commandSize = UInt64.ofNat (p + 32) := by
    rw [UInt64.ofNat_add]
    rfl
  unfold nextCommand wrapped
  simp only [hnext, UInt64.le_iff_toNat_le, UInt64.toNat_ofNat_of_lt' hp]

theorem ofNat_ne_of_ne {c : UInt64} {p : ℕ} (hp : p < 2 ^ 64) (hne : p ≠ c.toNat) :
    c ≠ UInt64.ofNat p := by
  intro heq
  apply hne
  rw [heq, UInt64.toNat_ofNat_of_lt' hp]

section

variable {s : ItsSys} {c : UInt64} (cbaserSize : UInt64) (n : ℕ)

/-! One turn of the loop, with the read pointer `c`. -/

theorem fetchLoop_stop (h : s.its.cwriter = c) :
    fetchLoop cbaserSize n (s.atCommand c) = ([], some (s.atCommand c)) := by
  cases n with
  | zero => rfl
  | succ n => exact if_pos h

theorem fetchLoop_stall (h : s.its.cwriter ≠ c)
    (hread : s.bus.readCommand (s.its.queueBase + c) = none) :
    fetchLoop cbaserSize (n + 1) (s.atCommand c) = ([], some (s.atCommand (c ||| 1))) := by
  have hloop : fetchLoop cbaserSize (n + 1) (s.atCommand c) = _ := if_neg h
  rw [hloop]
  have hread' : (s.atCommand c).bus.readCommand
      ((s.atCommand c).its.queueBase + (s.atCommand c).its.creadr) = none := hread
  rw [hread']
  rfl

theorem fetchLoop_command (h : s.its.cwriter ≠ c) {q : UInt64 × UInt64 × UInt64 × UInt64}
    (hread : s.bus.readCommand (s.its.queueBase + c) = some q) :
    fetchLoop cbaserSize (n + 1) (s.atCommand c) =
      match s.handleCommand q.1 q.2.1 q.2.2.1 with
      | none => ([c.toNat], none)
      | some t =>
        let rest := fetchLoop cbaserSize n (t.atCommand (nextCommand cbaserSize c))
        (c.toNat :: rest.1, rest.2) := by
  have hloop : fetchLoop cbaserSize (n + 1) (s.atCommand c) = _ := if_neg h
  rw [hloop]
  have hread' : (s.atCommand c).bus.readCommand
      ((s.atCommand c).its.queueBase + (s.atCommand c).its.creadr) = some q := hread
  rw [hread']
  dsimp only
  rw [handleCommand_atCommand]
  cases s.handleCommand q.1 q.2.1 q.2.2.1 with
  | none => rfl
  | some t => rfl

end

/-- The loop runs over the places before the end of the queue of the code that are not CWRITER. -/
theorem fetchLoop_span {cbaserSize : UInt64} (hsize : cbaserSize.toNat + 32 < 2 ^ 64) (n : ℕ)
    {k p : ℕ} {s : ItsSys} (hk : p + 32 * k ≤ cbaserSize.toNat)
    (hne : ∀ i < k, p + 32 * i ≠ s.its.cwriter.toNat) :
    fetchLoop cbaserSize (k + n) (s.atCommand (wrapped cbaserSize p)) =
      codeRun (runSlots (span p k) s) fun t =>
        fetchLoop cbaserSize n (t.atCommand (wrapped cbaserSize (p + 32 * k))) := by
  induction k generalizing p s with
  | zero =>
    rw [Nat.zero_add, span_zero, runSlots, codeRun, Nat.mul_zero, Nat.add_zero]
    rfl
  | succ k ih =>
    have hlt : p < 2 ^ 64 := by omega
    have hcreadr : s.its.cwriter ≠ UInt64.ofNat p := ofNat_ne_of_ne hlt (hne 0 (Nat.succ_pos k))
    have hfuel : k + 1 + n = k + n + 1 := by omega
    rw [hfuel, span_succ, wrapped_of_lt (by omega), runSlots]
    cases hread : s.bus.readCommand (s.its.queueBase + UInt64.ofNat p) with
    | none =>
      rw [fetchLoop_stall _ _ hcreadr hread]
      rfl
    | some q =>
      rw [fetchLoop_command _ _ hcreadr hread, UInt64.toNat_ofNat_of_lt' hlt]
      dsimp only
      cases hcommand : s.handleCommand q.1 q.2.1 q.2.2.1 with
      | none => rfl
      | some t =>
        dsimp only
        have hits := its_handleCommand hcommand
        have hrest : ∀ i < k, p + 32 + 32 * i ≠ t.its.cwriter.toNat := by
          intro i hi
          have := hne (i + 1) (by omega)
          rw [hits]
          omega
        have hnext : p + 32 + 32 * k = p + 32 * (k + 1) := by omega
        rw [nextCommand_eq (by omega), ih (by omega) hrest, codeRun_cons, hnext]

/-! ## The stall indication -/

theorem or_one_and_one (x : UInt64) : (x ||| 1) &&& 1 = 1 := by
  apply UInt64.toBitVec_inj.1
  ext i hi
  simp only [UInt64.toBitVec_and, UInt64.toBitVec_or, BitVec.getElem_and, BitVec.getElem_or]
  cases x.toBitVec[i] <;> cases (1 : UInt64).toBitVec[i] <;> rfl

theorem or_one_and_not_one (x : UInt64) : (x ||| 1) &&& ~~~1 = x &&& ~~~1 := by
  apply UInt64.toBitVec_inj.1
  ext i hi
  simp only [UInt64.toBitVec_and, UInt64.toBitVec_or, UInt64.toBitVec_not, BitVec.getElem_and,
    BitVec.getElem_or, BitVec.getElem_not]
  cases x.toBitVec[i] <;> cases (1 : UInt64).toBitVec[i] <;> rfl

theorem and_one_or_and_not_one (x : UInt64) : (x &&& 1) ||| (x &&& ~~~1) = x := by
  apply UInt64.toBitVec_inj.1
  ext i hi
  simp only [UInt64.toBitVec_and, UInt64.toBitVec_or, UInt64.toBitVec_not, BitVec.getElem_and,
    BitVec.getElem_or, BitVec.getElem_not]
  cases x.toBitVec[i] <;> cases (1 : UInt64).toBitVec[i] <;> rfl

theorem ofNat_and_one {p : ℕ} (hp : 32 ∣ p) : UInt64.ofNat p &&& 1 = 0 := by
  have hone : (1 : UInt64).toNat = 2 ^ 1 - 1 := rfl
  rw [← UInt64.toNat_inj, UInt64.toNat_and, hone, Nat.and_two_pow_sub_one_eq_mod,
    UInt64.toNat_ofNat', UInt64.toNat_zero]
  omega

theorem ofNat_and_not_one {p : ℕ} (hp : 32 ∣ p) : UInt64.ofNat p &&& ~~~1 = UInt64.ofNat p := by
  have hsplit := and_one_or_and_not_one (UInt64.ofNat p)
  rwa [ofNat_and_one hp, UInt64.zero_or] at hsplit

theorem unstalled_atCommand (s : ItsSys) (c : UInt64) :
    (s.atCommand c).unstalled = s.atCommand (c &&& ~~~1) := rfl

theorem unstalled_stalled (s : ItsSys) {p : ℕ} (hp : 32 ∣ p) :
    (s.atCommand (UInt64.ofNat p ||| 1)).unstalled = s.atCommand (UInt64.ofNat p) := by
  rw [unstalled_atCommand, or_one_and_not_one, ofNat_and_not_one hp]

theorem unstalled_slot (s : ItsSys) {p : ℕ} (hp : 32 ∣ p) :
    (s.atCommand (UInt64.ofNat p)).unstalled = s.atCommand (UInt64.ofNat p) := by
  rw [unstalled_atCommand, ofNat_and_not_one hp]

/-! ## The sizes -/

theorem cbaserSize_toNat (its : Gits) :
    its.cbaserSize.toNat = (its.cbaser.toNat % 4096 + 1) * 4096 := by
  have hmask : (0xFFF : UInt64).toNat = 2 ^ 12 - 1 := rfl
  have hand : (its.cbaser &&& 0xFFF).toNat = its.cbaser.toNat % 4096 := by
    rw [UInt64.toNat_and, hmask, Nat.and_two_pow_sub_one_eq_mod]
  have hlt : its.cbaser.toNat % 4096 < 4096 := Nat.mod_lt _ (by decide)
  have hone : (1 : UInt64).toNat = 1 := rfl
  have hpage : (4096 : UInt64).toNat = 4096 := rfl
  rw [Gits.cbaserSize, UInt64.toNat_mul, UInt64.toNat_add, hand, hone, hpage]
  omega

theorem attributes_eq_zero_iff (its : Gits) :
    its.cbaser >>> 8 &&& 0xF = 0 ↔ its.queueSize = its.cbaserSize.toNat := by
  have hmask : (0xF : UInt64).toNat = 2 ^ 4 - 1 := rfl
  have hshift : (8 : UInt64).toNat % 64 = 8 := rfl
  rw [cbaserSize_toNat, Gits.queueSize, ← UInt64.toNat_inj, UInt64.toNat_and,
    UInt64.toNat_shiftRight, hshift, hmask, Nat.and_two_pow_sub_one_eq_mod,
    Nat.shiftRight_eq_div_pow, UInt64.toNat_zero]
  omega

theorem queueSize_le (its : Gits) : its.queueSize ≤ its.cbaserSize.toNat := by
  rw [cbaserSize_toNat, Gits.queueSize]
  omega

theorem dvd_queueSize (its : Gits) : 32 ∣ its.queueSize := by
  rw [Gits.queueSize]
  omega

/-! ## The fetch of the code -/

theorem codeRun_congr {run : List ℕ × QueueEnd} {next next' : ItsSys → List ℕ × Option ItsSys}
    (h : ∀ t, run.2 = .done t → next t = next' t) : codeRun run next = codeRun run next' := by
  obtain ⟨executed, ending⟩ := run
  cases ending with
  | aborted => rfl
  | stalled p s => rfl
  | done t =>
    dsimp only [codeRun]
    rw [h t rfl]

section

variable {s : ItsSys} {p : ℕ}

theorem fetchCommands_eq (hvalid : s.its.cbaser >>> 63 ≠ 0) :
    s.fetchCommands = fetchLoop s.its.cbaserSize (s.its.cbaserSize.toNat / 32) s := by
  have hsize : (s.its.cbaserSize / Gits.commandSize).toNat = s.its.cbaserSize.toNat / 32 :=
    UInt64.toNat_div _ _
  rw [fetchCommands, if_neg hvalid, hsize]

/-- What the code does from `p` is a run over some places, and then the loop from the next. -/
theorem fetchCommands_span (hvalid : s.its.cbaser >>> 63 ≠ 0) (hp : p < s.its.cbaserSize.toNat)
    (hcreadr : s.its.creadr = UInt64.ofNat p) {k : ℕ}
    (hk : p + 32 * k ≤ s.its.cbaserSize.toNat)
    (hne : ∀ i < k, p + 32 * i ≠ s.its.cwriter.toNat) :
    s.fetchCommands = codeRun (runSlots (span p k) s) fun t =>
      fetchLoop s.its.cbaserSize (s.its.cbaserSize.toNat / 32 - k)
        (t.atCommand (wrapped s.its.cbaserSize (p + 32 * k))) := by
  have hsize := cbaserSize_toNat s.its
  have hfuel : s.its.cbaserSize.toNat / 32 = k + (s.its.cbaserSize.toNat / 32 - k) := by omega
  have hstart : s.atCommand (wrapped s.its.cbaserSize p) = s := by
    rw [wrapped_of_lt hp, ← hcreadr, atCommand_creadr]
  have hspan := @fetchLoop_span s.its.cbaserSize (by omega) (s.its.cbaserSize.toNat / 32 - k)
    k p s hk hne
  rw [hstart, ← hfuel] at hspan
  rw [fetchCommands_eq hvalid, hspan]

/-- The fetch is a run over the places up to CWRITER, unless it goes past the end of the queue. -/
theorem fetchCommands_slots (hvalid : s.its.cbaser >>> 63 ≠ 0) (hp : Slot s.its.queueSize p)
    (hw : Slot s.its.queueSize s.its.cwriter.toNat) (hcreadr : s.its.creadr = UInt64.ofNat p)
    (hkept : p ≤ s.its.cwriter.toNat ∨ s.its.cbaser >>> 8 &&& 0xF = 0 ∨ ¬s.ReachesEnd p) :
    s.fetchCommands =
      codeRun (runSlots (slots s.its.queueSize p s.its.cwriter.toNat) s) fun t =>
        ([], some (t.atCommand (UInt64.ofNat s.its.cwriter.toNat))) := by
  have hle := queueSize_le s.its
  obtain ⟨⟨a, ha⟩, hplt⟩ := hp
  obtain ⟨⟨b, hb⟩, hwlt⟩ := hw
  obtain ⟨c, hc⟩ := dvd_queueSize s.its
  -- where the loop comes to CWRITER it stops
  have hstop : ∀ (n : ℕ) (t : ItsSys), t.its = s.its →
      fetchLoop s.its.cbaserSize n
          (t.atCommand (wrapped s.its.cbaserSize s.its.cwriter.toNat)) =
        ([], some (t.atCommand (UInt64.ofNat s.its.cwriter.toNat))) := by
    intro n t ht
    rw [wrapped_of_lt (by omega)]
    apply fetchLoop_stop
    rw [ht, UInt64.ofNat_toNat]
  by_cases hpw : p ≤ s.its.cwriter.toNat
  · have hend : p + 32 * ((s.its.cwriter.toNat - p) / 32) = s.its.cwriter.toNat := by omega
    have hspan := @fetchCommands_span s p hvalid (by omega) hcreadr
      ((s.its.cwriter.toNat - p) / 32) (by omega) (by omega)
    rw [slots, if_pos hpw, hspan, hend]
    apply codeRun_congr
    intro t ht
    exact hstop _ t (its_runSlots ht)
  · have hend : p + 32 * ((s.its.queueSize - p) / 32) = s.its.queueSize := by omega
    have hspan := @fetchCommands_span s p hvalid (by omega) hcreadr
      ((s.its.queueSize - p) / 32) (by omega) (by omega)
    rw [slots, if_neg hpw, hspan, hend, runSlots_append, codeRun_andThen]
    apply codeRun_congr
    intro t ht
    -- the end of the queue is reached, so it is the one of the code
    have hsame : s.its.queueSize = s.its.cbaserSize.toNat := by
      rcases hkept with hkept | hkept | hkept
      · exact absurd hkept hpw
      · exact (attributes_eq_zero_iff s.its).1 hkept
      · exact absurd ⟨t, ht⟩ hkept
    have hits := its_runSlots ht
    have hstart : wrapped s.its.cbaserSize s.its.queueSize = wrapped s.its.cbaserSize 0 := by
      rw [wrapped, if_pos (by omega), wrapped_of_lt (by omega)]
      rfl
    have hfuel : s.its.cbaserSize.toNat / 32 - (s.its.queueSize - p) / 32 =
        s.its.cwriter.toNat / 32 + (p / 32 - s.its.cwriter.toNat / 32) := by omega
    have hlast : 0 + 32 * (s.its.cwriter.toNat / 32) = s.its.cwriter.toNat := by omega
    have hbound := cbaserSize_toNat s.its
    rw [hstart, hfuel, fetchLoop_span (by omega) _ (by omega) (by rw [hits]; omega), hlast]
    apply codeRun_congr
    intro u hu
    exact hstop _ u ((its_runSlots hu).trans hits)

/-- A run over the places up to CWRITER is what the fetch is to do. -/
theorem fetches_of_codeRun (hp : Slot s.its.queueSize p)
    (hw : Slot s.its.queueSize s.its.cwriter.toNat)
    (h : s.fetchCommands =
      codeRun (runSlots (slots s.its.queueSize p s.its.cwriter.toNat) s) fun t =>
        ([], some (t.atCommand (UInt64.ofNat s.its.cwriter.toNat)))) : s.Fetches p := by
  obtain ⟨-, hstalled⟩ := runSlots_mem (slots s.its.queueSize p s.its.cwriter.toNat) s
  unfold Fetches
  dsimp only
  rw [h]
  generalize runSlots (slots s.its.queueSize p s.its.cwriter.toNat) s = run at hstalled ⊢
  obtain ⟨executed, ending⟩ := run
  cases ending with
  | aborted => exact ⟨rfl, rfl⟩
  | stalled q t =>
    have hq := slot_of_mem_slots (dvd_queueSize s.its) hp hw (hstalled q t rfl)
    exact ⟨rfl, congrArg some (unstalled_stalled t hq.1)⟩
  | done t =>
    exact ⟨List.append_nil _, congrArg some (unstalled_slot t hw.1)⟩

/-- A read pointer that is left is a place of the run, or CWRITER. -/
theorem mem_of_state {ps : List ℕ} {t u : ItsSys} {w q : ℕ} (hq : q < 2 ^ 64) (hw : w < 2 ^ 64)
    (hps : ∀ r ∈ ps, r < 2 ^ 64)
    (h : (runSlots ps t).2.state w = some (u.atCommand (UInt64.ofNat q))) : q ∈ ps ∨ q = w := by
  have hmem := (runSlots_mem ps t).2
  generalize (runSlots ps t).2 = ending at h hmem
  have heq : ∀ {r : ℕ} {v : ItsSys}, r < 2 ^ 64 →
      some (v.atCommand (UInt64.ofNat r)) = some (u.atCommand (UInt64.ofNat q)) → r = q := by
    intro r v hr hsome
    have hcreadr := congrArg (fun v : ItsSys => v.its.creadr.toNat) (Option.some.inj hsome)
    dsimp only [creadr_atCommand] at hcreadr
    rwa [UInt64.toNat_ofNat_of_lt' hr, UInt64.toNat_ofNat_of_lt' hq] at hcreadr
  cases ending with
  | aborted => cases h
  | stalled r v =>
    have hr := hmem r v rfl
    left
    rwa [← heq (hps r hr) h]
  | done v =>
    right
    exact (heq hw h).symm

/-- A fetch that goes past the end of the queue does what it is not to do. -/
theorem not_fetches_of_passed (hvalid : s.its.cbaser >>> 63 ≠ 0) (hp : Slot s.its.queueSize p)
    (hw : Slot s.its.queueSize s.its.cwriter.toNat) (hcreadr : s.its.creadr = UInt64.ofNat p)
    (hwrap : ¬p ≤ s.its.cwriter.toNat) (hattributes : s.its.cbaser >>> 8 &&& 0xF ≠ 0)
    (hend : s.ReachesEnd p) : ¬s.Fetches p := by
  obtain ⟨t, ht⟩ := hend
  have hle := queueSize_le s.its
  have hne : s.its.queueSize ≠ s.its.cbaserSize.toNat :=
    fun heq => hattributes ((attributes_eq_zero_iff s.its).2 heq)
  have hbound := cbaserSize_toNat s.its
  obtain ⟨⟨a, ha⟩, hplt⟩ := hp
  obtain ⟨⟨b, hb⟩, hwlt⟩ := hw
  obtain ⟨c, hc⟩ := dvd_queueSize s.its
  have hits := its_runSlots ht
  have hlast : p + 32 * ((s.its.queueSize - p) / 32) = s.its.queueSize := by omega
  have hspan := @fetchCommands_span s p hvalid (by omega) hcreadr
    ((s.its.queueSize - p) / 32) (by omega) (by omega)
  have hfuel : ∃ n, s.its.cbaserSize.toNat / 32 - (s.its.queueSize - p) / 32 = n + 1 :=
    ⟨s.its.cbaserSize.toNat / 32 - (s.its.queueSize - p) / 32 - 1, by omega⟩
  obtain ⟨n, hn⟩ := hfuel
  rw [hlast, hn, wrapped_of_lt (by omega)] at hspan
  unfold Fetches
  dsimp only
  rw [slots, if_neg hwrap, runSlots_append, hspan]
  generalize runSlots (span p ((s.its.queueSize - p) / 32)) s = run at ht
  obtain ⟨executed, ending⟩ := run
  dsimp only at ht
  subst ht
  dsimp only [codeRun, andThen]
  rintro ⟨hexecuted, hstate⟩
  have hrest := List.append_cancel_left hexecuted
  -- nothing that is left to be done is at the end of the queue
  have hbefore : ∀ r ∈ span 0 (s.its.cwriter.toNat / 32), r < s.its.queueSize := by
    intro r hr
    obtain ⟨i, hi, rfl⟩ := mem_span.1 hr
    omega
  have hcwriter : t.its.cwriter ≠ UInt64.ofNat s.its.queueSize := by
    rw [hits]
    exact ofNat_ne_of_ne (by omega) (by omega)
  cases hread : t.bus.readCommand (t.its.queueBase + UInt64.ofNat s.its.queueSize) with
  | none =>
    rw [fetchLoop_stall _ _ hcwriter hread, Option.map_some,
      unstalled_stalled t (dvd_queueSize s.its)] at hstate
    have hmem := mem_of_state (by omega) (by omega)
      (fun r hr => Nat.lt_trans (hbefore r hr) (by omega)) hstate.symm
    rcases hmem with hmem | hmem
    · exact Nat.lt_irrefl _ (hbefore _ hmem)
    · omega
  | some q =>
    have hsize : s.its.queueSize < 2 ^ 64 := by omega
    rw [fetchLoop_command _ _ hcwriter hread, UInt64.toNat_ofNat_of_lt' hsize] at hrest
    have hmem : s.its.queueSize ∈ (runSlots (span 0 (s.its.cwriter.toNat / 32)) t).1 := by
      rw [← hrest]
      cases t.handleCommand q.1 q.2.1 q.2.2.1 with
      | none => exact List.mem_singleton_self _
      | some u => exact List.mem_cons_self
    exact Nat.lt_irrefl _ (hbefore _ ((runSlots_mem _ t).1 _ hmem))

/-- From a stall the code reads where the pointer with its indication points at. -/
theorem fetches_stalled_iff (hvalid : s.its.cbaser >>> 63 ≠ 0) (hp : Slot s.its.queueSize p)
    (hw : Slot s.its.queueSize s.its.cwriter.toNat)
    (hcreadr : s.its.creadr = UInt64.ofNat p ||| 1) :
    s.Fetches p ↔ s.bus.readable (s.its.queueBase + s.its.creadr) 32 = false ∧
      (p = s.its.cwriter.toNat ∨
        s.bus.readable (s.its.queueBase + UInt64.ofNat p) 32 = false) := by
  have hbound := cbaserSize_toNat s.its
  have hfuel : ∃ n, s.its.cbaserSize.toNat / 32 = n + 1 :=
    ⟨s.its.cbaserSize.toNat / 32 - 1, by omega⟩
  obtain ⟨n, hn⟩ := hfuel
  have hodd : s.its.creadr &&& 1 = 1 := by rw [hcreadr, or_one_and_one]
  have hcwriter : s.its.cwriter ≠ s.its.creadr := by
    intro heq
    have heven := ofNat_and_one hw.1
    rw [UInt64.ofNat_toNat, heq, hodd] at heven
    cases heven
  have hslots : ∀ q ∈ slots s.its.queueSize p s.its.cwriter.toNat, 32 ∣ q :=
    fun q hq => (slot_of_mem_slots (dvd_queueSize s.its) hp hw hq).1
  have hplt : p < 2 ^ 64 := by
    have hlt := hp.2
    have hle := queueSize_le s.its
    omega
  unfold Fetches
  dsimp only
  rw [fetchCommands_eq hvalid, hn, ← readCommand_eq_none, ← readCommand_eq_none]
  have hloop : fetchLoop s.its.cbaserSize (n + 1) s =
      fetchLoop s.its.cbaserSize (n + 1) (s.atCommand s.its.creadr) := rfl
  rw [hloop]
  cases hread : s.bus.readCommand (s.its.queueBase + s.its.creadr) with
  | some q =>
    -- the command that is executed is at no place of the queue
    refine iff_of_false ?_ (fun h => Option.some_ne_none _ h.1)
    rintro ⟨hexecuted, -⟩
    rw [fetchLoop_command _ _ hcwriter hread] at hexecuted
    have hmem : s.its.creadr.toNat ∈
        (runSlots (slots s.its.queueSize p s.its.cwriter.toNat) s).1 := by
      rw [← hexecuted]
      cases s.handleCommand q.1 q.2.1 q.2.2.1 with
      | none => exact List.mem_singleton_self _
      | some u => exact List.mem_cons_self
    have heven := ofNat_and_one (hslots _ ((runSlots_mem _ s).1 _ hmem))
    rw [UInt64.ofNat_toNat, hodd] at heven
    cases heven
  | none =>
    have hleft : (s.atCommand (s.its.creadr ||| 1)).unstalled = s.atCommand (UInt64.ofNat p) := by
      rw [unstalled_atCommand, or_one_and_not_one, hcreadr, or_one_and_not_one,
        ofNat_and_not_one hp.1]
    rw [fetchLoop_stall _ _ hcwriter hread, Option.map_some, hleft, eq_self, true_and]
    by_cases hempty : p = s.its.cwriter.toNat
    · refine iff_of_true ?_ (.inl hempty)
      rw [slots, if_pos (Nat.le_of_eq hempty), ← hempty, Nat.sub_self]
      exact ⟨rfl, rfl⟩
    · rw [or_iff_right hempty]
      obtain ⟨ps, hps⟩ := slots_eq_cons (dvd_queueSize s.its) hp hw hempty
      rw [hps, runSlots]
      cases hcommand : s.bus.readCommand (s.its.queueBase + UInt64.ofNat p) with
      | none => exact iff_of_true ⟨rfl, rfl⟩ rfl
      | some q =>
        refine iff_of_false ?_ (Option.some_ne_none _)
        dsimp only
        cases s.handleCommand q.1 q.2.1 q.2.2.1 with
        | none =>
          rintro ⟨hexecuted, -⟩
          cases hexecuted
        | some t =>
          rintro ⟨hexecuted, -⟩
          cases hexecuted

/-- **The fetch executes the commands from CREADR up to CWRITER, if and only if** it does not go
past the end of the queue by bits 11 to 8 of CBASER, and from a stall finds nothing to be read. -/
theorem fetches_iff (hvalid : s.its.cbaser >>> 63 ≠ 0) (hp : Slot s.its.queueSize p)
    (hw : Slot s.its.queueSize s.its.cwriter.toNat)
    (hcreadr : s.its.creadr = UInt64.ofNat p ∨ s.its.creadr = UInt64.ofNat p ||| 1) :
    s.Fetches p ↔ s.QueueKept p := by
  unfold QueueKept
  by_cases hslot : s.its.creadr = UInt64.ofNat p
  · rw [if_pos hslot]
    constructor
    · intro hfetches
      by_contra hnot
      rw [not_or, not_or, not_not] at hnot
      exact not_fetches_of_passed hvalid hp hw hslot hnot.1 hnot.2.1 hnot.2.2 hfetches
    · intro hkept
      exact fetches_of_codeRun hp hw (fetchCommands_slots hvalid hp hw hslot hkept)
  · rw [if_neg hslot]
    exact fetches_stalled_iff hvalid hp hw (hcreadr.resolve_left hslot)

/-- CREADR is left at a place in the queue, apart from the stall indication. -/
theorem boundary_of_fetches (hp : Slot s.its.queueSize p)
    (hw : Slot s.its.queueSize s.its.cwriter.toNat) (hfetches : s.Fetches p) {t : ItsSys}
    (ht : s.fetchCommands.2 = some t) :
    ∃ q, Slot s.its.queueSize q ∧ t.unstalled.its.creadr = UInt64.ofNat q := by
  obtain ⟨-, hstate⟩ := hfetches
  have hmem := (runSlots_mem (slots s.its.queueSize p s.its.cwriter.toNat) s).2
  rw [ht, Option.map_some] at hstate
  generalize (runSlots (slots s.its.queueSize p s.its.cwriter.toNat) s).2 = ending at hstate hmem
  cases ending with
  | aborted => cases hstate
  | stalled q u =>
    refine ⟨q, slot_of_mem_slots (dvd_queueSize s.its) hp hw (hmem q u rfl), ?_⟩
    rw [Option.some.inj hstate, creadr_atCommand]
  | done u =>
    refine ⟨_, hw, ?_⟩
    rw [Option.some.inj hstate, creadr_atCommand]

/-- A write of a place of the queue to CWRITER makes an ITS that is enabled fetch up to it. -/
theorem writeCwriter_eq (henabled : s.its.enabled = true) {w : ℕ} (hw : Slot s.its.queueSize w) :
    s.writeCwriter (UInt64.ofNat w) = (s.withCwriter (UInt64.ofNat w)).fetchCommands := by
  have hmask : UInt64.ofNat w &&& 0xFFFE0 = UInt64.ofNat w := by
    obtain ⟨⟨a, rfl⟩, hlt⟩ := hw
    have hsize : s.its.queueSize ≤ 2 ^ 20 := by
      rw [Gits.queueSize]
      omega
    have hplace : 32 * a < 2 ^ 64 := by omega
    have hshift : 32 * a = a <<< 5 := by rw [Nat.shiftLeft_eq, Nat.mul_comm]
    have hbits : (0xFFFE0 : UInt64).toNat = (2 ^ 15 - 1) <<< 5 := rfl
    rw [← UInt64.toNat_inj, UInt64.toNat_and, UInt64.toNat_ofNat_of_lt' hplace, hbits, hshift,
      ← Nat.shiftLeft_and_distrib, Nat.and_two_pow_sub_one_eq_mod, Nat.mod_eq_of_lt (by omega)]
  have heven : ¬UInt64.ofNat w &&& 1 ≠ 0 := not_not.2 (ofNat_and_one hw.1)
  have henabled' : (s.withCwriter (UInt64.ofNat w)).its.enabled = true := henabled
  rw [writeCwriter, if_neg heven, hmask]
  exact if_pos henabled'

end

/-! ## One queue -/

/-- One page from `0x50000` on, full of SYNC. Nothing above it can be read. -/
def queueBus : GuestBus where
  mem a := if a &&& 31 = 0 then 5 else 0
  readable a n := a.toNat + n ≤ 0x51000
  writable _ _ := true

/-- The ITS that has its commands there, in memory that is shareable. -/
def queueIts (creadr cwriter : UInt64) : ItsSys where
  gic := .init .gicV3 1 64
  its := { Gits.init with cbaser := 0x8000000000050400, creadr, cwriter }
  bus := queueBus

/-- The page with a MAPC in front, in memory that is not shareable, and four commands to be fetched
around its end. -/
def wrapIts : ItsSys where
  gic := .init .gicV3 1 64
  its := { Gits.init with cbaser := 0x8000000000050000, creadr := 4032, cwriter := 64 }
  bus := { queueBus with
    mem a := if a = 0x50000 then 9 else if a = 0x50017 then 0x80 else queueBus.mem a }

/-- All of them are executed. -/
theorem commands_fetched : wrapIts.Fetches 4032 ∧
    wrapIts.fetchCommands.1 = [4032, 4064, 0, 32] := by
  have hslot : wrapIts.its.creadr = UInt64.ofNat 4032 := rfl
  refine ⟨(fetches_iff (by decide) ⟨by decide, by decide⟩ ⟨by decide, by decide⟩ (.inl hslot)).2 ?_,
    by decide +kernel⟩
  unfold QueueKept
  rw [if_pos hslot]
  exact .inr (.inl (by decide))

/-- After the last one the ITS stalls past the end of the queue. -/
theorem last_command_passed : ∃ (s : ItsSys) (p : ℕ), s.its.cbaser >>> 63 ≠ 0 ∧
    Slot s.its.queueSize p ∧ Slot s.its.queueSize s.its.cwriter.toNat ∧
      s.its.creadr = UInt64.ofNat p ∧ ¬s.Fetches p := by
  have hp : Slot (queueIts 4064 0).its.queueSize 4064 := ⟨by decide, by decide⟩
  have hw : Slot (queueIts 4064 0).its.queueSize (queueIts 4064 0).its.cwriter.toNat :=
    ⟨by decide, by decide⟩
  have hread : (queueIts 4064 0).bus.readCommand
      ((queueIts 4064 0).its.queueBase + UInt64.ofNat 4064) = some (5, 0, 0, 0) := by
    decide +kernel
  have hend : (queueIts 4064 0).ReachesEnd 4064 := by
    refine ⟨queueIts 4064 0, ?_⟩
    have hspan : span 4064 (((queueIts 4064 0).its.queueSize - 4064) / 32) = [4064] := by decide
    rw [hspan, runSlots, hread]
    rfl
  exact ⟨queueIts 4064 0, 4064, by decide, hp, hw, rfl,
    not_fetches_of_passed (by decide) hp hw rfl (by decide) (by decide) hend⟩

end ItsSys

end Vml
