import Mathlib.Algebra.GroupWithZero.Nat
import Mathlib.Data.List.SplitBy
import Chip8.Clock

/-!
# The log of faults

* `blocks` — a row of ticks, cut where the address or the fault changes
* `report` — what a log should hold about such blocks
* `log_is_run_length_encoding` — after any row of ticks the clock has logged just that, and holds
  back just the faults of the open block that were not reported yet

The clock keeps no more than the address and the fault of the last tick and a counter. `Follows`
says what these are in terms of the last block; the rest is one tick more at the end of a row
(`Follows.observe`).
-/

namespace Chip8

/-- A record of a log. -/
abbrev Line := Level × String

/-- An event as it stands in a log. -/
def Event.line (event : Event) : Line := (event.level, event.text)

/-- How many failures an event reports, of those with this fault at this address. -/
def Event.reported (row : UInt16 × Fault) : Event → Nat
  | .recovered pc fault => if (pc, fault) = row then 1 else 0
  | .repeated pc fault times => if (pc, fault) = row then times else 0
  | _ => 0

/-! ## Blocks -/

/-- How the step of a tick ended, and at which address. -/
structure Note where
  pc : UInt16
  outcome : Except Fault Unit

namespace Note

/-- The address and the fault of a tick that failed without halting. -/
def mild (note : Note) : Option (UInt16 × Fault) :=
  match note.outcome with
  | .ok () => none
  | .error fault => if fault.isFatal then none else some (note.pc, fault)

/-- Whether a tick goes on with the block of the tick before it. -/
def continues (before note : Note) : Bool := note.mild.isSome && note.mild = before.mild

/-- The record of a tick that does not go on with a block. -/
def lines (note : Note) : List Line :=
  let place := Hex.lower 3 note.pc.toNat
  match note.outcome with
  | .ok () => []
  | .error fault =>
    if fault.isFatal then [(.error, "Halting at " ++ place ++ ": " ++ fault.message)]
    else [(.warn, place ++ ": " ++ fault.message)]

/-- What the clock reports of a tick that does not go on with a block. -/
def events (note : Note) : List Event :=
  match note.outcome with
  | .ok () => []
  | .error fault =>
    if fault.isFatal then [.halting note.pc fault] else [.recovered note.pc fault]

theorem map_line_events (note : Note) : note.events.map Event.line = note.lines := by
  obtain ⟨pc, fault | ⟨⟩⟩ := note
  · simp only [events, lines]
    split <;> rfl
  · rfl

theorem mild_eq_some {note : Note} {pc : UInt16} {fault : Fault} :
    note.mild = some (pc, fault) ↔ note = ⟨pc, .error fault⟩ ∧ fault.isFatal = false := by
  obtain ⟨pc', _ | fault'⟩ := note
  · simp only [mild, mk.injEq, Except.error.injEq]
    split
    · next fatal =>
      constructor
      · exact fun h => nomatch h
      · rintro ⟨⟨rfl, rfl⟩, mild⟩
        rw [fatal] at mild
        cases mild
    · next mild =>
      simp only [Option.some.injEq, Prod.mk.injEq]
      constructor
      · rintro ⟨rfl, rfl⟩
        exact ⟨⟨rfl, rfl⟩, Bool.not_eq_true _ ▸ mild⟩
      · rintro ⟨both, -⟩
        exact both
  · simp [mild]

end Note

/-- The longest rows of ticks that fail at one address with one fault and do not halt. Any other
tick stands alone. -/
def blocks (notes : List Note) : List (List Note) := notes.splitBy Note.continues

/-- The record of the first tick of a block. -/
def openingLines (block : List Note) : List Line := block.head?.toList.flatMap Note.lines

/-- The record of the other ticks of a block, if there are any. -/
def closingLines (block : List Note) : List Line :=
  match block with
  | ⟨pc, .error fault⟩ :: _ :: _ =>
    [(.warn, Hex.lower 3 pc.toNat ++ ": " ++ fault.message ++
      " (repeated " ++ toString (block.length - 1) ++ " more times)")]
  | _ => []

/-- What a log should hold about a row of blocks of which the last may go on. -/
def report (blocks : List (List Note)) : List Line :=
  blocks.dropLast.flatMap (fun block => openingLines block ++ closingLines block) ++
    blocks.getLast?.toList.flatMap openingLines

/-- The last block if it may go on, and nothing otherwise. -/
def openBlock (notes : List Note) : List Note :=
  ((blocks notes).getLast?.getD []).filter (·.mild.isSome)

theorem closingLines_replicate (pc : UInt16) (fault : Fault) (k : Nat) :
    closingLines (List.replicate (k + 1) ⟨pc, .error fault⟩) =
      if k = 0 then [] else [(Event.repeated pc fault k).line] := by
  cases k with
  | zero => rfl
  | succ k =>
    let block : List Note := List.replicate (k + 2) ⟨pc, .error fault⟩
    have others : block.length - 1 = k + 1 := by simp [block]
    calc closingLines block = [(Event.repeated pc fault (block.length - 1)).line] := rfl
      _ = [(Event.repeated pc fault (k + 1)).line] := by rw [others]

/-! ### One tick more -/

theorem report_concat (past : List (List Note)) (block : List Note) :
    report (past ++ [block]) =
      report past ++ past.getLast?.toList.flatMap closingLines ++ openingLines block := by
  rcases past.eq_nil_or_concat with rfl | ⟨past, last, rfl⟩
  · simp [report]
  · simp [report]

/-- A tick that goes on with the last block makes it longer. -/
theorem blocks_concat_of_continues {notes block : List Note} {past : List (List Note)}
    {note : Note} (h : blocks notes = past ++ [block])
    (goes_on : ∀ last ∈ block.getLast?, last.continues note = true) :
    blocks (notes ++ [note]) = past ++ [block ++ [note]] := by
  obtain ⟨joined, nonempty, each, between⟩ := List.splitBy_eq_iff.mp h
  have block_ne : block ≠ [] := by
    rintro rfl
    exact nonempty (by simp)
  refine List.splitBy_eq_iff.mpr ⟨?_, ?_, ?_, ?_⟩
  · rw [joined]
    simp
  · simpa using fun h => nonempty (List.mem_append_left _ h)
  · intro b hb
    rcases List.mem_append.mp hb with hb | hb
    · exact each b (List.mem_append_left _ hb)
    · rw [List.mem_singleton.mp hb]
      have chain := each block (by simp)
      refine List.isChain_append.mpr ⟨chain, List.isChain_singleton note, ?_⟩
      simpa using goes_on
  · obtain ⟨front, -, meet⟩ := List.isChain_append.mp between
    refine List.isChain_append.mpr ⟨front, List.isChain_singleton _, ?_⟩
    intro b hb b' hb'
    obtain rfl : block ++ [note] = b' := by simpa using hb'
    obtain ⟨hne, hne', apart⟩ := meet b hb block (by simp)
    refine ⟨hne, by simp, ?_⟩
    rw [List.head_append_of_ne_nil hne']
    exact apart

/-- A tick that does not go on with the last block begins one. -/
theorem blocks_concat_of_stops {notes : List Note} {note : Note}
    (stops : ∀ last ∈ notes.getLast?, last.continues note = false) :
    blocks (notes ++ [note]) = blocks notes ++ [[note]] :=
  List.splitBy_append_cons [] stops

namespace InstructionClock

/-! ## Rows of ticks -/

variable {ρ : Type} [Renderer ρ]

/-- The clock and the events after a row of ticks. Anybody may change the machine between two of
them, and each may have a renderer of its own. -/
def tickAll (clock : InstructionClock) : List (Machine × ρ) → InstructionClock × List Event
  | [] => (clock, [])
  | (m, renderer) :: ticks =>
    let tick := clock.tick m renderer
    let (clock, events) := tick.clock.tickAll ticks
    (clock, tick.events ++ events)

/-- The ticks of a row that were carried through, without those that the renderer broke off. -/
def notes (ticks : List (Machine × ρ)) : List Note :=
  ticks.filterMap fun (m, renderer) =>
    if (Renderer.publish renderer m.step.2.screen).brokeDown then none else some ⟨m.pc, m.step.1⟩

theorem notes_cons (m : Machine) (renderer : ρ) (ticks : List (Machine × ρ)) :
    notes ((m, renderer) :: ticks) =
      (if (Renderer.publish renderer m.step.2.screen).brokeDown then [] else [⟨m.pc, m.step.1⟩]) ++
        notes ticks := by
  simp only [notes, List.filterMap_cons]
  cases (Renderer.publish renderer m.step.2.screen).brokeDown <;> rfl

/-- The clock and the events after it took note of a row of ticks. -/
def observeAll (clock : InstructionClock) : List Note → InstructionClock × List Event
  | [] => (clock, [])
  | note :: notes =>
    let (_, clock, events) := clock.observe note.pc note.outcome
    let (clock, later) := clock.observeAll notes
    (clock, events ++ later)

/-! ### One tick -/

variable {clock : InstructionClock} {note : Note}

/-- A tick that goes on with the open row is counted and not reported. -/
theorem observe_of_continues {row : UInt16 × Fault} (isOpen : clock.repeating = some row)
    (same : note.mild = some row) :
    (clock.observe note.pc note.outcome).2 =
      ({ clock with suppressed := clock.suppressed + 1 }, []) := by
  obtain ⟨pc, fault⟩ := row
  obtain ⟨rfl, mild⟩ := Note.mild_eq_some.mp same
  simp [observe, mild, isOpen]

/-- Any other tick closes the row, is reported itself, and may open a new row. -/
theorem observe_of_stops (stops : note.mild = none ∨ clock.repeating ≠ note.mild) :
    (clock.observe note.pc note.outcome).2 =
      ({ repeating := note.mild }, clock.closing ++ note.events) := by
  obtain ⟨pc, fault | ⟨⟩⟩ := note
  · simp only [Note.mild] at stops
    simp only [observe, Note.mild, Note.events]
    by_cases fatal : fault.isFatal = true
    · simp only [fatal, if_true]
    · simp only [fatal, Bool.false_eq_true, if_false] at stops ⊢
      rw [if_neg (stops.resolve_left (by simp))]
  · simp [observe, Note.mild, Note.events]

/-- A tick either goes on with the open row or is unlike it. -/
theorem observe_cases (clock : InstructionClock) (note : Note) :
    (∃ row, clock.repeating = some row ∧ note.mild = some row ∧
      (clock.observe note.pc note.outcome).2 =
        ({ clock with suppressed := clock.suppressed + 1 }, [])) ∨
    ((note.mild = none ∨ clock.repeating ≠ note.mild) ∧
      (clock.observe note.pc note.outcome).2 =
        ({ repeating := note.mild }, clock.closing ++ note.events)) := by
  by_cases unlike : note.mild = none ∨ clock.repeating ≠ note.mild
  · exact .inr ⟨unlike, observe_of_stops unlike⟩
  · obtain ⟨failed, same⟩ := not_or.mp unlike
    obtain ⟨row, mild⟩ := Option.ne_none_iff_exists'.mp failed
    have isOpen : clock.repeating = some row := (not_not.mp same).trans mild
    exact .inl ⟨row, isOpen, mild, observe_of_continues isOpen mild⟩

/-! ### The clock and the blocks -/

/-- What the clock knows of a row of blocks: the last one, if it may go on. -/
inductive Follows : List (List Note) → InstructionClock → Prop
  | start : Follows [] {}
  | closed {past : List (List Note)} {note : Note} (alone : note.mild = none) :
    Follows (past ++ [[note]]) {}
  | opened {past : List (List Note)} {pc : UInt16} {fault : Fault} {k : Nat}
    (mild : fault.isFatal = false) :
    Follows (past ++ [List.replicate (k + 1) ⟨pc, .error fault⟩])
      { repeating := some (pc, fault), suppressed := k }

theorem Follows.closing {past : List (List Note)} (h : Follows past clock) :
    clock.closing.map Event.line = past.getLast?.toList.flatMap closingLines := by
  cases h with
  | start => rfl
  | @closed past note alone =>
    obtain ⟨pc, _ | ⟨⟩⟩ := note <;> simp [InstructionClock.closing, closingLines]
  | @opened past pc fault k mild =>
    have last : (past ++ [List.replicate (k + 1) (⟨pc, .error fault⟩ : Note)]).getLast? =
        some (List.replicate (k + 1) ⟨pc, .error fault⟩) := by simp
    rw [last, Option.toList_some, List.flatMap_singleton, closingLines_replicate]
    cases k with
    | zero => rfl
    | succ k => rfl

theorem Follows.suppressed {notes : List Note} (h : Follows (blocks notes) clock) :
    clock.suppressed = (openBlock notes).length - 1 := by
  unfold openBlock
  generalize blocks notes = past at h
  cases h with
  | start => rfl
  | closed alone => simp [alone]
  | opened mild => simp [Note.mild, mild]

/-- The clock goes on to know the last block. -/
theorem Follows.begin (past : List (List Note)) (note : Note) :
    Follows (past ++ [[note]]) { repeating := note.mild } := by
  rcases row : note.mild with _ | ⟨pc, fault⟩
  · exact .closed row
  · obtain ⟨rfl, mild⟩ := Note.mild_eq_some.mp row
    exact .opened (k := 0) mild

/-- The last tick, as the clock knows it. -/
theorem Follows.last {notes : List Note} (h : Follows (blocks notes) clock) {last : Note}
    (mem : last ∈ notes.getLast?) : last.mild = clock.repeating := by
  have joined : notes = (blocks notes).flatten := (List.flatten_splitBy _ _).symm
  rw [joined] at mem
  generalize blocks notes = past at h mem
  cases h with
  | start => cases mem
  | closed alone =>
    obtain rfl : _ = last := by simpa using mem
    exact alone
  | opened mild =>
    obtain rfl : _ = last := by simpa [List.getLast?_replicate] using mem
    simp [Note.mild, mild]

theorem Follows.observe {notes : List Note} (h : Follows (blocks notes) clock) (note : Note) :
    Follows (blocks (notes ++ [note])) (clock.observe note.pc note.outcome).2.1 ∧
    report (blocks (notes ++ [note])) =
      report (blocks notes) ++ (clock.observe note.pc note.outcome).2.2.map Event.line := by
  obtain ⟨row, isOpen, same, e⟩ | ⟨unlike, e⟩ := observe_cases clock note
  · rw [e]
    generalize cut : blocks notes = past at h
    cases h with
    | start => cases isOpen
    | closed alone => cases isOpen
    | @opened past pc fault k mild =>
      obtain rfl : (pc, fault) = row := Option.some.inj isOpen
      obtain ⟨rfl, -⟩ := Note.mild_eq_some.mp same
      have goes_on : ∀ last ∈ (List.replicate (k + 1) (⟨pc, .error fault⟩ : Note)).getLast?,
          last.continues ⟨pc, .error fault⟩ = true := by
        intro last mem
        obtain rfl : _ = last := by simpa [List.getLast?_replicate] using mem
        simp [Note.continues, same]
      rw [blocks_concat_of_continues cut goes_on, ← List.replicate_succ']
      refine ⟨.opened mild, ?_⟩
      rw [report_concat, report_concat]
      simp [openingLines, List.replicate_succ]
  · have stops : ∀ last ∈ notes.getLast?, last.continues note = false := by
      intro last mem
      rw [Note.continues, h.last mem]
      rcases unlike with none | apart
      · simp [none]
      · simp [Ne.symm apart]
    rw [e, blocks_concat_of_stops stops]
    refine ⟨.begin _ note, ?_⟩
    rw [report_concat, ← h.closing, List.map_append, Note.map_line_events, List.append_assoc]
    simp [openingLines]

theorem observeAll_cons (clock : InstructionClock) (note : Note) (notes : List Note) :
    clock.observeAll (note :: notes) =
      (((clock.observe note.pc note.outcome).2.1.observeAll notes).1,
        (clock.observe note.pc note.outcome).2.2 ++
          ((clock.observe note.pc note.outcome).2.1.observeAll notes).2) := rfl

theorem observeAll_concat (clock : InstructionClock) (notes : List Note) (note : Note) :
    clock.observeAll (notes ++ [note]) =
      (((clock.observeAll notes).1.observe note.pc note.outcome).2.1,
        (clock.observeAll notes).2 ++
          ((clock.observeAll notes).1.observe note.pc note.outcome).2.2) := by
  induction notes generalizing clock with
  | nil => simp [observeAll]
  | cons first notes ih => simp only [List.cons_append, observeAll, ih, List.append_assoc]

theorem follows_observeAll (notes : List Note) :
    Follows (blocks notes) (observeAll {} notes).1 ∧
    (observeAll {} notes).2.map Event.line = report (blocks notes) := by
  induction notes using List.reverseRecOn with
  | nil => exact ⟨.start, rfl⟩
  | append_singleton notes note ih =>
    obtain ⟨follows, lines⟩ := ih
    obtain ⟨goes_on, more⟩ := follows.observe note
    rw [observeAll_concat]
    refine ⟨goes_on, ?_⟩
    rw [List.map_append, lines, more]

/-! ### Nothing is lost -/

/-- How many of the ticks in a row are held back from the log. -/
def heldBack (clock : InstructionClock) (row : UInt16 × Fault) : Nat :=
  if clock.repeating = some row then clock.suppressed else 0

theorem sum_reported_closing (clock : InstructionClock) (row : UInt16 × Fault) :
    (clock.closing.map (Event.reported row)).sum = clock.heldBack row := by
  obtain ⟨_ | ⟨pc, fault⟩, suppressed⟩ := clock
  · rfl
  · cases suppressed with
    | zero => simp [closing, heldBack]
    | succ suppressed => simp [closing, heldBack, Event.reported]

theorem sum_reported_events (note : Note) (row : UInt16 × Fault) :
    (note.events.map (Event.reported row)).sum = if note.mild = some row then 1 else 0 := by
  obtain ⟨pc, fault | ⟨⟩⟩ := note
  · simp only [Note.events, Note.mild]
    split
    · rfl
    · simp [Event.reported]
  · rfl

/-- A tick that failed is reported, or one more is held back. -/
theorem reported_observe (clock : InstructionClock) (note : Note) (row : UInt16 × Fault) :
    ((clock.observe note.pc note.outcome).2.2.map (Event.reported row)).sum +
        (clock.observe note.pc note.outcome).2.1.heldBack row =
      (if note.mild = some row then 1 else 0) + clock.heldBack row := by
  obtain ⟨own, isOpen, same, e⟩ | ⟨-, e⟩ := observe_cases clock note
  · rw [e]
    simp only [heldBack, same, isOpen]
    split <;> simp [Nat.add_comm]
  · rw [e, List.map_append, List.sum_append, sum_reported_closing, sum_reported_events]
    simp [heldBack, Nat.add_comm]

theorem reported_observeAll (clock : InstructionClock) (notes : List Note)
    (row : UInt16 × Fault) :
    ((clock.observeAll notes).2.map (Event.reported row)).sum +
        (clock.observeAll notes).1.heldBack row =
      notes.countP (·.mild = some row) + clock.heldBack row := by
  induction notes generalizing clock with
  | nil => simp [observeAll]
  | cons note notes ih =>
    have first := reported_observe clock note row
    have later := ih (clock.observe note.pc note.outcome).2.1
    simp only [observeAll_cons, List.map_append, List.sum_append, List.countP_cons,
      decide_eq_true_eq]
    omega

/-! ### Ticks -/

theorem kept_stepEvents (m : Machine) (outcome : Except Fault Unit × Machine) :
    Event.kept (some .warn) (m.stepEvents outcome) = [] := by
  obtain ⟨_ | ⟨⟩, m'⟩ := outcome
  all_goals
    simp only [Machine.stepEvents]
    split <;> simp [Event.kept, Event.level, Level.rank]

theorem kept_closing (clock : InstructionClock) :
    Event.kept (some .warn) clock.closing = clock.closing := by
  unfold closing
  repeat' split
  all_goals rfl

theorem kept_events (note : Note) : Event.kept (some .warn) note.events = note.events := by
  unfold Note.events
  repeat' split
  all_goals rfl

theorem kept_append (events later : List Event) :
    Event.kept (some .warn) (events ++ later) =
      Event.kept (some .warn) events ++ Event.kept (some .warn) later :=
  List.filter_append ..

theorem kept_observe (clock : InstructionClock) (note : Note) :
    Event.kept (some .warn) (clock.observe note.pc note.outcome).2.2 =
      (clock.observe note.pc note.outcome).2.2 := by
  obtain ⟨_, -, -, e⟩ | ⟨-, e⟩ := observe_cases clock note
  · rw [e]
    rfl
  · rw [e, kept_append, kept_closing, kept_events]

/-- Of a row of ticks, the log holds what the clock notes. -/
theorem tickAll_eq_observeAll (clock : InstructionClock) (ticks : List (Machine × ρ)) :
    (clock.tickAll ticks).1 = (clock.observeAll (notes ticks)).1 ∧
    Event.kept (some .warn) (clock.tickAll ticks).2 = (clock.observeAll (notes ticks)).2 := by
  induction ticks generalizing clock with
  | nil => exact ⟨rfl, rfl⟩
  | cons tick ticks ih =>
    obtain ⟨m, renderer⟩ := tick
    simp only [tickAll, notes_cons, InstructionClock.tick]
    cases (Renderer.publish renderer m.step.2.screen).brokeDown with
    | true =>
      simp only [if_true, kept_append, kept_stepEvents, List.nil_append]
      exact ih clock
    | false =>
      simp only [Bool.false_eq_true, if_false, kept_append, kept_stepEvents, List.nil_append]
      have first := kept_observe clock ⟨m.pc, m.step.1⟩
      obtain ⟨after, later⟩ := ih (clock.observe m.pc m.step.1).2.1
      rw [List.singleton_append, observeAll_cons]
      exact ⟨after, congrArg₂ _ first later⟩

/--
**The log of faults is their run-length encoding.**

Take any ticks of a new clock, on machines that anybody may have changed in between. Cut them into
blocks: as many ticks in a row as fail at one address with one fault that does not halt; any other
tick stands alone. The warnings and errors in the log are then these, in order: for each block a
warning when it begins, and when it ends, if it had further ticks, a warning with their number; for
each tick that halts an error. The clock holds back all ticks but the first of the block that is
still open. So for each address and fault, the failures are those that were reported and those that
are held back.

As this is so after every tick, the second record of a block comes with the tick that ends it, and
before that tick's own. A tick that the renderer breaks off comes to nothing and is not counted.
-/
theorem log_is_run_length_encoding (ticks : List (Machine × ρ)) :
    (Event.kept (some .warn) (tickAll {} ticks).2).map Event.line = report (blocks (notes ticks)) ∧
    (tickAll {} ticks).1.suppressed = (openBlock (notes ticks)).length - 1 ∧
    (∀ row, (notes ticks).countP (·.mild = some row) =
      ((Event.kept (some .warn) (tickAll {} ticks).2).map (Event.reported row)).sum +
        (tickAll {} ticks).1.heldBack row) ∧
    ((∀ tick ∈ ticks, (Renderer.publish tick.2 tick.1.step.2.screen).brokeDown = false) →
      notes ticks = ticks.map fun tick => ⟨tick.1.pc, tick.1.step.1⟩) := by
  obtain ⟨after, events⟩ := tickAll_eq_observeAll {} ticks
  obtain ⟨follows, lines⟩ := follows_observeAll (notes ticks)
  rw [after, events]
  refine ⟨lines, follows.suppressed, ?_, ?_⟩
  · intro row
    exact (reported_observeAll {} (notes ticks) row).symm
  · intro fine
    rw [notes, ← List.filterMap_eq_map]
    refine List.filterMap_congr ?_
    intro tick h
    simp [fine tick h]

/-- Three ticks at a word that is no instruction, and one with the program counter on the last
byte. -/
def strayTicks : List (Machine × Headless) :=
  List.replicate 3 (.fresh {} (.ofSeed 0), Headless.mk) ++
    [({ Machine.fresh {} (.ofSeed 0) with pc := 0xFFF }, Headless.mk)]

theorem log_is_run_length_encoding_stray :
    (∀ tick ∈ strayTicks,
      (Renderer.publish tick.2 tick.1.step.2.screen).brokeDown = false) ∧
    (notes strayTicks).map (·.pc) = [0x200, 0x200, 0x200, 0xFFF] ∧
    (Event.kept (some .warn) (tickAll {} strayTicks).2).map Event.line =
      [(.warn, "200: unknown opcode 0x0000"),
       (.warn, "200: unknown opcode 0x0000 (repeated 2 more times)"),
       (.error, "Halting at fff: invalid memory address 0x1000")] := by
  have fine : ∀ tick ∈ strayTicks,
      (Renderer.publish tick.2 tick.1.step.2.screen).brokeDown = false := fun _ _ => rfl
  obtain ⟨lines, -, -, all⟩ := log_is_run_length_encoding strayTicks
  refine ⟨fine, ?_, ?_⟩
  · rw [all fine]
    rfl
  · rw [lines, all fine]
    decide +kernel

end InstructionClock

end Chip8
