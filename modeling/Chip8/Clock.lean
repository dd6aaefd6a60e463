import Chip8.Collaborator
import Chip8.Event

/-!
# Clock ticks

An instruction tick is one step of the machine followed by publishing the screen; a timer tick is
one count of both timers followed by reporting the sound level.

The instruction clock reports faults. A fatal one halts. Any other is reported and execution goes
on; a stack fault leaves the program counter where it was, so it comes back at every tick, and of a
row of the same fault at the same address only the first is reported, and the number of the others
once the row ends.
-/

namespace Chip8

/-- What an instruction tick asks for. -/
inductive Verdict where
  /-- Go on ticking. -/
  | proceed
  /-- Stop both clocks for a fatal fault. -/
  | halt (fault : Fault)
  deriving DecidableEq

/-- The row of faults that is open, by address and fault, and how many of it were not reported. -/
structure InstructionClock where
  repeating : Option (UInt16 × Fault) := none
  suppressed : Nat := 0
  deriving DecidableEq

namespace InstructionClock

/-- What closing the open row reports: the faults that were held back, if any. -/
def closing (clock : InstructionClock) : List Event :=
  match clock.repeating with
  | some (pc, fault) => if clock.suppressed = 0 then [] else [.repeated pc fault clock.suppressed]
  | none => []

/-- Takes note of how the step at an address ended. -/
def observe (clock : InstructionClock) (pc : UInt16) :
    Except Fault Unit → Verdict × InstructionClock × List Event
  | .ok () => (.proceed, {}, clock.closing)
  | .error fault =>
    if fault.isFatal then (.halt fault, {}, clock.closing ++ [.halting pc fault])
    else if clock.repeating = some (pc, fault) then
      (.proceed, { clock with suppressed := clock.suppressed + 1 }, [])
    else (.proceed, { repeating := some (pc, fault) }, clock.closing ++ [.recovered pc fault])

/-- What an instruction tick leaves behind. The verdict is missing if the renderer broke down; the
clock has then taken no note of the step. -/
structure Tick (ρ : Type) where
  verdict : Option Verdict
  clock : InstructionClock
  machine : Machine
  renderer : ρ
  events : List Event

/-- One instruction tick. -/
def tick {ρ : Type} [Renderer ρ] (clock : InstructionClock) (m : Machine) (renderer : ρ) :
    Tick ρ :=
  let outcome := m.step
  let events := m.stepEvents outcome
  let call := Renderer.publish renderer outcome.2.screen
  -- the step is done all the same
  if call.brokeDown then
    { verdict := none, clock, machine := outcome.2, renderer := call.state, events }
  else
    let (verdict, clock, noted) := clock.observe m.pc outcome.1
    { verdict, clock, machine := outcome.2, renderer := call.state, events := events ++ noted }

instance : Inspect InstructionClock where
  form clock := .record "InstructionClock"
    [.field "repeating" (.option (clock.repeating.map fun (pc, fault) =>
      .tuple "" [.nat pc.toNat, Inspect.form fault])),
     .field "suppressed" (.nat clock.suppressed)]

end InstructionClock

/-- One timer tick: the machine and what the call to the audio left behind. -/
def timerTick {α : Type} [Audio α] (m : Machine) (audio : α) : Machine × Call α :=
  let (level, m) := m.tickTimers
  (m, Audio.setBeeping audio level)

end Chip8
