import Chip8.Proofs.Effect

/-!
# Runs

What can be done to a machine from outside, one piece at a time, and the machine after a row of such
pieces. A `Pulse` is what happens while a program runs: a step, a timer tick or a change of keys, in
any order. A `Command` is a pulse or one of the calls that load, reset, fetch or execute by hand.

* `obeyAll_induction` — what every command keeps, every run keeps
* `load_cases`, `fetch_snd` — what the calls by hand can do to a machine
-/

namespace Chip8

/-- A change of keys. -/
inductive KeyChange where
  | press (key : UInt8)
  | release (key : UInt8)
  | setAll (keys : Vector Bool 16)
  | releaseAll

/-- The keypad after a change of keys. -/
def Keypad.change (pad : Keypad) : KeyChange → Keypad
  | .press key => pad.press key
  | .release key => pad.release key
  | .setAll keys => ⟨keys⟩
  | .releaseAll => .released

/-- What happens to a machine while it runs. -/
inductive Pulse where
  | step
  | tick
  | keys (change : KeyChange)

/-- What a machine can be told. A generator is drawn for each fresh start, and is looked at only
where the configuration has no seed. -/
inductive Command where
  | load (program : List UInt8) (drawn : Random)
  | reset (drawn : Random)
  | fetch
  /-- Carries out the operation that a word stands for, wherever the program counter is. -/
  | exec (word : UInt16)
  | pulse (pulse : Pulse)

/-- What a command gives back. -/
inductive Answer where
  | nothing
  | outcome (result : Except Fault Unit)
  | fetched (result : Except Fault Op)
  | level (on : Bool)

namespace Machine

/-- The machine after a pulse, whether the step went well or not. -/
def pulse (m : Machine) : Pulse → Machine
  | .step => m.step.2
  | .tick => m.tickTimers.2
  | .keys change => { m with keypad := m.keypad.change change }

/-- The machine after a row of pulses. -/
def pulseAll (m : Machine) (pulses : List Pulse) : Machine := pulses.foldl pulse m

/-- The machines that the steps among a row of pulses start from, in order. -/
def beforeSteps (m : Machine) : List Pulse → List Machine
  | [] => []
  | .step :: pulses => m :: m.step.2.beforeSteps pulses
  | .tick :: pulses => m.tickTimers.2.beforeSteps pulses
  | .keys change :: pulses => (m.pulse (.keys change)).beforeSteps pulses

/-- How the steps among a row of pulses end, in order. -/
def outcomes (m : Machine) (pulses : List Pulse) : List (Except Fault Unit) :=
  (m.beforeSteps pulses).map (·.step.1)

/-- The machine after a command, whether it went well or not. -/
def obey (m : Machine) : Command → Machine
  | .load program drawn => (m.load program drawn).2
  | .reset drawn => m.reset drawn
  | .fetch => m.fetch.2
  | .exec word => (Chip8.Machine.exec (.decode word) m).2
  | .pulse p => m.pulse p

/-- What a command gives back on a machine. -/
def answer (m : Machine) : Command → Answer
  | .load program drawn => .outcome (m.load program drawn).1
  | .reset _ | .pulse (.keys _) => .nothing
  | .fetch => .fetched m.fetch.1
  | .exec word => .outcome (Chip8.Machine.exec (.decode word) m).1
  | .pulse .step => .outcome m.step.1
  | .pulse .tick => .level m.tickTimers.1

/-- The machine after a row of commands. -/
def obeyAll (m : Machine) (commands : List Command) : Machine := commands.foldl obey m

/-- What a row of commands gives back, in order. -/
def answers (m : Machine) : List Command → List Answer
  | [] => []
  | command :: commands => m.answer command :: (m.obey command).answers commands

/-- What holds at the start and is kept by every command holds after every run. -/
theorem obeyAll_induction {P : Machine → Prop} (keep : ∀ m command, P m → P (m.obey command))
    {m : Machine} (start : P m) (commands : List Command) : P (m.obeyAll commands) := by
  induction commands generalizing m with
  | nil => exact start
  | cons command commands ih => exact ih (keep m command start)

/-! ## Fresh starts -/

/-- Loading starts over, or leaves the machine alone. -/
theorem load_cases (m : Machine) (program : List UInt8) (drawn : Random) :
    (∃ memory, m.load program drawn = (.ok (), { fresh m.config drawn with memory })) ∨
    (∃ fault, m.load program drawn = (.error fault, m)) := by
  simp only [load, reset]
  cases (fresh m.config drawn).memory.load program Memory.programStart.toNat with
  | ok memory => exact Or.inl ⟨memory, rfl⟩
  | error fault => exact Or.inr ⟨fault, rfl⟩

/-- Fetching moves on by one instruction, or leaves the machine alone. -/
theorem fetch_snd (m : Machine) : m.fetch.2 = m.advance ∨ m.fetch.2 = m := by
  simp only [fetch]
  cases m.memory.readWord m.pc with
  | ok word => exact Or.inl rfl
  | error fault => exact Or.inr rfl

end Machine

end Chip8
