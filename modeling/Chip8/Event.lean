import Chip8.Machine.Exec
import Chip8.Rate

/-!
# Log events

What the machine and its clocks report, as values: each event has a level and a text, and a log
keeps the events up to its own level.
-/

namespace Chip8

/-- How important a log event is, most important first. -/
inductive Level where
  | error
  | warn
  | info
  | debug
  | trace
  deriving DecidableEq

namespace Level

/-- The place of a level in the order of importance. -/
def rank : Level → Nat
  | .error => 1
  | .warn => 2
  | .info => 3
  | .debug => 4
  | .trace => 5

/-- The name a level is written under. -/
def name : Level → String
  | .error => "ERROR"
  | .warn => "WARN"
  | .info => "INFO"
  | .debug => "DEBUG"
  | .trace => "TRACE"

end Level

/-- Something that is reported. -/
inductive Event where
  /-- An operation was read at an address. -/
  | executing (pc : UInt16) (op : Op)
  /-- A step went well and left this machine behind. -/
  | stepped (m : Machine)
  /-- A program of so many bytes was loaded. -/
  | loaded (size : Nat)
  /-- An instruction failed and execution goes on. -/
  | recovered (pc : UInt16) (fault : Fault)
  /-- The same failure came back so many more times. -/
  | repeated (pc : UInt16) (fault : Fault) (times : Nat)
  /-- An instruction failed and the clocks halt. -/
  | halting (pc : UInt16) (fault : Fault)
  /-- The clocks were started at this instruction rate. -/
  | started (rate : Rate)
  /-- The clocks were stopped. -/
  | stopped
  /-- A clock broke down while ticking. -/
  | brokeDown (clock : String)
  /-- A clock that had broken down was waited for. -/
  | foundBrokenDown
  /-- The thread of a sound output that had broken down was waited for. -/
  | foundSoundBrokenDown
  deriving DecidableEq

namespace Event

/-- The level of an event. -/
def level : Event → Level
  | .executing _ _ => .debug
  | .stepped _ => .trace
  | .loaded _ | .started _ | .stopped => .info
  | .recovered _ _ | .repeated _ _ _ => .warn
  | .halting _ _ | .brokeDown _ | .foundBrokenDown | .foundSoundBrokenDown => .error

/-- The text of an event. -/
def text : Event → String
  | .executing pc op => Hex.lower 3 pc.toNat ++ ": " ++ inspect .compact op
  | .stepped m => inspect .compact m
  | .loaded size => "Loaded ROM [size: " ++ toString size ++ "]"
  | .recovered pc fault => Hex.lower 3 pc.toNat ++ ": " ++ fault.message
  | .repeated pc fault times =>
    Hex.lower 3 pc.toNat ++ ": " ++ fault.message ++
      " (repeated " ++ toString times ++ " more times)"
  | .halting pc fault => "Halting at " ++ Hex.lower 3 pc.toNat ++ ": " ++ fault.message
  | .started rate =>
    "Started [ips: " ++ rate.text ++ "] [timer hz: " ++ toString Timers.hertz ++ "]"
  | .stopped => "Stopped"
  | .brokeDown clock => clock ++ " panicked, halting"
  | .foundBrokenDown => "Clock thread panicked"
  | .foundSoundBrokenDown => "Audio thread panicked"

/-- The events that a log of the given level keeps; a log without a level keeps none. -/
def kept (limit : Option Level) (events : List Event) : List Event :=
  match limit with
  | none => []
  | some limit => events.filter fun event => event.level.rank ≤ limit.rank

end Event

namespace Machine

/-- What a step reports: the operation once it is read, and the machine if all went well. -/
def stepEvents (m : Machine) (outcome : Except Fault Unit × Machine) : List Event :=
  match m.fetch.1 with
  | .error _ => []
  | .ok op =>
    .executing m.pc op :: match outcome with
      | (.ok (), m') => [.stepped m']
      | (.error _, _) => []

/-- What loading a program reports. -/
def loadEvents (program : List UInt8) : Except Fault Unit → List Event
  | .ok () => [.loaded program.length]
  | .error _ => []

/-! ## Runs -/

/-- How far a run of steps has come: the steps that went well, the fault that ended it early, the
machine left behind and what was reported. -/
structure Run where
  steps : Nat := 0
  fault : Option Fault := none
  machine : Machine
  /-- The reports that a log keeps, the latest first. -/
  reversed : List Event := []

namespace Run

/-- The reports in order. -/
def events (run : Run) : List Event := run.reversed.reverse

/-- One more step, with a log of the given level. -/
def next (limit : Option Level) (run : Run) : Run :=
  let outcome := run.machine.step
  let events := Event.kept limit (run.machine.stepEvents outcome)
  let reversed := events.reverse ++ run.reversed
  match outcome with
  | (.ok (), machine) => { run with steps := run.steps + 1, machine, reversed }
  | (.error fault, machine) => { run with fault := some fault, machine, reversed }

/-- Up to `n` more steps, the first that fails being the last. -/
def extend (limit : Option Level) : Nat → Run → Run
  | 0, run => run
  | n + 1, run =>
    let run := run.next limit
    if run.fault.isSome then run else extend limit n run

end Run

/-- Up to `n` steps with a log of the given level, the first that fails being the last. -/
def run (m : Machine) (limit : Option Level) (n : Nat) : Run := Run.extend limit n { machine := m }

end Machine

end Chip8
