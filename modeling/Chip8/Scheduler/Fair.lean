import Chip8.Scheduler

/-!
# Fair runs

Moves can come in any order; the runs here take turns. Calls are carried through to their end, with
workers moving only where the controller waits for them. Between calls the workers tick in rounds,
the instruction clock as often in a round as its rate is a multiple of the timers' rate.

A run keeps the log of its moves up to a level, the latest record first.
-/

namespace Chip8.Scheduler

variable {ρ α : Type} [Renderer ρ] [Audio α]

/-- A scheduler and its log so far, the latest record first. -/
structure Logged (ρ α : Type) where
  scheduler : Scheduler ρ α
  /-- The level of the log. -/
  limit : Option Level
  reversed : List (Actor × Event) := []

namespace Logged

/-- The records of an actor in order. -/
def log (run : Logged ρ α) (actor : Actor) : List Event :=
  (run.reversed.filter (·.1 = actor)).reverse.map (·.2)

/-- Adds an actor's records to the log, those of its level. -/
def note (run : Logged ρ α) (actor : Actor) (events : List Event) : Logged ρ α :=
  { run with reversed := ((Event.kept run.limit events).map (actor, ·)).reverse ++ run.reversed }

/-- Adds what an effect reports to the log. -/
def noteEffect (run : Logged ρ α) : Effect → Logged ρ α
  | .log actor event => run.note actor [event]
  | _ => run

/-- The result that a call returned among the effects. -/
def result : List Effect → Option (Except OsError Unit)
  | [] => none
  | .returned result :: _ => some result
  | _ :: effects => result effects

/-- Makes a move if it is possible; gives the effects with it. -/
def move (run : Logged ρ α) (m : Move) : Option (Logged ρ α × List Effect) :=
  (run.scheduler.next m).map fun (scheduler, effects) =>
    (effects.foldl noteEffect { run with scheduler }, effects)

/-- Makes a move if it is possible, and stays otherwise. -/
def tryMove (run : Logged ρ α) (m : Move) : Logged ρ α := ((run.move m).map (·.1)).getD run

/-- Lets every worker move once. -/
def moveWorkers (run : Logged ρ α) : Logged ρ α :=
  (List.range run.scheduler.workers.length).foldl (fun run i => run.tryMove (.work i)) run

/-! ## Calls -/

/-- Carries a call through, in at most so many moves of the controller and turns of the workers. -/
def carryOn (threads : Except OsError Unit) :
    Nat → Logged ρ α → Logged ρ α × Except OsError Unit
  | 0, run => (run, .ok ())
  | turns + 1, run =>
    match run.move (.control threads) with
    | some (run, effects) =>
      match result effects with
      | some result => (run, result)
      | none => carryOn threads turns run
    | none => carryOn threads turns run.moveWorkers

/-- Makes a call and carries it through. A worker leaves within six turns once the flag is down, so
there is an end to waiting for it. -/
def call (run : Logged ρ α) (m : Move) (threads : Except OsError Unit) :
    Logged ρ α × Except OsError Unit :=
  match run.move m with
  | none => (run, .ok ())
  | some (run, effects) =>
    match result effects with
    | some result => (run, result)
    | none => carryOn threads (16 + 8 * run.scheduler.workers.length) run

/-- Starts the clocks. -/
def start (run : Logged ρ α) (threads : Except OsError Unit) :
    Logged ρ α × Except OsError Unit := run.call .start threads

/-- Stops the clocks. -/
def stop (run : Logged ρ α) : Logged ρ α := (run.call .stop (.ok ())).1

/-! ## Rounds -/

/-- Whether a worker stands between two ticks. -/
def between : Stage → Bool
  | .checking | .ended _ => true
  | _ => false

/-- Moves the worker at a place until it stands between two ticks, at most five times. -/
def tickAt (i : Nat) : Nat → Logged ρ α → Logged ρ α
  | 0, run => run
  | moves + 1, run =>
    let run := run.tryMove (.work i)
    match run.scheduler.workers[i]? with
    | some worker => if between worker.stage then run else tickAt i moves run
    | none => run

/-- One tick of the worker with a job, if it is there. -/
def tick (run : Logged ρ α) (actor : Actor) : Logged ρ α :=
  match run.scheduler.workers.findIdx? (·.job.actor = actor) with
  | some i => tickAt i 5 run
  | none => run

/-- Instruction ticks until the flag is down, at most so many. -/
def instructionTicks : Nat → Logged ρ α → Logged ρ α
  | 0, run => run
  | n + 1, run => if run.scheduler.running then instructionTicks n (run.tick .instructions) else run

/-- The instruction ticks of a round, between one and a thousand. -/
def ticksPerRound (s : Scheduler ρ α) : Nat := max 1 (min 1000 (s.ips / Timers.hertz))

/-- One round: the instruction ticks and one timer tick. -/
def round (run : Logged ρ α) : Logged ρ α :=
  let run := instructionTicks (ticksPerRound run.scheduler) run
  if run.scheduler.running then run.tick .timers else run

/-- Rounds until the flag is down or the scheduler is as asked for, at most so many. -/
def roundsUntil (asked : Scheduler ρ α → Bool) : Nat → Logged ρ α → Logged ρ α
  | 0, run => run
  | n + 1, run =>
    if run.scheduler.running && !asked run.scheduler then roundsUntil asked n run.round else run

/-- How many rounds are run before waiting is given up. -/
def patience : Nat := 1000000

/-- Rounds until the scheduler is as asked for or the clocks have come to rest on their own. -/
def waitFor (asked : Scheduler ρ α → Bool) (run : Logged ρ α) : Logged ρ α :=
  roundsUntil asked patience run

/-- Rounds until the clocks have come to rest on their own. -/
def wait (run : Logged ρ α) : Logged ρ α := run.waitFor fun _ => false

end Logged

end Chip8.Scheduler
