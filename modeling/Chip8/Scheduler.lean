import Chip8.Clock
import Chip8.OsError

/-!
# The scheduler

Two clocks drive one machine, each from a worker of its own; a controller starts and stops them.
They share the machine, a run flag and a fault cell, and move in any order. `Scheduler.next` gives
the effect of a single move, or nothing if the one who should move has to wait.

* A worker looks at the run flag, takes the machine for one whole tick, and looks again. It leaves
  once the flag is down, the tick halts, or a collaborator breaks down, and takes the flag down as
  it leaves.
* Starting waits for the workers of an earlier run, forgets the last fault, raises the flag and
  starts two workers. If one of them cannot be started, everything is stopped again.
* Stopping takes the flag down and waits for the workers.

A worker that holds the machine keeps everybody else from it. What a move lets others see is listed
as `Effect`s.
-/

namespace Chip8.Scheduler

/-! ## State -/

/-- What a worker does at each tick. The instruction clock's notes live with its worker. -/
inductive Job where
  | instructions (clock : InstructionClock)
  | timers
  deriving DecidableEq

/-- Those who move, and write log records. -/
inductive Actor where
  | controller
  | instructions
  | timers
  deriving DecidableEq

/-- The worker of a job. -/
def Job.actor : Job → Actor
  | .instructions _ => .instructions
  | .timers => .timers

/-- The name a worker goes by. -/
def Actor.name : Actor → String
  | .controller => "main"
  | .instructions => "chip8-cpu"
  | .timers => "chip8-timers"

/-- Where a worker stands. -/
inductive Stage where
  /-- About to look at the run flag. -/
  | checking
  /-- Has seen the flag up and waits for the machine. -/
  | waiting
  /-- Holds the machine; the step at this address has ended so, and is about to be published. -/
  | stepped (pc : UInt16) (outcome : Except Fault Unit)
  /-- Holds the machine; the timers are counted, and the level is about to be reported. -/
  | counted (level : Bool)
  /-- Has let go of the machine for good, and is about to take the flag down. -/
  | leaving (brokeDown : Bool)
  /-- Does nothing any more. -/
  | ended (brokeDown : Bool)

/-- Whether a worker at this stage holds the machine. -/
def Stage.holds : Stage → Bool
  | .stepped _ _ | .counted _ => true
  | .checking | .waiting | .leaving _ | .ended _ => false

/-- A worker: its job, the run that started it, and where it stands. -/
structure Worker where
  job : Job
  run : Nat
  stage : Stage := .checking

/-- What the controller goes on to do when all workers have ended. -/
inductive AfterWait where
  /-- Start the clocks. -/
  | start
  /-- Return from stopping: whether the flag was up, and why starting failed if it did. -/
  | finish (wasRunning : Bool) (failure : Option OsError)
  deriving DecidableEq

/-- Where the controller stands. -/
inductive Phase where
  /-- No call is under way. -/
  | idle
  /-- Waits for the workers, one after the other. -/
  | awaiting (after : AfterWait)
  /-- About to forget the last fault. -/
  | forgetting
  /-- About to raise the flag. -/
  | raising
  /-- About to start the worker of a job. -/
  | spawning (job : Job)
  /-- About to return from starting. -/
  | announcing
  deriving DecidableEq

end Scheduler

open Scheduler in
/-- A scheduler with its machine and collaborators. -/
structure Scheduler (ρ α : Type) where
  machine : Machine
  renderer : ρ
  audio : α
  /-- The run flag. -/
  running : Bool := false
  /-- The fault that halted the clocks. -/
  fault : Option Fault := none
  /-- The workers that were not waited for yet, in the order they were started. -/
  workers : List Worker := []
  phase : Phase := .idle
  /-- How many runs were started. -/
  runs : Nat := 0
  /-- Instructions a second. -/
  ips : Nat

namespace Scheduler

variable {ρ α : Type}

/-- A scheduler at rest; the rate is taken from the machine. -/
def new (machine : Machine) (renderer : ρ) (audio : α) : Scheduler ρ α :=
  { machine, renderer, audio, ips := machine.config.ips.toNat }

/-- Whether a worker holds the machine. -/
def machineHeld (s : Scheduler ρ α) : Bool := s.workers.any (·.stage.holds)

/-! ## Moves -/

/-- What others see of a move. -/
inductive Effect where
  /-- A step was made. -/
  | step (outcome : Except Fault Unit)
  /-- The renderer was called with a screen. -/
  | publish (screen : Screen)
  /-- The timers were counted. -/
  | count
  /-- The audio was called with a level. -/
  | level (on : Bool)
  /-- The keys were set. -/
  | keys (pad : Keypad)
  /-- Something was reported. -/
  | log (actor : Actor) (event : Event)
  /-- A call of the controller returned. -/
  | returned (result : Except OsError Unit)

/-- A possible move. -/
inductive Move where
  /-- The controller is called to start the clocks. -/
  | start
  /-- The controller is called to stop the clocks. -/
  | stop
  /-- The controller goes on with its call; the system starts threads or refuses. -/
  | control (threads : Except OsError Unit)
  /-- The worker at a place goes on. -/
  | work (i : Nat)
  /-- Somebody else sets the keys. -/
  | keys (pad : Keypad)

/-- The scheduler and the effects after a call to start. -/
def callStart (s : Scheduler ρ α) : Option (Scheduler ρ α × List Effect) :=
  match s.phase with
  | .idle =>
    if s.running then some (s, [.returned (.ok ())])
    else some ({ s with phase := .awaiting .start }, [])
  | _ => none

/-- The scheduler and the effects after a call to stop. -/
def callStop (s : Scheduler ρ α) : Option (Scheduler ρ α × List Effect) :=
  match s.phase with
  | .idle =>
    some ({ s with running := false, phase := .awaiting (.finish s.running none) }, [])
  | _ => none

/-- The controller's next move. -/
def control (s : Scheduler ρ α) (threads : Except OsError Unit) :
    Option (Scheduler ρ α × List Effect) :=
  match s.phase with
  | .idle => none
  | .awaiting after =>
    match s.workers, after with
    | [], .start => some ({ s with phase := .forgetting }, [])
    | [], .finish wasRunning failure =>
      some ({ s with phase := .idle },
        (if wasRunning then [.log .controller .stopped] else []) ++
          [.returned (match failure with
            | none => .ok ()
            | some cause => .error cause)])
    | worker :: rest, _ =>
      match worker.stage with
      | .ended brokeDown =>
        some ({ s with workers := rest },
          if brokeDown then [.log .controller .foundBrokenDown] else [])
      | _ => none
  | .forgetting => some ({ s with fault := none, phase := .raising }, [])
  | .raising =>
    some ({ s with running := true, runs := s.runs + 1, phase := .spawning (.instructions {}) }, [])
  | .spawning job =>
    match threads with
    | .ok () =>
      some ({ s with
        workers := s.workers ++ [{ job, run := s.runs }]
        phase := match job with
          | .instructions _ => .spawning .timers
          | .timers => .announcing }, [])
    | .error cause =>
      some ({ s with running := false, phase := .awaiting (.finish s.running (some cause)) }, [])
  | .announcing =>
    some ({ s with phase := .idle },
      [.log .controller (.started (Rate.ofIps s.ips)), .returned (.ok ())])

/-- Puts a worker in place of the one at `i`. -/
def place (s : Scheduler ρ α) (i : Nat) (worker : Worker) : Scheduler ρ α :=
  { s with workers := s.workers.set i worker }

/-- The next move of a worker at `i`. -/
def workAt [Renderer ρ] [Audio α] (s : Scheduler ρ α) (i : Nat) (worker : Worker) :
    Option (Scheduler ρ α × List Effect) :=
  match worker.stage, worker.job with
  | .checking, _ =>
    some (s.place i { worker with stage := if s.running then .waiting else .leaving false }, [])
  | .waiting, .instructions _ =>
    if s.machineHeld then none
    else
      let outcome := s.machine.step
      some ({ s.place i { worker with stage := .stepped s.machine.pc outcome.1 } with
          machine := outcome.2 },
        .step outcome.1 ::
          (s.machine.stepEvents outcome).map (.log .instructions ·))
  | .waiting, .timers =>
    if s.machineHeld then none
    else
      let (level, machine) := s.machine.tickTimers
      some ({ s.place i { worker with stage := .counted level } with machine }, [.count])
  | .stepped pc outcome, .instructions clock =>
    let call := Renderer.publish s.renderer s.machine.screen
    let s := { s with renderer := call.state }
    if call.brokeDown then
      some (s.place i { worker with stage := .leaving true }, [.publish s.machine.screen])
    else
      let (verdict, clock, events) := clock.observe pc outcome
      let effects := .publish s.machine.screen :: events.map (.log .instructions ·)
      match verdict with
      | .proceed =>
        some (s.place i { worker with job := .instructions clock, stage := .checking }, effects)
      | .halt fault =>
        -- the fault is noted while the flag is still up
        some ({ s.place i { worker with job := .instructions clock, stage := .leaving false } with
          fault := some fault }, effects)
  | .counted level, .timers =>
    let call := Audio.setBeeping s.audio level
    let s := { s with audio := call.state }
    some (s.place i { worker with stage := if call.brokeDown then .leaving true else .checking },
      [.level level])
  | .leaving brokeDown, job =>
    -- the flag may be up or down by now; it is down afterwards
    some ({ s.place i { worker with stage := .ended brokeDown } with running := false },
      if brokeDown then [.log job.actor (.brokeDown job.actor.name)] else [])
  | .stepped _ _, .timers | .counted _, .instructions _ | .ended _, _ => none

/-- The next move of the worker at a place. -/
def work [Renderer ρ] [Audio α] (s : Scheduler ρ α) (i : Nat) :
    Option (Scheduler ρ α × List Effect) := do
  s.workAt i (← s.workers[i]?)

/-- The scheduler and the effects after a move, or nothing if it has to wait. -/
def next [Renderer ρ] [Audio α] (s : Scheduler ρ α) :
    Move → Option (Scheduler ρ α × List Effect)
  | .start => s.callStart
  | .stop => s.callStop
  | .control threads => s.control threads
  | .work i => s.work i
  | .keys pad =>
    if s.machineHeld then none
    else some ({ s with machine := { s.machine with keypad := pad } }, [.keys pad])

end Chip8.Scheduler
