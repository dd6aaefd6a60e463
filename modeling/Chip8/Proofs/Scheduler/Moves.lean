import Chip8.Scheduler

/-!
# The ways a move can go

`Works` lists what a worker can do, by where it stands, and `Makes` what anybody can do, by who
moves and in which phase the controller is. Each case names its guard, the scheduler it leaves and
what others see of it.

* `next_eq_some` — these are the moves of `next`, and there are no others
* `nextAll` — a row of moves, by anybody in any order
* `nextAll_kept`, `nextAll_history` — what a row of moves keeps and shows, from what one move does

What is said about schedulers elsewhere starts from the cases and does not open `next` again.
-/

namespace Chip8.Scheduler

variable {ρ α : Type} [Renderer ρ] [Audio α]
variable {s s' : Scheduler ρ α} {i : Nat} {worker : Worker} {m : Move} {effects : List Effect}

/-! ## Workers -/

/-- The moves of a worker at `i`, by where it stands. -/
inductive Works (s : Scheduler ρ α) (i : Nat) : Worker → Scheduler ρ α → List Effect → Prop
  | goOn {job : Job} {run : Nat} (up : s.running = true) :
      Works s i ⟨job, run, .checking⟩ (s.place i ⟨job, run, .waiting⟩) []
  | giveUp {job : Job} {run : Nat} (down : s.running = false) :
      Works s i ⟨job, run, .checking⟩ (s.place i ⟨job, run, .leaving false⟩) []
  | step {clock : InstructionClock} {run : Nat} (free : s.machineHeld = false) :
      Works s i ⟨.instructions clock, run, .waiting⟩
        { s.place i ⟨.instructions clock, run, .stepped s.machine.pc s.machine.step.1⟩ with
          machine := s.machine.step.2 }
        (.step s.machine.step.1 ::
          (s.machine.stepEvents s.machine.step).map (.log .instructions ·))
  | count {run : Nat} (free : s.machineHeld = false) :
      Works s i ⟨.timers, run, .waiting⟩
        { s.place i ⟨.timers, run, .counted s.machine.tickTimers.1⟩ with
          machine := s.machine.tickTimers.2 }
        [.count]
  | publishBroke {clock : InstructionClock} {run : Nat} {pc : UInt16} {outcome : Except Fault Unit}
      (broke : (Renderer.publish s.renderer s.machine.screen).brokeDown = true) :
      Works s i ⟨.instructions clock, run, .stepped pc outcome⟩
        { s.place i ⟨.instructions clock, run, .leaving true⟩ with
          renderer := (Renderer.publish s.renderer s.machine.screen).state }
        [.publish s.machine.screen]
  | proceed {clock noted : InstructionClock} {run : Nat} {pc : UInt16}
      {outcome : Except Fault Unit} {events : List Event}
      (fine : (Renderer.publish s.renderer s.machine.screen).brokeDown = false)
      (verdict : clock.observe pc outcome = (.proceed, noted, events)) :
      Works s i ⟨.instructions clock, run, .stepped pc outcome⟩
        { s.place i ⟨.instructions noted, run, .checking⟩ with
          renderer := (Renderer.publish s.renderer s.machine.screen).state }
        (.publish s.machine.screen :: events.map (.log .instructions ·))
  | halt {clock noted : InstructionClock} {run : Nat} {pc : UInt16} {outcome : Except Fault Unit}
      {fault : Fault} {events : List Event}
      (fine : (Renderer.publish s.renderer s.machine.screen).brokeDown = false)
      (verdict : clock.observe pc outcome = (.halt fault, noted, events)) :
      Works s i ⟨.instructions clock, run, .stepped pc outcome⟩
        { s.place i ⟨.instructions noted, run, .leaving false⟩ with
          renderer := (Renderer.publish s.renderer s.machine.screen).state
          fault := some fault }
        (.publish s.machine.screen :: events.map (.log .instructions ·))
  | levelBroke {run : Nat} {level : Bool}
      (broke : (Audio.setBeeping s.audio level).brokeDown = true) :
      Works s i ⟨.timers, run, .counted level⟩
        { s.place i ⟨.timers, run, .leaving true⟩ with
          audio := (Audio.setBeeping s.audio level).state }
        [.level level]
  | report {run : Nat} {level : Bool}
      (fine : (Audio.setBeeping s.audio level).brokeDown = false) :
      Works s i ⟨.timers, run, .counted level⟩
        { s.place i ⟨.timers, run, .checking⟩ with
          audio := (Audio.setBeeping s.audio level).state }
        [.level level]
  | leave {job : Job} {run : Nat} {brokeDown : Bool} :
      Works s i ⟨job, run, .leaving brokeDown⟩
        { s.place i ⟨job, run, .ended brokeDown⟩ with running := false }
        (if brokeDown then [.log job.actor (.brokeDown job.actor.name)] else [])

/-- Each case is a move the worker makes. -/
theorem Works.workAt (works : Works s i worker s' effects) :
    s.workAt i worker = some (s', effects) := by
  cases works with
  | goOn up => simp only [Scheduler.workAt, up, if_true]
  | giveUp down => simp only [Scheduler.workAt, down, Bool.false_eq_true, if_false]
  | step free => simp only [Scheduler.workAt, free, Bool.false_eq_true, if_false]
  | count free => simp only [Scheduler.workAt, free, Bool.false_eq_true, if_false]
  | publishBroke broke => simp only [Scheduler.workAt, broke, if_true, place]
  | proceed fine verdict =>
    simp only [Scheduler.workAt, fine, verdict, Bool.false_eq_true, if_false, place]
  | halt fine verdict =>
    simp only [Scheduler.workAt, fine, verdict, Bool.false_eq_true, if_false, place]
  | levelBroke broke => simp only [Scheduler.workAt, broke, if_true, place]
  | report fine => simp only [Scheduler.workAt, fine, Bool.false_eq_true, if_false, place]
  | leave => rfl

/-- A worker has one move at most. -/
theorem Works.of_workAt {t : Scheduler ρ α} {seen : List Effect}
    (works : Works s i worker t seen) (h : s.workAt i worker = some (s', effects)) :
    Works s i worker s' effects := by
  have same : (s', effects) = (t, seen) := Option.some.inj (h.symm.trans works.workAt)
  cases same
  exact works

theorem workAt_eq_some :
    s.workAt i worker = some (s', effects) ↔ Works s i worker s' effects := by
  refine ⟨fun h => ?_, Works.workAt⟩
  obtain ⟨job, run, stage⟩ := worker
  cases stage with
  | checking =>
    cases flag : s.running with
    | true => exact (Works.goOn flag).of_workAt h
    | false => exact (Works.giveUp flag).of_workAt h
  | waiting =>
    cases held : s.machineHeld with
    | true => cases job <;> simp [Scheduler.workAt, held] at h
    | false =>
      cases job with
      | instructions clock => exact (Works.step held).of_workAt h
      | timers => exact (Works.count held).of_workAt h
  | stepped pc outcome =>
    cases job with
    | timers => cases h
    | instructions clock =>
      cases call : (Renderer.publish s.renderer s.machine.screen).brokeDown with
      | true => exact (Works.publishBroke call).of_workAt h
      | false =>
        rcases verdict : clock.observe pc outcome with ⟨_ | fault, noted, events⟩
        · exact (Works.proceed call verdict).of_workAt h
        · exact (Works.halt call verdict).of_workAt h
  | counted level =>
    cases job with
    | instructions clock => cases h
    | timers =>
      cases call : (Audio.setBeeping s.audio level).brokeDown with
      | true => exact (Works.levelBroke call).of_workAt h
      | false => exact (Works.report call).of_workAt h
  | leaving brokeDown => exact Works.leave.of_workAt h
  | ended brokeDown => cases h

/-! ## Everybody -/

/-- The moves anybody can make. Those of the controller go by its phase. -/
inductive Makes (s : Scheduler ρ α) : Move → Scheduler ρ α → List Effect → Prop
  | startAgain (phase : s.phase = .idle) (up : s.running = true) :
      Makes s .start s [.returned (.ok ())]
  | start (phase : s.phase = .idle) (down : s.running = false) :
      Makes s .start { s with phase := .awaiting .start } []
  | stop (phase : s.phase = .idle) :
      Makes s .stop { s with running := false, phase := .awaiting (.finish s.running none) } []
  | cleared {threads : Except OsError Unit} (phase : s.phase = .awaiting .start)
      (gone : s.workers = []) :
      Makes s (.control threads) { s with phase := .forgetting } []
  | finish {threads : Except OsError Unit} {wasRunning : Bool} {failure : Option OsError}
      (phase : s.phase = .awaiting (.finish wasRunning failure)) (gone : s.workers = []) :
      Makes s (.control threads) { s with phase := .idle }
        ((if wasRunning then [.log .controller .stopped] else []) ++
          [.returned (failure.elim (.ok ()) .error)])
  | join {threads : Except OsError Unit} {after : AfterWait} {worker : Worker}
      {rest : List Worker} {brokeDown : Bool} (phase : s.phase = .awaiting after)
      (first : s.workers = worker :: rest) (ended : worker.stage = .ended brokeDown) :
      Makes s (.control threads) { s with workers := rest }
        (if brokeDown then [.log .controller .foundBrokenDown] else [])
  | forget {threads : Except OsError Unit} (phase : s.phase = .forgetting) :
      Makes s (.control threads) { s with fault := none, phase := .raising } []
  | raise {threads : Except OsError Unit} (phase : s.phase = .raising) :
      Makes s (.control threads)
        { s with running := true, runs := s.runs + 1, phase := .spawning (.instructions {}) } []
  | spawnInstructions {clock : InstructionClock}
      (phase : s.phase = .spawning (.instructions clock)) :
      Makes s (.control (.ok ()))
        { s with
          workers := s.workers ++ [⟨.instructions clock, s.runs, .checking⟩]
          phase := .spawning .timers } []
  | spawnTimers (phase : s.phase = .spawning .timers) :
      Makes s (.control (.ok ()))
        { s with
          workers := s.workers ++ [⟨.timers, s.runs, .checking⟩]
          phase := .announcing } []
  | refuse {job : Job} {cause : OsError} (phase : s.phase = .spawning job) :
      Makes s (.control (.error cause))
        { s with running := false, phase := .awaiting (.finish s.running (some cause)) } []
  | announce {threads : Except OsError Unit} (phase : s.phase = .announcing) :
      Makes s (.control threads) { s with phase := .idle }
        [.log .controller (.started (Rate.ofIps s.ips)), .returned (.ok ())]
  | work {i : Nat} {worker : Worker} {s' : Scheduler ρ α} {effects : List Effect}
      (there : s.workers[i]? = some worker) (works : Works s i worker s' effects) :
      Makes s (.work i) s' effects
  | keys {pad : Keypad} (free : s.machineHeld = false) :
      Makes s (.keys pad) { s with machine := { s.machine with keypad := pad } } [.keys pad]

/-- Each case is a move that is made. -/
theorem Makes.next (makes : Makes s m s' effects) : s.next m = some (s', effects) := by
  cases makes with
  | startAgain phase up => simp only [Scheduler.next, callStart, phase, up, if_true]
  | start phase down =>
    simp only [Scheduler.next, callStart, phase, down, Bool.false_eq_true, if_false]
  | stop phase => simp only [Scheduler.next, callStop, phase]
  | cleared phase gone => simp only [Scheduler.next, control, phase, gone]
  | @finish _ _ failure phase gone =>
    simp only [Scheduler.next, control, phase, gone]
    cases failure <;> rfl
  | join phase first ended => simp only [Scheduler.next, control, phase, first, ended]
  | forget phase => simp only [Scheduler.next, control, phase]
  | raise phase => simp only [Scheduler.next, control, phase]
  | spawnInstructions phase => simp only [Scheduler.next, control, phase]
  | spawnTimers phase => simp only [Scheduler.next, control, phase]
  | refuse phase => simp only [Scheduler.next, control, phase]
  | announce phase => simp only [Scheduler.next, control, phase]
  | work there works =>
    simp only [Scheduler.next, Scheduler.work, there]
    exact works.workAt
  | keys free => simp only [Scheduler.next, free, Bool.false_eq_true, if_false]

/-- Nobody has a choice: a move goes one way at most. -/
theorem Makes.of_next {t : Scheduler ρ α} {seen : List Effect} (makes : Makes s m t seen)
    (h : s.next m = some (s', effects)) : Makes s m s' effects := by
  have same : (s', effects) = (t, seen) := Option.some.inj (h.symm.trans makes.next)
  cases same
  exact makes

/--
**The moves that are made.**

A scheduler makes a move exactly in the ways listed.
-/
theorem next_eq_some : s.next m = some (s', effects) ↔ Makes s m s' effects := by
  refine ⟨fun h => ?_, Makes.next⟩
  cases m with
  | start =>
    cases phase : s.phase with
    | idle =>
      cases flag : s.running with
      | true => exact (Makes.startAgain phase flag).of_next h
      | false => exact (Makes.start phase flag).of_next h
    | _ => simp [Scheduler.next, callStart, phase] at h
  | stop =>
    cases phase : s.phase with
    | idle => exact (Makes.stop phase).of_next h
    | _ => simp [Scheduler.next, callStop, phase] at h
  | control threads =>
    cases phase : s.phase with
    | idle => simp [Scheduler.next, control, phase] at h
    | awaiting after =>
      cases first : s.workers with
      | nil =>
        cases after with
        | start => exact (Makes.cleared phase first).of_next h
        | finish wasRunning failure => exact (Makes.finish phase first).of_next h
      | cons worker rest =>
        cases stage : worker.stage with
        | ended brokeDown => exact (Makes.join phase first stage).of_next h
        | _ => simp [Scheduler.next, control, phase, first, stage] at h
    | forgetting => exact (Makes.forget phase).of_next h
    | raising => exact (Makes.raise phase).of_next h
    | spawning job =>
      rcases threads with cause | ⟨⟩
      · exact (Makes.refuse phase).of_next h
      · cases job with
        | instructions clock => exact (Makes.spawnInstructions phase).of_next h
        | timers => exact (Makes.spawnTimers phase).of_next h
    | announcing => exact (Makes.announce phase).of_next h
  | work i =>
    cases there : s.workers[i]? with
    | none => simp [Scheduler.next, Scheduler.work, there] at h
    | some worker =>
      simp only [Scheduler.next, Scheduler.work, there] at h
      exact .work there (workAt_eq_some.mp h)
  | keys pad =>
    cases held : s.machineHeld with
    | true => simp [Scheduler.next, held] at h
    | false => exact (Makes.keys held).of_next h

/-! ## Rows of moves -/

/-- The scheduler and the effects after a row of moves, or nothing if one of them has to wait. -/
def nextAll (s : Scheduler ρ α) : List Move → Option (Scheduler ρ α × List Effect)
  | [] => some (s, [])
  | m :: ms => do
    let (s, effects) ← s.next m
    let (s, later) ← s.nextAll ms
    return (s, effects ++ later)

theorem nextAll_cons {ms : List Move} :
    s.nextAll (m :: ms) = some (s', effects) ↔
      ∃ mid seen later, Makes s m mid seen ∧ mid.nextAll ms = some (s', later) ∧
        effects = seen ++ later := by
  simp only [← next_eq_some]
  constructor
  · intro h
    simp only [nextAll, Option.bind_eq_bind, Option.bind_eq_some_iff] at h
    obtain ⟨⟨mid, seen⟩, made, ⟨last, later⟩, rest, e⟩ := h
    cases e
    exact ⟨mid, seen, later, made, rest, rfl⟩
  · rintro ⟨mid, seen, later, made, rest, rfl⟩
    simp only [nextAll, made, rest, Option.bind_eq_bind, Option.bind_some]
    rfl

theorem nextAll_append {mid : Scheduler ρ α} {ms ms' : List Move} {seen later : List Effect}
    (h : s.nextAll ms = some (mid, seen)) (rest : mid.nextAll ms' = some (s', later)) :
    s.nextAll (ms ++ ms') = some (s', seen ++ later) := by
  induction ms generalizing s seen with
  | nil =>
    cases h
    exact rest
  | cons first ms ih =>
    obtain ⟨between, now, more, made, after, rfl⟩ := nextAll_cons.mp h
    exact nextAll_cons.mpr ⟨between, now, _, made, ih after, List.append_assoc ..⟩

theorem nextAll_concat {mid : Scheduler ρ α} {ms : List Move} {seen later : List Effect}
    (h : s.nextAll ms = some (mid, seen)) (makes : Makes mid m s' later) :
    s.nextAll (ms ++ [m]) = some (s', seen ++ later) :=
  nextAll_append h (nextAll_cons.mpr ⟨s', later, [], makes, rfl, (List.append_nil _).symm⟩)

/-- What every allowed move keeps and shows, a row of allowed moves keeps and shows. -/
theorem nextAll_kept {kept : Scheduler ρ α → Prop} {allowed : Move → Prop} {shown : Effect → Prop}
    (move : ∀ {s m s' effects}, kept s → allowed m → Makes s m s' effects →
      kept s' ∧ ∀ effect ∈ effects, shown effect)
    {ms : List Move} (h : s.nextAll ms = some (s', effects)) (first : kept s)
    (all : ∀ m ∈ ms, allowed m) : kept s' ∧ ∀ effect ∈ effects, shown effect := by
  induction ms generalizing s effects with
  | nil =>
    cases h
    exact ⟨first, fun effect none => nomatch none⟩
  | cons m ms ih =>
    obtain ⟨mid, seen, later, made, rest, rfl⟩ := nextAll_cons.mp h
    obtain ⟨between, now⟩ := move first (all m List.mem_cons_self) made
    obtain ⟨last, after⟩ := ih rest between fun m' h' => all m' (List.mem_cons_of_mem m h')
    refine ⟨last, fun effect h' => ?_⟩
    rcases List.mem_append.mp h' with h' | h'
    · exact now effect h'
    · exact after effect h'

/-- What every move keeps of a scheduler, of the moves so far and of all that they showed, a row of
moves keeps. -/
theorem nextAll_history (kept : Scheduler ρ α → List Move → List Effect → Prop)
    (move : ∀ {s m s' past shown effects}, kept s past shown → Makes s m s' effects →
      kept s' (past ++ [m]) (shown ++ effects))
    {ms : List Move} (h : s.nextAll ms = some (s', effects)) (past : List Move)
    (shown : List Effect) (first : kept s past shown) :
    kept s' (past ++ ms) (shown ++ effects) := by
  induction ms generalizing s past shown effects with
  | nil =>
    cases h
    rwa [List.append_nil, List.append_nil]
  | cons m ms ih =>
    obtain ⟨mid, seen, later, made, rest, rfl⟩ := nextAll_cons.mp h
    rw [← List.append_assoc, List.append_cons past]
    exact ih rest (past ++ [m]) (shown ++ seen) (move first made)

/-- What every move keeps, a row of moves keeps. -/
theorem nextAll_invariant {kept : Scheduler ρ α → Prop}
    (move : ∀ {s m s' effects}, kept s → Makes s m s' effects → kept s')
    {ms : List Move} (h : s.nextAll ms = some (s', effects)) (first : kept s) : kept s' :=
  have both : kept s' ∧ ∀ effect ∈ effects, True :=
    nextAll_kept (fun before (_ : True) makes => ⟨move before makes, fun _ _ => trivial⟩) h first
      fun _ _ => trivial
  both.1

end Chip8.Scheduler
