import Mathlib.Algebra.GroupWithZero.Nat
import Chip8.Proofs.Scheduler.Alike
import Chip8.Proofs.Scheduler.Announced
import Chip8.Proofs.Scheduler.FaultProtocol

/-!
# Starts that fail

* `Opening` — what holds within a call to start as long as no worker was refused
* `Closing` — what holds from then on until the next call
* `toDo` — how many moves of its own are left to a scheduler that is being stopped
* `Undone` — what a call to start leaves behind if it failed
* `failed_start` — a call to start whose worker is refused ends, and leaves nothing else

Before the second worker is refused the first may have made any number of steps, may have met a
fault and may even have taken the flag down. It is all alone then, and so the clean-up has one
worker at most to wait for.
-/

namespace Chip8.Scheduler

variable {ρ α : Type}
variable {s s' : Scheduler ρ α} {i : Nat} {worker : Worker} {m : Move} {effects : List Effect}

/-! ## Until a worker is refused -/

/-- Whether the controller is inside a call to start, and no worker was refused nor are both there. -/
def Phase.opening : Phase → Bool
  | .awaiting .start | .forgetting | .raising | .spawning _ => true
  | .idle | .awaiting (.finish _ _) | .announcing => false

/-- What holds within a call to start after such effects, as long as no worker was refused. -/
structure Opening (s : Scheduler ρ α) (shown : List Effect) : Prop where
  quiet : Quiet shown
  idleTimers : ¬ s.Busy .timers
  tickless : .tick ∉ pulses shown
  /-- The first worker is not there before the second is about to be started. -/
  alone : s.phase ≠ .spawning .timers → ¬ s.Busy .instructions ∧ .step ∉ pulses shown
  tells : s.phase.restarts = false → s.Tells (outcomes shown).getLast?

section Moves

variable [Renderer ρ] [Audio α] {shown : List Effect}

/-- A call to start goes on from within, and stays where it is about to start the second worker. -/
theorem Makes.opening_of_opening (makes : Makes s m s' effects) (still : m ≠ .start)
    (inside : s'.phase.opening = true) :
    s.phase.opening = true ∧ (s.phase = .spawning .timers → s'.phase = .spawning .timers) := by
  cases makes with
  | startAgain | start => exact absurd rfl still
  | stop | finish | spawnTimers | refuse | announce => cases inside
  | cleared phase | forget phase | raise phase =>
    rw [phase]
    exact ⟨rfl, fun other => nomatch other⟩
  | spawnInstructions phase =>
    rw [phase]
    exact ⟨rfl, fun _ => rfl⟩
  | join | keys => exact ⟨inside, id⟩
  | work there works =>
    obtain ⟨after, placed⟩ := works.placed
    rw [← placed.phase]
    exact ⟨inside, id⟩

/-- Past the point where the flag is raised, that was done by this move or before. -/
theorem Makes.raised (makes : Makes s m s' effects) (past : s'.phase.restarts = false) :
    s.phase.restarts = false ∧ s'.runs = s.runs ∨ s.phase = .raising ∧ s'.runs = s.runs + 1 := by
  cases makes with
  | start | cleared | forget => cases past
  | raise phase => exact .inr ⟨phase, rfl⟩
  | startAgain | join | keys => exact .inl ⟨past, rfl⟩
  | stop phase | finish phase | spawnInstructions phase | spawnTimers phase | refuse phase
  | announce phase =>
    rw [phase]
    exact .inl ⟨rfl, rfl⟩
  | work there works =>
    obtain ⟨after, placed⟩ := works.placed
    exact .inl ⟨placed.phase ▸ past, placed.runs⟩

theorem Opening.next (opening : s.Opening shown) (makes : Makes s m s' effects)
    (faithful : s.Faithful) (still : m ≠ .start) (inside : s'.phase.opening = true) :
    s'.Opening (shown ++ effects) := by
  obtain ⟨quiet, idleTimers, tickless, alone, tells⟩ := opening
  obtain ⟨-, stays⟩ := makes.opening_of_opening still inside
  obtain ⟨step, tick⟩ := makes.busy_of_pulse
  refine ⟨?_, ?_, ?_, ?_, ?_⟩
  · refine quiet.append (makes.quiet fun idle => ?_)
    rw [idle] at inside
    cases inside
  · intro busy
    rcases makes.busy busy with busy | ⟨other, -⟩ | ⟨-, both⟩
    · exact idleTimers busy
    · cases other
    · rw [both] at inside
      cases inside
  · exact not_mem_pulses_append tickless fun h => idleTimers (tick h)
  · intro early
    obtain ⟨nobody, stepless⟩ := alone fun late => early (stays late)
    refine ⟨fun busy => ?_, not_mem_pulses_append stepless fun h => nobody (step h)⟩
    rcases makes.busy busy with busy | ⟨-, late⟩ | ⟨other, -⟩
    · exact nobody busy
    · exact early late
    · cases other
  · intro past
    rcases makes.raised past with ⟨before, same⟩ | ⟨raising, begun⟩
    · rw [outcomes_append, List.getLast?_append]
      exact makes.tells faithful (tells before) same
    · -- no step was made before the flag is raised
      obtain ⟨nobody, stepless⟩ := alone (by rw [raising]; exact fun other => nomatch other)
      have none : outcomes (shown ++ effects) = [] :=
        outcomes_eq_nil (not_mem_pulses_append stepless fun h => nobody (step h))
      rw [none]
      exact makes.tells_none faithful begun

end Moves

theorem Stopped.not_busy (stopped : s.Stopped) (actor : Actor) : ¬ s.Busy actor := by
  rintro ⟨worker, mem, working, -⟩
  cases (stopped.ended worker mem).symm.trans working

theorem owes_nothing_of_ended (ended : ∀ worker ∈ s.workers, worker.hasEnded = true) :
    s.holders = 0 ∧ s.owed = [] := by
  have nobody : s.holders = 0 := by
    refine List.countP_eq_zero.mpr fun worker mem => ?_
    obtain ⟨brokeDown, stage⟩ := stage_of_hasEnded (ended worker mem)
    rw [stage]
    exact Bool.false_ne_true
  exact ⟨nobody, owed_of_idle nobody _⟩

theorem Stopped.owes_nothing (stopped : s.Stopped) : s.holders = 0 ∧ s.owed = [] :=
  owes_nothing_of_ended stopped.ended

section Moves

variable [Renderer ρ] [Audio α] {shown : List Effect}

theorem opening_of_nextAll {before : List Move} {t : Scheduler ρ α} {seen : List Effect}
    (begun : s.nextAll (.start :: before) = some (t, seen)) (stopped : s.Stopped)
    (faithful : s.Faithful) (once : .start ∉ before) (inside : t.phase.opening = true) :
    t.Faithful ∧ t.Opening seen := by
  obtain ⟨called, now, later, makes, rest, rfl⟩ := nextAll_cons.mp begun
  let kept (x : Scheduler ρ α) (past : List Move) (shown : List Effect) : Prop :=
    x.Faithful ∧ (.start ∉ past → x.phase.opening = true → x.Opening shown)
  have first : kept called [] now := by
    have only := makes.next.symm.trans (Makes.start stopped.idle stopped.down).next
    cases Option.some.inj only
    refine ⟨makes.faithful faithful, fun _ _ => ?_⟩
    exact ⟨⟨rfl, rfl⟩, stopped.not_busy .timers, fun none => (nomatch none),
      fun _ => ⟨stopped.not_busy .instructions, fun none => nomatch none⟩, fun past => nomatch past⟩
  have all : kept t ([] ++ before) (now ++ later) := by
    refine nextAll_history kept ?_ rest [] now first
    rintro x m x' past shown effects ⟨faithful, opening⟩ makes
    refine ⟨makes.faithful faithful, fun none inside => ?_⟩
    obtain ⟨before, still⟩ := not_or.mp (mt List.mem_append.mpr none)
    have still : m ≠ .start := fun call => still (List.mem_singleton.mpr call.symm)
    exact (opening before (makes.opening_of_opening still inside).1).next makes faithful still inside
  exact ⟨all.1, all.2 once inside⟩

end Moves

/-! ## After a worker was refused -/

/-- What holds after such effects from the moment on at which the worker of a job was refused for a
cause; the flag was up then or not. -/
structure Closing (job : Job) (cause : OsError) (flag : Bool) (s : Scheduler ρ α)
    (shown : List Effect) : Prop where
  down : s.running = false
  /-- The first worker may be there, if it was the second that was refused. -/
  crew : s.crew = [] ∨ s.crew = [.instructions] ∧ job = .timers
  tickless : .tick ∉ pulses shown
  stepless : job ≠ .timers → .step ∉ pulses shown
  tells : s.Tells (outcomes shown).getLast?
  ends : s.phase = .awaiting (.finish flag (some cause)) ∧ Quiet shown ∨
    s.phase = .idle ∧ s.workers = [] ∧ results shown = [.error cause] ∧
      notices shown = if flag then [.stopped] else []

/-- The first worker is alone, if it is there at all. -/
theorem Closing.not_busy {job : Job} {cause : OsError} {flag : Bool} {shown : List Effect}
    (closing : s.Closing job cause flag shown) :
    ¬ s.Busy .timers ∧ (job ≠ .timers → ¬ s.Busy .instructions) := by
  have among {actor : Actor} (busy : s.Busy actor) : actor ∈ s.crew := by
    obtain ⟨w, mem, -, rfl⟩ := busy
    exact List.mem_map_of_mem mem
  constructor
  · intro busy
    have timers := among busy
    rcases closing.crew with gone | ⟨one, -⟩
    · rw [gone] at timers
      cases timers
    · rw [one] at timers
      cases List.mem_singleton.mp timers
  · intro first busy
    have gone : s.crew = [] := closing.crew.resolve_right fun second => first second.2
    have instructions := among busy
    rw [gone] at instructions
    cases instructions

section Moves

variable [Renderer ρ] [Audio α] {shown : List Effect}
variable {job : Job} {cause : OsError} {flag : Bool}

theorem Opening.closing (opening : s.Opening shown) (faithful : s.Faithful)
    (spawning : s.phase = .spawning job) (makes : Makes s (.control (.error cause)) s' effects) :
    effects = [] ∧ s'.Faithful ∧ s'.Closing job cause s.running shown := by
  have only := makes.next.symm.trans (Makes.refuse spawning).next
  cases Option.some.inj only
  have tells : s.Tells (outcomes shown).getLast? := opening.tells (by rw [spawning]; rfl)
  refine ⟨rfl, makes.faithful faithful, rfl, ?_, opening.tickless, fun first => ?_,
    ⟨tells.worker, tells.fault, fun _ other => nomatch other⟩, .inl ⟨rfl, opening.quiet⟩⟩
  · cases job with
    | instructions clock => exact .inl (faithful.sound.fits_at spawning)
    | timers => exact .inr ⟨faithful.sound.fits_at spawning, rfl⟩
  · refine (opening.alone ?_).2
    rw [spawning]
    exact fun same => first (Phase.spawning.inj same)

/-- Only the controller waits, the worker it waits for goes on, and the keys are set. -/
theorem Closing.next (closing : s.Closing job cause flag shown) (makes : Makes s m s' effects)
    (faithful : s.Faithful) (still : m ≠ .start ∧ m ≠ .stop) :
    s'.Closing job cause flag (shown ++ effects) := by
  obtain ⟨idleTimers, nobody⟩ := closing.not_busy
  obtain ⟨down, crew, tickless, stepless, tells, ends⟩ := closing
  obtain ⟨step, tick⟩ := makes.busy_of_pulse
  have tickless : .tick ∉ pulses (shown ++ effects) :=
    not_mem_pulses_append tickless fun h => idleTimers (tick h)
  have stepless (first : job ≠ .timers) : .step ∉ pulses (shown ++ effects) :=
    not_mem_pulses_append (stepless first) fun h => nobody first (step h)
  have tells (same : s'.runs = s.runs) : s'.Tells (outcomes (shown ++ effects)).getLast? := by
    rw [outcomes_append, List.getLast?_append]
    exact makes.tells faithful tells same
  have silent : s'.phase ≠ .idle → Quiet effects := makes.quiet
  cases makes with
  | startAgain | start => exact absurd rfl still.1
  | stop => exact absurd rfl still.2
  | @finish _ wasRunning failure phase gone =>
    rcases ends with ⟨waits, quiet⟩ | ⟨idle, -⟩
    · cases phase.symm.trans waits
      refine ⟨down, crew, tickless, stepless, tells rfl, .inr ⟨rfl, gone, ?_, ?_⟩⟩
      · rw [results_append, quiet.1]
        cases flag <;> rfl
      · rw [notices_append, quiet.2]
        cases flag <;> rfl
    · cases phase.symm.trans idle
  | join phase first ended =>
    rcases ends with ⟨waits, quiet⟩ | ⟨-, gone, -⟩
    · have joined := silent fun idle => nomatch phase.symm.trans idle
      refine ⟨down, .inl ?_, tickless, stepless, tells rfl, .inl ⟨waits, quiet.append joined⟩⟩
      -- there was one at most
      rw [Scheduler.crew, first, List.map_cons] at crew
      rcases crew with none | ⟨one, -⟩
      · cases none
      · exact (List.cons.inj one).2
    · cases first.symm.trans gone
  | @keys pad free =>
    have quiet : Quiet [.keys pad] := ⟨rfl, rfl⟩
    refine ⟨down, crew, tickless, stepless, tells rfl, ?_⟩
    rw [results_append_quiet quiet, notices_append_quiet quiet]
    exact ends.imp_left fun waits => ⟨waits.1, waits.2.append quiet⟩
  | work there works =>
    obtain ⟨after, placed⟩ := works.placed
    have down' : s'.running = false := by
      rcases placed.flag with ⟨-, same⟩ | lowered
      · exact same.trans down
      · exact lowered
    rcases ends with ⟨waits, quiet⟩ | ⟨-, gone, -⟩
    · exact ⟨down', by rwa [placed.crew there], tickless, stepless, tells placed.runs,
        .inl ⟨placed.phase.trans waits, quiet.append works.quiet⟩⟩
    · rw [gone] at there
      cases there
  | cleared phase | forget phase | raise phase | spawnInstructions phase | spawnTimers phase
  | refuse phase | announce phase =>
    rcases ends with ⟨waits, -⟩ | ⟨idle, -⟩
    · cases phase.symm.trans waits
    · cases phase.symm.trans idle

end Moves

/-! ## The call returns -/

/-- Whether a move is the controller's or a worker's. -/
def Move.isOwn : Move → Bool
  | .control _ | .work _ => true
  | .start | .stop | .keys _ => false

/-- With the flag down, how many moves a worker has left, and being waited for. -/
def Worker.toDo (worker : Worker) : Nat :=
  match worker.stage with
  | .ended _ => 1
  | .leaving _ => 2
  | .checking => 3
  | .stepped _ _ | .counted _ => 4
  | .waiting => 5

/-- How many moves of its own a scheduler has left while it is being stopped. -/
def toDo (s : Scheduler ρ α) : Nat :=
  (s.workers.map Worker.toDo).sum + if s.phase = .idle then 0 else 1

theorem Closing.toDo_le_six {job : Job} {cause : OsError} {flag : Bool} {shown : List Effect}
    (closing : s.Closing job cause flag shown) : s.toDo ≤ 6 := by
  have most (w : Worker) : w.toDo ≤ 5 := by
    unfold Worker.toDo
    split <;> decide
  have call : (if s.phase = .idle then 0 else 1) ≤ 1 := by split <;> decide
  rcases closing.crew with gone | ⟨one, -⟩
  · rw [toDo, crew_eq_nil.mp gone]
    exact Nat.le_trans (Nat.le_of_eq (Nat.zero_add _)) (Nat.le_trans call (by decide))
  · obtain ⟨w, sole, -⟩ := List.map_eq_singleton_iff.mp one
    have := most w
    rw [toDo, sole, List.map_singleton, List.sum_singleton]
    omega

theorem sum_toDo_set (there : s.workers[i]? = some worker) (after : Worker) :
    ((s.workers.set i after).map Worker.toDo).sum + worker.toDo =
      (s.workers.map Worker.toDo).sum + after.toDo := by
  obtain ⟨front, back, split, set⟩ := workers_split there after
  rw [set, split, List.map_append, List.map_append, List.sum_append, List.sum_append, List.map_cons,
    List.map_cons, List.sum_cons, List.sum_cons]
  omega

section Moves

variable [Renderer ρ] [Audio α] {shown : List Effect}
variable {job : Job} {cause : OsError} {flag : Bool}

theorem Works.toDo_lt (works : Works s i worker s' effects) (down : s.running = false) :
    ∃ after, s'.workers = s.workers.set i after ∧ s'.phase = s.phase ∧
      after.toDo + 1 ≤ worker.toDo := by
  cases works with
  | goOn up => cases down.symm.trans up
  | giveUp | step | count | proceed | report | leave => exact ⟨_, rfl, rfl, Nat.le_refl _⟩
  | publishBroke | halt | levelBroke => exact ⟨_, rfl, rfl, Nat.le_succ 3⟩

/-- Every move of its own brings a scheduler that is being stopped closer to the end. -/
theorem Closing.toDo_le (closing : s.Closing job cause flag shown) (makes : Makes s m s' effects)
    (still : m ≠ .start ∧ m ≠ .stop) : s'.toDo + m.isOwn.toNat ≤ s.toDo := by
  obtain ⟨down, -, -, -, -, ends⟩ := closing
  cases makes with
  | startAgain | start => exact absurd rfl still.1
  | stop => exact absurd rfl still.2
  | finish phase gone =>
    rw [toDo, toDo, gone, phase]
    exact Nat.le_refl 1
  | @join _ _ worker rest _ phase first ended =>
    have one : worker.toDo = 1 := by rw [Worker.toDo, ended]
    have sum : (s.workers.map Worker.toDo).sum = 1 + (rest.map Worker.toDo).sum := by
      rw [first, List.map_cons, List.sum_cons, one]
    show (rest.map Worker.toDo).sum + (if s.phase = .idle then 0 else 1) + 1 ≤ s.toDo
    rw [toDo, sum]
    omega
  | keys => exact Nat.le_refl _
  | work there works =>
    obtain ⟨after, workers, phase, less⟩ := works.toDo_lt down
    have sum := sum_toDo_set there after
    rw [toDo, toDo, workers, phase]
    show _ + _ + 1 ≤ _
    omega
  | cleared phase | forget phase | raise phase | spawnInstructions phase | spawnTimers phase
  | refuse phase | announce phase =>
    rcases ends with ⟨waits, -⟩ | ⟨idle, -⟩
    · cases phase.symm.trans waits
    · cases phase.symm.trans idle

/-- An instruction worker that is alone never has to wait, unless it has ended. -/
theorem exists_works {clock : InstructionClock} {run : Nat} {stage : Stage}
    (down : s.running = false) (sole : s.workers = [⟨.instructions clock, run, stage⟩])
    (working : Worker.hasEnded ⟨.instructions clock, run, stage⟩ = false)
    (uncounted : ∀ level, stage ≠ .counted level) :
    ∃ s' effects, Works s 0 ⟨.instructions clock, run, stage⟩ s' effects := by
  cases stage with
  | checking => exact ⟨_, _, .giveUp down⟩
  | waiting =>
    have free : s.machineHeld = false := by
      rw [machineHeld, sole]
      rfl
    exact ⟨_, _, .step free⟩
  | stepped pc outcome =>
    cases call : (Renderer.publish s.renderer s.machine.screen).brokeDown with
    | true => exact ⟨_, _, .publishBroke call⟩
    | false =>
      rcases verdict : clock.observe pc outcome with ⟨_ | fault, noted, events⟩
      · exact ⟨_, _, .proceed call verdict⟩
      · exact ⟨_, _, .halt call verdict⟩
  | counted level => exact absurd rfl (uncounted level)
  | leaving brokeDown => exact ⟨_, _, .leave⟩
  | ended brokeDown => cases working

/-- As long as the call goes on, somebody can move. -/
theorem Closing.goesOn (closing : s.Closing job cause flag shown) (busy : s.phase ≠ .idle) :
    ∃ m s' seen, m.isOwn = true ∧ s.next m = some (s', seen) := by
  obtain ⟨down, crew, -, -, tells, ⟨waits, -⟩ | ⟨idle, -⟩⟩ := closing
  · rcases crew with gone | ⟨one, -⟩
    · exact ⟨.control (.ok ()), _, _, rfl, (Makes.finish waits (crew_eq_nil.mp gone)).next⟩
    · obtain ⟨⟨job, run, stage⟩, sole, actor⟩ := List.map_eq_singleton_iff.mp one
      cases job with
      | timers => cases actor
      | instructions clock =>
        have own := tells.worker _ (by rw [sole]; exact List.mem_singleton_self _) rfl
        cases ended : Worker.hasEnded ⟨.instructions clock, run, stage⟩ with
        | true =>
          obtain ⟨brokeDown, stage⟩ := stage_of_hasEnded ended
          exact ⟨.control (.ok ()), _, _, rfl, (Makes.join waits sole stage).next⟩
        | false =>
          have uncounted : ∀ level, stage ≠ .counted level := by
            rintro level rfl
            exact own
          obtain ⟨s', seen, works⟩ := exists_works down sole ended uncounted
          exact ⟨.work 0, s', seen, rfl, (Makes.work (by rw [sole]; rfl) works).next⟩
  · exact absurd idle busy

theorem closing_of_nextAll {after : List Move} {later : List Effect}
    (rest : s.nextAll after = some (s', later)) (faithful : s.Faithful)
    (closing : s.Closing job cause flag shown) (inside : ∀ m ∈ after, m ≠ .start ∧ m ≠ .stop) :
    s'.Closing job cause flag (shown ++ later) ∧ after.countP Move.isOwn + s'.toDo ≤ 6 := by
  let kept (x : Scheduler ρ α) (past : List Move) (shown : List Effect) : Prop :=
    x.Faithful ∧ ((∀ m ∈ past, m ≠ .start ∧ m ≠ .stop) →
      x.Closing job cause flag shown ∧ past.countP Move.isOwn + x.toDo ≤ 6)
  have first : kept s [] shown :=
    ⟨faithful, fun _ => ⟨closing, Nat.le_trans (Nat.le_of_eq (Nat.zero_add _)) closing.toDo_le_six⟩⟩
  have all : kept s' ([] ++ after) (shown ++ later) := by
    refine nextAll_history kept ?_ rest [] shown first
    rintro x m x' past shown effects ⟨faithful, before⟩ makes
    refine ⟨makes.faithful faithful, fun none => ?_⟩
    have still : m ≠ .start ∧ m ≠ .stop := none m (List.mem_append_right _ List.mem_cons_self)
    obtain ⟨closing, bound⟩ := before fun m h => none m (List.mem_append_left _ h)
    refine ⟨closing.next makes faithful still, ?_⟩
    have less := closing.toDo_le makes still
    rw [List.countP_append, List.countP_singleton]
    cases own : m.isOwn <;> simp [own] at less ⊢ <;> omega
  exact all.2 inside

end Moves

/-! ## Nothing is left -/

section Moves

variable [Renderer ρ] [Audio α]

/-- What a call to start leaves behind if the worker of a job was refused for a cause, from the
scheduler it was made on, over the one that was refused, to the one at the end. -/
structure Undone (s t u : Scheduler ρ α) (job : Job) (cause : OsError) (effects : List Effect) :
    Prop where
  /-- The call returns the cause, and nothing else is returned. -/
  returned : results effects = [.error cause]
  off : u.Off
  machine : u.machine = s.machine.pulseAll (pulses effects)
  /-- The ticks are whole. -/
  calls : calls effects = due s.machine (pulses effects)
  /-- The timers are never counted, and steps are made by the first worker only. -/
  pulses : ∀ p ∈ pulses effects, (p = .step ∧ job = .timers) ∨ ∃ pad,
    p = .keys (.setAll pad.keys) ∧ .keys pad ∈ effects
  /-- Where nobody set the keys either, that leaves whole steps, and none if the first worker was
  refused. -/
  steps : (∀ pad, .keys pad ∉ effects) →
    ∃ n, u.machine = s.machine.pulseAll (List.replicate n .step) ∧ (job ≠ .timers → n = 0)
  /-- If a fault is noted, it was met within the call. -/
  fault : ∀ fault, u.fault = some fault →
    (outcomes effects).getLast? = some (.error fault) ∧ fault.isFatal = true
  /-- That the clocks were started is never announced. -/
  notices : notices effects = if t.running then [.stopped] else []
  again : ∃ v, u.nextAll startCall = some (v,
      [.log .controller (.started (Rate.ofIps u.ips)), .returned (.ok ())]) ∧
    v.running = true ∧ v.phase = .idle ∧ v.crew = [.instructions, .timers] ∧
    v.machine = u.machine
  /-- Nobody can tell from a later call to start that this one was made. -/
  forgotten : ∀ {v : Scheduler ρ α}, v.Stopped → v.machine = u.machine →
    v.renderer = u.renderer → v.audio = u.audio → v.ips = u.ips → ∃ cleared found,
      v.nextAll (.start :: List.replicate v.workers.length (.control (.ok ()))) =
        some (cleared, found) ∧
      (∀ effect ∈ found, effect = .log .controller .foundBrokenDown) ∧
      ∀ ms, Option.Rel SameButRuns (u.nextAll (.start :: ms)) (cleared.nextAll ms)

/-- What a scheduler that is being stopped has come to when the call returns. -/
theorem Closing.undone {job : Job} {cause : OsError} {t u : Scheduler ρ α} {ms : List Move}
    (closing : u.Closing job cause t.running effects) (faithful : u.Faithful)
    (call : s.nextAll ms = some (u, effects)) (stopped : s.Stopped) (off : u.Off)
    (idle : u.phase = .idle) : Undone s t u job cause effects := by
  obtain ⟨waits, -⟩ | ⟨-, gone, returned, notices⟩ := closing.ends
  · cases idle.symm.trans waits
  have clear : u.running = false ∧ u.workers = [] := ⟨off.running, off.workers⟩
  obtain ⟨nobody, nothing⟩ := stopped.owes_nothing
  obtain ⟨machine, -⟩ := machine_of_nextAll call
  have made : ∀ p ∈ Scheduler.pulses effects, (p = .step ∧ job = .timers) ∨ ∃ pad : Keypad,
      p = .keys (.setAll pad.keys) ∧ .keys pad ∈ effects := by
    intro p mem
    cases p with
    | step =>
      refine .inl ⟨rfl, ?_⟩
      by_contra first
      exact closing.stepless first mem
    | tick => exact absurd mem closing.tickless
    | keys change =>
      obtain ⟨pad, rfl, set⟩ := exists_keys_of_pulses mem
      exact .inr ⟨pad, rfl, set⟩
  refine ⟨returned, off, machine, ?_, made, fun keyless => ?_, ?_, notices,
    exists_started clear idle, start_alike clear idle⟩
  · have settled := (settles_of_nextAll call (Nat.le_trans (Nat.le_of_eq nobody) (by decide))).calls
    rwa [nothing, owed, gone, List.flatMap_nil, List.append_nil, List.nil_append] at settled
  · have steps : ∀ p ∈ Scheduler.pulses effects, p = .step ∧ job = .timers := by
      intro p mem
      rcases made p mem with step | ⟨pad, -, set⟩
      · exact step
      · exact absurd set (keyless pad)
    refine ⟨(Scheduler.pulses effects).length, ?_, fun first => ?_⟩
    · rw [← List.eq_replicate_of_mem fun p mem => (steps p mem).1]
      exact machine
    · refine List.length_eq_zero_iff.mpr (List.eq_nil_iff_forall_not_mem.mpr fun p mem => ?_)
      exact first (steps p mem).2
  · exact fun fault noted => ⟨closing.tells.fault fault noted, (faithful.noted fault noted).1⟩

/--
**A start that fails leaves no clock behind.**

Take a new scheduler and any moves after which the clocks are off: they were never started, were
stopped, or have wound down by themselves. Let the controller be called to start them, and let one
of the two workers be refused, the first or the second. Whoever moves in between, the controller,
the first worker and whoever sets the keys, and in whatever order:

From the refusal on the controller and the worker make six moves at most, and one of them can move
as long as the call goes on. So it returns, and then `Undone` says what is left.
-/
theorem failed_start {machine : Machine} {renderer : ρ} {audio : α} {past before after : List Move}
    {shown seen later : List Effect} {t u : Scheduler ρ α} {job : Job} {cause : OsError}
    (reached : (new machine renderer audio).nextAll past = some (s, shown)) (stopped : s.Stopped)
    (begun : s.nextAll (.start :: before) = some (t, seen)) (once : .start ∉ before)
    (spawning : t.phase = .spawning job)
    (refused : t.nextAll (.control (.error cause) :: after) = some (u, later))
    (inside : ∀ m ∈ after, m ≠ .start ∧ m ≠ .stop) :
    after.countP Move.isOwn ≤ 6 ∧
    (u.phase ≠ .idle → ∃ m u' more, m.isOwn = true ∧ u.next m = some (u', more)) ∧
    (u.phase = .idle → Undone s t u job cause (seen ++ later)) := by
  have faithful : s.Faithful := faithful_of_nextAll reached
  have call : s.nextAll (.start :: before ++ .control (.error cause) :: after) =
      some (u, seen ++ later) := nextAll_append begun refused
  obtain ⟨atSpawn, opening⟩ :=
    opening_of_nextAll begun stopped faithful once (by rw [spawning]; rfl)
  obtain ⟨mid, now, rest, makes, waited, rfl⟩ := nextAll_cons.mp refused
  obtain ⟨rfl, atRefusal, closing⟩ := opening.closing atSpawn spawning makes
  obtain ⟨closing, bound⟩ := closing_of_nextAll waited atRefusal closing inside
  refine ⟨Nat.le_trans (Nat.le_add_right _ _) bound, closing.goesOn, fun idle => ?_⟩
  have faithful' : u.Faithful :=
    nextAll_invariant (fun faithful makes => makes.faithful faithful) waited atRefusal
  have off : u.Off :=
    (off_of_stops (.refuse spawning) makes.next waited fun m h => (inside m h).1).2 idle
  exact closing.undone faithful' call stopped off idle

/-- After a run that a fatal fault has ended, the clocks are started again. The first worker meets
the fault anew and is about to leave when the second is refused. -/
theorem failed_start_past_end :
    ∃ s shown t seen u later,
      (new { Machine.fresh {} (.ofSeed 0) with pc := 0xFFF } Headless.mk Mute.mk).nextAll
        (startCall ++ List.replicate 4 (.work 0) ++ List.replicate 2 (.work 1)) =
          some (s, shown) ∧
      s.Stopped ∧ s.workers.length = 2 ∧
      s.nextAll (.start :: List.replicate 6 (.control (.ok ())) ++ List.replicate 3 (.work 0)) =
        some (t, seen) ∧
      t.phase = .spawning .timers ∧ t.running = true ∧
      t.nextAll [.control (.error .resourceUnavailable), .work 0, .control (.ok ()),
        .control (.ok ())] = some (u, later) ∧
      u.phase = .idle ∧ results (seen ++ later) = [.error .resourceUnavailable] ∧
      u.workers = [] ∧ notices (seen ++ later) = [.stopped] := by
  have ran :
      ((new { Machine.fresh {} (.ofSeed 0) with pc := 0xFFF } Headless.mk Mute.mk).nextAll
        (startCall ++ List.replicate 4 (.work 0) ++ List.replicate 2 (.work 1))).any
      (fun (s, _) => s.phase == .idle && !s.running && s.workers.all (·.hasEnded) &&
        s.workers.length == 2 &&
        (s.nextAll (.start :: List.replicate 6 (.control (.ok ())) ++
          List.replicate 3 (.work 0))).any (fun (t, _) =>
            t.phase == .spawning .timers && t.running &&
            (t.nextAll [.control (.error .resourceUnavailable), .work 0, .control (.ok ()),
              .control (.ok ())]).any (fun (u, _) => u.phase == .idle))) := by
    decide +kernel
  obtain ⟨⟨s, shown⟩, reached, found⟩ := (Option.any_eq_true ..).mp ran
  simp only [Bool.and_eq_true, Bool.not_eq_true', beq_iff_eq, List.all_eq_true] at found
  obtain ⟨⟨⟨⟨idle, down⟩, ended⟩, two⟩, found⟩ := found
  obtain ⟨⟨t, seen⟩, begun, found⟩ := (Option.any_eq_true ..).mp found
  simp only [Bool.and_eq_true, beq_iff_eq] at found
  obtain ⟨⟨spawning, up⟩, found⟩ := found
  obtain ⟨⟨u, later⟩, refused, back⟩ := (Option.any_eq_true ..).mp found
  have stopped : s.Stopped := ⟨idle, down, ended⟩
  obtain ⟨-, -, undone⟩ := failed_start reached stopped begun (by simp) spawning refused (by simp)
  have undone := undone (beq_iff_eq.mp back)
  refine ⟨s, shown, t, seen, u, later, reached, stopped, two, begun, spawning, up, refused,
    beq_iff_eq.mp back, undone.returned, undone.off.workers, ?_⟩
  rw [undone.notices, up]
  rfl

end Moves

end Chip8.Scheduler
