import Chip8.Proofs.Scheduler.Moves

/-!
# Runs do not overlap

* `Sound` — what holds of every scheduler in use: all workers belong to the latest run, nobody has
  ended while the flag is up, and the phase says who is at work
* `Off` — the clocks are off, and stay off until they are started
* `KeepsRun` — what a move does to the latest run
* `lifecycle` — stopping turns the clocks off; a run is ended, and its fault noted, by nobody but
  its own workers and the controller; while the flag is up both workers are at work

A worker takes the flag down as it leaves. That could kill a later run, if the worker outlived its
own. It does not, as the flag is raised only once every worker was waited for.
-/

namespace Chip8.Scheduler

variable {ρ α : Type}

/-! ## Who is at work -/

/-- Whether a worker does nothing any more. -/
def Worker.hasEnded (worker : Worker) : Bool :=
  match worker.stage with
  | .ended _ => true
  | .checking | .waiting | .stepped _ _ | .counted _ | .leaving _ => false

/-- Who the workers are, in the order they were started. -/
def crew (s : Scheduler ρ α) : List Actor := s.workers.map (·.job.actor)

theorem crew_eq_nil {s : Scheduler ρ α} : s.crew = [] ↔ s.workers = [] := List.map_eq_nil_iff

/-- Whether the controller is inside a call to start. A failed one stops before it returns. -/
def Phase.starting : Phase → Bool
  | .idle | .awaiting (.finish _ none) => false
  | .awaiting (.finish _ (some _)) => true
  | .awaiting .start | .forgetting | .raising | .spawning _ | .announcing => true

/-- The moves by which the controller stops the clocks: a call to stop, and a worker that cannot be
started. -/
inductive Stops (s : Scheduler ρ α) : Move → Prop
  | call : Stops s .stop
  | refuse {job : Job} {cause : OsError} (phase : s.phase = .spawning job) :
      Stops s (.control (.error cause))

/-- The moves of the workers that the latest run has started. -/
inductive ByOwnWorker (s : Scheduler ρ α) : Move → Prop
  | intro {i : Nat} {worker : Worker} (there : s.workers[i]? = some worker)
      (own : worker.run = s.runs) : ByOwnWorker s (.work i)

/-- What a phase says about the flag and about who is at work. -/
def Phase.Fits : Phase → Bool → List Actor → Prop
  | .idle, running, crew => running = true → crew = [.instructions, .timers]
  | .awaiting _, running, _ => running = false
  | .forgetting, running, crew | .raising, running, crew => running = false ∧ crew = []
  | .spawning (.instructions _), _, crew => crew = []
  | .spawning .timers, _, crew => crew = [.instructions]
  | .announcing, _, crew => crew = [.instructions, .timers]

theorem Phase.Fits.lower {phase : Phase} {running : Bool} {crew : List Actor}
    (h : phase.Fits running crew) : phase.Fits false crew := by
  cases phase with
  | idle => exact fun up => nomatch up
  | awaiting after => rfl
  | forgetting => exact ⟨rfl, h.2⟩
  | raising => exact ⟨rfl, h.2⟩
  | spawning job =>
    cases job with
    | instructions clock => exact h
    | timers => exact h
  | announcing => exact h

/-! ## What holds of every scheduler in use -/

/-- What holds of every scheduler in use. -/
structure Sound (s : Scheduler ρ α) : Prop where
  own : ∀ worker ∈ s.workers, worker.run = s.runs
  working : s.running = true → ∀ worker ∈ s.workers, worker.hasEnded = false
  fits : s.phase.Fits s.running s.crew

theorem Sound.fits_at {s : Scheduler ρ α} (sound : s.Sound) {phase : Phase}
    (h : s.phase = phase) : phase.Fits s.running s.crew := h ▸ sound.fits

theorem Sound.cleared {s : Scheduler ρ α} (sound : s.Sound)
    (phase : s.phase = .forgetting ∨ s.phase = .raising) : s.running = false ∧ s.workers = [] := by
  obtain ⟨down, gone⟩ : s.running = false ∧ s.crew = [] := by
    rcases phase with phase | phase
    · exact sound.fits_at phase
    · exact sound.fits_at phase
  exact ⟨down, crew_eq_nil.mp gone⟩

theorem sound_new (machine : Machine) (renderer : ρ) (audio : α) :
    (new machine renderer audio).Sound where
  own := fun _ h => nomatch h
  working := fun up => nomatch up
  fits := fun up => nomatch up

theorem Sound.at_work {s : Scheduler ρ α} (sound : s.Sound) (up : s.running = true)
    (outside : s.phase.starting = false) :
    s.crew = [.instructions, .timers] ∧
    ∀ worker ∈ s.workers, worker.run = s.runs ∧ worker.hasEnded = false := by
  refine ⟨?_, fun w h => ⟨sound.own w h, sound.working up w h⟩⟩
  cases phase : s.phase with
  | idle => exact sound.fits_at phase up
  | awaiting after =>
    -- whoever waits for the workers has taken the flag down
    exact nomatch up.symm.trans (sound.fits_at phase)
  | _ =>
    rw [phase] at outside
    cases outside

variable {s s' : Scheduler ρ α} {i : Nat} {worker : Worker} {m : Move} {effects : List Effect}

/-- What the move of a worker leaves alone: its run and its job, the other workers, the phase and
the count of runs. A worker that goes on leaves the flag alone too, and one that ends takes it
down. -/
structure Placed (s : Scheduler ρ α) (i : Nat) (before after : Worker) (s' : Scheduler ρ α) :
    Prop where
  workers : s'.workers = s.workers.set i after
  run : after.run = before.run
  actor : after.job.actor = before.job.actor
  phase : s'.phase = s.phase
  runs : s'.runs = s.runs
  flag : after.hasEnded = false ∧ s'.running = s.running ∨ s'.running = false

theorem Placed.crew {after : Worker} (placed : Placed s i worker after s')
    (there : s.workers[i]? = some worker) : s'.crew = s.crew := by
  obtain ⟨bound, rfl⟩ := List.getElem?_eq_some_iff.mp there
  calc s'.crew = (s.workers.set i after).map (·.job.actor) := congrArg _ placed.workers
    _ = (s.workers.map (·.job.actor)).set i s.workers[i].job.actor := by
      rw [List.map_set, placed.actor]
    _ = (s.workers.set i s.workers[i]).map (·.job.actor) := List.map_set.symm
    _ = s.crew := by rw [List.set_getElem_self, Scheduler.crew]

theorem Placed.stays {after : Worker} (placed : Placed s i worker after s')
    (there : s.workers[i]? = some worker) {w : Worker} (h : w ∈ s.workers) :
    ∃ w' ∈ s'.workers, w'.run = w.run ∧ w'.job.actor = w.job.actor := by
  obtain ⟨bound, rfl⟩ := List.getElem?_eq_some_iff.mp there
  obtain ⟨j, hj, rfl⟩ := List.getElem_of_mem h
  rw [placed.workers]
  by_cases same : i = j
  · subst same
    exact ⟨after, List.mem_set bound after, placed.run, placed.actor⟩
  · have untouched : (s.workers.set i after)[j]? = some s.workers[j] := by
      rw [List.getElem?_set_ne same]
      exact List.getElem?_eq_getElem hj
    exact ⟨s.workers[j], List.mem_of_getElem? untouched, rfl, rfl⟩

theorem Placed.sound {after : Worker} (placed : Placed s i worker after s')
    (there : s.workers[i]? = some worker) (sound : s.Sound) : s'.Sound := by
  have mem : worker ∈ s.workers := List.mem_of_getElem? there
  have among {w : Worker} (h : w ∈ s'.workers) : w ∈ s.workers ∨ w = after := by
    rw [placed.workers] at h
    exact List.mem_or_eq_of_mem_set h
  refine ⟨?_, ?_, ?_⟩
  · intro w h
    rw [placed.runs]
    rcases among h with h | rfl
    · exact sound.own w h
    · exact placed.run.trans (sound.own worker mem)
  · intro up w h
    rcases placed.flag with ⟨working, same⟩ | down
    · rcases among h with h | rfl
      · exact sound.working (same ▸ up) w h
      · exact working
    · rw [down] at up
      cases up
  · rw [placed.phase, placed.crew there]
    rcases placed.flag with ⟨-, same⟩ | down
    · rw [same]
      exact sound.fits
    · rw [down]
      exact sound.fits.lower

/-- A new worker belongs to the latest run and has not ended. -/
theorem Sound.spawn (sound : s.Sound) {job : Job} {phase : Phase}
    (fits : phase.Fits s.running (s.crew ++ [job.actor])) :
    Sound { s with workers := s.workers ++ [⟨job, s.runs, .checking⟩], phase } := by
  refine ⟨?_, ?_, ?_⟩
  · intro w h
    rcases List.mem_append.mp h with h | h
    · exact sound.own w h
    · rw [List.mem_singleton.mp h]
  · intro up w h
    rcases List.mem_append.mp h with h | h
    · exact sound.working up w h
    · rw [List.mem_singleton.mp h]
      rfl
  · simpa [Scheduler.crew] using fits

variable [Renderer ρ] [Audio α]

theorem Works.placed (works : Works s i worker s' effects) :
    ∃ after, Placed s i worker after s' := by
  cases works with
  | goOn | giveUp | step | count | publishBroke | proceed | halt | levelBroke | report =>
    exact ⟨_, rfl, rfl, rfl, rfl, rfl, .inl ⟨rfl, rfl⟩⟩
  | leave => exact ⟨_, rfl, rfl, rfl, rfl, rfl, .inr rfl⟩

theorem Makes.sound (makes : Makes s m s' effects) (sound : s.Sound) : s'.Sound := by
  cases makes with
  | startAgain phase up => exact sound
  | start phase down => exact ⟨sound.own, sound.working, down⟩
  | stop phase => exact ⟨sound.own, fun up => (nomatch up), rfl⟩
  | cleared phase gone =>
    exact ⟨sound.own, sound.working, sound.fits_at phase, crew_eq_nil.mpr gone⟩
  | finish phase gone =>
    have down : s.running = false := sound.fits_at phase
    exact ⟨sound.own, sound.working, fun up => (nomatch down.symm.trans up)⟩
  | join phase first ended =>
    have down : s.running = false := sound.fits_at phase
    refine ⟨fun w h => sound.own w ?_, fun up => (nomatch down.symm.trans up), phase ▸ down⟩
    rw [first]
    exact List.mem_cons_of_mem _ h
  | forget phase =>
    have clear : s.running = false ∧ s.crew = [] := sound.fits_at phase
    exact ⟨sound.own, sound.working, clear⟩
  | raise phase =>
    -- the only move that begins a run finds nobody left
    obtain ⟨-, gone⟩ := sound.cleared (.inr phase)
    have nobody {P : Worker → Prop} : ∀ w ∈ s.workers, P w := by
      rw [gone]
      exact fun w h => nomatch h
    exact ⟨nobody, fun _ => nobody, crew_eq_nil.mpr gone⟩
  | spawnInstructions phase =>
    have nobody : s.crew = [] := sound.fits_at phase
    refine sound.spawn ?_
    rw [nobody]
    rfl
  | spawnTimers phase =>
    have one : s.crew = [.instructions] := sound.fits_at phase
    refine sound.spawn ?_
    rw [one]
    rfl
  | refuse phase => exact ⟨sound.own, fun up => (nomatch up), rfl⟩
  | announce phase => exact ⟨sound.own, sound.working, fun _ => sound.fits_at phase⟩
  | work there works =>
    obtain ⟨after, placed⟩ := works.placed
    exact placed.sound there sound
  | keys free => exact ⟨sound.own, sound.working, sound.fits⟩

theorem sound_of_nextAll {machine : Machine} {renderer : ρ} {audio : α} {past : List Move}
    (h : (new machine renderer audio).nextAll past = some (s, effects)) : s.Sound :=
  nextAll_invariant (fun sound makes => makes.sound sound) h (sound_new machine renderer audio)

/-! ## Stopping -/

/-- The clocks are being stopped or were stopped: the flag is down, and nobody is left once the
controller is through. -/
structure Stopping (s : Scheduler ρ α) : Prop where
  down : s.running = false
  waits : (∃ wasRunning failure, s.phase = .awaiting (.finish wasRunning failure)) ∨
    s.phase = .idle ∧ s.workers = []

theorem Makes.stopping_of_stops (makes : Makes s m s' effects) (stops : s.Stops m) :
    s'.Stopping := by
  cases stops with
  | call =>
    cases makes with
    | stop phase => exact ⟨rfl, .inl ⟨_, _, rfl⟩⟩
  | refuse spawning =>
    have only := makes.next.symm.trans (Makes.refuse spawning).next
    cases Option.some.inj only
    exact ⟨rfl, .inl ⟨_, _, rfl⟩⟩

theorem Makes.stopping (makes : Makes s m s' effects) (stopping : s.Stopping)
    (still : m ≠ .start) : s'.Stopping := by
  obtain ⟨down, waits⟩ := stopping
  cases makes with
  | startAgain | start => exact absurd rfl still
  | stop phase => exact ⟨rfl, .inl ⟨_, _, rfl⟩⟩
  | finish phase gone => exact ⟨down, .inr ⟨rfl, gone⟩⟩
  | join phase first ended =>
    rcases waits with waits | ⟨idle, -⟩
    · exact ⟨down, .inl waits⟩
    · rw [phase] at idle
      cases idle
  | keys free => exact ⟨down, waits⟩
  | @work i worker _ _ there works =>
    obtain ⟨after, placed⟩ := works.placed
    refine ⟨?_, ?_⟩
    · rcases placed.flag with ⟨-, same⟩ | lowered
      · exact same.trans down
      · exact lowered
    · rcases waits with waits | ⟨-, gone⟩
      · rw [placed.phase]
        exact .inl waits
      · rw [gone] at there
        cases there
  | refuse phase => exact ⟨rfl, .inl ⟨_, _, rfl⟩⟩
  | cleared phase | forget phase | raise phase | spawnInstructions phase | spawnTimers phase
  | announce phase =>
    -- the controller is inside a call to start
    rcases waits with ⟨_, _, waits⟩ | ⟨idle, -⟩
    · rw [phase] at waits
      cases waits
    · rw [phase] at idle
      cases idle

/-- The clocks are off, and stay off until they are started. -/
structure Off (s : Scheduler ρ α) : Prop where
  running : s.running = false
  workers : s.workers = []
  /-- A further stop leads back to the same scheduler. -/
  stop : ∃ stopping, s.next .stop = some (stopping, []) ∧
    ∀ threads, stopping.next (.control threads) = some (s, [.returned (.ok ())])
  /-- Whoever moves, there are new keys and further stops, and nothing else. -/
  stays : ∀ {ms : List Move} {s' : Scheduler ρ α} {effects : List Effect},
    s.nextAll ms = some (s', effects) → (∀ m ∈ ms, m ≠ .start) →
    (∃ pad phase, s' = { s with machine := { s.machine with keypad := pad }, phase }) ∧
    ∀ effect ∈ effects, (∃ pad, effect = .keys pad) ∨ effect = .returned (.ok ())

/-- The scheduler is `s` but for the keys and a stop that may be under way. -/
def Rests (s s' : Scheduler ρ α) : Prop :=
  ∃ pad phase, (phase = .idle ∨ phase = .awaiting (.finish false none)) ∧
    s' = { s with machine := { s.machine with keypad := pad }, phase }

theorem Makes.rests {t : Scheduler ρ α} (makes : Makes s m s' effects) (rests : t.Rests s)
    (down : t.running = false) (gone : t.workers = []) (still : m ≠ .start) :
    t.Rests s' ∧ ∀ effect ∈ effects, (∃ pad, effect = .keys pad) ∨ effect = .returned (.ok ()) := by
  obtain ⟨pad, phase, waits, rfl⟩ := rests
  cases makes with
  | startAgain | start => exact absurd rfl still
  | stop =>
    refine ⟨⟨pad, _, .inr rfl, ?_⟩, fun effect none => nomatch none⟩
    simp only [down]
  | finish waiting =>
    refine ⟨⟨pad, .idle, .inl rfl, rfl⟩, ?_⟩
    rcases waits with rfl | rfl
    · cases waiting
    · cases waiting
      simp
  | keys => exact ⟨⟨_, phase, waits, rfl⟩, by simp⟩
  | join waiting first =>
    rw [gone] at first
    cases first
  | work there =>
    rw [gone] at there
    cases there
  | cleared other | forget other | raise other | spawnInstructions other | spawnTimers other
  | refuse other | announce other =>
    rcases waits with rfl | rfl <;> cases other

theorem off_of_stopping (stopping : s.Stopping) (idle : s.phase = .idle) : s.Off := by
  obtain ⟨down, ⟨_, _, waits⟩ | ⟨-, gone⟩⟩ := stopping
  · rw [idle] at waits
    cases waits
  refine ⟨down, gone, ⟨_, (Makes.stop idle).next, ?_⟩, ?_⟩
  · intro threads
    obtain ⟨machine, renderer, audio, _, fault, _, _, runs, ips⟩ := s
    cases down
    cases gone
    cases idle
    rfl
  · intro ms s' effects h still
    have begin : s.Rests s := ⟨s.machine.keypad, s.phase, .inl idle, rfl⟩
    obtain ⟨⟨pad, phase, -, e⟩, seen⟩ :=
      nextAll_kept (fun rests still makes => makes.rests rests down gone still) h begin still
    exact ⟨⟨pad, phase, e⟩, seen⟩

theorem off_of_stops {m : Move} {mid s' : Scheduler ρ α} {ms : List Move}
    {seen later : List Effect} (stops : s.Stops m) (made : s.next m = some (mid, seen))
    (h : mid.nextAll ms = some (s', later)) (still : ∀ m ∈ ms, m ≠ .start) :
    s'.running = false ∧ (s'.phase = .idle → s'.Off) := by
  have begin : mid.Stopping := (next_eq_some.mp made).stopping_of_stops stops
  obtain ⟨stopping, -⟩ : s'.Stopping ∧ ∀ effect ∈ later, True :=
    nextAll_kept (fun before still makes => ⟨makes.stopping before still, fun _ _ => trivial⟩) h
      begin still
  exact ⟨stopping.down, off_of_stopping stopping⟩

/-! ## Who does what to a run -/

/-- What a move does to the flag, the fault and the workers of the latest run. -/
structure KeepsRun (s : Scheduler ρ α) (m : Move) (s' : Scheduler ρ α) : Prop where
  /-- The flag is raised as a new run begins, and then nobody is at work. -/
  raised : s'.runs = s.runs ∧ (s'.running = true → s.running = true) ∨
    s'.runs = s.runs + 1 ∧ s.running = false ∧ s'.running = true ∧
      s.workers = [] ∧ s'.workers = []
  /-- Whoever has not ended stays with its run and its job. -/
  stays : ∀ worker ∈ s.workers, worker.hasEnded = false →
    ∃ worker' ∈ s'.workers, worker'.run = worker.run ∧ worker'.job.actor = worker.job.actor
  /-- The flag is taken down by stopping and by the run's own workers. -/
  lowered : s.running = true → s'.running = false → s.Stops m ∨ s.ByOwnWorker m
  /-- The fault is forgotten while nobody is at work, and noted by the run's own workers. -/
  fault : s'.fault = s.fault ∨ (s.running = false ∧ s.workers = [] ∧ s'.fault = none) ∨
    s.ByOwnWorker m

theorem Makes.keepsRun (makes : Makes s m s' effects) (sound : s.Sound) : s.KeepsRun m s' := by
  -- most moves leave flag, fault and workers alone
  have still {P : Prop} (up : s.running = true) (down : s.running = false) : P := by
    rw [up] at down
    cases down
  have remain : ∀ w ∈ s.workers, w.hasEnded = false →
      ∃ w' ∈ s.workers, w'.run = w.run ∧ w'.job.actor = w.job.actor :=
    fun w h _ => ⟨w, h, rfl, rfl⟩
  cases makes with
  | startAgain | start | cleared | finish | announce | keys =>
    exact ⟨.inl ⟨rfl, id⟩, remain, still, .inl rfl⟩
  | stop phase =>
    exact ⟨.inl ⟨rfl, fun up => (nomatch up)⟩, remain, fun _ _ => .inl .call, .inl rfl⟩
  | refuse phase =>
    exact ⟨.inl ⟨rfl, fun up => (nomatch up)⟩, remain, fun _ _ => .inl (.refuse phase), .inl rfl⟩
  | forget phase =>
    obtain ⟨down, gone⟩ := sound.cleared (.inl phase)
    exact ⟨.inl ⟨rfl, id⟩, remain, still, .inr (.inl ⟨down, gone, rfl⟩)⟩
  | raise phase =>
    obtain ⟨down, gone⟩ := sound.cleared (.inr phase)
    exact ⟨.inr ⟨rfl, down, rfl, gone, gone⟩, remain, fun _ down => (nomatch down), .inl rfl⟩
  | spawnInstructions | spawnTimers =>
    refine ⟨.inl ⟨rfl, id⟩, ?_, still, .inl rfl⟩
    exact fun w h _ => ⟨w, List.mem_append_left _ h, rfl, rfl⟩
  | join phase first ended =>
    refine ⟨.inl ⟨rfl, id⟩, ?_, still, .inl rfl⟩
    intro w h working
    rw [first] at h
    rcases List.mem_cons.mp h with rfl | h
    · -- the one that is waited for no longer has ended
      rw [Worker.hasEnded, ended] at working
      cases working
    · exact ⟨w, h, rfl, rfl⟩
  | work there works =>
    obtain ⟨after, placed⟩ := works.placed
    have own : s.ByOwnWorker (.work _) := .intro there (sound.own _ (List.mem_of_getElem? there))
    refine ⟨.inl ⟨placed.runs, ?_⟩, fun w h _ => placed.stays there h, fun _ _ => .inr own,
      .inr (.inr own)⟩
    intro up
    rcases placed.flag with ⟨-, same⟩ | down
    · exact same ▸ up
    · rw [down] at up
      cases up

/-! ## The life of a run -/

/--
**Runs do not overlap.**

Take a new scheduler and any moves, by the controller, the workers and whoever sets the keys, in any
order.

After a stop, by a call or because a worker could not be started, and until somebody starts again,
the flag is down, and once the controller is back the clocks are off.

All workers belong to the latest run, as none is left when the flag is raised. So whoever takes the
flag down or notes a fault is one of them, or the controller.

While the flag is up and nobody is inside a call to start, both workers are there, and neither has
ended. Starting again then changes nothing.
-/
theorem lifecycle {machine : Machine} {renderer : ρ} {audio : α} {past : List Move}
    (reached : (new machine renderer audio).nextAll past = some (s, effects)) :
    (∀ {m mid seen ms s' later}, s.Stops m → s.next m = some (mid, seen) →
      mid.nextAll ms = some (s', later) → (∀ m ∈ ms, m ≠ .start) →
      s'.running = false ∧ (s'.phase = .idle → s'.Off)) ∧
    ((∀ worker ∈ s.workers, worker.run = s.runs) ∧
      ∀ {m s' seen}, s.next m = some (s', seen) → s.KeepsRun m s') ∧
    (s.running = true →
      (s.phase.starting = false → s.crew = [.instructions, .timers] ∧
        ∀ worker ∈ s.workers, worker.run = s.runs ∧ worker.hasEnded = false) ∧
      (s.phase = .idle → s.next .start = some (s, [.returned (.ok ())]))) := by
  have sound : s.Sound := sound_of_nextAll reached
  refine ⟨fun stops made rest still => off_of_stops stops made rest still,
    ⟨sound.own, fun made => (next_eq_some.mp made).keepsRun sound⟩, fun up => ⟨?_, ?_⟩⟩
  · exact sound.at_work up
  · exact fun idle => (Makes.startAgain idle up).next

/-- The moves of a call to start that finds nobody at work. -/
def startCall : List Move := .start :: List.replicate 6 (.control (.ok ()))

/-- The renderer breaks down at the first frame, and the controller stops the clocks before the
instruction worker has taken the flag down. -/
theorem lifecycle_renderer_breaks_down :
    ∃ s effects, (new (.fresh {} (.ofSeed 0)) (FrameRecorder.mk 0 .blank (some 0)) Mute.mk).nextAll
        (startCall ++ [.work 0, .work 0, .work 0]) = some (s, effects) ∧
      s.running = true ∧ s.crew = [.instructions, .timers] ∧
      ∃ mid seen, s.next .stop = some (mid, seen) ∧
        ∃ s' later, mid.nextAll ([.work 0, .work 1, .work 1] ++
          List.replicate 3 (.control (.ok ()))) = some (s', later) ∧ s'.Off := by
  obtain ⟨s, effects, reached, up, idle, mid, seen, made, s', later, rest, returned⟩ :
      ∃ s effects,
        (new (.fresh {} (.ofSeed 0)) (FrameRecorder.mk 0 .blank (some 0)) Mute.mk).nextAll
          (startCall ++ [.work 0, .work 0, .work 0]) = some (s, effects) ∧
        s.running = true ∧ s.phase = .idle ∧
        ∃ mid seen, s.next .stop = some (mid, seen) ∧
          ∃ s' later, mid.nextAll ([.work 0, .work 1, .work 1] ++
            List.replicate 3 (.control (.ok ()))) = some (s', later) ∧ s'.phase = .idle :=
    ⟨_, _, rfl, rfl, rfl, _, _, rfl, _, _, rfl, rfl⟩
  obtain ⟨stopping, -, working⟩ := lifecycle reached
  obtain ⟨crew, -⟩ := (working up).1 (by rw [idle]; rfl)
  have still : ∀ m ∈ [.work 0, .work 1, .work 1] ++ List.replicate 3 (.control (.ok ())),
      m ≠ Move.start := by simp
  exact ⟨s, effects, reached, up, crew, mid, seen, made, s', later, rest,
    (stopping .call made rest still).2 returned⟩

end Chip8.Scheduler
