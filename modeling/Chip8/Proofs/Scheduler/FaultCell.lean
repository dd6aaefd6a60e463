import Chip8.Proofs.StepFault
import Chip8.Proofs.Stuck
import Chip8.Proofs.Scheduler.WholeTicks

/-!
# The cell of the fault

* `Faithful` — what holds of every scheduler in use, as to its fault: it is one that the machine
  does not get over
* `nextAll_run` — what a row of moves keeps as long as no run begins
* `InRun` — a moment of the run that a scheduler begins with its next move
* `Tells` — what holds at every moment of a run: where the instruction worker stands tells how its
  last step ended, and whether that was noted

The fault is noted before the flag is taken down, and forgotten before it is raised. In between only
the instruction worker of the run can write it, and as that is the only one (`eq_of_actor`) the last
step that was shown is its own.
-/

namespace Chip8.Scheduler

variable {ρ α : Type}
variable {s s' : Scheduler ρ α} {i : Nat} {worker : Worker} {m : Move} {effects : List Effect}

/-! ## One worker a job -/

/-- Where no two workers have the same job, one that moves stays the only one with its job. -/
theorem eq_of_actor {after w : Worker} (single : s.crew.Nodup)
    (there : s.workers[i]? = some worker) (mem : w ∈ s.workers.set i after)
    (same : w.job.actor = worker.job.actor) : w = after := by
  obtain ⟨front, back, split, set⟩ := workers_split there after
  rw [crew, split, List.map_append, List.map_cons, List.nodup_append] at single
  obtain ⟨-, behind, before⟩ := single
  rw [set] at mem
  rcases List.mem_append.mp mem with mem | mem
  · have apart := before _ (List.mem_map_of_mem mem) _ List.mem_cons_self
    exact absurd same apart
  · rcases List.mem_cons.mp mem with rfl | mem
    · rfl
    · have apart := (List.nodup_cons.mp behind).1
      exact absurd (same ▸ List.mem_map_of_mem mem) apart

theorem crew_spawned (job : Job) (run : Nat) :
    (s.workers ++ [Worker.mk job run .checking]).map (·.job.actor) = s.crew ++ [job.actor] :=
  List.map_append

section Moves

variable [Renderer ρ] [Audio α]

theorem Makes.crew_nodup (makes : Makes s m s' effects) (sound : s.Sound)
    (single : s.crew.Nodup) : s'.crew.Nodup := by
  cases makes with
  | startAgain | start | stop | cleared | finish | forget | raise | refuse | announce | keys =>
    exact single
  | join phase first ended =>
    rw [crew, first] at single
    exact (List.nodup_cons.mp single).2
  | spawnInstructions phase =>
    have nobody : s.crew = [] := sound.fits_at phase
    rw [crew, crew_spawned, nobody]
    simp
  | spawnTimers phase =>
    have one : s.crew = [.instructions] := sound.fits_at phase
    rw [crew, crew_spawned, one]
    decide
  | work there works =>
    obtain ⟨after, placed⟩ := works.placed
    rw [placed.crew there]
    exact single

end Moves

/-! ## Faults and the machine -/

/-- What holds of every scheduler in use, as to its fault. -/
structure Faithful (s : Scheduler ρ α) : Prop where
  sound : s.Sound
  /-- No two workers have the same job. -/
  single : s.crew.Nodup
  /-- The last fault is forgotten before the flag is raised. -/
  forgotten : s.phase = .raising → s.fault = none
  /-- The fault is fatal, and the machine does not get over it. -/
  noted : ∀ fault, s.fault = some fault → fault.isFatal = true ∧ s.machine.StuckOn fault
  /-- Nor does it get over a fatal fault that is about to be noted. -/
  pending : ∀ worker ∈ s.workers, ∀ pc fault, worker.stage = .stepped pc (.error fault) →
    fault.isFatal = true → s.machine.StuckOn fault

theorem faithful_new (machine : Machine) (renderer : ρ) (audio : α) :
    (new machine renderer audio).Faithful where
  sound := sound_new machine renderer audio
  single := List.nodup_nil
  forgotten := fun h => nomatch h
  noted := fun _ h => nomatch h
  pending := fun _ h => nomatch h

section Moves

variable [Renderer ρ] [Audio α]

/-- What a worker does about faults: it meets those of the machine, and notes those it met. -/
theorem Works.faults (works : Works s i worker s' effects) :
    ∃ after, s'.workers = s.workers.set i after ∧ s'.phase = s.phase ∧
      (∀ pc fault, after.stage = .stepped pc (.error fault) → s.machine.step.1 = .error fault) ∧
      (s'.fault = s.fault ∨ ∃ pc fault, worker.stage = .stepped pc (.error fault) ∧
        fault.isFatal = true ∧ s'.fault = some fault) := by
  cases works with
  | goOn | giveUp | publishBroke | proceed | levelBroke | report | count | leave =>
    exact ⟨_, rfl, rfl, fun _ _ h => (nomatch h), .inl rfl⟩
  | step free => exact ⟨_, rfl, rfl, fun _ _ h => (Stage.stepped.inj h).2, .inl rfl⟩
  | @halt clock noted run pc outcome fault events fine verdict =>
    obtain ⟨rfl, fatal⟩ := (clock.observe_eq_halt_iff pc).mp (congrArg Prod.fst verdict)
    exact ⟨_, rfl, rfl, fun _ _ h => (nomatch h), .inr ⟨pc, fault, rfl, fatal, rfl⟩⟩

/-- No move gets a machine out. -/
theorem Makes.stuckOn (makes : Makes s m s' effects) {fault : Fault}
    (stuck : s.machine.StuckOn fault) : s'.machine.StuckOn fault := by
  rw [makes.machine.1]
  exact stuck.of_pulseAll _

theorem Makes.faithful (makes : Makes s m s' effects) (faithful : s.Faithful) : s'.Faithful := by
  have sound : s'.Sound := makes.sound faithful.sound
  have single : s'.crew.Nodup := makes.crew_nodup faithful.sound faithful.single
  have stays {fault : Fault} (h : s.machine.StuckOn fault) : s'.machine.StuckOn fault :=
    makes.stuckOn h
  obtain ⟨old, -, forgotten, noted, pending⟩ := faithful
  cases makes with
  | startAgain => exact ⟨sound, single, forgotten, noted, pending⟩
  | start | stop | cleared | finish | announce | refuse | raise =>
    exact ⟨sound, single, fun h => (nomatch h), noted, pending⟩
  | forget phase =>
    exact ⟨sound, single, fun _ => rfl, fun _ h => (nomatch h), pending⟩
  | join phase first =>
    refine ⟨sound, single, forgotten, noted, fun w h => pending w ?_⟩
    rw [first]
    exact List.mem_cons_of_mem _ h
  | spawnInstructions | spawnTimers =>
    refine ⟨sound, single, fun h => (nomatch h), noted, fun w h => ?_⟩
    rcases List.mem_append.mp h with h | h
    · exact pending w h
    · rw [List.mem_singleton.mp h]
      exact fun _ _ h => nomatch h
  | keys =>
    exact ⟨sound, single, forgotten, fun fault h => (noted fault h).imp_right stays,
      fun w h pc fault stage fatal => stays (pending w h pc fault stage fatal)⟩
  | @work i worker _ _ there works =>
    have mem : worker ∈ s.workers := List.mem_of_getElem? there
    obtain ⟨after, workers, phase, met, notes⟩ := works.faults
    refine ⟨sound, single, ?_, ?_, ?_⟩
    · intro raising
      obtain ⟨-, gone⟩ := old.cleared (.inr (phase.symm.trans raising))
      rw [gone] at mem
      cases mem
    · intro fault h
      rcases notes with same | ⟨pc, fault', stage, fatal, e⟩
      · exact (noted fault (same.symm.trans h)).imp_right stays
      · obtain rfl : fault' = fault := Option.some.inj (e.symm.trans h)
        exact ⟨fatal, stays (pending worker mem pc fault' stage fatal)⟩
    · intro w h pc fault stage fatal
      rw [workers] at h
      rcases List.mem_or_eq_of_mem_set h with h | rfl
      · exact stays (pending w h pc fault stage fatal)
      · exact stays (Machine.stuckOn_of_fatal (met pc fault stage) fatal)

theorem faithful_of_nextAll {machine : Machine} {renderer : ρ} {audio : α} {past : List Move}
    (h : (new machine renderer audio).nextAll past = some (s, effects)) : s.Faithful :=
  nextAll_invariant (fun faithful makes => makes.faithful faithful) h
    (faithful_new machine renderer audio)

/-! ## Within a run -/

theorem Makes.runs_le (makes : Makes s m s' effects) (sound : s.Sound) : s.runs ≤ s'.runs := by
  rcases (makes.keepsRun sound).raised with ⟨same, -⟩ | ⟨next, -⟩
  · exact Nat.le_of_eq same.symm
  · exact next ▸ Nat.le_succ _

/-- What every move that begins no run keeps, a row of moves keeps until a run begins. -/
theorem nextAll_run (kept : Scheduler ρ α → List Effect → Prop)
    (move : ∀ {s m s' shown effects}, s.Faithful → kept s shown → Makes s m s' effects →
      s'.runs = s.runs → kept s' (shown ++ effects))
    {ms : List Move} (h : s.nextAll ms = some (s', effects)) (faithful : s.Faithful)
    (same : s'.runs = s.runs) (first : kept s []) : kept s' effects := by
  let inRun (t : Scheduler ρ α) (_ : List Move) (shown : List Effect) : Prop :=
    t.Faithful ∧ s.runs ≤ t.runs ∧ (t.runs = s.runs → kept t shown)
  have all : inRun s' ([] ++ ms) ([] ++ effects) := by
    refine nextAll_history inRun ?_ h [] [] ⟨faithful, Nat.le_refl _, fun _ => first⟩
    rintro t m t' past shown effects ⟨faithful, le, before⟩ makes
    -- runs are only ever added, so that every one of the moves lies in the run
    have grows : t.runs ≤ t'.runs := makes.runs_le faithful.sound
    refine ⟨makes.faithful faithful, Nat.le_trans le grows, fun same => ?_⟩
    have still : t.runs = s.runs := Nat.le_antisymm (same ▸ grows) le
    exact move faithful (before still) makes (same.trans still.symm)
  exact all.2.2 same

end Moves

/-- What the stage of an instruction worker tells of the last step of its run. -/
def Stage.Tells (last : Option (Except Fault Unit)) (noted : Option Fault) : Stage → Prop
  | .checking | .waiting => ∀ fault, last = some (.error fault) → fault.isFatal = false
  | .stepped _ outcome => last = some outcome
  | .leaving false | .ended false =>
    ∀ fault, last = some (.error fault) → fault.isFatal = true → noted = some fault
  | .leaving true | .ended true => True
  | .counted _ => False

/-- What a scheduler tells of the last step of a run. -/
structure Tells (s : Scheduler ρ α) (last : Option (Except Fault Unit)) : Prop where
  worker : ∀ worker ∈ s.workers, worker.job.actor = .instructions →
    worker.stage.Tells last s.fault
  fault : ∀ fault, s.fault = some fault → last = some (.error fault)
  begins : ∀ clock, s.phase = .spawning (.instructions clock) → last = none

variable {last : Option (Except Fault Unit)}

/-- An instruction worker that has left by itself has noted what it met. -/
theorem Tells.noted (tells : s.Tells last) (mem : worker ∈ s.workers)
    (actor : worker.job.actor = .instructions)
    (left : worker.stage = .leaving false ∨ worker.stage = .ended false) {fault : Fault}
    (met : last = some (.error fault)) (fatal : fault.isFatal = true) : s.fault = some fault := by
  have own := tells.worker worker mem actor
  rcases left with left | left
  · rw [left] at own
    exact own fault met fatal
  · rw [left] at own
    exact own fault met fatal

/-- Where the fault was met, the instruction worker is about to note it or has left. -/
theorem Tells.left_of_fatal {fault : Fault} (tells : s.Tells (some (.error fault)))
    (fatal : fault.isFatal = true) (mem : worker ∈ s.workers)
    (actor : worker.job.actor = .instructions) :
    (∃ pc, worker.stage = .stepped pc (.error fault)) ∨
    s.fault = some fault ∧ (worker.stage = .leaving false ∨ worker.stage = .ended false) ∨
    worker.stage = .leaving true ∨ worker.stage = .ended true := by
  have own := tells.worker worker mem actor
  cases stage : worker.stage with
  | checking | waiting =>
    rw [stage] at own
    cases fatal.symm.trans (own fault rfl)
  | stepped pc outcome =>
    rw [stage] at own
    obtain rfl : .error fault = outcome := Option.some.inj own
    exact .inl ⟨pc, rfl⟩
  | counted level =>
    rw [stage] at own
    cases own
  | leaving brokeDown =>
    cases brokeDown with
    | true => exact .inr (.inr (.inl rfl))
    | false => exact .inr (.inl ⟨tells.noted mem actor (.inl stage) rfl fatal, .inl rfl⟩)
  | ended brokeDown =>
    cases brokeDown with
    | true => exact .inr (.inr (.inr rfl))
    | false => exact .inr (.inl ⟨tells.noted mem actor (.inr stage) rfl fatal, .inr rfl⟩)

/-- A worker that makes no step and notes no fault has its own stage to answer for. -/
theorem Tells.place {after : Worker} (tells : s.Tells last)
    (workers : s'.workers = s.workers.set i after) (phase : s'.phase = s.phase)
    (fault : s'.fault = s.fault)
    (stage : after.job.actor = .instructions → after.stage.Tells last s.fault) : s'.Tells last := by
  refine ⟨?_, fault ▸ tells.fault, phase ▸ tells.begins⟩
  intro w h actor
  rw [fault]
  rw [workers] at h
  rcases List.mem_or_eq_of_mem_set h with h | rfl
  · exact tells.worker w h actor
  · exact stage actor

/-- For a step and for a fault the instruction worker answers alone. -/
theorem tells_of_sole {after : Worker} (faithful : s.Faithful) (there : s.workers[i]? = some worker)
    (actor : worker.job.actor = .instructions) (workers : s'.workers = s.workers.set i after)
    (phase : s'.phase = s.phase) (stage : after.stage.Tells last s'.fault)
    (fault : ∀ fault, s'.fault = some fault → last = some (.error fault)) : s'.Tells last := by
  refine ⟨?_, fault, ?_⟩
  · intro w h same
    rw [workers] at h
    obtain rfl := eq_of_actor faithful.single there h (same.trans actor.symm)
    exact stage
  · intro clock spawning
    have nobody : s.workers = [] :=
      crew_eq_nil.mp (faithful.sound.fits_at (phase.symm.trans spawning))
    rw [nobody] at there
    cases there

theorem mild_of_proceed {clock noted : InstructionClock} {pc : UInt16} {fault : Fault}
    {events : List Event} (h : clock.observe pc (.error fault) = (.proceed, noted, events)) :
    fault.isFatal = false := by
  cases fatal : fault.isFatal with
  | false => rfl
  | true =>
    have halts := (clock.observe_eq_halt_iff pc).mpr ⟨rfl, fatal⟩
    rw [h] at halts
    cases halts

section Moves

variable [Renderer ρ] [Audio α]

theorem Works.tells (works : Works s i worker s' effects) (there : s.workers[i]? = some worker)
    (faithful : s.Faithful) (tells : s.Tells last) :
    s'.Tells ((outcomes effects).getLast?.or last) := by
  have own := tells.worker worker (List.mem_of_getElem? there)
  cases works with
  | goOn => exact tells.place rfl rfl rfl own
  | giveUp =>
    refine tells.place rfl rfl rfl fun actor fault h fatal => ?_
    have mild := own actor fault h
    rw [fatal] at mild
    cases mild
  | step free =>
    rw [outcomes_logged]
    refine tells_of_sole faithful there rfl rfl rfl rfl fun fault h => ?_
    -- a fault that is there already is met again
    exact congrArg some (faithful.noted fault h).2.fails
  | publishBroke => exact tells.place rfl rfl rfl fun _ => trivial
  | proceed fine verdict =>
    rw [outcomes_logged]
    refine tells.place rfl rfl rfl fun actor fault h => ?_
    obtain rfl := Option.some.inj ((own actor).symm.trans h)
    exact mild_of_proceed verdict
  | @halt clock noted run pc outcome fault events fine verdict =>
    rw [outcomes_logged]
    obtain ⟨rfl, -⟩ := (clock.observe_eq_halt_iff pc).mp (congrArg Prod.fst verdict)
    have met : last = some (.error fault) := own rfl
    refine tells_of_sole faithful there rfl rfl rfl ?_ ?_
    · intro fault' h _
      exact congrArg some (Except.error.inj (Option.some.inj (met.symm.trans h)))
    · rintro _ ⟨⟩
      exact met
  | count | levelBroke | report => exact tells.place rfl rfl rfl fun h => nomatch h
  | @leave job run brokeDown =>
    cases brokeDown with
    | true => exact tells.place rfl rfl rfl fun _ => trivial
    | false => exact tells.place rfl rfl rfl own

theorem Makes.tells (makes : Makes s m s' effects) (faithful : s.Faithful) (tells : s.Tells last)
    (same : s'.runs = s.runs) : s'.Tells ((outcomes effects).getLast?.or last) := by
  cases makes with
  | startAgain => exact tells
  | keys => exact ⟨tells.worker, tells.fault, tells.begins⟩
  | start | stop | cleared | refuse | announce =>
    exact ⟨tells.worker, tells.fault, fun _ h => nomatch h⟩
  | @finish _ wasRunning =>
    cases wasRunning <;> exact ⟨tells.worker, tells.fault, fun _ h => nomatch h⟩
  | @join _ _ _ rest brokeDown phase first =>
    have fewer : ∀ w ∈ rest, w.job.actor = .instructions → w.stage.Tells last s.fault := by
      intro w h
      refine tells.worker w ?_
      rw [first]
      exact List.mem_cons_of_mem _ h
    cases brokeDown <;> exact ⟨fewer, tells.fault, tells.begins⟩
  | forget phase =>
    obtain ⟨-, gone⟩ := faithful.sound.cleared (.inl phase)
    refine ⟨fun w h => ?_, fun _ h => (nomatch h), fun _ h => nomatch h⟩
    rw [gone] at h
    cases h
  | raise => exact absurd same (Nat.succ_ne_self _)
  | @spawnInstructions clock phase =>
    have begins : last = none := tells.begins clock phase
    refine ⟨fun w h actor => ?_, tells.fault, fun _ h => nomatch h⟩
    rcases List.mem_append.mp h with h | h
    · exact tells.worker w h actor
    · rw [List.mem_singleton.mp h]
      intro fault met
      cases begins.symm.trans met
  | spawnTimers =>
    refine ⟨fun w h actor => ?_, tells.fault, fun _ h => nomatch h⟩
    rcases List.mem_append.mp h with h | h
    · exact tells.worker w h actor
    · rw [List.mem_singleton.mp h] at actor
      cases actor
  | work there works => exact works.tells there faithful tells

/-- A run begins with the fault forgotten and with no step made. -/
theorem Makes.tells_none (makes : Makes s m s' effects) (faithful : s.Faithful)
    (begun : s'.runs = s.runs + 1) : s'.Tells none := by
  have other {P : Prop} (same : s'.runs = s.runs) : P :=
    absurd (same.symm.trans begun) (Nat.ne_of_lt (Nat.lt_succ_self _))
  cases makes with
  | raise phase =>
    obtain ⟨-, gone⟩ := faithful.sound.cleared (.inr phase)
    refine ⟨fun w h => ?_, fun fault h => ?_, fun _ _ => rfl⟩
    · rw [gone] at h
      cases h
    · cases (faithful.forgotten phase).symm.trans h
  | work there works =>
    obtain ⟨after, placed⟩ := works.placed
    exact other placed.runs
  | _ => exact other rfl

/-- The next move of the scheduler begins a run, and this is a moment of it, after such effects. -/
inductive InRun (s : Scheduler ρ α) : Scheduler ρ α → List Effect → Prop
  | intro {m : Move} {begun s' : Scheduler ρ α} {seen shown : List Effect} {ms : List Move}
      (made : s.next m = some (begun, seen)) (begins : begun.runs = s.runs + 1)
      (rest : begun.nextAll ms = some (s', shown)) (same : s'.runs = begun.runs) :
      InRun s s' shown

/-- What a run begins with and every move keeps until the next begins, holds all through the run. -/
theorem InRun.kept {shown : List Effect} (run : s.InRun s' shown) (faithful : s.Faithful)
    (kept : Scheduler ρ α → List Effect → Prop)
    (begin : ∀ {m begun seen}, Makes s m begun seen → begun.Tells none → kept begun [])
    (move : ∀ {s m s' shown effects}, s.Faithful → kept s shown → Makes s m s' effects →
      s'.runs = s.runs → kept s' (shown ++ effects)) : kept s' shown := by
  obtain ⟨made, begins, rest, same⟩ := run
  have makes := next_eq_some.mp made
  exact nextAll_run kept move rest (makes.faithful faithful) same
    (begin makes (makes.tells_none faithful begins))

theorem InRun.faithful {shown : List Effect} (run : s.InRun s' shown) (faithful : s.Faithful) :
    s'.Faithful := by
  obtain ⟨made, -, rest, -⟩ := run
  exact nextAll_invariant (fun faithful makes => makes.faithful faithful) rest
    ((next_eq_some.mp made).faithful faithful)

/-- At every moment of a run the scheduler tells of the last step. -/
theorem InRun.tells {shown : List Effect} (run : s.InRun s' shown) (faithful : s.Faithful) :
    s'.Tells (outcomes shown).getLast? := by
  refine run.kept faithful (fun t shown => t.Tells (outcomes shown).getLast?)
    (fun _ tells => tells) ?_
  intro t m t' shown effects faithful tells makes same
  rw [outcomes_append, List.getLast?_append]
  exact makes.tells faithful tells same

end Moves

end Chip8.Scheduler
