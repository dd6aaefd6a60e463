import Chip8.Proofs.Scheduler.FaultCell

/-!
# The fault that halted the clocks

* `levels_of_nextAll` — with the flag down, one more tick of the timers at most
* `machine_of_fatal` — the machine after a step that met a fatal fault
* `StartCalled` — a call to start that finds the flag down, the only way to forget a fault
* `fault_protocol` — what a noted fault says, and how long it stays
-/

namespace Chip8.Scheduler

variable {ρ α : Type}
variable {s s' : Scheduler ρ α} {i : Nat} {worker : Worker} {m : Move} {effects : List Effect}

/-! ## At most one more tick -/

/-- Whether a worker is in the middle of a tick of the timers, or about to begin one without looking
at the flag again. -/
def Worker.ticksOn (worker : Worker) : Bool :=
  match worker.job, worker.stage with
  | .timers, .waiting | .timers, .counted _ => true
  | _, _ => false

/-- How many workers have a tick of the timers before them. -/
def ticksLeft (s : Scheduler ρ α) : Nat := s.workers.countP (·.ticksOn)

theorem ticksLeft_le_one (single : s.crew.Nodup) : s.ticksLeft ≤ 1 := by
  have timers {w : Worker} (h : w.ticksOn = true) : (w.job.actor == Actor.timers) = true := by
    obtain ⟨_ | _, run, stage⟩ := w
    · cases stage <;> cases h
    · rfl
  calc s.ticksLeft
    _ ≤ s.workers.countP (·.job.actor == .timers) :=
      List.countP_mono_left fun w _ => timers
    _ = s.crew.count .timers := by
      rw [crew, List.count, List.countP_map]
      rfl
    _ ≤ 1 := List.nodup_iff_count.mp single .timers

/-- A worker put in place of another changes a count by the two of them alone. -/
theorem countP_placed (there : s.workers[i]? = some worker) (after : Worker)
    (p : Worker → Bool) :
    (s.workers.set i after).countP p + (p worker).toNat =
      s.workers.countP p + (p after).toNat := by
  obtain ⟨front, back, split, set⟩ := workers_split there after
  rw [set, split, List.countP_append, List.countP_append, List.countP_cons, List.countP_cons]
  cases p worker <;> cases p after <;> simp <;> omega

section Moves

variable [Renderer ρ] [Audio α]

/-- With the flag down, a worker reports at most the tick that is before it. -/
theorem Works.levels_le (works : Works s i worker s' effects) (down : s.running = false) :
    ∃ after, s'.workers = s.workers.set i after ∧ s'.running = false ∧
      (levels effects).length + after.ticksOn.toNat ≤ worker.ticksOn.toNat := by
  cases works with
  | goOn up =>
    rw [down] at up
    cases up
  | @giveUp job =>
    refine ⟨_, rfl, down, ?_⟩
    cases job <;> exact Nat.le_refl 0
  | step | proceed | halt =>
    refine ⟨_, rfl, down, ?_⟩
    rw [levels_logged]
    exact Nat.le_refl 0
  | publishBroke => exact ⟨_, rfl, down, Nat.le_refl 0⟩
  | count | levelBroke | report => exact ⟨_, rfl, down, Nat.le_refl 1⟩
  | @leave job _ brokeDown =>
    refine ⟨_, rfl, rfl, ?_⟩
    cases job <;> cases brokeDown <;> exact Nat.le_refl 0

theorem Makes.levels_le (makes : Makes s m s' effects) (down : s.running = false)
    (same : s'.runs = s.runs) :
    s'.running = false ∧ (levels effects).length + s'.ticksLeft ≤ s.ticksLeft := by
  cases makes with
  | startAgain | start | cleared | forget | announce | keys =>
    exact ⟨down, Nat.le_of_eq (Nat.zero_add _)⟩
  | stop | refuse => exact ⟨rfl, Nat.le_of_eq (Nat.zero_add _)⟩
  | raise => exact absurd same (Nat.succ_ne_self _)
  | @finish _ wasRunning =>
    -- records of the log are no levels
    refine ⟨down, ?_⟩
    cases wasRunning <;> exact Nat.le_of_eq (Nat.zero_add _)
  | @join _ _ worker rest brokeDown phase first =>
    have quiet : levels (if brokeDown then [.log .controller .foundBrokenDown] else []) = [] := by
      cases brokeDown <;> rfl
    refine ⟨down, ?_⟩
    rw [quiet, List.length_nil, Nat.zero_add, ticksLeft, ticksLeft, first, List.countP_cons]
    exact Nat.le_add_right ..
  | spawnInstructions | spawnTimers =>
    refine ⟨down, ?_⟩
    simp [ticksLeft, levels, Worker.ticksOn]
  | work there works =>
    obtain ⟨after, placed, down', fewer⟩ := works.levels_le down
    refine ⟨down', ?_⟩
    have count := countP_placed there after (·.ticksOn)
    rw [ticksLeft, ticksLeft, placed]
    omega

/-- Once the flag is down, at most one more tick of the timers is reported in the run. -/
theorem levels_of_nextAll {ms : List Move} (h : s.nextAll ms = some (s', effects))
    (faithful : s.Faithful) (down : s.running = false) (same : s'.runs = s.runs) :
    (levels effects).length ≤ 1 := by
  let kept (t : Scheduler ρ α) (shown : List Effect) : Prop :=
    t.running = false ∧ (levels shown).length + t.ticksLeft ≤ 1
  have all : kept s' effects := by
    refine nextAll_run kept ?_ h faithful same ⟨down, ?_⟩
    · rintro t m t' shown effects - ⟨down, before⟩ makes same
      obtain ⟨down', fewer⟩ := makes.levels_le down same
      refine ⟨down', ?_⟩
      rw [levels_append, List.length_append]
      omega
    · exact Nat.le_trans (Nat.le_of_eq (Nat.zero_add _)) (ticksLeft_le_one faithful.single)
  exact Nat.le_trans (Nat.le_add_right _ _) all.2

/-! ## The machine stays -/

/-- After a step that met a fatal fault, nothing but timers and keys ever changes. -/
theorem machine_of_fatal {mid : Scheduler ρ α} {seen : List Effect} {fault : Fault}
    {ms : List Move} (made : s.next (.work i) = some (mid, seen))
    (met : .step (.error fault) ∈ seen) (fatal : fault.isFatal = true)
    (h : mid.nextAll ms = some (s', effects)) :
    ∃ timers keypad, s'.machine = { s.machine with timers, keypad } ∧
      ((∀ pad, .keys pad ∉ effects) → keypad = s.machine.keypad) := by
  have makes : Makes s (.work i) mid seen := next_eq_some.mp made
  obtain ⟨fails, keyless⟩ : s.machine.step.1 = .error fault ∧ pulses seen = [.step] := by
    cases makes with
    | work there works =>
      cases works with
      | step =>
        rw [pulses_logged]
        refine ⟨?_, rfl⟩
        simpa [eq_comm] using met
      | leave => split at met <;> simp at met
      | _ => simp at met
  have stuck : s.machine.StuckOn fault := Machine.stuckOn_of_fatal fails fatal
  obtain ⟨machine, -⟩ := machine_of_nextAll (nextAll_cons.mpr ⟨mid, seen, effects, makes, h, rfl⟩)
  obtain ⟨-, timers, keypad, e, kept⟩ := stuck.pulseAll (pulses (seen ++ effects))
  refine ⟨timers, keypad, machine.trans e, fun none => kept fun change mem => ?_⟩
  rw [pulses_append, keyless] at mem
  obtain ⟨effect, shown, pulse⟩ : ∃ effect ∈ effects, effect.pulse? = some (.keys change) := by
    simpa [pulses] using mem
  cases effect with
  | keys pad => exact none pad shown
  | _ => cases pulse

end Moves

/-! ## Forgetting -/

/-- Whether the controller is inside a call to start that found the flag down, and has not raised it
yet. -/
def Phase.restarts : Phase → Bool
  | .awaiting .start | .forgetting | .raising => true
  | .idle | .awaiting (.finish _ _) | .spawning _ | .announcing => false

section Moves

variable [Renderer ρ] [Audio α]
variable {first : Scheduler ρ α} {past : List Move} {shown : List Effect} {runs : Nat}

/-- Only a call to start that finds the flag down leads to forgetting the fault. -/
theorem Makes.restarts (makes : Makes s m s' effects) (restarts : s'.phase.restarts = true) :
    s'.runs = s.runs ∧
    (s.phase.restarts = true ∨ m = .start ∧ s.phase = .idle ∧ s.running = false) := by
  cases makes with
  | startAgain | keys | join => exact ⟨rfl, .inl restarts⟩
  | start phase down => exact ⟨rfl, .inr ⟨rfl, phase, down⟩⟩
  | cleared phase | forget phase => exact ⟨rfl, .inl (by rw [phase]; rfl)⟩
  | work there works =>
    obtain ⟨after, placed⟩ := works.placed
    exact ⟨placed.runs, .inl (placed.phase ▸ restarts)⟩
  | stop | finish | raise | spawnInstructions | spawnTimers | refuse | announce => cases restarts

/-- Among the moves is a call to start that finds the flag down, while so many runs were started. -/
def StartCalled (first : Scheduler ρ α) (moves : List Move) (runs : Nat) : Prop :=
  ∃ past rest s effects, moves = past ++ .start :: rest ∧
    first.nextAll past = some (s, effects) ∧
    s.phase = .idle ∧ s.running = false ∧ s.runs = runs

theorem StartCalled.concat (called : StartCalled first past runs) (m : Move) :
    StartCalled first (past ++ [m]) runs := by
  obtain ⟨before, rest, s, effects, rfl, reached, found⟩ := called
  exact ⟨before, rest ++ [m], s, effects, by simp, reached, found⟩

/-- A fault that was noted stays unless it is forgotten. -/
theorem Makes.fault_eq (makes : Makes s m s' effects) (faithful : s.Faithful) {fault : Fault}
    (noted : s.fault = some fault) :
    s'.fault = some fault ∧ s'.runs = s.runs ∨ s.phase = .forgetting := by
  cases makes with
  | forget phase => exact .inr phase
  | raise phase => cases (faithful.forgotten phase).symm.trans noted
  | @work i worker _ _ there works =>
    obtain ⟨_, placed⟩ := works.placed
    obtain ⟨-, -, -, -, same | ⟨pc, fault', stage, fatal, e⟩⟩ := works.faults
    · exact .inl ⟨same.trans noted, placed.runs⟩
    · -- another fault would be met by the same machine
      have pending := faithful.pending worker (List.mem_of_getElem? there) pc fault' stage fatal
      obtain rfl : fault' = fault := pending.unique (faithful.noted fault noted).2
      exact .inl ⟨e, placed.runs⟩
  | _ => exact .inl ⟨noted, rfl⟩

/-- A fault that was noted stays whoever stops the clocks, as long as nobody starts them. -/
theorem fault_of_stops {fault : Fault} {ms : List Move} (h : s.nextAll ms = some (s', effects))
    (faithful : s.Faithful) (noted : s.fault = some fault) (outside : s.phase.restarts = false)
    (still : ∀ m ∈ ms, m ≠ .start) : s'.fault = some fault := by
  let kept (t : Scheduler ρ α) : Prop :=
    t.Faithful ∧ t.fault = some fault ∧ t.phase.restarts = false
  have all : kept s' ∧ ∀ effect ∈ effects, True := by
    refine nextAll_kept ?_ h ⟨faithful, noted, outside⟩ still
    rintro t m t' effects ⟨faithful, noted, outside⟩ still makes
    refine ⟨⟨makes.faithful faithful, ?_, ?_⟩, fun _ _ => trivial⟩
    · rcases makes.fault_eq faithful noted with ⟨noted', -⟩ | forgetting
      · exact noted'
      · rw [forgetting] at outside
        cases outside
    · cases restarts : t'.phase.restarts with
      | false => rfl
      | true =>
        obtain ⟨-, inside | ⟨call, -⟩⟩ := makes.restarts restarts
        · exact inside.symm.trans outside
        · exact absurd call still
  exact all.1.2.1

/-- A scheduler in use, with the moves that led to it. -/
structure Traced (first s : Scheduler ρ α) (past : List Move) (shown : List Effect) : Prop where
  reached : first.nextAll past = some (s, shown)
  faithful : s.Faithful
  called : s.phase.restarts = true → StartCalled first past s.runs

theorem Traced.concat (traced : Traced first s past shown) (makes : Makes s m s' effects) :
    Traced first s' (past ++ [m]) (shown ++ effects) where
  reached := nextAll_concat traced.reached makes
  faithful := makes.faithful traced.faithful
  called := by
    intro restarts
    obtain ⟨same, inside | ⟨rfl, idle, down⟩⟩ := makes.restarts restarts
    · exact same ▸ (traced.called inside).concat m
    · exact ⟨past, [], s, shown, rfl, traced.reached, idle, down, same.symm⟩

theorem traced_of_nextAll {machine : Machine} {renderer : ρ} {audio : α}
    (h : (new machine renderer audio).nextAll past = some (s, effects)) :
    Traced (new machine renderer audio) s past effects :=
  nextAll_history (Traced (new machine renderer audio)) Traced.concat h [] []
    ⟨rfl, faithful_new machine renderer audio, fun h => nomatch h⟩

/-- A fault that was noted stays until a call to start finds the flag down. -/
theorem Traced.fault_or_startCalled (traced : Traced first s past shown) {fault : Fault}
    (noted : s.fault = some fault) {ms : List Move} (h : s.nextAll ms = some (s', effects)) :
    s'.fault = some fault ∨ StartCalled first (past ++ ms) s.runs := by
  let kept (t : Scheduler ρ α) (past : List Move) (shown : List Effect) : Prop :=
    Traced first t past shown ∧
    (t.fault = some fault ∧ t.runs = s.runs ∨ StartCalled first past s.runs)
  have all : kept s' (past ++ ms) (shown ++ effects) := by
    refine nextAll_history kept ?_ h past shown ⟨traced, .inl ⟨noted, rfl⟩⟩
    rintro t m t' past shown effects ⟨traced, ⟨noted, same⟩ | called⟩ makes
    · refine ⟨traced.concat makes, ?_⟩
      rcases makes.fault_eq traced.faithful noted with ⟨noted', same'⟩ | forgetting
      · exact .inl ⟨noted', same'.trans same⟩
      · have called := traced.called (by rw [forgetting]; rfl)
        exact .inr (same ▸ called.concat m)
    · exact ⟨traced.concat makes, .inr (called.concat m)⟩
  exact all.2.imp_left And.left

/-! ## The protocol -/

/--
**The fault that halted the clocks.**

Take a new scheduler and any moves, by the controller, the workers and whoever sets the keys, in any
order, whether or not renderer and audio break down on the way.

At every moment of a run, once the instruction worker has left by itself, a fatal fault of its last
step has been noted. If a fault is noted at all it is the one that the last step has met, and if no
step has met a fatal one then none is.

Once the flag is down, the timer worker reports at most one more tick in that run. After a step that
met a fatal fault, timers and keys are all that ever changes of the machine.

A fault that was noted stays, however often the clocks are stopped, and it stays until a call to
start finds the flag down.
-/
theorem fault_protocol {machine : Machine} {renderer : ρ} {audio : α}
    (reached : (new machine renderer audio).nextAll past = some (s, shown)) :
    (∀ {s' effects}, s.InRun s' effects →
      (∀ worker ∈ s'.workers, worker.job.actor = .instructions →
        worker.stage = .leaving false ∨ worker.stage = .ended false →
        ∀ fault, (outcomes effects).getLast? = some (.error fault) → fault.isFatal = true →
          s'.fault = some fault) ∧
      (∀ fault, s'.fault = some fault →
        (outcomes effects).getLast? = some (.error fault) ∧ fault.isFatal = true) ∧
      ((∀ fault, .error fault ∈ outcomes effects → fault.isFatal = false) → s'.fault = none)) ∧
    (∀ {ms s' later}, s.running = false → s.nextAll ms = some (s', later) → s'.runs = s.runs →
      (levels later).length ≤ 1) ∧
    (∀ {i mid seen fault ms s' later}, s.next (.work i) = some (mid, seen) →
      .step (.error fault) ∈ seen → fault.isFatal = true → mid.nextAll ms = some (s', later) →
      ∃ timers keypad, s'.machine = { s.machine with timers, keypad } ∧
        ((∀ pad, .keys pad ∉ later) → keypad = s.machine.keypad)) ∧
    (∀ {fault ms s' later}, s.fault = some fault → s.nextAll ms = some (s', later) →
      (s.phase = .idle → (∀ m ∈ ms, m ≠ .start) → s'.fault = some fault) ∧
      (s'.fault = some fault ∨ StartCalled (new machine renderer audio) (past ++ ms) s.runs)) := by
  have traced : Traced (new machine renderer audio) s past shown := traced_of_nextAll reached
  refine ⟨?_, fun down h same => levels_of_nextAll h traced.faithful down same, machine_of_fatal,
    ?_⟩
  · intro s' effects run
    have faithful : s'.Faithful := run.faithful traced.faithful
    have tells : s'.Tells (outcomes effects).getLast? := run.tells traced.faithful
    refine ⟨fun worker mem actor left fault met fatal => tells.noted mem actor left met fatal,
      fun fault noted => ⟨tells.fault fault noted, (faithful.noted fault noted).1⟩, ?_⟩
    intro mild
    cases noted : s'.fault with
    | none => rfl
    | some fault =>
      have harmless := mild fault (List.mem_of_getLast? (tells.fault fault noted))
      rw [(faithful.noted fault noted).1] at harmless
      cases harmless
  · intro fault ms s' later noted rest
    refine ⟨fun idle still => ?_, traced.fault_or_startCalled noted rest⟩
    exact fault_of_stops rest traced.faithful noted (by rw [idle]; rfl) still

/-- The first step finds no whole word while the timer worker has seen the flag up. Its tick is the
last, and the fault is still there after two stops. -/
theorem fault_protocol_past_end :
    ∃ s shown s' later,
      (new { Machine.fresh {} (.ofSeed 0) with pc := 0xFFF } Headless.mk Mute.mk).nextAll
        (startCall ++ [.work 1] ++ List.replicate 4 (.work 0)) = some (s, shown) ∧
      s.running = false ∧
      s.nextAll (List.replicate 4 (.work 1) ++ [.stop] ++ List.replicate 3 (.control (.ok ())) ++
        [.stop, .control (.ok ())]) = some (s', later) ∧
      (levels later).length ≤ 1 ∧ s'.fault = some (.invalidAddress 0x1000) := by
  have ran :
      ((new { Machine.fresh {} (.ofSeed 0) with pc := 0xFFF } Headless.mk Mute.mk).nextAll
        (startCall ++ [.work 1] ++ List.replicate 4 (.work 0))).any (fun (s, _) =>
          !s.running && s.phase == .idle && s.fault == some (.invalidAddress 0x1000) &&
          (s.nextAll (List.replicate 4 (.work 1) ++ [.stop] ++
            List.replicate 3 (.control (.ok ())) ++ [.stop, .control (.ok ())])).any
              (fun (s', _) => s'.runs == s.runs)) := by
    decide +kernel
  obtain ⟨⟨s, shown⟩, reached, found⟩ := (Option.any_eq_true ..).mp ran
  simp only [Bool.and_eq_true, Bool.not_eq_true', beq_iff_eq] at found
  obtain ⟨⟨⟨down, idle⟩, noted⟩, rest⟩ := found
  obtain ⟨⟨s', later⟩, rest, same⟩ := (Option.any_eq_true ..).mp rest
  obtain ⟨-, ticks, -, stays⟩ := fault_protocol reached
  have still : ∀ m ∈ List.replicate 4 (.work 1) ++ [.stop] ++
      List.replicate 3 (.control (.ok ())) ++ [.stop, .control (.ok ())], m ≠ Move.start := by simp
  exact ⟨s, shown, s', later, reached, down, rest, ticks down rest (beq_iff_eq.mp same),
    (stays noted rest).1 idle still⟩

end Moves

end Chip8.Scheduler
