import Mathlib.Data.List.Basic
import Chip8.Proofs.Run
import Chip8.Proofs.Scheduler.Lifecycle

/-!
# Nobody sees half a tick

* `pulses` — what a row of moves did to the machine, as read off its effects
* `due` — the calls to renderer and audio that pulses bring about
* `owed` — those of them that are still to be made
* `whole_ticks` — whenever nobody holds the machine, it is the first machine after the pulses so
  far, and renderer and audio were called once for each of them

The machine itself is changed in the one move that takes it, so that it always is what the pulses
make of it (`Makes.machine`). The calls come later. What holds at every moment is that the calls
made and the calls owed are those due (`Makes.settles`).
-/

namespace Chip8

/-! ## Pulses and calls -/

/-- The machines that the ticks among a row of pulses start from, in order. -/
def Machine.beforeTicks (m : Machine) : List Pulse → List Machine
  | [] => []
  | .step :: pulses => m.step.2.beforeTicks pulses
  | .tick :: pulses => m :: m.tickTimers.2.beforeTicks pulses
  | .keys change :: pulses => (m.pulse (.keys change)).beforeTicks pulses

/-- Whether a pulse is a step. -/
def Pulse.isStep : Pulse → Bool
  | .step => true
  | .tick | .keys _ => false

/-- Whether a pulse is a tick of the timers. -/
def Pulse.isTick : Pulse → Bool
  | .tick => true
  | .step | .keys _ => false

theorem Machine.length_beforeSteps (m : Machine) (pulses : List Pulse) :
    (m.beforeSteps pulses).length = pulses.countP (·.isStep) := by
  induction pulses generalizing m with
  | nil => rfl
  | cons p pulses ih => cases p <;> simp [beforeSteps, Pulse.isStep, ih]

theorem Machine.length_beforeTicks (m : Machine) (pulses : List Pulse) :
    (m.beforeTicks pulses).length = pulses.countP (·.isTick) := by
  induction pulses generalizing m with
  | nil => rfl
  | cons p pulses ih => cases p <;> simp [beforeTicks, Pulse.isTick, ih]

theorem Machine.pulseAll_append (m : Machine) (before after : List Pulse) :
    m.pulseAll (before ++ after) = (m.pulseAll before).pulseAll after := List.foldl_append

theorem Machine.outcomes_append (m : Machine) (before after : List Pulse) :
    m.outcomes (before ++ after) = m.outcomes before ++ (m.pulseAll before).outcomes after := by
  induction before generalizing m with
  | nil => rfl
  | cons p before ih =>
    cases p with
    | step => exact congrArg _ (ih m.step.2)
    | tick => exact ih m.tickTimers.2
    | keys change => exact ih (m.pulse (.keys change))

namespace Scheduler

namespace Effect

/-- What an effect says was done to the machine. -/
def pulse? : Effect → Option Pulse
  | .step _ => some .step
  | .count => some .tick
  | .keys pad => some (.keys (.setAll pad.keys))
  | .publish _ | .level _ | .log _ _ | .returned _ => none

/-- How the step ended that an effect tells of. -/
def outcome? : Effect → Option (Except Fault Unit)
  | .step outcome => some outcome
  | _ => none

/-- The screen that an effect shows to the renderer. -/
def screen? : Effect → Option Screen
  | .publish screen => some screen
  | _ => none

/-- The level that an effect reports to the audio. -/
def level? : Effect → Option Bool
  | .level on => some on
  | _ => none

/-- Whether an effect is a call to renderer or audio. -/
def isCall : Effect → Bool
  | .publish _ | .level _ => true
  | .step _ | .count | .keys _ | .log _ _ | .returned _ => false

end Effect

/-- What effects say was done to the machine, in order. -/
def pulses (effects : List Effect) : List Pulse := effects.filterMap Effect.pulse?

/-- How the steps ended that effects tell of, in order. -/
def outcomes (effects : List Effect) : List (Except Fault Unit) :=
  effects.filterMap Effect.outcome?

/-- The screens that effects show to the renderer, in order. -/
def screens (effects : List Effect) : List Screen := effects.filterMap Effect.screen?

/-- The levels that effects report to the audio, in order. -/
def levels (effects : List Effect) : List Bool := effects.filterMap Effect.level?

/-- The calls among effects. -/
def calls (effects : List Effect) : List Effect := effects.filter Effect.isCall

/-- The calls that a row of pulses brings about: the screen after each step, and at each tick
whether the sound countdown was running before it. -/
def due (m : Machine) : List Pulse → List Effect
  | [] => []
  | .step :: pulses => .publish m.step.2.screen :: due m.step.2 pulses
  | .tick :: pulses => .level m.tickTimers.1 :: due m.tickTimers.2 pulses
  | .keys change :: pulses => due (m.pulse (.keys change)) pulses

theorem due_append (m : Machine) (before after : List Pulse) :
    due m (before ++ after) = due m before ++ due (m.pulseAll before) after := by
  induction before generalizing m with
  | nil => rfl
  | cons p before ih =>
    cases p with
    | step => exact congrArg _ (ih m.step.2)
    | tick => exact congrArg _ (ih m.tickTimers.2)
    | keys change => exact ih (m.pulse (.keys change))

theorem screens_due (m : Machine) (ps : List Pulse) :
    screens (due m ps) = (m.beforeSteps ps).map (·.step.2.screen) := by
  induction ps generalizing m with
  | nil => rfl
  | cons p ps ih =>
    cases p with
    | step => exact congrArg _ (ih m.step.2)
    | tick => exact ih m.tickTimers.2
    | keys change => exact ih (m.pulse (.keys change))

theorem levels_due (m : Machine) (ps : List Pulse) :
    levels (due m ps) = (m.beforeTicks ps).map (·.timers.isBeeping) := by
  induction ps generalizing m with
  | nil => rfl
  | cons p ps ih =>
    cases p with
    | step => exact ih m.step.2
    | tick => exact congrArg _ (ih m.tickTimers.2)
    | keys change => exact ih (m.pulse (.keys change))

/-- What is read off the calls alone can be read off all effects. -/
theorem filterMap_calls {β : Type} {view : Effect → Option β}
    (only : ∀ effect, effect.isCall = false → view effect = none) (effects : List Effect) :
    (calls effects).filterMap view = effects.filterMap view := by
  rw [calls, List.filterMap_filter]
  refine List.filterMap_congr fun effect _ => ?_
  cases call : effect.isCall with
  | true => rfl
  | false => exact (only effect call).symm

theorem screens_calls (effects : List Effect) : screens (calls effects) = screens effects :=
  filterMap_calls (fun effect h => by cases effect <;> first | rfl | cases h) effects

theorem levels_calls (effects : List Effect) : levels (calls effects) = levels effects :=
  filterMap_calls (fun effect h => by cases effect <;> first | rfl | cases h) effects

section Views

variable (effects later : List Effect)

theorem pulses_append : pulses (effects ++ later) = pulses effects ++ pulses later :=
  List.filterMap_append

theorem outcomes_append : outcomes (effects ++ later) = outcomes effects ++ outcomes later :=
  List.filterMap_append

theorem levels_append : levels (effects ++ later) = levels effects ++ levels later :=
  List.filterMap_append

theorem calls_append : calls (effects ++ later) = calls effects ++ calls later :=
  List.filter_append ..

/-! A worker logs after what it did. Nothing is read off the records. -/

variable (effect : Effect) (actor : Actor) (events : List Event)

theorem filterMap_logged {β : Type} {view : Effect → Option β}
    (silent : ∀ event, view (.log actor event) = none) :
    (effect :: events.map (.log actor ·)).filterMap view = (view effect).toList := by
  have none : (events.map (.log actor ·)).filterMap view = [] := by simp [silent]
  rw [List.filterMap_cons, none]
  cases view effect <;> rfl

theorem pulses_logged :
    pulses (effect :: events.map (.log actor ·)) = effect.pulse?.toList :=
  filterMap_logged effect actor events fun _ => rfl

theorem outcomes_logged :
    outcomes (effect :: events.map (.log actor ·)) = effect.outcome?.toList :=
  filterMap_logged effect actor events fun _ => rfl

theorem levels_logged :
    levels (effect :: events.map (.log actor ·)) = effect.level?.toList :=
  filterMap_logged effect actor events fun _ => rfl

theorem calls_logged :
    calls (effect :: events.map (.log actor ·)) = if effect.isCall then [effect] else [] := by
  have none : (events.map (.log actor ·)).filter Effect.isCall = [] :=
    List.filter_eq_nil_iff.mpr (by simp [Effect.isCall])
  rw [calls, List.filter_cons, none]

end Views

/-! ## The machine -/

variable {ρ α : Type}
variable {s s' : Scheduler ρ α} {i : Nat} {worker : Worker} {m : Move} {effects : List Effect}

section Moves

variable [Renderer ρ] [Audio α]

theorem Works.machine (works : Works s i worker s' effects) :
    s'.machine = s.machine.pulseAll (pulses effects) ∧
    outcomes effects = s.machine.outcomes (pulses effects) := by
  cases works with
  | goOn | giveUp | count | publishBroke | levelBroke | report => exact ⟨rfl, rfl⟩
  | step | proceed | halt =>
    rw [pulses_logged, outcomes_logged]
    exact ⟨rfl, rfl⟩
  | leave => split <;> exact ⟨rfl, rfl⟩

/-- The machine after a move is what the pulses made of it. -/
theorem Makes.machine (makes : Makes s m s' effects) :
    s'.machine = s.machine.pulseAll (pulses effects) ∧
    outcomes effects = s.machine.outcomes (pulses effects) := by
  cases makes with
  | startAgain | start | stop | cleared | forget | raise | spawnInstructions | spawnTimers | refuse
  | announce | keys => exact ⟨rfl, rfl⟩
  | finish | join => split <;> exact ⟨rfl, rfl⟩
  | work there works => exact works.machine

/-- The machine after a row of moves is what the pulses made of it. -/
theorem machine_of_nextAll {ms : List Move} (h : s.nextAll ms = some (s', effects)) :
    s'.machine = s.machine.pulseAll (pulses effects) ∧
    outcomes effects = s.machine.outcomes (pulses effects) := by
  let kept (t : Scheduler ρ α) (_ : List Move) (shown : List Effect) : Prop :=
    t.machine = s.machine.pulseAll (pulses shown) ∧
    outcomes shown = s.machine.outcomes (pulses shown)
  refine nextAll_history kept ?_ h [] [] ⟨rfl, rfl⟩
  rintro t m t' past shown effects ⟨machine, ends⟩ makes
  obtain ⟨machine', ends'⟩ := makes.machine
  show t'.machine = _ ∧ _
  rw [pulses_append, outcomes_append, Machine.pulseAll_append, Machine.outcomes_append, ← machine,
    ← ends]
  exact ⟨machine', congrArg _ ends'⟩

end Moves

/-! ## The calls owed -/

/-- The calls that a worker at this stage is still to make for what it did to the machine. -/
def Stage.owed (screen : Screen) : Stage → List Effect
  | .stepped _ _ => [.publish screen]
  | .counted level => [.level level]
  | .checking | .waiting | .leaving _ | .ended _ => []

/-- The calls that are still to be made for what was done to the machine. -/
def owed (s : Scheduler ρ α) : List Effect :=
  s.workers.flatMap (·.stage.owed s.machine.screen)

/-- How many workers hold the machine. -/
def holders (s : Scheduler ρ α) : Nat := s.workers.countP (·.stage.holds)

theorem Stage.owed_of_idle {stage : Stage} (h : stage.holds = false) (screen : Screen) :
    stage.owed screen = [] := by
  cases stage <;> first | rfl | cases h

theorem machineHeld_eq_false : s.machineHeld = false ↔ s.holders = 0 := by
  simp [machineHeld, holders, List.countP_eq_zero]

theorem owed_of_idle {workers : List Worker} (h : workers.countP (·.stage.holds) = 0)
    (screen : Screen) : workers.flatMap (·.stage.owed screen) = [] := by
  refine List.flatMap_eq_nil_iff.mpr fun w mem => Stage.owed_of_idle ?_ screen
  simpa using List.countP_eq_zero.mp h w mem

theorem workers_split (there : s.workers[i]? = some worker) (after : Worker) :
    ∃ front back, s.workers = front ++ worker :: back ∧
      s.workers.set i after = front ++ after :: back := by
  obtain ⟨bound, rfl⟩ := List.getElem?_eq_some_iff.mp there
  obtain ⟨front, back, before, -, set⟩ :
      ∃ front back, s.workers = front ++ s.workers[i] :: back ∧ front.length = i ∧
        s.workers.set i after = front ++ after :: back := List.exists_of_set bound
  exact ⟨front, back, before, set⟩

/-- What a move does to the calls: those made and those then owed are those that were owed and those
that the pulses of the move bring about. -/
structure Settles (s : Scheduler ρ α) (effects : List Effect) (s' : Scheduler ρ α) : Prop where
  calls : calls effects ++ s'.owed = s.owed ++ due s.machine (pulses effects)
  alone : s'.holders ≤ 1

/-- A worker that holds the machine neither before nor after its move owes nothing. -/
theorem settles_of_apart {after : Worker} (there : s.workers[i]? = some worker)
    (placed : s'.workers = s.workers.set i after) (machine : s'.machine = s.machine)
    (apart : worker.stage.holds = false ∧ after.stage.holds = false)
    (quiet : calls effects = [] ∧ pulses effects = []) (alone : s.holders ≤ 1) :
    Settles s effects s' := by
  obtain ⟨front, back, split, set⟩ := workers_split there after
  have same : s'.owed = s.owed ∧ s'.holders = s.holders := by
    rw [owed, owed, holders, holders, placed, machine, set, split]
    simp [Stage.owed_of_idle, apart]
  refine ⟨?_, same.2 ▸ alone⟩
  rw [quiet.1, quiet.2, same.1]
  exact (List.append_nil _).symm

/-- Where nobody else holds the machine, nobody else owes anything, before the move of a worker and
after it. -/
theorem settles_of_alone {after : Worker} (there : s.workers[i]? = some worker)
    (placed : s'.workers = s.workers.set i after) (alone : s.holders ≤ worker.stage.holds.toNat)
    (settled : calls effects ++ after.stage.owed s'.machine.screen =
      worker.stage.owed s.machine.screen ++ due s.machine (pulses effects)) :
    Settles s effects s' := by
  obtain ⟨front, back, split, set⟩ := workers_split there after
  rw [holders, split, List.countP_append, List.countP_cons] at alone
  obtain ⟨noFront, noBack⟩ :
      front.countP (·.stage.holds) = 0 ∧ back.countP (·.stage.holds) = 0 := by
    have own : (if worker.stage.holds = true then 1 else 0) = worker.stage.holds.toNat := by
      cases worker.stage.holds <;> rfl
    omega
  constructor
  · rw [owed, owed, placed, set, split]
    simpa [owed_of_idle noFront, owed_of_idle noBack] using settled
  · rw [holders, placed, set, List.countP_append, List.countP_cons, noFront, noBack]
    split <;> omega

/-- A worker that owes nothing is of no account. -/
theorem settles_of_fewer (owed : s'.owed = s.owed) (fewer : s'.holders ≤ s.holders)
    (quiet : calls effects = [] ∧ due s.machine (pulses effects) = []) (alone : s.holders ≤ 1) :
    Settles s effects s' := by
  refine ⟨?_, Nat.le_trans fewer alone⟩
  rw [quiet.1, quiet.2, owed]
  exact (List.append_nil _).symm

variable [Renderer ρ] [Audio α]

/-- A worker makes the calls it owes, and owes those that its pulse brings about. -/
theorem Works.settles (works : Works s i worker s' effects) (there : s.workers[i]? = some worker)
    (alone : s.holders ≤ 1) : Settles s effects s' := by
  cases works with
  | goOn | giveUp => exact settles_of_apart there rfl rfl ⟨rfl, rfl⟩ ⟨rfl, rfl⟩ alone
  | leave =>
    refine settles_of_apart there rfl rfl ⟨rfl, rfl⟩ ?_ alone
    split <;> exact ⟨rfl, rfl⟩
  | step free =>
    have nobody : s.holders = 0 := machineHeld_eq_false.mp free
    refine settles_of_alone there rfl (Nat.le_of_eq nobody) ?_
    rw [calls_logged, pulses_logged]
    rfl
  | count free =>
    have nobody : s.holders = 0 := machineHeld_eq_false.mp free
    exact settles_of_alone there rfl (Nat.le_of_eq nobody) rfl
  | publishBroke => exact settles_of_alone there rfl alone rfl
  | proceed | halt =>
    refine settles_of_alone there rfl alone ?_
    rw [calls_logged, pulses_logged]
    rfl
  | levelBroke | report => exact settles_of_alone there rfl alone rfl

theorem Makes.settles (makes : Makes s m s' effects) (alone : s.holders ≤ 1) :
    Settles s effects s' := by
  cases makes with
  | startAgain | start | stop | cleared | forget | raise | refuse | announce | keys =>
    exact settles_of_fewer rfl (Nat.le_refl _) ⟨rfl, rfl⟩ alone
  | spawnInstructions | spawnTimers =>
    refine settles_of_fewer ?_ ?_ ⟨rfl, rfl⟩ alone
    · simp [owed, Stage.owed]
    · simp [holders, Stage.holds]
  | finish =>
    refine settles_of_fewer rfl (Nat.le_refl _) ?_ alone
    split <;> exact ⟨rfl, rfl⟩
  | join phase first ended =>
    refine settles_of_fewer ?_ ?_ ?_ alone
    · simp [owed, first, ended, Stage.owed]
    · simp [holders, first, ended, Stage.holds]
    · split <;> exact ⟨rfl, rfl⟩
  | work there works => exact works.settles there alone

/-! ## Whole ticks -/

/-- Over a row of moves, the calls made and those owed in the end are those owed in the beginning and
those due. -/
theorem settles_of_nextAll {ms : List Move} (h : s.nextAll ms = some (s', effects))
    (alone : s.holders ≤ 1) : Settles s effects s' := by
  -- by itself the balance is not kept: what a pulse brings about depends on the machine, and what
  -- others owe on nobody else holding it
  let kept (t : Scheduler ρ α) (_ : List Move) (shown : List Effect) : Prop :=
    t.machine = s.machine.pulseAll (pulses shown) ∧ Settles s shown t
  have all : kept s' ([] ++ ms) ([] ++ effects) := by
    refine nextAll_history kept ?_ h [] [] ⟨rfl, (List.append_nil _).symm, alone⟩
    rintro t m t' _ shown seen ⟨same, settled, alone⟩ makes
    obtain ⟨calls, alone'⟩ := makes.settles alone
    refine ⟨?_, ?_, alone'⟩
    · rw [pulses_append, Machine.pulseAll_append, ← same]
      exact makes.machine.1
    · rw [pulses_append, due_append, ← same, ← List.append_assoc, ← settled, calls_append,
        List.append_assoc, List.append_assoc, calls]
  exact all.2

/-- The calls made and the calls owed are those due, at every moment. -/
theorem settled_of_nextAll {machine : Machine} {renderer : ρ} {audio : α} {past : List Move}
    (h : (new machine renderer audio).nextAll past = some (s, effects)) :
    calls effects ++ s.owed = due machine (pulses effects) :=
  (settles_of_nextAll h (Nat.zero_le 1)).calls

/--
**Only whole ticks are seen.**

Take a new scheduler and any moves, by the controller, the workers and whoever sets the keys, in any
order, whether or not renderer and audio break down on the way, and over as many runs as there are.

Whenever nobody holds the machine, it is the first machine after whole steps, ticks and changes of
keys, in the order in which they took it, and the steps have ended as they end there. The renderer
was called once a step, with the screen right after it. The audio was called once a tick, and told
whether the sound countdown was above zero right before it.
-/
theorem whole_ticks {machine : Machine} {renderer : ρ} {audio : α} {past : List Move}
    (reached : (new machine renderer audio).nextAll past = some (s, effects))
    (free : s.machineHeld = false) :
    (s.machine = machine.pulseAll (pulses effects) ∧
      outcomes effects = machine.outcomes (pulses effects)) ∧
    ((screens effects).length = (pulses effects).countP (·.isStep) ∧
      screens effects = (machine.beforeSteps (pulses effects)).map (·.step.2.screen)) ∧
    (levels effects).length = (pulses effects).countP (·.isTick) ∧
      levels effects =
        (machine.beforeTicks (pulses effects)).map (fun m => decide (m.timers.sound ≠ 0)) := by
  have settled : calls effects ++ s.owed = due machine (pulses effects) :=
    settled_of_nextAll reached
  rw [owed, owed_of_idle (machineHeld_eq_false.mp free), List.append_nil] at settled
  have shown : screens effects = (machine.beforeSteps (pulses effects)).map (·.step.2.screen) := by
    rw [← screens_calls, settled, screens_due]
  have told : levels effects =
      (machine.beforeTicks (pulses effects)).map (·.timers.isBeeping) := by
    rw [← levels_calls, settled, levels_due]
  refine ⟨machine_of_nextAll reached, ⟨?_, shown⟩, ?_, told⟩
  · rw [shown, List.length_map, Machine.length_beforeSteps]
  · rw [told, List.length_map, Machine.length_beforeTicks]

/-- The renderer breaks down at once, and again after the controller has stopped the clocks and
started them anew. -/
theorem whole_ticks_renderer_breaks_down :
    ∃ s effects, (new (.fresh {} (.ofSeed 0)) (FrameRecorder.mk 0 .blank (some 0)) Mute.mk).nextAll
        (startCall ++ List.replicate 3 (.work 0) ++ List.replicate 3 (.work 1) ++
          [.stop, .keys .released, .work 0, .work 1, .work 1] ++
          List.replicate 3 (.control (.ok ())) ++ startCall ++ List.replicate 3 (.work 0)) =
        some (s, effects) ∧
      s.machineHeld = false ∧ s.runs = 2 ∧
      (screens effects).length = 2 ∧ (levels effects).length = 1 := by
  have ran : ((new (.fresh {} (.ofSeed 0)) (FrameRecorder.mk 0 .blank (some 0)) Mute.mk).nextAll
      (startCall ++ List.replicate 3 (.work 0) ++ List.replicate 3 (.work 1) ++
        [.stop, .keys .released, .work 0, .work 1, .work 1] ++
        List.replicate 3 (.control (.ok ())) ++ startCall ++ List.replicate 3 (.work 0))).any
      (fun (s, effects) => !s.machineHeld && s.runs == 2 &&
        (pulses effects).countP (·.isStep) == 2 && (pulses effects).countP (·.isTick) == 1) := by
    decide +kernel
  obtain ⟨⟨s, effects⟩, reached, found⟩ := (Option.any_eq_true ..).mp ran
  simp only [Bool.and_eq_true, Bool.not_eq_true', beq_iff_eq] at found
  obtain ⟨⟨⟨free, runs⟩, steps⟩, ticks⟩ := found
  obtain ⟨-, ⟨frames, -⟩, told, -⟩ := whole_ticks reached free
  exact ⟨s, effects, reached, free, runs, frames.trans steps, told.trans ticks⟩

end Scheduler

end Chip8
