import Chip8.Proofs.Scheduler.WholeTicks

/-!
# What is announced, and who is at work

* `results`, `notices` — what calls of the controller returned, and the records about the clocks
* `Makes.quiet` — as long as a call goes on, it returns nothing and announces nothing
* `Busy` — a worker with some job has not ended
* `Makes.busy_of_pulse`, `Makes.busy` — steps and ticks are made by those who are at work, and
  whoever comes to work was just started
-/

namespace Chip8

/-- Whether an event says that the clocks were started or stopped. -/
def Event.isNotice : Event → Bool
  | .started _ | .stopped => true
  | _ => false

theorem Machine.notice_free_stepEvents (m : Machine) (outcome : Except Fault Unit × Machine) :
    ∀ event ∈ m.stepEvents outcome, event.isNotice = false := by
  obtain ⟨_ | ⟨⟩, m'⟩ := outcome
  all_goals
    simp only [stepEvents]
    split <;> simp [Event.isNotice]

theorem InstructionClock.notice_free_observe (clock : InstructionClock) (pc : UInt16)
    (outcome : Except Fault Unit) :
    ∀ event ∈ (clock.observe pc outcome).2.2, event.isNotice = false := by
  have closing : ∀ event ∈ clock.closing, event.isNotice = false := by
    unfold InstructionClock.closing
    split
    · split <;> simp [Event.isNotice]
    · simp
  cases outcome with
  | ok => exact closing
  | error fault =>
    simp only [observe]
    split
    · simp only [List.mem_append, List.mem_singleton]
      rintro event (h | rfl)
      · exact closing event h
      · rfl
    · split
      · simp
      · simp only [List.mem_append, List.mem_singleton]
        rintro event (h | rfl)
        · exact closing event h
        · rfl

namespace Scheduler

variable {ρ α : Type}
variable {s s' : Scheduler ρ α} {i : Nat} {worker : Worker} {m : Move} {effects : List Effect}

/-! ## What is returned and announced -/

/-- What a call of the controller returned, if the effect is that one did. -/
def Effect.result? : Effect → Option (Except OsError Unit)
  | .returned result => some result
  | _ => none

/-- What an effect announces about the clocks, whoever does. -/
def Effect.notice? : Effect → Option Event
  | .log _ event => if event.isNotice then some event else none
  | _ => none

/-- What the calls of the controller returned, in order. -/
def results (effects : List Effect) : List (Except OsError Unit) :=
  effects.filterMap Effect.result?

/-- The records that say that the clocks were started or stopped, in order. -/
def notices (effects : List Effect) : List Event := effects.filterMap Effect.notice?

theorem results_append (effects later : List Effect) :
    results (effects ++ later) = results effects ++ results later := List.filterMap_append

theorem notices_append (effects later : List Effect) :
    notices (effects ++ later) = notices effects ++ notices later := List.filterMap_append

/-- Nothing is returned and nothing announced. -/
def Quiet (effects : List Effect) : Prop := results effects = [] ∧ notices effects = []

theorem results_append_quiet {later : List Effect} (quiet : Quiet later) :
    results (effects ++ later) = results effects := by
  rw [results_append, quiet.1, List.append_nil]

theorem notices_append_quiet {later : List Effect} (quiet : Quiet later) :
    notices (effects ++ later) = notices effects := by
  rw [notices_append, quiet.2, List.append_nil]

theorem Quiet.append {later : List Effect} (before : Quiet effects) (quiet : Quiet later) :
    Quiet (effects ++ later) :=
  ⟨(results_append_quiet quiet).trans before.1, (notices_append_quiet quiet).trans before.2⟩

theorem quiet_logged {effect : Effect} {actor : Actor} {events : List Event}
    (effectless : effect.result? = none ∧ effect.notice? = none)
    (free : ∀ event ∈ events, event.isNotice = false) :
    Quiet (effect :: events.map (.log actor ·)) := by
  constructor
  · refine (filterMap_logged effect actor events fun _ => rfl).trans ?_
    rw [effectless.1]
    rfl
  · have none : (events.map (.log actor ·)).filterMap Effect.notice? = [] := by
      simpa [List.filterMap_eq_nil_iff, Effect.notice?] using free
    rw [notices, List.filterMap_cons, effectless.2, none]

section Moves

variable [Renderer ρ] [Audio α]

theorem Works.quiet (works : Works s i worker s' effects) : Quiet effects := by
  cases works with
  | step => exact quiet_logged ⟨rfl, rfl⟩ (s.machine.notice_free_stepEvents _)
  | @proceed clock _ _ pc outcome _ _ verdict | @halt clock _ _ pc outcome _ _ _ verdict =>
    refine quiet_logged ⟨rfl, rfl⟩ ?_
    have free := clock.notice_free_observe pc outcome
    rwa [verdict] at free
  | leave => split <;> exact ⟨rfl, rfl⟩
  | _ => exact ⟨rfl, rfl⟩

/-- As long as a call goes on, nothing is returned and nothing announced. -/
theorem Makes.quiet (makes : Makes s m s' effects) (busy : s'.phase ≠ .idle) : Quiet effects := by
  cases makes with
  | startAgain phase => exact absurd phase busy
  | finish | announce => exact absurd rfl busy
  | join => split <;> exact ⟨rfl, rfl⟩
  | work there works => exact works.quiet
  | _ => exact ⟨rfl, rfl⟩

end Moves

/-! ## Who is at work -/

/-- A worker with such a job has not ended. -/
def Busy (s : Scheduler ρ α) (actor : Actor) : Prop :=
  ∃ worker ∈ s.workers, worker.hasEnded = false ∧ worker.job.actor = actor

theorem outcomes_eq_nil (stepless : .step ∉ pulses effects) : outcomes effects = [] := by
  refine List.filterMap_eq_nil_iff.mpr fun effect mem => ?_
  cases effect with
  | step outcome =>
    have made : .step ∈ pulses effects := List.mem_filterMap.mpr ⟨.step outcome, mem, rfl⟩
    exact absurd made stepless
  | _ => rfl

theorem exists_keys_of_pulses {change : KeyChange} (h : .keys change ∈ pulses effects) :
    ∃ pad : Keypad, change = .setAll pad.keys ∧ .keys pad ∈ effects := by
  obtain ⟨effect, mem, pulse⟩ := List.mem_filterMap.mp h
  cases effect with
  | keys pad => exact ⟨pad, by cases pulse; rfl, mem⟩
  | _ => cases pulse

theorem not_mem_pulses_append {p : Pulse} {later : List Effect} (before : p ∉ pulses effects)
    (none : p ∉ pulses later) : p ∉ pulses (effects ++ later) := by
  rw [pulses_append, List.mem_append, not_or]
  exact ⟨before, none⟩

section Moves

variable [Renderer ρ] [Audio α]

theorem Works.hasEnded (works : Works s i worker s' effects) : worker.hasEnded = false := by
  cases works <;> rfl

/-- Steps are made by the instruction worker and ticks by the timer worker, and neither has ended. -/
theorem Makes.busy_of_pulse (makes : Makes s m s' effects) :
    (.step ∈ pulses effects → s.Busy .instructions) ∧ (.tick ∈ pulses effects → s.Busy .timers) := by
  have none {p : Pulse} {P : Prop} (h : p ∈ ([] : List Pulse)) : P := nomatch h
  have other {p q : Pulse} {P : Prop} (h : p ∈ [q]) (apart : p ≠ q) : P :=
    absurd (List.mem_singleton.mp h) apart
  cases makes with
  | keys => exact ⟨fun h => other h fun e => (nomatch e), fun h => other h fun e => nomatch e⟩
  | finish | join => split <;> exact ⟨none, none⟩
  | @work i worker _ _ there works =>
    have mem : worker ∈ s.workers := List.mem_of_getElem? there
    have working := works.hasEnded
    cases works with
    | step =>
      rw [pulses_logged]
      exact ⟨fun _ => ⟨_, mem, working, rfl⟩, fun h => other h fun e => nomatch e⟩
    | count => exact ⟨fun h => other h fun e => (nomatch e), fun _ => ⟨_, mem, working, rfl⟩⟩
    | proceed | halt =>
      rw [pulses_logged]
      exact ⟨none, none⟩
    | leave => split <;> exact ⟨none, none⟩
    | _ => exact ⟨none, none⟩
  | _ => exact ⟨none, none⟩

/-- Whoever comes to work is the worker that was just started. -/
theorem Makes.busy (makes : Makes s m s' effects) {actor : Actor} (busy : s'.Busy actor) :
    s.Busy actor ∨ (actor = .instructions ∧ s'.phase = .spawning .timers) ∨
      (actor = .timers ∧ s'.phase = .announcing) := by
  obtain ⟨w, mem, working, rfl⟩ := busy
  cases makes with
  | join phase first =>
    refine .inl ⟨w, ?_, working, rfl⟩
    rw [first]
    exact List.mem_cons_of_mem _ mem
  | spawnInstructions =>
    rcases List.mem_append.mp mem with mem | new
    · exact .inl ⟨w, mem, working, rfl⟩
    · rw [List.mem_singleton.mp new]
      exact .inr (.inl ⟨rfl, rfl⟩)
  | spawnTimers =>
    rcases List.mem_append.mp mem with mem | new
    · exact .inl ⟨w, mem, working, rfl⟩
    · rw [List.mem_singleton.mp new]
      exact .inr (.inr ⟨rfl, rfl⟩)
  | @work i worker _ _ there works =>
    obtain ⟨after, placed⟩ := works.placed
    rw [placed.workers] at mem
    rcases List.mem_or_eq_of_mem_set mem with mem | rfl
    · exact .inl ⟨w, mem, working, rfl⟩
    · exact .inl ⟨worker, List.mem_of_getElem? there, works.hasEnded, placed.actor.symm⟩
  | _ => exact .inl ⟨w, mem, working, rfl⟩

end Moves

end Scheduler

end Chip8
