import Chip8.Proofs.FaultLog
import Chip8.Proofs.Scheduler.FaultCell

/-!
# Nobody gets over a fault

* `driven` — the ticks of an instruction clock on one machine, with pulses in between
* `log_of_stuck` — a clock on a machine that is stuck in a stack fault reports it once
* `FaultsAtOnce` — a run whose first step meets a fatal fault, which ends it
* `faults_absorb` — what a fault that is not passed over means for the machine, for a clock and for
  all later runs
-/

namespace Chip8

open Machine

namespace InstructionClock

variable {ρ : Type} [Renderer ρ]
variable {m : Machine} {fault : Fault}

/-! ## A clock on a stuck machine -/

/-- Ticks on one machine, each with its renderer and after some pulses of the machine. -/
def driven (m : Machine) : List (List Pulse × ρ) → List (Machine × ρ)
  | [] => []
  | (pulses, renderer) :: rows =>
    (m.pulseAll pulses, renderer) :: driven (m.pulseAll (pulses ++ [.step])) rows

/-- How many of the ticks a renderer carries through that is shown the same screen at each. -/
def carried (screen : Screen) (rows : List (List Pulse × ρ)) : Nat :=
  rows.countP fun row => !(Renderer.publish row.2 screen).brokeDown

theorem notes_driven (stuck : m.StuckOn fault) (rows : List (List Pulse × ρ)) :
    notes (driven m rows) = List.replicate (carried m.screen rows) ⟨m.pc, .error fault⟩ := by
  induction rows generalizing m with
  | nil => rfl
  | cons row rows ih =>
    obtain ⟨pulses, renderer⟩ := row
    obtain ⟨-, timers, keypad, now, -⟩ := stuck.pulseAll pulses
    obtain ⟨-, timers', keypad', next, -⟩ := stuck.pulseAll (pulses ++ [.step])
    have step := (stuck.of_pulseAll pulses).step_eq
    have rest := ih (stuck.of_pulseAll (pulses ++ [.step]))
    rw [next] at rest
    rw [driven, notes_cons, step, now, next, rest, carried, carried, List.countP_cons]
    cases (Renderer.publish renderer m.screen).brokeDown with
    | true => rfl
    | false => exact (List.replicate_succ).symm

theorem observeAll_replicate {pc : UInt16} (mild : fault.isFatal = false) (k n : Nat) :
    observeAll ⟨some (pc, fault), k⟩ (List.replicate n ⟨pc, .error fault⟩) =
      (⟨some (pc, fault), k + n⟩, []) := by
  induction n generalizing k with
  | zero => rfl
  | succ n ih =>
    have same : Note.mild ⟨pc, .error fault⟩ = some (pc, fault) := Note.mild_eq_some.mpr ⟨rfl, mild⟩
    rw [List.replicate_succ, observeAll_cons, observe_of_continues rfl same, ih, Nat.add_assoc,
      Nat.add_comm 1 n]
    rfl

/-- A clock reports a stack fault once, and holds back every further tick. -/
theorem log_of_stuck (stuck : m.StuckOn fault) (mild : fault.isFatal = false)
    {clock : InstructionClock} (unlike : clock.repeating ≠ some (m.pc, fault))
    {rows : List (List Pulse × ρ)} (some_carried : 0 < carried m.screen rows) :
    Event.kept (some .warn) (clock.tickAll (driven m rows)).2 =
      clock.closing ++ [.recovered m.pc fault] ∧
    (clock.tickAll (driven m rows)).1 =
      { repeating := some (m.pc, fault), suppressed := carried m.screen rows - 1 } := by
  obtain ⟨n, count⟩ := Nat.exists_eq_add_one.mpr some_carried
  have failed : Note.mild ⟨m.pc, .error fault⟩ = some (m.pc, fault) :=
    Note.mild_eq_some.mpr ⟨rfl, mild⟩
  have first : clock.repeating ≠ Note.mild ⟨m.pc, .error fault⟩ := failed ▸ unlike
  have event : Note.events ⟨m.pc, .error fault⟩ = [.recovered m.pc fault] := by
    simp [Note.events, mild]
  obtain ⟨after, events⟩ := tickAll_eq_observeAll clock (driven m rows)
  rw [after, events, notes_driven stuck, count, List.replicate_succ, observeAll_cons,
    observe_of_stops (.inr first), failed, event, observeAll_replicate mild]
  exact ⟨List.append_nil _, by rw [Nat.zero_add]; rfl⟩

end InstructionClock

namespace Scheduler

variable {ρ α : Type} [Renderer ρ] [Audio α]
variable {s s' : Scheduler ρ α} {m : Move} {effects : List Effect} {fault : Fault}

/-! ## Later runs -/

/-- A run whose first step meets a fatal fault, at a moment when its steps so far ended so. -/
structure FaultsAtOnce (fault : Fault) (ends : List (Except Fault Unit)) (s : Scheduler ρ α) :
    Prop where
  /-- There is one step at most, and it meets the fault. -/
  once : ends = [] ∨ ends = [.error fault]
  /-- The instruction worker is about to note the fault, or has noted it and left, unless the
  renderer broke down. -/
  noted : ends ≠ [] → ∀ worker ∈ s.workers, worker.job.actor = .instructions →
    (∃ pc, worker.stage = .stepped pc (.error fault)) ∨
    s.fault = some fault ∧ (worker.stage = .leaving false ∨ worker.stage = .ended false) ∨
    worker.stage = .leaving true ∨ worker.stage = .ended true
  /-- Whoever comes to make the step completes the tick, and the fault is noted. -/
  tick : ∀ {i clock run}, s.workers[i]? = some ⟨.instructions clock, run, .waiting⟩ →
    s.machineHeld = false → ∃ t seen, s.nextAll [.work i, .work i] = some (t, seen) ∧
      outcomes seen = [.error fault] ∧
      ((Renderer.publish s.renderer s.machine.screen).brokeDown = false → t.fault = some fault)

/-- A step is made by the instruction worker, when it has waited for the machine. -/
theorem Makes.outcomes_cases (makes : Makes s m s' effects) :
    outcomes effects = [] ∨
    outcomes effects = [s.machine.step.1] ∧ ∃ worker ∈ s.workers,
      worker.job.actor = .instructions ∧ worker.stage = .waiting := by
  cases makes with
  | @work i worker _ _ there works =>
    have mem : worker ∈ s.workers := List.mem_of_getElem? there
    cases works with
    | step =>
      rw [outcomes_logged]
      exact .inr ⟨rfl, _, mem, rfl, rfl⟩
    | proceed | halt =>
      rw [outcomes_logged]
      exact .inl rfl
    | leave => exact .inl (by split <;> rfl)
    | _ => exact .inl rfl
  | finish | join => exact .inl (by split <;> rfl)
  | _ => exact .inl rfl

/-- On a machine that is stuck on a fatal fault, a run makes one step at most. -/
theorem InRun.once {shown : List Effect} (run : s.InRun s' shown) (faithful : s.Faithful)
    (stuck : s.machine.StuckOn fault) (fatal : fault.isFatal = true) :
    s'.machine.StuckOn fault ∧ (outcomes shown = [] ∨ outcomes shown = [.error fault]) := by
  let kept (t : Scheduler ρ α) (shown : List Effect) : Prop :=
    t.machine.StuckOn fault ∧ t.Tells (outcomes shown).getLast? ∧
    (outcomes shown = [] ∨ outcomes shown = [.error fault])
  have all : kept s' shown := by
    refine run.kept faithful kept (fun makes tells => ⟨makes.stuckOn stuck, tells, .inl rfl⟩) ?_
    rintro t m t' shown effects faithful ⟨stuck, tells, once⟩ makes same
    have tells' := makes.tells faithful tells same
    rw [← List.getLast?_append, ← outcomes_append] at tells'
    refine ⟨makes.stuckOn stuck, tells', ?_⟩
    rw [outcomes_append]
    rcases makes.outcomes_cases with none | ⟨step, worker, mem, actor, waiting⟩
    · rwa [none, List.append_nil]
    · rw [step, stuck.fails]
      rcases once with none | one
      · exact .inr (by rw [none]; rfl)
      · -- the worker would have left
        have own := tells.worker worker mem actor
        rw [waiting, one] at own
        cases fatal.symm.trans (own fault rfl)
  exact ⟨all.1, all.2.2⟩

/-- Whoever comes to make a step on a stuck machine completes the tick, and the fault is noted
unless the renderer breaks down. -/
theorem tick_of_stuck {i run : Nat} {clock : InstructionClock}
    (there : s.workers[i]? = some ⟨.instructions clock, run, .waiting⟩)
    (free : s.machineHeld = false) (stuck : s.machine.StuckOn fault)
    (fatal : fault.isFatal = true) :
    ∃ t seen, s.nextAll [.work i, .work i] = some (t, seen) ∧ outcomes seen = [.error fault] ∧
      ((Renderer.publish s.renderer s.machine.screen).brokeDown = false →
        t.fault = some fault) := by
  let mid : Scheduler ρ α := { s.place i
    ⟨.instructions clock, run, .stepped s.machine.pc s.machine.step.1⟩ with
      machine := s.machine.step.2 }
  have step : Makes s (.work i) mid _ := .work there (.step free)
  have stepped : mid.workers[i]? =
      some ⟨.instructions clock, run, .stepped s.machine.pc s.machine.step.1⟩ :=
    List.getElem?_set_self (List.getElem?_eq_some_iff.mp there).1
  have screen : mid.machine.screen = s.machine.screen := congrArg Machine.screen
    (congrArg Prod.snd stuck.step_eq)
  obtain ⟨t, seen, publish, silent, noted⟩ : ∃ t seen, Makes mid (.work i) t seen ∧
      outcomes seen = [] ∧
      ((Renderer.publish s.renderer s.machine.screen).brokeDown = false →
        t.fault = some fault) := by
    cases call : (Renderer.publish s.renderer s.machine.screen).brokeDown with
    | true =>
      refine ⟨_, _, .work stepped (.publishBroke ?_), rfl, fun fine => nomatch fine⟩
      rw [screen]
      exact call
    | false =>
      have halts := (clock.observe_eq_halt_iff s.machine.pc).mpr ⟨stuck.fails, fatal⟩
      refine ⟨_, _, .work stepped (.halt ?_ (Prod.ext halts rfl)), ?_, fun _ => rfl⟩
      · rw [screen]
        exact call
      · rw [outcomes_logged]
        rfl
  refine ⟨t, _, nextAll_cons.mpr ⟨mid, _, _, step, nextAll_cons.mpr
    ⟨t, seen, [], publish, rfl, rfl⟩, rfl⟩, ?_, noted⟩
  rw [List.append_nil, outcomes_append, outcomes_logged, silent, stuck.fails]
  rfl

/-- A run on a machine that is stuck on a fatal fault ends with its first step. -/
theorem InRun.faultsAtOnce {shown : List Effect} (run : s.InRun s' shown) (faithful : s.Faithful)
    (stuck : s.machine.StuckOn fault) (fatal : fault.isFatal = true) :
    s'.FaultsAtOnce fault (outcomes shown) := by
  have tells := run.tells faithful
  obtain ⟨stuck', once⟩ := run.once faithful stuck fatal
  refine ⟨once, fun some_step worker mem actor => ?_,
    fun there free => tick_of_stuck there free stuck' fatal⟩
  rw [once.resolve_left some_step] at tells
  exact tells.left_of_fatal fatal mem actor

end Scheduler

/-! ## Faults absorb -/

/--
**Nobody gets over a fault.**

Take a machine whose next step fails with a fault other than an unknown word. Whatever happens then
to the machine, in any order, every step fails with the same fault, and nothing changes but timers
and keys.

A clock that ticks on a machine in a stack fault reports it once and holds back every further tick.

Once a scheduler has noted a fault, every later run meets it in its first step, notes it and makes
no other.
-/
theorem faults_absorb {ρ α : Type} [Renderer ρ] [Audio α] :
    (∀ {m : Machine} {fault : Fault}, m.step.1 = .error fault →
      (∀ word, fault ≠ .unknownOpcode word) →
      (∀ pulses, (∀ outcome ∈ m.outcomes pulses, outcome = .error fault) ∧
        ∃ timers keypad, m.pulseAll pulses = { m with timers, keypad }) ∧
      (fault.isFatal = false → ∀ {clock : InstructionClock} {rows : List (List Pulse × ρ)},
        clock.repeating ≠ some (m.pc, fault) → 0 < InstructionClock.carried m.screen rows →
        Event.kept (some .warn) (clock.tickAll (InstructionClock.driven m rows)).2 =
          clock.closing ++ [.recovered m.pc fault] ∧
        (clock.tickAll (InstructionClock.driven m rows)).1 =
          { repeating := some (m.pc, fault),
            suppressed := InstructionClock.carried m.screen rows - 1 })) ∧
    (∀ {machine : Machine} {renderer : ρ} {audio : α} {past : List Scheduler.Move}
      {s : Scheduler ρ α} {shown : List Scheduler.Effect} {fault : Fault},
      (Scheduler.new machine renderer audio).nextAll past = some (s, shown) →
      s.fault = some fault →
      ∀ {ms mid before s' effects}, s.nextAll ms = some (mid, before) → mid.InRun s' effects →
        s'.FaultsAtOnce fault (Scheduler.outcomes effects)) := by
  constructor
  · intro m fault fails known
    have stuck : m.StuckOn fault := ⟨fails, known⟩
    refine ⟨fun pulses => ?_, fun mild _ _ unlike some_carried =>
      InstructionClock.log_of_stuck stuck mild unlike some_carried⟩
    obtain ⟨alike, timers, keypad, e, -⟩ := stuck.pulseAll pulses
    exact ⟨alike, timers, keypad, e⟩
  · intro machine renderer audio past s shown fault reached noted ms mid before s' effects h run
    have faithful : s.Faithful := Scheduler.faithful_of_nextAll reached
    obtain ⟨fatal, stuck⟩ := faithful.noted fault noted
    let kept (t : Scheduler ρ α) : Prop := t.Faithful ∧ t.machine.StuckOn fault
    have still : kept mid := by
      refine Scheduler.nextAll_invariant ?_ h ⟨faithful, stuck⟩
      rintro _ _ _ _ ⟨faithful, stuck⟩ makes
      exact ⟨makes.faithful faithful, makes.stuckOn stuck⟩
    exact run.faultsAtOnce still.1 still.2 fatal

/-- A return with no call open, and a scheduler that is started again after its first step found no
whole word. -/
theorem faults_absorb_return_and_past_end :
    (loaded [0x00, 0xEE]).step.1 = .error .stackUnderflow ∧
    (∀ outcome ∈ (loaded [0x00, 0xEE]).outcomes [.step, .tick, .keys (.press 3), .step],
      outcome = .error .stackUnderflow) ∧
    Event.kept (some .warn) (InstructionClock.tickAll {} (InstructionClock.driven
        (loaded [0x00, 0xEE]) (List.replicate 3 ([.tick], Headless.mk)))).2 =
      [.recovered 0x200 .stackUnderflow] ∧
    ∃ s shown mid before s' effects,
      (Scheduler.new { Machine.fresh {} (.ofSeed 0) with pc := 0xFFF } Headless.mk Mute.mk).nextAll
        (Scheduler.startCall ++ List.replicate 4 (.work 0)) = some (s, shown) ∧
      s.nextAll ([.stop, .work 1, .work 1] ++ List.replicate 3 (.control (.ok ())) ++
        [.start, .control (.ok ()), .control (.ok ())]) = some (mid, before) ∧
      mid.InRun s' effects ∧ Scheduler.outcomes effects ≠ [] ∧
      s'.FaultsAtOnce (.invalidAddress 0x1000) (Scheduler.outcomes effects) := by
  obtain ⟨machine, scheduler⟩ := @faults_absorb Headless Mute _ _
  have fails : (loaded [0x00, 0xEE]).step.1 = .error .stackUnderflow := by decide +kernel
  obtain ⟨pulses, clock⟩ := machine fails fun _ h => nomatch h
  have ran :
      ((Scheduler.new { Machine.fresh {} (.ofSeed 0) with pc := 0xFFF } Headless.mk Mute.mk).nextAll
        (Scheduler.startCall ++ List.replicate 4 (.work 0))).any (fun (s, _) =>
          s.fault == some (.invalidAddress 0x1000) &&
          (s.nextAll ([.stop, .work 1, .work 1] ++ List.replicate 3 (.control (.ok ())) ++
            [.start, .control (.ok ()), .control (.ok ())])).any (fun (mid, _) =>
              (mid.next (.control (.ok ()))).any (fun (begun, _) =>
                begun.runs == mid.runs + 1 &&
                (begun.nextAll ([.control (.ok ())] ++ List.replicate 4 (.work 0))).any
                  (fun (s', effects) => s'.runs == begun.runs &&
                    !(Scheduler.outcomes effects).isEmpty)))) := by
    decide +kernel
  obtain ⟨⟨s, shown⟩, reached, ran⟩ := (Option.any_eq_true ..).mp ran
  obtain ⟨noted, ran⟩ := Bool.and_eq_true_iff.mp ran
  obtain ⟨⟨mid, before⟩, h, ran⟩ := (Option.any_eq_true ..).mp ran
  obtain ⟨⟨begun, seen⟩, made, ran⟩ := (Option.any_eq_true ..).mp ran
  obtain ⟨begins, ran⟩ := Bool.and_eq_true_iff.mp ran
  obtain ⟨⟨s', effects⟩, rest, ran⟩ := (Option.any_eq_true ..).mp ran
  obtain ⟨same, stepped⟩ := Bool.and_eq_true_iff.mp ran
  have run : mid.InRun s' effects := .intro made (beq_iff_eq.mp begins) rest (beq_iff_eq.mp same)
  refine ⟨fails, (pulses _).1, ?_, s, shown, mid, before, s', effects, reached, h, run, ?_,
    scheduler reached (beq_iff_eq.mp noted) h run⟩
  · exact (clock rfl (by decide) (by decide +kernel)).1
  · simpa using stepped

end Chip8
