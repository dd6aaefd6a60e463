import Chip8.Beeper
import Chip8.Proofs.Countdown
import Chip8.Proofs.Scheduler.FailedStart

/-!
# The level that is reported last

* `AtRest` — nobody is at work, and nobody is about to be
* `LastLevel` — what the last level tells of the machine
* `last_level` — at rest, the last level is that of the last tick, and the audio hears no more
* `stop_leaves_tone_on` — a stop in the middle of a beep leaves the last level on

The audio is called at a tick of the timers and at no other time, and is told what the tick has
found. So the tone of clocks that have come to rest is off, unless they were halted before the sound
countdown was used up: then nobody is left to switch it off.
-/

namespace Chip8

/-- The flag of a beeper is the last level it was told. -/
theorem Beeper.beeping_tell (beeper : Beeper) (levels : List Bool) :
    (Audio.tell beeper levels).beeping = levels.getLast?.getD beeper.beeping := by
  induction levels generalizing beeper with
  | nil => rfl
  | cons on levels ih =>
    refine (ih { beeper with beeping := on }).trans ?_
    rw [List.getLast?_cons, Option.getD_some]

/-! ## The last tick -/

theorem getLast?_beeps {s n : Nat} (some_tick : 0 < n) :
    (beeps s n).getLast? = some (decide (n ≤ s)) := by
  rw [List.getLast?_eq_getElem?, (beep_beeps s n).length]
  exact (beep_beeps s n).level n some_tick (Nat.le_refl n)

theorem tick_mem_iff {pulses : List Pulse} : .tick ∈ pulses ↔ 0 < pulses.countP (·.isTick) := by
  rw [List.countP_pos_iff]
  constructor
  · exact fun mem => ⟨.tick, mem, rfl⟩
  · rintro ⟨p, mem, tick⟩
    cases p with
    | tick => exact mem
    | step | keys => cases tick

namespace Machine

variable {m : Machine} {pulses : List Pulse} {last : Bool}

theorem levels_append (m : Machine) (before after : List Pulse) :
    m.levels (before ++ after) = m.levels before ++ (m.pulseAll before).levels after := by
  induction before generalizing m with
  | nil => rfl
  | cons p before ih =>
    cases p with
    | step => exact ih m.step.2
    | tick => exact congrArg _ (ih m.tickTimers.2)
    | keys change => exact ih (m.pulse (.keys change))

theorem levels_eq_nil (m : Machine) : m.levels pulses = [] ↔ .tick ∉ pulses := by
  rw [levels, List.map_eq_nil_iff, ← List.length_eq_zero_iff, length_beforeTicks, tick_mem_iff,
    Nat.not_lt, Nat.le_zero]

/-- What the last level tells of a machine after a row of pulses. -/
structure LastLevel (m : Machine) (pulses : List Pulse) (last : Bool) : Prop where
  /-- It tells whether the sound countdown was running as the last tick began. -/
  sampled : ∃ before after, pulses = before ++ .tick :: after ∧ .tick ∉ after ∧
    last = (m.pulseAll before).timers.isBeeping
  /-- Since any moment after which the countdown was not set anew, no more ticks were made than it
  had left. -/
  counted : ∀ before after, pulses = before ++ after → .tick ∈ after →
    (m.pulseAll before).Avoids Pattern.setSound after →
    last = decide (after.countP (·.isTick) ≤ (m.pulseAll before).timers.sound.toNat)

theorem exists_last_tick (some_tick : .tick ∈ pulses) :
    ∃ before after, pulses = before ++ .tick :: after ∧ .tick ∉ after := by
  obtain ⟨after, before, split, first⟩ :=
    List.eq_append_cons_of_mem (List.mem_reverse.mpr some_tick)
  refine ⟨before.reverse, after.reverse, ?_, fun mem => first (List.mem_reverse.mp mem)⟩
  rw [← List.reverse_reverse pulses, split]
  simp

theorem lastLevel_of_getLast? (told : (m.levels pulses).getLast? = some last) :
    m.LastLevel pulses last := by
  constructor
  · have some_tick : .tick ∈ pulses := by
      by_contra tickless
      rw [m.levels_eq_nil.mpr tickless] at told
      cases told
    obtain ⟨before, after, split, none⟩ := exists_last_tick some_tick
    refine ⟨before, after, split, none, ?_⟩
    have first : (m.pulseAll before).levels (.tick :: after) =
        [(m.pulseAll before).timers.isBeeping] :=
      congrArg (_ :: ·) ((m.pulseAll before).tickTimers.2.levels_eq_nil.mpr none)
    rw [split, levels_append, first, List.getLast?_append] at told
    exact (Option.some.inj told).symm
  · rintro before after rfl some_tick unset
    rw [levels_append, List.getLast?_append, levels_eq_beeps unset,
      getLast?_beeps (tick_mem_iff.mp some_tick)] at told
    exact (Option.some.inj told).symm

end Machine

namespace Scheduler

variable {ρ α : Type} [Renderer ρ] [Audio α]
variable {s s' : Scheduler ρ α} {i : Nat} {worker : Worker} {m : Move} {effects : List Effect}

/-! ## What the audio hears -/

theorem Works.audio (works : Works s i worker s' effects) :
    s'.audio = Audio.tell s.audio (levels effects) := by
  cases works with
  | goOn | giveUp | count | publishBroke | levelBroke | report => rfl
  | step | proceed | halt => rw [levels_logged]; rfl
  | leave => split <;> rfl

/-- The audio is told the levels of a move and nothing else. -/
theorem Makes.audio (makes : Makes s m s' effects) :
    s'.audio = Audio.tell s.audio (levels effects) := by
  cases makes with
  | startAgain | start | stop | cleared | forget | raise | spawnInstructions | spawnTimers | refuse
  | announce | keys => rfl
  | finish | join => split <;> rfl
  | work there works => exact works.audio

/-- The audio is told the levels of a row of moves and nothing else. -/
theorem audio_of_nextAll {ms : List Move} (h : s.nextAll ms = some (s', effects)) :
    s'.audio = Audio.tell s.audio (levels effects) := by
  let kept (t : Scheduler ρ α) (_ : List Move) (shown : List Effect) : Prop :=
    t.audio = Audio.tell s.audio (levels shown)
  refine nextAll_history kept ?_ h [] [] rfl
  intro t m t' past shown effects told makes
  show t'.audio = _
  rw [makes.audio, told, levels_append, Audio.tell, Audio.tell, Audio.tell, List.foldl_append]

/-- While nobody holds the machine, one level was reported for every tick. -/
theorem levels_of_ended {machine : Machine} {renderer : ρ} {audio : α} {past : List Move}
    (reached : (new machine renderer audio).nextAll past = some (s, effects))
    (ended : ∀ worker ∈ s.workers, worker.hasEnded = true) :
    levels effects = machine.levels (pulses effects) := by
  have settled := settled_of_nextAll reached
  rw [(owes_nothing_of_ended ended).2, List.append_nil] at settled
  rw [← levels_calls, settled, levels_due]
  rfl

/-! ## Rest -/

/-- The clocks have come to rest: whoever was at work has ended, and the controller is not about to
start anybody. -/
structure AtRest (s : Scheduler ρ α) : Prop where
  ended : ∀ worker ∈ s.workers, worker.hasEnded = true
  settled : s.phase.opening = false

theorem AtRest.next (rest : s.AtRest) (still : m ≠ .start) (makes : Makes s m s' effects) :
    s'.AtRest ∧ ∀ effect ∈ effects, effect.level? = none := by
  obtain ⟨ended, settled⟩ := rest
  cases makes with
  | startAgain | start => exact absurd rfl still
  | stop => exact ⟨⟨ended, rfl⟩, fun _ none => nomatch none⟩
  | finish => exact ⟨⟨ended, rfl⟩, by split <;> simp [Effect.level?]⟩
  | join phase first =>
    refine ⟨⟨fun w mem => ended w ?_, settled⟩, by split <;> simp [Effect.level?]⟩
    rw [first]
    exact List.mem_cons_of_mem _ mem
  | announce => exact ⟨⟨ended, rfl⟩, by simp [Effect.level?]⟩
  | keys => exact ⟨⟨ended, settled⟩, by simp [Effect.level?]⟩
  | cleared phase | forget phase | raise phase | spawnInstructions phase | spawnTimers phase
  | refuse phase =>
    rw [phase] at settled
    cases settled
  | work there works =>
    have gone := ended _ (List.mem_of_getElem? there)
    cases works <;> cases gone

/-- Until the clocks are started again they stay at rest, and no level is reported. -/
theorem AtRest.levels_eq_nil (rest : s.AtRest) {ms : List Move}
    (h : s.nextAll ms = some (s', effects)) (still : .start ∉ ms) : levels effects = [] := by
  obtain ⟨-, silent⟩ := nextAll_kept (fun rest still makes => rest.next still makes) h rest
    fun m mem (start : m = .start) => still (start ▸ mem)
  exact List.filterMap_eq_nil_iff.mpr silent

/--
**The tone at rest.**

Take a new scheduler and any moves, by the controller, the workers and whoever sets the keys, in any
order, after which whoever was at work has ended: because the clocks were stopped, because of a
fault, or because a collaborator broke down.

If a level was ever reported, the last one tells whether the sound countdown was running as the last
tick of the timers began. So it is off as soon as more ticks were made than the countdown had left
since it was last set, and on if the clocks were halted before that.

A beeper goes by that level. Until somebody starts the clocks again, no further one is reported.
-/
theorem last_level {machine : Machine} {renderer : ρ} {audio : α} {past : List Move}
    (reached : (new machine renderer audio).nextAll past = some (s, effects))
    (ended : ∀ worker ∈ s.workers, worker.hasEnded = true) :
    (∀ last, (levels effects).getLast? = some last →
      machine.LastLevel (pulses effects) last) ∧
    (s.audio = Audio.tell audio (levels effects) ∧
      ∀ beeper : Beeper, (Audio.tell beeper (levels effects)).beeping =
        (levels effects).getLast?.getD beeper.beeping) ∧
    (s.phase.opening = false → ∀ {ms s' later}, s.nextAll ms = some (s', later) → .start ∉ ms →
      levels (effects ++ later) = levels effects ∧ s'.audio = s.audio) := by
  refine ⟨fun last told => ?_, ⟨audio_of_nextAll reached, fun beeper =>
    beeper.beeping_tell _⟩, fun settled _ _ _ h still => ?_⟩
  · rw [levels_of_ended reached ended] at told
    exact Machine.lastLevel_of_getLast? told
  · have silent := AtRest.levels_eq_nil ⟨ended, settled⟩ h still
    refine ⟨by rw [levels_append, silent, List.append_nil], ?_⟩
    rw [audio_of_nextAll h, silent]
    rfl

/-- A machine that starts a sound of one and then leaves memory. -/
def shortBeep : Machine := .loaded [0x60, 0x01, 0xF0, 0x18, 0x1F, 0xFF]

/-- The fault comes after two ticks, when the sound is over. -/
theorem last_level_after_fault :
    ∃ s effects, (new shortBeep Headless.mk ({} : Beeper)).nextAll
        (startCall ++ List.replicate 9 (.work 0) ++ List.replicate 6 (.work 1) ++
          List.replicate 4 (.work 0) ++ List.replicate 2 (.work 1)) = some (s, effects) ∧
      (∀ worker ∈ s.workers, worker.hasEnded = true) ∧
      s.fault = some (.invalidAddress 0x1000) ∧
      (levels effects).getLast? = some false ∧ s.audio.beeping = false := by
  have ran : ((new shortBeep Headless.mk ({} : Beeper)).nextAll
      (startCall ++ List.replicate 9 (.work 0) ++ List.replicate 6 (.work 1) ++
        List.replicate 4 (.work 0) ++ List.replicate 2 (.work 1))).any
      (fun (s, effects) => s.workers.all (·.hasEnded) &&
        s.fault == some (.invalidAddress 0x1000) && (levels effects).getLast?.isSome &&
        -- the sound is set at the second step
        (let after := (pulses effects).drop 2
          let m := shortBeep.pulseAll ((pulses effects).take 2)
          decide (m.Avoids Pattern.setSound after) && after.countP (·.isTick) == 2 &&
            m.timers.sound == 1)) := by
    decide +kernel
  obtain ⟨⟨s, effects⟩, reached, found⟩ := (Option.any_eq_true ..).mp ran
  simp only [Bool.and_eq_true, List.all_eq_true, beq_iff_eq, decide_eq_true_eq] at found
  obtain ⟨⟨⟨ended, fault⟩, told⟩, ⟨unset, two⟩, one⟩ := found
  obtain ⟨last, told⟩ := Option.isSome_iff_exists.mp told
  obtain ⟨tells, ⟨heard, gated⟩, -⟩ := last_level reached ended
  have off : last = false := by
    rw [(tells last told).counted _ _ (List.take_append_drop 2 _).symm
      (tick_mem_iff.mpr (by rw [two]; decide)) unset, two, one]
    rfl
  rw [off] at told
  refine ⟨s, effects, reached, ended, fault, told, ?_⟩
  rw [heard, gated, told]
  rfl

/-- A stop leaves the tone on. Here the sound is set to two, and the clocks are stopped after the
first tick. Both workers have ended and were waited for, and the last level is on. -/
theorem stop_leaves_tone_on :
    ∃ s effects, (new (.loaded [0x60, 0x02, 0xF0, 0x18]) Headless.mk ({} : Beeper)).nextAll
        (startCall ++ List.replicate 6 (.work 0) ++ List.replicate 3 (.work 1) ++
          [.stop, .work 0, .work 0, .work 1, .work 1] ++
          List.replicate 3 (.control (.ok ()))) = some (s, effects) ∧
      s.phase = .idle ∧ s.running = false ∧ s.workers.length = 0 ∧
      (levels effects).getLast? = some true ∧ s.audio.beeping = true := by
  have ran : ((new (.loaded [0x60, 0x02, 0xF0, 0x18]) Headless.mk ({} : Beeper)).nextAll
      (startCall ++ List.replicate 6 (.work 0) ++ List.replicate 3 (.work 1) ++
        [.stop, .work 0, .work 0, .work 1, .work 1] ++
        List.replicate 3 (.control (.ok ())))).any
      (fun (s, effects) => s.phase == .idle && !s.running && s.workers.length == 0 &&
        (levels effects).getLast? == some true && s.audio.beeping) := by
    decide +kernel
  obtain ⟨⟨s, effects⟩, reached, found⟩ := (Option.any_eq_true ..).mp ran
  simp only [Bool.and_eq_true, Bool.not_eq_true', beq_iff_eq] at found
  obtain ⟨⟨⟨⟨idle, down⟩, gone⟩, told⟩, on⟩ := found
  exact ⟨s, effects, reached, idle, down, gone, told, on⟩

end Scheduler

end Chip8
