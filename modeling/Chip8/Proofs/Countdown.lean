import Chip8.Proofs.Footprint
import Chip8.Proofs.Scheduler.WholeTicks

/-!
# Countdowns

* `hear` — a run of a machine with an audio that is told the level at each tick of the timers
* `toNat_pulseAll` — a countdown that is not set loses one a tick
* `levels_eq_beeps` — the tone sounds until the countdown is used up
* `Sounds`, `Delays` — what a countdown from some number comes to over a run
* `countdowns` — both countdowns of a machine go that way, and go that way anew once they are set

A tick takes one from both countdowns, and only `FX15` and `FX18` set them. So after some ticks a
countdown is what it started from less their number, whatever the program does in between. The level
of a tick is taken before the countdown goes down, so a sound of one is heard for one tick.
-/

namespace Chip8

/-! ## Levels -/

/-- The audio after it was told levels, one after the other. -/
def Audio.tell {α : Type} [Audio α] (audio : α) (levels : List Bool) : α :=
  levels.foldl (fun audio on => (Audio.setBeeping audio on).state) audio

/-- The levels of a countdown from `s` over `n` ticks. -/
def beeps (s n : Nat) : List Bool :=
  List.replicate (min s n) true ++ List.replicate (n - s) false

/-- The first level tells whether there is anything to count down. -/
theorem beeps_succ (s n : Nat) : beeps s (n + 1) = decide (0 < s) :: beeps (s - 1) n := by
  cases s with
  | zero => simp [beeps, List.replicate_succ]
  | succ s => simp [beeps, Nat.add_min_add_right, List.replicate_succ]

/-- One level for each of `n` ticks of a countdown from `s`. -/
structure Beep (s n : Nat) (levels : List Bool) : Prop where
  length : levels.length = n
  /-- Counted from one, the ticks up to the `s`-th sound. -/
  level : ∀ k, 1 ≤ k → k ≤ n → levels[k - 1]? = some (decide (k ≤ s))
  /-- So the tone comes first and has no break. -/
  unbroken : levels = List.replicate (min s n) true ++ List.replicate (n - s) false

theorem beep_beeps (s n : Nat) : Beep s n (beeps s n) where
  length := by
    rw [beeps, List.length_append, List.length_replicate, List.length_replicate]
    omega
  level := by
    intro k first last
    by_cases sounding : k ≤ s
    · rw [beeps, List.getElem?_append_left (by rw [List.length_replicate]; omega),
        List.getElem?_replicate_of_lt (by omega), decide_eq_true sounding]
    · rw [beeps, List.getElem?_append_right (by rw [List.length_replicate]; omega),
        List.getElem?_replicate_of_lt (by rw [List.length_replicate]; omega),
        decide_eq_false sounding]
  unbroken := rfl

namespace Machine

/-- The levels that the ticks among a row of pulses come with, in order. -/
def levels (m : Machine) (pulses : List Pulse) : List Bool :=
  (m.beforeTicks pulses).map (·.timers.isBeeping)

section Hearing

variable {α : Type} [Audio α]

/-- The machine and the audio after a row of pulses, with the audio at every tick. -/
def hear (m : Machine) (audio : α) : List Pulse → Machine × α
  | [] => (m, audio)
  | .step :: pulses => m.step.2.hear audio pulses
  | .tick :: pulses => (timerTick m audio).1.hear (timerTick m audio).2.state pulses
  | .keys change :: pulses => (m.pulse (.keys change)).hear audio pulses

/-- The audio is told one level a tick, and nothing else. -/
theorem hear_eq (m : Machine) (audio : α) (pulses : List Pulse) :
    m.hear audio pulses = (m.pulseAll pulses, Audio.tell audio (m.levels pulses)) := by
  induction pulses generalizing m audio with
  | nil => rfl
  | cons p pulses ih =>
    cases p with
    | step => exact ih m.step.2 audio
    | tick => exact ih m.tickTimers.2 _
    | keys change => exact ih (m.pulse (.keys change)) audio

end Hearing

/-- No step among a row of pulses comes to an instruction of the pattern. -/
def Avoids (m : Machine) (p : Pattern) (pulses : List Pulse) : Prop :=
  ∀ s ∈ m.beforeSteps pulses, p.fits s.word = false

instance (m : Machine) (p : Pattern) (pulses : List Pulse) : Decidable (m.Avoids p pulses) :=
  inferInstanceAs (Decidable (∀ s ∈ m.beforeSteps pulses, p.fits s.word = false))

variable {m : Machine} {pulses : List Pulse}

/-! ## Countdowns that are not set -/

theorem step_sound (unset : Pattern.setSound.fits m.word = false) :
    m.step.2.timers.sound = m.timers.sound := by
  by_contra changed
  rw [m.step_footprint.sound changed] at unset
  cases unset

theorem step_delay (unset : Pattern.setDelay.fits m.word = false) :
    m.step.2.timers.delay = m.timers.delay := by
  by_contra changed
  rw [m.step_footprint.delay changed] at unset
  cases unset

theorem isBeeping_eq (timers : Timers) : timers.isBeeping = decide (0 < timers.sound.toNat) := by
  have zero : timers.sound = 0 ↔ timers.sound.toNat = 0 := UInt8.toNat_inj.symm
  simp [Timers.isBeeping, zero, Nat.pos_iff_ne_zero]

/-- A countdown that ticks take one from and that no step sets loses one a tick. -/
theorem toNat_pulseAll (countdown : Timers → UInt8)
    (ticked : ∀ timers : Timers, countdown timers.tick.2 = Timers.countDown (countdown timers))
    (kept : ∀ s ∈ m.beforeSteps pulses, countdown s.step.2.timers = countdown s.timers) :
    (countdown (m.pulseAll pulses).timers).toNat =
      (countdown m.timers).toNat - pulses.countP (·.isTick) := by
  induction pulses generalizing m with
  | nil => rfl
  | cons p pulses ih =>
    cases p with
    | step =>
      rw [← kept m List.mem_cons_self]
      exact ih fun s mem => kept s (List.mem_cons_of_mem m mem)
    | tick =>
      have less : (countdown m.tickTimers.2.timers).toNat = (countdown m.timers).toNat - 1 := by
        rw [← Timers.toNat_countDown, ← ticked]
        rfl
      rw [List.countP_cons_of_pos rfl]
      refine (ih (m := m.tickTimers.2) kept).trans ?_
      rw [less]
      omega
    | keys change => exact ih (m := m.pulse (.keys change)) kept

theorem sound_pulseAll (unset : m.Avoids Pattern.setSound pulses) :
    (m.pulseAll pulses).timers.sound.toNat =
      m.timers.sound.toNat - pulses.countP (·.isTick) :=
  toNat_pulseAll Timers.sound (fun _ => rfl) fun s mem => step_sound (unset s mem)

theorem delay_pulseAll (unset : m.Avoids Pattern.setDelay pulses) :
    (m.pulseAll pulses).timers.delay.toNat =
      m.timers.delay.toNat - pulses.countP (·.isTick) :=
  toNat_pulseAll Timers.delay (fun _ => rfl) fun s mem => step_delay (unset s mem)

/-- The tone sounds until the countdown is used up. -/
theorem levels_eq_beeps (unset : m.Avoids Pattern.setSound pulses) :
    m.levels pulses = beeps m.timers.sound.toNat (pulses.countP (·.isTick)) := by
  induction pulses generalizing m with
  | nil => simp [levels, beforeTicks, beeps]
  | cons p pulses ih =>
    cases p with
    | step =>
      rw [← step_sound (unset m List.mem_cons_self)]
      exact ih fun s mem => unset s (List.mem_cons_of_mem m mem)
    | tick =>
      have less : m.tickTimers.2.timers.sound.toNat = m.timers.sound.toNat - 1 :=
        Timers.toNat_countDown m.timers.sound
      rw [List.countP_cons_of_pos rfl, beeps_succ, ← less, ← ih (m := m.tickTimers.2) unset,
        ← isBeeping_eq]
      rfl
    | keys change => exact ih unset

/-! ## Setting and reading -/

/-- An instruction with a last digit other than zero lies inside memory, and where it cannot fail
the step is its execution. -/
theorem step_of_fits (op : Op) {p : Pattern} {digit : Nat} (form : op.pattern = some p)
    (fits : p.fits m.word) (read : op.ReadFrom m.word) (last : p.n = some (digit + 1))
    (harmless : ∀ index depth, op.fault index depth = none) :
    m.step = done (exec op m.advance).2 := by
  have here : m.nextOp = op := Op.decode_of_fits form fits read
  have inside : m.pc.toNat + 1 < Memory.size := by
    by_contra beyond
    have zero : m.word.toNat % 0x10 = 0 := by
      rw [word, Memory.word, Word.toNat_ofBytes, Memory.byte_eq_zero_of_le _ (Nat.not_lt.mp beyond),
        UInt8.toNat_zero]
      omega
    simp [Pattern.fits, Pattern.digitFits, last, zero] at fits
  rw [← here] at harmless ⊢
  exact step_of_no_fault inside (harmless _ _)

theorem step_of_setSound (fits : Pattern.setSound.fits m.word) :
    m.step.1 = .ok () ∧ m.step.2.timers.sound = m.reg (Word.x m.word) := by
  rw [step_of_fits (.setSound (Word.x m.word)) rfl fits rfl rfl fun _ _ => rfl]
  exact ⟨rfl, rfl⟩

theorem step_of_setDelay (fits : Pattern.setDelay.fits m.word) :
    m.step.1 = .ok () ∧ m.step.2.timers.delay = m.reg (Word.x m.word) := by
  rw [step_of_fits (.setDelay (Word.x m.word)) rfl fits rfl rfl fun _ _ => rfl]
  exact ⟨rfl, rfl⟩

theorem step_of_getDelay (fits : Pattern.getDelay.fits m.word) :
    m.step.1 = .ok () ∧ m.step.2.reg (Word.x m.word) = m.timers.delay := by
  rw [step_of_fits (.getDelay (Word.x m.word)) rfl fits rfl rfl fun _ _ => rfl]
  exact ⟨rfl, m.regs.get_set_self _ _⟩

/-! ## Any interleaving -/

section Hearing

variable {α : Type} [Audio α]

/-- What becomes of a sound countdown from `s` over a row of pulses, to be heard and to be seen. -/
structure Sounds (m : Machine) (s : Nat) (audio : α) (pulses : List Pulse) : Prop where
  /-- The audio is told one level a tick and nothing else. -/
  heard : ∃ levels, (m.hear audio pulses).2 = Audio.tell audio levels ∧
    Beep s (pulses.countP (·.isTick)) levels
  left : (m.hear audio pulses).1.timers.sound.toNat = s - pulses.countP (·.isTick)

/-- What becomes of a delay countdown from `d` over a row of pulses, and what a program that comes
to `FX07` then reads. -/
structure Delays (m : Machine) (d : Nat) (audio : α) (pulses : List Pulse) : Prop where
  left : (m.hear audio pulses).1.timers.delay.toNat = d - pulses.countP (·.isTick)
  read : ∀ s, s = (m.hear audio pulses).1 → Pattern.getDelay.fits s.word →
    s.step.1 = .ok () ∧
    (s.step.2.reg (Word.x s.word)).toNat = d - pulses.countP (·.isTick)

theorem sounds (audio : α) (unset : m.Avoids Pattern.setSound pulses) :
    m.Sounds m.timers.sound.toNat audio pulses := by
  refine ⟨⟨m.levels pulses, by rw [hear_eq], ?_⟩, by rw [hear_eq, sound_pulseAll unset]⟩
  rw [levels_eq_beeps unset]
  exact beep_beeps _ _

theorem delays (audio : α) (unset : m.Avoids Pattern.setDelay pulses) :
    m.Delays m.timers.delay.toNat audio pulses := by
  have left := delay_pulseAll unset
  rw [← show (m.hear audio pulses).1 = m.pulseAll pulses by rw [hear_eq]] at left
  refine ⟨left, ?_⟩
  rintro s rfl fits
  obtain ⟨fine, read⟩ := step_of_getDelay fits
  exact ⟨fine, by rw [read, left]⟩

/--
**Countdown and tone over any interleaving.**

Take any machine, any audio, and any row of steps, ticks of the timers and key changes; a step may
fail. If no step comes to an `FX18`, the audio is told one level a tick, the tone is an unbroken
start of these as long as the sound countdown was, and the countdown has lost one for every tick.
If no step comes to an `FX15`, the delay countdown has lost one for every tick, and that is what an
`FX07` reads then. Neither asks anything about the other.

Wherever the machine comes to an `FX18` or `FX15` later on, the step goes well, and from there on
the countdown goes down from the value of `VX` by the same law.
-/
theorem countdowns (m : Machine) (audio : α) :
    (∀ pulses, m.Avoids Pattern.setSound pulses →
      m.Sounds m.timers.sound.toNat audio pulses) ∧
    (∀ pulses, m.Avoids Pattern.setDelay pulses →
      m.Delays m.timers.delay.toNat audio pulses) ∧
    (∀ before s heard, m.hear audio before = (s, heard) → Pattern.setSound.fits s.word →
      s.step.1 = .ok () ∧
      ∀ pulses, s.step.2.Avoids Pattern.setSound pulses →
        s.step.2.Sounds (s.reg (Word.x s.word)).toNat heard pulses) ∧
    (∀ before s heard, m.hear audio before = (s, heard) → Pattern.setDelay.fits s.word →
      s.step.1 = .ok () ∧
      ∀ pulses, s.step.2.Avoids Pattern.setDelay pulses →
        s.step.2.Delays (s.reg (Word.x s.word)).toNat heard pulses) := by
  refine ⟨fun pulses => sounds audio, fun pulses => delays audio, ?_, ?_⟩
  · intro _ s heard _ fits
    obtain ⟨fine, set⟩ := step_of_setSound fits
    refine ⟨fine, fun pulses unset => ?_⟩
    rw [← set]
    exact sounds heard unset
  · intro _ s heard _ fits
    obtain ⟨fine, set⟩ := step_of_setDelay fits
    refine ⟨fine, fun pulses unset => ?_⟩
    rw [← set]
    exact delays heard unset

end Hearing

/-- Both countdowns run; after an unknown word the sound is set anew, and after that the delay. -/
def beeping : Machine :=
  (loaded [0x60, 0x02, 0x51, 0x23, 0xF0, 0x18, 0xF0, 0x15, 0xF1, 0x07]).withTimers
    { delay := 4, sound := 2 }

/-- Up to the `FX18`; the second step fails. -/
def untilSet : List Pulse := [.step, .tick, .keys (.press 3), .tick, .step, .tick]

/-- The machine at its `FX18`, and what was heard of it. -/
def atSetSound : Machine × LevelRecorder := beeping.hear (LevelRecorder.mk [] none) untilSet

/-- The machine at its `FX15`, and what was heard of it. -/
def atSetDelay : Machine × LevelRecorder :=
  beeping.hear (LevelRecorder.mk [] none) (untilSet ++ [.step, .tick])

theorem countdowns_beeping :
    (beeping.Avoids Pattern.setSound untilSet ∧ atSetSound.2.levels = [true, true, false]) ∧
    (beeping.Avoids Pattern.setDelay untilSet ∧ atSetSound.1.timers.delay.toNat = 1) ∧
    (Pattern.setSound.fits atSetSound.1.word ∧
      atSetSound.1.step.2.Avoids Pattern.setSound [.tick, .step, .tick, .tick] ∧
      (atSetSound.1.step.2.hear atSetSound.2 [.tick, .step, .tick, .tick]).2.levels =
        [true, true, false, true, true, false]) ∧
    Pattern.setDelay.fits atSetDelay.1.word ∧
      atSetDelay.1.step.2.Avoids Pattern.setDelay [.tick] ∧
      Pattern.getDelay.fits atSetDelay.1.step.2.tickTimers.2.word ∧
      (atSetDelay.1.step.2.tickTimers.2.step.2.reg 1).toNat = 1 := by
  -- all in one, as each evaluation begins with loading the program
  obtain ⟨unset, unset', ⟨set, later, two⟩, set', later', two', reads, operand⟩ :
      beeping.Avoids Pattern.setSound untilSet ∧ beeping.Avoids Pattern.setDelay untilSet ∧
      (Pattern.setSound.fits atSetSound.1.word ∧
        atSetSound.1.step.2.Avoids Pattern.setSound [.tick, .step, .tick, .tick] ∧
        (atSetSound.1.reg (Word.x atSetSound.1.word)).toNat = 2) ∧
      Pattern.setDelay.fits atSetDelay.1.word ∧
        atSetDelay.1.step.2.Avoids Pattern.setDelay [.tick] ∧
        (atSetDelay.1.reg (Word.x atSetDelay.1.word)).toNat = 2 ∧
        Pattern.getDelay.fits atSetDelay.1.step.2.tickTimers.2.word ∧
        Word.x atSetDelay.1.step.2.tickTimers.2.word = 1 := by
    decide +kernel
  obtain ⟨sound, delay, restart, restart'⟩ := countdowns beeping (LevelRecorder.mk [] none)
  obtain ⟨levels, told, beep⟩ := (sound untilSet unset).heard
  have before : atSetSound.2 = LevelRecorder.mk [false, true, true] none := by
    rw [atSetSound, told, beep.unbroken]
    rfl
  obtain ⟨levels', told', beep'⟩ :=
    ((restart untilSet _ _ (Prod.eta atSetSound).symm set).2 _ later).heard
  have ticked : atSetDelay.1.step.2.tickTimers.2 =
      (atSetDelay.1.step.2.hear atSetDelay.2 [.tick]).1 := by rw [hear_eq]; rfl
  obtain ⟨-, read⟩ :=
    ((restart' _ _ _ (Prod.eta atSetDelay).symm set').2 _ later').read _ ticked reads
  refine ⟨⟨unset, by rw [before]; rfl⟩, ⟨unset', (delay untilSet unset').left⟩,
    ⟨set, later, ?_⟩, set', later', reads, ?_⟩
  · rw [told', beep'.unbroken, two, before]
    rfl
  · rw [operand, two'] at read
    exact read.trans (by decide)

end Machine

end Chip8
