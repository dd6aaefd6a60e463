import Chip8.Proofs.Decoding
import Chip8.Proofs.Run

/-!
# The two clocks do not get in each other's way

* `clocks_independent` — a step and a timer tick can change places unless the instruction has to do
  with the timers, and a program that never looks at the delay runs the same however often the
  timers tick

`FX07` is the only place where the timers flow into the rest of the machine. For every other
operation, running on other timers is running and then having other timers (`exec_withTimers`,
`step_withTimers`).
-/

namespace Chip8

namespace Pattern

/-- `FX07` -/
def getDelay : Pattern := ⟨some 0xF, none, some 0x0, some 0x7⟩

/-- `FX15` -/
def setDelay : Pattern := ⟨some 0xF, none, some 0x1, some 0x5⟩

/-- `FX18` -/
def setSound : Pattern := ⟨some 0xF, none, some 0x1, some 0x8⟩

end Pattern

/-- Two rows of pulses that are the same but for the ticks among them. -/
inductive SameButTicks : List Pulse → List Pulse → Prop
  | nil : SameButTicks [] []
  | cons (p : Pulse) {pulses pulses' : List Pulse} :
    SameButTicks pulses pulses' → SameButTicks (p :: pulses) (p :: pulses')
  | tick_left {pulses pulses' : List Pulse} :
    SameButTicks pulses pulses' → SameButTicks (.tick :: pulses) pulses'
  | tick_right {pulses pulses' : List Pulse} :
    SameButTicks pulses pulses' → SameButTicks pulses (.tick :: pulses')

/-- The timers after an operation that succeeds on a machine with such timers. -/
def Op.timersAfter (op : Op) (m : Machine) (timers : Timers) : Timers :=
  match op with
  | .setDelay x => { timers with delay := m.reg x }
  | .setSound x => { timers with sound := m.reg x }
  | _ => timers

namespace Machine

variable {m m' : Machine}

/-- The machine with other timers. -/
def withTimers (m : Machine) (timers : Timers) : Machine := { m with timers }

section Parts

variable (m : Machine) (timers : Timers)

@[simp] theorem withTimers_memory : (m.withTimers timers).memory = m.memory := rfl

@[simp] theorem withTimers_pc : (m.withTimers timers).pc = m.pc := rfl

@[simp] theorem withTimers_index : (m.withTimers timers).index = m.index := rfl

@[simp] theorem withTimers_stack : (m.withTimers timers).stack = m.stack := rfl

@[simp] theorem withTimers_keypad : (m.withTimers timers).keypad = m.keypad := rfl

@[simp] theorem withTimers_regs : (m.withTimers timers).regs = m.regs := rfl

@[simp] theorem withTimers_reg (r : UInt8) : (m.withTimers timers).reg r = m.reg r := rfl

@[simp] theorem withTimers_storeAtIndex (bytes : List UInt8) :
    (m.withTimers timers).storeAtIndex bytes = m.storeAtIndex bytes := rfl

@[simp] theorem withTimers_skipIf (condition : Bool) :
    (m.withTimers timers).skipIf condition = (m.skipIf condition).withTimers timers := by
  cases condition <;> rfl

end Parts

/-! ## Operations -/

theorem exec_timers (op : Op) (m : Machine) :
    (exec op m).2.timers = op.timersAfter m m.timers := by
  cases op
  all_goals
    simp only [exec, skipIf_eq]
    repeat' split
  all_goals rfl

/-- Only `FX07` lets the timers into the rest of the machine. -/
theorem exec_withTimers {op : Op} (unread : ∀ x, op ≠ .getDelay x) (m : Machine)
    (timers : Timers) :
    exec op (m.withTimers timers) =
      ((exec op m).1, (exec op m).2.withTimers (op.timersAfter m timers)) := by
  cases op with
  | getDelay x => exact absurd rfl (unread x)
  | skipIfByte | skipUnlessByte | skipIfSame | skipUnlessSame | skipIfKey | skipUnlessKey =>
    simp only [exec, withTimers_reg, withTimers_keypad, withTimers_skipIf]
    rfl
  | ret | call | draw | awaitKey | storeDecimal | storeRegisters | loadRegisters =>
    simp only [exec, withTimers_stack, withTimers_pc, withTimers_memory, withTimers_index,
      withTimers_keypad, withTimers_reg, withTimers_regs, withTimers_storeAtIndex]
    split <;> rfl
  | _ => rfl

/-! ## Steps -/

/-- The timers after a step of a machine with such timers. -/
def timersAfter (m : Machine) (timers : Timers) : Timers :=
  match m.step.1 with
  | .ok () => m.nextOp.timersAfter m timers
  | .error _ => timers

theorem step_timers (m : Machine) : m.step.2.timers = m.timersAfter m.timers := by
  unfold timersAfter
  obtain ⟨_, e⟩ | ⟨_, fault, _, e⟩ | ⟨_, _, e⟩ := m.step_cases
  · rw [e]
    rfl
  · rw [e]
    cases fault <;> rfl
  · rw [e]
    exact exec_timers m.nextOp m.advance

theorem step_withTimers (unread : ∀ x, m.nextOp ≠ .getDelay x) (timers : Timers) :
    (m.withTimers timers).step = (m.step.1, m.step.2.withTimers (m.timersAfter timers)) := by
  unfold timersAfter
  obtain ⟨beyond, e⟩ | ⟨inside, fault, hf, e⟩ | ⟨inside, hf, e⟩ := m.step_cases
  · have e' := step_of_le (m := m.withTimers timers) beyond
    rw [e, e']
    rfl
  · have e' := step_of_fault (m := m.withTimers timers) inside hf
    rw [e, e']
    cases fault <;> rfl
  · have e' := step_of_no_fault (m := m.withTimers timers) inside hf
    have executed := exec_withTimers unread m.advance timers
    rw [e, e']
    exact congrArg (fun r => done r.2) executed

/-! ## Words -/

theorem nextOp_ne_getDelay (h : Pattern.getDelay.fits m.word = false) (x : UInt8) :
    m.nextOp ≠ .getDelay x := by
  intro op
  have fits : Pattern.getDelay.fits m.word := Op.fits_decode (by rw [← nextOp, op]; rfl)
  rw [h] at fits
  cases fits

/-- An instruction that sets no timer leaves both as they are. -/
theorem timersAfter_of_unset (delay : Pattern.setDelay.fits m.word = false)
    (sound : Pattern.setSound.fits m.word = false) (timers : Timers) :
    m.timersAfter timers = timers := by
  unfold timersAfter
  cases m.step.1 with
  | error fault => rfl
  | ok =>
    cases op : m.nextOp with
    | setDelay x =>
      have fits : Pattern.setDelay.fits m.word := Op.fits_decode (by rw [← nextOp, op]; rfl)
      rw [delay] at fits
      cases fits
    | setSound x =>
      have fits : Pattern.setSound.fits m.word := Op.fits_decode (by rw [← nextOp, op]; rfl)
      rw [sound] at fits
      cases fits
    | _ => rfl

/-! ## Runs -/

/-- Machines that are the same but for their timers go on to be so, and their steps end alike. -/
theorem pulseAll_of_sameButTicks {pulses pulses' : List Pulse} (same : SameButTicks pulses pulses')
    (m : Machine) (timers : Timers)
    (unread : ∀ s ∈ m.beforeSteps pulses, Pattern.getDelay.fits s.word = false) :
    (m.withTimers timers).outcomes pulses' = m.outcomes pulses ∧
      ∃ timers', (m.withTimers timers).pulseAll pulses' =
        (m.pulseAll pulses).withTimers timers' := by
  induction same generalizing m timers with
  | nil => exact ⟨rfl, timers, rfl⟩
  | tick_left _ ih => exact ih m.tickTimers.2 timers unread
  | tick_right _ ih => exact ih m timers.tick.2 unread
  | @cons p pulses pulses' _ ih =>
    cases p with
    | tick => exact ih m.tickTimers.2 timers.tick.2 unread
    | keys change => exact ih (m.pulse (.keys change)) timers unread
    | step =>
      have here : Pattern.getDelay.fits m.word = false := unread m List.mem_cons_self
      have stepped := step_withTimers (nextOp_ne_getDelay here) timers
      obtain ⟨outcomes, timers', final⟩ := ih m.step.2 (m.timersAfter timers)
        fun s hs => unread s (List.mem_cons_of_mem m hs)
      refine ⟨?_, timers', ?_⟩
      · show (m.withTimers timers).step.1 :: (m.withTimers timers).step.2.outcomes pulses' = _
        rw [stepped, outcomes]
        rfl
      · show (m.withTimers timers).step.2.pulseAll pulses' = _
        rw [stepped, final]
        rfl

/--
**The two clocks are independent.**

A step and a timer tick can change places, unless the instruction is `FX07`, `FX15` or `FX18`: the
step ends alike, the tick gives the same level and the machine is the same, also when the step
fails. Over a run, the timers may tick as they like: where a first run makes no `FX07`, a second
one with the same steps and key changes and with other ticks among them has steps that end alike,
and leaves a machine that is the same but for its timers.
-/
theorem clocks_independent (m : Machine) :
    ((∀ p ∈ [Pattern.getDelay, Pattern.setDelay, Pattern.setSound], p.fits m.word = false) →
      m.tickTimers.2.step.1 = m.step.1 ∧ m.step.2.tickTimers.1 = m.tickTimers.1 ∧
      m.step.2.tickTimers.2 = m.tickTimers.2.step.2) ∧
    (∀ pulses pulses', SameButTicks pulses pulses' →
      (∀ s ∈ m.beforeSteps pulses, Pattern.getDelay.fits s.word = false) →
      m.outcomes pulses' = m.outcomes pulses ∧
      ∃ timers, m.pulseAll pulses' = { m.pulseAll pulses with timers }) := by
  constructor
  · intro untimed
    have unread := nextOp_ne_getDelay (untimed Pattern.getDelay (by simp))
    have unset := timersAfter_of_unset (untimed Pattern.setDelay (by simp))
      (untimed Pattern.setSound (by simp))
    have kept : m.step.2.timers = m.timers := by rw [step_timers, unset]
    have ticked : m.tickTimers.2.step = (m.step.1, m.step.2.withTimers m.timers.tick.2) := by
      rw [← unset m.timers.tick.2]
      exact step_withTimers unread m.timers.tick.2
    refine ⟨by rw [ticked], ?_, ?_⟩
    · show m.step.2.timers.isBeeping = m.timers.isBeeping
      rw [kept]
    · show m.step.2.withTimers m.step.2.timers.tick.2 = _
      rw [kept, ticked]
  · intro pulses pulses' same unread
    exact pulseAll_of_sameButTicks same m m.timers unread

/-- A sound is started, a key makes a return be reached, and the return fails; both countdowns run
meanwhile. -/
def soundAndSkip : Machine :=
  (loaded [0x60, 0x05, 0xF0, 0x18, 0xE1, 0x9E, 0x00, 0xE0, 0x00, 0xEE]).withTimers
    { delay := 3, sound := 1 }

theorem clocks_independent_soundAndSkip :
    (∀ p ∈ [Pattern.getDelay, Pattern.setDelay, Pattern.setSound],
      p.fits soundAndSkip.word = false) ∧
    soundAndSkip.step.2.tickTimers.1 = true ∧
    soundAndSkip.step.2.tickTimers.2 = soundAndSkip.tickTimers.2.step.2 ∧
    (∀ s ∈ soundAndSkip.beforeSteps
      [.step, .tick, .step, .keys (.press 0), .tick, .step, .step],
      Pattern.getDelay.fits s.word = false) ∧
    soundAndSkip.outcomes [.tick, .tick, .step, .step, .keys (.press 0), .step, .tick, .step] =
      soundAndSkip.outcomes [.step, .tick, .step, .keys (.press 0), .tick, .step, .step] ∧
    (soundAndSkip.pulseAll
      [.tick, .tick, .step, .step, .keys (.press 0), .step, .tick, .step]).pc = 0x208 := by
  have untimed : ∀ p ∈ [Pattern.getDelay, Pattern.setDelay, Pattern.setSound],
      p.fits soundAndSkip.word = false := by decide +kernel
  have unread : ∀ s ∈ soundAndSkip.beforeSteps
      [.step, .tick, .step, .keys (.press 0), .tick, .step, .step],
      Pattern.getDelay.fits s.word = false := by decide +kernel
  have same : SameButTicks [.step, .tick, .step, .keys (.press 0), .tick, .step, .step]
      [.tick, .tick, .step, .step, .keys (.press 0), .step, .tick, .step] :=
    .tick_right (.tick_right (.cons _ (.tick_left (.cons _ (.cons _ (.tick_left
      (.cons _ (.tick_right (.cons _ .nil)))))))))
  obtain ⟨_, level, swapped⟩ := (clocks_independent soundAndSkip).1 untimed
  obtain ⟨outcomes, timers, final⟩ := (clocks_independent soundAndSkip).2 _ _ same unread
  have early : (soundAndSkip.pulseAll
      [.step, .tick, .step, .keys (.press 0), .tick, .step, .step]).pc = 0x208 := by
    decide +kernel
  have sounding : soundAndSkip.tickTimers.1 = true := by decide +kernel
  refine ⟨untimed, level.trans sounding, swapped, unread, outcomes, ?_⟩
  rw [← early, final]

end Machine

end Chip8
