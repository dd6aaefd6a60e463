import Chip8.Proofs.Atomicity
import Chip8.Proofs.Run
import Chip8.Proofs.StepFault

/-!
# Stuck machines

A fault that is not passed over leaves the machine where it was, and timers and keys have no say in
how a step ends. So a machine that has met such a fault meets it at every further step, and nothing
but its timers and keys ever changes (`StuckOn.pulseAll`).
-/

namespace Chip8.Machine

/-- The next step fails with a fault that is not passed over. -/
structure StuckOn (m : Machine) (fault : Fault) : Prop where
  fails : m.step.1 = .error fault
  known : ∀ word, fault ≠ .unknownOpcode word

variable {m : Machine} {fault fault' : Fault}

theorem stuckOn_of_fatal (fails : m.step.1 = .error fault) (fatal : fault.isFatal = true) :
    m.StuckOn fault := by
  refine ⟨fails, ?_⟩
  rintro word rfl
  cases fatal

theorem StuckOn.unique (h : m.StuckOn fault) (h' : m.StuckOn fault') : fault = fault' :=
  Except.error.inj (h.fails.symm.trans h'.fails)

theorem StuckOn.step_eq (h : m.StuckOn fault) : m.step = (.error fault, m) :=
  Prod.ext h.fails (step_of_error h.fails h.known)

/-- Timers and keys get nobody out. -/
theorem StuckOn.of_same (h : m.StuckOn fault) (timers : Timers) (keypad : Keypad) :
    StuckOn { m with timers, keypad } fault := by
  have same : ({ m with timers, keypad } : Machine).step.1 = m.step.1 :=
    step_outcome_congr rfl rfl rfl rfl
  exact ⟨same.trans h.fails, h.known⟩

/-- A pulse changes the timers and the keys at most, and the keys only if it is meant to. -/
theorem StuckOn.pulse (h : m.StuckOn fault) (p : Pulse) :
    ∃ timers keypad, m.pulse p = { m with timers, keypad } ∧
      ((∀ change, p ≠ .keys change) → keypad = m.keypad) := by
  cases p with
  | step => exact ⟨m.timers, m.keypad, by rw [Machine.pulse, h.step_eq], fun _ => rfl⟩
  | tick => exact ⟨m.timers.tick.2, m.keypad, rfl, fun _ => rfl⟩
  | keys change =>
    exact ⟨m.timers, m.keypad.change change, rfl, fun none => absurd rfl (none change)⟩

/-- A row of pulses changes the timers and the keys at most, and every step in it fails alike. -/
theorem StuckOn.pulseAll (h : m.StuckOn fault) (pulses : List Pulse) :
    (∀ outcome ∈ m.outcomes pulses, outcome = .error fault) ∧
    ∃ timers keypad, m.pulseAll pulses = { m with timers, keypad } ∧
      ((∀ change, .keys change ∉ pulses) → keypad = m.keypad) := by
  induction pulses generalizing m with
  | nil => exact ⟨fun _ none => (nomatch none), m.timers, m.keypad, rfl, fun _ => rfl⟩
  | cons p pulses ih =>
    obtain ⟨timers, keypad, e, kept⟩ := h.pulse p
    obtain ⟨alike, timers', keypad', later, kept'⟩ := ih (h.of_same timers keypad)
    rw [← e] at alike later
    refine ⟨?_, timers', keypad', ?_, ?_⟩
    · cases p with
      | step =>
        intro outcome mem
        rcases List.mem_cons.mp mem with rfl | mem
        · exact h.fails
        · exact alike outcome mem
      | tick => exact alike
      | keys change => exact alike
    · show (m.pulse p).pulseAll pulses = _
      rw [later, e]
    · intro none
      have still : keypad' = keypad :=
        kept' fun change mem => none change (List.mem_cons_of_mem p mem)
      refine still.trans (kept fun change same => none change ?_)
      rw [same]
      exact List.mem_cons_self

theorem StuckOn.of_pulseAll (h : m.StuckOn fault) (pulses : List Pulse) :
    (m.pulseAll pulses).StuckOn fault := by
  obtain ⟨-, timers, keypad, e, -⟩ := h.pulseAll pulses
  rw [e]
  exact h.of_same timers keypad

end Chip8.Machine
