import Chip8.Proofs.Invariant

/-!
# What commands came to

A command carries out an instruction, or starts the machine over, or does neither.

* `given` — a row of commands, each with the machine it was given to
* `obey_of_asked` — an instruction that a command sets out to carry out is carried out unless it
  has a fault
* `obey_of_executed`, `obey_of_startsOver` — what comes of the first two kinds
* `obey_of_idle` — a command that does neither moves the program counter, the timers and the keys at
  most; this covers every failing step and every program that is refused
-/

namespace Chip8

namespace Command

/-- The word of the instruction that a command carries out on a machine, if it carries one out. An
instruction that fails is not carried out. -/
def executed (m : Machine) : Command → Option UInt16
  | .pulse .step =>
    match m.step.1 with
    | .ok () => some m.word
    | .error _ => none
  | .exec word =>
    match (Machine.exec (.decode word) m).1 with
    | .ok () => some word
    | .error _ => none
  | .load _ _ | .reset _ | .fetch | .pulse .tick | .pulse (.keys _) => none

/-- The word of the instruction that a command sets out to carry out on a machine, whether or not
that goes well. A step that finds no whole word sets out to carry out none. -/
def asked (m : Machine) : Command → Option UInt16
  | .pulse .step => if m.pc.toNat + 1 < Memory.size then some m.word else none
  | .exec word => some word
  | .load _ _ | .reset _ | .fetch | .pulse .tick | .pulse (.keys _) => none

/-- Whether a command starts the machine over. A program that is refused does not. -/
def startsOver (m : Machine) : Command → Bool
  | .load program drawn =>
    match (m.load program drawn).1 with
    | .ok () => true
    | .error _ => false
  | .reset _ => true
  | .fetch | .exec _ | .pulse _ => false

end Command

namespace Machine

/-- The commands of a row, each with the machine it is given to. -/
def given (m : Machine) : List Command → List (Machine × Command)
  | [] => []
  | command :: commands => (m, command) :: (m.obey command).given commands

variable {m : Machine} {command : Command} {word : UInt16}

theorem obeyAll_append (m : Machine) (before after : List Command) :
    m.obeyAll (before ++ after) = (m.obeyAll before).obeyAll after := List.foldl_append

theorem given_append (m : Machine) (before after : List Command) :
    m.given (before ++ after) = m.given before ++ (m.obeyAll before).given after := by
  induction before generalizing m with
  | nil => rfl
  | cons command before ih => exact congrArg _ (ih (m.obey command))

theorem obeyAll_config (m : Machine) (commands : List Command) :
    (m.obeyAll commands).config = m.config :=
  obeyAll_induction (P := fun m' => m'.config = m.config)
    (fun m' command same => (m'.obey_config command).trans same) rfl commands

theorem config_of_given {s : Machine} {commands : List Command}
    (h : (s, command) ∈ m.given commands) : s.config = m.config := by
  induction commands generalizing m with
  | nil => cases h
  | cons first commands ih =>
    rcases List.mem_cons.mp h with same | later
    · cases same
      rfl
    · rw [ih later, obey_config]

/-! ## The three kinds of command -/

theorem executed_step_eq_some_iff :
    (Command.pulse .step).executed m = some word ↔ m.step.1 = .ok () ∧ word = m.word := by
  cases h : m.step.1 <;> simp [Command.executed, h, eq_comm]

theorem executed_exec_eq_some_iff {word' : UInt16} :
    (Command.exec word').executed m = some word ↔
      (Chip8.Machine.exec (.decode word') m).1 = .ok () ∧ word = word' := by
  cases h : (Chip8.Machine.exec (.decode word') m).1 <;> simp [Command.executed, h, eq_comm]

/-- What a command that carries out an instruction does is what the instruction does, wherever the
program counter is by then. -/
theorem obey_of_executed (h : command.executed m = some word) :
    ∃ pc, m.obey command = (Chip8.Machine.exec (.decode word) { m with pc }).2 := by
  cases command with
  | exec word' =>
    obtain ⟨-, rfl⟩ := executed_exec_eq_some_iff.mp h
    exact ⟨m.pc, rfl⟩
  | pulse p =>
    cases p with
    | step =>
      obtain ⟨ok, rfl⟩ := executed_step_eq_some_iff.mp h
      refine ⟨m.advance.pc, ?_⟩
      obtain ⟨_, e⟩ | ⟨_, fault, _, e⟩ | ⟨_, _, e⟩ := m.step_cases
      · rw [e] at ok
        cases ok
      · rw [e] at ok
        cases ok
      · rw [obey, pulse, e]
        rfl
    | tick | keys change => cases h
  | load program drawn | reset drawn | fetch => cases h

theorem executed_of_asked (asked : command.asked m = some word)
    (no_fault : (Op.decode word).fault m.index m.stack.depth = none) :
    command.executed m = some word := by
  cases command with
  | exec word' =>
    cases asked
    exact executed_exec_eq_some_iff.mpr ⟨exec_of_no_fault no_fault, rfl⟩
  | pulse p =>
    cases p with
    | step =>
      rw [Command.asked] at asked
      split at asked
      · next inside =>
        cases asked
        exact executed_step_eq_some_iff.mpr ⟨(step_eq_ok_iff inside).mpr no_fault, rfl⟩
      · cases asked
    | tick | keys change => cases asked
  | load program drawn | reset drawn | fetch => cases asked

/-- Where the word is read as an operation without a fault, that operation is carried out. -/
theorem obey_of_asked {op : Op} (asked : command.asked m = some word)
    (read : Op.decode word = op) (no_fault : op.fault m.index m.stack.depth = none) :
    command.executed m = some word ∧
      ∃ pc, m.obey command = (Chip8.Machine.exec op { m with pc }).2 := by
  subst read
  have executed := executed_of_asked asked no_fault
  exact ⟨executed, obey_of_executed executed⟩

theorem obey_of_startsOver (h : command.startsOver m = true) :
    ∃ memory drawn, m.obey command = { fresh m.config drawn with memory } := by
  cases command with
  | load program drawn =>
    obtain ⟨memory, e⟩ | ⟨fault, e⟩ := m.load_cases program drawn
    · exact ⟨memory, drawn, by rw [obey, e]⟩
    · simp only [Command.startsOver, e] at h
      cases h
  | reset drawn => exact ⟨.fresh, drawn, rfl⟩
  | fetch | exec | pulse => cases h

/-- A command that neither carries out an instruction nor starts over leaves everything as it is but
the program counter, the timers and the keys. -/
theorem obey_of_idle (unexecuted : command.executed m = none)
    (goesOn : command.startsOver m = false) :
    ∃ pc timers keypad, m.obey command = { m with pc, timers, keypad } := by
  cases command with
  | load program drawn =>
    obtain ⟨memory, e⟩ | ⟨fault, e⟩ := m.load_cases program drawn
    · simp only [Command.startsOver, e] at goesOn
      cases goesOn
    · exact ⟨m.pc, m.timers, m.keypad, by rw [obey, e]⟩
  | reset drawn => cases goesOn
  | fetch =>
    rcases m.fetch_snd with e | e
    · exact ⟨m.advance.pc, m.timers, m.keypad, by rw [obey, e]; rfl⟩
    · exact ⟨m.pc, m.timers, m.keypad, by rw [obey, e]⟩
  | exec word' =>
    cases h : (Chip8.Machine.exec (.decode word') m).1 with
    | ok =>
      rw [executed_exec_eq_some_iff.mpr ⟨h, rfl⟩] at unexecuted
      cases unexecuted
    | error fault => exact ⟨m.pc, m.timers, m.keypad, exec_of_error h⟩
  | pulse p =>
    cases p with
    | step =>
      obtain ⟨_, e⟩ | ⟨_, fault, _, e⟩ | ⟨_, _, e⟩ := m.step_cases
      · exact ⟨m.pc, m.timers, m.keypad, by rw [obey, pulse, e]; rfl⟩
      · rw [obey, pulse, e]
        cases fault with
        | unknownOpcode word' => exact ⟨m.advance.pc, m.timers, m.keypad, rfl⟩
        | _ => exact ⟨m.pc, m.timers, m.keypad, rfl⟩
      · rw [executed_step_eq_some_iff.mpr ⟨by rw [e]; rfl, rfl⟩] at unexecuted
        cases unexecuted
    | tick => exact ⟨m.pc, m.timers.tick.2, m.keypad, rfl⟩
    | keys change => exact ⟨m.pc, m.timers, m.keypad.change change, rfl⟩

/-- A command that reports a fault has done nothing of the kind. -/
theorem idle_of_fault {fault : Fault} (h : m.answer command = .outcome (.error fault)) :
    command.executed m = none ∧ command.startsOver m = false := by
  cases command with
  | load program drawn =>
    have failed : (m.load program drawn).1 = .error fault := by simpa [answer] using h
    exact ⟨rfl, by simp only [Command.startsOver, failed]⟩
  | exec word' =>
    have failed : (Chip8.Machine.exec (.decode word') m).1 = .error fault := by
      simpa [answer] using h
    exact ⟨by simp only [Command.executed, failed], rfl⟩
  | pulse p =>
    cases p with
    | step =>
      have failed : m.step.1 = .error fault := by simpa [answer] using h
      exact ⟨by simp only [Command.executed, failed], rfl⟩
    | tick | keys change => cases h
  | reset drawn | fetch => cases h

end Machine

end Chip8
