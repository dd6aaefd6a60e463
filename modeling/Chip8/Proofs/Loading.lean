import Chip8.Proofs.Invariant

/-!
# Loading a program

* `load_erases_history` — loading either leaves the machine alone, or leaves a fresh machine with
  the program in memory, from which everything goes on alike whatever was before

A fresh machine depends on nothing but the configuration and, without a seed, on the generator drawn
for it. So with a seed even later fresh starts cannot bring a difference in (`obey_redraw`).
-/

namespace Chip8

/-! ## Memory -/

namespace Memory

theorem byte_fresh (a : Nat) :
    fresh.byte a = if 0x050 ≤ a ∧ a < 0x0A0 then font.getD (a - 0x050) 0 else 0 := by
  have zeros : (⟨Vector.replicate 4096 0⟩ : Memory).byte a = 0 := by
    simp only [byte, Vector.getElem?_replicate]
    split <;> rfl
  have glyphs : font.length = 0x050 := rfl
  have start : fontStart.toNat = 0x050 := rfl
  have : size = 0x1000 := rfl
  rw [fresh, byte_putAll, zeros, glyphs, start]
  by_cases h : 0x050 ≤ a ∧ a < 0x0A0
  · rw [if_pos h, if_pos (by omega)]
  · rw [if_neg h, if_neg (by omega)]

end Memory

/-! ## Draws -/

/-- The same command with another generator drawn for it. -/
def Command.redraw (drawn : Random) : Command → Command
  | .load program _ => .load program drawn
  | .reset _ => .reset drawn
  | command => command

/-- Two rows of commands that are the same but for the generators drawn for them. -/
def SameButDraws (commands commands' : List Command) : Prop :=
  ∀ drawn, commands.map (Command.redraw drawn) = commands'.map (Command.redraw drawn)

namespace Machine

variable {m m' : Machine}

/-- With a seed, what is drawn is not looked at. -/
theorem fresh_of_seed {config : Config} (seeded : config.seed.isSome) (drawn drawn' : Random) :
    fresh config drawn = fresh config drawn' := by
  obtain ⟨seed, h⟩ := Option.isSome_iff_exists.mp seeded
  simp only [fresh, h]

section Seeded

variable (seeded : m.config.seed.isSome) (drawn : Random)
include seeded

theorem load_redraw (program : List UInt8) (drawn' : Random) :
    m.load program drawn = m.load program drawn' := by
  simp only [load, reset, fresh_of_seed seeded drawn drawn']

theorem answer_redraw (command : Command) :
    m.answer (command.redraw drawn) = m.answer command := by
  cases command with
  | load program drawn' => rw [Command.redraw, answer, answer, load_redraw seeded drawn]
  | _ => rfl

theorem obey_redraw (command : Command) : m.obey (command.redraw drawn) = m.obey command := by
  cases command with
  | load program drawn' => rw [Command.redraw, obey, obey, load_redraw seeded drawn]
  | reset drawn' => exact fresh_of_seed seeded drawn drawn'
  | _ => rfl

theorem answers_redraw (commands : List Command) :
    m.answers (commands.map (.redraw drawn)) = m.answers commands := by
  induction commands generalizing m with
  | nil => rfl
  | cons command commands ih =>
    have seeded' : (m.obey command).config.seed.isSome := by rwa [obey_config]
    rw [List.map_cons, answers, answers, answer_redraw seeded, obey_redraw seeded, ih seeded']

theorem obeyAll_redraw (commands : List Command) :
    m.obeyAll (commands.map (.redraw drawn)) = m.obeyAll commands := by
  induction commands generalizing m with
  | nil => rfl
  | cons command commands ih =>
    have seeded' : (m.obey command).config.seed.isSome := by rwa [obey_config]
    show (m.obey (command.redraw drawn)).obeyAll (commands.map (.redraw drawn)) = _
    rw [obey_redraw seeded, ih seeded']
    rfl

end Seeded

/-! ## Loading -/

theorem load_of_fits {program : List UInt8} (fits : program.length ≤ 3584) (m : Machine)
    (drawn : Random) :
    m.load program drawn =
      (.ok (), { fresh m.config drawn with memory := Memory.fresh.putAll 0x200 program }) := by
  have inside : Memory.programStart.toNat + program.length ≤ Memory.size := by
    show 0x200 + program.length ≤ 0x1000
    omega
  simp only [load, reset, Memory.load, if_pos inside]
  rfl

theorem load_of_too_long {program : List UInt8} (long : 3584 < program.length) (m : Machine)
    (drawn : Random) :
    m.load program drawn = (.error (.outOfBounds 0x200 program.length), m) := by
  have beyond : ¬ Memory.programStart.toNat + program.length ≤ Memory.size := by
    show ¬ 0x200 + program.length ≤ 0x1000
    omega
  simp only [load, Memory.load, if_neg beyond]
  rfl

theorem load_nil (m : Machine) (drawn : Random) : m.load [] drawn = (.ok (), m.reset drawn) := by
  rw [load_of_fits (show [].length ≤ 3584 by decide), Memory.putAll]
  rfl

/-- The bytes with a program in place: the program, the pictures of the digits, and zeros. -/
theorem byte_loaded {program : List UInt8} (fits : program.length ≤ 3584) (a : Nat) :
    (Memory.fresh.putAll 0x200 program).byte a =
      if 0x200 ≤ a ∧ a < 0x200 + program.length then program.getD (a - 0x200) 0
      else if 0x050 ≤ a ∧ a < 0x0A0 then Memory.font.getD (a - 0x050) 0 else 0 := by
  have : Memory.size = 0x1000 := rfl
  rw [Memory.byte_putAll, Memory.byte_fresh]
  by_cases h : 0x200 ≤ a ∧ a < 0x200 + program.length
  · rw [if_pos h, if_pos (by omega)]
  · rw [if_neg h, if_neg (by omega)]

/--
**Loading erases history, or changes nothing.**

A program of more than 3584 bytes is refused, and the whole machine stays as it was, its generator
included. Any other is loaded, and the machine is a fresh one of the same configuration, except that
the program stands in memory from `0x200` on. So with a seed, two machines of the same configuration
answer alike and stay alike once the same program is loaded, whatever was before and whatever
follows. A reset is the same as loading no bytes.
-/
theorem load_erases_history (m : Machine) (program : List UInt8) :
    (3584 < program.length → ∀ drawn,
      m.load program drawn = (.error (.outOfBounds 0x200 program.length), m)) ∧
    (program.length ≤ 3584 → ∀ drawn, ∃ memory : Memory,
      m.load program drawn = (.ok (), { fresh m.config drawn with memory }) ∧
      ∀ a, memory.byte a =
        if 0x200 ≤ a ∧ a < 0x200 + program.length then program.getD (a - 0x200) 0
        else if 0x050 ≤ a ∧ a < 0x0A0 then Memory.font.getD (a - 0x050) 0 else 0) ∧
    (program.length ≤ 3584 → m.config.seed.isSome → ∀ m' : Machine, m'.config = m.config →
      ∀ drawn drawn' commands commands', SameButDraws commands commands' →
        (m'.load program drawn').2.answers commands' = (m.load program drawn).2.answers commands ∧
        (m'.load program drawn').2.obeyAll commands' =
          (m.load program drawn).2.obeyAll commands) ∧
    (∀ drawn, m.load [] drawn = (.ok (), m.reset drawn)) := by
  refine ⟨fun long => load_of_too_long long m, ?_, ?_, m.load_nil⟩
  · intro fits drawn
    exact ⟨_, load_of_fits fits m drawn, byte_loaded fits⟩
  · intro fits seeded m' same drawn drawn' commands commands' draws
    have alike : (m'.load program drawn').2 = (m.load program drawn).2 := by
      rw [load_of_fits fits, load_of_fits fits, same, fresh_of_seed seeded drawn' drawn]
    have seeded' : (m.load program drawn).2.config.seed.isSome := by
      rw [load_of_fits fits]
      exact seeded
    rw [alike, ← answers_redraw seeded' drawn commands', ← obeyAll_redraw seeded' drawn commands',
      ← draws drawn, answers_redraw seeded', obeyAll_redraw seeded']
    exact ⟨rfl, rfl⟩

/-- A machine with a seed that has set a register, has its index elsewhere and has taken a random
byte. -/
def wornMachine : Machine :=
  ((fresh { seed := some 7 } (.ofSeed 0)).load [0x60, 0x2A, 0xA3, 0x00, 0xC1, 0xFF] (.ofSeed 0)).2
    |>.pulseAll [.step, .step, .step]

/-- A program that is one byte too long, and one that takes a random byte, loaded here and on a
machine that has done nothing yet; a reset follows, for which different generators are drawn. -/
theorem load_erases_history_worn :
    wornMachine.load (List.replicate 3585 0) (.ofSeed 1) =
      (.error (.outOfBounds 0x200 3585), wornMachine) ∧
    (wornMachine.load [0xC0, 0xFF] (.ofSeed 1)).1 = .ok () ∧
    (wornMachine.load [0xC0, 0xFF] (.ofSeed 1)).2.memory.byte 0x201 = 0xFF ∧
    ((fresh { seed := some 7 } (.ofSeed 2)).load [0xC0, 0xFF] (.ofSeed 3)).2.obeyAll
        [.pulse .step, .reset (.ofSeed 4)] =
      (wornMachine.load [0xC0, 0xFF] (.ofSeed 1)).2.obeyAll
        [.pulse .step, .reset (.ofSeed 5)] := by
  have seeded : wornMachine.config.seed.isSome := by decide +kernel
  have same : (fresh { seed := some 7 } (.ofSeed 2)).config = wornMachine.config := by
    decide +kernel
  have draws : SameButDraws [.pulse .step, .reset (.ofSeed 5)]
      [.pulse .step, .reset (.ofSeed 4)] := by
    intro drawn
    simp only [List.map_cons, List.map_nil, Command.redraw]
  obtain ⟨refused, _⟩ := load_erases_history wornMachine (List.replicate 3585 0)
  obtain ⟨_, loaded, alike, _⟩ := load_erases_history wornMachine [0xC0, 0xFF]
  obtain ⟨memory, loaded, bytes⟩ := loaded (by decide) (.ofSeed 1)
  have long := refused (by rw [List.length_replicate]; decide) (.ofSeed 1)
  rw [List.length_replicate] at long
  refine ⟨long, by rw [loaded], ?_, ?_⟩
  · rw [loaded]
    show memory.byte 0x201 = 0xFF
    rw [bytes]
    decide
  · exact (alike (by decide) seeded _ same (.ofSeed 1) (.ofSeed 3) _ _ draws).2

end Machine

end Chip8
