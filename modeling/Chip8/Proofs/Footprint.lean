import Chip8.Proofs.Dialects
import Chip8.Proofs.RandomStream
import Chip8.Proofs.Timing

/-!
# What an instruction can change

* `Footprint` — what an instruction may change of a machine, part by part
* `exec_footprint`, `step_footprint` — it changes nothing else, whether it is carried out or fails
* `byte_obeyAll` — a byte of memory stays over a run in which no store covers it
* `changes_within_footprint` — so the pictures of the digits and a loaded program stay where no
  store has covered them

Each part of a footprint is read off the digits of the word. The registers are the part where
instructions differ most: `Op.Sets` tells which ones an operation sets, `Word.Sets` tells it of a
word.
-/

namespace Chip8

namespace Pattern

/-- The instructions that set `VX` and no other register: `6XNN`, `7XNN`, `8XY0` to `8XY3`, `CXNN`,
`FX07` and `FX0A`. -/
def results : List Pattern :=
  [⟨some 0x6, none, none, none⟩, ⟨some 0x7, none, none, none⟩, ⟨some 0x8, none, none, some 0x0⟩,
    ⟨some 0x8, none, none, some 0x1⟩, ⟨some 0x8, none, none, some 0x2⟩,
    ⟨some 0x8, none, none, some 0x3⟩, random, getDelay, awaitKey]

/-- The instructions that set `VX` and the flag: `8XY4` to `8XY7` and `8XYE`. -/
def flagged : List Pattern := [add, sub, shiftRight, subFrom, shiftLeft]

end Pattern

namespace Word

/-- How many bytes an instruction stores from the index on. -/
def storeSize (word : UInt16) : Nat :=
  if Pattern.storeDecimal.fits word then 3
  else if Pattern.storeRegisters.fits word then (x word).toNat + 1
  else 0

/-- The instruction `word` may set a register. -/
inductive Sets (word : UInt16) : Nat → Prop
  | result {p : Pattern} : p ∈ Pattern.results → p.fits word → Sets word (x word).toNat
  | flaggedResult {p : Pattern} : p ∈ Pattern.flagged → p.fits word → Sets word (x word).toNat
  | flag {p : Pattern} : p ∈ Pattern.flagged → p.fits word → Sets word 0xF
  | collision : Pattern.draw.fits word → Sets word 0xF
  | block {r : Nat} : Pattern.loadRegisters.fits word → r ≤ (x word).toNat → Sets word r

end Word

/-- What the instruction `word` may change of the machine `m`: wherever `m'` differs from it, other
than in the program counter, the instruction is one of those that may change that part. -/
structure Machine.Footprint (word : UInt16) (m m' : Machine) : Prop where
  memory : ∀ a, m'.memory.byte a ≠ m.memory.byte a →
    m.index.toNat ≤ a ∧ a < m.index.toNat + Word.storeSize word
  screen : m'.screen ≠ m.screen → Pattern.clear.fits word ∨ Pattern.draw.fits word
  stack : m'.stack ≠ m.stack → Pattern.call.fits word ∨ Pattern.ret.fits word
  delay : m'.timers.delay ≠ m.timers.delay → Pattern.setDelay.fits word
  sound : m'.timers.sound ≠ m.timers.sound → Pattern.setSound.fits word
  rng : m'.rng ≠ m.rng → Pattern.random.fits word
  index : m'.index ≠ m.index →
    Pattern.setIndex.fits word ∨ Pattern.addIndex.fits word ∨ Pattern.pointGlyph.fits word ∨
      (m.config.dialect.advancesIndex ∧
        (Pattern.storeRegisters.fits word ∨ Pattern.loadRegisters.fits word))
  regs : ∀ r < 16, m'.reg (.ofNat r) ≠ m.reg (.ofNat r) → Word.Sets word r
  keypad : m'.keypad = m.keypad
  config : m'.config = m.config

/-- Whether a command carries out a store that covers an address. -/
def Command.storesOver (m : Machine) (a : Nat) (command : Command) : Bool :=
  (command.executed m).any fun word =>
    decide (m.index.toNat ≤ a ∧ a < m.index.toNat + Word.storeSize word)

/-! ## Registers -/

/-- An operation may set a register. -/
def Op.Sets (op : Op) (r : Fin 16) : Prop :=
  match op with
  | .setByte x _ | .addByte x _ | .copy x _ | .or x _ | .and x _ | .xor x _ | .random x _
  | .getDelay x | .awaitKey x => r = lowNibble x
  | .add x _ | .sub x _ | .subFrom x _ | .shiftLeft x _ | .shiftRight x _ =>
    r = lowNibble x ∨ r = lowNibble Registers.flag
  | .draw _ _ _ => r = lowNibble Registers.flag
  | .loadRegisters x => r.val ≤ x.toNat
  | _ => False

namespace Machine

variable {m m' : Machine} {word : UInt16}

/-- An operation leaves the other registers alone. -/
theorem exec_reg {op : Op} {r : UInt8} (h : ¬ op.Sets (lowNibble r)) (m : Machine) :
    (exec op m).2.reg r = m.reg r := by
  cases op with
  | setByte | addByte | copy | or | and | xor | random | getDelay =>
    exact m.regs.get_set_of_ne h _
  | awaitKey x =>
    simp only [exec]
    split
    · exact m.regs.get_set_of_ne h _
    · rfl
  | add x | sub x | subFrom x | shiftLeft x | shiftRight x =>
    obtain ⟨other, unflagged⟩ := not_or.mp h
    exact (Registers.get_setFlag_of_ne _ _ unflagged).trans (m.regs.get_set_of_ne other _)
  | draw x y n =>
    simp only [exec]
    split
    · exact m.regs.get_setFlag_of_ne _ h
    · rfl
  | loadRegisters x =>
    have above : ¬ (lowNibble r).val ≤ x.toNat := h
    simp only [exec]
    cases read : m.memory.slice m.index (x.toNat + 1) with
    | ok bytes =>
      have length := Memory.length_of_slice read
      show (m.regs.setAll 0 bytes).get r = m.regs.get r
      rw [Registers.get_setAll bytes m.regs (by omega), if_neg (by omega)]
    | error fault => rfl
  | _ =>
    simp only [exec, skipIf_eq]
    repeat' split
    all_goals rfl

/-- The registers that the operation of a word may set are those that the word may set. -/
theorem sets_of_decode {r : Fin 16} (h : (Op.decode word).Sets r) : Word.Sets word r.val := by
  have place := val_lowNibble (Word.toNat_x_lt word)
  cases op : Op.decode word with
  | setByte x | addByte x | copy x | or x | and x | xor x | random x =>
    obtain ⟨rfl, -⟩ := Op.readFrom_of_decode_eq op
    rw [op] at h
    rw [show r = lowNibble (Word.x word) from h, place]
    exact .result (by decide) (Op.fits_of_decode_eq op rfl)
  | getDelay x | awaitKey x =>
    have operand : x = Word.x word := Op.readFrom_of_decode_eq op
    subst operand
    rw [op] at h
    rw [show r = lowNibble (Word.x word) from h, place]
    exact .result (by decide) (Op.fits_of_decode_eq op rfl)
  | add x | sub x | subFrom x | shiftLeft x | shiftRight x =>
    obtain ⟨rfl, -⟩ := Op.readFrom_of_decode_eq op
    rw [op] at h
    rcases h with same | flag
    · rw [same, place]
      exact .flaggedResult (by decide) (Op.fits_of_decode_eq op rfl)
    · rw [flag]
      exact .flag (by decide) (Op.fits_of_decode_eq op rfl)
  | draw x y n =>
    rw [op] at h
    rw [show r = lowNibble Registers.flag from h]
    exact .collision (Op.fits_of_decode_eq op rfl)
  | loadRegisters x =>
    have operand : x = Word.x word := Op.readFrom_of_decode_eq op
    subst operand
    rw [op] at h
    exact .block (Op.fits_of_decode_eq op rfl) h
  | _ =>
    rw [op] at h
    cases h

/-! ## The other parts -/

theorem storeSize_of_stored {bytes : List UInt8} (h : (Op.decode word).stored m = some bytes) :
    bytes.length = Word.storeSize word := by
  cases op : Op.decode word with
  | storeDecimal x =>
    have fits : Pattern.storeDecimal.fits word := Op.fits_of_decode_eq op rfl
    rw [op] at h
    cases h
    rw [Word.storeSize, if_pos fits]
    rfl
  | storeRegisters x =>
    have fits : Pattern.storeRegisters.fits word := Op.fits_of_decode_eq op rfl
    have operand : x = Word.x word := Op.readFrom_of_decode_eq op
    -- the two stores differ in their digits, so the first test fails
    have other : ¬ Pattern.storeDecimal.fits word := by
      intro decimal
      rw [Op.decode_of_fits_storeDecimal decimal] at op
      cases op
    rw [op] at h
    cases h
    rw [Word.storeSize, if_neg other, if_pos fits, Registers.length_take, operand]
  | _ =>
    rw [op] at h
    cases h

theorem memory_changed {a : Nat}
    (no_fault : (Op.decode word).fault m.index m.stack.depth = none)
    (changed : (exec (.decode word) m).2.memory.byte a ≠ m.memory.byte a) :
    m.index.toNat ≤ a ∧ a < m.index.toNat + Word.storeSize word := by
  rw [exec_memory no_fault] at changed
  cases stored : (Op.decode word).stored m with
  | none =>
    rw [stored] at changed
    exact absurd rfl changed
  | some bytes =>
    rw [stored, Option.elim_some, Memory.byte_putAll, storeSize_of_stored stored] at changed
    by_cases covered : m.index.toNat ≤ a ∧ a < m.index.toNat + Word.storeSize word
    · exact covered
    · rw [if_neg (fun h => covered ⟨h.1, h.2.1⟩)] at changed
      exact absurd rfl changed

theorem screen_changed (changed : (exec (.decode word) m).2.screen ≠ m.screen) :
    Pattern.clear.fits word ∨ Pattern.draw.fits word := by
  rw [exec_screen] at changed
  cases op : Op.decode word with
  | clear => exact Or.inl (Op.fits_of_decode_eq op rfl)
  | draw x y n => exact Or.inr (Op.fits_of_decode_eq op rfl)
  | _ =>
    rw [op] at changed
    exact absurd rfl changed

theorem stack_changed (changed : (exec (.decode word) m).2.stack ≠ m.stack) :
    Pattern.call.fits word ∨ Pattern.ret.fits word := by
  obtain same | ⟨addr, op, -⟩ | ⟨op, -⟩ := exec_stack (.decode word) m
  · exact absurd same changed
  · exact Or.inl (Op.fits_of_decode_eq op rfl)
  · exact Or.inr (Op.fits_of_decode_eq op rfl)

theorem delay_changed (changed : (exec (.decode word) m).2.timers.delay ≠ m.timers.delay) :
    Pattern.setDelay.fits word := by
  rw [exec_timers] at changed
  cases op : Op.decode word with
  | setDelay x => exact Op.fits_of_decode_eq op rfl
  | _ =>
    rw [op] at changed
    exact absurd rfl changed

theorem sound_changed (changed : (exec (.decode word) m).2.timers.sound ≠ m.timers.sound) :
    Pattern.setSound.fits word := by
  rw [exec_timers] at changed
  cases op : Op.decode word with
  | setSound x => exact Op.fits_of_decode_eq op rfl
  | _ =>
    rw [op] at changed
    exact absurd rfl changed

theorem rng_changed (changed : (exec (.decode word) m).2.rng ≠ m.rng) :
    Pattern.random.fits word := by
  by_contra other
  refine changed (exec_rng ?_ m)
  intro x mask op
  exact other (Op.fits_of_decode_eq op rfl)

/-- The index is set by three operations, and moved on by two more where the dialect says so. -/
theorem exec_index {op : Op} (h : (exec op m).2.index ≠ m.index) :
    (∃ addr, op = .setIndex addr) ∨ (∃ x, op = .addIndex x) ∨ (∃ x, op = .pointGlyph x) ∨
      (m.config.dialect.advancesIndex ∧ ∃ x, op = .storeRegisters x ∨ op = .loadRegisters x) := by
  cases op with
  | setIndex addr => exact Or.inl ⟨addr, rfl⟩
  | addIndex x => exact Or.inr (Or.inl ⟨x, rfl⟩)
  | pointGlyph x => exact Or.inr (Or.inr (Or.inl ⟨x, rfl⟩))
  | storeRegisters x | loadRegisters x =>
    by_cases advances : m.config.dialect.advancesIndex
    · exact Or.inr (Or.inr (Or.inr ⟨advances, x, by simp⟩))
    · have stays : m.indexAfter (x.toNat + 1) = m.index := if_neg advances
      exfalso
      apply h
      simp only [exec, stays]
      split <;> rfl
  | _ =>
    exfalso
    apply h
    simp only [exec, skipIf_eq]
    repeat' split
    all_goals rfl

theorem index_changed (changed : (exec (.decode word) m).2.index ≠ m.index) :
    Pattern.setIndex.fits word ∨ Pattern.addIndex.fits word ∨ Pattern.pointGlyph.fits word ∨
      (m.config.dialect.advancesIndex ∧
        (Pattern.storeRegisters.fits word ∨ Pattern.loadRegisters.fits word)) := by
  obtain ⟨_, op⟩ | ⟨_, op⟩ | ⟨_, op⟩ | ⟨advances, _, op | op⟩ := exec_index changed
  · exact Or.inl (Op.fits_of_decode_eq op rfl)
  · exact Or.inr (Or.inl (Op.fits_of_decode_eq op rfl))
  · exact Or.inr (Or.inr (Or.inl (Op.fits_of_decode_eq op rfl)))
  · exact Or.inr (Or.inr (Or.inr ⟨advances, Or.inl (Op.fits_of_decode_eq op rfl)⟩))
  · exact Or.inr (Or.inr (Or.inr ⟨advances, Or.inr (Op.fits_of_decode_eq op rfl)⟩))

/-! ## Instructions -/

/-- A machine that differs in the program counter at most is within every footprint. -/
theorem footprint_of_pc (word : UInt16) (m : Machine) (pc : UInt16) :
    m.Footprint word { m with pc } where
  memory := fun _ changed => absurd rfl changed
  screen := fun changed => absurd rfl changed
  stack := fun changed => absurd rfl changed
  delay := fun changed => absurd rfl changed
  sound := fun changed => absurd rfl changed
  rng := fun changed => absurd rfl changed
  index := fun changed => absurd rfl changed
  regs := fun _ _ changed => absurd rfl changed
  keypad := rfl
  config := rfl

theorem Footprint.of_pc {pc : UInt16} (h : Footprint word { m with pc } m') :
    m.Footprint word m' :=
  ⟨h.memory, h.screen, h.stack, h.delay, h.sound, h.rng, h.index, h.regs, h.keypad, h.config⟩

theorem exec_footprint (word : UInt16) (m : Machine) :
    m.Footprint word (exec (.decode word) m).2 := by
  cases fault : (Op.decode word).fault m.index m.stack.depth with
  | some fault' =>
    rw [exec_of_fault fault]
    exact m.footprint_of_pc word m.pc
  | none =>
    refine ⟨fun a => memory_changed fault, screen_changed, stack_changed, delay_changed,
      sound_changed, rng_changed, index_changed, ?_, exec_keypad _ m, exec_config _ m⟩
    intro r lt changed
    have sets : (Op.decode word).Sets (lowNibble (.ofNat r)) := by
      by_contra other
      exact changed (exec_reg other m)
    rw [← val_lowNibble_ofNat lt]
    exact sets_of_decode sets

theorem step_footprint (m : Machine) : m.Footprint m.word m.step.2 := by
  obtain ⟨_, e⟩ | ⟨_, fault, _, e⟩ | ⟨_, _, e⟩ := m.step_cases
  · rw [e]
    exact m.footprint_of_pc m.word m.pc
  · rw [e]
    cases fault with
    | unknownOpcode => exact m.footprint_of_pc m.word m.advance.pc
    | _ => exact m.footprint_of_pc m.word m.pc
  · rw [e]
    exact (exec_footprint m.word m.advance).of_pc

/-! ## Runs -/

theorem obey_byte {command : Command} {a : Nat} (goesOn : command.startsOver m = false)
    (uncovered : command.storesOver m a = false) :
    (m.obey command).memory.byte a = m.memory.byte a := by
  cases executed : command.executed m with
  | none =>
    obtain ⟨pc, timers, keypad, e⟩ := obey_of_idle executed goesOn
    rw [e]
  | some word =>
    obtain ⟨pc, e⟩ := obey_of_executed executed
    rw [e]
    by_contra changed
    have covered := (exec_footprint word { m with pc }).memory a changed
    rw [Command.storesOver, executed] at uncovered
    exact of_decide_eq_false uncovered covered

theorem byte_obeyAll {commands : List Command} {a : Nat}
    (h : ∀ s command, (s, command) ∈ m.given commands →
      command.startsOver s = false ∧ command.storesOver s a = false) :
    (m.obeyAll commands).memory.byte a = m.memory.byte a := by
  induction commands generalizing m with
  | nil => rfl
  | cons command commands ih =>
    obtain ⟨goesOn, uncovered⟩ := h m command List.mem_cons_self
    have later : ((m.obey command).obeyAll commands).memory.byte a =
        (m.obey command).memory.byte a := by
      apply ih
      intro s command' given
      exact h s command' (List.mem_cons_of_mem _ given)
    exact later.trans (obey_byte goesOn uncovered)

/--
**What an instruction can change.**

A step changes the program counter, and of everything else only what its instruction is there to
change. Memory changes for `FX33` and `FX55` only, within three or `X + 1` bytes from the index on;
the screen for `00E0` and `DXYN`; the open calls for `2NNN` and `00EE`; the countdowns for `FX15` and
`FX18`; the generator for `CXNN`; the index for `ANNN`, `FX1E` and `FX29`, and for `FX55` and `FX65`
in the dialect that moves it on; a register only if it is one that the instruction sets; and the
keys and the configuration never.

So, once a program is loaded, whatever is done then short of starting over, the program, the
pictures of the digits and the zeros elsewhere stay as loaded at every address that no `FX33` or
`FX55` carried out since has covered.
-/
theorem changes_within_footprint (m : Machine) :
    m.Footprint m.word m.step.2 ∧
    ∀ program drawn commands a, program.length ≤ 3584 →
      (∀ s command, (s, command) ∈ (m.load program drawn).2.given commands →
        command.startsOver s = false ∧ command.storesOver s a = false) →
      ((m.load program drawn).2.obeyAll commands).memory.byte a =
        if 0x200 ≤ a ∧ a < 0x200 + program.length then program.getD (a - 0x200) 0
        else if 0x050 ≤ a ∧ a < 0x0A0 then Memory.font.getD (a - 0x050) 0 else 0 := by
  constructor
  · exact m.step_footprint
  · intro program drawn commands a fits untouched
    rw [byte_obeyAll untouched, load_of_fits fits]
    exact byte_loaded fits a

/-- Sets a register, stores it over the byte it was set from, and then its decimal digits over that
byte and the next instruction. -/
def scribble : List UInt8 := [0x60, 0x2A, 0xA2, 0x01, 0xF0, 0x55, 0xF0, 0x33]

/-- Runs it past its end; a program that is too long is refused on the way. -/
def scribbleCommands : List Command :=
  [.pulse .step, .pulse .step, .pulse .step, .load (List.replicate 3585 0) (.ofSeed 0),
    .pulse .tick, .pulse .step, .pulse .step]

theorem changes_within_footprint_scribble :
    (∀ a ∈ [0x204, 0x050], ∀ s command,
      (s, command) ∈ ((loaded []).load scribble (.ofSeed 0)).2.given scribbleCommands →
        command.startsOver s = false ∧ command.storesOver s a = false) ∧
    (((loaded []).load scribble (.ofSeed 0)).2.obeyAll scribbleCommands).memory.byte 0x204 = 0xF0 ∧
    (((loaded []).load scribble (.ofSeed 0)).2.obeyAll scribbleCommands).memory.byte 0x050 = 0xF0 ∧
    (((loaded []).load scribble (.ofSeed 0)).2.obeyAll scribbleCommands).memory.byte 0x203 = 2 := by
  have checked : ∀ a ∈ [0x204, 0x050],
      ((((loaded []).load scribble (.ofSeed 0)).2.given scribbleCommands).all fun given =>
        !given.2.startsOver given.1 && !given.2.storesOver given.1 a) = true := by
    decide +kernel
  have untouched : ∀ a ∈ [0x204, 0x050], ∀ s command,
      (s, command) ∈ ((loaded []).load scribble (.ofSeed 0)).2.given scribbleCommands →
        command.startsOver s = false ∧ command.storesOver s a = false := by
    intro a ha s command given
    have here := List.all_eq_true.mp (checked a ha) (s, command) given
    simpa only [Bool.and_eq_true, Bool.not_eq_true'] using here
  obtain ⟨-, stays⟩ := changes_within_footprint (loaded [])
  have first := stays scribble (.ofSeed 0) scribbleCommands 0x204 (by decide)
    (untouched 0x204 (by decide))
  have second := stays scribble (.ofSeed 0) scribbleCommands 0x050 (by decide)
    (untouched 0x050 (by decide))
  exact ⟨untouched, first, second, by decide +kernel⟩

end Machine

end Chip8
