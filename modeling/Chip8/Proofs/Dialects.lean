import Chip8.Proofs.History

/-!
# The settings do not interfere

* `Indifferent` — an instruction does not get to see where two dialects differ
* `obey_retuned` — then a command answers the same and does the same under both
* `settings_do_not_interfere` — and so does a whole row of commands; the instruction rate is never
  seen at all

The dialect is asked in two places only: for the value a shift starts from, and for the index behind
the registers that were stored or loaded. An operation for which both come out the same cannot tell
two dialects apart (`exec_retuned`).
-/

namespace Chip8

namespace Pattern

/-- `8XY6` -/
def shiftRight : Pattern := ⟨some 0x8, none, none, some 0x6⟩

/-- `8XYE` -/
def shiftLeft : Pattern := ⟨some 0x8, none, none, some 0xE⟩

end Pattern

namespace Op

variable {word : UInt16}

theorem decode_of_fits_shiftRight (h : Pattern.shiftRight.fits word) :
    decode word = .shiftRight (Word.x word) (Word.y word) :=
  decode_of_fits rfl h ⟨rfl, rfl⟩

theorem decode_of_fits_shiftLeft (h : Pattern.shiftLeft.fits word) :
    decode word = .shiftLeft (Word.x word) (Word.y word) :=
  decode_of_fits rfl h ⟨rfl, rfl⟩

/-- What is read as a shift has the digits of one, and takes its operands from the word. -/
theorem fits_of_shift {x y : UInt8}
    (h : decode word = .shiftRight x y ∨ decode word = .shiftLeft x y) :
    (Pattern.shiftRight.fits word ∨ Pattern.shiftLeft.fits word) ∧
      x = Word.x word ∧ y = Word.y word := by
  rcases h with op | op
  · have fits : Pattern.shiftRight.fits word := fits_decode (by rw [op]; rfl)
    rw [decode_of_fits_shiftRight fits] at op
    cases op
    exact ⟨Or.inl fits, rfl, rfl⟩
  · have fits : Pattern.shiftLeft.fits word := fits_decode (by rw [op]; rfl)
    rw [decode_of_fits_shiftLeft fits] at op
    cases op
    exact ⟨Or.inr fits, rfl, rfl⟩

/-- What is read as a store or load of registers has the digits of one. -/
theorem fits_of_block {x : UInt8}
    (h : decode word = .storeRegisters x ∨ decode word = .loadRegisters x) :
    Pattern.storeRegisters.fits word ∨ Pattern.loadRegisters.fits word := by
  rcases h with op | op
  · exact Or.inl (fits_decode (by rw [op]; rfl))
  · exact Or.inr (fits_decode (by rw [op]; rfl))

end Op

namespace Machine

variable {m : Machine} {dialect : Dialect} {word : UInt16} (ips : UInt32)

/-- The machine with another instruction rate and another dialect, and the same in all else. -/
def retuned (m : Machine) (ips : UInt32) (dialect : Dialect) : Machine :=
  { m with config := { m.config with ips, dialect } }

/-- An instruction does not get to see where a dialect differs from the machine's own: a shift has
the same value in `VX` and `VY` unless the dialects agree on shifts, and registers are stored or
loaded only if they agree on the index. -/
structure Indifferent (m : Machine) (dialect : Dialect) (word : UInt16) : Prop where
  shift : Pattern.shiftRight.fits word ∨ Pattern.shiftLeft.fits word →
    dialect.shiftsVY ≠ m.config.dialect.shiftsVY → m.reg (Word.x word) = m.reg (Word.y word)
  block : Pattern.storeRegisters.fits word ∨ Pattern.loadRegisters.fits word →
    dialect.advancesIndex = m.config.dialect.advancesIndex

instance (m : Machine) (dialect : Dialect) (word : UInt16) :
    Decidable (m.Indifferent dialect word) :=
  decidable_of_iff
    ((Pattern.shiftRight.fits word ∨ Pattern.shiftLeft.fits word →
      dialect.shiftsVY ≠ m.config.dialect.shiftsVY → m.reg (Word.x word) = m.reg (Word.y word)) ∧
    (Pattern.storeRegisters.fits word ∨ Pattern.loadRegisters.fits word →
      dialect.advancesIndex = m.config.dialect.advancesIndex))
    ⟨fun h => ⟨h.1, h.2⟩, fun h => ⟨h.shift, h.block⟩⟩

theorem indifferent_self (m : Machine) (word : UInt16) : m.Indifferent m.config.dialect word :=
  ⟨fun _ differ => absurd rfl differ, fun _ => rfl⟩

theorem Indifferent.shiftSource (h : m.Indifferent dialect word)
    (fits : Pattern.shiftRight.fits word ∨ Pattern.shiftLeft.fits word) :
    (m.retuned ips dialect).shiftSource (Word.x word) (Word.y word) =
      m.shiftSource (Word.x word) (Word.y word) := by
  show (if dialect.shiftsVY then m.reg (Word.y word) else m.reg (Word.x word)) =
    if m.config.dialect.shiftsVY then m.reg (Word.y word) else m.reg (Word.x word)
  by_cases agree : dialect.shiftsVY = m.config.dialect.shiftsVY
  · rw [agree]
  · rw [h.shift fits agree, ite_self, ite_self]

theorem Indifferent.indexAfter (h : m.Indifferent dialect word)
    (fits : Pattern.storeRegisters.fits word ∨ Pattern.loadRegisters.fits word) (count : Nat) :
    (m.retuned ips dialect).indexAfter count = m.indexAfter count := by
  show (if dialect.advancesIndex then m.index + .ofNat count else m.index) =
    if m.config.dialect.advancesIndex then m.index + .ofNat count else m.index
  rw [h.block fits]

/-! ## Operations -/

/-- An operation only sees the settings through the value to shift and the index behind a block. -/
theorem exec_retuned {op : Op}
    (shift : ∀ x y, op = .shiftRight x y ∨ op = .shiftLeft x y →
      (m.retuned ips dialect).shiftSource x y = m.shiftSource x y)
    (block : ∀ x, op = .storeRegisters x ∨ op = .loadRegisters x → (exec op m).1 = .ok () →
      ∀ count, (m.retuned ips dialect).indexAfter count = m.indexAfter count) :
    exec op (m.retuned ips dialect) = ((exec op m).1, (exec op m).2.retuned ips dialect) := by
  cases op with
  | shiftRight x y =>
    simp only [exec, shift x y (Or.inl rfl)]
    rfl
  | shiftLeft x y =>
    simp only [exec, shift x y (Or.inr rfl)]
    rfl
  | storeRegisters x =>
    -- where the registers go is the same; what is in question is the index behind them
    have same := block x (Or.inl rfl)
    have stored : (m.retuned ips dialect).storeAtIndex
        ((m.retuned ips dialect).regs.take (x.toNat + 1)) =
        m.storeAtIndex (m.regs.take (x.toNat + 1)) := rfl
    simp only [exec, stored] at same ⊢
    cases h : m.storeAtIndex (m.regs.take (x.toNat + 1)) with
    | ok memory =>
      rw [h] at same
      rw [same rfl]
      rfl
    | error fault => rfl
  | loadRegisters x =>
    have same := block x (Or.inr rfl)
    have read : (m.retuned ips dialect).memory.slice (m.retuned ips dialect).index (x.toNat + 1) =
        m.memory.slice m.index (x.toNat + 1) := rfl
    simp only [exec, read] at same ⊢
    cases h : m.memory.slice m.index (x.toNat + 1) with
    | ok bytes =>
      rw [h] at same
      rw [same rfl]
      rfl
    | error fault => rfl
  | storeDecimal x =>
    have stored : (m.retuned ips dialect).storeAtIndex
        (decimalDigits ((m.retuned ips dialect).reg x)) =
        m.storeAtIndex (decimalDigits (m.reg x)) := rfl
    simp only [exec, stored]
    split <;> rfl
  | skipIfByte | skipUnlessByte | skipIfSame | skipUnlessSame | skipIfKey | skipUnlessKey =>
    simp only [exec, skipIf_eq]
    rfl
  | ret | call | draw | awaitKey =>
    simp only [exec, retuned]
    split <;> rfl
  -- what is left does not ask for the settings and has no cases of its own
  | _ => rfl

/-- An instruction that is indifferent to a dialect, or fails, does the same under it. -/
theorem exec_decode_retuned
    (indifferent : (exec (.decode word) m).1 = .ok () → m.Indifferent dialect word) :
    exec (.decode word) (m.retuned ips dialect) =
      ((exec (.decode word) m).1, (exec (.decode word) m).2.retuned ips dialect) := by
  apply exec_retuned
  · intro x y op
    have ok : (exec (.decode word) m).1 = .ok () := by
      rcases op with op | op <;> rw [op] <;> rfl
    obtain ⟨fits, rfl, rfl⟩ := Op.fits_of_shift op
    exact (indifferent ok).shiftSource ips fits
  · intro x op ok
    exact (indifferent ok).indexAfter ips (Op.fits_of_block op)

/-! ## Commands -/

theorem step_retuned (indifferent : m.step.1 = .ok () → m.Indifferent dialect m.word) :
    (m.retuned ips dialect).step = (m.step.1, m.step.2.retuned ips dialect) := by
  obtain ⟨beyond, e⟩ | ⟨inside, fault, hf, e⟩ | ⟨inside, hf, e⟩ := m.step_cases
  · have e' := step_of_le (m := m.retuned ips dialect) beyond
    rw [e, e']
    rfl
  · have e' := step_of_fault (m := m.retuned ips dialect) inside hf
    rw [e, e']
    cases fault <;> rfl
  · have e' := step_of_no_fault (m := m.retuned ips dialect) inside hf
    have same : m.advance.Indifferent dialect m.word := by
      obtain ⟨shift, block⟩ := indifferent (by rw [e]; rfl)
      exact ⟨shift, block⟩
    have executed := exec_decode_retuned ips fun _ => same
    rw [e, e']
    exact congrArg (fun r => done r.2) executed

/-- A fresh start reads nothing of the settings but the seed. -/
theorem load_retuned (m : Machine) (ips : UInt32) (dialect : Dialect) (program : List UInt8)
    (drawn : Random) :
    (m.retuned ips dialect).load program drawn =
      ((m.load program drawn).1, (m.load program drawn).2.retuned ips dialect) := by
  have start : ((m.retuned ips dialect).reset drawn).memory = (m.reset drawn).memory := rfl
  simp only [load, start]
  split <;> rfl

theorem fetch_retuned (m : Machine) (ips : UInt32) (dialect : Dialect) :
    (m.retuned ips dialect).fetch = (m.fetch.1, m.fetch.2.retuned ips dialect) := by
  simp only [fetch, retuned]
  split <;> rfl

variable {command : Command} {commands : List Command}

theorem obey_retuned
    (indifferent : ∀ word, command.executed m = some word → m.Indifferent dialect word) :
    (m.retuned ips dialect).answer command = m.answer command ∧
      (m.retuned ips dialect).obey command = (m.obey command).retuned ips dialect := by
  cases command with
  | load program drawn =>
    rw [answer, obey, load_retuned]
    exact ⟨rfl, rfl⟩
  | reset drawn => exact ⟨rfl, rfl⟩
  | fetch =>
    rw [answer, obey, fetch_retuned]
    exact ⟨rfl, rfl⟩
  | exec word =>
    have same := exec_decode_retuned ips fun ok =>
      indifferent word (executed_exec_eq_some_iff.mpr ⟨ok, rfl⟩)
    rw [answer, obey, same]
    exact ⟨rfl, rfl⟩
  | pulse p =>
    cases p with
    | step =>
      have same := step_retuned ips fun ok =>
        indifferent m.word (executed_step_eq_some_iff.mpr ⟨ok, rfl⟩)
      rw [answer, obey, pulse, same]
      exact ⟨rfl, rfl⟩
    | tick | keys change => exact ⟨rfl, rfl⟩

/-! ## Runs -/

/-- By induction on the row: the machines start out the same but for their settings, and each
command keeps them so. -/
theorem obeyAll_retuned
    (indifferent : ∀ s command word, (s, command) ∈ m.given commands →
      command.executed s = some word → s.Indifferent dialect word) :
    (m.retuned ips dialect).answers commands = m.answers commands ∧
      (m.retuned ips dialect).obeyAll commands = (m.obeyAll commands).retuned ips dialect := by
  induction commands generalizing m with
  | nil => exact ⟨rfl, rfl⟩
  | cons command commands ih =>
    obtain ⟨answer, next⟩ := obey_retuned ips fun word executed =>
      indifferent m command word List.mem_cons_self executed
    obtain ⟨answers, final⟩ := ih fun s command' word given =>
      indifferent s command' word (List.mem_cons_of_mem _ given)
    constructor
    · rw [Machine.answers, answer, next, answers]
      rfl
    · show ((m.retuned ips dialect).obey command).obeyAll commands = _
      rw [next, final]
      rfl

/--
**The settings do not interfere.**

Take two machines that are the same but for the instruction rate and the dialect, and give both the
same row of commands. If nothing that the first one carries out gets to see where the dialects
differ, both give the same answers, so their steps end alike and their ticks have the same level,
and after every command the machines are the same but for the two settings. Only shifts that are
carried out with different values in `VX` and `VY`, and stores and loads of registers that succeed,
can see a difference at all. The instruction rate by itself is never seen.
-/
theorem settings_do_not_interfere (m : Machine) :
    (∀ ips dialect commands,
      (∀ s command word, (s, command) ∈ m.given commands → command.executed s = some word →
        s.Indifferent dialect word) →
      (m.retuned ips dialect).answers commands = m.answers commands ∧
      ∀ earlier, earlier <+: commands →
        (m.retuned ips dialect).obeyAll earlier = (m.obeyAll earlier).retuned ips dialect) ∧
    (∀ ips commands,
      (m.retuned ips m.config.dialect).answers commands = m.answers commands ∧
      (m.retuned ips m.config.dialect).obeyAll commands =
        (m.obeyAll commands).retuned ips m.config.dialect) := by
  constructor
  · intro ips dialect commands indifferent
    refine ⟨(obeyAll_retuned ips indifferent).1, ?_⟩
    rintro earlier ⟨later, rfl⟩
    refine (obeyAll_retuned ips fun s command word given => ?_).2
    apply indifferent s command word
    rw [given_append]
    exact List.mem_append_left _ given
  · intro ips commands
    refine obeyAll_retuned ips fun s command word given _ => ?_
    rw [← config_of_given given]
    exact s.indifferent_self word

/-- Shifts a register that has the same value in both operands, and tries to store two registers
where there is room for one byte only. -/
def carefulCommands : List Command :=
  [.load [0x60, 0x05, 0x61, 0x05, 0x80, 0x16, 0xAF, 0xFF, 0xF1, 0x55] (.ofSeed 0), .pulse .step,
    .pulse .step, .pulse .tick, .pulse .step, .pulse (.keys (.press 3)), .pulse .step, .pulse .step]

theorem settings_do_not_interfere_careful :
    (∀ s command word, (s, command) ∈ (fresh {} (.ofSeed 0)).given carefulCommands →
      command.executed s = some word → s.Indifferent ⟨true, true⟩ word) ∧
    ((fresh {} (.ofSeed 0)).retuned 9 ⟨true, true⟩).answers carefulCommands =
      (fresh {} (.ofSeed 0)).answers carefulCommands ∧
    (((fresh {} (.ofSeed 0)).retuned 9 ⟨true, true⟩).obeyAll carefulCommands).reg 0x0 = 2 ∧
    (((fresh {} (.ofSeed 0)).retuned 9 ⟨true, true⟩).obeyAll carefulCommands).pc = 0x208 := by
  have checked : (((fresh {} (.ofSeed 0)).given carefulCommands).all fun (s, command) =>
      (command.executed s).all fun word => decide (s.Indifferent ⟨true, true⟩ word)) = true := by
    decide +kernel
  have indifferent : ∀ s command word, (s, command) ∈ (fresh {} (.ofSeed 0)).given carefulCommands →
      command.executed s = some word → s.Indifferent ⟨true, true⟩ word := by
    intro s command word given executed
    have here : (command.executed s).all (fun word => decide (s.Indifferent ⟨true, true⟩ word)) =
        true := List.all_eq_true.mp checked (s, command) given
    rw [executed] at here
    exact of_decide_eq_true here
  obtain ⟨answers, alike⟩ :=
    (settings_do_not_interfere (fresh {} (.ofSeed 0))).1 9 ⟨true, true⟩ carefulCommands indifferent
  have first : ((fresh {} (.ofSeed 0)).obeyAll carefulCommands).reg 0x0 = 2 ∧
      ((fresh {} (.ofSeed 0)).obeyAll carefulCommands).pc = 0x208 := by
    decide +kernel
  rw [alike carefulCommands (List.prefix_refl _)]
  refine ⟨indifferent, answers, ?_⟩
  generalize (fresh {} (.ofSeed 0)).obeyAll carefulCommands = final at first ⊢
  exact first

end Machine

end Chip8
