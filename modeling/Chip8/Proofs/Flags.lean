import Chip8.Proofs.Dialects

/-!
# Results and flags

* `Yields` — the registers after an instruction that has a result and a flag
* `flags_exact` — result and flag together make up the exact sum, difference or shifted value, and
  for a sprite the flag is the collision, whichever registers are named

Both operands are read before anything is written, and the flag is written last. So where the
result should go into the flag register the flag stays, and where an operand is the flag register
its old value counts.
-/

namespace Chip8

/-! ## Bytes -/

/-- A sum is its low byte and its carry. -/
theorem toNat_add_carry (a b : UInt8) :
    a.toNat + b.toNat = (a + b).toNat + 256 * (decide (256 ≤ a.toNat + b.toNat)).toNat := by
  have := a.toNat_lt
  have := b.toNat_lt
  rw [UInt8.toNat_add]
  by_cases carry : 256 ≤ a.toNat + b.toNat
  · rw [decide_eq_true carry, Bool.toNat_true]
    omega
  · rw [decide_eq_false carry, Bool.toNat_false]
    omega

/-- A difference borrows 256 unless the flag is set. -/
theorem toNat_sub_borrow (a b : UInt8) :
    a.toNat + 256 * (1 - (decide (b ≤ a)).toNat) = (a - b).toNat + b.toNat := by
  have := a.toNat_lt
  have := b.toNat_lt
  rw [UInt8.toNat_sub]
  by_cases enough : b ≤ a
  · have : b.toNat ≤ a.toNat := UInt8.le_iff_toNat_le.mp enough
    rw [decide_eq_true enough, Bool.toNat_true]
    omega
  · have : ¬ b.toNat ≤ a.toNat := fun h => enough (UInt8.le_iff_toNat_le.mpr h)
    rw [decide_eq_false enough, Bool.toNat_false]
    omega

theorem toNat_beq_one (v : UInt8) : (v == 1) = decide (v.toNat = 1) := by
  rw [Bool.eq_iff_iff, beq_iff_eq, decide_eq_true_iff, ← UInt8.toNat_inj]
  rfl

/-- Twice a byte is the byte shifted left and the bit shifted out. -/
theorem toNat_shiftLeft_one (v : UInt8) :
    2 * v.toNat = (v <<< 1).toNat + 256 * (v >>> 7 == 1).toNat := by
  have := v.toNat_lt
  have high : (v >>> 7).toNat = v.toNat / 128 := by
    rw [UInt8.toNat_shiftRight, Nat.shiftRight_eq_div_pow]
    rfl
  have low : (v <<< 1).toNat = 2 * v.toNat % 256 := by
    rw [UInt8.toNat_shiftLeft, Nat.shiftLeft_eq, Nat.mul_comm]
    rfl
  rw [toNat_beq_one, high, low]
  by_cases out : v.toNat / 128 = 1
  · rw [decide_eq_true out, Bool.toNat_true]
    omega
  · rw [decide_eq_false out, Bool.toNat_false]
    omega

/-- A byte is twice the byte shifted right, and the bit shifted out. -/
theorem toNat_shiftRight_one (v : UInt8) :
    v.toNat = 2 * (v >>> 1).toNat + (v &&& 1 == 1).toNat := by
  have half : (v >>> 1).toNat = v.toNat / 2 := by
    rw [UInt8.toNat_shiftRight, Nat.shiftRight_eq_div_pow]
    rfl
  have parity : (v &&& 1).toNat = v.toNat % 2 := by
    rw [UInt8.toNat_and]
    exact Nat.and_one_is_mod v.toNat
  rw [toNat_beq_one, parity, half]
  by_cases out : v.toNat % 2 = 1
  · rw [decide_eq_true out, Bool.toNat_true]
    omega
  · rw [decide_eq_false out, Bool.toNat_false]
    omega

/-! ## Registers -/

namespace Machine

/-- The value in `VX`. -/
def valueX (m : Machine) (word : UInt16) : Nat := (m.reg (Word.x word)).toNat

/-- The value in `VY`. -/
def valueY (m : Machine) (word : UInt16) : Nat := (m.reg (Word.y word)).toNat

/-- The value that a shift starts from. -/
def shifted (m : Machine) (word : UInt16) : Nat :=
  if m.config.dialect.shiftsVY then m.valueY word else m.valueX word

/-- The rows of the sprite at the index. -/
def rows (m : Machine) (word : UInt16) : List UInt8 :=
  (List.range (Word.n word).toNat).map fun k => m.memory.byte (m.index.toNat + k)

/-- The command carries out the instruction `word`, and leaves the flag `c` in `VF`, the result `r`
in `VX` unless that is `VF`, and every other register as it was. -/
structure Yields (m : Machine) (command : Command) (word : UInt16) (r c : Nat) : Prop where
  executed : command.executed m = some word
  result_lt : r < 256
  flag_le : c ≤ 1
  flag : ((m.obey command).reg 0xF).toNat = c
  result : (Word.x word).toNat ≠ 0xF → ((m.obey command).reg (Word.x word)).toNat = r
  others : ∀ k < 15, k ≠ (Word.x word).toNat →
    (m.obey command).reg (.ofNat k) = m.reg (.ofNat k)

variable {m : Machine} {command : Command} {word : UInt16}

theorem toNat_get_setFlag (regs : Registers) (on : Bool) :
    ((regs.setFlag on).get Registers.flag).toNat = on.toNat := by
  rw [Registers.setFlag, Registers.get_set_self]
  cases on <;> rfl

theorem get_setFlag_of_lt (regs : Registers) (on : Bool) {k : Nat} (h : k < 15) :
    (regs.setFlag on).get (.ofNat k) = regs.get (.ofNat k) :=
  regs.get_setFlag_of_ne on (lowNibble_ofNat_ne (Nat.lt_succ_of_lt h) (Nat.ne_of_lt h))

/-- An operation that sets `VX` and then the flag yields both. -/
theorem yields_of_asked {op : Op} {v : UInt8} {on : Bool} (asked : command.asked m = some word)
    (read : Op.decode word = op) (no_fault : op.fault m.index m.stack.depth = none)
    (effect : ∀ pc, (exec op { m with pc }).2.regs = (m.regs.set (Word.x word) v).setFlag on) :
    m.Yields command word v.toNat on.toNat := by
  obtain ⟨executed, pc, e⟩ := obey_of_asked asked read no_fault
  have after : (m.obey command).regs = (m.regs.set (Word.x word) v).setFlag on := by
    rw [e]
    exact effect pc
  have place := val_lowNibble (Word.toNat_x_lt word)
  refine ⟨executed, v.toNat_lt, on.toNat_le, ?_, ?_, ?_⟩
  · show ((m.obey command).regs.get Registers.flag).toNat = on.toNat
    rw [after, toNat_get_setFlag]
  · intro other
    have unflagged : lowNibble (Word.x word) ≠ lowNibble Registers.flag := by
      intro same
      exact other (place.symm.trans (congrArg Fin.val same))
    show ((m.obey command).regs.get (Word.x word)).toNat = v.toNat
    rw [after, Registers.get_setFlag_of_ne _ _ unflagged, Registers.get_set_self]
  · intro k below other
    show (m.obey command).regs.get (.ofNat k) = m.regs.get (.ofNat k)
    rw [after, get_setFlag_of_lt _ on below]
    rw [← place] at other
    exact m.regs.get_set_of_ne (lowNibble_ofNat_ne (Nat.lt_succ_of_lt below) other) v

/-! ## Instructions -/

section Instructions

variable (asked : command.asked m = some word)
include asked

theorem add_exact (fits : Pattern.add.fits word) :
    ∃ r c, m.Yields command word r c ∧ m.valueX word + m.valueY word = r + 256 * c := by
  have read : Op.decode word = .add (Word.x word) (Word.y word) :=
    Op.decode_of_fits rfl fits ⟨rfl, rfl⟩
  exact ⟨_, _, yields_of_asked asked read rfl fun _ => rfl,
    toNat_add_carry (m.reg (Word.x word)) (m.reg (Word.y word))⟩

theorem sub_exact (fits : Pattern.sub.fits word) :
    ∃ r c, m.Yields command word r c ∧
      m.valueX word + 256 * (1 - c) = r + m.valueY word := by
  have read : Op.decode word = .sub (Word.x word) (Word.y word) :=
    Op.decode_of_fits rfl fits ⟨rfl, rfl⟩
  exact ⟨_, _, yields_of_asked asked read rfl fun _ => rfl,
    toNat_sub_borrow (m.reg (Word.x word)) (m.reg (Word.y word))⟩

theorem subFrom_exact (fits : Pattern.subFrom.fits word) :
    ∃ r c, m.Yields command word r c ∧
      m.valueY word + 256 * (1 - c) = r + m.valueX word := by
  have read : Op.decode word = .subFrom (Word.x word) (Word.y word) :=
    Op.decode_of_fits rfl fits ⟨rfl, rfl⟩
  exact ⟨_, _, yields_of_asked asked read rfl fun _ => rfl,
    toNat_sub_borrow (m.reg (Word.y word)) (m.reg (Word.x word))⟩

omit asked in
theorem toNat_shiftSource (m : Machine) (word : UInt16) :
    (m.shiftSource (Word.x word) (Word.y word)).toNat = m.shifted word := by
  unfold shiftSource shifted
  split <;> rfl

theorem shiftLeft_exact (fits : Pattern.shiftLeft.fits word) :
    ∃ r c, m.Yields command word r c ∧ 2 * m.shifted word = r + 256 * c := by
  have read := Op.decode_of_fits_shiftLeft fits
  have effect : ∀ pc, (exec (.shiftLeft (Word.x word) (Word.y word)) { m with pc }).2.regs =
      (m.regs.set (Word.x word) (m.shiftSource (Word.x word) (Word.y word) <<< 1)).setFlag
        (m.shiftSource (Word.x word) (Word.y word) >>> 7 == 1) := by
    intro pc
    rfl
  refine ⟨_, _, yields_of_asked asked read rfl effect, ?_⟩
  rw [← toNat_shiftSource]
  exact toNat_shiftLeft_one _

theorem shiftRight_exact (fits : Pattern.shiftRight.fits word) :
    ∃ r c, m.Yields command word r c ∧ m.shifted word = 2 * r + c := by
  have read := Op.decode_of_fits_shiftRight fits
  have effect : ∀ pc, (exec (.shiftRight (Word.x word) (Word.y word)) { m with pc }).2.regs =
      (m.regs.set (Word.x word) (m.shiftSource (Word.x word) (Word.y word) >>> 1)).setFlag
        (m.shiftSource (Word.x word) (Word.y word) &&& 1 == 1) := by
    intro pc
    rfl
  refine ⟨_, _, yields_of_asked asked read rfl effect, ?_⟩
  rw [← toNat_shiftSource]
  exact toNat_shiftRight_one _

theorem draw_exact (fits : Pattern.draw.fits word)
    (inside : m.index.toNat + (Word.n word).toNat ≤ Memory.size) :
    command.executed m = some word ∧
      (m.obey command).screen =
        (m.screen.paint (m.reg (Word.x word)) (m.reg (Word.y word)) (m.rows word)).1 ∧
      ((m.obey command).reg 0xF).toNat =
        (m.screen.paint (m.reg (Word.x word)) (m.reg (Word.y word)) (m.rows word)).2.toNat ∧
      ∀ k < 15, (m.obey command).reg (.ofNat k) = m.reg (.ofNat k) := by
  have read := Op.decode_of_fits_draw fits
  have sliced : m.memory.slice m.index (Word.n word).toNat = .ok (m.rows word) := if_pos inside
  obtain ⟨executed, pc, e⟩ := obey_of_asked asked read (if_pos inside)
  simp only [exec, sliced] at e
  refine ⟨executed, ?_, ?_, ?_⟩
  · rw [e]
    rfl
  · rw [e]
    exact toNat_get_setFlag m.regs _
  · intro k below
    rw [e]
    exact get_setFlag_of_lt m.regs _ below

end Instructions

/--
**Results and flags are exact.**

Take any machine and any command that sets out to carry out one of these instructions, with any
registers for `X` and `Y`, the same one or the flag register among them. The instruction is carried
out, and there is a byte `r` and a flag `c` of zero or one with the equation that the instruction is
about: the sum is `r` and a carry, a difference is `r` less a borrow where the flag is not set, and
the shifted value, of `VX` or `VY` as the dialect says, is `r` and the bit shifted out. Then `VF` is
`c`, also if it was to hold the result, `VX` is `r` otherwise, and no other register has changed.

A sprite that lies in memory is painted at the old values of `VX` and `VY`, and `VF` tells whether
the painting collided, whatever it was before.
-/
theorem flags_exact (m : Machine) {command : Command} {word : UInt16}
    (asked : command.asked m = some word) :
    (Pattern.add.fits word →
      ∃ r c, m.Yields command word r c ∧ m.valueX word + m.valueY word = r + 256 * c) ∧
    (Pattern.sub.fits word →
      ∃ r c, m.Yields command word r c ∧ m.valueX word + 256 * (1 - c) = r + m.valueY word) ∧
    (Pattern.subFrom.fits word →
      ∃ r c, m.Yields command word r c ∧ m.valueY word + 256 * (1 - c) = r + m.valueX word) ∧
    (Pattern.shiftLeft.fits word →
      ∃ r c, m.Yields command word r c ∧ 2 * m.shifted word = r + 256 * c) ∧
    (Pattern.shiftRight.fits word →
      ∃ r c, m.Yields command word r c ∧ m.shifted word = 2 * r + c) ∧
    (Pattern.draw.fits word → m.index.toNat + (Word.n word).toNat ≤ 4096 →
      command.executed m = some word ∧
      (m.obey command).screen =
        (m.screen.paint (m.reg (Word.x word)) (m.reg (Word.y word)) (m.rows word)).1 ∧
      ((m.obey command).reg 0xF).toNat =
        (m.screen.paint (m.reg (Word.x word)) (m.reg (Word.y word)) (m.rows word)).2.toNat ∧
      ∀ k < 15, (m.obey command).reg (.ofNat k) = m.reg (.ofNat k)) :=
  ⟨add_exact asked, sub_exact asked, subFrom_exact asked, shiftLeft_exact asked,
    shiftRight_exact asked, draw_exact asked⟩

/-- About to add the flag register to itself, with a value whose double does not fit. -/
def flagMachine : Machine :=
  { loaded [0x8F, 0xF4] with regs := Registers.zero.set 0xF 0x81, index := 0x050 }

/-- The sum, the differences and the shifts of the flag register with itself, and a sprite at it. -/
theorem flags_exact_same_register :
    (Command.pulse .step).asked flagMachine = some 0x8FF4 ∧ Pattern.add.fits 0x8FF4 ∧
    ((flagMachine.obey (.pulse .step)).reg 0xF).toNat = 1 ∧
    (∀ word ∈ [0x8FF5, 0x8FF7, 0x8FFE, 0x8FF6, 0xDFF5],
      (Command.exec word).asked flagMachine = some word) ∧
    Pattern.sub.fits 0x8FF5 ∧ ((flagMachine.obey (.exec 0x8FF5)).reg 0xF).toNat = 1 ∧
    Pattern.subFrom.fits 0x8FF7 ∧ ((flagMachine.obey (.exec 0x8FF7)).reg 0xF).toNat = 1 ∧
    Pattern.shiftLeft.fits 0x8FFE ∧ ((flagMachine.obey (.exec 0x8FFE)).reg 0xF).toNat = 1 ∧
    Pattern.shiftRight.fits 0x8FF6 ∧ ((flagMachine.obey (.exec 0x8FF6)).reg 0xF).toNat = 1 ∧
    Pattern.draw.fits 0xDFF5 ∧ flagMachine.index.toNat + (Word.n 0xDFF5).toNat ≤ 4096 ∧
    ((flagMachine.obey (.exec 0xDFF5)).reg 0xF).toNat = 0 := by
  have asked : (Command.pulse .step).asked flagMachine = some 0x8FF4 := by decide +kernel
  have by_hand : ∀ word, (Command.exec word).asked flagMachine = some word := fun _ => rfl
  have flag : flagMachine.reg 0xF = 0x81 := by decide +kernel
  have value : ∀ word, Word.x word = 0xF → Word.y word = 0xF →
      flagMachine.valueX word = 0x81 ∧ flagMachine.valueY word = 0x81 ∧
        flagMachine.shifted word = 0x81 := by
    intro word x y
    have valueX : flagMachine.valueX word = 0x81 := by
      rw [Machine.valueX, x, flag]
      rfl
    have valueY : flagMachine.valueY word = 0x81 := by
      rw [Machine.valueY, y, flag]
      rfl
    exact ⟨valueX, valueY, by rw [shifted, valueX, valueY, ite_self]⟩
  have dark : (flagMachine.screen.paint (flagMachine.reg (Word.x 0xDFF5))
      (flagMachine.reg (Word.y 0xDFF5)) (flagMachine.rows 0xDFF5)).2 = false := by
    decide +kernel
  obtain ⟨sum, sum_flag, added, sum_eq⟩ := (flags_exact flagMachine asked).1 (by decide)
  obtain ⟨less, less_flag, subtracted, less_eq⟩ :=
    (flags_exact flagMachine (by_hand 0x8FF5)).2.1 (by decide)
  obtain ⟨rest, rest_flag, remained, rest_eq⟩ :=
    (flags_exact flagMachine (by_hand 0x8FF7)).2.2.1 (by decide)
  obtain ⟨twice, twice_flag, doubled, twice_eq⟩ :=
    (flags_exact flagMachine (by_hand 0x8FFE)).2.2.2.1 (by decide)
  obtain ⟨half, half_flag, halved, half_eq⟩ :=
    (flags_exact flagMachine (by_hand 0x8FF6)).2.2.2.2.1 (by decide)
  obtain ⟨-, -, collision, -⟩ :=
    (flags_exact flagMachine (by_hand 0xDFF5)).2.2.2.2.2 (by decide) (by decide)
  obtain ⟨x, y, -⟩ := value 0x8FF4 rfl rfl
  rw [x, y] at sum_eq
  obtain ⟨x, y, -⟩ := value 0x8FF5 rfl rfl
  rw [x, y] at less_eq
  obtain ⟨x, y, -⟩ := value 0x8FF7 rfl rfl
  rw [x, y] at rest_eq
  rw [(value 0x8FFE rfl rfl).2.2] at twice_eq
  rw [(value 0x8FF6 rfl rfl).2.2] at half_eq
  rw [dark] at collision
  have := added.result_lt
  have := subtracted.flag_le
  have := subtracted.result_lt
  have := remained.flag_le
  have := remained.result_lt
  have := doubled.result_lt
  have := halved.flag_le
  refine ⟨asked, by decide, ?_, fun word _ => by_hand word, by decide, ?_, by decide, ?_,
    by decide, ?_, by decide, ?_, by decide, by decide, collision⟩
  · rw [added.flag]
    omega
  · rw [subtracted.flag]
    omega
  · rw [remained.flag]
    omega
  · rw [doubled.flag]
    omega
  · rw [halved.flag]
    omega

end Machine

end Chip8
