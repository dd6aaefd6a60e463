import Chip8.Proofs.Calls
import Chip8.Proofs.Invariant

/-!
# Where a step goes on

* `Skips`, `Branches` — the instructions that do not go on with the next one, and where they go
* `exec_of_condition` — a skip does nothing but skip, or nothing at all
* `pc_of_branch`, `pc_of_no_branch` — the program counter after a step that succeeds
* `pc_after_step` — both, and that of two opposite skips exactly one is taken

The program counter is moved on before the operation is carried out, so an operation that goes on
with the next instruction leaves it alone, a skip moves it on once more, and the one that waits for a
key moves it back.
-/

namespace Chip8

/-! ## Skips -/

namespace Word

/-- The instruction `word` skips the next one: it is a skip and its condition holds. -/
inductive Skips (word : UInt16) (regs : Registers) (keypad : Keypad) : Prop
  | ifByte : Pattern.skipIfByte.fits word → regs.get (x word) = nn word → Skips word regs keypad
  | unlessByte :
    Pattern.skipUnlessByte.fits word → regs.get (x word) ≠ nn word → Skips word regs keypad
  | ifSame :
    Pattern.skipIfSame.fits word → regs.get (x word) = regs.get (y word) → Skips word regs keypad
  | unlessSame :
    Pattern.skipUnlessSame.fits word → regs.get (x word) ≠ regs.get (y word) →
      Skips word regs keypad
  | ifKey :
    Pattern.skipIfKey.fits word → keypad.isPressed (regs.get (x word)) = true →
      Skips word regs keypad
  | unlessKey :
    Pattern.skipUnlessKey.fits word → keypad.isPressed (regs.get (x word)) = false →
      Skips word regs keypad

/-- Two skips with the same operands, the first taken if something is so, the second if not. -/
inductive Opposite (word word' : UInt16) : Prop
  | byte : Pattern.skipIfByte.fits word → Pattern.skipUnlessByte.fits word' →
    x word = x word' → nn word = nn word' → Opposite word word'
  | same : Pattern.skipIfSame.fits word → Pattern.skipUnlessSame.fits word' →
    x word = x word' → y word = y word' → Opposite word word'
  | key : Pattern.skipIfKey.fits word → Pattern.skipUnlessKey.fits word' →
    x word = x word' → Opposite word word'

end Word

/-- The condition of a skip. -/
def Op.condition (op : Op) (regs : Registers) (keypad : Keypad) : Option Bool :=
  match op with
  | .skipIfByte x b => some (regs.get x == b)
  | .skipUnlessByte x b => some (regs.get x != b)
  | .skipIfSame x y => some (regs.get x == regs.get y)
  | .skipUnlessSame x y => some (regs.get x != regs.get y)
  | .skipIfKey x => some (keypad.isPressed (regs.get x))
  | .skipUnlessKey x => some (!keypad.isPressed (regs.get x))
  | _ => none

variable {word word' : UInt16} {regs : Registers} {keypad : Keypad}

theorem Word.skips_iff :
    Word.Skips word regs keypad ↔ (Op.decode word).condition regs keypad = some true := by
  constructor
  · intro skips
    cases skips with
    | ifByte fits met => simp [Op.decode_of_fits_skipIfByte fits, Op.condition, met]
    | unlessByte fits met => simp [Op.decode_of_fits_skipUnlessByte fits, Op.condition, met]
    | ifSame fits met => simp [Op.decode_of_fits_skipIfSame fits, Op.condition, met]
    | unlessSame fits met => simp [Op.decode_of_fits_skipUnlessSame fits, Op.condition, met]
    | ifKey fits met => simp [Op.decode_of_fits_skipIfKey fits, Op.condition, met]
    | unlessKey fits met => simp [Op.decode_of_fits_skipUnlessKey fits, Op.condition, met]
  · intro met
    cases op : Op.decode word with
    | skipIfByte x b =>
      obtain ⟨rfl, rfl⟩ := Op.readFrom_of_decode_eq op
      exact .ifByte (Op.fits_of_decode_eq op rfl) (by simpa [op, Op.condition] using met)
    | skipUnlessByte x b =>
      obtain ⟨rfl, rfl⟩ := Op.readFrom_of_decode_eq op
      exact .unlessByte (Op.fits_of_decode_eq op rfl) (by simpa [op, Op.condition] using met)
    | skipIfSame x y =>
      obtain ⟨rfl, rfl⟩ := Op.readFrom_of_decode_eq op
      exact .ifSame (Op.fits_of_decode_eq op rfl) (by simpa [op, Op.condition] using met)
    | skipUnlessSame x y =>
      obtain ⟨rfl, rfl⟩ := Op.readFrom_of_decode_eq op
      exact .unlessSame (Op.fits_of_decode_eq op rfl) (by simpa [op, Op.condition] using met)
    | skipIfKey x =>
      have operand : x = Word.x word := Op.readFrom_of_decode_eq op
      subst operand
      exact .ifKey (Op.fits_of_decode_eq op rfl) (by simpa [op, Op.condition] using met)
    | skipUnlessKey x =>
      have operand : x = Word.x word := Op.readFrom_of_decode_eq op
      subst operand
      exact .unlessKey (Op.fits_of_decode_eq op rfl) (by simpa [op, Op.condition] using met)
    | _ =>
      rw [op] at met
      cases met

instance : Decidable (Word.Skips word regs keypad) := decidable_of_iff _ Word.skips_iff.symm

theorem Word.Opposite.condition (h : Word.Opposite word word') (regs : Registers)
    (keypad : Keypad) :
    ∃ c, (Op.decode word).condition regs keypad = some c ∧
      (Op.decode word').condition regs keypad = some !c := by
  cases h with
  | byte fits fits' same_x same_nn =>
    rw [Op.decode_of_fits_skipIfByte fits, Op.decode_of_fits_skipUnlessByte fits', ← same_x,
      ← same_nn]
    exact ⟨_, rfl, rfl⟩
  | same fits fits' same_x same_y =>
    rw [Op.decode_of_fits_skipIfSame fits, Op.decode_of_fits_skipUnlessSame fits', ← same_x,
      ← same_y]
    exact ⟨_, rfl, rfl⟩
  | key fits fits' same_x =>
    rw [Op.decode_of_fits_skipIfKey fits, Op.decode_of_fits_skipUnlessKey fits', ← same_x]
    exact ⟨_, rfl, rfl⟩

namespace Machine

variable {m : Machine}

/-- A skip does nothing but skip. -/
theorem exec_of_condition {op : Op} {c : Bool} (h : op.condition m.regs m.keypad = some c) :
    exec op m = done (m.skipIf c) := by
  cases op with
  | skipIfByte | skipUnlessByte | skipIfSame | skipUnlessSame | skipIfKey | skipUnlessKey =>
    cases h
    rfl
  | _ => cases h

theorem fault_of_condition {op : Op} {c : Bool} (h : op.condition regs keypad = some c)
    (index : UInt16) (depth : Nat) : op.fault index depth = none := by
  cases op with
  | skipIfByte | skipUnlessByte | skipIfSame | skipUnlessSame | skipIfKey | skipUnlessKey => rfl
  | _ => cases h

theorem step_of_condition (inside : m.pc.toNat + 1 < Memory.size) {c : Bool}
    (h : m.nextOp.condition m.regs m.keypad = some c) : m.step = done (m.advance.skipIf c) := by
  rw [step_of_no_fault inside (fault_of_condition h _ _),
    exec_of_condition (m := m.advance) h]
  rfl

theorem toNat_pc_skipped (m : Machine) :
    m.advance.advance.pc.toNat = (m.pc.toNat + 4) % 4096 := by
  rw [toNat_advance_pc, toNat_advance_pc]
  omega

/-! ## Other branches -/

/-- The instruction `word` does not go on with the next one but at the address `a`. -/
inductive Branches (m : Machine) (word : UInt16) : Nat → Prop
  | jump : Pattern.jump.fits word → Branches m word (Word.nnn word).toNat
  | call : Pattern.call.fits word → Branches m word (Word.nnn word).toNat
  | jumpOffset : Pattern.jumpOffset.fits word →
    Branches m word (((Word.nnn word).toNat + (m.reg 0).toNat) % 4096)
  | ret {addr : UInt16} {rest : List UInt16} :
    Pattern.ret.fits word → m.stack.frames = addr :: rest → Branches m word addr.toNat
  | awaitKey : Pattern.awaitKey.fits word → (∀ key, m.keypad.isPressed key = false) →
    Branches m word m.pc.toNat
  | skip : Word.Skips word m.regs m.keypad → Branches m word ((m.pc.toNat + 4) % 4096)

theorem toNat_rewind_advance (h : m.pc.toNat ≤ 0xFFE) : m.advance.rewind.pc.toNat = m.pc.toNat := by
  have back : m.advance.rewind.pc = wrap (m.advance.pc - 2) := rfl
  have two : (2 : UInt16).toNat = 2 := rfl
  rw [back, toNat_wrap, UInt16.toNat_sub, toNat_advance_pc, two]
  omega

section Steps

variable (inside : m.pc.toNat + 1 < Memory.size) (ok : m.step.1 = .ok ())
include inside ok

theorem step_of_ok : m.step = done (exec m.nextOp m.advance).2 :=
  step_of_no_fault inside ((step_eq_ok_iff inside).mp ok)

theorem pc_of_branch (valid : m.Valid) {a : Nat} (branch : m.Branches m.word a) :
    m.step.2.pc.toNat = a := by
  have e := step_of_ok inside ok
  cases branch with
  | jump fits =>
    have op : m.nextOp = .jump (Word.nnn m.word) := Op.decode_of_fits rfl fits rfl
    rw [e, op]
    exact congrArg UInt16.toNat (wrap_nnn m.word)
  | call fits =>
    have op : m.nextOp = .call (Word.nnn m.word) := Op.decode_of_fits_call fits
    have no_fault := (step_eq_ok_iff inside).mp ok
    rw [op] at no_fault
    have room : m.stack.depth < CallStack.depthLimit := by
      refine Nat.lt_of_not_le fun full => ?_
      rw [Op.fault_eq_overflow_iff.mpr ⟨⟨_, rfl⟩, full⟩] at no_fault
      cases no_fault
    rw [step_of_call inside fits room]
    exact congrArg UInt16.toNat (wrap_nnn m.word)
  | jumpOffset fits =>
    have op : m.nextOp = .jumpOffset (Word.nnn m.word) := Op.decode_of_fits rfl fits rfl
    -- a twelve-bit address and a byte do not add up to more than sixteen bits
    have := (m.reg 0).toNat_lt
    have := Word.toNat_nnn m.word
    rw [e, op]
    show (wrap (Word.nnn m.word + (m.reg 0).toUInt16)).toNat = _
    rw [toNat_wrap, UInt16.toNat_add, UInt8.toNat_toUInt16]
    omega
  | @ret addr rest fits frames =>
    have op : m.nextOp = .ret := Op.decode_of_fits_ret fits
    have popped : m.advance.stack.pop = .ok (addr, ⟨rest⟩) := by
      show m.stack.pop = _
      rw [CallStack.pop, frames]
    have le : addr.toNat ≤ 0xFFF := valid.frames_le addr (by rw [frames]; exact List.mem_cons_self)
    rw [e, op]
    simp only [exec, popped]
    show (wrap addr).toNat = addr.toNat
    rw [toNat_wrap]
    omega
  | awaitKey fits up =>
    have op : m.nextOp = .awaitKey (Word.x m.word) := Op.decode_of_fits rfl fits rfl
    have none_down : m.advance.keypad.firstPressed = none := m.keypad.firstPressed_eq_none_iff.mpr up
    rw [e, op]
    simp only [exec, none_down]
    exact toNat_rewind_advance (Nat.le_of_lt_succ (Nat.lt_of_succ_lt_succ inside))
  | skip skips =>
    rw [step_of_condition inside (Word.skips_iff.mp skips)]
    exact m.toNat_pc_skipped

/-- Every other instruction leaves the program counter behind itself. -/
theorem pc_of_no_branch (straight : ∀ a, ¬ m.Branches m.word a) :
    m.step.2.pc = m.advance.pc := by
  rw [step_of_ok inside ok]
  show (exec m.nextOp m.advance).2.pc = m.advance.pc
  cases met : m.nextOp.condition m.regs m.keypad with
  | some c =>
    rw [exec_of_condition (m := m.advance) met]
    cases c with
    | false => rfl
    | true => exact absurd (.skip (Word.skips_iff.mpr met)) (straight _)
  | none =>
    cases op : m.nextOp with
    | jump addr => exact absurd (.jump (Op.fits_of_decode_eq op rfl)) (straight _)
    | call addr => exact absurd (.call (Op.fits_of_decode_eq op rfl)) (straight _)
    | jumpOffset addr => exact absurd (.jumpOffset (Op.fits_of_decode_eq op rfl)) (straight _)
    | ret =>
      cases frames : m.stack.frames with
      | nil =>
        have empty : m.advance.stack.pop = .error .stackUnderflow := by
          show m.stack.pop = _
          rw [CallStack.pop, frames]
        simp only [exec, empty]
        rfl
      | cons addr rest =>
        exact absurd (.ret (Op.fits_of_decode_eq op rfl) frames) (straight _)
    | awaitKey x =>
      cases first : m.advance.keypad.firstPressed with
      | some key =>
        simp only [exec, first]
        rfl
      | none =>
        have up := m.keypad.firstPressed_eq_none_iff.mp first
        exact absurd (.awaitKey (Op.fits_of_decode_eq op rfl) up) (straight _)
    | skipIfByte | skipUnlessByte | skipIfSame | skipUnlessSame | skipIfKey | skipUnlessKey =>
      rw [op] at met
      cases met
    | _ =>
      simp only [exec]
      repeat' split
      all_goals rfl

end Steps

/-- Of two opposite skips one is taken, the other not. -/
theorem step_of_opposite {s : Machine} (inside : m.pc.toNat + 1 < Memory.size) (pc : s.pc = m.pc)
    (regs : s.regs = m.regs) (keypad : s.keypad = m.keypad)
    (opposite : Word.Opposite m.word s.word) :
    m.step = done m.advance.advance ∧ s.step = done s.advance ∨
      m.step = done m.advance ∧ s.step = done s.advance.advance := by
  obtain ⟨c, met, met'⟩ := opposite.condition m.regs m.keypad
  rw [← regs, ← keypad] at met'
  have e := step_of_condition inside met
  have e' := step_of_condition (m := s) (by rw [pc]; exact inside) met'
  cases c with
  | false => exact Or.inr ⟨e, e'⟩
  | true => exact Or.inl ⟨e, e'⟩

/-- A skip on a key sees nothing of the registers but which key `VX` names. -/
theorem step_of_same_key (inside : m.pc.toNat + 1 < Memory.size) {regs : Registers}
    (fits : Pattern.skipIfKey.fits m.word ∨ Pattern.skipUnlessKey.fits m.word)
    (same : lowNibble (regs.get (Word.x m.word)) = lowNibble (m.reg (Word.x m.word))) :
    { m with regs }.step = (m.step.1, { m.step.2 with regs }) := by
  have pressed : m.keypad.isPressed (regs.get (Word.x m.word)) =
      m.keypad.isPressed (m.reg (Word.x m.word)) := by
    rw [Keypad.isPressed, same]
    rfl
  obtain ⟨c, met, met'⟩ : ∃ c, m.nextOp.condition m.regs m.keypad = some c ∧
      m.nextOp.condition regs m.keypad = some c := by
    unfold nextOp
    rcases fits with fits | fits
    · rw [Op.decode_of_fits_skipIfKey fits]
      exact ⟨_, rfl, congrArg some pressed⟩
    · rw [Op.decode_of_fits_skipUnlessKey fits]
      exact ⟨_, rfl, congrArg (fun down => some !down) pressed⟩
  rw [step_of_condition inside met, step_of_condition (m := { m with regs }) inside met']
  cases c <;> rfl

/--
**Where a step goes on.**

Take a machine with a whole word at its program counter `a`, at an even or an odd address. If it is
valid and the step succeeds, the step goes on at `NNN` for `1NNN` and `2NNN`, at the exact sum of
`NNN` and `V0` within twelve bits for `BNNN`, at the latest open call for `00EE`, at `a` again for
`FX0A` with no key down, four further for a skip whose condition holds, and two further in all other
cases.

Whatever the registers and keys, of two opposite skips exactly one is taken. The two skips on a key
see of the registers only the low four bits of `VX`: with any other registers that have the same
there, the step does the same.
-/
theorem pc_after_step (m : Machine) (inside : m.pc.toNat ≤ 0xFFE) :
    (m.Valid → m.step.1 = .ok () →
      (∀ a, m.Branches m.word a → m.step.2.pc.toNat = a) ∧
      ((∀ a, ¬ m.Branches m.word a) → m.step.2.pc.toNat = (m.pc.toNat + 2) % 4096)) ∧
    (∀ s : Machine, s.pc = m.pc → s.regs = m.regs → s.keypad = m.keypad →
      Word.Opposite m.word s.word →
      m.step.1 = .ok () ∧ s.step.1 = .ok () ∧
      (m.step.2.pc.toNat = (m.pc.toNat + 4) % 4096 ∧
          s.step.2.pc.toNat = (m.pc.toNat + 2) % 4096 ∨
        m.step.2.pc.toNat = (m.pc.toNat + 2) % 4096 ∧
          s.step.2.pc.toNat = (m.pc.toNat + 4) % 4096)) ∧
    ∀ regs : Registers, Pattern.skipIfKey.fits m.word ∨ Pattern.skipUnlessKey.fits m.word →
      (regs.get (Word.x m.word)).toNat % 16 = (m.reg (Word.x m.word)).toNat % 16 →
      { m with regs }.step = (m.step.1, { m.step.2 with regs }) := by
  have readable : m.pc.toNat + 1 < Memory.size := Nat.succ_lt_succ (Nat.lt_succ_of_le inside)
  refine ⟨?_, ?_, ?_⟩
  · intro valid ok
    constructor
    · intro a branch
      exact pc_of_branch readable ok valid branch
    · intro straight
      rw [pc_of_no_branch readable ok straight, toNat_advance_pc]
  · intro s pc regs keypad opposite
    have two := m.toNat_advance_pc
    have two' := s.toNat_advance_pc
    have four := m.toNat_pc_skipped
    have four' := s.toNat_pc_skipped
    rw [pc] at two' four'
    rcases step_of_opposite readable pc regs keypad opposite with ⟨e, e'⟩ | ⟨e, e'⟩
    · rw [e, e']
      exact ⟨rfl, rfl, Or.inl ⟨four, two'⟩⟩
    · rw [e, e']
      exact ⟨rfl, rfl, Or.inr ⟨two, four'⟩⟩
  · intro regs fits same
    exact step_of_same_key readable fits (Fin.ext same)

/-- A machine with one instruction in the last two bytes of memory, about to run it, with key `5`
down and named by `VA`. -/
def atTheEnd (hi lo : UInt8) : Machine :=
  { fresh {} (.ofSeed 0) with
    memory := Memory.fresh.putAll 0xFFE [hi, lo]
    pc := 0xFFE
    regs := Registers.zero.set 0xA 0x35
    keypad := Keypad.released.press 5 }

theorem word_atTheEnd (hi lo : UInt8) : (atTheEnd hi lo).word = Word.ofBytes hi lo := by
  have bytes : ∀ k < 2, (atTheEnd hi lo).memory.byte (0xFFE + k) = [hi, lo].getD k 0 :=
    fun k hk => Memory.byte_putAll_of_lt _ (Nat.le_refl 0x1000) hk
  show Word.ofBytes ((atTheEnd hi lo).memory.byte (0xFFE + 0))
    ((atTheEnd hi lo).memory.byte (0xFFE + 1)) = _
  rw [bytes 0 (by decide), bytes 1 (by decide)]
  rfl

/-- At the end of memory a step goes on at its start, or behind that where it skips. -/
theorem pc_after_step_around_the_end :
    (atTheEnd 0xEA 0x9E).pc.toNat = 0xFFE ∧
    (atTheEnd 0xEA 0x9E).step.2.pc.toNat = 2 ∧
    (atTheEnd 0x6A 0x05).step.2.pc.toNat = 0 ∧
    (atTheEnd 0xEA 0xA1).step.2.pc.toNat = 0 ∧
    ({ atTheEnd 0xEA 0x9E with regs := Registers.zero.set 0xA 0x05 } : Machine).step =
      ((atTheEnd 0xEA 0x9E).step.1,
        { (atTheEnd 0xEA 0x9E).step.2 with regs := Registers.zero.set 0xA 0x05 }) := by
  have valid : ∀ hi lo, (atTheEnd hi lo).Valid := fun hi lo =>
    ⟨show (0xFFE : UInt16).toNat ≤ 0xFFF by decide, Nat.zero_le 16, fun _ h => nomatch h⟩
  have ok_skip : (atTheEnd 0xEA 0x9E).step.1 = .ok () := by
    rw [step_eq_ok_iff (by decide), nextOp, word_atTheEnd]
    decide
  have ok_set : (atTheEnd 0x6A 0x05).step.1 = .ok () := by
    rw [step_eq_ok_iff (by decide), nextOp, word_atTheEnd]
    decide
  have skips : (atTheEnd 0xEA 0x9E).Branches (atTheEnd 0xEA 0x9E).word 2 := by
    rw [word_atTheEnd]
    exact .skip (by decide)
  have straight : ∀ a, ¬ (atTheEnd 0x6A 0x05).Branches (atTheEnd 0x6A 0x05).word a := by
    intro a branch
    rw [word_atTheEnd] at branch
    cases branch with
    | jump fits | call fits | jumpOffset fits | ret fits | awaitKey fits =>
      exact absurd fits (by decide)
    | skip skips => exact absurd skips (by decide)
  have opposite : Word.Opposite (atTheEnd 0xEA 0x9E).word (atTheEnd 0xEA 0xA1).word := by
    rw [word_atTheEnd, word_atTheEnd]
    exact .key (by decide) (by decide) (by decide)
  obtain ⟨skipping, pairs, low⟩ := pc_after_step (atTheEnd 0xEA 0x9E) (by decide)
  have skipped := (skipping (valid _ _) ok_skip).1 2 skips
  have passed := ((pc_after_step (atTheEnd 0x6A 0x05) (by decide)).1 (valid _ _) ok_set).2 straight
  obtain ⟨-, -, pair⟩ := pairs (atTheEnd 0xEA 0xA1) rfl rfl rfl opposite
  have renamed := low (Registers.zero.set 0xA 0x05)
    (Or.inl (by rw [word_atTheEnd]; decide)) (by rw [word_atTheEnd]; decide)
  refine ⟨by decide, skipped, passed.trans (by decide), ?_, renamed⟩
  rcases pair with ⟨-, second⟩ | ⟨first, -⟩
  · exact second.trans (by decide)
  · exact absurd (skipped.symm.trans first) (by decide)

end Machine

end Chip8
