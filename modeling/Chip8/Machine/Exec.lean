import Chip8.Machine
import Chip8.Op.Encoding

/-!
# Execution

`exec` carries out one operation, `fetch` reads the next one, and `step` does both. Each gives the
machine it leaves behind together with the outcome, also when it fails. Operations that touch memory
check the whole range first, so a failed one has changed nothing.

A failed step puts the program counter back, unless the word was no instruction: such a word is
passed over.
-/

namespace Chip8.Machine

/-- Done, with the machine left behind. -/
def done (m : Machine) : Except Fault Unit × Machine := (.ok (), m)

/-- Failed, with the machine left behind. -/
def failed (m : Machine) (fault : Fault) : Except Fault Unit × Machine := (.error fault, m)

/-- The value that a shift starts from. -/
def shiftSource (m : Machine) (x y : UInt8) : UInt8 :=
  if m.config.dialect.shiftsVY then m.reg y else m.reg x

/-- The index after `count` bytes were stored or loaded. -/
def indexAfter (m : Machine) (count : Nat) : UInt16 :=
  if m.config.dialect.advancesIndex then m.index + .ofNat count else m.index

/-- The three decimal digits of a byte, hundreds first. -/
def decimalDigits (v : UInt8) : List UInt8 := [v / 100, v / 10 % 10, v % 10]

/-- Stores bytes at the index. -/
def storeAtIndex (m : Machine) (bytes : List UInt8) : Except Fault Memory :=
  m.memory.load bytes m.index.toNat

/-- Carries out an operation. The program counter already stands behind it. -/
def exec (op : Op) (m : Machine) : Except Fault Unit × Machine :=
  match op with
  | .clear => done { m with screen := .blank }
  | .ret =>
    match m.stack.pop with
    | .ok (addr, stack) => done { m with stack, pc := wrap addr }
    | .error fault => failed m fault
  | .jump addr => done (m.goto addr)
  | .call addr =>
    -- the program counter is already the return address
    match m.stack.push m.pc with
    | .ok stack => done { m with stack, pc := wrap addr }
    | .error fault => failed m fault
  | .skipIfByte x b => done (m.skipIf (m.reg x == b))
  | .skipUnlessByte x b => done (m.skipIf (m.reg x != b))
  | .skipIfSame x y => done (m.skipIf (m.reg x == m.reg y))
  | .skipUnlessSame x y => done (m.skipIf (m.reg x != m.reg y))
  | .setByte x b => done (m.setReg x b)
  | .addByte x b => done (m.addReg x b)
  | .copy x y => done (m.setReg x (m.reg y))
  | .or x y => done (m.setReg x (m.reg x ||| m.reg y))
  | .and x y => done (m.setReg x (m.reg x &&& m.reg y))
  | .xor x y => done (m.setReg x (m.reg x ^^^ m.reg y))
  | .add x y =>
    let a := m.reg x
    let b := m.reg y
    done (m.setRegFlag x (a + b) (decide (256 ≤ a.toNat + b.toNat)))
  | .sub x y =>
    let a := m.reg x
    let b := m.reg y
    done (m.setRegFlag x (a - b) (decide (b ≤ a)))
  | .subFrom x y =>
    let a := m.reg x
    let b := m.reg y
    done (m.setRegFlag x (b - a) (decide (a ≤ b)))
  | .shiftLeft x y =>
    let v := m.shiftSource x y
    done (m.setRegFlag x (v <<< 1) (v >>> 7 == 1))
  | .shiftRight x y =>
    let v := m.shiftSource x y
    done (m.setRegFlag x (v >>> 1) (v &&& 1 == 1))
  | .setIndex addr => done { m with index := addr }
  | .jumpOffset addr => done (m.goto (addr + (m.reg 0).toUInt16))
  | .random x mask =>
    let (b, rng) := m.rng.next
    done { m with regs := m.regs.set x (mask &&& b), rng }
  | .draw x y n =>
    match m.memory.slice m.index n.toNat with
    | .ok bytes =>
      -- the corner is read before the flag is set, as `VF` may give it
      let (screen, collision) := m.screen.paint (m.reg x) (m.reg y) bytes
      done { m with screen, regs := m.regs.setFlag collision }
    | .error fault => failed m fault
  | .skipIfKey x => done (m.skipIf (m.keypad.isPressed (m.reg x)))
  | .skipUnlessKey x => done (m.skipIf (!m.keypad.isPressed (m.reg x)))
  | .getDelay x => done (m.setReg x m.timers.delay)
  | .awaitKey x =>
    match m.keypad.firstPressed with
    | some key => done (m.setReg x key)
    -- run again at the next step
    | none => done m.rewind
  | .setDelay x => done { m with timers := { m.timers with delay := m.reg x } }
  | .setSound x => done { m with timers := { m.timers with sound := m.reg x } }
  | .addIndex x => done { m with index := m.index + (m.reg x).toUInt16 }
  | .pointGlyph x => done { m with index := Memory.glyphAddr (m.reg x) }
  | .storeDecimal x =>
    match m.storeAtIndex (decimalDigits (m.reg x)) with
    | .ok memory => done { m with memory }
    | .error fault => failed m fault
  | .storeRegisters x =>
    match m.storeAtIndex (m.regs.take (x.toNat + 1)) with
    | .ok memory => done { m with memory, index := m.indexAfter (x.toNat + 1) }
    | .error fault => failed m fault
  | .loadRegisters x =>
    match m.memory.slice m.index (x.toNat + 1) with
    | .ok bytes =>
      done { m with regs := m.regs.setAll 0 bytes, index := m.indexAfter (x.toNat + 1) }
    | .error fault => failed m fault
  | .unknown word => failed m (.unknownOpcode word)

/-- Reads the next operation and moves on past it. -/
def fetch (m : Machine) : Except Fault Op × Machine :=
  match m.memory.readWord m.pc with
  | .ok word => (.ok (.decode word), m.advance)
  | .error fault => (.error fault, m)

/-- The machine to go on with after a fault in the instruction at `pc`. -/
def recover (m : Machine) (pc : UInt16) : Fault → Machine
  | .unknownOpcode _ => m
  | _ => { m with pc }

/-- Reads the next operation and carries it out. -/
def step (m : Machine) : Except Fault Unit × Machine :=
  match m.fetch with
  | (.error fault, m') => failed m' fault
  | (.ok op, m') =>
    match exec op m' with
    | (.ok (), m'') => done m''
    | (.error fault, m'') => failed (m''.recover m.pc fault) fault

end Chip8.Machine
