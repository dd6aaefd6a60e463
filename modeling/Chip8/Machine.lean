import Chip8.CallStack
import Chip8.Config
import Chip8.Keypad
import Chip8.Memory
import Chip8.Random
import Chip8.Registers
import Chip8.Screen
import Chip8.Timers

/-!
# Machines

The whole state of one machine, and the three ways to start over: fresh, reset, and with a program
in memory. Machines share nothing.

Where the configuration gives no seed, the generator has to come from outside: it is the argument
`drawn` of the functions here, and is not looked at when there is a seed.
-/

namespace Chip8

/-- The state of a machine. -/
structure Machine where
  regs : Registers
  memory : Memory
  /-- The address of the next instruction. -/
  pc : UInt16
  /-- The index register, which points into memory. -/
  index : UInt16
  stack : CallStack
  screen : Screen
  timers : Timers
  keypad : Keypad
  config : Config
  rng : Random
  deriving DecidableEq

namespace Machine

/-- Brings an address within the twelve bits of the address space. -/
def wrap (addr : UInt16) : UInt16 := addr % 0x1000

@[simp] theorem toNat_wrap (addr : UInt16) : (wrap addr).toNat = addr.toNat % 0x1000 := by
  simp [wrap]

/-- A machine that has done nothing yet. -/
def fresh (config : Config) (drawn : Random) : Machine where
  regs := .zero
  memory := .fresh
  pc := Memory.programStart
  index := 0
  stack := .empty
  screen := .blank
  timers := {}
  keypad := .released
  config := config
  rng := match config.seed with
    | some seed => .ofSeed seed
    | none => drawn

/-- Starts over with nothing but the configuration kept. -/
def reset (m : Machine) (drawn : Random) : Machine := fresh m.config drawn

/-- Starts over with a program in memory. A program that does not fit leaves the machine alone. -/
def load (m : Machine) (program : List UInt8) (drawn : Random) : Except Fault Unit × Machine :=
  let start := m.reset drawn
  match start.memory.load program Memory.programStart.toNat with
  | .ok memory => (.ok (), { start with memory })
  | .error fault => (.error fault, m)

/-! ## Parts -/

/-- Goes on at an address. -/
def goto (m : Machine) (addr : UInt16) : Machine := { m with pc := wrap addr }

/-- Moves on by one instruction. -/
def advance (m : Machine) : Machine := m.goto (m.pc + 2)

/-- Moves back by one instruction. -/
def rewind (m : Machine) : Machine := m.goto (m.pc - 2)

/-- Moves on by one instruction if the condition holds. -/
def skipIf (m : Machine) (condition : Bool) : Machine := if condition then m.advance else m

/-- The value of a register. -/
def reg (m : Machine) (r : UInt8) : UInt8 := m.regs.get r

/-- Sets a register. -/
def setReg (m : Machine) (r v : UInt8) : Machine := { m with regs := m.regs.set r v }

/-- Adds to a register, without a flag. -/
def addReg (m : Machine) (r v : UInt8) : Machine := { m with regs := m.regs.add r v }

/-- Sets a register and then the flag, so that the flag register keeps the flag. -/
def setRegFlag (m : Machine) (r v : UInt8) (on : Bool) : Machine :=
  { m with regs := (m.regs.set r v).setFlag on }

/-- One tick of the timers, with the sound level for it. -/
def tickTimers (m : Machine) : Bool × Machine :=
  (m.timers.isBeeping, { m with timers := m.timers.tick.2 })

/-- The inspection form of the program counter. -/
def pcForm (m : Machine) : Form := .tuple "ProgramCounter" [.nat m.pc.toNat]

/-- The inspection form of the index register. -/
def indexForm (m : Machine) : Form := .tuple "IndexRegister" [.nat m.index.toNat]

/-- The state without memory, screen, keys and generator, numbers in hexadecimal. -/
instance : Inspect Machine where
  form m := .record "Emulator"
    [.field "regs" (Inspect.form m.regs),
     .field "pc" (.word (Hex.lower 3 m.pc.toNat)),
     .field "i" (.word (Hex.lower 4 m.index.toNat)),
     .field "dt" (.word (Hex.lower 2 m.timers.delay.toNat)),
     .field "st" (.word (Hex.lower 2 m.timers.sound.toNat)),
     .field "stack" (Inspect.form m.stack)]

end Machine

end Chip8
