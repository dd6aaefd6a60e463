import Chip8.Form
import Chip8.Hex

/-!
# Faults

The ways an operation on the machine can fail. Only the two memory faults are fatal: they stop the
clocks, all others are reported and execution goes on.
-/

namespace Chip8

/-- Why an operation failed. -/
inductive Fault where
  /-- `len` bytes from `offset` on reach past the end of memory. -/
  | outOfBounds (offset len : Nat)
  /-- A single address outside memory. -/
  | invalidAddress (addr : UInt16)
  /-- A word that is no instruction. -/
  | unknownOpcode (word : UInt16)
  /-- A call with every return slot taken. -/
  | stackOverflow
  /-- A return with no call open. -/
  | stackUnderflow
  deriving DecidableEq

namespace Fault

/-- The two memory faults halt the machine. -/
def isFatal : Fault → Bool
  | .outOfBounds _ _ | .invalidAddress _ => true
  | .unknownOpcode _ | .stackOverflow | .stackUnderflow => false

/-- The fault in words. An offset shows at least three digits, a single address or word four. -/
def message : Fault → String
  | .outOfBounds offset len =>
    toString len ++ " bytes at " ++ Hex.tagged 3 offset ++ " do not fit in memory"
  | .invalidAddress addr => "invalid memory address " ++ Hex.tagged 4 addr.toNat
  | .unknownOpcode word => "unknown opcode " ++ Hex.tagged 4 word.toNat
  | .stackOverflow => "call stack overflow"
  | .stackUnderflow => "return with empty call stack"

instance : Inspect Fault where
  form
    | .outOfBounds offset len =>
      .record "OutOfBounds" [.field "offset" (.nat offset), .field "len" (.nat len)]
    | .invalidAddress addr => .tuple "InvalidAddress" [.nat addr.toNat]
    | .unknownOpcode word => .tuple "UnknownOpcode" [.nat word.toNat]
    | .stackOverflow => .word "StackOverflow"
    | .stackUnderflow => .word "StackUnderflow"

end Fault

end Chip8
