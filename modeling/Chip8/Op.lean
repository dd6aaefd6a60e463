import Chip8.Form

/-!
# Operations

What one instruction word asks for. Register numbers, keys and row counts are bytes, addresses are
words; a decoded operation has them within four and twelve bits, an operation put together by hand
may not.
-/

namespace Chip8

/-- An operation and its operands. -/
inductive Op where
  /-- Turns every cell of the screen off. -/
  | clear
  /-- Returns from the latest call. -/
  | ret
  /-- Goes on at `addr`. -/
  | jump (addr : UInt16)
  /-- Calls the routine at `addr`. -/
  | call (addr : UInt16)
  /-- Skips the next instruction if `VX` is `b`. -/
  | skipIfByte (x b : UInt8)
  /-- Skips the next instruction unless `VX` is `b`. -/
  | skipUnlessByte (x b : UInt8)
  /-- Skips the next instruction if `VX` is `VY`. -/
  | skipIfSame (x y : UInt8)
  /-- Skips the next instruction unless `VX` is `VY`. -/
  | skipUnlessSame (x y : UInt8)
  /-- Sets `VX` to `b`. -/
  | setByte (x b : UInt8)
  /-- Adds `b` to `VX`, without a flag. -/
  | addByte (x b : UInt8)
  /-- Sets `VX` to `VY`. -/
  | copy (x y : UInt8)
  /-- Sets the bits of `VY` in `VX`. -/
  | or (x y : UInt8)
  /-- Keeps only the bits of `VY` in `VX`. -/
  | and (x y : UInt8)
  /-- Flips the bits of `VY` in `VX`. -/
  | xor (x y : UInt8)
  /-- Adds `VY` to `VX`; the flag is the carry. -/
  | add (x y : UInt8)
  /-- Takes `VY` from `VX`; the flag is set unless it borrows. -/
  | sub (x y : UInt8)
  /-- Sets `VX` to `VY` less `VX`; the flag is set unless it borrows. -/
  | subFrom (x y : UInt8)
  /-- Shifts left by one into `VX`; the flag is the bit shifted out. -/
  | shiftLeft (x y : UInt8)
  /-- Shifts right by one into `VX`; the flag is the bit shifted out. -/
  | shiftRight (x y : UInt8)
  /-- Sets the index. -/
  | setIndex (addr : UInt16)
  /-- Goes on at `addr` plus `V0`. -/
  | jumpOffset (addr : UInt16)
  /-- Sets `VX` to a random byte under the mask `mask`. -/
  | random (x mask : UInt8)
  /-- Paints the `n` rows at the index at column `VX` and row `VY`; the flag tells a collision. -/
  | draw (x y n : UInt8)
  /-- Skips the next instruction if the key `VX` is down. -/
  | skipIfKey (x : UInt8)
  /-- Skips the next instruction unless the key `VX` is down. -/
  | skipUnlessKey (x : UInt8)
  /-- Sets `VX` to the delay countdown. -/
  | getDelay (x : UInt8)
  /-- Sets `VX` to the lowest key that is down, and runs again while none is. -/
  | awaitKey (x : UInt8)
  /-- Starts the delay countdown at `VX`. -/
  | setDelay (x : UInt8)
  /-- Starts the sound countdown at `VX`. -/
  | setSound (x : UInt8)
  /-- Adds `VX` to the index. -/
  | addIndex (x : UInt8)
  /-- Points the index at the picture of the digit `VX`. -/
  | pointGlyph (x : UInt8)
  /-- Writes the three decimal digits of `VX` at the index. -/
  | storeDecimal (x : UInt8)
  /-- Writes `V0` to `VX` at the index. -/
  | storeRegisters (x : UInt8)
  /-- Reads `V0` to `VX` at the index. -/
  | loadRegisters (x : UInt8)
  /-- A word that is no instruction. -/
  | unknown (word : UInt16)
  deriving DecidableEq

namespace Op

/-- The name an operation is inspected under. -/
def title : Op → String
  | .clear => "ClearScreen"
  | .ret => "PopSubroutine"
  | .jump _ => "Jump"
  | .call _ => "PushSubroutine"
  | .skipIfByte _ _ => "SkipEqualConstant"
  | .skipUnlessByte _ _ => "SkipNotEqualConstant"
  | .skipIfSame _ _ => "SkipEqualRegister"
  | .skipUnlessSame _ _ => "SkipNotEqualRegister"
  | .setByte _ _ => "SetRegister"
  | .addByte _ _ => "AddToRegister"
  | .copy _ _ => "CopyRegister"
  | .or _ _ => "Or"
  | .and _ _ => "And"
  | .xor _ _ => "XOr"
  | .add _ _ => "Add"
  | .sub _ _ => "SubtractForward"
  | .subFrom _ _ => "SubtractBackward"
  | .shiftLeft _ _ => "LeftShift"
  | .shiftRight _ _ => "RightShift"
  | .setIndex _ => "SetIndexRegister"
  | .jumpOffset _ => "JumpWithOffset"
  | .random _ _ => "Random"
  | .draw _ _ _ => "Display"
  | .skipIfKey _ => "SkipIfPressed"
  | .skipUnlessKey _ => "SkipIfNotPressed"
  | .getDelay _ => "CopyDelayToRegister"
  | .awaitKey _ => "GetKey"
  | .setDelay _ => "CopyRegisterToDelay"
  | .setSound _ => "CopyRegisterToSound"
  | .addIndex _ => "AddToIndex"
  | .pointGlyph _ => "PointChar"
  | .storeDecimal _ => "ToDecimal"
  | .storeRegisters _ => "StoreRegisterToMemory"
  | .loadRegisters _ => "LoadRegisterFromMemory"
  | .unknown _ => "Unknown"

/-- The operands in order. -/
def operands : Op → List Nat
  | .clear | .ret => []
  | .jump a | .call a | .setIndex a | .jumpOffset a | .unknown a => [a.toNat]
  | .skipIfByte a b | .skipUnlessByte a b | .skipIfSame a b | .skipUnlessSame a b
  | .setByte a b | .addByte a b | .copy a b | .or a b | .and a b | .xor a b | .add a b
  | .sub a b | .subFrom a b | .shiftLeft a b | .shiftRight a b | .random a b =>
    [a.toNat, b.toNat]
  | .draw x y n => [x.toNat, y.toNat, n.toNat]
  | .skipIfKey x | .skipUnlessKey x | .getDelay x | .awaitKey x | .setDelay x | .setSound x
  | .addIndex x | .pointGlyph x | .storeDecimal x | .storeRegisters x | .loadRegisters x =>
    [x.toNat]

instance : Inspect Op where
  form op := match op.operands with
    | [] => .word op.title
    | operands => .tuple op.title (operands.map .nat)

end Op

end Chip8
