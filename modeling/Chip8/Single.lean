/-!
# Single-precision numbers

Numbers in the 32-bit binary format, read off their bits: a sign bit, eight bits of exponent and 23
of fraction. Conversions work on the exact value `± mantissa * 2 ^ exponent`.
-/

namespace Chip8

/-- What the bits of a number stand for. -/
inductive Single where
  /-- The number `mantissa * 2 ^ exponent`, or its negative. -/
  | finite (negative : Bool) (mantissa : Nat) (exponent : Int)
  /-- Beyond every number. -/
  | infinite (negative : Bool)
  /-- No number; the fraction bits carry a payload. -/
  | nan (negative : Bool) (payload : Nat)
  deriving DecidableEq

namespace Single

-- Powers here are the built-in ones of the natural numbers.
local instance (priority := 2000) natPow : Pow Nat Nat := instPowNat

/-- Reads the bits. -/
def ofBits (bits : UInt32) : Single :=
  let negative := bits.toNat / 2 ^ (31 : Nat) == 1
  let exponent : Nat := bits.toNat / 2 ^ (23 : Nat) % 2 ^ (8 : Nat)
  let fraction : Nat := bits.toNat % 2 ^ (23 : Nat)
  if exponent = 255 then if fraction = 0 then .infinite negative else .nan negative fraction
  else if exponent = 0 then .finite negative fraction (-149)
  else .finite negative (2 ^ (23 : Nat) + fraction) (exponent - 150)

/-- `mantissa * 2 ^ exponent` without what lies behind the point. -/
def wholePart (mantissa : Nat) (exponent : Int) : Nat :=
  if 0 ≤ exponent then mantissa * 2 ^ exponent.toNat else mantissa / 2 ^ (-exponent).toNat

/-- The number times `2 ^ (bits - 1)` as a signed whole number of `bits` bits: what lies behind the
point is dropped, what does not fit becomes the nearest that fits, and no number becomes zero. -/
def toSigned (bits : Nat) : Single → Int
  | .finite negative mantissa exponent =>
    let whole := wholePart mantissa (exponent + (bits - 1 : Nat))
    if negative then -(min whole (2 ^ (bits - 1)) : Nat) else (min whole (2 ^ (bits - 1) - 1) : Nat)
  | .infinite negative => if negative then -(2 ^ (bits - 1) : Nat) else (2 ^ (bits - 1) - 1 : Nat)
  | .nan _ _ => 0

/-- The signed whole number moved up by `2 ^ (bits - 1)`, so that silence lies in the middle. -/
def toUnsigned (bits : Nat) (single : Single) : Nat :=
  (single.toSigned bits + (2 ^ (bits - 1) : Nat)).toNat

/-- The same number in the 64-bit format, as bits: 11 bits of exponent and 52 of fraction. A payload
moves to the high end of the fraction, and is marked as having been passed on. -/
def toDoubleBits : Single → Nat
  | .finite negative mantissa exponent =>
    let sign := if negative then 2 ^ (63 : Nat) else 0
    if mantissa = 0 then sign
    else
      let top := mantissa.log2
      sign + (exponent + top + 1023).toNat * 2 ^ (52 : Nat) + (mantissa - 2 ^ top) * 2 ^ (52 - top)
  | .infinite negative => (if negative then 2 ^ (63 : Nat) else 0) + 2047 * 2 ^ (52 : Nat)
  | .nan negative payload =>
    (if negative then 2 ^ (63 : Nat) else 0) + 2047 * 2 ^ (52 : Nat) + 2 ^ (51 : Nat) +
      payload % 2 ^ (22 : Nat) * 2 ^ (29 : Nat)

/-- A converted number fits into its bits. -/
theorem toSigned_bounds (bits : Nat) (single : Single) :
    -(2 ^ (bits - 1) : Nat) ≤ single.toSigned bits ∧
      single.toSigned bits < (2 ^ (bits - 1) : Nat) := by
  have pos := Nat.two_pow_pos (bits - 1)
  unfold toSigned
  split
  · dsimp only
    split <;> omega
  · split <;> omega
  · omega

end Single

end Chip8
