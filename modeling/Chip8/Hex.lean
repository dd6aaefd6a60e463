/-!
# Hexadecimal text

Fixed-width hexadecimal digits, lower case for addresses in log records and register dumps, upper
case behind `0x` for the addresses and words named in fault messages. A number with more digits than
the width is written in full.
-/

namespace Chip8.Hex

/-- The digits of `n`, with zeros in front up to `width` of them. -/
def padded (width n : Nat) : List Char :=
  let digits := Nat.toDigits 16 n
  List.replicate (width - digits.length) '0' ++ digits

/-- At least `width` lower-case digits. -/
def lower (width n : Nat) : String := String.ofList (padded width n)

/-- At least `width` upper-case digits behind `0x`. -/
def tagged (width n : Nat) : String := "0x" ++ String.ofList ((padded width n).map Char.toUpper)

/-- A number that needs fewer digits is filled up to the width. -/
theorem le_length_padded (width n : Nat) : width ≤ (padded width n).length := by
  simp only [padded, List.length_append, List.length_replicate]
  omega

end Chip8.Hex
