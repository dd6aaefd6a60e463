/-!
# Numbers on the command line

Decimal digits with an optional sign. A plus sign changes nothing; behind a minus sign, where one is
read at all, only zero is within any range. `number_toDigits` says that a number in range is read
back from its digits.
-/

namespace Chip8.CommandLine

/-- The value of at least one decimal digit and nothing else. -/
def digits (cs : List Char) : Option Nat :=
  if cs ≠ [] ∧ cs.all Char.isDigit then some (Nat.ofDigitChars 10 cs 0) else none

/-- The number written, if it is at most `limit`. -/
def number (limit : Nat) (signed : Bool) : List Char → Option Nat
  | '+' :: cs => (digits cs).filter (· ≤ limit)
  | '-' :: cs => if signed then (digits cs).filter (· = 0) else none
  | cs => (digits cs).filter (· ≤ limit)

theorem digits_toDigits (n : Nat) : digits (Nat.toDigits 10 n) = some n := by
  have all : (Nat.toDigits 10 n).all Char.isDigit = true :=
    List.all_eq_true.mpr fun _ h => Nat.isDigit_of_mem_toDigits (by decide) (by decide) h
  rw [digits, if_pos ⟨Nat.toDigits_ne_nil, all⟩, Nat.ofDigitChars_toDigits (by decide) (by decide)]

/-- A number in range is read back from its decimal digits. -/
theorem number_toDigits {limit n : Nat} (signed : Bool) (h : n ≤ limit) :
    number limit signed (Nat.toDigits 10 n) = some n := by
  have isDigit : ∀ c ∈ Nat.toDigits 10 n, c.isDigit = true :=
    fun _ => Nat.isDigit_of_mem_toDigits (by decide) (by decide)
  unfold number
  split
  · next eq => exact absurd (isDigit '+' (by simp [eq])) (by decide)
  · next eq => exact absurd (isDigit '-' (by simp [eq])) (by decide)
  · simp [digits_toDigits, h]

end Chip8.CommandLine
