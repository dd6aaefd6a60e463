/-!
# Binary fractions of fixed precision

A `BinaryFraction` is a natural number over a power of two. `nearest` gives the one with 53 binary
digits that is nearest to a quotient, as double-precision division does, and `round` and `roundUp`
bring one back to a whole number of parts. All of it is exact arithmetic on natural numbers.
-/

namespace Chip8

/-- The number `mantissa / 2 ^ scale`. -/
structure BinaryFraction where
  mantissa : Nat
  scale : Nat
  deriving DecidableEq

namespace BinaryFraction

-- Powers here are the built-in ones of the natural numbers.
local instance (priority := 2000) natPow : Pow Nat Nat := instPowNat

/-- The whole number nearest to `a / b`, the even one of two. -/
def nearestEven (a b : Nat) : Nat :=
  let q := a / b
  let r := a % b
  if 2 * r < b then q else if b < 2 * r then q + 1 else q + q % 2

/-- The number with 53 binary digits nearest to `a / b`, for a quotient below `2 ^ 53`. -/
def nearest (a b : Nat) : BinaryFraction :=
  let scale := 53 + b.log2 - a.log2
  let scale := if a * 2 ^ scale / b < 2 ^ (53 : Nat) then scale else scale - 1
  { mantissa := nearestEven (a * 2 ^ scale) b, scale }

/-- The number of `1 / parts` nearest to the fraction, the even one of two. -/
def round (f : BinaryFraction) (parts : Nat) : Nat := nearestEven (f.mantissa * parts) (2 ^ f.scale)

/-- The whole number nearest to the fraction, the greater one of two. -/
def roundUp (f : BinaryFraction) : Nat := (2 * f.mantissa + 2 ^ f.scale) / (2 * 2 ^ f.scale)

/-- The nearest number of 53 digits to one over the fraction. -/
def reciprocal (f : BinaryFraction) : BinaryFraction := nearest (2 ^ f.scale) f.mantissa

/-- `nearestEven` is off by at most one half. -/
theorem nearestEven_bounds (a : Nat) {b : Nat} (h : 0 < b) :
    2 * a ≤ (2 * nearestEven a b + 1) * b ∧ 2 * nearestEven a b * b ≤ 2 * a + b := by
  have eq := Nat.div_add_mod a b
  have lt := Nat.mod_lt a h
  have two := Nat.mod_two_eq_zero_or_one (a / b)
  unfold nearestEven
  dsimp only
  generalize a / b = q at *
  generalize a % b = r at *
  have distrib : ∀ k, (2 * k + 1) * b = 2 * (b * k) + b := by
    intro k
    rw [Nat.add_mul, Nat.one_mul, Nat.mul_assoc, Nat.mul_comm k b]
  have distrib' : ∀ k, 2 * k * b = 2 * (b * k) := by
    intro k
    rw [Nat.mul_assoc, Nat.mul_comm k b]
  split
  · rw [distrib, distrib']; omega
  · split
    · rw [distrib, distrib', Nat.mul_add, Nat.mul_one]; omega
    · rw [distrib, distrib', Nat.mul_add]
      rcases two with h | h <;> rw [h] <;> omega

end BinaryFraction

end Chip8
