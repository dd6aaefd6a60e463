import Mathlib.Tactic.Linarith
import Chip8.BinaryFraction

/-!
# What binary fractions keep

* `IsNearest` — a whole number nearest to a quotient
* `Close` — two numbers that differ by little, measured by the second one
* `close_nearest` — a nearest fraction is close to its quotient
* `isNearest_of_close` — rounding does not see so small an error: a whole number nearest to a close
  fraction is nearest to the quotient itself

A quotient of whole numbers that is not halfway between two whole numbers has a distance from there
that its denominator bounds. The error of a fraction is smaller than that. Halfway, either neighbour
is a nearest one, and the fraction decides which of them is taken.
-/

namespace Chip8.BinaryFraction

variable {a b d m n t x : Nat}

/-! ## Nearest whole numbers -/

/-- No whole number is nearer to `a / b` than `n`; another one may be as near. -/
def IsNearest (n a b : Nat) : Prop := 2 * a ≤ (2 * n + 1) * b ∧ 2 * n * b ≤ 2 * a + b

/-- The whole number nearest to `a / b`, the greater one of two. -/
def nearestUp (a b : Nat) : Nat := (2 * a + b) / (2 * b)

theorem isNearest_nearestUp (a : Nat) (nonzero : 0 < b) : IsNearest (nearestUp a b) a b := by
  have below : nearestUp a b * (2 * b) ≤ 2 * a + b := Nat.div_mul_le_self ..
  have above : 2 * a + b < 2 * b * (nearestUp a b + 1) := Nat.lt_mul_div_succ _ (by omega)
  constructor <;> linarith

/-- Unless the quotient is halfway, nothing else is nearest. -/
theorem IsNearest.eq_nearestUp (nearest : IsNearest n a b) (apart : 2 * a ≠ (2 * n + 1) * b) :
    n = nearestUp a b := by
  have above := Nat.lt_of_le_of_ne nearest.1 apart
  have below := nearest.2
  exact (Nat.div_eq_of_lt_le (by linarith) (by linarith)).symm

/-- What is nearer than one half is all that is nearest. -/
theorem IsNearest.eq (nearest : IsNearest m a b) (above : 2 * a < (2 * n + 1) * b)
    (below : 2 * n * b < 2 * a + b) : m = n := by
  obtain ⟨above', below'⟩ := nearest
  rcases Nat.lt_trichotomy m n with less | same | more
  · have next := Nat.mul_le_mul_right b less
    linarith
  · exact same
  · have next := Nat.mul_le_mul_right b more
    linarith

/-- A denominator is nearest to the quotient by what is nearest to the quotient by the denominator,
if it is smaller than that. -/
theorem IsNearest.swap (nearest : IsNearest n a b) (less : b < n) :
    2 * a < (2 * b + 1) * n ∧ 2 * b * n < 2 * a + n := by
  obtain ⟨above, below⟩ := nearest
  constructor <;> linarith

/-! ## Small errors -/

/-- `x` differs from `y` by at most one part in `d`. -/
def Close (d x y : Nat) : Prop := d * y ≤ d * x + y ∧ d * x ≤ d * y + y

/-- A nearest fraction has a scale that leaves its mantissa 53 digits. -/
theorem le_scale (some : 0 < a) (small : a.log2 ≤ 52 + b.log2) :
    2 ^ 52 * b ≤ a * 2 ^ (nearest a b).scale := by
  have wide : 2 ^ 53 * b ≤ 2 * (a * 2 ^ (53 + b.log2 - a.log2)) := by
    have digits : 2 ^ a.log2 ≤ a := Nat.log2_self_le some.ne'
    have digits' : b < 2 ^ b.log2 * 2 := Nat.lt_log2_self
    have power : 2 ^ a.log2 * 2 ^ (53 + b.log2 - a.log2) = 2 ^ 53 * 2 ^ b.log2 := by
      rw [← pow_add, ← pow_add]
      congr 1
      omega
    have scaled := Nat.mul_le_mul_right (2 ^ (53 + b.log2 - a.log2)) digits
    omega
  simp only [nearest]
  split
  · omega
  · next long =>
    obtain ⟨less, scale⟩ : ∃ less, 53 + b.log2 - a.log2 = less + 1 :=
      ⟨52 + b.log2 - a.log2, by omega⟩
    rw [scale, pow_succ, Nat.not_lt] at long
    have long' := Nat.mul_le_of_le_div _ _ _ long
    rw [scale, Nat.add_sub_cancel]
    linarith

/-- The error of a nearest fraction is at most one part in `2 ^ 53`. -/
theorem close_nearest (some : 0 < a) (nonzero : 0 < b) (small : a.log2 ≤ 52 + b.log2) :
    Close (2 ^ 53) ((nearest a b).mantissa * b) (a * 2 ^ (nearest a b).scale) := by
  have long := le_scale some small
  obtain ⟨above, below⟩ := nearestEven_bounds (a * 2 ^ (nearest a b).scale) nonzero
  have mantissa : (nearest a b).mantissa = nearestEven (a * 2 ^ (nearest a b).scale) b := rfl
  rw [mantissa]
  generalize a * 2 ^ (nearest a b).scale = x at *
  generalize nearestEven x b = n at *
  constructor <;> linarith

/-- Times `2 * parts`, so small an error is less than `t`. -/
theorem Close.lt {parts : Nat} (close : Close d x (a * t)) (small : 2 * (a * parts) < d)
    (positive : 0 < t) :
    2 * parts * (a * t) < 2 * parts * x + t ∧ 2 * parts * x < 2 * parts * (a * t) + t := by
  have room : 2 * (a * parts) * t < d * t := Nat.mul_lt_mul_of_pos_right small positive
  constructor
  · by_contra! far
    have scaled := Nat.mul_le_mul_left d far
    have bounded := Nat.mul_le_mul_left (2 * parts) close.1
    linarith
  · by_contra! far
    have scaled := Nat.mul_le_mul_left d far
    have bounded := Nat.mul_le_mul_left (2 * parts) close.2
    linarith

/-- A whole number nearest to a close fraction is nearest to the quotient itself, as long as the
quotient is small against the error. -/
theorem isNearest_of_close {parts : Nat} (close : Close d (m * b) (a * t))
    (small : 2 * (a * parts) < d) (positive : 0 < t) (nearest : IsNearest n (m * parts) t) :
    IsNearest n (a * parts) b := by
  obtain ⟨above, below⟩ := close.lt small positive
  have upper := Nat.mul_le_mul_right b nearest.1
  have lower := Nat.mul_le_mul_right b nearest.2
  -- all of it is a matter of whole multiples of `t`
  constructor
  · refine Nat.le_of_lt_succ (Nat.lt_of_mul_lt_mul_right (a := t) ?_)
    linarith
  · refine Nat.le_of_lt_succ (Nat.lt_of_mul_lt_mul_right (a := t) ?_)
    linarith

/-! ## Back and forth -/

theorem log2_le_of_le (some : 0 < a) (proper : a ≤ b) : a.log2 ≤ 52 + b.log2 := by
  have log : a.log2 ≤ b.log2 :=
    (Nat.le_log2 (by omega)).mpr (Nat.le_trans (Nat.log2_self_le some.ne') proper)
  omega

/-- A proper quotient, through its nearest fraction, in whole parts. -/
theorem isNearest_round {parts : Nat} (some : 0 < a) (proper : a ≤ b)
    (few : 2 * (a * parts) < 2 ^ 53) : IsNearest ((nearest a b).round parts) (a * parts) b := by
  have close := close_nearest some (by omega) (log2_le_of_le some proper)
  have positive : 0 < 2 ^ (nearest a b).scale := by positivity
  exact isNearest_of_close close few positive (nearestEven_bounds _ positive)

/-- The error of a fraction and the error of its reciprocal make one part in `2 ^ 51` at most. -/
theorem Close.reciprocal {r u : Nat} (close : Close (2 ^ 53) (m * b) (a * t))
    (close' : Close (2 ^ 53) (r * m) (t * u)) (positive : 0 < t) :
    Close (2 ^ 51) (r * a) (b * u) := by
  have above := Nat.mul_le_mul_left r close.1
  have below := Nat.mul_le_mul_left r close.2
  have above' := Nat.mul_le_mul_right b close'.1
  have below' := Nat.mul_le_mul_right b close'.2
  have upper : 2 ^ 53 * (r * a) ≤ (2 ^ 53 + 1) * (b * u) + r * a := by
    refine Nat.le_of_mul_le_mul_right (c := t) ?_ positive
    linarith
  have lower : 2 ^ 53 * (b * u) ≤ (2 ^ 53 + 1) * (r * a) + b * u := by
    refine Nat.le_of_mul_le_mul_right (c := t) ?_ positive
    linarith
  constructor <;> omega

theorem le_mantissa (some : 0 < a) (nonzero : 0 < b) (small : a.log2 ≤ 52 + b.log2) :
    2 ^ 52 ≤ (nearest a b).mantissa := by
  have long := le_scale some small
  have above := (nearestEven_bounds (a * 2 ^ (nearest a b).scale) nonzero).1
  have digits : 2 ^ 53 * b ≤ (2 * (nearest a b).mantissa + 1) * b := by
    refine Nat.le_trans ?_ above
    omega
  have digits' := Nat.le_of_mul_le_mul_right digits nonzero
  omega

theorem scale_le : (nearest a b).scale ≤ 53 + b.log2 - a.log2 := by
  simp only [nearest]
  split <;> omega

/-- The reciprocal of a proper quotient, through its nearest fraction, rounded. -/
theorem isNearest_reciprocal (some : 0 < a) (proper : a ≤ b) (few : b < 2 ^ 50) :
    IsNearest (nearest a b).reciprocal.roundUp b a := by
  have nonzero : 0 < b := by omega
  have small := log2_le_of_le some proper
  have positive : 0 < 2 ^ (nearest a b).scale := by positivity
  have digits := le_mantissa some nonzero small
  have short : (2 ^ (nearest a b).scale).log2 ≤ 52 + (nearest a b).mantissa.log2 := by
    have log : b.log2 < 50 := (Nat.log2_lt nonzero.ne').mpr few
    have log' : 52 ≤ (nearest a b).mantissa.log2 := (Nat.le_log2 (by omega)).mpr digits
    have scale := scale_le (a := a) (b := b)
    rw [Nat.log2_two_pow]
    omega
  have close := (close_nearest some nonzero small).reciprocal
    (close_nearest positive (by omega) short) positive
  have rounded : IsNearest (nearest a b).reciprocal.roundUp _ (2 ^ _) :=
    isNearest_nearestUp (nearest a b).reciprocal.mantissa (by positivity)
  rw [← Nat.mul_one (nearest a b).reciprocal.mantissa] at rounded
  have brought := isNearest_of_close close (by omega) (by positivity) rounded
  rwa [Nat.mul_one] at brought

end Chip8.BinaryFraction
