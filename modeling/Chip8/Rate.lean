import Chip8.BinaryFraction

/-!
# The instruction rate

A clock keeps a configured rate by a period of whole nanoseconds: the nearest to one second over the
rate, both in double precision. The rate it reports is worked back from that period, so it differs
from the configured one where a nanosecond matters.
-/

namespace Chip8

/-- A reported rate. -/
inductive Rate where
  /-- So many ticks a second. -/
  | hertz (n : Nat)
  /-- Ticks without a pause. -/
  | unbounded
  deriving DecidableEq

namespace Rate

/-- Nanoseconds in a second. -/
def second : Nat := 1000000000

/-- The period in nanoseconds for `ips` ticks a second; zero counts as one. -/
def period (ips : Nat) : Nat := (BinaryFraction.nearest 1 (max ips 1)).round second

/-- The rate reported for a period in nanoseconds. -/
def ofPeriod (period : Nat) : Rate :=
  if period = 0 then .unbounded
  else .hertz (BinaryFraction.nearest period second).reciprocal.roundUp

/-- The rate reported for a configured one. -/
def ofIps (ips : Nat) : Rate := ofPeriod (period ips)

/-- The rate as it is reported. -/
def text : Rate → String
  | .hertz n => toString n
  | .unbounded => "inf"

end Rate

end Chip8
