import Chip8.Form

/-!
# Configuration

The instruction rate, the two points on which interpreters of these programs disagree, and the seed
of the random bytes.
-/

namespace Chip8

/-- Where interpreters disagree. The default is the later convention, the other one the oldest. -/
structure Dialect where
  /-- The shifts take `VY`, not `VX`, as the value to shift. -/
  shiftsVY : Bool := false
  /-- Storing and loading registers leaves the index behind the last byte touched. -/
  advancesIndex : Bool := false
  deriving DecidableEq

/-- How a machine is set up. -/
structure Config where
  /-- Instructions per second. -/
  ips : UInt32 := 700
  dialect : Dialect := {}
  /-- The seed of the random bytes; without one they are drawn from outside. -/
  seed : Option UInt64 := none
  deriving DecidableEq

namespace Config

/-- Sets the instruction rate; the slowest is one a second. -/
def withIps (config : Config) (ips : UInt32) : Config :=
  { config with ips := if ips = 0 then 1 else ips }

instance : Inspect Dialect where
  form dialect := .record "Quirks"
    [.field "shift_uses_vy" (.bool dialect.shiftsVY),
     .field "load_store_increments_index" (.bool dialect.advancesIndex)]

instance : Inspect Config where
  form config := .record "Config"
    [.field "instructions_per_second" (.nat config.ips.toNat),
     .field "quirks" (Inspect.form config.dialect),
     .field "rng_seed" (.option (config.seed.map fun seed => .nat seed.toNat))]

/-- A rate of zero counts as one. -/
theorem toNat_ips_withIps (config : Config) (ips : UInt32) :
    (config.withIps ips).ips.toNat = max ips.toNat 1 := by
  by_cases h : ips = 0
  · simp [withIps, h]
  · have : ips.toNat ≠ 0 := fun h' => h (UInt32.toNat_inj.mp h')
    simp only [withIps, h, if_false]
    omega

end Config

end Chip8
