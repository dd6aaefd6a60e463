import Chip8.Form

/-!
# Timers

Two countdowns, one that programs read and one that sounds while it runs. Both go down by one at
each timer tick, sixty times a second, and stay at zero.
-/

namespace Chip8

/-- The delay and the sound countdown. -/
structure Timers where
  delay : UInt8 := 0
  sound : UInt8 := 0
  deriving DecidableEq

namespace Timers

/-- Timer ticks a second. -/
def hertz : Nat := 60

/-- One less, but never below zero. -/
def countDown (v : UInt8) : UInt8 := if v = 0 then 0 else v - 1

/-- Whether the sound countdown is running. -/
def isBeeping (timers : Timers) : Bool := timers.sound ≠ 0

/-- One tick. The level is whether the sound ran when the tick began. -/
def tick (timers : Timers) : Bool × Timers :=
  (timers.isBeeping, { delay := countDown timers.delay, sound := countDown timers.sound })

@[simp] theorem toNat_countDown (v : UInt8) : (countDown v).toNat = v.toNat - 1 := by
  unfold countDown
  split
  · next h => simp [h]
  · next h =>
    have : v.toNat ≠ 0 := fun h' => h (UInt8.toNat_inj.mp h')
    have := v.toNat_lt
    simp only [UInt8.toNat_sub, UInt8.reduceToNat]
    omega

instance : Inspect Timers where
  form timers := .record "Timers"
    [.field "delay" (.nat timers.delay.toNat), .field "sound" (.nat timers.sound.toNat)]

end Timers

end Chip8
