import Chip8.Registers

/-!
# Keypad

Sixteen keys, `0` to `F`. A key number is a byte of which only the low four bits count.
-/

namespace Chip8

/-- Which keys are down. -/
structure Keypad where
  keys : Vector Bool 16
  deriving DecidableEq

namespace Keypad

/-- No key down. -/
def released : Keypad := ⟨Vector.replicate 16 false⟩

/-- Whether a key is down. -/
def isPressed (pad : Keypad) (key : UInt8) : Bool := pad.keys.get (lowNibble key)

/-- Puts a key down. -/
def press (pad : Keypad) (key : UInt8) : Keypad :=
  ⟨pad.keys.set (lowNibble key) true (lowNibble_lt key)⟩

/-- Lets a key up. -/
def release (pad : Keypad) (key : UInt8) : Keypad :=
  ⟨pad.keys.set (lowNibble key) false (lowNibble_lt key)⟩

/-- The lowest key that is down. -/
def firstPressed (pad : Keypad) : Option UInt8 :=
  ((List.finRange 16).find? pad.keys.get).map fun key => .ofNat key.val

theorem isPressed_press (pad : Keypad) (key k : UInt8) :
    (pad.press key).isPressed k = (decide (lowNibble k = lowNibble key) || pad.isPressed k) := by
  show (pad.keys.set (lowNibble key) true)[lowNibble k] =
    (decide (lowNibble k = lowNibble key) || pad.keys[lowNibble k])
  simp only [Fin.getElem_fin, Vector.getElem_set, Fin.ext_iff, eq_comm]
  split <;> simp_all

theorem isPressed_release (pad : Keypad) (key k : UInt8) :
    (pad.release key).isPressed k = (!decide (lowNibble k = lowNibble key) && pad.isPressed k) := by
  show (pad.keys.set (lowNibble key) false)[lowNibble k] =
    (!decide (lowNibble k = lowNibble key) && pad.keys[lowNibble k])
  simp only [Fin.getElem_fin, Vector.getElem_set, Fin.ext_iff, eq_comm]
  split <;> simp_all

theorem firstPressed_eq_none_iff (pad : Keypad) :
    pad.firstPressed = none ↔ ∀ key, pad.isPressed key = false := by
  simp only [firstPressed, Option.map_eq_none_iff, List.find?_eq_none, isPressed]
  constructor
  · intro up key
    exact Bool.eq_false_iff.mpr (up (lowNibble key) (List.mem_finRange _))
  · intro up key _
    have place : lowNibble (.ofNat key.val) = key := Fin.ext (val_lowNibble_ofNat key.isLt)
    rw [← place, up]
    exact Bool.false_ne_true

instance : Inspect Keypad where
  form pad := .record "Keypad" [.field "keys" (.list (pad.keys.toList.map .bool))]

end Keypad

end Chip8
