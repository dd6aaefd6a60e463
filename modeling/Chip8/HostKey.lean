/-!
# Host keys

The keys of the keypad lie on the left of the host's keyboard:

    1 2 3 C      1 2 3 4
    4 5 6 D      Q W E R
    7 8 9 E      A S D F
    A 0 B F      Z X C V
-/

namespace Chip8.HostKey

/-- The host key and the keypad key at each place of the layout. -/
def layout : List (String × UInt8) :=
  [("Key1", 0x1), ("Key2", 0x2), ("Key3", 0x3), ("Key4", 0xC),
   ("Q", 0x4), ("W", 0x5), ("E", 0x6), ("R", 0xD),
   ("A", 0x7), ("S", 0x8), ("D", 0x9), ("F", 0xE),
   ("Z", 0xA), ("X", 0x0), ("C", 0xB), ("V", 0xF)]

/-- The keypad key of a host key, by the host key's name. -/
def toKey? (name : String) : Option UInt8 := layout.lookup name

/-- Every keypad key has one host key. -/
theorem layout_covers : ∀ key < 16,
    (layout.filter fun place => place.2.toNat == key).length = 1 := by
  decide

end Chip8.HostKey
