import Chip8.Screen

/-!
# Pictures

The screen in colours, as it is shown: one number of eight bits each of red, green and blue for
every cell. A picture changes only when a screen is published to it.
-/

namespace Chip8

namespace Colour

/-- The colour of a red, a green and a blue part; a part above 255 runs into its neighbour. -/
def ofParts (r g b : UInt16) : UInt32 := (r.toUInt32 <<< 16) ||| (g.toUInt32 <<< 8) ||| b.toUInt32

/-- The colour of a cell that is on. -/
def on : UInt32 := ofParts 0 127 255

/-- The colour of a cell that is off. -/
def off : UInt32 := 0

/-- The colour of a cell. -/
def ofCell (cell : Bool) : UInt32 := if cell then on else off

/-- The two colours differ, so cells can be read back from them. -/
theorem ofCell_inj {cell cell' : Bool} : ofCell cell = ofCell cell' ↔ cell = cell' := by
  revert cell cell'
  decide

end Colour

/-- The colours of the cells, row after row. -/
structure Picture where
  pixels : Vector UInt32 2048
  deriving DecidableEq

namespace Picture

/-- The picture of a screen. -/
def ofScreen (screen : Screen) : Picture := ⟨screen.cells.map Colour.ofCell⟩

/-- The picture before anything was published. -/
def dark : Picture := ⟨Vector.replicate 2048 Colour.off⟩

/-- The blank screen is shown dark. -/
theorem ofScreen_blank : ofScreen Screen.blank = dark := by
  simp [ofScreen, Screen.blank, dark, Colour.ofCell]

end Picture

end Chip8
