import Chip8.Form

/-!
# Screen

A monochrome picture of 64 by 32 cells. A sprite is painted by flipping the cells under its set
bits; both edges wrap around on their own. `sprite` lists the cells that a sprite flips, in order,
and painting is a fold over that list, so a cell hit twice is flipped twice.
-/

namespace Chip8

/-- The picture, row after row; a cell is on or off. -/
structure Screen where
  cells : Vector Bool 2048
  deriving DecidableEq

namespace Screen

/-- Cells in a row. -/
abbrev width : Nat := 64

/-- Rows. -/
abbrev height : Nat := 32

/-- The place of a column and row, each taken around the edge. -/
def place (x y : Nat) : Fin 2048 :=
  ⟨y % height * width + x % width, by
    simp only [width, height]
    omega⟩

/-- Every cell off. -/
def blank : Screen := ⟨Vector.replicate 2048 false⟩

/-- Whether the cell at a column and row is on. -/
def get (screen : Screen) (x y : Nat) : Bool := screen.cells[place x y]

/-- Whether every cell is off. -/
def isBlank (screen : Screen) : Bool := screen.cells.all (!·)

/-- How many cells are on. -/
def litCount (screen : Screen) : Nat := screen.cells.toList.count true

/-- The rows from the top, each from the left. -/
def rows (screen : Screen) : List (List Bool) :=
  (List.range height).map fun y => (List.range width).map fun x => screen.get x y

/-! ## Painting -/

/-- Flips a cell. -/
def flip (screen : Screen) (i : Fin 2048) : Screen :=
  ⟨screen.cells.set i (!screen.cells[i])⟩

/-- The columns of the set bits of a sprite row, the highest bit leftmost. -/
def setBits (row : UInt8) : List Nat :=
  (List.range 8).filter fun j => row.toNat.testBit (7 - j)

/-- The cells under the set bits of a sprite with its corner at `x` and `y`. -/
def sprite (x y : Nat) : List UInt8 → List (Fin 2048)
  | [] => []
  | row :: rows => (setBits row).map (fun j => place (x + j) y) ++ sprite x (y + 1) rows

/-- Flips one more cell and notes whether it was on. -/
def paintCell : Screen × Bool → Fin 2048 → Screen × Bool
  | (screen, hit), i =>
    -- looked at first, so that the cell can be flipped in place
    let hit := hit || screen.cells[i]
    (screen.flip i, hit)

/-- Paints a sprite and tells whether it put out a cell that was on. -/
def paint (screen : Screen) (x y : UInt8) (bytes : List UInt8) : Screen × Bool :=
  (sprite x.toNat y.toNat bytes).foldl paintCell (screen, false)

theorem getElem_flip (screen : Screen) (i j : Fin 2048) :
    (screen.flip i).cells[j] = (decide (j = i) ^^ screen.cells[j]) := by
  simp only [flip, Fin.getElem_fin, Vector.getElem_set, Fin.ext_iff]
  split <;> simp_all [eq_comm]

/-- Pictures with the same cells are the same. -/
theorem ext_cells {screen screen' : Screen}
    (h : ∀ i : Fin 2048, screen.cells[i] = screen'.cells[i]) : screen = screen' := by
  obtain ⟨cells⟩ := screen
  obtain ⟨cells'⟩ := screen'
  congr 1
  exact Vector.ext fun i hi => h ⟨i, hi⟩

/-- The order of two flips does not matter. -/
theorem flip_comm (screen : Screen) (i j : Fin 2048) :
    (screen.flip i).flip j = (screen.flip j).flip i := by
  refine ext_cells fun k => ?_
  simp only [getElem_flip]
  exact Bool.xor_left_comm ..

/-- The second flip of a cell undoes the first. -/
theorem flip_flip (screen : Screen) (i : Fin 2048) : (screen.flip i).flip i = screen := by
  refine ext_cells fun k => ?_
  rw [getElem_flip, getElem_flip, ← Bool.xor_assoc, Bool.xor_self, Bool.false_xor]

/-- A line for each row, `#` for a cell that is on and `.` for one that is off. -/
instance : Inspect Screen where
  form screen := .word <| String.join <| screen.rows.map fun row =>
    String.ofList (row.map fun cell => if cell then '#' else '.') ++ "\n"

end Screen

end Chip8
