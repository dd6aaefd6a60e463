import Chip8.Proofs.Run

/-!
# The screen as bytes

A screen holds a truth value for each cell. Kept as bytes instead, a cell is flipped by exclusive or
with one, and a cell counts as on if it is exactly one. The two agree as long as the bytes start out
as zeros and ones: `Bitmap.ofScreen` turns a screen into bytes, and painting goes along with it
(`paint_ofScreen`), over whole runs (`picture_ofScreen`).
-/

namespace Chip8

/-- A picture of 64 by 32 cells as bytes, row after row. -/
structure Bitmap where
  cells : List UInt8

namespace Bitmap

/-- Every cell zero. -/
def blank : Bitmap := ⟨List.replicate (Screen.width * Screen.height) 0⟩

/-- Where the cell at a column and row stands, each taken around the edge. -/
def place (x y : Nat) : Nat := y % Screen.height * Screen.width + x % Screen.width

/-- The cell at a column and row. -/
def get (b : Bitmap) (x y : Nat) : UInt8 := b.cells.getD (place x y) 0

/-- Flips the lowest bit of a cell. -/
def flip (b : Bitmap) (x y : Nat) : Bitmap := ⟨b.cells.modify (place x y) (· ^^^ 1)⟩

/-- Paints the `j`-th bit of a sprite row from the left, and notes whether the cell was one. -/
def paintBit (x y : Nat) (row : UInt8) : Bitmap × Bool → Nat → Bitmap × Bool
  | (b, hit), j =>
    if row.toNat >>> (7 - j) % 2 = 0 then (b, hit)
    else (b.flip (x + j) y, hit || b.get (x + j) y == 1)

/-- Paints sprite rows from row `y` on. -/
def paintRows (x y : Nat) : List UInt8 → Bitmap × Bool → Bitmap × Bool
  | [], state => state
  | row :: rows, state => paintRows x (y + 1) rows ((List.range 8).foldl (paintBit x y row) state)

/-- Paints a sprite and tells whether it put out a cell that was on. -/
def paint (b : Bitmap) (x y : UInt8) (rows : List UInt8) : Bitmap × Bool :=
  paintRows x.toNat y.toNat rows (b, false)

/-- The picture after a change of the screen. -/
def draw (b : Bitmap) : Drawing → Bitmap
  | .clear => blank
  | .paint x y rows => (b.paint x y rows).1

/-! ## Screens -/

/-- The byte of a cell. -/
def ofCell (on : Bool) : UInt8 := if on then 1 else 0

/-- A screen as bytes. -/
def ofScreen (screen : Screen) : Bitmap := ⟨screen.cells.toList.map ofCell⟩

theorem length_ofScreen (screen : Screen) :
    (ofScreen screen).cells.length = Screen.width * Screen.height := by
  show (screen.cells.toList.map ofCell).length = 2048
  rw [List.length_map, Vector.length_toList]

theorem mem_ofScreen {screen : Screen} {cell : UInt8} (h : cell ∈ (ofScreen screen).cells) :
    cell = 0 ∨ cell = 1 := by
  obtain ⟨on, _, rfl⟩ := List.mem_map.mp h
  cases on with
  | false => exact Or.inl rfl
  | true => exact Or.inr rfl

theorem blank_eq_ofScreen : blank = ofScreen .blank := by
  show _ = Bitmap.mk ((Vector.replicate 2048 false).toList.map ofCell)
  rw [Vector.toList_replicate, List.map_replicate]
  rfl

theorem get_ofScreen (screen : Screen) (x y : Nat) :
    (ofScreen screen).get x y = ofCell (screen.get x y) := by
  show (screen.cells.toList.map ofCell).getD (Screen.place x y).val 0 = _
  rw [List.getD_eq_getElem?_getD, List.getElem?_eq_getElem (by simp)]
  simp [Screen.get]

/-- Exclusive or with one flips a cell that is zero or one. -/
theorem flip_ofScreen (screen : Screen) (x y : Nat) :
    (ofScreen screen).flip x y = ofScreen (screen.flip (Screen.place x y)) := by
  have flip_cell : ∀ on : Bool, ofCell on ^^^ 1 = ofCell (!on) := by decide
  show Bitmap.mk ((screen.cells.toList.map ofCell).modify (Screen.place x y).val (· ^^^ 1)) = _
  simp only [ofScreen, Screen.flip, Bitmap.mk.injEq]
  apply List.ext_getElem
  · simp
  · intro i hi hi'
    simp only [List.getElem_modify, List.getElem_map, Vector.getElem_toList, Vector.getElem_set,
      flip_cell]
    split
    · next same => simp [← same]
    · rfl

/-! ## Painting -/

/-- The state of painting on a screen, with the screen as bytes. -/
def ofState (state : Screen × Bool) : Bitmap × Bool := (ofScreen state.1, state.2)

theorem paintBit_ofState (x y : Nat) (row : UInt8) (state : Screen × Bool) (j : Nat) :
    paintBit x y row (ofState state) j =
      ofState (if row.toNat.testBit (7 - j) then Screen.paintCell state (Screen.place (x + j) y)
        else state) := by
  rw [Nat.testBit_eq_decide_div_mod_eq, ← Nat.shiftRight_eq_div_pow]
  by_cases off : row.toNat >>> (7 - j) % 2 = 0
  · rw [if_neg (by simp [off])]
    exact if_pos off
  · have on : row.toNat >>> (7 - j) % 2 = 1 := by omega
    have is_one : ∀ cell : Bool, (ofCell cell == 1) = cell := by decide
    rw [if_pos (by simp [on])]
    refine (if_neg off).trans ?_
    simp only [ofState, Screen.paintCell, flip_ofScreen, get_ofScreen, is_one, Screen.get]

theorem paintRow_ofState (x y : Nat) (row : UInt8) (state : Screen × Bool) :
    (List.range 8).foldl (paintBit x y row) (ofState state) =
      ofState (((Screen.setBits row).map fun j => Screen.place (x + j) y).foldl
        Screen.paintCell state) := by
  rw [List.foldl_map, Screen.setBits, List.foldl_filter]
  exact List.foldl_hom ofState fun state j => paintBit_ofState x y row state j

theorem paintRows_ofState (x y : Nat) (rows : List UInt8) (state : Screen × Bool) :
    paintRows x y rows (ofState state) =
      ofState ((Screen.sprite x y rows).foldl Screen.paintCell state) := by
  induction rows generalizing y state with
  | nil => rfl
  | cons row rows ih =>
    rw [paintRows, paintRow_ofState, ih, Screen.sprite, List.foldl_append]

/-- Painting on bytes goes along with painting on the screen, and sees the same collisions. -/
theorem paint_ofScreen (screen : Screen) (x y : UInt8) (rows : List UInt8) :
    (ofScreen screen).paint x y rows = ofState (screen.paint x y rows) :=
  paintRows_ofState x.toNat y.toNat rows (screen, false)

theorem draw_ofScreen (screen : Screen) (drawing : Drawing) :
    (ofScreen screen).draw drawing = ofScreen (screen.draw drawing) := by
  cases drawing with
  | clear => exact blank_eq_ofScreen
  | paint x y rows => exact congrArg Prod.fst (paint_ofScreen screen x y rows)

end Bitmap

/-! ## Runs -/

/-- The change of the screen that a command makes on a machine, if it makes one. -/
def Command.drawing (m : Machine) : Command → Option Drawing
  | .load program drawn =>
    match (m.load program drawn).1 with
    | .ok () => some .clear
    | .error _ => none
  | .reset _ => some .clear
  | .fetch => none
  | .exec word => (Op.decode word).drawing m
  | .pulse .step =>
    match m.fetch with
    | (.ok op, m') => op.drawing m'
    | (.error _, _) => none
  | .pulse .tick | .pulse (.keys _) => none

namespace Machine

theorem fetch_screen (m : Machine) : m.fetch.2.screen = m.screen := by
  rcases m.fetch_snd with h | h
  · rw [h]
    rfl
  · rw [h]

theorem recover_screen (m : Machine) (pc : UInt16) (fault : Fault) :
    (m.recover pc fault).screen = m.screen := by
  cases fault <;> rfl

theorem step_screen (m : Machine) :
    m.step.2.screen = ((Command.pulse .step).drawing m).elim m.screen m.screen.draw := by
  have same := m.fetch_screen
  simp only [step, Command.drawing]
  generalize m.fetch = fetched at same ⊢
  obtain ⟨read, m'⟩ := fetched
  cases read with
  | error fault => exact same
  | ok op =>
    have drawn : (exec op m').2.screen = (op.drawing m').elim m.screen m.screen.draw := by
      rw [exec_screen, show m'.screen = m.screen from same]
    refine Eq.trans ?_ drawn
    simp only
    generalize exec op m' = executed
    obtain ⟨outcome, m''⟩ := executed
    cases outcome with
    | ok => rfl
    | error fault => exact m''.recover_screen m.pc fault

/-- A command changes the screen by its drawing and not otherwise. -/
theorem obey_screen (m : Machine) (command : Command) :
    (m.obey command).screen = (command.drawing m).elim m.screen m.screen.draw := by
  cases command with
  | load program drawn =>
    obtain ⟨memory, h⟩ | ⟨fault, h⟩ := m.load_cases program drawn
    · simp only [obey, Command.drawing, h]
      rfl
    · simp only [obey, Command.drawing, h]
      rfl
  | reset drawn => rfl
  | fetch => exact m.fetch_screen
  | exec word => exact exec_screen (.decode word) m
  | pulse p =>
    cases p with
    | step => exact m.step_screen
    | tick => rfl
    | keys change => rfl

/-- The picture in bytes after a row of commands, when it was `b` before. It is carried along beside
the machine, which only tells what is drawn. -/
def picture (m : Machine) (b : Bitmap) : List Command → Bitmap
  | [] => b
  | command :: commands =>
    (m.obey command).picture ((command.drawing m).elim b b.draw) commands

/-- The picture in bytes stays the screen in bytes. -/
theorem picture_ofScreen (m : Machine) (commands : List Command) :
    m.picture (.ofScreen m.screen) commands = .ofScreen (m.obeyAll commands).screen := by
  induction commands generalizing m with
  | nil => rfl
  | cons command commands ih =>
    -- drawing first and turning into bytes after is the same for one command
    have drawn : (command.drawing m).elim (Bitmap.ofScreen m.screen) (Bitmap.ofScreen m.screen).draw
        = .ofScreen (m.obey command).screen := by
      rw [obey_screen]
      cases command.drawing m with
      | none => rfl
      | some drawing => exact Bitmap.draw_ofScreen m.screen drawing
    rw [picture, drawn, ih]
    rfl

end Machine

end Chip8
