import Mathlib.Algebra.BigOperators.Group.Finset.Piecewise
import Mathlib.Algebra.BigOperators.Group.Finset.Sigma
import Chip8.Proofs.Bitmap

/-!
# What painting does to the screen

* `hits` — how often the set bits of a sprite fall on a cell
* `pile` — what a cell counted before, with one added for every flip
* `paint_exact` — after painting, each cell holds its pile modulo two, and a collision is a pile of
  two or more somewhere
* `paints_commute_and_cancel` — sprites may be painted in any order, and painting all of them once
  more, in any order, undoes them

Painting goes cell by cell, and whether a flip puts a cell out depends on the flips before it. What
comes out in the end does not: the pile of a cell only counts the flips, so it is the same for every
order of them (`foldl_paintCell_perm`).
-/

namespace Chip8

open Finset

namespace Screen

/-! ## Flips -/

/-- What a cell counts: one if it is on, zero if it is off. -/
def value (screen : Screen) (i : Fin 2048) : Nat := (screen.cells.get i).toNat

theorem value_le_one (screen : Screen) (i : Fin 2048) : screen.value i ≤ 1 := Bool.toNat_le _

theorem value_flip (screen : Screen) (i j : Fin 2048) :
    (screen.flip i).value j = if j = i then 1 - screen.value j else screen.value j := by
  show ((screen.flip i).cells[j]).toNat =
    if j = i then 1 - (screen.cells[j]).toNat else (screen.cells[j]).toNat
  rw [getElem_flip]
  split
  · next same => cases screen.cells[j] <;> simp [same]
  · next other => simp [other]

/-- Pictures whose cells count alike are the same. -/
theorem ext_value {screen screen' : Screen} (h : ∀ i, screen.value i = screen'.value i) :
    screen = screen' := by
  have inj : ∀ a b : Bool, a.toNat = b.toNat → a = b := by decide
  exact ext_cells fun i => inj _ _ (h i)

/-- What a cell counts, with one added for every flip of it. -/
def pile (screen : Screen) (cells : List (Fin 2048)) (i : Fin 2048) : Nat :=
  screen.value i + cells.count i

theorem pile_append (screen : Screen) (cells cells' : List (Fin 2048)) (i : Fin 2048) :
    screen.pile (cells ++ cells') i = screen.pile cells i + cells'.count i := by
  rw [pile, pile, List.count_append, Nat.add_assoc]

/-- The first flip of a row, made. The pile of its cell stays as it is if the flip puts the cell on,
and loses two if it puts the cell out: the flip itself, and what the cell counted. -/
theorem pile_cons (screen : Screen) (cells : List (Fin 2048)) (i j : Fin 2048) :
    screen.pile (i :: cells) j =
      (screen.flip i).pile cells j + if j = i ∧ screen.value i = 1 then 2 else 0 := by
  have := screen.value_le_one i
  simp only [pile, value_flip, List.count_cons, beq_iff_eq]
  by_cases same : j = i
  · subst same
    simp only [if_true, true_and]
    split <;> omega
  · rw [if_neg same, if_neg (Ne.symm same), if_neg (fun h => same h.1), Nat.add_assoc]

/-- After a row of flips a cell counts its pile modulo two. -/
theorem value_foldl_flip (cells : List (Fin 2048)) (screen : Screen) (i : Fin 2048) :
    (cells.foldl flip screen).value i = screen.pile cells i % 2 := by
  induction cells generalizing screen with
  | nil =>
    have := screen.value_le_one i
    simp only [List.foldl_nil, pile, List.count_nil]
    omega
  | cons j cells ih =>
    rw [List.foldl_cons, ih, pile_cons]
    split <;> omega

theorem foldl_paintCell_fst (cells : List (Fin 2048)) (state : Screen × Bool) :
    (cells.foldl paintCell state).1 = cells.foldl flip state.1 :=
  (List.foldl_hom Prod.fst fun _ _ => rfl).symm

/-- A row of flips puts a cell out somewhere if some pile has two or more. -/
theorem foldl_paintCell_snd (cells : List (Fin 2048)) (screen : Screen) (hit : Bool) :
    (cells.foldl paintCell (screen, hit)).2 = true ↔
      hit = true ∨ ∃ i, 2 ≤ screen.pile cells i := by
  induction cells generalizing screen hit with
  | nil =>
    have low : ∀ i, ¬ 2 ≤ screen.pile [] i := by
      intro i
      have := screen.value_le_one i
      simp only [pile, List.count_nil]
      omega
    simp [low]
  | cons j cells ih =>
    have counts : screen.value j = screen.cells[j].toNat := rfl
    rw [List.foldl_cons, paintCell, ih]
    cases on : screen.cells[j] with
    | false =>
      -- the first flip puts nothing out, and piles are as they were
      have off : screen.value j ≠ 1 := by simp [counts, on]
      have same : ∀ i, screen.pile (j :: cells) i = (screen.flip j).pile cells i := by
        intro i
        rw [pile_cons, if_neg (fun h => off h.2), Nat.add_zero]
      simp [same]
    | true =>
      have high : 2 ≤ screen.pile (j :: cells) j := by
        rw [pile_cons, if_pos ⟨rfl, by simp [counts, on]⟩]
        omega
      simp only [Bool.or_true, true_or, true_iff]
      exact Or.inr ⟨j, high⟩

/-- Pictures of the same piles are the same, and so are their collisions. -/
theorem foldl_paintCell_congr {cells cells' : List (Fin 2048)} {screen : Screen} (hit : Bool)
    (same : ∀ i, screen.pile cells i = screen.pile cells' i) :
    cells.foldl paintCell (screen, hit) = cells'.foldl paintCell (screen, hit) := by
  refine Prod.ext (ext_value fun i => ?_) (Bool.eq_iff_iff.mpr ?_)
  · rw [foldl_paintCell_fst, foldl_paintCell_fst, value_foldl_flip, value_foldl_flip, same]
  · rw [foldl_paintCell_snd, foldl_paintCell_snd]
    simp only [same]

theorem foldl_paintCell_perm {cells cells' : List (Fin 2048)} (perm : cells.Perm cells')
    (screen : Screen) (hit : Bool) :
    cells.foldl paintCell (screen, hit) = cells'.foldl paintCell (screen, hit) :=
  foldl_paintCell_congr hit fun i => by rw [pile, pile, perm.count_eq]

/-- Flipping the same cells twice, in whatever order, is flipping none. -/
theorem foldl_flip_twice {cells cells' : List (Fin 2048)} (perm : cells.Perm cells')
    (screen : Screen) : (cells ++ cells').foldl flip screen = screen := by
  refine ext_value fun i => ?_
  have := screen.value_le_one i
  rw [value_foldl_flip, pile_append, pile, perm.count_eq]
  omega

/-! ## Sprites -/

/-- How many pairs of a row and a column of a sprite there are whose bit is set and falls on the
cell at `cx` and `cy`, when the sprite's corner is at `x` and `y` and both edges wrap around. -/
def hits (x y : Nat) (rows : List UInt8) (cx cy : Nat) : Nat :=
  ((range rows.length ×ˢ range 8).filter fun p =>
    (rows.getD p.1 0).toNat.testBit (7 - p.2) = true ∧
      (x + p.2) % 64 = cx ∧ (y + p.1) % 32 = cy).card

/-- How many columns of one sprite row hit a cell. -/
def rowHits (x y : Nat) (row : UInt8) (cx cy : Nat) : Nat :=
  ((range 8).filter fun j =>
    row.toNat.testBit (7 - j) = true ∧ (x + j) % 64 = cx ∧ y % 32 = cy).card

theorem hits_cons (x y : Nat) (row : UInt8) (rows : List UInt8) (cx cy : Nat) :
    hits x y (row :: rows) cx cy = rowHits x y row cx cy + hits x (y + 1) rows cx cy := by
  simp only [hits, rowHits, card_filter, sum_product, List.length_cons, sum_range_succ']
  rw [Nat.add_comm]
  simp only [List.getD_cons_zero, List.getD_cons_succ, Nat.add_zero, Nat.add_right_comm y,
    Nat.add_assoc]

theorem place_eq_place_iff {x y cx cy : Nat} (hx : cx < 64) (hy : cy < 32) :
    place x y = place cx cy ↔ x % 64 = cx ∧ y % 32 = cy := by
  simp only [place, Fin.mk.injEq, width, height]
  omega

theorem count_setBits (x y : Nat) (row : UInt8) {cx cy : Nat} (hx : cx < 64) (hy : cy < 32) :
    ((setBits row).map fun j => place (x + j) y).count (place cx cy) = rowHits x y row cx cy := by
  rw [List.count_eq_countP, List.countP_map, setBits, List.countP_filter,
    List.countP_eq_length_filter]
  show _ = ((List.range 8).filter _).length
  congr 2
  funext j
  rw [Function.comp_apply, Bool.eq_iff_iff, Bool.and_eq_true, beq_iff_eq,
    place_eq_place_iff hx hy, decide_eq_true_iff, and_comm]

/-- The cells of a sprite hold each cell as often as the sprite hits it. -/
theorem count_sprite (x y : Nat) (rows : List UInt8) {cx cy : Nat} (hx : cx < 64) (hy : cy < 32) :
    (sprite x y rows).count (place cx cy) = hits x y rows cx cy := by
  induction rows generalizing y with
  | nil => rfl
  | cons row rows ih => rw [sprite, List.count_append, count_setBits x y row hx hy, ih, hits_cons]

/-- The pile of a cell under a sprite. -/
theorem pile_sprite (screen : Screen) (x y : Nat) (rows : List UInt8) {cx cy : Nat} (hx : cx < 64)
    (hy : cy < 32) :
    screen.pile (sprite x y rows) (place cx cy) =
      (screen.get cx cy).toNat + hits x y rows cx cy := by
  rw [pile, count_sprite x y rows hx hy]
  rfl

theorem exists_place_eq (i : Fin 2048) : ∃ cx < 64, ∃ cy < 32, place cx cy = i := by
  refine ⟨i % 64, by omega, i / 64, by omega, ?_⟩
  simp only [place, width, height, Fin.ext_iff]
  omega

variable (screen : Screen) (x y : UInt8) (rows : List UInt8)

theorem toNat_get_paint {cx cy : Nat} (hx : cx < 64) (hy : cy < 32) :
    ((screen.paint x y rows).1.get cx cy).toNat =
      ((screen.get cx cy).toNat + hits x.toNat y.toNat rows cx cy) % 2 := by
  rw [← pile_sprite screen _ _ rows hx hy, ← value_foldl_flip, paint, foldl_paintCell_fst]
  rfl

theorem paint_snd_iff :
    (screen.paint x y rows).2 = true ↔
      ∃ cx < 64, ∃ cy < 32,
        2 ≤ (screen.get cx cy).toNat + hits x.toNat y.toNat rows cx cy := by
  rw [paint, foldl_paintCell_snd]
  constructor
  · rintro (none | ⟨i, high⟩)
    · cases none
    · obtain ⟨cx, hx, cy, hy, rfl⟩ := exists_place_eq i
      exact ⟨cx, hx, cy, hy, by rwa [← pile_sprite screen _ _ rows hx hy]⟩
  · rintro ⟨cx, hx, cy, hy, high⟩
    exact Or.inr ⟨place cx cy, by rwa [pile_sprite screen _ _ rows hx hy]⟩

end Screen

/-! ## Bytes -/

namespace Bitmap

/-- A picture in bytes that has all its cells, each zero or one. -/
structure Binary (b : Bitmap) : Prop where
  length_eq : b.cells.length = 64 * 32
  zero_or_one : ∀ cell ∈ b.cells, cell = 0 ∨ cell = 1

theorem binary_ofScreen (screen : Screen) : (ofScreen screen).Binary :=
  ⟨length_ofScreen screen, fun _ => mem_ofScreen⟩

/-- Such a picture is a screen in bytes. -/
theorem Binary.exists_screen {b : Bitmap} (h : b.Binary) : ∃ screen, b = ofScreen screen := by
  have size : (b.cells.map (· == 1)).toArray.size = 2048 := by
    simpa using h.length_eq
  refine ⟨⟨⟨(b.cells.map (· == 1)).toArray, size⟩⟩, ?_⟩
  have same : ∀ cell ∈ b.cells, ofCell (cell == 1) = cell := by
    intro cell mem
    rcases h.zero_or_one cell mem with rfl | rfl <;> rfl
  have cells : b.cells.map (fun cell => ofCell (cell == 1)) = b.cells := by
    rw [List.map_congr_left same, List.map_id']
  simp only [ofScreen, Vector.toList_mk, List.map_map]
  exact congrArg Bitmap.mk cells.symm

theorem toNat_get_ofScreen (screen : Screen) (x y : Nat) :
    ((ofScreen screen).get x y).toNat = (screen.get x y).toNat := by
  rw [get_ofScreen]
  cases screen.get x y <;> rfl

end Bitmap

/--
**What painting does, exactly.**

Take any picture, a sprite of any length and any corner for it. A sprite bit may fall on a cell more
than once, when more than 32 rows wrap onto each other. After painting, a cell is on if its old
value and the number of its hits make an odd sum, and the painting reports a collision if for some
cell that sum is two or more. For pictures kept as bytes the same holds, and they keep their size.
-/
theorem paint_exact (x y : UInt8) (rows : List UInt8) :
    (∀ screen : Screen,
      (∀ cx < 64, ∀ cy < 32, ((screen.paint x y rows).1.get cx cy).toNat =
        ((screen.get cx cy).toNat + Screen.hits x.toNat y.toNat rows cx cy) % 2) ∧
      ((screen.paint x y rows).2 = true ↔ ∃ cx < 64, ∃ cy < 32,
        2 ≤ (screen.get cx cy).toNat + Screen.hits x.toNat y.toNat rows cx cy)) ∧
    (∀ b : Bitmap, b.Binary →
      (∀ cx < 64, ∀ cy < 32, ((b.paint x y rows).1.get cx cy).toNat =
        ((b.get cx cy).toNat + Screen.hits x.toNat y.toNat rows cx cy) % 2) ∧
      ((b.paint x y rows).2 = true ↔ ∃ cx < 64, ∃ cy < 32,
        2 ≤ (b.get cx cy).toNat + Screen.hits x.toNat y.toNat rows cx cy) ∧
      (b.paint x y rows).1.Binary) := by
  refine ⟨fun screen => ⟨fun cx hx cy hy => screen.toNat_get_paint x y rows hx hy,
    screen.paint_snd_iff x y rows⟩, ?_⟩
  intro b binary
  obtain ⟨screen, rfl⟩ := binary.exists_screen
  rw [Bitmap.paint_ofScreen]
  simp only [Bitmap.ofState, Bitmap.toNat_get_ofScreen]
  exact ⟨fun cx hx cy hy => screen.toNat_get_paint x y rows hx hy, screen.paint_snd_iff x y rows,
    Bitmap.binary_ofScreen _⟩

/-- A column of 33 rows comes back to the row it started from and puts it out again. The row below
was on before, and goes out as well. -/
theorem paint_exact_wrapped :
    (63 < 64 ∧ 31 < 32 ∧ 0 < 32) ∧
    (Bitmap.ofScreen (Screen.blank.flip (Screen.place 63 0))).Binary ∧
    Screen.hits 63 31 (List.replicate 33 0x80) 63 31 = 2 ∧
    ((Screen.blank.paint 63 31 (List.replicate 33 0x80)).1.get 63 31).toNat = 0 ∧
    (Screen.blank.paint 63 31 (List.replicate 33 0x80)).2 = true ∧
    (((Bitmap.ofScreen (Screen.blank.flip (Screen.place 63 0))).paint 63 31
      (List.replicate 33 0x80)).1.get 63 0).toNat = 0 ∧
    ((Bitmap.ofScreen (Screen.blank.flip (Screen.place 63 0))).paint 63 31
      (List.replicate 33 0x80)).1.Binary := by
  have twice : Screen.hits (63 : UInt8).toNat (31 : UInt8).toNat (List.replicate 33 0x80) 63 31 =
      2 := by decide +kernel
  have once : Screen.hits (63 : UInt8).toNat (31 : UInt8).toNat (List.replicate 33 0x80) 63 0 =
      1 := by decide +kernel
  have dark : (Screen.blank.get 63 31).toNat = 0 := by decide +kernel
  have lit : ((Bitmap.ofScreen (Screen.blank.flip (Screen.place 63 0))).get 63 0).toNat = 1 := by
    decide +kernel
  have binary := Bitmap.binary_ofScreen (Screen.blank.flip (Screen.place 63 0))
  obtain ⟨screens, bitmaps⟩ := paint_exact 63 31 (List.replicate 33 0x80)
  obtain ⟨cell, collision⟩ := screens .blank
  obtain ⟨cell', -, binary'⟩ := bitmaps _ binary
  refine ⟨by decide, binary, twice, ?_, ?_, ?_, binary'⟩
  · rw [cell 63 (by decide) 31 (by decide), dark, twice]
  · exact collision.mpr ⟨63, by decide, 31, by decide, by rw [dark, twice]⟩
  · rw [cell' 63 (by decide) 0 (by decide), lit, once]

/-! ## Order -/

/-- A sprite and the corner it is painted at. -/
structure Stroke where
  x : UInt8
  y : UInt8
  rows : List UInt8

/-- Paints one sprite after the other, and tells of each whether it put out a cell. -/
def Screen.paintAll (screen : Screen) : List Stroke → Screen × List Bool
  | [] => (screen, [])
  | stroke :: strokes =>
    let (screen, hit) := screen.paint stroke.x stroke.y stroke.rows
    let (screen, hits) := screen.paintAll strokes
    (screen, hit :: hits)

/-- Paints one sprite after the other on a picture in bytes. -/
def Bitmap.paintAll (b : Bitmap) : List Stroke → Bitmap × List Bool
  | [] => (b, [])
  | stroke :: strokes =>
    let (b, hit) := b.paint stroke.x stroke.y stroke.rows
    let (b, hits) := b.paintAll strokes
    (b, hit :: hits)

/-- The cells that a sprite flips. -/
def Stroke.cells (stroke : Stroke) : List (Fin 2048) :=
  Screen.sprite stroke.x.toNat stroke.y.toNat stroke.rows

theorem Bitmap.paintAll_ofScreen (screen : Screen) (strokes : List Stroke) :
    (ofScreen screen).paintAll strokes =
      (ofScreen (screen.paintAll strokes).1, (screen.paintAll strokes).2) := by
  induction strokes generalizing screen with
  | nil => rfl
  | cons stroke strokes ih =>
    simp only [paintAll, Screen.paintAll, paint_ofScreen, ofState, ih]

namespace Screen

/-- A collision noted before the flips stays noted. -/
theorem foldl_paintCell_noted (cells : List (Fin 2048)) (screen : Screen) (hit : Bool) :
    cells.foldl paintCell (screen, hit) =
      ((cells.foldl paintCell (screen, false)).1,
        hit || (cells.foldl paintCell (screen, false)).2) := by
  refine Prod.ext (by rw [foldl_paintCell_fst, foldl_paintCell_fst]) (Bool.eq_iff_iff.mpr ?_)
  rw [foldl_paintCell_snd, Bool.or_eq_true, foldl_paintCell_snd]
  simp

/-- Painting sprite after sprite is flipping the cells of all of them in a row. -/
theorem paintAll_eq_foldl (screen : Screen) (strokes : List Stroke) :
    ((screen.paintAll strokes).1, (screen.paintAll strokes).2.any id) =
      (strokes.flatMap Stroke.cells).foldl paintCell (screen, false) := by
  induction strokes generalizing screen with
  | nil => rfl
  | cons stroke strokes ih =>
    have first : stroke.cells.foldl paintCell (screen, false) =
        screen.paint stroke.x stroke.y stroke.rows := rfl
    rw [List.flatMap_cons, List.foldl_append, first,
      foldl_paintCell_noted _ (screen.paint stroke.x stroke.y stroke.rows).1, ← ih]
    rfl

variable {strokes strokes' : List Stroke} (perm : strokes.Perm strokes') (screen : Screen)
include perm

theorem paintAll_perm :
    (screen.paintAll strokes').1 = (screen.paintAll strokes).1 ∧
      (screen.paintAll strokes').2.any id = (screen.paintAll strokes).2.any id := by
  have same := foldl_paintCell_perm (perm.flatMap_right Stroke.cells) screen false
  rw [← paintAll_eq_foldl, ← paintAll_eq_foldl] at same
  exact Prod.ext_iff.mp same.symm

theorem paintAll_twice : (screen.paintAll (strokes ++ strokes')).1 = screen := by
  have painted := congrArg Prod.fst (screen.paintAll_eq_foldl (strokes ++ strokes'))
  rw [foldl_paintCell_fst, List.flatMap_append] at painted
  exact painted.trans (foldl_flip_twice (perm.flatMap_right Stroke.cells) screen)

end Screen

/--
**Paints commute and cancel.**

Sprites painted in another order leave the same picture, and if one of them reports a collision in
the one order, then one of them does in the other, though it may be another one. Painting all of
them a second time, in any order, gives the first picture back.
-/
theorem paints_commute_and_cancel {strokes strokes' : List Stroke}
    (perm : strokes.Perm strokes') :
    (∀ screen : Screen,
      (screen.paintAll strokes').1 = (screen.paintAll strokes).1 ∧
      (screen.paintAll strokes').2.any id = (screen.paintAll strokes).2.any id ∧
      (screen.paintAll (strokes ++ strokes')).1 = screen) ∧
    (∀ b : Bitmap, b.Binary →
      (b.paintAll strokes').1 = (b.paintAll strokes).1 ∧
      (b.paintAll strokes').2.any id = (b.paintAll strokes).2.any id ∧
      (b.paintAll (strokes ++ strokes')).1 = b) := by
  have screens : ∀ screen : Screen,
      (screen.paintAll strokes').1 = (screen.paintAll strokes).1 ∧
      (screen.paintAll strokes').2.any id = (screen.paintAll strokes).2.any id ∧
      (screen.paintAll (strokes ++ strokes')).1 = screen := by
    intro screen
    obtain ⟨picture, collision⟩ := screen.paintAll_perm perm
    exact ⟨picture, collision, screen.paintAll_twice perm⟩
  refine ⟨screens, ?_⟩
  intro b binary
  obtain ⟨screen, rfl⟩ := binary.exists_screen
  obtain ⟨picture, collision, restored⟩ := screens screen
  simp only [Bitmap.paintAll_ofScreen]
  exact ⟨by rw [picture], collision, by rw [restored]⟩

/-- Which sprite reports the collision depends on the order. -/
theorem paints_commute_and_cancel_overlapping :
    [Stroke.mk 63 31 [0xC0], ⟨0, 31, [0x80]⟩, ⟨1, 31, [0x80]⟩].Perm
      [⟨0, 31, [0x80]⟩, ⟨1, 31, [0x80]⟩, ⟨63, 31, [0xC0]⟩] ∧
    (Screen.blank.paintAll [⟨63, 31, [0xC0]⟩, ⟨0, 31, [0x80]⟩, ⟨1, 31, [0x80]⟩]).2 =
      [false, true, false] ∧
    (Screen.blank.paintAll [⟨0, 31, [0x80]⟩, ⟨1, 31, [0x80]⟩, ⟨63, 31, [0xC0]⟩]).2 =
      [false, false, true] ∧
    (Screen.blank.paintAll [⟨0, 31, [0x80]⟩, ⟨1, 31, [0x80]⟩, ⟨63, 31, [0xC0]⟩]).1 =
      (Screen.blank.paintAll [⟨63, 31, [0xC0]⟩, ⟨0, 31, [0x80]⟩, ⟨1, 31, [0x80]⟩]).1 ∧
    Bitmap.blank.Binary ∧
    (Bitmap.blank.paintAll ([⟨63, 31, [0xC0]⟩, ⟨0, 31, [0x80]⟩, ⟨1, 31, [0x80]⟩] ++
      [⟨0, 31, [0x80]⟩, ⟨1, 31, [0x80]⟩, ⟨63, 31, [0xC0]⟩])).1 = .blank := by
  have perm : [Stroke.mk 63 31 [0xC0], ⟨0, 31, [0x80]⟩, ⟨1, 31, [0x80]⟩].Perm
      [⟨0, 31, [0x80]⟩, ⟨1, 31, [0x80]⟩, ⟨63, 31, [0xC0]⟩] :=
    (List.Perm.swap ..).trans (.cons _ (.swap ..))
  have binary : Bitmap.blank.Binary := by
    rw [Bitmap.blank_eq_ofScreen]
    exact Bitmap.binary_ofScreen .blank
  obtain ⟨screens, bitmaps⟩ := paints_commute_and_cancel perm
  exact ⟨perm, by decide +kernel, by decide +kernel, (screens .blank).1, binary,
    (bitmaps .blank binary).2.2⟩

end Chip8
