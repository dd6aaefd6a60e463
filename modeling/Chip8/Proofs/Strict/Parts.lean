import Chip8.Proofs.Run

/-!
# The parts of a machine, read strictly

A second reading of what the parts of a machine do, in which nothing wraps around by itself: a sum
or product has to fit its type, a difference must not go below zero, a shift has to stay below the
width of what is shifted, and a place has to be there. The first check that fails ends everything,
and the reading is `none`. What is meant to wrap or to stop at zero is written as such, and what is
meant to be refused still is.

Beside each definition stands the equation that says it comes to what the part itself does, and so
never ends. For the operations of a machine the sums are small; for memory by itself they may not
be, and the equations say up to where they hold.
-/

namespace Chip8.Strict

/-! ## Numbers -/

/-- A number that has to stay below a bound. -/
def below (bound n : Nat) : Option Nat := if n < bound then some n else none

/-- A size or place, kept in 64 bits. -/
def size (n : Nat) : Option Nat := below 0x10000000000000000 n

/-- An address, kept in 16 bits. -/
def word (n : Nat) : Option UInt16 := (below 0x10000 n).map .ofNat

/-- A difference, which must not go below zero. -/
def less (a b : Nat) : Option Nat := if b ≤ a then some (a - b) else none

/-- A byte shifted to the left. -/
def shiftLeft (v : UInt8) (k : Nat) : Option UInt8 := (below 8 k).map fun k => v <<< .ofNat k

/-- A byte shifted to the right. -/
def shiftRight (v : UInt8) (k : Nat) : Option UInt8 := (below 8 k).map fun k => v >>> .ofNat k

/-- A word shifted to the right. -/
def shiftRightWord (w : UInt16) (k : Nat) : Option UInt16 :=
  (below 16 k).map fun k => w >>> .ofNat k

theorem below_of_lt {bound n : Nat} (h : n < bound) : below bound n = some n := if_pos h

theorem size_of_lt {n : Nat} (h : n < 0x10000000000000000) : size n = some n := below_of_lt h

theorem word_of_lt {n : Nat} (h : n < 0x10000) : word n = some (.ofNat n) := by
  rw [word, below_of_lt h, Option.map_some]

theorem less_of_le {a b : Nat} (h : b ≤ a) : less a b = some (a - b) := if_pos h

theorem shiftLeft_of_lt (v : UInt8) {k : Nat} (h : k < 8) :
    shiftLeft v k = some (v <<< .ofNat k) := by
  rw [shiftLeft, below_of_lt h, Option.map_some]

theorem shiftRight_of_lt (v : UInt8) {k : Nat} (h : k < 8) :
    shiftRight v k = some (v >>> .ofNat k) := by
  rw [shiftRight, below_of_lt h, Option.map_some]

theorem shiftRightWord_of_lt (w : UInt16) {k : Nat} (h : k < 16) :
    shiftRightWord w k = some (w >>> .ofNat k) := by
  rw [shiftRightWord, below_of_lt h, Option.map_some]

/-! ## Places -/

/-- Puts a value at a place, which has to be there. -/
def put {α : Type} {n : Nat} (xs : Vector α n) (i : Nat) (v : α) : Option (Vector α n) :=
  if h : i < n then some (xs.set i v h) else none

theorem put_of_lt {α : Type} {n : Nat} (xs : Vector α n) {i : Nat} (h : i < n) (v : α) :
    put xs i v = some (xs.set i v h) := dif_pos h

/-- The low four bits of a byte, as the place of a register or key. -/
def nibble (b : UInt8) : Nat := (b &&& 0xF).toNat

@[simp] theorem nibble_eq (b : UInt8) : nibble b = (lowNibble b).val := by
  rw [nibble, UInt8.toNat_and]
  exact Nat.and_two_pow_sub_one_eq_mod b.toNat 4

/-! ## Memory -/

section Memory

variable (mem : Memory)

/-- Copies bytes over the places from `start` up to `stop`, which have to be there and to be as
many. -/
def copy (start stop : Nat) (bytes : List UInt8) : Option Memory :=
  if start ≤ stop ∧ stop ≤ Memory.size ∧ stop - start = bytes.length then
    some (mem.putAll start bytes)
  else none

theorem copy_of_length {start stop : Nat} {bytes : List UInt8} (many : start + bytes.length = stop)
    (inside : stop ≤ Memory.size) : copy mem start stop bytes = some (mem.putAll start bytes) :=
  if_pos ⟨by omega, inside, by omega⟩

/-- Memory with the digits in place. -/
def freshMemory : Option Memory := do
  let stop ← size (Memory.fontStart.toNat + Memory.font.length)
  copy ⟨Vector.replicate 4096 0⟩ Memory.fontStart.toNat stop Memory.font

@[simp] theorem freshMemory_eq : freshMemory = some Memory.fresh := by
  rw [freshMemory, size_of_lt (by decide), Option.bind_eq_bind, Option.bind_some]
  exact copy_of_length _ rfl (by decide)

/-- Where the picture of a digit stands. -/
def glyphAddr (digit : UInt8) : Option UInt16 := do
  let offset ← word (nibble digit * Memory.glyphSize)
  word (Memory.fontStart.toNat + offset.toNat)

@[simp] theorem glyphAddr_eq (digit : UInt8) : glyphAddr digit = some (Memory.glyphAddr digit) := by
  have digit_lt := lowNibble_lt digit
  have picture : word ((lowNibble digit).val * Memory.glyphSize) =
      some (.ofNat ((lowNibble digit).val * 5)) :=
    word_of_lt (show (lowNibble digit).val * 5 < 0x10000 by omega)
  have offset : (UInt16.ofNat ((lowNibble digit).val * 5)).toNat = digit.toNat % 16 * 5 := by
    show (UInt16.ofNat (digit.toNat % 16 * 5)).toNat = _
    rw [UInt16.toNat_ofNat']
    omega
  have start : Memory.fontStart.toNat = 0x050 := rfl
  rw [glyphAddr, nibble_eq, picture, Option.bind_eq_bind, Option.bind_some, offset,
    word_of_lt (by omega), Memory.glyphAddr]
  refine congrArg some (UInt16.toNat_inj.mp ?_)
  simp only [UInt16.toNat_ofNat', UInt16.toNat_add, UInt16.toNat_mul, UInt8.toNat_toUInt16,
    UInt8.toNat_mod, UInt8.reduceToNat, UInt16.reduceToNat, start]
  omega

/-- Writes bytes from an offset on. A sum too large for its type is refused like any other past the
end. -/
def load (bytes : List UInt8) (offset : Nat) : Option (Except Fault Memory) :=
  match (size (offset + bytes.length)).filter (· ≤ Memory.size) with
  | some stop => (copy mem offset stop bytes).map .ok
  | none => some (.error (.outOfBounds offset bytes.length))

@[simp] theorem load_eq (bytes : List UInt8) (offset : Nat) :
    load mem bytes offset = some (mem.load bytes offset) := by
  unfold load Memory.load
  by_cases fits : offset + bytes.length ≤ Memory.size
  · have : Memory.size = 4096 := rfl
    rw [size_of_lt (by omega), Option.filter_some, if_pos (decide_eq_true fits), if_pos fits]
    simp only [copy_of_length mem rfl fits, Option.map_some]
  · have past : (size (offset + bytes.length)).filter (· ≤ Memory.size) = none := by
      unfold size below
      split <;> simp [Option.filter_some]
      omega
    rw [past, if_neg fits]

/-- The places of `len` bytes from an address on: the first, and the one behind the last. -/
def places (addr : UInt16) (len : Nat) : Option (Except Fault (Nat × Nat)) := do
  let stop ← size (addr.toNat + len)
  return if stop ≤ Memory.size then .ok (addr.toNat, stop) else .error (.outOfBounds addr.toNat len)

theorem places_eq {addr : UInt16} {len : Nat} (sum : addr.toNat + len < 0x10000000000000000) :
    places addr len = some (if addr.toNat + len ≤ Memory.size then
      .ok (addr.toNat, addr.toNat + len) else .error (.outOfBounds addr.toNat len)) := by
  rw [places, size_of_lt sum]
  rfl

/-- The `len` bytes from an address on. -/
def slice (addr : UInt16) (len : Nat) : Option (Except Fault (List UInt8)) := do
  match ← places addr len with
  | .ok (start, stop) => return .ok ((List.range' start (stop - start)).map mem.byte)
  | .error fault => return .error fault

theorem slice_eq {addr : UInt16} {len : Nat} (sum : addr.toNat + len < 0x10000000000000000) :
    slice mem addr len = some (mem.slice addr len) := by
  rw [slice, places_eq sum, Memory.slice]
  by_cases inside : addr.toNat + len ≤ Memory.size
  · simp only [if_pos inside, Option.bind_eq_bind, Option.bind_some, Nat.add_sub_cancel_left,
      List.range'_eq_map_range, List.map_map]
    rfl
  · simp only [if_neg inside, Option.bind_eq_bind, Option.bind_some]
    rfl

end Memory

/-! ## Registers and keys -/

section Registers

variable (regs : Registers)

/-- The value of a register. -/
def getReg (r : UInt8) : Option UInt8 := regs.values[nibble r]?

/-- Sets a register. -/
def setReg (r v : UInt8) : Option Registers := (put regs.values (nibble r) v).map .mk

/-- Sets the flag to one or zero. -/
def setFlag (on : Bool) : Option Registers := setReg regs Registers.flag (if on then 1 else 0)

/-- Sets the registers from number `r` on, one to each byte. -/
def setAll (regs : Registers) (r : Nat) : List UInt8 → Option Registers
  | [] => some regs
  | b :: bs => do setAll (← setReg regs (.ofNat r) b) (r + 1) bs

/-- The values of the first `count` registers. -/
def take (count : Nat) : Option (List UInt8) :=
  (List.range count).mapM fun r => getReg regs (.ofNat r)

@[simp] theorem getReg_eq (r : UInt8) : getReg regs r = some (regs.get r) := by
  rw [getReg, nibble_eq]
  exact Vector.getElem?_eq_getElem (lowNibble_lt r)

@[simp] theorem setReg_eq (r v : UInt8) : setReg regs r v = some (regs.set r v) := by
  rw [setReg, nibble_eq, put_of_lt regs.values (lowNibble_lt r)]
  rfl

@[simp] theorem setFlag_eq (on : Bool) : setFlag regs on = some (regs.setFlag on) :=
  setReg_eq regs Registers.flag _

@[simp] theorem setAll_eq (r : Nat) (bytes : List UInt8) :
    setAll regs r bytes = some (regs.setAll r bytes) := by
  induction bytes generalizing regs r with
  | nil => rfl
  | cons b bs ih => rw [setAll, setReg_eq, Option.bind_eq_bind, Option.bind_some, ih]; rfl

@[simp] theorem take_eq (count : Nat) : take regs count = some (regs.take count) := by
  simp only [take, getReg_eq]
  exact List.mapM_pure

end Registers

section Keypad

variable (pad : Keypad)

/-- Whether a key is down. -/
def isPressed (key : UInt8) : Option Bool := pad.keys[nibble key]?

/-- Puts a key down or lets it up. -/
def setKey (key : UInt8) (down : Bool) : Option Keypad := (put pad.keys (nibble key) down).map .mk

/-- The keypad after a change of keys. -/
def change : KeyChange → Option Keypad
  | .press key => setKey pad key true
  | .release key => setKey pad key false
  | .setAll keys => some ⟨keys⟩
  | .releaseAll => some .released

@[simp] theorem isPressed_eq (key : UInt8) : isPressed pad key = some (pad.isPressed key) := by
  rw [isPressed, nibble_eq]
  exact Vector.getElem?_eq_getElem (lowNibble_lt key)

@[simp] theorem change_eq (keys : KeyChange) : change pad keys = some (pad.change keys) := by
  cases keys with
  | press key =>
    rw [change, setKey, nibble_eq, put_of_lt pad.keys (lowNibble_lt key)]
    rfl
  | release key =>
    rw [change, setKey, nibble_eq, put_of_lt pad.keys (lowNibble_lt key)]
    rfl
  | setAll keys => rfl
  | releaseAll => rfl

end Keypad

/-! ## Timers -/

/-- One tick. Only the sound countdown is taken one from by hand. -/
def tick (timers : Timers) : Option (Bool × Timers) := do
  let delay := Timers.countDown timers.delay
  if 0 < timers.sound then
    let sound ← less timers.sound.toNat 1
    return (true, { delay, sound := .ofNat sound })
  else return (false, { timers with delay })

@[simp] theorem tick_eq (timers : Timers) : tick timers = some timers.tick := by
  obtain ⟨delay, sound⟩ := timers
  by_cases silent : sound = 0
  · subst silent
    rfl
  · have running : 0 < sound.toNat := by
      rw [Nat.pos_iff_ne_zero]
      exact fun h => silent (UInt8.toNat_inj.mp h)
    have level : Timers.isBeeping ⟨delay, sound⟩ = true := decide_eq_true silent
    have down : UInt8.ofNat (sound.toNat - 1) = Timers.countDown sound := by
      refine UInt8.toNat_inj.mp ?_
      rw [Timers.toNat_countDown, UInt8.toNat_ofNat']
      have := sound.toNat_lt
      omega
    have one_less : less sound.toNat 1 = some (sound.toNat - 1) := less_of_le running
    simp only [tick, if_pos (show 0 < sound from running), one_less, Option.bind_eq_bind,
      Option.bind_some, down, Timers.tick, level]
    rfl

/-! ## Painting -/

/-- Paints the `j`-th bit of a sprite row from the left onto row `ny` of the screen. -/
def paintBit (x : UInt8) (ny : Nat) (row : UInt8) (state : Screen × Bool) (j : Nat) :
    Option (Screen × Bool) := do
  let bit := (← shiftRight row (← less 7 j)) &&& 1
  if bit = 0 then return state
  let nx := (← size (x.toNat + j)) % Screen.width
  let index ← size ((← size (ny * Screen.width)) + nx)
  let lit ← state.1.cells[index]?
  return (⟨← put state.1.cells index (!lit)⟩, state.2 || lit)

/-- Paints sprite rows, the first of them `i` rows below the corner. -/
def paintRows (x y : UInt8) (i : Nat) : List UInt8 → Screen × Bool → Option (Screen × Bool)
  | [], state => some state
  | row :: rows, state => do
    let ny := (← size (y.toNat + i)) % Screen.height
    paintRows x y (i + 1) rows (← (List.range 8).foldlM (paintBit x ny row) state)

/-- Paints a sprite and tells whether it put out a cell that was on. -/
def paint (screen : Screen) (x y : UInt8) (bytes : List UInt8) : Option (Screen × Bool) :=
  paintRows x y 0 bytes (screen, false)

/-- The bit that is looked at is a set bit of the row or not. -/
theorem shifted_eq_zero_iff (row : UInt8) {k : Nat} (h : k < 8) :
    row >>> .ofNat k &&& 1 = 0 ↔ row.toNat.testBit k = false := by
  rw [← UInt8.toNat_inj, UInt8.toNat_and, UInt8.toNat_shiftRight, UInt8.toNat_ofNat',
    Nat.mod_eq_of_lt (show k < 2 ^ 8 by omega), Nat.mod_eq_of_lt h,
    Nat.testBit_eq_decide_div_mod_eq, Nat.shiftRight_eq_div_pow, decide_eq_false_iff_not]
  show row.toNat / 2 ^ k &&& 1 = 0 ↔ _
  rw [Nat.and_one_is_mod]
  omega

theorem paintBit_eq (x : UInt8) (ny : Nat) (row : UInt8) (state : Screen × Bool) {j : Nat}
    (column : j < 8) (inside : ny < Screen.height) :
    paintBit x ny row state j = some (if row.toNat.testBit (7 - j) then
      Screen.paintCell state (Screen.place (x.toNat + j) ny) else state) := by
  have x_lt := x.toNat_lt
  have tall : Screen.height = 32 := rfl
  have right_lt : (x.toNat + j) % Screen.width < 64 := Nat.mod_lt _ (by decide)
  simp only [paintBit, less_of_le (show j ≤ 7 by omega), Option.bind_eq_bind, Option.bind_some,
    shiftRight_of_lt row (show 7 - j < 8 by omega)]
  by_cases off : row >>> .ofNat (7 - j) &&& 1 = 0
  · rw [if_pos off, if_neg (by simp [(shifted_eq_zero_iff row (show 7 - j < 8 by omega)).mp off])]
    rfl
  · have on : row.toNat.testBit (7 - j) = true := by
      rw [← Bool.not_eq_false]
      exact fun h => off ((shifted_eq_zero_iff row (show 7 - j < 8 by omega)).mpr h)
    have below_row : ny * Screen.width ≤ 31 * 64 :=
      Nat.mul_le_mul (show ny ≤ 31 by omega) (Nat.le_refl 64)
    have there : ny * Screen.width + (x.toNat + j) % Screen.width < 2048 := by omega
    have same : ny * Screen.width + (x.toNat + j) % Screen.width =
        (Screen.place (x.toNat + j) ny).val := by
      show _ = ny % Screen.height * Screen.width + _
      rw [Nat.mod_eq_of_lt inside]
    rw [if_neg off, if_pos on, size_of_lt (by omega)]
    simp only [Option.bind_some, size_of_lt (Nat.lt_of_le_of_lt below_row (by decide)),
      size_of_lt (Nat.lt_trans there (by decide)), Vector.getElem?_eq_getElem there,
      put_of_lt state.1.cells there]
    simp only [same]
    rfl

theorem paintRow_eq (x : UInt8) (ny : Nat) (row : UInt8) (state : Screen × Bool)
    (inside : ny < Screen.height) :
    (List.range 8).foldlM (paintBit x ny row) state =
      some (((Screen.setBits row).map fun j => Screen.place (x.toNat + j) ny).foldl
        Screen.paintCell state) := by
  rw [List.foldl_map, Screen.setBits, List.foldl_filter]
  have bits : ∀ columns : List Nat, (∀ j ∈ columns, j < 8) → ∀ state,
      columns.foldlM (paintBit x ny row) state =
        some (columns.foldl (fun state j => if row.toNat.testBit (7 - j) then
          Screen.paintCell state (Screen.place (x.toNat + j) ny) else state) state) := by
    intro columns hcolumns
    induction columns with
    | nil => exact fun state => rfl
    | cons j columns ih =>
      intro state
      rw [List.foldlM_cons, paintBit_eq x ny row state (hcolumns j List.mem_cons_self) inside]
      exact ih (fun k hk => hcolumns k (List.mem_cons_of_mem j hk)) _
  exact bits _ (fun j hj => List.mem_range.mp hj) state

theorem paintRows_eq (x y : UInt8) (rows : List UInt8) {i : Nat} (short : i + rows.length ≤ 0x100)
    (state : Screen × Bool) :
    paintRows x y i rows state =
      some ((Screen.sprite x.toNat (y.toNat + i) rows).foldl Screen.paintCell state) := by
  induction rows generalizing i state with
  | nil => rfl
  | cons row rows ih =>
    have y_lt := y.toNat_lt
    rw [List.length_cons] at short
    have around : ∀ j, Screen.place (x.toNat + j) ((y.toNat + i) % Screen.height) =
        Screen.place (x.toNat + j) (y.toNat + i) := by
      intro j
      exact Fin.ext (by simp [Screen.place])
    simp only [paintRows, size_of_lt (show y.toNat + i < _ by omega), Option.bind_eq_bind,
      Option.bind_some, paintRow_eq x _ row state (Nat.mod_lt _ (show 0 < Screen.height by decide)),
      ih (show i + 1 + rows.length ≤ 0x100 by omega), around, Screen.sprite, List.foldl_append,
      Nat.add_assoc]

theorem paint_eq (screen : Screen) (x y : UInt8) {bytes : List UInt8}
    (short : bytes.length ≤ 0x100) : paint screen x y bytes = some (screen.paint x y bytes) := by
  rw [paint, paintRows_eq x y bytes (by omega)]
  rfl

end Chip8.Strict
