import Chip8.Fault
import Chip8.Word

/-!
# Memory

A flat space of 4096 bytes. The sixteen hexadecimal digits stand as five-byte pictures from `0x050`
on, programs from `0x200` on. Every access is checked against the size before anything is read or
written, so an operation that fails has done nothing.

`byte` is the view the operations are described by; `byte_put` and `byte_putAll` say what writing
does to it.
-/

namespace Chip8

/-- The bytes of a machine. -/
structure Memory where
  cells : Vector UInt8 4096
  deriving DecidableEq

namespace Memory

/-- The number of bytes. -/
abbrev size : Nat := 4096

/-- Where programs start. -/
def programStart : UInt16 := 0x200

/-- Where the pictures of the digits start. -/
def fontStart : UInt16 := 0x050

/-- The bytes of one digit's picture. -/
def glyphSize : Nat := 5

/-- The pictures of the digits `0` to `F`, a byte for each row of eight pixels. -/
def font : List UInt8 :=
  [0xF0, 0x90, 0x90, 0x90, 0xF0,
   0x20, 0x60, 0x20, 0x20, 0x70,
   0xF0, 0x10, 0xF0, 0x80, 0xF0,
   0xF0, 0x10, 0xF0, 0x10, 0xF0,
   0x90, 0x90, 0xF0, 0x10, 0x10,
   0xF0, 0x80, 0xF0, 0x10, 0xF0,
   0xF0, 0x80, 0xF0, 0x90, 0xF0,
   0xF0, 0x10, 0x20, 0x40, 0x40,
   0xF0, 0x90, 0xF0, 0x90, 0xF0,
   0xF0, 0x90, 0xF0, 0x10, 0xF0,
   0xF0, 0x90, 0xF0, 0x90, 0x90,
   0xE0, 0x90, 0xE0, 0x90, 0xE0,
   0xF0, 0x80, 0x80, 0x80, 0xF0,
   0xE0, 0x90, 0x90, 0x90, 0xE0,
   0xF0, 0x80, 0xF0, 0x80, 0xF0,
   0xF0, 0x80, 0xF0, 0x80, 0x80]

/-! ## The view -/

/-- The byte at `a`, zero outside memory. -/
def byte (mem : Memory) (a : Nat) : UInt8 := mem.cells[a]?.getD 0

/-- Puts one byte; outside memory there is nowhere to put it. -/
def put (mem : Memory) (a : Nat) (b : UInt8) : Memory := ⟨mem.cells.setIfInBounds a b⟩

/-- Puts bytes one after the other, the first at `a`. -/
def putAll (mem : Memory) (a : Nat) : List UInt8 → Memory
  | [] => mem
  | b :: bs => (mem.put a b).putAll (a + 1) bs

theorem byte_eq_getElem (mem : Memory) {a : Nat} (h : a < size) : mem.byte a = mem.cells[a] := by
  simp [byte, h]

theorem byte_eq_zero_of_le (mem : Memory) {a : Nat} (h : size ≤ a) : mem.byte a = 0 := by
  simp [byte, Vector.getElem?_eq_none h]

/-- Memories with the same bytes are the same. -/
theorem ext_byte {mem mem' : Memory} (h : ∀ a < size, mem.byte a = mem'.byte a) : mem = mem' := by
  obtain ⟨cells⟩ := mem
  obtain ⟨cells'⟩ := mem'
  congr 1
  apply Vector.ext
  intro a ha
  have := h a ha
  rwa [byte_eq_getElem _ ha, byte_eq_getElem _ ha] at this

theorem byte_put (mem : Memory) (a : Nat) (b : UInt8) (i : Nat) :
    (mem.put a b).byte i = if i = a ∧ i < size then b else mem.byte i := by
  by_cases hi : i < size
  · simp only [byte_eq_getElem _ hi, put, Vector.getElem_setIfInBounds, hi, and_true, eq_comm]
  · rw [byte_eq_zero_of_le _ (by omega), byte_eq_zero_of_le _ (by omega)]
    simp [hi]

/-- Putting bytes changes the places from `a` on as far as the bytes reach, and no others. -/
theorem byte_putAll (bs : List UInt8) (mem : Memory) (a i : Nat) :
    (mem.putAll a bs).byte i =
      if a ≤ i ∧ i < a + bs.length ∧ i < size then bs.getD (i - a) 0 else mem.byte i := by
  induction bs generalizing mem a with
  | nil => simp [putAll]; omega
  | cons b bs ih =>
    rw [putAll, ih, byte_put, List.length_cons]
    by_cases hi : i < size
    · rcases Nat.lt_trichotomy i a with h | h | h
      · rw [if_neg (by omega), if_neg (by omega), if_neg (by omega)]
      · subst h
        rw [if_neg (by omega), if_pos (by omega), if_pos (by omega)]
        simp
      · obtain ⟨k, rfl⟩ : ∃ k, i = a + 1 + k := ⟨i - (a + 1), by omega⟩
        rw [if_neg (by omega : ¬(a + 1 + k = a ∧ _)), show a + 1 + k - a = k + 1 by omega,
          show a + 1 + k - (a + 1) = k by omega, List.getD_cons_succ]
        by_cases h' : k < bs.length
        · rw [if_pos (by omega), if_pos (by omega)]
        · rw [if_neg (by omega), if_neg (by omega)]
    · rw [if_neg (by omega), if_neg (by omega), if_neg (by omega)]

theorem byte_putAll_of_lt (mem : Memory) {bs : List UInt8} {a k : Nat}
    (fits : a + bs.length ≤ size) (h : k < bs.length) :
    (mem.putAll a bs).byte (a + k) = bs.getD k 0 := by
  rw [byte_putAll, if_pos (by omega), Nat.add_sub_cancel_left]

theorem byte_putAll_of_outside (mem : Memory) {bs : List UInt8} {a i : Nat}
    (h : i < a ∨ a + bs.length ≤ i) : (mem.putAll a bs).byte i = mem.byte i := by
  rw [byte_putAll, if_neg (by omega)]

/-! ## Fresh memory -/

/-- Memory with the digits in place and zeros everywhere else. -/
def fresh : Memory := putAll ⟨Vector.replicate 4096 0⟩ fontStart.toNat font

/-- Where the picture of a digit stands; only the low four bits count. -/
def glyphAddr (digit : UInt8) : UInt16 := fontStart + (digit % 0x10).toUInt16 * 5

/-! ## Checked access -/

/-- The byte at an address. -/
def read (mem : Memory) (addr : UInt16) : Except Fault UInt8 :=
  if addr.toNat < size then .ok (mem.byte addr.toNat) else .error (.invalidAddress addr)

/-- Writes the byte at an address. -/
def write (mem : Memory) (addr : UInt16) (b : UInt8) : Except Fault Memory :=
  if addr.toNat < size then .ok (mem.put addr.toNat b) else .error (.invalidAddress addr)

/-- The word at an address, high byte first. -/
def readWord (mem : Memory) (addr : UInt16) : Except Fault UInt16 := do
  let hi ← mem.read addr
  let lo ← mem.read (addr + 1)
  return Word.ofBytes hi lo

/-- The `len` bytes from an address on. -/
def slice (mem : Memory) (addr : UInt16) (len : Nat) : Except Fault (List UInt8) :=
  if addr.toNat + len ≤ size then .ok ((List.range len).map fun k => mem.byte (addr.toNat + k))
  else .error (.outOfBounds addr.toNat len)

/-- Writes bytes from an offset on, all of them or none. -/
def load (mem : Memory) (bytes : List UInt8) (offset : Nat) : Except Fault Memory :=
  if offset + bytes.length ≤ size then .ok (mem.putAll offset bytes)
  else .error (.outOfBounds offset bytes.length)

/-- Writes the same byte to `len` places from an address on, all of them or none. -/
def fill (mem : Memory) (addr : UInt16) (len : Nat) (b : UInt8) : Except Fault Memory :=
  if addr.toNat + len ≤ size then mem.load (List.replicate len b) addr.toNat
  else .error (.outOfBounds addr.toNat len)

end Memory

end Chip8
