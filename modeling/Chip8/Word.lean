import Chip8.Form

/-!
# Instruction words

An instruction is one 16-bit word, stored with its high byte first. Its four hexadecimal digits are
the fields that instructions are told apart by and take their operands from: the family `F...`, the
register numbers `.X..` and `..Y.`, the digit `...N`, the byte `..NN` and the address `.NNN`.
-/

namespace Chip8.Word

/-! ## Fields -/

/-- The leading digit. -/
def family (word : UInt16) : UInt8 := (word / 0x1000).toUInt8

/-- The second digit, a register number. -/
def x (word : UInt16) : UInt8 := (word / 0x100 % 0x10).toUInt8

/-- The third digit, a register number. -/
def y (word : UInt16) : UInt8 := (word / 0x10 % 0x10).toUInt8

/-- The last digit. -/
def n (word : UInt16) : UInt8 := (word % 0x10).toUInt8

/-- The low byte. -/
def nn (word : UInt16) : UInt8 := (word % 0x100).toUInt8

/-- The low twelve bits, an address. -/
def nnn (word : UInt16) : UInt16 := word % 0x1000

@[simp] theorem toNat_family (word : UInt16) : (family word).toNat = word.toNat / 0x1000 := by
  have := word.toNat_lt
  simp only [family, UInt16.toNat_toUInt8, UInt16.toNat_div, UInt16.reduceToNat]
  omega

@[simp] theorem toNat_x (word : UInt16) : (x word).toNat = word.toNat / 0x100 % 0x10 := by
  simp only [x, UInt16.toNat_toUInt8, UInt16.toNat_div, UInt16.toNat_mod, UInt16.reduceToNat]
  omega

theorem toNat_x_lt (word : UInt16) : (x word).toNat < 16 := by
  rw [toNat_x]
  omega

@[simp] theorem toNat_y (word : UInt16) : (y word).toNat = word.toNat / 0x10 % 0x10 := by
  simp only [y, UInt16.toNat_toUInt8, UInt16.toNat_div, UInt16.toNat_mod, UInt16.reduceToNat]
  omega

@[simp] theorem toNat_n (word : UInt16) : (n word).toNat = word.toNat % 0x10 := by
  simp only [n, UInt16.toNat_toUInt8, UInt16.toNat_mod, UInt16.reduceToNat]
  omega

@[simp] theorem toNat_nn (word : UInt16) : (nn word).toNat = word.toNat % 0x100 := by
  simp only [nn, UInt16.toNat_toUInt8, UInt16.toNat_mod, UInt16.reduceToNat]
  omega

@[simp] theorem toNat_nnn (word : UInt16) : (nnn word).toNat = word.toNat % 0x1000 := by
  simp only [nnn, UInt16.toNat_mod, UInt16.reduceToNat]

/-! ## Bytes -/

/-- The word whose high byte is `hi` and low byte `lo`. -/
def ofBytes (hi lo : UInt8) : UInt16 := hi.toUInt16 * 0x100 + lo.toUInt16

/-- The high byte. -/
def hi (word : UInt16) : UInt8 := (word / 0x100).toUInt8

@[simp] theorem toNat_ofBytes (hi lo : UInt8) :
    (ofBytes hi lo).toNat = 0x100 * hi.toNat + lo.toNat := by
  have := hi.toNat_lt
  have := lo.toNat_lt
  simp only [ofBytes, UInt16.toNat_add, UInt16.toNat_mul, UInt8.toNat_toUInt16, UInt16.reduceToNat]
  omega

@[simp] theorem toNat_hi (word : UInt16) : (hi word).toNat = word.toNat / 0x100 := by
  have := word.toNat_lt
  simp only [hi, UInt16.toNat_toUInt8, UInt16.toNat_div, UInt16.reduceToNat]
  omega

/-- A word is made of its two bytes. -/
theorem ofBytes_hi_nn (word : UInt16) : ofBytes (hi word) (nn word) = word := by
  apply UInt16.toNat_inj.mp
  simp only [toNat_ofBytes, toNat_hi, toNat_nn]
  omega

/-- The inspection form of a word that is taken for an instruction. -/
def form (word : UInt16) : Form := .record "RawInstruction" [.field "code" (.nat word.toNat)]

end Chip8.Word
