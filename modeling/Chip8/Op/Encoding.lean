import Chip8.Op
import Chip8.Word

/-!
# The words of operations

`decode` reads a word as an operation; the leading digit decides, and where several operations share
it the last digit, the low byte or the whole word. `encode` writes an operation as its word; what
was read from a word is written as that word again.
-/

namespace Chip8.Op

/-! ## Reading -/

/-- The operation a word stands for. -/
def decode (word : UInt16) : Op :=
  let x := Word.x word
  let y := Word.y word
  let nn := Word.nn word
  let nnn := Word.nnn word
  match (Word.family word).toNat with
  | 0x0 => if word = 0x00E0 then .clear else if word = 0x00EE then .ret else .unknown word
  | 0x1 => .jump nnn
  | 0x2 => .call nnn
  | 0x3 => .skipIfByte x nn
  | 0x4 => .skipUnlessByte x nn
  | 0x5 => if (Word.n word).toNat = 0 then .skipIfSame x y else .unknown word
  | 0x6 => .setByte x nn
  | 0x7 => .addByte x nn
  | 0x8 =>
    match (Word.n word).toNat with
    | 0x0 => .copy x y
    | 0x1 => .or x y
    | 0x2 => .and x y
    | 0x3 => .xor x y
    | 0x4 => .add x y
    | 0x5 => .sub x y
    | 0x6 => .shiftRight x y
    | 0x7 => .subFrom x y
    | 0xE => .shiftLeft x y
    | _ => .unknown word
  | 0x9 => if (Word.n word).toNat = 0 then .skipUnlessSame x y else .unknown word
  | 0xA => .setIndex nnn
  | 0xB => .jumpOffset nnn
  | 0xC => .random x nn
  | 0xD => .draw x y (Word.n word)
  | 0xE =>
    match nn.toNat with
    | 0x9E => .skipIfKey x
    | 0xA1 => .skipUnlessKey x
    | _ => .unknown word
  | 0xF =>
    match nn.toNat with
    | 0x07 => .getDelay x
    | 0x0A => .awaitKey x
    | 0x15 => .setDelay x
    | 0x18 => .setSound x
    | 0x1E => .addIndex x
    | 0x29 => .pointGlyph x
    | 0x33 => .storeDecimal x
    | 0x55 => .storeRegisters x
    | 0x65 => .loadRegisters x
    | _ => .unknown word
  | _ => .unknown word

/-! ## Writing -/

/-- The word with family `f` and address `nnn`. -/
def wordOfAddress (f : Nat) (nnn : UInt16) : UInt16 := .ofNat (f * 0x1000 + nnn.toNat)

/-- The word with family `f`, second digit `x` and low byte `nn`. -/
def wordOfByte (f : Nat) (x nn : UInt8) : UInt16 :=
  .ofNat (f * 0x1000 + x.toNat * 0x100 + nn.toNat)

/-- The word with the digits `f`, `x`, `y` and `n`. -/
def wordOfDigits (f : Nat) (x y n : UInt8) : UInt16 :=
  .ofNat (f * 0x1000 + x.toNat * 0x100 + y.toNat * 0x10 + n.toNat)

/-- The word that stands for an operation whose operands fit. -/
def encode : Op → UInt16
  | .clear => 0x00E0
  | .ret => 0x00EE
  | .jump a => wordOfAddress 0x1 a
  | .call a => wordOfAddress 0x2 a
  | .skipIfByte x b => wordOfByte 0x3 x b
  | .skipUnlessByte x b => wordOfByte 0x4 x b
  | .skipIfSame x y => wordOfDigits 0x5 x y 0x0
  | .setByte x b => wordOfByte 0x6 x b
  | .addByte x b => wordOfByte 0x7 x b
  | .copy x y => wordOfDigits 0x8 x y 0x0
  | .or x y => wordOfDigits 0x8 x y 0x1
  | .and x y => wordOfDigits 0x8 x y 0x2
  | .xor x y => wordOfDigits 0x8 x y 0x3
  | .add x y => wordOfDigits 0x8 x y 0x4
  | .sub x y => wordOfDigits 0x8 x y 0x5
  | .shiftRight x y => wordOfDigits 0x8 x y 0x6
  | .subFrom x y => wordOfDigits 0x8 x y 0x7
  | .shiftLeft x y => wordOfDigits 0x8 x y 0xE
  | .skipUnlessSame x y => wordOfDigits 0x9 x y 0x0
  | .setIndex a => wordOfAddress 0xA a
  | .jumpOffset a => wordOfAddress 0xB a
  | .random x b => wordOfByte 0xC x b
  | .draw x y n => wordOfDigits 0xD x y n
  | .skipIfKey x => wordOfByte 0xE x 0x9E
  | .skipUnlessKey x => wordOfByte 0xE x 0xA1
  | .getDelay x => wordOfByte 0xF x 0x07
  | .awaitKey x => wordOfByte 0xF x 0x0A
  | .setDelay x => wordOfByte 0xF x 0x15
  | .setSound x => wordOfByte 0xF x 0x18
  | .addIndex x => wordOfByte 0xF x 0x1E
  | .pointGlyph x => wordOfByte 0xF x 0x29
  | .storeDecimal x => wordOfByte 0xF x 0x33
  | .storeRegisters x => wordOfByte 0xF x 0x55
  | .loadRegisters x => wordOfByte 0xF x 0x65
  | .unknown word => word

theorem toNat_wordOfAddress (f : Nat) (nnn : UInt16) :
    (wordOfAddress f nnn).toNat = (f * 0x1000 + nnn.toNat) % 0x10000 := by
  simp [wordOfAddress]

theorem toNat_wordOfByte (f : Nat) (x nn : UInt8) :
    (wordOfByte f x nn).toNat = (f * 0x1000 + x.toNat * 0x100 + nn.toNat) % 0x10000 := by
  simp [wordOfByte]

theorem toNat_wordOfDigits (f : Nat) (x y n : UInt8) :
    (wordOfDigits f x y n).toNat =
      (f * 0x1000 + x.toNat * 0x100 + y.toNat * 0x10 + n.toNat) % 0x10000 := by
  simp [wordOfDigits]

/-- Writing what was read gives the word back. -/
theorem encode_decode (word : UInt16) : (decode word).encode = word := by
  have lt := word.toNat_lt
  unfold decode
  dsimp only
  repeat' split
  all_goals
    simp only [Word.toNat_family, Word.toNat_n, Word.toNat_nn] at *
    simp only [encode]
  any_goals
    apply UInt16.toNat_inj.mp
    simp only [toNat_wordOfAddress, toNat_wordOfByte, toNat_wordOfDigits, Word.toNat_x,
      Word.toNat_y, Word.toNat_n, Word.toNat_nn, Word.toNat_nnn, UInt8.reduceToNat]
    omega
  · next h _ => exact h.symm
  · next h _ => exact h.symm

end Chip8.Op
