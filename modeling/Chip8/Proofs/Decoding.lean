import Chip8.Op.Pattern

/-!
# The decoder and the table of patterns

`Op.decode` goes down a tree of digits, `Pattern.all` is a flat table. They agree: a word is read as
an operation of some pattern exactly if it fits that pattern (`pattern_decode_eq_some_iff`), and as
an unknown word exactly if it is no instruction (`decode_eq_unknown_iff`).

The operands are the digits that the pattern leaves open (`ReadFrom`), so pattern and word together
give the operation (`decode_of_fits`).
-/

namespace Chip8

open Pattern

namespace Pattern

/-- `00E0` -/
def clear : Pattern := ⟨some 0x0, some 0x0, some 0xE, some 0x0⟩

/-- `00EE` -/
def ret : Pattern := ⟨some 0x0, some 0x0, some 0xE, some 0xE⟩

/-- `1NNN` -/
def jump : Pattern := ⟨some 0x1, none, none, none⟩

/-- `2NNN` -/
def call : Pattern := ⟨some 0x2, none, none, none⟩

/-- `3XNN` -/
def skipIfByte : Pattern := ⟨some 0x3, none, none, none⟩

/-- `4XNN` -/
def skipUnlessByte : Pattern := ⟨some 0x4, none, none, none⟩

/-- `5XY0` -/
def skipIfSame : Pattern := ⟨some 0x5, none, none, some 0x0⟩

/-- `8XY4` -/
def add : Pattern := ⟨some 0x8, none, none, some 0x4⟩

/-- `8XY5` -/
def sub : Pattern := ⟨some 0x8, none, none, some 0x5⟩

/-- `8XY7` -/
def subFrom : Pattern := ⟨some 0x8, none, none, some 0x7⟩

/-- `9XY0` -/
def skipUnlessSame : Pattern := ⟨some 0x9, none, none, some 0x0⟩

/-- `ANNN` -/
def setIndex : Pattern := ⟨some 0xA, none, none, none⟩

/-- `BNNN` -/
def jumpOffset : Pattern := ⟨some 0xB, none, none, none⟩

/-- `DXYN` -/
def draw : Pattern := ⟨some 0xD, none, none, none⟩

/-- `EX9E` -/
def skipIfKey : Pattern := ⟨some 0xE, none, some 0x9, some 0xE⟩

/-- `EXA1` -/
def skipUnlessKey : Pattern := ⟨some 0xE, none, some 0xA, some 0x1⟩

/-- `FX0A` -/
def awaitKey : Pattern := ⟨some 0xF, none, some 0x0, some 0xA⟩

/-- `FX1E` -/
def addIndex : Pattern := ⟨some 0xF, none, some 0x1, some 0xE⟩

/-- `FX29` -/
def pointGlyph : Pattern := ⟨some 0xF, none, some 0x2, some 0x9⟩

/-- `FX33` -/
def storeDecimal : Pattern := ⟨some 0xF, none, some 0x3, some 0x3⟩

/-- `FX55` -/
def storeRegisters : Pattern := ⟨some 0xF, none, some 0x5, some 0x5⟩

/-- `FX65` -/
def loadRegisters : Pattern := ⟨some 0xF, none, some 0x6, some 0x5⟩

end Pattern

namespace Op

/-- The pattern of an operation's words. -/
def pattern : Op → Option Pattern
  | .clear => some ⟨some 0x0, some 0x0, some 0xE, some 0x0⟩
  | .ret => some .ret
  | .jump _ => some ⟨some 0x1, none, none, none⟩
  | .call _ => some .call
  | .skipIfByte _ _ => some ⟨some 0x3, none, none, none⟩
  | .skipUnlessByte _ _ => some ⟨some 0x4, none, none, none⟩
  | .skipIfSame _ _ => some ⟨some 0x5, none, none, some 0x0⟩
  | .setByte _ _ => some ⟨some 0x6, none, none, none⟩
  | .addByte _ _ => some ⟨some 0x7, none, none, none⟩
  | .copy _ _ => some ⟨some 0x8, none, none, some 0x0⟩
  | .or _ _ => some ⟨some 0x8, none, none, some 0x1⟩
  | .and _ _ => some ⟨some 0x8, none, none, some 0x2⟩
  | .xor _ _ => some ⟨some 0x8, none, none, some 0x3⟩
  | .add _ _ => some ⟨some 0x8, none, none, some 0x4⟩
  | .sub _ _ => some ⟨some 0x8, none, none, some 0x5⟩
  | .shiftRight _ _ => some ⟨some 0x8, none, none, some 0x6⟩
  | .subFrom _ _ => some ⟨some 0x8, none, none, some 0x7⟩
  | .shiftLeft _ _ => some ⟨some 0x8, none, none, some 0xE⟩
  | .skipUnlessSame _ _ => some ⟨some 0x9, none, none, some 0x0⟩
  | .setIndex _ => some ⟨some 0xA, none, none, none⟩
  | .jumpOffset _ => some ⟨some 0xB, none, none, none⟩
  | .random _ _ => some ⟨some 0xC, none, none, none⟩
  | .draw _ _ _ => some .draw
  | .skipIfKey _ => some ⟨some 0xE, none, some 0x9, some 0xE⟩
  | .skipUnlessKey _ => some ⟨some 0xE, none, some 0xA, some 0x1⟩
  | .getDelay _ => some ⟨some 0xF, none, some 0x0, some 0x7⟩
  | .awaitKey _ => some ⟨some 0xF, none, some 0x0, some 0xA⟩
  | .setDelay _ => some ⟨some 0xF, none, some 0x1, some 0x5⟩
  | .setSound _ => some ⟨some 0xF, none, some 0x1, some 0x8⟩
  | .addIndex _ => some ⟨some 0xF, none, some 0x1, some 0xE⟩
  | .pointGlyph _ => some ⟨some 0xF, none, some 0x2, some 0x9⟩
  | .storeDecimal _ => some .storeDecimal
  | .storeRegisters _ => some .storeRegisters
  | .loadRegisters _ => some .loadRegisters
  | .unknown _ => none

theorem pattern_mem {op : Op} {p : Pattern} (h : op.pattern = some p) : p ∈ all := by
  cases op <;> cases h <;> decide

theorem pattern_eq_none {op : Op} (h : op.pattern = none) : ∃ word, op = .unknown word := by
  cases op with
  | unknown word => exact ⟨word, rfl⟩
  | _ => cases h

/-- The word kept as unknown is the word that was read. -/
theorem eq_of_decode_unknown {word word' : UInt16} (h : decode word = .unknown word') :
    word' = word := by
  rw [← encode_decode word, h]
  rfl

/-- What is read as an operation has the digits of its pattern. -/
theorem fits_decode {word : UInt16} {p : Pattern} (h : (decode word).pattern = some p) :
    p.fits word := by
  unfold decode at h
  dsimp only at h
  repeat' split at h
  all_goals
    cases h
  -- the two words that are given as a whole
  · next whole => rw [whole]; rfl
  · next whole => rw [whole]; rfl
  all_goals
    simp only [Word.toNat_family, Word.toNat_n, Word.toNat_nn] at *
    simp [fits, digitFits, Pattern.call, Pattern.draw, Pattern.storeDecimal,
      Pattern.storeRegisters, Pattern.loadRegisters]
    omega

/-- What is read as an unknown word fits no pattern. -/
theorem not_fits_of_decode {word : UInt16} (h : (decode word).pattern = none) :
    ∀ p ∈ all, p.fits word = false := by
  have lt := word.toNat_lt
  unfold decode at h
  dsimp only at h
  repeat' split at h
  -- only the branches that end in `unknown` have no pattern
  all_goals
    try cases h
  · next family clear ret =>
    have : word.toNat ≠ 0xE0 := fun e => clear (UInt16.toNat_inj.mp e)
    have : word.toNat ≠ 0xEE := fun e => ret (UInt16.toNat_inj.mp e)
    rw [Word.toNat_family] at family
    simp [all, fits, digitFits, family]
    omega
  all_goals
    simp only [Word.toNat_family, Word.toNat_n, Word.toNat_nn, imp_false] at *
    simp [all, fits, digitFits, *]
    omega

/-- A word is read as an operation of a pattern exactly if it fits the pattern. -/
theorem pattern_decode_eq_some_iff {word : UInt16} {p : Pattern} :
    (decode word).pattern = some p ↔ p ∈ all ∧ p.fits word := by
  constructor
  · intro h
    exact ⟨pattern_mem h, fits_decode h⟩
  · rintro ⟨hp, fits⟩
    cases h : (decode word).pattern with
    | none => rw [not_fits_of_decode h p hp] at fits; cases fits
    | some q => rw [fits_unique (pattern_mem h) hp (fits_decode h) fits]

/-- A word is read as unknown exactly if it is no instruction. -/
theorem decode_eq_unknown_iff {word word' : UInt16} :
    decode word = .unknown word' ↔ word' = word ∧ Word.isInstruction word = false := by
  constructor
  · intro h
    have no_pattern : (decode word).pattern = none := by rw [h]; rfl
    exact ⟨eq_of_decode_unknown h,
      List.any_eq_false.mpr fun p hp => by simp [not_fits_of_decode no_pattern p hp]⟩
  · rintro ⟨rfl, h⟩
    cases hd : (decode word').pattern with
    | some p =>
      have := List.any_eq_false.mp h p (pattern_mem hd)
      exact absurd (fits_decode hd) this
    | none =>
      obtain ⟨w, hw⟩ := pattern_eq_none hd
      rw [hw, eq_of_decode_unknown hw]

variable {word : UInt16}

/-- `fits_decode`, where it is known what operation the word is read as. -/
theorem fits_of_decode_eq {op : Op} {p : Pattern} (h : decode word = op)
    (hp : op.pattern = some p) : p.fits word :=
  fits_decode (by rw [h, hp])

/-! ## Operands -/

/-- An operation has the digits of a word for its operands. -/
def ReadFrom (word : UInt16) : Op → Prop
  | .clear | .ret => True
  | .jump a | .call a | .setIndex a | .jumpOffset a => a = Word.nnn word
  | .skipIfByte x b | .skipUnlessByte x b | .setByte x b | .addByte x b | .random x b =>
    x = Word.x word ∧ b = Word.nn word
  | .skipIfSame x y | .skipUnlessSame x y | .copy x y | .or x y | .and x y | .xor x y
  | .add x y | .sub x y | .subFrom x y | .shiftLeft x y | .shiftRight x y =>
    x = Word.x word ∧ y = Word.y word
  | .draw x y n => x = Word.x word ∧ y = Word.y word ∧ n = Word.n word
  | .skipIfKey x | .skipUnlessKey x | .getDelay x | .awaitKey x | .setDelay x | .setSound x
  | .addIndex x | .pointGlyph x | .storeDecimal x | .storeRegisters x | .loadRegisters x =>
    x = Word.x word
  | .unknown word' => word' = word

theorem readFrom_decode (word : UInt16) : (decode word).ReadFrom word := by
  unfold decode
  dsimp only
  repeat' split
  all_goals simp only [ReadFrom, and_self]

theorem readFrom_of_decode_eq {op : Op} (h : decode word = op) : op.ReadFrom word := by
  rw [← h]
  exact readFrom_decode word

/-- Operations of one pattern do not differ but in their operands. -/
theorem eq_of_readFrom {op op' : Op} (same : op.pattern = op'.pattern) (h : op.ReadFrom word)
    (h' : op'.ReadFrom word) : op = op' := by
  cases op <;> cases op' <;> cases same
  all_goals simp_all [ReadFrom]

/-- A word that fits the pattern of an operation and has its operands is read as that operation. -/
theorem decode_of_fits {op : Op} {p : Pattern} (hp : op.pattern = some p) (fits : p.fits word)
    (h : op.ReadFrom word) : decode word = op := by
  have read : (decode word).pattern = some p :=
    pattern_decode_eq_some_iff.mpr ⟨pattern_mem hp, fits⟩
  exact eq_of_readFrom (read.trans hp.symm) (readFrom_decode word) h

/-! ## Words of single operations -/

theorem eq_of_fits_ret (h : Pattern.ret.fits word) : word = 0x00EE := by
  simp [fits, digitFits, Pattern.ret] at h
  exact UInt16.toNat_inj.mp (show word.toNat = 0x00EE by omega)

theorem decode_of_fits_ret (h : Pattern.ret.fits word) : decode word = .ret :=
  decode_of_fits rfl h trivial

theorem decode_of_fits_call (h : Pattern.call.fits word) : decode word = .call (Word.nnn word) :=
  decode_of_fits rfl h rfl

theorem decode_of_fits_skipIfByte (h : Pattern.skipIfByte.fits word) :
    decode word = .skipIfByte (Word.x word) (Word.nn word) :=
  decode_of_fits rfl h ⟨rfl, rfl⟩

theorem decode_of_fits_skipUnlessByte (h : Pattern.skipUnlessByte.fits word) :
    decode word = .skipUnlessByte (Word.x word) (Word.nn word) :=
  decode_of_fits rfl h ⟨rfl, rfl⟩

theorem decode_of_fits_skipIfSame (h : Pattern.skipIfSame.fits word) :
    decode word = .skipIfSame (Word.x word) (Word.y word) :=
  decode_of_fits rfl h ⟨rfl, rfl⟩

theorem decode_of_fits_skipUnlessSame (h : Pattern.skipUnlessSame.fits word) :
    decode word = .skipUnlessSame (Word.x word) (Word.y word) :=
  decode_of_fits rfl h ⟨rfl, rfl⟩

theorem decode_of_fits_draw (h : Pattern.draw.fits word) :
    decode word = .draw (Word.x word) (Word.y word) (Word.n word) :=
  decode_of_fits rfl h ⟨rfl, rfl, rfl⟩

theorem decode_of_fits_skipIfKey (h : Pattern.skipIfKey.fits word) :
    decode word = .skipIfKey (Word.x word) :=
  decode_of_fits rfl h rfl

theorem decode_of_fits_skipUnlessKey (h : Pattern.skipUnlessKey.fits word) :
    decode word = .skipUnlessKey (Word.x word) :=
  decode_of_fits rfl h rfl

theorem decode_of_fits_storeDecimal (h : Pattern.storeDecimal.fits word) :
    decode word = .storeDecimal (Word.x word) :=
  decode_of_fits rfl h rfl

theorem decode_of_fits_storeRegisters (h : Pattern.storeRegisters.fits word) :
    decode word = .storeRegisters (Word.x word) :=
  decode_of_fits rfl h rfl

theorem decode_of_fits_loadRegisters (h : Pattern.loadRegisters.fits word) :
    decode word = .loadRegisters (Word.x word) :=
  decode_of_fits rfl h rfl

theorem decode_eq_ret_iff : decode word = .ret ↔ Pattern.ret.fits word :=
  ⟨fun h => fits_decode (by rw [h]; rfl), decode_of_fits_ret⟩

theorem exists_decode_eq_call_iff :
    (∃ addr, decode word = .call addr) ↔ Pattern.call.fits word :=
  ⟨fun ⟨_, h⟩ => fits_decode (by rw [h]; rfl), fun h => ⟨_, decode_of_fits_call h⟩⟩

end Op

end Chip8
