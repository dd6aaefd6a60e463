import Chip8.Op.Encoding

/-!
# Instruction patterns

The instruction set as a table of patterns: a pattern gives some of the four hexadecimal digits of a
word and leaves the others open for operands. There are 34 patterns, and a word fits at most one of
them. The table is written without a look at `Op.decode`; `Op.Encodable` says with its help which
operations have a word of their own.
-/

namespace Chip8

/-- The four digits of a word, where one is given. -/
structure Pattern where
  family : Option Nat
  x : Option Nat
  y : Option Nat
  n : Option Nat
  deriving DecidableEq

namespace Pattern

/-- Whether a digit is the one given, if one is. -/
def digitFits (given : Option Nat) (digit : Nat) : Bool := given.all (· == digit)

/-- Whether a word has the digits given. -/
def fits (p : Pattern) (word : UInt16) : Bool :=
  digitFits p.family (word.toNat / 0x1000) && digitFits p.x (word.toNat / 0x100 % 0x10) &&
    digitFits p.y (word.toNat / 0x10 % 0x10) && digitFits p.n (word.toNat % 0x10)

/-- The instruction set. -/
def all : List Pattern :=
  [⟨some 0x0, some 0x0, some 0xE, some 0x0⟩,
   ⟨some 0x0, some 0x0, some 0xE, some 0xE⟩,
   ⟨some 0x1, none, none, none⟩,
   ⟨some 0x2, none, none, none⟩,
   ⟨some 0x3, none, none, none⟩,
   ⟨some 0x4, none, none, none⟩,
   ⟨some 0x5, none, none, some 0x0⟩,
   ⟨some 0x6, none, none, none⟩,
   ⟨some 0x7, none, none, none⟩,
   ⟨some 0x8, none, none, some 0x0⟩,
   ⟨some 0x8, none, none, some 0x1⟩,
   ⟨some 0x8, none, none, some 0x2⟩,
   ⟨some 0x8, none, none, some 0x3⟩,
   ⟨some 0x8, none, none, some 0x4⟩,
   ⟨some 0x8, none, none, some 0x5⟩,
   ⟨some 0x8, none, none, some 0x6⟩,
   ⟨some 0x8, none, none, some 0x7⟩,
   ⟨some 0x8, none, none, some 0xE⟩,
   ⟨some 0x9, none, none, some 0x0⟩,
   ⟨some 0xA, none, none, none⟩,
   ⟨some 0xB, none, none, none⟩,
   ⟨some 0xC, none, none, none⟩,
   ⟨some 0xD, none, none, none⟩,
   ⟨some 0xE, none, some 0x9, some 0xE⟩,
   ⟨some 0xE, none, some 0xA, some 0x1⟩,
   ⟨some 0xF, none, some 0x0, some 0x7⟩,
   ⟨some 0xF, none, some 0x0, some 0xA⟩,
   ⟨some 0xF, none, some 0x1, some 0x5⟩,
   ⟨some 0xF, none, some 0x1, some 0x8⟩,
   ⟨some 0xF, none, some 0x1, some 0xE⟩,
   ⟨some 0xF, none, some 0x2, some 0x9⟩,
   ⟨some 0xF, none, some 0x3, some 0x3⟩,
   ⟨some 0xF, none, some 0x5, some 0x5⟩,
   ⟨some 0xF, none, some 0x6, some 0x5⟩]

theorem length_all : all.length = 34 := rfl

/-- Two patterns that fit one word do not differ where both give a digit. -/
theorem fits_two {p q : Pattern} {word : UInt16} (hp : p.fits word) (hq : q.fits word) :
    (∀ a ∈ p.family, ∀ b ∈ q.family, a = b) ∧ (∀ a ∈ p.x, ∀ b ∈ q.x, a = b) ∧
      (∀ a ∈ p.y, ∀ b ∈ q.y, a = b) ∧ (∀ a ∈ p.n, ∀ b ∈ q.n, a = b) := by
  simp only [fits, digitFits, Bool.and_eq_true, Option.all_eq_true, beq_iff_eq] at hp hq
  obtain ⟨⟨⟨pf, px⟩, py⟩, pn⟩ := hp
  obtain ⟨⟨⟨qf, qx⟩, qy⟩, qn⟩ := hq
  exact ⟨fun a ha b hb => (pf a ha).trans (qf b hb).symm,
    fun a ha b hb => (px a ha).trans (qx b hb).symm,
    fun a ha b hb => (py a ha).trans (qy b hb).symm,
    fun a ha b hb => (pn a ha).trans (qn b hb).symm⟩

/-- No word fits two patterns of the instruction set. -/
theorem fits_unique {p q : Pattern} (hp : p ∈ all) (hq : q ∈ all) {word : UInt16}
    (fp : p.fits word) (fq : q.fits word) : p = q := by
  have distinct : ∀ p ∈ all, ∀ q ∈ all,
      (∀ a ∈ p.family, ∀ b ∈ q.family, a = b) → (∀ a ∈ p.x, ∀ b ∈ q.x, a = b) →
      (∀ a ∈ p.y, ∀ b ∈ q.y, a = b) → (∀ a ∈ p.n, ∀ b ∈ q.n, a = b) → p = q := by
    decide +kernel
  obtain ⟨f, x, y, n⟩ := fits_two fp fq
  exact distinct p hp q hq f x y n

end Pattern

/-- Whether a word is an instruction. -/
def Word.isInstruction (word : UInt16) : Bool := Pattern.all.any (·.fits word)

/-- Whether an operation's operands fit into the fields of its word. An unknown word is one that is
no instruction. -/
def Op.Encodable : Op → Prop
  | .clear | .ret => True
  | .jump a | .call a | .setIndex a | .jumpOffset a => a.toNat < 0x1000
  | .skipIfByte x _ | .skipUnlessByte x _ | .setByte x _ | .addByte x _ | .random x _ =>
    x.toNat < 0x10
  | .skipIfSame x y | .skipUnlessSame x y | .copy x y | .or x y | .and x y | .xor x y
  | .add x y | .sub x y | .subFrom x y | .shiftLeft x y | .shiftRight x y =>
    x.toNat < 0x10 ∧ y.toNat < 0x10
  | .draw x y n => x.toNat < 0x10 ∧ y.toNat < 0x10 ∧ n.toNat < 0x10
  | .skipIfKey x | .skipUnlessKey x | .getDelay x | .awaitKey x | .setDelay x | .setSound x
  | .addIndex x | .pointGlyph x | .storeDecimal x | .storeRegisters x | .loadRegisters x =>
    x.toNat < 0x10
  | .unknown word => Word.isInstruction word = false

instance : DecidablePred Op.Encodable := fun op => by
  cases op <;> unfold Op.Encodable <;> infer_instance

end Chip8
