import Mathlib.Data.List.Forall2
import Chip8.CommandLine.Scan

/-!
# How command lines are written

* `Entry` — what a command line tells: the program's name, the value of a setting, or a flag
* `Spells` — the ways to write an entry
* `Asks` — the command lines that ask for given arguments
* `shape_name`, `shape_nameValue`, `shape_letter`, `shape_plain` — the words of a command line are
  taken for what they were written for

A setting and its value stay together, in one word or in two. Everything else may stand in any
order.
-/

namespace Chip8.CommandLine

/-! ## Entries -/

/-- What can be told. -/
inductive Field where
  | program
  | setting (setting : Setting)
  | flag (flag : Flag)
  deriving DecidableEq

/-- All but the program's name. -/
def Field.options : List Field :=
  [.setting .ips, .setting .scale, .setting .seed, .flag .mute, .flag .shiftsVY,
    .flag .advancesIndex]

/-- Something that a command line tells. -/
inductive Entry where
  | program (text : String)
  | setting (setting : Setting) (n : Nat)
  | flag (flag : Flag)
  deriving DecidableEq

/-- The greatest value of a setting. -/
def Setting.limit : Setting → Nat
  | .ips => UInt32.size - 1
  | .scale => UInt8.size - 1
  | .seed => UInt64.size - 1

/-- The letter of a setting. -/
def Setting.letter? : Setting → Option Char
  | .ips => some 'i'
  | .scale => some 's'
  | .seed => none

namespace Entry

/-- The field that an entry tells. -/
def field : Entry → Field
  | .program _ => .program
  | .setting s _ => .setting s
  | .flag f => .flag f

/-- A name has some text, and a value is in range. -/
def IsValid : Entry → Prop
  | .program text => text ≠ ""
  | .setting s n => n ≤ s.limit
  | .flag _ => True

end Entry

namespace Args

/-- The value of a setting that is not at its default. -/
def value? (args : Args) : Setting → Option Nat
  | .ips => if args.ips = 700 then none else some args.ips.toNat
  | .scale => if args.scale = 16 then none else some args.scale.toNat
  | .seed => args.seed.map (·.toNat)

/-- Whether a flag is raised. -/
def isRaised (args : Args) : Flag → Bool
  | .mute => args.mute
  | .shiftsVY => args.shiftsVY
  | .advancesIndex => args.advancesIndex

/-- What is to be told of a field: nothing if it is at its default. -/
def entryOf? (args : Args) : Field → Option Entry
  | .program => some (.program args.program)
  | .setting s => (args.value? s).map (.setting s)
  | .flag f => if args.isRaised f then some (.flag f) else none

/-- What is to be told besides the program's name. -/
def options (args : Args) : List Entry := Field.options.filterMap args.entryOf?

end Args

/-! ## Spellings -/

/-- A word that is not taken for an option. -/
def IsPlain (text : String) : Prop := text = "-" ∨ text.toList.head? ≠ some '-'

/-- The ways to write an entry. -/
inductive Spells : Entry → List String → Prop
  | program {text : String} (plain : IsPlain text) : Spells (.program text) [text]
  | flag (flag : Flag) : Spells (.flag flag) ["--" ++ flag.name]
  | apart (setting : Setting) (n : Nat) :
      Spells (.setting setting n) ["--" ++ setting.name, toString n]
  | equals (setting : Setting) (n : Nat) :
      Spells (.setting setting n) ["--" ++ setting.name ++ "=" ++ toString n]
  | letterApart {setting : Setting} {letter : Char} (named : setting.letter? = some letter)
      (n : Nat) : Spells (.setting setting n) ["-" ++ letter.toString, toString n]
  | letterAttached {setting : Setting} {letter : Char} (named : setting.letter? = some letter)
      (n : Nat) : Spells (.setting setting n) ["-" ++ letter.toString ++ toString n]
  | letterEquals {setting : Setting} {letter : Char} (named : setting.letter? = some letter)
      (n : Nat) : Spells (.setting setting n) ["-" ++ letter.toString ++ "=" ++ toString n]

/-- The command lines that ask for some arguments. What is not at its default is told in any order,
each entry in one of its spellings. The program's name is among these, or last behind `--`. -/
inductive Asks (args : Args) : List String → Prop
  | among {row : List Entry} {pieces : List (List String)}
      (order : row.Perm (.program args.program :: args.options))
      (spelled : List.Forall₂ Spells row pieces) : Asks args pieces.flatten
  | behind {row : List Entry} {pieces : List (List String)} (order : row.Perm args.options)
      (spelled : List.Forall₂ Spells row pieces) :
      Asks args (pieces.flatten ++ ["--", args.program])

/-! ## Shapes -/

section Shapes

variable {name value cs : List Char} {letter : Char} {text : String}

theorem shape_name (some : name ≠ []) (pure : '=' ∉ name) :
    Shape.ofChars ('-' :: '-' :: name) = .long name none := by
  cases name with
  | nil => exact absurd rfl some
  | cons c cs => simp only [Shape.ofChars, splitAtEquals_name _ pure]

theorem shape_nameValue (pure : '=' ∉ name) :
    Shape.ofChars ('-' :: '-' :: (name ++ '=' :: value)) = .long name (some value) := by
  have split := splitAtEquals_append name value pure
  cases name with
  | nil =>
    rw [List.nil_append] at split ⊢
    simp only [Shape.ofChars, split]
  | cons c cs =>
    rw [List.cons_append] at split ⊢
    simp only [Shape.ofChars, split]

theorem shape_letter (apart : letter ≠ '-') :
    Shape.ofChars ('-' :: letter :: cs) = .short letter cs := by
  unfold Shape.ofChars
  split <;> simp_all

theorem shape_plain (plain : IsPlain text) : Shape.ofChars text.toList = .plain := by
  rcases plain with rfl | plain
  · rfl
  · unfold Shape.ofChars
    split <;> simp_all

end Shapes

/-! ## Numbers -/

theorem toList_toString (n : Nat) : (toString n).toList = Nat.toDigits 10 n := by simp

theorem exists_digit (n : Nat) : ∃ c cs, Nat.toDigits 10 n = c :: cs ∧ c.isDigit = true := by
  obtain ⟨c, cs, digits⟩ :=
    List.exists_cons_of_ne_nil (Nat.toDigits_ne_nil : Nat.toDigits 10 n ≠ [])
  have mem : c ∈ Nat.toDigits 10 n := by
    rw [digits]
    exact List.mem_cons_self
  exact ⟨c, cs, digits, Nat.isDigit_of_mem_toDigits (by decide) (by decide) mem⟩

/-- A number is not taken for an option. -/
theorem isPlain_toString (n : Nat) : IsPlain (toString n) := by
  obtain ⟨c, cs, digits, isDigit⟩ := exists_digit n
  refine .inr fun dash => ?_
  rw [toList_toString, digits, List.head?_cons, Option.some.injEq] at dash
  rw [dash] at isDigit
  exact absurd isDigit (by decide)

/-- A number right behind a letter is its value as it stands. -/
theorem attached_toDigits (n : Nat) : attached (Nat.toDigits 10 n) = some (Nat.toDigits 10 n) := by
  obtain ⟨c, cs, digits, isDigit⟩ := exists_digit n
  rw [digits]
  unfold attached
  split
  · next none => cases none
  · next equals =>
    cases equals
    exact absurd isDigit (by decide)
  · rfl

end Chip8.CommandLine
