import Chip8.CommandLine.Args

/-!
# Options

The shapes that the words of a command line can have, and the options that their names and letters
stand for. Names are exact.
-/

namespace Chip8.CommandLine

/-! ## Shapes -/

/-- What a word looks like. -/
inductive Shape where
  /-- `--`, which ends the options. -/
  | terminator
  /-- `--name` or `--name=value`. -/
  | long (name : List Char) (value : Option (List Char))
  /-- `-c` with the rest of the word. -/
  | short (letter : Char) (rest : List Char)
  /-- Anything else, also `-` alone. -/
  | plain
  deriving DecidableEq

/-- The text before the first `=`, and the text behind it if there is one. -/
def splitAtEquals : List Char → List Char × Option (List Char)
  | [] => ([], none)
  | '=' :: cs => ([], some cs)
  | c :: cs =>
    let (name, value) := splitAtEquals cs
    (c :: name, value)

/-- The shape of a word. -/
def Shape.ofChars : List Char → Shape
  | ['-', '-'] => .terminator
  | '-' :: '-' :: cs =>
    let (name, value) := splitAtEquals cs
    .long name value
  | '-' :: c :: cs => .short c cs
  | _ => .plain

/-- The value attached to a letter: the rest of the word, less an `=` in front. -/
def attached : List Char → Option (List Char)
  | [] => none
  | '=' :: cs => some cs
  | cs => some cs

/-! ## Meanings -/

/-- What an option's name stands for. -/
inductive Meaning where
  | setting (setting : Setting)
  | flag (flag : Flag)
  | help
  | version
  deriving DecidableEq

namespace Meaning

/-- The long names. -/
def names : List (String × Meaning) :=
  [("ips", .setting .ips), ("scale", .setting .scale), ("seed", .setting .seed),
   ("mute", .flag .mute), ("shift-quirk", .flag .shiftsVY),
   ("load-store-quirk", .flag .advancesIndex), ("help", .help), ("version", .version)]

/-- The letters. -/
def letters : List (Char × Meaning) :=
  [('i', .setting .ips), ('s', .setting .scale), ('h', .help), ('V', .version)]

/-- The meaning of a long name. -/
def ofName? (name : List Char) : Option Meaning := names.lookup (String.ofList name)

/-- The meaning of a letter. -/
def ofLetter? (letter : Char) : Option Meaning := letters.lookup letter

end Meaning

/-- A name without `=` and a value behind the first one are split apart again. -/
theorem splitAtEquals_append (name value : List Char) (h : '=' ∉ name) :
    splitAtEquals (name ++ '=' :: value) = (name, some value) := by
  induction name with
  | nil => rfl
  | cons c cs ih =>
    rw [List.mem_cons, not_or] at h
    rw [List.cons_append, splitAtEquals, ih h.2]
    exact fun eq => h.1 eq.symm

/-- A name without `=` has no value. -/
theorem splitAtEquals_name (name : List Char) (h : '=' ∉ name) :
    splitAtEquals name = (name, none) := by
  induction name with
  | nil => rfl
  | cons c cs ih =>
    rw [List.mem_cons, not_or] at h
    rw [splitAtEquals, ih h.2]
    exact fun eq => h.1 eq.symm

end Chip8.CommandLine
