import Chip8.CommandLine.Number
import Chip8.CommandLine.Option

/-!
# Reading command lines

`Args.parse` takes the words from the left and stops at the first fault.

## Pending values

A value in a word of its own, and the program's name, are *pending* until the next option is
accepted or the line ends; only then are they looked at. So an unknown option is told of before a
bad value in front of it.
-/

namespace Chip8.CommandLine

/-- What was read but not looked at yet. -/
inductive Pending where
  | nothing
  /-- The program's name. -/
  | program (text : String)
  /-- A setting, and its value unless it is still to come. -/
  | setting (setting : Setting) (value : Option (List Char))
  deriving DecidableEq

/-- How far the scan has come. -/
structure Scan where
  program : Option String := none
  ips : Option UInt32 := none
  scale : Option UInt8 := none
  seed : Option UInt64 := none
  mute : Bool := false
  shiftsVY : Bool := false
  advancesIndex : Bool := false
  pending : Pending := .nothing
  deriving DecidableEq

namespace Scan

/-! ## Settings and flags -/

/-- Whether a setting was made. -/
def has (scan : Scan) : Setting → Bool
  | .ips => scan.ips.isSome
  | .scale => scan.scale.isSome
  | .seed => scan.seed.isSome

/-- The number that a value stands for, if it is in the range of its setting. -/
def value? (value : List Char) : Setting → Option Nat
  | .ips => number (UInt32.size - 1) true value
  | .scale => number (UInt8.size - 1) true value
  | .seed => number (UInt64.size - 1) false value

/-- Makes a setting. -/
def put (scan : Scan) (n : Nat) : Setting → Scan
  | .ips => { scan with ips := some (.ofNat n) }
  | .scale => { scan with scale := some (.ofNat n) }
  | .seed => { scan with seed := some (.ofNat n) }

/-- Makes a setting for the first time, to a number in range. -/
def make (scan : Scan) (setting : Setting) (value : List Char) : Except ArgsError Scan :=
  if scan.has setting then .error (.settingTwice setting)
  else
    match value? value setting with
    | some n => .ok (scan.put n setting)
    | none => .error (.badNumber setting (String.ofList value))

/-- Whether a flag was raised. -/
def isRaised (scan : Scan) : Flag → Bool
  | .mute => scan.mute
  | .shiftsVY => scan.shiftsVY
  | .advancesIndex => scan.advancesIndex

/-- Raises a flag for the first time. -/
def raise (scan : Scan) (flag : Flag) : Except ArgsError Scan :=
  if scan.isRaised flag then .error (.flagTwice flag)
  else
    match flag with
    | .mute => .ok { scan with mute := true }
    | .shiftsVY => .ok { scan with shiftsVY := true }
    | .advancesIndex => .ok { scan with advancesIndex := true }

/-- Looks at what is pending. -/
def settle (scan : Scan) : Except ArgsError Scan :=
  match scan.pending with
  | .nothing => .ok scan
  | .program text =>
    if text.isEmpty then .error .emptyProgram
    else .ok { scan with program := some text, pending := .nothing }
  | .setting setting none => .error (.noValue setting)
  | .setting setting (some value) => { scan with pending := .nothing }.make setting value

/-! ## Words -/

/-- Takes an option, with the value attached to it if there is one. -/
def accept (scan : Scan) (value : Option (List Char)) (meaning : Meaning) :
    Except ArgsError Scan := do
  let scan ← scan.settle
  match meaning, value with
  | .setting setting, some value => scan.make setting value
  | .setting setting, none => return { scan with pending := .setting setting none }
  | .flag flag, _ => scan.raise flag
  | .help, _ => throw .help
  | .version, _ => throw .version

/-- Takes a long option. -/
def long (scan : Scan) (name : List Char) (value : Option (List Char)) : Except ArgsError Scan :=
  let word := "--" ++ String.ofList name
  match Meaning.ofName? name, value with
  | none, _ => .error (.unknown word)
  | some (.setting setting), value => scan.accept value (.setting setting)
  | some meaning, none => scan.accept none meaning
  -- nothing pending is looked at here
  | some _, some value => .error (.valueForFlag word (String.ofList value))

/-- Takes a short option. -/
def short (scan : Scan) (letter : Char) (rest : List Char) : Except ArgsError Scan :=
  match Meaning.ofLetter? letter with
  | none => .error (.unknown ("-" ++ String.singleton letter))
  | some meaning => scan.accept (attached rest) meaning

/-- Whether a program was named, looked at or not. -/
def namesProgram (scan : Scan) : Bool :=
  scan.program.isSome || scan.pending matches .program _

/-- Takes a word for the program's name. -/
def name (scan : Scan) (text : String) : Except ArgsError Scan :=
  -- one name too many is told of before a bad value in front of it
  if scan.namesProgram then .error (.unknown text)
  else do return { ← scan.settle with pending := .program text }

/-- Takes a word for the value that is due, or else for the program's name. -/
def plain (scan : Scan) (text : String) : Except ArgsError Scan :=
  match scan.pending with
  | .setting setting none => .ok { scan with pending := .setting setting (some text.toList) }
  | _ => scan.name text

/-- Takes the words of a line. Behind the end of the options every word is a name. -/
def words (scan : Scan) (ended : Bool) : List String → Except ArgsError Scan
  | [] => .ok scan
  | text :: texts =>
    if ended then do (← scan.name text).words true texts
    else
      match Shape.ofChars text.toList with
      | .terminator => scan.words true texts
      | .long name value => do (← scan.long name value).words false texts
      | .short letter rest => do (← scan.short letter rest).words false texts
      | .plain => do (← scan.plain text).words false texts

/-- What was scanned, once the line has ended. -/
def finish (scan : Scan) : Except ArgsError Args := do
  let scan ← scan.settle
  match scan.program with
  | none => throw .noProgram
  | some program =>
    return {
      program
      ips := scan.ips.getD 700
      scale := scan.scale.getD 16
      shiftsVY := scan.shiftsVY
      advancesIndex := scan.advancesIndex
      seed := scan.seed
      mute := scan.mute }

end Scan

/-- Reads the words of a command line. -/
def Args.parse (words : List String) : Except ArgsError Args := do
  (← Scan.words {} false words).finish

end Chip8.CommandLine
