import Chip8.Config

/-!
# Arguments

What a command line asks for: a program to run, and how. The rate, the window's scale and the seed
are settings with a value, the rest are flags.
-/

namespace Chip8.CommandLine

/-- The options with a value. -/
inductive Setting where
  | ips
  | scale
  | seed
  deriving DecidableEq

/-- The options without one. -/
inductive Flag where
  | mute
  | shiftsVY
  | advancesIndex
  deriving DecidableEq

/-- What a command line asks for. -/
structure Args where
  program : String
  ips : UInt32 := 700
  scale : UInt8 := 16
  shiftsVY : Bool := false
  advancesIndex : Bool := false
  seed : Option UInt64 := none
  mute : Bool := false
  deriving DecidableEq

/-- The configuration asked for; a rate of zero counts as one. -/
def Args.config (args : Args) : Config :=
  { Config.withIps {} args.ips with
    dialect := { shiftsVY := args.shiftsVY, advancesIndex := args.advancesIndex }
    seed := args.seed }

namespace Setting

/-- The long name. -/
def name : Setting → String
  | .ips => "ips"
  | .scale => "scale"
  | .seed => "seed"

/-- How a setting is shown in usage texts. -/
def usage : Setting → String
  | .ips => "--ips <IPS>"
  | .scale => "--scale <SCALE>"
  | .seed => "--seed <SEED>"

end Setting

namespace Flag

/-- The long name. -/
def name : Flag → String
  | .mute => "mute"
  | .shiftsVY => "shift-quirk"
  | .advancesIndex => "load-store-quirk"

/-- How a flag is shown in usage texts. -/
def usage (flag : Flag) : String := "--" ++ flag.name

end Flag

/-! ## Errors -/

/-- Why a command line is not run. -/
inductive ArgsError where
  /-- Help is asked for. -/
  | help
  /-- The version is asked for. -/
  | version
  /-- A value that is no number in range. -/
  | badNumber (setting : Setting) (text : String)
  /-- No value where one is due. -/
  | noValue (setting : Setting)
  /-- An empty program name. -/
  | emptyProgram
  /-- A word that is no option, or one name too many. -/
  | unknown (word : String)
  /-- A setting given twice. -/
  | settingTwice (setting : Setting)
  /-- A flag given twice. -/
  | flagTwice (flag : Flag)
  /-- A value for an option that takes none. -/
  | valueForFlag (name text : String)
  /-- No program. -/
  | noProgram
  deriving DecidableEq

/-- The status the program ends with: asking for help or the version is no failure. -/
def ArgsError.exitCode : ArgsError → Nat
  | .help | .version => 0
  | _ => 2

end Chip8.CommandLine
