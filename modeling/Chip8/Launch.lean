import Chip8.CommandLine.Args
import Chip8.Machine
import Chip8.OsError

/-!
# Launching

What happens between the command line and the window: the program's file is read, loaded into a
fresh machine, and the window's scale is checked. The first of these that fails ends the launch.
-/

namespace Chip8

/-- Why there is nothing to show. -/
inductive LaunchError where
  /-- The program's file cannot be read. -/
  | reading (path : String) (cause : OsError)
  /-- The program does not load. -/
  | loading (fault : Fault)
  /-- The window cannot have this scale. -/
  | scale (n : UInt8)
  deriving DecidableEq

namespace LaunchError

/-- The scales a window can have. -/
def scales : List UInt8 := [1, 2, 4, 8, 16, 32]

/-- The reasons, outermost first. -/
def chain : LaunchError → List String
  | .reading path cause => ["reading ROM " ++ path, cause.message]
  | .loading fault => [fault.message]
  | .scale n =>
    ["unsupported scale " ++ toString n.toNat ++ ", pick one of " ++
      ", ".intercalate (scales.map fun scale => toString scale.toNat)]

/-- The reasons as the program reports them when it ends. -/
def report (error : LaunchError) : String :=
  match error.chain with
  | [] => ""
  | [top] => "Error: " ++ top ++ "\n"
  | top :: causes =>
    "Error: " ++ top ++ "\n\nCaused by:\n" ++ String.join (causes.map ("    " ++ · ++ "\n"))

/-- The status the program ends with. -/
def exitCode : Nat := 1

end LaunchError

/-- Checks the scale of a window. -/
def checkScale (n : UInt8) : Except LaunchError Unit :=
  if n ∈ LaunchError.scales then .ok () else .error (.scale n)

/-- The machine that a command line asks for, from the bytes of its program. -/
def launch (args : CommandLine.Args) (bytes : Except OsError (List UInt8)) (drawn : Random) :
    Except LaunchError Machine := do
  let program ← bytes.mapError (.reading args.program)
  let (outcome, machine) := (Machine.fresh args.config drawn).load program drawn
  outcome.mapError .loading
  checkScale args.scale
  return machine

end Chip8
