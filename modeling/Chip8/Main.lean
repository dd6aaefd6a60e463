import Chip8.CommandLine.Scan
import Chip8.Launch

/-!
# The program

Reads the command line and the program it names, and prepares a machine for it. Showing the machine
takes a window, which is not part of this library: the program ends where the window would open.
-/

namespace Chip8.Main

open CommandLine

/-- The usage of the program. -/
def usage : String :=
  "CHIP-8 interpreter\n\nUsage: chip8 [OPTIONS] <ROM>\n\nArguments:\n" ++
  "  <ROM>  Path to the ROM file to run\n\nOptions:\n" ++
  "  -i, --ips <IPS>         Instructions per second [default: 700]\n" ++
  "  -s, --scale <SCALE>     Window scale: 1, 2, 4, 8, 16 or 32 [default: 16]\n" ++
  "      --shift-quirk       8XY6/8XYE shift VY into VX (COSMAC VIP)\n" ++
  "      --load-store-quirk  FX55/FX65 advance I (COSMAC VIP)\n" ++
  "      --seed <SEED>       Seed for the CXNN random number generator\n" ++
  "      --mute              Disable sound\n" ++
  "  -h, --help              Print help\n" ++
  "  -V, --version           Print version\n"

/-- What is wrong with a command line, in words. -/
def complaint : ArgsError → String
  | .help | .version => ""
  | .badNumber setting text => "invalid value '" ++ text ++ "' for '" ++ setting.usage ++ "'"
  | .noValue setting => "a value is required for '" ++ setting.usage ++ "' but none was supplied"
  | .emptyProgram => "a value is required for '<ROM>' but none was supplied"
  | .unknown word => "unexpected argument '" ++ word ++ "' found"
  | .settingTwice setting => "the argument '" ++ setting.usage ++ "' cannot be used multiple times"
  | .flagTwice flag => "the argument '" ++ flag.usage ++ "' cannot be used multiple times"
  | .valueForFlag name text => "unexpected value '" ++ text ++ "' for '" ++ name ++ "' found"
  | .noProgram => "the following required arguments were not provided:\n  <ROM>"

/-- The system's number of an error; it may be given as its negative. -/
def errorNumber (code : UInt32) : Nat := min code.toNat (0 - code).toNat

/-- The operating system's reason in an error. -/
def osError : IO.Error → OsError
  | .noFileOrDirectory .. => .noSuchFile
  | .resourceExhausted .. => .resourceUnavailable
  | .inappropriateType _ code words =>
    match errorNumber code with
    | 20 => .notADirectory
    | 21 => .isADirectory
    | n => .other n words
  | .invalidArgument _ code words =>
    match errorNumber code with
    | 36 => .nameTooLong
    | 40 => .tooManyLinks
    | n => .other n words
  | .permissionDenied _ code _ => .other (errorNumber code) "Permission denied"
  | error => .other 5 (toString error)

/-- The bytes of a file. -/
def readProgram (path : String) : IO (Except OsError (List UInt8)) := do
  try
    return .ok (← IO.FS.readBinFile path).toList
  catch error => return .error (osError error)

/-- A generator for machines without a seed, from the system's random bytes. -/
def draw : IO Random := do
  let bytes ← IO.getRandomBytes 8
  return .ofSeed (bytes.toList.foldl (fun n b => n * 256 + b.toUInt64) 0)

end Chip8.Main

open Chip8 in
/-- Runs the program with the words of its command line. -/
def main (words : List String) : IO UInt32 := do
  match CommandLine.Args.parse words with
  | .error .help =>
    IO.print Main.usage
    return 0
  | .error .version =>
    IO.println "chip8 0.2.0"
    return 0
  | .error error =>
    IO.eprint ("error: " ++ Main.complaint error ++ "\n\nFor more information, try '--help'.\n")
    return .ofNat error.exitCode
  | .ok args =>
    match launch args (← Main.readProgram args.program) (← Main.draw) with
    | .error error =>
      IO.eprint error.report
      return .ofNat LaunchError.exitCode
    | .ok _ => return 0
