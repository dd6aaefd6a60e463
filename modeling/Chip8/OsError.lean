/-!
# Errors of the operating system

Those that can stop the program before it has a window, with the words and numbers the system has
for them.
-/

namespace Chip8

/-- Why the operating system refused. -/
inductive OsError where
  | noSuchFile
  | notADirectory
  | isADirectory
  | resourceUnavailable
  | nameTooLong
  | tooManyLinks
  /-- Any other, by its number and words. -/
  | other (code : Nat) (words : String)
  deriving DecidableEq

namespace OsError

/-- The system's number for an error. -/
def code : OsError → Nat
  | .noSuchFile => 2
  | .resourceUnavailable => 11
  | .notADirectory => 20
  | .isADirectory => 21
  | .nameTooLong => 36
  | .tooManyLinks => 40
  | .other code _ => code

/-- The system's words for an error. -/
def words : OsError → String
  | .noSuchFile => "No such file or directory"
  | .resourceUnavailable => "Resource temporarily unavailable"
  | .notADirectory => "Not a directory"
  | .isADirectory => "Is a directory"
  | .nameTooLong => "File name too long"
  | .tooManyLinks => "Too many levels of symbolic links"
  | .other _ words => words

/-- An error as it is shown. -/
def message (error : OsError) : String :=
  error.words ++ " (os error " ++ toString error.code ++ ")"

end OsError

end Chip8
