import Chip8.Collaborator
import Chip8.Event
import Chip8.OsError

/-!
# The beeper

The tone is made by a thread of its own, which plays while the beeping flag is set and ends once the
beeper is no longer alive. Giving the beeper up waits for that thread.
-/

namespace Chip8

/-- A beeper and what is known of its thread. -/
structure Beeper where
  /-- The last level reported. -/
  beeping : Bool := false
  /-- Cleared when the beeper is given up. -/
  alive : Bool := true
  /-- The thread, until it was waited for: whether it breaks down at its end. -/
  worker : Option Bool := none

namespace Beeper

instance : Audio Beeper where
  setBeeping beeper level := { state := { beeper with beeping := level } }

/-- Gives the beeper up. -/
def release (beeper : Beeper) : Beeper × List Event :=
  ({ beeper with alive := false, worker := none },
   if beeper.worker = some true then [.foundSoundBrokenDown] else [])

end Beeper

/-- Why there is no beeper. -/
inductive BeeperError where
  /-- The system starts no thread for it. -/
  | noThread (cause : OsError)
  deriving DecidableEq

/-- The reasons, outermost first. -/
def BeeperError.chain : BeeperError → List String
  | .noThread cause => ["spawning audio thread", cause.message]

/-- A new beeper, if the system starts a thread for it; whether that will break down at its end. -/
def Beeper.start : Except OsError Bool → Except BeeperError Beeper
  | .ok breaksDown => .ok { worker := some breaksDown }
  | .error cause => .error (.noThread cause)

end Chip8
