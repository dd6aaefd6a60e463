import Chip8.Picture

/-!
# Collaborators

Whoever shows the screen and sounds the tone stands outside: a clock calls them at each tick. A
collaborator is a state with a function for the call. A call may break down; it still leaves a state
behind, but the clock that made it does not survive.

The collaborators here show and sound nothing, keep a picture, or record what they are told and
break down once they have recorded enough.
-/

namespace Chip8

/-- The state a call leaves behind and whether it broke down. -/
structure Call (σ : Type) where
  state : σ
  brokeDown : Bool := false

/-- Receives the screen after every instruction tick. -/
class Renderer (σ : Type) where
  publish : σ → Screen → Call σ

/-- Receives the sound level at every timer tick. -/
class Audio (σ : Type) where
  setBeeping : σ → Bool → Call σ

/-- A renderer that shows nothing. -/
structure Headless where
  deriving DecidableEq

instance : Renderer Headless where
  publish headless _ := { state := headless }

/-- An audio that sounds nothing. -/
structure Mute where
  deriving DecidableEq

instance : Audio Mute where
  setBeeping mute _ := { state := mute }

instance : Renderer Picture where
  publish _ screen := { state := .ofScreen screen }

/-- A renderer that counts its frames and keeps the latest. With a limit, the call after so many
frames breaks down, and leaves both alone. -/
structure FrameRecorder where
  frames : Nat := 0
  shown : Screen := .blank
  limit : Option Nat := none

/-- The picture of the latest frame. -/
def FrameRecorder.picture (recorder : FrameRecorder) : Picture := .ofScreen recorder.shown

instance : Renderer FrameRecorder where
  publish recorder screen :=
    if recorder.limit.any (· ≤ recorder.frames) then { state := recorder, brokeDown := true }
    else { state := { recorder with frames := recorder.frames + 1, shown := screen } }

/-- An audio that records its levels, the latest first. With a limit, the call after so many levels
breaks down and records nothing. -/
structure LevelRecorder where
  reversed : List Bool := []
  limit : Option Nat := none

/-- The recorded levels in order. -/
def LevelRecorder.levels (recorder : LevelRecorder) : List Bool := recorder.reversed.reverse

instance : Audio LevelRecorder where
  setBeeping recorder level :=
    if recorder.limit.any (· ≤ recorder.reversed.length) then
      { state := recorder, brokeDown := true }
    else { state := { recorder with reversed := level :: recorder.reversed } }

end Chip8
