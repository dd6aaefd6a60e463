import Chip8.Clock
import Chip8.Proofs.Bitmap

/-!
# The shown picture

* `Shows` — colours that show a screen: one for each cell, and the cells can be read back from them
* `PixelBuffer` — a buffer of colours that is filled in place, cell by cell
* `Display` — a machine under an instruction clock, and the renderer that gets its screen
* `inSync_pulse`, `inSync_pulseAll` — what is shown and what the machine has stay the same
* `shown_is_screen` — from a fresh start on, the shown picture is the screen of the machine

Only steps change the screen, and a clock that makes a step publishes the screen before anything
else can happen, however the step went. So the picture never lags behind.
-/

namespace Chip8

/-! ## Colours that show a screen -/

/-- Colours, row after row, that show a screen. -/
structure Shows (pixels : List UInt32) (screen : Screen) : Prop where
  length : pixels.length = Screen.width * Screen.height
  colour : ∀ i : Fin 2048,
    pixels[i.val]? = some (if screen.cells[i] then Colour.on else Colour.off)
  /-- The cells are where the colour is the one of a cell that is on. -/
  recover : pixels.map (· == Colour.on) = screen.cells.toList

theorem shows_map_ofCell (screen : Screen) :
    Shows (screen.cells.toList.map Colour.ofCell) screen where
  length := by rw [List.length_map, Vector.length_toList]; rfl
  colour := by
    intro i
    rw [List.getElem?_map, List.getElem?_eq_getElem (by simp), Vector.getElem_toList]
    rfl
  recover := by
    have read_back : ∀ cell, (Colour.ofCell cell == Colour.on) = cell := by decide
    rw [List.map_map]
    exact List.map_id'' read_back _

theorem Picture.shows_ofScreen (screen : Screen) :
    Shows (Picture.ofScreen screen).pixels.toList screen := by
  rw [Picture.ofScreen, Vector.toList_map]
  exact shows_map_ofCell screen

theorem Picture.shows_dark : Shows Picture.dark.pixels.toList .blank := by
  rw [← ofScreen_blank]
  exact shows_ofScreen .blank

/-- A buffer of colours that is filled in place. -/
structure PixelBuffer where
  pixels : List UInt32

namespace PixelBuffer

/-- The buffer before anything was published. -/
def dark : PixelBuffer := ⟨List.replicate (Screen.width * Screen.height) Colour.off⟩

/-- Puts the colours of cells in the places of a buffer, as far as both go. A cell is on if it is
one. -/
def fill : List UInt32 → List UInt8 → List UInt32
  | _ :: pixels, cell :: cells =>
    (if cell = 1 then Colour.on else Colour.off) :: fill pixels cells
  | pixels, _ => pixels

instance : Renderer PixelBuffer where
  publish buffer screen := { state := ⟨fill buffer.pixels (Bitmap.ofScreen screen).cells⟩ }

/-- In a buffer of the right length, nothing of what was there before is left. -/
theorem fill_map_ofCell (pixels : List UInt32) (cells : List Bool)
    (same : pixels.length = cells.length) :
    fill pixels (cells.map Bitmap.ofCell) = cells.map Colour.ofCell := by
  induction cells generalizing pixels with
  | nil => rw [List.length_eq_zero_iff.mp same]; rfl
  | cons cell cells ih =>
    cases pixels with
    | nil => cases same
    | cons pixel pixels =>
      have coloured : (if Bitmap.ofCell cell = 1 then Colour.on else Colour.off) =
          Colour.ofCell cell := by cases cell <;> rfl
      rw [List.map_cons, fill, coloured, ih pixels (Nat.succ.inj same), List.map_cons]

theorem shows_dark : Shows dark.pixels .blank := by
  have blank : dark.pixels = Screen.blank.cells.toList.map Colour.ofCell := by
    rw [Screen.blank, Vector.toList_replicate, List.map_replicate]
    rfl
  rw [blank]
  exact shows_map_ofCell .blank

end PixelBuffer

/-! ## Renderers that keep up -/

section KeepingUp

variable {ρ : Type} [Renderer ρ]

/-- Once its colours show some screen, a renderer shows each screen that is published to it. -/
def KeepsUp (see : ρ → List UInt32) : Prop :=
  ∀ renderer before after, Shows (see renderer) before →
    Shows (see (Renderer.publish renderer after).state) after

theorem keepsUp_picture : KeepsUp fun picture : Picture => picture.pixels.toList :=
  fun _ _ after _ => Picture.shows_ofScreen after

theorem keepsUp_pixelBuffer : KeepsUp PixelBuffer.pixels := by
  intro buffer before after shows
  have same : buffer.pixels.length = after.cells.toList.length := by
    rw [shows.length, Vector.length_toList]
    rfl
  show Shows (PixelBuffer.fill buffer.pixels (after.cells.toList.map Bitmap.ofCell)) after
  rw [PixelBuffer.fill_map_ofCell _ _ same]
  exact shows_map_ofCell after

end KeepingUp

/-- A machine under an instruction clock, and the renderer that gets its screen. -/
structure Display (ρ : Type) where
  clock : InstructionClock
  machine : Machine
  renderer : ρ

namespace Display

variable {ρ : Type} [Renderer ρ]

/-- What a pulse leaves behind, where every step is an instruction tick of the clock. -/
def pulse (d : Display ρ) : Pulse → Display ρ
  | .step =>
    let tick := d.clock.tick d.machine d.renderer
    ⟨tick.clock, tick.machine, tick.renderer⟩
  | .tick => { d with machine := d.machine.tickTimers.2 }
  | .keys change => { d with machine := d.machine.pulse (.keys change) }

/-- What a row of pulses leaves behind. -/
def pulseAll (d : Display ρ) (pulses : List Pulse) : Display ρ := pulses.foldl pulse d

/-- A tick leaves the machine that the step makes and a renderer that got its screen, whatever it
asks for. -/
theorem tick_machine (clock : InstructionClock) (m : Machine) (renderer : ρ) :
    (clock.tick m renderer).machine = m.step.2 ∧
      (clock.tick m renderer).renderer = (Renderer.publish renderer m.step.2.screen).state := by
  simp only [InstructionClock.tick]
  split
  · exact ⟨rfl, rfl⟩
  · exact ⟨rfl, rfl⟩

theorem machine_pulse (d : Display ρ) (p : Pulse) : (d.pulse p).machine = d.machine.pulse p := by
  cases p with
  | step => exact (tick_machine d.clock d.machine d.renderer).1
  | tick => rfl
  | keys change => rfl

/-- The machine goes its way as it would without a renderer. -/
theorem machine_pulseAll (d : Display ρ) (pulses : List Pulse) :
    (d.pulseAll pulses).machine = d.machine.pulseAll pulses :=
  (List.foldl_hom Display.machine fun d p => (d.machine_pulse p).symm).symm

variable {see : ρ → List UInt32} {d : Display ρ}

/-- The renderer shows the screen that the machine has. -/
def InSync (see : ρ → List UInt32) (d : Display ρ) : Prop := Shows (see d.renderer) d.machine.screen

/-- A step publishes the screen it leaves; ticks of the timers and keys leave screen and renderer
alone. -/
theorem inSync_pulse (keepsUp : KeepsUp see) (sync : d.InSync see) (p : Pulse) :
    (d.pulse p).InSync see := by
  cases p with
  | step =>
    obtain ⟨machine, renderer⟩ := tick_machine d.clock d.machine d.renderer
    show Shows (see (d.clock.tick d.machine d.renderer).renderer)
      (d.clock.tick d.machine d.renderer).machine.screen
    rw [machine, renderer]
    exact keepsUp _ _ _ sync
  | tick => exact sync
  | keys change => exact sync

theorem inSync_pulseAll (keepsUp : KeepsUp see) (sync : d.InSync see) (pulses : List Pulse) :
    (d.pulseAll pulses).InSync see := by
  induction pulses generalizing d with
  | nil => exact sync
  | cons p pulses ih => exact ih (inSync_pulse keepsUp sync p)

end Display

/-! ## From a fresh start on -/

/-- The machines that have done nothing since they were made, reset or loaded with a program. -/
inductive Machine.JustStarted : Machine → Prop
  | made (config : Config) (drawn : Random) : JustStarted (.fresh config drawn)
  | reset (m : Machine) (drawn : Random) : JustStarted (m.reset drawn)
  | loaded (m : Machine) (program : List UInt8) (drawn : Random)
      (fits : (m.load program drawn).1 = .ok ()) : JustStarted (m.load program drawn).2

theorem Machine.JustStarted.screen {m : Machine} (h : m.JustStarted) : m.screen = .blank := by
  cases h with
  | made config drawn => rfl
  | reset m drawn => rfl
  | loaded m program drawn fits =>
    obtain ⟨memory, h⟩ | ⟨fault, h⟩ := m.load_cases program drawn
    · rw [h]
      rfl
    · rw [h] at fits
      cases fits

/--
**The shown picture is always the screen of the machine.**

Take a machine that was just made, reset or loaded with a program, a picture that nothing was
published to, and any instruction clock. Let the clock tick with the picture as its renderer, the
timers tick and the keys change in any order and for as long as you like; a tick of the clock counts
whether it goes on, goes on with a fault or halts. Then the picture has a colour for each cell, the
one of a cell that is on exactly where the cell is on, so that the cells can be read back; and so
has a buffer that is filled in place. The machine does not notice.
-/
theorem shown_is_screen {m : Machine} (start : m.JustStarted) (clock : InstructionClock)
    (pulses : List Pulse) :
    (((Display.mk clock m Picture.dark).pulseAll pulses).InSync fun picture =>
      picture.pixels.toList) ∧
    ((Display.mk clock m PixelBuffer.dark).pulseAll pulses).InSync PixelBuffer.pixels ∧
    ((Display.mk clock m Picture.dark).pulseAll pulses).machine = m.pulseAll pulses ∧
    ((Display.mk clock m PixelBuffer.dark).pulseAll pulses).machine = m.pulseAll pulses := by
  refine ⟨Display.inSync_pulseAll keepsUp_picture ?_ pulses,
    Display.inSync_pulseAll keepsUp_pixelBuffer ?_ pulses,
    Display.machine_pulseAll _ pulses, Display.machine_pulseAll _ pulses⟩
  · show Shows Picture.dark.pixels.toList m.screen
    rw [start.screen]
    exact Picture.shows_dark
  · show Shows PixelBuffer.dark.pixels m.screen
    rw [start.screen]
    exact PixelBuffer.shows_dark

/-- Paints the digit zero in the upper left corner and then returns from no call. -/
def zeroPainter : Machine := Machine.loaded [0xA0, 0x50, 0xD0, 0x05, 0x00, 0xEE]

/-- The last two steps fail. -/
def zeroPulses : List Pulse := [.step, .tick, .keys (.press 3), .step, .step, .tick, .step]

theorem shown_is_screen_zero :
    zeroPainter.JustStarted ∧
    ((Display.mk {} zeroPainter Picture.dark).pulseAll zeroPulses).renderer.pixels.toList[0]? =
      some Colour.on ∧
    ((Display.mk {} zeroPainter PixelBuffer.dark).pulseAll zeroPulses).renderer.pixels[65]? =
      some Colour.off ∧
    ((Display.mk {} zeroPainter PixelBuffer.dark).pulseAll zeroPulses).renderer.pixels.length =
      2048 := by
  have start : zeroPainter.JustStarted := .loaded _ _ _ rfl
  obtain ⟨picture, buffer, machine, machine'⟩ := shown_is_screen start {} zeroPulses
  have lit : (zeroPainter.pulseAll zeroPulses).screen.cells[(0 : Fin 2048)] = true := by
    decide +kernel
  have unlit : (zeroPainter.pulseAll zeroPulses).screen.cells[(65 : Fin 2048)] = false := by
    decide +kernel
  refine ⟨start, (picture.colour 0).trans ?_, (buffer.colour 65).trans ?_, buffer.length⟩
  · rw [machine, lit]
    rfl
  · rw [machine', unlit]
    rfl

end Chip8
