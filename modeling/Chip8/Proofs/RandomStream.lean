import Mathlib.Data.List.Induction
import Chip8.Proofs.History
import Chip8.Proofs.Loading

/-!
# Random bytes come from a fixed stream

* `bytesTaken` — how many `CXNN` were carried out since the machine last started over
* `rng_obeyAll` — that count is where the generator stands in the stream of the seed
* `random_bytes_follow_stream` — so each `CXNN` gets the byte of the stream at that count, and
  nothing else moves the generator

The generator is hidden: nothing shows its place but the bytes it gives. What ties the place to the
history is that of all commands only an executed `CXNN` moves it on and only a fresh start brings it
back (`obey_rng`).
-/

namespace Chip8

/-- `CXNN` -/
def Pattern.random : Pattern := ⟨some 0xC, none, none, none⟩

theorem Op.decode_of_fits_random {word : UInt16} (h : Pattern.random.fits word) :
    decode word = .random (Word.x word) (Word.nn word) :=
  decode_of_fits rfl h ⟨rfl, rfl⟩

/-- Whether a command carries out a `CXNN`. -/
def Command.takesByte (m : Machine) (command : Command) : Bool :=
  (command.executed m).any Pattern.random.fits

namespace Machine

/-- How many `CXNN` a row of commands carries out, counted from where it last starts the machine
over, or from the beginning. -/
def bytesTaken (m : Machine) (commands : List Command) : Nat :=
  ((m.given commands).reverse.takeWhile fun (m', command) => !command.startsOver m').countP
    fun (m', command) => command.takesByte m'

variable {m : Machine}

theorem bytesTaken_concat (m : Machine) (commands : List Command) (command : Command) :
    m.bytesTaken (commands ++ [command]) =
      if command.startsOver (m.obeyAll commands) then 0
      else m.bytesTaken commands + if command.takesByte (m.obeyAll commands) then 1 else 0 := by
  simp only [bytesTaken, given_append, given, List.reverse_concat]
  cases anew : command.startsOver (m.obeyAll commands) with
  | true => rw [List.takeWhile_cons_of_neg (by simp [anew])]; rfl
  | false => rw [List.takeWhile_cons_of_pos (by simp [anew]), List.countP_cons]; rfl

/-! ## The generator -/

/-- Only `CXNN` moves the generator. -/
theorem exec_rng {op : Op} (other : ∀ x mask, op ≠ .random x mask) (m : Machine) :
    (exec op m).2.rng = m.rng := by
  cases op with
  | random x mask => exact absurd rfl (other x mask)
  | _ =>
    simp only [exec, skipIf_eq]
    repeat' split
    all_goals rfl

/-- A command that neither starts over nor carries out a `CXNN` leaves the generator alone. -/
theorem obey_rng_of_other {command : Command} (goesOn : command.startsOver m = false)
    (other : ∀ word, command.executed m = some word → Pattern.random.fits word = false) :
    (m.obey command).rng = m.rng := by
  cases executed : command.executed m with
  | none =>
    obtain ⟨pc, timers, keypad, e⟩ := obey_of_idle executed goesOn
    rw [e]
  | some word =>
    obtain ⟨pc, e⟩ := obey_of_executed executed
    rw [e, exec_rng ?_]
    intro x mask op
    have fits : Pattern.random.fits word := Op.fits_decode (by rw [op]; rfl)
    rw [other word executed] at fits
    cases fits

/-- What a `CXNN` does: its register gets the next byte under the mask. -/
theorem obey_of_random {command : Command} {word : UInt16}
    (executed : command.executed m = some word) (random : Pattern.random.fits word) :
    (m.obey command).reg (Word.x word) = Word.nn word &&& m.rng.next.1 ∧
      (m.obey command).rng = m.rng.next.2 := by
  obtain ⟨pc, e⟩ := obey_of_executed executed
  rw [e, Op.decode_of_fits_random random]
  exact ⟨Registers.get_set_self .., rfl⟩

/-- Where a `CXNN` can be read, a step carries it out. -/
theorem executed_of_random (inside : m.pc.toNat + 1 < Memory.size)
    (random : Pattern.random.fits m.word) : (Command.pulse .step).executed m = some m.word := by
  refine executed_step_eq_some_iff.mpr ⟨(step_eq_ok_iff inside).mpr ?_, rfl⟩
  rw [nextOp, Op.decode_of_fits_random random]
  rfl

/-- Where a command leaves the generator. -/
theorem obey_rng {seed : UInt64} (seeded : m.config.seed = some seed) (command : Command) :
    (m.obey command).rng =
      if command.startsOver m then .ofSeed seed
      else if command.takesByte m then m.rng.next.2 else m.rng := by
  cases anew : command.startsOver m with
  | true =>
    obtain ⟨memory, drawn, e⟩ := obey_of_startsOver anew
    rw [e, if_pos rfl]
    simp only [fresh, seeded]
  | false =>
    rw [if_neg Bool.false_ne_true]
    cases takes : command.takesByte m with
    | true =>
      obtain ⟨word, executed, random⟩ := (Option.any_eq_true _ _).mp takes
      exact (obey_of_random executed random).2
    | false =>
      refine obey_rng_of_other anew ?_
      intro word executed
      rwa [Command.takesByte, executed] at takes

/-- The generator stands where the count of bytes taken says. The count looks at the latest commands
first, so the induction takes the row from its end. -/
theorem rng_obeyAll {config : Config} {seed : UInt64} (seeded : config.seed = some seed)
    (drawn : Random) (commands : List Command) :
    ((fresh config drawn).obeyAll commands).rng =
      { key := Random.keyOfSeed seed, position := (fresh config drawn).bytesTaken commands } := by
  induction commands using List.reverseRecOn with
  | nil =>
    show (fresh config drawn).rng = _
    simp only [fresh, seeded]
    rfl
  | append_singleton commands command ih =>
    have seeded' : ((fresh config drawn).obeyAll commands).config.seed = some seed := by
      rw [obeyAll_config]
      exact seeded
    rw [obeyAll_append, bytesTaken_concat]
    refine (obey_rng seeded' command).trans ?_
    rw [ih]
    split
    · rfl
    · split <;> rfl

/--
**Random bytes are a fixed stream, one word for each `CXNN`.**

Take a machine whose configuration has a seed, and any row of commands for it: steps that go well or
fail, operations by hand, ticks, keys, resets, programs that fit or not. A step that comes to a
`CXNN` carries it out. Whichever command comes next, if it carries out a `CXNN`, then `VX` becomes
`NN` and the low byte of the `k`-th word of the seed's stream, where `k` counts the `CXNN` carried
out since the machine was made, reset or last loaded. The generator stands at `k`, and it stays
there under every command that neither starts over nor carries out a `CXNN`, so under every step and
every loading that fails.
-/
theorem random_bytes_follow_stream {config : Config} {seed : UInt64}
    (seeded : config.seed = some seed) (drawn : Random) (commands : List Command) {m : Machine}
    (reached : (fresh config drawn).obeyAll commands = m) :
    (m.pc.toNat + 1 < Memory.size → Pattern.random.fits m.word →
      (Command.pulse .step).executed m = some m.word) ∧
    (∀ command word, command.executed m = some word → Pattern.random.fits word →
      ((m.obey command).reg (Word.x word)).toNat = (Word.nn word).toNat &&&
        (Random.word (Random.keyOfSeed seed)
          ((fresh config drawn).bytesTaken commands)).toNat % 256) ∧
    m.rng = { key := Random.keyOfSeed seed, position := (fresh config drawn).bytesTaken commands } ∧
    (∀ command, command.startsOver m = false →
      (∀ word, command.executed m = some word → Pattern.random.fits word = false) →
      (m.obey command).rng = m.rng) ∧
    (∀ command fault, m.answer command = .outcome (.error fault) →
      (m.obey command).rng = m.rng) := by
  subst reached
  have stands := rng_obeyAll seeded drawn commands
  refine ⟨executed_of_random, ?_, stands, ?_, ?_⟩
  · intro command word executed random
    rw [(obey_of_random executed random).1, stands, UInt8.toNat_and]
    rfl
  · exact fun command goesOn other => obey_rng_of_other goesOn other
  · intro command fault failed
    obtain ⟨unexecuted, goesOn⟩ := idle_of_fault failed
    refine obey_rng_of_other goesOn ?_
    intro word executed
    rw [unexecuted] at executed
    cases executed

/-- Takes two bytes, one of them under an empty mask, passes over an unknown word, is offered a
program that is too long, and then takes a third byte. -/
def diceCommands : List Command :=
  [.load [0xC0, 0xFF, 0xC1, 0x00, 0x50, 0x01, 0xC2, 0x0F] (.ofSeed 0), .pulse .step, .pulse .step,
    .pulse .step, .load (List.replicate 3585 0) (.ofSeed 0), .pulse .tick]

/-- The machine that is about to take the third byte. -/
def diceMachine : Machine := (fresh { seed := some 7 } (.ofSeed 0)).obeyAll diceCommands

theorem random_bytes_follow_stream_dice :
    diceMachine.pc.toNat + 1 < Memory.size ∧ Pattern.random.fits diceMachine.word ∧
    (Command.pulse .step).executed diceMachine = some 0xC20F ∧
    (fresh { seed := some 7 } (.ofSeed 0)).bytesTaken diceCommands = 2 ∧
    ((diceMachine.obey (.pulse .step)).reg 0x2).toNat = 0x0F &&& 0x86 ∧
    (Command.pulse .tick).startsOver diceMachine = false ∧
    (diceMachine.obey (.pulse .tick)).rng = diceMachine.rng ∧
    diceMachine.answer (.load (List.replicate 3585 0) (.ofSeed 1)) =
      .outcome (.error (.outOfBounds 0x200 3585)) ∧
    (diceMachine.obey (.load (List.replicate 3585 0) (.ofSeed 1))).rng = diceMachine.rng := by
  have here : diceMachine.pc.toNat + 1 < Memory.size ∧ diceMachine.word = 0xC20F := by
    decide +kernel
  have fits : Pattern.random.fits 0xC20F := by decide
  have taken : (fresh { seed := some 7 } (.ofSeed 0)).bytesTaken diceCommands = 2 := by
    decide +kernel
  have third : (Random.word (Random.keyOfSeed 7) 2).toNat % 256 = 0x86 := by decide +kernel
  have refused : diceMachine.answer (.load (List.replicate 3585 0) (.ofSeed 1)) =
      .outcome (.error (.outOfBounds 0x200 3585)) := by
    rw [answer, load_of_too_long (by rw [List.length_replicate]; decide), List.length_replicate]
  have seeded : ({ seed := some 7 } : Config).seed = some 7 := rfl
  have reached : (fresh { seed := some 7 } (.ofSeed 0)).obeyAll diceCommands = diceMachine := rfl
  obtain ⟨runs, byte, -, still, failed⟩ := random_bytes_follow_stream seeded (.ofSeed 0) _ reached
  rw [here.2] at runs
  have executed := runs here.1 fits
  have drawn := byte _ _ executed fits
  rw [taken, third, show Word.x 0xC20F = 0x2 by decide, show Word.nn 0xC20F = 0x0F by decide]
    at drawn
  have ticked : (diceMachine.obey (.pulse .tick)).rng = diceMachine.rng := by
    refine still (.pulse .tick) rfl ?_
    intro word none
    cases none
  exact ⟨here.1, by rw [here.2]; exact fits, executed, taken, drawn, rfl, ticked, refused,
    failed _ _ refused⟩

end Machine

end Chip8
