import Mathlib.Data.Finset.Max
import Mathlib.Data.Fintype.Basic
import Chip8.Proofs.Footprint
import Chip8.Proofs.NextInstruction

/-!
# Waiting for a key

* `down_pulseAll` — over any run, the keypad holds the keys that a set of keys would hold under the
  same changes
* `Waits` — the next instruction is `FX0A`, and no key is down
* `Waits.pulseAll` — such a machine stays as it is but for its timers, however long it runs
* `key_ends_wait` — and the first step with a key down gives the least of them and goes on

A step that waits moves the program counter on and back again. The two undo each other also where
the first leads around the end of memory (`toNat_rewind_advance`).
-/

namespace Chip8

/-! ## Sets of keys -/

/-- The keys that are down after a change, if those in `down` were before it. -/
def KeyChange.on (down : Finset (Fin 16)) : KeyChange → Finset (Fin 16)
  | .press key => insert (lowNibble key) down
  | .release key => down.erase (lowNibble key)
  | .setAll keys => Finset.univ.filter fun k => keys.get k = true
  | .releaseAll => ∅

/-- The keys that are down after a row of pulses, if those in `down` were before it. -/
def keysAfter (down : Finset (Fin 16)) (pulses : List Pulse) : Finset (Fin 16) :=
  pulses.foldl (fun down p => match p with
    | .keys change => change.on down
    | .step | .tick => down) down

namespace Keypad

/-- The keys that are down. -/
def down (pad : Keypad) : Finset (Fin 16) := Finset.univ.filter fun k => pad.keys.get k = true

variable {pad : Keypad}

theorem mem_down {k : Fin 16} : k ∈ pad.down ↔ pad.keys.get k = true := by
  simp [down]

theorem isPressed_eq_true_iff {key : UInt8} :
    pad.isPressed key = true ↔ lowNibble key ∈ pad.down := mem_down.symm

theorem lowNibble_ofNat_val (k : Fin 16) : lowNibble (.ofNat k.val) = k :=
  Fin.ext (val_lowNibble_ofNat k.isLt)

theorem down_eq_empty_iff : pad.down = ∅ ↔ ∀ key, pad.isPressed key = false := by
  constructor
  · intro none key
    refine Bool.eq_false_iff.mpr fun pressed => ?_
    have mem := isPressed_eq_true_iff.mp pressed
    rw [none] at mem
    exact absurd mem (Finset.notMem_empty _)
  · intro up
    refine Finset.eq_empty_of_forall_notMem fun k mem => ?_
    have pressed : pad.isPressed (.ofNat k.val) = true :=
      isPressed_eq_true_iff.mpr (by rwa [lowNibble_ofNat_val])
    rw [up] at pressed
    cases pressed

theorem down_change (pad : Keypad) (change : KeyChange) :
    (pad.change change).down = change.on pad.down := by
  ext k
  rw [← lowNibble_ofNat_val k, ← isPressed_eq_true_iff]
  cases change with
  | press key =>
    rw [change, isPressed_press, KeyChange.on, Finset.mem_insert, ← isPressed_eq_true_iff]
    simp
  | release key =>
    rw [change, isPressed_release, KeyChange.on, Finset.mem_erase, ← isPressed_eq_true_iff]
    simp
  | setAll keys => simp [change, KeyChange.on, isPressed]
  | releaseAll => simp [change, KeyChange.on, isPressed, released, Vector.get]

/-- The lowest key that is down is the least of them. -/
theorem firstPressed_of_least {k : Fin 16} (mem : k ∈ pad.down) (least : ∀ j ∈ pad.down, k ≤ j) :
    pad.firstPressed = some (.ofNat k.val) := by
  have found : (List.finRange 16).find? pad.keys.get = some k := by
    refine List.find?_eq_some_iff_getElem.mpr ⟨mem_down.mp mem, k.val, by simp, by simp, ?_⟩
    intro j hj
    rw [Bool.not_eq_true', Bool.eq_false_iff]
    intro pressed
    have le := least _ (mem_down.mpr pressed)
    rw [List.getElem_finRange] at le
    exact absurd hj (Nat.not_lt.mpr le)
  rw [firstPressed, found]
  rfl

end Keypad

namespace Machine

variable {m : Machine}

/-- The keypad holds what a set of keys would hold. -/
theorem down_pulseAll (m : Machine) (pulses : List Pulse) :
    (m.pulseAll pulses).keypad.down = keysAfter m.keypad.down pulses := by
  induction pulses generalizing m with
  | nil => rfl
  | cons p pulses ih =>
    refine (ih (m.pulse p)).trans ?_
    cases p with
    | step =>
      show keysAfter m.step.2.keypad.down pulses = keysAfter m.keypad.down pulses
      rw [m.step_footprint.keypad]
    | tick => rfl
    | keys change =>
      show keysAfter (m.keypad.change change).down pulses = keysAfter (change.on m.keypad.down) pulses
      rw [Keypad.down_change]

/-- Pulses without a step change timers and keys at most. -/
theorem pulseAll_of_stepless (m : Machine) {pulses : List Pulse} (still : .step ∉ pulses) :
    ∃ timers keypad, m.pulseAll pulses = { m with timers, keypad } := by
  induction pulses generalizing m with
  | nil => exact ⟨m.timers, m.keypad, rfl⟩
  | cons p pulses ih =>
    have later : .step ∉ pulses := fun h => still (List.mem_cons_of_mem p h)
    cases p with
    | step => exact absurd List.mem_cons_self still
    | tick =>
      obtain ⟨timers, keypad, e⟩ := ih m.tickTimers.2 later
      exact ⟨timers, keypad, e⟩
    | keys change =>
      obtain ⟨timers, keypad, e⟩ := ih (m.pulse (.keys change)) later
      exact ⟨timers, keypad, e⟩

/-! ## Waiting -/

/-- The next instruction waits for a key, and none is down. -/
structure Waits (m : Machine) : Prop where
  inside : m.pc.toNat ≤ 0xFFE
  awaits : Pattern.awaitKey.fits m.word
  up : ∀ key, m.keypad.isPressed key = false

theorem step_of_awaitKey (inside : m.pc.toNat ≤ 0xFFE) (awaits : Pattern.awaitKey.fits m.word) :
    m.step = done (exec (.awaitKey (Word.x m.word)) m.advance).2 := by
  have op : m.nextOp = .awaitKey (Word.x m.word) := Op.decode_of_fits rfl awaits rfl
  have e := step_of_no_fault (m := m) (Nat.succ_lt_succ (Nat.lt_succ_of_le inside)) (by rw [op]; rfl)
  rwa [op] at e

/-- A step that waits goes well and leaves the machine as it is. -/
theorem Waits.step_eq (h : m.Waits) : m.step = (.ok (), m) := by
  have none_down : m.advance.keypad.firstPressed = none := m.keypad.firstPressed_eq_none_iff.mpr h.up
  have back : m.advance.rewind = m := by
    show { m with pc := m.advance.rewind.pc } = m
    rw [UInt16.toNat_inj.mp (toNat_rewind_advance h.inside)]
  rw [step_of_awaitKey h.inside h.awaits]
  simp only [exec, none_down]
  exact congrArg (fun m => (Except.ok (), m)) back

theorem Waits.of_timers (h : m.Waits) (timers : Timers) : Waits { m with timers } :=
  ⟨h.inside, h.awaits, h.up⟩

/-- As long as nobody touches the keys, every step goes well and nothing but the timers changes. -/
theorem Waits.pulseAll (h : m.Waits) {pulses : List Pulse}
    (keyless : ∀ change, .keys change ∉ pulses) :
    (∀ outcome ∈ m.outcomes pulses, outcome = .ok ()) ∧
    ∃ timers, m.pulseAll pulses = { m with timers } := by
  induction pulses generalizing m with
  | nil => exact ⟨fun _ none => (nomatch none), m.timers, rfl⟩
  | cons p pulses ih =>
    have later : ∀ change, .keys change ∉ pulses := fun change h =>
      keyless change (List.mem_cons_of_mem p h)
    cases p with
    | step =>
      obtain ⟨fine, timers, e⟩ := ih h later
      have stays : m.step.2 = m := congrArg Prod.snd h.step_eq
      refine ⟨?_, timers, ?_⟩
      · intro outcome mem
        rcases List.mem_cons.mp mem with rfl | mem
        · exact congrArg Prod.fst h.step_eq
        · rw [stays] at mem
          exact fine outcome mem
      · show m.step.2.pulseAll pulses = _
        rw [stays, e]
    | tick =>
      obtain ⟨fine, timers, e⟩ := ih (h.of_timers m.timers.tick.2) later
      exact ⟨fine, timers, e⟩
    | keys change => exact absurd List.mem_cons_self (keyless change)

/-! ## The end of the wait -/

/-- With keys down, `VX` gets the least of them, and the step goes on behind the instruction. -/
theorem step_of_key (inside : m.pc.toNat ≤ 0xFFE) (awaits : Pattern.awaitKey.fits m.word)
    {k : Fin 16} (mem : k ∈ m.keypad.down) (least : ∀ j ∈ m.keypad.down, k ≤ j) :
    m.step = (.ok (),
      { m with pc := m.advance.pc, regs := m.regs.set (Word.x m.word) (.ofNat k.val) }) := by
  have first : m.advance.keypad.firstPressed = some (.ofNat k.val) :=
    Keypad.firstPressed_of_least mem least
  rw [step_of_awaitKey inside awaits]
  simp only [exec, first]
  rfl

/-- Setting `VX`, said of register numbers. -/
theorem toNat_get_set_x (regs : Registers) (word : UInt16) (v : UInt8) (r : Fin 16) :
    ((regs.set (Word.x word) v).get (.ofNat r.val)).toNat =
      if r.val = word.toNat / 0x100 % 0x10 then v.toNat else (regs.get (.ofNat r.val)).toNat := by
  have place : (lowNibble (Word.x word)).val = word.toNat / 0x100 % 0x10 := by
    rw [val_lowNibble (Word.toNat_x_lt word), Word.toNat_x]
  simp only [Registers.get_set, Keypad.lowNibble_ofNat_val, Fin.ext_iff, place]
  split <;> rfl

/--
**Waiting for a key.**

Take a machine whose next instruction is `FX0A`, anywhere up to the last two bytes of memory, and no
key of which is down. However often it steps and its timers tick, in any order, as long as nobody
touches the keys every step goes well and nothing but the timers changes.

Let the keys then be pressed, released and set in any way, by numbers of which only the low four
bits count, so that some are down in the end. The next step sets `VX` to the least of these, goes on
with the next instruction, around the end of memory if need be, and changes nothing else.
-/
theorem key_ends_wait (m : Machine) (inside : m.pc.toNat ≤ 0xFFE)
    (awaits : Pattern.awaitKey.fits m.word) (up : ∀ key, m.keypad.isPressed key = false)
    (pulses : List Pulse) (keyless : ∀ change, .keys change ∉ pulses) :
    ((∀ outcome ∈ m.outcomes pulses, outcome = .ok ()) ∧
      ∃ timers, m.pulseAll pulses = { m with timers }) ∧
    ∀ changes : List Pulse, .step ∉ changes → ∀ some_down : (keysAfter ∅ changes).Nonempty,
      ∃ pc regs, ((m.pulseAll pulses).pulseAll changes).step =
          (.ok (), { (m.pulseAll pulses).pulseAll changes with pc, regs }) ∧
        pc.toNat = (m.pc.toNat + 2) % 4096 ∧
        ∀ r : Fin 16, (regs.get (.ofNat r.val)).toNat =
          if r.val = m.word.toNat / 0x100 % 0x10 then ((keysAfter ∅ changes).min' some_down).val
          else (m.reg (.ofNat r.val)).toNat := by
  have waits : m.Waits := ⟨inside, awaits, up⟩
  obtain ⟨fine, timers, waited⟩ := waits.pulseAll keyless
  refine ⟨⟨fine, timers, waited⟩, ?_⟩
  intro changes still some_down
  obtain ⟨timers', keypad, held⟩ := (m.pulseAll pulses).pulseAll_of_stepless still
  have down : keypad.down = keysAfter ∅ changes := by
    have all := (m.pulseAll pulses).down_pulseAll changes
    rwa [held, waited, Keypad.down_eq_empty_iff.mpr up] at all
  rw [held, waited]
  have step := step_of_key (m := { m with timers := timers', keypad }) inside awaits
    (k := (keysAfter ∅ changes).min' some_down) (by rw [down]; exact Finset.min'_mem _ _)
    (by rw [down]; exact fun j hj => Finset.min'_le _ j hj)
  refine ⟨_, _, step, m.toNat_advance_pc, ?_⟩
  intro r
  refine (toNat_get_set_x m.regs m.word _ r).trans ?_
  have small : (UInt8.ofNat ((keysAfter ∅ changes).min' some_down).val).toNat =
      ((keysAfter ∅ changes).min' some_down).val := by
    rw [UInt8.toNat_ofNat']
    omega
  rw [small]
  rfl

/-- `FA0A` in the last two bytes of memory, with no key down. -/
def awaitingKey : Machine := { atTheEnd 0xFA 0x0A with keypad := .released }

/-- Three keys are pressed, two of them by numbers with high bits, and the lowest is let go again. -/
def threeKeys : List Pulse :=
  [.keys (.press 0x3C), .keys (.press 0x02), .tick, .keys (.press 0xF9), .keys (.release 0x72)]

theorem key_ends_wait_at_the_end :
    awaitingKey.pc.toNat ≤ 0xFFE ∧ Pattern.awaitKey.fits awaitingKey.word ∧
    (∀ key, awaitingKey.keypad.isPressed key = false) ∧ (keysAfter ∅ threeKeys).Nonempty ∧
    awaitingKey.outcomes [.step, .tick, .step] = [.ok (), .ok ()] ∧
    ((awaitingKey.pulseAll [.step, .tick, .step]).pulseAll threeKeys).step.2.pc.toNat = 0 ∧
    (((awaitingKey.pulseAll [.step, .tick, .step]).pulseAll threeKeys).step.2.reg 0xA).toNat = 9 := by
  have awaits : Pattern.awaitKey.fits awaitingKey.word := by
    rw [show awaitingKey.word = (atTheEnd 0xFA 0x0A).word from rfl, word_atTheEnd]
    decide
  have up : ∀ key, awaitingKey.keypad.isPressed key = false :=
    Keypad.down_eq_empty_iff.mp (by decide)
  have some_down : (keysAfter ∅ threeKeys).Nonempty := by decide
  obtain ⟨⟨fine, -⟩, wakes⟩ := key_ends_wait awaitingKey (by decide) awaits up
    [.step, .tick, .step] (by simp)
  obtain ⟨pc, regs, step, at_start, key⟩ := wakes threeKeys (by simp [threeKeys]) some_down
  refine ⟨by decide, awaits, up, some_down, ?_, ?_, ?_⟩
  · exact List.eq_replicate_iff.mpr ⟨rfl, fine⟩
  · rw [step]
    exact at_start.trans (by decide)
  · rw [step]
    have least : ∀ h, ((keysAfter ∅ threeKeys).min' h).val = 9 := by decide
    refine (key 10).trans ((if_pos ?_).trans (least some_down))
    rw [show awaitingKey.word = (atTheEnd 0xFA 0x0A).word from rfl, word_atTheEnd]
    decide

end Machine

end Chip8
