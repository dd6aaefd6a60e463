import Chip8.Clock
import Chip8.Proofs.Decoding
import Chip8.Proofs.Step

/-!
# When a step fails

* `step_outcome` — for each fault, exactly when a step ends in it

The conditions are read off the digits of the word at the program counter, the index and the number
of open calls. `Op.fault` says the same in terms of operations; the work here is to carry it over to
words, by means of the agreement between decoder and table (`Chip8.Proofs.Decoding`).
-/

namespace Chip8

open Pattern

/-! ## Words that touch memory or the open calls -/

/-- The instruction `word` reads or writes `len` bytes from the index on. -/
inductive Word.Touches (word : UInt16) : Nat → Prop
  | draw : Pattern.draw.fits word → Touches word (word.toNat % 0x10)
  | storeDecimal : Pattern.storeDecimal.fits word → Touches word 3
  | storeRegisters : Pattern.storeRegisters.fits word →
    Touches word (word.toNat / 0x100 % 0x10 + 1)
  | loadRegisters : Pattern.loadRegisters.fits word →
    Touches word (word.toNat / 0x100 % 0x10 + 1)

namespace Op

variable {word : UInt16}

/-- The bytes an operation touches are those that the digits of its word tell. -/
theorem span_decode_eq_some_iff {len : Nat} :
    (decode word).span = some len ↔ Word.Touches word len := by
  constructor
  · intro h
    cases hd : decode word with
    | draw x y n =>
      have fits : Pattern.draw.fits word := fits_decode (by rw [hd]; rfl)
      rw [decode_of_fits_draw fits] at h
      cases h
      rw [Word.toNat_n]
      exact .draw fits
    | storeDecimal x =>
      rw [hd] at h
      cases h
      exact .storeDecimal (fits_decode (by rw [hd]; rfl))
    | storeRegisters x =>
      have fits : Pattern.storeRegisters.fits word := fits_decode (by rw [hd]; rfl)
      rw [decode_of_fits_storeRegisters fits] at h
      cases h
      rw [Word.toNat_x]
      exact .storeRegisters fits
    | loadRegisters x =>
      have fits : Pattern.loadRegisters.fits word := fits_decode (by rw [hd]; rfl)
      rw [decode_of_fits_loadRegisters fits] at h
      cases h
      rw [Word.toNat_x]
      exact .loadRegisters fits
    | _ => rw [hd] at h; cases h
  · intro h
    cases h with
    | draw fits => rw [decode_of_fits_draw fits, span, Word.toNat_n]
    | storeDecimal fits => rw [decode_of_fits_storeDecimal fits, span]
    | storeRegisters fits => rw [decode_of_fits_storeRegisters fits, span, Word.toNat_x]
    | loadRegisters fits => rw [decode_of_fits_loadRegisters fits, span, Word.toNat_x]

end Op

/-- The clock halts for nothing but a fatal fault. -/
theorem InstructionClock.observe_eq_halt_iff (clock : InstructionClock) (pc : UInt16)
    {outcome : Except Fault Unit} {fault : Fault} :
    (clock.observe pc outcome).1 = .halt fault ↔ outcome = .error fault ∧ fault.isFatal := by
  cases outcome with
  | ok => simp [observe]
  | error fault' =>
    simp only [observe, Except.error.injEq]
    split
    · next fatal =>
      constructor
      · intro h
        cases h
        exact ⟨rfl, fatal⟩
      · rintro ⟨rfl, _⟩
        rfl
    · next mild =>
      have : ¬ (fault' = fault ∧ fault.isFatal) := by
        rintro ⟨rfl, fatal⟩
        exact mild fatal
      split <;> simp [this]

namespace Machine

variable {m : Machine}

/-! ## Outcomes -/

theorem step_of_beyond (h : Memory.size ≤ m.pc.toNat + 1) :
    m.step.1 = .error (.invalidAddress (if m.pc = 0xFFF then 0x1000 else m.pc)) := by
  obtain ⟨_, e⟩ | ⟨inside, _⟩ | ⟨inside, _⟩ := m.step_cases
  · rw [e]
    rfl
  · omega
  · omega

section Readable

variable (inside : m.pc.toNat + 1 < Memory.size)
include inside

theorem step_eq_overflow_iff (hdepth : m.stack.depth ≤ CallStack.depthLimit) :
    m.step.1 = .error .stackOverflow ↔
      Pattern.call.fits m.word ∧ m.stack.depth = CallStack.depthLimit := by
  rw [step_eq_error_iff inside, Op.fault_eq_overflow_iff, nextOp, Op.exists_decode_eq_call_iff]
  constructor
  · rintro ⟨call, full⟩
    exact ⟨call, by omega⟩
  · rintro ⟨call, full⟩
    exact ⟨call, by omega⟩

theorem step_eq_underflow_iff :
    m.step.1 = .error .stackUnderflow ↔ Pattern.ret.fits m.word ∧ m.stack.depth = 0 := by
  rw [step_eq_error_iff inside, Op.fault_eq_underflow_iff, nextOp, Op.decode_eq_ret_iff]

theorem step_eq_outOfBounds_iff {offset len : Nat} :
    m.step.1 = .error (.outOfBounds offset len) ↔
      offset = m.index.toNat ∧ Word.Touches m.word len ∧
        Memory.size < m.index.toNat + len := by
  rw [step_eq_error_iff inside, Op.fault_eq_outOfBounds_iff, nextOp, Op.span_decode_eq_some_iff]

theorem step_eq_unknown_iff {word : UInt16} :
    m.step.1 = .error (.unknownOpcode word) ↔
      word = m.word ∧ ∀ p ∈ Pattern.all, p.fits m.word = false := by
  rw [step_eq_error_iff inside, Op.fault_eq_unknown_iff, nextOp, Op.decode_eq_unknown_iff,
    Word.isInstruction, List.any_eq_false]
  simp

theorem step_ne_invalidAddress (addr : UInt16) : m.step.1 ≠ .error (.invalidAddress addr) := by
  intro h
  exact Op.fault_ne_invalidAddress addr ((step_eq_error_iff inside).mp h)

/-- What is left when no condition for a fault holds. -/
theorem step_eq_ok_iff_of_readable (hdepth : m.stack.depth ≤ CallStack.depthLimit) :
    m.step.1 = .ok () ↔
      ¬ (Pattern.call.fits m.word ∧ m.stack.depth = CallStack.depthLimit) ∧
      ¬ (Pattern.ret.fits m.word ∧ m.stack.depth = 0) ∧
      (∀ len, Word.Touches m.word len → m.index.toNat + len ≤ Memory.size) ∧
      ∃ p ∈ Pattern.all, p.fits m.word := by
  constructor
  · intro ok
    have no_fault : ∀ fault, m.step.1 ≠ .error fault := by
      intro fault h
      rw [ok] at h
      cases h
    refine ⟨fun h => no_fault _ ((step_eq_overflow_iff inside hdepth).mpr h),
      fun h => no_fault _ ((step_eq_underflow_iff inside).mpr h), ?_, ?_⟩
    · intro len touches
      rcases Nat.lt_or_ge Memory.size (m.index.toNat + len) with beyond | fits
      · exact absurd ((step_eq_outOfBounds_iff inside).mpr ⟨rfl, touches, beyond⟩) (no_fault _)
      · exact fits
    · cases h : Word.isInstruction m.word with
      | true => exact List.any_eq_true.mp h
      | false =>
        have unknown := (step_eq_unknown_iff inside).mpr
          ⟨rfl, fun p hp => by simpa using List.any_eq_false.mp h p hp⟩
        exact absurd unknown (no_fault _)
  · rintro ⟨no_overflow, no_underflow, within, p, hp, fits⟩
    cases h : m.step.1 with
    | ok => rfl
    | error fault =>
      exfalso
      cases fault with
      | stackOverflow => exact no_overflow ((step_eq_overflow_iff inside hdepth).mp h)
      | stackUnderflow => exact no_underflow ((step_eq_underflow_iff inside).mp h)
      | outOfBounds offset len =>
        obtain ⟨_, touches, beyond⟩ := (step_eq_outOfBounds_iff inside).mp h
        have := within len touches
        omega
      | unknownOpcode word =>
        rw [((step_eq_unknown_iff inside).mp h).2 p hp] at fits
        cases fits
      | invalidAddress addr => exact step_ne_invalidAddress inside addr h

end Readable

theorem step_eq_invalidAddress_iff (hpc : m.pc.toNat ≤ 0xFFF) :
    m.step.1 = .error (.invalidAddress 0x1000) ↔ m.pc.toNat = 0xFFF := by
  have : Memory.size = 0x1000 := rfl
  constructor
  · intro h
    rcases Nat.lt_or_ge (m.pc.toNat + 1) Memory.size with inside | beyond
    · exact absurd h (step_ne_invalidAddress inside _)
    · omega
  · intro h
    have last : m.pc = 0xFFF := UInt16.toNat_inj.mp h
    rw [step_of_beyond (by omega), if_pos last]

/-- Machines that agree on memory, program counter, index and number of open calls fail alike. -/
theorem step_outcome_congr {m' : Machine} (memory : m.memory = m'.memory) (pc : m.pc = m'.pc)
    (index : m.index = m'.index) (depth : m.stack.depth = m'.stack.depth) :
    m.step.1 = m'.step.1 := by
  rcases Nat.lt_or_ge (m.pc.toNat + 1) Memory.size with inside | beyond
  · have inside' : m'.pc.toNat + 1 < Memory.size := by rwa [pc] at inside
    have same : m.nextOp.fault m.index m.stack.depth =
        m'.nextOp.fault m'.index m'.stack.depth := by
      simp only [nextOp, word, memory, pc, index, depth]
    cases h : m'.nextOp.fault m'.index m'.stack.depth with
    | some fault =>
      rw [(step_eq_error_iff inside').mpr h, (step_eq_error_iff inside).mpr (same.trans h)]
    | none => rw [(step_eq_ok_iff inside').mpr h, (step_eq_ok_iff inside).mpr (same.trans h)]
  · rw [step_of_beyond beyond, step_of_beyond (by rwa [pc] at beyond), pc]

/-- A step that fails fatally has run out of memory, at the program counter or at the index. -/
theorem fatal_step (hpc : m.pc.toNat ≤ 0xFFF) {fault : Fault} (h : m.step.1 = .error fault) :
    fault.isFatal ↔
      fault = .invalidAddress 0x1000 ∨ ∃ len, fault = .outOfBounds m.index.toNat len := by
  have : Memory.size = 0x1000 := rfl
  cases fault with
  | invalidAddress addr =>
    have : addr = 0x1000 := by
      by_cases last : m.pc.toNat = 0xFFF
      · rw [(step_eq_invalidAddress_iff hpc).mpr last] at h
        cases h
        rfl
      · exact absurd h (step_ne_invalidAddress (by omega) addr)
    simp [Fault.isFatal, this]
  | outOfBounds offset len =>
    rcases Nat.lt_or_ge (m.pc.toNat + 1) Memory.size with inside | beyond
    · obtain ⟨rfl, _⟩ := (step_eq_outOfBounds_iff inside).mp h
      simp [Fault.isFatal]
    · rw [step_of_beyond beyond] at h
      cases h
  | unknownOpcode | stackOverflow | stackUnderflow => simp [Fault.isFatal]

/-- The instruction clock halts on the fatal faults of the step, unless the renderer broke down. -/
theorem halts_iff {ρ : Type} [Renderer ρ] (clock : InstructionClock) (renderer : ρ)
    {fault : Fault} :
    (clock.tick m renderer).verdict = some (.halt fault) ↔
      (Renderer.publish renderer m.step.2.screen).brokeDown = false ∧
        m.step.1 = .error fault ∧ fault.isFatal := by
  simp only [InstructionClock.tick]
  cases (Renderer.publish renderer m.step.2.screen).brokeDown with
  | true => simp
  | false => simp [← clock.observe_eq_halt_iff m.pc]

/--
**Exactly when a step fails.**

With the program counter on the last byte there is no whole word to read. Anywhere else the word at
the program counter decides, together with the number of open calls and the index: `2NNN` overflows
with sixteen calls open, `00EE` underflows with none, an instruction that touches `len` bytes runs
out of memory if they reach past its end, and a word that fits none of the patterns is unknown.
Every other step goes well.

Registers, timers, keypad, screen and generator have no say in it, and the instruction clock halts
for the two memory faults and for nothing else, unless the renderer broke down.
-/
theorem step_outcome (m : Machine) (hpc : m.pc.toNat ≤ 0xFFF) (hdepth : m.stack.depth ≤ 16) :
    (m.step.1 = .error (.invalidAddress 0x1000) ↔ m.pc.toNat = 0xFFF) ∧
    (m.pc.toNat ≠ 0xFFF →
      (m.step.1 = .error .stackOverflow ↔ Pattern.call.fits m.word ∧ m.stack.depth = 16) ∧
      (m.step.1 = .error .stackUnderflow ↔ Pattern.ret.fits m.word ∧ m.stack.depth = 0) ∧
      (∀ offset len, m.step.1 = .error (.outOfBounds offset len) ↔
        offset = m.index.toNat ∧ Word.Touches m.word len ∧ 4096 < m.index.toNat + len) ∧
      (∀ word, m.step.1 = .error (.unknownOpcode word) ↔
        word = m.word ∧ ∀ p ∈ Pattern.all, p.fits m.word = false) ∧
      (m.step.1 = .ok () ↔
        ¬ (Pattern.call.fits m.word ∧ m.stack.depth = 16) ∧
        ¬ (Pattern.ret.fits m.word ∧ m.stack.depth = 0) ∧
        (∀ len, Word.Touches m.word len → m.index.toNat + len ≤ 4096) ∧
        ∃ p ∈ Pattern.all, p.fits m.word)) ∧
    (∀ regs timers keypad screen rng,
      ({ m with regs, timers, keypad, screen, rng } : Machine).step.1 = m.step.1) ∧
    (∀ (ρ : Type) [Renderer ρ] (clock : InstructionClock) (renderer : ρ) (fault : Fault),
      (clock.tick m renderer).verdict = some (.halt fault) ↔
        (Renderer.publish renderer m.step.2.screen).brokeDown = false ∧
        m.step.1 = .error fault ∧
        (fault = .invalidAddress 0x1000 ∨ ∃ len, fault = .outOfBounds m.index.toNat len)) := by
  refine ⟨step_eq_invalidAddress_iff hpc, ?_, ?_, ?_⟩
  · intro ne
    have inside : m.pc.toNat + 1 < Memory.size := show m.pc.toNat + 1 < 0x1000 by omega
    exact ⟨step_eq_overflow_iff inside hdepth, step_eq_underflow_iff inside,
      fun _ _ => step_eq_outOfBounds_iff inside, fun _ => step_eq_unknown_iff inside,
      step_eq_ok_iff_of_readable inside hdepth⟩
  · intro regs timers keypad screen rng
    exact step_outcome_congr rfl rfl rfl rfl
  · intro ρ _ clock renderer fault
    rw [halts_iff]
    constructor
    · rintro ⟨shown, h, fatal⟩
      exact ⟨shown, h, (fatal_step hpc h).mp fatal⟩
    · rintro ⟨shown, h, kind⟩
      exact ⟨shown, h, (fatal_step hpc h).mpr kind⟩

/-- With the index just past the end, a sprite without rows can be drawn and one with a row not. -/
theorem step_outcome_past_end :
    (loaded [0xD0, 0x10]).pc.toNat ≤ 0xFFF ∧ (loaded [0xD0, 0x10]).stack.depth ≤ 16 ∧
    ({ loaded [0xD0, 0x10] with index := 0x1000 } : Machine).step.1 = .ok () ∧
    ({ loaded [0xD0, 0x11] with index := 0x1000 } : Machine).step.1 =
      .error (.outOfBounds 0x1000 1) := by
  have hpc : ∀ lo ∈ [0x10, 0x11], (loaded [0xD0, lo]).pc.toNat ≤ 0xFFF := by decide +kernel
  have hdepth : ∀ lo ∈ [0x10, 0x11], (loaded [0xD0, lo]).stack.depth ≤ 16 := by decide +kernel
  have no_rows : (loaded [0xD0, 0x10]).word = 0xD010 := by decide +kernel
  have one_row : (loaded [0xD0, 0x11]).word = 0xD011 := by decide +kernel
  refine ⟨hpc 0x10 (by simp), hdepth 0x10 (by simp), ?_, ?_⟩
  · have outcome := step_outcome { loaded [0xD0, 0x10] with index := 0x1000 }
      (hpc 0x10 (by simp)) (hdepth 0x10 (by simp))
    refine (outcome.2.1 (by decide +kernel)).2.2.2.2.mpr ?_
    change ¬ (Pattern.call.fits (loaded [0xD0, 0x10]).word ∧ _) ∧
      ¬ (Pattern.ret.fits (loaded [0xD0, 0x10]).word ∧ _) ∧
      (∀ len, Word.Touches (loaded [0xD0, 0x10]).word len → _) ∧
      ∃ p ∈ Pattern.all, p.fits (loaded [0xD0, 0x10]).word
    rw [no_rows]
    refine ⟨by decide, by decide, ?_, by decide⟩
    intro len touches
    cases touches with
    | draw => decide
    | storeDecimal fits | storeRegisters fits | loadRegisters fits => exact absurd fits (by decide)
  · have outcome := step_outcome { loaded [0xD0, 0x11] with index := 0x1000 }
      (hpc 0x11 (by simp)) (hdepth 0x11 (by simp))
    refine ((outcome.2.1 (by decide +kernel)).2.2.1 _ _).mpr ⟨rfl, ?_, by decide⟩
    change Word.Touches (loaded [0xD0, 0x11]).word 1
    rw [one_row]
    exact .draw (by decide)

end Machine

end Chip8
