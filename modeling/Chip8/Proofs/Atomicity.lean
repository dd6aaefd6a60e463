import Chip8.Proofs.Decoding
import Chip8.Proofs.Step

/-!
# Steps are all or nothing

* `failure_leaves_no_trace` — a failed operation changes nothing, and a failed step changes nothing
  but that a word which is no instruction is passed over

An operation is checked before it does anything, so `exec` needs no undoing. In a step the program
counter has moved on by then, and recovery is the only thing that moves it back.
-/

namespace Chip8

namespace Machine

variable {m : Machine}

theorem exec_of_error {op : Op} {fault : Fault} (h : (exec op m).1 = .error fault) :
    (exec op m).2 = m := by
  cases hf : op.fault m.index m.stack.depth with
  | some fault' => rw [exec_of_fault hf]; rfl
  | none => rw [exec_of_no_fault hf] at h; cases h

theorem step_of_error {fault : Fault} (h : m.step.1 = .error fault)
    (known : ∀ word, fault ≠ .unknownOpcode word) : m.step.2 = m := by
  obtain ⟨_, e⟩ | ⟨_, fault', _, e⟩ | ⟨_, _, e⟩ := m.step_cases
  · rw [e]
    rfl
  · have : fault' = fault := by
      rw [e] at h
      exact Except.error.inj h
    rw [e, this]
    exact m.recover_advance known
  · rw [e] at h
    cases h

/-- A step that reports an unknown word has read that word and only moved on past it. -/
theorem step_of_unknown {word : UInt16} (h : m.step.1 = .error (.unknownOpcode word)) :
    m.pc.toNat + 1 < Memory.size ∧ word = m.word ∧ m.step.2 = m.advance := by
  obtain ⟨_, e⟩ | ⟨inside, fault, hf, e⟩ | ⟨_, _, e⟩ := m.step_cases
  · rw [e] at h
    cases h
  · have : fault = .unknownOpcode word := by
      rw [e] at h
      exact Except.error.inj h
    subst this
    exact ⟨inside, Op.eq_of_decode_unknown (Op.fault_eq_unknown_iff.mp hf), by rw [e]; rfl⟩
  · rw [e] at h
    cases h

/--
**A failure leaves no trace.**

A step that fails for any reason but an unknown word leaves the whole machine as it was. For an
unknown word, that word is the one at the old program counter, high byte first, and nothing but the
program counter has changed, which has gone on by two within twelve bits. An operation by itself
that fails leaves the whole machine as it was, its program counter included.
-/
theorem failure_leaves_no_trace (m : Machine) :
    (∀ fault, m.step.1 = .error fault → (∀ word, fault ≠ .unknownOpcode word) → m.step.2 = m) ∧
    (∀ word, m.step.1 = .error (.unknownOpcode word) →
      m.pc.toNat + 1 < Memory.size ∧
      word.toNat = 0x100 * (m.memory.byte m.pc.toNat).toNat +
        (m.memory.byte (m.pc.toNat + 1)).toNat ∧
      ∃ pc : UInt16, pc.toNat = (m.pc.toNat + 2) % 0x1000 ∧ m.step.2 = { m with pc }) ∧
    (∀ op fault, (exec op m).1 = .error fault → (exec op m).2 = m) := by
  refine ⟨fun fault h known => step_of_error h known, ?_, fun op fault h => exec_of_error h⟩
  intro word h
  obtain ⟨inside, rfl, moved⟩ := step_of_unknown h
  exact ⟨inside, Word.toNat_ofBytes _ _, m.advance.pc, m.toNat_advance_pc, moved⟩

/-- A return with no call open, a word that is no instruction, and a sprite past the end. -/
theorem failure_leaves_no_trace_loaded :
    ((loaded [0x00, 0xEE]).step.1 = .error .stackUnderflow ∧
      (loaded [0x00, 0xEE]).step.2 = loaded [0x00, 0xEE]) ∧
    ((loaded [0x51, 0x23]).step.1 = .error (.unknownOpcode 0x5123) ∧
      ∃ pc : UInt16, pc.toNat = 0x202 ∧
        (loaded [0x51, 0x23]).step.2 = { loaded [0x51, 0x23] with pc }) ∧
    ((exec (.draw 0 0 15) { loaded [] with index := 0xFFA }).1 = .error (.outOfBounds 0xFFA 15) ∧
      (exec (.draw 0 0 15) { loaded [] with index := 0xFFA }).2 =
        { loaded [] with index := 0xFFA }) := by
  have ret : (loaded [0x00, 0xEE]).step.1 = .error .stackUnderflow :=
    (step_eq_error_iff (by decide +kernel)).mpr (by decide +kernel)
  have unknown : (loaded [0x51, 0x23]).step.1 = .error (.unknownOpcode 0x5123) :=
    (step_eq_error_iff (by decide +kernel)).mpr (by decide +kernel)
  have sprite : (exec (.draw 0 0 15) { loaded [] with index := 0xFFA }).1 =
      .error (.outOfBounds 0xFFA 15) := by
    rw [exec_of_fault (show _ = some (.outOfBounds 0xFFA 15) by decide +kernel)]
    rfl
  obtain ⟨_, _, pc, hpc, moved⟩ := (failure_leaves_no_trace (loaded [0x51, 0x23])).2.1 _ unknown
  refine ⟨⟨ret, (failure_leaves_no_trace _).1 _ ret (by simp)⟩, ⟨unknown, pc, ?_, moved⟩,
    sprite, (failure_leaves_no_trace _).2.2 _ _ sprite⟩
  rw [hpc]
  decide +kernel

end Machine

end Chip8
