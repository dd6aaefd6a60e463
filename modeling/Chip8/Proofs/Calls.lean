import Chip8.Proofs.Decoding
import Chip8.Proofs.Run

/-!
# Calls and returns

* `return_closes_call` — however a program goes on after a call, the step that closes the call is a
  return, goes on behind the call, and leaves the open calls as they were before it

The open calls from before, with the return address on top, are the lower end of the open calls for
as long as there are that many (`suffix_pulseAll`). So the step that goes below closes this very
call.
-/

namespace Chip8.Machine

variable {m : Machine}

/-- A step leaves the open calls alone, opens one or closes the latest. -/
theorem step_stack (m : Machine) :
    m.step.2.stack = m.stack ∨
    (∃ addr, m.nextOp = .call addr ∧
      m.step = done { m with stack := ⟨m.advance.pc :: m.stack.frames⟩, pc := wrap addr }) ∨
    (m.nextOp = .ret ∧ ∃ addr rest, m.stack.frames = addr :: rest ∧
      m.step = done { m with stack := ⟨rest⟩, pc := wrap addr }) := by
  obtain ⟨_, e⟩ | ⟨_, fault, _, e⟩ | ⟨_, _, e⟩ := m.step_cases
  · left
    rw [e]
    rfl
  · left
    rw [e]
    cases fault <;> rfl
  · obtain same | ⟨addr, op, _, executed⟩ | ⟨op, addr, rest, frames, executed⟩ :=
      exec_stack m.nextOp m.advance
    · left
      rw [e]
      exact same
    · refine Or.inr (Or.inl ⟨addr, op, ?_⟩)
      rw [e, executed]
      rfl
    · refine Or.inr (Or.inr ⟨op, addr, rest, frames, ?_⟩)
      rw [e, executed]
      rfl

theorem step_of_call (inside : m.pc.toNat + 1 < Memory.size) (call : Pattern.call.fits m.word)
    (room : m.stack.depth < CallStack.depthLimit) :
    m.step = done { m with
      stack := ⟨m.advance.pc :: m.stack.frames⟩, pc := wrap (Word.nnn m.word) } := by
  have op : m.nextOp = .call (Word.nnn m.word) := Op.decode_of_fits_call call
  have no_fault : m.nextOp.fault m.index m.stack.depth = none := by
    rw [op]
    exact if_pos room
  obtain ⟨beyond, _⟩ | ⟨_, fault, hf, _⟩ | ⟨_, _, e⟩ := m.step_cases
  · omega
  · rw [no_fault] at hf
    cases hf
  · have pushed : m.advance.stack.push m.advance.pc = .ok ⟨m.advance.pc :: m.stack.frames⟩ :=
      if_pos room
    rw [e, op]
    simp only [exec, pushed]
    rfl

theorem wrap_nnn (word : UInt16) : wrap (Word.nnn word) = Word.nnn word := by
  apply UInt16.toNat_inj.mp
  rw [toNat_wrap, Word.toNat_nnn, Nat.mod_mod]

/-! ## The lower end of the open calls -/

variable {base : List UInt16}

theorem suffix_step (h : base <:+ m.stack.frames) (above : base.length ≤ m.step.2.stack.depth) :
    base <:+ m.step.2.stack.frames := by
  obtain same | ⟨addr, _, e⟩ | ⟨_, addr, rest, frames, e⟩ := m.step_stack
  · rw [same]
    exact h
  · rw [e]
    exact List.suffix_cons_iff.mpr (Or.inr h)
  · rw [e] at above ⊢
    rw [frames] at h
    rcases List.suffix_cons_iff.mp h with whole | below
    · -- then the latest call would be one of the lower end
      exfalso
      have : base.length = rest.length + 1 := by rw [whole, List.length_cons]
      have : base.length ≤ rest.length := above
      omega
    · exact below

theorem suffix_pulse (h : base <:+ m.stack.frames) (p : Pulse)
    (above : base.length ≤ (m.pulse p).stack.depth) : base <:+ (m.pulse p).stack.frames := by
  cases p with
  | step => exact suffix_step h above
  | tick => exact h
  | keys change => exact h

/-- The lower end of the open calls stays, for as long as there are that many. -/
theorem suffix_pulseAll (pulses : List Pulse) (h : base <:+ m.stack.frames)
    (above : ∀ k ≤ pulses.length, base.length ≤ (m.pulseAll (pulses.take k)).stack.depth) :
    base <:+ (m.pulseAll pulses).stack.frames := by
  induction pulses generalizing m with
  | nil => exact h
  | cons p pulses ih =>
    have first : base.length ≤ (m.pulse p).stack.depth := above 1 (by simp)
    refine ih (suffix_pulse h p first) ?_
    intro k hk
    -- the first `k` pulses from here are the first `k + 1` of the whole row
    exact above (k + 1) (Nat.succ_le_succ hk)

/-- A step that goes below the lower end is a return to the address on top of it. -/
theorem step_below {addr : UInt16} {rest : List UInt16} (h : addr :: rest <:+ m.stack.frames)
    (below : m.step.2.stack.depth = rest.length) :
    m.nextOp = .ret ∧ m.step = done { m with stack := ⟨rest⟩, pc := wrap addr } := by
  have enough : rest.length + 1 ≤ m.stack.frames.length := by
    rw [← List.length_cons]
    exact h.length_le
  obtain same | ⟨addr', _, e⟩ | ⟨op, addr', rest', frames, e⟩ := m.step_stack
  · exfalso
    rw [same] at below
    have : m.stack.frames.length = rest.length := below
    omega
  · exfalso
    rw [e] at below
    have : m.stack.frames.length + 1 = rest.length := below
    omega
  · rw [e] at below
    rw [frames] at h
    have same_length : (addr :: rest).length = (addr' :: rest').length := by
      rw [List.length_cons, List.length_cons, show rest'.length = rest.length from below]
    cases h.eq_of_length same_length
    exact ⟨op, e⟩

/--
**A return closes its call.**

A call goes well and goes on at its address. Let anything follow it, as long as the call stays open:
steps that go well or fail, calls and returns of its own, ticks, keys. If then one more step brings
the number of open calls back to what it was, that step is a return that goes well, it goes on
behind the call, and the open calls are the old ones again.
-/
theorem return_closes_call (m : Machine) (hpc : m.pc.toNat ≤ 0xFFE)
    (call : Pattern.call.fits m.word) (room : m.stack.depth < 16) (pulses : List Pulse)
    (stays_open : ∀ k ≤ pulses.length,
      m.stack.depth + 1 ≤ (m.step.2.pulseAll (pulses.take k)).stack.depth)
    (closes : (m.step.2.pulseAll pulses).step.2.stack.depth = m.stack.depth) :
    (m.step.1 = .ok () ∧ m.step.2.pc = Word.nnn m.word ∧
      m.step.2.stack.depth = m.stack.depth + 1) ∧
    (m.step.2.pulseAll pulses).step.1 = .ok () ∧
    (m.step.2.pulseAll pulses).word = 0x00EE ∧
    (m.step.2.pulseAll pulses).step.2.pc.toNat = (m.pc.toNat + 2) % 0x1000 ∧
    (m.step.2.pulseAll pulses).step.2.stack = m.stack := by
  have inside : m.pc.toNat + 1 < Memory.size := show m.pc.toNat + 1 < 0x1000 by omega
  have called := step_of_call inside call room
  have opened : m.advance.pc :: m.stack.frames <:+ m.step.2.stack.frames := by
    rw [called]
    exact List.suffix_refl _
  have still_open := suffix_pulseAll pulses opened stays_open
  obtain ⟨op, returned⟩ := step_below still_open closes
  refine ⟨?_, ?_, ?_, ?_, ?_⟩
  · rw [called]
    exact ⟨rfl, wrap_nnn m.word, rfl⟩
  · rw [returned]
    rfl
  · exact Op.eq_of_fits_ret (Op.decode_eq_ret_iff.mp op)
  · rw [returned]
    show (wrap m.advance.pc).toNat = _
    rw [toNat_wrap, toNat_advance_pc, Nat.mod_mod]
  · rw [returned]
    rfl

/-- A call at `0x200` to a routine that makes a call of its own, passes over a word that is no
instruction, and returns. -/
def nestedCalls : Machine :=
  loaded [0x22, 0x04, 0x12, 0x02, 0x22, 0x0A, 0x51, 0x23, 0x00, 0xEE, 0x00, 0xEE]

theorem return_closes_call_nested :
    nestedCalls.pc.toNat ≤ 0xFFE ∧ Pattern.call.fits nestedCalls.word ∧
    nestedCalls.stack.depth < 16 ∧
    (nestedCalls.step.2.pulseAll
      [.step, .tick, .step, .keys (.press 3), .step]).step.2.pc.toNat = 0x202 ∧
    (nestedCalls.step.2.pulseAll
      [.step, .tick, .step, .keys (.press 3), .step]).step.2.stack = nestedCalls.stack := by
  have hpc : nestedCalls.pc.toNat ≤ 0xFFE := by decide +kernel
  have call : Pattern.call.fits nestedCalls.word := by decide +kernel
  have room : nestedCalls.stack.depth < 16 := by decide +kernel
  obtain ⟨_, _, _, pc, stack⟩ := return_closes_call nestedCalls hpc call room
    [.step, .tick, .step, .keys (.press 3), .step] (by decide +kernel) (by decide +kernel)
  refine ⟨hpc, call, room, ?_, stack⟩
  rw [pc]
  decide +kernel

end Chip8.Machine
