import Chip8.Machine.Exec

/-!
# The ways a step can end

Whether and how an operation fails is decided by the index and the number of open calls alone:
`Op.fault` is that function, and `exec` fails with exactly this fault, leaving the machine alone
(`exec_of_fault`, `exec_of_no_fault`).

`step_cases` puts fetch, execution and recovery together. What is said about steps elsewhere starts
from it and does not open `step` again.
-/

namespace Chip8

/-! ## Memory -/

namespace Memory

/-- The word whose high byte stands at `a`. -/
def word (mem : Memory) (a : Nat) : UInt16 := Word.ofBytes (mem.byte a) (mem.byte (a + 1))

theorem readWord_of_lt (mem : Memory) {addr : UInt16} (h : addr.toNat + 1 < size) :
    mem.readWord addr = .ok (mem.word addr.toNat) := by
  have next : (addr + 1).toNat = addr.toNat + 1 := by
    simp only [UInt16.toNat_add, UInt16.reduceToNat]
    have : size = 0x1000 := rfl
    omega
  simp only [readWord, read, next, if_pos h, if_pos (show addr.toNat < size by omega)]
  rfl

/-- The address named is the first of the two that lies outside memory. -/
theorem readWord_of_le (mem : Memory) {addr : UInt16} (h : size ≤ addr.toNat + 1) :
    mem.readWord addr = .error (.invalidAddress (if addr = 0xFFF then 0x1000 else addr)) := by
  have : size = 0x1000 := rfl
  by_cases last : addr = 0xFFF
  · subst last
    rfl
  · -- the last address apart, the first byte is already outside
    have beyond : ¬ addr.toNat < size := by
      intro inside
      exact last (UInt16.toNat_inj.mp (show addr.toNat = 0xFFF by omega))
    simp only [readWord, read, if_neg beyond, if_neg last]
    rfl

/-- The fault of an access to `len` bytes from an address on. -/
def rangeFault (addr : UInt16) (len : Nat) : Option Fault :=
  if addr.toNat + len ≤ size then none else some (.outOfBounds addr.toNat len)

theorem rangeFault_eq_some {addr : UInt16} {len : Nat} {fault : Fault} :
    rangeFault addr len = some fault ↔
      size < addr.toNat + len ∧ fault = .outOfBounds addr.toNat len := by
  unfold rangeFault
  split
  · simp; omega
  · simp [eq_comm]; omega

theorem slice_of_fault (mem : Memory) {addr : UInt16} {len : Nat} {fault : Fault}
    (h : rangeFault addr len = some fault) : mem.slice addr len = .error fault := by
  obtain ⟨beyond, rfl⟩ := rangeFault_eq_some.mp h
  exact if_neg (by omega)

theorem slice_of_no_fault (mem : Memory) {addr : UInt16} {len : Nat}
    (h : rangeFault addr len = none) : ∃ bytes, mem.slice addr len = .ok bytes := by
  unfold rangeFault at h
  split at h
  · next inside => exact ⟨_, if_pos inside⟩
  · cases h

theorem length_of_slice {mem : Memory} {addr : UInt16} {len : Nat} {bytes : List UInt8}
    (h : mem.slice addr len = .ok bytes) : bytes.length = len := by
  unfold slice at h
  split at h
  · cases h
    rw [List.length_map, List.length_range]
  · cases h

theorem getD_of_slice {mem : Memory} {addr : UInt16} {len k : Nat} {bytes : List UInt8}
    (h : mem.slice addr len = .ok bytes) (inside : k < len) :
    bytes.getD k 0 = mem.byte (addr.toNat + k) := by
  unfold slice at h
  split at h
  · cases h
    simp [inside]
  · cases h

theorem load_of_fault (mem : Memory) {addr : UInt16} {bytes : List UInt8} {fault : Fault}
    (h : rangeFault addr bytes.length = some fault) : mem.load bytes addr.toNat = .error fault := by
  obtain ⟨beyond, rfl⟩ := rangeFault_eq_some.mp h
  exact if_neg (by omega)

theorem load_of_no_fault (mem : Memory) {addr : UInt16} {bytes : List UInt8}
    (h : rangeFault addr bytes.length = none) :
    mem.load bytes addr.toNat = .ok (mem.putAll addr.toNat bytes) := by
  unfold rangeFault at h
  split at h
  · next inside => exact if_pos inside
  · cases h

end Memory

/-! ## Faults of operations -/

namespace Op

/-- How an operation fails at an index and with so many calls open, if it does. -/
def fault (op : Op) (index : UInt16) (depth : Nat) : Option Fault :=
  match op with
  | .ret => if depth = 0 then some .stackUnderflow else none
  | .call _ => if depth < CallStack.depthLimit then none else some .stackOverflow
  | .draw _ _ n => Memory.rangeFault index n.toNat
  | .storeDecimal _ => Memory.rangeFault index 3
  | .storeRegisters x | .loadRegisters x => Memory.rangeFault index (x.toNat + 1)
  | .unknown word => some (.unknownOpcode word)
  | _ => none

/-- How many bytes from the index on an operation reads or writes, if it reads or writes any. -/
def span : Op → Option Nat
  | .draw _ _ n => some n.toNat
  | .storeDecimal _ => some 3
  | .storeRegisters x | .loadRegisters x => some (x.toNat + 1)
  | _ => none

variable {op : Op} {index : UInt16} {depth : Nat}

theorem fault_eq_overflow_iff :
    op.fault index depth = some .stackOverflow ↔
      (∃ addr, op = .call addr) ∧ CallStack.depthLimit ≤ depth := by
  cases op with
  | call addr => simp [fault]
  | ret => simp [fault]
  | draw | storeDecimal | storeRegisters | loadRegisters =>
    simp [fault, Memory.rangeFault_eq_some]
  | _ => simp [fault]

theorem fault_eq_underflow_iff :
    op.fault index depth = some .stackUnderflow ↔ op = .ret ∧ depth = 0 := by
  cases op with
  | draw | storeDecimal | storeRegisters | loadRegisters =>
    simp [fault, Memory.rangeFault_eq_some]
  | _ => simp [fault]

theorem fault_eq_outOfBounds_iff {offset len : Nat} :
    op.fault index depth = some (.outOfBounds offset len) ↔
      offset = index.toNat ∧ op.span = some len ∧ Memory.size < index.toNat + len := by
  cases op with
  | draw | storeDecimal | storeRegisters | loadRegisters =>
    simp only [fault, span, Memory.rangeFault_eq_some, Fault.outOfBounds.injEq, Option.some.injEq]
    constructor
    · rintro ⟨beyond, rfl, rfl⟩
      exact ⟨rfl, rfl, beyond⟩
    · rintro ⟨rfl, rfl, beyond⟩
      exact ⟨beyond, rfl, rfl⟩
  | _ => simp [fault, span]

theorem fault_ne_invalidAddress (addr : UInt16) :
    op.fault index depth ≠ some (.invalidAddress addr) := by
  cases op with
  | draw | storeDecimal | storeRegisters | loadRegisters =>
    simp [fault, Memory.rangeFault_eq_some]
  | _ => simp [fault]

theorem fault_eq_unknown_iff {word : UInt16} :
    op.fault index depth = some (.unknownOpcode word) ↔ op = .unknown word := by
  cases op with
  | draw | storeDecimal | storeRegisters | loadRegisters =>
    simp [fault, Memory.rangeFault_eq_some]
  | _ => simp [fault]

end Op

/-! ## Operations -/

namespace Machine

/-- An operation that fails changes nothing. -/
theorem exec_of_fault {op : Op} {m : Machine} {fault : Fault}
    (h : op.fault m.index m.stack.depth = some fault) : exec op m = failed m fault := by
  cases op with
  | ret =>
    simp only [Op.fault, CallStack.depth] at h
    cases frames : m.stack.frames with
    | nil => simp_all [exec, CallStack.pop]
    | cons addr rest => simp [frames] at h
  | call addr =>
    simp only [Op.fault] at h
    split at h
    · cases h
    · next full =>
      cases h
      simp only [exec, CallStack.push, if_neg full]
  | draw x y n => simp only [exec, m.memory.slice_of_fault h]
  | storeDecimal x =>
    have stored : m.storeAtIndex (decimalDigits (m.reg x)) = .error fault :=
      m.memory.load_of_fault h
    simp only [exec, stored]
  | storeRegisters x =>
    have stored : m.storeAtIndex (m.regs.take (x.toNat + 1)) = .error fault :=
      m.memory.load_of_fault (by rw [Registers.length_take]; exact h)
    simp only [exec, stored]
  | loadRegisters x => simp only [exec, m.memory.slice_of_fault h]
  | unknown word =>
    cases h
    rfl
  | _ => cases h

/-- Any other operation is carried out. -/
theorem exec_of_no_fault {op : Op} {m : Machine} (h : op.fault m.index m.stack.depth = none) :
    (exec op m).1 = .ok () := by
  cases op with
  | ret =>
    simp only [Op.fault, CallStack.depth] at h
    cases frames : m.stack.frames with
    | nil => simp [frames] at h
    | cons addr rest => simp only [exec, CallStack.pop, frames, done]
  | call addr =>
    simp only [Op.fault] at h
    split at h
    · next room => simp only [exec, CallStack.push, if_pos room, done]
    · cases h
  | draw x y n =>
    obtain ⟨bytes, read⟩ := m.memory.slice_of_no_fault h
    simp only [exec, read, done]
  | awaitKey x =>
    simp only [exec]
    split <;> rfl
  | storeDecimal x =>
    obtain ⟨memory, stored⟩ : ∃ memory, m.storeAtIndex (decimalDigits (m.reg x)) = .ok memory :=
      ⟨_, m.memory.load_of_no_fault h⟩
    simp only [exec, stored, done]
  | storeRegisters x =>
    obtain ⟨memory, stored⟩ : ∃ memory,
        m.storeAtIndex (m.regs.take (x.toNat + 1)) = .ok memory :=
      ⟨_, m.memory.load_of_no_fault (by rw [Registers.length_take]; exact h)⟩
    simp only [exec, stored, done]
  | loadRegisters x =>
    obtain ⟨bytes, read⟩ := m.memory.slice_of_no_fault h
    simp only [exec, read, done]
  | unknown word => cases h
  | _ => rfl

/-! ## Steps -/

/-- The word at the program counter. -/
def word (m : Machine) : UInt16 := m.memory.word m.pc.toNat

/-- The operation at the program counter. -/
def nextOp (m : Machine) : Op := .decode m.word

theorem fetch_of_lt {m : Machine} (h : m.pc.toNat + 1 < Memory.size) :
    m.fetch = (.ok m.nextOp, m.advance) := by
  simp only [fetch, m.memory.readWord_of_lt h]
  rfl

theorem fetch_of_le {m : Machine} (h : Memory.size ≤ m.pc.toNat + 1) :
    m.fetch = (.error (.invalidAddress (if m.pc = 0xFFF then 0x1000 else m.pc)), m) := by
  simp only [fetch, m.memory.readWord_of_le h]

theorem toNat_advance_pc (m : Machine) : m.advance.pc.toNat = (m.pc.toNat + 2) % 0x1000 := by
  simp only [advance, goto, toNat_wrap, UInt16.toNat_add, UInt16.reduceToNat]
  omega

/-- Recovery undoes the fetch, unless the word was no instruction. -/
theorem recover_advance (m : Machine) {fault : Fault} (h : ∀ word, fault ≠ .unknownOpcode word) :
    m.advance.recover m.pc fault = m := by
  cases fault with
  | unknownOpcode word => exact absurd rfl (h word)
  | _ => rfl

theorem step_of_le {m : Machine} (h : Memory.size ≤ m.pc.toNat + 1) :
    m.step = failed m (.invalidAddress (if m.pc = 0xFFF then 0x1000 else m.pc)) := by
  simp only [step, fetch_of_le h]

theorem step_of_fault {m : Machine} (inside : m.pc.toNat + 1 < Memory.size) {fault : Fault}
    (h : m.nextOp.fault m.index m.stack.depth = some fault) :
    m.step = failed (m.advance.recover m.pc fault) fault := by
  have executed : exec m.nextOp m.advance = failed m.advance fault := exec_of_fault h
  simp only [step, fetch_of_lt inside, executed, failed]

theorem step_of_no_fault {m : Machine} (inside : m.pc.toNat + 1 < Memory.size)
    (h : m.nextOp.fault m.index m.stack.depth = none) :
    m.step = done (exec m.nextOp m.advance).2 := by
  have executed : exec m.nextOp m.advance = done (exec m.nextOp m.advance).2 :=
    Prod.ext (exec_of_no_fault h) rfl
  simp only [step, fetch_of_lt inside]
  rw [executed]
  rfl

/--
How a step goes.

Either no whole word is left at the program counter, or the operation there has a fault and the
step comes back from it, or the operation is carried out behind itself.
-/
theorem step_cases (m : Machine) :
    (Memory.size ≤ m.pc.toNat + 1 ∧
      m.step = failed m (.invalidAddress (if m.pc = 0xFFF then 0x1000 else m.pc))) ∨
    (m.pc.toNat + 1 < Memory.size ∧ ∃ fault, m.nextOp.fault m.index m.stack.depth = some fault ∧
      m.step = failed (m.advance.recover m.pc fault) fault) ∨
    (m.pc.toNat + 1 < Memory.size ∧ m.nextOp.fault m.index m.stack.depth = none ∧
      m.step = done (exec m.nextOp m.advance).2) := by
  rcases Nat.lt_or_ge (m.pc.toNat + 1) Memory.size with inside | beyond
  · right
    cases h : m.nextOp.fault m.index m.stack.depth with
    | some fault => exact Or.inl ⟨inside, fault, rfl, step_of_fault inside h⟩
    | none => exact Or.inr ⟨inside, rfl, step_of_no_fault inside h⟩
  · exact Or.inl ⟨beyond, step_of_le beyond⟩

/-- Where a word can be read, a step fails exactly with the fault of the operation it stands for. -/
theorem step_eq_error_iff {m : Machine} (h : m.pc.toNat + 1 < Memory.size) {fault : Fault} :
    m.step.1 = .error fault ↔ m.nextOp.fault m.index m.stack.depth = some fault := by
  obtain ⟨beyond, _⟩ | ⟨_, fault', hf, e⟩ | ⟨_, hf, e⟩ := m.step_cases
  · omega
  · rw [e, hf]
    simp [failed]
  · rw [e, hf]
    simp [done]

theorem step_eq_ok_iff {m : Machine} (h : m.pc.toNat + 1 < Memory.size) :
    m.step.1 = .ok () ↔ m.nextOp.fault m.index m.stack.depth = none := by
  obtain ⟨beyond, _⟩ | ⟨_, fault', hf, e⟩ | ⟨_, hf, e⟩ := m.step_cases
  · omega
  · rw [e, hf]
    simp [failed]
  · rw [e, hf]
    simp [done]

/-- A machine with default settings that has just loaded a program. -/
def loaded (program : List UInt8) : Machine :=
  ((fresh {} (.ofSeed 0)).load program (.ofSeed 0)).2

end Machine

end Chip8
