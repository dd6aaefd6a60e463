import Chip8.Proofs.Step

/-!
# What operations do to the parts of a machine

One lemma for each part that later arguments follow along a run.

* `exec_pc` — the program counter stays or is set within twelve bits
* `exec_stack` — only calls and returns touch the open calls, and both also jump
* `exec_screen` — the screen changes by what `Op.drawing` says
* `exec_memory` — memory changes by what `Op.stored` says
* `exec_keypad`, `exec_config` — the keys and the configuration stay
-/

namespace Chip8

/-! ## Drawing -/

/-- A change of the screen. -/
inductive Drawing where
  | clear
  | paint (x y : UInt8) (rows : List UInt8)

/-- The screen after a change. -/
def Screen.draw (screen : Screen) : Drawing → Screen
  | .clear => .blank
  | .paint x y rows => (screen.paint x y rows).1

/-- The change of the screen that an operation makes on a machine, if it makes one. -/
def Op.drawing (op : Op) (m : Machine) : Option Drawing :=
  match op with
  | .clear => some .clear
  | .draw x y n =>
    match m.memory.slice m.index n.toNat with
    | .ok rows => some (.paint (m.reg x) (m.reg y) rows)
    | .error _ => none
  | _ => none

/-! ## Storing -/

/-- The bytes that an operation stores from the index on, if it stores any. -/
def Op.stored (op : Op) (m : Machine) : Option (List UInt8) :=
  match op with
  | .storeDecimal x => some (Machine.decimalDigits (m.reg x))
  | .storeRegisters x => some (m.regs.take (x.toNat + 1))
  | _ => none

namespace Machine

/-! ## One operation -/

/-- A skip as an update of one field, so that the other fields are seen not to depend on it. -/
theorem skipIf_eq (m : Machine) (condition : Bool) :
    m.skipIf condition = { m with pc := if condition then wrap (m.pc + 2) else m.pc } := by
  cases condition with
  | false => rfl
  | true => rfl

theorem exec_config (op : Op) (m : Machine) : (exec op m).2.config = m.config := by
  cases op
  all_goals
    simp only [exec, skipIf_eq]
    repeat' split
  all_goals rfl

theorem exec_keypad (op : Op) (m : Machine) : (exec op m).2.keypad = m.keypad := by
  cases op
  all_goals
    simp only [exec, skipIf_eq]
    repeat' split
  all_goals rfl

theorem exec_memory {op : Op} {m : Machine} (h : op.fault m.index m.stack.depth = none) :
    (exec op m).2.memory = (op.stored m).elim m.memory (m.memory.putAll m.index.toNat) := by
  cases op with
  | storeDecimal x =>
    have stored : m.storeAtIndex (decimalDigits (m.reg x)) =
        .ok (m.memory.putAll m.index.toNat (decimalDigits (m.reg x))) :=
      m.memory.load_of_no_fault h
    simp only [exec, stored]
    rfl
  | storeRegisters x =>
    have stored : m.storeAtIndex (m.regs.take (x.toNat + 1)) =
        .ok (m.memory.putAll m.index.toNat (m.regs.take (x.toNat + 1))) :=
      m.memory.load_of_no_fault (by rw [Registers.length_take]; exact h)
    simp only [exec, stored]
    rfl
  | _ =>
    simp only [exec, skipIf_eq]
    repeat' split
    all_goals rfl

theorem exec_screen (op : Op) (m : Machine) :
    (exec op m).2.screen = (op.drawing m).elim m.screen m.screen.draw := by
  cases op with
  | draw x y n =>
    simp only [exec, Op.drawing]
    cases m.memory.slice m.index n.toNat with
    | ok rows => rfl
    | error fault => rfl
  | _ =>
    simp only [exec, skipIf_eq]
    repeat' split
    all_goals rfl

theorem skipIf_pc (m : Machine) (condition : Bool) :
    (m.skipIf condition).pc = m.pc ∨ ∃ addr, (m.skipIf condition).pc = wrap addr := by
  cases condition with
  | false => exact Or.inl rfl
  | true => exact Or.inr ⟨_, rfl⟩

theorem exec_pc (op : Op) (m : Machine) :
    (exec op m).2.pc = m.pc ∨ ∃ addr, (exec op m).2.pc = wrap addr := by
  cases op with
  | jump addr => exact Or.inr ⟨addr, rfl⟩
  | jumpOffset addr => exact Or.inr ⟨_, rfl⟩
  | ret | call =>
    simp only [exec]
    split
    · exact Or.inr ⟨_, rfl⟩
    · exact Or.inl rfl
  | awaitKey =>
    simp only [exec]
    split
    · exact Or.inl rfl
    · exact Or.inr ⟨_, rfl⟩
  | skipIfByte | skipUnlessByte | skipIfSame | skipUnlessSame | skipIfKey | skipUnlessKey =>
    exact m.skipIf_pc _
  | draw | storeDecimal | storeRegisters | loadRegisters =>
    simp only [exec]
    split <;> exact Or.inl rfl
  | _ => exact Or.inl rfl

/-- An operation leaves the open calls alone, opens one or closes the latest. -/
theorem exec_stack (op : Op) (m : Machine) :
    (exec op m).2.stack = m.stack ∨
    (∃ addr, op = .call addr ∧ m.stack.depth < CallStack.depthLimit ∧
      exec op m = done { m with stack := ⟨m.pc :: m.stack.frames⟩, pc := wrap addr }) ∨
    (op = .ret ∧ ∃ addr rest, m.stack.frames = addr :: rest ∧
      exec op m = done { m with stack := ⟨rest⟩, pc := wrap addr }) := by
  cases op with
  | call addr =>
    by_cases room : m.stack.depth < CallStack.depthLimit
    · exact Or.inr (Or.inl ⟨addr, rfl, room, by simp only [exec, CallStack.push, if_pos room]⟩)
    · exact Or.inl (by simp only [exec, CallStack.push, if_neg room, failed])
  | ret =>
    cases frames : m.stack.frames with
    | nil => exact Or.inl (by simp only [exec, CallStack.pop, frames, failed])
    | cons addr rest =>
      exact Or.inr (Or.inr ⟨rfl, addr, rest, rfl, by simp only [exec, CallStack.pop, frames]⟩)
  | _ =>
    -- every other branch writes other fields
    left
    simp only [exec, skipIf_eq]
    repeat' split
    all_goals rfl

end Machine

end Chip8
