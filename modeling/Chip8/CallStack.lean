import Chip8.Fault

/-!
# Call stack

The return addresses of the open calls, at most sixteen of them.
-/

namespace Chip8

/-- The return addresses, the one of the latest call first. -/
structure CallStack where
  frames : List UInt16
  deriving DecidableEq

namespace CallStack

/-- How many calls can be open. -/
def depthLimit : Nat := 16

/-- No call open. -/
def empty : CallStack := ⟨[]⟩

/-- The number of open calls. -/
def depth (stack : CallStack) : Nat := stack.frames.length

/-- Opens a call that returns to `addr`. -/
def push (stack : CallStack) (addr : UInt16) : Except Fault CallStack :=
  if stack.depth < depthLimit then .ok ⟨addr :: stack.frames⟩ else .error .stackOverflow

/-- Closes the latest call and gives its return address. -/
def pop (stack : CallStack) : Except Fault (UInt16 × CallStack) :=
  match stack.frames with
  | [] => .error .stackUnderflow
  | addr :: rest => .ok (addr, ⟨rest⟩)

/-- What was pushed last is popped first. -/
theorem pop_of_push {stack stack' : CallStack} {addr : UInt16} (h : stack.push addr = .ok stack') :
    stack'.pop = .ok (addr, stack) := by
  unfold push at h
  split at h
  · cases h
    rfl
  · cases h

instance : Inspect CallStack where
  form stack := .record "Stack"
    [.field "addresses" (.list (stack.frames.reverse.map fun addr => .nat addr.toNat))]

end CallStack

end Chip8
