import Chip8.Proofs.Atomicity
import Chip8.Proofs.Bitmap

/-!
# What holds of every machine in use

* `Valid` — the program counter within twelve bits, at most sixteen open calls, and return addresses
  within twelve bits
* `reachable_valid` — every machine reached from a fresh one by any commands is valid, has the
  configuration it was given, and a screen whose cells, kept as bytes, are zeros and ones

The three parts of `Valid` hold each other up: the return addresses come from the program counter,
and the program counter goes back to them.
-/

namespace Chip8.Machine

/-- What holds of every machine in use. -/
structure Valid (m : Machine) : Prop where
  pc_le : m.pc.toNat ≤ 0xFFF
  depth_le : m.stack.depth ≤ 16
  frames_le : ∀ addr ∈ m.stack.frames, addr.toNat ≤ 0xFFF

variable {m m' : Machine}

theorem toNat_wrap_le (addr : UInt16) : (wrap addr).toNat ≤ 0xFFF := by
  rw [toNat_wrap]
  omega

/-- Only the program counter and the open calls are looked at. -/
theorem Valid.of_same (h : m.Valid) (pc : m'.pc = m.pc) (stack : m'.stack = m.stack) :
    m'.Valid where
  pc_le := pc ▸ h.pc_le
  depth_le := stack ▸ h.depth_le
  frames_le := stack ▸ h.frames_le

theorem valid_fresh (config : Config) (drawn : Random) : (fresh config drawn).Valid where
  pc_le := show Memory.programStart.toNat ≤ 0xFFF by decide
  depth_le := Nat.zero_le 16
  frames_le := fun _ h => nomatch h

theorem Valid.advance (h : m.Valid) : m.advance.Valid where
  pc_le := toNat_wrap_le _
  depth_le := h.depth_le
  frames_le := h.frames_le

theorem Valid.exec (h : m.Valid) (op : Op) : (exec op m).2.Valid := by
  obtain same | ⟨addr, rfl, room, e⟩ | ⟨rfl, addr, rest, frames, e⟩ := exec_stack op m
  · refine ⟨?_, same ▸ h.depth_le, same ▸ h.frames_le⟩
    -- the stack is as it was, so only the new program counter is in question
    rcases exec_pc op m with pc | ⟨addr, pc⟩
    · exact pc ▸ h.pc_le
    · rw [pc]
      exact toNat_wrap_le addr
  · rw [e]
    refine ⟨toNat_wrap_le addr, room, ?_⟩
    intro frame hframe
    rcases List.mem_cons.mp hframe with rfl | hframe
    · exact h.pc_le
    · exact h.frames_le frame hframe
  · rw [e]
    have shorter : rest.length + 1 ≤ 16 := by
      rw [← List.length_cons, ← frames]
      exact h.depth_le
    refine ⟨toNat_wrap_le addr, Nat.le_of_succ_le shorter, ?_⟩
    intro frame hframe
    exact h.frames_le frame (by rw [frames]; exact List.mem_cons_of_mem _ hframe)

theorem Valid.step (h : m.Valid) : m.step.2.Valid := by
  obtain ⟨_, e⟩ | ⟨_, fault, _, e⟩ | ⟨_, _, e⟩ := m.step_cases
  · rw [e]
    exact h
  · rw [e]
    cases fault with
    | unknownOpcode word => exact h.advance
    | _ => exact h
  · rw [e]
    exact h.advance.exec m.nextOp

theorem Valid.pulse (h : m.Valid) (p : Pulse) : (m.pulse p).Valid := by
  cases p with
  | step => exact h.step
  | tick => exact h.of_same rfl rfl
  | keys change => exact h.of_same rfl rfl

theorem Valid.obey (h : m.Valid) (command : Command) : (m.obey command).Valid := by
  cases command with
  | load program drawn =>
    obtain ⟨memory, e⟩ | ⟨fault, e⟩ := m.load_cases program drawn
    · rw [Machine.obey, e]
      exact (valid_fresh m.config drawn).of_same rfl rfl
    · rw [Machine.obey, e]
      exact h
  | reset drawn => exact valid_fresh m.config drawn
  | fetch =>
    rcases m.fetch_snd with e | e
    · rw [Machine.obey, e]
      exact h.advance
    · rw [Machine.obey, e]
      exact h
  | exec word => exact h.exec (.decode word)
  | pulse p => exact h.pulse p

/-! ## The configuration -/

theorem step_config (m : Machine) : m.step.2.config = m.config := by
  obtain ⟨_, e⟩ | ⟨_, fault, _, e⟩ | ⟨_, _, e⟩ := m.step_cases
  · rw [e]
    rfl
  · rw [e]
    cases fault <;> rfl
  · rw [e]
    exact exec_config m.nextOp m.advance

theorem obey_config (m : Machine) (command : Command) : (m.obey command).config = m.config := by
  cases command with
  | load program drawn =>
    obtain ⟨memory, e⟩ | ⟨fault, e⟩ := m.load_cases program drawn
    · rw [obey, e]
      rfl
    · rw [obey, e]
  | reset drawn => rfl
  | fetch =>
    rcases m.fetch_snd with e | e
    · rw [obey, e]
      rfl
    · rw [obey, e]
  | exec word => exact exec_config (.decode word) m
  | pulse p =>
    cases p with
    | step => exact m.step_config
    | tick => rfl
    | keys change => rfl

/-! ## Reachable machines -/

/--
**What holds of every reachable machine.**

Take a fresh machine and any row of commands: programs that fit or not, resets, steps that go well
or fail, operations by hand, ticks, keys. The machine after it is valid and has its first
configuration. Its screen, kept as bytes from the start on, has 64 times 32 cells, each zero or one,
and these are the cells of the screen.
-/
theorem reachable_valid (config : Config) (drawn : Random) (commands : List Command) :
    ((fresh config drawn).obeyAll commands).Valid ∧
    (∀ cell ∈ ((fresh config drawn).picture .blank commands).cells, cell = 0 ∨ cell = 1) ∧
    ((fresh config drawn).picture .blank commands).cells.length = 64 * 32 ∧
    (fresh config drawn).picture .blank commands =
      .ofScreen ((fresh config drawn).obeyAll commands).screen ∧
    ((fresh config drawn).obeyAll commands).config = config := by
  have picture : (fresh config drawn).picture .blank commands =
      .ofScreen ((fresh config drawn).obeyAll commands).screen := by
    rw [Bitmap.blank_eq_ofScreen]
    exact picture_ofScreen (fresh config drawn) commands
  refine ⟨?_, ?_, ?_, picture, ?_⟩
  · exact obeyAll_induction (fun m command h => h.obey command) (valid_fresh config drawn) commands
  · rw [picture]
    exact fun cell => Bitmap.mem_ofScreen
  · rw [picture]
    exact Bitmap.length_ofScreen _
  · refine obeyAll_induction (P := fun m => m.config = config) ?_ rfl commands
    intro m command h
    rw [obey_config]
    exact h

end Chip8.Machine
