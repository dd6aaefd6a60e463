import Chip8.Proofs.Decoding
import Chip8.Proofs.Strict.Parts

/-!
# The machine, read strictly

The strict reading of whole commands, put together from that of the parts.

* `no_check_fails` — whatever program a machine is given and whatever it is told, no check of the
  strict reading fails, and it gives the answers and the machine that the machine itself gives

All checks but one hold for any operands, by the sizes of their types and the bounds that are
checked before. Only the offset of a jump needs more: the sum stays within its 16 bits because a
decoded address has twelve. An operation put together by hand may break it.
-/

namespace Chip8.Strict

/-! ## Reading a word -/

/-- One of the two digits in the middle of a word, by how far it is from the right. -/
def digit (w : UInt16) (k : Nat) : Option UInt8 :=
  (shiftRightWord w k).map fun shifted => (shifted &&& 0xF).toUInt8

/-- The operation a word stands for. -/
def decode (w : UInt16) : Option Op := do
  let x ← digit w 8
  let y ← digit w 4
  let family ← shiftRightWord w 12
  let n := Word.n w
  let nn := Word.nn w
  let nnn := Word.nnn w
  return match family.toUInt8.toNat with
  | 0x0 => if w = 0x00E0 then .clear else if w = 0x00EE then .ret else .unknown w
  | 0x1 => .jump nnn
  | 0x2 => .call nnn
  | 0x3 => .skipIfByte x nn
  | 0x4 => .skipUnlessByte x nn
  | 0x5 => if n.toNat = 0 then .skipIfSame x y else .unknown w
  | 0x6 => .setByte x nn
  | 0x7 => .addByte x nn
  | 0x8 =>
    match n.toNat with
    | 0x0 => .copy x y
    | 0x1 => .or x y
    | 0x2 => .and x y
    | 0x3 => .xor x y
    | 0x4 => .add x y
    | 0x5 => .sub x y
    | 0x6 => .shiftRight x y
    | 0x7 => .subFrom x y
    | 0xE => .shiftLeft x y
    | _ => .unknown w
  | 0x9 => if n.toNat = 0 then .skipUnlessSame x y else .unknown w
  | 0xA => .setIndex nnn
  | 0xB => .jumpOffset nnn
  | 0xC => .random x nn
  | 0xD => .draw x y n
  | 0xE =>
    match nn.toNat with
    | 0x9E => .skipIfKey x
    | 0xA1 => .skipUnlessKey x
    | _ => .unknown w
  | 0xF =>
    match nn.toNat with
    | 0x07 => .getDelay x
    | 0x0A => .awaitKey x
    | 0x15 => .setDelay x
    | 0x18 => .setSound x
    | 0x1E => .addIndex x
    | 0x29 => .pointGlyph x
    | 0x33 => .storeDecimal x
    | 0x55 => .storeRegisters x
    | 0x65 => .loadRegisters x
    | _ => .unknown w
  | _ => .unknown w

theorem digit_of_lt (w : UInt16) {k : Nat} (h : k < 16) :
    digit w k = some (.ofNat (w.toNat >>> k % 16)) := by
  rw [digit, shiftRightWord_of_lt w h, Option.map_some]
  refine congrArg some (UInt8.toNat_inj.mp ?_)
  rw [UInt16.toNat_toUInt8, UInt16.toNat_and, UInt16.toNat_shiftRight, UInt16.toNat_ofNat',
    UInt8.toNat_ofNat', Nat.mod_eq_of_lt (show k < 2 ^ 16 by omega), Nat.mod_eq_of_lt h]
  exact congrArg (· % 2 ^ 8) (Nat.and_two_pow_sub_one_eq_mod _ 4)

theorem digit_x (w : UInt16) : digit w 8 = some (Word.x w) := by
  rw [digit_of_lt w (by decide)]
  refine congrArg some (UInt8.toNat_inj.mp ?_)
  rw [UInt8.toNat_ofNat', Word.toNat_x, Nat.shiftRight_eq_div_pow]
  omega

theorem digit_y (w : UInt16) : digit w 4 = some (Word.y w) := by
  rw [digit_of_lt w (by decide)]
  refine congrArg some (UInt8.toNat_inj.mp ?_)
  rw [UInt8.toNat_ofNat', Word.toNat_y, Nat.shiftRight_eq_div_pow]
  omega

theorem family_eq (w : UInt16) :
    (shiftRightWord w 12).map UInt16.toUInt8 = some (Word.family w) := by
  rw [shiftRightWord_of_lt w (by decide), Option.map_some]
  refine congrArg some (UInt8.toNat_inj.mp ?_)
  have := w.toNat_lt
  rw [UInt16.toNat_toUInt8, UInt16.toNat_shiftRight, Word.toNat_family, Nat.shiftRight_eq_div_pow]
  show w.toNat / 2 ^ 12 % 2 ^ 8 = w.toNat / 0x1000
  omega

@[simp] theorem decode_eq (w : UInt16) : decode w = some (Op.decode w) := by
  obtain ⟨family, shifted, same⟩ := Option.map_eq_some_iff.mp (family_eq w)
  simp only [decode, digit_x, digit_y, shifted, Option.bind_eq_bind, Option.bind_some, same]
  rfl

/-! ## Carrying out an operation -/

/-- Sets a register and then the flag. -/
def setRegFlag (regs : Registers) (r v : UInt8) (on : Bool) : Option Registers := do
  setFlag (← setReg regs r v) on

/-- The value that a shift starts from. -/
def shiftSource (m : Machine) (x y : UInt8) : Option UInt8 :=
  if m.config.dialect.shiftsVY then getReg m.regs y else getReg m.regs x

/-- Stores `len` bytes at the index; what they are is asked once their places are known. -/
def storeAtIndex (m : Machine) (len : Nat) (bytes : Option (List UInt8)) :
    Option (Except Fault Memory) := do
  match ← places m.index len with
  | .ok (start, stop) => return .ok (← copy m.memory start stop (← bytes))
  | .error fault => return .error fault

/-- Carries out an operation. -/
def exec (op : Op) (m : Machine) : Option (Except Fault Unit × Machine) :=
  let set (regs : Registers) := Machine.done { m with regs }
  match op with
  -- no number is reckoned with and no place is looked up
  | .clear | .ret | .jump _ | .call _ | .setIndex _ | .unknown _ => some (Machine.exec op m)
  | .skipIfByte x b => do return (m.skipIf ((← getReg m.regs x) == b)).done
  | .skipUnlessByte x b => do return (m.skipIf ((← getReg m.regs x) != b)).done
  | .skipIfSame x y => do
    return (m.skipIf ((← getReg m.regs x) == (← getReg m.regs y))).done
  | .skipUnlessSame x y => do
    return (m.skipIf ((← getReg m.regs x) != (← getReg m.regs y))).done
  | .setByte x b => do return set (← setReg m.regs x b)
  | .addByte x b => do return set (← setReg m.regs x ((← getReg m.regs x) + b))
  | .copy x y => do return set (← setReg m.regs x (← getReg m.regs y))
  | .or x y => do return set (← setReg m.regs x ((← getReg m.regs x) ||| (← getReg m.regs y)))
  | .and x y => do return set (← setReg m.regs x ((← getReg m.regs x) &&& (← getReg m.regs y)))
  | .xor x y => do return set (← setReg m.regs x ((← getReg m.regs x) ^^^ (← getReg m.regs y)))
  -- these three are meant to wrap, and the flag tells if they did
  | .add x y => do
    let a ← getReg m.regs x
    let b ← getReg m.regs y
    return set (← setRegFlag m.regs x (a + b) (decide (256 ≤ a.toNat + b.toNat)))
  | .sub x y => do
    let a ← getReg m.regs x
    let b ← getReg m.regs y
    return set (← setRegFlag m.regs x (a - b) (decide (b ≤ a)))
  | .subFrom x y => do
    let a ← getReg m.regs x
    let b ← getReg m.regs y
    return set (← setRegFlag m.regs x (b - a) (decide (a ≤ b)))
  | .shiftLeft x y => do
    let v ← shiftSource m x y
    return set (← setRegFlag m.regs x (← shiftLeft v 1) ((← shiftRight v 7) == 1))
  | .shiftRight x y => do
    let v ← shiftSource m x y
    return set (← setRegFlag m.regs x (← shiftRight v 1) (v &&& 1 == 1))
  | .jumpOffset addr => do
    return (m.goto (← word (addr.toNat + (← getReg m.regs 0).toNat))).done
  | .random x mask => do
    let (b, rng) := m.rng.next
    return Machine.done { m with regs := ← setReg m.regs x (mask &&& b), rng }
  | .draw x y n => do
    let a ← getReg m.regs x
    let b ← getReg m.regs y
    match ← slice m.memory m.index n.toNat with
    | .ok bytes =>
      let regs ← setFlag m.regs false
      let (screen, collision) ← paint m.screen a b bytes
      return Machine.done { m with screen, regs := ← setFlag regs collision }
    | .error fault => return m.failed fault
  | .skipIfKey x => do
    return (m.skipIf (← isPressed m.keypad (← getReg m.regs x))).done
  | .skipUnlessKey x => do
    return (m.skipIf (!(← isPressed m.keypad (← getReg m.regs x)))).done
  | .getDelay x => do return set (← setReg m.regs x m.timers.delay)
  | .awaitKey x =>
    match m.keypad.firstPressed with
    | some key => do return set (← setReg m.regs x key)
    | none => some m.rewind.done
  | .setDelay x => do
    return Machine.done { m with timers := { m.timers with delay := ← getReg m.regs x } }
  | .setSound x => do
    return Machine.done { m with timers := { m.timers with sound := ← getReg m.regs x } }
  | .addIndex x => do
    return Machine.done { m with index := m.index + (← getReg m.regs x).toUInt16 }
  | .pointGlyph x => do
    return Machine.done { m with index := ← glyphAddr (← getReg m.regs x) }
  | .storeDecimal x => do
    let digits := Machine.decimalDigits (← getReg m.regs x)
    match ← storeAtIndex m digits.length (some digits) with
    | .ok memory => return Machine.done { m with memory }
    | .error fault => return m.failed fault
  | .storeRegisters x => do
    let count ← size (x.toNat + 1)
    match ← storeAtIndex m count (take m.regs count) with
    | .ok memory => return Machine.done { m with memory, index := m.indexAfter count }
    | .error fault => return m.failed fault
  | .loadRegisters x => do
    let count ← size (x.toNat + 1)
    match ← slice m.memory m.index count with
    | .ok bytes =>
      return Machine.done
        { m with regs := ← setAll m.regs 0 bytes, index := m.indexAfter count }
    | .error fault => return m.failed fault

@[simp] theorem setRegFlag_eq (regs : Registers) (r v : UInt8) (on : Bool) :
    setRegFlag regs r v on = some ((regs.set r v).setFlag on) := by
  simp only [setRegFlag, setReg_eq, setFlag_eq, Option.bind_eq_bind, Option.bind_some]

@[simp] theorem shiftSource_eq (m : Machine) (x y : UInt8) :
    shiftSource m x y = some (m.shiftSource x y) := by
  unfold shiftSource Machine.shiftSource
  split
  · exact getReg_eq m.regs y
  · exact getReg_eq m.regs x

/-- One more than a register number leaves room to spare. -/
theorem size_succ (x : UInt8) : size (x.toNat + 1) = some (x.toNat + 1) := by
  have := x.toNat_lt
  exact size_of_lt (by omega)

/-- So does an address with a few bytes behind it. -/
theorem addr_add_lt (addr : UInt16) {len : Nat} (short : len ≤ 0x100) :
    addr.toNat + len < 0x10000000000000000 := by
  have := addr.toNat_lt
  omega

/-- Twelve bits and a byte make no more than sixteen bits. -/
theorem word_add {addr : UInt16} (twelve : addr.toNat < 0x1000) (v : UInt8) :
    word (addr.toNat + v.toNat) = some (addr + v.toUInt16) := by
  have := v.toNat_lt
  rw [word_of_lt (by omega)]
  refine congrArg some (UInt16.toNat_inj.mp ?_)
  rw [UInt16.toNat_ofNat', UInt16.toNat_add, UInt8.toNat_toUInt16]

theorem storeAtIndex_eq (m : Machine) {len : Nat} {bytes : List UInt8} (many : bytes.length = len)
    (short : len ≤ 0x100) : storeAtIndex m len (some bytes) = some (m.storeAtIndex bytes) := by
  subst many
  simp only [storeAtIndex, places_eq (addr_add_lt m.index short), Option.bind_eq_bind,
    Option.bind_some, Machine.storeAtIndex, Memory.load]
  by_cases inside : m.index.toNat + bytes.length ≤ Memory.size
  · simp only [if_pos inside, copy_of_length m.memory rfl inside, Option.bind_some]
    rfl
  · simp only [if_neg inside]
    rfl

/-- The flag that is set before painting is set again after it. -/
theorem setFlag_setFlag (regs : Registers) (on on' : Bool) :
    (regs.setFlag on).setFlag on' = regs.setFlag on' := by
  simp only [Registers.setFlag, Registers.set, Vector.set_set]

theorem exec_draw (x y n : UInt8) (m : Machine) :
    exec (.draw x y n) m = some (Machine.exec (.draw x y n) m) := by
  have n_lt := n.toNat_lt
  have rows : n.toNat ≤ 0x100 := by omega
  simp only [exec, getReg_eq, slice_eq m.memory (addr_add_lt m.index rows), Option.bind_eq_bind,
    Option.bind_some, Machine.exec]
  cases h : m.memory.slice m.index n.toNat with
  | error fault => rfl
  | ok bytes =>
    have short : bytes.length ≤ 0x100 := Memory.length_of_slice h ▸ rows
    simp only [setFlag_eq, Option.bind_some, paint_eq m.screen _ _ short, setFlag_setFlag]
    rfl

theorem exec_storeDecimal (x : UInt8) (m : Machine) :
    exec (.storeDecimal x) m = some (Machine.exec (.storeDecimal x) m) := by
  have three : (Machine.decimalDigits (m.regs.get x)).length ≤ 0x100 := show 3 ≤ 0x100 by decide
  simp only [exec, getReg_eq, storeAtIndex_eq m rfl three, Option.bind_eq_bind, Option.bind_some,
    Machine.exec, Machine.reg]
  cases m.storeAtIndex (Machine.decimalDigits (m.regs.get x)) <;> rfl

theorem exec_storeRegisters (x : UInt8) (m : Machine) :
    exec (.storeRegisters x) m = some (Machine.exec (.storeRegisters x) m) := by
  simp only [exec, size_succ, take_eq, storeAtIndex_eq m (Registers.length_take ..) x.toNat_lt,
    Option.bind_eq_bind, Option.bind_some, Machine.exec]
  cases m.storeAtIndex (m.regs.take (x.toNat + 1)) <;> rfl

theorem exec_loadRegisters (x : UInt8) (m : Machine) :
    exec (.loadRegisters x) m = some (Machine.exec (.loadRegisters x) m) := by
  simp only [exec, size_succ, slice_eq m.memory (addr_add_lt m.index x.toNat_lt),
    Option.bind_eq_bind, Option.bind_some, Machine.exec]
  cases m.memory.slice m.index (x.toNat + 1) with
  | error fault => rfl
  | ok bytes =>
    simp only [setAll_eq, Option.bind_some]
    rfl

/-- An operation read from a word is carried out without a check that fails. -/
theorem exec_eq {op : Op} {w : UInt16} (from_word : op.ReadFrom w) (m : Machine) :
    exec op m = some (Machine.exec op m) := by
  cases op with
  | jumpOffset addr =>
    have twelve : addr.toNat < 0x1000 := by
      rw [show addr = Word.nnn w from from_word, Word.toNat_nnn]
      exact Nat.mod_lt _ (by decide)
    simp only [exec, getReg_eq, word_add twelve, Option.bind_eq_bind, Option.bind_some]
    rfl
  | draw x y n => exact exec_draw x y n m
  | storeDecimal x => exact exec_storeDecimal x m
  | storeRegisters x => exact exec_storeRegisters x m
  | loadRegisters x => exact exec_loadRegisters x m
  | awaitKey x =>
    simp only [exec, Machine.exec]
    cases m.keypad.firstPressed with
    | none => rfl
    | some key =>
      simp only [setReg_eq, Option.bind_eq_bind, Option.bind_some]
      rfl
  | clear | ret | jump | call | setIndex | unknown => rfl
  | shiftLeft x y | shiftRight x y =>
    simp only [exec, shiftSource_eq, shiftLeft_of_lt _ (show 1 < 8 by decide),
      shiftRight_of_lt _ (show 1 < 8 by decide), shiftRight_of_lt _ (show 7 < 8 by decide),
      setRegFlag_eq, Option.bind_eq_bind, Option.bind_some]
    rfl
  | _ =>
    simp only [exec, getReg_eq, setReg_eq, setRegFlag_eq, isPressed_eq, glyphAddr_eq,
      Option.bind_eq_bind, Option.bind_some]
    rfl

/-! ## Commands -/

/-- Reads the next operation and moves on past it. -/
def fetch (m : Machine) : Option (Except Fault Op × Machine) :=
  match m.memory.readWord m.pc with
  | .ok w => do return (.ok (← decode w), m.advance)
  | .error fault => some (.error fault, m)

/-- Reads the next operation and carries it out. -/
def step (m : Machine) : Option (Except Fault Unit × Machine) := do
  match ← fetch m with
  | (.error fault, m') => return m'.failed fault
  | (.ok op, m') =>
    match ← exec op m' with
    | (.ok (), m'') => return m''.done
    | (.error fault, m'') => return (m''.recover m.pc fault).failed fault

/-- A machine that has done nothing yet. -/
def fresh (config : Config) (drawn : Random) : Option Machine := do
  return { Machine.fresh config drawn with memory := ← freshMemory }

/-- Starts over with a program in memory. -/
def loadProgram (m : Machine) (program : List UInt8) (drawn : Random) :
    Option (Except Fault Unit × Machine) := do
  let start ← fresh m.config drawn
  match ← load start.memory program Memory.programStart.toNat with
  | .ok memory => return (.ok (), { start with memory })
  | .error fault => return (.error fault, m)

/-- What a command gives back, and the machine after it. -/
def obey (m : Machine) : Command → Option (Answer × Machine)
  | .load program drawn => do
    let (result, m') ← loadProgram m program drawn
    return (.outcome result, m')
  | .reset drawn => do return (.nothing, ← fresh m.config drawn)
  | .fetch => do
    let (result, m') ← fetch m
    return (.fetched result, m')
  | .exec w => do
    let (result, m') ← exec (← decode w) m
    return (.outcome result, m')
  | .pulse .step => do
    let (result, m') ← step m
    return (.outcome result, m')
  | .pulse .tick => do
    let (level, timers) ← tick m.timers
    return (.level level, { m with timers })
  | .pulse (.keys keys) => do return (.nothing, { m with keypad := ← change m.keypad keys })

/-- What a row of commands gives back, and the machine after them. -/
def obeyAll (m : Machine) : List Command → Option (List Answer × Machine)
  | [] => some ([], m)
  | command :: commands => do
    let (answer, m') ← obey m command
    let (answers, m'') ← obeyAll m' commands
    return (answer :: answers, m'')

@[simp] theorem fetch_eq (m : Machine) : fetch m = some m.fetch := by
  unfold fetch Machine.fetch
  cases m.memory.readWord m.pc with
  | ok w =>
    simp only [decode_eq, Option.bind_eq_bind, Option.bind_some]
    rfl
  | error fault => rfl

theorem step_eq (m : Machine) : step m = some m.step := by
  simp only [step, fetch_eq, Option.bind_eq_bind, Option.bind_some, Machine.step, Machine.fetch]
  cases m.memory.readWord m.pc with
  | error fault => rfl
  | ok w =>
    simp only [exec_eq (Op.readFrom_decode w), Option.bind_some]
    rcases Machine.exec (Op.decode w) m.advance with ⟨_ | _, _⟩ <;> rfl

@[simp] theorem fresh_eq (config : Config) (drawn : Random) :
    fresh config drawn = some (Machine.fresh config drawn) := by
  simp only [fresh, freshMemory_eq, Option.bind_eq_bind, Option.bind_some]
  rfl

theorem loadProgram_eq (m : Machine) (program : List UInt8) (drawn : Random) :
    loadProgram m program drawn = some (m.load program drawn) := by
  simp only [loadProgram, fresh_eq, load_eq, Option.bind_eq_bind, Option.bind_some, Machine.load,
    Machine.reset]
  cases (Machine.fresh m.config drawn).memory.load program Memory.programStart.toNat <;> rfl

/-- **One command** is obeyed without a check that fails. -/
theorem obey_eq (m : Machine) (command : Command) :
    obey m command = some (m.answer command, m.obey command) := by
  cases command with
  | load program drawn =>
    simp only [obey, loadProgram_eq, Option.bind_eq_bind, Option.bind_some]
    rfl
  | reset drawn =>
    simp only [obey, fresh_eq, Option.bind_eq_bind, Option.bind_some]
    rfl
  | fetch =>
    simp only [obey, fetch_eq, Option.bind_eq_bind, Option.bind_some]
    rfl
  | exec w =>
    simp only [obey, decode_eq, exec_eq (Op.readFrom_decode w), Option.bind_eq_bind,
      Option.bind_some]
    rfl
  | pulse p =>
    cases p with
    | step =>
      simp only [obey, step_eq, Option.bind_eq_bind, Option.bind_some]
      rfl
    | tick =>
      simp only [obey, tick_eq, Option.bind_eq_bind, Option.bind_some]
      rfl
    | keys keys =>
      simp only [obey, change_eq, Option.bind_eq_bind, Option.bind_some]
      rfl

/-- **A row of commands** is obeyed without a check that fails. -/
theorem obeyAll_eq (m : Machine) (commands : List Command) :
    obeyAll m commands = some (m.answers commands, m.obeyAll commands) := by
  induction commands generalizing m with
  | nil => rfl
  | cons command commands ih =>
    simp only [obeyAll, obey_eq, ih, Option.bind_eq_bind, Option.bind_some]
    rfl

/-- **No check fails.** From a fresh machine on, whatever it is told, every sum, difference, product
and shift stays within its type and every place is there: the strict reading comes to the answers
and the machine of the reading that checks nothing. So does asking for a key afterwards. -/
theorem no_check_fails (config : Config) (drawn : Random) (commands : List Command) (key : UInt8) :
    let m := Machine.fresh config drawn
    (do obeyAll (← fresh config drawn) commands) =
      some (m.answers commands, m.obeyAll commands) ∧
    isPressed (m.obeyAll commands).keypad key =
      some ((m.obeyAll commands).keypad.isPressed key) := by
  intro m
  refine ⟨?_, isPressed_eq _ key⟩
  simp only [fresh_eq, Option.bind_eq_bind, Option.bind_some]
  exact obeyAll_eq m commands

/-- An address of sixteen bits leaves no room for the offset: here the strict reading ends. -/
example (m : Machine) :
    exec (.jumpOffset 0xFFFF) { m with regs := ⟨Vector.replicate 16 1⟩ } = none := rfl

end Chip8.Strict
