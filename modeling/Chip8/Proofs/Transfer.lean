import Chip8.Proofs.Dialects

/-!
# Registers to memory and back

* `Stores`, `Loads`, `StoresDigits` — what `FX55`, `FX65` and `FX33` do to bytes and registers
* `load_after_store`, `store_after_load` — each undoes the other
* `store_after_store` — a store that starts behind a store leaves the first range alone
* `transfers_exact` — all of this for any machine and any registers

A store and a load of as many registers at the same index go over the same bytes, so only the index
has to be put back between them. What a store does to memory is known from the bytes it stores
(`bytes_of_asked`), for registers and for digits alike.
-/

namespace Chip8.Machine

/-! ## What the instructions do -/

/-- The index after the instruction `word` has moved `V0` to `VX`. -/
def indexBehind (m : Machine) (word : UInt16) : Nat :=
  if m.config.dialect.advancesIndex then m.index.toNat + (Word.x word).toNat + 1
  else m.index.toNat

/-- The command carries out the instruction `word` and stores `V0` to `VX` from the index on. -/
structure Stores (m : Machine) (command : Command) (word : UInt16) : Prop where
  executed : command.executed m = some word
  block : ∀ k ≤ (Word.x word).toNat,
    (m.obey command).memory.byte (m.index.toNat + k) = m.reg (.ofNat k)
  others : ∀ a, a < m.index.toNat ∨ m.index.toNat + (Word.x word).toNat < a →
    (m.obey command).memory.byte a = m.memory.byte a
  regs : (m.obey command).regs = m.regs
  index : (m.obey command).index.toNat = m.indexBehind word
  index_le : (m.obey command).index.toNat ≤ 4096

/-- The command carries out the instruction `word` and loads `V0` to `VX` from the index on. -/
structure Loads (m : Machine) (command : Command) (word : UInt16) : Prop where
  executed : command.executed m = some word
  block : ∀ k ≤ (Word.x word).toNat,
    (m.obey command).reg (.ofNat k) = m.memory.byte (m.index.toNat + k)
  others : ∀ k < 16, (Word.x word).toNat < k → (m.obey command).reg (.ofNat k) = m.reg (.ofNat k)
  memory : (m.obey command).memory = m.memory
  index : (m.obey command).index.toNat = m.indexBehind word
  index_le : (m.obey command).index.toNat ≤ 4096

/-- The command carries out the instruction `word` and stores the decimal digits of `VX` at the
index. -/
structure StoresDigits (m : Machine) (command : Command) (word : UInt16) : Prop where
  executed : command.executed m = some word
  digits : ∃ hundreds tens ones, hundreds ≤ 9 ∧ tens ≤ 9 ∧ ones ≤ 9 ∧
    100 * hundreds + 10 * tens + ones = (m.reg (Word.x word)).toNat ∧
    ((m.obey command).memory.byte m.index.toNat).toNat = hundreds ∧
    ((m.obey command).memory.byte (m.index.toNat + 1)).toNat = tens ∧
    ((m.obey command).memory.byte (m.index.toNat + 2)).toNat = ones
  others : ∀ a, a < m.index.toNat ∨ m.index.toNat + 2 < a →
    (m.obey command).memory.byte a = m.memory.byte a

variable {m s : Machine} {command command' : Command} {word word' : UInt16}

/-- The index does not wrap: what it is moved over lies in memory. -/
theorem toNat_indexAfter (inside : m.index.toNat + (Word.x word).toNat + 1 ≤ 4096) :
    (m.indexAfter ((Word.x word).toNat + 1)).toNat = m.indexBehind word := by
  unfold indexAfter indexBehind
  split
  · rw [UInt16.toNat_add, UInt16.toNat_ofNat']
    omega
  · rfl

theorem indexBehind_le (inside : m.index.toNat + (Word.x word).toNat + 1 ≤ 4096) :
    m.indexBehind word ≤ 4096 := by
  unfold indexBehind
  split <;> omega

/-- An operation that stores bytes stores them from the index on, and changes no other byte. -/
theorem bytes_of_asked {op : Op} (bytes : List UInt8) (asked : command.asked m = some word)
    (read : Op.decode word = op) (no_fault : op.fault m.index m.stack.depth = none)
    (stored : ∀ pc, op.stored { m with pc } = some bytes)
    (inside : m.index.toNat + bytes.length ≤ Memory.size) :
    (∀ k < bytes.length,
      (m.obey command).memory.byte (m.index.toNat + k) = bytes.getD k 0) ∧
    ∀ a, a < m.index.toNat ∨ m.index.toNat + bytes.length ≤ a →
      (m.obey command).memory.byte a = m.memory.byte a := by
  obtain ⟨-, pc, e⟩ := obey_of_asked asked read no_fault
  have memory : (m.obey command).memory = m.memory.putAll m.index.toNat bytes := by
    have after := exec_memory (m := { m with pc }) no_fault
    rw [stored pc] at after
    rw [e]
    exact after
  rw [memory]
  constructor
  · intro k hk
    exact m.memory.byte_putAll_of_lt inside hk
  · intro a outside
    exact m.memory.byte_putAll_of_outside outside

theorem stores_of_asked (asked : command.asked m = some word)
    (fits : Pattern.storeRegisters.fits word)
    (inside : m.index.toNat + (Word.x word).toNat + 1 ≤ 4096) : m.Stores command word := by
  have read := Op.decode_of_fits_storeRegisters fits
  have no_fault : (Op.storeRegisters (Word.x word)).fault m.index m.stack.depth = none :=
    if_pos inside
  have length := m.regs.length_take ((Word.x word).toNat + 1)
  obtain ⟨executed, pc, e⟩ := obey_of_asked asked read no_fault
  obtain ⟨block, others⟩ := bytes_of_asked (m.regs.take ((Word.x word).toNat + 1)) asked read
    no_fault (fun _ => rfl) (by rw [length]; exact inside)
  rw [length] at block others
  have stored : { m with pc }.storeAtIndex (m.regs.take ((Word.x word).toNat + 1)) =
      .ok (m.memory.putAll m.index.toNat (m.regs.take ((Word.x word).toNat + 1))) :=
    if_pos (by rw [length]; exact inside)
  -- the registers and the index, which `bytes_of_asked` says nothing about
  simp only [exec, stored] at e
  have index : (m.obey command).index.toNat = m.indexBehind word := by
    rw [e]
    exact toNat_indexAfter inside
  refine ⟨executed, ?_, ?_, ?_, index, ?_⟩
  · intro k hk
    have place : k < (Word.x word).toNat + 1 := Nat.lt_succ_of_le hk
    rw [block k place]
    exact m.regs.getD_take place
  · intro a outside
    exact others a (by omega)
  · rw [e]
    rfl
  · rw [index]
    exact indexBehind_le inside

theorem loads_of_asked (asked : command.asked m = some word)
    (fits : Pattern.loadRegisters.fits word)
    (inside : m.index.toNat + (Word.x word).toNat + 1 ≤ 4096) : m.Loads command word := by
  have read := Op.decode_of_fits_loadRegisters fits
  obtain ⟨executed, pc, e⟩ := obey_of_asked asked read (if_pos inside)
  have count_le := Word.toNat_x_lt word
  obtain ⟨bytes, sliced⟩ : ∃ bytes, m.memory.slice m.index ((Word.x word).toNat + 1) = .ok bytes :=
    m.memory.slice_of_no_fault (if_pos inside)
  have length := Memory.length_of_slice sliced
  simp only [exec, sliced] at e
  have index : (m.obey command).index.toNat = m.indexBehind word := by
    rw [e]
    exact toNat_indexAfter inside
  have after : ∀ k < 16, (m.obey command).reg (.ofNat k) =
      if k < (Word.x word).toNat + 1 then bytes.getD k 0 else m.reg (.ofNat k) := by
    intro k hk
    rw [e]
    show (m.regs.setAll 0 bytes).get (.ofNat k) = _
    rw [Registers.get_setAll bytes m.regs (by omega), val_lowNibble_ofNat hk, length]
    simp only [Nat.zero_le, true_and, Nat.zero_add, Nat.sub_zero]
    rfl
  refine ⟨executed, ?_, ?_, ?_, index, ?_⟩
  · intro k hk
    have place : k < (Word.x word).toNat + 1 := Nat.lt_succ_of_le hk
    rw [after k (by omega), if_pos place]
    exact Memory.getD_of_slice sliced place
  · intro k hk above
    rw [after k hk, if_neg (by omega)]
  · rw [e]
    rfl
  · rw [index]
    exact indexBehind_le inside

/-! ## One after the other -/

/-- A load gets back what a store has stored, whatever the registers were in between. -/
theorem load_after_store (stores : m.Stores command word) (loads : s.Loads command' word')
    (same : Word.x word' = Word.x word) (memory : s.memory = (m.obey command).memory)
    (index : s.index = m.index) :
    ∀ k ≤ (Word.x word).toNat, (s.obey command').reg (.ofNat k) = m.reg (.ofNat k) := by
  intro k hk
  rw [loads.block k (by rw [same]; exact hk), memory, index]
  exact stores.block k hk

/-- A store puts back what a load has loaded. -/
theorem store_after_load (loads : m.Loads command word) (stores : s.Stores command' word')
    (same : Word.x word' = Word.x word) (memory : s.memory = (m.obey command).memory)
    (index : s.index = m.index)
    (regs : ∀ k ≤ (Word.x word).toNat, s.reg (.ofNat k) = (m.obey command).reg (.ofNat k)) :
    (s.obey command').memory = m.memory := by
  apply Memory.ext_byte
  intro a _
  by_cases outside : a < s.index.toNat ∨ s.index.toNat + (Word.x word').toNat < a
  · rw [stores.others a outside, memory, loads.memory]
  · obtain ⟨k, rfl⟩ : ∃ k, a = s.index.toNat + k := ⟨a - s.index.toNat, by omega⟩
    have place : k ≤ (Word.x word).toNat := by
      rw [← same]
      omega
    rw [stores.block k (by rw [same]; exact place), regs k place, loads.block k place, index]

/-- A store that starts behind a store leaves the first range and fills the next. -/
theorem store_after_store (first : m.Stores command word)
    (second : (m.obey command).Stores command' word')
    (index : (m.obey command).index.toNat = m.index.toNat + ((Word.x word).toNat + 1)) :
    (∀ k ≤ (Word.x word).toNat,
      ((m.obey command).obey command').memory.byte (m.index.toNat + k) = m.reg (.ofNat k)) ∧
    (∀ k ≤ (Word.x word').toNat,
      ((m.obey command).obey command').memory.byte
        (m.index.toNat + ((Word.x word).toNat + 1) + k) = m.reg (.ofNat k)) ∧
    ∀ a, a < m.index.toNat ∨
        m.index.toNat + ((Word.x word).toNat + 1) + (Word.x word').toNat < a →
      ((m.obey command).obey command').memory.byte a = m.memory.byte a := by
  have block := second.block
  have others := second.others
  rw [index] at block others
  refine ⟨?_, ?_, ?_⟩
  · intro k hk
    rw [others _ (by omega)]
    exact first.block k hk
  · intro k hk
    rw [block k hk, reg, first.regs]
    rfl
  · intro a outside
    rw [others a (by omega)]
    exact first.others a (by omega)

/-! ## Decimal digits -/

theorem decimalDigits_exact (v : UInt8) :
    ∃ hundreds tens ones : UInt8, decimalDigits v = [hundreds, tens, ones] ∧
      hundreds.toNat ≤ 9 ∧ tens.toNat ≤ 9 ∧ ones.toNat ≤ 9 ∧
      100 * hundreds.toNat + 10 * tens.toNat + ones.toNat = v.toNat := by
  have := v.toNat_lt
  refine ⟨v / 100, v / 10 % 10, v % 10, rfl, ?_⟩
  simp only [UInt8.toNat_div, UInt8.toNat_mod, UInt8.reduceToNat]
  omega

theorem digits_of_asked (asked : command.asked m = some word)
    (fits : Pattern.storeDecimal.fits word) (inside : m.index.toNat + 3 ≤ 4096) :
    m.StoresDigits command word := by
  have read := Op.decode_of_fits_storeDecimal fits
  have no_fault : (Op.storeDecimal (Word.x word)).fault m.index m.stack.depth = none :=
    if_pos inside
  obtain ⟨hundreds, tens, ones, digits, hundreds_le, tens_le, ones_le, value⟩ :=
    decimalDigits_exact (m.reg (Word.x word))
  obtain ⟨block, others⟩ := bytes_of_asked [hundreds, tens, ones] asked read no_fault
    (fun _ => congrArg some digits) inside
  refine ⟨executed_of_asked asked (by rw [read]; exact no_fault), ?_, ?_⟩
  · refine ⟨hundreds.toNat, tens.toNat, ones.toNat, hundreds_le, tens_le, ones_le, value, ?_, ?_, ?_⟩
    · exact congrArg UInt8.toNat (block 0 (by simp))
    · exact congrArg UInt8.toNat (block 1 (by simp))
    · exact congrArg UInt8.toNat (block 2 (by simp))
  · intro a outside
    exact others a (by simp; omega)

/--
**Registers go to memory and back exactly.**

Take any machine and any command that sets out to carry out one of these instructions, where what it
moves lies in memory, up to the last byte. `FX55` stores `V0` to `VX` in a row from the index on, and
`FX65` loads them from there; no other byte and no other register changes, and the index goes behind
the last byte in the dialect that moves it on and stays in the other.

Each undoes the other. Let there be any machine with the memory that the first has left and with the
index from before it. If the first was `FX55`, an `FX65` gets the registers back, whatever they are
by then; if it was `FX65` and the registers are still as loaded, an `FX55` leaves memory as it was.
In the dialect that moves the index on, two `FX55` one after the other store two ranges side by side.

`FX33` stores the three decimal digits of `VX`.
-/
theorem transfers_exact (m : Machine) {command : Command} {word : UInt16}
    (asked : command.asked m = some word) :
    (m.index.toNat + (Word.x word).toNat + 1 ≤ 4096 →
      (Pattern.storeRegisters.fits word → m.Stores command word) ∧
      (Pattern.loadRegisters.fits word → m.Loads command word) ∧
      ∀ (s : Machine) (command' : Command) (word' : UInt16), command'.asked s = some word' →
        Word.x word' = Word.x word → s.memory = (m.obey command).memory →
        s.index = m.index →
        (Pattern.storeRegisters.fits word → Pattern.loadRegisters.fits word' →
          command'.executed s = some word' ∧
          ∀ k ≤ (Word.x word).toNat, (s.obey command').reg (.ofNat k) = m.reg (.ofNat k)) ∧
        (Pattern.loadRegisters.fits word → Pattern.storeRegisters.fits word' →
          (∀ k ≤ (Word.x word).toNat, s.reg (.ofNat k) = (m.obey command).reg (.ofNat k)) →
          command'.executed s = some word' ∧ (s.obey command').memory = m.memory)) ∧
    (∀ (command' : Command) (word' : UInt16), command'.asked (m.obey command) = some word' →
      m.config.dialect.advancesIndex →
      Pattern.storeRegisters.fits word → Pattern.storeRegisters.fits word' →
      m.index.toNat + ((Word.x word).toNat + 1) + ((Word.x word').toNat + 1) ≤ 4096 →
      command'.executed (m.obey command) = some word' ∧
      (∀ k ≤ (Word.x word).toNat,
        ((m.obey command).obey command').memory.byte (m.index.toNat + k) = m.reg (.ofNat k)) ∧
      (∀ k ≤ (Word.x word').toNat,
        ((m.obey command).obey command').memory.byte
          (m.index.toNat + ((Word.x word).toNat + 1) + k) = m.reg (.ofNat k)) ∧
      ∀ a, a < m.index.toNat ∨
          m.index.toNat + ((Word.x word).toNat + 1) + (Word.x word').toNat < a →
        ((m.obey command).obey command').memory.byte a = m.memory.byte a) ∧
    (Pattern.storeDecimal.fits word → m.index.toNat + 3 ≤ 4096 → m.StoresDigits command word) := by
  refine ⟨fun inside => ⟨?_, ?_, ?_⟩, ?_, ?_⟩
  · intro fits
    exact stores_of_asked asked fits inside
  · intro fits
    exact loads_of_asked asked fits inside
  · intro s command' word' asked' same memory index
    have inside' : s.index.toNat + (Word.x word').toNat + 1 ≤ 4096 := by
      rw [index, same]
      exact inside
    constructor
    · intro fits fits'
      have stores := stores_of_asked asked fits inside
      have loads := loads_of_asked asked' fits' inside'
      exact ⟨loads.executed, load_after_store stores loads same memory index⟩
    · intro fits fits' regs
      have loads := loads_of_asked asked fits inside
      have stores := stores_of_asked asked' fits' inside'
      exact ⟨stores.executed, store_after_load loads stores same memory index regs⟩
  · intro command' word' asked' advances fits fits' inside
    have first := stores_of_asked asked fits (by omega)
    have index : (m.obey command).index.toNat = m.index.toNat + ((Word.x word).toNat + 1) := by
      rw [first.index]
      exact if_pos advances
    have second := stores_of_asked asked' fits' (by omega)
    exact ⟨second.executed, store_after_store first second index⟩
  · exact digits_of_asked asked

/-- About to store two registers sixteen bytes before the end of memory, in the dialect that moves
the index on. -/
def fullBank : Machine :=
  { loaded [0xF1, 0x55] with
    index := 0xFF0
    regs := Registers.zero.setAll 0
      [0xEA, 0x11, 0x22, 0x33, 0x44, 0x55, 0x66, 0x77, 0x88, 0x99, 0xAA, 0xBB, 0xCC, 0xDD, 0xEE, 0xFF]
    config := { dialect := { advancesIndex := true } } }

/-- All registers to the last sixteen bytes and back, two ranges side by side there, and digits. -/
theorem transfers_exact_last_bytes :
    (Command.pulse .step).asked fullBank = some 0xF155 ∧
    fullBank.index.toNat + (Word.x 0xFF55).toNat + 1 = 4096 ∧
    (fullBank.obey (.exec 0xFF55)).memory.byte 0xFFF = 0xFF ∧
    (fullBank.obey (.exec 0xFF55)).index.toNat = 4096 ∧
    (fullBank.obey (.exec 0xFF65)).reg 0xF = 0 ∧
    (({ fullBank.obey (.exec 0xFF55) with index := 0xFF0, regs := .zero } : Machine).obey
      (.exec 0xFF65)).reg 0xF = 0xFF ∧
    (({ fullBank.obey (.exec 0xFF65) with index := 0xFF0 } : Machine).obey
      (.exec 0xFF55)).memory = fullBank.memory ∧
    ((fullBank.obey (.pulse .step)).obey (.exec 0xFD55)).memory.byte 0xFF2 = 0xEA ∧
    ((fullBank.obey (.exec 0xF033)).memory.byte 0xFF2).toNat = 4 := by
  have asked : (Command.pulse .step).asked fullBank = some 0xF155 := by decide +kernel
  have by_hand : ∀ s word, (Command.exec word).asked s = some word := fun _ _ => rfl
  obtain ⟨stored, -, undo⟩ :=
    (transfers_exact fullBank (by_hand fullBank 0xFF55)).1 (by decide)
  obtain ⟨-, loaded, redo⟩ :=
    (transfers_exact fullBank (by_hand fullBank 0xFF65)).1 (by decide)
  obtain ⟨-, beside, -⟩ := transfers_exact fullBank asked
  obtain ⟨-, -, digits⟩ := transfers_exact fullBank (by_hand fullBank 0xF033)
  have stores := stored (by decide)
  have loads := loaded (by decide)
  have back := (undo { fullBank.obey (.exec 0xFF55) with index := 0xFF0, regs := .zero }
    (.exec 0xFF65) 0xFF65 rfl (by decide) rfl rfl).1 (by decide) (by decide)
  have kept := (redo { fullBank.obey (.exec 0xFF65) with index := 0xFF0 }
    (.exec 0xFF55) 0xFF55 rfl (by decide) rfl rfl).2 (by decide) (by decide) fun _ _ => rfl
  obtain ⟨-, -, second, -⟩ :=
    beside (.exec 0xFD55) 0xFD55 rfl rfl (by decide) (by decide) (by decide)
  obtain ⟨hundreds, tens, ones, _, _, _, value, -, -, last⟩ :=
    (digits (by decide) (by decide)).digits
  have decimal : (fullBank.reg (Word.x 0xF033)).toNat = 234 := by decide +kernel
  refine ⟨asked, by decide, ?_, ?_, ?_, ?_, kept.2, ?_, ?_⟩
  · exact (stores.block 15 (by decide)).trans (by decide +kernel)
  · exact stores.index
  · exact (loads.block 15 (by decide)).trans (by decide +kernel)
  · exact (back.2 15 (by decide)).trans (by decide +kernel)
  · exact (second 0 (by decide)).trans (by decide +kernel)
  · have digit : ((fullBank.obey (.exec 0xF033)).memory.byte 0xFF2).toNat = ones := last
    omega

end Chip8.Machine
