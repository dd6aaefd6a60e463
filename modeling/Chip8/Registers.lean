import Chip8.Form
import Chip8.Hex

/-!
# Data registers

Sixteen byte registers `V0` to `VF`. A register number is a byte of which only the low four bits
count. `VF` doubles as the flag.
-/

namespace Chip8

/-- The low four bits of a byte, as the place of a register or key. -/
def lowNibble (b : UInt8) : Fin 16 := ⟨b.toNat % 16, Nat.mod_lt _ (by decide)⟩

theorem lowNibble_lt (b : UInt8) : (lowNibble b).val < 16 := (lowNibble b).isLt

theorem val_lowNibble {b : UInt8} (h : b.toNat < 16) : (lowNibble b).val = b.toNat :=
  Nat.mod_eq_of_lt h

theorem val_lowNibble_ofNat {r : Nat} (h : r < 16) : (lowNibble (.ofNat r)).val = r := by
  show (UInt8.ofNat r).toNat % 16 = r
  rw [UInt8.toNat_ofNat']
  omega

/-- Different numbers are different registers. -/
theorem lowNibble_ofNat_ne {k : Nat} (h : k < 16) {r : UInt8} (other : k ≠ (lowNibble r).val) :
    lowNibble (.ofNat k) ≠ lowNibble r := by
  intro same
  have place := congrArg Fin.val same
  rw [val_lowNibble_ofNat h] at place
  exact other place

/-- The registers `V0` to `VF`. -/
structure Registers where
  values : Vector UInt8 16
  deriving DecidableEq

namespace Registers

/-- The number of the flag register. -/
def flag : UInt8 := 0xF

/-- All registers zero. -/
def zero : Registers := ⟨Vector.replicate 16 0⟩

/-- The value of a register. -/
def get (regs : Registers) (r : UInt8) : UInt8 := regs.values[lowNibble r]

/-- Sets a register. -/
def set (regs : Registers) (r v : UInt8) : Registers := ⟨regs.values.set (lowNibble r) v⟩

/-- Adds to a register, modulo 256; the flag is left alone. -/
def add (regs : Registers) (r v : UInt8) : Registers := regs.set r (regs.get r + v)

/-- Sets the flag to one or zero. -/
def setFlag (regs : Registers) (on : Bool) : Registers := regs.set flag (if on then 1 else 0)

/-- Sets the registers from number `r` on, one to each byte. -/
def setAll (regs : Registers) (r : Nat) : List UInt8 → Registers
  | [] => regs
  | b :: bs => (regs.set (.ofNat r) b).setAll (r + 1) bs

/-- The values of the first `count` registers, starting over behind `VF`. -/
def take (regs : Registers) (count : Nat) : List UInt8 :=
  (List.range count).map fun r => regs.get (.ofNat r)

/-- Setting a register changes that register and no other. -/
theorem get_set (regs : Registers) (r v s : UInt8) :
    (regs.set r v).get s = if lowNibble s = lowNibble r then v else regs.get s := by
  simp only [get, set, Fin.getElem_fin, Vector.getElem_set, Fin.ext_iff, eq_comm]

theorem get_set_of_ne (regs : Registers) {r s : UInt8} (h : lowNibble s ≠ lowNibble r) (v : UInt8) :
    (regs.set r v).get s = regs.get s := by
  rw [get_set, if_neg h]

theorem get_setFlag_of_ne (regs : Registers) {r : UInt8} (on : Bool)
    (h : lowNibble r ≠ lowNibble flag) : (regs.setFlag on).get r = regs.get r :=
  regs.get_set_of_ne h _

@[simp] theorem get_set_self (regs : Registers) (r v : UInt8) : (regs.set r v).get r = v := by
  simp [get_set]

/-- Setting registers in a row changes those from number `r` on as far as the bytes reach. -/
theorem get_setAll (bs : List UInt8) (regs : Registers) {r : Nat} (fits : r + bs.length ≤ 16)
    (s : UInt8) :
    (regs.setAll r bs).get s =
      if r ≤ (lowNibble s).val ∧ (lowNibble s).val < r + bs.length then
        bs.getD ((lowNibble s).val - r) 0
      else regs.get s := by
  induction bs generalizing regs r with
  | nil => rw [setAll, if_neg (by rw [List.length_nil]; omega)]
  | cons b bs ih =>
    rw [List.length_cons] at fits ⊢
    have first : (regs.set (.ofNat r) b).get s =
        if (lowNibble s).val = r then b else regs.get s := by
      simp only [get_set, Fin.ext_iff, val_lowNibble_ofNat (show r < 16 by omega)]
    rw [setAll, ih (regs.set (.ofNat r) b) (by omega), first]
    rcases Nat.lt_trichotomy (lowNibble s).val r with h | h | h
    · rw [if_neg (by omega), if_neg (by omega), if_neg (by omega)]
    · rw [if_neg (by omega), if_pos h, if_pos (by omega), h, Nat.sub_self, List.getD_cons_zero]
    · rw [if_neg (by omega : (lowNibble s).val ≠ r),
        show (lowNibble s).val - r = (lowNibble s).val - (r + 1) + 1 by omega, List.getD_cons_succ]
      by_cases inside : (lowNibble s).val < r + (bs.length + 1)
      · rw [if_pos (by omega), if_pos (by omega)]
      · rw [if_neg (by omega), if_neg (by omega)]

@[simp] theorem length_take (regs : Registers) (count : Nat) :
    (regs.take count).length = count := by
  simp [take]

theorem getD_take (regs : Registers) {count k : Nat} (h : k < count) :
    (regs.take count).getD k 0 = regs.get (.ofNat k) := by
  simp [take, h]

instance : Inspect Registers where
  form regs := .record "Registers" <| (List.finRange 16).map fun r =>
    .field ("V" ++ String.ofList ((Hex.padded 1 r.val).map Char.toUpper))
      (.word (Hex.lower 2 (regs.values.get r).toNat))

end Registers

end Chip8
