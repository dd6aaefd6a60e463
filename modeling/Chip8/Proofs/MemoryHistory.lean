import Chip8.Proofs.Loading
import Chip8.Proofs.Strict.Parts

/-!
# Memory over a history

Memory is accessed in five ways, and each has a check of its own. Over any history of accesses they
are all checked against the same 4096 bytes, and all see the same bytes.

* `bounded_array` — after any history from fresh memory, an access succeeds exactly within its
  bounds, else it names its refusal and changes nothing; a byte read is the one stored last, and
  words and slices are made of the bytes that reading gives

What an access stores can be told without looking at memory (`Access.stored`), so the contents of
memory are known from the history alone (`contents`). One access changes the contents by what it
stores (`byte_after`), a history by what it stores last (`byte_afterAll`).
-/

namespace Chip8

/-- An access to memory, with everything it is given. -/
inductive Access where
  | load (bytes : List UInt8) (offset : Nat)
  | write (addr : UInt16) (b : UInt8)
  | read (addr : UInt16)
  | readWord (addr : UInt16)
  | slice (addr : UInt16) (len : Nat)
  deriving DecidableEq

namespace Access

/-- The bounds an access has to keep. -/
def Fits : Access → Prop
  | .load bytes offset => offset + bytes.length ≤ 4096
  | .write addr _ | .read addr => addr.toNat ≤ 0xFFF
  | .readWord addr => addr.toNat ≤ 0xFFE
  | .slice addr len => addr.toNat + len ≤ 4096

instance : DecidablePred Fits := fun access =>
  match access with
  | .load _ _ | .write _ _ | .read _ | .readWord _ | .slice _ _ =>
    inferInstanceAs (Decidable (_ ≤ _))

/-- What an access out of bounds is refused for. A word across the end of memory is refused for its
second byte. -/
def refusal : Access → Fault
  | .load bytes offset => .outOfBounds offset bytes.length
  | .write addr _ | .read addr => .invalidAddress addr
  | .readWord addr => .invalidAddress (if addr = 0xFFF then 0x1000 else addr)
  | .slice addr len => .outOfBounds addr.toNat len

/-- The byte that an access stores at `a`, if it stores one there. -/
def stored (a : Nat) (access : Access) : Option UInt8 :=
  match access with
  | .load bytes offset => if access.Fits ∧ offset ≤ a then bytes[a - offset]? else none
  | .write addr b => if access.Fits ∧ addr.toNat = a then some b else none
  | .read _ | .readWord _ | .slice _ _ => none

end Access

namespace Memory

/-- The memory that a successful access leaves. -/
def access (mem : Memory) : Access → Except Fault Memory
  | .load bytes offset => mem.load bytes offset
  | .write addr b => mem.write addr b
  | .read addr => (mem.read addr).map fun _ => mem
  | .readWord addr => (mem.readWord addr).map fun _ => mem
  | .slice addr len => (mem.slice addr len).map fun _ => mem

/-- The memory after an access, successful or not. -/
def after (mem : Memory) (acc : Access) : Memory :=
  match mem.access acc with
  | .ok mem' => mem'
  | .error _ => mem

/-- The memory after a history of accesses. -/
def afterAll (mem : Memory) (history : List Access) : Memory := history.foldl after mem

/-- The byte stored last at `a`. -/
def lastStored (history : List Access) (a : Nat) : Option UInt8 :=
  history.reverse.findSome? (Access.stored a)

/-- The byte at `a` as the history tells it: the one stored last, else the byte of a digit's
picture, else zero. -/
def contents (history : List Access) (a : Nat) : UInt8 :=
  (lastStored history a).getD (if 0x050 ≤ a ∧ a < 0x0A0 then font.getD (a - 0x050) 0 else 0)

variable (mem : Memory)

/-! ## One access -/

theorem read_of_lt {addr : UInt16} (inside : addr.toNat < size) :
    mem.read addr = .ok (mem.byte addr.toNat) := if_pos inside

theorem slice_of_le {addr : UInt16} {len : Nat} (inside : addr.toNat + len ≤ size) :
    mem.slice addr len = .ok ((List.range len).map fun k => mem.byte (addr.toNat + k)) :=
  if_pos inside

theorem access_of_fits {acc : Access} (fits : acc.Fits) : ∃ mem', mem.access acc = .ok mem' := by
  cases acc with
  | load bytes offset => exact ⟨_, if_pos fits⟩
  | write addr b => exact ⟨_, if_pos (Nat.lt_succ_of_le fits)⟩
  | read addr =>
    rw [access, read_of_lt mem (Nat.lt_succ_of_le fits)]
    exact ⟨_, rfl⟩
  | readWord addr =>
    rw [access, readWord_of_lt mem (Nat.lt_succ_of_le (Nat.succ_le_succ fits))]
    exact ⟨_, rfl⟩
  | slice addr len =>
    rw [access, slice_of_le mem fits]
    exact ⟨_, rfl⟩

theorem access_of_not_fits {acc : Access} (beyond : ¬ acc.Fits) :
    mem.access acc = .error acc.refusal := by
  cases acc with
  | load bytes offset => exact if_neg beyond
  | write addr b => exact if_neg fun inside => beyond (Nat.le_of_lt_succ inside)
  | read addr =>
    rw [access, read, if_neg fun inside => beyond (Nat.le_of_lt_succ inside)]
    rfl
  | readWord addr =>
    have past : size ≤ addr.toNat + 1 := Nat.succ_le_succ (Nat.lt_of_not_le beyond)
    rw [access, readWord_of_le mem past]
    rfl
  | slice addr len =>
    have past : ¬ addr.toNat + len ≤ size := beyond
    rw [access, slice, if_neg past]
    rfl

theorem fits_iff {acc : Access} : acc.Fits ↔ ∃ mem', mem.access acc = .ok mem' := by
  refine ⟨access_of_fits mem, ?_⟩
  rintro ⟨mem', succeeded⟩
  refine Decidable.byContradiction fun beyond => ?_
  rw [access_of_not_fits mem beyond] at succeeded
  cases succeeded

theorem after_of_not_fits {acc : Access} (beyond : ¬ acc.Fits) : mem.after acc = mem := by
  rw [after, access_of_not_fits mem beyond]

/-- Looking at memory leaves it, whether it succeeds or not. -/
theorem after_of_map {α : Type} {acc : Access} {looked : Except Fault α}
    (h : mem.access acc = looked.map fun _ => mem) : mem.after acc = mem := by
  rw [after, h]
  cases looked <;> rfl

theorem byte_after_load (bytes : List UInt8) (offset a : Nat) :
    (mem.after (.load bytes offset)).byte a =
      ((Access.load bytes offset).stored a).getD (mem.byte a) := by
  by_cases fits : (Access.load bytes offset).Fits
  · have whole : offset + bytes.length ≤ size := fits
    have loaded : mem.after (.load bytes offset) = mem.putAll offset bytes := by
      simp only [after, access, load, if_pos whole]
    rw [loaded, byte_putAll]
    simp only [Access.stored, fits, true_and]
    rcases Nat.lt_or_ge a offset with before | from_offset
    · rw [if_neg (by omega), if_neg (by omega)]
      rfl
    · rw [if_pos from_offset]
      by_cases reached : a < offset + bytes.length
      · rw [if_pos ⟨from_offset, reached, by omega⟩, List.getD_eq_getElem?_getD,
          List.getElem?_eq_getElem (by omega)]
        rfl
      · rw [if_neg fun h => reached h.2.1, List.getElem?_eq_none (by omega)]
        rfl
  · rw [after_of_not_fits mem fits, Access.stored, if_neg fun h => fits h.1]
    rfl

theorem byte_after_write (addr : UInt16) (b : UInt8) (a : Nat) :
    (mem.after (.write addr b)).byte a = ((Access.write addr b).stored a).getD (mem.byte a) := by
  by_cases fits : (Access.write addr b).Fits
  · have inside : addr.toNat < size := Nat.lt_succ_of_le fits
    have written : mem.after (.write addr b) = mem.put addr.toNat b := by
      simp only [after, access, write, if_pos inside]
    rw [written, byte_put]
    simp only [Access.stored, fits, true_and]
    by_cases here : addr.toNat = a
    · rw [if_pos ⟨here.symm, here ▸ inside⟩, if_pos here]
      rfl
    · rw [if_neg fun h => here h.1.symm, if_neg here]
      rfl
  · rw [after_of_not_fits mem fits, Access.stored, if_neg fun h => fits h.1]
    rfl

/-- **One access** changes the contents by what it stores. -/
theorem byte_after (acc : Access) (a : Nat) :
    (mem.after acc).byte a = (acc.stored a).getD (mem.byte a) := by
  cases acc with
  | load bytes offset => exact byte_after_load mem bytes offset a
  | write addr b => exact byte_after_write mem addr b a
  | read addr => exact congrArg (byte · a) (after_of_map mem rfl)
  | readWord addr => exact congrArg (byte · a) (after_of_map mem rfl)
  | slice addr len => exact congrArg (byte · a) (after_of_map mem rfl)

/-! ## Bytes read -/

theorem readWord_eq_reads {addr : UInt16} (inside : addr.toNat ≤ 0xFFE) :
    ∃ word hi lo, mem.readWord addr = .ok word ∧ mem.read addr = .ok hi ∧
      mem.read (addr + 1) = .ok lo ∧ word.toNat = 256 * hi.toNat + lo.toNat := by
  have next : (addr + 1).toNat = addr.toNat + 1 := by
    simp only [UInt16.toNat_add, UInt16.reduceToNat]
    omega
  have second : addr.toNat + 1 < size := Nat.lt_succ_of_le (Nat.succ_le_succ inside)
  refine ⟨_, _, _, readWord_of_lt mem second, read_of_lt mem (Nat.lt_of_succ_lt second),
    read_of_lt mem (next ▸ second), ?_⟩
  rw [word, Word.toNat_ofBytes, next]

theorem slice_eq_reads {addr : UInt16} {len : Nat} (inside : addr.toNat + len ≤ size) :
    ∃ bytes, mem.slice addr len = .ok bytes ∧ bytes.length = len ∧
      ∀ k < len, ∃ b, bytes[k]? = some b ∧ mem.read (addr + UInt16.ofNat k) = .ok b := by
  refine ⟨_, slice_of_le mem inside, by rw [List.length_map, List.length_range], fun k hk => ?_⟩
  have whole : size = 4096 := rfl
  have there : (addr + UInt16.ofNat k).toNat = addr.toNat + k := by
    simp only [UInt16.toNat_add, UInt16.toNat_ofNat']
    omega
  refine ⟨mem.byte (addr.toNat + k), by simp [hk], ?_⟩
  rw [read_of_lt mem (show (addr + UInt16.ofNat k).toNat < size by omega), there]

/-! ## A history -/

/-- **A history** changes the contents by what it stores last. -/
theorem byte_afterAll (history : List Access) (a : Nat) :
    (mem.afterAll history).byte a = (lastStored history a).getD (mem.byte a) := by
  induction history generalizing mem with
  | nil => rfl
  | cons acc history ih =>
    have later : mem.afterAll (acc :: history) = (mem.after acc).afterAll history := rfl
    rw [later, ih, byte_after, lastStored, lastStored, List.reverse_cons, List.findSome?_append]
    -- what the rest of the history stores counts before what the first access stored
    cases history.reverse.findSome? (Access.stored a) with
    | some b => rfl
    | none =>
      cases h : acc.stored a with
      | some b => simp [h]
      | none => simp [h]

theorem byte_afterAll_fresh (history : List Access) (a : Nat) :
    (fresh.afterAll history).byte a = contents history a := by
  rw [byte_afterAll, byte_fresh, contents]

/--
**A bounds-checked array.**

Take any history of accesses from fresh memory, successful or not.

An access succeeds exactly if it keeps its bounds; else it names its refusal and changes nothing. A
byte is read as it was stored last, and if it never was, as it stands in fresh memory. A word is
made of the two bytes that reading gives, the high one first, and a slice of all of them in a row.

The bounds are sums without a limit. Sums of 64 bits come to the same: loading takes a sum that does
not fit for one out of bounds, and a slice never makes one.
-/
theorem bounded_array (history : List Access) :
    let mem := fresh.afterAll history
    (∀ acc : Access, (acc.Fits ↔ ∃ mem', mem.access acc = .ok mem') ∧
      (¬ acc.Fits → mem.access acc = .error acc.refusal ∧
        fresh.afterAll (history ++ [acc]) = mem)) ∧
    (∀ addr : UInt16, addr.toNat ≤ 0xFFF →
      mem.read addr = .ok (contents history addr.toNat)) ∧
    (∀ addr : UInt16, addr.toNat ≤ 0xFFE →
      ∃ word hi lo, mem.readWord addr = .ok word ∧ mem.read addr = .ok hi ∧
        mem.read (addr + 1) = .ok lo ∧ word.toNat = 256 * hi.toNat + lo.toNat) ∧
    (∀ (addr : UInt16) (len : Nat), addr.toNat + len ≤ 4096 →
      ∃ bytes, mem.slice addr len = .ok bytes ∧ bytes.length = len ∧
        ∀ k < len, ∃ b, bytes[k]? = some b ∧ mem.read (addr + UInt16.ofNat k) = .ok b) ∧
    (∀ bytes offset, Strict.load mem bytes offset = some (mem.load bytes offset)) ∧
    ∀ (addr : UInt16) (len : Nat), addr.toNat + len < 0x10000000000000000 →
      Strict.slice mem addr len = some (mem.slice addr len) := by
  intro mem
  refine ⟨fun acc => ⟨fits_iff mem, fun beyond => ⟨access_of_not_fits mem beyond, ?_⟩⟩,
    fun addr inside => ?_, fun addr => readWord_eq_reads mem, fun addr len => slice_eq_reads mem,
    Strict.load_eq mem, fun addr len => Strict.slice_eq mem⟩
  · show (history ++ [acc]).foldl after fresh = mem
    rw [List.foldl_append]
    exact after_of_not_fits mem beyond
  · rw [read_of_lt mem (Nat.lt_succ_of_le inside), byte_afterAll_fresh]

end Memory

end Chip8
