import Chip8.Proofs.Decoding
import Chip8.Proofs.Loading

/-!
# Programs written as words

* `decode_encode` — an operation whose operands fit is read back from its word
* `program_reads_back` — a program put together from operations, loaded and fetched, gives the
  operations back in order, and the operations fetched from a program of whole words give its bytes
  back

Both directions go through the words in memory: `fetchMany_of_words` says what fetching gives
wherever a row of words stands, also when the last of them ends memory and the program counter goes
around.
-/

namespace Chip8

/-! ## Words as bytes -/

namespace Word

/-- The bytes of words, the high byte of each first. -/
def spread (words : List UInt16) : List UInt8 := words.flatMap fun word => [hi word, nn word]

/-- The words that bytes make up; a single byte at the end makes none. -/
def gather : List UInt8 → List UInt16
  | hi :: lo :: bytes => ofBytes hi lo :: gather bytes
  | _ => []

theorem hi_ofBytes (hi' lo : UInt8) : hi (ofBytes hi' lo) = hi' := by
  have := lo.toNat_lt
  apply UInt8.toNat_inj.mp
  rw [toNat_hi, toNat_ofBytes]
  omega

theorem nn_ofBytes (hi lo : UInt8) : nn (ofBytes hi lo) = lo := by
  have := lo.toNat_lt
  apply UInt8.toNat_inj.mp
  rw [toNat_nn, toNat_ofBytes]
  omega

theorem length_spread (words : List UInt16) : (spread words).length = 2 * words.length := by
  induction words with
  | nil => rfl
  | cons word words ih =>
    rw [spread, List.flatMap_cons, ← spread, List.length_append, ih]
    show 2 + 2 * words.length = 2 * (words.length + 1)
    omega

theorem length_gather (bytes : List UInt8) : (gather bytes).length = bytes.length / 2 := by
  fun_induction gather bytes with
  | case1 hi lo bytes ih =>
    rw [List.length_cons, List.length_cons, List.length_cons, ih]
    omega
  | case2 bytes short =>
    match bytes, short with
    | [], _ => rfl
    | [_], _ => simp
    | hi :: lo :: rest, short => exact absurd rfl (short hi lo rest)

/-- Bytes that make up whole words are the bytes of these words. -/
theorem spread_gather {bytes : List UInt8} (even : bytes.length % 2 = 0) :
    spread (gather bytes) = bytes := by
  fun_induction gather bytes with
  | case1 hi lo bytes ih =>
    have even' : bytes.length % 2 = 0 := by
      rw [List.length_cons, List.length_cons] at even
      omega
    rw [spread, List.flatMap_cons, ← spread, ih even', hi_ofBytes, nn_ofBytes]
    rfl
  | case2 bytes short =>
    match bytes, short with
    | [], _ => rfl
    | [_], _ => simp at even
    | hi :: lo :: rest, short => exact absurd rfl (short hi lo rest)

theorem getD_spread (words : List UInt16) {i : Nat} (h : i < words.length) :
    (spread words).getD (2 * i) 0 = hi words[i] ∧
      (spread words).getD (2 * i + 1) 0 = nn words[i] := by
  induction words generalizing i with
  | nil => cases h
  | cons word words ih =>
    cases i with
    | zero => exact ⟨rfl, rfl⟩
    | succ i => exact ih (Nat.lt_of_succ_lt_succ h)

end Word

/-- Words stored from an address on are the words there. -/
theorem Memory.word_putAll (mem : Memory) {a : Nat} {words : List UInt16}
    (fits : a + 2 * words.length ≤ size) {i : Nat} (h : i < words.length) :
    (mem.putAll a (Word.spread words)).word (a + 2 * i) = words[i] := by
  obtain ⟨high, low⟩ := Word.getD_spread words h
  have length := Word.length_spread words
  rw [word, byte_putAll, byte_putAll, if_pos (by omega), if_pos (by omega),
    show a + 2 * i - a = 2 * i by omega, show a + 2 * i + 1 - a = 2 * i + 1 by omega, high, low,
    Word.ofBytes_hi_nn]

/-! ## Operations as words -/

namespace Op

section Address

variable {f : Nat} {a : UInt16} (ha : a.toNat < 0x1000)
include ha

theorem family_wordOfAddress (hf : f < 0x10) : (Word.family (wordOfAddress f a)).toNat = f := by
  rw [Word.toNat_family, toNat_wordOfAddress]
  omega

theorem nnn_wordOfAddress : Word.nnn (wordOfAddress f a) = a := by
  apply UInt16.toNat_inj.mp
  rw [Word.toNat_nnn, toNat_wordOfAddress]
  omega

end Address

section Byte

variable {f : Nat} {x b : UInt8}

theorem family_wordOfByte (hf : f < 0x10) (hx : x.toNat < 0x10) :
    (Word.family (wordOfByte f x b)).toNat = f := by
  have := b.toNat_lt
  rw [Word.toNat_family, toNat_wordOfByte]
  omega

theorem x_wordOfByte (hx : x.toNat < 0x10) : Word.x (wordOfByte f x b) = x := by
  have := b.toNat_lt
  apply UInt8.toNat_inj.mp
  rw [Word.toNat_x, toNat_wordOfByte]
  omega

theorem nn_wordOfByte : Word.nn (wordOfByte f x b) = b := by
  have := b.toNat_lt
  apply UInt8.toNat_inj.mp
  rw [Word.toNat_nn, toNat_wordOfByte]
  omega

end Byte

section Digits

variable {f : Nat} {x y n : UInt8}

theorem family_wordOfDigits (hf : f < 0x10) (hx : x.toNat < 0x10) (hy : y.toNat < 0x10)
    (hn : n.toNat < 0x10) : (Word.family (wordOfDigits f x y n)).toNat = f := by
  rw [Word.toNat_family, toNat_wordOfDigits]
  omega

theorem x_wordOfDigits (hx : x.toNat < 0x10) (hy : y.toNat < 0x10) (hn : n.toNat < 0x10) :
    Word.x (wordOfDigits f x y n) = x := by
  apply UInt8.toNat_inj.mp
  rw [Word.toNat_x, toNat_wordOfDigits]
  omega

theorem y_wordOfDigits (hy : y.toNat < 0x10) (hn : n.toNat < 0x10) :
    Word.y (wordOfDigits f x y n) = y := by
  apply UInt8.toNat_inj.mp
  rw [Word.toNat_y, toNat_wordOfDigits]
  omega

theorem n_wordOfDigits (hn : n.toNat < 0x10) : Word.n (wordOfDigits f x y n) = n := by
  apply UInt8.toNat_inj.mp
  rw [Word.toNat_n, toNat_wordOfDigits]
  omega

end Digits

/-- Reading what was written gives the operation back. -/
theorem decode_encode {op : Op} (h : op.Encodable) : decode op.encode = op := by
  cases op with
  | clear | ret => rfl
  | jump a | call a | setIndex a | jumpOffset a =>
    have ha : a.toNat < 0x1000 := h
    simp only [decode, encode, family_wordOfAddress, nnn_wordOfAddress, ha, Nat.reduceLT]
  | skipIfByte x b | skipUnlessByte x b | setByte x b | addByte x b | random x b =>
    have hx : x.toNat < 0x10 := h
    simp only [decode, encode, family_wordOfByte, x_wordOfByte, nn_wordOfByte, hx, Nat.reduceLT]
  | skipIfKey x | skipUnlessKey x | getDelay x | awaitKey x | setDelay x | setSound x
  | addIndex x | pointGlyph x | storeDecimal x | storeRegisters x | loadRegisters x =>
    have hx : x.toNat < 0x10 := h
    simp only [decode, encode, family_wordOfByte, x_wordOfByte, nn_wordOfByte, hx, Nat.reduceLT,
      UInt8.reduceToNat]
  | skipIfSame x y | skipUnlessSame x y | copy x y | or x y | and x y | xor x y | add x y
  | sub x y | subFrom x y | shiftLeft x y | shiftRight x y =>
    obtain ⟨hx, hy⟩ : x.toNat < 0x10 ∧ y.toNat < 0x10 := h
    simp only [decode, encode, family_wordOfDigits, x_wordOfDigits, y_wordOfDigits,
      n_wordOfDigits, hx, hy, Nat.reduceLT, UInt8.reduceToNat, if_true]
  | draw x y n =>
    obtain ⟨hx, hy, hn⟩ : x.toNat < 0x10 ∧ y.toNat < 0x10 ∧ n.toNat < 0x10 := h
    simp only [decode, encode, family_wordOfDigits, x_wordOfDigits, y_wordOfDigits,
      n_wordOfDigits, hx, hy, hn, Nat.reduceLT]
  | unknown word => exact decode_eq_unknown_iff.mpr ⟨rfl, h⟩

/-- An operation is written as a word of its pattern. -/
theorem fits_encode {op : Op} (h : op.Encodable) {p : Pattern} (hp : op.pattern = some p) :
    p.fits op.encode :=
  fits_decode (by rw [decode_encode h, hp])

/-- The bytes of operations, one word after the other. -/
def assemble (ops : List Op) : List UInt8 := Word.spread (ops.map encode)

end Op

/-! ## Fetching -/

namespace Machine

/-- Fetches so many operations, one after the other. -/
def fetchMany (m : Machine) : Nat → List (Except Fault Op) × Machine
  | 0 => ([], m)
  | n + 1 =>
    let rest := m.fetch.2.fetchMany n
    (m.fetch.1 :: rest.1, rest.2)

/-- Fetching along a row of words reads them in order. The last of them may end memory, and the
program counter has gone around then. -/
theorem fetchMany_of_words (words : List UInt16) {m : Machine} (hpc : m.pc.toNat < Memory.size)
    (fits : m.pc.toNat + 2 * words.length ≤ Memory.size)
    (placed : ∀ i (h : i < words.length), m.memory.word (m.pc.toNat + 2 * i) = words[i]) :
    ∃ pc : UInt16, pc.toNat = (m.pc.toNat + 2 * words.length) % 0x1000 ∧
      m.fetchMany words.length = (words.map fun word => .ok (.decode word), { m with pc }) := by
  have size : Memory.size = 0x1000 := rfl
  induction words generalizing m with
  | nil => exact ⟨m.pc, (Nat.mod_eq_of_lt hpc).symm, rfl⟩
  | cons word words ih =>
    rw [List.length_cons] at fits ⊢
    have moved := m.toNat_advance_pc
    have first : m.nextOp = .decode word := congrArg Op.decode (placed 0 (Nat.succ_pos _))
    have fetched : m.fetch = (.ok (.decode word), m.advance) := by
      rw [fetch_of_lt (by omega), first]
    have placed' : ∀ i (h : i < words.length),
        m.advance.memory.word (m.advance.pc.toNat + 2 * i) = words[i] := by
      intro i h
      have next := placed (i + 1) (Nat.succ_lt_succ h)
      rwa [show m.pc.toNat + 2 * (i + 1) = m.advance.pc.toNat + 2 * i by omega] at next
    obtain ⟨pc, hpc', rest⟩ := ih (m := m.advance) (by omega) (by omega) placed'
    refine ⟨pc, by omega, ?_⟩
    rw [fetchMany, fetched, rest]
    rfl

/-- Whole words that are loaded are fetched in order, and nothing but the program counter changes. -/
theorem fetchMany_load (m : Machine) (drawn : Random) (words : List UInt16)
    (fits : words.length ≤ 1792) :
    (m.load (Word.spread words) drawn).1 = .ok () ∧
    ∃ pc : UInt16, pc.toNat = (0x200 + 2 * words.length) % 0x1000 ∧
      (m.load (Word.spread words) drawn).2.fetchMany words.length =
        (words.map fun word => .ok (.decode word),
          { (m.load (Word.spread words) drawn).2 with pc }) := by
  have size : Memory.size = 0x1000 := rfl
  have short : (Word.spread words).length ≤ 3584 := by
    rw [Word.length_spread]
    omega
  have loaded := load_of_fits short m drawn
  have start : (m.load (Word.spread words) drawn).2.pc.toNat = 0x200 := by
    rw [loaded]
    rfl
  have memory : (m.load (Word.spread words) drawn).2.memory =
      Memory.fresh.putAll 0x200 (Word.spread words) := by
    rw [loaded]
  have placed : ∀ i (h : i < words.length),
      (m.load (Word.spread words) drawn).2.memory.word (0x200 + 2 * i) = words[i] := by
    intro i h
    rw [memory]
    exact Memory.fresh.word_putAll (by omega) h
  obtain ⟨pc, hpc, fetched⟩ := fetchMany_of_words words
    (m := (m.load (Word.spread words) drawn).2) (by omega) (by omega) (by rwa [start])
  rw [start] at hpc
  exact ⟨by rw [loaded], pc, hpc, fetched⟩

/--
**A program reads back.**

Operations whose operands fit, at most 1792 of them, are written as words of their patterns. With
the bytes of these words loaded, fetching as often gives the operations in order and leaves the
machine as it was, but for the program counter, which stands behind the program, or at zero if the
program ends memory. The other way round, the operations fetched from a program of whole words are
written as its bytes.
-/
theorem program_reads_back (m : Machine) (drawn : Random) :
    (∀ ops : List Op, ops.length ≤ 1792 → (∀ op ∈ ops, op.Encodable) →
      (∀ op ∈ ops, ∀ p ∈ op.pattern, p.fits op.encode) ∧
      (m.load (Op.assemble ops) drawn).1 = .ok () ∧
      ∃ pc : UInt16, pc.toNat = (0x200 + 2 * ops.length) % 4096 ∧
        (m.load (Op.assemble ops) drawn).2.fetchMany ops.length =
          (ops.map .ok, { (m.load (Op.assemble ops) drawn).2 with pc })) ∧
    (∀ program : List UInt8, program.length ≤ 3584 → program.length % 2 = 0 →
      (m.load program drawn).1 = .ok () ∧
      ∃ ops : List Op,
        ((m.load program drawn).2.fetchMany (program.length / 2)).1 = ops.map .ok ∧
        Op.assemble ops = program) := by
  constructor
  · intro ops fits encodable
    obtain ⟨loaded, pc, hpc, fetched⟩ :=
      fetchMany_load m drawn (ops.map Op.encode) (by rwa [List.length_map])
    rw [List.length_map] at hpc fetched
    refine ⟨fun op hop p hp => Op.fits_encode (encodable op hop) hp, loaded, pc, hpc, ?_⟩
    have read : (ops.map Op.encode).map (fun word => Except.ok (Op.decode word)) =
        ops.map (Except.ok : Op → Except Fault Op) := by
      rw [List.map_map]
      refine List.map_congr_left fun op hop => ?_
      exact congrArg Except.ok (Op.decode_encode (encodable op hop))
    rw [← read]
    exact fetched
  · intro program fits even
    have words := Word.length_gather program
    obtain ⟨loaded, pc, _, fetched⟩ :=
      fetchMany_load m drawn (Word.gather program) (by omega)
    rw [Word.spread_gather even, words] at fetched
    rw [Word.spread_gather even] at loaded
    refine ⟨loaded, (Word.gather program).map .decode, by rw [fetched, List.map_map]; rfl, ?_⟩
    have written : (Op.encode ∘ Op.decode) = id := funext Op.encode_decode
    rw [Op.assemble, List.map_map, written, List.map_id, Word.spread_gather even]

/-- A program with a word that is no instruction, and one that fills memory to the last byte, so
that the program counter comes out at zero; the bytes of the first are fetched and written again. -/
theorem program_reads_back_to_the_end :
    (((loaded []).load (Op.assemble [.setIndex 0xFFF, .draw 0 1 15, .unknown 0x5121])
        (.ofSeed 0)).2.fetchMany 3).1 =
      [.ok (.setIndex 0xFFF), .ok (.draw 0 1 15), .ok (.unknown 0x5121)] ∧
    (((loaded []).load (Op.assemble (.replicate 1792 (.jump 0x200))) (.ofSeed 0)).2.fetchMany
      1792).2.pc.toNat = 0 ∧
    ∃ ops : List Op,
      (((loaded []).load [0xAF, 0xFF, 0x51, 0x21] (.ofSeed 0)).2.fetchMany 2).1 = ops.map .ok ∧
      Op.assemble ops = [0xAF, 0xFF, 0x51, 0x21] := by
  obtain ⟨forth, back⟩ := program_reads_back (loaded []) (.ofSeed 0)
  obtain ⟨_, _, _, _, few⟩ :=
    forth [.setIndex 0xFFF, .draw 0 1 15, .unknown 0x5121] (by decide) (by decide)
  have jumps : ∀ op ∈ List.replicate 1792 (Op.jump 0x200), op.Encodable := by
    intro op hop
    rw [List.eq_of_mem_replicate hop]
    decide
  obtain ⟨_, _, pc, hpc, full⟩ :=
    forth (.replicate 1792 (.jump 0x200)) (Nat.le_of_eq List.length_replicate) jumps
  rw [List.length_replicate] at hpc full
  refine ⟨congrArg Prod.fst few, ?_, (back [0xAF, 0xFF, 0x51, 0x21] (by decide) (by decide)).2⟩
  rw [full]
  exact hpc

end Machine

end Chip8
