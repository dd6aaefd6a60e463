/-!
# Random bytes

The random bytes are the low bytes of a fixed stream of 32-bit words. A seed is stretched to a key
of eight words, and the stream is the keystream of the ChaCha block function with twelve rounds for
that key and nonce zero, block after block. `Random.word` is the stream as a function of place; a
generator is a key and the place of the next word.
-/

namespace Chip8

/-- A key and the place of the next word of its stream. -/
structure Random where
  key : Vector UInt32 8
  position : Nat := 0
  deriving DecidableEq

namespace Random

/-! ## The block function -/

/-- Turns the bits of a word left by `n`, for `n` between 1 and 31. -/
def rotateLeft (w n : UInt32) : UInt32 := (w <<< n) ||| (w >>> (32 - n))

/-- Mixes the four words of the state at the given places. -/
def quarterRound (s : Vector UInt32 16) (i j k l : Fin 16) : Vector UInt32 16 :=
  let a := s[i] + s[j]
  let d := rotateLeft (s[l] ^^^ a) 16
  let c := s[k] + d
  let b := rotateLeft (s[j] ^^^ c) 12
  let a := a + b
  let d := rotateLeft (d ^^^ a) 8
  let c := c + d
  let b := rotateLeft (b ^^^ c) 7
  (((s.set i a).set j b).set k c).set l d

/-- Mixes the columns, then the diagonals, of the state seen as a square. -/
def doubleRound (s : Vector UInt32 16) : Vector UInt32 16 :=
  let s := quarterRound s 0 4 8 12
  let s := quarterRound s 1 5 9 13
  let s := quarterRound s 2 6 10 14
  let s := quarterRound s 3 7 11 15
  let s := quarterRound s 0 5 10 15
  let s := quarterRound s 1 6 11 12
  let s := quarterRound s 2 7 8 13
  quarterRound s 3 4 9 14

/-- The state a block starts from: four constants, the key, the block's number, a nonce of zero. -/
def initial (key : Vector UInt32 8) (counter : UInt64) : Vector UInt32 16 :=
  #v[0x61707865, 0x3320646e, 0x79622d32, 0x6b206574,
    key[0], key[1], key[2], key[3], key[4], key[5], key[6], key[7],
    counter.toUInt32, (counter >>> 32).toUInt32, 0, 0]

/-- The sixteen words of a block, after twelve rounds. -/
def block (key : Vector UInt32 8) (counter : UInt64) : Vector UInt32 16 :=
  let start := initial key counter
  Vector.zipWith (· + ·) start (Nat.repeat doubleRound 6 start)

/-- The word of the key's stream at a place. -/
def word (key : Vector UInt32 8) (place : Nat) : UInt32 :=
  (block key (.ofNat (place / 16)))[place % 16]

/-! ## Seeds -/

/-- The next state of the generator that stretches seeds. -/
def stretch (s : UInt64) : UInt64 := s * 6364136223846793005 + 11634580027462260723

/-- The key word that a stretching state gives: its high bits are folded down and turned right by
its five highest. -/
def keyWord (s : UInt64) : UInt32 :=
  let w := (((s >>> 18) ^^^ s) >>> 27).toUInt32
  let n := (s >>> 59).toUInt32
  -- for `n = 0` both shifts are by zero and give the word itself
  (w >>> n) ||| (w <<< ((32 - n) % 32))

/-- The key of a seed: one word for each of the eight states after it. -/
def keyOfSeed (seed : UInt64) : Vector UInt32 8 :=
  Vector.ofFn fun i => keyWord (Nat.repeat stretch (i.val + 1) seed)

/-! ## Generators -/

/-- The generator at the start of a seed's stream. -/
def ofSeed (seed : UInt64) : Random := { key := keyOfSeed seed }

/-- The next byte, from the low end of one word. -/
def next (rng : Random) : UInt8 × Random :=
  ((word rng.key rng.position).toUInt8, { rng with position := rng.position + 1 })

end Random

end Chip8
