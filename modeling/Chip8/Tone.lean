import Chip8.Single

/-!
# Filling sound buffers

A sound buffer holds frames of one sample for each channel, the last of which may be cut short. Each
frame takes one value of the tone, converts it to the device's sample format and repeats it on
every channel.
-/

namespace Chip8

/-- The formats a sound device may ask for. -/
inductive SampleFormat where
  /-- Signed whole numbers of so many bits. -/
  | signed (bits : Nat)
  /-- Unsigned whole numbers of so many bits. -/
  | unsigned (bits : Nat)
  /-- The bits of single-precision numbers. -/
  | single
  /-- The bits of double-precision numbers. -/
  | double
  deriving DecidableEq

/-- The sample for a tone value, which is given by the bits of a single-precision number. -/
def SampleFormat.sample : SampleFormat → UInt32 → Int
  | .signed bits, value => (Single.ofBits value).toSigned bits
  | .unsigned bits, value => (Single.ofBits value).toUnsigned bits
  | .single, value => value.toNat
  | .double, value => (Single.ofBits value).toDoubleBits

namespace Tone

/-- Fills a buffer of `len` samples from a source that gives `values k` on call `k`, of which
`taken` were made before. Gives the samples and the number of calls made after it. -/
def fill {α β : Type} (channels : Nat) (nonzero : 0 < channels) (convert : α → β)
    (values : Nat → α) (len taken : Nat) : List β × Nat :=
  if len = 0 then ([], taken)
  else
    let frame := List.replicate (min channels len) (convert (values taken))
    let (rest, taken) := fill channels nonzero convert values (len - channels) (taken + 1)
    (frame ++ rest, taken)
termination_by len

/-- As many samples as the buffer holds. -/
theorem length_fill {α β : Type} {channels : Nat} (nonzero : 0 < channels) (convert : α → β)
    (values : Nat → α) (len taken : Nat) :
    (fill channels nonzero convert values len taken).1.length = len := by
  fun_induction fill channels nonzero convert values len taken with
  | case1 => rfl
  | case2 len taken h frame rest taken' eq ih =>
    rw [eq] at ih
    simp only [frame, List.length_append, List.length_replicate, ih]
    omega

end Tone

end Chip8
