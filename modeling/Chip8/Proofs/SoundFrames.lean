import Mathlib.Algebra.Order.Floor.Div
import Chip8.Tone

/-!
# Sound without drift

* `samples` — the buffer as a function of place: sample `i` belongs to frame `i / channels`
* `fill_eq` — what filling does, in one equation
* `fill_append` — a buffer of whole frames and another one are filled like both at once
* `fills_without_drift` — the two together, for every length and every number of channels

Filling goes frame by frame. A frame is short only if it is the last, so the frames behind the first
one start at multiples of the number of channels, and dividing by it counts them.
-/

namespace Chip8.Tone

variable {α β : Type}

/-- The samples of a buffer, each converted from the value of its frame; call `taken` is the first
that is made for it. -/
def samples (channels : Nat) (convert : α → β) (values : Nat → α) (len taken : Nat) : List β :=
  (List.range len).map fun i => convert (values (taken + i / channels))

variable {channels : Nat} {convert : α → β} {values : Nat → α} {len taken : Nat}

theorem getElem?_samples {i : Nat} (inside : i < len) :
    (samples channels convert values len taken)[i]? =
      some (convert (values (taken + i / channels))) := by
  rw [samples, List.getElem?_map, List.getElem?_range inside, Option.map_some]

theorem length_samples : (samples channels convert values len taken).length = len := by
  rw [samples, List.length_map, List.length_range]

/-- Up to one frame, there is one value for all channels. -/
theorem samples_of_le (short : len ≤ channels) :
    samples channels convert values len taken =
      List.replicate len (convert (values taken)) := by
  refine List.ext_getElem?' fun i inside => ?_
  rw [length_samples, List.length_replicate, Nat.max_self] at inside
  rw [getElem?_samples inside, List.getElem?_replicate_of_lt inside,
    Nat.div_eq_of_lt (Nat.lt_of_lt_of_le inside short), Nat.add_zero]

/-- Behind whole frames, as many calls were made as there are frames. -/
theorem samples_append (nonzero : 0 < channels) (frames rest : Nat) :
    samples channels convert values (channels * frames + rest) taken =
      samples channels convert values (channels * frames) taken ++
        samples channels convert values rest (taken + frames) := by
  rw [samples, List.range_add, List.map_append, List.map_map]
  congr 1
  refine List.map_congr_left fun i _ => ?_
  show convert (values (taken + (channels * frames + i) / channels)) = _
  rw [Nat.mul_add_div nonzero, Nat.add_assoc]

section Calls

variable (nonzero : 0 < channels)
include nonzero

/-- One call is made for a frame, even if it is short. -/
theorem ceilDiv_of_le (short : len ≤ channels) (some : len ≠ 0) : len ⌈/⌉ channels = 1 := by
  rw [Nat.ceilDiv_eq_add_pred_div]
  exact Nat.div_eq_of_lt_le (by omega) (by omega)

theorem ceilDiv_add (frames rest : Nat) :
    (channels * frames + rest) ⌈/⌉ channels = frames + rest ⌈/⌉ channels := by
  rw [Nat.ceilDiv_eq_add_pred_div, Nat.ceilDiv_eq_add_pred_div, ← Nat.mul_add_div nonzero]
  congr 1
  omega

/-! ## Filling -/

/-- Filling makes one call for each frame begun, and puts the samples of those calls. -/
theorem fill_eq (len taken : Nat) :
    fill channels nonzero convert values len taken =
      (samples channels convert values len taken, taken + len ⌈/⌉ channels) := by
  fun_induction fill channels nonzero convert values len taken with
  | case1 taken =>
    rw [zero_ceilDiv]
    rfl
  | case2 len taken some frame rest taken' filled ih =>
    obtain ⟨rfl, rfl⟩ := Prod.mk.inj (filled.symm.trans ih)
    rcases Nat.le_total len channels with short | long
    · -- the last frame
      rw [ceilDiv_of_le nonzero short some, samples_of_le short, Nat.sub_eq_zero_of_le short,
        zero_ceilDiv]
      simp only [frame, Nat.min_eq_right short]
      exact Prod.ext (List.append_nil _) rfl
    · obtain ⟨behind, rfl⟩ := Nat.exists_eq_add_of_le long
      have first : samples channels convert values channels taken = frame := by
        rw [samples_of_le (Nat.le_refl _)]
        simp only [frame, Nat.min_eq_left long]
      have apart : samples channels convert values (channels * 1 + behind) taken =
          samples channels convert values (channels * 1) taken ++
            samples channels convert values behind (taken + 1) := samples_append nonzero 1 behind
      have calls := ceilDiv_add nonzero 1 behind
      rw [Nat.mul_one] at apart calls
      rw [Nat.add_sub_cancel_left, apart, first, calls, Nat.add_assoc]

/-- Whole frames first and the rest behind them, or all at once. -/
theorem fill_append {a b calls calls' : Nat} {first second : List β} (whole : channels ∣ a)
    (begun : fill channels nonzero convert values a taken = (first, calls))
    (resumed : fill channels nonzero convert values b calls = (second, calls')) :
    fill channels nonzero convert values (a + b) taken = (first ++ second, calls') := by
  obtain ⟨frames, rfl⟩ := whole
  have frameCount : (channels * frames) ⌈/⌉ channels = frames := by
    rw [← Nat.add_zero (channels * frames), ceilDiv_add nonzero, zero_ceilDiv, Nat.add_zero]
  rw [fill_eq nonzero, frameCount] at begun
  obtain ⟨rfl, rfl⟩ := Prod.mk.inj begun
  rw [fill_eq nonzero] at resumed
  obtain ⟨rfl, rfl⟩ := Prod.mk.inj resumed
  rw [fill_eq nonzero, samples_append nonzero, ceilDiv_add nonzero, Nat.add_assoc]

end Calls

/--
**Sound is filled frame by frame, without drift.**

Take any length, any number of channels but none, any conversion and any source, of which some
values were taken before. As many samples come out as the buffer holds, sample `i` from the value of
frame `i / channels`. One value is taken for each frame begun, so the length divided by the number
of channels, rounded up.

So if a buffer holds whole frames, the next one goes on where a longer buffer would have gone on:
the samples are the same, and so is the number of values taken.
-/
theorem fills_without_drift (nonzero : 0 < channels) (convert : α → β) (values : Nat → α)
    (taken : Nat) :
    (∀ len,
      (fill channels nonzero convert values len taken).1.length = len ∧
      (∀ i < len, (fill channels nonzero convert values len taken).1[i]? =
        some (convert (values (taken + i / channels)))) ∧
      (fill channels nonzero convert values len taken).2 = taken + len ⌈/⌉ channels) ∧
    ∀ a b first second calls calls', channels ∣ a →
      fill channels nonzero convert values a taken = (first, calls) →
      fill channels nonzero convert values b calls = (second, calls') →
      fill channels nonzero convert values (a + b) taken = (first ++ second, calls') := by
  constructor
  · intro len
    rw [fill_eq nonzero]
    exact ⟨length_samples, fun i => getElem?_samples, rfl⟩
  · exact fun a b first second calls calls' => fill_append nonzero

/-- Two frames of three channels and a third that is cut short, filled at once and in two
pieces. -/
theorem fills_without_drift_cut_short :
    0 < 3 ∧ 3 ∣ 6 ∧
    (fill 3 (by decide) (· + 1) (fun k => 10 * k) 7 4).1[6]? = some 61 ∧
    (fill 3 (by decide) (· + 1) (fun k => 10 * k) 7 4).2 = 7 ∧
    ∃ first second,
      fill 3 (by decide) (· + 1) (fun k => 10 * k) 6 4 = (first, 6) ∧
      fill 3 (by decide) (· + 1) (fun k => 10 * k) 1 6 = (second, 7) ∧
      fill 3 (by decide) (· + 1) (fun k => 10 * k) 7 4 = (first ++ second, 7) := by
  obtain ⟨alone, together⟩ := fills_without_drift (show 0 < 3 by decide) (· + 1)
    (fun k => 10 * k) 4
  obtain ⟨-, sample, calls⟩ := alone 7
  have begun : fill 3 (by decide) (· + 1) (fun k => 10 * k) 6 4 =
      (samples 3 (· + 1) (fun k => 10 * k) 6 4, 6) := fill_eq (by decide) 6 4
  have resumed : fill 3 (by decide) (· + 1) (fun k => 10 * k) 1 6 =
      (samples 3 (· + 1) (fun k => 10 * k) 1 6, 7) := fill_eq (by decide) 1 6
  exact ⟨by decide, by decide, sample 6 (by decide), calls, _, _, begun, resumed,
    together 6 1 _ _ _ _ (by decide) begun resumed⟩

end Chip8.Tone
