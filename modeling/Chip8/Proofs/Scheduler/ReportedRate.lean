import Mathlib.Data.Nat.Prime.Basic
import Chip8.Proofs.Precision
import Chip8.Proofs.Scheduler.Alike
import Chip8.Proofs.Scheduler.Announced

/-!
# The reported rate

* `isNearest_period` — a period is the nearest whole number of nanoseconds
* `ofIps_eq` — the rate worked back from it is the nearest whole number, in spite of two divisions
  in double precision; halfway between two rates it is the greater one, with one exception
* `figure_period_iff` — a rate is told by its period exactly if it is told by any
* `reported_rate` — what a scheduler reports when it starts, by these
* `reported_rate_differs` — that is not always the configured rate

A period of `p` nanoseconds tells rates apart that differ by more than a rate over `p`. So it tells
every rate below the root of a billion, where the period is longer than the rate is high. Of the
rates above, several share a period, which tells one of them.
-/

namespace Chip8

namespace Rate

open BinaryFraction

variable {ips p r : Nat}

/-! ## The period -/

theorem isNearest_period (ips : Nat) : IsNearest (period ips) second (max ips 1) := by
  have proper : 1 ≤ max ips 1 := by omega
  have rounded : IsNearest (period ips) (1 * second) (max ips 1) :=
    isNearest_round Nat.one_pos proper (by decide)
  rwa [Nat.one_mul] at rounded

theorem isNearest_period_of_le (some : 1 ≤ r) : IsNearest (period r) second r := by
  have nearest := isNearest_period r
  rwa [Nat.max_eq_left some] at nearest

theorem period_le_second (ips : Nat) : period ips ≤ second := by
  have below := (isNearest_period ips).2
  have nonzero : 1 ≤ max ips 1 := by omega
  by_contra! long
  have more := Nat.mul_le_mul_right (max ips 1) long
  have once := Nat.mul_le_mul_left second nonzero
  linarith

/-- Half a nanosecond is still a period. -/
theorem period_ne_zero (slow : max ips 1 ≤ 2 * second) : period ips ≠ 0 := by
  have above := (isNearest_period ips).1
  intro zero
  rw [zero] at above
  have halfway : ips = 2 * second := by
    simp only [second] at *
    omega
  rw [halfway] at zero
  exact absurd zero (by decide +kernel)

/-! ## The rate worked back -/

/-- One second over a period, as the nearest whole number, the greater one of two. -/
def figure (period : Nat) : Nat := nearestUp second period

theorem exists_ofPeriod (some : 0 < p) (short : p ≤ second) :
    ∃ n, ofPeriod p = .hertz n ∧ IsNearest n second p :=
  ⟨_, if_neg some.ne', isNearest_reciprocal some short (by decide)⟩

/-- The odd factors of two seconds are powers of five, so only these periods are halfway between two
rates. -/
theorem exists_halfway {n : Nat} (half : 2 * second = (2 * n + 1) * p) :
    ∃ k ≤ 9, p = 1024 * 5 ^ k := by
  have odd : Nat.Coprime (2 * n + 1) (2 ^ 10) := Nat.Coprime.pow_right _ (by simp)
  have divides : 2 * n + 1 ∣ 2 ^ 10 * 5 ^ 9 := ⟨p, by rw [← half]; rfl⟩
  obtain ⟨k, few, power⟩ := (Nat.dvd_prime_pow Nat.prime_five).mp (odd.dvd_of_dvd_mul_left divides)
  refine ⟨9 - k, by omega, Nat.eq_of_mul_eq_mul_left (show 0 < 5 ^ k by positivity) ?_⟩
  rw [← power, ← half, power, Nat.mul_left_comm, ← pow_add, Nat.add_sub_cancel' few]
  rfl

/-- Two of the periods halfway between two rates tell the smaller one. -/
theorem ofPeriod_eq (some : 0 < p) (short : p ≤ second) (apart : p ≠ 1024 ∧ p ≠ 640000) :
    ofPeriod p = .hertz (figure p) := by
  obtain ⟨n, told, nearest⟩ := exists_ofPeriod some short
  by_cases half : 2 * second = (2 * n + 1) * p
  · have others : ∀ k ≤ 9, k ≠ 0 → k ≠ 4 →
        ofPeriod (1024 * 5 ^ k) = .hertz (figure (1024 * 5 ^ k)) := by decide +kernel
    obtain ⟨k, few, rfl⟩ := exists_halfway half
    refine others k few ?_ ?_
    · rintro rfl
      exact apart.1 rfl
    · rintro rfl
      exact apart.2 rfl
  · rw [told, nearest.eq_nearestUp half]
    rfl

/-- One of the two is the period of a rate. -/
theorem ofIps_eq (some : period ips ≠ 0) :
    ofIps ips = .hertz (if period ips = 1024 then 976562 else figure (period ips)) := by
  split
  · next halfway =>
    rw [ofIps, halfway]
    decide +kernel
  · next apart =>
    refine ofPeriod_eq (by omega) (period_le_second ips) ⟨apart, fun halfway => ?_⟩
    have nearest := isNearest_period ips
    rw [halfway] at nearest
    simp only [IsNearest, second] at nearest
    omega

/-! ## Rates that are told -/

/-- A period that is longer than the rate is high tells the rate. -/
theorem told_of_lt (some : 1 ≤ r) (long : r < period r) :
    figure (period r) = r ∧ ofIps r = .hertz r := by
  have positive : 0 < period r := by omega
  obtain ⟨above, below⟩ := (isNearest_period_of_le some).swap long
  obtain ⟨n, told, nearest⟩ := exists_ofPeriod positive (period_le_second r)
  refine ⟨(isNearest_nearestUp second positive).eq above below, ?_⟩
  rw [ofIps, told, nearest.eq above below]

/-- The first rates whose period is no longer are told as well. -/
theorem told_of_le (some : 1 ≤ r) (slow : r ≤ 31795) :
    figure (period r) = r ∧ ofIps r = .hertz r := by
  by_cases long : r < period r
  · exact told_of_lt some long
  · have fast : 31623 ≤ r := by
      have above := (isNearest_period_of_le some).1
      simp only [second] at above
      by_contra! slower
      nlinarith
    have each : ∀ k ≤ 172, figure (period (31623 + k)) = 31623 + k ∧
        ofIps (31623 + k) = .hertz (31623 + k) := by decide +kernel
    obtain ⟨k, rfl⟩ := Nat.exists_eq_add_of_le fast
    exact each k (by omega)

/-- A rate that some period tells is told by its own. -/
theorem figure_period_iff (some : 1 ≤ r) :
    figure (period r) = r ↔ ∃ p, p ≠ 0 ∧ figure p = r := by
  constructor
  · intro told
    refine ⟨period r, fun zero => ?_, told⟩
    rw [zero] at told
    have none : figure 0 = 0 := rfl
    omega
  · rintro ⟨p, nonzero, told⟩
    have nearest : IsNearest r second p := by
      rw [← told]
      exact isNearest_nearestUp second (by omega)
    rcases Nat.lt_or_ge p r with short | long
    · obtain ⟨above, below⟩ := nearest.swap short
      rw [(isNearest_period_of_le some).eq above below, told]
    · refine (told_of_le some ?_).1
      have below := nearest.2
      simp only [second] at below
      by_contra! fast
      nlinarith

end Rate

/-- The configured rate; zero counts as one. -/
def Config.rate (config : Config) : Nat := max config.ips.toNat 1

/-- The period of the instruction clock, in nanoseconds. -/
def Config.period (config : Config) : Nat := Rate.period config.ips.toNat

theorem Config.period_rate (config : Config) : Rate.period config.rate = config.period := by
  rw [Config.rate, Config.period, Rate.period, Rate.period, Nat.max_eq_left (Nat.le_max_right _ 1)]

namespace Scheduler

variable {ρ α : Type} [Renderer ρ] [Audio α]
variable {s s' : Scheduler ρ α} {m : Move} {effects : List Effect}

/-! ## What is announced -/

/-- A scheduler keeps its rate, and no move announces another one. -/
theorem Makes.started (makes : Makes s m s' effects) :
    s'.ips = s.ips ∧ ∀ rate, .started rate ∈ notices effects → rate = Rate.ofIps s.ips := by
  have silent (quiet : notices effects = []) :
      ∀ rate, .started rate ∈ notices effects → rate = Rate.ofIps s.ips := by
    rw [quiet]
    exact fun _ none => nomatch none
  cases makes with
  | announce =>
    refine ⟨rfl, fun rate mem => ?_⟩
    cases List.mem_singleton.mp mem
    rfl
  | finish =>
    refine ⟨rfl, fun rate mem => ?_⟩
    split at mem <;> simp [notices, Effect.notice?, Event.isNotice] at mem
  | join => exact ⟨rfl, silent (by split <;> rfl)⟩
  | work there works => exact ⟨by cases works <;> rfl, silent works.quiet.2⟩
  | _ => exact ⟨rfl, silent rfl⟩

/-- Whatever a scheduler does, it announces the rate of the machine it was made for. -/
theorem started_of_nextAll {machine : Machine} {renderer : ρ} {audio : α} {past : List Move}
    (reached : (new machine renderer audio).nextAll past = some (s, effects)) :
    ∀ rate, .started rate ∈ notices effects → rate = Rate.ofIps machine.config.ips.toNat := by
  let kept (t : Scheduler ρ α) (_ : List Move) (shown : List Effect) : Prop :=
    t.ips = machine.config.ips.toNat ∧
      ∀ rate, .started rate ∈ notices shown → rate = Rate.ofIps machine.config.ips.toNat
  have told : kept s past effects := by
    refine nextAll_history kept ?_ reached [] [] ⟨rfl, fun _ none => nomatch none⟩
    rintro t m t' past shown effects ⟨ips, told⟩ makes
    obtain ⟨same, announced⟩ := makes.started
    refine ⟨same.trans ips, fun rate mem => ?_⟩
    rw [notices_append, List.mem_append] at mem
    rcases mem with mem | mem
    · exact told rate mem
    · rw [← ips]
      exact announced rate mem
  exact told.2

/--
**The reported rate.**

Take any configured rate, zero counting as one. The period of the instruction clock is the whole
number of nanoseconds nearest to one second over the rate. It is not zero as long as that is half a
nanosecond at least.

One second over the period, to the nearest whole number, is the configured rate exactly if that is
the rate of some whole number of nanoseconds. Every rate up to 31795 is.

This is what a scheduler reports whenever it starts, in any run, although it calculates in double
precision. Only if the period is 1024 nanoseconds, halfway between two rates, it reports the smaller
one. The record shows the number reported.
-/
theorem reported_rate {machine : Machine} {renderer : ρ} {audio : α} {past : List Move}
    {config : Config} (configured : machine.config = config)
    (reached : (new machine renderer audio).nextAll past = some (s, effects)) :
    (BinaryFraction.IsNearest config.period Rate.second config.rate ∧
      (config.rate ≤ 2 * Rate.second → config.period ≠ 0)) ∧
    ((Rate.figure config.period = config.rate ↔ ∃ p, p ≠ 0 ∧ Rate.figure p = config.rate) ∧
      (config.rate ≤ 31795 → Rate.figure config.period = config.rate)) ∧
    ∀ rate, .started rate ∈ notices effects →
      (config.period ≠ 0 →
        rate = .hertz (if config.period = 1024 then 976562 else Rate.figure config.period)) ∧
      (config.rate ≤ 31795 → rate = .hertz config.rate) ∧
      ∀ n, rate = .hertz n → (Event.started rate).text =
        "Started [ips: " ++ toString n ++ "] [timer hz: " ++ toString Timers.hertz ++ "]" := by
  subst configured
  have some : 1 ≤ machine.config.rate := Nat.le_max_right ..
  have own := machine.config.period_rate
  refine ⟨⟨Rate.isNearest_period _, Rate.period_ne_zero⟩, ⟨?_, fun slow => ?_⟩,
    fun rate mem => ⟨fun nonzero => ?_, fun slow => ?_, ?_⟩⟩
  · rw [← own]
    exact Rate.figure_period_iff some
  · rw [← own]
    exact (Rate.told_of_le some slow).1
  · rw [started_of_nextAll reached rate mem]
    exact Rate.ofIps_eq nonzero
  · have same : rate = Rate.ofIps machine.config.rate := by
      rw [started_of_nextAll reached rate mem, Rate.ofIps, Rate.ofIps, own]
      rfl
    rw [same, (Rate.told_of_le some slow).2]
  · rintro n rfl
    rfl

/-- At the greatest of these rates the period is shorter than the rate is high. -/
theorem reported_rate_at_bound :
    ∃ s effects, (new (.fresh { ips := 31795 } (.ofSeed 0)) Headless.mk Mute.mk).nextAll startCall =
        some (s, effects) ∧
      BinaryFraction.IsNearest 31451 Rate.second 31795 ∧ Rate.figure 31451 = 31795 ∧
      .started (.hertz 31795) ∈ notices effects ∧
      (Event.started (.hertz 31795)).text =
        "Started [ips: " ++ toString 31795 ++ "] [timer hz: " ++ toString 60 ++ "]" := by
  have fresh : (Machine.fresh { ips := 31795 } (.ofSeed 0)).config = { ips := 31795 } := rfl
  have period : Config.period { ips := 31795 } = 31451 := by decide +kernel
  have rate : Config.rate { ips := 31795 } = 31795 := rfl
  obtain ⟨s, reached, -⟩ := exists_started
    (s := new (.fresh { ips := 31795 } (.ofSeed 0)) Headless.mk Mute.mk) ⟨rfl, rfl⟩ rfl
  obtain ⟨⟨nearest, nonzero⟩, ⟨-, kept⟩, announced⟩ := reported_rate fresh reached
  have figure := kept (by decide)
  obtain ⟨told, -, text⟩ := announced _ List.mem_cons_self
  have same := told (nonzero (by decide))
  rw [period, rate] at nearest figure
  rw [period, figure] at same
  rw [same] at text
  refine ⟨s, _, reached, nearest, figure, ?_, text 31795 rfl⟩
  rw [same]
  exact List.mem_cons_self

/-- The next rate is reported as another one, and where half a nanosecond is too long there is no
period. -/
theorem reported_rate_differs :
    (Config.period { ips := 31796 } = 31450 ∧ Rate.figure 31450 = 31797 ∧
      ∃ s, (new (.fresh { ips := 31796 } (.ofSeed 0)) Headless.mk Mute.mk).nextAll startCall =
        some (s, [.log .controller (.started (.hertz 31797)), .returned (.ok ())])) ∧
    Config.period { ips := 4294967295 } = 0 ∧
      ∃ s, (new (.fresh { ips := 4294967295 } (.ofSeed 0)) Headless.mk Mute.mk).nextAll startCall =
        some (s, [.log .controller (.started .unbounded), .returned (.ok ())]) := by
  have next : Rate.ofIps 31796 = .hertz 31797 := by decide +kernel
  have last : Rate.ofIps 4294967295 = .unbounded := by decide +kernel
  obtain ⟨s, started, -⟩ := exists_started
    (s := new (.fresh { ips := 31796 } (.ofSeed 0)) Headless.mk Mute.mk) ⟨rfl, rfl⟩ rfl
  obtain ⟨t, started', -⟩ := exists_started
    (s := new (.fresh { ips := 4294967295 } (.ofSeed 0)) Headless.mk Mute.mk) ⟨rfl, rfl⟩ rfl
  refine ⟨⟨by decide +kernel, by decide +kernel, s, ?_⟩, by decide +kernel, t, ?_⟩
  · rw [← next]
    exact started
  · rw [← last]
    exact started'

end Scheduler

end Chip8
