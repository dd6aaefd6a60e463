import Chip8.Proofs.Scheduler.Lifecycle

/-!
# Schedulers that go on alike

* `Alike` — two schedulers that differ in the numbers of their runs, and in a fault that the call to
  start they are in is going to forget
* `Makes.alike` — each move of one is a move of the other, shows the same and leaves the two alike
* `nextAll_alike` — so is each row of moves, and what one of them cannot do the other cannot
* `Stopped` — the clocks are off: nobody is inside a call, and whoever was at work has ended
* `exists_started`, `start_alike` — from there a call to start can go well, and what it forgets does
  not matter

How often a scheduler was started, and how that went, is all that the numbers tell. A worker does
not look at them, and neither does the controller.
-/

namespace Chip8.Scheduler

variable {ρ α : Type}

/-- What a worker does and where it stands. -/
def Worker.doing (worker : Worker) : Job × Stage := (worker.job, worker.stage)

/-- Whether the controller is inside a call to start and has not forgotten the last fault yet. -/
def Phase.forgets : Phase → Bool
  | .awaiting .start | .forgetting => true
  | .idle | .awaiting (.finish _ _) | .raising | .spawning _ | .announcing => false

/-- Schedulers that are the same but for the numbers of their runs and for a fault that is going to
be forgotten. -/
inductive Alike (a : Scheduler ρ α) : Scheduler ρ α → Prop
  | intro {workers : List Worker} {runs : Nat} {fault : Option Fault}
      (doing : workers.map Worker.doing = a.workers.map Worker.doing)
      (noted : a.phase.forgets = false → fault = a.fault) :
      Alike a { a with workers, runs, fault }

variable {a b a' : Scheduler ρ α} {i : Nat} {worker : Worker} {m : Move} {effects : List Effect}

theorem Alike.symm (alike : a.Alike b) : b.Alike a := by
  obtain ⟨doing, noted⟩ := alike
  exact .intro doing.symm fun past => (noted past).symm

section Workers

variable {workers workers' : List Worker}

theorem exists_doing (doing : workers'.map Worker.doing = workers.map Worker.doing)
    (there : workers[i]? = some worker) :
    ∃ run, workers'[i]? = some ⟨worker.job, run, worker.stage⟩ := by
  have same : (workers'.map Worker.doing)[i]? = some worker.doing := by
    rw [doing, List.getElem?_map, there]
    rfl
  rw [List.getElem?_map, Option.map_eq_some_iff] at same
  obtain ⟨⟨job, run, stage⟩, there', same⟩ := same
  cases same
  exact ⟨run, there'⟩

theorem doing_set (doing : workers'.map Worker.doing = workers.map Worker.doing) {job : Job}
    {stage : Stage} {run run' : Nat} :
    (workers'.set i ⟨job, run', stage⟩).map Worker.doing =
      (workers.set i ⟨job, run, stage⟩).map Worker.doing := by
  rw [List.map_set, List.map_set, doing]
  rfl

theorem doing_concat (doing : workers'.map Worker.doing = workers.map Worker.doing) {job : Job}
    {stage : Stage} {run run' : Nat} :
    (workers' ++ [Worker.mk job run' stage]).map Worker.doing =
      (workers ++ [Worker.mk job run stage]).map Worker.doing := by
  rw [List.map_append, List.map_append, doing]
  rfl

/-- What workers do tells whether one of them holds the machine. -/
theorem any_holds_of_doing (doing : workers'.map Worker.doing = workers.map Worker.doing) :
    workers'.any (·.stage.holds) = workers.any (·.stage.holds) := by
  have seen : ∀ ws : List Worker,
      ws.any (·.stage.holds) = (ws.map Worker.doing).any (·.2.holds) := by
    intro ws
    rw [List.any_map]
    rfl
  rw [seen, seen, doing]

end Workers

theorem Alike.machineHeld (alike : a.Alike b) : b.machineHeld = a.machineHeld := by
  obtain ⟨doing, -⟩ := alike
  exact any_holds_of_doing doing

section Moves

variable [Renderer ρ] [Audio α]

theorem Works.alike (works : Works a i worker a' effects) (alike : a.Alike b) (run : Nat) :
    ∃ b', Works b i ⟨worker.job, run, worker.stage⟩ b' effects ∧ a'.Alike b' := by
  have held := alike.machineHeld
  obtain ⟨doing, noted⟩ := alike
  cases works with
  | goOn up => exact ⟨_, .goOn up, .intro (doing_set doing) noted⟩
  | giveUp down => exact ⟨_, .giveUp down, .intro (doing_set doing) noted⟩
  | step free => exact ⟨_, .step (held.trans free), .intro (doing_set doing) noted⟩
  | count free => exact ⟨_, .count (held.trans free), .intro (doing_set doing) noted⟩
  | publishBroke broke => exact ⟨_, .publishBroke broke, .intro (doing_set doing) noted⟩
  | proceed fine verdict => exact ⟨_, .proceed fine verdict, .intro (doing_set doing) noted⟩
  | halt fine verdict => exact ⟨_, .halt fine verdict, .intro (doing_set doing) fun _ => rfl⟩
  | levelBroke broke => exact ⟨_, .levelBroke broke, .intro (doing_set doing) noted⟩
  | report fine => exact ⟨_, .report fine, .intro (doing_set doing) noted⟩
  | leave => exact ⟨_, .leave, .intro (doing_set doing) noted⟩

/-- Each move of a scheduler is a move of every one like it, and shows the same. -/
theorem Makes.alike (makes : Makes a m a' effects) (alike : a.Alike b) :
    ∃ b', Makes b m b' effects ∧ a'.Alike b' := by
  have held := alike.machineHeld
  cases makes with
  | work there works =>
    have moved := works.alike alike
    obtain ⟨doing, -⟩ := alike
    obtain ⟨run, there'⟩ := exists_doing doing there
    obtain ⟨b', works', alike'⟩ := moved run
    exact ⟨b', .work there' works', alike'⟩
  | @join threads _ first rest brokeDown phase leads ended =>
    obtain ⟨doing, noted⟩ := alike
    rw [leads] at doing
    obtain ⟨first', rest', rfl, same, doing'⟩ := List.map_eq_cons_iff.mp doing
    have ended' : first'.stage = .ended brokeDown := (congrArg Prod.snd same).trans ended
    exact ⟨_, .join phase rfl ended', .intro doing' noted⟩
  | startAgain phase up =>
    obtain ⟨doing, noted⟩ := alike
    exact ⟨_, .startAgain phase up, .intro doing noted⟩
  | start phase down =>
    obtain ⟨doing, -⟩ := alike
    exact ⟨_, .start phase down, .intro doing fun past => nomatch past⟩
  | stop phase =>
    obtain ⟨doing, noted⟩ := alike
    exact ⟨_, .stop phase, .intro doing fun _ => noted (by rw [phase]; rfl)⟩
  | cleared phase gone =>
    obtain ⟨doing, -⟩ := alike
    rw [gone] at doing
    obtain rfl := List.map_eq_nil_iff.mp doing
    exact ⟨_, .cleared phase rfl, .intro (congrArg _ gone.symm) fun past => nomatch past⟩
  | finish phase gone =>
    obtain ⟨doing, noted⟩ := alike
    rw [gone] at doing
    obtain rfl := List.map_eq_nil_iff.mp doing
    exact ⟨_, .finish phase rfl, .intro (congrArg _ gone.symm) fun _ => noted (by rw [phase]; rfl)⟩
  | forget phase =>
    obtain ⟨doing, -⟩ := alike
    exact ⟨_, .forget phase, .intro doing fun _ => rfl⟩
  | raise phase =>
    obtain ⟨doing, noted⟩ := alike
    exact ⟨_, .raise phase, .intro doing fun _ => noted (by rw [phase]; rfl)⟩
  | spawnInstructions phase =>
    obtain ⟨doing, noted⟩ := alike
    exact ⟨_, .spawnInstructions phase,
      .intro (doing_concat doing) fun _ => noted (by rw [phase]; rfl)⟩
  | spawnTimers phase =>
    obtain ⟨doing, noted⟩ := alike
    exact ⟨_, .spawnTimers phase,
      .intro (doing_concat doing) fun _ => noted (by rw [phase]; rfl)⟩
  | refuse phase =>
    obtain ⟨doing, noted⟩ := alike
    exact ⟨_, .refuse phase, .intro doing fun _ => noted (by rw [phase]; rfl)⟩
  | announce phase =>
    obtain ⟨doing, noted⟩ := alike
    exact ⟨_, .announce phase, .intro doing fun _ => noted (by rw [phase]; rfl)⟩
  | keys free =>
    obtain ⟨doing, noted⟩ := alike
    exact ⟨_, .keys (held.trans free), .intro doing noted⟩

/-- What two schedulers have in common after the same moves. -/
def SameButRuns : Scheduler ρ α × List Effect → Scheduler ρ α × List Effect → Prop :=
  fun after after' => after.1.Alike after'.1 ∧ after'.2 = after.2

theorem exists_nextAll_of_alike {ms : List Move} (alike : a.Alike b)
    (h : a.nextAll ms = some (a', effects)) :
    ∃ b', b.nextAll ms = some (b', effects) ∧ a'.Alike b' := by
  induction ms generalizing a b effects with
  | nil =>
    cases h
    exact ⟨b, rfl, alike⟩
  | cons m ms ih =>
    obtain ⟨mid, seen, later, makes, rest, rfl⟩ := nextAll_cons.mp h
    obtain ⟨mid', makes', alike'⟩ := makes.alike alike
    obtain ⟨b', rest', last⟩ := ih alike' rest
    exact ⟨b', nextAll_cons.mpr ⟨mid', seen, later, makes', rest', rfl⟩, last⟩

/-- Two schedulers that are alike can make the same rows of moves, and show the same in each. -/
theorem nextAll_alike (alike : a.Alike b) (ms : List Move) :
    Option.Rel SameButRuns (a.nextAll ms) (b.nextAll ms) := by
  rcases h : a.nextAll ms with _ | ⟨a', effects⟩
  · rcases h' : b.nextAll ms with _ | ⟨b', effects'⟩
    · exact .none
    · obtain ⟨a', back, -⟩ := exists_nextAll_of_alike alike.symm h'
      cases h.symm.trans back
  · obtain ⟨b', h', alike'⟩ := exists_nextAll_of_alike alike h
    rw [h']
    exact .some ⟨alike', rfl⟩

end Moves

/-! ## Starting alike -/

theorem stage_of_hasEnded (ended : worker.hasEnded = true) :
    ∃ brokeDown, worker.stage = .ended brokeDown := by
  obtain ⟨job, run, stage⟩ := worker
  cases stage with
  | ended brokeDown => exact ⟨brokeDown, rfl⟩
  | _ => cases ended

/-- The clocks are off: nobody is inside a call, the flag is down, and whoever was at work has ended.
Some may not have been waited for yet. -/
structure Stopped (s : Scheduler ρ α) : Prop where
  idle : s.phase = .idle
  down : s.running = false
  ended : ∀ worker ∈ s.workers, worker.hasEnded = true

section Moves

variable [Renderer ρ] [Audio α] {s : Scheduler ρ α}

/-- Whoever has ended is waited for at once. -/
theorem nextAll_join (phase : s.phase = .awaiting .start) {workers : List Worker}
    (there : s.workers = workers) (ended : ∀ worker ∈ workers, worker.hasEnded = true) :
    ∃ found, s.nextAll (List.replicate workers.length (.control (.ok ()))) =
        some ({ s with workers := [] }, found) ∧
      ∀ effect ∈ found, effect = .log .controller .foundBrokenDown := by
  induction workers generalizing s with
  | nil =>
    refine ⟨[], ?_, fun effect none => nomatch none⟩
    obtain ⟨⟩ := s
    cases there
    rfl
  | cons worker rest ih =>
    obtain ⟨brokeDown, stage⟩ := stage_of_hasEnded (ended worker List.mem_cons_self)
    obtain ⟨found, joined, only⟩ := ih (s := { s with workers := rest }) phase rfl
      fun w h => ended w (List.mem_cons_of_mem _ h)
    refine ⟨_, nextAll_cons.mpr ⟨_, _, found, .join phase there stage, joined, rfl⟩, ?_⟩
    intro effect mem
    rcases List.mem_append.mp mem with mem | mem
    · cases brokeDown with
      | true => exact List.mem_singleton.mp mem
      | false => cases mem
    · exact only effect mem

theorem nextAll_of_next {mid : Scheduler ρ α} (made : s.next m = some (mid, [])) (ms : List Move) :
    s.nextAll (m :: ms) = mid.nextAll ms := by
  simp only [nextAll, made, Option.bind_eq_bind, Option.bind_some, List.nil_append]
  cases mid.nextAll ms <;> rfl

/-- Whatever went on before, a scheduler that is off starts the clocks. -/
theorem exists_started (off : s.running = false ∧ s.workers = []) (idle : s.phase = .idle) :
    ∃ t, s.nextAll startCall = some (t,
        [.log .controller (.started (Rate.ofIps s.ips)), .returned (.ok ())]) ∧
      t.running = true ∧ t.phase = .idle ∧ t.crew = [.instructions, .timers] ∧
      t.machine = s.machine := by
  obtain ⟨machine, renderer, audio, running, fault, workers, phase, runs, ips⟩ := s
  obtain ⟨rfl, rfl⟩ := off
  cases idle
  exact ⟨_, rfl, rfl, rfl, rfl, rfl⟩

/-- Two schedulers that are off and have the same machine and collaborators start alike, once those
who have ended were waited for. -/
theorem start_alike {t : Scheduler ρ α} (off : s.running = false ∧ s.workers = [])
    (idle : s.phase = .idle) (stopped : t.Stopped) (machine : t.machine = s.machine)
    (renderer : t.renderer = s.renderer) (audio : t.audio = s.audio) (ips : t.ips = s.ips) :
    ∃ cleared found,
      t.nextAll (.start :: List.replicate t.workers.length (.control (.ok ()))) =
        some (cleared, found) ∧
      (∀ effect ∈ found, effect = .log .controller .foundBrokenDown) ∧
      ∀ ms, Option.Rel SameButRuns (s.nextAll (.start :: ms)) (cleared.nextAll ms) := by
  obtain ⟨found, joined, only⟩ :=
    nextAll_join (s := { t with phase := .awaiting .start }) rfl rfl stopped.ended
  refine ⟨{ t with phase := .awaiting .start, workers := [] }, found, ?_, only, fun ms => ?_⟩
  · rw [nextAll_of_next (Makes.start stopped.idle stopped.down).next]
    exact joined
  · rw [nextAll_of_next (Makes.start idle off.1).next]
    refine nextAll_alike ?_ ms
    have down := stopped.down
    obtain ⟨⟩ := s
    obtain ⟨⟩ := t
    obtain ⟨rfl, rfl⟩ := off
    cases idle
    cases machine
    cases renderer
    cases audio
    cases ips
    cases down
    exact .intro rfl fun past => nomatch past

end Moves

end Chip8.Scheduler
