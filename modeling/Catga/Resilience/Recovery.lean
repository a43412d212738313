import Catga.Resilience.Executor

/-!
# Recovery of the circuit

A half-open circuit whose probe flag is set refuses every call.  Where the probe's future is dropped
during its attempts, nothing takes the flag back.  Where this does not happen, an executor without
calls in flight admits the next call once the reset timeout has passed, and its success closes the
circuit.
-/

namespace Catga.Resilience

open Threads Transition List Circuit

variable {α : Type} {options : ResilienceOptions} {world after : World} {task next : Task α}
  {result : CatgaResult α}

def Circuit.Stuck (circuit : Circuit) : Prop :=
  circuit.state = .halfOpen ∧ circuit.halfOpenProbe = true

/-- A call that has neither returned nor been dropped. -/
def Task.inFlight : Task α → Bool
  | .returned _ | .dropped => false
  | _ => true

def Task.permitted : Task α → Bool
  | .leave permitted => permitted
  | .permit _ | .attempting _ | .completing _ _ => true
  | _ => false

/-- A call that takes the probe flag back, or opens the circuit. -/
def Task.frees : Task α → Bool
  | .permit .reset | .attempting true | .completing .recover _ | .completing .swap _ => true
  | _ => false

def probesComplete : Label (Choice α) Nat Unit → System World (Task α) → Bool
  | .act index .drop, system =>
    match system.threads[index]? with
    | some (.attempting true) => false
    | _ => true
  | _, _ => true

lemma inFlight_of_permitted (permitted : task.permitted = true) : task.inFlight = true := by
  cases task <;> first | rfl | cases permitted

lemma inFlight_of_frees (frees : task.frees = true) : task.inFlight = true := by
  cases task <;> first | rfl | cases frees

/-- A stuck circuit was stuck before, or the call that made it so takes the flag back. -/
def Answers (world after : World) (task next : Task α) : Prop :=
  after.circuit.Stuck → next.frees = true ∨ (world.circuit.Stuck ∧ task.frees = false)

def Task.permits (task : Task α) : Nat := if task.permitted then 1 else 0

/-- An action moves permits between the call and the executor. -/
def Balanced (options : ResilienceOptions) (world after : World) (task next : Task α) : Prop :=
  options.maxConcurrent ≠ 0 → after.available + next.permits = world.available + task.permits

/-- A probe in flight. -/
def Task.probing : Task α → Bool
  | .attempting probe => probe
  | _ => false

/-- A call that is about to clear the flag of the probe. -/
def Task.clears : Task α → Bool
  | .permit .reset | .completing .recover _ | .completing .clear _ => true
  | _ => false

/-- What an action does to the flag: only a free flag admits a probe, and is taken then. -/
structure Flagged (world after : World) (task next : Task α) : Prop where
  admits : next.probing = true →
    world.circuit.halfOpenProbe = false ∧ after.circuit.halfOpenProbe = true
  keeps : task.clears = false → world.circuit.halfOpenProbe = true →
    after.circuit.halfOpenProbe = true

/-- What an action does; whether it `answers` depends on what is dropped. -/
structure Effect (options : ResilienceOptions) (kept : Prop) (world after : World)
    (task next : Task α) : Prop where
  answers : kept → Answers world after task next
  balanced : Balanced options world after task next
  flagged : Flagged world after task next

variable {kept : Prop}

lemma release_circuit : (world.release options).circuit = world.circuit := by
  simp only [World.release]
  split <;> rfl

lemma balanced_release (permitted : task.permitted = true) (ended : next.permitted = false)
    (same : after.available = world.available) :
    Balanced options world (after.release options) task next := by
  intro limited
  simp only [World.release, if_neg limited, Task.permits, permitted, ended, same]
  rfl

lemma Flagged.of_waits (waits : next.probing = false) (keeps : task.clears = false →
    world.circuit.halfOpenProbe = true → after.circuit.halfOpenProbe = true) :
    Flagged world after task next :=
  ⟨fun probing => Bool.noConfusion (waits.symm.trans probing), keeps⟩

/-- An action that leaves the circuit alone. -/
lemma Effect.aside (same : after.circuit = world.circuit) (waits : next.probing = false)
    (frees : kept → next.frees = true ∨ task.frees = false)
    (balanced : Balanced options world after task next) :
    Effect options kept world after task next where
  answers := fun holds stuck => (frees holds).imp_right fun idle => ⟨same ▸ stuck, idle⟩
  balanced := balanced
  flagged := .of_waits waits fun _ taken => same ▸ taken

lemma act_permit {point}
    (taken : go options world (.permit point : Task α) = some (after, next)) :
    Effect options kept world after (.permit point) next := by
  cases point with
  | load =>
    simp only [go, permit] at taken
    cases state : world.circuit.state <;> rw [state] at taken <;> cases taken <;>
      exact .aside rfl rfl (fun _ => .inr rfl) fun _ => rfl
  | elapsed =>
    cases taken
    exact .aside rfl rfl (fun _ => .inr rfl) fun _ => rfl
  | compare =>
    simp only [go, permit] at taken
    split_ifs at taken <;> cases taken
    · exact .aside release_circuit rfl (fun _ => .inr rfl) (balanced_release rfl rfl rfl)
    · exact .aside rfl rfl (fun _ => .inr rfl) fun _ => rfl
  | exchange =>
    simp only [go, permit] at taken
    split_ifs at taken <;> cases taken
    · exact ⟨fun _ _ => .inl rfl, fun _ => rfl, .of_waits rfl fun _ => id⟩
    · exact .aside rfl rfl (fun _ => .inr rfl) fun _ => rfl
  | reset =>
    cases taken
    refine ⟨fun _ stuck => ?_, fun _ => rfl, .of_waits rfl fun idle => ?_⟩
    · cases stuck.2
    · cases idle
  | probe =>
    simp only [go, permit] at taken
    split_ifs at taken with held <;> cases taken
    · exact .aside release_circuit rfl (fun _ => .inr rfl) (balanced_release rfl rfl rfl)
    · exact ⟨fun _ _ => .inl rfl, fun _ => rfl,
        fun _ => ⟨Bool.eq_false_iff.mpr held, rfl⟩, fun _ _ => rfl⟩

lemma proceed_effect (world : World) (task : Task α) {moved}
    {point} (taken : proceed options moved result point = (after, next))
    (permitted : task.permitted = true) (same : moved.available = world.available) :
    after.circuit = moved.circuit ∧ next.probing = false ∧
      Balanced options world after task next := by
  cases point with
  | none =>
    cases taken
    exact ⟨release_circuit, rfl, balanced_release permitted rfl same⟩
  | some =>
    cases taken
    refine ⟨rfl, rfl, fun _ => ?_⟩
    simp only [Task.permits, permitted, same]
    rfl

lemma act_completing {point}
    (taken : go options world (.completing point result) = some (after, next)) :
    Effect options kept world after (.completing point result) next := by
  have taken : proceed options { world with
      circuit := (world.circuit.complete world.clock point).1 } result
      (world.circuit.complete world.clock point).2 = (after, next) := Option.some.inj taken
  obtain ⟨same, waits, balanced⟩ := proceed_effect world (.completing point result) taken rfl rfl
  refine ⟨fun _ stuck => ?_, balanced, .of_waits waits fun idle held => ?_⟩
  · rw [same] at stuck
    cases point with
    | recover | clear => cases stuck.2
    | close | swap => cases stuck.1
    | record | stamp | store => exact .inr ⟨stuck, rfl⟩
  · rw [same]
    cases point with
    | recover | clear => cases idle
    | _ => exact held

lemma frees_of_finish {retryable}
    (taken : proceed options world result (completion true result retryable) = (after, next)) :
    next.frees = true := by
  cases result with
  | ok =>
    cases taken
    rfl
  | error =>
    simp only [completion] at taken
    split_ifs at taken <;> cases taken <;> rfl

lemma act_go (taken : go options world task = some (after, next)) :
    Effect options kept world after task next := by
  cases task with
  | permit => exact act_permit taken
  | completing => exact act_completing taken
  | acquire =>
    simp only [go] at taken
    split_ifs at taken with unlimited free <;> cases taken <;>
      refine .aside rfl rfl (fun _ => .inr rfl) fun limited => ?_
    · exact absurd unlimited limited
    · exact Nat.sub_add_cancel free
    · rfl
  | enqueue =>
    simp only [go] at taken
    split_ifs at taken <;> cases taken <;> exact .aside rfl rfl (fun _ => .inr rfl) fun _ => rfl
  | queued =>
    simp only [go] at taken
    split_ifs at taken with free
    cases taken
    exact .aside rfl rfl (fun _ => .inr rfl) fun _ => Nat.sub_add_cancel free
  | leave permitted =>
    cases taken
    cases permitted <;> exact .aside rfl rfl (fun _ => .inr rfl) fun _ => rfl
  | _ => cases taken

lemma act_effect {choice}
    (taken : act options choice task world = some (after, next)) :
    Effect options (¬(choice = .drop ∧ task = .attempting true)) world after task next := by
  cases choice with
  | go => exact act_go taken
  | cancel =>
    cases task <;> cases taken <;> exact .aside rfl rfl (fun _ => .inr rfl) fun _ => rfl
  | finish =>
    cases task with
    | attempting probe =>
      have taken := Option.some.inj taken
      obtain ⟨same, waits, balanced⟩ := proceed_effect world (.attempting probe) taken rfl rfl
      refine .aside same waits (fun _ => ?_) balanced
      cases probe with
      | false => exact .inr rfl
      | true => exact .inl (frees_of_finish taken)
    | _ => cases taken
  | drop =>
    cases task with
    | attempting probe =>
      cases taken
      refine .aside release_circuit rfl (fun kept => ?_) (balanced_release rfl rfl rfl)
      cases probe with
      | false => exact .inr rfl
      | true => exact absurd ⟨rfl, rfl⟩ kept
    | acquire | queued =>
      cases taken
      exact .aside rfl rfl (fun _ => .inr rfl) fun _ => rfl
    | _ => cases taken

/-- What holds of an executor in which no probe is dropped. -/
structure Sound (options : ResilienceOptions) (system : System World (Task α)) : Prop where
  permits : options.maxConcurrent ≠ 0 →
    system.shared.available + system.threads.countP Task.permitted = options.maxConcurrent
  freed : system.shared.circuit.Stuck → ∃ task ∈ system.threads, task.frees = true

lemma Sound.act {system index} (sound : Sound options system)
    (here : system.threads[index]? = some task)
    (answers : Answers system.shared after task next)
    (balanced : Balanced options system.shared after task next) :
    Sound options ⟨after, system.threads.set index next⟩ := by
  obtain ⟨inside, -⟩ := List.getElem?_eq_some_iff.mp here
  constructor
  case permits =>
    intro limited
    have total := sound.permits limited
    have moved := balanced limited
    have recount : (system.threads.set index next).countP Task.permitted + task.permits =
        system.threads.countP Task.permitted + next.permits :=
      Machine.countP_set_add Task.permitted next here
    change after.available + (system.threads.set index next).countP Task.permitted = _
    omega
  case freed =>
    intro stuck
    obtain frees | ⟨stuck, idle⟩ := answers stuck
    · exact ⟨next, mem_set inside next, frees⟩
    · obtain ⟨other, member, frees⟩ := sound.freed stuck
      refine ⟨other, Machine.mem_set_of_ne here member ?_ next, frees⟩
      rintro rfl
      rw [idle] at frees
      cases frees

lemma sound_step {label} {system finish : System World (Task α)}
    (sound : Sound options system) (admitted : probesComplete label system = true)
    (taken : (machine options).step label system = some finish) : Sound options finish := by
  cases label with
  | act index choice =>
    obtain ⟨task, shared, next, here, acted, rfl⟩ := Machine.step_act taken
    have kept : ¬(choice = .drop ∧ task = .attempting true) := by
      rintro ⟨rfl, rfl⟩
      simp only [probesComplete, here] at admitted
      cases admitted
    have effect := act_effect acted
    exact sound.act here (effect.answers kept) effect.balanced
  | env =>
    obtain ⟨shared, moved, rfl⟩ := Option.map_eq_some_iff.mp taken
    simp only [machine] at moved
    split_ifs at moved
    cases moved
    exact ⟨sound.permits, sound.freed⟩
  | spawn =>
    cases taken
    refine ⟨fun limited => ?_, fun stuck => ?_⟩
    · rw [countP_append]
      exact sound.permits limited
    · obtain ⟨task, member, frees⟩ := sound.freed stuck
      exact ⟨task, mem_append_left _ member, frees⟩

def acts (options : ResilienceOptions) :
    List (Choice α) → Task α → World → Option (World × Task α)
  | [], task, world => some (world, task)
  | choice :: choices, task, world =>
    (act options choice task world).bind fun moved => acts options choices moved.2 moved.1

lemma runs_of_acts {threads choices}
    (taken : acts options choices task world = some (after, next)) :
    Runs (machine options).step (fun _ _ => True) ⟨world, threads ++ [task]⟩
      (choices.map (.act threads.length)) ⟨after, threads ++ [next]⟩ := by
  induction choices generalizing task world with
  | nil =>
    cases taken
    exact .nil
  | cons choice choices ih =>
    obtain ⟨⟨middle, further⟩, acted, rest⟩ := Option.bind_eq_some_iff.mp taken
    refine .cons trivial ?_ (ih rest)
    simp [Machine.step, machine, acted]

/-- The choices of a call that nothing keeps waiting and whose operation succeeds. -/
def succeeding (value : α) (before later : Nat) : List (Choice α) :=
  replicate before .go ++ .finish (.ok value) false :: replicate later .go

/-- A call that acts alone returns what its operation does, and the circuit is closed then. -/
def Finishes (options : ResilienceOptions) (value : α) (world : World) (task : Task α) : Prop :=
  ∃ before later after, acts options (succeeding value before later) task world =
    some (after, .returned (.ok value)) ∧ after.circuit.state = .closed

section

variable {value : α}

lemma Finishes.step (rest : Finishes options value after next)
    (taken : go options world task = some (after, next)) : Finishes options value world task := by
  obtain ⟨before, later, finish, done, closed⟩ := rest
  refine ⟨before + 1, later, finish, ?_, closed⟩
  simp only [succeeding, replicate_succ, cons_append, acts, act, taken, Option.bind_some]
  exact done

lemma finishes_probe : Finishes options value world (.attempting true) := by
  let closed : World := { world with circuit := { world.circuit with
    outcomes := world.circuit.outcomes.clear, halfOpenProbe := false, state := .closed } }
  refine ⟨0, 2, closed.release options, rfl, ?_⟩
  rw [release_circuit]

lemma finishes_closed (closed : world.circuit.state = .closed) :
    Finishes options value world (.attempting false) := by
  let pushed : World := { world with circuit := { world.circuit with
    outcomes := world.circuit.outcomes.push true } }
  refine ⟨0, 1, pushed.release options, rfl, ?_⟩
  rw [release_circuit]
  exact closed

lemma finishes_halfOpen (halfOpen : world.circuit.state = .halfOpen)
    (free : world.circuit.halfOpenProbe = false) :
    Finishes options value world (.permit .load) := by
  let probing : World := { world with circuit := { world.circuit with halfOpenProbe := true } }
  have admitted : Finishes options value probing (.attempting true) := finishes_probe
  have loaded : Finishes options value world (.permit .probe) := by
    refine admitted.step ?_
    simp only [go, permit, free]
    rfl
  refine loaded.step ?_
  simp [go, permit, halfOpen]

variable (elapsed : world.circuit.openedAtNs + world.circuit.options.resetTimeout ≤ world.clock)
  (young : world.clock < 2 ^ 64)
include elapsed young

lemma finishes_opened (opened : world.circuit.state = .opened) :
    Finishes options value world (.permit .load) := by
  have late : ¬elapsedNs world.clock - world.circuit.openedAtNs <
      world.circuit.options.resetTimeout := by
    simp only [elapsedNs]
    omega
  let half : World := { world with circuit := { world.circuit with state := .halfOpen } }
  let reset : World := { half with circuit := { half.circuit with halfOpenProbe := false } }
  have loaded : Finishes options value reset (.permit .load) := finishes_halfOpen rfl rfl
  have exchanged : Finishes options value half (.permit .reset) := loaded.step rfl
  have compared : Finishes options value world (.permit .exchange) := by
    refine exchanged.step ?_
    simp only [go, permit, opened]
    rfl
  have timed : Finishes options value world (.permit (.compare (elapsedNs world.clock))) := by
    refine compared.step ?_
    simp [go, permit, if_neg late]
  refine (timed.step rfl : Finishes options value world (.permit .elapsed)).step ?_
  simp [go, permit, opened]

/-- A call on an executor that has a permit for it, whose circuit is not stuck and has not been
opened within the reset timeout. -/
lemma finishes_acquire (free : options.maxConcurrent ≠ 0 → 0 < world.available)
    (unstuck : ¬world.circuit.Stuck) : Finishes options value world .acquire := by
  have permitted : ∀ moved : World, moved.circuit = world.circuit → moved.clock = world.clock →
      Finishes options value moved (.permit .load) := by
    intro moved circuit clock
    rw [← circuit] at unstuck elapsed
    rw [← clock] at elapsed young
    cases state : moved.circuit.state with
    | closed =>
      refine (finishes_closed state).step ?_
      simp [go, permit, state]
    | opened => exact finishes_opened elapsed young state
    | halfOpen =>
      exact finishes_halfOpen state (Bool.eq_false_iff.mpr fun set => unstuck ⟨state, set⟩)
  by_cases unlimited : options.maxConcurrent = 0
  · exact (permitted world rfl rfl).step (if_pos unlimited)
  · refine (permitted { world with available := world.available - 1 } rfl rfl).step ?_
    exact (if_neg unlimited).trans (if_pos (free unlimited))

end

/-- Where no probe was dropped and no call is in flight, a call made after the reset timeout is
admitted and, its operation succeeding, leaves the circuit closed. -/
theorem recovers_of_probesComplete (options : ResilienceOptions) (circuit : CircuitBreakerOptions)
    {labels : List (Label (Choice α) Nat Unit)} {system : System World (Task α)}
    (run : Runs (machine options).step (fun label before => probesComplete label before = true)
      ⟨World.new options circuit, []⟩ labels system)
    (quiet : ∀ task ∈ system.threads, task.inFlight = false)
    (elapsed : system.shared.circuit.openedAtNs + system.shared.circuit.options.resetTimeout ≤
      system.shared.clock)
    (young : system.shared.clock < 2 ^ 64) (value : α) :
    ∃ before later after, after.circuit.state = .closed ∧
      Runs (machine options).step (fun _ _ => True) system
        (.spawn () :: (succeeding value before later).map (.act system.threads.length))
        ⟨after, system.threads ++ [.returned (.ok value)]⟩ := by
  have sound : Sound options system :=
    run.invariant ⟨fun _ => rfl, fun stuck => by cases stuck.1⟩ sound_step
  have unpermitted : system.threads.countP Task.permitted = 0 := by
    refine countP_eq_zero.mpr fun task member permitted => ?_
    exact Bool.noConfusion ((quiet task member).symm.trans (inFlight_of_permitted permitted))
  have free : options.maxConcurrent ≠ 0 → 0 < system.shared.available := by
    intro limited
    have total := sound.permits limited
    omega
  have unstuck : ¬system.shared.circuit.Stuck := by
    intro stuck
    obtain ⟨task, member, frees⟩ := sound.freed stuck
    exact Bool.noConfusion ((quiet task member).symm.trans (inFlight_of_frees frees))
  obtain ⟨before, later, after, done, closed⟩ : Finishes options value system.shared .acquire :=
    finishes_acquire elapsed young free unstuck
  exact ⟨before, later, after, closed, .cons trivial rfl (runs_of_acts done)⟩

/-- A circuit that opens at the first failure and resets after ten nanoseconds. -/
def fragile : CircuitBreakerOptions := ⟨10, 1, 1, 1, 1, by decide⟩

def single : ResilienceOptions := ⟨1, 0⟩

/-- The first call fails and opens the circuit; the second one is the probe. -/
def failedThenProbe : List (Label (Choice Unit) Nat Unit) :=
  [.spawn (), .act 0 .go, .act 0 .go, .act 0 (.finish (.error ⟨.transient, "down"⟩) true)] ++
    replicate 5 (.act 0 .go) ++ [.env 100, .spawn ()] ++ replicate 8 (.act 1 .go)

/-- The probe fails, and the next call closes the circuit. -/
theorem recovers_after_failed_probe :
    ∃ system : System World (Task Unit), ∃ before later after,
      system.shared.circuit.state = .opened ∧ after.circuit.state = .closed ∧
      Runs (machine single).step (fun _ _ => True) system
        (.spawn () :: (succeeding () before later).map (.act system.threads.length))
        ⟨after, system.threads ++ [.returned (.ok ())]⟩ := by
  obtain ⟨system, run, opened, quiet, elapsed, young⟩ := Runs.exists_of_execWhile
    (machine single).step (fun label before => probesComplete label before = true)
    ⟨World.new single fragile, []⟩
    (failedThenProbe ++ .act 1 (.finish (.error ⟨.transient, "down"⟩) true) ::
      replicate 4 (.act 1 .go) ++ [.env 200])
    (fun system => system.shared.circuit.state = .opened ∧
      (∀ task ∈ system.threads, task.inFlight = false) ∧
      system.shared.circuit.openedAtNs + system.shared.circuit.options.resetTimeout ≤
        system.shared.clock ∧ system.shared.clock < 2 ^ 64)
    (by decide)
  obtain ⟨before, later, after, closed, rest⟩ :=
    recovers_of_probesComplete single fragile run quiet elapsed young ()
  exact ⟨system, before, later, after, opened, closed, rest⟩

/-- The probe's future is dropped.  Long after the reset timeout, with no call in flight, the next
call is refused, and the circuit stays as it is. -/
theorem stuck_after_dropped_probe :
    ∃ system : System World (Task Unit),
      Runs (machine single).step (fun _ _ => True) ⟨World.new single fragile, []⟩
        (failedThenProbe ++ [.act 1 .drop, .env 1000, .spawn (), .act 2 .go, .act 2 .go,
          .act 2 .go])
        system ∧
      (∀ task ∈ system.threads, task.inFlight = false) ∧
      system.shared.circuit.openedAtNs + system.shared.circuit.options.resetTimeout ≤ 1000 ∧
      system.threads[2]? = some (.returned (.error circuitOpen)) ∧
      system.shared.circuit.Stuck :=
  Runs.exists_of_test (fun system => (∀ task ∈ system.threads, task.inFlight = false) ∧
      system.shared.circuit.openedAtNs + system.shared.circuit.options.resetTimeout ≤ 1000 ∧
      system.threads[2]? = some (.returned (.error circuitOpen)) ∧
      system.shared.circuit.state = .halfOpen ∧ system.shared.circuit.halfOpenProbe = true)
    (by decide) fun _ => id

end Catga.Resilience
