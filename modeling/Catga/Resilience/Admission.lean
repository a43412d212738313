import Catga.Resilience.Recovery

/-!
# The admission queue

`acquire` counts a future as waiting before it waits for a permit, and takes it off once the wait is
over.  A future that is dropped while it waits runs no code any more and stays counted.
-/

namespace Catga.Resilience

open Threads Transition List

variable {α : Type} {options : ResilienceOptions} {world after : World} {task next : Task α}

/-- A future that is counted: it waits for a permit, or has not been taken off yet. -/
def Task.waits : Task α → Bool
  | .queued | .leave _ => true
  | _ => false

/-- No future is dropped while it waits for a permit. -/
def waitsComplete : Label (Choice α) Nat Unit → System World (Task α) → Bool
  | .act index .drop, system => system.threads[index]?.all fun task => !task.waits
  | _, _ => true

/-- An action moves the counter with the call, and only a place in the queue moves it up. -/
lemma act_waits {choice} (counted : task.waits = true → 0 < world.waiting)
    (kept : choice = .drop → task.waits = false)
    (taken : act options choice task world = some (after, next)) :
    after.waiting + (if task.waits then 1 else 0) = world.waiting + (if next.waits then 1 else 0) ∧
      (after.waiting ≤ world.waiting ∨ after.waiting ≤ options.maxQueued) := by
  unfold act at taken
  split at taken
  · unfold go at taken
    split at taken
    all_goals grind [World.release, Task.waits, proceed.eq_def]
  all_goals grind [World.release, Task.waits, proceed.eq_def]

/-- The counter is the number of futures that wait, and within its bound. -/
def Counted (options : ResilienceOptions) (system : System World (Task α)) : Prop :=
  system.shared.waiting = system.threads.countP Task.waits ∧
    system.shared.waiting ≤ options.maxQueued

lemma counted_step {label} {system finish : System World (Task α)}
    (counted : Counted options system) (admitted : waitsComplete label system = true)
    (taken : (machine options).step label system = some finish) : Counted options finish := by
  obtain ⟨exactly, bounded⟩ := counted
  cases label with
  | act index choice =>
    obtain ⟨task, shared, next, here, acted, rfl⟩ := Machine.step_act taken
    have recount := Machine.countP_set_add Task.waits next here
    have listed (waits : task.waits = true) : 0 < system.shared.waiting :=
      exactly ▸ countP_pos_iff.mpr ⟨task, mem_of_getElem? here, waits⟩
    have kept : choice = .drop → task.waits = false := by
      rintro rfl
      simpa [waitsComplete, here] using admitted
    obtain ⟨moves, within⟩ := act_waits listed kept acted
    refine ⟨?_, ?_⟩ <;> dsimp only <;> omega
  | env =>
    obtain ⟨shared, moved, rfl⟩ := Option.map_eq_some_iff.mp taken
    simp only [machine] at moved
    split_ifs at moved
    cases moved
    exact ⟨exactly, bounded⟩
  | spawn =>
    cases taken
    refine ⟨?_, bounded⟩
    rw [countP_append]
    exact exactly

/-- While no future is dropped as it waits for a permit, the counter is exact and within its bound,
and a call that finds nobody waiting is queued. -/
theorem waiting_exact (options : ResilienceOptions) (circuit : CircuitBreakerOptions)
    {labels : List (Label (Choice α) Nat Unit)} {system : System World (Task α)}
    (run : Runs (machine options).step (fun label before => waitsComplete label before = true)
      ⟨World.new options circuit, []⟩ labels system) :
    system.shared.waiting = system.threads.countP Task.waits ∧
      system.shared.waiting ≤ options.maxQueued ∧
      (0 < options.maxQueued → (∀ task ∈ system.threads, task.waits = false) →
        go options system.shared (.enqueue : Task α) =
          some ({ system.shared with waiting := system.shared.waiting + 1 }, .queued)) := by
  obtain ⟨exactly, bounded⟩ : Counted options system :=
    run.invariant ⟨rfl, Nat.zero_le _⟩ counted_step
  refine ⟨exactly, bounded, fun room idle => if_neg ?_⟩
  have nobody : system.threads.countP Task.waits = 0 :=
    countP_eq_zero.mpr fun task member => by simp [idle task member]
  omega

/-- One permit and one place in the queue; the first call takes the permit, the second waits. -/
def oneWaits : List (Label (Choice Unit) Nat Unit) :=
  [.spawn (), .act 0 .go, .spawn (), .act 1 .go, .act 1 .go]

theorem waiting_exact_one : ∃ system : System World (Task Unit),
    system.threads[1]? = some .queued ∧
      system.shared.waiting = system.threads.countP Task.waits := by
  obtain ⟨system, run, queued⟩ := Runs.exists_of_execWhile (machine ⟨1, 1⟩).step
    (fun label before => waitsComplete label before = true) ⟨World.new ⟨1, 1⟩ fragile, []⟩ oneWaits
    (fun system : System World (Task Unit) => system.threads[1]? = some .queued) (by decide)
  exact ⟨system, queued, (waiting_exact ⟨1, 1⟩ fragile run).1⟩

/-- The second call is dropped as it waits.  Nobody waits then, and the third call is refused. -/
theorem refused_by_nobody : ∃ system : System World (Task Unit),
    Runs (machine ⟨1, 1⟩).step (fun _ _ => True) ⟨World.new ⟨1, 1⟩ fragile, []⟩
      (oneWaits ++ [.act 1 .drop, .spawn (), .act 2 .go, .act 2 .go]) system ∧
    (∀ task ∈ system.threads, task.waits = false) ∧ system.shared.waiting = 1 ∧
    system.threads[2]? = some (.returned (.error
      ⟨.unavailable, "resilience executor admission queue is full"⟩)) :=
  Runs.exists_of_execWhile _ _ _ _ _ (by decide)

end Catga.Resilience
