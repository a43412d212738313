import Catga.Foundation.Transition

/-!
# The runner of the auto-batching behavior

Requests wait in a queue of their key.  The loop of the runner starts all batches that it may start,
and then waits for an event or for the first deadline of a queue.  A batch that may not be started
because too many are running leaves a deadline behind that is past.
-/

namespace Catga.Behaviors

open Transition List

/-- What `BatchOptions` accepts; times are in nanoseconds. -/
structure BatchOptions where
  maxBatchSize : Nat
  batchTimeout : Nat
  maxQueueLength : Nat
  maxShards : Nat
  valid : 0 < maxBatchSize ∧ 0 < batchTimeout ∧ 0 < maxQueueLength ∧ 0 < maxShards
deriving DecidableEq

/-- The state of `run_until_cancelled`; `latest` is the last time that an `Instant` can hold. -/
structure AutoBatchingRunner where
  options : BatchOptions
  latest : Nat
  clock : Nat
  /-- When the requests of each key were enqueued, in the order in which the map is iterated. -/
  shards : List (String × List Nat)
  activeKeys : List String
  /-- The keys of the batches that are running. -/
  flushes : List String
deriving DecidableEq

namespace AutoBatchingRunner

/-- A runner that has received nothing. -/
def new (options : BatchOptions) (latest : Nat) : AutoBatchingRunner :=
  ⟨options, latest, 0, [], [], []⟩

variable (runner : AutoBatchingRunner)

/-- `checked_add` of the timeout to the time of the first request. -/
def deadline (queue : List Nat) : Option Nat :=
  (queue.head?.map (· + runner.options.batchTimeout)).filter (· ≤ runner.latest)

/-- Whether a batch of a key may be started. -/
def ready (shard : String × List Nat) : Bool :=
  shard.1 ∉ runner.activeKeys && (runner.options.maxBatchSize ≤ shard.2.length ||
    (runner.deadline shard.2).any (· ≤ runner.clock))

/-- The key of a batch, and the queues without it. -/
def takeReadyBatch : Option (String × List (String × List Nat)) :=
  (runner.shards.find? runner.ready).map fun (key, queue) =>
    let others := runner.shards.filter (·.1 ≠ key)
    (key, if runner.options.maxBatchSize < queue.length then
      (key, queue.drop runner.options.maxBatchSize) :: others else others)

/-- The inner loop, with room for some batches. -/
def startBatches : Nat → AutoBatchingRunner → AutoBatchingRunner
  | 0, runner => runner
  | room + 1, runner =>
    match runner.takeReadyBatch with
    | none => runner
    | some (key, shards) => startBatches room { runner with
        shards, activeKeys := key :: runner.activeKeys, flushes := key :: runner.flushes }

/-- Start all batches that may be started. -/
def start : AutoBatchingRunner :=
  startBatches (runner.options.maxShards - runner.flushes.length) runner

/-- The first deadline of the keys without a running batch. -/
def nextDeadline : Option Nat :=
  ((runner.shards.filter (·.1 ∉ runner.activeKeys)).filterMap (runner.deadline ·.2)).min?

/-- A request arrives; a full queue loses its first one, and a new key needs a free shard. -/
def enqueue (key : String) (enqueuedAt : Nat) : AutoBatchingRunner :=
  if runner.shards.any (·.1 = key) then
    { runner with shards := runner.shards.map fun shard =>
        if shard.1 = key then
          let queue := shard.2 ++ [enqueuedAt]
          (key, queue.drop (queue.length - runner.options.maxQueueLength))
        else shard }
  else if runner.options.maxShards ≤ runner.shards.length then runner
  else { runner with shards := runner.shards ++ [(key, [enqueuedAt])] }

/-- How often the loop goes round before it waits, up to a number of times. -/
def rounds : Nat → AutoBatchingRunner → Nat
  | 0, _ => 0
  | more + 1, runner =>
    if runner.start.nextDeadline.any (· ≤ runner.start.clock) then rounds more runner.start + 1
    else 1

/-- What ends a wait. -/
inductive Event where
  | arrived (key : String) (enqueuedAt : Nat)
  | completed (key : String)
  | passed (elapsed : Nat)

/-- The batches are started, and an event ends the wait. -/
def step : Event → AutoBatchingRunner → Option AutoBatchingRunner
  | .arrived key enqueuedAt, runner =>
    if enqueuedAt ≤ runner.clock then some (runner.start.enqueue key enqueuedAt) else none
  | .completed key, runner =>
    let started := runner.start
    if key ∈ started.flushes then
      some { started with
        activeKeys := started.activeKeys.filter (· ≠ key), flushes := started.flushes.erase key }
    else none
  | .passed elapsed, runner =>
    let started := runner.start
    some { started with clock := started.clock + elapsed }

/-- Every key whose deadline is reached is among those for which there is room, in the order in
which the map is iterated. -/
def Served : Prop :=
  ∀ shard ∈ (runner.shards.filter runner.ready).drop
      (runner.options.maxShards - runner.flushes.length),
    ∀ deadline ∈ runner.deadline shard.2, runner.clock < deadline
deriving Decidable

variable {runner}

lemma startBatches_frame (room : Nat) : (startBatches room runner).clock = runner.clock ∧
    (startBatches room runner).deadline = runner.deadline := by
  induction room generalizing runner with
  | zero => exact ⟨rfl, rfl⟩
  | succ room ih =>
    simp only [startBatches]
    split
    · exact ⟨rfl, rfl⟩
    · exact ih

/-- The keys of a batch that is taken and of the queues that stay. -/
lemma takeReadyBatch_spec {key shards} (distinct : (runner.shards.map (·.1)).Nodup)
    (taken : runner.takeReadyBatch = some (key, shards)) :
    (shards.map (·.1)).Nodup ∧ ∃ queue, runner.shards.filter runner.ready = (key, queue) ::
      shards.filter fun shard => shard.1 ≠ key && runner.ready shard := by
  obtain ⟨⟨key, queue⟩, found, same⟩ := Option.map_eq_some_iff.mp taken
  obtain ⟨rfl, rfl⟩ := Prod.mk.inj same
  rw [← head?_filter] at found
  obtain ⟨rest, listing⟩ := head?_eq_some_iff.mp found
  have others : (runner.shards.filter (·.1 ≠ key)).filter
      (fun shard => shard.1 ≠ key && runner.ready shard) = rest := by
    have first : ((runner.shards.filter runner.ready).map (·.1)).Nodup :=
      distinct.sublist (filter_sublist.map _)
    rw [listing, map_cons, nodup_cons] at first
    have later : rest.filter (·.1 ≠ key) = rest := filter_eq_self.mpr fun shard member =>
      decide_eq_true fun same => first.1 (mem_map.mpr ⟨shard, member, same⟩)
    have both := congrArg (filter (·.1 ≠ key)) listing
    rw [filter_filter, filter_cons_of_neg (by simp), later] at both
    rw [filter_filter, ← both]
    exact filter_congr fun shard _ => by cases runner.ready shard <;> simp
  have names : ((runner.shards.filter (·.1 ≠ key)).map (·.1)).Nodup :=
    distinct.sublist (filter_sublist.map _)
  split_ifs
  · refine ⟨nodup_cons.mpr ⟨by simp, names⟩, queue, ?_⟩
    rw [filter_cons_of_neg (by simp), others, listing]
  · exact ⟨names, queue, by rw [others, listing]⟩

/-- Each round of the inner loop takes the first shard that is ready. -/
lemma ready_startBatches (room : Nat) (distinct : (runner.shards.map (·.1)).Nodup) :
    ((startBatches room runner).shards.map (·.1)).Nodup ∧
      (startBatches room runner).shards.filter (startBatches room runner).ready =
        (runner.shards.filter runner.ready).drop room := by
  induction room generalizing runner with
  | zero => exact ⟨distinct, rfl⟩
  | succ room ih =>
    simp only [startBatches]
    split
    · rename_i idle
      have unready := find?_eq_none.mp (Option.map_eq_none_iff.mp idle)
      exact ⟨distinct, by rw [filter_eq_nil_iff.mpr unready, drop_nil]⟩
    · rename_i key shards taken
      obtain ⟨kept, queue, listed⟩ := takeReadyBatch_spec distinct taken
      obtain ⟨still, rest⟩ := @ih { runner with
        shards, activeKeys := key :: runner.activeKeys, flushes := key :: runner.flushes } kept
      refine ⟨still, rest.trans ?_⟩
      rw [listed, drop_succ_cons]
      congr 1
      refine filter_congr fun shard _ => ?_
      simp only [ready, deadline, mem_cons, not_or, Bool.decide_and, Bool.and_assoc]

/-- A deadline that is reached is one of a key that is ready. -/
lemma lt_nextDeadline_iff : (∀ deadline ∈ runner.nextDeadline, runner.clock < deadline) ↔
    ∀ shard ∈ runner.shards.filter runner.ready,
      ∀ deadline ∈ runner.deadline shard.2, runner.clock < deadline := by
  constructor
  · intro future shard member deadline ends
    obtain ⟨listed, ready⟩ := mem_filter.mp member
    have inactive := (Bool.and_eq_true_iff.mp ready).1
    have offered : deadline ∈ (runner.shards.filter (·.1 ∉ runner.activeKeys)).filterMap
        (runner.deadline ·.2) := mem_filterMap.mpr ⟨shard, mem_filter.mpr ⟨listed, inactive⟩, ends⟩
    obtain ⟨least, next⟩ := Option.isSome_iff_exists.mp (isSome_min?_of_mem offered)
    exact Nat.lt_of_lt_of_le (future least next) ((min?_eq_some_iff.mp next).2 deadline offered)
  · intro served deadline next
    obtain ⟨shard, inactive, ends⟩ := mem_filterMap.mp (min?_mem next)
    obtain ⟨listed, inactive⟩ := mem_filter.mp inactive
    by_contra reached
    refine reached (served shard (mem_filter.mpr ⟨listed, ?_⟩) deadline ends)
    simp [ready, of_decide_eq_true inactive, ends, Nat.not_lt.mp reached]

lemma distinct_enqueue (key : String) (enqueuedAt : Nat)
    (distinct : (runner.shards.map (·.1)).Nodup) :
    ((runner.enqueue key enqueuedAt).shards.map (·.1)).Nodup := by
  unfold enqueue
  split_ifs with known
  · have same : ∀ shard : String × List Nat, (if shard.1 = key then
        let queue := shard.2 ++ [enqueuedAt]
        (key, queue.drop (queue.length - runner.options.maxQueueLength))
        else shard).1 = shard.1 := by
      intro shard
      split_ifs with here
      · exact here.symm
      · rfl
    simpa only [map_map, Function.comp_def, same] using distinct
  · exact distinct
  · have absent : key ∉ runner.shards.map (·.1) := by simpa using known
    rw [map_append, map_singleton, nodup_append]
    refine ⟨distinct, by simp, fun name member other fresh same => absent ?_⟩
    obtain rfl : other = key := mem_singleton.mp fresh
    exact same ▸ member

/-- The keys of the map are distinct in every state that is reached. -/
lemma distinct_of_run {options latest events}
    (run : Runs step (fun _ _ => True) (new options latest) events runner) :
    (runner.shards.map (·.1)).Nodup := by
  induction run with
  | nil => exact nodup_nil
  | @snoc _ event before _ _ _ taken distinct =>
    have started :=
      (ready_startBatches (before.options.maxShards - before.flushes.length) distinct).1
    cases event with
    | arrived key enqueuedAt =>
      simp only [step] at taken
      split_ifs at taken
      cases taken
      exact distinct_enqueue key enqueuedAt started
    | completed key =>
      simp only [step] at taken
      split_ifs at taken
      cases taken
      exact started
    | passed elapsed =>
      cases taken
      exact started

/-- In every state that is reached, the runner waits on a deadline in the future, and goes round
once, just when there is room for every key whose deadline is reached. -/
theorem waits_iff_served {options : BatchOptions} {latest : Nat} {events : List Event}
    (runner : AutoBatchingRunner)
    (run : Runs step (fun _ _ => True) (new options latest) events runner) :
    ((∀ deadline ∈ runner.start.nextDeadline, runner.clock < deadline) ↔ runner.Served) ∧
      ((∀ most, runner.rounds most ≤ 1) ↔ runner.Served) := by
  have started := (ready_startBatches (runner.options.maxShards - runner.flushes.length)
    (distinct_of_run run)).2
  obtain ⟨clock, deadline⟩ :=
    @startBatches_frame runner (runner.options.maxShards - runner.flushes.length)
  have waits : (∀ deadline ∈ runner.start.nextDeadline, runner.clock < deadline) ↔
      runner.Served := by
    rw [← clock]
    refine lt_nextDeadline_iff.trans ?_
    rw [start, started, clock, deadline]
    rfl
  have due : runner.start.nextDeadline.any (· ≤ runner.start.clock) = true ↔
      ¬∀ deadline ∈ runner.start.nextDeadline, runner.clock < deadline := by
    rw [← clock, Option.any_eq_true]
    simp only [start, not_forall, Nat.not_lt, exists_prop, Option.mem_def]
    exact exists_congr fun _ => and_congr_right fun _ => decide_eq_true_iff
  refine ⟨waits, waits.symm.trans ?_ |>.symm⟩
  constructor
  · intro future most
    cases most with
    | zero => exact Nat.zero_le 1
    | succ => exact Nat.le_of_eq (if_neg fun reached => due.mp reached future)
  · intro once
    by_contra reached
    have again : runner.rounds 2 = runner.start.rounds 1 + 1 := if_pos (due.mpr reached)
    have := once 2
    have one : runner.start.rounds 1 = 1 := by simp [rounds]
    omega

/-- Batches of two requests, or of one that has waited for ten; one key and one batch at a time. -/
def oneAtATime : BatchOptions := ⟨2, 10, 4, 1, by decide⟩

/-- While a batch runs, the deadline of another key is still to come. -/
theorem waits_while_full : ∃ events runner,
    Runs step (fun _ _ => True) (new oneAtATime 99) events runner ∧
      runner.flushes = ["a"] ∧ runner.start.nextDeadline = some 20 ∧
      ∀ most, runner.rounds most ≤ 1 := by
  have run : Runs step (fun _ _ => True) (new oneAtATime 99)
      [.arrived "a" 0, .passed 10, .arrived "b" 10, .passed 5]
      ⟨oneAtATime, 99, 15, [("b", [10])], ["a"], ["a"]⟩ := .of_execWhile (by decide)
  exact ⟨_, _, run, rfl, by decide, (waits_iff_served _ run).2.mpr (by decide)⟩

/-- While a batch runs, the deadline of another key passes: the loop goes round without end. -/
theorem spins_while_full : ∃ events runner,
    Runs step (fun _ _ => True) (new oneAtATime 99) events runner ∧
      (∃ deadline ∈ runner.start.nextDeadline, deadline ≤ runner.clock) ∧
      ∀ most, runner.rounds most = most := by
  refine ⟨[.arrived "a" 0, .passed 10, .arrived "b" 10, .passed 10],
    ⟨oneAtATime, 99, 20, [("b", [10])], ["a"], ["a"]⟩, .of_execWhile (by decide),
    ⟨20, by decide, Nat.le_refl 20⟩, fun most => ?_⟩
  induction most with
  | zero => rfl
  | succ more ih => exact (if_pos (by decide)).trans (congrArg (· + 1) ih)

end AutoBatchingRunner

end Catga.Behaviors
