import Catga.Flow.Machine

/-!
# Handlers run under a durable claim

A runtime that executes a step or a rollback holds a version of the flow.  While the store holds
that version, it holds it running or compensating under the runtime's owner name.  Versions only
grow, so once the store has moved on, every write and every heartbeat of the old version is refused.
-/

namespace Catga.Flow

open Threads Transition

variable {next continuation : FlowContinuation} {store : Store} {runtime : FlowRuntime}
  {status : FlowStatus}

/-- The store holds a flow in `status` under `runtime`'s claim, unless it has moved past the
version `continuation` that the runtime executes. -/
def Covers (store : Store) (clock : Nat) (runtime : FlowRuntime) (continuation : FlowContinuation)
    (status : FlowStatus) : Prop :=
  ∃ stored ∈ store continuation.state.id,
    continuation.state.version ≤ stored.state.version ∧
      (stored.state.version = continuation.state.version →
        stored.state.status = status ∧ stored.state.owner = some runtime.owner ∧
          (store.heartbeat continuation.state.id runtime.owner continuation.state.version
            clock).isSome)
deriving Decidable

/-- The handler a call runs: the continuation it runs on, and the phase it belongs to. -/
def Task.handling : Task → Option (FlowContinuation × FlowStatus)
  | .step continuation => some (continuation, .running)
  | .undo continuation => some (continuation, .compensating)
  | _ => none

/-- A call that runs a handler runs it under a durable claim. -/
def Thread.UnderClaim (world : World) (thread : Thread) : Prop :=
  ∀ handled ∈ thread.task.handling,
    Covers world.store world.clock thread.runtime handled.1 handled.2
deriving Decidable

def WaitEvaluation.isFailed : WaitEvaluation → Bool
  | .failed _ => true
  | .pending | .ready => false

/-- The flow a call is about to read in `resume_at`, and the time it was given. -/
def Task.resuming : Task → Option (String × Option Nat)
  | .resume flowId at_ => some (flowId, at_)
  | _ => none

/-- A `resume_at` that finds its flow suspended on a failed wait finds no completed step to undo.
The rollback it would start otherwise is written without a claim. -/
def NothingToUndo : Label Choice Nat (FlowRuntime × Request) → System World Thread → Prop
  | .act index choice, system =>
    ∀ thread ∈ system.threads[index]?, ∀ target ∈ thread.task.resuming,
      ∀ found ∈ system.shared.store target.1, found.state.status = .suspended →
        ∀ wait ∈ found.wait, (evaluateWait wait (target.2.getD choice.now)).isFailed →
          found.compensations = []
  | .env _, _ | .spawn _, _ => True

instance : ∀ label system, Decidable (NothingToUndo label system) := by
  rintro ⟨⟩ system <;> dsimp only [NothingToUndo] <;> infer_instance

/-- Every stored continuation is kept or replaced by a later version; version, phase and owner only
change together. -/
def Store.Evolves (before after : Store) : Prop :=
  ∀ (flowId : String) (stored : FlowContinuation), before flowId = some stored →
    ∃ later, after flowId = some later ∧
      (stored.state.version < later.state.version ∨
        later.state.version = stored.state.version ∧ later.state.status = stored.state.status ∧
          later.state.owner = stored.state.owner)

namespace Store

variable {store after : Store} {current : FlowContinuation} {version now : Nat}

lemma Evolves.refl : store.Evolves store :=
  fun _ stored held => ⟨stored, held, .inr ⟨rfl, rfl, rfl⟩⟩

/-- Replacing one continuation by a later one, or by one that agrees in version, phase and owner,
moves the store forward. -/
lemma evolves_update {flowId} (held : store flowId = some current)
    (later : current.state.version < next.state.version ∨
      next.state.version = current.state.version ∧ next.state.status = current.state.status ∧
        next.state.owner = current.state.owner) :
    store.Evolves (Function.update store flowId (some next)) := by
  intro other stored found
  by_cases same : other = flowId
  · subst same
    cases held.symm.trans found
    exact ⟨next, Function.update_self .., later⟩
  · exact ⟨stored, (Function.update_of_ne same ..).trans found, .inr ⟨rfl, rfl, rfl⟩⟩

lemma put_self (store : Store) (next : FlowContinuation) :
    store.put next next.state.id = some next := Function.update_self ..

lemma evolves_create (created : store.create next = .ok (some after)) : store.Evolves after := by
  obtain ⟨rfl, free⟩ := create_eq_some created
  intro flowId stored held
  have other : flowId ≠ next.state.id := by
    rintro rfl
    rw [free] at held
    cases held
  exact ⟨stored, (Function.update_of_ne other ..).trans held, .inr ⟨rfl, rfl, rfl⟩⟩

lemma evolves_recordWait {flowId childId report}
    (recorded : store.recordWait flowId version childId report now = some after) :
    store.Evolves after := by
  obtain ⟨current, wait, held, -, -, ⟨-, rfl⟩ | rfl⟩ := recordWait_eq_some recorded
  · exact .refl
  · exact evolves_update held (.inr ⟨rfl, rfl, rfl⟩)

lemma evolves_heartbeat {flowId owner}
    (beaten : store.heartbeat flowId owner version now = some after) : store.Evolves after := by
  obtain ⟨current, held, -, -, rfl⟩ := heartbeat_eq_some beaten
  exact evolves_update held (.inr ⟨rfl, rfl, rfl⟩)

end Store

lemma FlowRuntime.Acts.evolves {now world after task next}
    (acts : Acts runtime now world task after next) : world.store.Evolves after.store := by
  cases acts with
  | won _ held => exact Store.evolves_update held (.inl (by omega))
  | created created => exact Store.evolves_create created
  | recorded recorded => exact Store.evolves_recordWait recorded
  | beat beaten => exact Store.evolves_heartbeat beaten
  | _ => exact .refl

/-- The store holds a flow in `status` under `owner`, unless it has moved past `continuation`. -/
def Holds (store : Store) (owner : String) (continuation : FlowContinuation)
    (status : FlowStatus) : Prop :=
  ∃ stored, store continuation.state.id = some stored ∧
    continuation.state.version ≤ stored.state.version ∧
      (stored.state.version = continuation.state.version →
        stored.state.status = status ∧ stored.state.owner = some owner)

lemma Holds.evolves {before after owner}
    (holds : Holds before owner continuation status) (evolves : before.Evolves after) :
    Holds after owner continuation status := by
  obtain ⟨stored, held, reached, claimed⟩ := holds
  obtain ⟨later, held', moved | ⟨version, phase, owned⟩⟩ := evolves _ _ held
  · exact ⟨later, held', by omega, fun same => by omega⟩
  · refine ⟨later, held', by omega, fun same => ?_⟩
    obtain ⟨was, mine⟩ := claimed (by omega)
    exact ⟨phase.trans was, owned.trans mine⟩

lemma Holds.covers {clock} (holds : Holds store runtime.owner continuation status) :
    Covers store clock runtime continuation status := by
  obtain ⟨stored, held, reached, claimed⟩ := holds
  refine ⟨stored, held, reached, fun same => ?_⟩
  obtain ⟨phase, owned⟩ := claimed same
  refine ⟨phase, owned, ?_⟩
  simp [Store.heartbeat, held, owned, same]

/-- Whoever runs a handler holds the flow; whoever is about to persist a rollback carries its own
owner name. -/
def Task.Owned (store : Store) (owner : String) : Task → Prop
  | .step continuation =>
    Holds store owner continuation .running ∧ continuation.state.owner = some owner
  | .undo continuation =>
    Holds store owner continuation .compensating ∧ continuation.state.owner = some owner
  | .undone continuation => continuation.state.owner = some owner
  | .fail continuation _ =>
    continuation.compensations ≠ [] → continuation.state.owner = some owner
  | _ => True

namespace Task

variable {store after : Store} {owner : String} {task : Task}

lemma Owned.evolves (owned : task.Owned store owner) (evolves : store.Evolves after) :
    task.Owned after owner := by
  cases task with
  | step => exact ⟨owned.1.evolves evolves, owned.2⟩
  | undo => exact ⟨owned.1.evolves evolves, owned.2⟩
  | undone => exact owned
  | fail => exact owned
  | _ => trivial

lemma Idle.owned (idle : task.Idle) : task.Owned store owner := by
  cases task with
  | step | undo | undone | fail => exact idle.elim
  | _ => trivial

lemma owned_compensate (held : store continuation.state.id = some continuation)
    (phase : continuation.state.status = .compensating)
    (mine : continuation.state.owner = some owner) :
    (FlowRuntime.compensate continuation).Owned store owner := by
  unfold FlowRuntime.compensate
  split
  · exact ⟨⟨continuation, held, le_refl _, fun _ => ⟨phase, mine⟩⟩, mine⟩
  · trivial

end Task

namespace FlowRuntime

variable {now : Nat} {world after : World} {task next : Task}

lemma owned_drive {running} (held : store running.state.id = some running)
    (mine : running.state.owner = some runtime.owner)
    (phase : running.state.status = .running ∨ running.state.status = .compensating) :
    (drive running).Owned store runtime.owner := by
  unfold drive
  split_ifs with compensating
  · exact Task.owned_compensate held compensating mine
  · exact ⟨⟨running, held, le_refl _, fun _ => ⟨phase.resolve_right compensating, mine⟩⟩, mine⟩

lemma Installs.owned {expected installed exactly deed}
    (installs : Installs runtime now task expected installed exactly deed next)
    (owned : task.Owned store runtime.owner) : next.Owned (store.put installed) runtime.owner := by
  have held := Store.put_self store installed
  cases installs with
  | claim phase_eq shape =>
    refine owned_drive held (by rw [shape]) ?_
    rw [shape, phase_eq]
    split
    · exact .inr rfl
    · exact .inl rfl
  | rollBack toUndo shape =>
    refine Task.owned_compensate held (by rw [shape]) ?_
    rw [shape]
    exact owned toUndo
  | undone shape =>
    refine Task.owned_compensate held (by rw [shape]) ?_
    rw [shape]
    exact owned
  | cancel => split <;> trivial
  | identify => exact idle_afterIdentity.owned
  | launchSettle => exact idle_afterLaunch.owned
  | _ =>
    trivial

lemma Follows.owned (follows : Follows continuation next)
    (mine : continuation.state.owner = some runtime.owner) : next.Owned store runtime.owner := by
  cases follows with
  | idle idle => exact idle.owned
  | fail => exact fun _ => mine
  | _ => trivial

lemma Acts.owned (acts : Acts runtime now world task after next)
    (owned : task.Owned world.store runtime.owner)
    (claimed : ∀ {flowId at_ found wait error}, task = .resume flowId at_ →
      world.store flowId = some found → found.state.status = .suspended →
      found.wait = some wait → evaluateWait wait (at_.getD now) = .failed error →
      found.compensations = []) :
    next.Owned after.store runtime.owner := by
  have evolves := acts.evolves
  cases acts with
  | read reads =>
    cases reads with
    | idle idle => exact idle.owned
    | fail held suspended waiting failed =>
      exact fun toUndo => absurd (claimed rfl held suspended waiting failed) toUndo
    | _ => trivial
  | won installs => exact installs.owned owned
  | lost writes => exact (idle_lost writes).owned
  | failed writes => exact (idle_failed writes).owned
  | unscheduled => exact idle_identityFailed.owned
  | fenced _ idle => exact idle.owned
  | beat _ stays =>
    rcases stays with rfl | idle
    · exact owned.evolves evolves
    · exact idle.owned
  | unowned => exact fun _ => owned.2
  | finished follows => exact follows.owned owned.2
  | rolledBack => exact owned.2
  | _ => trivial

end FlowRuntime

/-- The outline of all calls: each knows what it must, and no action takes that away. -/
lemma ownership_valid : Machine.Outline.Valid machine NothingToUndo
    ⟨fun _ => True, fun world thread => thread.task.Owned world.store thread.runtime.owner,
      fun _ _ => True⟩ := by
  refine .of_rely (fun before after => before.store.Evolves after.store) ?_ ?_ ?_ ?_
  · intro system index choice thread next after _ owned admitted here acted
    obtain ⟨-, moved, acts⟩ := Thread.act_acts acted
    refine ⟨trivial, ?_, acts.evolves⟩
    rw [moved]
    refine acts.owned owned fun {flowId at_ found wait error} at_resume held suspended waiting
      failed => ?_
    exact admitted thread here (flowId, at_) (by rw [at_resume]; rfl) found held suspended wait
      waiting (by rw [failed]; rfl)
  · intro system elapsed after _ _ ticked
    cases ticked
    exact ⟨trivial, .refl⟩
  · intro system request _ _
    obtain ⟨runtime, request⟩ := request
    cases request <;> trivial
  · intro before after thread evolves owned
    exact owned.evolves evolves

/-- Where no `resume_at` finds a failed wait on a flow with completed steps to undo, every step and
every rollback runs under a durable claim of its runtime. -/
theorem underClaim_of_nothingToUndo {labels : List (Label Choice Nat (FlowRuntime × Request))}
    {system : System World Thread}
    (run : Runs machine.step NothingToUndo ⟨World.new, []⟩ labels system) :
    ∀ thread ∈ system.threads, thread.UnderClaim system.shared := by
  have holds := ownership_valid.runs trivial run
  intro thread member handled handling
  obtain ⟨index, here⟩ := List.mem_iff_getElem?.mp member
  have owned := holds.thread here
  obtain ⟨runtime, task, since⟩ := thread
  cases task with
  | step =>
    cases handling
    exact owned.1.covers
  | undo =>
    cases handling
    exact owned.1.covers
  | _ => cases handling

def order : FlowDefinition :=
  ((FlowDefinition.new "order").register ⟨"reserve", true⟩).register ⟨"confirm", false⟩

def payment : WaitCondition :=
  { correlationId := "payment", policy := .all, expectedCount := 1, results := [], createdAt := 0,
    timeout := 10, childLaunches := [] }

/-- The second step fails while its runtime holds the claim, and the rollback runs under it. -/
theorem underClaim_rollback :
    ∃ system, Runs machine.step NothingToUndo ⟨World.new, []⟩
      [.spawn (⟨order, "a", 30⟩, .start "o-1" []), .act 0 ⟨0, .go⟩, .act 0 ⟨0, .go⟩,
        .act 0 ⟨0, .go⟩, .env 5, .act 0 ⟨5, .outcome (.ok .advance)⟩, .act 0 ⟨5, .go⟩,
        .act 0 ⟨5, .go⟩, .act 0 ⟨5, .outcome (.error ⟨.internal, "declined"⟩)⟩,
        .act 0 ⟨5, .go⟩] system ∧
      (system.threads.map fun thread => (thread.task.handling.map (·.2))) =
        [some .compensating] ∧
      ∀ thread ∈ system.threads, thread.UnderClaim system.shared :=
  Runs.exists_and_of_execWhile (by decide) fun run _ => underClaim_of_nothingToUndo run

/-- The flow waits with one step to undo, the wait times out, and the rollback runs although nobody
has claimed the flow: the stored continuation has no owner. -/
theorem rollback_without_claim :
    ∃ system, Runs machine.step (fun _ _ => True) ⟨World.new, []⟩
      [.spawn (⟨order, "a", 30⟩, .start "o-1" []), .act 0 ⟨0, .go⟩, .act 0 ⟨0, .go⟩,
        .act 0 ⟨0, .go⟩, .act 0 ⟨0, .outcome (.ok (.wait payment))⟩, .act 0 ⟨0, .go⟩, .env 10,
        .spawn (⟨order, "a", 30⟩, .resume "o-1"), .act 1 ⟨10, .go⟩, .act 1 ⟨10, .go⟩] system ∧
      ¬ ∀ thread ∈ system.threads, thread.UnderClaim system.shared :=
  Runs.exists_of_execWhile _ _ _ _ _ (by decide)

end Catga.Flow
