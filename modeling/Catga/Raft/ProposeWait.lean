import Catga.Raft.ReadBarrier

/-!
# What an answer to `propose_and_wait` means

The owner answers a waiting proposer when it handles the committed entry, before it hands the entry
to the apply worker.  The caller can therefore go on while the entry is still queued.  Its effect is
there if the answer reaches the caller when the owner and the worker are at rest.
-/

namespace Catga.Raft.Apply

open Transition
open Attribution (PendingPropose queueProposeWait resolveProposeWait)

/-- The apply tasks, the waiting proposers and the answers on their way. -/
structure Waits where
  tasks : State
  pendingProps : List PendingPropose
  /-- The entry whose waiter is answered and which the owner has yet to hand on. -/
  resolved : Option Entry
  /-- Answers `Ok index`, each with its call, which returns with it at some later time. -/
  replies : List (Nat × Nat)

def Waits.init : Waits := { tasks := .init, pendingProps := [], resolved := none, replies := [] }

inductive WaitLabel where
  | register (wait : PendingPropose)
  | resolve (entry : Entry)
  | task (label : Label)

/-- The first statement of the loop of `apply_committed`. -/
def Waits.resolve (entry : Entry) (waits : Waits) : Waits :=
  match entry.entryType with
  | .entryNormal =>
    let (pendingProps, answered) := resolveProposeWait waits.pendingProps entry.context
    { waits with
      pendingProps, resolved := some entry
      replies := waits.replies ++ answered.toList.map (·, entry.index) }
  | .entryConfChange | .entryConfChangeV2 => { waits with resolved := some entry }

/-- The entry the owner is at after an action of the tasks, if it can take that action now. -/
def Label.goOn (resolved : Option Entry) : Label → Option (Option Entry)
  | .commit entry => if resolved = some entry then some none else none
  | .install _ => if resolved = none then some none else none
  | .confEntry _ | .restore _ | .receive | .lock | .apply _ => some resolved

def Waits.step : WaitLabel → Waits → Option Waits
  | .register wait, waits =>
    some { waits with
      pendingProps := (queueProposeWait waits.pendingProps wait).getD waits.pendingProps }
  | .resolve entry, waits =>
    if waits.tasks.owner = .ready ∧ waits.resolved = none then some (waits.resolve entry) else none
  | .task label, waits =>
    (label.goOn waits.resolved).bind fun resolved =>
      (Apply.step label waits.tasks).map fun tasks => { waits with tasks, resolved }

/-- The frontier has reached an index, and the machine has applied the entry there. -/
def AppliedAt (tasks : State) (index : Nat) : Prop :=
  index ≤ tasks.appliedIndex ∧ ∃ entry ∈ tasks.committed, entry.index = index ∧
    { index, data := entry.data, ok := true } ∈ tasks.calls

/-- The actions of a run in which raft-rs keeps its promises and the machine accepts every entry. -/
def Waits.Accepting (decodes : Entry → Bool) : WaitLabel → Waits → Prop
  | .task label, waits => Apply.Accepting decodes label waits.tasks
  | _, _ => True

instance (decodes : Entry → Bool) :
    ∀ label waits, Decidable (Waits.Accepting decodes label waits) := by
  rintro ⟨⟩ waits <;> dsimp only [Waits.Accepting] <;> infer_instance

/-- Every answer is for an entry that the owner has handled or is about to hand on. -/
structure Answered (decodes : Entry → Bool) (waits : Waits) : Prop where
  accepting : AcceptingInvariant decodes waits.tasks
  handled : ∀ reply ∈ waits.replies, ∃ entry : Entry,
    (entry ∈ waits.tasks.committed ∨ waits.resolved = some entry) ∧
      entry.entryType = .entryNormal ∧ entry.index = reply.2

variable {label : Label}

lemma Effect.mem_committed {before after entry}
    (effect : Effect before after label) (place : entry ∈ before.committed ∨ label = .commit entry)
    : entry ∈ after.committed := by
  cases effect <;> grind

lemma Label.commit_or_held {resolved after entry}
    (goes : label.goOn resolved = some after) (held : resolved = some entry) :
    label = .commit entry ∨ after = some entry := by
  subst held
  cases label <;> simp_all [Label.goOn]

namespace Answered

variable {decodes : Entry → Bool} {before after : Waits}

variable (answered : Answered decodes before)
include answered

lemma resolve (entry : Entry) (free : before.resolved = none) :
    Answered decodes (before.resolve entry) := by
  have old : ∀ reply ∈ before.replies, ∃ earlier : Entry,
      (earlier ∈ before.tasks.committed ∨ some entry = some earlier) ∧
        earlier.entryType = .entryNormal ∧ earlier.index = reply.2 := by
    intro reply listed
    obtain ⟨earlier, place, rest⟩ := answered.handled reply listed
    exact ⟨earlier, .inl (place.resolve_right (by simp [free])), rest⟩
  unfold Waits.resolve
  split
  · rename_i normal
    refine ⟨answered.accepting, fun reply listed => ?_⟩
    rcases List.mem_append.mp listed with earlier | new
    · exact old reply earlier
    · obtain ⟨call, -, rfl⟩ := List.mem_map.mp new
      exact ⟨entry, .inr rfl, normal, rfl⟩
  · exact ⟨answered.accepting, old⟩
  · exact ⟨answered.accepting, old⟩

lemma task {tasks resolved}
    (admitted : Accepting decodes label before.tasks)
    (goes : label.goOn before.resolved = some resolved)
    (taken : Apply.step label before.tasks = some tasks) :
    Answered decodes { before with tasks, resolved } := by
  refine ⟨answered.accepting.step admitted taken, fun reply listed => ?_⟩
  obtain ⟨entry, place, rest⟩ := answered.handled reply listed
  have effect := effect_of_step answered.accepting.invariant.channel admitted.2.1 taken
  refine ⟨entry, ?_, rest⟩
  rcases place with old | held
  · exact .inl (effect.mem_committed (.inl old))
  · exact (Label.commit_or_held goes held).imp (fun same => effect.mem_committed (.inr same)) id

lemma step {label} (admitted : Waits.Accepting decodes label before)
    (taken : before.step label = some after) : Answered decodes after := by
  cases label with
  | register =>
    cases taken
    exact ⟨answered.accepting, answered.handled⟩
  | resolve entry =>
    simp only [Waits.step] at taken
    split at taken <;> cases taken
    rename_i free
    exact answered.resolve entry free.2
  | task =>
    obtain ⟨resolved, goes, taken⟩ := Option.bind_eq_some_iff.mp taken
    obtain ⟨tasks, acted, rfl⟩ := Option.map_eq_some_iff.mp taken
    exact answered.task admitted goes acted

end Answered

/-- A call that returns when the owner and the worker are at rest finds its entry applied, if the
entry carries data and no snapshot has covered it. -/
theorem applied_of_rest (decodes : Entry → Bool) {labels : List WaitLabel} {waits : Waits}
    {call index : Nat} (run : Runs Waits.step (Waits.Accepting decodes) .init labels waits)
    (returns : (call, index) ∈ waits.replies)
    (rest : Drained waits.tasks ∧ waits.resolved = none)
    (uncovered : waits.tasks.snapshotIndex < index)
    (carries : ∀ entry ∈ waits.tasks.committed, entry.index = index → entry.data ≠ []) :
    AppliedAt waits.tasks index := by
  have initial : Answered decodes .init :=
    ⟨⟨.init, by simp [Waits.init], .init decodes⟩, by simp [Waits.init]⟩
  have answered : Answered decodes waits :=
    run.invariant initial fun holds admitted taken => holds.step admitted taken
  obtain ⟨entry, place, normal, rfl⟩ := answered.handled _ returns
  have listed := place.resolve_right (by simp [rest.2])
  have data := carries entry listed rfl
  have holds := answered.accepting
  obtain ⟨ready, idle, queue_nil⟩ := rest.1
  refine ⟨(holds.applied_iff rest.1 _).mpr (.inr ⟨entry, listed, ?_, Nat.le_refl _⟩), entry, listed,
    rfl, ?_⟩
  · simp [movesFrontier, normal, data]
  · obtain ⟨called, mem, index_eq, data_eq⟩ | ⟨queued, mem, -⟩ | ⟨installing, -⟩ :=
      holds.invariant.ledger.accounted entry listed ⟨normal, data⟩ uncovered
    · have accepted := holds.accepted called mem
      cases called
      simp_all
    · simp [State.inFlight, State.backlog, idle, queue_nil] at mem
    · simp [ready] at installing

private def proposed : Entry :=
  { entryType := .entryNormal, term := 1, index := 1, data := [7], context := [1] }

/-- A call returns after the worker has applied its entry. -/
theorem applied_after_rest : ∃ labels waits, Runs Waits.step (Waits.Accepting fun _ => true) .init
    labels waits ∧ ((0, 1) ∈ waits.replies ∧ (Drained waits.tasks ∧ waits.resolved = none) ∧
      waits.tasks.snapshotIndex < 1 ∧
      ∀ entry ∈ waits.tasks.committed, entry.index = 1 → entry.data ≠ []) ∧
    AppliedAt waits.tasks 1 := by
  refine ⟨[.register ⟨[1], 0⟩, .resolve proposed, .task (.commit proposed), .task .receive,
    .task .lock, .task (.apply true)], Runs.exists_and_of_execWhile (by decide)
    fun run reached => ?_⟩
  obtain ⟨returns, rest, uncovered, carries⟩ := reached
  exact applied_of_rest _ run returns rest uncovered carries

/-- The answer `Ok 1` is there while its entry waits in the apply queue. -/
theorem answered_before_apply :
    ∃ labels waits, Runs Waits.step (Waits.Accepting fun _ => true) .init labels waits ∧
      waits.replies = [(0, 1)] ∧ waits.tasks.committed = [proposed] ∧
      waits.tasks.appliedIndex = 0 ∧ waits.tasks.calls = [] :=
  ⟨[.register ⟨[1], 0⟩, .resolve proposed, .task (.commit proposed)],
    Runs.exists_of_execWhile _ _ _ _ _ (by decide)⟩

end Catga.Raft.Apply
