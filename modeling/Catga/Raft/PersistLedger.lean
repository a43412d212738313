import Catga.Raft.Persist

/-!
# Readies on their way through the channels

Readies leave the owner in the order raft-rs hands them out, and the channels and the batch of the
worker keep that order.  What a finished batch has appended lies at or below the durable tail.
-/

namespace Catga.Raft.Persist

open Storage List Node

namespace Node

def readies (node : Node) : List Ready := node.handed ++ node.owner.current

/-- The readies that the worker has made durable. -/
def finished (node : Node) : List Ready := node.acknowledged ++ node.done

variable {node : Node} {ready other : Ready}

lemma finished_of_reported {rest} (reported : node.done = ready :: rest) :
    node.acknowledged ++ [ready] ++ rest = node.finished := by
  simp [finished, reported]

lemma finished_of_inlined (member : other ∈ node.acknowledged ++ [ready] ++ node.done) :
    other ∈ node.finished ∨ other = ready := by
  rcases mem_append.mp member with acknowledged | reported
  · rcases mem_append.mp acknowledged with earlier | inline
    · exact .inl (mem_append_left _ earlier)
    · exact .inr (mem_singleton.mp inline)
  · exact .inl (mem_append_right _ reported)

end Node

/-- Where `drain_visible` can be in each phase of the worker. -/
def InPhase : Work → Worker → Prop
  | .waiting, worker | .received _, worker | .snapshots _ _, worker => worker = .idle
  | .draining _, worker =>
    (∃ drained, worker = .copied drained) ∨ (∃ drained, worker = .written drained) ∨
      ∃ last, worker = .removed last
  | .stopped _, worker => worker = .halted

/-- The channels lose nothing and keep the order of the readies. -/
structure Ledger (node : Node) : Prop where
  counted : node.persistInFlight = node.done.length + node.work.tasks.length + node.queue.length
  ordered : node.readies.Pairwise Precedes
  busy : node.work.tasks = [] → node.work = .waiting
  lost : node.lost ≠ [] → ∃ tasks, node.work = .stopped tasks
  phase : InPhase node.work node.store.worker

namespace Ledger

variable {before after : Node} {label : Label}

lemma start {store} (idle : store.worker = .idle) : Ledger (start store) where
  counted := rfl
  ordered := List.Pairwise.nil
  busy _ := rfl
  lost some_lost := absurd rfl some_lost
  phase := idle

variable (ledger : Ledger before)
include ledger

lemma settled (none_open : before.persistInFlight = 0) :
    before.done = [] ∧ before.work = .waiting ∧ before.queue = [] ∧ before.lost = [] := by
  have counted := ledger.counted
  have done_nil : before.done = [] := length_eq_zero_iff.mp (by omega)
  have tasks_nil : before.work.tasks = [] := length_eq_zero_iff.mp (by omega)
  have queue_nil : before.queue = [] := length_eq_zero_iff.mp (by omega)
  have waiting := ledger.busy tasks_nil
  refine ⟨done_nil, waiting, queue_nil, ?_⟩
  by_contra some_lost
  obtain ⟨tasks, stopped⟩ := ledger.lost some_lost
  rw [waiting] at stopped
  cases stopped

lemma lost_nil (alive : ∀ tasks, before.work ≠ .stopped tasks) : before.lost = [] := by
  by_contra some_lost
  obtain ⟨tasks, stopped⟩ := ledger.lost some_lost
  exact alive tasks stopped

lemma readies_kept (moved : Moved before label after) (not_taken : ∀ ready, label ≠ .take ready)
    (not_installed : ∀ restored, label ≠ .install restored) : after.readies = before.readies := by
  cases moved with
  | dropped | took => exact absurd rfl (not_taken _)
  | passed | outdated | replaced => exact absurd rfl (not_installed _)
  | inlined owner nothing none_open =>
    obtain ⟨done_nil, waiting, queue_nil, lost_nil⟩ := ledger.settled none_open
    simp [readies, handed, Owner.current, owner, done_nil, waiting, queue_nil, lost_nil, Work.tasks]
  | orphaned owner =>
    simp [readies, handed, Owner.current, owner, append_nil]
  | queued owner alive =>
    simp [readies, handed, Owner.current, owner, ledger.lost_nil alive]
  | acknowledged polling reported =>
    simp [readies, handed, reported, append_assoc, cons_append]
  | received waiting filled =>
    simp only [readies, handed, waiting, filled, Work.tasks, append_assoc,
      cons_append, nil_append]
    rw [← append_assoc (List.take _ _), take_append_drop]
  | skipped working | copied working | halted working | raised working | persisted working =>
    simp [readies, handed, working, Work.tasks]
  | wrote | removed => rfl
  | kept persisting | completed persisting =>
    simp [readies, handed, persisting, Work.tasks]
  | failed busy =>
    rcases busy with work | work | ⟨indexes, work⟩ <;>
      simp [readies, handed, work, Work.tasks]

lemma readies_of_moved (moved : Moved before label after) :
    after.readies = before.readies ∨ after.readies = before.handed ∨
      ∃ ready, label = .take ready ∧ after.readies = before.handed ++ [ready] := by
  have kept := ledger.readies_kept moved
  cases moved with
  | dropped => exact .inl rfl
  | took => exact .inr (.inr ⟨_, rfl, rfl⟩)
  | passed owner =>
    refine .inl ?_
    simp [readies, handed, Owner.current, owner]
  | outdated => exact .inr (.inl (append_nil _))
  | @replaced restored ready metadata store owner carried positive installed =>
    cases restored with
    | false => exact .inr (.inl (append_nil _))
    | true =>
      refine .inl ?_
      simp [readies, handed, Owner.current, owner]
  | _ => exact .inl (kept (by simp) (by simp))

lemma ordered_of_moved (promised : Promised label before) (moved : Moved before label after) :
    after.readies.Pairwise Precedes := by
  have handed_ordered : before.handed.Pairwise Precedes :=
    ledger.ordered.sublist (sublist_append_left _ _)
  rcases ledger.readies_of_moved moved with same | fewer | ⟨ready, rfl, more⟩
  · rw [same]
    exact ledger.ordered
  · rw [fewer]
    exact handed_ordered
  · rw [more, pairwise_append]
    refine ⟨handed_ordered, pairwise_singleton _ _, fun earlier mem later later_mem => ?_⟩
    rw [mem_singleton.mp later_mem]
    exact promised.2 earlier mem

lemma finished_precedes {earlier later} (finished : earlier ∈ before.finished)
    (task : later ∈ before.work.tasks) : Precedes earlier later := by
  have ordered := ledger.ordered
  unfold readies handed at ordered
  simp only [append_assoc] at ordered
  rw [← append_assoc, pairwise_append] at ordered
  exact ordered.2.2 earlier finished later (mem_append_left _ task)

lemma step (promised : Promised label before) (moved : Moved before label after) :
    Ledger after := by
  have ordered := ledger.ordered_of_moved promised moved
  obtain ⟨counted, -, busy, lost, phase⟩ := id ledger
  cases moved with
  | dropped | passed | outdated | inlined => exact ⟨counted, ordered, busy, lost, phase⟩
  | took polling appended =>
    exact ⟨counted, ordered, busy, lost, (Store.appendVisible_worker appended).symm ▸ phase⟩
  | replaced owner carried positive installed =>
    exact ⟨counted, ordered, busy, lost, (Store.applySnapshotVisible_worker installed).symm ▸ phase⟩
  | orphaned owner stopped => exact ⟨counted, ordered, busy, fun _ => ⟨_, stopped⟩, phase⟩
  | queued =>
    refine ⟨?_, ordered, busy, lost, phase⟩
    simp only [length_append, length_singleton]
    omega
  | acknowledged polling reported =>
    refine ⟨?_, ordered, busy, lost, phase⟩
    simp only [reported, length_cons] at counted
    dsimp only
    omega
  | received waiting filled =>
    have none_lost := ledger.lost_nil (by simp [waiting])
    rw [waiting] at phase
    refine ⟨?_, ordered, fun none_taken => ?_, (absurd none_lost ·), phase⟩
    · simp only [waiting, filled, Work.tasks, length_cons, length_nil] at counted
      simp only [Work.tasks, length_cons, length_take, length_drop]
      omega
    · cases none_taken
  | skipped working | persisted working =>
    have none_lost := ledger.lost_nil (by simp [working])
    rw [working] at counted phase busy
    refine ⟨counted, ordered, fun none_taken => ?_, (absurd none_lost ·), phase⟩
    cases busy none_taken
  | copied received some_tail nonempty =>
    have none_lost := ledger.lost_nil (by simp [received])
    rw [received] at counted busy
    have copied := congrArg Store.worker (Store.copyPrefix_eq nonempty)
    refine ⟨counted, ordered, fun none_taken => ?_, (absurd none_lost ·), .inl ⟨_, copied⟩⟩
    cases busy none_taken
  | wrote draining =>
    exact ⟨counted, ordered, busy, lost, draining.symm ▸ .inr (.inl ⟨_, rfl⟩)⟩
  | removed draining =>
    exact ⟨counted, ordered, busy, lost, draining.symm ▸ .inr (.inr ⟨_, rfl⟩)⟩
  | halted draining =>
    rw [draining] at counted busy
    refine ⟨counted, ordered, fun none_taken => ?_, fun _ => ⟨_, rfl⟩, rfl⟩
    cases busy none_taken
  | raised draining =>
    have none_lost := ledger.lost_nil (by simp [draining])
    rw [draining] at counted busy
    refine ⟨counted, ordered, fun none_taken => ?_, (absurd none_lost ·), rfl⟩
    cases busy none_taken
  | kept persisting | completed persisting =>
    have none_lost := ledger.lost_nil (by simp [persisting])
    rw [persisting] at counted phase
    refine ⟨?_, ordered, fun _ => rfl, (absurd none_lost ·), phase⟩
    simp only [Work.tasks, length_append, length_nil] at counted ⊢
    omega
  | @failed tasks working =>
    have same : before.work.tasks = tasks := by
      rcases working with work | work | ⟨indexes, work⟩ <;> rw [work] <;> rfl
    refine ⟨?_, ordered, fun none_taken => ?_, fun _ => ⟨_, rfl⟩, rfl⟩
    · rwa [same] at counted
    · have waiting := busy (same.trans none_taken)
      rcases working with work | work | ⟨indexes, work⟩ <;> rw [work] at waiting <;>
        cases waiting

end Ledger

end Catga.Raft.Persist
