import Catga.Raft.Pipeline

/-!
# Stopping the pipeline

The flusher flushes on every wakeup and exits once it finds the running flag down.  A proposal that
is queued between its last flush and its exit, or by a call that passed the running check before the
stop, stays pending; so does everything if the last flush meets a full channel.
-/

namespace Catga.Raft.Pipeline

open Transition

/-- Where `flush_loop` stands. -/
inductive Flusher where
  | waiting
  | woken
  | exited
deriving DecidableEq

/-- A started manager with its flusher task. -/
structure Started where
  manager : Manager
  flusher : Flusher

def Started.init (config : PipelineConfig) : Started := ⟨.init config, .waiting⟩

def Holder.isFlusher : Holder → Bool
  | .flushing .flush | .sending .flush _ => true
  | _ => false

inductive Event where
  | act (label : Label)
  /-- The interval or a notification wakes the flusher, which takes the lock. -/
  | wake
  | check

def Started.step : Event → Started → Option Started
  | .act .flush, _ => none
  | .act label, started =>
    (Pipeline.step label started.manager).map fun manager => { started with manager }
  | .wake, started =>
    if started.flusher = .waiting then
      (Pipeline.step .flush started.manager).map fun manager => ⟨manager, .woken⟩
    else none
  | .check, started =>
    if started.flusher = .woken ∧ started.manager.holder.isFlusher = false then
      some { started with flusher := if started.manager.running then .waiting else .exited }
    else none

/-- The batches the owner has received. -/
def Manager.delivered (manager : Manager) : List (List Proposal) :=
  manager.completed ++ manager.draining.toList

/-- When the flusher exits, nothing is pending and no call is past its running check. -/
def QuietExit : Event → Started → Prop
  | .check, started => started.manager.running = false →
    started.manager.pending = [] ∧ started.manager.waiting = [] ∧ started.manager.holder = .free
  | _, _ => True

instance : ∀ event started, Decidable (QuietExit event started) := by
  rintro ⟨⟩ started <;> dsimp only [QuietExit] <;> infer_instance

/-- What holds of a started manager; once the flusher has exited nobody can queue a proposal. -/
structure Settled (started : Started) : Prop where
  kept : Kept started.manager
  exited : started.flusher = .exited → started.manager.running = false ∧
    started.manager.pending = [] ∧ started.manager.waiting = [] ∧ started.manager.holder = .free

lemma Settled.act {started manager label}
    (settled : Settled started) (taken : Pipeline.step label started.manager = some manager)
    (flushes : label ≠ .flush) : Settled { started with manager } := by
  refine ⟨settled.kept.step taken, fun exited => ?_⟩
  obtain ⟨stopped, pending, waiting, free⟩ := settled.exited exited
  cases label with
  | flush => exact absurd rfl flushes
  | stop =>
    cases taken
    exact ⟨rfl, pending, waiting, free⟩
  | propose =>
    cases taken
    rw [Manager.propose, if_neg (by simp [stopped])]
    exact ⟨stopped, pending, waiting, free⟩
  | lock => simp [Pipeline.step, free, waiting] at taken
  | proceed => simp [Pipeline.step, free] at taken
  | receive | complete =>
    simp only [Pipeline.step] at taken
    split at taken <;> cases taken
    exact ⟨stopped, pending, waiting, free⟩

lemma Settled.step {event before after} (settled : Settled before)
    (quiet : QuietExit event before) (taken : before.step event = some after) : Settled after := by
  unfold Started.step at taken
  split at taken
  · cases taken
  · rename_i label flushes
    obtain ⟨manager, acted, rfl⟩ := Option.map_eq_some_iff.mp taken
    exact settled.act acted fun same => flushes (same ▸ rfl)
  · split at taken
    · obtain ⟨manager, acted, rfl⟩ := Option.map_eq_some_iff.mp taken
      exact ⟨settled.kept.step acted, nofun⟩
    · cases taken
  · split at taken <;> cases taken
    refine ⟨settled.kept, fun exited => ?_⟩
    cases stopped : before.manager.running with
    | true => simp [stopped] at exited
    | false => exact ⟨rfl, quiet stopped⟩

/-- Where the flusher exits with nothing pending and no call past its running check, every accepted
proposal is in a batch that was delivered once the channel is empty. -/
theorem delivered_of_quietExit (config : PipelineConfig) {events : List Event} {finish : Started}
    (run : Runs Started.step QuietExit (.init config) events finish)
    (exited : finish.flusher = .exited) (emptied : finish.manager.channel = []) :
    ∀ proposal ∈ finish.manager.accepted, ∃ batch ∈ finish.manager.delivered, proposal ∈ batch := by
  have settled : Settled finish :=
    run.invariant ⟨.init config, by simp [Started.init]⟩ fun settled quiet taken =>
      settled.step quiet taken
  obtain ⟨-, pending, -, free⟩ := settled.exited exited
  have books := settled.kept.books_of_free free
  have sent : finish.manager.sent = finish.manager.delivered := by
    rw [books.flow, Manager.outstanding, emptied, List.append_nil, Manager.delivered]
  have accepted : finish.manager.delivered.flatten = finish.manager.accepted := by
    simpa [pending, sent] using books.order
  intro proposal listed
  rw [← accepted] at listed
  exact List.mem_flatten.mp listed

/-- A proposal accepted before the stop is flushed on the way out. -/
theorem delivered_before_quiet_exit :
    ∃ events finish, Runs Started.step QuietExit (.init ⟨2, 2⟩) events finish ∧
      (finish.flusher = .exited ∧ finish.manager.channel = [] ∧
        finish.manager.accepted = [⟨0, [], [1]⟩]) ∧
      ∃ batch ∈ finish.manager.delivered, ⟨0, [], [1]⟩ ∈ batch := by
  refine ⟨[.act (.propose [] [1]), .act (.lock 0), .act .proceed, .act .stop, .wake, .act .proceed,
    .act .proceed, .check, .act .receive], Runs.exists_and_of_execWhile (by decide)
    fun run reached => ?_⟩
  obtain ⟨exited, emptied, accepted⟩ := reached
  exact delivered_of_quietExit _ run exited emptied _ (by simp [accepted])

/-- A call passes the running check, the manager is stopped and the flusher exits; then the call
queues its proposal and is answered `Ok`. -/
theorem accepted_after_last_flush :
    ∃ events finish, Runs Started.step (fun _ _ => True) (.init ⟨2, 2⟩) events finish ∧
      finish.flusher = .exited ∧ finish.manager.channel = [] ∧ finish.manager.holder = .free ∧
      finish.manager.waiting = [] ∧ finish.manager.accepted = [⟨0, [], [1]⟩] ∧
      finish.manager.delivered = [] :=
  ⟨[.act (.propose [] [1]), .act .stop, .wake, .act .proceed, .check, .act (.lock 0),
    .act .proceed], Runs.exists_of_execWhile _ _ _ _ _ (by decide)⟩

end Catga.Raft.Pipeline
