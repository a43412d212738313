import Mathlib.Algebra.Ring.Nat
import Mathlib.Data.List.Perm.Basic
import Catga.Raft.Attribution

/-!
# The proposal pipeline

`PipelineManager` collects proposals into batches under one lock and ships them through a bounded
channel to the owner loop, which drains it without the lock.  So the critical section of a proposal
is split at its two capacity checks and its send.  The invariant relates the batches on their way,
the proposals pending and the answers given to callers.
-/

namespace Catga.Raft.Pipeline

open Transition List List.Perm
open Attribution (CatgaRaftError)

/-- `PipelineConfig` without the flush interval, which only times the flusher. -/
structure PipelineConfig where
  batchSize : Nat
  /-- Limit of proposals in flight, and capacity of the batch channel. -/
  maxInflight : Nat

/-- A proposal; `call` tells the calls of `propose` apart. -/
structure Proposal where
  call : Nat
  ctx : List UInt8
  data : List UInt8
deriving DecidableEq

/-- On whose behalf `flush_locked` runs. -/
inductive Caller where
  | propose (proposal : Proposal)
  | flush
deriving DecidableEq

/-- Who holds the state lock, and at which point of its critical section. -/
inductive Holder where
  | free
  | admitting (proposal : Proposal)
  | flushing (caller : Caller)
  | sending (caller : Caller) (batch : List Proposal)
deriving DecidableEq

/-- The manager, the owner's end of the channel, and what callers were answered. -/
structure Manager where
  config : PipelineConfig
  running : Bool
  pending : List Proposal
  inflight : Nat
  channel : List (List Proposal)
  holder : Holder
  waiting : List Proposal
  draining : Option (List Proposal)
  calls : Nat
  sent : List (List Proposal)
  completed : List (List Proposal)
  /-- Proposals answered `Ok`, in the order of their critical sections. -/
  accepted : List Proposal
  rejected : List (Proposal × CatgaRaftError)

open Manager

def Manager.init (config : PipelineConfig) : Manager :=
  { config, running := true, pending := [], inflight := 0, channel := [], holder := .free,
    waiting := [], draining := none, calls := 0, sent := [], completed := [], accepted := [],
    rejected := [] }

variable (manager : Manager)

/-- `is_full` of the bounded channel. -/
def Manager.isFull : Bool := manager.config.maxInflight ≤ manager.channel.length

def Manager.answer (proposal : Proposal) (result : Except CatgaRaftError Unit)
    (manager : Manager) : Manager :=
  match result with
  | .ok () => { manager with holder := .free, accepted := manager.accepted ++ [proposal] }
  | .error error =>
    { manager with holder := .free, rejected := manager.rejected ++ [(proposal, error)] }

/-- The running check at the start of `push_proposal`. -/
def Manager.propose (ctx data : List UInt8) (manager : Manager) : Manager :=
  let proposal : Proposal := { call := manager.calls, ctx, data }
  if manager.running then
    { manager with calls := manager.calls + 1, waiting := manager.waiting ++ [proposal] }
  else
    { manager with
      calls := manager.calls + 1, rejected := manager.rejected ++ [(proposal, .notLeader)] }

/-- `push_proposal` under the lock, up to its flush. -/
def Manager.pushProposal (proposal : Proposal) (manager : Manager) : Manager :=
  if manager.config.maxInflight ≤ manager.inflight then
    manager.answer proposal (.error .backpressure)
  else if manager.isFull then manager.answer proposal (.error .backpressure)
  else
    let manager := { manager with pending := manager.pending ++ [proposal] }
    if manager.config.batchSize ≤ manager.pending.length then
      { manager with holder := .flushing (.propose proposal) }
    else manager.answer proposal (.ok ())

variable (caller : Caller)

/-- What follows a flush; a proposal that could not be shipped is withdrawn. -/
def Manager.finish (result : Except CatgaRaftError Unit) (manager : Manager) : Manager :=
  match caller, result with
  | .flush, _ => { manager with holder := .free }
  | .propose proposal, .ok () => manager.answer proposal (.ok ())
  | .propose proposal, .error error =>
    { manager with pending := manager.pending.dropLast }.answer proposal (.error error)

/-- `flush_locked` up to `try_send`. -/
def Manager.flushLocked (manager : Manager) : Manager :=
  if manager.pending = [] then manager.finish caller (.ok ())
  else if manager.isFull then manager.finish caller (.error .backpressure)
  else { manager with pending := [], holder := .sending caller manager.pending }

variable (batch : List Proposal) (manager : Manager)

/-- `try_send` and the rest of `flush_locked`; on failure the batch goes back in front. -/
def Manager.trySend : Manager :=
  if manager.isFull then
    { manager with pending := batch ++ manager.pending }.finish caller (.error .backpressure)
  else
    { manager with
      channel := manager.channel ++ [batch]
      sent := manager.sent ++ [batch]
      inflight := manager.inflight + batch.length }.finish caller (.ok ())

/-- `batch_completed`, called by `drain_and_propose` with the length of the batch it received. -/
def Manager.batchCompleted : Manager :=
  { manager with
    inflight := manager.inflight - batch.length
    draining := none
    completed := manager.completed ++ [batch] }

/-- The atomic actions of callers, flusher and owner. -/
inductive Label where
  | stop
  /-- A call of `propose` or `propose_with_context` checks that the manager runs. -/
  | propose (ctx data : List UInt8)
  | lock (position : Nat)
  | flush
  | proceed
  | receive
  | complete

/-- One atomic action; `none` where it waits for the lock or has nothing to do. -/
def step : Label → Manager → Option Manager
  | .stop, manager => some { manager with running := false }
  | .propose ctx data, manager => some (manager.propose ctx data)
  | .lock position, manager =>
    match manager.holder, manager.waiting[position]? with
    | .free, some proposal =>
      some { manager with
        holder := .admitting proposal, waiting := manager.waiting.eraseIdx position }
    | _, _ => none
  | .flush, manager =>
    match manager.holder with
    | .free => some { manager with holder := .flushing .flush }
    | _ => none
  | .proceed, manager =>
    match manager.holder with
    | .free => none
    | .admitting proposal => some (manager.pushProposal proposal)
    | .flushing caller => some (manager.flushLocked caller)
    | .sending caller batch => some (manager.trySend caller batch)
  | .receive, manager =>
    match manager.draining, manager.channel with
    | none, batch :: rest => some { manager with channel := rest, draining := some batch }
    | _, _ => none
  | .complete, manager =>
    match manager.draining, manager.holder with
    | some batch, .free => some (manager.batchCompleted batch)
    | _, _ => none

/-- The proposal a flush was started for, which its caller has not been answered about. -/
def Caller.tentative : Caller → List Proposal
  | .propose proposal => [proposal]
  | .flush => []

/-- Batches sent and not completed: the one the owner holds and those in the channel. -/
def Manager.outstanding : List (List Proposal) := manager.draining.toList ++ manager.channel

/-- How the counter, the batches and the answers relate while `held` is pending or about to be
sent, `tentative` is its unanswered end and `busy` is the unanswered proposal under the lock. -/
structure Books (held tentative busy : List Proposal) : Prop where
  flow : manager.sent = manager.completed ++ manager.outstanding
  count : manager.inflight = (manager.outstanding.map List.length).sum
  order : manager.sent.flatten ++ held = manager.accepted ++ tentative
  room : held ≠ [] → manager.inflight < manager.config.maxInflight
  held_le : held.length ≤ manager.config.batchSize - 1 + tentative.length
  inflight_le :
    manager.inflight ≤ manager.config.maxInflight + (manager.config.batchSize - 1)
  calls : ((manager.accepted ++ (manager.rejected.map Prod.fst ++
    (manager.waiting ++ busy))).map Proposal.call).Perm (List.range manager.calls)

/-- What the books say depends on the holder of the lock. -/
def Kept : Prop :=
  match manager.holder with
  | .free => Books manager manager.pending [] []
  | .admitting proposal => Books manager manager.pending [] [proposal]
  | .flushing caller =>
    Books manager manager.pending caller.tentative caller.tentative ∧
      (caller.tentative ≠ [] → manager.pending ≠ [])
  | .sending caller batch =>
    Books manager batch caller.tentative caller.tentative ∧ batch ≠ [] ∧ manager.pending = []

variable {batch : List Proposal}

namespace Books

variable {manager : Manager} {held tentative busy : List Proposal} {proposal : Proposal}

lemma move (books : Books manager held tentative busy) (running : Bool) (holder)
    (pending : List Proposal) :
    Books { manager with running, holder, pending } held tentative busy := { books with }

lemma accept (books : Books manager held [proposal] [proposal])
    (held_le : held.length ≤ manager.config.batchSize - 1) :
    Books (manager.answer proposal (.ok ())) held [] [] :=
  { books with
    order := by simpa [answer] using books.order
    held_le := held_le
    calls := by
      refine List.Perm.trans (List.Perm.map _ ?_) books.calls
      simp only [answer, append_nil, append_assoc]
      refine append_left _ ?_
      rw [← append_assoc (manager.rejected.map Prod.fst)]
      exact perm_append_comm }

lemma reject (books : Books manager held [] [proposal]) (error) :
    Books (manager.answer proposal (.error error)) held [] [] :=
  { books with
    calls := by
      refine List.Perm.trans (List.Perm.map _ ?_) books.calls
      simp only [answer, map_append, map_cons, map_nil, append_nil, append_assoc]
      refine append_left _ (append_left _ ?_)
      exact perm_append_comm }

lemma withdraw (books : Books manager held [proposal] busy) (nonempty : held ≠ []) :
    Books manager held.dropLast [] busy :=
  { books with
    order := by
      have shortened := congrArg List.dropLast books.order
      rwa [dropLast_append_of_ne_nil nonempty, dropLast_concat, ← append_nil
        manager.accepted] at shortened
    room := fun _ => books.room nonempty
    held_le := by
      have := books.held_le
      simp only [length_dropLast, length_singleton, length_nil] at this ⊢
      omega }

lemma push (books : Books manager held [] [proposal])
    (room : manager.inflight < manager.config.maxInflight) :
    Books { manager with pending := manager.pending ++ [proposal] } (held ++ [proposal]) [proposal]
      [proposal] :=
  { books with
    order := by
      rw [← append_assoc]
      change manager.sent.flatten ++ held ++ [proposal] = _
      rw [books.order, append_nil]
    room := fun _ => room
    held_le := by
      have := books.held_le
      simp only [length_append, length_singleton, length_nil] at this ⊢
      omega }

section

variable (books : Books manager held tentative busy)
include books

lemma send (nonempty : held ≠ []) (tentative_le : tentative.length ≤ 1) :
    Books { manager with
      channel := manager.channel ++ [held]
      sent := manager.sent ++ [held]
      inflight := manager.inflight + held.length } [] tentative busy where
  flow := by
    change manager.sent ++ [held] =
      manager.completed ++ (manager.draining.toList ++ (manager.channel ++ [held]))
    rw [books.flow, outstanding]
    simp
  count := by
    change manager.inflight + held.length =
      ((manager.draining.toList ++ (manager.channel ++ [held])).map List.length).sum
    rw [← append_assoc, map_append, sum_append, books.count]
    rfl
  order := by
    rw [append_nil, flatten_append, flatten_singleton]
    exact books.order
  room := fun empty => absurd rfl empty
  held_le := Nat.zero_le _
  inflight_le := by
    have := books.room nonempty
    have := books.held_le
    change manager.inflight + held.length ≤
      manager.config.maxInflight + (manager.config.batchSize - 1)
    omega
  calls := books.calls

lemma receive {rest} (idle : manager.draining = none)
    (channel_eq : manager.channel = batch :: rest) :
    Books { manager with channel := rest, draining := some batch } held tentative busy := by
  have outstanding_eq : manager.outstanding = batch :: rest := by
    simp [outstanding, idle, channel_eq]
  exact { books with
    flow := books.flow.trans (congrArg (manager.completed ++ ·) outstanding_eq)
    count := books.count.trans (congrArg (fun batches => (batches.map List.length).sum)
      outstanding_eq) }

lemma complete (draining : manager.draining = some batch) :
    Books (manager.batchCompleted batch) held tentative busy := by
  have outstanding_eq : manager.outstanding = batch :: manager.channel := by
    simp [outstanding, draining]
  have count := books.count
  rw [outstanding_eq, map_cons, sum_cons] at count
  have remaining : manager.inflight - batch.length = (manager.channel.map List.length).sum := by
    omega
  exact { books with
    flow := by
      change manager.sent = (manager.completed ++ [batch]) ++ manager.channel
      rw [books.flow, outstanding_eq]
      simp
    count := remaining
    room := fun nonempty => lt_of_le_of_lt (Nat.sub_le _ _) (books.room nonempty)
    inflight_le := le_trans (Nat.sub_le _ _) books.inflight_le }

end

lemma lock (books : Books manager held [] []) {position}
    (found : manager.waiting[position]? = some proposal) :
    Books { manager with
      holder := .admitting proposal, waiting := manager.waiting.eraseIdx position } held []
      [proposal] := by
  have taken : (manager.waiting.eraseIdx position ++ [proposal]).Perm manager.waiting := by
    obtain ⟨bound, rfl⟩ := List.getElem?_eq_some_iff.mp found
    exact perm_append_comm.trans (getElem_cons_eraseIdx_perm bound)
  exact { books with
    calls := by
      refine List.Perm.trans (List.Perm.map _ ?_) books.calls
      refine append_left _ (append_left _ ?_)
      rw [append_nil]
      exact taken }

lemma propose (books : Books manager held tentative busy) (ctx data : List UInt8) :
    Books (manager.propose ctx data) held tentative busy := by
  have added : ∀ {earlier everyone : List Proposal},
      (earlier.map Proposal.call).Perm (List.range manager.calls) →
      everyone.Perm (earlier ++ [{ call := manager.calls, ctx, data }]) →
      (everyone.map Proposal.call).Perm (List.range (manager.calls + 1)) := by
    intro earlier everyone numbered grown
    rw [range_succ]
    refine (grown.map _).trans ?_
    rw [map_append]
    exact numbered.append_right _
  simp only [Manager.propose]
  split
  · refine { books with calls := added books.calls ?_ }
    simp only [append_assoc]
    refine append_left _ (append_left _ (append_left _ ?_))
    exact perm_append_comm
  · refine { books with calls := added books.calls ?_ }
    simp only [map_append, map_cons, map_nil, append_assoc]
    refine append_left _ (append_left _ ?_)
    rw [← append_assoc manager.waiting]
    exact perm_append_comm

end Books

namespace Kept

variable {manager : Manager} {caller : Caller}

lemma init (config) : Kept (.init config) := by
  change Books _ _ _ _
  constructor <;> simp [Manager.init, outstanding]

lemma books_of_free (kept : Kept manager) (free : manager.holder = .free) :
    Books manager manager.pending [] [] := by
  simpa [Kept, free] using kept

lemma of_books {after} (kept : Kept manager) (holder_eq : after.holder = manager.holder)
    (pending_eq : after.pending = manager.pending)
    (survives : ∀ {held tentative busy}, Books manager held tentative busy →
      Books after held tentative busy) : Kept after := by
  simp only [Kept, holder_eq, pending_eq] at kept ⊢
  cases holding : manager.holder with
  | free | admitting proposal =>
    simp only [holding] at kept
    exact survives kept
  | flushing | sending =>
    simp only [holding] at kept
    exact ⟨survives kept.1, kept.2⟩

lemma finish_ok (shipped : manager.pending = [])
    (books : Books manager [] caller.tentative caller.tentative) :
    Kept (manager.finish caller (.ok ())) := by
  cases caller with
  | flush =>
    change Books _ manager.pending [] []
    rw [shipped]
    exact books.move _ _ _
  | propose =>
    change Books _ manager.pending [] []
    rw [shipped]
    exact books.accept (Nat.zero_le _)

lemma finish_error (error)
    (books : Books manager manager.pending caller.tentative caller.tentative)
    (nonempty : manager.pending ≠ []) : Kept (manager.finish caller (.error error)) := by
  cases caller with
  | flush => exact books.move _ _ _
  | propose =>
    have withdrawn := (books.withdraw nonempty).move manager.running manager.holder
      manager.pending.dropLast
    exact withdrawn.reject error

/-- The holder of the lock keeps the books through each part of its critical section. -/
lemma pushProposal {proposal} (books : Books manager manager.pending [] [proposal]) :
    Kept (manager.pushProposal proposal) := by
  simp only [Manager.pushProposal]
  split
  · exact books.reject _
  · rename_i below
    split
    · exact books.reject _
    · have admitted := books.push (not_le.mp below)
      split_ifs with short
      · exact ⟨admitted.move _ _ _, by simp⟩
      · exact admitted.accept (Nat.le_sub_one_of_lt (not_le.mp short))

lemma flushLocked (books : Books manager manager.pending caller.tentative caller.tentative) :
    Kept (manager.flushLocked caller) := by
  simp only [Manager.flushLocked]
  split
  · rename_i empty
    exact finish_ok empty (empty ▸ books)
  · rename_i nonempty
    split
    · exact finish_error _ books nonempty
    · exact ⟨books.move _ _ _, nonempty, rfl⟩

lemma trySend (books : Books manager batch caller.tentative caller.tentative)
    (nonempty : batch ≠ []) (drained : manager.pending = []) :
    Kept (manager.trySend caller batch) := by
  simp only [Manager.trySend]
  split
  · have restored : batch ++ manager.pending = batch := by simp [drained]
    refine finish_error _ ?_ (by simp [nonempty])
    change Books _ (batch ++ manager.pending) _ _
    rw [restored]
    exact books.move manager.running manager.holder batch
  · have tentative_le : caller.tentative.length ≤ 1 := by
      cases caller <;> simp [Caller.tentative]
    exact finish_ok drained (books.send nonempty tentative_le)

lemma step {label after} (kept : Kept manager)
    (taken : Pipeline.step label manager = some after) : Kept after := by
  cases label with
  | stop =>
    cases taken
    exact kept.of_books rfl rfl fun books => books.move _ _ _
  | propose ctx data =>
    cases taken
    have same : (manager.propose ctx data).holder = manager.holder ∧
        (manager.propose ctx data).pending = manager.pending := by
      simp only [Manager.propose]
      split <;> exact ⟨rfl, rfl⟩
    exact kept.of_books same.1 same.2 fun books => books.propose ctx data
  | lock position =>
    simp only [Pipeline.step] at taken
    split at taken <;> cases taken
    rename_i proposal free found
    exact (kept.books_of_free free).lock found
  | flush =>
    simp only [Pipeline.step] at taken
    split at taken <;> cases taken
    rename_i free
    exact ⟨(kept.books_of_free free).move _ _ _, by simp [Caller.tentative]⟩
  | proceed =>
    simp only [Pipeline.step] at taken
    simp only [Kept] at kept
    split at taken <;> cases taken
    · rename_i proposal admitting
      exact pushProposal (by simpa [admitting] using kept)
    · rename_i caller flushing
      simp only [flushing] at kept
      exact flushLocked kept.1
    · rename_i caller batch sending
      simp only [sending] at kept
      exact trySend kept.1 kept.2.1 kept.2.2
  | receive =>
    simp only [Pipeline.step] at taken
    split at taken <;> cases taken
    rename_i batch rest idle channel_eq
    exact kept.of_books rfl rfl fun books => books.receive idle channel_eq
  | complete =>
    simp only [Pipeline.step] at taken
    split at taken <;> cases taken
    rename_i batch draining free
    exact kept.of_books rfl rfl fun books => books.complete draining

end Kept

/-- The counter is the number of proposals in batches sent and not completed, the batches and what
is pending are the accepted proposals in order, nothing refused is among them, and for a positive
batch size neither the pending list nor the counter exceeds its bound. -/
def Accounted : Prop :=
  manager.completed <+: manager.sent ∧
    manager.inflight =
      ((manager.sent.drop manager.completed.length).map List.length).sum ∧
    manager.sent.flatten ++ manager.pending = manager.accepted ∧
    (manager.accepted.map Proposal.call).Nodup ∧
    (∀ answer ∈ manager.rejected, answer.1 ∉ manager.sent.flatten ++ manager.pending) ∧
    (1 ≤ manager.config.batchSize →
      manager.pending.length ≤ manager.config.batchSize - 1 ∧
        manager.inflight ≤ manager.config.maxInflight + manager.config.batchSize - 1)

lemma Books.accounted {manager} (books : Books manager manager.pending [] []) :
    Accounted manager := by
  have order : manager.sent.flatten ++ manager.pending = manager.accepted := by
    simpa using books.order
  have distinct := books.calls.nodup_iff.mpr nodup_range
  rw [map_append] at distinct
  obtain ⟨accepted_nodup, -, apart⟩ := nodup_append.mp distinct
  refine ⟨⟨manager.outstanding, books.flow.symm⟩, ?_, order, accepted_nodup, ?_, ?_⟩
  · rw [books.flow, drop_left, books.count]
  · intro answer mem delivered
    rw [order] at delivered
    refine apart _ (mem_map_of_mem delivered) answer.1.call ?_ rfl
    refine mem_map_of_mem (mem_append_left _ ?_)
    exact mem_map_of_mem mem
  · intro positive
    have held_le := books.held_le
    have inflight_le := books.inflight_le
    rw [length_nil] at held_le
    constructor <;> omega

/-- In every interleaving of callers, flusher and owner, the pipeline's accounts are right whenever
the state lock is free. -/
theorem accounted_when_unlocked (config : PipelineConfig) {labels : List Label} {finish : Manager}
    (run : Runs step (fun _ _ => True) (.init config) labels finish)
    (free : finish.holder = .free) : Accounted finish := by
  have kept : Kept finish := run.invariant (Kept.init config) fun kept _ taken => kept.step taken
  exact (kept.books_of_free free).accounted

/-- Batches of two over a channel of two: two proposals are shipped one by one, the third is turned
away, two more are accepted once a batch is completed, and none after the stop. -/
theorem accounted_after_backpressure :
    ∃ labels finish, Runs step (fun _ _ => True) (.init { batchSize := 2, maxInflight := 2 }) labels
      finish ∧ finish.holder = .free ∧ finish.accepted.length = 4 ∧ finish.rejected.length = 2 ∧
        finish.inflight = 2 ∧ finish.pending = [] ∧ Accounted finish := by
  obtain ⟨finish, run, free, rest⟩ := Runs.exists_of_execWhile step (fun _ _ => True)
    (.init { batchSize := 2, maxInflight := 2 })
    [.propose [] [1], .propose [] [2], .lock 1, .proceed, .flush, .proceed, .proceed, .lock 0,
      .proceed, .flush, .proceed, .proceed, .propose [] [3], .lock 0, .proceed, .receive,
      .complete, .propose [] [4], .lock 0, .proceed, .propose [] [5], .lock 0, .proceed, .proceed,
      .receive, .proceed, .complete, .stop, .propose [] [6]]
    (fun manager => manager.holder = .free ∧ manager.accepted.length = 4 ∧
      manager.rejected.length = 2 ∧ manager.inflight = 2 ∧ manager.pending = [])
    (by decide)
  obtain ⟨accepted_eq, rejected_eq, inflight_eq, pending_eq⟩ := rest
  exact ⟨_, finish, run, free, accepted_eq, rejected_eq, inflight_eq, pending_eq,
    accounted_when_unlocked _ run free⟩

end Catga.Raft.Pipeline
