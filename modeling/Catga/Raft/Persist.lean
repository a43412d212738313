import Catga.Raft.StorageCalls

/-!
# Asynchronous persistence

The owner loop makes the updates of a ready visible, hands the ready to the persist worker and goes
on.  The worker makes everything queued durable in one batch and reports each ready; the owner then
calls `on_persist_ready` and sends the messages that waited for it.
-/

namespace Catga.Raft.Persist

open Foundation Storage

abbrev Message := List UInt8

structure SnapshotMetadata where
  index : Nat
  term : Nat
  confState : ConfState
deriving DecidableEq

/-- What raft-rs hands out to be persisted. -/
structure Ready where
  number : Nat
  hardState : Option HardState
  entries : List Entry
  snapshot : Option SnapshotMetadata
  persistedMessages : List Message
deriving DecidableEq

/-- A ready of the first term with entries and a message. -/
def logReady (number commit : Nat) (indexes : List Nat) : Ready :=
  { number, hardState := some { term := 1, vote := 1, commit }, snapshot := none
    entries := indexes.map (.bare 1), persistedMessages := [[1]] }

/-- The same with a snapshot. -/
def restoreReady (number index commit : Nat) (indexes : List Nat) : Ready :=
  { logReady number commit indexes with
    snapshot := some { index, term := 1, confState := .default } }

namespace Ready

def tailHint (ready : Ready) : Nat := (ready.entries.getLast?.map (·.index)).getD 0

def snapshotIndex (ready : Ready) : Nat := (ready.snapshot.map (·.index)).getD 0

lemma snapshotIndex_eq {ready : Ready} {metadata : SnapshotMetadata}
    (carried : ready.snapshot = some metadata) : ready.snapshotIndex = metadata.index := by
  simp [snapshotIndex, carried]

def NothingToPersist (ready : Ready) : Prop :=
  ready.hardState = none ∧ ready.tailHint = 0 ∧ ready.snapshotIndex = 0 ∧
    ready.persistedMessages = []
deriving Decidable

end Ready

/-- The owner inside `process_ready`. -/
inductive Owner where
  | polling
  | appended (ready : Ready)
  | installed (ready : Ready)
deriving DecidableEq

def Owner.current : Owner → List Ready
  | .polling => []
  | .appended ready | .installed ready => [ready]

/-- The persist worker with the tasks of its batch. -/
inductive Work where
  | waiting
  | received (tasks : List Ready)
  | draining (tasks : List Ready)
  /-- These snapshots are still to be persisted, and then the hard state. -/
  | snapshots (tasks : List Ready) (indexes : List Nat)
  | stopped (tasks : List Ready)
deriving DecidableEq

def Work.tasks : Work → List Ready
  | .waiting => []
  | .received tasks | .draining tasks | .snapshots tasks _ | .stopped tasks => tasks

/-- The storage, the owner, the persist worker and the channels between them.  A task or a report is
represented by the ready it was made from. -/
structure Node where
  store : Store
  owner : Owner
  queue : List Ready
  work : Work
  done : List Ready
  persistInFlight : Nat
  acknowledged : List Ready
  sent : List Ready
  lost : List Ready
  /-- The ready that appended last at an index, and its entry there; nothing where an append or a
  snapshot has cut the log off since. -/
  newest : Nat → Option (Ready × Entry)

open Node

/-- A step of owner or worker. -/
inductive Label where
  | take (ready : Ready)
  /-- It installs the snapshot of the ready; `restored` says whether the machine took it. -/
  | install (restored : Bool)
  | send
  | acknowledge
  | receive (more : Nat)
  | proceed
  | fail

namespace Node

def start (store : Store) : Node :=
  { store, owner := .polling, queue := [], work := .waiting, done := [], persistInFlight := 0
    acknowledged := [], sent := [], lost := [], newest := fun _ => none }

variable (node : Node)

/-- `EngineStorage::open` on the files a crash leaves behind. -/
def reopen (bootstrapConfState : Option ConfState) : Store :=
  Store.open node.store.engine (some node.store.file) bootstrapConfState

def handed : List Ready :=
  node.acknowledged ++ node.done ++ node.work.tasks ++ node.queue ++ node.lost

def appended (ready : Ready) (newest : Nat → Option (Ready × Entry)) (index : Nat) :
    Option (Ready × Entry) :=
  match ready.entries with
  | [] => newest index
  | head :: tail =>
    if index < head.index then newest index
    else (head :: tail)[index - head.index]?.map fun entry => (ready, entry)

/-- The newest entries after the snapshot of a ready has replaced the log: above it only the entries
of the ready itself. -/
def replaced (ready : Ready) (snapshotIndex : Nat) (newest : Nat → Option (Ready × Entry))
    (index : Nat) : Option (Ready × Entry) :=
  if snapshotIndex < index then (newest index).filter fun source => source.1 = ready
  else newest index

/-- `process_ready` up to `append_visible`; a ready that cannot be appended is dropped. -/
def take (ready : Ready) (node : Node) : Option Node :=
  match node.owner with
  | .polling =>
    match node.store.appendVisible ready.entries with
    | .error _ => some node
    | .ok store =>
      some { node with
        store, owner := .appended ready, newest := appended ready node.newest }
  | .appended _ | .installed _ => none

/-- `process_ready` from there to `install_snapshot`; a ready whose snapshot cannot be installed is
dropped. -/
def install (restored : Bool) (node : Node) : Option Node :=
  match node.owner with
  | .appended ready =>
    match ready.snapshot with
    | none => some { node with owner := .installed ready }
    | some metadata =>
      if metadata.index = 0 then some { node with owner := .installed ready }
      else
        match node.store.applySnapshotVisible metadata.index metadata.term
            metadata.confState with
        | .error _ => some { node with owner := .polling }
        | .ok store =>
          some { node with
            store
            owner := if restored then .installed ready else .polling
            newest := replaced ready metadata.index node.newest }
  | .polling | .installed _ => none

/-- The durability work of `process_ready`. -/
def send : Option Node :=
  match node.owner with
  | .installed ready =>
    if ready.NothingToPersist ∧ node.persistInFlight = 0 then
      some { node with owner := .polling, acknowledged := node.acknowledged ++ [ready] }
    else
      match node.work with
      | .stopped _ => some { node with owner := .polling, lost := node.lost ++ [ready] }
      | .waiting | .received _ | .draining _ | .snapshots _ _ =>
        some { node with
          owner := .polling
          queue := node.queue ++ [ready]
          persistInFlight := node.persistInFlight + 1 }
  | .polling | .appended _ => none

def acknowledge : Option Node :=
  match node.owner, node.done with
  | .polling, ready :: rest =>
    some { node with
      done := rest
      persistInFlight := node.persistInFlight - 1
      acknowledged := node.acknowledged ++ [ready]
      sent := node.sent ++ [ready] }
  | _, _ => none

/-- `persist_worker` collects a batch. -/
def receive (more : Nat) (node : Node) : Option Node :=
  match node.work, node.queue with
  | .waiting, first :: queued =>
    some { node with queue := queued.drop more, work := .received (first :: queued.take more) }
  | _, _ => none

variable (tasks : List Ready)

def upTo : Nat := (tasks.map Ready.tailHint).foldl max 0

def snapshotIndexes : List Nat := (tasks.map Ready.snapshotIndex).filter fun index => 0 < index

/-- `hard_state` of a batch: the last one wins. -/
def lastHardState : Option HardState := (tasks.filterMap Ready.hardState).getLast?

/-- The next step of `persist_worker` on its batch. -/
def proceed : Option Node :=
  match node.work with
  | .received tasks =>
    let persisting : Work := .snapshots tasks (snapshotIndexes tasks)
    if upTo tasks = 0 then some { node with work := persisting }
    else if node.store.overlay.entries.takeWhile (fun entry => entry.index ≤ upTo tasks) = [] then
      some { node with work := persisting }
    else some { node with store := node.store.copyPrefix (upTo tasks), work := .draining tasks }
  | .draining tasks =>
    match node.store.worker with
    | .copied drained =>
      let store := node.store.writeDrained drained
      match store.worker with
      | .halted => some { node with store, work := .stopped tasks }
      | _ => some { node with store }
    | .written drained => some { node with store := node.store.removeDrained drained }
    | .removed last =>
      some { node with
        store := node.store.raiseDurable last
        work := .snapshots tasks (snapshotIndexes tasks) }
    | .idle | .halted => none
  | .snapshots tasks (index :: rest) =>
    some { node with
      store := node.store.persistSnapshotState index, work := .snapshots tasks rest }
  | .snapshots tasks [] =>
    let store :=
      match lastHardState tasks with
      | some hardState => node.store.setHardState hardState
      | none => node.store
    some { node with store, work := .waiting, done := node.done ++ tasks }
  | .waiting | .stopped _ => none

/-- `persist_worker` exits on the first error. -/
def fail : Option Node :=
  match node.work with
  | .received tasks | .draining tasks | .snapshots tasks _ =>
    some { node with store := { node.store with worker := .halted }, work := .stopped tasks }
  | .waiting | .stopped _ => none

end Node

def step : Label → Node → Option Node
  | .take ready, node => node.take ready
  | .install restored, node => node.install restored
  | .send, node => node.send
  | .acknowledge, node => node.acknowledge
  | .receive more, node => node.receive more
  | .proceed, node => node.proceed
  | .fail, node => node.fail

/-- A hard state that says at least as much as an earlier one. -/
def Covers (newer older : HardState) : Prop :=
  older.term ≤ newer.term ∧
    (older.term = newer.term → older.vote = 0 ∨ older.vote = newer.vote) ∧
    older.commit ≤ newer.commit
deriving Decidable

lemma Covers.refl (hardState : HardState) : Covers hardState hardState :=
  ⟨le_rfl, fun _ => .inr rfl, le_rfl⟩

/-- Two readies in the order raft-rs hands them out: numbers go up, hard states do not go back, and
a snapshot covers what was committed before. -/
def Precedes (earlier later : Ready) : Prop :=
  earlier.number < later.number ∧
    ∀ older ∈ earlier.hardState, (∀ newer ∈ later.hardState, Covers newer older) ∧
      ∀ metadata ∈ later.snapshot, older.commit ≤ metadata.index
deriving Decidable

/-- The index that the entries of a ready may follow: its own snapshot or the visible tail. -/
def Ready.base (ready : Ready) (store : Store) : Nat :=
  if 0 < ready.snapshotIndex then ready.snapshotIndex else store.lastIndex

/-- What raft-rs promises: readies come in order, their entries are consecutive, leave no gap and
replace none below the first index, and a snapshot is not older than the first index. -/
def Promised : Label → Node → Prop
  | .take ready, node =>
    (∀ head ∈ ready.entries.head?, Segment Entry.index head.index ready.entries ∧
      node.store.firstIndex ≤ head.index ∧ head.index ≤ ready.base node.store + 1) ∧
    ∀ earlier ∈ node.handed, Precedes earlier ready
  | .install _, node =>
    ∀ ready ∈ node.owner.current, ∀ metadata ∈ ready.snapshot,
      node.store.firstIndex ≤ metadata.index
  | _, _ => True

instance : ∀ label node, Decidable (Promised label node) := by
  rintro ⟨⟩ node <;> dsimp only [Promised] <;> infer_instance

/-- The node once `ready` is appended. -/
abbrev Node.holding (node : Node) (store : Store) (ready : Ready) : Node :=
  { node with store, owner := .appended ready, newest := Node.appended ready node.newest }

/-- The node once the snapshot of `ready` is installed. -/
abbrev Node.restored (node : Node) (store : Store) (ready : Ready) (index : Nat) : Node :=
  { node with store, owner := .installed ready, newest := replaced ready index node.newest }

/-- What each event does, case by case. -/
inductive Moved (before : Node) : Label → Node → Prop
  | dropped {ready error} (polling : before.owner = .polling)
      (refused : before.store.appendVisible ready.entries = .error error) :
      Moved before (.take ready) before
  | took {ready store} (polling : before.owner = .polling)
      (appended : before.store.appendVisible ready.entries = .ok store) :
      Moved before (.take ready) { before with
        store, owner := .appended ready, newest := Node.appended ready before.newest }
  | passed {restored ready} (owner : before.owner = .appended ready)
      (bare : ready.snapshotIndex = 0) :
      Moved before (.install restored) { before with owner := .installed ready }
  | outdated {restored ready metadata error}
      (owner : before.owner = .appended ready) (carried : ready.snapshot = some metadata)
      (positive : 0 < metadata.index)
      (refused : before.store.applySnapshotVisible metadata.index metadata.term
        metadata.confState = .error error) :
      Moved before (.install restored) { before with owner := .polling }
  | replaced {restored ready metadata store}
      (owner : before.owner = .appended ready) (carried : ready.snapshot = some metadata)
      (positive : 0 < metadata.index)
      (installed : before.store.applySnapshotVisible metadata.index metadata.term
        metadata.confState = .ok store) :
      Moved before (.install restored) { before with
        store
        owner := if restored then .installed ready else .polling
        newest := replaced ready metadata.index before.newest }
  | inlined {ready} (owner : before.owner = .installed ready)
      (nothing : ready.NothingToPersist) (settled : before.persistInFlight = 0) :
      Moved before .send { before with
        owner := .polling, acknowledged := before.acknowledged ++ [ready] }
  | orphaned {ready tasks} (owner : before.owner = .installed ready)
      (stopped : before.work = .stopped tasks) :
      Moved before .send { before with owner := .polling, lost := before.lost ++ [ready] }
  | queued {ready} (owner : before.owner = .installed ready)
      (alive : ∀ tasks, before.work ≠ .stopped tasks) :
      Moved before .send { before with
        owner := .polling
        queue := before.queue ++ [ready]
        persistInFlight := before.persistInFlight + 1 }
  | acknowledged {ready rest} (polling : before.owner = .polling)
      (reported : before.done = ready :: rest) :
      Moved before .acknowledge { before with
        done := rest
        persistInFlight := before.persistInFlight - 1
        acknowledged := before.acknowledged ++ [ready]
        sent := before.sent ++ [ready] }
  | received {more first queued} (waiting : before.work = .waiting)
      (filled : before.queue = first :: queued) :
      Moved before (.receive more) { before with
        queue := queued.drop more, work := .received (first :: queued.take more) }
  | skipped {tasks} (received : before.work = .received tasks)
      (nothing : upTo tasks = 0 ∨
        before.store.overlay.entries.takeWhile (fun entry => entry.index ≤ upTo tasks) = []) :
      Moved before .proceed { before with work := .snapshots tasks (snapshotIndexes tasks) }
  | copied {tasks} (received : before.work = .received tasks)
      (some_tail : upTo tasks ≠ 0)
      (nonempty : before.store.overlay.entries.takeWhile
        (fun entry => entry.index ≤ upTo tasks) ≠ []) :
      Moved before .proceed { before with
        store := before.store.copyPrefix (upTo tasks)
        work := .draining tasks }
  | wrote {tasks drained engine}
      (draining : before.work = .draining tasks) (copied : before.store.worker = .copied drained)
      (written : before.store.engine.addEntries drained = some engine) :
      Moved before .proceed { before with
        store := { before.store with engine, worker := .written drained } }
  | halted {tasks drained} (draining : before.work = .draining tasks)
      (copied : before.store.worker = .copied drained)
      (refused : before.store.engine.addEntries drained = none) :
      Moved before .proceed { before with
        store := { before.store with worker := .halted }, work := .stopped tasks }
  | removed {tasks drained} (draining : before.work = .draining tasks)
      (written : before.store.worker = .written drained) :
      Moved before .proceed { before with store := before.store.removeDrained drained }
  | raised {tasks last} (draining : before.work = .draining tasks)
      (removed : before.store.worker = .removed last) :
      Moved before .proceed { before with
        store := before.store.raiseDurable last
        work := .snapshots tasks (snapshotIndexes tasks) }
  | persisted {tasks index rest} (persisting : before.work = .snapshots tasks (index :: rest)) :
      Moved before .proceed { before with
        store := before.store.persistSnapshotState index, work := .snapshots tasks rest }
  | kept {tasks} (persisting : before.work = .snapshots tasks [])
      (unchanged : lastHardState tasks = none) :
      Moved before .proceed { before with work := .waiting, done := before.done ++ tasks }
  | completed {tasks hardState} (persisting : before.work = .snapshots tasks [])
      (changed : lastHardState tasks = some hardState) :
      Moved before .proceed { before with
        store := before.store.setHardState hardState
        work := .waiting
        done := before.done ++ tasks }
  | failed {tasks} (busy : before.work = .received tasks ∨
        before.work = .draining tasks ∨ ∃ indexes, before.work = .snapshots tasks indexes) :
      Moved before .fail { before with
        store := { before.store with worker := .halted }, work := .stopped tasks }

section

variable {before after : Node}

lemma take_moved {ready : Ready} (taken : before.take ready = some after) :
    Moved before (.take ready) after := by
  unfold take at taken
  split at taken
  · rename_i polling
    split at taken <;> cases taken
    · exact .dropped polling ‹_›
    · exact .took polling ‹_›
  all_goals cases taken

lemma install_moved {restored : Bool} (taken : before.install restored = some after) :
    Moved before (.install restored) after := by
  unfold install at taken
  split at taken
  · rename_i ready owner
    split at taken
    · rename_i bare
      cases taken
      exact .passed owner (by simp [Ready.snapshotIndex, bare])
    · rename_i metadata carried
      split at taken
      · rename_i zero
        cases taken
        exact .passed owner ((Ready.snapshotIndex_eq carried).trans zero)
      · rename_i positive
        split at taken <;> cases taken
        · exact .outdated owner carried (Nat.pos_of_ne_zero positive) ‹_›
        · exact .replaced owner carried (Nat.pos_of_ne_zero positive) ‹_›
  all_goals cases taken

lemma send_moved (taken : before.send = some after) : Moved before .send after := by
  unfold send at taken
  split at taken
  · rename_i ready owner
    split_ifs at taken with inline
    · cases taken
      exact .inlined owner inline.1 inline.2
    · split at taken <;> rename_i work <;> cases taken
      · exact .orphaned owner work
      all_goals exact .queued owner (by simp [work])
  all_goals cases taken

lemma acknowledge_moved (taken : before.acknowledge = some after) :
    Moved before .acknowledge after := by
  unfold acknowledge at taken
  split at taken <;> cases taken
  rename_i polling reported
  exact .acknowledged polling reported

lemma receive_moved {more : Nat} (taken : before.receive more = some after) :
    Moved before (.receive more) after := by
  unfold receive at taken
  split at taken <;> cases taken
  rename_i waiting filled
  exact .received waiting filled

lemma proceed_moved (taken : before.proceed = some after) : Moved before .proceed after := by
  unfold proceed at taken
  split at taken
  · rename_i tasks received
    split_ifs at taken with none_hinted nothing <;> cases taken
    · exact .skipped received (.inl none_hinted)
    · exact .skipped received (.inr nothing)
    · exact .copied received none_hinted nothing
  · rename_i tasks draining
    split at taken
    · rename_i drained copied
      simp only [Store.writeDrained] at taken
      cases written : before.store.engine.addEntries drained with
      | none =>
        simp only [written] at taken
        cases taken
        exact .halted draining copied written
      | some =>
        simp only [written] at taken
        cases taken
        exact .wrote draining copied written
    · cases taken
      exact .removed draining ‹_›
    · cases taken
      exact .raised draining ‹_›
    all_goals cases taken
  · cases taken
    exact .persisted ‹_›
  · rename_i tasks persisting
    cases taken
    cases changed : lastHardState tasks with
    | none => exact .kept persisting changed
    | some => exact .completed persisting changed
  all_goals cases taken

lemma fail_moved (taken : before.fail = some after) : Moved before .fail after := by
  unfold fail at taken
  split at taken <;> cases taken
  · exact .failed (.inl ‹_›)
  · exact .failed (.inr (.inl ‹_›))
  · exact .failed (.inr (.inr ⟨_, ‹_›⟩))

lemma step_moved {label : Label} (taken : step label before = some after) :
    Moved before label after := by
  cases label with
  | take => exact take_moved taken
  | install => exact install_moved taken
  | send => exact send_moved taken
  | acknowledge => exact acknowledge_moved taken
  | receive => exact receive_moved taken
  | proceed => exact proceed_moved taken
  | fail => exact fail_moved taken

end

end Catga.Raft.Persist
