import Catga.Raft.PersistTails

/-!
# Commit indexes and the log behind them

Besides handling readies the owner compacts the log and builds snapshots for followers.  A commit
index that a ready carries lies in the log as it was then, and the entry there stays the newest one;
so once the batch of the ready is finished, its commit index is at or below the durable tail.
-/

namespace Catga.Raft.Persist

open Storage Store List Node

/-- A step of a node. -/
inductive Duty where
  | persist (label : Label)
  /-- raft-rs asks for a snapshot and the provider has applied up to an index. -/
  | providerSnapshot (applied requestIndex : Nat)
  | compact (compactIndex : Nat)

/-- The node after a duty; the owner builds snapshots and compacts between two readies. -/
def perform : Duty → Node → Option Node
  | .persist label, node => step label node
  | .providerSnapshot applied requestIndex, node =>
    if node.owner = .polling then
      some { node with store := (node.store.providerSnapshot applied requestIndex).getD node.store }
    else none
  | .compact compactIndex, node =>
    if node.owner = .polling then
      some { node with store := node.store.settle (node.store.compact compactIndex) }
    else none

/-- What raft-rs promises about commit indexes: they do not go back, reach neither past the last
entry nor below a snapshot, and committed entries are not replaced. -/
def Commits : Label → Node → Prop
  | .take ready, node =>
    (∀ hardState ∈ ready.hardState,
      node.store.core.hardState.commit ≤ hardState.commit ∧
      ready.snapshotIndex ≤ hardState.commit ∧
      hardState.commit ≤
        if ready.entries = [] then ready.base node.store else ready.tailHint) ∧
    ∀ head ∈ ready.entries.head?, node.store.core.hardState.commit < head.index ∧
      ∀ earlier ∈ node.handed, ∀ hardState ∈ earlier.hardState, hardState.commit < head.index
  | .install _, node =>
    ∀ ready ∈ node.owner.current, ∀ metadata ∈ ready.snapshot,
      node.store.core.hardState.commit ≤ metadata.index
  | _, _ => True

instance : ∀ label node, Decidable (Commits label node) := by
  rintro ⟨⟩ node <;> dsimp only [Commits] <;> infer_instance

/-- The promises of raft-rs for every duty. -/
def Admitted : Duty → Node → Prop
  | .persist label, node => Promised label node ∧ Commits label node
  | .providerSnapshot _ _, _ | .compact _, _ => True

instance : ∀ duty node, Decidable (Admitted duty node) := by
  rintro ⟨⟩ node <;> dsimp only [Admitted] <;> infer_instance

/-- A commit index that waits for no ready: covered by the snapshot, or durable and in the log. -/
def Settles (store : Store) (commit : Nat) : Prop :=
  commit ≤ store.core.snapshotIndex ∨
    commit ≤ store.core.durableLastIndex ∧ commit ≤ store.lastIndex

variable {store : Store}

lemma Settles.mono {after commit} (settles : Settles store commit)
    (marker_le : store.core.snapshotIndex ≤ after.core.snapshotIndex)
    (durable_le : store.core.durableLastIndex ≤ after.core.durableLastIndex)
    (last : commit ≤ store.lastIndex → commit ≤ after.lastIndex) : Settles after commit := by
  rcases settles with covered | ⟨durable, within⟩
  · exact .inl (le_trans covered marker_le)
  · exact .inr ⟨le_trans durable durable_le, last within⟩

/-- What is committed is kept. -/
structure Committing (node : Node) : Prop where
  total : ∀ {index}, node.store.core.snapshotIndex < index → index ≤ node.store.lastIndex →
    index ≤ node.store.core.durableLastIndex ∨
      ∃ source entry, node.newest index = some (source, entry)
  committed : ∀ {ready hardState}, ready ∈ node.readies → hardState ∈ ready.hardState →
    (node.owner = .appended ready ∧ 0 < ready.snapshotIndex) ∨
      Settles node.store hardState.commit ∨
      ∃ source entry, node.newest hardState.commit = some (source, entry) ∧
        source.number ≤ ready.number
  restoring : ∀ {ready hardState}, node.owner = .appended ready → 0 < ready.snapshotIndex →
    hardState ∈ ready.hardState → hardState.commit ≤ ready.snapshotIndex
  floor : ∀ {ready hardState}, ready ∈ node.pending → hardState ∈ ready.hardState →
    node.store.core.hardState.commit ≤ hardState.commit ∧
      ready.snapshotIndex ≤ hardState.commit
  current : Settles node.store node.store.core.hardState.commit ∨
    ∃ source entry, source ∈ node.finished ∧
      node.newest node.store.core.hardState.commit = some (source, entry)

namespace Committing

variable {before after : Node}

variable {ready : Ready} {index : Nat}

lemma start (opened : Opened store) (settles : Settles store store.core.hardState.commit) :
    Committing (start store) where
  total {index} above within := by
    exact .inl (opened.durable above within)
  committed member := by cases member
  restoring owner := by cases owner
  floor member := by cases member
  current := .inl settles

lemma number_le_last {front other}
    (ordered : (front ++ [ready]).Pairwise Precedes) (member : other ∈ front ++ [ready]) :
    other.number ≤ ready.number := by
  rcases mem_append.mp member with earlier | same
  · have precedes := (pairwise_append.mp ordered).2.2 other earlier ready
      (mem_singleton.mpr rfl)
    exact le_of_lt precedes.1
  · rw [mem_singleton.mp same]

lemma total_took (committing : Committing before) {head tail}
    (entries : ready.entries = head :: tail)
    (called : Called (.appendVisible (head :: tail)) before.store)
    (appended : before.store.appendVisible (head :: tail) = .ok store)
    (above : before.store.core.snapshotIndex < index) (within : index ≤ store.lastIndex) :
    index ≤ before.store.core.durableLastIndex ∨
      ∃ source entry, Node.appended ready before.newest index = some (source, entry) := by
  obtain ⟨segment, -, le_last⟩ := called head rfl
  rw [lastIndex_of_append segment appended] at within
  rw [appended_cons entries]
  split_ifs with below
  · exact committing.total above (by omega)
  · have inside : index - head.index < (head :: tail).length := by
      rw [length_cons]
      omega
    rw [List.getElem?_eq_getElem inside]
    exact .inr ⟨ready, _, rfl⟩

lemma appended_below {newest}
    (below : ∀ head ∈ ready.entries.head?, index < head.index) :
    Node.appended ready newest index = newest index := by
  cases entries : ready.entries with
  | nil => rw [appended_of_nil entries]
  | cons head =>
    rw [appended_cons entries, if_pos (below head (by rw [entries]; rfl))]

section

variable (tails : Tails before) (promised : Promised (.take ready) before)
  (calm : Calm (.take ready) before)
  (appended : before.store.appendVisible ready.entries = .ok store)
include tails promised calm appended

lemma lastIndex_took (bare : ready.snapshotIndex = 0) :
    (if ready.entries = [] then ready.base before.store else ready.tailHint) = store.lastIndex := by
  cases entries : ready.entries with
  | nil =>
    rw [entries] at appended
    cases appended
    rw [if_pos rfl, Ready.base, if_neg (by omega)]
  | cons head =>
    obtain ⟨segment, -, -⟩ := (tails.called promised calm entries).1 head rfl
    rw [entries] at appended
    rw [if_neg (cons_ne_nil _ _), lastIndex_of_append segment appended,
      tailHint_eq (entries ▸ segment) (entries ▸ cons_ne_nil _ _), entries, length_cons]
    omega

lemma within_took (below : ∀ head ∈ ready.entries.head?, index < head.index)
    (within : index ≤ before.store.lastIndex) : index ≤ store.lastIndex := by
  cases entries : ready.entries with
  | nil =>
    rw [entries] at appended
    cases appended
    exact within
  | cons head =>
    obtain ⟨segment, -, -⟩ := (tails.called promised calm entries).1 head rfl
    have below := below head (by rw [entries]; rfl)
    rw [entries] at appended
    rw [lastIndex_of_append segment appended]
    omega

end

section

variable (committing : Committing before)
include committing

lemma took (tails : Tails before) (polling : before.owner = .polling)
    (promised : Promised (.take ready) before) (calm : Calm (.take ready) before)
    (commits : Commits (.take ready) before)
    (appended : before.store.appendVisible ready.entries = .ok store)
    (ledger_after : Ledger (before.holding store ready))
    (tails_after : Tails (before.holding store ready)) :
    Committing (before.holding store ready) := by
  obtain ⟨-, -, marker_eq⟩ := appendVisible_frame appended
  have hard_eq := appendVisible_hardState appended
  have durable_eq := appendVisible_durable appended
  have settles_took : ∀ {commit}, (∀ head ∈ ready.entries.head?, commit < head.index) →
      Settles before.store commit → Settles store commit := by
    intro commit below settles
    exact settles.mono marker_eq.ge durable_eq.ge
      (within_took tails promised calm appended below)
  have total : ∀ {index}, store.core.snapshotIndex < index → index ≤ store.lastIndex →
      index ≤ store.core.durableLastIndex ∨
        ∃ source entry, Node.appended ready before.newest index = some (source, entry) := by
    intro index above within
    rw [marker_eq] at above
    rw [durable_eq]
    cases entries : ready.entries with
    | nil =>
      rw [entries] at appended
      cases appended
      rw [appended_below (by simp [entries])]
      exact committing.total above within
    | cons =>
      have called := (tails.called promised calm entries).1
      rw [entries] at appended
      exact committing.total_took entries called appended above within
  constructor
  case total => exact total
  case committed =>
    intro other hardState member carried
    change (Owner.appended ready = .appended other ∧ _) ∨ Settles store _ ∨ _
    rcases mem_append.mp member with earlier | new
    · rcases committing.committed (mem_append_left _ earlier) carried with
        ⟨owner, -⟩ | settles | ⟨source, entry, found, number_le⟩
      · rw [polling] at owner
        cases owner
      · refine .inr (.inl (settles_took (fun head first => ?_) settles))
        exact (commits.2 head first).2 other earlier hardState carried
      · refine .inr (.inr ⟨source, entry, ?_, number_le⟩)
        refine (appended_below fun head first => ?_).trans found
        exact (commits.2 head first).2 other earlier hardState carried
    · obtain rfl := mem_singleton.mp new
      obtain ⟨-, -, within⟩ := commits.1 hardState carried
      by_cases snapshot : 0 < other.snapshotIndex
      · exact .inl ⟨rfl, snapshot⟩
      · rw [lastIndex_took tails promised calm appended (by omega)] at within
        by_cases covered : hardState.commit ≤ store.core.snapshotIndex
        · exact .inr (.inl (.inl covered))
        · rcases total (not_le.mp covered) within with durable | ⟨source, entry, found⟩
          · exact .inr (.inl (.inr ⟨durable, within⟩))
          · refine .inr (.inr ⟨source, entry, found, ?_⟩)
            exact number_le_last ledger_after.ordered (tails_after.origin found).1
  case restoring =>
    intro other hardState owner snapshot carried
    cases owner
    have within := (commits.1 hardState carried).2.2
    rwa [if_pos (calm snapshot), Ready.base, if_pos snapshot] at within
  case floor =>
    intro other hardState member carried
    change store.core.hardState.commit ≤ _ ∧ _
    rw [hard_eq]
    rcases mem_append.mp member with earlier | new
    · exact committing.floor (mem_append_left _ earlier) carried
    · obtain rfl := mem_singleton.mp new
      obtain ⟨rising, covers, -⟩ := commits.1 hardState carried
      exact ⟨rising, covers⟩
  case current =>
    have below := fun head first => (commits.2 head first).1
    change Settles store store.core.hardState.commit ∨
      ∃ source entry, source ∈ before.finished ∧
        Node.appended ready before.newest store.core.hardState.commit = some (source, entry)
    rw [hard_eq, appended_below below]
    exact committing.current.imp_left (settles_took below)

lemma keep {moved} (newest : moved.newest = before.newest)
    (readies : moved.readies = before.readies)
    (marker_le : before.store.core.snapshotIndex ≤ moved.store.core.snapshotIndex)
    (durable_le : before.store.core.durableLastIndex ≤ moved.store.core.durableLastIndex)
    (last : moved.store.lastIndex = before.store.lastIndex)
    (hard : moved.store.core.hardState = before.store.core.hardState)
    (owner : ∀ {ready}, 0 < ready.snapshotIndex →
      (moved.owner = .appended ready ↔ before.owner = .appended ready))
    (pending : ∀ {ready}, ready ∈ moved.pending → ready ∈ before.pending)
    (finished : ∀ {ready}, ready ∈ before.finished → ready ∈ moved.finished) :
    Committing moved := by
  have settles : ∀ {commit}, Settles before.store commit → Settles moved.store commit :=
    fun settles => settles.mono marker_le durable_le
      fun within => last ▸ within
  constructor
  case total =>
    rw [newest, last]
    intro index above within
    exact (committing.total (lt_of_le_of_lt marker_le above) within).imp_left
      (le_trans · durable_le)
  case committed =>
    rw [newest, readies]
    intro ready hardState member carried
    refine (committing.committed member carried).imp (fun ⟨appended, snapshot⟩ => ?_)
      (Or.imp_left settles)
    exact ⟨(owner snapshot).mpr appended, snapshot⟩
  case restoring =>
    intro ready hardState appended snapshot
    exact committing.restoring ((owner snapshot).mp appended) snapshot
  case floor =>
    rw [hard]
    intro ready hardState member
    exact committing.floor (pending member)
  case current =>
    rw [hard, newest]
    refine committing.current.imp settles fun ⟨source, entry, member, found⟩ => ?_
    exact ⟨source, entry, finished member, found⟩

lemma replaced (ledger : Ledger before) {metadata}
    (owner : before.owner = .appended ready) (carried : ready.snapshot = some metadata)
    (positive : 0 < metadata.index) (none_open : before.persistInFlight = 0)
    (above : before.store.core.snapshotIndex < metadata.index)
    (installed : before.store.applySnapshotVisible metadata.index metadata.term
      metadata.confState = .ok store) :
    Committing (before.restored store ready metadata.index) := by
  obtain ⟨layout_eq, -, -, -⟩ := applySnapshotVisible_spec above installed
  have last_eq : store.lastIndex = metadata.index := congrArg Layout.last layout_eq
  have store_eq := applySnapshotVisible_eq above installed
  have marker_eq : store.core.snapshotIndex = metadata.index := by rw [store_eq]
  have commit_eq : store.core.hardState.commit = metadata.index := by rw [store_eq]
  have index_eq := Ready.snapshotIndex_eq carried
  have snapshot : 0 < ready.snapshotIndex := index_eq ▸ positive
  obtain ⟨-, waiting, queue_nil, lost_nil⟩ := ledger.settled none_open
  have current : before.owner.current = [ready] := by rw [owner]; rfl
  constructor
  case total =>
    intro index above within
    change store.core.snapshotIndex < index at above
    change index ≤ store.lastIndex at within
    omega
  case committed =>
    intro other hardState member held
    refine .inr (.inl (.inl (show hardState.commit ≤ store.core.snapshotIndex from ?_)))
    rw [marker_eq]
    rcases mem_append.mp member with earlier | same
    · have ordered := ledger.ordered
      rw [readies, pairwise_append, current] at ordered
      have precedes := ordered.2.2 other earlier ready (mem_singleton.mpr rfl)
      exact (precedes.2 hardState held).2 metadata carried
    · obtain rfl := mem_singleton.mp same
      exact index_eq ▸ committing.restoring owner snapshot held
  case restoring =>
    intro other hardState appended
    cases appended
  case floor =>
    intro other hardState member held
    simp only [pending, waiting, queue_nil, lost_nil, Work.tasks, Owner.current,
      nil_append, mem_singleton] at member
    subst member
    have pending : other ∈ before.pending := by
      rw [pending, current]
      exact mem_append_right _ (mem_singleton.mpr rfl)
    have covers := (committing.floor pending held).2
    refine ⟨show store.core.hardState.commit ≤ _ from ?_, covers⟩
    rw [commit_eq]
    exact index_eq ▸ covers
  case current =>
    refine .inl (.inl (show store.core.hardState.commit ≤ store.core.snapshotIndex from ?_))
    omega

lemma completed (ledger : Ledger before) (tails : Tails before) {tasks}
    {hardState} (persisting : before.work = .snapshots tasks [])
    (changed : lastHardState tasks = some hardState)
    (readies_eq : readies { before with
      store := before.store.setHardState hardState
      work := .waiting
      done := before.done ++ tasks } = before.readies) :
    Committing { before with
      store := before.store.setHardState hardState
      work := .waiting
      done := before.done ++ tasks } := by
  have working : before.work.tasks = tasks := by rw [persisting]; rfl
  obtain ⟨last, task, carried⟩ := lastHardState_mem changed
  have pending_eq : before.pending =
      tasks ++ (before.queue ++ before.lost ++ before.owner.current) := by
    simp [pending, working]
  have later : ∀ {ready}, ready ∈ before.queue ++ before.lost ++ before.owner.current →
      Precedes last ready := by
    intro ready member
    have ordered := ledger.ordered
    rw [Node.readies_eq, pending_eq, pairwise_append, pairwise_append] at ordered
    exact ordered.2.1.2.2 last task ready member
  constructor
  case total => exact committing.total
  case committed =>
    rw [readies_eq]
    exact committing.committed
  case restoring => exact committing.restoring
  case floor =>
    intro ready newer member held
    have member : ready ∈ before.queue ++ before.lost ++ before.owner.current := by
      simpa [pending, Work.tasks] using member
    have pending : ready ∈ before.pending := pending_eq ▸ mem_append_right _ member
    have covers := ((later member).2 hardState carried).1 newer held
    exact ⟨covers.2.2, (committing.floor pending held).2⟩
  case current =>
    change Settles before.store hardState.commit ∨
      ∃ source entry, source ∈ before.acknowledged ++ (before.done ++ tasks) ∧
        before.newest hardState.commit = some (source, entry)
    have member : last ∈ before.readies := by
      rw [Node.readies_eq, pending_eq]
      exact mem_append_right _ (mem_append_left _ task)
    rcases committing.committed member carried with
      ⟨owner, -⟩ | settles | ⟨source, entry, found, number_le⟩
    · have current : last ∈ before.owner.current := by
        rw [owner]
        exact mem_singleton.mpr rfl
      exact absurd (later (mem_append_right _ current)).1 (lt_irrefl _)
    · exact .inl settles
    · refine .inr ⟨source, entry, ?_, found⟩
      have source_mem := (tails.origin found).1
      rw [Node.readies_eq, pending_eq, ← append_assoc] at source_mem
      rw [← append_assoc]
      refine (mem_append.mp source_mem).resolve_right fun open_source => ?_
      exact absurd number_le (not_le.mpr (later open_source).1)

end

lemma pending_of_readies (readies_eq : after.readies = before.readies)
    (finished_eq : after.finished = before.finished) (member : ready ∈ after.pending) :
    ready ∈ before.pending := by
  rw [Node.readies_eq, Node.readies_eq, finished_eq, append_cancel_left_eq] at readies_eq
  exact readies_eq ▸ member

lemma step {label} (committing : Committing before) (ledger : Ledger before) (tails : Tails before)
    (promised : Promised label before) (calm : Calm label before) (commits : Commits label before)
    (moved : Moved before label after) : Committing after := by
  have ledger_after := ledger.step promised moved
  have tails_after := tails.step ledger promised calm moved
  have readies_kept := ledger.readies_kept moved
  cases moved with
  | dropped => exact committing
  | took polling appended =>
    exact committing.took tails polling promised calm commits appended ledger_after tails_after
  | @passed restored ready owner bare =>
    have readies_eq : readies { before with owner := .installed ready } =
        before.readies := by
      simp [readies, handed, Owner.current, owner]
    refine committing.keep rfl readies_eq le_rfl le_rfl rfl rfl (fun {other} snapshot => ?_)
      (pending_of_readies readies_eq rfl) id
    constructor
    · intro same
      cases same
    · intro same
      rw [owner] at same
      cases same
      omega
  | outdated owner carried positive refused =>
    exact (Tails.not_outdated promised owner carried refused).elim
  | replaced owner carried positive installed =>
    obtain ⟨above, none_open, rfl⟩ := tails.installing owner carried positive promised calm
    exact committing.replaced ledger owner carried positive none_open above installed
  | inlined owner =>
    have readies_eq := readies_kept (by simp) (by simp)
    refine committing.keep rfl readies_eq le_rfl le_rfl rfl rfl (by simp [owner]) (fun member => ?_)
      (fun member => ?_)
    · rw [pending, Owner.current, append_nil] at member
      exact mem_append_left _ member
    · rcases mem_append.mp member with earlier | reported
      · exact mem_append_left _ (mem_append_left _ earlier)
      · exact mem_append_right _ reported
  | orphaned owner | queued owner =>
    have readies_eq := readies_kept (by simp) (by simp)
    exact committing.keep rfl readies_eq le_rfl le_rfl rfl rfl (by simp [owner])
      (pending_of_readies readies_eq rfl) id
  | @acknowledged ready rest polling reported =>
    have readies_eq := readies_kept (by simp) (by simp)
    have finished_eq := finished_of_reported reported
    refine committing.keep rfl readies_eq le_rfl le_rfl rfl rfl (by simp)
      (pending_of_readies readies_eq finished_eq) fun {other} member => ?_
    change other ∈ before.acknowledged ++ [ready] ++ rest
    rw [finished_eq]
    exact member
  | copied received some_tail nonempty =>
    have readies_eq := readies_kept (by simp) (by simp)
    rw [copyPrefix_eq nonempty] at readies_eq ⊢
    exact committing.keep rfl readies_eq le_rfl le_rfl rfl rfl (by simp)
      (pending_of_readies readies_eq rfl) id
  | raised | persisted =>
    have readies_eq := readies_kept (by simp) (by simp)
    exact committing.keep rfl readies_eq le_rfl (le_max_left _ _) rfl rfl (by simp)
      (pending_of_readies readies_eq rfl) id
  | received | skipped | wrote | halted | removed | failed =>
    have readies_eq := readies_kept (by simp) (by simp)
    exact committing.keep rfl readies_eq le_rfl le_rfl rfl rfl (by simp)
      (pending_of_readies readies_eq rfl) id
  | kept persisting =>
    have readies_eq := readies_kept (by simp) (by simp)
    refine committing.keep rfl readies_eq le_rfl le_rfl rfl rfl (by simp) (fun member => ?_)
      (fun member => ?_)
    · simp only [pending, persisting, Work.tasks, nil_append,
        append_assoc] at member ⊢
      exact mem_append_right _ member
    · rw [finished, ← append_assoc]
      exact mem_append_left _ member
  | completed persisting changed =>
    exact committing.completed ledger tails persisting changed (readies_kept (by simp) (by simp))

lemma current_le (committing : Committing before) (tails : Tails before) :
    before.store.core.hardState.commit ≤
        max before.store.core.durableLastIndex before.store.core.snapshotIndex ∧
      before.store.core.hardState.commit ≤ before.store.lastIndex := by
  have marker_le : before.store.core.snapshotIndex ≤ before.store.lastIndex :=
    tails.log.covered.snapshot_le
  rcases committing.current with covered | ⟨source, entry, member, found⟩
  · unfold Settles at covered
    omega
  · exact ⟨tails.finished member found, (tails.origin found).2.2.2⟩

end Committing

/-- What compaction and a snapshot for a follower leave: the same log with a shorter past. -/
structure Trims (store after : Store) : Prop where
  log : Storage.Invariant after
  worker : after.worker = store.worker
  hardState : after.core.hardState = store.core.hardState
  durable : after.core.durableLastIndex = store.core.durableLastIndex
  last : after.lastIndex = store.lastIndex
  marker_le : store.core.snapshotIndex ≤ after.core.snapshotIndex
  inEngine : ∀ {index}, after.layout.InEngine index → store.layout.InEngine index

lemma Trims.of_record {index} (term : Nat) (log : Storage.Invariant store)
    (condition : ∀ first ∈ store.copiedFirst, index < first)
    (snapshot_le : store.core.snapshotIndex ≤ index) (le_last : index ≤ store.lastIndex) :
    Trims store (store.recordSnapshot index term) := by
  obtain ⟨layout_eq, -⟩ := recordSnapshot_spec term log.pending snapshot_le le_last
  obtain ⟨hard_eq, durable_eq, -, marker_eq⟩ := recordSnapshot_core store index term
  constructor
  case log => exact log.record condition snapshot_le le_last
  case worker => rfl
  case hardState => exact hard_eq
  case durable => exact durable_eq
  case last => exact recordSnapshot_lastIndex term snapshot_le le_last
  case marker_le => exact marker_eq ▸ le_max_left _ _
  case inEngine =>
    intro inside_index inside
    rw [layout_eq] at inside
    exact inside.of_record log.covered

lemma Trims.of_compact {after compactIndex} (log : Storage.Invariant store)
    (condition : Undisturbed (.compact compactIndex) store)
    (taken : store.compact compactIndex = .ok after) : Trims store after := by
  have log_after := log.compact condition taken
  rcases compact_eq taken with rfl | ⟨-, rfl⟩ <;>
    exact ⟨log_after, rfl, rfl, rfl, rfl, le_rfl, id⟩

section

variable {before : Node} {after : Store} (trims : Trims before.store after)
include trims

lemma Ledger.trimmed (ledger : Ledger before) : Ledger { before with store := after } where
  __ := ledger
  phase := trims.worker.symm ▸ ledger.phase

lemma Tails.trimmed (tails : Tails before) : Tails { before with store := after } := by
  have marker_le := trims.marker_le
  constructor
  case log => exact trims.log
  case alone => exact tails.alone
  case origin =>
    intro index ready entry found
    obtain ⟨member, held, index_eq, within⟩ := tails.origin found
    exact ⟨member, held, index_eq, trims.last.symm ▸ within⟩
  case passed => exact tails.passed
  case settled =>
    intro index inside
    change index ≤ after.core.durableLastIndex ∨ (∃ last, after.worker = .removed last ∧ _) ∨
      after.worker = .halted
    rw [trims.durable, trims.worker]
    exact tails.settled (trims.inEngine inside)
  case finished =>
    intro index ready entry member found
    have reached := tails.finished member found
    change index ≤ max after.core.durableLastIndex after.core.snapshotIndex
    rw [trims.durable]
    omega
  case drained =>
    intro index ready entry member found
    have reached := tails.drained member found
    change index ≤ max (max after.core.durableLastIndex after.core.snapshotIndex)
      (reach after.worker)
    rw [trims.durable, trims.worker]
    omega

lemma Committing.trimmed (committing : Committing before) :
    Committing { before with store := after } :=
  committing.keep rfl rfl trims.marker_le (le_of_eq trims.durable.symm) trims.last trims.hardState
    (fun _ => Iff.rfl) id id

end

end Catga.Raft.Persist
