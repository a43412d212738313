import Catga.Raft.PersistCommit

/-!
# Images that raft-rs can start from

The companion file is written by the worker and by provider snapshots, raft-engine by the drain and
by compaction.  The commit index in the file stays between the first and the last index that a
restart finds as long as nothing is discarded above it and no snapshot is pending when older state
is written.
-/

namespace Catga.Raft.Persist

open Foundation Transition Storage Store List

variable {store : Store} {compactIndex : Nat}

/-- raft-rs can start: a fresh state, or a commit index inside the log. -/
def Startable (reopened : Store) : Prop :=
  (reopened.core.hardState = PersistedCore.default.hardState ∧
      reopened.lastIndex + 1 = reopened.firstIndex) ∨
    (reopened.firstIndex - 1 ≤ reopened.core.hardState.commit ∧
      reopened.core.hardState.commit ≤ reopened.lastIndex ∧
      reopened.core.snapshotIndex ≤ reopened.core.hardState.commit)
deriving Decidable

/-- A snapshot leaves no entries in raft-engine, and a batch is written to raft-engine only while
the file has the current marker. -/
def InStep : Label → Node → Prop
  | .install _, node =>
    ∀ ready ∈ node.owner.current, 0 < ready.snapshotIndex →
      node.store.engine.entries = [] ∨ node.store.engine.bound ≤ ready.snapshotIndex + 1
  | .proceed, node =>
    ∀ _first ∈ node.store.copiedFirst,
      node.store.file.snapshotIndex = node.store.core.snapshotIndex
  | _, _ => True

/-- Snapshots wait for the worker, and nothing is discarded above the commit index in the file. -/
def Guarded : Duty → Node → Prop
  | .persist label, node => Calm label node ∧ InStep label node
  | .providerSnapshot applied requestIndex, node =>
    node.store.file.snapshotIndex = node.store.core.snapshotIndex ∧
      max applied requestIndex ≤ node.store.file.hardState.commit ∧
      ∀ first ∈ node.store.copiedFirst, max applied requestIndex < first
  | .compact compactIndex, node =>
    compactIndex ≤ node.store.file.hardState.commit + 1 ∧
      (node.store.engine.entries = [] ∨ compactIndex < node.store.engine.bound)

instance : ∀ label node, Decidable (InStep label node) := by
  rintro ⟨⟩ node <;> dsimp only [InStep] <;> infer_instance

instance : ∀ duty node, Decidable (Guarded duty node) := by
  rintro ⟨⟩ node <;> dsimp only [Guarded] <;> infer_instance

/-- What the files say about the commit index. -/
structure Imaged (node : Node) : Prop where
  marker_le : node.store.core.snapshotIndex ≤ node.store.core.hardState.commit
  file_marker_le : node.store.file.snapshotIndex ≤ node.store.file.hardState.commit
  file_le : node.store.file.hardState.commit ≤ node.store.core.hardState.commit
  durable : node.store.file.hardState.commit ≤ node.store.core.durableLastIndex
  tail : node.store.file.hardState.commit ≤ node.store.file.lastValidIndex
  one_tail : node.store.file.lastValidIndex = node.store.file.durableLastIndex
  visible : node.store.lastIndex = node.store.core.lastValidIndex
  first : node.store.engine.entries ≠ [] →
    node.store.engine.first ≤ node.store.file.hardState.commit + 1
  synced : (node.store.file.snapshotIndex = node.store.core.snapshotIndex ∧
      node.store.file.hardState = node.store.core.hardState ∧
      node.store.core.snapshotIndex ≤ node.store.core.durableLastIndex) ∨
    Behind node ∧ node.store.core.hardState.commit = node.store.core.snapshotIndex

/-- raft-engine holds every index that the reopened storage calls its log. -/
def Unbroken (reopened : Store) : Prop :=
  reopened.core.snapshotIndex ≤ reopened.lastIndex ∧
    (reopened.engine.entries = [] → reopened.lastIndex = reopened.core.snapshotIndex) ∧
    (reopened.engine.entries ≠ [] → reopened.core.snapshotIndex < reopened.engine.first ∧
      reopened.engine.first ≤ reopened.lastIndex + 1 ∧
      reopened.lastIndex < reopened.engine.bound)
deriving Decidable

lemma Unbroken.log {reopened} (unbroken : Unbroken reopened)
    (overlay : reopened.overlay = .empty) (idle : reopened.worker = .idle) :
    Storage.Invariant reopened := by
  obtain ⟨marker_le, bare, stored⟩ := unbroken
  have none_pending : reopened.layout.pending = 0 := by rw [Store.layout, overlay]; rfl
  have some_stored : 0 < reopened.layout.stored → reopened.engine.entries ≠ [] :=
    length_pos_iff.mp
  refine ⟨?_, by rw [overlay]; exact Segment.nil, by rw [idle]; trivial⟩
  constructor
  case snapshot_le => exact marker_le
  case pending_ends => exact fun pending => by omega
  case stored_starts =>
    exact fun some => ⟨(stored (some_stored some)).1, (stored (some_stored some)).2.1⟩
  case joined => exact fun pending => by omega
  case pending_alone => exact fun pending => by omega
  case stored_alone => exact fun _ some => (stored (some_stored some)).2.2
  case bare => exact fun _ none_stored => bare (length_eq_zero_iff.mp none_stored)

/-- A storage just opened on files from which raft-rs can start. -/
structure Loaded (store : Store) : Prop extends Opened store where
  recorded : store.file = store.core
  marker_le : store.core.snapshotIndex ≤ store.core.hardState.commit
  durable : store.core.hardState.commit ≤ store.core.durableLastIndex
  first : store.engine.entries ≠ [] → store.engine.first ≤ store.core.hardState.commit + 1

lemma Loaded.init (bootstrapConfState : Option ConfState) :
    Loaded (Store.init bootstrapConfState) :=
  { Opened.init bootstrapConfState with
    recorded := rfl
    marker_le := le_rfl
    durable := le_rfl
    first := fun stored => absurd rfl stored }

lemma Loaded.visible (loaded : Loaded store) : store.lastIndex = store.core.lastValidIndex := by
  have marker_le := loaded.marker_le
  have durable := loaded.durable
  have one_tail := loaded.one_tail
  unfold Store.lastIndex
  split_ifs
  · rfl
  · omega

namespace Imaged

variable {before after : Node}

lemma commit_le_lastIndex (imaged : Imaged before) (bootstrapConfState : Option ConfState) :
    (before.reopen bootstrapConfState).core.hardState.commit ≤
      (before.reopen bootstrapConfState).lastIndex := by
  have tail := imaged.tail
  rw [Node.reopen, open_hardState, Store.lastIndex, open_lastValidIndex, open_snapshotIndex]
  split_ifs
  · exact tail
  · omega

lemma startable (imaged : Imaged before) (bootstrapConfState : Option ConfState) :
    Startable (before.reopen bootstrapConfState) := by
  refine .inr ⟨?_, imaged.commit_le_lastIndex bootstrapConfState, ?_⟩
  · rw [Node.reopen, open_hardState, Store.firstIndex, open_engine, open_snapshotIndex,
      EngineLog.firstIndex]
    have file_marker_le := imaged.file_marker_le
    split_ifs with empty
    · exact file_marker_le
    · have first := imaged.first empty
      rw [Option.getD_some]
      omega
  · rw [Node.reopen, open_hardState, open_snapshotIndex]
    exact imaged.file_marker_le

/-- Events that write neither the file nor raft-engine and keep marker and hard state. -/
lemma keep (imaged : Imaged before) {moved}
    (file : moved.store.file = before.store.file)
    (engine : moved.store.engine = before.store.engine)
    (marker : moved.store.core.snapshotIndex = before.store.core.snapshotIndex)
    (hard : moved.store.core.hardState = before.store.core.hardState)
    (durable_le : before.store.core.durableLastIndex ≤ moved.store.core.durableLastIndex)
    (visible : moved.store.lastIndex = moved.store.core.lastValidIndex)
    (behind : Behind before → Behind moved) : Imaged moved := by
  constructor
  case marker_le => rw [marker, hard]; exact imaged.marker_le
  case file_marker_le => rw [file]; exact imaged.file_marker_le
  case file_le => rw [file, hard]; exact imaged.file_le
  case durable => rw [file]; exact le_trans imaged.durable durable_le
  case tail => rw [file]; exact imaged.tail
  case one_tail => rw [file]; exact imaged.one_tail
  case visible => exact visible
  case first => rw [file, engine]; exact imaged.first
  case synced =>
    rw [file, marker, hard]
    refine imaged.synced.imp (fun ⟨same, state, le⟩ => ?_) (fun ⟨pending, commit⟩ => ?_)
    · exact ⟨same, state, le_trans le durable_le⟩
    · exact ⟨behind pending, commit⟩

lemma rewritten {node} (file : node.store.file = node.store.core.image)
    (marker_le : node.store.core.snapshotIndex ≤ node.store.core.hardState.commit)
    (durable : node.store.core.hardState.commit ≤ node.store.core.durableLastIndex)
    (within : node.store.core.hardState.commit ≤ node.store.lastIndex)
    (visible : node.store.lastIndex = node.store.core.lastValidIndex)
    (first : node.store.engine.entries ≠ [] →
      node.store.engine.first ≤ node.store.core.hardState.commit + 1) : Imaged node := by
  constructor
  case marker_le => exact marker_le
  case file_marker_le => rw [file]; exact marker_le
  case file_le => rw [file]; exact le_rfl
  case durable => rw [file]; exact durable
  case tail => rw [file]; exact Nat.le_min.mpr ⟨durable, visible ▸ within⟩
  case one_tail => rw [file]; rfl
  case visible => exact visible
  case first => rw [file]; exact first
  case synced => exact .inl ⟨by rw [file]; rfl, by rw [file]; rfl, le_trans marker_le durable⟩

lemma start (loaded : Loaded store) : Imaged (Node.start store) := by
  refine rewritten ?_ loaded.marker_le loaded.durable ?_ loaded.visible loaded.first
  · change store.file = store.core.image
    rw [loaded.recorded, PersistedCore.image_eq loaded.one_tail]
  · change store.core.hardState.commit ≤ store.lastIndex
    rw [loaded.visible, loaded.one_tail]
    exact loaded.durable

variable (imaged : Imaged before) {tasks : List Ready}
include imaged

lemma wrote (tails : Tails before) {drained engine}
    (copied : before.store.worker = .copied drained)
    (written : before.store.engine.addEntries drained = some engine)
    (in_step : InStep .proceed before)
    (behind : Behind before → Behind { before with
      store := { before.store with engine, worker := .written drained } }) :
    Imaged { before with store := { before.store with engine, worker := .written drained } } := by
  have batch := tails.log.draining
  rw [copied] at batch
  obtain ⟨start, nonempty, segment, writable⟩ := batch
  have reaches : before.store.engine.entries ≠ [] → start ≤ before.store.engine.bound :=
    fun stored => writable.reaches (length_pos_iff.mpr stored)
  obtain ⟨result, result_eq, shape⟩ := EngineLog.addEntries_spec nonempty segment reaches
  cases written.symm.trans result_eq
  obtain ⟨head, tail, rfl⟩ := exists_cons_of_ne_nil nonempty
  have current := in_step head.index (by simp [copied])
  have first : engine.first ≤ before.store.file.hardState.commit + 1 := by
    have file_marker_le := imaged.file_marker_le
    by_cases empty : before.store.engine.entries = []
    · rw [if_pos (.inl empty)] at shape
      have first_write : start = before.store.core.snapshotIndex + 1 :=
        writable.first_write (by simp [Store.layout, empty])
      omega
    · have stored_first := imaged.first empty
      split_ifs at shape with fresh
      · have below := fresh.resolve_left empty
        omega
      · omega
  exact { imaged with
    first := fun _ => first, synced := imaged.synced.imp_right (And.imp_left behind) }

lemma replaced (ledger : Ledger before) {ready metadata}
    (carried : ready.snapshot = some metadata) (positive : 0 < metadata.index)
    (none_open : before.persistInFlight = 0)
    (above : before.store.core.snapshotIndex < metadata.index)
    (commit_le : before.store.core.hardState.commit ≤ metadata.index)
    (emptied : before.store.engine.entries = [] ∨ before.store.engine.bound ≤ metadata.index + 1)
    (installed : before.store.applySnapshotVisible metadata.index metadata.term
      metadata.confState = .ok store) :
    Imaged (before.restored store ready metadata.index) := by
  have file_le : before.store.file.snapshotIndex ≤ before.store.core.snapshotIndex := by
    rcases imaged.synced with ⟨same, -⟩ | ⟨behind, -⟩
    · exact le_of_eq same
    · exact le_of_lt behind.older
  have behind := Behind.of_installed ledger carried positive none_open above file_le installed
  obtain rfl := applySnapshotVisible_eq above installed
  have nothing_stored : (before.store.engine.compactTo (metadata.index + 1)).entries = [] := by
    refine drop_eq_nil_iff.mpr ?_
    rcases emptied with empty | below
    · rw [empty]
      exact Nat.zero_le _
    · unfold EngineLog.bound at below
      omega
  exact ⟨le_rfl, imaged.file_marker_le, le_trans imaged.file_le commit_le,
    imaged.durable, imaged.tail, imaged.one_tail, if_pos positive,
    fun stored => absurd nothing_stored stored, .inr ⟨behind, rfl⟩⟩

lemma persisted (ledger : Ledger before) (tails : Tails before) (committing : Committing before)
    {index rest} (persisting : before.work = .snapshots tasks (index :: rest)) :
    Imaged { before with
      store := before.store.persistSnapshotState index, work := .snapshots tasks rest } := by
  obtain ⟨-, within⟩ := committing.current_le tails
  have file_le := imaged.file_le
  have durable_eq : (before.store.persistSnapshotState index).core.durableLastIndex =
      max before.store.core.durableLastIndex index := rfl
  refine rewritten rfl imaged.marker_le ?_ within imaged.visible fun stored => ?_
  · change before.store.core.hardState.commit ≤ _
    rw [durable_eq]
    rcases imaged.synced with ⟨-, state, -⟩ | ⟨behind, commit⟩
    · have durable := imaged.durable
      rw [state] at durable
      omega
    · have working : before.work.tasks = tasks := by rw [persisting]; rfl
      obtain ⟨others, cons⟩ := behind.snapshotIndexes_eq ledger working (by simp [persisting])
      rw [← behind.unpersisted persisting] at cons
      rw [(List.cons.inj cons).1]
      omega
  · exact le_trans (imaged.first stored) (Nat.succ_le_succ file_le)

lemma completed (ledger : Ledger before) (committing : Committing before) {hardState}
    (persisting : before.work = .snapshots tasks [])
    (changed : Node.lastHardState tasks = some hardState)
    (committing_after : Committing { before with
      store := before.store.setHardState hardState, work := .waiting
      done := before.done ++ tasks })
    (tails_after : Tails { before with
      store := before.store.setHardState hardState
      work := .waiting
      done := before.done ++ tasks }) :
    Imaged { before with
      store := before.store.setHardState hardState
      work := .waiting
      done := before.done ++ tasks } := by
  obtain ⟨-, -, settled⟩ := imaged.synced.resolve_right fun ⟨behind, _⟩ =>
    behind.not_finishing ledger persisting
  obtain ⟨durable, within⟩ := committing_after.current_le tails_after
  have durable : hardState.commit ≤
      max before.store.core.durableLastIndex before.store.core.snapshotIndex := durable
  obtain ⟨last, task, carried⟩ := lastHardState_mem changed
  have pending : last ∈ before.pending := by
    rw [Node.pending, persisting]
    exact mem_append_left _ (mem_append_left _ (mem_append_left _ task))
  have rising := (committing.floor pending carried).1
  refine rewritten rfl (le_trans imaged.marker_le rising) ?_ within imaged.visible
    fun stored => ?_
  · change hardState.commit ≤ before.store.core.durableLastIndex
    omega
  · have first := imaged.first stored
    have file_le := imaged.file_le
    change before.store.engine.first ≤ hardState.commit + 1
    omega

lemma visible_took (tails : Tails before) {ready}
    (promised : Promised (.take ready) before) (calm : Calm (.take ready) before)
    (appended : before.store.appendVisible ready.entries = .ok store) :
    store.lastIndex = store.core.lastValidIndex := by
  cases entries : ready.entries with
  | nil =>
    rw [entries] at appended
    cases appended
    exact imaged.visible
  | cons head =>
    obtain ⟨segment, above, -⟩ := (tails.called promised calm entries).1 head rfl
    obtain ⟨-, -, marker_eq⟩ := appendVisible_frame appended
    rw [entries] at appended
    have last_eq := lastIndex_of_append segment appended
    unfold Store.lastIndex at last_eq ⊢
    split_ifs at last_eq ⊢
    · rfl
    · omega

lemma step {label} (ledger : Ledger before) (tails : Tails before) (committing : Committing before)
    (promised : Promised label before) (commits : Commits label before) (calm : Calm label before)
    (in_step : InStep label before) (moved : Moved before label after) : Imaged after := by
  have committing_after := committing.step ledger tails promised calm commits moved
  have tails_after := tails.step ledger promised calm moved
  have behind_kept : after.store.file = before.store.file → Behind before → Behind after :=
    fun file_eq behind => behind.of_file ledger tails promised calm moved file_eq
  cases moved with
  | dropped => exact imaged
  | took polling appended =>
    obtain ⟨engine_eq, file_eq, marker_eq⟩ := appendVisible_frame appended
    exact imaged.keep file_eq engine_eq marker_eq (appendVisible_hardState appended)
      (le_of_eq (appendVisible_durable appended).symm)
      (imaged.visible_took tails promised calm appended) (behind_kept file_eq)
  | outdated owner carried positive refused =>
    exact (Tails.not_outdated promised owner carried refused).elim
  | @replaced restored ready metadata store owner carried positive installed =>
    obtain ⟨above, none_open, rfl⟩ := tails.installing owner carried positive promised calm
    have current : ready ∈ before.owner.current := by
      rw [owner]
      exact mem_singleton.mpr rfl
    have index_eq := Ready.snapshotIndex_eq carried
    have emptied := in_step ready current (index_eq ▸ positive)
    rw [index_eq] at emptied
    exact imaged.replaced ledger carried positive none_open above
      (commits ready current metadata carried) emptied installed
  | copied received some_tail nonempty =>
    rw [copyPrefix_eq nonempty] at behind_kept ⊢
    exact imaged.keep rfl rfl rfl rfl le_rfl imaged.visible (behind_kept rfl)
  | wrote draining copied written =>
    exact imaged.wrote tails copied written in_step (behind_kept rfl)
  | raised =>
    exact imaged.keep rfl rfl rfl rfl (le_max_left _ _) imaged.visible (behind_kept rfl)
  | persisted persisting => exact imaged.persisted ledger tails committing persisting
  | completed persisting changed =>
    exact imaged.completed ledger committing persisting changed committing_after tails_after
  | _ => exact imaged.keep rfl rfl rfl rfl le_rfl imaged.visible (behind_kept rfl)

lemma provided (tails : Tails before) (committing : Committing before)
    {applied requestIndex term}
    (guarded : Guarded (.providerSnapshot applied requestIndex) before)
    (trims : Trims before.store (before.store.recordSnapshot (max applied requestIndex) term)) :
    Imaged { before with
      store := before.store.recordSnapshot (max applied requestIndex) term } := by
  obtain ⟨one_marker, index_le, -⟩ := guarded
  obtain ⟨-, state, -⟩ := imaged.synced.resolve_right fun ⟨behind, _⟩ =>
    absurd one_marker (Nat.ne_of_lt behind.older)
  obtain ⟨-, -, tail_eq, marker_eq⟩ :=
    recordSnapshot_core before.store (max applied requestIndex) term
  have durable := imaged.durable
  rw [state] at durable index_le
  obtain ⟨-, within⟩ := (committing.trimmed trims).current_le (tails.trimmed trims)
  have marker_le :
      (before.store.recordSnapshot (max applied requestIndex) term).core.snapshotIndex ≤
      before.store.core.hardState.commit := by
    rw [marker_eq]
    exact Nat.max_le.mpr ⟨imaged.marker_le, index_le⟩
  rw [← trims.hardState] at marker_le durable
  rw [← trims.durable] at durable
  refine rewritten rfl marker_le durable within
    (trims.last.trans (imaged.visible.trans tail_eq.symm)) fun stored => ?_
  have first := imaged.first
  rw [state, ← trims.hardState] at first
  rw [← trims.hardState] at index_le
  exact EngineLog.first_compactTo_le (Nat.succ_le_succ index_le) first stored

lemma compacted (bound : compactIndex ≤ before.store.file.hardState.commit + 1) :
    Imaged { before with
      store := { before.store with engine := before.store.engine.compactTo compactIndex } } := by
  refine { imaged with first := fun stored => ?_, synced := imaged.synced.imp_right ?_ }
  · exact EngineLog.first_compactTo_le bound imaged.first stored
  · rintro ⟨behind, commit⟩
    exact ⟨{ behind with }, commit⟩

end Imaged

/-- What holds between two duties. -/
structure Bootable (node : Node) : Prop where
  ledger : Ledger node
  tails : Tails node
  committing : Committing node
  imaged : Imaged node

namespace Bootable

variable {before after : Node}

lemma start (loaded : Loaded store) : Bootable (Node.start store) where
  ledger := .start loaded.idle
  tails := .start loaded.toOpened
  committing := .start loaded.toOpened
    (.inr ⟨loaded.durable, loaded.visible ▸ loaded.one_tail ▸ loaded.durable⟩)
  imaged := .start loaded

variable (bootable : Bootable before)
include bootable

lemma persist {label} (promised : Promised label before) (commits : Commits label before)
    (calm : Calm label before) (in_step : InStep label before)
    (taken : step label before = some after) : Bootable after := by
  have moved := step_moved taken
  exact {
    ledger := bootable.ledger.step promised moved
    tails := bootable.tails.step bootable.ledger promised calm moved
    committing :=
      bootable.committing.step bootable.ledger bootable.tails promised calm commits moved
    imaged := bootable.imaged.step bootable.ledger bootable.tails bootable.committing promised
      commits calm in_step moved }

lemma provider {applied requestIndex}
    (guarded : Guarded (.providerSnapshot applied requestIndex) before) :
    Bootable { before with
      store := (before.store.providerSnapshot applied requestIndex).getD before.store } := by
  cases provided : before.store.providerSnapshot applied requestIndex with
  | none => exact bootable
  | some =>
    obtain ⟨term, rfl, snapshot_le, le_last⟩ := bootable.tails.log.provided provided
    have trims := Trims.of_record term bootable.tails.log guarded.2.2 snapshot_le le_last
    exact {
      ledger := bootable.ledger.trimmed trims
      tails := bootable.tails.trimmed trims
      committing := bootable.committing.trimmed trims
      imaged := bootable.imaged.provided bootable.tails bootable.committing guarded trims }

lemma compact (guarded : Guarded (.compact compactIndex) before) :
    Bootable { before with store := before.store.settle (before.store.compact compactIndex) } := by
  cases compacted : before.store.compact compactIndex with
  | error => exact bootable
  | ok =>
    have trims := Trims.of_compact bootable.tails.log guarded.2 compacted
    rcases compact_eq compacted with rfl | ⟨-, rfl⟩
    · exact bootable
    · exact {
        ledger := bootable.ledger.trimmed trims
        tails := bootable.tails.trimmed trims
        committing := bootable.committing.trimmed trims
        imaged := bootable.imaged.compacted guarded.1 }

/-- Every guarded duty keeps the files in a state from which raft-rs can start. -/
lemma perform {duty} (admitted : Admitted duty before) (guarded : Guarded duty before)
    (taken : perform duty before = some after) : Bootable after := by
  cases duty with
  | persist =>
    exact bootable.persist admitted.1 admitted.2 guarded.1 guarded.2 taken
  | providerSnapshot =>
    simp only [Persist.perform] at taken
    split_ifs at taken with polling
    cases taken
    exact bootable.provider guarded
  | compact =>
    simp only [Persist.perform] at taken
    split_ifs at taken with polling
    cases taken
    exact bootable.compact guarded

/-- A restart that finds a log without a hole starts from such files again. -/
lemma reopened (bootstrapConfState : Option ConfState)
    (unbroken : Unbroken (before.reopen bootstrapConfState)) :
    Loaded (before.reopen bootstrapConfState) := by
  have imaged := bootable.imaged
  have log := unbroken.log (open_overlay ..) (open_worker ..)
  rw [Node.reopen] at log ⊢
  constructor
  case toOpened =>
    refine ⟨log, open_worker .., open_overlay .., ?_, ?_⟩
    · rw [open_lastValidIndex, open_durableLastIndex]
      exact imaged.one_tail
    · rw [open_file_snapshotIndex, open_snapshotIndex]
  case recorded => exact open_file _ _ _ imaged.one_tail
  case marker_le =>
    rw [open_snapshotIndex, open_hardState]
    exact imaged.file_marker_le
  case durable =>
    rw [open_hardState, open_durableLastIndex, ← imaged.one_tail]
    exact imaged.tail
  case first =>
    rw [open_engine, open_hardState]
    exact imaged.first

end Bootable

/-- The storages a runtime can start with: a new one, or the files that an earlier guarded run left
behind, if the log they hold is unbroken. -/
inductive Booted : Store → Prop
  | created (bootstrapConfState : Option ConfState) : Booted (Store.init bootstrapConfState)
  | restarted {store : Store} {duties crashed} :
      Booted store →
      Runs perform (fun duty node => Admitted duty node ∧ Guarded duty node) (Node.start store)
        duties crashed →
      ∀ bootstrapConfState, Unbroken (crashed.reopen bootstrapConfState) →
        Booted (crashed.reopen bootstrapConfState)

lemma bootable_of_run {duties finish} (loaded : Loaded store)
    (run : Runs perform (fun duty node => Admitted duty node ∧ Guarded duty node)
      (Node.start store) duties finish) : Bootable finish :=
  run.invariant (Bootable.start loaded) fun bootable guard taken =>
    bootable.perform guard.1 guard.2 taken

lemma Booted.loaded (booted : Booted store) : Loaded store := by
  induction booted with
  | created bootstrapConfState => exact Loaded.init bootstrapConfState
  | restarted _ run bootstrapConfState unbroken loaded =>
    exact (bootable_of_run loaded run).reopened bootstrapConfState unbroken

/-- In every run, over any number of restarts, in which snapshots wait for the worker and leave no
entries in raft-engine, batches are written under the current marker, and nothing above the commit
index in the file is discarded, raft-rs can start from what a crash leaves. -/
theorem startable_of_guarded {store : Store} (booted : Booted store) {duties : List Duty}
    {crashed : Node}
    (run : Runs perform (fun duty node => Admitted duty node ∧ Guarded duty node)
      (Node.start store) duties crashed) (bootstrapConfState : Option ConfState) :
    Startable (crashed.reopen bootstrapConfState) :=
  (bootable_of_run booted.loaded run).imaged.startable bootstrapConfState

namespace Sample

/-- The owner takes a ready, installs it and hands it to the worker. -/
def handOver (ready : Ready) : List Duty :=
  [.persist (.take ready), .persist (.install true), .persist .send]

/-- The worker makes some steps on the batch it takes. -/
def work (more steps : Nat) : List Duty :=
  .persist (.receive more) :: List.replicate steps (.persist .proceed)

end Sample

open Sample

/-- Entries are committed and compacted away below the commit index, and a follower gets a
snapshot. -/
private def firstLife : List Duty :=
  handOver (logReady 1 0 [1, 2, 3, 4]) ++ work 0 5 ++ [.persist .acknowledge] ++
    handOver (logReady 2 3 []) ++ work 0 2 ++ [.persist .acknowledge] ++
    [.compact 2, .providerSnapshot 3 0]

/-- After the restart a snapshot arrives, and the worker crashes before it is persisted. -/
private def secondLife : List Duty := handOver (restoreReady 1 7 7 []) ++ work 0 1

/-- Compaction, a snapshot for a follower, a restart and an installed snapshot. -/
theorem startable_of_guarded_after_restart :
    ∃ crashed finish, Runs perform (fun duty node => Admitted duty node ∧ Guarded duty node)
        (Node.start (Store.init none)) firstLife crashed ∧
      Booted (crashed.reopen none) ∧ (crashed.reopen none).firstIndex = 4 ∧
      Runs perform (fun duty node => Admitted duty node ∧ Guarded duty node)
        (Node.start (crashed.reopen none)) secondLife finish ∧
      finish.store.core.snapshotIndex = 7 ∧ Startable (finish.reopen none) := by
  obtain ⟨crashed, run, unbroken, first, later⟩ := Runs.exists_of_execWhile perform
    (fun duty node => Admitted duty node ∧ Guarded duty node) (Node.start (Store.init none))
    firstLife
    (fun node => Unbroken (node.reopen none) ∧ (node.reopen none).firstIndex = 4 ∧
      (execWhile perform (fun duty node => Admitted duty node ∧ Guarded duty node) secondLife
        (Node.start (node.reopen none))).any
          fun finish => decide (finish.store.core.snapshotIndex = 7)) (by decide)
  have booted := Booted.restarted (Booted.created none) run none unbroken
  obtain ⟨finish, second, marker⟩ := Runs.exists_of_execWhile _ _ _ _ _ later
  exact ⟨crashed, finish, run, booted, first, second, marker,
    startable_of_guarded booted second none⟩

/-- Runs that end in files from which raft-rs cannot start. -/
private def unstartable : List (List Duty) :=
  [ -- The hard state of a ready is written after a later snapshot has become visible.
    handOver (logReady 1 0 [1]) ++ work 0 4 ++
      [.persist (.take (restoreReady 2 5 5 [])), .persist (.install true), .persist .proceed],
    -- A snapshot for a follower is recorded at an index whose commit is still to be persisted.
    handOver (logReady 1 0 [1, 2, 3]) ++ work 0 5 ++ [.persist .acknowledge] ++
      handOver (logReady 2 3 []) ++ [.providerSnapshot 3 0],
    -- The log is compacted there.
    handOver (logReady 1 0 [1, 2, 3]) ++ work 0 5 ++ [.persist .acknowledge] ++
      handOver (logReady 2 3 []) ++ [.compact 3],
    -- A snapshot leaves later entries in raft-engine.
    handOver (logReady 1 0 [1, 2, 3]) ++ work 0 5 ++ [.persist .acknowledge] ++
      [.persist (.take (restoreReady 2 2 2 [])), .persist (.install true)],
    -- The entries behind a snapshot are written before the snapshot is persisted.
    handOver (logReady 1 0 []) ++ work 0 2 ++ [.persist .acknowledge] ++
      handOver (restoreReady 2 5 5 []) ++ handOver (logReady 3 5 [6, 7]) ++ work 1 2,
    -- The entries that come with a snapshot are lost.
    handOver (restoreReady 1 5 6 [6]) ++ work 0 3 ]

theorem unstartable_images :
    unstartable.length = 6 ∧ ∀ duties ∈ unstartable, ∃ crashed,
      Runs perform Admitted (Node.start (Store.init none)) duties crashed ∧
        ¬Startable (crashed.reopen none) := by
  refine ⟨rfl, fun duties member => ?_⟩
  have executed : ∀ duties ∈ unstartable,
      (execWhile perform Admitted duties (Node.start (Store.init none))).any
        fun crashed => decide ¬Startable (crashed.reopen none) := by decide
  exact Runs.exists_of_execWhile _ _ _ _ _ (executed duties member)

end Catga.Raft.Persist
