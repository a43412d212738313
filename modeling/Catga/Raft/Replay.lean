import Catga.Raft.PersistAck
import Catga.Raft.PersistImage

/-!
# What a restart replays

A restarted runtime applies the entries between the first index and the commit index of its storage
to a fresh state machine.  Nothing restores what stood behind a discarded prefix: snapshot data is
handed to followers or to the running machine and never stored.  The replay is complete in runs that
discard nothing.
-/

namespace Catga.Raft.Persist

open Foundation Transition Storage Store List Node

/-- The state of a fresh machine after the entries that the reopened storage reports as committed;
none where the storage cannot serve them. -/
def replay {σ : Type*} (apply : σ → Entry → σ) (fresh : σ) (reopened : Store) : Option σ :=
  match reopened.entries reopened.firstIndex (reopened.core.hardState.commit + 1) with
  | .ok entries => some (entries.foldl apply fresh)
  | .error _ => none

namespace Node

/-- The entry of the replicated log at an index: the newest one raft-rs handed out, or the one that
the directory held when the runtime started. -/
def logged (opened : Store) (node : Node) (index : Nat) : Option Entry :=
  match node.newest index with
  | some (_, entry) => some entry
  | none => opened.engine.getEntry index

/-- The entries of the replicated log from the first one to a commit index. -/
def committed (opened : Store) (node : Node) (commit : Nat) : List Entry :=
  (range' 1 commit).filterMap (node.logged opened)

/-- The owner has left its loop, and the worker has emptied its queue and returned. -/
def Clean (node : Node) : Prop := node.owner = .polling ∧ node.queue = [] ∧ node.work = .waiting
deriving Decidable

end Node

/-- No snapshot arrives, none is built for a follower, and no compaction reaches past the first
index. -/
def Retains : Duty → Node → Prop
  | .persist (.take ready), _ => ready.snapshotIndex = 0
  | .persist _, _ => True
  | .providerSnapshot applied requestIndex, node =>
    applied = 0 ∨ node.store.lastIndex < max applied requestIndex
  | .compact compactIndex, node => compactIndex ≤ node.store.firstIndex

instance : ∀ duty node, Decidable (Retains duty node) := by
  rintro (⟨⟨⟩⟩ | _ | _) node <;> dsimp only [Retains] <;> infer_instance

/-- The whole log is still there: what this run has not replaced is as the run found it, in
raft-engine and below everything that is pending. -/
structure Inherits (opened : Store) (node : Node) : Prop where
  bare : ∀ {ready}, ready ∈ node.readies → ready.snapshotIndex = 0
  marker : node.store.core.snapshotIndex = 0
  file_marker : node.store.file.snapshotIndex = 0
  rising : opened.core.hardState.commit ≤ node.store.core.hardState.commit
  whole : node.store.engine.entries ≠ [] → node.store.engine.first = 1
  kept : ∀ {index}, node.newest index = none → 0 < index → index ≤ node.store.lastIndex →
    index ≤ opened.lastIndex ∧
      node.store.engine.getEntry index = opened.engine.getEntry index ∧
      (node.store.overlay.entries ≠ [] → index < node.store.overlay.offset) ∧
      ∀ first ∈ node.store.copiedFirst, index < first

/-- A storage just opened that holds the log from the first entry on. -/
structure Whole (store : Store) : Prop extends Loaded store where
  marker : store.core.snapshotIndex = 0
  first_one : store.engine.entries ≠ [] → store.engine.first = 1

variable {store : Store}

lemma Whole.getEntry (whole : Whole store) {index} (positive : 0 < index)
    (within : index ≤ store.lastIndex) : ∃ entry, store.engine.getEntry index = some entry := by
  have covered := whole.log.covered
  have none_pending : store.layout.pending = 0 := by rw [Store.layout, whole.overlay]; rfl
  have some_stored : 0 < store.layout.stored := by
    by_contra none_stored
    have last_eq : store.lastIndex = store.core.snapshotIndex :=
      covered.bare none_pending (by omega)
    have marker := whole.marker
    omega
  have last_lt : store.lastIndex < store.engine.bound :=
    covered.stored_alone none_pending some_stored
  have first_one := whole.first_one (length_pos_iff.mp some_stored)
  exact engine_getEntry (by omega) (by omega)

namespace Inherits

variable {opened : Store} {before after : Node} {label : Label}

lemma start (whole : Whole opened) : Inherits opened (Node.start opened) where
  bare member := by cases member
  marker := whole.marker
  file_marker := whole.one_marker.trans whole.marker
  rising := le_rfl
  whole := whole.first_one
  kept {index} _ _ within := by
    refine ⟨within, rfl, fun pending => absurd ?_ pending, fun first copied => ?_⟩
    · exact congrArg OverlayLog.entries whole.overlay
    · simp only [Store.copiedFirst, Node.start, whole.idle] at copied
      cases copied

variable (inherits : Inherits opened before)
include inherits

lemma calm (retains : Retains (.persist label) before) : Calm label before := by
  cases label with
  | take ready =>
    intro snapshot
    have bare : ready.snapshotIndex = 0 := retains
    omega
  | install =>
    intro ready current snapshot
    have bare := inherits.bare (mem_append_right _ current)
    omega
  | _ => trivial

lemma in_step : InStep label before := by
  cases label with
  | install =>
    intro ready current snapshot
    have bare := inherits.bare (mem_append_right _ current)
    omega
  | proceed =>
    intro first copied
    rw [inherits.file_marker, inherits.marker]
  | _ => trivial

lemma keep {moved} (bare : ∀ {ready}, ready ∈ moved.readies → ready.snapshotIndex = 0)
    (marker : moved.store.core.snapshotIndex = before.store.core.snapshotIndex)
    (file_marker : moved.store.file.snapshotIndex = 0)
    (rising : before.store.core.hardState.commit ≤ moved.store.core.hardState.commit)
    (engine : moved.store.engine = before.store.engine)
    (last : moved.store.lastIndex = before.store.lastIndex) (newest : moved.newest = before.newest)
    (overlay : moved.store.overlay.entries ≠ [] → before.store.overlay.entries ≠ [] ∧
      before.store.overlay.offset ≤ moved.store.overlay.offset)
    (copied : ∀ first ∈ moved.store.copiedFirst, first ∈ before.store.copiedFirst ∨
      before.store.overlay.entries ≠ [] ∧ before.store.overlay.offset ≤ first) :
    Inherits opened moved := by
  constructor
  case bare => exact bare
  case marker => exact marker.trans inherits.marker
  case file_marker => exact file_marker
  case rising => exact le_trans inherits.rising rising
  case whole =>
    rw [engine]
    exact inherits.whole
  case kept =>
    rw [newest, engine, last]
    intro index unreplaced positive within
    obtain ⟨opened_le, same, below, below_copied⟩ := inherits.kept unreplaced positive within
    refine ⟨opened_le, same, fun pending => ?_, fun first first_copied => ?_⟩
    · obtain ⟨pending, offset_le⟩ := overlay pending
      exact lt_of_lt_of_le (below pending) offset_le
    · rcases copied first first_copied with earlier | ⟨pending, offset_le⟩
      · exact below_copied first earlier
      · exact lt_of_lt_of_le (below pending) offset_le

lemma took {ready head tail}
    (entries : ready.entries = head :: tail)
    (called : Called (.appendVisible (head :: tail)) before.store)
    (appended : before.store.appendVisible (head :: tail) = .ok store)
    (bare : ∀ {other}, other ∈ readies (before.holding store ready) →
        other.snapshotIndex = 0) :
    Inherits opened (before.holding store ready) := by
  obtain ⟨segment, -, le_last⟩ := called head rfl
  have last_eq := lastIndex_of_append segment appended
  obtain ⟨-, overlay, extended, rfl⟩ := appendVisible_eq appended
  refine { inherits with bare, kept := ?_ }
  intro index unreplaced positive within
  have unreplaced := (appended_cons entries index).symm.trans unreplaced
  have within := le_trans within last_eq.le
  split_ifs at unreplaced with below
  · obtain ⟨opened_le, same, below_offset, below_copied⟩ :=
      inherits.kept unreplaced positive (by omega)
    refine ⟨opened_le, same, fun _ => ?_, below_copied⟩
    change index < overlay.offset
    rcases Held.offset_of_extend extended with start | ⟨pending, start⟩
    · rw [start]
      exact below
    · rw [start]
      exact below_offset pending
  · have inside : index - head.index < (head :: tail).length := by
      rw [length_cons]
      omega
    rw [getElem?_eq_getElem inside] at unreplaced
    cases unreplaced

lemma wrote (held : Held before) (tails : Tails before) {drained}
    {engine} (copied : before.store.worker = .copied drained)
    (written : before.store.engine.addEntries drained = some engine) :
    Inherits opened { before with
      store := { before.store with engine, worker := .written drained } } := by
  obtain ⟨start, nonempty, segment, writable, get_eq, first_eq⟩ :=
    held.getEntry_written tails copied written
  refine { inherits with whole := ?_, kept := ?_ }
  · intro _
    change engine.first = 1
    rw [first_eq]
    split_ifs with empty
    · have first_write := writable.first_write (by simp [Store.layout, empty])
      have marker : before.store.layout.snapshot = 0 := inherits.marker
      omega
    · exact inherits.whole empty
  · intro index unreplaced positive within
    obtain ⟨opened_le, same, below, below_copied⟩ := inherits.kept unreplaced positive within
    refine ⟨opened_le, ?_, below, fun first none_copied => by cases none_copied⟩
    obtain ⟨head, tail, rfl⟩ := exists_cons_of_ne_nil nonempty
    have below_start := below_copied head.index (by simp [copied])
    rw [segment.key_head] at below_start
    change engine.getEntry index = _
    rw [get_eq, if_pos below_start, same]

lemma step (bootable : Bootable before) (held : Held before) (promised : Promised label before)
    (retains : Retains (.persist label) before) (moved : Moved before label after) :
    Inherits opened after := by
  have calm := inherits.calm retains
  have bare : ∀ {ready}, ready ∈ after.readies → ready.snapshotIndex = 0 := by
    intro ready member
    rcases bootable.ledger.readies_of_moved moved with same | dropped | ⟨taken, rfl, added⟩
    · exact inherits.bare (same ▸ member)
    · exact inherits.bare (mem_append_left _ (dropped ▸ member))
    · rw [added] at member
      rcases mem_append.mp member with earlier | new
      · exact inherits.bare (mem_append_left _ earlier)
      · rw [mem_singleton.mp new]
        exact retains
  have carries_none : ∀ {ready metadata}, before.owner = .appended ready →
      ready.snapshot = some metadata → ¬0 < metadata.index := by
    intro ready metadata owner carried positive
    have none_carried := inherits.bare (mem_append_right before.handed
      (show ready ∈ before.owner.current by rw [owner]; exact mem_singleton.mpr rfl))
    simp only [Ready.snapshotIndex, carried, Option.map_some, Option.getD_some] at none_carried
    omega
  cases moved with
  | dropped => exact inherits
  | @took ready store polling appended =>
    cases entries : ready.entries with
    | nil =>
      rw [entries] at appended
      cases appended
      exact inherits.keep bare rfl inherits.file_marker le_rfl rfl rfl
        (appended_of_nil entries)
        (fun pending => ⟨pending, le_rfl⟩) (fun _ => .inl)
    | cons =>
      have called := (bootable.tails.called promised calm entries).1
      rw [entries] at appended
      exact inherits.took entries called appended bare
  | outdated owner carried positive | replaced owner carried positive =>
    exact absurd positive (carries_none owner carried)
  | copied received some_tail nonempty =>
    obtain ⟨head, tail, batch⟩ := exists_cons_of_ne_nil nonempty
    obtain ⟨starts, inside, -⟩ := copied_prefix bootable.tails.log.pending batch
    have pending : before.store.overlay.entries ≠ [] := by
      rw [← length_pos_iff]
      omega
    rw [copyPrefix_eq nonempty, batch] at bare ⊢
    refine inherits.keep bare rfl inherits.file_marker le_rfl rfl rfl rfl
      (fun pending => ⟨pending, le_rfl⟩) fun first copied => .inr ⟨pending, ?_⟩
    obtain rfl : head.index = first := by simpa using copied
    exact le_of_eq starts.symm
  | wrote draining copied written => exact inherits.wrote held bootable.tails copied written
  | removed =>
    exact inherits.keep bare rfl inherits.file_marker le_rfl rfl rfl rfl
      (Held.offset_of_removed bootable.tails.log.pending)
      (fun first none_copied => by cases none_copied)
  | raised | halted | failed =>
    exact inherits.keep bare rfl inherits.file_marker le_rfl rfl rfl rfl
      (fun pending => ⟨pending, le_rfl⟩) (fun first none_copied => by cases none_copied)
  | persisted =>
    exact inherits.keep bare rfl inherits.marker le_rfl rfl rfl rfl
      (fun pending => ⟨pending, le_rfl⟩) (fun _ => .inl)
  | @completed tasks hardState persisting changed =>
    obtain ⟨last, task, carried⟩ := lastHardState_mem changed
    have pending : last ∈ before.pending := by
      rw [pending, persisting]
      exact mem_append_left _ (mem_append_left _ (mem_append_left _ task))
    exact inherits.keep bare rfl inherits.marker (bootable.committing.floor pending carried).1
      rfl rfl rfl (fun pending => ⟨pending, le_rfl⟩) (fun _ => .inl)
  | _ =>
    exact inherits.keep bare rfl inherits.file_marker le_rfl rfl rfl rfl
      (fun pending => ⟨pending, le_rfl⟩) (fun _ => .inl)

lemma firstIndex_reopen (bootstrapConfState : Option ConfState) :
    (before.reopen bootstrapConfState).firstIndex = 1 := by
  rw [Store.firstIndex, reopen, open_engine, open_snapshotIndex,
    inherits.file_marker, EngineLog.firstIndex]
  split_ifs with empty
  · rfl
  · exact inherits.whole empty

end Inherits

lemma entries_of_logged {reopened : Store} {log commit}
    (empty : reopened.overlay.entries = []) (first_eq : reopened.firstIndex = 1)
    (within : commit ≤ reopened.lastIndex)
    (stored : ∀ {index}, 0 < index → index ≤ commit →
      ∃ entry, log index = some entry ∧ reopened.engine.getEntry index = some entry) :
    ∃ listed, reopened.entries 1 (commit + 1) = .ok listed ∧
      listed = (range' 1 commit).filterMap log ∧
      listed.map (·.index) = range' 1 commit := by
  obtain ⟨listed, listed_eq, at_position⟩ := entries_of_empty empty
    first_eq.le (Nat.succ_le_succ within) fun some_committed => by
      obtain ⟨_, -, first_held⟩ := stored Nat.one_pos (by omega)
      obtain ⟨_, -, last_held⟩ := stored (by omega) le_rfl
      exact ⟨(EngineLog.within_of_getEntry first_held).1,
        (EngineLog.within_of_getEntry last_held).2⟩
  have indexes : listed.map (·.index) = range' 1 commit :=
    map_key_of_getElem? at_position fun positive within => by
      obtain ⟨entry, -, held⟩ := stored positive (Nat.le_of_lt_succ within)
      exact ⟨entry, held, index_of_getEntry held⟩
  refine ⟨listed, listed_eq, ?_, indexes⟩
  rw [← indexes, filterMap_map]
  refine (filterMap_some.symm.trans (filterMap_congr fun entry mem => ?_))
  obtain ⟨position, found⟩ := mem_iff_getElem?.mp mem
  rw [at_position] at found
  split_ifs at found with inside
  obtain ⟨_, logged, held⟩ := stored (Nat.lt_of_lt_of_le Nat.one_pos (Nat.le_add_right 1 position))
    (Nat.le_of_lt_succ inside)
  cases held.symm.trans found
  rw [Function.comp_apply, index_of_getEntry held, logged]

/-- All that holds between two duties of a run that discards nothing. -/
structure Retained (opened : Store) (node : Node) : Prop where
  bootable : Bootable node
  held : Held node
  covering : Covering node
  inherits : Inherits opened node

namespace Retained

variable {opened : Store} {before after : Node}

lemma start (whole : Whole opened) : Retained opened (Node.start opened) where
  bootable := .start whole.toLoaded
  held := .start whole.toOpened
  covering member := by cases member
  inherits := .start whole

variable (retained : Retained opened before)
include retained

lemma perform {duty} (admitted : Admitted duty before) (retains : Retains duty before)
    (taken : perform duty before = some after) : Retained opened after := by
  obtain ⟨bootable, held, covering, inherits⟩ := retained
  cases duty with
  | persist =>
    have moved := step_moved taken
    have calm := inherits.calm retains
    exact {
      bootable := bootable.persist admitted.1 admitted.2 calm inherits.in_step taken
      held := held.step bootable.tails bootable.ledger admitted.1 calm moved
      covering := covering.step bootable.ledger bootable.tails admitted.1 calm moved
      inherits := inherits.step bootable held admitted.1 retains moved }
  | providerSnapshot applied requestIndex =>
    simp only [Persist.perform] at taken
    split_ifs at taken with polling
    cases taken
    have unavailable : before.store.providerSnapshot applied requestIndex = none := by
      unfold Store.providerSnapshot
      rcases retains with nothing | beyond
      · rw [if_pos nothing]
      · split
        · rfl
        · exact if_pos beyond
    rw [unavailable]
    exact ⟨bootable, held, covering, inherits⟩
  | compact compactIndex =>
    simp only [Persist.perform] at taken
    split_ifs at taken with polling
    cases taken
    have unchanged : before.store.compact compactIndex = .ok before.store := if_pos retains
    rw [unchanged]
    exact ⟨bootable, held, covering, inherits⟩

lemma finished_of_clean (clean : before.Clean) :
    before.readies = before.finished ∧
      before.store.file.hardState = before.store.core.hardState := by
  obtain ⟨polling, queue_nil, waiting⟩ := clean
  have lost_nil : before.lost = [] := by
    by_contra some_lost
    obtain ⟨tasks, stopped⟩ := retained.bootable.ledger.lost some_lost
    rw [waiting] at stopped
    cases stopped
  have pending_nil : before.pending = [] := by
    simp [pending, waiting, queue_nil, lost_nil, polling, Work.tasks, Owner.current]
  refine ⟨by rw [readies_eq, pending_nil, append_nil], ?_⟩
  refine (retained.bootable.imaged.synced.resolve_right fun behind => ?_).2.1
  obtain ⟨ready, rest, pending, -⟩ := behind.1.first
  rw [pending_nil] at pending
  cases pending

lemma commit_of_clean (clean : before.Clean) (bootstrapConfState : Option ConfState) :
    (before.reopen bootstrapConfState).core.hardState.commit =
      before.store.core.hardState.commit := by
  rw [reopen, open_hardState, (retained.finished_of_clean clean).2]

lemma logged_of_clean (whole : Whole opened) (clean : before.Clean) {index}
    (positive : 0 < index) (within : index ≤ before.store.lastIndex) :
    ∃ entry, before.logged opened index = some entry ∧
      before.store.engine.getEntry index = some entry := by
  cases found : before.newest index with
  | some newest =>
    obtain ⟨source, entry⟩ := newest
    have member := (retained.bootable.tails.origin found).1
    rw [(retained.finished_of_clean clean).1] at member
    refine ⟨entry, by simp [Node.logged, found], ?_⟩
    refine (retained.held.finished member found).resolve_left fun covered => ?_
    rw [retained.inherits.marker] at covered
    omega
  | none =>
    obtain ⟨opened_le, same, -, -⟩ := retained.inherits.kept found positive within
    obtain ⟨entry, held⟩ := whole.getEntry positive opened_le
    exact ⟨entry, by simp [Node.logged, found, held], same.trans held⟩

lemma entries_of_clean (whole : Whole opened) (clean : before.Clean)
    (bootstrapConfState : Option ConfState) :
    ∃ listed, (before.reopen bootstrapConfState).entries
        (before.reopen bootstrapConfState).firstIndex
        ((before.reopen bootstrapConfState).core.hardState.commit + 1) = .ok listed ∧
      listed = before.committed opened (before.reopen bootstrapConfState).core.hardState.commit ∧
      listed.map (·.index) =
        range' 1 (before.reopen bootstrapConfState).core.hardState.commit := by
  have first_eq := retained.inherits.firstIndex_reopen bootstrapConfState
  have commit_eq := retained.commit_of_clean clean bootstrapConfState
  have engine_eq : (before.reopen bootstrapConfState).engine = before.store.engine :=
    open_engine ..
  have visible := (retained.bootable.committing.current_le retained.bootable.tails).2
  rw [first_eq]
  refine entries_of_logged (congrArg OverlayLog.entries (open_overlay ..)) first_eq
    (retained.bootable.imaged.commit_le_lastIndex bootstrapConfState) fun positive within => ?_
  rw [engine_eq]
  rw [commit_eq] at within
  exact retained.logged_of_clean whole clean positive (le_trans within visible)

end Retained

/-- The storages a runtime can start with if no run so far has discarded anything. -/
inductive Kept : Store → Prop
  | created (bootstrapConfState : Option ConfState) : Kept (Store.init bootstrapConfState)
  | restarted {store : Store} {duties stopped} :
      Kept store →
      Runs perform (fun duty node => Admitted duty node ∧ Retains duty node) (Node.start store)
        duties stopped →
      ∀ bootstrapConfState, Unbroken (stopped.reopen bootstrapConfState) →
        Kept (stopped.reopen bootstrapConfState)

lemma retained_of_run {opened duties finish}
    (whole : Whole opened)
    (run : Runs perform (fun duty node => Admitted duty node ∧ Retains duty node)
      (Node.start opened) duties finish) : Retained opened finish :=
  run.invariant (Retained.start whole) fun retained guard taken =>
    retained.perform guard.1 guard.2 taken

lemma Kept.whole (kept : Kept store) : Whole store := by
  induction kept with
  | created bootstrapConfState =>
    exact { Loaded.init bootstrapConfState with
      marker := rfl
      first_one := fun stored => absurd rfl stored }
  | restarted _ run bootstrapConfState unbroken whole =>
    have retained := retained_of_run whole run
    exact { retained.bootable.reopened bootstrapConfState unbroken with
      marker := (open_snapshotIndex ..).trans retained.inherits.file_marker
      first_one := by
        rw [reopen, open_engine]
        exact retained.inherits.whole }

/-- In every run, over any number of restarts, that installs and builds no snapshot and compacts
nothing away, a fresh machine replays all committed entries after a clean shutdown, from the first
one to a commit index that no ready exceeded. -/
theorem replay_complete {opened : Store} (kept : Kept opened) {duties : List Duty} {finish : Node}
    (run : Runs perform (fun duty node => Admitted duty node ∧ Retains duty node)
      (Node.start opened) duties finish) (clean : finish.Clean)
    (bootstrapConfState : Option ConfState) {σ : Type*} (apply : σ → Entry → σ) (fresh : σ) :
    ∃ commit, commit = (finish.reopen bootstrapConfState).core.hardState.commit ∧
      opened.core.hardState.commit ≤ commit ∧
      (∀ ready ∈ finish.readies, ∀ hardState ∈ ready.hardState, hardState.commit ≤ commit) ∧
      (finish.committed opened commit).map (·.index) = range' 1 commit ∧
      replay apply fresh (finish.reopen bootstrapConfState) =
        some ((finish.committed opened commit).foldl apply fresh) := by
  have whole := kept.whole
  have retained := retained_of_run whole run
  have commit_eq := retained.commit_of_clean clean bootstrapConfState
  obtain ⟨listed, listed_eq, same, indexes⟩ :=
    retained.entries_of_clean whole clean bootstrapConfState
  refine ⟨_, rfl, ?_, fun ready member hardState carried => ?_, same ▸ indexes, ?_⟩
  · rw [commit_eq]
    exact retained.inherits.rising
  · rw [commit_eq]
    rw [(retained.finished_of_clean clean).1] at member
    exact (retained.covering member carried).1.2.2
  · unfold replay
    rw [listed_eq, same]

open Sample

/-- Two runs: entries are replicated and partly committed, and the rest is committed after the
restart. -/
theorem replay_complete_after_restart :
    ∃ stopped finish,
      Runs perform (fun duty node => Admitted duty node ∧ Retains duty node)
        (Node.start (Store.init none))
        (handOver (logReady 1 1 [1, 2, 3]) ++ work 0 5 ++ [.persist .acknowledge]) stopped ∧
      Kept (stopped.reopen none) ∧
      Runs perform (fun duty node => Admitted duty node ∧ Retains duty node)
        (Node.start (stopped.reopen none))
        (handOver (logReady 1 3 [3, 4]) ++ work 0 5 ++ [.compact 1]) finish ∧
      finish.Clean ∧
      ∃ commit, commit = (finish.reopen none).core.hardState.commit ∧
        (stopped.reopen none).core.hardState.commit ≤ commit ∧
        (∀ ready ∈ finish.readies, ∀ hardState ∈ ready.hardState, hardState.commit ≤ commit) ∧
        (finish.committed (stopped.reopen none) commit).map (·.index) = range' 1 commit ∧
        replay (fun state entry => state ++ [entry.index]) [] (finish.reopen none) =
          some ((finish.committed (stopped.reopen none) commit).foldl
            (fun state entry => state ++ [entry.index]) []) := by
  obtain ⟨stopped, run, unbroken, later⟩ := Runs.exists_of_execWhile perform
    (fun duty node => Admitted duty node ∧ Retains duty node) (Node.start (Store.init none))
    (handOver (logReady 1 1 [1, 2, 3]) ++ work 0 5 ++ [.persist .acknowledge])
    (fun node => Unbroken (node.reopen none) ∧
      (execWhile perform (fun duty node => Admitted duty node ∧ Retains duty node)
        (handOver (logReady 1 3 [3, 4]) ++ work 0 5 ++ [.compact 1])
        (Node.start (node.reopen none))).any fun finish => decide finish.Clean) (by decide)
  obtain ⟨finish, second, clean⟩ := Runs.exists_of_execWhile _ _ _ _ _ later
  have kept := Kept.restarted (.created none) run none unbroken
  exact ⟨stopped, finish, run, kept, second, clean,
    replay_complete kept second clean none (fun state entry => state ++ [entry.index]) []⟩

/-- A machine that records the indexes of the entries it applies. -/
private def record (state : List Nat) (entry : Entry) : List Nat := state ++ [entry.index]

private lemma foldl_record (entries : List Entry) (state : List Nat) :
    entries.foldl record state = state ++ entries.map (·.index) := by
  induction entries generalizing state with
  | nil => rw [foldl_nil, map_nil, append_nil]
  | cons entry entries ih =>
    rw [foldl_cons, ih, map_cons, record, append_assoc, singleton_append]

private def threeCommitted : List Duty :=
  handOver (logReady 1 3 [1, 2, 3]) ++ work 0 5 ++ [.persist .acknowledge]

/-- Runs that discard a prefix of the log: for a snapshot that a follower gets, by compaction, and
for a snapshot that this node gets. -/
private def discarding : List (List Duty) :=
  [threeCommitted ++ [.providerSnapshot 2 0], threeCommitted ++ [.compact 3],
    threeCommitted ++ handOver (restoreReady 2 5 5 []) ++ work 0 3]

/-- After a clean shutdown the replay ends in a state that no sequence of the committed entries
leads to. -/
theorem replay_incomplete :
    discarding.length = 3 ∧ ∀ duties ∈ discarding, ∃ finish,
      Runs perform Admitted (Node.start (Store.init none)) duties finish ∧ finish.Clean ∧
      ∀ entries : List Entry,
        entries.map (·.index) = range' 1 (finish.reopen none).core.hardState.commit →
          replay record [] (finish.reopen none) ≠ some (entries.foldl record []) := by
  refine ⟨rfl, fun duties member => ?_⟩
  have executed : ∀ duties ∈ discarding,
      (execWhile perform Admitted duties (Node.start (Store.init none))).any fun finish =>
        decide (finish.Clean ∧ replay record [] (finish.reopen none) ≠
          some (range' 1 (finish.reopen none).core.hardState.commit)) := by decide
  obtain ⟨finish, run, clean, differs⟩ :=
    Runs.exists_of_execWhile _ _ _ _ _ (executed duties member)
  refine ⟨finish, run, clean, fun entries indexes => ?_⟩
  rw [foldl_record, nil_append, indexes]
  exact differs

end Catga.Raft.Persist
