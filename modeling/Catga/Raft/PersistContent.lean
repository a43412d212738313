import Catga.Raft.PersistTails

/-!
# What raft-engine holds

While snapshots wait for the worker, the newest entry at every index is the visible one, and
raft-engine holds it once the batch of its ready has been written.
-/

namespace Catga.Raft.Persist

open Foundation Storage List Store Node

/-- The newest entries are visible, and stored once their ready is finished. -/
structure Held (node : Node) : Prop where
  low : node.store.engine.entries ≠ [] →
    (node.store.overlay.entries ≠ [] → node.store.engine.first ≤ node.store.overlay.offset) ∧
      ∀ first ∈ node.store.copiedFirst, node.store.engine.first ≤ first
  visible : ∀ {index ready entry}, node.newest index = some (ready, entry) →
    node.store.core.snapshotIndex < index → node.store.visible index = some entry
  finished : ∀ {index ready entry}, ready ∈ node.finished →
    node.newest index = some (ready, entry) →
      index ≤ node.store.core.snapshotIndex ∨ node.store.engine.getEntry index = some entry
  copied : ∀ {drained index ready entry}, node.store.worker = .copied drained →
    ready ∈ node.finished ∨ ready ∈ node.work.tasks →
      node.newest index = some (ready, entry) →
        index ≤ node.store.core.snapshotIndex ∨ entry ∈ drained ∨
          node.store.engine.getEntry index = some entry ∧
            ∀ head ∈ drained.head?, index < head.index
  stored : ∀ {index ready entry}, ready ∈ node.work.drained →
    (∀ drained, node.store.worker ≠ .copied drained) →
      node.newest index = some (ready, entry) →
        index ≤ node.store.core.snapshotIndex ∨ node.store.engine.getEntry index = some entry
  written : ∀ {drained entry}, node.store.worker = .written drained → entry ∈ drained →
    node.store.engine.getEntry entry.index = some entry

namespace Held

variable {before after : Node}

variable {store : Store} {ready : Ready} {index : Nat} {entry : Entry} {tasks : List Ready}
  {drained : List Entry} {tail : List Entry}

lemma start (opened : Opened store) : Held (Node.start store) := by
  constructor
  case low =>
    refine fun _ => ⟨fun pending => absurd ?_ pending, fun first copied => ?_⟩
    · exact congrArg OverlayLog.entries opened.overlay
    · simp only [copiedFirst, Node.start, opened.idle] at copied
      cases copied
  case visible =>
    intro index ready entry found
    cases found
  case finished =>
    intro index ready entry finished found
    cases found
  case copied =>
    intro drained index ready entry copied source found
    cases found
  case stored =>
    intro index ready entry drained copied found
    cases found
  case written =>
    intro drained entry written
    rw [show (Node.start store).store.worker = .idle from opened.idle] at written
    cases written

lemma took_nothing (held : Held before) {owner} (nothing : ready.entries = []) :
    Held { before with owner, newest := appended ready before.newest } := by
  rw [appended_of_nil nothing]
  exact { held with }

lemma offset_of_extend {overlay extended first batch}
    (taken : extendOverlay overlay first batch = some extended) :
    extended.offset = first ∨ overlay.entries ≠ [] ∧ extended.offset = overlay.offset := by
  unfold extendOverlay at taken
  split_ifs at taken with empty gap root
  · cases taken
    exact .inl rfl
  · cases taken
    exact .inl rfl
  · cases taken
    exact .inr ⟨empty, rfl⟩

lemma took (held : Held before) {head} (promised : Promised (.take ready) before)
    (entries : ready.entries = head :: tail)
    (appended : before.store.appendVisible (head :: tail) = .ok store) :
    Held (before.holding store ready) := by
  have precedes := promised.2
  have first_le : before.store.firstIndex ≤ head.index :=
    (promised.1 head (by rw [entries]; rfl)).2.1
  obtain ⟨-, overlay, extended, rfl⟩ := appendVisible_eq appended
  constructor
  case low =>
    intro stored
    obtain ⟨from_offset, from_copied⟩ := held.low stored
    refine ⟨fun _ => ?_, from_copied⟩
    have first_eq : before.store.firstIndex = before.store.engine.first := by
      simp [firstIndex, EngineLog.firstIndex, if_neg stored]
    rcases offset_of_extend extended with same | ⟨pending, same⟩
    · rw [same]
      exact first_eq ▸ first_le
    · rw [same]
      exact from_offset pending
  case visible =>
    intro index source entry found above
    refine (visible_append (cons_ne_nil head tail) extended).trans ?_
    rcases appended_cons_cases entries found with ⟨rfl, from_first, position⟩ | ⟨kept, below⟩
    · rw [if_neg (not_lt.mpr from_first)]
      exact position
    · rw [if_pos below]
      exact held.visible kept above
  case finished =>
    intro index source entry finished found
    exact held.finished finished
      (newest_of_earlier precedes (handed_of_finished finished) found)
  case copied =>
    intro drained index source entry copied member found
    refine held.copied copied member (newest_of_earlier precedes ?_ found)
    rcases member with finished | task
    · exact handed_of_finished finished
    · exact handed_of_task task
  case stored =>
    intro index source entry drained copied found
    exact held.stored drained copied
      (newest_of_earlier precedes (handed_of_task (task_of_drained drained)) found)
  case written => exact held.written

lemma replaced (tails : Tails before) {metadata}
    (owner : before.owner = .appended ready) (carried : ready.snapshot = some metadata)
    (positive : 0 < metadata.index) (above : before.store.core.snapshotIndex < metadata.index)
    (idle : before.store.worker = .idle)
    (installed : before.store.applySnapshotVisible metadata.index metadata.term
      metadata.confState = .ok store) :
    Held (before.restored store ready metadata.index) := by
  obtain rfl := applySnapshotVisible_eq above installed
  constructor
  case low =>
    refine fun _ => ⟨fun pending => absurd rfl pending, fun first copied => ?_⟩
    simp only [copiedFirst, idle] at copied
    cases copied
  case visible =>
    intro index source entry found above
    have covered := (tails.covered_by_snapshot owner carried positive found).1
    exact absurd covered (not_le.mpr above)
  case finished =>
    intro index source entry finished found
    exact .inl (tails.covered_by_snapshot owner carried positive found).1
  case copied =>
    intro drained index source entry copied member found
    exact .inl (tails.covered_by_snapshot owner carried positive found).1
  case stored =>
    intro index source entry drained copied found
    exact .inl (tails.covered_by_snapshot owner carried positive found).1
  case written =>
    intro drained entry written
    rw [show before.store.worker = .idle from idle] at written
    cases written

lemma engine_of_visible (found : store.visible index = some entry)
    (outside : store.overlay.entries = [] ∨ index < store.overlay.offset) :
    store.engine.getEntry index = some entry := by
  rwa [Store.visible, if_pos outside] at found

section

variable (held : Held before)
include held

variable (tails : Tails before) {engine : EngineLog}
include tails

lemma skipped
    (nothing : upTo tasks = 0 ∨ before.store.overlay.entries.takeWhile
      (fun entry => entry.index ≤ upTo tasks) = []) (task : ready ∈ tasks)
    (found : before.newest index = some (ready, entry)) :
    index ≤ before.store.core.snapshotIndex ∨ before.store.engine.getEntry index = some entry := by
  have hinted := tails.le_upTo task found
  rcases nothing with zero | nothing
  · exact .inl (by omega)
  · by_cases covered : index ≤ before.store.core.snapshotIndex
    · exact .inl covered
    · refine .inr (engine_of_visible (held.visible found (not_le.mp covered)) ?_)
      rw [tails.log.pending.takeWhile_le, take_eq_nil_iff] at nothing
      rcases nothing with short | empty
      · exact .inr (by omega)
      · exact .inl empty

/-- The copied batch holds the newest entries of its tasks, and of finished readies from its start
on: an entry beyond the batch would be newer than a task. -/
lemma copied_holds (ledger : Ledger before) (received : before.work = .received tasks)
    (some_tail : upTo tasks ≠ 0) {head}
    (batch : before.store.overlay.entries.takeWhile
      (fun entry => entry.index ≤ upTo tasks) = head :: tail)
    (member : ready ∈ before.finished ∨ ready ∈ tasks)
    (found : before.newest index = some (ready, entry)) :
    index ≤ before.store.core.snapshotIndex ∨ entry ∈ head :: tail ∨
      before.store.engine.getEntry index = some entry ∧ index < head.index := by
  have hinted : index ≤ upTo tasks := by
    rcases member with finished | task
    · obtain ⟨later, task, nonempty⟩ := exists_tail some_tail
      have task' : later ∈ before.work.tasks := by
        rw [received]
        exact task
      have ordered := (ledger.finished_precedes finished task').1
      have tail_le := tails.passed found
        (mem_append_left _ (handed_of_task task')) (le_of_lt ordered) nonempty
      exact le_trans tail_le (tailHint_le_upTo task)
    · exact tails.le_upTo task found
  by_cases covered : index ≤ before.store.core.snapshotIndex
  · exact .inl covered
  · have seen := held.visible found (not_le.mp covered)
    obtain ⟨starts, inside, -⟩ := copied_prefix tails.log.pending batch
    by_cases outside : index < before.store.overlay.offset
    · exact .inr (.inr ⟨engine_of_visible seen (.inr outside), starts ▸ outside⟩)
    · have pending : before.store.overlay.entries ≠ [] := by
        rw [← length_pos_iff]
        omega
      rw [Store.visible, if_neg (by simp [pending]; omega)] at seen
      refine .inr (.inl ?_)
      rw [← batch, tails.log.pending.takeWhile_le]
      refine mem_of_getElem? (i := index - before.store.overlay.offset) ?_
      rw [List.getElem?_take_of_lt (by omega)]
      exact seen

lemma copy (ledger : Ledger before) (received : before.work = .received tasks)
    (some_tail : upTo tasks ≠ 0)
    (nonempty : before.store.overlay.entries.takeWhile
      (fun entry => entry.index ≤ upTo tasks) ≠ []) :
    Held { before with
      store := before.store.copyPrefix (upTo tasks), work := .draining tasks } := by
  rw [copyPrefix_eq nonempty]
  obtain ⟨head, tail, batch⟩ := exists_cons_of_ne_nil nonempty
  rw [batch]
  obtain ⟨starts, inside, -⟩ := copied_prefix tails.log.pending batch
  constructor
  case low =>
    intro stored
    have pending : before.store.overlay.entries ≠ [] := by
      rw [← length_pos_iff]
      omega
    have from_offset := (held.low stored).1 pending
    refine ⟨fun _ => from_offset, fun first copied => ?_⟩
    obtain rfl : head.index = first := by simpa using copied
    exact starts ▸ from_offset
  case visible => exact held.visible
  case finished => exact held.finished
  case copied =>
    intro drained index ready entry copied member found
    cases copied
    rcases held.copied_holds tails ledger received some_tail batch member found with
      covered | taken | ⟨stored, below⟩
    · exact .inl covered
    · exact .inr (.inl taken)
    · exact .inr (.inr ⟨stored, by simpa using below⟩)
  case stored =>
    intro index ready entry drained not_copied found
    exact absurd rfl (not_copied _)
  case written =>
    intro drained entry written
    cases written

section

variable (copied : before.store.worker = .copied drained)
  (written : before.store.engine.addEntries drained = some engine)
include copied written

lemma getEntry_written :
    ∃ start, drained ≠ [] ∧ Segment Entry.index start drained ∧
      before.store.layout.Writable start ∧
      (∀ index, engine.getEntry index =
        if index < start then before.store.engine.getEntry index else drained[index - start]?) ∧
      engine.first = if before.store.engine.entries = [] then start
        else before.store.engine.first := by
  have batch := tails.log.draining
  rw [copied] at batch
  obtain ⟨start, nonempty, segment, writable⟩ := batch
  have reaches : before.store.engine.entries ≠ [] →
      before.store.engine.first ≤ start ∧ start ≤ before.store.engine.bound := by
    intro stored
    refine ⟨?_, writable.reaches (length_pos_iff.mpr stored)⟩
    obtain ⟨head, tail, rfl⟩ := exists_cons_of_ne_nil nonempty
    rw [← segment.key_head]
    exact (held.low stored).2 head.index (by simp [copied])
  exact ⟨start, nonempty, segment, writable,
    fun index => EngineLog.getEntry_addEntries nonempty segment
      (fun stored => (reaches stored).2) written,
    EngineLog.first_addEntries nonempty segment reaches written⟩

lemma wrote :
    Held { before with store := { before.store with engine, worker := .written drained } } := by
  obtain ⟨start, nonempty, segment, writable, get_eq, first_eq⟩ :=
    held.getEntry_written tails copied written
  have taken : ∀ entry ∈ drained, engine.getEntry entry.index = some entry := by
    intro entry mem
    obtain ⟨position, found⟩ := mem_iff_getElem?.mp mem
    have key := segment.key_getElem? found
    rw [get_eq, if_neg (by omega), key, Nat.add_sub_cancel_left, found]
  have stored : ∀ {index ready entry}, ready ∈ before.finished ∨ ready ∈ before.work.tasks →
      before.newest index = some (ready, entry) →
        index ≤ before.store.core.snapshotIndex ∨ engine.getEntry index = some entry := by
    intro index ready entry member found
    rcases held.copied copied member found with covered | mem | ⟨stored, below⟩
    · exact .inl covered
    · refine .inr ?_
      rw [← (tails.origin found).2.2.1]
      exact taken entry mem
    · refine .inr ?_
      obtain ⟨head, tail, rfl⟩ := exists_cons_of_ne_nil nonempty
      have below := below head rfl
      rw [segment.key_head] at below
      rw [get_eq, if_pos below]
      exact stored
  constructor
  case low =>
    intro _
    refine ⟨fun pending => ?_, fun first none_copied => by cases none_copied⟩
    change engine.first ≤ before.store.overlay.offset
    rw [first_eq]
    have above : before.store.core.snapshotIndex < before.store.overlay.offset :=
      (tails.log.covered.pending_ends (length_pos_iff.mpr pending)).1
    split_ifs with empty
    · have first_write : start = before.store.core.snapshotIndex + 1 :=
        writable.first_write (by simp [layout, empty])
      omega
    · exact (held.low empty).1 pending
  case visible =>
    -- The batch starts at or above the overlay, so nothing that raft-engine serves is replaced.
    intro index ready entry found above
    have seen := held.visible found above
    have within : index ≤ before.store.lastIndex := (tails.origin found).2.2.2
    have pending_before : 0 < before.store.overlay.entries.length →
        before.store.overlay.offset ≤ start := writable.pending_before
    have last_before : before.store.overlay.entries.length = 0 → before.store.lastIndex < start :=
      writable.last_before
    unfold Store.visible at seen ⊢
    by_cases outside : before.store.overlay.entries = [] ∨ index < before.store.overlay.offset
    · rw [if_pos outside] at seen ⊢
      rw [← seen]
      refine (get_eq index).trans (if_pos ?_)
      rcases outside with empty | below
      · have := last_before (by rw [empty]; rfl)
        omega
      · by_cases empty : before.store.overlay.entries.length = 0
        · have := last_before empty
          omega
        · have := pending_before (Nat.pos_of_ne_zero empty)
          omega
    · rw [if_neg outside] at seen ⊢
      exact seen
  case finished =>
    intro index ready entry finished found
    exact stored (.inl finished) found
  case copied =>
    intro other index ready entry copied'
    cases copied'
  case stored =>
    intro index ready entry member _ found
    exact stored (.inr (task_of_drained member)) found
  case written =>
    intro other entry written'
    cases written'
    exact taken entry

end

end

lemma visible_removed (pending : Segment Entry.index store.overlay.offset store.overlay.entries)
    (stored : ∀ entry ∈ drained, store.engine.getEntry entry.index = some entry)
    (seen : store.visible index = some entry) :
    (store.removeDrained drained).visible index = some entry := by
  unfold removeDrained
  dsimp only
  split_ifs with unchanged
  · obtain ⟨-, -, prefix_eq⟩ := unchanged
    exact visible_dropped pending (prefix_eq.symm ▸ stored) seen
  · exact seen

lemma offset_of_removed (segment : Segment Entry.index store.overlay.offset store.overlay.entries)
    (pending : (store.removeDrained drained).overlay.entries ≠ []) :
    store.overlay.entries ≠ [] ∧
      store.overlay.offset ≤ (store.removeDrained drained).overlay.offset := by
  unfold removeDrained at pending ⊢
  dsimp only at pending ⊢
  split_ifs at pending with unchanged
  · obtain ⟨-, offset_eq, -⟩ := drain_spec segment drained.length
    have some_left : ¬store.overlay.entries.length ≤ drained.length := by
      intro all
      exact pending (drop_eq_nil_iff.mpr all)
    have some_pending : store.overlay.entries ≠ [] := by
      rw [← length_pos_iff]
      omega
    rw [if_pos unchanged, offset_eq, if_neg some_left]
    exact ⟨some_pending, Nat.le_add_right _ _⟩
  · rw [if_neg unchanged]
    exact ⟨pending, le_rfl⟩

lemma removed (held : Held before) (tails : Tails before)
    (written : before.store.worker = .written drained) :
    Held { before with store := before.store.removeDrained drained } := by
  have stored : ∀ entry ∈ drained, before.store.engine.getEntry entry.index = some entry :=
    fun entry => held.written written
  constructor
  case low =>
    intro some_stored
    refine ⟨fun pending => ?_, fun first none_copied => by cases none_copied⟩
    obtain ⟨some_pending, offset_le⟩ := offset_of_removed tails.log.pending pending
    exact le_trans ((held.low some_stored).1 some_pending) offset_le
  case visible =>
    intro index ready entry found above
    exact visible_removed tails.log.pending stored (held.visible found above)
  case finished => exact held.finished
  case copied =>
    intro other index ready entry copied
    cases copied
  case stored =>
    intro index ready entry member _ found
    refine held.stored member (fun other copied => ?_) found
    rw [written] at copied
    cases copied
  case written =>
    intro other entry written'
    cases written'

lemma unwritten_of_idle {worker : Worker} (idle : worker = .idle) (drained : List Entry) :
    worker ≠ .copied drained ∧ worker ≠ .written drained := by
  subst idle
  exact ⟨Worker.noConfusion, Worker.noConfusion⟩

variable (held : Held before)
include held

lemma kept {core file worker work done}
    (snapshot_eq : core.snapshotIndex = before.store.core.snapshotIndex)
    (unwritten : ∀ drained, worker ≠ .copied drained ∧ worker ≠ .written drained)
    (finished : ∀ {index ready entry}, ready ∈ before.acknowledged ++ done →
      before.newest index = some (ready, entry) →
        index ≤ before.store.core.snapshotIndex ∨ before.store.engine.getEntry index = some entry)
    (drained : ∀ {index ready entry}, ready ∈ work.drained →
      before.newest index = some (ready, entry) →
        index ≤ before.store.core.snapshotIndex ∨
          before.store.engine.getEntry index = some entry) :
    Held { before with store := { before.store with core, file, worker }, work, done } := by
  constructor
  case low =>
    intro stored
    refine ⟨(held.low stored).1, fun first copied => ?_⟩
    unfold copiedFirst at copied
    split at copied
    · rename_i copied_eq
      exact absurd copied_eq (unwritten _).1
    · cases copied
  case visible =>
    intro index ready entry found above
    exact held.visible found (snapshot_eq ▸ above)
  case finished =>
    intro index ready entry member found
    exact (finished member found).imp_left (·.trans_eq snapshot_eq.symm)
  case copied =>
    intro drained index ready entry copied
    exact absurd copied (unwritten drained).1
  case stored =>
    intro index ready entry member _ found
    exact (drained member found).imp_left (·.trans_eq snapshot_eq.symm)
  case written =>
    intro drained entry written
    exact absurd written (unwritten drained).2

lemma shuffle {moved} (store : moved.store = before.store)
    (newest : moved.newest = before.newest)
    (finished : ∀ {index ready entry}, ready ∈ moved.finished →
      before.newest index = some (ready, entry) →
        index ≤ before.store.core.snapshotIndex ∨ before.store.engine.getEntry index = some entry)
    (copied : ∀ {drained ready}, before.store.worker = .copied drained →
      ready ∈ moved.finished ∨ ready ∈ moved.work.tasks →
        ready ∈ before.finished ∨ ready ∈ before.work.tasks)
    (drained : ∀ {ready}, ready ∈ moved.work.drained → ready ∈ before.work.drained) :
    Held moved := by
  constructor
  case low =>
    rw [store]
    exact held.low
  case visible =>
    rw [store, newest]
    exact held.visible
  case finished =>
    rw [store, newest]
    exact finished
  case copied =>
    rw [store, newest]
    intro batch index ready entry copied' member
    exact held.copied copied' (copied copied' member)
  case stored =>
    rw [store, newest]
    intro index ready entry member
    exact held.stored (drained member)
  case written =>
    rw [store]
    exact held.written

lemma stored_idle {indexes} (persisting : before.work = .snapshots tasks indexes)
    (idle : before.store.worker = .idle) (task : ready ∈ tasks)
    (found : before.newest index = some (ready, entry)) :
    index ≤ before.store.core.snapshotIndex ∨ before.store.engine.getEntry index = some entry := by
  refine held.stored (show ready ∈ before.work.drained from persisting ▸ task) ?_ found
  intro drained copied
  rw [idle] at copied
  cases copied

lemma step {label} (tails : Tails before) (ledger : Ledger before)
    (promised : Promised label before)
    (calm : Calm label before) (moved : Moved before label after) : Held after := by
  have phase := ledger.phase
  cases moved with
  | dropped => exact held
  | @took ready store polling appended =>
    cases entries : ready.entries with
    | nil =>
      rw [entries] at appended
      cases appended
      exact held.took_nothing entries
    | cons =>
      rw [entries] at appended
      exact held.took promised entries appended
  | passed | orphaned | queued => exact held.shuffle rfl rfl held.finished (fun _ => id) id
  | outdated owner carried positive refused =>
    exact (Tails.not_outdated promised owner carried refused).elim
  | replaced owner carried positive installed =>
    obtain ⟨above, none_open, rfl⟩ := tails.installing owner carried positive promised calm
    rw [(ledger.settled none_open).2.1] at phase
    exact replaced tails owner carried positive above phase installed
  | @inlined ready owner nothing none_open =>
    rw [(ledger.settled none_open).2.1] at phase
    refine held.shuffle rfl rfl (fun {index source entry} finished found => ?_)
      (fun copied => ?_) id
    · rcases finished_of_inlined finished with earlier | rfl
      · exact held.finished earlier found
      · rw [tails.eq_zero_of_nothing nothing found]
        exact .inl (Nat.zero_le _)
    · rw [show before.store.worker = .idle from phase] at copied
      cases copied
  | @acknowledged ready rest polling reported =>
    have finished_eq := finished_of_reported reported
    refine held.shuffle rfl rfl (fun finished found => held.finished (finished_eq ▸ finished) found)
      (fun _ member => ?_) id
    rcases member with finished | task
    · exact .inl (finished_eq ▸ finished)
    · exact .inr task
  | received waiting =>
    rw [waiting] at phase
    refine held.shuffle rfl rfl held.finished (fun copied => ?_) (fun task => by cases task)
    rw [show before.store.worker = .idle from phase] at copied
    cases copied
  | skipped received nothing =>
    rw [received] at phase
    exact held.kept rfl (unwritten_of_idle phase) held.finished
      (fun task found => held.skipped tails nothing task found)
  | copied received some_tail nonempty => exact held.copy tails ledger received some_tail nonempty
  | wrote draining copied written => exact held.wrote tails copied written
  | halted | failed =>
    exact held.kept rfl (by simp) held.finished (fun task => by cases task)
  | removed draining written => exact held.removed tails written
  | @raised tasks last draining removed =>
    refine held.kept rfl (unwritten_of_idle rfl) held.finished fun {_ ready _} task found => ?_
    refine held.stored (show ready ∈ before.work.drained from draining ▸ task) ?_ found
    intro drained copied
    rw [removed] at copied
    cases copied
  | persisted persisting =>
    rw [persisting] at phase
    exact held.kept rfl (unwritten_of_idle phase) held.finished
      (fun task found => held.stored_idle persisting phase task found)
  | kept persisting | completed persisting =>
    rw [persisting] at phase
    refine held.kept rfl (unwritten_of_idle phase) (fun finished found => ?_)
      (fun task => by cases task)
    rw [← append_assoc] at finished
    rcases mem_append.mp finished with earlier | task
    · exact held.finished earlier found
    · exact held.stored_idle persisting phase task found

end Held

end Catga.Raft.Persist
