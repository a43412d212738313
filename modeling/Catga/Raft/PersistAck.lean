import Catga.Raft.PersistContent

/-!
# Acknowledgements wait for durability

A ready is durable when a restart would give it back: its current entries, its hard state or a later
one, and its snapshot marker.  The worker rewrites the companion file only for a hard state or a
snapshot, and a visible snapshot empties the overlay under the worker, so a batch of entries alone,
or one overtaken by a snapshot, is acknowledged without being durable.
-/

namespace Catga.Raft.Persist

open Transition Storage Store List Node

variable {ready : Ready} {entry : Entry} {store : Store} {node : Node} {index : Nat}

/-- A restart gives the ready back: every entry of it that is still the newest at its index is read
again or covered by the snapshot, the hard state says at least as much, and the snapshot is not
older. -/
def Durable (node : Node) (ready : Ready) : Prop :=
  ∀ bootstrapConfState,
    (∀ entry ∈ ready.entries, node.newest entry.index = some (ready, entry) →
      entry.index ≤ (node.reopen bootstrapConfState).core.snapshotIndex ∨
        (node.reopen bootstrapConfState).entries entry.index (entry.index + 1) = .ok [entry]) ∧
    (∀ hardState ∈ ready.hardState,
      Covers (node.reopen bootstrapConfState).core.hardState hardState) ∧
    ready.snapshotIndex ≤ (node.reopen bootstrapConfState).core.snapshotIndex

/-- A batch with entries carries a hard state too, so that the companion file is rewritten after
the drain. -/
def Sealed : Label → Node → Prop
  | .receive more, node =>
    upTo (node.queue.take (more + 1)) ≠ 0 →
      lastHardState (node.queue.take (more + 1)) ≠ none
  | _, _ => True

instance : ∀ label node, Decidable (Sealed label node) := by
  rintro ⟨⟩ node <;> dsimp only [Sealed] <;> infer_instance

/-- What the companion file says about the readies. -/
structure Recorded (node : Node) : Prop where
  marked : ∀ {ready}, ready ∈ node.readies →
    ready.snapshotIndex ≤ node.store.core.snapshotIndex ∨ node.owner = .appended ready
  synced : node.store.file.snapshotIndex = node.store.core.snapshotIndex ∨ Behind node
  covered : ∀ {ready hardState}, ready ∈ node.finished → hardState ∈ ready.hardState →
    Covers node.store.core.hardState hardState ∧ Covers node.store.file.hardState hardState
  tailed : ∀ {index ready entry}, ready ∈ node.finished →
    node.newest index = some (ready, entry) →
      index ≤ node.store.core.snapshotIndex ∨ index ≤ node.store.file.lastValidIndex
  complete : upTo node.work.tasks ≠ 0 → lastHardState node.work.tasks ≠ none

lemma entries_of_getEntry (overlay : store.overlay = .empty)
    (found : store.engine.getEntry index = some entry) (within : index ≤ store.lastIndex) :
    store.entries index (index + 1) = .ok [entry] := by
  obtain ⟨from_first, below⟩ := EngineLog.within_of_getEntry found
  have low_le : store.firstIndex ≤ index := by
    have stored : store.engine.entries ≠ [] := by
      intro none_stored
      rw [EngineLog.bound, none_stored, length_nil] at below
      omega
    simpa [Store.firstIndex, EngineLog.firstIndex, if_neg stored]
      using from_first
  obtain ⟨listed, listed_eq, at_position⟩ := entries_of_empty
    (congrArg OverlayLog.entries overlay) low_le (Nat.succ_le_succ within)
    fun _ => ⟨from_first, below⟩
  rw [listed_eq]
  congr 1
  refine ext_getElem? fun position => ?_
  rw [at_position]
  cases position with
  | zero => rw [if_pos (by omega), Nat.add_zero, found]; rfl
  | succ => rw [if_neg (by omega)]; rfl

lemma durable_of_finished (recorded : Recorded node) (held : Held node)
    (synced : node.store.file.snapshotIndex = node.store.core.snapshotIndex)
    (finished : ready ∈ node.finished)
    (marked : ready.snapshotIndex ≤ node.store.core.snapshotIndex) : Durable node ready := by
  intro bootstrapConfState
  have snapshot_eq : (node.reopen bootstrapConfState).core.snapshotIndex =
      node.store.core.snapshotIndex := (open_snapshotIndex _ _ _).trans synced
  refine ⟨fun entry _ newest => ?_, fun hardState carried => ?_, snapshot_eq ▸ marked⟩
  · rw [snapshot_eq]
    by_cases covered : entry.index ≤ node.store.core.snapshotIndex
    · exact .inl covered
    · refine .inr (entries_of_getEntry (open_overlay _ _ _) ?_ ?_)
      · rw [reopen, open_engine]
        exact (held.finished finished newest).resolve_left covered
      · have tail := (recorded.tailed finished newest).resolve_left covered
        rw [Store.lastIndex, reopen, open_lastValidIndex, if_pos (by omega)]
        exact tail
  · rw [reopen, open_hardState]
    exact (recorded.covered finished carried).2

/-- Every hard state of a finished ready is covered, in memory and in the file. -/
def Covering (node : Node) : Prop :=
  ∀ {ready hardState}, ready ∈ node.finished → hardState ∈ ready.hardState →
    Covers node.store.core.hardState hardState ∧ Covers node.store.file.hardState hardState

lemma Covering.step {before after label} (covering : Covering before)
    (ledger : Ledger before) (tails : Tails before) (promised : Promised label before)
    (calm : Calm label before) (moved : Moved before label after) : Covering after := by
  intro ready hardState finished carried
  cases moved with
  | @took current store polling appended =>
    obtain ⟨-, file_eq, -⟩ := appendVisible_frame appended
    rw [show _ = before.store.file from file_eq, appendVisible_hardState appended]
    exact covering finished carried
  | outdated owner carried positive refused =>
    exact (Tails.not_outdated promised owner carried refused).elim
  | @replaced restored current metadata store owner bears positive installed =>
    obtain ⟨above, none_open, rfl⟩ := tails.installing owner bears positive promised calm
    obtain rfl := applySnapshotVisible_eq above installed
    obtain ⟨⟨term_le, vote, commit_le⟩, in_file⟩ := covering finished carried
    refine ⟨?_, in_file⟩
    -- The snapshot is not older than what was committed, and the term does not fall.
    have ordered := ledger.ordered
    rw [readies, pairwise_append] at ordered
    have precedes := ordered.2.2 ready (handed_of_finished finished) current
      (by rw [owner]; exact mem_singleton.mpr rfl)
    refine ⟨le_trans term_le (le_max_left _ _), fun same => vote ?_,
      (precedes.2 hardState carried).2 metadata bears⟩
    dsimp only at same
    omega
  | @inlined current owner nothing none_open =>
    rcases finished_of_inlined finished with earlier | rfl
    · exact covering earlier carried
    · rw [nothing.1] at carried
      cases carried
  | acknowledged polling reported =>
    refine covering ?_ carried
    rwa [← finished_of_reported reported]
  | copied received some_tail nonempty =>
    rw [copyPrefix_eq nonempty]
    exact covering finished carried
  | persisted =>
    have covered := (covering finished carried).1
    exact ⟨covered, covered⟩
  | kept persisting unchanged =>
    rw [Node.finished, ← append_assoc] at finished
    rcases mem_append.mp finished with earlier | task
    · exact covering earlier carried
    · rw [hardState_none unchanged task] at carried
      cases carried
  | @completed tasks last persisting changed =>
    have tasks_eq : before.work.tasks = tasks := by rw [persisting]; rfl
    rw [Node.finished, ← append_assoc] at finished
    have covers : Covers last hardState := by
      rcases mem_append.mp finished with earlier | task
      · obtain ⟨later, task, newer⟩ := lastHardState_mem changed
        have precedes := ledger.finished_precedes earlier (tasks_eq ▸ task)
        exact (precedes.2 hardState carried).1 last newer
      · refine lastHardState_covers ?_ changed task carried
        have ordered := ledger.ordered
        rw [readies_eq, pending, tasks_eq] at ordered
        exact ordered.sublist (sublist_append_of_sublist_right
          (((sublist_append_left tasks _).trans (sublist_append_left _ _)).trans
            (sublist_append_left _ _)))
    exact ⟨covers, covers⟩
  | _ => exact covering finished carried

namespace Recorded

variable {before after : Node} {label : Label}

lemma start (opened : Opened store) : Recorded (start store) where
  marked member := by cases member
  synced := .inl opened.one_marker
  covered finished := by cases finished
  tailed finished := by cases finished
  complete some_tail := absurd rfl some_tail

section

variable (recorded : Recorded before) (ledger : Ledger before) (tails : Tails before)
  (promised : Promised label before) (calm : Calm label before) (moved : Moved before label after)
include recorded ledger tails promised calm moved

lemma marked_step (member : ready ∈ after.readies) :
    ready.snapshotIndex ≤ after.store.core.snapshotIndex ∨ after.owner = .appended ready := by
  have readies_kept := ledger.readies_kept moved
  have marker_kept := marker_kept moved
  -- Past `take` and `install` the owner is where it was, or it has let go of an installed ready.
  have settled : after.readies = before.readies →
      after.store.core.snapshotIndex = before.store.core.snapshotIndex →
        (∀ ready, before.owner = .appended ready → after.owner = .appended ready) →
          ready.snapshotIndex ≤ after.store.core.snapshotIndex ∨ after.owner = .appended ready := by
    intro readies_eq marker_eq owner_kept
    rw [marker_eq]
    rw [readies_eq] at member
    exact (recorded.marked member).imp id (owner_kept ready)
  cases moved with
  | dropped => exact recorded.marked member
  | took polling =>
    rcases mem_append.mp member with earlier | new
    · have earlier' : ready ∈ before.readies := mem_append_left _ earlier
      refine .inl ?_
      rw [marker_kept (by simp)]
      refine (recorded.marked earlier').resolve_right fun owner => ?_
      rw [polling] at owner
      cases owner
    · rw [mem_singleton.mp new]
      exact .inr rfl
  | @passed restored current owner bare =>
    refine .inl ?_
    have member' : ready ∈ before.readies := by
      simpa [readies, handed, Owner.current, owner] using member
    rcases recorded.marked member' with marked | same
    · exact marked
    · rw [owner] at same
      cases same
      rw [bare]
      exact Nat.zero_le _
  | outdated owner carried positive refused =>
    exact (Tails.not_outdated promised owner carried refused).elim
  | @replaced restored current metadata store owner carried positive installed =>
    obtain ⟨above, -, rfl⟩ := tails.installing owner carried positive promised calm
    obtain rfl := applySnapshotVisible_eq above installed
    have member' : ready ∈ before.readies := by
      simpa [readies, handed, Owner.current, owner] using member
    refine .inl (show ready.snapshotIndex ≤ metadata.index from ?_)
    rcases recorded.marked member' with marked | same
    · omega
    · rw [owner] at same
      cases same
      simp [Ready.snapshotIndex, carried]
  | inlined owner | orphaned owner | queued owner =>
    refine settled (readies_kept (by simp) (by simp)) (marker_kept (by simp)) fun ready same => ?_
    rw [owner] at same
    cases same
  | _ =>
    exact settled (readies_kept (by simp) (by simp)) (marker_kept (by simp)) fun _ same => same

/-- The file has the current marker, or the ready that will bring it is the first one pending. -/
lemma synced_step :
    after.store.file.snapshotIndex = after.store.core.snapshotIndex ∨ Behind after := by
  rcases recorded.synced with synced | behind
  · cases moved with
    | took polling appended =>
      obtain ⟨-, file_eq, marker_eq⟩ := appendVisible_frame appended
      rw [show _ = before.store.file from file_eq, marker_eq]
      exact .inl synced
    | outdated owner carried positive refused =>
      exact (Tails.not_outdated promised owner carried refused).elim
    | replaced owner carried positive installed =>
      obtain ⟨above, none_open, rfl⟩ := tails.installing owner carried positive promised calm
      exact .inr (Behind.of_installed ledger carried positive none_open above
        synced.le installed)
    | copied received some_tail nonempty =>
      rw [copyPrefix_eq nonempty]
      exact .inl synced
    | persisted | completed => exact .inl rfl
    | _ => exact .inl synced
  · rcases behind.step ledger tails promised calm moved with ⟨still, -⟩ | persisted
    · exact .inr still
    · rw [persisted]
      exact .inl rfl

end

lemma tailed_of_durable (tails : Tails node) (found : node.newest index = some (ready, entry))
    (durable : index ≤ max node.store.core.durableLastIndex node.store.core.snapshotIndex) :
    index ≤ node.store.core.snapshotIndex ∨ index ≤ node.store.core.image.lastValidIndex := by
  have within := (tails.origin found).2.2.2
  rw [Store.lastIndex] at within
  change _ ∨ index ≤ min node.store.core.durableLastIndex node.store.core.lastValidIndex
  split_ifs at within <;> omega

lemma tailed_step (recorded : Recorded before) (tails : Tails before)
    (promised : Promised label before) (calm : Calm label before) (moved : Moved before label after)
    (tails_after : Tails after) (finished : ready ∈ after.finished)
    (found : after.newest index = some (ready, entry)) :
    index ≤ after.store.core.snapshotIndex ∨ index ≤ after.store.file.lastValidIndex := by
  cases moved with
  | took polling appended =>
    obtain ⟨-, file_eq, marker_eq⟩ := appendVisible_frame appended
    rw [show _ = before.store.file from file_eq, marker_eq]
    exact recorded.tailed finished
      (newest_of_earlier promised.2 (handed_of_finished finished) found)
  | outdated owner carried positive refused =>
    exact (Tails.not_outdated promised owner carried refused).elim
  | replaced owner carried positive installed =>
    obtain ⟨above, -, rfl⟩ := tails.installing owner carried positive promised calm
    obtain rfl := applySnapshotVisible_eq above installed
    exact .inl (tails.covered_by_snapshot owner carried positive found).1
  | inlined owner nothing =>
    rcases finished_of_inlined finished with earlier | rfl
    · exact recorded.tailed earlier found
    · rw [tails.eq_zero_of_nothing nothing found]
      exact .inl (Nat.zero_le _)
  | acknowledged polling reported =>
    refine recorded.tailed ?_ found
    rwa [← finished_of_reported reported]
  | copied received some_tail nonempty =>
    rw [copyPrefix_eq nonempty]
    exact recorded.tailed finished found
  | persisted | completed =>
    exact tailed_of_durable tails_after found (tails_after.finished finished found)
  | @kept tasks persisting unchanged =>
    rw [Node.finished, ← append_assoc] at finished
    rcases mem_append.mp finished with earlier | task
    · exact recorded.tailed earlier found
    · -- A batch without a hard state has no entries.
      have hinted := tails.le_upTo task found
      have complete := recorded.complete
      rw [persisting] at complete
      have bare : upTo tasks = 0 := by
        by_contra some_tail
        exact complete some_tail unchanged
      exact .inl (by omega)
  | _ => exact recorded.tailed finished found

lemma complete_step (recorded : Recorded before) (sealed_batch : Sealed label before)
    (moved : Moved before label after) (some_tail : upTo after.work.tasks ≠ 0) :
    lastHardState after.work.tasks ≠ none := by
  have complete := recorded.complete
  cases moved with
  | received waiting filled =>
    have sealed_batch : upTo (List.take _ before.queue) ≠ 0 → _ := sealed_batch
    rw [filled] at sealed_batch
    exact sealed_batch some_tail
  | skipped working | copied working | halted working | raised working | persisted working =>
    rw [working] at complete
    exact complete some_tail
  | failed working =>
    rcases working with work | work | ⟨indexes, work⟩ <;> rw [work] at complete <;>
      exact complete some_tail
  | kept | completed => exact absurd rfl some_tail
  | _ => exact complete some_tail

lemma step (recorded : Recorded before) (ledger : Ledger before) (tails : Tails before)
    (promised : Promised label before) (calm : Calm label before)
    (sealed_batch : Sealed label before) (moved : Moved before label after) : Recorded after where
  marked := recorded.marked_step ledger tails promised calm moved
  synced := recorded.synced_step ledger tails promised calm moved
  covered := Covering.step recorded.covered ledger tails promised calm moved
  tailed := recorded.tailed_step tails promised calm moved
    (tails.step ledger promised calm moved)
  complete := recorded.complete_step sealed_batch moved

end Recorded

/-- What holds of every state. -/
structure Sound (node : Node) : Prop where
  ledger : Ledger node
  tails : Tails node
  held : Held node
  recorded : Recorded node

namespace Sound

variable {before after : Node}

lemma start (opened : Opened store) : Sound (start store) :=
  ⟨Ledger.start opened.idle, Tails.start opened, Held.start opened, Recorded.start opened⟩

variable (sound : Sound before)
include sound

lemma step {label} (promised : Promised label before) (calm : Calm label before)
    (sealed_batch : Sealed label before) (taken : Persist.step label before = some after) :
    Sound after := by
  have moved := step_moved taken
  obtain ⟨ledger, tails, held, recorded⟩ := sound
  exact ⟨ledger.step promised moved, tails.step ledger promised calm moved,
    held.step tails ledger promised calm moved,
    recorded.step ledger tails promised calm sealed_batch moved⟩

/-- Finished readies are durable while the owner is between two readies and the file has the current
marker. -/
lemma durable (polling : before.owner = .polling)
    (synced : before.store.file.snapshotIndex = before.store.core.snapshotIndex)
    (finished : ready ∈ before.finished) : Durable before ready := by
  refine durable_of_finished sound.recorded sound.held synced finished ?_
  have member : ready ∈ before.readies := mem_append_left _ (handed_of_finished finished)
  refine (sound.recorded.marked member).resolve_right fun appended => ?_
  rw [polling] at appended
  cases appended

lemma acknowledged_increasing : (before.acknowledged.map Ready.number).Pairwise (· < ·) := by
  have ordered := sound.ledger.ordered
  rw [readies_eq, Node.finished, append_assoc] at ordered
  exact pairwise_map.mpr
    ((pairwise_append.mp ordered).1.imp fun precedes => precedes.1)

lemma acknowledged_of_number_le {earlier} (acknowledged : ready ∈ before.acknowledged)
    (member : earlier ∈ before.readies) (number_le : earlier.number ≤ ready.number) :
    earlier ∈ before.acknowledged := by
  have ordered := sound.ledger.ordered
  rw [readies_eq, Node.finished, append_assoc] at ordered member
  rcases mem_append.mp member with inside | later
  · exact inside
  · have precedes := (pairwise_append.mp ordered).2.2 ready acknowledged earlier later
    exact absurd number_le (not_le.mpr precedes.1)

end Sound

/-- Where a snapshot comes without entries, becomes visible with nothing in flight and is restored,
and every batch with entries carries a hard state: `on_persist_ready` is called with increasing
numbers, only when every ready up to that number is durable, and so are messages sent. -/
theorem acknowledged_durable {store : Store} (opened : Opened store) {labels : List Label}
    {label : Label} {before after : Node}
    (run : Runs step (fun label node => Promised label node ∧ Calm label node ∧ Sealed label node)
      (Node.start store) labels before)
    (admitted : Promised label before ∧ Calm label before ∧ Sealed label before)
    (taken : step label before = some after) :
    (after.acknowledged.map Ready.number).Pairwise (· < ·) ∧
      (∀ ready ∈ after.acknowledged, ready ∉ before.acknowledged →
        ∀ earlier ∈ after.readies, earlier.number ≤ ready.number → Durable before earlier) ∧
      ∀ ready ∈ after.sent, ready ∉ before.sent → Durable before ready := by
  have sound : Sound before :=
    run.invariant (Sound.start opened) fun holds admitted taken =>
      holds.step admitted.1 admitted.2.1 admitted.2.2 taken
  have sound_after := sound.step admitted.1 admitted.2.1 admitted.2.2 taken
  have increasing := sound_after.acknowledged_increasing
  -- The storage is the same before and after an acknowledgement.
  have all_durable : after.store = before.store → after.newest = before.newest →
      after.owner = .polling → ¬Behind before →
        ∀ earlier ∈ after.acknowledged, Durable before earlier := by
    intro store_eq newest_eq polling current earlier acknowledged
    have synced := sound.recorded.synced.resolve_right current
    rw [← store_eq] at synced
    have durable := sound_after.durable polling synced (mem_append_left _ acknowledged)
    unfold Durable Node.reopen at durable ⊢
    rwa [store_eq, newest_eq] at durable
  have moved := step_moved taken
  cases moved with
  | inlined owner nothing none_open =>
    have durable := all_durable rfl rfl rfl
      fun behind => behind.not_inline sound.ledger owner nothing none_open
    refine ⟨increasing, fun ready acknowledged _ earlier member number_le => ?_,
      fun ready sent new => absurd sent new⟩
    exact durable earlier
      (sound_after.acknowledged_of_number_le acknowledged member number_le)
  | acknowledged polling reported =>
    have durable := all_durable rfl rfl polling fun behind => by
      rw [behind.unreported] at reported
      cases reported
    refine ⟨increasing, fun ready acknowledged _ earlier member number_le => ?_,
      fun ready sent new => ?_⟩
    · exact durable earlier
        (sound_after.acknowledged_of_number_le acknowledged member number_le)
    · refine durable ready (mem_append_right _ ?_)
      exact (mem_append.mp sent).resolve_left new
  | _ =>
    exact ⟨increasing, fun ready acknowledged new => absurd acknowledged new,
      fun ready sent new => absurd sent new⟩

/-- Two readies whose persists overlap and a snapshot after them are acknowledged in order. -/
theorem acknowledged_durable_through_snapshot :
    ∃ before after, Runs step
        (fun label node => Promised label node ∧ Calm label node ∧ Sealed label node)
        (Node.start (Store.init none))
        ([.take (logReady 1 0 [1, 2]), .install true, .send, .receive 0, .proceed,
          .take (logReady 2 2 [3]), .install true, .send, .proceed, .proceed, .proceed, .proceed,
          .acknowledge,
          .receive 0, .proceed, .proceed, .proceed, .proceed, .proceed, .acknowledge,
          .take (restoreReady 3 5 5 []), .install true, .send, .receive 0, .proceed, .proceed,
          .proceed]) before ∧
      step .acknowledge before = some after ∧
      after.sent.map Ready.number = [1, 2, 3] ∧
      (after.acknowledged.map Ready.number).Pairwise (· < ·) ∧
      (∀ ready ∈ after.acknowledged, ready ∉ before.acknowledged →
        ∀ earlier ∈ after.readies, earlier.number ≤ ready.number → Durable before earlier) ∧
      ∀ ready ∈ after.sent, ready ∉ before.sent → Durable before ready := by
  simp only [exists_and_left]
  refine Runs.exists_of_test (fun node => (step .acknowledge node).any fun after =>
    decide (after.sent.map Ready.number = [1, 2, 3])) (by decide) fun {before} run next => ?_
  obtain ⟨after, taken, sent⟩ := (Option.any_eq_true _ _).mp next
  have admitted : Promised .acknowledge before ∧ Calm .acknowledge before ∧
      Sealed .acknowledge before := ⟨trivial, trivial, trivial⟩
  exact ⟨after, taken, of_decide_eq_true sent,
    acknowledged_durable (Opened.init none) run admitted taken⟩

/-- An entry of a ready that a restart does not give back. -/
def Lost (node : Node) (ready : Ready) (entry : Entry) : Prop :=
  ready ∈ node.acknowledged ∧ entry ∈ ready.entries ∧
    node.newest entry.index = some (ready, entry) ∧
    (node.reopen none).core.snapshotIndex < entry.index ∧
    (node.reopen none).entries entry.index (entry.index + 1) ≠ .ok [entry]
deriving Decidable

lemma Lost.not_durable (lost : Lost node ready entry) :
    ready ∈ node.acknowledged ∧ ¬Durable node ready := by
  obtain ⟨acknowledged, member, newest, above, unread⟩ := lost
  refine ⟨acknowledged, fun durable => ?_⟩
  rcases (durable none).1 entry member newest with covered | read
  · exact absurd covered (not_le.mpr above)
  · exact unread read

private def unvotedReady : Ready := { logReady 1 0 [1] with hardState := none }

/-- A ready with an entry and no hard state is persisted and acknowledged. -/
private def entriesOnly : List Label :=
  [.take unvotedReady, .install true, .send, .receive 0, .proceed, .proceed, .proceed,
    .proceed, .proceed, .acknowledge]

/-- A ready is persisted and reported; a snapshot becomes visible before the owner receives the
report. -/
private def overtaken : List Label :=
  [.take (logReady 1 0 [1]), .install true, .send, .receive 0, .proceed, .proceed, .proceed,
    .proceed, .proceed, .take (restoreReady 2 5 5 []), .install true, .send, .acknowledge]

/-- The entry is appended, the snapshot empties the overlay, and the ready is acknowledged. -/
private def together : List Label :=
  [.take (restoreReady 1 5 5 [6]), .install true, .send, .receive 0, .proceed, .proceed, .proceed,
    .acknowledge]

/-- Three ways to acknowledge a ready whose entry a restart does not give back. -/
theorem acknowledged_and_lost :
    (∃ node, Runs step Promised (Node.start (Store.init none)) entriesOnly node ∧
      unvotedReady ∈ node.acknowledged ∧ ¬Durable node unvotedReady) ∧
    (∃ node, Runs step Promised (Node.start (Store.init none)) overtaken node ∧
      logReady 1 0 [1] ∈ node.acknowledged ∧ ¬Durable node (logReady 1 0 [1])) ∧
    ∃ node, Runs step Promised (Node.start (Store.init none)) together node ∧
      restoreReady 1 5 5 [6] ∈ node.acknowledged ∧ ¬Durable node (restoreReady 1 5 5 [6]) := by
  refine ⟨?_, ?_, ?_⟩
  · exact Runs.exists_of_test (Lost · unvotedReady (.bare 1 1)) (by decide)
      fun _ lost => lost.not_durable
  · exact Runs.exists_of_test (Lost · (logReady 1 0 [1]) (.bare 1 1)) (by decide)
      fun _ lost => lost.not_durable
  · exact Runs.exists_of_test (Lost · (restoreReady 1 5 5 [6]) (.bare 1 6)) (by decide)
      fun _ lost => lost.not_durable

end Catga.Raft.Persist
